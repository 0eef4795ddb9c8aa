/-
# Hexadecimal texts

`encoding/hex`: two digits for each byte, in lower case when written and in either case when read.
A text of odd length or with another character is an error.
-/

import K8s4Claw.Lib.Decimal

namespace K8s4Claw.Lib.Hex

def digit (n : ℕ) : Char := Char.ofNat (if n < 10 then 48 + n else 87 + n)

def value (c : Char) : Option ℕ :=
  if '0' ≤ c ∧ c ≤ '9' then some (c.toNat - 48)
  else if 'a' ≤ c ∧ c ≤ 'f' then some (c.toNat - 87)
  else if 'A' ≤ c ∧ c ≤ 'F' then some (c.toNat - 55)
  else none

def encodeByte (x : UInt8) : List Char := [digit (x.toNat / 16), digit (x.toNat % 16)]

def encodeToString (b : Bytes) : String := String.ofList (b.flatMap encodeByte)

/-- The bytes of pairs of digits. -/
def decode : List Char → Option Bytes
  | [] => some []
  | [_] => none
  | hi :: lo :: cs => do
      let h ← value hi
      let l ← value lo
      let rest ← decode cs
      return UInt8.ofNat (16 * h + l) :: rest

def decodeString (s : String) : Option Bytes := decode s.toList

theorem value_digit : ∀ n < 16, value (digit n) = some n := by decide

theorem decode_flatMap (b : Bytes) : decode (b.flatMap encodeByte) = some b := by
  induction b with
  | nil => rfl
  | cons x b ih =>
    have hx : x.toNat < 256 := x.toNat_lt
    have hhi := value_digit (x.toNat / 16) (by omega)
    have hlo := value_digit (x.toNat % 16) (by omega)
    have hbyte : UInt8.ofNat (16 * (x.toNat / 16) + x.toNat % 16) = x := by
      rw [Nat.div_add_mod, UInt8.ofNat_toNat]
    rw [List.flatMap_cons, encodeByte, List.cons_append, List.cons_append, List.nil_append,
      decode, hhi, hlo, ih]
    exact congrArg (fun y => some (y :: b)) hbyte

/-- **What is written is read back.** -/
theorem decodeString_encodeToString (b : Bytes) : decodeString (encodeToString b) = some b := by
  rw [decodeString, encodeToString, String.toList_ofList, decode_flatMap]

end K8s4Claw.Lib.Hex
