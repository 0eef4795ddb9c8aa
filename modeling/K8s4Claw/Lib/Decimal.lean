/-
# Decimal numbers as bytes

`decimal` writes a natural number without leading zeros, `padded` with at least a
given number of digits, `intText` an integer; `decimalValue` and `parseInt` read
them back (`decimalValue_decimal`, `decimalValue_padded`, `parseInt_intText`).
-/

import Mathlib.Algebra.Ring.Int.Defs
import Mathlib.Algebra.Ring.Nat
import Mathlib.Data.List.Basic
import Mathlib.Order.Lattice

namespace K8s4Claw.Lib

open List

/-- A string of bytes. -/
abbrev Bytes := List UInt8

def isDigit (c : UInt8) : Bool := 48 ≤ c && c ≤ 57

/-- A natural number without leading zeros. -/
def decimal (n : ℕ) : Bytes := (Nat.toDigits 10 n).map fun c => UInt8.ofNat c.toNat

/-- A natural number with at least `k` digits. -/
def padded (k n : ℕ) : Bytes := List.replicate (k - (decimal n).length) 48 ++ decimal n

/-- The number a string of digits stands for. -/
def decimalValue (b : Bytes) : ℕ := b.foldl (fun n x => 10 * n + (x.toNat - 48)) 0

/-- An integer, without a sign when it is not negative. -/
def intText (n : ℤ) : Bytes := if n < 0 then 45 :: decimal n.natAbs else decimal n.natAbs

/-- The natural number a nonempty string of digits stands for. -/
def parseNat (b : Bytes) : Option ℕ :=
  if b ≠ [] ∧ b.all isDigit then some (decimalValue b) else none

/-- The integer a text stands for. -/
def parseInt : Bytes → Option ℤ
  | 45 :: b => (parseNat b).map fun n : ℕ => -(n : ℤ)
  | b => (parseNat b).map fun n : ℕ => (n : ℤ)

theorem toNat_of_isDigit {c : UInt8} (h : isDigit c = true) : 48 ≤ c.toNat ∧ c.toNat ≤ 57 := by
  simp only [isDigit, Bool.and_eq_true, decide_eq_true_eq] at h
  exact h

theorem isDigit_of_toNat {c : UInt8} (h : 48 ≤ c.toNat ∧ c.toNat ≤ 57) : isDigit c = true := by
  simp only [isDigit, Bool.and_eq_true, decide_eq_true_eq]
  exact h

theorem toNat_of_mem_toDigits {n : ℕ} {c : Char} (h : c ∈ Nat.toDigits 10 n) :
    48 ≤ c.toNat ∧ c.toNat ≤ 57 := by
  have hd := Nat.isDigit_of_mem_toDigits (by decide) (by decide) h
  simpa [Char.isDigit, UInt32.le_iff_toNat_le] using hd

theorem isDigit_of_mem_decimal {n : ℕ} {x : UInt8} (h : x ∈ decimal n) : isDigit x = true := by
  obtain ⟨c, hc, rfl⟩ := mem_map.1 h
  have := toNat_of_mem_toDigits hc
  refine isDigit_of_toNat ?_
  rw [UInt8.toNat_ofNat']
  omega

theorem decimal_ne_nil (n : ℕ) : decimal n ≠ [] := by
  simp [decimal]

theorem foldl_digits {cs : List Char} (h : ∀ c ∈ cs, c.toNat < 256) (a : ℕ) :
    (cs.map fun c => UInt8.ofNat c.toNat).foldl (fun n x => 10 * n + (x.toNat - 48)) a =
      Nat.ofDigitChars 10 cs a := by
  induction cs generalizing a with
  | nil => simp
  | cons c cs ih =>
    have hc : (UInt8.ofNat c.toNat).toNat = c.toNat := by
      have := h c (by simp)
      rw [UInt8.toNat_ofNat']
      omega
    rw [map_cons, foldl_cons, hc, ih fun d hd => h d (mem_cons_of_mem c hd)]
    rfl

/-- **A number is read back from its digits.** -/
theorem decimalValue_decimal (n : ℕ) : decimalValue (decimal n) = n := by
  rw [decimalValue, decimal, foldl_digits, Nat.ofDigitChars_ten_toDigits]
  intro c hc
  have := toNat_of_mem_toDigits hc
  omega

theorem foldl_replicate_zero (k : ℕ) :
    (List.replicate k (48 : UInt8)).foldl (fun n x => 10 * n + (x.toNat - 48)) 0 = 0 := by
  induction k with
  | zero => rfl
  | succ k ih => exact ih

theorem decimalValue_padded (k n : ℕ) : decimalValue (padded k n) = n := by
  rw [decimalValue, padded, foldl_append, foldl_replicate_zero]
  exact decimalValue_decimal n

theorem decimalValue_append_replicate (b : Bytes) (k : ℕ) :
    decimalValue (b ++ List.replicate k 48) = decimalValue b * 10 ^ k := by
  rw [decimalValue, foldl_append]
  change foldl _ (decimalValue b) _ = _
  generalize decimalValue b = a
  induction k generalizing a with
  | zero => simp
  | succ k ih =>
    rw [replicate_succ, foldl_cons, ih, Nat.pow_succ]
    simp only [UInt8.reduceToNat, Nat.sub_self, Nat.add_zero]
    rw [Nat.mul_comm 10 a, Nat.mul_assoc, Nat.mul_comm (10 ^ k) 10]

theorem isDigit_of_mem_padded {k n : ℕ} {x : UInt8} (h : x ∈ padded k n) : isDigit x = true := by
  rcases mem_append.1 h with h | h
  · rw [eq_of_mem_replicate h]
    rfl
  · exact isDigit_of_mem_decimal h

theorem length_padded {k n : ℕ} (hk : 0 < k) (h : n < 10 ^ k) : (padded k n).length = k := by
  have hle : (decimal n).length ≤ k := by
    rw [decimal, length_map]
    exact (Nat.length_toDigits_le_iff (by decide) hk).2 h
  rw [padded, length_append, length_replicate]
  omega

theorem parseNat_of_digits {b : Bytes} (hne : b ≠ []) (h : ∀ x ∈ b, isDigit x = true) :
    parseNat b = some (decimalValue b) := by
  rw [parseNat, if_pos ⟨hne, all_eq_true.2 h⟩]

theorem parseNat_decimal (n : ℕ) : parseNat (decimal n) = some n := by
  rw [parseNat_of_digits (decimal_ne_nil n) fun _ => isDigit_of_mem_decimal, decimalValue_decimal]

/-- **An integer is read back from its text.** -/
theorem parseInt_intText (n : ℤ) : parseInt (intText n) = some n := by
  unfold intText
  split_ifs
  · rw [parseInt, parseNat_decimal, Option.map_some]
    congr 1
    omega
  · obtain ⟨x, b, hb⟩ := exists_cons_of_ne_nil (decimal_ne_nil n.natAbs)
    have hx : x ≠ 45 := by
      rintro rfl
      have h45 : (45 : UInt8) ∈ decimal n.natAbs := by simp [hb]
      exact absurd (isDigit_of_mem_decimal h45) (by decide)
    have hparse : parseInt (decimal n.natAbs) =
        (parseNat (decimal n.natAbs)).map fun n : ℕ => (n : ℤ) := by
      rw [hb, parseInt]
      simpa using hx
    rw [hparse, parseNat_decimal, Option.map_some]
    congr 1
    omega

end K8s4Claw.Lib
