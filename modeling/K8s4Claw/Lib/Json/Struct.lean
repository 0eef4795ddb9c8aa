/-
# Go structs in JSON

How `encoding/json` fills a struct from an object: the members are taken in order,
a member sets the field whose name it has up to letter case (`foldName`), one with
no such field is skipped, `null` leaves a field as it is, and a value of the wrong
kind is an error.  A later member of the same name sets the field again.

`decodeStruct_nil`, `decodeStruct_cons` and `decodeStruct_omitEmpty` compute what a list of
members does; the other lemmas say that each kind of field is read back from what is
written for it.  Two structs with the same names are filled alike (`decodeStruct_map`).
-/

import K8s4Claw.Lib.Json.Scan
import K8s4Claw.Lib.Json.Text
import K8s4Claw.Lib.Rfc3339

namespace K8s4Claw.Lib.Json

open List

/-- The letter all letters that differ only in case are compared by: the least of them.
U+017F and U+212A are the only ones outside ASCII with an ASCII letter among them. -/
def foldChar (c : Char) : Char :=
  if 97 ≤ c.toNat ∧ c.toNat ≤ 122 then Char.ofNat (c.toNat - 32)
  else if c.toNat = 0x17F then 'S' else if c.toNat = 0x212A then 'K' else c

/-- Names are compared by this. -/
def foldName (s : String) : String := String.ofList (s.toList.map foldChar)

/-- Set a string field that holds `s`. -/
def decodeString (s : String) : Value → Option String
  | .null => some s
  | .str b => some b.toString
  | _ => none

/-- Set a field of type `int` that holds `n`. -/
def decodeInt (n : Int64) : Value → Option Int64
  | .null => some n
  | .num x => (parseInt x.text).bind fun k =>
      if -2 ^ 63 ≤ k ∧ k < 2 ^ 63 then some (Int64.ofInt k) else none
  | _ => none

/-- Set a field of type `time.Time` that holds `t`. -/
def decodeTime (t : Time) : Value → Option Time
  | .null => some t
  | .str b => Time.parse b.text
  | _ => none

/-- The fields of a struct and their names, which differ in more than letter case. -/
structure Fields (φ : Type*) where
  all : List φ
  name : φ → String
  find_name : ∀ f, all.find? (fun g => foldName (name g) == foldName (name f)) = some f

/-- The field a member sets. -/
def Fields.find {φ : Type*} (F : Fields φ) (name : String) : Option φ :=
  F.all.find? fun g => foldName (F.name g) == foldName name

/-- Set the fields of the struct `a`; `set` sets one field. -/
def decodeStruct {α φ : Type*} (F : Fields φ) (set : α → φ → Value → Option α) (a : α) :
    Value → Option α
  | .null => some a
  | .obj ms => ms.foldlM
      (fun a m => match F.find m.1.toString with
        | some f => set a f m.2
        | none => some a) a
  | _ => none

/-! ### Writing -/

def member (name : String) (v : Value) : Body × Value := (Body.ofString name, v)

def string (s : String) : Value := .str (Body.ofString s)

def int (n : Int64) : Value := .num (Number.ofInt n.toInt)

/-- A string member that is left out when it is empty. -/
def omitEmpty (name s : String) : List (Body × Value) :=
  if s = "" then [] else [member name (string s)]

/-- The string of a time. -/
def timeBody (t : Time) : Body := .ofPlain t.format <| by
  intro x hx
  rcases mem_format hx with h | h
  · obtain ⟨n, hn, rfl⟩ : ∃ n < 10, x = UInt8.ofNat (48 + n) := by
      have := toNat_of_isDigit h
      refine ⟨x.toNat - 48, by omega, ?_⟩
      rw [show 48 + (x.toNat - 48) = x.toNat by omega, UInt8.ofNat_toNat]
    have hdigits : ∀ n < 10, isPlain (UInt8.ofNat (48 + n)) = true := by decide
    exact hdigits n hn
  · simp only [List.mem_cons, List.not_mem_nil, or_false] at h
    rcases h with rfl | rfl | rfl | rfl | rfl | rfl <;> decide

def time (t : Time) : Value := .str (timeBody t)

/-! ### Sizes -/

/-- The length of the text of a string, its quotes included. -/
def textSize (s : String) : ℕ := (print (string s)).length

/-- The length of a member: its name, its value, the colon, and the comma or bracket after it. -/
def memberSize (m : Body × Value) : ℕ := (quoted m.1).length + (print m.2).length + 2

@[simp]
theorem memberSize_member (name : String) (v : Value) :
    memberSize (member name v) = textSize name + (print v).length + 2 := rfl

theorem length_printMembers (m : Body × Value) (ms : List (Body × Value)) :
    (printMembers (m :: ms)).length + 1 = ((m :: ms).map memberSize).sum := by
  induction ms generalizing m with
  | nil =>
    simp [printMembers, memberSize]
    omega
  | cons m' ms ih =>
    have := ih m'
    rw [map_cons, sum_cons]
    simp only [printMembers, memberSize, length_append, length_cons]
    omega

theorem length_print_obj {ms : List (Body × Value)} (h : ms ≠ []) :
    (print (.obj ms)).length = 1 + (ms.map memberSize).sum := by
  obtain ⟨m, ms, rfl⟩ := exists_cons_of_ne_nil h
  have := length_printMembers m ms
  rw [print, length_cons, length_append, length_singleton]
  omega

/-! ### Fields read back -/

section

variable {α φ : Type*} {F : Fields φ} {set : α → φ → Value → Option α}

@[simp]
theorem decodeString_string (old s : String) : decodeString old (string s) = some s := by
  rw [string, decodeString, Body.toString_ofString]

@[simp]
theorem decodeTime_time (old : Time) {t : Time} (h : t.Marshals) :
    decodeTime old (time t) = some t :=
  Time.parse_format h

@[simp]
theorem decodeInt_int (old n : Int64) : decodeInt old (int n) = some n := by
  have hrange : -2 ^ 63 ≤ n.toInt ∧ n.toInt < 2 ^ 63 := ⟨n.le_toInt, n.toInt_lt⟩
  rw [int, decodeInt, Number.ofInt, parseInt_intText, Option.bind_some, if_pos hrange,
    Int64.ofInt_toInt]

@[simp]
theorem decodeStruct_nil (a : α) : decodeStruct F set a (.obj []) = some a := rfl

@[simp]
theorem decodeStruct_cons (a : α) (f : φ) (v : Value) (ms : List (Body × Value)) :
    decodeStruct F set a (.obj (member (F.name f) v :: ms)) =
      (set a f v).bind fun a => decodeStruct F set a (.obj ms) := by
  have hfind : F.find (F.name f) = some f := F.find_name f
  rw [decodeStruct, foldlM_cons, member, Body.toString_ofString, hfind]
  rfl

/-- A member that is left out when it is empty sets its field, if the field was empty. -/
theorem decodeStruct_omitEmpty {a b : α} {f : φ} {s : String} {ms : List (Body × Value)}
    (hset : set a f (string s) = some b) (hempty : s = "" → b = a) :
    decodeStruct F set a (.obj (omitEmpty (F.name f) s ++ ms)) =
      decodeStruct F set b (.obj ms) := by
  unfold omitEmpty
  split_ifs with h
  · rw [hempty h, nil_append]
  · rw [cons_append, decodeStruct_cons, hset, Option.bind_some, nil_append]

/-- **Structs with the same names are filled alike** with values nested less than `n` deep: `g`
takes one struct to the other, and `e` its fields. -/
theorem decodeStruct_map {β ψ : Type*} {G : Fields ψ} {set' : β → ψ → Value → Option β} (g : α → β)
    (e : φ → ψ) (hall : G.all = F.all.map e) (hname : ∀ f, G.name (e f) = F.name f) {n : ℕ}
    (hset : ∀ a f v, depth v < n → set' (g a) (e f) v = (set a f v).map g) (a : α) {v : Value}
    (hv : depth v ≤ n) : decodeStruct G set' (g a) v = (decodeStruct F set a v).map g := by
  have hfind (name : String) : G.find name = (F.find name).map e := by
    rw [Fields.find, Fields.find, hall, find?_map]
    simp only [Function.comp_def, hname]
  cases v with
  | obj ms =>
    induction ms generalizing a with
    | nil => rfl
    | cons m ms ih =>
      obtain ⟨hm, hms⟩ : depth m.2 < n ∧ depth (.obj ms) ≤ n := by
        simp only [depth, depthMembers] at hv ⊢
        omega
      simp only [decodeStruct, foldlM_cons, hfind] at ih ⊢
      cases F.find m.1.toString with
      | none => exact ih a hms
      | some f =>
        simp only [Option.map_some, hset a f m.2 hm]
        cases set a f m.2 with
        | none => rfl
        | some a' => exact ih a' hms
  | _ => rfl

end

end K8s4Claw.Lib.Json
