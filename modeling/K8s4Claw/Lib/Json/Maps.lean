/-
# Maps of strings in JSON

`encoding/json` writes a `map[string]string` as an object with the keys in order, and a nil map as
`null`.  Read into a field, an object sets its members in the map that is there, or in a new one, a
`null` member as the empty string; `null` makes the map nil.  With `omitempty` a map without entries
is left out, nil or not.

A map is read back from what is written for it (`decodeMap_ofMap`), so two maps that are written
alike are equal (`ofMap_injective`).
-/

import K8s4Claw.Lib.Json.Struct
import K8s4Claw.Lib.SortedMap
import Mathlib.Data.String.Basic

namespace K8s4Claw.Lib.Json

open List

/-- A `map[string]string` that is not nil. -/
abbrev StringMap := SortedMap String String

/-- Set a member in a map. -/
def setMember (m : StringMap) (e : Body × Value) : Option StringMap :=
  (decodeString "" e.2).map fun s => m.set e.1.toString s

/-- Set a field of type `map[string]string` that holds `old`. -/
def decodeMap (old : Option StringMap) : Value → Option (Option StringMap)
  | .null => some none
  | .obj ms => (ms.foldlM setMember (old.getD .empty)).map some
  | _ => none

def ofMap : Option StringMap → Value
  | none => .null
  | some m => .obj (m.entries.map fun e => member e.1 (string e.2))

/-- A member that is left out when it is a map without entries. -/
def omitEmptyMap (name : String) (m : Option StringMap) : List (Body × Value) :=
  if m = none ∨ m = some .empty then [] else [member name (ofMap m)]

theorem foldlM_setMember (m : StringMap) (l : List (String × String)) :
    (l.map fun e => member e.1 (string e.2)).foldlM setMember m =
      some (l.foldl (fun m e => m.set e.1 e.2) m) := by
  induction l generalizing m with
  | nil => rfl
  | cons e l ih =>
    have hset : setMember m (member e.1 (string e.2)) = some (m.set e.1 e.2) := by
      rw [setMember, member, decodeString_string, Body.toString_ofString]
      rfl
    rw [map_cons, foldlM_cons, hset]
    exact ih (m.set e.1 e.2)

theorem depth_ofMap_le (m : Option StringMap) : depth (ofMap m) ≤ 1 := by
  have hmembers (es : List (String × String)) :
      depthMembers (es.map fun e => member e.1 (string e.2)) = 0 := by
    induction es with
    | nil => rfl
    | cons e es ih =>
      rw [map_cons, member, depthMembers, ih]
      rfl
  cases m with
  | none => exact Nat.zero_le 1
  | some m => rw [ofMap, depth, hmembers]

@[simp]
theorem decodeMap_ofMap (m : Option StringMap) : decodeMap none (ofMap m) = some m := by
  cases m with
  | none => rfl
  | some m =>
    rw [ofMap, decodeMap, foldlM_setMember]
    exact congrArg (some ∘ some) m.foldl_set_entries

theorem ofMap_injective : Function.Injective ofMap := by
  intro m m' h
  have hm := decodeMap_ofMap m
  rw [h, decodeMap_ofMap] at hm
  exact (Option.some.inj hm).symm

/-- A member that is left out when it is a map without entries sets its field, to nil if it is left
out and the field was nil. -/
theorem decodeStruct_omitEmptyMap {α φ : Type*} {F : Fields φ} {set : α → φ → Value → Option α}
    {a b : α} {f : φ} {m : Option StringMap} {ms : List (Body × Value)}
    (hset : set a f (ofMap m) = some b) (hempty : m = none ∨ m = some .empty → b = a) :
    decodeStruct F set a (.obj (omitEmptyMap (F.name f) m ++ ms)) =
      decodeStruct F set b (.obj ms) := by
  unfold omitEmptyMap
  split_ifs with h
  · rw [hempty h, nil_append]
  · rw [cons_append, decodeStruct_cons, hset, Option.bind_some, nil_append]

end K8s4Claw.Lib.Json
