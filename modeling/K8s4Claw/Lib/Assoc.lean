/-
# Association lists

A map as the list of its entries, each key once.  What such a list says is what `List.lookup` finds
in it (`lookup_of_mem`, `mem_of_lookup`).  The entries in the order of their keys are `sorted`.
-/

import Mathlib.Data.List.Sort

namespace K8s4Claw.Lib.Assoc

open List

variable {κ ν : Type*}

section

variable [DecidableEq κ]

theorem lookup_cons_eq_ite (key : κ) (e : κ × ν) (l : List (κ × ν)) :
    lookup key (e :: l) = if key = e.1 then some e.2 else lookup key l := by
  rw [lookup_cons]
  by_cases h : key = e.1
  · rw [if_pos h, h, beq_self_eq_true]
  · rw [if_neg h, beq_false_of_ne h]

variable {l : List (κ × ν)}

theorem lookup_of_notMem {key : κ} (h : key ∉ l.map Prod.fst) : lookup key l = none := by
  rw [lookup_eq_none_iff]
  intro e he
  have hne : key ≠ e.1 := fun heq => h (heq ▸ mem_map_of_mem he)
  exact bne_iff_ne.mpr hne

theorem lookup_of_mem {e : κ × ν} (hnodup : (l.map Prod.fst).Nodup) (he : e ∈ l) :
    lookup e.1 l = some e.2 := by
  induction l with
  | nil => cases he
  | cons f l ih =>
    obtain ⟨hnotMem, htail⟩ := nodup_cons.mp hnodup
    rw [lookup_cons_eq_ite]
    rcases mem_cons.mp he with rfl | he
    · rw [if_pos rfl]
    · have hne : e.1 ≠ f.1 := fun heq => hnotMem (heq ▸ mem_map_of_mem he)
      rw [if_neg hne]
      exact ih htail he

theorem mem_of_lookup {key : κ} {v : ν} (h : lookup key l = some v) : (key, v) ∈ l := by
  obtain ⟨front, -, rfl, -⟩ := lookup_eq_some_iff.mp h
  exact mem_append_right front mem_cons_self

end

/-! ### Sorted by key -/

variable [LinearOrder κ]

/-- The entries in the order of their keys. -/
def sorted (l : List (κ × ν)) : List (κ × ν) := l.insertionSort fun e f => e.1 ≤ f.1

theorem perm_sorted (l : List (κ × ν)) : (sorted l).Perm l := perm_insertionSort _ l

end K8s4Claw.Lib.Assoc
