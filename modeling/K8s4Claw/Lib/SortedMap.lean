/-
# Maps in the order of their keys

A finite map as the list of its entries with increasing keys, so that two maps are equal exactly if
the lists are.  Setting the entries of a map one after the other in an empty one gives the map again
(`foldl_set_entries`).
-/

import Mathlib.Order.Lattice

namespace K8s4Claw.Lib

open List

/-- The entries of a map, the keys increasing. -/
@[ext]
structure SortedMap (κ ν : Type*) [LinearOrder κ] where
  entries : List (κ × ν)
  increasing : entries.Pairwise fun e f => e.1 < f.1

namespace SortedMap

variable {κ ν : Type*} [LinearOrder κ]

instance [DecidableEq ν] : DecidableEq (SortedMap κ ν) := fun m m' =>
  decidable_of_iff (m.entries = m'.entries) SortedMap.ext_iff.symm

def empty : SortedMap κ ν := ⟨[], .nil⟩

/-- The entries after `key` is set. -/
def setEntry (key : κ) (v : ν) : List (κ × ν) → List (κ × ν)
  | [] => [(key, v)]
  | e :: l =>
      if key < e.1 then (key, v) :: e :: l
      else if key = e.1 then (key, v) :: l
      else e :: setEntry key v l

variable {l : List (κ × ν)}

theorem mem_setEntry {key : κ} {v : ν} {e : κ × ν} (h : e ∈ setEntry key v l) :
    e = (key, v) ∨ e ∈ l := by
  induction l with
  | nil => exact .inl (mem_singleton.mp h)
  | cons f l ih =>
    rw [setEntry] at h
    split_ifs at h
    · exact mem_cons.mp h
    · exact (mem_cons.mp h).imp_right (mem_cons_of_mem f)
    · rcases mem_cons.mp h with rfl | h
      · exact .inr mem_cons_self
      · exact (ih h).imp_right (mem_cons_of_mem f)

theorem increasing_setEntry (key : κ) (v : ν) (h : l.Pairwise fun e f => e.1 < f.1) :
    (setEntry key v l).Pairwise fun e f => e.1 < f.1 := by
  induction l with
  | nil => exact pairwise_singleton ..
  | cons e l ih =>
    obtain ⟨hhead, htail⟩ := pairwise_cons.mp h
    rw [setEntry]
    split_ifs with hlt heq
    · refine pairwise_cons.mpr ⟨fun f hf => ?_, h⟩
      rcases mem_cons.mp hf with rfl | hf
      · exact hlt
      · exact hlt.trans (hhead f hf)
    · exact pairwise_cons.mpr ⟨fun f hf => heq ▸ hhead f hf, htail⟩
    · refine pairwise_cons.mpr ⟨fun f hf => ?_, ih htail⟩
      rcases mem_setEntry hf with rfl | hf
      · exact lt_of_le_of_ne (not_lt.mp hlt) (Ne.symm heq)
      · exact hhead f hf

/-- Set the value of a key. -/
def set (m : SortedMap κ ν) (key : κ) (v : ν) : SortedMap κ ν :=
  ⟨setEntry key v m.entries, increasing_setEntry key v m.increasing⟩

theorem setEntry_of_lt {key : κ} (h : ∀ e ∈ l, e.1 < key) (v : ν) :
    setEntry key v l = l ++ [(key, v)] := by
  induction l with
  | nil => rfl
  | cons e l ih =>
    have he : e.1 < key := h e mem_cons_self
    rw [setEntry, if_neg he.not_gt, if_neg he.ne', ih fun f hf => h f (mem_cons_of_mem e hf)]
    rfl

theorem foldl_setEntry {acc : List (κ × ν)} (h : (acc ++ l).Pairwise fun e f => e.1 < f.1) :
    l.foldl (fun acc e => setEntry e.1 e.2 acc) acc = acc ++ l := by
  induction l generalizing acc with
  | nil => exact (append_nil acc).symm
  | cons e l ih =>
    have hlt : ∀ f ∈ acc, f.1 < e.1 := fun f hf =>
      (pairwise_append.mp h).2.2 f hf e mem_cons_self
    rw [foldl_cons, setEntry_of_lt hlt, ih (by simpa using h), append_assoc]
    rfl

theorem entries_foldl_set (m : SortedMap κ ν) (l : List (κ × ν)) :
    (l.foldl (fun m e => m.set e.1 e.2) m).entries =
      l.foldl (fun acc e => setEntry e.1 e.2 acc) m.entries := by
  induction l generalizing m with
  | nil => rfl
  | cons e l ih => exact ih (m.set e.1 e.2)

/-- **The entries of a map, set one after the other, give the map.** -/
theorem foldl_set_entries (m : SortedMap κ ν) :
    m.entries.foldl (fun m e => m.set e.1 e.2) empty = m := by
  ext1
  rw [entries_foldl_set]
  exact foldl_setEntry m.increasing

end SortedMap

end K8s4Claw.Lib
