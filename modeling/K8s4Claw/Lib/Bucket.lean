/-
# Buckets of a key–value store

A bucket is a finite map whose pairs are visited in the order of their keys.  The map is
Mathlib's `AList`; this file adds the number of keys (`size`), the visit (`each`), and what the
two say after a pair is put or a key removed.  `SortSlice` is any way of sorting that need not
be stable.
-/

import Mathlib.Data.List.AList
import Mathlib.Data.List.Sort

namespace K8s4Claw.Lib

open List

/-- A finite map from keys to values. -/
abbrev Bucket (κ β : Type*) := AList fun _ : κ => β

namespace Bucket

variable {κ β : Type*}

def size (b : Bucket κ β) : ℕ := b.keys.length

@[simp]
theorem size_empty : size (∅ : Bucket κ β) = 0 := rfl

section

variable [DecidableEq κ] (b : Bucket κ β) (k : κ) (v : β)

theorem size_insert_of_mem (h : k ∈ b) : size (b.insert k v) = b.size := by
  have hkeys : k ∈ b.keys := h
  have hpos := length_pos_of_mem hkeys
  rw [size, AList.keys_insert, length_cons, length_erase_of_mem hkeys, size]
  omega

theorem size_insert_of_notMem (h : k ∉ b) : size (b.insert k v) = b.size + 1 := by
  rw [size, AList.keys_insert, length_cons, erase_of_not_mem h, size]

theorem size_erase_of_mem (h : k ∈ b) : size (b.erase k) + 1 = b.size := by
  have hkeys : k ∈ b.keys := h
  have hpos := length_pos_of_mem hkeys
  rw [size, AList.keys_erase, length_erase_of_mem hkeys, size]
  omega

theorem size_erase_le : size (b.erase k) ≤ b.size := by
  rw [size, AList.keys_erase]
  exact length_erase_le

theorem lookup_insert_eq (l : κ) :
    (b.insert k v).lookup l = if l = k then some v else b.lookup l := by
  split_ifs with h
  · rw [h, AList.lookup_insert]
  · exact AList.lookup_insert_ne h

theorem lookup_erase_eq (l : κ) :
    (b.erase k).lookup l = if l = k then none else b.lookup l := by
  split_ifs with h
  · rw [h, AList.lookup_erase]
  · exact AList.lookup_erase_ne h

end

section

variable [LinearOrder κ] (b : Bucket κ β)

/-- The pairs in the order of their keys. -/
def each : List (Σ _ : κ, β) := b.entries.insertionSort fun p q => p.1 ≤ q.1

theorem perm_each : b.each.Perm b.entries := perm_insertionSort _ _

theorem mem_each {p : Σ _ : κ, β} : p ∈ b.each ↔ b.lookup p.1 = some p.2 := by
  rw [b.perm_each.mem_iff, ← AList.mem_lookup_iff]
  rfl

theorem nodup_each : (b.each.map Sigma.fst).Nodup :=
  (b.perm_each.map Sigma.fst).nodup_iff.mpr b.nodupKeys

theorem length_each : b.each.length = b.size := by
  rw [b.perm_each.length_eq, size, AList.keys, keys, length_map]

end

end Bucket

/-- What sorting by `less` may do when it need not be stable: the result is a permutation in
which nothing is less than what stands before it. -/
structure SortSlice (α : Type*) (less : α → α → Prop) where
  sort : List α → List α
  perm : ∀ l, (sort l).Perm l
  sorted : ∀ l, (sort l).Pairwise fun a b => ¬ less b a

/-- Sorting by insertion, by a key in a linear order. -/
def SortSlice.insertion {α τ : Type*} [LinearOrder τ] (f : α → τ) :
    SortSlice α fun a b => f a < f b where
  sort l := l.insertionSort fun a b => f a ≤ f b
  perm l := List.perm_insertionSort _ l
  sorted l := by
    have : Std.Total fun a b : α => f a ≤ f b := ⟨fun a b => le_total (f a) (f b)⟩
    have : IsTrans α fun a b => f a ≤ f b := ⟨fun _ _ _ => le_trans⟩
    exact (List.pairwise_insertionSort (fun a b => f a ≤ f b) l).imp fun h => not_lt.mpr h

theorem pairwise_or {α : Type*} {R : α → α → Prop} {l : List α} (h : l.Pairwise R) {a b : α}
    (ha : a ∈ l) (hb : b ∈ l) (hne : a ≠ b) : R a b ∨ R b a := by
  have : Std.Symm fun a b => R a b ∨ R b a := ⟨fun _ _ => Or.symm⟩
  have hor : l.Pairwise fun a b => R a b ∨ R b a := h.imp .inl
  exact hor.forall ha hb hne

end K8s4Claw.Lib
