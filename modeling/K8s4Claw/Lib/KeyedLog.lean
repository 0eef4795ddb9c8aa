/-
# Logs that stand for a table

A record names a key and puts itself under the key, removes the key, or does nothing.
Replaying a list of records gives a table, in which each key holds the last record put
under it and not removed since (`Table.lookup_apply`).

* `replay_snapshot` : the entries of a table, written in any order, replay to the table;
* `mem_of_lookup_replay` : what replay finds was put by a record of the log.
-/

import Mathlib.Data.Finmap

namespace K8s4Claw.Lib

open List

/-- What a record does with its key. -/
inductive Verb where
  | put
  | remove
  | skip
  deriving DecidableEq

/-- How to read a record. -/
structure Reading (ρ κ : Type*) where
  key : ρ → κ
  verb : ρ → Verb

section

variable {ρ κ : Type*} [DecidableEq κ]

/-- A table of records: under each key stands a record that puts itself there. -/
structure Table (R : Reading ρ κ) where
  map : Finmap fun _ : κ => ρ
  keyed : ∀ k r, map.lookup k = some r → R.key r = k ∧ R.verb r = .put

variable {R : Reading ρ κ}

namespace Table

/-- The record under a key. -/
def lookup (t : Table R) (k : κ) : Option ρ := t.map.lookup k

variable {t : Table R} {r : ρ} {order : List κ}

@[ext]
theorem ext {u : Table R} (h : ∀ k, t.lookup k = u.lookup k) : t = u := by
  obtain ⟨map, _⟩ := t
  congr
  exact Finmap.ext_lookup h

instance [DecidableEq ρ] : DecidableEq (Table R) := fun t u =>
  decidable_of_iff (t.map = u.map)
    ⟨fun h => ext fun k => congrArg (Finmap.lookup k) h, fun h => congrArg Table.map h⟩

theorem lookup_key {k : κ} (h : t.lookup k = some r) : t.lookup (R.key r) = some r := by
  rwa [(t.keyed k r h).1]

def empty : Table R where
  map := ∅
  keyed k r h := by simp at h

@[simp]
theorem lookup_empty (k : κ) : (empty : Table R).lookup k = none := Finmap.lookup_empty k

section

variable (t : Table R)

/-- A record put under its key. -/
def put (r : ρ) (h : R.verb r = .put) : Table R where
  map := t.map.insert (R.key r) r
  keyed k r' hr := by
    by_cases hk : k = R.key r
    · rw [hk, Finmap.lookup_insert] at hr
      cases hr
      exact ⟨hk.symm, h⟩
    · rw [Finmap.lookup_insert_of_ne _ hk] at hr
      exact t.keyed k r' hr

def remove (k : κ) : Table R where
  map := t.map.erase k
  keyed k' r hr := by
    by_cases hk : k' = k
    · rw [hk, Finmap.lookup_erase] at hr
      exact absurd hr (by simp)
    · rw [Finmap.lookup_erase_ne hk] at hr
      exact t.keyed k' r hr

theorem lookup_put (r : ρ) (h : R.verb r = .put) (k : κ) :
    (t.put r h).lookup k = if k = R.key r then some r else t.lookup k := by
  unfold lookup put
  split_ifs with hk
  · rw [hk, Finmap.lookup_insert]
  · exact Finmap.lookup_insert_of_ne _ hk

theorem lookup_remove (k k' : κ) :
    (t.remove k).lookup k' = if k' = k then none else t.lookup k' := by
  unfold lookup remove
  split_ifs with hk
  · rw [hk, Finmap.lookup_erase]
  · exact Finmap.lookup_erase_ne hk

/-- One record of the log. -/
def apply (r : ρ) : Table R :=
  match h : R.verb r with
  | .put => t.put r h
  | .remove => t.remove (R.key r)
  | .skip => t

theorem apply_of_put (h : R.verb r = .put) : t.apply r = t.put r h := by
  unfold apply
  split <;> simp_all

theorem apply_of_remove (h : R.verb r = .remove) : t.apply r = t.remove (R.key r) := by
  unfold apply
  split <;> simp_all

theorem lookup_apply_congr {u : Table R} {k : κ} (h : u.lookup k = t.lookup k) :
    (u.apply r).lookup k = (t.apply r).lookup k := by
  unfold apply
  split
  · rw [lookup_put, lookup_put, h]
  · rw [lookup_remove, lookup_remove, h]
  · exact h

theorem lookup_apply_of_ne {k : κ} (hk : R.key r ≠ k) : (t.apply r).lookup k = t.lookup k := by
  unfold apply
  split
  · rw [lookup_put, if_neg (Ne.symm hk)]
  · rw [lookup_remove, if_neg (Ne.symm hk)]
  · rfl

/-- The log replayed over a table. -/
def replay (log : List ρ) : Table R := log.foldl apply t

@[simp]
theorem replay_nil : t.replay [] = t := rfl

@[simp]
theorem replay_cons (r : ρ) (log : List ρ) :
    t.replay (r :: log) = (t.apply r).replay log := rfl

@[simp]
theorem replay_append (log log' : List ρ) :
    t.replay (log ++ log') = (t.replay log).replay log' := foldl_append

end

/-- **What replay finds was put by a record of the log**, or was there before. -/
theorem mem_of_lookup_replay {log : List ρ} {k : κ} (h : (t.replay log).lookup k = some r) :
    r ∈ log ∨ t.lookup k = some r := by
  induction log generalizing t with
  | nil => exact .inr h
  | cons r₀ _ ih =>
    rcases ih h with hmem | hr
    · exact .inl (mem_cons_of_mem r₀ hmem)
    · by_cases hk : R.key r₀ = k
      · unfold apply at hr
        split at hr
        · rw [lookup_put, if_pos hk.symm] at hr
          exact .inl (Option.some.inj hr ▸ mem_cons_self)
        · rw [lookup_remove, if_pos hk.symm] at hr
          exact absurd hr (by simp)
        · exact .inr hr
      · exact .inr (by rwa [lookup_apply_of_ne t hk] at hr)

/-! ### Snapshots -/

/-- The keys of a table, each once. -/
def Enumerates (t : Table R) (order : List κ) : Prop :=
  order.Nodup ∧ (∀ k ∈ order, k ∈ t.map) ∧ ∀ k ∈ t.map.keys, k ∈ order
  deriving Decidable

theorem exists_enumerates {k₁ k₂ : κ} {r₁ r₂ : ρ} (hne : k₁ ≠ k₂) (h₁ : t.lookup k₁ = some r₁)
    (h₂ : t.lookup k₂ = some r₂) : ∃ rest, t.Enumerates (k₁ :: k₂ :: rest) := by
  have hmem {k : κ} {r : ρ} (h : t.lookup k = some r) : k ∈ t.map :=
    Finmap.lookup_isSome.mp (Option.isSome_iff_exists.mpr ⟨r, h⟩)
  refine ⟨t.map.keys.toList.filter fun k => k ≠ k₁ ∧ k ≠ k₂, ?_, ?_, fun k hk => ?_⟩
  · have hrest : (t.map.keys.toList.filter fun k => k ≠ k₁ ∧ k ≠ k₂).Nodup :=
      (Finset.nodup_toList _).filter _
    exact nodup_cons.mpr ⟨by simp [hne], nodup_cons.mpr ⟨by simp, hrest⟩⟩
  · simp only [mem_cons, mem_filter, Finset.mem_toList]
    rintro k (rfl | rfl | hk)
    · exact hmem h₁
    · exact hmem h₂
    · exact hk.1
  · by_cases hk₁ : k = k₁
    · simp [hk₁]
    · by_cases hk₂ : k = k₂
      · simp [hk₂]
      · simp [hk₁, hk₂, hk]

/-- The entries of a table in the order of a list of its keys. -/
def snapshot (t : Table R) (order : List κ) : List ρ := order.filterMap t.lookup

theorem lookup_replay_snapshot (t u : Table R) (hnodup : order.Nodup) (k : κ) :
    (u.replay (t.snapshot order)).lookup k =
      if k ∈ order then (t.lookup k).or (u.lookup k) else u.lookup k := by
  induction order generalizing u with
  | nil => rfl
  | cons k₀ order ih =>
    obtain ⟨hk₀, hnodup⟩ := nodup_cons.mp hnodup
    cases h : t.lookup k₀ with
    | none =>
      have hsnap : t.snapshot (k₀ :: order) = t.snapshot order := filterMap_cons_none h
      rw [hsnap, ih u hnodup]
      by_cases hk : k = k₀
      · subst hk; simp [h]
      · simp [hk]
    | some r =>
      obtain ⟨hkey, hverb⟩ := t.keyed k₀ r h
      have hsnap : t.snapshot (k₀ :: order) = r :: t.snapshot order := filterMap_cons_some h
      rw [hsnap, replay_cons, apply_of_put u hverb, ih _ hnodup, lookup_put, hkey]
      by_cases hk : k = k₀
      · subst hk; simp [h]
      · simp [hk]

/-- **The entries of a table, written in any order, replay to the table.** -/
theorem replay_snapshot (h : t.Enumerates order) : empty.replay (t.snapshot order) = t := by
  obtain ⟨hnodup, -, hall⟩ := h
  ext1 k
  rw [lookup_replay_snapshot t empty hnodup, lookup_empty, Option.or_none]
  split_ifs with hk
  · rfl
  · have hmem : k ∉ t.map := fun hmem => hk (hall k (Finmap.mem_keys.mpr hmem))
    exact (Finmap.lookup_eq_none.mpr hmem).symm

theorem map_key_snapshot_sublist (t : Table R) (order : List κ) :
    ((t.snapshot order).map R.key).Sublist order := by
  induction order with
  | nil => exact List.Sublist.refl _
  | cons k order ih =>
    cases h : t.lookup k with
    | none =>
      have hsnap : t.snapshot (k :: order) = t.snapshot order := filterMap_cons_none h
      rw [hsnap]
      exact ih.cons k
    | some r =>
      have hsnap : t.snapshot (k :: order) = r :: t.snapshot order := filterMap_cons_some h
      have hkey : R.key r = k := (t.keyed k r h).1
      rw [hsnap, map_cons, hkey]
      exact ih.cons_cons k

theorem mem_snapshot (h : r ∈ t.snapshot order) : ∃ k, t.lookup k = some r := by
  obtain ⟨k, -, hk⟩ := mem_filterMap.mp h
  exact ⟨k, hk⟩

end Table

end

end K8s4Claw.Lib
