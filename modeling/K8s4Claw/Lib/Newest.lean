/-
# The newest elements of a list

`excess time keep l` are the elements of `l` that are left over when the newest `keep` are set
aside: if no two elements have the same time, those with at least `keep` newer ones
(`mem_excess_iff`).
-/

import Mathlib.Data.List.Sort

namespace K8s4Claw.Lib

open List

variable {α κ : Type*} [LinearOrder κ] (time : α → κ)

/-- The elements by time, the oldest first. -/
def byTime (l : List α) : List α := l.insertionSort fun a b => time a ≤ time b

/-- All elements but the newest `keep`, the oldest first. -/
def excess (keep : ℕ) (l : List α) : List α := (byTime time l).take (l.length - keep)

/-- How many elements of `l` are newer than `a`. -/
def newer (l : List α) (a : α) : ℕ := l.countP fun b => time a < time b

theorem perm_byTime (l : List α) : (byTime time l).Perm l := perm_insertionSort _ l

theorem length_byTime (l : List α) : (byTime time l).length = l.length :=
  (perm_byTime time l).length_eq

theorem newer_byTime (l : List α) (a : α) : newer time (byTime time l) a = newer time l a :=
  (perm_byTime time l).countP_eq _

variable {time} {l : List α} {a : α} {keep : ℕ}

theorem nodup_byTime (h : (l.map time).Nodup) : ((byTime time l).map time).Nodup :=
  ((perm_byTime time l).map time).nodup_iff.mpr h

/-- Without equal times the order is strict. -/
theorem pairwise_byTime (h : (l.map time).Nodup) :
    (byTime time l).Pairwise fun a b => time a < time b := by
  have hle : (byTime time l).Pairwise fun a b => time a ≤ time b := pairwise_insertionSort _ l
  exact hle.imp₂ (fun _ _ => lt_of_le_of_ne) (pairwise_map.mp (nodup_byTime h))

theorem mem_take_append_cons {older : List α} (h : a ∉ older) (younger : List α) (n : ℕ) :
    a ∈ (older ++ a :: younger).take n ↔ older.length < n := by
  rw [take_append, mem_append]
  constructor
  · rintro (hin | hin)
    · exact absurd (mem_of_mem_take hin) h
    · by_contra hle
      rw [Nat.sub_eq_zero_of_le (Nat.not_lt.mp hle)] at hin
      cases hin
  · intro hlt
    obtain ⟨n, rfl⟩ := Nat.exists_eq_add_of_lt hlt
    exact .inr (by simp [Nat.add_assoc])

theorem newer_append_cons {older younger : List α}
    (h : (older ++ a :: younger).Pairwise fun a b => time a < time b) :
    newer time (older ++ a :: younger) a = younger.length := by
  obtain ⟨-, hafter, hbefore⟩ := pairwise_append.mp h
  have hold : ∀ b ∈ older, ¬ time a < time b := fun b hb =>
    (hbefore b hb a mem_cons_self).not_gt
  have hyoung : ∀ b ∈ younger, time a < time b := (pairwise_cons.mp hafter).1
  simp only [newer, countP_append, countP_cons]
  rw [countP_eq_zero.mpr (by simpa using hold), countP_eq_length.mpr (by simpa using hyoung)]
  simp

/-- **The excess are the elements with at least `keep` newer ones.** -/
theorem mem_excess_iff (h : (l.map time).Nodup) :
    a ∈ excess time keep l ↔ a ∈ l ∧ keep ≤ newer time l a := by
  rw [← (perm_byTime time l).mem_iff, ← newer_byTime, excess, ← length_byTime time l]
  by_cases ha : a ∈ byTime time l
  · obtain ⟨older, younger, hl⟩ := append_of_mem ha
    have hsorted := pairwise_byTime h
    have hnodup := (nodup_byTime h).of_map
    rw [hl] at hsorted hnodup ⊢
    have hout : a ∉ older := fun hin =>
      (nodup_append.mp hnodup).2.2 a hin a mem_cons_self rfl
    rw [mem_take_append_cons hout, newer_append_cons hsorted, length_append, length_cons]
    simp only [mem_append, mem_cons, true_or, or_true, true_and]
    omega
  · exact iff_of_false (fun hin => ha (mem_of_mem_take hin)) fun hin => ha hin.1

/-- **`keep` elements remain**, or all if there are fewer. -/
theorem length_filter_newer_lt (h : (l.map time).Nodup) :
    (l.filter fun a => newer time l a < keep).length = min l.length keep := by
  have hnodup := (nodup_byTime h).of_map
  rw [← countP_eq_length_filter, ← (perm_byTime time l).countP_eq,
    ← take_append_drop (l.length - keep) (byTime time l), countP_append,
    countP_eq_zero.mpr, countP_eq_length.mpr, length_drop, length_byTime]
  · omega
  · intro a hdrop
    have hout : a ∉ excess time keep l := fun htake =>
      disjoint_take_drop hnodup le_rfl htake hdrop
    rw [mem_excess_iff h] at hout
    simpa [(perm_byTime time l).mem_iff.mp (mem_of_mem_drop hdrop)] using hout
  · intro a htake
    simpa using ((mem_excess_iff h).mp htake).2

end K8s4Claw.Lib
