/-
# The first maximum of a list

A loop that keeps the best element so far and replaces it by a strictly better one is the fold
behind `List.argmax`, `l.foldl (List.argAux r) none`, where `r a b` says that `a` is better than
`b`.  For a strict weak order, in which different elements may be equally good, it ends with the
first of the best ones (`firstMax_eq_some_iff`).
-/

import Mathlib.Data.List.MinMax

namespace K8s4Claw.Lib

open List

variable {α β : Type*} {r : α → α → Prop}

/-- A strict order in which to be equally good is an equivalence. -/
structure StrictWeak (r : α → α → Prop) : Prop where
  irrefl : ∀ a, ¬ r a a
  trans : ∀ a b c, r a b → r b c → r a c
  cotrans : ∀ a b c, r a c → r a b ∨ r b c

/-- An order by a rank in a linear order. -/
theorem StrictWeak.of_rank [LinearOrder β] (rank : α → β) :
    StrictWeak fun a b => rank b < rank a where
  irrefl a := lt_irrefl (rank a)
  trans _ _ _ hab hbc := hbc.trans hab
  cotrans a b c hac := by
    rcases lt_or_ge (rank b) (rank a) with hba | hab
    · exact .inl hba
    · exact .inr (hac.trans_le hab)

/-- `a` is in the list, everything before it is worse and nothing after it is better. -/
def IsFirstMax (r : α → α → Prop) (l : List α) (a : α) : Prop :=
  ∃ before after, l = before ++ a :: after ∧ (∀ b ∈ before, r a b) ∧ ∀ b ∈ after, ¬ r b a

theorem IsFirstMax.mem {l : List α} {a : α} (h : IsFirstMax r l a) : a ∈ l := by
  obtain ⟨-, -, rfl, -, -⟩ := h
  simp

theorem IsFirstMax.not_better (hr : StrictWeak r) {l : List α} {a b : α} (h : IsFirstMax r l a)
    (hb : b ∈ l) : ¬ r b a := by
  obtain ⟨before, after, rfl, hbefore, hafter⟩ := h
  rcases mem_append.mp hb with hb | hb
  · exact fun hba => hr.irrefl a (hr.trans a b a (hbefore b hb) hba)
  · rcases mem_cons.mp hb with rfl | hb
    · exact hr.irrefl b
    · exact hafter b hb

theorem IsFirstMax.cons_of_better (hr : StrictWeak r) {l : List α} {a b x : α} (hxb : r x b)
    (h : IsFirstMax r (x :: l) a) : IsFirstMax r (b :: x :: l) a := by
  have hab : r a b := by
    obtain ⟨before, after, heq, hbefore, -⟩ := h
    cases before with
    | nil =>
      obtain ⟨rfl, -⟩ := cons.inj heq
      exact hxb
    | cons =>
      obtain ⟨rfl, -⟩ := cons.inj heq
      exact hr.trans a x b (hbefore x (mem_cons_self ..)) hxb
  obtain ⟨before, after, heq, hbefore, hafter⟩ := h
  refine ⟨b :: before, after, by rw [heq, cons_append], ?_, hafter⟩
  exact forall_mem_cons.mpr ⟨hab, hbefore⟩

theorem IsFirstMax.cons_of_not_better (hr : StrictWeak r) {l : List α} {a b x : α} (hxb : ¬ r x b)
    (h : IsFirstMax r (b :: l) a) : IsFirstMax r (b :: x :: l) a := by
  obtain ⟨before, after, heq, hbefore, hafter⟩ := h
  cases before with
  | nil =>
    obtain ⟨rfl, rfl⟩ := cons.inj heq
    exact ⟨[], x :: l, rfl, by simp, forall_mem_cons.mpr ⟨hxb, hafter⟩⟩
  | cons y before =>
    obtain ⟨rfl, rfl⟩ := cons.inj heq
    obtain ⟨hab, hbefore⟩ := forall_mem_cons.mp hbefore
    -- `a` is better than `b`, and `x` is not, so `a` is better than `x`
    have hax : r a x := (hr.cotrans a x b hab).resolve_right hxb
    refine ⟨b :: x :: before, after, rfl, ?_, hafter⟩
    exact forall_mem_cons.mpr ⟨hab, forall_mem_cons.mpr ⟨hax, hbefore⟩⟩

theorem IsFirstMax.unique {l : List α} {a b : α} (ha : IsFirstMax r l a)
    (hb : IsFirstMax r l b) : a = b := by
  obtain ⟨before, after, rfl, hbefore, hafter⟩ := ha
  obtain ⟨before', after', heq, hbefore', hafter'⟩ := hb
  rcases append_eq_append_iff.mp heq with ⟨mid, rfl, hmid⟩ | ⟨mid, rfl, hmid⟩
  · cases mid with
    | nil => exact (cons.inj hmid).1
    | cons =>
      obtain ⟨rfl, rfl⟩ := cons.inj hmid
      exact absurd (hbefore' a (by simp)) (hafter b (by simp))
  · cases mid with
    | nil => exact (cons.inj hmid).1.symm
    | cons =>
      obtain ⟨rfl, rfl⟩ := cons.inj hmid
      exact absurd (hbefore b (by simp)) (hafter' a (by simp))

section

variable (r) [DecidableRel r]

/-- The best element of a list, the first one of several. -/
def firstMax (l : List α) : Option α := l.foldl (List.argAux r) none

variable {r}

theorem firstMax_eq_none_iff {l : List α} : firstMax r l = none ↔ l = [] := by
  simp [firstMax]

theorem isFirstMax_of_foldl (hr : StrictWeak r) {l : List α} {a b : α}
    (h : l.foldl (List.argAux r) (some b) = some a) : IsFirstMax r (b :: l) a := by
  induction l generalizing b with
  | nil =>
    cases h
    exact ⟨[], [], rfl, by simp, by simp⟩
  | cons x l ih =>
    rw [foldl_cons] at h
    by_cases hxb : r x b
    · have hnext : argAux r (some b) x = some x := if_pos hxb
      rw [hnext] at h
      exact (ih h).cons_of_better hr hxb
    · have hnext : argAux r (some b) x = some b := if_neg hxb
      rw [hnext] at h
      exact (ih h).cons_of_not_better hr hxb

/-- **The loop ends with the first of the best elements.** -/
theorem firstMax_eq_some_iff (hr : StrictWeak r) {l : List α} {a : α} :
    firstMax r l = some a ↔ IsFirstMax r l a := by
  have hof {b : α} (h : firstMax r l = some b) : IsFirstMax r l b := by
    cases l with
    | nil => cases h
    | cons => exact isFirstMax_of_foldl hr h
  refine ⟨hof, fun h => ?_⟩
  cases hmax : firstMax r l with
  | none =>
    rw [firstMax_eq_none_iff] at hmax
    rw [hmax] at h
    cases h.mem
  | some => rw [(hof hmax).unique h]

end

end K8s4Claw.Lib
