/-
# Runs of a labelled transition function

A concurrent program is given by a function `step : σ → ε → Option σ`: the label `e` says which
party moves and what its environment answers, and `none` says that the move is not enabled.  A run
is a list of labels.

An invariant kept by the steps that meet a condition `ok` holds all along every run all of whose
steps meet it (`run_invariant_of_meets`, `along_of_meets`); one kept by every step holds all along
every run (`along_of_step`).  `along_iff_meets` says when such a condition is exact.

`run_erased` compares a run with the same run without some of its labels, and `run_unwound` two runs
that agree on some of their labels, the low ones.
-/

import Mathlib.Data.List.Infix

namespace K8s4Claw.Lib

open List Option

variable {σ ε : Type*} {step : σ → ε → Option σ} {ok : σ → ε → Prop}

/-- The state after the labels `es`, `none` as soon as one of them is not enabled. -/
def run (step : σ → ε → Option σ) : σ → List ε → Option σ
  | s, [] => some s
  | s, e :: es => (step s e).bind fun t => run step t es

/-- Every step of the run meets `ok`, read at the state before the step. -/
def Meets (step : σ → ε → Option σ) (ok : σ → ε → Prop) : σ → List ε → Prop
  | _, [] => True
  | s, e :: es => ok s e ∧ ∀ t, step s e = some t → Meets step ok t es

/-- `P` holds in every state the run goes through, its two ends included. -/
def Along (step : σ → ε → Option σ) (P : σ → Prop) (s : σ) (es : List ε) : Prop :=
  ∀ fs, fs <+: es → ∀ t, run step s fs = some t → P t

variable {I P : σ → Prop} {s t : σ} {e : ε} {es : List ε}

theorem run_cons :
    run step s (e :: es) = some t ↔ ∃ u, step s e = some u ∧ run step u es = some t := by
  simp [run, bind_eq_some_iff]

theorem run_append {u : σ} {fs : List ε} :
    run step s (es ++ fs) = some u ↔
      ∃ t, run step s es = some t ∧ run step t fs = some u := by
  induction es generalizing s with
  | nil => simp [run]
  | cons e es ih =>
    simp only [cons_append, run_cons, ih]
    constructor
    · rintro ⟨v, hv, t, ht, hu⟩
      exact ⟨t, ⟨v, hv, ht⟩, hu⟩
    · rintro ⟨t, ⟨v, hv, ht⟩, hu⟩
      exact ⟨v, hv, t, ht, hu⟩

theorem meets_nil (s : σ) : Meets step ok s [] := trivial

theorem meets_cons_of_none (h : step s e = none) : Meets step ok s (e :: es) ↔ ok s e := by
  simp [Meets, h]

theorem meets_cons_of_some {u : σ} (h : step s e = some u) :
    Meets step ok s (e :: es) ↔ ok s e ∧ Meets step ok u es := by
  simp [Meets, h]

theorem meets_append {fs : List ε} :
    Meets step ok s (es ++ fs) ↔
      Meets step ok s es ∧ ∀ t, run step s es = some t → Meets step ok t fs := by
  induction es generalizing s with
  | nil => simp [Meets, run]
  | cons e es ih =>
    constructor
    · rintro ⟨he, h⟩
      refine ⟨⟨he, fun u hu => (ih.1 (h u hu)).1⟩, fun t ht => ?_⟩
      obtain ⟨u, hu, hut⟩ := run_cons.1 ht
      exact (ih.1 (h u hu)).2 t hut
    · rintro ⟨⟨he, hes⟩, hfs⟩
      exact ⟨he, fun u hu => ih.2 ⟨hes u hu, fun t ht => hfs t (run_cons.2 ⟨u, hu, ht⟩)⟩⟩

theorem meets_of_forall (h : ∀ s e, ok s e) : Meets step ok s es := by
  induction es generalizing s with
  | nil => trivial
  | cons e es ih => exact ⟨h s e, fun _ _ => ih⟩

theorem meets_true : Meets step (fun _ _ => True) s es := meets_of_forall fun _ _ => trivial

theorem meets_of_meets {ok' : σ → ε → Prop}
    (hstep : ∀ s e t, I s → ok s e → step s e = some t → I t) (himp : ∀ s e, I s → ok s e → ok' s e)
    (hs : I s) (h : Meets step ok s es) : Meets step ok' s es := by
  induction es generalizing s with
  | nil => trivial
  | cons e es ih =>
    exact ⟨himp s e hs h.1, fun t ht => ih (hstep s e t hs h.1 ht) (h.2 t ht)⟩

theorem meets_and {ok' : σ → ε → Prop} (h : Meets step ok s es) (h' : Meets step ok' s es) :
    Meets step (fun s e => ok s e ∧ ok' s e) s es := by
  induction es generalizing s with
  | nil => trivial
  | cons e es ih => exact ⟨⟨h.1, h'.1⟩, fun t ht => ih (h.2 t ht) (h'.2 t ht)⟩

theorem meets_and_of_forall {p : ε → Prop} (h : Meets step ok s es) (hp : ∀ e ∈ es, p e) :
    Meets step (fun s e => ok s e ∧ p e) s es := by
  induction es generalizing s with
  | nil => trivial
  | cons e es ih =>
    obtain ⟨hpe, hpes⟩ := forall_mem_cons.mp hp
    exact ⟨⟨h.1, hpe⟩, fun t ht => ih (h.2 t ht) hpes⟩

/-- Whether a run meets a decidable condition can be computed. -/
instance decidableMeets [∀ s e, Decidable (ok s e)] :
    ∀ (s : σ) (es : List ε), Decidable (Meets step ok s es)
  | _, [] => isTrue trivial
  | s, e :: es =>
      match h : step s e with
      | none => decidable_of_iff' _ (meets_cons_of_none h)
      | some u =>
          have := decidableMeets u es
          decidable_of_iff' _ (meets_cons_of_some h)

/-- **Invariants hold at the end of every run** whose steps meet `ok`, when a
step that meets `ok` keeps them. -/
theorem run_invariant_of_meets (hstep : ∀ s e t, I s → ok s e → step s e = some t → I t)
    {s t : σ} {es : List ε} (hs : I s) (hok : Meets step ok s es)
    (h : run step s es = some t) : I t := by
  induction es generalizing s with
  | nil =>
    obtain rfl : s = t := by simpa [run] using h
    exact hs
  | cons e es ih =>
    obtain ⟨u, hu, ht⟩ := run_cons.1 h
    exact ih (hstep s e u hs hok.1 hu) (hok.2 u hu) ht

theorem run_invariant (hstep : ∀ s e t, I s → step s e = some t → I t)
    {s t : σ} {es : List ε} (hs : I s) (h : run step s es = some t) : I t :=
  run_invariant_of_meets (fun s e t hI _ ht => hstep s e t hI ht) hs meets_true h

theorem along_nil : Along step P s [] ↔ P s := by
  constructor
  · intro h
    exact h [] nil_prefix s rfl
  · rintro h fs hfs t ht
    obtain rfl := prefix_nil.1 hfs
    obtain rfl : s = t := by simpa [run] using ht
    exact h

theorem along_cons :
    Along step P s (e :: es) ↔ P s ∧ ∀ t, step s e = some t → Along step P t es := by
  constructor
  · intro h
    refine ⟨h [] nil_prefix s rfl, fun t ht fs hfs u hu => ?_⟩
    exact h (e :: fs) ((cons_prefix_cons).2 ⟨rfl, hfs⟩) u (run_cons.2 ⟨t, ht, hu⟩)
  · rintro ⟨hs, h⟩ fs hfs u hu
    cases fs with
    | nil =>
      obtain rfl : s = u := by simpa [run] using hu
      exact hs
    | cons f fs =>
      obtain ⟨rfl, hpre⟩ := cons_prefix_cons.1 hfs
      obtain ⟨t, ht, hu⟩ := run_cons.1 hu
      exact h t ht fs hpre u hu

/-- **Invariants hold all along a run** whose steps meet `ok`, when a step that
meets `ok` keeps them; so does what follows from them. -/
theorem along_of_meets (hstep : ∀ s e t, I s → ok s e → step s e = some t → I t)
    (hP : ∀ s, I s → P s) (hs : I s) (hok : Meets step ok s es) : Along step P s es := by
  induction es generalizing s with
  | nil => exact along_nil.2 (hP s hs)
  | cons e es ih =>
    refine along_cons.2 ⟨hP s hs, fun t ht => ?_⟩
    exact ih (hstep s e t hs hok.1 ht) (hok.2 t ht)

/-- **Invariants of every step hold all along every run.** -/
theorem along_of_step (hstep : ∀ s e t, I s → step s e = some t → I t) (hP : ∀ s, I s → P s)
    (hs : I s) : Along step P s es :=
  along_of_meets (fun s e t hI _ ht => hstep s e t hI ht) hP hs meets_true

/-- **When a condition on the steps is exact**, among the runs whose steps meet `dom`.  Let `I`
be kept by the steps that meet `ok`, and let a step that meets `dom`, out of a state with `I` and
`P`, end in a state with `P` exactly when it meets `ok`.  Then `P` holds all along a run exactly
when all its steps meet `ok`. -/
theorem along_iff_meets_of_kept {dom : σ → ε → Prop}
    (hI : ∀ s e t, I s → ok s e → step s e = some t → I t)
    (hP : ∀ s e t, I s → P s → dom s e → step s e = some t → (P t ↔ ok s e)) (hs : I s) (hPs : P s)
    (hdom : Meets step dom s es) (h : run step s es = some t) :
    Along step P s es ↔ Meets step ok s es := by
  induction es generalizing s with
  | nil => simp only [along_nil, Meets, hPs]
  | cons e es ih =>
    obtain ⟨u, hu, ht⟩ := run_cons.1 h
    have hiff := hP s e u hs hPs hdom.1 hu
    rw [along_cons]
    constructor
    · rintro ⟨-, hal⟩
      have hPu : P u := hal u hu [] nil_prefix u rfl
      have hIu : I u := hI s e u hs (hiff.1 hPu) hu
      refine ⟨hiff.1 hPu, fun v hv => ?_⟩
      obtain rfl : u = v := some.inj (hu.symm.trans hv)
      exact (ih hIu hPu (hdom.2 u hu) ht).1 (hal u hu)
    · rintro ⟨hok, hm⟩
      refine ⟨hPs, fun v hv => ?_⟩
      obtain rfl : u = v := some.inj (hu.symm.trans hv)
      exact (ih (hI s e u hs hok hu) (hiff.2 hok) (hdom.2 u hu) ht).2 (hm u hu)

section

variable (hI : ∀ s e t, I s → step s e = some t → I t)

include hI

theorem along_iff_meets_of_meets {dom : σ → ε → Prop}
    (hP : ∀ s e t, I s → P s → dom s e → step s e = some t → (P t ↔ ok s e)) (hs : I s) (hPs : P s)
    (hdom : Meets step dom s es) (h : run step s es = some t) :
    Along step P s es ↔ Meets step ok s es :=
  along_iff_meets_of_kept (fun s e t hIs _ ht => hI s e t hIs ht) hP hs hPs hdom h

theorem along_iff_meets (hP : ∀ s e t, I s → P s → step s e = some t → (P t ↔ ok s e)) (hs : I s)
    (hPs : P s) (h : run step s es = some t) : Along step P s es ↔ Meets step ok s es :=
  along_iff_meets_of_meets hI (fun s e t hs hPs _ hu => hP s e t hs hPs hu) hs hPs meets_true h

end

/-- The labels of a run without those that `drop` names at the states they occur in. -/
def erased (step : σ → ε → Option σ) (drop : σ → ε → Bool) : σ → List ε → List ε
  | _, [] => []
  | s, e :: es =>
      match step s e with
      | none => []
      | some t => if drop s e then erased step drop t es else e :: erased step drop t es

/-- **A run and the run without some of its labels end in related states.** -/
theorem run_erased {drop : σ → ε → Bool} {R : σ → σ → Prop}
    (hdrop : ∀ s e t u, R s u → ok s e → drop s e = true → step s e = some t → R t u)
    (hkeep : ∀ s e t u, R s u → ok s e → drop s e = false → step s e = some t →
      ∃ v, step u e = some v ∧ R t v) {u : σ} (hR : R s u) (hok : Meets step ok s es)
    (h : run step s es = some t) : ∃ v, run step u (erased step drop s es) = some v ∧ R t v := by
  induction es generalizing s u with
  | nil =>
    cases h
    exact ⟨u, rfl, hR⟩
  | cons e es ih =>
    obtain ⟨s', hs', hrun⟩ := run_cons.mp h
    simp only [erased, hs']
    cases hd : drop s e with
    | true => exact ih (hdrop s e s' u hR hok.1 hd hs') (hok.2 s' hs') hrun
    | false =>
      obtain ⟨u', hu', hR'⟩ := hkeep s e s' u hR hok.1 hd hs'
      obtain ⟨v, hv, hRv⟩ := ih hR' (hok.2 s' hs') hrun
      exact ⟨v, run_cons.mpr ⟨u', hu', hv⟩, hRv⟩

/-- What the steps of a run put out, where `out` reads it off a state and a label. -/
def outputs {β : Type*} (step : σ → ε → Option σ) (out : σ → ε → Option β) : σ → List ε → List β
  | _, [] => []
  | s, e :: es =>
      match step s e with
      | none => []
      | some t => (out s e).toList ++ outputs step out t es

theorem outputs_cons {β : Type*} {out : σ → ε → Option β} (h : step s e = some t) :
    outputs step out s (e :: es) = (out s e).toList ++ outputs step out t es := by
  rw [outputs, h]

/-- **A run and the run it is translated to end in related states**: `out` names the label the
second run takes for a label of the first, if it takes one. -/
theorem run_outputs {τ δ : Type*} {step' : τ → δ → Option τ} {out : σ → ε → Option δ}
    {R : σ → τ → Prop}
    (hdrop : ∀ s e t u, R s u → ok s e → out s e = none → step s e = some t → R t u)
    (hkeep : ∀ s e e' t u, R s u → ok s e → out s e = some e' → step s e = some t →
      ∃ v, step' u e' = some v ∧ R t v) {u : τ} (hR : R s u) (hok : Meets step ok s es)
    (h : run step s es = some t) : ∃ v, run step' u (outputs step out s es) = some v ∧ R t v := by
  induction es generalizing s u with
  | nil =>
    cases h
    exact ⟨u, rfl, hR⟩
  | cons e es ih =>
    obtain ⟨s', hs', hrun⟩ := run_cons.mp h
    rw [outputs_cons hs']
    cases ho : out s e with
    | none => exact ih (hdrop s e s' u hR hok.1 ho hs') (hok.2 s' hs') hrun
    | some e' =>
      obtain ⟨u', hu', hR'⟩ := hkeep s e e' s' u hR hok.1 ho hs'
      obtain ⟨v, hv, hRv⟩ := ih hR' (hok.2 s' hs') hrun
      exact ⟨v, run_cons.mpr ⟨u', hu', hv⟩, hRv⟩

section

variable {R : σ → σ → Prop} {low : ε → Bool}

variable {s t : σ} (hR : Equivalence R) (hhigh : ∀ s e t, low e = false → step s e = some t → R s t)

include hR hhigh

theorem run_high {es : List ε} (hes : ∀ e ∈ es, low e = false) (h : run step s es = some t) :
    R s t := by
  induction es generalizing s with
  | nil =>
    obtain rfl := some.inj h
    exact hR.refl s
  | cons e es ih =>
    obtain ⟨he, hes⟩ := forall_mem_cons.mp hes
    obtain ⟨u, hu, ht⟩ := run_cons.mp h
    exact hR.trans (hhigh s e u he hu) (ih hes ht)

/-- **Unwinding.**  Two runs with the same low labels end in equivalent states. -/
theorem run_unwound
    (hlow : ∀ s e t u v, R s u → low e = true → step s e = some t → step u e = some v → R t v)
    {u v : σ} {es fs : List ε} (hsu : R s u) (hfilter : es.filter low = fs.filter low)
    (hs : run step s es = some t) (hu : run step u fs = some v) : R t v := by
  induction es generalizing s u fs with
  | nil =>
    cases hs
    have hfs : ∀ f ∈ fs, low f = false := by
      intro f hf
      simpa using filter_eq_nil_iff.mp hfilter.symm f hf
    exact hR.trans hsu (run_high hR hhigh hfs hu)
  | cons e es ih =>
    obtain ⟨s', hs', ht⟩ := run_cons.mp hs
    cases he : low e with
    | false =>
      rw [filter_cons_of_neg (by simp [he])] at hfilter
      exact ih (hR.trans (hR.symm (hhigh s e s' he hs')) hsu) hfilter ht hu
    | true =>
      -- the second run comes to this label after some high ones
      rw [filter_cons_of_pos he] at hfilter
      obtain ⟨high, rest, rfl, hhighs, -, hrest⟩ := filter_eq_cons_iff.mp hfilter.symm
      obtain ⟨w, hw, hu⟩ := run_append.mp hu
      obtain ⟨w', hw', hv⟩ := run_cons.mp hu
      have hsw : R s w := hR.trans hsu (run_high hR hhigh (by simpa using hhighs) hw)
      exact ih (hlow s e s' w w' hsw he hs' hw') hrest.symm ht hv

end

end K8s4Claw.Lib
