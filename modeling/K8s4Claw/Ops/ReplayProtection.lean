/-
# The generation counter

The consumer executes an intent only if its generation is above the counter `ops-intent-gen`, and
the `Patch` that removes an intent raises the counter to its generation.  `protected_along` says
what this protects from, whatever is written into the annotation and whichever `Patch` fails.

What takes effect with the `Patch` takes effect together with the counter, so at most once.  A pod
is deleted before it: if the `Patch` then fails, the intent is still there and still newer, and the
next call deletes another pod (`restart_twice`).
-/

import K8s4Claw.Ops.Consumer
import K8s4Claw.Ops.IntentSlot

namespace K8s4Claw.Ops.Consumer

open List Option
open Lib (Along Meets run)

/-- A generation has at most one effect. -/
def AtMostOnce {L : Libs} (S : State L) : Prop := (S.effects.map Prod.fst).Nodup
  deriving Decidable

section

variable (L : Libs) (cmp : L.Quantity → L.Quantity → Ordering)

/-- A call that deletes a pod gets its `Patch` through. -/
def Committed (S : State L) : Event L.Quantity → Prop
  | .consume env =>
      (consumeAndExecuteOpsIntent L cmp env S.claw).deleted ≠ none → env.patchOk = true
  | .write _ | .edit _ _ => True

instance (S : State L) (event : Event L.Quantity) : Decidable (Committed L cmp S event) := by
  unfold Committed
  cases event <;> infer_instance

/-- The counter does not go back from here, executed intents are newer than those handled before
them, and a text that does not validate leaves the counter. -/
structure Protected (S : State L) : Prop where
  monotone : ∀ more T, run (step L cmp) S more = some T →
    S.claw.currentIntentGen ≤ T.claw.currentIntentGen
  newer : S.log.Pairwise fun earlier later =>
    ∀ intent, later.handled = .executed intent → earlier.committed = true →
      ∀ old ∈ earlier.handled.intent, old.generation < intent.generation
  kept : ∀ raw e env T, S.claw.opsIntent = some raw → validateIntent L raw = .error e →
    step L cmp S (.consume env) = some T → T.claw.opsIntentGen = S.claw.opsIntentGen

end

section

variable {L : Libs} {cmp : L.Quantity → L.Quantity → Ordering} {env : Env}
  {claw : Claw L.Quantity} {a : Attempt L} {S T : State L} {event : Event L.Quantity}
  {intent : OpsIntent}

theorem valid_of_parseOpsIntent (h : claw.parseOpsIntent L = .ok (some intent)) :
    (∃ raw, claw.opsIntent = some raw ∧ validateIntent L raw = .ok intent) ∧
      claw.currentIntentGen < intent.generation := by
  unfold Claw.parseOpsIntent at h
  split at h
  · cases h
  · cases h
  · next raw _ hraw =>
    split at h
    · cases h
    · next hvalid =>
      dsimp only at h
      split_ifs at h with hle
      · cases h
      · obtain rfl := some.inj (Except.ok.inj h)
        exact ⟨⟨raw, hraw, hvalid⟩, Int64.not_le.mp hle⟩

theorem currentIntentGen_of_clear {changed : Claw L.Quantity}
    (hchanged : changed.slot = claw.slot.clearOpsIntentAnnotations intent.generation)
    (hnewer : claw.currentIntentGen < intent.generation) :
    changed.currentIntentGen = intent.generation := by
  rw [← currentIntentGen_slot, hchanged, Slot.clearOpsIntentAnnotations,
    currentIntentGen_slot, if_pos hnewer]
  rfl

section

variable (h : Exit L claw a) (hintent : a.handled.intent = some intent)

include h hintent

theorem parse_of_exit : claw.parseOpsIntent L = .ok (some intent) := by
  cases h with
  | idle hparse hhandled | malformed e hparse hhandled hchanged =>
    rw [hhandled] at hintent
    cases hintent
  | rejected _ hparse _ hhandled =>
    rw [hhandled] at hintent
    cases hintent
    exact hparse
  | applied _ _ hparse _ hhandled =>
    rcases hhandled with hhandled | hhandled
    · rw [hhandled] at hintent
      cases hintent
      exact hparse
    · rw [hhandled] at hintent
      cases hintent
      exact hparse

theorem newer_of_exit : claw.currentIntentGen < intent.generation :=
  (valid_of_parseOpsIntent (parse_of_exit h hintent)).2

end

/-- What a `Patch` does to the counter: nothing if no intent was found, and otherwise it is raised
to the generation of the intent. -/
theorem counter_of_exit (h : Exit L claw a) (hbusy : a.handled ≠ .idle) :
    (a.handled.intent = none ∧ a.changed.opsIntentGen = claw.opsIntentGen) ∨
      ∃ intent, a.handled.intent = some intent ∧
        a.changed.currentIntentGen = intent.generation := by
  cases h with
  | idle _ hhandled => exact absurd hhandled hbusy
  | malformed e _ hhandled hchanged =>
    refine .inl ⟨by rw [hhandled]; rfl, ?_⟩
    have hnot : ¬ claw.currentIntentGen > claw.currentIntentGen := Int64.lt_irrefl
    rw [hchanged, Claw.clearOpsIntentAnnotations, if_neg hnot]
  | rejected intent hparse _ hhandled hchanged =>
    refine .inr ⟨intent, by rw [hhandled]; rfl, ?_⟩
    exact currentIntentGen_of_clear hchanged (valid_of_parseOpsIntent hparse).2
  | applied intent _ hparse _ hhandled hchanged =>
    have hvalid := (valid_of_parseOpsIntent hparse).2
    refine .inr ⟨intent, ?_, currentIntentGen_of_clear hchanged hvalid⟩
    rcases hhandled with hhandled | hhandled
    · rw [hhandled]
      rfl
    · rw [hhandled]
      rfl

theorem busy_of_committed (h : a.committed env = true) : a.handled ≠ .idle :=
  of_decide_eq_true (Bool.and_eq_true_iff.mp h).1

/-- The stored Claw after a call: the counter did not go back, and if the `Patch` went through it
is the generation of the intent that was found. -/
theorem counter_call (h : Exit L claw a) (env : Env) :
    claw.currentIntentGen ≤ (if a.committed env then a.changed else claw).currentIntentGen ∧
      (a.committed env = true → ∀ intent ∈ a.handled.intent,
        (if a.committed env then a.changed else claw).currentIntentGen = intent.generation) := by
  cases hcommitted : a.committed env with
  | false => exact ⟨Int64.le_refl _, nofun⟩
  | true =>
    simp only [if_true]
    rcases counter_of_exit h (busy_of_committed hcommitted) with
      ⟨hnone, hgen⟩ | ⟨intent, hintent, hgen⟩
    · have hsame : a.changed.currentIntentGen = claw.currentIntentGen := by
        simp only [Claw.currentIntentGen, hgen]
      rw [hsame, hnone]
      exact ⟨Int64.le_refl _, nofun⟩
    · rw [hgen, hintent]
      refine ⟨Int64.le_of_lt (newer_of_exit h hintent), fun _ intent' hintent' => ?_⟩
      rw [some.inj hintent']

/-- **The counter does not go back in a step.** -/
theorem currentIntentGen_le_step (hstep : step L cmp S event = some T) :
    S.claw.currentIntentGen ≤ T.claw.currentIntentGen := by
  cases event with
  | write opsIntent | edit resources replicas =>
    cases hstep
    exact Int64.le_refl _
  | consume env =>
    cases hstep
    exact (counter_call (consume_exit L cmp env S.claw).1 env).1

theorem currentIntentGen_le_run {more : List (Event L.Quantity)}
    (h : run (step L cmp) S more = some T) :
    S.claw.currentIntentGen ≤ T.claw.currentIntentGen := by
  induction more generalizing S with
  | nil =>
    cases h
    exact Int64.le_refl _
  | cons _ _ ih =>
    obtain ⟨U, hU, hT⟩ := Lib.run_cons.mp h
    exact Int64.le_trans (currentIntentGen_le_step hU) (ih hT)

theorem opsIntentGen_step_of_error {raw : String} {e : IntentError}
    (hraw : S.claw.opsIntent = some raw) (herror : validateIntent L raw = .error e)
    (hstep : step L cmp S (.consume env) = some T) :
    T.claw.opsIntentGen = S.claw.opsIntentGen := by
  cases hstep
  have hexit := (consume_exit L cmp env S.claw).1
  cases hcommitted : (consumeAndExecuteOpsIntent L cmp env S.claw).committed env with
  | false => rfl
  | true =>
    rcases counter_of_exit hexit (busy_of_committed hcommitted) with
      ⟨-, hgen⟩ | ⟨intent, hintent, -⟩
    · exact hgen
    · obtain ⟨⟨raw', hraw', hvalid⟩, -⟩ := valid_of_parseOpsIntent (parse_of_exit hexit hintent)
      obtain rfl := some.inj (hraw.symm.trans hraw')
      cases herror.symm.trans hvalid

/-- The intents handled so far are not above the counter, and the executed ones were newer. -/
structure Counted (S : State L) : Prop where
  bounded : ∀ r ∈ S.log, r.committed = true → ∀ old ∈ r.handled.intent,
    old.generation ≤ S.claw.currentIntentGen
  newer : S.log.Pairwise fun earlier later =>
    ∀ intent, later.handled = .executed intent → earlier.committed = true →
      ∀ old ∈ earlier.handled.intent, old.generation < intent.generation

theorem counted_step (h : Counted S) (hstep : step L cmp S event = some T) : Counted T := by
  have hle := currentIntentGen_le_step hstep
  cases event with
  | write opsIntent | edit resources replicas =>
    cases hstep
    exact ⟨h.bounded, h.newer⟩
  | consume env =>
    cases hstep
    have hexit := (consume_exit L cmp env S.claw).1
    refine ⟨?_, ?_⟩
    · refine forall_mem_append.mpr ⟨?_, forall_mem_singleton.mpr ?_⟩
      · intro r hr hcommitted old hold
        exact Int64.le_trans (h.bounded r hr hcommitted old hold) hle
      · intro hcommitted old hold
        exact Int64.le_of_eq ((counter_call hexit env).2 hcommitted old hold).symm
    · refine pairwise_append.mpr ⟨h.newer, pairwise_singleton .., ?_⟩
      intro earlier hearlier later hlater intent hexecuted hcommitted old hold
      rw [mem_singleton.mp hlater] at hexecuted
      have hintent : (consumeAndExecuteOpsIntent L cmp env S.claw).handled.intent =
          some intent := congrArg Handled.intent hexecuted
      exact Int64.lt_of_le_of_lt (h.bounded earlier hearlier hcommitted old hold)
        (newer_of_exit hexit hintent)

/-! ### Effects -/

/-- A call has at most one effect, under the generation of the intent it found; if it has deleted
no pod without getting its `Patch` through, that was with the counter. -/
theorem effects_call (h : a.deleted = none ∨ a.effect = none)
    (hpatch : a.deleted ≠ none → env.patchOk = true) :
    a.effects (a.committed env) = [] ∨
      ∃ intent effect, a.handled.intent = some intent ∧ a.committed env = true ∧
        a.effects (a.committed env) = [(intent.generation, effect)] := by
  unfold Attempt.effects
  cases hintent : a.handled.intent with
  | none => exact .inl rfl
  | some intent =>
    cases hdeleted : a.deleted with
    | some pod =>
      have heffect : a.effect = none := by
        rcases h with h | h
        · cases hdeleted.symm.trans h
        · exact h
      have hok : a.committed env = true := by
        have hbusy : a.handled ≠ .idle := by
          intro hidle
          rw [hidle] at hintent
          cases hintent
        have hpatchOk := hpatch (by rw [hdeleted]; exact some_ne_none pod)
        simp [Attempt.committed, hbusy, hpatchOk]
      refine .inr ⟨intent, .podDeleted pod, rfl, hok, ?_⟩
      simp [heffect]
    | none =>
      cases a.committed env with
      | false => exact .inl rfl
      | true =>
        cases a.effect with
        | none => exact .inl rfl
        | some effect => exact .inr ⟨intent, effect, rfl, rfl, rfl⟩

/-- No generation has two effects, and those that have one are not above the counter. -/
structure Spent (S : State L) : Prop where
  bounded : ∀ e ∈ S.effects, e.1 ≤ S.claw.currentIntentGen
  once : AtMostOnce S

theorem spent_step (h : Spent S) (hcommitted : Committed L cmp S event)
    (hstep : step L cmp S event = some T) : Spent T := by
  have hle := currentIntentGen_le_step hstep
  cases event with
  | write opsIntent | edit resources replicas =>
    cases hstep
    exact ⟨h.bounded, h.once⟩
  | consume env =>
    cases hstep
    obtain ⟨hexit, hsingle⟩ := consume_exit L cmp env S.claw
    have hbounded : ∀ e ∈ S.effects, e.1 ≤
        (if (consumeAndExecuteOpsIntent L cmp env S.claw).committed env then
          (consumeAndExecuteOpsIntent L cmp env S.claw).changed
        else S.claw).currentIntentGen :=
      fun e he => Int64.le_trans (h.bounded e he) hle
    rcases effects_call hsingle hcommitted with hnone | ⟨intent, effect, hintent, hok, hone⟩
    · refine ⟨?_, ?_⟩
      · simpa only [hnone, append_nil] using hbounded
      · simpa only [AtMostOnce, hnone, append_nil] using h.once
    · have hgen := (counter_call hexit env).2 hok intent hintent
      refine ⟨?_, ?_⟩
      · simp only [hone]
        refine forall_mem_append.mpr ⟨hbounded, forall_mem_singleton.mpr ?_⟩
        exact Int64.le_of_eq hgen.symm
      · simp only [AtMostOnce, hone, map_append]
        refine nodup_append.mpr ⟨h.once, pairwise_singleton .., ?_⟩
        -- the generation is above the counter, and those that had an effect are not
        intro gen hold gen' hnew heq
        obtain ⟨e, he, rfl⟩ := mem_map.mp hold
        have hspent := h.bounded e he
        rw [heq, mem_singleton.mp hnew] at hspent
        exact Int64.not_lt.mpr hspent (newer_of_exit hexit hintent)

end

/-- **The counter protects against replays.**  From any Claw, in every run of writes to the
annotation, edits of the spec and calls whose `Patch` goes through or not: the counter never goes
back, every executed intent is strictly newer than each that was executed, failed or rejected for
its parameters before it, with its `Patch` through, and a text that does not validate leaves the
counter as it is. -/
theorem protected_along (L : Libs) (cmp : L.Quantity → L.Quantity → Ordering)
    (claw : Claw L.Quantity) (events : List (Event L.Quantity)) :
    Along (step L cmp) (Protected L cmp) (start claw) events := by
  have hinit : Counted (start claw) := ⟨nofun, List.Pairwise.nil⟩
  refine Lib.along_of_step ?_ ?_ hinit
  · intro S event T hS hstep
    exact counted_step hS hstep
  · intro S hS
    refine ⟨?_, hS.newer, ?_⟩
    · intro more T hT
      exact currentIntentGen_le_run hT
    · intro raw e env T hraw herror hstep
      exact opsIntentGen_step_of_error hraw herror hstep

/-- **Every intent takes effect at most once**, in a run in which every call that deletes a pod
gets its `Patch` through: no generation has two effects, whether pods deleted, restarts stamped or
changes of the spec.  Every other `Patch`, every `List` and every `Delete` may fail. -/
theorem atMostOnce_along (L : Libs) (cmp : L.Quantity → L.Quantity → Ordering)
    (claw : Claw L.Quantity) (events : List (Event L.Quantity))
    (hcommitted : Meets (step L cmp) (Committed L cmp) (start claw) events) :
    Along (step L cmp) AtMostOnce (start claw) events := by
  have hinit : Spent (start claw) := ⟨nofun, nodup_nil⟩
  refine Lib.along_of_meets ?_ (fun S hS => hS.once) hinit hcommitted
  intro S event T hS hcommitted hstep
  exact spent_step hS hcommitted hstep

/-! ### A pod restarted, and restarted again -/

/-- The order of the quantities of `sampleLibs`. -/
def sampleCmp (a b : sampleLibs.Quantity) : Ordering := compare (show ℕ from a) (show ℕ from b)

/-- The pods of a Claw with two replicas, the first one older. -/
def twoPods : List Pod := [⟨"demo-0", 100⟩, ⟨"demo-1", 200⟩]

/-- A limit is raised at the second try, and then a pod restarted. -/
def raisedAndRestarted : List (Event sampleLibs.Quantity) :=
  [.write (some memoryText), .consume { patchOk := false }, .consume {}, .consume {},
    .write (some podText), .consume { pods := some twoPods }, .consume { pods := some twoPods }]

theorem atMostOnce_along_raisedAndRestarted :
    ((run (step sampleLibs sampleCmp) (start {}) raisedAndRestarted).map fun S => S.effects) =
      some [(2000, .specChanged), (9000, .podDeleted ⟨"demo-0", 100⟩)] ∧
    Along (step sampleLibs sampleCmp) AtMostOnce (start {}) raisedAndRestarted :=
  ⟨by decide +kernel, atMostOnce_along sampleLibs sampleCmp {} raisedAndRestarted
    (by decide +kernel)⟩

/-- The `Patch` after the restart of a pod fails, and the call is repeated. -/
def restartedTwice : List (Event sampleLibs.Quantity) :=
  [.write (some podText), .consume { pods := some twoPods, patchOk := false },
    .consume { pods := some [⟨"demo-0", 300⟩, ⟨"demo-1", 200⟩] }]

/-- **One intent restarts two pods.**  The oldest pod is deleted, the `Patch` fails, and the next
call, which finds the intent still there, deletes what is then the oldest pod. -/
theorem restart_twice :
    ∃ S ∈ run (step sampleLibs sampleCmp) (start {}) restartedTwice,
      S.effects = [(9000, .podDeleted ⟨"demo-0", 100⟩), (9000, .podDeleted ⟨"demo-1", 200⟩)] ∧
      ¬ AtMostOnce S := by
  decide +kernel

end K8s4Claw.Ops.Consumer
