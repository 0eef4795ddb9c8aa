/-
# How long a finished escalation is kept

`gcExpiredEscalations` of `internal/controller/clawops_controller.go` deletes the escalations in a
terminal phase that are past their `TTLSecondsAfterFinished`, counted from their creation: the
`CreationTimestamp`, since no field says when an escalation was finished.

`Timed` is the system with a clock that does not go back and, as ghost state, the time when the
phase of each escalation became terminal.  A copy that is collected is in a terminal phase, so it is
the last version and its end is known (`Dated`).  The API server stores a `CreationTimestamp` in
whole seconds; here it is the time of the `Create` call, with its nanoseconds.
-/

import K8s4Claw.Ops.Process

namespace K8s4Claw.Ops

open Option
open Lib (Copy Effect Pool Store run run_cons)

/-- The time an escalation is to be kept, with the configured default. -/
def Escalation.ttl (ttl : Int32) (esc : Escalation) : Time :=
  (esc.ttlSecondsAfterFinished.getD ttl).toInt * 1000000000

/-- The phase of an escalation is terminal, deleted or not. -/
def Shared.finished (s : Shared) (object : ℕ) : Bool :=
  (s.escalations.last object).any fun esc => esc.status.phase.isTerminal

/-- The system, the clock, and when the escalations were finished. -/
structure Timed where
  sys : Sys
  clock : Time
  finishedAt : ℕ → Option Time

def Timed.initial (now : Time) : Timed := ⟨Ops.initial, now, fun _ => none⟩

/-- When an event happens. -/
def Event.time (clock : Time) : Event → Time
  | .step _ choice => choice.time clock
  | _ => clock

/-- The state after a step to `P` at time `now`. -/
def Timed.after (R : Timed) (P : Sys) (now : Time) : Timed where
  sys := P
  clock := now
  finishedAt object :=
    if P.shared.finished object && !R.sys.shared.finished object then some now
    else R.finishedAt object

def timedStep (L : Libs) (ttl : Int32) (R : Timed) (event : Event) : Option Timed :=
  if R.clock ≤ event.time R.clock then
    (step L ttl R.sys event).map fun P => R.after P (event.time R.clock)
  else none

/-- The escalation that `gcExpiredEscalations` deletes in a step, and when. -/
def collectedBy (ttl : Int32) (R : Timed) : Event → Option (Copy Escalation × Time)
  | .step t (.call true now) =>
      match R.sys.thread t with
      | .deleteExpired _ _ (esc :: _) => if expired ttl esc.value now then some (esc, now) else none
      | _ => none
  | _ => none

/-- What the loop of `gcExpiredEscalations` has still to look at. -/
def Call.collects : Call → List (Copy Escalation)
  | .deleteExpired _ _ todo => todo
  | _ => []

section

variable {L : Libs} {ttl : Int32} {s : Shared} {call : Call} {choice : Choice}
  {e : Effect Shared Call} {R R' : Timed} {event : Event} {esc : Copy Escalation} {now : Time}

/-- An escalation that is held in a terminal phase. -/
def Shared.Ended (s : Shared) (esc : Copy Escalation) : Prop :=
  s.escalations.Holds esc ∧ esc.value.status.phase.isTerminal = true

theorem collects_of_update {u : Update} (h : call.update now = some u) :
    (∀ esc, (u.next esc).collects = []) ∧ u.failed.collects = [] := by
  cases call with
  | markAnalyzing | propose | markFailed | approve | reject | markExecuted | markNew =>
    cases h
    exact ⟨fun _ => rfl, rfl⟩
  | _ => cases h

/-- What is to be looked at was so before, or was listed in a terminal phase. -/
theorem callStep_collects (h : callStep L ttl s call choice = some e)
    (hesc : esc ∈ e.next.collects) : esc ∈ call.collects ∨ s.Ended esc := by
  cases callStep_acts h with
  | replaced hcall =>
    rw [(collects_of_update hcall).1] at hesc
    cases hesc
  | unreplaced hcall =>
    rw [(collects_of_update hcall).2] at hesc
    cases hesc
  | listExpired =>
    obtain ⟨hlist, hfilter⟩ := List.mem_filter.mp hesc
    obtain ⟨_, -, hcopy⟩ := List.mem_filterMap.mp hlist
    exact .inr ⟨Store.holds_of_copy hcopy, (Bool.and_eq_true _ _ ▸ hfilter).2⟩
  | unexpired | delete => exact .inl (List.mem_cons_of_mem _ hesc)
  | leave hleaves => cases hleaves <;> cases hesc
  | _ => cases hesc

theorem collects_of_started {event : Event} (h : started s event = some call) :
    call.collects = [] := by
  cases event with
  | watch | approve | reject =>
    obtain ⟨esc, -, hif⟩ := bind_eq_some_iff.mp h
    split_ifs at hif
    cases hif
    rfl
  | reconcile | consume =>
    cases h
    rfl
  | step => cases h

end

/-- The gate is shut, the copies that may be collected are of finished escalations, and it is known
when these were finished. -/
structure Dated (R : Timed) : Prop where
  guarded : Guarded R.sys
  ended : ∀ t, ∀ esc ∈ (R.sys.thread t).collects, R.sys.shared.Ended esc
  finished : ∀ object, R.sys.shared.finished object = true →
    ∃ f ≤ R.clock, R.finishedAt object = some f

section

variable {L : Libs} {ttl : Int32} {R R' : Timed} {event : Event} {esc : Copy Escalation}

theorem timedStep_eq_some (h : timedStep L ttl R event = some R') :
    ∃ P, step L ttl R.sys event = some P ∧ R.clock ≤ event.time R.clock ∧
      R' = R.after P (event.time R.clock) := by
  unfold timedStep at h
  split_ifs at h with hclock
  obtain ⟨P, hstep, rfl⟩ := map_eq_some_iff.mp h
  exact ⟨P, hstep, hclock, rfl⟩

/-- Nothing follows a terminal phase, so a copy in one tells how the escalation ended. -/
theorem finished_of_ended {s : Shared} (hgate : Gate s) (h : s.Ended esc) :
    s.finished esc.object = true := by
  have hlast : s.escalations.last esc.object = some esc.value :=
    Store.last_eq_of_holds hgate.chained h.1 fun b hb => by
      cases hb.unfinished.symm.trans h.2
  rw [Shared.finished, hlast]
  exact h.2

theorem dated_initial (now : Time) : Dated (Timed.initial now) := by
  refine ⟨guarded_initial, fun t esc hesc => ?_, fun object h => ?_⟩
  · cases hesc
  · cases h

section

variable (h : Dated R) (hstep : timedStep L ttl R event = some R')

include h hstep

theorem dated_step : Dated R' := by
  obtain ⟨P, hsys, hclock, rfl⟩ := timedStep_eq_some hstep
  refine ⟨guarded_step h.guarded hsys, ?_, fun object hobject => ?_⟩
  · rcases step_cases hsys with ⟨call, hcall, rfl⟩ | ⟨t, choice, e, rfl, ht, he, rfl⟩
    · refine Pool.forall_go
        (I := fun s call => ∀ esc ∈ Call.collects call, Shared.Ended s esc) h.ended ?_
      rw [collects_of_started hcall]
      simp
    · have hkeeps := (callStep_checked (h.guarded.checked t) he).keeps
      have hmono : ∀ esc, R.sys.shared.Ended esc → e.shared.Ended esc := fun esc hesc =>
        ⟨hkeeps.holds esc hesc.1, hesc.2⟩
      refine Pool.forall_advance
        (I := fun s call => ∀ esc ∈ Call.collects call, Shared.Ended s esc) ht
        (fun u _ esc hesc => hmono esc (h.ended u esc hesc)) (fun esc hesc => ?_) ?_
      · exact hmono esc ((callStep_collects he hesc).elim (h.ended t esc) id)
      · exact Lib.forall_of_eq_none (callStep_moves he).spawn
  · rw [Timed.after]
    dsimp only
    split_ifs with hnew
    · exact ⟨_, le_rfl, rfl⟩
    · have hbefore : R.sys.shared.finished object = true := by
        by_contra hnot
        replace hobject : P.shared.finished object = true := hobject
        exact hnew (by simp [hobject, hnot])
      obtain ⟨f, hf, hfinished⟩ := h.finished object hbefore
      exact ⟨f, hf.trans hclock, hfinished⟩

/-- An escalation that is collected is past its TTL since its creation, and when it was finished is
known. -/
theorem finishedAt_of_collectedBy {now : Time}
    (hcollected : collectedBy ttl R event = some (esc, now)) :
    ∃ f ≤ now, R.finishedAt esc.object = some f ∧
      esc.value.creationTimestamp + esc.value.ttl ttl < now := by
  unfold collectedBy at hcollected
  split at hcollected
  · next t now' =>
    split at hcollected
    · next esc' _ hthread =>
      split_ifs at hcollected with hexpired
      obtain ⟨rfl, rfl⟩ := Prod.mk.inj (some.inj hcollected)
      have hended := h.ended t esc' (by rw [hthread]; exact List.mem_cons_self)
      obtain ⟨f, hf, hfinished⟩ := h.finished _ (finished_of_ended h.guarded.gate hended)
      obtain ⟨-, -, hclock, -⟩ := timedStep_eq_some hstep
      have hlate : now' - esc'.value.creationTimestamp > esc'.value.ttl ttl :=
        of_decide_eq_true hexpired
      exact ⟨f, hf.trans hclock, hfinished, Int.add_lt_of_lt_sub_left hlate⟩
    · cases hcollected
  · cases hcollected

end

/-! ### An escalation that is collected early -/

/-- `R` is `R₀` with a further call that has changed nothing, and the call is at `call`. -/
structure Beside (R₀ : Timed) (t : ℕ) (call : Call) (R : Timed) : Prop where
  shared : R.sys.shared = R₀.sys.shared
  size : t < R.sys.size
  thread : R.sys.thread t = call
  clock : R.clock = R₀.clock
  finishedAt : R.finishedAt = R₀.finishedAt

theorem finishedAt_after {P : Sys} (h : P.shared = R.sys.shared) (now : Time) :
    (R.after P now).finishedAt = R.finishedAt := by
  simp [Timed.after, h]

theorem beside_reconcile (L : Libs) (ttl : Int32) (R : Timed) (claw : String) :
    ∃ R', timedStep L ttl R (.reconcile claw) = some R' ∧
      Beside R R.sys.size (.listApproved claw (R.sys.shared.slots claw)) R' :=
  ⟨R.after (R.sys.go _) R.clock, if_pos le_rfl, rfl, Nat.lt_succ_self _, R.sys.go_thread_size _,
    rfl, finishedAt_after rfl _⟩

theorem beside_step {R₀ : Timed} {t : ℕ} {call next : Call} {choice : Choice}
    (h : Beside R₀ t call R)
    (hcall : callStep L ttl R₀.sys.shared call choice = goOn R₀.sys.shared next)
    (htime : choice.time R₀.clock = R₀.clock) :
    ∃ R', timedStep L ttl R (.step t choice) = some R' ∧ Beside R₀ t next R' := by
  have htime' : (Event.step t choice).time R.clock = R.clock := by
    rw [h.clock]
    exact htime
  refine ⟨R.after (R.sys.advance t ⟨R.sys.shared, next, none⟩) R.clock, ?_, h.shared, h.size,
    by simp [Timed.after, Pool.advance], h.clock, (finishedAt_after rfl _).trans h.finishedAt⟩
  rw [timedStep, if_pos htime'.ge, htime', step, if_pos h.size, h.thread, h.shared, hcall]
  rfl

/-- A stored escalation in a terminal phase can be collected as soon as it is past its TTL since its
creation. -/
theorem exists_collected (h : R.sys.shared.escalations.stored esc.object = some esc)
    (hterminal : esc.value.status.phase.isTerminal = true) {now : Time} (hclock : R.clock ≤ now)
    (hlate : esc.value.creationTimestamp + esc.value.ttl ttl < now) :
    ∃ more R₁ event R₂, run (timedStep L ttl) R more = some R₁ ∧
      timedStep L ttl R₁ event = some R₂ ∧ R₁.finishedAt = R.finishedAt ∧
      collectedBy ttl R₁ event = some (esc, now) := by
  obtain ⟨-, hholds, -⟩ := Store.stored_eq_some_iff.mp h
  have hcopy : R.sys.shared.escalations.copy esc.object esc.version = some esc :=
    congrArg (Option.map _) hholds
  obtain ⟨R₁, h₁, hreconcile⟩ := beside_reconcile L ttl R esc.value.clawRef
  -- the list of approved escalations fails, and that of the others returns this one
  have hfailed : callStep L ttl R.sys.shared
      (.listApproved esc.value.clawRef (R.sys.shared.slots esc.value.clawRef))
      (.call false R.clock) =
      goOn R.sys.shared (.listExpired esc.value.clawRef (R.sys.shared.slots esc.value.clawRef)) :=
    rfl
  obtain ⟨R₂, h₂, hexpired⟩ := beside_step hreconcile hfailed rfl
  have hlisted : callStep L ttl R.sys.shared
      (.listExpired esc.value.clawRef (R.sys.shared.slots esc.value.clawRef))
      (.listed [(esc.object, esc.version)]) = goOn R.sys.shared
        (.deleteExpired esc.value.clawRef (R.sys.shared.slots esc.value.clawRef) [esc]) := by
    simp [callStep, settleStep, Shared.list, hcopy, isTerminalFor, hterminal]
  obtain ⟨R₃, h₃, hdelete⟩ := beside_step hexpired hlisted rfl
  have hpast : expired ttl esc.value now = true :=
    decide_eq_true (Int.lt_sub_left_of_add_lt hlate)
  have hstep : (timedStep L ttl R₃ (.step R.sys.size (.call true now))).isSome := by
    simp [timedStep, Event.time, Choice.time, hdelete.clock, hclock, step, hdelete.size,
      hdelete.thread, callStep, settleStep, hpast, goOn]
  obtain ⟨R₄, h₄⟩ := isSome_iff_exists.mp hstep
  refine ⟨[.reconcile esc.value.clawRef, .step R.sys.size (.call false R.clock),
    .step R.sys.size (.listed [(esc.object, esc.version)])], R₃, _, R₄, ?_, h₄, hdelete.finishedAt,
    ?_⟩
  · exact run_cons.mpr ⟨R₁, h₁, run_cons.mpr ⟨R₂, h₂, run_cons.mpr ⟨R₃, h₃, rfl⟩⟩⟩
  · simp [collectedBy, hdelete.thread, hpast]

end

/-- **Escalations are kept for their TTL from their creation on, not from their end on.**  In every
run an escalation that is collected is finished, and if it was finished at most a nanosecond after
its creation, then its TTL has elapsed since.  An escalation that was finished later can be
collected before that, unless that time is over already. -/
theorem collected_from_creation (L : Libs) (ttl : Int32) {start : Time} {events : List Event}
    {R : Timed} (hrun : run (timedStep L ttl) (Timed.initial start) events = some R) :
    (∀ event R' esc now, timedStep L ttl R event = some R' →
      collectedBy ttl R event = some (esc, now) →
      ∃ f ≤ now, R.finishedAt esc.object = some f ∧
        (f ≤ esc.value.creationTimestamp + 1 → f + esc.value.ttl ttl ≤ now)) ∧
    (∀ esc f, R.sys.shared.escalations.stored esc.object = some esc →
      esc.value.status.phase.isTerminal = true → R.finishedAt esc.object = some f →
      esc.value.creationTimestamp + 1 < f → R.clock < f + esc.value.ttl ttl →
      ∃ more R₁ event R₂ now, run (timedStep L ttl) R more = some R₁ ∧
        timedStep L ttl R₁ event = some R₂ ∧ R₁.finishedAt esc.object = some f ∧
        collectedBy ttl R₁ event = some (esc, now) ∧ now < f + esc.value.ttl ttl) := by
  have hdated : Dated R := Lib.run_invariant (fun _ _ _ => dated_step) (dated_initial start) hrun
  refine ⟨fun event R' esc now hstep hcollected => ?_,
    fun esc f hstored hterminal hf hlate hclock => ?_⟩
  · obtain ⟨f, hle, hf, hpast⟩ := finishedAt_of_collectedBy hdated hstep hcollected
    refine ⟨f, hle, hf, fun hsoon => ?_⟩
    have hadd : f + esc.value.ttl ttl ≤ esc.value.creationTimestamp + 1 + esc.value.ttl ttl :=
      Int.add_le_add_right hsoon _
    rw [Int.add_right_comm] at hadd
    exact hadd.trans hpast
  · -- the first moment at which it is past its TTL since its creation
    let now := max R.clock (esc.value.creationTimestamp + 1 + esc.value.ttl ttl)
    have hpast : esc.value.creationTimestamp + esc.value.ttl ttl < now := by
      rw [← Int.add_one_le_iff, Int.add_right_comm]
      exact le_max_right ..
    obtain ⟨more, R₁, event, R₂, hmore, hstep, hsame, hcollected⟩ :=
      exists_collected hstored hterminal (le_max_left ..) hpast
    refine ⟨more, R₁, event, R₂, now, hmore, hstep, by rw [hsame, hf], hcollected, ?_⟩
    exact max_lt hclock (Int.add_lt_add_right hlate _)

/-- An escalation of a minute's TTL, whose analysis fails at the given time. -/
def failedAnalysis (finished : Time) : List Event :=
  [.reconcile "demo", .step 0 (.call false 0), .step 0 (.call false 0),
    .step 0 (.jobs [.escalate ⟨.highCPU, .medium, 1, ""⟩]), .step 0 (.call true 0),
    .step 0 (.call true 0), .watch 0 1, .step 1 (.call true 0), .step 1 (.pipelineError "timeout"),
    .step 1 (.call true finished), .reconcile "demo", .step 2 (.call false finished),
    .step 2 (.listed [(0, 3)])]

theorem collected_after_minute : ∃ R R' esc f,
    run (timedStep producerLibs 60) (Timed.initial 0) (failedAnalysis 0) = some R ∧
      timedStep producerLibs 60 R (.step 2 (.call true (seconds 61))) = some R' ∧
      collectedBy 60 R (.step 2 (.call true (seconds 61))) = some (esc, seconds 61) ∧
      R.finishedAt esc.object = some f ∧ f + esc.value.ttl 60 ≤ seconds 61 := by
  have hkept : ∀ R R' esc, run (timedStep producerLibs 60) (Timed.initial 0) (failedAnalysis 0) =
      some R → timedStep producerLibs 60 R (.step 2 (.call true (seconds 61))) = some R' →
      collectedBy 60 R (.step 2 (.call true (seconds 61))) = some (esc, seconds 61) →
      R.finishedAt esc.object = some 0 → 0 ≤ esc.value.creationTimestamp + 1 →
      0 + esc.value.ttl 60 ≤ seconds 61 := by
    intro R R' esc hrun hstep hcollected hf hsoon
    obtain ⟨f, -, hf', hkept⟩ := (collected_from_creation producerLibs 60 hrun).1 _ R' esc _ hstep
      hcollected
    obtain rfl : 0 = f := some.inj (hf.symm.trans hf')
    exact hkept hsoon
  exact ⟨_, _, _, 0, rfl, rfl, rfl, rfl, hkept _ _ _ rfl rfl rfl rfl (by decide)⟩

/-- If the analysis fails after two minutes, the escalation is collected at that moment. -/
theorem collected_at_once : ∃ R R' esc,
    run (timedStep producerLibs 60) (Timed.initial 0) (failedAnalysis (seconds 120)) = some R ∧
      timedStep producerLibs 60 R (.step 2 (.call true (seconds 120))) = some R' ∧
      collectedBy 60 R (.step 2 (.call true (seconds 120))) = some (esc, seconds 120) ∧
      R.finishedAt esc.object = some (seconds 120) ∧ esc.value.ttl 60 = seconds 60 :=
  ⟨_, _, _, rfl, rfl, rfl, rfl, rfl⟩

end K8s4Claw.Ops
