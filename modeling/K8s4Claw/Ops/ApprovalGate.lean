/-
# The approval gate

Three programs write the status of an escalation, each from a copy it read before, possibly a
stale one: the companion's watcher, `kubectl-claw` and `ClawOpsController`.  A `Status().Update`
goes through only if the escalation still has the version that was read.  So what a program
checked on its copy is true of the escalation it replaces, and the phases follow the order of the
checks: every version but the last is in a phase that is not terminal, `Executed` follows
`Approved`, and `Approved` follows `AwaitingApproval` with a proposal.  The proposal that
`processApprovedEscalations` writes to a Claw is that of a copy in phase `Approved`, stale or not
(`gate_along`).

An escalation is marked `Executed` or `AutoExecuted` after its intent was written to the Claw, so
the intents of all such escalations were written (`Recorded`).
-/

import K8s4Claw.Lib.Run
import K8s4Claw.Ops.Moves

namespace K8s4Claw.Ops

open List
open Lib (Along Copy Effect Pool Store)

/-- What may replace an escalation. -/
structure Allowed (before after : Escalation) : Prop where
  unfinished : before.status.phase.isTerminal = false
  approved : after.status.phase = .approved →
    before.status.phase = .awaitingApproval ∧ before.status.proposedAction ≠ "" ∧
      after.status.proposedAction = before.status.proposedAction
  executed : after.status.phase = .executed →
    before.status.phase = .approved ∧ before.status.proposedAction ≠ "" ∧
      after.status.executedAction = before.status.proposedAction

/-- The intent was written to the annotation of the Claw. -/
def Shared.Wrote (s : Shared) (claw action : String) : Prop :=
  ∃ w ∈ s.written, w.claw = claw ∧ w.action = action

/-- Escalations begin without a phase and change only as allowed; what is in the annotation of a
Claw was written by `ClawOpsController`, and every proposal it wrote was that of an escalation of
this Claw, stored as approved. -/
structure Gate (s : Shared) : Prop where
  begins : s.escalations.Begins fun esc => esc.status.phase = .none
  chained : s.escalations.Chained Allowed
  annotated : ∀ claw action, (s.slots claw).opsIntent = some action → s.Wrote claw action
  written : ∀ w ∈ s.written, w.companion = true → ∃ esc, s.escalations.Holds esc ∧
    esc.value.clawRef = w.claw ∧ esc.value.status.phase = .approved ∧
    esc.value.status.proposedAction = w.action

/-- `Executed` or `AutoExecuted`. -/
def Phase.IsExecuted (phase : Phase) : Prop := phase = .executed ∨ phase = .autoExecuted

/-- The intents of the escalations marked as executed were written. -/
def Recorded (s : Shared) : Prop :=
  ∀ esc, s.escalations.Holds esc → esc.value.status.phase.IsExecuted →
    s.Wrote esc.value.clawRef esc.value.status.executedAction

/-- The copy is of an escalation approved for this Claw. -/
structure ApprovedFor (s : Shared) (claw : String) (esc : Copy Escalation) : Prop where
  holds : s.escalations.Holds esc
  clawRef : esc.value.clawRef = claw
  phase : esc.value.status.phase = .approved
  proposal : esc.value.status.proposedAction ≠ ""

/-- The copies of a call were read and are in the phase the call checked, and what it is going to
record as executed was written. -/
def Call.Checked (s : Shared) : Call → Prop
  | .markAnalyzing esc => s.escalations.Holds esc ∧ esc.value.status.phase = .pending
  | .analyze esc | .propose esc _ _ | .markFailed esc _ =>
      s.escalations.Holds esc ∧ esc.value.status.phase = .analyzing
  | .approve esc _ => s.escalations.Holds esc ∧ esc.value.status.phase = .awaitingApproval ∧
      esc.value.status.proposedAction ≠ ""
  | .reject esc _ => s.escalations.Holds esc ∧ esc.value.status.phase.isTerminal = false
  | .writeApproved claw _ todo => ∀ esc ∈ todo, ApprovedFor s claw esc
  | .markExecuted claw _ esc todo => ApprovedFor s claw esc ∧
      s.Wrote claw esc.value.status.proposedAction ∧ ∀ esc ∈ todo, ApprovedFor s claw esc
  | .audit claw _ _ _ intentJSON _ _ => s.Wrote claw intentJSON
  | .markNew _ _ esc status _ _ => s.escalations.Holds esc ∧ esc.value.status.phase = .none ∧
      (status.phase = .pending ∨
        status.phase = .autoExecuted ∧ s.Wrote esc.value.clawRef status.executedAction)
  | _ => True

/-- A step from `s` to `s'`: what was read and written stays so, and the gate stays shut. -/
structure Keeps (s s' : Shared) : Prop where
  holds : ∀ c, s.escalations.Holds c → s'.escalations.Holds c
  wrote : ∀ claw action, s.Wrote claw action → s'.Wrote claw action
  gate : Gate s → Gate s'
  recorded : Recorded s → Recorded s'

section

variable {L : Libs} {ttl : Int32} {s s' : Shared} {claw : String} {mine : Slot}
  {esc esc' : Copy Escalation} {status : EscalationStatus} {ok : Bool} {call : Call}
  {choice : Choice} {e : Effect Shared Call}

theorem ApprovedFor.mono (hkeeps : Keeps s s') (h : ApprovedFor s claw esc) :
    ApprovedFor s' claw esc :=
  ⟨hkeeps.holds esc h.holds, h.clawRef, h.phase, h.proposal⟩

theorem Call.Checked.mono (hkeeps : Keeps s s') (h : call.Checked s) : call.Checked s' := by
  cases call with
  | markAnalyzing | analyze | propose | markFailed | approve | reject =>
    exact ⟨hkeeps.holds _ h.1, h.2⟩
  | writeApproved => exact fun esc hesc => (h esc hesc).mono hkeeps
  | markExecuted =>
    obtain ⟨hesc, hwrote, htodo⟩ := h
    refine ⟨hesc.mono hkeeps, hkeeps.wrote _ _ hwrote, ?_⟩
    exact fun esc hesc => (htodo esc hesc).mono hkeeps
  | audit => exact hkeeps.wrote _ _ h
  | markNew =>
    obtain ⟨hholds, hphase, hstatus⟩ := h
    refine ⟨hkeeps.holds _ hholds, hphase, ?_⟩
    exact hstatus.imp_right fun ⟨hauto, hwrote⟩ => ⟨hauto, hkeeps.wrote _ _ hwrote⟩
  | done | listApproved | listExpired | deleteExpired | collectSignals | remediate | consume =>
    trivial

theorem Keeps.refl (s : Shared) : Keeps s s := ⟨fun _ h => h, fun _ _ h => h, id, id⟩

theorem keeps_escalations {store : Store Escalation}
    (hholds : ∀ c, s.escalations.Holds c → store.Holds c)
    (hbegins : Gate s → store.Begins fun esc => esc.status.phase = .none)
    (hchained : Gate s → store.Chained Allowed)
    (hnew : ∀ c, store.Holds c → s.escalations.Holds c ∨
      (c.value.status.phase.IsExecuted → s.Wrote c.value.clawRef c.value.status.executedAction)) :
    Keeps s { s with escalations := store } := by
  refine ⟨hholds, fun _ _ h => h, fun h => ?_, ?_⟩
  · refine ⟨hbegins h, hchained h, h.annotated, fun w hw hcompanion => ?_⟩
    obtain ⟨esc, hesc, hmatch⟩ := h.written w hw hcompanion
    exact ⟨esc, hholds esc hesc, hmatch⟩
  · intro h esc hesc hphase
    rcases hnew esc hesc with hold | hwrote
    · exact h esc hold hphase
    · exact hwrote hphase

theorem keeps_create {new : Escalation} (hphase : new.status.phase = .none) :
    Keeps s { s with escalations := s.escalations.create new } := by
  refine keeps_escalations (fun c hc => Store.holds_create hc new) (fun h => ?_) (fun h => ?_) ?_
  · exact Store.begins_create h.begins hphase
  · exact Store.chained_create h.chained new
  · intro c hc
    refine (Store.holds_of_create hc).imp_right fun heq hexecuted => ?_
    rw [heq] at hexecuted
    rcases hexecuted with hexecuted | hexecuted <;> cases hphase.symm.trans hexecuted

theorem keeps_delete (object : ℕ) :
    Keeps s { s with escalations := s.escalations.delete object } := by
  refine keeps_escalations (fun c hc => Store.holds_delete hc object) (fun h => ?_) (fun h => ?_) ?_
  · exact Store.begins_delete h.begins object
  · exact Store.chained_delete h.chained object
  · exact fun c hc => .inl (Store.holds_of_delete hc)

theorem keeps_updateStatus (hesc : s.escalations.Holds esc)
    (hallowed : Allowed esc.value { esc.value with status := status })
    (hwrote : status.phase.IsExecuted → s.Wrote esc.value.clawRef status.executedAction)
    (h : s.updateStatus ok esc status = some (s', esc')) :
    Keeps s s' ∧ s'.escalations.Holds esc' ∧
      esc'.value = { esc.value with status := status } := by
  obtain ⟨store, hupdate, rfl⟩ := updateStatus_eq_some h
  obtain ⟨-, hcopy, -⟩ := Store.update_eq_some hupdate
  refine ⟨keeps_escalations (fun c hc => Store.holds_update hc hupdate) (fun h => ?_) (fun h => ?_)
    ?_, Store.holds_updated hupdate, ?_⟩
  · exact Store.begins_update h.begins hupdate
  · exact Store.chained_update h.chained hesc hallowed hupdate
  · intro c hc
    refine (Store.holds_of_update hc hupdate).imp_right fun heq => ?_
    rw [heq, hcopy]
    exact hwrote
  · rw [hcopy]

section

variable {action : String} {companion : Bool}

theorem wrote_writeIntent :
    (s.writeIntent claw mine ⟨claw, action, companion⟩).1.Wrote claw action :=
  ⟨⟨claw, action, companion⟩, mem_append_right _ (mem_singleton_self _), rfl, rfl⟩

theorem wrote_writeIntent_of_wrote {claw' action' : String} (h : s.Wrote claw' action') :
    (s.writeIntent claw mine ⟨claw, action, companion⟩).1.Wrote claw' action' := by
  obtain ⟨w, hw, hmatch⟩ := h
  exact ⟨w, mem_append_left _ hw, hmatch⟩

theorem keeps_writeIntent (hproposal : companion = true → ∃ esc, ApprovedFor s claw esc ∧
      esc.value.status.proposedAction = action) :
    Keeps s (s.writeIntent claw mine ⟨claw, action, companion⟩).1 := by
  refine ⟨fun _ h => h, fun _ _ => wrote_writeIntent_of_wrote,
    fun h => ⟨h.begins, h.chained, ?_, ?_⟩,
    fun h esc hesc hphase => wrote_writeIntent_of_wrote (h esc hesc hphase)⟩
  · intro claw' raw hraw
    by_cases hclaw : claw' = claw
    · subst hclaw
      replace hraw : (Slot.patch mine (mine.setIntent action) (s.slots claw')).opsIntent =
        some raw := by simpa [Shared.writeIntent] using hraw
      rcases Slot.opsIntent_patch_setIntent hraw with rfl | hstored
      · exact wrote_writeIntent
      · exact wrote_writeIntent_of_wrote (h.annotated claw' raw hstored)
    · refine wrote_writeIntent_of_wrote (h.annotated claw' raw ?_)
      simpa [Shared.writeIntent, hclaw] using hraw
  · refine forall_mem_append.mpr ⟨h.written, forall_mem_singleton.mpr ?_⟩
    intro hcompanion
    obtain ⟨esc, hesc, haction⟩ := hproposal hcompanion
    exact ⟨esc, hesc.holds, hesc.clawRef, hesc.phase, haction⟩

end

theorem keeps_commit {changed : Slot} {executed : Option OpsIntent}
    (hchanged : changed.opsIntent = none) : Keeps s (s.commit claw mine changed executed) := by
  refine ⟨fun _ h => h, fun _ _ h => h, fun h => ⟨h.begins, h.chained, ?_, h.written⟩, id⟩
  intro claw' raw hraw
  refine h.annotated claw' raw ?_
  by_cases hclaw : claw' = claw
  · subst hclaw
    exact Slot.opsIntent_patch_of_none hchanged (by simpa [Shared.commit] using hraw)
  · simpa [Shared.commit, hclaw] using hraw

/-- What a step of a call establishes. -/
structure StepChecked (s : Shared) (e : Effect Shared Call) : Prop where
  keeps : Keeps s e.shared
  next : e.next.Checked e.shared
  spawn : e.spawn = none

theorem allowed_of_phase {before after : Escalation}
    (hbefore : before.status.phase.isTerminal = false) (happroved : after.status.phase ≠ .approved)
    (hexecuted : after.status.phase ≠ .executed) : Allowed before after :=
  ⟨hbefore, fun h => absurd h happroved, fun h => absurd h hexecuted⟩

section

variable {now : Time} {u : Update} (hcall : call.Checked s) (h : call.update now = some u)

include hcall h

theorem allowed_of_update :
    s.escalations.Holds u.esc ∧ Allowed u.esc.value { u.esc.value with status := u.status } ∧
      (u.status.phase.IsExecuted → s.Wrote u.esc.value.clawRef u.status.executedAction) ∧
      u.failed.Checked s := by
  cases call with
  | markAnalyzing | propose | markFailed =>
    cases h
    obtain ⟨hesc, hphase⟩ := hcall
    refine ⟨hesc, allowed_of_phase (by rw [hphase]; rfl) (by simp) (by simp), ?_, trivial⟩
    rintro (⟨⟨⟩⟩ | ⟨⟨⟩⟩)
  | approve =>
    cases h
    obtain ⟨hesc, hphase, hproposal⟩ := hcall
    refine ⟨hesc, ⟨by rw [hphase]; rfl, fun _ => ⟨hphase, hproposal, rfl⟩, ?_⟩, ?_, trivial⟩
    · rintro ⟨⟩
    · rintro (⟨⟨⟩⟩ | ⟨⟨⟩⟩)
  | reject =>
    cases h
    obtain ⟨hesc, hopen⟩ := hcall
    refine ⟨hesc, allowed_of_phase hopen (by simp) (by simp), ?_, trivial⟩
    rintro (⟨⟨⟩⟩ | ⟨⟨⟩⟩)
  | markExecuted =>
    cases h
    obtain ⟨hesc, hwrote, -⟩ := hcall
    refine ⟨hesc.holds, ⟨by rw [hesc.phase]; rfl, ?_, ?_⟩, fun _ => ?_, trivial⟩
    · rintro ⟨⟩
    · exact fun _ => ⟨hesc.phase, hesc.proposal, rfl⟩
    · rw [hesc.clawRef]
      exact hwrote
  | markNew =>
    cases h
    obtain ⟨hesc, hphase, hpending | ⟨hauto, hwrote⟩⟩ := hcall
    · refine ⟨hesc, allowed_of_phase (by rw [hphase]; rfl) ?_ ?_, fun hexecuted => ?_, trivial⟩
      · simp [hpending]
      · simp [hpending]
      · rw [hpending] at hexecuted
        rcases hexecuted with ⟨⟨⟩⟩ | ⟨⟨⟩⟩
    · refine ⟨hesc, allowed_of_phase (by rw [hphase]; rfl) ?_ ?_, fun _ => hwrote, trivial⟩
      · simp [hauto]
      · simp [hauto]
  | _ => cases h

theorem checked_of_update (hkeeps : Keeps s s') (hholds : s'.escalations.Holds esc')
    (hvalue : esc'.value = { u.esc.value with status := u.status }) : (u.next esc').Checked s' := by
  cases call with
  | markAnalyzing =>
    cases h
    exact ⟨hholds, by rw [hvalue]⟩
  | markExecuted =>
    cases h
    exact fun esc hesc => (hcall.2.2 esc hesc).mono hkeeps
  | propose | markFailed | approve | reject | markNew =>
    cases h
    trivial
  | _ => cases h

end

theorem approvedFor_of_mem_filter {reads : List (ℕ × ℕ)}
    (h : esc ∈ (s.list reads).filter (isApprovedFor claw)) : ApprovedFor s claw esc := by
  obtain ⟨hlist, hfilter⟩ := mem_filter.mp h
  obtain ⟨⟨object, version⟩, -, hcopy⟩ := mem_filterMap.mp hlist
  unfold isApprovedFor at hfilter
  simp only [Bool.and_eq_true, decide_eq_true_eq] at hfilter
  exact ⟨Store.holds_of_copy hcopy, hfilter.1.1, hfilter.1.2, hfilter.2⟩

/-- **A step of any call keeps the gate shut.** -/
theorem callStep_checked (hcall : call.Checked s) (h : callStep L ttl s call choice = some e) :
    StepChecked s e := by
  cases callStep_acts h with
  | replaced hcalls hupdate =>
    obtain ⟨hesc, hallowed, hwrote, -⟩ := allowed_of_update hcall hcalls
    obtain ⟨hkeeps, hholds, hvalue⟩ := keeps_updateStatus hesc hallowed hwrote hupdate
    exact ⟨hkeeps, checked_of_update hcall hcalls hkeeps hholds hvalue, rfl⟩
  | unreplaced hcalls => exact ⟨.refl s, (allowed_of_update hcall hcalls).2.2.2, rfl⟩
  | analyzed | pipelineError => exact ⟨.refl s, hcall, rfl⟩
  | listApproved => exact ⟨.refl s, fun esc hesc => approvedFor_of_mem_filter hesc, rfl⟩
  | @writeApproved claw mine esc _ _ w hw =>
    subst hw
    obtain ⟨hesc, htodo⟩ := forall_mem_cons.mp hcall
    have hkeeps : Keeps s (s.writeIntent claw mine
        ⟨claw, esc.value.status.proposedAction, true⟩).1 :=
      keeps_writeIntent fun _ => ⟨esc, hesc, rfl⟩
    refine ⟨hkeeps, ⟨hesc.mono hkeeps, wrote_writeIntent, ?_⟩, rfl⟩
    exact fun esc' hesc' => (htodo esc' hesc').mono hkeeps
  | delete => exact ⟨keeps_delete _, trivial, rfl⟩
  | escalate hnew =>
    subst hnew
    exact ⟨keeps_create rfl, ⟨Store.holds_created .., rfl, .inl rfl⟩, rfl⟩
  | autoExecute hw =>
    subst hw
    exact ⟨keeps_writeIntent nofun, wrote_writeIntent, rfl⟩
  | audit hnew =>
    subst hnew
    exact ⟨keeps_create rfl, ⟨Store.holds_created .., rfl, .inr ⟨rfl, hcall⟩⟩, rfl⟩
  | commit hconsume => exact ⟨keeps_commit (Slot.opsIntent_of_consume hconsume), trivial, rfl⟩
  | leave hleaves => exact ⟨.refl s, by cases hleaves <;> trivial, rfl⟩
  | listExpired | unexpired | jobs => exact ⟨.refl s, trivial, rfl⟩

theorem started_checked {event : Event} (h : started s event = some call) : call.Checked s := by
  cases event with
  | watch | approve | reject =>
    obtain ⟨esc, hcopy, hif⟩ := Option.bind_eq_some_iff.mp h
    split_ifs at hif with hphase
    cases hif
    exact ⟨Store.holds_of_copy hcopy, by simpa using hphase⟩
  | reconcile claw | consume claw =>
    cases h
    trivial
  | step => cases h

end

/-- The gate is shut, and every call has checked its copies. -/
structure Guarded (P : Sys) : Prop where
  gate : Gate P.shared
  recorded : Recorded P.shared
  checked : ∀ t, (P.thread t).Checked P.shared

theorem guarded_initial : Guarded initial := by
  refine ⟨⟨?_, ?_, ?_, ?_⟩, ?_, fun _ => trivial⟩
  · simp [Store.Begins, initial, Store.empty]
  · simp [Store.Chained, initial, Store.empty]
  · simp [initial]
  · simp [initial]
  · simp [Recorded, Store.Holds, Store.read, initial, Store.empty]

theorem guarded_step {L : Libs} {ttl : Int32} {P Q : Sys} {event : Event} (h : Guarded P)
    (hstep : step L ttl P event = some Q) : Guarded Q := by
  rcases step_cases hstep with ⟨call, hcall, rfl⟩ | ⟨t, choice, e, rfl, ht, he, rfl⟩
  · refine ⟨h.gate, h.recorded, ?_⟩
    exact Pool.forall_go h.checked (started_checked hcall)
  · have hchecked := callStep_checked (h.checked t) he
    refine ⟨?_, ?_, ?_⟩
    · rw [Pool.advance_shared]
      exact hchecked.keeps.gate h.gate
    · rw [Pool.advance_shared]
      exact hchecked.keeps.recorded h.recorded
    · refine Pool.forall_advance ht ?_ hchecked.next ?_
      · exact fun u _ => (h.checked u).mono hchecked.keeps
      · exact Lib.forall_of_eq_none hchecked.spawn

/-- **In every run the gate stays shut**: escalations begin without a phase; no version follows
one in a terminal phase, `Executed` follows only `Approved`, and `Approved` only
`AwaitingApproval` with a proposal; what is in the annotation of a Claw was written by the
controller, and every proposal it wrote is that of an escalation of this Claw that was stored as
`Approved`.  The calls interleave in any order, read any versions, and may fail anywhere. -/
theorem gate_along (L : Libs) (ttl : Int32) (events : List Event) :
    Along (step L ttl) (fun P => Gate P.shared) initial events := by
  refine Lib.along_of_step ?_ ?_ guarded_initial
  · intro P event Q hP hstep
    exact guarded_step hP hstep
  · intro P hP
    exact hP.gate

end K8s4Claw.Ops
