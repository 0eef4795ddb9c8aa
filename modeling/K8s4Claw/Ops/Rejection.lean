/-
# Rejected proposals

`runReject` of `cmd/kubectl-claw/main.go` accepts an escalation in any phase that is not terminal,
`Approved` included.  `processApprovedEscalations` of `internal/controller/clawops_controller.go`
writes the proposal of an approved escalation to the Claw and only then marks the escalation
`Executed`: two writes to two objects.  A rejection between them goes through, the mark then fails
with a conflict, and the escalation ends as `Rejected` with its proposal written
(`rejected_after_patch`).

If `runReject` is not used on an escalation that it reads as `Approved`, what follows `Approved` is
`Executed` and nothing else, so that no escalation was both stored as `Approved` and stored as
`Rejected`.
-/

import K8s4Claw.Ops.IntentSlot

namespace K8s4Claw.Ops

open List Option
open Lib (Along Copy Effect Meets Pool Store run)

/-- The system, and the escalations whose proposals `processApprovedEscalations` has written. -/
structure Traced where
  sys : Sys
  patched : List (Copy Escalation)

/-- The escalation whose proposal is written in a step. -/
def patchedBy (P : Sys) : Event → Option (Copy Escalation)
  | .step t (.call true _) =>
      match P.thread t with
      | .writeApproved _ _ (esc :: _) => some esc
      | _ => none
  | _ => none

def tracedStep (L : Libs) (ttl : Int32) (R : Traced) (event : Event) : Option Traced :=
  (step L ttl R.sys event).map fun P => ⟨P, R.patched ++ (patchedBy R.sys event).toList⟩

def Traced.initial : Traced := ⟨Ops.initial, []⟩

/-- The phase an escalation ends in, deleted or not. -/
def Shared.endPhase (s : Shared) (object : ℕ) : Option Phase :=
  (s.escalations.last object).map fun esc => esc.status.phase

/-- Every proposal in the annotation of a Claw was written for an escalation, and none of these
ends as `Rejected`. -/
structure RejectedUnwritten (R : Traced) : Prop where
  attributed : ∀ w ∈ R.sys.shared.written, w.companion = true → ∃ esc ∈ R.patched,
    esc.value.clawRef = w.claw ∧ esc.value.status.proposedAction = w.action
  unrejected : ∀ esc ∈ R.patched, R.sys.shared.endPhase esc.object ≠ some .rejected

/-- No `runReject` reads an escalation as `Approved`. -/
def Timely (R : Traced) : Event → Prop
  | .reject object version _ =>
      ∀ esc ∈ R.sys.shared.escalations.copy object version, esc.value.status.phase ≠ .approved
  | _ => True

instance (R : Traced) (event : Event) : Decidable (Timely R event) := by
  unfold Timely
  induction event using Event.casesOn <;> infer_instance

/-- What follows `Approved` is `Executed`. -/
def Executes (before after : Escalation) : Prop :=
  before.status.phase = .approved → after.status.phase = .executed

/-- A rejection that is going to be stored is not one of an approved escalation. -/
def Call.Timely : Call → Prop
  | .reject esc _ => esc.value.status.phase ≠ .approved
  | _ => True

section

variable {L : Libs} {ttl : Int32} {s s' : Shared} {call : Call} {choice : Choice}

theorem timely_of_begins (h : call.begins = false) : call.Timely := by
  cases call with
  | reject => cases h
  | _ => trivial

/-- **An escalation that was stored as `Approved` was never stored as `Rejected`**, neither before
nor after. -/
theorem phase_ne_rejected {esc esc' : Copy Escalation} (hallowed : s.escalations.Chained Allowed)
    (hexecutes : s.escalations.Chained Executes) (hesc : s.escalations.Holds esc)
    (happroved : esc.value.status.phase = .approved) (hesc' : s.escalations.Holds esc')
    (hobject : esc'.object = esc.object) : esc'.value.status.phase ≠ .rejected := by
  intro hrejected
  have hchained := Store.chained_and hallowed hexecutes
  rcases Nat.lt_trichotomy esc.version esc'.version with hlt | heq | hgt
  · rcases Store.follows_of_chained hchained hesc hesc' hobject hlt with hnext | ⟨a, b, ha, hb⟩
    · have hexecuted := hnext.2 happroved
      rw [hrejected] at hexecuted
      cases hexecuted
    · -- what follows `Approved` is terminal, so nothing follows that
      have hterminal := hb.1.unfinished
      rw [ha.2 happroved] at hterminal
      cases hterminal
  · have hread : s.escalations.read esc.object esc.version = some esc'.value := by
      rw [heq, ← hobject]
      exact hesc'
    have hvalue := some.inj (Eq.trans (Eq.symm hesc) hread)
    rw [hvalue, hrejected] at happroved
    cases happroved
  · have hopen : esc'.value.status.phase.isTerminal = false := by
      rcases Store.follows_of_chained hchained hesc' hesc hobject.symm hgt with
        hnext | ⟨a, b, ha, -⟩
      · exact hnext.1.unfinished
      · exact ha.1.unfinished
    rw [hrejected] at hopen
    cases hopen

/-- What a call replaces was not `Approved`, unless the call marks it `Executed`. -/
theorem executes_of_replaces {esc : Copy Escalation} {status : EscalationStatus}
    (hchecked : call.Checked s) (htimely : call.Timely)
    (hcall : call.replaces = some (esc, status.phase)) :
    Executes esc.value { esc.value with status := status } := by
  intro happroved
  cases call with
  | markExecuted =>
    obtain ⟨-, hphase⟩ := Prod.mk.inj (some.inj hcall)
    exact hphase.symm
  | markAnalyzing esc' | propose esc' _ _ | markFailed esc' _ =>
    obtain ⟨rfl, -⟩ := Prod.mk.inj (some.inj hcall)
    cases hchecked.2.symm.trans happroved
  | approve esc' approver | markNew _ _ esc' _ _ _ =>
    obtain ⟨rfl, -⟩ := Prod.mk.inj (some.inj hcall)
    cases hchecked.2.1.symm.trans happroved
  | reject =>
    obtain ⟨rfl, -⟩ := Prod.mk.inj (some.inj hcall)
    exact absurd happroved htimely
  | _ => cases hcall

theorem chained_move (hmove : Move L s call choice s') (hchecked : call.Checked s)
    (htimely : call.Timely) (h : s.escalations.Chained Executes) :
    s'.escalations.Chained Executes := by
  cases hmove with
  | stay hs' | writeApproved _ _ _ _ _ _ _ hs' | autoExecute _ _ _ _ _ _ _ _ _ hs'
  | commit _ _ _ _ _ _ _ _ hs' =>
    rw [hs']
    exact h
  | create new hs' =>
    rw [hs']
    exact Store.chained_create h new
  | delete object hs' =>
    rw [hs']
    exact Store.chained_delete h object
  | replace esc _ _ _ hcall hupdate hs' =>
    rw [hs']
    have hexecutes := executes_of_replaces hchecked htimely hcall
    have hesc : s.escalations.Holds esc := by
      cases call with
      | markAnalyzing | propose | markFailed | approve | reject | markNew =>
        obtain ⟨rfl, -⟩ := Prod.mk.inj (some.inj hcall)
        exact hchecked.1
      | markExecuted =>
        obtain ⟨rfl, -⟩ := Prod.mk.inj (some.inj hcall)
        exact hchecked.1.holds
      | _ => cases hcall
    exact Store.chained_update h hesc hexecutes hupdate

end

/-- The gate is shut, no escalation is rejected late, and what was written is accounted for. -/
structure Standing (R : Traced) : Prop where
  guarded : Guarded R.sys
  executes : R.sys.shared.escalations.Chained Executes
  timely : ∀ t, (R.sys.thread t).Timely
  approved : ∀ esc ∈ R.patched,
    R.sys.shared.escalations.Holds esc ∧ esc.value.status.phase = .approved
  attributed : ∀ w ∈ R.sys.shared.written, w.companion = true → ∃ esc ∈ R.patched,
    esc.value.clawRef = w.claw ∧ esc.value.status.proposedAction = w.action

theorem Standing.rejectedUnwritten {R : Traced} (h : Standing R) : RejectedUnwritten R := by
  refine ⟨h.attributed, fun esc hesc hend => ?_⟩
  obtain ⟨a, hlast, hphase⟩ := map_eq_some_iff.mp hend
  obtain ⟨version, hholds⟩ := Store.holds_of_last hlast
  obtain ⟨hesc', happroved⟩ := h.approved esc hesc
  exact phase_ne_rejected h.guarded.gate.chained h.executes hesc' happroved hholds rfl hphase

section

variable {L : Libs} {ttl : Int32} {R R' : Traced} {P Q : Sys} {event : Event}

theorem holds_step (h : Guarded P) (hstep : step L ttl P event = some Q) {esc : Copy Escalation}
    (hesc : P.shared.escalations.Holds esc) : Q.shared.escalations.Holds esc := by
  rcases step_cases hstep with ⟨-, -, rfl⟩ | ⟨t, choice, e, rfl, -, he, rfl⟩
  · exact hesc
  · rw [Pool.advance_shared]
    exact (callStep_checked (h.checked t) he).keeps.holds esc hesc

theorem approved_of_patchedBy (h : Guarded P) {esc : Copy Escalation}
    (hesc : patchedBy P event = some esc) :
    P.shared.escalations.Holds esc ∧ esc.value.status.phase = .approved := by
  unfold patchedBy at hesc
  split at hesc
  · next t _ =>
    split at hesc
    · next esc' _ hthread =>
      obtain rfl := some.inj hesc
      have hchecked := h.checked t
      rw [hthread] at hchecked
      have happroved := hchecked esc' (mem_cons_self ..)
      exact ⟨happroved.holds, happroved.phase⟩
    · cases hesc
  · cases hesc

theorem written_move {t : ℕ} {choice : Choice} {s' : Shared} (h : Guarded P)
    (hmove : Move L P.shared (P.thread t) choice s') {w : Written} (hw : w ∈ s'.written)
    (hcompanion : w.companion = true) :
    w ∈ P.shared.written ∨ ∃ esc, patchedBy P (.step t choice) = some esc ∧
      esc.value.clawRef = w.claw ∧ esc.value.status.proposedAction = w.action := by
  cases hmove with
  | stay hs' | create _ hs' | delete _ hs' | replace _ _ _ _ _ _ hs' | commit _ _ _ _ _ _ _ _ hs' =>
    rw [hs'] at hw
    exact .inl hw
  | writeApproved _ _ esc _ _ hcall hchoice hs' =>
    rw [hs'] at hw
    refine (mem_append.mp hw).imp_right fun hlast => ?_
    obtain rfl := mem_singleton.mp hlast
    have hchecked := h.checked t
    rw [hcall] at hchecked
    refine ⟨esc, ?_, (hchecked esc (mem_cons_self ..)).clawRef, rfl⟩
    simp [patchedBy, hchoice, hcall]
  | autoExecute _ _ _ _ _ _ _ _ _ hs' =>
    rw [hs'] at hw
    refine (mem_append.mp hw).imp_right fun hlast => ?_
    obtain rfl := mem_singleton.mp hlast
    cases hcompanion

theorem timely_of_started {call : Call} (htimely : Timely R event)
    (h : started R.sys.shared event = some call) : call.Timely := by
  cases event with
  | reject =>
    obtain ⟨esc, hcopy, hif⟩ := bind_eq_some_iff.mp h
    split_ifs at hif
    cases hif
    exact htimely esc hcopy
  | watch object version | approve object version approver =>
    obtain ⟨esc, -, hif⟩ := bind_eq_some_iff.mp h
    split_ifs at hif
    cases hif
    trivial
  | reconcile claw | consume claw =>
    cases h
    trivial
  | step => cases h

theorem standing_step (h : Standing R) (htimely : Timely R event)
    (htraced : tracedStep L ttl R event = some R') : Standing R' := by
  obtain ⟨Q, hstep, rfl⟩ := map_eq_some_iff.mp htraced
  have hguarded := guarded_step h.guarded hstep
  have happroved : ∀ esc ∈ R.patched ++ (patchedBy R.sys event).toList,
      Q.shared.escalations.Holds esc ∧ esc.value.status.phase = .approved := by
    intro esc hesc
    have hread : R.sys.shared.escalations.Holds esc ∧ esc.value.status.phase = .approved := by
      rcases mem_append.mp hesc with hold | hnew
      · exact h.approved esc hold
      · exact approved_of_patchedBy h.guarded (mem_toList.mp hnew)
    exact ⟨holds_step h.guarded hstep hread.1, hread.2⟩
  rcases step_cases hstep with ⟨call, hcall, rfl⟩ | ⟨t, choice, e, rfl, ht, he, rfl⟩
  · refine ⟨hguarded, h.executes, ?_, happroved, ?_⟩
    · exact Pool.forall_go (I := fun _ call => Call.Timely call) h.timely
        (timely_of_started htimely hcall)
    · intro w hw hcompanion
      obtain ⟨esc, hesc, hmatch⟩ := h.attributed w hw hcompanion
      exact ⟨esc, mem_append_left _ hesc, hmatch⟩
  · obtain ⟨hmove, hnext, hspawn⟩ := callStep_moves he
    refine ⟨hguarded, ?_, ?_, happroved, ?_⟩
    · rw [Pool.advance_shared]
      exact chained_move hmove (h.guarded.checked t) (h.timely t) h.executes
    · refine Pool.forall_advance (I := fun _ call => Call.Timely call) ht (fun u _ => h.timely u)
        (timely_of_begins hnext) (Lib.forall_of_eq_none hspawn)
    · intro w hw hcompanion
      rw [Pool.advance_shared] at hw
      rcases written_move h.guarded hmove hw hcompanion with hold | ⟨esc, hesc, hmatch⟩
      · obtain ⟨esc, hesc, hmatch⟩ := h.attributed w hold hcompanion
        exact ⟨esc, mem_append_left _ hesc, hmatch⟩
      · exact ⟨esc, mem_append_right _ (mem_toList.mpr hesc), hmatch⟩

end

/-- **A rejected proposal is never written**, in a run in which no `runReject` reads an escalation
as `Approved`: in every state, each proposal in an annotation was written for an escalation, and
none of these ends as `Rejected`.  The calls interleave in any order, read any versions, and any
API call may fail. -/
theorem rejectedUnwritten_along (L : Libs) (ttl : Int32) (events : List Event)
    (htimely : Meets (tracedStep L ttl) Timely .initial events) :
    Along (tracedStep L ttl) RejectedUnwritten .initial events := by
  have hinit : Standing .initial := by
    refine ⟨guarded_initial, ?_, fun _ => trivial, ?_, ?_⟩
    · simp [Store.Chained, Traced.initial, initial, Store.empty]
    · simp [Traced.initial]
    · simp [Traced.initial, initial]
  refine Lib.along_of_meets ?_ (fun R h => h.rejectedUnwritten) hinit htimely
  intro R event R' hR htimely hstep
  exact standing_step hR htimely hstep

/-- One escalation is approved, and one rejected; the controller then settles what is approved. -/
def oneRejected : List Event :=
  escalated ++ reviewed 1 0 (seconds 2) memoryText ++
    [.reject 1 1 "not now", .step 3 (.call true (seconds 3))] ++ settled 4 [(0, 4)] (seconds 5)

theorem rejectedUnwritten_along_oneRejected :
    ((run (tracedStep sampleLibs 3600) .initial oneRejected).map fun R =>
        (R.sys.shared.endPhase 0, R.sys.shared.endPhase 1, R.patched.map (·.object))) =
      some (some .executed, some .rejected, [0]) ∧
    Along (tracedStep sampleLibs 3600) RejectedUnwritten .initial oneRejected :=
  ⟨by decide +kernel, rejectedUnwritten_along sampleLibs 3600 oneRejected (by decide +kernel)⟩

/-- An approved escalation is rejected after the `Patch` of the controller and before its
`Status().Update`. -/
def rejectedBetween : List Event :=
  escalated ++ reviewed 1 0 (seconds 2) memoryText ++
    [.reconcile "demo", .step 3 (.listed [(0, 4)]), .reject 0 4 "too much",
      .step 3 (.call true (seconds 3)), .step 4 (.call true (seconds 3)),
      .step 3 (.call true (seconds 3))]

/-- **A rejection between the two writes of the controller.**  `runReject` reads the escalation as
`Approved` and goes through; the proposal is in the annotation of the Claw, the mark as `Executed`
fails, and the escalation ends as `Rejected`. -/
theorem rejected_after_patch :
    ∃ R ∈ run (tracedStep sampleLibs 3600) .initial rejectedBetween,
      ∃ esc ∈ R.patched, R.sys.shared.endPhase esc.object = some .rejected ∧
        esc.value.status.proposedAction = memoryText ∧
        (R.sys.shared.slots esc.value.clawRef).opsIntent = some memoryText := by
  decide +kernel

end K8s4Claw.Ops
