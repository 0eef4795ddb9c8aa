/-
# The programs that act on escalations

Four programs work on the escalations of a Claw: `ClawOpsController` of
`internal/controller/clawops_controller.go` creates them, writes approved intents to the Claw and
deletes old ones; the `Watcher` of `cmd/claw4k8s/watcher.go` has them analyzed;
`cmd/kubectl-claw/main.go` approves and rejects them; and `ClawReconciler` consumes the intents.

The model is a pool of calls over the API server: the escalations with all their versions
(`K8s4Claw.Lib.Versioned`) and the intent annotations of the Claws.  A call is one
`processEscalation`, one `kubectl-claw approve` or `reject`, one `Reconcile` of `ClawOpsController`,
or one `consumeAndExecuteOpsIntent`; an atomic step is one API call or one LLM analysis.  An
escalation may be read at any version it ever had, and every API call may fail.

Which signals there are and which rules match is decided by the environment (`Choice.jobs`).  Ghost
state, not in the source: the intents `written` to annotations and those `executed`.
-/

import K8s4Claw.Lib.Pool
import K8s4Claw.Lib.Versioned
import K8s4Claw.Ops.Intent

namespace K8s4Claw.Ops

open Lib (Copy Effect Pool Store)

/-- A time, in nanoseconds. -/
abbrev Time := ℤ

def unixMilli (t : Time) : Int64 := Int64.ofInt (t / 1000000)

/-- `EscalationPhase`; `none` is the empty text of an escalation without status. -/
inductive Phase
  | none
  | pending
  | autoExecuted
  | analyzing
  | proposed
  | awaitingApproval
  | approved
  | executed
  | rejected
  | failed
  deriving DecidableEq

/-- `IsTerminalPhase`. -/
def Phase.isTerminal : Phase → Bool
  | .autoExecuted | .executed | .rejected | .failed => true
  | .none | .pending | .analyzing | .proposed | .awaitingApproval | .approved => false

inductive TriggerType
  | oomKilled
  | crashLoop
  | highCPU
  | highMemory
  | podPending
  | probeFailure
  | channelDisconnect
  | evicted
  | unknown
  deriving DecidableEq

inductive Severity
  | critical
  | high
  | medium
  | low
  deriving DecidableEq

/-- What an escalation records of a `Signal`. -/
structure Signal where
  type : TriggerType
  severity : Severity
  count : Int32
  message : String
  deriving DecidableEq

/-- `ActionType`; `other` is a text that is none of its constants. -/
inductive ActionType
  | patchResource
  | restartPod
  | scaleReplicas
  | other (text : String)
  deriving DecidableEq

/-- What `autoExecute` uses of a rule. -/
structure Rule where
  id : String
  action : ActionType
  params : Option (List (String × String))
  deriving DecidableEq

/-- `ClawOpsEscalationStatus`. -/
structure EscalationStatus where
  phase : Phase := .none
  matchedRule : String := ""
  analysis : String := ""
  proposedAction : String := ""
  executedAction : String := ""
  executedAt : Option Time := none
  signetReceipt : String := ""
  approvedBy : String := ""
  approvedAt : Option Time := none
  rejectionReason : String := ""
  deriving DecidableEq

/-- `ClawOpsEscalation`. -/
structure Escalation where
  clawRef : String
  trigger : Signal
  firstSeen : Time
  ttlSecondsAfterFinished : Option Int32
  creationTimestamp : Time
  status : EscalationStatus := {}
  deriving DecidableEq

/-- What `Reconcile` does about a signal. -/
inductive Job
  | escalate (sig : Signal)
  | autoExecute (sig : Signal) (rule : Rule) (receipt : String)
  deriving DecidableEq

def ruleActionToIntentAction (rule : Rule) : String :=
  match rule.action with
  | .patchResource =>
      match (rule.params.getD []).lookup "field" with
      | some "memory-limit" => "bump-memory"
      | some "cpu-request" => "bump-cpu"
      | _ => "bump-memory"
  | .restartPod => "restart-pod"
  | .scaleReplicas => "scale-replicas"
  | .other text => text

def buildIntentJSON (L : Libs) (rule : Rule) (now : Time) : String :=
  L.marshal
    { action := ruleActionToIntentAction rule
      params := rule.params
      generation := unixMilli now
      source := "rule-engine" }

/-- The escalation that `escalate` and `autoExecute` create. -/
def newEscalation (ttl : Int32) (claw : String) (sig : Signal) (now : Time) : Escalation where
  clawRef := claw
  trigger := sig
  firstSeen := now
  ttlSecondsAfterFinished := some ttl
  creationTimestamp := now

/-- An intent written to the annotation of a Claw; `companion` if it was the proposal of an
escalation. -/
structure Written where
  claw : String
  action : String
  companion : Bool
  deriving DecidableEq

/-- The API server and the ghost state. -/
structure Shared where
  escalations : Store Escalation := .empty
  slots : String → Slot := fun _ => {}
  written : List Written := []
  executed : List (String × OpsIntent) := []

/-- A call, at the point before its next step.  `mine` is the copy of the Claw's annotations that a
controller has, `todo` what its loop has still to do. -/
inductive Call
  | done
  /-- `processEscalation`. -/
  | markAnalyzing (esc : Copy Escalation)
  | analyze (esc : Copy Escalation)
  | propose (esc : Copy Escalation) (analysis action : String)
  | markFailed (esc : Copy Escalation) (reason : String)
  /-- `runApprove` and `runReject`. -/
  | approve (esc : Copy Escalation) (approver : String)
  | reject (esc : Copy Escalation) (reason : String)
  /-- `processApprovedEscalations`. -/
  | listApproved (claw : String) (mine : Slot)
  | writeApproved (claw : String) (mine : Slot) (todo : List (Copy Escalation))
  | markExecuted (claw : String) (mine : Slot) (esc : Copy Escalation)
      (todo : List (Copy Escalation))
  /-- `gcExpiredEscalations`. -/
  | listExpired (claw : String) (mine : Slot)
  | deleteExpired (claw : String) (mine : Slot) (todo : List (Copy Escalation))
  /-- `collectSignals`, and `escalate` and `autoExecute` for the signals. -/
  | collectSignals (claw : String) (mine : Slot)
  | remediate (claw : String) (mine : Slot) (todo : List Job)
  | audit (claw : String) (mine : Slot) (sig : Signal) (rule : Rule) (intentJSON receipt : String)
      (todo : List Job)
  | markNew (claw : String) (mine : Slot) (esc : Copy Escalation) (status : EscalationStatus)
      (onError todo : List Job)
  /-- `consumeAndExecuteOpsIntent`. -/
  | consume (claw : String) (mine : Slot)
  deriving DecidableEq

/-- What the environment decides in a step. -/
inductive Choice
  /-- An API call at this time goes through, or fails. -/
  | call (ok : Bool) (now : Time)
  /-- A `List` returns the objects at these versions. -/
  | listed (reads : List (ℕ × ℕ))
  /-- The pipeline returns an analysis and an action, or an error. -/
  | analyzed (analysis action : String)
  | pipelineError (reason : String)
  /-- The signals there are, and what is to be done about them. -/
  | jobs (jobs : List Job)
  /-- A step without API call. -/
  | go
  /-- The intent is applied or not, and then the `Patch` goes through or fails. -/
  | apply (applied ok : Bool)
  deriving DecidableEq

namespace Shared

/-- `Status().Update` of an escalation. -/
def updateStatus (s : Shared) (ok : Bool) (esc : Copy Escalation) (status : EscalationStatus) :
    Option (Shared × Copy Escalation) :=
  if ok then
    (s.escalations.update esc { esc.value with status := status }).map fun (store, esc) =>
      ({ s with escalations := store }, esc)
  else none

/-- The escalations of a list, as far as they exist. -/
def list (s : Shared) (reads : List (ℕ × ℕ)) : List (Copy Escalation) :=
  reads.filterMap fun (object, version) => s.escalations.copy object version

/-- The `Patch` that writes an intent: the annotations stored, and those of the controller's copy,
which the response replaces. -/
def writeIntent (s : Shared) (claw : String) (mine : Slot) (w : Written) : Shared × Slot :=
  let stored := Slot.patch mine (mine.setIntent w.action) (s.slots claw)
  ({ s with slots := Function.update s.slots claw stored, written := s.written ++ [w] }, stored)

/-- The `Patch` of a consumer. -/
def commit (s : Shared) (claw : String) (mine changed : Slot) (executed : Option OpsIntent) :
    Shared :=
  { s with
    slots := Function.update s.slots claw (Slot.patch mine changed (s.slots claw))
    executed := s.executed ++ (executed.map fun intent => (claw, intent)).toList }

end Shared

def goOn (s : Shared) (next : Call) : Option (Effect Shared Call) :=
  some { shared := s, next := next, spawn := none }

/-- A `Status().Update`, and where the call goes on if it goes through and if not. -/
def andThen (s : Shared) (result : Option (Shared × Copy Escalation))
    (next : Copy Escalation → Call) (failed : Call) : Option (Effect Shared Call) :=
  match result with
  | some (s', esc) => goOn s' (next esc)
  | none => goOn s failed

/-- The escalations that `processApprovedEscalations` acts on. -/
def isApprovedFor (claw : String) (esc : Copy Escalation) : Bool :=
  esc.value.clawRef = claw && esc.value.status.phase = .approved &&
    esc.value.status.proposedAction ≠ ""

/-- The escalations that `gcExpiredEscalations` looks at. -/
def isTerminalFor (claw : String) (esc : Copy Escalation) : Bool :=
  esc.value.clawRef = claw && esc.value.status.phase.isTerminal

/-- An escalation is older than its TTL. -/
def expired (ttl : Int32) (esc : Escalation) (now : Time) : Bool :=
  now - esc.creationTimestamp > (esc.ttlSecondsAfterFinished.getD ttl).toInt * 1000000000

section

variable (L : Libs) (ttl : Int32)

variable (s : Shared)

/-- A step of `processEscalation`, `runApprove` or `runReject`. -/
def reviewStep : Call → Choice → Option (Effect Shared Call)
  | .markAnalyzing esc, .call ok _ =>
      andThen s (s.updateStatus ok esc { esc.value.status with phase := .analyzing }) .analyze .done
  | .analyze esc, .analyzed analysis action => goOn s (.propose esc analysis action)
  | .analyze esc, .pipelineError reason => goOn s (.markFailed esc ("pipeline error: " ++ reason))
  | .propose esc analysis action, .call ok _ =>
      andThen s (s.updateStatus ok esc
        { esc.value.status with
          analysis := analysis, proposedAction := action, phase := .awaitingApproval })
        (fun _ => .done) .done
  | .markFailed esc reason, .call ok _ =>
      andThen s (s.updateStatus ok esc
        { esc.value.status with phase := .failed, analysis := reason }) (fun _ => .done) .done
  | .approve esc approver, .call ok now =>
      andThen s (s.updateStatus ok esc
        { esc.value.status with
          phase := .approved, approvedBy := approver, approvedAt := some now })
        (fun _ => .done) .done
  | .reject esc reason, .call ok _ =>
      andThen s (s.updateStatus ok esc
        { esc.value.status with phase := .rejected, rejectionReason := reason })
        (fun _ => .done) .done
  | _, _ => none

/-- A step of `processApprovedEscalations` or `gcExpiredEscalations`. -/
def settleStep : Call → Choice → Option (Effect Shared Call)
  | .listApproved claw mine, .listed reads =>
      goOn s (.writeApproved claw mine ((s.list reads).filter (isApprovedFor claw)))
  | .listApproved claw mine, .call false _ => goOn s (.listExpired claw mine)
  | .writeApproved claw mine [], .go => goOn s (.listExpired claw mine)
  | .writeApproved claw mine (esc :: todo), .call ok _ =>
      let action := esc.value.status.proposedAction
      if ok then
        let (s', mine) := s.writeIntent claw mine ⟨claw, action, true⟩
        goOn s' (.markExecuted claw mine esc todo)
      else goOn s (.listExpired claw (mine.setIntent action))
  | .markExecuted claw mine esc todo, .call ok now =>
      andThen s (s.updateStatus ok esc
        { esc.value.status with
          phase := .executed
          executedAction := esc.value.status.proposedAction
          executedAt := some now })
        (fun _ => .writeApproved claw mine todo) (.listExpired claw mine)
  | .listExpired claw mine, .listed reads =>
      goOn s (.deleteExpired claw mine ((s.list reads).filter (isTerminalFor claw)))
  | .listExpired claw mine, .call false _ => goOn s (.collectSignals claw mine)
  | .deleteExpired claw mine [], .go => goOn s (.collectSignals claw mine)
  | .deleteExpired claw mine (esc :: todo), .call ok now =>
      if expired ttl esc.value now then
        if ok then
          goOn { s with escalations := s.escalations.delete esc.object }
            (.deleteExpired claw mine todo)
        else goOn s (.collectSignals claw mine)
      else goOn s (.deleteExpired claw mine todo)
  | _, _ => none

/-- A step of `Reconcile` from `collectSignals` on. -/
def remediateStep : Call → Choice → Option (Effect Shared Call)
  | .collectSignals claw mine, .jobs jobs => goOn s (.remediate claw mine jobs)
  | .collectSignals _ _, .call false _ => goOn s .done
  | .remediate _ _ [], .go => goOn s .done
  | .remediate claw mine (.escalate sig :: todo), .call ok now =>
      let esc := newEscalation ttl claw sig now
      if ok then
        goOn { s with escalations := s.escalations.create esc }
          (.markNew claw mine (s.escalations.created esc) { phase := .pending } [] todo)
      else goOn s (.remediate claw mine todo)
  | .remediate claw mine (.autoExecute sig rule receipt :: todo), .call ok now =>
      let intentJSON := buildIntentJSON L rule now
      if ok then
        let (s', mine) := s.writeIntent claw mine ⟨claw, intentJSON, false⟩
        goOn s' (.audit claw mine sig rule intentJSON receipt todo)
      else goOn s (.remediate claw (mine.setIntent intentJSON) (.escalate sig :: todo))
  | .audit claw mine sig rule intentJSON receipt todo, .call ok now =>
      let esc := newEscalation ttl claw sig now
      if ok then
        goOn { s with escalations := s.escalations.create esc }
          (.markNew claw mine (s.escalations.created esc)
            { phase := .autoExecuted, matchedRule := rule.id, executedAction := intentJSON,
              executedAt := some now, signetReceipt := receipt } [.escalate sig] todo)
      else goOn s (.remediate claw mine (.escalate sig :: todo))
  | .markNew claw mine esc status onError todo, .call ok _ =>
      andThen s (s.updateStatus ok esc status) (fun _ => .remediate claw mine todo)
        (.remediate claw mine (onError ++ todo))
  | _, _ => none

/-- The step of `consumeAndExecuteOpsIntent`. -/
def consumeStep : Call → Choice → Option (Effect Shared Call)
  | .consume claw mine, .apply applied ok =>
      match mine.consumeAndExecuteOpsIntent L applied with
      | none => goOn s .done
      | some (changed, executed) =>
          if ok then goOn (s.commit claw mine changed executed) .done else goOn s .done
  | _, _ => none

def callStep (call : Call) (choice : Choice) : Option (Effect Shared Call) :=
  match call with
  | .done => none
  | .markAnalyzing _ | .analyze _ | .propose _ _ _ | .markFailed _ _ | .approve _ _
  | .reject _ _ => reviewStep s call choice
  | .listApproved _ _ | .writeApproved _ _ _ | .markExecuted _ _ _ _ | .listExpired _ _
  | .deleteExpired _ _ _ => settleStep ttl s call choice
  | .collectSignals _ _ | .remediate _ _ _ | .audit _ _ _ _ _ _ _ | .markNew _ _ _ _ _ _ =>
      remediateStep L ttl s call choice
  | .consume _ _ => consumeStep L s call choice

end

/-- A new call, with the versions it reads, or a step of a call. -/
inductive Event
  | watch (object version : ℕ)
  | approve (object version : ℕ) (approver : String)
  | reject (object version : ℕ) (reason : String)
  | reconcile (claw : String)
  | consume (claw : String)
  | step (t : ℕ) (choice : Choice)
  deriving DecidableEq

/-- The calls that were started, over the API server. -/
abbrev Sys := Pool Shared Call

/-- The call an event starts, after its first read and the checks on it. -/
def started (s : Shared) : Event → Option Call
  | .watch object version =>
      (s.escalations.copy object version).bind fun esc =>
        if esc.value.status.phase = .pending then some (.markAnalyzing esc) else none
  | .approve object version approver =>
      (s.escalations.copy object version).bind fun esc =>
        if esc.value.status.phase = .awaitingApproval ∧ esc.value.status.proposedAction ≠ "" then
          some (.approve esc approver)
        else none
  | .reject object version reason =>
      (s.escalations.copy object version).bind fun esc =>
        if esc.value.status.phase.isTerminal then none else some (.reject esc reason)
  | .reconcile claw => some (.listApproved claw (s.slots claw))
  | .consume claw => some (.consume claw (s.slots claw))
  | .step _ _ => none

def step (L : Libs) (ttl : Int32) (P : Sys) : Event → Option Sys
  | .step t choice =>
      if t < P.size then (callStep L ttl P.shared (P.thread t) choice).map (P.advance t) else none
  | event => (started P.shared event).map P.go

theorem step_cases {L : Libs} {ttl : Int32} {P Q : Sys} {event : Event}
    (h : step L ttl P event = some Q) :
    (∃ call, started P.shared event = some call ∧ Q = P.go call) ∨
      ∃ t choice e, event = .step t choice ∧ t < P.size ∧
        callStep L ttl P.shared (P.thread t) choice = some e ∧ Q = P.advance t e := by
  unfold step at h
  split at h
  · next t choice =>
    split_ifs at h with ht
    obtain ⟨e, he, rfl⟩ := Option.map_eq_some_iff.mp h
    exact .inr ⟨t, choice, e, rfl, ht, he, rfl⟩
  · obtain ⟨call, hcall, rfl⟩ := Option.map_eq_some_iff.mp h
    exact .inl ⟨call, hcall, rfl⟩

/-- No escalation, no intent and no call. -/
def initial : Sys := ⟨{}, fun _ => .done, 0⟩

end K8s4Claw.Ops
