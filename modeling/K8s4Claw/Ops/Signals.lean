/-
# What a Reconcile does about signals

`Reconcile` of `internal/controller/clawops_controller.go` collects the signals that the pods of a
Claw show (`internal/controller/clawops_signals.go`), drops those of a type that has an open
escalation, and then, unless the Claw is rate limited, has the rule engine
(`internal/rules/engine.go`) pick the one signal it remediates itself; all others are escalated.
`plan` is the list of what is to be done, with what the controller remembers: the times of the
actions of the last hour and when each rule was executed last.
-/

import K8s4Claw.Ops.Producers

namespace K8s4Claw.Ops

open List Function
open Lib (Copy)

/-! ### Pods -/

inductive PodPhase
  | pending
  | running
  | succeeded
  | failed
  | unknown
  deriving DecidableEq

/-- `ContainerStatus`: the reasons of `LastTerminationState.Terminated` and `State.Waiting`, if
there are such. -/
structure ContainerStatus where
  name : String
  restartCount : Int32
  terminated : Option String := none
  waiting : Option String := none
  deriving DecidableEq

structure Pod where
  name : String
  phase : PodPhase := .running
  reason : String := ""
  message : String := ""
  containerStatuses : List ContainerStatus := []
  deriving DecidableEq

def containerSignal (cs : ContainerStatus) : Option Signal :=
  if cs.terminated = some "OOMKilled" then
    some { type := .oomKilled
           severity := .high
           count := cs.restartCount
           message := "Container " ++ cs.name ++ " OOMKilled (exit 137), restarts: " ++
             toString cs.restartCount }
  else if cs.waiting = some "CrashLoopBackOff" then
    some { type := .crashLoop
           severity := .high
           count := cs.restartCount
           message := "Container " ++ cs.name ++ " in CrashLoopBackOff, restarts: " ++
             toString cs.restartCount }
  else none

def extractPodSignals (pod : Pod) : List Signal :=
  if pod.phase = .failed ∧ pod.reason = "Evicted" then
    [{ type := .evicted
       severity := .high
       count := 1
       message := "Pod " ++ pod.name ++ " evicted: " ++ pod.message }]
  else pod.containerStatuses.filterMap containerSignal

/-- `collectSignals`, from the pods of a Claw. -/
def collectSignals (pods : List Pod) : List Signal := pods.flatMap extractPodSignals

/-- The type that an escalation keeps `deduplicateSignals` from letting through. -/
def activeType (claw : String) (esc : Copy Escalation) : Option TriggerType :=
  if esc.value.clawRef = claw ∧ esc.value.status.phase.isTerminal = false then
    some esc.value.trigger.type
  else none

/-- `deduplicateSignals`, with the escalations it lists. -/
def deduplicateSignals (claw : String) (listed : List (Copy Escalation)) (signals : List Signal) :
    List Signal :=
  let activeTypes := listed.filterMap (activeType claw)
  signals.filter fun sig => sig.type ∉ activeTypes

/-! ### Rules -/

/-- `SeverityRank`; `none` is a text that is none of the severities. -/
def severityRank : Option Severity → ℕ
  | some .critical => 4
  | some .high => 3
  | some .medium => 2
  | some .low => 1
  | none => 0

/-- `MatchCriteria`; `none` is a text that is none of the constants. -/
structure MatchCriteria where
  signalType : Option TriggerType
  minSeverity : Option Severity
  minCount : Int32
  deriving DecidableEq

/-- A rule of the engine. -/
structure EngineRule extends Rule where
  criteria : MatchCriteria
  cooldown : Time
  deriving DecidableEq

/-- What the controller and its engine remember: for each Claw the times of its recent actions, and
when each rule was executed last. -/
structure Memory where
  actionCounts : String → List Time := fun _ => []
  cooldowns : String → String → Option Time := fun _ _ => none

def ruleMatches (memory : Memory) (claw : String) (now : Time) (rule : EngineRule) (sig : Signal) :
    Bool :=
  if rule.criteria.signalType ≠ some sig.type then false
  else if severityRank (some sig.severity) < severityRank rule.criteria.minSeverity then false
  else if sig.count < rule.criteria.minCount then false
  else if 0 < rule.cooldown then
    match memory.cooldowns claw rule.id with
    | some lastExec => !decide (now - lastExec < rule.cooldown)
    | none => true
  else true

/-- The first rule that matches; `now j` is the time when rule `j` is looked at. -/
def firstMatch (memory : Memory) (claw : String) (now : ℕ → Time) (rules : List EngineRule)
    (sig : Signal) : Option EngineRule :=
  (rules.zipIdx.find? fun (rule, j) => ruleMatches memory claw (now j) rule sig).map Prod.fst

/-- The match with the higher rank, the earlier one if the ranks are equal. -/
def higher (best : Option (Signal × EngineRule)) (sig : Signal) (rule : EngineRule) :
    Option (Signal × EngineRule) :=
  match best with
  | none => some (sig, rule)
  | some (bestSig, bestRule) =>
      if severityRank (some bestSig.severity) < severityRank (some sig.severity) then
        some (sig, rule)
      else some (bestSig, bestRule)

/-- `MatchHighestPriority`; `now i j` is the time when rule `j` is looked at for signal `i`. -/
def matchHighestPriority (memory : Memory) (claw : String) (now : ℕ → ℕ → Time)
    (rules : List EngineRule) (signals : List Signal) : Option (Signal × EngineRule) :=
  signals.zipIdx.foldl (fun best (sig, i) =>
    match firstMatch memory claw (now i) rules sig with
    | some rule => higher best sig rule
    | none => best) none

def Memory.recordExecution (memory : Memory) (claw ruleID : String) (now : Time) : Memory :=
  { memory with
    cooldowns := update memory.cooldowns claw
      (update (memory.cooldowns claw) ruleID (some now)) }

/-! ### The plan -/

section

variable (memory : Memory) (claw : String) (now : Time)

def Memory.recordAction : Memory :=
  { memory with
    actionCounts := update memory.actionCounts claw
      (memory.actionCounts claw ++ [now]) }

/-- The actions of the hour before `now`. -/
def Memory.recent : List Time :=
  (memory.actionCounts claw).filter fun t => now - 3600 * 1000000000 < t

/-- What `isRateLimited` leaves of the times. -/
def Memory.forget : Memory :=
  { memory with
    actionCounts := update memory.actionCounts claw (memory.recent claw now) }

end

def isRateLimited (maxActions : ℤ) (memory : Memory) (claw : String) (now : Time) : Bool :=
  maxActions ≤ (memory.recent claw now).length

/-- What `Reconcile` sees of a Claw and its pods, and the times when it looks at its memory. -/
structure Sight where
  claw : String
  pods : List Pod
  rules : List EngineRule
  /-- What `Sign` returns, `""` if it fails. -/
  receipt : String
  limitedAt : Time
  matchedAt : ℕ → ℕ → Time

/-- Steps 3 to 7 of `Reconcile`, up to the jobs to be done and what is then in memory. -/
def plan (maxActions : ℤ) (memory : Memory) (listed : List (Copy Escalation)) (sight : Sight) :
    List Job × Memory :=
  let signals := deduplicateSignals sight.claw listed (collectSignals sight.pods)
  if signals = [] then ([], memory)
  else
    let forgotten := memory.forget sight.claw sight.limitedAt
    if isRateLimited maxActions memory sight.claw sight.limitedAt then
      (signals.map .escalate, forgotten)
    else
      match matchHighestPriority forgotten sight.claw sight.matchedAt sight.rules signals with
      | none => (signals.map .escalate, forgotten)
      | some (sig, rule) =>
          (.autoExecute sig rule.toRule sight.receipt ::
            (signals.filter fun s => s.type ≠ sig.type).map .escalate, forgotten)

/-- The type of the escalation that a job opens. -/
def Job.opens : Job → Option TriggerType
  | .escalate sig => some sig.type
  | .autoExecute _ _ _ => none

theorem filterMap_opens_escalate (signals : List Signal) :
    (signals.map Job.escalate).filterMap Job.opens = signals.map Signal.type := by
  induction signals with
  | nil => rfl
  | cons _ _ ih => simp [Job.opens, ih]

/-- **Nothing is escalated of a type that has an open escalation.** -/
theorem not_mem_activeTypes {maxActions : ℤ} {memory : Memory} {listed : List (Copy Escalation)}
    {sight : Sight} {type : TriggerType}
    (h : type ∈ (plan maxActions memory listed sight).1.filterMap Job.opens) :
    type ∉ listed.filterMap (activeType sight.claw) := by
  have hsignals : ∀ sig ∈ deduplicateSignals sight.claw listed (collectSignals sight.pods),
      sig.type ∉ listed.filterMap (activeType sight.claw) := by
    intro sig hsig
    simpa using (mem_filter.mp hsig).2
  unfold plan at h
  dsimp only at h
  split_ifs at h
  · simp at h
  · rw [filterMap_opens_escalate] at h
    obtain ⟨sig, hsig, rfl⟩ := mem_map.mp h
    exact hsignals sig hsig
  · split at h
    · rw [filterMap_opens_escalate] at h
      obtain ⟨sig, hsig, rfl⟩ := mem_map.mp h
      exact hsignals sig hsig
    · rw [filterMap_cons_none rfl, filterMap_opens_escalate] at h
      obtain ⟨sig, hsig, rfl⟩ := mem_map.mp h
      exact hsignals sig (mem_of_mem_filter hsig)

/-- `DefaultRules`. -/
def defaultEngineRules : List EngineRule :=
  [{ toRule := oomBumpMemory
     criteria := ⟨some .oomKilled, some .high, 2⟩
     cooldown := seconds 1800 },
    { toRule := crashloopRestartPod, criteria := ⟨some .crashLoop, some .high, 5⟩
      cooldown := seconds 600 },
    { toRule := highCpuBumpRequest, criteria := ⟨some .highCPU, some .medium, 1⟩
      cooldown := seconds 1800 }]

end K8s4Claw.Ops
