/-
# Reconciling the auto-update of a Claw

`AutoUpdateReconciler.Reconcile`, `reconcileHealthCheck` and `rollback` of
`internal/controller/autoupdate_controller.go`, and the image that `buildStatefulSet` of
`internal/controller/claw_controller.go` gives the runtime container.

A call reads the Claw, decides what to do (`reconcile`, an `Action`) and writes it (`perform`).
A transition makes three API calls, `Update` for the annotations, `Get`, and `Status().Update`, and
each of them may fail and end the call there.  `reconcile_call` says once what a call can do
and under which conditions; the results about runs are derived from it.

Cron schedules, RFC 3339 times, durations and versions are read by libraries (`Libs`).
-/

import K8s4Claw.AutoUpdate.Registry
import K8s4Claw.AutoUpdate.Status
import K8s4Claw.Lib.Run

namespace K8s4Claw.AutoUpdate

/-- What the reconciler uses of semver, robfig/cron and the time package. -/
structure Libs extends Semver where
  /-- `Next` of a schedule that parses. -/
  cronNext : String → Option (Time → Time)
  formatTime : Time → String
  parseTime : String → Option Time
  parseDuration : String → Option ℤ

/-- `AutoUpdateSpec`. -/
structure AutoUpdateSpec where
  enabled : Bool
  versionConstraint : String := ""
  schedule : String := ""
  healthTimeout : String := ""
  maxRollbacks : Int64 := 0
  deriving DecidableEq

/-- The annotations `target-image`, `update-phase` and `update-started` of a Claw. -/
structure Annotations where
  targetImage : Option String := none
  updatePhase : Option String := none
  updateStarted : Option String := none
  deriving DecidableEq

/-- What the auto-update reads and writes of a Claw. -/
structure Claw where
  runtime : String
  autoUpdate : Option AutoUpdateSpec
  annotations : Annotations := {}
  status : Option Stored := none
  deriving DecidableEq

namespace Claw

/-- The status, empty if there is none. -/
def autoUpdateStatus (claw : Claw) : Stored := claw.status.getD {}

/-- The version that is stored. -/
def version (claw : Claw) : String := claw.autoUpdateStatus.currentVersion

/-- An update waits for its health check. -/
def InProgress (claw : Claw) : Prop := claw.annotations.updatePhase = some "HealthCheck"
  deriving Decidable

/-- `claw.Annotations[annotationTargetImage]`. -/
def targetImage (claw : Claw) : String := claw.annotations.targetImage.getD ""

/-- The image in the pod template of the adapter registered for a runtime. -/
def adapterImage (runtime : String) : Option String :=
  match runtime with
  | "openclaw" => some "ghcr.io/prismer-ai/k8s4claw-openclaw:latest"
  | "hermesclaw" => some "ghcr.io/nousresearch/hermes-agent:latest"
  | "hermesrs" => some "ghcr.io/prismer-ai/hermes-agent-rs:latest"
  | "k8sops" => some "ghcr.io/prismer-ai/claw4k8s:latest"
  | _ => none

/-- The image of the runtime container that `buildStatefulSet` makes, if the runtime has an
adapter. -/
def runtimeImage (claw : Claw) : Option String :=
  (adapterImage claw.runtime).map fun image =>
    if claw.targetImage ≠ "" then claw.targetImage else image

theorem runtimeImage_congr {claw claw' : Claw} (hruntime : claw'.runtime = claw.runtime)
    (htarget : claw'.annotations.targetImage = claw.annotations.targetImage) :
    claw'.runtimeImage = claw.runtimeImage := by
  unfold runtimeImage targetImage
  rw [hruntime, htarget]

theorem eq_targetImage_of_runtimeImage {claw : Claw} {image : String}
    (htarget : claw.targetImage ≠ "") (himage : claw.runtimeImage = some image) :
    image = claw.targetImage := by
  obtain ⟨adapter, -, heq⟩ := Option.map_eq_some_iff.mp himage
  rw [if_pos htarget] at heq
  exact heq.symm

end Claw

/-- What the health check reads of a StatefulSet. -/
structure ReplicaCounts where
  replicas : Option ℤ
  updatedReplicas : ℤ
  readyReplicas : ℤ
  deriving DecidableEq

/-- How the `Get` of the StatefulSet ends. -/
inductive StatefulSetRead
  | failed
  | notFound
  | found (counts : ReplicaCounts)
  deriving DecidableEq

/-- What a call finds outside the Claw: the clock of the reconciler, `metav1.Now()`, the tags that
the registry lists, the StatefulSet, and which of its API calls go through. -/
structure Env where
  clock : Time
  now : Time
  tags : Option (List String)
  statefulSet : StatefulSetRead
  update : Bool := true
  get : Bool := true
  statusUpdate : Bool := true
  deriving DecidableEq

/-- What a call writes; a transition writes the annotations and then the status. -/
inductive Action
  | nothing
  | upToDate (status : Stored)
  | blocked (status : Stored)
  | transition (tr : Transition) (annotations : Annotations)
  deriving DecidableEq

/-! ### The reconciler -/

def defaultSchedule : String := "0 3 * * *"

def defaultHealthTimeout : ℤ := 10 * 60 * 1000000000

def defaultMaxRollbacks : Int64 := 3

/-- The number of rollbacks that opens the circuit breaker. -/
def maxRollbacks (spec : AutoUpdateSpec) : Int64 :=
  if spec.maxRollbacks > 0 then spec.maxRollbacks else defaultMaxRollbacks

def defaultConstraint : String := ">=0.0.0"

/-- The constraint that versions are checked against. -/
def versionConstraint (spec : AutoUpdateSpec) : String :=
  if spec.versionConstraint = "" then defaultConstraint else spec.versionConstraint

section

variable (L : Libs)

/-- `isCheckDue`: an invalid schedule is always due. -/
def isCheckDue (schedule : String) (lastCheck now : Time) : Bool :=
  match L.cronNext schedule with
  | none => true
  | some next => now > next lastCheck

/-- How long a health check may take. -/
def healthTimeout (spec : AutoUpdateSpec) : ℤ :=
  if spec.healthTimeout ≠ "" then
    (L.parseDuration spec.healthTimeout).getD defaultHealthTimeout
  else defaultHealthTimeout

/-- `rollback`: all three annotations go. -/
def rollback (spec : AutoUpdateSpec) (env : Env) : Action :=
  .transition (.rollback (maxRollbacks spec) env.now) {}

/-- Every replica is updated and ready. -/
def ReplicaCounts.Ready (counts : ReplicaCounts) : Prop :=
  counts.updatedReplicas ≥ counts.replicas.getD 1 ∧ counts.readyReplicas ≥ counts.replicas.getD 1
  deriving Decidable

def reconcileHealthCheck (claw : Claw) (spec : AutoUpdateSpec) (env : Env) : Action :=
  match L.parseTime (claw.annotations.updateStarted.getD "") with
  | none => rollback spec env
  | some startedAt =>
      let late := env.clock - startedAt > healthTimeout L spec
      match env.statefulSet with
      | .failed => .nothing
      | .notFound => if late then rollback spec env else .nothing
      | .found counts =>
          if counts.Ready then
            .transition (.passed (extractVersionFromImage claw.targetImage) env.now)
              { targetImage := claw.annotations.targetImage }
          else if late then rollback spec env
          else .nothing

/-- The annotations of an update that is initiated. -/
def initiatedAnnotations (claw : Claw) (env : Env) (newVersion : String) : Annotations where
  targetImage := some (imageForRuntime claw.runtime ++ ":" ++ newVersion)
  updatePhase := some "HealthCheck"
  updateStarted := some (L.formatTime env.now)

/-- The check for a new version among the tags of the registry. -/
def checkVersion (claw : Claw) (spec : AutoUpdateSpec) (env : Env) (tags : List String) :
    Action :=
  let status := claw.autoUpdateStatus
  match resolveBestVersion L.toSemver tags (versionConstraint spec) status.currentVersion
      status.failedVersions with
  | none => .upToDate { status with lastCheck := some env.now }
  | some newVersion =>
      if status.circuitOpen then
        .blocked { status with lastCheck := some env.now, availableVersion := newVersion }
      else
        .transition (.initiate newVersion env.now) (initiatedAnnotations L claw env newVersion)

/-- A version check is due, as far as the last one tells. -/
def CheckDue (claw : Claw) (spec : AutoUpdateSpec) (env : Env) : Prop :=
  ∀ lastCheck ∈ claw.autoUpdateStatus.lastCheck,
    isCheckDue L (if spec.schedule = "" then defaultSchedule else spec.schedule) lastCheck
      env.clock = true
  deriving Decidable

/-- `AutoUpdateReconciler.Reconcile`, up to its writes. -/
def reconcile (claw : Claw) (env : Env) : Action :=
  match claw.autoUpdate with
  | none => .nothing
  | some spec =>
      if !spec.enabled then .nothing
      else if claw.InProgress then reconcileHealthCheck L claw spec env
      else if claw.targetImage ≠ "" ∧ isDigestPinned claw.targetImage then .nothing
      else if ¬ CheckDue L claw spec env then .nothing
      else if imageForRuntime claw.runtime = "" then .nothing
      else match env.tags with
        | none => .nothing
        | some tags => checkVersion L claw spec env tags

/-- The writes of a call: `Update` ignores the status and `Status().Update` the annotations. -/
def perform (client : Client) (claw : Claw) (env : Env) : Action → Claw
  | .nothing => claw
  | .upToDate status | .blocked status =>
      if env.statusUpdate then { claw with status := some status } else claw
  | .transition tr annotations =>
      if env.update then
        if env.get && env.statusUpdate then
          { claw with annotations := annotations, status := some (tr.written client claw.status) }
        else { claw with annotations := annotations }
      else claw

end

/-! ### What a call can do -/

section

variable {L : Libs} {claw : Claw} {env : Env} {action : Action}

/-- What a call decides, with the conditions it decides under. -/
inductive Does (L : Libs) (claw : Claw) (env : Env) : Action → Prop
  /-- Nothing is due, or something needed could not be read. -/
  | nothing : Does L claw env .nothing
  /-- No newer version. -/
  | upToDate (spec : AutoUpdateSpec) (hspec : claw.autoUpdate = some spec)
      (hphase : ¬ claw.InProgress) :
      Does L claw env (.upToDate { claw.autoUpdateStatus with lastCheck := some env.now })
  /-- The circuit breaker keeps a newer version back. -/
  | blocked (spec : AutoUpdateSpec) (newVersion : String) (hspec : claw.autoUpdate = some spec)
      (hphase : ¬ claw.InProgress) (hopen : claw.autoUpdateStatus.circuitOpen = true) :
      Does L claw env (.blocked
        { claw.autoUpdateStatus with lastCheck := some env.now, availableVersion := newVersion })
  /-- A newer version is set as the target. -/
  | initiated (spec : AutoUpdateSpec) (tags : List String) (newVersion : String)
      (hspec : claw.autoUpdate = some spec) (hphase : ¬ claw.InProgress)
      (hbase : imageForRuntime claw.runtime ≠ "")
      (hbest : resolveBestVersion L.toSemver tags (versionConstraint spec)
        claw.autoUpdateStatus.currentVersion claw.autoUpdateStatus.failedVersions =
          some newVersion)
      (hopen : claw.autoUpdateStatus.circuitOpen = false) :
      Does L claw env (.transition (.initiate newVersion env.now)
        (initiatedAnnotations L claw env newVersion))
  /-- The health check passes. -/
  | passed (spec : AutoUpdateSpec) (counts : ReplicaCounts) (hspec : claw.autoUpdate = some spec)
      (hphase : claw.InProgress) (hread : env.statefulSet = .found counts) (hready : counts.Ready) :
      Does L claw env
        (.transition (.passed (extractVersionFromImage claw.targetImage) env.now)
          { targetImage := claw.annotations.targetImage })
  /-- The health check fails. -/
  | rolledBack (spec : AutoUpdateSpec) (hspec : claw.autoUpdate = some spec)
      (hphase : claw.InProgress) : Does L claw env (rollback spec env)

/-- **What a call of `Reconcile` can decide.** -/
theorem reconcile_does (L : Libs) (claw : Claw) (env : Env) :
    Does L claw env (reconcile L claw env) := by
  unfold reconcile
  cases hspec : claw.autoUpdate with
  | none => exact .nothing
  | some spec =>
    dsimp only
    split_ifs with _ hphase _ _ hbase
    · exact .nothing
    · unfold reconcileHealthCheck
      cases L.parseTime (claw.annotations.updateStarted.getD "") with
      | none => exact .rolledBack spec hspec hphase
      | some =>
        cases hread : env.statefulSet with
        | failed => exact .nothing
        | notFound =>
          dsimp only
          split_ifs
          · exact .rolledBack spec hspec hphase
          · exact .nothing
        | found counts =>
          dsimp only
          split_ifs with hready
          · exact .passed spec counts hspec hphase hread hready
          · exact .rolledBack spec hspec hphase
          · exact .nothing
    · exact .nothing
    · exact .nothing
    · cases env.tags with
      | none => exact .nothing
      | some tags =>
        dsimp only [checkVersion]
        split
        · exact .upToDate spec hspec hphase
        · next newVersion hbest =>
          split_ifs with hopen
          · exact .blocked spec newVersion hspec hphase hopen
          · exact .initiated spec tags newVersion hspec hphase hbase hbest
              (Bool.eq_false_iff.mpr hopen)
    · exact .nothing

/-- The status after a transition whose annotations were written. -/
inductive StatusAfter (client : Client) (claw : Claw) (env : Env) (tr : Transition) :
    Option Stored → Prop
  | written (h : (env.get && env.statusUpdate) = true) :
      StatusAfter client claw env tr (some (tr.written client claw.status))
  | failed (h : (env.get && env.statusUpdate) = false) : StatusAfter client claw env tr claw.status

/-- The fields of the status that a check leaves alone. -/
structure SameRecord (before after : Stored) : Prop where
  currentVersion : after.currentVersion = before.currentVersion
  rollbackCount : after.rollbackCount = before.rollbackCount
  failedVersions : after.failedVersions = before.failedVersions
  circuitOpen : after.circuitOpen = before.circuitOpen

/-- What a call decides, and the Claw it leaves. -/
inductive Call (L : Libs) (client : Client) (claw : Claw) (env : Env) : Action → Claw → Prop
  /-- Nothing is written. -/
  | still (action : Action) (hdoes : Does L claw env action)
      (hupdate : ∀ tr annotations, action = .transition tr annotations → env.update = false) :
      Call L client claw env action claw
  /-- A check that initiates nothing is recorded. -/
  | checked (action : Action) (status : Stored) (hdoes : Does L claw env action)
      (hcheck : ∀ tr annotations, action ≠ .transition tr annotations)
      (hphase : ¬ claw.InProgress) (hsame : SameRecord claw.autoUpdateStatus status) :
      Call L client claw env action { claw with status := some status }
  /-- A transition is made and its annotations are written. -/
  | wrote (tr : Transition) (annotations : Annotations) (status : Option Stored)
      (hdoes : Does L claw env (.transition tr annotations)) (hupdate : env.update = true)
      (hstatus : StatusAfter client claw env tr status) :
      Call L client claw env (.transition tr annotations)
        { claw with annotations := annotations, status := status }

section

variable (client : Client) (claw : Claw) (env : Env)

theorem perform_transition (tr : Transition) (annotations : Annotations) :
    (env.update = false ∧ perform client claw env (.transition tr annotations) = claw) ∨
    (env.update = true ∧ ∃ status, StatusAfter client claw env tr status ∧
      perform client claw env (.transition tr annotations) =
        { claw with annotations := annotations, status := status }) := by
  unfold perform
  cases env.update with
  | false => exact .inl ⟨rfl, rfl⟩
  | true =>
    refine .inr ⟨rfl, ?_⟩
    cases hstatus : env.get && env.statusUpdate with
    | false => exact ⟨_, .failed hstatus, rfl⟩
    | true => exact ⟨_, .written hstatus, rfl⟩

theorem perform_runtime (action : Action) :
    (perform client claw env action).runtime = claw.runtime := by
  unfold perform
  cases action <;> dsimp only <;> split_ifs <;> rfl

end

theorem call_of_check {client : Client} {status : Stored} (hdoes : Does L claw env action)
    (hcheck : ∀ tr annotations, action ≠ .transition tr annotations) (hphase : ¬ claw.InProgress)
    (hperform : perform client claw env action =
      if env.statusUpdate then { claw with status := some status } else claw)
    (hsame : SameRecord claw.autoUpdateStatus status) :
    Call L client claw env action (perform client claw env action) := by
  rw [hperform]
  split_ifs
  · exact .checked action status hdoes hcheck hphase hsame
  · exact .still action hdoes fun tr annotations h => absurd h (hcheck tr annotations)

/-- **What a call of `Reconcile` can do.** -/
theorem reconcile_call (L : Libs) (client : Client) (claw : Claw) (env : Env) :
    Call L client claw env (reconcile L claw env)
      (perform client claw env (reconcile L claw env)) := by
  have hdoes := reconcile_does L claw env
  generalize reconcile L claw env = action at hdoes
  cases action with
  | nothing => exact .still _ hdoes (by simp)
  | upToDate =>
    cases id hdoes with
    | upToDate _ _ hphase => exact call_of_check hdoes (by simp) hphase rfl ⟨rfl, rfl, rfl, rfl⟩
  | blocked =>
    cases id hdoes with
    | blocked _ _ _ hphase => exact call_of_check hdoes (by simp) hphase rfl ⟨rfl, rfl, rfl, rfl⟩
  | transition tr annotations =>
    rcases perform_transition client claw env tr annotations with
      ⟨hno, heq⟩ | ⟨hyes, status, hstatus, heq⟩
    · rw [heq]
      exact .still _ hdoes fun _ _ _ => hno
    · rw [heq]
      exact .wrote tr annotations status hdoes hyes hstatus

end

/-! ### Runs -/

/-- A call that was made.  `origin` is the Claw as it was read by the call that set the target image
of the update in progress. -/
structure Entry where
  origin : Option Claw
  before : Claw
  env : Env
  action : Action
  after : Claw
  deriving DecidableEq

/-- The Claw, with the calls made so far (ghost state). -/
structure Sys where
  claw : Claw
  origin : Option Claw := none
  log : List Entry := []
  deriving DecidableEq

/-- A call of the reconciler, or an edit of `spec.autoUpdate`. -/
inductive Event
  | reconcile (env : Env)
  | edit (spec : Option AutoUpdateSpec)
  deriving DecidableEq

/-- The Claw whose reading led to the update that is set as the target. -/
def nextOrigin (s : Sys) (env : Env) : Action → Option Claw
  | .transition (.initiate _ _) _ => if env.update then some s.claw else s.origin
  | _ => s.origin

/-- The system after a call with this decision that left this Claw. -/
def called (s : Sys) (env : Env) (action : Action) (after : Claw) : Sys where
  claw := after
  origin := nextOrigin s env action
  log := s.log ++ [⟨s.origin, s.claw, env, action, after⟩]

def step (L : Libs) (client : Client) (s : Sys) : Event → Option Sys
  | .reconcile env =>
      let action := reconcile L s.claw env
      some (called s env action (perform client s.claw env action))
  | .edit spec => some { s with claw := { s.claw with autoUpdate := spec } }

section

variable {s : Sys} {env : Env} {action : Action} {after : Claw}

@[simp]
theorem called_claw : (called s env action after).claw = after := rfl

theorem forall_mem_log_called {p : Entry → Prop} :
    (∀ e ∈ (called s env action after).log, p e) ↔
      (∀ e ∈ s.log, p e) ∧ p ⟨s.origin, s.claw, env, action, after⟩ := by
  simp only [called, List.forall_mem_append, List.forall_mem_singleton]

theorem nextOrigin_of_update
    (h : ∀ tr annotations, action = .transition tr annotations → env.update = false) :
    nextOrigin s env action = s.origin := by
  unfold nextOrigin
  split
  · rw [h _ _ rfl]
    rfl
  · rfl

end

/-- A Claw that was never updated. -/
def initial (runtime : String) (spec : Option AutoUpdateSpec) : Sys where
  claw := { runtime := runtime, autoUpdate := spec }

/-- What a call decides to do meets a condition; edits always do. -/
def Decides (L : Libs) (p : Claw → Env → Action → Prop) (s : Sys) : Event → Prop
  | .reconcile env => p s.claw env (reconcile L s.claw env)
  | .edit _ => True

instance (L : Libs) (p : Claw → Env → Action → Prop) [∀ claw env, DecidablePred (p claw env)]
    (s : Sys) (ev : Event) : Decidable (Decides L p s ev) := by
  unfold Decides
  cases ev <;> infer_instance

/-! ### Libraries that know a few inputs -/

/-- The versions and constraints of the examples. -/
def sampleSemver : Semver where
  Version := ℕ
  Constraint := Unit
  newVersion := fun
    | "1.0.0" => some 0
    | "1.1.0" => some 1
    | "2.0.0" => some 2
    | _ => none
  newConstraint := fun constraint => if constraint = defaultConstraint then some () else none
  check := fun _ _ => true
  greaterThan := fun v w => v > w
  original := fun
    | 0 => "1.0.0"
    | 1 => "1.1.0"
    | _ => "2.0.0"

def day : ℤ := 24 * 3600 * 1000000000

/-- The schedule and the times of the examples: the beginnings of the first days of 1970. -/
def sampleLibs : Libs where
  toSemver := sampleSemver
  cronNext := fun schedule =>
    if schedule = defaultSchedule then
      some fun t => (t - 3 * (day / 24)) / day * day + day + 3 * (day / 24)
    else none
  formatTime := fun t => "1970-01-0" ++ toString (t / day + 1).toNat ++ "T00:00:00Z"
  parseTime := fun
    | "1970-01-01T00:00:00Z" => some 0
    | "1970-01-02T00:00:00Z" => some day
    | "1970-01-03T00:00:00Z" => some (2 * day)
    | "1970-01-04T00:00:00Z" => some (3 * day)
    | _ => none
  parseDuration := fun _ => none

theorem sampleSemver_lawful : sampleSemver.Lawful where
  original tag v h := by
    simp only [sampleSemver] at h
    split at h <;> first | (obtain rfl := Option.some.inj h; rfl) | cases h
  noSeparator tag v h := by
    simp only [sampleSemver] at h
    split at h <;> first | decide | cases h
  nonempty := rfl
  irrefl := fun (v : ℕ) => decide_eq_false (by omega)
  trans := fun (u v w : ℕ) huv hvw => by
    have hvu : v < u := of_decide_eq_true huv
    have hwv : w < v := of_decide_eq_true hvw
    exact decide_eq_true (by omega)
  weak := fun (u v w : ℕ) huw => by
    have hwu : w < u := of_decide_eq_true huw
    by_cases hvu : v < u
    · exact .inl (decide_eq_true hvu)
    · exact .inr (decide_eq_true (by omega))

/-- A call at the beginning of day `d`: the registry lists these tags, every API call goes
through. -/
def onDay (d : ℤ) (tags : List String) (statefulSet : StatefulSetRead) : Env where
  clock := d * day
  now := d * day
  tags := some tags
  statefulSet := statefulSet

/-- One replica, updated and ready. -/
def readyCounts : ReplicaCounts := ⟨some 1, 1, 1⟩

/-- One replica, updated and not ready. -/
def unreadyCounts : ReplicaCounts := ⟨some 1, 1, 0⟩

end K8s4Claw.AutoUpdate
