/-
# What a passed health check says

Three parties act on a Claw and its StatefulSet: `AutoUpdateReconciler`, which sets the target image
and later reads the replica counters; `ClawReconciler`, which reads the Claw and then, in
`ensureStatefulSet`, writes a template with the image it read; and the StatefulSet controller, which
replaces pods and counts those that run the template and those that are ready.

`reconcileHealthCheck` compares counters and looks at neither the template nor the generation they
were counted for.  Right after an update is initiated they are those of the image before, and the
check passes for a version that no pod runs (`healthy_before_rollout`).
-/

import K8s4Claw.AutoUpdate.Reconcile

namespace K8s4Claw.AutoUpdate

open List Option
open Lib (Along Meets run)

/-- A pod template: the image of the runtime container, and everything else in it. -/
structure Template where
  image : String
  rest : String
  deriving DecidableEq

structure Pod where
  template : Template
  ready : Bool
  deriving DecidableEq

/-- The StatefulSet of a Claw, and its pods in the order of their ordinals. -/
structure StatefulSet where
  template : Template
  replicas : ℤ
  updatedReplicas : ℤ
  readyReplicas : ℤ
  pods : List Pod
  deriving DecidableEq

namespace StatefulSet

/-- What the health check reads. -/
def counts (sts : StatefulSet) : ReplicaCounts :=
  ⟨some sts.replicas, sts.updatedReplicas, sts.readyReplicas⟩

/-- The StatefulSet controller counts the pods. -/
def sync (sts : StatefulSet) : StatefulSet :=
  { sts with
    updatedReplicas := sts.pods.countP fun pod => pod.template = sts.template
    readyReplicas := sts.pods.countP fun pod => pod.ready }

/-- The first `replicas` pods exist, run the template and are ready. -/
def AllRun (sts : StatefulSet) : Prop :=
  ∀ i : ℕ, (i : ℤ) < sts.replicas →
    ∃ pod, sts.pods[i]? = some pod ∧ pod.template = sts.template ∧ pod.ready = true

end StatefulSet

/-- The object that `ClawReconciler` has built from the Claw it read.  `fresh` is ghost state: the
target image has not changed since. -/
structure Built where
  template : Template
  replicas : ℤ
  fresh : Bool
  deriving DecidableEq

/-- A health check that passed: the Claw and the StatefulSet at that moment, and the version
recorded. -/
structure Passed where
  claw : Claw
  sts : Option StatefulSet
  version : String
  deriving DecidableEq

/-- The objects, the call of `ClawReconciler` in progress, and ghost state: `ensured`, the template
comes from a Claw with the present target image; `counted`, the counters are those of the present
template and pods; and the health checks that passed. -/
structure Cluster where
  claw : Claw
  building : Option Built := none
  sts : Option StatefulSet := none
  ensured : Bool := false
  counted : Bool := false
  passed : List Passed := []
  deriving DecidableEq

namespace Cluster

inductive Event
  /-- `AutoUpdateReconciler.Reconcile`; what it reads of the StatefulSet is that of the cluster,
  unless the read fails. -/
  | autoUpdate (env : Env)
  | edit (spec : Option AutoUpdateSpec)
  /-- `ClawReconciler` reads the Claw, whose other fields give the rest of the template and the
  replicas. -/
  | build (rest : String) (replicas : ℤ)
  /-- `ensureStatefulSet` creates or updates the StatefulSet. -/
  | ensure
  /-- Pods are replaced, or become ready or unready. -/
  | pods (pods : List Pod)
  /-- The StatefulSet controller writes the counters. -/
  | sync
  deriving DecidableEq

/-- The environment of a call, with the StatefulSet of the cluster. -/
def observe (c : Cluster) (env : Env) : Env :=
  { env with statefulSet :=
      match env.statefulSet with
      | .failed => .failed
      | _ => match c.sts with
        | none => .notFound
        | some sts => .found sts.counts }

/-- What a call adds to the passed checks. -/
def record (c : Cluster) : Action → List Passed
  | .transition (.passed version _) _ => c.passed ++ [⟨c.claw, c.sts, version⟩]
  | _ => c.passed

/-- After a call that left this Claw.  A new target image is not yet that of any template. -/
def called (c : Cluster) (action : Action) (after : Claw) : Cluster :=
  let same := decide (after.annotations.targetImage = c.claw.annotations.targetImage)
  { c with
    claw := after
    building := c.building.map fun built => { built with fresh := built.fresh && same }
    ensured := c.ensured && same
    passed := c.record action }

/-- `ensureStatefulSet`: an existing StatefulSet keeps its counters and pods. -/
def ensureStatefulSet (built : Built) (sts : Option StatefulSet) : StatefulSet :=
  match sts with
  | none => ⟨built.template, built.replicas, 0, 0, []⟩
  | some sts => { sts with template := built.template, replicas := built.replicas }

def step (L : Libs) (client : Client) (c : Cluster) : Event → Option Cluster
  | .autoUpdate env =>
      let env := c.observe env
      let action := reconcile L c.claw env
      some (c.called action (perform client c.claw env action))
  | .edit spec => some { c with claw := { c.claw with autoUpdate := spec } }
  | .build rest replicas =>
      c.claw.runtimeImage.map fun image =>
        { c with building := some ⟨⟨image, rest⟩, replicas, true⟩ }
  | .ensure =>
      c.building.map fun built =>
        { c with
          building := none
          sts := some (ensureStatefulSet built c.sts)
          ensured := built.fresh
          counted := c.counted && (c.sts.map (·.template) = some built.template) }
  | .pods pods =>
      c.sts.map fun sts => { c with sts := some { sts with pods := pods }, counted := false }
  | .sync => c.sts.map fun sts => { c with sts := some sts.sync, counted := true }

/-- A new Claw, without a StatefulSet. -/
def initial (runtime : String) (spec : Option AutoUpdateSpec) : Cluster where
  claw := { runtime := runtime, autoUpdate := spec }

end Cluster

/-- A check passed about its version: the template has the target image, whose tag is the version,
and all replicas run it and are ready. -/
def Passed.AboutTarget (p : Passed) : Prop :=
  ∃ sts, p.sts = some sts ∧ sts.template.image = p.claw.targetImage ∧
    extractVersionFromImage p.claw.targetImage = p.version ∧ sts.AllRun

namespace Cluster

/-- Every health check that passed was about its version. -/
def ChecksTarget (c : Cluster) : Prop := ∀ p ∈ c.passed, p.AboutTarget

/-- No pod is left beyond the replicas. -/
def NoSurplus (c : Cluster) : Prop := ∀ sts ∈ c.sts, (sts.pods.length : ℤ) ≤ sts.replicas
  deriving Decidable

/-- A health check passes only after the template was written from the present target and the pods
were counted since the last change, with no surplus pod. -/
def AfterRollout (c : Cluster) : Action → Prop
  | .transition (.passed _ _) _ => c.ensured = true ∧ c.counted = true ∧ c.NoSurplus
  | _ => True

instance (c : Cluster) (action : Action) : Decidable (c.AfterRollout action) := by
  unfold AfterRollout
  split <;> infer_instance

def ChecksAfterRollout (L : Libs) (c : Cluster) : Event → Prop
  | .autoUpdate env => c.AfterRollout (reconcile L c.claw (c.observe env))
  | _ => True

instance (L : Libs) (c : Cluster) (ev : Event) : Decidable (ChecksAfterRollout L c ev) := by
  unfold ChecksAfterRollout
  cases ev <;> infer_instance

/-- What the ghost state says. -/
structure Tracked (c : Cluster) : Prop where
  checks : c.ChecksTarget
  target : c.claw.InProgress → c.claw.targetImage ≠ ""
  building : ∀ built ∈ c.building, built.fresh = true →
    c.claw.runtimeImage = some built.template.image
  ensured : c.ensured = true → ∃ sts ∈ c.sts, c.claw.runtimeImage = some sts.template.image
  counted : c.counted = true → ∃ sts ∈ c.sts,
    sts.updatedReplicas = sts.pods.countP (fun pod => pod.template = sts.template) ∧
      sts.readyReplicas = sts.pods.countP fun pod => pod.ready

section

variable {L : Libs} {client : Client} {c d : Cluster} {env : Env} {action : Action} {after : Claw}

/-- When every pod counts, and there are no more pods than replicas, all replicas run. -/
theorem allRun_of_counts {sts : StatefulSet} (hready : sts.counts.Ready)
    (hupdated : sts.updatedReplicas = sts.pods.countP fun pod => pod.template = sts.template)
    (hcount : sts.readyReplicas = sts.pods.countP fun pod => pod.ready)
    (hsurplus : (sts.pods.length : ℤ) ≤ sts.replicas) : sts.AllRun := by
  have hup : sts.replicas ≤ sts.updatedReplicas := hready.1
  have hrd : sts.replicas ≤ sts.readyReplicas := hready.2
  have hlenUp := countP_le_length (p := fun pod => decide (pod.template = sts.template))
    (l := sts.pods)
  have hlenRd := countP_le_length (p := fun pod : Pod => pod.ready) (l := sts.pods)
  have hallUp := countP_eq_length.mp (show sts.pods.countP
    (fun pod => decide (pod.template = sts.template)) = sts.pods.length by omega)
  have hallRd := countP_eq_length.mp (show sts.pods.countP
    (fun pod : Pod => pod.ready) = sts.pods.length by omega)
  intro i hi
  have hlt : i < sts.pods.length := by omega
  refine ⟨sts.pods[i], List.getElem?_eq_getElem hlt, ?_, ?_⟩
  · exact of_decide_eq_true (hallUp _ (getElem_mem hlt))
  · exact hallRd _ (getElem_mem hlt)

theorem exists_sts_of_observe {counts : ReplicaCounts}
    (h : (c.observe env).statefulSet = .found counts) :
    ∃ sts, c.sts = some sts ∧ counts = sts.counts := by
  unfold observe at h
  split at h
  · cases h
  · cases hsts : c.sts with
    | none => simp [hsts] at h
    | some sts =>
      simp only [hsts] at h
      obtain rfl := StatefulSetRead.found.inj h
      exact ⟨sts, rfl, rfl⟩

variable (h : c.Tracked)

include h

/-- **A check that comes after the rollout is about its target.** -/
theorem aboutTarget_of_passed {counts : ReplicaCounts} (hphase : c.claw.InProgress)
    (hread : (c.observe env).statefulSet = .found counts) (hready : counts.Ready)
    (hensured : c.ensured = true) (hcounted : c.counted = true) (hsurplus : c.NoSurplus) :
    Passed.AboutTarget ⟨c.claw, c.sts, extractVersionFromImage c.claw.targetImage⟩ := by
  obtain ⟨sts, hsts, rfl⟩ := exists_sts_of_observe hread
  obtain ⟨sts', hsts', himage⟩ := h.ensured hensured
  obtain rfl := some.inj (hsts.symm.trans hsts')
  obtain ⟨sts', hsts', hupdated, hcount⟩ := h.counted hcounted
  obtain rfl := some.inj (hsts.symm.trans hsts')
  refine ⟨sts, hsts, ?_, rfl, ?_⟩
  · exact Claw.eq_targetImage_of_runtimeImage (h.target hphase) himage
  · exact allRun_of_counts hready hupdated hcount (hsurplus sts hsts)

theorem target_call (hcall : Call L client c.claw env action after) (hphase : after.InProgress) :
    after.targetImage ≠ "" := by
  cases hcall with
  | still => exact h.target hphase
  | checked _ _ _ _ hnot => exact absurd hphase hnot
  | wrote _ _ _ hdoes =>
    cases hdoes with
    | initiated => exact image_ne_empty _ _
    | passed | rolledBack => cases hphase

/-- **A call of the auto-update reconciler keeps the ghost state right.** -/
theorem tracked_called (hruntime : after.runtime = c.claw.runtime)
    (htarget : after.InProgress → after.targetImage ≠ "")
    (hrecord : ∀ p ∈ c.record action, p.AboutTarget) : (c.called action after).Tracked := by
  have hsame : ∀ b : Bool,
      (b && decide (after.annotations.targetImage = c.claw.annotations.targetImage)) = true →
      b = true ∧ after.runtimeImage = c.claw.runtimeImage := by
    intro b hb
    obtain ⟨hb, heq⟩ := Bool.and_eq_true_iff.mp hb
    exact ⟨hb, Claw.runtimeImage_congr hruntime (of_decide_eq_true heq)⟩
  refine ⟨hrecord, htarget, ?_, ?_, h.counted⟩
  · intro built' hbuilt' hfresh
    obtain ⟨built, hbuilt, rfl⟩ := map_eq_some_iff.mp hbuilt'
    obtain ⟨hfresh, himage⟩ := hsame _ hfresh
    exact himage.trans (h.building built hbuilt hfresh)
  · intro hensured
    obtain ⟨hens, himage⟩ := hsame _ hensured
    obtain ⟨sts, hsts, hsimage⟩ := h.ensured hens
    exact ⟨sts, hsts, himage.trans hsimage⟩

theorem record_of_afterRollout (hok : c.AfterRollout action)
    (hdoes : Does L c.claw (c.observe env) action) : ∀ p ∈ c.record action, p.AboutTarget := by
  cases hdoes with
  | passed _ _ _ hphase hread hready =>
    obtain ⟨hensured, hcounted, hsurplus⟩ := hok
    refine forall_mem_append.mpr ⟨h.checks, forall_mem_singleton.mpr ?_⟩
    exact aboutTarget_of_passed h hphase hread hready hensured hcounted hsurplus
  | nothing | upToDate | blocked | initiated | rolledBack => exact h.checks

theorem tracked_step {event : Event} (hok : ChecksAfterRollout L c event)
    (hstep : step L client c event = some d) : d.Tracked := by
  cases event with
  | autoUpdate env =>
    cases hstep
    exact tracked_called h (perform_runtime ..)
      (target_call h (reconcile_call L client c.claw (c.observe env)))
      (record_of_afterRollout h hok (reconcile_does L c.claw (c.observe env)))
  | edit =>
    cases hstep
    exact ⟨h.checks, h.target, h.building, h.ensured, h.counted⟩
  | build =>
    obtain ⟨image, himage, rfl⟩ := map_eq_some_iff.mp hstep
    refine ⟨h.checks, h.target, fun built hbuilt _ => ?_, h.ensured, h.counted⟩
    cases hbuilt
    exact himage
  | ensure =>
    obtain ⟨built, hbuilt, rfl⟩ := map_eq_some_iff.mp hstep
    refine ⟨h.checks, h.target, ?_, fun hfresh => ?_, fun hcounted => ?_⟩
    · simp
    · refine ⟨_, rfl, ?_⟩
      have htemplate : (ensureStatefulSet built c.sts).template = built.template := by
        cases c.sts <;> rfl
      rw [htemplate]
      exact h.building built hbuilt hfresh
    · -- the counters are right if the template is the one they were counted for
      obtain ⟨hcount, hsame⟩ := Bool.and_eq_true_iff.mp hcounted
      obtain ⟨sts, hsts, hupdated, hready⟩ := h.counted hcount
      rw [hsts] at hsame
      have htemplate : sts.template = built.template := by simpa using hsame
      refine ⟨_, rfl, ?_, ?_⟩
      · rw [hsts]
        simp only [ensureStatefulSet, ← htemplate]
        exact hupdated
      · rw [hsts]
        exact hready
  | pods =>
    obtain ⟨sts, hsts, rfl⟩ := map_eq_some_iff.mp hstep
    refine ⟨h.checks, h.target, h.building, fun hensured => ?_, fun hcounted => by cases hcounted⟩
    obtain ⟨sts', hsts', himage⟩ := h.ensured hensured
    obtain rfl := some.inj (hsts.symm.trans hsts')
    exact ⟨_, rfl, himage⟩
  | sync =>
    obtain ⟨sts, hsts, rfl⟩ := map_eq_some_iff.mp hstep
    refine ⟨h.checks, h.target, h.building, fun hensured => ?_, fun _ => ⟨_, rfl, rfl, rfl⟩⟩
    obtain ⟨sts', hsts', himage⟩ := h.ensured hensured
    obtain rfl := some.inj (hsts.symm.trans hsts')
    exact ⟨_, rfl, himage⟩

end

/-- **Every health check that passes is about its target**, in every interleaving in which checks
pass only after the rollout: once `ensureStatefulSet` has written a template with the present target
image, and the StatefulSet controller has counted the pods since their last change and since that of
the template, with no pod left beyond the replicas. -/
theorem healthy_along (L : Libs) (client : Client) (runtime : String)
    (spec : Option AutoUpdateSpec) {events : List Event}
    (hok : Meets (step L client) (ChecksAfterRollout L) (initial runtime spec) events) :
    Along (step L client) ChecksTarget (initial runtime spec) events := by
  have hinit : (initial runtime spec).Tracked := by
    constructor
    · simp [ChecksTarget, initial]
    · intro hin
      cases hin
    · simp [initial]
    · simp [initial]
    · simp [initial]
  exact Lib.along_of_meets (fun c event d hc hok hstep => tracked_step hc hok hstep)
    (fun c hc => hc.checks) hinit hok

/-- The pod template with this tag of the image. -/
def tagged (tag : String) : Template := ⟨"ghcr.io/prismer-ai/k8s4claw-openclaw:" ++ tag, ""⟩

/-- `ClawReconciler` writes the template, one pod comes up with it, and it is counted. -/
def rollout (tag : String) : List Event :=
  [.build "" 1, .ensure, .pods [⟨tagged tag, true⟩], .sync]

/-- The first update of a running Claw; `between` happens before the health check. -/
def updateRunning (between : List Event) : List Event :=
  rollout "latest" ++ [.autoUpdate (onDay 0 ["1.0.0"] .notFound)] ++ between ++
    [.autoUpdate (onDay 0 [] .notFound)]

theorem healthy_along_rollout :
    ((run (step sampleLibs realClient) (initial "openclaw" (some { enabled := true }))
      (updateRunning (rollout "1.0.0"))).map fun c => c.passed.map (·.version)) = some ["1.0.0"] ∧
    Along (step sampleLibs realClient) ChecksTarget (initial "openclaw" (some { enabled := true }))
      (updateRunning (rollout "1.0.0")) :=
  ⟨by decide +kernel, healthy_along sampleLibs realClient _ _ (by decide +kernel)⟩

/-- **A check right after the update is initiated.**  The replica still runs the image before the
update, and is counted as updated and ready for it: the check passes, and version 1.0.0 is recorded
as healthy with neither the template nor a pod at it. -/
theorem healthy_before_rollout :
    ∃ c ∈ run (step sampleLibs realClient) (initial "openclaw" (some { enabled := true }))
        (updateRunning []),
      c.claw.autoUpdateStatus.currentVersion = "1.0.0" ∧
      c.claw.autoUpdateStatus.versionHistory = [⟨"1.0.0", 0, .healthy⟩] ∧
      c.sts.map (·.template) = some (tagged "latest") ∧
      c.sts.map (·.pods) = some [⟨tagged "latest", true⟩] := by
  decide +kernel

end Cluster

end K8s4Claw.AutoUpdate
