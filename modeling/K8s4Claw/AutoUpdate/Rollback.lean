/-
# What a rollback leaves

Two promises about rollbacks, and what each of them needs.

*The last healthy version runs again.*  `rollback` deletes the target image, so `buildStatefulSet`
falls back to the image of the adapter, whose tag is fixed, and not to the version that was healthy
before (`rollback_runs_default`, `image_along`).

*A version rolled back is not tried again.*  The rollback is two writes: the annotations go first,
and the failed version is then taken from the status and written there.  When the second write
fails, the version is tried again and the rollback is not counted (`retried_after_rollback`).
-/

import K8s4Claw.AutoUpdate.Reconcile

namespace K8s4Claw.AutoUpdate

open Lib (Along Meets run)

/-! ### The image between updates -/

/-- Between updates the runtime container has the image of the stored version. -/
def RunsStored (s : Sys) : Prop :=
  ¬ s.claw.InProgress → s.claw.version ≠ "" →
    s.claw.runtimeImage = some (imageForRuntime s.claw.runtime ++ ":" ++ s.claw.version)
  deriving Decidable

/-- Every API call of a call goes through. -/
def NoFailure : Event → Prop
  | .reconcile env => env.update = true ∧ (env.get && env.statusUpdate) = true
  | .edit _ => True

instance : DecidablePred NoFailure
  | .reconcile _ => inferInstanceAs (Decidable (_ ∧ _))
  | .edit _ => inferInstanceAs (Decidable True)

/-- No healthy version is rolled back from. -/
def KeepsVersion (claw : Claw) : Action → Prop
  | .transition (.rollback _ _) _ => claw.version = ""
  | _ => True

instance (claw : Claw) (action : Action) : Decidable (KeepsVersion claw action) := by
  unfold KeepsVersion
  split <;> infer_instance

/-- The target image is that of a version of the runtime. -/
def Targets (claw : Claw) (version : String) : Prop :=
  imageForRuntime claw.runtime ≠ "" ∧
    claw.targetImage = imageForRuntime claw.runtime ++ ":" ++ version

/-- An update in progress targets a version that parses, and between updates the target is the
stored version. -/
structure Targeted (L : Libs) (s : Sys) : Prop where
  pending : s.claw.InProgress → ∃ tag v, L.newVersion tag = some v ∧ Targets s.claw tag
  settled : ¬ s.claw.InProgress → s.claw.version ≠ "" → Targets s.claw s.claw.version

theorem exists_adapterImage {runtime : String} (h : imageForRuntime runtime ≠ "") :
    ∃ image, Claw.adapterImage runtime = some image := by
  unfold imageForRuntime at h
  split at h
  · exact ⟨_, rfl⟩
  · exact ⟨_, rfl⟩
  · exact ⟨_, rfl⟩
  · exact ⟨_, rfl⟩
  · exact absurd rfl h

theorem runtimeImage_of_targets {claw : Claw} {version : String} (h : Targets claw version) :
    claw.runtimeImage = some (imageForRuntime claw.runtime ++ ":" ++ version) := by
  obtain ⟨image, himage⟩ := exists_adapterImage h.1
  have hne : claw.targetImage ≠ "" := by
    rw [h.2]
    exact image_ne_empty _ _
  rw [Claw.runtimeImage, himage, Option.map_some, if_pos hne, h.2]

section

variable {L : Libs} {client : Client} {s t : Sys} {env : Env} {action : Action} {after : Claw}

/-- **A call without failures keeps the target.** -/
theorem targeted_call (hL : L.toSemver.Lawful) (hclient : client.Keeps) (h : Targeted L s)
    (hfail : NoFailure (.reconcile env)) (hkeeps : KeepsVersion s.claw action)
    (hcall : Call L client s.claw env action after) : Targeted L (called s env action after) := by
  cases hcall with
  | still => exact ⟨h.pending, h.settled⟩
  | checked _ status _ _ _ hsame =>
    have hversion : Claw.version { s.claw with status := some status } = s.claw.version :=
      hsame.currentVersion
    refine ⟨h.pending, fun hphase hne => ?_⟩
    simp only [called_claw, hversion] at hne ⊢
    exact h.settled hphase hne
  | wrote _ _ _ hdoes _ hstatus =>
    cases hdoes with
    | initiated _ _ newVersion _ _ hbase hbest =>
      obtain ⟨c, v, -, hv, -⟩ := eligible_of_resolveBestVersion hL hbest
      exact ⟨fun _ => ⟨newVersion, v, hv, hbase, rfl⟩, fun hphase => absurd rfl hphase⟩
    | passed _ _ _ hphase =>
      refine ⟨(fun hin => by cases hin), fun _ _ => ?_⟩
      obtain ⟨tag, v, hv, hbase, htarget⟩ := h.pending hphase
      obtain ⟨hslash, hcolon⟩ := hL.noSeparator tag v hv
      have hextract : extractVersionFromImage s.claw.targetImage = tag := by
        rw [htarget, extractVersionFromImage_tag _ hslash hcolon]
      cases hstatus with
      | failed hfailed => exact absurd (hfailed.symm.trans hfail.2) (by decide)
      | written =>
        rw [hclient.written_eq, computed_passed, hextract]
        exact ⟨hbase, htarget⟩
    | rolledBack =>
      refine ⟨(fun hin => by cases hin), fun _ hne => absurd ?_ hne⟩
      have hempty : s.claw.version = "" := hkeeps
      cases hstatus with
      | failed => exact hempty
      | written =>
        rw [hclient.written_eq, computed_rollback]
        exact hempty

end

/-- **Between updates the image is that of the stored version**, in every state of every run without
API failures in which no call rolls back from a healthy version. -/
theorem image_along {L : Libs} (hL : L.toSemver.Lawful) {client : Client}
    (hclient : client.Keeps) (runtime : String) (spec : Option AutoUpdateSpec)
    {events : List Event} (hfail : ∀ event ∈ events, NoFailure event)
    (hkeeps : Meets (step L client) (Decides L fun claw _ => KeepsVersion claw)
      (initial runtime spec) events) :
    Along (step L client) RunsStored (initial runtime spec) events := by
  have hinit : Targeted L (initial runtime spec) :=
    ⟨(fun hin => by cases hin), fun _ hne => absurd rfl hne⟩
  refine Lib.along_of_meets ?_ ?_ hinit (Lib.meets_and_of_forall hkeeps hfail)
  · rintro s event t hs ⟨hkeeps, hfail⟩ hstep
    cases event with
    | reconcile env =>
      cases hstep
      exact targeted_call hL hclient hs hfail hkeeps (reconcile_call L client s.claw env)
    | edit =>
      cases hstep
      exact ⟨hs.pending, hs.settled⟩
  · exact fun s hs hphase hne => runtimeImage_of_targets (hs.settled hphase hne)

/-- The first update of a Claw, up to the passed health check. -/
def firstUpdate : List Event :=
  [.reconcile (onDay 0 ["1.0.0"] .notFound), .reconcile (onDay 0 [] (.found readyCounts))]

theorem image_along_firstUpdate :
    ((run (step sampleLibs realClient) (initial "openclaw" (some { enabled := true }))
      firstUpdate).map fun s => s.claw.version) = some "1.0.0" ∧
    Along (step sampleLibs realClient) RunsStored (initial "openclaw" (some { enabled := true }))
      firstUpdate :=
  ⟨by decide +kernel, image_along sampleSemver_lawful realClient_keeps _ _
    (by decide +kernel) (by decide +kernel)⟩

/-- A first update to 1.0.0 that is healthy, and a second one to 1.1.0 that is rolled back. -/
def secondUpdateFails : List Event :=
  firstUpdate ++
    [.reconcile (onDay 2 ["1.0.0", "1.1.0"] .notFound),
      .reconcile (onDay 3 [] (.found unreadyCounts))]

/-- **The rollback runs the tag of the adapter.**  Version 1.0.0 was healthy, 1.1.0 is rolled back,
and the image built is not that of 1.0.0. -/
theorem rollback_runs_default :
    (∀ event ∈ secondUpdateFails, NoFailure event) ∧
    ∃ s ∈ run (step sampleLibs realClient) (initial "openclaw" (some { enabled := true }))
        secondUpdateFails,
      ¬ s.claw.InProgress ∧ s.claw.version = "1.0.0" ∧
        s.claw.runtimeImage = some "ghcr.io/prismer-ai/k8s4claw-openclaw:latest" := by
  decide +kernel

/-! ### Versions that were rolled back -/

/-- The tag of the update whose annotations a call cleared. -/
def Entry.rolledBack (e : Entry) : Option String :=
  match e.action with
  | .transition (.rollback _ _) _ =>
      if e.env.update then some (extractVersionFromImage e.before.targetImage) else none
  | _ => none

/-- The tag that a call set the target image to. -/
def Entry.initiated (e : Entry) : Option String :=
  match e.action with
  | .transition (.initiate _ _) _ =>
      if e.env.update then some (extractVersionFromImage e.after.targetImage) else none
  | _ => none

/-- Every rollback was counted, and no version was set as the target after it was rolled back. -/
structure NoRetry (s : Sys) : Prop where
  counted : ∀ e ∈ s.log, e.rolledBack.isSome →
    e.after.autoUpdateStatus.rollbackCount = e.before.autoUpdateStatus.rollbackCount + 1
  once : s.log.Pairwise fun e f => ∀ tag ∈ e.rolledBack, f.initiated ≠ some tag

/-- After the annotations of an initiated update or of a rollback are written, the status goes
through too. -/
def StoresOutcome (_claw : Claw) (env : Env) : Action → Prop
  | .transition (.initiate _ _) _ | .transition (.rollback _ _) _ =>
      env.update = true → (env.get && env.statusUpdate) = true
  | _ => True

instance (claw : Claw) (env : Env) (action : Action) :
    Decidable (StoresOutcome claw env action) := by
  unfold StoresOutcome
  split <;> infer_instance

/-- What was rolled back is listed as failed, and the version of an update in progress is the one
that a rollback would list. -/
structure Listed (s : Sys) : Prop where
  noRetry : NoRetry s
  failed : ∀ e ∈ s.log, ∀ tag ∈ e.rolledBack, tag ∈ s.claw.autoUpdateStatus.failedVersions
  pending : s.claw.InProgress →
    s.claw.autoUpdateStatus.availableVersion = extractVersionFromImage s.claw.targetImage

section

variable {L : Libs} {client : Client} {s t : Sys} {env : Env} {action : Action} {after : Claw}

section

variable (version : String) (failed : List String)

theorem mem_listFailed : version ∈ if version ∈ failed then failed else failed ++ [version] := by
  split_ifs with h
  · exact h
  · simp

theorem subset_listFailed : failed ⊆ if version ∈ failed then failed else failed ++ [version] := by
  split_ifs
  · exact List.Subset.refl _
  · exact List.subset_append_left ..

end

theorem once_called (h : NoRetry s)
    (hnew : ∀ e ∈ s.log, ∀ tag ∈ e.rolledBack,
      Entry.initiated ⟨s.origin, s.claw, env, action, after⟩ ≠ some tag) :
    (called s env action after).log.Pairwise fun e f =>
      ∀ tag ∈ e.rolledBack, f.initiated ≠ some tag := by
  refine List.pairwise_append.mpr ⟨h.once, List.pairwise_singleton .., fun e he f hf => ?_⟩
  rw [List.mem_singleton.mp hf]
  exact hnew e he

section

variable (h : Listed s)
  (hfailed : after.autoUpdateStatus.failedVersions = s.claw.autoUpdateStatus.failedVersions)
  (hpending : after.InProgress →
    after.autoUpdateStatus.availableVersion = extractVersionFromImage after.targetImage)

include h hfailed hpending

/-- A call that rolls nothing back. -/
theorem listed_called
    (hrolled : Entry.rolledBack ⟨s.origin, s.claw, env, action, after⟩ = none)
    (hinitiated : ∀ tag ∈ Entry.initiated ⟨s.origin, s.claw, env, action, after⟩,
      tag ∉ s.claw.autoUpdateStatus.failedVersions) :
    Listed (called s env action after) := by
  refine ⟨⟨?_, ?_⟩, ?_, hpending⟩
  · rw [forall_mem_log_called, hrolled]
    exact ⟨h.noRetry.counted, by simp⟩
  · refine once_called h.noRetry fun e he tag htag hnew => ?_
    exact hinitiated tag hnew (h.failed e he tag htag)
  · rw [forall_mem_log_called, hrolled, called_claw, hfailed]
    exact ⟨h.failed, by simp⟩

theorem listed_called_of_quiet
    (hquiet : ∀ tr annotations, action = .transition tr annotations →
      env.update = false ∨ ∃ version now, tr = .passed version now) :
    Listed (called s env action after) := by
  refine listed_called h hfailed hpending ?_ ?_
  · unfold Entry.rolledBack
    split
    · next heq =>
      rcases hquiet _ _ heq with hno | ⟨version, now, hpassed⟩
      · exact if_neg (by simp [hno])
      · cases hpassed
    · rfl
  · unfold Entry.initiated
    split
    · next heq =>
      rcases hquiet _ _ heq with hno | ⟨version, now, hpassed⟩
      · simp [hno]
      · cases hpassed
    · simp

end

/-- A rollback whose status is stored is counted and lists its version. -/
theorem listed_rolledBack {spec : AutoUpdateSpec} (h : Listed s) (hphase : s.claw.InProgress)
    (hupdate : env.update = true) :
    Listed (called s env (rollback spec env) { s.claw with
      annotations := {}
      status := some (Transition.computed (.rollback (maxRollbacks spec) env.now)
        s.claw.status) }) := by
  rw [computed_rollback]
  have hrolled : ∀ after, ∀ tag ∈ Entry.rolledBack
      ⟨s.origin, s.claw, env, rollback spec env, after⟩,
      tag = extractVersionFromImage s.claw.targetImage := by
    simp [Entry.rolledBack, rollback, hupdate]
  refine ⟨⟨?_, ?_⟩, ?_, fun hin => by cases hin⟩
  · rw [forall_mem_log_called]
    exact ⟨h.noRetry.counted, fun _ => rfl⟩
  · refine once_called h.noRetry fun e he tag htag hnew => ?_
    cases hnew
  · rw [forall_mem_log_called]
    refine ⟨fun e he tag htag => subset_listFailed _ _ (h.failed e he tag htag), fun tag htag => ?_⟩
    -- the failed version is the tag of the target
    rw [hrolled _ tag htag, ← h.pending hphase]
    exact mem_listFailed ..

/-- **A call that stores its outcome keeps the lists.** -/
theorem listed_call (hL : L.toSemver.Lawful) (hclient : client.Keeps) (h : Listed s)
    (hstores : StoresOutcome s.claw env action)
    (hcall : Call L client s.claw env action after) : Listed (called s env action after) := by
  cases hcall with
  | still _ _ hupdate =>
    exact listed_called_of_quiet h rfl h.pending
      fun tr annotations heq => .inl (hupdate tr annotations heq)
  | checked _ _ _ hcheck hphase hsame =>
    exact listed_called_of_quiet h hsame.failedVersions (fun hin => absurd hin hphase)
      fun tr annotations heq => absurd heq (hcheck tr annotations)
  | wrote _ _ _ hdoes hupdate hstatus =>
    cases hdoes with
    | initiated _ _ newVersion _ _ _ hbest =>
      obtain ⟨c, v, -, hv, -, hfresh, -⟩ := eligible_of_resolveBestVersion hL hbest
      obtain ⟨hslash, hcolon⟩ := hL.noSeparator newVersion v hv
      have hextract := extractVersionFromImage_tag (imageForRuntime s.claw.runtime) hslash hcolon
      rw [hL.original newVersion v hv] at hfresh
      refine listed_called h ?_ (fun _ => ?_) rfl ?_
      · cases hstatus with
        | failed => rfl
        | written =>
          rw [hclient.written_eq, computed_initiate]
          rfl
      · cases hstatus with
        | failed hfailed => exact absurd (hfailed.symm.trans (hstores hupdate)) (by decide)
        | written =>
          rw [hclient.written_eq, computed_initiate]
          exact hextract.symm
      · intro tag htag
        have htag : (if env.update then some (extractVersionFromImage
            (imageForRuntime s.claw.runtime ++ ":" ++ newVersion)) else none) = some tag := htag
        rw [if_pos hupdate, hextract] at htag
        cases htag
        exact hfresh
    | passed =>
      refine listed_called_of_quiet h ?_ (fun hin => by cases hin) ?_
      · cases hstatus with
        | failed => rfl
        | written =>
          rw [hclient.written_eq, computed_passed]
          rfl
      · intro tr annotations heq
        obtain ⟨rfl, -⟩ := Action.transition.inj heq
        exact .inr ⟨_, _, rfl⟩
    | rolledBack _ _ hphase =>
      cases hstatus with
      | failed hno => exact absurd (hno.symm.trans (hstores hupdate)) (by decide)
      | written =>
        rw [hclient.written_eq]
        exact listed_rolledBack h hphase hupdate

end

/-- **Every rollback is counted and no version rolled back is tried again**, in every state of every
run in which the status of each initiated update and of each rollback is stored once its annotations
are.  Any other API call may fail. -/
theorem noRetry_along {L : Libs} (hL : L.toSemver.Lawful) {client : Client}
    (hclient : client.Keeps) (runtime : String) (spec : Option AutoUpdateSpec)
    {events : List Event}
    (hstores : Meets (step L client) (Decides L StoresOutcome) (initial runtime spec) events) :
    Along (step L client) NoRetry (initial runtime spec) events := by
  have hinit : Listed (initial runtime spec) := by
    refine ⟨⟨?_, .nil⟩, ?_, fun hin => by cases hin⟩
    · simp [initial]
    · simp [initial]
  refine Lib.along_of_meets ?_ (fun s hs => hs.noRetry) hinit hstores
  intro s event t hs hstores hstep
  cases event with
  | reconcile env =>
    cases hstep
    exact listed_call hL hclient hs hstores (reconcile_call L client s.claw env)
  | edit =>
    cases hstep
    exact ⟨⟨hs.noRetry.counted, hs.noRetry.once⟩, hs.failed, hs.pending⟩

/-- An update to 1.0.0 that is rolled back, and the next check; `stored` says whether the status of
the rollback goes through. -/
def rolledBackOnce (stored : Bool) : List Event :=
  [.reconcile (onDay 0 ["1.0.0"] .notFound),
    .reconcile { onDay 1 [] (.found unreadyCounts) with statusUpdate := stored },
    .reconcile (onDay 2 ["1.0.0"] .notFound)]

theorem noRetry_along_rolledBackOnce :
    (∃ s ∈ run (step sampleLibs realClient) (initial "openclaw" (some { enabled := true }))
        (rolledBackOnce true),
      s.log.map Entry.rolledBack = [none, some "1.0.0", none] ∧
        s.claw.autoUpdateStatus.rollbackCount = 1) ∧
    Along (step sampleLibs realClient) NoRetry (initial "openclaw" (some { enabled := true }))
      (rolledBackOnce true) :=
  ⟨by decide +kernel, noRetry_along sampleSemver_lawful realClient_keeps _ _
    (by decide +kernel)⟩

/-- **A rollback whose status is not stored.**  The annotations are cleared and `Status().Update`
fails: the rollback is not counted, 1.0.0 is not listed as failed, and the next check sets it as
the target again. -/
theorem retried_after_rollback :
    ∃ s ∈ run (step sampleLibs realClient) (initial "openclaw" (some { enabled := true }))
        (rolledBackOnce false),
      s.log.map Entry.rolledBack = [none, some "1.0.0", none] ∧
      s.log.map Entry.initiated = [some "1.0.0", none, some "1.0.0"] ∧
      s.claw.autoUpdateStatus.rollbackCount = 0 ∧
      s.claw.targetImage = "ghcr.io/prismer-ai/k8s4claw-openclaw:1.0.0" := by
  decide +kernel

end K8s4Claw.AutoUpdate
