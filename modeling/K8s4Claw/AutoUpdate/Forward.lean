/-
# Versions only move forward

The version of an update travels from a tag of the registry into the target image, from there,
when the health check passes, into `CurrentVersion`, over several calls whose writes may fail.
`Sound` links the update in progress to the stored status: its target image ends in a tag that was
eligible when the update was initiated, and the stored version has not changed since
(`forward_along`).
-/

import K8s4Claw.AutoUpdate.Reconcile

namespace K8s4Claw.AutoUpdate

open List
open Lib (Along run)

/-- The version a call recorded: it changed the stored one, to one that is not empty. -/
def Entry.recorded (e : Entry) : Option String :=
  if e.after.version ≠ e.before.version ∧ e.after.version ≠ "" then some e.after.version else none

/-- The versions recorded one after another. -/
def recordedVersions (log : List Entry) : List String := log.filterMap Entry.recorded

section

variable (L : Libs)

/-- Both parse, and `b` is the greater version. -/
def Below (a b : String) : Prop :=
  ∃ u v, L.newVersion a = some u ∧ L.newVersion b = some v ∧ L.greaterThan v u = true

/-- The version meets the constraint of this Claw and is not among its failed ones. -/
def AllowedBy (origin : Option Claw) (version : String) : Prop :=
  ∃ claw spec c v, origin = some claw ∧ claw.autoUpdate = some spec ∧
    L.newConstraint (versionConstraint spec) = some c ∧ L.newVersion version = some v ∧
    L.check c v = true ∧ version ∉ claw.autoUpdateStatus.failedVersions

/-- The recorded versions increase, and each was allowed when its update was initiated. -/
structure Forward (s : Sys) : Prop where
  increasing : (recordedVersions s.log).Pairwise (Below L)
  allowed : ∀ e ∈ s.log, ∀ version ∈ e.recorded, AllowedBy L e.origin version

/-- The stored version is the last one recorded, and the target of an update in progress is an
allowed version above it. -/
structure Sound (s : Sys) : Prop where
  forward : Forward L s
  parsed : s.claw.version ≠ "" → ∃ v, L.newVersion s.claw.version = some v
  latest : ∀ a ∈ recordedVersions s.log, a = s.claw.version ∨ Below L a s.claw.version
  pending : s.claw.InProgress → ∃ base tag, s.claw.targetImage = base ++ ":" ++ tag ∧
    AllowedBy L s.origin tag ∧ (s.claw.version ≠ "" → Below L s.claw.version tag)

end

section

variable {L : Libs} {client : Client} {s : Sys} {env : Env} {action : Action} {after : Claw}

theorem Below.trans (hL : L.toSemver.Lawful) {a b c : String} (hab : Below L a b)
    (hbc : Below L b c) : Below L a c := by
  obtain ⟨u, v, hu, hv, huv⟩ := hab
  obtain ⟨v', w, hv', hw, hvw⟩ := hbc
  obtain rfl := Option.some.inj (hv.symm.trans hv')
  exact ⟨u, w, hu, hw, hL.trans w v u hvw huv⟩

theorem not_below_empty (hL : L.toSemver.Lawful) {a : String} : ¬ Below L a "" := by
  rintro ⟨u, v, -, hv, -⟩
  rw [hL.nonempty] at hv
  cases hv

theorem ne_empty_of_mem_recordedVersions {log : List Entry} {a : String}
    (h : a ∈ recordedVersions log) : a ≠ "" := by
  obtain ⟨e, -, he⟩ := mem_filterMap.mp h
  unfold Entry.recorded at he
  split_ifs at he with hne
  cases he
  exact hne.2

theorem recordedVersions_append (log : List Entry) (e : Entry) :
    recordedVersions (log ++ [e]) = recordedVersions log ++ e.recorded.toList := by
  unfold recordedVersions
  cases h : e.recorded <;> simp [h]

section

variable (h : Sound L s) (hversion : after.version = s.claw.version)

include h hversion

theorem sound_called
    (hpending : after.InProgress → ∃ base tag, after.targetImage = base ++ ":" ++ tag ∧
      AllowedBy L (nextOrigin s env action) tag ∧
      (s.claw.version ≠ "" → Below L s.claw.version tag)) :
    Sound L (called s env action after) := by
  have hrecorded : Entry.recorded ⟨s.origin, s.claw, env, action, after⟩ = none := by
    simp [Entry.recorded, hversion]
  have hlog : recordedVersions (called s env action after).log = recordedVersions s.log := by
    simp [called, recordedVersions_append, hrecorded]
  constructor
  · refine ⟨?_, ?_⟩
    · rw [hlog]
      exact h.forward.increasing
    · rw [forall_mem_log_called, hrecorded]
      exact ⟨h.forward.allowed, by simp⟩
  · rw [called_claw, hversion]
    exact h.parsed
  · rw [hlog, called_claw, hversion]
    exact h.latest
  · rw [called_claw, hversion]
    exact hpending

theorem sound_called_of_annotations (hannotations : after.annotations = s.claw.annotations)
    (horigin : nextOrigin s env action = s.origin) : Sound L (called s env action after) := by
  refine sound_called h hversion fun hphase => ?_
  have hsame : s.claw.InProgress := by
    unfold Claw.InProgress at hphase ⊢
    rwa [hannotations] at hphase
  unfold Claw.targetImage
  rw [hannotations, horigin]
  exact h.pending hsame

end

theorem sound_called_passed (hL : L.toSemver.Lawful) (h : Sound L s) (hphase : ¬ after.InProgress)
    {tag : String} (hversion : after.version = tag) (hallowed : AllowedBy L s.origin tag)
    (hbelow : s.claw.version ≠ "" → Below L s.claw.version tag) :
    Sound L (called s env action after) := by
  subst hversion
  obtain ⟨-, -, c, v, -, -, -, hv, -⟩ := id hallowed
  have hne : after.version ≠ "" := by
    intro hempty
    rw [hempty, hL.nonempty] at hv
    cases hv
  -- everything recorded so far is below the new version
  have hall : ∀ a ∈ recordedVersions s.log, Below L a after.version := by
    intro a ha
    rcases h.latest a ha with rfl | hlt
    · exact hbelow (ne_empty_of_mem_recordedVersions ha)
    · have hcur : s.claw.version ≠ "" := by
        intro hempty
        rw [hempty] at hlt
        exact not_below_empty hL hlt
      exact hlt.trans hL (hbelow hcur)
  by_cases hsame : after.version = s.claw.version
  · exact sound_called h hsame fun hin => absurd hin hphase
  have hrecorded : Entry.recorded ⟨s.origin, s.claw, env, action, after⟩ = some after.version :=
    if_pos ⟨hsame, hne⟩
  have hlog : recordedVersions (called s env action after).log =
      recordedVersions s.log ++ [after.version] := by
    simp [called, recordedVersions_append, hrecorded]
  constructor
  · refine ⟨?_, ?_⟩
    · rw [hlog, pairwise_append]
      refine ⟨h.forward.increasing, pairwise_singleton .., fun a ha b hb => ?_⟩
      rw [mem_singleton.mp hb]
      exact hall a ha
    · rw [forall_mem_log_called, hrecorded]
      refine ⟨h.forward.allowed, fun version hversion => ?_⟩
      cases hversion
      exact hallowed
  · exact fun _ => ⟨v, hv⟩
  · rw [hlog, forall_mem_append]
    exact ⟨fun a ha => .inr (hall a ha), by simp⟩
  · exact fun hin => absurd hin hphase

/-- What an update that is initiated sets as its target. -/
theorem allowedBy_of_resolveBestVersion (hL : L.toSemver.Lawful) {claw : Claw}
    {spec : AutoUpdateSpec} {tags : List String} {tag : String}
    (hspec : claw.autoUpdate = some spec)
    (hparsed : claw.version ≠ "" → ∃ v, L.newVersion claw.version = some v)
    (hbest : resolveBestVersion L.toSemver tags (versionConstraint spec) claw.version
      claw.autoUpdateStatus.failedVersions = some tag) :
    AllowedBy L (some claw) tag ∧ (claw.version ≠ "" → Below L claw.version tag) := by
  obtain ⟨c, v, hc, hv, hcheck, hfailed, habove⟩ := eligible_of_resolveBestVersion hL hbest
  rw [hL.original tag v hv] at hfailed
  refine ⟨⟨claw, spec, c, v, rfl, hspec, hc, hv, hcheck, hfailed⟩, fun hne => ?_⟩
  obtain ⟨u, hu⟩ := hparsed hne
  refine ⟨u, v, hu, hv, habove u ?_⟩
  rw [currentVersion, if_neg hne]
  exact hu

end

section

variable {L : Libs} {client : Client} {s t : Sys} {env : Env} {action : Action} {after : Claw}

variable (hL : L.toSemver.Lawful) (hclient : client.Lawful) (h : Sound L s)

include hL hclient h

/-- **A call keeps the invariant.** -/
theorem sound_call (hcall : Call L client s.claw env action after) :
    Sound L (called s env action after) := by
  cases hcall with
  | still _ _ hupdate =>
    exact sound_called_of_annotations h rfl rfl (nextOrigin_of_update hupdate)
  | checked _ _ _ hcheck _ hsame =>
    refine sound_called_of_annotations h hsame.currentVersion rfl (nextOrigin_of_update ?_)
    exact fun tr annotations heq => absurd heq (hcheck tr annotations)
  | wrote _ _ _ hdoes hupdate hstatus =>
    cases hdoes with
    | initiated _ _ newVersion hspec _ _ hbest =>
      obtain ⟨hallowed, hbelow⟩ := allowedBy_of_resolveBestVersion hL hspec h.parsed hbest
      refine sound_called h ?_ fun _ => ⟨_, newVersion, rfl, ?_, hbelow⟩
      · cases hstatus with
        | written =>
          refine (hclient.currentVersion_written (.initiate newVersion env.now) _).elim ?_ id
          rw [computed_initiate]
          exact id
        | failed => rfl
      · simpa [nextOrigin, hupdate] using hallowed
    | passed _ _ _ hphase =>
      obtain ⟨base, tag, htarget, hallowed, hbelow⟩ := h.pending hphase
      have hextract : extractVersionFromImage s.claw.targetImage = tag := by
        obtain ⟨-, -, c, v, -, -, -, hv, -⟩ := id hallowed
        obtain ⟨hslash, hcolon⟩ := hL.noSeparator tag v hv
        rw [htarget, extractVersionFromImage_tag base hslash hcolon]
      cases hstatus with
      | failed => exact sound_called h rfl fun hin => by cases hin
      | written =>
        rcases hclient.currentVersion_written
          (.passed (extractVersionFromImage s.claw.targetImage) env.now) s.claw.status with
          hversion | hversion
        · -- the version of the target is stored
          rw [computed_passed] at hversion
          exact sound_called_passed hL h (fun hin => by cases hin) (hversion.trans hextract)
            hallowed hbelow
        · -- the response put the old version back
          exact sound_called h hversion fun hin => by cases hin
    | rolledBack =>
      refine sound_called h ?_ fun hin => by cases hin
      cases hstatus with
      | written =>
        refine (hclient.currentVersion_written (.rollback _ env.now) _).elim ?_ id
        rw [computed_rollback]
        exact id
      | failed => rfl

theorem sound_step {event : Event} (hstep : step L client s event = some t) : Sound L t := by
  cases event with
  | reconcile env =>
    cases hstep
    exact sound_call hL hclient h (reconcile_call L client s.claw env)
  | edit =>
    cases hstep
    exact ⟨⟨h.forward.increasing, h.forward.allowed⟩, h.parsed, h.latest, h.pending⟩

end

/-- **The recorded versions increase, and each was allowed when its update was initiated**, in every
state of every run: with any tags, edits and health checks, whichever writes fail, and for every
client. -/
theorem forward_along {L : Libs} (hL : L.toSemver.Lawful) {client : Client}
    (hclient : client.Lawful) (runtime : String) (spec : Option AutoUpdateSpec)
    (events : List Event) :
    Along (step L client) (Forward L) (initial runtime spec) events := by
  have hinit : Sound L (initial runtime spec) := by
    refine ⟨⟨.nil, ?_⟩, fun hne => absurd rfl hne, ?_, fun hin => by cases hin⟩
    · simp [initial]
    · simp [initial, recordedVersions]
  exact Lib.along_of_step (fun s event t hs hstep => sound_step hL hclient hs hstep)
    (fun s hs => hs.forward) hinit

/-- Two updates, with a check on each of three days. -/
def twoUpdates : List Event :=
  [.reconcile (onDay 0 ["1.0.0", "latest"] .notFound),
    .reconcile (onDay 0 [] (.found readyCounts)),
    .reconcile (onDay 2 ["1.0.0", "1.1.0"] .notFound),
    .reconcile (onDay 2 [] (.found readyCounts))]

theorem forward_along_twoUpdates :
    ((run (step sampleLibs realClient) (initial "openclaw" (some { enabled := true }))
      twoUpdates).map fun s => recordedVersions s.log) = some ["1.0.0", "1.1.0"] ∧
    Along (step sampleLibs realClient) (Forward sampleLibs)
      (initial "openclaw" (some { enabled := true })) twoUpdates :=
  ⟨by decide +kernel, forward_along sampleSemver_lawful realClient_keeps.lawful _ _ _⟩

end K8s4Claw.AutoUpdate
