/-
# The mounts of a workload

Five builders of `internal/runtime/pod_builder.go` and `internal/controller` add mounts to a pod,
and two others the volumes that they name: `buildVolumes` those of the template and
`BuildVolumeClaimTemplates` the claims for `session`, `output` and `workspace`.

That no two shared volumes have one name and that the output volume of an enabled archive is itself
enabled, which the mounts need (`mounts_resolve_iff`), is not checked.

`ensureStatefulSet` of `claw_controller.go` puts the new template and the number of replicas into a
StatefulSet that is there and leaves its claims as they were (`mounts_backed_iff`).
-/

import K8s4Claw.Operator.Updates
import Mathlib.Data.List.Count

namespace K8s4Claw.Operator

open List
open Lib (run Along Meets)

/-! ## Names -/

/-- What holds of all three volumes can be decided. -/
instance (P : ClaimVolume → Prop) [DecidablePred P] : Decidable (∀ v, P v) :=
  decidable_of_iff (P .session ∧ P .output ∧ P .workspace)
    ⟨fun h v => match v with
      | .session => h.1
      | .output => h.2.1
      | .workspace => h.2.2, fun h => ⟨h .session, h .output, h .workspace⟩⟩

def ClaimVolume.name : ClaimVolume → String
  | .session => "session"
  | .output => "output"
  | .workspace => "workspace"

/-- The claims that are built for a spec. -/
def ClawSpec.claimNames (spec : ClawSpec) : List String :=
  ([ClaimVolume.session, .output, .workspace].filter fun v => (spec.claim v).isSome).map
    ClaimVolume.name

/-- The volumes of the template besides the shared ones. -/
def ClawSpec.ownVolumeNames (spec : ClawSpec) : List String :=
  ["ipc-socket", "wal-data", "config-vol", "tmp"] ++ spec.cache.toList.map fun _ => "cache"

/-- The volume of a shared one. -/
def sharedName (name : String) : String := "shared-" ++ name

/-- The volumes that are built for a spec. -/
def ClawSpec.volumeNames (spec : ClawSpec) : List String :=
  spec.ownVolumeNames ++ spec.shared.map (fun s => sharedName s.name) ++ spec.claimNames

/-- The volumes of the template and the claims. -/
def StatefulSet.volumeNames (sts : StatefulSet) : List String :=
  sts.template.volumes.map (·.name) ++ sts.volumeClaimTemplates.map (·.name)

/-- The mounts of all containers. -/
def PodTemplate.mounts (t : PodTemplate) : List VolumeMount :=
  (t.initContainers ++ t.containers).flatMap (·.volumeMounts)

/-- Every mount names exactly one volume. -/
def StatefulSet.Resolved (sts : StatefulSet) : Prop :=
  ∀ m ∈ sts.template.mounts, sts.volumeNames.count m.name = 1
  deriving Decidable

section

variable {L : Libs} {cluster : Cluster} {native : Bool} {claw : Claw} {adapter : RuntimeAdapter}
  {sts : StatefulSet} {spec : ClawSpec} {v : ClaimVolume}

/-- No adapter brings volumes of its own, and one of them another mount of the config. -/
theorem extras_of_registry {runtime : RuntimeType} (h : registry L runtime = some adapter) :
    adapter.runtimeSpec.extraVolumes = [] ∧
      ∀ m ∈ adapter.runtimeSpec.extraVolumeMounts, m.name = "config-vol" := by
  cases runtime <;> cases h <;>
    simp [openClawAdapter, hermesClawAdapter, hermesRSAdapter, k8sOpsAdapter]

theorem name_of_buildVolumes {spec : RuntimeSpec} {volumes : List Volume}
    (h : buildVolumes L claw spec = .ok volumes) :
    volumes.map (·.name) =
      claw.spec.ownVolumeNames ++ claw.spec.shared.map (fun s => sharedName s.name) ++
        spec.extraVolumes.map (·.name) := by
  obtain ⟨walSize, -, h⟩ := bind_eq_ok h
  obtain ⟨cache, hcache, h⟩ := bind_eq_ok h
  cases h
  have hname : cache.map (·.name) = claw.spec.cache.toList.map fun _ => "cache" := by
    cases hspec : claw.spec.cache with
    | none =>
      rw [hspec] at hcache
      cases hcache
      rfl
    | some =>
      rw [hspec] at hcache
      obtain ⟨-, -, rfl⟩ := map_eq_ok hcache
      rfl
  simp [podVolumes, ClawSpec.ownVolumeNames, hname, sharedName]

variable {claims : List PersistentVolumeClaim} {a : String}

theorem name_of_mapM_pvcTemplate {vols : List (String × VolumeSpec)}
    (h : vols.mapM (fun p => pvcTemplate L claw p.1 p.2) = .ok claims) :
    claims.map (·.name) = vols.map Prod.fst := by
  induction vols generalizing claims with
  | nil =>
    cases h
    rfl
  | cons p _ ih =>
    rw [mapM_cons] at h
    obtain ⟨claim, hclaim, h⟩ := bind_eq_ok h
    obtain ⟨rest, hrest, h⟩ := bind_eq_ok h
    cases h
    obtain ⟨-, -, rfl⟩ := map_eq_ok hclaim
    rw [map_cons, map_cons, ih hrest]

theorem claimNames_eq (spec : ClawSpec) :
    spec.claimNames =
      spec.session.toList.map (fun _ => "session") ++ spec.output.toList.map (fun _ => "output") ++
        spec.workspace.toList.map fun _ => "workspace" := by
  unfold ClawSpec.claimNames ClawSpec.claim
  cases spec.session <;> cases spec.output <;> cases spec.workspace <;> rfl

theorem name_of_buildVolumeClaimTemplates (h : buildVolumeClaimTemplates L claw = .ok claims) :
    claims.map (·.name) = claw.spec.claimNames := by
  rw [name_of_mapM_pvcTemplate h, claimNames_eq]
  simp [Function.comp_def]

/-- **The names of the volumes:** those of the Claw itself, the shared ones and the claims. -/
theorem volumeNames_of_build (hadapter : registry L claw.spec.runtime = some adapter)
    (h : buildStatefulSet L cluster native claw adapter = .ok sts) :
    sts.volumeNames = claw.spec.volumeNames := by
  obtain ⟨-, -, hvolumes, hclaims⟩ := built_of_build h
  rw [StatefulSet.volumeNames, name_of_buildVolumes hvolumes,
    name_of_buildVolumeClaimTemplates hclaims, (extras_of_registry hadapter).1]
  simp [ClawSpec.volumeNames]

/-! ## Which names there are -/

theorem sharedName_injective : Function.Injective sharedName := by
  intro a b h
  have hlist : a.toList = b.toList := by
    simpa [sharedName] using congrArg String.toList h
  exact String.toList_injective hlist

/-- The names of the volumes that are not shared, with all features enabled. -/
def ownNames : List String :=
  ["ipc-socket", "wal-data", "config-vol", "tmp", "cache", "session", "output", "workspace"]

theorem sublist_ownVolumeNames :
    spec.ownVolumeNames.Sublist ["ipc-socket", "wal-data", "config-vol", "tmp", "cache"] := by
  refine List.Sublist.append (List.Sublist.refl _) ?_
  cases spec.cache with
  | none => exact nil_sublist _
  | some => exact List.Sublist.refl _

theorem sublist_ownNames : (spec.ownVolumeNames ++ spec.claimNames).Sublist ownNames := by
  have hclaims : spec.claimNames.Sublist ["session", "output", "workspace"] :=
    filter_sublist.map _
  exact sublist_ownVolumeNames.append hclaims

theorem sharedName_not_mem_ownNames (name : String) : sharedName name ∉ ownNames := by
  intro h
  -- the second letter tells the shared volumes from the others
  have hsecond : ∀ a ∈ ownNames, a.toList[1]? ≠ some 'h' := by decide
  exact hsecond _ h (by simp [sharedName])

/-- **The names differ** if those of the shared volumes do. -/
theorem nodup_volumeNames_iff : spec.volumeNames.Nodup ↔ (spec.shared.map (·.name)).Nodup := by
  have hperm : spec.volumeNames.Perm
      (spec.ownVolumeNames ++ spec.claimNames ++ spec.shared.map fun s => sharedName s.name) := by
    unfold ClawSpec.volumeNames
    rw [append_assoc, append_assoc]
    exact perm_append_comm.append_left _
  have hmap : spec.shared.map (fun s => sharedName s.name) =
      (spec.shared.map (·.name)).map sharedName := by
    rw [map_map]
    rfl
  have hdisjoint : (spec.ownVolumeNames ++ spec.claimNames).Disjoint
      (spec.shared.map fun s => sharedName s.name) := by
    intro a hown hshared
    obtain ⟨s, -, rfl⟩ := mem_map.mp hshared
    exact sharedName_not_mem_ownNames s.name (sublist_ownNames.subset hown)
  rw [hperm.nodup_iff, nodup_append', hmap, nodup_map_iff sharedName_injective]
  constructor
  · rintro ⟨-, hshared, -⟩
    exact hshared
  · intro hshared
    exact ⟨sublist_ownNames.nodup (by decide), hshared, hmap ▸ hdisjoint⟩

theorem mem_claimNames : v.name ∈ spec.claimNames ↔ (spec.claim v).isSome := by
  have hname : Function.Injective ClaimVolume.name := by
    intro v w
    cases v <;> cases w <;> decide
  rw [ClawSpec.claimNames, mem_map_of_injective hname, mem_filter]
  refine and_iff_right ?_
  cases v <;> decide

theorem mem_volumeNames_iff : v.name ∈ spec.volumeNames ↔ (spec.claim v).isSome := by
  have hown : v.name ∉ spec.ownVolumeNames := by
    intro h
    have h := sublist_ownVolumeNames.subset h
    revert h
    cases v <;> decide
  have hshared : v.name ∉ spec.shared.map fun s => sharedName s.name := by
    intro h
    obtain ⟨s, -, hs⟩ := mem_map.mp h
    refine sharedName_not_mem_ownNames s.name ?_
    rw [hs]
    cases v <;> decide
  rw [ClawSpec.volumeNames, mem_append, mem_claimNames]
  simp [hown, hshared]

/-! ## The mounts -/

theorem runtimeContainer_volumeMounts (claw : Claw) (spec : RuntimeSpec) :
    (runtimeContainer claw spec).volumeMounts = (buildRuntimeContainer claw spec).volumeMounts := by
  unfold runtimeContainer
  cases claw.spec.credentials <;> rfl

theorem name_of_runtime_mounts (claw : Claw) (spec : RuntimeSpec) :
    (buildRuntimeContainer claw spec).volumeMounts.map (·.name) =
      claw.spec.ownVolumeNames ++ claw.spec.claimNames ++
        claw.spec.shared.map (fun s => sharedName s.name) ++
        spec.extraVolumeMounts.map (·.name) := by
  simp [buildRuntimeContainer, podMounts, persistenceMounts, ClawSpec.ownVolumeNames,
    claimNames_eq, sharedName, Function.comp_def]

theorem mem_volumeNames_of_base (h : a ∈ ["ipc-socket", "wal-data", "config-vol", "tmp"]) :
    a ∈ spec.volumeNames :=
  mem_append_left _ (mem_append_left _ (mem_append_left _ h))

theorem exists_runtime_mount_iff {runtime : RuntimeSpec}
    (hextra : ∀ m ∈ runtime.extraVolumeMounts, m.name = "config-vol") :
    (∃ m ∈ (runtimeContainer claw runtime).volumeMounts, m.name = a) ↔
      a ∈ claw.spec.volumeNames := by
  have hnames : a ∈ (buildRuntimeContainer claw runtime).volumeMounts.map (·.name) ↔
      a ∈ claw.spec.volumeNames ∨ a ∈ runtime.extraVolumeMounts.map (·.name) := by
    simp only [name_of_runtime_mounts, ClawSpec.volumeNames, mem_append]
    tauto
  have hconfig : a ∈ runtime.extraVolumeMounts.map (·.name) → a ∈ claw.spec.volumeNames := by
    intro h
    obtain ⟨m, hm, rfl⟩ := mem_map.mp h
    rw [hextra m hm]
    exact mem_volumeNames_of_base (by decide)
  rw [runtimeContainer_volumeMounts, ← mem_map, hnames]
  exact or_iff_left_of_imp hconfig

theorem init_mount_mem_volumeNames {runtime : RuntimeSpec} {m : VolumeMount}
    (h : m ∈ (buildInitContainer claw runtime).volumeMounts) : m.name ∈ claw.spec.volumeNames := by
  rcases mem_append.mp h with h | h
  · simp only [mem_cons, not_mem_nil, or_false] at h
    rcases h with rfl | rfl <;> exact mem_volumeNames_of_base (by decide)
  · obtain ⟨p, hp, rfl⟩ := mem_map.mp h
    have hworkspace : (claw.spec.claim .workspace).isSome :=
      Option.isSome_iff_exists.mpr ⟨p, Option.mem_toList.mp hp⟩
    exact mem_volumeNames_iff.mpr hworkspace

theorem mem_mounts {t : PodTemplate} {m : VolumeMount} :
    m ∈ t.mounts ↔ ∃ c ∈ t.initContainers ++ t.containers, m ∈ c.volumeMounts :=
  mem_flatMap

/-- **The names of the mounts:** those of all volumes, and the output volume of an enabled
archive. -/
theorem exists_mount_iff (hadapter : registry L claw.spec.runtime = some adapter)
    (h : buildStatefulSet L cluster native claw adapter = .ok sts) :
    (∃ m ∈ sts.template.mounts, m.name = a) ↔
      a ∈ claw.spec.volumeNames ∨ claw.spec.archive.isSome ∧ a = "output" := by
  have hinit := (built_of_build h).initContainers
  have hcontainers := (built_of_build h).containers
  have hruntime : (∃ m ∈ (runtimeContainer claw adapter.runtimeSpec).volumeMounts, m.name = a) ↔
      a ∈ claw.spec.volumeNames :=
    exists_runtime_mount_iff (extras_of_registry hadapter).2
  constructor
  · rintro ⟨m, hm, rfl⟩
    obtain ⟨c, hc, hm⟩ := mem_mounts.mp hm
    have hsidecars : c ∈ sidecars L cluster native claw.ns claw.spec.channels →
        m.name ∈ claw.spec.volumeNames := by
      intro hc
      obtain ⟨ref, -, hc⟩ := mem_filterMap.mp hc
      obtain ⟨channel, -, rfl⟩ := Option.map_eq_some_iff.mp hc
      obtain rfl := mem_singleton.mp hm
      exact mem_volumeNames_of_base (by decide)
    rw [hinit, hcontainers] at hc
    simp only [mem_append, mem_cons, mem_map, mem_ite_nil_left,
      mem_ite_nil_right, not_mem_nil, or_false] at hc
    rcases hc with (((rfl | ⟨-, rfl⟩) | ⟨-, hc⟩) | ⟨archive, harchive, rfl⟩) | rfl | ⟨-, hc⟩
    · exact .inl (init_mount_mem_volumeNames hm)
    · simp only [ipcBusContainer, mem_cons, not_mem_nil, or_false] at hm
      rcases hm with rfl | rfl <;> exact .inl (mem_volumeNames_of_base (by decide))
    · exact .inl (hsidecars hc)
    · obtain rfl := mem_singleton.mp hm
      exact .inr ⟨Option.isSome_iff_exists.mpr ⟨archive, Option.mem_toList.mp harchive⟩, rfl⟩
    · exact .inl (hruntime.mp ⟨m, hm, rfl⟩)
    · exact .inl (hsidecars hc)
  · rintro (hmem | ⟨harchive, rfl⟩)
    · obtain ⟨m, hm, hname⟩ := hruntime.mpr hmem
      refine ⟨m, mem_mounts.mpr ⟨_, ?_, hm⟩, hname⟩
      rw [hcontainers]
      simp
    · obtain ⟨archive, harchive⟩ := Option.isSome_iff_exists.mp harchive
      have hmem : archiverContainer archive.1 archive.2 ∈
          sts.template.initContainers ++ sts.template.containers := by
        rw [hinit]
        simp [harchive]
      exact ⟨_, mem_mounts.mpr ⟨_, hmem, mem_singleton_self _⟩, rfl⟩

/-- **When every mount of a workload resolves:** for every version a Claw can have, in every
cluster and with native sidecars or without, each mount of the StatefulSet that is built names
exactly one volume if and only if the shared volumes have different names and an archive that is
enabled is one of an output volume that is. -/
theorem mounts_resolve_iff (hclaw : Accepted L claw) :
    ∃ adapter, registry L claw.spec.runtime = some adapter ∧
      ∀ (cluster : Cluster) (native : Bool) (sts : StatefulSet),
        buildStatefulSet L cluster native claw adapter = .ok sts →
          (sts.Resolved ↔
            (claw.spec.shared.map (·.name)).Nodup ∧
              (claw.spec.archive.isSome → claw.spec.output.isSome)) := by
  obtain ⟨adapter, hadapter⟩ := Option.isSome_iff_exists.mp hclaw.registered
  refine ⟨adapter, hadapter, fun cluster native sts h => ?_⟩
  have houtput : "output" ∈ claw.spec.volumeNames ↔ claw.spec.output.isSome := by
    rw [← Option.isSome_map]
    exact mem_volumeNames_iff (v := .output)
  have hmounts : sts.Resolved ↔
      ∀ a, a ∈ claw.spec.volumeNames ∨ claw.spec.archive.isSome ∧ a = "output" →
        claw.spec.volumeNames.count a = 1 := by
    unfold StatefulSet.Resolved
    rw [volumeNames_of_build hadapter h]
    simp only [← exists_mount_iff hadapter h]
    constructor
    · rintro hall a ⟨m, hm, rfl⟩
      exact hall m hm
    · intro hall m hm
      exact hall m.name ⟨m, hm, rfl⟩
  rw [hmounts, ← nodup_volumeNames_iff, ← houtput, nodup_iff_count_eq_one]
  constructor
  · intro hall
    refine ⟨fun a ha => hall a (.inl ha), fun harchive => ?_⟩
    have hone := hall "output" (.inr ⟨harchive, rfl⟩)
    exact count_pos_iff.mp (by omega)
  · rintro ⟨honce, harchived⟩ a (ha | ⟨harchive, rfl⟩)
    · exact honce a ha
    · exact honce _ (harchived harchive)

end

/-! ### An archive and two shared volumes -/

/-- A Claw whose output is archived, with this output volume. -/
def archivedClaw (enabled : Bool) : Claw :=
  { plainClaw with
    spec.persistence := some
      { output := some
          { enabled := enabled
            size := "512Mi"
            mountPath := "/output"
            archive := some
              { enabled := true
                destination := { type := "s3", bucket := "out", secretRef := "s3" }
                trigger := { schedule := "0 * * * *" } } } } }

/-- A Claw with two shared volumes. -/
def sharingClaw (first second : String) : Claw :=
  { plainClaw with
    spec.persistence := some
      { shared :=
          [{ name := first, claimName := "models", mountPath := "/models" },
            { name := second, claimName := "data", mountPath := "/data" }] } }

theorem mounts_resolve_archivedClaw :
    Accepted sampleLibs (archivedClaw true) ∧
      ∃ sts ∈ (buildStatefulSet sampleLibs plainCluster true (archivedClaw true)
          (openClawAdapter sampleLibs)).toOption, sts.Resolved := by
  have hclaw : Accepted sampleLibs (archivedClaw true) := .create (by decide +kernel)
  obtain ⟨adapter, hadapter, hiff⟩ := mounts_resolve_iff hclaw
  obtain rfl : openClawAdapter sampleLibs = adapter := Option.some.inj hadapter
  have hok : (buildStatefulSet sampleLibs plainCluster true (archivedClaw true)
      (openClawAdapter sampleLibs)).isOk = true := by
    decide +kernel
  obtain ⟨sts, hsts⟩ := exists_eq_ok hok
  rw [hsts]
  refine ⟨hclaw, sts, rfl, (hiff plainCluster true sts hsts).mpr ?_⟩
  decide +kernel

theorem mounts_unresolved :
    (validateCreate sampleLibs (archivedClaw false) = [] ∧
      ∃ sts ∈ (buildStatefulSet sampleLibs plainCluster true (archivedClaw false)
          (openClawAdapter sampleLibs)).toOption,
        ¬ sts.Resolved ∧ sts.volumeNames.count "output" = 0) ∧
    validateCreate sampleLibs (sharingClaw "models" "models") = [] ∧
      ∃ sts ∈ (buildStatefulSet sampleLibs plainCluster true (sharingClaw "models" "models")
          (openClawAdapter sampleLibs)).toOption,
        ¬ sts.Resolved ∧ sts.volumeNames.count "shared-models" = 2 := by
  decide +kernel

/-! ## Updates of the StatefulSet -/

section

variable (L : Libs)

/-- `ensureStatefulSet`: the StatefulSet that is stored then.  `get` is the answer of the API server
for the one that is there, and `write` the error of creating or updating it. -/
def ensureStatefulSet (cluster : Cluster) (native : Bool) (claw : Claw) (adapter : RuntimeAdapter)
    (get : Except String (Option StatefulSet)) (write : Option String) :
    Except Failure StatefulSet := do
  let desired ← (buildStatefulSet L cluster native claw adapter).mapError
    (Failure.wrap "failed to build StatefulSet: ")
  match get, write with
  | .error err, _ => .error (.failed ("failed to get StatefulSet: " ++ err))
  | .ok none, some err => .error (.failed ("failed to create StatefulSet: " ++ err))
  | .ok none, none => .ok desired
  | .ok (some _), some err => .error (.failed ("failed to update StatefulSet: " ++ err))
  | .ok (some existing), none =>
      -- the claims stay
      .ok { existing with template := desired.template, replicas := desired.replicas }

/-- A version of a Claw, and what the API server answers while it is reconciled. -/
structure Version where
  claw : Claw
  cluster : Cluster
  native : Bool
  get : Option String := none
  write : Option String := none

/-- The current version, and the StatefulSet with the version that it was created for. -/
structure Deployment where
  current : Option Claw := none
  stored : Option (Claw × StatefulSet) := none

section

variable (s : Deployment)

/-- The webhook accepts the version. -/
def Deployment.accepts (claw : Claw) : Bool :=
  match s.current with
  | none => (validateCreate L claw).isEmpty
  | some oldObj => (validateUpdate L oldObj claw).isEmpty

/-- What `ensureStatefulSet` makes of the StatefulSet for a version. -/
def Deployment.ensure (e : Version) : Option StatefulSet :=
  (registry L e.claw.spec.runtime).bind fun adapter =>
    (ensureStatefulSet L e.cluster e.native e.claw adapter
      (match e.get with
        | some err => .error err
        | none => .ok (s.stored.map (·.2))) e.write).toOption

/-- The version that the claims are those of, once this one is stored. -/
def Deployment.origin (claw : Claw) : Claw := (s.stored.map (·.1)).getD claw

/-- A version that is accepted, and then `ensureStatefulSet`. -/
def versionStep (e : Version) : Option Deployment :=
  if s.accepts L e.claw then
    some
      { current := some e.claw
        stored :=
          match s.ensure L e with
          | none => s.stored
          | some sts => some (s.origin e.claw, sts) }
  else none

/-- Every mount of one of the three volumes has its claim. -/
def Deployment.Backed : Prop :=
  ∀ p ∈ s.stored, ∀ m ∈ p.2.template.mounts, ∀ v : ClaimVolume, m.name = v.name →
    v.name ∈ p.2.volumeClaimTemplates.map (·.name)
  deriving Decidable

end

/-- The volume is mounted: it is enabled, or it is the output volume of an enabled archive. -/
def ClawSpec.Mounted (spec : ClawSpec) (v : ClaimVolume) : Prop :=
  (spec.claim v).isSome ∨ v = .output ∧ spec.archive.isSome
  deriving Decidable

/-- If the version comes to be stored, it mounts only volumes that were enabled in the version that
the StatefulSet was created for. -/
def MountsEnabled (s : Deployment) (e : Version) : Prop :=
  (s.ensure L e).isSome →
    ∀ v : ClaimVolume, e.claw.spec.Mounted v → ((s.origin e.claw).spec.claim v).isSome
  deriving Decidable

variable {L} {cluster : Cluster} {native : Bool} {claw : Claw} {adapter : RuntimeAdapter}
  {s t : Deployment} {e : Version}

variable {sts : StatefulSet}

theorem eq_ok_of_toOption {α : Type} {x : Except Failure α} {a : α} (h : x.toOption = some a) :
    x = .ok a := by
  cases x with
  | error => cases h
  | ok => exact congrArg Except.ok (Option.some.inj h)

theorem build_of_ensure {get : Except String (Option StatefulSet)} {write : Option String}
    (h : ensureStatefulSet L cluster native claw adapter get write = .ok sts) :
    ∃ existing desired, get = .ok existing ∧
      buildStatefulSet L cluster native claw adapter = .ok desired ∧
      sts.template = desired.template ∧
      sts.volumeClaimTemplates = (existing.getD desired).volumeClaimTemplates := by
  obtain ⟨desired, hdesired, h⟩ := bind_eq_ok h
  cases get with
  | error => cases h
  | ok existing =>
    refine ⟨existing, desired, rfl, mapError_eq_ok hdesired, ?_⟩
    cases existing with
    | none =>
      cases write with
      | some => cases h
      | none =>
        cases h
        exact ⟨rfl, rfl⟩
    | some =>
      cases write with
      | some => cases h
      | none =>
        cases h
        exact ⟨rfl, rfl⟩

/-- The claims of the StatefulSet are those of the version that it was created for. -/
def Deployment.ClaimsOfOrigin (s : Deployment) : Prop :=
  ∀ p ∈ s.stored, p.2.volumeClaimTemplates.map (·.name) = p.1.spec.claimNames

theorem stored_of_ensure (hs : s.ClaimsOfOrigin) (h : s.ensure L e = some sts) :
    sts.volumeClaimTemplates.map (·.name) = (s.origin e.claw).spec.claimNames ∧
      ∀ v : ClaimVolume, (∃ m ∈ sts.template.mounts, m.name = v.name) ↔ e.claw.spec.Mounted v := by
  obtain ⟨adapter, hadapter, h⟩ := Option.bind_eq_some_iff.mp h
  obtain ⟨existing, desired, hget, hbuild, htemplate, hclaims⟩ :=
    build_of_ensure (eq_ok_of_toOption h)
  obtain rfl : s.stored.map (·.2) = existing := by
    cases hget' : e.get with
    | none =>
      rw [hget'] at hget
      exact Except.ok.inj hget
    | some =>
      rw [hget'] at hget
      cases hget
  refine ⟨?_, fun v => ?_⟩
  · rw [hclaims]
    unfold Deployment.origin
    cases hstored : s.stored with
    | none => exact name_of_buildVolumeClaimTemplates (built_of_build hbuild).claims
    | some p => exact hs p hstored
  · rw [htemplate]
    have houtput : v.name = "output" ↔ v = .output := by
      cases v <;> decide
    rw [exists_mount_iff hadapter hbuild, mem_volumeNames_iff, houtput, ClawSpec.Mounted]
    simp only [and_comm]

theorem stored_of_step (h : versionStep L s e = some t) :
    (s.ensure L e = none ∧ t.stored = s.stored) ∨
      ∃ sts, s.ensure L e = some sts ∧ t.stored = some (s.origin e.claw, sts) := by
  unfold versionStep at h
  split_ifs at h
  cases h
  cases s.ensure L e with
  | none => exact .inl ⟨rfl, rfl⟩
  | some sts => exact .inr ⟨sts, rfl, rfl⟩

theorem claimsOfOrigin_step (hs : s.ClaimsOfOrigin) (h : versionStep L s e = some t) :
    t.ClaimsOfOrigin := by
  unfold Deployment.ClaimsOfOrigin
  obtain ⟨-, hstored⟩ | ⟨sts, hensure, hstored⟩ := stored_of_step h
  · rw [hstored]
    exact hs
  · rintro p hp
    obtain rfl := Option.some.inj (hstored.symm.trans hp)
    exact (stored_of_ensure hs hensure).1

/-- **One version keeps the mounts backed** exactly if it mounts no volume without a claim. -/
theorem backed_step_iff (hs : s.ClaimsOfOrigin) (hback : s.Backed)
    (h : versionStep L s e = some t) : t.Backed ↔ MountsEnabled L s e := by
  unfold Deployment.Backed MountsEnabled
  obtain ⟨hensure, hstored⟩ | ⟨sts, hensure, hstored⟩ := stored_of_step h
  · rw [hstored, hensure]
    exact iff_of_true hback nofun
  · obtain ⟨hclaims, hmounts⟩ := stored_of_ensure hs hensure
    rw [hstored, hensure]
    simp only [Option.mem_def, Option.some.injEq, forall_eq', hclaims, mem_claimNames,
      Option.isSome_some, true_imp_iff, ← hmounts]
    constructor
    · rintro hall v ⟨m, hm, hname⟩
      exact hall m hm v hname
    · intro hall m hm v hname
      exact hall v ⟨m, hm, hname⟩

/-- **When the mounts stay backed:** over every sequence of accepted versions, whatever API calls
fail, the mounts of the session, output and workspace volumes have their claims all along exactly
if no version that comes to be stored mounts one that the version at creation had not enabled. -/
theorem mounts_backed_iff {versions : List Version} {t : Deployment}
    (h : run (versionStep L) {} versions = some t) :
    Along (versionStep L) Deployment.Backed {} versions ↔
      Meets (versionStep L) (MountsEnabled L) {} versions := by
  have horigin : Deployment.ClaimsOfOrigin {} := by
    intro p hp
    cases hp
  have hback : Deployment.Backed {} := by
    intro p hp
    cases hp
  exact Lib.along_iff_meets (fun _ _ _ hs hstep => claimsOfOrigin_step hs hstep)
    (fun _ _ _ hs hback hstep => backed_step_iff hs hback hstep) horigin hback h

end

/-! ### A session that is enabled later -/

/-- A version in a cluster whose API calls succeed. -/
def Version.plain (claw : Claw) : Version where
  claw := claw
  cluster := plainCluster
  native := true

/-- A session that is there from the start, disabled, and enabled again. -/
def pausedVersions : List Version :=
  [.plain (plainClaw.withSession halfSession),
    .plain (plainClaw.withSession { halfSession with enabled := false }),
    .plain (plainClaw.withSession halfSession)]

theorem mounts_backed_paused :
    ∃ t, run (versionStep sampleLibs) {} pausedVersions = some t ∧
      Along (versionStep sampleLibs) Deployment.Backed {} pausedVersions := by
  have hsome : (run (versionStep sampleLibs) {} pausedVersions).isSome := by decide +kernel
  obtain ⟨t, ht⟩ := Option.isSome_iff_exists.mp hsome
  refine ⟨t, ht, (mounts_backed_iff ht).mpr ?_⟩
  decide +kernel

/-- A session that is enabled in the second version. -/
def lateVersions : List Version :=
  [.plain plainClaw, .plain (plainClaw.withSession halfSession)]

theorem mounts_unbacked :
    ∃ t ∈ run (versionStep sampleLibs) {} lateVersions,
      ¬ t.Backed ∧ ∃ p ∈ t.stored, "session" ∈ p.2.template.mounts.map (·.name) ∧
        p.2.volumeClaimTemplates = [] := by
  decide +kernel

end K8s4Claw.Operator
