/-
# Crashes of the builders

The builders of `Workload` see a pointer of the spec as an option and the quantities that the source
writes as numbers.  The Go code follows the pointers, and `resource.MustParse` panics at a text that
`ParseQuantity` rejects.  `Checked` has the builders of `internal/runtime/pod_builder.go`, the
`PodTemplate` of the adapters and `injectArchiverIfNeeded` of `internal/controller/claw_archiver.go`
with every dereference and every `MustParse` in them; the rest is shared with `Workload`.

Only the size of an enabled volume or cache comes from the spec, and the webhook asks for a quantity
there on creation and on update.
-/

import K8s4Claw.Operator.Updates

namespace K8s4Claw.Operator

open List

/-- How the operator crashes. -/
inductive Crash
  /-- A nil pointer is dereferenced. -/
  | nilPointer
  /-- `resource.MustParse` of a text that is no quantity. -/
  | mustParse (quantity : String)
  deriving DecidableEq

namespace Checked

variable {α β : Type}

/-- Follow a pointer. -/
def deref : Option α → Except Crash α
  | none => .error .nilPointer
  | some a => .ok a

/-- `a && b`: only if `a` holds is `b` evaluated. -/
def both (a : Bool) (b : Except Crash Bool) : Except Crash Bool := if a then b else .ok false

/-- `p != nil && p.Enabled`, where `p` is evaluated each time. -/
def isEnabled (p : Except Crash (Option α)) (enabled : α → Bool) : Except Crash Bool := do
  both (← p).isSome (do return enabled (← deref (← p)))

/-- What `use` makes of `*p`, if `p != nil && p.Enabled`. -/
def ifEnabled (p : Except Crash (Option α)) (enabled : α → Bool) (use : α → Except Crash β) :
    Except Crash (List β) := do
  if ← isEnabled p enabled then return [← use (← deref (← p))] else return []

/-! ### The fields of the spec -/

section

variable (claw : Claw)

/-- `claw.Spec.Persistence.Session`. -/
def session : Except Crash (Option VolumeSpec) := do
  return (← deref claw.spec.persistence).session

/-- `claw.Spec.Persistence.Output`. -/
def output : Except Crash (Option OutputVolumeSpec) := do
  return (← deref claw.spec.persistence).output

/-- `claw.Spec.Persistence.Workspace`. -/
def workspace : Except Crash (Option VolumeSpec) := do
  return (← deref claw.spec.persistence).workspace

/-- `claw.Spec.Persistence.Cache`. -/
def cache : Except Crash (Option CacheSpec) := do
  return (← deref claw.spec.persistence).cache

/-- `claw.Spec.Persistence.Shared`. -/
def shared : Except Crash (List SharedVolumeRef) := do
  return (← deref claw.spec.persistence).shared

/-- `claw.Spec.Persistence.Output.Archive`. -/
def archive : Except Crash (Option ArchiveSpec) := do
  return (← deref (← output claw)).archive

end

section

variable (L : Libs)

def mustParse (quantity : String) : Except Crash ℤ :=
  match L.parseQuantity quantity with
  | none => .error (.mustParse quantity)
  | some q => .ok q

def resources (cpuReq memReq cpuLim memLim : String) : Except Crash Resources := do
  let cpuReq ← mustParse L cpuReq
  let memReq ← mustParse L memReq
  let cpuLim ← mustParse L cpuLim
  let memLim ← mustParse L memLim
  return Operator.resources cpuReq memReq cpuLim memLim

/-! ### The template of the adapter -/

section

variable (claw : Claw)

def buildVolumes (spec : RuntimeSpec) : Except Crash (List Volume) := do
  let walSize ← mustParse L "512Mi"
  let vols := podVolumes claw walSize
  if claw.spec.persistence.isSome then
    let cache ← ifEnabled (cache claw) (·.enabled) fun p => do
      let cacheSize ← mustParse L p.size
      return { name := "cache", source := .emptyDir (some cacheSize) p.medium }
    let shared := (← shared claw).map fun s =>
      { name := "shared-" ++ s.name, source := .persistentVolumeClaim s.claimName }
    return vols ++ cache ++ shared ++ spec.extraVolumes
  else return vols ++ spec.extraVolumes

def hasWorkspacePVC : Except Crash Bool :=
  both claw.spec.persistence.isSome (isEnabled (workspace claw) (·.enabled))

/-- `buildInitContainer`; what is shared with `Workload` follows no pointer. -/
def buildInitContainer (spec : RuntimeSpec) : Except Crash Container := do
  let workspacePath := if spec.workspacePath = "" then "/workspace" else spec.workspacePath
  let mounts : List VolumeMount :=
    [{ name := "config-vol", mountPath := "/etc/claw", readOnly := true },
      { name := "tmp", mountPath := "/tmp" }]
  let workspace : List VolumeMount ←
    if ← hasWorkspacePVC claw then pure [{ name := "workspace", mountPath := workspacePath }]
    else pure []
  let resources ← resources L "100m" "128Mi" "500m" "256Mi"
  return { Operator.buildInitContainer claw spec with
    volumeMounts := mounts ++ workspace
    resources := resources }

/-- The mount of the workspace in `buildRuntimeContainer`. -/
def workspaceMounts : Except Crash (List VolumeMount) := do
  if ← hasWorkspacePVC claw then
    let p ← deref (← workspace claw)
    return [{ name := "workspace", mountPath := p.mountPath }]
  else return []

/-- The mounts of the volumes of the spec in `buildRuntimeContainer`. -/
def persistenceMounts : Except Crash (List VolumeMount) := do
  if claw.spec.persistence.isSome then
    let cache ← ifEnabled (cache claw) (·.enabled) fun p =>
      return { name := "cache", mountPath := p.mountPath }
    let session ← ifEnabled (session claw) (·.enabled) fun p =>
      return { name := "session", mountPath := p.mountPath }
    let output ← ifEnabled (output claw) (·.enabled) fun p =>
      return { name := "output", mountPath := p.mountPath }
    let workspace ← workspaceMounts claw
    let shared := (← shared claw).map fun s =>
      { name := "shared-" ++ s.name, mountPath := s.mountPath, readOnly := s.readOnly }
    return cache ++ session ++ output ++ workspace ++ shared
  else return []

/-- `buildRuntimeContainer`; what is shared with `Workload` follows no pointer. -/
def buildRuntimeContainer (spec : RuntimeSpec) : Except Crash Container := do
  let persistence ← persistenceMounts claw
  return { Operator.buildRuntimeContainer claw spec with
    volumeMounts := podMounts ++ persistence ++ spec.extraVolumeMounts }

def buildPodTemplate (spec : RuntimeSpec) : Except Crash PodTemplate := do
  let initContainer ← buildInitContainer L claw spec
  let container ← buildRuntimeContainer claw spec
  let volumes ← buildVolumes L claw spec
  return { initContainers := [initContainer], containers := [container], volumes := volumes }

end

/-- The `PodTemplate` of an adapter, with the texts that its `runtimeSpec` gives to `resources`. -/
def adapterPodTemplate (adapter : RuntimeAdapter) (cpuReq memReq cpuLim memLim : String)
    (claw : Claw) : Except Crash PodTemplate := do
  let resources ← resources L cpuReq memReq cpuLim memLim
  buildPodTemplate L claw { adapter.runtimeSpec with resources := resources }

def openClawPodTemplate : Claw → Except Crash PodTemplate :=
  adapterPodTemplate L (openClawAdapter L) "500m" "1Gi" "2000m" "4Gi"

def hermesClawPodTemplate : Claw → Except Crash PodTemplate :=
  adapterPodTemplate L (hermesClawAdapter L) "500m" "1Gi" "2000m" "4Gi"

def hermesRSPodTemplate : Claw → Except Crash PodTemplate :=
  adapterPodTemplate L (hermesRSAdapter L) "250m" "512Mi" "2000m" "4Gi"

def k8sOpsPodTemplate : Claw → Except Crash PodTemplate :=
  adapterPodTemplate L k8sOpsAdapter "100m" "256Mi" "500m" "512Mi"

/-- The `PodTemplate` of the adapters that `main` registers. -/
def podTemplate : RuntimeType → Option (Claw → Except Crash PodTemplate)
  | .openclaw => some (openClawPodTemplate L)
  | .hermesclaw => some (hermesClawPodTemplate L)
  | .hermesrs => some (hermesRSPodTemplate L)
  | .k8sops => some (k8sOpsPodTemplate L)
  | .custom => none

/-! ### The claims -/

def pvcTemplate (claw : Claw) (name : String) (p : VolumeSpec) :
    Except Crash PersistentVolumeClaim := do
  let storage ← mustParse L p.size
  return { name := name
           labels := [("claw.prismer.ai/instance", claw.name)]
           storage := storage
           storageClassName := if p.storageClass = "" then none else some p.storageClass }

def buildVolumeClaimTemplates (claw : Claw) : Except Crash (List PersistentVolumeClaim) := do
  if claw.spec.persistence.isNone then return []
  else
    let session ← ifEnabled (session claw) (·.enabled) (pvcTemplate L claw "session")
    let output ← ifEnabled (output claw) (·.enabled) fun p =>
      pvcTemplate L claw "output" p.toVolumeSpec
    let workspace ← ifEnabled (workspace claw) (·.enabled) (pvcTemplate L claw "workspace")
    return session ++ output ++ workspace

/-! ### The archiver -/

def archiverArgs (archive : ArchiveSpec) : Except Crash (List String) := do
  let args := ["--schedule", archive.trigger.schedule] ++
    if archive.trigger.inotify then ["--inotify"] else []
  if archive.lifecycle.isSome then
    let lifecycle ← deref archive.lifecycle
    return args ++
      (if lifecycle.localRetention = "" then []
        else ["--local-retention", lifecycle.localRetention]) ++
      if lifecycle.compress then ["--compress"] else []
  else return args

/-- `injectArchiverSidecar`; what is shared with `Workload` follows no pointer but `archive`. -/
def injectArchiverSidecar (claw : Claw) (t : PodTemplate) : Except Crash PodTemplate := do
  let archive ← deref (← archive claw)
  let args ← archiverArgs archive
  let resources ← resources L "50m" "64Mi" "200m" "256Mi"
  let output ← deref (← output claw)
  let sidecar := { archiverContainer output archive with args := args, resources := resources }
  return { t with initContainers := t.initContainers ++ [sidecar] }

def shouldInjectArchiver (claw : Claw) : Except Crash Bool :=
  both claw.spec.persistence.isSome do
    both (← output claw).isSome do
      isEnabled (archive claw) (·.enabled)

def injectArchiverIfNeeded (claw : Claw) (t : PodTemplate) : Except Crash PodTemplate := do
  if ← shouldInjectArchiver claw then
    if t.initContainers.any (·.name = "archive-sidecar") then return t
    else injectArchiverSidecar L claw t
  else return t

end

/-! ### Pointers are nil-checked -/

section

variable {claw : Claw} {p : PersistenceSpec}

section

variable (o : Option α) (enabled : α → Bool)

@[simp] theorem isEnabled_ok : isEnabled (.ok o) enabled = .ok (o.any enabled) := by
  cases o <;> rfl

theorem ifEnabled_ok (use : α → Except Crash β) :
    ifEnabled (.ok o) enabled use = (o.filter enabled).toList.mapM use := by
  cases o with
  | none => rfl
  | some a =>
    cases h : enabled a with
    | false => simp [ifEnabled, Option.filter, h]; rfl
    | true =>
      simp [ifEnabled, Option.filter, h]
      rfl

end

theorem fields_of_persistence (h : claw.spec.persistence = some p) :
    session claw = .ok p.session ∧ output claw = .ok p.output ∧ workspace claw = .ok p.workspace ∧
      cache claw = .ok p.cache ∧ shared claw = .ok p.shared := by
  simp only [session, output, workspace, cache, shared, h]
  exact ⟨rfl, rfl, rfl, rfl, rfl⟩

theorem hasWorkspacePVC_eq (claw : Claw) :
    hasWorkspacePVC claw = .ok claw.spec.workspace.isSome := by
  cases h : claw.spec.persistence with
  | none => simp [hasWorkspacePVC, both, ClawSpec.workspace, h]
  | some =>
    obtain ⟨-, -, hworkspace, -⟩ := fields_of_persistence h
    simp [hasWorkspacePVC, both, ClawSpec.workspace, h, hworkspace]

theorem ifEnabled_pure (o : Option α) (enabled : α → Bool) (f : α → β) :
    ifEnabled (.ok o) enabled (fun a => return f a) = .ok ((o.filter enabled).toList.map f) := by
  rw [ifEnabled_ok]
  exact mapM_pure

theorem workspaceMounts_eq (claw : Claw) :
    workspaceMounts claw =
      .ok (claw.spec.workspace.toList.map fun p =>
        { name := "workspace", mountPath := p.mountPath }) := by
  have hpvc := hasWorkspacePVC_eq claw
  cases hw : claw.spec.workspace with
  | none =>
    simp only [workspaceMounts, hpvc, hw]
    rfl
  | some =>
    -- the workspace is there, so the persistence is
    obtain ⟨p, hp, hpw⟩ := Option.bind_eq_some_iff.mp (Option.filter_eq_some_iff.mp hw).1
    obtain ⟨-, -, hworkspace, -⟩ := fields_of_persistence hp
    simp only [workspaceMounts, hpvc, hw, hworkspace, hpw]
    rfl

theorem persistenceMounts_eq (claw : Claw) :
    persistenceMounts claw = .ok (Operator.persistenceMounts claw) := by
  have hmounts := workspaceMounts_eq claw
  cases h : claw.spec.persistence with
  | none =>
    simp only [persistenceMounts, Operator.persistenceMounts, ClawSpec.cache, ClawSpec.session,
      ClawSpec.output, ClawSpec.workspace, ClawSpec.shared, h]
    rfl
  | some =>
    obtain ⟨hsession, houtput, -, hcache, hshared⟩ := fields_of_persistence h
    simp only [persistenceMounts, Operator.persistenceMounts, ClawSpec.cache, ClawSpec.session,
      ClawSpec.output, ClawSpec.shared, h, hsession, houtput, hcache, hshared, hmounts, ifEnabled_pure]
    rfl

theorem buildRuntimeContainer_eq (claw : Claw) (spec : RuntimeSpec) :
    buildRuntimeContainer claw spec = .ok (Operator.buildRuntimeContainer claw spec) := by
  simp only [buildRuntimeContainer, persistenceMounts_eq]
  rfl

end

/-! ### The texts that the source writes -/

/-- The quantities that the source writes, with their values. -/
def literals : List (String × ℤ) :=
  [("50m", milli 50), ("100m", milli 100), ("200m", milli 200), ("250m", milli 250),
    ("500m", milli 500), ("2000m", milli 2000), ("64Mi", mebi 64), ("128Mi", mebi 128),
    ("256Mi", mebi 256), ("512Mi", mebi 512), ("1Gi", gibi 1), ("4Gi", gibi 4)]

/-- `ParseQuantity` reads them. -/
def ReadsLiterals (L : Libs) : Prop := ∀ e ∈ literals, L.parseQuantity e.1 = some e.2
  deriving Decidable

section

variable {L : Libs} {claw : Claw} {spec : RuntimeSpec}

variable {quantity : String} {t : PodTemplate}

theorem mustParse_of_some {q : ℤ} (h : L.parseQuantity quantity = some q) :
    mustParse L quantity = .ok q := by
  rw [mustParse, h]

theorem ReadsLiterals.mustParse (hL : ReadsLiterals L) {q : ℤ} (h : (quantity, q) ∈ literals) :
    mustParse L quantity = .ok q :=
  mustParse_of_some (hL _ h)

theorem ReadsLiterals.resources (hL : ReadsLiterals L) {cpuReq memReq cpuLim memLim : String}
    {a b c d : ℤ} (ha : (cpuReq, a) ∈ literals) (hb : (memReq, b) ∈ literals)
    (hc : (cpuLim, c) ∈ literals) (hd : (memLim, d) ∈ literals) :
    resources L cpuReq memReq cpuLim memLim = .ok (Operator.resources a b c d) := by
  simp only [Checked.resources, hL.mustParse ha, hL.mustParse hb, hL.mustParse hc, hL.mustParse hd]
  rfl

theorem buildInitContainer_eq (hL : ReadsLiterals L) (claw : Claw) (spec : RuntimeSpec) :
    buildInitContainer L claw spec = .ok (Operator.buildInitContainer claw spec) := by
  have hresources : resources L "100m" "128Mi" "500m" "256Mi" = .ok initContainerResources :=
    hL.resources (by decide) (by decide) (by decide) (by decide)
  simp only [buildInitContainer, hasWorkspacePVC_eq, hresources, Operator.buildInitContainer]
  cases claw.spec.workspace <;> rfl

/-! ### The sizes of the spec -/

theorem mustParse_of_ok {q : ℤ} (h : Operator.mustParse L quantity = .ok q) :
    mustParse L quantity = .ok q := by
  unfold Operator.mustParse at h
  unfold mustParse
  cases hq : L.parseQuantity quantity with
  | none => simp [hq] at h
  | some r =>
    obtain rfl : r = q := by simpa [hq] using h
    rfl

theorem buildVolumes_of_ok {vols : List Volume}
    (h : Operator.buildVolumes L claw spec = .ok vols) : buildVolumes L claw spec = .ok vols := by
  obtain ⟨walSize, hwal, h⟩ := bind_eq_ok h
  obtain ⟨cacheVols, hcacheVols, h⟩ := bind_eq_ok h
  cases h
  cases hp : claw.spec.persistence with
  | none =>
    have hcache : claw.spec.cache = none := by simp [ClawSpec.cache, hp]
    rw [hcache] at hcacheVols
    cases hcacheVols
    simp only [buildVolumes, mustParse_of_ok hwal, hp, ClawSpec.shared]
    rfl
  | some p =>
    obtain ⟨-, -, -, hcache, hshared⟩ := fields_of_persistence hp
    have hspec : claw.spec.cache = p.cache.filter (·.enabled) := by simp [ClawSpec.cache, hp]
    rw [hspec] at hcacheVols
    simp only [buildVolumes, mustParse_of_ok hwal, hp, ClawSpec.shared, hcache, hshared,
      ifEnabled_ok]
    cases hon : p.cache.filter (·.enabled) with
    | none =>
      rw [hon] at hcacheVols
      cases hcacheVols
      rfl
    | some =>
      rw [hon] at hcacheVols
      obtain ⟨size, hsize, rfl⟩ := map_eq_ok hcacheVols
      simp only [Option.toList_some, mapM_cons, mustParse_of_ok hsize]
      rfl

theorem pvcTemplate_of_ok {name : String} {p : VolumeSpec} {pvc : PersistentVolumeClaim}
    (h : Operator.pvcTemplate L claw name p = .ok pvc) : pvcTemplate L claw name p = .ok pvc := by
  obtain ⟨size, hsize, rfl⟩ := map_eq_ok h
  simp only [pvcTemplate, mustParse_of_ok hsize]
  rfl

theorem mapM_of_ok {f : α → Except Failure β} {g : α → Except Crash β}
    (hfg : ∀ a b, f a = .ok b → g a = .ok b) {l : List α} {bs : List β} (h : l.mapM f = .ok bs) :
    l.mapM g = .ok bs := by
  induction l generalizing bs with
  | nil =>
    cases h
    rfl
  | cons a l ih =>
    rw [mapM_cons] at h
    obtain ⟨b, hb, h⟩ := bind_eq_ok h
    obtain ⟨bs', hbs', h⟩ := bind_eq_ok h
    cases h
    rw [mapM_cons, hfg a b hb, ih hbs']
    rfl

theorem buildVolumeClaimTemplates_of_ok {pvcs : List PersistentVolumeClaim}
    (h : Operator.buildVolumeClaimTemplates L claw = .ok pvcs) :
    buildVolumeClaimTemplates L claw = .ok pvcs := by
  have h := mapM_of_ok (fun p pvc => pvcTemplate_of_ok) h
  cases hp : claw.spec.persistence with
  | none =>
    simp only [ClawSpec.session, ClawSpec.output, ClawSpec.workspace, hp] at h
    cases h
    simp only [buildVolumeClaimTemplates, hp]
    rfl
  | some =>
    obtain ⟨hsession, houtput, hworkspace, -⟩ := fields_of_persistence hp
    rw [mapM_append, mapM_append, mapM_map, mapM_map, mapM_map] at h
    simp only [ClawSpec.session, ClawSpec.output, ClawSpec.workspace, hp] at h
    simp only [buildVolumeClaimTemplates, hp, hsession, houtput, hworkspace, ifEnabled_ok]
    rw [← h]
    simp only [bind_assoc]
    rfl

/-! ### The archiver -/

theorem archiverArgs_eq (archive : ArchiveSpec) :
    archiverArgs archive = .ok (Operator.archiverArgs archive) := by
  cases h : archive.lifecycle with
  | none =>
    simp only [archiverArgs, Operator.archiverArgs, h, append_nil]
    rfl
  | some =>
    simp only [archiverArgs, Operator.archiverArgs, h, append_assoc]
    rfl

theorem shouldInjectArchiver_eq (claw : Claw) :
    shouldInjectArchiver claw = .ok claw.spec.archive.isSome := by
  cases hp : claw.spec.persistence with
  | none => simp [shouldInjectArchiver, both, ClawSpec.archive, hp]
  | some p =>
    obtain ⟨-, houtput, -⟩ := fields_of_persistence hp
    cases ho : p.output with
    | none =>
      have hspec : claw.spec.archive = none := by simp [ClawSpec.archive, hp, ho]
      simp only [shouldInjectArchiver, hspec, hp, houtput, ho]
      rfl
    | some o =>
      have hspec : claw.spec.archive =
          (o.archive.filter (·.enabled)).map fun archive => (o, archive) := by
        simp [ClawSpec.archive, hp, ho]
      have harchive : archive claw = .ok o.archive := by
        simp only [archive, houtput, ho]
        rfl
      rw [hspec, Option.isSome_map, Option.isSome_filter]
      simp only [shouldInjectArchiver, hp, houtput, ho, harchive, isEnabled_ok]
      rfl

theorem injectArchiverIfNeeded_eq (hL : ReadsLiterals L) (claw : Claw) (t : PodTemplate) :
    injectArchiverIfNeeded L claw t = .ok (Operator.injectArchiverIfNeeded claw t) := by
  have hresources : resources L "50m" "64Mi" "200m" "256Mi" =
      .ok (Operator.resources (milli 50) (mebi 64) (milli 200) (mebi 256)) :=
    hL.resources (by decide) (by decide) (by decide) (by decide)
  cases ha : claw.spec.archive with
  | none =>
    simp only [injectArchiverIfNeeded, shouldInjectArchiver_eq, Operator.injectArchiverIfNeeded, ha]
    rfl
  | some =>
    obtain ⟨o, ho, ha'⟩ := Option.bind_eq_some_iff.mp ha
    obtain ⟨p, hp, hpo⟩ := Option.bind_eq_some_iff.mp ho
    obtain ⟨a, hoa, rfl⟩ := Option.map_eq_some_iff.mp ha'
    have hptr := (Option.filter_eq_some_iff.mp hoa).1
    obtain ⟨-, houtput, -⟩ := fields_of_persistence hp
    rw [hpo] at houtput
    have harchive : archive claw = .ok (some a) := by
      simp only [archive, houtput, ← hptr]
      rfl
    simp only [injectArchiverIfNeeded, shouldInjectArchiver_eq, Operator.injectArchiverIfNeeded, ha]
    cases t.initContainers.any fun c => decide (c.name = "archive-sidecar") with
    | true => rfl
    | false =>
      simp only [injectArchiverSidecar, harchive, houtput, archiverArgs_eq, hresources]
      rfl

/-! ### What the webhook accepted -/

theorem exists_mustParse (h : (L.parseQuantity quantity).isSome) :
    ∃ q, Operator.mustParse L quantity = .ok q := by
  obtain ⟨q, hq⟩ := Option.isSome_iff_exists.mp h
  exact ⟨q, by rw [Operator.mustParse, hq]⟩

theorem isSome_cache_of_accepted {p : CacheSpec} (h : Accepted L claw) (hp : p ∈ claw.spec.cache) :
    (L.parseQuantity p.size).isSome := by
  have hsizes := h.validatePVCSizes
  cases hpers : claw.spec.persistence with
  | none => simp [ClawSpec.cache, hpers] at hp
  | some pers =>
    have hp : pers.cache.filter (·.enabled) = some p := by simpa [ClawSpec.cache, hpers] using hp
    simp only [validatePVCSizes, hpers, append_eq_nil_iff] at hsizes
    have hcache := hsizes.2
    rw [validateCacheSize, hp] at hcache
    exact require_eq_nil_iff.mp hcache

theorem exists_buildVolumes (hL : ReadsLiterals L) (h : Accepted L claw) (spec : RuntimeSpec) :
    ∃ vols, Operator.buildVolumes L claw spec = .ok vols := by
  obtain ⟨walSize, hwal⟩ : ∃ q, Operator.mustParse L "512Mi" = .ok q :=
    exists_mustParse (by rw [hL ("512Mi", mebi 512) (by decide)]; rfl)
  have hcacheVols : ∃ cacheVols, cacheVolumes L claw.spec.cache = .ok cacheVols := by
    cases hcache : claw.spec.cache with
    | none => exact ⟨[], rfl⟩
    | some =>
      obtain ⟨size, hsize⟩ := exists_mustParse (isSome_cache_of_accepted h hcache)
      simp only [cacheVolumes, hsize]
      exact ⟨_, rfl⟩
  obtain ⟨cacheVols, hcacheVols⟩ := hcacheVols
  simp only [Operator.buildVolumes, hwal, hcacheVols]
  exact ⟨_, rfl⟩

theorem exists_mapM {f : α → Except Failure β} {l : List α} (h : ∀ a ∈ l, ∃ b, f a = .ok b) :
    ∃ bs, l.mapM f = .ok bs := by
  induction l with
  | nil => exact ⟨[], rfl⟩
  | cons a l ih =>
    obtain ⟨ha, hl⟩ := forall_mem_cons.mp h
    obtain ⟨b, hb⟩ := ha
    obtain ⟨bs, hbs⟩ := ih hl
    refine ⟨b :: bs, ?_⟩
    rw [mapM_cons, hb, hbs]
    rfl

theorem exists_buildVolumeClaimTemplates (h : Accepted L claw) :
    ∃ pvcs, Operator.buildVolumeClaimTemplates L claw = .ok pvcs := by
  refine exists_mapM fun ⟨name, p⟩ hp => ?_
  have hclaim : ∃ v, p ∈ claw.spec.claim v := by
    simp only [mem_append, mem_map, Option.mem_toList] at hp
    rcases hp with (⟨q, hq, -, rfl⟩ | ⟨q, hq, -, rfl⟩) | ⟨q, hq, -, rfl⟩
    · exact ⟨.session, hq⟩
    · exact ⟨.output, Option.mem_map_of_mem _ hq⟩
    · exact ⟨.workspace, hq⟩
  obtain ⟨v, hv⟩ := hclaim
  obtain ⟨size, hsize⟩ := exists_mustParse (isSome_of_accepted h hv)
  simp only [Operator.pvcTemplate, hsize]
  exact ⟨_, rfl⟩

variable (hL : ReadsLiterals L)

include hL

theorem buildPodTemplate_of_ok (h : Operator.buildPodTemplate L claw spec = .ok t) :
    buildPodTemplate L claw spec = .ok t := by
  obtain ⟨vols, hvols, rfl⟩ := map_eq_ok h
  simp only [buildPodTemplate, buildInitContainer_eq hL, buildRuntimeContainer_eq,
    buildVolumes_of_ok hvols]
  rfl

theorem adapterPodTemplate_of_ok {adapter : RuntimeAdapter} {cpuReq memReq cpuLim memLim : String}
    {a b c d : ℤ} (ha : (cpuReq, a) ∈ literals) (hb : (memReq, b) ∈ literals)
    (hc : (cpuLim, c) ∈ literals) (hd : (memLim, d) ∈ literals)
    (hres : adapter.runtimeSpec.resources = Operator.resources a b c d)
    (h : Operator.buildPodTemplate L claw adapter.runtimeSpec = .ok t) :
    adapterPodTemplate L adapter cpuReq memReq cpuLim memLim claw = .ok t := by
  have hresources := hL.resources ha hb hc hd
  rw [← hres] at hresources
  simp only [adapterPodTemplate, hresources]
  exact buildPodTemplate_of_ok hL h

theorem podTemplate_of_ok {runtime : RuntimeType} {adapter : RuntimeAdapter}
    (hadapter : registry L runtime = some adapter)
    (h : Operator.buildPodTemplate L claw adapter.runtimeSpec = .ok t) :
    ∃ build, podTemplate L runtime = some build ∧ build claw = .ok t := by
  cases runtime with
  | openclaw | hermesclaw | hermesrs | k8sops =>
    cases hadapter
    exact ⟨_, rfl, adapterPodTemplate_of_ok hL (by decide) (by decide) (by decide) (by decide)
      rfl h⟩
  | custom => cases hadapter

end

end Checked

/-- **No version of a Claw that the webhook accepted makes the operator crash**: every adapter gives
its template, the claims are built and the archiver is injected, with the results of `Workload`. -/
theorem accepted_no_crash {L : Libs} {claw : Claw} (hL : Checked.ReadsLiterals L)
    (h : Accepted L claw) :
    (∀ runtime adapter, registry L runtime = some adapter →
      ∃ build t, Checked.podTemplate L runtime = some build ∧ build claw = .ok t ∧
        buildPodTemplate L claw adapter.runtimeSpec = .ok t) ∧
    (∃ pvcs, Checked.buildVolumeClaimTemplates L claw = .ok pvcs ∧
      buildVolumeClaimTemplates L claw = .ok pvcs) ∧
    ∀ t, Checked.injectArchiverIfNeeded L claw t = .ok (injectArchiverIfNeeded claw t) := by
  refine ⟨fun runtime adapter hadapter => ?_, ?_, Checked.injectArchiverIfNeeded_eq hL claw⟩
  · obtain ⟨vols, hvols⟩ := Checked.exists_buildVolumes hL h adapter.runtimeSpec
    have ht : ∃ t, buildPodTemplate L claw adapter.runtimeSpec = .ok t := by
      simp only [buildPodTemplate, hvols]
      exact ⟨_, rfl⟩
    obtain ⟨t, ht⟩ := ht
    obtain ⟨build, hbuild, hclaw⟩ := Checked.podTemplate_of_ok hL hadapter ht
    exact ⟨build, t, hbuild, hclaw, ht⟩
  · obtain ⟨pvcs, hpvcs⟩ := Checked.exists_buildVolumeClaimTemplates h
    exact ⟨pvcs, Checked.buildVolumeClaimTemplates_of_ok hpvcs, hpvcs⟩

/-- Libraries that know the quantities of the source. -/
def literalLibs : Libs :=
  { sampleLibs with parseQuantity := fun text => Checked.literals.lookup text }

/-- A Claw with volumes, a cache and an archive. -/
def furnishedClaw : Claw where
  name := "agent"
  ns := "default"
  spec :=
    { runtime := .openclaw
      credentials := some { secretRef := some "llm" }
      persistence := some
        { session := some { size := "1Gi", mountPath := "/session" }
          output := some
            { size := "4Gi"
              mountPath := "/output"
              archive := some
                { enabled := true
                  destination := { type := "s3", bucket := "outputs", secretRef := "store" }
                  trigger := { schedule := "@daily" }
                  lifecycle := some { localRetention := "7d" } } }
          cache := some { size := "512Mi", mountPath := "/cache" } } }

theorem accepted_no_crash_furnishedClaw :
    Checked.ReadsLiterals literalLibs ∧ Accepted literalLibs furnishedClaw ∧
      (∃ build t, Checked.podTemplate literalLibs .openclaw = some build ∧
        build furnishedClaw = .ok t) ∧
      ∃ pvcs, Checked.buildVolumeClaimTemplates literalLibs furnishedClaw = .ok pvcs := by
  have hL : Checked.ReadsLiterals literalLibs := by decide +kernel
  have hclaw : Accepted literalLibs furnishedClaw := .create (by decide +kernel)
  obtain ⟨htemplate, ⟨pvcs, hpvcs, -⟩, -⟩ := accepted_no_crash hL hclaw
  obtain ⟨build, t, hbuild, ht, -⟩ := htemplate .openclaw (openClawAdapter literalLibs) rfl
  exact ⟨hL, hclaw, ⟨build, t, hbuild, ht⟩, pvcs, hpvcs⟩

/-- A cache whose size is no quantity would crash every adapter. -/
example :
    Checked.openClawPodTemplate literalLibs
      { furnishedClaw with
        spec.persistence := some { cache := some ⟨true, "", "plenty", "/cache"⟩ } } =
      .error (.mustParse "plenty") := by
  decide +kernel

end K8s4Claw.Operator
