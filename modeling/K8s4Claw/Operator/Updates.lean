/-
# What updates can make of a Claw

`ValidateCreate` and `ValidateUpdate` of `internal/webhook/claw_validator.go` hand a spec to two
methods of the adapter of its runtime.  The `ValidateUpdate` of three of the four adapters only
compares the volumes with those of the version before (`validatePersistenceUpdate` of
`internal/runtime/openclaw.go`); what their `Validate` asks for is not asked for again:

| runtime | on creation only |
| --- | --- |
| `openclaw` | credentials |
| `hermesclaw` | credentials, no channels, two mount paths |
| `hermesrs` | credentials, two mount paths |
| `k8sops` | nothing; but its volumes are not compared at all |

So one update can make of a Claw what could not have been created (`creatable_iff`,
`uncreatable`).

The volumes are compared between adjacent versions, if they are enabled in both, while the PVC
outlives the versions in which its volume is disabled.  What has to hold of the updates that are not
compared is in `claims_kept_iff`.
-/

import K8s4Claw.Operator.BusWiring

namespace K8s4Claw.Operator

open List Option
open Lib (Meets)

/-- The versions of a Claw, the oldest first, when the webhook accepted every request. -/
@[mk_iff]
structure AcceptedChain (L : Libs) (versions : List Claw) : Prop where
  created : ∀ claw ∈ versions.head?, validateCreate L claw = []
  updated : versions.IsChain fun oldObj newObj => validateUpdate L oldObj newObj = []

instance (L : Libs) (versions : List Claw) : Decidable (AcceptedChain L versions) :=
  decidable_of_iff _ (acceptedChain_iff L versions).symm

section

variable {L : Libs} {claw oldObj newObj : Claw} {versions : List Claw}

theorem accepted_of_isChain (hclaw : Accepted L claw)
    (h : (claw :: versions).IsChain fun oldObj newObj => validateUpdate L oldObj newObj = []) :
    ∀ c ∈ claw :: versions, Accepted L c := by
  induction versions generalizing claw with
  | nil =>
    intro c hc
    rwa [mem_singleton.mp hc]
  | cons _ _ ih =>
    obtain ⟨hupdate, hrest⟩ := isChain_cons_cons.mp h
    intro c hc
    rcases mem_cons.mp hc with rfl | hc
    · exact hclaw
    · exact ih (.update hclaw hupdate) hrest c hc

theorem AcceptedChain.accepted (h : AcceptedChain L versions) : ∀ c ∈ versions, Accepted L c := by
  cases versions with
  | nil =>
    intro c hc
    cases hc
  | cons claw => exact accepted_of_isChain (.create (h.created claw rfl)) h.updated

/-! ### What is asked for on creation only -/

/-- The mount paths that the Hermes runtimes ask for, of volumes that are enabled. -/
def ClawSpec.MountedAt (spec : ClawSpec) (session workspace : String) : Prop :=
  (∀ p ∈ spec.session, p.mountPath = session) ∧ ∀ p ∈ spec.workspace, p.mountPath = workspace
  deriving Decidable

/-- What the `Validate` of the adapter asks for and its `ValidateUpdate` does not. -/
def ClawSpec.MeetsCreation (spec : ClawSpec) : Prop :=
  match spec.runtime with
  | .openclaw => hasCredentials spec = true
  | .hermesclaw =>
      hasCredentials spec = true ∧ spec.channels = [] ∧
        spec.MountedAt "/opt/data" "/opt/data/skills"
  | .hermesrs => hasCredentials spec = true ∧ spec.MountedAt "/data" "/data/skills"
  | .k8sops | .custom => True

theorem requireMount_eq_nil_iff {volume mountPath detail : String} {vol : Option VolumeSpec} :
    requireMount volume vol mountPath detail = [] ↔
      ∀ p ∈ vol.filter (·.enabled), p.mountPath = mountPath := by
  cases vol with
  | none => simp [requireMount]
  | some p => cases h : p.enabled <;> simp [requireMount, h]

theorem requireMounts_eq_nil_iff {spec : ClawSpec} {session workspace : String × String} :
    requireMounts spec session workspace = [] ↔ spec.MountedAt session.1 workspace.1 := by
  unfold requireMounts ClawSpec.MountedAt ClawSpec.session ClawSpec.workspace
  cases spec.persistence with
  | none => simp
  | some => simp [requireMount_eq_nil_iff]

theorem validate_eq_nil_iff {spec : ClawSpec} {adapter : RuntimeAdapter}
    (h : registry L spec.runtime = some adapter) :
    adapter.validate spec = [] ↔
      spec.MeetsCreation ∧ (spec.runtime = .k8sops → requireNetworkPolicy spec = []) := by
  unfold ClawSpec.MeetsCreation
  cases hruntime : spec.runtime with
  | openclaw =>
    obtain rfl : openClawAdapter L = adapter := by simpa [hruntime, registry] using h
    simp [openClawAdapter, requireCredentials]
  | hermesclaw =>
    obtain rfl : hermesClawAdapter L = adapter := by simpa [hruntime, registry] using h
    simp [hermesClawAdapter, requireCredentials, requireMounts_eq_nil_iff]
  | hermesrs =>
    obtain rfl : hermesRSAdapter L = adapter := by simpa [hruntime, registry] using h
    simp [hermesRSAdapter, requireCredentials, requireMounts_eq_nil_iff]
  | k8sops =>
    obtain rfl : k8sOpsAdapter = adapter := by simpa [hruntime, registry] using h
    simp [k8sOpsAdapter]
  | custom => simp [hruntime, registry] at h

theorem validateCreate_of_update (h : validateUpdate L oldObj newObj = []) :
    validateCreate L newObj = [] ↔ validateRuntime L newObj = [] := by
  simp only [validateUpdate, append_eq_nil_iff] at h
  obtain ⟨⟨⟨⟨-, hcreds⟩, hsizes⟩, hauto⟩, -⟩ := h
  simp [validateCreate, hcreds, hsizes, hauto]

/-- The one check of `k8sops` is made on every update. -/
theorem requireNetworkPolicy_of_update (h : validateUpdate L oldObj newObj = [])
    (hruntime : newObj.spec.runtime = .k8sops) : requireNetworkPolicy newObj.spec = [] := by
  simp only [validateUpdate, append_eq_nil_iff] at h
  have hupdate := h.2
  simp only [validateRuntimeUpdate, hruntime] at hupdate
  exact hupdate

/-- A version that accepted requests lead to could have been created exactly if it meets what is
asked for on creation only. -/
theorem Accepted.validateCreate_eq_nil_iff (h : Accepted L claw) :
    validateCreate L claw = [] ↔ claw.spec.MeetsCreation := by
  obtain ⟨adapter, hadapter⟩ := isSome_iff_exists.mp h.registered
  have hruntime : validateRuntime L claw = adapter.validate claw.spec := by
    simp [validateRuntime, hadapter]
  cases h with
  | create hcreate =>
    refine iff_of_true hcreate ?_
    simp only [validateCreate, append_eq_nil_iff, hruntime] at hcreate
    exact ((validate_eq_nil_iff hadapter).mp hcreate.2).1
  | update _ hupdate =>
    rw [validateCreate_of_update hupdate, hruntime, validate_eq_nil_iff hadapter]
    exact and_iff_left (requireNetworkPolicy_of_update hupdate)

/-- **Which versions of a chain of accepted requests could have been created:** all of them, exactly
if each still meets what its runtime asks for on creation only. -/
theorem creatable_iff (h : AcceptedChain L versions) :
    (∀ claw ∈ versions, validateCreate L claw = []) ↔
      ∀ claw ∈ versions, claw.spec.MeetsCreation :=
  forall₂_congr fun claw hclaw => (h.accepted claw hclaw).validateCreate_eq_nil_iff

end

/-! ### Claws that could not have been created -/

/-- A chain whose versions all have credentials. -/
def credentialed : List Claw := [plainClaw, { plainClaw with spec.channels := [] }]

theorem creatable_credentialed :
    AcceptedChain sampleLibs credentialed ∧
      ∀ claw ∈ credentialed, validateCreate sampleLibs claw = [] := by
  have h : AcceptedChain sampleLibs credentialed := by decide +kernel
  refine ⟨h, (creatable_iff h).mpr ?_⟩
  exact forall_mem_cons.mpr ⟨rfl, forall_mem_singleton.mpr rfl⟩

/-- An openclaw without credentials. -/
def bareClaw : Claw := { plainClaw with spec.credentials := none }

/-- A hermesclaw with its session where it expects it. -/
def hermesClaw : Claw where
  name := "agent"
  ns := "default"
  spec :=
    { runtime := .hermesclaw
      credentials := some { secretRef := some "llm" }
      persistence := some { session := some { size := "512Mi", mountPath := "/opt/data" } } }

/-- With a channel, which the runtime does not support. -/
def chattyClaw : Claw := { hermesClaw with spec.channels := [{ name := "chat" }] }

/-- With its session somewhere else. -/
def movedClaw : Claw :=
  { hermesClaw with
    spec.persistence := some { session := some { size := "512Mi", mountPath := "/data" } } }

theorem uncreatable :
    (AcceptedChain sampleLibs [plainClaw, bareClaw] ∧ validateCreate sampleLibs bareClaw ≠ []) ∧
    (AcceptedChain sampleLibs [hermesClaw, chattyClaw] ∧
      validateCreate sampleLibs chattyClaw ≠ []) ∧
    AcceptedChain sampleLibs [hermesClaw, movedClaw] ∧
      validateCreate sampleLibs movedClaw ≠ [] := by
  decide +kernel

/-! ### The volumes that have a claim -/

/-- The volumes that a claim template is built for. -/
inductive ClaimVolume
  | session
  | output
  | workspace
  deriving DecidableEq

/-- The volume, if it is configured and enabled. -/
def ClawSpec.claim (spec : ClawSpec) : ClaimVolume → Option VolumeSpec
  | .session => spec.session
  | .output => spec.output.map (·.toVolumeSpec)
  | .workspace => spec.workspace

section

variable (L : Libs)

/-- The second volume has the class of the first and is not smaller. -/
def ClaimKept (p q : VolumeSpec) : Prop :=
  (∃ a ∈ L.parseQuantity p.size, ∃ b ∈ L.parseQuantity q.size, a ≤ b) ∧
    q.storageClass = p.storageClass
  deriving Decidable

/-- The volume is kept from every version that has it enabled to every later one that has. -/
def ClaimsKept (v : ClaimVolume) (versions : List Claw) : Prop :=
  versions.Pairwise fun oldObj newObj =>
    ∀ p ∈ oldObj.spec.claim v, ∀ q ∈ newObj.spec.claim v, ClaimKept L p q
  deriving Decidable

/-- The current version, and the volume as the last version had it that had it enabled. -/
structure Trail where
  current : Claw
  last : Option VolumeSpec

/-- The trail at the first version. -/
def Trail.start (v : ClaimVolume) (claw : Claw) : Trail := ⟨claw, claw.spec.claim v⟩

def trailStep (v : ClaimVolume) (s : Trail) (newObj : Claw) : Option Trail :=
  some ⟨newObj, (newObj.spec.claim v).or s.last⟩

/-- What an accepted update must do for the volume besides what was checked.  If the volume was
enabled before it and the runtime is not `k8sops`, it gives no class to a volume without one;
otherwise nothing was checked, and the volume is to be as it was when it was last enabled. -/
def KeepsClaim (v : ClaimVolume) (s : Trail) (newObj : Claw) : Prop :=
  ∀ p ∈ s.last, ∀ q ∈ newObj.spec.claim v,
    if newObj.spec.runtime ≠ .k8sops ∧ (s.current.spec.claim v).isSome then
      p.storageClass = "" → q.storageClass = ""
    else ClaimKept L p q
  deriving Decidable

variable {L} {claw oldObj newObj : Claw} {versions : List Claw} {v : ClaimVolume}
  {p q r : VolumeSpec}

theorem ClaimKept.trans (h : ClaimKept L p q) (h' : ClaimKept L q r) : ClaimKept L p r := by
  obtain ⟨⟨a, ha, b, hb, hab⟩, hclass⟩ := h
  obtain ⟨⟨b', hb', c, hc, hbc⟩, hclass'⟩ := h'
  obtain rfl : b = b' := some.inj (hb.symm.trans hb')
  exact ⟨⟨a, ha, c, hc, hab.trans hbc⟩, hclass'.trans hclass⟩

theorem claimsKept_cons :
    ClaimsKept L v (claw :: versions) ↔
      (∀ newObj ∈ versions, ∀ p ∈ claw.spec.claim v, ∀ q ∈ newObj.spec.claim v,
        ClaimKept L p q) ∧ ClaimsKept L v versions :=
  pairwise_cons

theorem ClawSpec.claim_eq (spec : ClawSpec) (v : ClaimVolume) :
    spec.claim v = (spec.persistence.bind fun p =>
      match v with
      | .session => p.session
      | .output => p.output.map (·.toVolumeSpec)
      | .workspace => p.workspace).filter (·.enabled) := by
  cases v with
  | output =>
    unfold ClawSpec.claim ClawSpec.output
    cases spec.persistence with
    | none => rfl
    | some => exact (Option.filter_map ..).symm
  | _ => rfl

theorem isSome_of_validateVolumeSize {path : List String} {vol : Option VolumeSpec}
    (h : validateVolumeSize L path vol = []) (hp : p ∈ vol.filter (·.enabled)) :
    (L.parseQuantity p.size).isSome := by
  rw [validateVolumeSize, mem_def.mp hp] at h
  simp only [requireQuantity, append_eq_nil_iff, require_eq_nil_iff] at h
  exact h.1

theorem isSome_of_validatePVCSizes (h : validatePVCSizes L claw = [])
    (hp : p ∈ claw.spec.claim v) : (L.parseQuantity p.size).isSome := by
  rw [ClawSpec.claim_eq] at hp
  cases hpers : claw.spec.persistence with
  | none => simp [hpers] at hp
  | some =>
    simp only [validatePVCSizes, hpers, append_eq_nil_iff] at h
    obtain ⟨⟨⟨hsession, houtput⟩, hworkspace⟩, -⟩ := h
    rw [hpers] at hp
    cases v with
    | session => exact isSome_of_validateVolumeSize hsession hp
    | output => exact isSome_of_validateVolumeSize houtput hp
    | workspace => exact isSome_of_validateVolumeSize hworkspace hp

theorem isSome_of_accepted (h : Accepted L claw) (hp : p ∈ claw.spec.claim v) :
    (L.parseQuantity p.size).isSome :=
  isSome_of_validatePVCSizes h.validatePVCSizes hp

theorem validateUpdate_of_registry {runtime : RuntimeType} {adapter : RuntimeAdapter}
    (h : registry L runtime = some adapter) (hruntime : runtime ≠ .k8sops) :
    adapter.validateUpdate = validatePersistenceUpdate L := by
  cases runtime <;> cases h <;> first | rfl | exact absurd rfl hruntime

theorem checked_of_validateVolumeUpdate {path : List String} {oldVol newVol : Option VolumeSpec}
    (h : validateVolumeUpdate L path oldVol newVol = []) (hp : p ∈ oldVol.filter (·.enabled))
    (hq : q ∈ newVol.filter (·.enabled)) :
    (p.storageClass = "" ∨ q.storageClass = p.storageClass) ∧
      sizeKept L p.size q.size = true := by
  obtain ⟨rfl, hpe⟩ := filter_eq_some_iff.mp hp
  obtain ⟨rfl, hqe⟩ := filter_eq_some_iff.mp hq
  simpa [validateVolumeUpdate, hpe, hqe] using h

section

variable (hold : Accepted L oldObj) (h : validateUpdate L oldObj newObj = [])

include hold h

theorem checked_of_update (hruntime : newObj.spec.runtime ≠ .k8sops) (hp : p ∈ oldObj.spec.claim v)
    (hq : q ∈ newObj.spec.claim v) :
    (p.storageClass = "" ∨ q.storageClass = p.storageClass) ∧
      sizeKept L p.size q.size = true := by
  have hpersistence : validatePersistenceUpdate L oldObj.spec newObj.spec = [] := by
    obtain ⟨adapter, hadapter⟩ := isSome_iff_exists.mp (hold.update h).registered
    simp only [validateUpdate, append_eq_nil_iff, validateRuntimeUpdate, hadapter] at h
    rw [← validateUpdate_of_registry hadapter hruntime]
    exact h.2
  rw [ClawSpec.claim_eq] at hp hq
  cases hpersOld : oldObj.spec.persistence with
  | none => simp [hpersOld] at hp
  | some =>
    cases hpersNew : newObj.spec.persistence with
    | none => simp [hpersNew] at hq
    | some =>
      simp only [validatePersistenceUpdate, hpersOld, hpersNew, append_eq_nil_iff]
        at hpersistence
      obtain ⟨⟨hsession, houtput⟩, hworkspace⟩ := hpersistence
      rw [hpersOld] at hp
      rw [hpersNew] at hq
      cases v with
      | session => exact checked_of_validateVolumeUpdate hsession hp hq
      | output => exact checked_of_validateVolumeUpdate houtput hp hq
      | workspace => exact checked_of_validateVolumeUpdate hworkspace hp hq

/-- **What an accepted update does to the volume**, compared with the last version that had it
enabled. -/
theorem keepsClaim_iff {last : Option VolumeSpec}
    (hlast : ∀ p ∈ oldObj.spec.claim v, last = some p) :
    KeepsClaim L v ⟨oldObj, last⟩ newObj ↔
      ∀ p ∈ last, ∀ q ∈ newObj.spec.claim v, ClaimKept L p q := by
  refine forall₂_congr fun p hp => forall₂_congr fun q hq => ?_
  split_ifs with hchecked
  · obtain ⟨hruntime, henabled⟩ := hchecked
    obtain ⟨p', hp'⟩ := isSome_iff_exists.mp henabled
    obtain rfl : p' = p := some.inj ((hlast p' hp').symm.trans hp)
    obtain ⟨hclass, hsize⟩ := checked_of_update hold h hruntime hp' hq
    obtain ⟨a, ha⟩ := isSome_iff_exists.mp (isSome_of_accepted hold hp')
    obtain ⟨b, hb⟩ := isSome_iff_exists.mp (isSome_of_accepted (hold.update h) hq)
    have hab : a ≤ b := by simpa [sizeKept, ha, hb] using hsize
    constructor
    · intro hempty
      refine ⟨⟨a, ha, b, hb, hab⟩, ?_⟩
      rcases hclass with hnone | hsame
      · rw [hnone, hempty hnone]
      · exact hsame
    · rintro ⟨-, hsame⟩ hnone
      rw [hsame, hnone]
  · exact Iff.rfl

end

/-- The induction over the versions: what the trail remembers stands for all versions before. -/
theorem keeps_iff_meets {last : Option VolumeSpec} (hclaw : Accepted L claw)
    (h : (claw :: versions).IsChain fun oldObj newObj => validateUpdate L oldObj newObj = [])
    (hlast : ∀ p ∈ claw.spec.claim v, last = some p) :
    ((∀ newObj ∈ versions, ∀ p ∈ last, ∀ q ∈ newObj.spec.claim v, ClaimKept L p q) ∧
        ClaimsKept L v versions) ↔
      Meets (trailStep v) (KeepsClaim L v) ⟨claw, last⟩ versions := by
  induction versions generalizing claw last with
  | nil => simp [Meets, ClaimsKept]
  | cons newObj _ ih =>
    obtain ⟨hupdate, hrest⟩ := isChain_cons_cons.mp h
    have hnew : ∀ q ∈ newObj.spec.claim v, (newObj.spec.claim v).or last = some q := by
      intro q hq
      rw [mem_def.mp hq, some_or]
    rw [Lib.meets_cons_of_some rfl, keepsClaim_iff hclaw hupdate hlast,
      ← ih (hclaw.update hupdate) hrest hnew, forall_mem_cons, claimsKept_cons]
    cases newObj.spec.claim v with
    | none => simp
    | some q =>
      constructor
      · rintro ⟨⟨hstep, -⟩, hnext, hpairs⟩
        exact ⟨hstep, fun n hn => hnext n hn, hpairs⟩
      · rintro ⟨hstep, hnext, hpairs⟩
        -- what an older version asks for is what the new one asks for
        refine ⟨⟨hstep, fun n hn p hp r hr => ?_⟩, fun n hn => hnext n hn, hpairs⟩
        exact (hstep p hp q rfl).trans (hnext n hn q rfl r hr)

/-- **When a volume keeps its class and does not shrink over a chain of accepted versions**,
whatever happens to it in between: exactly if every update does so where it was not checked. -/
theorem claims_kept_iff (h : AcceptedChain L (claw :: versions)) (v : ClaimVolume) :
    ClaimsKept L v (claw :: versions) ↔
      Meets (trailStep v) (KeepsClaim L v) (.start v claw) versions := by
  rw [claimsKept_cons]
  exact keeps_iff_meets (.create (h.created claw rfl)) h.updated fun p hp => hp

end

/-! ### Sessions that change -/

/-- Libraries that know a few sizes. -/
def sizedLibs : Libs where
  toLibs := AutoUpdate.sampleLibs
  parseQuantity := fun
    | "512Mi" => some 536870912000000000
    | "1Gi" => some 1073741824000000000
    | "8Gi" => some 8589934592000000000
    | "0" => some 0
    | _ => none
  quote := sampleLibs.quote
  atoi := sampleLibs.atoi
  marshal := sampleLibs.marshal
  sha256 := sampleLibs.sha256

/-- The Claw with this session. -/
def Claw.withSession (claw : Claw) (session : VolumeSpec) : Claw :=
  { claw with spec.persistence := some { session := some session } }

/-- A session of half a gibibyte. -/
def halfSession : VolumeSpec := { size := "512Mi", mountPath := "/data" }

/-- A session of one gibibyte. -/
def wholeSession : VolumeSpec := { size := "1Gi", mountPath := "/data" }

/-- A session that grows, is disabled, and comes back as it was. -/
def grown : List Claw :=
  [plainClaw.withSession wholeSession,
    plainClaw.withSession { wholeSession with enabled := false },
    plainClaw.withSession wholeSession]

theorem claims_kept_grown :
    AcceptedChain sizedLibs (plainClaw.withSession halfSession :: grown) ∧
      ClaimsKept sizedLibs .session (plainClaw.withSession halfSession :: grown) := by
  have h : AcceptedChain sizedLibs (plainClaw.withSession halfSession :: grown) := by
    decide +kernel
  refine ⟨h, (claims_kept_iff h .session).mpr ?_⟩
  decide +kernel

/-- A session that is disabled and comes back smaller. -/
def shrunk : List Claw :=
  [plainClaw.withSession wholeSession,
    plainClaw.withSession { wholeSession with enabled := false },
    plainClaw.withSession halfSession]

/-- A session without a class that is given one. -/
def reclassed : List Claw :=
  [plainClaw.withSession halfSession,
    plainClaw.withSession { halfSession with storageClass := "fast" }]

/-- A smaller session of a runtime whose volumes are not compared. -/
def opsShrunk : List Claw := [opsClaw.withSession wholeSession, opsClaw.withSession halfSession]

theorem claims_lost :
    (AcceptedChain sizedLibs shrunk ∧ ¬ ClaimsKept sizedLibs .session shrunk) ∧
    (AcceptedChain sizedLibs reclassed ∧ ¬ ClaimsKept sizedLibs .session reclassed) ∧
    AcceptedChain sizedLibs opsShrunk ∧ ¬ ClaimsKept sizedLibs .session opsShrunk := by
  decide +kernel

end K8s4Claw.Operator
