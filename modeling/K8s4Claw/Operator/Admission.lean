/-
# Admission of a Claw

`ClawValidator` of `internal/webhook/claw_validator.go`: what a Claw must meet to be created and
what a new version of it must meet.  Each validator gives the list of its errors, and a request is
accepted if there is none.  A creation is checked by the `Validate` of the adapter and an update by
its `ValidateUpdate`, which is another list of checks for most runtimes.

`Accepted` holds of the versions a Claw can have: it was created and updated by accepted requests.
-/

import K8s4Claw.Operator.Adapters

namespace K8s4Claw.Operator

section

variable (L : Libs)

def validateRuntimeImmutability (oldObj newObj : Claw) : List FieldError :=
  require (oldObj.spec.runtime = newObj.spec.runtime)
    { type := .forbidden
      field := ["spec", "runtime"]
      detail :=
        "runtime is immutable after creation (was \"" ++ oldObj.spec.runtime.text ++ "\", got \"" ++
          newObj.spec.runtime.text ++ "\")" }

def validateCredentialExclusivity (obj : Claw) : List FieldError :=
  match obj.spec.credentials with
  | none => []
  | some creds =>
      require (!(creds.secretRef.isSome && creds.externalSecret.isSome))
        { type := .invalid
          field := ["spec", "credentials"]
          badValue := "secretRef + externalSecret"
          detail := "secretRef and externalSecret are mutually exclusive" }

/-- The check that a text is a quantity. -/
def requireQuantity (path : List String) (size : String) : List FieldError :=
  require (L.parseQuantity size).isSome
    { type := .invalid
      field := path
      badValue := size
      detail := "must be a valid Kubernetes quantity" }

/-- `validateVolumeSize`, of a volume that is there and enabled. -/
def validateVolumeSize (path : List String) (vol : Option VolumeSpec) : List FieldError :=
  match vol.filter (·.enabled) with
  | none => []
  | some vol =>
      requireQuantity L (path ++ ["size"]) vol.size ++
        if vol.maxSize = "" then [] else requireQuantity L (path ++ ["maxSize"]) vol.maxSize

/-- The check on the size of the cache. -/
def validateCacheSize (path : List String) (cache : Option CacheSpec) : List FieldError :=
  match cache.filter (·.enabled) with
  | none => []
  | some cache => requireQuantity L (path ++ ["size"]) cache.size

def validatePVCSizes (obj : Claw) : List FieldError :=
  match obj.spec.persistence with
  | none => []
  | some p =>
      validateVolumeSize L ["spec", "persistence", "session"] p.session ++
        validateVolumeSize L ["spec", "persistence", "output"] (p.output.map (·.toVolumeSpec)) ++
        validateVolumeSize L ["spec", "persistence", "workspace"] p.workspace ++
        validateCacheSize L ["spec", "persistence", "cache"] p.cache

/-- The check on the time a health check may take: between two and thirty minutes. -/
def validateHealthTimeout (healthTimeout : String) : List FieldError :=
  let error (detail : String) : FieldError :=
    { type := .invalid
      field := ["spec", "autoUpdate", "healthTimeout"]
      badValue := healthTimeout
      detail := detail }
  if healthTimeout = "" then [] else
  match L.parseDuration healthTimeout with
  | none => [error "must be a valid duration"]
  | some d =>
      require (2 * 60 * 1000000000 ≤ d && d ≤ 30 * 60 * 1000000000)
        (error "must be between 2m and 30m")

def validateAutoUpdate (obj : Claw) : List FieldError :=
  match obj.spec.autoUpdate.filter (·.enabled) with
  | none => []
  | some au =>
      require (au.versionConstraint = "" || (L.newConstraint au.versionConstraint).isSome)
          { type := .invalid
            field := ["spec", "autoUpdate", "versionConstraint"]
            badValue := au.versionConstraint
            detail := "must be a valid semver constraint (e.g., ^1.0.0, ~1.x)" } ++
        require (au.schedule = "" || (L.cronNext au.schedule).isSome)
          { type := .invalid
            field := ["spec", "autoUpdate", "schedule"]
            badValue := au.schedule
            detail := "must be a valid cron expression" } ++
        validateHealthTimeout L au.healthTimeout ++
        require (0 ≤ au.maxRollbacks)
          { type := .invalid
            field := ["spec", "autoUpdate", "maxRollbacks"]
            badValue := toString au.maxRollbacks
            detail := "must be >= 0" }

def validateRuntime (obj : Claw) : List FieldError :=
  match registry L obj.spec.runtime with
  | none =>
      [{ type := .notSupported
         field := ["spec", "runtime"]
         badValue := obj.spec.runtime.text
         detail :=
          "supported values: \"openclaw\", \"hermesclaw\", \"hermesrs\", \"k8sops\"" }]
  | some adapter => adapter.validate obj.spec

def validateRuntimeUpdate (oldObj newObj : Claw) : List FieldError :=
  match registry L newObj.spec.runtime with
  | none => []
  | some adapter => adapter.validateUpdate oldObj.spec newObj.spec

def validateCreate (obj : Claw) : List FieldError :=
  validateCredentialExclusivity obj ++ validatePVCSizes L obj ++ validateAutoUpdate L obj ++
    validateRuntime L obj

def validateUpdate (oldObj newObj : Claw) : List FieldError :=
  validateRuntimeImmutability oldObj newObj ++ validateCredentialExclusivity newObj ++
    validatePVCSizes L newObj ++ validateAutoUpdate L newObj ++
    validateRuntimeUpdate L oldObj newObj

/-- A Claw that a creation and a chain of updates, all of them accepted, lead to. -/
inductive Accepted : Claw → Prop
  | create {obj : Claw} : validateCreate L obj = [] → Accepted obj
  | update {oldObj newObj : Claw} :
      Accepted oldObj → validateUpdate L oldObj newObj = [] → Accepted newObj

variable {L}

variable {obj : Claw}

theorem registered_of_create (h : validateCreate L obj = []) :
    (registry L obj.spec.runtime).isSome := by
  have hruntime : validateRuntime L obj = [] := by
    simp only [validateCreate, List.append_eq_nil_iff] at h
    exact h.2
  cases hadapter : registry L obj.spec.runtime with
  | none => simp [validateRuntime, hadapter] at hruntime
  | some => rfl

theorem runtime_of_update {oldObj newObj : Claw} (h : validateUpdate L oldObj newObj = []) :
    newObj.spec.runtime = oldObj.spec.runtime := by
  simp only [validateUpdate, List.append_eq_nil_iff, validateRuntimeImmutability,
    require_eq_nil_iff, decide_eq_true_eq] at h
  exact h.1.1.1.1.symm

/-- The sizes are checked on creation and on update. -/
theorem Accepted.validatePVCSizes (h : Accepted L obj) : validatePVCSizes L obj = [] := by
  cases h with
  | create h =>
    simp only [validateCreate, List.append_eq_nil_iff] at h
    exact h.1.1.2
  | update _ h =>
    simp only [validateUpdate, List.append_eq_nil_iff] at h
    exact h.1.1.2

/-- **Every version a Claw can have is of a runtime with an adapter.** -/
theorem Accepted.registered (h : Accepted L obj) : (registry L obj.spec.runtime).isSome := by
  induction h with
  | create hcreate => exact registered_of_create hcreate
  | update _ hupdate => rwa [runtime_of_update hupdate]

end

end K8s4Claw.Operator
