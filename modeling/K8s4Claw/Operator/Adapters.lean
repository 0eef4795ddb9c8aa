/-
# The Claw and the adapters of its runtimes

`api/v1alpha1` as far as the webhook and the builder of the pod read it, and the adapters of
`internal/runtime`: `openclaw.go`, `hermesclaw.go`, `hermesrs.go` and `k8sops.go`.  An adapter gives
the part of the pod that its runtime decides and checks a spec on creation and on update; `main` of
`cmd/operator` registers the four of them, and the runtime `custom` of the API has none.

The enumerations are those of the CRD, which the API server enforces.  What the adapters use of
third-party code is in `Libs`.
-/

import K8s4Claw.AutoUpdate.Breaker
import K8s4Claw.Ops.Consumer

namespace K8s4Claw.Operator

/-- What the webhook and the builder use of third-party code. -/
structure Libs extends AutoUpdate.Libs where
  /-- `resource.ParseQuantity`, in billionths, the finest there are. -/
  parseQuantity : String → Option ℤ
  /-- `strconv.Quote`. -/
  quote : String → String
  /-- `strconv.Atoi`. -/
  atoi : String → Option ℤ
  /-- `json.Marshal` of a raw JSON text. -/
  marshal : String → Option String
  /-- SHA-256, printed in hexadecimal. -/
  sha256 : String → String

/-! ## Resources -/

/-- `ResourceRequirements`, with the quantities in billionths. -/
abbrev Resources := Ops.Consumer.Resources ℤ

/-- The quantity `n` followed by `m`. -/
def milli (n : ℤ) : ℤ := n * 1000000

/-- The quantity `n` followed by `Mi`. -/
def mebi (n : ℤ) : ℤ := n * 1048576 * 1000000000

/-- The quantity `n` followed by `Gi`. -/
def gibi (n : ℤ) : ℤ := n * 1073741824 * 1000000000

/-- `resources`, with the quantities for their texts. -/
def resources (cpuReq memReq cpuLim memLim : ℤ) : Resources where
  requests := some [("cpu", cpuReq), ("memory", memReq)]
  limits := some [("cpu", cpuLim), ("memory", memLim)]

/-! ## The Claw -/

inductive RuntimeType
  | openclaw
  | hermesclaw
  | hermesrs
  | k8sops
  | custom
  deriving DecidableEq

def RuntimeType.text : RuntimeType → String
  | .openclaw => "openclaw"
  | .hermesclaw => "hermesclaw"
  | .hermesrs => "hermesrs"
  | .k8sops => "k8sops"
  | .custom => "custom"

structure SecretKeySelector where
  name : String
  key : String
  optional : Bool := false
  deriving DecidableEq

structure KeyMapping where
  name : String
  secretKeyRef : SecretKeySelector
  deriving DecidableEq

structure ExternalSecretRef where
  provider : String
  store : String
  path : String
  deriving DecidableEq

structure CredentialSpec where
  secretRef : Option String := none
  externalSecret : Option ExternalSecretRef := none
  keys : List KeyMapping := []
  deriving DecidableEq

inductive ChannelMode
  | inbound
  | outbound
  | bidirectional
  deriving DecidableEq

def ChannelMode.text : ChannelMode → String
  | .inbound => "inbound"
  | .outbound => "outbound"
  | .bidirectional => "bidirectional"

structure ChannelRef where
  name : String
  mode : ChannelMode := .bidirectional
  deriving DecidableEq

structure VolumeSpec where
  enabled : Bool := true
  storageClass : String := ""
  size : String
  maxSize : String := ""
  mountPath : String
  deriving DecidableEq

structure ArchiveDestination where
  type : String
  bucket : String
  keyPrefix : String := ""
  secretRef : String
  deriving DecidableEq

structure ArchiveTrigger where
  schedule : String
  inotify : Bool := true
  deriving DecidableEq

structure ArchiveLifecycle where
  localRetention : String := ""
  compress : Bool := true
  deriving DecidableEq

structure ArchiveSpec where
  enabled : Bool
  destination : ArchiveDestination
  trigger : ArchiveTrigger
  lifecycle : Option ArchiveLifecycle := none
  deriving DecidableEq

structure OutputVolumeSpec extends VolumeSpec where
  archive : Option ArchiveSpec := none
  deriving DecidableEq

structure SharedVolumeRef where
  name : String
  claimName : String
  mountPath : String
  readOnly : Bool := false
  deriving DecidableEq

structure CacheSpec where
  enabled : Bool := true
  medium : String := "Memory"
  size : String
  mountPath : String
  deriving DecidableEq

inductive ReclaimPolicy
  | retain
  | archive
  | delete
  deriving DecidableEq

structure PersistenceSpec where
  reclaimPolicy : Option ReclaimPolicy := none
  session : Option VolumeSpec := none
  output : Option OutputVolumeSpec := none
  workspace : Option VolumeSpec := none
  shared : List SharedVolumeRef := []
  cache : Option CacheSpec := none
  deriving DecidableEq

structure NetworkPolicySpec where
  enabled : Bool
  allowedEgressCIDRs : List String := []
  allowedIngressNamespaces : List String := []
  deriving DecidableEq

structure SecuritySpec where
  networkPolicy : Option NetworkPolicySpec := none
  deriving DecidableEq

structure IngressTLS where
  secretName : String
  deriving DecidableEq

structure BasicAuthSpec where
  enabled : Bool
  secretName : String
  deriving DecidableEq

structure IngressSpec where
  enabled : Bool
  host : String
  className : String := ""
  tls : Option IngressTLS := none
  basicAuth : Option BasicAuthSpec := none
  annotations : List (String × String) := []
  deriving DecidableEq

structure PDBSpec where
  enabled : Bool := true
  minAvailable : ℤ := 1
  deriving DecidableEq

structure AvailabilitySpec where
  pdb : Option PDBSpec := none
  deriving DecidableEq

structure ServiceAccountRef where
  name : String := ""
  annotations : List (String × String) := []
  deriving DecidableEq

structure SelfConfigureSpec where
  enabled : Bool
  deriving DecidableEq

structure ClawSpec where
  runtime : RuntimeType
  /-- The raw JSON text. -/
  config : Option String := none
  credentials : Option CredentialSpec := none
  channels : List ChannelRef := []
  persistence : Option PersistenceSpec := none
  security : Option SecuritySpec := none
  ingress : Option IngressSpec := none
  availability : Option AvailabilitySpec := none
  serviceAccount : Option ServiceAccountRef := none
  selfConfigure : Option SelfConfigureSpec := none
  autoUpdate : Option AutoUpdate.AutoUpdateSpec := none
  replicas : Option Int32 := none
  resources : Option Resources := none
  deriving DecidableEq

/-- A Claw; `ns` is its namespace. -/
structure Claw where
  name : String
  ns : String
  uid : String := ""
  annotations : List (String × String) := []
  spec : ClawSpec
  deriving DecidableEq

structure OwnerReference where
  apiVersion : String
  kind : String
  name : String
  uid : String
  controller : Option Bool := none
  blockOwnerDeletion : Option Bool := none
  deriving DecidableEq

/-! ## Errors of the fields -/

inductive ErrorType
  | required
  | forbidden
  | invalid
  | notSupported
  deriving DecidableEq

/-- `field.Error`. -/
structure FieldError where
  type : ErrorType
  field : List String
  badValue : String := ""
  detail : String
  deriving DecidableEq

/-- The error, unless the check passes. -/
def require (ok : Bool) (e : FieldError) : List FieldError := if ok then [] else [e]

@[simp] theorem require_eq_nil_iff {ok : Bool} {e : FieldError} :
    require ok e = [] ↔ ok = true := by
  cases ok <;> simp [require]

/-! ## What an adapter gives -/

/-- Where the value of a variable comes from.  The sources besides a Secret, which only the
container of a custom channel can have, are `other`. -/
inductive EnvSource
  | value (text : String)
  | secretKeyRef (selector : SecretKeySelector)
  | other (ref : String)
  deriving DecidableEq

structure EnvVar where
  name : String
  source : EnvSource
  deriving DecidableEq

structure VolumeMount where
  name : String
  mountPath : String
  subPath : String := ""
  readOnly : Bool := false
  deriving DecidableEq

inductive VolumeSource
  | emptyDir (sizeLimit : Option ℤ) (medium : String)
  | configMap (name : String)
  | persistentVolumeClaim (claimName : String)
  deriving DecidableEq

structure Volume where
  name : String
  source : VolumeSource
  deriving DecidableEq

inductive ConfigMergeMode
  | overwrite
  | deepMerge
  | passthrough
  deriving DecidableEq

def ConfigMergeMode.text : ConfigMergeMode → String
  | .overwrite => "overwrite"
  | .deepMerge => "deepmerge"
  | .passthrough => "passthrough"

structure ContainerPort where
  name : String
  containerPort : Int32
  protocol : String := "TCP"
  deriving DecidableEq

/-- `RuntimeSpec`. -/
structure RuntimeSpec where
  image : String
  args : List String := []
  ports : List ContainerPort := []
  resources : Resources := {}
  extraVolumeMounts : List VolumeMount := []
  extraVolumes : List Volume := []
  env : List (String × String) := []
  configMode : Option ConfigMergeMode := none
  workspacePath : String := ""
  deriving DecidableEq

/-- `RuntimeAdapter`; `gatewayPort`, `workspacePath` and `environment` are those of
`DefaultConfig`. -/
structure RuntimeAdapter where
  runtimeSpec : RuntimeSpec
  gatewayPort : ℤ
  workspacePath : String := ""
  environment : List (String × String) := []
  validate : ClawSpec → List FieldError
  validateUpdate : ClawSpec → ClawSpec → List FieldError

/-! ## The checks of the adapters -/

def hasCredentials (spec : ClawSpec) : Bool :=
  match spec.credentials with
  | none => false
  | some c => c.secretRef.isSome || c.externalSecret.isSome || !c.keys.isEmpty

/-- The check for credentials, with the text of the runtime. -/
def requireCredentials (spec : ClawSpec) (detail : String) : List FieldError :=
  require (hasCredentials spec)
    { type := .required, field := ["spec", "credentials"], detail := detail }

/-- The check that a volume, if it is enabled, is mounted where the runtime expects it. -/
def requireMount (volume : String) (vol : Option VolumeSpec) (mountPath detail : String) :
    List FieldError :=
  match vol with
  | none => []
  | some p =>
      require (!p.enabled || p.mountPath = mountPath)
        { type := .invalid
          field := ["spec", "persistence", volume, "mountPath"]
          badValue := p.mountPath
          detail := detail }

/-- The checks on where the session and the workspace are mounted. -/
def requireMounts (spec : ClawSpec) (session workspace : String × String) : List FieldError :=
  match spec.persistence with
  | none => []
  | some p =>
      requireMount "session" p.session session.1 session.2 ++
        requireMount "workspace" p.workspace workspace.1 workspace.2

section

variable (L : Libs)

/-- The new size is not smaller, as far as both parse. -/
def sizeKept (oldSize newSize : String) : Bool :=
  match L.parseQuantity oldSize, L.parseQuantity newSize with
  | some oldSize, some newSize => oldSize ≤ newSize
  | _, _ => true

def validateVolumeUpdate (path : List String) (oldVol newVol : Option VolumeSpec) :
    List FieldError :=
  match oldVol, newVol with
  | some oldVol, some newVol =>
      if oldVol.enabled && newVol.enabled then
        require (oldVol.storageClass = "" || newVol.storageClass = oldVol.storageClass)
          { type := .forbidden
            field := path ++ ["storageClass"]
            detail :=
              "storage class is immutable after creation (was " ++ L.quote oldVol.storageClass ++
                ", got " ++ L.quote newVol.storageClass ++ ")" } ++
        require (sizeKept L oldVol.size newVol.size)
          { type := .forbidden
            field := path ++ ["size"]
            detail :=
              "PVC size cannot be reduced (was " ++ oldVol.size ++ ", got " ++ newVol.size ++ ")" }
      else []
  | _, _ => []

def validatePersistenceUpdate (oldSpec newSpec : ClawSpec) : List FieldError :=
  match oldSpec.persistence, newSpec.persistence with
  | some old, some new =>
      validateVolumeUpdate L ["spec", "persistence", "session"] old.session new.session ++
        validateVolumeUpdate L ["spec", "persistence", "output"]
          (old.output.map (·.toVolumeSpec)) (new.output.map (·.toVolumeSpec)) ++
        validateVolumeUpdate L ["spec", "persistence", "workspace"] old.workspace new.workspace
  | _, _ => []

/-! ## The adapters -/

def openClawAdapter : RuntimeAdapter where
  runtimeSpec :=
    { image := "ghcr.io/prismer-ai/k8s4claw-openclaw:latest"
      ports := [{ name := "gateway", containerPort := 18900 }]
      resources := resources (milli 500) (gibi 1) (milli 2000) (gibi 4)
      configMode := some .deepMerge
      workspacePath := "/workspace"
      env := [("OPENCLAW_MODE", "gateway")] }
  gatewayPort := 18900
  workspacePath := "/workspace"
  environment := [("OPENCLAW_MODE", "gateway")]
  validate spec :=
    requireCredentials spec "OpenClaw requires credentials (secretRef, externalSecret, or keys)"
  validateUpdate := validatePersistenceUpdate L

def hermesClawAdapter : RuntimeAdapter where
  runtimeSpec :=
    { image := "ghcr.io/nousresearch/hermes-agent:latest"
      args := ["gateway", "run"]
      ports := [{ name := "gateway", containerPort := 8642 }]
      resources := resources (milli 500) (gibi 1) (milli 2000) (gibi 4)
      extraVolumeMounts :=
        [{ name := "config-vol"
           mountPath := "/opt/data/config.yaml"
           subPath := "config.json"
           readOnly := true }]
      env :=
        [("HERMES_HOME", "/opt/data"), ("HOME", "/opt/data/home"), ("API_SERVER_ENABLED", "true"),
          ("API_SERVER_HOST", "0.0.0.0"), ("API_SERVER_PORT", "8642"),
          ("API_SERVER_MODEL_NAME", "hermes-agent")]
      configMode := some .deepMerge
      workspacePath := "/opt/data/skills" }
  gatewayPort := 8642
  workspacePath := "/opt/data/skills"
  environment :=
    [("HERMES_HOME", "/opt/data"), ("HOME", "/opt/data/home"), ("API_SERVER_ENABLED", "true"),
      ("API_SERVER_HOST", "0.0.0.0"), ("API_SERVER_PORT", "8642"),
      ("API_SERVER_MODEL_NAME", "hermes-agent")]
  validate spec :=
    requireCredentials spec
        "HermesClaw requires credentials (secretRef, externalSecret, or keys)" ++
      -- the update does not make this check
      require spec.channels.isEmpty
        { type := .forbidden
          field := ["spec", "channels"]
          detail :=
            "HermesClaw does not support k8s4claw channel sidecars yet; use Hermes native " ++
              "gateway integrations for now" } ++
      requireMounts spec ("/opt/data", "HermesClaw session storage must mount at /opt/data")
        ("/opt/data/skills", "HermesClaw workspace storage must mount at /opt/data/skills")
  validateUpdate := validatePersistenceUpdate L

def hermesRSAdapter : RuntimeAdapter where
  runtimeSpec :=
    { image := "ghcr.io/prismer-ai/hermes-agent-rs:latest"
      args := ["gateway"]
      ports := [{ name := "gateway", containerPort := 8080 }]
      resources := resources (milli 250) (mebi 512) (milli 2000) (gibi 4)
      env :=
        [("HERMES_HOME", "/data"), ("HERMES_GATEWAY_API_SERVER_BIND_ADDR", "0.0.0.0:8080"),
          ("HERMES_GATEWAY_API_SERVER_MODEL_NAME", "hermes-agent-rs"), ("RUST_LOG", "info")]
      configMode := some .deepMerge
      workspacePath := "/data/skills" }
  gatewayPort := 8080
  workspacePath := "/data/skills"
  environment :=
    [("HERMES_HOME", "/data"), ("HERMES_GATEWAY_API_SERVER_BIND_ADDR", "0.0.0.0:8080"),
      ("HERMES_GATEWAY_API_SERVER_MODEL_NAME", "hermes-agent-rs"), ("RUST_LOG", "info")]
  validate spec :=
    requireCredentials spec
        "HermesRS requires credentials (secretRef, externalSecret, or keys) for LLM API access" ++
      requireMounts spec ("/data", "HermesRS session storage must mount at /data")
        ("/data/skills", "HermesRS workspace storage must mount at /data/skills")
  validateUpdate := validatePersistenceUpdate L

/-- The check of the `k8sops` runtime, on creation and on update. -/
def requireNetworkPolicy (spec : ClawSpec) : List FieldError :=
  require ((spec.security.bind (·.networkPolicy)).any (·.enabled))
    { type := .required
      field := ["spec", "security", "networkPolicy", "enabled"]
      detail := "NetworkPolicy is mandatory for k8sops runtime" }

def k8sOpsAdapter : RuntimeAdapter where
  runtimeSpec :=
    { image := "ghcr.io/prismer-ai/claw4k8s:latest"
      ports := [{ name := "gateway", containerPort := 18910 }]
      resources := resources (milli 100) (mebi 256) (milli 500) (mebi 512)
      configMode := some .deepMerge
      workspacePath := "/workspace" }
  gatewayPort := 18910
  workspacePath := "/workspace"
  environment :=
    [("CLAW4K8S_ROLE", "companion"), ("CLAW4K8S_WATCH_NS", ""),
      ("CLAW4K8S_LLM_MODEL", "claude-sonnet-4-6")]
  validate := requireNetworkPolicy
  validateUpdate _ := requireNetworkPolicy

/-- `Registry.Get`, of the registry that `main` fills. -/
def registry : RuntimeType → Option RuntimeAdapter
  | .openclaw => some (openClawAdapter L)
  | .hermesclaw => some (hermesClawAdapter L)
  | .hermesrs => some (hermesRSAdapter L)
  | .k8sops => some k8sOpsAdapter
  | .custom => none

end

end K8s4Claw.Operator
