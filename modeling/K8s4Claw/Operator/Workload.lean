/-
# The workload of a Claw

`buildStatefulSet` of `internal/controller/claw_controller.go`: the template that the adapter gives
(`internal/runtime/pod_builder.go`) with what the controller puts into it, in this order: the bus
(`claw_ipcbus.go`), one container per channel (`channel_sidecar.go`), the archiver
(`claw_archiver.go`) and the credentials (`claw_credentials.go`).  The builders stop at an API call
that fails, and panic at a size that is no quantity.

What the containers of the result are is `built_of_build`.
Of a container the model has its name, image, arguments, environment, resources, ports and mounts;
probes, pull policies and security contexts are left out.
-/

import K8s4Claw.Operator.Adapters
import Mathlib.Data.List.Sort

namespace K8s4Claw.Operator

open List

/-! ## Channels, Secrets and the cluster -/

inductive ChannelType
  | slack
  | telegram
  | whatsapp
  | discord
  | matrix
  | webhook
  | custom
  deriving DecidableEq

def ChannelType.text : ChannelType → String
  | .slack => "slack"
  | .telegram => "telegram"
  | .whatsapp => "whatsapp"
  | .discord => "discord"
  | .matrix => "matrix"
  | .webhook => "webhook"
  | .custom => "custom"

structure SidecarSpec where
  image : String
  env : List EnvVar := []
  ports : List ContainerPort := []
  resources : Option Resources := none
  deriving DecidableEq

structure ClawChannelSpec where
  type : ChannelType
  mode : ChannelMode := .bidirectional
  credentials : Option CredentialSpec := none
  /-- The raw JSON text. -/
  config : Option String := none
  resources : Option Resources := none
  sidecar : Option SidecarSpec := none
  deriving DecidableEq

/-- The data of a Secret, its keys in any order. -/
structure Secret where
  data : List (String × String)
  nodup_keys : (data.map Prod.fst).Nodup
  deriving DecidableEq

/-- What the API server answers for a namespace and a name: the object, that there is none, or an
error. -/
structure Cluster where
  channel : String → String → Except String (Option ClawChannelSpec)
  secret : String → String → Except String (Option Secret)
  /-- The sources of variables that are not Secrets, for a namespace. -/
  other : String → String → Option String

/-! ## The pod template -/

structure Container where
  name : String
  image : String
  args : List String := []
  env : List EnvVar := []
  /-- The Secrets that `EnvFrom` names. -/
  envFrom : List String := []
  resources : Resources := {}
  ports : List ContainerPort := []
  volumeMounts : List VolumeMount := []
  /-- `RestartPolicy` is `Always`. -/
  restartAlways : Bool := false
  deriving DecidableEq

structure PodTemplate where
  annotations : List (String × String) := []
  initContainers : List Container
  containers : List Container
  volumes : List Volume
  deriving DecidableEq

structure PersistentVolumeClaim where
  name : String
  labels : List (String × String)
  storage : ℤ
  storageClassName : Option String
  deriving DecidableEq

structure StatefulSet where
  name : String
  ns : String
  replicas : Int32
  template : PodTemplate
  volumeClaimTemplates : List PersistentVolumeClaim
  deriving DecidableEq

/-- How a builder ends without a result. -/
inductive Failure
  /-- `resource.MustParse` of a text that is no quantity. -/
  | panicked (quantity : String)
  | failed (message : String)
  deriving DecidableEq

/-- `fmt.Errorf` with a text in front; a panic is not an error. -/
def Failure.wrap (text : String) : Failure → Failure
  | .panicked quantity => .panicked quantity
  | .failed message => .failed (text ++ message)

def EnvVar.literal (v : String × String) : EnvVar := ⟨v.1, .value v.2⟩

/-- `claw.Annotations[key]`. -/
def Claw.annotation (claw : Claw) (key : String) : String := (claw.annotations.lookup key).getD ""

namespace ClawSpec

section

variable (spec : ClawSpec)

/-- The session volume, if it is configured and enabled. -/
def session : Option VolumeSpec :=
  (spec.persistence.bind (·.session)).filter (·.enabled)

/-- The output volume, if it is configured and enabled. -/
def output : Option OutputVolumeSpec :=
  (spec.persistence.bind (·.output)).filter (·.enabled)

/-- The workspace volume, if it is configured and enabled. -/
def workspace : Option VolumeSpec :=
  (spec.persistence.bind (·.workspace)).filter (·.enabled)

/-- The cache, if it is configured and enabled. -/
def cache : Option CacheSpec :=
  (spec.persistence.bind (·.cache)).filter (·.enabled)

def shared : List SharedVolumeRef :=
  (spec.persistence.map (·.shared)).getD []

end

/-- The output volume, enabled or not, with its archive, if that is enabled. -/
def archive (spec : ClawSpec) : Option (OutputVolumeSpec × ArchiveSpec) :=
  (spec.persistence.bind (·.output)).bind fun output =>
    (output.archive.filter (·.enabled)).map fun archive => (output, archive)

end ClawSpec

section

variable (L : Libs)

def mustParse (quantity : String) : Except Failure ℤ :=
  match L.parseQuantity quantity with
  | none => .error (.panicked quantity)
  | some q => .ok q

/-! ## The template of the adapter -/

def cacheVolumes (cache : Option CacheSpec) : Except Failure (List Volume) :=
  match cache with
  | none => .ok []
  | some cache => (mustParse L cache.size).map fun size =>
      [{ name := "cache", source := .emptyDir (some size) cache.medium }]

/-- The volumes of every pod. -/
def podVolumes (claw : Claw) (walSize : ℤ) : List Volume :=
  [{ name := "ipc-socket", source := .emptyDir none "" },
    { name := "wal-data", source := .emptyDir (some walSize) "" },
    { name := "config-vol", source := .configMap (claw.name ++ "-config") },
    { name := "tmp", source := .emptyDir none "" }]

def buildVolumes (claw : Claw) (spec : RuntimeSpec) : Except Failure (List Volume) := do
  let walSize ← mustParse L "512Mi"
  let cache ← cacheVolumes L claw.spec.cache
  return podVolumes claw walSize ++ cache ++
    claw.spec.shared.map (fun s =>
      { name := "shared-" ++ s.name, source := .persistentVolumeClaim s.claimName }) ++
    spec.extraVolumes

def sharedEnvVars (claw : Claw) : List (String × String) :=
  [("CLAW_NAME", claw.name), ("CLAW_NAMESPACE", claw.ns),
    ("IPC_SOCKET_PATH", "/var/run/claw/bus.sock")]

def initContainerResources : Resources := resources (milli 100) (mebi 128) (milli 500) (mebi 256)

section

variable (claw : Claw) (spec : RuntimeSpec)

def buildInitContainer : Container :=
  let workspacePath := if spec.workspacePath = "" then "/workspace" else spec.workspacePath
  { name := "claw-init"
    image := "ghcr.io/prismer-ai/claw-init:latest"
    args :=
      ["--mode", (spec.configMode.getD .overwrite).text, "--workspace", workspacePath, "--runtime",
        claw.spec.runtime.text]
    env := (sharedEnvVars claw ++ [("NPM_CONFIG_IGNORE_SCRIPTS", "true")]).map EnvVar.literal
    resources := initContainerResources
    volumeMounts :=
      [{ name := "config-vol", mountPath := "/etc/claw", readOnly := true },
        { name := "tmp", mountPath := "/tmp" }] ++
      claw.spec.workspace.toList.map fun _ => { name := "workspace", mountPath := workspacePath } }

/-- The mounts of every runtime container. -/
def podMounts : List VolumeMount :=
  [{ name := "ipc-socket", mountPath := "/var/run/claw" },
    { name := "wal-data", mountPath := "/var/lib/claw/wal" },
    { name := "config-vol", mountPath := "/etc/claw", readOnly := true },
    { name := "tmp", mountPath := "/tmp" }]

/-- The mounts of the volumes of the spec. -/
def persistenceMounts : List VolumeMount :=
  claw.spec.cache.toList.map (fun p => { name := "cache", mountPath := p.mountPath }) ++
    claw.spec.session.toList.map (fun p => { name := "session", mountPath := p.mountPath }) ++
    claw.spec.output.toList.map (fun p => { name := "output", mountPath := p.mountPath }) ++
    claw.spec.workspace.toList.map (fun p => { name := "workspace", mountPath := p.mountPath }) ++
    claw.spec.shared.map (fun s =>
      { name := "shared-" ++ s.name, mountPath := s.mountPath, readOnly := s.readOnly })

def buildRuntimeContainer : Container where
  name := "runtime"
  image := spec.image
  args := spec.args
  -- of two variables of one name the last one counts
  env := (sharedEnvVars claw ++ spec.env).map EnvVar.literal
  resources := spec.resources
  ports := spec.ports
  volumeMounts := podMounts ++ persistenceMounts claw ++ spec.extraVolumeMounts

def buildPodTemplate : Except Failure PodTemplate :=
  (buildVolumes L claw spec).map fun volumes =>
    { initContainers := [buildInitContainer claw spec]
      containers := [buildRuntimeContainer claw spec]
      volumes := volumes }

end

def pvcTemplate (claw : Claw) (name : String) (p : VolumeSpec) :
    Except Failure PersistentVolumeClaim :=
  (mustParse L p.size).map fun size =>
    { name := name
      labels := [("claw.prismer.ai/instance", claw.name)]
      storage := size
      storageClassName := if p.storageClass = "" then none else some p.storageClass }

def buildVolumeClaimTemplates (claw : Claw) : Except Failure (List PersistentVolumeClaim) :=
  (claw.spec.session.toList.map (fun p => ("session", p)) ++
    claw.spec.output.toList.map (fun p => ("output", p.toVolumeSpec)) ++
    claw.spec.workspace.toList.map (fun p => ("workspace", p))).mapM fun p =>
      pvcTemplate L claw p.1 p.2

/-! ## What the controller puts into it -/

/-- A change to the container of the runtime, the first of that name. -/
def onRuntime (f : Container → Container) : List Container → List Container
  | [] => []
  | c :: cs => if c.name = "runtime" then f c :: cs else c :: onRuntime f cs

/-- The image of an auto-update that is on its way. -/
def overrideImage (claw : Claw) (t : PodTemplate) : PodTemplate :=
  let targetImage := claw.annotation "claw.prismer.ai/target-image"
  if targetImage = "" then t
  else { t with containers := onRuntime (fun c => { c with image := targetImage }) t.containers }

/-- One list of `mergeResourceRequirements`.  The keys of a list are taken to be different; the
first one of two counts, as when it is read. -/
def mergeResourceList (dst src : Option (Ops.Consumer.ResourceList ℤ)) :
    Option (Ops.Consumer.ResourceList ℤ) :=
  let src := src.getD []
  let dst := if dst.isNone && !src.isEmpty then some [] else dst
  dst.map fun m => src.foldr (fun e m => Ops.Consumer.ResourceList.set m e.1 e.2) m

def mergeResourceRequirements (dst src : Resources) : Resources where
  limits := mergeResourceList dst.limits src.limits
  requests := mergeResourceList dst.requests src.requests

/-- The resources of the runtime with those of the spec laid over them. -/
def overrideResources (claw : Claw) (res : Resources) : Resources :=
  (claw.spec.resources.map (mergeResourceRequirements res)).getD res

def applyResourceOverrides (claw : Claw) (t : PodTemplate) : PodTemplate :=
  let t := { t with
    containers :=
      onRuntime (fun c => { c with resources := overrideResources claw c.resources }) t.containers }
  let stamp := claw.annotation "claw.prismer.ai/restartedAt"
  if stamp = "" then t
  else { t with annotations := ("claw.prismer.ai/restartedAt", stamp) :: t.annotations }

section

variable (claw : Claw) (runtimeType : String) (gatewayPort : ℤ)

/-- The container that `injectIPCBusSidecar` adds. -/
def ipcBusContainer : Container where
  name := "ipc-bus"
  image := "ghcr.io/prismer-ai/claw-ipcbus:latest"
  env :=
    ([("CLAW_NAME", claw.name), ("CLAW_NAMESPACE", claw.ns), ("CLAW_RUNTIME", runtimeType),
      ("CLAW_GATEWAY_PORT", toString gatewayPort), ("IPC_SOCKET_PATH", "/var/run/claw"),
      ("WAL_DIR", "/var/run/claw/wal")] ++
      if runtimeType = "nanoclaw" then [("CLAW_RUNTIME_SOCKET", "/var/run/claw/runtime.sock")]
      else []).map EnvVar.literal
  resources := resources (milli 100) (mebi 128) (milli 500) (mebi 512)
  volumeMounts :=
    [{ name := "ipc-socket", mountPath := "/var/run/claw" },
      { name := "wal-data", mountPath := "/var/run/claw/wal" }]
  restartAlways := true

/-- `injectIPCBusSidecar`: after the first init container. -/
def injectIPCBusSidecar (t : PodTemplate) : PodTemplate :=
  let sidecar := ipcBusContainer claw runtimeType gatewayPort
  { t with initContainers := t.initContainers.take 1 ++ sidecar :: t.initContainers.drop 1 }

def injectIPCBusIfNeeded (t : PodTemplate) : PodTemplate :=
  if claw.spec.channels.isEmpty then t
  else if t.initContainers.any (·.name = "ipc-bus") then t
  else injectIPCBusSidecar claw runtimeType gatewayPort t

end

def isModeCompatible (requested capability : ChannelMode) : Bool :=
  capability = .bidirectional || capability = requested

def builtinChannelImage (type : ChannelType) : String :=
  "ghcr.io/prismer-ai/claw-channel-" ++ type.text ++ ":latest"

/-- The sidecar that a custom channel brings. -/
def ClawChannelSpec.customSidecar (channel : ClawChannelSpec) : Option SidecarSpec :=
  if channel.type = .custom then channel.sidecar else none

def channelDefaultResources : Resources := resources (milli 50) (mebi 32) (milli 200) (mebi 128)

def buildChannelContainer (channel : ClawChannelSpec) (ref : ChannelRef) (nativeSidecar : Bool) :
    Container where
  name := "channel-" ++ ref.name
  image := (channel.customSidecar.map (·.image)).getD (builtinChannelImage channel.type)
  env :=
    ([("CHANNEL_NAME", ref.name), ("CHANNEL_TYPE", channel.type.text),
      ("CHANNEL_MODE", ref.mode.text)] ++
      (channel.config.bind L.marshal).toList.map (fun raw => ("CHANNEL_CONFIG", raw))).map
        EnvVar.literal ++
    (channel.customSidecar.map (·.env)).getD []
  envFrom := (channel.credentials.bind (·.secretRef)).toList
  resources :=
    ((channel.customSidecar.bind (·.resources)).or channel.resources).getD channelDefaultResources
  ports := (channel.customSidecar.map (·.ports)).getD []
  volumeMounts := [{ name := "ipc-socket", mountPath := "/var/run/claw" }]
  restartAlways := nativeSidecar

/-- Add the container of a channel. -/
def PodTemplate.addSidecar (t : PodTemplate) (native : Bool) (c : Container) : PodTemplate :=
  if native then { t with initContainers := t.initContainers ++ [c] }
  else { t with containers := t.containers ++ [c] }

/-- The body of the loop of `injectChannelSidecars`: the channels that are skipped and the
template. -/
def injectChannelSidecar (cluster : Cluster) (native : Bool) (ns : String)
    (s : List String × PodTemplate) (ref : ChannelRef) :
    Except Failure (List String × PodTemplate) :=
  match cluster.channel ns ref.name with
  | .error err =>
      .error (.failed ("failed to get ClawChannel " ++ L.quote ref.name ++ ": " ++ err))
  | .ok none => .ok (s.1 ++ [ref.name], s.2)
  | .ok (some channel) =>
      if isModeCompatible ref.mode channel.mode then
        .ok (s.1, s.2.addSidecar native (buildChannelContainer L channel ref native))
      else .ok (s.1 ++ [ref.name], s.2)

def injectChannelSidecars (cluster : Cluster) (native : Bool) (claw : Claw) (t : PodTemplate) :
    Except Failure (List String × PodTemplate) :=
  claw.spec.channels.foldlM (injectChannelSidecar L cluster native claw.ns) ([], t)

def archiverArgs (archive : ArchiveSpec) : List String :=
  ["--schedule", archive.trigger.schedule] ++
    (if archive.trigger.inotify then ["--inotify"] else []) ++
    match archive.lifecycle with
    | none => []
    | some lifecycle =>
        (if lifecycle.localRetention = "" then []
          else ["--local-retention", lifecycle.localRetention]) ++
        if lifecycle.compress then ["--compress"] else []

/-- The container that `injectArchiverSidecar` adds. -/
def archiverContainer (output : OutputVolumeSpec) (archive : ArchiveSpec) : Container where
  name := "archive-sidecar"
  image := "ghcr.io/prismer-ai/claw-archiver:latest"
  args := archiverArgs archive
  env :=
    [("ARCHIVE_TYPE", archive.destination.type), ("ARCHIVE_BUCKET", archive.destination.bucket),
      ("ARCHIVE_PREFIX", archive.destination.keyPrefix),
      ("ARCHIVE_SCHEDULE", archive.trigger.schedule)].map EnvVar.literal ++
    [("AWS_ACCESS_KEY_ID", "access-key-id"), ("AWS_SECRET_ACCESS_KEY", "secret-access-key")].map
      fun v => ⟨v.1, .secretKeyRef ⟨archive.destination.secretRef, v.2, true⟩⟩
  resources := resources (milli 50) (mebi 64) (milli 200) (mebi 256)
  volumeMounts := [{ name := "output", mountPath := output.mountPath }]
  restartAlways := true

def injectArchiverIfNeeded (claw : Claw) (t : PodTemplate) : PodTemplate :=
  match claw.spec.archive with
  | none => t
  | some (output, archive) =>
      if t.initContainers.any (·.name = "archive-sidecar") then t
      else { t with initContainers := t.initContainers ++ [archiverContainer output archive] }

/-- `computeSecretHash`, over the data in the order of the keys. -/
def computeSecretHash (cluster : Cluster) (ns name : String) : Except Failure String :=
  let failed (err : String) : Failure :=
    .failed ("failed to get Secret " ++ ns ++ "/" ++ name ++ ": " ++ err)
  match cluster.secret ns name with
  | .error err => .error (failed err)
  | .ok none => .error (failed ("secrets " ++ L.quote name ++ " not found"))
  | .ok (some secret) =>
      let sorted := secret.data.insertionSort fun e f => e.1 ≤ f.1
      .ok (L.sha256 (String.join (sorted.map fun e => e.1 ++ "=" ++ e.2)))

/-- The variables for the keys of the credentials. -/
def keyEnv (keys : List KeyMapping) : List EnvVar :=
  keys.map fun km => ⟨km.name, .secretKeyRef ⟨km.secretKeyRef.name, km.secretKeyRef.key, false⟩⟩

/-- What `injectCredentials` adds to the container of the runtime. -/
def withCredentials (creds : CredentialSpec) (c : Container) : Container :=
  { c with envFrom := c.envFrom ++ creds.secretRef.toList, env := c.env ++ keyEnv creds.keys }

/-- The annotation that restarts the pod when the Secret changes. -/
def secretAnnotations (cluster : Cluster) (ns : String) (creds : CredentialSpec) :
    Except Failure (List (String × String)) :=
  match creds.secretRef with
  | none => .ok []
  | some name =>
      ((computeSecretHash L cluster ns name).mapError
        (Failure.wrap "failed to compute secret hash: ")).map fun hash =>
          [("claw.prismer.ai/secret-hash", hash)]

def injectCredentials (cluster : Cluster) (claw : Claw) (t : PodTemplate) :
    Except Failure PodTemplate :=
  match claw.spec.credentials with
  | none => .ok t
  | some creds =>
      if t.containers.any (·.name = "runtime") then
        (secretAnnotations L cluster claw.ns creds).map fun annotations =>
          { t with
            annotations := annotations ++ t.annotations
            containers := onRuntime (withCredentials creds) t.containers }
      else .error (.failed "runtime container not found in pod template")

/-- `buildStatefulSet`; `native` is `NativeSidecarsEnabled`. -/
def buildStatefulSet (cluster : Cluster) (native : Bool) (claw : Claw) (adapter : RuntimeAdapter) :
    Except Failure StatefulSet := do
  let base ← buildPodTemplate L claw adapter.runtimeSpec
  let updated := applyResourceOverrides claw (overrideImage claw base)
  let wired := injectIPCBusIfNeeded claw claw.spec.runtime.text adapter.gatewayPort updated
  let (_, channelled) ← (injectChannelSidecars L cluster native claw wired).mapError
    (Failure.wrap "failed to inject channel sidecars: ")
  let archived := injectArchiverIfNeeded claw channelled
  let template ← (injectCredentials L cluster claw archived).mapError
    (Failure.wrap "failed to inject credentials: ")
  let volumeClaimTemplates ← buildVolumeClaimTemplates L claw
  return { name := claw.name
           ns := claw.ns
           replicas := claw.spec.replicas.getD 1
           template := template
           volumeClaimTemplates := volumeClaimTemplates }

/-! ## The containers of the result -/

/-- The channel of a reference, if it is there and can be used as the Claw asks. -/
def Cluster.usable (cluster : Cluster) (ns : String) (ref : ChannelRef) : Option ClawChannelSpec :=
  match cluster.channel ns ref.name with
  | .ok (some channel) => if isModeCompatible ref.mode channel.mode then some channel else none
  | .ok none | .error _ => none

/-- The containers for the channels of a Claw. -/
def sidecars (cluster : Cluster) (native : Bool) (ns : String) (refs : List ChannelRef) :
    List Container :=
  refs.filterMap fun ref =>
    (cluster.usable ns ref).map fun channel => buildChannelContainer L channel ref native

/-- The container of the runtime with what the controller changes in it. -/
def runtimeContainer (claw : Claw) (spec : RuntimeSpec) : Container :=
  let c := buildRuntimeContainer claw spec
  let targetImage := claw.annotation "claw.prismer.ai/target-image"
  let c :=
    { c with
      image := if targetImage = "" then c.image else targetImage
      resources := overrideResources claw c.resources }
  (claw.spec.credentials.map fun creds => withCredentials creds c).getD c

variable {L}

variable {α : Type} {x : Except Failure α}

theorem bind_eq_ok {β : Type} {f : α → Except Failure β} {b : β} (h : x >>= f = .ok b) :
    ∃ a, x = .ok a ∧ f a = .ok b := by
  cases x with
  | error => cases h
  | ok a => exact ⟨a, rfl, h⟩

theorem map_eq_ok {β : Type} {f : α → β} {b : β} (h : x.map f = .ok b) :
    ∃ a, x = .ok a ∧ f a = b := by
  cases x with
  | error => cases h
  | ok a => exact ⟨a, rfl, Except.ok.inj h⟩

theorem mapError_eq_ok {f : Failure → Failure} {a : α} (h : x.mapError f = .ok a) : x = .ok a := by
  cases x with
  | error => cases h
  | ok => exact h

theorem exists_eq_ok (h : x.isOk = true) : ∃ a, x = .ok a := by
  cases x with
  | error => cases h
  | ok a => exact ⟨a, rfl⟩

section

variable {cluster : Cluster} {native : Bool} {claw : Claw} {adapter : RuntimeAdapter}
  {sts : StatefulSet} {t t' : PodTemplate} {c : Container}

@[simp] theorem runtimeContainer_name (claw : Claw) (spec : RuntimeSpec) :
    (runtimeContainer claw spec).name = "runtime" := by
  unfold runtimeContainer
  cases claw.spec.credentials <;> rfl

theorem name_ne_of_mem_sidecars {ns : String} {refs : List ChannelRef} {name : String}
    (hname : name.toList.head? ≠ some 'c') (hc : c ∈ sidecars L cluster native ns refs) :
    c.name ≠ name := by
  obtain ⟨ref, -, hc⟩ := mem_filterMap.mp hc
  obtain ⟨-, -, rfl⟩ := Option.map_eq_some_iff.mp hc
  rintro rfl
  simp [buildChannelContainer] at hname

/-! ### The stages -/

theorem overrideImage_eq (claw : Claw) (t : PodTemplate) :
    overrideImage claw t =
      { t with
        containers :=
          if claw.annotation "claw.prismer.ai/target-image" = "" then t.containers
          else onRuntime (fun c =>
            { c with image := claw.annotation "claw.prismer.ai/target-image" }) t.containers } := by
  simp only [overrideImage]
  split_ifs <;> rfl

theorem applyResourceOverrides_eq (claw : Claw) (t : PodTemplate) :
    ∃ annotations, applyResourceOverrides claw t =
      { t with
        annotations := annotations
        containers := onRuntime
          (fun c => { c with resources := overrideResources claw c.resources }) t.containers } := by
  simp only [applyResourceOverrides]
  split_ifs
  · exact ⟨t.annotations, rfl⟩
  · exact ⟨_, rfl⟩

theorem injectIPCBusIfNeeded_eq {runtimeType : String} {gatewayPort : ℤ}
    (ht : t.initContainers = [c]) (hc : c.name ≠ "ipc-bus") :
    injectIPCBusIfNeeded claw runtimeType gatewayPort t =
      { t with
        initContainers := c :: if claw.spec.channels.isEmpty then []
          else [ipcBusContainer claw runtimeType gatewayPort] } := by
  by_cases hempty : claw.spec.channels.isEmpty = true
  · simp [injectIPCBusIfNeeded, hempty, ← ht]
  · simp [injectIPCBusIfNeeded, hempty, injectIPCBusSidecar, ht, hc]

/-- **What the loop over the channels adds:** their containers, in order, on one of the sides. -/
theorem injectChannelSidecars_eq {ns : String} {refs : List ChannelRef}
    {s s' : List String × PodTemplate}
    (h : refs.foldlM (injectChannelSidecar L cluster native ns) s = .ok s') :
    s'.2 =
      { s.2 with
        initContainers :=
          s.2.initContainers ++ if native then sidecars L cluster native ns refs else []
        containers :=
          s.2.containers ++ if native then [] else sidecars L cluster native ns refs } := by
  induction refs generalizing s with
  | nil =>
    cases h
    simp [sidecars]
  | cons ref _ ih =>
    obtain ⟨s₁, hs₁, h⟩ := bind_eq_ok h
    rw [ih h]
    unfold injectChannelSidecar at hs₁
    cases hchannel : cluster.channel ns ref.name with
    | error => simp [hchannel] at hs₁
    | ok found =>
      cases found with
      | none =>
        simp only [hchannel, Except.ok.injEq] at hs₁
        simp [← hs₁, sidecars, Cluster.usable, hchannel]
      | some =>
        simp only [hchannel] at hs₁
        split_ifs at hs₁ with hmode
        · cases hs₁
          cases native <;> simp [sidecars, Cluster.usable, hchannel, hmode, PodTemplate.addSidecar]
        · cases hs₁
          simp [sidecars, Cluster.usable, hchannel, hmode]

theorem injectArchiverIfNeeded_eq (ht : ∀ c ∈ t.initContainers, c.name ≠ "archive-sidecar") :
    injectArchiverIfNeeded claw t =
      { t with
        initContainers := t.initContainers ++
          claw.spec.archive.toList.map fun a => archiverContainer a.1 a.2 } := by
  have hnone : t.initContainers.any (·.name = "archive-sidecar") = false := by
    rw [any_eq_false]
    exact fun c hc => by simpa using ht c hc
  unfold injectArchiverIfNeeded
  cases claw.spec.archive with
  | none => simp
  | some => simp [hnone]

theorem injectCredentials_eq {cs : List Container}
    (h : injectCredentials L cluster claw t = .ok t') (ht : t.containers = c :: cs)
    (hc : c.name = "runtime") :
    ∃ annotations, t' =
      { t with
        annotations := annotations
        containers := (claw.spec.credentials.map fun creds => withCredentials creds c).getD c ::
          cs } := by
  unfold injectCredentials at h
  cases hcreds : claw.spec.credentials with
  | none =>
    simp only [hcreds, Except.ok.injEq] at h
    exact ⟨t.annotations, by simp [← h, ← ht]⟩
  | some =>
    simp only [hcreds] at h
    split_ifs at h
    obtain ⟨annotations, -, rfl⟩ := map_eq_ok h
    exact ⟨annotations ++ t.annotations, by simp [ht, onRuntime, hc]⟩

/-- The template before the channels are injected. -/
def withoutChannels (claw : Claw) (adapter : RuntimeAdapter) (volumes : List Volume) :
    PodTemplate :=
  injectIPCBusIfNeeded claw claw.spec.runtime.text adapter.gatewayPort
    (applyResourceOverrides claw (overrideImage claw
      { initContainers := [buildInitContainer claw adapter.runtimeSpec]
        containers := [buildRuntimeContainer claw adapter.runtimeSpec]
        volumes := volumes }))

theorem withoutChannels_eq (claw : Claw) (adapter : RuntimeAdapter) (volumes : List Volume) :
    ∃ annotations, withoutChannels claw adapter volumes =
      { annotations := annotations
        initContainers :=
          buildInitContainer claw adapter.runtimeSpec :: if claw.spec.channels.isEmpty then []
            else [ipcBusContainer claw claw.spec.runtime.text adapter.gatewayPort]
        containers :=
          [{ buildRuntimeContainer claw adapter.runtimeSpec with
            image :=
              if claw.annotation "claw.prismer.ai/target-image" = "" then adapter.runtimeSpec.image
              else claw.annotation "claw.prismer.ai/target-image"
            resources := overrideResources claw adapter.runtimeSpec.resources }]
        volumes := volumes } := by
  have hinit : (buildInitContainer claw adapter.runtimeSpec).name ≠ "ipc-bus" := by
    simp [buildInitContainer]
  obtain ⟨annotations, hupdated⟩ := applyResourceOverrides_eq claw (overrideImage claw _)
  refine ⟨annotations, ?_⟩
  rw [withoutChannels, hupdated, overrideImage_eq, injectIPCBusIfNeeded_eq rfl hinit]
  split_ifs <;> rfl

/-- What a StatefulSet is made of: the init containers are `claw-init`, the bus if there are
channels, the channels if they are native sidecars, and the archiver if there is an archive; the
main containers are the runtime, and the channels otherwise; the volumes and claims are those of
the two builders. -/
structure Built (L : Libs) (cluster : Cluster) (native : Bool) (claw : Claw)
    (adapter : RuntimeAdapter) (sts : StatefulSet) : Prop where
  initContainers : sts.template.initContainers =
    buildInitContainer claw adapter.runtimeSpec ::
      (if claw.spec.channels.isEmpty then []
        else [ipcBusContainer claw claw.spec.runtime.text adapter.gatewayPort]) ++
      (if native then sidecars L cluster native claw.ns claw.spec.channels else []) ++
      claw.spec.archive.toList.map fun a => archiverContainer a.1 a.2
  containers : sts.template.containers =
    runtimeContainer claw adapter.runtimeSpec ::
      if native then [] else sidecars L cluster native claw.ns claw.spec.channels
  volumes : buildVolumes L claw adapter.runtimeSpec = .ok sts.template.volumes
  claims : buildVolumeClaimTemplates L claw = .ok sts.volumeClaimTemplates

variable (h : buildStatefulSet L cluster native claw adapter = .ok sts)

include h

theorem stages_of_build :
    ∃ volumes s,
      buildVolumes L claw adapter.runtimeSpec = .ok volumes ∧
      injectChannelSidecars L cluster native claw (withoutChannels claw adapter volumes) = .ok s ∧
      injectCredentials L cluster claw (injectArchiverIfNeeded claw s.2) = .ok sts.template ∧
      buildVolumeClaimTemplates L claw = .ok sts.volumeClaimTemplates := by
  obtain ⟨base, hbase, h⟩ := bind_eq_ok h
  obtain ⟨s, hs, h⟩ := bind_eq_ok h
  obtain ⟨template, htemplate, h⟩ := bind_eq_ok h
  obtain ⟨claims, hclaims, h⟩ := bind_eq_ok h
  cases h
  obtain ⟨volumes, hvolumes, rfl⟩ := map_eq_ok hbase
  exact ⟨volumes, s, hvolumes, mapError_eq_ok hs, mapError_eq_ok htemplate, hclaims⟩

/-- **What is built for a Claw.** -/
theorem built_of_build : Built L cluster native claw adapter sts := by
  obtain ⟨volumes, s, hvolumes, hs, htemplate, hclaims⟩ := stages_of_build h
  obtain ⟨_, hwithout⟩ := withoutChannels_eq claw adapter volumes
  have hchannelled := injectChannelSidecars_eq hs
  simp only [hwithout] at hchannelled
  have harchived : ∀ c ∈ s.2.initContainers, c.name ≠ "archive-sidecar" := by
    intro c hc
    rw [hchannelled] at hc
    simp only [mem_append, mem_cons] at hc
    rcases hc with (rfl | hc) | hc
    · simp [buildInitContainer]
    · split_ifs at hc
      · cases hc
      · obtain rfl := mem_singleton.mp hc
        simp [ipcBusContainer]
    · split_ifs at hc
      · exact name_ne_of_mem_sidecars (by decide) hc
      · cases hc
  rw [injectArchiverIfNeeded_eq harchived] at htemplate
  obtain ⟨annotations, hcredentials⟩ :=
    injectCredentials_eq htemplate (congrArg PodTemplate.containers hchannelled) rfl
  rw [hchannelled] at hcredentials
  refine ⟨?_, ?_, ?_, hclaims⟩
  · rw [hcredentials]
  · rw [hcredentials]
    rfl
  · rw [hcredentials]
    exact hvolumes

end

end

end K8s4Claw.Operator
