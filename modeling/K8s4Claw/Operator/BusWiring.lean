/-
# The wiring of the bus

Three programs of a pod must agree on where the bus listens.  The controller writes
`IPC_SOCKET_PATH` into the containers of the bus and of the runtime (`claw_ipcbus.go`,
`pod_builder.go`) and into none of the channels, which then use the default of the SDK
(`sdk/channel/options.go`); `runServe` of `cmd/ipcbus/main.go` takes the variable as the path of its
socket.  The values are two: the bus is given the directory `/var/run/claw`, and the others use the
file `/var/run/claw/bus.sock` in it.  Besides, `NewBridge` knows `openclaw` and three runtimes that
have no adapter, while the webhook accepts channels for the runtimes of the other adapters too.

A pod may be wired nevertheless, by Secrets that set the variable (`wired_iff`).  How the variables
of a container are resolved is that of Kubernetes: a variable of the container itself counts before
those of a whole Secret, and of two of one name the last one.
-/

import K8s4Claw.IpcBus.Bridges
import K8s4Claw.Operator.Admission
import K8s4Claw.Operator.Workload

namespace K8s4Claw.Operator

open List Option

/-! ## The variables of a container -/

/-- The data of a Secret that is there. -/
def Cluster.secretData (cluster : Cluster) (ns name : String) : Option (List (String × String)) :=
  match cluster.secret ns name with
  | .ok (some secret) => some secret.data
  | .ok none | .error _ => none

section

variable (cluster : Cluster) (ns : String)

def Cluster.secretKey (selector : SecretKeySelector) : Option String :=
  (cluster.secretData ns selector.name).bind fun data => data.lookup selector.key

/-- What a variable of a container becomes; without the Secret that it needs, the container is not
started. -/
def Cluster.resolve (v : EnvVar) : Option (List (String × String)) :=
  match v.source with
  | .value text => some [(v.name, text)]
  | .secretKeyRef selector =>
      match cluster.secretKey ns selector with
      | some text => some [(v.name, text)]
      | none => if selector.optional then some [] else none
  | .other ref => (cluster.other ns ref).map fun text => [(v.name, text)]

/-- The variables a container is started with, those that count first. -/
def Cluster.environ (c : Container) : Option (List (String × String)) :=
  (c.envFrom.mapM (cluster.secretData ns)).bind fun secrets =>
    (c.env.mapM (cluster.resolve ns)).map fun own =>
      own.reverse.flatten ++ secrets.reverse.flatten

end

def envOr (vars : List (String × String)) (key fallback : String) : String :=
  let v := (vars.lookup key).getD ""
  if v = "" then fallback else v

def envOrInt (L : Libs) (vars : List (String × String)) (key : String) (fallback : ℤ) : ℤ :=
  let v := (vars.lookup key).getD ""
  if v = "" then fallback else (L.atoi v).getD fallback

/-! ## Who uses which path -/

/-- What `runServe` makes of its variables. -/
structure BusConfig where
  socketPath : String
  runtime : String
  bridge : IpcBus.BridgeConfig
  deriving DecidableEq

/-- The start of `runServe`. -/
def runServe (L : Libs) (vars : List (String × String)) : BusConfig where
  socketPath := envOr vars "IPC_SOCKET_PATH" "/var/run/claw/bus.sock"
  runtime := envOr vars "CLAW_RUNTIME" "openclaw"
  bridge :=
    { gatewayPort := envOrInt L vars "CLAW_GATEWAY_PORT" 18900
      socketPath := envOr vars "CLAW_RUNTIME_SOCKET" "/var/run/claw/runtime.sock" }

section

variable (L : Libs) (cluster : Cluster)

/-- What the bus of a pod is started with. -/
def busConfig (ns : String) (t : PodTemplate) : Option BusConfig :=
  (t.initContainers.find? (·.name = "ipc-bus")).bind fun c =>
    (cluster.environ ns c).map (runServe L)

/-- The path that the SDK dials in the container of a channel: `defaultConfig`. -/
def sdkSocketPath (ns : String) (c : Container) : Option String :=
  (cluster.environ ns c).map fun vars => envOr vars "IPC_SOCKET_PATH" "/var/run/claw/bus.sock"

/-- The path that the container of the runtime is given. -/
def runtimeSocketPath (ns : String) (t : PodTemplate) : Option String :=
  (t.containers.find? (·.name = "runtime")).bind fun c =>
    (cluster.environ ns c).bind fun vars => vars.lookup "IPC_SOCKET_PATH"

/-- The channels of a Claw that are there, can be used as it asks, and are not custom ones. -/
def builtinChannels (claw : Claw) : List (ChannelRef × ClawChannelSpec) :=
  claw.spec.channels.filterMap fun ref =>
    ((cluster.usable claw.ns ref).filter (·.type ≠ .custom)).map fun channel => (ref, channel)

/-- The bus finds a bridge for its runtime, and the channels and the runtime use the path that it
listens on. -/
def Wired (native : Bool) (claw : Claw) (t : PodTemplate) : Prop :=
  ∃ cfg ∈ busConfig L cluster claw.ns t,
    (IpcBus.newBridge cfg.runtime cfg.bridge).isOk = true ∧
      (∀ p ∈ builtinChannels cluster claw,
        buildChannelContainer L p.2 p.1 native ∈ t.initContainers ++ t.containers ∧
          sdkSocketPath cluster claw.ns (buildChannelContainer L p.2 p.1 native) =
            some cfg.socketPath) ∧
      runtimeSocketPath cluster claw.ns t = some cfg.socketPath
  deriving Decidable

/-- What the keys of the credentials make of a variable, the last one of that name. -/
def keyOverride (claw : Claw) (name : String) : Option String :=
  (claw.spec.credentials.bind fun creds => creds.keys.mapM fun km =>
    (cluster.secretKey claw.ns km.secretKeyRef).map fun text => (km.name, text)).bind
      fun values => values.reverse.lookup name

/-- The variable as the Secret of a channel has it. -/
def secretOverride (ns : String) (channel : ClawChannelSpec) (name : String) : Option String :=
  ((channel.credentials.bind (·.secretRef)).bind (cluster.secretData ns)).bind fun data =>
    data.lookup name

/-- The runtime is `openclaw`, and the Secrets set the path of the bus where the controller does
not. -/
structure Overridden (claw : Claw) : Prop where
  runtime : claw.spec.runtime = .openclaw
  keys : keyOverride cluster claw "IPC_SOCKET_PATH" = some "/var/run/claw"
  channels : ∀ p ∈ builtinChannels cluster claw,
    secretOverride cluster claw.ns p.2 "IPC_SOCKET_PATH" = some "/var/run/claw"

variable {L} {cluster}

/-! ## Resolving the containers -/

variable {ns : String} {native : Bool} {claw : Claw} {adapter : RuntimeAdapter} {sts : StatefulSet}

theorem mapM_resolve_literal (vs : List (String × String)) :
    (vs.map EnvVar.literal).mapM (cluster.resolve ns) = some (vs.map fun v => [v]) := by
  induction vs with
  | nil => rfl
  | cons v vs ih =>
    rw [map_cons, mapM_cons, ih]
    rfl

theorem mapM_resolve_keyEnv (keys : List KeyMapping) :
    (keyEnv keys).mapM (cluster.resolve ns) =
      (keys.mapM fun km => (cluster.secretKey ns km.secretKeyRef).map fun text =>
        (km.name, text)).map fun values => values.map fun v => [v] := by
  induction keys with
  | nil => rfl
  | cons km keys ih =>
    rw [keyEnv, map_cons, mapM_cons, mapM_cons, ← keyEnv, ih]
    have hkey : cluster.secretKey ns ⟨km.secretKeyRef.name, km.secretKeyRef.key, false⟩ =
        cluster.secretKey ns km.secretKeyRef := rfl
    simp only [Cluster.resolve, hkey]
    cases cluster.secretKey ns km.secretKeyRef with
    | none => rfl
    | some =>
      cases keys.mapM fun km => (cluster.secretKey ns km.secretKeyRef).map fun text =>
        (km.name, text) with
      | none => rfl
      | some => rfl

theorem flatten_reverse_singletons {α : Type} (l : List α) :
    (l.map fun a => [a]).reverse.flatten = l.reverse := by
  rw [← map_reverse, ← flatMap_def, flatMap_singleton']

theorem environ_eq {c : Container} {vs : List (String × String)} {keys : List KeyMapping}
    (hc : c.env = vs.map EnvVar.literal ++ keyEnv keys) :
    cluster.environ ns c =
      (c.envFrom.mapM (cluster.secretData ns)).bind fun secrets =>
        (keys.mapM fun km => (cluster.secretKey ns km.secretKeyRef).map fun text =>
          (km.name, text)).map fun values =>
            values.reverse ++ (vs.reverse ++ secrets.reverse.flatten) := by
  unfold Cluster.environ
  congr 1
  funext secrets
  rw [hc, mapM_append, mapM_resolve_literal, mapM_resolve_keyEnv]
  cases keys.mapM fun km => (cluster.secretKey ns km.secretKeyRef).map fun text =>
    (km.name, text) with
  | none => rfl
  | some values =>
    have hflat : (vs.map (fun v => [v]) ++ values.map fun v => [v]).reverse.flatten =
        values.reverse ++ vs.reverse := by
      rw [← map_append, flatten_reverse_singletons, reverse_append]
    have hassoc := congrArg (· ++ secrets.reverse.flatten) hflat
    simp only [append_assoc] at hassoc
    exact congrArg some hassoc

theorem environ_literal {c : Container} {vs : List (String × String)}
    (hc : c.env = vs.map EnvVar.literal) :
    cluster.environ ns c =
      (c.envFrom.mapM (cluster.secretData ns)).map fun secrets =>
        vs.reverse ++ secrets.reverse.flatten := by
  have hkeys : c.env = vs.map EnvVar.literal ++ keyEnv [] := by rw [hc]; exact
    (append_nil _).symm
  rw [environ_eq hkeys]
  cases c.envFrom.mapM (cluster.secretData ns) with
  | none | some => rfl

theorem busConfig_of_build (hchannels : claw.spec.channels ≠ [])
    (h : buildStatefulSet L cluster native claw adapter = .ok sts) :
    ∃ bridge, busConfig L cluster claw.ns sts.template =
      some { socketPath := "/var/run/claw"
             runtime := claw.spec.runtime.text
             bridge := bridge } := by
  have hfind : sts.template.initContainers.find? (·.name = "ipc-bus") =
      some (ipcBusContainer claw claw.spec.runtime.text adapter.gatewayPort) := by
    rw [(built_of_build h).initContainers]
    simp [hchannels, buildInitContainer, ipcBusContainer]
  have hnano : claw.spec.runtime.text ≠ "nanoclaw" := by
    cases claw.spec.runtime <;> decide
  have hempty : claw.spec.runtime.text ≠ "" := by
    cases claw.spec.runtime <;> decide
  obtain ⟨vars, hvars, hsocket, hruntime⟩ :
      ∃ vars, cluster.environ claw.ns
          (ipcBusContainer claw claw.spec.runtime.text adapter.gatewayPort) = some vars ∧
        vars.lookup "IPC_SOCKET_PATH" = some "/var/run/claw" ∧
        vars.lookup "CLAW_RUNTIME" = some claw.spec.runtime.text := by
    rw [environ_literal (by rw [ipcBusContainer, if_neg hnano])]
    exact ⟨_, rfl, rfl, rfl⟩
  unfold busConfig
  rw [hfind, bind_some, hvars]
  simp [runServe, envOr, hsocket, hruntime, hempty]

/-- **A built-in channel uses the path of the bus exactly if its Secret says so.** -/
theorem sdkSocketPath_builtin {ref : ChannelRef} {channel : ClawChannelSpec}
    (htype : channel.type ≠ .custom) :
    sdkSocketPath cluster ns (buildChannelContainer L channel ref native) =
        some "/var/run/claw" ↔
      secretOverride cluster ns channel "IPC_SOCKET_PATH" = some "/var/run/claw" := by
  -- the container has no such variable of its own
  obtain ⟨vs, henv, hvs⟩ :
      ∃ vs : List (String × String),
        (buildChannelContainer L channel ref native).env = vs.map EnvVar.literal ∧
          vs.reverse.lookup "IPC_SOCKET_PATH" = none := by
    have hcustom : channel.customSidecar = none := if_neg htype
    refine ⟨_, by rw [buildChannelContainer, hcustom]; exact append_nil _, ?_⟩
    cases channel.config.bind L.marshal with
    | none | some => rfl
  have hfrom : (buildChannelContainer L channel ref native).envFrom =
      (channel.credentials.bind (·.secretRef)).toList := rfl
  unfold sdkSocketPath secretOverride
  rw [environ_literal henv, hfrom]
  cases channel.credentials.bind (·.secretRef) with
  | none => simp [envOr, hvs]
  | some name =>
    cases hdata : cluster.secretData ns name with
    | none => simp [hdata]
    | some data =>
      cases hvalue : data.lookup "IPC_SOCKET_PATH" with
      | none => simp [hdata, envOr, lookup_append, hvs, hvalue]
      | some value =>
        -- an empty value is no value for the SDK
        by_cases hempty : value = ""
        · simp [hdata, envOr, lookup_append, hvs, hvalue, hempty]
        · simp [hdata, envOr, lookup_append, hvs, hvalue, hempty]

theorem secretData_of_build {creds : CredentialSpec} {name : String}
    (hcreds : claw.spec.credentials = some creds) (hname : creds.secretRef = some name)
    (h : buildStatefulSet L cluster native claw adapter = .ok sts) :
    ∃ data, cluster.secretData claw.ns name = some data := by
  obtain ⟨-, s, -, -, htemplate, -⟩ := stages_of_build h
  unfold injectCredentials at htemplate
  simp only [hcreds] at htemplate
  split_ifs at htemplate
  obtain ⟨annotations, hannotations, -⟩ := map_eq_ok htemplate
  simp only [secretAnnotations, hname] at hannotations
  obtain ⟨hash, hhash, -⟩ := map_eq_ok hannotations
  have hhash := mapError_eq_ok hhash
  unfold Cluster.secretData
  cases hsecret : cluster.secret claw.ns name with
  | error => simp [computeSecretHash, hsecret] at hhash
  | ok found =>
    cases found with
    | none => simp [computeSecretHash, hsecret] at hhash
    | some secret => exact ⟨secret.data, rfl⟩

/-- The keys of the credentials, none if there are no credentials. -/
def Claw.keys (claw : Claw) : List KeyMapping := (claw.spec.credentials.map (·.keys)).getD []

theorem keyOverride_eq (claw : Claw) (name : String) :
    keyOverride cluster claw name =
      (claw.keys.mapM fun km => (cluster.secretKey claw.ns km.secretKeyRef).map fun text =>
        (km.name, text)).bind fun values => values.reverse.lookup name := by
  unfold keyOverride Claw.keys
  cases claw.spec.credentials <;> rfl

theorem runtimeContainer_env (claw : Claw) (spec : RuntimeSpec) :
    (runtimeContainer claw spec).env =
      (sharedEnvVars claw ++ spec.env).map EnvVar.literal ++ keyEnv claw.keys := by
  unfold runtimeContainer Claw.keys
  cases claw.spec.credentials with
  | none => exact (append_nil _).symm
  | some => rfl

/-- **The runtime uses the path of the bus exactly if the keys of its credentials say so.** -/
theorem runtimeSocketPath_of_build
    (hadapter : adapter.runtimeSpec.env.reverse.lookup "IPC_SOCKET_PATH" = none)
    (h : buildStatefulSet L cluster native claw adapter = .ok sts) :
    runtimeSocketPath cluster claw.ns sts.template = some "/var/run/claw" ↔
      keyOverride cluster claw "IPC_SOCKET_PATH" = some "/var/run/claw" := by
  have hfind : sts.template.containers.find? (·.name = "runtime") =
      some (runtimeContainer claw adapter.runtimeSpec) := by
    simp [(built_of_build h).containers]
  have hshared : (sharedEnvVars claw ++ adapter.runtimeSpec.env).reverse.lookup
      "IPC_SOCKET_PATH" = some "/var/run/claw/bus.sock" := by
    rw [reverse_append, lookup_append, hadapter]
    rfl
  obtain ⟨secrets, hsecrets⟩ : ∃ secrets,
      (runtimeContainer claw adapter.runtimeSpec).envFrom.mapM (cluster.secretData claw.ns) =
        some secrets := by
    cases hcreds : claw.spec.credentials with
    | none => exact ⟨[], by simp [runtimeContainer, hcreds, buildRuntimeContainer]⟩
    | some creds =>
      cases href : creds.secretRef with
      | none =>
        exact ⟨[], by simp [runtimeContainer, hcreds, buildRuntimeContainer, withCredentials, href]⟩
      | some =>
        obtain ⟨data, hdata⟩ := secretData_of_build hcreds href h
        exact ⟨[data], by
          simp [runtimeContainer, hcreds, buildRuntimeContainer, withCredentials, href, hdata]⟩
  unfold runtimeSocketPath
  rw [hfind, bind_some, environ_eq (runtimeContainer_env claw _), hsecrets, keyOverride_eq]
  cases claw.keys.mapM fun km => (cluster.secretKey claw.ns km.secretKeyRef).map fun text =>
    (km.name, text) with
  | none => simp
  | some values =>
    cases hvalue : values.reverse.lookup "IPC_SOCKET_PATH" with
    | none => simp [lookup_append, hvalue, hshared, -reverse_append]
    | some => simp [lookup_append, hvalue]

/-- The bus finds a bridge for one of the runtimes only. -/
theorem newBridge_isOk_iff {runtime : RuntimeType} {bridge : IpcBus.BridgeConfig} :
    (IpcBus.newBridge runtime.text bridge).isOk = true ↔ runtime = .openclaw := by
  cases runtime <;> simp [RuntimeType.text, IpcBus.newBridge, Except.toBool]

theorem mem_containers_of_build (h : buildStatefulSet L cluster native claw adapter = .ok sts)
    {p : ChannelRef × ClawChannelSpec} (hp : p ∈ builtinChannels cluster claw) :
    buildChannelContainer L p.2 p.1 native ∈
      sts.template.initContainers ++ sts.template.containers := by
  obtain ⟨ref, href, hp⟩ := mem_filterMap.mp hp
  obtain ⟨channel, hchannel, rfl⟩ := map_eq_some_iff.mp hp
  have hmem : buildChannelContainer L channel ref native ∈
      sidecars L cluster native claw.ns claw.spec.channels :=
    mem_filterMap.mpr ⟨ref, href, by rw [(filter_eq_some_iff.mp hchannel).1]; rfl⟩
  rw [(built_of_build h).initContainers, (built_of_build h).containers]
  cases native <;> simp [hmem]

theorem type_ne_of_mem_builtinChannels {p : ChannelRef × ClawChannelSpec}
    (hp : p ∈ builtinChannels cluster claw) : p.2.type ≠ .custom := by
  obtain ⟨ref, -, hp⟩ := mem_filterMap.mp hp
  obtain ⟨channel, hchannel, rfl⟩ := map_eq_some_iff.mp hp
  exact of_decide_eq_true (filter_eq_some_iff.mp hchannel).2

theorem env_of_registry {runtime : RuntimeType} (h : registry L runtime = some adapter) :
    adapter.runtimeSpec.env.reverse.lookup "IPC_SOCKET_PATH" = none := by
  cases runtime <;> cases h <;> rfl

/-- **When a pod is wired:** for every version a Claw with channels can have, in every cluster and
with native sidecars or without, the template that is built for it is wired exactly if the runtime
is `openclaw` and the Secrets set the path of the bus for the runtime and for every built-in
channel. -/
theorem wired_iff {claw : Claw} (hclaw : Accepted L claw) (hchannels : claw.spec.channels ≠ []) :
    ∃ adapter, registry L claw.spec.runtime = some adapter ∧
      ∀ (cluster : Cluster) (native : Bool) (sts : StatefulSet),
        buildStatefulSet L cluster native claw adapter = .ok sts →
          (Wired L cluster native claw sts.template ↔ Overridden cluster claw) := by
  obtain ⟨adapter, hadapter⟩ := isSome_iff_exists.mp hclaw.registered
  refine ⟨adapter, hadapter, fun cluster native sts h => ?_⟩
  obtain ⟨bridge, hbus⟩ := busConfig_of_build hchannels h
  have hruntime := runtimeSocketPath_of_build (env_of_registry hadapter) h
  constructor
  · rintro ⟨cfg, hcfg, hbridge, hsidecars, hpath⟩
    obtain rfl := some.inj (hbus.symm.trans hcfg)
    exact
      { runtime := newBridge_isOk_iff.mp hbridge
        keys := hruntime.mp hpath
        channels := fun p hp =>
          (sdkSocketPath_builtin (type_ne_of_mem_builtinChannels hp)).mp (hsidecars p hp).2 }
  · intro hover
    refine ⟨_, hbus, newBridge_isOk_iff.mpr hover.runtime, fun p hp => ?_,
      hruntime.mpr hover.keys⟩
    exact ⟨mem_containers_of_build h hp,
      (sdkSocketPath_builtin (type_ne_of_mem_builtinChannels hp)).mpr (hover.channels p hp)⟩

end

/-! ### A pod with one channel -/

/-- Libraries that know a few inputs. -/
def sampleLibs : Libs where
  toLibs := AutoUpdate.sampleLibs
  parseQuantity := fun
    | "512Mi" => some 536870912000000000
    | _ => none
  quote s := "\"" ++ s ++ "\""
  atoi := fun
    | "18900" => some 18900
    | "18910" => some 18910
    | _ => none
  marshal := some
  sha256 s := s

theorem nodup_single (key value : String) : ([(key, value)].map Prod.fst).Nodup :=
  nodup_singleton key

/-- A Secret with one key. -/
def Secret.single (key value : String) : Secret := ⟨[(key, value)], nodup_single key value⟩

/-- A cluster with a Slack channel and two Secrets. -/
def chatCluster (llm chatToken : Secret) : Cluster where
  channel _ name :=
    .ok (if name = "chat" then
      some { type := .slack, credentials := some { secretRef := some "chat-token" } }
    else none)
  secret _ name :=
    .ok (if name = "llm" then some llm else if name = "chat-token" then some chatToken else none)
  other _ _ := none

def overriddenCluster : Cluster :=
  chatCluster (.single "socket" "/var/run/claw") (.single "IPC_SOCKET_PATH" "/var/run/claw")

def overriddenClaw : Claw where
  name := "agent"
  ns := "default"
  spec :=
    { runtime := .openclaw
      credentials := some { keys := [⟨"IPC_SOCKET_PATH", { name := "llm", key := "socket" }⟩] }
      channels := [{ name := "chat" }] }

theorem wired_overriddenClaw :
    Accepted sampleLibs overriddenClaw ∧ overriddenClaw.spec.channels ≠ [] ∧
      ∀ native, ∃ sts,
        buildStatefulSet sampleLibs overriddenCluster native overriddenClaw
            (openClawAdapter sampleLibs) = .ok sts ∧
          Wired sampleLibs overriddenCluster native overriddenClaw sts.template := by
  have hclaw : Accepted sampleLibs overriddenClaw := .create (by decide +kernel)
  have hchannels : overriddenClaw.spec.channels ≠ [] := by decide
  refine ⟨hclaw, hchannels, fun native => ?_⟩
  obtain ⟨adapter, hadapter, hiff⟩ := wired_iff hclaw hchannels
  obtain rfl : openClawAdapter sampleLibs = adapter := some.inj hadapter
  have hok : (buildStatefulSet sampleLibs overriddenCluster native overriddenClaw
      (openClawAdapter sampleLibs)).isOk = true := by
    cases native <;> decide +kernel
  obtain ⟨sts, hsts⟩ := exists_eq_ok hok
  refine ⟨sts, hsts, (hiff overriddenCluster native sts hsts).mpr ⟨rfl, ?_, ?_⟩⟩
  · decide +kernel
  · decide +kernel

/-- A Claw as the webhook asks for it. -/
def plainClaw : Claw where
  name := "agent"
  ns := "default"
  spec :=
    { runtime := .openclaw
      credentials := some { secretRef := some "llm" }
      channels := [{ name := "chat" }] }

/-- A Claw of a runtime that the bus does not know. -/
def opsClaw : Claw where
  name := "agent"
  ns := "default"
  spec :=
    { runtime := .k8sops
      channels := [{ name := "chat" }]
      security := some { networkPolicy := some { enabled := true } } }

def plainCluster : Cluster := chatCluster (.single "API_KEY" "k") (.single "SLACK_TOKEN" "t")

theorem unwired :
    (Accepted sampleLibs plainClaw ∧
      ∀ native : Bool, ∃ sts ∈ (buildStatefulSet sampleLibs plainCluster native plainClaw
          (openClawAdapter sampleLibs)).toOption,
        (busConfig sampleLibs plainCluster "default" sts.template).map (·.socketPath) =
            some "/var/run/claw" ∧
          (builtinChannels plainCluster plainClaw).map (fun p =>
              sdkSocketPath plainCluster "default"
                (buildChannelContainer sampleLibs p.2 p.1 native)) =
            [some "/var/run/claw/bus.sock"] ∧
          runtimeSocketPath plainCluster "default" sts.template = some "/var/run/claw/bus.sock" ∧
          ¬ Wired sampleLibs plainCluster native plainClaw sts.template) ∧
      Accepted sampleLibs opsClaw ∧
        ∀ native : Bool, ∃ sts ∈ (buildStatefulSet sampleLibs plainCluster native opsClaw
            k8sOpsAdapter).toOption,
          (∀ cfg ∈ busConfig sampleLibs plainCluster "default" sts.template,
            (IpcBus.newBridge cfg.runtime cfg.bridge).isOk = false) ∧
            ¬ Wired sampleLibs plainCluster native opsClaw sts.template := by
  refine ⟨⟨.create ?_, ?_⟩, .create ?_, ?_⟩
  · decide +kernel
  · decide +kernel
  · decide +kernel
  · decide +kernel

end K8s4Claw.Operator
