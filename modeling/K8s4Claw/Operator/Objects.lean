/-
# The objects of a Claw

The builders of the objects besides the StatefulSet that the controller keeps for a Claw:
`buildService` (`claw_service.go`), `buildConfigMap` with `mergeConfig` and `deepMerge`
(`claw_configmap.go`), `buildServiceAccount` (`claw_serviceaccount.go`), `buildRole` and
`buildRoleBinding` (`claw_rbac.go`), `buildNetworkPolicy` (`claw_networkpolicy.go`), `buildIngress`
(`claw_ingress.go`) and `buildPDB` (`claw_pdb.go`) of `internal/controller`.

An object is its metadata and what the controller reads or writes of the rest, for each of the nine
kinds (`Object`).  Maps are lists of their entries.
-/

import K8s4Claw.Operator.Workload

namespace K8s4Claw.Operator

/-! ## Metadata -/

structure ObjectMeta where
  name : String
  ns : String
  labels : List (String × String) := []
  annotations : List (String × String) := []
  ownerReferences : List OwnerReference := []
  deriving DecidableEq

/-- The labels of all objects of a Claw. -/
def clawLabels (claw : Claw) : List (String × String) :=
  [("app.kubernetes.io/name", "claw"), ("app.kubernetes.io/instance", claw.name),
    ("claw.prismer.ai/runtime", claw.spec.runtime.text), ("claw.prismer.ai/instance", claw.name)]

/-- The owner reference that `controllerutil.SetControllerReference` adds. -/
def controllerReference (claw : Claw) : OwnerReference where
  apiVersion := "claw.prismer.ai/v1alpha1"
  kind := "Claw"
  name := claw.name
  uid := claw.uid
  controller := some true
  blockOwnerDeletion := some true

/-- `metav1.IsControlledBy`: the first owner that is a controller is the Claw. -/
def isControlledBy (m : ObjectMeta) (claw : Claw) : Bool :=
  (m.ownerReferences.find? (·.controller = some true)).any (·.uid = claw.uid)

/-! ## The kinds -/

namespace Core

structure ServicePort where
  name : String
  port : Int32
  targetPort : Int32
  protocol : String
  deriving DecidableEq

structure ServiceSpec where
  clusterIP : String
  selector : List (String × String)
  ports : List ServicePort
  deriving DecidableEq

structure ConfigMap where
  data : List (String × String)
  deriving DecidableEq

structure ServiceAccount where
  automountServiceAccountToken : Option Bool
  deriving DecidableEq

end Core

namespace Rbac

structure PolicyRule where
  apiGroups : List String
  resources : List String
  verbs : List String
  resourceNames : List String := []
  deriving DecidableEq

structure Role where
  rules : List PolicyRule
  deriving DecidableEq

structure RoleRef where
  apiGroup : String
  kind : String
  name : String
  deriving DecidableEq

structure Subject where
  kind : String
  name : String
  ns : String
  deriving DecidableEq

structure RoleBinding where
  roleRef : RoleRef
  subjects : List Subject
  deriving DecidableEq

end Rbac

namespace Networking

structure NetworkPolicyPort where
  protocol : String
  port : Int32
  deriving DecidableEq

inductive NetworkPolicyPeer
  | podSelector (matchLabels : List (String × String))
  | namespaceSelector (matchLabels : List (String × String))
  | ipBlock (cidr : String)
  deriving DecidableEq

/-- A rule for one direction; `peers` are its `From` or its `To`. -/
structure NetworkPolicyRule where
  peers : List NetworkPolicyPeer := []
  ports : List NetworkPolicyPort := []
  deriving DecidableEq

inductive PolicyType
  | ingress
  | egress
  deriving DecidableEq

structure NetworkPolicySpec where
  podSelector : List (String × String)
  policyTypes : List PolicyType
  ingress : List NetworkPolicyRule
  egress : List NetworkPolicyRule
  deriving DecidableEq

structure IngressPath where
  path : String
  pathType : String
  serviceName : String
  servicePort : Int32
  deriving DecidableEq

structure IngressRule where
  host : String
  paths : List IngressPath
  deriving DecidableEq

structure IngressTLS where
  hosts : List String
  secretName : String
  deriving DecidableEq

structure IngressSpec where
  ingressClassName : Option String
  tls : List IngressTLS
  rules : List IngressRule
  deriving DecidableEq

end Networking

namespace Policy

structure PodDisruptionBudgetSpec where
  minAvailable : Int32
  selector : List (String × String)
  deriving DecidableEq

end Policy

/-- The kinds of objects, in the order in which `Reconcile` sees to them. -/
inductive ObjectKind
  | service
  | configMap
  | serviceAccount
  | role
  | roleBinding
  | networkPolicy
  | ingress
  | pdb
  | statefulSet
  deriving DecidableEq

/-- An object of a kind, without its metadata. -/
def ObjectKind.Body : ObjectKind → Type
  | .service => Core.ServiceSpec
  | .configMap => Core.ConfigMap
  | .serviceAccount => Core.ServiceAccount
  | .role => Rbac.Role
  | .roleBinding => Rbac.RoleBinding
  | .networkPolicy => Networking.NetworkPolicySpec
  | .ingress => Networking.IngressSpec
  | .pdb => Policy.PodDisruptionBudgetSpec
  | .statefulSet => StatefulSet

structure Object (k : ObjectKind) where
  metadata : ObjectMeta
  body : k.Body

/-- The name of the object of a Claw. -/
def ObjectKind.objectName (claw : Claw) : ObjectKind → String
  | .configMap => claw.name ++ "-config"
  | .networkPolicy => claw.name ++ "-netpol"
  | .service | .serviceAccount | .role | .roleBinding | .ingress | .pdb | .statefulSet => claw.name

/-- The metadata that a builder starts from. -/
def ObjectKind.objectMeta (k : ObjectKind) (claw : Claw) : ObjectMeta where
  name := k.objectName claw
  ns := claw.ns
  labels := clawLabels claw

/-- `SetControllerReference` on an object that was just built. -/
def Object.setControllerReference {k : ObjectKind} (o : Object k) (claw : Claw) : Object k :=
  { o with
    metadata :=
      { o.metadata with
        ownerReferences := o.metadata.ownerReferences ++ [controllerReference claw] } }

/-! ## The configuration -/

/-- `RuntimeConfig`. -/
structure RuntimeConfig where
  gatewayPort : ℤ
  workspacePath : String
  environment : List (String × String)
  deriving DecidableEq

def RuntimeAdapter.defaultConfig (adapter : RuntimeAdapter) : RuntimeConfig where
  gatewayPort := adapter.gatewayPort
  workspacePath := adapter.workspacePath
  environment := adapter.environment

/-- A JSON value as `json.Unmarshal` gives it: an object or, by its text, anything else. -/
inductive ConfigValue
  | scalar (json : String)
  | object (members : List (String × ConfigValue))

/-- `map[string]interface{}`. -/
abbrev ConfigObject := List (String × ConfigValue)

/-- `dst[key] = v`. -/
def ConfigObject.set : ConfigObject → String → ConfigValue → ConfigObject
  | [], key, v => [(key, v)]
  | e :: dst, key, v => if e.1 = key then (key, v) :: dst else e :: ConfigObject.set dst key v

mutual

/-- What becomes of a value that is already there. -/
def mergeValue : ConfigValue → ConfigValue → ConfigValue
  | .object dst, .object src => .object (deepMerge dst src)
  | .object _, .scalar json => .scalar json
  | .scalar _, srcVal => srcVal

/-- `deepMerge`, going through `src` in the order of the list. -/
def deepMerge (dst : ConfigObject) : List (String × ConfigValue) → ConfigObject
  | [] => dst
  | (key, srcVal) :: src =>
      match List.lookup key dst with
      | none => deepMerge (ConfigObject.set dst key srcVal) src
      | some dstVal => deepMerge (ConfigObject.set dst key (mergeValue dstVal srcVal)) src

end

/-- What `mergeConfig` uses of `encoding/json`. -/
structure ConfigLibs where
  /-- `json.Marshal` of a `RuntimeConfig`. -/
  marshalConfig : RuntimeConfig → String
  /-- `json.Unmarshal` into a map, or its error. -/
  unmarshal : String → Except String ConfigObject
  /-- `json.Marshal` of a map. -/
  marshal : ConfigObject → String

section

variable (L : Libs) (C : ConfigLibs)

def defaultConfigJSON (claw : Claw) (adapter : RuntimeAdapter) : String :=
  if claw.spec.runtime = .hermesclaw then "\x7b\x7d" else C.marshalConfig adapter.defaultConfig

def mergeConfig (defaultJSON userJSON : String) : Except Failure String :=
  if userJSON = "" then .ok defaultJSON
  else
    match C.unmarshal defaultJSON, C.unmarshal userJSON with
    | .error err, _ => .error (.failed ("failed to unmarshal default config: " ++ err))
    | .ok _, .error err => .error (.failed ("failed to unmarshal user config: " ++ err))
    | .ok dst, .ok src => .ok (C.marshal (deepMerge dst src))

/-! ## The builders -/

/-- The ports of a Service for those of the containers. -/
def servicePorts (t : PodTemplate) : List Core.ServicePort :=
  t.containers.flatMap fun c => c.ports.map fun cp =>
    { name := cp.name
      port := cp.containerPort
      targetPort := cp.containerPort
      protocol := cp.protocol }

section

variable (claw : Claw)

def buildService (adapter : RuntimeAdapter) : Except Failure (Object .service) :=
  (buildPodTemplate L claw adapter.runtimeSpec).map fun podTemplate =>
    { metadata := ObjectKind.service.objectMeta claw
      body :=
        { clusterIP := "None"
          selector :=
            [("app.kubernetes.io/name", "claw"), ("app.kubernetes.io/instance", claw.name)]
          ports := servicePorts podTemplate : Core.ServiceSpec } }

def buildConfigMap (adapter : RuntimeAdapter) : Except Failure (Object .configMap) :=
  ((mergeConfig C (defaultConfigJSON C claw adapter) (claw.spec.config.getD "")).mapError
    (Failure.wrap "failed to merge config: ")).map fun merged =>
      { metadata := ObjectKind.configMap.objectMeta claw
        body := { data := [("config.json", merged)] : Core.ConfigMap } }

def isUserManagedSA : Bool := claw.spec.serviceAccount.any (·.name ≠ "")

def serviceAccountName : String :=
  ((claw.spec.serviceAccount.map (·.name)).filter (· ≠ "")).getD claw.name

def buildServiceAccount : Object .serviceAccount where
  metadata :=
    { ObjectKind.serviceAccount.objectMeta claw with
      annotations := (claw.spec.serviceAccount.map (·.annotations)).getD [] }
  body := { automountServiceAccountToken := some false : Core.ServiceAccount }

def needsRBAC : Bool := claw.spec.selfConfigure.any (·.enabled)

def buildRole : Object .role where
  metadata := ObjectKind.role.objectMeta claw
  body :=
    { rules :=
        [{ apiGroups := ["claw.prismer.ai"]
           resources := ["claws"]
           verbs := ["get"]
           resourceNames := [claw.name] },
          { apiGroups := ["claw.prismer.ai"]
            resources := ["clawselfconfigs"]
            verbs := ["create", "get", "list"] }] : Rbac.Role }

def buildRoleBinding : Object .roleBinding where
  metadata := ObjectKind.roleBinding.objectMeta claw
  body :=
    { roleRef := { apiGroup := "rbac.authorization.k8s.io", kind := "Role", name := claw.name }
      subjects :=
        [{ kind := "ServiceAccount", name := serviceAccountName claw, ns := claw.ns }] :
      Rbac.RoleBinding }

end

def ClawSpec.networkPolicy (spec : ClawSpec) : Option NetworkPolicySpec :=
  spec.security.bind (·.networkPolicy)

def networkPolicyEnabled (claw : Claw) : Bool := claw.spec.networkPolicy.any (·.enabled)

/-- The Ingress of the spec, if it is enabled. -/
def ClawSpec.enabledIngress (spec : ClawSpec) : Option IngressSpec :=
  spec.ingress.filter (·.enabled)

/-- Traffic to the gateway from the pods of a namespace. -/
def fromNamespace (gwPort : Int32) (ns : String) : Networking.NetworkPolicyRule where
  peers := [.namespaceSelector [("kubernetes.io/metadata.name", ns)]]
  ports := [⟨"TCP", gwPort⟩]

def buildNetworkPolicy (claw : Claw) (gatewayPort : ℤ) : Object .networkPolicy :=
  let gwPort := Int32.ofInt gatewayPort
  let policy := claw.spec.networkPolicy
  { metadata := ObjectKind.networkPolicy.objectMeta claw
    body :=
      { podSelector := [("claw.prismer.ai/instance", claw.name)]
        policyTypes := [.ingress, .egress]
        ingress :=
          { peers := [.podSelector []], ports := [⟨"TCP", gwPort⟩] } ::
            ((policy.map (·.allowedIngressNamespaces)).getD []).map (fromNamespace gwPort) ++
            claw.spec.enabledIngress.toList.map fun _ => fromNamespace gwPort "ingress-nginx"
        egress :=
          [{ ports := [⟨"UDP", 53⟩, ⟨"TCP", 53⟩] }, { ports := [⟨"TCP", 443⟩] }] ++
            ((policy.map (·.allowedEgressCIDRs)).getD []).map fun cidr =>
              { peers := [.ipBlock cidr] } : Networking.NetworkPolicySpec } }

/-- The annotations of an Ingress; of two entries of one name the first one counts, the one of the
user. -/
def ingressAnnotations (claw : Claw) (spec : IngressSpec) : List (String × String) :=
  spec.annotations ++
    match spec.basicAuth.filter (·.enabled) with
    | none => []
    | some auth =>
        [("nginx.ingress.kubernetes.io/auth-type", "basic"),
          ("nginx.ingress.kubernetes.io/auth-secret", auth.secretName),
          ("nginx.ingress.kubernetes.io/auth-realm", "Authentication Required - " ++ claw.name)]

def buildIngress (claw : Claw) (spec : IngressSpec) (gatewayPort : ℤ) : Object .ingress where
  metadata :=
    { ObjectKind.ingress.objectMeta claw with annotations := ingressAnnotations claw spec }
  body :=
    { ingressClassName := if spec.className = "" then none else some spec.className
      tls := spec.tls.toList.map fun tls => { hosts := [spec.host], secretName := tls.secretName }
      rules :=
        [{ host := spec.host
           paths :=
             [{ path := "/"
                pathType := "Prefix"
                serviceName := claw.name
                servicePort := Int32.ofInt gatewayPort }] }] : Networking.IngressSpec }

def ClawSpec.pdb (spec : ClawSpec) : Option PDBSpec := spec.availability.bind (·.pdb)

def pdbEnabled (claw : Claw) : Bool := (claw.spec.pdb.map (·.enabled)).getD true

def buildPDB (claw : Claw) : Object .pdb where
  metadata := ObjectKind.pdb.objectMeta claw
  body :=
    { minAvailable :=
        Int32.ofInt (((claw.spec.pdb.map (·.minAvailable)).filter (0 < ·)).getD 1)
      selector := [("claw.prismer.ai/instance", claw.name)] : Policy.PodDisruptionBudgetSpec }

end

end K8s4Claw.Operator
