/-
# Whose objects the controller touches

`Reconcile` of `internal/controller/claw_controller.go` sees to nine objects of a Claw, one after
the other, each with an `ensure…` function of its own: it builds the object, gets the one of that
name, and creates or updates it; five of them delete the object instead if the spec does not ask for
it.  A function that returns an error ends the pass.

Six of the functions look at the owner of an object that is there: they refuse to update it and do
not delete it unless the Claw controls it.  `ensureService`, `ensureConfigMap` and
`ensureStatefulSet` do not look.
-/

import K8s4Claw.Operator.Mounts
import K8s4Claw.Operator.Objects
import Mathlib.Data.List.TakeWhile

namespace K8s4Claw.Operator

open List Option Function

/-! ## One object -/

/-- The errors of the API calls about one object: of the `Get`, and of the `Create`, `Update` or
`Delete` that may follow. -/
structure Calls where
  get : Option String := none
  write : Option String := none
  deriving DecidableEq

/-- A request that changes an object. -/
inductive Op
  | create
  | update
  | delete
  deriving DecidableEq

/-- What a call of an `ensure…` function does: the object that is stored then, the request that
went through, and the error that is returned. -/
structure Effect (k : ObjectKind) where
  stored : Option (Object k)
  op : Option Op := none
  failure : Option Failure := none

/-- An error, with nothing changed. -/
def Effect.fail {k : ObjectKind} (existing : Option (Object k)) (f : Failure) : Effect k where
  stored := existing
  failure := some f

/-- The kinds in the texts of errors. -/
def ObjectKind.text : ObjectKind → String
  | .service => "Service"
  | .configMap => "ConfigMap"
  | .serviceAccount => "ServiceAccount"
  | .role => "Role"
  | .roleBinding => "RoleBinding"
  | .networkPolicy => "NetworkPolicy"
  | .ingress => "Ingress"
  | .pdb => "PDB"
  | .statefulSet => "StatefulSet"

section

variable {k : ObjectKind} (claw : Claw) (calls : Calls)

/-- Create the object or update the one that is there, with `merge existing desired`.  The functions
that look at the owner have the text of their refusal. -/
def createOrUpdate (refusal : Option String) (merge : Object k → Object k → Object k)
    (desired : Except Failure (Object k)) (existing : Option (Object k)) : Effect k :=
  match desired with
  | .error f => .fail existing f
  | .ok desired =>
      match calls.get, existing with
      | some err, _ => .fail existing (.failed ("failed to get " ++ k.text ++ ": " ++ err))
      | none, none =>
          match calls.write with
          | some err => .fail none (.failed ("failed to create " ++ k.text ++ ": " ++ err))
          | none => { stored := some (desired.setControllerReference claw), op := some .create }
      | none, some o =>
          match refusal.filter fun _ => !isControlledBy o.metadata claw with
          | some what =>
              .fail (some o)
                (.failed (what ++ " " ++ o.metadata.ns ++ "/" ++ o.metadata.name ++
                  " already exists and is not owned by this Claw"))
          | none =>
              match calls.write with
              | some err => .fail (some o) (.failed ("failed to update " ++ k.text ++ ": " ++ err))
              | none => { stored := some (merge o desired), op := some .update }

/-- `deleteOwnedRole`, `deleteOwnedRoleBinding`, `deleteOwnedNetworkPolicy`, `deleteOwnedIngress`
and `deleteOwnedPDB`. -/
def deleteOwned (existing : Option (Object k)) : Effect k :=
  match calls.get, existing with
  | some err, _ =>
      .fail existing (.failed ("failed to get " ++ k.text ++ " for cleanup: " ++ err))
  | none, none => { stored := none }
  | none, some o =>
      if isControlledBy o.metadata claw then
        match calls.write with
        | some err =>
            .fail (some o) (.failed ("failed to delete stale " ++ k.text ++ ": " ++ err))
        | none => { stored := none, op := some .delete }
      else { stored := some o }

end

/-! ### The nine functions -/

/-- Put the labels, and all that is not metadata, into an object that is there. -/
def Object.relabelled {k : ObjectKind} (existing desired : Object k) : Object k :=
  { desired with metadata := { existing.metadata with labels := desired.metadata.labels } }

/-- The same with the annotations. -/
def Object.reannotated {k : ObjectKind} (existing desired : Object k) : Object k :=
  { desired with
    metadata :=
      { existing.metadata with
        labels := desired.metadata.labels
        annotations := desired.metadata.annotations } }

/-- Of a Service only the ports and the labels. -/
def Object.reported (existing desired : Object .service) : Object .service :=
  let spec : Core.ServiceSpec := existing.body
  let wanted : Core.ServiceSpec := desired.body
  { metadata := { existing.metadata with labels := desired.metadata.labels }
    body := ({ spec with ports := wanted.ports } : Core.ServiceSpec) }

section

variable (L : Libs) (C : ConfigLibs) (cluster : Cluster) (native : Bool) (claw : Claw)
  (adapter : RuntimeAdapter) (calls : Calls)

def ensureService : Option (Object .service) → Effect .service :=
  createOrUpdate claw calls none Object.reported (buildService L claw adapter)

def ensureConfigMap : Option (Object .configMap) → Effect .configMap :=
  createOrUpdate claw calls none Object.relabelled
    ((buildConfigMap C claw adapter).mapError (Failure.wrap "failed to build ConfigMap: "))

def ensureServiceAccount (existing : Option (Object .serviceAccount)) : Effect .serviceAccount :=
  if isUserManagedSA claw then { stored := existing }
  else
    createOrUpdate claw calls (some "ServiceAccount") Object.reannotated
      (.ok (buildServiceAccount claw)) existing

def ensureRole (existing : Option (Object .role)) : Effect .role :=
  if needsRBAC claw then
    createOrUpdate claw calls (some "role") Object.relabelled (.ok (buildRole claw)) existing
  else deleteOwned claw calls existing

def ensureRoleBinding (existing : Option (Object .roleBinding)) : Effect .roleBinding :=
  if needsRBAC claw then
    createOrUpdate claw calls (some "RoleBinding") Object.relabelled (.ok (buildRoleBinding claw))
      existing
  else deleteOwned claw calls existing

def ensureNetworkPolicy (existing : Option (Object .networkPolicy)) : Effect .networkPolicy :=
  if networkPolicyEnabled claw then
    createOrUpdate claw calls (some "NetworkPolicy") Object.relabelled
      (.ok (buildNetworkPolicy claw adapter.gatewayPort)) existing
  else deleteOwned claw calls existing

def ensureIngress (existing : Option (Object .ingress)) : Effect .ingress :=
  match claw.spec.enabledIngress with
  | some spec =>
      createOrUpdate claw calls (some "ingress") Object.reannotated
        (.ok (buildIngress claw spec adapter.gatewayPort)) existing
  | none => deleteOwned claw calls existing

def ensurePDB (existing : Option (Object .pdb)) : Effect .pdb :=
  if pdbEnabled claw then
    createOrUpdate claw calls (some "PDB") Object.relabelled (.ok (buildPDB claw)) existing
  else deleteOwned claw calls existing

/-- `ensureStatefulSet` on the StatefulSet with its metadata, which an update leaves alone. -/
def ensureStatefulSetObject (existing : Option (Object .statefulSet)) : Effect .statefulSet :=
  let get : Except String (Option StatefulSet) :=
    match calls.get with
    | some err => .error err
    | none => .ok (existing.map (·.body))
  match ensureStatefulSet L cluster native claw adapter get calls.write, existing with
  | .error f, existing => .fail existing f
  | .ok sts, none =>
      let desired : Object .statefulSet := ⟨ObjectKind.statefulSet.objectMeta claw, sts⟩
      { stored := some (desired.setControllerReference claw), op := some .create }
  | .ok sts, some o => { stored := some { o with body := sts }, op := some .update }

end

/-! ## A pass -/

/-- The objects of the nine kinds, by namespace and name. -/
abbrev Objects := (k : ObjectKind) → String × String → Option (Object k)

/-- A request that went through. -/
structure Write where
  kind : ObjectKind
  key : String × String
  op : Op
  deriving DecidableEq

/-- What a pass finds: the channels and Secrets, `NativeSidecarsEnabled`, and how its API calls
end.  `front` is the error of what comes before the objects. -/
structure Surroundings where
  cluster : Cluster
  native : Bool := false
  front : Option Failure := none
  calls : ObjectKind → Calls := fun _ => {}

structure Progress where
  objects : Objects
  writes : List Write := []
  failure : Option Failure := none

/-- The kinds in the order of `Reconcile`. -/
def ObjectKind.all : List ObjectKind :=
  [.service, .configMap, .serviceAccount, .role, .roleBinding, .networkPolicy, .ingress, .pdb,
    .statefulSet]

/-- The functions that do not look at the owner. -/
def ObjectKind.unchecked : ObjectKind → Bool
  | .service | .configMap | .statefulSet => true
  | _ => false

/-- Where the object of a Claw is. -/
def ObjectKind.key (k : ObjectKind) (claw : Claw) : String × String := (claw.ns, k.objectName claw)

section

variable (L : Libs) (C : ConfigLibs) (env : Surroundings) (claw : Claw)

/-- The `ensure…` function of a kind. -/
def ensure (adapter : RuntimeAdapter) : (k : ObjectKind) → Option (Object k) → Effect k
  | .service => ensureService L claw adapter (env.calls .service)
  | .configMap => ensureConfigMap C claw adapter (env.calls .configMap)
  | .serviceAccount => ensureServiceAccount claw (env.calls .serviceAccount)
  | .role => ensureRole claw (env.calls .role)
  | .roleBinding => ensureRoleBinding claw (env.calls .roleBinding)
  | .networkPolicy => ensureNetworkPolicy claw adapter (env.calls .networkPolicy)
  | .ingress => ensureIngress claw adapter (env.calls .ingress)
  | .pdb => ensurePDB claw (env.calls .pdb)
  | .statefulSet =>
      ensureStatefulSetObject L env.cluster env.native claw adapter (env.calls .statefulSet)

/-- The next object of a pass, unless it has ended. -/
def Progress.advance (adapter : RuntimeAdapter) (s : Progress) (k : ObjectKind) : Progress :=
  if s.failure.isSome then s
  else
    let e := ensure L C env claw adapter k (s.objects k (k.key claw))
    { objects :=
        Function.update s.objects k (Function.update (s.objects k) (k.key claw) e.stored)
      writes := s.writes ++ (e.op.map fun op => ⟨k, k.key claw, op⟩).toList
      failure := e.failure.map (Failure.wrap ("failed to ensure " ++ k.text ++ ": ")) }

/-- `Reconcile` of a Claw that is not deleted, as far as the objects go. -/
def reconcileObjects (objects : Objects) : Progress :=
  match registry L claw.spec.runtime with
  | none =>
      { objects := objects
        failure := some (.failed ("unsupported runtime type: " ++ claw.spec.runtime.text)) }
  | some adapter =>
      ObjectKind.all.foldl (Progress.advance L C env claw adapter)
        { objects := objects, failure := env.front }

/-- What the function of a kind does to the objects as the pass found them. -/
def effect (objects : Objects) (k : ObjectKind) : Effect k :=
  match registry L claw.spec.runtime with
  | none => { stored := objects k (k.key claw) }
  | some adapter => ensure L C env claw adapter k (objects k (k.key claw))

/-- The kinds whose functions a pass gets through. -/
def through (objects : Objects) : List ObjectKind :=
  if (registry L claw.spec.runtime).isNone || env.front.isSome then []
  else ObjectKind.all.takeWhile fun k => (effect L C env claw objects k).failure.isNone

end

/-! ## What a call can do -/

/-- What can become of an object; a function that is `checked` looks at its owner. -/
inductive Effect.Legal {k : ObjectKind} (claw : Claw) (checked : Bool)
    (existing : Option (Object k)) : Effect k → Prop
  | failed (f : Failure) : Legal claw checked existing (.fail existing f)
  | kept : Legal claw checked existing { stored := existing }
  | created (o : Object k) (h : existing = none) :
      Legal claw checked existing { stored := some o, op := some .create }
  | updated (o o' : Object k) (h : existing = some o)
      (howner : checked = true → isControlledBy o.metadata claw = true) :
      Legal claw checked existing { stored := some o', op := some .update }
  | deleted (o : Object k) (h : existing = some o)
      (howner : isControlledBy o.metadata claw = true) :
      Legal claw checked existing { stored := none, op := some .delete }

section

variable {L : Libs} {C : ConfigLibs} {env : Surroundings} {claw : Claw} {adapter : RuntimeAdapter}
  {k : ObjectKind} {calls : Calls} {existing : Option (Object k)} {objects : Objects}

theorem createOrUpdate_legal (refusal : Option String) (merge : Object k → Object k → Object k)
    (desired : Except Failure (Object k)) :
    Effect.Legal claw refusal.isSome existing
      (createOrUpdate claw calls refusal merge desired existing) := by
  unfold createOrUpdate
  cases desired with
  | error f => exact .failed f
  | ok =>
    cases calls.get with
    | some => exact .failed _
    | none =>
      cases existing with
      | none =>
        cases calls.write with
        | some => exact .failed _
        | none => exact .created _ rfl
      | some o =>
        cases hrefused : refusal.filter fun _ => !isControlledBy o.metadata claw with
        | some => simpa [hrefused] using Effect.Legal.failed _
        | none =>
          simp only [hrefused]
          cases calls.write with
          | some => exact .failed _
          | none =>
            refine .updated o _ rfl fun hchecked => ?_
            obtain ⟨text, rfl⟩ := isSome_iff_exists.mp hchecked
            simpa using hrefused

theorem deleteOwned_legal (checked : Bool) :
    Effect.Legal claw checked existing (deleteOwned claw calls existing) := by
  unfold deleteOwned
  cases calls.get with
  | some => exact .failed _
  | none =>
    cases existing with
    | none => exact .kept
    | some o =>
      by_cases howner : isControlledBy o.metadata claw
      · simp only [howner]
        cases calls.write with
        | some => exact .failed _
        | none => exact .deleted o rfl howner
      · simp only [howner]
        exact .kept

/-- The functions that delete the object if it is not wanted. -/
theorem createOrDelete_legal (wanted : Bool) (text : String)
    (merge : Object k → Object k → Object k) (desired : Except Failure (Object k)) :
    Effect.Legal claw true existing
      (if wanted then createOrUpdate claw calls (some text) merge desired existing
      else deleteOwned claw calls existing) := by
  cases wanted with
  | true => exact createOrUpdate_legal (some text) merge desired
  | false => exact deleteOwned_legal true

theorem ensureStatefulSetObject_legal {cluster : Cluster} {native : Bool}
    {existing : Option (Object .statefulSet)} :
    Effect.Legal claw false existing
      (ensureStatefulSetObject L cluster native claw adapter calls existing) := by
  unfold ensureStatefulSetObject
  dsimp only
  split
  · exact .failed _
  · exact .created _ rfl
  · exact .updated _ _ rfl nofun

/-- **What the function of a kind can do to an object.**  Only three of them can update one that the
Claw does not control. -/
theorem ensure_legal (k : ObjectKind) (existing : Option (Object k)) :
    Effect.Legal claw (!k.unchecked) existing (ensure L C env claw adapter k existing) := by
  cases k with
  | service | configMap => exact createOrUpdate_legal none ..
  | serviceAccount =>
    simp only [ensure, ensureServiceAccount]
    split_ifs
    · exact .kept
    · exact createOrUpdate_legal (some "ServiceAccount") ..
  | role | roleBinding => exact createOrDelete_legal (needsRBAC claw) ..
  | networkPolicy => exact createOrDelete_legal (networkPolicyEnabled claw) ..
  | ingress =>
    simp only [ensure, ensureIngress]
    cases claw.spec.enabledIngress with
    | some => exact createOrUpdate_legal (some "ingress") ..
    | none => exact deleteOwned_legal true
  | pdb => exact createOrDelete_legal (pdbEnabled claw) ..
  | statefulSet => exact ensureStatefulSetObject_legal

variable {checked : Bool} {e : Effect k} {o : Object k}

theorem Effect.Legal.of_failure (h : e.Legal claw checked existing) (hfailure : e.failure.isSome) :
    e.stored = existing ∧ e.op = none := by
  cases h with
  | failed => exact ⟨rfl, rfl⟩
  | kept | created | updated | deleted => cases hfailure

section

variable (h : e.Legal claw checked existing)
  (hunchecked : checked = false → ∀ o ∈ existing, isControlledBy o.metadata claw = true)

include h hunchecked

/-- If the objects that a function does not check are the Claw's, it updates and deletes only the
Claw's. -/
theorem Effect.Legal.owner_of_op {op : Op} (hop : e.op = some op) (hne : op ≠ .create) :
    ∃ o, existing = some o ∧ isControlledBy o.metadata claw = true := by
  cases h with
  | failed | kept => cases hop
  | created => exact absurd (some.inj hop).symm hne
  | updated o o' ho howner =>
    refine ⟨o, ho, ?_⟩
    cases checked with
    | true => exact howner rfl
    | false => exact hunchecked rfl o ho
  | deleted o ho howner => exact ⟨o, ho, howner⟩

theorem Effect.Legal.stored_of_foreign (ho : existing = some o)
    (hforeign : isControlledBy o.metadata claw = false) : e.stored = some o := by
  cases hop : e.op with
  | none =>
    cases h with
    | failed | kept => exact ho
    | created | updated | deleted => cases hop
  | some op =>
    have hne : op ≠ .create := by
      rintro rfl
      cases h with
      | failed | kept | updated | deleted => cases hop
      | created o' hnone => exact some_ne_none o (ho.symm.trans hnone)
    obtain ⟨o', ho', howner⟩ := h.owner_of_op hunchecked hop hne
    rw [← some.inj (ho.symm.trans ho'), hforeign] at howner
    cases howner

end

theorem createOrUpdate_updates {merge : Object k → Object k → Object k}
    {desired : Except Failure (Object k)}
    (h : (createOrUpdate claw calls none merge desired (some o)).failure = none) :
    (createOrUpdate claw calls none merge desired (some o)).op = some .update := by
  unfold createOrUpdate at h ⊢
  cases desired with
  | error => cases h
  | ok =>
    cases hget : calls.get with
    | some => simp [hget, Effect.fail] at h
    | none =>
      cases hwrite : calls.write with
      | some => simp [hget, hwrite, Effect.fail] at h
      | none => simp

theorem ensure_updates (hk : k.unchecked = true)
    (h : (ensure L C env claw adapter k (some o)).failure = none) :
    (ensure L C env claw adapter k (some o)).op = some .update := by
  cases k with
  | service | configMap => exact createOrUpdate_updates h
  | statefulSet =>
    simp only [ensure, ensureStatefulSetObject] at h ⊢
    split
    · simp_all [Effect.fail]
    · simp_all
    · rfl
  | serviceAccount | role | roleBinding | networkPolicy | ingress | pdb => cases hk

theorem effect_legal (k : ObjectKind) :
    (effect L C env claw objects k).Legal claw (!k.unchecked) (objects k (k.key claw)) := by
  unfold effect
  cases registry L claw.spec.runtime with
  | none => exact .kept
  | some => exact ensure_legal k _

/-! ## What a pass does -/

theorem foldl_advance_of_failure {s : Progress} (h : s.failure.isSome) (ks : List ObjectKind) :
    ks.foldl (Progress.advance L C env claw adapter) s = s := by
  induction ks with
  | nil => rfl
  | cons k ks ih => rw [foldl_cons, Progress.advance, if_pos h, ih]

/-- The functions of different kinds do not see each other's objects: a pass does what each of them
does to what the pass found, up to the first one that fails. -/
theorem foldl_advance (hadapter : registry L claw.spec.runtime = some adapter)
    {ks : List ObjectKind} (hks : ks.Nodup) {s : Progress}
    (hs : s.failure = none) (hobjects : ∀ k ∈ ks, s.objects k = objects k) :
    let done := ks.takeWhile fun k => (effect L C env claw objects k).failure.isNone
    let s' := ks.foldl (Progress.advance L C env claw adapter) s
    s'.writes = s.writes ++ done.filterMap (fun k =>
        (effect L C env claw objects k).op.map fun op => ⟨k, k.key claw, op⟩) ∧
      ∀ k key, s'.objects k key =
        if k ∈ done ∧ key = k.key claw then (effect L C env claw objects k).stored
        else s.objects k key := by
  induction ks generalizing s with
  | nil => simp
  | cons k ks ih =>
    obtain ⟨hk, hks⟩ := nodup_cons.mp hks
    have hsame : ensure L C env claw adapter k (s.objects k (k.key claw)) =
        effect L C env claw objects k := by
      simp [effect, hadapter, hobjects k mem_cons_self]
    have hadvance : s.advance L C env claw adapter k =
        { objects :=
            update s.objects k (update (s.objects k) (k.key claw)
              (effect L C env claw objects k).stored)
          writes := s.writes ++
            ((effect L C env claw objects k).op.map fun op => ⟨k, k.key claw, op⟩).toList
          failure := (effect L C env claw objects k).failure.map
            (Failure.wrap ("failed to ensure " ++ k.text ++ ": ")) } := by
      simp [Progress.advance, hs, hsame]
    rw [foldl_cons]
    cases hfailure : (effect L C env claw objects k).failure with
    | some =>
      have hlegal : (effect L C env claw objects k).Legal claw (!k.unchecked)
          (objects k (k.key claw)) := effect_legal k
      obtain ⟨hstored, hop⟩ := hlegal.of_failure (by simp [hfailure])
      rw [foldl_advance_of_failure (by simp [hadvance, hfailure])]
      simp [hadvance, hfailure, hstored, hop, ← hobjects k mem_cons_self]
    | none =>
      have hrest : ∀ k' ∈ ks, (s.advance L C env claw adapter k).objects k' = objects k' := by
        intro k' hk'
        have hne : k' ≠ k := fun heq => hk (heq ▸ hk')
        rw [hadvance, ← hobjects k' (mem_cons_of_mem _ hk')]
        exact update_of_ne hne ..
      obtain ⟨hwrites, hstored⟩ := ih hks (by simp [hadvance, hfailure]) hrest
      have htake : (k :: ks).takeWhile
            (fun k => (effect L C env claw objects k).failure.isNone) =
          k :: ks.takeWhile fun k => (effect L C env claw objects k).failure.isNone :=
        takeWhile_cons_of_pos (by simp [hfailure])
      simp only [htake]
      refine ⟨?_, fun k' key => ?_⟩
      · rw [hwrites, hadvance, filterMap_cons]
        cases (effect L C env claw objects k).op <;> simp
      · rw [hstored, hadvance]
        by_cases hk' : k' = k
        · subst hk'
          by_cases hkey : key = k'.key claw <;> simp [hkey]
        · simp [hk']

variable (L C env claw objects)

/-- A pass in closed form: its requests, in order, and the objects after it. -/
theorem reconcileObjects_eq :
    (reconcileObjects L C env claw objects).writes =
      (through L C env claw objects).filterMap (fun k =>
        (effect L C env claw objects k).op.map fun op => ⟨k, k.key claw, op⟩) ∧
    ∀ k key, (reconcileObjects L C env claw objects).objects k key =
      if k ∈ through L C env claw objects ∧ key = k.key claw then
        (effect L C env claw objects k).stored
      else objects k key := by
  unfold reconcileObjects through
  cases hadapter : registry L claw.spec.runtime with
  | none => simp
  | some =>
    cases env.front with
    | some => simp [foldl_advance_of_failure]
    | none => exact foldl_advance hadapter (by decide) rfl fun _ _ => rfl

variable {L C env claw objects}

theorem effect_updates (hk : k ∈ through L C env claw objects) (hunchecked : k.unchecked = true)
    (ho : objects k (k.key claw) = some o) : (effect L C env claw objects k).op = some .update := by
  unfold through at hk
  split_ifs at hk with hends
  · cases hk
  · have hfailure := mem_takeWhile_imp hk
    unfold effect at hfailure ⊢
    cases hadapter : registry L claw.spec.runtime with
    | none => simp [hadapter] at hends
    | some =>
      simp only [hadapter, ho, isNone_iff_eq_none] at hfailure ⊢
      exact ensure_updates hunchecked hfailure

/-! ## The objects of others -/

variable (L C env claw objects)

/-- Every object that is updated or deleted was the Claw's, and the objects of others are as they
were. -/
def OwnedOnly (s : Progress) : Prop :=
  (∀ w ∈ s.writes, w.op ≠ .create →
    ∃ o, objects w.kind w.key = some o ∧ isControlledBy o.metadata claw = true) ∧
  ∀ k key o, objects k key = some o → isControlledBy o.metadata claw = false →
    s.objects k key = some o

/-- **The controller touches only what is its own** exactly if the Service, the ConfigMap and the
StatefulSet of the Claw's names, as far as a pass gets through their functions, are the Claw's or
not there. -/
theorem owned_only_iff :
    OwnedOnly claw objects (reconcileObjects L C env claw objects) ↔
      ∀ k ∈ through L C env claw objects, k.unchecked = true →
        ∀ o, objects k (k.key claw) = some o → isControlledBy o.metadata claw = true := by
  obtain ⟨hwrites, hobjects⟩ := reconcileObjects_eq L C env claw objects
  constructor
  · rintro ⟨howned, -⟩ k hk hunchecked o ho
    have hop := effect_updates hk hunchecked ho
    have hmem : ⟨k, k.key claw, .update⟩ ∈ (reconcileObjects L C env claw objects).writes := by
      rw [hwrites]
      exact mem_filterMap.mpr ⟨k, hk, by simp [hop]⟩
    obtain ⟨o', ho', hcontrolled⟩ := howned _ hmem nofun
    rwa [some.inj (ho.symm.trans ho')]
  · intro h
    have hunchecked (k : ObjectKind) (hk : k ∈ through L C env claw objects) :
        (!k.unchecked) = false →
          ∀ o ∈ objects k (k.key claw), isControlledBy o.metadata claw = true :=
      fun hk' o ho => h k hk (by simpa using hk') o ho
    refine ⟨fun w hw hne => ?_, fun k key o ho hforeign => ?_⟩
    · rw [hwrites] at hw
      obtain ⟨k, hk, hw⟩ := mem_filterMap.mp hw
      obtain ⟨op, hop, rfl⟩ := map_eq_some_iff.mp hw
      exact (effect_legal k).owner_of_op (hunchecked k hk) hop hne
    · rw [hobjects]
      split_ifs with hthrough
      · obtain ⟨hk, rfl⟩ := hthrough
        exact (effect_legal k).stored_of_foreign (hunchecked k hk) ho hforeign
      · exact ho

end

/-! ### Objects of somebody else -/

/-- A library for which every text is an empty object. -/
def emptyConfig : ConfigLibs where
  marshalConfig _ := "\x7b\x7d"
  unmarshal _ := .ok []
  marshal _ := "\x7b\x7d"

/-- A controller that is not the Claw. -/
def chartReference : OwnerReference where
  apiVersion := "apps/v1"
  kind := "Deployment"
  name := "chart"
  uid := "2"
  controller := some true

/-- The metadata of an object of that controller, with the name of the one of a Claw. -/
def foreignMeta (k : ObjectKind) (claw : Claw) : ObjectMeta where
  name := k.objectName claw
  ns := claw.ns
  ownerReferences := [chartReference]

/-- What is in the objects of that controller. -/
def foreignBody : (k : ObjectKind) → Option k.Body
  | .service =>
      some ({ clusterIP := "10.0.0.7", selector := [("app", "chart")], ports := [] } :
        Core.ServiceSpec)
  | .configMap => some ({ data := [("settings", "kept")] } : Core.ConfigMap)
  | .statefulSet =>
      some ({ name := "chart"
              ns := "default"
              replicas := 3
              template := { initContainers := [], containers := [], volumes := [] }
              volumeClaimTemplates := [] } : StatefulSet)
  | _ => none

/-- A cluster with one object, which has the name of the one of a Claw and is not the Claw's. -/
def occupied (claw : Claw) (kind : ObjectKind) : Objects := fun k key =>
  if k = kind ∧ key = k.key claw then
    (foreignBody k).map fun body => { metadata := foreignMeta k claw, body := body }
  else none

/-- A Claw that the API server has given a UID. -/
def storedClaw : Claw := { plainClaw with uid := "1" }

theorem foreign_metadata {claw : Claw} {k : ObjectKind} {o : Object k}
    (ho : occupied claw k k (k.key claw) = some o) : o.metadata = foreignMeta k claw := by
  simp only [occupied] at ho
  obtain ⟨-, -, rfl⟩ := map_eq_some_iff.mp ho
  rfl

/-- The pass over a cluster that has one object of somebody else. -/
def passOver (kind : ObjectKind) : Progress :=
  reconcileObjects sampleLibs emptyConfig { cluster := plainCluster } storedClaw
    (occupied storedClaw kind)

theorem not_ownedOnly_of_update {k : ObjectKind}
    (h : ⟨k, k.key storedClaw, .update⟩ ∈ (passOver k).writes) :
    ¬ OwnedOnly storedClaw (occupied storedClaw k) (passOver k) := by
  rintro ⟨howned, -⟩
  obtain ⟨o, ho, howner⟩ := howned _ h (by simp)
  rw [foreign_metadata ho] at howner
  simp [isControlledBy, foreignMeta, chartReference, storedClaw] at howner

/-- A Service, a ConfigMap and a StatefulSet of somebody else are overwritten. -/
theorem foreign_overwritten :
    ¬ OwnedOnly storedClaw (occupied storedClaw .service) (passOver .service) ∧
      ¬ OwnedOnly storedClaw (occupied storedClaw .configMap) (passOver .configMap) ∧
      ¬ OwnedOnly storedClaw (occupied storedClaw .statefulSet) (passOver .statefulSet) := by
  refine ⟨?_, ?_, ?_⟩
  · exact not_ownedOnly_of_update (by decide +kernel)
  · exact not_ownedOnly_of_update (by decide +kernel)
  · exact not_ownedOnly_of_update (by decide +kernel)

end K8s4Claw.Operator
