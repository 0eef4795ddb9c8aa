/-
# The resources of the runtime

The requests and limits of the container of the runtime come from three places: the defaults of the
adapter (`resources` in `internal/runtime`), `spec.resources` of the Claw, laid over them key by key
by `mergeResourceRequirements`, and the intents `bump-cpu` and `bump-memory`, which
`consumeAndExecuteOpsIntent` writes into `spec.resources`
(`internal/controller/claw_ops_intent_consumer.go`).

A bump sets the limit and lowers the request to it, or sets it if there is none, so it keeps the
request at most the limit whatever the target is.  Two things are never checked: that a limit in the
spec is not below the default request where the spec has no request of its own, or a request not
above the default limit where it has no limit; and that the target of a bump is positive, as
`buildIntentPatch` only parses it.  `schedulable_iff` says that there is nothing else.
-/

import K8s4Claw.Operator.Updates

namespace K8s4Claw.Operator

open List Option
open Lib (run Along Meets)
open Ops.Consumer (ResourceList bumpLimit)

/-! ## Limits and requests -/

/-- The resources that a runtime has limits for. -/
inductive Resource
  | cpu
  | memory
  deriving DecidableEq

def Resource.name : Resource → String
  | .cpu => "cpu"
  | .memory => "memory"

/-- What holds of both can be decided. -/
instance (P : Resource → Prop) [DecidablePred P] : Decidable (∀ r, P r) :=
  decidable_of_iff (P .cpu ∧ P .memory)
    ⟨fun h r => match r with
      | .cpu => h.1
      | .memory => h.2, fun h => ⟨h .cpu, h .memory⟩⟩

/-- The limit that a spec sets, if it sets one. -/
def limit (res : Option Resources) (r : Resource) : Option ℤ :=
  ((res.bind (·.limits)).getD []).lookup r.name

/-- The request that a spec sets, if it sets one. -/
def request (res : Option Resources) (r : Resource) : Option ℤ :=
  ((res.bind (·.requests)).getD []).lookup r.name

/-- There is a positive limit, and the request is at most the limit. -/
def Schedulable (res : Resources) : Prop :=
  ∀ r, ∃ l ∈ limit (some res) r, 0 < l ∧ ∀ q ∈ request (some res) r, q ≤ l
  deriving Decidable

/-- What a spec sets is positive, and the request at most the limit where it sets both. -/
def Sound (res : Option Resources) : Prop :=
  ∀ r, (∀ l ∈ limit res r, 0 < l) ∧ (∀ q ∈ request res r, 0 < q) ∧
    ∀ l ∈ limit res r, ∀ q ∈ request res r, q ≤ l
  deriving Decidable

/-- Where a spec sets only one of the two, it fits the other one of the defaults. -/
def Fits (defaults : Resources) (res : Option Resources) : Prop :=
  ∀ r, (limit res r = none → ∀ q ∈ request res r, ∀ l ∈ limit (some defaults) r, q ≤ l) ∧
    (request res r = none → ∀ l ∈ limit res r, ∀ q ∈ request (some defaults) r, q ≤ l)
  deriving Decidable

/-! ### Lists of quantities -/

section

variable {Q : Type}

theorem lookup_filter_ne (m : ResourceList Q) {name a : String} (h : a ≠ name) :
    (m.filter fun e => e.1 ≠ name).lookup a = m.lookup a := by
  induction m with
  | nil => rfl
  | cons e m ih =>
    obtain ⟨k, v⟩ := e
    by_cases hk : k = name
    · have hne : (a == k) = false := beq_false_of_ne (hk ▸ h)
      rw [filter_cons_of_neg (by simp [hk]), lookup_cons, hne, ih]
    · rw [filter_cons_of_pos (by simp [hk]), lookup_cons, lookup_cons, ih]

theorem lookup_set (m : ResourceList Q) (name a : String) (q : Q) :
    (ResourceList.set m name q).lookup a = if a = name then some q else m.lookup a := by
  unfold ResourceList.set
  rw [lookup_cons]
  split_ifs with h
  · simp [h]
  · rw [beq_false_of_ne h]
    exact lookup_filter_ne m h

theorem lookup_foldr_set (src m : ResourceList Q) (a : String) :
    (src.foldr (fun e m => ResourceList.set m e.1 e.2) m).lookup a =
      (src.lookup a).or (m.lookup a) := by
  induction src with
  | nil => rfl
  | cons e _ ih =>
    obtain ⟨k, v⟩ := e
    rw [foldr_cons, lookup_set, lookup_cons, ih]
    by_cases h : a = k
    · simp [h]
    · rw [if_neg h, beq_false_of_ne h]

end

theorem lookup_mergeResourceList (dst src : Option (ResourceList ℤ)) (a : String) :
    ((mergeResourceList dst src).getD []).lookup a =
      ((src.getD []).lookup a).or ((dst.getD []).lookup a) := by
  unfold mergeResourceList
  cases dst with
  | some dst => exact lookup_foldr_set (src.getD []) dst a
  | none =>
    cases src.getD [] with
    | nil => rfl
    | cons e src => exact lookup_foldr_set (e :: src) [] a

/-! ### Laying a spec over the defaults -/

section

variable {claw : Claw} {defaults : Resources} {r : Resource}

theorem limit_override :
    limit (some (overrideResources claw defaults)) r =
      (limit claw.spec.resources r).or (limit (some defaults) r) := by
  unfold overrideResources
  cases claw.spec.resources with
  | none => rfl
  | some res => exact lookup_mergeResourceList defaults.limits res.limits r.name

theorem request_override :
    request (some (overrideResources claw defaults)) r =
      (request claw.spec.resources r).or (request (some defaults) r) := by
  unfold overrideResources
  cases claw.spec.resources with
  | none => rfl
  | some res => exact lookup_mergeResourceList defaults.requests res.requests r.name

/-- **When a sound spec can be scheduled:** if it fits the defaults where it relies on them. -/
theorem schedulable_override_iff (hdefaults : Schedulable defaults)
    (hsound : Sound claw.spec.resources) :
    Schedulable (overrideResources claw defaults) ↔ Fits defaults claw.spec.resources := by
  refine forall_congr' fun r => ?_
  obtain ⟨l₀, hl₀, hpos₀, hle₀⟩ := hdefaults r
  obtain ⟨hpos, -, hle⟩ := hsound r
  rw [limit_override, request_override]
  cases hl : limit claw.spec.resources r with
  | none =>
    rw [hl₀]
    cases request claw.spec.resources r with
    | none => simpa using ⟨hpos₀, hle₀⟩
    | some => simp [hpos₀]
  | some l =>
    have hl0 : 0 < l := hpos l hl
    cases hq : request claw.spec.resources r with
    | none => simp [hl0]
    | some q => simpa [hl0] using hle l hl q hq

theorem schedulable_of_registry {L : Libs} {runtime : RuntimeType} {adapter : RuntimeAdapter}
    (h : registry L runtime = some adapter) : Schedulable adapter.runtimeSpec.resources := by
  have hall : Schedulable (resources (milli 500) (gibi 1) (milli 2000) (gibi 4)) ∧
      Schedulable (resources (milli 250) (mebi 512) (milli 2000) (gibi 4)) ∧
      Schedulable (resources (milli 100) (mebi 256) (milli 500) (mebi 512)) := by
    decide
  cases runtime <;> cases h
  · exact hall.1
  · exact hall.1
  · exact hall.2.1
  · exact hall.2.2

end

/-! ## What the intents do to it -/

section

variable {L : Ops.Libs} {cmp : L.Quantity → L.Quantity → Ordering} {S t : Ops.Consumer.State L}
  {env : Ops.Consumer.Env}

/-- The bump that a call of the consumer commits: the resource and the target. -/
def committedBump (L : Ops.Libs) (claw : Ops.Consumer.Claw L.Quantity) (env : Ops.Consumer.Env) :
    Option (Resource × L.Quantity) :=
  match claw.parseOpsIntent L with
  | .error _ | .ok none => none
  | .ok (some intent) =>
      match Ops.buildIntentPatch L intent with
      | some (.bumpMemory target) => if env.patchOk then some (.memory, target) else none
      | some (.bumpCpu target) => if env.patchOk then some (.cpu, target) else none
      | some .restartPod | some .rolloutRestart | some (.scaleReplicas _) | none => none

/-- **A call changes the resources by a bump or not at all.** -/
theorem resources_consume (h : Ops.Consumer.step L cmp S (.consume env) = some t) :
    t.claw.resources =
      match committedBump L S.claw env with
      | none => S.claw.resources
      | some (r, target) =>
        some (bumpLimit L cmp r.name target (S.claw.resources.getD {})) := by
  cases h
  unfold committedBump Ops.Consumer.consumeAndExecuteOpsIntent
  cases S.claw.parseOpsIntent L with
  | error =>
    split_ifs <;> rfl
  | ok found =>
    cases found with
    | none =>
      split_ifs <;> rfl
    | some intent =>
      cases hpatch : Ops.buildIntentPatch L intent with
      | none =>
        simp only [hpatch]
        split_ifs <;> rfl
      | some patch =>
        cases patch with
        | bumpMemory target | bumpCpu target =>
          cases hok : env.patchOk <;>
            simp [hpatch, hok, Ops.Consumer.applyIntentPatch, Ops.Consumer.Attempt.committed,
              Ops.Consumer.Claw.clearOpsIntentAnnotations,
              Ops.Consumer.Claw.mutateRuntimeResources, Resource.name]
        | scaleReplicas n | rolloutRestart =>
          simp only [hpatch]
          split_ifs <;> rfl
        | restartPod =>
          simp only [hpatch, Ops.Consumer.applyIntentPatch]
          cases Ops.Consumer.applyRestartPod env with
          | none =>
            split_ifs <;> rfl
          | some =>
            split_ifs <;> rfl

end

/-- The libraries of the consumer, with quantities in billionths. -/
abbrev opsLibs (L : Libs) (J : Ops.Libs) : Ops.Libs where
  marshal := J.marshal
  unmarshal := J.unmarshal
  Quantity := ℤ
  parseQuantity := L.parseQuantity
  parseInt32 := J.parseInt32

/-- The Claw with what the consumer has written into it. -/
def Claw.deployed (claw : Claw) (c : Ops.Consumer.Claw ℤ) : Claw :=
  { claw with
    annotations :=
      (c.restartedAt.map fun stamp => ("claw.prismer.ai/restartedAt", stamp)).toList ++
        claw.annotations.filter fun a => a.1 ≠ "claw.prismer.ai/restartedAt"
    spec := { claw.spec with resources := c.resources, replicas := c.replicas } }

section

variable (L : Libs) (J : Ops.Libs)

/-- The consumer of one Claw. -/
abbrev consumerStep := Ops.Consumer.step (opsLibs L J) compare

/-- An intent that is committed has a positive target, and a new spec fits the defaults. -/
def Feasible (defaults : Resources) (S : Ops.Consumer.State (opsLibs L J)) :
    Ops.Consumer.Event ℤ → Prop
  | .write _ => True
  | .edit res _ => Fits defaults res
  | .consume env => ∀ b ∈ committedBump (opsLibs L J) S.claw env, 0 < b.2

instance (defaults : Resources) (S : Ops.Consumer.State (opsLibs L J))
    (e : Ops.Consumer.Event (opsLibs L J).Quantity) : Decidable (Feasible L J defaults S e) := by
  unfold Feasible
  cases e <;> infer_instance

variable {L J} {claw : Claw} {defaults : Resources} {S t : Ops.Consumer.State (opsLibs L J)}
  {target : ℤ} {res : Option Resources} {r r' : Resource}

theorem name_injective : Function.Injective Resource.name := by
  intro r r'
  cases r <;> cases r' <;> decide

theorem limit_bump :
    limit (some (bumpLimit (opsLibs L J) compare r.name target (res.getD {}))) r' =
      if r' = r then some target else limit res r' := by
  have hlimits : ((res.getD {}).limits.getD []).lookup r'.name = limit res r' := by
    cases res <;> rfl
  unfold limit bumpLimit
  simp only [bind_some, getD_some, lookup_set, name_injective.eq_iff]
  split_ifs
  · rfl
  · exact hlimits

theorem requests_bump (h : r' ≠ r) :
    request (some (bumpLimit (opsLibs L J) compare r.name target (res.getD {}))) r' =
      request res r' := by
  have hrequests : ((res.getD {}).requests.getD []).lookup r'.name = request res r' := by
    cases res <;> rfl
  have hname : r'.name ≠ r.name := fun heq => h (name_injective heq)
  unfold request bumpLimit
  simp only [bind_some, getD_some]
  split
  · split_ifs
    · rw [lookup_set, if_neg hname]
      exact hrequests
    · exact hrequests
  · rw [lookup_set, if_neg hname]
    exact hrequests

theorem request_bump :
    ∃ q ≤ target,
      request (some (bumpLimit (opsLibs L J) compare r.name target (res.getD {}))) r = some q := by
  unfold request bumpLimit
  simp only [bind_some, getD_some]
  split
  · next req hreq =>
    split_ifs with hlt
    · exact ⟨target, le_rfl, by rw [lookup_set, if_pos rfl]⟩
    · exact ⟨req, not_lt.mp fun h => hlt (compare_lt_iff_lt.mpr h), hreq⟩
  · exact ⟨target, le_rfl, by rw [lookup_set, if_pos rfl]⟩

/-- **A bump keeps the runtime schedulable exactly if its target is positive.** -/
theorem schedulable_bump_iff {new : Claw} (h : Schedulable (overrideResources claw defaults))
    (hnew : new.spec.resources =
      some (bumpLimit (opsLibs L J) compare r.name target (claw.spec.resources.getD {}))) :
    Schedulable (overrideResources new defaults) ↔ 0 < target := by
  constructor
  · intro hnew'
    obtain ⟨l, hl, hpos, -⟩ := hnew' r
    rw [limit_override, hnew, limit_bump, if_pos rfl] at hl
    rwa [some.inj hl]
  · intro hpos r'
    rw [limit_override, request_override, hnew, limit_bump]
    by_cases hr : r' = r
    · subst hr
      obtain ⟨q, hle, hq⟩ : ∃ q ≤ target, request (some (bumpLimit (opsLibs L J) compare r'.name
          target (claw.spec.resources.getD {}))) r' = some q := request_bump
      rw [if_pos rfl, hq]
      exact ⟨target, rfl, hpos, fun q' hq' => some.inj hq' ▸ hle⟩
    · rw [if_neg hr, requests_bump hr, ← limit_override, ← request_override]
      exact h r'

theorem resources_runtimeContainer (claw : Claw) (spec : RuntimeSpec) :
    (runtimeContainer claw spec).resources = overrideResources claw spec.resources := by
  unfold runtimeContainer
  cases claw.spec.credentials <;> rfl

theorem filter_runtime_of_build {cluster : Cluster} {native : Bool} {adapter : RuntimeAdapter}
    {sts : StatefulSet} (h : buildStatefulSet L cluster native claw adapter = .ok sts) :
    sts.template.containers.filter (·.name = "runtime") =
      [runtimeContainer claw adapter.runtimeSpec] := by
  have hrest : (if native then [] else sidecars L cluster native claw.ns claw.spec.channels).filter
      (·.name = "runtime") = [] := by
    rw [filter_eq_nil_iff]
    intro c hc
    cases native with
    | true => cases hc
    | false => simpa using name_ne_of_mem_sidecars (by decide) hc
  rw [(built_of_build h).containers, filter_cons_of_pos (by simp), hrest]

/-- **One event keeps the runtime schedulable** exactly if it is feasible. -/
theorem schedulable_step_iff {e : Ops.Consumer.Event ℤ} (hdefaults : Schedulable defaults)
    (h : Schedulable (overrideResources (claw.deployed S.claw) defaults))
    (hsound : ∀ res replicas, e = .edit res replicas → Sound res)
    (hstep : consumerStep L J S e = some t) :
    Schedulable (overrideResources (claw.deployed t.claw) defaults) ↔
      Feasible L J defaults S e := by
  cases e with
  | write =>
    cases hstep
    exact iff_of_true h trivial
  | edit res replicas =>
    cases hstep
    exact schedulable_override_iff hdefaults (hsound res replicas rfl)
  | consume env =>
    have hres := resources_consume hstep
    cases hbump : committedBump (opsLibs L J) S.claw env with
    | none =>
      rw [hbump] at hres
      have hsame : overrideResources (claw.deployed t.claw) defaults =
          overrideResources (claw.deployed S.claw) defaults := by
        simp only [overrideResources, Claw.deployed, hres]
      rw [hsame]
      refine iff_of_true h fun b hb => ?_
      rw [hbump] at hb
      cases hb
    | some b =>
      rw [hbump] at hres
      rw [schedulable_bump_iff h hres]
      constructor
      · intro hpos b' hb'
        obtain rfl := some.inj (hbump.symm.trans hb')
        exact hpos
      · intro hall
        exact hall b hbump

/-- **When the runtime stays schedulable.**  For every Claw that the webhook accepted, with sound
resources in its spec, the container of the runtime in every StatefulSet that is built has the
resources of `runtimeContainer`; and over every sequence of intents that are written and executed,
with any edits of the spec to sound resources in between, its limits are positive and its requests
at most its limits all along exactly if the resources of the spec fit the defaults where only one of
the two is set, and every bump that is committed has a positive target. -/
theorem schedulable_iff (hclaw : Accepted L claw) (hsound : Sound claw.spec.resources)
    (J : Ops.Libs) (c : Ops.Consumer.Claw ℤ) (hc : c.resources = claw.spec.resources) :
    ∃ adapter, registry L claw.spec.runtime = some adapter ∧
      (∀ (c' : Ops.Consumer.Claw ℤ) (cluster : Cluster) (native : Bool) (sts : StatefulSet),
        buildStatefulSet L cluster native (claw.deployed c') adapter = .ok sts →
          sts.template.containers.filter (·.name = "runtime") =
            [runtimeContainer (claw.deployed c') adapter.runtimeSpec]) ∧
      ∀ (events : List (Ops.Consumer.Event ℤ)) (t : Ops.Consumer.State (opsLibs L J)),
        (∀ res replicas, .edit res replicas ∈ events → Sound res) →
        run (consumerStep L J) (Ops.Consumer.start c) events = some t →
          (Along (consumerStep L J)
              (fun S => Schedulable
                (runtimeContainer (claw.deployed S.claw) adapter.runtimeSpec).resources)
              (Ops.Consumer.start c) events ↔
            Fits adapter.runtimeSpec.resources claw.spec.resources ∧
              Meets (consumerStep L J) (Feasible L J adapter.runtimeSpec.resources)
                (Ops.Consumer.start c) events) := by
  obtain ⟨adapter, hadapter⟩ := isSome_iff_exists.mp hclaw.registered
  have hdefaults := schedulable_of_registry hadapter
  refine ⟨adapter, hadapter, fun c' cluster native sts h => filter_runtime_of_build h,
    fun events t hedits hrun => ?_⟩
  simp only [resources_runtimeContainer]
  let P (S : Ops.Consumer.State (opsLibs L J)) : Prop :=
    Schedulable (overrideResources (claw.deployed S.claw) adapter.runtimeSpec.resources)
  have hstart : P (Ops.Consumer.start c) ↔
      Fits adapter.runtimeSpec.resources claw.spec.resources := by
    rw [← hc] at hsound ⊢
    have hdeployed : Sound (claw.deployed c).spec.resources := hsound
    exact schedulable_override_iff hdefaults hdeployed
  have hdom : Meets (consumerStep L J)
      (fun _ e => True ∧ ∀ res replicas, e = Ops.Consumer.Event.edit res replicas → Sound res)
      (Ops.Consumer.start c) events := by
    refine Lib.meets_and_of_forall Lib.meets_true ?_
    rintro e he res replicas rfl
    exact hedits res replicas he
  have hstep (S : Ops.Consumer.State (opsLibs L J)) (e : Ops.Consumer.Event ℤ)
      (u : Ops.Consumer.State (opsLibs L J)) (hP : P S)
      (hdom : True ∧ ∀ res replicas, e = Ops.Consumer.Event.edit res replicas → Sound res)
      (hu : consumerStep L J S e = some u) :
      P u ↔ Feasible L J adapter.runtimeSpec.resources S e :=
    schedulable_step_iff hdefaults hP hdom.2 hu
  have hmeets (h : P (Ops.Consumer.start c)) :
      Along (consumerStep L J) P (Ops.Consumer.start c) events ↔
        Meets (consumerStep L J) (Feasible L J adapter.runtimeSpec.resources)
          (Ops.Consumer.start c) events :=
    Lib.along_iff_meets_of_meets (fun _ _ _ _ _ => trivial)
      (fun S e u _ => hstep S e u) trivial h hdom hrun
  constructor
  · intro halong
    have hfirst : P (Ops.Consumer.start c) := halong [] nil_prefix _ rfl
    exact ⟨hstart.mp hfirst, (hmeets hfirst).mp halong⟩
  · rintro ⟨hfits, hall⟩
    exact (hmeets (hstart.mpr hfits)).mpr hall

end

/-! ### A bump, and three Claws that cannot be scheduled -/

/-- Libraries that know two intents. -/
def bumpLibs : Ops.Libs where
  marshal intent := intent.action
  unmarshal := fun
    | "bump" => some ⟨"bump-memory", some [("target", "8Gi")], 1, "user", ""⟩
    | "drop" => some ⟨"bump-memory", some [("target", "0")], 1, "user", ""⟩
    | _ => none
  Quantity := ℤ
  parseQuantity := sizedLibs.parseQuantity
  parseInt32 _ := none

/-- A Claw whose annotation has this intent. -/
def intended (opsIntent : String) : Ops.Consumer.Claw ℤ where
  opsIntent := some opsIntent

/-- The Claw with these resources. -/
def Claw.withResources (claw : Claw) (res : Resources) : Claw :=
  { claw with spec.resources := some res }

theorem schedulable_bumped :
    Accepted sizedLibs plainClaw ∧ Sound plainClaw.spec.resources ∧
      Along (consumerStep sizedLibs bumpLibs)
        (fun S => Schedulable (runtimeContainer (plainClaw.deployed S.claw)
          (openClawAdapter sizedLibs).runtimeSpec).resources)
        (Ops.Consumer.start (intended "bump")) [.consume {}] := by
  have hclaw : Accepted sizedLibs plainClaw := .create (by decide +kernel)
  have hsound : Sound plainClaw.spec.resources := by decide
  obtain ⟨adapter, hadapter, -, hiff⟩ :=
    schedulable_iff hclaw hsound bumpLibs (intended "bump") rfl
  obtain rfl : openClawAdapter sizedLibs = adapter := some.inj hadapter
  have hrun : (run (consumerStep sizedLibs bumpLibs) (Ops.Consumer.start (intended "bump"))
      [.consume {}]).isSome := by
    decide +kernel
  obtain ⟨t, ht⟩ := isSome_iff_exists.mp hrun
  refine ⟨hclaw, hsound, (hiff [.consume {}] t ?_ ht).mpr ⟨?_, ?_⟩⟩
  · intro res replicas h
    cases mem_singleton.mp h
  · decide +kernel
  · decide +kernel

/-- The container of the runtime that is built for the Claw can be scheduled. -/
def schedules (L : Libs) (claw : Claw) (adapter : RuntimeAdapter) : Option Bool :=
  (buildStatefulSet L plainCluster true claw adapter).toOption.map fun sts =>
    (sts.template.containers.filter (·.name = "runtime")).all fun c => Schedulable c.resources

theorem unschedulable :
    (∀ res ∈ [({ limits := some [("memory", mebi 512)] } : Resources),
        { requests := some [("memory", gibi 8)] }],
      Accepted sizedLibs (plainClaw.withResources res) ∧ Sound (some res) ∧
        schedules sizedLibs (plainClaw.withResources res) (openClawAdapter sizedLibs) =
          some false) ∧
    Accepted sizedLibs plainClaw ∧
      ∃ S ∈ run (consumerStep sizedLibs bumpLibs) (Ops.Consumer.start (intended "drop"))
          [.consume {}],
        schedules sizedLibs (plainClaw.deployed S.claw) (openClawAdapter sizedLibs) =
          some false := by
  refine ⟨fun res hres => ⟨.create ?_, ?_⟩, .create ?_, ?_⟩
  · revert res
    decide +kernel
  · revert res
    decide +kernel
  · decide +kernel
  · decide +kernel

end K8s4Claw.Operator
