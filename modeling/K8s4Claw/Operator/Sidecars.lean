/-
# The containers of a pod

Four injectors put containers into the template of an adapter, in `buildStatefulSet` of
`internal/controller/claw_controller.go`: the bus after `claw-init`, the channels at the end of the
init containers or of the main ones, the archiver at the end of the init containers, and the
credentials into the runtime.  A channel that does not exist, or not in the mode that is asked for,
is skipped; of the API calls, only the one for the Secret of the credentials then decides whether
there is a template.

The names of the channel containers are those of the references in the spec, which nothing asks to
be different: two references to one channel give two containers of one name, and Kubernetes rejects
the pod.
-/

import K8s4Claw.Operator.Crashes

namespace K8s4Claw.Operator

open List

/-! ### Channels that are skipped -/

section

variable (cluster : Cluster) (ns : String)

/-- The names of the references whose channel is not there or cannot be used as they ask. -/
def Cluster.skipped (refs : List ChannelRef) : List String :=
  (refs.filter fun ref => (cluster.usable ns ref).isNone).map (·.name)

/-- The references whose channel is used. -/
def Cluster.used (refs : List ChannelRef) : List ChannelRef :=
  refs.filter fun ref => (cluster.usable ns ref).isSome

/-- The API server answers for every channel of a namespace, if only that there is none. -/
def Cluster.AnswersChannels : Prop :=
  ∀ name, ∃ found, cluster.channel ns name = .ok found

end

/-- The Secret that the credentials of a Claw name, if they name one, can be read. -/
def Cluster.ReadsCredentials (cluster : Cluster) (claw : Claw) : Prop :=
  ∀ creds ∈ claw.spec.credentials, ∀ name ∈ creds.secretRef,
    ∃ secret, cluster.secret claw.ns name = .ok (some secret)

section

variable {L : Libs} {cluster : Cluster} {native : Bool} {claw : Claw} {adapter : RuntimeAdapter}
  {sts : StatefulSet}

section

variable {ns : String} (h : cluster.AnswersChannels ns)

include h

theorem exists_injectChannelSidecar (s : List String × PodTemplate) (ref : ChannelRef) :
    ∃ t, injectChannelSidecar L cluster native ns s ref =
      .ok (s.1 ++ cluster.skipped ns [ref], t) := by
  obtain ⟨found, hfound⟩ := h ref.name
  cases found with
  | none =>
    exact ⟨s.2, by simp [injectChannelSidecar, Cluster.skipped, Cluster.usable, hfound]⟩
  | some channel =>
    cases hmode : isModeCompatible ref.mode channel.mode with
    | true =>
      simp [injectChannelSidecar, Cluster.skipped, Cluster.usable, hfound, hmode]
    | false =>
      simp [injectChannelSidecar, Cluster.skipped, Cluster.usable, hfound, hmode]

/-- **The loop over the channels returns the references that it does not use, in order.** -/
theorem exists_injectChannelSidecars (refs : List ChannelRef) (s : List String × PodTemplate) :
    ∃ t, refs.foldlM (injectChannelSidecar L cluster native ns) s =
      .ok (s.1 ++ cluster.skipped ns refs, t) := by
  induction refs generalizing s with
  | nil => exact ⟨s.2, by simp [Cluster.skipped, pure, Except.pure]⟩
  | cons ref refs ih =>
    obtain ⟨t, ht⟩ := exists_injectChannelSidecar h s ref
    obtain ⟨t', ht'⟩ := ih (s.1 ++ cluster.skipped ns [ref], t)
    refine ⟨t', ?_⟩
    have hskipped : cluster.skipped ns (ref :: refs) =
        cluster.skipped ns [ref] ++ cluster.skipped ns refs := by
      rw [Cluster.skipped, Cluster.skipped, Cluster.skipped, ← map_append,
        ← filter_append, singleton_append]
    rw [foldlM_cons, ht, hskipped, ← append_assoc]
    exact ht'

end

/-! ### When there is a template -/

theorem injectArchiverIfNeeded_containers (claw : Claw) (t : PodTemplate) :
    (injectArchiverIfNeeded claw t).containers = t.containers := by
  unfold injectArchiverIfNeeded
  split
  · rfl
  · split_ifs <;> rfl

theorem exists_runtime {volumes : List Volume} {s : List String × PodTemplate}
    (h : injectChannelSidecars L cluster native claw (withoutChannels claw adapter volumes) =
      .ok s) :
    ∃ c cs, (injectArchiverIfNeeded claw s.2).containers = c :: cs ∧ c.name = "runtime" := by
  obtain ⟨_, hwithout⟩ := withoutChannels_eq claw adapter volumes
  rw [injectArchiverIfNeeded_containers, injectChannelSidecars_eq h, hwithout]
  exact ⟨_, _, rfl, rfl⟩

theorem injectCredentials_isOk_iff {t : PodTemplate} {c : Container} {cs : List Container}
    (ht : t.containers = c :: cs) (hc : c.name = "runtime") :
    (∃ t', injectCredentials L cluster claw t = .ok t') ↔ cluster.ReadsCredentials claw := by
  have hany : t.containers.any (·.name = "runtime") = true := by simp [ht, hc]
  cases hcreds : claw.spec.credentials with
  | none => simp [injectCredentials, Cluster.ReadsCredentials, hcreds]
  | some creds =>
    cases hsecret : creds.secretRef with
    | none =>
      simp [injectCredentials, Cluster.ReadsCredentials, hcreds, hany, secretAnnotations,
        hsecret, Except.map]
    | some name =>
      rcases hread : cluster.secret claw.ns name with err | found
      · simp [injectCredentials, Cluster.ReadsCredentials, hcreds, hany, secretAnnotations,
          hsecret, computeSecretHash, hread, Except.map, Except.mapError]
      · cases found <;>
          simp [injectCredentials, Cluster.ReadsCredentials, hcreds, hany, secretAnnotations,
            hsecret, computeSecretHash, hread, Except.map, Except.mapError]

theorem build_of_stages {volumes : List Volume} {s : List String × PodTemplate}
    {template : PodTemplate} {claims : List PersistentVolumeClaim}
    (hvolumes : buildVolumes L claw adapter.runtimeSpec = .ok volumes)
    (hs : injectChannelSidecars L cluster native claw (withoutChannels claw adapter volumes) =
      .ok s)
    (htemplate : injectCredentials L cluster claw (injectArchiverIfNeeded claw s.2) = .ok template)
    (hclaims : buildVolumeClaimTemplates L claw = .ok claims) :
    buildStatefulSet L cluster native claw adapter =
      .ok { name := claw.name
            ns := claw.ns
            replicas := claw.spec.replicas.getD 1
            template := template
            volumeClaimTemplates := claims } := by
  unfold buildStatefulSet buildPodTemplate
  rw [hvolumes]
  change (Except.mapError _ (injectChannelSidecars L cluster native claw
    (withoutChannels claw adapter volumes)) >>= fun s => _) = _
  rw [hs]
  change (Except.mapError _ (injectCredentials L cluster claw _) >>= fun template => _) = _
  rw [htemplate, hclaims]
  rfl

/-- **There is a template exactly when the Secret of the credentials can be read.** -/
theorem build_isOk_iff (hL : Checked.ReadsLiterals L) (hclaw : Accepted L claw)
    (hchannels : cluster.AnswersChannels claw.ns) (adapter : RuntimeAdapter) :
    (∃ sts, buildStatefulSet L cluster native claw adapter = .ok sts) ↔
      cluster.ReadsCredentials claw := by
  constructor
  · rintro ⟨sts, hsts⟩
    obtain ⟨volumes, s, -, hs, htemplate, -⟩ := stages_of_build hsts
    obtain ⟨c, cs, hcs, hc⟩ := exists_runtime hs
    exact (injectCredentials_isOk_iff hcs hc).mp ⟨sts.template, htemplate⟩
  · intro hreads
    obtain ⟨volumes, hvolumes⟩ := Checked.exists_buildVolumes hL hclaw adapter.runtimeSpec
    obtain ⟨claims, hclaims⟩ := Checked.exists_buildVolumeClaimTemplates hclaw
    obtain ⟨t, ht⟩ := exists_injectChannelSidecars hchannels claw.spec.channels
      ([], withoutChannels claw adapter volumes)
    obtain ⟨c, cs, hcs, hc⟩ := exists_runtime ht
    obtain ⟨template, htemplate⟩ := (injectCredentials_isOk_iff hcs hc).mpr hreads
    exact ⟨_, build_of_stages hvolumes ht htemplate hclaims⟩

/-! ### The order of the containers -/

/-- What the containers of a template have to be. -/
structure Composed (L : Libs) (cluster : Cluster) (native : Bool) (claw : Claw)
    (adapter : RuntimeAdapter) (t : PodTemplate) : Prop where
  init : t.initContainers =
    [buildInitContainer claw adapter.runtimeSpec] ++
      (if claw.spec.channels = [] then []
        else [ipcBusContainer claw claw.spec.runtime.text adapter.gatewayPort]) ++
      (if native then sidecars L cluster native claw.ns claw.spec.channels else []) ++
      claw.spec.archive.toList.map fun a => archiverContainer a.1 a.2
  initNames : t.initContainers.map (·.name) =
    ["claw-init"] ++ (if claw.spec.channels = [] then [] else ["ipc-bus"]) ++
      (if native then (cluster.used claw.ns claw.spec.channels).map ("channel-" ++ ·.name)
        else []) ++
      if claw.spec.archive.isSome then ["archive-sidecar"] else []
  main : t.containers =
    [runtimeContainer claw adapter.runtimeSpec] ++
      if native then [] else sidecars L cluster native claw.ns claw.spec.channels
  mainNames : t.containers.map (·.name) =
    ["runtime"] ++
      if native then [] else (cluster.used claw.ns claw.spec.channels).map ("channel-" ++ ·.name)

theorem map_name_sidecars (ns : String) (refs : List ChannelRef) :
    (sidecars L cluster native ns refs).map (·.name) =
      (cluster.used ns refs).map ("channel-" ++ ·.name) := by
  induction refs with
  | nil => rfl
  | cons ref _ ih =>
    simp only [sidecars, Cluster.used, filterMap_cons, filter_cons] at ih ⊢
    cases cluster.usable ns ref with
    | none => simpa using ih
    | some => simpa [buildChannelContainer] using ih

theorem composed_of_build (h : buildStatefulSet L cluster native claw adapter = .ok sts) :
    Composed L cluster native claw adapter sts.template := by
  have hinit := (built_of_build h).initContainers
  have hmain := (built_of_build h).containers
  simp only [List.isEmpty_iff] at hinit
  refine ⟨by simpa using hinit, ?_, by simpa using hmain, ?_⟩
  · have hsome : (claw.spec.archive.toList.map fun a => (archiverContainer a.1 a.2).name) =
        if claw.spec.archive.isSome then ["archive-sidecar"] else [] := by
      cases claw.spec.archive <;> rfl
    rw [hinit]
    simp only [map_append, map_map]
    congr 1
    congr 1
    · split_ifs <;> rfl
    · split_ifs
      · exact map_name_sidecars claw.ns claw.spec.channels
      · rfl
  · rw [hmain, map_cons, runtimeContainer_name]
    congr 1
    split_ifs
    · rfl
    · exact map_name_sidecars claw.ns claw.spec.channels

end

/-- **Sidecar composition.**  For a Claw that the webhook accepted, whatever channels exist: the
loop over the channels skips exactly the references it does not use, in order; there is a template
exactly when the Secret of the credentials can be read; and its containers are those of `Composed`.
-/
theorem sidecar_composition {L : Libs} {claw : Claw} (hL : Checked.ReadsLiterals L)
    (hclaw : Accepted L claw) {cluster : Cluster} (hchannels : cluster.AnswersChannels claw.ns)
    (native : Bool) (adapter : RuntimeAdapter) :
    (∀ t, ∃ t', injectChannelSidecars L cluster native claw t =
      .ok (cluster.skipped claw.ns claw.spec.channels, t')) ∧
    ((∃ sts, buildStatefulSet L cluster native claw adapter = .ok sts) ↔
      cluster.ReadsCredentials claw) ∧
    ∀ sts, buildStatefulSet L cluster native claw adapter = .ok sts →
      Composed L cluster native claw adapter sts.template :=
  ⟨fun t => exists_injectChannelSidecars hchannels claw.spec.channels ([], t),
    build_isOk_iff hL hclaw hchannels adapter, fun _ => composed_of_build⟩

/-- A Claw with an archive that refers to these channels. -/
def channelledClaw (channels : List ChannelRef) : Claw :=
  { furnishedClaw with spec := { furnishedClaw.spec with channels := channels } }

/-- A cluster with a channel for both directions, one for incoming messages, and every Secret. -/
def twoChannelCluster : Cluster where
  channel _ name :=
    .ok (([("chat", { type := .slack }), ("feed", { type := .webhook, mode := .inbound })] :
      List (String × ClawChannelSpec)).lookup name)
  secret _ _ := .ok (some (.single "API_KEY" "key"))
  other _ _ := none

/-- A reference in the wrong direction, one that can be used, and one to no channel. -/
def mixedRefs : List ChannelRef := [⟨"feed", .outbound⟩, ⟨"chat", .inbound⟩, ⟨"ghost", .inbound⟩]

theorem sidecar_composition_mixedRefs :
    Accepted literalLibs (channelledClaw mixedRefs) ∧
      twoChannelCluster.skipped "default" mixedRefs = ["feed", "ghost"] ∧
      ∃ sts, buildStatefulSet literalLibs twoChannelCluster true (channelledClaw mixedRefs)
          (openClawAdapter literalLibs) = .ok sts ∧
        sts.template.initContainers.map (·.name) =
          ["claw-init", "ipc-bus", "channel-chat", "archive-sidecar"] := by
  have hL : Checked.ReadsLiterals literalLibs := by decide +kernel
  have hclaw : Accepted literalLibs (channelledClaw mixedRefs) := .create (by decide +kernel)
  have hchannels : twoChannelCluster.AnswersChannels "default" := fun _ => ⟨_, rfl⟩
  obtain ⟨-, hbuild, hcomposed⟩ := sidecar_composition hL hclaw hchannels true
    (openClawAdapter literalLibs)
  obtain ⟨sts, hsts⟩ := hbuild.mpr fun _ _ _ _ => ⟨_, rfl⟩
  refine ⟨hclaw, by decide +kernel, sts, hsts, ?_⟩
  rw [(hcomposed sts hsts).initNames]
  decide +kernel

/-! ### Names -/

/-- The names of the containers of a pod, which Kubernetes requires to be different. -/
def PodTemplate.containerNames (t : PodTemplate) : List String :=
  (t.initContainers ++ t.containers).map (·.name)

/-- The containers that are no channels. -/
def staticNames (claw : Claw) : List String :=
  ["claw-init"] ++ (if claw.spec.channels = [] then [] else ["ipc-bus"]) ++
    (if claw.spec.archive.isSome then ["archive-sidecar"] else []) ++ ["runtime"]

theorem nodup_staticNames (claw : Claw) : (staticNames claw).Nodup := by
  unfold staticNames
  split_ifs <;> decide

theorem channelName_injective : Function.Injective (("channel-" : String) ++ ·) := by
  intro a b h
  have hlist := congrArg String.toList h
  simp only [String.toList_append] at hlist
  exact String.toList_injective (append_cancel_left hlist)

/-- No channel has the name of another container. -/
theorem channelName_notMem (claw : Claw) (name : String) :
    "channel-" ++ name ∉ staticNames claw := by
  intro hmem
  have hsubset : staticNames claw ⊆ ["claw-init", "ipc-bus", "archive-sidecar", "runtime"] := by
    unfold staticNames
    split_ifs <;> decide
  have hlist (other : String) (h : "channel-" ++ name = other) :
      "channel-".toList ++ name.toList = other.toList := by
    rw [← h, String.toList_append]
  have hfixed := hsubset hmem
  simp only [mem_cons, not_mem_nil, or_false] at hfixed
  rcases hfixed with h | h | h | h <;> simpa using hlist _ h

section

variable {L : Libs} {cluster : Cluster} {native : Bool} {claw : Claw} {adapter : RuntimeAdapter}
  {sts : StatefulSet}

theorem Composed.perm_containerNames {t : PodTemplate}
    (h : Composed L cluster native claw adapter t) :
    t.containerNames.Perm (staticNames claw ++
      (cluster.used claw.ns claw.spec.channels).map ("channel-" ++ ·.name)) := by
  rw [PodTemplate.containerNames, map_append, h.initNames, h.mainNames, staticNames, perm_iff_count]
  cases native
  · simp only [count_append, Bool.false_eq_true, if_false, count_nil]
    omega
  · simp only [count_append, if_true, count_nil]
    omega

/-- **The names of the containers are different exactly when the references to the channels that are
used are to different channels.** -/
theorem containerNames_nodup_iff (h : buildStatefulSet L cluster native claw adapter = .ok sts) :
    sts.template.containerNames.Nodup ↔
      ((cluster.used claw.ns claw.spec.channels).map (·.name)).Nodup := by
  rw [(composed_of_build h).perm_containerNames.nodup_iff, nodup_append]
  have hmap : (cluster.used claw.ns claw.spec.channels).map ("channel-" ++ ·.name) =
      ((cluster.used claw.ns claw.spec.channels).map (·.name)).map ("channel-" ++ ·) := by
    rw [map_map]
    rfl
  have hapart : ∀ a ∈ staticNames claw,
      ∀ b ∈ (cluster.used claw.ns claw.spec.channels).map ("channel-" ++ ·.name), a ≠ b := by
    rintro a ha b hb rfl
    obtain ⟨ref, -, rfl⟩ := mem_map.mp hb
    exact channelName_notMem claw ref.name ha
  constructor
  · rintro ⟨-, hchannels, -⟩
    rw [hmap] at hchannels
    exact hchannels.of_map _
  · intro hnames
    refine ⟨nodup_staticNames claw, ?_, hapart⟩
    rw [hmap]
    exact hnames.map channelName_injective

end

theorem containerNames_nodup_iff_mixedRefs :
    ∃ sts, buildStatefulSet literalLibs twoChannelCluster false (channelledClaw mixedRefs)
        (openClawAdapter literalLibs) = .ok sts ∧ sts.template.containerNames.Nodup := by
  have hok : (buildStatefulSet literalLibs twoChannelCluster false (channelledClaw mixedRefs)
      (openClawAdapter literalLibs)).isOk = true := by
    decide +kernel
  obtain ⟨sts, hsts⟩ := exists_eq_ok hok
  exact ⟨sts, hsts, (containerNames_nodup_iff hsts).mpr (by decide +kernel)⟩

/-- **Two references to one channel**, for each direction one: the webhook accepts the Claw, and the
pod has two containers `channel-chat`. -/
theorem containerNames_twice :
    validateCreate literalLibs (channelledClaw [⟨"chat", .inbound⟩, ⟨"chat", .outbound⟩]) = [] ∧
      ∃ sts ∈ (buildStatefulSet literalLibs twoChannelCluster true
          (channelledClaw [⟨"chat", .inbound⟩, ⟨"chat", .outbound⟩])
          (openClawAdapter literalLibs)).toOption,
        sts.template.containerNames =
          ["claw-init", "ipc-bus", "channel-chat", "channel-chat", "archive-sidecar", "runtime"] ∧
        ¬ sts.template.containerNames.Nodup := by
  decide +kernel

end K8s4Claw.Operator
