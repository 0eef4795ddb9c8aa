/-
# The status of a channel

`ClawChannelReconciler` of `internal/controller/channel_controller.go` with
`clawsReferencingChannel` of `channel_index.go`, in one namespace.  `SetupWithManager` names only
ClawChannels, so the queue gets the name of a channel when that channel is created, changed or
deleted, also by the controller itself, and gets none when a Claw is.  `Reconcile` reads the channel
and the Claws that reference it, and later writes: it adds or removes the finalizer by a patch and
updates the status, which fails if the channel has changed since it was read.  After an error the
name is queued again; a channel in deletion that is still in use is looked at again after a while.

The two reads of `Reconcile` come from the cache of the manager, the `Get` before the `List`; here
they are one read of what is stored then.
-/

import K8s4Claw.Operator.Deletion
import Mathlib.Data.List.Sort

namespace K8s4Claw.Operator

open List Option Function
open Lib (Meets run)

/-! ## Channels -/

/-- `metav1.Condition`. -/
structure Condition where
  type : String
  status : Bool
  observedGeneration : ℕ
  reason : String
  message : String
  deriving DecidableEq

/-- `ClawChannelStatus`. -/
structure ChannelStatus where
  conditions : List Condition := []
  observedGeneration : ℕ := 0
  referenceCount : ℕ := 0
  referencingClaws : List String := []
  deriving DecidableEq

/-- What the controller reads and writes of a ClawChannel. -/
structure ClawChannel where
  resourceVersion : ℕ := 0
  generation : ℕ := 1
  finalizers : List String := []
  /-- `DeletionTimestamp` is set. -/
  deleting : Bool := false
  status : ChannelStatus := {}
  deriving DecidableEq

def clawChannelFinalizer : String := "claw.prismer.ai/channel-cleanup"

def setStatusCondition (conditions : List Condition) (new : Condition) : List Condition :=
  if conditions.any (·.type = new.type) then
    conditions.map fun c => if c.type = new.type then new else c
  else conditions ++ [new]

/-- The condition `InUse` with references. -/
def inUse (generation : ℕ) (referencingClaws : List String) : Condition where
  type := "InUse"
  status := true
  observedGeneration := generation
  reason := "ReferencesExist"
  message := "channel is referenced by " ++ toString referencingClaws.length ++ " Claw(s): [" ++
    " ".intercalate referencingClaws ++ "]"

/-- The condition `InUse` without references. -/
def notInUse (generation : ℕ) : Condition where
  type := "InUse"
  status := false
  observedGeneration := generation
  reason := "NoReferences"
  message := "channel is not referenced by any Claw"

/-- The status of `updateChannelStatus`. -/
def ClawChannel.used (c : ClawChannel) (referencingClaws : List String) : ChannelStatus where
  conditions := setStatusCondition c.status.conditions
    (if 0 < referencingClaws.length then inUse c.generation referencingClaws
      else notInUse c.generation)
  observedGeneration := c.generation
  referenceCount := referencingClaws.length
  referencingClaws := referencingClaws

/-- The status of `handleChannelDeletion`. -/
def ClawChannel.blocked (c : ClawChannel) (referencingClaws : List String) : ChannelStatus :=
  { c.status with
    conditions := setStatusCondition c.status.conditions (inUse c.generation referencingClaws)
    referenceCount := referencingClaws.length
    referencingClaws := referencingClaws }

/-- The condition `InUse` is `True`. -/
def ChannelStatus.InUse (status : ChannelStatus) : Prop :=
  (status.conditions.find? (·.type = "InUse")).any (·.status)

/-! ## The controller -/

/-- A `Reconcile` that has read the channel and the Claws. -/
structure ChannelWork where
  name : String
  channel : ClawChannel
  referencingClaws : List String
  deriving DecidableEq

/-- The namespace and the controller. -/
structure ChannelWorld where
  claws : List Claw := []
  channels : String → Option ClawChannel := fun _ => none
  resourceVersion : ℕ := 0
  queue : List String := []
  delayed : List String := []
  work : Option ChannelWork := none

/-- The Claw has the channel among those of `spec.channels`, which is what the index looks up. -/
def Claw.references (claw : Claw) (name : String) : Bool :=
  (claw.spec.channels.map (·.name)).contains name

def clawsReferencingChannel (claws : List Claw) (name : String) : List String :=
  ((claws.filter (·.references name)).map (·.name)).insertionSort (· ≤ ·)

namespace ChannelWorld

variable (s : ChannelWorld) (name : String)

/-- A change of a channel, `none` for its end; it is an event for the controller. -/
def store (c : Option ClawChannel) : ChannelWorld :=
  { s with
    channels := Function.update s.channels name
      (c.map ({ · with resourceVersion := s.resourceVersion }))
    resourceVersion := s.resourceVersion + 1
    queue := s.queue.insert name }

/-- A merge patch of the finalizers; the channel in the answer, `none` for an error.  A channel in
deletion is gone with its last finalizer. -/
def patch (finalizers : List String) (outcome : Outcome) : ChannelWorld × Option ClawChannel :=
  match outcome, s.channels name with
  | .failed, _ | _, none => (s, none)
  | outcome, some c =>
      let t := s.store name
        (if c.deleting = true ∧ finalizers = [] then none else some { c with finalizers })
      (t, if outcome = .ok then some ((t.channels name).getD c) else none)

/-- `Status().Update`; whether it goes through. -/
def updateStatus (c : ClawChannel) (status : ChannelStatus) (outcome : Outcome) :
    ChannelWorld × Bool :=
  match outcome, s.channels name with
  | .failed, _ | _, none => (s, false)
  | outcome, some stored =>
      if stored.resourceVersion ≠ c.resourceVersion then (s, false)
      else if stored.status = status then (s, outcome = .ok)
      else (s.store name (some { stored with status }), outcome = .ok)

end ChannelWorld

/-- How a `Reconcile` ends. -/
inductive ChannelResult
  | done
  | requeueAfter
  | failed
  deriving DecidableEq

section

variable (s : ChannelWorld) (w : ChannelWork)

def handleChannelDeletion (patch update : Outcome) : ChannelWorld × ChannelResult :=
  if clawChannelFinalizer ∈ w.channel.finalizers then
    if 0 < w.referencingClaws.length then
      let r := s.updateStatus w.name w.channel (w.channel.blocked w.referencingClaws) update
      (r.1, if r.2 then .requeueAfter else .failed)
    else
      let r := s.patch w.name (w.channel.finalizers.filter (· ≠ clawChannelFinalizer)) patch
      (r.1, if r.2.isSome then .done else .failed)
  else (s, .done)

/-- The finalizer is added if it is not there. -/
def ensureFinalizer (patch : Outcome) : ChannelWorld × Option ClawChannel :=
  if clawChannelFinalizer ∈ w.channel.finalizers then (s, some w.channel)
  else s.patch w.name (w.channel.finalizers ++ [clawChannelFinalizer]) patch

/-- The rest of `Reconcile` after the reads. -/
def reconcileChannel (patch update : Outcome) : ChannelWorld × ChannelResult :=
  if w.channel.deleting then handleChannelDeletion s w patch update
  else
    match ensureFinalizer s w patch with
    | (s, none) => (s, .failed)
    | (s, some c) =>
        let r := s.updateStatus w.name c (c.used w.referencingClaws) update
        (r.1, if r.2 then .done else .failed)

end

inductive ChannelEvent
  /-- A Claw is created or changed. -/
  | putClaw (claw : Claw)
  | deleteClaw (name : String)
  | createChannel (name : String)
  /-- The spec of a channel is changed. -/
  | updateChannel (name : String)
  | deleteChannel (name : String)
  /-- `Reconcile` reads, and whether it can. -/
  | read (name : String) (ok : Bool)
  /-- It writes and returns. -/
  | write (patch update : Outcome)
  /-- The time of a requeue is over. -/
  | elapsed (name : String)

def channelStep (s : ChannelWorld) : ChannelEvent → Option ChannelWorld
  | .putClaw claw => some { s with claws := claw :: s.claws.filter (·.name ≠ claw.name) }
  | .deleteClaw name => some { s with claws := s.claws.filter (·.name ≠ name) }
  | .createChannel name =>
      match s.channels name with
      | some _ => none
      | none => some (s.store name (some {}))
  | .updateChannel name =>
      (s.channels name).map fun c => s.store name (some { c with generation := c.generation + 1 })
  | .deleteChannel name =>
      (s.channels name).map fun c => s.store name (if c.finalizers = [] then none
        else some { c with deleting := true, generation := c.generation + 1 })
  | .read name ok =>
      if name ∈ s.queue ∧ s.work = none then
        some (if ok then
          { s with
            queue := s.queue.filter (· ≠ name)
            work := (s.channels name).map fun c =>
              ⟨name, c, clawsReferencingChannel s.claws name⟩ }
        else s)
      else none
  | .write patch update => s.work.map fun w =>
      match reconcileChannel { s with work := none } w patch update with
      | (s, .done) => s
      | (s, .requeueAfter) => { s with delayed := s.delayed.insert w.name }
      | (s, .failed) => { s with queue := s.queue.insert w.name }
  | .elapsed name =>
      if name ∈ s.delayed then
        some { s with delayed := s.delayed.filter (· ≠ name), queue := s.queue.insert name }
      else none

/-- No event is waiting or being handled. -/
def ChannelWorld.AtRest (s : ChannelWorld) : Prop := s.queue = [] ∧ s.work = none

/-- The status has exactly the Claws that reference the channel, their number, and the condition. -/
structure ChannelWorld.Accurate (s : ChannelWorld) (name : String) (status : ChannelStatus) :
    Prop where
  listed : ∀ n, n ∈ status.referencingClaws ↔ ∃ claw ∈ s.claws, claw.references name ∧ claw.name = n
  count : status.referenceCount = (s.claws.filter (·.references name)).length
  inUse : status.InUse ↔ 0 < status.referenceCount

/-! ## What a status says -/

/-- The status that `updateChannelStatus` writes for these Claws. -/
structure ChannelStatus.Reports (status : ChannelStatus) (claws : List String) : Prop where
  listed : status.referencingClaws = claws
  count : status.referenceCount = claws.length
  inUse : status.InUse ↔ 0 < claws.length

theorem find?_setStatusCondition (conditions : List Condition) (new : Condition) :
    (setStatusCondition conditions new).find? (·.type = new.type) = some new := by
  unfold setStatusCondition
  split_ifs with h
  · induction conditions with
    | nil => simp at h
    | cons c _ ih =>
      by_cases hc : c.type = new.type
      · simp [hc]
      · rw [map_cons, if_neg hc, find?_cons_of_neg (by simpa using hc)]
        exact ih (by simpa [hc] using h)
  · rw [find?_append, find?_eq_none.mpr (by simpa using h)]
    simp

theorem ClawChannel.reports_used (c : ClawChannel) (claws : List String) :
    (c.used claws).Reports claws := by
  refine ⟨rfl, rfl, ?_⟩
  have hfind := find?_setStatusCondition c.status.conditions
  unfold ChannelStatus.InUse ClawChannel.used
  split_ifs with h
  · refine iff_of_true ?_ h
    exact (congrArg (Option.any (·.status)) (hfind (inUse c.generation claws))).trans rfl
  · refine iff_of_false (fun htrue => ?_) h
    have hfalse := congrArg (Option.any (·.status)) (hfind (notInUse c.generation))
    exact Bool.false_ne_true (hfalse.symm.trans htrue)

theorem ChannelWorld.accurate_of_reports {s : ChannelWorld} {name : String}
    {status : ChannelStatus} (h : status.Reports (clawsReferencingChannel s.claws name)) :
    s.Accurate name status := by
  have hperm := perm_insertionSort (· ≤ ·) ((s.claws.filter (·.references name)).map (·.name))
  have hcount : status.referenceCount = (s.claws.filter (·.references name)).length := by
    rw [h.count, clawsReferencingChannel, hperm.length_eq, length_map]
  refine ⟨fun n => ?_, hcount, h.count ▸ h.inUse⟩
  rw [h.listed, clawsReferencingChannel]
  simp [and_assoc]

/-! ## What a call changes -/

/-- The calls for one channel: the others stay, nothing is taken from the queue, and the channel is
queued if it is changed. -/
structure Writes (name : String) (s t : ChannelWorld) : Prop where
  claws : t.claws = s.claws
  work : t.work = s.work
  queue : ∀ n ∈ s.queue, n ∈ t.queue
  others : ∀ n ≠ name, t.channels n = s.channels n
  queued : name ∈ t.queue ∨ t.channels = s.channels

section

variable {s t u : ChannelWorld} {name : String} {w : ChannelWork} {patch update outcome : Outcome}

theorem Writes.refl (name : String) (s : ChannelWorld) : Writes name s s :=
  ⟨rfl, rfl, fun _ => id, fun _ _ => rfl, .inr rfl⟩

theorem Writes.trans (h : Writes name s t) (h' : Writes name t u) : Writes name s u where
  claws := h'.claws.trans h.claws
  work := h'.work.trans h.work
  queue n hn := h'.queue n (h.queue n hn)
  others n hn := (h'.others n hn).trans (h.others n hn)
  queued := by
    rcases h'.queued with hq | hsame
    · exact .inl hq
    · rw [hsame]
      exact h.queued.imp_left (h'.queue name)

section

variable (s : ChannelWorld)

theorem writes_store (name : String) (c : Option ClawChannel) :
    Writes name s (s.store name c) where
  claws := rfl
  work := rfl
  queue _ hn := mem_insert_of_mem hn
  others _ hn := update_of_ne hn _ _
  queued := .inl mem_insert_self

theorem writes_patch (name : String) (finalizers : List String) (outcome : Outcome) :
    Writes name s (s.patch name finalizers outcome).1 := by
  unfold ChannelWorld.patch
  split
  · exact .refl name s
  · exact .refl name s
  · exact writes_store s name _

theorem writes_updateStatus (name : String) (c : ClawChannel) (status : ChannelStatus)
    (outcome : Outcome) : Writes name s (s.updateStatus name c status outcome).1 := by
  unfold ChannelWorld.updateStatus
  split
  · exact .refl name s
  · exact .refl name s
  · split_ifs
    · exact .refl name s
    · exact .refl name s
    · exact writes_store s name _

theorem writes_ensureFinalizer (w : ChannelWork) (patch : Outcome) :
    Writes w.name s (ensureFinalizer s w patch).1 := by
  unfold ensureFinalizer
  split_ifs
  · exact .refl w.name s
  · exact writes_patch ..

theorem writes_reconcileChannel (w : ChannelWork) (patch update : Outcome) :
    Writes w.name s (reconcileChannel s w patch update).1 := by
  have hensure := writes_ensureFinalizer s w patch
  unfold reconcileChannel handleChannelDeletion
  split_ifs
  · exact writes_updateStatus ..
  · exact writes_patch ..
  · exact .refl w.name s
  · split
    · next h =>
      rw [h] at hensure
      exact hensure
    · next h =>
      rw [h] at hensure
      exact hensure.trans (writes_updateStatus ..)

end

theorem mem_queue_of_patch {finalizers : List String} {c : ClawChannel}
    (h : s.patch name finalizers outcome = (t, some c)) : name ∈ t.queue := by
  unfold ChannelWorld.patch at h
  split at h
  · cases h
  · cases h
  · obtain ⟨rfl, -⟩ := Prod.mk.inj h
    exact mem_insert_self

/-- An update that went through has changed the status, or found it as it should be. -/
theorem of_updateStatus {c : ClawChannel} {status : ChannelStatus}
    (h : s.updateStatus name c status outcome = (t, true)) :
    name ∈ t.queue ∨ ∃ stored, s.channels name = some stored ∧ stored.status = status := by
  unfold ChannelWorld.updateStatus at h
  split at h
  · cases h
  · cases h
  · next stored _ hstored =>
    split_ifs at h with _ hstatus
    · cases h
    · exact .inr ⟨stored, hstored, hstatus⟩
    · obtain ⟨rfl, -⟩ := Prod.mk.inj h
      exact .inl mem_insert_self

/-- **A `Reconcile` of the channel as it is stored** ends with an error, with the channel queued, or
with a status for the Claws it has read. -/
theorem reports_of_reconcileChannel (hstored : s.channels w.name = some w.channel)
    {r : ChannelResult} (h : reconcileChannel s w patch update = (t, r)) (hr : r ≠ .failed)
    (hqueue : w.name ∉ t.queue) (hlive : w.channel.deleting = false) :
    w.channel.status.Reports w.referencingClaws := by
  rw [reconcileChannel, if_neg (by simp [hlive])] at h
  cases hensure : ensureFinalizer s w patch with | mk s' answer =>
  rw [hensure] at h
  cases answer with
  | none => exact absurd (Prod.mk.inj h).2.symm hr
  | some =>
    obtain ⟨rfl, rfl⟩ := Prod.mk.inj h
    unfold ensureFinalizer at hensure
    split_ifs at hensure
    · obtain ⟨rfl, hc⟩ := Prod.mk.inj hensure
      obtain rfl := some.inj hc
      have hok : (s.updateStatus w.name w.channel (w.channel.used w.referencingClaws) update).2 =
          true := by
        by_contra hfalse
        exact hr (if_neg hfalse)
      rcases of_updateStatus (Prod.ext rfl hok) with hq | ⟨stored, hstored', hstatus⟩
      · exact absurd hq hqueue
      · obtain rfl := some.inj (hstored.symm.trans hstored')
        rw [hstatus]
        exact w.channel.reports_used _
    · exact absurd ((writes_updateStatus ..).queue _ (mem_queue_of_patch hensure)) hqueue

/-! ## At rest -/

/-- The channel is queued, is being handled as it is stored and with the Claws that reference it, or
has a status that says which they are. -/
def Followed (name : String) (claws : List String) (s : ChannelWorld) : Prop :=
  name ∈ s.queue ∨
    (∃ w, s.work = some w ∧ w.name = name ∧ w.referencingClaws = claws ∧
      s.channels name = some w.channel) ∨
    (∀ w, s.work = some w → w.name ≠ name) ∧
      ∀ c, s.channels name = some c → c.deleting = false → c.status.Reports claws

theorem Followed.store {claws : List String} (h : Followed name claws s) (n : String)
    (c : Option ClawChannel) : Followed name claws (s.store n c) := by
  by_cases hn : name = n
  · exact .inl (hn ▸ mem_insert_self)
  · refine h.imp mem_insert_of_mem (Or.imp ?_ ?_)
    · rintro ⟨w, hw, hname, hclaws, hc⟩
      exact ⟨w, hw, hname, hclaws, (update_of_ne hn ..).trans hc⟩
    · rintro ⟨hw, hc⟩
      exact ⟨hw, fun c' hc' => hc c' ((update_of_ne hn ..).symm.trans hc')⟩

theorem Followed.write {claws : List String} (h : Followed name claws s) (hw : s.work = some w)
    {r : ChannelResult}
    (hwrite : reconcileChannel { s with work := none } w patch update = (t, r)) :
    name ∈ t.queue ∨ r = .failed ∧ w.name = name ∨
      (∀ w, t.work = some w → w.name ≠ name) ∧
        ∀ c, t.channels name = some c → c.deleting = false → c.status.Reports claws := by
  have hwrites := writes_reconcileChannel { s with work := none } w patch update
  rw [hwrite] at hwrites
  have hidle : ∀ w, t.work = some w → w.name ≠ name := by
    rw [hwrites.work]
    intro w hw
    cases hw
  rcases h with hq | ⟨w', hw', rfl, rfl, hc⟩ | ⟨hne, hc⟩
  · exact .inl (hwrites.queue name hq)
  · obtain rfl := some.inj (hw.symm.trans hw')
    by_cases hr : r = .failed
    · exact .inr (.inl ⟨hr, rfl⟩)
    by_cases hq : w.name ∈ t.queue
    · exact .inl hq
    refine .inr (.inr ⟨hidle, fun c hc' hlive => ?_⟩)
    rw [hwrites.queued.resolve_left hq] at hc'
    obtain rfl := some.inj (hc'.symm.trans hc)
    exact reports_of_reconcileChannel (s := { s with work := none }) hc hwrite hr hq hlive
  · refine .inr (.inr ⟨hidle, fun c hc' => hc c ?_⟩)
    rw [← hc', hwrites.others name (hne w hw).symm]

/-- The step leaves the Claws that reference the channel as they are. -/
def Steady (name : String) (s : ChannelWorld) (e : ChannelEvent) : Prop :=
  ∀ t, channelStep s e = some t →
    clawsReferencingChannel t.claws name = clawsReferencingChannel s.claws name

theorem Followed.step {e : ChannelEvent}
    (h : Followed name (clawsReferencingChannel s.claws name) s) (ht : channelStep s e = some t) :
    Followed name (clawsReferencingChannel s.claws name) t := by
  cases e with
  | putClaw claw | deleteClaw n =>
    cases ht
    exact h
  | createChannel n =>
    rw [channelStep] at ht
    split at ht
    · cases ht
    · cases ht
      exact h.store n _
  | updateChannel n | deleteChannel n =>
    obtain ⟨c, -, rfl⟩ := map_eq_some_iff.mp ht
    exact h.store n _
  | read n =>
    rw [channelStep] at ht
    split_ifs at ht with hguard
    · cases ht
      obtain ⟨-, hwork⟩ := hguard
      by_cases hn : n = name
      · subst hn
        cases hc : s.channels n with
        | none => exact .inr (.inr ⟨by simp, by simp [hc]⟩)
        | some => exact .inr (.inl ⟨_, rfl, rfl, rfl, hc⟩)
      · rcases h with hq | ⟨w, hw, -⟩ | ⟨-, hc⟩
        · exact .inl (mem_filter.mpr ⟨hq, by simpa using Ne.symm hn⟩)
        · exact absurd (hwork.symm.trans hw) (by simp)
        · refine .inr (.inr ⟨fun w hw => ?_, hc⟩)
          obtain ⟨c, -, rfl⟩ := map_eq_some_iff.mp hw
          exact hn
    · cases ht
      exact h
  | write patch update =>
    obtain ⟨w, hw, rfl⟩ := map_eq_some_iff.mp ht
    cases hwrite : reconcileChannel { s with work := none } w patch update with | mk u r =>
    have hend := h.write hw hwrite
    cases r with
    | done | requeueAfter =>
      rcases hend with hq | ⟨hr, -⟩ | hend
      · exact .inl hq
      · cases hr
      · exact .inr (.inr hend)
    | failed =>
      rcases hend with hq | ⟨-, rfl⟩ | hend
      · exact .inl (mem_insert_of_mem hq)
      · exact .inl mem_insert_self
      · exact .inr (.inr hend)
  | elapsed =>
    rw [channelStep] at ht
    split_ifs at ht
    cases ht
    exact h.imp_left mem_insert_of_mem

/-! ## Deletion -/

/-- The channel is stored with the finalizer. -/
def Held (name : String) (s : ChannelWorld) : Prop :=
  ∃ c, s.channels name = some c ∧ clawChannelFinalizer ∈ c.finalizers

theorem held_store {c : ClawChannel} (h : clawChannelFinalizer ∈ c.finalizers) :
    Held name (s.store name (some c)) :=
  ⟨_, update_self .., h⟩

theorem Held.of_writes {n : String} (h : Held name s) (hn : n ≠ name) (hw : Writes n s t) :
    Held name t := by
  obtain ⟨c, hc, hfinalizer⟩ := h
  exact ⟨c, (hw.others name hn.symm).trans hc, hfinalizer⟩

theorem held_patch {finalizers : List String} (h : Held name s)
    (hf : clawChannelFinalizer ∈ finalizers) : Held name (s.patch name finalizers outcome).1 := by
  unfold ChannelWorld.patch
  split
  · exact h
  · exact h
  · rw [if_neg fun hgone => ne_nil_of_mem hf hgone.2]
    exact held_store hf

theorem held_updateStatus {c : ClawChannel} {status : ChannelStatus} (h : Held name s) :
    Held name (s.updateStatus name c status outcome).1 := by
  unfold ChannelWorld.updateStatus
  split
  · exact h
  · exact h
  · next hstored =>
    split_ifs
    · exact h
    · exact h
    · obtain ⟨c, hc, hfinalizer⟩ := h
      obtain rfl := some.inj (hstored.symm.trans hc)
      exact held_store hfinalizer

/-- A `Reconcile` that has found a Claw leaves the finalizer. -/
theorem held_reconcileChannel (h : Held w.name s) (hused : w.referencingClaws ≠ []) :
    Held w.name (reconcileChannel s w patch update).1 := by
  have hensure : Held w.name (ensureFinalizer s w patch).1 := by
    unfold ensureFinalizer
    split_ifs
    · exact h
    · exact held_patch h (by simp)
  have hpos := length_pos_iff.mpr hused
  unfold reconcileChannel handleChannelDeletion
  split_ifs
  · exact held_updateStatus h
  · exact h
  · split
    · next heq =>
      rw [heq] at hensure
      exact hensure
    · next heq =>
      rw [heq] at hensure
      exact held_updateStatus hensure

/-- The channel is stored with the finalizer, and a `Reconcile` of it has found a Claw. -/
structure Blocked (name : String) (s : ChannelWorld) : Prop where
  held : Held name s
  used : ∀ w, s.work = some w → w.name = name → w.referencingClaws ≠ []

theorem Blocked.step {e : ChannelEvent} (h : Blocked name s)
    (hused : ∃ claw ∈ s.claws, claw.references name) (ht : channelStep s e = some t) :
    Blocked name t := by
  obtain ⟨c, hc, hfinalizer⟩ := h.held
  -- what the users of a channel store has its finalizers
  have hstore {n : String} {c' : Option ClawChannel} (hkept : s.channels n = some c →
      ∃ d, c' = some d ∧ clawChannelFinalizer ∈ d.finalizers) : Blocked name (s.store n c') := by
    refine ⟨?_, h.used⟩
    by_cases hn : n = name
    · subst hn
      obtain ⟨d, rfl, hd⟩ := hkept hc
      exact held_store hd
    · exact h.held.of_writes hn (writes_store s n c')
  cases e with
  | putClaw | deleteClaw =>
    cases ht
    exact ⟨h.held, h.used⟩
  | createChannel =>
    rw [channelStep] at ht
    split at ht
    · cases ht
    · next hnone =>
      cases ht
      exact hstore fun hn => absurd (hnone.symm.trans hn) (by simp)
  | updateChannel =>
    obtain ⟨d, hd, rfl⟩ := map_eq_some_iff.mp ht
    exact hstore fun hn => ⟨_, rfl, some.inj (hn.symm.trans hd) ▸ hfinalizer⟩
  | deleteChannel =>
    obtain ⟨d, hd, rfl⟩ := map_eq_some_iff.mp ht
    refine hstore fun hn => ?_
    obtain rfl := some.inj (hd.symm.trans hn)
    exact ⟨_, if_neg (ne_nil_of_mem hfinalizer), hfinalizer⟩
  | read =>
    rw [channelStep] at ht
    split_ifs at ht
    · cases ht
      refine ⟨h.held, fun w hw hname => ?_⟩
      obtain ⟨d, -, rfl⟩ := map_eq_some_iff.mp hw
      obtain ⟨claw, hclaw, href⟩ := hused
      subst hname
      rw [← length_pos_iff, clawsReferencingChannel, length_insertionSort, length_map]
      exact length_pos_of_mem (mem_filter.mpr ⟨hclaw, href⟩)
    · cases ht
      exact h
  | write patch update =>
    obtain ⟨w, hw, rfl⟩ := map_eq_some_iff.mp ht
    have hwrites := writes_reconcileChannel { s with work := none } w patch update
    have hheld : Held name (reconcileChannel { s with work := none } w patch update).1 := by
      by_cases hname : w.name = name
      · subst hname
        exact held_reconcileChannel (s := { s with work := none }) h.held (h.used w hw rfl)
      · exact Held.of_writes (s := { s with work := none }) h.held hname hwrites
    cases hend : reconcileChannel { s with work := none } w patch update with | mk u r =>
    rw [hend] at hheld hwrites
    have hidle : u.work = none := hwrites.work
    cases r with
    | done | requeueAfter | failed => exact ⟨hheld, by simp [hidle]⟩
  | elapsed =>
    rw [channelStep] at ht
    split_ifs at ht
    cases ht
    exact ⟨h.held, h.used⟩

end

/-- **A status is accurate at rest if an event of the channel followed the last change of its
references.**  Whatever else happens and fails from the moment the channel is queued: if no step
changes which Claws reference it, then once all events are handled its status says which they are.
But a Claw that is created, changed or deleted at rest leaves everything at rest, and every status
as it was. -/
theorem accurate_of_queued (name : String) (s : ChannelWorld) :
    (name ∈ s.queue → ∀ events t, Meets channelStep (Steady name) s events →
      run channelStep s events = some t → t.AtRest → ∀ c, t.channels name = some c →
        c.deleting = false → t.Accurate name c.status) ∧
    (s.AtRest → ∀ t, (∃ claw, channelStep s (.putClaw claw) = some t) ∨
      (∃ n, channelStep s (.deleteClaw n) = some t) → t.AtRest ∧ t.channels = s.channels) := by
  refine ⟨fun hqueued events t hsteady hrun hrest c hc hlive => ?_, fun hrest t h => ?_⟩
  · have hinv := Lib.run_invariant_of_meets
      (I := fun u => clawsReferencingChannel u.claws name = clawsReferencingChannel s.claws name ∧
        Followed name (clawsReferencingChannel s.claws name) u)
      (fun u e u' hu hsteady hstep => ?_) ⟨rfl, .inl hqueued⟩ hsteady hrun
    · obtain ⟨hclaws, hq | ⟨w, hw, -⟩ | ⟨-, hreports⟩⟩ := hinv
      · rw [hrest.1] at hq
        cases hq
      · rw [hrest.2] at hw
        cases hw
      · exact ChannelWorld.accurate_of_reports (hclaws ▸ hreports c hc hlive)
    · obtain ⟨hclaws, hfollowed⟩ := hu
      rw [← hclaws] at hfollowed ⊢
      exact ⟨hsteady u' hstep, hfollowed.step hstep⟩
  · obtain ⟨claw, h⟩ | ⟨n, h⟩ := h
    · cases h
      exact ⟨hrest, rfl⟩
    · cases h
      exact ⟨hrest, rfl⟩

def onGeneral : Claw where
  name := "agent"
  ns := "default"
  spec := { runtime := .openclaw, channels := [⟨"general", .bidirectional⟩] }

/-- A channel is handled, and once more after its own changes. -/
def generalHandled : List ChannelEvent :=
  [.read "general" true, .write .ok .ok, .read "general" true, .write .ok .ok]

/-- A channel that is created when there is a Claw for it. -/
def generalCreated : ChannelWorld := ChannelWorld.store { claws := [onGeneral] } "general" (some {})

theorem accurate_of_queued_general :
    ∃ t, run channelStep generalCreated generalHandled = some t ∧
      ∃ c, t.channels "general" = some c ∧ t.Accurate "general" c.status ∧
        c.status.referenceCount = 1 := by
  have hsteady : Meets channelStep (Steady "general") generalCreated generalHandled := by
    repeat' refine ⟨fun t h => by cases h; rfl, fun t h => ?_⟩; cases h
    trivial
  refine ⟨_, rfl, _, rfl, ?_, rfl⟩
  exact (accurate_of_queued "general" generalCreated).1 (by decide) generalHandled _ hsteady rfl
    ⟨rfl, rfl⟩ _ rfl rfl

/-- **A Claw that is created after its channel.**  All events of the channel are handled, and its
status has no Claw, though one references it. -/
theorem clawUnnoticed :
    ∃ t c, run channelStep {} (.createChannel "general" :: generalHandled ++ [.putClaw onGeneral]) =
        some t ∧ t.AtRest ∧
      t.channels "general" = some c ∧ c.deleting = false ∧ c.status.referenceCount = 0 ∧
      (t.claws.filter (·.references "general")).length = 1 ∧ ¬ t.Accurate "general" c.status := by
  refine ⟨_, _, rfl, ⟨rfl, rfl⟩, rfl, rfl, rfl, rfl, fun h => ?_⟩
  exact absurd h.count (by decide)

/-- A channel that is deleted while a Claw references it. -/
def generalDeleted : ChannelWorld where
  claws := [onGeneral]
  channels _ := some { finalizers := [clawChannelFinalizer], deleting := true }
  queue := ["general"]

end K8s4Claw.Operator
