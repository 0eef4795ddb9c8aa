/-
# One annotation for all intents

`ClawOpsController` writes the intents of a Claw, approved proposals and those of rules alike,
into one annotation, and marks the escalation as executed when the `Patch` went through;
`ClawReconciler` takes what it finds there, if its generation is above the highest it took.

So an intent can be lost in three ways.  A second one is written before the first was taken: one
`Reconcile` that finds two approved escalations does so (`first_of_two_overwritten`).  An intent
is written whose generation, stamped when it was proposed, is not above that of an intent proposed
later and taken before.  Or it is written between the read and the `Patch` of a consumer that
removes the annotation.  Otherwise (`Vacant`) none is lost (`noneLost_along`).
-/

import K8s4Claw.Ops.ApprovalGate

namespace K8s4Claw.Ops

open List Option
open Lib (Along Copy Effect Meets Pool Store run)

/-- The intent was executed, or it is in the annotation and is what a consumer finds there. -/
def Delivered (L : Libs) (s : Shared) (claw action : String) : Prop :=
  ∃ intent ∈ (validateIntent L action).toOption, (claw, intent) ∈ s.executed ∨
    (s.slots claw).opsIntent = some action ∧ (s.slots claw).parseOpsIntent L = .ok (some intent)
  deriving Decidable

/-- No intent of an escalation that is marked as executed is lost. -/
def NoneLost (L : Libs) (s : Shared) : Prop :=
  ∀ esc, s.escalations.Holds esc → esc.value.status.phase.IsExecuted →
    Delivered L s esc.value.clawRef esc.value.status.executedAction

/-- A `Patch` that writes an intent: the Claw, the controller's copy before, and the intent. -/
structure Write where
  claw : String
  mine : Slot
  action : String
  deriving DecidableEq

/-- The `Patch` of a step, if it goes through. -/
def Call.write (L : Libs) : Call → Choice → Option Write
  | .writeApproved claw mine (esc :: _), .call true _ =>
      some ⟨claw, mine, esc.value.status.proposedAction⟩
  | .remediate claw mine (.autoExecute _ rule _ :: _), .call true now =>
      some ⟨claw, mine, buildIntentJSON L rule now⟩
  | _, _ => none

/-- The Claw of a consumer that has not sent its `Patch`, and its copy of the annotations. -/
def Call.consumer : Call → Option (String × Slot)
  | .consume claw mine => some (claw, mine)
  | _ => none

/-- An intent with valid parameters. -/
def Valid (L : Libs) (action : String) : Prop :=
  action ≠ "" ∧ ∃ intent ∈ (validateIntent L action).toOption, (buildIntentPatch L intent).isSome
  deriving Decidable

/-- The intents written have valid parameters, and an intent that is taken is applied. -/
def Admissible (L : Libs) (P : Sys) : Event → Prop
  | .step t choice =>
      (∀ w ∈ (P.thread t).write L choice, Valid L w.action) ∧
        ∀ ok, choice ≠ .apply false ok
  | _ => True

instance (L : Libs) (P : Sys) (event : Event) : Decidable (Admissible L P event) := by
  unfold Admissible
  cases event <;> infer_instance

/-- **When an intent may be written:** the annotation is empty, the controller's copy does not have
this very text, the generation is above that of the intent taken last, and no consumer holds an
intent. -/
@[mk_iff]
structure Free (L : Libs) (P : Sys) (w : Write) : Prop where
  empty : (P.shared.slots w.claw).opsIntent = none
  differs : w.mine.opsIntent ≠ some w.action
  newer : ∀ intent ∈ (validateIntent L w.action).toOption,
    (P.shared.slots w.claw).currentIntentGen < intent.generation
  untaken : ∀ t < P.size, ∀ c ∈ (P.thread t).consumer, c.1 = w.claw → c.2.opsIntent = none

instance (L : Libs) (P : Sys) (w : Write) : Decidable (Free L P w) :=
  decidable_of_iff _ (free_iff L P w).symm

/-- Every intent that is written may be written. -/
def Vacant (L : Libs) (P : Sys) : Event → Prop
  | .step t choice => ∀ w ∈ (P.thread t).write L choice, Free L P w
  | _ => True

instance (L : Libs) (P : Sys) (event : Event) : Decidable (Vacant L P event) := by
  unfold Vacant
  cases event <;> infer_instance

/-! ### What a step does to the annotations -/

/-- The annotations, and what was written and executed, are as they were. -/
structure Quiet (s s' : Shared) : Prop where
  slots : s'.slots = s.slots
  written : s'.written = s.written
  executed : s'.executed = s.executed

/-- What a step of a call does to the annotations. -/
inductive SlotMove (L : Libs) (s : Shared) (call : Call) (choice : Choice) (s' : Shared) : Prop
  | quiet (hquiet : Quiet s s')
  | write (w : Write) (companion : Bool) (hw : call.write L choice = some w)
      (hs' : s' = (s.writeIntent w.claw w.mine ⟨w.claw, w.action, companion⟩).1)
  | commit (claw : String) (mine changed : Slot) (applied : Bool) (executed : Option OpsIntent)
      (hcall : call = .consume claw mine) (hchoice : choice = .apply applied true)
      (hconsume : mine.consumeAndExecuteOpsIntent L applied = some (changed, executed))
      (hs' : s' = s.commit claw mine changed executed)

/-- A step of a call starts no call and no consumer. -/
structure SlotStep (L : Libs) (s : Shared) (call : Call) (choice : Choice)
    (e : Effect Shared Call) : Prop where
  move : SlotMove L s call choice e.shared
  next : e.next.consumer = none
  spawn : e.spawn = none

section

variable {L : Libs} {ttl : Int32} {s s' : Shared} {call : Call} {choice : Choice}
  {e : Effect Shared Call}

theorem consumer_of_begins (h : call.begins = false) : call.consumer = none := by
  cases call with
  | consume => cases h
  | _ => rfl

/-- **Only two kinds of steps touch the annotations:** the writes of `ClawOpsController` and the
`Patch` of a consumer. -/
theorem callStep_slot (h : callStep L ttl s call choice = some e) : SlotStep L s call choice e := by
  obtain ⟨hmove, hnext, hspawn⟩ := callStep_moves h
  refine ⟨?_, consumer_of_begins hnext, hspawn⟩
  cases hmove with
  | stay hs' | create new hs' | delete object hs'
  | replace _ _ _ _ _ _ hs' =>
    rw [hs']
    exact .quiet ⟨rfl, rfl, rfl⟩
  | writeApproved claw mine esc _ _ hcall hchoice hs' =>
    subst hcall hchoice
    exact .write ⟨claw, mine, esc.value.status.proposedAction⟩ true rfl hs'
  | autoExecute claw mine _ rule _ _ now hcall hchoice hs' =>
    subst hcall hchoice
    exact .write ⟨claw, mine, buildIntentJSON L rule now⟩ false rfl hs'
  | commit claw mine changed applied executed hcall hchoice hconsume hs' =>
    exact .commit claw mine changed applied executed hcall hchoice hconsume hs'

end

/-! ### No intent is lost -/

/-- What a consumer finds in these annotations: an intent with valid parameters. -/
structure Eligible (L : Libs) (slot : Slot) (action : String) (intent : OpsIntent) : Prop where
  validated : validateIntent L action = .ok intent
  parsed : slot.parseOpsIntent L = .ok (some intent)
  params : (buildIntentPatch L intent).isSome

/-- A consumer that holds an intent: it is eligible, and either still in the annotation or taken by
another consumer, with nothing written since. -/
def Taken (L : Libs) (s : Shared) (claw : String) (mine : Slot) : Prop :=
  ∀ action, mine.opsIntent = some action →
    (∃ intent, Eligible L mine action intent) ∧
      ((s.slots claw).opsIntent = none ∨ (s.slots claw).opsIntent = some action)

/-- What is in an annotation is eligible, and all that was written is delivered. -/
structure SlotsKept (L : Libs) (s : Shared) : Prop where
  eligible : ∀ claw action, (s.slots claw).opsIntent = some action →
    ∃ intent, Eligible L (s.slots claw) action intent
  delivered : ∀ w ∈ s.written, Delivered L s w.claw w.action

section

variable {L : Libs} {s s' : Shared} {claw claw' action : String} {mine : Slot}
  {intent : OpsIntent} {companion : Bool}

theorem Quiet.slotsKept (h : Quiet s s') (hs : SlotsKept L s) : SlotsKept L s' := by
  refine ⟨?_, ?_⟩
  · rw [h.slots]
    exact hs.eligible
  · rw [h.written]
    intro w hw
    unfold Delivered
    rw [h.slots, h.executed]
    exact hs.delivered w hw

theorem Quiet.taken (h : Quiet s s') (hs : Taken L s claw mine) : Taken L s' claw mine := by
  unfold Taken
  rw [h.slots]
  exact hs

theorem eligible_setIntent {slot : Slot} (hvalid : Valid L action)
    (hnewer : ∀ intent ∈ (validateIntent L action).toOption,
      slot.currentIntentGen < intent.generation) :
    ∃ intent, Eligible L (slot.setIntent action) action intent := by
  obtain ⟨hne, intent, hintent, hparams⟩ := hvalid
  have hgen := hnewer intent hintent
  have hvalidated : validateIntent L action = .ok intent := by
    revert hintent
    cases validateIntent L action with
    | error => rintro ⟨⟩
    | ok => rintro ⟨⟩; rfl
  exact ⟨intent, hvalidated, Slot.parseOpsIntent_of_newer rfl hne hvalidated hgen, hparams⟩

theorem slotsKept_writeIntent (hs : SlotsKept L s) (hvalid : Valid L action)
    (hempty : (s.slots claw).opsIntent = none) (hdiffers : mine.opsIntent ≠ some action)
    (hnewer : ∀ intent ∈ (validateIntent L action).toOption,
      (s.slots claw).currentIntentGen < intent.generation) :
    SlotsKept L (s.writeIntent claw mine ⟨claw, action, companion⟩).1 := by
  have hself : (s.writeIntent claw mine ⟨claw, action, companion⟩).1.slots claw =
      (s.slots claw).setIntent action := by
    simp [Shared.writeIntent, Slot.patch_setIntent hdiffers]
  have hother : ∀ claw', claw' ≠ claw →
      (s.writeIntent claw mine ⟨claw, action, companion⟩).1.slots claw' = s.slots claw' := by
    intro claw' hne
    simp [Shared.writeIntent, hne]
  obtain ⟨intent, heligible⟩ := eligible_setIntent hvalid hnewer
  refine ⟨fun claw' raw hraw => ?_, ?_⟩
  · by_cases hclaw : claw' = claw
    · subst hclaw
      rw [hself] at hraw ⊢
      obtain rfl : action = raw := some.inj hraw
      exact ⟨intent, heligible⟩
    · rw [hother claw' hclaw] at hraw ⊢
      exact hs.eligible claw' raw hraw
  · refine forall_mem_append.mpr ⟨fun w hw => ?_, forall_mem_singleton.mpr ?_⟩
    · obtain ⟨intent', hintent', hdone⟩ := hs.delivered w hw
      refine ⟨intent', hintent', ?_⟩
      by_cases hclaw : w.claw = claw
      · -- the annotation was empty, so what had been written to it was executed
        rw [hclaw, hempty] at hdone
        rcases hdone with hexecuted | ⟨hslot, -⟩
        · rw [hclaw]
          exact .inl hexecuted
        · cases hslot
      · rw [hother w.claw hclaw]
        exact hdone
    · refine ⟨intent, ?_, .inr ⟨?_, ?_⟩⟩
      · rw [heligible.validated]
        rfl
      · rw [hself]
        rfl
      · rw [hself]
        exact heligible.parsed

theorem consume_of_eligible (h : Eligible L mine action intent) :
    mine.consumeAndExecuteOpsIntent L true =
      some (mine.clearOpsIntentAnnotations intent.generation, some intent) := by
  unfold Slot.consumeAndExecuteOpsIntent
  rw [h.parsed]
  obtain ⟨patch, hpatch⟩ := isSome_iff_exists.mp h.params
  simp only [hpatch, if_true]

theorem slots_commit {gen : Int64} {executed : Option OpsIntent}
    (hmine : mine.opsIntent = some action) :
    ((s.commit claw mine (mine.clearOpsIntentAnnotations gen) executed).slots claw).opsIntent =
      none := by
  simp [Shared.commit, Slot.patch, Slot.clearOpsIntentAnnotations, hmine]

theorem slots_commit_of_ne {changed : Slot} {executed : Option OpsIntent} (h : claw' ≠ claw) :
    (s.commit claw mine changed executed).slots claw' = s.slots claw' := by
  simp [Shared.commit, h]

theorem slotsKept_commit {gen : Int64} (hs : SlotsKept L s) (hmine : mine.opsIntent = some action)
    (heligible : Eligible L mine action intent)
    (hslot : (s.slots claw).opsIntent = none ∨ (s.slots claw).opsIntent = some action) :
    SlotsKept L (s.commit claw mine (mine.clearOpsIntentAnnotations gen) (some intent)) := by
  refine ⟨fun claw' raw hraw => ?_, fun w hw => ?_⟩
  · by_cases hclaw : claw' = claw
    · subst hclaw
      rw [slots_commit hmine] at hraw
      cases hraw
    · rw [slots_commit_of_ne hclaw] at hraw ⊢
      exact hs.eligible claw' raw hraw
  · obtain ⟨intent', hintent', hdone⟩ := hs.delivered w hw
    refine ⟨intent', hintent', ?_⟩
    rcases hdone with hdone | ⟨hstored, hparsed⟩
    · exact .inl (mem_append_left _ hdone)
    · by_cases hclaw : w.claw = claw
      · rw [hclaw] at hstored ⊢
        have haction : w.action = action := by
          rcases hslot with hnone | hsome
          · cases hnone.symm.trans hstored
          · exact some.inj (hstored.symm.trans hsome)
        rw [haction, heligible.validated] at hintent'
        obtain rfl : intent = intent' := some.inj hintent'
        exact .inl (mem_append_right _ (mem_singleton_self _))
      · rw [slots_commit_of_ne hclaw]
        exact .inr ⟨hstored, hparsed⟩

end

/-- The annotations are kept, and every consumer that holds an intent may take it. -/
structure Kept (L : Libs) (P : Sys) : Prop where
  free : ∀ t, P.size ≤ t → P.thread t = .done
  slots : SlotsKept L P.shared
  taken : ∀ t claw mine, (P.thread t).consumer = some (claw, mine) → Taken L P.shared claw mine

section

variable {L : Libs} {ttl : Int32} {P Q : Sys} {t : ℕ} {choice : Choice}

variable {e : Effect Shared Call}

theorem kept_advance (h : Kept L P) (ht : t < P.size) (hnext : e.next.consumer = none)
    (hspawn : e.spawn = none) (hslots : SlotsKept L e.shared)
    (htaken : ∀ u claw mine, (P.thread u).consumer = some (claw, mine) →
      Taken L e.shared claw mine) : Kept L (P.advance t e) := by
  refine ⟨Pool.free_advance h.free ht hspawn, by rwa [Pool.advance_shared], ?_⟩
  refine Pool.forall_advance
    (I := fun s call => ∀ claw mine, Call.consumer call = some (claw, mine) → Taken L s claw mine)
    ht (fun u _ => htaken u) ?_ (Lib.forall_of_eq_none hspawn)
  intro claw mine hconsumer
  rw [hnext] at hconsumer
  cases hconsumer

theorem Kept.untaken (h : Kept L P) {w : Write} (hfree : Free L P w) {u : ℕ} {mine : Slot}
    (hu : (P.thread u).consumer = some (w.claw, mine)) : mine.opsIntent = none := by
  by_cases hsize : u < P.size
  · exact hfree.untaken u hsize _ hu rfl
  · rw [h.free u (by omega)] at hu
    cases hu

section

variable (h : Kept L P) (ht : t < P.size) (hnext : e.next.consumer = none) (hspawn : e.spawn = none)

include h ht hnext hspawn

theorem kept_write {w : Write} {companion : Bool} (hvalid : Valid L w.action) (hfree : Free L P w)
    (he : e.shared = (P.shared.writeIntent w.claw w.mine ⟨w.claw, w.action, companion⟩).1) :
    Kept L (P.advance t e) := by
  refine kept_advance h ht hnext hspawn ?_ ?_
  · rw [he]
    exact slotsKept_writeIntent h.slots hvalid hfree.empty hfree.differs hfree.newer
  · intro u claw mine hu action hmine
    by_cases hclaw : claw = w.claw
    · subst hclaw
      rw [h.untaken hfree hu] at hmine
      cases hmine
    · have hsame : e.shared.slots claw = P.shared.slots claw := by
        rw [he]
        simp [Shared.writeIntent, hclaw]
      rw [hsame]
      exact h.taken u claw mine hu action hmine

theorem kept_commit {claw : String} {mine changed : Slot} {executed : Option OpsIntent}
    (hcall : P.thread t = .consume claw mine)
    (hconsume : mine.consumeAndExecuteOpsIntent L true = some (changed, executed))
    (he : e.shared = P.shared.commit claw mine changed executed) : Kept L (P.advance t e) := by
  have htaken := h.taken t claw mine (by rw [hcall]; rfl)
  cases hmine : mine.opsIntent with
  | none => simp [Slot.consumeAndExecuteOpsIntent, Slot.parseOpsIntent, hmine] at hconsume
  | some action =>
    obtain ⟨⟨intent, heligible⟩, hslot⟩ := htaken action hmine
    rw [consume_of_eligible heligible] at hconsume
    obtain ⟨rfl, rfl⟩ := Prod.mk.inj (some.inj hconsume)
    refine kept_advance h ht hnext hspawn ?_ ?_
    · rw [he]
      exact slotsKept_commit h.slots hmine heligible hslot
    · intro u claw' mine' hu action' hmine'
      obtain ⟨hintent, hslot'⟩ := h.taken u claw' mine' hu action' hmine'
      refine ⟨hintent, ?_⟩
      rw [he]
      by_cases hclaw : claw' = claw
      · subst hclaw
        exact .inl (slots_commit hmine)
      · rw [slots_commit_of_ne hclaw]
        exact hslot'

end

theorem kept_step {event : Event} (h : Kept L P) (hadmissible : Admissible L P event)
    (hvacant : Vacant L P event) (hstep : step L ttl P event = some Q) : Kept L Q := by
  rcases step_cases hstep with ⟨call, hcall, rfl⟩ | ⟨t, choice, e, rfl, ht, he, rfl⟩
  · refine ⟨Pool.free_go h.free, h.slots, ?_⟩
    refine Pool.forall_go
      (I := fun s call => ∀ claw mine, Call.consumer call = some (claw, mine) → Taken L s claw mine)
      h.taken ?_
    intro claw mine hconsumer action hmine
    cases event with
    | watch object version | approve object version name | reject object version name =>
      obtain ⟨esc, -, hif⟩ := bind_eq_some_iff.mp hcall
      split_ifs at hif
      cases hif
      cases hconsumer
    | reconcile =>
      cases hcall
      cases hconsumer
    | consume claw' =>
      cases hcall
      obtain ⟨rfl, rfl⟩ := Prod.mk.inj (some.inj hconsumer)
      exact ⟨h.slots.eligible claw' action hmine, .inr hmine⟩
    | step => cases hcall
  · obtain ⟨hmove, hnext, hspawn⟩ := callStep_slot he
    cases hmove with
    | quiet hquiet =>
      refine kept_advance h ht hnext hspawn (hquiet.slotsKept h.slots) ?_
      exact fun u claw mine hu => hquiet.taken (h.taken u claw mine hu)
    | write w _ hw hs' =>
      exact kept_write h ht hnext hspawn (hadmissible.1 w hw) (hvacant w hw) hs'
    | commit _ _ _ applied _ hcall hchoice hconsume hs' =>
      have happlied : applied = true := by
        cases applied with
        | false => exact absurd hchoice (hadmissible.2 true)
        | true => rfl
      subst happlied
      exact kept_commit h ht hnext hspawn hcall hconsume hs'

end

/-- **No intent is lost** in a run whose intents are written only to empty annotations, newer than
the last one taken and while no consumer holds an intent: in every state, the intent of every
escalation marked `Executed` or `AutoExecuted` was executed, or is in the annotation and will be
found there.  The calls interleave in any order, and the API calls may fail. -/
theorem noneLost_along (L : Libs) (ttl : Int32) (events : List Event)
    (hadmissible : Meets (step L ttl) (Admissible L) initial events)
    (hvacant : Meets (step L ttl) (Vacant L) initial events) :
    Along (step L ttl) (fun P => NoneLost L P.shared) initial events := by
  have hinit : Kept L initial := by
    refine ⟨fun _ _ => rfl, ⟨?_, ?_⟩, ?_⟩
    · simp [initial]
    · simp [initial]
    · simp [initial, Call.consumer]
  refine Lib.along_of_meets (I := fun P => Guarded P ∧ Kept L P) ?_ ?_ ⟨guarded_initial, hinit⟩
    (Lib.meets_and hadmissible hvacant)
  · rintro P event Q ⟨hguarded, hkept⟩ ⟨hadm, hvac⟩ hstep
    exact ⟨guarded_step hguarded hstep, kept_step hkept hadm hvac hstep⟩
  · rintro P ⟨hguarded, hkept⟩ esc hesc hphase
    obtain ⟨w, hw, hclaw, haction⟩ := hguarded.recorded esc hesc hphase
    rw [← hclaw, ← haction]
    exact hkept.slots.delivered w hw

/-! ### Two approved escalations, and a rule -/

/-- The companion's proposals, stamped two seconds and three seconds after the epoch. -/
def memoryIntent : OpsIntent where
  action := "bump-memory"
  params := some [("target", "2Gi")]
  generation := 2000
  source := "companion-claw"

def memoryText : String :=
  "\x7b\"action\":\"bump-memory\",\"params\":\x7b\"target\":\"2Gi\"\x7d,\"generation\":2000," ++
    "\"source\":\"companion-claw\"\x7d"

def restartIntent : OpsIntent where
  action := "rollout-restart"
  params := none
  generation := 3000
  source := "companion-claw"

def restartText : String :=
  "\x7b\"action\":\"rollout-restart\",\"params\":null,\"generation\":3000," ++
    "\"source\":\"companion-claw\"\x7d"

/-- The intent of a rule, at nine seconds. -/
def podIntent : OpsIntent where
  action := "restart-pod"
  params := some [("strategy", "delete-oldest")]
  generation := 9000
  source := "rule-engine"

def podText : String :=
  "\x7b\"action\":\"restart-pod\",\"params\":\x7b\"strategy\":\"delete-oldest\"\x7d," ++
    "\"generation\":9000,\"source\":\"rule-engine\"\x7d"

/-- The libraries on these intents. -/
def sampleLibs : Libs where
  marshal intent := ([(memoryIntent, memoryText), (restartIntent, restartText),
    (podIntent, podText)].lookup intent).getD ""
  unmarshal raw := [(memoryText, memoryIntent), (restartText, restartIntent),
    (podText, podIntent)].lookup raw
  Quantity := ℕ
  parseQuantity raw := if raw = "2Gi" then some (2 * 1024 ^ 3) else none
  parseInt32 _ := none

/-- A time in seconds after the epoch. -/
def seconds (n : ℤ) : Time := n * 1000000000

/-- The signals of a Claw whose pod was killed and then crashes again and again. -/
def oom : Signal := ⟨.oomKilled, .high, 1, "OOMKilled"⟩

def crash : Signal := ⟨.crashLoop, .critical, 5, "CrashLoopBackOff"⟩

/-- The built-in rule for it. -/
def crashloopRestartPod : Rule where
  id := "crashloop-restart-pod"
  action := .restartPod
  params := some [("strategy", "delete-oldest")]

/-- A `Reconcile`, call `t`, that does these jobs about the signals of the Claw. -/
def signalled (t : ℕ) (jobs : List Job) (todo : List Event) : List Event :=
  [.reconcile "demo", .step t (.listed []), .step t .go, .step t (.listed []), .step t .go,
    .step t (.jobs jobs)] ++ todo ++ [.step t .go]

/-- Two signals are escalated. -/
def escalated : List Event :=
  signalled 0 [.escalate oom, .escalate crash]
    (List.replicate 4 (.step 0 (.call true (seconds 1))))

/-- An escalation is analyzed, and the proposal approved: calls `t` and `t + 1`. -/
def reviewed (t object : ℕ) (now : Time) (action : String) : List Event :=
  [.watch object 1, .step t (.call true now), .step t (.analyzed "" action),
    .step t (.call true now), .approve object 3 "admin", .step (t + 1) (.call true now)]

/-- Both escalations are approved. -/
def bothApproved : List Event :=
  escalated ++ reviewed 1 0 (seconds 2) memoryText ++ reviewed 3 1 (seconds 3) restartText

/-- A `Reconcile`, call `t`, that lists these escalations and writes their proposals. -/
def settled (t : ℕ) (reads : List (ℕ × ℕ)) (now : Time) : List Event :=
  [.reconcile "demo", .step t (.listed reads)] ++
    reads.flatMap (fun _ => [.step t (.call true now), .step t (.call true now)])

/-- `ClawReconciler` takes what is in the annotation: call `t`. -/
def taken (t : ℕ) : List Event := [.consume "demo", .step t (.apply true true)]

/-- Each proposal is taken before the next is written, then an intent of a rule. -/
def oneByOne : List Event :=
  bothApproved ++ settled 5 [(0, 4)] (seconds 5) ++ taken 6 ++ settled 7 [(1, 4)] (seconds 6) ++
    taken 8 ++ signalled 9 [.autoExecute crash crashloopRestartPod ""]
      (List.replicate 3 (.step 9 (.call true (seconds 9)))) ++ taken 10

theorem noneLost_along_oneByOne :
    ((run (step sampleLibs 3600) initial oneByOne).map fun P => P.shared.executed) =
      some [("demo", memoryIntent), ("demo", restartIntent), ("demo", podIntent)] ∧
    Along (step sampleLibs 3600) (fun P => NoneLost sampleLibs P.shared) initial oneByOne := by
  have hrun : ((run (step sampleLibs 3600) initial oneByOne).map fun P => P.shared.executed) =
        some [("demo", memoryIntent), ("demo", restartIntent), ("demo", podIntent)] ∧
      Meets (step sampleLibs 3600) (Admissible sampleLibs) initial oneByOne ∧
      Meets (step sampleLibs 3600) (Vacant sampleLibs) initial oneByOne := by
    decide +kernel
  obtain ⟨hexecuted, hadmissible, hvacant⟩ := hrun
  exact ⟨hexecuted, noneLost_along sampleLibs 3600 oneByOne hadmissible hvacant⟩

/-- One `Reconcile` finds both. -/
def bothAtOnce : List Event :=
  bothApproved ++ settled 5 [(0, 4), (1, 4)] (seconds 5) ++ taken 6

/-- **Two escalations are approved before a `Reconcile`.**  It writes the proposal of the first,
marks it `Executed`, and overwrites it with that of the second: only the second is executed. -/
theorem first_of_two_overwritten :
    Meets (step sampleLibs 3600) (Admissible sampleLibs) initial bothAtOnce ∧
    ∃ P ∈ run (step sampleLibs 3600) initial bothAtOnce,
      P.shared.executed = [("demo", restartIntent)] ∧ (P.shared.slots "demo").opsIntent = none ∧
      ∃ esc ∈ P.shared.escalations.copy 0 5,
        esc.value.status.phase = .executed ∧ esc.value.status.executedAction = memoryText ∧
        ¬ Delivered sampleLibs P.shared esc.value.clawRef esc.value.status.executedAction := by
  decide +kernel

end K8s4Claw.Ops
