/-
# Escalations that nobody moves on

`escalate` and `autoExecute` of `internal/controller/clawops_controller.go` create an escalation and
set its phase in a second write; `processEscalation` of `cmd/claw4k8s/watcher.go` marks an
escalation `Analyzing`, has it analyzed (`cmd/claw4k8s/pipeline.go`) and marks it again, with the
same context for all its calls.  In between the escalation has no phase, or is `Analyzing`, and
nobody but the call that brought it there would move it on: the watcher looks at `Pending`
escalations only, and `ClawOpsController` at `Approved` ones.

`Watched` is the system with the watcher's context: once it is cancelled, the API calls of the
watcher fail, and a pipeline that waits returns the error of the context.
-/

import K8s4Claw.Ops.Rejection

namespace K8s4Claw.Ops

open Option
open Lib (Along Copy Effect Meets Pool Store run)

/-! ### The pipeline -/

/-- The texts of the trigger types. -/
def TriggerType.text : TriggerType → String
  | .oomKilled => "OOMKilled"
  | .crashLoop => "CrashLoop"
  | .highCPU => "HighCPU"
  | .highMemory => "HighMemory"
  | .podPending => "PodPending"
  | .probeFailure => "ProbeFailure"
  | .channelDisconnect => "ChannelDisconnect"
  | .evicted => "Evicted"
  | .unknown => "Unknown"

/-- The texts of the severities. -/
def Severity.text : Severity → String
  | .critical => "Critical"
  | .high => "High"
  | .medium => "Medium"
  | .low => "Low"

/-- One round of `analyze`: what `LLM.Analyze` returned, `none` for an error, and the error of the
context if it ended the wait that follows. -/
structure Attempt where
  answer : Option (String × String)
  interrupted : Option String
  deriving DecidableEq

def buildPrompt (esc : Escalation) : String :=
  "Analyze this Kubernetes issue and propose a remediation.\nTrigger: " ++ esc.trigger.type.text ++
    "\nMessage: " ++ esc.trigger.message ++ "\nCount: " ++ toString esc.trigger.count ++
    "\nSeverity: " ++ esc.trigger.severity.text ++ "\n"

/-- The delays between the rounds of `analyze`, in seconds. -/
def delays : List ℕ := [5, 15, 45]

/-- What is left of the loop of `analyze` in round `i`, with `n` rounds to go; `none` if it ends
without a result. -/
def rounds (attempt : ℕ → Attempt) : ℕ → ℕ → Option (Except String (String × String))
  | 0, _ => none
  | n + 1, i =>
      match (attempt i).answer with
      | some (analysis, action) =>
          if analysis = "" ∧ action = "" then none else some (.ok (analysis, action))
      | none =>
          -- no wait after the last round
          match if i < delays.length ∧ n ≠ 0 then (attempt i).interrupted else none with
          | some reason => some (.error reason)
          | none => rounds attempt n (i + 1)

/-- `Pipeline.analyze`, with the rounds that the prompt leads to. -/
def analyze (maxRetries : ℤ) (llm : String → ℕ → Attempt) (esc : Escalation) :
    Except String (String × String) :=
  let retries := if maxRetries ≤ 0 then 3 else maxRetries.toNat
  (rounds (llm (buildPrompt esc)) retries 0).getD
    (.ok ("LLM analysis unavailable after " ++ toString retries ++ " retries. Trigger: " ++
      esc.trigger.type.text ++ " (" ++ esc.trigger.message ++ "). Count: " ++
      toString esc.trigger.count ++ ". Severity: " ++ esc.trigger.severity.text ++ ".", ""))

/-! ### The watcher's context -/

/-- The call is a `processEscalation`. -/
def Call.ofWatcher : Call → Bool
  | .markAnalyzing _ | .analyze _ | .propose _ _ _ | .markFailed _ _ => true
  | _ => false

/-- The call is a `Reconcile` of `ClawOpsController`. -/
def Call.ofController : Call → Bool
  | .listApproved _ _ | .writeApproved _ _ _ | .markExecuted _ _ _ _ | .listExpired _ _
  | .deleteExpired _ _ _ | .collectSignals _ _ | .remediate _ _ _ | .audit _ _ _ _ _ _ _
  | .markNew _ _ _ _ _ _ => true
  | _ => false

/-- The system, and whether the context of the watcher is cancelled. -/
structure Watched where
  sys : Sys
  cancelled : Bool

def Watched.initial : Watched := ⟨Ops.initial, false⟩

/-- What happens to the system and its watcher. -/
inductive Turn
  | cancel
  /-- The pipeline that call `t` has started returns. -/
  | analyze (t : ℕ) (llm : String → ℕ → Attempt)
  | act (event : Event)

/-- The context of the watcher lets the event happen. -/
def Watched.permits (W : Watched) : Event → Bool
  | .step _ (.analyzed _ _) | .step _ (.pipelineError _) => false
  | .step t (.call true _) => !(W.cancelled && (W.sys.thread t).ofWatcher)
  | _ => true

/-- What the system does in a turn.  A wait of the pipeline is interrupted only by the context. -/
def Watched.event (maxRetries : ℤ) (W : Watched) : Turn → Option Event
  | .cancel => none
  | .analyze t llm =>
      match W.sys.thread t with
      | .analyze esc =>
          match Ops.analyze maxRetries llm esc.value with
          | .ok (analysis, action) => some (.step t (.analyzed analysis action))
          | .error reason => if W.cancelled then some (.step t (.pipelineError reason)) else none
      | _ => none
  | .act event => if W.permits event then some event else none

def watchedStep (L : Libs) (ttl : Int32) (maxRetries : ℤ) (W : Watched) (turn : Turn) :
    Option Watched :=
  match turn with
  | .cancel => some { W with cancelled := true }
  | turn => (W.event maxRetries turn).bind fun event =>
      (step L ttl W.sys event).map fun sys => { W with sys := sys }

theorem watchedStep_sys {L : Libs} {ttl : Int32} {maxRetries : ℤ} {W W' : Watched} {turn : Turn}
    (h : watchedStep L ttl maxRetries W turn = some W') :
    W'.sys = W.sys ∨ ∃ event, W.event maxRetries turn = some event ∧
      step L ttl W.sys event = some W'.sys := by
  have hstep : ∀ event, (step L ttl W.sys event).map (fun sys => { W with sys := sys }) = some W' →
      step L ttl W.sys event = some W'.sys := by
    intro event hmap
    obtain ⟨P, hP, rfl⟩ := map_eq_some_iff.mp hmap
    exact hP
  cases turn with
  | cancel =>
    cases h
    exact .inl rfl
  | analyze | act =>
    obtain ⟨event, hevent, hmap⟩ := bind_eq_some_iff.mp h
    exact .inr ⟨event, hevent, hstep event hmap⟩

/-! ### Escalations in the hands of a call -/

/-- The escalation that a call created or marked `Analyzing` and has not marked again. -/
def Call.carries : Call → Option (Copy Escalation)
  | .analyze esc | .propose esc _ _ | .markFailed esc _ | .markNew _ _ esc _ _ _ => some esc
  | _ => none

/-- The phases that only a pass in progress moves on. -/
def Phase.isPassing : Phase → Bool
  | .none | .analyzing => true
  | _ => false

/-- Every escalation in such a phase is in the hands of a call. -/
def Attended (P : Sys) : Prop :=
  ∀ esc, P.shared.escalations.Holds esc → P.shared.escalations.Current esc →
    esc.value.status.phase.isPassing = true → ∃ t < P.size, (P.thread t).carries = some esc

/-- No API call fails that is made for the escalation in the hands of the call, unless somebody
else has changed or deleted that escalation. -/
def Saves (P : Sys) : Event → Prop
  | .step t (.call false _) =>
      ∀ esc ∈ (P.thread t).carries, ¬ P.shared.escalations.Current esc
  | _ => True

instance (P : Sys) (event : Event) : Decidable (Saves P event) := by
  unfold Saves
  split <;> infer_instance

/-- What a step does to the escalations and to the one in the hands of the call. -/
inductive Carry (s : Shared) (call : Call) (choice : Choice) (e : Effect Shared Call) : Prop
  | idle (hcall : call.carries = none) (hnext : e.next.carries = none)
      (hstore : e.shared.escalations = s.escalations)
  | hold (esc : Copy Escalation) (hcall : call.carries = some esc)
      (hnext : e.next.carries = some esc) (hstore : e.shared.escalations = s.escalations)
      (hchoice : ∀ now, choice ≠ .call false now)
  | lose (esc : Copy Escalation) (hcall : call.carries = some esc) (hnext : e.next.carries = none)
      (hstore : e.shared.escalations = s.escalations)
      (hfailed : s.escalations.Current esc → ∃ now, choice = .call false now)
  | create (new : Escalation) (hcall : call.carries = none)
      (hnext : e.next.carries = some (s.escalations.created new))
      (hstore : e.shared.escalations = s.escalations.create new)
  | delete (object : ℕ) (hcall : call.carries = none) (hnext : e.next.carries = none)
      (hstore : e.shared.escalations = s.escalations.delete object)
  | replace (esc esc' : Copy Escalation) (status : EscalationStatus)
      (hcall : call.carries = none ∨ call.carries = some esc)
      (hnext : e.next.carries = none ∧ status.phase.isPassing = false ∨
        e.next.carries = some esc')
      (hupdate : s.escalations.update esc { esc.value with status := status } =
        some (e.shared.escalations, esc'))
      (hchoice : ∀ now, choice ≠ .call false now)

section

variable {L : Libs} {ttl : Int32} {s : Shared} {call next : Call} {choice : Choice}
  {e : Effect Shared Call} {esc : Copy Escalation}

section

variable (hchecked : call.Checked s)

include hchecked

/-- A `Status().Update` is of the escalation in the call's hands or of one the call has just read,
and if it goes through, the call goes on with it or the phase is not a passing one. -/
theorem carries_of_update {now : Time} {u : Update} (h : call.update now = some u) :
    (call.carries = none ∨ call.carries = some u.esc) ∧ u.failed.carries = none ∧
      ∀ esc', (u.next esc').carries = none ∧ u.status.phase.isPassing = false ∨
        (u.next esc').carries = some esc' := by
  cases call with
  | markAnalyzing =>
    cases h
    exact ⟨.inl rfl, rfl, fun _ => .inr rfl⟩
  | propose | markFailed =>
    cases h
    exact ⟨.inr rfl, rfl, fun _ => .inl ⟨rfl, rfl⟩⟩
  | approve | reject | markExecuted =>
    cases h
    exact ⟨.inl rfl, rfl, fun _ => .inl ⟨rfl, rfl⟩⟩
  | markNew =>
    cases h
    refine ⟨.inr rfl, rfl, fun _ => .inl ⟨rfl, ?_⟩⟩
    obtain ⟨-, -, hpending | ⟨hauto, -⟩⟩ := hchecked
    · rw [hpending]
      rfl
    · rw [hauto]
      rfl
  | _ => cases h

theorem callStep_carry (h : callStep L ttl s call choice = some e) : Carry s call choice e := by
  cases callStep_acts h with
  | replaced hcall hupdate =>
    obtain ⟨hcarries, -, hnext⟩ := carries_of_update hchecked hcall
    obtain ⟨store, hstore, rfl⟩ := updateStatus_eq_some hupdate
    exact .replace _ _ _ hcarries (hnext _) hstore (by simp)
  | @unreplaced _ now u ok hcall hupdate =>
    obtain ⟨hnone | hsome, hfailed, -⟩ := carries_of_update hchecked hcall
    · exact .idle hnone hfailed rfl
    · refine .lose _ hsome hfailed rfl fun hcurrent => ?_
      cases ok with
      | false => exact ⟨now, rfl⟩
      | true => simp [Shared.updateStatus, Store.update, hcurrent] at hupdate
  | analyzed | pipelineError => exact .hold _ rfl rfl rfl (by simp)
  | delete => exact .delete _ rfl rfl rfl
  | escalate | audit => exact .create _ rfl rfl rfl
  | leave hleaves => cases hleaves <;> exact .idle rfl rfl rfl
  | listApproved | writeApproved | listExpired | unexpired | jobs | autoExecute | commit =>
    exact .idle rfl rfl rfl

theorem Call.Checked.carried (hcall : call.carries = some esc) :
    s.escalations.Holds esc ∧ esc.value.status.phase.isPassing = true := by
  cases call with
  | analyze | propose | markFailed =>
    cases hcall
    exact ⟨hchecked.1, by rw [hchecked.2]; rfl⟩
  | markNew =>
    cases hcall
    exact ⟨hchecked.1, by rw [hchecked.2.1]; rfl⟩
  | _ => cases hcall

end

theorem carries_of_started {event : Event} (h : started s event = some call) :
    call.carries = none := by
  cases event with
  | watch object version | approve object version approver | reject object version reason =>
    obtain ⟨esc, -, hif⟩ := bind_eq_some_iff.mp h
    split_ifs at hif
    cases hif
    rfl
  | reconcile claw | consume claw =>
    cases h
    rfl
  | step => cases h

end

section

variable {L : Libs} {ttl : Int32} {P Q : Sys} {event : Event}

/-- **An escalation is in the hands of one call at a time**: what a step takes into its hands is
new, and nobody else can have read it. -/
theorem exclusive_step (hP : Guarded P) (hex : Pool.Exclusive Call.carries P)
    (h : step L ttl P event = some Q) : Pool.Exclusive Call.carries Q := by
  have hread : ∀ {esc}, ¬ P.shared.escalations.Holds esc → ∀ u, (P.thread u).carries ≠ some esc :=
    fun hnew u hu => hnew ((hP.checked u).carried hu).1
  rcases step_cases h with ⟨call, hcall, rfl⟩ | ⟨t, choice, e, rfl, ht, he, rfl⟩
  · exact Pool.exclusive_go hex (carries_of_started hcall)
  · refine Pool.exclusive_advance ht hex (fun esc hesc => ?_) fun q k hq => ?_
    · cases callStep_carry (hP.checked t) he with
      | hold _ hcall hnext =>
        rw [hnext] at hesc
        exact .inl (hcall.trans hesc)
      | create new _ hnext =>
        rw [hnext] at hesc
        cases hesc
        exact .inr (hread (Store.not_holds_created _ new))
      | replace _ _ _ _ hnext hupdate =>
        rcases hnext with ⟨hnone, -⟩ | hsome
        · rw [hnone] at hesc
          cases hesc
        · rw [hsome] at hesc
          cases hesc
          exact .inr (hread (Store.not_holds_updated hupdate))
      | idle hcall hnext | lose esc' hcall hnext | delete object hcall hnext =>
        rw [hnext] at hesc
        cases hesc
    · rw [(callStep_moves he).spawn] at hq
      cases hq

theorem attended_advance {t : ℕ} {e : Effect Shared Call}
    (hP : Attended P)
    (hnew : ∀ esc, e.shared.escalations.Holds esc → e.shared.escalations.Current esc →
      esc.value.status.phase.isPassing = true → e.next.carries = some esc ∨
        P.shared.escalations.Holds esc ∧ P.shared.escalations.Current esc ∧
          (P.thread t).carries ≠ some esc) (ht : t < P.size) : Attended (P.advance t e) := by
  intro esc hholds hcurrent hphase
  rw [Pool.advance_shared] at hholds hcurrent
  rcases hnew esc hholds hcurrent hphase with hnext | ⟨hholds', hcurrent', hother⟩
  · exact Pool.exists_advance_of_next (fun call : Call => call.carries = some esc) ht hnext
  · obtain ⟨u, hu, hcarries⟩ := hP esc hholds' hcurrent' hphase
    refine Pool.exists_advance_of_ne (fun call : Call => call.carries = some esc)
      ⟨u, hu, ?_, hcarries⟩
    rintro rfl
    exact hother hcarries

theorem not_attended_of_dropped {t : ℕ} {e : Effect Shared Call} {esc : Copy Escalation}
    (hP : Guarded P) (hex : Pool.Exclusive Call.carries P) (ht : t < P.size)
    (hcall : (P.thread t).carries = some esc) (hcurrent : P.shared.escalations.Current esc)
    (hnext : e.next.carries = none) (hspawn : e.spawn = none)
    (hstore : e.shared.escalations = P.shared.escalations) : ¬ Attended (P.advance t e) := by
  intro hatt
  obtain ⟨hholds, hphase⟩ := (hP.checked t).carried hcall
  have hQ : (P.advance t e).shared.escalations = P.shared.escalations := by
    rw [Pool.advance_shared, hstore]
  obtain ⟨v, -, hcarries⟩ := hatt esc (hQ ▸ hholds) (hQ ▸ hcurrent) hphase
  rcases Pool.advance_thread_cases ht e v with ⟨-, hv⟩ | ⟨-, -, q, hq, -⟩ | ⟨hne, hv⟩
  · rw [hv, hnext] at hcarries
    cases hcarries
  · rw [hspawn] at hq
    cases hq
  · rw [hv] at hcarries
    exact hne (hex v t esc hcarries hcall)

theorem saves_step_iff {t : ℕ} {choice : Choice} :
    Saves P (.step t choice) ↔ ∀ now esc, choice = .call false now →
      (P.thread t).carries = some esc → ¬ P.shared.escalations.Current esc := by
  unfold Saves
  split
  · next now hevent =>
    obtain ⟨rfl, rfl⟩ := Event.step.inj hevent
    exact ⟨fun h _ esc _ hesc => h esc hesc, fun h esc hesc => h now esc rfl hesc⟩
  · next hother =>
    refine iff_of_true trivial fun now _ hchoice => ?_
    exact absurd (congrArg (Event.step t) hchoice) (hother t now)

/-- **A step leaves no escalation unattended exactly if it saves the one in its hands.** -/
theorem attended_step_iff (hP : Guarded P) (hex : Pool.Exclusive Call.carries P)
    (hatt : Attended P) (h : step L ttl P event = some Q) : Attended Q ↔ Saves P event := by
  rcases step_cases h with ⟨call, hcall, rfl⟩ | ⟨t, choice, e, rfl, ht, he, rfl⟩
  · refine iff_of_true (fun esc hholds hcurrent hphase => ?_) ?_
    · exact Pool.exists_go (fun call : Call => call.carries = some esc)
        (hatt esc hholds hcurrent hphase)
    · cases event with
      | step => cases hcall
      | _ => trivial
  · rw [saves_step_iff]
    have hfree : (P.thread t).carries = none → ∀ now esc, choice = .call false now →
        (P.thread t).carries = some esc → ¬ P.shared.escalations.Current esc :=
      fun hnone _ _ _ hesc => by cases hnone.symm.trans hesc
    cases callStep_carry (hP.checked t) he with
    | idle hcall _ hstore =>
      refine iff_of_true (attended_advance hatt (fun esc hholds hcurrent _ => ?_) ht)
        (hfree hcall)
      rw [hstore] at hholds hcurrent
      exact .inr ⟨hholds, hcurrent, by rw [hcall]; simp⟩
    | hold esc' hcall hnext hstore hchoice =>
      refine iff_of_true (attended_advance hatt (fun esc hholds hcurrent _ => ?_) ht)
        fun now _ hfailed => absurd hfailed (hchoice now)
      rw [hstore] at hholds hcurrent
      by_cases heq : esc' = esc
      · exact .inl (heq ▸ hnext)
      · exact .inr ⟨hholds, hcurrent, by rw [hcall]; simpa using heq⟩
    | create _ hcall hnext hstore =>
      refine iff_of_true (attended_advance hatt (fun esc hholds hcurrent _ => ?_) ht)
        (hfree hcall)
      rw [hstore] at hholds hcurrent
      rcases Store.holds_of_create hholds with hold | rfl
      · exact .inr ⟨hold, Store.current_of_create hcurrent hold, by rw [hcall]; simp⟩
      · exact .inl hnext
    | delete _ hcall _ hstore =>
      refine iff_of_true (attended_advance hatt (fun esc hholds hcurrent _ => ?_) ht)
        (hfree hcall)
      rw [hstore] at hholds hcurrent
      exact .inr ⟨Store.holds_of_delete hholds, Store.current_of_delete hcurrent,
        by rw [hcall]; simp⟩
    | replace _ _ _ hcall hnext hupdate hchoice =>
      refine iff_of_true (attended_advance hatt (fun esc hholds hcurrent hphase => ?_) ht)
        fun now _ hfailed => absurd hfailed (hchoice now)
      rcases Store.holds_of_update hholds hupdate with hold | rfl
      · obtain ⟨hcurrent', hobject⟩ := Store.current_of_update hcurrent hold hupdate
        refine .inr ⟨hold, hcurrent', fun hcarries => ?_⟩
        rcases hcall with hnone | hsome
        · cases hnone.symm.trans hcarries
        · obtain rfl := some.inj (hsome.symm.trans hcarries)
          exact hobject rfl
      · refine .inl (hnext.resolve_left fun ⟨_, hpassed⟩ => ?_)
        obtain ⟨-, rfl, -⟩ := Store.update_eq_some hupdate
        cases hpassed.symm.trans hphase
    | lose esc' hcall hnext hstore hfailed =>
      constructor
      · intro hattQ now esc _ hesc hcurrent
        exact not_attended_of_dropped hP hex ht hesc hcurrent hnext (callStep_moves he).spawn
          hstore hattQ
      · intro hok
        refine attended_advance hatt (fun esc hholds hcurrent _ => ?_) ht
        rw [hstore] at hholds hcurrent
        refine .inr ⟨hholds, hcurrent, fun hcarries => ?_⟩
        obtain rfl := some.inj (hcall.symm.trans hcarries)
        obtain ⟨now, hchoice⟩ := hfailed hcurrent
        exact hok now esc' hchoice hcall hcurrent

end

theorem attended_initial : Attended initial := by
  simp [Attended, Store.Holds, Store.read, initial, Store.empty]

theorem exclusive_initial : Pool.Exclusive Call.carries initial := by
  simp [Pool.Exclusive, initial, Call.carries]

/-- **No two calls have one version of an escalation in their hands**, in any run. -/
theorem exclusive_along (L : Libs) (ttl : Int32) (events : List Event) :
    Along (step L ttl) (Pool.Exclusive Call.carries) initial events := by
  refine Lib.along_of_step (I := fun P => Guarded P ∧ Pool.Exclusive Call.carries P) ?_
    (fun _ hP => hP.2) ⟨guarded_initial, exclusive_initial⟩
  rintro P event Q ⟨hP, hex⟩ hstep
  exact ⟨guarded_step hP hstep, exclusive_step hP hex hstep⟩

/-! ### Stuck escalations -/

/-- Neither program is in the middle of a pass. -/
def AtRest (P : Sys) : Prop :=
  ∀ t < P.size, (P.thread t).ofWatcher = false ∧ (P.thread t).ofController = false

instance (P : Sys) : Decidable (AtRest P) :=
  inferInstanceAs (Decidable (∀ t < P.size, _ ∧ _))

/-- The watcher, `kubectl-claw` or `ClawOpsController` is going to move the escalation on. -/
def EscalationStatus.MovesOn (status : EscalationStatus) : Prop :=
  status.phase = .pending ∨ status.phase = .awaitingApproval ∨
    status.phase = .approved ∧ status.proposedAction ≠ ""
  deriving Decidable

/-- Every escalation that makes `deduplicateSignals` drop its trigger type is moved on. -/
def Unstuck (s : Shared) : Prop :=
  ∀ o ∈ s.escalations.objects, o.deleted = false → ∀ esc ∈ o.versions.getLast?,
    esc.status.phase.isTerminal = false → esc.status.MovesOn
  deriving Decidable

/-- No escalation was ever stored as `Proposed`. -/
def Unproposed (s : Shared) : Prop :=
  ∀ esc, s.escalations.Holds esc → esc.value.status.phase ≠ .proposed

section

variable {L : Libs} {ttl : Int32} {P Q : Sys} {event : Event}

theorem ne_proposed_of_replaces {s : Shared} {call : Call} {esc : Copy Escalation} {phase : Phase}
    (hchecked : call.Checked s) (hcall : call.replaces = some (esc, phase)) :
    phase ≠ .proposed := by
  cases call with
  | markNew =>
    obtain ⟨-, rfl⟩ := Prod.mk.inj (some.inj hcall)
    rcases hchecked.2.2 with hpending | ⟨hauto, -⟩
    · simp [hpending]
    · simp [hauto]
  | markAnalyzing | propose | markFailed | approve | reject | markExecuted =>
    obtain ⟨-, rfl⟩ := Prod.mk.inj (some.inj hcall)
    simp
  | _ => cases hcall

theorem unproposed_step (hP : Guarded P) (hun : Unproposed P.shared)
    (h : step L ttl P event = some Q) : Unproposed Q.shared := by
  have hQ := guarded_step hP h
  rcases step_cases h with ⟨-, -, rfl⟩ | ⟨t, choice, e, rfl, -, he, rfl⟩
  · exact hun
  have hbegins := hQ.gate.begins
  rw [Pool.advance_shared] at hbegins ⊢
  intro esc hesc
  cases (callStep_moves he).move with
  | stay hs' | writeApproved _ _ _ _ _ _ _ hs' | autoExecute _ _ _ _ _ _ _ _ _ hs'
  | commit _ _ _ _ _ _ _ _ hs' =>
    rw [hs'] at hesc
    exact hun esc hesc
  | create new hs' =>
    rw [hs'] at hesc hbegins
    rcases Store.holds_of_create hesc with hold | rfl
    · exact hun esc hold
    · have hnew : new.status.phase = .none :=
        Store.begins_created (p := fun esc : Escalation => esc.status.phase = .none) hbegins
      simp [Store.created, hnew]
  | delete _ hs' =>
    rw [hs'] at hesc
    exact hun esc (Store.holds_of_delete hesc)
  | replace _ _ _ _ hcall hupdate hs' =>
    rw [hs'] at hesc
    rcases Store.holds_of_update hesc hupdate with hold | rfl
    · exact hun esc hold
    · obtain ⟨-, rfl, -⟩ := Store.update_eq_some hupdate
      exact ne_proposed_of_replaces (hP.checked t) hcall

/-- An escalation stored as `Approved` has a proposal. -/
theorem Gate.proposal {s : Shared} (h : Gate s) {esc : Copy Escalation}
    (hesc : s.escalations.Holds esc) (hphase : esc.value.status.phase = .approved) :
    esc.value.status.proposedAction ≠ "" := by
  rcases Store.begins_or_follows h.begins h.chained hesc with hnone | ⟨before, hallowed⟩
  · cases hnone.symm.trans hphase
  · obtain ⟨-, hproposal, hsame⟩ := hallowed.approved hphase
    rw [hsame]
    exact hproposal

theorem Call.carries_of_not_inPass {call : Call} (hwatcher : call.ofWatcher = false)
    (hcontroller : call.ofController = false) : call.carries = none := by
  cases call with
  | analyze | propose | markFailed => cases hwatcher
  | markNew => cases hcontroller
  | _ => rfl

/-- When the passes are over nothing is in anybody's hands, so the phases are those that are moved
on. -/
theorem unstuck_of_attended (hP : Guarded P) (hun : Unproposed P.shared) (hatt : Attended P)
    (hrest : AtRest P) : Unstuck P.shared := by
  intro o ho hlive esc hesc hopen
  obtain ⟨c, hholds, hcurrent, rfl⟩ := Store.exists_current ho hlive hesc
  have hpassing : c.value.status.phase.isPassing = false := by
    by_contra hpassing
    obtain ⟨t, ht, hcarries⟩ := hatt c hholds hcurrent (Bool.eq_true_of_not_eq_false hpassing)
    obtain ⟨hwatcher, hcontroller⟩ := hrest t ht
    cases (Call.carries_of_not_inPass hwatcher hcontroller).symm.trans hcarries
  have hproposed := hun c hholds
  have hproposal := hP.gate.proposal hholds
  unfold EscalationStatus.MovesOn
  cases hphase : c.value.status.phase with
  | none | analyzing =>
    rw [hphase] at hpassing
    cases hpassing
  | autoExecuted | executed | rejected | failed =>
    rw [hphase] at hopen
    cases hopen
  | proposed => exact absurd hphase hproposed
  | pending => exact .inl rfl
  | awaitingApproval => exact .inr (.inl rfl)
  | approved => exact .inr (.inr ⟨rfl, hproposal hphase⟩)

end

/-- The turn saves the escalation in the hands of the call. -/
def Watched.Saves (maxRetries : ℤ) (W : Watched) (turn : Turn) : Prop :=
  ∀ event ∈ W.event maxRetries turn, Ops.Saves W.sys event

instance (maxRetries : ℤ) (W : Watched) (turn : Turn) : Decidable (W.Saves maxRetries turn) :=
  inferInstanceAs (Decidable (∀ event ∈ W.event maxRetries turn, _))

/-- A signal is escalated, and the escalation is analyzed until the pipeline returns: calls 0 and
1. -/
def analyzing (llm : String → ℕ → Attempt) (turns : List Turn) : List Turn :=
  (signalled 0 [.escalate oom] (List.replicate 2 (.step 0 (.call true (seconds 1))))).map .act ++
    [.act (.watch 0 1), .act (.step 1 (.call true (seconds 2)))] ++ turns ++ [.analyze 1 llm]

/-- The LLM fails in the first round and proposes in the second. -/
def secondTry (_ : String) : ℕ → Attempt
  | 0 => ⟨none, none⟩
  | _ => ⟨some ("out of memory", memoryText), none⟩

/-- The LLM fails in the first round, and the context is cancelled while the pipeline waits. -/
def interruptedWait (_ : String) (_ : ℕ) : Attempt := ⟨none, some "context canceled"⟩

end K8s4Claw.Ops
