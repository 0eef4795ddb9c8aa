/-
# The budget of remediation

`isRateLimited` and `ruleMatches` (`internal/controller/clawops_controller.go`,
`internal/rules/engine.go`) look at what `recordAction` and `RecordExecution` have written down.
These are called at the end of `autoExecute`, after the intent is in the annotation of the Claw and
after two more API calls, the `Create` and the `Status().Update` of the audit record.  If one of the
two fails, the intent is written and nothing is written down: the next `Reconcile` may act again
(`unrecorded`).

If neither of them ever fails, every intent is recorded before the next `Reconcile` begins, at a
time not before the one it was written at.  Then the limits are kept (`budget_along`).  The
invariant is `Accounted`; `counted` is the counting argument, for every moment that the next check
may come to look back to.
-/

import K8s4Claw.Ops.Process
import Mathlib.Tactic.Linarith

namespace K8s4Claw.Ops

open List Function
open Lib (Along Copy Effect Meets run)

def hour : Time := 3600 * 1000000000

/-- The intents that were written for a Claw in the hour from `since` on. -/
def Process.inHour (P : Process) (key : Key) (since : Time) : List Remedy :=
  P.remedies.filter fun r => r.key = key ∧ since ≤ r.writtenAt ∧ r.writtenAt < since + hour

/-- The remediation budget. -/
structure Process.Budget (maxActions : ℤ) (P : Process) : Prop where
  limited : ∀ key since, (P.inHour key since).length ≤ maxActions.toNat
  cooled : P.remedies.Pairwise fun r r' => r.key = r'.key → r.rule.id = r'.rule.id →
    0 < r'.rule.cooldown → r'.rule.cooldown ≤ r'.writtenAt - r.writtenAt

/-- A call for the audit record fails. -/
def Active.auditFails (s : Shared) (a : Active) : Choice → Bool
  | .call ok _ =>
      match a.call with
      | .audit _ _ _ _ _ _ _ => !ok
      | .markNew _ _ esc status _ _ =>
          status.phase = .autoExecuted && (s.updateStatus ok esc status).isNone
      | _ => false
  | _ => false

/-- The audit record of an intent that was written is written, too. -/
def Audited (P : Process) : Happening → Prop
  | .step key choice => ∀ a ∈ P.active, a.auditFails (P.api key) choice = false
  | _ => True

instance (P : Process) (h : Happening) : Decidable (Audited P h) := by
  unfold Audited
  cases h <;> infer_instance

/-! ### The invariant -/

/-- The calls of a `Reconcile` before its jobs. -/
def Call.settling : Call → Bool
  | .listApproved _ _ | .writeApproved _ _ _ | .markExecuted _ _ _ _ | .listExpired _ _
  | .deleteExpired _ _ _ | .collectSignals _ _ => true
  | _ => false

/-- The intent that a `Reconcile` has written and not recorded. -/
def Active.intent (a : Active) : Option Remedy :=
  a.rule.bind fun rule => a.written.map fun writtenAt => ⟨a.key, rule, writtenAt⟩

/-- The intent in progress, if there is one. -/
def Process.inProgress (P : Process) : List Remedy := (P.active.bind Active.intent).toList

/-- The intent was written for the Claw after `cutoff`. -/
def Remedy.since (key : Key) (cutoff : Time) (r : Remedy) : Bool :=
  r.key = key ∧ cutoff < r.writtenAt

/-- The actions that are recorded for a Claw, since `cutoff`. -/
def Memory.actions (memory : Memory) (key : Key) (cutoff : Time) : ℕ :=
  (memory.actionCounts key.name).countP (cutoff < ·)

/-- Where a `Reconcile` is, and what it knows there.  Before the intent is written the memory
permits it: since the check nobody has recorded anything. -/
inductive Shape (maxActions : ℤ) (memory : Memory) (clock : Time) : Active → Prop
  | settling {key : Key} {call : Call} {rule : Option EngineRule} (hcall : call.settling = true) :
      Shape maxActions memory clock ⟨key, call, rule, none, false⟩
  | ready {key : Key} {claw : String} {mine : Slot} {sig : Signal} {rule : EngineRule}
      {receipt : String} (todo : List Signal)
      (hlimit : ∀ cutoff, clock - hour ≤ cutoff → (memory.actions key cutoff : ℤ) < maxActions)
      (hcool : 0 < rule.cooldown → ∀ last ∈ memory.cooldowns key.name rule.id,
        rule.cooldown ≤ clock - last) :
      Shape maxActions memory clock
        ⟨key, .remediate claw mine (.autoExecute sig rule.toRule receipt :: todo.map .escalate),
          some rule, none, false⟩
  | auditing {key : Key} {claw : String} {mine : Slot} {sig : Signal} {r : Rule}
      {intentJSON receipt : String} (todo : List Signal) {rule : EngineRule} {written : Time}
      (hwritten : written ≤ clock) :
      Shape maxActions memory clock
        ⟨key, .audit claw mine sig r intentJSON receipt (todo.map .escalate), some rule,
          some written, false⟩
  | marking {key : Key} {claw : String} {mine : Slot} {esc : Copy Escalation}
      {status : EscalationStatus} {onError : List Job} (todo : List Signal) {rule : EngineRule}
      {written : Time} (hphase : status.phase = .autoExecuted) (hwritten : written ≤ clock) :
      Shape maxActions memory clock
        ⟨key, .markNew claw mine esc status onError (todo.map .escalate), some rule, some written,
          false⟩
  | owing {key : Key} {claw : String} {mine : Slot} (todo : List Signal) {rule : EngineRule}
      {written : Time} (hwritten : written ≤ clock) :
      Shape maxActions memory clock
        ⟨key, .remediate claw mine (todo.map .escalate), some rule, some written, true⟩
  | escalating {key : Key} {claw : String} {mine : Slot} (todo : List Signal)
      {rule : Option EngineRule} :
      Shape maxActions memory clock
        ⟨key, .remediate claw mine (todo.map .escalate), rule, none, false⟩
  | opening {key : Key} {claw : String} {mine : Slot} {esc : Copy Escalation}
      {status : EscalationStatus} (todo : List Signal) {rule : Option EngineRule}
      (hphase : status.phase ≠ .autoExecuted) :
      Shape maxActions memory clock
        ⟨key, .markNew claw mine esc status [] (todo.map .escalate), rule, none, false⟩

/-- Every intent that was written is recorded, or is in progress. -/
structure Accounted (maxActions : ℤ) (P : Process) : Prop where
  budget : P.Budget maxActions
  past : ∀ r ∈ P.remedies, r.writtenAt ≤ P.clock
  counted : ∀ key cutoff, P.clock - hour ≤ cutoff →
    P.remedies.countP (·.since key cutoff) ≤
      P.memory.actions key cutoff + P.inProgress.countP (·.since key cutoff)
  remembered : ∀ r ∈ P.remedies,
    (∃ last ∈ P.memory.cooldowns r.key.name r.rule.id, r.writtenAt ≤ last) ∨ r ∈ P.inProgress
  shape : ∀ a ∈ P.active, Shape maxActions P.memory P.clock a

section

variable {L : Libs} {ttl : Int32} {maxActions : ℤ} {P Q : Process} {h : Happening}

/-! ### The memory -/

variable {memory : Memory} {claw ruleID : String} {now cutoff acted executed : Time} {key : Key}
  {s : Shared} {e : Effect Shared Call} {choice : Choice} {a : Active}

theorem cooldowns_recordExecution (name id : String) :
    (memory.recordExecution claw ruleID now).cooldowns name id =
      if name = claw ∧ id = ruleID then some now else memory.cooldowns name id := by
  by_cases hname : name = claw
  · subst hname
    simp [Memory.recordExecution, update_apply]
  · simp [Memory.recordExecution, hname]

/-- What is forgotten is what no later check looks at. -/
theorem actions_forget (key : Key) (hcutoff : now - hour ≤ cutoff) :
    (memory.forget claw now).actions key cutoff = memory.actions key cutoff := by
  simp only [Memory.actions, Memory.forget]
  by_cases hname : key.name = claw
  · subst hname
    rw [update_self, Memory.recent, countP_filter]
    refine countP_congr fun t _ => ?_
    have hkept (ht : cutoff < t) : now - 3600 * 1000000000 < t := lt_of_le_of_lt hcutoff ht
    simpa using hkept
  · rw [update_of_ne hname]

theorem actions_record_self (hcutoff : cutoff < acted) :
    ((memory.recordAction key.name acted).recordExecution key.name ruleID executed).actions key
      cutoff = memory.actions key cutoff + 1 := by
  simp [Memory.actions, Memory.recordExecution, Memory.recordAction, hcutoff]

theorem actions_le_record :
    memory.actions key cutoff ≤
      ((memory.recordAction claw acted).recordExecution claw ruleID executed).actions key
        cutoff := by
  unfold Memory.actions Memory.recordExecution Memory.recordAction
  by_cases hname : key.name = claw
  · subst hname
    simp
  · simp [hname]

/-! ### What is kept -/

/-- The budget is about the intents. -/
theorem Process.Budget.congr (hP : P.Budget maxActions) (hremedies : Q.remedies = P.remedies) :
    Q.Budget maxActions where
  limited := by
    intro key since
    rw [Process.inHour, hremedies]
    exact hP.limited key since
  cooled := by
    rw [hremedies]
    exact hP.cooled

/-- Nothing is written or recorded, and at most what no check looks at any more is forgotten. -/
theorem Accounted.frame (hP : Accounted maxActions P) (hremedies : Q.remedies = P.remedies)
    (hclock : P.clock ≤ Q.clock) (hprogress : Q.inProgress = P.inProgress)
    (hactions : ∀ key cutoff, Q.clock - hour ≤ cutoff →
      Q.memory.actions key cutoff = P.memory.actions key cutoff)
    (hcooldowns : Q.memory.cooldowns = P.memory.cooldowns)
    (hshape : ∀ a ∈ Q.active, Shape maxActions Q.memory Q.clock a) : Accounted maxActions Q where
  budget := hP.budget.congr hremedies
  past := by
    intro r hr
    rw [hremedies] at hr
    exact (hP.past r hr).trans hclock
  counted := by
    intro key cutoff hcutoff
    rw [hremedies, hprogress, hactions key cutoff hcutoff]
    exact hP.counted key cutoff ((sub_le_sub_right hclock hour).trans hcutoff)
  remembered := by
    intro r hr
    rw [hremedies] at hr
    rw [hprogress, hcooldowns]
    exact hP.remembered r hr
  shape := hshape

theorem length_inHour (key : Key) (since : Time) :
    (P.inHour key since).length = P.remedies.countP fun r =>
      r.key = key ∧ since ≤ r.writtenAt ∧ r.writtenAt < since + hour :=
  countP_eq_length_filter.symm

section

variable (hP : Accounted maxActions P)

include hP

/-- If nothing is in progress, the intents of the hour before `now` are recorded. -/
theorem Accounted.recorded (hidle : P.inProgress = []) (hclock : P.clock ≤ now) (key : Key)
    {since : Time} (hnow : now < since + hour) :
    (P.inHour key since).length ≤ P.memory.actions key (now - hour) := by
  have hcounted := hP.counted key (now - hour) (sub_le_sub_right hclock hour)
  rw [hidle, countP_nil] at hcounted
  rw [length_inHour]
  refine le_trans (countP_mono_left fun r _ hr => ?_) hcounted
  obtain ⟨hkey, hsince, -⟩ := of_decide_eq_true hr
  have hafter : now - hour < r.writtenAt := by linarith
  exact decide_eq_true ⟨hkey, hafter⟩

/-- **An intent may be written** where the memory permits it: the intents of the last hour are
recorded, and so is the last one of the rule. -/
theorem Accounted.write {r : Remedy} (hclock : P.clock ≤ r.writtenAt) (hidle : P.inProgress = [])
    (hlimit : ∀ cutoff, P.clock - hour ≤ cutoff → (P.memory.actions r.key cutoff : ℤ) < maxActions)
    (hcool : 0 < r.rule.cooldown → ∀ last ∈ P.memory.cooldowns r.key.name r.rule.id,
      r.rule.cooldown ≤ P.clock - last) (hremedies : Q.remedies = P.remedies ++ [r])
    (hprogress : Q.inProgress = [r]) (hmemory : Q.memory = P.memory) (hQ : Q.clock = r.writtenAt)
    (hshape : ∀ a ∈ Q.active, Shape maxActions Q.memory Q.clock a) : Accounted maxActions Q where
  budget :=
    { limited := by
        intro key since
        have hold := hP.budget.limited key since
        rw [length_inHour] at hold ⊢
        rw [hremedies, countP_append, countP_singleton]
        split_ifs with hr
        · obtain ⟨rfl, -, hnow⟩ := of_decide_eq_true hr
          have hrecorded := hP.recorded hidle hclock r.key hnow
          rw [length_inHour] at hrecorded
          have hlimited := hlimit (r.writtenAt - hour) (sub_le_sub_right hclock hour)
          omega
        · exact hold
      cooled := by
        rw [hremedies, pairwise_append]
        refine ⟨hP.budget.cooled, pairwise_singleton .., fun r₀ hr₀ r₁ hr₁ => ?_⟩
        obtain rfl := mem_singleton.mp hr₁
        intro hkey hid hpos
        rcases hP.remembered r₀ hr₀ with ⟨last, hlast, hle⟩ | hmem
        · rw [hkey, hid] at hlast
          have hcooled := hcool hpos last hlast
          linarith
        · rw [hidle] at hmem
          cases hmem }
  past := by
    intro r' hr'
    rw [hremedies] at hr'
    rw [hQ]
    rcases mem_append.mp hr' with hr' | hr'
    · exact (hP.past r' hr').trans hclock
    · exact le_of_eq (congrArg Remedy.writtenAt (mem_singleton.mp hr'))
  counted := by
    intro key cutoff hcutoff
    rw [hQ] at hcutoff
    have hcounted := hP.counted key cutoff ((sub_le_sub_right hclock hour).trans hcutoff)
    rw [hidle, countP_nil] at hcounted
    rw [hremedies, hprogress, countP_append, hmemory]
    exact Nat.add_le_add_right hcounted _
  remembered := by
    intro r' hr'
    rw [hremedies] at hr'
    rw [hmemory, hprogress]
    rcases mem_append.mp hr' with hr' | hr'
    · rcases hP.remembered r' hr' with hlast | hmem
      · exact .inl hlast
      · rw [hidle] at hmem
        cases hmem
    · exact .inr hr'
  shape := hshape

/-- **The intent in progress is recorded**, not before it was written. -/
theorem Accounted.record {r : Remedy} (hprogress : P.inProgress = [r])
    (hwritten : r.writtenAt ≤ P.clock) (hacted : P.clock ≤ acted) (hexecuted : acted ≤ executed)
    (hremedies : Q.remedies = P.remedies) (hidle : Q.inProgress = []) (hmemory : Q.memory =
      (P.memory.recordAction r.key.name acted).recordExecution r.key.name r.rule.id executed)
    (hQ : Q.clock = executed) (hshape : ∀ a ∈ Q.active, Shape maxActions Q.memory Q.clock a) :
    Accounted maxActions Q where
  budget := hP.budget.congr hremedies
  past := by
    intro r' hr'
    rw [hremedies] at hr'
    rw [hQ]
    exact (hP.past r' hr').trans (hacted.trans hexecuted)
  counted := by
    intro key cutoff hcutoff
    have hlater : P.clock - hour ≤ cutoff := by linarith
    have hcounted := hP.counted key cutoff hlater
    rw [hprogress, countP_singleton] at hcounted
    rw [hremedies, hidle, countP_nil, hmemory]
    refine hcounted.trans ?_
    split_ifs with hr
    · obtain ⟨rfl, hafter⟩ := of_decide_eq_true hr
      rw [actions_record_self (lt_of_lt_of_le hafter (hwritten.trans hacted))]
    · exact actions_le_record
  remembered := by
    intro r' hr'
    rw [hremedies] at hr'
    have hpast : r'.writtenAt ≤ executed := (hP.past r' hr').trans (hacted.trans hexecuted)
    rw [hmemory, cooldowns_recordExecution]
    left
    split_ifs with hsame
    · exact ⟨executed, rfl, hpast⟩
    · rcases hP.remembered r' hr' with hlast | hmem
      · exact hlast
      · rw [hprogress] at hmem
        obtain rfl := mem_singleton.mp hmem
        exact absurd ⟨rfl, rfl⟩ hsame
  shape := hshape

end

/-! ### The steps of a `Reconcile` -/

theorem callStep_settling {call : Call} (hcall : call.settling = true)
    (hdecides : choice.decides = false) (h : callStep L ttl s call choice = some e) :
    e.next.settling = true ∨ e.next = .done := by
  cases callStep_acts h with
  | replaced hupdates | unreplaced hupdates =>
    cases call with
    | markExecuted =>
      cases hupdates
      exact .inl rfl
    | listApproved | writeApproved | listExpired | deleteExpired | collectSignals => cases hupdates
    | _ => cases hcall
  | listApproved | writeApproved | listExpired | unexpired | delete => exact .inl rfl
  | jobs => cases hdecides
  | leave hleaves =>
    cases hleaves with
    | approved | written | listed | expired => exact .inl rfl
    | signals => exact .inr rfl
    | remedied | remediate | audit | consume => cases hcall
  | analyzed | pipelineError | escalate | autoExecute | audit | commit => cases hcall

section

variable (hcall : a.call.settling = true) (choice : Choice)

include hcall

theorem Active.writes_of_settling : a.writes choice = none := by
  obtain ⟨key, call, rule, written, owes⟩ := a
  cases choice with
  | call ok =>
    cases call with
    | remediate => cases hcall
    | _ => cases ok <;> rfl
  | _ => rfl

theorem Active.audits_of_settling : a.audits s choice = false := by
  obtain ⟨key, call, rule, written, owes⟩ := a
  cases choice with
  | call =>
    cases call with
    | markNew => cases hcall
    | _ => rfl
  | _ => rfl

end

theorem Active.intent_of_written (hwritten : a.written = none) : a.intent = none := by
  unfold Active.intent
  rw [hwritten]
  cases a.rule <;> rfl

/-- What a step of a `Reconcile` comes to: it is over, the intent in progress is still the same, or
there was none and one is written. -/
inductive Advance (maxActions : ℤ) (memory : Memory) (clock : Time) (a : Active) (choice : Choice)
    (audits : Bool) : Call → Prop
  | ends (hwrites : a.writes choice = none) (hwritten : a.written = none) :
      Advance maxActions memory clock a choice audits .done
  | keeps {next : Call} (hwrites : a.writes choice = none) (hnext : next ≠ .done)
      (hshape : Shape maxActions memory (choice.time clock)
        ⟨a.key, next, a.rule, a.written, audits⟩) :
      Advance maxActions memory clock a choice audits next
  | writes {next : Call} (rule : EngineRule) (now : Time) (hchoice : choice = .call true now)
      (hwrites : a.writes choice = some now) (hrule : a.rule = some rule)
      (hwritten : a.written = none) (haudits : audits = false) (hnext : next ≠ .done)
      (hlimit : ∀ cutoff, clock - hour ≤ cutoff → (memory.actions a.key cutoff : ℤ) < maxActions)
      (hcool : 0 < rule.cooldown → ∀ last ∈ memory.cooldowns a.key.name rule.id,
        rule.cooldown ≤ clock - last)
      (hshape : Shape maxActions memory now ⟨a.key, next, some rule, some now, false⟩) :
      Advance maxActions memory clock a choice audits next

theorem next_markNew {mine : Slot} {esc : Copy Escalation} {status : EscalationStatus}
    {onError todo : List Job} {ok : Bool}
    (he : callStep L ttl s (.markNew claw mine esc status onError todo) (.call ok now) = some e) :
    e.next = if (s.updateStatus ok esc status).isSome then .remediate claw mine todo
      else .remediate claw mine (onError ++ todo) := by
  simp only [callStep, remediateStep, andThen] at he
  split at he
  · next hupdate =>
    cases he
    rw [hupdate]
    rfl
  · next hupdate =>
    cases he
    rw [hupdate]
    rfl

/-- **A step of a `Reconcile`** whose audit records are written. -/
theorem Shape.advance {clock : Time} (h : Shape maxActions memory clock a) (howes : a.owes = false)
    (hdecides : choice.decides = false) (htime : clock ≤ choice.time clock)
    (haudited : a.auditFails s choice = false) (he : callStep L ttl s a.call choice = some e) :
    Advance maxActions memory clock a choice (a.audits s choice) e.next := by
  cases h with
  | @settling key call rule hcall =>
    have hwrites : Active.writes ⟨key, call, rule, none, false⟩ choice = none :=
      Active.writes_of_settling hcall choice
    have haudits : Active.audits s ⟨key, call, rule, none, false⟩ choice = false :=
      Active.audits_of_settling hcall choice
    rw [haudits]
    rcases callStep_settling hcall hdecides he with hnext | hnext
    · refine .keeps hwrites ?_ (.settling hnext)
      rintro heq
      rw [heq] at hnext
      cases hnext
    · rw [hnext]
      exact .ends hwrites rfl
  | ready todo hlimit hcool =>
    cases choice with
    | call ok now =>
      cases ok with
      | true =>
        cases he
        exact .writes _ now rfl rfl rfl rfl rfl (by simp) hlimit hcool (.auditing todo le_rfl)
      | false =>
        cases he
        exact .keeps rfl (by simp) (.escalating (_ :: todo))
    | _ => cases he
  | auditing todo hwritten =>
    cases choice with
    | call ok =>
      obtain rfl : ok = true := by simpa [Active.auditFails] using haudited
      cases he
      exact .keeps rfl (by simp) (.marking todo rfl (hwritten.trans htime))
    | _ => cases he
  | @marking key claw mine esc status onError todo rule written hphase hwritten =>
    cases choice with
    | call ok now =>
      have hupdated : (s.updateStatus ok esc status).isSome = true := by
        simpa [Active.auditFails, hphase] using haudited
      have haudits : Active.audits s
          ⟨key, .markNew claw mine esc status onError (todo.map .escalate), some rule, some written,
            false⟩ (.call ok now) = true := by
        simp [Active.audits, hphase, hupdated]
      rw [haudits, next_markNew he, if_pos hupdated]
      exact .keeps (by cases ok <;> rfl) (by simp) (.owing todo (hwritten.trans htime))
    | _ => cases he
  | owing => cases howes
  | escalating todo =>
    cases todo with
    | nil =>
      cases choice with
      | go =>
        cases he
        exact .ends rfl rfl
      | _ => cases he
    | cons _ todo =>
      cases choice with
      | call ok =>
        cases ok with
        | true =>
          cases he
          exact .keeps rfl (by simp) (.opening todo (by simp))
        | false =>
          cases he
          exact .keeps rfl (by simp) (.escalating todo)
      | _ => cases he
  | @opening key claw mine esc status todo rule hphase =>
    cases choice with
    | call ok now =>
      have haudits : Active.audits s
          ⟨key, .markNew claw mine esc status [] (todo.map .escalate), rule, none, false⟩
            (.call ok now) = false := by
        simp [Active.audits, hphase]
      rw [haudits, next_markNew he, nil_append, ite_self]
      exact .keeps (by cases ok <;> rfl) (by simp) (.escalating todo)
    | _ => cases he

/-! ### The process -/

theorem inProgress_of_active (hactive : P.active = some a) : P.inProgress = a.intent.toList := by
  rw [Process.inProgress, hactive]
  rfl

theorem inProgress_of_intent (hactive : P.active = some a) (hintent : a.intent = none) :
    P.inProgress = [] := by
  rw [inProgress_of_active hactive, hintent]
  rfl

section

variable (hP : Accounted maxActions P)

include hP

theorem Accounted.step (hactive : P.active = some a) (howes : a.owes = false)
    (hdecides : choice.decides = false) (htime : P.clock ≤ choice.time P.clock)
    (haudited : a.auditFails (P.api a.key) choice = false)
    (hcall : callStep L ttl (P.api a.key) a.call choice = some e) :
    Accounted maxActions
      { P with
        api := Function.update P.api a.key e.shared
        active := a.after (P.api a.key) choice e.next
        clock := choice.time P.clock
        remedies := P.remedies ++ ((a.writes choice).bind fun now =>
          a.rule.map fun rule => ⟨a.key, rule, now⟩).toList } := by
  have hshape := hP.shape a hactive
  have hadvance := hshape.advance howes hdecides htime haudited hcall
  generalize e.next = next at hadvance
  cases hadvance with
  | ends hwrites hwritten =>
    have hidle := inProgress_of_intent hactive (Active.intent_of_written hwritten)
    refine hP.frame ?_ htime hidle.symm (fun _ _ _ => rfl) rfl ?_
    · simp [hwrites]
    · simp [Active.after]
  | keeps hwrites hnext hshape' =>
    have hafter : a.after (P.api a.key) choice next =
        some ⟨a.key, next, a.rule, a.written, a.audits (P.api a.key) choice⟩ := by
      simp [Active.after, hnext, hwrites]
    refine hP.frame ?_ htime ?_ (fun _ _ _ => rfl) rfl ?_
    · simp [hwrites]
    · refine Eq.trans (inProgress_of_active hafter) ?_
      rw [inProgress_of_active hactive]
      rfl
    · intro a' ha'
      obtain rfl := Option.some.inj (hafter.symm.trans ha')
      exact hshape'
  | writes rule now hchoice hwrites hrule hwritten haudits hnext hlimit hcool hshape' =>
    subst hchoice
    have hafter : a.after (P.api a.key) (.call true now) next =
        some ⟨a.key, next, some rule, some now, false⟩ := by
      simp [Active.after, hnext, hwrites, hrule, haudits]
    have hidle := inProgress_of_intent hactive (Active.intent_of_written hwritten)
    refine hP.write (r := ⟨a.key, rule, now⟩) htime hidle hlimit hcool ?_ ?_ rfl rfl ?_
    · simp [hwrites, hrule]
    · exact (inProgress_of_active hafter).trans rfl
    · intro a' ha'
      obtain rfl := Option.some.inj (hafter.symm.trans ha')
      exact hshape'

/-- The decision about the signals keeps the account: what it permits, the memory permits. -/
theorem Accounted.look (hidle : P.inProgress = []) {sight : Sight} {jobs : List Job}
    {rule : Option EngineRule} (hplanned : Planned maxActions P.memory sight jobs rule memory)
    (hname : sight.claw = key.name) (hclock : P.clock ≤ sight.limitedAt) {until_ : Time}
    (hlimited : sight.limitedAt ≤ until_) (hmatched : ∀ i j, sight.matchedAt i j ≤ until_)
    (claw : String) (mine : Slot) (decisions : List (Key × List Job)) :
    Accounted maxActions
      { P with
        memory := memory
        active := some ⟨key, .remediate claw mine jobs, rule, none, false⟩
        clock := until_
        decisions := decisions } := by
  have hcutoff {cutoff : Time} (h : until_ - hour ≤ cutoff) : sight.limitedAt - hour ≤ cutoff :=
    (sub_le_sub_right hlimited hour).trans h
  have hprogress (call : Call) : Process.inProgress
      { P with
        active := some ⟨key, call, rule, none, false⟩
        decisions := decisions } = P.inProgress :=
    (inProgress_of_intent rfl (Active.intent_of_written rfl)).trans hidle.symm
  cases hplanned with
  | quiet =>
    refine hP.frame rfl (hclock.trans hlimited) (hprogress _) (fun _ _ _ => rfl) rfl fun a ha => ?_
    cases ha
    exact .escalating []
  | escalates signals =>
    refine hP.frame rfl (hclock.trans hlimited) (hprogress _)
      (fun key' _ h => actions_forget key' (hcutoff h)) rfl fun a ha => ?_
    cases ha
    exact .escalating signals
  | acts _ _ others hallowed hcooled =>
    refine hP.frame rfl (hclock.trans hlimited) (hprogress _)
      (fun key' _ h => actions_forget key' (hcutoff h)) rfl fun a ha => ?_
    cases ha
    refine .ready others (fun cutoff h => ?_) fun hpos last hlast => ?_
    · have hcount : (P.memory.forget sight.claw sight.limitedAt).actions key cutoff ≤
          (P.memory.recent sight.claw sight.limitedAt).length := by
        rw [hname]
        simp only [Memory.actions, Memory.forget, update_self]
        exact countP_le_length
      have hbelow : ((P.memory.recent sight.claw sight.limitedAt).length : ℤ) < maxActions := by
        simpa [isRateLimited] using hallowed
      exact lt_of_le_of_lt (Int.ofNat_le.mpr hcount) hbelow
    · rw [← hname] at hlast
      obtain ⟨i, j, hij⟩ := hcooled hpos last hlast
      exact hij.trans (sub_le_sub_right (hmatched i j) last)

/-- **Every step keeps the account**, if the audit records are written. -/
theorem processStep_accounted (haudited : Audited P h)
    (hs : processStep L ttl maxActions P h = some Q) : Accounted maxActions Q := by
  cases processStep_move hs with
  | reconcile _ hactive =>
    have hidle : P.inProgress = [] := by
      rw [Process.inProgress, hactive]
      rfl
    refine hP.frame rfl le_rfl hidle.symm (fun _ _ _ => rfl) rfl fun a ha => ?_
    cases ha
    exact .settling rfl
  | step _ _ a e hactive hkey howes hdecides htime hcall =>
    subst hkey
    exact hP.step hactive howes hdecides htime (haudited a hactive) hcall
  | look _ claw mine _ written l hactive hname hclock =>
    obtain rfl : written = none := by
      cases hP.shape _ hactive
      rfl
    exact hP.look (inProgress_of_intent hactive (Active.intent_of_written rfl)) plan_planned hname
      hclock l.limited_le l.matched_le claw mine _
  | record key _ rule _ _ _ hactive hclock hexecuted =>
    cases hP.shape _ hactive with
    | @owing _ _ _ todo _ written hwritten =>
      refine hP.record (inProgress_of_active hactive) hwritten hclock
        hexecuted rfl rfl rfl rfl fun a ha => ?_
      cases ha
      exact .escalating todo
  | world => exact hP.frame rfl le_rfl rfl (fun _ _ _ => rfl) rfl hP.shape

end

theorem accounted_start (maxActions : ℤ) (now : Time) :
    Accounted maxActions (Process.start now) where
  budget :=
    { limited := fun _ _ => Nat.zero_le _
      cooled := List.Pairwise.nil }
  past := by
    intro r hr
    cases hr
  counted := fun _ _ _ => Nat.zero_le _
  remembered := by
    intro r hr
    cases hr
  shape := by
    intro a ha
    cases ha

end

/-- The Claw of the two runs below. -/
def worker : Key := ⟨"default", "worker"⟩

/-- An intent of the rule for killed pods, and the next one when its cooldown is over. -/
def twoRemedies : List Happening :=
  looks worker [] (seconds 9) ++ remedy worker (seconds 9) ++
    looks worker [(0, 1)] (seconds 1809) ++ remedy worker (seconds 1809)

/-- A `Reconcile` that writes an intent; after that no escalation can be created, neither the audit
record nor the one that `Reconcile` tries when `autoExecute` fails. -/
def unaudited (now : Time) : List Happening :=
  looks worker [] now ++ [.step worker (.call true now), .step worker (.call false now),
    .step worker (.call false now), .step worker .go]

/-- Six of them, a minute apart. -/
def sixRemedies : List Happening := (List.range 6).flatMap fun i => unaudited (seconds (60 * i))

end K8s4Claw.Ops
