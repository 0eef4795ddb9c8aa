/-
# Claws that share a controller

`ClawOpsController` handles the Claws of all namespaces, and its `actionCounts` and the `cooldowns`
of its engine (`internal/controller/clawops_controller.go`, `internal/rules/engine.go`) are maps by
the name of the Claw: `isRateLimited`, `MatchHighestPriority`, `recordAction` and `RecordExecution`
get `claw.Name`.

Claws of different names share nothing: an unwinding argument (`Lib.run_unwound`) with the relation
`Alike`.  Claws of one name in two namespaces share their budget and their cooldowns:
what was done for the one keeps the controller from doing it for the other (`decides_differently`).
-/

import K8s4Claw.Ops.OpenEscalations
import K8s4Claw.Ops.Process

namespace K8s4Claw.Ops

open List Function
open Lib (Copy Effect run run_append run_cons)

/-- What was decided for a Claw, in order. -/
def Process.decided (P : Process) (key : Key) : List (List Job) :=
  (P.decisions.filter fun d => d.1 = key).map Prod.snd

/-- What happens to `other` has no influence on what is decided for `key`. -/
def NonInterfering (L : Libs) (ttl : Int32) (maxActions : ℤ) (key other : Key) : Prop :=
  ∀ (now : Time) (hs hs' : List Happening) (P P' : Process),
    run (processStep L ttl maxActions) (Process.start now) hs = some P →
    run (processStep L ttl maxActions) (Process.start now) hs' = some P' →
    (hs.filter fun h => h.key ≠ other) = (hs'.filter fun h => h.key ≠ other) →
    P.decided key = P'.decided key

/-! ### The memory of one name -/

/-- What is remembered under a name. -/
def Memory.part (memory : Memory) (name : String) : List Time × (String → Option Time) :=
  (memory.actionCounts name, memory.cooldowns name)

section

variable {maxActions : ℤ} {memory memory' : Memory} {listed : List (Copy Escalation)}
  {sight : Sight} {name claw : String}

theorem part_forget_of_ne {now : Time} (hname : name ≠ claw) :
    (memory.forget claw now).part name = memory.part name := by
  simp [Memory.part, Memory.forget, hname]

theorem part_record_of_ne {acted executed : Time} {ruleID : String} (hname : name ≠ claw) :
    ((memory.recordAction claw acted).recordExecution claw ruleID executed).part name =
      memory.part name := by
  simp [Memory.part, Memory.recordAction, Memory.recordExecution, hname]

theorem recent_congr {now : Time} (h : memory.part claw = memory'.part claw) :
    memory.recent claw now = memory'.recent claw now := by
  unfold Memory.recent
  rw [(Prod.mk.inj h).1]

theorem part_forget_congr (now : Time) (h : memory.part claw = memory'.part claw) :
    (memory.forget claw now).part claw = (memory'.forget claw now).part claw := by
  simp [Memory.part, Memory.forget, recent_congr h, (Prod.mk.inj h).2]

/-- The engine looks at the memory of the Claw's name only. -/
theorem matchHighestPriority_congr {now : ℕ → ℕ → Time} {rules : List EngineRule}
    {signals : List Signal} (h : memory.part claw = memory'.part claw) :
    matchHighestPriority memory claw now rules signals =
      matchHighestPriority memory' claw now rules signals := by
  unfold matchHighestPriority firstMatch ruleMatches
  rw [(Prod.mk.inj h).2]

/-- **So does what is decided about the signals.** -/
theorem plan_congr (maxActions : ℤ) (listed : List (Copy Escalation))
    (h : memory.part sight.claw = memory'.part sight.claw) :
    (plan maxActions memory listed sight).1 = (plan maxActions memory' listed sight).1 ∧
      matched maxActions memory listed sight = matched maxActions memory' listed sight ∧
      (plan maxActions memory listed sight).2.part sight.claw =
        (plan maxActions memory' listed sight).2.part sight.claw := by
  have hforget := part_forget_congr sight.limitedAt h
  unfold plan matched isRateLimited
  dsimp only
  rw [recent_congr h, matchHighestPriority_congr hforget]
  split_ifs
  · exact ⟨rfl, rfl, h⟩
  · exact ⟨rfl, rfl, hforget⟩
  · refine ⟨?_, rfl, ?_⟩
    · split <;> rfl
    · split <;> exact hforget

theorem plan_of_nonpos (hmax : maxActions ≤ 0) :
    (plan maxActions memory listed sight).1 =
        (deduplicateSignals sight.claw listed (collectSignals sight.pods)).map .escalate ∧
      matched maxActions memory listed sight = none := by
  have hlimited : isRateLimited maxActions memory sight.claw sight.limitedAt = true :=
    decide_eq_true (hmax.trans (Int.natCast_nonneg _))
  unfold plan matched
  dsimp only
  split_ifs with hsignals
  · exact ⟨by rw [hsignals, map_nil], rfl⟩
  · exact ⟨rfl, rfl⟩

/-- What is remembered of other names is not touched. -/
theorem part_plan_of_ne (hname : name ≠ sight.claw) :
    (plan maxActions memory listed sight).2.part name = memory.part name := by
  unfold plan
  dsimp only
  split_ifs
  · rfl
  · exact part_forget_of_ne hname
  · split <;> exact part_forget_of_ne hname

end

/-! ### Unwinding -/

/-- The two processes differ in hidden Claws only; in their memory as far as it matters. -/
structure Alike (maxActions : ℤ) (hidden : Key → Bool) (P Q : Process) : Prop where
  api : ∀ key, hidden key = false → P.api key = Q.api key
  memory : 0 < maxActions → ∀ key, hidden key = false →
    P.memory.part key.name = Q.memory.part key.name
  active : P.active.filter (fun a => !hidden a.key) = Q.active.filter (fun a => !hidden a.key)
  decisions : P.decisions.filter (fun d => !hidden d.1) = Q.decisions.filter (fun d => !hidden d.1)

theorem alike_equivalence (maxActions : ℤ) (hidden : Key → Bool) :
    Equivalence (Alike maxActions hidden) where
  refl _ := ⟨fun _ _ => rfl, fun _ _ _ => rfl, rfl, rfl⟩
  symm h := ⟨fun key hkey => (h.api key hkey).symm,
    fun hmax key hkey => (h.memory hmax key hkey).symm, h.active.symm, h.decisions.symm⟩
  trans h h' := ⟨fun key hkey => (h.api key hkey).trans (h'.api key hkey),
    fun hmax key hkey => (h.memory hmax key hkey).trans (h'.memory hmax key hkey),
    h.active.trans h'.active, h.decisions.trans h'.decisions⟩

section

variable {L : Libs} {ttl : Int32} {maxActions : ℤ} {hidden : Key → Bool} {P P' Q Q' : Process}
  {h : Happening} {key key' : Key}

theorem Active.key_of_mem_after {s : Shared} {a a' : Active} {choice : Choice} {next : Call}
    (ha' : a' ∈ a.after s choice next) : a'.key = a.key := by
  unfold Active.after at ha'
  split_ifs at ha'
  · cases ha'
  · cases ha'
    rfl

/-- The `Reconcile`s for hidden Claws are not looked at. -/
theorem filter_active {active active' : Option Active} (h : ∀ a ∈ active, hidden a.key = true)
    (h' : ∀ a ∈ active', hidden a.key = true) :
    active.filter (fun a => !hidden a.key) = active'.filter (fun a => !hidden a.key) := by
  have hnone {active : Option Active} (h : ∀ a ∈ active, hidden a.key = true) :
      active.filter (fun a => !hidden a.key) = none := by
    rw [Option.filter_eq_none_iff]
    intro a ha
    simpa using h a ha
  rw [hnone h, hnone h']

theorem update_api_of_hidden {s : Shared} (hkey : hidden key = true) (hkey' : hidden key' = false) :
    P.api key' = update P.api key s key' := by
  rw [update_of_ne]
  rintro rfl
  exact Bool.noConfusion (hkey.symm.trans hkey')

/-- **What happens to hidden Claws leaves the rest as it is**, if Claws of one name are hidden
together where the memory matters. -/
theorem alike_of_hidden
    (hnames : 0 < maxActions → ∀ key key' : Key, key.name = key'.name → hidden key = hidden key')
    (hkey : hidden h.key = true) (hs : processStep L ttl maxActions P h = some Q) :
    Alike maxActions hidden P Q := by
  have hne (hmax : 0 < maxActions) (key' : Key) (hkey' : hidden key' = false) :
      key'.name ≠ h.key.name := by
    intro heq
    rw [hnames hmax key' h.key heq, hkey] at hkey'
    cases hkey'
  cases processStep_move hs with
  | reconcile _ hactive =>
    refine ⟨fun _ _ => rfl, fun _ _ _ => rfl, filter_active ?_ ?_, rfl⟩
    · rw [hactive]
      intro a ha
      cases ha
    · rintro a ⟨⟩
      exact hkey
  | step _ _ a e hactive ha =>
    refine ⟨fun _ hkey' => update_api_of_hidden hkey hkey', fun _ _ _ => rfl, filter_active ?_ ?_,
      rfl⟩
    · rw [hactive]
      rintro a' ⟨⟩
      rw [ha]
      exact hkey
    · intro a' ha'
      rw [Active.key_of_mem_after ha', ha]
      exact hkey
  | look key _ _ _ _ l hactive hclaw =>
    refine ⟨fun _ _ => rfl, fun hmax key' hkey' => ?_, filter_active ?_ ?_, ?_⟩
    · refine (part_plan_of_ne ?_).symm
      rw [hclaw]
      exact hne hmax key' hkey'
    · rw [hactive]
      rintro a ⟨⟩
      exact hkey
    · rintro a ⟨⟩
      exact hkey
    · replace hkey : hidden key = true := hkey
      simp [hkey]
  | record _ _ _ _ _ _ hactive =>
    refine ⟨fun _ _ => rfl, fun hmax key' hkey' => ?_, filter_active ?_ ?_, rfl⟩
    · exact (part_record_of_ne (hne hmax key' hkey')).symm
    · rw [hactive]
      rintro a ⟨⟩
      exact hkey
    · rintro a ⟨⟩
      exact hkey
  | world =>
    exact ⟨fun _ hkey' => update_api_of_hidden hkey hkey', fun _ _ _ => rfl, rfl, rfl⟩

section

variable (hP : Alike maxActions hidden P P')

include hP

theorem Alike.active_eq {a : Active} (hactive : P.active = some a) (hkey : hidden a.key = false) :
    P'.active = some a := by
  have hfilter := hP.active
  rw [hactive, Option.filter_some_pos (by simpa using hkey)] at hfilter
  exact (Option.filter_eq_some_iff.mp hfilter.symm).1

theorem Alike.update_api (key : Key) (s : Shared) (hkey' : hidden key' = false) :
    update P.api key s key' = update P'.api key s key' := by
  simp only [update_apply]
  split_ifs
  · rfl
  · exact hP.api key' hkey'

theorem Alike.plan_eq {sight : Sight} (listed : List (Copy Escalation))
    (hclaw : sight.claw = key.name) (hkey : hidden key = false) :
    (plan maxActions P.memory listed sight).1 = (plan maxActions P'.memory listed sight).1 ∧
      matched maxActions P.memory listed sight = matched maxActions P'.memory listed sight := by
  by_cases hmax : 0 < maxActions
  · have hmemory := hP.memory hmax key hkey
    rw [← hclaw] at hmemory
    obtain ⟨hjobs, hmatched, -⟩ := plan_congr maxActions listed hmemory
    exact ⟨hjobs, hmatched⟩
  · obtain ⟨hjobs, hmatched⟩ := plan_of_nonpos (not_lt.mp hmax)
    obtain ⟨hjobs', hmatched'⟩ := plan_of_nonpos (not_lt.mp hmax)
    exact ⟨hjobs.trans hjobs'.symm, hmatched.trans hmatched'.symm⟩

/-- **What happens to another Claw reads the rest only.** -/
theorem alike_of_alike (hkey : hidden h.key = false)
    (hs : processStep L ttl maxActions P h = some Q)
    (hs' : processStep L ttl maxActions P' h = some Q') : Alike maxActions hidden Q Q' := by
  cases processStep_move hs with
  | reconcile key =>
    cases processStep_move hs' with
    | reconcile =>
      refine ⟨hP.api, hP.memory, ?_, hP.decisions⟩
      rw [hP.api key hkey]
  | step key _ a e hactive ha _ _ _ hcall =>
    cases processStep_move hs' with
    | step _ _ a' e' hactive' _ _ _ _ hcall' =>
      have hseen : hidden a.key = false := by
        rw [ha]
        exact hkey
      obtain rfl := Option.some.inj (hactive'.symm.trans (hP.active_eq hactive hseen))
      rw [← hP.api key hkey] at hcall' ⊢
      obtain rfl := Option.some.inj (hcall.symm.trans hcall')
      exact ⟨fun key' hkey' => hP.update_api key _ hkey', hP.memory, rfl, hP.decisions⟩
  | look key _ _ _ _ l hactive hclaw =>
    cases processStep_move hs' with
    | look _ _ _ _ _ l hactive' =>
      cases hactive'.symm.trans (hP.active_eq hactive hkey)
      rw [← hP.api key hkey]
      obtain ⟨hjobs, hmatched⟩ := hP.plan_eq (l.copies (P.api key)) hclaw hkey
      refine ⟨hP.api, fun hmax key' hkey' => ?_, ?_, ?_⟩
      · by_cases heq : key'.name = l.sight.claw
        · have hmemory := hP.memory hmax key' hkey'
          rw [heq] at hmemory ⊢
          exact (plan_congr maxActions _ hmemory).2.2
        · refine (part_plan_of_ne heq).trans ?_
          refine Eq.trans ?_ (part_plan_of_ne heq).symm
          exact hP.memory hmax key' hkey'
      · rw [hjobs, hmatched]
      · simp only [filter_append, hP.decisions, hjobs]
  | record key _ _ _ _ _ hactive =>
    cases processStep_move hs' with
    | record _ _ _ _ _ _ hactive' =>
      cases hactive'.symm.trans (hP.active_eq hactive hkey)
      refine ⟨hP.api, fun hmax key' hkey' => ?_, rfl, hP.decisions⟩
      have hmemory := hP.memory hmax key' hkey'
      by_cases heq : key'.name = key.name
      · rw [heq] at hmemory ⊢
        obtain ⟨hactions, hcooldowns⟩ := Prod.mk.inj hmemory
        simp [Memory.part, Memory.recordAction, Memory.recordExecution, hactions, hcooldowns]
      · refine (part_record_of_ne heq).trans ?_
        exact hmemory.trans (part_record_of_ne heq).symm
  | world key s =>
    cases processStep_move hs' with
    | world =>
      exact ⟨fun key' hkey' => hP.update_api key s hkey', hP.memory, hP.active, hP.decisions⟩

end

/-- **Hidden Claws do not interfere** with the others. -/
theorem nonInterfering_of_hidden {other : Key}
    (hnames : 0 < maxActions → ∀ key key' : Key, key.name = key'.name → hidden key = hidden key')
    (hother : hidden other = true) (hkey : hidden key = false) :
    NonInterfering L ttl maxActions key other := by
  intro now hs hs' P P' hrun hrun' hfilter
  have hseen (l : List Happening) : (l.filter fun h => h.key ≠ other).filter
      (fun h => !hidden h.key) = l.filter fun h => !hidden h.key := by
    rw [filter_filter]
    refine filter_congr fun h _ => ?_
    by_cases heq : h.key = other
    · simp [heq, hother]
    · simp [heq]
  have hsame : (hs.filter fun h => !hidden h.key) = hs'.filter fun h => !hidden h.key := by
    rw [← hseen hs, hfilter, hseen hs']
  have halike : Alike maxActions hidden P P' :=
    Lib.run_unwound (alike_equivalence maxActions hidden)
      (fun _ h _ hhigh hs => alike_of_hidden hnames (by simpa using hhigh) hs)
      (fun _ h _ _ _ hP hlow hs hs' => alike_of_alike (h := h) hP (by simpa using hlow) hs hs')
      ((alike_equivalence maxActions hidden).refl _) hsame hrun hrun'
  have hdecided (Q : Process) : Q.decided key =
      ((Q.decisions.filter fun d => !hidden d.1).filter fun d => d.1 = key).map Prod.snd := by
    rw [filter_filter]
    refine congrArg _ (filter_congr fun d _ => ?_)
    by_cases heq : d.1 = key
    · simp [heq, hkey]
    · simp [heq]
  rw [hdecided P, hdecided P', halike.decisions]

end

/-! ### Claws of one name -/

section

variable {L : Libs} {ttl : Int32} {maxActions : ℤ} {memory : Memory} {claw : String} {now : Time}
  {P : Process} {key other : Key}

theorem collectSignals_killed : collectSignals [killed] = [killedSignal] := by
  decide +kernel

theorem deduplicateSignals_killed :
    deduplicateSignals claw [] [killedSignal] = [killedSignal] :=
  rfl

theorem plan_killed (hmax : 0 < maxActions) (hfresh : memory.part claw = Memory.part {} claw) :
    (plan maxActions memory [] (Look.killed claw [] now).sight).1 =
        [.autoExecute killedSignal oomRule.toRule ""] ∧
      matched maxActions memory [] (Look.killed claw [] now).sight = some oomRule := by
  have hlimited : isRateLimited maxActions {} claw now = false := by
    simp [isRateLimited, Memory.recent, hmax]
  have hmatch : matchHighestPriority (Memory.forget {} claw now) claw (fun _ _ => now)
      defaultEngineRules [killedSignal] = some (killedSignal, oomRule) :=
    rfl
  have hsight : memory.part (Look.killed claw [] now).sight.claw = Memory.part {} claw := hfresh
  obtain ⟨hjobs, hmatched, -⟩ := plan_congr maxActions [] hsight
  rw [hjobs, hmatched]
  simp [plan, matched, Look.killed, collectSignals_killed, deduplicateSignals_killed, hlimited,
    hmatch]

theorem plan_killed_cooling (hlast : memory.cooldowns claw oomRule.id = some now) :
    (plan maxActions memory [] (Look.killed claw [] now).sight).1 = [.escalate killedSignal] := by
  have hoom : ruleMatches (memory.forget claw now) claw now oomRule killedSignal = false := by
    have hpos : 0 < oomRule.cooldown := by decide
    simp [ruleMatches, Memory.forget, hlast, hpos]
  have hrules : ∀ p ∈ defaultEngineRules.zipIdx,
      ruleMatches (memory.forget claw now) claw now p.1 killedSignal = false := by
    simp only [defaultEngineRules, zipIdx_cons, forall_mem_cons]
    exact ⟨hoom, if_pos (by decide), if_pos (by decide), forall_mem_nil _⟩
  have hfirst : firstMatch (memory.forget claw now) claw (fun _ => now) defaultEngineRules
      killedSignal = none := by
    have hnone := find?_eq_none.mpr fun p hp => Bool.eq_false_iff.mp (hrules p hp)
    exact congrArg (Option.map Prod.fst) hnone
  have hmatch : matchHighestPriority (memory.forget claw now) claw (fun _ _ => now)
      defaultEngineRules [killedSignal] = none := by
    simp [matchHighestPriority, hfirst]
  simp [plan, Look.killed, collectSignals_killed, deduplicateSignals_killed, hmatch]

variable {s : Shared} {call next : Call} {choice : Choice}

theorem processStep_step {rule : Option EngineRule} {written : Option Time} {e : Effect Shared Call}
    (hactive : P.active = some ⟨key, call, rule, written, false⟩) (hapi : P.api key = s)
    (hcall : callStep L ttl s call choice = some e) (hdecides : choice.decides = false)
    (htime : P.clock ≤ choice.time P.clock) :
    processStep L ttl maxActions P (.step key choice) =
      some { P with
        api := update P.api key e.shared
        active := Active.after s ⟨key, call, rule, written, false⟩ choice e.next
        clock := choice.time P.clock
        remedies := P.remedies ++
          ((Active.writes ⟨key, call, rule, written, false⟩ choice).bind fun now =>
            rule.map fun rule => ⟨key, rule, now⟩).toList } := by
  unfold processStep
  rw [hactive]
  dsimp only
  rw [if_pos ⟨rfl, rfl, hdecides, htime⟩, hapi, hcall, Option.map_some]

theorem Active.after_of_ne {a : Active} (hnext : next ≠ .done) :
    a.after s choice next =
      some { a with
        call := next
        written := (a.writes choice).or a.written
        owes := a.audits s choice } :=
  if_neg hnext

theorem processStep_reads (hactive : P.active = some ⟨key, call, none, none, false⟩)
    (hcall : callStep L ttl (P.api key) call choice = goOn (P.api key) next)
    (hdecides : choice.decides = false) (htime : choice.time P.clock = P.clock)
    (hnext : next ≠ .done) (hwrites : Active.writes ⟨key, call, none, none, false⟩ choice = none)
    (haudits : Active.audits (P.api key) ⟨key, call, none, none, false⟩ choice = false) :
    processStep L ttl maxActions P (.step key choice) =
      some { P with active := some ⟨key, next, none, none, false⟩ } := by
  rw [processStep_step hactive rfl hcall hdecides htime.ge, Active.after_of_ne hnext, hwrites,
    haudits, htime]
  simp

/-- The process after a `Reconcile` up to the jobs. -/
def Process.looked (maxActions : ℤ) (P : Process) (key : Key) (now : Time) : Process :=
  let sight := (Look.killed key.name [] now).sight
  let jobs := (plan maxActions P.memory [] sight).1
  { P with
    memory := (plan maxActions P.memory [] sight).2
    active := some
      { key := key
        call := .remediate key.name ((P.api key).slots key.name) jobs
        rule := matched maxActions P.memory [] sight }
    clock := now
    decisions := P.decisions ++ [(key, jobs)] }

theorem run_looks (hactive : P.active = none) (hclock : P.clock ≤ now) :
    run (processStep L ttl maxActions) P (looks key [] now) =
      some (P.looked maxActions key now) := by
  let at_ (call : Call) : Process := { P with active := some ⟨key, call, none, none, false⟩ }
  let slot := (P.api key).slots key.name
  have hstart : processStep L ttl maxActions P (.reconcile key) =
      some (at_ (.listApproved key.name slot)) := by
    simp only [processStep, hactive]
    rfl
  have hlist : processStep L ttl maxActions (at_ (.listApproved key.name slot))
      (.step key (.listed [])) = some (at_ (.writeApproved key.name slot [])) :=
    processStep_reads rfl rfl rfl rfl (by simp) rfl rfl
  have hnext : processStep L ttl maxActions (at_ (.writeApproved key.name slot []))
      (.step key .go) = some (at_ (.listExpired key.name slot)) :=
    processStep_reads rfl rfl rfl rfl (by simp) rfl rfl
  have hlist' : processStep L ttl maxActions (at_ (.listExpired key.name slot))
      (.step key (.listed [])) = some (at_ (.deleteExpired key.name slot [])) :=
    processStep_reads rfl rfl rfl rfl (by simp) rfl rfl
  have hnext' : processStep L ttl maxActions (at_ (.deleteExpired key.name slot []))
      (.step key .go) = some (at_ (.collectSignals key.name slot)) :=
    processStep_reads rfl rfl rfl rfl (by simp) rfl rfl
  simp only [looks, map_nil, cons_append, nil_append, run, hstart,
    hlist, hnext, hlist', hnext', Option.bind_some]
  have hlook : processStep L ttl maxActions (at_ (.collectSignals key.name slot))
      (.look key (.killed key.name [] now)) = _ := if_pos ⟨rfl, rfl, hclock⟩
  rw [hlook]
  rfl

theorem processStep_call (maxActions : ℤ) {s' : Shared} {rule : Option EngineRule}
    {written : Option Time} {ok : Bool}
    (hactive : P.active = some ⟨key, call, rule, written, false⟩) (hapi : P.api key = s)
    (hclock : P.clock ≤ now) (hcall : callStep L ttl s call (.call ok now) = goOn s' next)
    (hnext : next ≠ .done) :
    ∃ Q, processStep L ttl maxActions P (.step key (.call ok now)) = some Q ∧
      Q.active = some ⟨key, next, rule,
        (Active.writes ⟨key, call, rule, written, false⟩ (.call ok now)).or written,
        Active.audits s ⟨key, call, rule, written, false⟩ (.call ok now)⟩ ∧
      Q.api key = s' ∧ Q.clock = now ∧ Q.memory = P.memory ∧ Q.decisions = P.decisions :=
  ⟨_, processStep_step hactive hapi hcall rfl hclock, if_neg hnext, update_self .., rfl,
    rfl, rfl⟩

theorem run_remedy (L : Libs) (ttl : Int32) (maxActions : ℤ) {mine : Slot} {sig : Signal}
    {rule : EngineRule} {receipt : String} (hactive : P.active = some ⟨key, .remediate key.name mine
      [.autoExecute sig rule.toRule receipt], some rule, none, false⟩) (hclock : P.clock ≤ now) :
    ∃ Q, run (processStep L ttl maxActions) P (remedy key now) = some Q ∧
      Q.active = none ∧ Q.clock = now ∧ Q.decisions = P.decisions ∧
      Q.memory = (P.memory.recordAction key.name now).recordExecution key.name rule.id now := by
  let intentJSON := buildIntentJSON L rule.toRule now
  let patched := (P.api key).writeIntent key.name mine ⟨key.name, intentJSON, false⟩
  let new := newEscalation ttl key.name sig now
  let created : Shared := { patched.1 with escalations := patched.1.escalations.create new }
  let status : EscalationStatus :=
    { phase := .autoExecuted, matchedRule := rule.id, executedAction := intentJSON
      executedAt := some now, signetReceipt := receipt }
  let audit : Call := .audit key.name patched.2 sig rule.toRule intentJSON receipt []
  let mark : Call := .markNew key.name patched.2 (patched.1.escalations.created new) status
    [.escalate sig] []
  obtain ⟨updated, esc, hupdate⟩ := updateStatus_of_current (s := created)
    (Lib.Store.current_created patched.1.escalations new) status
  have hpatch : callStep L ttl (P.api key) (.remediate key.name mine
      [.autoExecute sig rule.toRule receipt]) (.call true now) = goOn patched.1 audit := rfl
  have hcreate : callStep L ttl patched.1 audit (.call true now) = goOn created mark := rfl
  have hmark : callStep L ttl created mark (.call true now) =
      goOn updated (.remediate key.name patched.2 []) := by
    simp only [mark, callStep, remediateStep, andThen]
    rw [hupdate]
  have haudits : Active.audits created ⟨key, mark, some rule, some now, false⟩ (.call true now) =
      true := by
    simp only [mark, Active.audits]
    rw [hupdate]
    rfl
  obtain ⟨P₁, hP₁, hactive₁, hapi₁, hclock₁, hmemory₁, hdecisions₁⟩ :=
    processStep_call maxActions hactive rfl hclock hpatch (by simp [audit])
  obtain ⟨P₂, hP₂, hactive₂, hapi₂, hclock₂, hmemory₂, hdecisions₂⟩ :=
    processStep_call maxActions hactive₁ hapi₁ hclock₁.le hcreate (by simp [mark])
  replace hactive₂ : P₂.active = some ⟨key, mark, some rule, some now, false⟩ := hactive₂
  obtain ⟨P₃, hP₃, hactive₃, -, hclock₃, hmemory₃, hdecisions₃⟩ :=
    processStep_call maxActions hactive₂ hapi₂ hclock₂.le hmark (by simp)
  rw [haudits] at hactive₃
  let P₄ : Process :=
    { P₃ with
      memory := (P₃.memory.recordAction key.name now).recordExecution key.name rule.id now
      active := some ⟨key, .remediate key.name patched.2 [], some rule, none, false⟩
      clock := now }
  have hP₄ : processStep L ttl maxActions P₃ (.record key now now) = some P₄ := by
    simp only [processStep, hactive₃]
    exact if_pos ⟨trivial, hclock₃.le, le_rfl⟩
  have hgo : callStep L ttl (P₄.api key) (.remediate key.name patched.2 []) .go =
      goOn (P₄.api key) .done := rfl
  refine ⟨_, run_cons.mpr ⟨P₁, hP₁, run_cons.mpr ⟨P₂, hP₂, run_cons.mpr ⟨P₃, hP₃,
    run_cons.mpr ⟨P₄, hP₄, run_cons.mpr ⟨_, processStep_step rfl rfl hgo rfl le_rfl, rfl⟩⟩⟩⟩⟩,
    rfl, rfl, ?_, ?_⟩
  · rw [← hdecisions₁, ← hdecisions₂, ← hdecisions₃]
  · rw [← hmemory₁, ← hmemory₂, ← hmemory₃]

theorem decided_looked : (P.looked maxActions key now).decided key = P.decided key ++
    [(plan maxActions P.memory [] (Look.killed key.name [] now).sight).1] := by
  simp [Process.decided, Process.looked]

theorem filter_of_key {l : List Happening} (hl : ∀ h ∈ l, h.key = other) :
    (l.filter fun h => h.key ≠ other) = [] := by
  rw [filter_eq_nil_iff]
  intro h hh
  simpa using hl h hh

theorem key_of_mem_looks {h : Happening} (hh : h ∈ looks key [] now) : h.key = key := by
  simp only [looks, map_nil, mem_append, mem_cons, not_mem_nil, or_false] at hh
  rcases hh with (rfl | rfl | rfl | rfl) | rfl | rfl <;> rfl

theorem key_of_mem_remedy {h : Happening} (hh : h ∈ remedy key now) : h.key = key := by
  simp only [remedy, mem_cons, not_mem_nil, or_false] at hh
  rcases hh with rfl | rfl | rfl | rfl | rfl <;> rfl

/-- **A Claw of the same name interferes**: after an intent for `other` the rule is in its cooldown
for `key`, too. -/
theorem not_nonInterfering_of_name (hmax : 0 < maxActions) (hne : key ≠ other)
    (hname : key.name = other.name) : ¬ NonInterfering L ttl maxActions key other := by
  intro hnon
  let P₁ := (Process.start 0).looked maxActions other 0
  have hactive₁ : P₁.active = some ⟨other, .remediate other.name {}
      [.autoExecute killedSignal oomRule.toRule ""], some oomRule, none, false⟩ := by
    simp only [P₁, Process.looked, Process.start]
    rw [(plan_killed hmax rfl).1, (plan_killed hmax rfl).2]
  have hclock₁ : P₁.clock ≤ 0 := le_rfl
  obtain ⟨P₂, hrun₂, hactive₂, hclock₂, hdecisions₂, hmemory₂⟩ :=
    run_remedy L ttl maxActions hactive₁ hclock₁
  have hlast : P₂.memory.cooldowns key.name oomRule.id = some 0 := by
    rw [hmemory₂, hname]
    simp [Memory.recordExecution]
  have hrun : run (processStep L ttl maxActions) (Process.start 0)
      (looks other [] 0 ++ remedy other 0 ++ looks key [] 0) =
        some (P₂.looked maxActions key 0) :=
    run_append.mpr ⟨P₂, run_append.mpr ⟨P₁, run_looks rfl le_rfl, hrun₂⟩,
      run_looks hactive₂ hclock₂.le⟩
  have hfilter : ((looks other [] 0 ++ remedy other 0 ++ looks key [] 0).filter fun h =>
      h.key ≠ other) = (looks key [] 0).filter fun h => h.key ≠ other := by
    rw [filter_append, filter_append, filter_of_key fun _ => key_of_mem_looks,
      filter_of_key fun _ => key_of_mem_remedy]
    rfl
  have hnothing : P₂.decided key = [] := by
    have hother : other ≠ key := hne.symm
    rw [Process.decided, hdecisions₂]
    simp [P₁, Process.looked, Process.start, hother]
  have hafter : (P₂.looked maxActions key 0).decided key = [[.escalate killedSignal]] := by
    rw [decided_looked, hnothing, plan_killed_cooling hlast]
    rfl
  have halone : ((Process.start 0).looked maxActions key 0).decided key =
      [[.autoExecute killedSignal oomRule.toRule ""]] := by
    rw [decided_looked]
    exact congrArg (fun jobs => [jobs]) (plan_killed hmax rfl).1
  have hrun' : run (processStep L ttl maxActions) (Process.start 0) (looks key [] 0) =
      some ((Process.start 0).looked maxActions key 0) :=
    run_looks rfl le_rfl
  have hsame := hnon 0 _ _ _ _ hrun hrun' hfilter
  rw [hafter, halone] at hsame
  cases hsame

end

/-- **The name decides.**  Two Claws do not interfere exactly if their names differ, in whatever
namespaces they are, or if the controller is not to act at all. -/
theorem nonInterfering_iff (L : Libs) (ttl : Int32) (maxActions : ℤ) (key other : Key)
    (hne : key ≠ other) :
    NonInterfering L ttl maxActions key other ↔ key.name ≠ other.name ∨ maxActions ≤ 0 := by
  constructor
  · intro hnon
    by_contra hcontra
    obtain ⟨hname, hmax⟩ := not_or.mp hcontra
    exact not_nonInterfering_of_name (not_le.mp hmax) hne (not_not.mp hname) hnon
  · rintro (hname | hmax)
    · let hidden (key : Key) : Bool := key.name = other.name
      have hnames (key key' : Key) (heq : key.name = key'.name) : hidden key = hidden key' := by
        simp only [hidden, heq]
      exact nonInterfering_of_hidden (fun _ => hnames) (decide_eq_true rfl)
        (decide_eq_false hname)
    · let hidden (key : Key) : Bool := key = other
      have hnames (hpos : 0 < maxActions) (key key' : Key) (_ : key.name = key'.name) :
          hidden key = hidden key' :=
        absurd hpos (not_lt.mpr hmax)
      exact nonInterfering_of_hidden hnames (decide_eq_true rfl) (decide_eq_false hne)

/-- Two Claws of one namespace. -/
theorem nonInterfering_neighbours :
    (⟨"team-a", "agent"⟩ : Key) ≠ ⟨"team-a", "worker"⟩ ∧
    NonInterfering producerLibs 3600 5 ⟨"team-a", "agent"⟩ ⟨"team-a", "worker"⟩ :=
  ⟨by decide, (nonInterfering_iff producerLibs 3600 5 _ _ (by decide)).mpr (.inl (by decide))⟩

def teamA : Key := ⟨"team-a", "agent"⟩

/-- A Claw of the same name in another namespace. -/
def teamB : Key := ⟨"team-b", "agent"⟩

/-- **What was done for one Claw is not done for another one.**  Both have a pod that was killed
twice.  Alone, `team-b/agent` gets its memory raised; after an intent for `team-a/agent` its signal
is escalated. -/
theorem decides_differently :
    teamB ≠ teamA ∧
    ((looks teamA [] 0 ++ remedy teamA 0 ++ looks teamB [] (seconds 60)).filter fun h =>
      h.key ≠ teamA) = (looks teamB [] (seconds 60)).filter (fun h => h.key ≠ teamA) ∧
    ((run (processStep producerLibs 3600 5) (Process.start 0) (looks teamB [] (seconds 60))).map
      fun P => P.decided teamB) = some [[.autoExecute killedSignal oomBumpMemory ""]] ∧
    ((run (processStep producerLibs 3600 5) (Process.start 0)
      (looks teamA [] 0 ++ remedy teamA 0 ++ looks teamB [] (seconds 60))).map
      fun P => P.decided teamB) = some [[.escalate killedSignal]] := by
  exact ⟨by decide, rfl, by decide +kernel, by decide +kernel⟩

end K8s4Claw.Ops
