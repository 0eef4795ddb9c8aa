/-
# The controller process

One process of `ClawOpsController` (`internal/controller/clawops_controller.go`) with the Claws of
all namespaces.  `SetupWithManager` leaves the number of workers at one, so the process handles one
`Reconcile` after the other.  A `Reconcile` is the call of `K8s4Claw.Ops.System`, which may fail at
every API call; what it does about signals is the `plan` of `K8s4Claw.Ops.Signals`, with what the
process remembers.  `autoExecute` writes the intent first and then the audit record, in two calls;
`recordAction` and `RecordExecution` come after these.

For each Claw the model has what the API server stores for it: its annotations and the escalations
that name it.  In between the rest of the world may change what is stored in any way.  The clock of
the process does not go back.  Its memory is by the name of the Claw, without the namespace.

Ghost state, not in the source: the intents that `autoExecute` has written (`remedies`) and what was
decided about signals (`decisions`).
-/

import K8s4Claw.Ops.Signals

namespace K8s4Claw.Ops

open Function
open Lib (Copy Effect)

/-- The namespace and the name of a Claw. -/
structure Key where
  ns : String
  name : String
  deriving DecidableEq

/-- The `Reconcile` in progress. -/
structure Active where
  key : Key
  call : Call
  /-- The rule that the engine picked. -/
  rule : Option EngineRule := none
  /-- When the intent was written, until it is recorded. -/
  written : Option Time := none
  /-- The status of the audit record is written, and `recordAction` comes next. -/
  owes : Bool := false
  deriving DecidableEq

/-- An intent that `autoExecute` wrote. -/
structure Remedy where
  key : Key
  rule : EngineRule
  writtenAt : Time
  deriving DecidableEq

structure Process where
  api : Key → Shared := fun _ => {}
  memory : Memory := {}
  active : Option Active := none
  clock : Time
  remedies : List Remedy := []
  decisions : List (Key × List Job) := []

/-- The process as it starts. -/
def Process.start (now : Time) : Process := { clock := now }

/-- Steps 3 to 6 of a `Reconcile`: what it sees, the escalations listed for `deduplicateSignals`,
`none` if that fails, and when it is done with the memory.  The times are in order. -/
structure Look where
  sight : Sight
  listed : Option (List (ℕ × ℕ))
  until_ : Time
  limited_le : sight.limitedAt ≤ until_
  limited_le_matched : ∀ i j, sight.limitedAt ≤ sight.matchedAt i j
  matched_le : ∀ i j, sight.matchedAt i j ≤ until_

/-- What happens, each for a Claw. -/
inductive Happening
  /-- The `Get` of a `Reconcile` returns the Claw. -/
  | reconcile (key : Key)
  /-- A step of a `Reconcile` that does not look at the memory. -/
  | step (key : Key) (choice : Choice)
  | look (key : Key) (l : Look)
  /-- `recordAction` and `RecordExecution`. -/
  | record (key : Key) (acted executed : Time)
  /-- The rest of the world changes what is stored. -/
  | world (key : Key) (s : Shared)

def Happening.key : Happening → Key
  | .reconcile key | .step key _ | .look key _ | .record key _ _ | .world key _ => key

/-- The time of an API call; the other steps are made at the time of the clock. -/
def Choice.time (clock : Time) : Choice → Time
  | .call _ now => now
  | _ => clock

/-- The jobs are decided by a `look`. -/
def Choice.decides : Choice → Bool
  | .jobs _ => true
  | _ => false

/-- The rule that `MatchHighestPriority` returns, if `plan` gets there. -/
def matched (maxActions : ℤ) (memory : Memory) (listed : List (Copy Escalation)) (sight : Sight) :
    Option EngineRule :=
  let signals := deduplicateSignals sight.claw listed (collectSignals sight.pods)
  if signals = [] then none
  else if isRateLimited maxActions memory sight.claw sight.limitedAt then none
  else
    (matchHighestPriority (memory.forget sight.claw sight.limitedAt) sight.claw sight.matchedAt
      sight.rules signals).map Prod.snd

namespace Active

/-- When the step writes an intent of the rule engine. -/
def writes (a : Active) : Choice → Option Time
  | .call true now =>
      match a.call with
      | .remediate _ _ (.autoExecute _ _ _ :: _) => some now
      | _ => none
  | _ => none

/-- The step writes the status of the audit record. -/
def audits (s : Shared) (a : Active) : Choice → Bool
  | .call ok _ =>
      match a.call with
      | .markNew _ _ esc status _ _ =>
          status.phase = .autoExecuted && (s.updateStatus ok esc status).isSome
      | _ => false
  | _ => false

/-- The `Reconcile` after a step that leads to `next`. -/
def after (s : Shared) (a : Active) (choice : Choice) (next : Call) : Option Active :=
  if next = .done then none
  else
    some { a with
      call := next
      written := (a.writes choice).or a.written
      owes := a.audits s choice }

end Active

section

variable (L : Libs) (ttl : Int32) (maxActions : ℤ)

/-- What is listed for `deduplicateSignals`; if that fails, nothing is dropped. -/
def Look.copies (l : Look) (s : Shared) : List (Copy Escalation) := (l.listed.map s.list).getD []

def processStep (P : Process) : Happening → Option Process
  | .reconcile key =>
      match P.active with
      | none =>
          some { P with
            active := some
              { key := key, call := .listApproved key.name ((P.api key).slots key.name) } }
      | some _ => none
  | .step key choice =>
      match P.active with
      | none => none
      | some a =>
          if a.key = key ∧ a.owes = false ∧ choice.decides = false ∧
              P.clock ≤ choice.time P.clock then
            (callStep L ttl (P.api key) a.call choice).map fun e =>
              { P with
                api := update P.api key e.shared
                active := a.after (P.api key) choice e.next
                clock := choice.time P.clock
                remedies := P.remedies ++ ((a.writes choice).bind fun now =>
                  a.rule.map fun rule => ⟨key, rule, now⟩).toList }
          else none
  | .look key l =>
      match P.active with
      | some ⟨key', .collectSignals claw mine, _, written, false⟩ =>
          if key' = key ∧ l.sight.claw = key.name ∧ P.clock ≤ l.sight.limitedAt then
            let (jobs, memory) := plan maxActions P.memory (l.copies (P.api key)) l.sight
            some { P with
              memory := memory
              active := some
                { key := key
                  call := .remediate claw mine jobs
                  rule := matched maxActions P.memory (l.copies (P.api key)) l.sight
                  written := written }
              clock := l.until_
              decisions := P.decisions ++ [(key, jobs)] }
          else none
      | _ => none
  | .record key acted executed =>
      match P.active with
      | some ⟨key', call, some rule, _, true⟩ =>
          if key' = key ∧ P.clock ≤ acted ∧ acted ≤ executed then
            some { P with
              memory :=
                (P.memory.recordAction key.name acted).recordExecution key.name rule.id executed
              active := some { key := key, call := call, rule := some rule }
              clock := executed }
          else none
      | _ => none
  | .world key s => some { P with api := update P.api key s }

end

/-! ### A Claw with a pod that was killed -/

/-- A pod killed twice for its memory. -/
def killed : Pod where
  name := "worker-0"
  containerStatuses := [⟨"runtime", 2, some "OOMKilled", none⟩]

def killedSignal : Signal :=
  ⟨.oomKilled, .high, 2, "Container runtime OOMKilled (exit 137), restarts: 2"⟩

/-- The built-in rule for it. -/
def oomRule : EngineRule := ⟨oomBumpMemory, ⟨some .oomKilled, some .high, 2⟩, seconds 1800⟩

/-- The pod is seen, and the built-in rules are asked, all at one time. -/
def Look.killed (claw : String) (reads : List (ℕ × ℕ)) (now : Time) : Look where
  sight :=
    { claw := claw
      pods := [Ops.killed]
      rules := defaultEngineRules
      receipt := ""
      limitedAt := now
      matchedAt := fun _ _ => now }
  listed := some reads
  until_ := now
  limited_le := le_rfl
  limited_le_matched := fun _ _ => le_rfl
  matched_le := fun _ _ => le_rfl

/-- A `Reconcile` up to the jobs, if `reads` are the escalations of the Claw, all of them finished
and none expired. -/
def looks (key : Key) (reads : List (ℕ × ℕ)) (now : Time) : List Happening :=
  [.reconcile key, .step key (.listed reads), .step key .go, .step key (.listed reads)] ++
    reads.map (fun _ => .step key (.call true now)) ++
    [.step key .go, .look key (.killed key.name reads now)]

/-- The rest of it, if all goes well: the intent and its audit record are written. -/
def remedy (key : Key) (now : Time) : List Happening :=
  [.step key (.call true now), .step key (.call true now), .step key (.call true now),
    .record key now now, .step key .go]

/-! ### What is decided -/

section

variable {maxActions : ℤ} {memory : Memory} {listed : List (Copy Escalation)} {sight : Sight}
  {claw : String} {rules : List EngineRule} {rule : EngineRule} {sig : Signal}

theorem ruleMatches_of_firstMatch {now : ℕ → Time}
    (h : firstMatch memory claw now rules sig = some rule) :
    ∃ j, ruleMatches memory claw (now j) rule sig = true := by
  obtain ⟨⟨rule', j⟩, hfind, rfl⟩ := Option.map_eq_some_iff.mp h
  have hj := List.find?_some hfind
  exact ⟨j, hj⟩

theorem higher_eq (best : Option (Signal × EngineRule)) (sig : Signal) (rule : EngineRule) :
    higher best sig rule = some (sig, rule) ∨ higher best sig rule = best := by
  cases best with
  | none => exact .inl rfl
  | some =>
    simp only [higher]
    split_ifs
    · exact .inl rfl
    · exact .inr rfl

/-- **What the engine returns matches**, at one of the times when it looked. -/
theorem ruleMatches_of_matchHighestPriority {now : ℕ → ℕ → Time} {signals : List Signal}
    (h : matchHighestPriority memory claw now rules signals = some (sig, rule)) :
    ∃ i j, ruleMatches memory claw (now i j) rule sig = true := by
  let Good (best : Option (Signal × EngineRule)) : Prop :=
    ∀ p ∈ best, ∃ i j, ruleMatches memory claw (now i j) p.2 p.1 = true
  have hall : Good (matchHighestPriority memory claw now rules signals) := by
    refine List.foldlRecOn _ _ (by intro p hp; cases hp) fun best hbest p _ => ?_
    dsimp only
    split
    · next rule' hmatch =>
      obtain ⟨j, hj⟩ := ruleMatches_of_firstMatch hmatch
      rcases higher_eq best p.1 rule' with heq | heq
      · rw [heq]
        rintro q hq
        cases hq
        exact ⟨p.2, j, hj⟩
      · rwa [heq]
    · exact hbest
  exact hall (sig, rule) h

theorem cooldown_le_of_ruleMatches {now last : Time}
    (h : ruleMatches memory claw now rule sig = true) (hpos : 0 < rule.cooldown)
    (hlast : memory.cooldowns claw rule.id = some last) : rule.cooldown ≤ now - last := by
  unfold ruleMatches at h
  split_ifs at h
  simpa [hlast] using h

/-- What `plan` can come to: the jobs, the rule that was picked, and the memory. -/
inductive Planned (maxActions : ℤ) (memory : Memory) (sight : Sight) :
    List Job → Option EngineRule → Memory → Prop
  | quiet : Planned maxActions memory sight [] none memory
  | escalates (signals : List Signal) :
      Planned maxActions memory sight (signals.map .escalate) none
        (memory.forget sight.claw sight.limitedAt)
  | acts (sig : Signal) (rule : EngineRule) (others : List Signal)
      (hlimited : isRateLimited maxActions memory sight.claw sight.limitedAt = false)
      (hcooled : 0 < rule.cooldown → ∀ last ∈ memory.cooldowns sight.claw rule.id,
        ∃ i j, rule.cooldown ≤ sight.matchedAt i j - last) :
      Planned maxActions memory sight
        (.autoExecute sig rule.toRule sight.receipt :: others.map .escalate) (some rule)
        (memory.forget sight.claw sight.limitedAt)

/-- **What is decided about the signals.** -/
theorem plan_planned :
    Planned maxActions memory sight (plan maxActions memory listed sight).1
      (matched maxActions memory listed sight) (plan maxActions memory listed sight).2 := by
  unfold plan matched
  dsimp only
  split_ifs with _ hlimited
  · exact .quiet
  · exact .escalates _
  · cases hmatch : matchHighestPriority (memory.forget sight.claw sight.limitedAt) sight.claw
        sight.matchedAt sight.rules
        (deduplicateSignals sight.claw listed (collectSignals sight.pods)) with
    | none => exact .escalates _
    | some p =>
      obtain ⟨sig, rule⟩ := p
      refine .acts sig rule _ (by simpa using hlimited) fun hpos last hlast => ?_
      obtain ⟨i, j, hij⟩ := ruleMatches_of_matchHighestPriority hmatch
      exact ⟨i, j, cooldown_le_of_ruleMatches hij hpos hlast⟩

end

/-! ### What can happen -/

/-- The happenings of the process. -/
inductive ProcessMove (L : Libs) (ttl : Int32) (maxActions : ℤ) (P : Process) :
    Happening → Process → Prop
  | reconcile (key : Key) (hactive : P.active = none) :
      ProcessMove L ttl maxActions P (.reconcile key)
        { P with
          active := some
            { key := key, call := .listApproved key.name ((P.api key).slots key.name) } }
  | step (key : Key) (choice : Choice) (a : Active) (e : Effect Shared Call)
      (hactive : P.active = some a) (hkey : a.key = key) (howes : a.owes = false)
      (hdecides : choice.decides = false) (htime : P.clock ≤ choice.time P.clock)
      (hcall : callStep L ttl (P.api key) a.call choice = some e) :
      ProcessMove L ttl maxActions P (.step key choice)
        { P with
          api := update P.api key e.shared
          active := a.after (P.api key) choice e.next
          clock := choice.time P.clock
          remedies := P.remedies ++ ((a.writes choice).bind fun now =>
            a.rule.map fun rule => ⟨key, rule, now⟩).toList }
  | look (key : Key) (claw : String) (mine : Slot) (rule : Option EngineRule)
      (written : Option Time) (l : Look)
      (hactive : P.active = some ⟨key, .collectSignals claw mine, rule, written, false⟩)
      (hname : l.sight.claw = key.name) (hclock : P.clock ≤ l.sight.limitedAt) :
      ProcessMove L ttl maxActions P (.look key l)
        { P with
          memory := (plan maxActions P.memory (l.copies (P.api key)) l.sight).2
          active := some
            { key := key
              call := .remediate claw mine
                (plan maxActions P.memory (l.copies (P.api key)) l.sight).1
              rule := matched maxActions P.memory (l.copies (P.api key)) l.sight
              written := written }
          clock := l.until_
          decisions := P.decisions ++
            [(key, (plan maxActions P.memory (l.copies (P.api key)) l.sight).1)] }
  | record (key : Key) (call : Call) (rule : EngineRule) (written : Option Time)
      (acted executed : Time) (hactive : P.active = some ⟨key, call, some rule, written, true⟩)
      (hclock : P.clock ≤ acted) (hexecuted : acted ≤ executed) :
      ProcessMove L ttl maxActions P (.record key acted executed)
        { P with
          memory :=
            (P.memory.recordAction key.name acted).recordExecution key.name rule.id executed
          active := some { key := key, call := call, rule := some rule }
          clock := executed }
  | world (key : Key) (s : Shared) :
      ProcessMove L ttl maxActions P (.world key s)
        { P with api := update P.api key s }

theorem processStep_move {L : Libs} {ttl : Int32} {maxActions : ℤ} {P Q : Process} {h : Happening}
    (hs : processStep L ttl maxActions P h = some Q) : ProcessMove L ttl maxActions P h Q := by
  cases h with
  | reconcile key =>
    simp only [processStep] at hs
    split at hs
    · next hactive =>
      cases hs
      exact .reconcile key hactive
    · cases hs
  | step key choice =>
    simp only [processStep] at hs
    split at hs
    · cases hs
    · next a hactive =>
      split_ifs at hs with hguard
      obtain ⟨hkey, howes, hdecides, htime⟩ := hguard
      obtain ⟨e, hcall, rfl⟩ := Option.map_eq_some_iff.mp hs
      exact .step key choice a e hactive hkey howes hdecides htime hcall
  | look _ l =>
    simp only [processStep] at hs
    split at hs
    · next key' claw mine rule written hactive =>
      split_ifs at hs with hguard
      obtain ⟨rfl, hname, hclock⟩ := hguard
      cases hs
      exact .look key' claw mine rule written l hactive hname hclock
    · cases hs
  | record _ acted executed =>
    simp only [processStep] at hs
    split at hs
    · next key' call rule written hactive =>
      split_ifs at hs with hguard
      obtain ⟨rfl, hclock, hexecuted⟩ := hguard
      cases hs
      exact .record key' call rule written acted executed hactive hclock hexecuted
    · cases hs
  | world key s =>
    cases hs
    exact .world key s

end K8s4Claw.Ops
