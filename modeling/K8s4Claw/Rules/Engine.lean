/-
# The rule engine

`internal/rules/engine.go` with the texts of the source: signal types and severities are any
strings, a severity that is none of the four constants has rank zero, and the engine remembers for
each Claw and rule ID when it was executed last.  `time.Since` is read anew for every rule, so a
match has a family of times.  Times and durations are in nanoseconds.

`Match` and `MatchHighestPriority` share the search for the first rule that matches a signal; the
latter keeps the best signal so far, from rank -1 on, and is the running maximum of `Lib.FirstMax`
over the signals that match.  Executions are recorded in a table that holds the last one only; since
the clock does not go back, that is enough (`Covers`).

`K8s4Claw.Ops.ControllerEngine` says that the controller uses this engine.
-/

import K8s4Claw.Lib.FirstMax
import K8s4Claw.Lib.Run

namespace K8s4Claw.Rules

open List Option
open Lib (IsFirstMax Meets StrictWeak firstMax)

structure Signal where
  type : String := ""
  severity : String := ""
  count : Int32 := 0
  message : String := ""
  source : String := ""
  raw : List (String × String) := []
  deriving DecidableEq

structure ActionSpec where
  type : String := ""
  params : Option (List (String × String)) := none
  deriving DecidableEq

structure MatchCriteria where
  signalType : String := ""
  minSeverity : String := ""
  minCount : Int32 := 0
  deriving DecidableEq

structure Rule where
  id : String := ""
  criteria : MatchCriteria := {}
  action : ActionSpec := {}
  cooldown : ℤ := 0
  deriving DecidableEq

def severityRank (s : String) : ℤ :=
  match s with
  | "Critical" => 4
  | "High" => 3
  | "Medium" => 2
  | "Low" => 1
  | _ => 0

theorem severityRank_nonneg (s : String) : 0 ≤ severityRank s := by
  unfold severityRank
  split <;> decide

/-- The rules, and when each was executed last for a Claw. -/
structure Engine where
  rules : List Rule
  cooldowns : String → String → Option ℤ := fun _ _ => none

namespace Engine

def ruleMatches (e : Engine) (clawName : String) (now : ℤ) (rule : Rule) (sig : Signal) : Bool :=
  if rule.criteria.signalType ≠ sig.type then false
  else if severityRank sig.severity < severityRank rule.criteria.minSeverity then false
  else if sig.count < rule.criteria.minCount then false
  else if 0 < rule.cooldown then
    match e.cooldowns clawName rule.id with
    | some lastExec => !decide (now - lastExec < rule.cooldown)
    | none => true
  else true

section

variable (e : Engine) (clawName : String) (now : ℕ → ℤ) (sig : Signal)

/-- The first rule that matches; rule `j` is looked at at time `now j`. -/
def firstRule : Option Rule :=
  (e.rules.zipIdx.find? fun p => e.ruleMatches clawName (now p.2) p.1 sig).map Prod.fst

def match_ : Bool × Rule :=
  match e.firstRule clawName now sig with
  | some rule => (true, rule)
  | none => (false, {})

end

/-- The variables of the loop of `MatchHighestPriority`. -/
structure Best where
  sig : Signal := {}
  rule : Rule := {}
  rank : ℤ := -1

section

variable (e : Engine) (clawName : String) (now : ℕ → ℕ → ℤ)

/-- One round of the loop, for signal `p.2`. -/
def consider (best : Best) (p : Signal × ℕ) : Best :=
  match e.firstRule clawName (now p.2) p.1 with
  | none => best
  | some rule =>
      let rank := severityRank p.1.severity
      if rank > best.rank then ⟨p.1, rule, rank⟩ else best

/-- `MatchHighestPriority`; `now i j` is the time when rule `j` is looked at for signal `i`. -/
def matchHighestPriority (signals : List Signal) : Signal × Rule × Bool :=
  let best := signals.zipIdx.foldl (e.consider clawName now) {}
  (best.sig, best.rule, decide (best.rank ≥ 0))

end

def recordExecution (e : Engine) (clawName ruleID : String) (now : ℤ) : Engine :=
  { e with
    cooldowns := Function.update e.cooldowns clawName
      (Function.update (e.cooldowns clawName) ruleID (some now)) }

def setRules (e : Engine) (rules : List Rule) : Engine := { e with rules := rules }

variable {e : Engine} {clawName : String}

variable {now : ℕ → ℤ} {sig : Signal} {rule : Rule}

theorem match_eq_iff :
    e.match_ clawName now sig = (true, rule) ↔ e.firstRule clawName now sig = some rule := by
  unfold match_
  cases e.firstRule clawName now sig <;> simp

theorem match_fst_iff :
    (e.match_ clawName now sig).1 = true ↔ ∃ rule, e.firstRule clawName now sig = some rule := by
  unfold match_
  cases e.firstRule clawName now sig <;> simp

/-! ### The highest priority -/

/-- A signal of the list with its position, and the rule that matches it. -/
abbrev Entry := (Signal × ℕ) × Rule

/-- The first entry is of the greater rank. -/
def Outranks (a b : Entry) : Prop := severityRank b.1.1.severity < severityRank a.1.1.severity
  deriving Decidable

theorem strictWeak_outranks : StrictWeak Outranks :=
  StrictWeak.of_rank fun a : Entry => severityRank a.1.1.severity

/-- The entries of the signals that match, in the order of the list. -/
def entries (e : Engine) (clawName : String) (now : ℕ → ℕ → ℤ) (ps : List (Signal × ℕ)) :
    List Entry :=
  ps.filterMap fun p => (e.firstRule clawName (now p.2) p.1).map fun rule => (p, rule)

theorem mem_entries_iff {now : ℕ → ℕ → ℤ} {signals : List Signal} {i : ℕ} :
    ((sig, i), rule) ∈ e.entries clawName now signals.zipIdx ↔
      signals[i]? = some sig ∧ e.firstRule clawName (now i) sig = some rule := by
  simp only [entries, mem_filterMap, map_eq_some_iff, Prod.mk.injEq]
  constructor
  · rintro ⟨p, hp, rule', hrule, rfl, rfl⟩
    exact ⟨mem_zipIdx_iff_getElem?.mp hp, hrule⟩
  · rintro ⟨hsig, hrule⟩
    exact ⟨(sig, i), mem_zipIdx_iff_getElem?.mpr hsig, rule, hrule, rfl, rfl⟩

theorem pairwise_entries (now : ℕ → ℕ → ℤ) (signals : List Signal) :
    (e.entries clawName now signals.zipIdx).Pairwise fun a b => a.1.2 < b.1.2 := by
  have hzip : signals.zipIdx.Pairwise fun p q => p.2 < q.2 := by
    rw [← pairwise_map, zipIdx_map_snd]
    exact pairwise_lt_range'
  refine List.Pairwise.filterMap _ (fun p q hpq a ha b hb => ?_) hzip
  obtain ⟨_, -, rfl⟩ := map_eq_some_iff.mp ha
  obtain ⟨_, -, rfl⟩ := map_eq_some_iff.mp hb
  exact hpq

/-- The variables of the loop for the best entry so far. -/
def Best.of : Option Entry → Best
  | none => {}
  | some a => ⟨a.1.1, a.2, severityRank a.1.1.severity⟩

/-- The loop is the running maximum over the entries; every rank is above the one it starts with. -/
theorem foldl_consider (now : ℕ → ℕ → ℤ) (ps : List (Signal × ℕ)) (best : Option Entry) :
    ps.foldl (e.consider clawName now) (.of best) =
      .of ((e.entries clawName now ps).foldl (List.argAux Outranks) best) := by
  induction ps generalizing best with
  | nil => rfl
  | cons p ps ih =>
    rw [foldl_cons]
    cases hrule : e.firstRule clawName (now p.2) p.1 with
    | none =>
      have hnext : e.consider clawName now (.of best) p = .of best := by
        simp only [consider, hrule]
      have hskip : e.entries clawName now (p :: ps) = e.entries clawName now ps :=
        filterMap_cons_none (by simp [hrule])
      rw [hnext, ih, hskip]
    | some rule =>
      have hnext : e.consider clawName now (.of best) p =
          .of (argAux Outranks best (p, rule)) := by
        simp only [consider, hrule]
        cases best with
        | none =>
          have hrank := severityRank_nonneg p.1.severity
          have habove : severityRank p.1.severity > (Best.of none).rank := by
            change severityRank p.1.severity > -1
            omega
          rw [if_pos habove]
          rfl
        | some b =>
          change (if Outranks (p, rule) b then (⟨p.1, rule, _⟩ : Best) else .of (some b)) =
            .of (if Outranks (p, rule) b then some (p, rule) else some b)
          split_ifs <;> rfl
      have htake : e.entries clawName now (p :: ps) = (p, rule) :: e.entries clawName now ps :=
        filterMap_cons_some (by simp [hrule])
      rw [hnext, ih, htake, foldl_cons]

theorem matchHighestPriority_eq (now : ℕ → ℕ → ℤ) (signals : List Signal) :
    e.matchHighestPriority clawName now signals =
      match firstMax Outranks (e.entries clawName now signals.zipIdx) with
      | some a => (a.1.1, a.2, true)
      | none => ({}, {}, false) := by
  have hfold : signals.zipIdx.foldl (e.consider clawName now) {} =
      .of ((e.entries clawName now signals.zipIdx).foldl (argAux Outranks) none) :=
    foldl_consider now signals.zipIdx none
  simp only [matchHighestPriority]
  rw [hfold]
  change _ = match (e.entries clawName now signals.zipIdx).foldl (argAux Outranks) none with
    | some a => _
    | none => _
  cases (e.entries clawName now signals.zipIdx).foldl (argAux Outranks) none with
  | none => rfl
  | some => simp [Best.of, severityRank_nonneg]

/-- Signal `i` of the list matches the rule; no signal that matches has a greater rank, and none
before it has the same. -/
structure Highest (e : Engine) (clawName : String) (now : ℕ → ℕ → ℤ) (signals : List Signal)
    (i : ℕ) (sig : Signal) (rule : Rule) : Prop where
  listed : signals[i]? = some sig
  matched : e.match_ clawName (now i) sig = (true, rule)
  greatest : ∀ j other, signals[j]? = some other → (e.match_ clawName (now j) other).1 = true →
    severityRank other.severity ≤ severityRank sig.severity
  first : ∀ j other, signals[j]? = some other → (e.match_ clawName (now j) other).1 = true →
    j < i → severityRank other.severity < severityRank sig.severity

theorem highest_of_isFirstMax {now : ℕ → ℕ → ℤ} {signals : List Signal} {a : Entry}
    (h : IsFirstMax Outranks (e.entries clawName now signals.zipIdx) a) :
    e.Highest clawName now signals a.1.2 a.1.1 a.2 := by
  obtain ⟨hlisted, hrule⟩ := mem_entries_iff.mp h.mem
  refine ⟨hlisted, match_eq_iff.mpr hrule, ?_, ?_⟩
  · intro j other hother hmatch
    obtain ⟨rule, hrule⟩ := match_fst_iff.mp hmatch
    exact not_lt.mp (h.not_better strictWeak_outranks (mem_entries_iff.mpr ⟨hother, hrule⟩))
  · intro j other hother hmatch hlt
    obtain ⟨rule, hrule⟩ := match_fst_iff.mp hmatch
    have hmem := mem_entries_iff.mpr ⟨hother, hrule⟩
    obtain ⟨before, after, hsplit, hbefore, -⟩ := h
    have hpairs : (e.entries clawName now signals.zipIdx).Pairwise fun a b => a.1.2 < b.1.2 :=
      pairwise_entries now signals
    rw [hsplit] at hmem hpairs
    rcases mem_append.mp hmem with hmem | hmem
    · exact hbefore _ hmem
    · -- what does not stand before `a` has no earlier position
      rcases mem_cons.mp hmem with rfl | hmem
      · exact absurd hlt (lt_irrefl _)
      · obtain ⟨hafter, -⟩ := pairwise_cons.mp (pairwise_append.mp hpairs).2.1
        exact absurd hlt (hafter _ hmem).not_gt

/-- **`MatchHighestPriority` reports a match iff `Match` succeeds for some signal, and returns the
first of those with the greatest rank, with its rule.** -/
theorem matchHighestPriority_spec (e : Engine) (clawName : String) (now : ℕ → ℕ → ℤ)
    (signals : List Signal) :
    ((e.matchHighestPriority clawName now signals).2.2 = true ↔
      ∃ i sig, signals[i]? = some sig ∧ (e.match_ clawName (now i) sig).1 = true) ∧
    ((e.matchHighestPriority clawName now signals).2.2 = true →
      ∃ i, e.Highest clawName now signals i (e.matchHighestPriority clawName now signals).1
        (e.matchHighestPriority clawName now signals).2.1) := by
  rw [matchHighestPriority_eq]
  cases hmax : firstMax Outranks (e.entries clawName now signals.zipIdx) with
  | none =>
    have hnil := Lib.firstMax_eq_none_iff.mp hmax
    refine ⟨⟨fun h => (by cases h), ?_⟩, fun h => (by cases h)⟩
    rintro ⟨i, sig, hsig, hmatch⟩
    obtain ⟨rule, hrule⟩ := match_fst_iff.mp hmatch
    have hmem := mem_entries_iff.mpr ⟨hsig, hrule⟩
    rw [hnil] at hmem
    cases hmem
  | some a =>
    have hfirst := (Lib.firstMax_eq_some_iff strictWeak_outranks).mp hmax
    have hhighest := highest_of_isFirstMax hfirst
    refine ⟨⟨fun _ => ⟨a.1.2, a.1.1, hhighest.listed, ?_⟩, fun _ => rfl⟩,
      fun _ => ⟨a.1.2, hhighest⟩⟩
    rw [hhighest.matched]

/-! ### Cooldowns -/

theorem le_of_ruleMatches {now last : ℤ} (h : e.ruleMatches clawName now rule sig = true)
    (hpos : 0 < rule.cooldown) (hlast : e.cooldowns clawName rule.id = some last) :
    last + rule.cooldown ≤ now := by
  unfold ruleMatches at h
  split_ifs at h
  simp only [hlast, Bool.not_eq_true', decide_eq_false_iff_not] at h
  omega

theorem exists_ruleMatches_of_match (h : e.match_ clawName now sig = (true, rule)) :
    ∃ j, e.ruleMatches clawName (now j) rule sig = true := by
  obtain ⟨p, hfind, rfl⟩ := map_eq_some_iff.mp (match_eq_iff.mp h)
  have hmatch := find?_some hfind
  exact ⟨p.2, hmatch⟩

end Engine

/-- The times at which a call looks at the rules, all between its begin and its end. -/
structure Span where
  begins : ℤ
  ends : ℤ
  now : ℕ → ℕ → ℤ
  begins_le : ∀ i j, begins ≤ now i j
  le_ends : ∀ i j, now i j ≤ ends

/-- The calls of the engine; its lock lets no two of them overlap that do not only read. -/
inductive Call
  | match_ (clawName : String) (sig : Signal) (span : Span)
  | matchHighestPriority (clawName : String) (signals : List Signal) (span : Span)
  | recordExecution (clawName ruleID : String) (now : ℤ)
  | setRules (rules : List Rule)

structure Execution where
  clawName : String
  ruleID : String
  time : ℤ
  deriving DecidableEq

/-- The engine, the clock, and all executions that were recorded, which the engine does not keep. -/
structure History where
  engine : Engine
  clock : ℤ
  executions : List Execution := []

/-- A call, if the clock does not go back. -/
def step (s : History) : Call → Option History
  | .match_ _ _ span | .matchHighestPriority _ _ span =>
      if s.clock ≤ span.begins then some { s with clock := span.ends } else none
  | .recordExecution clawName ruleID now =>
      if s.clock ≤ now then
        some { engine := s.engine.recordExecution clawName ruleID now
               clock := now
               executions := s.executions ++ [⟨clawName, ruleID, now⟩] }
      else none
  | .setRules rules => some { s with engine := s.engine.setRules rules }

/-- The Claw, the rule that a call returns for it, and when it returns. -/
def Call.returns (e : Engine) : Call → Option (String × Rule × ℤ)
  | .match_ clawName sig span =>
      match e.match_ clawName (span.now 0) sig with
      | (true, rule) => some (clawName, rule, span.ends)
      | (false, _) => none
  | .matchHighestPriority clawName signals span =>
      match e.matchHighestPriority clawName span.now signals with
      | (_, rule, true) => some (clawName, rule, span.ends)
      | (_, _, false) => none
  | .recordExecution _ _ _ | .setRules _ => none

/-- A call that takes place returns no rule that was executed for the Claw within its cooldown. -/
def Rested (s : History) (call : Call) : Prop :=
  (step s call).isSome = true →
    ∀ clawName rule now, call.returns s.engine = some (clawName, rule, now) →
      ∀ x ∈ s.executions, x.clawName = clawName → x.ruleID = rule.id →
        x.time + rule.cooldown ≤ now

/-- The table has for every execution that one or a later one, and none is in the future. -/
structure Covers (s : History) : Prop where
  last : ∀ x ∈ s.executions,
    ∃ last, s.engine.cooldowns x.clawName x.ruleID = some last ∧ x.time ≤ last
  past : ∀ x ∈ s.executions, x.time ≤ s.clock

theorem Covers.le_of_ruleMatches {s : History} (h : Covers s) {x : Execution}
    (hx : x ∈ s.executions) {rule : Rule} (hid : x.ruleID = rule.id) {now : ℤ} {sig : Signal}
    (hclock : s.clock ≤ now) (hmatch : s.engine.ruleMatches x.clawName now rule sig = true) :
    x.time + rule.cooldown ≤ now := by
  by_cases hpos : 0 < rule.cooldown
  · obtain ⟨last, hlast, hle⟩ := h.last x hx
    rw [hid] at hlast
    have hcool := Engine.le_of_ruleMatches hmatch hpos hlast
    omega
  · have hpast := h.past x hx
    omega

/-- The rule that a call returns matched at a time between its begin and its end. -/
theorem exists_ruleMatches_of_returns {s s' : History} {call : Call} (hstep : step s call = some s')
    {clawName : String} {rule : Rule} {now : ℤ}
    (h : call.returns s.engine = some (clawName, rule, now)) :
    ∃ time sig, s.clock ≤ time ∧ time ≤ now ∧
      s.engine.ruleMatches clawName time rule sig = true := by
  cases call with
  | match_ _ sig span =>
    simp only [step] at hstep
    split_ifs at hstep with hclock
    simp only [Call.returns] at h
    split at h
    · next hmatch =>
      obtain ⟨rfl, rfl, rfl⟩ := by simpa using h
      obtain ⟨j, hj⟩ := Engine.exists_ruleMatches_of_match hmatch
      exact ⟨span.now 0 j, sig, hclock.trans (span.begins_le 0 j), span.le_ends 0 j, hj⟩
    · cases h
  | matchHighestPriority claw signals span =>
    simp only [step] at hstep
    split_ifs at hstep with hclock
    simp only [Call.returns] at h
    split at h
    · next sig _ hmatch =>
      obtain ⟨rfl, rfl, rfl⟩ := by simpa using h
      obtain ⟨i, hhighest⟩ := (s.engine.matchHighestPriority_spec claw span.now signals).2
        (by rw [hmatch])
      rw [hmatch] at hhighest
      obtain ⟨j, hj⟩ := Engine.exists_ruleMatches_of_match hhighest.matched
      exact ⟨span.now i j, sig, hclock.trans (span.begins_le i j), span.le_ends i j, hj⟩
    · cases h
  | recordExecution | setRules => cases h

theorem Covers.rested {s : History} (h : Covers s) (call : Call) : Rested s call := by
  intro hsome clawName rule now hreturns x hx hclaw hid
  obtain ⟨s', hstep⟩ := isSome_iff_exists.mp hsome
  obtain ⟨time, sig, hclock, hle, hmatch⟩ := exists_ruleMatches_of_returns hstep hreturns
  rw [← hclaw] at hmatch
  have hcool := h.le_of_ruleMatches hx hid hclock hmatch
  omega

theorem Covers.step {s s' : History} {call : Call} (h : Covers s)
    (hstep : Rules.step s call = some s') : Covers s' := by
  cases call with
  | match_ clawName sig span | matchHighestPriority clawName signals span =>
    simp only [Rules.step] at hstep
    split_ifs at hstep with hclock
    cases hstep
    refine ⟨h.last, fun x hx => ?_⟩
    exact (h.past x hx).trans (hclock.trans ((span.begins_le 0 0).trans (span.le_ends 0 0)))
  | recordExecution clawName ruleID now =>
    simp only [Rules.step] at hstep
    split_ifs at hstep with hclock
    cases hstep
    have hpast : ∀ x ∈ s.executions ++ [⟨clawName, ruleID, now⟩], x.time ≤ now := by
      intro x hx
      rcases mem_append.mp hx with hx | hx
      · exact (h.past x hx).trans hclock
      · rw [mem_singleton.mp hx]
    refine ⟨fun x hx => ?_, hpast⟩
    -- the entry that is overwritten is replaced by a later one
    by_cases hsame : x.clawName = clawName ∧ x.ruleID = ruleID
    · exact ⟨now, by simp [Engine.recordExecution, hsame], hpast x hx⟩
    · rcases mem_append.mp hx with hx | hx
      · obtain ⟨last, hlast, hle⟩ := h.last x hx
        refine ⟨last, ?_, hle⟩
        by_cases hclaw : x.clawName = clawName
        · have hid : x.ruleID ≠ ruleID := fun hid => hsame ⟨hclaw, hid⟩
          simp [Engine.recordExecution, ← hclaw, hid, hlast]
        · simp [Engine.recordExecution, hclaw, hlast]
      · rw [mem_singleton.mp hx] at hsame
        exact absurd ⟨rfl, rfl⟩ hsame
  | setRules =>
    cases hstep
    exact ⟨h.last, h.past⟩

/-- **Rule matching.**  `MatchHighestPriority` reports a match iff `Match` succeeds for some signal
and returns the first signal with the greatest rank among those for which it does, with the rule
that `Match` returns.  Over any run with a clock that does not go back, no call returns a rule that
was recorded for the Claw within the cooldown of the rule. -/
theorem rule_matching :
    (∀ (e : Engine) (clawName : String) (now : ℕ → ℕ → ℤ) (signals : List Signal),
      ((e.matchHighestPriority clawName now signals).2.2 = true ↔
        ∃ i sig, signals[i]? = some sig ∧ (e.match_ clawName (now i) sig).1 = true) ∧
      ((e.matchHighestPriority clawName now signals).2.2 = true →
        ∃ i, e.Highest clawName now signals i (e.matchHighestPriority clawName now signals).1
          (e.matchHighestPriority clawName now signals).2.1)) ∧
    ∀ (rules : List Rule) (start : ℤ) (calls : List Call),
      Meets step Rested { engine := { rules := rules }, clock := start } calls := by
  refine ⟨Engine.matchHighestPriority_spec, fun rules start calls => ?_⟩
  have hinit : Covers { engine := { rules := rules }, clock := start } := ⟨by simp, by simp⟩
  exact Lib.meets_of_meets (fun s call s' hs _ hstep => hs.step hstep)
    (fun s call hs _ => hs.rested call) hinit Lib.meets_true

end K8s4Claw.Rules
