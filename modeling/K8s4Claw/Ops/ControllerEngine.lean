/-
# The engine of the controller

`K8s4Claw.Ops.Signals` has the rule engine as `ClawOpsController` uses it, on the signals of pods
and with the constants of the API in place of their texts.  It is the engine of
`K8s4Claw.Rules.Engine` at those texts.
-/

import K8s4Claw.Ops.Signals
import K8s4Claw.Ops.Stranded
import K8s4Claw.Rules.Engine

namespace K8s4Claw.Ops

open List

def ActionType.text : ActionType → String
  | .patchResource => "PatchResource"
  | .restartPod => "RestartPod"
  | .scaleReplicas => "ScaleReplicas"
  | .other text => text

/-- The signal of a pod as the engine gets it. -/
def Signal.engineSignal (sig : Signal) : Rules.Signal where
  type := sig.type.text
  severity := sig.severity.text
  count := sig.count
  message := sig.message
  source := "pod-status"

/-- A rule of the engine; a text that is none of the constants is taken to be empty. -/
def EngineRule.engineRule (rule : EngineRule) : Rules.Rule where
  id := rule.id
  criteria :=
    { signalType := (rule.criteria.signalType.map TriggerType.text).getD ""
      minSeverity := (rule.criteria.minSeverity.map Severity.text).getD ""
      minCount := rule.criteria.minCount }
  action := { type := rule.action.text, params := rule.params }
  cooldown := rule.cooldown

/-- The engine with what the controller remembers. -/
def Memory.engine (memory : Memory) (rules : List EngineRule) : Rules.Engine where
  rules := rules.map EngineRule.engineRule
  cooldowns := memory.cooldowns

theorem text_eq_iff (expected : Option TriggerType) (type : TriggerType) :
    (expected.map TriggerType.text).getD "" = type.text ↔ expected = some type := by
  cases expected with
  | none => cases type <;> decide
  | some expected => cases expected <;> cases type <;> decide

theorem severityRank_text (severity : Option Severity) :
    Rules.severityRank ((severity.map Severity.text).getD "") = severityRank severity := by
  cases severity with
  | none => rfl
  | some severity => cases severity <;> rfl

theorem severityRank_engineSignal (sig : Signal) :
    Rules.severityRank sig.engineSignal.severity = severityRank (some sig.severity) :=
  severityRank_text (some sig.severity)

section

variable {memory : Memory} {claw : String} {rules : List EngineRule}

theorem ruleMatches_engineRule (now : Time) (rule : EngineRule) (sig : Signal) :
    (memory.engine rules).ruleMatches claw now rule.engineRule sig.engineSignal =
      ruleMatches memory claw now rule sig := by
  have hmin : Rules.severityRank rule.engineRule.criteria.minSeverity = _ :=
    severityRank_text rule.criteria.minSeverity
  have htype : rule.engineRule.criteria.signalType = sig.engineSignal.type ↔ _ :=
    text_eq_iff rule.criteria.signalType sig.type
  simp only [Rules.Engine.ruleMatches, ruleMatches, severityRank_engineSignal, hmin, htype, ne_eq,
    Int.ofNat_lt]
  rfl

theorem firstRule_engineSignal (now : ℕ → Time) (sig : Signal) :
    (memory.engine rules).firstRule claw now sig.engineSignal =
      (firstMatch memory claw now rules sig).map EngineRule.engineRule := by
  have hzip : (memory.engine rules).rules.zipIdx = rules.zipIdx.map (Prod.map _ id) := zipIdx_map ..
  simp only [Rules.Engine.firstRule, firstMatch, hzip, find?_map, Option.map_map,
    Function.comp_def, Prod.map, ruleMatches_engineRule, id]

/-- The variables of the loop of the engine for the best match so far. -/
def engineBest : Option (Signal × EngineRule) → Rules.Engine.Best
  | none => {}
  | some (sig, rule) => ⟨sig.engineSignal, rule.engineRule, severityRank (some sig.severity)⟩

variable (now : ℕ → ℕ → Time)

theorem consider_engineBest (best : Option (Signal × EngineRule)) (p : Signal × ℕ) :
    (memory.engine rules).consider claw now (engineBest best) (p.1.engineSignal, p.2) =
      engineBest (match firstMatch memory claw (now p.2) rules p.1 with
        | some rule => higher best p.1 rule
        | none => best) := by
  simp only [Rules.Engine.consider, firstRule_engineSignal]
  cases firstMatch memory claw (now p.2) rules p.1 with
  | none => rfl
  | some =>
    simp only [Option.map_some, severityRank_engineSignal]
    cases best with
    | none => exact if_pos (show (-1 : ℤ) < _ by omega)
    | some =>
      simp only [engineBest, higher, gt_iff_lt, Int.ofNat_lt]
      split_ifs <;> rfl

/-- **The engine of the controller is the engine of the source** at the texts of its signals and
rules. -/
theorem matchHighestPriority_engineSignal (signals : List Signal) :
    (memory.engine rules).matchHighestPriority claw now (signals.map Signal.engineSignal) =
      match matchHighestPriority memory claw now rules signals with
      | some (sig, rule) => (sig.engineSignal, rule.engineRule, true)
      | none => ({}, {}, false) := by
  have hfold : (signals.map Signal.engineSignal).zipIdx.foldl
      ((memory.engine rules).consider claw now) {} =
        engineBest (matchHighestPriority memory claw now rules signals) := by
    rw [zipIdx_map, foldl_map]
    change foldl _ (engineBest none) _ = _
    exact foldl_hom _ (consider_engineBest now)
  simp only [Rules.Engine.matchHighestPriority, hfold]
  cases matchHighestPriority memory claw now rules signals <;> simp [engineBest]

end

end K8s4Claw.Ops
