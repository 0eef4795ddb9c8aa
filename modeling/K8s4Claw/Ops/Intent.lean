/-
# Ops intents

`internal/controller/clawops_intent.go` and `internal/controller/claw_ops_intent_consumer.go`: an
ops intent is a JSON text in the annotation `ops-intent` of a Claw, and `ClawReconciler` executes it
if its generation exceeds the one in the annotation `ops-intent-gen`, then removes the first
annotation and raises the second, all in one merge patch.

A merge patch is made from two copies of the Claw, before and after, and has the fields in which
they differ: it overwrites those in the stored Claw and leaves the others (`Slot.patch`).

The annotation `ops-intent-gen` is written by `ClawReconciler` alone, as a decimal number, and is
that number here.  encoding/json and the quantities of Kubernetes are libraries (`Libs`).
-/

import Mathlib.Algebra.Ring.Int.Defs
import Mathlib.Algebra.Ring.Nat
import Mathlib.Data.Option.Basic

namespace K8s4Claw.Ops

open Option

/-- `OpsIntent`; the parameters are in the order of their keys, `none` for a nil map. -/
structure OpsIntent where
  action : String
  params : Option (List (String × String))
  generation : Int64
  source : String
  escalationRef : String := ""
  deriving DecidableEq

/-- What the intents use of encoding/json, strconv and the Kubernetes quantities. -/
structure Libs where
  marshal : OpsIntent → String
  unmarshal : String → Option OpsIntent
  Quantity : Type
  parseQuantity : String → Option Quantity
  /-- `strconv.ParseInt` in base 10 for 32 bits. -/
  parseInt32 : String → Option Int32

inductive IntentError
  | malformed
  | emptyAction
  | unknownAction (action : String)
  deriving DecidableEq

def allowedIntentActions : List String :=
  ["bump-memory", "bump-cpu", "restart-pod", "rollout-restart", "scale-replicas"]

/-- What `buildIntentPatch` makes of an intent. -/
inductive IntentPatch (Quantity : Type)
  | bumpMemory (limit : Quantity)
  | bumpCpu (limit : Quantity)
  | restartPod
  | rolloutRestart
  | scaleReplicas (replicas : Int32)

def maxReplicasLimit : Int32 := 10

/-- A parameter; `""` if it is not there. -/
def OpsIntent.param (intent : OpsIntent) (key : String) : String :=
  ((intent.params.getD []).lookup key).getD ""

/-- The annotations `ops-intent` and `ops-intent-gen` of a Claw. -/
structure Slot where
  opsIntent : Option String := none
  opsIntentGen : Option Int64 := none
  deriving DecidableEq

section

variable (L : Libs)

def validateIntent (raw : String) : Except IntentError OpsIntent :=
  match L.unmarshal raw with
  | none => .error .malformed
  | some intent =>
      if intent.action = "" then .error .emptyAction
      else if intent.action ∉ allowedIntentActions then .error (.unknownAction intent.action)
      else .ok intent

/-- `buildIntentPatch`; `none` for parameters it rejects. -/
def buildIntentPatch (intent : OpsIntent) : Option (IntentPatch L.Quantity) :=
  match intent.action with
  | "bump-memory" =>
      if intent.param "target" = "" then none
      else (L.parseQuantity (intent.param "target")).map .bumpMemory
  | "bump-cpu" =>
      if intent.param "target" = "" then none
      else (L.parseQuantity (intent.param "target")).map .bumpCpu
  | "restart-pod" => some .restartPod
  | "rollout-restart" => some .rolloutRestart
  | "scale-replicas" =>
      if intent.param "replicas" = "" then none
      else (L.parseInt32 (intent.param "replicas")).bind fun n =>
        if n < 1 ∨ n > maxReplicasLimit then none else some (.scaleReplicas n)
  | _ => none

end

namespace Slot

def currentIntentGen (slot : Slot) : Int64 := slot.opsIntentGen.getD 0

/-- `parseOpsIntent`: `.ok none` for no intent, or one that is not newer. -/
def parseOpsIntent (L : Libs) (slot : Slot) : Except IntentError (Option OpsIntent) :=
  match slot.opsIntent with
  | none | some "" => .ok none
  | some raw =>
      match validateIntent L raw with
      | .error e => .error e
      | .ok intent =>
          if intent.generation ≤ slot.currentIntentGen then .ok none else .ok (some intent)

def clearOpsIntentAnnotations (slot : Slot) (processedGen : Int64) : Slot where
  opsIntent := none
  opsIntentGen :=
    if processedGen > slot.currentIntentGen then some processedGen else slot.opsIntentGen

/-- The stored annotations after the merge patch from `base` to `changed`. -/
def patch (base changed stored : Slot) : Slot where
  opsIntent := if changed.opsIntent = base.opsIntent then stored.opsIntent else changed.opsIntent
  opsIntentGen :=
    if changed.opsIntentGen = base.opsIntentGen then stored.opsIntentGen
    else changed.opsIntentGen

/-- Write an intent into the annotation of an object. -/
def setIntent (slot : Slot) (intentJSON : String) : Slot :=
  { slot with opsIntent := some intentJSON }

/-- `consumeAndExecuteOpsIntent` up to its `Patch`: the annotations of the object then, and the
intent that was executed.  `applied` says whether `applyIntentPatch` went through; `none` is
returned where there is nothing to patch. -/
def consumeAndExecuteOpsIntent (L : Libs) (slot : Slot) (applied : Bool) :
    Option (Slot × Option OpsIntent) :=
  match slot.parseOpsIntent L with
  | .error _ => some (slot.clearOpsIntentAnnotations slot.currentIntentGen, none)
  | .ok none => none
  | .ok (some intent) =>
      match buildIntentPatch L intent with
      | none => some (slot.clearOpsIntentAnnotations intent.generation, none)
      | some _ =>
          some (slot.clearOpsIntentAnnotations intent.generation,
            if applied then some intent else none)

section

variable {L : Libs} {slot mine stored changed : Slot} {action : String} {applied : Bool}
  {intent : OpsIntent} {executed : Option OpsIntent}

theorem patch_setIntent (h : mine.opsIntent ≠ some action) :
    patch mine (mine.setIntent action) stored = stored.setIntent action := by
  simp [patch, setIntent, h.symm]

/-- If the copy has the intent already, there is no difference and nothing is written. -/
theorem opsIntent_patch_setIntent {raw : String}
    (h : (patch mine (mine.setIntent action) stored).opsIntent = some raw) :
    raw = action ∨ stored.opsIntent = some raw := by
  by_cases hsame : mine.opsIntent = some action
  · exact .inr (by simpa [patch, setIntent, hsame] using h)
  · rw [patch_setIntent hsame] at h
    exact .inl (some.inj h).symm

theorem parseOpsIntent_of_newer (hslot : slot.opsIntent = some action) (hne : action ≠ "")
    (hvalid : validateIntent L action = .ok intent)
    (hnewer : slot.currentIntentGen < intent.generation) :
    slot.parseOpsIntent L = .ok (some intent) := by
  unfold parseOpsIntent
  rw [hslot]
  split
  · next heq => cases heq
  · next heq => exact absurd (some.inj heq) hne
  · next heq =>
    cases heq
    rw [hvalid]
    exact if_neg (Int64.not_le.mpr hnewer)

theorem opsIntent_of_consume
    (h : slot.consumeAndExecuteOpsIntent L applied = some (changed, executed)) :
    changed.opsIntent = none := by
  unfold consumeAndExecuteOpsIntent at h
  split at h
  · obtain ⟨rfl, -⟩ := Prod.mk.inj (some.inj h)
    rfl
  · cases h
  · split at h
    · obtain ⟨rfl, -⟩ := Prod.mk.inj (some.inj h)
      rfl
    · obtain ⟨rfl, -⟩ := Prod.mk.inj (some.inj h)
      rfl

theorem opsIntent_patch_of_none {raw : String} (hchanged : changed.opsIntent = none)
    (h : (patch mine changed stored).opsIntent = some raw) : stored.opsIntent = some raw := by
  by_cases hmine : mine.opsIntent = none
  · simpa [patch, hchanged, hmine] using h
  · simp [patch, hchanged, Ne.symm hmine] at h

end

end Slot

end K8s4Claw.Ops
