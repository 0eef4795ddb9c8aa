/-
# Executing intents, call after call

`internal/controller/claw_ops_intent_consumer.go` with what it does to the Claw and its pods:
`ClawReconciler` calls `consumeAndExecuteOpsIntent` again and again on one Claw, and between the
calls anything may be written into the annotation `ops-intent`.  Each takes one of five exits: there
is no intent or it is not newer, it is malformed, its parameters are rejected, applying it fails, or
it is executed.  All but the first send a `Patch`, which may fail and then leaves the stored Claw as
it was.

Most actions change the copy of the Claw and take effect with the `Patch`; `restart-pod` deletes a
pod before it.  Ghost state, not in the source: what every call did (`log`) and the effects on the
cluster under the generations of their intents (`effects`).

The annotation `ops-intent-gen` is a text here, written by `strconv.FormatInt` and read by
`strconv.ParseInt`, and may begin as any text.  Read as a number it is the annotation of
`K8s4Claw.Ops.Intent` (`slot_consume`).
-/

import K8s4Claw.Lib.Decimal
import K8s4Claw.Lib.Run
import K8s4Claw.Ops.Intent

namespace K8s4Claw.Ops.Consumer

open Lib (Bytes intText parseInt parseNat)

/-- A 64-bit number, if it is in range. -/
def inRange (n : ℤ) : Option Int64 :=
  if -2 ^ 63 ≤ n ∧ n < 2 ^ 63 then some (Int64.ofInt n) else none

/-- `strconv.ParseInt` in base 10 for 64 bits. -/
def parseInt64 : Bytes → Option Int64
  | 43 :: b => (parseNat b).bind fun n => inRange n
  | b => (parseInt b).bind inRange

/-- `strconv.FormatInt` in base 10. -/
def formatInt (n : Int64) : Bytes := intText n.toInt

/-- A `ResourceList`, as far as it is not nil. -/
abbrev ResourceList (Q : Type) := List (String × Q)

/-- Set the quantity of a resource. -/
def ResourceList.set {Q : Type} (m : ResourceList Q) (name : String) (q : Q) : ResourceList Q :=
  (name, q) :: m.filter fun e => e.1 ≠ name

/-- `ResourceRequirements`. -/
structure Resources (Q : Type) where
  limits : Option (ResourceList Q) := none
  requests : Option (ResourceList Q) := none
  deriving DecidableEq

/-- What the consumer reads and changes of a Claw. -/
structure Claw (Q : Type) where
  opsIntent : Option String := none
  opsIntentGen : Option Bytes := none
  restartedAt : Option String := none
  resources : Option (Resources Q) := none
  replicas : Option Int32 := none
  deriving DecidableEq

structure Pod where
  name : String
  creationTimestamp : ℤ
  deriving DecidableEq

/-- What a call finds: the time as `restartedAt` has it, what listing the pods returns, and
whether the `Delete` and the `Patch` go through. -/
structure Env where
  stamp : String := ""
  pods : Option (List Pod) := some []
  deleteOk : Bool := true
  patchOk : Bool := true
  deriving DecidableEq

/-- What a call makes of the intent. -/
inductive Handled
  | idle
  | malformed (e : IntentError)
  | rejected (intent : OpsIntent)
  | failed (intent : OpsIntent)
  | executed (intent : OpsIntent)
  deriving DecidableEq

/-- What an intent does to the cluster. -/
inductive Effect
  | podDeleted (pod : Pod)
  | restarted (stamp : String)
  | specChanged
  deriving DecidableEq

namespace Claw

variable {Q : Type}

def currentIntentGen (claw : Claw Q) : Int64 := (claw.opsIntentGen.bind parseInt64).getD 0

/-- `parseOpsIntent`: `.ok none` for no intent, or one that is not newer. -/
def parseOpsIntent (L : Libs) (claw : Claw Q) : Except IntentError (Option OpsIntent) :=
  match claw.opsIntent with
  | none | some "" => .ok none
  | some raw =>
      match validateIntent L raw with
      | .error e => .error e
      | .ok intent =>
          let lastGen := (claw.opsIntentGen.bind parseInt64).getD 0
          if intent.generation ≤ lastGen then .ok none else .ok (some intent)

def clearOpsIntentAnnotations (claw : Claw Q) (processedGen : Int64) : Claw Q :=
  { claw with
    opsIntent := none
    opsIntentGen :=
      if processedGen > claw.currentIntentGen then some (formatInt processedGen)
      else claw.opsIntentGen }

def mutateRuntimeResources (claw : Claw Q) (mutate : Resources Q → Resources Q) : Claw Q :=
  { claw with resources := some (mutate (claw.resources.getD {})) }

end Claw

/-- `applyRestartPod`: the pod that was deleted, if there was one; `none` for an error. -/
def applyRestartPod (env : Env) : Option (Option Pod) :=
  match env.pods with
  | none => none
  | some [] => some none
  | some (pod :: pods) =>
      let oldest := pods.foldl
        (fun oldest p => if p.creationTimestamp < oldest.creationTimestamp then p else oldest) pod
      if env.deleteOk then some (some oldest) else none

section

variable (L : Libs) (cmp : L.Quantity → L.Quantity → Ordering)

/-- What `bump-memory` and `bump-cpu` do to the resource requirements. -/
def bumpLimit (name : String) (limit : L.Quantity) (res : Resources L.Quantity) :
    Resources L.Quantity :=
  let requests := res.requests.getD []
  { limits := some (ResourceList.set (res.limits.getD []) name limit)
    requests := some (match requests.lookup name with
      | some req => if cmp limit req = .lt then ResourceList.set requests name limit else requests
      | none => ResourceList.set requests name limit) }

/-- `applyIntentPatch`: the Claw then, and the pod that was deleted. -/
def applyIntentPatch (env : Env) (claw : Claw L.Quantity) :
    IntentPatch L.Quantity → Option (Claw L.Quantity × Option Pod)
  | .bumpMemory limit => some (claw.mutateRuntimeResources (bumpLimit L cmp "memory" limit), none)
  | .bumpCpu limit => some (claw.mutateRuntimeResources (bumpLimit L cmp "cpu" limit), none)
  | .scaleReplicas n => some ({ claw with replicas := some n }, none)
  | .rolloutRestart => some ({ claw with restartedAt := some env.stamp }, none)
  | .restartPod => (applyRestartPod env).map fun deleted => (claw, deleted)

/-- The effect that an intent has when its `Patch` goes through. -/
def patchEffect (env : Env) : IntentPatch L.Quantity → Option Effect
  | .bumpMemory _ | .bumpCpu _ | .scaleReplicas _ => some .specChanged
  | .rolloutRestart => some (.restarted env.stamp)
  | .restartPod => none

/-- A call up to its `Patch`: what it made of the intent, the Claw it is going to send, the pod it
has deleted and the effect that the `Patch` will have. -/
structure Attempt where
  handled : Handled
  changed : Claw L.Quantity
  deleted : Option Pod := none
  effect : Option Effect := none

/-- `consumeAndExecuteOpsIntent` up to its `Patch`. -/
def consumeAndExecuteOpsIntent (env : Env) (claw : Claw L.Quantity) : Attempt L :=
  match claw.parseOpsIntent L with
  | .error e => { handled := .malformed e
                  changed := claw.clearOpsIntentAnnotations claw.currentIntentGen }
  | .ok none => { handled := .idle, changed := claw }
  | .ok (some intent) =>
      match buildIntentPatch L intent with
      | none => { handled := .rejected intent
                  changed := claw.clearOpsIntentAnnotations intent.generation }
      | some patch =>
          match applyIntentPatch L cmp env claw patch with
          | none => { handled := .failed intent
                      changed := claw.clearOpsIntentAnnotations intent.generation }
          | some (applied, deleted) =>
              { handled := .executed intent
                changed := applied.clearOpsIntentAnnotations intent.generation
                deleted := deleted
                effect := patchEffect L env patch }

/-- What a call did, and whether its `Patch` went through. -/
structure Record where
  handled : Handled
  committed : Bool
  deriving DecidableEq

/-- The stored Claw, and the ghost state. -/
structure State where
  claw : Claw L.Quantity
  log : List Record := []
  effects : List (Int64 × Effect) := []

end

/-- The intent a call found. -/
def Handled.intent : Handled → Option OpsIntent
  | .idle | .malformed _ => none
  | .rejected intent | .failed intent | .executed intent => some intent

/-- Somebody writes the annotation, somebody changes the spec, or the consumer is called. -/
inductive Event (Q : Type)
  | write (opsIntent : Option String)
  | edit (resources : Option (Resources Q)) (replicas : Option Int32)
  | consume (env : Env)
  deriving DecidableEq

section

variable (L : Libs) (cmp : L.Quantity → L.Quantity → Ordering)

/-- The `Patch` of a call goes through. -/
def Attempt.committed {L : Libs} (a : Attempt L) (env : Env) : Bool :=
  a.handled ≠ .idle && env.patchOk

/-- The effects of a call, under the generation of its intent. -/
def Attempt.effects {L : Libs} (a : Attempt L) (committed : Bool) : List (Int64 × Effect) :=
  match a.handled.intent with
  | none => []
  | some intent =>
      (a.deleted.toList.map fun pod => (intent.generation, .podDeleted pod)) ++
        if committed then a.effect.toList.map fun effect => (intent.generation, effect) else []

def step (S : State L) : Event L.Quantity → Option (State L)
  | .write opsIntent => some { S with claw := { S.claw with opsIntent := opsIntent } }
  | .edit resources replicas =>
      some { S with claw := { S.claw with resources := resources, replicas := replicas } }
  | .consume env =>
      let a := consumeAndExecuteOpsIntent L cmp env S.claw
      some
        { claw := if a.committed env then a.changed else S.claw
          log := S.log ++ [⟨a.handled, a.committed env⟩]
          effects := S.effects ++ a.effects (a.committed env) }

end

/-- A Claw of which no intent was handled yet. -/
def start {L : Libs} (claw : Claw L.Quantity) : State L := { claw := claw }

/-! ### The annotation as a number -/

section

variable {L : Libs} {Q : Type} {claw : Claw Q}

theorem inRange_toInt (n : Int64) : inRange n.toInt = some n := by
  have hle := Int64.le_toInt n
  have hlt := Int64.toInt_lt n
  rw [inRange, if_pos ⟨hle, hlt⟩, Int64.ofInt_toInt]

/-- The text of a number has no plus sign. -/
theorem head?_intText_ne (n : ℤ) : (intText n).head? ≠ some 43 := by
  unfold intText
  split_ifs
  · simp
  · intro h
    have hdigit := Lib.isDigit_of_mem_decimal (List.mem_of_mem_head? h)
    revert hdigit
    decide

/-- **The counter is read back from its text.** -/
theorem parseInt64_formatInt (n : Int64) : parseInt64 (formatInt n) = some n := by
  unfold parseInt64
  split
  · next heq =>
    have hhead : (formatInt n).head? = some 43 := by
      rw [heq]
      rfl
    exact absurd hhead (head?_intText_ne n.toInt)
  · rw [formatInt, Lib.parseInt_intText]
    exact inRange_toInt n

/-- The annotations with the counter read as a number. -/
def Claw.slot (claw : Claw Q) : Slot where
  opsIntent := claw.opsIntent
  opsIntentGen := claw.opsIntentGen.bind parseInt64

theorem currentIntentGen_slot : claw.slot.currentIntentGen = claw.currentIntentGen := rfl

theorem parseOpsIntent_slot : claw.slot.parseOpsIntent L = claw.parseOpsIntent L := rfl

theorem slot_clearOpsIntentAnnotations (gen : Int64) :
    (claw.clearOpsIntentAnnotations gen).slot = claw.slot.clearOpsIntentAnnotations gen := by
  unfold Slot.clearOpsIntentAnnotations
  rw [currentIntentGen_slot]
  by_cases h : gen > claw.currentIntentGen
  · simp [Claw.slot, Claw.clearOpsIntentAnnotations, h, parseInt64_formatInt]
  · simp [Claw.slot, Claw.clearOpsIntentAnnotations, h]

end

section

variable {L : Libs} {cmp : L.Quantity → L.Quantity → Ordering} {env : Env}
  {claw applied : Claw L.Quantity} {patch : IntentPatch L.Quantity} {deleted : Option Pod}

section

variable (h : applyIntentPatch L cmp env claw patch = some (applied, deleted))

include h

theorem slot_applyIntentPatch : applied.slot = claw.slot := by
  cases patch with
  | bumpMemory limit | bumpCpu limit | scaleReplicas n | rolloutRestart =>
    obtain ⟨rfl, -⟩ := Prod.mk.inj (Option.some.inj h)
    rfl
  | restartPod =>
    obtain ⟨deleted', -, heq⟩ := Option.map_eq_some_iff.mp h
    obtain ⟨rfl, -⟩ := Prod.mk.inj heq
    rfl

theorem deleted_or_patchEffect : deleted = none ∨ patchEffect L env patch = none := by
  cases patch with
  | bumpMemory limit | bumpCpu limit | scaleReplicas n | rolloutRestart =>
    obtain ⟨-, rfl⟩ := Prod.mk.inj (Option.some.inj h)
    exact .inl rfl
  | restartPod => exact .inr rfl

end

/-- The exits of a call. -/
inductive Exit (L : Libs) (claw : Claw L.Quantity) (a : Attempt L) : Prop
  | idle (hparse : claw.parseOpsIntent L = .ok none) (hhandled : a.handled = .idle)
  | malformed (e : IntentError) (hparse : claw.parseOpsIntent L = .error e)
      (hhandled : a.handled = .malformed e)
      (hchanged : a.changed = claw.clearOpsIntentAnnotations claw.currentIntentGen)
  | rejected (intent : OpsIntent) (hparse : claw.parseOpsIntent L = .ok (some intent))
      (hpatch : buildIntentPatch L intent = none) (hhandled : a.handled = .rejected intent)
      (hchanged : a.changed.slot = claw.slot.clearOpsIntentAnnotations intent.generation)
  | applied (intent : OpsIntent) (patch : IntentPatch L.Quantity)
      (hparse : claw.parseOpsIntent L = .ok (some intent))
      (hpatch : buildIntentPatch L intent = some patch)
      (hhandled : a.handled = .failed intent ∨ a.handled = .executed intent)
      (hchanged : a.changed.slot = claw.slot.clearOpsIntentAnnotations intent.generation)

/-- **A call takes one of its exits**, and has at most one effect. -/
theorem consume_exit (L : Libs) (cmp : L.Quantity → L.Quantity → Ordering) (env : Env)
    (claw : Claw L.Quantity) :
    Exit L claw (consumeAndExecuteOpsIntent L cmp env claw) ∧
      ((consumeAndExecuteOpsIntent L cmp env claw).deleted = none ∨
        (consumeAndExecuteOpsIntent L cmp env claw).effect = none) := by
  unfold consumeAndExecuteOpsIntent
  split
  · next e hparse => exact ⟨.malformed e hparse rfl rfl, .inl rfl⟩
  · next hparse => exact ⟨.idle hparse rfl, .inl rfl⟩
  · next intent hparse =>
    split
    · next hpatch =>
      exact ⟨.rejected intent hparse hpatch rfl (slot_clearOpsIntentAnnotations _), .inl rfl⟩
    · next patch hpatch =>
      split
      · refine ⟨.applied intent patch hparse hpatch (.inl rfl) ?_, .inl rfl⟩
        exact slot_clearOpsIntentAnnotations _
      · next happlied =>
        refine ⟨.applied intent patch hparse hpatch (.inr rfl) ?_, deleted_or_patchEffect happlied⟩
        rw [slot_clearOpsIntentAnnotations, slot_applyIntentPatch happlied]

/-- The intent that a call executed. -/
def Handled.executedIntent : Handled → Option OpsIntent
  | .executed intent => some intent
  | _ => none

/-- **On the annotations, a call does what `Slot.consumeAndExecuteOpsIntent` does.** -/
theorem slot_consume (L : Libs) (cmp : L.Quantity → L.Quantity → Ordering) (env : Env)
    (claw : Claw L.Quantity) :
    let a := consumeAndExecuteOpsIntent L cmp env claw
    claw.slot.consumeAndExecuteOpsIntent L a.handled.executedIntent.isSome =
      if a.handled = .idle then none else some (a.changed.slot, a.handled.executedIntent) := by
  intro a
  unfold Slot.consumeAndExecuteOpsIntent
  rw [parseOpsIntent_slot]
  cases (consume_exit L cmp env claw).1 with
  | idle hparse hhandled => simp [a, hparse, hhandled]
  | malformed e hparse hhandled hchanged =>
    simp [a, hparse, hhandled, hchanged, Handled.executedIntent, slot_clearOpsIntentAnnotations,
      currentIntentGen_slot]
  | rejected _ hparse hpatch hhandled hchanged =>
    simp [a, hparse, hpatch, hhandled, hchanged, Handled.executedIntent]
  | applied _ _ hparse hpatch hhandled hchanged =>
    rcases hhandled with hhandled | hhandled
    · simp [a, hparse, hpatch, hhandled, hchanged, Handled.executedIntent]
    · simp [a, hparse, hpatch, hhandled, hchanged, Handled.executedIntent]

end

end K8s4Claw.Ops.Consumer
