/-
# What the producers of intents write, and what the consumer accepts

Two programs make ops intents.  `buildIntentJSON` of `internal/controller/clawops_controller.go`
makes one of a rule, the built-in ones being those of `internal/rules/builtin.go`;
`validateAndStampAction` of `cmd/claw4k8s/llm_client.go` makes one of what the LLM proposes.  The
consumer, `internal/controller/claw_ops_intent_consumer.go`, wants a `target` in the parameters to
change a memory or CPU limit, and `replicas` between 1 and 10 to scale (`Supplied`).

Neither producer checks that.  The built-in rules for memory and CPU say by how much to multiply and
up to which bound, and have no `target`; of the LLM's proposal only the name of the action is
checked.  Such intents are cleared without being executed (`produced_rejected`).
-/

import K8s4Claw.Ops.IntentSlot

namespace K8s4Claw.Ops

/-- The first of `DefaultRules`; the second is `crashloopRestartPod`. -/
def oomBumpMemory : Rule where
  id := "oom-bump-memory"
  action := .patchResource
  params := some [("field", "memory-limit"), ("max", "4Gi"), ("strategy", "multiply-1.5")]

def highCpuBumpRequest : Rule where
  id := "high-cpu-bump-request"
  action := .patchResource
  params := some [("field", "cpu-request"), ("max", "4"), ("strategy", "multiply-1.5")]

def defaultRules : List Rule := [oomBumpMemory, crashloopRestartPod, highCpuBumpRequest]

/-- What `validateAndStampAction` makes of a valid intent. -/
def OpsIntent.stamp (intent : OpsIntent) (now : Time) : OpsIntent :=
  { intent with
    generation := unixMilli now
    source := if intent.source = "" then "companion-claw" else intent.source }

def validateAndStampAction (L : Libs) (raw : String) (now : Time) : Except IntentError String :=
  match validateIntent L raw with
  | .error e => .error e
  | .ok intent => .ok (L.marshal (intent.stamp now))

/-- The intent that `buildIntentJSON` makes of a rule. -/
def Rule.intent (rule : Rule) (now : Time) : OpsIntent where
  action := ruleActionToIntentAction rule
  params := rule.params
  generation := unixMilli now
  source := "rule-engine"

/-- encoding/json gives this intent back. -/
structure Libs.RoundTrips (L : Libs) (intent : OpsIntent) : Prop where
  nonempty : L.marshal intent ≠ ""
  unmarshal : L.unmarshal (L.marshal intent) = some intent

/-- An intent in the annotation of a Claw is accepted by `parseOpsIntent` and `buildIntentPatch`,
and executed. -/
def Accepted (L : Libs) (slot : Slot) (action : String) : Prop :=
  ∃ intent, (slot.setIntent action).parseOpsIntent L = .ok (some intent) ∧
    (buildIntentPatch L intent).isSome ∧
    ∃ changed, (slot.setIntent action).consumeAndExecuteOpsIntent L true =
      some (changed, some intent)

/-- **The parameters an action needs are there:** a quantity for a limit, a number between 1 and 10
for the replicas. -/
@[mk_iff]
structure Supplied (L : Libs) (intent : OpsIntent) : Prop where
  target : intent.action = "bump-memory" ∨ intent.action = "bump-cpu" →
    intent.param "target" ≠ "" ∧ (L.parseQuantity (intent.param "target")).isSome
  replicas : intent.action = "scale-replicas" → intent.param "replicas" ≠ "" ∧
    ∃ n ∈ L.parseInt32 (intent.param "replicas"), 1 ≤ n ∧ n ≤ maxReplicasLimit

instance (L : Libs) (intent : OpsIntent) : Decidable (Supplied L intent) :=
  decidable_of_iff _ (supplied_iff L intent).symm

section

variable {L : Libs} {slot : Slot} {intent : OpsIntent} {raw : String} {now : Time}

theorem isSome_map_parseQuantity {target : String}
    {f : L.Quantity → IntentPatch L.Quantity} :
    (if target = "" then none else (L.parseQuantity target).map f).isSome ↔
      target ≠ "" ∧ (L.parseQuantity target).isSome := by
  by_cases h : target = "" <;> simp [h]

theorem isSome_bind_parseInt32 {replicas : String} :
    (if replicas = "" then none else (L.parseInt32 replicas).bind fun n =>
        if n < 1 ∨ n > maxReplicasLimit then none
        else some (.scaleReplicas n : IntentPatch L.Quantity)).isSome ↔
      replicas ≠ "" ∧ ∃ n ∈ L.parseInt32 replicas, 1 ≤ n ∧ n ≤ maxReplicasLimit := by
  by_cases h : replicas = ""
  · simp [h]
  · cases L.parseInt32 replicas with
    | none => simp [h]
    | some n =>
      by_cases hrange : n < 1 ∨ n > maxReplicasLimit
      · have hnot : ¬ (1 ≤ n ∧ n ≤ maxReplicasLimit) := by
          rintro ⟨hlow, hhigh⟩
          exact hrange.elim (Int32.not_lt.mpr hlow) (Int32.not_lt.mpr hhigh)
        simp [hnot]
      · obtain ⟨hlow, hhigh⟩ := not_or.mp hrange
        simp [Int32.not_lt.mp hlow, Int32.not_lt.mp hhigh, hlow, hhigh]

theorem isSome_buildIntentPatch (h : intent.action ∈ allowedIntentActions) :
    (buildIntentPatch L intent).isSome ↔ Supplied L intent := by
  have hsupplied : Supplied L intent ↔ _ ∧ _ :=
    ⟨fun h => ⟨h.target, h.replicas⟩, fun h => ⟨h.1, h.2⟩⟩
  rw [hsupplied]
  simp only [allowedIntentActions, List.mem_cons, List.not_mem_nil, or_false] at h
  rcases h with h | h | h | h | h
  · simp only [buildIntentPatch, h, isSome_map_parseQuantity]
    simp
  · simp only [buildIntentPatch, h, isSome_map_parseQuantity]
    simp
  · simp [buildIntentPatch, h]
  · simp [buildIntentPatch, h]
  · simp only [buildIntentPatch, h, isSome_bind_parseInt32]
    simp

section

variable (hjson : L.RoundTrips intent) (haction : intent.action ∈ allowedIntentActions)

include hjson haction

theorem validateIntent_of_roundTrips : validateIntent L (L.marshal intent) = .ok intent := by
  have hne : intent.action ≠ "" := by
    intro h
    rw [h] at haction
    revert haction
    decide
  simp [validateIntent, hjson.unmarshal, hne, haction]

/-- **An intent that a producer writes is accepted exactly if its parameters are supplied.** -/
theorem accepted_marshal_iff (hnewer : slot.currentIntentGen < intent.generation) :
    Accepted L slot (L.marshal intent) ↔ Supplied L intent := by
  have hvalid := validateIntent_of_roundTrips hjson haction
  have hparsed : (slot.setIntent (L.marshal intent)).parseOpsIntent L = .ok (some intent) :=
    Slot.parseOpsIntent_of_newer rfl hjson.nonempty hvalid hnewer
  rw [← isSome_buildIntentPatch haction]
  constructor
  · rintro ⟨intent', hparsed', hpatch, -⟩
    obtain rfl : intent = intent' :=
      Option.some.inj (Except.ok.inj (hparsed.symm.trans hparsed'))
    exact hpatch
  · intro hpatch
    exact ⟨intent, hparsed, hpatch, _, consume_of_eligible ⟨hvalid, hparsed, hpatch⟩⟩

end

/-- Stamping leaves the parameters. -/
theorem supplied_stamp (intent : OpsIntent) (now : Time) :
    Supplied L (intent.stamp now) ↔ Supplied L intent :=
  ⟨fun h => ⟨h.target, h.replicas⟩, fun h => ⟨h.target, h.replicas⟩⟩

theorem action_of_validateIntent (h : validateIntent L raw = .ok intent) :
    intent.action ∈ allowedIntentActions := by
  unfold validateIntent at h
  split at h
  · cases h
  · split_ifs at h with _ hknown
    cases h
    exact hknown

theorem unmarshal_of_validateIntent (h : validateIntent L raw = .ok intent) :
    L.unmarshal raw = some intent := by
  unfold validateIntent at h
  split at h
  · cases h
  · next hdecoded =>
    split_ifs at h
    cases h
    exact hdecoded

theorem action_mem_of_defaultRules : ∀ rule ∈ defaultRules,
    ruleActionToIntentAction rule ∈ allowedIntentActions := by
  decide

/-- Of the built-in rules only the one that restarts a pod needs no parameters that it lacks. -/
theorem supplied_defaultRules (L : Libs) (now : Time) {rule : Rule} (hrule : rule ∈ defaultRules) :
    Supplied L (rule.intent now) ↔ rule.action = .restartPod := by
  simp only [defaultRules, List.mem_cons, List.not_mem_nil, or_false] at hrule
  rcases hrule with rfl | rfl | rfl
  · refine ⟨fun h => ?_, fun h => ?_⟩
    · exact absurd rfl (h.target (.inl rfl)).1
    · cases h
  · have haction : (crashloopRestartPod.intent now).action = "restart-pod" := rfl
    refine ⟨fun _ => rfl, fun _ => ⟨fun h => ?_, fun h => ?_⟩⟩
    · simp [haction] at h
    · simp [haction] at h
  · refine ⟨fun h => ?_, fun h => ?_⟩
    · exact absurd rfl (h.target (.inr rfl)).1
    · cases h

end

/-- **What the producers write is accepted exactly if its parameters are supplied.**  For every
Claw, and a clock above its `ops-intent-gen`: the intent of a built-in rule is accepted and executed
if and only if the rule restarts a pod, and an action that `validateAndStampAction` returns if and
only if the proposal of the LLM has the parameters its action needs. -/
theorem accepted_iff (L : Libs) (slot : Slot) (now : Time)
    (hnewer : slot.currentIntentGen < unixMilli now) :
    (∀ rule ∈ defaultRules, L.RoundTrips (rule.intent now) →
      (Accepted L slot (buildIntentJSON L rule now) ↔ rule.action = .restartPod)) ∧
    (∀ raw action, validateAndStampAction L raw now = .ok action →
      ∃ intent, validateIntent L raw = .ok intent ∧ action = L.marshal (intent.stamp now) ∧
        (L.RoundTrips (intent.stamp now) → (Accepted L slot action ↔ Supplied L intent))) := by
  refine ⟨fun rule hrule hjson => ?_, fun raw action haction => ?_⟩
  · rw [← supplied_defaultRules L now hrule]
    exact accepted_marshal_iff hjson (action_mem_of_defaultRules rule hrule) hnewer
  · unfold validateAndStampAction at haction
    split at haction
    · cases haction
    · next intent hvalid =>
      cases haction
      refine ⟨intent, hvalid, rfl, fun hjson => ?_⟩
      rw [← supplied_stamp intent now]
      have haction : intent.action ∈ allowedIntentActions := action_of_validateIntent hvalid
      exact accepted_marshal_iff hjson haction hnewer

/-! ### Intents of the rules and of the LLM, nine seconds after the epoch -/

def oomIntent : OpsIntent := oomBumpMemory.intent (seconds 9)

def oomText : String :=
  "\x7b\"action\":\"bump-memory\",\"params\":\x7b\"field\":\"memory-limit\"," ++
    "\"max\":\"4Gi\",\"strategy\":\"multiply-1.5\"\x7d,\"generation\":9000," ++
    "\"source\":\"rule-engine\"\x7d"

/-- A proposal with the memory limit in `target`, and one that forgets it. -/
def proposedText : String :=
  "\x7b\"action\":\"bump-memory\",\"params\":\x7b\"target\":\"2Gi\"\x7d\x7d"

def proposedIntent : OpsIntent where
  action := "bump-memory"
  params := some [("target", "2Gi")]
  generation := 0
  source := ""

def stampedText : String :=
  "\x7b\"action\":\"bump-memory\",\"params\":\x7b\"target\":\"2Gi\"\x7d," ++
    "\"generation\":9000,\"source\":\"companion-claw\"\x7d"

def forgetfulText : String := "\x7b\"action\":\"bump-memory\"\x7d"

def forgetfulIntent : OpsIntent where
  action := "bump-memory"
  params := none
  generation := 0
  source := ""

def stampedForgetfulText : String :=
  "\x7b\"action\":\"bump-memory\",\"params\":null,\"generation\":9000," ++
    "\"source\":\"companion-claw\"\x7d"

/-- The libraries on these intents. -/
def producerLibs : Libs where
  marshal intent := ([(oomIntent, oomText), (podIntent, podText),
    (proposedIntent.stamp (seconds 9), stampedText),
    (forgetfulIntent.stamp (seconds 9), stampedForgetfulText)].lookup intent).getD ""
  unmarshal raw := [(oomText, oomIntent), (podText, podIntent), (proposedText, proposedIntent),
    (stampedText, proposedIntent.stamp (seconds 9)), (forgetfulText, forgetfulIntent),
    (stampedForgetfulText, forgetfulIntent.stamp (seconds 9))].lookup raw
  Quantity := ℕ
  parseQuantity raw := if raw = "2Gi" then some (2 * 1024 ^ 3) else none
  parseInt32 _ := none

theorem accepted_iff_crashloop :
    Accepted producerLibs {} (buildIntentJSON producerLibs crashloopRestartPod (seconds 9)) ∧
    validateAndStampAction producerLibs proposedText (seconds 9) = .ok stampedText ∧
    Accepted producerLibs {} stampedText := by
  have h := accepted_iff producerLibs {} (seconds 9) (by decide)
  have hstamped :
      validateAndStampAction producerLibs proposedText (seconds 9) = .ok stampedText := by
    decide +kernel
  refine ⟨(h.1 crashloopRestartPod (by decide) ⟨by decide +kernel, by decide +kernel⟩).mpr rfl,
    hstamped, ?_⟩
  obtain ⟨intent, hvalid, -, hiff⟩ := h.2 proposedText stampedText hstamped
  obtain rfl : intent = proposedIntent := by
    have hproposed : validateIntent producerLibs proposedText = .ok proposedIntent := by
      decide +kernel
    exact Except.ok.inj (hvalid.symm.trans hproposed)
  exact (hiff ⟨by decide +kernel, by decide +kernel⟩).mpr (by decide +kernel)

/-- **Intents that are cleared without being executed:** the one of the built-in rule for a pod
killed for its memory, and a proposal without `target`, which `validateAndStampAction` returns. -/
theorem produced_rejected :
    (Slot.setIntent {} (buildIntentJSON producerLibs oomBumpMemory (seconds 9))
      |>.consumeAndExecuteOpsIntent producerLibs true) = some (⟨none, some 9000⟩, none) ∧
    validateAndStampAction producerLibs forgetfulText (seconds 9) = .ok stampedForgetfulText ∧
    (Slot.setIntent {} stampedForgetfulText
      |>.consumeAndExecuteOpsIntent producerLibs true) = some (⟨none, some 9000⟩, none) := by
  decide +kernel

end K8s4Claw.Ops
