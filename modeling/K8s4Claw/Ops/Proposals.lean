/-
# Actions proposed by the LLM

`cmd/claw4k8s/llm_client.go`: `Analyze` asks a gateway for the analysis of an escalation.  In the
text of the answer `extractAction` looks for an action, after the marker `ACTION:` or else in a
block that begins with three backquotes and `json` and ends with three backquotes, and
`validateAndStampAction` writes it anew with the time of the watcher.

What is returned is what `validateAndStampAction` wrote, so nothing depends on which part of the
text was taken for the action.
-/

import K8s4Claw.Lib.Assoc
import K8s4Claw.Lib.Strings
import K8s4Claw.Ops.Producers

namespace K8s4Claw.Ops

open Lib.Strings (cut cut_eq_none eq_of_cut trimSpace trimPrefix trimSuffix)

/-- The libraries, with what `Analyze` uses of encoding/json. -/
structure GatewayLibs extends Libs where
  /-- The contents of the choices, if the body decodes into a `chatCompletionResponse`. -/
  choices : String → Option (List String)
  /-- `isValidJSONObject`: the text decodes into a `map[string]any`. -/
  isValidJSONObject : String → Bool

/-- The errors of `Analyze` once the gateway has answered. -/
inductive GatewayError
  | status (code : ℤ)
  | decode
  | noChoices
  deriving DecidableEq

def stripFences (s : List Char) : List Char :=
  trimSpace (trimSuffix "```".toList (trimPrefix "```".toList
    (trimPrefix "```json".toList (trimSpace s))))

namespace GatewayLibs

variable (G : GatewayLibs)

def extractAction (content : String) : String × String :=
  match cut "ACTION:".toList content.toList with
  | some (before, after) =>
      let analysis := String.ofList (trimSpace before)
      let raw := String.ofList (stripFences (trimSpace after))
      if G.isValidJSONObject raw then (analysis, raw) else (analysis, "")
  | none =>
      match cut "```json".toList content.toList with
      | none => (content, "")
      | some (before, after) =>
          match cut "```".toList after with
          | none => (content, "")
          | some (inner, _) =>
              let raw := String.ofList (trimSpace inner)
              if G.isValidJSONObject raw then (String.ofList (trimSpace before), raw)
              else (content, "")

/-- `Analyze`, from the answer of the gateway on: the analysis and the action. -/
def analyze (statusCode : ℤ) (body : String) (now : Time) :
    Except GatewayError (String × String) :=
  if 400 ≤ statusCode then .error (.status statusCode)
  else
    match G.choices body with
    | none => .error .decode
    | some [] => .error .noChoices
    | some (content :: _) =>
        let (analysis, rawAction) := G.extractAction content
        if rawAction = "" then .ok (analysis, "")
        else
          match validateAndStampAction G.toLibs rawAction now with
          | .error _ => .ok (analysis, "")
          | .ok validated => .ok (analysis, validated)

/-- A text with a block of JSON that is closed. -/
def ClosedBlock (content : String) : Prop :=
  ∃ before inner rest, content.toList =
    before ++ ("```json".toList ++ (inner ++ ("```".toList ++ rest)))

theorem extractAction_of_none {content : String} (hmarker : ¬ "ACTION:".toList <:+: content.toList)
    (hblock : ¬ ClosedBlock content) : G.extractAction content = (content, "") := by
  rw [extractAction, cut_eq_none hmarker]
  dsimp only
  split
  · rfl
  · next before _ hopen =>
      split
      · rfl
      · next inner rest hclose =>
          refine absurd ⟨before, inner, rest, ?_⟩ hblock
          rw [eq_of_cut hopen, eq_of_cut hclose]

theorem validateIntent_of_validateAndStamp {L : Libs} {raw action : String} {now : Time}
    (hjson : ∀ intent, validateIntent L raw = .ok intent → L.RoundTrips (intent.stamp now))
    (h : validateAndStampAction L raw now = .ok action) :
    ∃ intent, validateIntent L action = .ok intent ∧ intent.action ∈ allowedIntentActions ∧
      intent.generation = unixMilli now := by
  unfold validateAndStampAction at h
  split at h
  · cases h
  · next intent hvalid =>
      cases h
      have haction : intent.action ∈ allowedIntentActions := action_of_validateIntent hvalid
      exact ⟨_, validateIntent_of_roundTrips (hjson intent hvalid) haction, haction, rfl⟩

/-- **The output of the LLM is confined.**  Whatever the gateway answers, the action is empty or an
intent that `ValidateIntent` accepts, of a whitelisted action and with the time of the watcher as
its generation.  A text without marker and without closed block is all analysis. -/
theorem analyze_confined (now : Time)
    (hjson : ∀ raw intent, validateIntent G.toLibs raw = .ok intent →
      G.RoundTrips (intent.stamp now)) (statusCode : ℤ) (body : String) :
    (∀ analysis action, G.analyze statusCode body now = .ok (analysis, action) →
      action = "" ∨ ∃ intent, validateIntent G.toLibs action = .ok intent ∧
        intent.action ∈ allowedIntentActions ∧ intent.generation = unixMilli now) ∧
    (∀ content rest, statusCode < 400 → G.choices body = some (content :: rest) →
      ¬ "ACTION:".toList <:+: content.toList → ¬ ClosedBlock content →
      G.analyze statusCode body now = .ok (content, "")) := by
  refine ⟨fun analysis action h => ?_, fun content rest hstatus hbody hmarker hblock => ?_⟩
  · unfold analyze at h
    split_ifs at h
    split at h
    · cases h
    · cases h
    · dsimp only at h
      split_ifs at h
      · exact .inl (Prod.mk.inj (Except.ok.inj h)).2.symm
      · split at h
        · exact .inl (Prod.mk.inj (Except.ok.inj h)).2.symm
        · next hvalidated =>
            obtain ⟨-, rfl⟩ := Prod.mk.inj (Except.ok.inj h)
            exact .inr (validateIntent_of_validateAndStamp (hjson _) hvalidated)
  · rw [analyze, if_neg (not_le.mpr hstatus), hbody]
    simp [G.extractAction_of_none hmarker hblock]

/-- What the model writes: an analysis, and a proposal between fences. -/
def fenced : String := "Too little memory.\nACTION:\n```json\n" ++ proposedText ++ "\n```\n"

/-- The answer of the gateway with this content. -/
def fencedBody : String :=
  "\x7b\"choices\":[\x7b\"message\":\x7b\"content\":\"Too little memory.\\nACTION:\\n```json\\n" ++
    "\x7b\\\"action\\\":\\\"bump-memory\\\",\\\"params\\\":\x7b\\\"target\\\":\\\"2Gi\\\"" ++
    "\x7d\x7d\\n```\\n\"\x7d\x7d]\x7d"

/-- encoding/json on that answer and on the intents of `producerLibs`. -/
def fencedLibs : GatewayLibs where
  toLibs := producerLibs
  choices body := if body = fencedBody then some [fenced] else none
  isValidJSONObject text := (producerLibs.unmarshal text).isSome

/-- A proposal between fences is stamped and accepted. -/
theorem analyze_confined_fenced :
    fencedLibs.analyze 200 fencedBody (seconds 9) = .ok ("Too little memory.", stampedText) ∧
      ∃ intent, validateIntent producerLibs stampedText = .ok intent ∧
        intent.action ∈ allowedIntentActions ∧ intent.generation = 9000 := by
  have hanalyze : fencedLibs.analyze 200 fencedBody (seconds 9) =
      .ok ("Too little memory.", stampedText) := by
    decide +kernel
  have hjson : ∀ raw intent, validateIntent fencedLibs.toLibs raw = .ok intent →
      fencedLibs.RoundTrips (intent.stamp (seconds 9)) := by
    intro raw intent hvalid
    have hmem := Lib.Assoc.mem_of_lookup (unmarshal_of_validateIntent hvalid)
    simp only [List.mem_cons, Prod.mk.injEq, List.not_mem_nil, or_false] at hmem
    rcases hmem with ⟨-, rfl⟩ | ⟨-, rfl⟩ | ⟨-, rfl⟩ | ⟨-, rfl⟩ | ⟨-, rfl⟩ | ⟨-, rfl⟩ <;>
      exact ⟨by decide +kernel, by decide +kernel⟩
  exact ⟨hanalyze, ((analyze_confined fencedLibs (seconds 9) hjson 200 _).1 _ _
    hanalyze).resolve_left (by decide)⟩

end GatewayLibs

end K8s4Claw.Ops
