/-
# The inbound loop of the Slack sidecar

`runInboundLoop` of `cmd/channel-slack/handler.go` reads events from a Socket Mode connection,
acknowledges each envelope with an ID, and then hands the event to `Send` of the bus client.  An
error of `Acknowledge` or `Send` is logged; after an error of `ReadEvent` it connects again, until
that succeeds.

A label is what the environment answers at the place where the loop is.  The envelopes that were
acknowledged and those whose `Send` returned nil are ghost state.
-/

import K8s4Claw.Sdk.Client

namespace K8s4Claw.Slack

open Lib (Meets run)
open Sdk (SendResult)

/-- What `ReadEvent` returns: the raw message and the ID of the envelope. -/
structure Envelope where
  payload : List UInt8
  envelopeID : String
  deriving DecidableEq

/-- Where the loop is. -/
inductive Place
  /-- At the head of the loop, before it looks at the context. -/
  | top
  | reading
  /-- After an error of `ReadEvent`. -/
  | failed
  /-- Waiting for two seconds or the end of the context. -/
  | waiting
  | connecting
  | acknowledging (e : Envelope)
  | sending (e : Envelope)
  | returned
  deriving DecidableEq

structure Inbound where
  place : Place := .top
  acknowledged : List Envelope := []
  accepted : List Envelope := []
  deriving DecidableEq

/-- What the environment answers. -/
inductive Answer
  /-- Whether the context is done. -/
  | context (done : Bool)
  /-- The two seconds are over. -/
  | elapsed
  /-- `ReadEvent`, `none` for an error. -/
  | event (e : Option Envelope)
  | connect (ok : Bool)
  | acknowledge (ok : Bool)
  | send (result : SendResult)
  deriving DecidableEq

/-- `runInboundLoop`, from one call to the next. -/
def step (s : Inbound) (answer : Answer) : Option Inbound :=
  match s.place, answer with
  | .top, .context done => some { s with place := if done then .returned else .reading }
  | .reading, .event none => some { s with place := .failed }
  | .reading, .event (some e) =>
      some { s with place := if e.envelopeID = "" then .sending e else .acknowledging e }
  | .failed, .context done => some { s with place := if done then .returned else .waiting }
  | .waiting, .context true => some { s with place := .returned }
  | .waiting, .elapsed => some { s with place := .connecting }
  | .connecting, .connect ok => some { s with place := if ok then .top else .waiting }
  | .acknowledging e, .acknowledge ok =>
      some { s with
        place := .sending e
        acknowledged := if ok then e :: s.acknowledged else s.acknowledged }
  | .sending e, .send .nil => some { s with place := .top, accepted := e :: s.accepted }
  | .sending _, .send _ => some { s with place := .top }
  | _, _ => none

/-- The answer is not an error of `Send`. -/
def Answer.accepts : Answer → Bool
  | .send result => result = .nil
  | _ => true

/-- Every acknowledged envelope was accepted or is about to be sent. -/
def Accounted (s : Inbound) : Prop := ∀ e ∈ s.acknowledged, e ∈ s.accepted ∨ s.place = .sending e

theorem Accounted.step {s t : Inbound} {answer : Answer} (hs : Accounted s)
    (haccepts : answer.accepts) (h : step s answer = some t) : Accounted t := by
  -- away from `Send` an acknowledged envelope was accepted before
  have hmove (hplace : ∀ e, s.place ≠ .sending e) (place : Place) :
      Accounted { s with place } := fun e he => .inl ((hs e he).resolve_right (hplace e))
  unfold Slack.step at h
  split at h
  case h_8 e ok hplace =>
    cases h
    intro d hd
    by_cases hde : d = e
    · exact .inr (hde ▸ rfl)
    · have hd' : d ∈ s.acknowledged := by
        cases ok with
        | true => exact (List.mem_cons.mp hd).resolve_left hde
        | false => exact hd
      exact hmove (by simp [hplace]) (.sending e) d hd'
  case h_9 e hplace =>
    cases h
    intro d hd
    rcases hs d hd with h | h
    · exact .inl (List.mem_cons_of_mem e h)
    · obtain rfl : e = d := Place.sending.inj (hplace.symm.trans h)
      exact .inl List.mem_cons_self
  case h_10 hne _ => exact absurd (of_decide_eq_true haccepts) hne
  case h_11 => cases h
  all_goals
    next hplace =>
    cases h
    exact hmove (by simp [hplace]) _

/-- **What is acknowledged is accepted if no `Send` fails.**  In every run, whatever `ReadEvent`,
`Acknowledge` and `Connect` answer, an acknowledged envelope whose `Send` is not still to come was
accepted, if every `Send` returned nil.  But whenever the loop reads, an envelope with an ID can be
acknowledged and not accepted, if its `Send` fails. -/
theorem accepted_of_acknowledged (answers : List Answer) {t : Inbound}
    (h : run step {} answers = some t) :
    ((∀ answer ∈ answers, answer.accepts) → ∀ e ∈ t.acknowledged, t.place ≠ .sending e →
      e ∈ t.accepted) ∧
    (t.place = .reading → ∀ e : Envelope, e.envelopeID ≠ "" → e ∉ t.accepted →
      ∀ result ≠ SendResult.nil,
        ∃ u, run step t [.event (some e), .acknowledge true, .send result] = some u ∧
          e ∈ u.acknowledged ∧ e ∉ u.accepted ∧ u.place = .top) := by
  refine ⟨fun haccepts e he hplace => ?_, fun hplace e hid hnew result hresult => ?_⟩
  · have hmeets : Meets step (fun _ answer => True ∧ answer.accepts = true) {} answers :=
      Lib.meets_and_of_forall Lib.meets_true haccepts
    have hinv : Accounted t :=
      Lib.run_invariant_of_meets (fun _ _ _ hs hok => hs.step hok.2) (by simp [Accounted]) hmeets h
    exact (hinv e he).resolve_right hplace
  · refine ⟨{ t with place := .top, acknowledged := e :: t.acknowledged }, ?_, List.mem_cons_self,
      hnew, rfl⟩
    cases result with
    | nil => exact absurd rfl hresult
    | bufferFull | ctxErr | clientClosed => simp [run, step, hplace, hid]

def helloEnvelope : Envelope := ⟨[123, 125], "e1"⟩

/-- An event is read and acknowledged. -/
def helloAcknowledged : List Answer :=
  [.context false, .event (some helloEnvelope), .acknowledge true]

theorem accepted_of_acknowledged_hello :
    ∃ t, run step {} (helloAcknowledged ++ [.send .nil]) = some t ∧
      helloEnvelope ∈ t.acknowledged ∧ helloEnvelope ∈ t.accepted := by
  refine ⟨_, rfl, by decide, ?_⟩
  exact (accepted_of_acknowledged (helloAcknowledged ++ [.send .nil]) rfl).1 (by decide)
    helloEnvelope (by decide) (by decide)

/-- **An event that is acknowledged and lost.**  The bus-down buffer is full when it is sent. -/
theorem acknowledgedNotAccepted :
    ∃ t, run step {} (helloAcknowledged ++ [.send .bufferFull]) = some t ∧
      helloEnvelope ∈ t.acknowledged ∧ t.accepted = [] ∧ t.place = .top :=
  ⟨_, rfl, by decide, rfl, rfl⟩

end K8s4Claw.Slack
