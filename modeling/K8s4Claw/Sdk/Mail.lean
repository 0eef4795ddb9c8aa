/-
# What a step of the client does to its messages

A message handed to `Send` goes straight to the connection, or into the bus-down buffer and
from there, through `replayBuffer`, to a connection.  `MailMove` sorts the steps of the client's
goroutines by what they do to these places: the bytes written (`wire`), the buffer, the messages a
replay has drained and not written yet (`replaying`).
-/

import K8s4Claw.Sdk.Moves

namespace K8s4Claw.Sdk

open Lib

namespace Thread

/-- The message a goroutine is sending. -/
def message : Thread → Option Message
  | .send msg _ => some msg
  | _ => none

/-- The messages a `replayBuffer` has taken out of the buffer and still has in hand. -/
def replaying : Thread → List Message
  | .loop (.fetch _ msgs) => msgs
  | .loop (.write _ _ msg msgs) => msg :: msgs
  | .loop (.repush _ msg) => [msg]
  | _ => []

/-- The goroutine is a `replayBuffer` that stops and puts the message it was at back. -/
def repushing : Thread → Bool
  | .loop (.repush _ _) => true
  | _ => false

/-- The goroutine is a `Send` about to look for the connection. -/
def looking : Thread → Bool
  | .send _ .fetch => true
  | _ => false

/-- The message that a `Send` has a connection for. -/
def writing : Thread → Option Message
  | .send msg (.write _) => some msg
  | _ => none

/-- The message of a `Send` whose write failed, once it has pushed it and before it returns. -/
def rebuffered : Thread → Option Message
  | .send msg .reconnect => some msg
  | _ => none

/-- What a `Send` has returned, with its message. -/
def returned : Thread → Option (Message × SendResult)
  | .send msg (.ret r) => some (msg, r)
  | _ => none

end Thread

/-- A goroutine goes from `p` to `q` and does nothing with a message. -/
structure Plain (p q : Thread) : Prop where
  message : q.message = p.message
  replaying : q.replaying = p.replaying
  repushing : q.repushing = false
  writing : q.writing = none
  rebuffered : q.rebuffered = none
  returned : ∀ msg, q.returned ≠ some (msg, .nil)

/-- What a step of a goroutine does to the messages of the client. -/
inductive MailMove (s : Shared) : Thread → Choice → Step → Prop where
  | plain {p : Thread} {c : Choice} {e : Step} (hbuf : e.shared.buf = s.buf)
      (hwire : e.shared.wire = s.wire) (hq : Plain p e.next) : MailMove s p c e
  | fetch {msg : Message} {g : ℕ} {c : Choice} (hcur : s.current = some g) :
      MailMove s (.send msg .fetch) c ⟨s, .send msg (.write g), none⟩
  | push {msg : Message} {c : Choice} : MailMove s (.send msg .buffer) c
      ⟨{ s with buf := (s.buf.push msg).1 },
        .send msg (.ret (if (s.buf.push msg).2 then .nil else .bufferFull)), none⟩
  | write {msg : Message} {g : ℕ} (hu : s.usable g = true) : MailMove s (.send msg (.write g)) .ok
      ⟨{ s with wire := s.wire ++ [(g, msg)] }, .send msg (.ret .nil), none⟩
  | rebuffer {msg : Message} {c : Choice} : MailMove s (.send msg .rebuffer) c
      ⟨{ s with buf := (s.buf.push msg).1 }, .send msg .reconnect, none⟩
  | giveBack {msg : Message} {c : Choice} :
      MailMove s (.send msg .reconnect) c (s.tryReconnect (.send msg (.ret .nil)))
  | drain {g : ℕ} {c : Choice} : MailMove s (.loop (.drain g)) c
      ⟨{ s with buf := s.buf.drainAll.2 }, .loop (.fetch g s.buf.drainAll.1), none⟩
  | replay {g h : ℕ} {msg : Message} {msgs : List Message} (hu : s.usable h = true) :
      MailMove s (.loop (.write g h msg msgs)) .ok
        ⟨{ s with wire := s.wire ++ [(h, msg)] }, .loop (.fetch g msgs), none⟩
  | noConn {g : ℕ} {msg : Message} {msgs : List Message} {c : Choice} (hconn : s.conn = none) :
      MailMove s (.loop (.fetch g (msg :: msgs))) c ⟨s, .loop (.repush g msg), none⟩
  | failed {g h : ℕ} {msg : Message} {msgs : List Message} :
      MailMove s (.loop (.write g h msg msgs)) .err ⟨s, .loop (.repush g msg), none⟩
  | repush {g : ℕ} {msg : Message} {c : Choice} : MailMove s (.loop (.repush g msg)) c
      ⟨{ s with buf := (s.buf.push msg).1 }, .loop (.spawn g), none⟩

section

variable {s : Shared} {p : Thread} {c : Choice} {e : Step}

theorem markDisconnected_mail (s : Shared) (g : ℕ) :
    (s.markDisconnected g).buf = s.buf ∧ (s.markDisconnected g).wire = s.wire := by
  unfold Shared.markDisconnected
  split <;> exact ⟨rfl, rfl⟩

theorem tryReconnect_mail (s : Shared) (q : Thread) :
    (s.tryReconnect q).shared.buf = s.buf ∧ (s.tryReconnect q).shared.wire = s.wire ∧
      (s.tryReconnect q).next = q := by
  unfold Shared.tryReconnect
  split_ifs <;> exact ⟨rfl, rfl, rfl⟩

/-- **What a step of a goroutine does to the messages.** -/
theorem act_mail (h : act s p c = some e) : MailMove s p c e := by
  have hback {back : Option ℕ} {pc : ClosePc} : Plain (.close back pc) (Thread.resume back) := by
    cases back <;> exact ⟨rfl, rfl, rfl, rfl, rfl, by rintro _ ⟨⟩⟩
  cases act_acts h with
  | sendFetch hcur => exact .fetch hcur
  | sendBuffer => exact .push
  | sendWrite hu => exact .write hu
  | sendRebuffer => exact .rebuffer
  | sendRetry => exact .giveBack
  | drain => exact .drain
  | replayDown hconn => exact .noConn hconn
  | replayWrite hu => exact .replay hu
  | replayFail => exact .failed
  | repush => exact .repush
  | sendMark | readMark | beatMark =>
    exact .plain (markDisconnected_mail s _).1 (markDisconnected_mail s _).2
      ⟨rfl, rfl, rfl, rfl, rfl, by rintro _ ⟨⟩⟩
  | readRetry | beatRetry =>
    unfold Shared.tryReconnect
    split_ifs <;> exact .plain rfl rfl ⟨rfl, rfl, rfl, rfl, rfl, by rintro _ ⟨⟩⟩
  | closeAgain | closeInbound => exact .plain rfl rfl hback
  | _ => exact .plain rfl rfl ⟨rfl, rfl, rfl, rfl, rfl, by rintro _ ⟨⟩⟩

end

/-- A message for `Send`. -/
def outgoing (id : String) : Message := ⟨id, .message, "c", "", "", "", [123, 125]⟩

end K8s4Claw.Sdk
