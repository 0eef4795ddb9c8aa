/-
# The bus-down buffer of the channel SDK

`sdk/channel/buffer.go` (`newBuffer`, `push`, `drainAll`) and the struct
`message` of `sdk/channel/message.go`.

While the connection to the IPC bus is down, `Client.Send` puts its messages in
a bounded FIFO queue.  `push` refuses a message when the queue is full, and
`drainAll` hands the whole queue over and leaves an empty one of the same
capacity.  Each method runs under the buffer's own mutex, so each is one atomic
step of the client.

A `Buffer` carries the proof that it never holds more than its capacity and that
the capacity, which `newBuffer` replaces by 256 when it is not positive, leaves
room for one message.
-/

import K8s4Claw.MessageType
import Mathlib.Data.List.Infix

namespace K8s4Claw.Sdk

/-- `message`: the payload is the `json.RawMessage` handed to `Send`, any bytes
at all, and the timestamp is kept as its RFC 3339 text. -/
structure Message where
  id : String
  type : MessageType
  channel : String
  correlationID : String
  replyTo : String
  timestamp : String
  payload : List UInt8
  deriving DecidableEq

/-- `buffer`: at most `cap` messages, oldest first. -/
structure Buffer where
  items : List Message
  cap : ℕ
  le_cap : items.length ≤ cap
  cap_pos : 0 < cap

def newBuffer (capacity : ℤ) : Buffer where
  items := []
  cap := if capacity ≤ 0 then 256 else capacity.toNat
  le_cap := Nat.zero_le _
  cap_pos := by split_ifs <;> omega

namespace Buffer

/-- `push`: append and report `true`, or report `false` when the buffer is full. -/
def push (b : Buffer) (msg : Message) : Buffer × Bool :=
  if h : b.cap ≤ b.items.length then (b, false)
  else ({ b with
    items := b.items ++ [msg]
    le_cap := by simp only [List.length_append, List.length_singleton]; omega }, true)

def drainAll (b : Buffer) : List Message × Buffer :=
  (b.items, { b with items := [], le_cap := Nat.zero_le _ })

/-- The pushes of several goroutines one after the other, with whether all of
them were accepted. -/
def pushAll : Buffer → List Message → Buffer × Bool
  | b, [] => (b, true)
  | b, msg :: msgs =>
      let r := b.push msg
      let rs := r.1.pushAll msgs
      (rs.1, r.2 && rs.2)

variable {b : Buffer} {msg : Message}

theorem push_of_lt (h : b.items.length < b.cap) :
    (b.push msg).1.items = b.items ++ [msg] ∧ (b.push msg).2 = true := by
  simp [push, Nat.not_le.2 h]

theorem push_of_le (h : b.cap ≤ b.items.length) : b.push msg = (b, false) := by
  simp [push, h]

theorem items_push (h : (b.push msg).2 = true) : (b.push msg).1.items = b.items ++ [msg] := by
  rcases Nat.lt_or_ge b.items.length b.cap with hlt | hge
  · exact (push_of_lt hlt).1
  · rw [push_of_le hge] at h
    exact absurd h Bool.false_ne_true

theorem items_push_cases (b : Buffer) (msg : Message) :
    (b.push msg).1.items = b.items ++ [msg] ∨
      (b.push msg).1.items = b.items ∧ b.items.length = b.cap := by
  rcases Nat.lt_or_ge b.items.length b.cap with hlt | hge
  · exact .inl (push_of_lt hlt).1
  · refine .inr ⟨by rw [push_of_le hge], ?_⟩
    have := b.le_cap
    omega

theorem items_pushAll {msgs : List Message} (h : (b.pushAll msgs).2 = true) :
    (b.pushAll msgs).1.items = b.items ++ msgs := by
  induction msgs generalizing b with
  | nil => simp [pushAll]
  | cons _ _ ih =>
    simp only [pushAll, Bool.and_eq_true] at h ⊢
    rw [ih h.2, items_push h.1, List.append_assoc, List.singleton_append]

end Buffer
end K8s4Claw.Sdk
