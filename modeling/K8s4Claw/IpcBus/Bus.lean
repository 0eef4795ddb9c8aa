/-
# The IPC bus

`internal/ipcbus/router.go` and `internal/ipcbus/server.go`, started as `runServe` of
`cmd/ipcbus/main.go` starts them: a `Router` with a bridge, a write-ahead log and a dead
letter queue, and one goroutine running `handleConn` for each sidecar connection.

The model is a pool of these goroutines over the fields of the router.  A goroutine is
numbered like its connection, and a `SidecarConn` is that number.  An atomic step is a
section under one of the mutexes (of the router, of a ring buffer, of the log), one read
or write on a connection, or one `bridge.Send`.  A `Choice` is what the environment decides
in the step: the message read, whether a call goes through, the clock and new ids.

The main goroutine runs `ReplayWAL` before the server accepts connections; the goroutine
of `StartOutboundLoop` takes messages from the bridge to sidecars; once the server runs, the
compaction ticker calls `Compact` when the log is large, and the purge ticker calls
`PurgeExpired` of the dead letter queue.  A graceful restart is taken when no
`HandleInbound` is in progress: the log is closed and opened again, connections and
buffers are gone.

The bridge is what its `Send` returns.  Ghost state, not in the source: the messages
`appended` to the log, `sent` to the bridge, and `failed` to be sent, in order and with
repetitions, the `Put`s of the dead letter queue that went through (`dead`), `outbox` for
what was written to each connection, and `registered` for the `Register` calls.
-/

import K8s4Claw.IpcBus.DeadLetters
import K8s4Claw.IpcBus.RingBuffer
import K8s4Claw.IpcBus.WalAgreement
import K8s4Claw.Lib.Pool

namespace K8s4Claw.IpcBus

open Lib (Effect Outcome Pool Time Utc)

/-- Where the main goroutine is: in the loop of `ReplayWAL`, before the `Complete` of an entry
it sent, or in the server. -/
inductive Main where
  | replay (todo : List WALEntry)
  | complete (entry : WALEntry) (todo : List WALEntry)
  | serve
  deriving DecidableEq

/-- The buffer settings of `RouterConfig`. -/
structure RouterConfig where
  bufferSize : ℤ
  highWatermark : ℚ
  lowWatermark : ℚ

/-- The fields of `Router` and of the goroutines there is one of, and the ghost state. -/
structure Shared where
  config : RouterConfig
  sidecars : Finmap fun _ : String => ℕ
  buffers : Finmap fun _ : String => RingBuffer Message
  wal : Wal
  dlq : DLQ
  main : Main
  /-- The message the outbound loop is about to write, and the connection. -/
  outbound : Option (ℕ × Message)
  dead : List (Message × Int64)
  appended : List Message
  sent : List Message
  failed : List Message
  outbox : List (ℕ × Message)
  registered : List (String × ℕ)

/-- Where a `HandleInbound` is. -/
inductive InboundPc where
  | start
  | push
  | slowDown
  | send
  | complete
  | pop
  | resume
  | retry
  | markDLQ (attempts : Int64)
  | putDLQ (attempts : Int64)
  deriving DecidableEq

/-- Where a `handleConn` is; `unregister` and `closing` are at the deferred calls. -/
inductive Conn where
  | accepted
  | register (reg : Message)
  | ack (reg : Message)
  | read (channel : String)
  | handle (channel : String) (msg : Message) (pc : InboundPc)
  | unregister (channel : String)
  | closing
  | closed
  deriving DecidableEq

/-- What the environment decides in a step; of a `Put` of the dead letter queue, the time and
whether bbolt goes through. -/
inductive Choice where
  | go
  | ok
  | err
  | recv (msg : Message)
  | wal (ts : String) (o₁ o₂ : Outcome)
  | write (uuid : String) (now : Time) (ok : Bool)
  | put (now : Utc) (ok : Bool)

abbrev Bus := Pool Shared Conn

/-- A step of one `handleConn`. -/
abbrev ConnStep := Effect Shared Conn

def maxRetryAttempts : Int64 := 5

/-- Whether `WriteMessage` returns no error: the connection takes the frame, and the message is not
too large. -/
def written (ok : Bool) (msg : Message) : Bool := ok && (writeMessage msg).isSome

namespace Shared

/-- `SidecarConn.Send`. -/
def write (s : Shared) (conn : ℕ) (ok : Bool) (msg : Message) : Shared :=
  if written ok msg then { s with outbox := s.outbox ++ [(conn, msg)] } else s

section

variable (s : Shared) (conn : ℕ) (ok : Bool) (msg : Message)

@[simp]
theorem write_buffers : (s.write conn ok msg).buffers = s.buffers := by
  unfold write
  split_ifs <;> rfl

theorem write_outbox :
    (s.write conn ok msg).outbox = s.outbox ++ if written ok msg then [(conn, msg)] else [] := by
  unfold write
  split_ifs <;> simp

end

/-- `Register`: the sidecar takes the channel's place in the map, and gets a buffer if the
channel has none. -/
def register (s : Shared) (channel : String) (conn : ℕ) : Shared :=
  { s with
    sidecars := s.sidecars.insert channel conn
    buffers :=
      if channel ∈ s.buffers then s.buffers
      else s.buffers.insert channel
        (.newRingBuffer s.config.bufferSize s.config.highWatermark s.config.lowWatermark)
    registered := s.registered ++ [(channel, conn)] }

/-- `Unregister`: whatever sidecar the channel has is removed. -/
def unregister (s : Shared) (channel : String) : Shared :=
  { s with sidecars := s.sidecars.erase channel }

/-- `DLQ.Put` of a message; after an error the queue is as before. -/
def putDLQ (s : Shared) (now : Utc) (ok : Bool) (msg : Message) (attempts : Int64) : Shared :=
  let stored := if ok then s.dlq.put ⟨msg, attempts, now⟩ else none
  { s with
    dlq := stored.getD s.dlq
    dead := if stored.isSome then s.dead ++ [(msg, attempts)] else s.dead }

end Shared

/-- The goroutine goes on at `next`. -/
def goOn (s : Shared) (next : Conn) : Option ConnStep :=
  some { shared := s, next := next, spawn := none }

/-- `HandleInbound` of connection `t`, with `handleControl` and `scheduleRetry`.  An error of the
log, of a write or of the queue is only logged. -/
def inboundStep (s : Shared) (t : ℕ) (channel : String) (msg : Message) :
    InboundPc → Choice → Option ConnStep
  | .start, .go =>
      if msg.isControl ∧ msg.type ≠ .heartbeat then goOn s (.read channel) else none
  | .start, .write uuid now ok =>
      if msg.type = .heartbeat then goOn (s.write t ok (.newAck uuid now msg.id)) (.read channel)
      else none
  | .start, .wal ts o₁ o₂ =>
      if msg.isControl then none
      else
        let (wal, ok) := s.wal.append o₁ o₂ ts msg
        goOn { s with wal := wal, appended := if ok then s.appended ++ [msg] else s.appended }
          (.handle channel msg .push)
  | .push, .go => match s.buffers.lookup channel with
      | none => goOn s (.handle channel msg .send)
      | some buf =>
          let (buf, _, stateChanged) := buf.push msg
          goOn { s with buffers := s.buffers.insert channel buf }
            (.handle channel msg (if stateChanged then .slowDown else .send))
  | .slowDown, .write uuid now ok =>
      goOn (s.write t ok (.newMessage uuid now .slowDown channel none)) (.handle channel msg .send)
  | .send, .ok => goOn { s with sent := s.sent ++ [msg] } (.handle channel msg .complete)
  | .send, .err => goOn { s with failed := s.failed ++ [msg] } (.handle channel msg .retry)
  | .complete, .wal ts o₁ o₂ =>
      goOn { s with wal := (s.wal.complete o₁ o₂ ts msg.id).1 } (.handle channel msg .pop)
  | .pop, .go => match s.buffers.lookup channel with
      | none => goOn s (.read channel)
      | some buf =>
          let (buf, _, stateChanged) := buf.pop
          goOn { s with buffers := s.buffers.insert channel buf }
            (if stateChanged then .handle channel msg .resume else .read channel)
  | .resume, .write uuid now ok =>
      goOn (s.write t ok (.newMessage uuid now .resume channel none)) (.read channel)
  | .retry, .wal ts o₁ o₂ =>
      let (wal, attempts) := s.wal.incrementAttempts o₁ o₂ ts msg.id
      goOn { s with wal := wal } (match attempts with
        | none => .read channel
        | some n =>
            if n ≥ maxRetryAttempts then .handle channel msg (.markDLQ n) else .read channel)
  | .markDLQ n, .wal ts o₁ o₂ =>
      goOn { s with wal := (s.wal.markDLQ o₁ o₂ ts msg.id).1 } (.handle channel msg (.putDLQ n))
  | .putDLQ n, .put now ok => goOn (s.putDLQ now ok msg n) (.read channel)
  | _, _ => none

/-- `handleConn` of connection `t`. -/
def connStep (s : Shared) (t : ℕ) : Conn → Choice → Option ConnStep
  | .accepted, .recv msg => goOn s (if msg.type = .register then .register msg else .closing)
  | .accepted, .err => goOn s .closing
  | .register reg, .go => goOn (s.register reg.channel t) (.ack reg)
  | .ack reg, .write uuid now ok =>
      let ack := Message.newAck uuid now reg.id
      goOn (s.write t ok ack)
        (if written ok ack then .read reg.channel else .unregister reg.channel)
  | .read channel, .recv msg => goOn s (.handle channel msg .start)
  | .read channel, .err => goOn s (.unregister channel)
  | .handle channel msg pc, c => inboundStep s t channel msg pc c
  | .unregister channel, .go => goOn (s.unregister channel) .closing
  | .closing, .go => goOn s .closed
  | _, _ => none

/-- `ReplayWAL`, and the start of the server after it.  A failed send is only logged. -/
def replayStep (s : Shared) : Main → Choice → Option Shared
  | .replay [], .go => some { s with main := .serve }
  | .replay (entry :: todo), c => match entry.msg, c with
      | none, .go => some { s with main := .replay todo }
      | some msg, .ok =>
          some { s with sent := s.sent ++ [msg], main := .complete entry todo }
      | some msg, .err => some { s with failed := s.failed ++ [msg], main := .replay todo }
      | _, _ => none
  | .complete entry todo, .wal ts o₁ o₂ =>
      some { s with wal := (s.wal.complete o₁ o₂ ts entry.id).1, main := .replay todo }
  | _, _ => none

/-- What happens to the bus. -/
inductive Event where
  | accept
  | act (t : ℕ) (c : Choice)
  | replay (c : Choice)
  | outbound (msg : Message)
  | deliver (ok : Bool)
  | sendShutdown (writes : List (String × String × Time × Bool))
  | compact (o : Wal.CompactOutcome) (order : List String)
  | purge (now : Utc)
  | restart (order : List String)

/-- A `HandleInbound` is in progress. -/
def Conn.busy : Conn → Bool
  | .handle _ _ _ => true
  | _ => false

/-- `SendShutdown`; `writes` has the channels in the order of the iteration, and for each the id,
the time and the outcome of its message. -/
def sendShutdown (s : Shared) (writes : List (String × String × Time × Bool)) : Shared :=
  writes.foldl (fun s (channel, uuid, now, ok) =>
    match s.sidecars.lookup channel with
    | none => s
    | some conn => s.write conn ok (.newMessage uuid now .shutdown channel none)) s

def busStep (P : Bus) : Event → Option Bus
  | .accept => if P.shared.main = .serve then some (P.go .accepted) else none
  | .act t c =>
      if t < P.size then (connStep P.shared t (P.thread t) c).map (P.advance t) else none
  | .replay c => (replayStep P.shared P.shared.main c).map fun s => { P with shared := s }
  | .outbound msg =>
      if P.shared.outbound.isSome then none
      else some { P with shared :=
        { P.shared with
          outbound := (P.shared.sidecars.lookup msg.channel).map fun conn => (conn, msg) } }
  | .deliver ok => match P.shared.outbound with
      | none => none
      | some (conn, msg) =>
          if ok ∧ P.thread conn = .closed then none
          else some { P with shared := { P.shared.write conn ok msg with outbound := none } }
  | .sendShutdown writes =>
      if (writes.map Prod.fst).Nodup ∧ (writes.map Prod.fst).toFinset = P.shared.sidecars.keys then
        some { P with shared := sendShutdown P.shared writes }
      else none
  | .compact o order =>
      if P.shared.main = .serve ∧ P.shared.wal.needsCompaction ∧
          P.shared.wal.entries.Enumerates order then
        some { P with shared := { P.shared with wal := (P.shared.wal.compact o order).1 } }
      else none
  | .purge now =>
      if P.shared.main = .serve then
        some { P with shared := { P.shared with dlq := P.shared.dlq.after (.purgeExpired now) } }
      else none
  | .restart order =>
      if P.shared.main = .serve ∧ ∀ t < P.size, ¬ (P.thread t).busy then
        (Wal.newWAL (P.shared.wal.close .ok true true).1.writer.file.bytes).bind fun wal =>
          if wal.entries.Enumerates order then
            some { P with
              shared := { P.shared with
                wal := wal
                main := .replay (wal.pendingEntries order)
                sidecars := ∅
                buffers := ∅
                outbound := none }
              thread := fun _ => .closed }
          else none
      else none

/-- The bus as `runServe` starts it with an empty log and no dead letters; `NewRouter` replaces
settings that are out of range. -/
def started (config : RouterConfig) : Bus where
  shared :=
    { config :=
        { bufferSize := RingBuffer.effectiveSize config.bufferSize
          highWatermark := RingBuffer.effectiveHigh config.highWatermark
          lowWatermark := RingBuffer.effectiveLow
            (RingBuffer.effectiveHigh config.highWatermark) config.lowWatermark }
      sidecars := ∅
      buffers := ∅
      wal := Wal.start
      dlq := .new 10000 (24 * 60 * 60 * 10 ^ 9)
      main := .replay []
      outbound := none
      dead := []
      appended := []
      sent := []
      failed := []
      outbox := []
      registered := [] }
  thread _ := .closed
  size := 0

/-! ### Pieces of runs -/

/-- The settings of the examples: a buffer for ten messages. -/
def smallConfig : RouterConfig :=
  { bufferSize := 10, highWatermark := 4 / 5, lowWatermark := 3 / 10 }

/-- The registration of a sidecar. -/
def registration (channel : String) : Message :=
  { Message.plain "r" channel with type := .register }

/-- Connection `t` registers for a channel and is acknowledged. -/
def registers (t : ℕ) (channel : String) : List Event :=
  [.accept, .act t (.recv (registration channel)), .act t .go, .act t (.write "a" .zero true)]

/-- The events of a data message of connection `t` up to its `bridge.Send`. -/
def receives (t : ℕ) (msg : Message) : List Event :=
  [.act t (.recv msg), .act t (.wal "t1" .ok .ok), .act t .go]

end K8s4Claw.IpcBus
