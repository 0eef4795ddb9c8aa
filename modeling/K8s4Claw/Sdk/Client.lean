/-
# The channel SDK client

`sdk/channel/client.go`: a `Client` keeps one connection to the IPC bus for a
channel sidecar.  Its methods and goroutines run concurrently:

* `Send`, called by the user from any goroutine;
* `readLoop`, started by `Connect` and again after every reconnect;
* `heartbeatLoop`, started by `Connect`;
* `reconnectLoop`, started by `tryReconnect` when none is running;
* `Close`, called by the user or by `readLoop` on a shutdown message.

The model is a pool of these goroutines over the fields of the client.  An
atomic step is a section under `c.mu` (or `throttleMu`, or the buffer's mutex),
one read or write on a connection, or one `select`.  A `Choice` is what the
environment decides in the step: which case a `select` takes, whether a read or
write succeeds, which message is received.

Connections are numbered in the order they are opened.  A read or write can
succeed only on a connection this client has not closed and whose peer is still
there; it can fail at any time.  `Connect` returns after its own `dial`, so the
initial state has connection 0 installed, one `readLoop` and the
`heartbeatLoop`.

Ghost state, not in the source: `wire` records the data messages written, `dials`
how many connections were opened, `teardowns` which connection each
`markDisconnected` closed and because of an error on which one, and a `readLoop`
carries the number of the connection it was started for.
-/

import K8s4Claw.Lib.Pool
import K8s4Claw.Lib.Run
import K8s4Claw.Sdk.Buffer

namespace K8s4Claw.Sdk

open Lib

/-- `InboundMessage`. -/
structure InboundMessage where
  id : String
  channel : String
  payload : List UInt8
  deriving DecidableEq

/-- The capacity of the channel `c.inbound`. -/
def inboundCap : ℕ := 64

/-- The fields of `Client` the goroutines share, and the ghost state. -/
structure Shared where
  conn : Option ℕ
  connected : Bool
  reconnecting : Bool
  /-- `c.done` is closed. -/
  closed : Bool
  buf : Buffer
  throttled : Bool
  /-- The current `throttleCh`; each slow_down makes the next channel. -/
  throttleCh : ℕ
  /-- The throttle channels that are closed. -/
  closedChs : List ℕ
  inbound : List InboundMessage
  /-- `c.inbound` is closed. -/
  inboundClosed : Bool
  /-- The connections this client closed. -/
  closedConns : List ℕ
  /-- The connections whose peer is gone. -/
  lost : List ℕ
  /-- A goroutine panicked, so the process is gone. -/
  crashed : Bool
  dials : ℕ
  wire : List (ℕ × Message)
  teardowns : List (ℕ × Option ℕ)

/-- What `Send` returns: `nil`, or an error. -/
inductive SendResult where
  | nil
  | bufferFull
  | ctxErr
  | clientClosed
  deriving DecidableEq

/-- Where a `Send` is.  `write g` is before `writeMessage` on `g`, `mark g` after
it failed, before `markDisconnected`. -/
inductive SendPc where
  | throttle
  | wait (ch : ℕ)
  | fetch
  | buffer
  | write (g : ℕ)
  | mark (g : ℕ)
  | rebuffer
  | reconnect
  | ret (r : SendResult)

/-- Where a `readLoop` is.  `recv g` is in `readMessage` on `g`, `failed g` after
it failed, before the second look at `done`. -/
inductive ReadPc where
  | top
  | fetch
  | recv (g : ℕ)
  | handle (g : ℕ) (msg : Message)
  | failed (g : ℕ)
  | mark (g : ℕ)
  | reconnect

/-- Where the `heartbeatLoop` is. -/
inductive BeatPc where
  | wait
  | fetch
  | write (g : ℕ)
  | mark (g : ℕ)
  | reconnect

/-- Where a `reconnectLoop` is: in the `select`, in `dial` up to the point where
the connection is installed, in `replayBuffer`, or on its way out.  `g` is the
connection `dial` opened, `h` the one the replay writes to. -/
inductive LoopPc where
  | wait
  | dial
  | register (g : ℕ)
  | ack (g : ℕ)
  | install (g : ℕ)
  | drain (g : ℕ)
  | fetch (g : ℕ) (msgs : List Message)
  | write (g h : ℕ) (msg : Message) (msgs : List Message)
  | repush (g : ℕ) (msg : Message)
  | spawn (g : ℕ)
  | exit

/-- Where a `Close` is. -/
inductive ClosePc where
  | done
  | conn
  | inbound

/-- A goroutine.  A `readLoop` carries the connection it was started for; a `Close`
that a `readLoop` called carries the same, to go back to it. -/
inductive Thread where
  | idle
  | send (msg : Message) (pc : SendPc)
  | read (born : ℕ) (pc : ReadPc)
  | beat (pc : BeatPc)
  | loop (pc : LoopPc)
  | close (back : Option ℕ) (pc : ClosePc)

/-- What the environment decides in a step. -/
inductive Choice where
  | go
  | done
  | cancel
  | tick
  | ok
  | err
  | recv (msg : Message)

abbrev Client := Pool Shared Thread

/-- A step of one goroutine of the client. -/
abbrev Step := Effect Shared Thread

namespace Shared

/-- A read or write on `g` can succeed. -/
def usable (s : Shared) (g : ℕ) : Bool := g ∉ s.closedConns && g ∉ s.lost

/-- `markDisconnected`, called because of an error on `g`: whatever connection is
current is closed and cleared. -/
def markDisconnected (s : Shared) (g : ℕ) : Shared :=
  match s.conn with
  | none => { s with connected := false, teardowns := s.teardowns ++ [(g, none)] }
  | some h => { s with
      connected := false
      conn := none
      closedConns := h :: s.closedConns
      teardowns := s.teardowns ++ [(g, some h)] }

/-- `tryReconnect`: start a `reconnectLoop` unless one is running. -/
def tryReconnect (s : Shared) (next : Thread) : Step :=
  if s.reconnecting then ⟨s, next, none⟩
  else ⟨{ s with reconnecting := true }, next, some (.loop .wait)⟩

/-- The current connection, if the client is connected. -/
def current (s : Shared) : Option ℕ := if s.connected then s.conn else none

end Shared

/-- `Send`. -/
def sendStep (s : Shared) (msg : Message) : SendPc → Choice → Option Step
  | .throttle, .go =>
      some ⟨s, .send msg (if s.throttled then .wait s.throttleCh else .fetch), none⟩
  | .wait ch, .go => if ch ∈ s.closedChs then some ⟨s, .send msg .fetch, none⟩ else none
  | .wait _, .cancel => some ⟨s, .send msg (.ret .ctxErr), none⟩
  | .wait _, .done => if s.closed then some ⟨s, .send msg (.ret .clientClosed), none⟩ else none
  | .fetch, .go => match s.current with
      | some g => some ⟨s, .send msg (.write g), none⟩
      | none => some ⟨s, .send msg .buffer, none⟩
  | .buffer, .go =>
      let r := s.buf.push msg
      some ⟨{ s with buf := r.1 }, .send msg (.ret (if r.2 then .nil else .bufferFull)), none⟩
  | .write g, .ok =>
      if s.usable g then some ⟨{ s with wire := s.wire ++ [(g, msg)] }, .send msg (.ret .nil), none⟩
      else none
  | .write g, .err => some ⟨s, .send msg (.mark g), none⟩
  | .mark g, .go => some ⟨s.markDisconnected g, .send msg .rebuffer, none⟩
  -- the result of this second push is not looked at
  | .rebuffer, .go => some ⟨{ s with buf := (s.buf.push msg).1 }, .send msg .reconnect, none⟩
  | .reconnect, .go => some (s.tryReconnect (.send msg (.ret .nil)))
  | _, _ => none

/-- `handleMessage`, in the `readLoop` started for `born`.  A second resume closes
a closed channel, and a delivery after `Close` sends on one: both panic. -/
def handleMessage (s : Shared) (born : ℕ) (msg : Message) : Choice → Option Step
  | .go => match msg.type with
      | .slowDown =>
          some ⟨{ s with throttled := true, throttleCh := s.throttleCh + 1 }, .read born .top, none⟩
      | .resume =>
          if s.throttleCh ∈ s.closedChs then
            some ⟨{ s with throttled := false, crashed := true }, .idle, none⟩
          else some ⟨{ s with throttled := false, closedChs := s.throttleCh :: s.closedChs },
            .read born .top, none⟩
      | .shutdown => some ⟨s, .close (some born) .done, none⟩
      | .message =>
          if s.inboundClosed then some ⟨{ s with crashed := true }, .idle, none⟩
          else if s.inbound.length < inboundCap then
            some ⟨{ s with inbound := s.inbound ++ [⟨msg.id, msg.channel, msg.payload⟩] },
              .read born .top, none⟩
          else some ⟨s, .read born .top, none⟩
      | _ => some ⟨s, .read born .top, none⟩
  | .done =>
      if msg.type = .message ∧ s.closed then some ⟨s, .read born .top, none⟩ else none
  | _ => none

/-- `readLoop`. -/
def readStep (s : Shared) (born : ℕ) : ReadPc → Choice → Option Step
  | .top, .go => some ⟨s, if s.closed then .idle else .read born .fetch, none⟩
  | .fetch, .go => match s.conn with
      | none => some ⟨s, .read born .top, none⟩
      | some g => some ⟨s, .read born (.recv g), none⟩
  | .recv g, .recv msg => if s.usable g then some ⟨s, .read born (.handle g msg), none⟩ else none
  | .recv g, .err => some ⟨s, .read born (.failed g), none⟩
  | .handle _ msg, c => handleMessage s born msg c
  | .failed g, .go => some ⟨s, if s.closed then .idle else .read born (.mark g), none⟩
  | .mark g, .go => some ⟨s.markDisconnected g, .read born .reconnect, none⟩
  | .reconnect, .go => some (s.tryReconnect .idle)
  | _, _ => none

/-- `heartbeatLoop`. -/
def beatStep (s : Shared) : BeatPc → Choice → Option Step
  | .wait, .done => if s.closed then some ⟨s, .idle, none⟩ else none
  | .wait, .tick => some ⟨s, .beat .fetch, none⟩
  | .fetch, .go => match s.current with
      | some g => some ⟨s, .beat (.write g), none⟩
      | none => some ⟨s, .beat .wait, none⟩
  | .write g, .ok => if s.usable g then some ⟨s, .beat .wait, none⟩ else none
  | .write g, .err => some ⟨s, .beat (.mark g), none⟩
  | .mark g, .go => some ⟨s.markDisconnected g, .beat .reconnect, none⟩
  | .reconnect, .go => some (s.tryReconnect (.beat .wait))
  | _, _ => none

/-- `reconnectLoop`, with `dial` and `replayBuffer`.  `dial` closes a connection
whose registration fails; once it is installed, `dial` returns nil whatever the
replay does. -/
def loopStep (s : Shared) : LoopPc → Choice → Option Step
  | .wait, .done => if s.closed then some ⟨s, .loop .exit, none⟩ else none
  | .wait, .tick => some ⟨s, .loop .dial, none⟩
  | .dial, .ok => some ⟨{ s with dials := s.dials + 1 }, .loop (.register s.dials), none⟩
  | .dial, .err => some ⟨s, .loop .wait, none⟩
  | .register g, .ok => if s.usable g then some ⟨s, .loop (.ack g), none⟩ else none
  | .register g, .err => some ⟨{ s with closedConns := g :: s.closedConns }, .loop .wait, none⟩
  | .ack g, .ok => if s.usable g then some ⟨s, .loop (.install g), none⟩ else none
  | .ack g, .err => some ⟨{ s with closedConns := g :: s.closedConns }, .loop .wait, none⟩
  | .install g, .go => some ⟨{ s with conn := some g, connected := true }, .loop (.drain g), none⟩
  | .drain g, .go =>
      let d := s.buf.drainAll
      some ⟨{ s with buf := d.2 }, .loop (.fetch g d.1), none⟩
  | .fetch g [], .go => some ⟨s, .loop (.spawn g), none⟩
  | .fetch g (msg :: msgs), .go => match s.conn with
      | none => some ⟨s, .loop (.repush g msg), none⟩
      | some h => some ⟨s, .loop (.write g h msg msgs), none⟩
  | .write g h msg msgs, .ok =>
      if s.usable h then some ⟨{ s with wire := s.wire ++ [(h, msg)] }, .loop (.fetch g msgs), none⟩
      else none
  | .write g _ msg _, .err => some ⟨s, .loop (.repush g msg), none⟩
  | .repush g msg, .go => some ⟨{ s with buf := (s.buf.push msg).1 }, .loop (.spawn g), none⟩
  | .spawn g, .go => some ⟨s, .loop .exit, some (.read g .top)⟩
  | .exit, .go => some ⟨{ s with reconnecting := false }, .idle, none⟩
  | _, _ => none

/-- The goroutine that called `Close` goes on. -/
def Thread.resume : Option ℕ → Thread
  | none => .idle
  | some born => .read born .top

/-- `Close`: under `closeOnce`, so a second call waits for the first to end. -/
def closeStep (s : Shared) (back : Option ℕ) : ClosePc → Choice → Option Step
  | .done, .go =>
      if s.closed then
        if s.inboundClosed then some ⟨s, .resume back, none⟩ else none
      else some ⟨{ s with closed := true }, .close back .conn, none⟩
  | .conn, .go => match s.conn with
      | none => some ⟨s, .close back .inbound, none⟩
      | some g => some ⟨{ s with closedConns := g :: s.closedConns }, .close back .inbound, none⟩
  | .inbound, .go => some ⟨{ s with inboundClosed := true }, .resume back, none⟩
  | _, _ => none

/-- The next step of a goroutine. -/
def act (s : Shared) : Thread → Choice → Option Step
  | .idle, _ => none
  | .send msg pc, c => sendStep s msg pc c
  | .read born pc, c => readStep s born pc c
  | .beat pc, c => beatStep s pc c
  | .loop pc, c => loopStep s pc c
  | .close back pc, c => closeStep s back pc c

/-- What happens to a client: the user calls `Send` or `Close` or takes an inbound
message, a goroutine takes a step, or the peer of a connection goes away. -/
inductive Event where
  | send (msg : Message)
  | close
  | receive
  | act (t : ℕ) (c : Choice)
  | lose (g : ℕ)

/-- One step of the client; none after a panic. -/
def clientStep (P : Client) (ev : Event) : Option Client :=
  if P.shared.crashed then none
  else match ev with
    | .send msg => some (P.go (.send msg .throttle))
    | .close => some (P.go (.close none .done))
    | .receive => match P.shared.inbound with
        | [] => none
        | _ :: ms => some { P with shared := { P.shared with inbound := ms } }
    | .act t c =>
        if t < P.size then (act P.shared (P.thread t) c).map (P.advance t) else none
    | .lose g => some { P with shared := { P.shared with lost := g :: P.shared.lost } }

/-- The client `Connect` returns, with the buffer size of its options. -/
def connected (bufferSize : ℤ) : Client where
  shared :=
    { conn := some 0
      connected := true
      reconnecting := false
      closed := false
      buf := newBuffer bufferSize
      throttled := false
      throttleCh := 0
      closedChs := []
      inbound := []
      inboundClosed := false
      closedConns := []
      lost := []
      crashed := false
      dials := 1
      wire := []
      teardowns := [] }
  thread t := if t = 0 then .read 0 .top else if t = 1 then .beat .wait else .idle
  size := 2

end K8s4Claw.Sdk
