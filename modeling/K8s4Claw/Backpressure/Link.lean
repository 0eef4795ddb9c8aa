/-
# A client connected to the bus

The bus of `K8s4Claw.IpcBus.Bus` and one client of `K8s4Claw.Sdk.Client` on one channel, with
what the bus wrote to the client's connections and the client has not read yet.  A step is a
step of the bus, a step of the client, or a `dial` of the client that the bus accepts.

The bus side of a connection reads the registration the client writes first; what else it reads
is left open.  The client reads from a connection what the bus wrote to it, in order.  Data
written before a connection was lost can no longer be read; the bus may be restarted while
written data is still on its way.
-/

import K8s4Claw.IpcBus.Bus
import K8s4Claw.Sdk.Client

namespace K8s4Claw.Backpressure

open Function

/-- What `readMessage` of the client makes of a message the bus wrote. -/
def received (m : IpcBus.Message) : Sdk.Message where
  id := m.id
  type := m.type
  channel := m.channel
  correlationID := m.correlationID
  replyTo := m.replyTo
  timestamp := String.ofList (m.timestamp.format.map fun b => Char.ofNat b.toNat)
  payload := (m.payload.map Lib.Json.print).getD []

/-- What the router wrote to connection `b` on the way from `s` to `s'`. -/
def news (s s' : IpcBus.Shared) (b : ℕ) : List IpcBus.Message :=
  ((s'.outbox.drop s.outbox.length).filter fun w => w.1 = b).map Prod.snd

/-- The bus and the client; `peer g` is the connection of the bus at the other end of the client's
connection `g`, and `flight g` what the bus wrote to it and the client has not read. -/
structure Link where
  bus : IpcBus.Bus
  client : Sdk.Client
  peer : ℕ → ℕ
  flight : ℕ → List IpcBus.Message

/-- A step of the bus, a step of the client, or a connection that the `reconnectLoop` `t` of the
client opens and that is connection `b` for the bus. -/
inductive Event where
  | bus (ev : IpcBus.Event)
  | client (ev : Sdk.Event)
  | dial (t b : ℕ)

namespace Link

/-- Connection `b` of the bus was opened by the client. -/
def isPeer (L : Link) (b : ℕ) : Prop := ∃ g < L.client.shared.dials, L.peer g = b

instance (L : Link) (b : ℕ) : Decidable (L.isPeer b) :=
  inferInstanceAs (Decidable (∃ g < _, _))

/-- The first message the bus reads from a connection of the client. -/
def registration (L : Link) : IpcBus.Event → Option IpcBus.Message
  | .act b (.recv msg) => if L.bus.thread b = .accepted ∧ L.isPeer b then some msg else none
  | _ => none

/-- What the client writes first is its registration for the channel. -/
def admits (channel : String) (L : Link) (ev : IpcBus.Event) : Prop :=
  ∀ msg ∈ L.registration ev, msg.type = .register ∧ msg.channel = channel
  deriving Decidable

/-- What is left on the way when the client takes a step: a `readLoop` takes the message it
reads, and the `dial` of a `reconnectLoop` the acknowledgement it waits for. -/
def takes (L : Link) : Sdk.Event → Option (ℕ → List IpcBus.Message)
  | .act t c => match L.client.thread t, c with
      | .read _ (.recv g), .recv msg => match L.flight g with
          | m :: ms => if msg = received m then some (update L.flight g ms) else none
          | [] => none
      | .loop (.ack g), .ok => match L.flight g with
          | m :: ms => if m.type = .ack then some (update L.flight g ms) else none
          | [] => none
      | .loop .dial, .ok => none
      | _, _ => some L.flight
  | _ => some L.flight

/-- One step of the bus or of the client. -/
def step (channel : String) (L : Link) : Event → Option Link
  | .bus ev =>
      if L.admits channel ev then
        (IpcBus.busStep L.bus ev).map fun P =>
          { L with
            bus := P
            flight := fun g => L.flight g ++ news L.bus.shared P.shared (L.peer g) }
      else none
  | .client ev =>
      (L.takes ev).bind fun flight =>
        (Sdk.clientStep L.client ev).map fun C => { L with client := C, flight := flight }
  | .dial t b => match L.client.thread t with
      | .loop .dial =>
          if b < L.bus.size ∧ L.bus.thread b = .accepted ∧ ¬ L.isPeer b then
            (Sdk.clientStep L.client (.act t .ok)).map fun C =>
              { L with
                client := C
                peer := update L.peer L.client.shared.dials b
                flight := update L.flight L.client.shared.dials [] }
          else none
      | _ => none

/-- The bus starts and acknowledges the registration `reg` of its first connection. -/
def connects (reg : IpcBus.Message) (uuid : String) (now : Lib.Time) : List IpcBus.Event :=
  [.replay .go, .accept, .act 0 (.recv reg), .act 0 .go, .act 0 (.write uuid now true)]

/-- The bus `P`, and the client that `Connect` returns for its connection 0. -/
def initial (P : IpcBus.Bus) (bufferSize : ℤ) : Link where
  bus := P
  client := Sdk.connected bufferSize
  peer _ := 0
  flight _ := []

end Link
end K8s4Claw.Backpressure
