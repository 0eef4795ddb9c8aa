/-
# Bridges to a runtime that is not up

`runServe` of `cmd/ipcbus/main.go` calls `Connect` of the bridge once and goes on if it fails: the
outbound loop of the router calls `Receive`, the replay of the log and the sidecars call `Send`, and
a signal leads to `Close` and to the end of the context.  Of the bridges that `NewBridge`
(`internal/ipcbus/bridge.go`) can return,

* the one over a websocket (`bridge_ws.go`) uses its connection in `Send` and in the goroutine of
  `Receive` without looking whether there is one;
* those over a socket (`bridge_stream.go`) look in `Send` and not in the two goroutines of
  `Receive`;
* the one over server-sent events (`bridge_sse.go`) has no connection: `Send` is a request of its
  own, and the goroutine of `Receive` tries again and again.
-/

import K8s4Claw.Lib.Run

namespace K8s4Claw.IpcBus

open Option
open Lib (Along Meets run)

structure BridgeConfig where
  gatewayPort : ℤ
  socketPath : String
  deriving DecidableEq

/-- The bridges, with what they connect to. -/
inductive Bridge
  | websocket (url : String)
  | uds (path : String)
  | sse (baseURL : String)
  | tcp (addr : String)
  deriving DecidableEq

def newBridge (rt : String) (cfg : BridgeConfig) : Except String Bridge :=
  match rt with
  | "openclaw" => .ok (.websocket ("ws://localhost:" ++ toString cfg.gatewayPort))
  | "nanoclaw" => .ok (.uds cfg.socketPath)
  | "zeroclaw" => .ok (.sse ("http://localhost:" ++ toString cfg.gatewayPort))
  | "picoclaw" => .ok (.tcp ("localhost:" ++ toString cfg.gatewayPort))
  | rt => .error ("unsupported runtime type: " ++ rt)

/-- The code a bridge runs; `UDSBridge` and `TCPBridge` share `streamBridge`. -/
inductive Transport
  | websocket
  | stream
  | sse
  deriving DecidableEq

def Bridge.transport : Bridge → Transport
  | .websocket _ => .websocket
  | .uds _ | .tcp _ => .stream
  | .sse _ => .sse

/-- The goroutine of `Receive`. -/
inductive Reader
  | unstarted
  /-- `streamBridge`: before it starts the goroutine that waits for the context. -/
  | start
  /-- At the head of its loop. -/
  | loop
  /-- `SSEBridge`: with the answer of the runtime, and waiting to ask again. -/
  | streaming
  | backoff
  /-- With a message for the channel. -/
  | deliver
  /-- The channel is closed. -/
  | exited
  deriving DecidableEq

/-- The goroutine of `streamBridge` that waits for the context. -/
inductive Watcher
  | unstarted
  | waiting
  | exited
  deriving DecidableEq

/-- A bridge in `runServe`.  Ghost state: whether `Connect` returned nil, and whether a `Send`
did. -/
structure Host where
  transport : Transport
  tried : Bool := false
  connected : Bool := false
  /-- `b.conn != nil`. -/
  conn : Bool := false
  closed : Bool := false
  cancelled : Bool := false
  reader : Reader := .unstarted
  watcher : Watcher := .unstarted
  accepted : Bool := false
  panicked : Bool := false
  deriving DecidableEq

def Bridge.fresh (b : Bridge) : Host := { transport := b.transport }

/-- What the goroutine of `Receive` comes upon. -/
inductive Got
  | message
  | malformed
  | error
  | eof
  /-- The channel takes the message. -/
  | taken
  /-- The bridge is closed or the context is done. -/
  | done
  | elapsed
  /-- A step that depends on nothing else. -/
  | next
  deriving DecidableEq

inductive BridgeEvent
  | connect (ok : Bool)
  | receive
  /-- A `Send`, whether its message can be encoded, and how the write or the request ends. -/
  | send (encodes ok : Bool)
  | read (got : Got)
  /-- The goroutine that waits for the context goes on, by the context or because the bridge is
  closed. -/
  | watch (byContext : Bool)
  | close
  | cancel
  deriving DecidableEq

namespace Host

/-- The process ends if there is no connection to use. -/
def onConn (h next : Host) : Host := if h.conn then next else { h with panicked := true }

def send (h : Host) (encodes ok : Bool) : Host :=
  let sent := { h with accepted := h.accepted || (encodes && ok) }
  match h.transport with
  | .websocket => if encodes then h.onConn sent else h
  | .stream => if h.conn then sent else h
  | .sse => sent

/-- The bridge is closed or the context is done. -/
def isDone (h : Host) : Bool := h.closed || h.cancelled

/-- A step of the goroutine of `Receive`. -/
def read (h : Host) : Reader → Got → Option Host
  | .start, .next => some { h with reader := .loop, watcher := .waiting }
  | .loop, got =>
      match h.transport, got with
      | .websocket, .message | .stream, .message => some (h.onConn { h with reader := .deliver })
      | .websocket, .malformed => some (h.onConn { h with reader := .loop })
      | .websocket, .error | .stream, .error => some (h.onConn { h with reader := .exited })
      | .sse, .next => some { h with reader := if h.isDone then .exited else .streaming }
      | _, _ => none
  | .streaming, .message => some { h with reader := .deliver }
  | .streaming, .malformed => some { h with reader := .streaming }
  | .streaming, .error => some { h with reader := .backoff }
  | .streaming, .eof => some { h with reader := .exited }
  | .backoff, .elapsed => some { h with reader := .loop }
  | .deliver, .taken =>
      some { h with reader := if h.transport = .sse then .streaming else .loop }
  | .backoff, .done | .deliver, .done =>
      if h.isDone then some { h with reader := .exited } else none
  | _, _ => none

/-- A step of the goroutine that waits for the context. -/
def watch (h : Host) (byContext : Bool) : Option Host :=
  if h.watcher ≠ .waiting then none
  else if byContext then
    if h.cancelled then some (h.onConn { h with watcher := .exited }) else none
  else if h.closed then some { h with watcher := .exited }
  else none

end Host

/-- What happens to the bridge, in the order in which `runServe` and the router use it: `Connect`
first and once, then one `Receive`, and `Send`s at any time; `Close` and the end of the context
come at any time, since a signal may. -/
def bridgeStep (h : Host) (event : BridgeEvent) : Option Host :=
  if h.panicked then none
  else
    match event with
    | .connect ok =>
        if h.tried then none
        else some { h with tried := true, connected := ok, conn := ok && h.transport ≠ .sse }
    | .receive =>
        if h.tried ∧ h.reader = .unstarted then
          some { h with reader := if h.transport = .stream then .start else .loop }
        else none
    | .send encodes ok => if h.tried then some (h.send encodes ok) else none
    | .read got => h.read h.reader got
    | .watch byContext => h.watch byContext
    | .close => some { h with closed := true }
    | .cancel => some { h with cancelled := true }

/-- The goroutine of `Receive` has gone on with an open channel. -/
def Reader.listens : Reader → Bool
  | .streaming | .backoff | .deliver => true
  | .unstarted | .start | .loop | .exited => false

/-- No nil connection was used; and while `Connect` has not succeeded no `Send` has returned nil,
and all that the goroutine of `Receive` has done is close its channel. -/
def Tolerant (h : Host) : Prop :=
  h.panicked = false ∧
    (h.connected = false → h.accepted = false ∧ h.reader.listens = false)

/-- What can be done while there is no connection: a websocket bridge is asked to send only what
cannot be encoded, and a request of an SSE bridge fails; the loops of `Receive` do not run, but for
that of an SSE bridge that is closed or whose context is done; and no context ends the wait of a
socket bridge. -/
def Host.unneeded (h : Host) : BridgeEvent → Bool
  | .send encodes ok =>
      match h.transport with
      | .websocket => !encodes
      | .stream => true
      | .sse => !(encodes && ok)
  | .read _ => if h.transport = .sse then h.isDone else h.reader ≠ .loop
  | .watch byContext => !byContext
  | .connect _ | .receive | .close | .cancel => true

/-- `Connect` has succeeded, or is not needed. -/
def Ready (h : Host) (event : BridgeEvent) : Prop := h.connected = true ∨ h.unneeded event = true
  deriving Decidable

/-- What `runServe` keeps to. -/
structure Host.Sane (h : Host) : Prop where
  untried : h.tried = false → h.connected = false
  conn : h.conn = (h.connected && decide (h.transport ≠ .sse))
  watcher : h.watcher ≠ .unstarted → h.transport = .stream
  start : h.reader = .start → h.transport = .stream

theorem Bridge.sane_fresh (b : Bridge) : b.fresh.Sane :=
  ⟨fun _ => rfl, rfl, fun h => absurd rfl h, nofun⟩

section

variable {h h' : Host}

theorem Host.Sane.conn_eq (hs : h.Sane) (ht : h.transport ≠ .sse) : h.conn = h.connected := by
  rw [hs.conn]
  simp [ht]

/-- What a step of the goroutine of `Receive` does. -/
inductive ReadMove (h h' : Host) : Prop
  | start (hreader : h.reader = .start)
      (hh' : h' = { h with reader := .loop, watcher := .waiting })
  | use (reader : Reader) (hreader : h.reader = .loop) (ht : h.transport ≠ .sse)
      (hnext : reader ≠ .start) (hh' : h' = h.onConn { h with reader := reader })
  | ask (hreader : h.reader = .loop) (ht : h.transport = .sse)
      (hh' : h' = { h with reader := if h.isDone then .exited else .streaming })
  | listen (reader : Reader) (hreader : h.reader.listens = true) (hnext : reader ≠ .start)
      (hh' : h' = { h with reader := reader })

variable {got : Got} {byContext : Bool} {event : BridgeEvent}

theorem read_move (hstep : h.read h.reader got = some h') : ReadMove h h' := by
  have hlisten : ∀ reader : Reader, h.reader.listens = true → reader ≠ .start →
      some { h with reader := reader } = some h' → ReadMove h h' :=
    fun reader hreader hnext heq => .listen reader hreader hnext (some.inj heq).symm
  cases hreader : h.reader with
  | unstarted | exited =>
    rw [hreader] at hstep
    cases got <;> cases hstep
  | start =>
    rw [hreader] at hstep
    cases got with
    | next => exact .start hreader (some.inj hstep).symm
    | _ => cases hstep
  | loop =>
    rw [hreader] at hstep
    have huse : ∀ reader : Reader, h.transport ≠ .sse → reader ≠ .start →
        some (h.onConn { h with reader := reader }) = some h' → ReadMove h h' :=
      fun reader ht hnext heq => .use reader hreader ht hnext (some.inj heq).symm
    simp only [Host.read] at hstep
    split at hstep
    case h_6 ht => exact .ask hreader ht (some.inj hstep).symm
    case h_7 => cases hstep
    all_goals next ht => exact huse _ (by simp [ht]) (by simp) hstep
  | streaming =>
    have hl : h.reader.listens = true := by rw [hreader]; rfl
    rw [hreader] at hstep
    cases got with
    | message | malformed | error | eof => exact hlisten _ hl (by simp) hstep
    | _ => cases hstep
  | backoff =>
    have hl : h.reader.listens = true := by rw [hreader]; rfl
    rw [hreader] at hstep
    cases got with
    | elapsed => exact hlisten _ hl (by simp) hstep
    | done =>
      simp only [Host.read] at hstep
      split_ifs at hstep
      exact hlisten _ hl (by simp) hstep
    | _ => cases hstep
  | deliver =>
    have hl : h.reader.listens = true := by rw [hreader]; rfl
    rw [hreader] at hstep
    cases got with
    | taken => exact hlisten _ hl (by split_ifs <;> simp) hstep
    | done =>
      simp only [Host.read] at hstep
      split_ifs at hstep
      exact hlisten _ hl (by simp) hstep
    | _ => cases hstep

theorem Host.Sane.onConn {next : Host} (hs : h.Sane) (hnext : next.Sane) :
    (h.onConn next).Sane := by
  unfold Host.onConn
  split_ifs
  · exact hnext
  · exact ⟨hs.untried, hs.conn, hs.watcher, hs.start⟩

theorem Host.Sane.withReader {reader : Reader} (hs : h.Sane) (hr : reader ≠ .start) :
    ({ h with reader := reader } : Host).Sane :=
  ⟨hs.untried, hs.conn, hs.watcher, fun heq => absurd heq hr⟩

theorem Host.Sane.read (hs : h.Sane) (hstep : h.read h.reader got = some h') : h'.Sane := by
  cases read_move hstep with
  | start hreader hh' =>
    rw [hh']
    exact ⟨hs.untried, hs.conn, fun _ => hs.start hreader, nofun⟩
  | use _ _ _ hnext hh' =>
    rw [hh']
    exact hs.onConn (hs.withReader hnext)
  | ask _ _ hh' =>
    rw [hh']
    exact hs.withReader (by split_ifs <;> simp)
  | listen _ _ hnext hh' =>
    rw [hh']
    exact hs.withReader hnext

theorem Host.Sane.send (hs : h.Sane) (encodes ok : Bool) : (h.send encodes ok).Sane := by
  have hsent : ({ h with accepted := h.accepted || (encodes && ok) } : Host).Sane :=
    ⟨hs.untried, hs.conn, hs.watcher, hs.start⟩
  unfold Host.send
  split
  · split_ifs
    · exact hs.onConn hsent
    · exact hs
  · split_ifs
    · exact hsent
    · exact hs
  · exact hsent

theorem watch_cases (hstep : h.watch byContext = some h') :
    h.watcher = .waiting ∧
      (byContext = true ∧ h' = h.onConn { h with watcher := .exited } ∨
        byContext = false ∧ h' = { h with watcher := .exited }) := by
  unfold Host.watch at hstep
  split_ifs at hstep with hwatcher hcontext
  · exact ⟨not_not.mp hwatcher, .inl ⟨hcontext, (some.inj hstep).symm⟩⟩
  · refine ⟨not_not.mp hwatcher, .inr ⟨Bool.eq_false_iff.mpr hcontext, ?_⟩⟩
    exact (some.inj hstep).symm

theorem Host.Sane.watch (hs : h.Sane) (hstep : h.watch byContext = some h') : h'.Sane := by
  obtain ⟨hwatcher, hcases⟩ := watch_cases hstep
  have hstream : h.transport = .stream := hs.watcher (by simp [hwatcher])
  have hexited : ({ h with watcher := .exited } : Host).Sane :=
    ⟨hs.untried, hs.conn, fun _ => hstream, hs.start⟩
  rcases hcases with ⟨-, rfl⟩ | ⟨-, rfl⟩
  · exact hs.onConn hexited
  · exact hexited

/-- What happens in a step. -/
inductive BridgeMove (h : Host) : BridgeEvent → Host → Prop
  | connect (ok : Bool) (htried : h.tried = false) :
      BridgeMove h (.connect ok)
        { h with tried := true, connected := ok, conn := ok && h.transport ≠ .sse }
  | receive (reader : Reader) (hstart : reader = .start → h.transport = .stream)
      (hsilent : reader.listens = false) : BridgeMove h .receive { h with reader := reader }
  | send (encodes ok : Bool) : BridgeMove h (.send encodes ok) (h.send encodes ok)
  | read (got : Got) (h' : Host) (hread : h.read h.reader got = some h') :
      BridgeMove h (.read got) h'
  | watch (byContext : Bool) (h' : Host) (hwatch : h.watch byContext = some h') :
      BridgeMove h (.watch byContext) h'
  | close : BridgeMove h .close { h with closed := true }
  | cancel : BridgeMove h .cancel { h with cancelled := true }

theorem bridgeStep_move (hstep : bridgeStep h event = some h') : BridgeMove h event h' := by
  unfold bridgeStep at hstep
  split at hstep
  · cases hstep
  · cases event with
    | connect ok =>
      simp only at hstep
      split_ifs at hstep with htried
      cases hstep
      exact .connect ok (Bool.eq_false_iff.mpr htried)
    | receive =>
      simp only at hstep
      split_ifs at hstep with _ ht
      · cases hstep
        exact .receive .start (fun _ => ht) rfl
      · cases hstep
        exact .receive .loop nofun rfl
    | send encodes ok =>
      simp only at hstep
      split_ifs at hstep
      cases hstep
      exact .send encodes ok
    | read got => exact .read got h' hstep
    | watch byContext => exact .watch byContext h' hstep
    | close =>
      cases hstep
      exact .close
    | cancel =>
      cases hstep
      exact .cancel

theorem Host.Sane.step (hs : h.Sane) (hstep : bridgeStep h event = some h') : h'.Sane := by
  cases bridgeStep_move hstep with
  | connect => exact ⟨nofun, rfl, hs.watcher, hs.start⟩
  | receive _ hstart => exact ⟨hs.untried, hs.conn, hs.watcher, hstart⟩
  | send encodes ok => exact hs.send encodes ok
  | read _ h' hread => exact hs.read hread
  | watch _ h' hwatch => exact hs.watch hwatch
  | close | cancel => exact ⟨hs.untried, hs.conn, hs.watcher, hs.start⟩

theorem tolerant_onConn_iff {next : Host} (hs : h.Sane) (ht : h.transport ≠ .sse)
    (hpanicked : next.panicked = false) (hconnected : next.connected = h.connected) :
    Tolerant (h.onConn next) ↔ h.connected = true := by
  unfold Host.onConn
  rw [hs.conn_eq ht]
  split_ifs with hc
  · refine iff_of_true ⟨hpanicked, fun hno => ?_⟩ hc
    rw [hconnected, hc] at hno
    cases hno
  · exact iff_of_false (fun htol => Bool.noConfusion htol.1) hc

theorem tolerant_of_connected (hpanicked : h.panicked = false) (hc : h.connected = true) :
    Tolerant h :=
  ⟨hpanicked, fun hno => by rw [hc] at hno; cases hno⟩

variable (hs : h.Sane) (htol : Tolerant h)

include hs htol

theorem tolerant_read_iff (hread : h.read h.reader got = some h') :
    Tolerant h' ↔ Ready h (.read got) := by
  obtain ⟨hpanicked, hearly⟩ := htol
  cases read_move hread with
  | start hreader hh' =>
    rw [hh']
    refine iff_of_true ⟨hpanicked, fun hno => ⟨(hearly hno).1, rfl⟩⟩ (.inr ?_)
    simp [Host.unneeded, hs.start hreader, hreader]
  | use _ hreader ht _ hh' =>
    rw [hh']
    refine Iff.trans (tolerant_onConn_iff hs ht hpanicked rfl) ?_
    simp [Ready, Host.unneeded, ht, hreader]
  | ask _ ht hh' =>
    rw [hh']
    have hunneeded : h.unneeded (.read got) = h.isDone := if_pos ht
    unfold Ready
    rw [hunneeded]
    constructor
    · rintro ⟨-, hearly'⟩
      by_contra hnot
      obtain ⟨hc, hd⟩ := not_or.mp hnot
      have hlisten := (hearly' (Bool.eq_false_iff.mpr hc)).2
      simp [hd, Reader.listens] at hlisten
    · refine fun hor => ⟨hpanicked, fun hno => ⟨(hearly hno).1, ?_⟩⟩
      have hd := hor.resolve_left (Bool.eq_false_iff.mp hno)
      simp [hd, Reader.listens]
  | listen _ hreader _ hh' =>
    -- the goroutine has got that far, so there is a connection
    have hc : h.connected = true := by
      by_contra hc
      have hsilent := (hearly (Bool.eq_false_iff.mpr hc)).2
      rw [hreader] at hsilent
      cases hsilent
    rw [hh']
    exact iff_of_true (tolerant_of_connected hpanicked hc) (.inl hc)

theorem tolerant_send_iff {encodes ok : Bool} :
    Tolerant (h.send encodes ok) ↔ Ready h (.send encodes ok) := by
  unfold Host.send Ready
  split
  · next ht =>
    have hne : h.transport ≠ .sse := by simp [ht]
    split_ifs with hencodes
    · refine Iff.trans (tolerant_onConn_iff hs hne htol.1 rfl) ?_
      simp [Host.unneeded, ht, hencodes]
    · exact iff_of_true htol (.inr (by simp [Host.unneeded, ht, hencodes]))
  · next ht =>
    have hne : h.transport ≠ .sse := by simp [ht]
    have hunneeded : h.unneeded (.send encodes ok) = true := by simp [Host.unneeded, ht]
    refine iff_of_true ?_ (.inr hunneeded)
    rw [hs.conn_eq hne]
    split_ifs with hc
    · exact tolerant_of_connected htol.1 hc
    · exact htol
  · next ht =>
    have hunneeded : h.unneeded (.send encodes ok) = !(encodes && ok) := by simp [Host.unneeded, ht]
    rw [hunneeded]
    constructor
    · rintro ⟨-, hearly⟩
      by_contra hnot
      obtain ⟨hc, hok⟩ := not_or.mp hnot
      have haccepted := (hearly (Bool.eq_false_iff.mpr hc)).1
      simp only [Bool.or_eq_false_iff] at haccepted
      simp [haccepted.2] at hok
    · refine fun hor => ⟨htol.1, fun hno => ⟨?_, (htol.2 hno).2⟩⟩
      have hok := hor.resolve_left (Bool.eq_false_iff.mp hno)
      simp only [Bool.not_eq_true'] at hok
      simp only [(htol.2 hno).1, hok, Bool.or_self]

theorem tolerant_watch_iff (hwatch : h.watch byContext = some h') :
    Tolerant h' ↔ Ready h (.watch byContext) := by
  obtain ⟨hwatcher, hcases⟩ := watch_cases hwatch
  have hne : h.transport ≠ .sse := by simp [hs.watcher (by simp [hwatcher])]
  rcases hcases with ⟨rfl, rfl⟩ | ⟨rfl, rfl⟩
  · refine Iff.trans (tolerant_onConn_iff hs hne htol.1 rfl) ?_
    simp [Ready, Host.unneeded]
  · exact iff_of_true ⟨htol.1, htol.2⟩ (.inr rfl)

/-- **Which steps a missing runtime is tolerated in.** -/
theorem tolerant_step_iff (hstep : bridgeStep h event = some h') : Tolerant h' ↔ Ready h event := by
  cases bridgeStep_move hstep with
  | connect ok htried =>
    refine iff_of_true ⟨htol.1, fun _ => ?_⟩ (.inr rfl)
    exact htol.2 (hs.untried htried)
  | receive _ _ hsilent =>
    refine iff_of_true ⟨htol.1, fun hno => ⟨(htol.2 hno).1, hsilent⟩⟩ (.inr rfl)
  | send => exact tolerant_send_iff hs htol
  | read _ h' hread => exact tolerant_read_iff hs htol hread
  | watch _ h' hwatch => exact tolerant_watch_iff hs htol hwatch
  | close | cancel => exact iff_of_true ⟨htol.1, htol.2⟩ (.inr rfl)

end

/-- **A runtime that is not up is tolerated exactly if nothing is done that needs it**: along a run
of `runServe` with any bridge no nil connection is used, and while `Connect` has not succeeded every
`Send` returns an error and the goroutine of `Receive` does nothing but close its channel, if and
only if every step is `Ready`. -/
theorem tolerant_along_iff {b : Bridge} {events : List BridgeEvent} {h : Host}
    (hrun : run bridgeStep b.fresh events = some h) :
    Along bridgeStep Tolerant b.fresh events ↔ Meets bridgeStep Ready b.fresh events := by
  refine Lib.along_iff_meets ?_ ?_ b.sane_fresh ⟨rfl, fun _ => ⟨rfl, rfl⟩⟩ hrun
  · intro h event h' hs hstep
    exact hs.step hstep
  · intro h event h' hs htol hstep
    exact tolerant_step_iff hs htol hstep

/-- A runtime that is up when `Connect` is called; the bus is then shut down. -/
def upInTime : List BridgeEvent :=
  [.connect true, .receive, .send true true, .read .next, .read .message, .read .taken, .close,
    .read .error, .watch false, .cancel]

theorem tolerant_along_upInTime :
    ∃ h, run bridgeStep (Bridge.uds "/var/run/claw.sock").fresh upInTime = some h ∧
      h.accepted = true ∧ h.reader = .exited ∧
      Along bridgeStep Tolerant (Bridge.uds "/var/run/claw.sock").fresh upInTime := by
  have hrun : ((run bridgeStep (Bridge.uds "/var/run/claw.sock").fresh upInTime).map fun h =>
      (h.accepted, h.reader)) = some (true, .exited) := by decide +kernel
  obtain ⟨h, hrun, hend⟩ := map_eq_some_iff.mp hrun
  obtain ⟨haccepted, hreader⟩ := Prod.mk.inj hend
  exact ⟨h, hrun, haccepted, hreader, (tolerant_along_iff hrun).mpr (by decide +kernel)⟩

/-- **`Connect` has failed, and the bridge is used**: a `Send` over a websocket and the goroutine of
`Receive` over a socket use a nil connection, and a `Send` to a runtime that has come up meanwhile
returns nil over server-sent events, whose `Receive` keeps its channel open. -/
theorem usedUnconnected :
    newBridge "openclaw" ⟨18900, ""⟩ = .ok (.websocket "ws://localhost:18900") ∧
    ((run bridgeStep (Bridge.websocket "ws://localhost:18900").fresh
        [.connect false, .send true true]).map fun h => h.panicked) = some true ∧
    newBridge "nanoclaw" ⟨18900, "/var/run/claw.sock"⟩ = .ok (.uds "/var/run/claw.sock") ∧
    ((run bridgeStep (Bridge.uds "/var/run/claw.sock").fresh
        [.connect false, .send true true, .receive, .read .next, .read .error]).map fun h =>
          (h.accepted, h.panicked)) = some (false, true) ∧
    newBridge "zeroclaw" ⟨18900, ""⟩ = .ok (.sse "http://localhost:18900") ∧
    ((run bridgeStep (Bridge.sse "http://localhost:18900").fresh
        [.connect false, .receive, .read .next, .send true true]).map fun h =>
          (h.accepted, h.reader)) = some (true, .streaming) := by
  refine ⟨?_, ?_, ?_, ?_, ?_, ?_⟩ <;> decide +kernel

end K8s4Claw.IpcBus
