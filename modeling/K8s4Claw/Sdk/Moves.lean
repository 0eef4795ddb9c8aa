/-
# What a step of the client does to its connections

The step functions of `K8s4Claw.Sdk.Client` follow the source line by line.  `Acts` lists their
branches, and `act_acts` is the only place that goes through the functions; what a step can do to
one part of the client is read off the list.

Most branches do not touch the connection at all.  `Move` sorts them by what they do to `conn`,
`connected`, `reconnecting` and the open connections, in ten kinds named after the source; the
invariants about connections go by the ten kinds.

A local step moves a goroutine without giving it a connection it did not have
(`Local`): it keeps at most the connection it was using (`captured`), the one it
was started for or is dialing (`owns`, `pending`), and a goroutine that was
going to bring the connection back still is (`recovers`).
-/

import K8s4Claw.Sdk.Client

namespace K8s4Claw.Sdk

open Lib

/-- The steps of the goroutines, one for each branch of the step functions. -/
inductive Acts (s : Shared) : Thread → Choice → Step → Prop where
  | sendThrottled {msg} (h : s.throttled = true) :
      Acts s (.send msg .throttle) .go ⟨s, .send msg (.wait s.throttleCh), none⟩
  | sendFree {msg} (h : ¬ s.throttled = true) :
      Acts s (.send msg .throttle) .go ⟨s, .send msg .fetch, none⟩
  | sendReleased {msg ch} (h : ch ∈ s.closedChs) :
      Acts s (.send msg (.wait ch)) .go ⟨s, .send msg .fetch, none⟩
  | sendCancelled {msg ch} :
      Acts s (.send msg (.wait ch)) .cancel ⟨s, .send msg (.ret .ctxErr), none⟩
  | sendClosed {msg ch} (h : s.closed = true) :
      Acts s (.send msg (.wait ch)) .done ⟨s, .send msg (.ret .clientClosed), none⟩
  | sendFetch {msg g} (h : s.current = some g) :
      Acts s (.send msg .fetch) .go ⟨s, .send msg (.write g), none⟩
  | sendDown {msg} (h : s.current = none) :
      Acts s (.send msg .fetch) .go ⟨s, .send msg .buffer, none⟩
  | sendBuffer {msg} : Acts s (.send msg .buffer) .go ⟨{ s with buf := (s.buf.push msg).1 },
      .send msg (.ret (if (s.buf.push msg).2 then .nil else .bufferFull)), none⟩
  | sendWrite {msg g} (h : s.usable g = true) : Acts s (.send msg (.write g)) .ok
      ⟨{ s with wire := s.wire ++ [(g, msg)] }, .send msg (.ret .nil), none⟩
  | sendFail {msg g} : Acts s (.send msg (.write g)) .err ⟨s, .send msg (.mark g), none⟩
  | sendMark {msg g} :
      Acts s (.send msg (.mark g)) .go ⟨s.markDisconnected g, .send msg .rebuffer, none⟩
  | sendRebuffer {msg} : Acts s (.send msg .rebuffer) .go
      ⟨{ s with buf := (s.buf.push msg).1 }, .send msg .reconnect, none⟩
  | sendRetry {msg} :
      Acts s (.send msg .reconnect) .go (s.tryReconnect (.send msg (.ret .nil)))
  | slowDown {born g msg} (h : msg.type = .slowDown) : Acts s (.read born (.handle g msg)) .go
      ⟨{ s with throttled := true, throttleCh := s.throttleCh + 1 }, .read born .top, none⟩
  | resumeTwice {born g msg} (h : msg.type = .resume) (hcl : s.throttleCh ∈ s.closedChs) :
      Acts s (.read born (.handle g msg)) .go
        ⟨{ s with throttled := false, crashed := true }, .idle, none⟩
  | resume {born g msg} (h : msg.type = .resume) (hcl : s.throttleCh ∉ s.closedChs) :
      Acts s (.read born (.handle g msg)) .go
        ⟨{ s with throttled := false, closedChs := s.throttleCh :: s.closedChs },
          .read born .top, none⟩
  | shutdown {born g msg} (h : msg.type = .shutdown) :
      Acts s (.read born (.handle g msg)) .go ⟨s, .close (some born) .done, none⟩
  | deliverClosed {born g msg} (h : msg.type = .message) (hcl : s.inboundClosed = true) :
      Acts s (.read born (.handle g msg)) .go ⟨{ s with crashed := true }, .idle, none⟩
  | deliver {born g msg} (h : msg.type = .message) (hcl : ¬ s.inboundClosed = true)
      (hcap : s.inbound.length < inboundCap) : Acts s (.read born (.handle g msg)) .go
        ⟨{ s with inbound := s.inbound ++ [⟨msg.id, msg.channel, msg.payload⟩] },
          .read born .top, none⟩
  | deliverFull {born g msg} (h : msg.type = .message) (hcl : ¬ s.inboundClosed = true)
      (hcap : ¬ s.inbound.length < inboundCap) :
      Acts s (.read born (.handle g msg)) .go ⟨s, .read born .top, none⟩
  | other {born g msg} (h₁ : msg.type ≠ .slowDown) (h₂ : msg.type ≠ .resume)
      (h₃ : msg.type ≠ .shutdown) (h₄ : msg.type ≠ .message) :
      Acts s (.read born (.handle g msg)) .go ⟨s, .read born .top, none⟩
  | skip {born g msg} (h : msg.type = .message ∧ s.closed = true) :
      Acts s (.read born (.handle g msg)) .done ⟨s, .read born .top, none⟩
  | readEnd {born} (h : s.closed = true) : Acts s (.read born .top) .go ⟨s, .idle, none⟩
  | readTop {born} (h : ¬ s.closed = true) :
      Acts s (.read born .top) .go ⟨s, .read born .fetch, none⟩
  | readDown {born} (h : s.conn = none) :
      Acts s (.read born .fetch) .go ⟨s, .read born .top, none⟩
  | readFetch {born g} (h : s.conn = some g) :
      Acts s (.read born .fetch) .go ⟨s, .read born (.recv g), none⟩
  | readRecv {born g msg} (h : s.usable g = true) :
      Acts s (.read born (.recv g)) (.recv msg) ⟨s, .read born (.handle g msg), none⟩
  | readFail {born g} : Acts s (.read born (.recv g)) .err ⟨s, .read born (.failed g), none⟩
  | readFailedEnd {born g} (h : s.closed = true) :
      Acts s (.read born (.failed g)) .go ⟨s, .idle, none⟩
  | readFailed {born g} (h : ¬ s.closed = true) :
      Acts s (.read born (.failed g)) .go ⟨s, .read born (.mark g), none⟩
  | readMark {born g} :
      Acts s (.read born (.mark g)) .go ⟨s.markDisconnected g, .read born .reconnect, none⟩
  | readRetry {born} : Acts s (.read born .reconnect) .go (s.tryReconnect .idle)
  | beatEnd (h : s.closed = true) : Acts s (.beat .wait) .done ⟨s, .idle, none⟩
  | beatTick : Acts s (.beat .wait) .tick ⟨s, .beat .fetch, none⟩
  | beatFetch {g} (h : s.current = some g) : Acts s (.beat .fetch) .go ⟨s, .beat (.write g), none⟩
  | beatDown (h : s.current = none) : Acts s (.beat .fetch) .go ⟨s, .beat .wait, none⟩
  | beatWrite {g} (h : s.usable g = true) : Acts s (.beat (.write g)) .ok ⟨s, .beat .wait, none⟩
  | beatFail {g} : Acts s (.beat (.write g)) .err ⟨s, .beat (.mark g), none⟩
  | beatMark {g} : Acts s (.beat (.mark g)) .go ⟨s.markDisconnected g, .beat .reconnect, none⟩
  | beatRetry : Acts s (.beat .reconnect) .go (s.tryReconnect (.beat .wait))
  | loopEnd (h : s.closed = true) : Acts s (.loop .wait) .done ⟨s, .loop .exit, none⟩
  | loopTick : Acts s (.loop .wait) .tick ⟨s, .loop .dial, none⟩
  | dial : Acts s (.loop .dial) .ok
      ⟨{ s with dials := s.dials + 1 }, .loop (.register s.dials), none⟩
  | dialFail : Acts s (.loop .dial) .err ⟨s, .loop .wait, none⟩
  | register {g} (h : s.usable g = true) :
      Acts s (.loop (.register g)) .ok ⟨s, .loop (.ack g), none⟩
  | registerFail {g} : Acts s (.loop (.register g)) .err
      ⟨{ s with closedConns := g :: s.closedConns }, .loop .wait, none⟩
  | ack {g} (h : s.usable g = true) : Acts s (.loop (.ack g)) .ok ⟨s, .loop (.install g), none⟩
  | ackFail {g} : Acts s (.loop (.ack g)) .err
      ⟨{ s with closedConns := g :: s.closedConns }, .loop .wait, none⟩
  | install {g} : Acts s (.loop (.install g)) .go
      ⟨{ s with conn := some g, connected := true }, .loop (.drain g), none⟩
  | drain {g} : Acts s (.loop (.drain g)) .go
      ⟨{ s with buf := s.buf.drainAll.2 }, .loop (.fetch g s.buf.drainAll.1), none⟩
  | replayed {g} : Acts s (.loop (.fetch g [])) .go ⟨s, .loop (.spawn g), none⟩
  | replayDown {g msg msgs} (h : s.conn = none) :
      Acts s (.loop (.fetch g (msg :: msgs))) .go ⟨s, .loop (.repush g msg), none⟩
  | replayFetch {g h msg msgs} (hconn : s.conn = some h) :
      Acts s (.loop (.fetch g (msg :: msgs))) .go ⟨s, .loop (.write g h msg msgs), none⟩
  | replayWrite {g h msg msgs} (hu : s.usable h = true) : Acts s (.loop (.write g h msg msgs)) .ok
      ⟨{ s with wire := s.wire ++ [(h, msg)] }, .loop (.fetch g msgs), none⟩
  | replayFail {g h msg msgs} :
      Acts s (.loop (.write g h msg msgs)) .err ⟨s, .loop (.repush g msg), none⟩
  | repush {g msg} : Acts s (.loop (.repush g msg)) .go
      ⟨{ s with buf := (s.buf.push msg).1 }, .loop (.spawn g), none⟩
  | startReader {g} : Acts s (.loop (.spawn g)) .go ⟨s, .loop .exit, some (.read g .top)⟩
  | exit : Acts s (.loop .exit) .go ⟨{ s with reconnecting := false }, .idle, none⟩
  | closeAgain {back} (h : s.closed = true) (hin : s.inboundClosed = true) :
      Acts s (.close back .done) .go ⟨s, .resume back, none⟩
  | closeDone {back} (h : ¬ s.closed = true) :
      Acts s (.close back .done) .go ⟨{ s with closed := true }, .close back .conn, none⟩
  | closeNoConn {back} (h : s.conn = none) :
      Acts s (.close back .conn) .go ⟨s, .close back .inbound, none⟩
  | closeConn {back g} (h : s.conn = some g) : Acts s (.close back .conn) .go
      ⟨{ s with closedConns := g :: s.closedConns }, .close back .inbound, none⟩
  | closeInbound {back} : Acts s (.close back .inbound) .go
      ⟨{ s with inboundClosed := true }, .resume back, none⟩

/-- **Every step of a goroutine is one of the list.** -/
theorem act_acts {s : Shared} {p : Thread} {c : Choice} {e : Step} (h : act s p c = some e) :
    Acts s p c e := by
  unfold act at h
  split at h
  · cases h
  · unfold sendStep at h
    split at h
    all_goals first
      | (cases h; done)
      | (cases h; constructor)
      | (split at h <;> cases h <;> constructor <;> assumption)
  · unfold readStep handleMessage at h
    repeat' split at h
    all_goals cases h
    all_goals first
      | exact .other ‹_› ‹_› ‹_› ‹_›
      | constructor <;> assumption
  · unfold beatStep at h
    repeat' split at h
    all_goals cases h
    all_goals constructor <;> assumption
  · unfold loopStep at h
    repeat' split at h
    all_goals cases h
    all_goals constructor <;> assumption
  · unfold closeStep at h
    repeat' split at h
    all_goals cases h
    all_goals constructor <;> assumption

namespace Thread

/-- The connection a goroutine took from `c.conn` and is using, or has seen fail. -/
def captured : Thread → Option ℕ
  | .send _ (.write g) | .send _ (.mark g) => some g
  | .read _ (.recv g) | .read _ (.handle g _) | .read _ (.failed g) | .read _ (.mark g) => some g
  | .beat (.write g) | .beat (.mark g) => some g
  | _ => none

/-- The connection whose reader a goroutine is, or will start. -/
def owns : Thread → Option ℕ
  | .read born _ => some born
  | .close back _ => back
  | .loop (.register g) | .loop (.ack g) | .loop (.install g) | .loop (.drain g) => some g
  | .loop (.fetch g _) | .loop (.write g _ _ _) | .loop (.repush g _) | .loop (.spawn g) => some g
  | _ => none

/-- The connection a `reconnectLoop` opened and has not installed yet. -/
def pending : Thread → Option ℕ
  | .loop (.register g) | .loop (.ack g) | .loop (.install g) => some g
  | _ => none

/-- The goroutine is a `reconnectLoop`. -/
def isLoop : Thread → Bool
  | .loop _ => true
  | _ => false

/-- A `reconnectLoop` that has not installed a connection yet, so it will still
dial or install one. -/
def willDial : Thread → Bool
  | .loop .wait | .loop .dial | .loop (.register _) | .loop (.ack _) | .loop (.install _) => true
  | _ => false

/-- The goroutine will call `tryReconnect`: it has seen an error, or it is in a
read or write that can only fail. -/
def willTry (s : Shared) : Thread → Bool
  | .send _ (.write g) | .read _ (.recv g) | .beat (.write g) => !s.usable g
  | .send _ (.mark _) | .send _ .rebuffer | .send _ .reconnect => true
  | .read _ (.failed _) | .read _ (.mark _) | .read _ .reconnect => true
  | .beat (.mark _) | .beat .reconnect => true
  | _ => false

/-- The goroutine will dial, or will ask for a `reconnectLoop`. -/
def recovers (s : Shared) (p : Thread) : Bool := p.willDial || p.willTry s

/-- The goroutine is about to call `tryReconnect`. -/
def atTry : Thread → Bool
  | .send _ .reconnect | .read _ .reconnect | .beat .reconnect => true
  | _ => false

/-- The goroutine is about to call `markDisconnected` because of an error on `g`. -/
def atMark : Thread → Option ℕ
  | .send _ (.mark g) | .read _ (.mark g) | .beat (.mark g) => some g
  | _ => none

end Thread

/-- The two states agree on the connections. -/
structure SameConn (s s' : Shared) : Prop where
  conn : s'.conn = s.conn
  connected : s'.connected = s.connected
  reconnecting : s'.reconnecting = s.reconnecting
  closedConns : s'.closedConns = s.closedConns
  lost : s'.lost = s.lost
  dials : s'.dials = s.dials
  teardowns : s'.teardowns = s.teardowns
  closed : s.closed = true → s'.closed = true

/-- A goroutine goes from `p` to `q` without taking a connection: it has no
connection it did not have, and if it was going to bring the connection back it
still is, or the client is closed. -/
structure Local (s : Shared) (p q : Thread) : Prop where
  captured : ∀ g, q.captured = some g → p.captured = some g
  owns : ∀ g, q.owns = some g → p.owns = some g
  pending : ∀ g, q.pending = some g → p.pending = some g
  loop : q.isLoop = true → p.isLoop = true
  recovers : p.recovers s = true → q.recovers s = true ∨ s.closed = true
  atTry : p.atTry = false
  atMark : p.atMark = none

/-- What a step of a goroutine at `p` does to the connections. -/
inductive Move (s : Shared) : Thread → Step → Prop where
  | stay {p q : Thread} {s' : Shared} (hs : SameConn s s') (hq : Local s p q) :
      Move s p ⟨s', q, none⟩
  | sendFetch {msg : Message} {g : ℕ} (hg : s.conn = some g) :
      Move s (.send msg .fetch) ⟨s, .send msg (.write g), none⟩
  | readFetch {born g : ℕ} (hg : s.conn = some g) :
      Move s (.read born .fetch) ⟨s, .read born (.recv g), none⟩
  | beatFetch {g : ℕ} (hg : s.conn = some g) :
      Move s (.beat .fetch) ⟨s, .beat (.write g), none⟩
  | mark {p q : Thread} {g : ℕ} (hp : p.atMark = some g) (hq : ∀ s, q.willTry s = true)
      (hown : q.owns = p.owns) (hcap : q.captured = none) (hloop : q.isLoop = false) :
      Move s p ⟨s.markDisconnected g, q, none⟩
  | retry {p q : Thread} (hp : p.atTry = true) (hown : q.owns = none) (hcap : q.captured = none)
      (hloop : q.isLoop = false) (hrec : ∀ s, q.recovers s = false) : Move s p (s.tryReconnect q)
  | dial : Move s (.loop .dial)
      ⟨{ s with dials := s.dials + 1 }, .loop (.register s.dials), none⟩
  | abandon {p : Thread} {g : ℕ} (hp : p.pending = some g) (hl : p.isLoop = true) :
      Move s p ⟨{ s with closedConns := g :: s.closedConns }, .loop .wait, none⟩
  | install {g : ℕ} : Move s (.loop (.install g))
      ⟨{ s with conn := some g, connected := true }, .loop (.drain g), none⟩
  | startReader {g : ℕ} : Move s (.loop (.spawn g)) ⟨s, .loop .exit, some (.read g .top)⟩
  | exit : Move s (.loop .exit) ⟨{ s with reconnecting := false }, .idle, none⟩
  | closeConn {back : Option ℕ} {g : ℕ} (hg : s.conn = some g) : Move s (.close back .conn)
      ⟨{ s with closedConns := g :: s.closedConns }, .close back .inbound, none⟩

section

attribute [local simp] Thread.captured Thread.owns Thread.pending Thread.isLoop Thread.willDial
  Thread.willTry Thread.recovers Thread.atTry Thread.atMark

variable {s : Shared} {c : Choice} {e : Step}

theorem current_eq_some {g : ℕ} (h : s.current = some g) : s.conn = some g := by
  unfold Shared.current at h
  split_ifs at h
  exact h

/-- **Every step of a goroutine is one of the moves.** -/
theorem act_move {p : Thread} {c : Choice} {e : Step} (h : act s p c = some e) : Move s p e := by
  cases act_acts h with
  | sendFetch hg => exact .sendFetch (current_eq_some hg)
  | readFetch hg => exact .readFetch hg
  | beatFetch hg => exact .beatFetch (current_eq_some hg)
  | sendMark | readMark | beatMark => exact .mark rfl (fun _ => rfl) rfl rfl rfl
  | sendRetry | readRetry | beatRetry => exact .retry rfl rfl rfl rfl (fun _ => rfl)
  | dial => exact .dial
  | registerFail | ackFail => exact .abandon rfl rfl
  | install => exact .install
  | startReader => exact .startReader
  | exit => exact .exit
  | closeConn hg => exact .closeConn hg
  | @closeAgain back | @closeInbound back =>
    refine .stay ⟨rfl, rfl, rfl, rfl, rfl, rfl, rfl, id⟩ ?_
    cases back <;> constructor <;> simp [Thread.resume]
  | closeDone =>
    exact .stay ⟨rfl, rfl, rfl, rfl, rfl, rfl, rfl, fun _ => rfl⟩ (by constructor <;> simp)
  | _ => exact .stay ⟨rfl, rfl, rfl, rfl, rfl, rfl, rfl, id⟩ (by constructor <;> simp [*])

theorem Thread.pending_of_isLoop_eq_false {p : Thread} (h : p.isLoop = false) :
    p.pending = none := by
  cases p <;> simp_all

theorem Thread.atTry_of_isLoop {p : Thread} (h : p.isLoop = true) : p.atTry = false := by
  cases p <;> simp_all

end

@[simp]
theorem Shared.markDisconnected_conn (s : Shared) (g : ℕ) : (s.markDisconnected g).conn = none := by
  unfold Shared.markDisconnected
  cases s.conn with
  | none | some => rfl

@[simp]
theorem Shared.markDisconnected_frame (s : Shared) (g : ℕ) :
    (s.markDisconnected g).closed = s.closed ∧ (s.markDisconnected g).lost = s.lost ∧
      (s.markDisconnected g).dials = s.dials ∧
      (s.markDisconnected g).reconnecting = s.reconnecting ∧
      (s.markDisconnected g).teardowns = s.teardowns ++ [(g, s.conn)] := by
  unfold Shared.markDisconnected
  cases s.conn <;> simp

variable {s : Shared} {P P' : Client} {ev : Event}

theorem Shared.tryReconnect_of_reconnecting (h : s.reconnecting = true) (q : Thread) :
    s.tryReconnect q = ⟨s, q, none⟩ := by
  rw [Shared.tryReconnect, if_pos h]

theorem Shared.tryReconnect_of_not_reconnecting (h : s.reconnecting = false) (q : Thread) :
    s.tryReconnect q = ⟨{ s with reconnecting := true }, q, some (.loop .wait)⟩ := by
  rw [Shared.tryReconnect, if_neg (by simp [h])]

theorem Move.eq_tryReconnect {p : Thread} {e : Step} (h : Move s p e) (hp : p.atTry = true) :
    ∃ q, e = s.tryReconnect q := by
  have hno (hat : p.atTry = false) : ∃ q, e = s.tryReconnect q :=
    absurd (hat.symm.trans hp) Bool.false_ne_true
  cases h with
  | retry => exact ⟨_, rfl⟩
  | stay _ hq => exact hno hq.atTry
  | mark hmark =>
    refine hno ?_
    unfold Thread.atMark at hmark
    split at hmark
    all_goals first | rfl | cases hmark
  | abandon _ hl => exact hno (Thread.atTry_of_isLoop hl)
  | _ => exact hno rfl

theorem Move.spawn_cases {p : Thread} {e : Step} (h : Move s p e) {q : Thread}
    (hq : e.spawn = some q) : q = .loop .wait ∨ ∃ g, q = .read g .top := by
  cases h with
  | retry =>
    unfold Shared.tryReconnect at hq
    split_ifs at hq
    exact .inl (Option.some.inj hq).symm
  | startReader => exact .inr ⟨_, (Option.some.inj hq).symm⟩
  | _ => cases hq

/-- The goroutine in which the user calls a method. -/
def Event.called : Event → Option Thread
  | .send msg => some (.send msg .throttle)
  | .close => some (.close none .done)
  | _ => none

/-- A step of the client, with what makes it possible. -/
inductive Stepped (P : Client) : Event → Client → Prop where
  | call {ev : Event} {q : Thread} (hev : ev.called = some q) : Stepped P ev (P.go q)
  | receive {m : InboundMessage} {ms : List InboundMessage} (h : P.shared.inbound = m :: ms) :
      Stepped P .receive { P with shared := { P.shared with inbound := ms } }
  | lose (g : ℕ) :
      Stepped P (.lose g) { P with shared := { P.shared with lost := g :: P.shared.lost } }
  | act {t : ℕ} {c : Choice} {e : Step} (ht : t < P.size)
      (he : act P.shared (P.thread t) c = some e) : Stepped P (.act t c) (P.advance t e)

theorem clientStep_stepped (h : clientStep P ev = some P') : Stepped P ev P' := by
  unfold clientStep at h
  split_ifs at h
  cases ev with
  | send | close =>
    cases h
    exact .call rfl
  | receive =>
    dsimp only at h
    split at h
    · cases h
    · cases h
      exact .receive ‹_›
  | lose g =>
    cases h
    exact .lose g
  | act =>
    dsimp only at h
    split_ifs at h with ht
    obtain ⟨e, he, rfl⟩ := Option.map_eq_some_iff.1 h
    exact .act ht he

theorem act_of_clientStep {t : ℕ} {c : Choice} (h : clientStep P (.act t c) = some P') :
    ∃ e, t < P.size ∧ act P.shared (P.thread t) c = some e ∧ P' = P.advance t e := by
  cases clientStep_stepped h with
  | call hev => cases hev
  | act ht he => exact ⟨_, ht, he, rfl⟩

section

variable (h : clientStep P ev = some P')

include h

theorem size_le_of_clientStep : P.size ≤ P'.size := by
  cases clientStep_stepped h with
  | call => exact Nat.le_succ _
  | receive | lose => exact le_rfl
  | act => exact Pool.size_le_advance ..

/-- A panic ends the process. -/
theorem crashed_of_clientStep : P.shared.crashed = false := by
  unfold clientStep at h
  split_ifs at h with hc
  simpa using hc

/-- A goroutine that does not move is where it was. -/
theorem thread_of_clientStep {k : ℕ} (hk : k < P.size) (hev : ∀ c, ev ≠ .act k c) :
    P'.thread k = P.thread k := by
  cases clientStep_stepped h with
  | call => exact Pool.go_thread_of_ne _ _ hk.ne
  | receive | lose => rfl
  | @act t c e =>
    refine Pool.advance_thread_of_ne hk ?_ e
    rintro rfl
    exact hev c rfl

end

/-- Only goroutines that were started run. -/
def IdleBeyond (P : Client) : Prop := ∀ t, P.size ≤ t → P.thread t = .idle

theorem IdleBeyond.clientStep (hP : IdleBeyond P) (h : clientStep P ev = some P') :
    IdleBeyond P' := by
  intro u hu
  have hold : P.size ≤ u := (size_le_of_clientStep h).trans hu
  cases clientStep_stepped h with
  | @call _ q =>
    have hlt : P.size < u := hu
    rw [Pool.go_thread_of_ne P q hlt.ne']
    exact hP u hold
  | receive | lose => exact hP u hold
  | @act t c e ht =>
    rcases Pool.advance_thread_cases ht e u with ⟨rfl, -⟩ | ⟨-, rfl, q, hq, -⟩ | ⟨-, heq⟩
    · omega
    · have hlt := (Pool.advance_thread_spawn (P := P) (t := t) hq).1
      omega
    · rw [heq]
      exact hP u hold

section

variable {β : Type*} {f : Thread → β}

/-- What is read off the goroutines after a step of `u`, where a goroutine that was just started
reads like one that does not run. -/
theorem IdleBeyond.read_advance (hP : IdleBeyond P) (hwait : f (.loop .wait) = f .idle)
    (htop : ∀ g, f (.read g .top) = f .idle) {u : ℕ} {c : Choice} {e : Step} (hu : u < P.size)
    (he : act P.shared (P.thread u) c = some e) :
    (fun t => f ((P.advance u e).thread t)) =
      Function.update (fun t => f (P.thread t)) u (f e.next) := by
  funext t
  rw [Function.update_apply]
  rcases Pool.advance_thread_cases hu e t with ⟨rfl, heq⟩ | ⟨hne, rfl, q, hq, heq⟩ | ⟨hne, heq⟩
  · rw [heq, if_pos rfl]
  · rw [heq, if_neg hne, hP P.size le_rfl]
    rcases (act_move he).spawn_cases hq with rfl | ⟨g, rfl⟩
    · exact hwait
    · exact htop g
  · rw [heq, if_neg hne]

theorem IdleBeyond.read_go (hP : IdleBeyond P) {q : Thread} (hq : f q = f .idle) :
    (fun t => f ((P.go q).thread t)) = fun t => f (P.thread t) := by
  funext t
  by_cases ht : t = P.size
  · subst ht
    rw [Pool.go_thread_size, hP P.size le_rfl, hq]
  · rw [Pool.go_thread_of_ne _ _ ht]

end

theorem connected_thread (n : ℤ) (t : ℕ) : (connected n).thread t =
    if t = 0 then .read 0 .top else if t = 1 then .beat .wait else .idle := rfl

theorem idleBeyond_connected (n : ℤ) : IdleBeyond (connected n) := by
  intro t ht
  have hsize : 2 ≤ t := ht
  rw [connected_thread, if_neg (by omega), if_neg (by omega)]

/-- A step that no goroutine of the client takes: the user calls a method or takes a
message, or a peer goes away. -/
def Event.outside : Event → Bool
  | .act _ _ => false
  | _ => true

/-- What happens outside the goroutines of the client does not touch `conn` and
the flags, and makes no connection usable. -/
structure World (s s' : Shared) : Prop where
  conn : s'.conn = s.conn
  connected : s'.connected = s.connected
  reconnecting : s'.reconnecting = s.reconnecting
  closed : s'.closed = s.closed
  dials : s'.dials = s.dials
  teardowns : s'.teardowns = s.teardowns
  usable : ∀ g, s'.usable g = true → s.usable g = true

/-- What a step of the client does to its connections. -/
inductive ClientMove (P : Client) : Event → Client → Prop where
  | call {ev : Event} {q : Thread} (hev : ev.outside = true) (hown : q.owns = none)
      (hcap : q.captured = none) (hloop : q.isLoop = false) : ClientMove P ev (P.go q)
  | world {ev : Event} {s' : Shared} (hev : ev.outside = true) (hs : World P.shared s') :
      ClientMove P ev { P with shared := s' }
  | act {t : ℕ} {c : Choice} {e : Step} (ht : t < P.size) (hm : Move P.shared (P.thread t) e) :
      ClientMove P (.act t c) (P.advance t e)

/-- **Every step of the client** starts a goroutine without a connection, leaves
the connections alone, or is a move of one goroutine. -/
theorem clientStep_move (h : clientStep P ev = some P') : ClientMove P ev P' := by
  cases clientStep_stepped h with
  | call hev =>
    cases ev with
    | send =>
      cases hev
      exact .call rfl rfl rfl rfl
    | close =>
      cases hev
      exact .call rfl rfl rfl rfl
    | _ => cases hev
  | receive => exact .world rfl ⟨rfl, rfl, rfl, rfl, rfl, rfl, fun _ => id⟩
  | lose =>
    refine .world rfl ⟨rfl, rfl, rfl, rfl, rfl, rfl, fun k hk => ?_⟩
    simp_all [Shared.usable]
  | act ht he => exact .act ht (act_move he)

end K8s4Claw.Sdk
