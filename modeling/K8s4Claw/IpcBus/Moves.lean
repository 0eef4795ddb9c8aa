/-
# What a step of the bus does

One inversion for the steps of `Bus.lean`.  Of the router's state the results below are
about the sidecars, the log and the ghost lists; steps that change only buffers and what
is written to connections are all `quiet`.  Of a `handleConn` they use the channel it
serves (`Conn.serves`) and the message it has appended to the log and not dealt with yet
(`Conn.job`).

* `connStep_move` : every step of a `handleConn` is a `ConnMove`;
* `busStep_move` : every step of the bus is a `BusMove`.
-/

import K8s4Claw.IpcBus.Bus

namespace K8s4Claw.IpcBus

open List Option
open Lib (Outcome)

/-- How far a message is that is in the log and in the hands of a `HandleInbound`. -/
inductive Phase where
  | unsent
  | sent
  | failed
  | marking (attempts : Int64)
  | putting (attempts : Int64)
  deriving DecidableEq

namespace Conn

/-- The message a `handleConn` has in hand. -/
def job : Conn → Option (Message × Phase)
  | .handle _ msg .push | .handle _ msg .slowDown | .handle _ msg .send => some (msg, .unsent)
  | .handle _ msg .complete => some (msg, .sent)
  | .handle _ msg .retry => some (msg, .failed)
  | .handle _ msg (.markDLQ n) => some (msg, .marking n)
  | .handle _ msg (.putDLQ n) => some (msg, .putting n)
  | _ => none

/-- The channel a `handleConn` is registered for and has not unregistered from. -/
def serves : Conn → Option String
  | .ack reg => some reg.channel
  | .read channel | .handle channel _ _ | .unregister channel => some channel
  | _ => none

end Conn

namespace Shared

/-- The two states differ at most in the buffers, in what is written to connections and in what the
dead letter queue has kept. -/
structure Same (s s' : Shared) : Prop where
  sidecars : s'.sidecars = s.sidecars
  registered : s'.registered = s.registered
  wal : s'.wal = s.wal
  main : s'.main = s.main
  dead : s'.dead = s.dead
  appended : s'.appended = s.appended
  sent : s'.sent = s.sent
  failed : s'.failed = s.failed

theorem Same.refl (s : Shared) : s.Same s := ⟨rfl, rfl, rfl, rfl, rfl, rfl, rfl, rfl⟩

theorem same_write (s : Shared) (conn : ℕ) (ok : Bool) (msg : Message) :
    s.Same (s.write conn ok msg) := by
  unfold write
  split_ifs
  · exact ⟨rfl, rfl, rfl, rfl, rfl, rfl, rfl, rfl⟩
  · exact Same.refl s

theorem Same.trans {s s' s'' : Shared} (h : s.Same s') (h' : s'.Same s'') : s.Same s'' :=
  ⟨h'.1.trans h.1, h'.2.trans h.2, h'.3.trans h.3, h'.4.trans h.4, h'.5.trans h.5,
    h'.6.trans h.6, h'.7.trans h.7, h'.8.trans h.8⟩

theorem same_sendShutdown (s : Shared) (writes : List (String × String × Lib.Time × Bool)) :
    s.Same (sendShutdown s writes) := by
  unfold sendShutdown
  induction writes generalizing s with
  | nil => exact Same.refl s
  | cons w _ ih =>
    obtain ⟨channel, -, -, ok⟩ := w
    refine Same.trans ?_ (ih _)
    cases h : s.sidecars.lookup channel with
    | none => simpa [h] using Same.refl s
    | some conn => simpa [h] using same_write s conn ok _

theorem write_outbound (s : Shared) (conn : ℕ) (ok : Bool) (msg : Message) :
    (s.write conn ok msg).outbound = s.outbound := by
  unfold write
  split_ifs <;> rfl

/-- The buffers stay, and what is written are messages of the outbound loop and shutdowns. -/
structure Writes (s s' : Shared) : Prop where
  buffers : s'.buffers = s.buffers
  outbox : ∃ ws : List (ℕ × Message), s'.outbox = s.outbox ++ ws ∧
    ∀ w ∈ ws, w ∈ s.outbound ∨ w.2.type = .shutdown

theorem writes_of_eq {s s' : Shared} (hbuffers : s'.buffers = s.buffers)
    (houtbox : s'.outbox = s.outbox) : s.Writes s' :=
  ⟨hbuffers, [], by rw [houtbox, append_nil], by simp⟩

theorem writes_write {s : Shared} {conn : ℕ} {msg : Message} (ok : Bool)
    (h : (conn, msg) ∈ s.outbound ∨ msg.type = .shutdown) : s.Writes (s.write conn ok msg) := by
  refine ⟨s.write_buffers conn ok msg, _, s.write_outbox conn ok msg, fun w hw => ?_⟩
  split_ifs at hw
  · rwa [mem_singleton.mp hw]
  · cases hw

theorem writes_sendShutdown (s : Shared) (writes : List (String × String × Lib.Time × Bool)) :
    s.Writes (sendShutdown s writes) ∧ (sendShutdown s writes).outbound = s.outbound := by
  unfold sendShutdown
  induction writes generalizing s with
  | nil => exact ⟨writes_of_eq rfl rfl, rfl⟩
  | cons w _ ih =>
    obtain ⟨channel, uuid, now, ok⟩ := w
    rw [foldl_cons]
    cases hconn : s.sidecars.lookup channel with
    | none => simpa [hconn] using ih s
    | some conn =>
      have hwrite : s.Writes (s.write conn ok (.newMessage uuid now .shutdown channel none)) :=
        writes_write ok (.inr rfl)
      obtain ⟨hbuf, ws, hws, hfrom⟩ := hwrite
      obtain ⟨⟨hbuf', ws', hws', hfrom'⟩, hslot⟩ :=
        ih (s.write conn ok (.newMessage uuid now .shutdown channel none))
      rw [s.write_outbound] at hslot hfrom'
      rw [hws, append_assoc] at hws'
      simp only [hconn]
      exact ⟨⟨hbuf'.trans hbuf, _, hws', forall_mem_append.mpr ⟨hfrom, hfrom'⟩⟩, hslot⟩

end Shared

/-- The steps of the `handleConn` of connection `t`: from where it is, by which choice, to which
state and where. -/
inductive ConnMove (s : Shared) (t : ℕ) : Conn → Choice → Shared → Conn → Prop where
  | register (reg : Message) :
      ConnMove s t (.register reg) .go (s.register reg.channel t) (.ack reg)
  | unregister (channel : String) :
      ConnMove s t (.unregister channel) .go (s.unregister channel) .closing
  | append (channel : String) (msg : Message) (ts : String) (o₁ o₂ : Outcome)
      (hdata : msg.isControl = false) :
      ConnMove s t (.handle channel msg .start) (.wal ts o₁ o₂)
        { s with
          wal := (s.wal.append o₁ o₂ ts msg).1
          appended := if (s.wal.append o₁ o₂ ts msg).2 then s.appended ++ [msg] else s.appended }
        (.handle channel msg .push)
  | sendOk (channel : String) (msg : Message) :
      ConnMove s t (.handle channel msg .send) .ok { s with sent := s.sent ++ [msg] }
        (.handle channel msg .complete)
  | sendErr (channel : String) (msg : Message) :
      ConnMove s t (.handle channel msg .send) .err { s with failed := s.failed ++ [msg] }
        (.handle channel msg .retry)
  | complete (channel : String) (msg : Message) (ts : String) (o₁ o₂ : Outcome) :
      ConnMove s t (.handle channel msg .complete) (.wal ts o₁ o₂)
        { s with wal := (s.wal.complete o₁ o₂ ts msg.id).1 } (.handle channel msg .pop)
  | retry (channel : String) (msg : Message) (ts : String) (o₁ o₂ : Outcome) :
      ConnMove s t (.handle channel msg .retry) (.wal ts o₁ o₂)
        { s with wal := (s.wal.incrementAttempts o₁ o₂ ts msg.id).1 }
        (match (s.wal.incrementAttempts o₁ o₂ ts msg.id).2 with
        | none => .read channel
        | some n =>
            if n ≥ maxRetryAttempts then .handle channel msg (.markDLQ n) else .read channel)
  | markDLQ (channel : String) (msg : Message) (n : Int64) (ts : String) (o₁ o₂ : Outcome) :
      ConnMove s t (.handle channel msg (.markDLQ n)) (.wal ts o₁ o₂)
        { s with wal := (s.wal.markDLQ o₁ o₂ ts msg.id).1 } (.handle channel msg (.putDLQ n))
  | putDLQ (channel : String) (msg : Message) (n : Int64) (now : Lib.Utc) (ok : Bool) :
      ConnMove s t (.handle channel msg (.putDLQ n)) (.put now ok) (s.putDLQ now ok msg n)
        (.read channel)
  | quiet {p q : Conn} {c : Choice} {s' : Shared} (hsame : s.Same s')
      (hserves : q.serves = p.serves) (hjob : q.job = p.job)
      (hp : p ≠ .closed ∧ ∀ channel, p ≠ .unregister channel) :
      ConnMove s t p c s' q

section

variable {s : Shared} {t : ℕ} {p : Conn} {c : Choice} {e : ConnStep}

theorem eq_of_goOn {s' : Shared} {q : Conn} (h : goOn s' q = some e) :
    e = { shared := s', next := q, spawn := none } := (some.inj h).symm

theorem quiet_goOn {s' : Shared} {q : Conn} (h : goOn s' q = some e) (hsame : s.Same s')
    (hserves : q.serves = p.serves) (hjob : q.job = p.job)
    (hp : p ≠ .closed ∧ ∀ channel, p ≠ .unregister channel) :
    e.spawn = none ∧ ConnMove s t p c e.shared e.next := by
  obtain rfl := eq_of_goOn h
  exact ⟨rfl, .quiet hsame hserves hjob hp⟩

theorem inboundStep_move {channel : String} {msg : Message} {pc : InboundPc}
    (h : inboundStep s t channel msg pc c = some e) :
    e.spawn = none ∧ ConnMove s t (.handle channel msg pc) c e.shared e.next := by
  have hbuffers (buffers : Finmap fun _ : String => RingBuffer Message) :
      s.Same { s with buffers := buffers } := ⟨rfl, rfl, rfl, rfl, rfl, rfl, rfl, rfl⟩
  unfold inboundStep at h
  split at h
  · split_ifs at h
    exact quiet_goOn h (.refl s) rfl rfl (by simp)
  · split_ifs at h
    exact quiet_goOn h (s.same_write ..) rfl rfl (by simp)
  · split_ifs at h with hcontrol
    obtain rfl := eq_of_goOn h
    exact ⟨rfl, .append channel msg _ _ _ (by simpa using hcontrol)⟩
  · split at h
    · exact quiet_goOn h (.refl s) rfl rfl (by simp)
    · refine quiet_goOn h (hbuffers _) rfl ?_ (by simp)
      split_ifs <;> rfl
  · exact quiet_goOn h (s.same_write ..) rfl rfl (by simp)
  · obtain rfl := eq_of_goOn h
    exact ⟨rfl, .sendOk channel msg⟩
  · obtain rfl := eq_of_goOn h
    exact ⟨rfl, .sendErr channel msg⟩
  · obtain rfl := eq_of_goOn h
    exact ⟨rfl, .complete channel msg ..⟩
  · split at h
    · exact quiet_goOn h (.refl s) rfl rfl (by simp)
    · refine quiet_goOn h (hbuffers _) ?_ ?_ (by simp) <;> split_ifs <;> rfl
  · exact quiet_goOn h (s.same_write ..) rfl rfl (by simp)
  · obtain rfl := eq_of_goOn h
    exact ⟨rfl, .retry channel msg ..⟩
  · obtain rfl := eq_of_goOn h
    exact ⟨rfl, .markDLQ channel msg ..⟩
  · obtain rfl := eq_of_goOn h
    exact ⟨rfl, .putDLQ channel msg ..⟩
  · cases h

/-- **Every step of a `handleConn` is a move.** -/
theorem connStep_move (h : connStep s t p c = some e) :
    e.spawn = none ∧ ConnMove s t p c e.shared e.next := by
  unfold connStep at h
  split at h
  · refine quiet_goOn h (.refl s) ?_ ?_ (by simp) <;> split_ifs <;> rfl
  · exact quiet_goOn h (.refl s) rfl rfl (by simp)
  · obtain rfl := eq_of_goOn h
    exact ⟨rfl, .register _⟩
  · refine quiet_goOn h (s.same_write ..) ?_ ?_ (by simp) <;> split_ifs <;> rfl
  · exact quiet_goOn h (.refl s) rfl rfl (by simp)
  · exact quiet_goOn h (.refl s) rfl rfl (by simp)
  · exact inboundStep_move h
  · obtain rfl := eq_of_goOn h
    exact ⟨rfl, .unregister _⟩
  · exact quiet_goOn h (.refl s) rfl rfl (by simp)
  · cases h

end

/-- The steps of the main goroutine in `ReplayWAL`. -/
inductive ReplayMove (s : Shared) : Main → Choice → Shared → Prop where
  | serve : ReplayMove s (.replay []) .go { s with main := .serve }
  | skip {entry : WALEntry} {todo : List WALEntry} (hmsg : entry.msg = none) :
      ReplayMove s (.replay (entry :: todo)) .go { s with main := .replay todo }
  | sendOk {entry : WALEntry} {todo : List WALEntry} {msg : Message} (hmsg : entry.msg = some msg) :
      ReplayMove s (.replay (entry :: todo)) .ok
        { s with sent := s.sent ++ [msg], main := .complete entry todo }
  | sendErr {entry : WALEntry} {todo : List WALEntry} {msg : Message}
      (hmsg : entry.msg = some msg) :
      ReplayMove s (.replay (entry :: todo)) .err
        { s with failed := s.failed ++ [msg], main := .replay todo }
  | complete {entry : WALEntry} {todo : List WALEntry} {ts : String} {o₁ o₂ : Outcome} :
      ReplayMove s (.complete entry todo) (.wal ts o₁ o₂)
        { s with wal := (s.wal.complete o₁ o₂ ts entry.id).1, main := .replay todo }

theorem replayStep_move {s s' : Shared} {m : Main} {c : Choice}
    (h : replayStep s m c = some s') : ReplayMove s m c s' := by
  unfold replayStep at h
  split at h
  · cases h
    exact .serve
  · split at h
    · next hmsg =>
      cases h
      exact .skip hmsg
    · next hmsg =>
      cases h
      exact .sendOk hmsg
    · next hmsg =>
      cases h
      exact .sendErr hmsg
    · cases h
  · cases h
    exact .complete
  · cases h

/-- The events that change only what is written to connections or kept as dead letters. -/
def Event.quiet : Event → Bool
  | .outbound _ | .deliver _ | .sendShutdown _ | .purge _ => true
  | _ => false

/-- The steps of the bus. -/
inductive BusMove (P : Bus) : Event → Bus → Prop where
  | accept (hmain : P.shared.main = .serve) : BusMove P .accept (P.go .accepted)
  | act {t : ℕ} {c : Choice} {s' : Shared} {q : Conn} (ht : t < P.size)
      (hmove : ConnMove P.shared t (P.thread t) c s' q)
      (hstep : connStep P.shared t (P.thread t) c = some ⟨s', q, none⟩) :
      BusMove P (.act t c) (P.advance t { shared := s', next := q, spawn := none })
  | replay {c : Choice} {s' : Shared} (hmove : ReplayMove P.shared P.shared.main c s') :
      BusMove P (.replay c) { P with shared := s' }
  | quiet {ev : Event} {s' : Shared} (hev : ev.quiet) (hsame : P.shared.Same s')
      (hwrites : P.shared.Writes s')
      (hslot : ∀ x ∈ s'.outbound, x ∈ P.shared.outbound ∨ ev = .outbound x.2) :
      BusMove P ev { P with shared := s' }
  | compact {o : Wal.CompactOutcome} {order : List String} (hmain : P.shared.main = .serve)
      (horder : P.shared.wal.entries.Enumerates order) :
      BusMove P (.compact o order)
        { P with shared := { P.shared with wal := (P.shared.wal.compact o order).1 } }
  | restart {order : List String} {wal : Wal} (hmain : P.shared.main = .serve)
      (hidle : ∀ t < P.size, ¬ (P.thread t).busy)
      (hwal : Wal.newWAL (P.shared.wal.close .ok true true).1.writer.file.bytes = some wal)
      (horder : wal.entries.Enumerates order) :
      BusMove P (.restart order)
        { P with
          shared := { P.shared with
            wal := wal
            main := .replay (wal.pendingEntries order)
            sidecars := ∅
            buffers := ∅
            outbound := none }
          thread := fun _ => .closed }

/-- **Every step of the bus is a move.** -/
theorem busStep_move {P P' : Bus} {ev : Event} (h : busStep P ev = some P') : BusMove P ev P' := by
  cases ev with
  | accept =>
    simp only [busStep] at h
    split_ifs at h with hmain
    cases h
    exact .accept hmain
  | act =>
    simp only [busStep] at h
    split_ifs at h with ht
    obtain ⟨⟨s', q, spawn⟩, he, rfl⟩ := map_eq_some_iff.mp h
    obtain ⟨rfl, hmove⟩ := connStep_move he
    exact .act ht hmove he
  | replay =>
    obtain ⟨s', hs', rfl⟩ := map_eq_some_iff.mp h
    exact .replay (replayStep_move hs')
  | outbound =>
    simp only [busStep] at h
    split_ifs at h
    cases h
    refine .quiet rfl ⟨rfl, rfl, rfl, rfl, rfl, rfl, rfl, rfl⟩ (Shared.writes_of_eq rfl rfl)
      fun x hx => ?_
    obtain ⟨-, -, rfl⟩ := map_eq_some_iff.mp hx
    exact .inr rfl
  | deliver ok =>
    simp only [busStep] at h
    split at h
    · cases h
    · next conn msg hmsg =>
      split_ifs at h
      cases h
      have hwrite := P.shared.same_write conn ok msg
      have hwrites := Shared.writes_write ok (.inl hmsg)
      exact .quiet rfl
        ⟨hwrite.1, hwrite.2, hwrite.3, hwrite.4, hwrite.5, hwrite.6, hwrite.7, hwrite.8⟩
        ⟨hwrites.buffers, hwrites.outbox⟩ (by simp)
  | sendShutdown writes =>
    simp only [busStep] at h
    split_ifs at h
    cases h
    obtain ⟨hwrites, hslot⟩ := P.shared.writes_sendShutdown writes
    exact .quiet rfl (P.shared.same_sendShutdown writes) hwrites fun x hx => .inl (hslot ▸ hx)
  | compact =>
    simp only [busStep] at h
    split_ifs at h with hc
    cases h
    exact .compact hc.1 hc.2.2
  | purge =>
    simp only [busStep] at h
    split_ifs at h
    cases h
    exact .quiet rfl ⟨rfl, rfl, rfl, rfl, rfl, rfl, rfl, rfl⟩ (Shared.writes_of_eq rfl rfl)
      fun _ hx => .inl hx
  | restart =>
    simp only [busStep] at h
    split_ifs at h with hc
    obtain ⟨wal, hwal, h⟩ := bind_eq_some_iff.mp h
    split_ifs at h with horder
    cases h
    exact .restart hc.1 hc.2 hwal horder

end K8s4Claw.IpcBus
