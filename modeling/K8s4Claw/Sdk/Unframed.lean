/-
# A payload that cannot be framed

`writeMessage` of `sdk/channel/message.go` fails before it writes when the payload is not JSON or
the encoding is above 16 MiB, and `Send` (`sdk/channel/client.go`) takes this for a failure of the
connection: it closes the connection, puts the message into the bus-down buffer, starts a reconnect
and returns nil.  The replay then stops at the message and drops the ones behind it, so in
`poisoned` a good message is lost that the same run without the bad one delivers.
-/

import K8s4Claw.Sdk.Frames
import K8s4Claw.Sdk.Mail

namespace K8s4Claw.Sdk

open Lib Option
open Lib.Json

/-! ### What can be framed -/

/-- The message with the time of its timestamp and its payload read as JSON: none when the payload
is not JSON.  An empty payload is left out. -/
def Message.toWire (msg : Message) (stamp : Time) : Option WireMessage :=
  (if msg.payload = [] then some none else (parse msg.payload).map some).map fun payload =>
    { id := msg.id
      type := msg.type
      channel := msg.channel
      correlationID := msg.correlationID
      replyTo := msg.replyTo
      timestamp := stamp
      payload := payload }

/-- What `writeMessage` writes for the message: none when it fails before it writes. -/
def frame (stamp : Message → Time) (msg : Message) : Option Bytes :=
  (msg.toWire (stamp msg)).bind writeMessage

/-- The data message a goroutine is about to write to a connection. -/
def Thread.toWrite : Thread → Option Message
  | .send msg (.write _) => some msg
  | .loop (.write _ _ msg _) => some msg
  | _ => none

/-- A message that is written has a frame. -/
def WritesFramed (stamp : Message → Time) (P : Client) : Event → Prop
  | .act t .ok => ∀ msg ∈ (P.thread t).toWrite, (frame stamp msg).isSome = true
  | _ => True

instance (stamp : Message → Time) (P : Client) (ev : Event) :
    Decidable (WritesFramed stamp P ev) := by
  unfold WritesFramed
  split <;> infer_instance

/-! ### One `Send` -/

/-- The goroutine is a `Send` that found the client disconnected and is about to push. -/
def Thread.pushing : Thread → Bool
  | .send _ .buffer => true
  | _ => false

/-- Goroutine `k` finds the client disconnected, and then the buffer full. -/
def TurnedAway (k : ℕ) (P : Client) : Event → Prop
  | .act t _ => t = k → ((P.thread k).looking = true → P.shared.current = none) ∧
      ((P.thread k).pushing = true → P.shared.buf.cap ≤ P.shared.buf.items.length)
  | _ => True

instance (k : ℕ) (P : Client) (ev : Event) : Decidable (TurnedAway k P ev) := by
  unfold TurnedAway
  induction ev using Event.casesOn <;> infer_instance

/-- A step of goroutine `k` leaves the client as it is: the connection, the buffer and all else. -/
def LeavesAlone (k : ℕ) (P : Client) : Event → Prop
  | .act t c => t = k → ∀ P', clientStep P (.act t c) = some P' → P'.shared = P.shared
  | _ => True

/-- The same step in the client without goroutine `k`. -/
def withoutSend (k : ℕ) (_ : Client) : Event → Option Event
  | .act t c => if t = k then none else some (.act (Pool.renumber k t) c)
  | ev => some ev

/-- A `Send` that has done nothing to the client: it has not found a connection, and if it has
returned it returned an error. -/
def SendPc.harmless : SendPc → Bool
  | .throttle | .wait _ | .fetch | .buffer => true
  | .ret r => r ≠ .nil
  | _ => false

/-- A `Send` of `msg` that has done nothing to the client. -/
def Thread.Harmless (msg : Message) (p : Thread) : Prop :=
  ∃ pc, p = .send msg pc ∧ pc.harmless = true

/-- A `Send` of `msg` that found a connection, or has returned nil. -/
def Thread.Doomed (msg : Message) (p : Thread) : Prop :=
  ∃ pc, p = .send msg pc ∧ pc.harmless = false

section

variable {s : Shared} {msg : Message} {pc : SendPc} {c : Choice} {e : Step}

variable (h : sendStep s msg pc c = some e)

include h

/-- A `Send` that gives up while it waits, or is turned away, leaves the client as it is. -/
theorem harmless_step (hpc : pc.harmless = true) (hconn : pc = .fetch → s.current = none)
    (hfull : pc = .buffer → s.buf.cap ≤ s.buf.items.length) :
    e.shared = s ∧ e.spawn = none ∧ e.next.Harmless msg := by
  unfold sendStep at h
  split at h
  · cases h
    refine ⟨rfl, rfl, _, rfl, ?_⟩
    split_ifs <;> rfl
  · split_ifs at h
    cases h
    exact ⟨rfl, rfl, _, rfl, rfl⟩
  · cases h
    exact ⟨rfl, rfl, _, rfl, by decide⟩
  · split_ifs at h
    cases h
    exact ⟨rfl, rfl, _, rfl, by decide⟩
  · rw [hconn rfl] at h
    cases h
    exact ⟨rfl, rfl, _, rfl, rfl⟩
  · cases h
    have hpush : s.buf.push msg = (s.buf, false) := Buffer.push_of_le (hfull rfl)
    refine ⟨?_, rfl, _, rfl, ?_⟩
    · rw [hpush]
    · rw [hpush]
      rfl
  all_goals first
    | exact absurd hpc Bool.false_ne_true
    | cases h

/-- One that finds a connection, or room in the buffer, is on its way to return nil. -/
theorem doomed_of_not_turnedAway (hbad : pc = .fetch ∧ s.current ≠ none ∨
      pc = .buffer ∧ s.buf.items.length < s.buf.cap) : e.next.Doomed msg := by
  rcases hbad with ⟨rfl, hconn⟩ | ⟨rfl, hroom⟩
  · cases c with
    | go =>
      obtain ⟨g, hg⟩ := ne_none_iff_exists'.mp hconn
      simp only [sendStep, hg] at h
      cases h
      exact ⟨_, rfl, rfl⟩
    | _ => cases h
  · cases c with
    | go =>
      cases h
      refine ⟨_, rfl, ?_⟩
      rw [(Buffer.push_of_lt hroom).2]
      rfl
    | _ => cases h

theorem doomed_step (hpc : pc.harmless = false) (hframe : ∀ g, pc = .write g → c ≠ .ok) :
    e.next.Doomed msg := by
  unfold sendStep at h
  split at h
  all_goals first
    | exact absurd hpc.symm Bool.false_ne_true
    | exact absurd rfl (hframe _ rfl)
    | (obtain rfl := some.inj h; exact ⟨_, rfl, rfl⟩)
    | (obtain rfl := some.inj h; rw [(tryReconnect_mail s _).2.2]; exact ⟨_, rfl, rfl⟩)
    | cases h

end

/-! ### Runs -/

variable {msg : Message} {r : SendResult}

theorem Thread.Harmless.returned {p : Thread} (h : p.Harmless msg)
    (hr : p.returned = some (msg, r)) : r ≠ .nil := by
  obtain ⟨pc, rfl, hpc⟩ := h
  cases pc with
  | ret =>
    obtain ⟨-, rfl⟩ := Prod.mk.inj (some.inj hr)
    exact of_decide_eq_true hpc
  | _ => cases hr

theorem Thread.Doomed.returned {p : Thread} (h : p.Doomed msg) (hr : p.returned = some (msg, r)) :
    r = .nil := by
  obtain ⟨pc, rfl, hpc⟩ := h
  cases pc with
  | ret =>
    obtain ⟨-, rfl⟩ := Prod.mk.inj (some.inj hr)
    simpa using of_decide_eq_false hpc
  | _ => cases hr

section

variable {stamp : Message → Time} {k : ℕ} {msg : Message} {P P' : Client} {ev : Event}

theorem sendStep_of_clientStep {pc : SendPc} {c : Choice} (h : clientStep P (.act k c) = some P')
    (hp : P.thread k = .send msg pc) :
    ∃ e, sendStep P.shared msg pc c = some e ∧ P' = P.advance k e ∧ P'.shared = e.shared ∧
      P'.thread k = e.next := by
  cases clientStep_stepped h with
  | call hev => cases hev
  | @act _ _ e hk he =>
    rw [hp] at he
    exact ⟨e, he, rfl, Pool.advance_shared .., Pool.advance_thread_self hk e⟩

section

variable (h : clientStep P ev = some P') (hk : k < P.size)

include h hk

/-- **A `Send` that is turned away stays harmless** and leaves the client as it is. -/
theorem harmless_clientStep (hP : (P.thread k).Harmless msg) (hok : TurnedAway k P ev) :
    (P'.thread k).Harmless msg ∧
      ∀ c, ev = .act k c → P'.shared = P.shared ∧ P'.without k = P.without k := by
  by_cases hev : ∃ c, ev = .act k c
  · obtain ⟨c, rfl⟩ := hev
    obtain ⟨pc, hp, hpc⟩ := hP
    obtain ⟨hconn, hfull⟩ := hok rfl
    obtain ⟨e, he, rfl, hshared, hthread⟩ := sendStep_of_clientStep h hp
    obtain ⟨hs, hspawn, hnext⟩ := harmless_step he hpc (fun heq => hconn (by rw [hp, heq]; rfl))
      fun heq => hfull (by rw [hp, heq]; rfl)
    refine ⟨hthread ▸ hnext, fun _ _ => ⟨hshared.trans hs, ?_⟩⟩
    exact Pool.advance_self_without hs hspawn
  · rw [thread_of_clientStep h hk fun c hc => hev ⟨c, hc⟩]
    exact ⟨hP, fun c hc => absurd ⟨c, hc⟩ hev⟩

theorem doomed_clientStep (hP : (P.thread k).Doomed msg) (hmsg : frame stamp msg = none)
    (hfr : WritesFramed stamp P ev) : (P'.thread k).Doomed msg := by
  by_cases hev : ∃ c, ev = .act k c
  · obtain ⟨c, rfl⟩ := hev
    obtain ⟨pc, hp, hpc⟩ := hP
    obtain ⟨e, he, rfl, -, hthread⟩ := sendStep_of_clientStep h hp
    rw [hthread]
    refine doomed_step he hpc fun g hg => ?_
    rintro rfl
    have hsome := hfr msg (by rw [hp, hg]; rfl)
    rw [hmsg] at hsome
    cases hsome
  · rw [thread_of_clientStep h hk fun c hc => hev ⟨c, hc⟩]
    exact hP

end

theorem doomed_of_clientStep {c : Choice} (h : clientStep P (.act k c) = some P')
    (hP : (P.thread k).Harmless msg) (hnot : ¬ TurnedAway k P (.act k c)) :
    (P'.thread k).Doomed msg := by
  obtain ⟨pc, hp, -⟩ := hP
  obtain ⟨e, he, rfl, -, hthread⟩ := sendStep_of_clientStep h hp
  rw [hthread]
  refine doomed_of_not_turnedAway he ?_
  by_contra hbad
  rw [not_or, not_and, not_and] at hbad
  refine hnot fun _ => ⟨fun hl => ?_, fun hl => ?_⟩
  · cases pc with
    | fetch => exact not_not.mp (hbad.1 rfl)
    | _ => rw [hp] at hl; cases hl
  · cases pc with
    | buffer => exact not_lt.mp (hbad.2 rfl)
    | _ => rw [hp] at hl; cases hl

end

theorem turnedAway_of_returned {stamp : Message → Time} {k : ℕ} {P Q : Client} {es : List Event}
    (hmsg : frame stamp msg = none) (hfr : Meets clientStep (WritesFramed stamp) P es)
    (hk : k < P.size) (hP : (P.thread k).Harmless msg) (h : run clientStep P es = some Q)
    (hret : (Q.thread k).returned = some (msg, r)) (hr : r ≠ .nil) :
    Meets clientStep (TurnedAway k) P es := by
  induction es generalizing P with
  | nil => trivial
  | cons ev es ih =>
    obtain ⟨P', hstep, hrun⟩ := run_cons.mp h
    have hk' := hk.trans_le (size_le_of_clientStep hstep)
    have hfr' := hfr.2 P' hstep
    have haway : TurnedAway k P ev := by
      by_contra hnot
      obtain ⟨c, rfl⟩ : ∃ c, ev = .act k c := by
        cases ev with
        | act t c =>
          by_cases htk : t = k
          · exact ⟨c, by rw [htk]⟩
          · exact absurd (fun h => absurd h htk) hnot
        | _ => exact absurd trivial hnot
      -- from here on the `Send` can only return nil
      have hdoomed := run_invariant_of_meets
        (I := fun P => k < P.size ∧ (P.thread k).Doomed msg)
        (fun _ _ _ hI hw hs => ⟨hI.1.trans_le (size_le_of_clientStep hs),
          doomed_clientStep hs hI.1 hI.2 hmsg hw⟩)
        ⟨hk', doomed_of_clientStep hstep hP hnot⟩ hfr' hrun
      exact hr (hdoomed.2.returned hret)
    rw [meets_cons_of_some hstep]
    exact ⟨haway, ih hfr' hk' (harmless_clientStep hstep hk hP haway).1 hrun⟩

/-- **The other goroutines do not notice** that goroutine `k` is not there. -/
theorem clientStep_without {k : ℕ} {P P' : Client} {ev ev' : Event}
    (h : clientStep P ev = some P') (hk : k < P.size) (hev : withoutSend k P ev = some ev') :
    clientStep (P.without k) ev' = some (P'.without k) := by
  have hcrashed := crashed_of_clientStep h
  have hc : (P.without k).shared.crashed = false := hcrashed
  cases clientStep_stepped h with
  | @call _ q hcall =>
    cases ev with
    | send =>
      cases hcall
      cases hev
      rw [Pool.go_without hk]
      simp [clientStep, hc]
    | close =>
      cases hcall
      cases hev
      rw [Pool.go_without hk]
      simp [clientStep, hc]
    | _ => cases hcall
  | receive hin =>
    cases hev
    have hin' : (P.without k).shared.inbound = _ := hin
    unfold clientStep
    rw [if_neg (by simp [hc])]
    rw [hin']
    rfl
  | lose =>
    cases hev
    unfold clientStep
    rw [if_neg (by simp [hc])]
    rfl
  | @act t c e ht he =>
    dsimp only [withoutSend] at hev
    split_ifs at hev with htk
    cases hev
    have hact : act (P.without k).shared ((P.without k).thread (Pool.renumber k t)) c =
        some e := by
      rw [Pool.without_thread_renumber P htk]
      exact he
    simp only [clientStep, hc, Bool.false_eq_true, if_false,
      if_pos (Pool.renumber_lt_size ht hk htk), hact, map_some]
    rw [Pool.advance_without hk htk]

/-- The second client is the first without its goroutine `k`, a `Send` of `msg` that has done
nothing to it. -/
structure Unnoticed (k : ℕ) (msg : Message) (P Q : Client) : Prop where
  started : k < P.size
  harmless : (P.thread k).Harmless msg
  eq : Q = P.without k

section

variable {k : ℕ} {msg : Message} {P P' Q : Client} {ev ev' : Event}

variable (hR : Unnoticed k msg P Q) (hok : TurnedAway k P ev)

include hR hok

theorem Unnoticed.drop (hev : withoutSend k P ev = none) (h : clientStep P ev = some P') :
    Unnoticed k msg P' Q := by
  obtain ⟨hharm, hself⟩ := harmless_clientStep h hR.started hR.harmless hok
  refine ⟨hR.started.trans_le (size_le_of_clientStep h), hharm, ?_⟩
  cases ev with
  | act t c =>
    dsimp only [withoutSend] at hev
    split_ifs at hev with htk
    subst htk
    rw [hR.eq, (hself c rfl).2]
  | _ => cases hev

theorem Unnoticed.keep (hev : withoutSend k P ev = some ev') (h : clientStep P ev = some P') :
    ∃ Q', clientStep Q ev' = some Q' ∧ Unnoticed k msg P' Q' := by
  have hharm := (harmless_clientStep h hR.started hR.harmless hok).1
  refine ⟨P'.without k, ?_, hR.started.trans_le (size_le_of_clientStep h), hharm, rfl⟩
  rw [hR.eq]
  exact clientStep_without h hR.started hev

end

/-- **When a payload that cannot be framed is refused.**  A `Send` of a message without a frame
returns an error, leaves the client as it is, and the run without it ends with the client in the
same state, exactly when the `Send` finds the client disconnected and the buffer full, if it looks
for the connection at all. -/
theorem refused_iff {stamp : Message → Time} {n : ℤ} {es fs : List Event} {msg : Message}
    {r : SendResult} {P S Q : Client} (hmsg : frame stamp msg = none)
    (hP : run clientStep (connected n) es = some P) (hS : clientStep P (.send msg) = some S)
    (hfr : Meets clientStep (WritesFramed stamp) S fs) (hQ : run clientStep S fs = some Q)
    (hret : (Q.thread P.size).returned = some (msg, r)) :
    (r ≠ .nil ∧ Meets clientStep (LeavesAlone P.size) S fs ∧
        ∃ Q', run clientStep P (outputs clientStep (withoutSend P.size) S fs) = some Q' ∧
          Q'.shared = Q.shared) ↔
      Meets clientStep (TurnedAway P.size) S fs := by
  have hidle : IdleBeyond P :=
    run_invariant (fun _ _ _ hI hs => hI.clientStep hs) (idleBeyond_connected n) hP
  obtain rfl : S = P.go (.send msg .throttle) := by
    have hc := crashed_of_clientStep hS
    simpa [clientStep, hc] using hS.symm
  have hk : P.size < (P.go (.send msg .throttle)).size := Nat.lt_succ_self _
  have hstart : ((P.go (.send msg .throttle)).thread P.size).Harmless msg :=
    ⟨.throttle, Pool.go_thread_size .., rfl⟩
  constructor
  · rintro ⟨hr, -, -⟩
    exact turnedAway_of_returned hmsg hfr hk hstart hQ hret hr
  · intro haway
    obtain ⟨Q', hrun, hend⟩ := run_outputs (R := Unnoticed P.size msg)
      (fun _ _ _ _ hR hok hev hs => hR.drop hok hev hs)
      (fun _ _ _ _ _ hR hok hev hs => hR.keep hok hev hs)
      ⟨hk, hstart, (Pool.go_without_size hidle).symm⟩ haway hQ
    refine ⟨hend.harmless.returned hret, ?_, Q', hrun, by rw [hend.eq]; rfl⟩
    refine meets_of_meets (I := fun s => P.size < s.size ∧ (s.thread P.size).Harmless msg)
      (fun s ev t hI hok hs => ⟨hI.1.trans_le (size_le_of_clientStep hs),
        (harmless_clientStep hs hI.1 hI.2 hok).1⟩)
      (fun s ev hI hok => ?_) ⟨hk, hstart⟩ haway
    cases ev with
    | act t c =>
      rintro rfl s' hs
      exact ((harmless_clientStep hs hI.1 hI.2 hok).2 c rfl).1
    | _ => trivial

/-- Timestamps that are never set. -/
def unstamped (_ : Message) : Time := .zero

/-- A message whose payload, `x`, is not JSON. -/
def garbage : Message := ⟨"bad", .message, "c", "", "", "", [120]⟩

/-- The reader loses connection 0, and another `Send` fills the buffer. -/
def filledWhileDown : List Event :=
  [.act 0 .go, .act 0 .go, .lose 0, .act 0 .err, .act 0 .go, .act 0 .go, .act 0 .go,
    .send (outgoing "a"), .act 3 .go, .act 3 .go, .act 3 .go]

/-- A `Send` that finds the client disconnected and the buffer, of one message, full. -/
theorem refused_filledWhileDown :
    ∃ P S Q, run clientStep (connected 1) filledWhileDown = some P ∧
      clientStep P (.send garbage) = some S ∧
      run clientStep S [.act 4 .go, .act 4 .go, .act 4 .go] = some Q ∧
      Meets clientStep (LeavesAlone P.size) S [.act 4 .go, .act 4 .go, .act 4 .go] := by
  have hrun : ((run clientStep (connected 1) filledWhileDown).bind fun P =>
      (clientStep P (.send garbage)).bind fun S =>
        (run clientStep S [.act 4 .go, .act 4 .go, .act 4 .go]).map fun Q =>
          (decide (Meets clientStep (WritesFramed unstamped) S
              [.act 4 .go, .act 4 .go, .act 4 .go]),
            decide (Meets clientStep (TurnedAway P.size) S [.act 4 .go, .act 4 .go, .act 4 .go]),
            (Q.thread P.size).returned)) =
      some (true, true, some (garbage, .bufferFull)) := by decide +kernel
  obtain ⟨P, hP, hrun⟩ := bind_eq_some_iff.mp hrun
  obtain ⟨S, hS, hrun⟩ := bind_eq_some_iff.mp hrun
  obtain ⟨Q, hQ, hread⟩ := map_eq_some_iff.mp hrun
  obtain ⟨hfr, hread⟩ := Prod.mk.inj hread
  obtain ⟨haway, hret⟩ := Prod.mk.inj hread
  refine ⟨P, S, Q, hP, hS, hQ, ?_⟩
  have hgarbage : frame unstamped garbage = none := by decide +kernel
  exact ((refused_iff hgarbage hP hS (of_decide_eq_true hfr) hQ hret).mpr
    (of_decide_eq_true haway)).2.1

/-- The `Send` of the message closes connection 0, buffers the message and returns nil; another
`Send` buffers `a`; the reconnect replays. -/
def poisonedRun : List Event :=
  [.send garbage, .act 2 .go, .act 2 .go, .act 2 .err, .act 2 .go, .act 2 .go, .act 2 .go,
    .send (outgoing "a"), .act 4 .go, .act 4 .go, .act 4 .go,
    .act 3 .tick, .act 3 .ok, .act 3 .ok, .act 3 .ok, .act 3 .go, .act 3 .go, .act 3 .go,
    .act 3 .err, .act 3 .go]

/-- **A payload that is not JSON is accepted, and takes the next message with it**: its `Send`
returns nil, connection 0 is closed, the message stays in the buffer, and `a` is neither written nor
buffered.  Without it, `a` is written at once. -/
theorem poisoned :
    frame unstamped garbage = none ∧
    Meets clientStep (WritesFramed unstamped) (connected 4) poisonedRun ∧
    ((run clientStep (connected 4) poisonedRun).map fun P =>
        ((P.thread 2).returned, (P.thread 4).returned)) =
      some (some (garbage, .nil), some (outgoing "a", .nil)) ∧
    ((run clientStep (connected 4) poisonedRun).map fun P =>
        (P.shared.closedConns, P.shared.buf.items, P.shared.wire)) = some ([0], [garbage], []) ∧
    ((run clientStep (connected 4)
        [.send (outgoing "a"), .act 2 .go, .act 2 .go, .act 2 .ok]).map fun P => P.shared.wire) =
      some [(0, outgoing "a")] :=
  ⟨by decide +kernel, by decide +kernel, by decide +kernel, by decide +kernel, by decide +kernel⟩

end K8s4Claw.Sdk
