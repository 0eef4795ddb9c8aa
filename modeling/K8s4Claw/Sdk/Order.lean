/-
# The order of messages across a reconnect

`dial` of `sdk/channel/client.go` installs the new connection, sets `connected`, and only then
calls `replayBuffer`.  From that moment on a `Send` finds the client connected and writes at once,
while the messages that were buffered before it was called are still in the buffer or in the hands
of the replay.  In `sentPastBuffer` such a `Send` overtakes a buffered message.

A message is in line (`InLine`) as long as it has been written, is in the hands of the replay, or is
in the buffer, and the messages that came later are behind it.  Every step of the client keeps the
line but two: a `Send` that takes the connection while somebody is waiting in line, and a replay
that stops and drops the rest of its messages.
-/

import K8s4Claw.Lib.After
import K8s4Claw.Sdk.Mail
import K8s4Claw.Sdk.Teardown

namespace K8s4Claw.Sdk

open Lib List Option Function

/-! ### The line -/

/-- `a` is written, in somebody's hands or in the buffer, and every `b` is behind it: `sent` are the
items written so far, `hand t` the items goroutine `t` took out of the buffer to write them, and
`writer t` the item `t` is about to write without going through the buffer. -/
structure InLine {α : Type*} (a b : α) (sent : List α) (hand : ℕ → List α) (items : List α)
    (writer : ℕ → Option α) : Prop where
  placed : a ∈ sent ∨ (∃ t, a ∈ hand t) ∨ a ∈ items
  inSent : After False a b sent
  inHand : ∀ t, After (a ∈ sent) a b (hand t)
  inItems : After (a ∈ sent ∨ ∃ t, a ∈ hand t) a b items
  ofWriter : ∀ t, writer t = some b → a ∈ sent

namespace InLine

variable {α : Type*} {a b x : α} {sent : List α} {hand : ℕ → List α} {items : List α}
  {writer : ℕ → Option α} {u : ℕ}

variable (h : InLine a b sent hand items writer)

include h

/-- A goroutine that is not about to write anything is no longer a writer. -/
theorem leave {w : Option α} (hw : w = none) :
    InLine a b sent hand items (update writer u w) := by
  refine { h with ofWriter := fun t => ?_ }
  rw [update_apply, hw]
  split_ifs
  · intro hb
    cases hb
  · exact h.ofWriter t

theorem stay {xs : List α} {w : Option α} (hxs : xs = hand u) (hw : w = none) :
    InLine a b sent (update hand u xs) items (update writer u w) := by
  rw [hxs, update_eq_self]
  exact h.leave hw

theorem push :
    InLine a b sent hand (items ++ [x]) writer where
  placed := h.placed.imp id (Or.imp id (mem_append_left _))
  inSent := h.inSent
  inHand := h.inHand
  inItems := h.inItems.concat fun _ => by
    rcases h.placed with hs | hh | hi
    · exact .inl (.inl hs)
    · exact .inl (.inr hh)
    · exact .inr hi
  ofWriter := h.ofWriter

/-- Nobody is in line: a goroutine may write past it. -/
theorem fetch (hhand : ∀ t, hand t = []) (hitems : items = []) :
    InLine a b sent (update hand u []) items (update writer u (some x)) := by
  rw [update_eq_self_iff.mpr (hhand u).symm]
  refine { h with ofWriter := fun _ _ => ?_ }
  rcases h.placed with hs | ⟨t, ht⟩ | hi
  · exact hs
  · rw [hhand t] at ht
    exact absurd ht not_mem_nil
  · rw [hitems] at hi
    exact absurd hi not_mem_nil

theorem write (hx : writer u = some x) :
    InLine a b (sent ++ [x]) hand items writer where
  placed := h.placed.imp (mem_append_left _) id
  inSent := h.inSent.concat fun hxb => .inr (h.ofWriter u (hxb ▸ hx))
  inHand t := (h.inHand t).mono (mem_append_left _)
  inItems := h.inItems.mono (Or.imp (mem_append_left _) id)
  ofWriter t ht := mem_append_left _ (h.ofWriter t ht)

theorem drain (hhand : ∀ t, hand t = []) :
    InLine a b sent (update hand u items) [] writer := by
  have hnone : ¬ ∃ t, a ∈ hand t := by
    rintro ⟨t, ht⟩
    rw [hhand t] at ht
    exact not_mem_nil ht
  refine ⟨?_, h.inSent, fun t => ?_, after_nil, h.ofWriter⟩
  · rcases h.placed with hs | hh | hi
    · exact .inl hs
    · exact absurd hh hnone
    · exact .inr (.inl ⟨u, by rwa [update_self]⟩)
  · rcases eq_or_ne t u with rfl | hne
    · rw [update_self]
      exact h.inItems.mono fun hseen => hseen.resolve_right hnone
    · rw [update_of_ne hne]
      exact h.inHand t

theorem replay {xs : List α} (hu : hand u = x :: xs) :
    InLine a b (sent ++ [x]) (update hand u xs) items writer := by
  -- `a` in anybody's hands is still there, or is the item written
  have hmoved : (∃ t, a ∈ hand t) → a ∈ sent ++ [x] ∨ ∃ t, a ∈ update hand u xs t := by
    rintro ⟨t, ht⟩
    rcases eq_or_ne t u with rfl | hne
    · rw [hu] at ht
      rcases mem_cons.mp ht with rfl | ht
      · exact .inl (mem_append_right _ (mem_singleton_self a))
      · exact .inr ⟨t, by rwa [update_self]⟩
    · exact .inr ⟨t, by rwa [update_of_ne hne]⟩
  have hhead := h.inHand u
  rw [hu] at hhead
  refine ⟨?_, h.inSent.concat fun hxb => ?_, fun t => ?_, h.inItems.mono fun hseen => ?_,
    fun t ht => mem_append_left _ (h.ofWriter t ht)⟩
  · rcases h.placed with hs | hh | hi
    · exact .inl (mem_append_left _ hs)
    · exact (hmoved hh).imp id .inl
    · exact .inr (.inr hi)
  · subst hxb
    exact .inr hhead.head
  · rcases eq_or_ne t u with rfl | hne
    · rw [update_self]
      refine hhead.tail.mono fun hseen => ?_
      rcases hseen with hs | rfl
      · exact mem_append_left _ hs
      · exact mem_append_right _ (mem_singleton_self a)
    · rw [update_of_ne hne]
      exact (h.inHand t).mono (mem_append_left _)
  · rcases hseen with hs | hh
    · exact .inl (mem_append_left _ hs)
    · exact hmoved hh

end InLine

/-! ### The client -/

/-- The messages written to the bus, in order. -/
def sent (P : Client) : List Message := P.shared.wire.map Prod.snd

/-- `a` is in line and `b` is behind it. -/
def Behind (a b : Message) (P : Client) : Prop :=
  InLine a b (sent P) (fun t => (P.thread t).replaying) P.shared.buf.items
    fun t => (P.thread t).writing

/-- The goroutine is a `replayBuffer` about to look for the connection, with a message to write. -/
def Thread.fetchingToReplay : Thread → Bool
  | .loop (.fetch _ (_ :: _)) => true
  | _ => false

/-- A `Send` that finds the client connected finds nothing in the buffer and nothing in the hands
of a replay, and a replay finds a connection for each of its messages. -/
def InTurn (P : Client) : Event → Prop
  | .act t _ =>
      ((P.thread t).looking = true → P.shared.current ≠ none →
        P.shared.buf.items = [] ∧ ∀ u < P.size, (P.thread u).replaying = []) ∧
      ((P.thread t).fetchingToReplay = true → P.shared.conn ≠ none)
  | _ => True

instance (P : Client) (ev : Event) : Decidable (InTurn P ev) := by
  unfold InTurn
  induction ev using Event.casesOn <;> infer_instance

/-- No write of a replay fails. -/
def ReplayWrites (P : Client) : Event → Prop
  | .act t .err => (P.thread t).replaying = []
  | _ => True

instance (P : Client) (ev : Event) : Decidable (ReplayWrites P ev) := by
  unfold ReplayWrites
  split <;> infer_instance

variable {p : Thread} {P' : Client} {ev : Event} {e : Step}

theorem Thread.replaying_of_isLoop_eq_false (h : p.isLoop = false) : p.replaying = [] := by
  cases p with
  | loop => cases h
  | _ => rfl

/-- What is known of every state: who runs, that there is one `reconnectLoop`, and that no replay
was cut short. -/
structure Replaying (P : Client) : Prop where
  idle : IdleBeyond P
  ordered : ∃ b, Ordered b P
  whole : ∀ t, (P.thread t).repushing = false

variable {P : Client} {a b : Message} {c : Choice}

theorem Replaying.clientStep (hP : Replaying P) (hok : InTurn P ev) (hw : ReplayWrites P ev)
    (h : clientStep P ev = some P') : Replaying P' := by
  refine ⟨hP.idle.clientStep h, exists_ordered_clientStep hP.ordered h, ?_⟩
  cases clientStep_stepped h with
  | @call _ q hev =>
    have hq : q.repushing = Thread.idle.repushing := by cases ev <;> cases hev <;> rfl
    intro t
    rw [congrFun (hP.idle.read_go hq) t]
    exact hP.whole t
  | receive | lose => exact hP.whole
  | @act u c e hu he =>
    intro t
    rw [congrFun (hP.idle.read_advance (f := Thread.repushing) rfl (fun _ => rfl) hu he) t,
      update_apply]
    split_ifs
    · -- a replay stops only where the connection is gone or a write fails
      obtain ⟨p, hp⟩ : ∃ p, P.thread u = p := ⟨_, rfl⟩
      rw [hp] at he
      cases act_mail he with
      | plain _ _ hq => exact hq.repushing
      | giveBack => rw [(tryReconnect_mail P.shared _).2.2]; rfl
      | noConn hconn => exact absurd hconn (hok.2 (by rw [hp]; rfl))
      | failed =>
        have hnil : (P.thread u).replaying = [] := hw
        rw [hp] at hnil
        cases hnil
      | _ => rfl
    · exact hP.whole t

/-- While a `reconnectLoop` is about to drain the buffer, nobody has messages in hand. -/
theorem Replaying.replaying_eq_nil (hP : Replaying P) {u g : ℕ} (hu : P.thread u = .loop (.drain g))
    (t : ℕ) : (P.thread t).replaying = [] := by
  obtain ⟨b, hord⟩ := hP.ordered
  rcases eq_or_ne t u with rfl | hne
  · rw [hu]
    rfl
  · refine Thread.replaying_of_isLoop_eq_false (hord.isLoop_eq_false hne ?_)
    rw [hu]
    rfl

theorem Behind.push (hB : Behind a b P) (msg : Message) :
    InLine a b (sent P) (fun t => (P.thread t).replaying) (P.shared.buf.push msg).1.items
      fun t => (P.thread t).writing := by
  rcases P.shared.buf.items_push_cases msg with h | ⟨h, -⟩
  · rw [h]
    exact InLine.push hB
  · rw [h]
    exact hB

/-- The line after a step of one goroutine. -/
theorem behind_advance_iff {u : ℕ} (hidle : IdleBeyond P) (hu : u < P.size)
    (he : act P.shared (P.thread u) c = some e) :
    Behind a b (P.advance u e) ↔
      InLine a b (e.shared.wire.map Prod.snd)
        (update (fun t => (P.thread t).replaying) u e.next.replaying) e.shared.buf.items
        (update (fun t => (P.thread t).writing) u e.next.writing) := by
  unfold Behind sent
  rw [hidle.read_advance rfl (fun _ => rfl) hu he,
    hidle.read_advance rfl (fun _ => rfl) hu he, Pool.advance_shared]

/-- **A step of a goroutine keeps the line.** -/
theorem Behind.advance {u : ℕ} (hB : Behind a b P) (hP : Replaying P) (hok : InTurn P (.act u c))
    (hw : ReplayWrites P (.act u c)) (hu : u < P.size) (he : act P.shared (P.thread u) c = some e) :
    Behind a b (P.advance u e) := by
  rw [behind_advance_iff hP.idle hu he]
  obtain ⟨p, hp⟩ : ∃ p, P.thread u = p := ⟨_, rfl⟩
  have hhand : (P.thread u).replaying = p.replaying := congrArg _ hp
  have hwriter : (P.thread u).writing = p.writing := congrArg _ hp
  have hwhole : p.repushing = false := hp ▸ hP.whole u
  rw [hp] at he
  cases act_mail he with
  | plain hbuf hwire hq =>
    rw [hbuf, hwire]
    exact InLine.stay hB (hq.replaying.trans hhand.symm) hq.writing
  | fetch hcur =>
    -- it finds nobody in line, so it may write past it
    obtain ⟨hitems, hhands⟩ :=
      hok.1 (by rw [hp]; rfl) (by rw [hcur]; exact some_ne_none _)
    have hnone (t : ℕ) : (P.thread t).replaying = [] := by
      by_cases ht : t < P.size
      · exact hhands t ht
      · rw [hP.idle t (not_lt.mp ht)]
        rfl
    exact InLine.fetch hB hnone hitems
  | @push msg | @rebuffer msg => exact (hB.push msg).stay hhand.symm rfl
  | write =>
    rw [map_append]
    exact (InLine.write hB hwriter).stay hhand.symm rfl
  | @giveBack msg =>
    obtain ⟨hbuf, hwire, hnext⟩ := tryReconnect_mail P.shared (.send msg (.ret .nil))
    rw [hbuf, hwire, hnext]
    exact InLine.stay hB hhand.symm rfl
  | drain => exact (InLine.drain hB (hP.replaying_eq_nil hp)).leave rfl
  | replay =>
    rw [map_append]
    exact (InLine.replay hB hhand).leave rfl
  -- a replay stops only where the connection is gone or a write fails
  | noConn hconn => exact absurd hconn (hok.2 (by rw [hp]; rfl))
  | failed =>
    rw [show (P.thread u).replaying = [] from hw] at hhand
    cases hhand
  | repush => cases hwhole

/-- **A step of the client keeps the line.** -/
theorem Behind.clientStep (hB : Behind a b P) (hP : Replaying P) (hok : InTurn P ev)
    (hw : ReplayWrites P ev) (h : clientStep P ev = some P') : Behind a b P' := by
  cases clientStep_stepped h with
  | @call _ q hev =>
    have hq : q.replaying = Thread.idle.replaying ∧ q.writing = Thread.idle.writing := by
      cases ev <;> cases hev <;> exact ⟨rfl, rfl⟩
    unfold Behind
    rw [hP.idle.read_go hq.1, hP.idle.read_go hq.2]
    exact hB
  | receive | lose => exact hB
  | act hu he => exact hB.advance hP hok hw hu he

/-! ### A message nobody has sent yet -/

/-- A goroutine sends the same message all along. -/
theorem MailMove.message_next {s : Shared} (h : MailMove s p c e) : e.next.message = p.message := by
  cases h with
  | plain _ _ hq => exact hq.message
  | giveBack => rw [(tryReconnect_mail s _).2.2]; rfl
  | _ => rfl

/-- Nobody has called `Send` with `b` yet. -/
structure Unsent (b : Message) (P : Client) : Prop where
  thread : ∀ t, (P.thread t).message ≠ some b
  sent : b ∉ sent P
  hand : ∀ t, b ∉ (P.thread t).replaying
  items : b ∉ P.shared.buf.items

theorem not_mem_push {buf : Buffer} {msg : Message} (h : b ∉ buf.items) (hne : msg ≠ b) :
    b ∉ (buf.push msg).1.items := by
  rcases buf.items_push_cases msg with heq | ⟨heq, -⟩
  · rw [heq, mem_append, mem_singleton]
    exact not_or.mpr ⟨h, hne.symm⟩
  · rwa [heq]

theorem MailMove.unsent {s : Shared} (h : MailMove s p c e) (hp : p.message ≠ some b)
    (hwire : b ∉ s.wire.map Prod.snd) (hhand : b ∉ p.replaying) (hitems : b ∉ s.buf.items) :
    b ∉ e.shared.wire.map Prod.snd ∧ b ∉ e.next.replaying ∧ b ∉ e.shared.buf.items := by
  have happ {g : ℕ} {msg : Message} (hne : msg ≠ b) :
      b ∉ (s.wire ++ [(g, msg)]).map Prod.snd := by
    rw [map_append, mem_append, not_or]
    exact ⟨hwire, fun hb => hne (mem_singleton.mp hb).symm⟩
  cases h with
  | plain hbuf hw hq => exact ⟨hw ▸ hwire, hq.replaying ▸ hhand, hbuf ▸ hitems⟩
  | fetch => exact ⟨hwire, not_mem_nil, hitems⟩
  | write => exact ⟨happ fun h => hp (congrArg some h), not_mem_nil, hitems⟩
  | giveBack =>
    obtain ⟨hbuf, hw, hnext⟩ := tryReconnect_mail s (.send ‹_› (.ret .nil))
    exact ⟨hw ▸ hwire, by rw [hnext]; exact not_mem_nil, hbuf ▸ hitems⟩
  | drain => exact ⟨hwire, hitems, not_mem_nil⟩
  | replay =>
    rw [Thread.replaying, mem_cons, not_or] at hhand
    exact ⟨happ (Ne.symm hhand.1), hhand.2, hitems⟩
  | noConn | failed =>
    rw [Thread.replaying, mem_cons, not_or] at hhand
    exact ⟨hwire, fun hb => hhand.1 (mem_singleton.mp hb), hitems⟩
  | repush =>
    rw [Thread.replaying, mem_singleton] at hhand
    exact ⟨hwire, not_mem_nil, not_mem_push hitems (Ne.symm hhand)⟩
  | _ => exact ⟨hwire, not_mem_nil, not_mem_push hitems fun h => hp (congrArg some h)⟩

theorem Unsent.clientStep (hU : Unsent b P) (hP : IdleBeyond P) (hev : ev ≠ .send b)
    (h : clientStep P ev = some P') : Unsent b P' := by
  cases clientStep_stepped h with
  | @call _ q hcall =>
    have hq : q.replaying = Thread.idle.replaying := by cases ev <;> cases hcall <;> rfl
    refine ⟨Pool.forall_go (I := fun _ (p : Thread) => p.message ≠ some b) hU.thread ?_, hU.sent,
      fun t => ?_, hU.items⟩
    · cases ev with
      | send =>
        cases hcall
        intro hb
        exact hev (congrArg Event.send (some.inj hb))
      | close =>
        cases hcall
        intro hb
        cases hb
      | _ => cases hcall
    · rw [congrFun (hP.read_go hq) t]
      exact hU.hand t
  | receive | lose => exact ⟨hU.thread, hU.sent, hU.hand, hU.items⟩
  | @act u c e hu he =>
    obtain ⟨hwire, hhand, hitems⟩ :=
      (act_mail he).unsent (hU.thread u) hU.sent (hU.hand u) hU.items
    refine ⟨fun t => ?_, by rwa [Sdk.sent, Pool.advance_shared], fun t => ?_,
      by rwa [Pool.advance_shared]⟩
    · rw [congrFun (hP.read_advance (f := Thread.message) rfl (fun _ => rfl) hu he) t, update_apply]
      split_ifs
      · rw [(act_mail he).message_next]
        exact hU.thread u
      · exact hU.thread t
    · rw [congrFun (hP.read_advance (f := Thread.replaying) rfl (fun _ => rfl) hu he) t,
        update_apply]
      split_ifs
      · exact hhand
      · exact hU.hand t

theorem Unsent.behind (hU : Unsent b P) (ha : a ∈ P.shared.buf.items) : Behind a b P where
  placed := .inr (.inr ha)
  inSent := after_of_not_mem hU.sent
  inHand t := after_of_not_mem (hU.hand t)
  inItems := after_of_not_mem hU.items
  ofWriter t ht := by
    -- who has a connection for `b` is sending `b`
    refine absurd ?_ (hU.thread t)
    unfold Thread.writing at ht
    split at ht
    · next heq => rw [heq]; exact ht
    · cases ht

theorem replaying_connected (n : ℤ) : Replaying (connected n) where
  idle := idleBeyond_connected n
  ordered := ⟨0, ordered_connected n⟩
  whole t := by
    unfold connected
    dsimp only
    split_ifs <;> rfl

theorem unsent_connected (b : Message) (n : ℤ) : Unsent b (connected n) where
  thread t := by
    unfold connected
    dsimp only
    split_ifs <;> exact some_ne_none b ∘ Eq.symm
  sent := not_mem_nil
  hand t := by
    unfold connected
    dsimp only
    split_ifs <;> exact not_mem_nil
  items := not_mem_nil

/-- **What is in the buffer before `Send(b)` is called is written before `b`.**  Let the writes of
the replays succeed.  In every run in which a `Send` that finds the client connected finds nothing
in the buffer and nothing being replayed, and a replay finds a connection for its messages, a
message `a` that is in the buffer before `b` is sent stands before `b` on the wire. -/
theorem written_behind {n : ℤ} {es fs : List Event} {a b : Message} {P Q : Client}
    (hw : Meets clientStep ReplayWrites (connected n) (es ++ fs))
    (hok : Meets clientStep InTurn (connected n) (es ++ fs))
    (hP : run clientStep (connected n) es = some P) (ha : a ∈ P.shared.buf.items)
    (hb : Event.send b ∉ es) (hQ : run clientStep P fs = some Q) {l₁ l₂ : List Message}
    (hl : sent Q = l₁ ++ b :: l₂) : a ∈ l₁ := by
  obtain ⟨hbefore, hafter⟩ := meets_append.mp (meets_and hok hw)
  have hfresh : ∀ ev ∈ es, ev ≠ .send b := fun ev hev heq => hb (heq ▸ hev)
  obtain ⟨hrep, hunsent⟩ : Replaying P ∧ Unsent b P :=
    run_invariant_of_meets (I := fun P => Replaying P ∧ Unsent b P)
      (fun _ _ _ hI hstep h => ⟨hI.1.clientStep hstep.1.1 hstep.1.2 h,
        hI.2.clientStep hI.1.idle hstep.2 h⟩)
      ⟨replaying_connected n, unsent_connected b n⟩ (meets_and_of_forall hbefore hfresh) hP
  have hline : Replaying Q ∧ Behind a b Q :=
    run_invariant_of_meets (I := fun P => Replaying P ∧ Behind a b P)
      (fun _ _ _ hI hstep h => ⟨hI.1.clientStep hstep.1 hstep.2 h,
        hI.2.clientStep hI.1 hstep.1 hstep.2 h⟩)
      ⟨hrep, hunsent.behind ha⟩ (hafter P hP) hQ
  exact (hline.2.inSent l₁ l₂ hl).resolve_left id

/-- The reader loses connection 0 and starts a reconnect; `a` is sent and buffered. -/
def sentWhileDown (a : Message) : List Event :=
  [.act 0 .go, .act 0 .go, .lose 0, .act 0 .err, .act 0 .go, .act 0 .go, .act 0 .go,
    .send a, .act 3 .go, .act 3 .go, .act 3 .go]

/-- The reconnect installs connection 1. -/
def installs : List Event := [.act 2 .tick, .act 2 .ok, .act 2 .ok, .act 2 .ok, .act 2 .go]

/-- The replay writes the one message in the buffer. -/
def replays : List Event := [.act 2 .go, .act 2 .go, .act 2 .ok, .act 2 .go]

/-- `b` is sent over the connection. -/
def sends (b : Message) : List Event := [.send b, .act 4 .go, .act 4 .go, .act 4 .ok]

/-- `b` is sent when the replay is over. -/
theorem written_behind_replayed :
    ((run clientStep (connected 4) (sentWhileDown (outgoing "a") ++
        (installs ++ replays ++ sends (outgoing "b")))).map sent) =
      some [outgoing "a", outgoing "b"] ∧
    ∀ Q, run clientStep (connected 4) (sentWhileDown (outgoing "a") ++
        (installs ++ replays ++ sends (outgoing "b"))) = some Q →
      ∀ l₁ l₂, sent Q = l₁ ++ outgoing "b" :: l₂ → outgoing "a" ∈ l₁ := by
  refine ⟨by decide +kernel, fun Q hQ l₁ l₂ hl => ?_⟩
  obtain ⟨P, hP, hrest⟩ := run_append.mp hQ
  have hbuf : ((run clientStep (connected 4) (sentWhileDown (outgoing "a"))).map
      fun P => P.shared.buf.items) = some [outgoing "a"] := by decide +kernel
  rw [hP] at hbuf
  have hitems : P.shared.buf.items = [outgoing "a"] := some.inj hbuf
  refine written_behind (by decide +kernel) (by decide +kernel) hP ?_ ?_ hrest hl
  · rw [hitems]
    exact mem_singleton_self _
  · simp [sentWhileDown, outgoing]

/-- **A `Send` overtakes the buffer**: it takes connection 1 as soon as it is installed, before the
replay has taken `a` out of the buffer. -/
theorem sentPastBuffer :
    ((run clientStep (connected 4) (sentWhileDown (outgoing "a") ++
        (installs ++ sends (outgoing "b") ++ replays))).map sent) =
      some [outgoing "b", outgoing "a"] := by
  decide +kernel

end K8s4Claw.Sdk
