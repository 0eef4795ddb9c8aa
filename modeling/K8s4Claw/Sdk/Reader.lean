/-
# How many readers a connection has

The frames on a connection are a length and a body, so they can only be decoded
by one reader.  `Connect` starts a `readLoop` for its connection, and so does
`reconnectLoop` for each connection it installs; but a `readLoop` takes whatever
connection is in `c.conn` at the top of its loop.  One that did not see its own
connection fail, because it was handling a message or had not started to read,
goes on with the next one, next to the reader started for it.

`owns` numbers who may start the reader of a connection, and it is exclusive: a
connection has one `readLoop` started for it (`Exclusive owns`).
-/

import K8s4Claw.Sdk.Moves

namespace K8s4Claw.Sdk

open Lib Option

/-- The connection a `readLoop` is reading from: it is in `readMessage`, or handles
a message it read there. -/
def Thread.readsFrom : Thread → Option ℕ
  | .read _ (.recv g) | .read _ (.handle g _) => some g
  | _ => none

/-- A `readLoop` about to take a connection from `c.conn`, with the connection it
was started for. -/
def Thread.fetching : Thread → Option ℕ
  | .read born .fetch => some born
  | _ => none

/-- At most one goroutine reads from a connection, the current one included. -/
def SingleReader (P : Client) : Prop := Pool.Exclusive Thread.readsFrom P

/-- A `readLoop` that takes a connection finds none, or the one it was started for. -/
def ReadsOwnConn (P : Client) : Event → Prop
  | .act t _ => ∀ born ∈ (P.thread t).fetching, ∀ g ∈ P.shared.conn, g = born
  | _ => True

instance (P : Client) (ev : Event) : Decidable (ReadsOwnConn P ev) := by
  unfold ReadsOwnConn
  induction ev using Event.casesOn <;> infer_instance

/-- A reader uses only the connection it was started for. -/
def Thread.OwnConn (p : Thread) : Prop :=
  ∀ b g, p.owns = some b → p.captured = some g → g = b

variable {p : Thread} {P : Client} {s : Shared} {e : Step}

theorem Thread.ownConn_of_captured (h : p.captured = none) : p.OwnConn := by
  intro b g _ hg
  rw [h] at hg
  cases hg

theorem Thread.ownConn_of_owns (h : p.owns = none) : p.OwnConn := by
  intro b g hb _
  rw [h] at hb
  cases hb

/-- The connection a goroutine owns has been opened. -/
def Thread.OwnsOpened (s : Shared) (p : Thread) : Prop :=
  ∀ g, p.owns = some g → g < s.dials

theorem Thread.owns_of_readsFrom (hp : p.OwnConn) {g : ℕ} (h : p.readsFrom = some g) :
    p.owns = some g := by
  unfold Thread.readsFrom at h
  split at h
  · rename_i b k
    obtain rfl : k = g := some.inj h
    rw [hp b k rfl rfl]
    rfl
  · rename_i b k msg
    obtain rfl : k = g := some.inj h
    rw [hp b k rfl rfl]
    rfl
  · cases h

/-- What carries single readers through a run: each connection has one owner, the
connections owned have been opened, and readers use their own connection. -/
structure Owned (P : Client) : Prop where
  exclusive : Pool.Exclusive Thread.owns P
  opened : ∀ t, (P.thread t).OwnsOpened P.shared
  ownConn : ∀ t, (P.thread t).OwnConn

theorem Owned.singleReader (hP : Owned P) : SingleReader P := by
  intro t u g ht hu
  exact hP.exclusive t u g (Thread.owns_of_readsFrom (hP.ownConn t) ht)
    (Thread.owns_of_readsFrom (hP.ownConn u) hu)

/-- **Ownership is handed on.**  After a step, the goroutine that moved and the one
it started own what the goroutine owned, or the connection just opened, and not
both the same. -/
theorem Move.owns (h : Move s p e) :
    (∀ k, e.next.owns = some k → p.owns = some k ∨ k = s.dials ∧ e.shared.dials = s.dials + 1) ∧
      ∀ q, e.spawn = some q → ∀ k, q.owns = some k → e.next.owns ≠ some k ∧ p.owns = some k := by
  cases h with
  | stay _ hq => exact ⟨fun k hk => .inl (hq.owns k hk), forall_of_eq_none rfl⟩
  | readFetch | install | closeConn => exact ⟨fun k hk => .inl hk, forall_of_eq_none rfl⟩
  | mark _ _ hown => exact ⟨fun k hk => .inl (hown ▸ hk), forall_of_eq_none rfl⟩
  | retry _ hown =>
    cases hr : s.reconnecting with
    | true =>
      rw [Shared.tryReconnect_of_reconnecting hr]
      exact ⟨forall_of_eq_none hown, forall_of_eq_none rfl⟩
    | false =>
      rw [Shared.tryReconnect_of_not_reconnecting hr]
      refine ⟨forall_of_eq_none hown, fun q h k hk => ?_⟩
      -- the new `reconnectLoop` has not dialed
      cases h
      cases hk
  | dial =>
    refine ⟨fun k hk => .inr ⟨?_, rfl⟩, forall_of_eq_none rfl⟩
    exact (some.inj hk).symm
  | startReader =>
    refine ⟨forall_of_eq_none rfl, fun q h k hk => ?_⟩
    cases h
    exact ⟨by rintro ⟨⟩, hk⟩
  | _ => exact ⟨forall_of_eq_none rfl, forall_of_eq_none rfl⟩

theorem Shared.tryReconnect_dials (s : Shared) (q : Thread) :
    (s.tryReconnect q).shared.dials = s.dials := by
  unfold Shared.tryReconnect
  split_ifs <;> rfl

/-- Connections are never forgotten. -/
theorem Move.dials_le (h : Move s p e) : s.dials ≤ e.shared.dials := by
  cases h with
  | stay hs => exact hs.dials.ge
  | mark => simp
  | retry => exact (Shared.tryReconnect_dials s _).ge
  | dial => exact Nat.le_succ _
  | _ => exact le_rfl

/-- A step leaves a reader on its own connection, if a reader that takes a
connection finds its own. -/
theorem Move.ownConn (h : Move s p e) (hp : p.OwnConn)
    (hfetch : ∀ born ∈ p.fetching, ∀ g ∈ s.conn, g = born) :
    e.next.OwnConn ∧ ∀ q, e.spawn = some q → q.OwnConn := by
  cases h with
  | stay _ hq =>
    exact ⟨fun b g hb hg => hp b g (hq.owns b hb) (hq.captured g hg), forall_of_eq_none rfl⟩
  | readFetch hg =>
    refine ⟨fun b k hb hk => ?_, forall_of_eq_none rfl⟩
    cases hb
    cases hk
    exact hfetch _ rfl _ hg
  | mark _ _ _ hcap => exact ⟨Thread.ownConn_of_captured hcap, forall_of_eq_none rfl⟩
  | retry _ _ hcap =>
    cases hr : s.reconnecting with
    | true =>
      rw [Shared.tryReconnect_of_reconnecting hr]
      exact ⟨Thread.ownConn_of_captured hcap, forall_of_eq_none rfl⟩
    | false =>
      rw [Shared.tryReconnect_of_not_reconnecting hr]
      refine ⟨Thread.ownConn_of_captured hcap, fun q h => ?_⟩
      cases h
      exact Thread.ownConn_of_captured rfl
  | startReader =>
    refine ⟨Thread.ownConn_of_captured rfl, fun q h => ?_⟩
    cases h
    exact Thread.ownConn_of_captured rfl
  | sendFetch | beatFetch => exact ⟨Thread.ownConn_of_owns rfl, forall_of_eq_none rfl⟩
  | _ => exact ⟨Thread.ownConn_of_captured rfl, forall_of_eq_none rfl⟩

theorem Owned.advance {t : ℕ} (hP : Owned P) (ht : t < P.size) (hm : Move P.shared (P.thread t) e)
    (hfetch : ∀ born ∈ (P.thread t).fetching, ∀ g ∈ P.shared.conn, g = born) :
    Owned (P.advance t e) := by
  obtain ⟨hnext, hspawn⟩ := hm.owns
  -- nobody owns the connection that was just opened
  have hfresh : ∀ u, (P.thread u).owns ≠ some P.shared.dials := fun u h =>
    lt_irrefl _ (hP.opened u _ h)
  obtain ⟨hown, hownSpawn⟩ := hm.ownConn (hP.ownConn t) hfetch
  refine ⟨Pool.exclusive_advance ht hP.exclusive (fun k hk => ?_) (fun q k hq hk => ?_), ?_,
    Pool.forall_advance ht (I := fun _ => Thread.OwnConn) (fun u _ => hP.ownConn u) hown
      hownSpawn⟩
  · rcases hnext k hk with h | ⟨rfl, -⟩
    · exact .inl h
    · exact .inr hfresh
  · obtain ⟨hne, h⟩ := hspawn q hq k hk
    exact ⟨hne, .inl h⟩
  · have hlt : ∀ u k, (P.thread u).owns = some k → k < e.shared.dials := fun u k h =>
      (hP.opened u k h).trans_le hm.dials_le
    refine Pool.forall_advance ht (fun u _ => hlt u) (fun k hk => ?_)
      fun q hq k hk => hlt t k (hspawn q hq k hk).2
    rcases hnext k hk with h | ⟨rfl, h⟩
    · exact hlt t k h
    · rw [h]
      exact Nat.lt_succ_self _

/-- **A step keeps the owners**, if a reader that takes a connection finds its own. -/
theorem Owned.clientStep {P' : Client} {ev : Event} (hP : Owned P) (hok : ReadsOwnConn P ev)
    (h : clientStep P ev = some P') : Owned P' := by
  cases clientStep_move h with
  | call _ hown hcap =>
    refine ⟨Pool.exclusive_go hP.exclusive hown,
      Pool.forall_go hP.opened fun g hg => ?_,
      Pool.forall_go (I := fun _ => Thread.OwnConn) hP.ownConn
        (Thread.ownConn_of_captured hcap)⟩
    rw [hown] at hg
    cases hg
  | world _ hs =>
    refine ⟨hP.exclusive, fun t g hg => ?_, hP.ownConn⟩
    exact (hP.opened t g hg).trans_eq hs.dials.symm
  | act ht hm => exact hP.advance ht hm hok

theorem owned_connected (n : ℤ) : Owned (connected n) := by
  have hzero : ∀ t g, ((connected n).thread t).owns = some g → t = 0 ∧ g = 0 := by
    intro t g h
    rw [connected_thread] at h
    split_ifs at h with h₀
    · exact ⟨h₀, (some.inj h).symm⟩
    · cases h
    · cases h
  refine ⟨fun t u k ht hu => (hzero t k ht).1.trans (hzero u k hu).1.symm, fun t g h => ?_,
    fun t => Thread.ownConn_of_captured ?_⟩
  · rw [(hzero t g h).2]
    exact Nat.zero_lt_one
  · rw [connected_thread]
    split_ifs <;> rfl

/-- **One reader per connection**, in every state of every run in which a `readLoop`
that takes a connection finds none or its own. -/
theorem singleReader_along {n : ℤ} {es : List Event}
    (hok : Meets clientStep ReadsOwnConn (connected n) es) :
    Along clientStep SingleReader (connected n) es :=
  along_of_meets (fun _ _ _ hP hok h => Owned.clientStep hP hok h)
    (fun _ hP => Owned.singleReader hP) (owned_connected n) hok

/-- A reconnect the reader itself asked for: it reads from connection 0, which
fails, and the reader of connection 1 is another goroutine. -/
theorem singleReader_along_reconnected :
    Along clientStep SingleReader (connected 10)
      [.act 0 .go, .act 0 .go, .lose 0, .act 0 .err, .act 0 .go, .act 0 .go, .act 0 .go,
        .act 2 .tick, .act 2 .ok, .act 2 .ok, .act 2 .ok, .act 2 .go, .act 2 .go, .act 2 .go,
        .act 2 .go, .act 3 .go, .act 3 .go] :=
  singleReader_along (by decide)

/-- Connection 0 drops before its reader starts to read.  The heartbeat sees the
error and starts goroutine 2, which installs connection 1 and starts its reader,
goroutine 3.  Then the first reader finds connection 1. -/
def readerTakesOver : List Event :=
  [.lose 0, .act 1 .tick, .act 1 .go, .act 1 .err, .act 1 .go, .act 1 .go,
    .act 2 .tick, .act 2 .ok, .act 2 .ok, .act 2 .ok, .act 2 .go, .act 2 .go, .act 2 .go,
    .act 2 .go, .act 3 .go, .act 3 .go, .act 0 .go, .act 0 .go]

/-- **Two readers of one connection**: goroutines 0 and 3 are both in `readMessage`
on connection 1, the current one. -/
theorem readerTakesOver_two_readers :
    ∃ P ∈ run clientStep (connected 10) readerTakesOver,
      P.shared.conn = some 1 ∧ (P.thread 0).readsFrom = some 1 ∧
        (P.thread 3).readsFrom = some 1 := by
  decide

end K8s4Claw.Sdk
