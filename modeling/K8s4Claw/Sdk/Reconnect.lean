/-
# Does a disconnected client come back?

The `connected` flag of a client only becomes false in `markDisconnected`, and
every caller of `markDisconnected` calls `tryReconnect` next.  But `tryReconnect`
does nothing while `reconnecting` is set, and `reconnectLoop` clears that flag in
a deferred function, after `dial` has installed the connection, replayed the
buffer and `go c.readLoop()` has run.  A connection that drops in between is
reported to a `reconnectLoop` that will not dial again, and the new `readLoop`
finds `c.conn == nil` and polls for ever.

`NeverDead` is what the client needs: not closed and not connected, it has a goroutine that will
dial or will call `tryReconnect`.  The only step that can end this is a `tryReconnect` that is
turned away (`neverDead_advance_of_not_atTry`).
-/

import K8s4Claw.Sdk.Moves

namespace K8s4Claw.Sdk

open Lib

/-- If the client is neither closed nor connected, some goroutine is a
`reconnectLoop` that will still dial, or will call `tryReconnect`. -/
def NeverDead (P : Client) : Prop :=
  P.shared.closed = false → P.shared.connected = false →
    ∃ t < P.size, (P.thread t).recovers P.shared = true

instance (P : Client) : Decidable (NeverDead P) :=
  inferInstanceAs (Decidable (_ → _ → _))

/-- A `tryReconnect` that is turned away because `reconnecting` is set, on a client
neither closed nor connected, is turned away by a `reconnectLoop` that has not
installed its connection yet. -/
def TurnedAwayByDialer (P : Client) : Event → Prop
  | .act t _ => (P.thread t).atTry = true → P.shared.reconnecting = true →
      P.shared.closed = false → P.shared.connected = false →
        ∃ u < P.size, (P.thread u).willDial = true
  | _ => True

instance (P : Client) (ev : Event) : Decidable (TurnedAwayByDialer P ev) := by
  unfold TurnedAwayByDialer
  induction ev using Event.casesOn <;> infer_instance

variable {s : Shared} {p : Thread} {P : Client}

/-- A goroutine waiting for a dead connection stays bound to see the error: a
connection does not become usable again. -/
theorem Thread.recovers_mono {s' : Shared} (h : ∀ g, s'.usable g = true → s.usable g = true)
    (hp : p.recovers s = true) : p.recovers s' = true := by
  have hn : ∀ g, s.usable g = false → s'.usable g = false := by
    intro g hg
    by_contra hne
    rw [h g (by simpa using hne)] at hg
    cases hg
  unfold Thread.recovers at hp ⊢
  rw [Bool.or_eq_true] at hp ⊢
  refine hp.imp_right fun hp => ?_
  unfold Thread.willTry at hp ⊢
  split at hp
  · simpa using hn _ (by simpa using hp)
  · simpa using hn _ (by simpa using hp)
  · simpa using hn _ (by simpa using hp)
  all_goals first | rfl | cases hp

theorem Move.usable {e : Step} (h : Move s p e) (g : ℕ) (hg : e.shared.usable g = true) :
    s.usable g = true := by
  cases h with
  | stay hs => simpa [Shared.usable, hs.closedConns, hs.lost] using hg
  | mark =>
    unfold Shared.markDisconnected at hg
    cases hc : s.conn with
    | none => simpa [hc, Shared.usable] using hg
    | some => simp_all [Shared.usable]
  | retry =>
    unfold Shared.tryReconnect at hg
    split_ifs at hg <;> exact hg
  | abandon | closeConn =>
    simp_all [Shared.usable]
  | _ => exact hg

theorem Move.closed {e : Step} (h : Move s p e) (he : e.shared.closed = false) :
    s.closed = false := by
  cases h with
  | stay hs =>
    by_contra hne
    rw [hs.closed (by simpa using hne)] at he
    cases he
  | mark => simpa using he
  | retry =>
    unfold Shared.tryReconnect at he
    split_ifs at he <;> exact he
  | _ => exact he

/-- The client survives a step in which the moving goroutine does not give up
without being connected, and takes over when it drops the connection. -/
theorem neverDead_advance {t : ℕ} {e : Step} (ht : t < P.size) (hP : NeverDead P)
    (hm : Move P.shared (P.thread t) e)
    (hkeep : (P.thread t).recovers P.shared = true → e.shared.closed = false →
      e.shared.connected = false → e.next.recovers e.shared = true)
    (hdrop : e.shared.connected = false →
      P.shared.connected = false ∨ e.next.recovers e.shared = true) :
    NeverDead (P.advance t e) := by
  intro hclosed hconn
  rw [Pool.advance_shared] at hclosed hconn ⊢
  let Q : Thread → Prop := fun p => p.recovers e.shared = true
  rcases hdrop hconn with hdis | hnext
  · obtain ⟨u, hu, hrec⟩ := hP (hm.closed hclosed) hdis
    by_cases hut : u = t
    · subst hut
      exact Pool.exists_advance_of_next Q ht (hkeep hrec hclosed hconn)
    · exact Pool.exists_advance_of_ne Q ⟨u, hu, hut, Thread.recovers_mono hm.usable hrec⟩
  · exact Pool.exists_advance_of_next Q ht hnext

theorem Thread.atTry_of_willDial (h : p.willDial = true) : p.atTry = false := by
  unfold Thread.willDial at h
  split at h
  all_goals first | rfl | cases h

/-- A `tryReconnect` keeps the client alive: it starts a `reconnectLoop`, or is turned
away by one that will dial. -/
theorem neverDead_advance_tryReconnect {t : ℕ} {q : Thread} (hat : (P.thread t).atTry = true)
    (hok : P.shared.reconnecting = true → P.shared.closed = false → P.shared.connected = false →
      ∃ u < P.size, (P.thread u).willDial = true) :
    NeverDead (P.advance t (P.shared.tryReconnect q)) := by
  intro hclosed hconn
  let Q (s : Shared) : Thread → Prop := fun p => p.recovers s = true
  cases hr : P.shared.reconnecting with
  | true =>
    rw [Shared.tryReconnect_of_reconnecting hr] at hclosed hconn ⊢
    obtain ⟨u, hu, hdial⟩ := hok hr hclosed hconn
    have hrec : (P.thread u).recovers P.shared = true := by
      rw [Thread.recovers, hdial, Bool.true_or]
    refine Pool.exists_advance_of_ne (Q P.shared) ⟨u, hu, ?_, hrec⟩
    rintro rfl
    rw [Thread.atTry_of_willDial hdial] at hat
    cases hat
  | false =>
    rw [Shared.tryReconnect_of_not_reconnecting hr]
    exact Pool.exists_advance_of_spawn (Q _) rfl rfl

theorem neverDead_advance_of_not_atTry {t : ℕ} {e : Step} (ht : t < P.size) (hP : NeverDead P)
    (hm : Move P.shared (P.thread t) e) (hat : (P.thread t).atTry = false) :
    NeverDead (P.advance t e) := by
  have halive := neverDead_advance ht hP hm
  generalize P.thread t = p at hm hat halive
  cases hm with
  | stay hs hq =>
    refine halive (fun hrec hcl _ => ?_) fun hc => .inl (hs.connected ▸ hc)
    refine Thread.recovers_mono (s := P.shared) (fun g hg => ?_) ?_
    · simpa [Shared.usable, hs.closedConns, hs.lost] using hg
    · rcases hq.recovers hrec with h | h
      · exact h
      · rw [hs.closed h] at hcl
        cases hcl
  | mark _ hq =>
    -- the goroutine that drops the connection calls `tryReconnect` next
    have hrec : ∀ s, Thread.recovers s _ = true := fun s => by
      rw [Thread.recovers, hq s, Bool.or_true]
    exact halive (fun _ _ _ => hrec _) fun _ => .inr (hrec _)
  | retry hp =>
    rw [hat] at hp
    cases hp
  | install => exact halive (fun _ _ h => by cases h) fun h => by cases h
  | dial | abandon => exact halive (fun _ _ _ => rfl) .inl
  | _ => exact halive (fun h => by cases h) .inl

/-- **One step of the client** out of a state that is not dead leads to one that is
not dead, if it is not a `tryReconnect` turned away by a loop past its `dial`. -/
theorem clientStep_neverDead {P' : Client} {ev : Event} (hP : NeverDead P)
    (hok : TurnedAwayByDialer P ev) (h : clientStep P ev = some P') : NeverDead P' := by
  cases clientStep_move h with
  | call =>
    intro hc hd
    exact Pool.exists_go (fun p : Thread => p.recovers P.shared = true) (hP hc hd)
  | world _ hs =>
    intro hc hd
    obtain ⟨t, ht, hrec⟩ := hP (hs.closed ▸ hc) (hs.connected ▸ hd)
    exact ⟨t, ht, Thread.recovers_mono hs.usable hrec⟩
  | @act t c e ht hm =>
    cases hat : (P.thread t).atTry with
    | false => exact neverDead_advance_of_not_atTry ht hP hm hat
    | true =>
      obtain ⟨q, rfl⟩ := hm.eq_tryReconnect hat
      exact neverDead_advance_tryReconnect hat (hok hat)

/-- **No run in which every turned-away `tryReconnect` leaves it to a loop that will
still dial reaches a dead state.** -/
theorem neverDead_along {n : ℤ} {es : List Event}
    (hok : Meets clientStep TurnedAwayByDialer (connected n) es) :
    Along clientStep NeverDead (connected n) es := by
  refine along_of_meets (fun _ _ _ hP hok h => clientStep_neverDead hP hok h) (fun _ => id) ?_ hok
  -- the client `Connect` returns is connected
  intro _ hc
  cases hc

/-- The reader sees connection 0 fail and starts a `reconnectLoop`, goroutine 2. -/
def reconnectStarted : List Event :=
  [.lose 0, .act 0 .go, .act 0 .go, .act 0 .err, .act 0 .go, .act 0 .go, .act 0 .go]

/-- Goroutine 2 dials connection 1, registers and installs it. -/
def connectionInstalled : List Event :=
  [.act 2 .tick, .act 2 .ok, .act 2 .ok, .act 2 .ok, .act 2 .go]

/-- Connection 1 drops as soon as it is installed: the heartbeat fails on it and
its `tryReconnect` is turned away, then goroutine 2 replays an empty buffer,
starts the new reader and clears `reconnecting`. -/
def droppedAfterInstall : List Event :=
  reconnectStarted ++ connectionInstalled ++
    [.lose 1, .act 1 .tick, .act 1 .go, .act 1 .err, .act 1 .go, .act 1 .go] ++
    [.act 2 .go, .act 2 .go, .act 2 .go, .act 2 .go]

/-- The heartbeat and the reader both fail on connection 0.  The heartbeat's
`tryReconnect` is turned away, but goroutine 2 has not dialed yet. -/
theorem neverDead_along_bothFail :
    Along clientStep NeverDead (connected 10)
      ([.act 1 .tick, .act 1 .go] ++ reconnectStarted ++ [.act 1 .err, .act 1 .go, .act 1 .go] ++
        connectionInstalled) :=
  neverDead_along (by decide)

/-- **A dead client**: not closed, `connected` and `reconnecting` both false, and no
goroutine that will dial or call `tryReconnect`. -/
theorem droppedAfterInstall_dead :
    ∃ P ∈ run clientStep (connected 10) droppedAfterInstall,
      P.shared.closed = false ∧ P.shared.connected = false ∧ P.shared.reconnecting = false ∧
        ¬ NeverDead P := by
  decide

end K8s4Claw.Sdk
