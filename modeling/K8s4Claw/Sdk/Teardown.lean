/-
# Whose connection an error tears down

`Send`, `readLoop` and `heartbeatLoop` take the connection out of `c.conn`, use it
without the lock, and call `markDisconnected` when that fails.  By then the
connection may have failed for another goroutine too, which has torn it down and
had it replaced; `markDisconnected` closes whatever is in `c.conn`.

Connections are numbered in the order they are opened, and they are also installed in that order,
because there is at most one `reconnectLoop` (`Ordered`).  So the connection a goroutine has in its
hands is never later than the current one, and `markDisconnected` tears down the connection the
error occurred on, or none, exactly when no later one is installed (`clientStep_ownTeardowns_iff`).
In `slowHeartbeat` a heartbeat that spans a reconnect closes the new connection.
-/

import K8s4Claw.Sdk.Moves

namespace K8s4Claw.Sdk

open Lib Option

/-- Every `markDisconnected` so far closed the connection its error occurred on, or
none. -/
def OwnTeardowns (P : Client) : Prop :=
  ∀ d ∈ P.shared.teardowns, d.2 = none ∨ d.2 = some d.1

/-- A goroutine that calls `markDisconnected` because of an error on `g` finds no
connection opened after `g`. -/
def MarksOwnConn (P : Client) : Event → Prop
  | .act t _ => ∀ g ∈ (P.thread t).atMark, ∀ h ∈ P.shared.conn, h ≤ g
  | _ => True

instance (P : Client) (ev : Event) : Decidable (MarksOwnConn P ev) := by
  unfold MarksOwnConn
  induction ev using Event.casesOn <;> infer_instance

/-- The right to be the `reconnectLoop`. -/
def Thread.loopToken (p : Thread) : Option Unit := if p.isLoop then some () else none

variable {p : Thread} {b t : ℕ} {s : Shared} {P : Client} {e : Step}

theorem Thread.loopToken_eq_some {k : Unit} : p.loopToken = some k ↔ p.isLoop = true := by
  unfold Thread.loopToken
  split_ifs with h <;> simp [h]

/-- `b` is the connection installed last.  A goroutine has no later connection in
its hands, a `reconnectLoop` has a later one, and there is a `reconnectLoop` only
while `reconnecting` is set. -/
structure Thread.Ordered (b : ℕ) (s : Shared) (p : Thread) : Prop where
  captured : ∀ g, p.captured = some g → g ≤ b
  pending : ∀ g, p.pending = some g → b < g ∧ g < s.dials
  loop : p.isLoop = true → s.reconnecting = true

/-- The connections are installed in the order they are opened; `b` is the last one
installed. -/
structure Ordered (b : ℕ) (P : Client) : Prop where
  lt_dials : b < P.shared.dials
  conn : ∀ h, P.shared.conn = some h → h = b
  thread : ∀ t, (P.thread t).Ordered b P.shared
  oneLoop : Pool.Exclusive Thread.loopToken P

theorem Thread.Ordered.of_not_loop (hcap : ∀ g, p.captured = some g → g ≤ b)
    (hloop : p.isLoop = false) : p.Ordered b s where
  captured := hcap
  pending := forall_of_eq_none (Thread.pending_of_isLoop_eq_false hloop)
  loop h := absurd (hloop.symm.trans h) Bool.false_ne_true

theorem Thread.Ordered.of_plain (hcap : p.captured = none) (hloop : p.isLoop = false) :
    p.Ordered b s :=
  .of_not_loop (forall_of_eq_none hcap) hloop

/-- What a goroutine at rest knows stays true while the flag and the connections
opened only grow. -/
theorem Thread.Ordered.mono {s' : Shared} (hp : p.Ordered b s) (hd : s.dials ≤ s'.dials)
    (hr : p.isLoop = true → s.reconnecting = true → s'.reconnecting = true) :
    p.Ordered b s' where
  captured := hp.captured
  pending g hg := ⟨(hp.pending g hg).1, (hp.pending g hg).2.trans_le hd⟩
  loop h := hr h (hp.loop h)

theorem Ordered.isLoop_eq_false (hP : Ordered b P) {u : ℕ} (hne : u ≠ t)
    (ht : (P.thread t).isLoop = true) : (P.thread u).isLoop = false := by
  by_contra h
  exact hne (hP.oneLoop u t () (Thread.loopToken_eq_some.2 (by simpa using h))
    (Thread.loopToken_eq_some.2 ht))

/-- **The loop is handed on.**  Only a `reconnectLoop` goes on as one, and one is
started only while `reconnecting` is not set. -/
theorem Move.loop (h : Move s p e) :
    (e.next.isLoop = true → p.isLoop = true) ∧
      ∀ q, e.spawn = some q → q.isLoop = true → s.reconnecting = false ∧ e.next.isLoop = false := by
  cases h with
  | stay _ hq => exact ⟨hq.loop, forall_of_eq_none rfl⟩
  | mark _ _ _ _ hloop =>
    refine ⟨fun h => ?_, forall_of_eq_none rfl⟩
    rw [hloop] at h
    cases h
  | retry _ _ _ hloop =>
    cases hr : s.reconnecting with
    | true =>
      rw [Shared.tryReconnect_of_reconnecting hr]
      exact ⟨fun h => absurd (hloop.symm.trans h) Bool.false_ne_true, forall_of_eq_none rfl⟩
    | false =>
      rw [Shared.tryReconnect_of_not_reconnecting hr]
      exact ⟨fun h => absurd (hloop.symm.trans h) Bool.false_ne_true, fun q _ _ => ⟨rfl, hloop⟩⟩
  | abandon _ hl => exact ⟨fun _ => hl, forall_of_eq_none rfl⟩
  | startReader =>
    refine ⟨fun _ => rfl, fun q h hq => ?_⟩
    cases h
    cases hq
  | dial | install => exact ⟨id, forall_of_eq_none rfl⟩
  | _ => exact ⟨fun h => absurd h Bool.false_ne_true, forall_of_eq_none rfl⟩

section

variable (hP : Ordered b P) (ht : t < P.size) (hm : Move P.shared (P.thread t) e)

include hP ht hm

theorem Ordered.oneLoop_advance : Pool.Exclusive Thread.loopToken (P.advance t e) := by
  refine Pool.exclusive_advance ht hP.oneLoop (fun k hk => .inl ?_) fun q k hq hk => ?_
  · exact Thread.loopToken_eq_some.2 (hm.loop.1 (Thread.loopToken_eq_some.1 hk))
  · obtain ⟨hr, hnext⟩ := hm.loop.2 q hq (Thread.loopToken_eq_some.1 hk)
    refine ⟨fun h => ?_, .inr fun u h => ?_⟩
    · rw [Thread.loopToken_eq_some, hnext] at h
      cases h
    · rw [(hP.thread u).loop (Thread.loopToken_eq_some.1 h)] at hr
      cases hr

/-- **The order of the connections is kept** by a step that installs no connection. -/
theorem Ordered.advance_of_same (hdials : P.shared.dials ≤ e.shared.dials)
    (hconn : ∀ h, e.shared.conn = some h → P.shared.conn = some h)
    (hrec : ∀ u, u ≠ t → (P.thread u).isLoop = true → P.shared.reconnecting = true →
      e.shared.reconnecting = true) (hnext : e.next.Ordered b e.shared)
    (hspawn : ∀ q, e.spawn = some q → q.Ordered b e.shared) : Ordered b (P.advance t e) where
  lt_dials := by
    rw [Pool.advance_shared]
    exact hP.lt_dials.trans_le hdials
  conn h hh := by
    rw [Pool.advance_shared] at hh
    exact hP.conn h (hconn h hh)
  thread := Pool.forall_advance ht (fun u hu => (hP.thread u).mono hdials (hrec u hu)) hnext hspawn
  oneLoop := hP.oneLoop_advance ht hm

theorem Ordered.advance_of_frame (hdials : P.shared.dials ≤ e.shared.dials)
    (hconn : e.shared.conn = P.shared.conn) (hrec : e.shared.reconnecting = P.shared.reconnecting)
    (hspawn : e.spawn = none) (hnext : e.next.Ordered b e.shared) :
    ∃ b', Ordered b' (P.advance t e) := by
  refine ⟨b, hP.advance_of_same ht hm hdials (fun h hh => hconn ▸ hh) (fun _ _ _ h => ?_) hnext
    (forall_of_eq_none hspawn)⟩
  exact hrec.trans h

end

theorem Ordered.of_fetch {g : ℕ} {q : Thread} (hP : Ordered b P) (hg : P.shared.conn = some g)
    (hq : q.captured = some g) (hl : q.isLoop = false) : q.Ordered b P.shared := by
  refine .of_not_loop (fun k hk => ?_) hl
  obtain rfl : g = k := some.inj (hq.symm.trans hk)
  exact (hP.conn g hg).le

theorem Ordered.advance_install {g : ℕ} (hP : Ordered b P) (ht : t < P.size)
    (hg : P.thread t = .loop (.install g)) :
    Ordered g (P.advance t
      ⟨{ P.shared with conn := some g, connected := true }, .loop (.drain g), none⟩) := by
  have hloop : (P.thread t).isLoop = true := by rw [hg]; rfl
  obtain ⟨hlt, hdials⟩ := (hP.thread t).pending g (by rw [hg]; rfl)
  refine ⟨?_, fun h hh => ?_, Pool.forall_advance ht (fun u hu => ?_) ?_ (forall_of_eq_none rfl),
    hP.oneLoop_advance ht (hg ▸ .install)⟩
  · rwa [Pool.advance_shared]
  · rw [Pool.advance_shared] at hh
    exact (some.inj hh).symm
  · -- the goroutines at rest hold earlier connections, and none of them is a loop
    exact .of_not_loop (fun k hk => ((hP.thread u).captured k hk).trans hlt.le)
      (hP.isLoop_eq_false hu hloop)
  · exact ⟨forall_of_eq_none rfl, forall_of_eq_none rfl, fun _ => (hP.thread t).loop hloop⟩

/-- **A step of a goroutine keeps the order of the connections.** -/
theorem Ordered.advance (hP : Ordered b P) (ht : t < P.size) (hm : Move P.shared (P.thread t) e) :
    ∃ b', Ordered b' (P.advance t e) := by
  have hp := hP.thread t
  have hsame := hP.advance_of_same ht hm
  have hframe := hP.advance_of_frame ht hm
  generalize hpt : P.thread t = p at hm hp
  cases hm with
  | stay hs hq =>
    refine hframe hs.dials.ge hs.conn hs.reconnecting rfl
      ⟨fun g hg => hp.captured g (hq.captured g hg), fun g hg => ?_, fun h => ?_⟩
    · exact hs.dials ▸ hp.pending g (hq.pending g hg)
    · exact hs.reconnecting.trans (hp.loop (hq.loop h))
  | sendFetch hg => exact hframe le_rfl rfl rfl rfl (hP.of_fetch hg rfl rfl)
  | readFetch hg => exact hframe le_rfl rfl rfl rfl (hP.of_fetch hg rfl rfl)
  | beatFetch hg => exact hframe le_rfl rfl rfl rfl (hP.of_fetch hg rfl rfl)
  | mark _ _ _ hcap hloop =>
    refine ⟨b, hsame (by simp) (forall_of_eq_none (Shared.markDisconnected_conn ..))
      (fun _ _ _ h => ?_) (.of_plain hcap hloop) (forall_of_eq_none rfl)⟩
    simpa using h
  | retry _ _ hcap hloop =>
    refine ⟨b, ?_⟩
    cases hr : P.shared.reconnecting with
    | true =>
      rw [Shared.tryReconnect_of_reconnecting hr] at hsame ⊢
      exact hsame le_rfl (fun _ => id) (fun _ _ _ => id) (.of_plain hcap hloop)
        (forall_of_eq_none rfl)
    | false =>
      rw [Shared.tryReconnect_of_not_reconnecting hr] at hsame ⊢
      refine hsame le_rfl (fun _ => id) (fun _ _ _ _ => rfl) (.of_plain hcap hloop) ?_
      rintro q hq
      cases hq
      exact ⟨forall_of_eq_none rfl, forall_of_eq_none rfl, fun _ => rfl⟩
  | dial =>
    refine hframe (Nat.le_succ _) rfl rfl rfl
      ⟨forall_of_eq_none rfl, fun g hg => ?_, fun _ => hp.loop rfl⟩
    cases hg
    exact ⟨hP.lt_dials, Nat.lt_succ_self _⟩
  | abandon _ hl =>
    exact hframe le_rfl rfl rfl rfl
      ⟨forall_of_eq_none rfl, forall_of_eq_none rfl, fun _ => hp.loop hl⟩
  | @install g => exact ⟨g, hP.advance_install ht hpt⟩
  | startReader =>
    refine ⟨b, hsame le_rfl (fun _ => id) (fun _ _ _ => id)
      ⟨forall_of_eq_none rfl, forall_of_eq_none rfl, fun _ => hp.loop rfl⟩ fun q hq => ?_⟩
    cases hq
    exact .of_plain rfl rfl
  | exit =>
    -- the flag is cleared, and there is no other `reconnectLoop`
    refine ⟨b, hsame le_rfl (fun _ => id) (fun u hu hl _ => ?_) (.of_plain rfl rfl)
      (forall_of_eq_none rfl)⟩
    rw [hP.isLoop_eq_false hu (by rw [hpt]; rfl)] at hl
    cases hl
  | closeConn => exact hframe le_rfl rfl rfl rfl (.of_plain rfl rfl)

/-- **Every step keeps the order of the connections.** -/
theorem exists_ordered_clientStep {P' : Client} {ev : Event} (hP : ∃ b, Ordered b P)
    (h : clientStep P ev = some P') : ∃ b, Ordered b P' := by
  obtain ⟨b, hP⟩ := hP
  cases clientStep_move h with
  | call _ _ hcap hloop =>
    refine ⟨b, hP.lt_dials, hP.conn, Pool.forall_go hP.thread (.of_plain hcap hloop),
      Pool.exclusive_go hP.oneLoop ?_⟩
    rw [Thread.loopToken, hloop]
    rfl
  | world _ hs =>
    refine ⟨b, hP.lt_dials.trans_eq hs.dials.symm, fun h hh => hP.conn h (hs.conn ▸ hh),
      fun t => (hP.thread t).mono hs.dials.ge fun _ h => ?_, hP.oneLoop⟩
    exact hs.reconnecting.trans h
  | act ht hm => exact hP.advance ht hm

theorem ordered_connected (n : ℤ) : Ordered 0 (connected n) where
  lt_dials := Nat.zero_lt_one
  conn h hh := (some.inj hh).symm
  thread t := by
    unfold connected
    dsimp only
    split_ifs <;> exact .of_plain rfl rfl
  oneLoop := by
    intro t u k ht
    unfold connected at ht
    dsimp only at ht
    split_ifs at ht <;> cases ht

theorem Thread.captured_of_atMark {g : ℕ} (h : p.atMark = some g) : p.captured = some g := by
  unfold Thread.atMark at h
  split at h
  · exact h
  · exact h
  · exact h
  · cases h

theorem Move.teardowns (h : Move s p e) :
    (p.atMark = none ∧ e.shared.teardowns = s.teardowns) ∨
      ∃ g, p.atMark = some g ∧ e.shared.teardowns = s.teardowns ++ [(g, s.conn)] := by
  cases h with
  | stay hs hq => exact .inl ⟨hq.atMark, hs.teardowns⟩
  | mark hp => exact .inr ⟨_, hp, by simp⟩
  | retry hp =>
    refine .inl ⟨?_, by unfold Shared.tryReconnect; split_ifs <;> rfl⟩
    unfold Thread.atTry at hp
    split at hp
    all_goals first | rfl | cases hp
  | abandon hp =>
    refine .inl ⟨?_, rfl⟩
    unfold Thread.pending at hp
    split at hp
    all_goals first | rfl | cases hp
  | _ => exact .inl ⟨rfl, rfl⟩

/-- **One step of the client.**  Out of a state in which errors have torn down only
their own connections, a step leads to another exactly when it is not a
`markDisconnected` that finds a later connection. -/
theorem clientStep_ownTeardowns_iff {P' : Client} {ev : Event} (hord : ∃ b, Ordered b P)
    (hP : OwnTeardowns P) (h : clientStep P ev = some P') :
    OwnTeardowns P' ↔ MarksOwnConn P ev := by
  obtain ⟨b, hord⟩ := hord
  have hout (hev : ev.outside = true) : MarksOwnConn P ev := by
    cases ev with
    | act => cases hev
    | _ => trivial
  cases clientStep_move h with
  | call hev => exact iff_of_true hP (hout hev)
  | world hev hs =>
    refine iff_of_true (fun d hd => hP d ?_) (hout hev)
    rwa [← hs.teardowns]
  | @act t c e ht hm =>
    unfold OwnTeardowns MarksOwnConn
    rw [Pool.advance_shared]
    rcases hm.teardowns with ⟨hat, he⟩ | ⟨g, hat, he⟩
    · rw [he]
      refine iff_of_true hP fun g hg => ?_
      rw [hat] at hg
      cases hg
    · -- the current connection is `g` or a later one
      have hle : ∀ h, P.shared.conn = some h → g ≤ h := fun h hh =>
        ((hord.thread t).captured g (Thread.captured_of_atMark hat)).trans_eq
          (hord.conn h hh).symm
      rw [he]
      constructor
      · intro hall k hk h hh
        obtain rfl : g = k := some.inj (hat.symm.trans hk)
        have hlast := hall (g, P.shared.conn) (by simp)
        rw [show P.shared.conn = some h from hh] at hlast
        rcases hlast with h' | h'
        · cases h'
        · exact (some.inj h').le
      · intro hown d hd
        rcases List.mem_append.1 hd with hd | hd
        · exact hP d hd
        · obtain rfl := List.mem_singleton.1 hd
          cases hc : P.shared.conn with
          | none => exact .inl rfl
          | some h => exact .inr (by rw [le_antisymm (hle h hc) (hown g hat h hc)])

/-- **One `reconnectLoop` at a time**, in every state of every run, and only while `reconnecting`
is set; the connection it is about to install is newer than the current one and than all that are in
use. -/
theorem reconnects_in_turn (n : ℤ) (es : List Event) :
    Along clientStep (fun P =>
      (∀ t u, (P.thread t).isLoop = true → (P.thread u).isLoop = true →
        t = u ∧ P.shared.reconnecting = true) ∧
      ∀ t g, (P.thread t).pending = some g → ∀ u h,
        (P.thread u).captured = some h ∨ P.shared.conn = some h → h < g) (connected n) es := by
  refine along_of_step (fun _ _ _ => exists_ordered_clientStep) ?_ ⟨0, ordered_connected n⟩
  rintro P ⟨b, hP⟩
  refine ⟨fun t u ht hu => ⟨?_, (hP.thread t).loop ht⟩, fun t g hg u h hh => ?_⟩
  · exact hP.oneLoop t u () (Thread.loopToken_eq_some.mpr ht) (Thread.loopToken_eq_some.mpr hu)
  · have hle : h ≤ b := hh.elim ((hP.thread u).captured h) fun hh => (hP.conn h hh).le
    exact hle.trans_lt ((hP.thread t).pending g hg).1

/-- **Exactly the runs in which no `markDisconnected` finds a later connection** tear
down only the connections their errors occurred on. -/
theorem ownTeardowns_along_iff {n : ℤ} {es : List Event} {P : Client}
    (h : run clientStep (connected n) es = some P) :
    Along clientStep OwnTeardowns (connected n) es ↔
      Meets clientStep MarksOwnConn (connected n) es :=
  along_iff_meets (fun _ _ _ hP h => exists_ordered_clientStep hP h)
    (fun _ _ _ hord hP h => clientStep_ownTeardowns_iff hord hP h)
    ⟨0, ordered_connected n⟩ (List.forall_mem_nil _) h

/-- The heartbeat writes to connection 0 while the reader sees it fail; both call
`markDisconnected`, and only then connection 1 is installed. -/
theorem ownTeardowns_along_bothFail :
    Along clientStep OwnTeardowns (connected 10)
      [.act 1 .tick, .act 1 .go, .lose 0, .act 0 .go, .act 0 .go, .act 0 .err, .act 0 .go,
        .act 0 .go, .act 0 .go, .act 1 .err, .act 1 .go, .act 1 .go, .act 2 .tick, .act 2 .ok,
        .act 2 .ok, .act 2 .ok, .act 2 .go] :=
  (ownTeardowns_along_iff (some_get (by decide)).symm).2 (by decide)

/-- The same two errors, but the heartbeat calls `markDisconnected` after goroutine 2
has installed connection 1. -/
def slowHeartbeat : List Event :=
  [.act 1 .tick, .act 1 .go, .lose 0, .act 0 .go, .act 0 .go, .act 0 .err, .act 0 .go,
    .act 0 .go, .act 0 .go, .act 1 .err, .act 2 .tick, .act 2 .ok, .act 2 .ok, .act 2 .ok,
    .act 2 .go, .act 1 .go]

/-- **The error on connection 0 closes connection 1**, which no read or write has
failed on. -/
theorem slowHeartbeat_closes_later :
    ∃ P ∈ run clientStep (connected 10) slowHeartbeat,
      (0, some 1) ∈ P.shared.teardowns ∧ 1 ∈ P.shared.closedConns ∧ P.shared.conn = none ∧
        1 ∉ P.shared.lost := by
  decide

end K8s4Claw.Sdk
