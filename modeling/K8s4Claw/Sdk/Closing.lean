/-
# `Close`

`Client.Close` of `sdk/channel/client.go` closes `done`, then the current connection, then the
channel `inbound`.  It waits for nobody: a `readLoop` may hold a data message, and a
`reconnectLoop` may be dialing.

A `readLoop` that holds a data message when `inbound` is closed, or reads one later, sends on a
closed channel; a connection that is installed after `Close` has gone past it, or over another one,
is closed by nobody.  Otherwise each connection is closed, current, or in the hands of a dial
(`Accounted`), and the current one is closed once `Close` has passed it.
-/

import K8s4Claw.Sdk.Moves

namespace K8s4Claw.Sdk

open Lib List Function

namespace Thread

/-- The goroutine is a `readLoop` about to deliver a data message. -/
def delivering : Thread → Bool
  | .read _ (.handle _ msg) => msg.type = .message
  | _ => false

/-- The goroutine is a `Close` about to close `inbound`. -/
def closingInbound : Thread → Bool
  | .close _ .inbound => true
  | _ => false

/-- The goroutine is a `Close` that has closed `done` and comes to the connection next. -/
def closingConn : Thread → Bool
  | .close _ .conn => true
  | _ => false

/-- The goroutine is a `reconnectLoop` about to install a connection. -/
def installing : Thread → Bool
  | .loop (.install _) => true
  | _ => false

/-- The goroutine is the `heartbeatLoop`. -/
def isBeat : Thread → Bool
  | .beat _ => true
  | _ => false

/-- A goroutine of the client, a call of `Close` included; a `Send` belongs to the user. -/
def isClients : Thread → Bool
  | .idle | .send _ _ => false
  | _ => true

end Thread

/-- The environment hands a data message to a reader. -/
def Choice.isData : Choice → Bool
  | .recv msg => msg.type = .message
  | _ => false

/-- A step that sends a message on `inbound` finds it open. -/
def DeliversOpen (P : Client) : Event → Prop
  | .act t .go => (P.thread t).delivering = true → P.shared.inboundClosed = false
  | _ => True

/-- All goroutines of the client have exited. -/
def Exited (P : Client) : Prop := ∀ t < P.size, (P.thread t).isClients = false

instance (P : Client) : Decidable (Exited P) :=
  inferInstanceAs (Decidable (∀ t < P.size, (P.thread t).isClients = false))

/-- Every connection the client opened is closed. -/
def AllConnsClosed (P : Client) : Prop := ∀ g < P.shared.dials, g ∈ P.shared.closedConns

instance (P : Client) : Decidable (AllConnsClosed P) :=
  inferInstanceAs (Decidable (∀ g < P.shared.dials, g ∈ P.shared.closedConns))

/-- No reader holds a data message when `inbound` is closed and none reads one afterwards; no
connection is installed after `Close` has begun, or in the place of another. -/
def Orderly (P : Client) : Event → Prop
  | .act t c =>
      ((P.thread t).closingInbound = true → ∀ u < P.size, (P.thread u).delivering = false) ∧
      (c.isData = true → P.shared.inboundClosed = false) ∧
      ((P.thread t).installing = true → P.shared.closed = false ∧ P.shared.conn = none)
  | _ => True

instance (P : Client) (ev : Event) : Decidable (Orderly P ev) := by
  unfold Orderly
  cases ev <;> infer_instance

/-! ### What a step does to `done` and `inbound` -/

/-- What a step of a goroutine does to the two channels `Close` closes. -/
inductive CloseMove (s : Shared) : Thread → Choice → Step → Prop where
  | plain {p : Thread} {c : Choice} {e : Step} (hclosed : e.shared.closed = s.closed)
      (hin : e.shared.inboundClosed = s.inboundClosed)
      (hdel : e.next.delivering = true → c.isData = true)
      (hbeat : p.isBeat = true → e.next.isBeat = true ∨ s.closed = true)
      (hp : p.closingConn = false) (hp' : p.closingInbound = false) : CloseMove s p c e
  | begin {back : Option ℕ} {c : Choice} : CloseMove s (.close back .done) c
      ⟨{ s with closed := true }, .close back .conn, none⟩
  | conn {back : Option ℕ} {c : Choice} {e : Step} (hclosed : e.shared.closed = s.closed)
      (hin : e.shared.inboundClosed = s.inboundClosed) (hconn : e.shared.conn = s.conn)
      (hall : ∀ g, s.conn = some g → g ∈ e.shared.closedConns)
      (hnext : e.next = .close back .inbound) : CloseMove s (.close back .conn) c e
  | inbound {back : Option ℕ} {c : Choice} : CloseMove s (.close back .inbound) c
      ⟨{ s with inboundClosed := true }, .resume back, none⟩

section

variable {s : Shared} {p : Thread} {c : Choice} {e : Step}

theorem close_of_plain (hs : e.shared.closed = s.closed ∧ e.shared.inboundClosed = s.inboundClosed)
    (hdel : e.next.delivering = false)
    (hbeat : p.isBeat = true → e.next.isBeat = true ∨ s.closed = true)
    (hp : p.closingConn = false ∧ p.closingInbound = false) : CloseMove s p c e := by
  refine .plain hs.1 hs.2 (fun hd => ?_) hbeat hp.1 hp.2
  rw [hdel] at hd
  cases hd

theorem markDisconnected_close (s : Shared) (g : ℕ) :
    (s.markDisconnected g).closed = s.closed ∧
      (s.markDisconnected g).inboundClosed = s.inboundClosed := by
  unfold Shared.markDisconnected
  split <;> exact ⟨rfl, rfl⟩

theorem close_tryReconnect {q : Thread} (hdel : q.delivering = false)
    (hbeat : p.isBeat = true → q.isBeat = true ∨ s.closed = true)
    (hp : p.closingConn = false ∧ p.closingInbound = false) :
    CloseMove s p c (s.tryReconnect q) := by
  unfold Shared.tryReconnect
  split_ifs <;> exact close_of_plain ⟨rfl, rfl⟩ hdel hbeat hp

theorem noBeat {q : Thread} (h : p.isBeat = false) :
    p.isBeat = true → q.isBeat = true ∨ s.closed = true :=
  fun hb => absurd (h.symm.trans hb) Bool.false_ne_true

/-- **What a step of a goroutine does to the channels `Close` closes.** -/
theorem act_close (h : act s p c = some e) : CloseMove s p c e := by
  cases act_acts h with
  | closeDone => exact .begin
  | closeNoConn hconn =>
    refine .conn rfl rfl rfl (fun g hg => ?_) rfl
    rw [hconn] at hg
    cases hg
  | @closeConn _ g hconn =>
    refine .conn rfl rfl rfl (fun k hk => ?_) rfl
    obtain rfl : g = k := Option.some.inj (hconn.symm.trans hk)
    exact mem_cons_self
  | closeInbound => exact .inbound
  | @closeAgain back =>
    refine close_of_plain ⟨rfl, rfl⟩ ?_ (noBeat rfl) ⟨rfl, rfl⟩
    cases back <;> rfl
  | readRecv => exact .plain rfl rfl id (noBeat rfl) rfl rfl
  | beatEnd hclosed => exact close_of_plain ⟨rfl, rfl⟩ rfl (fun _ => .inr hclosed) ⟨rfl, rfl⟩
  | beatTick | beatFetch | beatDown | beatWrite | beatFail =>
    exact close_of_plain ⟨rfl, rfl⟩ rfl (fun _ => .inl rfl) ⟨rfl, rfl⟩
  | beatMark =>
    exact close_of_plain (markDisconnected_close s _) rfl (fun _ => .inl rfl) ⟨rfl, rfl⟩
  | beatRetry => exact close_tryReconnect rfl (fun _ => .inl rfl) ⟨rfl, rfl⟩
  | sendMark | readMark =>
    exact close_of_plain (markDisconnected_close s _) rfl (noBeat rfl) ⟨rfl, rfl⟩
  | sendRetry | readRetry => exact close_tryReconnect rfl (noBeat rfl) ⟨rfl, rfl⟩
  | _ => exact close_of_plain ⟨rfl, rfl⟩ rfl (noBeat rfl) ⟨rfl, rfl⟩

theorem CloseMove.closed_mono (h : CloseMove s p c e) (hc : s.closed = true) :
    e.shared.closed = true := by
  cases h with
  | plain hclosed | conn hclosed => exact hclosed.trans hc
  | begin => rfl
  | inbound => exact hc

/-! ### What a step does to the connections -/

theorem Move.closedConns_subset (h : Move s p e) : s.closedConns ⊆ e.shared.closedConns := by
  cases h with
  | stay hs => rw [hs.closedConns]; exact List.Subset.refl _
  | mark =>
    unfold Shared.markDisconnected
    split
    · exact List.Subset.refl _
    · exact subset_cons_self ..
  | retry =>
    unfold Shared.tryReconnect
    split_ifs <;> exact List.Subset.refl _
  | abandon | closeConn => exact subset_cons_self ..
  | _ => exact List.Subset.refl _

theorem Move.conn_kept (h : Move s p e) (hi : p.installing = true → s.conn = none) {g : ℕ}
    (hg : s.conn = some g) : e.shared.conn = some g ∨ g ∈ e.shared.closedConns := by
  cases h with
  | stay hs => exact .inl (hs.conn.trans hg)
  | mark =>
    right
    unfold Shared.markDisconnected
    rw [hg]
    exact mem_cons_self
  | retry =>
    left
    unfold Shared.tryReconnect
    split_ifs <;> exact hg
  | install => rw [hi rfl] at hg; cases hg
  | _ => exact .inl hg

theorem Move.conn_new (h : Move s p e) {g : ℕ} (hg : e.shared.conn = some g) :
    s.conn = some g ∨ p.installing = true := by
  cases h with
  | stay hs => exact .inl (hs.conn.symm.trans hg)
  | mark => rw [Shared.markDisconnected_conn] at hg; cases hg
  | retry =>
    left
    unfold Shared.tryReconnect at hg
    split_ifs at hg <;> exact hg
  | install => exact .inr rfl
  | _ => exact .inl hg

theorem Move.dials_cases (h : Move s p e) {g : ℕ} (hg : g < e.shared.dials) :
    g < s.dials ∨ e.next.pending = some g := by
  cases h with
  | stay hs => exact .inl (hs.dials ▸ hg)
  | mark => exact .inl (by simpa using hg)
  | retry =>
    left
    unfold Shared.tryReconnect at hg
    split_ifs at hg <;> exact hg
  | dial =>
    rcases Nat.lt_succ_iff_lt_or_eq.mp hg with hlt | rfl
    · exact .inl hlt
    · exact .inr rfl
  | _ => exact .inl hg

theorem act_pending (h : act s p c = some e) {g : ℕ} (hp : p.pending = some g) :
    e.next.pending = some g ∨ g ∈ e.shared.closedConns ∨ e.shared.conn = some g := by
  unfold Thread.pending at hp
  split at hp
  · cases hp
    cases c with
    | ok =>
      simp only [act, loopStep] at h
      split_ifs at h
      cases h
      exact .inl rfl
    | err =>
      cases h
      exact .inr (.inl mem_cons_self)
    | _ => cases h
  · cases hp
    cases c with
    | ok =>
      simp only [act, loopStep] at h
      split_ifs at h
      cases h
      exact .inl rfl
    | err =>
      cases h
      exact .inr (.inl mem_cons_self)
    | _ => cases h
  · cases hp
    cases c with
    | go =>
      cases h
      exact .inr (.inr rfl)
    | _ => cases h
  · cases hp

end

/-! ### Runs -/

/-- Every connection opened is closed, current, or in the hands of a dial. -/
def Accounted (P : Client) : Prop :=
  ∀ g < P.shared.dials, g ∈ P.shared.closedConns ∨ P.shared.conn = some g ∨
    ∃ t, (P.thread t).pending = some g

/-- What carries `Close` through a run: the connections are accounted for; the `heartbeatLoop` runs
until `done` is closed; then a `Close` is about to close the current connection, or it is closed;
and no reader is about to send on the closed `inbound`. -/
structure Closing (P : Client) : Prop where
  idle : IdleBeyond P
  two : 2 ≤ P.size
  accounted : Accounted P
  beat : (P.thread 1).isBeat = true ∨ P.shared.closed = true
  passed : P.shared.closed = true → (∃ t, (P.thread t).closingConn = true) ∨
    ∀ g, P.shared.conn = some g → g ∈ P.shared.closedConns
  inbound : P.shared.inboundClosed = true → ∀ t, (P.thread t).delivering = false

theorem called_reads {ev : Event} {q : Thread} (h : ev.called = some q) :
    q.pending = Thread.idle.pending ∧ q.closingConn = Thread.idle.closingConn ∧
      q.delivering = Thread.idle.delivering ∧ q.isBeat = Thread.idle.isBeat := by
  cases ev <;> cases h <;> exact ⟨rfl, rfl, rfl, rfl⟩

variable {P : Client}

theorem Accounted.advance {u : ℕ} {c : Choice} {e : Step} (hP : Accounted P) (hidle : IdleBeyond P)
    (hu : u < P.size) (he : act P.shared (P.thread u) c = some e)
    (hi : (P.thread u).installing = true → P.shared.conn = none) : Accounted (P.advance u e) := by
  have hm := act_move he
  have hpend (t : ℕ) : ((P.advance u e).thread t).pending =
      update (fun t => (P.thread t).pending) u e.next.pending t :=
    congrFun (hidle.read_advance rfl (fun _ => rfl) hu he) t
  -- a connection the moving goroutine does not have in hand is where it was, or is closed now
  have hold (g : ℕ) (hg : g < P.shared.dials) : g ∈ e.shared.closedConns ∨
      e.shared.conn = some g ∨ ∃ t, ((P.advance u e).thread t).pending = some g := by
    rcases hP g hg with hcl | hconn | ⟨t, ht⟩
    · exact .inl (hm.closedConns_subset hcl)
    · rcases hm.conn_kept hi hconn with hc | hcl
      · exact .inr (.inl hc)
      · exact .inl hcl
    · rcases eq_or_ne t u with rfl | hne
      · rcases act_pending he ht with hnext | hcl | hc
        · exact .inr (.inr ⟨t, by rw [hpend, update_self, hnext]⟩)
        · exact .inl hcl
        · exact .inr (.inl hc)
      · exact .inr (.inr ⟨t, by rw [hpend, update_of_ne hne, ht]⟩)
  intro g hg
  rw [Pool.advance_shared] at hg ⊢
  rcases hm.dials_cases hg with hlt | hnew
  · exact hold g hlt
  · exact .inr (.inr ⟨u, by rw [hpend, update_self, hnew]⟩)

section

variable {P : Client} {u : ℕ} {c : Choice} {e : Step}

theorem Closing.beat_advance (hP : Closing P) (hu : u < P.size)
    (he : act P.shared (P.thread u) c = some e) :
    ((P.advance u e).thread 1).isBeat = true ∨ (P.advance u e).shared.closed = true := by
  have hmono := (act_close he).closed_mono
  rw [Pool.advance_shared]
  rcases hP.beat with hbeat | hc
  · rw [congrFun (hP.idle.read_advance (f := Thread.isBeat) rfl (fun _ => rfl) hu he) 1,
      update_apply]
    split_ifs with h1
    · subst h1
      generalize P.thread 1 = p at he hbeat
      cases act_close he with
      | plain _ _ _ hnext => exact (hnext hbeat).imp id hmono
      | _ => cases hbeat
    · exact .inl hbeat
  · exact .inr (hmono hc)

variable (hP : Closing P) (hok : Orderly P (.act u c)) (hu : u < P.size)
  (he : act P.shared (P.thread u) c = some e)

include hP hok hu he

/-- Once `done` is closed, a `Close` is on its way to the connection or has closed it. -/
theorem Closing.passed_advance (hclosed : e.shared.closed = true) :
    (∃ t, ((P.advance u e).thread t).closingConn = true) ∨
      ∀ g, e.shared.conn = some g → g ∈ e.shared.closedConns := by
  have hread (t : ℕ) : ((P.advance u e).thread t).closingConn =
      update (fun t => (P.thread t).closingConn) u e.next.closingConn t :=
    congrFun (hP.idle.read_advance rfl (fun _ => rfl) hu he) t
  have hm := act_move he
  -- a goroutine that is not at the connection leaves what was known
  have hother (hp : (P.thread u).closingConn = false) (hc : P.shared.closed = true) :
      (∃ t, ((P.advance u e).thread t).closingConn = true) ∨
        ∀ g, e.shared.conn = some g → g ∈ e.shared.closedConns := by
    rcases hP.passed hc with ⟨t, ht⟩ | hall
    · refine .inl ⟨t, ?_⟩
      have hne : t ≠ u := by
        rintro rfl
        rw [hp] at ht
        cases ht
      rw [hread, update_of_ne hne]
      exact ht
    · refine .inr fun g hg => ?_
      rcases hm.conn_new hg with hold | hi
      · exact hm.closedConns_subset (hall g hold)
      · rw [(hok.2.2 hi).1] at hc
        cases hc
  obtain ⟨p, hp⟩ : ∃ p, P.thread u = p := ⟨_, rfl⟩
  rw [hp] at he
  cases act_close he with
  | plain hsame _ _ _ hat => exact hother (hp ▸ hat) (hsame ▸ hclosed)
  | begin => exact .inl ⟨u, by rw [hread, update_self]; rfl⟩
  | conn _ _ hconn hall => exact .inr fun g hg => hall g (hconn ▸ hg)
  | inbound => exact hother (by rw [hp]; rfl) hclosed

theorem Closing.inbound_advance (hin : e.shared.inboundClosed = true) (t : ℕ) :
    ((P.advance u e).thread t).delivering = false := by
  rw [congrFun (hP.idle.read_advance (f := Thread.delivering) rfl (fun _ => rfl) hu he) t,
    update_apply]
  obtain ⟨p, hp⟩ : ∃ p, P.thread u = p := ⟨_, rfl⟩
  rw [hp] at he
  cases act_close he with
  | plain _ hsame hdel =>
    have hbefore : P.shared.inboundClosed = true := hsame ▸ hin
    split_ifs
    · by_contra hd
      rw [hok.2.1 (hdel (by simpa using hd))] at hbefore
      cases hbefore
    · exact hP.inbound hbefore t
  | begin =>
    split_ifs
    · rfl
    · exact hP.inbound hin t
  | conn _ hsame _ _ hnext =>
    split_ifs
    · rw [hnext]
      rfl
    · exact hP.inbound (hsame ▸ hin) t
  | @inbound back =>
    split_ifs
    · cases back <;> rfl
    · by_cases ht : t < P.size
      · exact hok.1 (by rw [hp]; rfl) t ht
      · rw [hP.idle t (not_lt.mp ht)]
        rfl

end

/-- **An orderly step keeps what `Close` relies on.** -/
theorem Closing.clientStep {P' : Client} {ev : Event} (hP : Closing P) (hok : Orderly P ev)
    (h : clientStep P ev = some P') : Closing P' := by
  have hidle := hP.idle.clientStep h
  have htwo := hP.two.trans (size_le_of_clientStep h)
  cases clientStep_stepped h with
  | @call _ q hev =>
    obtain ⟨hpend, hconn, hdel, hbeat⟩ := called_reads hev
    have hread {β : Type} {f : Thread → β} (hq : f q = f .idle) (t : ℕ) :
        f ((P.go q).thread t) = f (P.thread t) := congrFun (hP.idle.read_go hq) t
    refine ⟨hidle, htwo, fun g hg => ?_, ?_, fun hc => ?_, fun hin t => ?_⟩
    · refine (hP.accounted g hg).imp id (Or.imp id ?_)
      rintro ⟨t, ht⟩
      exact ⟨t, by rw [hread hpend, ht]⟩
    · rw [hread hbeat]
      exact hP.beat
    · refine (hP.passed hc).imp ?_ id
      rintro ⟨t, ht⟩
      exact ⟨t, by rw [hread hconn, ht]⟩
    · rw [hread hdel]
      exact hP.inbound hin t
  | receive | lose => exact ⟨hidle, htwo, hP.accounted, hP.beat, hP.passed, hP.inbound⟩
  | @act u c e hu he =>
    refine ⟨hidle, htwo, hP.accounted.advance hP.idle hu he fun hi => (hok.2.2 hi).2,
      hP.beat_advance hu he, fun hc => ?_, fun hin t => ?_⟩
    · rw [Pool.advance_shared] at hc ⊢
      exact hP.passed_advance hok hu he hc
    · rw [Pool.advance_shared] at hin
      exact hP.inbound_advance hok hu he hin t

theorem closing_connected (n : ℤ) : Closing (connected n) where
  idle := idleBeyond_connected n
  two := le_rfl
  accounted g hg := by
    obtain rfl : g = 0 := Nat.lt_one_iff.mp hg
    exact .inr (.inl rfl)
  beat := .inl rfl
  passed h := by cases h
  inbound h := by cases h

/-- When the goroutines of the client have exited, its connections are closed. -/
theorem Closing.allConnsClosed (hP : Closing P) (hex : Exited P) : AllConnsClosed P := by
  have hnone (t : ℕ) : (P.thread t).isClients = false := by
    by_cases ht : t < P.size
    · exact hex t ht
    · rw [hP.idle t (not_lt.mp ht)]
      rfl
  -- without the `heartbeatLoop` the client is closed
  have hclosed : P.shared.closed = true := by
    refine hP.beat.resolve_left fun hbeat => ?_
    have h1 := hnone 1
    cases hp : P.thread 1 with
    | beat => rw [hp] at h1; cases h1
    | _ => rw [hp] at hbeat; cases hbeat
  intro g hg
  rcases hP.accounted g hg with hcl | hconn | ⟨t, ht⟩
  · exact hcl
  · rcases hP.passed hclosed with ⟨t, ht⟩ | hall
    · have := hnone t
      cases hp : P.thread t with
      | close => rw [hp] at this; cases this
      | _ => rw [hp] at ht; cases ht
    · exact hall g hconn
  · have := hnone t
    cases hp : P.thread t with
    | loop => rw [hp] at this; cases this
    | _ => rw [hp] at ht; cases ht

theorem Closing.deliversOpen (hP : Closing P) (ev : Event) : DeliversOpen P ev := by
  unfold DeliversOpen
  split
  · next t =>
    intro hd
    by_contra hin
    rw [hP.inbound (by simpa using hin) t] at hd
    cases hd
  · trivial

/-- **`Close` is final** in every run in which no reader has a data message in hand when `inbound`
is closed or reads one afterwards, and no connection is installed after `Close` has begun or in the
place of another: no goroutine sends on the closed channel, and whenever the goroutines of the
client have exited, every connection it opened is closed. -/
theorem closed_for_good {n : ℤ} {es : List Event}
    (hok : Meets clientStep Orderly (connected n) es) :
    Meets clientStep DeliversOpen (connected n) es ∧
      Along clientStep (fun P => Exited P → AllConnsClosed P) (connected n) es := by
  constructor
  · exact meets_of_meets (fun _ _ _ hP hok h => hP.clientStep hok h)
      (fun _ ev hP _ => hP.deliversOpen ev) (closing_connected n) hok
  · exact along_of_meets (fun _ _ _ hP hok h => hP.clientStep hok h)
      (fun _ hP hex => hP.allConnsClosed hex) (closing_connected n) hok

/-- The user calls `Close`, which runs to its end as goroutine `t`. -/
def closes (t : ℕ) : List Event := [.close, .act t .go, .act t .go, .act t .go]

/-- The goroutines `Connect` started find `done` closed. -/
def exits : List Event := [.act 0 .go, .act 1 .done]

/-- A client that is closed while it is idle. -/
theorem closed_for_good_idle :
    ((run clientStep (connected 4) (closes 2 ++ exits)).map fun P => decide (Exited P)) =
      some true ∧
    ∀ P, run clientStep (connected 4) (closes 2 ++ exits) = some P → AllConnsClosed P := by
  refine ⟨by decide +kernel, fun P hP => ?_⟩
  have hex : ((run clientStep (connected 4) (closes 2 ++ exits)).map
      fun P => decide (Exited P)) = some true := by decide +kernel
  rw [hP] at hex
  exact (closed_for_good (by decide +kernel)).2 _ prefix_rfl P hP
    (of_decide_eq_true (Option.some.inj hex))

/-- The reader has read a data message and is about to deliver it. -/
def readsData : List Event :=
  [.act 0 .go, .act 0 .go, .act 0 (.recv ⟨"m", .message, "c", "", "", "", []⟩)]

/-- The reader loses connection 0, and the reconnect has registered connection 1. -/
def redials : List Event :=
  [.act 0 .go, .act 0 .go, .lose 0, .act 0 .err, .act 0 .go, .act 0 .go, .act 0 .go,
    .act 2 .tick, .act 2 .ok, .act 2 .ok, .act 2 .ok]

/-- The reconnect installs its connection, has nothing to replay and starts a reader, which finds
`done` closed; so does the `heartbeatLoop`. -/
def installsLate : List Event :=
  [.act 2 .go, .act 2 .go, .act 2 .go, .act 2 .go, .act 2 .go, .act 4 .go, .act 1 .done]

/-- **`Close` comes too early**: for a reader that holds a data message, which then sends on the
closed channel; and for a reconnect that holds a connection, which nobody closes. -/
theorem closedTooEarly :
    ((run clientStep (connected 4) (readsData ++ closes 2 ++ [.act 0 .go])).map
        fun P => P.shared.crashed) = some true ∧
    ((run clientStep (connected 4) (redials ++ closes 3 ++ installsLate)).map fun P =>
        (decide (Exited P), P.shared.dials, P.shared.closedConns)) = some (true, 2, [0]) := by
  decide +kernel

end K8s4Claw.Sdk
