/-
# Backpressure: bus and client agree

A client that is throttled should find the buffer of its channel in the state `slowDown`, or a
resume on its way; otherwise nothing will ever release it.  Between the two there are only
messages, and a resume goes to the connection whose message emptied the buffer: it is lost when
that connection is lost, or is not the client's current one any more, and a restart of the bus
makes new buffers and sends nothing.  The client stays throttled over the reconnect
(`throttled_after_reconnect`).

They agree in every state of every run in which the resume gets through (`agree_along`).  The
proof follows the last signal on each connection: a slow_down that comes last there was sent for
a buffer that still is in `slowDown`.
-/

import K8s4Claw.Backpressure.Signals
import K8s4Claw.Sdk.Teardown

namespace K8s4Claw.Backpressure

open List Option Function
open Lib (Along Meets Pool run)

def Event.restarts : Event → Bool
  | .bus (.restart _) => true
  | _ => false

/-- The message the outbound loop takes from the bridge. -/
def Event.outbound : Event → Option IpcBus.Message
  | .bus (.outbound msg) => some msg
  | _ => none

namespace Link

/-- The client's current connection, unless it is closed or lost. -/
def current (L : Link) : Option ℕ := usableConn L.client.shared

/-- The signals on the way to the client over its connection `g`, the last of them perhaps about
to be written. -/
def onWay (L : Link) (g : ℕ) : List Bool :=
  signals (L.flight g) ++ (L.bus.thread (L.peer g)).signal.toList

/-- A `readLoop` has read the signal `k` and not handled it. -/
def Held (L : Link) (k : Bool) : Prop :=
  ∃ t < L.client.size, (L.client.thread t).signal = some k

instance (L : Link) (k : Bool) : Decidable (L.Held k) :=
  inferInstanceAs (Decidable (∃ t < _, _))

/-- A throttled client finds the buffer in `slowDown` or a resume on its way. -/
def Agree (channel : String) (L : Link) : Prop :=
  L.client.shared.throttled = true →
    Slowed channel L.bus.shared ∨ L.Held false ∨ ∃ g ∈ L.current, false ∈ L.onWay g
  deriving Decidable

/-! ### When the resume gets through -/

/-- The client is throttled, or is about to be by a signal it has read. -/
def Throttling (L : Link) : Prop := L.client.shared.throttled = true ∨ L.Held true
  deriving Decidable

/-- The client is throttled or a slow_down is on its way to it. -/
def Threatened (L : Link) : Prop :=
  L.Throttling ∨
    ∃ g < L.client.shared.dials, L.client.shared.usable g = true ∧ true ∈ L.onWay g

instance (L : Link) : Decidable L.Threatened := inferInstanceAs (Decidable (_ ∨ ∃ g < _, _))

/-- The connection whose step takes the buffer of the channel back to `normal`. -/
def resuming (channel : String) (L : Link) : Event → Option ℕ
  | .bus (.act b .go) => if Resumes channel L.bus.shared (L.bus.thread b) then some b else none
  | _ => none

/-- The write of a resume fails. -/
def losesResume (channel : String) (L : Link) : Event → Bool
  | .bus (.act b (.write uuid now ok)) => (L.bus.thread b).signal = some false ∧
      IpcBus.written ok (.newMessage uuid now .resume channel none) = false
  | _ => false

/-- The connection a `readLoop` reads a signal from. -/
def readsSignal (L : Link) : Event → Option ℕ
  | .client (.act t (.recv msg)) => match L.client.thread t with
      | .read _ (.recv g) => if msg.type.signal.isSome then some g else none
      | _ => none
  | _ => none

/-- The step loses, closes or replaces the client's current connection. -/
def dropsCurrent (L : Link) : Event → Bool
  | .client (.act t _) => drops (L.client.thread t)
  | .client (.lose g) => L.current = some g
  | _ => false

/-- A resume written to connection `b` comes after every slow_down: no slow_down is on its way over
another connection, and if the client is throttled then `b` is its current connection. -/
def Reaches (L : Link) (b : ℕ) : Prop :=
  (∀ g < L.client.shared.dials, L.client.shared.usable g = true → L.peer g ≠ b →
    true ∉ L.onWay g) ∧
  (L.Throttling → ∃ g ∈ L.current, L.peer g = b)

instance (L : Link) (b : ℕ) : Decidable (L.Reaches b) := inferInstanceAs (Decidable (_ ∧ _))

/-- **The resume gets through.**  The buffer goes back to `normal` by a message on a connection
from where the resume reaches the client; while the client is throttled or a slow_down is on its
way, no write of a resume fails and the bus is not restarted; the current connection of a
throttled client is not dropped with a resume on it; signals are read from the current
connection, one at a time; and the runtime sends none itself. -/
@[mk_iff]
structure Releases (channel : String) (L : Link) (ev : Event) : Prop where
  resume : ∀ b ∈ L.resuming channel ev, L.Reaches b
  written : L.losesResume channel ev = true → ¬ L.Threatened
  restart : ev.restarts = true → ¬ L.Threatened
  keep : L.dropsCurrent ev = true → L.Throttling → ∀ g ∈ L.current, false ∉ L.onWay g
  read : ∀ g ∈ L.readsSignal ev, L.current = some g ∧ ¬ L.Held true ∧ ¬ L.Held false
  outbound : ∀ msg ∈ ev.outbound, msg.type.signal = none

instance (channel : String) (L : Link) (ev : Event) : Decidable (L.Releases channel ev) :=
  decidable_of_iff _ (releases_iff channel L ev).symm

/-! ### The invariant -/

/-- With nothing on the way, the client is or will be throttled. -/
def Expects (L : Link) : Prop :=
  L.Held true ∨ L.client.shared.throttled = true ∧ ¬ L.Held false

theorem Expects.throttling {L : Link} (h : L.Expects) : L.Throttling :=
  h.elim .inr fun h => .inl h.1

/-- A slow_down that is the last signal to reach the client was sent for a buffer that still is in
`slowDown`. -/
structure Synced (channel : String) (L : Link) : Prop where
  lastSlow : ∀ g < L.client.shared.dials, L.client.shared.usable g = true →
    (L.onWay g).getLast? = some true → Slowed channel L.bus.shared
  waiting : (∀ g ∈ L.current, L.onWay g = []) → L.Expects → Slowed channel L.bus.shared
  unique : ∀ t < L.client.size, ∀ u < L.client.size, (L.client.thread t).signal ≠ none →
    (L.client.thread u).signal ≠ none → t = u
  ordered : ∃ b, Sdk.Ordered b L.client
  peers : ∀ g < L.client.shared.dials, L.peer g < L.bus.size ∧
    ∀ c, (L.bus.thread (L.peer g)).channel = some c → c = channel
  outbound : ∀ x ∈ L.bus.shared.outbound, x.2.type.signal = none

section

variable {channel : String} {L : Link}

variable {g t : ℕ} {P : IpcBus.Bus} {ev : IpcBus.Event} {C : Sdk.Client} {e : Sdk.Step}
  {flight : ℕ → List IpcBus.Message}

theorem lt_dials_of_mem_current (h : ∃ b, Sdk.Ordered b L.client) (hg : g ∈ L.current) :
    g < L.client.shared.dials := by
  obtain ⟨b, hb⟩ := h
  rw [hb.conn g (mem_usableConn.mp hg).1]
  exact hb.lt_dials

/-- A list of signals without a resume is empty or ends in a slow_down. -/
theorem getLast?_eq_true {l : List Bool} (hl : l ≠ []) (hfalse : false ∉ l) :
    l.getLast? = some true := by
  rw [getLast?_eq_some_getLast hl]
  have hmem := getLast_mem hl
  cases hlast : l.getLast hl with
  | true => rfl
  | false => exact absurd (hlast ▸ hmem) hfalse

/-- With no resume on its way, the buffer is what the client will take it for. -/
theorem Synced.slowed (h : L.Synced channel) (hresume : ∀ g ∈ L.current, false ∉ L.onWay g)
    (hexpects : L.Expects) : Slowed channel L.bus.shared := by
  by_cases hne : ∃ g ∈ L.current, L.onWay g ≠ []
  · obtain ⟨g, hg, hne⟩ := hne
    exact h.lastSlow g (lt_dials_of_mem_current h.ordered hg) (mem_usableConn.mp hg).2
      (getLast?_eq_true hne (hresume g hg))
  · refine h.waiting (fun g hg => ?_) hexpects
    by_contra hempty
    exact hne ⟨g, hg, hempty⟩

/-- **The invariant is stronger than the agreement.** -/
theorem Synced.agree (h : L.Synced channel) : L.Agree channel := by
  intro hthrottled
  by_cases hheld : L.Held false
  · exact .inr (.inl hheld)
  · by_cases hresume : ∃ g ∈ L.current, false ∈ L.onWay g
    · exact .inr (.inr hresume)
    · refine .inl (h.slowed ?_ (.inr ⟨hthrottled, hheld⟩))
      exact fun g hg hmem => hresume ⟨g, hg, hmem⟩

/-! ### Steps of the bus -/

/-- The link after a step of the bus. -/
def withBus (L : Link) (P : IpcBus.Bus) : Link :=
  { L with
    bus := P
    flight := fun g => L.flight g ++ news L.bus.shared P.shared (L.peer g) }

theorem onWay_withBus (L : Link) (P : IpcBus.Bus) (g : ℕ) :
    (L.withBus P).onWay g = signals (L.flight g) ++
      (signals (news L.bus.shared P.shared (L.peer g)) ++ (P.thread (L.peer g)).signal.toList) := by
  simp [withBus, onWay]

theorem onWay_of_keeps (h : Keeps L.bus P (L.peer g)) : (L.withBus P).onWay g = L.onWay g := by
  rw [onWay_withBus, h]
  rfl

section

variable (h : L.Synced channel) (hadmits : L.admits channel ev)
  (hout : ∀ msg ∈ (Event.bus ev).outbound, msg.type.signal = none)
  (hstep : IpcBus.busStep L.bus ev = some P)

include h hadmits hout hstep

theorem Synced.withBus
    (hlast : ∀ g < L.client.shared.dials, L.client.shared.usable g = true →
      ((L.withBus P).onWay g).getLast? = some true → Slowed channel P.shared)
    (hwaiting : (∀ g ∈ L.current, (L.withBus P).onWay g = []) → L.Expects →
      Slowed channel P.shared) : (L.withBus P).Synced channel where
  lastSlow := hlast
  waiting := hwaiting
  unique := h.unique
  ordered := h.ordered
  peers g hg := by
    obtain ⟨hlt, hch⟩ := h.peers g hg
    refine ⟨hlt.trans_le (busStep_size hstep), fun c hc => ?_⟩
    rcases busStep_channel hlt hstep hc with hp | ⟨hp, msg, rfl, rfl⟩
    · exact hch c hp
    · exact (hadmits msg (if_pos ⟨hp, g, hg, rfl⟩)).2
  outbound x hx := by
    rcases busStep_outbound hstep x hx with hold | rfl
    · exact h.outbound x hold
    · exact hout x.2 rfl

theorem Synced.withBus_of_keeps
    (hkeeps : ∀ g < L.client.shared.dials, L.client.shared.usable g = true →
      Keeps L.bus P (L.peer g)) (hslow : Slowed channel P.shared ↔ Slowed channel L.bus.shared) :
    (L.withBus P).Synced channel := by
  refine h.withBus hadmits hout hstep (fun g hg husable hlast => ?_) fun hempty hexpects => ?_
  · rw [onWay_of_keeps (hkeeps g hg husable)] at hlast
    exact hslow.mpr (h.lastSlow g hg husable hlast)
  · refine hslow.mpr (h.waiting (fun g hg => ?_) hexpects)
    have hkept := hkeeps g (lt_dials_of_mem_current h.ordered hg) (mem_usableConn.mp hg).2
    rw [← onWay_of_keeps hkept]
    exact hempty g hg

theorem Synced.withBus_of_not_threatened (hnone : ¬ L.Threatened)
    (hsub : ∀ g < L.client.shared.dials, (L.withBus P).onWay g ⊆ L.onWay g) :
    (L.withBus P).Synced channel := by
  refine h.withBus hadmits hout hstep (fun g hg husable hlast => ?_) fun _ hexpects => ?_
  · exact absurd (.inr ⟨g, hg, husable, hsub g hg (mem_of_getLast? hlast)⟩) hnone
  · exact absurd (.inl hexpects.throttling) hnone

end

/-- **A step of the bus keeps the invariant**, if the resume gets through. -/
theorem Synced.bus (h : L.Synced channel) (hok : L.Releases channel (.bus ev))
    (hadmits : L.admits channel ev) (hstep : IpcBus.busStep L.bus ev = some P) :
    (L.withBus P).Synced channel := by
  have hpeer (g : ℕ) (hg : g < L.client.shared.dials) : L.peer g < L.bus.size := (h.peers g hg).1
  cases busStep_flow channel h.outbound hstep with
  | steady hsig hslow =>
    exact h.withBus_of_keeps hadmits hok.outbound hstep (fun g hg _ => hsig _ (hpeer g hg)) hslow
  | slows hslow =>
    exact h.withBus hadmits hok.outbound hstep (fun _ _ _ _ => hslow) fun _ _ => hslow
  | elsewhere t c hc ht hsig hslow =>
    refine h.withBus_of_keeps hadmits hok.outbound hstep (fun g hg _ => ?_) hslow
    refine hsig _ (hpeer g hg) fun heq => hc ?_
    exact (h.peers g hg).2 c (heq ▸ ht)
  | resumes t hev hres hnews hp hq hsig =>
    subst hev
    obtain ⟨hothers, hcurrent⟩ := hok.resume t (if_pos hres)
    have hself (g : ℕ) (hg : L.peer g = t) : (L.withBus P).onWay g = L.onWay g ++ [false] := by
      rw [onWay_withBus, onWay, hg, hnews, hp, hq]
      simp
    refine h.withBus hadmits hok.outbound hstep (fun g hg husable hlast => ?_)
      fun hempty hexpects => ?_
    · by_cases hgt : L.peer g = t
      · rw [hself g hgt] at hlast
        simp at hlast
      · rw [onWay_of_keeps (hsig _ (hpeer g hg) hgt)] at hlast
        exact absurd (mem_of_getLast? hlast) (hothers g hg husable hgt)
    · obtain ⟨g, hg, hgt⟩ := hcurrent hexpects.throttling
      have hnil := hempty g hg
      rw [hself g hgt] at hnil
      simp at hnil
  | fails t k _ _ ok hev hp hw hnews hq hsig hslow =>
    subst hev
    have hself (g : ℕ) (hg : L.peer g = t) : (L.withBus P).onWay g ++ [k] = L.onWay g := by
      rw [onWay_withBus, onWay, hg, hnews, hp, hq]
      simp
    cases k with
    | false =>
      have hnone : ¬ L.Threatened := hok.written (by simpa [losesResume, hp] using hw)
      refine h.withBus_of_not_threatened hadmits hok.outbound hstep hnone fun g hg => ?_
      by_cases hgt : L.peer g = t
      · rw [← hself g hgt]
        exact subset_append_left ..
      · rw [onWay_of_keeps (hsig _ (hpeer g hg) hgt)]
        exact List.Subset.refl _
    | true =>
      -- the slow_down that is lost was the last signal on its connection
      by_cases hex : ∃ g < L.client.shared.dials, L.client.shared.usable g = true ∧ L.peer g = t
      · obtain ⟨g, hg, husable, hgt⟩ := hex
        have hs : Slowed channel L.bus.shared := by
          refine h.lastSlow g hg husable ?_
          rw [← hself g hgt]
          simp
        exact h.withBus hadmits hok.outbound hstep (fun _ _ _ _ => hslow.mpr hs)
          fun _ _ => hslow.mpr hs
      · refine h.withBus_of_keeps hadmits hok.outbound hstep (fun g hg husable => ?_) hslow
        exact hsig _ (hpeer g hg) fun hgt => hex ⟨g, hg, husable, hgt⟩
  | restart _ hev hall =>
    subst hev
    refine h.withBus_of_not_threatened hadmits hok.outbound hstep (hok.restart rfl) fun g _ => ?_
    rw [onWay_withBus, (hall _).1, (hall _).2]
    simp [onWay]

/-! ### Steps of the client -/

/-- The same goroutines of the client have the same signals. -/
def SameSignals (C C' : Sdk.Client) : Prop :=
  ∀ u k, (u < C'.size ∧ (C'.thread u).signal = some k) ↔ u < C.size ∧ (C.thread u).signal = some k

theorem SameSignals.held (h : SameSignals L.client C) (k : Bool) :
    (∃ t < C.size, (C.thread t).signal = some k) ↔ L.Held k :=
  exists_congr fun t => h t k

theorem SameSignals.expects {L' : Link} (h : SameSignals L.client L'.client)
    (hthrottled : L'.client.shared.throttled = L.client.shared.throttled) (hexpects : L'.Expects) :
    L.Expects := by
  refine hexpects.imp (h.held true).mp fun ⟨hthr, hheld⟩ => ⟨hthrottled ▸ hthr, ?_⟩
  exact fun hh => hheld ((h.held false).mpr hh)

theorem SameSignals.unique (hsame : SameSignals L.client C) (h : L.Synced channel) :
    ∀ t < C.size, ∀ u < C.size, (C.thread t).signal ≠ none →
      (C.thread u).signal ≠ none → t = u := by
  intro t ht u hu htk huk
  obtain ⟨k, hk⟩ := ne_none_iff_exists'.mp htk
  obtain ⟨l, hl⟩ := ne_none_iff_exists'.mp huk
  obtain ⟨ht', hk'⟩ := (hsame t k).mp ⟨ht, hk⟩
  obtain ⟨hu', hl'⟩ := (hsame u l).mp ⟨hu, hl⟩
  exact h.unique t ht' u hu' (by simp [hk']) (by simp [hl'])

theorem sameSignals_go (C : Sdk.Client) {q : Sdk.Thread} (hq : q.signal = none) :
    SameSignals C (C.go q) := by
  intro u k
  by_cases hu : u = C.size
  · subst hu
    rw [Pool.go_thread_size, hq]
    simp
  · rw [Pool.go_thread_of_ne _ _ hu]
    refine and_congr_left fun _ => ?_
    show u < C.size + 1 ↔ u < C.size
    omega

theorem sameSignals_advance (ht : t < C.size) (hp : (C.thread t).signal = none)
    (hq : e.next.signal = none) (hspawn : ∀ q, e.spawn = some q → q.signal = none) :
    SameSignals C (C.advance t e) := by
  have hmoved : SameSignals C ⟨e.shared, update C.thread t e.next, C.size⟩ := by
    intro u k
    by_cases hu : u = t
    · subst hu
      simp [hp, hq]
    · simp [hu]
  unfold Pool.advance
  cases hs : e.spawn with
  | none => exact hmoved
  | some q => exact fun u k => (sameSignals_go _ (hspawn q hs) u k).trans (hmoved u k)

/-- The link after a step of the client. -/
def withClient (L : Link) (C : Sdk.Client) (flight : ℕ → List IpcBus.Message) : Link :=
  { L with client := C, flight := flight }

theorem onWay_withClient (h : signals (flight g) = signals (L.flight g)) :
    (L.withClient C flight).onWay g = L.onWay g := by
  simp only [withClient, onWay, h]

/-- A step of the client that handles and reads no signal.  If it changes the current connection,
there is no resume on the old one to be lost. -/
theorem Synced.withClient_of_same (h : L.Synced channel) (hordered : ∃ b, Sdk.Ordered b C)
    (hsame : SameSignals L.client C) (hthrottled : C.shared.throttled = L.client.shared.throttled)
    (hdials : C.shared.dials = L.client.shared.dials)
    (husable : ∀ g, C.shared.usable g = true → L.client.shared.usable g = true)
    (hflight : ∀ g, signals (flight g) = signals (L.flight g))
    (hcurrent : usableConn C.shared = L.current ∨
      (L.Throttling → ∀ g ∈ L.current, false ∉ L.onWay g)) :
    (L.withClient C flight).Synced channel where
  lastSlow g hg hg' hlast := by
    rw [onWay_withClient (hflight g)] at hlast
    exact h.lastSlow g (hg.trans_eq hdials) (husable g hg') hlast
  waiting hempty hexpects := by
    have hold : L.Expects := hsame.expects hthrottled hexpects
    rcases hcurrent with hcur | hkeep
    · refine h.waiting (fun g hg => ?_) hold
      have hg' : g ∈ (L.withClient C flight).current := by
        show g ∈ usableConn C.shared
        rwa [hcur]
      rw [← onWay_withClient (hflight g)]
      exact hempty g hg'
    · exact h.slowed (hkeep hold.throttling) hold
  unique := hsame.unique h
  ordered := hordered
  peers g hg := h.peers g (hg.trans_eq hdials)
  outbound := h.outbound

/-- A `readLoop` does what the signal it has read says. -/
theorem Synced.handles (ht : t < L.client.size) {k : Bool} (h : L.Synced channel)
    (hordered : ∃ b, Sdk.Ordered b (L.client.advance t e))
    (hm : Sdk.Move L.client.shared (L.client.thread t) e) (hp : (L.client.thread t).signal = some k)
    (hthrottled : e.shared.throttled = k) (hq : e.next.signal = none) :
    (L.withClient (L.client.advance t e) L.flight).Synced channel := by
  obtain ⟨hs, hspawn⟩ := sameConn_of_signal hm hp
  have hshared : (L.client.advance t e).shared = e.shared := Pool.advance_shared ..
  have hcurrent : usableConn (L.client.advance t e).shared = L.current := by
    rw [hshared]
    exact usableConn_congr hs.conn hs.closedConns hs.lost
  -- no other goroutine has a signal
  have hnone : ∀ u < (L.client.advance t e).size,
      ((L.client.advance t e).thread u).signal = none := by
    intro u hu
    rcases Pool.advance_thread_cases ht e u with ⟨-, hu'⟩ | ⟨-, -, q, hspawn', -⟩ | ⟨hne, hu'⟩
    · rw [hu', hq]
    · rw [hspawn] at hspawn'
      cases hspawn'
    · rw [hu']
      by_contra hsig
      have hsize : (L.client.advance t e).size = L.client.size := by
        unfold Pool.advance
        rw [hspawn]
      exact hne (h.unique u (hu.trans_eq hsize) t ht hsig (by simp [hp]))
  refine ⟨fun g hg husable hlast => ?_, fun hempty hexpects => ?_, fun u hu v _ huk => ?_,
    hordered, fun g hg => ?_, h.outbound⟩
  · rw [withClient, hshared, hs.dials] at hg
    rw [withClient, hshared, usable_congr hs.closedConns hs.lost] at husable
    exact h.lastSlow g hg husable hlast
  · have hk : k = true := by
      rcases hexpects with ⟨u, hu, hheld⟩ | ⟨hthr, -⟩
      · exact absurd ((hnone u hu).symm.trans hheld) (by simp)
      · rw [← hthrottled, ← hshared]
        exact hthr
    subst hk
    refine h.waiting (fun g hg => hempty g ?_) (.inl ⟨t, ht, hp⟩)
    show g ∈ usableConn (L.client.advance t e).shared
    rwa [hcurrent]
  · exact absurd (hnone u hu) huk
  · rw [withClient, hshared, hs.dials] at hg
    exact h.peers g hg

theorem signal_eq_none_of_not_held (h : ¬ L.Held true ∧ ¬ L.Held false) {u : ℕ}
    (hu : u < L.client.size) : (L.client.thread u).signal = none := by
  cases hsig : (L.client.thread u).signal with
  | none => rfl
  | some k =>
    cases k with
    | true => exact absurd ⟨u, hu, hsig⟩ h.1
    | false => exact absurd ⟨u, hu, hsig⟩ h.2

theorem Synced.recv {born : ℕ} (ht : t < L.client.size) {m : IpcBus.Message}
    {ms : List IpcBus.Message} {k : Bool} (h : L.Synced channel)
    (hp : L.client.thread t = .read born (.recv g)) (hflight : L.flight g = m :: ms)
    (hsig : m.type.signal = some k) (hcurrent : L.current = some g)
    (hnone : ¬ L.Held true ∧ ¬ L.Held false) (hC : C = L.client.advance t
      ⟨L.client.shared, .read born (.handle g (received m)), none⟩)
    (hordered : ∃ b, Sdk.Ordered b C) :
    (L.withClient C (update L.flight g ms)).Synced channel := by
  have hshared : C.shared = L.client.shared := by rw [hC, Pool.advance_shared]
  have hsize : C.size = L.client.size := by rw [hC]; rfl
  have hthread : C.thread = update L.client.thread t
      (.read born (.handle g (received m))) := by rw [hC]; rfl
  have hafter : ∀ u < C.size, ∀ l, (C.thread u).signal = some l → u = t ∧ l = k := by
    intro u hu l hl
    rw [hthread] at hl
    by_cases hut : u = t
    · subst hut
      rw [update_self] at hl
      exact ⟨rfl, some.inj (hl.symm.trans hsig)⟩
    · rw [update_of_ne hut, signal_eq_none_of_not_held hnone (hu.trans_eq hsize)] at hl
      cases hl
  have hon : L.onWay g = k :: (L.withClient C (update L.flight g ms)).onWay g := by
    simp [onWay, withClient, hflight, signals, hsig]
  have hother (g' : ℕ) (hne : g' ≠ g) :
      (L.withClient C (update L.flight g ms)).onWay g' = L.onWay g' := by
    simp [onWay, withClient, hne]
  have hg : g < L.client.shared.dials := lt_dials_of_mem_current h.ordered hcurrent
  have husable : L.client.shared.usable g = true := (mem_usableConn.mp hcurrent).2
  refine ⟨fun g' hg' husable' hlast => ?_, fun hempty hexpects => ?_, fun u hu v hv huk hvl => ?_,
    hordered, fun g' hg' => ?_, h.outbound⟩
  · by_cases hgg : g' = g
    · subst hgg
      refine h.lastSlow g' hg husable ?_
      rw [hon, getLast?_cons, hlast]
      rfl
    · rw [hother g' hgg] at hlast
      rw [withClient, hshared] at hg' husable'
      exact h.lastSlow g' hg' husable' hlast
  · have hk : k = true := by
      rcases hexpects with ⟨u, hu, hheld⟩ | ⟨-, hfalse⟩
      · exact (hafter u hu true hheld).2.symm
      · cases k with
        | true => rfl
        | false =>
          refine absurd ⟨t, ht.trans_eq hsize.symm, ?_⟩ hfalse
          show (C.thread t).signal = some false
          rw [hthread, update_self]
          exact hsig
    subst hk
    refine h.lastSlow g hg husable ?_
    have hnil := hempty g (by show g ∈ usableConn C.shared; rw [hshared]; exact hcurrent)
    rw [hon, hnil]
    rfl
  · obtain ⟨k', hk'⟩ := ne_none_iff_exists'.mp huk
    obtain ⟨l', hl'⟩ := ne_none_iff_exists'.mp hvl
    exact (hafter u hu k' hk').1.trans (hafter v hv l' hl').1.symm
  · rw [withClient, hshared] at hg'
    exact h.peers g' hg'

theorem Synced.advance (ht : t < L.client.size) {c : Sdk.Choice} (h : L.Synced channel)
    (hok : L.Releases channel (.client (.act t c)))
    (he : Sdk.act L.client.shared (L.client.thread t) c = some e)
    (hordered : ∃ b, Sdk.Ordered b (L.client.advance t e))
    (hdial : ¬ (L.client.thread t = .loop .dial ∧ c = .ok))
    (hthrottled : e.shared.throttled = L.client.shared.throttled)
    (hp : (L.client.thread t).signal = none) (hq : e.next.signal = none)
    (hflight : ∀ g, signals (flight g) = signals (L.flight g)) :
    (L.withClient (L.client.advance t e) flight).Synced channel := by
  have hm := Sdk.act_move he
  refine h.withClient_of_same hordered (sameSignals_advance ht hp hq (signal_of_spawn hm)) ?_ ?_
    (fun g hg => ?_) hflight ?_
  · rwa [Pool.advance_shared]
  · rw [Pool.advance_shared]
    exact (dials_of_act he).resolve_left hdial
  · rw [Pool.advance_shared] at hg
    exact usable_of_move hm hg
  · rw [Pool.advance_shared]
    cases hdrop : drops (L.client.thread t) with
    | true => exact .inr (hok.keep hdrop)
    | false =>
      refine .inl (usableConn_of_move hm hdrop fun g hg hconn => ?_)
      -- a connection that is being dialed is not the current one
      obtain ⟨b, hb⟩ := h.ordered
      have hlt := ((hb.thread t).pending g hg).1
      have heq := hb.conn g hconn
      omega

theorem signals_update_tail {m : IpcBus.Message} {ms : List IpcBus.Message}
    (hflight : flight g = m :: ms) (hsig : m.type.signal = none) (g' : ℕ) :
    signals (update flight g ms g') = signals (flight g') := by
  by_cases hg' : g' = g
  · subst hg'
    simp [hflight, signals, hsig]
  · rw [update_of_ne hg']

theorem Synced.act (ht : t < L.client.size) {c : Sdk.Choice} (h : L.Synced channel)
    (hok : L.Releases channel (.client (.act t c))) (htakes : L.takes (.act t c) = some flight)
    (he : Sdk.act L.client.shared (L.client.thread t) c = some e)
    (hordered : ∃ b, Sdk.Ordered b (L.client.advance t e)) :
    (L.withClient (L.client.advance t e) flight).Synced channel := by
  unfold takes at htakes
  dsimp only at htakes
  split at htakes
  · next g _ hp =>
    -- a `readLoop` reads a message
    split at htakes
    · next m ms hflight =>
      split_ifs at htakes with hmsg
      cases htakes
      subst hmsg
      rw [hp] at he
      simp only [Sdk.act, Sdk.readStep] at he
      split_ifs at he
      cases he
      cases hsig : m.type.signal with
      | some =>
        obtain ⟨hcur, hnone⟩ := hok.read g (by simp [readsSignal, hp, received, hsig])
        exact h.recv ht hp hflight hsig hcur hnone rfl hordered
      | none =>
        exact h.withClient_of_same hordered (sameSignals_advance ht (by rw [hp]; rfl) hsig
          (by simp)) rfl rfl (fun _ => id) (signals_update_tail hflight hsig) (.inl rfl)
    · cases htakes
  · next hp =>
    -- the acknowledgement of a registration
    split at htakes
    · next m ms hflight =>
      split_ifs at htakes with hack
      cases htakes
      have hloop := he
      rw [hp] at hloop
      simp only [Sdk.act, Sdk.loopStep] at hloop
      split_ifs at hloop
      cases hloop
      have hsig : m.type.signal = none := by rw [hack]; rfl
      exact h.advance ht hok he hordered (by simp [hp]) rfl (by rw [hp]; rfl) rfl
        (signals_update_tail hflight hsig)
    · cases htakes
  · cases htakes
  · next hread _ hdial =>
    cases htakes
    cases act_flow he with
    | steady hthrottled hp hq =>
      exact h.advance ht hok he hordered (fun hd => hdial hd.1 hd.2) hthrottled hp hq
        fun _ => rfl
    | recv born g msg hp hc => exact absurd hc (hread born g msg hp)
    | handles k hp hthrottled hq => exact h.handles ht hordered (Sdk.act_move he) hp hthrottled hq

/-- **A step of the client keeps the invariant**, if the resume gets through. -/
theorem Synced.client {ev : Sdk.Event} (h : L.Synced channel)
    (hok : L.Releases channel (.client ev)) (htakes : L.takes ev = some flight)
    (hstep : Sdk.clientStep L.client ev = some C) : (L.withClient C flight).Synced channel := by
  have hordered : ∃ b, Sdk.Ordered b C := Sdk.exists_ordered_clientStep h.ordered hstep
  cases Sdk.clientStep_stepped hstep with
  | @call _ q hev =>
    have hq : flight = L.flight ∧ q.signal = none := by
      cases ev <;> cases hev <;> cases htakes <;> exact ⟨rfl, rfl⟩
    obtain ⟨rfl, hq⟩ := hq
    exact h.withClient_of_same hordered (sameSignals_go _ hq) rfl rfl (fun _ => id)
      (fun _ => rfl) (.inl rfl)
  | receive =>
    cases htakes
    exact h.withClient_of_same hordered (fun _ _ => Iff.rfl) rfl rfl (fun _ => id)
      (fun _ => rfl) (.inl rfl)
  | lose g =>
    cases htakes
    refine h.withClient_of_same hordered (fun _ _ => Iff.rfl) rfl rfl (fun g' hg' => ?_)
      (fun _ => rfl) ?_
    · exact usable_of_subset hg' (List.Subset.refl _) (subset_cons_self ..)
    · by_cases hcur : L.current = some g
      · exact .inr (hok.keep (by simpa [dropsCurrent] using hcur))
      · exact .inl (usableConn_lose hcur)
  | act ht he => exact h.act ht hok htakes he hordered

/-- **A new connection keeps the invariant.** -/
theorem Synced.dial {b : ℕ} (h : L.Synced channel) (hp : L.client.thread t = .loop .dial)
    (hb : b < L.bus.size ∧ L.bus.thread b = .accepted)
    (hstep : Sdk.clientStep L.client (.act t .ok) = some C) :
    Synced channel
      { L with
        client := C
        peer := update L.peer L.client.shared.dials b
        flight := update L.flight L.client.shared.dials [] } := by
  have hordered : ∃ b, Sdk.Ordered b C := Sdk.exists_ordered_clientStep h.ordered hstep
  obtain ⟨e, ht, he, rfl⟩ := Sdk.act_of_clientStep hstep
  rw [hp] at he
  cases he
  set L' : Link := { L with
    client := L.client.advance t
      ⟨{ L.client.shared with dials := L.client.shared.dials + 1 },
        .loop (.register L.client.shared.dials), none⟩
    peer := update L.peer L.client.shared.dials b
    flight := update L.flight L.client.shared.dials [] } with hL'
  have hsame : SameSignals L.client L'.client :=
    sameSignals_advance ht (by rw [hp]; rfl) rfl (by simp)
  have hold (g : ℕ) (hg : g < L.client.shared.dials) : L'.onWay g = L.onWay g := by
    simp [hL', onWay, hg.ne]
  have hnew : L'.onWay L.client.shared.dials = [] := by
    simp [hL', onWay, hb.2, IpcBus.Conn.signal]
  refine ⟨fun g hg husable hlast => ?_, fun hempty hexpects => ?_, fun u hu v hv huk hvl => ?_,
    hordered, fun g hg => ?_, h.outbound⟩
  · rcases Nat.lt_succ_iff_lt_or_eq.mp hg with hg | rfl
    · rw [hold g hg] at hlast
      exact h.lastSlow g hg husable hlast
    · rw [hnew] at hlast
      cases hlast
  · refine h.waiting (fun g hg => ?_) (hsame.expects rfl hexpects)
    rw [← hold g (lt_dials_of_mem_current h.ordered hg)]
    exact hempty g hg
  · exact hsame.unique h u hu v hv huk hvl
  · rcases Nat.lt_succ_iff_lt_or_eq.mp hg with hg | rfl
    · simpa [hL', hg.ne] using h.peers g hg
    · simp [hL', hb.1, hb.2, IpcBus.Conn.channel]

/-- **A step keeps the invariant**, if the resume gets through. -/
theorem synced_step {ev : Event} {L' : Link} (h : L.Synced channel) (hok : L.Releases channel ev)
    (hstep : step channel L ev = some L') : L'.Synced channel := by
  cases ev with
  | bus =>
    simp only [step] at hstep
    split_ifs at hstep with hadmits
    obtain ⟨P, hP, rfl⟩ := map_eq_some_iff.mp hstep
    exact h.bus hok hadmits hP
  | client =>
    obtain ⟨flight, hflight, hstep⟩ := bind_eq_some_iff.mp hstep
    obtain ⟨C, hC, rfl⟩ := map_eq_some_iff.mp hstep
    exact h.client hok hflight hC
  | dial =>
    simp only [step] at hstep
    split at hstep
    · next hp =>
      split_ifs at hstep with hb
      obtain ⟨C, hC, rfl⟩ := map_eq_some_iff.mp hstep
      exact h.dial hp ⟨hb.1, hb.2.1⟩ hC
    · cases hstep

/-- A client that has just connected has seen no signal. -/
theorem synced_initial (bufferSize : ℤ) (hsize : 0 < P.size) (hread : P.thread 0 = .read channel)
    (hout : P.shared.outbound = none) : (initial P bufferSize).Synced channel := by
  have hon (g : ℕ) : (initial P bufferSize).onWay g = [] := by
    simp [initial, onWay, hread, IpcBus.Conn.signal]
  have hsig (t : ℕ) : ((initial P bufferSize).client.thread t).signal = none := by
    show ((Sdk.connected bufferSize).thread t).signal = none
    unfold Sdk.connected
    dsimp only
    split_ifs <;> rfl
  refine ⟨fun g _ _ hlast => ?_, fun _ hexpects => ?_, fun t _ u _ htk => absurd (hsig t) htk,
    ⟨0, Sdk.ordered_connected bufferSize⟩, fun g _ => ⟨hsize, fun c hc => ?_⟩, fun x hx => ?_⟩
  · rw [hon] at hlast
    cases hlast
  · rcases hexpects with ⟨t, -, ht⟩ | ⟨hthr, -⟩
    · rw [hsig] at ht
      cases ht
    · cases hthr
  · have hc' : (P.thread 0).channel = some c := hc
    rw [hread] at hc'
    exact (some.inj hc').symm
  · have hx' : x ∈ P.shared.outbound := hx
    rw [hout] at hx'
    cases hx'

theorem size_outbound_connects {config : IpcBus.RouterConfig} {reg : IpcBus.Message} {uuid : String}
    {now : Lib.Time}
    (h : run IpcBus.busStep (IpcBus.started config) (connects reg uuid now) = some P) :
    0 < P.size ∧ P.shared.outbound = none := by
  -- none of the steps takes a message from the bridge
  have hnone {P P' : IpcBus.Bus} {ev : IpcBus.Event} (hstep : IpcBus.busStep P ev = some P')
      (hev : ∀ msg, ev ≠ .outbound msg) (hout : P.shared.outbound = none) :
      P'.shared.outbound = none := by
    refine eq_none_iff_forall_not_mem.mpr fun x hx => ?_
    rcases busStep_outbound hstep x hx with hx | rfl
    · rw [hout] at hx
      cases hx
    · exact hev _ rfl
  obtain ⟨P₁, h₁, h⟩ := Lib.run_cons.mp h
  obtain ⟨P₂, h₂, h⟩ := Lib.run_cons.mp h
  obtain ⟨P₃, h₃, h⟩ := Lib.run_cons.mp h
  obtain ⟨P₄, h₄, h⟩ := Lib.run_cons.mp h
  obtain ⟨P₅, h₅, h⟩ := Lib.run_cons.mp h
  cases h
  constructor
  · have hsize : 0 < P₂.size := by
      simp only [IpcBus.busStep] at h₂
      split_ifs at h₂
      cases h₂
      exact Nat.succ_pos _
    have h₂₃ := busStep_size h₃
    have h₃₄ := busStep_size h₄
    have h₄₅ := busStep_size h₅
    omega
  · exact hnone h₅ (by simp) (hnone h₄ (by simp) (hnone h₃ (by simp) (hnone h₂ (by simp)
      (hnone h₁ (by simp) rfl))))

end

/-- **A throttled client can be released.**  The bus and a client that has connected to it agree in
every state of every run in which the resume gets through. -/
theorem agree_along {config : IpcBus.RouterConfig} {channel uuid : String} {reg : IpcBus.Message}
    {now : Lib.Time} {P : IpcBus.Bus} {bufferSize : ℤ} {es : List Event}
    (hP : run IpcBus.busStep (IpcBus.started config) (connects reg uuid now) = some P)
    (hread : P.thread 0 = .read channel)
    (hok : Meets (step channel) (Releases channel) (initial P bufferSize) es) :
    Along (step channel) (Agree channel) (initial P bufferSize) es := by
  obtain ⟨hsize, hout⟩ := size_outbound_connects hP
  exact Lib.along_of_meets (fun _ _ _ hL hok hs => synced_step hL hok hs) (fun _ hL => hL.agree)
    (synced_initial bufferSize hsize hread hout) hok

/-! ### Runs -/

/-- A bus whose buffers hold one message: every message slows its channel down and, once it is
delivered, takes it back to normal. -/
def oneMessage : IpcBus.RouterConfig :=
  { bufferSize := 1, highWatermark := 4 / 5, lowWatermark := 3 / 10 }

/-- The bus that has acknowledged the connection of a client on the channel "slack". -/
def acknowledged : IpcBus.Bus :=
  (run IpcBus.busStep (IpcBus.started oneMessage)
    (connects (IpcBus.registration "slack") "a" .zero)).getD (IpcBus.started oneMessage)

theorem run_acknowledged : run IpcBus.busStep (IpcBus.started oneMessage)
    (connects (IpcBus.registration "slack") "a" .zero) = some acknowledged := by
  have hsome : (run IpcBus.busStep (IpcBus.started oneMessage)
      (connects (IpcBus.registration "slack") "a" .zero)).isSome := by decide +kernel
  obtain ⟨P, hP⟩ := isSome_iff_exists.mp hsome
  rfl

/-- A signal of the bus on the channel "slack". -/
def signalMessage (type : MessageType) : IpcBus.Message :=
  .newMessage "u" .zero type "slack" none

/-- The client sends a message; the bus receives it, slows the channel down and says so; the client
reads the slow_down and is throttled. -/
def throttles : List Event :=
  [.client (.send ⟨"m1", .message, "slack", "", "", "", []⟩), .client (.act 2 .go),
    .client (.act 2 .go), .client (.act 2 .ok),
    .bus (.act 0 (.recv (.plain "m1" "slack"))), .bus (.act 0 (.wal "t" .ok .ok)),
    .bus (.act 0 .go), .bus (.act 0 (.write "u" .zero true)),
    .client (.act 0 .go), .client (.act 0 .go),
    .client (.act 0 (.recv (received (signalMessage .slowDown)))), .client (.act 0 .go)]

/-- The bus delivers the message, takes the buffer back to normal and writes the resume. -/
def delivers : List Event :=
  [.bus (.act 0 .ok), .bus (.act 0 (.wal "t" .ok .ok)), .bus (.act 0 .go),
    .bus (.act 0 (.write "u" .zero true))]

theorem agree_along_throttles_delivers :
    (∃ L ∈ run (step "slack") (initial acknowledged 8) (throttles ++ delivers),
      L.client.shared.throttled = true ∧ ¬ Slowed "slack" L.bus.shared) ∧
    Along (step "slack") (Agree "slack") (initial acknowledged 8) (throttles ++ delivers) :=
  ⟨by decide +kernel, agree_along run_acknowledged (by decide +kernel) (by decide +kernel)⟩

/-- The connection is lost before the bus writes the resume, and the `handleConn` of the bus ends.
-/
def loses : List Event :=
  .client (.lose 0) :: delivers ++ [.bus (.act 0 .err), .bus (.act 0 .go), .bus (.act 0 .go)]

/-- The `readLoop` of the client sees the error and starts a `reconnectLoop`, which connects to the
bus again. -/
def reconnects : List Event :=
  [.client (.act 0 .go), .client (.act 0 .go), .client (.act 0 .err), .client (.act 0 .go),
    .client (.act 0 .go), .client (.act 0 .go), .client (.act 3 .tick), .bus .accept, .dial 3 1,
    .client (.act 3 .ok), .bus (.act 1 (.recv (IpcBus.registration "slack"))), .bus (.act 1 .go),
    .bus (.act 1 (.write "a" .zero true)), .client (.act 3 .ok), .client (.act 3 .go),
    .client (.act 3 .go), .client (.act 3 .go), .client (.act 3 .go)]

/-- **A client that stays throttled.**  After the reconnect the client is connected and throttled,
the buffer is in the state `normal`, and nothing is on its way. -/
theorem throttled_after_reconnect :
    ∃ L ∈ run (step "slack") (initial acknowledged 8) (throttles ++ loses ++ reconnects),
      L.client.shared.throttled = true ∧ L.current = some 1 ∧ L.flight 1 = [] ∧
      ¬ Slowed "slack" L.bus.shared ∧ ¬ L.Agree "slack" := by
  decide +kernel

end Link
end K8s4Claw.Backpressure
