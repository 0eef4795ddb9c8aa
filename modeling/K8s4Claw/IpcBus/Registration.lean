/-
# Sidecars that reconnect

`Router.sidecars` maps a channel to one connection, and `Unregister` deletes the channel
whoever is registered for it.  When a sidecar reconnects before the `handleConn` of its
old connection has ended, the deferred `Unregister` of the old one removes the new one, and
messages for the channel are dropped although its sidecar is connected
(`reconnected_unrouted`).
-/

import K8s4Claw.IpcBus.Moves

namespace K8s4Claw.IpcBus

open Function
open Lib (Along Meets Pool run)

/-- The connection that registered last for a channel. -/
def lastRegistered (registered : List (String × ℕ)) (channel : String) : Option ℕ :=
  (registered.reverse.find? fun r => r.1 = channel).map Prod.snd

theorem lastRegistered_concat (registered : List (String × ℕ)) (channel c : String) (t : ℕ) :
    lastRegistered (registered ++ [(channel, t)]) c =
      if channel = c then some t else lastRegistered registered c := by
  unfold lastRegistered
  split_ifs with h <;> simp [h]

/-- `HandleOutbound` of a message for the channel writes it to connection `t`. -/
def Reaches (P : Bus) (channel : String) (t : ℕ) : Prop :=
  P.shared.outbound = none → ∀ msg, msg.channel = channel → written true msg = true →
    ∃ P', run busStep P [.outbound msg, .deliver true] = some P' ∧
      P'.shared.outbox = P.shared.outbox ++ [(t, msg)]

/-- A connection that registered last for its channel, and is still open, has the channel's
place in the map, and outbound messages of the channel reach it. -/
def Routed (P : Bus) : Prop :=
  ∀ channel t, lastRegistered P.shared.registered channel = some t →
    (P.thread t).serves = some channel →
    P.shared.sidecars.lookup channel = some t ∧ Reaches P channel t

/-- The connection whose `Unregister` the step is, and its channel. -/
def unregisters (P : Bus) : Event → Option (ℕ × String)
  | .act t .go => match P.thread t with
      | .unregister channel => some (t, channel)
      | _ => none
  | _ => none

/-- An `Unregister` takes away the place of its own connection, or of one that is not open any
more. -/
def UnregistersOwn (P : Bus) (ev : Event) : Prop :=
  ∀ r ∈ unregisters P ev, ∀ u ∈ lastRegistered P.shared.registered r.2,
    u = r.1 ∨ (P.thread u).serves ≠ some r.2
  deriving Decidable

/-! ### The map is enough -/

section

variable {P P' : Bus} {ev : Event}

variable {t : ℕ}

theorem reaches_of_lookup {channel : String} (hlookup : P.shared.sidecars.lookup channel = some t)
    (hopen : P.thread t ≠ .closed) : Reaches P channel t := by
  rintro hfree msg rfl hwritten
  have houtbound : busStep P (.outbound msg) =
      some { P with shared := { P.shared with outbound := some (t, msg) } } := by
    simp [busStep, hfree, hlookup]
  refine ⟨{ P with shared := { (({ P.shared with outbound := some (t, msg) } : Shared).write t true
    msg) with outbound := none } }, ?_, ?_⟩
  · rw [run, houtbound, Option.bind_some]
    simp [busStep, hopen, run]
  · simp [Shared.write, hwritten]

theorem routed_iff : Routed P ↔ ∀ channel t,
    lastRegistered P.shared.registered channel = some t → (P.thread t).serves = some channel →
    P.shared.sidecars.lookup channel = some t := by
  constructor
  · intro h channel t hlast hserves
    exact (h channel t hlast hserves).1
  · intro h channel t hlast hserves
    refine ⟨h channel t hlast hserves, reaches_of_lookup (h channel t hlast hserves) ?_⟩
    intro hclosed
    rw [hclosed] at hserves
    cases hserves

theorem ConnMove.sidecars {s s' : Shared} {p q : Conn} {c : Choice} (h : ConnMove s t p c s' q) :
    (∃ reg, p = .register reg ∧ q = .ack reg ∧ s' = s.register reg.channel t) ∨
    (∃ channel, p = .unregister channel ∧ c = .go ∧ q = .closing ∧ s' = s.unregister channel) ∨
    (s'.sidecars = s.sidecars ∧ s'.registered = s.registered ∧ q.serves = p.serves ∧
      ∀ channel, p ≠ .unregister channel) := by
  cases h with
  | register reg => exact .inl ⟨reg, rfl, rfl, rfl⟩
  | unregister channel => exact .inr (.inl ⟨channel, rfl, rfl, rfl, rfl⟩)
  | quiet hsame hserves _ hp =>
    exact .inr (.inr ⟨hsame.sidecars, hsame.registered, hserves, hp.2⟩)
  | retry =>
    refine .inr (.inr ⟨rfl, rfl, ?_, by simp⟩)
    split
    · rfl
    · split_ifs <;> rfl
  | append | sendOk | sendErr | complete | markDLQ | putDLQ =>
    exact .inr (.inr ⟨rfl, rfl, rfl, by simp⟩)

theorem ReplayMove.sidecars {s s' : Shared} {m : Main} {c : Choice} (h : ReplayMove s m c s') :
    s'.sidecars = s.sidecars ∧ s'.registered = s.registered := by
  cases h <;> exact ⟨rfl, rfl⟩

theorem unregisters_eq_none (h : ∀ channel, P.thread t ≠ .unregister channel) (c : Choice) :
    unregisters P (.act t c) = none := by
  cases c with
  | go =>
    show (match P.thread t with
      | .unregister channel => some (t, channel)
      | _ => none) = none
    split
    · next channel hch => exact absurd hch (h channel)
    · rfl
  | _ => rfl

/-! ### One step -/

theorem Routed.frame (h : Routed P) (hsidecars : P'.shared.sidecars = P.shared.sidecars)
    (hregistered : P'.shared.registered = P.shared.registered)
    (hserves : ∀ u channel, (P'.thread u).serves = some channel →
      (P.thread u).serves = some channel) : Routed P' := by
  rw [routed_iff] at h ⊢
  intro channel u hlast hu
  rw [hsidecars]
  exact h channel u (hregistered ▸ hlast) (hserves u channel hu)

theorem routed_register {reg : Message} (h : Routed P) :
    Routed (P.advance t { shared := P.shared.register reg.channel t
                          next := .ack reg
                          spawn := none }) := by
  rw [routed_iff] at h ⊢
  intro channel u hlast hu
  have hlast' : (if reg.channel = channel then some t
      else lastRegistered P.shared.registered channel) = some u := by
    rwa [← lastRegistered_concat]
  have hmap : ∀ c, ((P.shared.register reg.channel t).sidecars).lookup c =
      if c = reg.channel then some t else P.shared.sidecars.lookup c := by
    intro c
    show (P.shared.sidecars.insert reg.channel t).lookup c = _
    split_ifs with hc
    · rw [hc, Finmap.lookup_insert]
    · exact Finmap.lookup_insert_of_ne _ hc
  rw [Pool.advance_shared, hmap]
  by_cases hc : channel = reg.channel
  · rw [if_pos hc]
    rwa [if_pos hc.symm] at hlast'
  · rw [if_neg hc]
    rw [if_neg (Ne.symm hc)] at hlast'
    refine h channel u hlast' ?_
    -- the new connection serves only the channel it registered for
    by_cases hut : u = t
    · subst hut
      rw [Pool.advance_thread_none, update_self] at hu
      have hserves : some reg.channel = some channel := hu
      exact absurd (Option.some.inj hserves).symm hc
    · rwa [Pool.advance_thread_none, update_of_ne hut] at hu

theorem routed_unregister_iff {channel : String} (h : Routed P) :
    Routed (P.advance t { shared := P.shared.unregister channel
                          next := .closing
                          spawn := none }) ↔
      ∀ u, lastRegistered P.shared.registered channel = some u →
        u = t ∨ (P.thread u).serves ≠ some channel := by
  rw [routed_iff] at h ⊢
  rw [Pool.advance_thread_none]
  constructor
  · intro hrouted u hlast
    by_contra! hne
    have hlookup := hrouted channel u hlast (by rw [update_of_ne hne.1]; exact hne.2)
    rw [Pool.advance_shared, Shared.unregister, Finmap.lookup_erase] at hlookup
    cases hlookup
  · intro hothers c u hlast hu
    have hut : u ≠ t := by
      rintro rfl
      rw [update_self] at hu
      cases hu
    rw [update_of_ne hut] at hu
    by_cases hc : c = channel
    · subst hc
      rcases hothers u hlast with rfl | hserves
      · exact absurd rfl hut
      · exact absurd hu hserves
    · rw [Pool.advance_shared, Shared.unregister, Finmap.lookup_erase_ne hc]
      exact h c u hlast hu

/-- **A step keeps the sidecars reachable exactly when it unregisters only its own
connection.** -/
theorem busStep_routed_iff (h : Routed P) (hs : busStep P ev = some P') :
    Routed P' ↔ UnregistersOwn P ev := by
  have hnone (hev : unregisters P ev = none) : UnregistersOwn P ev := by
    simp [UnregistersOwn, hev]
  cases busStep_move hs with
  | accept =>
    refine iff_of_true (h.frame rfl rfl fun u channel hu => ?_) (hnone rfl)
    by_cases hsize : u = P.size
    · rw [hsize, Pool.go_thread_size] at hu
      cases hu
    · rwa [Pool.go_thread_of_ne _ _ hsize] at hu
  | @act t c s' q ht hmove =>
    rcases hmove.sidecars with ⟨reg, hp, rfl, rfl⟩ | ⟨channel, hp, rfl, rfl, rfl⟩ |
      ⟨hsidecars, hregistered, hserves, hp⟩
    · refine iff_of_true (routed_register h) (hnone (unregisters_eq_none ?_ c))
      simp [hp]
    · have hev : unregisters P (.act t .go) = some (t, channel) := by simp [unregisters, hp]
      rw [routed_unregister_iff h]
      simp [UnregistersOwn, hev]
    · refine iff_of_true (h.frame ?_ ?_ fun u channel hu => ?_) (hnone (unregisters_eq_none hp c))
      · rw [Pool.advance_shared, hsidecars]
      · rw [Pool.advance_shared, hregistered]
      · rw [Pool.advance_thread_none] at hu
        by_cases hut : u = t
        · subst hut
          rwa [update_self, hserves] at hu
        · rwa [update_of_ne hut] at hu
  | @replay c s' hmove =>
    obtain ⟨hsidecars, hregistered⟩ := hmove.sidecars
    exact iff_of_true (h.frame hsidecars hregistered fun _ _ hu => hu) (hnone rfl)
  | quiet hev hsame =>
    refine iff_of_true (h.frame hsame.sidecars hsame.registered fun _ _ hu => hu) (hnone ?_)
    cases ev with
    | act => cases hev
    | _ => rfl
  | compact => exact iff_of_true (h.frame rfl rfl fun _ _ hu => hu) (hnone rfl)
  | restart =>
    refine iff_of_true ?_ (hnone rfl)
    intro channel u hlast hu
    cases hu

/-- **The last sidecar registered for a channel is reachable exactly when no `Unregister` takes
the place of another that is still open.** -/
theorem routed_along_iff {config : RouterConfig} {es : List Event} {P : Bus}
    (h : run busStep (started config) es = some P) :
    Along busStep Routed (started config) es ↔
      Meets busStep UnregistersOwn (started config) es := by
  have hstarted : Routed (started config) := by
    intro channel u hlast hu
    cases hu
  exact Lib.along_iff_meets (fun _ _ _ _ _ => trivial)
    (fun _ _ _ _ hP hs => busStep_routed_iff hP hs) trivial hstarted h

/-- A sidecar disconnects, and connects again after its first connection has ended. -/
theorem routed_along_reconnect :
    Along busStep Routed (started smallConfig)
      (.replay .go :: registers 0 "slack" ++ [.act 0 .err, .act 0 .go, .act 0 .go] ++
        registers 1 "slack") :=
  (routed_along_iff (Option.some_get (by decide +kernel)).symm).2 (by decide +kernel)

/-- A sidecar connects again before its first connection has ended; then that one ends. -/
def reconnected : List Event :=
  .replay .go :: registers 0 "slack" ++ registers 1 "slack" ++ [.act 0 .err, .act 0 .go]

/-- **Connection 1 is the last to register, and in its read loop, but the map has no sidecar for
the channel.** -/
theorem reconnected_unrouted :
    ∃ P ∈ run busStep (started smallConfig) reconnected,
      lastRegistered P.shared.registered "slack" = some 1 ∧ P.thread 1 = .read "slack" ∧
        P.shared.sidecars.lookup "slack" = none := by
  decide +kernel

end

end K8s4Claw.IpcBus
