/-
# What steps do to the signals between bus and client

A slow_down or resume goes from `HandleInbound`, which is about to write it, over the
connection to a `readLoop`, which is about to handle it.  Of a step of the bus or of the
client only this matters for the agreement of the two; `busStep_flow` and `act_flow` say what
the steps do to it.
-/

import K8s4Claw.Backpressure.Link
import K8s4Claw.IpcBus.Moves
import K8s4Claw.Sdk.Moves

namespace K8s4Claw

open List

/-- What a message tells the client: to throttle, to go on, or nothing of the kind. -/
def MessageType.signal : MessageType → Option Bool
  | .slowDown => some true
  | .resume => some false
  | _ => none

/-- The signal a `HandleInbound` is about to write. -/
def IpcBus.Conn.signal : IpcBus.Conn → Option Bool
  | .handle _ _ .slowDown => some true
  | .handle _ _ .resume => some false
  | _ => none

/-- The channel a connection is for, once its registration has been read. -/
def IpcBus.Conn.channel : IpcBus.Conn → Option String
  | .register reg | .ack reg => some reg.channel
  | .read channel | .handle channel _ _ | .unregister channel => some channel
  | _ => none

/-- The signal a `readLoop` has read and not handled. -/
def Sdk.Thread.signal : Sdk.Thread → Option Bool
  | .read _ (.handle _ msg) => msg.type.signal
  | _ => none

namespace Backpressure

/-- The signals among some messages, in order. -/
def signals (msgs : List IpcBus.Message) : List Bool := msgs.filterMap fun m => m.type.signal

@[simp]
theorem signals_nil : signals [] = [] := rfl

@[simp]
theorem signals_append (l m : List IpcBus.Message) : signals (l ++ m) = signals l ++ signals m := by
  simp [signals]

/-- The buffer of the channel is in the state `slowDown`. -/
def Slowed (channel : String) (s : IpcBus.Shared) : Prop :=
  (s.buffers.lookup channel).map IpcBus.RingBuffer.state = some .slowDown
  deriving Decidable

section Bus

open IpcBus (Bus Choice Conn ConnStep InboundPc Message RingBuffer Shared)

/-- The channel whose buffer a `HandleInbound` is about to pop. -/
def popping : Conn → Option String
  | .handle channel _ .pop => some channel
  | _ => none

/-- The next step of a connection at `p` takes the buffer of the channel back to `normal`. -/
def Resumes (channel : String) (s : Shared) (p : Conn) : Prop :=
  popping p = some channel ∧
    (s.buffers.lookup channel).map (fun buf => buf.pop.2.2) = some true
  deriving Decidable

/-- What a step of a `handleConn` does to its signals. -/
inductive ConnFlow (s : Shared) (t : ℕ) (p : Conn) (c : Choice) (s' : Shared) (q : Conn) :
    Prop where
  | steady (news : List Message) (hout : s'.outbox = s.outbox ++ news.map (t, ·))
      (hsig : signals news ++ q.signal.toList = p.signal.toList)
      (hslow : ∀ channel, Slowed channel s' ↔ Slowed channel s)
  | slows (channel : String) (hp : p.channel = some channel) (hout : s'.outbox = s.outbox)
      (hslow : Slowed channel s') (hother : ∀ c, c ≠ channel → (Slowed c s' ↔ Slowed c s))
  | resumes (channel : String) (hp : p.channel = some channel) (hc : c = .go)
      (hout : s'.outbox = s.outbox) (hres : Resumes channel s p) (hsig : p.signal = none)
      (hq : q.signal = some false) (hother : ∀ c, c ≠ channel → (Slowed c s' ↔ Slowed c s))
  | fails (k : Bool) (hp : p.signal = some k) (hq : q.signal = none) (hout : s'.outbox = s.outbox)
      (hslow : ∀ channel, Slowed channel s' ↔ Slowed channel s)
      (hc : ∃ uuid now ok channel, p.channel = some channel ∧ c = .write uuid now ok ∧
        IpcBus.written ok (.newMessage uuid now (if k then .slowDown else .resume) channel none) =
          false)

variable {s : Shared} {t : ℕ} {p : Conn} {c : Choice} {e : ConnStep}

variable {s' : Shared} {channel : String} {buf : RingBuffer Message} {q : Conn} {msg : Message}
  {P P' : Bus} {ev : IpcBus.Event}

variable {s : Shared} {ok : Bool}

theorem slowed_of_buffers_eq (h : s'.buffers = s.buffers) (channel : String) :
    Slowed channel s' ↔ Slowed channel s := by
  unfold Slowed
  rw [h]

theorem slowed_insert_self :
    Slowed channel { s with buffers := s.buffers.insert channel buf } ↔ buf.state = .slowDown := by
  unfold Slowed
  simp

theorem slowed_insert_of_ne {c : String} (h : c ≠ channel) :
    Slowed c { s with buffers := s.buffers.insert channel buf } ↔ Slowed c s := by
  unfold Slowed
  rw [Finmap.lookup_insert_of_ne _ h]

theorem slowed_insert_of_state_eq {buf' : RingBuffer Message}
    (hbuf : s.buffers.lookup channel = some buf) (hstate : buf'.state = buf.state) (c : String) :
    Slowed c { s with buffers := s.buffers.insert channel buf' } ↔ Slowed c s := by
  by_cases hc : c = channel
  · subst hc
    rw [slowed_insert_self, hstate]
    unfold Slowed
    rw [hbuf]
    simp
  · exact slowed_insert_of_ne hc

theorem slowed_write (conn : ℕ) (ok : Bool) (msg : Message) (channel : String) :
    Slowed channel (s.write conn ok msg) ↔ Slowed channel s := by
  exact slowed_of_buffers_eq (s.write_buffers conn ok msg) channel

/-- The step starts no goroutine and leaves the message of the outbound loop alone. -/
def Plain (s : Shared) (e : ConnStep) : Prop := e.spawn = none ∧ e.shared.outbound = s.outbound

theorem plain_write : Plain s { shared := s.write t ok msg, next := q, spawn := none } :=
  ⟨rfl, s.write_outbound t ok msg⟩

theorem flow_of_goOn (h : IpcBus.goOn s' q = some e) (hslot : s'.outbound = s.outbound)
    (hout : s'.outbox = s.outbox) (hslow : ∀ channel, Slowed channel s' ↔ Slowed channel s)
    (hsig : q.signal = p.signal) : Plain s e ∧ ConnFlow s t p c e.shared e.next := by
  obtain rfl := IpcBus.eq_of_goOn h
  exact ⟨⟨rfl, hslot⟩, .steady [] (by simpa using hout) (by rw [hsig]; rfl) hslow⟩

theorem flow_of_write (h : IpcBus.goOn (s.write t ok msg) q = some e)
    (hmsg : msg.type.signal = none) (hsig : q.signal = p.signal) :
    Plain s e ∧ ConnFlow s t p c e.shared e.next := by
  obtain rfl := IpcBus.eq_of_goOn h
  refine ⟨plain_write, .steady (if IpcBus.written ok msg then [msg] else []) ?_ ?_
    (slowed_write t ok msg)⟩
  · rw [Shared.write_outbox]
    split_ifs <;> rfl
  · rw [hsig]
    split_ifs <;> simp [signals, hmsg]

theorem flow_of_signal {k : Bool} {uuid : String} {now : Lib.Time} (h : IpcBus.goOn (s.write t ok
      (.newMessage uuid now (if k then .slowDown else .resume) channel none)) q = some e)
    (hp : p.signal = some k) (hchannel : p.channel = some channel) (hq : q.signal = none)
    (hc : c = .write uuid now ok) : Plain s e ∧ ConnFlow s t p c e.shared e.next := by
  obtain rfl := IpcBus.eq_of_goOn h
  refine ⟨plain_write, ?_⟩
  cases hw : IpcBus.written ok
      (.newMessage uuid now (if k then .slowDown else .resume) channel none) with
  | true =>
    refine .steady [.newMessage uuid now (if k then .slowDown else .resume) channel none] ?_ ?_
      (slowed_write _ _ _)
    · rw [Shared.write_outbox, hw]
      rfl
    · rw [hp, hq]
      cases k <;> rfl
  | false =>
    refine .fails k hp hq ?_ (slowed_write _ _ _) ⟨uuid, now, ok, channel, hchannel, hc, hw⟩
    rw [Shared.write_outbox, hw]
    simp

theorem inboundStep_flow {pc : InboundPc} (h : IpcBus.inboundStep s t channel msg pc c = some e) :
    Plain s e ∧ ConnFlow s t (.handle channel msg pc) c e.shared e.next := by
  have hsame (c : String) : Slowed c s ↔ Slowed c s := Iff.rfl
  unfold IpcBus.inboundStep at h
  split at h
  case h_1 =>
    split_ifs at h
    exact flow_of_goOn h rfl rfl hsame rfl
  case h_2 =>
    split_ifs at h
    exact flow_of_write h rfl rfl
  case h_3 =>
    split_ifs at h
    exact flow_of_goOn h rfl rfl (slowed_of_buffers_eq rfl) rfl
  case h_4 =>
    split at h
    · exact flow_of_goOn h rfl rfl hsame rfl
    · next buf hbuf =>
      replace h : IpcBus.goOn { s with buffers := s.buffers.insert channel (buf.push msg).1 }
        (.handle channel msg (if (buf.push msg).2.2 then .slowDown else .send)) = some e := h
      cases hch : (buf.push msg).2.2 with
      | true =>
        obtain rfl := IpcBus.eq_of_goOn h
        refine ⟨⟨rfl, rfl⟩, .slows channel rfl rfl ?_ fun c hc => slowed_insert_of_ne hc⟩
        rw [slowed_insert_self, RingBuffer.push_state, hch]
        rfl
      | false =>
        rw [hch] at h
        refine flow_of_goOn h rfl rfl (slowed_insert_of_state_eq hbuf ?_) rfl
        rw [RingBuffer.push_state, hch]
        rfl
  case h_5 => exact flow_of_signal (k := true) h rfl rfl rfl rfl
  case h_9 =>
    split at h
    · exact flow_of_goOn h rfl rfl hsame rfl
    · next buf hbuf =>
      replace h : IpcBus.goOn { s with buffers := s.buffers.insert channel buf.pop.1 }
        (if buf.pop.2.2 then .handle channel msg .resume else .read channel) = some e := h
      cases hch : buf.pop.2.2 with
      | true =>
        rw [hch] at h
        obtain rfl := IpcBus.eq_of_goOn h
        refine ⟨⟨rfl, rfl⟩, .resumes channel rfl rfl rfl ⟨rfl, ?_⟩ rfl rfl
          fun c hc => slowed_insert_of_ne hc⟩
        rw [hbuf, Option.map_some, hch]
      | false =>
        rw [hch] at h
        refine flow_of_goOn h rfl rfl (slowed_insert_of_state_eq hbuf ?_) rfl
        rw [RingBuffer.pop_state, hch]
        rfl
  case h_10 => exact flow_of_signal (k := false) h rfl rfl rfl rfl
  case h_11 =>
    refine flow_of_goOn h rfl rfl (slowed_of_buffers_eq rfl) ?_
    split
    · rfl
    · split_ifs <;> rfl
  case h_14 => cases h
  all_goals exact flow_of_goOn h rfl rfl (slowed_of_buffers_eq rfl) rfl

theorem slowed_register (channel : String) (conn : ℕ) (c : String) :
    Slowed c (s.register channel conn) ↔ Slowed c s := by
  by_cases hmem : channel ∈ s.buffers
  · refine slowed_of_buffers_eq ?_ c
    simp [Shared.register, hmem]
  · unfold Slowed
    simp only [Shared.register, if_neg hmem]
    by_cases hc : c = channel
    · subst hc
      rw [Finmap.lookup_eq_none.mpr hmem]
      simp [RingBuffer.newRingBuffer]
    · rw [Finmap.lookup_insert_of_ne _ hc]

/-- **What a step of a `handleConn` does to its signals.** -/
theorem connStep_flow (h : IpcBus.connStep s t p c = some e) :
    Plain s e ∧ ConnFlow s t p c e.shared e.next := by
  have hsame (c : String) : Slowed c s ↔ Slowed c s := Iff.rfl
  unfold IpcBus.connStep at h
  split at h
  case h_1 =>
    refine flow_of_goOn h rfl rfl hsame ?_
    split_ifs <;> rfl
  case h_3 => exact flow_of_goOn h rfl rfl (slowed_register _ _) rfl
  case h_4 =>
    refine flow_of_write h rfl ?_
    split_ifs <;> rfl
  case h_7 => exact inboundStep_flow h
  case h_8 => exact flow_of_goOn h rfl rfl (slowed_of_buffers_eq rfl) rfl
  case h_10 => cases h
  all_goals exact flow_of_goOn h rfl rfl hsame rfl

theorem inboundStep_channel {pc : InboundPc}
    (h : IpcBus.inboundStep s t channel msg pc c = some e) : e.next.channel = some channel := by
  obtain ⟨-, hmove⟩ := IpcBus.inboundStep_move h
  generalize e.shared = s', e.next = q at hmove ⊢
  cases hmove with
  | retry =>
    split
    · rfl
    · split_ifs <;> rfl
  | quiet _ hserves =>
    unfold Conn.serves at hserves
    split at hserves
    · exact hserves
    · exact hserves
    · exact hserves
    · exact hserves
    · cases hserves
  | _ => rfl

theorem connStep_channel (h : IpcBus.connStep s t p c = some e)
    (hq : e.next.channel = some channel) :
    p.channel = some channel ∨ p = .accepted ∧ ∃ msg, c = .recv msg ∧ msg.channel = channel := by
  have hnext {s' : Shared} {q : Conn} (hgo : IpcBus.goOn s' q = some e) :
      q.channel = some channel := by
    obtain rfl := IpcBus.eq_of_goOn hgo
    exact hq
  unfold IpcBus.connStep at h
  split at h
  · next msg =>
    have hreg := hnext h
    split_ifs at hreg
    · exact .inr ⟨rfl, msg, rfl, Option.some.inj hreg⟩
    · cases hreg
  · exact absurd (hnext h) (by simp [Conn.channel])
  · have hreg := hnext h
    exact .inl hreg
  · have hack := hnext h
    split_ifs at hack <;> exact .inl hack
  · have hread := hnext h
    exact .inl hread
  · have hread := hnext h
    exact .inl hread
  · exact .inl ((inboundStep_channel h).symm.trans hq)
  · exact absurd (hnext h) (by simp [Conn.channel])
  · exact absurd (hnext h) (by simp [Conn.channel])
  · cases h

/-! ### Steps of the whole bus -/

theorem news_of_append {ws : List (ℕ × Message)} (h : s'.outbox = s.outbox ++ ws) (b : ℕ) :
    news s s' b = (ws.filter fun w => w.1 = b).map Prod.snd := by
  unfold news
  rw [h, drop_left]

theorem news_of_eq (h : s'.outbox = s.outbox) (b : ℕ) : news s s' b = [] := by
  have happend : s'.outbox = s.outbox ++ [] := by rw [h, append_nil]
  rw [news_of_append happend]
  rfl

/-- What was about to be written to connection `b` has been written or still is about to be. -/
def Keeps (P P' : Bus) (b : ℕ) : Prop :=
  signals (news P.shared P'.shared b) ++ (P'.thread b).signal.toList = (P.thread b).signal.toList

theorem keeps_of_eq {b : ℕ} (hnews : news P.shared P'.shared b = [])
    (hb : (P'.thread b).signal = (P.thread b).signal) : Keeps P P' b := by
  unfold Keeps
  rw [hnews, hb]
  rfl

theorem keeps_of_append {b : ℕ} {ws : List (ℕ × Message)}
    (hout : P'.shared.outbox = P.shared.outbox ++ ws) (hws : ∀ w ∈ ws, w.2.type.signal = none)
    (hb : (P'.thread b).signal = (P.thread b).signal) : Keeps P P' b := by
  have hnone : signals (news P.shared P'.shared b) = [] := by
    rw [news_of_append hout, signals, filterMap_eq_nil_iff]
    intro m hm
    obtain ⟨w, hw, rfl⟩ := mem_map.mp hm
    exact hws w (mem_of_mem_filter hw)
  unfold Keeps
  rw [hnone, hb]
  rfl

/-- What a step of the bus does to the signals of its connections and to the buffer of one
channel. -/
inductive BusFlow (channel : String) (P : Bus) (ev : IpcBus.Event) (P' : Bus) : Prop where
  | steady (hsig : ∀ b < P.size, Keeps P P' b)
      (hslow : Slowed channel P'.shared ↔ Slowed channel P.shared)
  | slows (hslow : Slowed channel P'.shared)
  | elsewhere (t : ℕ) (c : String) (hc : c ≠ channel) (ht : (P.thread t).channel = some c)
      (hsig : ∀ b < P.size, b ≠ t → Keeps P P' b)
      (hslow : Slowed channel P'.shared ↔ Slowed channel P.shared)
  | resumes (t : ℕ) (hev : ev = .act t .go) (hres : Resumes channel P.shared (P.thread t))
      (hnews : news P.shared P'.shared t = []) (hp : (P.thread t).signal = none)
      (hq : (P'.thread t).signal = some false) (hsig : ∀ b < P.size, b ≠ t → Keeps P P' b)
  | fails (t : ℕ) (k : Bool) (uuid : String) (now : Lib.Time) (ok : Bool)
      (hev : ev = .act t (.write uuid now ok)) (hp : (P.thread t).signal = some k)
      (hw : IpcBus.written ok
        (.newMessage uuid now (if k then .slowDown else .resume) channel none) = false)
      (hnews : news P.shared P'.shared t = []) (hq : (P'.thread t).signal = none)
      (hsig : ∀ b < P.size, b ≠ t → Keeps P P' b)
      (hslow : Slowed channel P'.shared ↔ Slowed channel P.shared)
  | restart (order : List String) (hev : ev = .restart order)
      (hall : ∀ b, news P.shared P'.shared b = [] ∧ (P'.thread b).signal = none)

theorem ConnFlow.busFlow {t : ℕ} (ht : t < P.size) {c : Choice}
    (h : ConnFlow P.shared t (P.thread t) c s' q) (channel : String) :
    BusFlow channel P (.act t c) (P.advance t { shared := s', next := q, spawn := none }) := by
  have hself : (P.advance t { shared := s', next := q, spawn := none }).thread t = q :=
    Lib.Pool.advance_thread_self ht _
  -- a step of connection `t` writes to no other connection
  have hother (ws : List Message) (hout : s'.outbox = P.shared.outbox ++ ws.map (t, ·)) :
      ∀ b < P.size, b ≠ t →
        Keeps P (P.advance t { shared := s', next := q, spawn := none }) b := by
    intro b hb hne
    refine keeps_of_eq ?_ (by rw [Lib.Pool.advance_thread_of_ne hb hne])
    rw [Lib.Pool.advance_shared, news_of_append hout, map_eq_nil_iff, filter_eq_nil_iff]
    intro w hw
    obtain ⟨m, -, rfl⟩ := mem_map.mp hw
    simpa using hne.symm
  have hquiet (hout : s'.outbox = P.shared.outbox) : ∀ b < P.size, b ≠ t →
      Keeps P (P.advance t { shared := s', next := q, spawn := none }) b :=
    hother [] (by simpa using hout)
  cases h with
  | steady ws hout hsig hslow =>
    refine .steady (fun b hb => ?_) (by simpa using hslow channel)
    by_cases hbt : b = t
    · subst hbt
      unfold Keeps
      rw [hself, Lib.Pool.advance_shared, news_of_append hout, ← hsig]
      simp [filter_map, Function.comp_def]
    · exact hother ws hout b hb hbt
  | slows c hp hout hslow hne =>
    by_cases hc : c = channel
    · subst hc
      exact .slows (by simpa using hslow)
    · exact .elsewhere t c hc hp (hquiet hout) (by simpa using hne channel (Ne.symm hc))
  | resumes c hp hgo hout hres hsig hq hne =>
    by_cases hc : c = channel
    · subst hc
      exact .resumes t (by rw [hgo]) hres (news_of_eq (by simpa using hout) t) hsig
        (by rw [hself, hq]) (hquiet hout)
    · exact .elsewhere t c hc hp (hquiet hout) (by simpa using hne channel (Ne.symm hc))
  | fails k hp hq hout hslow hc =>
    obtain ⟨uuid, now, ok, c, hch, rfl, hw⟩ := hc
    by_cases hc : c = channel
    · subst hc
      exact .fails t k uuid now ok rfl hp hw (news_of_eq (by simpa using hout) t)
        (by rw [hself, hq]) (hquiet hout) (by simpa using hslow c)
    · exact .elsewhere t c hc hch (hquiet hout) (by simpa using hslow channel)

/-- **What a step of the bus does to the signals**, if the message of the outbound loop is none. -/
theorem busStep_flow (channel : String) (hout : ∀ x ∈ P.shared.outbound, x.2.type.signal = none)
    (h : IpcBus.busStep P ev = some P') : BusFlow channel P ev P' := by
  cases IpcBus.busStep_move h with
  | accept =>
    refine .steady (fun b hb => keeps_of_eq (news_of_eq rfl b) ?_) Iff.rfl
    rw [Lib.Pool.go_thread_of_ne _ _ hb.ne]
  | act ht _ hstep => exact (connStep_flow hstep).2.busFlow ht channel
  | @replay c s' hmove =>
    have hsame : s'.outbox = P.shared.outbox ∧ s'.buffers = P.shared.buffers := by
      generalize P.shared.main = m at hmove
      cases hmove <;> exact ⟨rfl, rfl⟩
    exact .steady (fun b _ => keeps_of_eq (news_of_eq hsame.1 b) rfl)
      (slowed_of_buffers_eq hsame.2 channel)
  | quiet _ _ hwrites =>
    obtain ⟨hbuf, ws, hws, hfrom⟩ := hwrites
    refine .steady (fun b _ => keeps_of_append hws (fun w hw => ?_) rfl)
      (slowed_of_buffers_eq hbuf channel)
    rcases hfrom w hw with hw | hw
    · exact hout w hw
    · rw [hw]
      rfl
  | compact =>
    exact .steady (fun b _ => keeps_of_eq (news_of_eq rfl b) rfl) (slowed_of_buffers_eq rfl channel)
  | @restart order => exact .restart order rfl fun b => ⟨news_of_eq rfl b, rfl⟩

theorem busStep_channel {b : ℕ} (hb : b < P.size) (h : IpcBus.busStep P ev = some P')
    (hch : (P'.thread b).channel = some channel) :
    (P.thread b).channel = some channel ∨
      P.thread b = .accepted ∧ ∃ msg, ev = .act b (.recv msg) ∧ msg.channel = channel := by
  cases IpcBus.busStep_move h with
  | accept =>
    rw [Lib.Pool.go_thread_of_ne _ _ hb.ne] at hch
    exact .inl hch
  | @act t c s' q ht _ hstep =>
    by_cases hbt : b = t
    · subst hbt
      rw [Lib.Pool.advance_thread_self ht] at hch
      rcases connStep_channel hstep hch with hp | ⟨hp, msg, rfl, hmsg⟩
      · exact .inl hp
      · exact .inr ⟨hp, msg, rfl, hmsg⟩
    · rw [Lib.Pool.advance_thread_of_ne hb hbt] at hch
      exact .inl hch
  | replay | quiet | compact => exact .inl hch
  | restart => cases hch

theorem busStep_size (h : IpcBus.busStep P ev = some P') : P.size ≤ P'.size := by
  cases IpcBus.busStep_move h with
  | accept => exact Nat.le_succ _
  | act => exact Lib.Pool.size_le_advance ..
  | _ => exact le_rfl

theorem busStep_outbound (h : IpcBus.busStep P ev = some P') :
    ∀ x ∈ P'.shared.outbound, x ∈ P.shared.outbound ∨ ev = .outbound x.2 := by
  cases IpcBus.busStep_move h with
  | act _ _ hstep =>
    rw [Lib.Pool.advance_shared]
    exact fun x hx => .inl ((connStep_flow hstep).1.2 ▸ hx)
  | @replay c s' hmove =>
    have hsame : s'.outbound = P.shared.outbound := by
      generalize P.shared.main = m at hmove
      cases hmove <;> rfl
    exact fun x hx => .inl (hsame ▸ hx)
  | quiet _ _ _ hslot => exact hslot
  | accept | compact => exact fun x hx => .inl hx
  | restart => simp

end Bus

section Client

open Sdk (Choice Client Message Shared Step Thread)

/-- The step of a goroutine takes away the current connection or puts another in its place. -/
def drops : Thread → Bool
  | .send _ (.mark _) | .read _ (.mark _) | .beat (.mark _) => true
  | .loop (.install _) => true
  | .close _ .conn => true
  | _ => false

/-- What a step of a goroutine of the client does to the signals: nothing, or it reads a message,
or it does what a signal says. -/
inductive ThreadFlow (s : Shared) (p : Thread) (c : Choice) (e : Step) : Prop where
  | steady (hthrottled : e.shared.throttled = s.throttled) (hp : p.signal = none)
      (hq : e.next.signal = none)
  | recv (born g : ℕ) (msg : Message) (hp : p = .read born (.recv g)) (hc : c = .recv msg)
      (he : e = ⟨s, .read born (.handle g msg), none⟩)
  | handles (k : Bool) (hp : p.signal = some k) (hthrottled : e.shared.throttled = k)
      (hq : e.next.signal = none)

variable {s s' : Shared} {p : Thread} {c : Choice} {e : Step} {g : ℕ}

theorem markDisconnected_throttled (g : ℕ) :
    (s.markDisconnected g).throttled = s.throttled := by
  unfold Shared.markDisconnected
  split <;> rfl

theorem signal_eq_none {t : MessageType} (hslow : t ≠ .slowDown) (hresume : t ≠ .resume) :
    t.signal = none := by
  unfold MessageType.signal
  split
  · exact absurd rfl hslow
  · exact absurd rfl hresume
  · rfl

/-- **What a step of a goroutine of the client does to the signals.** -/
theorem act_flow (h : Sdk.act s p c = some e) : ThreadFlow s p c e := by
  have hback {back : Option ℕ} : (Thread.resume back).signal = none := by cases back <;> rfl
  cases Sdk.act_acts h with
  | slowDown hty => exact .handles true (by simp [Thread.signal, hty, MessageType.signal]) rfl rfl
  | resumeTwice hty | resume hty =>
    exact .handles false (by simp [Thread.signal, hty, MessageType.signal]) rfl rfl
  | shutdown hty | deliver hty | deliverClosed hty | deliverFull hty =>
    exact .steady rfl (by simp [Thread.signal, hty, MessageType.signal]) rfl
  | skip hty => exact .steady rfl (by simp [Thread.signal, hty.1, MessageType.signal]) rfl
  | other hslow hresume => exact .steady rfl (signal_eq_none hslow hresume) rfl
  | @readRecv born g msg => exact .recv born g msg rfl rfl rfl
  | sendMark | readMark | beatMark => exact .steady (markDisconnected_throttled _) rfl rfl
  | sendRetry | readRetry | beatRetry =>
    unfold Shared.tryReconnect
    split_ifs <;> exact .steady rfl rfl rfl
  | closeAgain | closeInbound => exact .steady rfl rfl hback
  | _ => exact .steady rfl rfl rfl

theorem exists_of_signal_eq_some {k : Bool} (h : p.signal = some k) :
    ∃ born g msg, p = .read born (.handle g msg) := by
  unfold Thread.signal at h
  split at h
  · exact ⟨_, _, _, rfl⟩
  · cases h

theorem sameConn_of_signal {k : Bool} (h : Sdk.Move s p e) (hp : p.signal = some k) :
    Sdk.SameConn s e.shared ∧ e.spawn = none := by
  obtain ⟨born, g, msg, rfl⟩ := exists_of_signal_eq_some hp
  cases h with
  | stay hs => exact ⟨hs, rfl⟩
  | mark hp | retry hp | abandon hp => cases hp

theorem signal_of_spawn (h : Sdk.Move s p e) : ∀ q, e.spawn = some q → q.signal = none := by
  cases h with
  | retry =>
    unfold Shared.tryReconnect
    split_ifs <;> simp [Thread.signal]
  | startReader => simp [Thread.signal]
  | _ => simp

theorem usable_congr (hclosed : s'.closedConns = s.closedConns) (hlost : s'.lost = s.lost) (g : ℕ) :
    s'.usable g = s.usable g := by
  unfold Shared.usable
  rw [hclosed, hlost]

theorem usable_of_subset (hg : s'.usable g = true) (hclosed : s.closedConns ⊆ s'.closedConns)
    (hlost : s.lost ⊆ s'.lost) : s.usable g = true := by
  simp only [Shared.usable, Bool.and_eq_true, decide_eq_true_eq] at hg ⊢
  exact ⟨fun h => hg.1 (hclosed h), fun h => hg.2 (hlost h)⟩

theorem closedConns_markDisconnected (s : Shared) (g : ℕ) :
    s.closedConns ⊆ (s.markDisconnected g).closedConns := by
  unfold Shared.markDisconnected
  split
  · exact List.Subset.refl _
  · exact subset_cons_self ..

theorem tryReconnect_frame (s : Shared) (q : Thread) :
    (s.tryReconnect q).shared.conn = s.conn ∧
      (s.tryReconnect q).shared.closedConns = s.closedConns ∧
      (s.tryReconnect q).shared.lost = s.lost := by
  unfold Shared.tryReconnect
  split_ifs <;> exact ⟨rfl, rfl, rfl⟩

/-- Only a `dial` that goes through opens a connection. -/
theorem dials_of_act (h : Sdk.act s p c = some e) :
    p = .loop .dial ∧ c = .ok ∨ e.shared.dials = s.dials := by
  cases Sdk.act_move h with
  | stay hs => exact .inr hs.dials
  | mark => exact .inr (by simp)
  | retry =>
    refine .inr ?_
    unfold Shared.tryReconnect
    split_ifs <;> rfl
  | dial =>
    cases c with
    | ok => exact .inl ⟨rfl, rfl⟩
    | _ => simp [Sdk.act, Sdk.loopStep] at h
  | _ => exact .inr rfl

/-- No step makes a connection usable again. -/
theorem usable_of_move (h : Sdk.Move s p e) (hg : e.shared.usable g = true) :
    s.usable g = true := by
  cases h with
  | stay hs => rwa [usable_congr hs.closedConns hs.lost] at hg
  | mark => exact usable_of_subset hg (closedConns_markDisconnected s _) (by simp)
  | @retry _ q =>
    obtain ⟨-, hclosed, hlost⟩ := tryReconnect_frame s q
    rwa [usable_congr hclosed hlost] at hg
  | abandon | closeConn => exact usable_of_subset hg (subset_cons_self ..) (List.Subset.refl _)
  | _ => exact hg

/-- The current connection, unless it is closed or lost. -/
def usableConn (s : Shared) : Option ℕ := s.conn.filter fun g => s.usable g

theorem usableConn_congr (hconn : s'.conn = s.conn) (hclosed : s'.closedConns = s.closedConns)
    (hlost : s'.lost = s.lost) : usableConn s' = usableConn s := by
  unfold usableConn
  rw [hconn]
  exact congrArg s.conn.filter (funext fun g => usable_congr hclosed hlost g)

theorem mem_usableConn : g ∈ usableConn s ↔ s.conn = some g ∧ s.usable g = true := by
  unfold usableConn
  simp [Option.filter_eq_some_iff]

theorem usableConn_lose (hcur : usableConn s ≠ some g) :
    usableConn { s with lost := g :: s.lost } = usableConn s := by
  refine Option.ext fun h => ?_
  rw [← Option.mem_def, ← Option.mem_def, mem_usableConn, mem_usableConn]
  refine and_congr_right fun hconn => ⟨fun hh => ?_, fun hh => ?_⟩
  · exact usable_of_subset hh (List.Subset.refl _) (subset_cons_self ..)
  · have hne : h ≠ g := fun heq => hcur (heq ▸ mem_usableConn.mpr ⟨hconn, hh⟩)
    simp only [Shared.usable, Bool.and_eq_true] at hh ⊢
    exact ⟨hh.1, by simp [hne, hh.2]⟩

theorem drops_of_atMark (h : p.atMark = some g) : drops p = true := by
  unfold Thread.atMark at h
  split at h
  · rfl
  · rfl
  · rfl
  · cases h

theorem usableConn_of_move (h : Sdk.Move s p e) (hdrop : drops p = false)
    (hpending : ∀ g, p.pending = some g → s.conn ≠ some g) :
    usableConn e.shared = usableConn s := by
  cases h with
  | stay hs => exact usableConn_congr hs.conn hs.closedConns hs.lost
  | mark hp =>
    rw [drops_of_atMark hp] at hdrop
    cases hdrop
  | @retry _ q =>
    obtain ⟨hconn, hclosed, hlost⟩ := tryReconnect_frame s q
    exact usableConn_congr hconn hclosed hlost
  | @abandon _ g hp =>
    -- the connection given up is not the current one
    refine Option.ext fun h => ?_
    rw [← Option.mem_def, ← Option.mem_def, mem_usableConn, mem_usableConn]
    refine and_congr_right fun hconn => ?_
    have hne : h ≠ g := fun heq => hpending g hp (heq ▸ hconn)
    simp [Shared.usable, hne]
  | install | closeConn => cases hdrop
  | _ => rfl

end Client

end Backpressure
end K8s4Claw
