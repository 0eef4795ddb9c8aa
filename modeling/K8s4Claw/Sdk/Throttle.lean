/-
# The throttle channel of the client

`handleMessage` of `sdk/channel/client.go` makes a new `throttleCh` on slow_down
and closes the current one on resume; a `Send` that finds the client throttled
waits on the channel that is current at that moment.

Closing a closed channel panics.  The channel of a client is closed exactly when the last signal it
handled was a resume, so the runs without a panic are the ones in which no two resumes follow each
other without a slow_down between them (`closesOpen_iff_isChain`).

A slow_down that follows another leaves the old channel to the `Send`s waiting on it, and no resume
closes it any more (`noOrphan_along_iff`).
-/

import K8s4Claw.Sdk.Moves

namespace K8s4Claw.Sdk

open Lib List Option

/-- The message a `readLoop` is about to pass to `handleMessage`. -/
def Thread.handling : Thread → Option Message
  | .read _ (.handle _ msg) => some msg
  | _ => none

/-- The throttle channel a `Send` took when it entered and is waiting on. -/
def Thread.waiting : Thread → Option ℕ
  | .send _ (.wait ch) => some ch
  | _ => none

/-- The message a step of the client passes to `handleMessage`. -/
def handled (P : Client) : Event → Option Message
  | .act t _ => (P.thread t).handling
  | _ => none

/-- The current throttle channel is closed. -/
def Shared.shut (s : Shared) : Prop := s.throttleCh ∈ s.closedChs
  deriving Decidable

/-- The two states agree on the throttle channels. -/
structure SameThrottle (s s' : Shared) : Prop where
  throttleCh : s'.throttleCh = s.throttleCh
  closedChs : s'.closedChs = s.closedChs

theorem SameThrottle.refl (s : Shared) : SameThrottle s s := ⟨rfl, rfl⟩

/-- What a step of a goroutine does to the throttle channels: nothing; a `Send` enters and
takes the current one; or a `readLoop` handles one of the two signals. -/
inductive ThrottleMove (s : Shared) (p : Thread) (e : Step) : Prop where
  | steady (hs : SameThrottle s e.shared)
      (hq : ∀ ch, e.next.waiting = some ch → p.waiting = some ch)
      (hp : ∀ msg ∈ p.handling, msg.type ≠ .slowDown ∧ msg.type ≠ .resume)
  | enter (hs : e.shared = s) (hq : e.next.waiting = some s.throttleCh) (hp : p.handling = none)
  | slowDown (msg : Message) (hp : p.handling = some msg) (hty : msg.type = .slowDown)
      (hch : e.shared.throttleCh = s.throttleCh + 1) (hcl : e.shared.closedChs = s.closedChs)
      (hq : e.next.waiting = none)
  | resume (msg : Message) (hp : p.handling = some msg) (hty : msg.type = .resume)
      (hch : e.shared.throttleCh = s.throttleCh)
      (hcl : ∀ ch, ch ∈ e.shared.closedChs ↔ ch = s.throttleCh ∨ ch ∈ s.closedChs)
      (hq : e.next.waiting = none)

section Steps

variable {s : Shared} {p : Thread} {c : Choice} {e : Step}

theorem throttle_of_none (hs : SameThrottle s e.shared) (hq : e.next.waiting = none)
    (hp : p.handling = none) : ThrottleMove s p e := by
  refine .steady hs (fun ch hch => ?_) fun msg hmsg => ?_
  · rw [hq] at hch
    cases hch
  · rw [hp] at hmsg
    cases hmsg

theorem sameThrottle_markDisconnected (s : Shared) (g : ℕ) :
    SameThrottle s (s.markDisconnected g) := by
  unfold Shared.markDisconnected
  split <;> exact ⟨rfl, rfl⟩

theorem throttle_of_handle {born g : ℕ} {msg : Message} (hs : SameThrottle s e.shared)
    (hq : e.next.waiting = none) (h₁ : msg.type ≠ .slowDown) (h₂ : msg.type ≠ .resume) :
    ThrottleMove s (.read born (.handle g msg)) e := by
  refine .steady hs (fun ch hch => ?_) fun m hm => ?_
  · rw [hq] at hch
    cases hch
  · cases hm
    exact ⟨h₁, h₂⟩

/-- **What a step of a goroutine does to the throttle channels.** -/
theorem act_throttle (h : act s p c = some e) : ThrottleMove s p e := by
  have hback {back : Option ℕ} : (Thread.resume back).waiting = none := by cases back <;> rfl
  cases act_acts h with
  | sendThrottled => exact .enter rfl rfl rfl
  | @slowDown _ _ msg hty => exact .slowDown msg rfl hty rfl rfl rfl
  | @resumeTwice _ _ msg hty hcl =>
    refine .resume msg rfl hty rfl (fun ch => ?_) rfl
    constructor
    · exact .inr
    · rintro (rfl | hch)
      · exact hcl
      · exact hch
  | @resume _ _ msg hty => exact .resume msg rfl hty rfl (fun ch => mem_cons) rfl
  | shutdown hty | deliver hty | deliverClosed hty | deliverFull hty =>
    exact throttle_of_handle ⟨rfl, rfl⟩ rfl (by rw [hty]; decide) (by rw [hty]; decide)
  | skip hty =>
    exact throttle_of_handle ⟨rfl, rfl⟩ rfl (by rw [hty.1]; decide) (by rw [hty.1]; decide)
  | other h₁ h₂ => exact throttle_of_handle ⟨rfl, rfl⟩ rfl h₁ h₂
  | sendMark | readMark | beatMark =>
    exact throttle_of_none (sameThrottle_markDisconnected s _) rfl rfl
  | sendRetry | readRetry | beatRetry =>
    unfold Shared.tryReconnect
    split_ifs <;> exact throttle_of_none ⟨rfl, rfl⟩ rfl rfl
  | closeAgain | closeInbound => exact throttle_of_none ⟨rfl, rfl⟩ hback rfl
  | _ => exact throttle_of_none ⟨rfl, rfl⟩ rfl rfl

end Steps

section Runs

variable {P P' : Client} {ev : Event}

theorem handled_of_called {q : Thread} (h : ev.called = some q) : handled P ev = none := by
  cases ev with
  | act => cases h
  | _ => rfl

/-- **What a step of the client does to the throttle channels**, by the message it handles. -/
theorem clientStep_throttle (h : clientStep P ev = some P') :
    (SameThrottle P.shared P'.shared ∧
        ∀ msg ∈ handled P ev, msg.type ≠ .slowDown ∧ msg.type ≠ .resume) ∨
      (∃ msg ∈ handled P ev, msg.type = .slowDown ∧
        P'.shared.throttleCh = P.shared.throttleCh + 1 ∧
        P'.shared.closedChs = P.shared.closedChs) ∨
      ∃ msg ∈ handled P ev, msg.type = .resume ∧ P'.shared.throttleCh = P.shared.throttleCh ∧
        ∀ ch, ch ∈ P'.shared.closedChs ↔ ch = P.shared.throttleCh ∨ ch ∈ P.shared.closedChs := by
  cases clientStep_stepped h with
  | call hev =>
    refine .inl ⟨.refl P.shared, fun msg hmsg => ?_⟩
    rw [handled_of_called hev] at hmsg
    cases hmsg
  | receive | lose => exact .inl ⟨⟨rfl, rfl⟩, fun msg hmsg => by cases hmsg⟩
  | @act t c e ht he =>
    rw [Pool.advance_shared]
    cases act_throttle he with
    | steady hs _ hp => exact .inl ⟨hs, hp⟩
    | enter hs _ hp =>
      refine .inl ⟨hs ▸ .refl _, fun msg hmsg => ?_⟩
      rw [handled, hp] at hmsg
      cases hmsg
    | slowDown msg hp hty hch hcl => exact .inr (.inl ⟨msg, hp, hty, hch, hcl⟩)
    | resume msg hp hty hch hcl => exact .inr (.inr ⟨msg, hp, hty, hch, hcl⟩)

/-- A `Send` that waits after a step was waiting on that channel before, or entered in this
step and took the current one. -/
theorem waiting_of_clientStep (h : clientStep P ev = some P') {t ch : ℕ}
    (hw : (P'.thread t).waiting = some ch) :
    (P.thread t).waiting = some ch ∨ ch = P.shared.throttleCh ∧ P'.shared = P.shared := by
  cases clientStep_stepped h with
  | @call _ q hev =>
    left
    by_cases ht : t = P.size
    · subst ht
      rw [Pool.go_thread_size] at hw
      cases ev <;> cases hev <;> cases hw
    · rwa [Pool.go_thread_of_ne _ _ ht] at hw
  | receive | lose => exact .inl hw
  | @act u c e hu he =>
    rcases Pool.advance_thread_cases hu e t with ⟨rfl, heq⟩ | ⟨-, -, q, hq, heq⟩ | ⟨-, heq⟩
    · rw [heq] at hw
      cases act_throttle he with
      | steady _ hq => exact .inl (hq ch hw)
      | enter hs hq =>
        right
        rw [Pool.advance_shared]
        exact ⟨some.inj (hw.symm.trans hq), hs⟩
      | slowDown _ _ _ _ _ hq =>
        rw [hq] at hw
        cases hw
      | resume _ _ _ _ _ hq =>
        rw [hq] at hw
        cases hw
    · -- the goroutine was started in this step
      rw [heq] at hw
      rcases (act_move he).spawn_cases hq with rfl | ⟨g, rfl⟩ <;> cases hw
    · exact .inl (heq ▸ hw)

/-- Channels are numbered in the order they are made, so a closed one is not newer than the
current one. -/
def ChOrder (P : Client) : Prop := ∀ ch ∈ P.shared.closedChs, ch ≤ P.shared.throttleCh

theorem throttleCh_le_of_clientStep (h : clientStep P ev = some P') :
    P.shared.throttleCh ≤ P'.shared.throttleCh := by
  rcases clientStep_throttle h with ⟨hs, -⟩ | ⟨_, -, -, hch, -⟩ | ⟨_, -, -, hch, -⟩
  · exact hs.throttleCh.ge
  · omega
  · exact hch.ge

theorem ChOrder.clientStep (hP : ChOrder P) (h : clientStep P ev = some P') : ChOrder P' := by
  have hle := throttleCh_le_of_clientStep h
  intro ch hch
  rcases clientStep_throttle h with ⟨hs, -⟩ | ⟨_, -, -, -, hcl⟩ | ⟨_, -, -, -, hcl⟩
  · rw [hs.closedChs] at hch
    exact (hP ch hch).trans hle
  · rw [hcl] at hch
    exact (hP ch hch).trans hle
  · rcases (hcl ch).mp hch with rfl | hold
    · exact hle
    · exact (hP ch hold).trans hle

theorem chOrder_connected (n : ℤ) : ChOrder (connected n) :=
  fun _ hch => absurd hch not_mem_nil

/-- A channel that is closed stays closed. -/
theorem closedChs_subset_of_clientStep (h : clientStep P ev = some P') :
    P.shared.closedChs ⊆ P'.shared.closedChs := by
  intro ch hch
  rcases clientStep_throttle h with ⟨hs, -⟩ | ⟨_, -, -, -, hcl⟩ | ⟨_, -, -, -, hcl⟩
  · rwa [hs.closedChs]
  · rwa [hcl]
  · exact (hcl ch).mpr (.inr hch)

end Runs

/-! ### Closing a closed channel -/

/-- Which of the two signals a message is. -/
def Message.signal (msg : Message) : Option MessageType :=
  if msg.type = .slowDown ∨ msg.type = .resume then some msg.type else none

/-- The slow_downs and resumes among the messages a run passes to `handleMessage`. -/
def signalsHandled (P : Client) (es : List Event) : List MessageType :=
  (outputs clientStep handled P es).filterMap Message.signal

/-- If the step handles a resume, the channel it closes is open. -/
def ClosesOpen (P : Client) (ev : Event) : Prop :=
  ∀ msg ∈ handled P ev, msg.type = .resume → ¬ P.shared.shut
  deriving Decidable

/-- Two signals may follow each other, unless both are resumes. -/
def MayFollow (a b : MessageType) : Prop := ¬ (a = .resume ∧ b = .resume)
  deriving Decidable

theorem isChain_slowDown_cons {l : List MessageType} :
    (MessageType.slowDown :: l).IsChain MayFollow ↔ l.IsChain MayFollow := by
  cases l with
  | nil => simp
  | cons => simp [MayFollow]

/-- The last signal handled before a state, as far as the next one is concerned. -/
def lastSignal (s : Shared) : List MessageType := if s.shut then [.resume] else []

/-- The signal that a step handles. -/
def signalOf (P : Client) (ev : Event) : Option MessageType := (handled P ev).bind Message.signal

variable {P P' : Client} {ev : Event}

theorem signalsHandled_cons {es : List Event} (h : clientStep P ev = some P') :
    signalsHandled P (ev :: es) = (signalOf P ev).toList ++ signalsHandled P' es := by
  rw [signalsHandled, outputs_cons h, signalOf]
  cases handled P ev with
  | none => rfl
  | some msg => cases hs : msg.signal <;> simp [signalsHandled, hs]

/-- One step: the signal it handles may follow the last one exactly if the step closes no closed
channel. -/
theorem closesOpen_step_iff (hP : ChOrder P) (h : clientStep P ev = some P')
    (rest : List MessageType) :
    ClosesOpen P ev ∧ (lastSignal P'.shared ++ rest).IsChain MayFollow ↔
      (lastSignal P.shared ++ ((signalOf P ev).toList ++ rest)).IsChain MayFollow := by
  rcases clientStep_throttle h with ⟨hs, hno⟩ | ⟨msg, hm, hty, hch, hcl⟩ | ⟨msg, hm, hty, hch, hcl⟩
  · have hopen : ClosesOpen P ev := fun msg hmsg hres => absurd hres (hno msg hmsg).2
    have hnone : signalOf P ev = none := by
      refine bind_eq_none_iff.mpr fun msg hmsg => ?_
      rw [Message.signal, if_neg (by simpa using hno msg hmsg)]
    have hshut : P'.shared.shut ↔ P.shared.shut := by
      rw [Shared.shut, hs.throttleCh, hs.closedChs]
      rfl
    have hlast : lastSignal P'.shared = lastSignal P.shared := if_congr hshut rfl rfl
    rw [hnone, hlast]
    exact and_iff_right hopen
  · have hh : handled P ev = some msg := hm
    have hopen : ClosesOpen P ev := by
      intro m hm' hres
      obtain rfl : msg = m := some.inj (hh.symm.trans hm')
      rw [hty] at hres
      cases hres
    -- the new channel has a number no closed channel has
    have hnew : ¬ P'.shared.shut := by
      intro hin
      rw [Shared.shut, hcl] at hin
      have := hP _ hin
      omega
    have hsig : signalOf P ev = some .slowDown := by simp [signalOf, hh, Message.signal, hty]
    rw [hsig, lastSignal, if_neg hnew, nil_append, and_iff_right hopen, lastSignal]
    simp only [toList_some, singleton_append]
    split_ifs
    · rw [singleton_append, isChain_cons_cons, isChain_slowDown_cons]
      simp [MayFollow]
    · rw [nil_append, isChain_slowDown_cons]
  · have hh : handled P ev = some msg := hm
    have hiff : ClosesOpen P ev ↔ ¬ P.shared.shut := by
      constructor
      · intro hc
        exact hc msg hm hty
      · intro hns _ _ _
        exact hns
    have hshut : P'.shared.shut := by
      rw [Shared.shut, hch]
      exact (hcl _).mpr (.inl rfl)
    have hsig : signalOf P ev = some .resume := by simp [signalOf, hh, Message.signal, hty]
    rw [hsig, lastSignal, hiff, lastSignal]
    split_ifs with hs
    · refine iff_of_false (fun hc => hc.1 hs) ?_
      simp [MayFollow]
    · rw [nil_append]
      exact and_iff_right hs

/-- The runs that close only open channels, from any state: the state counts as a resume if
its channel is closed. -/
theorem closesOpen_iff_isChain_from {Q : Client} {es : List Event} (hP : ChOrder P)
    (h : run clientStep P es = some Q) :
    Meets clientStep ClosesOpen P es ↔
      (lastSignal P.shared ++ signalsHandled P es).IsChain MayFollow := by
  induction es generalizing P with
  | nil =>
    refine iff_of_true trivial ?_
    rw [lastSignal]
    split_ifs <;> simp [signalsHandled, outputs]
  | cons ev es ih =>
    obtain ⟨P', hstep, hrun⟩ := run_cons.mp h
    rw [meets_cons_of_some hstep, ih (hP.clientStep hstep) hrun, signalsHandled_cons hstep]
    exact closesOpen_step_iff hP hstep _

/-- **When no throttle channel is closed twice.**  In a run of a client `Connect` returned,
`handleMessage` closes only open channels exactly when, among the slow_downs and resumes passed
to it, no resume directly follows another. -/
theorem closesOpen_iff_isChain {n : ℤ} {es : List Event} {P : Client}
    (h : run clientStep (connected n) es = some P) :
    Meets clientStep ClosesOpen (connected n) es ↔
      (signalsHandled (connected n) es).IsChain MayFollow := by
  have hopen : ¬ (connected n).shared.shut := not_mem_nil
  rw [closesOpen_iff_isChain_from (chOrder_connected n) h, lastSignal, if_neg hopen, nil_append]

/-- A message of the bus with no more than a type. -/
def control (type : MessageType) : Message := ⟨"m", type, "c", "", "", "", []⟩

/-- The `readLoop` reads a message and handles it. -/
def reads (msg : Message) : List Event :=
  [.act 0 .go, .act 0 .go, .act 0 (.recv msg), .act 0 .go]

/-- Two resumes with a slow_down between them. -/
theorem closesOpen_slowed_between :
    (run clientStep (connected 4)
        (reads (control .resume) ++ reads (control .slowDown) ++ reads (control .resume))).isSome ∧
      Meets clientStep ClosesOpen (connected 4)
        (reads (control .resume) ++ reads (control .slowDown) ++ reads (control .resume)) := by
  refine ⟨by decide +kernel, ?_⟩
  obtain ⟨P, hP⟩ := isSome_iff_exists.mp (show (run clientStep (connected 4)
    (reads (control .resume) ++ reads (control .slowDown) ++ reads (control .resume))).isSome by
      decide +kernel)
  exact (closesOpen_iff_isChain hP).mpr (by decide +kernel)

/-- **The bus resumes twice**, the slow_down between the two having gone to a connection that
was lost: the second resume closes a closed channel, and the process is gone. -/
theorem resumedTwice :
    ((run clientStep (connected 4) (reads (control .resume) ++ reads (control .resume))).map
        fun P => P.shared.crashed) = some true ∧
      ¬ Meets clientStep ClosesOpen (connected 4)
        (reads (control .resume) ++ reads (control .resume)) := by
  decide +kernel

/-! ### Releasing the senders -/

/-- If the step handles a slow_down, no `Send` is blocked on the current channel. -/
def SlowsUnblocked (P : Client) (ev : Event) : Prop :=
  ∀ msg ∈ handled P ev, msg.type = .slowDown →
    ∀ t < P.size, (P.thread t).waiting = some P.shared.throttleCh → P.shared.shut

instance (P : Client) (ev : Event) : Decidable (SlowsUnblocked P ev) :=
  inferInstanceAs (Decidable (∀ msg ∈ handled P ev, msg.type = .slowDown →
    ∀ t < P.size, (P.thread t).waiting = some P.shared.throttleCh → P.shared.shut))

/-- No `Send` is blocked on a channel that is not the current one. -/
def NoOrphan (P : Client) : Prop :=
  ∀ t ch, (P.thread t).waiting = some ch → ch ∈ P.shared.closedChs ∨ ch = P.shared.throttleCh

theorem waiting_connected (n : ℤ) (t : ℕ) : ((connected n).thread t).waiting = none := by
  rw [connected_thread]
  split_ifs <;> rfl

theorem noOrphan_connected (n : ℤ) : NoOrphan (connected n) := by
  intro t ch hw
  rw [waiting_connected] at hw
  cases hw

theorem waiting_of_handled (h : clientStep P ev = some P') {msg : Message}
    (hm : handled P ev = some msg) {t ch : ℕ} (ht : t < P.size)
    (hw : (P.thread t).waiting = some ch) : (P'.thread t).waiting = some ch := by
  cases clientStep_stepped h with
  | call hev =>
    rw [handled_of_called hev] at hm
    cases hm
  | receive | lose => cases hm
  | @act u =>
    have hne : t ≠ u := by
      rintro rfl
      -- a goroutine in `Send` handles no message
      change (P.thread t).handling = some msg at hm
      unfold Thread.waiting at hw
      split at hw
      · rename_i heq
        rw [heq] at hm
        cases hm
      · cases hw
    rwa [Pool.advance_thread_of_ne ht hne]

/-- **A step leaves no `Send` behind exactly when** it does not put a new channel in the place
of one that a `Send` is blocked on. -/
theorem noOrphan_clientStep_iff (hP : IdleBeyond P) (hno : NoOrphan P)
    (h : clientStep P ev = some P') : NoOrphan P' ↔ SlowsUnblocked P ev := by
  rcases clientStep_throttle h with ⟨hs, hsig⟩ | ⟨msg, hm, hty, hch, hcl⟩ |
    ⟨msg, hm, hty, hch, hcl⟩
  · refine iff_of_true (fun t ch hw => ?_) fun msg hmsg hslow => absurd hslow (hsig msg hmsg).1
    rw [hs.closedChs, hs.throttleCh]
    rcases waiting_of_clientStep h hw with hold | ⟨rfl, -⟩
    · exact hno t ch hold
    · exact .inr rfl
  · have hh : handled P ev = some msg := hm
    constructor
    · intro hno' m _ _ t ht hw
      -- the `Send` waits on the old channel, which is not the new one
      rcases hno' t _ (waiting_of_handled h hh ht hw) with hin | heq
      · rwa [hcl] at hin
      · omega
    · intro hslow t ch hw
      rcases waiting_of_clientStep h hw with hold | ⟨-, hsame⟩
      · left
        rw [hcl]
        rcases hno t ch hold with hin | rfl
        · exact hin
        · refine hslow msg hm hty t ?_ hold
          by_contra hle
          rw [hP t (not_lt.mp hle)] at hold
          cases hold
      · rw [hsame] at hch
        omega
  · refine iff_of_true (fun t ch hw => ?_) fun m hm' hslow => ?_
    · left
      rcases waiting_of_clientStep h hw with hold | ⟨rfl, -⟩
      · rcases hno t ch hold with hin | rfl
        · exact (hcl ch).mpr (.inr hin)
        · exact (hcl _).mpr (.inl rfl)
      · exact (hcl _).mpr (.inl rfl)
    · obtain rfl : msg = m := some.inj (hm.symm.trans hm')
      rw [hty] at hslow
      cases hslow

/-- **When no `Send` is left behind.**  All along a run every `Send` that is blocked is blocked
on the current channel, which the next resume closes, exactly when no slow_down is handled while
a `Send` is blocked. -/
theorem noOrphan_along_iff {n : ℤ} {es : List Event}
    (h : run clientStep (connected n) es = some P) :
    Along clientStep NoOrphan (connected n) es ↔
      Meets clientStep SlowsUnblocked (connected n) es :=
  along_iff_meets (I := IdleBeyond) (P := NoOrphan) (fun _ _ _ hP hstep => hP.clientStep hstep)
    (fun _ _ _ hP hno hstep => noOrphan_clientStep_iff hP hno hstep) (idleBeyond_connected n)
    (noOrphan_connected n) h

/-- **A resume releases every `Send` that waits.**  Let no slow_down be handled while a `Send`
is blocked on the current channel.  When a resume has been handled, every channel that a `Send`
was waiting on is closed, then and in every later state. -/
theorem released_of_resume {n : ℤ} {es fs : List Event} {ev : Event} {P Q R : Client}
    {msg : Message} (hok : Meets clientStep SlowsUnblocked (connected n) es)
    (hP : run clientStep (connected n) es = some P) (hm : handled P ev = some msg)
    (hty : msg.type = .resume) (hQ : clientStep P ev = some Q) (hR : run clientStep Q fs = some R)
    {t ch : ℕ} (hw : (P.thread t).waiting = some ch) : ch ∈ R.shared.closedChs := by
  have hno : NoOrphan P := (noOrphan_along_iff hP).mpr hok es prefix_rfl P hP
  have hclosed : ch ∈ Q.shared.closedChs := by
    rcases clientStep_throttle hQ with ⟨-, hsig⟩ | ⟨m, hm', hslow, -, -⟩ | ⟨_, -, -, -, hcl⟩
    · exact absurd hty (hsig msg hm).2
    · obtain rfl : msg = m := some.inj (hm.symm.trans hm')
      rw [hty] at hslow
      cases hslow
    · rw [hcl]
      rcases hno t ch hw with hin | rfl
      · exact .inr hin
      · exact .inl rfl
  exact run_invariant
    (fun _ _ _ hin hstep => closedChs_subset_of_clientStep hstep hin) hclosed hR

/-- The bus slows the client down; a `Send` enters and waits. -/
def slowedSend : List Event :=
  reads (control .slowDown) ++ [.send (control .message), .act 2 .go]

/-- The `Send` is waiting on channel 1 when the resume is handled, and channel 1 is closed. -/
theorem released_slowedSend :
    ((run clientStep (connected 4) (slowedSend ++ (reads (control .resume)).take 3)).map
        fun P => (P.thread 2).waiting) = some (some 1) ∧
      ∀ R, run clientStep (connected 4) (slowedSend ++ reads (control .resume)) = some R →
        1 ∈ R.shared.closedChs := by
  have hrun : ((run clientStep (connected 4) (slowedSend ++ (reads (control .resume)).take 3)).map
      fun P => ((P.thread 2).waiting, handled P (.act 0 .go))) =
        some (some 1, some (control .resume)) := by decide +kernel
  obtain ⟨P, hP, hread⟩ := map_eq_some_iff.mp hrun
  obtain ⟨hw, hm⟩ := Prod.mk.inj hread
  refine ⟨by decide +kernel, fun R hR => ?_⟩
  have hsplit : slowedSend ++ reads (control .resume) =
      (slowedSend ++ (reads (control .resume)).take 3) ++ [.act 0 .go] := rfl
  rw [hsplit] at hR
  obtain ⟨P', hP', hlast⟩ := run_append.mp hR
  obtain rfl : P = P' := some.inj (hP.symm.trans hP')
  obtain ⟨Q, hQ, hnil⟩ := run_cons.mp hlast
  exact released_of_resume (by decide +kernel) hP hm rfl hQ hnil hw

/-- **A `Send` that no resume releases**: between it and the resume the bus slows the client
down once more, so it waits on channel 1 and the resume closes channel 2. -/
theorem orphanedSend :
    ((run clientStep (connected 4)
        (slowedSend ++ reads (control .slowDown) ++ reads (control .resume))).map fun P =>
          ((P.thread 2).waiting, P.shared.throttled, P.shared.closedChs)) =
      some (some 1, false, [2]) := by
  decide +kernel

end K8s4Claw.Sdk
