/-
# What `Send` promises when it returns nil

`Client.Send` of `sdk/channel/client.go` puts a message into the bus-down buffer on two paths.
When it finds the client disconnected it reports a full buffer as an error.  When its own write
fails it marks the client disconnected, pushes the message, starts a reconnect and returns nil,
whatever `push` said; and between the push and the return a `reconnectLoop` that is already
running can take the message out of the buffer again.

So nil stands for "written, or in the buffer" in the runs in which neither happens
(`returnsKept_of_holdsOn`).  In `sentIntoFullBuffer` a message is gone though its `Send` returned
nil.
-/

import K8s4Claw.Sdk.Mail

namespace K8s4Claw.Sdk

open Lib List

/-- The message has been written to a connection, or is in the bus-down buffer. -/
def Shared.Kept (s : Shared) (msg : Message) : Prop :=
  msg ∈ s.wire.map Prod.snd ∨ msg ∈ s.buf.items
  deriving Decidable

/-- If a `Send` returns nil in the step, its message has been written or is in the buffer. -/
def ReturnsKept (P : Client) (ev : Event) : Prop :=
  ∀ P', clientStep P ev = some P' → ∀ t msg, (P.thread t).returned = none →
    (P'.thread t).returned = some (msg, .nil) → P'.shared.Kept msg

/-- The bus-down buffer is full. -/
def Shared.full (s : Shared) : Prop := s.buf.cap ≤ s.buf.items.length
  deriving Decidable

namespace Thread

/-- The goroutine is a `Send` about to push a message whose write failed. -/
def rebuffering : Thread → Bool
  | .send _ .rebuffer => true
  | _ => false

/-- The goroutine is a `replayBuffer` about to empty the buffer. -/
def draining : Thread → Bool
  | .loop (.drain _) => true
  | _ => false

end Thread

/-- A `Send` whose write failed finds room in the buffer, and the buffer is not emptied while such
a `Send` is about to return. -/
def HoldsOn (P : Client) : Event → Prop
  | .act t _ => ((P.thread t).rebuffering = true → ¬ P.shared.full) ∧
      ((P.thread t).draining = true → ∀ u < P.size, (P.thread u).rebuffered = none)
  | _ => True

instance (P : Client) (ev : Event) : Decidable (HoldsOn P ev) := by
  unfold HoldsOn
  induction ev using Event.casesOn <;> infer_instance

/-- The message of a `Send` that is about to return after a failed write is in the buffer. -/
def Thread.InBuffer (s : Shared) (p : Thread) : Prop :=
  ∀ msg, p.rebuffered = some msg → msg ∈ s.buf.items

theorem Thread.inBuffer_of_none {s : Shared} {p : Thread} (h : p.rebuffered = none) :
    p.InBuffer s :=
  forall_of_eq_none h

theorem Thread.InBuffer.mono {s s' : Shared} {p : Thread} (h : p.InBuffer s)
    (hsub : s.buf.items ⊆ s'.buf.items) : p.InBuffer s' :=
  fun msg hmsg => hsub (h msg hmsg)

theorem Buffer.items_subset_push (b : Buffer) (msg : Message) :
    b.items ⊆ (b.push msg).1.items := by
  rcases b.items_push_cases msg with h | ⟨h, -⟩
  · rw [h]
    exact subset_append_left ..
  · rw [h]
    exact List.Subset.refl _

theorem Buffer.mem_push {b : Buffer} {msg : Message} (h : b.items.length < b.cap) :
    msg ∈ (b.push msg).1.items := by
  rw [(Buffer.push_of_lt h).1]
  exact mem_append_right _ (mem_singleton_self msg)

section

variable {s : Shared} {p : Thread} {c : Choice} {e : Step}

variable (h : MailMove s p c e)

include h

theorem MailMove.items_subset (hp : p.draining = false) : s.buf.items ⊆ e.shared.buf.items := by
  cases h with
  | plain hbuf => rw [hbuf]; exact List.Subset.refl _
  | push | rebuffer | repush => exact Buffer.items_subset_push ..
  | giveBack => rw [(tryReconnect_mail s _).1]; exact List.Subset.refl _
  | drain => cases hp
  | _ => exact List.Subset.refl _

theorem MailMove.inBuffer_next (hp : p.rebuffering = true → ¬ s.full) :
    e.next.InBuffer e.shared := by
  cases h with
  | plain _ _ hq => exact Thread.inBuffer_of_none hq.rebuffered
  | rebuffer =>
    intro m hm
    cases hm
    exact Buffer.mem_push (not_le.mp (hp rfl))
  | giveBack =>
    rw [(tryReconnect_mail s _).2.2]
    exact Thread.inBuffer_of_none rfl
  | _ => exact Thread.inBuffer_of_none rfl

/-- A `Send` that returns nil has written its message, has pushed it just now, or had pushed it. -/
theorem MailMove.kept_of_returned (hp : p.InBuffer s) {msg : Message}
    (hret : e.next.returned = some (msg, .nil)) : e.shared.Kept msg := by
  cases h with
  | plain _ _ hq => exact absurd hret (hq.returned msg)
  | @push m =>
    right
    by_cases hfull : (s.buf.push m).2 = true
    · obtain ⟨rfl, -⟩ := Prod.mk.inj (Option.some.inj hret)
      rw [show ({ s with buf := (s.buf.push m).1 } : Shared).buf.items =
        s.buf.items ++ [m] from Buffer.items_push hfull]
      exact mem_append_right _ (mem_singleton_self m)
    · rw [if_neg hfull] at hret
      cases hret
  | write =>
    left
    obtain ⟨rfl, -⟩ := Prod.mk.inj (Option.some.inj hret)
    simp
  | @giveBack m =>
    right
    rw [(tryReconnect_mail s _).2.2] at hret
    obtain ⟨rfl, -⟩ := Prod.mk.inj (Option.some.inj hret)
    rw [(tryReconnect_mail s _).1]
    exact hp m rfl
  | _ => cases hret

end

/-- What carries the promise of `Send` through a run. -/
structure Holding (P : Client) : Prop where
  idle : IdleBeyond P
  inBuffer : ∀ t, (P.thread t).InBuffer P.shared

theorem Holding.clientStep {P P' : Client} {ev : Event} (hP : Holding P) (hok : HoldsOn P ev)
    (h : clientStep P ev = some P') : Holding P' := by
  refine ⟨hP.idle.clientStep h, ?_⟩
  cases clientStep_stepped h with
  | @call _ q hev =>
    refine Pool.forall_go hP.inBuffer (Thread.inBuffer_of_none ?_)
    cases ev <;> cases hev <;> rfl
  | receive | lose => exact hP.inBuffer
  | @act t c e ht he =>
    have hm := act_mail he
    obtain ⟨hroom, hdrain⟩ := hok
    refine Pool.forall_advance ht (fun u hu => ?_) (hm.inBuffer_next hroom)
      fun q hq => ?_
    · cases hd : (P.thread t).draining with
      | false => exact (hP.inBuffer u).mono (hm.items_subset hd)
      | true =>
        refine Thread.inBuffer_of_none ?_
        by_cases hlt : u < P.size
        · exact hdrain hd u hlt
        · rw [hP.idle u (not_lt.mp hlt)]
          rfl
    · rcases (act_move he).spawn_cases hq with rfl | ⟨g, rfl⟩ <;>
        exact Thread.inBuffer_of_none rfl

theorem Holding.returnsKept {P : Client} (hP : Holding P) (ev : Event) : ReturnsKept P ev := by
  intro P' h t msg hold hret
  cases clientStep_stepped h with
  | @call _ q hev =>
    by_cases ht : t = P.size
    · subst ht
      rw [Pool.go_thread_size] at hret
      cases ev <;> cases hev <;> cases hret
    · rw [Pool.go_thread_of_ne _ _ ht, hold] at hret
      cases hret
  | receive | lose => rw [hold] at hret; cases hret
  | @act u c e hu he =>
    rw [Pool.advance_shared]
    rcases Pool.advance_thread_cases hu e t with ⟨rfl, heq⟩ | ⟨-, -, q, hq, heq⟩ | ⟨-, heq⟩
    · rw [heq] at hret
      exact (act_mail he).kept_of_returned (hP.inBuffer t) hret
    · rw [heq] at hret
      rcases (act_move he).spawn_cases hq with rfl | ⟨g, rfl⟩ <;> cases hret
    · rw [heq, hold] at hret
      cases hret

theorem holding_connected (n : ℤ) : Holding (connected n) := by
  refine ⟨idleBeyond_connected n, fun t => Thread.inBuffer_of_none ?_⟩
  rw [connected_thread]
  split_ifs <;> rfl

/-- **A `Send` that returns nil has kept its message**, written or buffered, at that moment; and
so one that could do neither returns an error.  It is so in every run in which a `Send` whose
write failed finds room in the buffer, and the buffer is not emptied before it returns. -/
theorem returnsKept_of_holdsOn {n : ℤ} {es : List Event}
    (hok : Meets clientStep HoldsOn (connected n) es) :
    Meets clientStep ReturnsKept (connected n) es :=
  meets_of_meets (I := Holding) (fun _ _ _ hP hok h => hP.clientStep hok h)
    (fun _ ev hP _ => hP.returnsKept ev) (holding_connected n) hok

/-- Two `Send`s take connection 0, which is lost; both writes fail, and both push. -/
def bothFail : List Event :=
  [.send (outgoing "a"), .send (outgoing "b"), .act 2 .go, .act 3 .go, .act 2 .go, .act 3 .go,
    .lose 0, .act 2 .err, .act 3 .err, .act 2 .go, .act 2 .go, .act 3 .go, .act 3 .go,
    .act 2 .go, .act 3 .go]

/-- With room for two messages both are in the buffer when their `Send`s return nil. -/
theorem returnsKept_bothFail :
    ((run clientStep (connected 2) bothFail).map fun P =>
        ((P.thread 2).returned, (P.thread 3).returned)) =
      some (some (outgoing "a", .nil), some (outgoing "b", .nil)) ∧
      Meets clientStep ReturnsKept (connected 2) bothFail :=
  ⟨by decide +kernel, returnsKept_of_holdsOn (by decide +kernel)⟩

/-- **A `Send` that returns nil and has lost its message**: the buffer has room for one. -/
theorem sentIntoFullBuffer :
    ((run clientStep (connected 1) bothFail).map fun P =>
        ((P.thread 3).returned, decide (P.shared.Kept (outgoing "b")))) =
      some (some (outgoing "b", .nil), false) := by
  decide +kernel

end K8s4Claw.Sdk
