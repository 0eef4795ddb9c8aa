/-
# Calls of the ring buffer

What holds of `internal/ipcbus/ringbuffer.go` over any `Push` and `Pop` calls.

As a store it is a queue of capacity `Cap()` (`ring_refines_queue`): the occupied slots, from the
next position to read on, are the elements of the queue, and the other slots are empty.

As a source of backpressure it is meant to be a hysteresis: it slows down at the high mark and goes
back to normal at the low mark, which is below.  `NewRingBuffer` replaces a low mark that is not
between 0 and the high mark by 0.3, whatever the high mark is, so a high mark of at most 0.3 can end
up below the low mark.  `hysteresis_iff` says that this is the only way to lose the hysteresis.
-/

import K8s4Claw.IpcBus.RingBuffer
import K8s4Claw.Lib.Calls
import Mathlib.Tactic.Linarith

namespace K8s4Claw.IpcBus.RingBuffer

open List
open Lib (BoundedQueue stateAfter answers)

variable {α : Type*}

def len (rb : RingBuffer α) : ℕ := rb.count

def cap (rb : RingBuffer α) : ℕ := rb.size

def fillRatio (rb : RingBuffer α) : ℚ := ratio rb.size rb.count

/-- What `Push` and `Pop` return. -/
inductive Answer (α : Type*) where
  | pushed (ok stateChanged : Bool)
  | popped (msg : Option α) (stateChanged : Bool)

def call (rb : RingBuffer α) : BoundedQueue.Call α → RingBuffer α × Answer α
  | .push msg => ((rb.push msg).1, .pushed (rb.push msg).2.1 (rb.push msg).2.2)
  | .pop => (rb.pop.1, .popped rb.pop.2.1 rb.pop.2.2)

/-! ### Slots -/

/-- The slots that hold no message are empty. -/
def Cleared (rb : RingBuffer α) : Prop :=
  ∀ j : Fin rb.size, (∀ i < rb.count, rb.slot i ≠ j) → rb.buf.get j = none

variable {rb : RingBuffer α}

theorem push_of_full (h : rb.count = rb.size) (msg : α) : rb.push msg = (rb, false, false) :=
  dif_pos h

theorem pop_of_empty (h : rb.count = 0) : rb.pop = (rb, none, false) :=
  dif_pos h

theorem cleared_newRingBuffer (size : ℤ) (high low : ℚ) :
    (newRingBuffer size high low : RingBuffer α).Cleared := by
  intro j _
  exact Vector.getElem_replicate j.isLt

theorem Cleared.push (h : rb.Cleared) (msg : α) : (rb.push msg).1.Cleared := by
  by_cases hfull : rb.count = rb.size
  · rwa [push_of_full hfull]
  · unfold RingBuffer.push
    rw [dif_neg hfull]
    intro j hj
    have htail : rb.tail ≠ j := by
      rw [← rb.slot_count]
      exact hj rb.count (Nat.lt_succ_self _)
    have hold : rb.buf.get j = none := h j fun i hi => hj i (Nat.lt_succ_of_lt hi)
    have hne : rb.tail.val ≠ j.val := fun heq => htail (Fin.ext heq)
    exact (Vector.getElem_set_ne rb.tail.isLt j.isLt hne).trans hold

theorem Cleared.pop (h : rb.Cleared) : rb.pop.1.Cleared := by
  by_cases hempty : rb.count = 0
  · rwa [pop_of_empty hempty]
  · unfold RingBuffer.pop
    rw [dif_neg hempty]
    intro j hj
    by_cases hhead : rb.head = j
    · subst hhead
      exact Vector.getElem_set_self rb.head.isLt
    · have hold : rb.buf.get j = none := by
        refine h j fun i hi => ?_
        cases i with
        | zero => rwa [rb.slot_zero]
        | succ i =>
          have hi' : i < rb.count - 1 := by omega
          intro heq
          refine hj i hi' (Fin.ext ?_)
          exact (rb.slot_succ i).trans (congrArg Fin.val heq)
      have hne : rb.head.val ≠ j.val := fun heq => hhead (Fin.ext heq)
      exact (Vector.getElem_set_ne rb.head.isLt j.isLt hne).trans hold

/-! ### The queue -/

/-- The buffer stands for the queue. -/
structure Represents {capacity : ℕ} (rb : RingBuffer α) (q : BoundedQueue α capacity) : Prop where
  cap : rb.cap = capacity
  len : rb.len = q.items.length
  contents : rb.contents = q.items.map some
  tail : rb.tail.val = (rb.head.val + rb.count) % rb.size
  cleared : rb.Cleared

/-- What the queue answers. -/
def Answer.reply : Answer α → BoundedQueue.Answer α
  | .pushed ok _ => .pushed ok
  | .popped msg _ => .popped msg

theorem size_push (rb : RingBuffer α) (msg : α) : (rb.push msg).1.size = rb.size := by
  unfold push
  split_ifs <;> rfl

theorem size_pop (rb : RingBuffer α) : rb.pop.1.size = rb.size := by
  unfold pop
  split_ifs <;> rfl

section

variable {capacity : ℕ} {rb : RingBuffer α} {q : BoundedQueue α capacity}

theorem represents_of_contents (hcap : rb.size = capacity)
    (hcontents : rb.contents = q.items.map some) (hcleared : rb.Cleared) : rb.Represents q where
  cap := hcap
  len := by rw [len, ← length_contents, hcontents, length_map]
  contents := hcontents
  tail := rb.tail_eq
  cleared := hcleared

variable (h : rb.Represents q)

include h

theorem Represents.push (msg : α) :
    (rb.push msg).2.1 = (q.push msg).2 ∧ (rb.push msg).1.Represents (q.push msg).1 := by
  have hlen : rb.count = q.items.length := h.len
  have hcap : rb.size = capacity := h.cap
  by_cases hfull : rb.count = rb.size
  · rw [push_of_full hfull, BoundedQueue.push_of_le (by omega)]
    exact ⟨rfl, h⟩
  · have hlt : q.items.length < capacity := by
      have := rb.count_le
      omega
    obtain ⟨hitems, hok⟩ := BoundedQueue.push_of_lt hlt msg
    have hroom : (rb.push msg).2.1 = true := by
      unfold RingBuffer.push
      rw [dif_neg hfull]
    refine ⟨hroom.trans hok.symm, ?_⟩
    refine represents_of_contents ((rb.size_push msg).trans hcap) ?_ (h.cleared.push msg)
    rw [contents_push hfull, h.contents, hitems, map_append, map_singleton]

theorem Represents.pop : rb.pop.2.1 = q.pop.2 ∧ rb.pop.1.Represents q.pop.1 := by
  have hlen : rb.count = q.items.length := h.len
  cases hitems : q.items with
  | nil =>
    have hempty : rb.count = 0 := by rw [hlen, hitems, length_nil]
    rw [pop_of_empty hempty]
    refine ⟨by rw [q.snd_pop, hitems, head?_nil], ?_⟩
    refine represents_of_contents h.cap ?_ h.cleared
    rw [h.contents, q.items_pop, hitems, tail_nil]
  | cons x items =>
    have hne : rb.count ≠ 0 := by
      rw [hlen, hitems]
      exact Nat.succ_ne_zero _
    have hcontents : rb.pop.2.1 :: rb.pop.1.contents = some x :: items.map some := by
      rw [← contents_pop hne, h.contents, hitems, map_cons]
    obtain ⟨hmsg, hrest⟩ := cons.inj hcontents
    refine ⟨by rw [hmsg, q.snd_pop, hitems, head?_cons], ?_⟩
    refine represents_of_contents (rb.size_pop.trans h.cap) ?_ h.cleared.pop
    rw [hrest, q.items_pop, hitems, tail_cons]

theorem Represents.call (c : BoundedQueue.Call α) :
    (rb.call c).2.reply = (q.call c).2 ∧ (rb.call c).1.Represents (q.call c).1 := by
  cases c with
  | push msg =>
    obtain ⟨hok, hrep⟩ := h.push msg
    exact ⟨congrArg BoundedQueue.Answer.pushed hok, hrep⟩
  | pop =>
    obtain ⟨hmsg, hrep⟩ := h.pop
    exact ⟨congrArg BoundedQueue.Answer.popped hmsg, hrep⟩

end

theorem represents_newRingBuffer (size : ℤ) (high low : ℚ) :
    (newRingBuffer size high low : RingBuffer α).Represents
      (BoundedQueue.empty : BoundedQueue α (newRingBuffer size high low : RingBuffer α).cap) :=
  represents_of_contents rfl (contents_newRingBuffer size high low)
    (cleared_newRingBuffer size high low)

/-- **The ring buffer is a bounded queue.**  Whatever the arguments of `NewRingBuffer`, and after
any calls of `Push` and `Pop`: the answers are those of a queue of capacity `Cap()`, the buffer
stands for that queue, and a `Push` that finds it full changes nothing at all. -/
theorem ring_refines_queue (size : ℤ) (high low : ℚ) (cs : List (BoundedQueue.Call α)) :
    let new : RingBuffer α := newRingBuffer size high low
    let queue : BoundedQueue α new.cap := .empty
    (answers call new cs).map Answer.reply = answers BoundedQueue.call queue cs ∧
      (stateAfter call new cs).Represents (stateAfter BoundedQueue.call queue cs) ∧
      ∀ msg, (stateAfter call new cs).len = new.cap →
        (stateAfter call new cs).push msg = (stateAfter call new cs, false, false) := by
  obtain ⟨hanswers, hrep⟩ := Lib.answers_refine (fun _ _ c h => Represents.call h c)
    (represents_newRingBuffer size high low) cs
  refine ⟨hanswers, hrep, fun msg hfull => push_of_full ?_ msg⟩
  exact hfull.trans hrep.cap.symm

/-! ### The marks -/

/-- The state agrees with the fill ratio, and the low mark is below the high mark. -/
structure Coherent (rb : RingBuffer α) : Prop where
  normal : rb.state = .normal → rb.fillRatio < rb.highMark
  slowDown : rb.state = .slowDown → rb.lowMark < rb.fillRatio
  marks : rb.lowMark < rb.highMark

/-- Who reports a change of state. -/
inductive Caller where
  | push
  | pop
  deriving DecidableEq

/-- The change that a call reports: who reports it, and the state after it. -/
def reported (rb : RingBuffer α) (c : BoundedQueue.Call α) : Option (Caller × BackpressureState) :=
  match rb.call c with
  | (rb', .pushed _ true) => some (.push, rb'.state)
  | (rb', .popped _ true) => some (.pop, rb'.state)
  | (_, .pushed _ false) | (_, .popped _ false) => none

/-- The changes that some calls report, in order. -/
def reports : RingBuffer α → List (BoundedQueue.Call α) → List (Caller × BackpressureState)
  | _, [] => []
  | rb, c :: cs => (rb.reported c).toList ++ reports (rb.call c).1 cs

/-- In turns, from this state on: a `Push` that slows down and a `Pop` that goes back to normal. -/
def Alternates : BackpressureState → List (Caller × BackpressureState) → Prop
  | _, [] => True
  | .normal, change :: changes => change = (.push, .slowDown) ∧ Alternates .slowDown changes
  | .slowDown, change :: changes => change = (.pop, .normal) ∧ Alternates .normal changes

/-- The buffer is coherent all along the calls, and the changes alternate. -/
def Hysteresis (rb : RingBuffer α) (cs : List (BoundedQueue.Call α)) : Prop :=
  (∀ ds, ds <+: cs → (stateAfter call rb ds).Coherent) ∧ Alternates rb.state (reports rb cs)

/-- The low mark that is used is below the high mark that is used, unless the high mark is too low
for the default low mark and the low mark is replaced by it. -/
theorem effectiveLow_lt_iff (high low : ℚ) :
    effectiveLow (effectiveHigh high) low < effectiveHigh high ↔
      (0 < high → high ≤ 3 / 10 → 0 < low ∧ low < high) := by
  have hdefaults : defaultLow < defaultHigh := by decide +kernel
  have hlow : defaultLow = 3 / 10 := rfl
  by_cases hhigh : high ≤ 0 ∨ high > 1
  · have heff : effectiveHigh high = defaultHigh := if_pos hhigh
    rw [heff]
    refine iff_of_true ?_ fun hpos hle => ?_
    · unfold effectiveLow
      split_ifs with h
      · exact hdefaults
      · exact not_le.mp fun hge => h (.inr hge)
    · rcases hhigh with hneg | hgt
      · exact absurd hneg (not_le.mpr hpos)
      · linarith
  · have heff : effectiveHigh high = high := if_neg hhigh
    have hpos : 0 < high := not_le.mp fun hle => hhigh (.inl hle)
    rw [heff]
    unfold effectiveLow
    split_ifs with h
    · rw [hlow]
      constructor
      · intro hlt _ hle
        exact absurd hlt (not_lt.mpr hle)
      · intro hcond
        by_contra hge
        obtain ⟨hlow0, hlowhigh⟩ := hcond hpos (not_lt.mp hge)
        rcases h with hle | hle
        · exact absurd hle (not_le.mpr hlow0)
        · exact absurd hle (not_le.mpr hlowhigh)
    · obtain ⟨hlow0, hlowhigh⟩ := not_or.mp h
      exact iff_of_true (not_le.mp hlowhigh) fun _ _ => ⟨not_le.mp hlow0, not_le.mp hlowhigh⟩

theorem effectiveHigh_pos (high : ℚ) : 0 < effectiveHigh high := by
  unfold effectiveHigh
  split_ifs with h
  · decide +kernel
  · exact not_le.mp fun hle => h (.inl hle)

theorem ratio_mono (size : ℕ) {m n : ℕ} (h : m ≤ n) : ratio size m ≤ ratio size n :=
  div_le_div_of_nonneg_right (Nat.cast_le.mpr h) (Nat.cast_nonneg size)

section

variable {rb : RingBuffer α}

theorem coherent_newRingBuffer {size : ℤ} {high low : ℚ}
    (hmarks : effectiveLow (effectiveHigh high) low < effectiveHigh high) :
    (newRingBuffer size high low : RingBuffer α).Coherent where
  normal _ := by
    have hzero : (newRingBuffer size high low : RingBuffer α).fillRatio = 0 := by
      simp [fillRatio, newRingBuffer, ratio]
    rw [hzero]
    exact effectiveHigh_pos high
  slowDown h := by cases h
  marks := hmarks

theorem push_highMark (rb : RingBuffer α) (msg : α) : (rb.push msg).1.highMark = rb.highMark := by
  unfold push
  split_ifs <;> rfl

theorem pop_highMark (rb : RingBuffer α) : rb.pop.1.highMark = rb.highMark := by
  unfold pop
  split_ifs <;> rfl

theorem push_changed_iff (h : rb.count ≠ rb.size) (msg : α) :
    (rb.push msg).2.2 = true ↔
      rb.state = .normal ∧ rb.highMark ≤ (rb.push msg).1.fillRatio := by
  unfold push
  rw [dif_neg h]
  exact decide_eq_true_iff

theorem pop_changed_iff (h : rb.count ≠ 0) :
    rb.pop.2.2 = true ↔ rb.state = .slowDown ∧ rb.pop.1.fillRatio ≤ rb.lowMark := by
  unfold pop
  rw [dif_neg h]
  exact decide_eq_true_iff

theorem fillRatio_le_push (h : rb.count ≠ rb.size) (msg : α) :
    rb.fillRatio ≤ (rb.push msg).1.fillRatio := by
  unfold push
  rw [dif_neg h]
  exact ratio_mono rb.size (Nat.le_succ rb.count)

theorem fillRatio_pop_le (h : rb.count ≠ 0) : rb.pop.1.fillRatio ≤ rb.fillRatio := by
  unfold pop
  rw [dif_neg h]
  exact ratio_mono rb.size (Nat.sub_le rb.count 1)

theorem Coherent.push (h : rb.Coherent) (msg : α) : (rb.push msg).1.Coherent := by
  by_cases hfull : rb.count = rb.size
  · rwa [push_of_full hfull]
  · have hmarks : (rb.push msg).1.lowMark < (rb.push msg).1.highMark := by
      rw [push_lowMark, push_highMark]
      exact h.marks
    have hchanged := push_changed_iff hfull msg
    have hstate := rb.push_state msg
    cases hc : (rb.push msg).2.2 with
    | true =>
      obtain ⟨-, hge⟩ := hchanged.mp hc
      rw [hc] at hstate
      refine ⟨fun hn => ?_, fun _ => ?_, hmarks⟩
      · rw [hstate] at hn
        cases hn
      · rw [push_lowMark]
        exact h.marks.trans_le hge
    | false =>
      rw [hc] at hstate
      refine ⟨fun hn => ?_, fun hs => ?_, hmarks⟩
      · -- still normal: the ratio has not reached the high mark
        rw [push_highMark]
        refine not_le.mp fun hge => ?_
        rw [hchanged.mpr ⟨hstate.symm.trans hn, hge⟩] at hc
        cases hc
      · rw [push_lowMark]
        exact (h.slowDown (hstate.symm.trans hs)).trans_le (fillRatio_le_push hfull msg)

theorem Coherent.pop (h : rb.Coherent) : rb.pop.1.Coherent := by
  by_cases hempty : rb.count = 0
  · rwa [pop_of_empty hempty]
  · have hmarks : rb.pop.1.lowMark < rb.pop.1.highMark := by
      rw [pop_lowMark, pop_highMark]
      exact h.marks
    have hchanged := pop_changed_iff hempty
    have hstate := rb.pop_state
    cases hc : rb.pop.2.2 with
    | true =>
      obtain ⟨-, hle⟩ := hchanged.mp hc
      rw [hc] at hstate
      refine ⟨fun _ => ?_, fun hs => ?_, hmarks⟩
      · -- back to normal at the low mark, which is below the high mark
        rw [pop_highMark]
        exact hle.trans_lt h.marks
      · rw [hstate] at hs
        cases hs
    | false =>
      rw [hc] at hstate
      refine ⟨fun hn => ?_, fun hs => ?_, hmarks⟩
      · rw [pop_highMark]
        exact (fillRatio_pop_le hempty).trans_lt (h.normal (hstate.symm.trans hn))
      · rw [pop_lowMark]
        refine not_le.mp fun hle => ?_
        rw [hchanged.mpr ⟨hstate.symm.trans hs, hle⟩] at hc
        cases hc

theorem Coherent.call (h : rb.Coherent) (c : BoundedQueue.Call α) : (rb.call c).1.Coherent := by
  cases c with
  | push msg => exact h.push msg
  | pop => exact h.pop

/-- A change that a call reports is the next one in turn, and a call that reports none leaves the
state as it is. -/
theorem reported_cases (rb : RingBuffer α) (c : BoundedQueue.Call α) :
    (rb.reported c = none ∧ (rb.call c).1.state = rb.state) ∨
      (rb.state = .normal ∧ rb.reported c = some (.push, .slowDown) ∧
        (rb.call c).1.state = .slowDown) ∨
      (rb.state = .slowDown ∧ rb.reported c = some (.pop, .normal) ∧
        (rb.call c).1.state = .normal) := by
  cases c with
  | push msg =>
    have hstate := rb.push_state msg
    cases hc : (rb.push msg).2.2 with
    | false =>
      rw [hc] at hstate
      exact .inl ⟨by simp [reported, call, hc], hstate⟩
    | true =>
      have hroom : rb.count ≠ rb.size := by
        intro hfull
        rw [push_of_full hfull] at hc
        cases hc
      rw [hc] at hstate
      refine .inr (.inl ⟨((push_changed_iff hroom msg).mp hc).1, ?_, hstate⟩)
      simp [reported, call, hc, hstate]
  | pop =>
    have hstate := rb.pop_state
    cases hc : rb.pop.2.2 with
    | false =>
      rw [hc] at hstate
      exact .inl ⟨by simp [reported, call, hc], hstate⟩
    | true =>
      have hne : rb.count ≠ 0 := by
        intro hempty
        rw [pop_of_empty hempty] at hc
        cases hc
      rw [hc] at hstate
      refine .inr (.inr ⟨((pop_changed_iff hne).mp hc).1, ?_, hstate⟩)
      simp [reported, call, hc, hstate]

/-- **Changes alternate**, whatever the marks are. -/
theorem alternates_reports (rb : RingBuffer α) (cs : List (BoundedQueue.Call α)) :
    Alternates rb.state (reports rb cs) := by
  induction cs generalizing rb with
  | nil => simp [reports, Alternates]
  | cons c cs ih =>
    have hrest := ih (rb.call c).1
    rw [reports]
    rcases rb.reported_cases c with ⟨hnone, hstate⟩ | ⟨hbefore, hsome, hstate⟩ |
      ⟨hbefore, hsome, hstate⟩
    · rw [hstate] at hrest
      rwa [hnone]
    · rw [hstate] at hrest
      rw [hbefore, hsome]
      exact ⟨rfl, hrest⟩
    · rw [hstate] at hrest
      rw [hbefore, hsome]
      exact ⟨rfl, hrest⟩

end

/-- **When the ring buffer is a hysteresis.**  For all arguments of `NewRingBuffer` and all calls of
`Push` and `Pop`: the state agrees with the fill ratio all along, the low mark is below the high
mark and the reported changes alternate, exactly if a high mark of at most 0.3 comes with a low mark
that is between 0 and it. -/
theorem hysteresis_iff (size : ℤ) (high low : ℚ) (cs : List (BoundedQueue.Call α)) :
    Hysteresis (newRingBuffer size high low) cs ↔
      (0 < high → high ≤ 3 / 10 → 0 < low ∧ low < high) := by
  rw [← effectiveLow_lt_iff]
  constructor
  · rintro ⟨hcoherent, -⟩
    exact (hcoherent [] nil_prefix).marks
  · intro hmarks
    refine ⟨fun ds _ => ?_, alternates_reports _ cs⟩
    exact Lib.stateAfter_invariant (fun _ c h => h.call c)
      (coherent_newRingBuffer hmarks) ds

/-- A buffer for 10 messages with a high mark of 0.2 and a low mark of 0.5, after two messages. -/
def crossed : RingBuffer ℕ :=
  stateAfter call (newRingBuffer 10 (1 / 5) (1 / 2)) [.push 0, .push 1]

/-- It is to slow down, although it is filled below its low mark, which is above its high mark. -/
theorem marks_crossed :
    crossed.state = .slowDown ∧ crossed.fillRatio < crossed.lowMark ∧
      crossed.highMark < crossed.lowMark ∧ ¬ crossed.Coherent := by
  have hvalues : crossed.state = .slowDown ∧ crossed.fillRatio < crossed.lowMark ∧
      crossed.highMark < crossed.lowMark := by decide +kernel
  obtain ⟨hstate, hratio, hmarks⟩ := hvalues
  exact ⟨hstate, hratio, hmarks, fun h => absurd h.marks (not_lt.mpr hmarks.le)⟩

end K8s4Claw.IpcBus.RingBuffer
