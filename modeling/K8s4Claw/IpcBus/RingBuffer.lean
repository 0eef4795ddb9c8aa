/-
# The ring buffer of a channel

`internal/ipcbus/ringbuffer.go`: a circular buffer with two watermarks.  Filling it to the
high mark puts it in the state `slowDown`, emptying it to the low mark takes it back to
`normal`; `Push` and `Pop` report such a change.  Read from the oldest message on, the buffer
is a queue (`contents_push`, `contents_pop`).

The positions are below the size, and the write position is `count` places behind the read
position; both are part of the type.  The marks and the fill ratio are `float64` in the
source and rationals here.
-/

import Mathlib.Algebra.Order.Ring.Rat
import Mathlib.Data.Int.ModEq

namespace K8s4Claw.IpcBus

/-- `BackpressureState`. -/
inductive BackpressureState where
  | normal
  | slowDown
  deriving DecidableEq

/-- `RingBuffer`: `head` is the next position to read and `tail` the next to write. -/
structure RingBuffer (α : Type*) where
  size : ℕ
  buf : Vector (Option α) size
  head : Fin size
  tail : Fin size
  count : ℕ
  highMark : ℚ
  lowMark : ℚ
  state : BackpressureState
  count_le : count ≤ size
  tail_eq : tail.val = (head.val + count) % size

namespace RingBuffer

variable {α : Type*}

def defaultSize : ℕ := 1024

def defaultHigh : ℚ := 4 / 5

def defaultLow : ℚ := 3 / 10

/-- `size`, or the default for a size that is not positive. -/
def effectiveSize (size : ℤ) : ℕ := if size ≤ 0 then defaultSize else size.toNat

/-- The high mark, or the default when it is not in (0, 1]. -/
def effectiveHigh (high : ℚ) : ℚ := if high ≤ 0 ∨ high > 1 then defaultHigh else high

/-- The low mark, or the default when it is not below the high mark. -/
def effectiveLow (high low : ℚ) : ℚ := if low ≤ 0 ∨ low ≥ high then defaultLow else low

theorem effectiveSize_pos (size : ℤ) : 0 < effectiveSize size := by
  unfold effectiveSize
  split_ifs
  · decide
  · omega

def newRingBuffer (size : ℤ) (highWatermark lowWatermark : ℚ) : RingBuffer α where
  size := effectiveSize size
  buf := Vector.replicate _ none
  head := ⟨0, effectiveSize_pos size⟩
  tail := ⟨0, effectiveSize_pos size⟩
  count := 0
  highMark := effectiveHigh highWatermark
  lowMark := effectiveLow (effectiveHigh highWatermark) lowWatermark
  state := .normal
  count_le := Nat.zero_le _
  tail_eq := by simp

/-- The position after `i`. -/
def next {size : ℕ} (i : Fin size) : Fin size := ⟨(i + 1) % size, Nat.mod_lt _ i.pos⟩

/-- The fill ratio with `count` messages. -/
def ratio (size count : ℕ) : ℚ := count / size

/-- `Push`: the buffer, whether there was room, and whether the state changed. -/
def push (rb : RingBuffer α) (msg : α) : RingBuffer α × Bool × Bool :=
  if h : rb.count = rb.size then (rb, false, false)
  else
    let stateChanged := rb.state = .normal ∧ ratio rb.size (rb.count + 1) ≥ rb.highMark
    ({ rb with
        buf := rb.buf.set rb.tail (some msg) rb.tail.isLt
        tail := next rb.tail
        count := rb.count + 1
        state := if stateChanged then .slowDown else rb.state
        count_le := by
          have := rb.count_le
          omega
        tail_eq := by
          show (rb.tail.val + 1) % rb.size = _
          rw [rb.tail_eq, Nat.mod_add_mod, Nat.add_assoc] },
      true, stateChanged)

/-- `Pop`: the buffer, the oldest message, and whether the state changed. -/
def pop (rb : RingBuffer α) : RingBuffer α × Option α × Bool :=
  if h : rb.count = 0 then (rb, none, false)
  else
    let stateChanged := rb.state = .slowDown ∧ ratio rb.size (rb.count - 1) ≤ rb.lowMark
    ({ rb with
        buf := rb.buf.set rb.head none rb.head.isLt
        head := next rb.head
        count := rb.count - 1
        state := if stateChanged then .normal else rb.state
        count_le := by
          have := rb.count_le
          omega
        tail_eq := by
          have hcount : rb.head.val + 1 + (rb.count - 1) = rb.head.val + rb.count := by omega
          show rb.tail.val = ((rb.head.val + 1) % rb.size + (rb.count - 1)) % rb.size
          rw [rb.tail_eq, Nat.mod_add_mod, hcount] },
      rb.buf.get rb.head, stateChanged)

/-! ### The buffer as a queue -/

open List

/-- The place of the `i`-th oldest message. -/
def slot (rb : RingBuffer α) (i : ℕ) : Fin rb.size :=
  ⟨(rb.head + i) % rb.size, Nat.mod_lt _ rb.head.pos⟩

/-- What is in the buffer, oldest first. -/
def contents (rb : RingBuffer α) : List (Option α) :=
  (List.range rb.count).map fun i => rb.buf.get (rb.slot i)

@[simp]
theorem length_contents (rb : RingBuffer α) : rb.contents.length = rb.count := by
  simp [contents]

@[simp]
theorem contents_newRingBuffer (size : ℤ) (high low : ℚ) :
    (newRingBuffer size high low : RingBuffer α).contents = [] :=
  rfl

section

variable (rb : RingBuffer α)

theorem slot_count : rb.slot rb.count = rb.tail :=
  Fin.ext rb.tail_eq.symm

theorem slot_zero : rb.slot 0 = rb.head :=
  Fin.ext (Nat.mod_eq_of_lt rb.head.isLt)

theorem slot_ne {i j : ℕ} (hij : i < j) (hj : j < rb.size) : rb.slot i ≠ rb.slot j := by
  intro h
  have hmod : (rb.head.val + i) % rb.size = (rb.head.val + j) % rb.size := congrArg Fin.val h
  have hi : i % rb.size = j % rb.size := Nat.ModEq.add_left_cancel' rb.head.val hmod
  rw [Nat.mod_eq_of_lt (hij.trans hj), Nat.mod_eq_of_lt hj] at hi
  omega

end

variable {rb : RingBuffer α}

/-- **`Push` puts the message behind the others**, when there is room. -/
theorem contents_push (h : rb.count ≠ rb.size) (msg : α) :
    (rb.push msg).1.contents = rb.contents ++ [some msg] := by
  have hlt : rb.count < rb.size := lt_of_le_of_ne rb.count_le h
  have hold : ∀ i < rb.count,
      (rb.buf.set rb.tail (some msg) rb.tail.isLt).get (rb.slot i) = rb.buf.get (rb.slot i) := by
    intro i hi
    have hne : rb.tail.val ≠ (rb.slot i).val := by
      rw [← rb.slot_count]
      exact fun e => rb.slot_ne hi hlt (Fin.ext e.symm)
    exact Vector.getElem_set_ne rb.tail.isLt (rb.slot i).isLt hne
  have hnew : (rb.buf.set rb.tail (some msg) rb.tail.isLt).get (rb.slot rb.count) = some msg := by
    rw [rb.slot_count]
    exact Vector.getElem_set_self rb.tail.isLt
  unfold push
  rw [dif_neg h]
  show (range (rb.count + 1)).map
      (fun i => (rb.buf.set rb.tail (some msg) rb.tail.isLt).get (rb.slot i)) = _
  rw [range_succ, map_append, map_singleton, hnew]
  congr 1
  exact map_congr_left fun i hi => hold i (mem_range.mp hi)

theorem slot_succ (rb : RingBuffer α) (i : ℕ) :
    ((next rb.head).val + i) % rb.size = (rb.slot (i + 1)).val := by
  show ((rb.head.val + 1) % rb.size + i) % rb.size = (rb.head.val + (i + 1)) % rb.size
  rw [Nat.mod_add_mod, Nat.add_assoc, Nat.add_comm 1 i]

/-- **`Pop` takes the oldest message.** -/
theorem contents_pop (h : rb.count ≠ 0) : rb.contents = rb.pop.2.1 :: rb.pop.1.contents := by
  obtain ⟨n, hn⟩ := Nat.exists_eq_succ_of_ne_zero h
  have hrest : ∀ i < n, (rb.buf.set rb.head none rb.head.isLt).get
      ⟨((next rb.head).val + i) % rb.size, Nat.mod_lt _ rb.head.pos⟩ =
        rb.buf.get (rb.slot (i + 1)) := by
    intro i hi
    have hlt : i + 1 < rb.size := by
      have := rb.count_le
      omega
    have hne : rb.head.val ≠ (rb.slot (i + 1)).val := by
      rw [← rb.slot_zero]
      exact fun e => rb.slot_ne (Nat.succ_pos i) hlt (Fin.ext e)
    rw [show (⟨((next rb.head).val + i) % rb.size, Nat.mod_lt _ rb.head.pos⟩ : Fin rb.size) =
      rb.slot (i + 1) from Fin.ext (rb.slot_succ i)]
    exact Vector.getElem_set_ne rb.head.isLt (rb.slot (i + 1)).isLt hne
  unfold pop
  rw [dif_neg h]
  show _ = rb.buf.get rb.head :: (range (rb.count - 1)).map
    (fun i => (rb.buf.set rb.head none rb.head.isLt).get
      ⟨((next rb.head).val + i) % rb.size, Nat.mod_lt _ rb.head.pos⟩)
  rw [contents, hn, range_succ_eq_map, map_cons, map_map, rb.slot_zero]
  congr 1
  exact map_congr_left fun i hi => (hrest i (mem_range.mp hi)).symm

section

variable (rb : RingBuffer α)

theorem push_state (msg : α) :
    (rb.push msg).1.state = if (rb.push msg).2.2 then .slowDown else rb.state := by
  unfold push
  split_ifs <;> simp_all

theorem pop_state : rb.pop.1.state = if rb.pop.2.2 then .normal else rb.state := by
  unfold pop
  split_ifs <;> simp_all

theorem push_lowMark (msg : α) : (rb.push msg).1.lowMark = rb.lowMark := by
  unfold push
  split_ifs <;> rfl

theorem pop_lowMark : rb.pop.1.lowMark = rb.lowMark := by
  unfold pop
  split_ifs <;> rfl

end

/-- Emptying the buffer ends the backpressure. -/
theorem pop_state_of_count_eq_one (hlow : 0 ≤ rb.lowMark) (h : rb.count = 1) :
    rb.pop.1.state = .normal := by
  have hratio : ratio rb.size (rb.count - 1) ≤ rb.lowMark := by
    simpa [ratio, h] using hlow
  unfold pop
  rw [dif_neg (by omega)]
  show (if rb.state = .slowDown ∧ ratio rb.size (rb.count - 1) ≤ rb.lowMark then
    BackpressureState.normal else rb.state) = .normal
  cases rb.state with
  | normal => simp
  | slowDown => simp [hratio]

theorem effectiveLow_pos (high low : ℚ) : 0 < effectiveLow high low := by
  unfold effectiveLow
  split_ifs with h
  · decide +kernel
  · exact lt_of_not_ge fun hle => h (.inl hle)

end RingBuffer
end K8s4Claw.IpcBus
