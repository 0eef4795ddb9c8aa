/-
# Objects that are called

An object is a function `call : σ → ι → σ × ο`: every call is taken, changes the state and has an
answer.  `stateAfter` and `answers` are what a list of calls leads to.

An invariant that every call keeps holds after any calls (`stateAfter_invariant`).  One object
refines another if a relation between their states is kept by each call, and the answers to the call
are the same: then all answers are the same and the states stay related (`answers_refine`).

`BoundedQueue` is an object to refine: a queue that refuses elements beyond its capacity.
-/

import Mathlib.Data.List.Basic

namespace K8s4Claw.Lib

section

variable {σ τ ι ο ο' : Type*} {call : σ → ι → σ × ο} {spec : τ → ι → τ × ο'}

/-- The state after some calls. -/
def stateAfter (call : σ → ι → σ × ο) : σ → List ι → σ
  | s, [] => s
  | s, c :: cs => stateAfter call (call s c).1 cs

/-- The answers to some calls, in order. -/
def answers (call : σ → ι → σ × ο) : σ → List ι → List ο
  | _, [] => []
  | s, c :: cs => (call s c).2 :: answers call (call s c).1 cs

/-- **An invariant of every call holds after any calls.** -/
theorem stateAfter_invariant {I : σ → Prop} (hcall : ∀ s c, I s → I (call s c).1) {s : σ}
    (hs : I s) (cs : List ι) : I (stateAfter call s cs) := by
  induction cs generalizing s with
  | nil => exact hs
  | cons c cs ih => exact ih (hcall s c hs)

/-- **Refinement.**  Two objects whose related states answer each call alike, and stay related, give
the same answers to any calls; `reply` is what counts of an answer of the first. -/
theorem answers_refine {reply : ο → ο'} {R : σ → τ → Prop}
    (hcall : ∀ s t c, R s t →
      reply (call s c).2 = (spec t c).2 ∧ R (call s c).1 (spec t c).1)
    {s : σ} {t : τ} (hR : R s t) (cs : List ι) :
    (answers call s cs).map reply = answers spec t cs ∧
      R (stateAfter call s cs) (stateAfter spec t cs) := by
  induction cs generalizing s t with
  | nil => exact ⟨rfl, hR⟩
  | cons c cs ih =>
    obtain ⟨hreply, hnext⟩ := hcall s t c hR
    obtain ⟨hanswers, hend⟩ := ih hnext
    refine ⟨?_, hend⟩
    rw [answers, answers, List.map_cons, hreply, hanswers]

end

/-! ### Bounded queues -/

/-- A queue of at most `cap` elements, the oldest first. -/
structure BoundedQueue (α : Type*) (cap : ℕ) where
  items : List α
  length_le : items.length ≤ cap

namespace BoundedQueue

variable {α : Type*} {cap : ℕ}

/-- The calls of a queue. -/
inductive Call (α : Type*) where
  | push (x : α)
  | pop

/-- Their answers: whether there was room, and the oldest element. -/
inductive Answer (α : Type*) where
  | pushed (ok : Bool)
  | popped (x : Option α)

def empty : BoundedQueue α cap := ⟨[], Nat.zero_le cap⟩

section

variable (q : BoundedQueue α cap)

/-- An element goes to the end if there is room. -/
def push (x : α) : BoundedQueue α cap × Bool :=
  if h : q.items.length < cap then (⟨q.items ++ [x], by simpa using Nat.succ_le_of_lt h⟩, true)
  else (q, false)

/-- The oldest element, if there is one, leaves the queue. -/
def pop : BoundedQueue α cap × Option α :=
  (⟨q.items.tail, Nat.le_trans (List.tail_sublist q.items).length_le q.length_le⟩, q.items.head?)

def call : Call α → BoundedQueue α cap × Answer α
  | .push x => ((q.push x).1, .pushed (q.push x).2)
  | .pop => (q.pop.1, .popped q.pop.2)

@[simp]
theorem items_pop : q.pop.1.items = q.items.tail := rfl

@[simp]
theorem snd_pop : q.pop.2 = q.items.head? := rfl

end

theorem push_of_lt {q : BoundedQueue α cap} (h : q.items.length < cap) (x : α) :
    (q.push x).1.items = q.items ++ [x] ∧ (q.push x).2 = true := by
  simp [push, h]

theorem push_of_le {q : BoundedQueue α cap} (h : cap ≤ q.items.length) (x : α) :
    q.push x = (q, false) :=
  dif_neg (Nat.not_lt.mpr h)

end BoundedQueue

end K8s4Claw.Lib
