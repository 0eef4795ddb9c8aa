/-
# A pool of threads over shared state

The state of a program with goroutines is the shared state and the point each
goroutine is at.  A `Pool` numbers the goroutines in the order they are started;
the numbers from `size` on are free.  An atomic step of one goroutine is an
`Effect`: the shared state after it, the point the goroutine is at next, and the
goroutine it starts, if any.

Two rules carry invariants through an effect: `forall_advance` for what holds of
every goroutine separately, and `exclusive_advance` for what is owned by at most
one goroutine.  `without` takes one goroutine out of a pool and numbers the later
ones anew (`advance_without`, `advance_self_without`).
-/

import Mathlib.Order.Lattice

namespace K8s4Claw.Lib

open Function

variable {σ τ κ : Type*}

theorem forall_of_eq_none {o : Option τ} (h : o = none) {p : τ → Prop} : ∀ a, o = some a → p a := by
  intro a ha
  rw [h] at ha
  cases ha

/-- One atomic step of a goroutine. -/
structure Effect (σ τ : Type*) where
  shared : σ
  next : τ
  spawn : Option τ

/-- The shared state and the goroutines, numbered in the order of their start. -/
structure Pool (σ τ : Type*) where
  shared : σ
  thread : ℕ → τ
  size : ℕ

namespace Pool

/-- Start a goroutine at `q`. -/
def go (P : Pool σ τ) (q : τ) : Pool σ τ :=
  ⟨P.shared, update P.thread P.size q, P.size + 1⟩

/-- Let goroutine `t` take the step `e`. -/
def advance (P : Pool σ τ) (t : ℕ) (e : Effect σ τ) : Pool σ τ :=
  match e.spawn with
  | none => ⟨e.shared, update P.thread t e.next, P.size⟩
  | some q => go ⟨e.shared, update P.thread t e.next, P.size⟩ q

section

variable (P : Pool σ τ)

@[simp]
theorem advance_shared (t : ℕ) (e : Effect σ τ) : (P.advance t e).shared = e.shared := by
  unfold advance
  cases e.spawn <;> rfl

theorem go_thread_size (q : τ) : (P.go q).thread P.size = q := by
  simp [go]

theorem go_thread_of_ne (q : τ) {u : ℕ} (h : u ≠ P.size) : (P.go q).thread u = P.thread u := by
  simp [go, h]

theorem advance_thread_none (t : ℕ) (s : σ) (q : τ) :
    (P.advance t { shared := s, next := q, spawn := none }).thread =
      update P.thread t q :=
  rfl

theorem size_le_advance (t : ℕ) (e : Effect σ τ) : P.size ≤ (P.advance t e).size := by
  unfold advance
  cases e.spawn
  · exact le_rfl
  · exact Nat.le_succ _

end

variable {P : Pool σ τ} {t k : ℕ} {e : Effect σ τ} {q : τ}

theorem advance_thread_self (ht : t < P.size) (e : Effect σ τ) :
    (P.advance t e).thread t = e.next := by
  unfold advance
  cases e.spawn with
  | none => simp
  | some => simp [go, ht.ne]

theorem advance_thread_of_ne {u : ℕ} (hu : u < P.size) (h : u ≠ t) (e : Effect σ τ) :
    (P.advance t e).thread u = P.thread u := by
  unfold advance
  cases e.spawn with
  | none => simp [h]
  | some => simp [go, hu.ne, h]

theorem advance_thread_spawn (h : e.spawn = some q) :
    P.size < (P.advance t e).size ∧ (P.advance t e).thread P.size = q := by
  unfold advance
  rw [h]
  exact ⟨Nat.lt_succ_self _, go_thread_size ..⟩

/-- **Who is who after an effect:** a goroutine is the one that moved, the one it
started, or one that is where it was. -/
theorem advance_thread_cases (ht : t < P.size) (e : Effect σ τ) (u : ℕ) :
    (u = t ∧ (P.advance t e).thread u = e.next) ∨
      (u ≠ t ∧ u = P.size ∧ ∃ q, e.spawn = some q ∧ (P.advance t e).thread u = q) ∨
      (u ≠ t ∧ (P.advance t e).thread u = P.thread u) := by
  by_cases hut : u = t
  · subst hut
    exact .inl ⟨rfl, advance_thread_self ht e⟩
  · refine .inr ?_
    cases hs : e.spawn with
    | none => exact .inr ⟨hut, by simp [advance, hs, hut]⟩
    | some q =>
      by_cases huS : u = P.size
      · subst huS
        exact .inl ⟨hut, rfl, q, rfl, (advance_thread_spawn hs).2⟩
      · exact .inr ⟨hut, by simp [advance, hs, go, huS, hut]⟩

/-- **Every goroutine keeps `I`** when the effect gives `I` to the goroutine that
moved and to the one it started and leaves it to the others. -/
theorem forall_advance {I : σ → τ → Prop} (ht : t < P.size)
    (hframe : ∀ u, u ≠ t → I e.shared (P.thread u)) (hnext : I e.shared e.next)
    (hspawn : ∀ q, e.spawn = some q → I e.shared q) :
    ∀ u, I (P.advance t e).shared ((P.advance t e).thread u) := by
  intro u
  rw [advance_shared]
  rcases advance_thread_cases ht e u with ⟨-, h⟩ | ⟨-, -, q, hq, h⟩ | ⟨hne, h⟩
  · rw [h]; exact hnext
  · rw [h]; exact hspawn q hq
  · rw [h]; exact hframe u hne

theorem forall_go {I : σ → τ → Prop} (hall : ∀ u, I P.shared (P.thread u)) (hq : I P.shared q) :
    ∀ u, I (P.go q).shared ((P.go q).thread u) := by
  intro u
  by_cases hu : u = P.size
  · subst hu
    rw [go_thread_size]
    exact hq
  · rw [go_thread_of_ne _ _ hu]
    exact hall u

theorem free_advance (hfree : ∀ u, P.size ≤ u → P.thread u = q) (ht : t < P.size)
    (hspawn : e.spawn = none) : ∀ u, (P.advance t e).size ≤ u → (P.advance t e).thread u = q := by
  intro u hu
  have hsize : P.size ≤ u := (size_le_advance P t e).trans hu
  rcases advance_thread_cases ht e u with ⟨heq, -⟩ | ⟨-, -, r, hr, -⟩ | ⟨-, h⟩
  · omega
  · rw [hspawn] at hr
    cases hr
  · rw [h]
    exact hfree u hsize

theorem free_go {r : τ} (hfree : ∀ u, P.size ≤ u → P.thread u = q) :
    ∀ u, (P.go r).size ≤ u → (P.go r).thread u = q := by
  intro u hu
  have hlt : P.size < u := hu
  rw [go_thread_of_ne _ _ hlt.ne']
  exact hfree u hlt.le

section

variable (Q : τ → Prop)

theorem exists_advance_of_ne (h : ∃ u < P.size, u ≠ t ∧ Q (P.thread u)) :
    ∃ u < (P.advance t e).size, Q ((P.advance t e).thread u) := by
  obtain ⟨u, hu, hne, hq⟩ := h
  refine ⟨u, hu.trans_le (size_le_advance P t e), ?_⟩
  rwa [advance_thread_of_ne hu hne]

theorem exists_advance_of_next (ht : t < P.size) (h : Q e.next) :
    ∃ u < (P.advance t e).size, Q ((P.advance t e).thread u) :=
  ⟨t, ht.trans_le (size_le_advance P t e), by rwa [advance_thread_self ht]⟩

theorem exists_advance_of_spawn (hs : e.spawn = some q) (h : Q q) :
    ∃ u < (P.advance t e).size, Q ((P.advance t e).thread u) :=
  ⟨P.size, (advance_thread_spawn hs).1, by rwa [(advance_thread_spawn hs).2]⟩

theorem exists_go (h : ∃ u < P.size, Q (P.thread u)) :
    ∃ u < (P.go q).size, Q ((P.go q).thread u) := by
  obtain ⟨u, hu, hq⟩ := h
  refine ⟨u, hu.trans (Nat.lt_succ_self _), ?_⟩
  rwa [go_thread_of_ne _ _ hu.ne]

end

/-- What `own` assigns to a goroutine belongs to no other goroutine. -/
def Exclusive (own : τ → Option κ) (P : Pool σ τ) : Prop :=
  ∀ t u k, own (P.thread t) = some k → own (P.thread u) = some k → t = u

/-- **Ownership stays exclusive** when the goroutine that moved and the one it
started own only what the moving goroutine owned or no one did, and not both
the same. -/
theorem exclusive_advance {own : τ → Option κ} (ht : t < P.size) (hex : Exclusive own P)
    (hnext : ∀ k, own e.next = some k →
      own (P.thread t) = some k ∨ ∀ u, own (P.thread u) ≠ some k)
    (hspawn : ∀ q k, e.spawn = some q → own q = some k → own e.next ≠ some k ∧
      (own (P.thread t) = some k ∨ ∀ u, own (P.thread u) ≠ some k)) :
    Exclusive own (P.advance t e) := by
  -- nobody else owns what the moving goroutine owned or nobody did
  have hother : ∀ u k, u ≠ t → (own (P.thread t) = some k ∨ ∀ v, own (P.thread v) ≠ some k) →
      own (P.thread u) ≠ some k := by
    rintro u k hu (h | h) hk
    · exact hu (hex u t k hk h)
    · exact h u hk
  intro u v k hu hv
  rcases advance_thread_cases ht e u with ⟨eu, h₁⟩ | ⟨-, eu, q, hq, h₁⟩ | ⟨nu, h₁⟩ <;>
    rcases advance_thread_cases ht e v with ⟨ev, h₂⟩ | ⟨-, ev, r, hr, h₂⟩ | ⟨nv, h₂⟩ <;>
    rw [h₁] at hu <;> rw [h₂] at hv
  · exact eu.trans ev.symm
  · exact absurd hu (hspawn r k hr hv).1
  · exact absurd hv (hother v k nv (hnext k hu))
  · exact absurd hv (hspawn q k hq hu).1
  · exact eu.trans ev.symm
  · exact absurd hv (hother v k nv (hspawn q k hq hu).2)
  · exact absurd hu (hother u k nu (hnext k hv))
  · exact absurd hu (hother u k nu (hspawn r k hr hv).2)
  · exact hex u v k hu hv

theorem exclusive_go {own : τ → Option κ} (hex : Exclusive own P) (hq : own q = none) :
    Exclusive own (P.go q) := by
  have hsome : ∀ u k, own ((P.go q).thread u) = some k → own (P.thread u) = some k := by
    intro u k h
    by_cases hu : u = P.size
    · subst hu
      rw [go_thread_size, hq] at h
      cases h
    · rwa [go_thread_of_ne _ _ hu] at h
  exact fun u v k hu hv => hex u v k (hsome u k hu) (hsome v k hv)

/-- The number a goroutine has once goroutine `k` is taken out. -/
def renumber (k t : ℕ) : ℕ := if t < k then t else t - 1

/-- The pool without goroutine `k`. -/
def without (k : ℕ) (P : Pool σ τ) : Pool σ τ where
  shared := P.shared
  thread t := if t < k then P.thread t else P.thread (t + 1)
  size := P.size - 1

theorem without_thread_renumber (P : Pool σ τ) (h : t ≠ k) :
    (P.without k).thread (renumber k t) = P.thread t := by
  unfold without renumber
  dsimp only
  split_ifs
  · rfl
  · omega
  · rw [show t - 1 + 1 = t by omega]

theorem renumber_lt_size (ht : t < P.size) (hk : k < P.size) (h : t ≠ k) :
    renumber k t < (P.without k).size := by
  unfold renumber without
  dsimp only
  split_ifs <;> omega

theorem update_without (f : ℕ → τ) (q : τ) (h : t ≠ k) :
    (fun u => if u < k then update f t q u else update f t q (u + 1)) =
      update (fun u => if u < k then f u else f (u + 1)) (renumber k t) q := by
  funext u
  unfold renumber
  simp only [update_apply]
  split_ifs <;> first | rfl | omega

theorem go_without (hk : k < P.size) (q : τ) : (P.go q).without k = (P.without k).go q := by
  have hsize : renumber k P.size = P.size - 1 := by
    unfold renumber
    split_ifs
    · omega
    · rfl
  unfold without go
  rw [update_without _ _ hk.ne', hsize, show P.size + 1 - 1 = P.size - 1 + 1 by omega]

/-- **The other goroutines go on as before.** -/
theorem advance_without (hk : k < P.size) (h : t ≠ k) (e : Effect σ τ) :
    (P.advance t e).without k = (P.without k).advance (renumber k t) e := by
  unfold advance
  cases e.spawn with
  | none =>
    unfold without
    rw [update_without _ _ h]
  | some =>
    rw [go_without (P := ⟨e.shared, update P.thread t e.next, P.size⟩) hk]
    unfold without
    rw [update_without _ _ h]

/-- **A step that leaves the shared state alone is not missed.** -/
theorem advance_self_without (hs : e.shared = P.shared) (hspawn : e.spawn = none) :
    (P.advance k e).without k = P.without k := by
  unfold advance
  rw [hspawn]
  unfold without
  congr 1
  funext u
  simp only [update_apply]
  split_ifs <;> first | rfl | omega

theorem go_without_size {r : τ} (hfree : ∀ u, P.size ≤ u → P.thread u = r) :
    (P.go q).without P.size = P := by
  unfold without go
  have hthread : (fun t => if t < P.size then update P.thread P.size q t
      else update P.thread P.size q (t + 1)) = P.thread := by
    funext t
    simp only [update_apply]
    split_ifs
    · omega
    · rfl
    · omega
    · rw [hfree t (by omega), hfree (t + 1) (by omega)]
  rw [hthread]
  rfl

end Pool
end K8s4Claw.Lib
