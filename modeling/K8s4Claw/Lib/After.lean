/-
# One item after another in a list

`After seen a b l` says that in `l` every `b` comes after an `a`, where `seen` stands for what was
there before `l`.  Queues keep it: an item appended at the end has all the others before it, and
when the head is taken out it has been seen.
-/

import Mathlib.Data.List.Basic

namespace K8s4Claw.Lib

open List

variable {α : Type*} {seen seen' : Prop} {a b x : α} {l : List α}

/-- Every `b` in `l` comes after an `a` in `l`, unless `seen` holds. -/
def After (seen : Prop) (a b : α) (l : List α) : Prop :=
  ∀ l₁ l₂, l = l₁ ++ b :: l₂ → seen ∨ a ∈ l₁

theorem after_of_not_mem (h : b ∉ l) : After seen a b l := by
  rintro l₁ l₂ rfl
  exact absurd (mem_append_right l₁ (mem_cons_self ..)) h

theorem after_nil : After seen a b [] := after_of_not_mem not_mem_nil

theorem After.mono (h : After seen a b l) (himp : seen → seen') : After seen' a b l :=
  fun l₁ l₂ hl => (h l₁ l₂ hl).imp himp id

theorem After.concat (h : After seen a b l) (hx : x = b → seen ∨ a ∈ l) :
    After seen a b (l ++ [x]) := by
  intro l₁ l₂ hl
  rcases eq_nil_or_concat l₂ with rfl | ⟨l₃, y, rfl⟩
  · obtain ⟨rfl, hxb⟩ := append_inj' hl rfl
    exact hx (singleton_inj.mp hxb)
  · rw [concat_eq_append, ← cons_append, ← append_assoc] at hl
    obtain ⟨rfl, -⟩ := append_inj' hl rfl
    exact h l₁ l₃ rfl

theorem After.tail (h : After seen a b (x :: l)) : After (seen ∨ a = x) a b l := by
  rintro l₁ l₂ rfl
  rcases h (x :: l₁) l₂ rfl with hs | hmem
  · exact .inl (.inl hs)
  · rcases mem_cons.mp hmem with rfl | hmem
    · exact .inl (.inr rfl)
    · exact .inr hmem

theorem After.head (h : After seen a b (b :: l)) : seen := by
  rcases h [] l rfl with hs | hmem
  · exact hs
  · exact absurd hmem not_mem_nil

end K8s4Claw.Lib
