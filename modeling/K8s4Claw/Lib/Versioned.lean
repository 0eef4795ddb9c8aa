/-
# Objects under optimistic concurrency

An API server keeps each object under a version: a client reads an object, changes its copy and
sends it back, and the write goes through only if the object still has the version that was read.
Reads may be stale, and objects may be deleted meanwhile.

A `Store` has the objects in the order they were created, each with all the versions it ever had,
oldest first; the number of a version is its position.  A `Copy` is what a client read: object,
version and value.

What a client read stays true of the store whatever the others do (`holds_create`, `holds_update`,
`holds_delete`), so an invariant of the clients' copies needs no frame argument.  A write that goes
through was made from the last version, so the versions of an object are a chain of whatever relates
the value that is written to the one it was made from (`chained_update`).
-/

import Mathlib.Data.List.Chain

namespace K8s4Claw.Lib

open List Option

/-- The versions of an object, oldest first. -/
structure Object (α : Type*) where
  versions : List α
  deleted : Bool
  deriving DecidableEq

/-- The objects, in the order of their creation. -/
structure Store (α : Type*) where
  objects : List (Object α)
  deriving DecidableEq

/-- What a client read of an object. -/
structure Copy (α : Type*) where
  object : ℕ
  version : ℕ
  value : α
  deriving DecidableEq

namespace Store

variable {α : Type*}

def empty : Store α := ⟨[]⟩

/-- The value of an object at a version. -/
def read (s : Store α) (object version : ℕ) : Option α :=
  s.objects[object]?.bind fun o => o.versions[version]?

/-- A copy of an object at one of its versions, the last one or an older one. -/
def copy (s : Store α) (object version : ℕ) : Option (Copy α) :=
  (s.read object version).map fun a => ⟨object, version, a⟩

/-- The copy was read from this store. -/
def Holds (s : Store α) (c : Copy α) : Prop := s.read c.object c.version = some c.value

/-- The copy is of the version that is stored. -/
def Current (s : Store α) (c : Copy α) : Prop :=
  ∃ o ∈ s.objects[c.object]?, o.deleted = false ∧ o.versions.length = c.version + 1
  deriving Decidable

section

variable (s : Store α)

def create (a : α) : Store α := ⟨s.objects ++ [⟨[a], false⟩]⟩

/-- The copy that `create` returns. -/
def created (a : α) : Copy α := ⟨s.objects.length, 0, a⟩

/-- Write a copy back with a new value; the client's copy then has the new version. -/
def update (c : Copy α) (a : α) : Option (Store α × Copy α) :=
  if s.Current c then
    some (⟨s.objects.modify c.object fun o => { o with versions := o.versions ++ [a] }⟩,
      ⟨c.object, c.version + 1, a⟩)
  else none

def delete (object : ℕ) : Store α :=
  ⟨s.objects.modify object fun o => { o with deleted := true }⟩

/-- The last version of an object, deleted or not. -/
def last (object : ℕ) : Option α :=
  s.objects[object]?.bind fun o => o.versions.getLast?

/-- The copy of an object that is stored, if it is not deleted. -/
def stored (object : ℕ) : Option (Copy α) :=
  s.objects[object]?.bind fun o =>
    if o.deleted then none
    else o.versions.getLast?.map fun a => ⟨object, o.versions.length - 1, a⟩

/-- What is stored, in the order of creation. -/
def live : List (Copy α) := (List.range s.objects.length).filterMap s.stored

end

/-- The first version of every object satisfies `p`. -/
def Begins (p : α → Prop) (s : Store α) : Prop := ∀ o ∈ s.objects, ∃ a ∈ o.versions.head?, p a

/-- The versions of every object are a chain of `R`. -/
def Chained (R : α → α → Prop) (s : Store α) : Prop := ∀ o ∈ s.objects, o.versions.IsChain R

section

variable {p : α → Prop} {R : α → α → Prop} {s t : Store α} {c d e : Copy α} {a b : α}
  {object version : ℕ}

theorem holds_of_copy (h : s.copy object version = some c) : s.Holds c := by
  obtain ⟨a, ha, rfl⟩ := map_eq_some_iff.mp h
  exact ha

theorem holds_iff : s.Holds c ↔
    ∃ o, s.objects[c.object]? = some o ∧ o.versions[c.version]? = some c.value :=
  bind_eq_some_iff

theorem holds_of_last (h : s.last object = some a) : ∃ version, s.Holds ⟨object, version, a⟩ := by
  obtain ⟨o, ho, hlast⟩ := bind_eq_some_iff.mp h
  rw [getLast?_eq_getElem?] at hlast
  exact ⟨o.versions.length - 1, holds_iff.mpr ⟨o, ho, hlast⟩⟩

variable {f : Object α → Object α} {β : Type*}

theorem holds_modify {i : ℕ}
    (hf : ∀ (o : Object α) (v : ℕ) (a : α), o.versions[v]? = some a → (f o).versions[v]? = some a)
    (h : s.Holds c) : Holds ⟨s.objects.modify i f⟩ c := by
  obtain ⟨o, ho, hv⟩ := holds_iff.mp h
  refine holds_iff.mpr ?_
  by_cases hi : i = c.object
  · subst hi
    exact ⟨f o, by simp [ho], hf o _ _ hv⟩
  · exact ⟨o, by simp [ho, hi], hv⟩

/-- **What was read stays true of the store**, whatever is created, written or deleted. -/
theorem holds_create (h : s.Holds c) (a : α) : (s.create a).Holds c := by
  obtain ⟨o, ho, hv⟩ := holds_iff.mp h
  refine holds_iff.mpr ⟨o, ?_, hv⟩
  exact (List.getElem?_append_left (List.getElem?_eq_some_iff.mp ho).1).trans ho

theorem holds_created (s : Store α) (a : α) : (s.create a).Holds (s.created a) :=
  holds_iff.mpr ⟨⟨[a], false⟩, by simp [create, created], rfl⟩

theorem update_eq_some (h : s.update c a = some (t, d)) :
    s.Current c ∧ d = ⟨c.object, c.version + 1, a⟩ ∧
      t = ⟨s.objects.modify c.object fun o => { o with versions := o.versions ++ [a] }⟩ := by
  unfold update at h
  split_ifs at h with hcurrent
  obtain ⟨rfl, rfl⟩ := Prod.mk.inj (some.inj h)
  exact ⟨hcurrent, rfl, rfl⟩

theorem holds_update (h : s.Holds c) (hupdate : s.update d a = some (t, e)) : t.Holds c := by
  obtain ⟨-, -, rfl⟩ := update_eq_some hupdate
  refine holds_modify (fun o v b hb => ?_) h
  exact (List.getElem?_append_left (List.getElem?_eq_some_iff.mp hb).1).trans hb

theorem holds_of_update (h : t.Holds e) (hupdate : s.update c a = some (t, d)) :
    s.Holds e ∨ e = d := by
  obtain ⟨⟨o, ho, -, hlength⟩, rfl, rfl⟩ := update_eq_some hupdate
  replace ho : s.objects[c.object]? = some o := ho
  obtain ⟨o', ho', hv⟩ := holds_iff.mp h
  by_cases hobject : c.object = e.object
  · obtain rfl : { o with versions := o.versions ++ [a] } = o' := by
      simpa [← hobject, ho] using ho'
    rw [List.getElem?_append] at hv
    split_ifs at hv
    · exact .inl (holds_iff.mpr ⟨o, hobject ▸ ho, hv⟩)
    · rw [List.getElem?_singleton] at hv
      split_ifs at hv
      have hversion : c.version + 1 = e.version := by omega
      cases hv
      exact .inr (by rw [hobject, hversion])
  · refine .inl (holds_iff.mpr ⟨o', ?_, hv⟩)
    simpa [hobject] using ho'

theorem holds_updated (hupdate : s.update c a = some (t, d)) : t.Holds d := by
  obtain ⟨⟨o, ho, -, hlength⟩, rfl, rfl⟩ := update_eq_some hupdate
  replace ho : s.objects[c.object]? = some o := ho
  refine holds_iff.mpr ⟨{ o with versions := o.versions ++ [a] }, ?_, ?_⟩
  · simp [ho]
  · simp [← hlength]

theorem holds_of_create (h : (s.create a).Holds c) : s.Holds c ∨ c = s.created a := by
  obtain ⟨o, ho, hv⟩ := holds_iff.mp h
  simp only [create, List.getElem?_append] at ho
  split_ifs at ho with hlt
  · exact .inl (holds_iff.mpr ⟨o, ho, hv⟩)
  · rw [List.getElem?_singleton] at ho
    split_ifs at ho with hlast
    cases ho
    obtain ⟨object, version, value⟩ := c
    rw [List.getElem?_singleton] at hv
    split_ifs at hv with hversion
    cases hv
    obtain rfl : object = s.objects.length := by simp only at hlt hlast; omega
    obtain rfl : version = 0 := hversion
    exact .inr rfl

theorem holds_of_delete (h : (s.delete object).Holds c) : s.Holds c := by
  obtain ⟨o, ho, hv⟩ := holds_iff.mp h
  simp only [delete, List.getElem?_modify] at ho
  obtain ⟨o', ho', rfl⟩ := map_eq_some_iff.mp ho
  refine holds_iff.mpr ⟨o', ho', ?_⟩
  split_ifs at hv <;> exact hv

theorem holds_delete (h : s.Holds c) (object : ℕ) : (s.delete object).Holds c :=
  holds_modify (fun _ _ _ hv => hv) h

theorem not_holds_created (s : Store α) (a : α) : ¬ s.Holds (s.created a) := by
  intro h
  obtain ⟨o, ho, -⟩ := holds_iff.mp h
  exact (List.getElem?_eq_some_iff.mp ho).1.false

theorem not_holds_updated (hupdate : s.update c a = some (t, d)) : ¬ s.Holds d := by
  obtain ⟨⟨o, ho, -, hlength⟩, rfl, -⟩ := update_eq_some hupdate
  intro h
  obtain ⟨o', ho', hv⟩ := holds_iff.mp h
  obtain rfl := some.inj (ho.symm.trans ho')
  have hlt : c.version + 1 < o.versions.length := (List.getElem?_eq_some_iff.mp hv).1
  omega

theorem current_of_create (hcurrent : (s.create a).Current c) (h : s.Holds c) : s.Current c := by
  obtain ⟨o, ho, hlive, hlength⟩ := hcurrent
  obtain ⟨o', ho', -⟩ := holds_iff.mp h
  replace ho : (s.objects ++ [⟨[a], false⟩])[c.object]? = some o := ho
  rw [List.getElem?_append_left (List.getElem?_eq_some_iff.mp ho').1] at ho
  exact ⟨o, ho, hlive, hlength⟩

theorem current_of_delete (h : (s.delete object).Current c) : s.Current c := by
  obtain ⟨o, ho, hlive, hlength⟩ := h
  replace ho : (s.objects.modify object _)[c.object]? = some o := ho
  rw [List.getElem?_modify] at ho
  obtain ⟨o', ho', rfl⟩ := map_eq_some_iff.mp ho
  split_ifs at hlive hlength
  exact ⟨o', ho', hlive, hlength⟩

/-- After a write that went through, the version it was made from is no longer stored; the others
are as they were. -/
theorem current_of_update (hcurrent : t.Current e) (h : s.Holds e)
    (hupdate : s.update c a = some (t, d)) : s.Current e ∧ e.object ≠ c.object := by
  obtain ⟨⟨o, ho, -, -⟩, -, rfl⟩ := update_eq_some hupdate
  obtain ⟨o', ho', hlive', hlength'⟩ := hcurrent
  rw [List.getElem?_modify] at ho'
  obtain ⟨o₁, ho₁, rfl⟩ := map_eq_some_iff.mp ho'
  obtain ⟨o₂, ho₂, hv⟩ := holds_iff.mp h
  obtain rfl := some.inj (ho₁.symm.trans ho₂)
  split_ifs at hlive' hlength' with hobject
  · -- the version that was added is not the one `e` was read at
    have hlt := (List.getElem?_eq_some_iff.mp hv).1
    simp only [length_append, length_singleton] at hlength'
    omega
  · exact ⟨⟨o₁, ho₁, hlive', hlength'⟩, fun heq => hobject heq.symm⟩

theorem exists_current {o : Object α} (ho : o ∈ s.objects) (hlive : o.deleted = false)
    (ha : o.versions.getLast? = some a) : ∃ c, s.Holds c ∧ s.Current c ∧ c.value = a := by
  obtain ⟨i, hi⟩ := mem_iff_getElem?.mp ho
  have hne : o.versions ≠ [] := by
    rintro hnil
    rw [hnil] at ha
    cases ha
  have hpos := length_pos_iff.mpr hne
  rw [getLast?_eq_getElem?] at ha
  refine ⟨⟨i, o.versions.length - 1, a⟩, holds_iff.mpr ⟨o, hi, ha⟩, ⟨o, hi, hlive, ?_⟩, rfl⟩
  simp only
  omega

theorem begins_create (h : s.Begins p) (ha : p a) : (s.create a).Begins p := by
  intro o ho
  rcases mem_append.mp ho with ho | ho
  · exact h o ho
  · obtain rfl := mem_singleton.mp ho
    exact ⟨a, rfl, ha⟩

theorem begins_created (h : (s.create a).Begins p) : p a := by
  obtain ⟨b, hb, hp⟩ := h ⟨[a], false⟩ (mem_append_right _ (mem_singleton_self _))
  obtain rfl : a = b := some.inj hb
  exact hp

theorem begins_modify {i : ℕ} (h : s.Begins p)
    (hf : ∀ o a, o.versions.head? = some a → (f o).versions.head? = some a) :
    Begins p ⟨s.objects.modify i f⟩ := by
  intro o ho
  obtain ⟨j, hj⟩ := mem_iff_getElem?.mp ho
  rw [List.getElem?_modify] at hj
  obtain ⟨o', ho', rfl⟩ := map_eq_some_iff.mp hj
  obtain ⟨a, ha, hp⟩ := h o' (mem_of_getElem? ho')
  refine ⟨a, ?_, hp⟩
  split_ifs
  · exact hf o' a ha
  · exact ha

theorem begins_update (h : s.Begins p) (hupdate : s.update c a = some (t, d)) : t.Begins p := by
  obtain ⟨-, -, rfl⟩ := update_eq_some hupdate
  refine begins_modify h fun o b hb => ?_
  rw [head?_append, hb]
  rfl

theorem begins_delete (h : s.Begins p) (object : ℕ) : (s.delete object).Begins p :=
  begins_modify h fun _ _ hb => hb

section

variable (h : s.Chained R)

include h

theorem chained_create (a : α) : (s.create a).Chained R := by
  intro o ho
  rcases mem_append.mp ho with ho | ho
  · exact h o ho
  · obtain rfl := mem_singleton.mp ho
    exact isChain_singleton _

theorem chained_modify {i : ℕ} (hf : ∀ o, s.objects[i]? = some o → (f o).versions.IsChain R) :
    Chained R ⟨s.objects.modify i f⟩ := by
  intro o ho
  obtain ⟨j, hj⟩ := mem_iff_getElem?.mp ho
  rw [List.getElem?_modify] at hj
  obtain ⟨o', ho', rfl⟩ := map_eq_some_iff.mp hj
  split_ifs with hij
  · subst hij
    exact hf o' ho'
  · exact h o' (mem_of_getElem? ho')

theorem chained_delete (object : ℕ) : (s.delete object).Chained R :=
  chained_modify h fun o ho => h o (mem_of_getElem? ho)

/-- **The versions stay a chain** when a write that goes through is related to what it was made
from. -/
theorem chained_update (hholds : s.Holds c) (hR : R c.value a)
    (hupdate : s.update c a = some (t, d)) : t.Chained R := by
  obtain ⟨⟨o, ho, -, hlength⟩, -, rfl⟩ := update_eq_some hupdate
  refine chained_modify h fun o' ho' => ?_
  obtain rfl := some.inj (ho.symm.trans ho')
  obtain ⟨o', ho', hvalue⟩ := holds_iff.mp hholds
  obtain rfl := some.inj (ho.symm.trans ho')
  refine List.IsChain.append (h o (mem_of_getElem? ho)) (isChain_singleton _) ?_
  -- the last version is the one the copy was read at
  intro x hx y hy
  have hlast : o.versions.getLast? = some c.value := by
    rw [getLast?_eq_getElem?, hlength]
    exact hvalue
  obtain rfl := some.inj (hlast.symm.trans hx)
  obtain rfl : a = y := by simpa using hy
  exact hR

theorem chained_and {R' : α → α → Prop} (h' : s.Chained R') :
    s.Chained fun a b => R a b ∧ R' a b := by
  intro o ho
  refine isChain_iff_getElem.mpr fun i hi => ⟨?_, ?_⟩
  · exact isChain_iff_getElem.mp (h o ho) i hi
  · exact isChain_iff_getElem.mp (h' o ho) i hi

end

/-- A version is the first one or follows another one. -/
theorem begins_or_follows (hbegins : s.Begins p) (h : s.Chained R) (hc : s.Holds c) :
    p c.value ∨ ∃ b, R b c.value := by
  obtain ⟨o, ho, hv⟩ := holds_iff.mp hc
  have hmem := mem_of_getElem? ho
  cases hversion : c.version with
  | zero =>
    obtain ⟨a, ha, hp⟩ := hbegins o hmem
    rw [hversion, ← head?_eq_getElem?] at hv
    obtain rfl : a = c.value := some.inj (Eq.trans (Eq.symm ha) hv)
    exact .inl hp
  | succ version =>
    rw [hversion] at hv
    obtain ⟨hlt, heq⟩ := List.getElem?_eq_some_iff.mp hv
    rw [← heq]
    exact .inr ⟨_, isChain_iff_getElem.mp (h o hmem) version hlt⟩

/-- Of two versions of an object, the later one follows the earlier one, or a version between them
follows it and is followed in turn. -/
theorem follows_of_chained (h : s.Chained R) (hc : s.Holds c) (hd : s.Holds d)
    (hobject : d.object = c.object) (hversion : c.version < d.version) :
    R c.value d.value ∨ ∃ a b, R c.value a ∧ R a b := by
  obtain ⟨o, ho, hcv⟩ := holds_iff.mp hc
  obtain ⟨o', ho', hdv⟩ := holds_iff.mp hd
  rw [hobject] at ho'
  obtain rfl := some.inj (ho.symm.trans ho')
  have hchain := isChain_iff_getElem.mp (h o (mem_of_getElem? ho))
  obtain ⟨hclt, hceq⟩ := List.getElem?_eq_some_iff.mp hcv
  obtain ⟨hdlt, hdeq⟩ := List.getElem?_eq_some_iff.mp hdv
  have hfirst := hchain c.version (by omega)
  rw [hceq] at hfirst
  rcases Nat.lt_or_ge (c.version + 1) d.version with hlt | hge
  · exact .inr ⟨_, _, hfirst, hchain (c.version + 1) (by omega)⟩
  · have hnext : d.version = c.version + 1 := by omega
    simp only [hnext] at hdeq
    rw [hdeq] at hfirst
    exact .inl hfirst

/-! ### What is stored -/

/-- **What nothing may follow is the last version.** -/
theorem last_eq_of_holds (h : s.Chained R) (hc : s.Holds c) (hend : ∀ b, ¬ R c.value b) :
    s.last c.object = some c.value := by
  obtain ⟨o, ho, hv⟩ := holds_iff.mp hc
  obtain ⟨hlt, hget⟩ := List.getElem?_eq_some_iff.mp hv
  have hlast : o.versions.length - 1 = c.version := by
    by_contra hne
    have hnext := isChain_iff_getElem.mp (h o (mem_of_getElem? ho)) c.version (by omega)
    rw [hget] at hnext
    exact hend _ hnext
  rw [last, ho, bind_some, getLast?_eq_getElem?, hlast, hv]

theorem stored_eq_some_iff : s.stored object = some c ↔
    c.object = object ∧ s.Holds c ∧ s.Current c := by
  constructor
  · intro h
    obtain ⟨o, ho, hif⟩ := bind_eq_some_iff.mp h
    split_ifs at hif with hdeleted
    obtain ⟨a, ha, rfl⟩ := map_eq_some_iff.mp hif
    have hlt : o.versions.length - 1 < o.versions.length := by
      rw [getLast?_eq_getElem?] at ha
      exact (List.getElem?_eq_some_iff.mp ha).1
    refine ⟨rfl, holds_iff.mpr ⟨o, ho, ?_⟩, o, ho, Bool.eq_false_iff.mpr hdeleted, ?_⟩
    · rw [← getLast?_eq_getElem?]
      exact ha
    · change o.versions.length = o.versions.length - 1 + 1
      omega
  · rintro ⟨rfl, hholds, o, ho, hlive, hlength⟩
    obtain ⟨o', ho', hv⟩ := holds_iff.mp hholds
    obtain rfl := some.inj (Eq.trans (Eq.symm ho) ho')
    refine bind_eq_some_iff.mpr ⟨o, ho, ?_⟩
    rw [hlive, getLast?_eq_getElem?, hlength, Nat.add_sub_cancel, hv]
    rfl

theorem lt_of_stored (h : s.stored object = some c) : object < s.objects.length := by
  obtain ⟨o, ho, -⟩ := bind_eq_some_iff.mp h
  exact (List.getElem?_eq_some_iff.mp ho).1

theorem mem_live_iff : c ∈ s.live ↔ s.Holds c ∧ s.Current c := by
  simp only [live, mem_filterMap, mem_range]
  constructor
  · rintro ⟨object, -, h⟩
    exact (stored_eq_some_iff.mp h).2
  · intro h
    have hstored : s.stored c.object = some c := stored_eq_some_iff.mpr ⟨rfl, h⟩
    exact ⟨c.object, lt_of_stored hstored, hstored⟩

theorem filterMap_sublist {ι : Type*} {f g : ι → Option β} (h : ∀ i, g i = none ∨ g i = f i)
    (l : List ι) : (l.filterMap g).Sublist (l.filterMap f) := by
  induction l with
  | nil => simp
  | cons i is ih =>
    rw [filterMap_cons, filterMap_cons]
    rcases h i with hnone | hsame
    · rw [hnone]
      cases f i with
      | none => exact ih
      | some b => exact ih.cons b
    · rw [hsame]
      cases f i with
      | none => exact ih
      | some b => exact ih.cons_cons b

theorem nodup_objects_live (s : Store α) : (s.live.map Copy.object).Nodup := by
  have hmap : s.live.map Copy.object = (range s.objects.length).filterMap
      fun i => (s.stored i).map Copy.object := by
    rw [live, map_filterMap]
  have hsub : ((range s.objects.length).filterMap
      fun i => (s.stored i).map Copy.object).Sublist
        ((range s.objects.length).filterMap some) := by
    refine filterMap_sublist (fun i => ?_) _
    cases hstored : s.stored i with
    | none => exact .inl rfl
    | some =>
      obtain ⟨rfl, -⟩ := stored_eq_some_iff.mp hstored
      exact .inr rfl
  rw [hmap]
  rw [filterMap_some] at hsub
  exact nodup_range.sublist hsub

theorem current_update (h : s.Current e) (hobject : e.object ≠ c.object)
    (hupdate : s.update c a = some (t, d)) : t.Current e := by
  obtain ⟨-, -, rfl⟩ := update_eq_some hupdate
  obtain ⟨o, ho, hlive, hlength⟩ := h
  refine ⟨o, ?_, hlive, hlength⟩
  have hne : c.object ≠ e.object := fun heq => hobject heq.symm
  simpa [hne] using ho

theorem stored_create (s : Store α) (a : α) (i : ℕ) :
    (s.create a).stored i = if i = s.objects.length then some (s.created a) else s.stored i := by
  unfold stored create
  split_ifs with hi
  · subst hi
    simp [created]
  · rw [List.getElem?_append]
    split_ifs with hlt
    · rfl
    · have hnone : ([⟨[a], false⟩] : List (Object α))[i - s.objects.length]? = none := by
        rw [List.getElem?_eq_none_iff, length_singleton]
        omega
      have hnone' : s.objects[i]? = none := List.getElem?_eq_none_iff.mpr (not_lt.mp hlt)
      simp [hnone, hnone']

theorem stored_update (hupdate : s.update c a = some (t, d)) (i : ℕ) :
    t.stored i = if i = c.object then some d else s.stored i := by
  obtain ⟨⟨o, ho, hlive, hlength⟩, rfl, rfl⟩ := update_eq_some hupdate
  replace ho : s.objects[c.object]? = some o := ho
  unfold stored
  split_ifs with hi
  · subst hi
    simp [ho, hlive, hlength]
  · have hne : c.object ≠ i := fun h => hi h.symm
    simp [hne]

theorem stored_delete (s : Store α) (object i : ℕ) :
    (s.delete object).stored i = if i = object then none else s.stored i := by
  unfold stored delete
  split_ifs with hi
  · subst hi
    cases s.objects[i]? <;> simp
  · have hne : object ≠ i := fun h => hi h.symm
    simp [hne]

theorem filterMap_live_sublist {f : Copy α → Option β}
    (hlength : t.objects.length = s.objects.length)
    (h : ∀ i, (t.stored i).bind f = none ∨ (t.stored i).bind f = (s.stored i).bind f) :
    (t.live.filterMap f).Sublist (s.live.filterMap f) := by
  unfold live
  rw [filterMap_filterMap, filterMap_filterMap, hlength]
  exact filterMap_sublist h _

theorem filterMap_live_update {f : Copy α → Option β} (hholds : s.Holds c)
    (hupdate : s.update c a = some (t, d)) (hf : f d = none ∨ f d = f c) :
    (t.live.filterMap f).Sublist (s.live.filterMap f) := by
  obtain ⟨hcurrent, -, ht⟩ := update_eq_some hupdate
  refine filterMap_live_sublist (by simp [ht]) fun i => ?_
  rw [stored_update hupdate]
  split_ifs with hi
  · have hstored : s.stored i = some c := stored_eq_some_iff.mpr ⟨hi.symm, hholds, hcurrent⟩
    rw [hstored]
    exact hf
  · exact .inr rfl

theorem filterMap_live_delete (f : Copy α → Option β) (s : Store α) (object : ℕ) :
    ((s.delete object).live.filterMap f).Sublist (s.live.filterMap f) := by
  refine filterMap_live_sublist (by simp [delete]) fun i => ?_
  rw [stored_delete]
  split_ifs
  · exact .inl rfl
  · exact .inr rfl

theorem update_of_current (h : s.Current c) (a : α) : ∃ t d, s.update c a = some (t, d) := by
  unfold update
  rw [if_pos h]
  exact ⟨_, _, rfl⟩

theorem current_created (s : Store α) (a : α) : (s.create a).Current (s.created a) :=
  ⟨⟨[a], false⟩, by simp [create, created], rfl, rfl⟩

theorem live_create_update (hupdate : (s.create a).update (s.created a) b = some (t, d)) :
    t.live = s.live ++ [d] := by
  obtain ⟨-, -, ht⟩ := update_eq_some hupdate
  have hlength : t.objects.length = s.objects.length + 1 := by simp [ht, create]
  unfold live
  rw [hlength, range_succ, filterMap_append]
  congr 1
  · refine filterMap_congr fun i hi => ?_
    have hne : i ≠ (s.created a).object := (mem_range.mp hi).ne
    rw [stored_update hupdate, if_neg hne, stored_create]
    exact if_neg hne
  · have hlast : t.stored s.objects.length = some d := by
      rw [stored_update hupdate]
      exact if_pos rfl
    simp [hlast]

end

end Store
end K8s4Claw.Lib
