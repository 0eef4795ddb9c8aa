/-
# The PVCs of a Claw that is deleted

`handleDeletion` and `deleteClawPVCs` of `internal/controller/claw_controller.go` and
`removePVCOwnerReferences` of `claw_pvc.go`.  Once a Claw is being deleted, each `Reconcile` calls
`handleDeletion`: it lists the PVCs with the label of the Claw, deletes them (policy `Delete`) or
takes the owner reference to the Claw away from them (`Retain`, `Archive` and the default), and then
removes the finalizer, after which the Claw is gone.  An API call that fails ends it, and it is
called again.

One event is one API call with its outcome; a call whose answer is lost has taken effect all the
same.  A `List` is answered from a cache, that is, with the PVCs as they were at some moment since
the deletion began; nobody else changes them.  `cleaned`, ghost state, has the names of the PVCs
that a `Delete` or `Patch` has reached.
-/

import K8s4Claw.Operator.Adapters
import Mathlib.Data.List.Nodup

namespace K8s4Claw.Operator

open List
open Lib (run)

/-! ## PVCs -/

/-- A PVC of the namespace of the Claw. -/
structure Pvc where
  name : String
  labels : List (String × String) := []
  ownerReferences : List OwnerReference := []
  finalizers : List String := []
  /-- `DeletionTimestamp` is set. -/
  deleting : Bool := false
  deriving DecidableEq

/-- The PVCs of a namespace. -/
structure Inventory where
  pvcs : List Pvc
  nodup_names : (pvcs.map (·.name)).Nodup

def clawFinalizer : String := "claw.prismer.ai/cleanup"

/-- What the API server makes of a PVC that is deleted: it stays until its finalizers are gone. -/
def Pvc.delete (p : Pvc) : Option Pvc :=
  if p.finalizers = [] then none else some { p with deleting := true }

/-- A `Delete` by name; nothing happens if there is no such PVC, which the caller ignores. -/
def deletePvc (pvcs : List Pvc) (name : String) : List Pvc :=
  pvcs.filterMap fun p => if p.name = name then p.delete else some p

/-- A merge patch of the owner references, by name; `none` if there is no such PVC. -/
def patchPvc (pvcs : List Pvc) (name : String) (refs : List OwnerReference) : Option (List Pvc) :=
  if pvcs.any (·.name = name) then
    some (pvcs.map fun p => if p.name = name then { p with ownerReferences := refs } else p)
  else none

def hasOwnerReference (p : Pvc) (claw : Claw) : Bool := p.ownerReferences.any (·.uid = claw.uid)

def removeOwnerRef (refs : List OwnerReference) (uid : String) : List OwnerReference :=
  refs.filter (·.uid ≠ uid)

/-! ## The passes -/

section

variable (claw : Claw)

/-- The policy, `Retain` if none is set. -/
def Claw.reclaimPolicy : ReclaimPolicy :=
  (claw.spec.persistence.bind (·.reclaimPolicy)).getD .retain

/-- The PVC is labelled with the Claw. -/
def Claw.labels (p : Pvc) : Bool := p.labels.lookup "claw.prismer.ai/instance" = some claw.name

/-- The call that `handleDeletion` makes next. -/
inductive Pass
  /-- `Status().Update` with the condition `ArchivePending`. -/
  | status
  | listing
  | working (pvc : Pvc) (rest : List Pvc)
  | finishing
  deriving DecidableEq

/-- How an API call ends; with `lost`, it has taken effect and an error is returned. -/
inductive Outcome
  | ok
  | failed
  | lost
  deriving DecidableEq

/-- What is stored and how far the pass is.  `history` has the PVCs as they were since the deletion
began, the latest first. -/
structure Deletion where
  pvcs : List Pvc
  history : List (List Pvc)
  finalizers : List String
  archivePending : Bool := false
  pass : Option Pass := none
  cleaned : List String := []
  deriving DecidableEq

/-- The next PVC of the loop, past those that `removePVCOwnerReferences` skips. -/
def nextPvc : List Pvc → Pass
  | [] => .finishing
  | p :: rest =>
      if claw.reclaimPolicy = .delete || hasOwnerReference p claw then .working p rest
      else nextPvc rest

/-- What the call for a listed PVC does to the stored ones; `none` for an error. -/
def work (pvcs : List Pvc) (p : Pvc) : Option (List Pvc) :=
  match claw.reclaimPolicy with
  | .delete => some (deletePvc pvcs p.name)
  | .retain | .archive => patchPvc pvcs p.name (removeOwnerRef p.ownerReferences claw.uid)

/-- The pass after a call that goes through, and what the call does; `cached` is the answer of a
`List`. -/
def Deletion.call (s : Deletion) (cached : List Pvc) : Pass → Deletion
  | .status => { s with archivePending := true, pass := some .listing }
  | .listing => { s with pass := some (nextPvc claw (cached.filter claw.labels)) }
  | .working p rest =>
      match work claw s.pvcs p with
      | none => { s with pass := none }
      | some pvcs =>
          { s with
            pvcs := pvcs
            history := pvcs :: s.history
            cleaned := p.name :: s.cleaned
            pass := some (nextPvc claw rest) }
  | .finishing =>
      { s with finalizers := s.finalizers.filter (· ≠ clawFinalizer), pass := none }

/-- `handleDeletion` is called, or its next API call ends. -/
inductive DeletionEvent
  | start
  | call (outcome : Outcome) (cached : ℕ)
  deriving DecidableEq

/-- The start of `handleDeletion`. -/
def Deletion.begin (s : Deletion) : Deletion :=
  if clawFinalizer ∈ s.finalizers then
    { s with pass := some (if claw.reclaimPolicy = .archive then .status else .listing) }
  else s

def deletionStep (s : Deletion) : DeletionEvent → Option Deletion
  | .start => if s.pass = none then some (s.begin claw) else none
  | .call outcome cached =>
      match s.pass, s.history[cached]? with
      | some pass, some cached =>
          some (match outcome with
            | .ok => s.call claw cached pass
            | .failed => { s with pass := none }
            | .lost => { s.call claw cached pass with pass := none })
      | _, _ => none

/-- A Claw whose deletion begins. -/
def Inventory.start (inv : Inventory) (finalizers : List String) : Deletion where
  pvcs := inv.pvcs
  history := [inv.pvcs]
  finalizers := finalizers

/-! ## What is to be reached -/

/-- The PVC without its owner references to the Claw. -/
def orphan (p : Pvc) : Pvc :=
  { p with ownerReferences := removeOwnerRef p.ownerReferences claw.uid }

/-- What the policy makes of one PVC. -/
def cleanPvc (p : Pvc) : Option Pvc :=
  match claw.reclaimPolicy with
  | .delete => p.delete
  | .retain | .archive => some (orphan claw p)

/-- The PVCs after those of these names were cleaned. -/
def cleanPvcs (names : List String) (pvcs : List Pvc) : List Pvc :=
  pvcs.filterMap fun p => if p.name ∈ names then cleanPvc claw p else some p

/-- The PVCs in the end. -/
def finalPvcs (pvcs : List Pvc) : List Pvc :=
  pvcs.filterMap fun p => if claw.labels p then cleanPvc claw p else some p

/-- What has to be done before the finalizer goes. -/
def Reclaimed (inv : Inventory) (s : Deletion) : Prop :=
  match claw.reclaimPolicy with
  | .delete => ∀ p ∈ inv.pvcs, claw.labels p → p.name ∈ s.cleaned
  | .retain | .archive =>
      ∀ p ∈ s.pvcs, claw.labels p → ∀ ref ∈ p.ownerReferences, ref.uid ≠ claw.uid

/-- The same PVC, with the same owner references but for those to the Claw. -/
def OwnersKept (p q : Pvc) : Prop :=
  q = { p with ownerReferences := q.ownerReferences } ∧
    removeOwnerRef q.ownerReferences claw.uid = removeOwnerRef p.ownerReferences claw.uid

variable {claw} {inv : Inventory} {names : List String} {p q c : Pvc} {s t : Deletion}

/-! ### Cleaning -/

theorem cleanPvc_of_delete (h : claw.reclaimPolicy = .delete) : cleanPvc claw p = p.delete := by
  unfold cleanPvc
  rw [h]

theorem cleanPvc_of_ne (h : claw.reclaimPolicy ≠ .delete) :
    cleanPvc claw p = some (orphan claw p) := by
  unfold cleanPvc
  cases hpolicy : claw.reclaimPolicy with
  | delete => exact absurd hpolicy h
  | retain | archive => rfl

theorem cleanPvcs_of_ne (h : claw.reclaimPolicy ≠ .delete) (pvcs : List Pvc) :
    cleanPvcs claw names pvcs = pvcs.map fun p => if p.name ∈ names then orphan claw p else p := by
  rw [← filterMap_eq_map]
  refine filterMap_congr fun p _ => ?_
  rw [cleanPvc_of_ne h, Function.comp_apply]
  split_ifs <;> rfl

theorem name_of_cleanPvc (h : cleanPvc claw p = some q) :
    q.name = p.name ∧ q.labels = p.labels := by
  by_cases hpolicy : claw.reclaimPolicy = .delete
  · rw [cleanPvc_of_delete hpolicy, Pvc.delete] at h
    split_ifs at h
    cases h
    exact ⟨rfl, rfl⟩
  · rw [cleanPvc_of_ne hpolicy] at h
    cases h
    exact ⟨rfl, rfl⟩

theorem mem_cleanPvcs {pvcs : List Pvc} :
    q ∈ cleanPvcs claw names pvcs ↔
      ∃ p ∈ pvcs, p.name ∉ names ∧ q = p ∨ p.name ∈ names ∧ cleanPvc claw p = some q := by
  unfold cleanPvcs
  rw [mem_filterMap]
  refine exists_congr fun p => and_congr_right fun _ => ?_
  by_cases h : p.name ∈ names
  · simp [h]
  · simp [h, eq_comm]

theorem removeOwnerRef_orphan :
    removeOwnerRef (orphan claw p).ownerReferences claw.uid =
      removeOwnerRef p.ownerReferences claw.uid := by
  unfold orphan removeOwnerRef
  simp

/-- Deleting once more changes nothing. -/
theorem deletePvc_cleanPvcs (h : claw.reclaimPolicy = .delete) (pvcs : List Pvc) (name : String) :
    deletePvc (cleanPvcs claw names pvcs) name = cleanPvcs claw (name :: names) pvcs := by
  have htwice (p : Pvc) : p.delete.bind Pvc.delete = p.delete := by
    unfold Pvc.delete
    split_ifs with hfinalizers
    · rfl
    · simp [hfinalizers]
  unfold deletePvc cleanPvcs
  rw [filterMap_filterMap]
  refine filterMap_congr fun p _ => ?_
  by_cases hnames : p.name ∈ names
  · rw [if_pos hnames, if_pos (mem_cons_of_mem _ hnames), cleanPvc_of_delete h]
    cases hdelete : p.delete with
    | none => rfl
    | some =>
      have hq := htwice p
      rw [hdelete, Option.bind_some] at hq
      rw [Option.bind_some, hq, ite_self]
  · rw [if_neg hnames, cleanPvc_of_delete h]
    simp [hnames]

theorem patchPvc_cleanPvcs (h : claw.reclaimPolicy ≠ .delete) (hp : p ∈ inv.pvcs)
    (hname : c.name = p.name)
    (hrefs : removeOwnerRef c.ownerReferences claw.uid =
      removeOwnerRef p.ownerReferences claw.uid) :
    patchPvc (cleanPvcs claw names inv.pvcs) c.name (removeOwnerRef c.ownerReferences claw.uid) =
      some (cleanPvcs claw (c.name :: names) inv.pvcs) := by
  have hfound : (inv.pvcs.map fun p => if p.name ∈ names then orphan claw p else p).any
      (·.name = c.name) = true := by
    rw [any_eq_true]
    refine ⟨_, mem_map_of_mem hp, ?_⟩
    split_ifs <;> exact decide_eq_true hname.symm
  rw [cleanPvcs_of_ne h, cleanPvcs_of_ne h, patchPvc, if_pos hfound, map_map]
  refine congrArg some (map_congr_left fun q hq => ?_)
  rw [Function.comp_apply]
  by_cases hqc : q.name = c.name
  · -- names are unique, so this is the PVC that the copy was made of
    obtain rfl : q = p := inj_on_of_nodup_map inv.nodup_names hq hp (hqc.trans hname)
    have hmem : q.name ∈ c.name :: names := mem_cons.mpr (.inl hqc)
    simp only [hrefs]
    split_ifs <;> rfl
  · have hmem : q.name ∈ c.name :: names ↔ q.name ∈ names := by simp [hqc]
    simp only [hmem]
    split_ifs <;> first | rfl | contradiction

/-- **The call for a listed PVC** cleans the PVC of that name, whether or not it was cleaned
before. -/
theorem work_cleanPvcs (hp : p ∈ inv.pvcs) (hc : c = p ∨ cleanPvc claw p = some c) :
    work claw (cleanPvcs claw names inv.pvcs) c =
      some (cleanPvcs claw (c.name :: names) inv.pvcs) := by
  by_cases h : claw.reclaimPolicy = .delete
  · simp only [work, h, deletePvc_cleanPvcs h]
  · have hwork : work claw (cleanPvcs claw names inv.pvcs) c =
        patchPvc (cleanPvcs claw names inv.pvcs) c.name
          (removeOwnerRef c.ownerReferences claw.uid) := by
      unfold work
      cases hpolicy : claw.reclaimPolicy with
      | delete => exact absurd hpolicy h
      | retain | archive => rfl
    rw [hwork]
    rcases hc with rfl | hc
    · exact patchPvc_cleanPvcs h hp rfl rfl
    · rw [cleanPvc_of_ne h] at hc
      cases hc
      exact patchPvc_cleanPvcs h hp rfl removeOwnerRef_orphan

/-! ### The invariant of the passes -/

/-- `removePVCOwnerReferences` passes over the PVC. -/
def Skipped (claw : Claw) (p : Pvc) : Prop :=
  claw.reclaimPolicy ≠ .delete ∧ hasOwnerReference p claw = false

section

variable (claw : Claw) (inv : Inventory) (cleaned : List String)

/-- Every labelled PVC is cleaned, needs no cleaning or is still to come. -/
def Covered (todo : List Pvc) : Prop :=
  ∀ p ∈ inv.pvcs, claw.labels p → p.name ∈ cleaned ∨ Skipped claw p ∨ p.name ∈ todo.map (·.name)

/-- The PVC is one of the labelled ones, as it was before or after it was cleaned. -/
def Listed (c : Pvc) : Prop :=
  ∃ p ∈ inv.pvcs, claw.labels p ∧ (c = p ∨ p.name ∈ cleaned ∧ cleanPvc claw p = some c)

/-- What holds before the next call of a pass. -/
def PassTidy : Pass → Prop
  | .status | .listing => True
  | .working p rest =>
      (∀ c ∈ p :: rest, Listed claw inv cleaned c) ∧ Covered claw inv cleaned (p :: rest)
  | .finishing => Covered claw inv cleaned []

end

/-- The PVCs, stored or cached, are those of the beginning with some of the labelled ones cleaned,
and the finalizer is not gone before all of them are. -/
structure Tidy (claw : Claw) (inv : Inventory) (s : Deletion) : Prop where
  pvcs : s.pvcs = cleanPvcs claw s.cleaned inv.pvcs
  labelled : ∀ p ∈ inv.pvcs, p.name ∈ s.cleaned → claw.labels p
  history : ∀ pvcs ∈ s.history, ∃ names ⊆ s.cleaned, pvcs = cleanPvcs claw names inv.pvcs
  pass : ∀ pass ∈ s.pass, PassTidy claw inv s.cleaned pass
  done : clawFinalizer ∉ s.finalizers → Covered claw inv s.cleaned []

variable {cleaned : List String} {todo : List Pvc} {cached : ℕ}

theorem Listed.name_eq (h : Listed claw inv cleaned c) :
    ∃ p ∈ inv.pvcs, claw.labels p ∧ c.name = p.name ∧ (c = p ∨ cleanPvc claw p = some c) := by
  obtain ⟨p, hp, hlabels, rfl | ⟨-, hclean⟩⟩ := h
  · exact ⟨c, hp, hlabels, rfl, .inl rfl⟩
  · exact ⟨p, hp, hlabels, (name_of_cleanPvc hclean).1, .inr hclean⟩

theorem passTidy_nextPvc (hlisted : ∀ c ∈ todo, Listed claw inv cleaned c)
    (hcovered : Covered claw inv cleaned todo) : PassTidy claw inv cleaned (nextPvc claw todo) := by
  induction todo with
  | nil => exact hcovered
  | cons c _ ih =>
    unfold nextPvc
    split_ifs with h
    · exact ⟨hlisted, hcovered⟩
    · refine ih (fun c' hc' => hlisted c' (mem_cons_of_mem _ hc')) fun p hp hlabels => ?_
      rcases hcovered p hp hlabels with hdone | hskipped | hmem
      · exact .inl hdone
      · exact .inr (.inl hskipped)
      · rcases mem_cons.mp hmem with hname | hmem
        · -- the copy has no owner reference: it was cleaned, or there was nothing to do
          obtain ⟨p', hp', -, hc⟩ := hlisted c mem_cons_self
          simp only [Bool.or_eq_true, decide_eq_true_eq, not_or, Bool.not_eq_true] at h
          rcases hc with rfl | ⟨hcleaned, hclean⟩
          · obtain rfl : p = c := inj_on_of_nodup_map inv.nodup_names hp hp' hname
            exact .inr (.inl h)
          · have hsame : p.name = p'.name := hname.trans (name_of_cleanPvc hclean).1
            exact .inl (hsame ▸ hcleaned)
        · exact .inr (.inr hmem)

theorem Covered.mono {cleaned' : List String} {todo' : List Pvc} (h : Covered claw inv cleaned todo)
    (hcleaned : cleaned ⊆ cleaned')
    (htodo : ∀ n ∈ todo.map (·.name), n ∈ cleaned' ∨ n ∈ todo'.map (·.name)) :
    Covered claw inv cleaned' todo' := by
  intro p hp hlabels
  rcases h p hp hlabels with hdone | hskipped | hmem
  · exact .inl (hcleaned hdone)
  · exact .inr (.inl hskipped)
  · rcases htodo p.name hmem with hdone | hmem
    · exact .inl hdone
    · exact .inr (.inr hmem)

theorem Listed.mono {cleaned' : List String} (h : Listed claw inv cleaned c)
    (hcleaned : cleaned ⊆ cleaned') : Listed claw inv cleaned' c := by
  obtain ⟨p, hp, hlabels, rfl | ⟨hdone, hclean⟩⟩ := h
  · exact ⟨c, hp, hlabels, .inl rfl⟩
  · exact ⟨p, hp, hlabels, .inr ⟨hcleaned hdone, hclean⟩⟩

section

variable (hs : Tidy claw inv s)

include hs

theorem passTidy_list {cached : List Pvc} (h : cached ∈ s.history) :
    PassTidy claw inv s.cleaned (nextPvc claw (cached.filter claw.labels)) := by
  obtain ⟨names, hnames, rfl⟩ := hs.history cached h
  refine passTidy_nextPvc (fun c hc => ?_) fun p hp hlabels => ?_
  · obtain ⟨hc, hlabels⟩ := mem_filter.mp hc
    obtain ⟨p, hp, ⟨-, rfl⟩ | ⟨hname, hclean⟩⟩ := mem_cleanPvcs.mp hc
    · exact ⟨c, hp, hlabels, .inl rfl⟩
    · refine ⟨p, hp, ?_, .inr ⟨hnames hname, hclean⟩⟩
      rwa [Claw.labels, (name_of_cleanPvc hclean).2] at hlabels
  · by_cases hname : p.name ∈ names
    · exact .inl (hnames hname)
    · have hlisted : p ∈ (cleanPvcs claw names inv.pvcs).filter claw.labels :=
        mem_filter.mpr ⟨mem_cleanPvcs.mpr ⟨p, hp, .inl ⟨hname, rfl⟩⟩, hlabels⟩
      exact .inr (.inr (mem_map_of_mem hlisted))

/-- The call for a listed PVC goes through. -/
theorem work_of_tidy {rest : List Pvc} (hpass : s.pass = some (.working c rest)) :
    work claw s.pvcs c = some (cleanPvcs claw (c.name :: s.cleaned) inv.pvcs) := by
  obtain ⟨hlisted, -⟩ := hs.pass _ hpass
  obtain ⟨p, hp, -, -, hc⟩ := (hlisted c mem_cons_self).name_eq
  rw [hs.pvcs]
  exact work_cleanPvcs hp hc

/-- **A call that goes through keeps the invariant.** -/
theorem tidy_call {pass : Pass} (hpass : s.pass = some pass) {cached : List Pvc}
    (hcached : cached ∈ s.history) : Tidy claw inv (s.call claw cached pass) := by
  cases pass with
  | status => exact { hs with pass := fun _ h => Option.some.inj h ▸ trivial }
  | listing => exact { hs with pass := fun _ h => Option.some.inj h ▸ passTidy_list hs hcached }
  | working c =>
    obtain ⟨hlisted, hcovered⟩ := hs.pass _ hpass
    have hsub : s.cleaned ⊆ c.name :: s.cleaned := subset_cons_self ..
    simp only [Deletion.call, work_of_tidy hs hpass]
    refine ⟨rfl, fun p hp hname => ?_, fun pvcs hpvcs => ?_, fun pass h => ?_, fun h => ?_⟩
    · rcases mem_cons.mp hname with hname | hname
      · obtain ⟨p', hp', hlabels, hname', -⟩ := (hlisted c mem_cons_self).name_eq
        obtain rfl : p = p' :=
          inj_on_of_nodup_map inv.nodup_names hp hp' (hname.trans hname')
        exact hlabels
      · exact hs.labelled p hp hname
    · rcases mem_cons.mp hpvcs with rfl | hpvcs
      · exact ⟨_, List.Subset.refl _, rfl⟩
      · obtain ⟨names, hnames, rfl⟩ := hs.history pvcs hpvcs
        exact ⟨names, List.Subset.trans hnames hsub, rfl⟩
    · cases h
      refine passTidy_nextPvc
        (fun c' hc' => (hlisted c' (mem_cons_of_mem _ hc')).mono hsub) ?_
      refine hcovered.mono hsub fun n hn => ?_
      rcases mem_cons.mp hn with rfl | hn
      · exact .inl mem_cons_self
      · exact .inr hn
    · exact (hs.done h).mono hsub fun n hn => .inr hn
  | finishing => exact { hs with pass := nofun, done := fun _ => hs.pass _ hpass }

/-- **Every event keeps the invariant.** -/
theorem tidy_step {e : DeletionEvent} (h : deletionStep claw s e = some t) : Tidy claw inv t := by
  cases e with
  | start =>
    simp only [deletionStep] at h
    split_ifs at h
    cases h
    unfold Deletion.begin
    split_ifs
    · exact { hs with pass := fun _ h => Option.some.inj h ▸ trivial }
    · exact { hs with pass := fun _ h => Option.some.inj h ▸ trivial }
    · exact hs
  | call outcome cached =>
    unfold deletionStep at h
    cases hpass : s.pass with
    | none => simp [hpass] at h
    | some =>
      cases hcached : s.history[cached]? with
      | none => simp [hcached] at h
      | some =>
        simp only [hpass, hcached, Option.some.injEq] at h
        have hcall := tidy_call hs hpass (mem_of_getElem? hcached)
        cases outcome with
        | ok => exact h ▸ hcall
        | failed => exact h ▸ { hs with pass := nofun }
        | lost => exact h ▸ { hcall with pass := nofun }

end

theorem tidy_start {finalizers : List String} (h : clawFinalizer ∈ finalizers) :
    Tidy claw inv (inv.start finalizers) where
  pvcs := by simp [Inventory.start, cleanPvcs]
  labelled _ _ hname := nomatch hname
  history pvcs hpvcs := by
    obtain rfl := mem_singleton.mp hpvcs
    exact ⟨[], nil_subset _, by simp [cleanPvcs]⟩
  pass := nofun
  done habsent := absurd h habsent

/-! ### What follows from it -/

theorem reclaimed_of_covered (hs : Tidy claw inv s) (h : Covered claw inv s.cleaned []) :
    Reclaimed claw inv s := by
  have hcovered : ∀ p ∈ inv.pvcs, claw.labels p → p.name ∈ s.cleaned ∨ Skipped claw p := by
    intro p hp hlabels
    rcases h p hp hlabels with hdone | hskipped | hmem
    · exact .inl hdone
    · exact .inr hskipped
    · cases hmem
  have howners (hpolicy : claw.reclaimPolicy ≠ .delete) :
      ∀ q ∈ s.pvcs, claw.labels q → ∀ ref ∈ q.ownerReferences, ref.uid ≠ claw.uid := by
    intro q hq hlabels ref href
    rw [hs.pvcs] at hq
    obtain ⟨p, hp, ⟨hname, rfl⟩ | ⟨-, hclean⟩⟩ := mem_cleanPvcs.mp hq
    · rcases hcovered q hp hlabels with hdone | ⟨-, hskipped⟩
      · exact absurd hdone hname
      · exact fun heq => any_eq_false.mp hskipped ref href (decide_eq_true heq)
    · rw [cleanPvc_of_ne hpolicy] at hclean
      cases hclean
      exact of_decide_eq_true (mem_filter.mp href).2
  unfold Reclaimed
  cases hpolicy : claw.reclaimPolicy with
  | delete =>
    intro p hp hlabels
    rcases hcovered p hp hlabels with hdone | ⟨hne, -⟩
    · exact hdone
    · exact absurd hpolicy hne
  | retain | archive => exact howners (by simp [hpolicy])

theorem ownersKept_of_tidy (hs : Tidy claw inv s) (h : claw.reclaimPolicy ≠ .delete) :
    List.Forall₂ (OwnersKept claw) inv.pvcs s.pvcs := by
  rw [hs.pvcs, cleanPvcs_of_ne h, forall₂_map_right_iff, forall₂_same]
  intro p _
  split_ifs
  · exact ⟨rfl, removeOwnerRef_orphan⟩
  · exact ⟨rfl, rfl⟩

theorem finalPvcs_of_covered (hs : Tidy claw inv s) (h : Covered claw inv s.cleaned []) :
    s.pvcs = finalPvcs claw inv.pvcs := by
  rw [hs.pvcs]
  refine filterMap_congr fun p hp => ?_
  by_cases hlabels : claw.labels p = true
  · rw [if_pos hlabels]
    rcases h p hp hlabels with hdone | ⟨hpolicy, hskipped⟩ | hmem
    · rw [if_pos hdone]
    · -- there is no owner reference to take away
      have horphan : orphan claw p = p := by
        have hrefs : removeOwnerRef p.ownerReferences claw.uid = p.ownerReferences := by
          rw [removeOwnerRef, filter_eq_self]
          exact fun ref href => decide_eq_true fun heq =>
            any_eq_false.mp hskipped ref href (decide_eq_true heq)
        rw [orphan, hrefs]
      rw [cleanPvc_of_ne hpolicy, horphan, ite_self]
    · cases hmem
  · rw [if_neg hlabels, if_neg fun hname => hlabels (hs.labelled p hp hname)]

/-! ### A pass whose calls go through -/

theorem step_call (claw : Claw) {pass : Pass} (hpass : s.pass = some pass)
    (hcached : cached < s.history.length) :
    deletionStep claw s (.call .ok cached) = some (s.call claw s.history[cached] pass) := by
  simp only [deletionStep, hpass, getElem?_eq_getElem hcached]

theorem finishes_of_nextPvc (hs : Tidy claw inv s) (hpass : s.pass = some (nextPvc claw todo))
    (hcached : cached < s.history.length) :
    ∃ n t, run (deletionStep claw) s (replicate n (.call .ok cached)) = some t ∧
      clawFinalizer ∉ t.finalizers := by
  induction todo generalizing s with
  | nil =>
    have hstep := step_call claw hpass hcached
    refine ⟨1, _, Lib.run_cons.mpr ⟨_, hstep, rfl⟩, ?_⟩
    simp [nextPvc, Deletion.call]
  | cons p rest ih =>
    unfold nextPvc at hpass
    split_ifs at hpass
    · have hstep := step_call claw hpass hcached
      have hnext := tidy_step hs hstep
      have hcall : s.call claw s.history[cached] (.working p rest) =
          { s with
            pvcs := cleanPvcs claw (p.name :: s.cleaned) inv.pvcs
            history := cleanPvcs claw (p.name :: s.cleaned) inv.pvcs :: s.history
            cleaned := p.name :: s.cleaned
            pass := some (nextPvc claw rest) } := by
        simp only [Deletion.call, work_of_tidy hs hpass]
      rw [hcall] at hstep hnext
      obtain ⟨n, t, hrun, hgone⟩ := ih hnext rfl (Nat.lt_succ_of_lt hcached)
      exact ⟨n + 1, t, Lib.run_cons.mpr ⟨_, hstep, hrun⟩, hgone⟩
    · exact ih hs hpass hcached

theorem finishes_of_listing (hs : Tidy claw inv s) (hpass : s.pass = some .listing)
    (hcached : cached < s.history.length) :
    ∃ n t, run (deletionStep claw) s (replicate n (.call .ok cached)) = some t ∧
      clawFinalizer ∉ t.finalizers := by
  have hstep := step_call claw hpass hcached
  obtain ⟨n, t, hrun, hgone⟩ := finishes_of_nextPvc (tidy_step hs hstep) rfl hcached
  exact ⟨n + 1, t, Lib.run_cons.mpr ⟨_, hstep, hrun⟩, hgone⟩

/-- **A pass whose calls go through removes the finalizer**, whatever `List` it is answered. -/
theorem finishes_of_start (hs : Tidy claw inv s) (hpass : s.pass = none)
    (hcached : cached < s.history.length) :
    ∃ n t, run (deletionStep claw) s (.start :: replicate n (.call .ok cached)) = some t ∧
      clawFinalizer ∉ t.finalizers := by
  have hstart : deletionStep claw s .start = some (s.begin claw) := if_pos hpass
  have hbegin := tidy_step hs hstart
  by_cases hfinalizer : clawFinalizer ∈ s.finalizers
  · unfold Deletion.begin at hstart hbegin
    rw [if_pos hfinalizer] at hstart hbegin
    by_cases harchive : claw.reclaimPolicy = .archive
    · rw [if_pos harchive] at hstart hbegin
      have hpass : ({ s with pass := some .status } : Deletion).pass = some .status := rfl
      have hstatus := step_call claw hpass hcached
      obtain ⟨n, t, hrun, hgone⟩ :=
        finishes_of_listing (tidy_step hbegin hstatus) rfl hcached
      exact ⟨n + 1, t, Lib.run_cons.mpr ⟨_, hstart, Lib.run_cons.mpr ⟨_, hstatus, hrun⟩⟩, hgone⟩
    · rw [if_neg harchive] at hstart hbegin
      obtain ⟨n, t, hrun, hgone⟩ := finishes_of_listing hbegin rfl hcached
      exact ⟨n, t, Lib.run_cons.mpr ⟨_, hstart, hrun⟩, hgone⟩
  · refine ⟨0, s, Lib.run_cons.mpr ⟨_, hstart, ?_⟩, hfinalizer⟩
    rw [Deletion.begin, if_neg hfinalizer]
    rfl

/-- **Deletion honours the reclaim policy.**  For every Claw with its finalizer, whatever PVCs are
in the namespace, and after any passes of `handleDeletion` with any outcomes of their API calls:

* if the finalizer is gone, then under `Delete` every labelled PVC was deleted, and otherwise no
  labelled PVC has an owner reference to the Claw; and the PVCs are what `finalPvcs` says;
* under `Retain`, `Archive` and the default, no PVC is gone or changed but for its owner references
  to the Claw;
* `handleDeletion` called again, with calls that go through, removes the finalizer, and the PVCs
  are then what `finalPvcs` says. -/
theorem reclaim_honoured (claw : Claw) (inv : Inventory) {finalizers : List String}
    (h : clawFinalizer ∈ finalizers) {events : List DeletionEvent} {t : Deletion}
    (hrun : run (deletionStep claw) (inv.start finalizers) events = some t) :
    (clawFinalizer ∉ t.finalizers →
        Reclaimed claw inv t ∧ t.pvcs = finalPvcs claw inv.pvcs) ∧
      (claw.reclaimPolicy ≠ .delete → List.Forall₂ (OwnersKept claw) inv.pvcs t.pvcs) ∧
      (t.pass = none → ∀ cached < t.history.length, ∃ n u,
        run (deletionStep claw) t (.start :: replicate n (.call .ok cached)) = some u ∧
          clawFinalizer ∉ u.finalizers ∧ u.pvcs = finalPvcs claw inv.pvcs) := by
  have hstep (s : Deletion) (e : DeletionEvent) (u : Deletion) (hs : Tidy claw inv s)
      (hu : deletionStep claw s e = some u) : Tidy claw inv u := tidy_step hs hu
  have ht : Tidy claw inv t := Lib.run_invariant hstep (tidy_start h) hrun
  refine ⟨fun hgone => ?_, ownersKept_of_tidy ht, fun hpass cached hcached => ?_⟩
  · exact ⟨reclaimed_of_covered ht (ht.done hgone), finalPvcs_of_covered ht (ht.done hgone)⟩
  · obtain ⟨n, u, hu, hgone⟩ := finishes_of_start ht hpass hcached
    have hu' : Tidy claw inv u := Lib.run_invariant hstep ht hu
    exact ⟨n, u, hu, hgone, finalPvcs_of_covered hu' (hu'.done hgone)⟩

end

/-! ### A deletion that is interrupted -/

/-- A Claw whose PVCs are kept. -/
def leavingClaw : Claw where
  name := "agent"
  ns := "default"
  uid := "u1"
  spec := { runtime := .openclaw }

/-- An owner reference to the object with this UID. -/
def ownedBy (uid : String) : OwnerReference where
  apiVersion := "claw.prismer.ai/v1alpha1"
  kind := "Claw"
  name := "agent"
  uid := uid
  controller := some false

/-- Two PVCs of the Claw, one of them with another owner too, and one of somebody else. -/
def leftInventory : Inventory where
  pvcs :=
    [{ name := "session-agent-0"
       labels := [("claw.prismer.ai/instance", "agent")]
       ownerReferences := [ownedBy "u0", ownedBy "u1"] },
      { name := "output-agent-0"
        labels := [("claw.prismer.ai/instance", "agent")]
        ownerReferences := [ownedBy "u1"] },
      { name := "session-other-0"
        labels := [("claw.prismer.ai/instance", "other")]
        ownerReferences := [ownedBy "u1"] }]
  nodup_names := by decide

/-- The second `Patch` of the first pass fails, and the second pass lists from an old cache. -/
def interrupted : List DeletionEvent :=
  [.start, .call .ok 0, .call .ok 0, .call .failed 0, .start, .call .ok 1, .call .ok 0,
    .call .lost 0, .start, .call .ok 0, .call .ok 0]

theorem reclaim_honoured_interrupted :
    ∃ t, run (deletionStep leavingClaw) (leftInventory.start [clawFinalizer]) interrupted =
        some t ∧
      clawFinalizer ∉ t.finalizers ∧ Reclaimed leavingClaw leftInventory t ∧
        t.pvcs.map (·.ownerReferences) = [[ownedBy "u0"], [], [ownedBy "u1"]] := by
  have hsome : ∃ t ∈ run (deletionStep leavingClaw) (leftInventory.start [clawFinalizer])
      interrupted, clawFinalizer ∉ t.finalizers := by
    decide +kernel
  obtain ⟨t, ht, hgone⟩ := hsome
  obtain ⟨hreclaimed, hfinal⟩ :=
    (reclaim_honoured leavingClaw leftInventory mem_cons_self ht).1 hgone
  refine ⟨t, ht, hgone, hreclaimed, ?_⟩
  rw [hfinal]
  decide +kernel

end K8s4Claw.Operator
