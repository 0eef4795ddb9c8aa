/-
# Pruning the snapshots of a volume

`pruneSnapshots` of `internal/controller/claw_snapshot.go`: of the VolumeSnapshots in the namespace
of the Claw that have its label, those whose name goes on after `<claw>-<volume>-` are sorted by
their creation time, and all but the newest `retain` are deleted, one after the other, up to the
first `Delete` that fails.  `List` answers with the snapshots as they are stored.
-/

import K8s4Claw.Lib.Newest
import K8s4Claw.Operator.Deletion

namespace K8s4Claw.Operator

open List
open Lib (byTime excess mem_excess_iff newer)

/-- The volumes that have snapshots. -/
inductive VolumeName
  | session
  | output
  | workspace
  deriving DecidableEq

def VolumeName.text : VolumeName → String
  | .session => "session"
  | .output => "output"
  | .workspace => "workspace"

/-- A VolumeSnapshot; `creationTimestamp` is in seconds. -/
structure VolumeSnapshot where
  name : String
  ns : String
  labels : List (String × String) := []
  creationTimestamp : ℤ := 0
  persistentVolumeClaimName : String := ""
  volumeSnapshotClassName : Option String := none
  deriving DecidableEq

/-- What an object of the kind is stored under. -/
def VolumeSnapshot.key (s : VolumeSnapshot) : String × String := (s.ns, s.name)

/-- The stored VolumeSnapshots. -/
structure SnapshotStore where
  items : List VolumeSnapshot
  nodup_keys : (items.map (·.key)).Nodup

namespace SnapshotStore

/-- A `Delete`; nothing happens if there is no such object, which the caller ignores. -/
def delete (S : SnapshotStore) (key : String × String) : SnapshotStore where
  items := S.items.filter (·.key ≠ key)
  nodup_keys := S.nodup_keys.sublist (List.filter_sublist.map _)

/-- A `Create`; `none` if there is an object of that name. -/
def create (S : SnapshotStore) (s : VolumeSnapshot) : Option SnapshotStore :=
  if h : s.key ∈ S.items.map (·.key) then none
  else some ⟨s :: S.items, List.nodup_cons.mpr ⟨h, S.nodup_keys⟩⟩

end SnapshotStore

/-! ## The call -/

/-- What the names of the snapshots of a volume begin with. -/
def Claw.stem (claw : Claw) (v : VolumeName) : String := claw.name ++ "-" ++ v.text ++ "-"

/-- The selector of the `List` call. -/
def Claw.lists (claw : Claw) (s : VolumeSnapshot) : Bool :=
  s.ns = claw.ns && s.labels.lookup "claw.prismer.ai/instance" = some claw.name

/-- The name goes on after the stem. -/
def Claw.names (claw : Claw) (v : VolumeName) (s : VolumeSnapshot) : Bool :=
  (claw.stem v).toList.length < s.name.toList.length &&
    s.name.toList.take (claw.stem v).toList.length = (claw.stem v).toList

/-- The snapshots that count for a volume. -/
def SnapshotStore.matching (S : SnapshotStore) (claw : Claw) (v : VolumeName) :
    List VolumeSnapshot :=
  (S.items.filter claw.lists).filter (claw.names v)

inductive PruneError
  | list
  | delete (name : String)
  deriving DecidableEq

/-- The loop that deletes; `answer` is what becomes of the `Delete` of each name. -/
def deleteSnapshots (answer : String → Outcome) :
    SnapshotStore → List VolumeSnapshot → SnapshotStore × Option PruneError
  | S, [] => (S, none)
  | S, s :: rest =>
      match answer s.name with
      | .ok => deleteSnapshots answer (S.delete s.key) rest
      | .failed => (S, some (.delete s.name))
      | .lost => (S.delete s.key, some (.delete s.name))

/-- The number of snapshots to keep. -/
def retained (retain : ℤ) : ℕ := if retain ≤ 0 then 5 else retain.toNat

/-- `pruneSnapshots`; `listed` says whether the `List` call goes through.  The sort is not stable,
which makes no difference between different times. -/
def pruneSnapshots (claw : Claw) (v : VolumeName) (retain : ℤ) (listed : Bool)
    (answer : String → Outcome) (S : SnapshotStore) : SnapshotStore × Option PruneError :=
  if listed then
    if (S.matching claw v).length ≤ retained retain then (S, none)
    else
      deleteSnapshots answer S ((byTime (·.creationTimestamp) (S.matching claw v)).take
        ((S.matching claw v).length - retained retain))
  else (S, some .list)

/-! ## What is left -/

section

variable {claw : Claw} {v : VolumeName} {retain : ℤ} {listed : Bool} {answer : String → Outcome}
  {S S' : SnapshotStore} {s : VolumeSnapshot}

theorem mem_matching : s ∈ S.matching claw v ↔ s ∈ S.items ∧ claw.lists s ∧ claw.names v s := by
  rw [SnapshotStore.matching, mem_filter, mem_filter, and_assoc]

theorem names_unique {w : VolumeName} (hv : claw.names v s) (hw : claw.names w s) : v = w := by
  simp only [Claw.names, Bool.and_eq_true, decide_eq_true_eq] at hv hw
  have hstem := prefix_or_prefix_of_prefix (prefix_iff_eq_take.mpr hv.2.symm)
    (prefix_iff_eq_take.mpr hw.2.symm)
  simp only [Claw.stem, String.toList_append, append_assoc, prefix_append_right_inj] at hstem
  cases v <;> cases w <;> first | rfl | exact absurd hstem (by decide)

theorem deleteSnapshots_eq_none {rest : List VolumeSnapshot}
    (h : deleteSnapshots answer S rest = (S', none)) :
    s ∈ S'.items ↔ s ∈ S.items ∧ s.key ∉ rest.map (·.key) := by
  induction rest generalizing S with
  | nil =>
    obtain ⟨rfl, -⟩ := Prod.mk.inj h
    simp
  | cons d _ ih =>
    rw [deleteSnapshots] at h
    split at h
    · rw [ih h]
      simp [SnapshotStore.delete, and_assoc]
    · cases h
    · cases h

/-- **A call that returned nil has deleted what is in excess**, and nothing else. -/
theorem mem_pruneSnapshots (h : pruneSnapshots claw v retain listed answer S = (S', none)) :
    s ∈ S'.items ↔ s ∈ S.items ∧
      s ∉ excess (·.creationTimestamp) (retained retain) (S.matching claw v) := by
  have hkey : s ∈ S.items →
      (s.key ∈ (excess (·.creationTimestamp) (retained retain) (S.matching claw v)).map (·.key) ↔
        s ∈ excess (·.creationTimestamp) (retained retain) (S.matching claw v)) := by
    intro hs
    refine ⟨fun hmem => ?_, mem_map_of_mem⟩
    obtain ⟨d, hd, hkey⟩ := mem_map.mp hmem
    have hmatching := (Lib.perm_byTime ..).mem_iff.mp (mem_of_mem_take hd)
    obtain rfl := inj_on_of_nodup_map S.nodup_keys (mem_matching.mp hmatching).1 hs hkey
    exact hd
  rw [pruneSnapshots] at h
  split_ifs at h with _ hfew
  · obtain ⟨rfl, -⟩ := Prod.mk.inj h
    simp [excess, Nat.sub_eq_zero_of_le hfew]
  · rw [deleteSnapshots_eq_none h]
    exact and_congr_right fun hs => not_congr (hkey hs)
  · cases (Prod.mk.inj h).2

end

/-- **Pruning keeps exactly the newest.**  After a call that returned nil, of the snapshots with the
label and the name of the volume those are there that have fewer than `retain` newer ones among
them, `retain` in number or all if there are fewer; and every other snapshot is there as before, in
particular those of other namespaces, Claws and volumes. -/
theorem prune_keeps_newest (claw : Claw) (v : VolumeName) (retain : ℤ) (listed : Bool)
    (answer : String → Outcome) {S S' : SnapshotStore}
    (hdistinct : ((S.items.filter (·.ns = claw.ns)).map (·.creationTimestamp)).Nodup)
    (h : pruneSnapshots claw v retain listed answer S = (S', none)) :
    (∀ s, s ∈ S'.matching claw v ↔ s ∈ S.matching claw v ∧
      newer (·.creationTimestamp) (S.matching claw v) s < retained retain) ∧
    (S'.matching claw v).length = min (S.matching claw v).length (retained retain) ∧
    (∀ s ∈ S'.items, s ∈ S.items) ∧
    ∀ s ∈ S.items, (s.ns ≠ claw.ns ∨
      s.labels.lookup "claw.prismer.ai/instance" ≠ some claw.name ∨ claw.names v s = false ∨
      ∃ w ≠ v, claw.names w s) → s ∈ S'.items := by
  have hnodup : ((S.matching claw v).map (·.creationTimestamp)).Nodup := by
    refine hdistinct.sublist (List.Sublist.map _ ?_)
    refine filter_sublist.trans (monotone_filter_right _ fun s hs => ?_)
    exact (Bool.and_eq_true_iff.mp hs).1
  have hmem (s : VolumeSnapshot) : s ∈ S'.matching claw v ↔ s ∈ S.matching claw v ∧
      newer (·.creationTimestamp) (S.matching claw v) s < retained retain := by
    rw [mem_matching, mem_pruneSnapshots h, mem_excess_iff hnodup, mem_matching]
    simp only [not_and, not_le]
    tauto
  refine ⟨hmem, ?_, fun s hs => ((mem_pruneSnapshots h).mp hs).1, fun s hs hother => ?_⟩
  · rw [← Lib.length_filter_newer_lt hnodup]
    refine List.Perm.length_eq ((perm_ext_iff_of_nodup ?_ ?_).mpr fun s => ?_)
    · exact (S'.nodup_keys.of_map.filter _).filter _
    · exact ((S.nodup_keys.of_map.filter _).filter _).filter _
    · rw [hmem, mem_filter, decide_eq_true_eq]
  · refine (mem_pruneSnapshots h).mpr ⟨hs, fun hexcess => ?_⟩
    obtain ⟨-, hlists, hnames⟩ := mem_matching.mp ((mem_excess_iff hnodup).mp hexcess).1
    simp only [Claw.lists, Bool.and_eq_true, decide_eq_true_eq] at hlists
    rcases hother with hns | hlabel | hname | ⟨w, hne, hw⟩
    · exact hns hlists.1
    · exact hlabel hlists.2
    · exact Bool.false_ne_true (hname.symm.trans hnames)
    · exact hne (names_unique hw hnames)

/-- Three snapshots of one volume, and one of another Claw whose name begins alike. -/
def fourSnapshots : SnapshotStore where
  items :=
    [{ name := "agent-session-2", ns := "default", creationTimestamp := 2
       labels := [("claw.prismer.ai/instance", "agent")] },
      { name := "agent-session-3", ns := "default", creationTimestamp := 3
        labels := [("claw.prismer.ai/instance", "agent")] },
      { name := "agent-session-1", ns := "default", creationTimestamp := 1
        labels := [("claw.prismer.ai/instance", "agent")] },
      { name := "agent-session-session-0", ns := "default", creationTimestamp := 0
        labels := [("claw.prismer.ai/instance", "agent-session")] }]
  nodup_keys := by decide

def agentClaw : Claw where
  name := "agent"
  ns := "default"
  spec := { runtime := .openclaw }

theorem prune_keeps_newest_two :
    ((pruneSnapshots agentClaw .session 2 true (fun _ => .ok) fourSnapshots).1.matching
      agentClaw .session).length = 2 :=
  (prune_keeps_newest agentClaw .session 2 true (fun _ => .ok) (S := fourSnapshots) (by decide)
    (Prod.ext rfl (by decide +kernel))).2.1.trans (by decide +kernel)

end K8s4Claw.Operator
