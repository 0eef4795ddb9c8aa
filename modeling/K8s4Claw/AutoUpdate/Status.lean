/-
# The auto-update status and how it is stored

`AutoUpdateStatus` of `api/v1alpha1/common_types.go`, and the three transitions of
`internal/controller/autoupdate_controller.go` that compute a new one: an update is initiated, its
health check passes, it is rolled back.  Each of them changes the status of the object in memory,
calls `Update` for the annotations, fetches the object again and merges the status computed into it
(`mergeAutoUpdateStatus`) for `Status().Update`.

The variable `status` points into the object that `Update` is given, so what it leads to afterwards
depends on how the client decodes the response.  That of controller-runtime v0.23.1, which go.mod
pins, zeroes the object first: the response goes to new cells of memory, those that `status` leads
to are left alone (`realClient_keeps`), and what is stored is what was computed
(`written_eq_computed`).  A client that decoded into the object as it is would put stored values
back (`stored_after_second_update`).
-/

import Mathlib.Data.Int.Notation
import Mathlib.Data.List.GetD
import Mathlib.Data.Option.Basic

namespace K8s4Claw.AutoUpdate

/-- A time, in nanoseconds. -/
abbrev Time := ℤ

inductive VersionHistoryStatus
  | healthy
  | rolledBack
  deriving DecidableEq

structure VersionHistoryEntry where
  version : String
  appliedAt : Time
  status : VersionHistoryStatus
  deriving DecidableEq

/-- `AutoUpdateStatus`, with its two pointers to times as `τ`: a time for the status that is
stored, a cell of memory for the status of an object the program holds. -/
structure AutoUpdateStatus (τ : Type) where
  currentVersion : String := ""
  availableVersion : String := ""
  lastCheck : Option τ := none
  lastUpdate : Option τ := none
  rollbackCount : Int64 := 0
  failedVersions : List String := []
  circuitOpen : Bool := false
  versionHistory : List VersionHistoryEntry := []
  deriving DecidableEq

/-- The status as the API server stores it. -/
abbrev Stored := AutoUpdateStatus Time

/-- The times and the statuses that pointers lead to, in the order they were allocated. -/
structure Memory where
  times : List Time := []
  statuses : List (AutoUpdateStatus ℕ) := []

namespace Memory

def status (m : Memory) (cell : ℕ) : AutoUpdateStatus ℕ := m.statuses.getD cell {}

/-- A status with its times. -/
def read (m : Memory) (s : AutoUpdateStatus ℕ) : Stored :=
  { s with
    lastCheck := s.lastCheck.map fun cell => m.times.getD cell 0
    lastUpdate := s.lastUpdate.map fun cell => m.times.getD cell 0 }

/-- What the status in a cell is encoded as. -/
def value (m : Memory) (cell : ℕ) : Stored := m.read (m.status cell)

/-- The cell of a pointer that is set to a new status if it is nil. -/
def ensure (pointer : Option ℕ) (m : Memory) : ℕ × Memory :=
  match pointer with
  | some cell => (cell, m)
  | none => (m.statuses.length, { m with statuses := m.statuses ++ [{}] })

def write (m : Memory) (cell : ℕ) (s : AutoUpdateStatus ℕ) : Memory :=
  { m with statuses := m.statuses.set cell s }

/-- Decode a time into a pointer: into its cell if it has one, and into a new one otherwise. -/
def decodeTime (field : Option Time) (pointer : Option ℕ) (m : Memory) : Option ℕ × Memory :=
  match field, pointer with
  | none, pointer => (pointer, m)
  | some t, some cell => (some cell, { m with times := m.times.set cell t })
  | some t, none => (some m.times.length, { m with times := m.times ++ [t] })

/-- Decode a field that is left out of the response when it has the zero value. -/
def decodeField {α : Type} [DecidableEq α] (zero field value : α) : α :=
  if field = zero then value else field

theorem decodeField_zero {α : Type} [DecidableEq α] (zero field : α) :
    decodeField zero field zero = field := by
  unfold decodeField
  split
  · next h => exact h.symm
  · rfl

/-- Decode a response into the object with this pointer: into the status it leads to, or into a new
one if it is nil.  The fields come in the order of their names. -/
def decode (response : Option Stored) (pointer : Option ℕ) (m : Memory) : Option ℕ × Memory :=
  match response with
  | none => (pointer, m)
  | some r =>
      let (cell, m) := m.ensure pointer
      let s := m.status cell
      let (lastCheck, m) := m.decodeTime r.lastCheck s.lastCheck
      let (lastUpdate, m) := m.decodeTime r.lastUpdate s.lastUpdate
      (some cell, m.write cell
        { currentVersion := decodeField "" r.currentVersion s.currentVersion
          availableVersion := decodeField "" r.availableVersion s.availableVersion
          lastCheck := lastCheck
          lastUpdate := lastUpdate
          rollbackCount := decodeField 0 r.rollbackCount s.rollbackCount
          failedVersions := decodeField [] r.failedVersions s.failedVersions
          circuitOpen := decodeField false r.circuitOpen s.circuitOpen
          versionHistory := decodeField [] r.versionHistory s.versionHistory })

/-- `Get`, which replaces the whole object. -/
def get (stored : Option Stored) (m : Memory) : Option ℕ × Memory := m.decode stored none

end Memory

/-- What the `Update` of a client makes of the pointer to the status of the object it is given, and
of memory, when this status is stored. -/
abbrev Client := Option Stored → Option ℕ → Memory → Option ℕ × Memory

/-- The client of controller-runtime zeroes the object and then decodes the response into it. -/
def realClient : Client := fun stored _ m => m.decode stored none

/-- A client that decodes the response into the object as it is. -/
def inPlaceClient : Client := fun stored pointer m => m.decode stored pointer

/-! ### The transitions -/
def maxVersionHistory : ℕ := 50

def trimVersionHistory (history : List VersionHistoryEntry) : List VersionHistoryEntry :=
  if history.length > maxVersionHistory then history.drop (history.length - maxVersionHistory)
  else history

/-- The history with one more entry. -/
def appendHistory (history : List VersionHistoryEntry) (entry : VersionHistoryEntry) :
    List VersionHistoryEntry :=
  trimVersionHistory (history ++ [entry])

/-- The three transitions, with the version and the time they record; a rollback compares its count
with the maximum. -/
inductive Transition
  | initiate (newVersion : String) (now : Time)
  | passed (version : String) (now : Time)
  | rollback (maxRollbacks : Int64) (now : Time)
  deriving DecidableEq

namespace Transition

/-- What a transition does to the status in a cell, before `Update`. -/
def apply (tr : Transition) (cell : ℕ) (m : Memory) : Memory :=
  let s := m.status cell
  match tr with
  | initiate newVersion now =>
      -- both pointers lead to the variable `now`
      { m with times := m.times ++ [now] }.write cell
        { s with
          lastCheck := some m.times.length
          availableVersion := newVersion
          lastUpdate := some m.times.length }
  | passed version now =>
      m.write cell
        { s with
          currentVersion := version
          rollbackCount := 0
          circuitOpen := false
          versionHistory := appendHistory s.versionHistory ⟨version, now, .healthy⟩ }
  | rollback maxRollbacks now =>
      let failedVersion := s.availableVersion
      let rollbackCount := s.rollbackCount + 1
      m.write cell
        { s with
          failedVersions :=
            if failedVersion ∈ s.failedVersions then s.failedVersions
            else s.failedVersions ++ [failedVersion]
          rollbackCount := rollbackCount
          versionHistory := appendHistory s.versionHistory ⟨failedVersion, now, .rolledBack⟩
          circuitOpen := if rollbackCount ≥ maxRollbacks then true else s.circuitOpen }

/-- `status` and memory when `Update` is called. -/
def inMemory (tr : Transition) (stored : Option Stored) : ℕ × Memory :=
  let (pointer, m) := Memory.get stored {}
  let (status, m) := m.ensure pointer
  (status, tr.apply status m)

/-- The status a transition computes. -/
def computed (tr : Transition) (stored : Option Stored) : Stored :=
  (tr.inMemory stored).2.value (tr.inMemory stored).1

end Transition

/-- `mergeAutoUpdateStatus`: the status of the object fetched gets the local fields. -/
def mergeAutoUpdateStatus (pointer : Option ℕ) (status : ℕ) (m : Memory) : ℕ × Memory :=
  let (cell, m) := m.ensure pointer
  let localStatus := m.status status
  (cell, m.write cell
    { m.status cell with
      currentVersion := localStatus.currentVersion
      availableVersion := localStatus.availableVersion
      lastCheck := localStatus.lastCheck
      lastUpdate := localStatus.lastUpdate
      rollbackCount := localStatus.rollbackCount
      circuitOpen := localStatus.circuitOpen
      failedVersions := localStatus.failedVersions
      versionHistory := localStatus.versionHistory })

/-- The status that `Status().Update` is given: the object is fetched again and merged. -/
def refetched (stored : Option Stored) (status : ℕ) (m : Memory) : Stored :=
  let (pointer, m) := m.get stored
  let (cell, m) := mergeAutoUpdateStatus pointer status m
  m.value cell

/-- The status that is stored at the end of a transition. -/
def Transition.written (client : Client) (tr : Transition) (stored : Option Stored) : Stored :=
  let (status, m) := tr.inMemory stored
  refetched stored status (client stored (some status) m).2

/-! ### What a client leaves of the status -/

/-- `m'` has the cells of `m`, and maybe new ones. -/
structure Memory.Extends (m m' : Memory) : Prop where
  times : m.times <+: m'.times
  statuses : m.statuses <+: m'.statuses

namespace Memory

variable {m m' : Memory} {cell : ℕ}

theorem getD_of_prefix {α : Type} {l l' : List α} (h : l <+: l') {i : ℕ} (hi : i < l.length)
    (d : α) : l'.getD i d = l.getD i d := by
  obtain ⟨t, rfl⟩ := h
  rw [List.getD_append _ _ _ _ hi]

/-- The cells of a status are allocated. -/
structure Allocated (m : Memory) (s : AutoUpdateStatus ℕ) : Prop where
  lastCheck : ∀ cell ∈ s.lastCheck, cell < m.times.length
  lastUpdate : ∀ cell ∈ s.lastUpdate, cell < m.times.length

theorem Extends.status_eq (h : m.Extends m') (hcell : cell < m.statuses.length) :
    m'.status cell = m.status cell :=
  getD_of_prefix h.statuses hcell _

theorem read_eq_of_prefix {s : AutoUpdateStatus ℕ} (h : m.times <+: m'.times)
    (hs : m.Allocated s) : m'.read s = m.read s := by
  have hmap : ∀ pointer : Option ℕ, (∀ cell ∈ pointer, cell < m.times.length) →
      pointer.map (fun cell => m'.times.getD cell 0) =
        pointer.map fun cell => m.times.getD cell 0 := by
    intro pointer hpointer
    exact Option.map_congr fun cell hcell => getD_of_prefix h (hpointer cell hcell) 0
  unfold read
  rw [hmap _ hs.lastCheck, hmap _ hs.lastUpdate]

theorem status_write (s : AutoUpdateStatus ℕ) (hcell : cell < m.statuses.length) :
    (m.write cell s).status cell = s := by
  simp [status, write, List.getD_eq_getElem?_getD, hcell]

/-- Decoding into a zeroed object goes to new cells. -/
theorem exists_decode_none (m : Memory) (r : Stored) : ∃ times s,
    m.decode (some r) none =
      (some m.statuses.length, ⟨m.times ++ times, m.statuses ++ [s]⟩) := by
  have hzero : ∀ zero, (m.statuses ++ [zero]).getD m.statuses.length zero = zero := by simp
  have hset : ∀ zero s, (m.statuses ++ [zero]).set m.statuses.length s = m.statuses ++ [s] := by
    simp
  obtain ⟨c, a, lastCheck, lastUpdate, n, f, o, v⟩ := r
  cases lastCheck <;> cases lastUpdate
  all_goals simp only [decode, ensure, status, hzero, decodeTime, write, hset]
  · exact ⟨[], _, by rw [List.append_nil]⟩
  · exact ⟨[_], _, rfl⟩
  · exact ⟨[_], _, rfl⟩
  · exact ⟨[_, _], _, by rw [List.append_assoc]; rfl⟩

theorem extends_decode_none (m : Memory) (response : Option Stored) :
    m.Extends (m.decode response none).2 := by
  cases response with
  | none => exact ⟨List.prefix_rfl, List.prefix_rfl⟩
  | some r =>
    obtain ⟨times, s, h⟩ := exists_decode_none m r
    rw [h]
    exact ⟨List.prefix_append .., List.prefix_append ..⟩

/-- The object that is read, once it has a status. -/
theorem extends_ensure_get (m : Memory) (stored : Option Stored) :
    m.Extends ((m.get stored).2.ensure (m.get stored).1).2 ∧
      ((m.get stored).2.ensure (m.get stored).1).1 <
        ((m.get stored).2.ensure (m.get stored).1).2.statuses.length := by
  cases stored with
  | none =>
    refine ⟨⟨List.prefix_rfl, List.prefix_append ..⟩, ?_⟩
    simp [get, decode, ensure]
  | some r =>
    obtain ⟨times, s, h⟩ := exists_decode_none m r
    rw [get, h]
    refine ⟨⟨List.prefix_append .., List.prefix_append ..⟩, ?_⟩
    simp [ensure]

end Memory

open Memory

section

variable {client : Client} {m : Memory} {status : ℕ}

/-- **What is stored is what `status` leads to after `Update`**, as long as its cell is there. -/
theorem exists_refetched (stored : Option Stored) (h : status < m.statuses.length) :
    ∃ m' : Memory, m.times <+: m'.times ∧
      refetched stored status m = m'.read (m.status status) := by
  obtain ⟨hextends, hcell⟩ := extends_ensure_get m stored
  refine ⟨_, hextends.times, ?_⟩
  dsimp only [refetched, mergeAutoUpdateStatus, value]
  rw [status_write _ hcell, hextends.status_eq h]
  rfl

/-- The object read has one status, that is stored or empty. -/
theorem exists_read (stored : Option Stored) : ∃ times s,
    (∀ tr : Transition, tr.inMemory stored = (0, tr.apply 0 ⟨times, [s]⟩)) ∧
      Memory.read ⟨times, [s]⟩ s = stored.getD {} ∧ Memory.Allocated ⟨times, [s]⟩ s := by
  cases stored with
  | none => exact ⟨[], {}, fun _ => rfl, rfl, by simp, by simp⟩
  | some r =>
    obtain ⟨c, a, lastCheck, lastUpdate, n, f, o, v⟩ := r
    cases lastCheck <;> cases lastUpdate
    all_goals
      refine ⟨_, _, fun _ => rfl, ?_, ?_, ?_⟩
      all_goals simp [Memory.read, status, decodeField_zero]

theorem inMemory_allocated (tr : Transition) (stored : Option Stored) :
    (tr.inMemory stored).1 < (tr.inMemory stored).2.statuses.length ∧
      (tr.inMemory stored).2.Allocated
        ((tr.inMemory stored).2.status (tr.inMemory stored).1) := by
  obtain ⟨times, s, hmemory, -, hallocated⟩ := exists_read stored
  rw [hmemory]
  cases tr with
  | initiate =>
    refine ⟨Nat.zero_lt_one, ?_, ?_⟩
    · simp [Transition.apply, status, write]
    · simp [Transition.apply, status, write]
  | passed | rollback => exact ⟨Nat.zero_lt_one, hallocated.lastCheck, hallocated.lastUpdate⟩

section

variable (stored : Option Stored)

theorem computed_passed (version : String) (now : Time) :
    (Transition.passed version now).computed stored =
      { stored.getD {} with
        currentVersion := version
        rollbackCount := 0
        circuitOpen := false
        versionHistory :=
          appendHistory (stored.getD {}).versionHistory ⟨version, now, .healthy⟩ } := by
  obtain ⟨times, s, hmemory, hread, -⟩ := exists_read stored
  rw [Transition.computed, hmemory, ← hread]
  rfl

theorem computed_rollback (maxRollbacks : Int64) (now : Time) :
    let old := stored.getD {}
    (Transition.rollback maxRollbacks now).computed stored =
      { old with
        failedVersions :=
          if old.availableVersion ∈ old.failedVersions then old.failedVersions
          else old.failedVersions ++ [old.availableVersion]
        rollbackCount := old.rollbackCount + 1
        versionHistory := appendHistory old.versionHistory ⟨old.availableVersion, now, .rolledBack⟩
        circuitOpen :=
          if old.rollbackCount + 1 ≥ maxRollbacks then true else old.circuitOpen } := by
  obtain ⟨times, s, hmemory, hread, -⟩ := exists_read stored
  rw [Transition.computed, hmemory, ← hread]
  rfl

theorem computed_initiate (newVersion : String) (now : Time) :
    (Transition.initiate newVersion now).computed stored =
      { stored.getD {} with
        lastCheck := some now
        availableVersion := newVersion
        lastUpdate := some now } := by
  obtain ⟨times, s, hmemory, hread, -⟩ := exists_read stored
  rw [Transition.computed, hmemory, ← hread]
  simp [Transition.apply, value, status, write, Memory.read]

end

/-- `Update` leaves every cell that was there as it was. -/
def Client.Keeps (client : Client) : Prop :=
  ∀ stored pointer (m : Memory), m.Extends (client stored pointer m).2

theorem realClient_keeps : realClient.Keeps := fun stored _ m => extends_decode_none m stored

theorem Client.Keeps.written_eq (hclient : client.Keeps) (tr : Transition)
    (stored : Option Stored) : tr.written client stored = tr.computed stored := by
  obtain ⟨hstatus, hallocated⟩ := inMemory_allocated tr stored
  have hextends := hclient stored (some (tr.inMemory stored).1) (tr.inMemory stored).2
  obtain ⟨m', htimes, hm'⟩ :=
    exists_refetched stored (Nat.lt_of_lt_of_le hstatus hextends.statuses.length_le)
  calc tr.written client stored
      = m'.read _ := hm'
    _ = m'.read ((tr.inMemory stored).2.status (tr.inMemory stored).1) := by
        rw [hextends.status_eq hstatus]
    _ = tr.computed stored := read_eq_of_prefix (hextends.times.trans htimes) hallocated

/-- Whatever else a client does, it frees no cell, and the version in the cell of `status` is that
of the object or the stored one. -/
structure Client.Lawful (client : Client) : Prop where
  grows : ∀ stored pointer m, m.statuses.length ≤ (client stored pointer m).2.statuses.length
  currentVersion : ∀ stored cell m, cell < m.statuses.length →
    ((client stored (some cell) m).2.status cell).currentVersion = (m.status cell).currentVersion ∨
    ((client stored (some cell) m).2.status cell).currentVersion =
      (stored.getD {}).currentVersion

theorem Client.Keeps.lawful (hclient : client.Keeps) : client.Lawful where
  grows stored pointer m := (hclient stored pointer m).statuses.length_le
  currentVersion stored cell m hcell :=
    .inl (congrArg AutoUpdateStatus.currentVersion ((hclient stored (some cell) m).status_eq hcell))

theorem Client.Lawful.currentVersion_written (hclient : client.Lawful) (tr : Transition)
    (stored : Option Stored) :
    (tr.written client stored).currentVersion = (tr.computed stored).currentVersion ∨
      (tr.written client stored).currentVersion = (stored.getD {}).currentVersion := by
  obtain ⟨hstatus, -⟩ := inMemory_allocated tr stored
  obtain ⟨m', -, hm'⟩ := exists_refetched stored (Nat.lt_of_lt_of_le hstatus (hclient.grows ..))
  have hwritten : (tr.written client stored).currentVersion = _ :=
    congrArg AutoUpdateStatus.currentVersion hm'
  exact (hclient.currentVersion stored _ _ hstatus).imp hwritten.trans hwritten.trans

end

/-- **What `Status().Update` is given is the status computed**, for every stored status and each of
the three transitions. -/
theorem written_eq_computed (stored : Option Stored) (tr : Transition) :
    tr.written realClient stored = tr.computed stored :=
  realClient_keeps.written_eq tr stored

/-- The status after a first healthy update to version 1.0.0. -/
def afterFirstUpdate : Stored where
  currentVersion := "1.0.0"
  availableVersion := "1.0.0"
  lastCheck := some 100
  lastUpdate := some 100
  versionHistory := [⟨"1.0.0", 160, .healthy⟩]

/-- **Decoded in place, a second update stores the first one's values.**  Initiating an update to
1.1.0 stores 1.0.0 as the available version and the time of the first update; a passed health check
stores 1.0.0 as the current version and a history without the second update; a rollback that follows
an earlier one is not counted. -/
theorem stored_after_second_update :
    ((Transition.initiate "1.1.0" 200).computed (some afterFirstUpdate)).availableVersion =
      "1.1.0" ∧
    ((Transition.initiate "1.1.0" 200).written inPlaceClient (some afterFirstUpdate)) =
      afterFirstUpdate ∧
    ((Transition.passed "1.1.0" 260).computed (some afterFirstUpdate)).currentVersion = "1.1.0" ∧
    ((Transition.passed "1.1.0" 260).written inPlaceClient (some afterFirstUpdate)) =
      afterFirstUpdate ∧
    ((Transition.rollback 3 260).computed
      (some { afterFirstUpdate with rollbackCount := 1 })).rollbackCount = 2 ∧
    ((Transition.rollback 3 260).written inPlaceClient
      (some { afterFirstUpdate with rollbackCount := 1 })).rollbackCount = 1 := by
  decide

end K8s4Claw.AutoUpdate
