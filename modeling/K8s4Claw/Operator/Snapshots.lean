/-
# Snapshots on a schedule

`reconcileSnapshots` and `buildVolumeSnapshot` of `internal/controller/claw_snapshot.go`: for each
volume with snapshots, one is due when the schedule has ticked since the time in the annotation of
the Claw.  It is created under a name with the second in it, then the annotation is set and the old
snapshots are pruned.  A failed `Create` or `Update` ends the call.

The times of a call are the readings of the clock it takes, one for each volume; what is created
counts as created then.  `readings` and `created`, ghost state, have all readings and creations;
`recorded` says of a creation whether the annotation with its time was stored after it.
-/

import K8s4Claw.Lib.Assoc
import K8s4Claw.Lib.Calls
import K8s4Claw.Lib.TimeOrder
import K8s4Claw.Operator.Pruning

namespace K8s4Claw.Operator

open List Option
open Lib (Time padded stateAfter)

/-- `SnapshotSpec`. -/
structure SnapshotSpec where
  enabled : Bool
  schedule : String
  retain : ℤ := 0
  volumeSnapshotClass : String := ""
  deriving DecidableEq

/-- A schedule of the cron library, over instants in nanoseconds: the ticks are at whole seconds,
and `next` is the first one after an instant. -/
structure Schedule where
  tick : ℤ → Prop
  next : ℤ → ℤ
  isLeast_next : ∀ t, IsLeast {u | tick u ∧ t < u} (next t)
  whole : ∀ u, tick u → 10 ^ 9 ∣ u

/-! ## Times -/

/-- The time without the fraction of the second, which the layout `RFC3339` leaves out. -/
def truncated (t : Time) : Time where
  __ := t
  nanos := 0
  inRange := by
    obtain ⟨hy, hmo, hd, hh, hmi, hs, -, ho⟩ := t.inRange
    exact ⟨hy, hmo, hd, hh, hmi, hs, by decide, ho⟩

/-- The layout `20060102-150405`. -/
def stamp (t : Time) : String :=
  String.ofList ((padded 4 t.year ++ padded 2 t.month ++ padded 2 t.day ++ 45 ::
    (padded 2 t.hour ++ padded 2 t.minute ++ padded 2 t.second)).map Time.charOf)

theorem truncated_instant (t : Time) : (truncated t).instant = t.instant - t.nanos := by
  unfold truncated Time.instant Time.seconds Time.days
  ring

theorem dvd_truncated (t : Time) : 10 ^ 9 ∣ (truncated t).instant ∧
    (truncated t).instant ≤ t.instant ∧ t.instant < (truncated t).instant + 10 ^ 9 := by
  have hnanos := t.inRange.2.2.2.2.2.2.1
  rw [truncated_instant]
  unfold Time.instant
  omega

/-! ## A call -/

section

variable (claw : Claw) (v : VolumeName)

def annotationKey : String := "claw.prismer.ai/last-snapshot-time-" ++ v.text

/-- The time in the annotation; the zero time if there is none that can be read. -/
def lastTime : Time :=
  ((claw.annotations.lookup (annotationKey v)).bind Time.ofText).getD .zero

/-- The Claw with the annotation for a snapshot; `lookup` finds the first entry of a key. -/
def Claw.annotate (now : Time) : Claw :=
  { claw with annotations := (annotationKey v, (truncated now).text) :: claw.annotations }

/-- `buildVolumeSnapshot`, for the name and the PVC of a volume. -/
def buildVolumeSnapshot (now : Time) (snapshotClass : String) : VolumeSnapshot where
  name := claw.name ++ "-" ++ v.text ++ "-" ++ stamp now
  ns := claw.ns
  labels := [("claw.prismer.ai/instance", claw.name)]
  creationTimestamp := now.instant / 10 ^ 9
  persistentVolumeClaimName := v.text ++ "-" ++ claw.name ++ "-0"
  volumeSnapshotClassName := if snapshotClass = "" then none else some snapshotClass

end

/-- A snapshot that was created. -/
structure Creation where
  volume : VolumeName
  time : Time
  recorded : Bool
  deriving DecidableEq

/-- What is stored, and the ghost state. -/
structure SnapshotState where
  claw : Claw
  store : SnapshotStore
  created : List Creation := []
  readings : List ℤ := []

/-- What the clock and the API server answer while a call is at one volume.  The clock shows the
time of a zone less than a day from UTC. -/
structure Answers where
  now : Time
  zone : now.Marshals := by decide
  create : Outcome := .ok
  update : Outcome := .ok
  list : Bool := true
  delete : String → Outcome := fun _ => .ok

inductive SnapshotError
  | create (name : String)
  | update
  deriving DecidableEq

/-- The earlier of two requeues, where 0 is none. -/
def sooner (nextRequeue untilNext : ℤ) : ℤ :=
  if nextRequeue = 0 ∨ untilNext < nextRequeue then untilNext else nextRequeue

section

variable (parseStandard : String → Option Schedule) (volumes : VolumeName → Option SnapshotSpec)

section

variable (w : SnapshotState) (v : VolumeName) (spec : SnapshotSpec)

/-- The end of the loop, from the annotation on. -/
def SnapshotState.record (schedule : Schedule) (a : Answers) (nextRequeue : ℤ) :
    SnapshotState × Except SnapshotError ℤ :=
  let stored := { w with claw := w.claw.annotate v a.now }
  match a.update with
  | .failed => (w, .error .update)
  | .lost => (stored, .error .update)
  | .ok =>
      let store := (pruneSnapshots stored.claw v spec.retain a.list a.delete w.store).1
      ({ stored with store },
        .ok (sooner nextRequeue (schedule.next a.now.instant - a.now.instant)))

/-- The body of the loop.  The Claw in memory is the stored one, as an `Update` that fails ends the
call. -/
def snapshotVolume (a : Answers) (nextRequeue : ℤ) : SnapshotState × Except SnapshotError ℤ :=
  match parseStandard spec.schedule with
  | none => (w, .ok nextRequeue)
  | some schedule =>
      let w := { w with readings := w.readings ++ [a.now.instant] }
      let nextTime := schedule.next (lastTime w.claw v).instant
      if a.now.instant < nextTime then (w, .ok (sooner nextRequeue (nextTime - a.now.instant)))
      else
        let snapshot := buildVolumeSnapshot w.claw v a.now spec.volumeSnapshotClass
        match a.create, w.store.create snapshot with
        | .failed, _ | .lost, none => (w, .error (.create snapshot.name))
        | .lost, some store =>
            ({ w with store, created := ⟨v, a.now, false⟩ :: w.created },
              .error (.create snapshot.name))
        | .ok, none => w.record v spec schedule a nextRequeue
        | .ok, some store =>
            SnapshotState.record
              { w with store, created := ⟨v, a.now, a.update ≠ .failed⟩ :: w.created }
              v spec schedule a nextRequeue

end

def snapshotVolumes (answers : VolumeName → Answers) :
    List (VolumeName × SnapshotSpec) → SnapshotState → ℤ → SnapshotState × Except SnapshotError ℤ
  | [], w, nextRequeue => (w, .ok nextRequeue)
  | (v, spec) :: rest, w, nextRequeue =>
      match snapshotVolume parseStandard w v spec (answers v) nextRequeue with
      | (w, .ok nextRequeue) => snapshotVolumes answers rest w nextRequeue
      | (w, .error e) => (w, .error e)

/-- The volumes with snapshots enabled. -/
def snapConfigs : List (VolumeName × SnapshotSpec) :=
  [.session, .output, .workspace].filterMap fun v =>
    ((volumes v).filter (·.enabled)).map (v, ·)

/-- `reconcileSnapshots`; `volumes` has the `snapshot` of each volume of `spec.persistence`, and
the result is the requeue, 0 for none. -/
def reconcileSnapshots (w : SnapshotState) (answers : VolumeName → Answers) :
    SnapshotState × Except SnapshotError ℤ :=
  snapshotVolumes parseStandard answers (snapConfigs volumes) w 0

/-- The schedule of a volume. -/
def scheduleOf (v : VolumeName) : Option Schedule :=
  (volumes v).bind fun spec => parseStandard spec.schedule

end

/-! ## What one volume does -/

section

variable {parseStandard : String → Option Schedule} {volumes : VolumeName → Option SnapshotSpec}
  {w : SnapshotState} {v : VolumeName} {spec : SnapshotSpec} {a : Answers} {schedule : Schedule}

theorem lastTime_annotate (claw : Claw) (v u : VolumeName) {now : Time} (hnow : now.Marshals) :
    lastTime (claw.annotate v now) u = if u = v then truncated now else lastTime claw u := by
  have hkey : annotationKey u = annotationKey v ↔ u = v := by
    cases u <;> cases v <;> decide
  unfold lastTime Claw.annotate
  rw [Lib.Assoc.lookup_cons_eq_ite]
  simp only [hkey]
  split_ifs
  · rw [bind_some, Time.ofText_text (t := truncated now) hnow, getD_some]
  · rfl

/-- **What becomes of the state at one volume**: a reading is taken, a snapshot is created only if
one is due, and the annotation is set after every recorded creation. -/
theorem snapshotVolume_spec (h : parseStandard spec.schedule = some schedule) (nextRequeue : ℤ) :
    ∃ recorded : Bool, let w' := (snapshotVolume parseStandard w v spec a nextRequeue).1
      w'.readings = w.readings ++ [a.now.instant] ∧
      w'.claw = (if recorded then w.claw.annotate v a.now else w.claw) ∧
      (w'.created = w.created ∨ w'.created = ⟨v, a.now, recorded⟩ :: w.created ∧
        schedule.next (lastTime w.claw v).instant ≤ a.now.instant) := by
  have hrecord (w : SnapshotState) :
      (w.record v spec schedule a nextRequeue).1.readings = w.readings ∧
      (w.record v spec schedule a nextRequeue).1.created = w.created ∧
      (w.record v spec schedule a nextRequeue).1.claw =
        if (decide (a.update ≠ .failed)) then w.claw.annotate v a.now else w.claw := by
    unfold SnapshotState.record
    cases a.update <;> exact ⟨rfl, rfl, rfl⟩
  simp only [snapshotVolume, h]
  split_ifs with hdue
  · exact ⟨false, rfl, rfl, .inl rfl⟩
  · have hdue := not_lt.mp hdue
    split
    · exact ⟨false, rfl, rfl, .inl rfl⟩
    · exact ⟨false, rfl, rfl, .inl rfl⟩
    · exact ⟨false, rfl, rfl, .inr ⟨rfl, hdue⟩⟩
    · obtain ⟨hread, hcreated, hclaw⟩ :=
        hrecord { w with readings := w.readings ++ [a.now.instant] }
      exact ⟨_, hread, hclaw, .inl hcreated⟩
    · next store _ _ =>
      obtain ⟨hread, hcreated, hclaw⟩ := hrecord
        { w with
          store, readings := w.readings ++ [a.now.instant]
          created := ⟨v, a.now, a.update ≠ .failed⟩ :: w.created }
      exact ⟨_, hread, hclaw, .inr ⟨hcreated, hdue⟩⟩

/-! ## Over whole runs -/

/-- Creations are at times that were read, those recorded are not after the time in the annotation,
and from a recorded one to a later one of the same volume the schedule ticks. -/
structure Ticked (parseStandard : String → Option Schedule)
    (volumes : VolumeName → Option SnapshotSpec) (w : SnapshotState) : Prop where
  read : ∀ c ∈ w.created, c.time.instant ∈ w.readings
  noted : ∀ c ∈ w.created, c.recorded →
    (truncated c.time).instant ≤ (lastTime w.claw c.volume).instant
  ticks : ∀ c₁ ∈ w.created, ∀ c₂ ∈ w.created, c₁.volume = c₂.volume → c₁.recorded →
    c₁.time.instant < c₂.time.instant → ∀ schedule,
      scheduleOf parseStandard volumes c₁.volume = some schedule →
        ∃ u, schedule.tick u ∧ c₁.time.instant < u ∧ u ≤ c₂.time.instant

theorem truncated_mono {t u : Time} (h : t.instant ≤ u.instant) :
    (truncated t).instant ≤ (truncated u).instant := by
  obtain ⟨ht, ht', -⟩ := dvd_truncated t
  obtain ⟨hu, -, hu'⟩ := dvd_truncated u
  omega

theorem lt_next (schedule : Schedule) {t : Time} {last : ℤ}
    (h : (truncated t).instant ≤ last) : t.instant < schedule.next last := by
  obtain ⟨⟨htick, hlt⟩, -⟩ := schedule.isLeast_next last
  have hwhole := schedule.whole _ htick
  obtain ⟨ht, -, ht'⟩ := dvd_truncated t
  omega

theorem Ticked.noted_annotate (hw : Ticked parseStandard volumes w) {now : Time}
    (hnow : now.Marshals) (hclock : ∀ r ∈ w.readings, r ≤ now.instant) (recorded : Bool)
    (c : Creation) (hc : c ∈ w.created) (hrecorded : c.recorded) :
    (truncated c.time).instant ≤ (lastTime (if recorded then w.claw.annotate v now else w.claw)
      c.volume).instant := by
  split_ifs
  · rw [lastTime_annotate _ _ _ hnow]
    split_ifs
    · exact truncated_mono (hclock _ (hw.read c hc))
    · exact hw.noted c hc hrecorded
  · exact hw.noted c hc hrecorded

theorem Ticked.snapshotVolume (hspec : volumes v = some spec)
    (hw : w.readings.Pairwise (· ≤ ·) → Ticked parseStandard volumes w) (a : Answers)
    (nextRequeue : ℤ)
    (hclock : (snapshotVolume parseStandard w v spec a nextRequeue).1.readings.Pairwise (· ≤ ·)) :
    Ticked parseStandard volumes (snapshotVolume parseStandard w v spec a nextRequeue).1 := by
  cases h : parseStandard spec.schedule with
  | none =>
    simp only [Operator.snapshotVolume, h] at hclock ⊢
    exact hw hclock
  | some schedule =>
    obtain ⟨recorded, hread, hclaw, hcreated⟩ :=
      snapshotVolume_spec h nextRequeue
    rw [hread, pairwise_append] at hclock
    obtain ⟨hsorted, -, hclock⟩ := hclock
    replace hw := hw hsorted
    replace hclock : ∀ r ∈ w.readings, r ≤ a.now.instant := fun r hr => hclock r hr _ (by simp)
    have hnoted := hw.noted_annotate (v := v) a.zone hclock recorded
    rcases hcreated with hcreated | ⟨hcreated, hdue⟩
    · refine ⟨?_, ?_, ?_⟩
      · rw [hcreated, hread]
        exact fun c hc => mem_append_left _ (hw.read c hc)
      · rw [hcreated, hclaw]
        exact hnoted
      · rw [hcreated]
        exact hw.ticks
    · refine ⟨?_, ?_, ?_⟩
      · rw [hcreated, hread]
        exact forall_mem_cons.mpr
          ⟨by simp, fun c hc => mem_append_left _ (hw.read c hc)⟩
      · rw [hcreated, hclaw]
        refine forall_mem_cons.mpr ⟨fun hrecorded => ?_, hnoted⟩
        rw [if_pos hrecorded, lastTime_annotate _ _ _ a.zone, if_pos rfl]
      · rw [hcreated]
        have hlast : ∀ c ∈ w.created, ¬ a.now.instant < c.time.instant := fun c hc =>
          (hclock _ (hw.read c hc)).not_gt
        refine forall_mem_cons.mpr ⟨?_, fun c₁ hc₁ => forall_mem_cons.mpr ⟨?_, ?_⟩⟩
        · refine forall_mem_cons.mpr ⟨fun _ _ hlt => absurd hlt (lt_irrefl _), ?_⟩
          exact fun c hc _ _ hlt => absurd hlt (hlast c hc)
        · rintro hvolume hrecorded - schedule' hschedule
          -- the new one is due, and the last one before it is in the annotation
          obtain rfl : schedule' = schedule := by
            rw [hvolume, scheduleOf, hspec, bind_some, h] at hschedule
            exact (some.inj hschedule).symm
          have hlast := hw.noted c₁ hc₁ hrecorded
          rw [hvolume] at hlast
          exact ⟨_, (schedule'.isLeast_next _).1.1, lt_next schedule' hlast, hdue⟩
        · exact hw.ticks c₁ hc₁

theorem Ticked.snapshotVolumes {configs : List (VolumeName × SnapshotSpec)}
    (hconfigs : ∀ config ∈ configs, volumes config.1 = some config.2)
    (answers : VolumeName → Answers) {w : SnapshotState}
    (hw : w.readings.Pairwise (· ≤ ·) → Ticked parseStandard volumes w) (nextRequeue : ℤ)
    (hclock : (snapshotVolumes parseStandard answers configs w nextRequeue).1.readings.Pairwise
      (· ≤ ·)) :
    Ticked parseStandard volumes
      (snapshotVolumes parseStandard answers configs w nextRequeue).1 := by
  induction configs generalizing w nextRequeue with
  | nil => exact hw hclock
  | cons config _ ih =>
    obtain ⟨hspec, hconfigs⟩ := forall_mem_cons.mp hconfigs
    have hstep := Ticked.snapshotVolume hspec hw (answers config.1) nextRequeue
    rw [Operator.snapshotVolumes] at hclock ⊢
    split
    · next nextRequeue' hvolume =>
      rw [hvolume] at hstep hclock
      exact ih hconfigs hstep nextRequeue' hclock
    · next hvolume =>
      rw [hvolume] at hstep hclock
      exact hstep hclock

end

/-- **A recorded snapshot is the only one until the schedule ticks.**  In every run, whatever fails,
with a clock that does not go back, of two snapshots of a volume created at different times the
schedule ticks after the first and not after the second, if the annotation was stored after the
first. -/
theorem tick_of_recorded (parseStandard : String → Option Schedule)
    (volumes : VolumeName → Option SnapshotSpec) (claw : Claw) (store : SnapshotStore)
    (calls : List (VolumeName → Answers)) {w : SnapshotState}
    (hw : stateAfter (reconcileSnapshots parseStandard volumes) { claw, store } calls = w)
    (hclock : w.readings.Pairwise (· ≤ ·)) {v : VolumeName} {spec : SnapshotSpec}
    (hspec : volumes v = some spec) {schedule : Schedule}
    (hschedule : parseStandard spec.schedule = some schedule) {c d : Creation}
    (hc : c ∈ w.created) (hd : d ∈ w.created) (hcv : c.volume = v) (hdv : d.volume = v)
    (hlt : c.time.instant < d.time.instant) (hrecorded : c.recorded) :
    ∃ u, schedule.tick u ∧ c.time.instant < u ∧ u ≤ d.time.instant := by
  have hconfigs : ∀ config ∈ snapConfigs volumes, volumes config.1 = some config.2 := by
    intro config hconfig
    obtain ⟨v, -, hconfig⟩ := mem_filterMap.mp hconfig
    obtain ⟨spec, hfilter, rfl⟩ := map_eq_some_iff.mp hconfig
    exact (filter_eq_some_iff.mp hfilter).1
  have hinv : w.readings.Pairwise (· ≤ ·) → Ticked parseStandard volumes w := by
    rw [← hw]
    refine Lib.stateAfter_invariant
      (I := fun w => w.readings.Pairwise (· ≤ ·) → Ticked parseStandard volumes w) ?_ ?_ calls
    · exact fun w answers hw hclock => Ticked.snapshotVolumes hconfigs answers hw 0 hclock
    · exact fun _ => ⟨by simp, by simp, by simp⟩
  refine (hinv hclock).ticks c hc d hd (hcv.trans hdv.symm) hrecorded hlt schedule ?_
  rw [hcv, scheduleOf, hspec, bind_some, hschedule]

def hourly : Schedule where
  tick u := 3600 * 10 ^ 9 ∣ u
  next t := (t / (3600 * 10 ^ 9) + 1) * (3600 * 10 ^ 9)
  isLeast_next t := by
    refine ⟨⟨⟨_, Int.mul_comm _ _⟩, by omega⟩, ?_⟩
    rintro u ⟨⟨k, rfl⟩, hlt⟩
    omega
  whole u := by omega

def everyHour : String → Option Schedule
  | "0 * * * *" => some hourly
  | _ => none

def sessionHourly : VolumeName → Option SnapshotSpec
  | .session => some { enabled := true, schedule := "0 * * * *" }
  | _ => none

/-- A time on a day in March. -/
def clockAt (hour : Fin 24) (second : Fin 60) : Time :=
  ⟨2026, 3, 5, hour, 0, second, 0, 0,
    ⟨by decide, by decide, by decide, hour.2, by decide, second.2, by decide, by decide⟩⟩

/-- Two calls, an hour and five seconds apart. -/
def hourApart : List (VolumeName → Answers) :=
  [fun _ => { now := clockAt 12 0 }, fun _ => { now := clockAt 13 5 }]

/-- The second of them creates a snapshot, and there was a tick since the first. -/
theorem tick_of_recorded_hourly :
    (stateAfter (reconcileSnapshots everyHour sessionHourly)
        { claw := agentClaw, store := ⟨[], .nil⟩ } hourApart).created =
      [⟨.session, clockAt 13 5, true⟩, ⟨.session, clockAt 12 0, true⟩] ∧
    ∃ u, hourly.tick u ∧ (clockAt 12 0).instant < u ∧ u ≤ (clockAt 13 5).instant :=
  ⟨by decide +kernel, tick_of_recorded everyHour sessionHourly agentClaw ⟨[], .nil⟩ hourApart rfl
    (by decide +kernel) (v := .session) rfl rfl (c := ⟨.session, clockAt 12 0, true⟩)
    (d := ⟨.session, clockAt 13 5, true⟩) (by decide +kernel) (by decide +kernel) rfl rfl
    (by decide +kernel) rfl⟩

/-- **Two snapshots without a tick between them.**  The first is created at noon and the `Update`
after it fails; five seconds later the call is made again. -/
theorem twoInOneHour :
    let w := stateAfter (reconcileSnapshots everyHour sessionHourly)
      { claw := agentClaw, store := ⟨[], .nil⟩ }
      [fun _ => { now := clockAt 12 0, update := .failed }, fun _ => { now := clockAt 12 5 }]
    w.created = [⟨.session, clockAt 12 5, true⟩, ⟨.session, clockAt 12 0, false⟩] ∧
      w.readings.Pairwise (· ≤ ·) ∧
      ∀ u, hourly.tick u → ¬ ((clockAt 12 0).instant < u ∧ u ≤ (clockAt 12 5).instant) := by
  refine ⟨by decide +kernel, by decide +kernel, ?_⟩
  rintro u ⟨k, rfl⟩ ⟨hlt, hle⟩
  obtain ⟨n, hnoon⟩ : 3600 * 10 ^ 9 ∣ (clockAt 12 0).instant := by decide +kernel
  have hlater : (clockAt 12 5).instant = (clockAt 12 0).instant + 5 * 10 ^ 9 := by decide +kernel
  omega

end K8s4Claw.Operator
