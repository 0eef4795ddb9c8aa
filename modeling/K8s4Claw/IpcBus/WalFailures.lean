/-
# Calls of the write-ahead log that fail

`internal/ipcbus/wal.go` when a file operation returns an error.

* `failed_keeps_iff` : `Append`, `Complete` and `MarkDLQ` change the map only after their record
  is written, so an error leaves the map as it was.  `IncrementAttempts` counts first: after an
  error the map is ahead of the log.
* `failed_compact_harmless_iff` : `Compact` that fails while it makes the temporary file leaves
  the log alone.  Any later failure costs the log its writer: the flush leaves its error in it,
  or the file is closed and not opened again.  Then the next `Flush` fails, and so do the
  appends that need the file, for good.
-/

import K8s4Claw.IpcBus.WalAgreement
import K8s4Claw.Lib.Calls

namespace K8s4Claw.IpcBus.Wal

open List
open Lib (BufWriter Outcome Table newline stateAfter answers)

/-! ### Calls that write a record -/

/-- The calls that write a record. -/
inductive Mutation where
  | append (msg : Message)
  | complete (id : String)
  | markDLQ (id : String)
  | incrementAttempts (id : String)
  deriving DecidableEq

/-- Such a call, and whether it returns no error. -/
def mutate (o₁ o₂ : Outcome) (ts : String) (w : Wal) : Mutation → Wal × Bool
  | .append msg => w.append o₁ o₂ ts msg
  | .complete id => w.complete o₁ o₂ ts id
  | .markDLQ id => w.markDLQ o₁ o₂ ts id
  | .incrementAttempts id =>
      ((w.incrementAttempts o₁ o₂ ts id).1, (w.incrementAttempts o₁ o₂ ts id).2.isSome)

/-- The file and the buffer are a log of records that replays to the map. -/
structure Tracks (w : Wal) (log : List WALEntry) : Prop where
  contents : w.writer.contents = logFile log
  replay : Table.empty.replay log = w.entries

section

variable {w : Wal} {o₁ o₂ : Outcome} {ts : String}

theorem entries_of_appendEntry {w' : Wal} {e : WALEntry} {ok : Bool}
    (h : w.appendEntry o₁ o₂ e = (w', ok)) : w'.entries = w.entries := by
  rw [← entries_appendEntry o₁ o₂ w e, h]

theorem entries_append_of_failed {msg : Message} (h : (w.append o₁ o₂ ts msg).2 = false) :
    (w.append o₁ o₂ ts msg).1.entries = w.entries := by
  rcases hwrite : w.appendEntry o₁ o₂ (pendingEntry ts msg) with ⟨w', ok⟩
  cases ok with
  | false =>
    simp only [append, hwrite]
    exact entries_of_appendEntry hwrite
  | true => simp [append, hwrite] at h

theorem entries_closeEntry_of_failed {state : WALState} {id : String}
    (h : (w.closeEntry state o₁ o₂ ts id).2 = false) :
    (w.closeEntry state o₁ o₂ ts id).1.entries = w.entries := by
  cases hid : w.entries.lookup id with
  | none => simp only [closeEntry, hid]
  | some entry =>
    rcases hwrite : w.appendEntry o₁ o₂ (closingRecord state ts entry) with ⟨w', ok⟩
    cases ok with
    | false =>
      simp only [closeEntry, hid, hwrite]
      exact entries_of_appendEntry hwrite
    | true => simp [closeEntry, hid, hwrite] at h

theorem bumped_ne (ts : String) (entry : WALEntry) : bumped ts entry ≠ entry := by
  intro h
  have hattempts : entry.attempts + 1 = entry.attempts := congrArg WALEntry.attempts h
  exact absurd hattempts (by simp)

/-- **When an error leaves the map as it was.**  In a state whose map is what the log of records
replays to, a call that returns an error leaves the map unchanged, and so in agreement with the
log, exactly when it is not `IncrementAttempts` of an id of the map. -/
theorem failed_keeps_iff {log : List WALEntry} (h : w.Tracks log) {m : Mutation}
    (hfail : (w.mutate o₁ o₂ ts m).2 = false) :
    (w.mutate o₁ o₂ ts m).1.entries = w.entries ∧
        Table.empty.replay log = (w.mutate o₁ o₂ ts m).1.entries ↔
      ∀ id, m = .incrementAttempts id → w.entries.lookup id = none := by
  rw [h.replay, eq_comm (a := w.entries), and_self]
  cases m with
  | append => simp [mutate, entries_append_of_failed hfail]
  | complete => simp [mutate, complete, entries_closeEntry_of_failed hfail]
  | markDLQ => simp [mutate, markDLQ, entries_closeEntry_of_failed hfail]
  | incrementAttempts id =>
    have hiff : (∀ id', Mutation.incrementAttempts id = .incrementAttempts id' →
        w.entries.lookup id' = none) ↔ w.entries.lookup id = none := by simp
    rw [hiff]
    constructor
    · intro heq
      by_contra hne
      obtain ⟨entry, hid⟩ := Option.ne_none_iff_exists'.mp hne
      have hlookup : (w.incrementAttempts o₁ o₂ ts id).1.entries.lookup id =
          w.entries.lookup id := congrArg (fun t => t.lookup id) heq
      rw [lookup_incrementAttempts o₁ o₂ ts hid, if_pos rfl, hid] at hlookup
      exact bumped_ne ts entry (Option.some.inj hlookup)
    · intro hnone
      rw [mutate, incrementAttempts_of_none hnone]

end

/-- A log with one entry whose flush found no room on the disk. -/
def diskFull : Wal :=
  ((start.append .ok .ok "t" (.plain "m" "chat")).1.flush (.fails 0) true).1

theorem tracks_diskFull : diskFull.Tracks [pendingEntry "t" (.plain "m" "chat")] where
  contents := by decide +kernel
  replay := by decide +kernel

/-- `Complete` fails on it and leaves the entry. -/
theorem failed_keeps_iff_complete :
    (diskFull.mutate .ok .ok "u" (.complete "m")).2 = false ∧
      (diskFull.mutate .ok .ok "u" (.complete "m")).1.entries = diskFull.entries ∧
      Table.empty.replay [pendingEntry "t" (.plain "m" "chat")] =
        (diskFull.mutate .ok .ok "u" (.complete "m")).1.entries := by
  have hfail : (diskFull.mutate .ok .ok "u" (.complete "m")).2 = false := by decide +kernel
  exact ⟨hfail, (failed_keeps_iff tracks_diskFull hfail).mpr (by simp)⟩

/-- **An attempt that is not in the log**: `IncrementAttempts` returns an error and writes
nothing, and the entry in memory has two attempts where the log has one. -/
theorem attempt_not_logged :
    (diskFull.mutate .ok .ok "u" (.incrementAttempts "m")).2 = false ∧
      (diskFull.mutate .ok .ok "u" (.incrementAttempts "m")).1.writer.contents =
        logFile [pendingEntry "t" (.plain "m" "chat")] ∧
      (diskFull.entries.lookup "m").map WALEntry.attempts = some 1 ∧
      ((diskFull.mutate .ok .ok "u" (.incrementAttempts "m")).1.entries.lookup "m").map
        WALEntry.attempts = some 2 := by
  decide +kernel

/-! ### Compaction that fails -/

/-- A call after `Compact`. -/
inductive Later where
  | append (ts : String) (msg : Message)
  | flush
  deriving DecidableEq

/-- Such a call, its own file operations going through. -/
def later (w : Wal) : Later → Wal × Bool
  | .append ts msg => w.append .ok .ok ts msg
  | .flush => w.flush .ok true

/-- What the log `w'` is good for when the log was `w` before: later calls that go through on `w`
go through on `w'`, and the files recover to the same entries. -/
structure Harmless (w w' : Wal) : Prop where
  answers : ∀ cs, List.Forall₂ (fun a b => a = true → b = true)
    (answers later w cs) (answers later w' cs)
  recovers : ∀ cs, recover (stateAfter later w' cs).writer.file.bytes =
    recover (stateAfter later w cs).writer.file.bytes

/-- No record fits in the buffer. -/
def NoRoom (w : Wal) : Prop :=
  ∀ ts msg, msg.Marshals →
    w.writer.available < ((pendingEntry ts msg).text ++ [newline]).length

/-- A log that `Compact` cannot make worse: its writer has an error already, or the file is closed
already and there is nothing to flush, or no room in the buffer. -/
def BeyondHarm (w : Wal) : Prop :=
  w.writer.failed = true ∨ w.writer.file.closed = true ∧ (w.writer.buffered = [] ∨ w.NoRoom)

section

variable {w : Wal} {o : CompactOutcome} {order : List String}

theorem Harmless.refl (w : Wal) : Harmless w w where
  answers _ := forall₂_refl _
  recovers _ := rfl

theorem later_of_failed (h : w.writer.failed = true) (c : Later) : w.later c = (w, false) := by
  cases c with
  | append ts msg =>
    by_cases hmsg : msg.Marshals
    · have he : (pendingEntry ts msg).Marshals := marshals_pendingEntry.mpr hmsg
      simp [later, append, appendEntry_of_marshals .ok .ok he, BufWriter.write, h]
    · rw [later, append_of_not_marshals _ _ hmsg]
  | flush => simp [later, flush, BufWriter.flush, h]

/-- A call fails for want of room, and from then on every call; one that has nothing to write
changes nothing. -/
theorem later_of_noRoom (hclosed : w.writer.file.closed = true) (hfailed : w.writer.failed = false)
    (hb : w.writer.buffered ≠ []) (hroom : w.NoRoom) (c : Later) :
    (w.later c).2 = false ∧ ((w.later c).1 = w ∨ (w.later c).1.writer.failed = true ∧
      (w.later c).1.writer.file = w.writer.file) := by
  cases c with
  | append ts msg =>
    by_cases hmsg : msg.Marshals
    · have he : (pendingEntry ts msg).Marshals := marshals_pendingEntry.mpr hmsg
      have hwrite := BufWriter.write_of_closed .ok .ok hclosed hfailed hb (hroom ts msg hmsg)
      simp only [later, append, appendEntry_of_marshals .ok .ok he, hwrite, Bool.not_true, and_self,
        or_true]
    · rw [later, append_of_not_marshals _ _ hmsg]
      exact ⟨rfl, .inl rfl⟩
  | flush =>
    have hflush := BufWriter.flush_of_closed .ok hclosed hfailed hb
    simp only [later, flush, hflush, Bool.not_true, Bool.false_and, and_self, or_true]

/-- Two logs with one file, neither of which takes anything. -/
structure Dead (w w' : Wal) : Prop where
  file : w'.writer.file = w.writer.file
  failed : w'.writer.failed = true
  dead : w.writer.failed = true ∨
    w.writer.file.closed = true ∧ w.writer.buffered ≠ [] ∧ w.NoRoom

variable {w' : Wal}

theorem Dead.later (h : Dead w w') (c : Later) :
    id (w.later c).2 = (w'.later c).2 ∧ Dead (w.later c).1 (w'.later c).1 := by
  rw [later_of_failed h.failed]
  cases hfailed : w.writer.failed with
  | true =>
    rw [later_of_failed hfailed]
    exact ⟨rfl, h⟩
  | false =>
    obtain ⟨hclosed, hb, hroom⟩ := h.dead.resolve_left (by simp [hfailed])
    obtain ⟨hno, hsame | ⟨hdead, hfile⟩⟩ := later_of_noRoom hclosed hfailed hb hroom c
    · rw [hsame]
      exact ⟨hno, h⟩
    · exact ⟨hno, h.file.trans hfile.symm, h.failed, .inl hdead⟩

theorem Dead.harmless (h : Dead w w') : Harmless w w' := by
  have hrefine (cs : List Later) :=
    Lib.answers_refine (fun w w' c (h : Dead w w') => h.later c) h cs
  constructor
  · intro cs
    rw [← (hrefine cs).1, map_id]
    exact forall₂_refl _
  · intro cs
    rw [(hrefine cs).2.file]

/-- What `Compact` leaves when it fails after the temporary file is made: a flushed log, if the
flush or closing the file fails; otherwise a log whose file is closed. -/
theorem compact_cases (h : (w.compact o order).2 = false) (htemp : o.temp = true)
    (hw : ∀ e ∈ w.pendingEntries order, e.Marshals) :
    ((w.writer.flush o.flush).failed = true ∨ w.writer.file.closed = true) ∧
        (w.compact o order).1 = { w with writer := w.writer.flush o.flush } ∨
      w.writer.Ready ∧ (w.compact o order).1.writer.file.closed = true := by
  have hclosed := BufWriter.closed_flush o.flush w.writer
  have hready (hf : ¬ (w.writer.flush o.flush).failed = true)
      (hc : ¬ w.writer.file.closed = true) : w.writer.Ready := by
    refine ⟨by simpa using hc, ?_⟩
    by_contra hfailed
    rw [BufWriter.flush, if_pos (.inl (by simpa using hfailed))] at hf
    exact hf (by simpa using hfailed)
  have hany : (w.pendingEntries order).any (fun e => !decide e.Marshals) = false := by
    simpa using hw
  unfold compact at h ⊢
  simp only [htemp, hany, Bool.not_true, Bool.or_false, Bool.false_eq_true, if_false, hclosed]
    at h ⊢
  split_ifs at h ⊢ with hfailed hc
  · exact .inl ⟨.inl hfailed, rfl⟩
  · exact .inl ⟨.inr hc, rfl⟩
  · exact .inr ⟨hready hfailed hc, rfl⟩
  · exact .inr ⟨hready hfailed hc, rfl⟩

/-- A `Flush` that would have gone through fails on a log with an error or a closed file. -/
theorem not_harmless_of_flush (h : w.writer.Ready)
    (hw' : w'.writer.failed = true ∨ w'.writer.file.closed = true) : ¬ Harmless w w' := by
  intro hh
  have hflush := hh.answers [.flush]
  have hclosed := BufWriter.closed_flush .ok w'.writer
  have hno : (w'.flush .ok true).2 = false := by
    rcases hw' with hfailed | hc
    · exact congrArg Prod.snd (later_of_failed hfailed .flush)
    · simp [flush, hclosed, hc]
  simp only [answers, later, flush_ok h, hno, forall₂_cons] at hflush
  exact absurd (hflush.1 trivial) (by decide)

/-- So does an `Append` that would have gone to the buffer. -/
theorem not_harmless_of_append (hfailed : w.writer.failed = false) (hroom : ¬ w.NoRoom)
    (hw' : w'.writer.failed = true) : ¬ Harmless w w' := by
  intro hh
  simp only [NoRoom, not_forall, not_lt] at hroom
  obtain ⟨ts, msg, hmsg, hfits⟩ := hroom
  have happend := hh.answers [.append ts msg]
  have he : (pendingEntry ts msg).Marshals := marshals_pendingEntry.mpr hmsg
  have hyes : (w.append .ok .ok ts msg).2 = true := by
    simp only [append, appendEntry_of_marshals .ok .ok he,
      BufWriter.write_of_le .ok .ok hfailed hfits, hfailed, Bool.not_false]
  have hno : (w'.append .ok .ok ts msg).2 = false :=
    congrArg Prod.snd (later_of_failed hw' (.append ts msg))
  simp only [answers, later, hyes, hno, forall₂_cons] at happend
  exact absurd (happend.1 trivial) (by decide)

theorem flush_harmless_iff {f : Outcome}
    (hcond : (w.writer.flush f).failed = true ∨ w.writer.file.closed = true) :
    Harmless w { w with writer := w.writer.flush f } ↔ w.BeyondHarm := by
  cases hfailed : w.writer.failed with
  | true =>
    have hsame : w.writer.flush f = w.writer := if_pos (.inl hfailed)
    simp [hsame, Harmless.refl, BeyondHarm, hfailed]
  | false =>
    cases hclosed : w.writer.file.closed with
    | false =>
      have hflush := hcond.resolve_right (by simp [hclosed])
      have hnot : ¬ w.BeyondHarm := by simp [BeyondHarm, hfailed, hclosed]
      simp only [hnot, iff_false]
      exact not_harmless_of_flush ⟨hclosed, hfailed⟩ (.inl hflush)
    | true =>
      by_cases hb : w.writer.buffered = []
      · have hsame : w.writer.flush f = w.writer := if_pos (.inr hb)
        simp [hsame, Harmless.refl, BeyondHarm, hclosed, hb]
      · have hflush := BufWriter.flush_of_closed f hclosed hfailed hb
        have hiff : w.BeyondHarm ↔ w.NoRoom := by simp [BeyondHarm, hfailed, hclosed, hb]
        rw [hiff, hflush]
        constructor
        · intro hh
          by_contra hroom
          exact not_harmless_of_append hfailed hroom rfl hh
        · intro hroom
          exact Dead.harmless ⟨rfl, rfl, .inr ⟨hclosed, hb, hroom⟩⟩

/-- **When a failed compaction is harmless.**  A `Compact` that returns an error leaves a log on
which every later `Append` and `Flush` goes through that would have gone through without it, and
whose file recovers to the same entries, exactly when it failed while it made the temporary file,
in a file operation or for an entry that cannot be marshalled, or the log was beyond harm. -/
theorem failed_compact_harmless_iff (h : (w.compact o order).2 = false) :
    Harmless w (w.compact o order).1 ↔
      o.temp = false ∨ (∃ e ∈ w.pendingEntries order, ¬ e.Marshals) ∨ w.BeyondHarm := by
  by_cases hmade : o.temp = false ∨ ∃ e ∈ w.pendingEntries order, ¬ e.Marshals
  · have hsame : (w.compact o order).1 = w := by
      have hguard :
          (!o.temp || (w.pendingEntries order).any fun e => !decide e.Marshals) = true := by
        simpa using hmade
      rw [compact, if_pos hguard]
    rw [hsame, ← or_assoc]
    exact iff_of_true (Harmless.refl w) (.inl hmade)
  · rw [← or_assoc, or_iff_right hmade]
    simp only [not_or, not_exists, not_and, not_not, Bool.not_eq_false] at hmade
    rcases compact_cases h hmade.1 hmade.2 with ⟨hcond, hw'⟩ | ⟨hready, hclosed⟩
    · rw [hw']
      exact flush_harmless_iff hcond
    · have hnot : ¬ w.BeyondHarm := by simp [BeyondHarm, hready.not_failed, hready.not_closed]
      simp only [hnot, iff_false]
      exact not_harmless_of_flush hready (.inr hclosed)

end

/-- Only the rename fails. -/
def renameFails : CompactOutcome := { CompactOutcome.ok with rename := false }

/-- A log with one entry. -/
def oneEntry : Wal := (start.append .ok .ok "t" (.plain "m" "chat")).1

/-- `Compact` with a rename that fails is not harmless. -/
theorem failed_compact_harmless_iff_rename :
    (oneEntry.compact renameFails ["m"]).2 = false ∧
      ¬ Harmless oneEntry (oneEntry.compact renameFails ["m"]).1 := by
  have hfail : (oneEntry.compact renameFails ["m"]).2 = false := by decide +kernel
  have hwriter : oneEntry.writer.failed = false ∧ oneEntry.writer.file.closed = false := by
    decide +kernel
  refine ⟨hfail, fun h => ?_⟩
  rcases (failed_compact_harmless_iff hfail).mp h with htemp | hentry | hbeyond
  · exact absurd htemp (by decide)
  · exact absurd hentry (by decide +kernel)
  · simp [BeyondHarm, hwriter] at hbeyond

/-- **A message lost after a failed compaction**: the rename fails and the log stays closed.  The
next `Append` still returns no error, `Flush` does, and recovery does not find the message; without
the compaction it does. -/
theorem compaction_loses :
    (oneEntry.compact renameFails ["m"]).2 = false ∧
      answers later (oneEntry.compact renameFails ["m"]).1
        [.append "u" (.plain "n" "chat"), .flush] = [true, false] ∧
      (recover (stateAfter later (oneEntry.compact renameFails ["m"]).1
        [.append "u" (.plain "n" "chat"), .flush]).writer.file.bytes).map
          (fun t => (t.lookup "n").isSome) = some false ∧
      answers later oneEntry [.append "u" (.plain "n" "chat"), .flush] = [true, true] ∧
      (recover (stateAfter later oneEntry
        [.append "u" (.plain "n" "chat"), .flush]).writer.file.bytes).map
          (fun t => (t.lookup "n").isSome) = some true := by
  decide +kernel

end K8s4Claw.IpcBus.Wal
