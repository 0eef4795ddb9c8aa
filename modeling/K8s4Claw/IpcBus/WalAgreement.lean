/-
# The log and the entries in memory

Runs of the write-ahead log in which every file operation goes through.  Each of `Append`,
`Complete`, `MarkDLQ` and `IncrementAttempts` writes at most one record (`record`) and
changes the map of entries as replaying that record would (`step_of_record`); the file and
the writer's buffer together are therefore always a log of records that replays to the map
(`Agrees`, `step_agrees`).

A record reaches the file only when the buffer of the writer is full or flushed, so the
file by itself can lag behind the map (`append_not_recovered`).  What is true in every run
is `recover_along`: recovery of the file with the buffered bytes, and so of the file after
`Flush`, `Close` or `Compact`, gives the map.
-/

import K8s4Claw.IpcBus.Wal
import K8s4Claw.Lib.Run

namespace K8s4Claw.IpcBus.Wal

open Option
open Lib (BufWriter Table newline run run_cons run_append Meets)

/-! ### Runs -/

/-- The calls on a log; `restart` is `Close` followed by `NewWAL`. -/
inductive Op where
  | append (ts : String) (msg : Message)
  | complete (ts : String) (id : String)
  | markDLQ (ts : String) (id : String)
  | incrementAttempts (ts : String) (id : String)
  | compact (order : List String)
  | flush
  | restart
  deriving DecidableEq

/-- Every file operation of `Compact` goes through. -/
def CompactOutcome.ok : CompactOutcome :=
  { temp := true, flush := .ok, close := true, rename := true, reopen := true }

/-- One call.  `Compact` iterates over the map in some order of its keys. -/
def step (w : Wal) : Op → Option Wal
  | .append ts msg => some (w.append .ok .ok ts msg).1
  | .complete ts id => some (w.complete .ok .ok ts id).1
  | .markDLQ ts id => some (w.markDLQ .ok .ok ts id).1
  | .incrementAttempts ts id => some (w.incrementAttempts .ok .ok ts id).1
  | .compact order =>
      if w.entries.Enumerates order then some (w.compact .ok order).1 else none
  | .flush => some (w.flush .ok true).1
  | .restart => newWAL (w.close .ok true true).1.writer.file.bytes

/-- `NewWAL` in an empty directory. -/
def start : Wal := { writer := .new { bytes := [], closed := false }, entries := .empty }

/-- The record a call writes. -/
def record (w : Wal) : Op → Option WALEntry
  | .append ts msg => if msg.Marshals then some (pendingEntry ts msg) else none
  | .complete ts id => (w.entries.lookup id).map (closingRecord .complete ts)
  | .markDLQ ts id => (w.entries.lookup id).map (closingRecord .dlq ts)
  | .incrementAttempts ts id => (w.entries.lookup id).map (bumped ts)
  | .compact _ | .flush | .restart => none

/-- The record a call writes can be read back. -/
def RecordFits (w : Wal) (op : Op) : Prop := ∀ e ∈ record w op, Fits e
  deriving Decidable

/-- The id a call is about. -/
def Op.key : Op → Option String
  | .append _ msg => some msg.id
  | .complete _ id | .markDLQ _ id | .incrementAttempts _ id => some id
  | .compact _ | .flush | .restart => none

/-- The call closes the entry of `id`. -/
def Op.closes (id : String) : Op → Bool
  | .complete _ id' | .markDLQ _ id' => id' = id
  | _ => false

/-- The call appends a message `id`. -/
def Op.appends (id : String) : Op → Bool
  | .append _ msg => msg.id = id
  | _ => false

/-! ### What a call does -/

/-- A record written and replayed. -/
def logged (w : Wal) (e : WALEntry) : Wal where
  writer := w.writer.write .ok .ok (e.text ++ [newline])
  entries := w.entries.apply e

/-- Every entry can be written. -/
def Writable (w : Wal) : Prop := ∀ k e, w.entries.lookup k = some e → e.Marshals

section

variable {w w' : Wal} {op : Op} {log : List WALEntry} {state : WALState} {ts : String}
  {e : WALEntry}

theorem entries_appendEntry (o₁ o₂ : Lib.Outcome) (w : Wal) (e : WALEntry) :
    (w.appendEntry o₁ o₂ e).1.entries = w.entries := by
  unfold appendEntry
  split <;> rfl

theorem appendEntry_of_marshals (o₁ o₂ : Lib.Outcome) (he : e.Marshals) :
    w.appendEntry o₁ o₂ e =
      ({ w with writer := w.writer.write o₁ o₂ (e.text ++ [newline]) },
        !(w.writer.write o₁ o₂ (e.text ++ [newline])).failed) := by
  simp only [appendEntry, WALEntry.marshal, if_pos he]

theorem appendEntry_ok (h : w.writer.Ready) (he : e.Marshals) :
    w.appendEntry .ok .ok e =
      ({ w with writer := w.writer.write .ok .ok (e.text ++ [newline]) }, true) := by
  have hready := BufWriter.ready_write h (e.text ++ [newline])
  rw [appendEntry_of_marshals _ _ he, hready.not_failed, Bool.not_false]

theorem marshals_pendingEntry {msg : Message} :
    (pendingEntry ts msg).Marshals ↔ msg.Marshals := by
  simp [WALEntry.Marshals, pendingEntry]

theorem marshals_closingRecord : (closingRecord state ts e).Marshals := by
  simp [WALEntry.Marshals, closingRecord]

theorem append_ok (h : w.writer.Ready) (ts : String) {msg : Message} (hmsg : msg.Marshals) :
    w.append .ok .ok ts msg = (w.logged (pendingEntry ts msg), true) := by
  have happly : w.entries.apply (pendingEntry ts msg) = w.entries.put (pendingEntry ts msg) rfl :=
    Table.apply_of_put _ rfl
  simp only [append, appendEntry_ok h (marshals_pendingEntry.mpr hmsg), logged, happly]

/-- A message that cannot be marshalled is not appended. -/
theorem append_of_not_marshals (o₁ o₂ : Lib.Outcome) {msg : Message} (hmsg : ¬ msg.Marshals) :
    w.append o₁ o₂ ts msg = (w, false) := by
  have he : ¬ (pendingEntry ts msg).Marshals := fun h => hmsg (marshals_pendingEntry.mp h)
  simp only [append, appendEntry, WALEntry.marshal, if_neg he]

theorem closeEntry_ok (h : w.writer.Ready) {id : String}
    (hstate : WALEntry.reading.verb (closingRecord state ts e) = .remove)
    (hid : w.entries.lookup id = some e) :
    w.closeEntry state .ok .ok ts id = (w.logged (closingRecord state ts e), true) := by
  have hkey : WALEntry.reading.key (closingRecord state ts e) = id := (w.entries.keyed id e hid).1
  have happly : w.entries.apply (closingRecord state ts e) = w.entries.remove id := by
    rw [Table.apply_of_remove _ hstate, hkey]
  simp only [closeEntry, hid, appendEntry_ok h marshals_closingRecord, logged, happly]

theorem closeEntry_of_none {id : String} (hid : w.entries.lookup id = none) :
    w.closeEntry state .ok .ok ts id = (w, false) := by
  simp only [closeEntry, hid]

theorem incrementAttempts_ok (h : w.writer.Ready) {id : String}
    (hid : w.entries.lookup id = some e) (he : e.Marshals) :
    w.incrementAttempts .ok .ok ts id = (w.logged (bumped ts e), some (e.attempts + 1)) := by
  have hverb : WALEntry.reading.verb (bumped ts e) = .put :=
    (verb_bumped ts e).trans (w.entries.keyed id e hid).2
  unfold incrementAttempts
  split
  · next hnone => exact absurd (hnone.symm.trans hid) (by simp)
  · next e' he' =>
    obtain rfl : e' = e := some.inj (he'.symm.trans hid)
    have hready : ({ w with entries := w.entries.put (bumped ts e') hverb } : Wal).writer.Ready := h
    have hbumped : (bumped ts e').Marshals := he
    simp only [appendEntry_ok hready hbumped, logged, Table.apply_of_put _ hverb]
    rfl

theorem incrementAttempts_of_none {o₁ o₂ : Lib.Outcome} {id : String}
    (hid : w.entries.lookup id = none) : w.incrementAttempts o₁ o₂ ts id = (w, none) := by
  unfold incrementAttempts
  split
  · rfl
  · next he => exact absurd (hid.symm.trans he) (by simp)

/-- `IncrementAttempts` changes the entry in memory, whatever becomes of its record. -/
theorem lookup_incrementAttempts (o₁ o₂ : Lib.Outcome) (ts : String) {id : String}
    (hid : w.entries.lookup id = some e) (k : String) :
    (w.incrementAttempts o₁ o₂ ts id).1.entries.lookup k =
      if k = id then some (bumped ts e) else w.entries.lookup k := by
  have hbumped : WALEntry.reading.key (bumped ts e) = id := (w.entries.keyed id e hid).1
  unfold incrementAttempts
  split
  · next hnone => exact absurd (hnone.symm.trans hid) (by simp)
  · next e' he' =>
    obtain rfl : e' = e := some.inj (he'.symm.trans hid)
    have hput (hput) : (w.entries.put (bumped ts e') hput).lookup k =
        if k = id then some (bumped ts e') else w.entries.lookup k := by
      rw [Table.lookup_put, hbumped]
    dsimp only
    split
    all_goals
      next happend =>
      have hw := congrArg (fun r => r.1.entries) happend
      rw [entries_appendEntry] at hw
      rw [← hw, hput]

/-! ### Records -/

theorem record_congr {id : String} (hkey : op.key = some id)
    (hid : w'.entries.lookup id = w.entries.lookup id) : record w' op = record w op := by
  cases op <;> cases hkey <;> simp only [record, hid]

theorem key_of_record (he : record w op = some e) : op.key = some e.id := by
  cases op with
  | append =>
    cases (ite_none_right_eq_some.mp he).2
    rfl
  | complete | markDLQ | incrementAttempts =>
    obtain ⟨e₀, hid, rfl⟩ := map_eq_some_iff.mp he
    exact congrArg some (w.entries.keyed _ _ hid).1.symm
  | compact | flush | restart => cases he

theorem marshals_of_record (hw : w.Writable) (he : record w op = some e) : e.Marshals := by
  cases op with
  | append =>
    obtain ⟨hmsg, he⟩ := ite_none_right_eq_some.mp he
    cases he
    exact marshals_pendingEntry.mpr hmsg
  | complete | markDLQ =>
    obtain ⟨e₀, -, rfl⟩ := map_eq_some_iff.mp he
    exact marshals_closingRecord
  | incrementAttempts ts =>
    obtain ⟨e₀, hid, rfl⟩ := map_eq_some_iff.mp he
    have hbumped : (bumped ts e₀).Marshals := hw _ e₀ hid
    exact hbumped
  | compact | flush | restart => cases he

theorem writable_logged (hw : w.Writable) (he : e.Marshals) : (w.logged e).Writable := by
  intro k e' (hk : (w.entries.replay [e]).lookup k = some e')
  rcases Table.mem_of_lookup_replay hk with hmem | hk
  · cases List.mem_singleton.mp hmem
    exact he
  · exact hw k e' hk

/-- A call about an id that has nothing to write does nothing. -/
theorem step_of_record_none {id : String} (hkey : op.key = some id) (hr : record w op = none) :
    step w op = some w := by
  cases op with
  | append ts msg =>
    have hmsg : ¬ msg.Marshals := fun hmsg => absurd hr (by simp [record, hmsg])
    rw [step, append_of_not_marshals _ _ hmsg]
  | complete => rw [step, complete, closeEntry_of_none (map_eq_none_iff.mp hr)]
  | markDLQ => rw [step, markDLQ, closeEntry_of_none (map_eq_none_iff.mp hr)]
  | incrementAttempts => rw [step, incrementAttempts_of_none (map_eq_none_iff.mp hr)]
  | compact | flush | restart => cases hkey

section

variable (h : w.writer.Ready)

include h

theorem lookup_append (ts : String) {msg : Message} (hmsg : msg.Marshals) (k : String) :
    (w.append .ok .ok ts msg).1.entries.lookup k =
      if k = msg.id then some (pendingEntry ts msg) else w.entries.lookup k := by
  have hput : WALEntry.reading.verb (pendingEntry ts msg) = .put := rfl
  rw [append_ok h ts hmsg, logged, Table.apply_of_put _ hput, Table.lookup_put]
  rfl

theorem lookup_closeEntry (hstate : ∀ e, WALEntry.reading.verb (closingRecord state ts e) = .remove)
    (id k : String) :
    (w.closeEntry state .ok .ok ts id).1.entries.lookup k =
      if k = id then none else w.entries.lookup k := by
  cases hid : w.entries.lookup id with
  | none =>
    rw [closeEntry_of_none hid]
    split_ifs with hk
    · rw [hk, hid]
    · rfl
  | some e =>
    have hkey : WALEntry.reading.key (closingRecord state ts e) = id := (w.entries.keyed id e hid).1
    rw [closeEntry_ok h (hstate e) hid, logged, Table.apply_of_remove _ (hstate e), hkey,
      Table.lookup_remove]

theorem lookup_complete (ts id k : String) :
    (w.complete .ok .ok ts id).1.entries.lookup k =
      if k = id then none else w.entries.lookup k :=
  lookup_closeEntry h (fun _ => rfl) id k

theorem step_of_record (hw : w.Writable) (he : record w op = some e) :
    step w op = some (w.logged e) := by
  cases op with
  | append =>
    obtain ⟨hmsg, he⟩ := ite_none_right_eq_some.mp he
    cases he
    rw [step, append_ok h _ hmsg]
  | complete =>
    obtain ⟨e₀, hid, rfl⟩ := map_eq_some_iff.mp he
    rw [step, complete, closeEntry_ok h rfl hid]
  | markDLQ =>
    obtain ⟨e₀, hid, rfl⟩ := map_eq_some_iff.mp he
    rw [step, markDLQ, closeEntry_ok h rfl hid]
  | incrementAttempts =>
    obtain ⟨e₀, hid, rfl⟩ := map_eq_some_iff.mp he
    rw [step, incrementAttempts_ok h hid (hw _ _ hid)]
  | compact | flush | restart => exact absurd he (by simp [record])

end

/-- A flushed log: everything written is in the file. -/
def flushed (w : Wal) : Wal :=
  { w with writer := { file := { w.writer.file with bytes := w.writer.contents }
                       buffered := []
                       failed := false } }

section

variable (h : w.writer.Ready)

include h

theorem flush_ok : w.flush .ok true = (w.flushed, true) := by
  simp [flush, flushed, BufWriter.flush_ok h, h.not_closed]

theorem compact_ok (hw : w.Writable) (order : List String) :
    w.compact .ok order =
      ({ w with writer := .new { bytes := logFile (w.pendingEntries order), closed := false } },
        true) := by
  have hany : (w.pendingEntries order).any (fun e => !decide e.Marshals) = false := by
    rw [List.any_eq_false]
    intro e he
    obtain ⟨k, hk⟩ := Table.mem_snapshot he
    simpa using hw k e hk
  simp [compact, CompactOutcome.ok, hany, BufWriter.flush_ok h, h.not_closed, closeFile]

theorem bytes_close : (w.close .ok true true).1.writer.file.bytes = w.writer.contents := by
  simp [close, flush_ok h, flushed, closeFile]

theorem step_cases (hw : w.Writable) (hs : step w op = some w') :
    (∃ e, record w op = some e ∧ w' = w.logged e) ∨
    w' = w ∨ w' = w.flushed ∨ newWAL w.writer.contents = some w' ∨
    ∃ order, w.entries.Enumerates order ∧
      w' = { w with
        writer := .new { bytes := logFile (w.pendingEntries order), closed := false } } := by
  cases hr : record w op with
  | some e =>
    rw [step_of_record h hw hr] at hs
    exact .inl ⟨e, rfl, (some.inj hs).symm⟩
  | none =>
    right
    cases op with
    | append | complete | markDLQ | incrementAttempts =>
      rw [step_of_record_none rfl hr] at hs
      exact .inl (some.inj hs).symm
    | compact order =>
      rw [step, compact_ok h hw] at hs
      split_ifs at hs with horder
      exact .inr (.inr (.inr ⟨order, horder, (some.inj hs).symm⟩))
    | flush =>
      rw [step, flush_ok h] at hs
      exact .inr (.inl (some.inj hs).symm)
    | restart =>
      rw [step, bytes_close h] at hs
      exact .inr (.inr (.inl hs))

end

/-! ### Agreement -/

/-- The file and the buffer are the log, which replays to the entries in memory. -/
structure Agrees (w : Wal) (log : List WALEntry) : Prop where
  ready : w.writer.Ready
  contents : w.writer.contents = logFile log
  fits : ∀ e ∈ log, Fits e
  replay : Table.empty.replay log = w.entries

theorem agrees_start : Agrees start [] where
  ready := BufWriter.ready_new []
  contents := rfl
  fits := by simp
  replay := rfl

theorem logFile_append (log : List WALEntry) (e : WALEntry) :
    logFile (log ++ [e]) = logFile log ++ (e.text ++ [newline]) := by
  simp [logFile]

theorem Agrees.recover (h : Agrees w log) : recover w.writer.contents = some w.entries := by
  rw [h.contents, recover_logFile h.fits, h.replay]

section

variable (h : Agrees w log)

include h

theorem Agrees.fits_of_lookup {k : String} (hk : w.entries.lookup k = some e) : Fits e := by
  rw [← h.replay] at hk
  rcases Table.mem_of_lookup_replay hk with hmem | hnone
  · exact h.fits e hmem
  · exact absurd hnone (by simp)

theorem Agrees.writable : w.Writable := fun _ _ hk => (h.fits_of_lookup hk).marshals

theorem Agrees.logged (he : Fits e) :
    Agrees (w.logged e) (log ++ [e]) where
  ready := BufWriter.ready_write h.ready _
  contents := by
    rw [Wal.logged, BufWriter.contents_write h.ready, h.contents, logFile_append]
  fits := by
    intro e' he'
    rcases List.mem_append.mp he' with hmem | hmem
    · exact h.fits e' hmem
    · rwa [List.mem_singleton.mp hmem]
  replay := by rw [Table.replay_append, h.replay, Table.replay_cons, Table.replay_nil, Wal.logged]

theorem Agrees.flushed : Agrees w.flushed log where
  ready := ⟨h.ready.not_closed, rfl⟩
  contents := by
    rw [← h.contents]
    exact List.append_nil _
  fits := h.fits
  replay := h.replay

theorem Agrees.compacted {order : List String} (horder : w.entries.Enumerates order) :
    Agrees { w with writer := .new { bytes := logFile (w.pendingEntries order), closed := false } }
      (w.pendingEntries order) where
  ready := BufWriter.ready_new _
  contents := BufWriter.contents_new _
  fits e he := by
    obtain ⟨k, hk⟩ := Table.mem_snapshot he
    exact h.fits_of_lookup hk
  replay := Table.replay_snapshot horder

theorem Agrees.newWAL :
    Wal.newWAL w.writer.contents =
      some { writer := .new { bytes := w.writer.contents, closed := false }
             entries := w.entries } := by
  rw [Wal.newWAL, h.recover, map_some]

theorem Agrees.reopened :
    Agrees { writer := .new { bytes := w.writer.contents, closed := false }
             entries := w.entries } log where
  ready := BufWriter.ready_new _
  contents := (BufWriter.contents_new _).trans h.contents
  fits := h.fits
  replay := h.replay

end

/-- **A call whose record fits keeps the agreement.** -/
theorem step_agrees (h : ∃ log, Agrees w log) (hfits : RecordFits w op)
    (hs : step w op = some w') : ∃ log, Agrees w' log := by
  obtain ⟨log, h⟩ := h
  rcases step_cases h.ready h.writable hs with
    ⟨e, he, rfl⟩ | rfl | rfl | hnew | ⟨order, horder, rfl⟩
  · exact ⟨log ++ [e], h.logged (hfits e he)⟩
  · exact ⟨log, h⟩
  · exact ⟨log, h.flushed⟩
  · obtain rfl := some.inj (h.newWAL.symm.trans hnew)
    exact ⟨log, h.reopened⟩
  · exact ⟨_, h.compacted horder⟩

/-! ### Ids that were closed -/

theorem record_cases (h : record w op = some e) :
    op.appends e.id ∨ ∃ e₀, w.entries.lookup e.id = some e₀ := by
  cases op with
  | append =>
    cases (ite_none_right_eq_some.mp h).2
    exact .inl (by simp [Op.appends, pendingEntry])
  | complete ts id | markDLQ ts id | incrementAttempts ts id =>
    obtain ⟨e₀, hid, rfl⟩ := map_eq_some_iff.mp h
    exact .inr ⟨e₀, Table.lookup_key hid⟩
  | compact order | flush | restart => exact absurd h (by simp [record])

theorem step_lookup_none {id : String} (h : Agrees w log) (hop : ¬ op.appends id)
    (hs : step w op = some w') (hid : w.entries.lookup id = none) :
    w'.entries.lookup id = none := by
  rcases step_cases h.ready h.writable hs with ⟨e, he, rfl⟩ | rfl | rfl | hnew | ⟨-, -, rfl⟩
  · have hne : e.id ≠ id := by
      rintro rfl
      rcases record_cases he with happ | ⟨e₀, he₀⟩
      · exact hop happ
      · exact absurd (hid.symm.trans he₀) (by simp)
    exact (Table.lookup_apply_of_ne _ hne).trans hid
  · exact hid
  · exact hid
  · obtain rfl := some.inj (h.newWAL.symm.trans hnew)
    exact hid
  · exact hid

/-- A call that closes an id leaves it out of the map. -/
theorem step_closes {id : String} (h : w.writer.Ready) (hop : op.closes id)
    (hs : step w op = some w') : w'.entries.lookup id = none := by
  cases op with
  | complete ts id' =>
    obtain rfl : id' = id := by simpa [Op.closes] using hop
    cases hs
    rw [complete, lookup_closeEntry h fun _ => rfl, if_pos rfl]
  | markDLQ ts id' =>
    obtain rfl : id' = id := by simpa [Op.closes] using hop
    cases hs
    rw [markDLQ, lookup_closeEntry h fun _ => rfl, if_pos rfl]
  | append ts msg | incrementAttempts ts id' | compact order | flush | restart =>
    exact absurd hop (by simp [Op.closes])

/-! ### Whole runs -/

theorem run_agrees {ops : List Op} (h : ∃ log, Agrees w log) (hfits : Meets step RecordFits w ops)
    (hrun : run step w ops = some w') : ∃ log, Agrees w' log :=
  Lib.run_invariant_of_meets (fun _ _ _ h hok hs => step_agrees h hok hs) h hfits hrun

theorem run_lookup_none {ops : List Op} {id : String} (h : ∃ log, Agrees w log)
    (hid : w.entries.lookup id = none) (hfits : Meets step RecordFits w ops)
    (hops : ∀ op ∈ ops, ¬ op.appends id) (hrun : run step w ops = some w') :
    w'.entries.lookup id = none := by
  have hinv : (∃ log, Agrees w' log) ∧ w'.entries.lookup id = none := by
    refine Lib.run_invariant_of_meets
      (I := fun w => (∃ log, Agrees w log) ∧ w.entries.lookup id = none)
      ?_ ⟨h, hid⟩ (Lib.meets_and_of_forall hfits hops) hrun
    rintro w op w' ⟨⟨log, h⟩, hid⟩ ⟨hok, hop⟩ hs
    exact ⟨step_agrees ⟨log, h⟩ hok hs, step_lookup_none h hop hs hid⟩
  exact hinv.2

/-- **The log agrees with the map after every run.**  Recovery of what was written, the
buffered bytes included, gives the entries in memory; so does recovery of the file after
`Flush`, after `Close`, and after `Compact` in whatever order it writes.  An id that was
completed or dead-lettered is not among them unless it was appended again. -/
theorem recover_along {ops : List Op} (hfits : Meets step RecordFits start ops)
    (hrun : run step start ops = some w) :
    recover w.writer.contents = some w.entries ∧
    recover (w.flush .ok true).1.writer.file.bytes = some w.entries ∧
    (∃ w', step w .restart = some w' ∧ w'.entries = w.entries) ∧
    (∀ order, w.entries.Enumerates order →
      recover (w.compact .ok order).1.writer.file.bytes = some w.entries) ∧
    ∀ before op later id, ops = before ++ op :: later → op.closes id →
      (∀ op' ∈ later, ¬ op'.appends id) → w.entries.lookup id = none := by
  obtain ⟨log, h⟩ := run_agrees ⟨[], agrees_start⟩ hfits hrun
  refine ⟨h.recover, ?_, ?_, ?_, ?_⟩
  · rw [flush_ok h.ready]
    exact h.recover
  · refine ⟨{ writer := .new { bytes := w.writer.contents, closed := false }
              entries := w.entries }, ?_, rfl⟩
    rw [step, bytes_close h.ready, h.newWAL]
  · intro order horder
    rw [compact_ok h.ready h.writable]
    have hcompacted := (h.compacted horder).recover
    rwa [BufWriter.contents_new] at hcompacted
  · rintro before op later id rfl hcloses hlater
    obtain ⟨w₁, hbefore, hrest⟩ := run_append.mp hrun
    obtain ⟨w₂, hop, hafter⟩ := run_cons.mp hrest
    obtain ⟨hfits₁, hfits₂⟩ := Lib.meets_append.mp hfits
    have hmeets := hfits₂ w₁ hbefore
    obtain ⟨log₁, h₁⟩ := run_agrees ⟨[], agrees_start⟩ hfits₁ hbefore
    exact run_lookup_none (step_agrees ⟨log₁, h₁⟩ hmeets.1 hop) (step_closes h₁.ready hcloses hop)
      (hmeets.2 w₂ hop) hlater hafter

/-- A run with a retry, a completed message, a compaction and a restart. -/
def retried : List Op :=
  [.append "t1" (.plain "m1" "slack"), .incrementAttempts "t2" "m1",
    .append "t3" (.plain "m2" "slack"), .complete "t4" "m1", .compact ["m2"], .restart]

theorem recover_along_retried :
    ∃ w, run step start retried = some w ∧ recover w.writer.contents = some w.entries ∧
      w.entries.lookup "m1" = none := by
  have hsome : (run step start retried).isSome := by decide +kernel
  obtain ⟨w, hw⟩ := isSome_iff_exists.mp hsome
  obtain ⟨hrecover, -, -, -, hclosed⟩ := recover_along (by decide +kernel) hw
  exact ⟨w, hw, hrecover, hclosed (retried.take 3) _ _ "m1" rfl rfl (by decide)⟩

/-- The record of one small message stays in the buffer: recovery of the file alone finds
nothing. -/
theorem append_not_recovered :
    ∃ w ∈ run step start [.append "t1" (.plain "m1" "slack")],
      recover w.writer.file.bytes ≠ some w.entries := by
  decide +kernel

end

end K8s4Claw.IpcBus.Wal
