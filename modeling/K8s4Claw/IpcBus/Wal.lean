/-
# The write-ahead log

`internal/ipcbus/wal.go`.  The log is a file of JSON lines, one record for each change of
a message's state, written through a `bufio.Writer`; in memory it is the table of pending
entries.  `recover` replays the file's records into such a table and skips lines that are
not records.

Every call that touches the file takes the outcomes of its file operations, and `ts`, the
text of the time it reads from the clock.  A file that does not exist is an empty one.
`json.Marshal` fails on a record whose message has a timestamp it cannot write, and a
record is one level of nesting more around its message, which `recover` may then not be
able to read.  The mutex makes each call one step.

* `WALEntry.unmarshal_text` : a record is read back as it was written, if it can be read;
* `recover_logFile` : recovery of a file of records replays them.
-/

import K8s4Claw.IpcBus.Message
import K8s4Claw.Lib.BufWriter
import K8s4Claw.Lib.KeyedLog
import K8s4Claw.Lib.Lines

namespace K8s4Claw.IpcBus

open List Option
open Lib (Bytes BufWriter Outcome Reading Table newline rawLines scanLines unlines IsLine)
open Lib.Json

/-! ### Records -/

/-- The names of the three states. -/
def walStateNames : List String := ["pending", "complete", "dlq"]

/-- `WALState`: one of the constants, or another string read from a file. -/
inductive WALState where
  | pending
  | complete
  | dlq
  | other (name : String) (h : name ∉ walStateNames)
  deriving DecidableEq

namespace WALState

/-- The string the constant stands for. -/
def text : WALState → String
  | pending => "pending"
  | complete => "complete"
  | dlq => "dlq"
  | other name _ => name

/-- The state a string stands for. -/
def ofText (s : String) : WALState :=
  if h : s ∉ walStateNames then other s h
  else if s = "pending" then pending
  else if s = "complete" then complete
  else dlq

@[simp]
theorem ofText_text (s : WALState) : ofText s.text = s := by
  cases s with
  | other _ h => simp [text, ofText, h]
  | _ => decide

end WALState

/-- `WALEntry`. -/
structure WALEntry where
  id : String
  channel : String
  state : WALState
  attempts : Int64
  ts : String
  msg : Option Message
  deriving DecidableEq

namespace WALEntry

def zero : WALEntry where
  id := ""
  channel := ""
  state := .ofText ""
  attempts := 0
  ts := ""
  msg := none

/-- The fields of the struct. -/
inductive Field where
  | id
  | channel
  | state
  | attempts
  | ts
  | msg
  deriving DecidableEq

def Field.name : Field → String
  | id => "id"
  | channel => "channel"
  | state => "state"
  | attempts => "attempts"
  | ts => "ts"
  | msg => "msg"

def fields : Fields Field where
  all := [.id, .channel, .state, .attempts, .ts, .msg]
  name := Field.name
  find_name f := by cases f <;> decide

/-- What `json.Unmarshal` does with the member of one field.  The message is a pointer: `null`
sets it to `nil`, and an object fills the message it points to, a new one if it is `nil`. -/
def set (e : WALEntry) : Field → Value → Option WALEntry
  | .id, v => (decodeString e.id v).map fun s => { e with id := s }
  | .channel, v => (decodeString e.channel v).map fun s => { e with channel := s }
  | .state, v => (decodeString e.state.text v).map fun s => { e with state := .ofText s }
  | .attempts, v => (decodeInt e.attempts v).map fun n => { e with attempts := n }
  | .ts, v => (decodeString e.ts v).map fun s => { e with ts := s }
  | .msg, .null => some { e with msg := none }
  | .msg, v => ((e.msg.getD .zero).decode v).map fun m => { e with msg := some m }

/-- The members of the object that is written for `e`. -/
def members (e : WALEntry) : List (Body × Value) :=
  member (fields.name .id) (string e.id) ::
  member (fields.name .channel) (string e.channel) ::
  member (fields.name .state) (string e.state.text) ::
  member (fields.name .attempts) (int e.attempts) ::
  member (fields.name .ts) (string e.ts) ::
  (e.msg.map fun m => member (fields.name .msg) (.obj m.members)).toList

/-- The text of a record. -/
def text (e : WALEntry) : Bytes := print (.obj e.members)

/-- `json.Marshal` goes through. -/
def Marshals (e : WALEntry) : Prop := ∀ m ∈ e.msg, m.Marshals
  deriving Decidable

def marshal (e : WALEntry) : Option Bytes := if e.Marshals then some e.text else none

/-- `json.Unmarshal` reads the record. -/
def Nestable (e : WALEntry) : Prop := ∀ m ∈ e.msg, m.Nestable
  deriving Decidable

/-- `json.Unmarshal` into a zero entry. -/
def unmarshal (data : Bytes) : Option WALEntry := (parse data).bind (decodeStruct fields set zero)

theorem depth_members_le_iff (e : WALEntry) :
    depth (.obj e.members) ≤ maxNestingDepth ↔ e.Nestable := by
  obtain ⟨-, -, -, -, -, msg⟩ := e
  cases msg with
  | none =>
    simp only [depth, members, member, depthMembers, string, int, Nestable, map_none,
      toList_none, mem_def, reduceCtorEq, false_implies, implies_true, iff_true]
    decide
  | some m =>
    have hdepth := m.depth_members
    rw [depth] at hdepth
    simp only [depth, members, member, depthMembers, string, int, Nestable, Message.Nestable,
      map_some, toList_some, mem_some, forall_eq', hdepth]
    omega

/-- **A record is read back as it was written**, if it is not nested too deep. -/
theorem unmarshal_text {e : WALEntry} (h : e.Marshals) :
    unmarshal e.text = if e.Nestable then some e else none := by
  rw [unmarshal, text, parse_print, if_congr e.depth_members_le_iff rfl rfl]
  split_ifs with hn
  · obtain ⟨_, _, _, _, _, msg⟩ := e
    simp only [members, decodeStruct_cons, set, bind_some]
    cases msg with
    | none => simp [zero]
    | some m => simp [set, zero, Message.decode_members (h m rfl)]
  · rfl

theorem isLine_text (e : WALEntry) : IsLine e.text := by
  constructor <;> exact fun h => absurd (le_of_mem_print h) (by decide)

/-- What a record says: `recover` keeps pending entries and drops the others. -/
def reading : Reading WALEntry String where
  key := id
  verb e := match e.state with
    | .pending => .put
    | .complete | .dlq => .remove
    | .other _ _ => .skip

end WALEntry

abbrev Entries := Table WALEntry.reading

/-! ### Recovery -/

/-- One line of the file; one that is not a record is skipped. -/
def recoverLine (t : Entries) (line : Bytes) : Entries :=
  match WALEntry.unmarshal line with
  | none => t
  | some e => t.apply e

/-- `recover`: the entries, or `none` for the scanner's error. -/
def recover (file : Bytes) : Option Entries :=
  let (lines, ok) := scanLines maxMessageSize file
  if ok then some (lines.foldl recoverLine .empty) else none

/-- The record can be written and read back: it fits in the scanner's buffer. -/
structure Fits (e : WALEntry) : Prop where
  length : e.text.length < maxMessageSize
  marshals : e.Marshals
  nestable : e.Nestable

theorem fits_iff {e : WALEntry} :
    Fits e ↔ e.text.length < maxMessageSize ∧ e.Marshals ∧ e.Nestable :=
  ⟨fun h => ⟨h.length, h.marshals, h.nestable⟩, fun h => ⟨h.1, h.2.1, h.2.2⟩⟩

instance (e : WALEntry) : Decidable (Fits e) := decidable_of_iff _ fits_iff.symm

/-- The file these records make. -/
def logFile (log : List WALEntry) : Bytes := unlines (log.map WALEntry.text)

theorem recoverLine_of_none {t : Entries} {line : Bytes} (h : WALEntry.unmarshal line = none) :
    recoverLine t line = t := by
  rw [recoverLine, h]

theorem recoverLine_text (t : Entries) {e : WALEntry} (h : e.Marshals) :
    recoverLine t e.text = if e.Nestable then t.apply e else t := by
  rw [recoverLine, WALEntry.unmarshal_text h]
  split_ifs <;> rfl

theorem foldl_recoverLine (t : Entries) {log : List WALEntry} (h : ∀ e ∈ log, e.Marshals) :
    (log.map WALEntry.text).foldl recoverLine t = t.replay (log.filter (·.Nestable)) := by
  induction log generalizing t with
  | nil => rfl
  | cons e log ih =>
    obtain ⟨he, h⟩ := forall_mem_cons.mp h
    rw [map_cons, foldl_cons, recoverLine_text t he, ih _ h, filter_cons]
    by_cases hn : e.Nestable
    · rw [if_pos hn, if_pos (decide_eq_true hn), Table.replay_cons]
    · rw [if_neg hn, if_neg (by simpa using hn)]

theorem filter_nestable {log : List WALEntry} (h : ∀ e ∈ log, Fits e) :
    log.filter (·.Nestable) = log :=
  filter_eq_self.mpr fun e he => decide_eq_true (h e he).nestable

theorem recover_of_rawLines {file : Bytes} {lines : List Bytes} (hraw : rawLines file = lines)
    (hline : ∀ line ∈ lines, IsLine line) (hfit : ∀ line ∈ lines, line.length < maxMessageSize) :
    recover file = some (lines.foldl recoverLine .empty) := by
  have hscan := Lib.scanLines_of_rawLines hraw hline hfit
  unfold recover
  simp only [hscan, if_true]

/-- **Recovery fails on a line that does not fit.** -/
theorem forall_lt_of_recover {file : Bytes} {t : Entries} (h : recover file = some t) :
    ∀ line ∈ rawLines file, line.length < maxMessageSize := by
  refine Lib.forall_lt_of_scanLines ?_
  unfold recover at h
  by_contra hok
  simp [hok] at h

theorem rawLines_logFile (log : List WALEntry) :
    rawLines (logFile log) = log.map WALEntry.text :=
  Lib.rawLines_unlines (forall_mem_map.mpr fun e _ => e.isLine_text.1)

/-- **Recovery of a file of records replays those that are not nested too deep.** -/
theorem recover_logFile_filter {log : List WALEntry}
    (hlength : ∀ e ∈ log, e.text.length < maxMessageSize) (hlog : ∀ e ∈ log, e.Marshals) :
    recover (logFile log) = some (Table.empty.replay (log.filter (·.Nestable))) := by
  rw [recover_of_rawLines (rawLines_logFile log) (forall_mem_map.mpr fun e _ => e.isLine_text)
    (forall_mem_map.mpr hlength), foldl_recoverLine _ hlog]

/-- **Recovery of a file of records that can be read replays them.** -/
theorem recover_logFile {log : List WALEntry} (h : ∀ e ∈ log, Fits e) :
    recover (logFile log) = some (Table.empty.replay log) := by
  rw [recover_logFile_filter (fun e he => (h e he).length) fun e he => (h e he).marshals,
    filter_nestable h]

/-! ### The log -/

/-- `WAL`. -/
structure Wal where
  writer : BufWriter
  entries : Entries

namespace Wal

/-- `NewWAL` on a file; `none` when recovery fails. -/
def newWAL (file : Bytes) : Option Wal :=
  (recover file).map fun t => { writer := .new { bytes := file, closed := false }, entries := t }

/-- `appendEntry`, and whether it went through. -/
def appendEntry (o₁ o₂ : Outcome) (w : Wal) (entry : WALEntry) : Wal × Bool :=
  match entry.marshal with
  | none => (w, false)
  | some data =>
      let writer := w.writer.write o₁ o₂ (data ++ [newline])
      ({ w with writer := writer }, !writer.failed)

/-- The entry `Append` makes for a message. -/
def pendingEntry (ts : String) (msg : Message) : WALEntry where
  id := msg.id
  channel := msg.channel
  state := .pending
  attempts := 1
  ts := ts
  msg := some msg

theorem verb_pendingEntry (ts : String) (msg : Message) :
    WALEntry.reading.verb (pendingEntry ts msg) = .put := rfl

def append (o₁ o₂ : Outcome) (ts : String) (w : Wal) (msg : Message) : Wal × Bool :=
  let entry := pendingEntry ts msg
  match w.appendEntry o₁ o₂ entry with
  | (w, false) => (w, false)
  | (w, true) => ({ w with entries := w.entries.put entry rfl }, true)

/-- The record that closes an entry. -/
def closingRecord (state : WALState) (ts : String) (entry : WALEntry) : WALEntry where
  id := entry.id
  channel := entry.channel
  state := state
  attempts := entry.attempts
  ts := ts
  msg := none

/-- What `Complete` and `MarkDLQ` share: write a closing record and forget the entry.  An id that
is not in the map is an error. -/
def closeEntry (state : WALState) (o₁ o₂ : Outcome) (ts : String) (w : Wal) (id : String) :
    Wal × Bool :=
  match w.entries.lookup id with
  | none => (w, false)
  | some entry =>
      match w.appendEntry o₁ o₂ (closingRecord state ts entry) with
      | (w, false) => (w, false)
      | (w, true) => ({ w with entries := w.entries.remove id }, true)

def complete : Outcome → Outcome → String → Wal → String → Wal × Bool := closeEntry .complete

def markDLQ : Outcome → Outcome → String → Wal → String → Wal × Bool := closeEntry .dlq

/-- The entry after one more attempt. -/
def bumped (ts : String) (entry : WALEntry) : WALEntry :=
  { entry with attempts := entry.attempts + 1, ts := ts }

theorem verb_bumped (ts : String) (entry : WALEntry) :
    WALEntry.reading.verb (bumped ts entry) = WALEntry.reading.verb entry := rfl

/-- `IncrementAttempts`, and the count it returns, `none` for an error.  The entry is changed in
place, before its record is written and also when that fails. -/
def incrementAttempts (o₁ o₂ : Outcome) (ts : String) (w : Wal) (id : String) :
    Wal × Option Int64 :=
  match h : w.entries.lookup id with
  | none => (w, none)
  | some entry =>
      let hput := (verb_bumped ts entry).trans (w.entries.keyed id entry h).2
      let w := { w with entries := w.entries.put (bumped ts entry) hput }
      match w.appendEntry o₁ o₂ (bumped ts entry) with
      | (w, false) => (w, none)
      | (w, true) => (w, some (bumped ts entry).attempts)

/-- `PendingEntries`; `order` is the order in which the map is iterated. -/
def pendingEntries (w : Wal) (order : List String) : List WALEntry := w.entries.snapshot order

/-- `Flush`; `sync` is whether the file is synced. -/
def flush (o : Outcome) (sync : Bool) (w : Wal) : Wal × Bool :=
  let writer := w.writer.flush o
  ({ w with writer := writer }, !writer.failed && sync && !writer.file.closed)

/-- Closing the file: it is closed even when that returns an error. -/
def closeFile (w : Wal) : Wal :=
  { w with writer := { w.writer with file := { w.writer.file with closed := true } } }

/-- `Close`; `close` is whether closing the file returns no error. -/
def close (o : Outcome) (sync close : Bool) (w : Wal) : Wal × Bool :=
  match w.flush o sync with
  | (w, false) => (w, false)
  | (w, true) => (w.closeFile, close)

/-- `compactionThreshold`: 10 MiB. -/
def compactionThreshold : ℕ := 10 * 1024 * 1024

/-- `NeedsCompaction`; there is no size to ask of a closed file. -/
def needsCompaction (w : Wal) : Bool :=
  !w.writer.file.closed && decide (w.writer.file.bytes.length > compactionThreshold)

/-- Which steps of `Compact` go through: all that make the temporary file, the flush of the log,
closing it, the rename, and opening the new log. -/
structure CompactOutcome where
  temp : Bool
  flush : Outcome
  close : Bool
  rename : Bool
  reopen : Bool
  deriving DecidableEq

/-- `Compact`; `order` is the order in which the map is iterated.  The log is closed before the
rename, and stays closed when a later step fails. -/
def compact (o : CompactOutcome) (order : List String) (w : Wal) : Wal × Bool :=
  let tmp := logFile (w.pendingEntries order)
  -- an entry that cannot be marshalled ends the loop that writes the temporary file
  if !o.temp || (w.pendingEntries order).any (fun e => !decide e.Marshals) then (w, false)
  else
    let w := { w with writer := w.writer.flush o.flush }
    if w.writer.failed then (w, false)
    else if w.writer.file.closed then (w, false)
    else
      let w := w.closeFile
      if !o.close || !o.rename then (w, false)
      else if !o.reopen then
        ({ w with writer := { w.writer with file := { bytes := tmp, closed := true } } }, false)
      else ({ w with writer := .new { bytes := tmp, closed := false } }, true)

end Wal
end K8s4Claw.IpcBus
