/-
# Server-sent events

`readSSELoop` of `internal/ipcbus/bridge_sse.go` asks the runtime for a stream of events, reads it
with `readSSEStream`, and asks again when that returns an error, after a wait that doubles up to
half a minute.  `readSSEStream` collects the `data:` lines of an event, joins them at the blank line
that ends it, and puts the message in them on the channel.

* `sse_delivers` : of a stream of events, whatever stands between their `data:` lines, the messages
  are delivered in order and what is no message is skipped;
* `sent_of_run` : the goroutine puts on the channel what `readSSEStream` says, however its steps and
  those of the receiver, of `Close` and of the context interleave;
* `keepsGoing_iff` : the goroutine stops only when it should, in the runs in which no server ends a
  stream cleanly, and in no others (`clean_end_stops`);
* `exists_run_bridgeStep` : it is the reader of `Bridges`, in more detail.
-/

import K8s4Claw.IpcBus.Bridges
import K8s4Claw.IpcBus.Message
import K8s4Claw.Lib.Lines

namespace K8s4Claw.IpcBus.Sse

open List
open Lib (Along Bytes Meets dropCR newline run scanLines unlines)

/-! ### Lines -/

def dataField : Bytes := [100, 97, 116, 97, 58]

def dataSpace : Bytes := dataField ++ [32]

def cutPrefix (line front : Bytes) : Bytes × Bool :=
  if front.isPrefixOf line then (line.drop front.length, true) else (line, false)

def isData (line : Bytes) : Bool := dataField.isPrefixOf line

/-- What stands behind `data:`, without one leading space. -/
def dataValue (line : Bytes) : Bytes :=
  match cutPrefix line dataSpace with
  | (value, true) => value
  | (_, false) => (cutPrefix line dataField).1

/-- What a line makes of the data lines so far, and the payload of the event that it ends. -/
def onLine (dataLines : List Bytes) (line : Bytes) : List Bytes × Option Bytes :=
  if isData line then (dataLines ++ [dataValue line], none)
  else if line = [] then
    if dataLines.length > 0 then ([], some ([newline].intercalate dataLines))
    else (dataLines, none)
  else (dataLines, none)

/-- The message that a line ends; an event with no message in it is skipped. -/
def messageAt (dataLines : List Bytes) (line : Bytes) : Option Message :=
  (onLine dataLines line).2.bind Message.unmarshal

/-- The messages of the lines, and the data lines of an event that has not ended. -/
def readLines : List Bytes → List Bytes → List Message × List Bytes
  | dataLines, [] => ([], dataLines)
  | dataLines, line :: lines =>
      let (messages, last) := readLines (onLine dataLines line).1 lines
      ((messageAt dataLines line).toList ++ messages, last)

/-- The longest line the scanner takes, its end included. -/
def maxLine : ℕ := 1024 * 1024

/-- How a request for the events ends. -/
inductive Answer
  /-- The request cannot be made, or `Do` returns an error. -/
  | failed
  /-- The server answers, and what it sends until it ends the stream or reading fails. -/
  | stream (body : Bytes) (broken : Bool)
  deriving DecidableEq

/-- `readSSEStream`, while the bridge is neither closed nor its context done: the messages that it
puts on the channel, and whether it returns nil. -/
def readSSEStream : Answer → List Message × Bool
  | .failed => ([], false)
  | .stream body broken =>
      let (lines, complete) := scanLines maxLine body
      ((readLines [] lines).1, complete && !broken)

section

variable {dataLines lines : List Bytes} {line : Bytes}

theorem onLine_quiet (h : isData line = false) (hline : line ≠ [] ∨ dataLines = []) :
    onLine dataLines line = (dataLines, none) := by
  have hdata : ¬ isData line = true := by simp [h]
  rw [onLine, if_neg hdata]
  rcases hline with hline | rfl
  · exact if_neg hline
  · split_ifs
    · exact absurd ‹_› (Nat.lt_irrefl 0)
    · rfl
    · rfl

theorem onLine_blank (h : dataLines ≠ []) :
    onLine dataLines [] = ([], some ([newline].intercalate dataLines)) := by
  have hdata : ¬ isData [] = true := by decide
  rw [onLine, if_neg hdata, if_pos rfl, if_pos (length_pos_of_ne_nil h)]

/-- A line that ends an event leaves no data lines. -/
theorem onLine_of_payload {payload : Bytes} (h : (onLine dataLines line).2 = some payload) :
    (onLine dataLines line).1 = [] := by
  unfold onLine at h ⊢
  split_ifs at h ⊢
  rfl

theorem readLines_append (a b : List Bytes) :
    readLines dataLines (a ++ b) =
      ((readLines dataLines a).1 ++ (readLines (readLines dataLines a).2 b).1,
        (readLines (readLines dataLines a).2 b).2) := by
  induction a generalizing dataLines with
  | nil => rfl
  | cons _ a ih => simp only [cons_append, readLines, ih, append_assoc]

theorem readLines_quiet (h : ∀ line ∈ lines, isData line = false) :
    readLines [] lines = ([], []) := by
  induction lines with
  | nil => rfl
  | cons _ _ ih =>
    obtain ⟨hline, hlines⟩ := forall_mem_cons.mp h
    have hon := onLine_quiet hline (.inr rfl)
    simp only [readLines, messageAt, hon, ih hlines, Option.bind_none, Option.toList_none,
      nil_append]

theorem readLines_solid (h : ∀ line ∈ lines, line ≠ []) :
    readLines dataLines lines = ([], dataLines ++ (lines.filter isData).map dataValue) := by
  induction lines generalizing dataLines with
  | nil => simp [readLines]
  | cons line lines ih =>
    obtain ⟨hline, hlines⟩ := forall_mem_cons.mp h
    cases hdata : isData line with
    | true =>
      have hon : onLine dataLines line = (dataLines ++ [dataValue line], none) :=
        (if_pos hdata)
      simp only [readLines, messageAt, hon, ih hlines, Option.bind_none, Option.toList_none,
        nil_append, filter_cons_of_pos hdata, map_cons, append_assoc,
        singleton_append]
    | false =>
      have hon : onLine dataLines line = (dataLines, none) :=
        onLine_quiet hdata (.inl hline)
      have hfilter : (line :: lines).filter isData = lines.filter isData :=
        filter_cons_of_neg (by simp [hdata])
      simp only [readLines, messageAt, hon, ih hlines, Option.bind_none, Option.toList_none,
        nil_append, hfilter]

end

/-! ### Streams of events -/

/-- An event with a payload: the lines before it, and its lines up to the blank one that ends it.
Among these may be comments and other fields. -/
structure Event where
  payload : Bytes
  gap : List Bytes
  lines : List Bytes
  quiet : ∀ line ∈ gap, isData line = false
  solid : ∀ line ∈ lines, line ≠ []
  data : lines.filter isData = (payload.splitOn newline).map (dataSpace ++ ·)

/-- All lines of an event. -/
def Event.all (e : Event) : List Bytes := e.gap ++ e.lines ++ [[]]

/-- A stream of events, and more lines with no data: each line is sent with a newline, or with a
carriage return and a newline. -/
structure EventStream where
  events : List Event
  rest : List Bytes
  quiet : ∀ line ∈ rest, isData line = false
  sent : List Bytes
  lines : sent.map dropCR = events.flatMap Event.all ++ rest
  single : ∀ line ∈ sent, newline ∉ line
  short : ∀ line ∈ sent, line.length < maxLine

/-- What is sent. -/
def EventStream.text (s : EventStream) : Bytes := unlines s.sent

/-- The messages of the events that have one. -/
def EventStream.messages (s : EventStream) : List Message :=
  s.events.filterMap fun e => Message.unmarshal e.payload

theorem readLines_all (e : Event) :
    readLines [] e.all = ((Message.unmarshal e.payload).toList, []) := by
  have hvalues : (e.lines.filter isData).map dataValue = e.payload.splitOn newline := by
    rw [e.data, map_map]
    exact (map_congr_left fun part _ => (by simp [dataValue, cutPrefix])).trans (map_id _)
  have hne : e.payload.splitOn newline ≠ [] := splitOnP_ne_nil _ _
  have hblank := onLine_blank hne
  rw [intercalate_splitOn] at hblank
  rw [Event.all, readLines_append, readLines_append, readLines_quiet e.quiet]
  simp only [readLines_solid e.solid, hvalues, nil_append, readLines, messageAt, hblank,
    Option.bind_some, append_nil]

theorem readLines_events (events : List Event) :
    readLines [] (events.flatMap Event.all) =
      (events.filterMap fun e => Message.unmarshal e.payload, []) := by
  induction events with
  | nil => rfl
  | cons e _ ih =>
    rw [flatMap_cons, readLines_append, readLines_all, ih]
    cases hmsg : Message.unmarshal e.payload with
    | none => simp only [filterMap_cons, hmsg, Option.toList_none, nil_append]
    | some => simp only [filterMap_cons, hmsg, Option.toList_some, singleton_append]

/-- **The messages of a stream of events are delivered, all of them and in order**, and an event
whose payload is no message is skipped. -/
theorem sse_delivers (s : EventStream) (broken : Bool) :
    readSSEStream (.stream s.text broken) = (s.messages, !broken) := by
  have hscan : scanLines maxLine s.text = (s.events.flatMap Event.all ++ s.rest, true) := by
    rw [EventStream.text, Lib.scanLines_unlines s.single s.short, s.lines]
  simp only [readSSEStream, hscan, readLines_append, readLines_events, readLines_quiet s.quiet,
    append_nil, Bool.true_and, EventStream.messages]

/-- Two data lines with a comment between them, sent with carriage returns. -/
def commented : EventStream where
  events := [{
    payload := [123, 10, 125]
    gap := [[], [58]]
    lines := [dataSpace ++ [123], [58, 33], dataSpace ++ [125]]
    quiet := by decide
    solid := by decide
    data := by decide }]
  rest := []
  quiet := by decide
  sent := [[13], [58, 13], dataSpace ++ [123, 13], [58, 33, 13], dataSpace ++ [125, 13], [13]]
  lines := by decide
  single := by decide
  short := by decide

theorem sse_delivers_commented :
    readSSEStream (.stream commented.text false) = ([Message.zero], true) := by
  have hmessages : commented.messages = [Message.zero] := by decide +kernel
  rw [sse_delivers, hmessages]
  rfl

/-! ### The loop -/

/-- Where the goroutine of `Receive` is. -/
inductive Place
  /-- At the head of the loop. -/
  | head
  /-- In `Do`. -/
  | asking
  /-- Scanning, with the data lines of an event that has not ended. -/
  | reading (dataLines : List Bytes)
  /-- With a message for the channel. -/
  | sending (msg : Message)
  /-- Until it asks again. -/
  | waiting
  /-- The channel is closed. -/
  | stopped
  deriving DecidableEq

/-- Between the request for a stream and its end. -/
def Place.inStream : Place → Bool
  | .asking | .reading _ | .sending _ => true
  | _ => false

/-- `readSSELoop`, with what it has put on the channel; the wait is in seconds. -/
structure Loop where
  place : Place := .head
  closed : Bool
  cancelled : Bool
  backoff : ℕ := 1
  sent : List Message := []
  deriving DecidableEq

/-- What happens in it and around it. -/
inductive LoopEvent
  /-- The `select` at the head of the loop. -/
  | next
  /-- `Do` returns a response, or an error. -/
  | answer (ok : Bool)
  | line (line : Bytes)
  /-- The scanner stops, and whether its `Err` is nil. -/
  | finish (clean : Bool)
  /-- The channel takes the message. -/
  | taken
  /-- A `select` goes on because the bridge is closed or the context is done. -/
  | quit
  | elapsed
  | close
  | cancel
  deriving DecidableEq

/-- The events within a stream. -/
def LoopEvent.inStream : LoopEvent → Bool
  | .line _ | .taken | .close | .cancel => true
  | _ => false

/-- The lines that the scanner gives. -/
def linesOf (events : List LoopEvent) : List Bytes :=
  events.filterMap fun
    | .line line => some line
    | _ => none

namespace Loop

/-- The bridge is closed or the context is done. -/
def isDone (s : Loop) : Bool := s.closed || s.cancelled

/-- A step of the goroutine, of `Close`, or of the context.  `Close` also cancels the context, in a
step of its own. -/
def step (s : Loop) (event : LoopEvent) : Option Loop :=
  match s.place, event with
  | .head, .next => some { s with place := if s.isDone then .stopped else .asking }
  | .asking, .answer ok => some { s with place := if ok then .reading [] else .waiting }
  | .reading dataLines, .line line =>
      match messageAt dataLines line with
      | some msg => some { s with place := .sending msg }
      | none => some { s with place := .reading (onLine dataLines line).1 }
  | .reading _, .finish clean => some { s with place := if clean then .stopped else .waiting }
  | .sending msg, .taken => some { s with place := .reading [], sent := s.sent ++ [msg] }
  | .sending _, .quit | .waiting, .quit =>
      if s.isDone then some { s with place := .stopped } else none
  | .waiting, .elapsed => some { s with place := .head, backoff := min (s.backoff * 2) 30 }
  | _, .close => some { s with closed := true }
  | _, .cancel => some { s with cancelled := true }
  | _, _ => none

/-- A bridge whose `Receive` is called, possibly closed or with a context that is done. -/
def start (closed cancelled : Bool) : Loop := { closed, cancelled }

/-- What a step can do. -/
inductive Move (s : Loop) : LoopEvent → Loop → Prop
  | next (hplace : s.place = .head) :
      Move s .next { s with place := if s.isDone then .stopped else .asking }
  | answer (ok : Bool) (hplace : s.place = .asking) :
      Move s (.answer ok) { s with place := if ok then .reading [] else .waiting }
  | message (dataLines : List Bytes) (line : Bytes) (msg : Message)
      (hplace : s.place = .reading dataLines) (hmsg : messageAt dataLines line = some msg) :
      Move s (.line line) { s with place := .sending msg }
  | skip (dataLines : List Bytes) (line : Bytes) (hplace : s.place = .reading dataLines)
      (hmsg : messageAt dataLines line = none) :
      Move s (.line line) { s with place := .reading (onLine dataLines line).1 }
  | finish (dataLines : List Bytes) (clean : Bool) (hplace : s.place = .reading dataLines) :
      Move s (.finish clean) { s with place := if clean then .stopped else .waiting }
  | taken (msg : Message) (hplace : s.place = .sending msg) :
      Move s .taken { s with place := .reading [], sent := s.sent ++ [msg] }
  | quit (hplace : (∃ msg, s.place = .sending msg) ∨ s.place = .waiting) (hdone : s.isDone = true) :
      Move s .quit { s with place := .stopped }
  | elapsed (hplace : s.place = .waiting) :
      Move s .elapsed { s with place := .head, backoff := min (s.backoff * 2) 30 }
  | close : Move s .close { s with closed := true }
  | cancel : Move s .cancel { s with cancelled := true }

variable {s t : Loop} {event : LoopEvent} {events : List LoopEvent} {b : Host}

theorem move_of_step (h : s.step event = some t) : Move s event t := by
  unfold step at h
  split at h
  · cases h
    exact .next ‹_›
  · cases h
    exact .answer _ ‹_›
  · split at h
    · cases h
      exact .message _ _ _ ‹_› ‹_›
    · cases h
      exact .skip _ _ ‹_› ‹_›
  · cases h
    exact .finish _ _ ‹_›
  · cases h
    exact .taken _ ‹_›
  · split_ifs at h with hdone
    cases h
    exact .quit (.inl ⟨_, ‹_›⟩) hdone
  · split_ifs at h with hdone
    cases h
    exact .quit (.inr ‹_›) hdone
  · cases h
    exact .elapsed ‹_›
  · cases h
    exact .close
  · cases h
    exact .cancel
  · cases h

/-! ### What is put on the channel -/

/-- What is on its way to the channel, and the data lines so far. -/
def pending (s : Loop) : List Message × List Bytes :=
  match s.place with
  | .reading dataLines => ([], dataLines)
  | .sending msg => ([msg], [])
  | .head | .asking | .waiting | .stopped => ([], [])

/-- What is on the channel when these lines have been read. -/
def outcome (s : Loop) (lines : List Bytes) : List Message :=
  s.sent ++ s.pending.1 ++ (readLines s.pending.2 lines).1

theorem outcome_run (hin : ∀ event ∈ events, event.inStream = true)
    (h : run step s events = some t) : s.outcome (linesOf events) = t.outcome [] := by
  induction events generalizing s with
  | nil =>
    cases h
    rfl
  | cons _ _ ih =>
    obtain ⟨hevent, hevents⟩ := forall_mem_cons.mp hin
    obtain ⟨u, hu, hrun⟩ := Lib.run_cons.mp h
    rw [← ih hevents hrun]
    cases move_of_step hu with
    | message _ _ _ hplace hmsg =>
      obtain ⟨payload, hpayload, -⟩ := Option.bind_eq_some_iff.mp hmsg
      have hdata := onLine_of_payload hpayload
      simp [outcome, pending, hplace, linesOf, readLines, hmsg, hdata]
    | skip _ _ hplace hmsg =>
      simp [outcome, pending, hplace, linesOf, readLines, hmsg]
    | taken _ hplace => simp [outcome, pending, hplace, linesOf]
    | close | cancel => rfl
    | _ => cases hevent

/-- **However the steps interleave, the goroutine puts on the channel what `readSSEStream` does**,
when the scanner has given all lines of a stream. -/
theorem sent_of_run {body : Bytes} {broken : Bool} {dataLines : List Bytes}
    (hs : s.place = .reading []) (hin : ∀ event ∈ events, event.inStream = true)
    (hlines : linesOf events = (scanLines maxLine body).1) (h : run step s events = some t)
    (ht : t.place = .reading dataLines) :
    t.sent = s.sent ++ (readSSEStream (.stream body broken)).1 := by
  have hrun := outcome_run hin h
  simpa [outcome, pending, hs, ht, readLines, hlines, readSSEStream] using hrun.symm

def opened : Loop := { place := .reading [], closed := false, cancelled := false }

/-- A message is read, and the context cancelled before it is taken. -/
def zeroRead : List LoopEvent := [.line (dataSpace ++ [123, 125]), .line [], .cancel, .taken]

theorem sent_of_run_zero :
    [.zero] =
      opened.sent ++ (readSSEStream (.stream (dataSpace ++ [123, 125, 10, 10]) true)).1 := by
  have hrun :
      run step opened zeroRead = some { opened with cancelled := true, sent := [.zero] } := by
    decide
  exact sent_of_run (s := opened) rfl (by decide) (by decide) hrun rfl

/-! ### When it stops -/

/-- All it takes is time until the goroutine asks for a stream. -/
def Reopens (s : Loop) : Prop :=
  ∃ events t, (∀ event ∈ events, event = .elapsed ∨ event = .next) ∧
    run step s events = some t ∧ t.place = .asking

/-- The goroutine stops only if the bridge is closed or the context is done, and until then it is
in a stream or asks for another one. -/
structure KeepsGoing (s : Loop) : Prop where
  stops : s.place = .stopped → s.isDone = true
  reopens : s.isDone = false → s.place.inStream = true ∨ s.Reopens

theorem keepsGoing_of_stops (h : s.place = .stopped → s.isDone = true) : KeepsGoing s := by
  refine ⟨h, fun hdone => ?_⟩
  cases hplace : s.place with
  | asking | reading | sending => exact .inl rfl
  | head =>
    refine .inr ⟨[.next], { s with place := .asking }, by simp, ?_, rfl⟩
    simp [run, step, hplace, hdone]
  | waiting =>
    let asks : Loop := { s with place := .asking, backoff := min (s.backoff * 2) 30 }
    have hdone' : ({ asks with place := .head } : Loop).isDone = false := hdone
    refine .inr ⟨[.elapsed, .next], asks, by simp, ?_, rfl⟩
    simp [run, step, hplace, hdone', asks]
  | stopped => exact absurd (h hplace) (by simp [hdone])

/-- No server ends a stream cleanly before the bridge is closed or the context is done. -/
def NotEnded (s : Loop) (event : LoopEvent) : Prop := event = .finish true → s.isDone = true
  deriving Decidable

theorem keepsGoing_step_iff (h : s.step event = some t) : KeepsGoing t ↔ NotEnded s event := by
  -- only the clean end of a stream can be wrong
  have hother (hne : event ≠ .finish true) (hstops : t.place = .stopped → t.isDone = true) :
      KeepsGoing t ↔ NotEnded s event :=
    ⟨fun _ heq => absurd heq hne, fun _ => keepsGoing_of_stops hstops⟩
  cases move_of_step h with
  | finish _ clean =>
    cases clean with
    | true => exact ⟨fun ht _ => ht.stops rfl, fun hok => keepsGoing_of_stops fun _ => hok rfl⟩
    | false => exact hother (by simp) (by simp)
  | next =>
    refine hother (by simp) fun hstopped => ?_
    by_contra hdone
    have hasks : (if s.isDone then Place.stopped else Place.asking) = .asking := if_neg hdone
    exact absurd (hasks.symm.trans hstopped) (by simp)
  | answer ok =>
    refine hother (by simp) ?_
    cases ok <;> simp
  | message | skip | taken | elapsed => exact hother (by simp) (by simp)
  | quit _ hdone => exact hother (by simp) fun _ => hdone
  | close => exact hother (by simp) fun _ => rfl
  | cancel => exact hother (by simp) fun _ => Bool.or_true s.closed

/-- **The goroutine of `Receive` keeps going, exactly in the runs in which no server ends a stream
cleanly** before the bridge is closed or the context is done. -/
theorem keepsGoing_iff {closed cancelled : Bool} {t : Loop} {events : List LoopEvent}
    (h : run step (start closed cancelled) events = some t) :
    Along step KeepsGoing (start closed cancelled) events ↔
      Meets step NotEnded (start closed cancelled) events :=
  Lib.along_iff_meets (I := fun _ => True) (fun _ _ _ _ _ => trivial)
    (fun _ _ _ _ _ hu => keepsGoing_step_iff hu) trivial (keepsGoing_of_stops (by simp [start])) h

/-- A broken stream, a wait and a second stream. -/
theorem keepsGoing_iff_twice :
    Along step KeepsGoing (start false false)
      [.next, .answer true, .finish false, .elapsed, .next, .answer true] := by
  have hrun : run step (start false false)
      [.next, .answer true, .finish false, .elapsed, .next, .answer true] =
        some { place := .reading [], closed := false, cancelled := false, backoff := 2 } := by
    decide
  exact (keepsGoing_iff hrun).mpr (by decide)

/-- **A stream that the server ends cleanly is the last one**, although nobody closed the
bridge. -/
theorem clean_end_stops :
    ∃ t, run step (start false false) [.next, .answer true, .finish true] = some t ∧
      t.place = .stopped ∧ t.isDone = false ∧ ¬ KeepsGoing t := by
  refine ⟨{ place := .stopped, closed := false, cancelled := false }, by decide, rfl, rfl, ?_⟩
  intro h
  exact absurd (h.stops rfl) (by decide)

/-! ### The reader of a bridge -/

/-- The place, for `Bridges`. -/
def reader (s : Loop) : Reader :=
  match s.place with
  | .head => .loop
  | .asking | .reading _ => .streaming
  | .sending _ => .deliver
  | .waiting => .backoff
  | .stopped => .exited

/-- What the reader of `Bridges` comes upon, if it notices the event. -/
def noticed (s : Loop) : LoopEvent → Option BridgeEvent
  | .next => some (.read .next)
  | .answer ok => if ok then none else some (.read .error)
  | .line line => if (messageAt s.pending.2 line).isSome then some (.read .message) else none
  | .finish clean => some (.read (if clean then .eof else .error))
  | .taken => some (.read .taken)
  | .quit => some (.read .done)
  | .elapsed => some (.read .elapsed)
  | .close => some .close
  | .cancel => some .cancel

/-- The bridge of which this is the reader. -/
structure Reads (s : Loop) (b : Host) : Prop where
  transport : b.transport = .sse
  running : b.panicked = false
  reader : b.reader = s.reader
  closed : b.closed = s.closed
  cancelled : b.cancelled = s.cancelled

section

variable (hb : s.Reads b)

include hb

theorem Reads.isDone : b.isDone = s.isDone := by
  rw [Host.isDone, Loop.isDone, hb.closed, hb.cancelled]

theorem Reads.move (hclosed : t.closed = s.closed) (hcancelled : t.cancelled = s.cancelled) :
    t.Reads { b with reader := t.reader } :=
  ⟨hb.transport, hb.running, rfl, hb.closed.trans hclosed.symm, hb.cancelled.trans hcancelled.symm⟩

theorem Reads.unnoticed (hnone : s.noticed event = none) (h : s.step event = some t) :
    t.Reads b := by
  -- the goroutine stays in the stream, which is one place of the reader
  have hstay (hclosed : t.closed = s.closed) (hcancelled : t.cancelled = s.cancelled)
      (hreader : t.reader = s.reader) : t.Reads b :=
    ⟨hb.transport, hb.running, hb.reader.trans hreader.symm, hb.closed.trans hclosed.symm,
      hb.cancelled.trans hcancelled.symm⟩
  cases move_of_step h with
  | answer ok hplace =>
    cases ok with
    | true => exact hstay rfl rfl (by simp [Loop.reader, hplace])
    | false => cases hnone
  | message _ _ _ hplace hmsg => simp [Loop.noticed, pending, hplace, hmsg] at hnone
  | skip _ _ hplace => exact hstay rfl rfl (by simp [Loop.reader, hplace])
  | _ => cases hnone

theorem Reads.noticed {e : BridgeEvent} (hsome : s.noticed event = some e)
    (h : s.step event = some t) : ∃ b', bridgeStep b e = some b' ∧ t.Reads b' := by
  have hread (got : Got) (he : s.noticed event = some (.read got)) (hclosed : t.closed = s.closed)
      (hcancelled : t.cancelled = s.cancelled)
      (hread : b.read s.reader got = some { b with reader := t.reader }) :
      ∃ b', bridgeStep b e = some b' ∧ t.Reads b' := by
    obtain rfl := Option.some.inj (hsome.symm.trans he)
    refine ⟨_, ?_, hb.move hclosed hcancelled⟩
    simpa [bridgeStep, hb.running, hb.reader] using hread
  cases move_of_step h with
  | next hplace =>
    refine hread .next rfl rfl rfl ?_
    cases hdone : s.isDone <;>
      simp [Host.read, Loop.reader, hplace, hb.transport, hb.isDone, hdone]
  | answer ok hplace =>
    cases ok with
    | true => cases hsome
    | false => exact hread .error rfl rfl rfl (by simp [Host.read, Loop.reader, hplace])
  | message _ _ _ hplace hmsg =>
    refine hread .message (by simp [Loop.noticed, pending, hplace, hmsg]) rfl rfl ?_
    simp [Host.read, Loop.reader, hplace]
  | skip _ _ hplace hmsg => simp [Loop.noticed, pending, hplace, hmsg] at hsome
  | finish _ clean hplace =>
    cases clean with
    | true => exact hread .eof rfl rfl rfl (by simp [Host.read, Loop.reader, hplace])
    | false => exact hread .error rfl rfl rfl (by simp [Host.read, Loop.reader, hplace])
  | taken _ hplace =>
    exact hread .taken rfl rfl rfl (by simp [Host.read, Loop.reader, hplace, hb.transport])
  | quit hplace hdone =>
    refine hread .done rfl rfl rfl ?_
    rcases hplace with ⟨msg, hplace⟩ | hplace
    · simp [Host.read, Loop.reader, hplace, hb.isDone, hdone]
    · simp [Host.read, Loop.reader, hplace, hb.isDone, hdone]
  | elapsed hplace => exact hread .elapsed rfl rfl rfl (by simp [Host.read, Loop.reader, hplace])
  | close =>
    cases hsome
    refine ⟨{ b with closed := true }, by simp [bridgeStep, hb.running], ?_⟩
    exact ⟨hb.transport, hb.running, hb.reader, rfl, hb.cancelled⟩
  | cancel =>
    cases hsome
    refine ⟨{ b with cancelled := true }, by simp [bridgeStep, hb.running], ?_⟩
    exact ⟨hb.transport, hb.running, hb.reader, hb.closed, rfl⟩

/-- **Every run of the goroutine is one of the reader of the bridge**, without the steps that the
reader does not notice. -/
theorem exists_run_bridgeStep (h : run step s events = some t) :
    ∃ b', run bridgeStep b (Lib.outputs step Loop.noticed s events) = some b' ∧ t.Reads b' :=
  Lib.run_outputs (fun _ _ _ _ hb _ hnone hu => hb.unnoticed hnone hu)
    (fun _ _ _ _ _ hb _ hsome hu => hb.noticed hsome hu) hb Lib.meets_true h

end

theorem exists_run_bridgeStep_broken :
    ∃ t b', run step (start false false) [.next, .answer true, .finish false] = some t ∧
      run bridgeStep { transport := .sse, reader := .loop } [.read .next, .read .error] = some b' ∧
      t.Reads b' := by
  obtain ⟨b', hb', hreads⟩ := exists_run_bridgeStep (s := start false false)
    (b := { transport := .sse, reader := .loop }) ⟨rfl, rfl, rfl, rfl, rfl⟩
    (show run step _ [.next, .answer true, .finish false] = some _ from rfl)
  exact ⟨_, b', rfl, hb', hreads⟩

end Loop

end K8s4Claw.IpcBus.Sse
