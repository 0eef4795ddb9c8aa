/-
# Messages too large for the log

`ReadMessage` takes a frame of `MaxMessageSize` bytes, and the scanner of `recover` stops
with an error at a line of that length.  The line of a message holds the message and an
envelope of 62 bytes, the id, the channel and the time around it (`length_pendingEntry`),
so the largest messages that are accepted can be written to the log but not read back, and
`NewWAL` fails from then on: `append_recovered_iff`, `large_not_recovered`.  The record is
also one level of nesting more than the message, and a message can be read with a timestamp
that cannot be written.
-/

import K8s4Claw.IpcBus.WalAgreement

namespace K8s4Claw.IpcBus.Wal

open List Option
open Lib (BufWriter Table rawLines run Meets)
open Lib.Json

/-- What the record of a message adds to it: the texts of its id, its channel and the time, and
the names and the other values. -/
def envelopeSize (ts : String) (msg : Message) : ℕ :=
  textSize msg.id + textSize msg.channel + textSize ts + 62

/-- The record of a message after some attempts, their number one digit long. -/
theorem length_pending (ts : String) (msg : Message) (attempts : Int64)
    (hdigit : (print (int attempts)).length = 1) :
    (WALEntry.text { pendingEntry ts msg with attempts := attempts }).length =
      msg.text.length + envelopeSize ts msg := by
  have hnames : textSize (WALEntry.fields.name .id) = 4 ∧
      textSize (WALEntry.fields.name .channel) = 9 ∧ textSize (WALEntry.fields.name .state) = 7 ∧
      textSize (WALEntry.fields.name .attempts) = 10 ∧ textSize (WALEntry.fields.name .ts) = 4 ∧
      textSize (WALEntry.fields.name .msg) = 5 := by decide +kernel
  have hpending : (print (string WALState.pending.text)).length = 9 := by decide +kernel
  obtain ⟨hid, hchannel, hstate, hattempts, hts, hmsg⟩ := hnames
  rw [WALEntry.text, WALEntry.members, length_print_obj (cons_ne_nil _ _)]
  simp only [pendingEntry, map_cons, sum_cons, memberSize_member, map_some,
    toList_some, map_nil, sum_nil, hid, hchannel, hstate, hattempts, hts, hmsg]
  simp only [envelopeSize, textSize, Message.text]
  omega

theorem length_pendingEntry (ts : String) (msg : Message) :
    (pendingEntry ts msg).text.length = msg.text.length + envelopeSize ts msg :=
  length_pending ts msg 1 (by decide +kernel)

section

variable {w : Wal} {ops : List Op} {log : List WALEntry} {msg : Message}

theorem run_append_restart (h : Agrees w log) (ts : String) (hmsg : msg.Marshals) :
    run step w [.append ts msg, .flush, .restart] =
      newWAL (logFile (log ++ [pendingEntry ts msg])) := by
  have hready : (w.logged (pendingEntry ts msg)).writer.Ready := BufWriter.ready_write h.ready _
  have hcontents : (w.logged (pendingEntry ts msg)).writer.contents =
      logFile (log ++ [pendingEntry ts msg]) := by
    rw [logged, BufWriter.contents_write h.ready, h.contents, logFile_append]
  have happend : step w (.append ts msg) = some (w.logged (pendingEntry ts msg)) :=
    step_of_record h.ready h.writable (if_pos hmsg)
  have hflush : step (w.logged (pendingEntry ts msg)) .flush =
      some (w.logged (pendingEntry ts msg)).flushed := by rw [step, flush_ok hready]
  have hflushed : (w.logged (pendingEntry ts msg)).flushed.writer.Ready := ⟨hready.not_closed, rfl⟩
  have hrestart : step (w.logged (pendingEntry ts msg)).flushed .restart =
      newWAL (logFile (log ++ [pendingEntry ts msg])) := by
    rw [step, bytes_close hflushed, ← hcontents, flushed, BufWriter.contents, append_nil]
  rw [run, happend, bind_some, run, hflush, bind_some, run, hrestart]
  exact bind_fun_some _

/-- A log that opens has no record that is too long, and of those in it the entries are. -/
theorem of_newWAL (h : newWAL (logFile log) = some w) (hlog : ∀ e ∈ log, e.Marshals) :
    (∀ e ∈ log, e.text.length < maxMessageSize) ∧
      ∀ k e, w.entries.lookup k = some e → e.Nestable := by
  obtain ⟨t, ht, rfl⟩ := map_eq_some_iff.mp h
  have hlength : ∀ e ∈ log, e.text.length < maxMessageSize := by
    have hlt := forall_lt_of_recover ht
    rwa [rawLines_logFile, List.forall_mem_map] at hlt
  refine ⟨hlength, fun k e hk => ?_⟩
  rw [recover_logFile_filter hlength hlog] at ht
  cases ht
  rcases Table.mem_of_lookup_replay hk with hmem | hnone
  · simpa using (mem_filter.mp hmem).2
  · exact absurd hnone (by simp)

/-- A call that writes no record leaves the entries what they were at the next start. -/
theorem marshals_of_lookup (h : Agrees w log) {ts : String} {w' : Wal}
    (hrun : run step w [.append ts msg, .flush, .restart] = some w')
    (hk : w'.entries.lookup msg.id = some (pendingEntry ts msg)) : msg.Marshals := by
  by_contra hmsg
  have hmeets : Meets step RecordFits w [.append ts msg, .flush, .restart] := by
    simp [Meets, RecordFits, record, hmsg]
  obtain ⟨_, h'⟩ := run_agrees ⟨log, h⟩ hmeets hrun
  exact hmsg (marshals_pendingEntry.mp (h'.writable _ _ hk))

/-- **A message survives a restart exactly when it can be written and read with its envelope.**
In any run whose records so far fit, a message is appended, the log flushed, closed and opened
again: opening it succeeds with the message among the pending entries if and only if the message
and its envelope together are shorter than `MaxMessageSize`, its timestamp can be written and
its payload is not nested too deep. -/
theorem append_recovered_iff (hfits : Meets step RecordFits start ops)
    (hrun : run step start ops = some w) (ts : String) (msg : Message) :
    (∃ w', run step w [.append ts msg, .flush, .restart] = some w' ∧
      w'.entries.lookup msg.id = some (pendingEntry ts msg)) ↔
    msg.text.length + envelopeSize ts msg < maxMessageSize ∧ msg.Marshals ∧ msg.Nestable := by
  obtain ⟨log, h⟩ := run_agrees ⟨[], agrees_start⟩ hfits hrun
  rw [← length_pendingEntry]
  constructor
  · rintro ⟨w', hw', hk⟩
    have hmsg := marshals_of_lookup h hw' hk
    rw [run_append_restart h ts hmsg] at hw'
    obtain ⟨hlength, hnestable⟩ := of_newWAL hw' <| forall_mem_append.mpr
      ⟨fun e he => (h.fits e he).marshals,
        forall_mem_singleton.mpr (marshals_pendingEntry.mpr hmsg)⟩
    exact ⟨hlength _ (by simp), hmsg, hnestable _ _ hk msg rfl⟩
  · rintro ⟨hlength, hmsg, hnestable⟩
    have hfit : Fits (pendingEntry ts msg) := by
      refine ⟨hlength, marshals_pendingEntry.mpr hmsg, ?_⟩
      rintro _ ⟨⟩
      exact hnestable
    have hput : WALEntry.reading.verb (pendingEntry ts msg) = .put := rfl
    have hlogged := h.logged hfit
    rw [run_append_restart h ts hmsg, ← hlogged.contents]
    refine ⟨_, hlogged.newWAL, ?_⟩
    rw [logged, Table.apply_of_put _ hput, Table.lookup_put]
    exact if_pos rfl

theorem append_recovered_iff_plain :
    ∃ w', run step start [.append "t" (.plain "m" "slack"), .flush, .restart] = some w' ∧
      w'.entries.lookup "m" = some (pendingEntry "t" (.plain "m" "slack")) :=
  (append_recovered_iff (Lib.meets_nil start) rfl "t" (.plain "m" "slack")).mpr (by decide +kernel)

end

/-! ### Payloads at the limits -/

/-- A payload of `n` letters. -/
def letters (n : ℕ) : Value := .str <| .ofPlain (List.replicate n 97) fun x hx => by
  rw [List.eq_of_mem_replicate hx]
  decide

/-- A data message with that payload. -/
def large (n : ℕ) : Message :=
  { Message.plain "m" "slack" with
    payload := some ⟨letters n, (by decide : 0 < maxNestingDepth)⟩ }

/-- The small message with a payload. -/
theorem length_plain_append (v : Value) :
    (print (.obj ((Message.plain "m" "slack").members ++
      [member (Message.fields.name .payload) v]))).length = (print v).length + 91 := by
  have hplain : ((Message.plain "m" "slack").members.map memberSize).sum = 79 := by decide +kernel
  have hpayload : textSize (Message.fields.name .payload) = 9 := by decide +kernel
  rw [length_print_obj (by simp), map_append, sum_append]
  simp only [map_cons, map_nil, sum_cons, sum_nil, memberSize_member]
  omega

theorem length_large (n : ℕ) : (large n).text.length = n + 93 := by
  have hmembers : (large n).members =
      (Message.plain "m" "slack").members ++
        [member (Message.fields.name .payload) (letters n)] := by
    simp [large, Message.members, Message.plain, Message.zero]
  have hletters : (print (letters n)).length = n + 2 := by
    simp [letters, print, quoted, Body.ofPlain]
  rw [Message.text, hmembers, length_plain_append, hletters]

/-- A message whose frame has the largest size that is accepted makes every later `NewWAL`
fail. -/
theorem large_not_recovered :
    ∃ frame msg, readMessage frame = some (msg, []) ∧
      run step start [.append "t" msg, .flush, .restart] = none := by
  obtain ⟨n, hn⟩ : ∃ n, n + 93 = maxMessageSize := ⟨16777123, by decide⟩
  have hlength : (large n).text.length = maxMessageSize := (length_large n).trans hn
  have hmsg : (large n).Marshals := (by decide : Lib.Time.zero.Marshals)
  have hframe : writeMessage (large n) =
      some (putUint32 (large n).text.length ++ (large n).text) := by
    rw [writeMessage, Message.marshal, if_pos hmsg, bind_some, if_neg (by omega)]
  refine ⟨_, large n, readMessage_writeMessage hframe [], ?_⟩
  rw [run_append_restart agrees_start "t" hmsg]
  refine eq_none_iff_forall_ne_some.mpr fun w hw => ?_
  obtain ⟨hfits, -⟩ := of_newWAL hw (by simpa using marshals_pendingEntry.mpr hmsg)
  have hlt := hfits (pendingEntry "t" (large n)) (by simp)
  rw [length_pendingEntry] at hlt
  omega

/-- Arrays in arrays, `n` in one more. -/
def nested : ℕ → Value
  | 0 => .arr []
  | n + 1 => .arr [nested n]

theorem depth_nested (n : ℕ) : depth (nested n) = n + 1 := by
  induction n with
  | zero => rfl
  | succ n ih => simp [nested, depth, depthItems, ih]

theorem length_print_nested (n : ℕ) : (print (nested n)).length = 2 * n + 2 := by
  induction n with
  | zero => rfl
  | succ n ih =>
    simp only [nested, print, printItems, length_cons, length_append, length_nil, ih]
    omega

/-- A data message with that payload. -/
def deep (n : ℕ) (h : n + 1 < maxNestingDepth) : Message :=
  { Message.plain "m" "slack" with payload := some ⟨nested n, by rwa [depth_nested]⟩ }

section

variable {n : ℕ} (h : n + 1 < maxNestingDepth)

theorem marshals_deep : (deep n h).Marshals := (by decide : Lib.Time.zero.Marshals)

theorem nesting_deep : (deep n h).nesting = n + 1 := depth_nested n

theorem length_deep : (deep n h).text.length = 2 * n + 93 := by
  have hmembers : (deep n h).members =
      (Message.plain "m" "slack").members ++
        [member (Message.fields.name .payload) (nested n)] := by
    simp [deep, Message.members, Message.plain, Message.zero]
  rw [Message.text, hmembers, length_plain_append, length_print_nested]

end

end K8s4Claw.IpcBus.Wal
