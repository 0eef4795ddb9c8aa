/-
# A log cut short

After a crash the file is any prefix of a log.  `NewWAL` reads such a file without error
and finds exactly the records whose text is all there (`recover_cut`); a record cut
in the middle is not JSON and is skipped.  But the file is then opened for appending as it
is, so the next record continues the unfinished line, the two are not JSON together, and
both are lost at the recovery after that (`recover_appended_iff`).
-/

import K8s4Claw.IpcBus.WalAgreement

namespace K8s4Claw.IpcBus.Wal

open List Option
open Lib (Bytes BufWriter IsLine Table newline rawLines)
open Lib.Json

/-- The records of the log whose text is all in its first `n` bytes. -/
def completeRecords : List WALEntry → ℕ → List WALEntry
  | [], _ => []
  | e :: log, n =>
      if e.text.length ≤ n then e :: completeRecords log (n - (e.text.length + 1)) else []

/-- Records appended one after another. -/
def appendRecords (w : Wal) (news : List WALEntry) : Wal :=
  news.foldl (fun w e => (w.appendEntry .ok .ok e).1) w

section

variable {w : Wal} {log done todo news : List WALEntry} {e e' : WALEntry} {part file : Bytes}

/-! ### Records that are cut -/

theorem text_eq_cons (e : WALEntry) : ∃ b, e.text = 123 :: 34 :: 105 :: b := ⟨_, rfl⟩

theorem text_ne_nil (e : WALEntry) : e.text ≠ [] := by
  obtain ⟨b, hb⟩ := text_eq_cons e
  simp [hb]

section

variable (hpart : part <+: e.text)

include hpart

theorem unmarshal_part (hne : part ≠ e.text) : WALEntry.unmarshal part = none := by
  rw [WALEntry.unmarshal, parse_of_prefix hpart hne, bind_none]

/-- A record behind a part of another one is lost with it, also when that one is all there. -/
theorem unmarshal_part_append (hne : part ≠ []) :
    WALEntry.unmarshal (part ++ e'.text) = none := by
  obtain ⟨b, hb⟩ := text_eq_cons e'
  rw [WALEntry.unmarshal, WALEntry.text, parse_of_prefix_append hpart hne hb rfl, bind_none]

theorem isLine_part : IsLine part :=
  ⟨fun h => e.isLine_text.1 (hpart.subset h), fun h => e.isLine_text.2 (hpart.subset h)⟩

end

theorem exists_of_cut (h : file <+: logFile log) :
    file = logFile log ∨ ∃ done e todo part, log = done ++ e :: todo ∧ part <+: e.text ∧
      file = logFile done ++ part := by
  rcases Lib.exists_of_prefix_unlines h with rfl | ⟨lines, line, rest, part, hlog, hpart, rfl⟩
  · exact .inl rfl
  · obtain ⟨done, rest', rfl, rfl, hrest⟩ := map_eq_append_iff.mp hlog
    obtain ⟨e, todo, rfl, rfl, -⟩ := map_eq_cons_iff.mp hrest
    exact .inr ⟨done, e, todo, part, rfl, hpart, rfl⟩

/-! ### Which records are complete -/

theorem completeRecords_append (done rest : List WALEntry) (n : ℕ) :
    completeRecords (done ++ rest) ((logFile done).length + n) =
      done ++ completeRecords rest n := by
  induction done with
  | nil => simp [logFile]
  | cons e done ih =>
    have hlen : (logFile (e :: done)).length = e.text.length + 1 + (logFile done).length := by
      simp [logFile]
      omega
    rw [cons_append, completeRecords, if_pos (by omega), hlen,
      show e.text.length + 1 + (logFile done).length + n - (e.text.length + 1) =
        (logFile done).length + n by omega, ih, cons_append]

theorem completeRecords_zero (log : List WALEntry) : completeRecords log 0 = [] := by
  cases log with
  | nil => rfl
  | cons e =>
    have := length_pos_iff.mpr (text_ne_nil e)
    rw [completeRecords, if_neg (by omega)]

theorem completeRecords_logFile (log : List WALEntry) :
    completeRecords log (logFile log).length = log := by
  simpa [completeRecords] using completeRecords_append log [] 0

theorem completeRecords_part (hpart : part <+: e.text) :
    completeRecords (done ++ e :: todo) (logFile done ++ part).length =
      if part = e.text then done ++ [e] else done := by
  rw [length_append, completeRecords_append, completeRecords]
  split_ifs with hle heq heq
  · rw [heq, Nat.sub_eq_zero_of_le (by omega), completeRecords_zero]
  · exact absurd (hpart.eq_of_length (le_antisymm hpart.length_le hle)) heq
  · exact absurd (by rw [heq]) hle
  · rw [append_nil]

/-! ### Recovery of a file with a cut record -/

theorem rawLines_logFile_append (log : List WALEntry) (rest : Bytes) :
    rawLines (logFile log ++ rest) = log.map WALEntry.text ++ rawLines rest :=
  Lib.rawLines_unlines_append (forall_mem_map.mpr fun e _ => e.isLine_text.1) rest

theorem forall_isLine_append {line : Bytes} (h : IsLine line) :
    ∀ l ∈ log.map WALEntry.text ++ [line], IsLine l :=
  forall_mem_append.mpr ⟨forall_mem_map.mpr fun e _ => e.isLine_text,
    forall_mem_singleton.mpr h⟩

theorem foldl_recoverLine_append (hlog : ∀ e ∈ log, Fits e) (t : Entries) (line : Bytes) :
    (log.map WALEntry.text ++ [line]).foldl recoverLine t =
      recoverLine (t.replay log) line := by
  rw [foldl_append, foldl_recoverLine _ fun e he => (hlog e he).marshals, filter_nestable hlog,
    foldl_cons, foldl_nil]

/-- **`NewWAL` reads any prefix of a log** and finds the records whose text is all there. -/
theorem recover_cut (hlog : ∀ e ∈ log, Fits e) (h : file <+: logFile log) :
    recover file = some (Table.empty.replay (completeRecords log file.length)) := by
  rcases exists_of_cut h with rfl | ⟨done, e, todo, part, rfl, hpart, rfl⟩
  · rw [completeRecords_logFile, recover_logFile hlog]
  · rw [completeRecords_part hpart]
    have hdone : ∀ e ∈ done, Fits e := fun e he => hlog e (mem_append_left _ he)
    by_cases hnil : part = []
    · subst hnil
      rw [if_neg (Ne.symm (text_ne_nil e)), append_nil, recover_logFile hdone]
    · have he : Fits e := hlog e (by simp)
      have hfits : part.length < maxMessageSize := hpart.length_le.trans_lt he.length
      have hraw : rawLines (logFile done ++ part) = done.map WALEntry.text ++ [part] := by
        rw [rawLines_logFile_append, Lib.rawLines_of_not_mem (isLine_part hpart).1 hnil]
      rw [recover_of_rawLines hraw (forall_isLine_append (isLine_part hpart))
        (forall_mem_append.mpr ⟨forall_mem_map.mpr fun e he => (hdone e he).length,
          forall_mem_singleton.mpr hfits⟩), foldl_recoverLine_append hdone]
      split_ifs with heq
      · rw [heq, recoverLine_text _ he.marshals, if_pos he.nestable, Table.replay_append,
          Table.replay_cons, Table.replay_nil]
      · rw [recoverLine_of_none (unmarshal_part hpart heq)]

/-- A record appended behind a cut record is lost, and the cut record with it. -/
theorem recover_cut_append (hdone : ∀ e ∈ done, Fits e) (hpart : part <+: e.text)
    (hne : part ≠ []) {t : Entries}
    (h : recover (logFile done ++ part ++ logFile [e']) = some t) :
    t = Table.empty.replay done := by
  have hline : IsLine (part ++ e'.text) := by
    have hp := isLine_part hpart
    have he := e'.isLine_text
    exact ⟨not_mem_append hp.1 he.1, not_mem_append hp.2 he.2⟩
  have hraw : rawLines (logFile done ++ part ++ logFile [e']) =
      done.map WALEntry.text ++ [part ++ e'.text] := by
    have hlog : logFile [e'] = e'.text ++ newline :: [] := by simp [logFile]
    rw [append_assoc, hlog, rawLines_logFile_append, ← append_assoc,
      Lib.rawLines_append_newline hline.1, rawLines]
  have hfit := forall_lt_of_recover h
  rw [hraw] at hfit
  rw [recover_of_rawLines hraw (forall_isLine_append hline) hfit, foldl_recoverLine_append hdone,
    recoverLine_of_none (unmarshal_part_append hpart hne)] at h
  exact (some.inj h).symm

/-! ### Appending after the restart -/

theorem appendRecords_ok (h : w.writer.Ready) (hnews : ∀ e ∈ news, e.Marshals) :
    (w.appendRecords news).writer.Ready ∧
      (w.appendRecords news).writer.contents = w.writer.contents ++ logFile news := by
  induction news generalizing w with
  | nil => exact ⟨h, (append_nil _).symm⟩
  | cons e news ih =>
    have hstep : w.appendRecords (e :: news) = (w.appendEntry .ok .ok e).1.appendRecords news := rfl
    obtain ⟨he, hnews⟩ := forall_mem_cons.mp hnews
    have hready : (w.appendEntry .ok .ok e).1.writer.Ready := by
      rw [appendEntry_ok h he]
      exact BufWriter.ready_write h _
    have hcontents : (w.appendEntry .ok .ok e).1.writer.contents =
        w.writer.contents ++ (e.text ++ [newline]) := by
      rw [appendEntry_ok h he, BufWriter.contents_write h]
    obtain ⟨hr, hc⟩ := ih hready hnews
    rw [hstep]
    refine ⟨hr, ?_⟩
    rw [hc, hcontents]
    simp [logFile]

theorem bytes_appendRecords (hw : newWAL file = some w) (hnews : ∀ e ∈ news, Fits e) :
    ((w.appendRecords news).flush .ok true).1.writer.file.bytes = file ++ logFile news := by
  obtain ⟨t, -, rfl⟩ := map_eq_some_iff.mp hw
  obtain ⟨hready, hcontents⟩ := appendRecords_ok
    (w := { writer := .new { bytes := file, closed := false }, entries := t })
    (BufWriter.ready_new file) fun e he => (hnews e he).marshals
  rw [flush_ok hready, flushed, hcontents, BufWriter.contents_new]

/-- Empty, or the last byte ends a line. -/
def EndsLine (file : Bytes) : Prop := file = [] ∨ file.getLast? = some newline
  deriving Decidable

theorem endsLine_logFile (log : List WALEntry) : EndsLine (logFile log) := by
  rcases eq_nil_or_concat log with rfl | ⟨-, e, rfl⟩
  · exact .inl rfl
  · refine .inr ?_
    rw [concat_eq_append, logFile_append, ← append_assoc, getLast?_concat]

theorem not_endsLine_part (hpart : part <+: e.text) (hne : part ≠ []) :
    ¬ EndsLine (logFile done ++ part) := by
  rintro (hnil | hlast)
  · exact hne (append_eq_nil_iff.mp hnil).2
  · rw [getLast?_append_of_ne_nil _ hne] at hlast
    exact (isLine_part hpart).1 (mem_of_getLast? hlast)

theorem eq_logFile_of_endsLine (hfile : file <+: logFile log) (hend : EndsLine file) :
    file = logFile (completeRecords log file.length) := by
  rcases exists_of_cut hfile with rfl | ⟨done, e, -, part, rfl, hpart, rfl⟩
  · rw [completeRecords_logFile]
  · by_cases hnil : part = []
    · subst hnil
      rw [completeRecords_part hpart, if_neg (Ne.symm (text_ne_nil e)), append_nil]
    · exact absurd hend (not_endsLine_part hpart hnil)

theorem isPrefix_completeRecords (log : List WALEntry) (n : ℕ) : completeRecords log n <+: log := by
  induction log generalizing n with
  | nil => exact prefix_rfl
  | cons e _ ih =>
    rw [completeRecords]
    split_ifs
    · exact cons_prefix_cons.mpr ⟨rfl, ih _⟩
    · exact nil_prefix

/-- A small record; they all have one id. -/
def small (ts : String) : WALEntry := pendingEntry ts (.plain "m" "slack")

/-- Of two records of one id, a file cut within a record loses one when it is appended: the
file recovers to the same entries with either. -/
theorem endsLine_of_recover (hlog : ∀ e ∈ log, Fits e) (hfile : file <+: logFile log)
    (h : ∀ news, (∀ e ∈ news, Fits e) → recover (file ++ logFile news) =
      some (Table.empty.replay (completeRecords log file.length ++ news))) :
    EndsLine file := by
  rcases exists_of_cut hfile with rfl | ⟨done, e, todo, part, rfl, hpart, rfl⟩
  · exact endsLine_logFile log
  · by_cases hnil : part = []
    · subst hnil
      rw [append_nil]
      exact endsLine_logFile done
    · exfalso
      have hlookup (ts : String) (hts : Fits (small ts)) :
          (Table.empty.replay done : Entries).lookup "m" = some (small ts) := by
        have hput : WALEntry.reading.verb (small ts) = .put := rfl
        have hnews := h [small ts] (forall_mem_singleton.mpr hts)
        rw [← recover_cut_append (fun e he => hlog e (mem_append_left _ he)) hpart hnil hnews,
          Table.replay_append, Table.replay_cons, Table.replay_nil, Table.apply_of_put _ hput,
          Table.lookup_put]
        exact if_pos rfl
      have h₁ := hlookup "t1" (by decide +kernel)
      have h₂ := hlookup "t2" (by decide +kernel)
      exact absurd (some.inj (h₁.symm.trans h₂)) (by decide +kernel)

/-- **Records appended after a crash are recovered exactly when the crash cut the log at the
end of a line.**  The file is a prefix of a log whose records fit.  It is read without error;
what is recovered after more records that fit are appended to it and flushed is the fold of
its complete records and of all of those if and only if it is empty or ends with an end of
line. -/
theorem recover_appended_iff (hlog : ∀ e ∈ log, Fits e) (hfile : file <+: logFile log) :
    ∃ w, newWAL file = some w ∧
      w.entries = Table.empty.replay (completeRecords log file.length) ∧
      ((∀ news, (∀ e ∈ news, Fits e) →
          recover ((w.appendRecords news).flush .ok true).1.writer.file.bytes =
            some (Table.empty.replay (completeRecords log file.length ++ news))) ↔
        EndsLine file) := by
  have hrecover := recover_cut hlog hfile
  obtain ⟨w, hw, hentries⟩ : ∃ w, newWAL file = some w ∧
      w.entries = Table.empty.replay (completeRecords log file.length) :=
    ⟨_, by rw [newWAL, hrecover, map_some], rfl⟩
  refine ⟨w, hw, hentries, ?_⟩
  constructor
  · intro h
    refine endsLine_of_recover hlog hfile fun news hnews => ?_
    rw [← bytes_appendRecords hw hnews, h news hnews]
  · intro hend news hnews
    have hfits : ∀ e ∈ completeRecords log file.length ++ news, Fits e :=
      forall_mem_append.mpr
        ⟨fun e he => hlog e ((isPrefix_completeRecords ..).subset he), hnews⟩
    have hconcat : file ++ logFile news = logFile (completeRecords log file.length ++ news) := by
      conv_lhs => rw [eq_logFile_of_endsLine hfile hend]
      simp [logFile]
    rw [bytes_appendRecords hw hnews, hconcat, recover_logFile hfits]

/-- A log of one record, all there. -/
theorem recover_appended_iff_small :
    ∃ w, newWAL (logFile [small "t1"]) = some w ∧ ∀ news, (∀ e ∈ news, Fits e) →
      recover ((w.appendRecords news).flush .ok true).1.writer.file.bytes =
        some (Table.empty.replay ([small "t1"] ++ news)) := by
  have hfits : ∀ e ∈ [small "t1"], Fits e := forall_mem_singleton.mpr (by decide +kernel)
  obtain ⟨w, hw, -, hiff⟩ := recover_appended_iff hfits prefix_rfl
  rw [completeRecords_logFile] at hiff
  exact ⟨w, hw, hiff.mpr (endsLine_logFile _)⟩

/-- One byte of a record is left by the crash; the message appended after the restart is in
the entries and flushed to the file, and lost at the next recovery. -/
theorem append_after_torn_lost :
    [123] <+: logFile [small "t1"] ∧
    ∃ w ∈ newWAL [123], ∃ w' ∈ Lib.run step w [.append "t2" (.plain "m2" "slack"), .flush],
      (w'.entries.lookup "m2").isSome ∧
      recover w'.writer.file.bytes = some (Table.empty.replay (completeRecords [small "t1"] 1)) ∧
      recover w'.writer.file.bytes ≠
        some (Table.empty.replay (completeRecords [small "t1"] 1 ++
          [pendingEntry "t2" (.plain "m2" "slack")])) := by
  decide +kernel

end

end K8s4Claw.IpcBus.Wal
