/-
# The order of a replay

`ReplayWAL` (`internal/ipcbus/router.go`) sends the entries of `PendingEntries`
(`internal/ipcbus/wal.go`) one after another.  These come out of a Go map, in whatever order it is
iterated; the order in which messages were appended is not in the entries.  Two pending messages of
one channel are therefore sent in either order (`replayed_out_of_order`).

The order of the appends is read off the calls on the log (`appendOrder`): of the appends of one id
the last counts, since it is the one that is pending.  After a restart it is the last that recovery
can read; a record that is too long makes recovery fail, so there is no restart to speak of.
-/

import K8s4Claw.IpcBus.Delivery

namespace K8s4Claw.IpcBus

open List Option
open Lib (BufWriter Table run run_cons)

/-! ### Append order -/

/-- The messages the log has been given, one more call.  One that cannot be marshalled is not
written, and a restart does not bring back one that is nested too deep. -/
def pushAppend (messages : List Message) : Wal.Op → List Message
  | .append _ msg => if msg.Marshals then messages ++ [msg] else messages
  | .restart => messages.filter (·.Nestable)
  | .complete _ _ | .markDLQ _ _ | .incrementAttempts _ _ | .compact _ | .flush => messages

/-- The last message of each id. -/
def lastOfEach (messages : List Message) : List Message := messages.pwFilter (·.id ≠ ·.id)

/-- The messages appended by these calls, the last of each id, in the order of the appends. -/
def appendOrder (ops : List Wal.Op) : List Message := lastOfEach (ops.foldl pushAppend [])

/-- The messages of each channel are in the order in which they were appended. -/
def InOrder (ops : List Wal.Op) (sends : List Message) : Prop :=
  ∀ channel, (sends.filter (·.channel = channel)).Sublist (appendOrder ops)

/-! ### Replays -/

/-- One step of `ReplayWAL`. -/
def replayNext (s : Shared) (c : Choice) : Option Shared := replayStep s s.main c

/-- A `ReplayWAL` that gets the entries in this order can send these messages. -/
def Replays (s : Shared) (order : List String) (sends : List Message) : Prop :=
  ∃ choices s', run replayNext { s with main := .replay (s.wal.pendingEntries order) } choices =
    some s' ∧ s'.main = .serve ∧ s'.sent = s.sent ++ sends

/-- The entries `ReplayWAL` has still to send. -/
def Main.todo : Main → List WALEntry
  | .replay todo | .complete _ todo => todo
  | .serve => []

section

variable {s s' : Shared} {order : List String} {sends all : List Message} {c : Choice}

theorem replayNext_sublist (h : replayNext s c = some s') {before : List Message}
    (hsub : ∃ sends, s.sent = before ++ sends ∧
      (sends ++ s.main.todo.filterMap WALEntry.msg).Sublist all) :
    ∃ sends, s'.sent = before ++ sends ∧
      (sends ++ s'.main.todo.filterMap WALEntry.msg).Sublist all := by
  obtain ⟨sends, hsent, hsub⟩ := hsub
  have hmove := replayStep_move h
  generalize s.main = m at hmove hsub
  cases hmove with
  | @skip _ _ hmsg =>
    rw [Main.todo, filterMap_cons_none hmsg] at hsub
    exact ⟨sends, hsent, hsub⟩
  | @sendOk _ _ msg hmsg =>
    rw [Main.todo, filterMap_cons_some hmsg] at hsub
    refine ⟨sends ++ [msg], by rw [hsent, append_assoc], ?_⟩
    rwa [append_assoc]
  | @sendErr _ _ _ hmsg =>
    rw [Main.todo, filterMap_cons_some hmsg] at hsub
    exact ⟨sends, hsent, ((sublist_cons_self ..).append_left sends).trans hsub⟩
  | _ => exact ⟨sends, hsent, hsub⟩

/-- **A replay sends some of the messages of its entries, in their order.** -/
theorem Replays.sublist (h : Replays s order sends) :
    sends.Sublist ((s.wal.pendingEntries order).filterMap WALEntry.msg) := by
  obtain ⟨choices, s', hrun, hmain, hsent⟩ := h
  have hinv := Lib.run_invariant
    (fun _ _ _ hsub hstep => replayNext_sublist hstep hsub)
    ⟨[], (append_nil _).symm, List.Sublist.refl _⟩ hrun
  obtain ⟨sends', hsent', hsub⟩ := hinv
  obtain rfl : sends = sends' := append_cancel_left (hsent.symm.trans hsent')
  rw [hmain] at hsub
  simpa [Main.todo] using hsub

theorem exists_run_replayNext (todo : List WALEntry) (s : Shared) (h : s.main = .replay todo) :
    ∃ choices s', run replayNext s choices = some s' ∧ s'.main = .serve ∧
      s'.sent = s.sent ++ todo.filterMap WALEntry.msg := by
  induction todo generalizing s with
  | nil =>
    refine ⟨[.go], { s with main := .serve }, ?_, rfl, (append_nil _).symm⟩
    simp [run, replayNext, h, replayStep]
  | cons entry todo ih =>
    cases hmsg : entry.msg with
    | none =>
      obtain ⟨choices, s', hrun, hmain, hsent⟩ := ih { s with main := .replay todo } rfl
      refine ⟨.go :: choices, s', run_cons.mpr ⟨_, ?_, hrun⟩, hmain, ?_⟩
      · simp [replayNext, h, replayStep, hmsg]
      · rw [hsent, filterMap_cons_none hmsg]
    | some msg =>
      obtain ⟨choices, s', hrun, hmain, hsent⟩ := ih
        { s with
          sent := s.sent ++ [msg]
          wal := (s.wal.complete .ok .ok "" entry.id).1
          main := .replay todo } rfl
      refine ⟨.ok :: .wal "" .ok .ok :: choices, s',
        run_cons.mpr ⟨{ s with sent := s.sent ++ [msg], main := .complete entry todo }, ?_,
          run_cons.mpr ⟨_, rfl, hrun⟩⟩, hmain, ?_⟩
      · simp [replayNext, h, replayStep, hmsg]
      · rw [hsent, filterMap_cons_some hmsg, append_assoc]
        rfl

end

/-! ### The entries and the appends -/

section

variable {messages messages' : List Message} {msg m : Message}

/-- The message is the last of its id. -/
def Last (messages : List Message) (msg : Message) : Prop :=
  ∃ before after, messages = before ++ msg :: after ∧ ∀ m ∈ after, m.id ≠ msg.id

theorem last_append (messages : List Message) (msg : Message) : Last (messages ++ [msg]) msg :=
  ⟨messages, [], rfl, by simp⟩

theorem Last.append (h : Last messages msg) (hne : m.id ≠ msg.id) : Last (messages ++ [m]) msg := by
  obtain ⟨before, after, rfl, hafter⟩ := h
  exact ⟨before, after ++ [m], by simp, forall_mem_append.mpr ⟨hafter, by simpa using hne⟩⟩

theorem Last.filter {p : Message → Bool} (h : Last messages msg) (hp : p msg = true) :
    Last (messages.filter p) msg := by
  obtain ⟨before, after, rfl, hafter⟩ := h
  refine ⟨before.filter p, after.filter p, ?_, fun m hm => hafter m (mem_filter.mp hm).1⟩
  rw [filter_append, filter_cons_of_pos hp]

theorem Last.mem_lastOfEach (h : Last messages msg) : msg ∈ lastOfEach messages := by
  obtain ⟨before, after, rfl, hafter⟩ := h
  induction before with
  | nil =>
    rw [nil_append, lastOfEach, pwFilter_cons_of_pos fun m hm =>
      (hafter m (pwFilter_subset _ hm)).symm]
    exact mem_cons_self
  | cons m before ih =>
    rw [cons_append, lastOfEach]
    by_cases hm : ∀ m' ∈ pwFilter (·.id ≠ ·.id) (before ++ msg :: after), m.id ≠ m'.id
    · rw [pwFilter_cons_of_pos hm]
      exact mem_cons_of_mem _ ih
    · rw [pwFilter_cons_of_neg hm]
      exact ih

theorem nodup_lastOfEach (messages : List Message) :
    ((lastOfEach messages).map Message.id).Nodup :=
  pairwise_map.mpr (pairwise_pwFilter messages)

/-- The entry has the last message of its id. -/
structure Carries (messages : List Message) (e : WALEntry) (msg : Message) : Prop where
  last : Last messages msg
  id : msg.id = e.id
  channel : e.channel = msg.channel
  msg : e.msg = some msg

/-- **Every entry has the last message of its id.** -/
def Reflects (t : Entries) (messages : List Message) : Prop :=
  ∀ k e, t.lookup k = some e → ∃ msg, Carries messages e msg

/-- The messages that recovery can read. -/
abbrev legible (messages : List Message) : List Message := messages.filter (·.Nestable)

theorem Carries.legible {e : WALEntry} (h : Carries messages e msg) (he : e.Nestable) :
    Carries (legible messages) e msg :=
  { h with last := h.last.filter (decide_eq_true (he msg h.msg)) }

/-- A record removes an entry, or puts one that has the last message of its id. -/
def Recorded (messages : List Message) (e : WALEntry) : Prop :=
  WALEntry.reading.verb e = .remove ∨
    WALEntry.reading.verb e = .put ∧ ∃ msg, Carries messages e msg

theorem Reflects.apply {t : Entries} {e : WALEntry} (h : Reflects t messages)
    (he : Recorded messages' e)
    (hkeep : ∀ msg, Last messages msg → msg.id ≠ e.id → Last messages' msg) :
    Reflects (t.apply e) messages' := by
  intro k e' hk
  by_cases hne : e.id = k
  · subst hne
    rcases he with hremove | ⟨hput, hcarries⟩
    · rw [Table.apply_of_remove _ hremove, Table.lookup_remove] at hk
      cases (if_pos rfl).symm.trans hk
    · rw [Table.apply_of_put _ hput, Table.lookup_put] at hk
      cases (if_pos rfl).symm.trans hk
      exact hcarries
  · rw [Table.lookup_apply_of_ne _ hne] at hk
    obtain ⟨msg, hmsg⟩ := h k e' hk
    have hid : msg.id = k := hmsg.id.trans (t.keyed k e' hk).1
    exact ⟨msg, { hmsg with last := hkeep msg hmsg.last (hid ▸ Ne.symm hne) }⟩

end

/-- The entries in memory have the last messages of their ids, and so do those that recovery would
read from what was written. -/
structure Tracked (w : Wal) (messages : List Message) : Prop where
  ready : w.writer.Ready
  writable : w.Writable
  entries : Reflects w.entries messages
  log : ∃ log, w.writer.contents = logFile log ∧ (∀ e ∈ log, e.Marshals) ∧
    Reflects (Table.empty.replay (log.filter (·.Nestable))) (legible messages)

section

variable {w w' : Wal} {op : Wal.Op} {messages messages' : List Message} {e : WALEntry}

/-- One record written, with the messages that count after it. -/
theorem Tracked.logged (h : Tracked w messages) (he : Recorded messages' e) (hmarshals : e.Marshals)
    (hkeep : ∀ msg, Last messages msg → msg.id ≠ e.id → Last messages' msg)
    (hlegible : ∀ msg, Last (legible messages) msg → (e.Nestable → msg.id ≠ e.id) →
      Last (legible messages') msg) :
    Tracked (w.logged e) messages' := by
  obtain ⟨log, hcontents, hmarsh, hreflects⟩ := h.log
  refine ⟨BufWriter.ready_write h.ready _, Wal.writable_logged h.writable hmarshals,
    h.entries.apply he hkeep, log ++ [e], ?_,
    forall_mem_append.mpr ⟨hmarsh, forall_mem_singleton.mpr hmarshals⟩, ?_⟩
  · rw [Wal.logged, BufWriter.contents_write h.ready, hcontents, Wal.logFile_append]
  · by_cases hnestable : e.Nestable
    · rw [filter_append, filter_cons_of_pos (by simpa using hnestable), filter_nil,
        Table.replay_append, Table.replay_cons, Table.replay_nil]
      refine hreflects.apply (he.imp_right ?_) fun msg hmsg hne => hlegible msg hmsg fun _ => hne
      rintro ⟨hput, msg, hmsg⟩
      exact ⟨hput, msg, hmsg.legible hnestable⟩
    · rw [filter_append, filter_cons_of_neg (by simpa using hnestable), filter_nil, append_nil]
      intro k e' hk
      obtain ⟨msg, hmsg⟩ := hreflects k e' hk
      exact ⟨msg, { hmsg with last := hlegible msg hmsg.last fun hn => absurd hn hnestable }⟩

theorem Tracked.append (h : Tracked w messages) (ts : String) {msg : Message}
    (hmsg : msg.Marshals) : Tracked (w.logged (Wal.pendingEntry ts msg)) (messages ++ [msg]) := by
  refine h.logged (.inr ⟨rfl, msg, last_append .., rfl, rfl, rfl⟩)
    (Wal.marshals_pendingEntry.mpr hmsg) (fun m hm hne => hm.append (Ne.symm hne))
    fun m hm hne => ?_
  rw [legible, filter_append]
  by_cases hnestable : msg.Nestable
  · rw [filter_cons_of_pos (by simpa using hnestable), filter_nil]
    refine hm.append (Ne.symm (hne ?_))
    rintro _ ⟨⟩
    exact hnestable
  · rw [filter_cons_of_neg (by simpa using hnestable), filter_nil, append_nil]
    exact hm

/-- A record of an entry in memory, removed or with its message. -/
theorem Tracked.again (h : Tracked w messages) (he : Recorded messages e) (hmarshals : e.Marshals) :
    Tracked (w.logged e) messages :=
  h.logged he hmarshals (fun _ hm _ => hm) fun _ hm _ => hm

theorem Tracked.bumped (h : Tracked w messages) (ts : String) {id : String}
    (hid : w.entries.lookup id = some e) : Tracked (w.logged (Wal.bumped ts e)) messages := by
  obtain ⟨msg, hmsg⟩ := h.entries id e hid
  have hput := (w.entries.keyed id e hid).2
  exact h.again (.inr ⟨hput, msg, hmsg.last, hmsg.id, hmsg.channel, hmsg.msg⟩)
    (h.writable id e hid)

theorem Tracked.newWAL (h : Tracked w messages) (hw : Wal.newWAL w.writer.contents = some w') :
    Tracked w' (legible messages) := by
  obtain ⟨log, hcontents, hmarshals, hreflects⟩ := h.log
  obtain ⟨t, ht, rfl⟩ := map_eq_some_iff.mp hw
  rw [hcontents] at ht
  have hlength := forall_lt_of_recover ht
  rw [rawLines_logFile, List.forall_mem_map] at hlength
  rw [recover_logFile_filter hlength hmarshals] at ht
  cases ht
  refine ⟨BufWriter.ready_new _, fun k e hk => ?_, hreflects, log, ?_, hmarshals, ?_⟩
  · rcases Table.mem_of_lookup_replay hk with hmem | hnone
    · exact hmarshals e (mem_filter.mp hmem).1
    · exact absurd hnone (by simp)
  · rw [BufWriter.contents_new, hcontents]
  · rwa [legible, List.filter_filter, funext fun _ => Bool.and_self _]

theorem Tracked.compacted (h : Tracked w messages) {order : List String} :
    Tracked { w with
      writer := .new { bytes := logFile (w.pendingEntries order), closed := false } } messages where
  ready := BufWriter.ready_new _
  writable := h.writable
  entries := h.entries
  log := by
    have hmem {e : WALEntry} (he : e ∈ w.pendingEntries order) : ∃ k, w.entries.lookup k = some e :=
      Table.mem_snapshot he
    refine ⟨_, BufWriter.contents_new _, fun e he => ?_, fun k e hk => ?_⟩
    · obtain ⟨k, hk⟩ := hmem he
      exact h.writable k e hk
    · rcases Table.mem_of_lookup_replay hk with he | hnone
      · obtain ⟨he, hnestable⟩ := mem_filter.mp he
        obtain ⟨k, hk⟩ := hmem he
        obtain ⟨msg, hmsg⟩ := h.entries k e hk
        exact ⟨msg, hmsg.legible (of_decide_eq_true hnestable)⟩
      · exact absurd hnone (by simp)

theorem Tracked.recorded (h : Tracked w messages) (he : Wal.record w op = some e) :
    Tracked (w.logged e) (pushAppend messages op) := by
  cases op with
  | append ts =>
    obtain ⟨hmsg, he⟩ := ite_none_right_eq_some.mp he
    cases he
    rw [pushAppend, if_pos hmsg]
    exact h.append ts hmsg
  | complete | markDLQ =>
    obtain ⟨e₀, -, rfl⟩ := map_eq_some_iff.mp he
    exact h.again (.inl rfl) Wal.marshals_closingRecord
  | incrementAttempts ts =>
    obtain ⟨e₀, hid, rfl⟩ := map_eq_some_iff.mp he
    exact h.bumped ts hid
  | compact | flush | restart => cases he

/-- **Every call keeps track of the last messages.** -/
theorem tracked_step (h : Tracked w messages) (hs : Wal.step w op = some w') :
    Tracked w' (pushAppend messages op) := by
  cases hr : Wal.record w op with
  | some =>
    rw [Wal.step_of_record h.ready h.writable hr] at hs
    cases hs
    exact h.recorded hr
  | none =>
  cases op with
  | append ts msg =>
    have hmsg : ¬ msg.Marshals := fun hmsg => absurd hr (by simp [Wal.record, hmsg])
    rw [Wal.step_of_record_none rfl hr] at hs
    cases hs
    rwa [pushAppend, if_neg hmsg]
  | complete | markDLQ | incrementAttempts =>
    rw [Wal.step_of_record_none rfl hr] at hs
    cases hs
    exact h
  | compact order =>
    rw [Wal.step, Wal.compact_ok h.ready h.writable] at hs
    split_ifs at hs
    cases hs
    exact h.compacted
  | flush =>
    rw [Wal.step, Wal.flush_ok h.ready] at hs
    cases hs
    obtain ⟨log, hcontents, hlog⟩ := h.log
    refine ⟨⟨h.ready.not_closed, rfl⟩, h.writable, h.entries, log, ?_, hlog⟩
    rw [← hcontents]
    exact append_nil _
  | restart =>
    rw [Wal.step, Wal.bytes_close h.ready] at hs
    exact h.newWAL hs

theorem tracked_run {ops : List Wal.Op} (h : Tracked w messages)
    (hrun : run Wal.step w ops = some w') : Tracked w' (ops.foldl pushAppend messages) := by
  induction ops generalizing w messages with
  | nil =>
    cases hrun
    exact h
  | cons op _ ih =>
    obtain ⟨w₁, hw₁, hrun⟩ := run_cons.mp hrun
    exact ih (tracked_step h hw₁) hrun

theorem tracked_start : Tracked Wal.start [] where
  ready := BufWriter.ready_new _
  writable k e he := by simp [Wal.start] at he
  entries k e he := by simp [Wal.start] at he
  log := ⟨[], rfl, by simp, fun k e he => by simp at he⟩

end

/-! ### When replays are in order -/

theorem eq_of_sublist_pair {α : Type*} {l : List α} {a b : α} (h : l.Nodup)
    (hab : [a, b].Sublist l) (hba : [b, a].Sublist l) : a = b := by
  induction l with
  | nil => cases hab
  | cons x l ih =>
    obtain ⟨hx, hl⟩ := nodup_cons.mp h
    rcases sublist_cons_iff.mp hab with htail | ⟨r, hr, -⟩ <;>
      rcases sublist_cons_iff.mp hba with htail' | ⟨r', hr', -⟩
    · exact ih hl htail htail'
    · have hb : b ∈ l := htail.subset (mem_cons_of_mem _ mem_cons_self)
      exact absurd ((cons.inj hr').1 ▸ hb) hx
    · have ha : a ∈ l := htail'.subset (mem_cons_of_mem _ mem_cons_self)
      exact absurd ((cons.inj hr).1 ▸ ha) hx
    · exact (cons.inj hr).1.trans (cons.inj hr').1.symm

section

variable {w : Wal} {messages : List Message} {ops : List Wal.Op} {s : Shared}

theorem Tracked.nodup_pending (h : Tracked w messages) {order : List String}
    (horder : w.entries.Enumerates order) :
    (((w.pendingEntries order).filterMap WALEntry.msg).map Message.id).Nodup := by
  have hids (todo : List WALEntry)
      (htodo : ∀ e ∈ todo, ∃ msg, e.msg = some msg ∧ msg.id = e.id) :
      (todo.filterMap WALEntry.msg).map Message.id = todo.map WALEntry.id := by
    induction todo with
    | nil => rfl
    | cons e _ ih =>
      obtain ⟨msg, hmsg, hid⟩ := htodo e mem_cons_self
      rw [filterMap_cons_some hmsg, map_cons, map_cons, hid,
        ih fun e he => htodo e (mem_cons_of_mem _ he)]
  rw [hids]
  · exact horder.1.sublist (Table.map_key_snapshot_sublist w.entries order)
  · intro e he
    obtain ⟨k, hk⟩ := Table.mem_snapshot he
    obtain ⟨msg, hmsg⟩ := h.entries k e hk
    exact ⟨msg, hmsg.msg, hmsg.id⟩

/-- The message of a pending entry is the last of its id, and that of its key. -/
theorem Tracked.of_lookup (h : Tracked w messages) {k : String} {e : WALEntry}
    (hk : w.entries.lookup k = some e) :
    ∃ msg ∈ lastOfEach messages, msg.id = k ∧ e.msg = some msg ∧ e.channel = msg.channel := by
  obtain ⟨msg, hmsg⟩ := h.entries k e hk
  exact ⟨msg, hmsg.last.mem_lastOfEach, hmsg.id.trans (w.entries.keyed k e hk).1, hmsg.msg,
    hmsg.channel⟩

/-- A message that is replayed was appended last under the id of a pending entry of its channel. -/
theorem Tracked.of_mem_pending (h : Tracked w messages) {order : List String} {msg : Message}
    (hmsg : msg ∈ (w.pendingEntries order).filterMap WALEntry.msg) :
    msg ∈ lastOfEach messages ∧
      ∃ e, w.entries.lookup msg.id = some e ∧ e.channel = msg.channel := by
  obtain ⟨e, he, hem⟩ := mem_filterMap.mp hmsg
  obtain ⟨k, hk⟩ := Table.mem_snapshot he
  obtain ⟨m, hmem, rfl, hm, hchannel⟩ := h.of_lookup hk
  obtain rfl : m = msg := some.inj (hm.symm.trans hem)
  exact ⟨hmem, e, hk, hchannel⟩

/-- If every replay is in order, the message of one pending entry comes before that of any other of
its channel. -/
theorem sublist_pair
    (hinOrder : ∀ order sends, s.wal.entries.Enumerates order → Replays s order sends →
      InOrder ops sends) {m₁ m₂ : Message} {e₁ e₂ : WALEntry}
    (h₁ : s.wal.entries.lookup m₁.id = some e₁) (h₂ : s.wal.entries.lookup m₂.id = some e₂)
    (hm₁ : e₁.msg = some m₁) (hm₂ : e₂.msg = some m₂) (hne : m₁.id ≠ m₂.id)
    (hchannel : m₁.channel = m₂.channel) : [m₁, m₂].Sublist (appendOrder ops) := by
  obtain ⟨rest, hrest⟩ := Table.exists_enumerates hne h₁ h₂
  have hsublist := hinOrder _ _ hrest (exists_run_replayNext _ _ rfl) m₁.channel
  have hpending : (s.wal.pendingEntries (m₁.id :: m₂.id :: rest)).filterMap WALEntry.msg =
      m₁ :: m₂ :: (s.wal.pendingEntries rest).filterMap WALEntry.msg := by
    rw [Wal.pendingEntries, Table.snapshot, filterMap_cons_some h₁,
      filterMap_cons_some h₂, filterMap_cons_some hm₁, filterMap_cons_some hm₂]
    rfl
  rw [hpending, filter_cons_of_pos (by simp), filter_cons_of_pos (by simp [hchannel])]
    at hsublist
  exact (List.Sublist.cons_cons _ (List.Sublist.cons_cons _ (nil_sublist _))).trans hsublist

theorem sublist_of_ids_eq {l : List Message} (hnodup : (l.map Message.id).Nodup)
    (hids : ∀ a ∈ l, ∀ b ∈ l, a.id = b.id) (hmem : ∀ a ∈ l, a ∈ messages) :
    l.Sublist messages := by
  match l with
  | [] => exact nil_sublist _
  | [a] => exact singleton_sublist.mpr (hmem a (by simp))
  | a :: b :: l =>
    have hab : a.id = b.id := hids a (by simp) b (by simp)
    simp [hab] at hnodup

end

/-- **Replays are in order exactly if no channel has two pending entries.**  Over every run of calls
on the log that led to the entries, and every order in which they are iterated. -/
theorem replay_inOrder_iff {ops : List Wal.Op} {s : Shared}
    (h : run Wal.step Wal.start ops = some s.wal) :
    (∀ order sends, s.wal.entries.Enumerates order → Replays s order sends →
      InOrder ops sends) ↔
    ∀ k₁ k₂ e₁ e₂, s.wal.entries.lookup k₁ = some e₁ → s.wal.entries.lookup k₂ = some e₂ →
      e₁.channel = e₂.channel → k₁ = k₂ := by
  have htracked : Tracked s.wal (ops.foldl pushAppend []) := tracked_run tracked_start h
  constructor
  · intro hinOrder k₁ k₂ e₁ e₂ h₁ h₂ hchannel
    obtain ⟨m₁, -, rfl, hm₁, hc₁⟩ := htracked.of_lookup h₁
    obtain ⟨m₂, -, rfl, hm₂, hc₂⟩ := htracked.of_lookup h₂
    have hc : m₁.channel = m₂.channel := hc₁.symm.trans (hchannel.trans hc₂)
    by_contra hne
    have hab := sublist_pair hinOrder h₁ h₂ hm₁ hm₂ hne hc
    have hba := sublist_pair hinOrder h₂ h₁ hm₂ hm₁ (Ne.symm hne) hc.symm
    exact hne (congrArg Message.id (eq_of_sublist_pair (nodup_lastOfEach _).of_map hab hba))
  · intro hone order sends horder hsends channel
    have hsub := hsends.sublist
    have hmem {a : Message} (ha : a ∈ sends.filter (·.channel = channel)) :
        a.channel = channel ∧ a ∈ (s.wal.pendingEntries order).filterMap WALEntry.msg := by
      obtain ⟨ha, hchannel⟩ := mem_filter.mp ha
      exact ⟨by simpa using hchannel, hsub.subset ha⟩
    refine sublist_of_ids_eq ?_ (fun a ha b hb => ?_) fun a ha =>
      (htracked.of_mem_pending (hmem ha).2).1
    · exact (htracked.nodup_pending horder).sublist ((filter_sublist.trans hsub).map _)
    · obtain ⟨hca, ha⟩ := hmem ha
      obtain ⟨hcb, hb⟩ := hmem hb
      obtain ⟨-, ea, hea, hcea⟩ := htracked.of_mem_pending ha
      obtain ⟨-, eb, heb, hceb⟩ := htracked.of_mem_pending hb
      exact hone a.id b.id ea eb hea heb (hcea.trans (hca.trans (hcb.symm.trans hceb.symm)))

/-- The bus with a log that was written by these calls. -/
def busWith (wal : Wal) : Shared := { (started smallConfig).shared with wal := wal }

/-- Two messages of two channels are pending after a retry and a restart. -/
def twoChannels : List Wal.Op :=
  [.append "t1" (.plain "m1" "slack"), .append "t2" (.plain "m2" "telegram"),
    .incrementAttempts "t3" "m1", .restart]

theorem replay_inOrder_iff_twoChannels :
    ∃ wal ∈ run Wal.step Wal.start twoChannels, ∀ order sends,
      wal.entries.Enumerates order → Replays (busWith wal) order sends →
        InOrder twoChannels sends := by
  obtain ⟨wal, hwal, hkeys⟩ : ∃ wal ∈ run Wal.step Wal.start twoChannels,
      ∀ k₁ ∈ wal.entries.map.keys, ∀ k₂ ∈ wal.entries.map.keys,
        (wal.entries.lookup k₁).map WALEntry.channel =
          (wal.entries.lookup k₂).map WALEntry.channel → k₁ = k₂ := by
    decide +kernel
  have hmem {k : String} {e : WALEntry} (h : wal.entries.lookup k = some e) :
      k ∈ wal.entries.map.keys :=
    Finmap.mem_keys.mpr (Finmap.lookup_isSome.mp (isSome_iff_exists.mpr ⟨e, h⟩))
  refine ⟨wal, hwal, (replay_inOrder_iff (s := busWith wal) hwal).mpr ?_⟩
  intro k₁ k₂ e₁ e₂ h₁ h₂ hchannel
  refine hkeys k₁ (hmem h₁) k₂ (hmem h₂) ?_
  have h₁ : wal.entries.lookup k₁ = some e₁ := h₁
  have h₂ : wal.entries.lookup k₂ = some e₂ := h₂
  rw [h₁, h₂, map_some, map_some, hchannel]

/-- Two messages of one channel are pending. -/
def oneChannel : List Wal.Op :=
  [.append "t1" (.plain "m1" "slack"), .append "t2" (.plain "m2" "slack")]

/-- **Two messages of one channel are replayed in the wrong order**, when the map is iterated so. -/
theorem replayed_out_of_order :
    ∃ wal ∈ run Wal.step Wal.start oneChannel, wal.entries.Enumerates ["m2", "m1"] ∧
      Replays (busWith wal) ["m2", "m1"] [.plain "m2" "slack", .plain "m1" "slack"] ∧
      ¬ InOrder oneChannel [.plain "m2" "slack", .plain "m1" "slack"] := by
  obtain ⟨wal, hwal, horder, s', hrun, hmain, hsent⟩ :
      ∃ wal ∈ run Wal.step Wal.start oneChannel, wal.entries.Enumerates ["m2", "m1"] ∧
        ∃ s' ∈ run replayNext
            { busWith wal with main := .replay (wal.pendingEntries ["m2", "m1"]) }
            [.ok, .wal "t3" .ok .ok, .ok, .wal "t4" .ok .ok, .go],
          s'.main = .serve ∧ s'.sent = [.plain "m2" "slack", .plain "m1" "slack"] := by
    decide +kernel
  exact ⟨wal, hwal, horder, ⟨_, s', hrun, hmain, hsent⟩,
    fun h => absurd (h "slack") (by decide +kernel)⟩

end K8s4Claw.IpcBus
