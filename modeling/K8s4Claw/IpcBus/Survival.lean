/-
# A message and its copies

A data message in the hands of `HandleInbound` (`internal/ipcbus/router.go`) is copied to the log
before it is sent, and from the log to the dead letter queue when it has failed too often.  Errors
of the log and the queue are only logged.  So the message can end nowhere: its `Append` fails and
then `bridge.Send` fails, or `MarkDLQ` takes it out of the log and the `Put` of the queue fails
(`lost_by_bookkeeping`).

Here a call is what its operations return, each of them free to fail whatever the others do, and
what that does to the entries of the log.  Other calls for the same id may count attempts in the
meantime (`recount`).  The calls of `K8s4Claw.IpcBus.Bus`, with errors as the log and its file have
them, are calls in this sense (`handleInbound_refines`).
-/

import K8s4Claw.IpcBus.Backlog

namespace K8s4Claw.IpcBus

open List
open Lib (Outcome Table)

/-- What the operations of one `HandleInbound` return: whether they go through. -/
structure Results where
  append : Bool
  send : Bool
  complete : Bool
  increment : Bool
  markDLQ : Bool
  put : Bool
  deriving DecidableEq

/-- What one `HandleInbound` leaves: the entries of the log, whether the message was sent, and the
attempts under which it was put into the dead letter queue. -/
structure Aftermath where
  entries : Entries
  sent : Bool
  dead : Option Int64

namespace Entries

/-- `Append` on the entries. -/
def append (ok : Bool) (ts : String) (msg : Message) (t : Entries) : Entries :=
  if ok then t.put (Wal.pendingEntry ts msg) (Wal.verb_pendingEntry ts msg) else t

/-- `Complete` and `MarkDLQ` on the entries. -/
def close (ok : Bool) (id : String) (t : Entries) : Entries := if ok then t.remove id else t

/-- `IncrementAttempts` on the entries, when other calls have changed the count by `recount`.  The
entry is changed also when its record cannot be written. -/
def incrementAttempts (ok : Bool) (recount : Int64 → Int64) (ts id : String) (t : Entries) :
    Entries × Option Int64 :=
  match h : t.lookup id with
  | none => (t, none)
  | some e =>
      let e' := Wal.bumped ts { e with attempts := recount e.attempts }
      (t.put e' (t.keyed id e h).2, if ok then some e'.attempts else none)

/-- The message is pending. -/
def Pending (t : Entries) (msg : Message) : Prop :=
  ∃ e ∈ t.lookup msg.id, e.msg = some msg
  deriving Decidable

end Entries

section

variable (r : Results) (recount : Int64 → Int64) (ts ts' : String) (msg : Message) (t : Entries)

def Results.scheduleRetry : Aftermath :=
  match t.incrementAttempts r.increment recount ts' msg.id with
  | (t, none) => ⟨t, false, none⟩
  | (t, some n) =>
      if n ≥ maxRetryAttempts then
        ⟨t.close r.markDLQ msg.id, false, if r.put then some n else none⟩
      else ⟨t, false, none⟩

/-- `HandleInbound`, as far as it concerns the copies of the message. -/
def Results.handleInbound : Aftermath :=
  if msg.isControl then ⟨t, false, none⟩
  else
    let t := t.append r.append ts msg
    if r.send then ⟨t.close r.complete msg.id, true, none⟩
    else r.scheduleRetry recount ts' msg t

/-- The message was sent, is pending, or is in the dead letter queue. -/
def Aftermath.Kept (a : Aftermath) (msg : Message) : Prop :=
  a.sent = true ∨ a.entries.Pending msg ∨ a.dead.isSome
  deriving Decidable

/-- The entry a retry finds: the one that was appended, or else the one that was there. -/
def Results.found : Option WALEntry :=
  if r.append then some (Wal.pendingEntry ts msg) else t.lookup msg.id

/-- The attempts of the entry reach the maximum. -/
def Results.Exhausted (e : WALEntry) : Prop :=
  r.increment = true ∧ recount e.attempts + 1 ≥ maxRetryAttempts
  deriving Decidable

/-- **What the outcomes have to be:** the send goes through; or the retry finds an entry, and either
the attempts do not reach the maximum and the entry has this message, or they do, and the `Put` goes
through or the entry has this message and stays because `MarkDLQ` fails. -/
def Results.Survives : Prop :=
  r.send = true ∨ ∃ e ∈ r.found ts msg t,
    if r.Exhausted recount e then r.put = true ∨ e.msg = some msg ∧ r.markDLQ = false
    else e.msg = some msg
  deriving Decidable

end

section

variable {r : Results} {recount : Int64 → Int64} {ts ts' : String} {msg : Message} {t : Entries}
  {e : WALEntry}

theorem lookup_append_self : (t.append r.append ts msg).lookup msg.id = r.found ts msg t := by
  unfold Entries.append Results.found
  cases r.append with
  | true => exact (Table.lookup_put t (Wal.pendingEntry ts msg) rfl msg.id).trans (if_pos rfl)
  | false => rfl

theorem lookup_close_self {ok : Bool} :
    (t.close ok msg.id).lookup msg.id = if ok then none else t.lookup msg.id := by
  cases ok with
  | true => exact (Table.lookup_remove t msg.id msg.id).trans (if_pos rfl)
  | false => rfl

theorem Entries.incrementAttempts_of_none {t : Entries} {k : String} (h : t.lookup k = none)
    (ok : Bool) (recount : Int64 → Int64) (ts : String) :
    t.incrementAttempts ok recount ts k = (t, none) := by
  unfold Entries.incrementAttempts
  split
  · rfl
  · next hsome => cases h.symm.trans hsome

theorem Entries.incrementAttempts_of_some {t : Entries} {k : String} {e : WALEntry}
    (h : t.lookup k = some e) (ok : Bool) (recount : Int64 → Int64) (ts : String) :
    t.incrementAttempts ok recount ts k =
      (t.put (Wal.bumped ts { e with attempts := recount e.attempts }) (t.keyed k e h).2,
        if ok then some (Wal.bumped ts { e with attempts := recount e.attempts }).attempts
        else none) := by
  unfold Entries.incrementAttempts
  split
  · next hnone => cases hnone.symm.trans h
  · next hsome =>
    obtain rfl := Option.some.inj (h.symm.trans hsome)
    rfl

/-- A count that goes through or fails: the entry stays, with its message. -/
theorem incrementAttempts_of_lookup_some (ok : Bool) (recount : Int64 → Int64) (ts' : String)
    (h : t.lookup msg.id = some e) :
    ∃ t' : Entries,
      t'.lookup msg.id = some (Wal.bumped ts' { e with attempts := recount e.attempts }) ∧
      t.incrementAttempts ok recount ts' msg.id =
        (t', if ok then some (recount e.attempts + 1) else none) := by
  refine ⟨_, ?_, Entries.incrementAttempts_of_some h ok recount ts'⟩
  exact (Table.lookup_put t _ _ msg.id).trans (if_pos (t.keyed msg.id e h).1.symm)

theorem pending_iff_of_lookup (h : t.lookup msg.id = some e) :
    t.Pending msg ↔ e.msg = some msg := by
  unfold Entries.Pending
  rw [h]
  simp

/-- **What a retry keeps.** -/
theorem kept_scheduleRetry_iff :
    (r.scheduleRetry recount ts' msg t).Kept msg ↔ ∃ e ∈ t.lookup msg.id,
      if r.Exhausted recount e then r.put = true ∨ e.msg = some msg ∧ r.markDLQ = false
      else e.msg = some msg := by
  unfold Results.scheduleRetry Aftermath.Kept
  cases hlookup : t.lookup msg.id with
  | none =>
    rw [Entries.incrementAttempts_of_none hlookup]
    simp [Entries.Pending, hlookup]
  | some e =>
    obtain ⟨t', ht', heq⟩ := incrementAttempts_of_lookup_some r.increment recount ts' hlookup
    have hpending := pending_iff_of_lookup ht'
    replace hpending : t'.Pending msg ↔ e.msg = some msg := hpending
    rw [heq]
    cases hincrement : r.increment with
    | false => simp [Results.Exhausted, hincrement, hpending]
    | true =>
      by_cases hmax : recount e.attempts + 1 ≥ maxRetryAttempts
      · have hclosed : (t'.close r.markDLQ msg.id).Pending msg ↔
            e.msg = some msg ∧ r.markDLQ = false := by
          cases r.markDLQ with
          | true => simp [Entries.Pending, lookup_close_self]
          | false => simpa [Entries.close] using hpending
        have hexhausted : r.Exhausted recount e := ⟨hincrement, hmax⟩
        cases r.put with
        | true => simp [hmax, hexhausted]
        | false => simp [hmax, hexhausted, hclosed]
      · simp [Results.Exhausted, hmax, hpending]

/-- **A data message is kept exactly if the outcomes let it survive**, whatever the log has under
its id, whichever operations fail and whatever the count has become. -/
theorem kept_iff (r : Results) (recount : Int64 → Int64) (ts ts' : String) (msg : Message)
    (t : Entries) (hdata : msg.isControl = false) :
    (r.handleInbound recount ts ts' msg t).Kept msg ↔ r.Survives recount ts msg t := by
  unfold Results.handleInbound Results.Survives
  rw [hdata]
  cases r.send with
  | true => simp [Aftermath.Kept]
  | false =>
    simp only [Bool.false_eq_true, if_false, false_or]
    rw [kept_scheduleRetry_iff, lookup_append_self]

end

/-- The message of the examples. -/
def sampleMessage : Message := Message.plain "m1" "telegram"

/-- The send fails and everything else goes through: the message stays pending. -/
theorem kept_iff_pending :
    (Results.handleInbound ⟨true, false, true, true, true, true⟩ id "t1" "t2" sampleMessage
      Table.empty).Kept sampleMessage :=
  (kept_iff ⟨true, false, true, true, true, true⟩ id "t1" "t2" sampleMessage Table.empty
    (by decide)).mpr (by decide +kernel)

/-- **Two ways to lose a message.**  Its `Append` fails and its send fails: there is no entry to
retry.  Or its count reaches the maximum, `MarkDLQ` goes through and `Put` fails: the entry is gone
and the queue has nothing. -/
theorem lost_by_bookkeeping :
    ¬ (Results.handleInbound ⟨false, false, true, true, true, true⟩ id "t1" "t2" sampleMessage
      Table.empty).Kept sampleMessage ∧
    ¬ (Results.handleInbound ⟨true, false, true, true, true, false⟩ (fun _ => 4) "t1" "t2"
      sampleMessage Table.empty).Kept sampleMessage := by
  decide +kernel

/-! ### The calls of the bus -/

section

variable {w w' : Wal} {o₁ o₂ : Outcome} {ts k : String} {msg : Message} {e : WALEntry} {ok : Bool}

theorem entries_of_appendEntry (h : w.appendEntry o₁ o₂ e = (w', ok)) :
    w'.entries = w.entries := by
  rw [← Wal.entries_appendEntry o₁ o₂ w e, h]

theorem entries_append (w : Wal) (o₁ o₂ : Outcome) (ts : String) (msg : Message) :
    (w.append o₁ o₂ ts msg).1.entries = w.entries.append (w.append o₁ o₂ ts msg).2 ts msg := by
  unfold Wal.append
  dsimp only
  split
  · next heq => exact entries_of_appendEntry heq
  · next heq =>
    simp only [Entries.append, if_true, entries_of_appendEntry heq]

theorem entries_closeEntry (w : Wal) (state : WALState) (o₁ o₂ : Outcome) (ts k : String) :
    ∃ ok, (w.closeEntry state o₁ o₂ ts k).1.entries = w.entries.close ok k := by
  unfold Wal.closeEntry
  split
  · exact ⟨false, rfl⟩
  · split
    · next heq => exact ⟨false, entries_of_appendEntry heq⟩
    · next heq =>
      refine ⟨true, ?_⟩
      simp only [Entries.close, if_true, entries_of_appendEntry heq]

theorem entries_incrementAttempts (w : Wal) (o₁ o₂ : Outcome) (ts k : String) :
    ∃ ok, ((w.incrementAttempts o₁ o₂ ts k).1.entries, (w.incrementAttempts o₁ o₂ ts k).2) =
      w.entries.incrementAttempts ok (fun n => n) ts k := by
  cases hlookup : w.entries.lookup k with
  | none =>
    refine ⟨false, ?_⟩
    rw [Wal.incrementAttempts_of_none hlookup, Entries.incrementAttempts_of_none hlookup]
  | some =>
    unfold Wal.incrementAttempts
    split
    · next hnone => cases hnone.symm.trans hlookup
    · next hsome =>
      obtain rfl := Option.some.inj (hlookup.symm.trans hsome)
      dsimp only
      split
      · next heq =>
        refine ⟨false, ?_⟩
        rw [Entries.incrementAttempts_of_some hlookup]
        exact Prod.ext (entries_of_appendEntry heq) rfl
      · next heq =>
        refine ⟨true, ?_⟩
        rw [Entries.incrementAttempts_of_some hlookup]
        exact Prod.ext (entries_of_appendEntry heq) rfl

end

/-- The log, the messages sent and the queue are as they were. -/
structure SameCopies (s s' : Shared) : Prop where
  wal : s'.wal = s.wal
  sent : s'.sent = s.sent
  dlq : s'.dlq = s.dlq
  dead : s'.dead = s.dead

/-- What a call of the bus leaves is what this call leaves; `now` is the time of its `Put`. -/
structure Leaves (s s' : Shared) (msg : Message) (now : Lib.Utc) (a : Aftermath) : Prop where
  entries : s'.wal.entries = a.entries
  sent : s'.sent = s.sent ++ if a.sent then [msg] else []
  dlq : s'.dlq = (a.dead.bind fun n => s.dlq.put ⟨msg, n, now⟩).getD s.dlq
  dead : s'.dead = s.dead ++ a.dead.toList.map fun n => (msg, n)

/-- Whether a `Put` of the call goes through: bbolt does, and the queue takes the message. -/
def Call.puts (call : Call) (dlq : DLQ) (msg : Message) (attempts : Int64) : Bool :=
  call.env.put.2 && (dlq.put ⟨msg, attempts, call.env.put.1⟩).isSome

namespace Backlog

variable {channel : String} {b : Backlog} {call : Call} {msg : Message} {n : ℕ}

theorem sameCopies_write {s : Shared} (conn : ℕ) (ok : Bool) (m : Message) :
    SameCopies s (s.write conn ok m) := by
  unfold Shared.write
  split_ifs <;> exact ⟨rfl, rfl, rfl, rfl⟩

theorem sameCopies_pop :
    SameCopies b.shared (steps call (n + 2) (b, .handle channel msg .pop)).1.shared := by
  cases hbuf : b.shared.buffers.lookup channel with
  | none =>
    rw [steps_of_eq_some rfl (by simp only [inboundStep, hbuf]; rfl)]
    exact ⟨rfl, rfl, rfl, rfl⟩
  | some buf =>
    rw [steps_of_eq_some rfl (inboundStep_pop hbuf)]
    cases buf.pop.2.2 with
    | true =>
      rw [if_pos rfl, steps_of_eq_some rfl rfl, steps_read]
      obtain ⟨hwal, hsent, hdlq, hdead⟩ := sameCopies_write call.conn
        (call.env.write .resume).2.2
        (.newMessage (call.env.write .resume).1 (call.env.write .resume).2.1 .resume channel
          none)
      exact ⟨hwal, hsent, hdlq, hdead⟩
    | false =>
      exact ⟨rfl, rfl, rfl, rfl⟩

theorem sameCopies_push (call : Call) (n : ℕ) (channel : String) (msg : Message) (b : Backlog) :
    ∃ (m : ℕ) (s : Shared), SameCopies b.shared s ∧
    steps call (n + 6) (b, .handle channel msg .push) =
      steps call (m + 4) ({ b with shared := s }, .handle channel msg .send) := by
  cases hbuf : b.shared.buffers.lookup channel with
  | none =>
    rw [steps_of_eq_some rfl (by simp only [inboundStep, hbuf]; rfl)]
    exact ⟨n + 1, _, ⟨rfl, rfl, rfl, rfl⟩, rfl⟩
  | some buf =>
    rw [steps_of_eq_some rfl (inboundStep_push hbuf)]
    cases (buf.push msg).2.2 with
    | true =>
      refine ⟨n, _, ?_, rfl⟩
      obtain ⟨hwal, hsent, hdlq, hdead⟩ := sameCopies_write call.conn
        (call.env.write .slowDown).2.2
        (.newMessage (call.env.write .slowDown).1 (call.env.write .slowDown).2.1 .slowDown
          channel none)
      exact ⟨hwal, hsent, hdlq, hdead⟩
    | false =>
      refine ⟨n + 1, { b.shared with
        buffers := b.shared.buffers.insert channel (buf.push msg).1 }, ?_, rfl⟩
      exact ⟨rfl, rfl, rfl, rfl⟩

/-- What `DLQ.Put` leaves: the message in the queue and among the dead, if it goes through. -/
theorem leaves_putDLQ (attempts : Int64) :
    let s' := (steps call (n + 1) (b, .handle channel msg (.putDLQ attempts))).1.shared
    let dead := if call.puts b.shared.dlq msg attempts then some attempts else none
    s'.wal = b.shared.wal ∧ s'.sent = b.shared.sent ∧
      s'.dlq = (dead.bind fun n => b.shared.dlq.put ⟨msg, n, call.env.put.1⟩).getD b.shared.dlq ∧
      s'.dead = b.shared.dead ++ dead.toList.map fun n => (msg, n) := by
  rw [steps_of_eq_some rfl rfl, steps_read]
  refine ⟨rfl, rfl, ?_⟩
  by_cases hok : call.env.put.2 = true
  · rcases Option.eq_none_or_eq_some (b.shared.dlq.put ⟨msg, attempts, call.env.put.1⟩) with
      hput | ⟨dlq, hput⟩ <;> simp [record, Shared.putDLQ, Call.puts, hok, hput]
  · simp [record, Shared.putDLQ, Call.puts, hok]

theorem leaves_markDLQ (call : Call) (n : ℕ) (channel : String) (msg : Message) (b : Backlog)
    (attempts : Int64) : ∃ mark,
    Leaves b.shared (steps call (n + 2) (b, .handle channel msg (.markDLQ attempts))).1.shared msg
      call.env.put.1 ⟨b.shared.wal.entries.close mark msg.id, false,
        if call.puts b.shared.dlq msg attempts then some attempts else none⟩ := by
  obtain ⟨mark, hmark⟩ := entries_closeEntry b.shared.wal .dlq
    (call.env.wal (.markDLQ attempts)).2.1 (call.env.wal (.markDLQ attempts)).2.2
    (call.env.wal (.markDLQ attempts)).1 msg.id
  refine ⟨mark, ?_⟩
  rw [steps_of_eq_some rfl rfl]
  obtain ⟨hwal, hsent, hdlq, hdead⟩ := leaves_putDLQ attempts
  refine ⟨?_, hsent.trans (append_nil _).symm, hdlq, hdead⟩
  rw [hwal]
  exact hmark

theorem leaves_retry : ∃ increment mark attempts, ∀ append send complete,
    Leaves b.shared (steps call (n + 3) (b, .handle channel msg .retry)).1.shared msg
      call.env.put.1
      (Results.scheduleRetry
        ⟨append, send, complete, increment, mark, call.puts b.shared.dlq msg attempts⟩ (fun n => n)
        (call.env.wal .retry).1 msg b.shared.wal.entries) := by
  obtain ⟨increment, hincrement⟩ := entries_incrementAttempts b.shared.wal
    (call.env.wal .retry).2.1 (call.env.wal .retry).2.2 (call.env.wal .retry).1 msg.id
  obtain ⟨wal, attempts, hresult, hstep⟩ : ∃ (wal : Wal) (attempts : Option Int64),
      (wal.entries, attempts) = b.shared.wal.entries.incrementAttempts increment (fun n => n)
        (call.env.wal .retry).1 msg.id ∧
      inboundStep b.shared call.conn channel msg .retry (call.env.choice msg .retry) =
        goOn { b.shared with wal := wal } (afterCount channel msg attempts) :=
    ⟨_, _, hincrement, rfl⟩
  unfold Results.scheduleRetry
  rw [steps_of_eq_some rfl hstep]
  cases attempts with
  | none =>
    refine ⟨increment, true, 0, fun append send complete => ?_⟩
    dsimp only [afterCount]
    rw [← hresult]
    exact ⟨rfl, (append_nil _).symm, rfl, (append_nil _).symm⟩
  | some attempts =>
    dsimp only [afterCount]
    by_cases hmax : attempts ≥ maxRetryAttempts
    · obtain ⟨mark, hleaves⟩ := leaves_markDLQ call n channel msg
        { b with shared := { b.shared with wal := wal } } attempts
      refine ⟨increment, mark, attempts, fun append send complete => ?_⟩
      rw [if_pos hmax, ← hresult]
      dsimp only
      rw [if_pos hmax]
      exact ⟨hleaves.entries, hleaves.sent, hleaves.dlq, hleaves.dead⟩
    · refine ⟨increment, true, 0, fun append send complete => ?_⟩
      rw [if_neg hmax, ← hresult]
      dsimp only
      rw [if_neg hmax]
      exact ⟨rfl, (append_nil _).symm, rfl, (append_nil _).symm⟩

theorem leaves_send (call : Call) (n : ℕ) (channel : String) (msg : Message) (b : Backlog) :
    ∃ complete increment mark attempts, ∀ append,
      Leaves b.shared (steps call (n + 4) (b, .handle channel msg .send)).1.shared msg
        call.env.put.1
        (if call.env.send then ⟨b.shared.wal.entries.close complete msg.id, true, none⟩
        else Results.scheduleRetry
          ⟨append, call.env.send, complete, increment, mark,
            call.puts b.shared.dlq msg attempts⟩ (fun n => n)
          (call.env.wal .retry).1 msg b.shared.wal.entries) := by
  cases hsend : call.env.send with
  | true =>
    obtain ⟨complete, hcomplete⟩ := entries_closeEntry b.shared.wal .complete
      (call.env.wal .complete).2.1 (call.env.wal .complete).2.2 (call.env.wal .complete).1 msg.id
    refine ⟨complete, true, true, 0, fun append => ?_⟩
    rw [steps_of_eq_some (c := .ok) (by simp [Outcomes.choice, hsend]) rfl,
      steps_of_eq_some rfl rfl]
    obtain ⟨hwal, hsent, hdlq, hdead⟩ := sameCopies_pop
    refine ⟨?_, hsent, hdlq, hdead.trans (append_nil _).symm⟩
    rw [hwal]
    exact hcomplete
  | false =>
    rw [steps_of_eq_some (c := .err) (by simp [Outcomes.choice, hsend]) rfl]
    obtain ⟨increment, mark, attempts, hleaves⟩ := leaves_retry
    refine ⟨true, increment, mark, attempts, fun append => ?_⟩
    obtain ⟨hentries, hsent, hdlq, hdead⟩ := hleaves append false true
    exact ⟨hentries, hsent, hdlq, hdead⟩

/-- **A call of the bus is a call of outcomes:** for every message there are results of its
operations, that of the bridge being as it was and that of the queue what its `Put` returns for
some count of attempts, under which the call leaves the same entries, the same messages sent, the
same queue and the same dead letters. -/
theorem handleInbound_refines (channel : String) (b : Backlog) (call : Call) :
    ∃ (r : Results) (attempts : Int64), r.send = call.env.send ∧
      r.put = call.puts b.shared.dlq call.msg attempts ∧
      Leaves b.shared (handleInbound channel b call).1.shared call.msg call.env.put.1
        (r.handleInbound (fun n => n) (call.env.wal .start).1 (call.env.wal .retry).1 call.msg
          b.shared.wal.entries) := by
  by_cases hcontrol : call.msg.isControl = true
  · -- a control message is answered at most
    have hsame : SameCopies b.shared (handleInbound channel b call).1.shared := by
      by_cases hbeat : call.msg.type = .heartbeat
      · rw [handleInbound, maxSteps, steps_of_eq_some (c := call.env.writeAt .start)
          (by simp [Outcomes.choice, hcontrol, hbeat])
          (by simp [Outcomes.writeAt, inboundStep, hbeat, goOn]; rfl), steps_read]
        exact sameCopies_write ..
      · rw [handleInbound, maxSteps, steps_of_eq_some (c := .go)
          (by simp [Outcomes.choice, hcontrol, hbeat])
          (by simp [inboundStep, hcontrol, hbeat, goOn]; rfl), steps_read]
        exact ⟨rfl, rfl, rfl, rfl⟩
    refine ⟨⟨true, call.env.send, true, true, true, _⟩, 0, rfl, rfl, ?_⟩
    unfold Results.handleInbound
    rw [if_pos hcontrol]
    exact ⟨by rw [hsame.wal], by simp [hsame.sent], by simp [hsame.dlq], by simp [hsame.dead]⟩
  have hdata : call.msg.isControl = false := Bool.not_eq_true _ ▸ hcontrol
  have hstart : call.env.choice call.msg .start = call.env.walAt .start := by
    simp [Outcomes.choice, hdata]
  -- the log after the `Append`, and what it returned
  obtain ⟨wal, append, appended, hentries, hstep⟩ :
      ∃ (wal : Wal) (append : Bool) (appended : List Message),
        wal.entries = b.shared.wal.entries.append append (call.env.wal .start).1 call.msg ∧
        inboundStep b.shared call.conn channel call.msg .start (call.env.walAt .start) =
          goOn { b.shared with wal := wal, appended := appended }
            (.handle channel call.msg .push) := by
    refine ⟨_, _, if (b.shared.wal.append (call.env.wal .start).2.1 (call.env.wal .start).2.2
        (call.env.wal .start).1 call.msg).2 then b.shared.appended ++ [call.msg]
      else b.shared.appended, entries_append b.shared.wal (call.env.wal .start).2.1
        (call.env.wal .start).2.2 .., ?_⟩
    simp only [Outcomes.walAt, inboundStep, hdata, Bool.false_eq_true, if_false]
  obtain ⟨m, s, ⟨hwal, hsent, hdlq, hdead⟩, hpush⟩ := sameCopies_push call 0 channel call.msg
    { b with shared := { b.shared with wal := wal, appended := appended } }
  have hcall : handleInbound channel b call =
      steps call (m + 4) ({ b with shared := s }, .handle channel call.msg .send) :=
    (steps_of_eq_some hstart hstep).trans hpush
  obtain ⟨complete, increment, mark, attempts, hleaves⟩ := leaves_send call m channel call.msg
    { b with shared := s }
  have hdlq : s.dlq = b.shared.dlq := hdlq
  refine ⟨⟨append, call.env.send, complete, increment, mark,
    call.puts b.shared.dlq call.msg attempts⟩, attempts, rfl, rfl, ?_⟩
  obtain ⟨hentries', hsent', hdlq', hdead'⟩ := hleaves append
  have hwal' : s.wal.entries = b.shared.wal.entries.append append (call.env.wal .start).1
      call.msg := by
    rw [hwal]
    exact hentries
  unfold Results.handleInbound
  rw [hdata, hcall]
  simp only [hwal', hsent, hdlq, hdead] at hentries' hsent' hdlq' hdead'
  exact ⟨hentries', hsent', hdlq', hdead'⟩

end Backlog

end K8s4Claw.IpcBus
