/-
# Shutdown

The path of a signal in `runServe` (`cmd/ipcbus/main.go`): `shutdown` sends a shutdown message to
the sidecars, waits, flushes the log, closes the bridge and cancels the context.  Then the listener
of `Server.Start` is closed, `Start` waits for the connections, and the process exits; the log is
not flushed again, and nobody calls its `Close`.  All of this is interleaved with the steps of the
bus.

The bridge stays what its `Send` returns, also after `Close`.  A `handleConn` looks at the context
before each `ReadMessage` of its loop, so one that is reading when the context is cancelled handles
one more message (`Process.moved` has the connections that have done something since).

A message that is appended after the flush and cannot be sent any more is only in the buffer of the
log and is lost when the process exits (`appended_after_flush_lost`).  If no send of such a message
fails, nothing is lost (`losesNothing_along`).
-/

import K8s4Claw.IpcBus.Delivery
import K8s4Claw.IpcBus.WalTornTail

namespace K8s4Claw.IpcBus

open List Option
open Lib (Along BufWriter Meets Outcome Pool Table run)

/-! ### The process -/

/-- How far the shutdown is. -/
inductive Stage where
  | running
  | notified
  | flushed
  | bridgeClosed
  | cancelled
  | unlistened
  | exited
  deriving DecidableEq

/-- The log has been flushed. -/
def Stage.afterFlush : Stage → Bool
  | .running | .notified => false
  | .flushed | .bridgeClosed | .cancelled | .unlistened | .exited => true

/-- The context is cancelled. -/
def Stage.afterCancel : Stage → Bool
  | .running | .notified | .flushed | .bridgeClosed => false
  | .cancelled | .unlistened | .exited => true

/-- The bus with its signal handler.  Ghost state: `kept`, the messages that were appended before
the flush. -/
structure Process where
  bus : Bus
  stage : Stage
  /-- The connections that have moved since the context was cancelled. -/
  moved : List ℕ
  kept : List Message

/-- What happens: a step of the bus, the steps of `shutdown`, the listener is closed, the process
exits. -/
inductive Action where
  | bus (ev : Event)
  | sendShutdown (writes : List (String × String × Lib.Time × Bool))
  | flush (o : Outcome) (sync : Bool)
  | closeBridge
  | cancel
  | closeListener
  | exit

/-- A `handleConn` is in its read loop. -/
def Conn.inLoop : Conn → Bool
  | .read _ => true
  | _ => false

namespace Process

/-- Which steps of the bus can still be taken.  The bus may have been restarted before the signal;
no connection is accepted when the listener is closed; and a connection that comes to its
`ReadMessage` after the context was cancelled does not read. -/
def admits (p : Process) : Event → Prop
  | .sendShutdown _ => False
  | .restart _ => p.stage = .running
  | .accept => p.stage ≠ .unlistened
  | .act t (.recv _) => ¬ (t ∈ p.moved ∧ (p.bus.thread t).inLoop = true)
  | _ => True

instance (p : Process) (ev : Event) : Decidable (p.admits ev) := by
  unfold admits
  induction ev using Event.casesOn with
  | act t c => induction c using Choice.casesOn <;> infer_instance
  | _ => infer_instance

/-- The connections that have moved since the context was cancelled, after a step of the bus. -/
def movedBy (p : Process) : Event → List ℕ
  | .act t _ => if p.stage.afterCancel then t :: p.moved else p.moved
  | _ => p.moved

/-- The process as `runServe` starts it with an empty log. -/
def start (config : RouterConfig) : Process where
  bus := started config
  stage := .running
  moved := []
  kept := []

end Process

def processStep (p : Process) : Action → Option Process
  | .bus ev =>
      if p.stage ≠ .exited ∧ p.admits ev then
        (busStep p.bus ev).map fun bus => { p with bus := bus, moved := p.movedBy ev }
      else none
  | .sendShutdown writes =>
      if p.stage = .running then
        (busStep p.bus (.sendShutdown writes)).map fun bus =>
          { p with bus := bus, stage := .notified }
      else none
  | .flush o sync =>
      if p.stage = .notified then
        let s := p.bus.shared
        some { p with
          bus := { p.bus with shared := { s with wal := (s.wal.flush o sync).1 } }
          stage := .flushed
          kept := s.appended }
      else none
  | .closeBridge =>
      if p.stage = .flushed then some { p with stage := .bridgeClosed } else none
  | .cancel => if p.stage = .bridgeClosed then some { p with stage := .cancelled } else none
  | .closeListener => if p.stage = .cancelled then some { p with stage := .unlistened } else none
  | .exit =>
      if p.stage = .unlistened ∧ p.bus.shared.main = .serve ∧
          ∀ t < p.bus.size, p.bus.thread t = .closed then
        some { p with stage := .exited }
      else none

/-! ### What is claimed, and what is assumed -/

/-- The message is sent, or the next start finds it pending in the file of the log. -/
def Process.Saved (p : Process) (msg : Message) : Prop :=
  msg ∈ p.bus.shared.sent ∨
    ∃ wal ∈ Wal.newWAL p.bus.shared.wal.writer.file.bytes, Pending wal msg

/-- When the process has exited, every message that was appended is saved. -/
def LosesNothing (p : Process) : Prop :=
  p.stage = .exited → ∀ msg ∈ p.bus.shared.appended, p.Saved msg

/-- The message of a send that fails. -/
def Conn.failing : Conn → Choice → Option Message
  | .handle _ msg .send, .err => some msg
  | _, _ => none

/-- The message of a send of a `handleConn` that fails in a step of the bus. -/
def Event.failing (P : Bus) : Event → Option Message
  | .act t c => (P.thread t).failing c
  | _ => none

/-- **The flush goes through, and after it no send fails of a message that was appended after it.**
What is assumed of the bus is as in `Delivery`: distinct ids, records that fit, no errors of the log
and of the dead letter queue. -/
def Orderly (p : Process) : Action → Prop
  | .bus ev => Assumed p.bus ev ∧
      (p.stage.afterFlush = true → ∀ msg ∈ ev.failing p.bus, msg ∈ p.kept)
  | .flush o _ => o = .ok
  | _ => True

instance (p : Process) (action : Action) : Decidable (Orderly p action) := by
  unfold Orderly
  cases action <;> infer_instance

/-! ### What is on disk -/

/-- The log is `log`, and its records `done` are in the file. -/
structure OnDisk (wal : Wal) (log done : List WALEntry) : Prop where
  agrees : wal.Agrees log
  prefixed : done <+: log
  file : logFile done <+: wal.writer.file.bytes

/-- The message is pending after these records. -/
def PendingAfter (log : List WALEntry) (msg : Message) : Prop :=
  ∃ e, (Table.empty.replay log : Entries).lookup msg.id = some e ∧ e.msg = some msg

/-- **However much of the log is in the file**, each of these messages is sent, or pending after the
records that are there. -/
def Durable (s : Shared) (kept : List Message) : Prop :=
  ∃ log done, OnDisk s.wal log done ∧
    ∀ log', done <+: log' → log' <+: log → ∀ msg ∈ kept, msg ∈ s.sent ∨ PendingAfter log' msg

/-- What a step of the bus does to the log when nothing fails: nothing, or it writes a record, or it
compacts the log. -/
inductive WalMove (w : Wal) : Wal → Prop where
  | stay : WalMove w w
  | log {e : WALEntry} (hfits : Fits e) : WalMove w (w.logged e)
  | compact {order : List String} (horder : w.entries.Enumerates order) :
      WalMove w
        { w with writer := .new { bytes := logFile (w.pendingEntries order), closed := false } }

section

variable {w w' : Wal} {log done : List WALEntry} {s s' : Shared} {kept : List Message}

theorem pendingAfter_iff (h : w.Agrees log) {msg : Message} :
    PendingAfter log msg ↔ Pending w msg := by
  rw [PendingAfter, h.replay]
  rfl

theorem OnDisk.logged (h : OnDisk w log done) {e : WALEntry} (hfits : Fits e) :
    OnDisk (w.logged e) (log ++ [e]) done where
  agrees := h.agrees.logged hfits
  prefixed := h.prefixed.trans (prefix_append _ _)
  file := h.file.trans (BufWriter.bytes_write .ok .ok w.writer _)

theorem OnDisk.newWAL (h : OnDisk w log done) :
    ∃ log' wal, done <+: log' ∧ log' <+: log ∧
      Wal.newWAL w.writer.file.bytes = some wal ∧ wal.entries = Table.empty.replay log' := by
  have hfile : w.writer.file.bytes <+: logFile log := by
    rw [← h.agrees.contents]
    exact prefix_append ..
  have hrecover := Wal.recover_cut h.agrees.fits hfile
  refine ⟨Wal.completeRecords log w.writer.file.bytes.length, _, ?_,
    Wal.isPrefix_completeRecords .., by rw [Wal.newWAL, hrecover, map_some], rfl⟩
  obtain ⟨rest, rfl⟩ := h.prefixed
  obtain ⟨more, hmore⟩ := h.file
  rw [← hmore, length_append, Wal.completeRecords_append]
  exact prefix_append ..

theorem durable_of_bytes (hagrees : s.wal.Agrees log)
    (hbytes : s.wal.writer.file.bytes = logFile log)
    (hcovered : ∀ msg ∈ kept, msg ∈ s.sent ∨ Pending s.wal msg) : Durable s kept := by
  refine ⟨log, log, ⟨hagrees, prefix_rfl, by rw [hbytes]⟩, fun log' hdone hlog msg hmsg => ?_⟩
  obtain rfl : log' = log := hlog.eq_of_length (le_antisymm hlog.length_le hdone.length_le)
  exact (hcovered msg hmsg).imp_right (pendingAfter_iff hagrees).mpr

/-- **What is durable stays durable**, as long as it is covered in memory. -/
theorem Durable.move (h : Durable s kept) (hwal : WalMove s.wal s'.wal)
    (hsent : ∀ msg ∈ s.sent, msg ∈ s'.sent)
    (hcovered : ∀ msg ∈ kept, msg ∈ s'.sent ∨ Pending s'.wal msg) : Durable s' kept := by
  obtain ⟨log, done, hdisk, hdurable⟩ := h
  have hold : ∀ log', done <+: log' → log' <+: log → ∀ msg ∈ kept,
      msg ∈ s'.sent ∨ PendingAfter log' msg := fun log' hdone hlog msg hmsg =>
    (hdurable log' hdone hlog msg hmsg).imp_left (hsent msg)
  generalize hw : s'.wal = w' at hwal hcovered
  cases hwal with
  | stay => exact ⟨log, done, by rwa [hw], hold⟩
  | @log e hfits =>
    have hlogged := hdisk.logged hfits
    refine ⟨log ++ [e], done, by rwa [hw], fun log' hdone hlog msg hmsg => ?_⟩
    rcases prefix_concat_iff.mp hlog with rfl | hlog
    · exact (hcovered msg hmsg).imp_right (pendingAfter_iff hlogged.agrees).mpr
    · exact hold log' hdone hlog msg hmsg
  | compact horder =>
    have hagrees := hdisk.agrees.compacted horder
    rw [← hw] at hagrees hcovered
    exact durable_of_bytes hagrees (by rw [hw]; rfl) hcovered

end

/-! ### Steps of the bus -/

section

variable {w : Wal} {s s' : Shared} {t : ℕ} {p q : Conn} {c : Choice} {P P' : Bus} {ev : Event}
  {msg : Message}

theorem walMove_closeEntry (h : w.writer.Ready) {state : WALState} {ts id : String}
    (hstate : ∀ e, WALEntry.reading.verb (Wal.closingRecord state ts e) = .remove)
    (hfits : ∀ e ∈ (w.entries.lookup id).map (Wal.closingRecord state ts), Fits e) :
    WalMove w (w.closeEntry state .ok .ok ts id).1 := by
  cases hid : w.entries.lookup id with
  | none =>
    rw [Wal.closeEntry_of_none hid]
    exact .stay
  | some e =>
    rw [Wal.closeEntry_ok h (hstate e) hid]
    exact .log (hfits _ (by rw [hid]; rfl))

theorem walMove_incrementAttempts (h : w.writer.Ready) {ts id : String}
    (hfits : w.RecordFits (.incrementAttempts ts id)) :
    WalMove w (w.incrementAttempts .ok .ok ts id).1 := by
  cases hid : w.entries.lookup id with
  | none =>
    rw [Wal.incrementAttempts_of_none hid]
    exact .stay
  | some e =>
    have hbumped : Fits (Wal.bumped ts e) := hfits _ (by rw [Wal.record, hid]; rfl)
    rw [Wal.incrementAttempts_ok h hid hbumped.marshals]
    exact .log hbumped

theorem ConnMove.walMove (h : ConnMove s t p c s' q) (hready : s.wal.writer.Ready)
    (hok : LogOk Fits s (p.walOp c) c) : WalMove s.wal s'.wal := by
  cases h with
  | append _ msg =>
    obtain ⟨⟨rfl, rfl⟩, hop⟩ := hok.of_wal
    obtain ⟨hfits, hmsg⟩ := hop _ rfl
    obtain ⟨hmsg, -⟩ := hmsg msg rfl
    rw [Wal.append_ok hready _ hmsg]
    exact .log (hfits _ (if_pos hmsg))
  | complete | markDLQ =>
    obtain ⟨⟨rfl, rfl⟩, hop⟩ := hok.of_wal
    exact walMove_closeEntry hready (fun _ => rfl) (hop _ rfl).1
  | retry =>
    obtain ⟨⟨rfl, rfl⟩, hop⟩ := hok.of_wal
    exact walMove_incrementAttempts hready (hop _ rfl).1
  | quiet hsame =>
    rw [hsame.wal]
    exact .stay
  | _ => exact .stay

theorem ReplayMove.walMove {m : Main} (h : ReplayMove s m c s') (hready : s.wal.writer.Ready)
    (hok : LogOk Fits s (m.walOp c) c) : WalMove s.wal s'.wal := by
  cases h with
  | complete =>
    obtain ⟨⟨rfl, rfl⟩, hop⟩ := hok.of_wal
    exact walMove_closeEntry hready (fun _ => rfl) (hop _ rfl).1
  | _ => exact .stay

def Event.restarts : Event → Bool
  | .restart _ => true
  | _ => false

theorem BusMove.walMove (h : BusMove P ev P') {log : List WALEntry}
    (hlog : P.shared.wal.Agrees log) (hok : Assumed P ev) (hrestart : ev.restarts = false) :
    WalMove P.shared.wal P'.shared.wal := by
  cases h with
  | accept => exact .stay
  | act ht hmove => exact hmove.walMove hlog.ready hok.1
  | replay hmove => exact hmove.walMove hlog.ready hok
  | quiet _ hsame =>
    rw [hsame.wal]
    exact .stay
  | @compact o _ _ horder =>
    obtain rfl : o = .ok := hok
    rw [Wal.compact_ok hlog.ready hlog.writable]
    exact .compact horder
  | restart => cases hrestart

/-- How messages get on in a step in which the send of `failed` fails: what is appended is in hand,
and what is in hand and not sent stays so until its send. -/
structure Progress (P P' : Bus) (failed : Option Message) : Prop where
  sent : ∀ msg ∈ P.shared.sent, msg ∈ P'.shared.sent
  kept : ∀ msg ∈ P.shared.appended, msg ∈ P'.shared.appended
  appended : ∀ msg ∈ P'.shared.appended,
    msg ∈ P.shared.appended ∨ ∃ t, jobs P' t = some (msg, .unsent)
  unsent : ∀ t msg, jobs P t = some (msg, .unsent) →
    jobs P' t = some (msg, .unsent) ∨ msg ∈ P'.shared.sent ∨ failed = some msg

theorem progress_of_eq {failed : Option Message} (hjobs : jobs P' = jobs P)
    (hsent : ∀ msg ∈ P.shared.sent, msg ∈ P'.shared.sent)
    (happended : P'.shared.appended = P.shared.appended) : Progress P P' failed where
  sent := hsent
  kept msg hmsg := by rwa [happended]
  appended msg hmsg := .inl (by rwa [happended] at hmsg)
  unsent t msg ht := .inl (by rwa [hjobs])

section

variable (h : ConnMove s t p c s' q)

include h

theorem ConnMove.sent_subset : ∀ msg ∈ s.sent, msg ∈ s'.sent := by
  intro msg hmsg
  cases h with
  | sendOk => exact mem_append_left _ hmsg
  | quiet hsame => rwa [hsame.sent]
  | _ => exact hmsg

theorem ConnMove.appended :
    s'.appended = s.appended ∨
      ∃ msg, s'.appended = s.appended ++ [msg] ∧ q.job = some (msg, .unsent) := by
  cases h with
  | append _ msg =>
    split_ifs
    · exact .inr ⟨msg, rfl, rfl⟩
    · exact .inl rfl
  | quiet hsame => exact .inl hsame.appended
  | _ => exact .inl rfl

theorem ConnMove.unsent (hmsg : p.job = some (msg, .unsent)) :
    q.job = some (msg, .unsent) ∨ msg ∈ s'.sent ∨ p.failing c = some msg := by
  cases h with
  | sendOk =>
    obtain ⟨rfl, -⟩ := Prod.mk.inj (some.inj hmsg)
    exact .inr (.inl (mem_append_right _ (mem_singleton_self _)))
  | sendErr =>
    obtain ⟨rfl, -⟩ := Prod.mk.inj (some.inj hmsg)
    exact .inr (.inr rfl)
  | quiet _ _ hjob => exact .inl (hjob.trans hmsg)
  | _ => cases hmsg

end

theorem ConnMove.progress (h : ConnMove P.shared t (P.thread t) c s' q) :
    Progress P (P.advance t ⟨s', q, none⟩) ((P.thread t).failing c) := by
  have hself : jobs (P.advance t ⟨s', q, none⟩) t = q.job := by
    rw [jobs_advance, Function.update_self]
  have hother {u : ℕ} (hu : u ≠ t) : jobs (P.advance t ⟨s', q, none⟩) u = jobs P u := by
    rw [jobs_advance, Function.update_of_ne hu]
  refine ⟨h.sent_subset, fun msg hmsg => ?_, fun msg hmsg => ?_, fun u msg hu => ?_⟩
  · rw [Pool.advance_shared]
    rcases h.appended with heq | ⟨m, heq, -⟩
    · rwa [heq]
    · rw [heq]
      exact mem_append_left _ hmsg
  · rw [Pool.advance_shared] at hmsg
    rcases h.appended with heq | ⟨m, heq, hjob⟩
    · exact .inl (by rwa [heq] at hmsg)
    · rw [heq] at hmsg
      rcases mem_append.mp hmsg with hmsg | hmsg
      · exact .inl hmsg
      · obtain rfl := mem_singleton.mp hmsg
        exact .inr ⟨t, hself.trans hjob⟩
  · by_cases hut : u = t
    · subst hut
      rw [hself]
      exact h.unsent hu
    · exact .inl ((hother hut).trans hu)

/-- **How messages get on in a step of the bus.** -/
theorem BusMove.progress (h : BusMove P ev P') (hdel : BusDelivering P)
    (hrestart : ev.restarts = false) : Progress P P' (ev.failing P) := by
  cases h with
  | accept => exact progress_of_eq (jobs_accept hdel) (fun _ => id) rfl
  | act ht hmove => exact hmove.progress
  | @replay c s' hmove =>
    generalize P.shared.main = m at hmove
    cases hmove with
    | sendOk => exact progress_of_eq rfl (fun _ => mem_append_left _) rfl
    | _ => exact progress_of_eq rfl (fun _ => id) rfl
  | quiet _ hsame =>
    exact progress_of_eq rfl (fun msg hmsg => by rwa [hsame.sent]) hsame.appended
  | compact => exact progress_of_eq rfl (fun _ => id) rfl
  | restart => cases hrestart

end

/-! ### Steps of the process -/

/-- How things are after the flush: the messages that were appended before it are durable, and those
that were appended after it are sent or about to be. -/
structure Flushed (P : Bus) (kept : List Message) : Prop where
  durable : Durable P.shared kept
  early : ∀ msg ∈ kept, msg ∈ P.shared.appended
  late : ∀ msg ∈ P.shared.appended,
    msg ∈ kept ∨ msg ∈ P.shared.sent ∨ ∃ t, jobs P t = some (msg, .unsent)

/-- **The invariant of the shutdown.** -/
structure Secured (p : Process) : Prop where
  delivering : BusDelivering p.bus
  flushed : p.stage.afterFlush = true → Flushed p.bus p.kept
  exited : p.stage = .exited → ∀ t, jobs p.bus t = none

section

variable {P P' : Bus} {ev : Event} {kept : List Message} {p p' : Process} {a : Action}

theorem Flushed.step (h : Flushed P kept) (hdel : BusDelivering P) (hok : Assumed P ev)
    (hfailing : ∀ msg ∈ ev.failing P, msg ∈ kept) (hrestart : ev.restarts = false)
    (hs : busStep P ev = some P') : Flushed P' kept := by
  have hmove := busStep_move hs
  have hprogress := hmove.progress hdel hrestart
  have hkept : ∀ msg ∈ kept, msg ∈ P'.shared.appended := fun msg hmsg =>
    hprogress.kept msg (h.early msg hmsg)
  have hcovered := (busDelivering_step hdel hok hs).delivering.covered
  obtain ⟨log, hlog⟩ := hdel.delivering.agrees
  refine ⟨h.durable.move (hmove.walMove hlog hok hrestart) hprogress.sent
    fun msg hmsg => hcovered msg (hkept msg hmsg), hkept, fun msg hmsg => ?_⟩
  rcases hprogress.appended msg hmsg with hold | hnew
  · rcases h.late msg hold with hk | hsent | ⟨t, ht⟩
    · exact .inl hk
    · exact .inr (.inl (hprogress.sent msg hsent))
    · rcases hprogress.unsent t msg ht with hjob | hsent | hfailed
      · exact .inr (.inr ⟨t, hjob⟩)
      · exact .inr (.inl hsent)
      · exact .inl (hfailing msg hfailed)
  · exact .inr (.inr hnew)

theorem flushed_flush (h : BusDelivering P) (sync : Bool) :
    Flushed { P with shared := { P.shared with wal := (P.shared.wal.flush .ok sync).1 } }
        P.shared.appended ∧
      BusDelivering
        { P with shared := { P.shared with wal := (P.shared.wal.flush .ok sync).1 } } := by
  obtain ⟨log, hlog⟩ := h.delivering.agrees
  have hflush : (P.shared.wal.flush .ok sync).1 = P.shared.wal.flushed :=
    congrArg Prod.fst (Wal.flush_ok hlog.ready)
  rw [hflush]
  refine ⟨⟨?_, fun _ => id, fun _ => .inl⟩, ?_⟩
  · exact durable_of_bytes hlog.flushed hlog.contents h.delivering.covered
  · exact ⟨h.delivering.congr ⟨log, hlog.flushed⟩ rfl rfl rfl rfl, h.parked, h.beyond⟩

theorem restarts_of_admits (h : p.admits ev) (hstage : p.stage.afterFlush = true) :
    ev.restarts = false := by
  cases ev with
  | restart =>
    have hrunning : p.stage = .running := h
    rw [hrunning] at hstage
    cases hstage
  | _ => rfl

theorem Secured.stage (h : Secured p) {stage : Stage} (hbefore : p.stage.afterFlush = true)
    (hexited : stage = .exited → ∀ t, jobs p.bus t = none) : Secured { p with stage := stage } :=
  ⟨h.delivering, fun _ => h.flushed hbefore, hexited⟩

/-- **Every orderly step keeps the invariant.** -/
theorem secured_step (h : Secured p) (hok : Orderly p a) (hs : processStep p a = some p') :
    Secured p' := by
  cases a with
  | bus =>
    simp only [processStep] at hs
    split_ifs at hs with hstage
    obtain ⟨P', hP', rfl⟩ := map_eq_some_iff.mp hs
    refine ⟨busDelivering_step h.delivering hok.1 hP', fun hflushed => ?_,
      fun hexited => absurd hexited hstage.1⟩
    exact (h.flushed hflushed).step h.delivering hok.1 (hok.2 hflushed)
      (restarts_of_admits hstage.2 hflushed) hP'
  | sendShutdown writes =>
    simp only [processStep] at hs
    split_ifs at hs
    obtain ⟨P', hP', rfl⟩ := map_eq_some_iff.mp hs
    have hassumed : Assumed p.bus (.sendShutdown writes) := trivial
    refine ⟨busDelivering_step h.delivering hassumed hP', fun hflushed => ?_, fun hexited => ?_⟩
    · cases hflushed
    · cases hexited
  | flush o sync =>
    obtain rfl : o = .ok := hok
    simp only [processStep] at hs
    split_ifs at hs
    cases hs
    obtain ⟨hflushed, hdel⟩ := flushed_flush h.delivering sync
    refine ⟨hdel, fun _ => hflushed, fun hexited => ?_⟩
    cases hexited
  | closeBridge | cancel | closeListener =>
    simp only [processStep] at hs
    split_ifs at hs with hstage
    cases hs
    exact h.stage (by rw [hstage]; rfl) (by simp)
  | exit =>
    simp only [processStep] at hs
    split_ifs at hs with hexit
    cases hs
    refine h.stage (by rw [hexit.1]; rfl) fun _ => ?_
    refine jobs_none_of_idle h.delivering fun t ht => ?_
    rw [hexit.2.2 t ht]
    simp [Conn.busy]

theorem Secured.losesNothing (h : Secured p) : LosesNothing p := by
  intro hexited msg hmsg
  have hflushed := h.flushed (by rw [hexited]; rfl)
  rcases hflushed.late msg hmsg with hkept | hsent | ⟨t, ht⟩
  · obtain ⟨log, done, hdisk, hdurable⟩ := hflushed.durable
    obtain ⟨log', wal, hdone, hlog, hwal, hentries⟩ := hdisk.newWAL
    refine (hdurable log' hdone hlog msg hkept).imp_right fun hpending => ⟨wal, hwal, ?_⟩
    rw [Pending, hentries]
    exact hpending
  · exact .inl hsent
  · exact absurd (ht.symm.trans (h.exited hexited t)) (by simp)

end

/-- **An orderly shutdown loses nothing.**  In every run of orderly steps, whatever was appended by
the time the process exits is sent, or found pending in the file by the next start. -/
theorem losesNothing_along {config : RouterConfig} {actions : List Action}
    (h : Meets processStep Orderly (Process.start config) actions) :
    Along processStep LosesNothing (Process.start config) actions :=
  Lib.along_of_meets (fun _ _ _ hp hok hs => secured_step hp hok hs)
    (fun _ hp => hp.losesNothing)
    ⟨busDelivering_started config, by simp [Process.start, Stage.afterFlush],
      by simp [Process.start]⟩ h

def connects : List Action := (.replay .go :: registers 0 "slack").map .bus

/-- A data message arrives, up to its `bridge.Send`. -/
def arrives : List Action := (receives 0 (.plain "m1" "slack")).map .bus

/-- The send of the message fails. -/
def sendFails : List Action := [.bus (.act 0 .err), .bus (.act 0 (.wal "t2" .ok .ok))]

/-- The first half of `shutdown`. -/
def flushes : List Action := [.sendShutdown [("slack", "s", .zero, true)], .flush .ok true]

/-- The context is cancelled, the connection ends, and the process exits. -/
def exits : List Action :=
  [.cancel, .bus (.act 0 .err), .bus (.act 0 .go), .bus (.act 0 .go), .closeListener, .exit]

/-- The message arrives before the signal, and its send fails: it is recovered. -/
def drained : List Action := connects ++ arrives ++ sendFails ++ flushes ++ [.closeBridge] ++ exits

theorem losesNothing_along_drained :
    (∃ p ∈ run processStep (Process.start smallConfig) drained, p.stage = .exited ∧
      p.bus.shared.appended = [.plain "m1" "slack"]) ∧
    Along processStep LosesNothing (Process.start smallConfig) drained :=
  ⟨by decide +kernel, losesNothing_along (by decide +kernel)⟩

/-- The message arrives after the flush, and its send finds the bridge closed. -/
def tooLate : List Action := connects ++ flushes ++ arrives ++ [.closeBridge] ++ sendFails ++ exits

/-- **A message that is appended after the flush is lost.**  The process exits; the message was
appended, was not sent, and the next start does not find it in the file. -/
theorem appended_after_flush_lost :
    ∃ p ∈ run processStep (Process.start smallConfig) tooLate,
      p.stage = .exited ∧ Message.plain "m1" "slack" ∈ p.bus.shared.appended ∧
      Message.plain "m1" "slack" ∉ p.bus.shared.sent ∧
      ∃ wal ∈ Wal.newWAL p.bus.shared.wal.writer.file.bytes, wal.entries.lookup "m1" = none := by
  decide +kernel

end K8s4Claw.IpcBus
