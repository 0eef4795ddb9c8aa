/-
# One channel and the others

The log and the dead letter queue (`internal/ipcbus/wal.go`, `dlq.go`) are keyed by the id of a
message, which the sidecar that sends it chooses.  A message of channel `A` with the id of a pending
message of channel `B` replaces its entry, and when it is delivered it completes it: the message of
`B` is gone (`completed_by_another_channel`).

If the data messages of `A` have ids that no other channel uses, then the run of the bus and the
same run without the messages of `A` (`Lib.erased`) agree about everybody else
(`isolated_of_separate`).  The queue is shared, so this needs that it never has to evict a letter,
and that it can read those of `A` (`Roomy`).  The two runs differ in what the file of the log has,
so they do not compact it at the same times; compactions are left out with the messages of `A`.
-/

import K8s4Claw.IpcBus.Delivery

namespace K8s4Claw.IpcBus

open List Option Function
open Lib (Effect Meets Outcome Pool erased run)

section

variable (A : String) (mine : String → Bool)

/-- A step of a `handleConn` of channel `A` that has to do with a message: reading it, or a step of
its `HandleInbound`. -/
def Conn.sends : Conn → Choice → Bool
  | .read channel, .recv _ => channel = A
  | .handle channel _ _, _ => channel = A
  | _, _ => false

/-- What is left out: the messages of `A`, and compactions. -/
def dropped (P : Bus) : Event → Bool
  | .act t c => (P.thread t).sends A c
  | .compact _ _ => true
  | _ => false

/-- No file operation of the log fails, and the bus is not restarted. -/
def Traffic : Event → Prop
  | .act _ c => ∀ o ∈ c.outcomes, o = .ok
  | .replay c => ∀ o ∈ c.outcomes, o = .ok
  | .compact o _ => o = .ok
  | .restart _ => False
  | _ => True

instance (ev : Event) : Decidable (Traffic ev) := by
  unfold Traffic
  induction ev using Event.casesOn <;> infer_instance

/-- The data message that a `handleConn` reads, and its channel. -/
def Conn.reads : Conn → Choice → Option (String × Message)
  | .read channel, .recv msg => if msg.isControl then none else some (channel, msg)
  | _, _ => none

/-- **The data messages of `A` have ids of `A`, and those of the other channels have not.** -/
def Separate (P : Bus) : Event → Prop
  | .act t c => ∀ r ∈ (P.thread t).reads c, mine r.2.id = true ↔ r.1 = A
  | _ => True

instance (P : Bus) (ev : Event) : Decidable (Separate A mine P ev) := by
  unfold Separate
  induction ev using Event.casesOn <;> infer_instance

/-- The message a step puts into the dead letter queue, and its channel. -/
def Conn.puts : Conn → Choice → Option (String × Message)
  | .handle channel msg (.putDLQ _), .put _ _ => some (channel, msg)
  | _, _ => none

/-- **The dead letter queue has room for every letter, and can read those of `A`.** -/
def Roomy (P : Bus) : Event → Prop
  | .act t c => ∀ r ∈ (P.thread t).puts c,
      P.shared.dlq.size < P.shared.dlq.maxSize ∧ (r.1 = A → r.2.Nestable)
  | _ => True

instance (P : Bus) (ev : Event) : Decidable (Roomy A P ev) := by
  unfold Roomy
  induction ev using Event.casesOn <;> infer_instance

/-- The messages that are not of `A`. -/
def others (messages : List Message) : List Message := messages.filter fun msg => !mine msg.id

/-- The two logs have the same entries under the ids of the others. -/
structure SameLog (w w' : Wal) : Prop where
  ready : w.writer.Ready
  ready' : w'.writer.Ready
  writable : w.Writable
  writable' : w'.Writable
  entries : ∀ id, mine id = false → w'.entries.lookup id = w.entries.lookup id

/-- The second queue holds the letters of the first that are not of `A`. -/
structure SameQueue (d d' : DLQ) : Prop where
  maxSize : d'.maxSize = d.maxSize
  ttl : d'.ttl = d.ttl
  sound : d.Sound
  sound' : d'.Sound
  holds : ∀ l, d'.Holds l ↔ d.Holds l ∧ mine l.msg.id = false
  nestable : ∀ l, d.Holds l → mine l.msg.id = true → l.msg.Nestable

/-- The two routers are the same for all but `A`. -/
structure SameOthers (s s' : Shared) : Prop where
  config : s'.config = s.config
  sidecars : s'.sidecars = s.sidecars
  outbound : s'.outbound = s.outbound
  main : s'.main = s.main
  settled : s.main = .replay [] ∨ s.main = .serve
  keys : A ∈ s'.buffers ↔ A ∈ s.buffers
  buffers : ∀ channel, channel ≠ A → s'.buffers.lookup channel = s.buffers.lookup channel
  log : SameLog mine s.wal s'.wal
  dlq : SameQueue mine s.dlq s'.dlq
  dead : s'.dead.filter (fun d => !mine d.1.id) = s.dead.filter fun d => !mine d.1.id
  appended : others mine s'.appended = others mine s.appended
  sent : others mine s'.sent = others mine s.sent
  failed : others mine s'.failed = others mine s.failed

/-- Where a `handleConn` is when the messages of `A` are left out. -/
def Conn.parked : Conn → Conn
  | .handle channel msg pc => if channel = A then .read A else .handle channel msg pc
  | p => p

/-- A message in hand has an id of its channel, unless it is a control message. -/
def Conn.Apart : Conn → Prop
  | .handle channel msg pc =>
      msg.isControl = true ∧ pc = .start ∨ (mine msg.id = true ↔ channel = A)
  | _ => True

/-- The bus, and the bus without the messages of `A`. -/
structure Twin (P Q : Bus) : Prop where
  shared : SameOthers A mine P.shared Q.shared
  size : Q.size = P.size
  thread : ∀ t, Q.thread t = (P.thread t).parked A
  apart : ∀ t, (P.thread t).Apart A mine

end

/-! ### The log -/

section

variable {mine : String → Bool} {w w' w₁ w₁' : Wal} {e : WALEntry} {id : String}

variable (h : SameLog mine w w')

include h

theorem SameLog.logged (he : e.Marshals) : SameLog mine (w.logged e) (w'.logged e) where
  ready := Lib.BufWriter.ready_write h.ready _
  ready' := Lib.BufWriter.ready_write h.ready' _
  writable := Wal.writable_logged h.writable he
  writable' := Wal.writable_logged h.writable' he
  entries k hk := Lib.Table.lookup_apply_congr _ (h.entries k hk)

theorem SameLog.logged_left (he : e.Marshals) (hid : mine e.id = true) :
    SameLog mine (w.logged e) w' where
  ready := Lib.BufWriter.ready_write h.ready _
  ready' := h.ready'
  writable := Wal.writable_logged h.writable he
  writable' := h.writable'
  entries k hk := by
    have hne : e.id ≠ k := by
      rintro rfl
      cases hid.symm.trans hk
    rw [h.entries k hk, Wal.logged, Lib.Table.lookup_apply_of_ne _ hne]

/-- A call about an id of the others is the same call for both logs. -/
theorem SameLog.step (op : Wal.Op) (hid : mine id = false) (hkey : op.key = some id)
    (hs : Wal.step w op = some w₁) (hs' : Wal.step w' op = some w₁') : SameLog mine w₁ w₁' := by
  have hrecord := Wal.record_congr hkey (h.entries id hid)
  cases hr : Wal.record w op with
  | none =>
    obtain rfl := some.inj ((Wal.step_of_record_none hkey hr).symm.trans hs)
    obtain rfl := some.inj ((Wal.step_of_record_none hkey (hrecord.trans hr)).symm.trans hs')
    exact h
  | some e =>
    have hstep' := Wal.step_of_record h.ready' h.writable' (hrecord.trans hr)
    obtain rfl := some.inj ((Wal.step_of_record h.ready h.writable hr).symm.trans hs)
    obtain rfl := some.inj (hstep'.symm.trans hs')
    exact h.logged (Wal.marshals_of_record h.writable hr)

/-- A call about an id of `A` does not touch what the two logs have in common. -/
theorem SameLog.step_left (op : Wal.Op) (hid : mine id = true) (hkey : op.key = some id)
    (hs : Wal.step w op = some w₁) : SameLog mine w₁ w' := by
  cases hr : Wal.record w op with
  | none =>
    obtain rfl := some.inj ((Wal.step_of_record_none hkey hr).symm.trans hs)
    exact h
  | some e =>
    obtain rfl := some.inj ((Wal.step_of_record h.ready h.writable hr).symm.trans hs)
    obtain rfl := some.inj (hkey.symm.trans (Wal.key_of_record hr))
    exact h.logged_left (Wal.marshals_of_record h.writable hr) hid

theorem SameLog.append_snd (ts : String) (msg : Message) :
    (w'.append .ok .ok ts msg).2 = (w.append .ok .ok ts msg).2 := by
  by_cases hmsg : msg.Marshals
  · rw [Wal.append_ok h.ready ts hmsg, Wal.append_ok h.ready' ts hmsg]
  · rw [Wal.append_of_not_marshals _ _ hmsg, Wal.append_of_not_marshals _ _ hmsg]

theorem SameLog.incrementAttempts_snd (hid : mine id = false) (ts : String) :
    (w'.incrementAttempts .ok .ok ts id).2 = (w.incrementAttempts .ok .ok ts id).2 := by
  have hentry := h.entries id hid
  cases hlookup : w.entries.lookup id with
  | none =>
    rw [hlookup] at hentry
    rw [Wal.incrementAttempts_of_none hlookup, Wal.incrementAttempts_of_none hentry]
  | some e =>
    rw [hlookup] at hentry
    have he := h.writable id e hlookup
    rw [Wal.incrementAttempts_ok h.ready hlookup he, Wal.incrementAttempts_ok h.ready' hentry he]

theorem SameLog.compact_left (order : List String) : SameLog mine (w.compact .ok order).1 w' := by
  rw [Wal.compact_ok h.ready h.writable]
  exact ⟨Lib.BufWriter.ready_new _, h.ready', h.writable, h.writable', h.entries⟩

end

/-! ### The queue -/

section

variable {mine : String → Bool} {d d' : DLQ} {l : Letter}

variable (h : SameQueue mine d d')

include h

theorem SameQueue.size_le : d'.size ≤ d.size := by
  refine (d'.messages.keys_nodup.subperm fun k hk => ?_).length_le
  obtain ⟨l, hl, rfl⟩ := h.sound'.exists_holds hk
  exact DLQ.mem_of_holds ((h.holds l).mp hl).1

/-- A letter of another channel is put into both queues. -/
theorem SameQueue.putOk (hl : l.msg.Marshals) (hid : mine l.msg.id = false)
    (hd : d.evictee = none) (hd' : d'.evictee = none) :
    SameQueue mine (d.putOk l) (d'.putOk l) where
  maxSize := h.maxSize
  ttl := h.ttl
  sound := h.sound.putOk hl
  sound' := h.sound'.putOk hl
  holds m := by
    rw [DLQ.holds_putOk hl, DLQ.holds_putOk hl, hd, hd', h.holds]
    constructor
    · rintro (rfl | ⟨hne, hev, hm, hmine⟩)
      · exact ⟨.inl rfl, hid⟩
      · exact ⟨.inr ⟨hne, hev, hm⟩, hmine⟩
    · rintro ⟨rfl | ⟨hne, hev, hm⟩, hmine⟩
      · exact .inl rfl
      · exact .inr ⟨hne, hev, hm, hmine⟩
  nestable m hm hmine := by
    rcases (DLQ.holds_putOk hl).mp hm with rfl | ⟨-, -, hm⟩
    · cases hid.symm.trans hmine
    · exact h.nestable m hm hmine

/-- A letter of `A` is put into the first queue only. -/
theorem SameQueue.putOk_left (hl : l.msg.Marshals) (hid : mine l.msg.id = true)
    (hnestable : l.msg.Nestable) (hd : d.evictee = none) : SameQueue mine (d.putOk l) d' where
  maxSize := h.maxSize
  ttl := h.ttl
  sound := h.sound.putOk hl
  sound' := h.sound'
  holds m := by
    rw [h.holds, DLQ.holds_putOk hl, hd]
    constructor
    · rintro ⟨hm, hmine⟩
      refine ⟨.inr ⟨fun heq => ?_, by simp, hm⟩, hmine⟩
      rw [heq, hid] at hmine
      cases hmine
    · rintro ⟨rfl | ⟨-, -, hm⟩, hmine⟩
      · cases hid.symm.trans hmine
      · exact ⟨hm, hmine⟩
  nestable m hm hmine := by
    rcases (DLQ.holds_putOk hl).mp hm with rfl | ⟨-, -, hm⟩
    · exact hnestable
    · exact h.nestable m hm hmine

/-- The letters of `A` do not keep the others from being purged. -/
theorem SameQueue.purge (now : Lib.Utc) :
    SameQueue mine (d.after (.purgeExpired now)) (d'.after (.purgeExpired now)) := by
  by_cases hd : d.Legible
  · have hd' : d'.Legible := fun l hl => hd l ((h.holds l).mp hl).1
    refine ⟨?_, ?_, h.sound.after hd _, h.sound'.after hd' _, fun l => ?_, fun l hl hmine => ?_⟩
    · rw [h.sound.maxSize_after hd, h.sound'.maxSize_after hd', h.maxSize]
    · rw [h.sound.ttl_after hd, h.sound'.ttl_after hd', h.ttl]
    · rw [h.sound.holds_purge hd, h.sound'.holds_purge hd', h.holds, DLQ.Expired, DLQ.Expired,
        h.ttl]
      tauto
    · exact h.nestable l ((h.sound.holds_purge hd now).mp hl).1 hmine
  · have hd' : ¬ d'.Legible := fun hd' => hd fun l hl => by
      cases hmine : mine l.msg.id with
      | true => exact h.nestable l hl hmine
      | false => exact hd' l ((h.holds l).mpr ⟨hl, hmine⟩)
    rw [h.sound.purge_of_not_legible hd, h.sound'.purge_of_not_legible hd']
    exact h

end

/-! ### The router -/

section

variable {A channel : String} {mine : String → Bool} {s s' : Shared} {msg : Message}

theorem others_append {messages messages' : List Message}
    (h : others mine messages' = others mine messages) (msg : Message) :
    others mine (messages' ++ [msg]) = others mine (messages ++ [msg]) := by
  unfold others at h ⊢
  rw [filter_append, filter_append, h]

theorem others_append_of_mine (messages : List Message) (h : mine msg.id = true) :
    others mine (messages ++ [msg]) = others mine messages := by
  unfold others
  simp [h]

namespace SameOthers

variable (h : SameOthers A mine s s')

include h

theorem write (conn : ℕ) (ok : Bool) (msg : Message) :
    SameOthers A mine (s.write conn ok msg) (s'.write conn ok msg) := by
  unfold Shared.write
  split_ifs
  · exact { h with }
  · exact h

theorem write_left (conn : ℕ) (ok : Bool) (msg : Message) :
    SameOthers A mine (s.write conn ok msg) s' := by
  unfold Shared.write
  split_ifs
  · exact { h with }
  · exact h

theorem mem_buffers (channel : String) : channel ∈ s'.buffers ↔ channel ∈ s.buffers := by
  by_cases hA : channel = A
  · rw [hA]
    exact h.keys
  · rw [← Finmap.lookup_isSome, ← Finmap.lookup_isSome, h.buffers channel hA]

theorem insertBuffer (channel : String) (buf : RingBuffer Message) :
    SameOthers A mine { s with buffers := s.buffers.insert channel buf }
      { s' with buffers := s'.buffers.insert channel buf } := by
  refine { h with keys := ?_, buffers := fun k hk => ?_ }
  · simp only [Finmap.mem_insert, h.keys]
  · by_cases hkc : k = channel
    · rw [hkc, Finmap.lookup_insert, Finmap.lookup_insert]
    · rw [Finmap.lookup_insert_of_ne _ hkc, Finmap.lookup_insert_of_ne _ hkc, h.buffers k hk]

theorem insertBuffer_left {buf : RingBuffer Message} (hA : s.buffers.lookup A = some buf)
    (buf' : RingBuffer Message) :
    SameOthers A mine { s with buffers := s.buffers.insert A buf' } s' := by
  refine { h with keys := ?_, buffers := fun k hk => ?_ }
  · have hmem : A ∈ s.buffers := Finmap.lookup_isSome.mp (by rw [hA]; rfl)
    simp only [Finmap.mem_insert, h.keys, hmem, or_true]
  · rw [Finmap.lookup_insert_of_ne _ hk, h.buffers k hk]

theorem register (channel : String) (conn : ℕ) :
    SameOthers A mine (s.register channel conn) (s'.register channel conn) := by
  have hsidecars : s'.sidecars.insert channel conn = s.sidecars.insert channel conn := by
    rw [h.sidecars]
  unfold Shared.register
  by_cases hmem : channel ∈ s.buffers
  · rw [if_pos hmem, if_pos ((h.mem_buffers channel).mpr hmem)]
    exact { h with sidecars := hsidecars }
  · rw [if_neg hmem, if_neg (mt (h.mem_buffers channel).mp hmem), h.config]
    exact { h.insertBuffer channel _ with config := rfl, sidecars := hsidecars }

theorem unregister (channel : String) :
    SameOthers A mine (s.unregister channel) (s'.unregister channel) :=
  { h with sidecars := congrArg (fun m => m.erase channel) h.sidecars }

/-- A `Put` of another channel does the same in both routers, if the queue has room. -/
theorem putDLQ (hid : mine msg.id = false) (hroom : s.dlq.size < s.dlq.maxSize) (now : Lib.Utc)
    (ok : Bool) (n : Int64) :
    SameOthers A mine (s.putDLQ now ok msg n) (s'.putDLQ now ok msg n) := by
  have hroom' : s'.dlq.size < s'.dlq.maxSize := by
    have hle := h.dlq.size_le
    rw [h.dlq.maxSize]
    omega
  obtain ⟨hput, hevictee⟩ := DLQ.put_of_room hroom ⟨msg, n, now⟩
  obtain ⟨hput', hevictee'⟩ := DLQ.put_of_room hroom' ⟨msg, n, now⟩
  unfold Shared.putDLQ
  rw [hput, hput']
  by_cases hok : ok = true ∧ Letter.Accepted ⟨msg, n, now⟩
  · obtain ⟨rfl, hl⟩ := hok
    simp only [if_pos hl, if_true, getD_some, isSome_some]
    exact { h with
      dlq := h.dlq.putOk hl.1 hid hevictee hevictee'
      dead := by rw [filter_append, filter_append, h.dead] }
  · simp only [← ite_and, if_neg hok]
    exact { h with }

theorem putDLQ_left (hid : mine msg.id = true) (hroom : s.dlq.size < s.dlq.maxSize)
    (hnestable : msg.Nestable) (now : Lib.Utc) (ok : Bool) (n : Int64) :
    SameOthers A mine (s.putDLQ now ok msg n) s' := by
  obtain ⟨hput, hevictee⟩ := DLQ.put_of_room hroom ⟨msg, n, now⟩
  unfold Shared.putDLQ
  rw [hput]
  by_cases hok : ok = true ∧ Letter.Accepted ⟨msg, n, now⟩
  · obtain ⟨rfl, hl⟩ := hok
    simp only [if_pos hl, if_true, getD_some, isSome_some]
    exact { h with
      dlq := h.dlq.putOk_left hl.1 hid hnestable hevictee
      dead := by simp [h.dead, hid] }
  · simp only [← ite_and, if_neg hok]
    exact { h with }

theorem sendShutdown (writes : List (String × String × Lib.Time × Bool)) :
    SameOthers A mine (IpcBus.sendShutdown s writes) (IpcBus.sendShutdown s' writes) := by
  unfold IpcBus.sendShutdown
  induction writes generalizing s s' with
  | nil => exact h
  | cons w _ ih =>
    obtain ⟨name, -, -, ok⟩ := w
    simp only [foldl_cons]
    rw [h.sidecars]
    cases s.sidecars.lookup name with
    | none => exact ih h
    | some conn => exact ih (h.write conn ok _)

end SameOthers

end

/-! ### Steps of a `handleConn` -/

/-- The other run answers the step `e` with the same step. -/
def Answers (A : String) (mine : String → Bool) (o : Option ConnStep) (e : ConnStep) : Prop :=
  e.spawn = none ∧ ∃ s', o = some ⟨s', e.next.parked A, none⟩ ∧ SameOthers A mine e.shared s'

/-- The other run need not answer the step `e` of a goroutine that was at `p`. -/
def Ignores (A : String) (mine : String → Bool) (s' : Shared) (p : Conn) (e : ConnStep) : Prop :=
  e.spawn = none ∧ e.next.parked A = p.parked A ∧ SameOthers A mine e.shared s'

section

variable {A channel : String} {mine : String → Bool} {s s' s₁ s₁' : Shared} {t : ℕ} {p q : Conn}
  {c : Choice} {msg : Message} {pc : InboundPc} {e : ConnStep}

theorem parked_handle (h : channel ≠ A) :
    (Conn.handle channel msg pc).parked A = .handle channel msg pc := if_neg h

theorem parked_handle_self : (Conn.handle A msg pc).parked A = .read A := if_pos rfl

section

variable (h : goOn s₁ q = some e)

include h

theorem next_of_goOn : e.next = q := by rw [eq_of_goOn h]

theorem parked_goOn (hq : q.parked A = q) : e.next.parked A = e.next := by
  rwa [next_of_goOn h]

theorem answers_goOn (hq : e.next.parked A = e.next) (hsame : SameOthers A mine s₁ s₁') :
    Answers A mine (goOn s₁' q) e := by
  obtain rfl := eq_of_goOn h
  refine ⟨rfl, s₁', ?_, hsame⟩
  rw [hq]
  rfl

theorem ignores_goOn (hq : e.next.parked A = p.parked A) (hsame : SameOthers A mine s₁ s') :
    Ignores A mine s' p e := by
  obtain rfl := eq_of_goOn h
  exact ⟨rfl, hq, hsame⟩

end

/-- Where a `HandleInbound` goes on: with its message, or back to reading.  A control message is
dealt with in one step. -/
inductive InboundNext (channel : String) (msg : Message) (pc : InboundPc) : Conn → Prop where
  | read : InboundNext channel msg pc (.read channel)
  | handle (pc' : InboundPc) (hpc : msg.isControl = false ∨ pc ≠ .start) :
      InboundNext channel msg pc (.handle channel msg pc')

theorem InboundNext.goOn (hq : InboundNext channel msg pc q) (h : goOn s₁ q = some e) :
    InboundNext channel msg pc e.next := by
  rwa [next_of_goOn h]

theorem inboundStep_next (h : inboundStep s t channel msg pc c = some e) :
    InboundNext channel msg pc e.next := by
  have hread : InboundNext channel msg pc (.read channel) := .read
  have hhandle (hpc : pc ≠ .start) (pc' : InboundPc) :
      InboundNext channel msg pc (.handle channel msg pc') := .handle pc' (.inr hpc)
  unfold inboundStep at h
  split at h
  · split_ifs at h
    exact hread.goOn h
  · split_ifs at h
    exact hread.goOn h
  · split_ifs at h with hcontrol
    exact (InboundNext.handle _ (.inl (by simpa using hcontrol))).goOn h
  · split at h <;> exact (hhandle nofun _).goOn h
  · exact (hhandle nofun _).goOn h
  · exact (hhandle nofun _).goOn h
  · exact (hhandle nofun _).goOn h
  · exact (hhandle nofun _).goOn h
  · split at h
    · exact hread.goOn h
    · refine InboundNext.goOn ?_ h
      split_ifs
      · exact hhandle nofun _
      · exact hread
  · exact hread.goOn h
  · refine InboundNext.goOn ?_ h
    split
    · exact hread
    · split_ifs
      · exact hhandle nofun _
      · exact hread
  · exact (hhandle nofun _).goOn h
  · exact hread.goOn h
  · cases h

/-- The `HandleInbound` of another channel than `A` is not parked, ... -/
theorem InboundNext.parked_of_ne (h : InboundNext channel msg pc q) (hne : channel ≠ A) :
    q.parked A = q := by
  cases h with
  | read => rfl
  | handle => exact parked_handle hne

/-- ... and that of `A` always is. -/
theorem InboundNext.parked_self (h : InboundNext A msg pc q) : q.parked A = .read A := by
  cases h with
  | read => rfl
  | handle => exact parked_handle_self

theorem InboundNext.apart (h : InboundNext channel msg pc q)
    (hapart : (Conn.handle channel msg pc).Apart A mine) : q.Apart A mine := by
  cases h with
  | read => trivial
  | handle _ hpc =>
    refine .inr (hapart.resolve_left ?_)
    rintro ⟨hcontrol, hstart⟩
    rcases hpc with hdata | hne
    · cases hcontrol.symm.trans hdata
    · exact hne hstart

/-- A message in the hands of the `HandleInbound` of another channel is not of `A`, unless it is a
control message. -/
theorem not_mine_of_apart (h : (Conn.handle channel msg pc).Apart A mine) (hne : channel ≠ A) :
    msg.isControl = true ∧ pc = .start ∨ mine msg.id = false := by
  refine h.imp id fun hiff => ?_
  cases hmine : mine msg.id with
  | false => rfl
  | true => exact absurd (hiff.mp hmine) hne

theorem mine_of_apart (h : (Conn.handle A msg pc).Apart A mine) (hpc : pc ≠ .start) :
    mine msg.id = true :=
  (h.resolve_left fun hc => hpc hc.2).mpr rfl

/-- **A step of the `HandleInbound` of another channel is the same in both runs.** -/
theorem inboundStep_answered (hsame : SameOthers A mine s s') (hne : channel ≠ A)
    (hapart : (Conn.handle channel msg pc).Apart A mine) (hok : ∀ o ∈ c.outcomes, o = .ok)
    (hroom : ∀ r ∈ (Conn.handle channel msg pc).puts c, s.dlq.size < s.dlq.maxSize)
    (h : inboundStep s t channel msg pc c = some e) :
    Answers A mine (inboundStep s' t channel msg pc c) e := by
  have hlookup := hsame.buffers channel hne
  have hid := not_mine_of_apart hapart hne
  have hnext := (inboundStep_next h).parked_of_ne hne
  unfold inboundStep at h ⊢
  split at h
  · split_ifs at h ⊢
    exact answers_goOn h hnext hsame
  · split_ifs at h ⊢
    exact answers_goOn h hnext (hsame.write ..)
  · next ts o₁ o₂ =>
    obtain ⟨rfl, rfl⟩ := eq_ok_of_outcomes hok
    split_ifs at h ⊢ with hcontrol
    have hmine := hid.resolve_left fun hc => hcontrol hc.1
    have hlog := hsame.log.step (.append ts msg) hmine rfl rfl rfl
    have happended := hsame.log.append_snd ts msg
    rcases hw : s.wal.append .ok .ok ts msg with ⟨w, ok⟩
    rcases hw' : s'.wal.append .ok .ok ts msg with ⟨w', ok'⟩
    rw [hw, hw'] at hlog happended
    rw [hw] at h
    obtain rfl : ok' = ok := happended
    refine answers_goOn h hnext { hsame with log := hlog, appended := ?_ }
    split_ifs
    · exact others_append hsame.appended _
    · exact hsame.appended
  · cases hbuf : s.buffers.lookup channel <;> simp only [hbuf, hlookup] at h ⊢
    · exact answers_goOn h hnext hsame
    · exact answers_goOn h hnext (hsame.insertBuffer ..)
  · exact answers_goOn h hnext (hsame.write ..)
  · exact answers_goOn h hnext { hsame with sent := others_append hsame.sent _ }
  · exact answers_goOn h hnext { hsame with failed := others_append hsame.failed _ }
  · obtain ⟨rfl, rfl⟩ := eq_ok_of_outcomes hok
    have hmine := hid.resolve_left (by simp)
    exact answers_goOn h hnext { hsame with
      log := hsame.log.step (.complete ..) hmine rfl rfl rfl }
  · cases hbuf : s.buffers.lookup channel <;> simp only [hbuf, hlookup] at h ⊢
    · exact answers_goOn h hnext hsame
    · exact answers_goOn h hnext (hsame.insertBuffer ..)
  · exact answers_goOn h hnext (hsame.write ..)
  · next ts o₁ o₂ =>
    obtain ⟨rfl, rfl⟩ := eq_ok_of_outcomes hok
    have hmine : mine msg.id = false := hid.resolve_left (by simp)
    simp only [hsame.log.incrementAttempts_snd hmine ts] at h ⊢
    exact answers_goOn h hnext { hsame with
      log := hsame.log.step (.incrementAttempts ..) hmine rfl rfl rfl }
  · obtain ⟨rfl, rfl⟩ := eq_ok_of_outcomes hok
    have hmine := hid.resolve_left (by simp)
    exact answers_goOn h hnext { hsame with
      log := hsame.log.step (.markDLQ ..) hmine rfl rfl rfl }
  · exact answers_goOn h hnext
      (hsame.putDLQ (hid.resolve_left (by simp)) (hroom _ rfl) ..)
  · cases h

/-- **A step of the `HandleInbound` of `A` changes nothing for the others.** -/
theorem inboundStep_ignored (hsame : SameOthers A mine s s')
    (hapart : (Conn.handle A msg pc).Apart A mine) (hok : ∀ o ∈ c.outcomes, o = .ok)
    (hroom : ∀ r ∈ (Conn.handle A msg pc).puts c,
      s.dlq.size < s.dlq.maxSize ∧ (r.1 = A → r.2.Nestable))
    (h : inboundStep s t A msg pc c = some e) :
    Ignores A mine s' (.handle A msg pc) e := by
  have hnext : e.next.parked A = (Conn.handle A msg pc).parked A := by
    rw [parked_handle_self, (inboundStep_next h).parked_self]
  have hmine (hpc : pc ≠ .start) := mine_of_apart hapart hpc
  unfold inboundStep at h
  split at h
  · split_ifs at h
    exact ignores_goOn h hnext hsame
  · split_ifs at h
    exact ignores_goOn h hnext (hsame.write_left ..)
  · next ts o₁ o₂ =>
    obtain ⟨rfl, rfl⟩ := eq_ok_of_outcomes hok
    split_ifs at h with hcontrol
    have hmine : mine msg.id = true := (hapart.resolve_left fun hc => hcontrol hc.1).mpr rfl
    have hlog := hsame.log.step_left (.append ts msg) hmine rfl rfl
    rcases hw : s.wal.append .ok .ok ts msg with ⟨w, ok⟩
    rw [hw] at h hlog
    refine ignores_goOn h hnext { hsame with log := hlog, appended := ?_ }
    split_ifs
    · exact hsame.appended.trans (others_append_of_mine _ hmine).symm
    · exact hsame.appended
  · cases hbuf : s.buffers.lookup A <;> simp only [hbuf] at h
    · exact ignores_goOn h hnext hsame
    · exact ignores_goOn h hnext (hsame.insertBuffer_left hbuf _)
  · exact ignores_goOn h hnext (hsame.write_left ..)
  · exact ignores_goOn h hnext
      { hsame with sent := hsame.sent.trans (others_append_of_mine _ (hmine nofun)).symm }
  · exact ignores_goOn h hnext
      { hsame with failed := hsame.failed.trans (others_append_of_mine _ (hmine nofun)).symm }
  · obtain ⟨rfl, rfl⟩ := eq_ok_of_outcomes hok
    exact ignores_goOn h hnext { hsame with
      log := hsame.log.step_left (.complete ..) (hmine nofun) rfl rfl }
  · cases hbuf : s.buffers.lookup A <;> simp only [hbuf] at h
    · exact ignores_goOn h hnext hsame
    · exact ignores_goOn h hnext (hsame.insertBuffer_left hbuf _)
  · exact ignores_goOn h hnext (hsame.write_left ..)
  · obtain ⟨rfl, rfl⟩ := eq_ok_of_outcomes hok
    exact ignores_goOn h hnext { hsame with
      log := hsame.log.step_left (.incrementAttempts ..) (hmine nofun) rfl rfl }
  · obtain ⟨rfl, rfl⟩ := eq_ok_of_outcomes hok
    exact ignores_goOn h hnext { hsame with
      log := hsame.log.step_left (.markDLQ ..) (hmine nofun) rfl rfl }
  · obtain ⟨hroom, hnestable⟩ := hroom _ rfl
    exact ignores_goOn h hnext (hsame.putDLQ_left (hmine nofun) hroom (hnestable rfl) ..)
  · cases h

theorem apart_goOn (h : goOn s₁ q = some e) (hq : q.Apart A mine) : e.next.Apart A mine := by
  rwa [next_of_goOn h]

theorem connStep_apart (hapart : p.Apart A mine)
    (hreads : ∀ r ∈ p.reads c, mine r.2.id = true ↔ r.1 = A) (h : connStep s t p c = some e) :
    e.next.Apart A mine := by
  unfold connStep at h
  split at h
  · refine apart_goOn h ?_
    split_ifs <;> trivial
  · exact apart_goOn h trivial
  · exact apart_goOn h trivial
  · refine apart_goOn h ?_
    split_ifs <;> trivial
  · next channel msg =>
    obtain rfl := eq_of_goOn h
    cases hcontrol : msg.isControl with
    | true => exact .inl ⟨hcontrol, rfl⟩
    | false => exact .inr (hreads (channel, msg) (by simp [Conn.reads, hcontrol]))
  · exact apart_goOn h trivial
  · exact (inboundStep_next h).apart hapart
  · exact apart_goOn h trivial
  · exact apart_goOn h trivial
  · cases h

variable (hsame : SameOthers A mine s s') (hapart : p.Apart A mine)
  (hok : ∀ o ∈ c.outcomes, o = .ok)
  (hroom : ∀ r ∈ p.puts c, s.dlq.size < s.dlq.maxSize ∧ (r.1 = A → r.2.Nestable))

include hsame hapart hok hroom

/-- **A step that is not about a message of `A` is the same in both runs.** -/
theorem connStep_answered (hsends : p.sends A c = false) (h : connStep s t p c = some e) :
    Answers A mine (connStep s' t (p.parked A) c) e := by
  unfold connStep at h
  split at h
  · refine answers_goOn h (parked_goOn h ?_) hsame
    split_ifs <;> rfl
  · exact answers_goOn h (parked_goOn h rfl) hsame
  · exact answers_goOn h (parked_goOn h rfl) (hsame.register ..)
  · refine answers_goOn h (parked_goOn h ?_) (hsame.write ..)
    split_ifs <;> rfl
  · have hne := of_decide_eq_false hsends
    exact answers_goOn h (parked_goOn h (parked_handle hne)) hsame
  · exact answers_goOn h (parked_goOn h rfl) hsame
  · have hne := of_decide_eq_false hsends
    rw [parked_handle hne]
    exact inboundStep_answered hsame hne hapart hok (fun r hr => (hroom r hr).1) h
  · exact answers_goOn h (parked_goOn h rfl) (hsame.unregister ..)
  · exact answers_goOn h (parked_goOn h rfl) hsame
  · cases h

/-- **A step that is about a message of `A` changes nothing for the others.** -/
theorem connStep_ignored (hsends : p.sends A c = true) (h : connStep s t p c = some e) :
    Ignores A mine s' p e := by
  unfold Conn.sends at hsends
  split at hsends
  · obtain rfl := of_decide_eq_true hsends
    refine ignores_goOn h ?_ hsame
    rw [next_of_goOn h]
    exact parked_handle_self
  · obtain rfl := of_decide_eq_true hsends
    exact inboundStep_ignored hsame hapart hok hroom h
  · cases hsends

end

/-! ### Steps of the bus -/

section

variable {A : String} {mine : String → Bool} {P P' Q : Bus} {ev : Event}

variable (h : Twin A mine P Q)

include h

theorem twin_advance {t : ℕ} {s₁ s₁' : Shared} {q : Conn} (hsame : SameOthers A mine s₁ s₁')
    (hq : q.Apart A mine) :
    Twin A mine (P.advance t ⟨s₁, q, none⟩) (Q.advance t ⟨s₁', q.parked A, none⟩) := by
  refine ⟨hsame, h.size, fun u => ?_, fun u => ?_⟩
  · rw [Pool.advance_thread_none, Pool.advance_thread_none]
    by_cases hu : u = t
    · rw [hu, update_self, update_self]
    · rw [update_of_ne hu, update_of_ne hu, h.thread u]
  · rw [Pool.advance_thread_none]
    by_cases hu : u = t
    · rw [hu, update_self]
      exact hq
    · rw [update_of_ne hu]
      exact h.apart u

theorem twin_go : Twin A mine (P.go .accepted) (Q.go .accepted) := by
  refine ⟨h.shared, congrArg (· + 1) h.size, fun u => ?_, fun u => ?_⟩
  · by_cases hu : u = P.size
    · subst hu
      rw [P.go_thread_size, ← h.size, Q.go_thread_size]
      rfl
    · rw [P.go_thread_of_ne _ hu, Q.go_thread_of_ne _ (by rwa [h.size]), h.thread u]
  · have haccepted : Conn.accepted.Apart A mine := trivial
    exact Pool.forall_go (I := fun _ p => Conn.Apart A mine p) h.apart haccepted u

theorem closed_iff (t : ℕ) : Q.thread t = .closed ↔ P.thread t = .closed := by
  rw [h.thread t]
  cases P.thread t with
  | handle channel =>
    by_cases hA : channel = A
    · rw [hA, parked_handle_self]
      simp
    · rw [parked_handle hA]
  | _ => rfl

/-- **What is left out changes nothing for the others.** -/
theorem twin_dropped (htraffic : Traffic ev) (hseparate : Separate A mine P ev)
    (hroomy : Roomy A P ev) (hdropped : dropped A P ev = true) (hstep : busStep P ev = some P') :
    Twin A mine P' Q := by
  cases ev with
  | act t =>
    simp only [busStep] at hstep
    split_ifs at hstep
    obtain ⟨e, he, rfl⟩ := map_eq_some_iff.mp hstep
    have hapart := connStep_apart (h.apart t) hseparate he
    obtain ⟨hspawn, hnext, hsame⟩ :=
      connStep_ignored h.shared (h.apart t) htraffic hroomy hdropped he
    have hadvance := twin_advance h (t := t) hsame hapart
    -- the other run stays: where `A` is parked it was before
    have hstay : Q.advance t ⟨Q.shared, e.next.parked A, none⟩ = Q := by
      rw [hnext, ← h.thread t]
      simp [Pool.advance]
    rwa [hstay, ← hspawn] at hadvance
  | compact o order =>
    obtain rfl := htraffic
    simp only [busStep] at hstep
    split_ifs at hstep
    cases hstep
    exact { h with shared := { h.shared with log := h.shared.log.compact_left order } }
  | accept | replay | outbound | deliver | sendShutdown | purge | restart => cases hdropped

theorem twin_replay {c : Choice} (hstep : busStep P (.replay c) = some P') :
    ∃ Q', busStep Q (.replay c) = some Q' ∧ Twin A mine P' Q' := by
  obtain ⟨s₁, hs₁, rfl⟩ := map_eq_some_iff.mp hstep
  have hmove := replayStep_move hs₁
  simp only [busStep, h.shared.main]
  rcases h.shared.settled with hmain | hmain <;> rw [hmain] at hmove ⊢ <;> cases hmove
  exact ⟨_, rfl, { h with shared := { h.shared with main := rfl, settled := .inr rfl } }⟩

/-- **The other run can do what stays, and does the same.** -/
theorem twin_kept (htraffic : Traffic ev) (hseparate : Separate A mine P ev)
    (hroomy : Roomy A P ev) (hdropped : dropped A P ev = false) (hstep : busStep P ev = some P') :
    ∃ Q', busStep Q ev = some Q' ∧ Twin A mine P' Q' := by
  cases ev with
  | accept =>
    simp only [busStep] at hstep ⊢
    split_ifs at hstep with hmain
    cases hstep
    exact ⟨_, if_pos (h.shared.main.trans hmain), twin_go h⟩
  | act t =>
    simp only [busStep] at hstep ⊢
    split_ifs at hstep
    obtain ⟨e, he, rfl⟩ := map_eq_some_iff.mp hstep
    have hapart := connStep_apart (h.apart t) hseparate he
    obtain ⟨hspawn, s₁', hs₁', hsame⟩ :=
      connStep_answered h.shared (h.apart t) htraffic hroomy hdropped he
    have hadvance := twin_advance h (t := t) hsame hapart
    rw [← hspawn] at hadvance
    rw [if_pos (by rwa [h.size]), h.thread t, hs₁']
    exact ⟨_, rfl, by rwa [← hspawn]⟩
  | replay => exact twin_replay h hstep
  | outbound msg =>
    simp only [busStep] at hstep ⊢
    rw [h.shared.outbound]
    split_ifs at hstep ⊢
    cases hstep
    have houtbound := congrArg (fun m => (m.lookup msg.channel).map fun conn => (conn, msg))
      h.shared.sidecars
    exact ⟨_, rfl, { h with shared := { h.shared with outbound := houtbound } }⟩
  | deliver ok =>
    simp only [busStep] at hstep ⊢
    rw [h.shared.outbound]
    cases houtbound : P.shared.outbound with
    | none => simp [houtbound] at hstep
    | some pair =>
      obtain ⟨conn, msg⟩ := pair
      simp only [houtbound, closed_iff h conn] at hstep ⊢
      split_ifs at hstep ⊢
      cases hstep
      exact ⟨_, rfl, { h with shared := { h.shared.write conn ok msg with outbound := rfl } }⟩
  | sendShutdown writes =>
    simp only [busStep] at hstep ⊢
    rw [h.shared.sidecars]
    split_ifs at hstep ⊢
    cases hstep
    exact ⟨_, rfl, { h with shared := h.shared.sendShutdown writes }⟩
  | compact => cases hdropped
  | purge now =>
    simp only [busStep] at hstep ⊢
    split_ifs at hstep with hmain
    cases hstep
    rw [if_pos (h.shared.main.trans hmain)]
    exact ⟨_, rfl, { h with shared := { h.shared with dlq := h.shared.dlq.purge now } }⟩
  | restart => exact absurd htraffic id

end

theorem twin_started (A : String) (mine : String → Bool) (config : RouterConfig) :
    Twin A mine (started config) (started config) where
  shared := ⟨rfl, rfl, rfl, rfl, .inl rfl, Iff.rfl, fun _ _ => rfl,
    ⟨Lib.BufWriter.ready_new _, Lib.BufWriter.ready_new _,
      by simp [Wal.Writable, started, Wal.start], by simp [Wal.Writable, started, Wal.start],
      fun _ _ => rfl⟩,
    ⟨rfl, rfl, DLQ.sound_new _ _, DLQ.sound_new _ _, fun l => ⟨fun hl => (nomatch hl.lookup),
      fun hl => (nomatch hl.1.lookup)⟩, fun l hl => (nomatch hl.lookup)⟩, rfl, rfl, rfl, rfl⟩
  size := rfl
  thread _ := rfl
  apart _ := trivial

/-- **Channels are isolated if their ids are.**  In every run from the start in which the data
messages of `A` have ids that no other channel uses, whatever is pending, sent, failed or dead under
the ids of the others is the same as in the run without the messages of `A`. -/
theorem isolated_of_separate (config : RouterConfig) (A : String) (mine : String → Bool)
    {events : List Event} {P : Bus}
    (hmeets : Meets busStep (fun P ev => Traffic ev ∧ Separate A mine P ev ∧ Roomy A P ev)
      (started config) events)
    (h : run busStep (started config) events = some P) :
    ∃ Q, run busStep (started config)
        (erased busStep (dropped A) (started config) events) = some Q ∧
      SameOthers A mine P.shared Q.shared := by
  obtain ⟨Q, hQ, htwin⟩ : ∃ Q, run busStep (started config)
      (erased busStep (dropped A) (started config) events) = some Q ∧ Twin A mine P Q := by
    refine Lib.run_erased ?_ ?_ (twin_started A mine config) hmeets h
    · intro P ev P' Q htwin hok hdropped hstep
      exact twin_dropped htwin hok.1 hok.2.1 hok.2.2 hdropped hstep
    · intro P ev P' Q htwin hok hdropped hstep
      exact twin_kept htwin hok.1 hok.2.1 hok.2.2 hdropped hstep
  exact ⟨Q, hQ, htwin.shared⟩

/-- A message of channel `b` fails to be sent and stays pending; then channel `a` sends `msg`. -/
def pendingThen (msg : Message) : List Event :=
  .replay .go :: registers 0 "b" ++ registers 1 "a" ++ receives 0 (.plain "m1" "b") ++
    [.act 0 .err, .act 0 (.wal "t2" .ok .ok)] ++ receives 1 msg ++
    [.act 1 .ok, .act 1 (.wal "t3" .ok .ok), .act 1 .go]

/-- With an id of its own, the message of `a` leaves that of `b` pending. -/
theorem isolated_of_separate_pendingThen :
    ∃ P ∈ run busStep (started smallConfig) (pendingThen (.plain "m2" "a")), ∃ Q,
      run busStep (started smallConfig) (erased busStep (dropped "a") (started smallConfig)
        (pendingThen (.plain "m2" "a"))) = some Q ∧
      SameOthers "a" (· == "m2") P.shared Q.shared := by
  obtain ⟨P, hP⟩ : ∃ P,
      run busStep (started smallConfig) (pendingThen (.plain "m2" "a")) = some P :=
    isSome_iff_exists.mp (by decide +kernel)
  exact ⟨P, hP, isolated_of_separate smallConfig "a" (· == "m2") (by decide +kernel) hP⟩

/-- **A channel completes the message of another.**  With the id of the pending message of `b`, the
message of `a` replaces it in the log, is sent, and completes it.  The message of `b` is not sent,
not pending and not dead; without the message of `a` it is pending. -/
theorem completed_by_another_channel :
    (∃ P ∈ run busStep (started smallConfig) (pendingThen (.plain "m1" "a")),
      Message.plain "m1" "b" ∈ P.shared.appended ∧ Message.plain "m1" "b" ∉ P.shared.sent ∧
        P.shared.dead = [] ∧ P.shared.wal.entries.lookup "m1" = none) ∧
      ∃ Q ∈ run busStep (started smallConfig) (erased busStep (dropped "a") (started smallConfig)
        (pendingThen (.plain "m1" "a"))),
        (Q.shared.wal.entries.lookup "m1").bind WALEntry.msg = some (.plain "m1" "b") := by
  decide +kernel

end K8s4Claw.IpcBus
