/-
# At-least-once delivery

A data message is appended to the log before it is sent to the bridge and completed in the log after
that, by the `HandleInbound` that has it in hand or by `ReplayWAL` after a restart.
`delivered_along` is the result, with distinct message ids, records that can be read back, and no
errors of the log or of the dead letter queue (`Assumed`).  A record that is short enough can still
be nested too deep to be read, and its message is lost at the next start (`deep_lost`).

The invariant (`Delivering`) says for every message in hand how far it is: pending and not
sent before `bridge.Send`, pending and sent before `Complete`.  A message that is pending
and sent is in the hands of someone who will complete it, so no restart finds one.  With
distinct ids a message fails at most once in `HandleInbound`, and its attempts go from 1 to
2 and never reach `maxRetryAttempts`: the branch to the dead letter queue is not taken.
-/

import K8s4Claw.IpcBus.Moves
import K8s4Claw.IpcBus.WalLimit

namespace K8s4Claw.IpcBus

open List Option Function
open Lib (Along Meets Outcome Pool Table run)

/-! ### What is assumed -/

/-- The call on the log a step of a `handleConn` makes. -/
def Conn.walOp : Conn → Choice → Option Wal.Op
  | .handle _ msg .start, .wal ts _ _ => some (.append ts msg)
  | .handle _ msg .complete, .wal ts _ _ => some (.complete ts msg.id)
  | .handle _ msg .retry, .wal ts _ _ => some (.incrementAttempts ts msg.id)
  | .handle _ msg (.markDLQ _), .wal ts _ _ => some (.markDLQ ts msg.id)
  | _, _ => none

/-- The call on the log a step of `ReplayWAL` makes. -/
def Main.walOp : Main → Choice → Option Wal.Op
  | .complete entry _, .wal ts _ _ => some (.complete ts entry.id)
  | _, _ => none

/-- The outcomes of the file operations of a step. -/
def Choice.outcomes : Choice → List Outcome
  | .wal _ o₁ o₂ => [o₁, o₂]
  | _ => []

/-- The message a call appends to the log. -/
def Wal.Op.appended : Wal.Op → Option Message
  | .append _ msg => some msg
  | _ => none

/-- The record is within the scanner's limit. -/
def Short (e : WALEntry) : Prop := e.text.length < maxMessageSize
  deriving Decidable

section

variable (fits : WALEntry → Prop)

/-- The call on the log writes a record that `fits`, without an error, and appends only messages
with a new id. -/
def LogOk (s : Shared) (op : Option Wal.Op) (c : Choice) : Prop :=
  (∀ o ∈ c.outcomes, o = .ok) ∧
  ∀ op' ∈ op, (∀ e ∈ s.wal.record op', fits e) ∧
    ∀ msg ∈ op'.appended, msg.Marshals ∧ msg.id ∉ s.appended.map Message.id

instance [DecidablePred fits] (s : Shared) (op : Option Wal.Op) (c : Choice) :
    Decidable (LogOk fits s op c) :=
  inferInstanceAs (Decidable (_ ∧ _))

/-- The step is a `Put` that fails. -/
def Conn.putFails (s : Shared) : Conn → Choice → Bool
  | .handle _ msg (.putDLQ n), .put now ok => !(ok && (s.dlq.put ⟨msg, n, now⟩).isSome)
  | _, _ => false

/-- Distinct message ids, records that `fits`, and no errors of the log or of the dead letter
queue. -/
def AssumedWith (P : Bus) : Event → Prop
  | .act t c =>
      LogOk fits P.shared ((P.thread t).walOp c) c ∧ ¬ (P.thread t).putFails P.shared c
  | .replay c => LogOk fits P.shared (P.shared.main.walOp c) c
  | .compact o _ => o = .ok
  | _ => True

instance [DecidablePred fits] (P : Bus) (ev : Event) : Decidable (AssumedWith fits P ev) := by
  unfold AssumedWith
  cases ev <;> infer_instance

end

/-- Distinct message ids, records that can be read back, and no errors of the log or of the dead
letter queue. -/
abbrev Assumed (P : Bus) (ev : Event) : Prop := AssumedWith Fits P ev

/-! ### The invariant -/

/-- The message is pending in the log. -/
def Pending (wal : Wal) (msg : Message) : Prop :=
  ∃ e, wal.entries.lookup msg.id = some e ∧ e.msg = some msg

/-- The message is pending with its first attempt. -/
def PendingFirst (wal : Wal) (msg : Message) : Prop :=
  ∃ e, wal.entries.lookup msg.id = some e ∧ e.msg = some msg ∧ e.attempts = 1

/-- How things are with a message in the hands of a `HandleInbound`. -/
def JobOk (s : Shared) (msg : Message) : Phase → Prop
  | .unsent | .failed => msg ∉ s.sent ∧ PendingFirst s.wal msg
  | .sent => msg ∈ s.sent ∧ Pending s.wal msg
  | .marking _ | .putting _ => False

/-- The entries `ReplayWAL` has still to send are pending and not sent. -/
structure TodoOk (s : Shared) (todo : List WALEntry) : Prop where
  nodup : (todo.map WALEntry.id).Nodup
  pending : ∀ e ∈ todo, s.wal.entries.lookup e.id = some e
  unsent : ∀ e ∈ todo, ∀ msg ∈ e.msg, msg ∉ s.sent

/-- How things are with `ReplayWAL`. -/
def ReplayOk (s : Shared) : Main → Prop
  | .serve => True
  | .replay todo => TodoOk s todo
  | .complete entry todo => TodoOk s todo ∧ entry.id ∉ todo.map WALEntry.id ∧
      s.wal.entries.lookup entry.id = some entry ∧ ∀ msg ∈ entry.msg, msg ∈ s.sent

/-- **The invariant of delivery**; `J t` is the message connection `t` has in hand. -/
structure Delivering (s : Shared) (J : ℕ → Option (Message × Phase)) : Prop where
  agrees : ∃ log, s.wal.Agrees log
  ids : (s.appended.map Message.id).Nodup
  entries : ∀ k e, s.wal.entries.lookup k = some e →
    ∃ msg ∈ s.appended, msg.id = k ∧ e.msg = some msg
  covered : ∀ msg ∈ s.appended, msg ∈ s.sent ∨ Pending s.wal msg
  sent_mem : ∀ msg ∈ s.sent, msg ∈ s.appended
  sent_nodup : s.sent.Nodup
  jobs : ∀ t msg phase, J t = some (msg, phase) → JobOk s msg phase
  exclusive : ∀ t u a b, J t = some a → J u = some b → a.1.id = b.1.id → t = u
  settled : ∀ msg ∈ s.sent, Pending s.wal msg →
    (∃ t, J t = some (msg, .sent)) ∨ ∃ e todo, s.main = .complete e todo ∧ e.msg = some msg
  replay : ReplayOk s s.main
  parked : s.main = .serve ∨ ∀ t, J t = none

section

variable {s s' : Shared} {J : ℕ → Option (Message × Phase)} {t : ℕ} {msg : Message}

variable {ts : String} {phase : Phase} {x : Option (Message × Phase)}

theorem eq_ok_of_outcomes {o₁ o₂ : Outcome} (h : ∀ o ∈ (Choice.wal ts o₁ o₂).outcomes, o = .ok) :
    o₁ = .ok ∧ o₂ = .ok :=
  ⟨h o₁ (by simp [Choice.outcomes]), h o₂ (by simp [Choice.outcomes])⟩

theorem LogOk.of_wal {op : Option Wal.Op} {o₁ o₂ : Outcome} (h : LogOk Fits s op (.wal ts o₁ o₂)) :
    (o₁ = .ok ∧ o₂ = .ok) ∧ ∀ op' ∈ op, s.wal.RecordFits op' ∧
      ∀ msg ∈ op'.appended, msg.Marshals ∧ msg.id ∉ s.appended.map Message.id :=
  ⟨eq_ok_of_outcomes h.1, h.2⟩

theorem PendingFirst.pending {wal : Wal} (h : PendingFirst wal msg) : Pending wal msg := by
  obtain ⟨e, he, hmsg, -⟩ := h
  exact ⟨e, he, hmsg⟩

theorem JobOk.pending (h : JobOk s msg phase) : Pending s.wal msg := by
  cases phase with
  | unsent | failed => exact h.2.pending
  | sent => exact h.2
  | marking n | putting n => exact h.elim

namespace Delivering

variable (h : Delivering s J)

include h

theorem eq_of_id {a b : Message} (ha : a ∈ s.appended) (hb : b ∈ s.appended) (hid : a.id = b.id) :
    a = b :=
  inj_on_of_nodup_map h.ids ha hb hid

theorem mem_of_pending (hp : Pending s.wal msg) : msg ∈ s.appended := by
  obtain ⟨e, he, hmsg⟩ := hp
  obtain ⟨m, hm, -, hem⟩ := h.entries _ e he
  obtain rfl : m = msg := some.inj (hem.symm.trans hmsg)
  exact hm

/-- Others have other messages in hand. -/
theorem id_ne {u : ℕ} {phase : Phase} {b : Message × Phase} (ht : J t = some (msg, phase))
    (hu : J u = some b) (hne : u ≠ t) : b.1.id ≠ msg.id :=
  fun hid => hne (h.exclusive u t b (msg, phase) hu ht hid)

theorem main_eq_serve {a : Message × Phase} (ht : J t = some a) : s.main = .serve := by
  rcases h.parked with hserve | hnone
  · exact hserve
  · exact absurd (ht.symm.trans (hnone t)) (by simp)

end Delivering

/-! ### What a step leaves alone -/

theorem forall_update {I : Message → Phase → Prop} (hx : ∀ m phase, x = some (m, phase) → I m phase)
    (hothers : ∀ u m phase, u ≠ t → J u = some (m, phase) → I m phase) :
    ∀ u m phase, update J t x u = some (m, phase) → I m phase := by
  intro u m phase hu
  by_cases hut : u = t
  · subst hut
    exact hx m phase (by simpa using hu)
  · exact hothers u m phase hut (by simpa [hut] using hu)

theorem forall_update_some {I : Message → Phase → Prop} (hmsg : I msg phase)
    (hothers : ∀ u m phase, u ≠ t → J u = some (m, phase) → I m phase) :
    ∀ u m ph, update J t (some (msg, phase)) u = some (m, ph) → I m ph := by
  refine forall_update ?_ hothers
  intro m ph heq
  obtain ⟨rfl, rfl⟩ := Prod.mk.inj (some.inj heq)
  exact hmsg

theorem update_eq_some {a : Message × Phase} {u : ℕ} (ht : J t ≠ some a) (hu : J u = some a) :
    update J t x u = some a := by
  have hut : u ≠ t := by
    rintro rfl
    exact ht hu
  rwa [update_of_ne hut]

theorem of_update_eq_some {a : Message × Phase} {u : ℕ} (hx : x ≠ some a)
    (hu : update J t x u = some a) : u ≠ t ∧ J u = some a := by
  have hut : u ≠ t := by
    rintro rfl
    exact hx (by rwa [update_self] at hu)
  exact ⟨hut, by rwa [update_of_ne hut] at hu⟩

theorem exists_update_sent (ht : J t ≠ some (msg, .sent)) (h : ∃ u, J u = some (msg, .sent)) :
    ∃ u, update J t x u = some (msg, .sent) := by
  obtain ⟨u, hu⟩ := h
  exact ⟨u, update_eq_some ht hu⟩

theorem exclusive_update (hex : ∀ t u a b, J t = some a → J u = some b → a.1.id = b.1.id → t = u)
    (hx : ∀ a u b, x = some a → u ≠ t → J u = some b → b.1.id ≠ a.1.id) :
    ∀ u v a b, update J t x u = some a → update J t x v = some b →
      a.1.id = b.1.id → u = v := by
  intro u v a b hu hv hid
  by_cases hut : u = t <;> by_cases hvt : v = t
  · exact hut.trans hvt.symm
  · subst hut
    rw [update_self] at hu
    rw [update_of_ne hvt] at hv
    exact absurd hid.symm (hx a v b hu hvt hv)
  · subst hvt
    rw [update_self] at hv
    rw [update_of_ne hut] at hu
    exact absurd hid (hx b u a hv hut hu)
  · rw [update_of_ne hut] at hu
    rw [update_of_ne hvt] at hv
    exact hex u v a b hu hv hid

theorem Delivering.exclusive_phase (h : Delivering s J) {phase' : Phase}
    (ht : J t = some (msg, phase)) :
    ∀ u v a b, update J t (some (msg, phase')) u = some a →
      update J t (some (msg, phase')) v = some b → a.1.id = b.1.id → u = v := by
  refine exclusive_update h.exclusive ?_
  rintro a u b heq hut hu
  cases heq
  exact h.id_ne ht hu hut

theorem pending_iff_of_ne {wal wal' : Wal} {id : String} {x : Option WALEntry}
    (hlookup : ∀ k, wal'.entries.lookup k = if k = id then x else wal.entries.lookup k)
    (hne : msg.id ≠ id) : Pending wal' msg ↔ Pending wal msg := by
  simp only [Pending, hlookup, if_neg hne]

theorem JobOk.frame (h : JobOk s msg phase) (hsent : msg ∈ s'.sent ↔ msg ∈ s.sent)
    (hlookup : s'.wal.entries.lookup msg.id = s.wal.entries.lookup msg.id) :
    JobOk s' msg phase := by
  cases phase with
  | unsent | failed =>
    refine ⟨hsent.not.mpr h.1, ?_⟩
    simpa only [PendingFirst, hlookup] using h.2
  | sent =>
    refine ⟨hsent.mpr h.1, ?_⟩
    simpa only [Pending, hlookup] using h.2
  | marking n | putting n => exact h.elim

theorem TodoOk.frame {todo : List WALEntry} (h : TodoOk s todo)
    (hsent : ∀ e ∈ todo, ∀ m ∈ e.msg, m ∈ s'.sent ↔ m ∈ s.sent)
    (hlookup : ∀ e ∈ todo, s'.wal.entries.lookup e.id = s.wal.entries.lookup e.id) :
    TodoOk s' todo where
  nodup := h.nodup
  pending e he := (hlookup e he).trans (h.pending e he)
  unsent e he m hm := (hsent e he m hm).not.mpr (h.unsent e he m hm)

theorem ReplayOk.congr {m : Main} (h : ReplayOk s m) (hentries : s'.wal.entries = s.wal.entries)
    (hsent : s'.sent = s.sent) : ReplayOk s' m := by
  have htodo {todo : List WALEntry} (h : TodoOk s todo) : TodoOk s' todo :=
    h.frame (fun _ _ _ _ => by rw [hsent]) fun _ _ => by rw [hentries]
  cases m with
  | serve => trivial
  | replay => exact htodo h
  | complete =>
    refine ⟨htodo h.1, h.2.1, ?_, ?_⟩
    · rw [hentries]
      exact h.2.2.1
    · rw [hsent]
      exact h.2.2.2

theorem ReplayOk.of_serve {m : Main} (h : m = .serve) : ReplayOk s m := by
  rw [h]
  trivial

/-- The invariant is about the entries, what was appended and sent, and the main goroutine. -/
theorem Delivering.congr (h : Delivering s J) (hagrees : ∃ log, s'.wal.Agrees log)
    (hentries : s'.wal.entries = s.wal.entries) (happended : s'.appended = s.appended)
    (hsent : s'.sent = s.sent) (hmain : s'.main = s.main) : Delivering s' J where
  agrees := hagrees
  ids := by rw [happended]; exact h.ids
  entries := by rw [hentries, happended]; exact h.entries
  covered := by
    simp only [Pending, hentries, happended, hsent]
    exact h.covered
  sent_mem := by rw [happended, hsent]; exact h.sent_mem
  sent_nodup := by rw [hsent]; exact h.sent_nodup
  jobs u m phase hu := (h.jobs u m phase hu).frame (by rw [hsent]) (by rw [hentries])
  exclusive := h.exclusive
  settled := by
    simp only [Pending, hentries, hsent, hmain]
    exact h.settled
  replay := by rw [hmain]; exact h.replay.congr hentries hsent
  parked := by rw [hmain]; exact h.parked

theorem Delivering.same (h : Delivering s J) (hsame : s.Same s') : Delivering s' J :=
  h.congr (by rw [hsame.wal]; exact h.agrees) (by rw [hsame.wal]) hsame.appended hsame.sent
    hsame.main

/-! ### What a send and a `Complete` change -/

namespace Delivering

theorem sent_append (h : Delivering s J) (hmem : msg ∈ s.appended) (hunsent : msg ∉ s.sent) :
    (∀ m ∈ s.appended, m ∈ s.sent ++ [msg] ∨ Pending s.wal m) ∧
      (∀ m ∈ s.sent ++ [msg], m ∈ s.appended) ∧ (s.sent ++ [msg]).Nodup := by
  refine ⟨?_, ?_, ?_⟩
  · intro m hm
    exact (h.covered m hm).imp_left fun hm => mem_append_left _ hm
  · intro m hm
    rcases mem_append.mp hm with hm | hm
    · exact h.sent_mem m hm
    · rwa [mem_singleton.mp hm]
  · refine nodup_append.mpr ⟨h.sent_nodup, nodup_singleton msg, ?_⟩
    rintro a ha b hb rfl
    exact hunsent (mem_singleton.mp hb ▸ ha)

variable {wal : Wal} {id : String}

/-- Completing the entry of a message that was sent leaves every message sent or pending. -/
theorem covered_completed (h : Delivering s J)
    (hlookup : ∀ k, wal.entries.lookup k = if k = id then none else s.wal.entries.lookup k)
    (hmem : msg ∈ s.appended) (hid : msg.id = id) (hsent : msg ∈ s.sent) :
    ∀ m ∈ s.appended, m ∈ s.sent ∨ Pending wal m := by
  intro m hm
  by_cases hmid : m.id = id
  · rw [h.eq_of_id hm hmem (hmid.trans hid.symm)]
    exact .inl hsent
  · exact (h.covered m hm).imp_right (pending_iff_of_ne hlookup hmid).mpr

variable (hlookup : ∀ k, wal.entries.lookup k = if k = id then none else s.wal.entries.lookup k)

include hlookup

theorem lookup_of_completed {k : String} {e : WALEntry} (he : wal.entries.lookup k = some e) :
    s.wal.entries.lookup k = some e := by
  rw [hlookup] at he
  split_ifs at he
  exact he

theorem id_ne_of_completed (hp : Pending wal msg) : msg.id ≠ id := by
  intro hid
  obtain ⟨e, he, -⟩ := hp
  rw [hid, hlookup, if_pos rfl] at he
  cases he

end Delivering

/-! ### The steps of `HandleInbound` -/

section

variable (h : Delivering s J)

include h

/-- A message in hand is as far as it was, or further, short of being sent. -/
theorem Delivering.rephase {phase' : Phase} (ht : J t = some (msg, phase)) (hphase : phase ≠ .sent)
    (hok : JobOk s msg phase') :
    Delivering s (update J t (some (msg, phase'))) where
  agrees := h.agrees
  ids := h.ids
  entries := h.entries
  covered := h.covered
  sent_mem := h.sent_mem
  sent_nodup := h.sent_nodup
  jobs := forall_update_some hok fun u m ph _ hu => h.jobs u m ph hu
  exclusive := h.exclusive_phase ht
  settled := by
    intro m hm hpending
    refine (h.settled m hm hpending).imp_left (exists_update_sent ?_)
    intro hu
    obtain ⟨-, rfl⟩ := Prod.mk.inj (some.inj (ht.symm.trans hu))
    exact hphase rfl
  replay := h.replay
  parked := .inl (h.main_eq_serve ht)

theorem Delivering.sendOk (ht : J t = some (msg, .unsent)) :
    Delivering { s with sent := s.sent ++ [msg] } (update J t (some (msg, .sent))) := by
  obtain ⟨hunsent, hfirst⟩ := h.jobs t msg .unsent ht
  have hmem := h.mem_of_pending hfirst.pending
  have hserve := h.main_eq_serve ht
  have hsent {m : Message} (hne : m.id ≠ msg.id) : m ∈ s.sent ++ [msg] ↔ m ∈ s.sent := by
    simp only [mem_append, mem_singleton, or_iff_left_iff_imp]
    rintro rfl
    exact absurd rfl hne
  obtain ⟨hcovered, hsent_mem, hnodup⟩ := h.sent_append hmem hunsent
  refine ⟨h.agrees, h.ids, h.entries, hcovered, hsent_mem, hnodup, ?_, h.exclusive_phase ht, ?_,
    .of_serve hserve, .inl hserve⟩
  · refine forall_update_some ?_ fun u m phase hut hu => ?_
    · exact ⟨mem_append_right _ (mem_singleton_self _), hfirst.pending⟩
    · exact (h.jobs u m phase hu).frame (hsent (h.id_ne ht hu hut)) rfl
  · intro m hm hpending
    by_cases hmsg : m = msg
    · exact .inl ⟨t, by rw [hmsg, update_self]⟩
    · have hold : m ∈ s.sent := by simpa [hmsg] using hm
      refine (h.settled m hold hpending).imp_left (exists_update_sent ?_)
      intro hu
      exact hmsg (Prod.mk.inj (some.inj (hu.symm.trans ht))).1

theorem Delivering.complete (ht : J t = some (msg, .sent))
    (hfits : s.wal.RecordFits (.complete ts msg.id)) :
    Delivering { s with wal := (s.wal.complete .ok .ok ts msg.id).1 }
      (update J t none) := by
  obtain ⟨hsent, hpending⟩ := h.jobs t msg .sent ht
  have hmem := h.mem_of_pending hpending
  have hserve := h.main_eq_serve ht
  obtain ⟨log, hlog⟩ := h.agrees
  have hlookup := Wal.lookup_complete hlog.ready ts msg.id
  refine ⟨Wal.step_agrees ⟨log, hlog⟩ hfits rfl, h.ids,
    fun k e he => h.entries k e (lookup_of_completed hlookup he),
    h.covered_completed hlookup hmem rfl hsent, h.sent_mem, h.sent_nodup, ?_, ?_, ?_,
    .of_serve hserve, .inl hserve⟩
  · refine forall_update (by simp) fun u m phase hut hu => ?_
    have hid := h.id_ne ht hu hut
    exact (h.jobs u m phase hu).frame Iff.rfl ((hlookup m.id).trans (if_neg hid))
  · exact exclusive_update h.exclusive (by simp)
  · intro m hm hp
    have hid : m.id ≠ msg.id := id_ne_of_completed hlookup hp
    have hold := (pending_iff_of_ne hlookup hid).mp hp
    refine (h.settled m hm hold).imp_left (exists_update_sent ?_)
    intro hu
    exact hid (congrArg (·.1.id) (some.inj (hu.symm.trans ht)))

theorem Delivering.append (hserve : s.main = .serve) (ht : J t = none)
    (hfits : s.wal.RecordFits (.append ts msg)) (hmsg : msg.Marshals)
    (hfresh : msg.id ∉ s.appended.map Message.id) :
    Delivering { s with wal := (s.wal.append .ok .ok ts msg).1, appended := s.appended ++ [msg] }
      (update J t (some (msg, .unsent))) := by
  obtain ⟨log, hlog⟩ := h.agrees
  have hlookup := Wal.lookup_append hlog.ready ts hmsg
  have hne {m : Message} (hm : m ∈ s.appended) : m.id ≠ msg.id :=
    fun hid => hfresh (hid ▸ mem_map_of_mem hm)
  have hfirst : PendingFirst (s.wal.append .ok .ok ts msg).1 msg :=
    ⟨Wal.pendingEntry ts msg, by rw [hlookup, if_pos rfl], rfl, rfl⟩
  refine ⟨Wal.step_agrees ⟨log, hlog⟩ hfits rfl, ?_, ?_, ?_, ?_, h.sent_nodup, ?_, ?_, ?_,
    .of_serve hserve, .inl hserve⟩
  · rw [map_append, nodup_append]
    refine ⟨h.ids, by simp, ?_⟩
    rintro a ha b hb rfl
    rw [map_singleton, mem_singleton] at hb
    exact hfresh (hb ▸ ha)
  · intro k e he
    rw [hlookup] at he
    split_ifs at he with hk
    · cases he
      exact ⟨msg, by simp, hk.symm, rfl⟩
    · obtain ⟨m, hm, hmk, hem⟩ := h.entries k e he
      exact ⟨m, mem_append_left _ hm, hmk, hem⟩
  · intro m hm
    rcases mem_append.mp hm with hm | hm
    · exact (h.covered m hm).imp_right (pending_iff_of_ne hlookup (hne hm)).mpr
    · obtain rfl := mem_singleton.mp hm
      exact .inr hfirst.pending
  · intro m hm
    exact mem_append_left _ (h.sent_mem m hm)
  · refine forall_update_some ?_ fun u m phase hut hu => ?_
    · exact ⟨fun hm => hne (h.sent_mem _ hm) rfl, hfirst⟩
    · have hok := h.jobs u m phase hu
      have hid := hne (h.mem_of_pending hok.pending)
      exact hok.frame Iff.rfl ((hlookup m.id).trans (if_neg hid))
  · refine exclusive_update h.exclusive ?_
    rintro a u b heq - hu
    cases heq
    exact hne (h.mem_of_pending (h.jobs u b.1 b.2 hu).pending)
  · intro m hm hp
    have hold := (pending_iff_of_ne hlookup (hne (h.sent_mem m hm))).mp hp
    refine (h.settled m hm hold).imp_left (exists_update_sent ?_)
    rw [ht]
    simp

/-- `IncrementAttempts` after a send that failed: the entry has its second attempt, which is short
of `maxRetryAttempts`. -/
theorem Delivering.retry (ht : J t = some (msg, .failed))
    (hfits : s.wal.RecordFits (.incrementAttempts ts msg.id)) :
    (s.wal.incrementAttempts .ok .ok ts msg.id).2 = some 2 ∧
    Delivering { s with wal := (s.wal.incrementAttempts .ok .ok ts msg.id).1 }
      (update J t none) := by
  obtain ⟨-, e, he, -, hattempts⟩ := h.jobs t msg .failed ht
  obtain ⟨log, hlog⟩ := h.agrees
  have hserve := h.main_eq_serve ht
  have hlookup := Wal.lookup_incrementAttempts .ok .ok ts he
  have hpending (m : Message) :
      Pending (s.wal.incrementAttempts .ok .ok ts msg.id).1 m ↔ Pending s.wal m := by
    by_cases hid : m.id = msg.id
    · simp only [Pending, hlookup, hid, he]
      simp [Wal.bumped]
    · exact pending_iff_of_ne hlookup hid
  refine ⟨?_, ?_⟩
  · rw [Wal.incrementAttempts_ok hlog.ready he (hlog.writable _ _ he), hattempts]
    rfl
  refine ⟨Wal.step_agrees ⟨log, hlog⟩ hfits rfl, h.ids, ?_, ?_, h.sent_mem, h.sent_nodup, ?_, ?_,
    ?_, .of_serve hserve, .inl hserve⟩
  · intro k e' he'
    rw [hlookup] at he'
    split_ifs at he' with hk
    · cases he'
      subst hk
      exact h.entries msg.id e he
    · exact h.entries k e' he'
  · intro m hm
    exact (h.covered m hm).imp_right (hpending m).mpr
  · refine forall_update (by simp) fun u m phase hut hu => ?_
    have hid := h.id_ne ht hu hut
    exact (h.jobs u m phase hu).frame Iff.rfl ((hlookup m.id).trans (if_neg hid))
  · exact exclusive_update h.exclusive (by simp)
  · intro m hm hp
    refine (h.settled m hm ((hpending m).mp hp)).imp_left (exists_update_sent ?_)
    rw [ht]
    simp

end

/-! ### The steps of `ReplayWAL` -/

theorem TodoOk.tail {entry : WALEntry} {todo : List WALEntry} (h : TodoOk s (entry :: todo)) :
    TodoOk s todo where
  nodup := (nodup_cons.mp h.nodup).2
  pending e he := h.pending e (mem_cons_of_mem _ he)
  unsent e he := h.unsent e (mem_cons_of_mem _ he)

namespace Delivering

variable {entry : WALEntry} {todo : List WALEntry} {m : Main}

theorem jobOk_of_none (hnone : ∀ t, J t = none) :
    ∀ t m phase, J t = some (m, phase) → JobOk s m phase := by
  intro t m phase ht
  exact absurd ((hnone t).symm.trans ht) (by simp)

variable (h : Delivering s J)

include h

theorem jobs_none (hmain : s.main = m) (hm : m ≠ .serve) (t : ℕ) : J t = none := by
  rcases h.parked with hserve | hnone
  · exact absurd (hmain.symm.trans hserve) hm
  · exact hnone t

theorem unsent_of_idle (hnone : ∀ t, J t = none) (hmain : ∀ e todo, s.main ≠ .complete e todo)
    (hp : Pending s.wal msg) : msg ∉ s.sent := by
  intro hm
  rcases h.settled msg hm hp with ⟨u, hu⟩ | ⟨e, todo, heq, -⟩
  · exact absurd ((hnone u).symm.trans hu) (by simp)
  · exact hmain e todo heq

theorem msg_of_lookup (he : s.wal.entries.lookup entry.id = some entry)
    (hmsg : entry.msg = some msg) : msg ∈ s.appended ∧ msg.id = entry.id := by
  obtain ⟨m, hm, hid, hem⟩ := h.entries entry.id entry he
  obtain rfl : m = msg := some.inj (hem.symm.trans hmsg)
  exact ⟨hm, hid⟩

theorem replaySkip (hmain : s.main = .replay (entry :: todo)) {failed : List Message} :
    Delivering { s with failed := failed, main := .replay todo } J := by
  have hnone := h.jobs_none hmain (by simp)
  have htodo : TodoOk s (entry :: todo) := by simpa [hmain, ReplayOk] using h.replay
  refine ⟨h.agrees, h.ids, h.entries, h.covered, h.sent_mem, h.sent_nodup, jobOk_of_none hnone,
    h.exclusive, ?_, htodo.tail.frame (fun _ _ _ _ => Iff.rfl) fun _ _ => rfl, .inr hnone⟩
  intro m hm hp
  exact absurd hm (h.unsent_of_idle hnone (by simp [hmain]) hp)

theorem replaySendOk (hmain : s.main = .replay (entry :: todo)) (hmsg : entry.msg = some msg) :
    Delivering { s with sent := s.sent ++ [msg], main := .complete entry todo } J := by
  have hnone := h.jobs_none hmain (by simp)
  have htodo : TodoOk s (entry :: todo) := by simpa [hmain, ReplayOk] using h.replay
  have hentry := htodo.pending entry mem_cons_self
  obtain ⟨hmem, hid⟩ := h.msg_of_lookup hentry hmsg
  have hunsent := htodo.unsent entry mem_cons_self msg hmsg
  obtain ⟨hnotin, -⟩ := nodup_cons.mp htodo.nodup
  obtain ⟨hcovered, hsent_mem, hnodup⟩ := h.sent_append hmem hunsent
  refine ⟨h.agrees, h.ids, h.entries, hcovered, hsent_mem, hnodup, jobOk_of_none hnone,
    h.exclusive, ?_, ?_, .inr hnone⟩
  · intro m hm hp
    rcases mem_append.mp hm with hm | hm
    · exact absurd hm (h.unsent_of_idle hnone (by simp [hmain]) hp)
    · exact .inr ⟨entry, todo, rfl, by rw [hmsg, mem_singleton.mp hm]⟩
  · refine ⟨htodo.tail.frame (fun e he m hm => ?_) fun _ _ => rfl, hnotin, hentry, ?_⟩
    · -- the message of another entry has another id
      have hem := (h.msg_of_lookup (htodo.tail.pending e he) hm).2
      have hne : m ≠ msg := by
        rintro rfl
        exact hnotin (mem_map.mpr ⟨e, he, hem.symm.trans hid⟩)
      simp [hne]
    · intro m hm
      obtain rfl : msg = m := some.inj (hmsg.symm.trans hm)
      exact mem_append_right _ (mem_singleton_self _)

theorem replayComplete (hmain : s.main = .complete entry todo) {ts : String}
    (hfits : s.wal.RecordFits (.complete ts entry.id)) :
    Delivering
      { s with wal := (s.wal.complete .ok .ok ts entry.id).1, main := .replay todo } J := by
  have hnone := h.jobs_none hmain (by simp)
  obtain ⟨htodo, hnotin, hentry, hsent⟩ : ReplayOk s (.complete entry todo) := hmain ▸ h.replay
  obtain ⟨log, hlog⟩ := h.agrees
  have hlookup := Wal.lookup_complete hlog.ready ts entry.id
  obtain ⟨msg, hmem, hmsgid, hmsg⟩ := h.entries entry.id entry hentry
  refine ⟨Wal.step_agrees ⟨log, hlog⟩ hfits rfl, h.ids,
    fun k e he => h.entries k e (lookup_of_completed hlookup he),
    h.covered_completed hlookup hmem hmsgid (hsent msg hmsg), h.sent_mem, h.sent_nodup,
    jobOk_of_none hnone, h.exclusive, ?_, ?_, .inr hnone⟩
  · intro m hm hp
    have hid : m.id ≠ entry.id := id_ne_of_completed hlookup hp
    have hold := (pending_iff_of_ne hlookup hid).mp hp
    rcases h.settled m hm hold with ⟨u, hu⟩ | ⟨e, todo', heq, hem⟩
    · exact .inl ⟨u, hu⟩
    · obtain ⟨rfl, -⟩ := Main.complete.inj (hmain.symm.trans heq)
      exact absurd (h.msg_of_lookup hentry hem).2 hid
  · refine htodo.frame (fun _ _ _ _ => Iff.rfl) fun e he => ?_
    have hid : e.id ≠ entry.id := fun hid => hnotin (hid ▸ mem_map_of_mem he)
    exact (hlookup e.id).trans (if_neg hid)

/-- **`ReplayWAL` keeps the invariant.** -/
theorem replayMove {c : Choice} (hmove : ReplayMove s s.main c s')
    (hok : LogOk Fits s (s.main.walOp c) c) : Delivering s' J := by
  generalize hm : s.main = m at hmove hok
  cases hmove with
  | serve =>
    have hnone := h.jobs_none hm (by simp)
    refine ⟨h.agrees, h.ids, h.entries, h.covered, h.sent_mem, h.sent_nodup,
      jobOk_of_none hnone, h.exclusive, ?_, trivial, .inl rfl⟩
    intro m hmem hp
    exact absurd hmem (h.unsent_of_idle hnone (by simp [hm]) hp)
  | sendOk hmsg => exact h.replaySendOk hm hmsg
  | complete =>
    obtain ⟨⟨rfl, rfl⟩, hop⟩ := hok.of_wal
    exact h.replayComplete hm (hop _ rfl).1
  | _ => exact h.replaySkip hm

end Delivering

/-! ### The bus -/

/-- The messages the connections of the bus have in hand. -/
def jobs (P : Bus) (t : ℕ) : Option (Message × Phase) := (P.thread t).job

/-- The invariant for the whole bus: no connection is there before the server runs, and none
beyond those accepted. -/
structure BusDelivering (P : Bus) : Prop where
  delivering : Delivering P.shared (jobs P)
  parked : P.shared.main = .serve ∨ ∀ t, P.thread t = .closed
  beyond : ∀ t, P.size ≤ t → P.thread t = .closed

variable {P P' : Bus} {ev : Event}

theorem jobs_advance (P : Bus) (t : ℕ) (s' : Shared) (q : Conn) :
    jobs (P.advance t { shared := s', next := q, spawn := none }) =
      update (jobs P) t q.job := by
  funext u
  rw [jobs, Pool.advance_thread_none]
  by_cases hut : u = t
  · rw [hut, update_self, update_self]
  · rw [update_of_ne hut, update_of_ne hut, jobs]

theorem ConnMove.main_eq {p q : Conn} {c : Choice} (h : ConnMove s t p c s' q) :
    s'.main = s.main ∧ p ≠ .closed := by
  cases h with
  | quiet hsame _ _ hp => exact ⟨hsame.main, hp.1⟩
  | _ => exact ⟨rfl, by simp⟩

/-- **`HandleInbound` keeps the invariant.** -/
theorem Delivering.connMove {p q : Conn} {c : Choice} (h : Delivering s J)
    (hserve : s.main = .serve) (hp : J t = p.job) (hmove : ConnMove s t p c s' q)
    (hok : LogOk Fits s (p.walOp c) c) : Delivering s' (update J t q.job) := by
  have hkeep : update J t p.job = J := by rw [← hp, update_eq_self]
  cases hmove with
  | register reg =>
    rw [show Conn.job (.ack reg) = Conn.job (.register reg) from rfl, hkeep]
    exact h.congr h.agrees rfl rfl rfl rfl
  | unregister channel =>
    rw [show Conn.job .closing = Conn.job (.unregister channel) from rfl, hkeep]
    exact h.congr h.agrees rfl rfl rfl rfl
  | append _ msg ts =>
    obtain ⟨⟨rfl, rfl⟩, hop⟩ := hok.of_wal
    obtain ⟨hfits, hfresh⟩ := hop _ rfl
    obtain ⟨hmsg, hfresh⟩ := hfresh msg rfl
    obtain ⟨log, hlog⟩ := h.agrees
    have happended : (s.wal.append .ok .ok ts msg).2 = true := by
      rw [Wal.append_ok hlog.ready ts hmsg]
    simp only [happended]
    exact h.append hserve hp hfits hmsg hfresh
  | sendOk => exact h.sendOk hp
  | sendErr _ msg =>
    have hok' : JobOk s msg .failed := h.jobs t msg .unsent hp
    have hrephase := h.rephase hp (by simp) hok'
    exact hrephase.congr hrephase.agrees rfl rfl rfl rfl
  | complete =>
    obtain ⟨⟨rfl, rfl⟩, hop⟩ := hok.of_wal
    exact h.complete hp (hop _ rfl).1
  | retry =>
    obtain ⟨⟨rfl, rfl⟩, hop⟩ := hok.of_wal
    obtain ⟨htwo, hretry⟩ := h.retry hp (hop _ rfl).1
    rw [htwo]
    exact hretry
  | markDLQ _ msg n => exact (h.jobs t msg (.marking n) hp).elim
  | putDLQ _ msg n => exact (h.jobs t msg (.putting n) hp).elim
  | quiet hsame _ hjob =>
    rw [hjob, hkeep]
    exact h.same hsame

theorem Delivering.restart (h : Delivering s J) (hserve : s.main = .serve) (hidle : ∀ t, J t = none)
    {wal : Wal} {order : List String}
    (hwal : Wal.newWAL (s.wal.close .ok true true).1.writer.file.bytes = some wal)
    (horder : wal.entries.Enumerates order)
    {sidecars : Finmap fun _ : String => ℕ}
    {buffers : Finmap fun _ : String => RingBuffer Message} :
    Delivering { s with
      wal := wal
      main := .replay (wal.pendingEntries order)
      sidecars := sidecars
      buffers := buffers
      outbound := none } fun _ => none := by
  obtain ⟨log, hlog⟩ := h.agrees
  rw [Wal.bytes_close hlog.ready, hlog.newWAL] at hwal
  cases hwal
  have hunsent {m : Message} (hp : Pending s.wal m) : m ∉ s.sent :=
    h.unsent_of_idle hidle (by simp [hserve]) hp
  have hlookup {e : WALEntry} (he : e ∈ s.wal.entries.snapshot order) :
      s.wal.entries.lookup e.id = some e := by
    obtain ⟨k, hk⟩ := Table.mem_snapshot he
    exact Table.lookup_key hk
  refine ⟨⟨log, hlog.reopened⟩, h.ids, h.entries, h.covered, h.sent_mem, h.sent_nodup, by simp,
    by simp, fun m hm hp => absurd hm (hunsent hp), ⟨?_, ?_, ?_⟩, .inr fun _ => rfl⟩
  · exact horder.1.sublist (Table.map_key_snapshot_sublist s.wal.entries order)
  · exact fun e he => hlookup he
  · intro e he m hm
    have hid := (h.msg_of_lookup (hlookup he) hm).2
    exact hunsent ⟨e, by rw [hid]; exact hlookup he, hm⟩

theorem jobs_accept (h : BusDelivering P) : jobs (P.go .accepted) = jobs P := by
  funext u
  by_cases hu : u = P.size
  · rw [jobs, jobs, hu, Pool.go_thread_size, h.beyond P.size le_rfl]
    rfl
  · rw [jobs, jobs, Pool.go_thread_of_ne _ _ hu]

theorem jobs_none_of_idle (h : BusDelivering P) (hidle : ∀ t < P.size, ¬ (P.thread t).busy)
    (t : ℕ) : jobs P t = none := by
  by_cases ht : t < P.size
  · have hbusy := hidle t ht
    cases hp : P.thread t with
    | handle =>
      rw [hp] at hbusy
      exact absurd rfl hbusy
    | _ =>
      rw [jobs, hp]
      rfl
  · rw [jobs, h.beyond t (by omega)]
    rfl

/-- **Every step under the assumptions keeps the invariant.** -/
theorem busDelivering_step (h : BusDelivering P) (hok : Assumed P ev)
    (hs : busStep P ev = some P') : BusDelivering P' := by
  have ⟨hdel, hparked, hbeyond⟩ := h
  cases busStep_move hs with
  | accept hmain =>
    refine ⟨by rw [jobs_accept h]; exact hdel, .inl hmain, fun u hu => ?_⟩
    have hsize : P.size + 1 ≤ u := hu
    rw [Pool.go_thread_of_ne _ _ (by omega)]
    exact hbeyond u (by omega)
  | @act t c s' q ht hmove =>
    obtain ⟨hmain, hopen⟩ := hmove.main_eq
    have hserve : P.shared.main = .serve := hparked.resolve_right fun hclosed => hopen (hclosed t)
    refine ⟨?_, .inl ?_, fun u hu => ?_⟩
    · rw [jobs_advance]
      exact hdel.connMove hserve rfl hmove hok.1
    · rw [Pool.advance_shared, hmain, hserve]
    · have hsize : P.size ≤ u := hu
      have hut : u ≠ t := by omega
      rw [Pool.advance_thread_none, update_of_ne hut]
      exact hbeyond u hsize
  | @replay c s' hmove =>
    have hclosed : ∀ t, P.thread t = .closed := by
      refine hparked.resolve_left fun hserve => ?_
      rw [hserve] at hmove
      cases hmove
    exact ⟨hdel.replayMove hmove hok, .inr hclosed, hbeyond⟩
  | quiet _ hsame =>
    refine ⟨hdel.same hsame, ?_, hbeyond⟩
    rw [hsame.main]
    exact hparked
  | @compact o order hmain horder =>
    obtain rfl : o = .ok := hok
    obtain ⟨log, hlog⟩ := hdel.agrees
    have hcompact := Wal.compact_ok hlog.ready hlog.writable order
    refine ⟨hdel.congr ?_ ?_ rfl rfl rfl, .inl hmain, hbeyond⟩
    · rw [hcompact]
      exact ⟨_, hlog.compacted horder⟩
    · rw [hcompact]
  | restart hmain hidle hwal horder =>
    have hnone := jobs_none_of_idle h hidle
    exact ⟨hdel.restart hmain hnone hwal horder, .inr fun _ => rfl, fun _ _ => rfl⟩

theorem busDelivering_started (config : RouterConfig) : BusDelivering (started config) where
  delivering := by
    refine ⟨⟨[], Wal.agrees_start⟩, nodup_nil, ?_, by simp [started], by simp [started],
      nodup_nil, ?_, ?_, by simp [started], ⟨nodup_nil, by simp, by simp⟩,
      .inr fun _ => rfl⟩
    · intro k e he
      exact absurd he (by simp [started, Wal.start])
    · intro t m phase ht
      cases ht
    · intro t u a b ht
      cases ht
  parked := .inr fun _ => rfl
  beyond _ _ := rfl

end

/-- Every message that was appended to the log is sent to the bridge, or pending in the log, or
handed to the dead letter queue, and no message is sent twice. -/
def Delivered (P : Bus) : Prop :=
  (∀ msg ∈ P.shared.appended,
    msg ∈ P.shared.sent ∨ Pending P.shared.wal msg ∨ ∃ n, (msg, n) ∈ P.shared.dead) ∧
  (P.shared.sent.map Message.id).Nodup

theorem BusDelivering.delivered {P : Bus} (h : BusDelivering P) : Delivered P := by
  have hdel := h.delivering
  refine ⟨fun m hm => (hdel.covered m hm).imp_right .inl, ?_⟩
  refine (nodup_map_iff_inj_on hdel.sent_nodup).mpr fun a ha b hb hid => ?_
  exact hdel.eq_of_id (hdel.sent_mem a ha) (hdel.sent_mem b hb) hid

/-- **At-least-once delivery, and at most one successful send.**  Under the assumptions, in every
state of every run. -/
theorem delivered_along {config : RouterConfig} {es : List Event}
    (h : Meets busStep Assumed (started config) es) :
    Along busStep Delivered (started config) es :=
  Lib.along_of_meets (fun _ _ _ hP hok hs => busDelivering_step hP hok hs)
    (fun _ hP => hP.delivered) (busDelivering_started config) h

/-- One message fails to be sent, another is sent; after a restart the first is sent too. -/
def failedThenReplayed : List Event :=
  .replay .go :: registers 0 "slack" ++ receives 0 (.plain "m1" "slack") ++
    [.act 0 .err, .act 0 (.wal "t2" .ok .ok)] ++ receives 0 (.plain "m2" "slack") ++
    [.act 0 .ok, .act 0 (.wal "t3" .ok .ok), .act 0 .go, .restart ["m1"],
      .replay .ok, .replay (.wal "t4" .ok .ok), .replay .go]

theorem delivered_along_failedThenReplayed :
    (run busStep (started smallConfig) failedThenReplayed).isSome ∧
      Along busStep Delivered (started smallConfig) failedThenReplayed :=
  ⟨by decide +kernel, delivered_along (by decide +kernel)⟩

/-! ### A message that is lost -/

/-- The sidecar of "slack" is connected. -/
def connected : List Event := .replay .go :: registers 0 "slack"

/-- The send of its message fails, and the bus is restarted. -/
def failsThenRestarts (msg : Message) : List Event :=
  receives 0 msg ++ [.act 0 .err, .act 0 (.wal "t2" .ok .ok), .restart []]

section

variable {P : Bus} {s' : Shared} {q : Conn} {c : Choice} {msg : Message} {w : Wal}

theorem push_changed (buf : RingBuffer Message) (msg msg' : Message) :
    (buf.push msg).2.2 = (buf.push msg').2.2 := by
  unfold RingBuffer.push
  split_ifs <;> rfl

/-- The records of a message that is nested too deep: that of its `Append`, and that of the attempt
after its send. -/
structure TooDeep (msg : Message) : Prop where
  marshals : msg.Marshals
  not_nestable : ¬ msg.Nestable
  short : Short (Wal.pendingEntry "t1" msg)
  short_bumped : Short (Wal.bumped "t2" (Wal.pendingEntry "t1" msg))

/-- The log after the two records. -/
def twoRecords (w : Wal) (msg : Message) : Wal :=
  (w.logged (Wal.pendingEntry "t1" msg)).logged (Wal.bumped "t2" (Wal.pendingEntry "t1" msg))

theorem lookup_logged (w : Wal) (msg : Message) :
    (w.logged (Wal.pendingEntry "t1" msg)).entries.lookup msg.id =
      some (Wal.pendingEntry "t1" msg) := by
  have hput : WALEntry.reading.verb (Wal.pendingEntry "t1" msg) = .put := rfl
  rw [Wal.logged, Table.apply_of_put _ hput, Table.lookup_put]
  exact if_pos rfl

theorem incrementAttempts_logged (hw : w.writer.Ready) (hmsg : msg.Marshals) :
    (w.logged (Wal.pendingEntry "t1" msg)).incrementAttempts .ok .ok "t2" msg.id =
      (twoRecords w msg, some 2) :=
  Wal.incrementAttempts_ok (Lib.BufWriter.ready_write hw _) (lookup_logged w msg)
    (Wal.marshals_pendingEntry.mpr hmsg)

/-- **The next start finds nothing of the message.** -/
theorem newWAL_twoRecords (hw : w.Agrees []) (h : TooDeep msg) :
    ∃ wal, Wal.newWAL ((twoRecords w msg).close .ok true true).1.writer.file.bytes = some wal ∧
      wal.entries = .empty := by
  have hready := Lib.BufWriter.ready_write hw.ready
  have hcontents : (twoRecords w msg).writer.contents =
      logFile [Wal.pendingEntry "t1" msg, Wal.bumped "t2" (Wal.pendingEntry "t1" msg)] := by
    rw [twoRecords, Wal.logged, Wal.logged, Lib.BufWriter.contents_write (hready _),
      Lib.BufWriter.contents_write hw.ready, hw.contents]
    simp [logFile]
  have hmarshals : (Wal.pendingEntry "t1" msg).Marshals := Wal.marshals_pendingEntry.mpr h.marshals
  have hnestable : ¬ (Wal.pendingEntry "t1" msg).Nestable := fun hn => h.not_nestable (hn msg rfl)
  have hnestable' : ¬ (Wal.bumped "t2" (Wal.pendingEntry "t1" msg)).Nestable := hnestable
  rw [Wal.bytes_close (Lib.BufWriter.ready_write (hready _) _), hcontents, Wal.newWAL,
    recover_logFile_filter (by simpa using ⟨h.short, h.short_bumped⟩)
      (by simpa using ⟨hmarshals, hmarshals⟩)]
  simp [hnestable, hnestable']

/-- The bus has one connection, which is at `q`. -/
structure Serving (P : Bus) (s : Shared) (q : Conn) : Prop where
  shared : P.shared = s
  size : P.size = 1
  thread : P.thread 0 = q

/-- A run with distinct ids, short records and no errors. -/
def Allowed (P : Bus) (es : List Event) (Q : Bus) : Prop :=
  run busStep P es = some Q ∧ Meets busStep (AssumedWith Short) P es

variable {s : Shared} {es : List Event} {Φ : Bus → Prop}

theorem allowed_cons (P' : Bus) {ev : Event} (hok : AssumedWith Short P ev)
    (hstep : busStep P ev = some P') (hrest : ∃ Q, Allowed P' es Q ∧ Φ Q) :
    ∃ Q, Allowed P (ev :: es) Q ∧ Φ Q := by
  obtain ⟨Q, ⟨hrun, hmeets⟩, hQ⟩ := hrest
  exact ⟨Q, ⟨Lib.run_cons.mpr ⟨P', hstep, hrun⟩,
    (Lib.meets_cons_of_some hstep).mpr ⟨hok, hmeets⟩⟩, hQ⟩

theorem Serving.act (h : Serving P s q) (s' : Shared) (q' : Conn)
    (hlog : LogOk Short s (q.walOp c) c) (hput : q.putFails s c = false)
    (hstep : connStep s 0 q c = goOn s' q')
    (hrest : ∀ P', Serving P' s' q' → ∃ Q, Allowed P' es Q ∧ Φ Q) :
    ∃ Q, Allowed P (.act 0 c :: es) Q ∧ Φ Q := by
  obtain ⟨rfl, hsize, rfl⟩ := h
  refine allowed_cons (P.advance 0 ⟨s', q', none⟩) ⟨hlog, by simp [hput]⟩ ?_ (hrest _ ?_)
  · rw [busStep, if_pos (by omega), hstep, goOn, map_some]
  · exact ⟨rfl, hsize, by rw [Pool.advance_thread_none, update_self]⟩

/-- A step that does not touch the log. -/
theorem logOk_of_none (hop : q.walOp c = none) (hc : c.outcomes = []) :
    LogOk Short s (q.walOp c) c := by
  rw [hop]
  exact ⟨by simp [hc], by simp⟩

/-- A router that serves "slack" and has seen no message. -/
structure Fresh (s : Shared) : Prop where
  main : s.main = .serve
  buffer : ∃ buf, s.buffers.lookup "slack" = some buf ∧ ∀ msg, (buf.push msg).2.2 = false
  agrees : s.wal.Agrees []
  unsent : s.appended = [] ∧ s.sent = [] ∧ s.dead = []

theorem exists_fresh :
    ∃ P, Allowed (started smallConfig) connected P ∧ Serving P P.shared (.read "slack") ∧
      Fresh P.shared := by
  obtain ⟨P, hP, hmeets, hsize, hthread, hmain, hbuffer, hwriter, hentries, hunsent⟩ :
      ∃ P ∈ run busStep (started smallConfig) connected,
        Meets busStep (AssumedWith Short) (started smallConfig) connected ∧
        P.size = 1 ∧ P.thread 0 = .read "slack" ∧ P.shared.main = .serve ∧
        ((P.shared.buffers.lookup "slack").map fun buf =>
          (buf.push (.plain "m" "slack")).2.2) = some false ∧
        P.shared.wal.writer = Wal.start.writer ∧ P.shared.wal.entries = Wal.start.entries ∧
        P.shared.appended = [] ∧ P.shared.sent = [] ∧ P.shared.dead = [] := by
    decide +kernel
  obtain ⟨buf, hbuf, hpush⟩ := map_eq_some_iff.mp hbuffer
  refine ⟨P, ⟨hP, hmeets⟩, ⟨rfl, hsize, hthread⟩, hmain, ⟨buf, hbuf, fun msg => ?_⟩, ?_, hunsent⟩
  · rw [push_changed buf msg, hpush]
  · have hwal : P.shared.wal = Wal.start := by
      cases hw : P.shared.wal with
      | mk writer entries =>
        rw [hw] at hwriter hentries
        rw [show writer = _ from hwriter, show entries = _ from hentries]
    rw [hwal]
    exact Wal.agrees_start

/-- Where a restart leads when the log has nothing that can be read. -/
theorem Serving.restart {channel : String} (h : Serving P s (.read channel))
    (hmain : s.main = .serve) {wal : Wal}
    (hwal : Wal.newWAL (s.wal.close .ok true true).1.writer.file.bytes = some wal)
    (hentries : wal.entries = .empty) :
    ∃ Q, Allowed P [.restart []] Q ∧ Q.shared.wal = wal ∧ Q.shared.appended = s.appended ∧
      Q.shared.sent = s.sent ∧ Q.shared.dead = s.dead := by
  obtain ⟨rfl, hsize, hthread⟩ := h
  have hidle : ∀ t < P.size, ¬ (P.thread t).busy := by
    intro t ht
    obtain rfl : t = 0 := by omega
    simp [hthread, Conn.busy]
  have horder : wal.entries.Enumerates [] := by
    rw [hentries]
    decide
  obtain ⟨Q, hQ, hsame⟩ : ∃ Q, busStep P (.restart []) = some Q ∧ Q.shared.wal = wal ∧
      Q.shared.appended = P.shared.appended ∧ Q.shared.sent = P.shared.sent ∧
      Q.shared.dead = P.shared.dead := by
    rw [busStep, if_pos ⟨hmain, hidle⟩, hwal, bind_some, if_pos horder]
    exact ⟨_, rfl, rfl, rfl, rfl, rfl⟩
  exact allowed_cons Q trivial hQ ⟨Q, ⟨rfl, Lib.meets_nil Q⟩, hsame⟩

/-- **The message is lost**: it is in the log when its send fails, and after the restart it is
nowhere. -/
theorem Fresh.loses (h : Fresh s) (hP : Serving P s (.read "slack")) (hdeep : TooDeep msg)
    (hdata : msg.isControl = false) :
    ∃ Q, Allowed P (failsThenRestarts msg) Q ∧ Q.shared.wal.entries = .empty ∧
      Q.shared.appended = [msg] ∧ Q.shared.sent = [] ∧ Q.shared.dead = [] := by
  obtain ⟨hmain, ⟨buf, hbuf, hpush⟩, hagrees, happended, hsent, hdead⟩ := h
  obtain ⟨wal, hwal, hentries⟩ := newWAL_twoRecords hagrees hdeep
  have happend := Wal.append_ok hagrees.ready "t1" hdeep.marshals
  have hincrement := incrementAttempts_logged hagrees.ready hdeep.marshals
  let s₁ : Shared :=
    { s with wal := s.wal.logged (Wal.pendingEntry "t1" msg), appended := [msg] }
  let s₂ : Shared := { s₁ with buffers := s.buffers.insert "slack" (buf.push msg).1 }
  let s₃ : Shared := { s₂ with failed := s.failed ++ [msg] }
  refine hP.act s (.handle "slack" msg .start) (logOk_of_none rfl rfl) rfl rfl fun P₁ h₁ => ?_
  refine h₁.act s₁ (.handle "slack" msg .push) ?_ rfl ?_ fun P₂ h₂ => ?_
  · refine ⟨by simp [Choice.outcomes], ?_⟩
    rintro _ ⟨⟩
    refine ⟨fun e he => ?_, ?_⟩
    · cases (ite_none_right_eq_some.mp he).2
      exact hdeep.short
    · rintro _ ⟨⟩
      exact ⟨hdeep.marshals, by simp [happended]⟩
  · simp [connStep, inboundStep, hdata, happend, happended, s₁]
  refine h₂.act s₂ (.handle "slack" msg .send) (logOk_of_none rfl rfl) rfl ?_
    fun P₃ h₃ => ?_
  · simp [connStep, inboundStep, hbuf, hpush, s₁, s₂]
  refine h₃.act s₃ (.handle "slack" msg .retry) (logOk_of_none rfl rfl) rfl rfl
    fun P₄ h₄ => ?_
  refine h₄.act { s₃ with wal := twoRecords s.wal msg } (.read "slack") ?_ rfl ?_
    fun P₅ h₅ => ?_
  · refine ⟨by simp [Choice.outcomes], ?_⟩
    rintro _ ⟨⟩
    refine ⟨fun e he => ?_, by simp [Wal.Op.appended]⟩
    obtain ⟨e₀, he₀, rfl⟩ := map_eq_some_iff.mp he
    obtain rfl := some.inj ((lookup_logged s.wal msg).symm.trans he₀)
    exact hdeep.short_bumped
  · simp only [connStep, inboundStep, s₃, s₂, s₁, hincrement]
    rfl
  obtain ⟨Q, hQ, rfl, happended, hsent', hdead'⟩ := h₅.restart hmain hwal hentries
  exact ⟨Q, hQ, hentries, happended, hsent'.trans hsent, hdead'.trans hdead⟩

end

theorem tooDeep_deep {n : ℕ} (h : n + 1 < Lib.Json.maxNestingDepth)
    (hn : n + 2 = Lib.Json.maxNestingDepth) : TooDeep (Wal.deep n h) := by
  have hlength := Wal.length_deep h
  have hlimit : 2 * Lib.Json.maxNestingDepth + 200 < maxMessageSize := by decide
  have henvelope : Wal.envelopeSize "t1" (Wal.deep n h) = 76 ∧
      Wal.envelopeSize "t2" (Wal.deep n h) = 76 := by
    have hsizes : Wal.envelopeSize "t1" (.plain "m" "slack") = 76 ∧
        Wal.envelopeSize "t2" (.plain "m" "slack") = 76 := by decide +kernel
    exact hsizes
  refine ⟨Wal.marshals_deep h, ?_, ?_, ?_⟩
  · rw [Message.Nestable, Wal.nesting_deep]
    omega
  · rw [Short, Wal.length_pendingEntry]
    omega
  · have hbumped := Wal.length_pending "t2" (Wal.deep n h) 2 (by decide +kernel)
    have hshort : (Wal.bumped "t2" (Wal.pendingEntry "t1" (Wal.deep n h))).text.length <
        maxMessageSize := by
      refine hbumped.trans_lt ?_
      omega
    exact hshort

/-- **An accepted message is lost.**  Its payload is 9999 arrays deep, which `ReadMessage` takes;
its records are short, ids are distinct and no call on the log or the queue fails.  Its send fails,
and after a graceful restart it is not sent, not pending and not among the dead letters. -/
theorem deep_lost :
    ∃ msg, (∃ frame, readMessage frame = some (msg, [])) ∧
      ∃ P, Allowed (started smallConfig) (connected ++ failsThenRestarts msg) P ∧
        ¬ Delivered P := by
  obtain ⟨n, hn⟩ : ∃ n, n + 2 = Lib.Json.maxNestingDepth := ⟨9998, by decide⟩
  have h : n + 1 < Lib.Json.maxNestingDepth := by omega
  have hlimit : 2 * Lib.Json.maxNestingDepth + 200 < maxMessageSize := by decide
  have hlength := Wal.length_deep h
  have hframe : writeMessage (Wal.deep n h) =
      some (putUint32 (Wal.deep n h).text.length ++ (Wal.deep n h).text) := by
    rw [writeMessage, Message.marshal, if_pos (Wal.marshals_deep h), bind_some,
      if_neg (by omega)]
  obtain ⟨P, ⟨hP, hmeets⟩, hserving, hfresh⟩ := exists_fresh
  obtain ⟨Q, ⟨hQ, hmeets'⟩, hentries, happended, hsent, hdead⟩ :=
    hfresh.loses hserving (tooDeep_deep h hn) rfl
  refine ⟨Wal.deep n h, ⟨_, readMessage_writeMessage hframe []⟩, Q,
    ⟨Lib.run_append.mpr ⟨P, hP, hQ⟩, Lib.meets_append.mpr ⟨hmeets, fun P' hP' => ?_⟩⟩, ?_⟩
  · obtain rfl := some.inj (hP.symm.trans hP')
    exact hmeets'
  · rintro ⟨hall, -⟩
    rcases hall (Wal.deep n h) (by simp [happended]) with hm | ⟨e, he, -⟩ | ⟨_, hm⟩
    · simp [hsent] at hm
    · simp [hentries] at he
    · simp [hdead] at hm

end K8s4Claw.IpcBus
