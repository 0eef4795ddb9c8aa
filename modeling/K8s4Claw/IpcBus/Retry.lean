/-
# Counting failed sends

A failed `bridge.Send` of `HandleInbound` is counted by `scheduleRetry`, one of `ReplayWAL`
is only logged: after a restart a message can fail again and again, its `Attempts` stay as
they are, and it never gets to the dead letter queue (`failsAgain_uncounted`).
-/

import K8s4Claw.IpcBus.Delivery

namespace K8s4Claw.IpcBus

open Option Function
open Lib (Along Meets run)

/-- How many sends of the message failed. -/
def failures (s : Shared) (msg : Message) : ℕ := s.failed.count msg

/-- The attempts of a pending message are one more than its failed sends, and a message that
failed `maxRetryAttempts - 1` times is not pending but in the dead letter queue.  Left out is a
message that a `HandleInbound` failed to send and has not counted yet. -/
def Accounted (P : Bus) : Prop :=
  ∀ msg ∈ P.shared.appended, (∀ t, jobs P t ≠ some (msg, .failed)) →
    (∀ e, P.shared.wal.entries.lookup msg.id = some e →
      e.attempts.toInt = 1 + failures P.shared msg) ∧
    (maxRetryAttempts.toInt - 1 ≤ failures P.shared msg →
      P.shared.wal.entries.lookup msg.id = none ∧ ∃ n, (msg, n) ∈ P.shared.dead)

/-- A send of `ReplayWAL` fails. -/
def Event.replayFails : Event → Bool
  | .replay .err => true
  | _ => false

/-- The assumptions of at-least-once delivery, and no send of `ReplayWAL` fails. -/
def ReplaySends (P : Bus) (ev : Event) : Prop := Assumed P ev ∧ ¬ ev.replayFails
  deriving Decidable

/-! ### The invariant -/

/-- Every message fails at most once, and its entry counts that. -/
structure Counted (s : Shared) (J : ℕ → Option (Message × Phase)) : Prop where
  le_one : ∀ msg, failures s msg ≤ 1
  fresh : ∀ msg, msg ∉ s.appended → failures s msg = 0
  unsent : ∀ t msg, J t = some (msg, .unsent) → failures s msg = 0
  failed : ∀ t msg, J t = some (msg, .failed) → failures s msg = 1
  account : ∀ msg e, s.wal.entries.lookup msg.id = some e → e.msg = some msg →
    (∀ t, J t ≠ some (msg, .failed)) → e.attempts.toInt = 1 + failures s msg

section

variable {s s' : Shared} {J J' : ℕ → Option (Message × Phase)} {t : ℕ} {msg : Message}

theorem failures_concat (s : Shared) (msg m : Message) :
    failures { s with failed := s.failed ++ [msg] } m =
      failures s m + if msg = m then 1 else 0 := by
  simp [failures, List.count_singleton]

section

variable (h : Counted s J) (hfailed : s'.failed = s.failed) (happended : s'.appended = s.appended)
  (hentries : ∀ k e, s'.wal.entries.lookup k = some e → s.wal.entries.lookup k = some e)

include h hfailed happended hentries

/-- The count stays right when nothing fails, no entry changes, and the messages that have failed
stay in the hands they are in. -/
theorem Counted.frame
    (hunsent : ∀ u m, J' u = some (m, .unsent) → J u = some (m, .unsent))
    (hinhand : ∀ u m, J' u = some (m, .failed) ↔ J u = some (m, .failed)) : Counted s' J' := by
  have hfailures (m : Message) : failures s' m = failures s m := by rw [failures, failures, hfailed]
  refine ⟨?_, ?_, ?_, ?_, ?_⟩
  · intro m
    rw [hfailures]
    exact h.le_one m
  · intro m hm
    rw [hfailures]
    exact h.fresh m (happended ▸ hm)
  · intro u m hu
    rw [hfailures]
    exact h.unsent u m (hunsent u m hu)
  · intro u m hu
    rw [hfailures]
    exact h.failed u m ((hinhand u m).mp hu)
  · intro m e he hmsg hcount
    rw [hfailures]
    exact h.account m e (hentries _ e he) hmsg fun u hu => hcount u ((hinhand u m).mpr hu)

theorem Counted.keep : Counted s' J :=
  h.frame hfailed happended hentries (fun _ _ hu => hu) fun _ _ => Iff.rfl

end

theorem Counted.same (h : Counted s J) (hsame : s.Same s') : Counted s' J := by
  refine h.keep hsame.failed hsame.appended fun k e he => ?_
  rwa [hsame.wal] at he

theorem update_eq_iff {x : Option (Message × Phase)} {a : Message × Phase} (ht : J t ≠ some a)
    (hx : x ≠ some a) (u : ℕ) : update J t x u = some a ↔ J u = some a :=
  ⟨fun hu => (of_update_eq_some hx hu).2, update_eq_some ht⟩

theorem Counted.next (h : Counted s J) {x : Option (Message × Phase)}
    (hfailed : s'.failed = s.failed) (happended : s'.appended = s.appended)
    (hentries : ∀ k e, s'.wal.entries.lookup k = some e → s.wal.entries.lookup k = some e)
    (ht : ∀ m, J t ≠ some (m, .failed)) (hx : ∀ m, x ≠ some (m, .unsent))
    (hx' : ∀ m, x ≠ some (m, .failed)) : Counted s' (update J t x) := by
  refine h.frame hfailed happended hentries ?_ fun u m => update_eq_iff (ht m) (hx' m) u
  intro u m hu
  exact (of_update_eq_some (hx m) hu).2

/-! ### The steps that count -/

theorem Counted.sendErr (h : Counted s J) (ht : J t = some (msg, .unsent))
    (hexclusive : ∀ u m phase, u ≠ t → J u = some (m, phase) → m ≠ msg)
    (hmem : msg ∈ s.appended) :
    Counted { s with failed := s.failed ++ [msg] }
      (update J t (some (msg, .failed))) := by
  have hzero := h.unsent t msg ht
  refine ⟨?_, ?_, ?_, ?_, ?_⟩
  · intro m
    rw [failures_concat]
    split_ifs with hm
    · rw [← hm, hzero]
    · exact h.le_one m
  · intro m hm
    have hne : msg ≠ m := by
      rintro rfl
      exact hm hmem
    rw [failures_concat, if_neg hne, h.fresh m hm]
  · intro u m hu
    obtain ⟨hut, hu⟩ := of_update_eq_some (by simp) hu
    rw [failures_concat, if_neg (Ne.symm (hexclusive u m _ hut hu)), h.unsent u m hu]
  · intro u m hu
    rw [failures_concat]
    by_cases hut : u = t
    · subst hut
      rw [update_self] at hu
      obtain ⟨rfl, -⟩ := Prod.mk.inj (some.inj hu)
      rw [hzero, if_pos rfl]
    · rw [update_of_ne hut] at hu
      rw [if_neg (Ne.symm (hexclusive u m _ hut hu)), h.failed u m hu]
  · intro m e he hmsg hcount
    have hne : msg ≠ m := by
      rintro rfl
      exact hcount t (update_self ..)
    rw [failures_concat, if_neg hne]
    refine h.account m e he hmsg fun u hu => hcount u (update_eq_some ?_ hu)
    rw [ht]
    simp

theorem Counted.append (h : Counted s J) {wal : Wal} {entry : WALEntry} (hnew : msg ∉ s.appended)
    (hlookup : ∀ k, wal.entries.lookup k =
      if k = msg.id then some entry else s.wal.entries.lookup k)
    (hentry : entry.msg = some msg ∧ entry.attempts = 1) (ht : J t = none) :
    Counted { s with wal := wal, appended := s.appended ++ [msg] }
      (update J t (some (msg, .unsent))) := by
  have hfailed : ∀ m, J t ≠ some (m, .failed) := by simp [ht]
  refine ⟨h.le_one, ?_, ?_, ?_, ?_⟩
  · intro m hm
    exact h.fresh m fun hold => hm (List.mem_append_left _ hold)
  · intro u m hu
    by_cases hut : u = t
    · subst hut
      rw [update_self] at hu
      obtain ⟨rfl, -⟩ := Prod.mk.inj (some.inj hu)
      exact h.fresh msg hnew
    · rw [update_of_ne hut] at hu
      exact h.unsent u m hu
  · intro u m hu
    exact h.failed u m ((update_eq_iff (hfailed m) (by simp) u).mp hu)
  · intro m e he hmsg hcount
    rw [hlookup] at he
    split_ifs at he
    · cases he
      obtain rfl : msg = m := some.inj (hentry.1.symm.trans hmsg)
      have hzero : failures { s with wal := wal, appended := s.appended ++ [msg] } msg = 0 :=
        h.fresh msg hnew
      rw [hentry.2, hzero]
      rfl
    · exact h.account m e he hmsg fun u hu =>
        hcount u ((update_eq_iff (hfailed m) (by simp) u).mpr hu)

theorem Counted.retry (h : Counted s J) {wal : Wal} {entry : WALEntry} {ts : String}
    (hlookup : ∀ k, wal.entries.lookup k =
      if k = msg.id then some (Wal.bumped ts entry) else s.wal.entries.lookup k)
    (hentry : entry.msg = some msg ∧ entry.attempts = 1) (ht : J t = some (msg, .failed)) :
    Counted { s with wal := wal } (update J t none) := by
  have hone := h.failed t msg ht
  refine ⟨h.le_one, h.fresh, ?_, ?_, ?_⟩
  · intro u m hu
    exact h.unsent u m ((update_eq_iff (by simp [ht]) (by simp) u).mp hu)
  · intro u m hu
    exact h.failed u m (of_update_eq_some (by simp) hu).2
  · intro m e he hmsg hcount
    rw [hlookup] at he
    split_ifs at he with hid
    · cases he
      obtain rfl : msg = m := some.inj (hentry.1.symm.trans hmsg)
      have hone' : failures { s with wal := wal } msg = 1 := hone
      rw [Wal.bumped, hentry.2, hone']
      rfl
    · refine h.account m e he hmsg fun u hu => hcount u (update_eq_some ?_ hu)
      intro hm
      obtain ⟨rfl, -⟩ := Prod.mk.inj (some.inj (ht.symm.trans hm))
      exact hid rfl

/-! ### Every step -/

theorem Counted.connMove {p q : Conn} {c : Choice} (h : Counted s J) (hdel : Delivering s J)
    (hp : J t = p.job) (hmove : ConnMove s t p c s' q) (hok : LogOk Fits s (p.walOp c) c) :
    Counted s' (update J t q.job) := by
  have hkeep : update J t p.job = J := by rw [← hp, update_eq_self]
  cases hmove with
  | register reg =>
    rw [show Conn.job (.ack reg) = Conn.job (.register reg) from rfl, hkeep]
    exact h.keep rfl rfl fun _ _ he => he
  | unregister channel =>
    rw [show Conn.job .closing = Conn.job (.unregister channel) from rfl, hkeep]
    exact h.keep rfl rfl fun _ _ he => he
  | append _ msg ts =>
    obtain ⟨⟨rfl, rfl⟩, hop⟩ := hok.of_wal
    obtain ⟨hmsg, hfresh⟩ := (hop _ rfl).2 msg rfl
    obtain ⟨log, hlog⟩ := hdel.agrees
    have happended : (s.wal.append .ok .ok ts msg).2 = true := by
      rw [Wal.append_ok hlog.ready ts hmsg]
    simp only [happended]
    exact h.append (fun hm => hfresh (List.mem_map_of_mem hm))
      (Wal.lookup_append hlog.ready ts hmsg) ⟨rfl, rfl⟩ hp
  | sendOk _ msg =>
    have ht : J t = some (msg, .unsent) := hp
    exact h.next rfl rfl (fun _ _ he => he) (by simp [ht]) (by simp [Conn.job])
      (by simp [Conn.job])
  | sendErr _ msg =>
    have hpending := (hdel.jobs t msg .unsent hp).pending
    refine h.sendErr hp (fun u m phase hut hu hm => ?_) (hdel.mem_of_pending hpending)
    exact hdel.id_ne hp hu hut (congrArg Message.id hm)
  | complete _ msg ts =>
    obtain ⟨⟨rfl, rfl⟩, -⟩ := hok.of_wal
    obtain ⟨log, hlog⟩ := hdel.agrees
    have ht : J t = some (msg, .sent) := hp
    have hlookup := Wal.lookup_complete hlog.ready ts msg.id
    exact h.next rfl rfl (fun _ _ he => Delivering.lookup_of_completed hlookup he)
      (by simp [ht]) (by simp [Conn.job]) (by simp [Conn.job])
  | retry _ msg ts =>
    obtain ⟨⟨rfl, rfl⟩, hop⟩ := hok.of_wal
    obtain ⟨log, hlog⟩ := hdel.agrees
    obtain ⟨-, e, he, hentry⟩ := hdel.jobs t msg .failed hp
    rw [(hdel.retry hp (hop _ rfl).1).1]
    exact h.retry (Wal.lookup_incrementAttempts .ok .ok ts he) hentry hp
  | markDLQ _ msg n => exact (hdel.jobs t msg (.marking n) hp).elim
  | putDLQ _ msg n => exact (hdel.jobs t msg (.putting n) hp).elim
  | quiet hsame _ hjob =>
    rw [hjob, hkeep]
    exact h.same hsame

theorem Counted.replayMove (h : Counted s J) (hdel : Delivering s J) {m : Main} {c : Choice}
    (hmove : ReplayMove s m c s') (hok : LogOk Fits s (m.walOp c) c) (hc : c ≠ .err) :
    Counted s' J := by
  cases hmove with
  | serve | skip | sendOk =>
    exact h.keep rfl rfl fun _ _ he => he
  | sendErr => exact absurd rfl hc
  | @complete entry _ ts =>
    obtain ⟨⟨rfl, rfl⟩, -⟩ := hok.of_wal
    obtain ⟨log, hlog⟩ := hdel.agrees
    have hlookup := Wal.lookup_complete hlog.ready ts entry.id
    exact h.keep rfl rfl fun _ _ he => Delivering.lookup_of_completed hlookup he

/-- The invariant for the whole bus. -/
structure BusCounted (P : Bus) : Prop where
  bus : BusDelivering P
  counted : Counted P.shared (jobs P)

/-- **Every step in which no send of `ReplayWAL` fails keeps the count right.** -/
theorem busCounted_step {P P' : Bus} {ev : Event} (h : BusCounted P) (hok : ReplaySends P ev)
    (hs : busStep P ev = some P') : BusCounted P' := by
  obtain ⟨hbus, hcounted⟩ := h
  obtain ⟨hassumed, hsends⟩ := hok
  have hbus' := busDelivering_step hbus hassumed hs
  refine ⟨hbus', ?_⟩
  cases busStep_move hs with
  | accept =>
    have hjobs : jobs (P.go .accepted) = jobs P := jobs_accept hbus
    rw [hjobs]
    exact hcounted
  | @act t c s' q ht hmove =>
    rw [jobs_advance]
    exact hcounted.connMove hbus.delivering rfl hmove hassumed.1
  | @replay c s' hmove =>
    have hc : c ≠ .err := by
      rintro rfl
      exact hsends rfl
    exact hcounted.replayMove hbus.delivering hmove hassumed hc
  | quiet _ hsame => exact hcounted.same hsame
  | @compact o =>
    obtain rfl : o = .ok := hassumed
    obtain ⟨log, hlog⟩ := hbus.delivering.agrees
    refine hcounted.keep rfl rfl fun k e he => ?_
    rwa [Wal.compact_ok hlog.ready hlog.writable] at he
  | @restart _ _ _ hidle hwal =>
    obtain ⟨log, hlog⟩ := hbus.delivering.agrees
    rw [Wal.bytes_close hlog.ready, hlog.newWAL] at hwal
    cases hwal
    have hnone := jobs_none_of_idle hbus hidle
    refine hcounted.frame rfl rfl (fun _ _ he => he) (fun u m hu => ?_) fun u m => ?_
    · cases hu
    · rw [hnone u]
      exact Iff.rfl

theorem busCounted_started (config : RouterConfig) : BusCounted (started config) where
  bus := busDelivering_started config
  counted := by
    refine ⟨fun m => ?_, fun m _ => rfl, ?_, ?_, ?_⟩
    · exact Nat.zero_le 1
    · intro t m ht
      cases ht
    · intro t m ht
      cases ht
    · intro m e he
      exact absurd he (by simp [started, Wal.start])

end

theorem BusCounted.accounted {P : Bus} (h : BusCounted P) : Accounted P := by
  obtain ⟨hbus, hcounted⟩ := h
  intro msg hmem hcount
  refine ⟨fun e he => ?_, fun hmax => ?_⟩
  · obtain ⟨m, hm, hid, hmsg⟩ := hbus.delivering.entries msg.id e he
    obtain rfl := hbus.delivering.eq_of_id hm hmem hid
    exact hcounted.account m e he hmsg hcount
  · have hone := hcounted.le_one msg
    have hfour : maxRetryAttempts.toInt - 1 = 4 := rfl
    omega

/-- **Attempts count the failed sends**, in every state of every run in which no send of
`ReplayWAL` fails. -/
theorem accounted_along {config : RouterConfig} {es : List Event}
    (h : Meets busStep ReplaySends (started config) es) :
    Along busStep Accounted (started config) es :=
  Lib.along_of_meets (fun _ _ _ hP hok hs => busCounted_step hP hok hs)
    (fun _ hP => hP.accounted) (busCounted_started config) h

theorem accounted_along_failedThenReplayed :
    (run busStep (started smallConfig) failedThenReplayed).isSome ∧
      Along busStep Accounted (started smallConfig) failedThenReplayed :=
  ⟨by decide +kernel, accounted_along (by decide +kernel)⟩

/-- A message fails once when it arrives, and again when it is replayed after a restart. -/
def failsAgain : List Event :=
  .replay .go :: registers 0 "slack" ++ receives 0 (.plain "m1" "slack") ++
    [.act 0 .err, .act 0 (.wal "t2" .ok .ok), .restart ["m1"], .replay .err, .replay .go]

/-- **Two sends failed and no call is in progress, but the entry has two attempts, not three.** -/
theorem failsAgain_uncounted :
    ∃ P ∈ run busStep (started smallConfig) failsAgain,
      failures P.shared (.plain "m1" "slack") = 2 ∧ P.shared.main = .serve ∧
        (P.shared.wal.entries.lookup "m1").map WALEntry.attempts = some 2 := by
  decide +kernel

end K8s4Claw.IpcBus
