/-
# Replaying the bus-down buffer

`Client.replayBuffer` of `sdk/channel/client.go`, which `dial` calls once the
new connection is installed.  Its loop over the drained messages runs while other
goroutines may call `Send`, and a `Send` that finds the client disconnected pushes
to the same buffer.  A `Turn` is what one pass of the loop meets: the messages
pushed since the previous pass and how the attempt to write the message of this
pass ended.

The SDK design promises that buffered messages are replayed "in FIFO order before new sends".  On a
failure the code puts back the one message it could not write, at the end of the buffer, and drops
the rest of the drained batch (`replayBuffer_keepsBuffered_iff`).
-/

import K8s4Claw.Sdk.Buffer
import Mathlib.Data.List.Nodup

namespace K8s4Claw.Sdk

open List

/-- How the attempt to write one message ended: `c.conn` was nil, `writeMessage`
failed, or the frame was written. -/
inductive Attempt where
  | noConn
  | writeErr
  | written
  deriving DecidableEq

/-- One pass of the replay loop: the messages other goroutines pushed since the
previous pass, and the outcome of this one. -/
structure Turn where
  meanwhile : List Message
  outcome : Attempt

/-- What `replayBuffer` leaves: the messages it wrote to the connection, the
buffer, and whether every push of another goroutine was accepted. -/
structure Replayed where
  written : List Message
  buf : Buffer
  accepted : Bool

/-- The loop over the drained batch, from pass `i` on. -/
def replayFrom (turn : ℕ → Turn) : ℕ → List Message → Buffer → Replayed
  | _, [], b => ⟨[], b, true⟩
  | i, msg :: msgs, b =>
      let p := b.pushAll (turn i).meanwhile
      match (turn i).outcome with
      | .noConn => ⟨[], (p.1.push msg).1, p.2⟩
      | .writeErr => ⟨[], (p.1.push msg).1, p.2⟩
      | .written =>
          let r := replayFrom turn (i + 1) msgs p.1
          ⟨msg :: r.written, r.buf, p.2 && r.accepted⟩

/-- `replayBuffer`, with the messages `after` pushed between its last access to
the buffer and its return. -/
def replayBuffer (turn : ℕ → Turn) (after : List Message) (b : Buffer) : Replayed :=
  let d := b.drainAll
  let r := replayFrom turn 0 d.1 d.2
  let p := r.buf.pushAll after
  ⟨r.written, p.1, r.accepted && p.2⟩

/-- The messages pushed by other goroutines during the passes `i, …, i + n - 1`. -/
def pushed (turn : ℕ → Turn) : ℕ → ℕ → List Message
  | _, 0 => []
  | i, n + 1 => (turn i).meanwhile ++ pushed turn (i + 1) n

/-- Pass `i + k` is the first to fail: `k` messages are written, and the `k`-th is
pushed after everything pushed so far.  The rest of the batch is gone. -/
structure StopsAt (turn : ℕ → Turn) (i : ℕ) (msgs : List Message) (b : Buffer) (k : ℕ) :
    Prop where
  lt : k < msgs.length
  before : ∀ j < k, (turn (i + j)).outcome = .written
  fails : (turn (i + k)).outcome ≠ .written
  written : (replayFrom turn i msgs b).written = msgs.take k
  buf : ∃ bk : Buffer, bk.items = b.items ++ pushed turn i (k + 1) ∧
    (replayFrom turn i msgs b).buf = (bk.push (msgs.get ⟨k, lt⟩)).1

variable {turn : ℕ → Turn} {k : ℕ} {old new : List Message}

theorem stopsAt_zero {i : ℕ} {msg : Message} {msgs : List Message} {b : Buffer}
    (hacc : (replayFrom turn i (msg :: msgs) b).accepted = true)
    (ho : (turn i).outcome ≠ .written) : StopsAt turn i (msg :: msgs) b 0 := by
  have hr : replayFrom turn i (msg :: msgs) b =
      ⟨[], ((b.pushAll (turn i).meanwhile).1.push msg).1, (b.pushAll (turn i).meanwhile).2⟩ := by
    cases h : (turn i).outcome with
    | noConn | writeErr => simp [replayFrom, h]
    | written => exact absurd h ho
  rw [hr] at hacc
  refine ⟨Nat.zero_lt_succ _, by simp, ho, by rw [hr]; rfl, _, ?_, by rw [hr]; rfl⟩
  rw [Buffer.items_pushAll hacc]
  simp [pushed]

theorem forall_lt_succ_outcome {i : ℕ} (h0 : (turn i).outcome = .written)
    (h : ∀ j < k, (turn (i + 1 + j)).outcome = .written) :
    ∀ j < k + 1, (turn (i + j)).outcome = .written := by
  intro j hj
  cases j with
  | zero => exact h0
  | succ j =>
    rw [← Nat.add_assoc, Nat.add_right_comm]
    exact h j (Nat.lt_of_succ_lt_succ hj)

/-- **What the loop does.**  It writes the whole batch and the buffer gets what
was pushed meanwhile, or it stops at the first pass that fails. -/
theorem replayFrom_cases (turn : ℕ → Turn) (msgs : List Message) (i : ℕ) (b : Buffer)
    (hacc : (replayFrom turn i msgs b).accepted = true) :
    ((∀ j < msgs.length, (turn (i + j)).outcome = .written) ∧
        (replayFrom turn i msgs b).written = msgs ∧
        (replayFrom turn i msgs b).buf.items = b.items ++ pushed turn i msgs.length) ∨
      ∃ k, StopsAt turn i msgs b k := by
  induction msgs generalizing i b with
  | nil => exact .inl ⟨by simp, rfl, by simp [replayFrom, pushed]⟩
  | cons msg msgs ih =>
    by_cases ho : (turn i).outcome = .written
    · have hr : replayFrom turn i (msg :: msgs) b =
          ⟨msg :: (replayFrom turn (i + 1) msgs (b.pushAll (turn i).meanwhile).1).written,
            (replayFrom turn (i + 1) msgs (b.pushAll (turn i).meanwhile).1).buf,
            (b.pushAll (turn i).meanwhile).2 &&
              (replayFrom turn (i + 1) msgs (b.pushAll (turn i).meanwhile).1).accepted⟩ := by
        simp [replayFrom, ho]
      rw [hr, Bool.and_eq_true] at hacc
      have hitems := Buffer.items_pushAll hacc.1
      rcases ih (i + 1) _ hacc.2 with ⟨hall, hw, hb⟩ | ⟨k, hk⟩
      · refine .inl ⟨forall_lt_succ_outcome ho hall, by rw [hr, hw], ?_⟩
        rw [hr, hb, hitems, append_assoc]
        rfl
      · obtain ⟨bk, hbk, hb⟩ := hk.buf
        refine .inr ⟨k + 1, Nat.succ_lt_succ hk.lt, forall_lt_succ_outcome ho hk.before, ?_,
          by rw [hr, hk.written, take_succ_cons], bk, ?_, by rw [hr]; exact hb⟩
        · rw [← Nat.add_assoc, Nat.add_right_comm]
          exact hk.fails
        · rw [hbk, hitems, append_assoc]
          rfl
    · exact .inr ⟨0, stopsAt_zero hacc ho⟩

/-- What the design asks of a replay of the buffered messages `old`: the messages
written, followed by those in the buffer, begin with `old` and hold each of
`old` once. -/
def KeepsBuffered (old : List Message) (r : Replayed) : Prop :=
  old <+: r.written ++ r.buf.items ∧ ∀ m ∈ old, (r.written ++ r.buf.items).count m = 1
  deriving Decidable

theorem keepsBuffered_of_eq {r : Replayed} (hnd : (old ++ new).Nodup)
    (h : r.written ++ r.buf.items = old ++ new) : KeepsBuffered old r := by
  rw [KeepsBuffered, h]
  refine ⟨prefix_append .., fun m hm => ?_⟩
  exact count_eq_one_of_mem hnd (mem_append_left _ hm)

theorem prefix_take_append_iff {l : List Message} : old <+: old.take k ++ l ↔ old.drop k <+: l := by
  have h : old.take k ++ old.drop k <+: old.take k ++ l ↔ old.drop k <+: l :=
    prefix_append_right_inj _
  rwa [take_append_drop] at h

theorem items_push_of_nil {b : Buffer} (msg : Message) (hb : b.items = []) :
    (b.push msg).1.items = [msg] := by
  have hlt : b.items.length < b.cap := by rw [hb]; exact b.cap_pos
  rw [(Buffer.push_of_lt hlt).1, hb, nil_append]

/-- A batch cut at a failure keeps its order only if the failing message was its
last one and the buffer was empty when it was put back: otherwise the message
after the cut is one that was not in the batch. -/
theorem last_of_drop_prefix (hk : k < old.length) (b : Buffer)
    (hdisj : ∀ m ∈ old, m ∉ b.items ++ new)
    (h : old.drop k <+: (b.push (old.get ⟨k, hk⟩)).1.items ++ new) :
    k + 1 = old.length ∧ b.items = [] := by
  have hdrop : old.drop k = old.get ⟨k, hk⟩ :: old.drop (k + 1) :=
    drop_eq_getElem_cons hk
  rw [hdrop] at h
  cases hb : b.items with
  | nil =>
    rw [items_push_of_nil _ hb, singleton_append, cons_prefix_cons] at h
    refine ⟨?_, rfl⟩
    by_contra hne
    have hlt : k + 1 < old.length := by omega
    rw [drop_eq_getElem_cons hlt] at h
    have hmem : old[k + 1] ∈ new := h.2.subset (mem_cons_self ..)
    exact hdisj _ (getElem_mem hlt) (mem_append_right _ hmem)
  | cons x =>
    have hx : old.get ⟨k, hk⟩ ≠ x := by
      rintro rfl
      exact hdisj _ (get_mem old ⟨k, hk⟩) (by simp [hb])
    rcases Buffer.items_push_cases b (old.get ⟨k, hk⟩) with hp | ⟨hp, -⟩ <;>
      rw [hp, hb] at h <;> exact absurd (cons_prefix_cons.1 h).1 hx

/-- **A batch cut at its `k`th message**, which is put back behind what the buffer
holds by then, is kept exactly when that was the last message and the buffer was
empty. -/
theorem keepsBuffered_cut_iff (hk : k < old.length) {b : Buffer} {r : Replayed}
    (hnd : (old ++ new).Nodup) (hdisj : ∀ m ∈ old, m ∉ b.items ++ new)
    (hout : r.written ++ r.buf.items =
      old.take k ++ ((b.push (old.get ⟨k, hk⟩)).1.items ++ new)) :
    KeepsBuffered old r ↔ k + 1 = old.length ∧ b.items = [] := by
  constructor
  · rintro ⟨hpre, -⟩
    rw [hout, prefix_take_append_iff] at hpre
    exact last_of_drop_prefix hk b hdisj hpre
  · rintro ⟨hlast, hnil⟩
    have hold : old.take k ++ [old.get ⟨k, hk⟩] = old := by
      have h := take_append_getElem hk
      rwa [take_of_length_le (i := k + 1) (by omega)] at h
    refine keepsBuffered_of_eq hnd ?_
    rw [hout, items_push_of_nil _ hnil, ← append_assoc, hold]

theorem pushed_subset {i n : ℕ} (h : k ≤ n) : pushed turn i k ⊆ pushed turn i n := by
  induction k generalizing i n with
  | zero => exact nil_subset _
  | succ k ih =>
    obtain ⟨n, rfl⟩ : ∃ m, n = m + 1 := ⟨n - 1, by omega⟩
    exact append_subset.2 ⟨subset_append_left ..,
      List.Subset.trans (ih (Nat.le_of_succ_le_succ h)) (subset_append_right ..)⟩

/-- **When the replay loses and reorders nothing.**  Let the buffered messages and
those pushed during and after the replay be pairwise distinct (`newMessage`
draws a fresh UUID each time) and let every push of another goroutine be
accepted.  Then the messages written followed by the buffer keep the buffered
messages, once each, in order and ahead of the newer ones, exactly when every
write succeeds, or every write but the last does and nothing was pushed before
the last one was attempted. -/
theorem replayBuffer_keepsBuffered_iff (turn : ℕ → Turn) (after : List Message) (b : Buffer)
    (hnd : (b.items ++ (pushed turn 0 b.items.length ++ after)).Nodup)
    (hacc : (replayBuffer turn after b).accepted = true) :
    KeepsBuffered b.items (replayBuffer turn after b) ↔
      (∀ i < b.items.length, (turn i).outcome = .written) ∨
      ∃ k, k + 1 = b.items.length ∧ (∀ i < k, (turn i).outcome = .written) ∧
        pushed turn 0 (k + 1) = [] := by
  set r := replayFrom turn 0 b.items b.drainAll.2 with hr
  have hrep : replayBuffer turn after b =
      ⟨r.written, (r.buf.pushAll after).1, r.accepted && (r.buf.pushAll after).2⟩ := rfl
  rw [hrep, Bool.and_eq_true] at hacc
  have hitems : (r.buf.pushAll after).1.items = r.buf.items ++ after :=
    Buffer.items_pushAll hacc.2
  rcases replayFrom_cases turn b.items 0 b.drainAll.2 hacc.1 with ⟨hall, hw, hb⟩ | ⟨k, hk⟩
  · have hall' : ∀ i < b.items.length, (turn i).outcome = .written := fun i hi => by
      simpa using hall i hi
    refine iff_of_true (keepsBuffered_of_eq hnd ?_) (.inl hall')
    calc r.written ++ (r.buf.pushAll after).1.items
        = b.items ++ (b.drainAll.2.items ++ pushed turn 0 b.items.length ++ after) := by
          rw [hitems, hw, hb]
      _ = b.items ++ (pushed turn 0 b.items.length ++ after) := rfl
  · obtain ⟨bk, hbk, hbuf⟩ := hk.buf
    have hbk' : bk.items = pushed turn 0 (k + 1) := by simpa [Buffer.drainAll] using hbk
    have hout : r.written ++ (r.buf.pushAll after).1.items =
        b.items.take k ++ ((bk.push (b.items.get ⟨k, hk.lt⟩)).1.items ++ after) := by
      rw [hitems, hk.written, hbuf]
    have hfails : (turn k).outcome ≠ .written := by simpa using hk.fails
    have hnew : (b.items ++ after).Nodup :=
      hnd.sublist (List.Sublist.append_left (sublist_append_right ..) _)
    have hdisj : ∀ m ∈ b.items, m ∉ bk.items ++ after := by
      intro m hm hm'
      refine disjoint_of_nodup_append hnd hm ?_
      rcases mem_append.1 hm' with h | h
      · exact mem_append_left _ (pushed_subset hk.lt (hbk' ▸ h))
      · exact mem_append_right _ h
    rw [keepsBuffered_cut_iff hk.lt hnew hdisj hout, hbk']
    constructor
    · rintro ⟨hlast, hnil⟩
      exact .inr ⟨k, hlast, fun i hi => by simpa using hk.before i hi, hnil⟩
    · rintro (hall | ⟨k', hlast, hall, hnil⟩)
      · exact absurd (hall k hk.lt) hfails
      · have hkk : k' = k := by
          have hle : ¬ k < k' := fun hlt => hfails (hall k hlt)
          have := hk.lt
          omega
        subst hkk
        exact ⟨hlast, hnil⟩

/-- A data message of the channel `slack` as `newMessage` builds it, up to the
UUID and the time. -/
def slackMessage (id : String) : Message :=
  ⟨id, .message, "slack", "", "", "2026-03-05T09:00:00Z", []⟩

/-- A client that buffered the messages `a` and `b` while the bus was down. -/
def twoBuffered : Buffer where
  items := [slackMessage "a", slackMessage "b"]
  cap := 16
  le_cap := by decide
  cap_pos := by decide

/-- The hypotheses of `replayBuffer_keepsBuffered_iff` are satisfiable, in the one
failing case that loses nothing: `a` is written and the write of `b` fails. -/
theorem replayBuffer_keepsBuffered_last :
    KeepsBuffered twoBuffered.items
      (replayBuffer (fun i => ⟨[], if i = 0 then .written else .writeErr⟩) [] twoBuffered) :=
  (replayBuffer_keepsBuffered_iff _ _ twoBuffered (by decide) (by decide)).2
    (.inr ⟨1, by decide, by decide, by decide⟩)

/-- **A failed first write loses the second message.**  With `a` and `b` buffered
and no `Send` meanwhile, the write of `a` fails: `a` is put back, and `b` is
neither written nor in the buffer. -/
theorem replayBuffer_loses_rest :
    (replayBuffer (fun _ => ⟨[], .writeErr⟩) [] twoBuffered).accepted = true ∧
      (replayBuffer (fun _ => ⟨[], .writeErr⟩) [] twoBuffered).written = [] ∧
      (replayBuffer (fun _ => ⟨[], .writeErr⟩) [] twoBuffered).buf.items = [slackMessage "a"] ∧
      ¬ KeepsBuffered twoBuffered.items
        (replayBuffer (fun _ => ⟨[], .writeErr⟩) [] twoBuffered) := by
  decide

end K8s4Claw.Sdk
