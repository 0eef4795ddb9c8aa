/-
# The order and the bound of the dead letter queue

Runs of `Put`, `Delete` and `PurgeExpired` of `internal/ipcbus/dlq.go` on a queue that starts
empty.  `List` and eviction go by the text of the key, which is not always the order of creation
(`chronological_iff`), and a `Put` of an ID that is already stored makes room as if it were new
(`keeps_iff`).  One letter that is nested too deep to be read is enough for `List` and for every
eviction to fail.
-/

import K8s4Claw.IpcBus.DeadLetters
import Mathlib.Data.List.Perm.Basic

namespace K8s4Claw.IpcBus.DLQ

open List
open Lib (Along Bucket Meets SortSlice Time Utc run)

/-! ### Order -/

/-- `List` returns the letters of the queue in the order of their creation. -/
def Chronological (d : DLQ) : Prop :=
  ∀ slice, ∃ ls : List Letter, d.list slice = some (ls.map Letter.entry) ∧
    (∀ l, l ∈ ls ↔ d.Holds l) ∧ ls.Pairwise fun l m => l.now.instant < m.now.instant

/-- A `Put` of a new ID into a full queue removes the letter created first, and no other. -/
def EvictsEarliest (d : DLQ) (c : Call) : Prop :=
  ∀ l, c = .put l → ∀ d', d.put l = some d' → l.msg.id ∉ d.messages → d.maxSize ≤ d.size →
    ∀ m, d.Holds m →
      (¬ d'.Holds m ↔ ∀ n, d.Holds n → n ≠ m → m.now.instant < n.now.instant)

/-- No letter of the queue was created in the same second as a later one whose fraction extends
its own. -/
def Apart (d : DLQ) : Prop :=
  ∀ l m, d.Holds l → d.Holds m → l.now.instant < m.now.instant →
    ¬ l.now.ExtendedBy m.now.toTime

/-- A sound queue whose letters were created at different times. -/
structure Dated (d : DLQ) : Prop where
  sound : d.Sound
  ne : ∀ l m, d.Holds l → d.Holds m → l ≠ m → l.now.instant ≠ m.now.instant

variable {d : DLQ}

theorem Dated.text_lt_iff (h : d.Dated) (hd : d.Apart) {l m : Letter} (hl : d.Holds l)
    (hm : d.Holds m) : l.now.text < m.now.text ↔ l.now.instant < m.now.instant := by
  rcases lt_trichotomy l.now.instant m.now.instant with hlt | heq | hgt
  · simp only [(Utc.text_lt_iff hlt).mpr (hd l m hl hm hlt), hlt]
  · obtain rfl : l = m := by
      by_contra hne
      exact h.ne l m hl hm hne heq
    simp only [lt_irrefl]
  · have htext := (Utc.text_lt_iff hgt).mpr (hd m l hm hl hgt)
    simp only [htext.not_gt, hgt.not_gt]

/-- What `List` returns on a queue that can be read: the letters, sorted by their texts. -/
theorem Sound.list_eq (h : d.Sound) (hd : d.Legible)
    (slice : SortSlice DLQEntry fun a b => a.createdAt < b.createdAt) :
    ∃ ls : List Letter, d.list slice = some (ls.map Letter.entry) ∧ (∀ l, l ∈ ls ↔ d.Holds l) ∧
      ls.Nodup ∧ ls.Pairwise fun l m => ¬ m.now.text < l.now.text := by
  obtain ⟨ls, hls⟩ := h.exists_lists
  have hperm := slice.perm (ls.map Letter.entry)
  obtain ⟨ls', hls'⟩ : slice.sort (ls.map Letter.entry) ∈ Set.range (map Letter.entry) := by
    rw [Set.range_list_map]
    intro e he
    obtain ⟨l, -, rfl⟩ := mem_map.mp (hperm.mem_iff.mp he)
    exact ⟨l, rfl⟩
  have hsorted := slice.sorted (ls.map Letter.entry)
  rw [← hls', pairwise_map] at hsorted
  rw [← hls', map_perm_map_iff Letter.entry_injective] at hperm
  have hnodup : ls.Nodup := List.Nodup.of_map _ hls.nodup
  refine ⟨ls', ?_, fun l => ?_, hperm.nodup_iff.mpr hnodup, hsorted⟩
  · rw [list, hls.decoded_eq hd, Option.map_some, map_map, hls']
    rfl
  · rw [hperm.mem_iff, hls.mem_iff]

theorem Sound.legible_of_chronological (h : d.Sound) (hc : d.Chronological) : d.Legible := by
  obtain ⟨ls, hls⟩ := h.exists_lists
  obtain ⟨_, hlist, -⟩ := hc (.insertion DLQEntry.createdAt)
  obtain ⟨es, hes, -⟩ := Option.map_eq_some_iff.mp hlist
  exact hls.legible hes

/-- **`List` is in the order of creation exactly when the letters are apart** and can be read. -/
theorem Dated.chronological_iff_apart (h : d.Dated) : d.Chronological ↔ d.Apart ∧ d.Legible := by
  constructor
  · intro hc
    have hd := h.sound.legible_of_chronological hc
    refine ⟨fun l m hl hm hlt hext => ?_, hd⟩
    obtain ⟨ls, hlist, hmem, hpair⟩ := hc (.insertion DLQEntry.createdAt)
    obtain ⟨ls', hlist', -, -, hsorted⟩ := h.sound.list_eq hd (.insertion DLQEntry.createdAt)
    have hls : ls = ls' := by
      rw [hlist] at hlist'
      exact map_injective_iff.mpr Letter.entry_injective (Option.some.inj hlist')
    have hne : l ≠ m := by
      rintro rfl
      exact lt_irrefl _ hlt
    -- `l` stands before `m`, since it was created first
    have hnot : ¬ m.now.text < l.now.text := by
      have hpairs := hpair.and (hls ▸ hsorted)
      rcases Lib.pairwise_or hpairs ((hmem l).mpr hl) ((hmem m).mpr hm) hne with hlm | hml
      · exact hlm.2
      · exact absurd hlt hml.1.not_gt
    have htext := mt (Utc.text_lt_iff hlt).mp (not_not.mpr hext)
    have heq : l.now.text = m.now.text := le_antisymm (not_lt.mp hnot) (not_lt.mp htext)
    rw [Utc.text_injective heq] at hlt
    exact lt_irrefl _ hlt
  · rintro ⟨hd, hlegible⟩ slice
    obtain ⟨ls, hlist, hmem, hnodup, hsorted⟩ := h.sound.list_eq hlegible slice
    refine ⟨ls, hlist, hmem, (hnodup.and hsorted).imp_of_mem fun {l m} hl hm hlm => ?_⟩
    have hl := (hmem l).mp hl
    have hm := (hmem m).mp hm
    rw [h.text_lt_iff hd hm hl] at hlm
    exact lt_of_le_of_ne (not_lt.mp hlm.2) (h.ne l m hl hm hlm.1)

/-- **Eviction goes by the time of creation when the letters are apart.** -/
theorem Dated.evictsEarliest (h : d.Dated) (hd : d.Apart) (hlegible : d.Legible) (c : Call) :
    d.EvictsEarliest c := by
  rintro l - d' hput hnew hfull m hm
  rw [h.sound.put_eq hlegible] at hput
  split_ifs at hput with hl
  obtain rfl : d.putOk l = d' := Option.some.inj hput
  have hid : m.msg.id ≠ l.msg.id := fun heq => hnew (heq ▸ mem_of_holds hm)
  have hne : m ≠ l := fun heq => hid (congrArg (fun l => l.msg.id) heq)
  have hgone : ¬ (d.putOk l).Holds m ↔ d.evictee = some m.msg.id := by
    rw [holds_putOk hl.1]
    simp [hne, hid, hm]
  obtain ⟨k, hk⟩ := h.sound.exists_evictee hlegible hfull (size_pos_of_holds hm)
  obtain ⟨-, e, he, rfl, hmin⟩ := h.sound.of_evictee hlegible hk
  rw [hgone, hk, Option.some.injEq]
  constructor
  · intro heq n hn hnm
    obtain rfl := he.eq hm heq
    have hle := hmin n hn
    rw [← not_lt, h.text_lt_iff hd hn hm, not_lt] at hle
    exact lt_of_le_of_ne hle (h.ne e n hm hn hnm.symm)
  · intro hfirst
    by_contra hdiff
    have hem : e ≠ m := fun heq => hdiff (congrArg (fun l => l.msg.id) heq)
    have hlt := hfirst e he hem
    rw [← h.text_lt_iff hd hm he] at hlt
    exact absurd (hmin m hm) hlt.not_ge

/-! ### Runs of `Put` -/

/-- A `Put` adds at most its own letter. -/
theorem Sound.holds_after_put (h : d.Sound) (hd : d.Legible) {l m : Letter}
    (hm : (d.after (.put l)).Holds m) : m = l ∨ d.Holds m := by
  rw [DLQ.after, h.put_eq hd] at hm
  split_ifs at hm with hl
  · rcases (holds_putOk hl.1).mp hm with rfl | ⟨-, -, hm⟩
    · exact .inl rfl
    · exact .inr hm
  · exact .inr hm

/-- A `Put` at a later time keeps the times different. -/
theorem Dated.after_put (h : d.Dated) (hd : d.Legible) {l : Letter}
    (hl : ∀ m, d.Holds m → m.now.instant < l.now.instant) :
    (d.after (.put l)).Dated ∧
      ∀ m, (d.after (.put l)).Holds m → m.now.instant ≤ l.now.instant := by
  have hmem (m : Letter) (hm : (d.after (.put l)).Holds m) : m = l ∨ d.Holds m :=
    h.sound.holds_after_put hd hm
  refine ⟨⟨h.sound.after hd _, fun m n hm hn hne => ?_⟩, fun m hm => ?_⟩
  · rcases hmem m hm with rfl | hm'
    · rcases hmem n hn with rfl | hn'
      · exact absurd rfl hne
      · exact (hl n hn').ne'
    · rcases hmem n hn with rfl | hn'
      · exact (hl m hm').ne
      · exact h.ne m n hm' hn' hne
  · rcases hmem m hm with rfl | hm'
    · exact le_rfl
    · exact (hl m hm').le

theorem along_step_cons {P : DLQ → Prop} {c : Call} {cs : List Call} :
    Along step P d (c :: cs) ↔ P d ∧ Along step P (d.after c) cs := by
  simp [Lib.along_cons, step]

theorem Dated.order_iff (h : d.Dated) {ls : List Letter}
    (hls : ls.Pairwise fun l m => l.now.instant < m.now.instant)
    (hbefore : ∀ m, d.Holds m → ∀ l ∈ ls, m.now.instant < l.now.instant) :
    Along step Chronological d (ls.map .put) ∧ Meets step EvictsEarliest d (ls.map .put) ↔
      Along step (fun d => d.Apart ∧ d.Legible) d (ls.map .put) := by
  induction ls generalizing d with
  | nil =>
    rw [map_nil, Lib.along_nil, Lib.along_nil, h.chronological_iff_apart]
    simp [Lib.meets_nil]
  | cons l ls ih =>
    obtain ⟨hl, hls⟩ := pairwise_cons.mp hls
    rw [map_cons, along_step_cons, along_step_cons, Lib.meets_cons_of_some rfl,
      h.chronological_iff_apart]
    by_cases hd : d.Legible
    · obtain ⟨hdated, hle⟩ := h.after_put hd fun m hm => hbefore m hm l (by simp)
      rw [← ih hdated hls fun m hm n hn => (hle m hm).trans_lt (hl n hn)]
      constructor
      · rintro ⟨⟨hd, hal⟩, -, hm⟩
        exact ⟨hd, hal, hm⟩
      · rintro ⟨hd, hal, hm⟩
        exact ⟨⟨hd, hal⟩, h.evictsEarliest hd.1 hd.2 _, hm⟩
    · simp only [hd, and_false, false_and]

theorem dated_new (maxSize ttl : ℤ) : (new maxSize ttl).Dated :=
  ⟨sound_new maxSize ttl, fun _ _ hl => by cases hl.lookup⟩

/-- **When the order is that of creation.**  For letters put at increasing times: after every
`Put`, `List` returns the stored letters in the order of their creation, and every `Put` of a new
ID into a full queue removes the letter created first, exactly when at no point the queue holds
two letters of one second of which the fraction of the later one extends that of the earlier, or
a letter that is nested too deep. -/
theorem chronological_iff (maxSize ttl : ℤ) {ls : List Letter}
    (h : ls.Pairwise fun l m => l.now.instant < m.now.instant) :
    Along step Chronological (new maxSize ttl) (ls.map .put) ∧
        Meets step EvictsEarliest (new maxSize ttl) (ls.map .put) ↔
      Along step (fun d => d.Apart ∧ d.Legible) (new maxSize ttl) (ls.map .put) :=
  (dated_new maxSize ttl).order_iff h fun m hm => by cases hm.lookup

/-- A time within a minute. -/
def clock (second nanos : ℕ) (h : second < 60 ∧ nanos < 10 ^ 9) : Utc where
  year := 2026
  month := 1
  day := 1
  hour := 10
  minute := 0
  second := second
  nanos := nanos
  offset := 0
  inRange := ⟨by decide, by decide, by decide, by decide, by decide, h.1, h.2, by decide⟩
  utc := rfl

/-- A letter after three attempts. -/
def letter (id : String) (now : Utc) : Letter := ⟨.plain id "chat", 3, now⟩

/-- Two letters half a second apart, in the middle of a second. -/
def midSecond : List Letter :=
  [letter "a" (clock 0 250000000 (by decide)), letter "b" (clock 0 750000000 (by decide))]

/-- They stay apart, whatever room the queue has. -/
theorem apart_midSecond (maxSize : ℤ) :
    Along step (fun d => d.Apart ∧ d.Legible) (new maxSize 0) (midSecond.map .put) := by
  have hapart : ∀ l ∈ midSecond, l.msg.Nestable ∧ ∀ m ∈ midSecond,
      l.now.instant < m.now.instant → ¬ l.now.ExtendedBy m.now.toTime := by decide +kernel
  -- the queue never holds any other letter
  have hmeets : Meets step (fun _ c => True ∧ c ∈ midSecond.map .put) (new maxSize 0)
      (midSecond.map .put) :=
    Lib.meets_and_of_forall Lib.meets_true fun _ hc => hc
  refine Lib.along_of_meets (I := fun d => d.Sound ∧ ∀ l, d.Holds l → l ∈ midSecond) ?_ ?_
    ⟨sound_new maxSize 0, fun l hl => by cases hl.lookup⟩ hmeets
  · rintro d c d' ⟨hsound, hmem⟩ ⟨-, hc⟩ hd'
    obtain rfl : d.after c = d' := Option.some.inj hd'
    obtain ⟨l, hl, rfl⟩ := mem_map.mp hc
    have hd : d.Legible := fun m hm => (hapart m (hmem m hm)).1
    refine ⟨hsound.after hd _, fun m hm => ?_⟩
    rcases hsound.holds_after_put hd hm with rfl | hm
    · exact hl
    · exact hmem m hm
  · rintro d ⟨-, hmem⟩
    exact ⟨fun l m hl hm => (hapart l (hmem l hl)).2 m (hmem m hm), fun l hl =>
      (hapart l (hmem l hl)).1⟩

/-- They are listed and evicted in the order of their creation, with room for one and for two. -/
theorem chronological_iff_two :
    (Along step Chronological (new 1 0) (midSecond.map .put) ∧
      Meets step EvictsEarliest (new 1 0) (midSecond.map .put)) ∧
    Along step Chronological (new 2 0) (midSecond.map .put) ∧
      Meets step EvictsEarliest (new 2 0) (midSecond.map .put) :=
  ⟨(chronological_iff 1 0 (by decide)).mpr (apart_midSecond 1),
    (chronological_iff 2 0 (by decide)).mpr (apart_midSecond 2)⟩

/-- Two letters half a second apart. -/
def halfSecond : DLQ :=
  ((new 2 0).after (.put (letter "a" (clock 0 0 (by decide))))).after
    (.put (letter "b" (clock 0 500000000 (by decide))))

/-- **Half a second past sorts before the full second**: `List` returns the later letter first,
and a third one evicts the later one. -/
theorem halfSecond_order :
    (clock 0 0 (by decide)).instant < (clock 0 500000000 (by decide)).instant ∧
      halfSecond.list (.insertion DLQEntry.createdAt) =
        some [(letter "b" (clock 0 500000000 (by decide))).entry,
          (letter "a" (clock 0 0 (by decide))).entry] ∧
      (halfSecond.after (.put (letter "c" (clock 1 0 (by decide))))).messages.keys =
        ["c", "a"] := by
  decide +kernel

/-! ### The bound -/

/-- The queue is within its bound after the call; a `Put` stores its letter, and removes the
letter of another message only when its ID is new and the queue is full. -/
structure Keeps (d : DLQ) (c : Call) : Prop where
  size_le : (d.after c).size ≤ d.maxSize
  stores : ∀ l, c = .put l → (d.after c).get l.msg.id = some (some l.entry)
  spares : ∀ l, c = .put l → ∀ m, d.Holds m → m.msg.id ≠ l.msg.id → ¬ (d.after c).Holds m →
    l.msg.id ∉ d.messages ∧ d.maxSize ≤ d.size

/-- The message of a `Put` can be written, and read back from its entry. -/
def Call.Readable (c : Call) : Prop :=
  ∀ l, c = .put l → l.msg.Marshals ∧ l.msg.Nestable

/-- A `Put` of a stored ID into a full queue replaces the entry that is evicted. -/
def ReplacesOldest (d : DLQ) (c : Call) : Prop :=
  ∀ l, c = .put l → l.msg.id ∈ d.messages → d.maxSize ≤ d.size →
    oldestKey d.messages = some (some l.msg.id)

/-- bbolt takes the key and the value of a `Put`. -/
def Call.Storable (c : Call) : Prop :=
  ∀ l, c = .put l → storable l.msg.id l.entry.text = true

/-- A queue that can be read, within a bound of at least one letter. -/
structure Bounded (d : DLQ) : Prop where
  sound : d.Sound
  legible : d.Legible
  one_le : 1 ≤ d.maxSize
  size_le : d.size ≤ d.maxSize

theorem Bounded.size_after_le (h : d.Bounded) (c : Call) : (d.after c).size ≤ d.maxSize := by
  obtain ⟨l, -, -, heq⟩ | ⟨-, ks, heq⟩ := h.sound.after_cases h.legible c
  · rw [heq]
    exact h.sound.size_putOk_le h.legible h.one_le h.size_le l
  · have hle : (d.after c).size ≤ d.size := by
      rw [heq]
      exact size_foldl_erase_le d.messages ks
    have hsize := h.size_le
    omega

theorem Bounded.after (h : d.Bounded) {c : Call} (hc : c.Readable) : (d.after c).Bounded := by
  have hmax := h.sound.maxSize_after h.legible c
  refine ⟨h.sound.after h.legible c,
    h.sound.legible_after h.legible c fun l hl => (hc l hl).2, ?_, ?_⟩
  · rw [hmax]
    exact h.one_le
  · rw [hmax]
    exact h.size_after_le c

/-- A letter that `Get` returns is in the queue and can be read. -/
theorem Sound.of_get (h : d.Sound) {l : Letter} (hget : d.get l.msg.id = some (some l.entry)) :
    d.Holds l ∧ l.msg.Nestable := by
  have hmem : l.msg.id ∈ d.messages := by
    by_contra hnot
    have hnone : d.messages.lookup l.msg.id = none := AList.lookup_eq_none.mpr hnot
    simp [get, hnone] at hget
  obtain ⟨m, hm, hid⟩ := h.exists_holds hmem
  rw [← hid, get_of_holds hm] at hget
  split_ifs at hget with hn
  obtain rfl : m = l := Letter.entry_injective (Option.some.inj (Option.some.inj hget))
  exact ⟨hm, hn⟩

theorem Bounded.readable_of_keeps (h : d.Bounded) {c : Call} (hk : d.Keeps c) : c.Readable := by
  intro l hl
  obtain ⟨hholds, hn⟩ := (h.sound.after h.legible c).of_get (hk.stores l hl)
  exact ⟨hholds.marshals, hn⟩

/-- **One call**: it keeps the bound in any case, it stores its letter if that can be written and
read, and it spares the other letters exactly when a stored ID that is put into a full queue is
the oldest. -/
theorem Bounded.keeps_iff_replacesOldest (h : d.Bounded) {c : Call} (hc : c.Storable) :
    d.Keeps c ↔ d.ReplacesOldest c ∧ c.Readable := by
  have hput (hread : c.Readable) (l : Letter) (hl : c = .put l) : d.after c = d.putOk l := by
    obtain ⟨l', hl', -, heq⟩ | ⟨hns, -⟩ := h.sound.after_cases h.legible c
    · rw [hl] at hl'
      cases hl'
      exact heq
    · exact absurd ⟨(hread l hl).1, hc l hl⟩ (hns l hl)
  constructor
  · intro hk
    have hread := h.readable_of_keeps hk
    refine ⟨fun l hl hmem hfull => ?_, hread⟩
    obtain ⟨l₀, hl₀, -⟩ := h.sound.exists_holds hmem
    obtain ⟨k, hev⟩ := h.sound.exists_evictee h.legible hfull (size_pos_of_holds hl₀)
    obtain ⟨-, m, hm, rfl, -⟩ := h.sound.of_evictee h.legible hev
    by_cases hid : m.msg.id = l.msg.id
    · rw [hid] at hev
      exact (evictee_eq_some_iff.mp hev).2
    · have hgone : ¬ (d.after c).Holds m := by
        rw [hput hread l hl, holds_putOk (hread l hl).1]
        rintro (rfl | ⟨-, hne, -⟩)
        · exact hid rfl
        · exact hne hev
      exact absurd hmem (hk.spares l hl m hm hid hgone).1
  · rintro ⟨hr, hread⟩
    refine ⟨h.size_after_le c, fun l hl => ?_, fun l hl m hm hid hgone => ?_⟩
    · have hholds : (d.putOk l).Holds l := (holds_putOk (hread l hl).1).mpr (.inl rfl)
      rw [hput hread l hl, get_of_holds hholds, if_pos (hread l hl).2]
    · have hev : d.evictee = some m.msg.id := by
        by_contra hne
        rw [hput hread l hl] at hgone
        exact hgone ((holds_putOk (hread l hl).1).mpr (.inr ⟨hid, hne, hm⟩))
      obtain ⟨hfull, hkey⟩ := evictee_eq_some_iff.mp hev
      refine ⟨fun hmem => hid ?_, hfull⟩
      rw [hr l hl hmem hfull, Option.some.injEq, Option.some.injEq] at hkey
      exact hkey.symm

/-- **When a `Put` removes only what it has to.**  On a queue that starts empty, with room for at
least one letter, and for calls whose letters bbolt takes: the queue never holds more than
`maxSize` letters, every `Put` stores its letter, and removes that of another message only when
its ID is new and the queue is full, exactly when every `Put` of a stored ID into a full queue is
for the ID that `evictOldest` picks, and every message that is put can be written and read
back. -/
theorem keeps_iff {maxSize : ℤ} (hmax : 1 ≤ maxSize) (ttl : ℤ) {cs : List Call}
    (hcs : ∀ c ∈ cs, c.Storable) :
    Meets step Keeps (new maxSize ttl) cs ↔
      Meets step (fun d c => d.ReplacesOldest c ∧ c.Readable) (new maxSize ttl) cs := by
  have hnew : (new maxSize ttl).Bounded :=
    ⟨sound_new maxSize ttl, (fun l hl => nomatch hl.lookup), hmax,
      by simpa [new, size] using (by omega : 0 ≤ maxSize)⟩
  have hafter {d d' : DLQ} {c : Call} (h : d.Bounded) (hc : c.Readable)
      (hd' : step d c = some d') : d'.Bounded := by
    obtain rfl : d.after c = d' := Option.some.inj hd'
    exact h.after hc
  constructor
  · intro hk
    exact Lib.meets_of_meets (fun d c d' h hok => hafter h (h.readable_of_keeps hok.1))
      (fun d c h hok => (h.keeps_iff_replacesOldest hok.2).mp hok.1) hnew
      (Lib.meets_and_of_forall hk hcs)
  · intro hr
    exact Lib.meets_of_meets (fun d c d' h hok => hafter h hok.1.2)
      (fun d c h hok => (h.keeps_iff_replacesOldest hok.2).mpr hok.1) hnew
      (Lib.meets_and_of_forall hr hcs)

/-- One letter put twice. -/
def twice : List Call :=
  [.put (letter "a" (clock 0 0 (by decide))), .put (letter "a" (clock 1 0 (by decide)))]

/-- With room for one, the letter put again replaces itself. -/
theorem keeps_iff_twice : Meets step Keeps (new 1 0) twice := by
  have hcs : ∀ c ∈ twice, c.Storable ∧ c.Readable := by
    intro c hc
    simp only [twice, mem_cons, not_mem_nil, or_false] at hc
    rcases hc with rfl | rfl
    all_goals
      refine ⟨fun l hl => ?_, fun l hl => ?_⟩
      all_goals
        cases hl
        decide +kernel
  refine (keeps_iff (by decide) 0 fun c hc => (hcs c hc).1).mpr ?_
  refine Lib.meets_and_of_forall ?_ fun c hc => (hcs c hc).2
  rw [twice, Lib.meets_cons_of_some rfl, Lib.meets_cons_of_some rfl]
  refine ⟨?_, ?_, Lib.meets_nil _⟩
  all_goals
    rintro l ⟨⟩
    decide +kernel

/-- **A letter is lost for nothing**: `b` is put again into a queue that holds `a` and `b` and has
room for two; `a` is gone, and the queue holds one letter. -/
theorem reput_loses :
    ((((new 2 0).after (.put (letter "a" (clock 0 0 (by decide))))).after
      (.put (letter "b" (clock 1 0 (by decide))))).messages.keys = ["b", "a"]) ∧
    ((((new 2 0).after (.put (letter "a" (clock 0 0 (by decide))))).after
      (.put (letter "b" (clock 1 0 (by decide))))).after
        (.put (letter "b" (clock 2 0 (by decide))))).messages.keys = ["b"] := by
  decide +kernel

end K8s4Claw.IpcBus.DLQ
