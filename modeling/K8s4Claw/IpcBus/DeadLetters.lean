/-
# The dead letter queue

`internal/ipcbus/dlq.go`.  The queue is a bucket of a bbolt file that maps the ID of a message to
the JSON of its entry; `bucketIndex` is created and never used.  A call is one transaction: when
it returns an error nothing of it stays.  bbolt refuses an empty key and keys and values above
its limits (`storable`); `b.Stats().KeyN` is the number of keys.

`CreatedAt` is the text of a time in the layout `RFC3339Nano`, and the order of the entries in
`List` and the choice of the entry to evict go by that text.

`json.Marshal` fails on an entry whose message has a timestamp it cannot write, and `Put` with
it.  An entry is one level of nesting more around its message; one that `json.Unmarshal` does
not read makes `Get`, `List`, `PurgeExpired` and every `Put` that evicts fail (`Legible`).
-/

import K8s4Claw.IpcBus.Message
import K8s4Claw.Lib.Bucket
import K8s4Claw.Lib.Run
import K8s4Claw.Lib.TimeOrder
import Mathlib.Data.List.MinMax
import Mathlib.Data.Set.List

namespace K8s4Claw.IpcBus

open List
open Lib (Bytes Bucket Time Utc SortSlice)
open Lib.Json

/-! ### Entries -/

/-- `DLQEntry`. -/
structure DLQEntry where
  id : String
  channel : String
  attempts : Int64
  createdAt : String
  msg : Option Message
  deriving DecidableEq

namespace DLQEntry

def zero : DLQEntry where
  id := ""
  channel := ""
  attempts := 0
  createdAt := ""
  msg := none

/-- The fields of the struct. -/
inductive Field where
  | id
  | channel
  | attempts
  | createdAt
  | msg
  deriving DecidableEq

def Field.name : Field → String
  | id => "id"
  | channel => "channel"
  | attempts => "attempts"
  | createdAt => "createdAt"
  | msg => "msg"

def fields : Fields Field where
  all := [.id, .channel, .attempts, .createdAt, .msg]
  name := Field.name
  find_name f := by cases f <;> decide

/-- What `json.Unmarshal` does with the member of one field. -/
def set (e : DLQEntry) : Field → Value → Option DLQEntry
  | .id, v => (decodeString e.id v).map fun s => { e with id := s }
  | .channel, v => (decodeString e.channel v).map fun s => { e with channel := s }
  | .attempts, v => (decodeInt e.attempts v).map fun n => { e with attempts := n }
  | .createdAt, v => (decodeString e.createdAt v).map fun s => { e with createdAt := s }
  | .msg, .null => some { e with msg := none }
  | .msg, v => ((e.msg.getD .zero).decode v).map fun m => { e with msg := some m }

/-- The members of the object that is written for `e`; a `nil` message is written as `null`. -/
def members (e : DLQEntry) : List (Body × Value) :=
  member (fields.name .id) (string e.id) ::
  member (fields.name .channel) (string e.channel) ::
  member (fields.name .attempts) (int e.attempts) ::
  member (fields.name .createdAt) (string e.createdAt) ::
  [member (fields.name .msg) ((e.msg.map fun m => Value.obj m.members).getD .null)]

/-- The text of an entry. -/
def text (e : DLQEntry) : Bytes := print (.obj e.members)

/-- `json.Marshal` goes through. -/
def Marshals (e : DLQEntry) : Prop := ∀ m ∈ e.msg, m.Marshals
  deriving Decidable

def marshal (e : DLQEntry) : Option Bytes := if e.Marshals then some e.text else none

/-- `json.Unmarshal` into a zero entry. -/
def unmarshal (data : Bytes) : Option DLQEntry := (parse data).bind (decodeStruct fields set zero)

theorem decode_members {e : DLQEntry} (h : e.Marshals) :
    decodeStruct fields set zero (.obj e.members) = some e := by
  obtain ⟨_, _, _, _, msg⟩ := e
  simp only [members, decodeStruct_cons, set]
  cases msg with
  | none => simp
  | some m => simp [zero, Message.decode_members (h m rfl)]

theorem text_inj {e e' : DLQEntry} (h : e.Marshals) (h' : e'.Marshals) (htext : e.text = e'.text) :
    e = e' := by
  have hdec := decode_members h
  rw [print_injective htext, decode_members h'] at hdec
  exact (Option.some.inj hdec).symm

end DLQEntry

/-- The arguments of `Put`, and the time it reads from the clock. -/
structure Letter where
  msg : Message
  attempts : Int64
  now : Utc
  deriving DecidableEq

/-- The entry `Put` makes. -/
def Letter.entry (l : Letter) : DLQEntry where
  id := l.msg.id
  channel := l.msg.channel
  attempts := l.attempts
  createdAt := l.now.text
  msg := some l.msg

namespace Letter

variable {l m : Letter}

theorem entry_injective : Function.Injective Letter.entry := by
  rintro ⟨msg, attempts, now⟩ ⟨msg', attempts', now'⟩ h
  simp only [entry, DLQEntry.mk.injEq, Option.some.injEq] at h
  obtain ⟨-, -, rfl, htext, rfl⟩ := h
  rw [Utc.text_injective htext]

theorem marshals_entry : l.entry.Marshals ↔ l.msg.Marshals := by
  simp [DLQEntry.Marshals, entry]

theorem text_entry_inj (hl : l.msg.Marshals) (hm : m.msg.Marshals) :
    l.entry.text = m.entry.text ↔ l = m := by
  constructor
  · intro h
    exact entry_injective (DLQEntry.text_inj (marshals_entry.mpr hl) (marshals_entry.mpr hm) h)
  · rintro rfl
    rfl

/-- **An entry is read back as it was written**, if it is not nested too deep. -/
theorem unmarshal_text (hl : l.msg.Marshals) :
    DLQEntry.unmarshal l.entry.text = if l.msg.Nestable then some l.entry else none := by
  have hdepth : depth (.obj l.entry.members) ≤ maxNestingDepth ↔ l.msg.Nestable := by
    have hmsg := l.msg.depth_members
    rw [depth] at hmsg
    simp only [depth, DLQEntry.members, entry, member, depthMembers, string, int, Option.map_some,
      Option.getD_some, Message.Nestable, hmsg]
    omega
  rw [DLQEntry.unmarshal, DLQEntry.text, parse_print, if_congr hdepth rfl rfl]
  split_ifs
  · exact DLQEntry.decode_members (marshals_entry.mpr hl)
  · rfl

end Letter

/-! ### The queue -/

/-- `DLQ`; `ttl` is in nanoseconds. -/
structure DLQ where
  messages : Bucket String Bytes
  maxSize : ℤ
  ttl : ℤ

/-- What `b.Put` takes: `MaxKeySize` and `MaxValueSize` of bbolt. -/
def storable (key : String) (value : Bytes) : Bool :=
  key ≠ "" && key.utf8ByteSize ≤ 32768 && value.length ≤ 2 ^ 31 - 2

/-- `json.Marshal` and bbolt take the letter. -/
def Letter.Accepted (l : Letter) : Prop := l.msg.Marshals ∧ storable l.msg.id l.entry.text = true
  deriving Decidable

/-- `b.ForEach` with every value unmarshalled; the first value that is no entry is an error. -/
def decoded (b : Bucket String Bytes) : Option (List (String × DLQEntry)) :=
  b.each.mapM fun p => (DLQEntry.unmarshal p.2).map fun e => (p.1, e)

/-- The loop of `evictOldest`: the oldest key so far, with its entry. -/
def older (oldest : Option (String × DLQEntry)) (p : String × DLQEntry) :
    Option (String × DLQEntry) :=
  match oldest with
  | none => some p
  | some q => if p.2.createdAt < q.2.createdAt then some p else some q

/-- The key `evictOldest` deletes, if there is one; `none` for an error. -/
def oldestKey (b : Bucket String Bytes) : Option (Option String) :=
  (decoded b).map fun es => (es.foldl older none).map Prod.fst

def evictOldest (b : Bucket String Bytes) : Option (Bucket String Bytes) :=
  (oldestKey b).map fun
    | some k => b.erase k
    | none => b

/-- The keys of the entries from before `cutoff`; a time that cannot be read is an error. -/
def expired (cutoff : ℤ) : List (String × DLQEntry) → Option (List String)
  | [] => some []
  | (k, e) :: es =>
      (Time.ofText e.createdAt).bind fun t =>
        (expired cutoff es).map fun ks => if t.instant < cutoff then k :: ks else ks

namespace DLQ

/-- `NewDLQ` on a file that does not exist. -/
def new (maxSize ttl : ℤ) : DLQ := ⟨∅, maxSize, ttl⟩

def size (d : DLQ) : ℕ := d.messages.size

/-- `Put`; `none` for an error. -/
def put (d : DLQ) (l : Letter) : Option DLQ :=
  l.entry.marshal.bind fun data =>
    let evicted := if d.maxSize ≤ d.messages.size then evictOldest d.messages else some d.messages
    evicted.bind fun b =>
      if storable l.entry.id data then some { d with messages := b.insert l.entry.id data }
      else none

/-- `Get`: the entry or `nil`; `none` for an error. -/
def get (d : DLQ) (id : String) : Option (Option DLQEntry) :=
  match d.messages.lookup id with
  | none => some none
  | some data => (DLQEntry.unmarshal data).map some

def delete (d : DLQ) (id : String) : DLQ := { d with messages := d.messages.erase id }

/-- `List`; `none` for an error. -/
def list (slice : SortSlice DLQEntry fun a b => a.createdAt < b.createdAt) (d : DLQ) :
    Option (List DLQEntry) :=
  (decoded d.messages).map fun es => slice.sort (es.map Prod.snd)

/-- `PurgeExpired` and the number it returns; `none` for an error. -/
def purgeExpired (d : DLQ) (now : Time) : Option (DLQ × ℕ) :=
  (decoded d.messages).bind fun es =>
    (expired (now.instant - d.ttl) es).map fun ks =>
      ({ d with messages := ks.foldl (fun b k => b.erase k) d.messages }, ks.length)

end DLQ

/-! ### What the queue holds -/

namespace DLQ

/-- The letter is in the queue. -/
structure Holds (d : DLQ) (l : Letter) : Prop where
  lookup : d.messages.lookup l.msg.id = some l.entry.text
  marshals : l.msg.Marshals

/-- Every value was written by `Put`, under the ID of its message. -/
def Sound (d : DLQ) : Prop :=
  ∀ k data, d.messages.lookup k = some data →
    ∃ l : Letter, l.msg.id = k ∧ l.entry.text = data ∧ l.msg.Marshals

/-- Every letter of the queue can be read. -/
def Legible (d : DLQ) : Prop := ∀ l, d.Holds l → l.msg.Nestable

/-- `ls` are the letters of the queue in the order of their IDs. -/
structure Lists (d : DLQ) (ls : List Letter) : Prop where
  each_eq : d.messages.each = ls.map fun l => ⟨l.msg.id, l.entry.text⟩
  mem_iff : ∀ l, l ∈ ls ↔ d.Holds l
  nodup : (ls.map fun l => l.msg.id).Nodup
  length_eq : ls.length = d.size

variable {l : Letter} {d : DLQ}

/-- Two letters of the queue with one ID are the same. -/
theorem Holds.eq {m : Letter} (hl : d.Holds l) (hm : d.Holds m) (h : l.msg.id = m.msg.id) :
    l = m := by
  have htext := hl.lookup
  rw [h, hm.lookup] at htext
  exact ((Letter.text_entry_inj hm.marshals hl.marshals).mp (Option.some.inj htext)).symm

theorem get_of_holds (h : d.Holds l) :
    d.get l.msg.id = if l.msg.Nestable then some (some l.entry) else none := by
  simp only [get, h.lookup, Letter.unmarshal_text h.marshals]
  split_ifs <;> rfl

theorem mem_of_holds (h : d.Holds l) : l.msg.id ∈ d.messages :=
  AList.lookup_isSome.mp (by rw [h.lookup]; rfl)

theorem size_pos_of_holds (h : d.Holds l) : 0 < d.size :=
  length_pos_of_mem (mem_of_holds h)

theorem Sound.exists_holds (h : d.Sound) {id : String} (hid : id ∈ d.messages) :
    ∃ l, d.Holds l ∧ l.msg.id = id := by
  obtain ⟨data, hdata⟩ := Option.isSome_iff_exists.mp (AList.lookup_isSome.mpr hid)
  obtain ⟨l, rfl, rfl, hl⟩ := h id data hdata
  exact ⟨l, ⟨hdata, hl⟩, rfl⟩

/-- **The letters of a sound queue.** -/
theorem Sound.exists_lists (h : d.Sound) : ∃ ls, d.Lists ls := by
  have hpair (p : Σ _ : String, Bytes) (hp : p ∈ d.messages.each) :
      ∃ l : Letter, (⟨l.msg.id, l.entry.text⟩ : Σ _ : String, Bytes) = p ∧ l.msg.Marshals := by
    obtain ⟨l, hid, htext, hl⟩ := h p.1 p.2 (d.messages.mem_each.mp hp)
    exact ⟨l, by rw [hid, htext], hl⟩
  choose letter hletter hmarshals using hpair
  let ls : List Letter := d.messages.each.attach.map fun p => letter p.1 p.2
  have heach : ls.map (fun l => (⟨l.msg.id, l.entry.text⟩ : Σ _ : String, Bytes)) =
      d.messages.each := by
    rw [map_map]
    exact (map_congr_left fun p _ => hletter p.1 p.2).trans (attach_map_subtype_val _)
  refine ⟨ls, heach.symm, fun l => ?_, ?_, ?_⟩
  · rw [mem_map]
    constructor
    · rintro ⟨⟨p, hp⟩, -, rfl⟩
      refine ⟨?_, hmarshals p hp⟩
      have hlookup := d.messages.mem_each.mp hp
      rwa [← hletter p hp] at hlookup
    · intro hl
      have hp : (⟨l.msg.id, l.entry.text⟩ : Σ _ : String, Bytes) ∈ d.messages.each :=
        d.messages.mem_each.mpr hl.lookup
      have heq := hletter _ hp
      rw [Sigma.mk.injEq, heq_eq_eq, Letter.text_entry_inj (hmarshals _ hp) hl.marshals] at heq
      exact ⟨⟨_, hp⟩, mem_attach _ _, heq.2⟩
  · have hnodup := d.messages.nodup_each
    rw [← heach, map_map] at hnodup
    exact hnodup
  · rw [length_map, length_attach, size, d.messages.length_each]

theorem mapM_map_eq_some {α β γ : Type*} {f : α → β} {g : β → Option γ} {h : α → γ} {as : List α}
    (hg : ∀ a ∈ as, g (f a) = some (h a)) : (as.map f).mapM g = some (as.map h) := by
  induction as with
  | nil => rfl
  | cons a as ih =>
    obtain ⟨ha, has⟩ := forall_mem_cons.mp hg
    simp [ha, ih has]

theorem ne_none_of_mapM {α β : Type*} {g : α → Option β} {as : List α} {bs : List β}
    (h : as.mapM g = some bs) : ∀ a ∈ as, g a ≠ none := by
  induction as generalizing bs with
  | nil => simp
  | cons a as ih =>
    rw [mapM_cons] at h
    obtain ⟨b, hb, h⟩ := Option.bind_eq_some_iff.mp h
    obtain ⟨bs, hbs, -⟩ := Option.bind_eq_some_iff.mp h
    exact forall_mem_cons.mpr ⟨by simp [hb], ih hbs⟩

section

variable {ls : List Letter} (h : d.Lists ls)

include h

/-- **The letters are read when the queue is legible.** -/
theorem Lists.decoded_eq (hd : d.Legible) :
    decoded d.messages = some (ls.map fun l => (l.msg.id, l.entry)) := by
  rw [decoded, h.each_eq]
  refine mapM_map_eq_some fun l hl => ?_
  have hl := (h.mem_iff l).mp hl
  rw [Letter.unmarshal_text hl.marshals, if_pos (hd l hl), Option.map_some]

/-- A queue whose letters are read is legible. -/
theorem Lists.legible {es : List (String × DLQEntry)} (hes : decoded d.messages = some es) :
    d.Legible := by
  intro l hl
  rw [decoded, h.each_eq] at hes
  have hne := ne_none_of_mapM hes _ (mem_map_of_mem ((h.mem_iff l).mpr hl))
  by_contra hn
  rw [Letter.unmarshal_text hl.marshals, if_neg hn] at hne
  exact hne rfl

end

theorem foldl_older (ls : List Letter) :
    (ls.map fun l => (l.msg.id, l.entry)).foldl older none =
      (ls.argmin fun l => l.now.text).map fun l => (l.msg.id, l.entry) := by
  have hstep (o : Option Letter) (l : Letter) :
      older (o.map fun l => (l.msg.id, l.entry)) (l.msg.id, l.entry) =
        (argAux (fun b c => b.now.text < c.now.text) o l).map
          fun l => (l.msg.id, l.entry) := by
    cases o with
    | none => rfl
    | some m =>
      by_cases h : l.now.text < m.now.text
      · simp only [Option.map_some, older, argAux, Letter.entry, h, if_true]
      · simp only [Option.map_some, older, argAux, Letter.entry, h, if_false]
  have hfold (o : Option Letter) :
      ls.foldl (fun o l => older o (l.msg.id, l.entry)) (o.map fun l => (l.msg.id, l.entry)) =
        (ls.foldl (argAux fun b c => b.now.text < c.now.text) o).map
          fun l => (l.msg.id, l.entry) := by
    induction ls generalizing o with
    | nil => rfl
    | cons l ls ih => rw [foldl_cons, foldl_cons, hstep, ih]
  rw [foldl_map]
  exact hfold none

/-- The key a `Put` evicts, if it evicts one. -/
def evictee (d : DLQ) : Option String :=
  if d.maxSize ≤ d.size then (oldestKey d.messages).join else none

theorem evictee_eq_some_iff {k : String} :
    d.evictee = some k ↔ d.maxSize ≤ d.size ∧ oldestKey d.messages = some (some k) := by
  unfold evictee
  split_ifs with hfull
  · simp [hfull, Option.join_eq_some_iff]
  · simp [hfull]

theorem Lists.oldestKey_eq {ls : List Letter} (h : d.Lists ls) (hd : d.Legible) :
    oldestKey d.messages =
      some ((ls.argmin fun l => l.now.text).map fun l => l.msg.id) := by
  rw [oldestKey, h.decoded_eq hd, Option.map_some, foldl_older, Option.map_map]
  rfl

/-- **What `Put` evicts**: out of a full queue, a letter whose text comes first. -/
theorem Sound.of_evictee (h : d.Sound) (hd : d.Legible) {k : String} (hk : d.evictee = some k) :
    d.maxSize ≤ d.size ∧
      ∃ l, d.Holds l ∧ l.msg.id = k ∧ ∀ m, d.Holds m → l.now.text ≤ m.now.text := by
  obtain ⟨ls, hls⟩ := h.exists_lists
  obtain ⟨hfull, hkey⟩ := evictee_eq_some_iff.mp hk
  rw [hls.oldestKey_eq hd, Option.some.injEq, Option.map_eq_some_iff] at hkey
  obtain ⟨l, hl, rfl⟩ := hkey
  refine ⟨hfull, l, (hls.mem_iff l).mp (argmin_mem hl), rfl, fun m hm => ?_⟩
  exact le_of_mem_argmin (f := fun l : Letter => l.now.text) ((hls.mem_iff m).mpr hm) hl

theorem Sound.exists_evictee (h : d.Sound) (hd : d.Legible) (hfull : d.maxSize ≤ d.size)
    (hpos : 0 < d.size) : ∃ k, d.evictee = some k := by
  obtain ⟨ls, hls⟩ := h.exists_lists
  rw [evictee, if_pos hfull, hls.oldestKey_eq hd]
  cases harg : ls.argmin fun l => l.now.text with
  | none =>
    rw [argmin_eq_none] at harg
    have := hls.length_eq
    rw [harg, length_nil] at this
    omega
  | some l => exact ⟨l.msg.id, rfl⟩

/-! ### `Put` -/

/-- The bucket without the key `Put` evicts. -/
def spared (d : DLQ) : Bucket String Bytes :=
  match d.evictee with
  | some k => d.messages.erase k
  | none => d.messages

theorem lookup_spared (d : DLQ) (k : String) :
    d.spared.lookup k = if d.evictee = some k then none else d.messages.lookup k := by
  unfold spared
  cases d.evictee with
  | none => simp
  | some =>
    rw [Bucket.lookup_erase_eq]
    simp only [Option.some.injEq, eq_comm]

/-- The queue after a `Put` that goes through. -/
def putOk (d : DLQ) (l : Letter) : DLQ :=
  { d with messages := d.spared.insert l.msg.id l.entry.text }

theorem put_of_evict (hevict : (if d.maxSize ≤ d.messages.size then evictOldest d.messages
      else some d.messages) = some d.spared) (l : Letter) :
    d.put l = if l.Accepted then some (d.putOk l) else none := by
  by_cases hl : l.msg.Marshals
  · simp only [put, DLQEntry.marshal, if_pos (Letter.marshals_entry.mpr hl), Option.bind_some,
      hevict, Letter.Accepted, hl, true_and]
    rfl
  · have hentry : ¬ l.entry.Marshals := fun h => hl (Letter.marshals_entry.mp h)
    simp only [put, DLQEntry.marshal, if_neg hentry, Option.bind_none, Letter.Accepted, hl,
      false_and, if_false]

theorem Sound.put_eq (h : d.Sound) (hd : d.Legible) (l : Letter) :
    d.put l = if l.Accepted then some (d.putOk l) else none := by
  obtain ⟨ls, hls⟩ := h.exists_lists
  refine put_of_evict ?_ l
  unfold spared evictee
  rw [evictOldest, hls.oldestKey_eq hd]
  change (if d.maxSize ≤ d.size then _ else _) = _
  split_ifs
  · cases ls.argmin fun l => l.now.text <;> rfl
  · rfl

/-- A queue with room evicts nothing. -/
theorem put_of_room (hroom : d.size < d.maxSize) (l : Letter) :
    d.put l = (if l.Accepted then some (d.putOk l) else none) ∧ d.evictee = none := by
  have hfull : ¬ d.maxSize ≤ d.messages.size := not_le.mpr hroom
  have hevictee : d.evictee = none := if_neg hfull
  refine ⟨put_of_evict ?_ l, hevictee⟩
  rw [if_neg hfull, spared, hevictee]

theorem lookup_putOk (d : DLQ) (l : Letter) (k : String) :
    (d.putOk l).messages.lookup k = if k = l.msg.id then some l.entry.text
      else if d.evictee = some k then none else d.messages.lookup k := by
  rw [putOk, Bucket.lookup_insert_eq, lookup_spared]

section

variable (hl : l.msg.Marshals)

include hl

/-- **What the queue holds after a `Put`.** -/
theorem holds_putOk {m : Letter} : (d.putOk l).Holds m ↔
    m = l ∨ m.msg.id ≠ l.msg.id ∧ d.evictee ≠ some m.msg.id ∧ d.Holds m := by
  have hiff (d : DLQ) : d.Holds m ↔
      d.messages.lookup m.msg.id = some m.entry.text ∧ m.msg.Marshals :=
    ⟨fun h => ⟨h.lookup, h.marshals⟩, fun h => ⟨h.1, h.2⟩⟩
  rw [hiff, hiff, lookup_putOk]
  split_ifs with hid he
  · simp only [Option.some.injEq, hid, ne_eq, not_true_eq_false, false_and, or_false]
    constructor
    · rintro ⟨htext, hm⟩
      exact ((Letter.text_entry_inj hl hm).mp htext).symm
    · rintro rfl
      exact ⟨rfl, hl⟩
  · have hne : m ≠ l := fun h => hid (congrArg (fun l => l.msg.id) h)
    simp [hne, he]
  · have hne : m ≠ l := fun h => hid (congrArg (fun l => l.msg.id) h)
    simp [hne, hid, he]

theorem Sound.putOk (h : d.Sound) : (d.putOk l).Sound := by
  intro k data hk
  rw [lookup_putOk] at hk
  split_ifs at hk with hid
  · exact ⟨l, hid.symm, Option.some.inj hk, hl⟩
  · exact h k data hk

theorem Legible.putOk (h : d.Legible) (hn : l.msg.Nestable) : (d.putOk l).Legible := by
  intro m hm
  rcases (holds_putOk hl).mp hm with rfl | ⟨-, -, hm⟩
  · exact hn
  · exact h m hm

end

section

/-- **A `Put` keeps the queue within its bound.** -/
theorem Sound.size_putOk_le (h : d.Sound) (hd : d.Legible) (hmax : 1 ≤ d.maxSize)
    (hsize : d.size ≤ d.maxSize) (l : Letter) : (d.putOk l).size ≤ d.maxSize := by
  have hinsert : (d.putOk l).size ≤ d.spared.size + 1 := by
    by_cases hid : l.msg.id ∈ d.spared
    · have := d.spared.size_insert_of_mem l.msg.id l.entry.text hid
      exact this.le.trans (Nat.le_succ _)
    · exact (d.spared.size_insert_of_notMem l.msg.id l.entry.text hid).le
  have hspared : (d.spared.size : ℤ) + 1 ≤ d.maxSize := by
    by_cases hfull : d.maxSize ≤ d.size
    · obtain ⟨k, hk⟩ := h.exists_evictee hd hfull (by omega)
      obtain ⟨-, m, hm, rfl, -⟩ := h.of_evictee hd hk
      have herase := d.messages.size_erase_of_mem m.msg.id (mem_of_holds hm)
      have hsize' : d.messages.size = d.size := rfl
      simp only [spared, hk]
      omega
    · have hnone : d.evictee = none := if_neg hfull
      have hsize' : d.messages.size = d.size := rfl
      simp only [spared, hnone]
      omega
  omega

end

/-! ### `Delete` and `PurgeExpired` -/

theorem expired_map (cutoff : ℤ) (ls : List Letter) :
    expired cutoff (ls.map fun l => (l.msg.id, l.entry)) =
      some ((ls.filter fun l => l.now.instant < cutoff).map fun l => l.msg.id) := by
  induction ls with
  | nil => rfl
  | cons l ls ih =>
    have htime : Time.ofText l.entry.createdAt = some l.now.toTime :=
      Time.ofText_text l.now.marshals
    simp only [map_cons, expired, ih, htime]
    by_cases h : l.now.instant < cutoff
    · simp [h]
    · simp [h]

/-- **`PurgeExpired` removes the letters from before the cutoff**, and counts them. -/
theorem Lists.purgeExpired_eq {ls : List Letter} (h : d.Lists ls) (hd : d.Legible) (now : Time) :
    d.purgeExpired now =
      let ks := (ls.filter fun l => l.now.instant < now.instant - d.ttl).map fun l => l.msg.id
      some ({ d with messages := ks.foldl (fun b k => b.erase k) d.messages }, ks.length) := by
  rw [purgeExpired, h.decoded_eq hd, Option.bind_some, expired_map, Option.map_some]

section

variable (b : Bucket String Bytes) (ks : List String)

theorem lookup_foldl_erase (k : String) :
    (ks.foldl (fun b k => b.erase k) b).lookup k = if k ∈ ks then none else b.lookup k := by
  induction ks generalizing b with
  | nil => simp
  | cons k' ks ih =>
    rw [foldl_cons, ih, Bucket.lookup_erase_eq]
    by_cases hk : k = k'
    · simp [hk]
    · simp [hk]

theorem size_foldl_erase_le : Bucket.size (ks.foldl (fun b k => b.erase k) b) ≤ b.size := by
  induction ks generalizing b with
  | nil => exact le_rfl
  | cons k ks ih => exact (ih (b.erase k)).trans (b.size_erase_le k)

end

/-! ### Calls -/

/-- A call that changes the queue; `PurgeExpired` reads the time from the clock. -/
inductive Call where
  | put (l : Letter)
  | delete (id : String)
  | purgeExpired (now : Utc)

/-- The queue after a call; after an error it is as before. -/
def after (d : DLQ) : Call → DLQ
  | .put l => (d.put l).getD d
  | .delete id => d.delete id
  | .purgeExpired now => ((d.purgeExpired now.toTime).map Prod.fst).getD d

/-- A call as a step. -/
def step (d : DLQ) (c : Call) : Option DLQ := some (d.after c)

/-- The letter is older than the queue keeps letters. -/
def Expired (d : DLQ) (now : Utc) (l : Letter) : Prop := l.now.instant < now.instant - d.ttl
  deriving Decidable

/-- **What `PurgeExpired` leaves** of a queue that can be read. -/
theorem Sound.holds_purge (h : d.Sound) (hd : d.Legible) (now : Utc) {m : Letter} :
    (d.after (.purgeExpired now)).Holds m ↔ d.Holds m ∧ ¬ d.Expired now m := by
  obtain ⟨ls, hls⟩ := h.exists_lists
  rw [after, hls.purgeExpired_eq hd]
  simp only [Option.map_some, Option.getD_some]
  constructor
  · rintro ⟨hlookup, hm⟩
    rw [lookup_foldl_erase] at hlookup
    split_ifs at hlookup with hmem
    refine ⟨⟨hlookup, hm⟩, fun hexpired => hmem (mem_map.mpr ⟨m, ?_, rfl⟩)⟩
    exact mem_filter.mpr ⟨(hls.mem_iff m).mpr ⟨hlookup, hm⟩, decide_eq_true hexpired⟩
  · rintro ⟨hm, hexpired⟩
    refine ⟨?_, hm.marshals⟩
    rw [lookup_foldl_erase, if_neg, hm.lookup]
    intro hmem
    obtain ⟨l, hl, hid⟩ := mem_map.mp hmem
    obtain ⟨hl, hexpired'⟩ := mem_filter.mp hl
    obtain rfl := ((hls.mem_iff l).mp hl).eq hm hid
    exact hexpired (of_decide_eq_true hexpired')

/-- A queue that cannot be read stays as it is. -/
theorem Sound.purge_of_not_legible (h : d.Sound) (hd : ¬ d.Legible) (now : Utc) :
    d.after (.purgeExpired now) = d := by
  obtain ⟨ls, hls⟩ := h.exists_lists
  have hnone : decoded d.messages = none :=
    Option.eq_none_iff_forall_ne_some.mpr fun es hes => hd (hls.legible hes)
  rw [after, purgeExpired, hnone]
  rfl

theorem sound_new (maxSize ttl : ℤ) : (new maxSize ttl).Sound := by
  intro k data h
  cases h

variable (h : d.Sound) (hd : d.Legible) (c : Call)

include h hd

/-- **What a call does to a queue that can be read**: a `Put` that goes through stores its letter
and removes at most the key it evicts; any other call removes keys, if it changes anything. -/
theorem Sound.after_cases :
    (∃ l, c = .put l ∧ l.Accepted ∧ d.after c = d.putOk l) ∨
    (∀ l, c = .put l → ¬ l.Accepted) ∧
      ∃ ks : List String,
        d.after c = { d with messages := ks.foldl (fun b k => b.erase k) d.messages } := by
  cases c with
  | put l =>
    have hput := h.put_eq hd l
    by_cases hl : l.Accepted
    · rw [if_pos hl] at hput
      exact .inl ⟨l, rfl, hl, by rw [after, hput]; rfl⟩
    · rw [if_neg hl] at hput
      refine .inr ⟨fun l' hl' => ?_, [], by rw [after, hput]; rfl⟩
      cases hl'
      exact hl
  | delete id =>
    refine .inr ⟨fun l hl => ?_, [id], rfl⟩
    cases hl
  | purgeExpired =>
    obtain ⟨ls, hls⟩ := h.exists_lists
    refine .inr ⟨fun l hl => ?_, _, by rw [after, hls.purgeExpired_eq hd]; rfl⟩
    cases hl

theorem Sound.after : (d.after c).Sound := by
  obtain ⟨l, -, hl, heq⟩ | ⟨-, ks, heq⟩ := h.after_cases hd c
  · rw [heq]
    exact h.putOk hl.1
  · rw [heq]
    intro k data hk
    rw [lookup_foldl_erase] at hk
    split_ifs at hk
    exact h k data hk

theorem Sound.legible_after (hc : ∀ l, c = .put l → l.msg.Nestable) : (d.after c).Legible := by
  obtain ⟨l, hl, hacc, heq⟩ | ⟨-, ks, heq⟩ := h.after_cases hd c
  · rw [heq]
    exact hd.putOk hacc.1 (hc l hl)
  · rw [heq]
    intro m hm
    have hlookup := hm.lookup
    rw [lookup_foldl_erase] at hlookup
    split_ifs at hlookup
    exact hd m ⟨hlookup, hm.marshals⟩

theorem Sound.maxSize_after : (d.after c).maxSize = d.maxSize := by
  obtain ⟨l, -, -, heq⟩ | ⟨-, ks, heq⟩ := h.after_cases hd c
  · rw [heq, DLQ.putOk]
  · rw [heq]

theorem Sound.ttl_after : (d.after c).ttl = d.ttl := by
  obtain ⟨l, -, -, heq⟩ | ⟨-, ks, heq⟩ := h.after_cases hd c
  · rw [heq, DLQ.putOk]
  · rw [heq]

end DLQ
end K8s4Claw.IpcBus
