/-
# Length-prefixed frames

A frame is a header of fixed size, which says how long the body is, and the body.  A `Framing` says
how values are written as frames and read back; it is the data of one implementation, without laws.
`Reads F G` says that `G` reads what `F` writes: the headers have one size, `G` reads the lengths
that `F` writes and accepts them, and it decodes the bodies.  Two implementations of one format are
two framings that read each other.

A reader gets a stream in chunks, however the transport has split it.  What it reads depends on the
bytes alone (`readFrom_flatten`).  Writers `F i` and readers `F j` that read each other can be
mixed, one of each for each value (`received_frames`, `received_cut`).
-/

import K8s4Claw.Lib.Decimal
import Mathlib.Data.List.Forall2

namespace K8s4Claw.Lib

open List Option

/-- Read exactly `n` bytes of a stream that comes in chunks, `none` when it ends before.  What is
left of a chunk is read next. -/
def readFull : ℕ → List Bytes → Option (Bytes × List Bytes)
  | 0, chunks => some ([], chunks)
  | _ + 1, [] => none
  | n + 1, chunk :: chunks =>
      if n + 1 ≤ chunk.length then some (chunk.take (n + 1), chunk.drop (n + 1) :: chunks)
      else (readFull (n + 1 - chunk.length) chunks).map fun r => (chunk ++ r.1, r.2)

theorem readFull_of_lt {n : ℕ} {chunks : List Bytes} (h : chunks.flatten.length < n) :
    readFull n chunks = none := by
  induction chunks generalizing n with
  | nil =>
    obtain ⟨n, rfl⟩ : ∃ k, n = k + 1 := ⟨n - 1, by simp at h; omega⟩
    rfl
  | cons _ _ ih =>
    rw [flatten_cons, length_append] at h
    obtain ⟨n, rfl⟩ : ∃ k, n = k + 1 := ⟨n - 1, by omega⟩
    rw [readFull, if_neg (by omega), ih (by omega), map_none]

/-- **What is read depends on the bytes alone**, however they are split. -/
theorem exists_readFull {n : ℕ} {chunks : List Bytes} (h : n ≤ chunks.flatten.length) :
    ∃ rest, readFull n chunks = some (chunks.flatten.take n, rest) ∧
      rest.flatten = chunks.flatten.drop n := by
  induction chunks generalizing n with
  | nil =>
    obtain rfl : n = 0 := by simpa using h
    exact ⟨[], rfl, rfl⟩
  | cons chunk chunks ih =>
    rw [flatten_cons, length_append] at h
    cases n with
    | zero => exact ⟨chunk :: chunks, rfl, rfl⟩
    | succ n =>
      rw [readFull, flatten_cons]
      by_cases hle : n + 1 ≤ chunk.length
      · refine ⟨chunk.drop (n + 1) :: chunks, ?_, ?_⟩
        · rw [if_pos hle, take_append_of_le_length hle]
        · rw [flatten_cons, drop_append_of_le_length hle]
      · obtain ⟨rest, hrest, hdrop⟩ := ih (n := n + 1 - chunk.length) (by omega)
        have hlen : chunk.length ≤ n + 1 := by omega
        refine ⟨rest, ?_, ?_⟩
        · rw [if_neg hle, hrest, map_some, take_append, take_of_length_le hlen]
        · rw [hdrop, drop_append, drop_of_length_le hlen, nil_append]

/-- How values of `α` are framed. -/
structure Framing (α : Type*) where
  headerSize : ℕ
  maxSize : ℕ
  putHeader : ℕ → Bytes
  getHeader : Bytes → ℕ
  encode : α → Option Bytes
  decode : Bytes → Option α

namespace Framing

variable {α ι : Type*}

/-- The frame of a value; `none` when it cannot be encoded or is too large. -/
def write (F : Framing α) (a : α) : Option Bytes :=
  (F.encode a).bind fun data =>
    if data.length > F.maxSize then none else some (F.putHeader data.length ++ data)

/-- A value read from the bytes still to come, and the bytes after it; `none` for an error. -/
def read (F : Framing α) (input : Bytes) : Option (α × Bytes) :=
  if input.length < F.headerSize then none
  else
    let length := F.getHeader (input.take F.headerSize)
    let rest := input.drop F.headerSize
    if length > F.maxSize then none
    else if rest.length < length then none
    else (F.decode (rest.take length)).map fun a => (a, rest.drop length)

/-- A value read from a stream that comes in chunks. -/
def readFrom (F : Framing α) (chunks : List Bytes) : Option (α × List Bytes) :=
  (readFull F.headerSize chunks).bind fun (header, chunks) =>
    let length := F.getHeader header
    if length > F.maxSize then none
    else (readFull length chunks).bind fun (data, chunks) =>
      (F.decode data).map fun a => (a, chunks)

/-- Values read one after another, each by its own reader, up to the first error; and the chunks
that are left, `none` after an error. -/
def readAll : List (Framing α) → List Bytes → List α × Option (List Bytes)
  | [], chunks => ([], some chunks)
  | F :: readers, chunks =>
      match F.readFrom chunks with
      | none => ([], none)
      | some (a, chunks) => ((a :: (readAll readers chunks).1), (readAll readers chunks).2)

/-- Values read one after another by one reader up to the first error, at most `fuel` of them, and
the bytes that are left there. -/
def readUpTo (F : Framing α) : ℕ → Bytes → List α × Bytes
  | 0, input => ([], input)
  | fuel + 1, input =>
      match F.read input with
      | none => ([], input)
      | some (a, rest) => (a :: (readUpTo F fuel rest).1, (readUpTo F fuel rest).2)

/-- All values up to the first error, and the bytes that are left there: every value takes a byte
at least. -/
def readStream (F : Framing α) (input : Bytes) : List α × Bytes := F.readUpTo input.length input

/-- A framing of `β` used for `α`. -/
def via {β : Type*} (F : Framing β) (f : α → β) (g : β → α) : Framing α where
  headerSize := F.headerSize
  maxSize := F.maxSize
  putHeader := F.putHeader
  getHeader := F.getHeader
  encode a := F.encode (f a)
  decode data := (F.decode data).map g

/-- `G` reads what `F` writes. -/
structure Reads (F G : Framing α) : Prop where
  headerSize : G.headerSize = F.headerSize
  maxSize : F.maxSize ≤ G.maxSize
  length_putHeader : ∀ n, (F.putHeader n).length = F.headerSize
  getHeader : ∀ n ≤ F.maxSize, G.getHeader (F.putHeader n) = n
  decode : ∀ a data, F.encode a = some data → G.decode data = some a

/-- How many of these frames are whole in the first `n` bytes. -/
def wholeFrames : List Bytes → ℕ → ℕ
  | [], _ => 0
  | frame :: frames, n =>
      if frame.length ≤ n then wholeFrames frames (n - frame.length) + 1 else 0

section

variable {F G : Framing α} {a : α} {frame part : Bytes}

theorem read_via {β : Type*} (F : Framing β) (f : α → β) (g : β → α) (input : Bytes) :
    (F.via f g).read input = (F.read input).map fun r => (g r.1, r.2) := by
  have hvia : (F.via f g).read input =
      if input.length < F.headerSize then none
      else if F.getHeader (input.take F.headerSize) > F.maxSize then none
      else if (input.drop F.headerSize).length < F.getHeader (input.take F.headerSize) then none
      else ((F.decode ((input.drop F.headerSize).take
        (F.getHeader (input.take F.headerSize)))).map g).map fun a =>
          (a, (input.drop F.headerSize).drop (F.getHeader (input.take F.headerSize))) := rfl
  rw [hvia, read]
  dsimp only
  split_ifs
  · rfl
  · rfl
  · rfl
  · rw [Option.map_map, Option.map_map]
    rfl

/-- **Reading from chunks is reading the bytes.** -/
theorem readFrom_flatten (F : Framing α) (chunks : List Bytes) :
    (F.readFrom chunks).map (fun r => (r.1, r.2.flatten)) = F.read chunks.flatten := by
  unfold readFrom read
  by_cases hshort : chunks.flatten.length < F.headerSize
  · rw [if_pos hshort, readFull_of_lt hshort, bind_none, map_none]
  · obtain ⟨rest, hheader, hdrop⟩ := exists_readFull (not_lt.mp hshort)
    rw [if_neg hshort, hheader, bind_some]
    dsimp only
    rw [← hdrop]
    generalize F.getHeader (chunks.flatten.take F.headerSize) = length
    by_cases hmax : length > F.maxSize
    · rw [if_pos hmax, if_pos hmax, map_none]
    · rw [if_neg hmax, if_neg hmax]
      by_cases hbody : rest.flatten.length < length
      · rw [if_pos hbody, readFull_of_lt hbody, bind_none, map_none]
      · obtain ⟨rest', hdata, hdrop'⟩ := exists_readFull (not_lt.mp hbody)
        rw [if_neg hbody, hdata, Option.bind_some, Option.map_map, ← hdrop']
        rfl

theorem readFrom_of_read_none {chunks : List Bytes} (h : F.read chunks.flatten = none) :
    F.readFrom chunks = none := by
  rw [← readFrom_flatten] at h
  exact map_eq_none_iff.mp h

theorem readFrom_of_read_some {chunks : List Bytes} {rest : Bytes}
    (h : F.read chunks.flatten = some (a, rest)) :
    ∃ chunks', F.readFrom chunks = some (a, chunks') ∧ chunks'.flatten = rest := by
  rw [← readFrom_flatten] at h
  obtain ⟨⟨b, chunks'⟩, hr, heq⟩ := map_eq_some_iff.mp h
  obtain ⟨rfl, hrest⟩ := Prod.mk.inj heq
  exact ⟨chunks', hr, hrest⟩

theorem eq_of_write (hw : F.write a = some frame) :
    ∃ data, F.encode a = some data ∧ data.length ≤ F.maxSize ∧
      frame = F.putHeader data.length ++ data := by
  obtain ⟨data, hdata, hw⟩ := bind_eq_some_iff.mp hw
  split_ifs at hw with hsize
  exact ⟨data, hdata, not_lt.mp hsize, (some.inj hw).symm⟩

theorem read_header (h : Reads F G) {n : ℕ} (hn : n ≤ F.maxSize) (rest : Bytes) :
    G.read (F.putHeader n ++ rest) =
      if rest.length < n then none
      else (G.decode (rest.take n)).map fun a => (a, rest.drop n) := by
  have hlen : (F.putHeader n).length = G.headerSize := by rw [h.length_putHeader, h.headerSize]
  have hshort : ¬ (F.putHeader n ++ rest).length < G.headerSize := by
    rw [length_append]
    omega
  have hmax : ¬ n > G.maxSize := not_lt.mpr (hn.trans h.maxSize)
  unfold read
  rw [if_neg hshort, take_left' hlen, drop_left' hlen, h.getHeader n hn]
  rw [if_neg hmax]

/-- **A frame is read back**, and nothing of what follows it is consumed. -/
theorem read_frame (h : Reads F G) (hw : F.write a = some frame) (rest : Bytes) :
    G.read (frame ++ rest) = some (a, rest) := by
  obtain ⟨data, hdata, hsize, rfl⟩ := eq_of_write hw
  have hlong : ¬ (data ++ rest).length < data.length := by
    rw [length_append]
    omega
  rw [append_assoc, read_header h hsize, if_neg hlong, take_left, drop_left, h.decode a data hdata,
    map_some]

/-- **A frame that is cut is not read.** -/
theorem read_cut (h : Reads F G) (hw : F.write a = some frame) (hpart : part <+: frame)
    (hne : part ≠ frame) : G.read part = none := by
  obtain ⟨data, -, hsize, rfl⟩ := eq_of_write hw
  have hheader : (F.putHeader data.length).length = G.headerSize := by
    rw [h.length_putHeader, h.headerSize]
  have hlt : part.length < G.headerSize + data.length := by
    rw [← hheader, ← length_append]
    exact lt_of_le_of_ne hpart.length_le fun heq => hne (hpart.eq_of_length heq)
  by_cases hshort : part.length < G.headerSize
  · rw [read, if_pos hshort]
  · -- the header is whole and the body is not
    obtain ⟨body, rfl⟩ : F.putHeader data.length <+: part :=
      prefix_of_prefix_length_le (prefix_append ..) hpart (by omega)
    rw [length_append] at hlt
    rw [read_header h hsize, if_pos (by omega)]

theorem read_append {input rest : Bytes} (h : F.read input = some (a, rest)) (more : Bytes) :
    F.read (input ++ more) = some (a, rest ++ more) := by
  unfold read at h ⊢
  dsimp only at h ⊢
  split_ifs at h with hheader hmax hbody
  rw [not_lt] at hheader hbody
  obtain ⟨b, hb, heq⟩ := map_eq_some_iff.mp h
  obtain ⟨rfl, rfl⟩ := Prod.mk.inj heq
  have hlong : F.headerSize ≤ (input ++ more).length := by
    rw [length_append]
    omega
  have hbody' : F.getHeader (input.take F.headerSize) ≤
      (input.drop F.headerSize ++ more).length := by
    rw [length_append]
    omega
  rw [if_neg (not_lt.mpr hlong), take_append_of_le_length hheader,
    drop_append_of_le_length hheader, if_neg hmax, if_neg (not_lt.mpr hbody'),
    take_append_of_le_length hbody, drop_append_of_le_length hbody, hb, map_some]

theorem length_of_read (hpos : 0 < F.headerSize) {input rest : Bytes}
    (h : F.read input = some (a, rest)) : rest.length < input.length := by
  unfold read at h
  dsimp only at h
  split_ifs at h
  obtain ⟨b, -, heq⟩ := map_eq_some_iff.mp h
  obtain ⟨-, rfl⟩ := Prod.mk.inj heq
  simp only [length_drop]
  omega

end

/-! ### One reader on a stream -/

section

variable {F : Framing α} {a : α} {input rest : Bytes}

theorem readUpTo_of_none (h : F.read input = none) (fuel : ℕ) :
    F.readUpTo fuel input = ([], input) := by
  cases fuel with
  | zero => rfl
  | succ => rw [readUpTo, h]

theorem readUpTo_of_some (h : F.read input = some (a, rest)) (fuel : ℕ) :
    F.readUpTo (fuel + 1) input =
      (a :: (F.readUpTo fuel rest).1, (F.readUpTo fuel rest).2) := by
  rw [readUpTo, h]

theorem readStream_of_none (h : F.read input = none) : F.readStream input = ([], input) :=
  readUpTo_of_none h _

variable (hpos : 0 < F.headerSize)

include hpos

/-- The length of the input is fuel enough. -/
theorem readUpTo_eq_readStream {fuel : ℕ} (hfuel : input.length ≤ fuel) :
    F.readUpTo fuel input = F.readStream input := by
  suffices h : ∀ m n : ℕ, input.length ≤ m → input.length ≤ n →
      F.readUpTo m input = F.readUpTo n input from h _ _ hfuel le_rfl
  clear hfuel
  intro m
  induction m generalizing input with
  | zero =>
    intro n hm _
    have hnil : F.read input = none := by
      rw [read, if_pos (by omega)]
    rw [readUpTo_of_none hnil, readUpTo_of_none hnil]
  | succ m ih =>
    intro n hm hn
    cases hread : F.read input with
    | none => rw [readUpTo_of_none hread, readUpTo_of_none hread]
    | some =>
      have hlt := length_of_read hpos hread
      obtain ⟨n, rfl⟩ : ∃ k, n = k + 1 := ⟨n - 1, by omega⟩
      rw [readUpTo_of_some hread, readUpTo_of_some hread, ih n (by omega) (by omega)]

theorem readStream_of_some (h : F.read input = some (a, rest)) :
    F.readStream input = (a :: (F.readStream rest).1, (F.readStream rest).2) := by
  have hlt := length_of_read hpos h
  rw [← readUpTo_eq_readStream hpos (Nat.le_succ input.length), readUpTo_of_some h,
    readUpTo_eq_readStream hpos hlt.le]

/-- **What is left when the reader stops is what it could not read.** -/
theorem read_readStream (input : Bytes) : F.read (F.readStream input).2 = none := by
  induction hn : input.length using Nat.strong_induction_on generalizing input with
  | _ n ih =>
    cases hread : F.read input with
    | none => rw [readStream_of_none hread, hread]
    | some =>
      have hlt := length_of_read hpos hread
      rw [readStream_of_some hpos hread]
      exact ih _ (hn ▸ hlt) _ rfl

/-- **A stream that goes on is read from where the reader stopped.** -/
theorem readStream_append (input more : Bytes) :
    F.readStream (input ++ more) =
      ((F.readStream input).1 ++ (F.readStream ((F.readStream input).2 ++ more)).1,
        (F.readStream ((F.readStream input).2 ++ more)).2) := by
  induction hn : input.length using Nat.strong_induction_on generalizing input with
  | _ n ih =>
    cases hread : F.read input with
    | none => rw [readStream_of_none hread, nil_append]
    | some =>
      have hlt := length_of_read hpos hread
      rw [readStream_of_some hpos hread, readStream_of_some hpos (read_append hread more),
        ih _ (hn ▸ hlt) _ rfl, cons_append]

end

/-! ### Streams of frames -/

/-- A value, the implementation that writes it, and the one that reads it. -/
structure Transfer (α ι : Type*) where
  value : α
  writer : ι
  reader : ι

section

variable {F : ι → Framing α} {items : List (Transfer α ι)} {frames : List Bytes}

/-- These are the frames of these values. -/
def Written (F : ι → Framing α) : List (Transfer α ι) → List Bytes → Prop :=
  List.Forall₂ fun item frame => (F item.writer).write item.value = some frame

/-- What the readers of these values read. -/
def received (F : ι → Framing α) (items : List (Transfer α ι)) (chunks : List Bytes) :
    List α × Option (List Bytes) :=
  readAll (items.map fun item => F item.reader) chunks

variable {chunks : List Bytes}

theorem received_cons_some {item : Transfer α ι} {a : α} {chunks' : List Bytes}
    (h : (F item.reader).readFrom chunks = some (a, chunks')) :
    received F (item :: items) chunks =
      (a :: (received F items chunks').1, (received F items chunks').2) := by
  simp only [received, map_cons, readAll, h]

theorem received_cons_none {item : Transfer α ι} (h : (F item.reader).readFrom chunks = none) :
    received F (item :: items) chunks = ([], none) := by
  simp only [received, map_cons, readAll, h]

variable (h : ∀ i j, Reads (F i) (F j)) (hw : Written F items frames)

include h hw

/-- **All values are read back**, whoever writes and reads each of them and however the stream is
split, and nothing of what follows is consumed. -/
theorem received_frames {tail : Bytes} (hchunks : chunks.flatten = frames.flatten ++ tail) :
    ∃ rest, received F items chunks = (items.map Transfer.value, some rest) ∧
      rest.flatten = tail := by
  induction hw generalizing chunks with
  | nil => exact ⟨chunks, rfl, hchunks⟩
  | @cons item _ _ frames hframe _ ih =>
    have hread := read_frame (h item.writer item.reader) hframe (frames.flatten ++ tail)
    rw [← append_assoc, ← flatten_cons, ← hchunks] at hread
    obtain ⟨chunks', hfrom, hrest⟩ := readFrom_of_read_some hread
    obtain ⟨rest, hall, htail⟩ := ih hrest
    exact ⟨rest, by rw [received_cons_some hfrom, hall]; rfl, htail⟩

/-- **Of a stream that is cut, the values of the whole frames are read, and then an error.** -/
theorem received_cut (hcut : chunks.flatten <+: frames.flatten)
    (hne : chunks.flatten ≠ frames.flatten) :
    received F items chunks =
      ((items.take (wholeFrames frames chunks.flatten.length)).map Transfer.value, none) := by
  induction hw generalizing chunks with
  | nil => exact absurd (prefix_nil.mp hcut) hne
  | @cons item frame _ frames hframe _ ih =>
    have hreads := h item.writer item.reader
    rw [flatten_cons] at hcut hne
    rw [wholeFrames]
    by_cases hwhole : frame.length ≤ chunks.flatten.length
    · obtain ⟨part, hpart⟩ : frame <+: chunks.flatten :=
        prefix_of_prefix_length_le (prefix_append ..) hcut hwhole
      have hread := read_frame hreads hframe part
      rw [hpart] at hread
      obtain ⟨chunks', hfrom, rfl⟩ := readFrom_of_read_some hread
      have hlen : chunks.flatten.length - frame.length = chunks'.flatten.length := by
        rw [← hpart, length_append, Nat.add_sub_cancel_left]
      have hcut' : chunks'.flatten <+: frames.flatten := by
        rw [← hpart] at hcut
        exact (prefix_append_right_inj frame).mp hcut
      have hne' : chunks'.flatten ≠ frames.flatten := by
        rintro heq
        exact hne (by rw [← hpart, heq])
      rw [if_pos hwhole, hlen, received_cons_some hfrom, ih hcut' hne', take_succ_cons, map_cons]
    · have hpart : chunks.flatten <+: frame :=
        prefix_of_prefix_length_le hcut (prefix_append ..) (by omega)
      have hpartne : chunks.flatten ≠ frame := by
        rintro heq
        exact hwhole (by rw [heq])
      have hread := read_cut hreads hframe hpart hpartne
      rw [if_neg hwhole, received_cons_none (readFrom_of_read_none hread)]
      rfl

end

end Framing
end K8s4Claw.Lib
