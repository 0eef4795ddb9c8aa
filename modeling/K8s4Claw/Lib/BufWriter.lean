/-
# Buffered appends to a file

A file open for appending and the `bufio.Writer` over it.  Bytes that are written wait in
the buffer until it is full or flushed; an error of the file stays with the writer and
every later call returns it.

What the file and the buffer hold together (`contents`) is what was written, whatever the
buffer size: `contents_write`, `contents_flush`.  Bytes that are in the file stay there
(`bytes_write`).
-/

import K8s4Claw.Lib.Decimal

namespace K8s4Claw.Lib

open List

/-- A file open for appending; after `Close` every write to it fails. -/
structure File where
  bytes : Bytes
  closed : Bool
  deriving DecidableEq

/-- What a write to a file does: all of it, or an error after some bytes. -/
inductive Outcome where
  | ok
  | fails (written : ℕ)
  deriving DecidableEq

/-- A write: the file, the number of bytes written, and whether it went through. -/
def File.write (f : File) (o : Outcome) (p : Bytes) : File × ℕ × Bool :=
  if f.closed then (f, 0, false)
  else match o with
    | .ok => ({ f with bytes := f.bytes ++ p }, p.length, true)
    | .fails k => ({ f with bytes := f.bytes ++ p.take k }, min k p.length, false)

/-- `bufio.Writer`: the buffered bytes and whether an error occurred. -/
structure BufWriter where
  file : File
  buffered : Bytes
  failed : Bool
  deriving DecidableEq

namespace BufWriter

/-- The size of the buffer `bufio.NewWriter` makes. -/
def size : ℕ := 4096

/-- `bufio.NewWriter`. -/
def new (f : File) : BufWriter := { file := f, buffered := [], failed := false }

def available (w : BufWriter) : ℕ := size - w.buffered.length

/-- `Flush`.  Of a write that fails, the bytes that were not written stay in the buffer. -/
def flush (o : Outcome) (w : BufWriter) : BufWriter :=
  if w.failed ∨ w.buffered = [] then w
  else
    let (f, n, ok) := w.file.write o w.buffered
    { file := f, buffered := w.buffered.drop n, failed := !ok }

/-- `Write` with an empty buffer: what does not fit goes to the file directly. -/
def writeEmpty (o : Outcome) (w : BufWriter) (p : Bytes) : BufWriter :=
  if p.length ≤ size then { w with buffered := p }
  else
    let (f, _, ok) := w.file.write o p
    { w with file := f, failed := !ok }

/-- `Write`.  Bytes that do not fit fill the buffer, the buffer is flushed, and the rest is
written with an empty buffer; so there are at most two writes to the file. -/
def write (o₁ o₂ : Outcome) (w : BufWriter) (p : Bytes) : BufWriter :=
  if w.failed then w
  else if p.length ≤ w.available then { w with buffered := w.buffered ++ p }
  else if w.buffered = [] then writeEmpty o₁ w p
  else
    let w' := flush o₁ { w with buffered := w.buffered ++ p.take w.available }
    if w'.failed then w' else writeEmpty o₂ w' (p.drop w.available)

/-- Everything written so far: the file and what waits for it. -/
def contents (w : BufWriter) : Bytes := w.file.bytes ++ w.buffered

/-- No error, and the file is open. -/
structure Ready (w : BufWriter) : Prop where
  not_closed : w.file.closed = false
  not_failed : w.failed = false

theorem ready_new (bs : Bytes) : (new ⟨bs, false⟩).Ready := ⟨rfl, rfl⟩

@[simp]
theorem contents_new (f : File) : (new f).contents = f.bytes := append_nil _

section

variable {w : BufWriter}

section

variable (h : w.Ready)

include h

theorem flush_ok :
    flush .ok w =
      { file := { w.file with bytes := w.contents }, buffered := [], failed := false } := by
  obtain ⟨⟨bytes, closed⟩, buffered, failed⟩ := w
  obtain ⟨rfl, rfl⟩ := h
  by_cases hb : buffered = []
  · simp [flush, contents, hb]
  · simp [flush, File.write, contents]

theorem ready_flush : (flush .ok w).Ready := by
  rw [flush_ok h]
  exact ⟨h.not_closed, rfl⟩

@[simp]
theorem contents_flush : (flush .ok w).contents = w.contents := by
  rw [flush_ok h, contents, append_nil]

theorem writeEmpty_ok (hempty : w.buffered = []) (p : Bytes) :
    (writeEmpty .ok w p).Ready ∧ (writeEmpty .ok w p).contents = w.contents ++ p := by
  obtain ⟨⟨bytes, closed⟩, buffered, failed⟩ := w
  obtain ⟨rfl, rfl⟩ := h
  obtain rfl := hempty
  unfold writeEmpty
  split_ifs
  · exact ⟨⟨rfl, rfl⟩, by simp [contents]⟩
  · exact ⟨⟨rfl, rfl⟩, by simp [contents, File.write]⟩

theorem write_ok (p : Bytes) :
    (write .ok .ok w p).Ready ∧ (write .ok .ok w p).contents = w.contents ++ p := by
  have hfailed : ¬ w.failed = true := by simp [h.not_failed]
  unfold write
  split_ifs with _ hempty
  · exact ⟨⟨h.not_closed, h.not_failed⟩, (append_assoc ..).symm⟩
  · exact writeEmpty_ok h hempty p
  · -- the buffer is filled and flushed before the rest is written
    have hfull : ({ w with buffered := w.buffered ++ p.take w.available } : BufWriter).Ready :=
      ⟨h.not_closed, h.not_failed⟩
    have hflush := ready_flush hfull
    have hnil :
        (flush .ok { w with buffered := w.buffered ++ p.take w.available }).buffered = [] := by
      rw [flush_ok hfull]
    obtain ⟨hready, hcontents⟩ := writeEmpty_ok hflush hnil (p.drop w.available)
    simp only [hflush.not_failed, Bool.false_eq_true, if_false]
    refine ⟨hready, ?_⟩
    rw [hcontents, contents_flush hfull, contents, contents, ← append_assoc, append_assoc,
      take_append_drop]

end

theorem write_of_le (o₁ o₂ : Outcome) (hfailed : w.failed = false) {p : Bytes}
    (hp : p.length ≤ w.available) :
    write o₁ o₂ w p = { w with buffered := w.buffered ++ p } := by
  rw [write, if_neg (by simp [hfailed]), if_pos hp]

theorem flush_of_closed (o : Outcome) (hclosed : w.file.closed = true) (hfailed : w.failed = false)
    (hb : w.buffered ≠ []) : flush o w = { w with failed := true } := by
  simp [flush, File.write, hclosed, hfailed, hb]

theorem write_of_closed (o₁ o₂ : Outcome) (hclosed : w.file.closed = true)
    (hfailed : w.failed = false) (hb : w.buffered ≠ []) {p : Bytes}
    (hp : w.available < p.length) :
    write o₁ o₂ w p =
      { w with buffered := w.buffered ++ p.take w.available, failed := true } := by
  have hfull : w.buffered ++ p.take w.available ≠ [] := by simp [hb]
  have hflush := flush_of_closed (w := { w with buffered := w.buffered ++ p.take w.available })
    o₁ hclosed hfailed hfull
  unfold write
  rw [if_neg (by simp [hfailed]), if_neg (Nat.not_le.mpr hp), if_neg hb]
  simp only [hflush, if_true]

theorem closed_flush (o : Outcome) (w : BufWriter) :
    (flush o w).file.closed = w.file.closed := by
  unfold flush File.write
  split_ifs
  · rfl
  · rfl
  · cases o <;> rfl

theorem ready_write (h : w.Ready) (p : Bytes) : (write .ok .ok w p).Ready := (write_ok h p).1

/-- **Writing appends to what was written.** -/
theorem contents_write (h : w.Ready) (p : Bytes) :
    (write .ok .ok w p).contents = w.contents ++ p := (write_ok h p).2

/-! ### The file only grows -/

theorem File.bytes_write (f : File) (o : Outcome) (p : Bytes) :
    f.bytes <+: (f.write o p).1.bytes := by
  unfold File.write
  split_ifs
  · exact prefix_rfl
  · cases o with
    | ok | fails => exact prefix_append ..

theorem bytes_flush (o : Outcome) (w : BufWriter) : w.file.bytes <+: (flush o w).file.bytes := by
  unfold flush
  split_ifs
  · exact prefix_rfl
  · exact File.bytes_write w.file o w.buffered

theorem bytes_writeEmpty (o : Outcome) (w : BufWriter) (p : Bytes) :
    w.file.bytes <+: (writeEmpty o w p).file.bytes := by
  unfold writeEmpty
  split_ifs
  · exact prefix_rfl
  · exact File.bytes_write w.file o p

/-- **A write leaves the bytes of the file where they are.** -/
theorem bytes_write (o₁ o₂ : Outcome) (w : BufWriter) (p : Bytes) :
    w.file.bytes <+: (write o₁ o₂ w p).file.bytes := by
  have hflush := bytes_flush o₁ { w with buffered := w.buffered ++ p.take w.available }
  unfold write
  split_ifs
  · exact prefix_rfl
  · exact prefix_rfl
  · exact bytes_writeEmpty o₁ w p
  · dsimp only
    split_ifs
    · exact hflush
    · exact hflush.trans (bytes_writeEmpty o₂ ..)

end

end BufWriter
end K8s4Claw.Lib
