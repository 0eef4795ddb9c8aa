/-
# Files of lines

`bufio.Scanner` with its default split function, and files that are written a line at
a time.  The scanner gives each line without its end of line, the last one also when the
file stops in the middle of it, and stops with an error at a line that does not fit in
its buffer together with its end of line.

* `rawLines_unlines` : the lines of a file written a line at a time are those lines;
* `scanLines_of_rawLines`, `forall_lt_of_scanLines` : the scanner reads the whole file when,
  and only when, every line fits;
* `exists_of_prefix_unlines` : a prefix of such a file is some of its lines and a part of
  the next one.
-/

import Mathlib.Data.List.TakeWhile
import K8s4Claw.Lib.Decimal

namespace K8s4Claw.Lib

open List

/-- The byte that ends a line. -/
def newline : UInt8 := 10

/-- The lines of a file, ends of line removed. -/
def rawLines : Bytes → List Bytes
  | [] => []
  | c :: rest =>
      if c = newline then [] :: rawLines rest
      else match rawLines rest with
        | [] => [[c]]
        | line :: lines =>
            -- an end of line right after `c` leaves `line` empty
            (c :: line) :: lines

/-- `dropCR`: a carriage return before the end of line goes with it. -/
def dropCR (line : Bytes) : Bytes :=
  if line.getLast? = some 13 then line.dropLast else line

/-- The tokens of a `bufio.Scanner` whose buffer may grow to `max` bytes, and whether it
read the whole file: `false` is `ErrTooLong`. -/
def scanLines (max : ℕ) (file : Bytes) : List Bytes × Bool :=
  let lines := rawLines file
  ((lines.takeWhile fun line => line.length < max).map dropCR,
    lines.all fun line => line.length < max)

/-- A file of these lines. -/
def unlines (lines : List Bytes) : Bytes := lines.flatMap (· ++ [newline])

/-- A line: no end of line and no carriage return in it. -/
def IsLine (line : Bytes) : Prop := newline ∉ line ∧ 13 ∉ line

@[simp]
theorem unlines_nil : unlines [] = [] := rfl

@[simp]
theorem unlines_cons (line : Bytes) (lines : List Bytes) :
    unlines (line :: lines) = line ++ newline :: unlines lines := by
  simp [unlines]

@[simp]
theorem unlines_append (a b : List Bytes) : unlines (a ++ b) = unlines a ++ unlines b :=
  flatMap_append

variable {line file : Bytes} {max : ℕ}

theorem dropCR_of_isLine (h : IsLine line) : dropCR line = line :=
  if_neg fun hl => h.2 (mem_of_getLast? hl)

theorem rawLines_append_newline (h : newline ∉ line) (rest : Bytes) :
    rawLines (line ++ newline :: rest) = line :: rawLines rest := by
  induction line with
  | nil => simp [rawLines]
  | cons c _ ih =>
    obtain ⟨hc, hline⟩ := not_or.mp (mem_cons.not.mp h)
    rw [cons_append, rawLines, if_neg (Ne.symm hc), ih hline]

theorem rawLines_of_not_mem (h : newline ∉ line) (hne : line ≠ []) : rawLines line = [line] := by
  induction line with
  | nil => exact absurd rfl hne
  | cons c line ih =>
    obtain ⟨hc, hline⟩ := not_or.mp (mem_cons.not.mp h)
    rw [rawLines, if_neg (Ne.symm hc)]
    by_cases hnil : line = []
    · rw [hnil, rawLines]
    · rw [ih hline hnil]

variable {lines : List Bytes}

theorem rawLines_unlines_append (h : ∀ line ∈ lines, newline ∉ line) (rest : Bytes) :
    rawLines (unlines lines ++ rest) = lines ++ rawLines rest := by
  induction lines with
  | nil => rfl
  | cons _ _ ih =>
    obtain ⟨hline, hlines⟩ := forall_mem_cons.mp h
    rw [unlines_cons, append_assoc, cons_append, rawLines_append_newline hline,
      ih hlines, cons_append]

/-- **The lines of a file written a line at a time are those lines.** -/
theorem rawLines_unlines (h : ∀ line ∈ lines, newline ∉ line) :
    rawLines (unlines lines) = lines := by
  simpa [rawLines] using rawLines_unlines_append h []

theorem scanLines_unlines (hline : ∀ line ∈ lines, newline ∉ line)
    (hfit : ∀ line ∈ lines, line.length < max) :
    scanLines max (unlines lines) = (lines.map dropCR, true) := by
  have hall : ∀ line ∈ lines, decide (line.length < max) = true := by simpa using hfit
  rw [scanLines, rawLines_unlines hline, takeWhile_eq_self_iff.mpr hall, all_eq_true.mpr hall]

theorem scanLines_of_rawLines (hraw : rawLines file = lines) (hline : ∀ line ∈ lines, IsLine line)
    (hfit : ∀ line ∈ lines, line.length < max) : scanLines max file = (lines, true) := by
  have hall : ∀ line ∈ lines, decide (line.length < max) = true := by simpa using hfit
  have hdrop : lines.map dropCR = lines :=
    (map_congr_left fun line hl => dropCR_of_isLine (hline line hl)).trans (map_id _)
  rw [scanLines, hraw, takeWhile_eq_self_iff.mpr hall, all_eq_true.mpr hall, hdrop]

theorem forall_lt_of_scanLines (h : (scanLines max file).2 = true) :
    ∀ line ∈ rawLines file, line.length < max := by
  intro line hline
  have hall : (rawLines file).all (fun line => decide (line.length < max)) = true := h
  simpa using all_eq_true.mp hall line hline

/-- **A prefix of a file written a line at a time** is some of its lines and a part of the
next one, or all of it. -/
theorem exists_of_prefix_unlines (h : file <+: unlines lines) :
    file = unlines lines ∨ ∃ done line todo part, lines = done ++ line :: todo ∧
      part <+: line ∧ file = unlines done ++ part := by
  induction lines generalizing file with
  | nil => exact .inl (prefix_nil.mp h)
  | cons line lines ih =>
    rw [unlines_cons] at h ⊢
    rcases prefix_or_prefix_of_prefix h (prefix_append line _) with hpart | ⟨t, rfl⟩
    · exact .inr ⟨[], line, lines, file, rfl, hpart, rfl⟩
    · rw [prefix_append_right_inj, prefix_cons_iff] at h
      rcases h with rfl | ⟨t, rfl, ht⟩
      · exact .inr ⟨[], line, lines, line, rfl, prefix_rfl, by simp⟩
      · rcases ih ht with rfl | ⟨done, next, todo, part, rfl, hpart, rfl⟩
        · exact .inl rfl
        · exact .inr ⟨line :: done, next, todo, part, rfl, hpart, by simp⟩

end K8s4Claw.Lib
