/-
# Times in RFC 3339

A `Time` is a date, a time of day with nanoseconds and an offset from UTC in
minutes, as `time.Parse` of Go reads it: years 0 to 9999, no leap seconds, and
offsets of up to 24 hours and 60 minutes.  `format` is the layout `RFC3339Nano`
(trailing zeros of the fraction are dropped, `Z` for offset 0).  `parse` is
`time.Parse` with that layout, and `UnmarshalJSON`, which falls back on it: the
hour may have one digit, and a comma may stand before the fraction, which may have
any length.  `MarshalJSON` refuses a time whose offset is a day or more
(`Marshals`).  `parse_format`: a time that it takes is read back as it was.
-/

import K8s4Claw.Lib.Decimal
import Mathlib.Data.List.TakeWhile

namespace K8s4Claw.Lib

open List

/-- The number of days of a month. -/
def daysIn (year month : ℕ) : ℕ :=
  if month = 2 then if year % 4 = 0 ∧ (year % 100 ≠ 0 ∨ year % 400 = 0) then 29 else 28
  else if month = 4 ∨ month = 6 ∨ month = 9 ∨ month = 11 then 30 else 31

/-- The fields of a time are in range. -/
def InRange (year month day hour minute second nanos : ℕ) (offset : ℤ) : Prop :=
  year < 10000 ∧ (1 ≤ month ∧ month ≤ 12) ∧ (1 ≤ day ∧ day ≤ daysIn year month) ∧ hour < 24 ∧
    minute < 60 ∧ second < 60 ∧ nanos < 10 ^ 9 ∧ offset.natAbs ≤ 1500
  deriving Decidable

/-- A time; the offset is in minutes. -/
structure Time where
  year : ℕ
  month : ℕ
  day : ℕ
  hour : ℕ
  minute : ℕ
  second : ℕ
  nanos : ℕ
  offset : ℤ
  inRange : InRange year month day hour minute second nanos offset
  deriving DecidableEq

/-- Midnight on the first day of year 1, the zero value of Go's `time.Time`. -/
def Time.zero : Time := ⟨1, 1, 1, 0, 0, 0, 0, 0, by decide⟩

/-! ### Writing -/

/-- `MarshalJSON` writes the time: the hour of its offset is below 24. -/
def Time.Marshals (t : Time) : Prop := t.offset.natAbs < 1440
  deriving Decidable

/-- The digits without the zeros at the end. -/
def trimZeros (b : Bytes) : Bytes := (b.reverse.dropWhile (· = 48)).reverse

/-- The fraction of a second, nothing when it is 0. -/
def formatNanos (n : ℕ) : Bytes := if n = 0 then [] else 46 :: trimZeros (padded 9 n)

def formatOffset (o : ℤ) : Bytes :=
  if o = 0 then [90]
  else (if o < 0 then 45 else 43) :: (padded 2 (o.natAbs / 60) ++ 58 :: padded 2 (o.natAbs % 60))

/-- The layout `RFC3339Nano`. -/
def Time.format (t : Time) : Bytes :=
  padded 4 t.year ++ 45 :: (padded 2 t.month ++ 45 :: (padded 2 t.day ++ 84 ::
    (padded 2 t.hour ++ 58 :: (padded 2 t.minute ++ 58 :: (padded 2 t.second ++
      (formatNanos t.nanos ++ formatOffset t.offset))))))

/-! ### Reading -/

/-- The number in the first `k` bytes, and what follows. -/
def takeDigits (k : ℕ) (b : Bytes) : Option (ℕ × Bytes) :=
  if (b.take k).length = k ∧ (b.take k).all isDigit then
    some (decimalValue (b.take k), b.drop k)
  else none

/-- The byte `c`, then what follows. -/
def expect (c : UInt8) : Bytes → Option Bytes
  | [] => none
  | x :: b => if x = c then some b else none

/-- The hour, of one or two digits, and what follows. -/
def takeHour (b : Bytes) : Option (ℕ × Bytes) := (takeDigits 2 b).or (takeDigits 1 b)

/-- The fraction of a second in nanoseconds, and what follows. -/
def parseNanos : Bytes → Option (ℕ × Bytes)
  | 46 :: b | 44 :: b =>
      let ds := b.takeWhile isDigit
      if ds = [] then none
      else some (decimalValue (ds.take 9) * 10 ^ (9 - (ds.take 9).length), b.dropWhile isDigit)
  | b => some (0, b)

/-- The offset, which ends the text. -/
def parseOffset : Bytes → Option ℤ
  | [90] => some 0
  | x :: b =>
      if x = 43 ∨ x = 45 then
        (takeDigits 2 b).bind fun (h, b) => (expect 58 b).bind fun b =>
          (takeDigits 2 b).bind fun (m, b) =>
            if b = [] ∧ h ≤ 24 ∧ m ≤ 60 then
              some (if x = 45 then -((h * 60 + m : ℕ) : ℤ) else ((h * 60 + m : ℕ) : ℤ))
            else none
      else none
  | [] => none

def Time.parse (b : Bytes) : Option Time :=
  (takeDigits 4 b).bind fun (year, b) => (expect 45 b).bind fun b =>
  (takeDigits 2 b).bind fun (month, b) => (expect 45 b).bind fun b =>
  (takeDigits 2 b).bind fun (day, b) => (expect 84 b).bind fun b =>
  (takeHour b).bind fun (hour, b) => (expect 58 b).bind fun b =>
  (takeDigits 2 b).bind fun (minute, b) => (expect 58 b).bind fun b =>
  (takeDigits 2 b).bind fun (second, b) => (parseNanos b).bind fun (nanos, b) =>
  (parseOffset b).bind fun offset =>
    if h : InRange year month day hour minute second nanos offset then
      some ⟨year, month, day, hour, minute, second, nanos, offset, h⟩
    else none

/-! ### A time read back -/

theorem takeDigits_padded {k n : ℕ} (hk : 0 < k) (h : n < 10 ^ k) (b : Bytes) :
    takeDigits k (padded k n ++ b) = some (n, b) := by
  have hlen := length_padded hk h
  have htake : (padded k n ++ b).take k = padded k n := by
    rw [take_append_of_le_length hlen.ge, take_of_length_le hlen.le]
  have hdrop : (padded k n ++ b).drop k = b := drop_left' hlen
  have hall : (padded k n).all isDigit = true :=
    all_eq_true.2 fun x hx => isDigit_of_mem_padded hx
  rw [takeDigits, htake, hdrop, if_pos ⟨hlen, hall⟩, decimalValue_padded]

theorem expect_cons (c : UInt8) (b : Bytes) : expect c (c :: b) = some b := by
  rw [expect, if_pos rfl]

theorem trimZeros_append (b : Bytes) :
    b = trimZeros b ++ List.replicate (b.length - (trimZeros b).length) 48 := by
  have hz : (b.reverse.takeWhile (· = 48)) =
      replicate (b.reverse.takeWhile (· = 48)).length 48 :=
    eq_replicate_iff.2 ⟨rfl, fun x hx => by simpa using mem_takeWhile_imp hx⟩
  have hb : b = trimZeros b ++ (b.reverse.takeWhile (· = 48)).reverse := by
    rw [trimZeros, ← reverse_append, takeWhile_append_dropWhile, reverse_reverse]
  have hlen : b.length - (trimZeros b).length = (b.reverse.takeWhile (· = 48)).length := by
    have := congrArg length hb
    rw [length_append, length_reverse] at this
    omega
  rw [hlen]
  conv_lhs => rw [hb, hz, reverse_replicate]

theorem mem_of_mem_trimZeros {b : Bytes} {x : UInt8} (h : x ∈ trimZeros b) : x ∈ b := by
  rw [trimZeros, mem_reverse] at h
  exact mem_reverse.1 (dropWhile_subset _ h)

/-- The fraction of a second is read back, before what is no digit and no fraction. -/
theorem parseNanos_formatNanos {n : ℕ} (hn : n < 10 ^ 9) {c : UInt8} {b : Bytes}
    (hc : isDigit c = false) (hdot : c ≠ 46 ∧ c ≠ 44) :
    parseNanos (formatNanos n ++ c :: b) = some (n, c :: b) := by
  unfold formatNanos
  split_ifs with h
  · subst h
    rw [nil_append, parseNanos]
    · simpa using hdot.1
    · simpa using hdot.2
  · have hdigits : ∀ x ∈ trimZeros (padded 9 n), isDigit x = true := fun x hx =>
      isDigit_of_mem_padded (mem_of_mem_trimZeros hx)
    have hpad := trimZeros_append (padded 9 n)
    have hlen : (padded 9 n).length = 9 := length_padded (by decide) hn
    have hval := congrArg decimalValue hpad
    rw [decimalValue_padded, decimalValue_append_replicate, hlen] at hval
    generalize trimZeros (padded 9 n) = ds at hdigits hpad hval
    have hle : ds.length ≤ 9 := by
      have := congrArg length hpad
      rw [length_append] at this
      omega
    have htake : (ds ++ c :: b).takeWhile isDigit = ds := by
      rw [takeWhile_append_of_pos hdigits, takeWhile_cons_of_neg (by simp [hc]), append_nil]
    have hdrop : (ds ++ c :: b).dropWhile isDigit = c :: b := by
      rw [dropWhile_append_of_pos hdigits, dropWhile_cons_of_neg (by simp [hc])]
    have hne : ds ≠ [] := by
      rintro rfl
      exact h (hval.trans (by simp [decimalValue]))
    rw [cons_append, parseNanos]
    simp only [htake, hdrop, hne, if_false, take_of_length_le hle]
    rw [← hval]

theorem parseOffset_cons {x : UInt8} (hx : x = 43 ∨ x = 45) {h m : ℕ} (hh : h ≤ 24) (hm : m ≤ 60) :
    parseOffset (x :: (padded 2 h ++ 58 :: padded 2 m)) =
      some (if x = 45 then -((h * 60 + m : ℕ) : ℤ) else ((h * 60 + m : ℕ) : ℤ)) := by
  have hlast : takeDigits 2 (padded 2 m) = some (m, []) := by
    have := takeDigits_padded (k := 2) (n := m) (by decide) (by omega) []
    rwa [append_nil] at this
  have hfirst := takeDigits_padded (k := 2) (n := h) (by decide) (by omega) (58 :: padded 2 m)
  rw [parseOffset, if_pos hx]
  · simp only [hfirst, Option.bind_some, expect_cons, hlast, hh, hm, and_self, if_true]
  · rintro rfl
    exact absurd hx (by decide)

theorem parseOffset_formatOffset {o : ℤ} (h : o.natAbs < 1440) :
    parseOffset (formatOffset o) = some o := by
  have hsum : o.natAbs / 60 * 60 + o.natAbs % 60 = o.natAbs := Nat.div_add_mod' ..
  unfold formatOffset
  split_ifs with h₀
  · rw [h₀]
    rfl
  · rw [parseOffset_cons (.inr rfl) (by omega) (by omega), if_pos rfl]
    congr 1
    omega
  · rw [parseOffset_cons (.inl rfl) (by omega) (by omega), if_neg (by decide)]
    congr 1
    omega

theorem formatOffset_eq_cons (o : ℤ) :
    ∃ c b, formatOffset o = c :: b ∧ isDigit c = false ∧ c ≠ 46 ∧ c ≠ 44 := by
  unfold formatOffset
  split_ifs
  all_goals exact ⟨_, _, rfl, by decide, by decide, by decide⟩

/-- **A time that marshals is read back as it was.** -/
theorem Time.parse_format {t : Time} (ht : t.Marshals) : Time.parse t.format = some t := by
  obtain ⟨hy, ⟨-, hmo⟩, ⟨-, hd⟩, hh, hmi, hs, hn, -⟩ := t.inRange
  have hday : t.day < 10 ^ 2 := by
    have : daysIn t.year t.month ≤ 31 := by
      unfold daysIn
      split_ifs <;> decide
    omega
  obtain ⟨c, b, hcb, hc, hdot⟩ := formatOffset_eq_cons t.offset
  have hnanos : parseNanos (formatNanos t.nanos ++ formatOffset t.offset) =
      some (t.nanos, formatOffset t.offset) := by
    rw [hcb, parseNanos_formatNanos hn hc hdot]
  have htwo {n : ℕ} (h : n < 10 ^ 2) (b : Bytes) : takeDigits 2 (padded 2 n ++ b) = some (n, b) :=
    takeDigits_padded (by omega) h b
  have hyear (b : Bytes) : takeDigits 4 (padded 4 t.year ++ b) = some (t.year, b) :=
    takeDigits_padded (by omega) (by omega) b
  have hmonth : t.month < 10 ^ 2 := by omega
  have hhour (b : Bytes) : takeHour (padded 2 t.hour ++ b) = some (t.hour, b) := by
    rw [takeHour, htwo (by omega), Option.some_or]
  have hminute : t.minute < 10 ^ 2 := by omega
  have hsecond : t.second < 10 ^ 2 := by omega
  unfold Time.parse Time.format
  simp only [hyear, htwo hmonth, htwo hday, hhour, htwo hminute, htwo hsecond,
    Option.bind_some, expect_cons, hnanos, parseOffset_formatOffset ht]
  rw [dif_pos t.inRange]

theorem mem_format {t : Time} {x : UInt8} (h : x ∈ t.format) :
    isDigit x = true ∨ x ∈ ([43, 45, 46, 58, 84, 90] : Bytes) := by
  have hpad {k n : ℕ} (h : x ∈ padded k n) : isDigit x = true := isDigit_of_mem_padded h
  have hnanos (h : x ∈ formatNanos t.nanos) :
      isDigit x = true ∨ x ∈ ([43, 45, 46, 58, 84, 90] : Bytes) := by
    unfold formatNanos at h
    split_ifs at h
    · cases h
    · rcases mem_cons.1 h with rfl | h
      · exact .inr (by decide)
      · exact .inl (hpad (mem_of_mem_trimZeros h))
  have hoffset (h : x ∈ formatOffset t.offset) :
      isDigit x = true ∨ x ∈ ([43, 45, 46, 58, 84, 90] : Bytes) := by
    unfold formatOffset at h
    split_ifs at h <;> simp only [mem_cons, mem_append, not_mem_nil] at h
    · exact .inr (by simp [h])
    · rcases h with h | h | h | h
      · exact .inr (by simp [h])
      · exact .inl (hpad h)
      · exact .inr (by simp [h])
      · exact .inl (hpad h)
    · rcases h with h | h | h | h
      · exact .inr (by simp [h])
      · exact .inl (hpad h)
      · exact .inr (by simp [h])
      · exact .inl (hpad h)
  simp only [Time.format, mem_append, mem_cons] at h
  rcases h with h | h | h | h | h | h | h | h | h | h | h | h | h
  all_goals first
    | exact .inl (hpad h)
    | exact hnanos h
    | exact hoffset h
    | exact .inr (by simp [h])

end K8s4Claw.Lib
