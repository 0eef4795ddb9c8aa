/-
# The order of times and of their texts

A time stands for an instant, `Time.instant`, in nanoseconds from the start of year 0.  The
layout `RFC3339Nano` has fields of fixed width down to the second, then the fraction without
its trailing zeros, then `Z` for UTC.

Down to the second the order of the texts is the order of the instants (`clockText_lt_iff`).
Within a second it is not: `Z` sorts after `.` and after every digit, so a text whose fraction
begins that of another one sorts after it.  `Time.format_lt_iff`: among times in UTC, that is
the only way in which an earlier time has the later text.
-/

import K8s4Claw.Lib.Json.Text
import K8s4Claw.Lib.Rfc3339
import Mathlib.Data.String.Basic
import Mathlib.Tactic.Ring

namespace K8s4Claw.Lib

open List

/-! ### Numbers made of two parts -/

/-- The order of the numbers `f a + b`, where `b` stays below the distance from `f a` to the next
value of `f`. -/
theorem add_lt_add_iff_of_monotone {f : ℕ → ℕ} (hf : Monotone f) {a a' b b' : ℕ}
    (hb : f a + b < f (a + 1)) (hb' : f a' + b' < f (a' + 1)) :
    f a + b < f a' + b' ↔ a < a' ∨ a = a' ∧ b < b' := by
  rcases lt_trichotomy a a' with h | rfl | h
  · have hle : f (a + 1) ≤ f a' := hf h
    omega
  · simp only [true_and]
    omega
  · have hle : f (a' + 1) ≤ f a := hf h
    have hne : ¬ a < a' := by omega
    have hne' : a ≠ a' := by omega
    omega

variable {n : ℕ} {b : Bytes}

/-- The order of numbers written with a last digit in base `n`. -/
theorem mul_add_lt_mul_add_iff {a a' b b' : ℕ} (hb : b < n) (hb' : b' < n) :
    a * n + b < a' * n + b' ↔ a < a' ∨ a = a' ∧ b < b' := by
  have hmono : Monotone fun a => a * n := fun _ _ h => Nat.mul_le_mul_right n h
  refine add_lt_add_iff_of_monotone hmono ?_ ?_
  · simp only [Nat.add_mul]
    omega
  · simp only [Nat.add_mul]
    omega

theorem mul_add_eq_mul_add_iff {a a' b b' : ℕ} (hb : b < n) (hb' : b' < n) :
    a * n + b = a' * n + b' ↔ a = a' ∧ b = b' := by
  have h₁ : a * n + b < a' * n + b' ↔ a < a' ∨ a = a' ∧ b < b' := mul_add_lt_mul_add_iff hb hb'
  have h₂ : a' * n + b' < a * n + b ↔ a' < a ∨ a' = a ∧ b' < b := mul_add_lt_mul_add_iff hb' hb
  constructor
  · intro h
    omega
  · rintro ⟨rfl, rfl⟩
    rfl

/-! ### Texts of equal length -/

theorem append_lt_append_iff {a : Bytes} (h : a.length = b.length) (x y : Bytes) :
    a ++ x < b ++ y ↔ a < b ∨ a = b ∧ x < y := by
  induction a generalizing b with
  | nil =>
    obtain rfl : b = [] := length_eq_zero_iff.mp h.symm
    simp
  | cons c a ih =>
    cases b with
    | nil => simp at h
    | cons d b =>
      have hlen : a.length = b.length := by simpa using h
      simp only [cons_append, cons_lt_cons_iff, ih hlen, cons.injEq, and_or_left,
        or_assoc, and_assoc]

theorem decimalValue_cons (c : UInt8) (b : Bytes) :
    decimalValue (c :: b) = (c.toNat - 48) * 10 ^ b.length + decimalValue b := by
  have hfold (n : ℕ) : b.foldl (fun n x => 10 * n + (x.toNat - 48)) n =
      n * 10 ^ b.length + decimalValue b := by
    unfold decimalValue
    induction b generalizing n with
    | nil => simp
    | cons d b ih =>
      rw [foldl_cons, foldl_cons, ih, ih (10 * 0 + _), length_cons]
      ring
  rw [decimalValue, foldl_cons, hfold]
  simp

theorem decimalValue_lt (h : ∀ x ∈ b, isDigit x = true) : decimalValue b < 10 ^ b.length := by
  induction b with
  | nil => decide
  | cons c b ih =>
    obtain ⟨hc, hb⟩ := forall_mem_cons.mp h
    have hc := toNat_of_isDigit hc
    have hlt := ih hb
    have hle : (c.toNat - 48) * 10 ^ b.length ≤ 9 * 10 ^ b.length :=
      Nat.mul_le_mul_right _ (by omega)
    rw [decimalValue_cons, length_cons]
    omega

/-- **Digits of the same length are ordered as their numbers.** -/
theorem digits_lt_iff {a : Bytes} (hlen : a.length = b.length) (ha : ∀ x ∈ a, isDigit x = true)
    (hb : ∀ x ∈ b, isDigit x = true) : a < b ↔ decimalValue a < decimalValue b := by
  induction a generalizing b with
  | nil =>
    obtain rfl : b = [] := length_eq_zero_iff.mp hlen.symm
    simp
  | cons c a ih =>
    cases b with
    | nil => simp at hlen
    | cons d b =>
      have hlen : a.length = b.length := by simpa using hlen
      obtain ⟨hc, ha⟩ := forall_mem_cons.mp ha
      obtain ⟨hd, hb⟩ := forall_mem_cons.mp hb
      have hc := toNat_of_isDigit hc
      have hd := toNat_of_isDigit hd
      have hbound : decimalValue a < 10 ^ b.length := hlen ▸ decimalValue_lt ha
      have hlt : c < d ↔ c.toNat - 48 < d.toNat - 48 := by
        rw [UInt8.lt_iff_toNat_lt]
        omega
      have heq : c = d ↔ c.toNat - 48 = d.toNat - 48 := by
        rw [← UInt8.toNat_inj]
        omega
      rw [cons_lt_cons_iff, ih hlen ha hb, decimalValue_cons, decimalValue_cons, hlen,
        mul_add_lt_mul_add_iff hbound (decimalValue_lt hb), hlt, heq]

theorem padded_append_lt_iff {k m : ℕ} (hk : 0 < k) (hm : m < 10 ^ k) (hn : n < 10 ^ k)
    (x y : Bytes) : padded k m ++ x < padded k n ++ y ↔ m < n ∨ m = n ∧ x < y := by
  have hlen : (padded k m).length = (padded k n).length := by
    rw [length_padded hk hm, length_padded hk hn]
  have heq : padded k m = padded k n ↔ m = n := by
    constructor
    · intro h
      rw [← decimalValue_padded k m, h, decimalValue_padded]
    · rintro rfl
      rfl
  rw [append_lt_append_iff hlen, heq, digits_lt_iff hlen (fun _ => isDigit_of_mem_padded)
    (fun _ => isDigit_of_mem_padded), decimalValue_padded, decimalValue_padded]

/-! ### Instants -/

/-- The days of a year before a month. -/
def daysBeforeMonth (year month : ℕ) : ℕ :=
  ((List.range (month - 1)).map fun i => daysIn year (i + 1)).sum

/-- The days from the start of year 0 to the start of a year. -/
def daysBeforeYear (year : ℕ) : ℕ :=
  365 * year + (year + 3) / 4 + (year + 399) / 400 - (year + 99) / 100

theorem daysBeforeMonth_succ (year : ℕ) {month : ℕ} (h : 1 ≤ month) :
    daysBeforeMonth year (month + 1) = daysBeforeMonth year month + daysIn year month := by
  obtain ⟨k, rfl⟩ := Nat.exists_eq_add_of_le' h
  simp [daysBeforeMonth, range_succ]

theorem monotone_daysBeforeMonth (year : ℕ) : Monotone (daysBeforeMonth year) := by
  refine monotone_nat_of_le_succ fun month => ?_
  cases month with
  | zero => simp [daysBeforeMonth]
  | succ month =>
    rw [daysBeforeMonth_succ year month.succ_pos]
    exact Nat.le_add_right ..

theorem daysBeforeMonth_thirteen (year : ℕ) :
    daysBeforeMonth year 13 = 337 + daysIn year 2 := by
  have hrange : range 12 = [0, 1, 2, 3, 4, 5, 6, 7, 8, 9, 10, 11] := rfl
  have hdays {month : ℕ} (h : month ≠ 2) : daysIn year month =
      if month = 4 ∨ month = 6 ∨ month = 9 ∨ month = 11 then 30 else 31 := if_neg h
  simp only [daysBeforeMonth, hrange, map_cons, map_nil, sum_cons, sum_nil, Nat.reduceAdd]
  simp (disch := decide) only [hdays, if_neg, if_pos]
  omega

/-- A year has the days of its twelve months. -/
theorem daysBeforeYear_succ (year : ℕ) :
    daysBeforeYear (year + 1) = daysBeforeYear year + daysBeforeMonth year 13 := by
  have h₄ : (year + 1 + 3) / 4 = (year + 3) / 4 + if year % 4 = 0 then 1 else 0 := by
    split_ifs <;> omega
  have h₁₀₀ : (year + 1 + 99) / 100 = (year + 99) / 100 + if year % 100 = 0 then 1 else 0 := by
    split_ifs <;> omega
  have h₄₀₀ : (year + 1 + 399) / 400 = (year + 399) / 400 + if year % 400 = 0 then 1 else 0 := by
    split_ifs <;> omega
  have hle : (year + 99) / 100 ≤ year := by omega
  have hcentury : year % 400 = 0 → year % 100 = 0 := by omega
  have hfour : year % 100 = 0 → year % 4 = 0 := by omega
  have hfebruary : daysIn year 2 =
      if year % 4 = 0 ∧ (year % 100 ≠ 0 ∨ year % 400 = 0) then 29 else 28 := if_pos rfl
  rw [daysBeforeMonth_thirteen, hfebruary, daysBeforeYear, daysBeforeYear, h₄, h₁₀₀, h₄₀₀]
  by_cases hc : year % 400 = 0
  · simp only [hc, hfour (hcentury hc), if_true, or_true, and_self]
    omega
  · by_cases hb : year % 100 = 0
    · simp only [hb, hc, if_true, if_false, not_true, or_self, and_false, ne_eq]
      omega
    · simp only [ne_eq]
      split_ifs <;> omega

theorem monotone_daysBeforeYear : Monotone daysBeforeYear :=
  monotone_nat_of_le_succ fun year => by
    rw [daysBeforeYear_succ]
    exact Nat.le_add_right _ _

namespace Time

def days (t : Time) : ℕ :=
  daysBeforeYear t.year + (daysBeforeMonth t.year t.month + (t.day - 1))

/-- The seconds before a time by its own clock. -/
def seconds (t : Time) : ℕ := ((t.days * 24 + t.hour) * 60 + t.minute) * 60 + t.second

/-- The instant a time stands for, in nanoseconds from the start of year 0 in UTC. -/
def instant (t : Time) : ℤ :=
  t.seconds * 10 ^ 9 + t.nanos - t.offset * (60 * 10 ^ 9)

theorem days_lt_days_iff (t u : Time) :
    t.days < u.days ↔ t.year < u.year ∨ t.year = u.year ∧
      (t.month < u.month ∨ t.month = u.month ∧ t.day < u.day) := by
  -- a day of a month comes before the next month, and so before the next year
  have hmonth (t : Time) : daysBeforeMonth t.year t.month + (t.day - 1) <
      daysBeforeMonth t.year (t.month + 1) := by
    obtain ⟨-, ⟨hm, -⟩, ⟨hd, hd'⟩, -⟩ := t.inRange
    rw [daysBeforeMonth_succ _ hm]
    omega
  have hyear (t : Time) : daysBeforeYear t.year +
      (daysBeforeMonth t.year t.month + (t.day - 1)) < daysBeforeYear (t.year + 1) := by
    obtain ⟨-, ⟨-, hm⟩, -⟩ := t.inRange
    have hle : daysBeforeMonth t.year (t.month + 1) ≤ daysBeforeMonth t.year 13 :=
      monotone_daysBeforeMonth t.year (by omega)
    have := hmonth t
    rw [daysBeforeYear_succ]
    omega
  have hday : t.day - 1 < u.day - 1 ↔ t.day < u.day := by
    obtain ⟨-, -, ⟨ht, -⟩, -⟩ := t.inRange
    omega
  rw [days, days, add_lt_add_iff_of_monotone monotone_daysBeforeYear (hyear t) (hyear u)]
  refine or_congr_right (and_congr_right fun h => ?_)
  have hu := hmonth u
  rw [← h] at hu ⊢
  rw [add_lt_add_iff_of_monotone (monotone_daysBeforeMonth t.year) (hmonth t) hu, hday]

theorem days_eq_days_iff (t u : Time) :
    t.days = u.days ↔ t.year = u.year ∧ t.month = u.month ∧ t.day = u.day := by
  have h₁ := days_lt_days_iff t u
  have h₂ := days_lt_days_iff u t
  constructor
  · intro h
    omega
  · rintro ⟨hy, hm, hd⟩
    rw [days, days, hy, hm, hd]

theorem seconds_lt_seconds_iff (t u : Time) :
    t.seconds < u.seconds ↔ t.days < u.days ∨ t.days = u.days ∧ (t.hour < u.hour ∨
      t.hour = u.hour ∧ (t.minute < u.minute ∨ t.minute = u.minute ∧ t.second < u.second)) := by
  obtain ⟨-, -, -, hh, hmi, hs, -⟩ := t.inRange
  obtain ⟨-, -, -, hh', hmi', hs', -⟩ := u.inRange
  rw [seconds, seconds, mul_add_lt_mul_add_iff hs hs', mul_add_lt_mul_add_iff hmi hmi',
    mul_add_lt_mul_add_iff hh hh', mul_add_eq_mul_add_iff hmi hmi',
    mul_add_eq_mul_add_iff hh hh']
  simp only [and_or_left, or_assoc, and_assoc]

theorem seconds_eq_seconds_iff (t u : Time) :
    t.seconds = u.seconds ↔
      t.days = u.days ∧ t.hour = u.hour ∧ t.minute = u.minute ∧ t.second = u.second := by
  obtain ⟨-, -, -, hh, hmi, hs, -⟩ := t.inRange
  obtain ⟨-, -, -, hh', hmi', hs', -⟩ := u.inRange
  rw [seconds, seconds, mul_add_eq_mul_add_iff hs hs', mul_add_eq_mul_add_iff hmi hmi',
    mul_add_eq_mul_add_iff hh hh', and_assoc, and_assoc]

/-! ### The text down to the second -/

/-- The text of a time down to the second. -/
def clockText (t : Time) : Bytes :=
  padded 4 t.year ++ 45 :: (padded 2 t.month ++ 45 :: (padded 2 t.day ++ 84 ::
    (padded 2 t.hour ++ 58 :: (padded 2 t.minute ++ 58 :: (padded 2 t.second ++ [])))))

theorem format_eq_append (t : Time) :
    t.format = t.clockText ++ (formatNanos t.nanos ++ formatOffset t.offset) := by
  simp [format, clockText]

theorem lt_of_inRange (t : Time) : t.year < 10 ^ 4 ∧ t.month < 10 ^ 2 ∧ t.day < 10 ^ 2 ∧
    t.hour < 10 ^ 2 ∧ t.minute < 10 ^ 2 ∧ t.second < 10 ^ 2 := by
  obtain ⟨hy, ⟨-, hmo⟩, ⟨-, hd⟩, hh, hmi, hs, -⟩ := t.inRange
  have hdays : daysIn t.year t.month ≤ 31 := by
    unfold daysIn
    split_ifs <;> decide
  omega

theorem length_clockText (t : Time) : t.clockText.length = 19 := by
  obtain ⟨hy, hmo, hd, hh, hmi, hs⟩ := t.lt_of_inRange
  simp only [clockText, length_append, length_cons, length_nil,
    length_padded (by decide : 0 < 4) hy, length_padded (by decide : 0 < 2) hmo,
    length_padded (by decide : 0 < 2) hd, length_padded (by decide : 0 < 2) hh,
    length_padded (by decide : 0 < 2) hmi, length_padded (by decide : 0 < 2) hs]

/-- **Down to the second, texts are ordered as times.** -/
theorem clockText_lt_iff (t u : Time) : t.clockText < u.clockText ↔ t.seconds < u.seconds := by
  obtain ⟨hy, hmo, hd, hh, hmi, hs⟩ := t.lt_of_inRange
  obtain ⟨hy', hmo', hd', hh', hmi', hs'⟩ := u.lt_of_inRange
  rw [clockText, clockText, padded_append_lt_iff (by decide) hy hy', cons_lt_cons_self,
    padded_append_lt_iff (by decide) hmo hmo', cons_lt_cons_self,
    padded_append_lt_iff (by decide) hd hd', cons_lt_cons_self,
    padded_append_lt_iff (by decide) hh hh', cons_lt_cons_self,
    padded_append_lt_iff (by decide) hmi hmi', cons_lt_cons_self,
    padded_append_lt_iff (by decide) hs hs', seconds_lt_seconds_iff, days_lt_days_iff,
    days_eq_days_iff]
  have hnil : ¬ ([] : Bytes) < [] := List.lt_irrefl []
  simp only [hnil, and_false, or_false, and_or_left, or_assoc, and_assoc]

theorem clockText_of_seconds_eq {t u : Time} (h : t.seconds = u.seconds) :
    t.clockText = u.clockText := by
  obtain ⟨hdays, hh, hmi, hs⟩ := (seconds_eq_seconds_iff t u).mp h
  obtain ⟨hy, hmo, hd⟩ := (days_eq_days_iff t u).mp hdays
  rw [clockText, clockText, hy, hmo, hd, hh, hmi, hs]

/-! ### The text of the fraction -/

end Time

/-- The digits of a fraction of a second. -/
def fraction (n : ℕ) : Bytes := trimZeros (padded 9 n)

theorem formatNanos_of_ne_zero (h : n ≠ 0) : formatNanos n = 46 :: fraction n :=
  if_neg h

theorem isDigit_of_mem_fraction {x : UInt8} (h : x ∈ fraction n) : isDigit x = true :=
  isDigit_of_mem_padded (mem_of_mem_trimZeros h)

theorem not_lt_replicate (h : ∀ x ∈ b, isDigit x = true) {k : ℕ} (hk : b.length = k) :
    ¬ b < List.replicate k 48 := by
  have hzero : decimalValue (replicate k 48) = 0 := foldl_replicate_zero k
  have hdigits : ∀ x ∈ replicate k (48 : UInt8), isDigit x = true := by
    intro x hx
    rw [eq_of_mem_replicate hx]
    rfl
  rw [digits_lt_iff (by simpa using hk) h hdigits, hzero]
  exact Nat.not_lt_zero _

/-- **Digits that end with a byte above all digits.**  Let `a` stand for less than `b` when both
are filled up with zeros to one length.  With `c` after each, `a` comes first unless `b` begins
with `a`. -/
theorem append_cons_lt_iff {a : Bytes} (ha : ∀ x ∈ a, isDigit x = true)
    (hb : ∀ x ∈ b, isDigit x = true) {i j : ℕ} (hlen : a.length + i = b.length + j)
    (h : a ++ List.replicate i 48 < b ++ List.replicate j 48) {c : UInt8} (hc : 57 < c.toNat) :
    a ++ [c] < b ++ [c] ↔ ¬ a <+: b := by
  induction a generalizing b with
  | nil =>
    cases b with
    | nil =>
      obtain rfl : i = j := by simpa using hlen
      exact absurd h (List.lt_irrefl _)
    | cons d =>
      have hd := toNat_of_isDigit (hb d (by simp))
      have hlt : ¬ c < d := by
        rw [UInt8.lt_iff_toNat_lt]
        omega
      have hne : c ≠ d := by
        rintro rfl
        omega
      simp [cons_lt_cons_iff, hlt, hne]
  | cons e a ih =>
    cases b with
    | nil =>
      have hzeros : (e :: a ++ replicate i 48).length = j := by
        simpa only [length_append, length_replicate, length_nil, zero_add]
          using hlen
      refine absurd h (not_lt_replicate (fun x hx => ?_) hzeros)
      rcases mem_append.mp hx with hx | hx
      · exact ha x hx
      · rw [eq_of_mem_replicate hx]
        rfl
    | cons d b =>
      have ha' := (forall_mem_cons.mp ha).2
      have hb' := (forall_mem_cons.mp hb).2
      have hlen' : a.length + i = b.length + j := by
        simp only [length_cons] at hlen
        omega
      simp only [cons_append, cons_lt_cons_iff, cons_prefix_cons] at h ⊢
      rcases h with h | ⟨rfl, h⟩
      · have hne : e ≠ d := by
          rintro rfl
          exact UInt8.lt_irrefl _ h
        simp [h, hne]
      · simp only [UInt8.lt_irrefl, true_and, false_or]
        exact ih ha' hb' hlen' h

theorem formatNanos_lt_iff {m : ℕ} (hn : n < 10 ^ 9) (h : m < n) :
    formatNanos m ++ [90] < formatNanos n ++ [90] ↔ ¬ fraction m <+: fraction n := by
  rw [formatNanos_of_ne_zero (Nat.ne_zero_of_lt h)]
  by_cases hm : m = 0
  · subst hm
    have hnil : fraction 0 = [] := by decide
    simp [formatNanos, hnil, cons_lt_cons_iff]
  · have hlen : (padded 9 m).length = 9 := length_padded (by decide) (h.trans hn)
    have hlen' : (padded 9 n).length = 9 := length_padded (by decide) hn
    have hlt : padded 9 m < padded 9 n := by
      rw [digits_lt_iff (hlen.trans hlen'.symm) (fun _ => isDigit_of_mem_padded)
        (fun _ => isDigit_of_mem_padded), decimalValue_padded, decimalValue_padded]
      exact h
    have hm' := trimZeros_append (padded 9 m)
    have hn' := trimZeros_append (padded 9 n)
    rw [hm', hn'] at hlt
    rw [formatNanos_of_ne_zero hm, cons_append, cons_append, cons_lt_cons_self]
    refine append_cons_lt_iff (fun _ => isDigit_of_mem_fraction)
      (fun _ => isDigit_of_mem_fraction) ?_ hlt (by decide)
    have hsum := congrArg length hm'
    have hsum' := congrArg length hn'
    rw [length_append] at hsum hsum'
    rw [fraction, fraction]
    omega

/-! ### The texts of times in UTC -/

namespace Time

/-- `u` is in the same second as `t`, and its fraction begins with that of `t`. -/
def ExtendedBy (t u : Time) : Prop := t.seconds = u.seconds ∧ fraction t.nanos <+: fraction u.nanos
  deriving Decidable

/-- **The texts of two times in UTC are ordered as the times, unless the fraction of the later
one extends that of the earlier one.** -/
theorem format_lt_iff {t u : Time} (ht : t.offset = 0) (hu : u.offset = 0)
    (h : t.instant < u.instant) : t.format < u.format ↔ ¬ t.ExtendedBy u := by
  obtain ⟨-, -, -, -, -, -, hnu, -⟩ := u.inRange
  have hlen : t.clockText.length = u.clockText.length := by
    rw [length_clockText, length_clockText]
  rw [format_eq_append, format_eq_append, append_lt_append_iff hlen, clockText_lt_iff, ht, hu]
  simp only [instant] at h
  rcases Nat.lt_or_ge t.seconds u.seconds with hs | hs
  · have hne : ¬ t.ExtendedBy u := fun he => by
      have := he.1
      omega
    simp [hs, hne]
  · obtain ⟨hseq, hn⟩ : t.seconds = u.seconds ∧ t.nanos < u.nanos := by omega
    simp only [hseq, lt_irrefl, clockText_of_seconds_eq hseq, true_and, false_or, ExtendedBy]
    exact formatNanos_lt_iff hnu hn

/-- The character of an ASCII byte. -/
def charOf (b : UInt8) : Char := Char.ofNat b.toNat

def text (t : Time) : String := String.ofList (t.format.map charOf)

/-- Read a time from a string. -/
def ofText (s : String) : Option Time := parse (s.toList.flatMap String.utf8EncodeChar)

theorem toNat_charOf (b : UInt8) : (charOf b).toNat = b.toNat :=
  Json.toNat_ofNat_of_lt b.toNat_lt

theorem charOf_lt_iff (x y : UInt8) : charOf x < charOf y ↔ x < y := by
  rw [UInt8.lt_iff_toNat_lt, ← toNat_charOf x, ← toNat_charOf y]
  exact Iff.rfl

theorem charOf_eq_iff (x y : UInt8) : charOf x = charOf y ↔ x = y := by
  constructor
  · intro h
    rw [← UInt8.toNat_inj, ← toNat_charOf, h, toNat_charOf]
  · rintro rfl
    rfl

theorem map_charOf_lt_iff (a b : Bytes) : a.map charOf < b.map charOf ↔ a < b := by
  induction a generalizing b with
  | nil => cases b <;> simp
  | cons x a ih =>
    cases b with
    | nil => simp
    | cons =>
      rw [map_cons, map_cons, cons_lt_cons_iff, cons_lt_cons_iff, ih, charOf_lt_iff, charOf_eq_iff]

theorem toNat_of_mem_format {t : Time} {x : UInt8} (h : x ∈ t.format) : x.toNat ≤ 127 := by
  rcases mem_format h with h | h
  · have := toNat_of_isDigit h
    omega
  · simp only [mem_cons, not_mem_nil, or_false] at h
    rcases h with rfl | rfl | rfl | rfl | rfl | rfl <;> decide

theorem ofText_text {t : Time} (ht : t.Marshals) : ofText t.text = some t := by
  have hbytes {b : Bytes} (h : ∀ x ∈ b, x.toNat ≤ 127) :
      (b.map charOf).flatMap String.utf8EncodeChar = b := by
    induction b with
    | nil => rfl
    | cons x b ih =>
      obtain ⟨hx, hb⟩ := forall_mem_cons.mp h
      have hchar : (charOf x).toNat ≤ 127 := by rwa [toNat_charOf]
      rw [map_cons, flatMap_cons, ih hb, Json.utf8EncodeChar_of_le hchar,
        toNat_charOf, UInt8.ofNat_toNat, singleton_append]
  rw [ofText, text, String.toList_ofList, hbytes fun _ => toNat_of_mem_format,
    parse_format ht]

theorem text_lt_iff (t u : Time) : t.text < u.text ↔ t.format < u.format := by
  rw [String.lt_iff, text, text, String.toList_ofList, String.toList_ofList, map_charOf_lt_iff]

end Time

/-- A time in UTC. -/
structure Utc extends Time where
  utc : offset = 0
  deriving DecidableEq

theorem Utc.marshals (t : Utc) : t.Marshals := by
  rw [Time.Marshals, t.utc]
  decide

theorem Utc.text_injective : Function.Injective fun t : Utc => t.text := by
  intro t u h
  have hparse := congrArg Time.ofText h
  rw [Time.ofText_text t.marshals, Time.ofText_text u.marshals] at hparse
  obtain ⟨t, ht⟩ := t
  obtain ⟨u, hu⟩ := u
  cases Option.some.inj hparse
  rfl

/-- **The string of the earlier of two times in UTC comes first, unless the fraction of the later
one extends that of the earlier one.** -/
theorem Utc.text_lt_iff {t u : Utc} (h : t.instant < u.instant) :
    t.text < u.text ↔ ¬ t.ExtendedBy u.toTime := by
  rw [Time.text_lt_iff, Time.format_lt_iff t.utc u.utc h]

end K8s4Claw.Lib
