/-
# JSON values and their compact text

A JSON value in the form Go's `encoding/json` writes it: no white space between
tokens, and in strings `<`, `>`, `&`, U+2028 and U+2029 as `\u` escapes.  A number
is kept as its text.  A string is kept as the bytes between its quotes, which may
hold any other escape; `Body` carries the proof that they are well formed and in
escaped form (`escapeHTML`).

`escapeHTML` keeps a body well formed (`bodyRun_escapeHTML`) and does nothing the
second time (`escapeHTML_idem`).  Every byte of a text is at least 0x20
(`le_of_mem_print`), so a text is one line.
-/

import K8s4Claw.Lib.Decimal

namespace K8s4Claw.Lib.Json

open List

def isHex (c : UInt8) : Bool := isDigit c || (97 ≤ c && c ≤ 102) || (65 ≤ c && c ≤ 70)

/-- The bytes of numbers and of `null`, `true` and `false`. -/
def isToken (c : UInt8) : Bool :=
  isDigit c || (97 ≤ c && c ≤ 122) || (65 ≤ c && c ≤ 90) || c = 43 || c = 45 || c = 46

/-! ### Numbers -/

/-- How far a number has been read. -/
inductive NumPos where
  | start | minus | zero | int | dot | frac | exp | expSign | expDigits
  deriving DecidableEq

/-- One more byte of a number. -/
def NumPos.step : NumPos → UInt8 → Option NumPos
  | .start, c => if c = 45 then some .minus else if c = 48 then some .zero
      else if isDigit c then some .int else none
  | .minus, c => if c = 48 then some .zero else if isDigit c then some .int else none
  | .zero, c => if c = 46 then some .dot else if c = 101 ∨ c = 69 then some .exp else none
  | .int, c => if isDigit c then some .int else if c = 46 then some .dot
      else if c = 101 ∨ c = 69 then some .exp else none
  | .dot, c => if isDigit c then some .frac else none
  | .frac, c => if isDigit c then some .frac else if c = 101 ∨ c = 69 then some .exp else none
  | .exp, c => if c = 43 ∨ c = 45 then some .expSign else if isDigit c then some .expDigits
      else none
  | .expSign, c => if isDigit c then some .expDigits else none
  | .expDigits, c => if isDigit c then some .expDigits else none

/-- A number may end here. -/
def NumPos.accepts : NumPos → Bool
  | .zero | .int | .frac | .expDigits => true
  | _ => false

/-- The text is a JSON number. -/
def validNumber (l : Bytes) : Bool :=
  match l.foldlM NumPos.step .start with
  | some p => p.accepts
  | none => false

variable {c : UInt8} {p q : BodyPos}

theorem isToken_of_isDigit (h : isDigit c = true) : isToken c = true := by
  simp [isToken, h]

theorem NumPos.isToken_of_step {p q : NumPos} (h : p.step c = some q) : isToken c = true := by
  cases p <;> simp only [NumPos.step] at h <;> split_ifs at h <;>
    first | exact isToken_of_isDigit ‹_› | (rcases ‹_ ∨ _› with rfl | rfl <;> rfl) | (subst c; rfl)

theorem toNat_of_isToken (h : isToken c = true) : 43 ≤ c.toNat ∧ c.toNat ≤ 122 := by
  simp only [isToken, isDigit, Bool.or_eq_true, Bool.and_eq_true, decide_eq_true_eq,
    UInt8.le_iff_toNat_le, ← UInt8.toNat_inj, UInt8.reduceToNat] at h
  omega

/-- The text of a number. -/
structure Number where
  text : Bytes
  valid : validNumber text = true
  deriving DecidableEq

theorem foldlM_decimal {p : NumPos} (hp : p = .start ∨ p = .minus) {n : ℕ} (hn : 0 < n) :
    (decimal n).foldlM NumPos.step p = some .int := by
  induction n using Nat.strong_induction_on with
  | _ n ih =>
    by_cases hlt : n < 10
    · have hone : ∀ n < 10, 0 < n → (decimal n).foldlM NumPos.step .start = some .int ∧
          (decimal n).foldlM NumPos.step .minus = some .int := by decide
      rcases hp with rfl | rfl
      · exact (hone n hlt hn).1
      · exact (hone n hlt hn).2
    · have hdig : decimal n = decimal (n / 10) ++ [UInt8.ofNat (n % 10).digitChar.toNat] := by
        rw [decimal, Nat.toDigits_of_base_le (by decide) (by omega), map_append]
        rfl
      have hlast : isDigit (UInt8.ofNat (n % 10).digitChar.toNat) = true := by
        refine isDigit_of_mem_decimal (n := n) ?_
        simp [hdig]
      rw [hdig, foldlM_append, ih (n / 10) (by omega) (by omega)]
      simp [NumPos.step, hlast]

theorem validNumber_intText (n : ℤ) : validNumber (intText n) = true := by
  unfold validNumber intText
  split_ifs
  · rw [foldlM_cons, show NumPos.start.step 45 = some .minus from rfl]
    simp [foldlM_decimal (.inr rfl) (show 0 < n.natAbs by omega), NumPos.accepts]
  · rcases Nat.eq_zero_or_pos n.natAbs with h₀ | h₀
    · rw [h₀]
      rfl
    · rw [foldlM_decimal (.inl rfl) h₀]
      rfl

/-- An integer as a number. -/
def Number.ofInt (n : ℤ) : Number := ⟨intText n, validNumber_intText n⟩

/-! ### Strings -/

/-- Where a string body is: outside an escape, after a backslash, or before the last
`n + 1` digits of a `\u` escape. -/
inductive BodyPos where
  | plain
  | esc
  | hex (n : ℕ)
  deriving DecidableEq

/-- One more byte of a string body. -/
def BodyPos.step : BodyPos → UInt8 → Option BodyPos
  | .plain, c => if c = 92 then some .esc else if c < 32 ∨ c = 34 then none else some .plain
  | .esc, c => if c = 117 then some (.hex 3)
      else if c ∈ ([34, 92, 47, 98, 102, 110, 114, 116] : Bytes) then some .plain else none
  | .hex 0, c => if isHex c then some .plain else none
  | .hex (n + 1), c => if isHex c then some (.hex n) else none

/-- Read a string body. -/
def bodyRun (p : BodyPos) (b : Bytes) : Option BodyPos := b.foldlM BodyPos.step p

/-- The bytes can stand between two quotes. -/
def validBody (b : Bytes) : Bool := bodyRun .plain b = some .plain

def hexDigit (n : ℕ) : UInt8 := if n < 10 then UInt8.ofNat (48 + n) else UInt8.ofNat (87 + n)

/-- `\u00` and two hexadecimal digits. -/
def uEscape (n : ℕ) : Bytes := [92, 117, 48, 48, hexDigit (n / 16), hexDigit (n % 16)]

/-- A byte that is written as a `\u` escape, although JSON allows it in a string. -/
def isHTML (c : UInt8) : Bool := c = 60 || c = 62 || c = 38

/-- The first byte of a body and what is left, or all three bytes of U+2028 and
U+2029, in escaped form. -/
def escapeHTML : Bytes → Bytes
  | 226 :: 128 :: 168 :: b => [92, 117, 50, 48, 50, 56] ++ escapeHTML b
  | 226 :: 128 :: 169 :: b => [92, 117, 50, 48, 50, 57] ++ escapeHTML b
  | c :: b => if isHTML c then uEscape c.toNat ++ escapeHTML b else c :: escapeHTML b
  | [] => []

theorem bodyRun_cons (p : BodyPos) (c : UInt8) (b : Bytes) :
    bodyRun p (c :: b) = (p.step c).bind fun q => bodyRun q b := rfl

theorem bodyRun_append (p : BodyPos) (a b : Bytes) :
    bodyRun p (a ++ b) = (bodyRun p a).bind fun q => bodyRun q b :=
  foldlM_append

theorem toNat_of_isHex (h : isHex c = true) : 48 ≤ c.toNat ∧ c.toNat ≤ 102 := by
  simp only [isHex, isDigit, Bool.or_eq_true, Bool.and_eq_true, decide_eq_true_eq,
    UInt8.le_iff_toNat_le, UInt8.reduceToNat] at h
  omega

theorem eq_of_isHTML (h : isHTML c = true) : c = 60 ∨ c = 62 ∨ c = 38 := by
  simpa [isHTML, or_assoc] using h

theorem BodyPos.eq_plain_of_step (h : p.step c = some q) (hc : 117 < c ∨ isHTML c = true) :
    p = .plain := by
  have hhex : isHex c = false := by
    rcases hc with hc | hc
    · by_contra hne
      have hle := (toNat_of_isHex (by simpa using hne)).2
      simp only [UInt8.lt_iff_toNat_lt, UInt8.reduceToNat] at hc
      omega
    · rcases eq_of_isHTML hc with rfl | rfl | rfl <;> rfl
  cases p with
  | plain => rfl
  | esc =>
    simp only [BodyPos.step] at h
    split_ifs at h with h₁ h₂
    · subst h₁
      exact absurd hc (by decide)
    · simp only [mem_cons, not_mem_nil, or_false] at h₂
      rcases h₂ with rfl | rfl | rfl | rfl | rfl | rfl | rfl | rfl <;> exact absurd hc (by decide)
  | hex n => cases n <;> simp [BodyPos.step, hhex] at h

/-- `escapeHTML` does not change how a body is read. -/
theorem bodyRun_escapeHTML {b : Bytes} (h : bodyRun p b = some q) :
    bodyRun p (escapeHTML b) = some q := by
  induction b using escapeHTML.induct generalizing p with
  | case1 b ih | case2 b ih =>
    obtain ⟨r, hr, h⟩ := Option.bind_eq_some_iff.1 h
    obtain rfl := BodyPos.eq_plain_of_step hr (by decide)
    exact ih h
  | case3 c b h₁ h₂ hc ih =>
    obtain ⟨r, hr, h⟩ := Option.bind_eq_some_iff.1 h
    obtain rfl := BodyPos.eq_plain_of_step hr (.inr hc)
    rcases eq_of_isHTML hc with rfl | rfl | rfl <;> cases hr <;>
      exact ih h
  | case4 c b h₁ h₂ hc ih =>
    obtain ⟨r, hr, h⟩ := Option.bind_eq_some_iff.1 h
    rw [escapeHTML.eq_3 _ _ h₁ h₂, if_neg hc, bodyRun_cons, hr]
    exact ih h
  | case5 => exact h

theorem escapeHTML_eq_cons {b t : Bytes} (h : escapeHTML b = c :: t) (hc : c ≠ 92) :
    ∃ b', b = c :: b' ∧ t = escapeHTML b' := by
  induction b using escapeHTML.induct with
  | case1 | case2 => exact absurd (cons.inj h).1.symm hc
  | case3 d b h₁ h₂ hd =>
    rw [escapeHTML.eq_3 _ _ h₁ h₂, if_pos hd] at h
    exact absurd (cons.inj h).1.symm hc
  | case4 d b h₁ h₂ hd =>
    rw [escapeHTML.eq_3 _ _ h₁ h₂, if_neg hd] at h
    obtain ⟨rfl, rfl⟩ := cons.inj h
    exact ⟨b, rfl, rfl⟩
  | case5 => cases h

/-- **An escaped body stays as it is.** -/
theorem escapeHTML_idem (b : Bytes) : escapeHTML (escapeHTML b) = escapeHTML b := by
  induction b using escapeHTML.induct with
  | case1 b ih => exact congrArg ([92, 117, 50, 48, 50, 56] ++ ·) ih
  | case2 b ih => exact congrArg ([92, 117, 50, 48, 50, 57] ++ ·) ih
  | case3 c b h₁ h₂ hc ih =>
    rcases eq_of_isHTML hc with rfl | rfl | rfl
    · exact congrArg (uEscape 60 ++ ·) ih
    · exact congrArg (uEscape 62 ++ ·) ih
    · exact congrArg (uEscape 38 ++ ·) ih
  | case4 c b h₁ h₂ hc ih =>
    rw [escapeHTML.eq_3 _ _ h₁ h₂, if_neg hc, escapeHTML.eq_3, if_neg hc, ih]
    -- two more bytes of U+2028 or U+2029 would have been there before
    · rintro b' rfl hb
      obtain ⟨b₁, rfl, hb₁⟩ := escapeHTML_eq_cons hb (by decide)
      obtain ⟨b₂, rfl, -⟩ := escapeHTML_eq_cons hb₁.symm (by decide)
      exact h₁ b₂ rfl rfl
    · rintro b' rfl hb
      obtain ⟨b₁, rfl, hb₁⟩ := escapeHTML_eq_cons hb (by decide)
      obtain ⟨b₂, rfl, -⟩ := escapeHTML_eq_cons hb₁.symm (by decide)
      exact h₂ b₂ rfl rfl
  | case5 => rfl

/-- The bytes between the quotes of a string, in escaped form. -/
structure Body where
  text : Bytes
  valid : validBody text = true
  escaped : escapeHTML text = text
  deriving DecidableEq

/-- The string with these bytes between its quotes. -/
def Body.ofBytes (b : Bytes) : Option Body :=
  if h : validBody b = true then
    some ⟨escapeHTML b, by
      unfold validBody at h ⊢
      rw [decide_eq_true_eq] at h ⊢
      exact bodyRun_escapeHTML h, escapeHTML_idem b⟩
  else none

theorem Body.ofBytes_text (s : Body) : Body.ofBytes s.text = some s := by
  rw [Body.ofBytes, dif_pos s.valid]
  simp only [s.escaped]

/-! ### Values -/

/-- A JSON value; an object keeps its members in order, repeated names included. -/
inductive Value where
  | null
  | bool (b : Bool)
  | num (n : Number)
  | str (s : Body)
  | arr (vs : List Value)
  | obj (ms : List (Body × Value))

/-- **Induction on values**, with the hypothesis for every item and every member. -/
@[elab_as_elim]
theorem Value.ind {P : Value → Prop} (null : P .null) (bool : ∀ b, P (.bool b))
    (num : ∀ n, P (.num n)) (str : ∀ s, P (.str s))
    (arr : ∀ vs, (∀ v ∈ vs, P v) → P (.arr vs))
    (obj : ∀ ms, (∀ m ∈ ms, P m.2) → P (.obj ms)) : ∀ v, P v
  | .null => null
  | .bool b => bool b
  | .num n => num n
  | .str s => str s
  | .arr vs => arr vs fun v _ => Value.ind null bool num str arr obj v
  | .obj ms => obj ms fun m _ => Value.ind null bool num str arr obj m.2
termination_by v => sizeOf v
decreasing_by
  · have := List.sizeOf_lt_of_mem (by assumption)
    simp only [Value.arr.sizeOf_spec]
    omega
  · have := List.sizeOf_lt_of_mem (by assumption)
    have hm (m : Body × Value) : sizeOf m = 1 + sizeOf m.1 + sizeOf m.2 := by cases m; rfl
    simp only [Value.obj.sizeOf_spec]
    rw [hm] at this
    omega

mutual
/-- How deep arrays and objects are nested. -/
def depth : Value → ℕ
  | .arr vs => depthItems vs + 1
  | .obj ms => depthMembers ms + 1
  | .null | .bool _ | .num _ | .str _ => 0

def depthItems : List Value → ℕ
  | [] => 0
  | v :: vs => max (depth v) (depthItems vs)

def depthMembers : List (Body × Value) → ℕ
  | [] => 0
  | (_, v) :: ms => max (depth v) (depthMembers ms)
end

theorem depthMembers_append (ms ns : List (Body × Value)) :
    depthMembers (ms ++ ns) = max (depthMembers ms) (depthMembers ns) := by
  induction ms with
  | nil => simp [depthMembers]
  | cons m ms ih => rw [cons_append, depthMembers, depthMembers, ih, max_assoc]

/-- A string between its quotes. -/
def quoted (s : Body) : Bytes := 34 :: (s.text ++ [34])

mutual
/-- The compact text of a value. -/
def print : Value → Bytes
  | .null => [110, 117, 108, 108]
  | .bool true => [116, 114, 117, 101]
  | .bool false => [102, 97, 108, 115, 101]
  | .num n => n.text
  | .str s => quoted s
  | .arr vs => 91 :: (printItems vs ++ [93])
  | .obj ms => 123 :: (printMembers ms ++ [125])

/-- Values with commas between them. -/
def printItems : List Value → Bytes
  | [] => []
  | [v] => print v
  | v :: vs => print v ++ 44 :: printItems vs

/-- Members with commas between them. -/
def printMembers : List (Body × Value) → Bytes
  | [] => []
  | [(k, v)] => quoted k ++ 58 :: print v
  | (k, v) :: ms => quoted k ++ 58 :: print v ++ 44 :: printMembers ms
end

/-! ### The bytes of a text -/

theorem isToken_of_foldlM {p q : NumPos} {l : Bytes} (h : l.foldlM NumPos.step p = some q) :
    ∀ c ∈ l, isToken c = true := by
  induction l generalizing p with
  | nil => exact fun c hc => absurd hc not_mem_nil
  | cons d l ih =>
    obtain ⟨r, hr, h⟩ := Option.bind_eq_some_iff.1 h
    rintro c (_ | ⟨_, hc⟩)
    · exact NumPos.isToken_of_step hr
    · exact ih h c hc

theorem Number.isToken_of_mem (n : Number) (hc : c ∈ n.text) : isToken c = true := by
  have hv := n.valid
  unfold validNumber at hv
  split at hv
  · exact isToken_of_foldlM ‹_› c hc
  · cases hv

theorem BodyPos.le_of_step (h : p.step c = some q) : 32 ≤ c.toNat := by
  cases p with
  | plain =>
    simp only [BodyPos.step] at h
    split_ifs at h with h₁ h₂
    · subst h₁
      decide
    · simp only [UInt8.lt_iff_toNat_lt, UInt8.reduceToNat] at h₂
      omega
  | esc =>
    simp only [BodyPos.step] at h
    split_ifs at h with h₁ h₂
    · subst h₁
      decide
    · simp only [mem_cons, not_mem_nil, or_false] at h₂
      rcases h₂ with rfl | rfl | rfl | rfl | rfl | rfl | rfl | rfl <;> decide
  | hex n =>
    have hx : isHex c = true := by
      cases n <;> simp only [BodyPos.step] at h <;> split_ifs at h with hx <;> exact hx
    have := toNat_of_isHex hx
    omega

theorem le_of_bodyRun {b : Bytes} (h : bodyRun p b = some q) : ∀ c ∈ b, 32 ≤ c.toNat := by
  induction b generalizing p with
  | nil => exact fun c hc => absurd hc not_mem_nil
  | cons d b ih =>
    obtain ⟨r, hr, h⟩ := Option.bind_eq_some_iff.1 h
    rintro c (_ | ⟨_, hc⟩)
    · exact BodyPos.le_of_step hr
    · exact ih h c hc

theorem Body.bodyRun_text (s : Body) : bodyRun .plain s.text = some .plain := by
  have h := s.valid
  exact of_decide_eq_true h

theorem le_of_mem_quoted {s : Body} (hc : c ∈ quoted s) : 32 ≤ c.toNat := by
  simp only [quoted, mem_cons, mem_append, not_mem_nil, or_false] at hc
  rcases hc with rfl | hc | rfl
  · decide
  · exact le_of_bodyRun s.bodyRun_text c hc
  · decide

theorem mem_printItems {vs : List Value} (hc : c ∈ printItems vs) :
    c = 44 ∨ ∃ v ∈ vs, c ∈ print v := by
  induction vs with
  | nil => cases hc
  | cons v vs ih =>
    cases vs with
    | nil => exact .inr ⟨v, by simp, hc⟩
    | cons =>
      rw [printItems, mem_append, mem_cons] at hc
      · rcases hc with hc | hc | hc
        · exact .inr ⟨v, by simp, hc⟩
        · exact .inl hc
        · refine (ih hc).imp_right ?_
          rintro ⟨u, hu, hc⟩
          exact ⟨u, mem_cons_of_mem v hu, hc⟩
      · simp

theorem mem_printMembers {ms : List (Body × Value)} (hc : c ∈ printMembers ms) :
    c = 44 ∨ c = 58 ∨ ∃ m ∈ ms, c ∈ quoted m.1 ∨ c ∈ print m.2 := by
  induction ms with
  | nil => cases hc
  | cons m ms ih =>
    obtain ⟨k, v⟩ := m
    cases ms with
    | nil =>
      rw [printMembers, mem_append, mem_cons] at hc
      rcases hc with hc | hc | hc
      · exact .inr (.inr ⟨(k, v), by simp, .inl hc⟩)
      · exact .inr (.inl hc)
      · exact .inr (.inr ⟨(k, v), by simp, .inr hc⟩)
    | cons =>
      rw [printMembers] at hc
      · simp only [mem_append, mem_cons, or_assoc] at hc
        rcases hc with hc | hc | hc | hc | hc
        · exact .inr (.inr ⟨(k, v), by simp, .inl hc⟩)
        · exact .inr (.inl hc)
        · exact .inr (.inr ⟨(k, v), by simp, .inr hc⟩)
        · exact .inl hc
        · refine (ih hc).imp_right (Or.imp_right ?_)
          rintro ⟨u, hu, hc⟩
          exact ⟨u, mem_cons_of_mem _ hu, hc⟩
      · simp

/-- **A text has no control characters**, so it is one line. -/
theorem le_of_mem_print {v : Value} (hc : c ∈ print v) : 32 ≤ c.toNat := by
  induction v using Value.ind with
  | null =>
    simp only [print, mem_cons, not_mem_nil, or_false] at hc
    rcases hc with rfl | rfl | rfl | rfl <;> decide
  | bool b =>
    cases b <;> simp only [print, mem_cons, not_mem_nil, or_false] at hc
    · rcases hc with rfl | rfl | rfl | rfl | rfl <;> decide
    · rcases hc with rfl | rfl | rfl | rfl <;> decide
  | num n =>
    have := toNat_of_isToken (n.isToken_of_mem hc)
    omega
  | str => exact le_of_mem_quoted hc
  | arr vs ih =>
    simp only [print, mem_cons, mem_append, not_mem_nil, or_false] at hc
    rcases hc with rfl | hc | rfl
    · decide
    · rcases mem_printItems hc with rfl | ⟨v, hv, hc⟩
      · decide
      · exact ih v hv hc
    · decide
  | obj ms ih =>
    simp only [print, mem_cons, mem_append, not_mem_nil, or_false] at hc
    rcases hc with rfl | hc | rfl
    · decide
    · rcases mem_printMembers hc with rfl | rfl | ⟨m, hm, hc | hc⟩
      · decide
      · decide
      · exact le_of_mem_quoted hc
      · exact ih m hm hc
    · decide

end K8s4Claw.Lib.Json
