/-
# Strings in JSON

How Go's `encoding/json` writes a string (`quoteChar`: short escapes, `\u00xx` for
the other control characters and for `<`, `>` and `&`, escapes for U+2028 and
U+2029, UTF-8 for the rest) and how it reads one (`nextChar`: escapes, surrogate
pairs, and U+FFFD for what is no character).  `toString_ofString`: a string is read
back as it was.
-/

import K8s4Claw.Lib.Json.Value

namespace K8s4Claw.Lib.Json

open List

/-! ### Writing -/

/-- The letter of a two-byte escape. -/
def shortEscape (n : ℕ) : Option UInt8 :=
  if n = 34 then some 34 else if n = 92 then some 92 else if n = 8 then some 98
  else if n = 12 then some 102 else if n = 10 then some 110 else if n = 13 then some 114
  else if n = 9 then some 116 else none

/-- A character of a string, between quotes. -/
def quoteChar (c : Char) : Bytes :=
  match shortEscape c.toNat with
  | some x => [92, x]
  | none =>
      if c.toNat < 32 ∨ c.toNat = 60 ∨ c.toNat = 62 ∨ c.toNat = 38 then uEscape c.toNat
      else if c.toNat = 0x2028 then [92, 117, 50, 48, 50, 56]
      else if c.toNat = 0x2029 then [92, 117, 50, 48, 50, 57]
      else String.utf8EncodeChar c

/-! ### Reading -/

/-- U+FFFD, in place of what is no character. -/
def replacement : Char := Char.ofNat 0xFFFD

def hexValue (c : UInt8) : ℕ :=
  if isDigit c then c.toNat - 48 else if 97 ≤ c then c.toNat - 87 else c.toNat - 55

def hex4 (a b c d : UInt8) : ℕ :=
  ((hexValue a * 16 + hexValue b) * 16 + hexValue c) * 16 + hexValue d

/-- The letter of a two-byte escape, read. -/
def unescapeShort (x : UInt8) : Char :=
  if x = 98 then Char.ofNat 8 else if x = 102 then Char.ofNat 12 else if x = 110 then Char.ofNat 10
  else if x = 114 then Char.ofNat 13 else if x = 116 then Char.ofNat 9 else Char.ofNat x.toNat

/-- The digits of a `\u` escape and what follows.  Two escapes that are a surrogate pair
are one character, any other surrogate is none. -/
def unescapeU : Bytes → Char × Bytes
  | a :: b :: c :: d :: t =>
      let r := hex4 a b c d
      if 0xD800 ≤ r ∧ r < 0xE000 then
        match t with
        | 92 :: 117 :: a' :: b' :: c' :: d' :: t' =>
            let r' := hex4 a' b' c' d'
            if r < 0xDC00 ∧ 0xDC00 ≤ r' ∧ r' < 0xE000 then
              (Char.ofNat ((r - 0xD800) * 0x400 + (r' - 0xDC00) + 0x10000), t')
            else (replacement, t)
        | _ => (replacement, t)
      else (Char.ofNat r, t)
  | _ => (replacement, [])

/-- The first character in UTF-8, and what follows.  A byte that starts none is skipped. -/
def decodeRune (b : Bytes) : Char × Bytes :=
  match b.toByteArray.utf8DecodeChar? 0 with
  | some c => (c, b.drop c.utf8Size)
  | none => (replacement, b.drop 1)

/-- The first character of the body `c :: b`, and what follows. -/
def nextChar (c : UInt8) (b : Bytes) : Char × Bytes :=
  if c = 92 then
    match b with
    | [] => (replacement, [])
    | x :: b => if x = 117 then unescapeU b else (unescapeShort x, b)
  else if c < 128 then (Char.ofNat c.toNat, b)
  else decodeRune (c :: b)

/-- The first `n` characters of a body. -/
def unquote : ℕ → Bytes → List Char
  | _, [] => []
  | 0, _ => []
  | n + 1, c :: b => (nextChar c b).1 :: unquote n (nextChar c b).2

/-- The string a body stands for; a body has no more characters than bytes. -/
def Body.toString (s : Body) : String := String.ofList (unquote s.text.length s.text)

/-! ### A quoted string is a body -/

theorem utf8EncodeChar_of_le {c : Char} (h : c.toNat ≤ 127) :
    String.utf8EncodeChar c = [UInt8.ofNat c.toNat] := by
  have h' : c.val.toNat ≤ 127 := h
  simp only [String.utf8EncodeChar, h']
  rfl

variable {n : ℕ} {x : UInt8}

theorem ofNat_eq_iff (h : n < 256) : UInt8.ofNat n = x ↔ n = x.toNat := by
  rw [← UInt8.toNat_inj, UInt8.toNat_ofNat']
  constructor <;> intro <;> omega

theorem toNat_ofNat_of_lt (h : n < 256) : (Char.ofNat n).toNat = n := by
  have hvalid : n.isValidChar := .inl (by omega)
  rw [Char.ofNat, dif_pos hvalid]
  rfl

/-- The bytes of a character outside ASCII; only U+2028 and U+2029 have bytes that
`escapeHTML` takes for them. -/
theorem utf8EncodeChar_of_lt {c : Char} (h : 127 < c.toNat) :
    (∀ x ∈ String.utf8EncodeChar c, 128 ≤ x.toNat) ∧
      ((∀ x ∈ String.utf8EncodeChar c, x ≠ 226) ∨
        ∃ y z, String.utf8EncodeChar c = [226, y, z] ∧ y ≠ 226 ∧ z ≠ 226 ∧
          (y = 128 → z = 168 → c.toNat = 0x2028) ∧ (y = 128 → z = 169 → c.toNat = 0x2029)) := by
  have hv : c.val.toNat = c.toNat := rfl
  have hmax : c.toNat < 0x110000 := by
    have := c.valid
    rcases this with h | ⟨-, h⟩ <;> exact lt_of_lt_of_le h (by decide)
  generalize hn : c.toNat = n at h hv hmax
  have h226 (m : ℕ) (hm : m < 256) (hne : m ≠ 226) : UInt8.ofNat m ≠ 226 := fun he =>
    hne ((ofNat_eq_iff hm).1 he)
  simp only [String.utf8EncodeChar, hv, if_neg (show ¬n ≤ 127 by omega)]
  split_ifs
  · simp only [forall_mem_cons, UInt8.toNat_ofNat']
    refine ⟨⟨by omega, by omega, by simp⟩, .inl ⟨?_, ?_, by simp⟩⟩
    · exact h226 _ (by omega) (by omega)
    · exact h226 _ (by omega) (by omega)
  · simp only [forall_mem_cons, UInt8.toNat_ofNat']
    refine ⟨⟨by omega, by omega, by omega, by simp⟩, ?_⟩
    by_cases hlead : n / 4096 % 16 + 224 = 226
    · refine .inr ⟨_, _, by rw [hlead]; rfl, h226 _ (by omega) (by omega),
        h226 _ (by omega) (by omega), ?_, ?_⟩
      · rw [ofNat_eq_iff (by omega), ofNat_eq_iff (by omega)]
        simp only [UInt8.reduceToNat]
        omega
      · rw [ofNat_eq_iff (by omega), ofNat_eq_iff (by omega)]
        simp only [UInt8.reduceToNat]
        omega
    · refine .inl ⟨h226 _ (by omega) hlead, ?_, ?_, by simp⟩
      · exact h226 _ (by omega) (by omega)
      · exact h226 _ (by omega) (by omega)
  · simp only [forall_mem_cons, UInt8.toNat_ofNat']
    refine ⟨⟨by omega, by omega, by omega, by omega, by simp⟩, .inl ⟨?_, ?_, ?_, ?_, by simp⟩⟩
    · exact h226 _ (by omega) (by omega)
    · exact h226 _ (by omega) (by omega)
    · exact h226 _ (by omega) (by omega)
    · exact h226 _ (by omega) (by omega)

theorem isHTML_of_le (h : 128 ≤ x.toNat) : isHTML x = false := by
  by_contra hx
  rcases eq_of_isHTML (by simpa using hx) with rfl | rfl | rfl <;> exact absurd h (by decide)

theorem escapeHTML_cons {b : Bytes} (hne : x ≠ 226) (hx : isHTML x = false) :
    escapeHTML (x :: b) = x :: escapeHTML b := by
  rw [escapeHTML.eq_3, hx]
  · rfl
  · exact fun _ h => absurd h hne
  · exact fun _ h => absurd h hne

theorem escapeHTML_append {a b : Bytes} (h : ∀ x ∈ a, x ≠ 226 ∧ isHTML x = false) :
    escapeHTML (a ++ b) = a ++ escapeHTML b := by
  induction a with
  | nil => rfl
  | cons x a ih =>
    obtain ⟨hne, hx⟩ := h x (by simp)
    rw [cons_append, escapeHTML_cons hne hx, ih fun y hy => h y (mem_cons_of_mem x hy)]
    rfl

theorem bodyRun_of_forall {b : Bytes} (h : ∀ x ∈ b, 32 ≤ x.toNat ∧ x ≠ 34 ∧ x ≠ 92) :
    bodyRun .plain b = some .plain := by
  induction b with
  | nil => rfl
  | cons x b ih =>
    obtain ⟨hle, h₁, h₂⟩ := h x (by simp)
    have hlt : ¬(x < 32 ∨ x = 34) := by
      rw [not_or, UInt8.lt_iff_toNat_lt]
      exact ⟨by simp only [UInt8.reduceToNat]; omega, h₁⟩
    rw [bodyRun_cons, BodyPos.step, if_neg h₂, if_neg hlt]
    exact ih fun y hy => h y (mem_cons_of_mem x hy)

/-- A byte that stands for itself between quotes, wherever it stands. -/
def isPlain (x : UInt8) : Bool :=
  decide (32 ≤ x.toNat) && x != 34 && x != 92 && x != 226 && !isHTML x

/-- The string of these bytes. -/
def Body.ofPlain (b : Bytes) (h : ∀ x ∈ b, isPlain x = true) : Body where
  text := b
  valid := by
    refine decide_eq_true (bodyRun_of_forall fun x hx => ?_)
    have hx := h x hx
    simp only [isPlain, Bool.and_eq_true, decide_eq_true_eq, bne_iff_ne] at hx
    exact ⟨hx.1.1.1.1, hx.1.1.1.2, hx.1.1.2⟩
  escaped := by
    have hb : ∀ x ∈ b, x ≠ 226 ∧ isHTML x = false := by
      intro x hx
      have hx := h x hx
      simp only [isPlain, Bool.and_eq_true, bne_iff_ne, Bool.not_eq_true'] at hx
      exact ⟨hx.1.2, hx.2⟩
    simpa [escapeHTML] using escapeHTML_append (b := []) hb

theorem eq_of_shortEscape (h : shortEscape n = some x) :
    (n, x) ∈ [(34, 34), (92, 92), (8, 98), (12, 102), (10, 110), (13, 114), (9, 116)] := by
  unfold shortEscape at h
  split_ifs at h
  all_goals
    cases h
    subst n
    decide

/-- **How a character is written.** -/
theorem quoteChar_cases (c : Char) :
    (∃ x, shortEscape c.toNat = some x ∧ quoteChar c = [92, x]) ∨
      (c.toNat < 64 ∧ quoteChar c = uEscape c.toNat) ∨
      (c.toNat = 0x2028 ∧ quoteChar c = [92, 117, 50, 48, 50, 56]) ∨
      (c.toNat = 0x2029 ∧ quoteChar c = [92, 117, 50, 48, 50, 57]) ∨
      (32 ≤ c.toNat ∧ c.toNat ∉ [34, 92, 60, 62, 38, 0x2028, 0x2029] ∧
        quoteChar c = String.utf8EncodeChar c) := by
  unfold quoteChar
  cases hs : shortEscape c.toNat with
  | some x => exact .inl ⟨x, rfl, rfl⟩
  | none =>
    have hshort : c.toNat ≠ 34 ∧ c.toNat ≠ 92 := by
      constructor <;> (intro h; rw [h] at hs; cases hs)
    split_ifs with h₁ h₂ h₃
    · exact .inr (.inl ⟨by omega, rfl⟩)
    · exact .inr (.inr (.inl ⟨h₂, rfl⟩))
    · exact .inr (.inr (.inr (.inl ⟨h₃, rfl⟩)))
    · refine .inr (.inr (.inr (.inr ⟨by omega, ?_, rfl⟩)))
      simp only [mem_cons, not_mem_nil, or_false]
      omega

theorem uEscape_spec : ∀ n < 64, bodyRun .plain (uEscape n) = some .plain ∧
    (∀ x ∈ uEscape n, x ≠ 226 ∧ isHTML x = false) ∧
    hex4 48 48 (hexDigit (n / 16)) (hexDigit (n % 16)) = n := by
  decide +kernel

theorem shortEscape_spec (h : shortEscape n = some x) :
    bodyRun .plain [92, x] = some .plain ∧
      (∀ b, escapeHTML (92 :: x :: b) = 92 :: x :: escapeHTML b) ∧
      ∀ b, nextChar 92 (x :: b) = (Char.ofNat n, b) := by
  have hmem := eq_of_shortEscape h
  simp only [mem_cons, not_mem_nil, or_false] at hmem
  rcases hmem with ⟨rfl, rfl⟩ | ⟨rfl, rfl⟩ | ⟨rfl, rfl⟩ | ⟨rfl, rfl⟩ | ⟨rfl, rfl⟩ | ⟨rfl, rfl⟩ |
    ⟨rfl, rfl⟩ <;> exact ⟨rfl, fun _ => rfl, fun _ => rfl⟩

theorem utf8EncodeChar_spec {c : Char} (h : 32 ≤ c.toNat)
    (hne : c.toNat ∉ [34, 92, 60, 62, 38, 0x2028, 0x2029]) :
    (∀ x ∈ String.utf8EncodeChar c, 32 ≤ x.toNat ∧ x ≠ 34 ∧ x ≠ 92 ∧ isHTML x = false) := by
  simp only [mem_cons] at hne
  by_cases hle : c.toNat ≤ 127
  · rw [utf8EncodeChar_of_le hle]
    simp only [forall_mem_cons, UInt8.toNat_ofNat', isHTML, Bool.or_eq_false_iff,
      decide_eq_false_iff_not, Ne, ofNat_eq_iff (show c.toNat < 256 by omega), UInt8.reduceToNat]
    refine ⟨by omega, by simp⟩
  · intro x hx
    have h128 := (utf8EncodeChar_of_lt (by omega)).1 x hx
    refine ⟨by omega, ?_, ?_, isHTML_of_le h128⟩ <;> (rintro rfl; exact absurd h128 (by decide))

theorem bodyRun_quoteChar (c : Char) : bodyRun .plain (quoteChar c) = some .plain := by
  rcases quoteChar_cases c with ⟨x, hx, h⟩ | ⟨hlt, h⟩ | ⟨-, h⟩ | ⟨-, h⟩ | ⟨hle, hne, h⟩ <;> rw [h]
  · exact (shortEscape_spec hx).1
  · exact (uEscape_spec _ hlt).1
  · rfl
  · rfl
  · refine bodyRun_of_forall fun x hx => ?_
    obtain ⟨h₁, h₂, h₃, -⟩ := utf8EncodeChar_spec hle hne x hx
    exact ⟨h₁, h₂, h₃⟩

theorem escapeHTML_quoteChar (c : Char) (b : Bytes) :
    escapeHTML (quoteChar c ++ b) = quoteChar c ++ escapeHTML b := by
  rcases quoteChar_cases c with ⟨x, hx, h⟩ | ⟨hlt, h⟩ | ⟨-, h⟩ | ⟨-, h⟩ | ⟨hle, hne, h⟩ <;> rw [h]
  · exact (shortEscape_spec hx).2.1 b
  · exact escapeHTML_append (uEscape_spec _ hlt).2.1
  · rfl
  · rfl
  · have hspec := utf8EncodeChar_spec hle hne
    by_cases hascii : c.toNat ≤ 127
    · refine escapeHTML_append fun x hx => ⟨?_, (hspec x hx).2.2.2⟩
      rw [utf8EncodeChar_of_le hascii, mem_singleton] at hx
      rw [hx, Ne, ofNat_eq_iff (by omega)]
      simp only [UInt8.reduceToNat]
      omega
    · rcases (utf8EncodeChar_of_lt (c := c) (by omega)).2 with h226 | ⟨y, z, hyz, hy, hz, h₁, h₂⟩
      · exact escapeHTML_append fun x hx => ⟨h226 x hx, (hspec x hx).2.2.2⟩
      · simp only [mem_cons, not_mem_nil, or_false, not_or] at hne
        rw [hyz] at hspec ⊢
        have hy' := (hspec y (by simp)).2.2.2
        have hz' := (hspec z (by simp)).2.2.2
        rw [cons_append, escapeHTML.eq_3]
        · rw [cons_append, escapeHTML_cons hy hy', cons_append, escapeHTML_cons hz hz']
          rfl
        · rintro t - ht
          simp only [cons_append, cons.injEq] at ht
          exact hne.2.2.2.2.2.1 (h₁ ht.1 ht.2.1)
        · rintro t - ht
          simp only [cons_append, cons.injEq] at ht
          exact hne.2.2.2.2.2.2 (h₂ ht.1 ht.2.1)

/-! ### Strings read back -/

theorem decodeRune_utf8EncodeChar (c : Char) (b : Bytes) :
    decodeRune (String.utf8EncodeChar c ++ b) = (c, b) := by
  have hdec : (String.utf8EncodeChar c ++ b).toByteArray.utf8DecodeChar? 0 = some c := by
    rw [toByteArray_append']
    exact ByteArray.utf8DecodeChar?_utf8EncodeChar_append
  have hdrop : (String.utf8EncodeChar c ++ b).drop c.utf8Size = b := by
    rw [← String.length_utf8EncodeChar c, drop_left]
  simp only [decodeRune, hdec, hdrop]

/-- **A character is read back as it was.** -/
theorem exists_nextChar (c : Char) :
    ∃ x a, quoteChar c = x :: a ∧ ∀ b, nextChar x (a ++ b) = (c, b) := by
  have hc := Char.ofNat_toNat c
  rcases quoteChar_cases c with ⟨x, hx, h⟩ | ⟨hlt, h⟩ | ⟨hn, h⟩ | ⟨hn, h⟩ | ⟨-, hne, h⟩
  · refine ⟨92, [x], h, fun b => ?_⟩
    have hread := (shortEscape_spec hx).2.2 b
    rwa [hc] at hread
  · refine ⟨92, _, h, fun b => ?_⟩
    have hex := (uEscape_spec _ hlt).2.2
    have hsur : ¬(0xD800 ≤ c.toNat ∧ c.toNat < 0xE000) := by omega
    change unescapeU (48 :: 48 :: hexDigit _ :: hexDigit _ :: b) = _
    simp only [unescapeU, hex, hsur, if_false, hc]
  · refine ⟨92, _, h, fun b => ?_⟩
    rw [← hc, hn]
    rfl
  · refine ⟨92, _, h, fun b => ?_⟩
    rw [← hc, hn]
    rfl
  · simp only [mem_cons, not_or] at hne
    by_cases hascii : c.toNat ≤ 127
    · refine ⟨_, [], h.trans (utf8EncodeChar_of_le hascii), fun b => ?_⟩
      have h92 : UInt8.ofNat c.toNat ≠ 92 := by
        rw [Ne, ofNat_eq_iff (by omega)]
        exact hne.2.1
      have h128 : UInt8.ofNat c.toNat < 128 := by
        rw [UInt8.lt_iff_toNat_lt, UInt8.toNat_ofNat']
        simp only [UInt8.reduceToNat]
        omega
      have hnat : (UInt8.ofNat c.toNat).toNat = c.toNat := by
        rw [UInt8.toNat_ofNat']
        omega
      simp only [nextChar, h92, h128, if_true, if_false, hnat, hc, nil_append]
    · obtain ⟨x, a, hxa⟩ := exists_cons_of_ne_nil (String.utf8EncodeChar_ne_nil)
      refine ⟨x, a, h.trans hxa, fun b => ?_⟩
      have hx := (utf8EncodeChar_of_lt (c := c) (by omega)).1 x (by simp [hxa])
      have h92 : x ≠ 92 := by rintro rfl; exact absurd hx (by decide)
      have h128 : ¬x < 128 := by
        rw [UInt8.lt_iff_toNat_lt]
        simp only [UInt8.reduceToNat]
        omega
      simp only [nextChar, h92, h128]
      rw [← cons_append, ← hxa]
      exact decodeRune_utf8EncodeChar c b

theorem unquote_flatMap {cs : List Char} (h : cs.length ≤ n) :
    unquote n (cs.flatMap quoteChar) = cs := by
  induction cs generalizing n with
  | nil => cases n <;> rfl
  | cons c cs ih =>
    obtain ⟨x, a, hxa, hnext⟩ := exists_nextChar c
    obtain ⟨m, rfl⟩ : ∃ m, n = m + 1 :=
      Nat.exists_eq_add_one.2 (by rw [length_cons] at h; omega)
    rw [flatMap_cons, hxa, cons_append, unquote, hnext, ih]
    exact Nat.le_of_succ_le_succ h

theorem length_le_flatMap (cs : List Char) : cs.length ≤ (cs.flatMap quoteChar).length := by
  induction cs with
  | nil => exact le_rfl
  | cons c =>
    obtain ⟨x, a, hxa, -⟩ := exists_nextChar c
    rw [flatMap_cons, hxa, length_cons, length_append, length_cons]
    omega

theorem bodyRun_flatMap (cs : List Char) :
    bodyRun .plain (cs.flatMap quoteChar) = some .plain := by
  induction cs with
  | nil => rfl
  | cons c cs ih => rw [flatMap_cons, bodyRun_append, bodyRun_quoteChar, Option.bind_some, ih]

theorem escapeHTML_flatMap (cs : List Char) :
    escapeHTML (cs.flatMap quoteChar) = cs.flatMap quoteChar := by
  induction cs with
  | nil => rfl
  | cons c cs ih => rw [flatMap_cons, escapeHTML_quoteChar, ih]

/-- A string between quotes. -/
def Body.ofString (s : String) : Body where
  text := s.toList.flatMap quoteChar
  valid := decide_eq_true (bodyRun_flatMap s.toList)
  escaped := escapeHTML_flatMap s.toList

/-- **A string is read back as it was.** -/
theorem Body.toString_ofString (s : String) : (Body.ofString s).toString = s := by
  have h : unquote (s.toList.flatMap quoteChar).length (s.toList.flatMap quoteChar) = s.toList :=
    unquote_flatMap (length_le_flatMap s.toList)
  exact (congrArg String.ofList h).trans String.ofList_toList

end K8s4Claw.Lib.Json
