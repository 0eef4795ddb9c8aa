/-
# Texts

Go's package `strings`, over lists of any symbols: `cut` splits at the first occurrence of a
separator, and the trimming functions take off what stands at the ends.  The characters of a string
are its symbols; `utf8` are its bytes.

A separator whose first symbol occurs only there cannot overlap itself, so what is cut off a text
before it is what was written there, if the separator does not occur in that (`cut_append`).
-/

import K8s4Claw.Lib.Decimal

namespace K8s4Claw.Lib.Strings

open List Option

/-! ### Bytes -/

/-- The bytes of a string. -/
def utf8 (s : String) : Bytes := s.toList.flatMap String.utf8EncodeChar

theorem toByteArray_utf8 (s : String) : (utf8 s).toByteArray = s.toByteArray :=
  String.utf8Encode_toList

theorem utf8_injective : Function.Injective utf8 := by
  intro s t h
  rw [← String.toByteArray_inj, ← toByteArray_utf8, h, toByteArray_utf8]

/-! ### The first occurrence -/

section

variable {α : Type*} [DecidableEq α]

/-- `strings.Cut`: what stands before and after the first occurrence of `sep`. -/
def cut (sep : List α) : List α → Option (List α × List α)
  | [] => if sep = [] then some ([], []) else none
  | a :: s =>
      if sep <+: a :: s then some ([], (a :: s).drop sep.length)
      else (cut sep s).map fun parts => (a :: parts.1, parts.2)

theorem cut_self_append (sep rest : List α) : cut sep (sep ++ rest) = some ([], rest) := by
  cases h : sep ++ rest with
  | nil =>
    obtain ⟨rfl, rfl⟩ := append_eq_nil_iff.mp h
    rfl
  | cons =>
    rw [cut, if_pos ⟨rest, h⟩, ← h, drop_left]

variable {sep before : List α}

theorem cut_eq_none {s : List α} (h : ¬ sep <:+: s) : cut sep s = none := by
  induction s with
  | nil =>
    rw [cut, if_neg]
    rintro rfl
    exact h infix_rfl
  | cons a s ih =>
    rw [cut, if_neg fun hfront => h hfront.isInfix,
      ih fun hinside => h (hinside.trans (suffix_cons a s).isInfix)]
    rfl

theorem eq_of_cut {s after : List α} (h : cut sep s = some (before, after)) :
    s = before ++ (sep ++ after) := by
  induction s generalizing before with
  | nil =>
    obtain ⟨rfl, h⟩ := ite_none_right_eq_some.mp h
    obtain ⟨rfl, rfl⟩ := Prod.mk.inj (some.inj h)
    rfl
  | cons a s ih =>
    rw [cut] at h
    split_ifs at h with hfront
    · obtain ⟨rfl, rfl⟩ := Prod.mk.inj (some.inj h)
      exact (prefix_iff_eq_append.mp hfront).symm
    · obtain ⟨⟨front, after⟩, hcut, heq⟩ := map_eq_some_iff.mp h
      obtain ⟨rfl, rfl⟩ := Prod.mk.inj heq
      exact congrArg (a :: ·) (ih hcut)

theorem not_infix_of_cut_none {s : List α} (h : cut sep s = none) : ¬ sep <:+: s := by
  induction s with
  | nil =>
    intro hinside
    rw [infix_nil.mp hinside] at h
    cases h
  | cons a s ih =>
    rw [cut] at h
    split_ifs at h with hfront
    intro hinside
    rcases infix_cons_iff.mp hinside with hinit | hinside
    · exact hfront hinit
    · exact ih (map_eq_none_iff.mp h) hinside

/-- What is cut off a text before a separator does not have it. -/
theorem not_infix_of_cut {s after : List α} (hsep : sep ≠ [])
    (h : cut sep s = some (before, after)) : ¬ sep <:+: before := by
  induction s generalizing before with
  | nil =>
    obtain ⟨rfl, -⟩ := ite_none_right_eq_some.mp h
    exact absurd rfl hsep
  | cons a s ih =>
    have heq := eq_of_cut h
    rw [cut] at h
    split_ifs at h with hfront
    · obtain ⟨rfl, -⟩ := Prod.mk.inj (some.inj h)
      exact fun hinside => hsep (infix_nil.mp hinside)
    · obtain ⟨⟨front, rest⟩, hcut, hparts⟩ := map_eq_some_iff.mp h
      obtain ⟨rfl, rfl⟩ := Prod.mk.inj hparts
      intro hinside
      rcases infix_cons_iff.mp hinside with hinit | hinside
      · exact hfront (hinit.trans ⟨_, heq.symm⟩)
      · exact ih hcut hinside

section

variable {c : α} (hsep : c ∉ sep) (hbefore : ¬ c :: sep <:+: before)

include hsep hbefore

/-- **A text is cut where the separator was put**, if the separator is not in what stands before
it and does not begin inside itself. -/
theorem cut_append (after : List α) :
    cut (c :: sep) (before ++ (c :: sep ++ after)) = some (before, after) := by
  induction before with
  | nil => exact cut_self_append (c :: sep) after
  | cons a before ih =>
    have hnot : ¬ c :: sep <+: a :: (before ++ (c :: sep ++ after)) := by
      intro hfront
      have hbefore' : a :: before <+: a :: (before ++ (c :: sep ++ after)) :=
        ⟨c :: sep ++ after, rfl⟩
      rcases prefix_or_prefix_of_prefix hfront hbefore' with h | ⟨t, ht⟩
      · exact hbefore h.isInfix
      · -- the separator reaches beyond `before`, so it begins again inside itself
        have hrest : t <+: c :: sep ++ after := by
          rw [← prefix_append_right_inj (a :: before), ht]
          exact hfront
        cases t with
        | nil => exact hbefore ⟨[], [], by rw [← ht]; simp⟩
        | cons d t =>
          have hd : d = c := (cons_prefix_cons.mp hrest).1
          have hsep' : before ++ d :: t = sep := (cons.inj ht).2
          exact hsep (by simp [← hsep', hd])
    rw [cons_append, cut, if_neg hnot,
      ih fun hinside => hbefore (hinside.trans (suffix_cons a before).isInfix)]
    rfl

/-- Two texts that agree have the same parts before and after the separator. -/
theorem append_sep_inj {before' after after' : List α} (hbefore' : ¬ c :: sep <:+: before')
    (h : before ++ (c :: sep ++ after) = before' ++ (c :: sep ++ after')) :
    before = before' ∧ after = after' := by
  have hcut := cut_append hsep hbefore after
  rw [h, cut_append hsep hbefore'] at hcut
  exact ⟨(Prod.ext_iff.mp (some.inj hcut)).1.symm,
    (Prod.ext_iff.mp (some.inj hcut)).2.symm⟩

end

/-! ### Labelled fields -/

/-- Fields with labels between them: the first one, and each of the others behind its label. -/
def joined (field : List α) : List (List α × List α) → List α
  | [] => field
  | (label, next) :: rest => field ++ (label ++ joined next rest)

/-- Where a field has the label of the next field in it, what stands behind the label belongs to the
next field. -/
def shift (label field next : List α) : List α × List α :=
  match cut label field with
  | none => (field, next)
  | some (before, after) => (before, after ++ (label ++ next))

/-- The fields, each cut at the label of the next one. -/
def settle (field : List α) : List (List α × List α) → List α × List (List α × List α)
  | [] => (field, [])
  | (label, next) :: rest =>
      let (field, next) := shift label field next
      let (next, rest) := settle next rest
      (field, (label, next) :: rest)

theorem shift_append (label field next : List α) :
    (shift label field next).1 ++ (label ++ (shift label field next).2) =
      field ++ (label ++ next) := by
  unfold shift
  split
  · rfl
  · next before after h => simp [eq_of_cut h]

theorem not_infix_shift {label : List α} (hlabel : label ≠ []) (field next : List α) :
    ¬ label <:+: (shift label field next).1 := by
  unfold shift
  split
  · next h => exact not_infix_of_cut_none h
  · next before after h => exact not_infix_of_cut hlabel h

omit [DecidableEq α] in
theorem joined_append (a field : List α) (rest : List (List α × List α)) :
    joined (a ++ field) rest = a ++ joined field rest := by
  cases rest with
  | nil => rfl
  | cons => rw [joined, joined, append_assoc]

theorem joined_shift (label field next : List α) (rest : List (List α × List α)) :
    joined field ((label, next) :: rest) =
      (shift label field next).1 ++ (label ++ joined (shift label field next).2 rest) := by
  rw [joined, ← joined_append, ← joined_append, ← joined_append, ← joined_append, shift_append]

/-- **What the joined fields say**: the fields, up to labels that stand inside them. -/
theorem joined_eq_iff {field field' : List α} {rest rest' : List (List α × List α)}
    (hsame : rest.map Prod.fst = rest'.map Prod.fst)
    (hlabels : ∀ label ∈ rest.map Prod.fst, ∃ c sep, label = c :: sep ∧ c ∉ sep) :
    joined field rest = joined field' rest' ↔ settle field rest = settle field' rest' := by
  induction rest generalizing field field' rest' with
  | nil =>
    obtain rfl : rest' = [] := by simpa using hsame.symm
    simp [joined, settle]
  | cons p rest ih =>
    obtain ⟨label, next⟩ := p
    obtain ⟨⟨_, next'⟩, rest', rfl⟩ : ∃ p' tail, rest' = p' :: tail := by
      cases rest' with
      | nil => cases hsame
      | cons p' tail => exact ⟨p', tail, rfl⟩
    obtain ⟨rfl, htail⟩ := cons.inj hsame
    obtain ⟨⟨c, sep, hlabel, hsep⟩, hlabels⟩ := forall_mem_cons.mp hlabels
    dsimp only at hlabel
    have hne : label ≠ [] := by
      rw [hlabel]
      exact cons_ne_nil c sep
    have hfree := not_infix_shift hne field next
    have hfree' := not_infix_shift hne field' next'
    rw [hlabel] at hfree hfree'
    rw [joined_shift, joined_shift]
    simp only [settle, Prod.mk.injEq, cons.injEq, true_and]
    rw [← Prod.ext_iff, ← ih htail hlabels]
    constructor
    · intro h
      rw [hlabel] at h ⊢
      exact append_sep_inj hsep hfree hfree' h
    · rintro ⟨hfield, hrest⟩
      rw [hfield, hrest]

def trimPrefix (front s : List α) : List α := if front <+: s then s.drop front.length else s

def trimSuffix (rear s : List α) : List α :=
  if rear <:+ s then s.take (s.length - rear.length) else s

end

/-! ### White space -/

/-- `unicode.IsSpace`: the characters with the property `White_Space`. -/
def isSpace (c : Char) : Bool :=
  (9 ≤ c.toNat && c.toNat ≤ 13) || c.toNat = 0x20 || c.toNat = 0x85 || c.toNat = 0xA0 ||
    c.toNat = 0x1680 || (0x2000 ≤ c.toNat && c.toNat ≤ 0x200A) || c.toNat = 0x2028 ||
    c.toNat = 0x2029 || c.toNat = 0x202F || c.toNat = 0x205F || c.toNat = 0x3000

def trimSpace (s : List Char) : List Char :=
  ((s.dropWhile isSpace).reverse.dropWhile isSpace).reverse

end K8s4Claw.Lib.Strings
