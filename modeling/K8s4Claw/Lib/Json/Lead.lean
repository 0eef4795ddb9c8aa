/-
# JSON texts with bytes in front

What comes of the text of an object when other bytes are read before it.  White space in front is
skipped (`parse_space_append`).  With anything else in front, the text of an object, or a beginning
of it, is never read as an object: it is inside something that does not end, or the bytes in front
begin a string that the first quote of the object ends (`parse_lead`).  The texts of one and two
bytes are numbers, `""`, `[]` and the empty object (`read_one`, `parse_two`), and no text has a
control character (`parse_of_mem_lt`).
-/

import K8s4Claw.Lib.Json.Scan

namespace K8s4Claw.Lib.Json

open List Option

variable {r r' : Reader} {c : UInt8} {stack : List Frame} {v : Value}

/-! ### Control characters -/

theorem toNat_of_isSpace (h : isSpace c = true) : 9 ≤ c.toNat ∧ c.toNat ≤ 32 := by
  simp only [isSpace, Bool.or_eq_true, decide_eq_true_eq] at h
  rcases h with ((rfl | rfl) | rfl) | rfl <;> decide

namespace Reader

/-- **No text goes on with a control character** that is no white space. -/
theorem le_of_step (h : r.step c = some r') : 9 ≤ c.toNat := by
  cases step_of_step h with
  | stay _ hc => exact (toNat_of_isSpace hc).1
  | token _ _ hc => exact (by decide : 9 ≤ 43).trans (toNat_of_isToken hc).1
  | complete hc =>
    rcases hc with hc | rfl | rfl
    · exact (toNat_of_isSpace hc).1
    · decide
    · decide
  | char _ hp => exact (by decide : 9 ≤ 32).trans (BodyPos.le_of_step hp)
  | object hc | array hc | quote _ _ _ hc | colon _ hc | item _ _ hc | member _ _ hc | name _ hc
  | string _ hc =>
    rw [hc]
    decide

theorem scan_of_mem_lt {b : Bytes} (hmem : c ∈ b) (hc : c.toNat < 9) (r : Reader) :
    r.scan b = none := by
  induction b generalizing r with
  | nil => cases hmem
  | cons d b ih =>
    rw [scan_cons]
    cases hstep : r.step d with
    | none => rfl
    | some r' =>
      rcases mem_cons.mp hmem with rfl | hmem
      · have hle := le_of_step hstep
        omega
      · exact ih hmem r'

end Reader

theorem parse_of_mem_lt {b : Bytes} (hmem : c ∈ b) (hc : c.toNat < 9) :
    parse b = none := by
  refine parse_of_read ?_
  rw [read, Reader.scan_of_mem_lt hmem hc, bind_none]

/-! ### White space -/

section

variable {x : Bytes} (h : ∀ c ∈ x, isSpace c = true)

include h

theorem Reader.scan_space : Reader.init.scan x = some Reader.init := by
  induction x with
  | nil => rfl
  | cons c x ih =>
    obtain ⟨hc, hx⟩ := forall_mem_cons.mp h
    have hstep : Reader.init.step c = some Reader.init := by
      simp [Reader.init, Reader.step, Reader.stepValue, hc]
    rw [Reader.scan_cons, hstep, bind_some, ih hx]

theorem parse_space_append (b : Bytes) : parse (x ++ b) = parse b := by
  have hread : read (x ++ b) = read b := by
    rw [read, Reader.scan_append, Reader.scan_space h, bind_some, read]
  rw [parse, hread, parse]

end

/-! ### Other bytes -/

namespace Reader

/-- A value has begun: the text is inside an array, an object, a token or a string, or the value
is complete. -/
def Begun (r : Reader) : Prop :=
  r.Inside ∨ (∃ acc, r.pos = .token acc) ∨ ∃ isKey acc p, r.pos = .string isKey acc p

theorem begun_step_init (hc : isSpace c = false) (h : init.step c = some r) : r.Begun := by
  cases step_of_step h with
  | stay _ hspace => cases hc.symm.trans hspace
  | quote => exact .inr (.inr ⟨_, _, _, rfl⟩)
  | token => exact .inr (.inl ⟨_, rfl⟩)
  | complete _ h => exact .inl h.inside
  | colon hr | char hr | string hr => cases hr
  | _ => exact .inl (.inl (cons_ne_nil _ _))

theorem Begun.step (hr : r.Begun) (h : r.step c = some r') : r'.Begun := by
  cases step_of_step h with
  | stay => exact hr
  | quote | char => exact .inr (.inr ⟨_, _, _, rfl⟩)
  | token => exact .inr (.inl ⟨_, rfl⟩)
  | complete _ h | string _ _ h => exact .inl h.inside
  | colon hpos =>
    refine .inl (Inside.step (hr.resolve_right ?_) h)
    simp [hpos]
  | _ => exact .inl (.inl (cons_ne_nil _ _))

theorem Begun.scan {b : Bytes} (hr : r.Begun) (h : r.scan b = some r') : r'.Begun :=
  scan_invariant (fun _ _ _ hr h => hr.step h) hr h

/-- After anything but white space a value has begun. -/
theorem begun_of_scan_init {x : Bytes} (hx : ∃ c ∈ x, isSpace c = false)
    (h : init.scan x = some r) : r.Begun := by
  induction x with
  | nil =>
    obtain ⟨c, hc, -⟩ := hx
    cases hc
  | cons d x ih =>
    obtain ⟨r₁, h₁, h⟩ := bind_eq_some_iff.1 h
    cases hd : isSpace d with
    | false =>
      exact (begun_step_init hd h₁).scan h
    | true =>
      obtain ⟨c, hc, hspace⟩ := hx
      have hcx : c ∈ x := by
        refine (mem_cons.mp hc).resolve_left ?_
        rintro rfl
        exact absurd (hd.symm.trans hspace) Bool.noConfusion
      have hstep : init.step d = some init := by simp [init, Reader.step, stepValue, hd]
      obtain rfl := some.inj (hstep.symm.trans h₁)
      exact ih ⟨c, hcx, hspace⟩ h

/-- Where a value has begun at the top, the beginning of an object's text can only end a string. -/
theorem finish_of_begun {pos : Pos} {ms : List (Body × Value)} {d : UInt8} {b p : Bytes}
    (hbegun : Begun ⟨[], pos⟩) (hb : print (.obj ms) = 123 :: 34 :: d :: b)
    (hd : isToken d = true) (hp : p <+: print (.obj ms)) (hne : p ≠ [])
    (hscan : scan ⟨[], pos⟩ p = some r) (hv : r.finish = some v) : ∃ s, v = .str s := by
  obtain ⟨t, ht⟩ := hp
  obtain ⟨e, p, rfl⟩ := exists_cons_of_ne_nil hne
  obtain rfl : e = 123 := (cons.inj (ht.trans hb)).1
  rcases hbegun with (hstack | ⟨w, hw⟩) | ⟨acc, hacc⟩ | ⟨isKey, acc, q, hq⟩
  · exact absurd rfl hstack
  · obtain rfl : pos = .done w := hw
    cases hscan
  · obtain rfl : pos = .token acc := hacc
    rw [scan_cons, step_token_brace] at hscan
    cases hscan
  · obtain rfl : pos = .string isKey acc q := hq
    rcases scan_prefix_string hb hd ht hscan with rfl | hstring
    · cases hv
    · obtain ⟨s, -, hstring⟩ := bind_eq_some_iff.1 hstring
      cases isKey with
      | true => cases hstring
      | false =>
        cases hstring
        exact ⟨s, (some.inj hv).symm⟩

end Reader

/-- **With anything but white space in front of it, the text of an object is no object**, and
neither is the beginning of one, if its first name starts with a letter. -/
theorem parse_lead {x p b : Bytes} {ms : List (Body × Value)} {d : UInt8}
    (hx : ∃ c ∈ x, isSpace c = false) (hb : print (.obj ms) = 123 :: 34 :: d :: b)
    (hd : isToken d = true) (hp : p <+: print (.obj ms)) (hne : p ≠ [])
    (h : parse (x ++ p) = some v) : ∃ s, v = .str s := by
  have hread := (read_of_parse h).1
  rw [read, Reader.scan_append] at hread
  obtain ⟨r, hscan, hv⟩ := bind_eq_some_iff.1 hread
  obtain ⟨r₁, h₁, hscan⟩ := bind_eq_some_iff.1 hscan
  have hbegun := Reader.begun_of_scan_init hx h₁
  have hplaced := Reader.placed_init.scan h₁
  obtain ⟨stack, pos⟩ := r₁
  by_cases hstack : stack = []
  · subst hstack
    exact Reader.finish_of_begun hbegun hb hd hp hne hscan hv
  · have hend := Reader.scan_prefix_stack hstack hplaced hb hd hp hscan
    rw [Reader.finish_of_stack hend] at hv
    cases hv

/-! ### A text behind an equals sign -/

namespace Reader

/-- The reader is in a string, and not in an escape. -/
def InString (r : Reader) : Prop := ∃ isKey acc, r.pos = .string isKey acc .plain

theorem Completed.outside (h : Completed stack r) : r.Outside := by
  cases h <;> exact nofun

/-- What a byte does outside of strings: a quote begins one, the others lead to no string. -/
structure Opens (c : UInt8) (r : Reader) : Prop where
  ne : c ≠ 61 ∧ c ≠ 92
  quote : c = 34 → r.InString
  other : c ≠ 34 → r.Outside

theorem opens_of_outside {P : UInt8 → Prop} (hP : ¬ P 34 ∧ ¬ P 61 ∧ ¬ P 92) (hc : P c)
    (hr : r.Outside) : Opens c r := by
  have hne {d : UInt8} (hd : ¬ P d) : c ≠ d := by
    rintro rfl
    exact hd hc
  exact ⟨⟨hne hP.2.1, hne hP.2.2⟩, fun hquote => absurd hquote (hne hP.1), fun _ => hr⟩

theorem Outside.step (hr : r.Outside) (h : r.step c = some r') : Opens c r' := by
  cases step_of_step h with
  | stay _ hc => exact opens_of_outside (P := (isSpace · = true)) (by decide) hc hr
  | token _ _ hc => exact opens_of_outside (P := (isToken · = true)) (by decide) hc nofun
  | quote _ _ _ hc => exact ⟨by rw [hc]; decide, fun _ => ⟨_, _, rfl⟩, fun hne => absurd hc hne⟩
  | complete hc h =>
    exact opens_of_outside (P := fun c => isSpace c = true ∨ c = 93 ∨ c = 125) (by decide) hc
      h.outside
  | char hpos | name hpos | string hpos => exact absurd hpos (hr _ _ _)
  | object hc | array hc | colon _ hc | item _ _ hc | member _ _ hc =>
    exact opens_of_outside (P := (· = _)) (by decide) hc nofun

theorem InString.step (hr : r.InString) (h : r.step c = some r') :
    (c = 34 → r'.Outside) ∧ (c ≠ 34 → c ≠ 92 → r'.InString) := by
  obtain ⟨stack, pos⟩ := r
  obtain ⟨isKey, acc, rfl⟩ : ∃ isKey acc, pos = .string isKey acc .plain := hr
  simp only [Reader.step] at h
  split_ifs at h with hc
  · refine ⟨fun _ => ?_, fun hne => absurd hc.2 hne⟩
    obtain ⟨s, -, h⟩ := bind_eq_some_iff.1 h
    split_ifs at h
    · split at h <;> cases h
      intro _ _ _ hpos
      cases hpos
    · exact (completed h).outside
  · obtain ⟨q, hq, rfl⟩ := map_eq_some_iff.1 h
    refine ⟨fun hquote => absurd ⟨trivial, hquote⟩ hc, fun _ hesc => ⟨isKey, acc ++ [c], ?_⟩⟩
    simp only [BodyPos.step, if_neg hesc] at hq
    split_ifs at hq
    cases hq
    rfl

/-- An equals sign stands in a string. -/
theorem inString_of_equals (h : r.step 61 = some r') : r'.InString := by
  obtain ⟨stack, pos⟩ := r
  by_cases hr : Outside ⟨stack, pos⟩
  · exact absurd rfl (hr.step h).ne.1
  · simp only [Outside, not_forall, not_not] at hr
    obtain ⟨isKey, acc, p, rfl⟩ := hr
    simp only [Reader.step] at h
    rw [if_neg fun hc => absurd hc.2 (by decide)] at h
    obtain ⟨q, hq, rfl⟩ := map_eq_some_iff.1 h
    cases p with
    | plain =>
      cases hq
      exact ⟨isKey, _, rfl⟩
    | esc => cases hq
    | hex n => cases n <;> cases hq

/-- One of two readers of a text is in a string, and the other is not. -/
theorem scan_opposite {b : Bytes} {r₁ r₁' : Reader} (hr : r.InString ∧ r₁.Outside)
    (h : r.scan b = some r') (h₁ : r₁.scan b = some r₁') :
    r'.InString ∧ r₁'.Outside ∨ r'.Outside ∧ r₁'.InString := by
  have hflip (r r₁ : Reader) (c : UInt8) {r' r₁' : Reader} (hr : r.InString ∧ r₁.Outside)
      (h : r.step c = some r') (h₁ : r₁.step c = some r₁') :
      r'.InString ∧ r₁'.Outside ∨ r'.Outside ∧ r₁'.InString := by
    have hin := hr.1.step h
    have hout := hr.2.step h₁
    by_cases hc : c = 34
    · exact .inr ⟨hin.1 hc, hout.quote hc⟩
    · exact .inl ⟨hin.2 hc hout.ne.2, hout.other hc⟩
  replace hr : r.InString ∧ r₁.Outside ∨ r.Outside ∧ r₁.InString := .inl hr
  induction b generalizing r r₁ with
  | nil =>
    cases h
    cases h₁
    exact hr
  | cons c b ih =>
    obtain ⟨r₂, h₂, h⟩ := bind_eq_some_iff.1 h
    obtain ⟨r₃, h₃, h₁⟩ := bind_eq_some_iff.1 h₁
    refine ih h h₁ ?_
    rcases hr with hr | hr
    · exact hflip r r₁ c hr h₂ h₃
    · exact (hflip r₁ r c hr.symm h₃ h₂).symm.imp And.symm And.symm

theorem outside_of_finish (h : r.finish = some v) : r.Outside := by
  unfold finish at h
  split at h
  · exact nofun
  · exact nofun
  · cases h

end Reader

/-- **No text is another text behind an equals sign.**  The equals sign stands in a string, and the
quotes that end the strings of the one begin those of the other. -/
theorem print_ne_append_print (z : Bytes) (v w : Value) : print v ≠ z ++ 61 :: print w := by
  intro heq
  have hv := read_print v
  rw [heq, read, Reader.scan_append] at hv
  obtain ⟨r, hscan, hfinish⟩ := bind_eq_some_iff.1 hv
  obtain ⟨r₁, -, hscan⟩ := bind_eq_some_iff.1 hscan
  obtain ⟨r₂, h₂, hscan⟩ := bind_eq_some_iff.1 hscan
  obtain ⟨r₃, h₃, hfinish'⟩ := bind_eq_some_iff.1 (read_print w)
  have hinit : Reader.init.Outside := by
    intro _ _ _ hpos
    cases hpos
  rcases Reader.scan_opposite ⟨Reader.inString_of_equals h₂, hinit⟩ hscan h₃ with h | h
  · obtain ⟨isKey, acc, hpos⟩ := h.1
    exact Reader.outside_of_finish hfinish _ _ _ hpos
  · obtain ⟨isKey, acc, hpos⟩ := h.2
    exact Reader.outside_of_finish hfinish' _ _ _ hpos

/-! ### Short texts -/

theorem Reader.ofToken_short {acc : Bytes} (hlen : acc.length < 4)
    (h : Reader.ofToken acc = some v) : ∃ n, v = .num n := by
  have hne {l : Bytes} (hl : 4 ≤ l.length) : acc ≠ l := by
    rintro rfl
    omega
  rw [Reader.ofToken, if_neg (hne (by decide)), if_neg (hne (by decide)),
    if_neg (hne (by decide))] at h
  split_ifs at h with hvalid
  exact ⟨⟨acc, hvalid⟩, (some.inj h).symm⟩

theorem read_one (h : read [c] = some v) : ∃ n, v = .num n := by
  obtain ⟨r, hscan, hv⟩ := bind_eq_some_iff.1 h
  obtain ⟨r₁, h₁, hscan⟩ := bind_eq_some_iff.1 hscan
  cases hscan
  simp only [Reader.init, Reader.step, Reader.stepValue] at h₁
  split_ifs at h₁ <;> cases h₁
  · cases hv
  · cases hv
  · cases hv
  · cases hv
  · exact Reader.ofToken_short (by simp) hv

/-- A text of two bytes is the empty object, the empty array, the empty string or a number. -/
theorem parse_two {d : UInt8} (h : parse [c, d] = some v) :
    (c = 123 ∧ d = 125) ∨ v = .arr [] ∨ (∃ s, v = .str s) ∨ ∃ n, v = .num n := by
  obtain ⟨r, hscan, hv⟩ := bind_eq_some_iff.1 (read_of_parse h).1
  obtain ⟨r₁, h₁, hscan⟩ := bind_eq_some_iff.1 hscan
  obtain ⟨r₂, h₂, hscan⟩ := bind_eq_some_iff.1 hscan
  cases hscan
  simp only [Reader.init, Reader.step, Reader.stepValue] at h₁
  split_ifs at h₁ with _ hbrace <;> cases h₁
  · -- white space, then a text of one byte
    have hone : read [d] = some v := by
      rw [← hv]
      exact (congrArg (fun o => (Option.bind o some).bind Reader.finish) h₂).trans rfl
    exact .inr (.inr (.inr (read_one hone)))
  · simp only [Reader.step] at h₂
    split_ifs at h₂ with hs hclose
    · cases h₂
      cases hv
    · exact .inl ⟨hbrace, hclose⟩
    · cases h₂
      cases hv
  · simp only [Reader.step] at h₂
    split_ifs at h₂ with hs hclose
    · cases h₂
      cases hv
    · subst hclose
      cases h₂
      exact .inr (.inl (some.inj hv).symm)
    · rw [Reader.stepValue] at h₂
      split_ifs at h₂ <;> cases h₂ <;> cases hv
  · simp only [Reader.step] at h₂
    split_ifs at h₂
    · obtain ⟨s, -, h₂⟩ := bind_eq_some_iff.1 h₂
      cases h₂
      exact .inr (.inr (.inl ⟨s, (some.inj hv).symm⟩))
    · obtain ⟨q, -, rfl⟩ := map_eq_some_iff.1 h₂
      cases hv
  · simp only [Reader.step] at h₂
    split_ifs at h₂
    · cases h₂
      exact .inr (.inr (.inr (Reader.ofToken_short (by simp) hv)))
    · obtain ⟨w, hw, h₂⟩ := bind_eq_some_iff.1 h₂
      rw [Reader.complete, bind_some, Reader.stepAfter] at h₂
      split_ifs at h₂
      cases h₂
      obtain rfl : w = v := some.inj hv
      exact .inr (.inr (.inr (Reader.ofToken_short (by simp) hw)))

end K8s4Claw.Lib.Json
