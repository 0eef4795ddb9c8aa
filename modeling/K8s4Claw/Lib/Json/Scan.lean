/-
# Reading JSON

A JSON text is read one byte at a time, as the scanner of Go's `encoding/json`
does: the state is a stack of the arrays and objects that are still open and the
place inside the innermost one.  So reading `a ++ b` is reading `b` from where
reading `a` ended, and what a cut text does can be said of the state it ends in.

`read` has no limit on how deep values may be nested, `parse` has that of
`encoding/json`.  `parse_print`: a value within the limit is read back from its text.
`parse_of_prefix_append`: the beginning of an object's text followed by another such
text is no JSON text, and neither is the beginning alone (`parse_of_prefix`).
-/

import K8s4Claw.Lib.Json.Value
import Mathlib.Data.List.Infix

namespace K8s4Claw.Lib.Json

open List Option

def isSpace (c : UInt8) : Bool := c = 32 || c = 9 || c = 10 || c = 13

/-- An array or object that is still open: its items or members so far, and for
`field` the name of the member whose value is being read. -/
inductive Frame where
  | arr (vs : List Value)
  | obj (ms : List (Body × Value))
  | field (ms : List (Body × Value)) (k : Body)

/-- The place inside the innermost open array or object. -/
inductive Pos where
  | value
  | valueOrClose
  | keyOrClose
  | key
  | colon
  | next
  | token (acc : Bytes)
  | string (isKey : Bool) (acc : Bytes) (p : BodyPos)
  | done (v : Value)

/-- The state of the reader. -/
structure Reader where
  stack : List Frame
  pos : Pos

namespace Reader

def init : Reader := ⟨[], .value⟩

/-- The value `v` was read, with `stack` around it. -/
def complete : List Frame → Value → Option Reader
  | [], v => some ⟨[], .done v⟩
  | .arr vs :: stack, v => some ⟨.arr (vs ++ [v]) :: stack, .next⟩
  | .field ms k :: stack, v => some ⟨.obj (ms ++ [(k, v)]) :: stack, .next⟩
  | .obj _ :: _, _ => none

/-- A string was read; as a key it names the next member. -/
def completeString (stack : List Frame) (isKey : Bool) (acc : Bytes) : Option Reader :=
  (Body.ofBytes acc).bind fun s =>
    if isKey then
      match stack with
      | .obj ms :: stack => some ⟨.field ms s :: stack, .colon⟩
      | _ => none
    else complete stack (.str s)

/-- The value of a token. -/
def ofToken (acc : Bytes) : Option Value :=
  if acc = [110, 117, 108, 108] then some .null
  else if acc = [116, 114, 117, 101] then some (.bool true)
  else if acc = [102, 97, 108, 115, 101] then some (.bool false)
  else if h : validNumber acc = true then some (.num ⟨acc, h⟩) else none

/-- The first byte of a value. -/
def stepValue (stack : List Frame) (c : UInt8) : Option Reader :=
  if isSpace c then some ⟨stack, .value⟩
  else if c = 123 then some ⟨.obj [] :: stack, .keyOrClose⟩
  else if c = 91 then some ⟨.arr [] :: stack, .valueOrClose⟩
  else if c = 34 then some ⟨stack, .string false [] .plain⟩
  else if isToken c then some ⟨stack, .token [c]⟩
  else none

/-- A byte after a value, inside the innermost array or object. -/
def stepNext (stack : List Frame) (c : UInt8) : Option Reader :=
  if isSpace c then some ⟨stack, .next⟩
  else match stack with
    | .arr vs :: rest =>
        if c = 44 then some ⟨stack, .value⟩ else if c = 93 then complete rest (.arr vs) else none
    | .obj ms :: rest =>
        if c = 44 then some ⟨stack, .key⟩ else if c = 125 then complete rest (.obj ms) else none
    | _ => none

/-- A byte after a value that was just completed. -/
def stepAfter : Reader → UInt8 → Option Reader
  | ⟨stack, .next⟩, c => stepNext stack c
  | ⟨stack, .done v⟩, c => if isSpace c then some ⟨stack, .done v⟩ else none
  | _, _ => none

def step : Reader → UInt8 → Option Reader
  | ⟨stack, .value⟩, c => stepValue stack c
  | ⟨stack, .valueOrClose⟩, c =>
      if isSpace c then some ⟨stack, .valueOrClose⟩
      else if c = 93 then stepNext stack c else stepValue stack c
  | ⟨stack, .keyOrClose⟩, c =>
      if isSpace c then some ⟨stack, .keyOrClose⟩
      else if c = 125 then stepNext stack c
      else if c = 34 then some ⟨stack, .string true [] .plain⟩ else none
  | ⟨stack, .key⟩, c =>
      if isSpace c then some ⟨stack, .key⟩
      else if c = 34 then some ⟨stack, .string true [] .plain⟩ else none
  | ⟨stack, .colon⟩, c =>
      if isSpace c then some ⟨stack, .colon⟩ else if c = 58 then some ⟨stack, .value⟩ else none
  | ⟨stack, .token acc⟩, c =>
      if isToken c then some ⟨stack, .token (acc ++ [c])⟩
      else (ofToken acc).bind fun v => (complete stack v).bind fun r => r.stepAfter c
  | ⟨stack, .string isKey acc p⟩, c =>
      if p = .plain ∧ c = 34 then completeString stack isKey acc
      else (p.step c).map fun q => ⟨stack, .string isKey (acc ++ [c]) q⟩
  | r, c => r.stepAfter c

def scan (r : Reader) (b : Bytes) : Option Reader := b.foldlM step r

/-- The value read, if the text may end here. -/
def finish : Reader → Option Value
  | ⟨[], .done v⟩ => some v
  | ⟨[], .token acc⟩ => ofToken acc
  | _ => none

end Reader

/-- The value of a JSON text, however deep it is nested. -/
def read (b : Bytes) : Option Value := (Reader.init.scan b).bind Reader.finish

/-- `maxNestingDepth` of `encoding/json`. -/
def maxNestingDepth : ℕ := 10000

/-- The value of a JSON text.  The scanner of `encoding/json` gives up when more arrays and objects
are open than the limit, and it scans the whole text before any of it is decoded: so the text of a
value that is nested deeper is an error, and no other text. -/
def parse (b : Bytes) : Option Value := (read b).filter fun v => depth v ≤ maxNestingDepth

namespace Reader

theorem scan_nil (r : Reader) : r.scan [] = some r := rfl

theorem scan_cons (r : Reader) (c : UInt8) (b : Bytes) :
    r.scan (c :: b) = (r.step c).bind fun r => r.scan b := rfl

theorem scan_append (r : Reader) (a b : Bytes) :
    r.scan (a ++ b) = (r.scan a).bind fun r => r.scan b :=
  foldlM_append

/-- What every byte keeps, a text keeps. -/
theorem scan_invariant {I : Reader → Prop} (hI : ∀ r c r', I r → r.step c = some r' → I r')
    {r r' : Reader} {b : Bytes} (hr : I r) (h : r.scan b = some r') : I r' := by
  induction b generalizing r with
  | nil =>
    cases h
    exact hr
  | cons c b ih =>
    obtain ⟨r₁, h₁, h⟩ := bind_eq_some_iff.1 h
    exact ih (hI r c r₁ hr h₁) h

/-! ### Reading a text back -/

/-- `r` is the reader after the text of `v`, with `stack` around it: whatever ends the
text finds `v` completed. -/
structure Ends (stack : List Frame) (v : Value) (r : Reader) : Prop where
  step : ∀ c, isToken c = false → r.step c = (complete stack v).bind fun r => r.stepAfter c
  finish : stack = [] → r.finish = some v

/-- A value may be read here: the innermost object, if it is an object, has a name for
it. -/
def Open : List Frame → Prop
  | .obj _ :: _ => False
  | _ => True

variable {stack : List Frame}

theorem ends_complete (h : Open stack) (v : Value) :
    ∃ r, complete stack v = some r ∧ Ends stack v r := by
  match stack with
  | [] => exact ⟨_, rfl, fun _ _ => rfl, fun _ => rfl⟩
  | .arr vs :: _ => exact ⟨_, rfl, fun _ _ => rfl, nofun⟩
  | .field ms k :: _ => exact ⟨_, rfl, fun _ _ => rfl, nofun⟩

theorem ends_token {acc : Bytes} {v : Value} (h : ofToken acc = some v) :
    Ends stack v ⟨stack, .token acc⟩ where
  step c hc := by simp [Reader.step, hc, h]
  finish hs := by
    subst hs
    exact h

theorem ne_of_isToken {c : UInt8} (h : isToken c = true) :
    isSpace c = false ∧ c ≠ 123 ∧ c ≠ 91 ∧ c ≠ 93 ∧ c ≠ 34 := by
  refine ⟨?_, ?_, ?_, ?_, ?_⟩
  · by_contra hs
    simp only [isSpace, Bool.not_eq_false, Bool.or_eq_true, decide_eq_true_eq] at hs
    rcases hs with ((rfl | rfl) | rfl) | rfl <;> exact absurd h (by decide)
  all_goals
    rintro rfl
    exact absurd h (by decide)

theorem scan_token {acc l : Bytes} (h : ∀ c ∈ l, isToken c = true) :
    scan ⟨stack, .token acc⟩ l = some ⟨stack, .token (acc ++ l)⟩ := by
  induction l generalizing acc with
  | nil => rw [append_nil, scan_nil]
  | cons c l ih =>
    have hc : step ⟨stack, .token acc⟩ c = some ⟨stack, .token (acc ++ [c])⟩ := by
      simp [step, h c (by simp)]
    rw [scan_cons, hc, bind_some, ih fun d hd => h d (mem_cons_of_mem c hd), append_assoc]
    rfl

theorem scan_scalar {l : Bytes} {v : Value} (hl : l ≠ []) (h : ∀ c ∈ l, isToken c = true)
    (hv : ofToken l = some v) : ∃ r, scan ⟨stack, .value⟩ l = some r ∧ Ends stack v r := by
  obtain ⟨c, l, rfl⟩ := exists_cons_of_ne_nil hl
  have hc := h c (by simp)
  obtain ⟨h₁, h₂, h₃, -, h₄⟩ := ne_of_isToken hc
  have hstep : step ⟨stack, .value⟩ c = some ⟨stack, .token [c]⟩ := by
    simp [step, stepValue, h₁, h₂, h₃, h₄, hc]
  refine ⟨_, ?_, ends_token hv⟩
  rw [scan_cons, hstep, bind_some, scan_token fun d hd => h d (mem_cons_of_mem c hd)]
  rfl

theorem ofToken_text (n : Number) : ofToken n.text = some (.num n) := by
  have hne {l : Bytes} (hl : validNumber l = false) : n.text ≠ l := by
    rintro rfl
    exact absurd (hl.symm.trans n.valid) Bool.false_ne_true
  rw [ofToken, if_neg (hne (by decide)), if_neg (hne (by decide)), if_neg (hne (by decide)),
    dif_pos n.valid]

theorem scan_body {isKey : Bool} {acc b : Bytes} {p q : BodyPos} (h : bodyRun p b = some q) :
    scan ⟨stack, .string isKey acc p⟩ b = some ⟨stack, .string isKey (acc ++ b) q⟩ := by
  induction b generalizing acc p with
  | nil =>
    cases h
    rw [append_nil, scan_nil]
  | cons c b ih =>
    obtain ⟨r, hr, h⟩ := bind_eq_some_iff.1 h
    have hq : ¬(p = .plain ∧ c = 34) := by
      rintro ⟨rfl, rfl⟩
      simp [BodyPos.step] at hr
    have hstep : step ⟨stack, .string isKey acc p⟩ c =
        some ⟨stack, .string isKey (acc ++ [c]) r⟩ := by
      simp [step, hq, hr]
    rw [scan_cons, hstep, bind_some, ih h, append_assoc]
    rfl

theorem scan_string {isKey : Bool} (s : Body) :
    scan ⟨stack, .string isKey [] .plain⟩ (s.text ++ [34]) =
      completeString stack isKey s.text := by
  rw [scan_append, scan_body s.bodyRun_text, bind_some]
  exact bind_fun_some _

theorem completeString_text (s : Body) :
    completeString stack false s.text = complete stack (.str s) := by
  simp [completeString, Body.ofBytes_text]

theorem exists_print_eq_cons (v : Value) :
    ∃ c b, print v = c :: b ∧ isSpace c = false ∧ c ≠ 93 := by
  cases v with
  | bool b => cases b <;> exact ⟨_, _, rfl, by decide, by decide⟩
  | num n =>
    obtain ⟨c, l, hl⟩ : ∃ c l, n.text = c :: l := by
      refine exists_cons_of_ne_nil fun h => ?_
      have hv := n.valid
      rw [h] at hv
      exact absurd hv (by decide)
    obtain ⟨h₁, -, -, h₂, -⟩ := ne_of_isToken (n.isToken_of_mem (c := c) (by simp [hl]))
    exact ⟨c, l, hl, h₁, h₂⟩
  | _ => exact ⟨_, _, rfl, by decide, by decide⟩

/-- The text of `v` can be read wherever a value can. -/
def ReadsBack (v : Value) : Prop :=
  ∀ stack, Open stack → ∃ r, scan ⟨stack, .value⟩ (print v) = some r ∧ Ends stack v r

theorem scan_items {vs : List Value} (hvs : vs ≠ []) (ih : ∀ v ∈ vs, ReadsBack v)
    (us : List Value) :
    scan ⟨.arr us :: stack, .value⟩ (printItems vs ++ [93]) = complete stack (.arr (us ++ vs)) := by
  induction vs generalizing us with
  | nil => exact absurd rfl hvs
  | cons v vs ihv =>
    obtain ⟨r, hr, hend⟩ := ih v (by simp) (.arr us :: stack) trivial
    cases vs with
    | nil =>
      rw [printItems, scan_append, hr, bind_some, scan_cons, hend.step 93 (by decide)]
      exact bind_fun_some _
    | cons =>
      have hcomma : r.step 44 = some ⟨.arr (us ++ [v]) :: stack, .value⟩ := by
        rw [hend.step 44 (by decide)]
        rfl
      rw [printItems, append_assoc, scan_append, hr, bind_some, cons_append,
        scan_cons, hcomma, bind_some,
        ihv (by simp) (fun u hu => ih u (mem_cons_of_mem v hu)), append_assoc]
      · rfl
      · simp

theorem scan_name {ns : List (Body × Value)} (k : Body) (b : Bytes) :
    scan ⟨.obj ns :: stack, .key⟩ (quoted k ++ 58 :: b) =
      scan ⟨.field ns k :: stack, .value⟩ b := by
  have hopen : step ⟨.obj ns :: stack, .key⟩ 34 =
      some ⟨.obj ns :: stack, .string true [] .plain⟩ := rfl
  have hclose : completeString (.obj ns :: stack) true k.text =
      some ⟨.field ns k :: stack, .colon⟩ := by
    simp [completeString, Body.ofBytes_text]
  rw [quoted, cons_append, scan_cons, hopen, bind_some, scan_append, scan_string, hclose, bind_some]
  rfl

theorem scan_members {ms : List (Body × Value)} (hms : ms ≠ []) (ih : ∀ m ∈ ms, ReadsBack m.2)
    (ns : List (Body × Value)) :
    scan ⟨.obj ns :: stack, .key⟩ (printMembers ms ++ [125]) =
      complete stack (.obj (ns ++ ms)) := by
  induction ms generalizing ns with
  | nil => exact absurd rfl hms
  | cons m ms ihm =>
    obtain ⟨k, v⟩ := m
    obtain ⟨r, hr, hend⟩ := ih (k, v) (by simp) (.field ns k :: stack) trivial
    cases ms with
    | nil =>
      rw [printMembers, append_assoc, cons_append, scan_name, scan_append, hr,
        bind_some, scan_cons, hend.step 125 (by decide)]
      exact bind_fun_some _
    | cons =>
      have hcomma : r.step 44 = some ⟨.obj (ns ++ [(k, v)]) :: stack, .key⟩ := by
        rw [hend.step 44 (by decide)]
        rfl
      rw [printMembers, append_assoc, append_assoc, cons_append, scan_name,
        scan_append, hr, bind_some, cons_append, scan_cons, hcomma,
        bind_some, ihm (by simp) (fun u hu => ih u (mem_cons_of_mem _ hu)),
        append_assoc]
      · rfl
      · simp

theorem scan_valueOrClose (v : Value) (vs : List Value) :
    scan ⟨stack, .valueOrClose⟩ (printItems (v :: vs) ++ [93]) =
      scan ⟨stack, .value⟩ (printItems (v :: vs) ++ [93]) := by
  obtain ⟨c, b, hb, hspace, hclose⟩ := exists_print_eq_cons v
  obtain ⟨t, ht⟩ : ∃ t, printItems (v :: vs) = c :: t := by
    cases vs with
    | nil => exact ⟨b, hb⟩
    | cons => exact ⟨_, by rw [printItems, hb, cons_append]; simp⟩
  rw [ht, cons_append, scan_cons, scan_cons]
  simp only [step, hspace, hclose, if_false, Bool.false_eq_true]

theorem scan_keyOrClose (m : Body × Value) (ms : List (Body × Value)) :
    scan ⟨stack, .keyOrClose⟩ (printMembers (m :: ms) ++ [125]) =
      scan ⟨stack, .key⟩ (printMembers (m :: ms) ++ [125]) := by
  obtain ⟨t, ht⟩ : ∃ t, printMembers (m :: ms) = 34 :: t := by
    cases ms with
    | nil => exact ⟨_, by rw [printMembers, quoted, cons_append]⟩
    | cons => exact ⟨_, by rw [printMembers, quoted, cons_append, cons_append]; simp⟩
  rw [ht]
  rfl

theorem scan_arr {vs : List Value} (h : ∀ v ∈ vs, ReadsBack v) (stack : List Frame) :
    scan ⟨stack, .value⟩ (print (.arr vs)) = complete stack (.arr vs) := by
  cases vs with
  | nil => exact bind_fun_some _
  | cons v vs => exact (scan_valueOrClose v vs).trans (scan_items (cons_ne_nil v vs) h [])

theorem scan_obj {ms : List (Body × Value)} (h : ∀ m ∈ ms, ReadsBack m.2) (stack : List Frame) :
    scan ⟨stack, .value⟩ (print (.obj ms)) = complete stack (.obj ms) := by
  cases ms with
  | nil => exact bind_fun_some _
  | cons m ms => exact (scan_keyOrClose m ms).trans (scan_members (cons_ne_nil m ms) h [])

/-- **Every value is read back from its text.** -/
theorem readsBack (v : Value) : ReadsBack v := by
  induction v using Value.ind with
  | null => exact fun stack _ => scan_scalar (by decide +kernel) (by decide +kernel) rfl
  | bool b =>
    intro stack _
    cases b
    · exact scan_scalar (by decide +kernel) (by decide +kernel) rfl
    · exact scan_scalar (by decide +kernel) (by decide +kernel) rfl
  | num n =>
    intro stack _
    obtain ⟨c, l, hl, -⟩ := exists_print_eq_cons (.num n)
    have hne : n.text ≠ [] := by
      rw [show n.text = c :: l from hl]
      exact cons_ne_nil c l
    exact scan_scalar hne (fun c hc => n.isToken_of_mem hc) (ofToken_text n)
  | str s =>
    intro stack hopen
    obtain ⟨r, hr, hend⟩ := ends_complete hopen (.str s)
    refine ⟨r, ?_, hend⟩
    rw [← hr, ← completeString_text, ← scan_string]
    rfl
  | arr vs ih =>
    intro stack hopen
    obtain ⟨r, hr, hend⟩ := ends_complete hopen (.arr vs)
    exact ⟨r, (scan_arr ih stack).trans hr, hend⟩
  | obj ms ih =>
    intro stack hopen
    obtain ⟨r, hr, hend⟩ := ends_complete hopen (.obj ms)
    exact ⟨r, (scan_obj ih stack).trans hr, hend⟩

end Reader

theorem read_print (v : Value) : read (print v) = some v := by
  obtain ⟨r, hr, hend⟩ := Reader.readsBack v [] trivial
  rw [read, Reader.init, hr, bind_some, hend.finish rfl]

/-- **The text of a value is read back as it, unless it is nested too deep.** -/
theorem parse_print (v : Value) :
    parse (print v) = if depth v ≤ maxNestingDepth then some v else none := by
  rw [parse, read_print, Option.filter_some]
  simp only [decide_eq_true_eq]

theorem parse_print_of_le {v : Value} (h : depth v ≤ maxNestingDepth) :
    parse (print v) = some v := by
  rw [parse_print, if_pos h]

theorem parse_of_read {b : Bytes} (h : read b = none) : parse b = none := by
  rw [parse, h, filter_none]

theorem read_of_parse {b : Bytes} {v : Value} (h : parse b = some v) :
    read b = some v ∧ depth v ≤ maxNestingDepth := by
  rw [parse, Option.filter_eq_some_iff] at h
  exact ⟨h.1, of_decide_eq_true h.2⟩

theorem print_injective : Function.Injective print := by
  intro v w h
  exact some.inj ((read_print v).symm.trans ((congrArg read h).trans (read_print w)))

instance : DecidableEq Value := fun v w =>
  decidable_of_iff (print v = print w) print_injective.eq_iff

/-! ### What a byte does -/

namespace Reader

variable {stack : List Frame} {v : Value} {r r' : Reader} {c : UInt8} {isKey : Bool}
  {acc b p t : Bytes} {ms : List (Body × Value)}

/-- The reader is not in a string. -/
def Outside (r : Reader) : Prop := ∀ isKey acc p, r.pos ≠ .string isKey acc p

/-- The reader after a value with `stack` around it. -/
inductive Completed : List Frame → Reader → Prop where
  | done (v : Value) : Completed [] ⟨[], .done v⟩
  | next (frame frame' : Frame) (rest : List Frame) :
      Completed (frame :: rest) ⟨frame' :: rest, .next⟩

theorem completed (h : complete stack v = some r) : Completed stack r := by
  match stack, h with
  | [], rfl => exact .done v
  | .arr _ :: _, rfl => exact .next ..
  | .field _ _ :: _, rfl => exact .next ..

/-- What one byte does to the reader. -/
inductive Step (r : Reader) (c : UInt8) : Reader → Prop where
  | stay (hr : r.Outside) (hc : isSpace c = true) : Step r c r
  | object (hc : c = 123) : Step r c ⟨.obj [] :: r.stack, .keyOrClose⟩
  | array (hc : c = 91) : Step r c ⟨.arr [] :: r.stack, .valueOrClose⟩
  | quote (isKey : Bool) (hr : r.Outside) (hdone : ∀ v, r.pos ≠ .done v) (hc : c = 34) :
      Step r c ⟨r.stack, .string isKey [] .plain⟩
  | token (acc : Bytes) (hdone : ∀ v, r.pos ≠ .done v) (hc : isToken c = true) :
      Step r c ⟨r.stack, .token acc⟩
  | colon (hr : r.pos = .colon) (hc : c = 58) : Step r c ⟨r.stack, .value⟩
  | item (vs : List Value) (stack : List Frame) (hc : c = 44) : Step r c ⟨.arr vs :: stack, .value⟩
  | member (ms : List (Body × Value)) (stack : List Frame) (hc : c = 44) :
      Step r c ⟨.obj ms :: stack, .key⟩
  | complete {stack : List Frame} {r' : Reader} (hc : isSpace c = true ∨ c = 93 ∨ c = 125)
      (h : Completed stack r') : Step r c r'
  | char {isKey : Bool} {acc : Bytes} {p q : BodyPos} (hr : r.pos = .string isKey acc p)
      (hp : p.step c = some q) : Step r c ⟨r.stack, .string isKey (acc ++ [c]) q⟩
  | name {acc : Bytes} {ms : List (Body × Value)} {s : Body} {stack : List Frame}
      (hr : r.pos = .string true acc .plain) (hc : c = 34) : Step r c ⟨.field ms s :: stack, .colon⟩
  | string {acc : Bytes} {stack : List Frame} {r' : Reader}
      (hr : r.pos = .string false acc .plain) (hc : c = 34) (h : Completed stack r') : Step r c r'

theorem step_stepValue {pos : Pos} (hr : Outside ⟨stack, pos⟩) (hdone : ∀ v, pos ≠ .done v)
    (hspace : isSpace c = true → pos = .value) (h : stepValue stack c = some r') :
    Step ⟨stack, pos⟩ c r' := by
  unfold stepValue at h
  split_ifs at h with hc hobj harr hquote htoken <;> cases h
  · obtain rfl := hspace hc
    exact .stay hr hc
  · exact .object hobj
  · exact .array harr
  · exact .quote false hr hdone hquote
  · exact .token [c] hdone htoken

theorem step_stepAfter (r₁ : Reader) (hspace : isSpace c = true → Step r c r₁)
    (h : r₁.stepAfter c = some r') : Step r c r' := by
  unfold stepAfter at h
  split at h
  · unfold stepNext at h
    split at h
    · next hc =>
      cases h
      exact hspace hc
    · split at h
      · split_ifs at h with hcomma hclose
        · cases h
          exact .item _ _ hcomma
        · exact .complete (.inr (.inl hclose)) (completed h)
      · split_ifs at h with hcomma hclose
        · cases h
          exact .member _ _ hcomma
        · exact .complete (.inr (.inr hclose)) (completed h)
      · cases h
  · split_ifs at h with hc
    cases h
    exact hspace hc
  · cases h

/-- **Every byte does one of these things.** -/
theorem step_of_step (h : r.step c = some r') : Step r c r' := by
  obtain ⟨stack, pos⟩ := r
  cases pos with
  | value => exact step_stepValue nofun nofun (fun _ => rfl) h
  | valueOrClose =>
    simp only [step] at h
    split_ifs at h with hc hclose
    · cases h
      exact .stay nofun hc
    · exact step_stepAfter ⟨stack, .next⟩ (fun hspace => absurd hspace hc) h
    · exact step_stepValue nofun nofun (fun hspace => absurd hspace hc) h
  | keyOrClose =>
    simp only [step] at h
    split_ifs at h with hc hclose hquote
    · cases h
      exact .stay nofun hc
    · exact step_stepAfter ⟨stack, .next⟩ (fun hspace => absurd hspace hc) h
    · cases h
      exact .quote true nofun nofun hquote
  | key =>
    simp only [step] at h
    split_ifs at h with hc hquote <;> cases h
    · exact .stay nofun hc
    · exact .quote true nofun nofun hquote
  | colon =>
    simp only [step] at h
    split_ifs at h with hc hcolon <;> cases h
    · exact .stay nofun hc
    · exact .colon rfl hcolon
  | next => exact step_stepAfter ⟨stack, .next⟩ (.stay nofun) h
  | done v => exact step_stepAfter ⟨stack, .done v⟩ (.stay nofun) h
  | token acc =>
    simp only [step] at h
    split_ifs at h with hc
    · cases h
      exact .token _ nofun hc
    · obtain ⟨v, -, h⟩ := bind_eq_some_iff.1 h
      obtain ⟨r₁, h₁, h⟩ := bind_eq_some_iff.1 h
      exact step_stepAfter _ (fun hspace => .complete (.inl hspace) (completed h₁)) h
  | string isKey acc p =>
    simp only [step] at h
    split_ifs at h with hc
    · obtain ⟨rfl, hquote⟩ := hc
      obtain ⟨s, -, h⟩ := bind_eq_some_iff.1 h
      cases isKey with
      | true =>
        rw [if_pos rfl] at h
        split at h <;> cases h
        exact .name rfl hquote
      | false => exact .string rfl hquote (completed h)
    · obtain ⟨q, hq, rfl⟩ := map_eq_some_iff.1 h
      exact .char rfl hq

/-! ### Cut texts -/

/-- The text is inside an array or object, or its value is complete. -/
def Inside (r : Reader) : Prop := r.stack ≠ [] ∨ ∃ v, r.pos = .done v

theorem Completed.inside (h : Completed stack r) : r.Inside := by
  cases h with
  | done v => exact .inr ⟨v, rfl⟩
  | next => exact .inl (cons_ne_nil _ _)

/-- **Once inside, a text stays inside until its value is complete.** -/
theorem Inside.step (hr : r.Inside) (h : r.step c = some r') : r'.Inside := by
  have hstack (hpos : ∀ v, r.pos ≠ .done v) : r.stack ≠ [] :=
    hr.resolve_right fun ⟨v, hv⟩ => hpos v hv
  cases step_of_step h with
  | stay => exact hr
  | quote _ _ hdone | token _ hdone => exact .inl (hstack hdone)
  | colon hpos | char hpos => exact .inl (hstack (by simp [hpos]))
  | complete _ h | string _ _ h => exact h.inside
  | _ => exact .inl (cons_ne_nil _ _)

theorem Inside.scan (hr : r.Inside) (h : r.scan b = some r') : r'.Inside :=
  scan_invariant (fun _ _ _ hr h => hr.step h) hr h

/-- Where a value is to be read, one may be read. -/
def Placed (r : Reader) : Prop :=
  match r.pos with
  | .value | .valueOrClose | .colon => Open r.stack
  | _ => True

theorem Completed.placed (h : Completed stack r) : r.Placed := by
  cases h <;> trivial

theorem Placed.step (hr : r.Placed) (h : r.step c = some r') : r'.Placed := by
  cases step_of_step h with
  | stay => exact hr
  | colon hpos => simpa only [Placed, hpos] using hr
  | complete _ h | string _ _ h => exact h.placed
  | _ => trivial

theorem Placed.scan (hr : r.Placed) (h : r.scan b = some r') : r'.Placed :=
  scan_invariant (fun _ _ _ hr h => hr.step h) hr h

theorem placed_init : init.Placed := trivial

theorem step_of_complete (h : complete stack v = some r) : r.step c = r.stepAfter c := by
  cases completed h <;> rfl

/-- Nothing but white space follows a complete value. -/
theorem isSpace_of_scan_done (hr : r.pos = .done v) (h : r.scan b = some r') :
    ∀ c ∈ b, isSpace c = true := by
  induction b generalizing r with
  | nil => exact fun c hc => absurd hc not_mem_nil
  | cons d b ih =>
    obtain ⟨r₁, h₁, h⟩ := bind_eq_some_iff.1 h
    obtain ⟨stack, pos⟩ := r
    obtain rfl : pos = .done v := hr
    simp only [step, stepAfter] at h₁
    split_ifs at h₁ with hd
    cases h₁
    rintro c (_ | ⟨_, hc⟩)
    · exact hd
    · exact ih rfl h c hc

/-- Only white space, a comma and a bracket can follow a value. -/
theorem stepAfter_eq_none (hspace : isSpace c = false) (hc : c ∉ [44, 93, 125]) (r : Reader) :
    r.stepAfter c = none := by
  simp only [mem_cons, not_mem_nil, or_false, not_or] at hc
  unfold stepAfter
  split
  · unfold stepNext
    rw [if_neg (by simp [hspace])]
    split
    · rw [if_neg hc.1, if_neg hc.2.1]
    · rw [if_neg hc.1, if_neg hc.2.2]
    · rfl
  · rw [if_neg (by simp [hspace])]
  · rfl

theorem stepAfter_brace (r : Reader) : r.stepAfter 123 = none :=
  stepAfter_eq_none (by decide) (by decide) r

theorem stepAfter_token (hc : isToken c = true) : r.stepAfter c = none := by
  refine stepAfter_eq_none (ne_of_isToken hc).1 (fun hmem => ?_) r
  have hno : ∀ d ∈ ([44, 93, 125] : Bytes), isToken d = false := by decide +kernel
  rw [hno c hmem] at hc
  cases hc

/-- A token cannot follow the quote that ends a string. -/
theorem completeString_bind_token (stack : List Frame) (isKey : Bool) (acc : Bytes)
    (hc : isToken c = true) : (completeString stack isKey acc).bind (fun r => r.step c) = none := by
  have hcolon : c ≠ 58 := by rintro rfl; exact absurd hc (by decide)
  cases hs : completeString stack isKey acc with
  | none => rfl
  | some =>
    obtain ⟨s, -, h⟩ := bind_eq_some_iff.1 hs
    rw [bind_some]
    split at h
    · split at h
      · cases h
        simp [step, (ne_of_isToken hc).1, hcolon]
      · cases h
    · rw [step_of_complete h, stepAfter_token hc]

theorem finish_of_stack (h : r.stack ≠ []) : r.finish = none := by
  obtain ⟨stack, pos⟩ := r
  cases stack with
  | nil => exact absurd rfl h
  | cons => rfl

theorem step_token_brace (stack : List Frame) (acc : Bytes) :
    step ⟨stack, .token acc⟩ 123 = none := by
  have htok : isToken 123 = false := rfl
  simp only [step, htok, stepAfter_brace, Bool.false_eq_true, if_false, bind_fun_none]

/-- Inside a string, the brace of an object's text is read as text and the quote after it ends
the string. -/
theorem scan_prefix_string {q : BodyPos} (hb : print (.obj ms) = 123 :: 34 :: c :: b)
    (hc : isToken c = true) (ht : 123 :: p ++ t = print (.obj ms))
    (h : scan ⟨stack, .string isKey acc q⟩ (123 :: p) = some r') :
    r' = ⟨stack, .string isKey (acc ++ [123]) .plain⟩ ∨
      completeString stack isKey (acc ++ [123]) = some r' := by
  cases q with
  | esc => cases h
  | hex n => cases n <;> cases h
  | plain =>
    have hbrace : step ⟨stack, .string isKey acc .plain⟩ 123 =
        some ⟨stack, .string isKey (acc ++ [123]) .plain⟩ := rfl
    rw [scan_cons, hbrace, bind_some] at h
    rcases p with - | ⟨d, p⟩
    · exact .inl (some.inj h).symm
    have hrest := (cons.inj (ht.trans hb)).2
    obtain rfl : d = 34 := (cons.inj hrest).1
    have hquote : step ⟨stack, .string isKey (acc ++ [123]) .plain⟩ 34 =
        completeString stack isKey (acc ++ [123]) := rfl
    rw [scan_cons, hquote] at h
    obtain ⟨r₁, h₁, h⟩ := bind_eq_some_iff.1 h
    rcases p with - | ⟨e, p⟩
    · cases h
      exact .inr h₁
    -- a letter comes after the quote
    obtain rfl : e = c := (cons.inj (cons.inj hrest).2).1
    obtain ⟨r₂, h₂, -⟩ := bind_eq_some_iff.1 h
    have hbad := completeString_bind_token stack isKey (acc ++ [123]) hc
    rw [h₁, bind_some, h₂] at hbad
    cases hbad

theorem complete_stack_ne_nil (hs : stack ≠ []) (h : complete stack v = some r) : r.stack ≠ [] := by
  cases completed h with
  | done => exact absurd rfl hs
  | next => exact cons_ne_nil _ _

/-- The text of an object ends with a brace, so none of its beginnings has read the value. -/
theorem not_done_of_prefix {r'' : Reader} (h : print (.obj ms) = p ++ t) (ht : t ≠ [])
    (hp : r.scan p = some r') (hall : r.scan (print (.obj ms)) = some r'') : r'.pos ≠ .done v := by
  intro hv
  have hlast : (125 : UInt8) ∈ t := by
    have h' := congrArg getLast? h
    rw [print, ← cons_append, getLast?_append, getLast?_append_of_ne_nil _ ht] at h'
    exact mem_of_getLast? h'.symm
  rw [h, scan_append, hp] at hall
  exact absurd (isSpace_of_scan_done hv hall 125 hlast) (by decide)

/-- The beginning of an object's text where a value may be read, inside an array or object. -/
theorem scan_prefix_value (hs : stack ≠ []) (hopen : Open stack) (ht : print (.obj ms) = p ++ t)
    (h : scan ⟨stack, .value⟩ p = some r') : r'.stack ≠ [] := by
  obtain ⟨r'', hr'', -⟩ := ends_complete hopen (.obj ms)
  have hall := (scan_obj (fun m _ => readsBack m.2) stack).trans hr''
  by_cases htne : t = []
  · subst htne
    rw [append_nil] at ht
    rw [ht, h] at hall
    cases hall
    exact complete_stack_ne_nil hs hr''
  · have hinside : r'.Inside := Inside.scan (.inl hs) h
    refine hinside.resolve_right ?_
    rintro ⟨v, hv⟩
    exact not_done_of_prefix ht htne h hall hv

/-- **Inside an array or object, the text of an object does not end the text**, and neither does
the beginning of one, if its first name starts with a letter: it is read as one more value, or is
no continuation at all. -/
theorem scan_prefix_stack (hr : r.stack ≠ []) (hplaced : r.Placed)
    (hb : print (.obj ms) = 123 :: 34 :: c :: b) (hc : isToken c = true)
    (hp : p <+: print (.obj ms)) (h : r.scan p = some r') : r'.stack ≠ [] := by
  obtain ⟨t, ht⟩ := hp
  rcases p with - | ⟨d, p⟩
  · cases h
    exact hr
  obtain rfl : d = 123 := (cons.inj (ht.trans hb)).1
  obtain ⟨stack, pos⟩ := r
  have hnone (hstep : step ⟨stack, pos⟩ 123 = none) : r'.stack ≠ [] := by
    rw [scan_cons, hstep] at h
    cases h
  cases pos with
  | value | valueOrClose => exact scan_prefix_value hr hplaced ht.symm h
  | keyOrClose | key | colon => exact hnone rfl
  | next => exact hnone (stepAfter_brace ⟨stack, .next⟩)
  | done v => exact hnone (stepAfter_brace ⟨stack, .done v⟩)
  | token acc => exact hnone (step_token_brace stack acc)
  | string =>
    rcases scan_prefix_string hb hc ht h with rfl | h
    · exact hr
    · obtain ⟨s, -, h⟩ := bind_eq_some_iff.1 h
      split at h
      · split at h
        · cases h
          exact cons_ne_nil _ _
        · cases h
      · exact complete_stack_ne_nil hr h

/-- The reader after the beginning of an object's text: inside it, unless the text is
whole. -/
theorem exists_scan_of_prefix (hp : p ≠ []) (h : print (.obj ms) = p ++ t) :
    ∃ r, init.scan p = some r ∧ (t ≠ [] → r.stack ≠ []) := by
  have hall : init.scan (print (.obj ms)) = some ⟨[], .done (.obj ms)⟩ :=
    scan_obj (fun m _ => readsBack m.2) []
  have hscan := hall
  rw [h, scan_append] at hscan
  obtain ⟨r, hr, -⟩ := bind_eq_some_iff.1 hscan
  refine ⟨r, hr, fun ht => ?_⟩
  -- after the first brace the text is inside
  obtain ⟨c, p, rfl⟩ := exists_cons_of_ne_nil hp
  obtain rfl : 123 = c := (cons.inj h).1
  have hinside : r.Inside := by
    have hopen : Inside ⟨[.obj []], .keyOrClose⟩ := .inl (cons_ne_nil _ _)
    exact hopen.scan hr
  refine hinside.resolve_right ?_
  rintro ⟨v, hv⟩
  exact not_done_of_prefix h ht hr hall hv

end Reader

variable {ms : List (Body × Value)} {p : Bytes} (hp : p <+: print (.obj ms))

include hp

/-- **The beginning of an object's text is no JSON text.** -/
theorem parse_of_prefix (hne : p ≠ print (.obj ms)) : parse p = none := by
  obtain ⟨t, ht⟩ := hp
  refine parse_of_read ?_
  by_cases hnil : p = []
  · subst hnil
    rfl
  · obtain ⟨r, hr, hstack⟩ := Reader.exists_scan_of_prefix hnil ht.symm
    have htne : t ≠ [] := by
      rintro rfl
      exact hne (by rw [← ht, append_nil])
    rw [read, hr, bind_some, Reader.finish_of_stack (hstack htne)]

/-- **The beginning of an object's text followed by another object's text is no JSON
text**, if the first name of the second starts with a letter. -/
theorem parse_of_prefix_append {ns : List (Body × Value)} {b : Bytes} {c : UInt8} (hne : p ≠ [])
    (hb : print (.obj ns) = 123 :: 34 :: c :: b) (hc : isToken c = true) :
    parse (p ++ print (.obj ns)) = none := by
  obtain ⟨t, ht⟩ := hp
  obtain ⟨r, hr, hstack⟩ := Reader.exists_scan_of_prefix hne ht.symm
  refine parse_of_read ?_
  rw [read, Reader.scan_append, hr, bind_some]
  by_cases htne : t = []
  · -- the first text is whole, and nothing may follow it
    subst htne
    rw [append_nil] at ht
    obtain rfl : r = ⟨[], .done (.obj ms)⟩ := by
      rw [ht] at hr
      exact some.inj
        (hr.symm.trans (Reader.scan_obj (fun m _ => Reader.readsBack m.2) []))
    rfl
  · cases hscan : r.scan (print (.obj ns)) with
    | none => rfl
    | some =>
      have hplaced : r.Placed := Reader.placed_init.scan hr
      exact Reader.finish_of_stack
        (Reader.scan_prefix_stack (hstack htne) hplaced hb hc prefix_rfl hscan)

end K8s4Claw.Lib.Json
