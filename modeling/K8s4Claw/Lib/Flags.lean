/-
# Command-line flags

Go's package `flag`, for flags with a string value: `-name value`, `-name=value`, and both with two
minus signs.  `parse` sets the variables of the flags at the front of the arguments.  It stops at
the first argument that is none, or after `--`, and returns the arguments from there on.
-/

import Mathlib.Data.String.Basic

namespace K8s4Claw.Lib.Flags

/-- What an argument is, if a flag may stand there; `value` is what follows a `=`. -/
inductive Token
  | positional
  | terminator
  | malformed
  | flag (name : String) (value : Option String)
  deriving DecidableEq

/-- A name, and the value after a `=` that is not at its front. -/
def splitValue (text : List Char) : Token :=
  match text with
  | [] | '-' :: _ | '=' :: _ => .malformed
  | c :: text =>
      .flag (String.ofList (c :: text.takeWhile (· ≠ '=')))
        (match text.dropWhile (· ≠ '=') with
          | [] => none
          | _ :: value => some (String.ofList value))

def token (arg : String) : Token :=
  match arg.toList with
  | ['-', '-'] => .terminator
  | '-' :: '-' :: text => splitValue text
  | '-' :: c :: text => splitValue (c :: text)
  | _ => .positional

section

variable {σ : Type*} (formal : String → Option (String → σ → σ))

/-- The error for a flag that is not defined. -/
def undefined (name : String) : String :=
  if name = "help" ∨ name = "h" then "flag: help requested"
  else "flag provided but not defined: -" ++ name

/-- `FlagSet.Parse`: the variables, and the arguments that are left.  `formal` has the flags that
are defined, with what their values do to the variables. -/
def parse : List String → σ → Except String (σ × List String)
  | [], vars => .ok (vars, [])
  | arg :: rest, vars =>
      match token arg with
      | .positional => .ok (vars, arg :: rest)
      | .terminator => .ok (vars, rest)
      | .malformed => .error ("bad flag syntax: " ++ arg)
      | .flag name (some value) =>
          match formal name with
          | none => .error (undefined name)
          | some set => parse rest (set value vars)
      | .flag name none =>
          match formal name, rest with
          | none, _ => .error (undefined name)
          | some _, [] => .error ("flag needs an argument: -" ++ name)
          | some set, value :: rest => parse rest (set value vars)

variable {formal}

/-- **Parsing stops at the first argument that is no flag.** -/
theorem parse_of_positional {arg : String} (h : token arg = .positional) (rest : List String)
    (vars : σ) : parse formal (arg :: rest) vars = .ok (vars, arg :: rest) := by
  rw [parse, h]

/-- **The flags at the front are set**, whatever their values are. -/
theorem parse_append {α : Type*} {name : α → String} {set : α → String → σ → σ}
    {dashed : α → String} (hformal : ∀ f, formal (name f) = some (set f))
    (hdashed : ∀ f, token (dashed f) = .flag (name f) none) (flags : List (α × String))
    (rest : List String) (vars : σ) :
    parse formal (flags.flatMap (fun f => [dashed f.1, f.2]) ++ rest) vars =
      parse formal rest (flags.foldl (fun vars f => set f.1 f.2 vars) vars) := by
  induction flags generalizing vars with
  | nil => rfl
  | cons f _ ih =>
    rw [List.flatMap_cons, List.cons_append, List.cons_append, parse, hdashed]
    simp only [hformal]
    exact ih _

end

theorem token_of_head_ne {arg : String} (h : arg.toList.head? ≠ some '-') :
    token arg = .positional := by
  unfold token
  split
  · next harg => simp [harg] at h
  · next harg => simp [harg] at h
  · next harg => simp [harg] at h
  · rfl

end K8s4Claw.Lib.Flags
