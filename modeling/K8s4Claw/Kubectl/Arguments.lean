/-
# The arguments of `kubectl claw`

`commonFlags`, `runApprove` and `runReject` of `cmd/kubectl-claw/main.go`, up to the request that
they make.  The usage text has the name of the escalation first and the flags after it; the flags
are parsed by Go's package `flag`, which stops at the name.
-/

import K8s4Claw.Lib.Flags

namespace K8s4Claw.Kubectl

open Lib.Flags

/-- The subcommands with an escalation. -/
inductive Subcommand
  | approve
  | reject
  deriving DecidableEq

/-- The name of the flag that is not for the namespace. -/
def Subcommand.extraName : Subcommand → String
  | .approve => "by"
  | .reject => "reason"

/-- The variables of the flags, at first with their defaults. -/
structure Vars where
  ns : String := "default"
  extra : String := ""
  deriving DecidableEq

/-- The flag set of `commonFlags`. -/
def formal (cmd : Subcommand) (name : String) : Option (String → Vars → Vars) :=
  if name = "n" ∨ name = "namespace" then some fun value vars => { vars with ns := value }
  else if name = cmd.extraName then some fun value vars => { vars with extra := value }
  else none

/-- `commonFlags`: the name, the namespace and the extra value. -/
def commonFlags (cmd : Subcommand) (args : List String) :
    Except String (String × String × String) :=
  match parse (formal cmd) args {} with
  | .error e => .error e
  | .ok (_, []) => .error "missing escalation name"
  | .ok (vars, name :: _) => .ok (name, vars.ns, vars.extra)

def currentUser (user : String) : String := if user = "" then "unknown" else user

/-- What `runApprove` and `runReject` go on with: the name, the namespace, and who approves or why
it is rejected.  `user` is the variable `USER`. -/
def request (cmd : Subcommand) (user : String) (args : List String) :
    Except String (String × String × String) :=
  (commonFlags cmd args).map fun (name, ns, extra) =>
    (name, ns, if extra = "" then
      match cmd with
      | .approve => currentUser user
      | .reject => "rejected via kubectl-claw"
    else extra)

/-! ## The documented form -/

/-- The flags of the usage text. -/
inductive Flag
  | ns
  | extra
  deriving DecidableEq

def Flag.name (cmd : Subcommand) : Flag → String
  | .ns => "n"
  | .extra => cmd.extraName

def Flag.dashed (cmd : Subcommand) : Flag → String
  | .ns => "-n"
  | .extra => "--" ++ cmd.extraName

def Flag.set : Flag → String → Vars → Vars
  | .ns, value, vars => { vars with ns := value }
  | .extra, value, vars => { vars with extra := value }

/-- The flags of a command, each optional, in either order. -/
def options (cmd : Subcommand) (ns extra : Option String) (nsFirst : Bool) : List String :=
  (if nsFirst then ns.toList.map (Flag.ns, ·) ++ extra.toList.map (Flag.extra, ·)
    else extra.toList.map (Flag.extra, ·) ++ ns.toList.map (Flag.ns, ·)).flatMap
      fun f => [f.1.dashed cmd, f.2]

/-- **Where the flags have to stand.**  Before the name they are read, in either order, whatever
their values are.  After it they are not, so that the documented form gives what it should only
for the values of missing flags. -/
theorem commonFlags_eq (cmd : Subcommand) (name : String) (h : name.toList.head? ≠ some '-')
    (ns extra : Option String) (nsFirst : Bool) :
    commonFlags cmd (options cmd ns extra nsFirst ++ [name]) =
      .ok (name, ns.getD "default", extra.getD "") ∧
    commonFlags cmd (name :: options cmd ns extra nsFirst) = .ok (name, "default", "") ∧
    (commonFlags cmd (name :: options cmd ns extra nsFirst) =
      .ok (name, ns.getD "default", extra.getD "") ↔
        ns.getD "default" = "default" ∧ extra.getD "" = "") := by
  have hname := token_of_head_ne h
  have hafter : commonFlags cmd (name :: options cmd ns extra nsFirst) =
      .ok (name, "default", "") := by
    rw [commonFlags, parse_of_positional hname]
  refine ⟨?_, hafter, ?_⟩
  · have hformal (o : Flag) : formal cmd (o.name cmd) = some o.set := by
      cases cmd <;> cases o <;> rfl
    have hdashed (o : Flag) : token (o.dashed cmd) = .flag (o.name cmd) none := by
      cases cmd <;> cases o <;> decide
    rw [commonFlags, options, parse_append hformal hdashed, parse_of_positional hname]
    cases ns <;> cases extra <;> cases nsFirst <;> rfl
  · rw [hafter]
    simp only [Except.ok.injEq, Prod.mk.injEq, true_and]
    exact and_congr eq_comm eq_comm

theorem commonFlags_eq_reject :
    commonFlags .reject (options .reject none (some "done") true ++ ["ops-xyz"]) =
      .ok ("ops-xyz", "default", "done") ∧
    commonFlags .reject ("ops-xyz" :: options .reject none (some "done") true) =
      .ok ("ops-xyz", "default", "") := by
  obtain ⟨hbefore, hafter, -⟩ :=
    commonFlags_eq .reject "ops-xyz" (by decide) none (some "done") true
  exact ⟨hbefore, hafter⟩

/-- **The first example of the usage text** is read without its flags: the escalation is looked for
in the namespace `default`, and would be approved by the current user. -/
theorem usageExample :
    options .approve (some "ai-agents") (some "sre@corp.com") true =
      ["-n", "ai-agents", "--by", "sre@corp.com"] ∧
    commonFlags .approve ["my-claw-ops-abc", "-n", "ai-agents", "--by", "sre@corp.com"] =
      .ok ("my-claw-ops-abc", "default", "") ∧
    request .approve "root" ["my-claw-ops-abc", "-n", "ai-agents", "--by", "sre@corp.com"] =
      .ok ("my-claw-ops-abc", "default", "root") := by
  decide

end K8s4Claw.Kubectl
