/-
# Image references and versions

`internal/registry/resolver.go` and `extractVersionFromImage` of
`internal/controller/autoupdate_controller.go`: the image of a runtime, the best version among
the tags of a registry, and the tag of an image reference.

Versions are those of Masterminds/semver, of which the resolver uses what `Semver` lists; a
`Semver.Lawful` library orders the versions it parses and parses no tag with a slash or a colon.
The tag put behind a base image is then read back from the reference
(`extractVersionFromImage_tag`), and what `resolveBestVersion` finds is a version allowed by the
constraint, not listed as failed and above the current one (`eligible_of_resolveBestVersion`).
-/

import Mathlib.Data.List.Infix
import Mathlib.Data.String.Basic

namespace K8s4Claw.AutoUpdate

/-! ### Image references -/

/-- `ImageForRuntime`: the base image of a runtime, empty for an unknown one. -/
def imageForRuntime (runtime : String) : String :=
  match runtime with
  | "openclaw" => "ghcr.io/prismer-ai/k8s4claw-openclaw"
  | "hermesclaw" => "ghcr.io/nousresearch/hermes-agent"
  | "hermesrs" => "ghcr.io/prismer-ai/hermes-agent-rs"
  | "k8sops" => "ghcr.io/prismer-ai/claw4k8s"
  | _ => ""

def isDigestPinned (image : String) : Bool := "@sha256:".toList <:+: image.toList

/-- What follows the last `c`. -/
def afterLast (c : Char) : List Char → Option (List Char)
  | [] => none
  | x :: xs => match afterLast c xs with
      | some rest => some rest
      | none => if x = c then some xs else none

/-- `extractVersionFromImage`: what follows the last colon of the last path segment. -/
def extractVersionFromImage (image : String) : String :=
  let search := (afterLast '/' image.toList).getD image.toList
  match afterLast ':' search with
  | some version => String.ofList version
  | none => ""

theorem afterLast_eq_none {c : Char} {l : List Char} (h : c ∉ l) : afterLast c l = none := by
  induction l with
  | nil => rfl
  | cons x l ih =>
    rw [List.mem_cons, not_or] at h
    simp only [afterLast, ih h.2]
    exact if_neg (Ne.symm h.1)

theorem afterLast_append {c : Char} {l r : List Char} (h : c ∉ r) :
    afterLast c (l ++ c :: r) = some r := by
  induction l with
  | nil => simp [afterLast, afterLast_eq_none h]
  | cons x l ih => simp [afterLast, ih]

/-- A list with a `c` ends, after its last `c`, in a part without. -/
theorem exists_eq_append_of_mem {c : Char} {l : List Char} (h : c ∈ l) :
    ∃ a b, l = a ++ c :: b ∧ c ∉ b := by
  induction l with
  | nil => cases h
  | cons x l ih =>
    by_cases hc : c ∈ l
    · obtain ⟨a, b, rfl, hb⟩ := ih hc
      exact ⟨x :: a, b, rfl, hb⟩
    · obtain rfl : c = x := (List.mem_cons.mp h).resolve_right hc
      exact ⟨[], l, rfl, hc⟩

/-- **The tag put behind a base image is read back.** -/
theorem extractVersionFromImage_tag (base : String) {tag : String} (hslash : '/' ∉ tag.toList)
    (hcolon : ':' ∉ tag.toList) : extractVersionFromImage (base ++ ":" ++ tag) = tag := by
  have hlist : (base ++ ":" ++ tag).toList = base.toList ++ ':' :: tag.toList := by
    simp [String.toList_append]
  -- the last path segment still has the colon and the tag
  have hsearch : ∃ a, (afterLast '/' (base ++ ":" ++ tag).toList).getD (base ++ ":" ++ tag).toList =
      a ++ ':' :: tag.toList := by
    rw [hlist]
    by_cases hmem : '/' ∈ base.toList
    · obtain ⟨a, b, hbase, hb⟩ := exists_eq_append_of_mem hmem
      refine ⟨b, ?_⟩
      rw [hbase, List.append_assoc, List.cons_append, afterLast_append]
      · rfl
      · simp [hb, hslash]
    · refine ⟨base.toList, ?_⟩
      rw [afterLast_eq_none]
      · rfl
      · simp [hmem, hslash]
  obtain ⟨a, ha⟩ := hsearch
  simp only [extractVersionFromImage, ha, afterLast_append hcolon]
  exact String.ofList_toList

theorem image_ne_empty (base tag : String) : base ++ ":" ++ tag ≠ "" := by
  intro h
  have hlength := congrArg String.length h
  simp [String.length_append] at hlength

/-! ### Versions -/

/-- What the resolver uses of Masterminds/semver. -/
structure Semver where
  Version : Type
  Constraint : Type
  newVersion : String → Option Version
  newConstraint : String → Option Constraint
  check : Constraint → Version → Bool
  greaterThan : Version → Version → Bool
  original : Version → String

/-- The library parses tags without slash and colon and not the empty one, keeps the text, and
`greaterThan` is a strict weak order. -/
structure Semver.Lawful (S : Semver) : Prop where
  original : ∀ tag v, S.newVersion tag = some v → S.original v = tag
  noSeparator : ∀ tag v, S.newVersion tag = some v → '/' ∉ tag.toList ∧ ':' ∉ tag.toList
  nonempty : S.newVersion "" = none
  irrefl : ∀ v, S.greaterThan v v = false
  trans : ∀ u v w, S.greaterThan u v = true → S.greaterThan v w = true → S.greaterThan u w = true
  weak : ∀ u v w, S.greaterThan u w = true → S.greaterThan u v = true ∨ S.greaterThan v w = true

section

variable (S : Semver)

/-- The version the candidates are compared with, if it parses. -/
def currentVersion (current : String) : Option S.Version :=
  if current = "" then none else S.newVersion current

/-- A version satisfies the constraint, is not listed as failed and is above the current one. -/
def Eligible (c : S.Constraint) (current : String) (failedVersions : List String)
    (v : S.Version) : Prop :=
  S.check c v = true ∧ S.original v ∉ failedVersions ∧
    ∀ cur ∈ currentVersion S current, S.greaterThan v cur = true
  deriving Decidable

/-- One round of the loop of `ResolveBestVersion`. -/
def consider (c : S.Constraint) (current : String) (failedVersions : List String)
    (best : Option S.Version) (tag : String) : Option S.Version :=
  match S.newVersion tag with
  | none => best
  | some v =>
      if Eligible S c current failedVersions v then
        match best with
        | none => some v
        | some b => if S.greaterThan v b then some v else best
      else best

/-- `ResolveBestVersion`: the tag it finds, if any. -/
def resolveBestVersion (tags : List String) (constraint current : String)
    (failedVersions : List String) : Option String :=
  (S.newConstraint constraint).bind fun c =>
    (tags.foldl (consider S c current failedVersions) none).map S.original

variable {S}

theorem consider_eligible {c : S.Constraint} {current : String} {failedVersions tags : List String}
    {best : Option S.Version} {v : S.Version}
    (hbest : ∀ b ∈ best, Eligible S c current failedVersions b ∧ ∃ tag, S.newVersion tag = some b)
    (h : tags.foldl (consider S c current failedVersions) best = some v) :
    Eligible S c current failedVersions v ∧ ∃ tag, S.newVersion tag = some v := by
  induction tags generalizing best with
  | nil => exact hbest v h
  | cons tag _ ih =>
    refine ih (fun b hb => ?_) h
    unfold consider at hb
    split at hb
    · exact hbest b hb
    · next hv =>
      split_ifs at hb with hel
      · cases best with
        | none =>
          cases hb
          exact ⟨hel, tag, hv⟩
        | some =>
          dsimp only at hb
          split_ifs at hb
          · cases hb
            exact ⟨hel, tag, hv⟩
          · exact hbest b hb
      · exact hbest b hb

/-- **What `ResolveBestVersion` finds is eligible.** -/
theorem eligible_of_resolveBestVersion (hS : S.Lawful) {tags failedVersions : List String}
    {constraint current tag : String}
    (h : resolveBestVersion S tags constraint current failedVersions = some tag) :
    ∃ c v, S.newConstraint constraint = some c ∧ S.newVersion tag = some v ∧
      Eligible S c current failedVersions v := by
  obtain ⟨c, hc, h⟩ := Option.bind_eq_some_iff.mp h
  obtain ⟨v, hv, rfl⟩ := Option.map_eq_some_iff.mp h
  obtain ⟨hel, tag, htag⟩ := consider_eligible (by simp) hv
  refine ⟨c, v, hc, ?_, hel⟩
  rw [hS.original tag v htag]
  exact htag

end

end K8s4Claw.AutoUpdate
