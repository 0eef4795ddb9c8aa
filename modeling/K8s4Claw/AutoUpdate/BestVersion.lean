/-
# The best version

`ResolveBestVersion` of `internal/registry/resolver.go` goes through the tags once and keeps the
greatest version that passes its filters.  What it returns is said here in terms of the tags alone:
the first of the eligible tags that no eligible tag exceeds.  Two tags may be of equal precedence
(`1.0.0` and `v1.0.0`), so the result depends on the order of the tags, but not beyond that.
-/

import K8s4Claw.AutoUpdate.Registry
import K8s4Claw.Lib.FirstMax

namespace K8s4Claw.AutoUpdate

open List Option
open Lib (IsFirstMax StrictWeak firstMax)

/-- The library keeps the text it parsed, and `GreaterThan` is a strict weak order. -/
structure Semver.Ordered (S : Semver) : Prop where
  original : ∀ tag v, S.newVersion tag = some v → S.original v = tag
  strictWeak : StrictWeak fun v w => S.greaterThan v w = true

section

variable (S : Semver)

/-- A tag parses, satisfies the constraint, is not listed as failed and is greater than the current
version, if that parses. -/
def EligibleTag (c : S.Constraint) (current : String) (failedVersions : List String)
    (tag : String) : Prop :=
  ∃ v, S.newVersion tag = some v ∧ S.check c v = true ∧ tag ∉ failedVersions ∧
    ∀ cur ∈ currentVersion S current, S.greaterThan v cur = true

/-- Both tags parse, and the first one is the greater version. -/
def GreaterTag (tag other : String) : Prop :=
  ∃ v w, S.newVersion tag = some v ∧ S.newVersion other = some w ∧ S.greaterThan v w = true

/-- Neither tag is greater. -/
def EqualPrecedence (tag other : String) : Prop :=
  ¬ GreaterTag S tag other ∧ ¬ GreaterTag S other tag

/-- An eligible tag that no eligible tag of the list exceeds. -/
def BestTag (c : S.Constraint) (current : String) (failedVersions tags : List String)
    (tag : String) : Prop :=
  EligibleTag S c current failedVersions tag ∧
    ∀ other ∈ tags, EligibleTag S c current failedVersions other → ¬ GreaterTag S other tag

/-- The version of a tag that passes the filters of the loop. -/
def candidate (c : S.Constraint) (current : String) (failedVersions : List String)
    (tag : String) : Option S.Version :=
  (S.newVersion tag).filter fun v => Eligible S c current failedVersions v

variable {S} {c : S.Constraint} {current : String} {failedVersions tags : List String}

theorem candidate_eq_some_iff (hS : S.Ordered) {tag : String} {v : S.Version} :
    candidate S c current failedVersions tag = some v ↔
      S.newVersion tag = some v ∧ EligibleTag S c current failedVersions tag := by
  simp only [candidate, filter_eq_some_iff, decide_eq_true_eq]
  constructor
  · rintro ⟨hv, hcheck, hfailed, habove⟩
    rw [hS.original tag v hv] at hfailed
    exact ⟨hv, v, hv, hcheck, hfailed, habove⟩
  · rintro ⟨hv, w, hw, hcheck, hfailed, habove⟩
    obtain rfl := some.inj (hv.symm.trans hw)
    refine ⟨hv, hcheck, ?_, habove⟩
    rw [hS.original tag v hv]
    exact hfailed

theorem exists_candidate (hS : S.Ordered) {tag : String}
    (h : EligibleTag S c current failedVersions tag) :
    ∃ v, candidate S c current failedVersions tag = some v := by
  obtain ⟨v, hv, -⟩ := id h
  exact ⟨v, (candidate_eq_some_iff hS).mpr ⟨hv, h⟩⟩

/-- The loop of `ResolveBestVersion` is the running maximum over the candidates. -/
theorem foldl_consider (best : Option S.Version) :
    tags.foldl (consider S c current failedVersions) best =
      (tags.filterMap (candidate S c current failedVersions)).foldl
        (List.argAux fun v w => S.greaterThan v w = true) best := by
  induction tags generalizing best with
  | nil => rfl
  | cons tag _ ih =>
    rw [foldl_cons, ih]
    cases hparse : S.newVersion tag with
    | none =>
      rw [filterMap_cons_none (by simp [candidate, hparse])]
      simp only [consider, hparse]
    | some v =>
      by_cases hel : Eligible S c current failedVersions v
      · rw [filterMap_cons_some (b := v) (by simp [candidate, hparse, hel])]
        simp only [consider, hparse, if_pos hel]
        cases best <;> rfl
      · rw [filterMap_cons_none (by simp [candidate, hparse, hel])]
        simp only [consider, hparse, if_neg hel]

theorem exists_bestTag (hS : S.Ordered) {v : S.Version}
    (h : tags.foldl (consider S c current failedVersions) none = some v) :
    ∃ before after, tags = before ++ S.original v :: after ∧
      BestTag S c current failedVersions tags (S.original v) ∧
      ∀ tag ∈ before, ¬ BestTag S c current failedVersions tags tag := by
  rw [foldl_consider] at h
  obtain ⟨before, after, hsplit, hbefore, -⟩ :=
    (Lib.firstMax_eq_some_iff hS.strictWeak).mp h
  have hbest := (Lib.firstMax_eq_some_iff hS.strictWeak).mp h
  obtain ⟨tagsBefore, rest, rfl, hbeforeEq, hrest⟩ := filterMap_eq_append_iff.mp hsplit
  obtain ⟨skipped, tag, tagsAfter, rfl, hskipped, htag, -⟩ := filterMap_eq_cons_iff.mp hrest
  obtain ⟨hv, hel⟩ := (candidate_eq_some_iff hS).mp htag
  rw [hS.original tag v hv]
  refine ⟨tagsBefore ++ skipped, tagsAfter, by simp, ⟨hel, ?_⟩, ?_⟩
  · rintro other hother hother' ⟨w, v', hw, hv', hgreater⟩
    obtain rfl := some.inj (hv.symm.trans hv')
    refine hbest.not_better hS.strictWeak (mem_filterMap.mpr ⟨other, hother, ?_⟩) hgreater
    exact (candidate_eq_some_iff hS).mpr ⟨hw, hother'⟩
  · -- an eligible tag before it is exceeded by it
    rintro other hother ⟨hother', hunbeaten⟩
    obtain ⟨w, hw⟩ := exists_candidate hS hother'
    refine hunbeaten tag (by simp) hel ⟨v, w, hv, ((candidate_eq_some_iff hS).mp hw).1, ?_⟩
    rcases mem_append.mp hother with hmem | hmem
    · refine hbefore w ?_
      rw [← hbeforeEq]
      exact mem_filterMap.mpr ⟨other, hmem, hw⟩
    · cases (hskipped other hmem).symm.trans hw

theorem exists_foldl_consider (hS : S.Ordered) {tag : String} (hmem : tag ∈ tags)
    (h : EligibleTag S c current failedVersions tag) :
    ∃ v, tags.foldl (consider S c current failedVersions) none = some v := by
  obtain ⟨w, hw⟩ := exists_candidate hS h
  rw [← isSome_iff_exists, isSome_iff_ne_none, foldl_consider]
  intro hnone
  have hnil := Lib.firstMax_eq_none_iff.mp hnone
  have hcandidate := mem_filterMap.mpr ⟨tag, hmem, hw⟩
  rw [hnil] at hcandidate
  cases hcandidate

end

section

variable {S : Semver} {constraint current best : String} {failedVersions tags : List String}

theorem resolveBestVersion_eq_some_iff :
    resolveBestVersion S tags constraint current failedVersions = some best ↔
      ∃ c, S.newConstraint constraint = some c ∧ ∃ v,
        tags.foldl (consider S c current failedVersions) none = some v ∧ S.original v = best := by
  simp [resolveBestVersion, bind_eq_some_iff]

/-- **`ResolveBestVersion` finds a version iff the constraint parses and some tag is eligible.** -/
theorem isSome_resolveBestVersion_iff (hS : S.Ordered) :
    (resolveBestVersion S tags constraint current failedVersions).isSome = true ↔
      ∃ c, S.newConstraint constraint = some c ∧
        ∃ tag ∈ tags, EligibleTag S c current failedVersions tag := by
  rw [isSome_iff_exists]
  constructor
  · rintro ⟨best, hbest⟩
    obtain ⟨c, hc, v, hv, -⟩ := resolveBestVersion_eq_some_iff.mp hbest
    obtain ⟨before, after, htags, ⟨hel, -⟩, -⟩ := exists_bestTag hS hv
    refine ⟨c, hc, S.original v, ?_, hel⟩
    rw [htags]
    simp
  · rintro ⟨c, hc, tag, hmem, hel⟩
    obtain ⟨v, hv⟩ := exists_foldl_consider hS hmem hel
    exact ⟨S.original v, resolveBestVersion_eq_some_iff.mpr ⟨c, hc, v, hv, rfl⟩⟩

/-- **It returns the first of the best tags.** -/
theorem resolveBestVersion_eq_iff (hS : S.Ordered) :
    resolveBestVersion S tags constraint current failedVersions = some best ↔
      ∃ c, S.newConstraint constraint = some c ∧ ∃ before after, tags = before ++ best :: after ∧
        BestTag S c current failedVersions tags best ∧
        ∀ tag ∈ before, ¬ BestTag S c current failedVersions tags tag := by
  have hof {tag : String}
      (h : resolveBestVersion S tags constraint current failedVersions = some tag) :
      ∃ c, S.newConstraint constraint = some c ∧ ∃ before after, tags = before ++ tag :: after ∧
        BestTag S c current failedVersions tags tag ∧
        ∀ tag ∈ before, ¬ BestTag S c current failedVersions tags tag := by
    obtain ⟨c, hc, v, hv, rfl⟩ := resolveBestVersion_eq_some_iff.mp h
    exact ⟨c, hc, exists_bestTag hS hv⟩
  refine ⟨hof, ?_⟩
  rintro ⟨c, hc, before, after, htags, hbest, hfirst⟩
  have hmem : best ∈ tags := by simp [htags]
  obtain ⟨tag, htag⟩ := isSome_iff_exists.mp
    ((isSome_resolveBestVersion_iff hS).mpr ⟨c, hc, best, hmem, hbest.1⟩)
  obtain ⟨c', hc', before', after', htags', hbest', hfirst'⟩ := hof htag
  obtain rfl := some.inj (hc.symm.trans hc')
  -- both are the first tag of the list that is best
  classical
  have hfind : tags.find? (fun t => decide (BestTag S c current failedVersions tags t)) =
      some best := by
    rw [find?_eq_some_iff_append]
    exact ⟨by simpa using hbest, before, after, htags, fun t ht => by simpa using hfirst t ht⟩
  have hfind' : tags.find? (fun t => decide (BestTag S c current failedVersions tags t)) =
      some tag := by
    rw [find?_eq_some_iff_append]
    exact ⟨by simpa using hbest', before', after', htags', fun t ht => by simpa using hfirst' t ht⟩
  rw [htag, ← hfind', hfind]

theorem equalPrecedence_of_perm (hS : S.Ordered) {tags' : List String} (hperm : tags.Perm tags') :
    Option.Rel (EqualPrecedence S) (resolveBestVersion S tags constraint current failedVersions)
      (resolveBestVersion S tags' constraint current failedVersions) := by
  have hiff : (resolveBestVersion S tags constraint current failedVersions).isSome = true ↔
      (resolveBestVersion S tags' constraint current failedVersions).isSome = true := by
    simp only [isSome_resolveBestVersion_iff hS, hperm.mem_iff]
  cases hbest : resolveBestVersion S tags constraint current failedVersions with
  | none =>
    cases hbest' : resolveBestVersion S tags' constraint current failedVersions with
    | none => exact .none
    | some => simp [hbest, hbest'] at hiff
  | some best =>
    cases hbest' : resolveBestVersion S tags' constraint current failedVersions with
    | none => simp [hbest, hbest'] at hiff
    | some best' =>
      obtain ⟨c, hc, _, _, htags, ⟨hel, hmax⟩, -⟩ := (resolveBestVersion_eq_iff hS).mp hbest
      obtain ⟨c', hc', _, _, htags', ⟨hel', hmax'⟩, -⟩ :=
        (resolveBestVersion_eq_iff hS).mp hbest'
      obtain rfl := some.inj (hc.symm.trans hc')
      have hmem : best ∈ tags' := hperm.mem_iff.mp (by simp [htags])
      have hmem' : best' ∈ tags := hperm.mem_iff.mpr (by simp [htags'])
      exact .some ⟨hmax' best hmem hel, hmax best' hmem' hel'⟩

end

/-- **`ResolveBestVersion` returns the maximum of the eligible tags.**  It finds one iff the
constraint parses and some tag is eligible; it returns the first eligible tag that no eligible tag
exceeds; and in another order of the tags it returns one of equal precedence. -/
theorem resolveBestVersion_maximum {S : Semver} (hS : S.Ordered) (tags : List String)
    (constraint current : String) (failedVersions : List String) :
    ((resolveBestVersion S tags constraint current failedVersions).isSome = true ↔
      ∃ c, S.newConstraint constraint = some c ∧
        ∃ tag ∈ tags, EligibleTag S c current failedVersions tag) ∧
    (∀ best, resolveBestVersion S tags constraint current failedVersions = some best ↔
      ∃ c, S.newConstraint constraint = some c ∧ ∃ before after, tags = before ++ best :: after ∧
        BestTag S c current failedVersions tags best ∧
        ∀ tag ∈ before, ¬ BestTag S c current failedVersions tags tag) ∧
    ∀ tags', tags.Perm tags' →
      Option.Rel (EqualPrecedence S)
        (resolveBestVersion S tags constraint current failedVersions)
        (resolveBestVersion S tags' constraint current failedVersions) :=
  ⟨isSome_resolveBestVersion_iff hS, fun _ => resolveBestVersion_eq_iff hS,
    fun _ hperm => equalPrecedence_of_perm hS hperm⟩

/-- Three versions, of which two tags are one and the same. -/
def taggedSemver : Semver where
  Version := ℕ × String
  Constraint := Unit
  newVersion := fun tag =>
    ([("1.0.0", 0), ("1.1.0", 1), ("v1.1.0", 1), ("2.0.0", 2)].lookup tag).map fun n => (n, tag)
  newConstraint := fun constraint => if constraint = "^1.0.0" then some () else none
  check := fun _ v => decide (v.1 < 2)
  greaterThan := fun v w => decide (w.1 < v.1)
  original := Prod.snd

theorem taggedSemver_ordered : taggedSemver.Ordered where
  original tag v h := by
    obtain ⟨n, -, rfl⟩ := map_eq_some_iff.mp h
    rfl
  strictWeak := by
    simpa [taggedSemver] using StrictWeak.of_rank (Prod.fst : ℕ × String → ℕ)

/-- The first of the two tags for the greatest version is returned, in either order. -/
theorem resolveBestVersion_maximum_tied :
    resolveBestVersion taggedSemver ["latest", "1.0.0", "v1.1.0", "2.0.0", "1.1.0"] "^1.0.0" "1.0.0"
        [] = some "v1.1.0" ∧
      resolveBestVersion taggedSemver ["1.1.0", "v1.1.0", "1.0.0", "latest", "2.0.0"] "^1.0.0"
        "1.0.0" [] = some "1.1.0" ∧
      EqualPrecedence taggedSemver "v1.1.0" "1.1.0" := by
  have hperm : ["latest", "1.0.0", "v1.1.0", "2.0.0", "1.1.0"].Perm
      ["1.1.0", "v1.1.0", "1.0.0", "latest", "2.0.0"] := by decide
  obtain ⟨-, -, hrel⟩ := resolveBestVersion_maximum taggedSemver_ordered
    ["latest", "1.0.0", "v1.1.0", "2.0.0", "1.1.0"] "^1.0.0" "1.0.0" []
  have hfound : resolveBestVersion taggedSemver ["latest", "1.0.0", "v1.1.0", "2.0.0", "1.1.0"]
      "^1.0.0" "1.0.0" [] = some "v1.1.0" := by decide +kernel
  have hfound' : resolveBestVersion taggedSemver ["1.1.0", "v1.1.0", "1.0.0", "latest", "2.0.0"]
      "^1.0.0" "1.0.0" [] = some "1.1.0" := by decide +kernel
  have hequal := hrel _ hperm
  cases hequal with
  | some hequal => exact ⟨hfound, hfound', hequal⟩

end K8s4Claw.AutoUpdate
