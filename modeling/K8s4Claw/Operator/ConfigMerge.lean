/-
# Merging configurations

`deepMerge` of `internal/controller/claw_configmap.go` lays the configuration of the user over the
defaults of the adapter.  A configuration is a tree, and `ConfigValue.valueAt` is its value at a key
path.  In a JSON object every key occurs once, at every level (`JsonObject`); the order of the
members is the one in which Go happens to go through the map, which it does once for every object of
`src`.

What the merge does with one key is `lookup_deepMerge`, and what it does at a path follows by
induction on the path (`valueAt_mergeValue`).  A value of the user that is no object also removes
the defaults below it (`ConfigValue.shadows`).
-/

import K8s4Claw.Lib.Assoc
import K8s4Claw.Operator.Objects

namespace K8s4Claw.Operator

open List

/-! ### Trees -/

namespace ConfigValue

def valueAt : ConfigValue → List String → Option ConfigValue
  | v, [] => some v
  | .object members, key :: path => (lookup key members).bind fun v => v.valueAt path
  | .scalar _, _ :: _ => none

/-- The text of a value that is no object. -/
def text : ConfigValue → Option String
  | .object _ => none
  | .scalar json => some json

/-- The keys of every object are different. -/
inductive Distinct : ConfigValue → Prop
  | scalar (json : String) : Distinct (.scalar json)
  | object (members : ConfigObject) (nodup : (members.map Prod.fst).Nodup)
      (values : ∀ e ∈ members, Distinct e.2) : Distinct (.object members)

/-- The same tree: objects at the same paths and the same texts, whatever the order of the
members. -/
def Same (v w : ConfigValue) : Prop := ∀ path, (v.valueAt path).map text = (w.valueAt path).map text

/-- A value that is no object stands above the path. -/
def shadows : ConfigValue → List String → Bool
  | _, [] => false
  | .scalar _, _ :: _ => true
  | .object members, key :: path =>
      ((lookup key members).map fun v => v.shadows path).getD false

@[simp] theorem valueAt_nil (v : ConfigValue) : v.valueAt [] = some v := by
  cases v <;> rfl

theorem valueAt_scalar_cons (json key : String) (path : List String) :
    (ConfigValue.scalar json).valueAt (key :: path) = none := rfl

@[simp] theorem shadows_nil (v : ConfigValue) : v.shadows [] = false := by
  cases v <;> rfl

theorem valueAt_eq_none {v : ConfigValue} {path : List String} (h : v.shadows path = true) :
    v.valueAt path = none := by
  induction path generalizing v with
  | nil => simp at h
  | cons key _ ih =>
    cases v with
    | scalar => rfl
    | object members =>
      rw [shadows] at h
      rw [valueAt]
      cases hkey : lookup key members with
      | none => rfl
      | some =>
        rw [hkey] at h
        exact ih h

/-- What a shadowed path has does not matter to the value there. -/
theorem ite_valueAt (v : ConfigValue) (path : List String) :
    (if v.shadows path then none else v.valueAt path) = v.valueAt path := by
  split
  · next h => exact (valueAt_eq_none h).symm
  · rfl

theorem shadows_iff (v : ConfigValue) (path : List String) :
    v.shadows path = true ↔
      ∃ front rest json, path = front ++ rest ∧ rest ≠ [] ∧
        (v.valueAt front).map text = some (some json) := by
  induction path generalizing v with
  | nil =>
    refine ⟨fun h => absurd h Bool.false_ne_true, ?_⟩
    rintro ⟨front, rest, -, hpath, hrest, -⟩
    exact absurd (append_eq_nil_iff.mp hpath.symm).2 hrest
  | cons key path ih =>
    cases v with
    | scalar json => exact ⟨fun _ => ⟨[], key :: path, json, rfl, by simp, rfl⟩, fun _ => rfl⟩
    | object members =>
      rw [shadows]
      constructor
      · intro h
        cases hkey : lookup key members with
        | none =>
          rw [hkey] at h
          exact absurd h Bool.false_ne_true
        | some w =>
          rw [hkey] at h
          obtain ⟨front, rest, json, rfl, hrest, hfront⟩ := (ih w).mp h
          refine ⟨key :: front, rest, json, rfl, hrest, ?_⟩
          rw [valueAt, hkey]
          exact hfront
      · rintro ⟨front, rest, json, hpath, hrest, hfront⟩
        cases front with
        | nil => simp [text] at hfront
        | cons k front =>
          obtain ⟨rfl, rfl⟩ := cons.inj hpath
          rw [valueAt] at hfront
          cases hkey : lookup key members with
          | none => simp [hkey] at hfront
          | some w =>
            rw [hkey] at hfront
            exact (ih w).mpr ⟨front, rest, json, rfl, hrest, hfront⟩

theorem Same.shadows_eq {v w : ConfigValue} (h : v.Same w) (path : List String) :
    v.shadows path = w.shadows path := by
  rw [Bool.eq_iff_iff, shadows_iff, shadows_iff]
  simp only [h _]

end ConfigValue

open Lib.Assoc (lookup_cons_eq_ite lookup_of_mem lookup_of_notMem mem_of_lookup)
open ConfigValue (valueAt text shadows Distinct valueAt_eq_none valueAt_scalar_cons ite_valueAt)

/-! ### One key -/

theorem ConfigObject.lookup_set (dst : ConfigObject) (key : String) (v : ConfigValue)
    (other : String) :
    lookup other (dst.set key v) = if other = key then some v else lookup other dst := by
  induction dst with
  | nil => rw [ConfigObject.set, lookup_cons_eq_ite]
  | cons e _ ih =>
    rw [ConfigObject.set]
    by_cases hk : e.1 = key
    · rw [if_pos hk, lookup_cons_eq_ite, lookup_cons_eq_ite, hk]
      by_cases h : other = key
      · rw [if_pos h, if_pos h]
      · rw [if_neg h, if_neg h, if_neg h]
    · rw [if_neg hk, lookup_cons_eq_ite, lookup_cons_eq_ite, ih]
      by_cases h : other = e.1
      · rw [if_pos h, if_pos h, if_neg fun heq => hk (h.symm.trans heq)]
      · rw [if_neg h, if_neg h]

variable {dst src : ConfigObject} {srcVal : ConfigValue}

theorem ConfigObject.set_eq_self {key : String} {v : ConfigValue}
    (h : lookup key dst = some v) : dst.set key v = dst := by
  induction dst with
  | nil => cases h
  | cons e _ ih =>
    rw [ConfigObject.set]
    rw [lookup_cons_eq_ite] at h
    by_cases hk : e.1 = key
    · rw [if_pos hk.symm] at h
      rw [if_pos hk, ← hk, ← Option.some.inj h]
    · rw [if_neg (Ne.symm hk)] at h
      rw [if_neg hk, ih h]

theorem ConfigObject.mem_set {key : String} {v : ConfigValue} {e : String × ConfigValue}
    (h : e ∈ dst.set key v) : e = (key, v) ∨ e ∈ dst := by
  induction dst with
  | nil => exact .inl (mem_singleton.mp h)
  | cons f _ ih =>
    rw [ConfigObject.set] at h
    split at h
    · exact (mem_cons.mp h).imp_right (mem_cons_of_mem f)
    · rcases mem_cons.mp h with rfl | h
      · exact .inr mem_cons_self
      · exact (ih h).imp_right (mem_cons_of_mem f)

theorem ConfigObject.nodup_set (key : String) (v : ConfigValue) (h : (dst.map Prod.fst).Nodup) :
    ((dst.set key v).map Prod.fst).Nodup := by
  induction dst with
  | nil => simp [ConfigObject.set]
  | cons e _ ih =>
    obtain ⟨hnotMem, htail⟩ := nodup_cons.mp h
    rw [ConfigObject.set]
    by_cases hk : e.1 = key
    · rw [if_pos hk, ← hk]
      exact h
    · rw [if_neg hk, map_cons, nodup_cons]
      refine ⟨fun hmem => ?_, ih htail⟩
      obtain ⟨f, hf, hfe⟩ := mem_map.mp hmem
      rcases ConfigObject.mem_set hf with rfl | hf
      · exact hk hfe.symm
      · exact hnotMem (hfe ▸ mem_map_of_mem hf)

/-- What becomes of a key, from its values in the two objects. -/
def mergeOption : Option ConfigValue → Option ConfigValue → Option ConfigValue
  | dstVal, none => dstVal
  | none, some srcVal => some srcVal
  | some dstVal, some srcVal => some (mergeValue dstVal srcVal)

@[simp] theorem mergeOption_none (dstVal : Option ConfigValue) :
    mergeOption dstVal none = dstVal := by
  cases dstVal <;> rfl

@[simp] theorem none_mergeOption (srcVal : Option ConfigValue) :
    mergeOption none srcVal = srcVal := by
  cases srcVal <;> rfl

section

variable (dst : ConfigObject)

/-- The value that the key of a member gets. -/
def merged (key : String) (srcVal : ConfigValue) : ConfigValue :=
  ((lookup key dst).map fun dstVal => mergeValue dstVal srcVal).getD srcVal

theorem some_merged (key : String) (srcVal : ConfigValue) :
    some (merged dst key srcVal) = mergeOption (lookup key dst) (some srcVal) := by
  rw [merged]
  cases lookup key dst <;> rfl

theorem deepMerge_cons (e : String × ConfigValue) (src : ConfigObject) :
    deepMerge dst (e :: src) = deepMerge (dst.set e.1 (merged dst e.1 e.2)) src := by
  rw [deepMerge, merged]
  cases lookup e.1 dst <;> rfl

/-- **The value of a key after the merge.** -/
theorem lookup_deepMerge (hsrc : (src.map Prod.fst).Nodup) (key : String) :
    lookup key (deepMerge dst src) =
      mergeOption (lookup key dst) (lookup key src) := by
  induction src generalizing dst with
  | nil => rw [deepMerge, lookup_nil, mergeOption_none]
  | cons e _ ih =>
    obtain ⟨hnotMem, htail⟩ := nodup_cons.mp hsrc
    rw [deepMerge_cons, ih _ htail, ConfigObject.lookup_set, lookup_cons_eq_ite]
    by_cases h : key = e.1
    · -- the key does not occur again, so the value set here stays
      rw [if_pos h, if_pos h, h, lookup_of_notMem hnotMem, mergeOption_none, some_merged]
    · rw [if_neg h, if_neg h]

end

/-! ### One path -/

/-- **The value at a path after the merge.** -/
theorem valueAt_mergeValue (dstVal : ConfigValue) (hsrc : srcVal.Distinct) (path : List String) :
    (mergeValue dstVal srcVal).valueAt path =
      if srcVal.shadows path then none
      else mergeOption (dstVal.valueAt path) (srcVal.valueAt path) := by
  induction path generalizing dstVal srcVal with
  | nil => simp [mergeOption]
  | cons key path ih =>
    cases hsrc with
    | scalar => cases dstVal <;> rfl
    | object src hnodup hvalues =>
      cases dstVal with
      | scalar =>
        rw [mergeValue, valueAt_scalar_cons, none_mergeOption, ite_valueAt]
      | object dst =>
        rw [mergeValue, valueAt, valueAt, valueAt, shadows, lookup_deepMerge dst hnodup]
        cases hsrc : lookup key src with
        | none => simp
        | some v =>
          cases lookup key dst with
          | none =>
            rw [none_mergeOption, Option.bind_none, none_mergeOption]
            exact (ite_valueAt v path).symm
          | some w => exact ih w (hvalues _ (mem_of_lookup hsrc))

/-! ### Distinct keys -/

theorem distinct_deepMerge (hdst : (ConfigValue.object dst).Distinct)
    (hsrc : ∀ e ∈ src, e.2.Distinct ∧ ∀ w, Distinct w → (mergeValue w e.2).Distinct) :
    (ConfigValue.object (deepMerge dst src)).Distinct := by
  induction src generalizing dst with
  | nil => rwa [deepMerge]
  | cons e _ ih =>
    rw [deepMerge_cons]
    refine ih ?_ fun f hf => hsrc f (mem_cons_of_mem e hf)
    obtain ⟨hvalue, hmerge⟩ := hsrc e mem_cons_self
    cases hdst with
    | object _ hnodup hvalues =>
      have hmerged : (merged dst e.1 e.2).Distinct := by
        rw [merged]
        cases hkey : lookup e.1 dst with
        | none => exact hvalue
        | some w => exact hmerge w (hvalues _ (mem_of_lookup hkey))
      refine .object _ (ConfigObject.nodup_set e.1 _ hnodup) fun f hf => ?_
      rcases ConfigObject.mem_set hf with rfl | hf
      · exact hmerged
      · exact hvalues f hf

theorem distinct_mergeValue (hsrc : srcVal.Distinct) {dstVal : ConfigValue}
    (hdst : dstVal.Distinct) : (mergeValue dstVal srcVal).Distinct := by
  induction hsrc generalizing dstVal with
  | scalar json => cases dstVal <;> exact .scalar json
  | object src hnodup hvalues ih =>
    cases dstVal with
    | scalar => exact .object src hnodup hvalues
    | object =>
      exact distinct_deepMerge hdst fun e he => ⟨hvalues e he, fun w hw => ih e he hw⟩

/-! ### Merging twice -/

theorem deepMerge_eq_self (h : ∀ e ∈ src, some (merged dst e.1 e.2) = lookup e.1 dst) :
    deepMerge dst src = dst := by
  induction src with
  | nil => rw [deepMerge]
  | cons e _ ih =>
    rw [deepMerge_cons, ConfigObject.set_eq_self (h e mem_cons_self).symm]
    exact ih fun f hf => h f (mem_cons_of_mem e hf)

/-- **Merging a value again changes nothing.** -/
theorem mergeValue_mergeValue (hsrc : srcVal.Distinct) (dstVal : ConfigValue) :
    mergeValue (mergeValue dstVal srcVal) srcVal = mergeValue dstVal srcVal := by
  induction hsrc generalizing dstVal with
  | scalar => cases dstVal <;> rfl
  | object src hnodup _ ih =>
    -- a value that is no object gives way, so the induction hypothesis covers a value and itself
    have hself : ∀ e ∈ src, mergeValue e.2 e.2 = e.2 := by
      intro e he
      have h := ih e he (.scalar "")
      rwa [mergeValue] at h
    cases dstVal with
    | scalar =>
      rw [mergeValue, mergeValue, deepMerge_eq_self]
      intro e he
      rw [some_merged, lookup_of_mem hnodup he, mergeOption, hself e he]
    | object dst =>
      rw [mergeValue, mergeValue, deepMerge_eq_self]
      intro e he
      rw [some_merged, lookup_deepMerge dst hnodup, lookup_of_mem hnodup he]
      cases lookup e.1 dst with
      | none => rw [none_mergeOption, mergeOption, hself e he]
      | some w => rw [mergeOption, mergeOption, ih e he w]

/-! ### Any order -/

theorem text_mergeValue (dstVal srcVal : ConfigValue) :
    (mergeValue dstVal srcVal).text = srcVal.text := by
  cases dstVal <;> cases srcVal <;> rfl

theorem map_text_mergeOption (dstVal srcVal : Option ConfigValue) :
    (mergeOption dstVal srcVal).map text = (srcVal.map text).or (dstVal.map text) := by
  cases srcVal with
  | none => simp
  | some =>
    cases dstVal with
    | none => rfl
    | some =>
      rw [mergeOption, Option.map_some, text_mergeValue]
      rfl

/-- **The merge does not depend on the order of the members.** -/
theorem ConfigValue.Same.mergeValue {dstVal dstVal' srcVal' : ConfigValue} (hsrc : srcVal.Distinct)
    (hsrc' : srcVal'.Distinct) (hd : dstVal.Same dstVal') (hs : srcVal.Same srcVal') :
    (Operator.mergeValue dstVal srcVal).Same (Operator.mergeValue dstVal' srcVal') := by
  intro path
  rw [valueAt_mergeValue dstVal hsrc, valueAt_mergeValue dstVal' hsrc', hs.shadows_eq path]
  split
  · rfl
  · rw [map_text_mergeOption, map_text_mergeOption, hd path, hs path]

/-! ### JSON objects -/

/-- A JSON object: the keys are different, at every level. -/
structure JsonObject where
  members : ConfigObject
  distinct : (ConfigValue.object members).Distinct

namespace JsonObject

def valueAt (o : JsonObject) (path : List String) : Option ConfigValue :=
  (ConfigValue.object o.members).valueAt path

/-- The same object, whatever the order of the members is. -/
def Same (o o' : JsonObject) : Prop := (ConfigValue.object o.members).Same (.object o'.members)

/-- A value that is no object stands above the path. -/
def shadows (o : JsonObject) (path : List String) : Bool :=
  (ConfigValue.object o.members).shadows path

/-- `deepMerge`. -/
def merge (d u : JsonObject) : JsonObject where
  members := deepMerge d.members u.members
  distinct := by
    have h := distinct_mergeValue u.distinct d.distinct
    rwa [mergeValue] at h

theorem valueAt_merge (d u : JsonObject) (path : List String) :
    (d.merge u).valueAt path =
      if u.shadows path then none else mergeOption (d.valueAt path) (u.valueAt path) := by
  have h := valueAt_mergeValue (.object d.members) u.distinct path
  rwa [mergeValue] at h

theorem merge_merge (d u : JsonObject) : (d.merge u).merge u = d.merge u := by
  have h := mergeValue_mergeValue u.distinct (.object d.members)
  rw [mk.injEq]
  exact ConfigValue.object.inj h

end JsonObject

/-- **The merged configuration, path by path.**  Where the user has a value, it is the value of the
result, unless the default is an object as well, with which it is then merged; elsewhere the default
stays, if no value of the user stands above it.  The order in which the maps are gone through does
not matter, and merging the configuration of the user again changes nothing. -/
theorem deepMerge_paths (d u : JsonObject) :
    (∀ path v, u.valueAt path = some v →
      (∀ members, v ≠ .object members) ∨ (∀ members, d.valueAt path ≠ some (.object members)) →
      (d.merge u).valueAt path = some v) ∧
    (∀ path dst src, d.valueAt path = some (.object dst) → u.valueAt path = some (.object src) →
      (d.merge u).valueAt path = some (.object (deepMerge dst src))) ∧
    (∀ path, u.valueAt path = none → u.shadows path = false →
      (d.merge u).valueAt path = d.valueAt path) ∧
    (∀ path, u.shadows path = true → (d.merge u).valueAt path = none) ∧
    (∀ d' u', d.Same d' → u.Same u' → (d.merge u).Same (d'.merge u')) ∧
    (d.merge u).merge u = d.merge u := by
  have hvalueAt := d.valueAt_merge u
  have hshadows : ∀ {path v}, u.valueAt path = some v → u.shadows path = false := by
    intro path v hv
    by_contra hne
    have hnone : u.valueAt path = none := valueAt_eq_none (Bool.eq_true_of_not_eq_false hne)
    rw [hnone] at hv
    cases hv
  refine ⟨?_, ?_, ?_, ?_, ?_, d.merge_merge u⟩
  · intro path v hv hor
    rw [hvalueAt, hshadows hv, hv, if_neg Bool.false_ne_true]
    cases hd : d.valueAt path with
    | none => rfl
    | some w =>
      cases w with
      | scalar => rw [mergeOption, mergeValue]
      | object dst =>
        cases v with
        | scalar => rfl
        | object src =>
          rcases hor with hsrc | hdst
          · exact absurd rfl (hsrc src)
          · exact absurd hd (hdst dst)
  · intro path dst src hd hu
    rw [hvalueAt, hshadows hu, hd, hu]
    rfl
  · intro path hu hfalse
    rw [hvalueAt, hfalse, hu]
    rfl
  · intro path htrue
    rw [hvalueAt, htrue]
    rfl
  · intro d' u' hd hu
    exact ConfigValue.Same.mergeValue u.distinct u'.distinct hd hu

/-- Defaults with a key below `log`, and a user who wants another value for `log`. -/
def logDefaults : JsonObject where
  members := [("log", .object [("level", .scalar "\"info\"")])]
  distinct := by
    refine .object _ (by decide) ?_
    simp only [mem_singleton, forall_eq]
    refine .object _ (by decide) ?_
    simp only [mem_singleton, forall_eq]
    exact .scalar _

def logOff : JsonObject where
  members := [("log", .scalar "false")]
  distinct := by
    refine .object _ (by decide) ?_
    simp only [mem_singleton, forall_eq]
    exact .scalar _

/-- The user has no value at `log.level` and the default is gone. -/
theorem default_gone_below_scalar :
    logOff.valueAt ["log", "level"] = none ∧
    logDefaults.valueAt ["log", "level"] = some (.scalar "\"info\"") ∧
    (logDefaults.merge logOff).valueAt ["log", "level"] = none :=
  ⟨rfl, rfl, rfl⟩

end K8s4Claw.Operator
