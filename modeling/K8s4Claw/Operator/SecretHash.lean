/-
# The hash of a Secret

`injectCredentials` of `internal/controller/claw_credentials.go` writes a hash of the Secret with
the credentials into the pod template, so that the pod is restarted when the Secret changes.
`computeSecretHash` hashes the keys in their order, each followed by `=` and its value, with nothing
between an entry and the next one: the characters of a text here stand for the bytes of a value.

So one entry may say what two neighbours say (`Merges`), and this is all that the hash does not
tell: two Secrets have the same hash exactly if such merges, done and undone, lead from one to the
other (`hashed_eq_iff`).  Every Secret that is not empty merges into one entry.
-/

import K8s4Claw.Lib.Assoc
import K8s4Claw.Lib.Strings
import K8s4Claw.Operator.Sidecars

namespace K8s4Claw.Operator

open List
open Lib.Assoc (sorted perm_sorted)
open Relation (EqvGen)

/-- The characters of a key. -/
def isKeyChar (c : Char) : Bool := c.isAlphanum || c = '-' || c = '_' || c = '.'

/-- Entries as they are hashed. -/
def entriesText (es : List (String × String)) : String :=
  String.join (es.map fun e => e.1 ++ "=" ++ e.2)

/-- Two neighbours `k: v` and `k': v'` in the first list are one entry in the second, whose value
has the second key and value behind the first value: `k: vk'=v'`. -/
inductive Merges : List (String × String) → List (String × String) → Prop
  | mk (before : List (String × String)) (k v k' v' : String) (rest : List (String × String)) :
    Merges (before ++ (k, v) :: (k', v') :: rest)
      (before ++ (k, v ++ (k' ++ "=" ++ v')) :: rest)

namespace Secret

def value (s : Secret) (key : String) : Option String := lookup key s.data

/-- What `computeSecretHash` hashes. -/
def hashed (s : Secret) : String := entriesText (sorted s.data)

/-- The API server lets no other keys in. -/
def ValidKeys (s : Secret) : Prop := ∀ e ∈ s.data, ∀ c ∈ e.1.toList, isKeyChar c = true

instance (s : Secret) : Decidable s.ValidKeys :=
  decidable_of_iff (s.data.all (fun e => e.1.toList.all isKeyChar) = true)
    (by simp [ValidKeys, all_eq_true])

/-- The Secrets are two maps. -/
def Differ (s₁ s₂ : Secret) : Prop := ∃ key, s₁.value key ≠ s₂.value key

/-- Merges of neighbours in key order, done and undone, lead from one Secret to the other. -/
def SameUpToMerges (s₁ s₂ : Secret) : Prop := EqvGen Merges (sorted s₁.data) (sorted s₂.data)

end Secret

/-! ### The concatenation -/

section

variable {es es' : List (String × String)} {k k' v v' : String}

theorem entriesText_append (es es' : List (String × String)) :
    entriesText (es ++ es') = entriesText es ++ entriesText es' := by
  rw [← String.toList_inj]
  simp [entriesText, String.toList_join]

theorem entriesText_cons (e : String × String) (es : List (String × String)) :
    entriesText (e :: es) = e.1 ++ "=" ++ e.2 ++ entriesText es := by
  rw [← String.toList_inj]
  simp [entriesText, String.toList_join]

theorem Merges.entriesText_eq (h : Merges es es') : entriesText es = entriesText es' := by
  obtain ⟨before, k, v, k', v', rest⟩ := h
  simp only [entriesText_append, entriesText_cons, String.append_assoc]

theorem entriesText_eq_of_eqvGen (h : EqvGen Merges es es') : entriesText es = entriesText es' := by
  induction h with
  | rel _ _ h => exact h.entriesText_eq
  | refl => rfl
  | symm _ _ _ ih => exact ih.symm
  | trans _ _ _ _ _ ih ih' => exact ih.trans ih'

/-- **Entries merge into one**, which has the first key. -/
theorem eqvGen_single (k v : String) (es : List (String × String)) :
    EqvGen Merges ((k, v) :: es) [(k, v ++ entriesText es)] := by
  induction es generalizing v with
  | nil =>
    have hnil : v ++ entriesText [] = v := String.append_empty
    rw [hnil]
    exact .refl _
  | cons e es ih =>
    have hmerge : EqvGen Merges ((k, v) :: e :: es) ((k, v ++ (e.1 ++ "=" ++ e.2)) :: es) :=
      .rel _ _ (Merges.mk [] k v e.1 e.2 es)
    have htext : v ++ (e.1 ++ "=" ++ e.2) ++ entriesText es = v ++ entriesText (e :: es) := by
      rw [entriesText_cons, String.append_assoc]
    have hrest := ih (v ++ (e.1 ++ "=" ++ e.2))
    rw [htext] at hrest
    exact .trans _ _ _ hmerge hrest

/-- A key ends at the first equals sign. -/
theorem key_inj (hk : '=' ∉ k.toList) (hk' : '=' ∉ k'.toList)
    (h : k ++ ("=" ++ v) = k' ++ ("=" ++ v')) : k = k' ∧ v = v' := by
  have hlist := congrArg String.toList h
  simp only [String.toList_append] at hlist
  obtain ⟨hkey, hvalue⟩ := Lib.Strings.append_sep_inj (c := '=') not_mem_nil
    (mt (singleton_infix_iff _ _).mp hk) (mt (singleton_infix_iff _ _).mp hk') hlist
  exact ⟨String.toList_inj.mp hkey, String.toList_inj.mp hvalue⟩

theorem entriesText_ne_nil (e : String × String) (es : List (String × String)) :
    entriesText (e :: es) ≠ entriesText [] := by
  intro h
  have hlist := congrArg String.toList h
  simp [entriesText, String.toList_join] at hlist

theorem eqvGen_of_entriesText (hes : ∀ e ∈ es, '=' ∉ e.1.toList)
    (hes' : ∀ e ∈ es', '=' ∉ e.1.toList) (h : entriesText es = entriesText es') :
    EqvGen Merges es es' := by
  match es, es' with
  | [], [] => exact .refl _
  | [], e :: es => exact absurd h.symm (entriesText_ne_nil e es)
  | e :: es, [] => exact absurd h (entriesText_ne_nil e es)
  | (k, v) :: es, (k', v') :: es' =>
    simp only [entriesText_cons, String.append_assoc] at h
    obtain ⟨rfl, hvalue⟩ := key_inj (hes _ mem_cons_self) (hes' _ mem_cons_self) h
    have hsingle := eqvGen_single k v es
    rw [hvalue] at hsingle
    exact .trans _ _ _ hsingle (.symm _ _ (eqvGen_single k v' es'))

end

namespace Secret

variable {s₁ s₂ : Secret}

theorem notMem_key {s : Secret} (h : s.ValidKeys) : ∀ e ∈ sorted s.data, '=' ∉ e.1.toList :=
  fun e he hc => absurd (h e ((perm_sorted _).mem_iff.mp he) '=' hc) (by decide)

/-- **What the hashed text says**: the Secret, up to merges of its entries. -/
theorem hashed_eq_iff (h₁ : s₁.ValidKeys) (h₂ : s₂.ValidKeys) :
    s₁.hashed = s₂.hashed ↔ s₁.SameUpToMerges s₂ :=
  ⟨eqvGen_of_entriesText (notMem_key h₁) (notMem_key h₂), entriesText_eq_of_eqvGen⟩

end Secret

/-! ### The pod template -/

variable (L : Libs)

/-- The template with the hash of a Secret. -/
def stamped (creds : CredentialSpec) (s : Secret) (t : PodTemplate) : PodTemplate :=
  { t with
    annotations := ("claw.prismer.ai/secret-hash", L.sha256 s.hashed) :: t.annotations
    containers := onRuntime (withCredentials creds) t.containers }

theorem injectCredentials_eq_stamped {cluster : Cluster} {claw : Claw} {creds : CredentialSpec}
    {name : String} {s : Secret} {t : PodTemplate} (hcreds : claw.spec.credentials = some creds)
    (href : creds.secretRef = some name) (hsecret : cluster.secret claw.ns name = .ok (some s))
    (hruntime : t.containers.any (·.name = "runtime") = true) :
    injectCredentials L cluster claw t = .ok (stamped L creds s t) := by
  rw [injectCredentials, hcreds]
  simp only [if_pos hruntime, secretAnnotations, href, computeSecretHash, hsecret]
  rfl

/-- **When a change of the Secret changes the pod template.**  The templates for two Secrets differ,
and so do the annotations with the hash, exactly if merges of entries do not lead from one Secret to
the other. -/
theorem secret_change_rolls {c₁ c₂ : Cluster} {claw : Claw} {creds : CredentialSpec}
    {name : String} {s₁ s₂ : Secret} {t : PodTemplate}
    (hsha : Set.InjOn L.sha256 (Set.range Secret.hashed))
    (hcreds : claw.spec.credentials = some creds) (href : creds.secretRef = some name)
    (h₁ : c₁.secret claw.ns name = .ok (some s₁)) (h₂ : c₂.secret claw.ns name = .ok (some s₂))
    (hruntime : t.containers.any (·.name = "runtime") = true)
    (hkeys₁ : s₁.ValidKeys) (hkeys₂ : s₂.ValidKeys) :
    ∃ t₁ t₂, injectCredentials L c₁ claw t = .ok t₁ ∧ injectCredentials L c₂ claw t = .ok t₂ ∧
      (t₁ ≠ t₂ ↔ ¬ s₁.SameUpToMerges s₂) ∧
      (lookup "claw.prismer.ai/secret-hash" t₁.annotations ≠
          lookup "claw.prismer.ai/secret-hash" t₂.annotations ↔
        ¬ s₁.SameUpToMerges s₂) := by
  have hiff : L.sha256 s₁.hashed = L.sha256 s₂.hashed ↔ s₁.SameUpToMerges s₂ :=
    (hsha.eq_iff ⟨s₁, rfl⟩ ⟨s₂, rfl⟩).trans (Secret.hashed_eq_iff hkeys₁ hkeys₂)
  refine ⟨_, _, injectCredentials_eq_stamped L hcreds href h₁ hruntime,
    injectCredentials_eq_stamped L hcreds href h₂ hruntime, ?_, ?_⟩
  · rw [← hiff]
    simp [stamped]
  · rw [← hiff]
    simp [stamped]

/-! ### Two Secrets with one hash -/

/-- A cluster with one Secret. -/
def secretCluster (s : Secret) : Cluster where
  channel _ _ := .ok none
  secret _ _ := .ok (some s)
  other _ _ := none

/-- A template with the container of the runtime. -/
def runtimeTemplate : PodTemplate where
  initContainers := []
  containers := [{ name := "runtime", image := "openclaw" }]
  volumes := []

/-- Another key and another value, both with an equals sign in the value. -/
theorem secret_change_rolls_otherKey :
    ∃ t₁ t₂,
      injectCredentials sampleLibs (secretCluster (.single "a" "x=1")) furnishedClaw
        runtimeTemplate = .ok t₁ ∧
      injectCredentials sampleLibs (secretCluster (.single "b" "y=2")) furnishedClaw
        runtimeTemplate = .ok t₂ ∧
      lookup "claw.prismer.ai/secret-hash" t₁.annotations ≠
        lookup "claw.prismer.ai/secret-hash" t₂.annotations := by
  have hsha : Set.InjOn sampleLibs.sha256 (Set.range Secret.hashed) :=
    Function.injective_id.injOn
  have hcreds : furnishedClaw.spec.credentials = some { secretRef := some "llm" } := rfl
  have hsecret (s : Secret) : (secretCluster s).secret furnishedClaw.ns "llm" = .ok (some s) := rfl
  have hruntime : runtimeTemplate.containers.any (·.name = "runtime") = true := by decide
  obtain ⟨t₁, t₂, h₁, h₂, -, hne⟩ := secret_change_rolls sampleLibs hsha hcreds rfl
    (hsecret (.single "a" "x=1")) (hsecret (.single "b" "y=2")) hruntime (by decide) (by decide)
  exact ⟨t₁, t₂, h₁, h₂,
    hne.mpr fun hsame => absurd (entriesText_eq_of_eqvGen hsame) (by decide +kernel)⟩

/-- The Secret with the entries `a: 1` and `b: 2`. -/
def twoEntries : Secret := ⟨[("a", "1"), ("b", "2")], by decide⟩

/-- One value says what the other Secret says in two entries. -/
theorem template_unchanged :
    (Secret.single "a" "1b=2").Differ twoEntries ∧ (Secret.single "a" "1b=2").ValidKeys ∧
      twoEntries.ValidKeys ∧
      injectCredentials sampleLibs (secretCluster (.single "a" "1b=2")) furnishedClaw
          runtimeTemplate =
        injectCredentials sampleLibs (secretCluster twoEntries) furnishedClaw runtimeTemplate ∧
      (injectCredentials sampleLibs (secretCluster twoEntries) furnishedClaw
        runtimeTemplate).toOption.isSome := by
  exact ⟨⟨"b", by decide⟩, by decide, by decide, by decide +kernel, by decide +kernel⟩

end K8s4Claw.Operator
