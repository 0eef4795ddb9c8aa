/-
# Signed receipts

`internal/signet/signer.go`: `Ed25519Signer` makes a receipt of an action, signs the text that
`canonicalPayload` builds from its fields, and returns the receipt with the signature as JSON.
`Verify` reads the receipt back and builds the text again.

Of encoding/json the receipt uses strings, an integer and a map that is left out when it is empty,
so what is read back is the receipt, but for an empty map, which becomes nil (`unmarshal_marshal`):
the text has `{}` for the one and `null` for the other.  In the text each field stands between
labels, unescaped, so it does not say in which of two fields a label stands, and it says everything
else (`canonicalPayload_eq_iff`).
-/

import K8s4Claw.Lib.Hex
import K8s4Claw.Lib.Json.Lead
import K8s4Claw.Lib.Json.Maps
import K8s4Claw.Lib.Strings

namespace K8s4Claw.Signet

open Lib (Bytes intText)
open List Option Lib.Json
open Lib.Strings (utf8 utf8_injective append_sep_inj joined settle)

/-- `SignRequest`. -/
structure SignRequest where
  key : String
  tool : String
  params : Option StringMap
  target : String

/-- `Receipt`. -/
structure Receipt where
  version : Int64 := 0
  id : String := ""
  keyID : String := ""
  tool : String := ""
  params : Option StringMap := none
  target : String := ""
  timestamp : String := ""
  signature : String := ""
  deriving DecidableEq

namespace Receipt

/-! ### JSON -/

/-- The fields of the struct. -/
inductive Field where
  | version
  | id
  | keyID
  | tool
  | params
  | target
  | timestamp
  | signature
  deriving DecidableEq

/-- The fields and the names in the struct tags. -/
def fields : Fields Field where
  all := [.version, .id, .keyID, .tool, .params, .target, .timestamp, .signature]
  name := fun
    | .version => "v"
    | .id => "id"
    | .keyID => "key"
    | .tool => "tool"
    | .params => "params"
    | .target => "target"
    | .timestamp => "ts"
    | .signature => "sig"
  find_name f := by cases f <;> decide

/-- What `json.Unmarshal` does with the member of one field. -/
def set (r : Receipt) : Field → Value → Option Receipt
  | .version, v => (decodeInt r.version v).map fun n => { r with version := n }
  | .id, v => (decodeString r.id v).map fun s => { r with id := s }
  | .keyID, v => (decodeString r.keyID v).map fun s => { r with keyID := s }
  | .tool, v => (decodeString r.tool v).map fun s => { r with tool := s }
  | .params, v => (decodeMap r.params v).map fun m => { r with params := m }
  | .target, v => (decodeString r.target v).map fun s => { r with target := s }
  | .timestamp, v => (decodeString r.timestamp v).map fun s => { r with timestamp := s }
  | .signature, v => (decodeString r.signature v).map fun s => { r with signature := s }

/-- The members of the object that is written. -/
def members (r : Receipt) : List (Body × Value) :=
  member (fields.name .version) (int r.version) ::
  member (fields.name .id) (string r.id) ::
  member (fields.name .keyID) (string r.keyID) ::
  member (fields.name .tool) (string r.tool) ::
  (omitEmptyMap (fields.name .params) r.params ++
  [member (fields.name .target) (string r.target),
   member (fields.name .timestamp) (string r.timestamp),
   member (fields.name .signature) (string r.signature)])

def marshal (r : Receipt) : Bytes := print (.obj r.members)

/-- `json.Unmarshal` into a zero receipt. -/
def unmarshal (data : Bytes) : Option Receipt := (parse data).bind (decodeStruct fields set {})

/-- The receipt as it is read back. -/
def readBack (r : Receipt) : Receipt :=
  { r with params := if r.params = some .empty then none else r.params }

theorem depth_members_le (r : Receipt) : depth (.obj r.members) ≤ maxNestingDepth := by
  have hparams : depthMembers (omitEmptyMap (fields.name .params) r.params) ≤ 1 := by
    unfold omitEmptyMap
    split_ifs
    · exact Nat.zero_le 1
    · simpa only [member, depthMembers, max_zero] using depth_ofMap_le r.params
  have hle : depth (.obj r.members) ≤ 2 := by
    simp [members, member, depth, depthMembers, depthMembers_append, string, int, hparams]
  exact hle.trans (by decide)

theorem unmarshal_marshal (r : Receipt) : unmarshal r.marshal = some r.readBack := by
  rw [unmarshal, marshal, parse_print_of_le r.depth_members_le, bind_some]
  obtain ⟨-, -, -, -, params, -, -, -⟩ := r
  simp only [members, decodeStruct_cons, set, decodeInt_int, decodeString_string, map_some,
    bind_some]
  by_cases hparams : params = some .empty
  · simp [hparams, omitEmptyMap, readBack, set]
  · have hread : ∀ r : Receipt, r.params = none →
        set r .params (ofMap params) = some { r with params := params } := by
      intro r hr
      rw [set, hr, decodeMap_ofMap]
      rfl
    rw [decodeStruct_omitEmptyMap (hread _ rfl)]
    · simp [set, readBack, hparams]
    · rintro (rfl | h)
      · rfl
      · exact absurd h hparams

/-! ### The text that is signed -/

def canonicalPayload (r : Receipt) : Bytes :=
  utf8 "v=" ++ (intText r.version.toInt ++ (utf8 "|id=" ++ (utf8 r.id ++ (utf8 "|key=" ++
    (utf8 r.keyID ++ (utf8 "|tool=" ++ (utf8 r.tool ++ (utf8 "|target=" ++ (utf8 r.target ++
      (utf8 "|ts=" ++ (utf8 r.timestamp ++ (utf8 "|params=" ++ print (ofMap r.params)))))))))))))

/-- The fields between the id and the parameters, with their labels. -/
def labelled (r : Receipt) : List (List Char × List Char) :=
  [("|key=".toList, r.keyID.toList), ("|tool=".toList, r.tool.toList),
    ("|target=".toList, r.target.toList), ("|ts=".toList, r.timestamp.toList)]

/-- The receipts have the same version and parameters, and the same other fields after each field is
cut at the label of the next one. -/
def SameText (r₁ r₂ : Receipt) : Prop :=
  r₁.version = r₂.version ∧ r₁.params = r₂.params ∧
    settle r₁.id.toList r₁.labelled = settle r₂.id.toList r₂.labelled
  deriving Decidable

theorem canonicalPayload_eq (r : Receipt) :
    r.canonicalPayload = utf8 "v=" ++ (intText r.version.toInt ++ (utf8 "|id=" ++
      (utf8 (.ofList (joined r.id.toList r.labelled)) ++
        (utf8 "|params=" ++ print (ofMap r.params))))) := by
  simp only [canonicalPayload, joined, labelled, utf8, String.toList_ofList, flatMap_append,
    append_assoc]

theorem joined_labelled_eq_iff (r₁ r₂ : Receipt) :
    joined r₁.id.toList r₁.labelled = joined r₂.id.toList r₂.labelled ↔
      settle r₁.id.toList r₁.labelled = settle r₂.id.toList r₂.labelled := by
  refine Lib.Strings.joined_eq_iff rfl fun label hlabel => ?_
  simp only [labelled, map_cons, map_nil, mem_cons, not_mem_nil,
    or_false] at hlabel
  rcases hlabel with rfl | rfl | rfl | rfl <;> exact ⟨_, _, rfl, by decide⟩

theorem id_not_infix_intText (n : ℤ) : ¬ utf8 "|id=" <:+: intText n := by
  intro h
  have hmem : (124 : UInt8) ∈ (Number.ofInt n).text := h.subset (by decide)
  have hle := (toNat_of_isToken ((Number.ofInt n).isToken_of_mem hmem)).2
  revert hle
  decide

theorem eq_of_print_append {x y z : Bytes} {v w : Value}
    (h : y ++ utf8 "|params=" = x ++ utf8 "|params=" ++ z) (hprint : print v = z ++ print w) :
    v = w := by
  rcases eq_nil_or_concat' z with rfl | ⟨z, c, rfl⟩
  · exact print_injective hprint
  · -- the label ends with an equals sign, so `z` does
    have hlast := congrArg getLast? h
    rw [← append_assoc, getLast?_concat, getLast?_append] at hlast
    obtain rfl : 61 = c := some.inj hlast
    rw [append_assoc] at hprint
    exact absurd hprint (print_ne_append_print z v w)

/-- The text of the parameters is what stands behind the last label: a label inside it is no such
place, since what follows it there is no text of parameters. -/
theorem params_inj {x y : Bytes} {v w : Value}
    (h : x ++ (utf8 "|params=" ++ print v) = y ++ (utf8 "|params=" ++ print w)) : v = w := by
  rw [← append_assoc, ← append_assoc] at h
  rcases append_eq_append_iff.mp h with ⟨z, hz, hprint⟩ | ⟨z, hz, hprint⟩
  · exact eq_of_print_append hz hprint
  · exact (eq_of_print_append hz hprint).symm

/-- **What the text says**: the fields, up to labels that stand inside them. -/
theorem canonicalPayload_eq_iff (r₁ r₂ : Receipt) :
    r₁.canonicalPayload = r₂.canonicalPayload ↔ r₁.SameText r₂ := by
  rw [canonicalPayload_eq, canonicalPayload_eq]
  constructor
  · intro h
    obtain ⟨hversion, h⟩ := append_sep_inj (by decide : (124 : UInt8) ∉ [105, 100, 61])
      (id_not_infix_intText _) (id_not_infix_intText _) (append_cancel_left h)
    have hparams := params_inj h
    rw [hparams] at h
    have hint : r₁.version.toInt = r₂.version.toInt := by
      have hparse := Lib.parseInt_intText r₁.version.toInt
      rw [hversion, Lib.parseInt_intText] at hparse
      exact (some.inj hparse).symm
    have hfields := utf8_injective (append_cancel_right h)
    exact ⟨Int64.toInt_inj.mp hint, ofMap_injective hparams,
      (joined_labelled_eq_iff r₁ r₂).mp (String.ofList_injective hfields)⟩
  · rintro ⟨hversion, hparams, hfields⟩
    rw [hversion, hparams, (joined_labelled_eq_iff r₁ r₂).mpr hfields]

end Receipt

/-! ### Signing and verifying -/

/-- crypto/ed25519. -/
structure Ed25519 where
  PrivateKey : Type
  PublicKey : Type
  sign : PrivateKey → Bytes → Bytes
  verify : PublicKey → Bytes → Bytes → Bool

/-- `Ed25519Signer`, with the keys of one pair. -/
structure Ed25519Signer (E : Ed25519) where
  privateKey : E.PrivateKey
  publicKey : E.PublicKey
  verify_sign : ∀ payload, E.verify publicKey payload (E.sign privateKey payload) = true

/-- `randomID`, of the bytes that `rand.Read` gives. -/
def randomID (b : Bytes) : String := "rec_" ++ Lib.Hex.encodeToString b

/-- The errors of `Verify`. -/
inductive VerifyError where
  | failedToParse
  | failedToDecode
  deriving DecidableEq

namespace Ed25519Signer

variable {E : Ed25519} (s : Ed25519Signer E)

/-- The receipt with the signature of a payload. -/
def stamp (r : Receipt) (payload : Bytes) : Receipt :=
  { r with signature := Lib.Hex.encodeToString (E.sign s.privateKey payload) }

/-- `Sign`, with what `rand.Read` returns and the time of the call as RFC 3339 writes it. -/
def sign (random : Except String Bytes) (now : String) (req : SignRequest) :
    Except String Bytes :=
  match random with
  | .error err => .error ("failed to generate receipt ID: " ++ err)
  | .ok b =>
      let receipt : Receipt :=
        { version := 1
          id := randomID b
          keyID := req.key
          tool := req.tool
          params := req.params
          target := req.target
          timestamp := now }
      -- json.Marshal of strings, an integer and a map of strings does not fail
      .ok (s.stamp receipt receipt.canonicalPayload).marshal

def verify (receiptJSON : Bytes) : Except VerifyError Bool :=
  match Receipt.unmarshal receiptJSON with
  | none => .error .failedToParse
  | some receipt =>
      match Lib.Hex.decodeString receipt.signature with
      | none => .error .failedToDecode
      | some sig => .ok (E.verify s.publicKey receipt.canonicalPayload sig)

/-- What is verified is the payload of the receipt as it is read back. -/
theorem verify_stamp (r : Receipt) (payload : Bytes) :
    s.verify (s.stamp r payload).marshal =
      .ok (E.verify s.publicKey r.readBack.canonicalPayload (E.sign s.privateKey payload)) := by
  rw [verify, Receipt.unmarshal_marshal]
  simp only [Receipt.readBack, stamp, Lib.Hex.decodeString_encodeToString]
  rfl

/-- A signature is accepted for no other payload. -/
def Binding : Prop :=
  ∀ payload payload', payload' ≠ payload →
    E.verify s.publicKey payload' (E.sign s.privateKey payload) = false

/-- **Receipts verify, unless the parameters are an empty map.**  With a nil map and with any map
that has an entry `Verify` accepts what `Sign` returned.  An empty map is signed as `{}` and read
back as nil, so that another text is verified. -/
theorem verify_sign_of_params (random : Bytes) (now : String) (req : SignRequest) :
    ∃ out, s.sign (.ok random) now req = .ok out ∧
      (req.params ≠ some .empty → s.verify out = .ok true) ∧
      (req.params = some .empty → s.Binding → s.verify out = .ok false) := by
  refine ⟨_, rfl, fun hparams => ?_, fun hparams hbinding => ?_⟩
  · rw [verify_stamp, Receipt.readBack, if_neg hparams, s.verify_sign]
  · rw [verify_stamp, hbinding]
    simp only [Receipt.readBack, Receipt.canonicalPayload, hparams, ne_eq,
      append_cancel_left_eq]
    decide

/-- A scheme whose signature of a payload is the payload. -/
def plain : Ed25519 where
  PrivateKey := Unit
  PublicKey := Unit
  sign _ payload := payload
  verify _ payload sig := decide (payload = sig)

/-- The signer of that scheme. -/
def plainSigner : Ed25519Signer plain where
  privateKey := ()
  publicKey := ()
  verify_sign _ := decide_eq_true rfl

/-- A request with an empty map gives a receipt that does not verify. -/
theorem empty_params_rejected :
    ∃ out, plainSigner.sign (.ok (replicate 16 0)) "2026-01-01T00:00:00Z"
        { key := "k8s4claw", tool := "restart-pod", params := some .empty, target := "demo" }
          = .ok out ∧
      plainSigner.verify out = .ok false := by
  refine ⟨_, rfl, ?_⟩
  rw [verify_stamp]
  decide +kernel

end Ed25519Signer

end K8s4Claw.Signet
