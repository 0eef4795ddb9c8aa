/-
# Messages of the bus

`Message` of `internal/ipcbus/message.go` with its JSON form, and the frames of
`internal/ipcbus/framing.go` that carry it.

A payload is a `json.RawMessage`.  `json.Marshal` validates it, removes its white space
and escapes `<`, `>`, `&`, U+2028 and U+2029; the model keeps the value in that form, so
two payloads are equal here exactly when they are written alike.  The messages of the bus
are those it has read and those of `NewMessage` and `NewAck`: their payloads are nested
one level less than `encoding/json` reads (`Payload`).  `json.Marshal` fails on a message
whose timestamp it cannot write.

* `unmarshal_text` : what `json.Marshal` writes for a message is read back as it;
* `readMessage_writeMessage` : so is the frame `WriteMessage` writes.
-/

import K8s4Claw.MessageType
import K8s4Claw.Lib.Framing
import K8s4Claw.Lib.Json.Struct

namespace K8s4Claw.IpcBus

open Lib (Bytes Time)
open Option Lib.Json

/-- A value that a message around it can be read with. -/
abbrev Payload := {v : Value // depth v < maxNestingDepth}

/-- `Message`. -/
structure Message where
  id : String
  type : MessageType
  channel : String
  correlationID : String
  replyTo : String
  timestamp : Time
  payload : Option Payload
  deriving DecidableEq

namespace Message

/-- The zero value: its type is the empty string, which is none of the constants. -/
def zero : Message where
  id := ""
  type := .ofText ""
  channel := ""
  correlationID := ""
  replyTo := ""
  timestamp := .zero
  payload := none

/-- A data message without payload. -/
def plain (id channel : String) : Message :=
  { zero with id := id, type := .message, channel := channel }

/-- `NewMessage`; `uuid` is the new id and `now` the time. -/
def newMessage (uuid : String) (now : Time) (type : MessageType) (channel : String)
    (payload : Option Payload) : Message :=
  { zero with id := uuid, type := type, channel := channel, timestamp := now, payload := payload }

def newAck (uuid : String) (now : Time) (id : String) : Message :=
  { zero with
    id := uuid
    type := .ack
    correlationID := id
    timestamp := now
    payload := some ⟨.obj [member "ref" (string id)], (by decide : 1 < maxNestingDepth)⟩ }

def isControl (m : Message) : Bool := m.type.isControl

/-! ### JSON -/

/-- The fields of the struct. -/
inductive Field where
  | id
  | type
  | channel
  | correlationID
  | replyTo
  | timestamp
  | payload
  deriving DecidableEq

def Field.name : Field → String
  | id => "id"
  | type => "type"
  | channel => "channel"
  | correlationID => "correlationId"
  | replyTo => "replyTo"
  | timestamp => "timestamp"
  | payload => "payload"

def fields : Fields Field where
  all := [.id, .type, .channel, .correlationID, .replyTo, .timestamp, .payload]
  name := Field.name
  find_name f := by cases f <;> decide

/-- What `json.Unmarshal` does with the member of one field.  A `json.RawMessage` takes any
value, `null` included, and none that was read with an object around it is too deep. -/
def set (m : Message) : Field → Value → Option Message
  | .id, v => (decodeString m.id v).map fun s => { m with id := s }
  | .type, v => (decodeString m.type.text v).map fun s => { m with type := .ofText s }
  | .channel, v => (decodeString m.channel v).map fun s => { m with channel := s }
  | .correlationID, v =>
      (decodeString m.correlationID v).map fun s => { m with correlationID := s }
  | .replyTo, v => (decodeString m.replyTo v).map fun s => { m with replyTo := s }
  | .timestamp, v => (decodeTime m.timestamp v).map fun t => { m with timestamp := t }
  | .payload, v =>
      if h : depth v < maxNestingDepth then some { m with payload := some ⟨v, h⟩ } else none

/-- Fill `m` from a JSON value. -/
def decode (m : Message) (v : Value) : Option Message := decodeStruct fields set m v

/-- The members of the object that is written for `m`. -/
def members (m : Message) : List (Body × Value) :=
  member (fields.name .id) (string m.id) ::
  member (fields.name .type) (string m.type.text) ::
  (omitEmpty (fields.name .channel) m.channel ++
  (omitEmpty (fields.name .correlationID) m.correlationID ++
  (omitEmpty (fields.name .replyTo) m.replyTo ++
  (member (fields.name .timestamp) (time m.timestamp) ::
  (m.payload.map fun p => member (fields.name .payload) p.val).toList))))

/-- The text of a message. -/
def text (m : Message) : Bytes := print (.obj m.members)

/-- `json.Marshal` goes through. -/
def Marshals (m : Message) : Prop := m.timestamp.Marshals
  deriving Decidable

def marshal (m : Message) : Option Bytes := if m.Marshals then some m.text else none

/-- How deep the payload is nested. -/
def nesting (m : Message) : ℕ := (m.payload.map fun p => depth p.val).getD 0

/-- The message can be read back from inside an object. -/
def Nestable (m : Message) : Prop := m.nesting + 2 ≤ maxNestingDepth
  deriving Decidable

/-- `json.Unmarshal` into a zero message. -/
def unmarshal (data : Bytes) : Option Message := (parse data).bind zero.decode

/-- **The members of a message set the fields of a zero message to its own.** -/
theorem decode_members {m : Message} (h : m.Marshals) :
    zero.decode (.obj m.members) = some m := by
  obtain ⟨id, type, channel, correlationID, replyTo, timestamp, payload⟩ := m
  have htime : timestamp.Marshals := h
  simp only [decode, members, decodeStruct_cons, set, decodeString_string, map_some,
    bind_some, MessageType.ofText_text]
  rw [decodeStruct_omitEmpty (b := { zero with id := id, type := type, channel := channel })
      (by simp [set]) (by rintro rfl; rfl),
    decodeStruct_omitEmpty (b := { zero with
        id := id, type := type, channel := channel, correlationID := correlationID })
      (by simp [set]) (by rintro rfl; rfl),
    decodeStruct_omitEmpty (b := { zero with
        id := id, type := type, channel := channel, correlationID := correlationID,
        replyTo := replyTo })
      (by simp [set]) (by rintro rfl; rfl)]
  cases payload with
  | none => simp [set, zero, htime]
  | some p => simp [set, zero, htime, p.prop]

theorem depth_members (m : Message) : depth (.obj m.members) = m.nesting + 1 := by
  have homit (name s : String) : depthMembers (omitEmpty name s) = 0 := by
    unfold omitEmpty
    split_ifs <;> rfl
  rw [depth, members, nesting]
  simp only [depthMembers, member, depthMembers_append, homit, string, time, depth]
  cases m.payload <;> simp [depthMembers]

theorem nesting_lt (m : Message) : m.nesting < maxNestingDepth := by
  unfold nesting
  cases m.payload with
  | none => decide
  | some p => exact p.prop

theorem unmarshal_text {m : Message} (h : m.Marshals) : unmarshal m.text = some m := by
  have hdepth : depth (.obj m.members) ≤ maxNestingDepth := by
    rw [depth_members]
    exact m.nesting_lt
  rw [unmarshal, text, parse_print_of_le hdepth, bind_some, decode_members h]

end Message

/-! ### Frames -/

/-- `MaxMessageSize`: 16 MiB. -/
def maxMessageSize : ℕ := 16 * 1024 * 1024

def frameHeaderSize : ℕ := 4

/-- `binary.BigEndian.PutUint32`. -/
def putUint32 (n : ℕ) : Bytes :=
  [.ofNat (n / 2 ^ 24), .ofNat (n / 2 ^ 16), .ofNat (n / 2 ^ 8), .ofNat n]

/-- `binary.BigEndian.Uint32`. -/
def uint32 (header : Bytes) : ℕ := header.foldl (fun n b => n * 256 + b.toNat) 0

/-- What `WriteMessage` writes to the connection; `none` when the message cannot be marshalled or is
too large. -/
def writeMessage (m : Message) : Option Bytes :=
  m.marshal.bind fun data =>
    if data.length > maxMessageSize then none else some (putUint32 data.length ++ data)

theorem writeMessage_eq_some_iff {m : Message} {frame : Bytes} :
    writeMessage m = some frame ↔
      m.Marshals ∧ m.text.length ≤ maxMessageSize ∧
        frame = putUint32 m.text.length ++ m.text := by
  by_cases hm : m.Marshals
  · simp [writeMessage, Message.marshal, hm, eq_comm (a := frame)]
  · simp [writeMessage, Message.marshal, hm]

/-- `ReadMessage` on the bytes still to come: the message and the bytes after it, or `none` for
an error.  `io.ReadFull` fails when fewer bytes come than it asks for. -/
def readMessage (input : Bytes) : Option (Message × Bytes) :=
  if input.length < frameHeaderSize then none
  else
    let length := uint32 (input.take frameHeaderSize)
    let rest := input.drop frameHeaderSize
    if length > maxMessageSize then none
    else if rest.length < length then none
    else (Message.unmarshal (rest.take length)).map fun m => (m, rest.drop length)

/-- `WriteMessage` and `ReadMessage` as a framing. -/
def framing : Lib.Framing Message where
  headerSize := frameHeaderSize
  maxSize := maxMessageSize
  putHeader := putUint32
  getHeader := uint32
  encode := Message.marshal
  decode := Message.unmarshal

theorem uint32_putUint32_of_le {n : ℕ} (h : n ≤ maxMessageSize) : uint32 (putUint32 n) = n := by
  have hmax : maxMessageSize < 2 ^ 32 := by decide
  simp only [uint32, putUint32, List.foldl_cons, List.foldl_nil, UInt8.toNat_ofNat']
  omega

theorem framing_reads : framing.Reads framing where
  headerSize := rfl
  maxSize := le_rfl
  length_putHeader _ := rfl
  getHeader _ h := uint32_putUint32_of_le h
  decode m data h := by
    obtain ⟨hm, hdata⟩ := ite_none_right_eq_some.mp h
    cases hdata
    exact Message.unmarshal_text hm

/-- **A frame that was written is read back**, and nothing of what follows it is consumed. -/
theorem readMessage_writeMessage {m : Message} {frame : Bytes} (h : writeMessage m = some frame)
    (rest : Bytes) : readMessage (frame ++ rest) = some (m, rest) :=
  Lib.Framing.read_frame framing_reads h rest

end K8s4Claw.IpcBus
