/-
# Frames of the SDK and of the bus

`sdk/channel/message.go` has its own struct for messages and its own `writeMessage` and
`readMessage`, since the SDK does not import `internal/`.  This is a model of that file next to the
one of `internal/ipcbus/message.go` and `framing.go` (`IpcBus.Message`), field by field and constant
by constant, and the proof that the two agree: whoever writes and whoever reads each message of a
stream, and however the connection splits it, the messages are read back (`frames_received`).

`Sdk.Message` is the same struct as the queues of the client see it.  Here the timestamp is a time
and the payload a JSON value, which may be too deep for any reader: `json.Marshal` only looks at the
payload itself.
-/

import K8s4Claw.IpcBus.Message

namespace K8s4Claw.Sdk

open Lib (Bytes Framing Time)
open List Lib.Json

/-- `message`. -/
structure WireMessage where
  id : String
  type : MessageType
  channel : String
  correlationID : String
  replyTo : String
  timestamp : Time
  payload : Option Value
  deriving DecidableEq

namespace WireMessage

def zero : WireMessage where
  id := ""
  type := .ofText ""
  channel := ""
  correlationID := ""
  replyTo := ""
  timestamp := .zero
  payload := none

/-! ### JSON -/

/-- The fields of the struct. -/
inductive Field where
  | id
  | type
  | channel
  | correlationID
  | replyTo
  | timestamp
  | payload
  deriving DecidableEq

def Field.name : Field → String
  | id => "id"
  | type => "type"
  | channel => "channel"
  | correlationID => "correlationId"
  | replyTo => "replyTo"
  | timestamp => "timestamp"
  | payload => "payload"

def fields : Fields Field where
  all := [.id, .type, .channel, .correlationID, .replyTo, .timestamp, .payload]
  name := Field.name
  find_name f := by cases f <;> decide

/-- What `json.Unmarshal` does with the member of one field. -/
def set (m : WireMessage) : Field → Value → Option WireMessage
  | .id, v => (decodeString m.id v).map fun s => { m with id := s }
  | .type, v => (decodeString m.type.text v).map fun s => { m with type := .ofText s }
  | .channel, v => (decodeString m.channel v).map fun s => { m with channel := s }
  | .correlationID, v =>
      (decodeString m.correlationID v).map fun s => { m with correlationID := s }
  | .replyTo, v => (decodeString m.replyTo v).map fun s => { m with replyTo := s }
  | .timestamp, v => (decodeTime m.timestamp v).map fun t => { m with timestamp := t }
  | .payload, v => some { m with payload := some v }

/-- Fill `m` from a JSON value. -/
def decode (m : WireMessage) (v : Value) : Option WireMessage := decodeStruct fields set m v

/-- The members of the object that is written for `m`. -/
def members (m : WireMessage) : List (Body × Value) :=
  member (fields.name .id) (string m.id) ::
  member (fields.name .type) (string m.type.text) ::
  (omitEmpty (fields.name .channel) m.channel ++
  (omitEmpty (fields.name .correlationID) m.correlationID ++
  (omitEmpty (fields.name .replyTo) m.replyTo ++
  (member (fields.name .timestamp) (time m.timestamp) ::
  (m.payload.map (member (fields.name .payload))).toList))))

/-- The text of a message. -/
def text (m : WireMessage) : Bytes := print (.obj m.members)

/-- `json.Marshal` goes through: it writes the timestamp and reads the payload. -/
def Marshals (m : WireMessage) : Prop :=
  m.timestamp.Marshals ∧ ∀ v ∈ m.payload, depth v ≤ maxNestingDepth
  deriving Decidable

def marshal (m : WireMessage) : Option Bytes := if m.Marshals then some m.text else none

/-- `json.Unmarshal` into a zero message. -/
def unmarshal (data : Bytes) : Option WireMessage := (parse data).bind zero.decode

/-! ### The two structs -/

/-- The message of the bus with the same fields; no message that was read has a payload that is too
deep for it. -/
def toBus (m : WireMessage) : IpcBus.Message where
  id := m.id
  type := m.type
  channel := m.channel
  correlationID := m.correlationID
  replyTo := m.replyTo
  timestamp := m.timestamp
  payload := m.payload.bind fun v => if h : depth v < maxNestingDepth then some ⟨v, h⟩ else none

/-- The message of the SDK with the same fields. -/
def ofBus (m : IpcBus.Message) : WireMessage where
  id := m.id
  type := m.type
  channel := m.channel
  correlationID := m.correlationID
  replyTo := m.replyTo
  timestamp := m.timestamp
  payload := m.payload.map Subtype.val

/-- The field of the other struct. -/
def Field.toBus : Field → IpcBus.Message.Field
  | id => .id
  | type => .type
  | channel => .channel
  | correlationID => .correlationID
  | replyTo => .replyTo
  | timestamp => .timestamp
  | payload => .payload

/-- **The two structs are written alike.** -/
theorem marshal_ofBus (m : IpcBus.Message) : (ofBus m).marshal = m.marshal := by
  have htext : (ofBus m).text = m.text := by
    unfold text IpcBus.Message.text members IpcBus.Message.members ofBus
    rw [Option.map_map]
    rfl
  have hiff : (ofBus m).Marshals ↔ m.Marshals := by
    refine and_iff_left ?_
    intro v hv
    obtain ⟨p, -, rfl⟩ := Option.map_eq_some_iff.mp hv
    exact p.prop.le
  unfold marshal IpcBus.Message.marshal
  simp only [htext, hiff]

theorem set_toBus (m : WireMessage) (f : Field) (v : Value) (hv : depth v < maxNestingDepth) :
    m.toBus.set f.toBus v = (m.set f v).map toBus := by
  cases f <;> simp [set, IpcBus.Message.set, Field.toBus, toBus, Function.comp_def, hv]

/-- **The two structs are read alike**, from any bytes. -/
theorem unmarshal_toBus (data : Bytes) :
    IpcBus.Message.unmarshal data = (unmarshal data).map toBus := by
  unfold unmarshal IpcBus.Message.unmarshal
  cases hparse : parse data with
  | none => rfl
  | some v =>
    exact decodeStruct_map toBus Field.toBus rfl (fun f => by cases f <;> rfl) set_toBus zero
      (read_of_parse hparse).2

end WireMessage

/-! ### Frames -/

/-- `maxMessageSize`: 16 MiB. -/
def maxMessageSize : ℕ := 16 * 1024 * 1024

def frameHeaderSize : ℕ := 4

/-- What `writeMessage` writes to the connection; `none` when the message cannot be marshalled or is
too large. -/
def writeMessage (m : WireMessage) : Option Bytes :=
  m.marshal.bind fun data =>
    if data.length > maxMessageSize then none else some (IpcBus.putUint32 data.length ++ data)

/-- `readMessage` on the bytes still to come: the message and the bytes after it, or `none` for an
error. -/
def readMessage (input : Bytes) : Option (WireMessage × Bytes) :=
  if input.length < frameHeaderSize then none
  else
    let length := IpcBus.uint32 (input.take frameHeaderSize)
    let rest := input.drop frameHeaderSize
    if length > maxMessageSize then none
    else if rest.length < length then none
    else (WireMessage.unmarshal (rest.take length)).map fun m => (m, rest.drop length)

/-- `writeMessage` and `readMessage` as a framing. -/
def wireFraming : Framing WireMessage where
  headerSize := frameHeaderSize
  maxSize := maxMessageSize
  putHeader := IpcBus.putUint32
  getHeader := IpcBus.uint32
  encode := WireMessage.marshal
  decode := WireMessage.unmarshal

theorem wireFraming_read (input : Bytes) : wireFraming.read input = readMessage input := rfl

/-- Who writes or reads a message. -/
inductive Impl where
  | ipcbus
  | sdk
  deriving DecidableEq

/-- The framing of each, for messages of the bus. -/
def framing : Impl → Framing IpcBus.Message
  | .ipcbus => IpcBus.framing
  | .sdk => wireFraming.via WireMessage.ofBus WireMessage.toBus

/-- **The two frame alike**: the lengths and the JSON of the SDK are those of the bus. -/
theorem framing_eq (i : Impl) : framing i = IpcBus.framing := by
  cases i with
  | ipcbus => rfl
  | sdk =>
    have hdecode : IpcBus.Message.unmarshal =
        fun data => (WireMessage.unmarshal data).map WireMessage.toBus :=
      funext WireMessage.unmarshal_toBus
    have hencode : IpcBus.Message.marshal = fun m => (WireMessage.ofBus m).marshal :=
      funext fun m => (WireMessage.marshal_ofBus m).symm
    unfold IpcBus.framing
    rw [hdecode, hencode]
    rfl

/-- **The two read alike**, from any bytes. -/
theorem readMessage_toBus (input : Bytes) :
    IpcBus.readMessage input = (readMessage input).map fun r => (r.1.toBus, r.2) := by
  rw [← wireFraming_read, ← Framing.read_via wireFraming WireMessage.ofBus]
  exact congrArg (Framing.read · input) (framing_eq .sdk).symm

/-- **Each of the two reads what either writes.** -/
theorem framing_reads (i j : Impl) : (framing i).Reads (framing j) := by
  rw [framing_eq i, framing_eq j]
  exact IpcBus.framing_reads

theorem exists_written {items : List (Framing.Transfer IpcBus.Message Impl)}
    (hsize : ∀ item ∈ items, ∃ data, item.value.marshal = some data ∧
      data.length ≤ IpcBus.maxMessageSize) :
    ∃ frames, Framing.Written framing items frames := by
  induction items with
  | nil => exact ⟨[], List.Forall₂.nil⟩
  | cons item _ ih =>
    obtain ⟨⟨data, hdata, hitem⟩, hitems⟩ := forall_mem_cons.mp hsize
    obtain ⟨frames, hframes⟩ := ih hitems
    have hwrite : (framing item.writer).write item.value =
        some (IpcBus.putUint32 data.length ++ data) := by
      rw [framing_eq]
      exact (congrArg (Option.bind · _) hdata).trans (if_neg (not_lt.mpr hitem))
    exact ⟨_ :: frames, List.Forall₂.cons hwrite hframes⟩

/-- **The frames of the two implementations are read back.**  For messages whose JSON is at most
16 MiB, whoever writes and whoever reads each: from the whole stream, however it is split, exactly
the messages are read, in order, and no byte is left; from a stream that is cut, the messages of the
whole frames, and then an error. -/
theorem frames_received (items : List (Framing.Transfer IpcBus.Message Impl))
    (hsize : ∀ item ∈ items, ∃ data, item.value.marshal = some data ∧
      data.length ≤ IpcBus.maxMessageSize) :
    ∃ frames, Framing.Written framing items frames ∧ ∀ chunks : List Bytes,
      (chunks.flatten = frames.flatten →
        ∃ rest, Framing.received framing items chunks =
          (items.map Framing.Transfer.value, some rest) ∧ rest.flatten = []) ∧
      (chunks.flatten <+: frames.flatten → chunks.flatten ≠ frames.flatten →
        Framing.received framing items chunks =
          ((items.take (Framing.wholeFrames frames chunks.flatten.length)).map
            Framing.Transfer.value, none)) := by
  obtain ⟨frames, hframes⟩ := exists_written hsize
  refine ⟨frames, hframes, fun chunks => ⟨fun hchunks => ?_, fun hcut hne => ?_⟩⟩
  · exact Framing.received_frames framing_reads hframes (hchunks.trans (append_nil _).symm)
  · exact Framing.received_cut framing_reads hframes hcut hne

/-- Two messages, each written by one implementation and read by the other. -/
def crossed : List (Framing.Transfer IpcBus.Message Impl) :=
  [⟨.plain "m1" "slack", .sdk, .ipcbus⟩, ⟨.plain "m2" "slack", .ipcbus, .sdk⟩]

theorem frames_received_crossed :
    ∃ frames, Framing.Written framing crossed frames ∧ ∀ chunks : List Bytes,
      (chunks.flatten = frames.flatten →
        ∃ rest, Framing.received framing crossed chunks =
          (crossed.map Framing.Transfer.value, some rest) ∧ rest.flatten = []) ∧
      (chunks.flatten <+: frames.flatten → chunks.flatten ≠ frames.flatten →
        Framing.received framing crossed chunks =
          ((crossed.take (Framing.wholeFrames frames chunks.flatten.length)).map
            Framing.Transfer.value, none)) :=
  frames_received crossed <| forall_mem_cons.mpr ⟨⟨_, rfl, by decide +kernel⟩,
    forall_mem_cons.mpr ⟨⟨_, rfl, by decide +kernel⟩, forall_mem_nil _⟩⟩

end K8s4Claw.Sdk
