/-
# Message types

`MessageType` of `internal/ipcbus/message.go` and `messageType` of
`sdk/channel/message.go`: the SDK does not import `internal/`, so the same eight
constants are declared twice.  On the wire a type is a JSON string and nothing
checks it against the constants, so a message can also carry any other name;
such a message is a data message for `IsControl`.
-/

import Mathlib.Data.List.Basic

namespace K8s4Claw

/-- The JSON names of the eight constants. -/
def messageTypeNames : List String :=
  ["message", "ack", "nack", "slow_down", "resume", "shutdown", "register", "heartbeat"]

/-- `MessageType`: one of the eight constants, or another string. -/
inductive MessageType where
  | message
  | ack
  | nack
  | slowDown
  | resume
  | shutdown
  | register
  | heartbeat
  | other (name : String) (h : name ∉ messageTypeNames)
  deriving DecidableEq

namespace MessageType

/-- The string the constant stands for. -/
def text : MessageType → String
  | message => "message"
  | ack => "ack"
  | nack => "nack"
  | slowDown => "slow_down"
  | resume => "resume"
  | shutdown => "shutdown"
  | register => "register"
  | heartbeat => "heartbeat"
  | other name _ => name

/-- The type a string read from the wire stands for. -/
def ofText (s : String) : MessageType :=
  if h : s ∉ messageTypeNames then other s h
  else if s = "message" then message
  else if s = "ack" then ack
  else if s = "nack" then nack
  else if s = "slow_down" then slowDown
  else if s = "resume" then resume
  else if s = "shutdown" then shutdown
  else if s = "register" then register
  else heartbeat

@[simp]
theorem ofText_text (t : MessageType) : ofText t.text = t := by
  cases t with
  | other _ h => simp [text, ofText, h]
  | _ => decide

/-- `IsControl` (`isControl` in the SDK): every constant but `message`. -/
def isControl : MessageType → Bool
  | ack | nack | slowDown | resume | shutdown | register | heartbeat => true
  | message | other _ _ => false

end MessageType
end K8s4Claw
