/-
# A write that is cut

`Send` of `internal/ipcbus/bridge_stream.go` writes one frame to the connection of the bridge and
returns the error of the write.  A write that fails may have written some bytes of its frame, for
example when the deadline of the context passes, and the bridge goes on with the same connection.
The peer reads messages with `ReadMessage` until the first error (`received`); what it cannot read
is the `tail` of what was written.

A `Session` is a bridge and the messages whose `Send` returned nil.  It is `Faithful` when these are
the messages that the peer reads (`faithful_along_iff`).

Of torn bytes the peer reads no message but the text of two braces (`Torn.stray_of_readMessage`).
Frames begin with a byte that no JSON text has, so what it takes for a message is part of one frame;
and a header that begins in the torn bytes and ends in the header of the next frame never gives the
length of the rest of that frame.
-/

import K8s4Claw.IpcBus.Message
import K8s4Claw.Lib.Json.Lead
import K8s4Claw.Lib.Run

namespace K8s4Claw.IpcBus

open List Option
open Lib (Bytes)
open Lib.Json

/-- How a write to the connection ends: all bytes are written, or an error after some of them. -/
inductive WriteResult where
  | ok
  | fails (written : ℕ) (err : String)
  deriving DecidableEq

/-- `streamBridge`: what was written to its connection so far, `none` while it has none. -/
structure StreamBridge where
  conn : Option Bytes
  deriving DecidableEq

/-- The error of `WriteMessage` for a message of which it writes no frame. -/
def writeError (msg : Message) : String :=
  match msg.marshal with
  | none =>
      "failed to marshal message: json: error calling MarshalJSON for type time.Time: " ++
        "Time.MarshalJSON: timezone hour outside of range [0,23]"
  | some data =>
      "message size " ++ toString data.length ++ " exceeds maximum " ++ toString maxMessageSize

/-- `Send`, and its error.  The deadline of the context acts through the write alone. -/
def StreamBridge.send (b : StreamBridge) (msg : Message) (w : WriteResult) :
    StreamBridge × Option String :=
  match b.conn with
  | none => (b, some "not connected")
  | some bytes =>
      match writeMessage msg with
      | none =>
          (b, some ("failed to send message: " ++ writeError msg))
      | some frame =>
          match w with
          | .ok => ({ conn := some (bytes ++ frame) }, none)
          | .fails n err =>
              ({ conn := some (bytes ++ frame.take n) },
                some ("failed to send message: failed to write frame: " ++ err))

/-- The loop of `Receive` on the bytes of a connection: the messages read until the first error,
and the bytes at which it stops. -/
def receive (input : Bytes) : List Message × Bytes := framing.readStream input

/-- A bridge and the messages whose `Send` returned nil. -/
structure Session where
  bridge : StreamBridge
  sent : List Message

namespace Session

/-- A new connection. -/
def connected : Session := { bridge := { conn := some [] }, sent := [] }

def written (s : Session) : Bytes := s.bridge.conn.getD []

/-- The messages the peer reads. -/
def received (s : Session) : List Message := (receive s.written).1

/-- The bytes at which the peer stops. -/
def tail (s : Session) : Bytes := (receive s.written).2

end Session

/-- One call of `Send`. -/
def sendStep (s : Session) (call : Message × WriteResult) : Option Session :=
  let (bridge, err) := s.bridge.send call.1 call.2
  some { bridge := bridge, sent := if err = none then s.sent ++ [call.1] else s.sent }

/-- The peer reads exactly the messages whose `Send` returned nil. -/
def Faithful (s : Session) : Prop := s.received = s.sent
  deriving Decidable

/-- The frame of the text of two braces. -/
def stray : Bytes := [0, 0, 0, 2, 123, 125]

/-- A message is only sent behind whole frames, a write that fails has not written its whole frame,
and the torn bytes do not begin with `stray`. -/
def Sound (s : Session) (call : Message × WriteResult) : Prop :=
  match writeMessage call.1, call.2 with
  | none, _ => True
  | some _, .ok => s.tail = []
  | some frame, .fails n _ =>
      (s.tail = [] → n < frame.length) ∧ ¬ stray <+: s.tail ++ frame.take n

/-! ### Receiving -/

variable {input : Bytes} {m : Message}

theorem receive_of_none (h : readMessage input = none) : receive input = ([], input) :=
  Lib.Framing.readStream_of_none (F := framing) h

theorem receive_of_some {rest : Bytes} (h : readMessage input = some (m, rest)) :
    receive input = (m :: (receive rest).1, (receive rest).2) :=
  Lib.Framing.readStream_of_some (F := framing) (by decide) h

theorem receive_append (input more : Bytes) :
    receive (input ++ more) =
      ((receive input).1 ++ (receive ((receive input).2 ++ more)).1,
        (receive ((receive input).2 ++ more)).2) :=
  Lib.Framing.readStream_append (F := framing) (by decide) input more

theorem receive_eq_nil_iff : (receive input).1 = [] ↔ readMessage input = none := by
  constructor
  · intro h
    cases hread : readMessage input with
    | none => rfl
    | some =>
      rw [receive_of_some hread] at h
      cases h
  · intro h
    rw [receive_of_none h]

section

variable {frame : Bytes} (hw : writeMessage m = some frame)

include hw

theorem readMessage_frame : readMessage frame = some (m, []) := by
  have hread := readMessage_writeMessage hw []
  rwa [append_nil] at hread

theorem receive_frame : receive frame = ([m], []) := by
  rw [receive_of_some (readMessage_frame hw)]
  rfl

end

/-! ### Headers -/

theorem foldl_uint32 (b : Bytes) (k : ℕ) :
    b.foldl (fun n c => n * 256 + c.toNat) k = k * 256 ^ b.length + uint32 b := by
  induction b generalizing k with
  | nil => simp [uint32]
  | cons c b ih =>
    have hb : uint32 (c :: b) = c.toNat * 256 ^ b.length + uint32 b := by
      rw [uint32, foldl_cons, ih, Nat.zero_add]
    rw [foldl_cons, ih, hb, length_cons, Nat.pow_succ', Nat.add_mul, Nat.mul_assoc, Nat.add_assoc]

theorem uint32_append (a b : Bytes) : uint32 (a ++ b) = uint32 a * 256 ^ b.length + uint32 b := by
  rw [uint32, foldl_append, foldl_uint32]
  rfl

/-- A header that begins before the header of a message and ends in it never gives the length of
what is left of the message, if that begins with white space. -/
theorem uint32_ne_of_space {n : ℕ} {lead x y : Bytes} (hn : n ≤ maxMessageSize)
    (hheader : putUint32 n = y ++ x) (hy : y ≠ []) (hx : x ≠ [])
    (hspace : ∀ c ∈ x, isSpace c = true) : uint32 (lead ++ y) ≠ x.length + n := by
  have hsplit : uint32 y * 256 ^ x.length + uint32 x = n := by
    rw [← uint32_append, ← hheader, uint32_putUint32_of_le hn]
  have hmax : maxMessageSize = 2 ^ 24 := by decide
  have hlen : y.length + x.length = 4 := by
    rw [← length_append, ← hheader]
    rfl
  have hylen := length_pos_iff.mpr hy
  rw [uint32_append]
  match x with
  | [a] =>
    have ha := toNat_of_isSpace (hspace a (by simp))
    obtain hy3 : y.length = 3 := by simpa using hlen
    have hX : uint32 [a] = a.toNat := by simp [uint32]
    simp only [hy3, length_cons, length_nil] at hsplit ⊢
    omega
  | [a, b] =>
    have ha := toNat_of_isSpace (hspace a (by simp))
    have hb := toNat_of_isSpace (hspace b (by simp))
    obtain hy2 : y.length = 2 := by simpa using hlen
    have hX : uint32 [a, b] = a.toNat * 256 + b.toNat := by simp [uint32]
    simp only [hy2, length_cons, length_nil] at hsplit ⊢
    -- the two lower bytes of the length are `y`, and at most 256
    rcases Nat.lt_or_ge (uint32 y) (uint32 lead) with hlt | hle <;> omega
  | [a, b, c] =>
    have hc := toNat_of_isSpace (hspace c (by simp))
    obtain hy1 : y.length = 1 := by simpa using hlen
    have hX : uint32 [a, b, c] = (a.toNat * 256 + b.toNat) * 256 + c.toNat := by simp [uint32]
    simp only [hy1, length_cons, length_nil] at hsplit ⊢
    -- the lowest byte of the length is `y`
    obtain hY | hY : uint32 y = 0 ∨ uint32 y = 1 := by omega
    · omega
    · omega
  | [] => exact absurd rfl hx
  | _ :: _ :: _ :: _ :: _ =>
    simp only [length_cons] at hlen
    omega

/-! ### What can be read behind a cut -/

section

variable {m msg : Message} {frame part lead t x y data : Bytes}

theorem eq_of_writeMessage (hw : writeMessage m = some frame) :
    m.text.length ≤ maxMessageSize ∧ frame = putUint32 m.text.length ++ m.text :=
  (writeMessage_eq_some_iff.mp hw).2

theorem Message.text_eq_cons (m : Message) : ∃ b, m.text = 123 :: 34 :: 105 :: b := ⟨_, rfl⟩

theorem Message.unmarshal_of_mem_lt {c : UInt8} (hmem : c ∈ data) (hc : c.toNat < 9) :
    Message.unmarshal data = none := by
  rw [Message.unmarshal, parse_of_mem_lt hmem hc, bind_none]

/-- The object of a message behind bytes that are no white space is no message, whole or cut. -/
theorem Message.unmarshal_lead (hx : ∃ c ∈ x, isSpace c = false) (hpart : part <+: m.text)
    (hne : part ≠ []) : Message.unmarshal (x ++ part) = none := by
  obtain ⟨b, hb⟩ := m.text_eq_cons
  cases hparse : parse (x ++ part) with
  | none => rw [Message.unmarshal, hparse, bind_none]
  | some =>
    obtain ⟨s, rfl⟩ := parse_lead hx hb rfl hpart hne hparse
    rw [Message.unmarshal, hparse]
    rfl

theorem Message.eq_braces_of_length (h : (Message.unmarshal data).isSome) (hlen : data.length ≤ 2) :
    data = [123, 125] := by
  obtain ⟨m, hm⟩ := isSome_iff_exists.mp h
  obtain ⟨v, hv, hm⟩ := bind_eq_some_iff.mp hm
  match data with
  | [] => cases hv
  | [c] =>
    obtain ⟨n, rfl⟩ := read_one (read_of_parse hv).1
    cases hm
  | [c, d] =>
    rcases parse_two hv with ⟨rfl, rfl⟩ | rfl | ⟨s, rfl⟩ | ⟨n, rfl⟩
    · rfl
    all_goals cases hm
  | _ :: _ :: _ :: _ =>
    simp only [length_cons] at hlen
    omega

/-- **A header that begins before a frame and ends in its header** is followed by no message but
the one of two braces.  `y` is the part of the header of the frame that is read as length, `x` the
part that is read as data. -/
theorem eq_braces_of_unmarshal (lead : Bytes) (hsize : m.text.length ≤ maxMessageSize)
    (hheader : putUint32 m.text.length = y ++ x) (hy : y ≠ []) (hx : x ≠ [])
    (hdata : data <+: x ++ m.text) (hlen : data.length = uint32 (lead ++ y))
    (h : (Message.unmarshal data).isSome) : data = [123, 125] := by
  have hfour : y.length + x.length = 4 := by
    rw [← length_append, ← hheader]
    rfl
  have hypos := length_pos_iff.mpr hy
  rcases Nat.lt_or_ge x.length data.length with hgt | hle
  · obtain ⟨part, rfl⟩ : x <+: data :=
      prefix_of_prefix_length_le (prefix_append ..) hdata hgt.le
    have hpart : part <+: m.text := (prefix_append_right_inj x).mp hdata
    have hnil : part ≠ [] := by
      rintro rfl
      simp at hgt
    by_cases hspace : ∃ c ∈ x, isSpace c = false
    · rw [Message.unmarshal_lead hspace hpart hnil] at h
      cases h
    · have hall : ∀ c ∈ x, isSpace c = true := by simpa using hspace
      by_cases hwhole : part = m.text
      · -- the length would be that of the rest of the frame
        subst hwhole
        rw [length_append] at hlen
        exact absurd hlen.symm (uint32_ne_of_space hsize hheader hy hx hall)
      · rw [Message.unmarshal, parse_space_append hall, parse_of_prefix hpart hwhole] at h
        cases h
  · -- the data ends in the header
    refine Message.eq_braces_of_length h ?_
    by_contra hthree
    have hy1 : y.length = 1 := by omega
    have hsplit : uint32 y * 256 ^ x.length + uint32 x = m.text.length := by
      rw [← uint32_append, ← hheader, uint32_putUint32_of_le hsize]
    have hmax : maxMessageSize = 2 ^ 24 := by decide
    have hx3 : x.length = 3 := by omega
    rw [uint32_append, hy1] at hlen
    rw [hx3] at hsplit
    omega

/-- What may follow a cut: nothing, or a byte that no JSON text has. -/
def Breaks (t : Bytes) : Prop := ∀ c ∈ t.head?, c.toNat < 9

theorem breaks_nil : Breaks [] := nofun

theorem Breaks.append (hw : writeMessage m = some frame) (hpart : part <+: frame)
    (ht : Breaks t) : Breaks (part ++ t) := by
  obtain ⟨hsize, rfl⟩ := eq_of_writeMessage hw
  rcases part with - | ⟨c, part⟩
  · exact ht
  · obtain ⟨rest, hrest⟩ := hpart
    obtain rfl : c = .ofNat (m.text.length / 2 ^ 24) := (cons.inj hrest).1
    have hmax : maxMessageSize = 2 ^ 24 := by decide
    intro d hd
    cases hd
    rw [UInt8.toNat_ofNat']
    omega

/-- Data that reaches over a cut is no message. -/
theorem unmarshal_across {n : ℕ} (ht : Breaks t) (hlt : data.length < n)
    (hle : n ≤ (data ++ t).length) : Message.unmarshal ((data ++ t).take n) = none := by
  rcases t with - | ⟨c, t⟩
  · rw [append_nil] at hle
    omega
  · refine Message.unmarshal_of_mem_lt ?_ (ht c rfl)
    obtain ⟨k, hk⟩ : ∃ k, n - data.length = k + 1 := ⟨n - data.length - 1, by omega⟩
    rw [take_append, hk]
    simp

theorem readMessage_header {header : Bytes} (hheader : header.length = frameHeaderSize)
    (rest : Bytes) :
    readMessage (header ++ rest) =
      if uint32 header > maxMessageSize then none
      else if rest.length < uint32 header then none
      else (Message.unmarshal (rest.take (uint32 header))).map
        fun m => (m, rest.drop (uint32 header)) := by
  have hlong : ¬ (header ++ rest).length < frameHeaderSize := by
    rw [length_append]
    omega
  unfold readMessage
  rw [if_neg hlong, take_left' hheader, drop_left' hheader]

theorem readMessage_cut (hw : writeMessage m = some frame) (hpart : part <+: frame)
    (hne : part ≠ frame) (hlong : 4 ≤ part.length) (ht : Breaks t) :
    readMessage (part ++ t) = none := by
  obtain ⟨hsize, rfl⟩ := eq_of_writeMessage hw
  have hheader : (putUint32 m.text.length).length = frameHeaderSize := rfl
  obtain ⟨body, rfl⟩ : putUint32 m.text.length <+: part :=
    prefix_of_prefix_length_le (prefix_append ..) hpart (by rw [hheader]; exact hlong)
  have hbody : body <+: m.text := (prefix_append_right_inj _).mp hpart
  have hlt : body.length < m.text.length := by
    refine lt_of_le_of_ne hbody.length_le fun heq => hne ?_
    rw [hbody.eq_of_length heq]
  rw [append_assoc, readMessage_header hheader, uint32_putUint32_of_le hsize,
    if_neg (not_lt.mpr hsize)]
  split_ifs with hend
  · rfl
  · rw [unmarshal_across ht hlt (not_lt.mp hend), map_none]

theorem readMessage_stray (rest : Bytes) : readMessage (stray ++ rest) = some (.zero, rest) := by
  have hbraces : Message.unmarshal [123, 125] = some .zero := by decide +kernel
  have hlen : uint32 [0, 0, 0, 2] = 2 := rfl
  have hstray : stray ++ rest = [0, 0, 0, 2] ++ ([123, 125] ++ rest) := rfl
  have htake : ([123, 125] ++ rest : Bytes).take 2 = [123, 125] := rfl
  rw [hstray, readMessage_header rfl, hlen, htake]
  rfl

theorem eq_of_uint32_eq_two {header : Bytes} (hlen : header.length = 4)
    (h : uint32 header = 2) : header = [0, 0, 0, 2] := by
  match header with
  | [a, b, c, d] =>
    simp only [uint32, foldl_cons, foldl_nil] at h
    have ha : a = 0 := UInt8.toNat_inj.mp (by simp; omega)
    have hb : b = 0 := UInt8.toNat_inj.mp (by simp; omega)
    have hc : c = 0 := UInt8.toNat_inj.mp (by simp; omega)
    have hd : d = 2 := UInt8.toNat_inj.mp (by simp; omega)
    rw [ha, hb, hc, hd]

/-- A header that begins in torn bytes gives no message but that of two braces. -/
theorem stray_of_readMessage_lead {r : Message × Bytes} (hw : writeMessage m = some frame)
    (hpart : part <+: frame) (hnil : lead ≠ []) (hshort : lead.length < 4)
    (hlong : 4 ≤ lead.length + part.length) (ht : Breaks t)
    (h : readMessage (lead ++ part ++ t) = some r) : stray <+: lead ++ part ++ t := by
  obtain ⟨hsize, rfl⟩ := eq_of_writeMessage hw
  obtain ⟨y, x, hheader, hy⟩ : ∃ y x, putUint32 m.text.length = y ++ x ∧
      y.length = 4 - lead.length :=
    ⟨_, _, (take_append_drop (4 - lead.length) _).symm, by
      rw [length_take]
      exact Nat.min_eq_left (Nat.sub_le 4 lead.length)⟩
  have hleadpos := length_pos_iff.mpr hnil
  have hfour : y.length + x.length = 4 := by
    rw [← length_append, ← hheader]
    rfl
  rw [hheader, append_assoc] at hpart
  obtain ⟨rest, rfl⟩ : y <+: part :=
    prefix_of_prefix_length_le (prefix_append ..) hpart (by omega)
  have hrest : rest <+: x ++ m.text := (prefix_append_right_inj y).mp hpart
  have hnew : (lead ++ y).length = frameHeaderSize := by
    rw [length_append, frameHeaderSize]
    omega
  have hinput : lead ++ (y ++ rest) ++ t = lead ++ y ++ (rest ++ t) := by simp
  rw [hinput] at h ⊢
  rw [readMessage_header hnew] at h
  split_ifs at h with _ hend
  obtain ⟨m', hm', -⟩ := map_eq_some_iff.mp h
  have hle : uint32 (lead ++ y) ≤ rest.length := by
    by_contra hlt
    rw [unmarshal_across ht (not_le.mp hlt) (not_lt.mp hend)] at hm'
    cases hm'
  rw [take_append_of_le_length hle] at hm'
  have hbraces : rest.take (uint32 (lead ++ y)) = [123, 125] :=
    eq_braces_of_unmarshal lead hsize hheader (length_pos_iff.mp (by omega))
      (length_pos_iff.mp (by omega)) (( take_prefix ..).trans hrest)
      (by rw [length_take, Nat.min_eq_left hle]) (by rw [hm']; rfl)
  have htwo : uint32 (lead ++ y) = 2 := by
    rw [← Nat.min_eq_left hle, ← length_take, hbraces]
    rfl
  rw [eq_of_uint32_eq_two hnew htwo, ← take_append_drop (uint32 (lead ++ y)) rest, hbraces]
  exact prefix_append stray _

/-- The bytes from a write that was cut on: the beginning of its frame, and what later writes have
written of theirs. -/
inductive Torn : Bytes → Prop
  | cut {m : Message} {frame part : Bytes} (hw : writeMessage m = some frame)
      (hpart : part <+: frame) (hne : part ≠ frame) (hnil : part ≠ []) : Torn part
  | append {m : Message} {frame part b : Bytes} (hb : Torn b) (hw : writeMessage m = some frame)
      (hpart : part <+: frame) : Torn (b ++ part)

variable {b : Bytes}

theorem Torn.ne_nil (h : Torn b) : b ≠ [] := by
  induction h with
  | cut hw _ _ hnil => exact hnil
  | append hb hw _ ih => exact append_ne_nil_of_left_ne_nil ih _

/-- What follows torn bytes of a header or more does not matter. -/
theorem Torn.short_or_unread (h : Torn b) :
    b.length < 4 ∨ ∀ t, Breaks t → ∀ r, readMessage (b ++ t) = some r → stray <+: b ++ t := by
  induction h with
  | @cut m _ part hw hpart hne =>
    rcases Nat.lt_or_ge part.length 4 with hshort | hlong
    · exact .inl hshort
    · refine .inr fun t ht r hr => ?_
      rw [readMessage_cut hw hpart hne hlong ht] at hr
      cases hr
  | @append m _ part b hb hw hpart ih =>
    rcases ih with hshort | hunread
    · rcases Nat.lt_or_ge (b ++ part).length 4 with hshort' | hlong
      · exact .inl hshort'
      · rw [length_append] at hlong
        exact .inr fun t ht r hr =>
          stray_of_readMessage_lead hw hpart hb.ne_nil hshort hlong ht hr
    · refine .inr fun t ht r hr => ?_
      rw [append_assoc] at hr ⊢
      exact hunread _ (ht.append hw hpart) r hr

/-- **Torn bytes give no message but that of two braces.** -/
theorem Torn.stray_of_readMessage {r : Message × Bytes} (h : Torn b) (hr : readMessage b = some r) :
    stray <+: b := by
  rcases h.short_or_unread with hshort | hunread
  · have hheader : b.length < frameHeaderSize := hshort
    rw [readMessage, if_pos hheader] at hr
    cases hr
  · have hnil := hunread [] breaks_nil r
    rw [append_nil] at hnil
    exact hnil hr

/-- **A message sent behind torn bytes is not what the peer reads next.** -/
theorem Torn.receive_ne (h : Torn b) (hnone : readMessage b = none)
    (hw : writeMessage msg = some frame) : (receive (b ++ frame)).1 ≠ [msg] := by
  cases hread : readMessage (b ++ frame) with
  | none =>
    rw [receive_of_none hread]
    nofun
  | some =>
    have hstray : stray <+: b ++ frame := (h.append hw prefix_rfl).stray_of_readMessage hread
    obtain ⟨rest, hrest⟩ := hstray
    have hzero := readMessage_stray rest
    rw [hrest] at hzero
    rw [receive_of_some hzero]
    intro heq
    obtain rfl : .zero = msg := (cons.inj heq).1
    -- the stray frame ends in the frame of the zero message, which begins with three zeros
    have hzeros : frame.take 3 = [0, 0, 0] := by
      have hdecide : (writeMessage .zero).map (·.take 3) = some [0, 0, 0] := by decide +kernel
      rw [hw] at hdecide
      exact some.inj hdecide
    have hlt : b.length < stray.length := by
      by_contra hge
      obtain ⟨c, rfl⟩ : stray <+: b :=
        prefix_of_prefix_length_le ⟨rest, hrest⟩ (prefix_append ..) (not_lt.mp hge)
      rw [readMessage_stray] at hnone
      cases hnone
    obtain ⟨c, hc⟩ : b <+: stray :=
      prefix_of_prefix_length_le (prefix_append ..) ⟨rest, hrest⟩ hlt.le
    have hcframe : c <+: frame := by
      refine (prefix_append_right_inj b).mp ⟨rest, ?_⟩
      rw [hc, hrest]
    have htake : c.take 3 <+: [0, 0, 0] := hzeros ▸ hcframe.take 3
    have hdrop : stray.drop b.length = c := by rw [← hc, drop_left]
    have hnever : ∀ k < 5, ¬ (stray.drop (k + 1)).take 3 <+: [0, 0, 0] := by decide
    have hpos := length_pos_iff.mpr h.ne_nil
    refine hnever (b.length - 1) ?_ ?_
    · have hsix : stray.length = 6 := rfl
      omega
    · rw [Nat.sub_add_cancel hpos, hdrop]
      exact htake

end

/-! ### Runs -/

section

variable {s t : Session} {msg : Message} {w : WriteResult} {p : Bytes}

theorem sendStep_cases {bytes : Bytes} (hconn : s.bridge.conn = some bytes)
    (h : sendStep s (msg, w) = some t) :
    (writeMessage msg = none ∧ t = s) ∨ ∃ frame, writeMessage msg = some frame ∧
      ((w = .ok ∧ t = ⟨⟨some (bytes ++ frame)⟩, s.sent ++ [msg]⟩) ∨
        ∃ n err, w = .fails n err ∧ t = ⟨⟨some (bytes ++ frame.take n)⟩, s.sent⟩) := by
  obtain ⟨⟨conn⟩, sent⟩ := s
  obtain rfl : conn = some bytes := hconn
  cases hw : writeMessage msg with
  | none =>
    simpa [sendStep, StreamBridge.send, hw] using h.symm
  | some frame =>
    refine .inr ⟨frame, rfl, ?_⟩
    cases w with
    | ok => exact .inl ⟨rfl, by simpa [sendStep, StreamBridge.send, hw] using h.symm⟩
    | fails n err =>
      exact .inr ⟨n, err, rfl, by simpa [sendStep, StreamBridge.send, hw] using h.symm⟩

/-- The peer stops at the end, or at torn bytes. -/
structure Kept (s : Session) : Prop where
  conn : s.bridge.conn = some s.written
  tail : s.tail = [] ∨ Torn s.tail

theorem kept_connected : Kept Session.connected := ⟨rfl, .inl rfl⟩

theorem received_append (h : t.written = s.written ++ p) :
    t.received = s.received ++ (receive (s.tail ++ p)).1 := by
  rw [Session.received, h, receive_append]
  rfl

theorem tail_append (h : t.written = s.written ++ p) :
    t.tail = (receive (s.tail ++ p)).2 := by
  rw [Session.tail, h, receive_append]
  rfl

/-- The beginning of a frame is not `stray`. -/
theorem not_stray_take {frame : Bytes} (hw : writeMessage msg = some frame) (n : ℕ) :
    ¬ stray <+: frame.take n := by
  intro h
  obtain ⟨-, rfl⟩ := eq_of_writeMessage hw
  obtain ⟨b, hb⟩ := msg.text_eq_cons
  rw [hb] at h
  obtain ⟨rest, hrest⟩ := h.trans ( take_prefix ..)
  simp [stray, putUint32] at hrest

/-- **A write that fails leaves the peer where it was, with the torn bytes before it**, unless it
has written its whole frame behind whole frames, or made the stray frame. -/
theorem readMessage_fails_iff {frame : Bytes} {n : ℕ} {err : String} (hs : Kept s)
    (hw : writeMessage msg = some frame) :
    readMessage (s.tail ++ frame.take n) = none ↔ Sound s (msg, .fails n err) := by
  have hsound : Sound s (msg, .fails n err) ↔
      (s.tail = [] → n < frame.length) ∧ ¬ stray <+: s.tail ++ frame.take n := by
    simp only [Sound, hw]
  rw [hsound]
  rcases hs.tail with hnil | htorn
  · rw [hnil, nil_append]
    refine ⟨fun hnone => ⟨fun _ => ?_, not_stray_take hw n⟩, fun h => ?_⟩
    · by_contra hge
      rw [take_of_length_le (not_lt.mp hge), readMessage_frame hw] at hnone
      cases hnone
    · refine Lib.Framing.read_cut framing_reads hw ( take_prefix n frame) fun heq => ?_
      have hlen := congrArg length heq
      rw [length_take] at hlen
      have hlt := h.1 rfl
      omega
  · have htorn' := htorn.append hw ( take_prefix n frame)
    constructor
    · intro hnone
      refine ⟨fun hnil => absurd hnil htorn.ne_nil, ?_⟩
      rintro ⟨rest, hrest⟩
      rw [← hrest, readMessage_stray] at hnone
      cases hnone
    · rintro ⟨-, hstray⟩
      cases hread : readMessage (s.tail ++ frame.take n) with
      | none => rfl
      | some => exact absurd (htorn'.stray_of_readMessage hread) hstray

/-- One call keeps the session faithful exactly when it is sound. -/
theorem faithful_step_iff (hs : Kept s) (hf : Faithful s)
    (h : sendStep s (msg, w) = some t) : Faithful t ↔ Sound s (msg, w) := by
  rcases sendStep_cases hs.conn h with ⟨hlarge, rfl⟩ | ⟨frame, hw, ⟨rfl, rfl⟩ | ⟨n, -, rfl, rfl⟩⟩
  · simp only [Sound, hlarge, hf]
  · have hsound : Sound s (msg, .ok) ↔ s.tail = [] := by simp only [Sound, hw]
    rw [Faithful, received_append rfl, hf, append_cancel_left_eq, hsound]
    constructor
    · intro heq
      refine hs.tail.resolve_right fun htorn => ?_
      exact htorn.receive_ne (Lib.Framing.read_readStream (F := framing) (by decide) s.written) hw
        heq
    · intro hnil
      rw [hnil, nil_append, receive_frame hw]
  · rw [Faithful, received_append rfl, hf, append_right_eq_self, receive_eq_nil_iff]
    exact readMessage_fails_iff hs hw

theorem Kept.step (hs : Kept s) (hsound : Sound s (msg, w))
    (h : sendStep s (msg, w) = some t) : Kept t := by
  rcases sendStep_cases hs.conn h with ⟨-, rfl⟩ | ⟨frame, hw, ⟨rfl, rfl⟩ | ⟨n, err, rfl, rfl⟩⟩
  · exact hs
  · have hnil : s.tail = [] := by simpa only [Sound, hw] using hsound
    refine ⟨rfl, .inl ?_⟩
    rw [tail_append rfl, hnil, nil_append, receive_frame hw]
  · have hnone := (readMessage_fails_iff hs hw).mpr hsound
    have htail : (⟨⟨some (s.written ++ frame.take n)⟩, s.sent⟩ : Session).tail =
        s.tail ++ frame.take n := by
      rw [tail_append rfl, receive_of_none hnone]
    refine ⟨rfl, ?_⟩
    rw [htail]
    rcases hs.tail with hnil | htorn
    · rw [hnil, nil_append]
      by_cases hpart : frame.take n = []
      · exact .inl hpart
      · refine .inr (.cut hw ( take_prefix n frame) ?_ hpart)
        rintro heq
        rw [hnil, nil_append, heq, readMessage_frame hw] at hnone
        cases hnone
    · exact .inr (htorn.append hw ( take_prefix n frame))

theorem exists_run_sendStep (s : Session) (calls : List (Message × WriteResult)) :
    ∃ t, Lib.run sendStep s calls = some t := by
  induction calls generalizing s with
  | nil => exact ⟨s, rfl⟩
  | cons _ _ ih => exact ih _

end

/-- **The peer reads exactly the messages whose `Send` returned nil**, after every call of a
sequence on one connection, exactly when every call of it is sound: nothing is sent behind a frame
that was cut, no write fails after its whole frame, and no torn bytes begin with the frame of two
braces. -/
theorem faithful_along_iff (calls : List (Message × WriteResult)) :
    Lib.Along sendStep Faithful Session.connected calls ↔
      Lib.Meets sendStep Sound Session.connected calls := by
  obtain ⟨t, ht⟩ := exists_run_sendStep Session.connected calls
  have hfaithful : Faithful Session.connected := rfl
  refine Lib.along_iff_meets_of_kept ?_ ?_ kept_connected hfaithful Lib.meets_true ht
  · rintro s ⟨msg, w⟩ t hs hsound h
    exact hs.step hsound h
  · rintro s ⟨msg, w⟩ t hs hf - h
    exact faithful_step_iff hs hf h

/-- The first write is cut after two bytes of its header; the second message is sent, and the peer
does not read it. -/
theorem sent_behind_cut_not_received :
    ∃ t, Lib.run sendStep Session.connected
        [(.plain "a" "c", .fails 2 "i/o timeout"), (.plain "b" "c", .ok)] = some t ∧
      t.sent = [.plain "b" "c"] ∧ t.received = [] ∧ ¬ Faithful t :=
  ⟨_, rfl, by decide +kernel, by decide +kernel, by decide +kernel⟩

end K8s4Claw.IpcBus
