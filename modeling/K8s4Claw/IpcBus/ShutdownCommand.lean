/-
# The shutdown command

`ipcbus shutdown`, the preStop command of the pod: `runShutdown` of `cmd/ipcbus/main.go` connects to
the bus, registers for the channel `__shutdown__`, waits for the ACK and sends a shutdown message.
The bus handles that connection like the one of a sidecar.  A shutdown message is a control message,
and `handleControl` of `router.go` answers heartbeats only: it logs the message and goes on.  The
sidecars are told by `SendShutdown`, which only the signal handler of `runServe` calls.

`busStep_told` says which step of the bus writes a shutdown message to whom: `SendShutdown`, and the
outbound loop for one that comes from the runtime; no `handleConn` does.
-/

import K8s4Claw.IpcBus.Moves

namespace K8s4Claw.IpcBus

open List
open Lib (Time run)
open Lib.Json (member string)

/-! ### The command -/

/-- What `runShutdown` meets: the errors of the dial and of the two writes, what it reads, and the
ids and times of its messages. -/
structure Dialogue where
  dial : Option String := none
  register : String × Time
  registerWrite : Option String := none
  ack : Except String Message
  shutdown : String × Time
  shutdownWrite : Option String := none

namespace Dialogue

def regMsg (d : Dialogue) : Message :=
  .newMessage d.register.1 d.register.2 .register "__shutdown__"
    (some ⟨.obj [member "role" (string "shutdown")], by decide⟩)

def shutdownMsg (d : Dialogue) : Message :=
  .newMessage d.shutdown.1 d.shutdown.2 .shutdown "__shutdown__" none

end Dialogue

/-- `runShutdown`: the messages that it sends, and the error that it returns. -/
def runShutdown (d : Dialogue) : List Message × Option String :=
  match d.dial with
  | some err => ([], some ("failed to connect to bus socket: " ++ err))
  | none =>
      match d.registerWrite with
      | some err => ([], some ("failed to send register: " ++ err))
      | none =>
          match d.ack with
          | .error err => ([d.regMsg], some ("failed to read ACK: " ++ err))
          | .ok ack =>
              if ack.type ≠ .ack then ([d.regMsg], some ("expected ACK, got " ++ ack.type.text))
              else
                match d.shutdownWrite with
                | some err => ([d.regMsg], some ("failed to send shutdown: " ++ err))
                | none => ([d.regMsg, d.shutdownMsg], none)

/-! ### Who is told -/

/-- The connections that were written a shutdown message, in order. -/
def Shared.told (s : Shared) : List ℕ :=
  (s.outbox.filter fun w => w.2.type = .shutdown).map Prod.fst

/-- The connections that `SendShutdown` and the outbound loop write a shutdown message to. -/
def Event.tells (P : Bus) : Event → List ℕ
  | .sendShutdown writes => writes.filterMap fun (channel, uuid, now, ok) =>
      (P.shared.sidecars.lookup channel).filter fun _ =>
        written ok (.newMessage uuid now .shutdown channel none)
  | .deliver ok => match P.shared.outbound with
      | none => []
      | some (conn, msg) => if msg.type = .shutdown ∧ written ok msg then [conn] else []
  | _ => []

/-- Those of a run. -/
def toldBy : Bus → List Event → List ℕ
  | _, [] => []
  | P, ev :: es => ev.tells P ++ match busStep P ev with
      | none => []
      | some P' => toldBy P' es

/-- The messages that a connection reads in a run. -/
def received (t : ℕ) (es : List Event) : List Message :=
  es.filterMap fun
    | .act u (.recv msg) => if u = t then some msg else none
    | _ => none

/-- Connection `t` of a run is the one of a shutdown command that went well, and its `handleConn`
has processed the messages. -/
structure Commanded (config : RouterConfig) (es : List Event) (t : ℕ) (d : Dialogue) (P : Bus) :
    Prop where
  reached : run busStep (started config) es = some P
  succeeds : (runShutdown d).2 = none
  received : received t es = (runShutdown d).1
  processed : (P.thread t).busy = false

section

variable {s : Shared} {t : ℕ} {p : Conn} {c : Choice} {e : ConnStep} {P P' : Bus}

theorem told_write (conn : ℕ) (ok : Bool) (msg : Message) :
    (s.write conn ok msg).told =
      s.told ++ if msg.type = .shutdown ∧ written ok msg then [conn] else [] := by
  unfold Shared.told
  rw [Shared.write_outbox, filter_append]
  by_cases htype : msg.type = .shutdown <;> by_cases hwritten : written ok msg <;>
    simp [htype, hwritten]

theorem told_write_of_ne (conn : ℕ) (ok : Bool) {msg : Message} (h : msg.type ≠ .shutdown) :
    (s.write conn ok msg).told = s.told := by
  simp [told_write, h]

theorem told_goOn {s' : Shared} {q : Conn} (h : goOn s' q = some e) (hs : s'.told = s.told) :
    e.shared.told = s.told := by
  obtain rfl := (Option.some.inj h).symm
  exact hs

theorem inboundStep_told {channel : String} {msg : Message} {pc : InboundPc}
    (h : inboundStep s t channel msg pc c = some e) : e.shared.told = s.told := by
  unfold inboundStep at h
  split at h
  case h_1 | h_3 =>
    split_ifs at h
    exact told_goOn h rfl
  case h_2 =>
    split_ifs at h
    exact told_goOn h (told_write_of_ne _ _ nofun)
  case h_4 | h_9 => split at h <;> exact told_goOn h rfl
  case h_5 | h_10 => exact told_goOn h (told_write_of_ne _ _ nofun)
  case h_14 => cases h
  all_goals exact told_goOn h rfl

/-- **No `handleConn` sends a shutdown message**, whatever it is handling. -/
theorem connStep_told (h : connStep s t p c = some e) : e.shared.told = s.told := by
  unfold connStep at h
  split at h
  case h_4 => exact told_goOn h (told_write_of_ne _ _ nofun)
  case h_7 => exact inboundStep_told h
  case h_10 => cases h
  all_goals exact told_goOn h rfl

theorem sendShutdown_told (writes : List (String × String × Time × Bool)) :
    (sendShutdown s writes).told = s.told ++ writes.filterMap fun (channel, uuid, now, ok) =>
      (s.sidecars.lookup channel).filter fun _ =>
        written ok (.newMessage uuid now .shutdown channel none) := by
  unfold sendShutdown
  induction writes generalizing s with
  | nil => simp
  | cons w _ ih =>
    obtain ⟨channel, uuid, now, ok⟩ := w
    rw [foldl_cons]
    cases hconn : s.sidecars.lookup channel with
    | none => simpa [hconn] using ih
    | some conn =>
      -- a write does not change who is registered for the channels that are left
      have hsame := s.same_write conn ok (.newMessage uuid now .shutdown channel none)
      have htold := ih (s := s.write conn ok (.newMessage uuid now .shutdown channel none))
      rw [told_write, hsame.sidecars] at htold
      simp only [hconn, filterMap_cons]
      rw [htold]
      have htype : (Message.newMessage uuid now .shutdown channel none).type = .shutdown := rfl
      cases written ok (.newMessage uuid now .shutdown channel none) <;>
        simp [htype, Option.filter]

theorem ReplayMove.told {m : Main} {s' : Shared} (h : ReplayMove s m c s') : s'.told = s.told := by
  cases h <;> rfl

/-- **Who is told by a step of the bus.** -/
theorem busStep_told {ev : Event} (h : busStep P ev = some P') :
    P'.shared.told = P.shared.told ++ ev.tells P := by
  cases ev with
  | act =>
    simp only [busStep] at h
    split_ifs at h
    obtain ⟨e, he, rfl⟩ := Option.map_eq_some_iff.mp h
    rw [Lib.Pool.advance_shared, connStep_told he]
    exact (append_nil _).symm
  | replay =>
    obtain ⟨s', hs', rfl⟩ := Option.map_eq_some_iff.mp h
    exact (replayStep_move hs').told.trans (append_nil _).symm
  | deliver ok =>
    simp only [busStep] at h
    cases houtbound : P.shared.outbound with
    | none => simp [houtbound] at h
    | some w =>
      simp only [houtbound] at h
      split_ifs at h
      cases h
      simp only [Event.tells, houtbound]
      exact told_write w.1 ok w.2
  | sendShutdown writes =>
    simp only [busStep] at h
    split_ifs at h
    cases h
    exact sendShutdown_told writes
  | restart =>
    cases busStep_move h with
    | restart => exact (append_nil _).symm
    | quiet hev => cases hev
  | _ =>
    simp only [busStep] at h
    split_ifs at h
    cases h
    exact (append_nil _).symm

/-- **Who is told in a run.** -/
theorem run_told {es : List Event} (h : run busStep P es = some P') :
    P'.shared.told = P.shared.told ++ toldBy P es := by
  induction es generalizing P with
  | nil =>
    cases h
    exact (append_nil _).symm
  | cons ev es ih =>
    obtain ⟨P₁, hstep, hrest⟩ := Lib.run_cons.mp h
    rw [ih hrest, busStep_told hstep, toldBy, hstep, append_assoc]

/-- **After the shutdown command every other sidecar has been sent a shutdown message** exactly if
every one of them has been told by `SendShutdown` or by the runtime. -/
theorem shutdown_command_iff {config : RouterConfig} {es : List Event} {d : Dialogue}
    (h : Commanded config es t d P) :
    (∀ channel u, P.shared.sidecars.lookup channel = some u → u ≠ t →
        ∃ w ∈ P.shared.outbox, w.1 = u ∧ w.2.type = .shutdown) ↔
      ∀ channel u, P.shared.sidecars.lookup channel = some u → u ≠ t →
        u ∈ toldBy (started config) es := by
  have htold : P.shared.told = toldBy (started config) es := run_told h.reached
  have hmem (u : ℕ) : (∃ w ∈ P.shared.outbox, w.1 = u ∧ w.2.type = .shutdown) ↔
      u ∈ toldBy (started config) es := by
    rw [← htold, Shared.told, mem_map]
    simp only [mem_filter, decide_eq_true_eq]
    constructor
    · rintro ⟨w, hw, rfl, htype⟩
      exact ⟨w, ⟨hw, htype⟩, rfl⟩
    · rintro ⟨w, ⟨hw, htype⟩, rfl⟩
      exact ⟨w, hw, rfl, htype⟩
  simp only [hmem]

end

/-! ### A command with one sidecar -/

/-- What a command meets that goes well. -/
def plainDialogue : Dialogue where
  register := ("r1", .zero)
  ack := .ok (.newAck "a1" .zero "r1")
  shutdown := ("s1", .zero)

/-- The steps of the connection of the command. -/
def commands (t : ℕ) (d : Dialogue) : List Event :=
  [.accept, .act t (.recv d.regMsg), .act t .go, .act t (.write "a1" .zero true),
    .act t (.recv d.shutdownMsg), .act t .go]

/-- A sidecar connects, and then the command. -/
def commanded : List Event :=
  .replay .go :: registers 0 "slack" ++ commands 1 plainDialogue

/-- The same, and then the bus gets a signal. -/
def signalled : List Event :=
  commanded ++
    [.sendShutdown [("slack", "s2", .zero, true), ("__shutdown__", "s3", .zero, true)]]

/-- The signal tells the sidecar. -/
theorem shutdown_command_signalled :
    ∃ P, Commanded smallConfig signalled 1 plainDialogue P ∧
      ∀ channel u, P.shared.sidecars.lookup channel = some u → u ≠ 1 →
        ∃ w ∈ P.shared.outbox, w.1 = u ∧ w.2.type = .shutdown := by
  have hreached : ∃ P ∈ run busStep (started smallConfig) signalled,
      (P.thread 1).busy = false ∧
      P.shared.sidecars = ((∅ : Finmap _).insert "slack" 0).insert "__shutdown__" 1 := by
    decide +kernel
  obtain ⟨P, hrun, hbusy, hsidecars⟩ := hreached
  have hcommanded : Commanded smallConfig signalled 1 plainDialogue P :=
    ⟨hrun, rfl, by decide +kernel, hbusy⟩
  have htold : toldBy (started smallConfig) signalled = [0, 1] := by decide +kernel
  refine ⟨P, hcommanded, (shutdown_command_iff hcommanded).mpr fun channel u hlookup hne => ?_⟩
  rw [htold]
  rw [hsidecars] at hlookup
  by_cases hcommand : channel = "__shutdown__"
  · subst hcommand
    exact absurd (Option.some.inj hlookup).symm hne
  · rw [Finmap.lookup_insert_of_ne _ hcommand] at hlookup
    by_cases hslack : channel = "slack"
    · subst hslack
      rw [← Option.some.inj hlookup]
      exact mem_cons_self
    · rw [Finmap.lookup_insert_of_ne _ hslack] at hlookup
      cases hlookup

/-- The command goes well and its connection has been handled, and the sidecar has not been told. -/
theorem shutdown_command_unheard :
    ∃ P, Commanded smallConfig commanded 1 plainDialogue P ∧
      P.shared.sidecars.lookup "slack" = some 0 ∧
      ¬ ∃ w ∈ P.shared.outbox, w.1 = 0 ∧ w.2.type = .shutdown := by
  have hreached : ∃ P ∈ run busStep (started smallConfig) commanded,
      (P.thread 1).busy = false ∧ P.shared.sidecars.lookup "slack" = some 0 ∧
      ¬ ∃ w ∈ P.shared.outbox, w.1 = 0 ∧ w.2.type = .shutdown := by
    decide +kernel
  obtain ⟨P, hrun, hbusy, hslack, hunheard⟩ := hreached
  exact ⟨P, ⟨hrun, rfl, by decide +kernel, hbusy⟩, hslack, hunheard⟩

end K8s4Claw.IpcBus
