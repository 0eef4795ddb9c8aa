/-
# The ring buffer and the undelivered messages

`HandleInbound` pushes a message into the buffer of its channel before `bridge.Send` and pops
the buffer when the send went through; a failed send leaves it in the buffer.  `Pop` takes the
oldest message, which need not be the one that was sent: after a failed send the next
successful one takes the failed message out and leaves the delivered one in
(`deliver_after_failure`).

`handleInbound` is a whole call, made of the steps of `K8s4Claw.IpcBus.Bus`.
-/

import K8s4Claw.IpcBus.Bus

namespace K8s4Claw.IpcBus

open List Option
open Lib (Along Meets Outcome Time Utc run)

/-- What the environment decides in a call of `HandleInbound`, at each of its points. -/
structure Outcomes where
  wal : InboundPc → String × Outcome × Outcome
  write : InboundPc → String × Time × Bool
  send : Bool
  put : Utc × Bool

namespace Outcomes

def walAt (env : Outcomes) (pc : InboundPc) : Choice :=
  .wal (env.wal pc).1 (env.wal pc).2.1 (env.wal pc).2.2

def writeAt (env : Outcomes) (pc : InboundPc) : Choice :=
  .write (env.write pc).1 (env.write pc).2.1 (env.write pc).2.2

/-- The decision at each point of the call. -/
def choice (env : Outcomes) (msg : Message) : InboundPc → Choice
  | .start =>
      if msg.isControl then if msg.type = .heartbeat then env.writeAt .start else .go
      else env.walAt .start
  | .push | .pop => .go
  | .slowDown => env.writeAt .slowDown
  | .resume => env.writeAt .resume
  | .send => if env.send then .ok else .err
  | .complete => env.walAt .complete
  | .retry => env.walAt .retry
  | .markDLQ n => env.walAt (.markDLQ n)
  | .putDLQ _ => .put env.put.1 env.put.2

end Outcomes

/-- A call of `HandleInbound` for a message from connection `conn`. -/
structure Call where
  conn : ℕ
  msg : Message
  env : Outcomes

/-- The state between the calls on a channel.  Ghost state: the messages accepted so far whose
`bridge.Send` failed, and for each send that went through what the `Pop` after it removed. -/
structure Backlog where
  shared : Shared
  undelivered : List Message
  removed : List (Message × Option Message)

namespace Backlog

/-- What a step of the call at `pc` adds to the ghost state. -/
def record (b : Backlog) (channel : String) (msg : Message) (s : Shared) :
    InboundPc → Choice → Backlog
  | .send, .err => { b with shared := s, undelivered := b.undelivered ++ [msg] }
  | .pop, _ =>
      let oldest := (b.shared.buffers.lookup channel).bind fun buf => buf.pop.2.1
      { b with shared := s, removed := b.removed ++ [(msg, oldest)] }
  | _, _ => { b with shared := s }

/-- At most `n` steps of a call. -/
def steps (call : Call) : ℕ → Backlog × Conn → Backlog × Conn
  | n + 1, (b, .handle channel msg pc) =>
      let c := call.env.choice msg pc
      match inboundStep b.shared call.conn channel msg pc c with
      | some e => steps call n (b.record channel msg e.shared pc c, e.next)
      | none => (b, .handle channel msg pc)
  | _, x => x

/-- The longest way through `HandleInbound`. -/
def maxSteps : ℕ := 7

/-- A call of `HandleInbound` on a channel, from its start to its end. -/
def handleInbound (channel : String) (b : Backlog) (call : Call) : Backlog × Conn :=
  steps call maxSteps (b, .handle channel call.msg .start)

/-- The next call on the channel. -/
def step (channel : String) (b : Backlog) (call : Call) : Option Backlog :=
  some (handleInbound channel b call).1

end Backlog

/-! ### What a call does to the buffer -/

namespace Backlog

section

variable {channel : String} {b : Backlog} {call : Call} {msg : Message} {pc : InboundPc} {n : ℕ}

theorem steps_of_eq_some {c : Choice} {e : ConnStep} (hc : call.env.choice msg pc = c)
    (h : inboundStep b.shared call.conn channel msg pc c = some e) :
    steps call (n + 1) (b, .handle channel msg pc) =
      steps call n (b.record channel msg e.shared pc c, e.next) := by
  simp only [steps, hc, h]

@[simp]
theorem steps_read : steps call n (b, .read channel) = (b, .read channel) := by
  cases n <;> rfl

/-- The call is over, with this buffer and this ghost state. -/
structure Ends (channel : String) (x : Backlog × Conn) (buf : Option (RingBuffer Message))
    (undelivered : List Message) (removed : List (Message × Option Message)) : Prop where
  conn : x.2 = .read channel
  lookup : x.1.shared.buffers.lookup channel = buf
  undelivered : x.1.undelivered = undelivered
  removed : x.1.removed = removed

theorem ends_putDLQ (attempts : Int64) :
    Ends channel (steps call (n + 1) (b, .handle channel msg (.putDLQ attempts)))
      (b.shared.buffers.lookup channel) b.undelivered b.removed := by
  rw [steps_of_eq_some rfl rfl, steps_read]
  exact ⟨rfl, rfl, rfl, rfl⟩

/-- Where `scheduleRetry` goes on after `IncrementAttempts`. -/
def afterCount (channel : String) (msg : Message) : Option Int64 → Conn
  | none => .read channel
  | some n => if n ≥ maxRetryAttempts then .handle channel msg (.markDLQ n) else .read channel

theorem ends_retry :
    Ends channel (steps call (n + 3) (b, .handle channel msg .retry))
      (b.shared.buffers.lookup channel) b.undelivered b.removed := by
  obtain ⟨wal, result, hstep⟩ : ∃ (wal : Wal) (result : Option Int64),
      inboundStep b.shared call.conn channel msg .retry (call.env.choice msg .retry) =
        goOn { b.shared with wal := wal } (afterCount channel msg result) :=
    ⟨_, _, rfl⟩
  rw [steps_of_eq_some rfl hstep]
  cases result with
  | none =>
    dsimp only [afterCount]
    exact ⟨rfl, rfl, rfl, rfl⟩
  | some attempts =>
    dsimp only [afterCount]
    by_cases hmax : attempts ≥ maxRetryAttempts
    · rw [if_pos hmax]
      exact ends_putDLQ attempts
    · rw [if_neg hmax]
      exact ⟨rfl, rfl, rfl, rfl⟩

theorem ends_resume :
    Ends channel (steps call (n + 1) (b, .handle channel msg .resume))
      (b.shared.buffers.lookup channel) b.undelivered b.removed := by
  rw [steps_of_eq_some rfl rfl, steps_read]
  exact ⟨rfl, by simp [record], rfl, rfl⟩

section

variable {s : Shared} {conn : ℕ} {buf : RingBuffer Message}

variable (hbuf : s.buffers.lookup channel = some buf)

include hbuf

theorem inboundStep_push :
    inboundStep s conn channel msg .push .go =
      goOn { s with buffers := s.buffers.insert channel (buf.push msg).1 }
        (.handle channel msg (if (buf.push msg).2.2 then .slowDown else .send)) := by
  simp only [inboundStep, hbuf]

theorem inboundStep_pop :
    inboundStep s conn channel msg .pop .go =
      goOn { s with buffers := s.buffers.insert channel buf.pop.1 }
        (if buf.pop.2.2 then .handle channel msg .resume else .read channel) := by
  simp only [inboundStep, hbuf]

end

variable {buf : RingBuffer Message}

theorem ends_pop (hbuf : b.shared.buffers.lookup channel = some buf) :
    Ends channel (steps call (n + 2) (b, .handle channel msg .pop)) (some buf.pop.1)
      b.undelivered (b.removed ++ [(msg, buf.pop.2.1)]) := by
  rw [steps_of_eq_some rfl (inboundStep_pop hbuf)]
  simp only [record, hbuf]
  cases buf.pop.2.2 with
  | true =>
    rw [← Finmap.lookup_insert (a := channel) (b := buf.pop.1) b.shared.buffers]
    exact ends_resume
  | false =>
    exact ⟨rfl, Finmap.lookup_insert _, rfl, rfl⟩

theorem exists_steps_push (hbuf : b.shared.buffers.lookup channel = some buf) :
    ∃ (m : ℕ) (s : Shared), s.buffers.lookup channel = some (buf.push msg).1 ∧
      steps call (n + 6) (b, .handle channel msg .push) =
        steps call (m + 4) ({ b with shared := s }, .handle channel msg .send) := by
  rw [steps_of_eq_some rfl (inboundStep_push hbuf)]
  cases (buf.push msg).2.2 with
  | true =>
    refine ⟨n, _, ?_, rfl⟩
    rw [Shared.write_buffers]
    exact Finmap.lookup_insert _
  | false => exact ⟨n + 1, _, Finmap.lookup_insert _, rfl⟩

theorem handleInbound_control (hmsg : call.msg.isControl = true) :
    Ends channel (handleInbound channel b call) (b.shared.buffers.lookup channel) b.undelivered
      b.removed := by
  unfold handleInbound
  by_cases hbeat : call.msg.type = .heartbeat
  · rw [maxSteps, steps_of_eq_some (by simp [Outcomes.choice, hmsg]; rfl)
      (by simp [inboundStep, hbeat]; rfl)]
    exact ⟨rfl, by simp [record], rfl, rfl⟩
  · rw [maxSteps, steps_of_eq_some (c := .go) (by simp [Outcomes.choice, hmsg, hbeat])
      (by simp [inboundStep, hmsg, hbeat]; rfl)]
    exact ⟨rfl, rfl, rfl, rfl⟩

section

variable {buf : RingBuffer Message} (hmsg : call.msg.isControl = false)
  (hbuf : b.shared.buffers.lookup channel = some buf)

include hmsg hbuf

theorem exists_steps_send : ∃ (m : ℕ) (s : Shared),
    s.buffers.lookup channel = some (buf.push call.msg).1 ∧
      handleInbound channel b call =
        steps call (m + 4) ({ b with shared := s }, .handle channel call.msg .send) := by
  unfold handleInbound
  have hstart : call.env.choice call.msg .start = call.env.walAt .start := by
    simp [Outcomes.choice, hmsg]
  rw [maxSteps, steps_of_eq_some hstart (by simp [inboundStep, hmsg]; rfl)]
  exact exists_steps_push hbuf

/-- **A call that delivers its message** pushes it and pops the oldest. -/
theorem handleInbound_delivered (hsend : call.env.send = true) :
    Ends channel (handleInbound channel b call) (some (buf.push call.msg).1.pop.1) b.undelivered
      (b.removed ++ [(call.msg, (buf.push call.msg).1.pop.2.1)]) := by
  obtain ⟨m, s, hs, heq⟩ := exists_steps_send hmsg hbuf
  rw [heq]
  rw [steps_of_eq_some (c := .ok) (by simp [Outcomes.choice, hsend]) rfl]
  exact ends_pop hs

/-- **A call that fails to deliver its message** pushes it. -/
theorem handleInbound_failed (hsend : call.env.send = false) :
    Ends channel (handleInbound channel b call) (some (buf.push call.msg).1)
      (b.undelivered ++ [call.msg]) b.removed := by
  obtain ⟨m, s, hs, heq⟩ := exists_steps_send hmsg hbuf
  rw [heq, ← hs]
  rw [steps_of_eq_some (c := .err) (by simp [Outcomes.choice, hsend]) rfl]
  exact ends_retry

end

end

/-! ### When the buffer holds the undelivered messages -/

/-- The buffer of the channel holds the undelivered messages, in order; every `Pop` removed the
message that had been delivered; and with nothing undelivered there is no backpressure. -/
structure Exact (channel : String) (b : Backlog) : Prop where
  contents : ∃ buf, b.shared.buffers.lookup channel = some buf ∧
    buf.contents = b.undelivered.map some ∧ (b.undelivered = [] → buf.state = .normal)
  removed : ∀ p ∈ b.removed, p.2 = some p.1

/-- Fewer messages are undelivered than the buffer has places. -/
def HasRoom (channel : String) (b : Backlog) : Prop :=
  ∀ buf, b.shared.buffers.lookup channel = some buf → b.undelivered.length < buf.size

instance (channel : String) (b : Backlog) : Decidable (HasRoom channel b) :=
  match h : b.shared.buffers.lookup channel with
  | none => isTrue fun buf hbuf => by simp [h] at hbuf
  | some buf => decidable_of_iff (b.undelivered.length < buf.size)
      ⟨fun hlt buf' hbuf' => Option.some.inj (h.symm.trans hbuf') ▸ hlt, fun hroom => hroom buf h⟩

/-- The send of a data message fails, or goes through while no other message is undelivered. -/
def SendsInOrder (b : Backlog) (call : Call) : Prop :=
  call.msg.isControl = false → call.env.send = true → ∀ msg ∈ b.undelivered, msg = call.msg
  deriving Decidable

/-- Moving the first element of a list to its end changes it, unless all are the same. -/
theorem append_singleton_eq_cons_iff {α : Type*} {a : α} {l : List α} :
    l ++ [a] = a :: l ↔ ∀ b ∈ l, b = a := by
  induction l with
  | nil => simp
  | cons c l ih =>
    rw [forall_mem_cons, ← ih]
    constructor
    · intro h
      obtain ⟨rfl, h⟩ := cons.inj h
      exact ⟨rfl, h⟩
    · rintro ⟨rfl, h⟩
      rw [cons_append, h]

section

variable {channel : String} {b c : Backlog} {call : Call}

/-- The marks of the channel's buffer are not negative. -/
def Marked (channel : String) (b : Backlog) : Prop :=
  ∃ buf, b.shared.buffers.lookup channel = some buf ∧ 0 ≤ buf.lowMark

theorem marked_step (h : Marked channel b) (hstep : step channel b call = some c) :
    Marked channel c := by
  obtain ⟨buf, hbuf, hlow⟩ := h
  cases hstep
  cases hmsg : call.msg.isControl with
  | true => exact ⟨buf, (handleInbound_control hmsg).lookup.trans hbuf, hlow⟩
  | false =>
    cases hsend : call.env.send with
    | true =>
      refine ⟨_, (handleInbound_delivered hmsg hbuf hsend).lookup, ?_⟩
      rwa [RingBuffer.pop_lowMark, RingBuffer.push_lowMark]
    | false =>
      refine ⟨_, (handleInbound_failed hmsg hbuf hsend).lookup, ?_⟩
      rwa [RingBuffer.push_lowMark]

theorem contents_push_eq {buf : RingBuffer Message} {msgs : List Message} (msg : Message)
    (hfree : buf.count ≠ buf.size) (hcontents : buf.contents = msgs.map some) :
    (buf.push msg).1.contents = (msgs ++ [msg]).map some := by
  rw [RingBuffer.contents_push hfree, hcontents, map_append]
  rfl

/-- The `Pop` after a send that went through leaves the undelivered messages iff they are all
the one that was sent. -/
theorem exact_delivered_iff {buf : RingBuffer Message} (h : Exact channel b)
    (hlow : 0 ≤ buf.lowMark) (hbuf : b.shared.buffers.lookup channel = some buf)
    (hfree : buf.count ≠ buf.size) (hcontents : buf.contents = b.undelivered.map some)
    (hmsg : call.msg.isControl = false) (hsend : call.env.send = true) :
    Exact channel (handleInbound channel b call).1 ↔ SendsInOrder b call := by
  have hend := handleInbound_delivered hmsg hbuf hsend
  have hpush := contents_push_eq call.msg hfree hcontents
  have hcount : (buf.push call.msg).1.count = b.undelivered.length + 1 := by
    rw [← RingBuffer.length_contents, hpush]
    simp
  have hpop : (b.undelivered ++ [call.msg]).map some =
      (buf.push call.msg).1.pop.2.1 :: (buf.push call.msg).1.pop.1.contents := by
    rw [← hpush]
    exact RingBuffer.contents_pop (by omega)
  cases hu : b.undelivered with
  | nil =>
    rw [hu] at hpop hcount
    obtain ⟨hold, hrest⟩ := cons.inj hpop
    have hexact : Exact channel (handleInbound channel b call).1 := by
      refine ⟨⟨_, hend.lookup, ?_, fun _ => ?_⟩, ?_⟩
      · rw [hend.undelivered, hu]
        exact hrest.symm
      · exact RingBuffer.pop_state_of_count_eq_one
          (by rwa [RingBuffer.push_lowMark]) (by simpa using hcount)
      · rw [hend.removed, forall_mem_append]
        exact ⟨h.removed, by simp [← hold]⟩
    refine iff_of_true hexact fun _ _ => ?_
    simp [hu]
  | cons x xs =>
    rw [hu] at hpop
    obtain ⟨hold, hrest⟩ := cons.inj hpop
    -- the oldest undelivered message is removed, the one just sent stays
    have hleft : (buf.push call.msg).1.pop.1.contents = (x :: xs).map some ↔
        xs ++ [call.msg] = x :: xs := by
      rw [← hrest]
      exact (map_injective_iff.mpr (some_injective _)).eq_iff
    constructor
    · intro hexact _ _
      obtain ⟨buf', hbuf', hbuf'c, -⟩ := hexact.contents
      obtain rfl := some.inj (hend.lookup.symm.trans hbuf')
      rw [hend.undelivered, hu, hleft] at hbuf'c
      have hx : x = call.msg := by
        have hrem := hexact.removed (call.msg, (buf.push call.msg).1.pop.2.1)
          (by rw [hend.removed]; simp)
        exact some.inj (hold.trans hrem)
      subst hx
      rw [hu]
      exact forall_mem_cons.mpr ⟨rfl, append_singleton_eq_cons_iff.mp hbuf'c⟩
    · intro hok
      have hall := hok hmsg hsend
      rw [hu] at hall
      obtain ⟨rfl, hxs⟩ := forall_mem_cons.mp hall
      refine ⟨⟨_, hend.lookup, ?_, ?_⟩, ?_⟩
      · rw [hend.undelivered, hu, hleft]
        exact append_singleton_eq_cons_iff.mpr hxs
      · rw [hend.undelivered, hu]
        intro hnil
        cases hnil
      · rw [hend.removed, forall_mem_append]
        exact ⟨h.removed, by simp [← hold]⟩

theorem exact_step_iff (hmarked : Marked channel b) (h : Exact channel b)
    (hroom : HasRoom channel b) (hstep : step channel b call = some c) :
    Exact channel c ↔ SendsInOrder b call := by
  obtain ⟨buf, hbuf, hlow⟩ := hmarked
  cases hstep
  obtain ⟨hcontents, hstate⟩ : buf.contents = b.undelivered.map some ∧
      (b.undelivered = [] → buf.state = .normal) := by
    obtain ⟨buf', hbuf', hb⟩ := h.contents
    obtain rfl := some.inj (hbuf.symm.trans hbuf')
    exact hb
  have hcount : buf.count = b.undelivered.length := by
    rw [← buf.length_contents, hcontents, length_map]
  have hfree : buf.count ≠ buf.size := by
    have := hroom buf hbuf
    omega
  cases hmsg : call.msg.isControl with
  | true =>
    have hend : Ends channel (handleInbound channel b call) _ _ _ := handleInbound_control hmsg
    have hexact : Exact channel (handleInbound channel b call).1 := by
      refine ⟨⟨buf, hend.lookup.trans hbuf, ?_⟩, ?_⟩
      · rw [hend.undelivered]
        exact ⟨hcontents, hstate⟩
      · rw [hend.removed]
        exact h.removed
    exact iff_of_true hexact fun hdata => absurd (hmsg.symm.trans hdata) (by decide)
  | false =>
    have hpush := contents_push_eq call.msg hfree hcontents
    cases hsend : call.env.send with
    | false =>
      have hend := handleInbound_failed hmsg hbuf hsend
      have hexact : Exact channel (handleInbound channel b call).1 := by
        refine ⟨⟨_, hend.lookup, ?_⟩, ?_⟩
        · rw [hend.undelivered]
          exact ⟨hpush, fun hnil => absurd hnil (by simp)⟩
        · rw [hend.removed]
          exact h.removed
      exact iff_of_true hexact fun _ hok => absurd (hsend.symm.trans hok) (by decide)
    | true =>
      exact exact_delivered_iff h hlow hbuf hfree hcontents hmsg hsend

end

/-- A sequence of calls always runs to its end. -/
theorem exists_run (channel : String) (b : Backlog) (calls : List Call) :
    ∃ final, run (step channel) b calls = some final := by
  induction calls generalizing b with
  | nil => exact ⟨b, rfl⟩
  | cons call _ ih => exact ih (handleInbound channel b call).1

theorem lookup_register {s : Shared} {channel : String} (h : channel ∉ s.buffers) (conn : ℕ) :
    (s.register channel conn).buffers.lookup channel =
      some (.newRingBuffer s.config.bufferSize s.config.highWatermark s.config.lowWatermark) := by
  simp [Shared.register, h]

/-- The calls on a channel start with nothing undelivered. -/
def initial (s : Shared) : Backlog := ⟨s, [], []⟩

/-- **The buffer holds exactly the undelivered messages after every call iff every send that goes
through finds no other message undelivered.**  The calls come one after another, with any
outcomes, and there are always fewer undelivered messages than the buffer has places. -/
theorem contents_eq_undelivered_iff {channel : String} {s : Shared} {size : ℤ} {high low : ℚ}
    (hbuf : s.buffers.lookup channel = some (.newRingBuffer size high low)) {calls : List Call}
    (hroom : Meets (step channel) (fun b _ => HasRoom channel b) (initial s) calls) :
    Along (step channel) (Exact channel) (initial s) calls ↔
      Meets (step channel) SendsInOrder (initial s) calls := by
  obtain ⟨final, hrun⟩ := exists_run channel (initial s) calls
  have hmarked : Marked channel (initial s) := ⟨_, hbuf, (RingBuffer.effectiveLow_pos ..).le⟩
  have hexact : Exact channel (initial s) :=
    ⟨⟨_, hbuf, RingBuffer.contents_newRingBuffer size high low, fun _ => rfl⟩, by simp [initial]⟩
  exact Lib.along_iff_meets_of_meets (fun b call c hb hstep => marked_step hb hstep)
    (fun b call c hb hex hr hstep => exact_step_iff hb hex hr hstep) hmarked hexact hroom hrun

/-- A call with working log, connection and queue. -/
def sends (msg : Message) (ok : Bool) : Call where
  conn := 0
  msg := msg
  env :=
    { wal := fun _ => ("t", .ok, .ok)
      write := fun _ => ("u", .zero, true)
      send := ok
      put := (⟨.zero, rfl⟩, true) }

/-- The router of the examples, with the channel "slack" registered by connection 0. -/
def registeredRouter : Shared := (started smallConfig).shared.register "slack" 0

theorem exact_along_delivered_then_failed :
    (∃ b ∈ run (step "slack") (initial registeredRouter)
        [sends (.plain "m1" "slack") true, sends (.plain "m2" "slack") false],
      b.undelivered = [.plain "m2" "slack"]) ∧
    Along (step "slack") (Exact "slack") (initial registeredRouter)
      [sends (.plain "m1" "slack") true, sends (.plain "m2" "slack") false] :=
  ⟨by decide +kernel,
    (contents_eq_undelivered_iff (lookup_register (by decide) 0) (by decide +kernel)).mpr
      (by decide +kernel)⟩

/-- **A delivery after a failed one.**  The send of the first message fails and that of the second
goes through: the first is undelivered, and the buffer holds the second, as the `Pop` for the
second removed the first. -/
theorem deliver_after_failure :
    ∃ b ∈ run (step "slack") (initial registeredRouter)
        [sends (.plain "m1" "slack") false, sends (.plain "m2" "slack") true],
      b.undelivered = [.plain "m1" "slack"] ∧
      (b.shared.buffers.lookup "slack").map RingBuffer.contents =
        some [some (.plain "m2" "slack")] ∧
      b.removed = [(.plain "m2" "slack", some (.plain "m1" "slack"))] := by
  decide +kernel

end Backlog

end K8s4Claw.IpcBus
