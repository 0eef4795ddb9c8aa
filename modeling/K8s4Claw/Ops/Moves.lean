/-
# What one step of a call does

Every step of a call leaves the API server alone, creates, replaces or deletes one escalation,
writes one intent, or is the `Patch` of a consumer (`Move`).  An escalation is replaced by a
`Status().Update` that goes through, and its phase is then the one the call stands for
(`Call.replaces`).  No step starts a call or leads back to the beginning of one (`callStep_moves`).
-/

import K8s4Claw.Ops.System

namespace K8s4Claw.Ops

open Lib (Copy Effect Store)

/-- The copy a call is going to replace, and the phase it is going to give it. -/
def Call.replaces : Call → Option (Copy Escalation × Phase)
  | .markAnalyzing esc => some (esc, .analyzing)
  | .propose esc _ _ => some (esc, .awaitingApproval)
  | .markFailed esc _ => some (esc, .failed)
  | .approve esc _ => some (esc, .approved)
  | .reject esc _ => some (esc, .rejected)
  | .markExecuted _ _ esc _ => some (esc, .executed)
  | .markNew _ _ esc status _ _ => some (esc, status.phase)
  | _ => none

/-- The calls that an event starts. -/
def Call.begins : Call → Bool
  | .markAnalyzing _ | .approve _ _ | .reject _ _ | .listApproved _ _ | .consume _ _ => true
  | _ => false

/-- What a step of a call does to the API server. -/
inductive Move (L : Libs) (s : Shared) (call : Call) (choice : Choice) (s' : Shared) : Prop
  | stay (hs' : s' = s)
  | create (new : Escalation) (hs' : s' = { s with escalations := s.escalations.create new })
  | delete (object : ℕ) (hs' : s' = { s with escalations := s.escalations.delete object })
  | replace (esc esc' : Copy Escalation) (status : EscalationStatus) (store : Store Escalation)
      (hcall : call.replaces = some (esc, status.phase))
      (hupdate : s.escalations.update esc { esc.value with status := status } = some (store, esc'))
      (hs' : s' = { s with escalations := store })
  | writeApproved (claw : String) (mine : Slot) (esc : Copy Escalation)
      (todo : List (Copy Escalation)) (now : Time)
      (hcall : call = .writeApproved claw mine (esc :: todo)) (hchoice : choice = .call true now)
      (hs' : s' = (s.writeIntent claw mine ⟨claw, esc.value.status.proposedAction, true⟩).1)
  | autoExecute (claw : String) (mine : Slot) (sig : Signal) (rule : Rule) (receipt : String)
      (todo : List Job) (now : Time)
      (hcall : call = .remediate claw mine (.autoExecute sig rule receipt :: todo))
      (hchoice : choice = .call true now)
      (hs' : s' = (s.writeIntent claw mine ⟨claw, buildIntentJSON L rule now, false⟩).1)
  | commit (claw : String) (mine changed : Slot) (applied : Bool) (executed : Option OpsIntent)
      (hcall : call = .consume claw mine) (hchoice : choice = .apply applied true)
      (hconsume : mine.consumeAndExecuteOpsIntent L applied = some (changed, executed))
      (hs' : s' = s.commit claw mine changed executed)

/-- A step that moves the API server so, and starts no call. -/
structure Moves (L : Libs) (s : Shared) (call : Call) (choice : Choice) (e : Effect Shared Call) :
    Prop where
  move : Move L s call choice e.shared
  next : e.next.begins = false
  spawn : e.spawn = none

/-- A `Status().Update`: what it writes, and where the call goes on if it goes through and if
not. -/
structure Update where
  esc : Copy Escalation
  status : EscalationStatus
  next : Copy Escalation → Call
  failed : Call

/-- The `Status().Update` a call is at. -/
def Call.update (now : Time) : Call → Option Update
  | .markAnalyzing esc =>
      some ⟨esc, { esc.value.status with phase := .analyzing }, .analyze, .done⟩
  | .propose esc analysis action =>
      some ⟨esc,
        { esc.value.status with
          analysis := analysis, proposedAction := action, phase := .awaitingApproval },
        fun _ => .done, .done⟩
  | .markFailed esc reason =>
      some ⟨esc, { esc.value.status with phase := .failed, analysis := reason }, fun _ => .done,
        .done⟩
  | .approve esc approver =>
      some ⟨esc,
        { esc.value.status with
          phase := .approved, approvedBy := approver, approvedAt := some now },
        fun _ => .done, .done⟩
  | .reject esc reason =>
      some ⟨esc, { esc.value.status with phase := .rejected, rejectionReason := reason },
        fun _ => .done, .done⟩
  | .markExecuted claw mine esc todo =>
      some ⟨esc,
        { esc.value.status with
          phase := .executed
          executedAction := esc.value.status.proposedAction
          executedAt := some now },
        fun _ => .writeApproved claw mine todo, .listExpired claw mine⟩
  | .markNew claw mine esc status onError todo =>
      some ⟨esc, status, fun _ => .remediate claw mine todo,
        .remediate claw mine (onError ++ todo)⟩
  | _ => none

/-- Where a `Reconcile` or a consumer goes on when an API call fails or nothing is left to do. -/
inductive Leaves : Call → Call → Prop
  | approved {claw mine mine'} : Leaves (.listApproved claw mine) (.listExpired claw mine')
  | written {claw mine mine' todo} :
      Leaves (.writeApproved claw mine todo) (.listExpired claw mine')
  | listed {claw mine} : Leaves (.listExpired claw mine) (.collectSignals claw mine)
  | expired {claw mine todo} : Leaves (.deleteExpired claw mine todo) (.collectSignals claw mine)
  | signals {claw mine} : Leaves (.collectSignals claw mine) .done
  | remedied {claw mine} : Leaves (.remediate claw mine []) .done
  | remediate {claw mine mine' todo todo'} :
      Leaves (.remediate claw mine todo) (.remediate claw mine' todo')
  | audit {claw mine sig rule intentJSON receipt todo} :
      Leaves (.audit claw mine sig rule intentJSON receipt todo)
        (.remediate claw mine (.escalate sig :: todo))
  | consume {claw mine} : Leaves (.consume claw mine) .done

/-- The steps of a call: from where it is, by which choice, to which state and where. -/
inductive Acts (L : Libs) (ttl : Int32) (s : Shared) : Call → Choice → Effect Shared Call → Prop
  | replaced {call now u s' esc'} (hcall : call.update now = some u)
      (hupdate : s.updateStatus true u.esc u.status = some (s', esc')) :
      Acts L ttl s call (.call true now) ⟨s', u.next esc', none⟩
  | unreplaced {call now u ok} (hcall : call.update now = some u)
      (hupdate : s.updateStatus ok u.esc u.status = none) :
      Acts L ttl s call (.call ok now) ⟨s, u.failed, none⟩
  | analyzed {esc analysis action} : Acts L ttl s (.analyze esc) (.analyzed analysis action)
      ⟨s, .propose esc analysis action, none⟩
  | pipelineError {esc reason} : Acts L ttl s (.analyze esc) (.pipelineError reason)
      ⟨s, .markFailed esc ("pipeline error: " ++ reason), none⟩
  | listApproved {claw mine reads} : Acts L ttl s (.listApproved claw mine) (.listed reads)
      ⟨s, .writeApproved claw mine ((s.list reads).filter (isApprovedFor claw)), none⟩
  | writeApproved {claw mine esc todo now w}
      (hw : w = ⟨claw, esc.value.status.proposedAction, true⟩) :
      Acts L ttl s (.writeApproved claw mine (esc :: todo)) (.call true now)
        ⟨(s.writeIntent claw mine w).1,
          .markExecuted claw (s.writeIntent claw mine w).2 esc todo, none⟩
  | listExpired {claw mine reads} : Acts L ttl s (.listExpired claw mine) (.listed reads)
      ⟨s, .deleteExpired claw mine ((s.list reads).filter (isTerminalFor claw)), none⟩
  | unexpired {claw mine esc todo ok now} : Acts L ttl s (.deleteExpired claw mine (esc :: todo))
      (.call ok now) ⟨s, .deleteExpired claw mine todo, none⟩
  | delete {claw mine esc todo now} (hexpired : expired ttl esc.value now = true) :
      Acts L ttl s (.deleteExpired claw mine (esc :: todo)) (.call true now)
        ⟨{ s with escalations := s.escalations.delete esc.object }, .deleteExpired claw mine todo,
          none⟩
  | jobs {claw mine jobs} : Acts L ttl s (.collectSignals claw mine) (.jobs jobs)
      ⟨s, .remediate claw mine jobs, none⟩
  | escalate {claw mine sig todo now new} (hnew : new = newEscalation ttl claw sig now) :
      Acts L ttl s (.remediate claw mine (.escalate sig :: todo)) (.call true now)
        ⟨{ s with escalations := s.escalations.create new },
          .markNew claw mine (s.escalations.created new) { phase := .pending } [] todo, none⟩
  | autoExecute {claw mine sig rule receipt todo now w}
      (hw : w = ⟨claw, buildIntentJSON L rule now, false⟩) :
      Acts L ttl s (.remediate claw mine (.autoExecute sig rule receipt :: todo)) (.call true now)
        ⟨(s.writeIntent claw mine w).1,
          .audit claw (s.writeIntent claw mine w).2 sig rule w.action receipt todo, none⟩
  | audit {claw mine sig rule intentJSON receipt todo now new}
      (hnew : new = newEscalation ttl claw sig now) :
      Acts L ttl s (.audit claw mine sig rule intentJSON receipt todo) (.call true now)
        ⟨{ s with escalations := s.escalations.create new },
          .markNew claw mine (s.escalations.created new)
            { phase := .autoExecuted, matchedRule := rule.id, executedAction := intentJSON,
              executedAt := some now, signetReceipt := receipt } [.escalate sig] todo, none⟩
  | commit {claw mine applied changed executed}
      (hconsume : mine.consumeAndExecuteOpsIntent L applied = some (changed, executed)) :
      Acts L ttl s (.consume claw mine) (.apply applied true)
        ⟨s.commit claw mine changed executed, .done, none⟩
  | leave {call choice next} (hleaves : Leaves call next) : Acts L ttl s call choice ⟨s, next, none⟩

variable {L : Libs} {ttl : Int32} {s s' : Shared} {call next : Call} {choice : Choice}
  {e : Effect Shared Call}

theorem acts_goOn (h : goOn s' next = some e) (hacts : Acts L ttl s call choice ⟨s', next, none⟩) :
    Acts L ttl s call choice e := by
  cases h
  exact hacts

theorem acts_andThen {now : Time} {u : Update} {ok : Bool} (hcall : call.update now = some u)
    (h : andThen s (s.updateStatus ok u.esc u.status) u.next u.failed = some e) :
    Acts L ttl s call (.call ok now) e := by
  unfold andThen at h
  split at h
  · next hupdate =>
    cases ok with
    | true => exact acts_goOn h (.replaced hcall hupdate)
    | false => cases hupdate
  · next hupdate => exact acts_goOn h (.unreplaced hcall hupdate)

theorem reviewStep_acts (h : reviewStep s call choice = some e) : Acts L ttl s call choice e := by
  unfold reviewStep at h
  split at h
  · exact acts_andThen rfl h
  · exact acts_goOn h .analyzed
  · exact acts_goOn h .pipelineError
  · exact acts_andThen rfl h
  · exact acts_andThen rfl h
  · exact acts_andThen rfl h
  · exact acts_andThen rfl h
  · cases h

theorem settleStep_acts (h : settleStep ttl s call choice = some e) :
    Acts L ttl s call choice e := by
  unfold settleStep at h
  split at h
  · exact acts_goOn h .listApproved
  · exact acts_goOn h (.leave .approved)
  · exact acts_goOn h (.leave .written)
  · dsimp only at h
    split_ifs at h with hok
    · subst hok
      exact acts_goOn h (.writeApproved rfl)
    · exact acts_goOn h (.leave .written)
  · exact acts_andThen rfl h
  · exact acts_goOn h .listExpired
  · exact acts_goOn h (.leave .listed)
  · exact acts_goOn h (.leave .expired)
  · split_ifs at h with hexpired hok
    · subst hok
      exact acts_goOn h (.delete hexpired)
    · exact acts_goOn h (.leave .expired)
    · exact acts_goOn h .unexpired
  · cases h

theorem remediateStep_acts (h : remediateStep L ttl s call choice = some e) :
    Acts L ttl s call choice e := by
  unfold remediateStep at h
  split at h
  · exact acts_goOn h .jobs
  · exact acts_goOn h (.leave .signals)
  · exact acts_goOn h (.leave .remedied)
  · dsimp only at h
    split_ifs at h with hok
    · subst hok
      exact acts_goOn h (.escalate rfl)
    · exact acts_goOn h (.leave .remediate)
  · dsimp only at h
    split_ifs at h with hok
    · subst hok
      exact acts_goOn h (.autoExecute rfl)
    · exact acts_goOn h (.leave .remediate)
  · dsimp only at h
    split_ifs at h with hok
    · subst hok
      exact acts_goOn h (.audit rfl)
    · exact acts_goOn h (.leave .audit)
  · exact acts_andThen rfl h
  · cases h

theorem consumeStep_acts (h : consumeStep L s call choice = some e) :
    Acts L ttl s call choice e := by
  unfold consumeStep at h
  split at h
  · split at h
    · exact acts_goOn h (.leave .consume)
    · next hconsume =>
      split_ifs at h with hok
      · subst hok
        exact acts_goOn h (.commit hconsume)
      · exact acts_goOn h (.leave .consume)
  · cases h

/-- **Every step of a call is one of these.** -/
theorem callStep_acts (h : callStep L ttl s call choice = some e) :
    Acts L ttl s call choice e := by
  cases call with
  | done => cases h
  | markAnalyzing | analyze | propose | markFailed | approve | reject => exact reviewStep_acts h
  | listApproved | writeApproved | markExecuted | listExpired | deleteExpired =>
    exact settleStep_acts h
  | collectSignals | remediate | audit | markNew => exact remediateStep_acts h
  | consume => exact consumeStep_acts h

theorem replaces_of_update {now : Time} {u : Update} (h : call.update now = some u) :
    call.replaces = some (u.esc, u.status.phase) ∧ (∀ esc, (u.next esc).begins = false) ∧
      u.failed.begins = false := by
  cases call with
  | markAnalyzing | propose | markFailed | approve | reject | markExecuted | markNew =>
    cases h
    exact ⟨rfl, fun _ => rfl, rfl⟩
  | _ => cases h

theorem updateStatus_eq_some {ok : Bool} {esc esc' : Copy Escalation} {status : EscalationStatus}
    (h : s.updateStatus ok esc status = some (s', esc')) :
    ∃ store, s.escalations.update esc { esc.value with status := status } = some (store, esc') ∧
      s' = { s with escalations := store } := by
  unfold Shared.updateStatus at h
  split_ifs at h
  obtain ⟨⟨store, copy⟩, hupdate, heq⟩ := Option.map_eq_some_iff.mp h
  obtain ⟨rfl, rfl⟩ := Prod.mk.inj heq
  exact ⟨store, hupdate, rfl⟩

/-- **What a step of any call does.** -/
theorem callStep_moves (h : callStep L ttl s call choice = some e) : Moves L s call choice e := by
  cases callStep_acts h with
  | replaced hcall hupdate =>
    obtain ⟨hreplaces, hnext, -⟩ := replaces_of_update hcall
    obtain ⟨store, hstore, rfl⟩ := updateStatus_eq_some hupdate
    exact ⟨.replace _ _ _ store hreplaces hstore rfl, hnext _, rfl⟩
  | unreplaced hcall => exact ⟨.stay rfl, (replaces_of_update hcall).2.2, rfl⟩
  | writeApproved hw => exact ⟨.writeApproved _ _ _ _ _ rfl rfl (by rw [hw]), rfl, rfl⟩
  | autoExecute hw => exact ⟨.autoExecute _ _ _ _ _ _ _ rfl rfl (by rw [hw]), rfl, rfl⟩
  | delete => exact ⟨.delete _ rfl, rfl, rfl⟩
  | escalate | audit => exact ⟨.create _ rfl, rfl, rfl⟩
  | commit hconsume => exact ⟨.commit _ _ _ _ _ rfl rfl hconsume rfl, rfl, rfl⟩
  | leave hleaves => exact ⟨.stay rfl, by cases hleaves <;> rfl, rfl⟩
  | analyzed | pipelineError | listApproved | listExpired | unexpired | jobs =>
    exact ⟨.stay rfl, rfl, rfl⟩

end K8s4Claw.Ops
