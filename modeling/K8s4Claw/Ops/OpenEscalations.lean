/-
# Open escalations of one trigger type

A `Reconcile` of `internal/controller/clawops_controller.go` in which every API call goes through
and every `List` returns what is stored: `processApprovedEscalations`, `gcExpiredEscalations`, and
then the jobs of `K8s4Claw.Ops.Signals`.  `reconcile` computes what it leaves behind, and
`run_reconcile` says that the calls of `K8s4Claw.Ops.System` do the same step by step.

`deduplicateSignals` runs once, before the loop that escalates, so two signals of one type pass it
together: two containers of one pod that were both killed for memory are enough (`killedTogether`).
-/

import K8s4Claw.Ops.Signals

namespace K8s4Claw.Ops

open List Option
open Lib (Along Copy Effect Meets Pool Store run)

/-! ### A Reconcile -/

/-- A `Reconcile`: what it sees, the times when its API calls are made, and the order in which the
API server lists escalations. -/
structure Pass extends Sight where
  executedAt : ℕ → Time
  expiredAt : ℕ → Time
  intentAt : Time
  auditedAt : Time
  recordedAt : Time
  escalatedAt : ℕ → Time
  listed : List (Copy Escalation) → List (Copy Escalation)
  listed_perm : ∀ escs, (listed escs).Perm escs

/-- The controller, with the API server. -/
structure Controller where
  shared : Shared := {}
  memory : Memory := {}

/-- The loop of `processApprovedEscalations`. -/
def processApproved (pass : Pass) : Shared → Slot → List (Copy Escalation) → Shared × Slot
  | s, mine, [] => (s, mine)
  | s, mine, esc :: todo =>
      let (s, mine) :=
        s.writeIntent pass.claw mine ⟨pass.claw, esc.value.status.proposedAction, true⟩
      match s.updateStatus true esc
        { esc.value.status with
          phase := .executed
          executedAction := esc.value.status.proposedAction
          executedAt := some (pass.executedAt esc.object) } with
      | some (s, _) => processApproved pass s mine todo
      | none => (s, mine)

/-- The loop of `gcExpiredEscalations`. -/
def gcExpired (ttl : Int32) (pass : Pass) : Shared → List (Copy Escalation) → Shared
  | s, [] => s
  | s, esc :: todo =>
      if expired ttl esc.value (pass.expiredAt esc.object) then
        gcExpired ttl pass { s with escalations := s.escalations.delete esc.object } todo
      else gcExpired ttl pass s todo

/-- `Create`, and the `Status().Update` of what was created. -/
def Shared.createWith (s : Shared) (esc : Escalation) (status : EscalationStatus) : Shared :=
  let s' := { s with escalations := s.escalations.create esc }
  match s'.updateStatus true (s.escalations.created esc) status with
  | some (s'', _) => s''
  | none => s'

/-- `escalate` and `autoExecute` for the jobs from the `i`-th on. -/
def perform (L : Libs) (ttl : Int32) (pass : Pass) : ℕ → Shared → Slot → List Job → Shared
  | _, s, _, [] => s
  | i, s, mine, .escalate sig :: todo =>
      perform L ttl pass (i + 1)
        (s.createWith (newEscalation ttl pass.claw sig (pass.escalatedAt i)) { phase := .pending })
        mine todo
  | i, s, mine, .autoExecute sig rule receipt :: todo =>
      let intentJSON := buildIntentJSON L rule pass.intentAt
      let (s, mine) := s.writeIntent pass.claw mine ⟨pass.claw, intentJSON, false⟩
      perform L ttl pass (i + 1)
        (s.createWith (newEscalation ttl pass.claw sig pass.auditedAt)
          { phase := .autoExecuted, matchedRule := rule.id, executedAction := intentJSON,
            executedAt := some pass.auditedAt, signetReceipt := receipt })
        mine todo

/-- What the controller remembers of the jobs it did. -/
def Memory.afterJobs (pass : Pass) (memory : Memory) : List Job → Memory
  | [] => memory
  | .escalate _ :: todo => memory.afterJobs pass todo
  | .autoExecute _ rule _ :: todo =>
      ((memory.recordAction pass.claw pass.recordedAt).recordExecution pass.claw rule.id
        pass.recordedAt).afterJobs pass todo

section

variable (L : Libs) (ttl : Int32) (maxActions : ℤ) (pass : Pass) (C : Controller)

/-- After `processApprovedEscalations`. -/
def Pass.settled : Shared × Slot :=
  processApproved pass C.shared (C.shared.slots pass.claw)
    ((pass.listed C.shared.escalations.live).filter (isApprovedFor pass.claw))

/-- After `gcExpiredEscalations`. -/
def Pass.swept : Shared :=
  let s := (pass.settled C).1
  gcExpired ttl pass s ((pass.listed s.escalations.live).filter (isTerminalFor pass.claw))

/-- The jobs, and what is then in memory. -/
def Pass.planned : List Job × Memory :=
  plan maxActions C.memory (pass.listed (pass.swept ttl C).escalations.live) pass.toSight

def reconcile : Controller where
  shared := perform L ttl pass 0 (pass.swept ttl C) (pass.settled C).2
    (pass.planned ttl maxActions C).1
  memory := (pass.planned ttl maxActions C).2.afterJobs pass (pass.planned ttl maxActions C).1

end

/-! ### The same, call by call -/

/-- A step of a call that nobody interrupts. -/
def soloStep (L : Libs) (ttl : Int32) (at_ : Shared × Call) (choice : Choice) :
    Option (Shared × Call) :=
  (callStep L ttl at_.1 at_.2 choice).map fun e => (e.shared, e.next)

/-- What the API server answers to `processApprovedEscalations`, to `gcExpiredEscalations`, and for
the jobs from the `i`-th on. -/
def Pass.approvedAnswers (pass : Pass) (todo : List (Copy Escalation)) : List Choice :=
  todo.flatMap fun esc =>
    [.call true (pass.executedAt esc.object), .call true (pass.executedAt esc.object)]

def Pass.expiredAnswers (pass : Pass) (todo : List (Copy Escalation)) : List Choice :=
  todo.map fun esc => .call true (pass.expiredAt esc.object)

def Pass.jobAnswers (pass : Pass) : ℕ → List Job → List Choice
  | _, [] => []
  | i, .escalate _ :: todo =>
      .call true (pass.escalatedAt i) :: .call true (pass.escalatedAt i) ::
        pass.jobAnswers (i + 1) todo
  | i, .autoExecute _ _ _ :: todo =>
      .call true pass.intentAt :: .call true pass.auditedAt :: .call true pass.auditedAt ::
        pass.jobAnswers (i + 1) todo

/-- A `List` that returns these copies. -/
def reads (escs : List (Copy Escalation)) : Choice :=
  .listed (escs.map fun esc => (esc.object, esc.version))

/-- All that the API server and the pods answer in a pass. -/
def Pass.answers (ttl : Int32) (maxActions : ℤ) (pass : Pass) (C : Controller) : List Choice :=
  let approved := pass.listed C.shared.escalations.live
  let terminal := pass.listed (pass.settled C).1.escalations.live
  let jobs := (pass.planned ttl maxActions C).1
  reads approved :: (pass.approvedAnswers (approved.filter (isApprovedFor pass.claw)) ++
    .go :: reads terminal :: (pass.expiredAnswers (terminal.filter (isTerminalFor pass.claw)) ++
      .go :: .jobs jobs :: (pass.jobAnswers 0 jobs ++ [.go])))

section

variable {L : Libs} {ttl : Int32} {maxActions : ℤ} {pass : Pass} {C : Controller} {s : Shared}
  {mine : Slot} {P : Sys}

theorem run_solo {t : ℕ} {choices : List Choice} {s' : Shared} {call : Call} (ht : t < P.size)
    (h : run (soloStep L ttl) (P.shared, P.thread t) choices = some (s', call)) :
    ∃ Q, run (step L ttl) P (choices.map (.step t)) = some Q ∧ Q.shared = s' ∧
      Q.thread t = call := by
  induction choices generalizing P with
  | nil =>
    obtain ⟨rfl, rfl⟩ := Prod.mk.inj (some.inj h)
    exact ⟨P, rfl, rfl, rfl⟩
  | cons choice _ ih =>
    obtain ⟨u, hu, hrest⟩ := Lib.run_cons.mp h
    obtain ⟨e, he, rfl⟩ := map_eq_some_iff.mp hu
    have hstep : step L ttl P (.step t choice) = some (P.advance t e) := by
      simp only [step, if_pos ht]
      rw [he]
      rfl
    have hthread : (P.advance t e).thread t = e.next := Pool.advance_thread_self ht e
    obtain ⟨Q, hQ, hshared, hcall⟩ := ih
      (ht.trans_le (Pool.size_le_advance P t e))
      (by rw [Pool.advance_shared, hthread]; exact hrest)
    exact ⟨Q, Lib.run_cons.mpr ⟨_, hstep, hQ⟩, hshared, hcall⟩

variable {esc : Copy Escalation}

theorem holds_of_mem_listed {keep : Copy Escalation → Bool}
    (h : esc ∈ (pass.listed s.escalations.live).filter keep) :
    s.escalations.Holds esc ∧ s.escalations.Current esc ∧ keep esc = true := by
  obtain ⟨hlisted, hkeep⟩ := mem_filter.mp h
  obtain ⟨hholds, hcurrent⟩ := Store.mem_live_iff.mp ((pass.listed_perm _).mem_iff.mp hlisted)
  exact ⟨hholds, hcurrent, hkeep⟩

theorem list_listed (pass : Pass) (s : Shared) :
    s.list ((pass.listed s.escalations.live).map fun esc => (esc.object, esc.version)) =
      pass.listed s.escalations.live := by
  unfold Shared.list
  rw [filterMap_map]
  refine (filterMap_congr fun esc hesc => ?_).trans filterMap_some
  obtain ⟨hholds, -⟩ := Store.mem_live_iff.mp ((pass.listed_perm _).mem_iff.mp hesc)
  change s.escalations.copy esc.object esc.version = some esc
  rw [Store.copy, show s.escalations.read esc.object esc.version = some esc.value from hholds]
  rfl

theorem updateStatus_of_current (h : s.escalations.Current esc) (status : EscalationStatus) :
    ∃ s' esc', s.updateStatus true esc status = some (s', esc') := by
  obtain ⟨store, esc', hupdate⟩ := Store.update_of_current h { esc.value with status := status }
  simp [Shared.updateStatus, hupdate]

theorem updateStatus_true {esc' : Copy Escalation} {status : EscalationStatus} {s' : Shared}
    (h : s.updateStatus true esc status = some (s', esc')) :
    s.escalations.update esc { esc.value with status := status } = some (s'.escalations, esc') := by
  obtain ⟨⟨store, copy⟩, hupdate, heq⟩ := map_eq_some_iff.mp h
  obtain ⟨rfl, rfl⟩ := Prod.mk.inj heq
  exact hupdate

/-- The answers take `processApprovedEscalations` through its list: what it lists is current, and
stays so while the escalations before it are marked. -/
theorem solo_approved {todo : List (Copy Escalation)}
    (hcurrent : ∀ esc ∈ todo, s.escalations.Current esc) (hdistinct : (todo.map Copy.object).Nodup)
    (rest : List Choice) :
    run (soloStep L ttl) (s, .writeApproved pass.claw mine todo)
        (pass.approvedAnswers todo ++ rest) =
      run (soloStep L ttl) ((processApproved pass s mine todo).1,
        .writeApproved pass.claw (processApproved pass s mine todo).2 []) rest := by
  induction todo generalizing s mine with
  | nil => rfl
  | cons esc todo ih =>
    obtain ⟨hesc, htodo⟩ := forall_mem_cons.mp hcurrent
    obtain ⟨hnew, hdistinct⟩ := nodup_cons.mp hdistinct
    obtain ⟨s', esc', hupdate⟩ := updateStatus_of_current (s := (s.writeIntent pass.claw mine
      ⟨pass.claw, esc.value.status.proposedAction, true⟩).1) hesc
      { esc.value.status with
        phase := .executed
        executedAction := esc.value.status.proposedAction
        executedAt := some (pass.executedAt esc.object) }
    have hstored := updateStatus_true hupdate
    have hmarked : processApproved pass s mine (esc :: todo) = processApproved pass s'
        (s.writeIntent pass.claw mine
          ⟨pass.claw, esc.value.status.proposedAction, true⟩).2 todo := by
      simp only [processApproved, hupdate]
    rw [hmarked, ← ih (fun e he => Store.current_update (htodo e he) ?_ hstored) hdistinct]
    · simp only [Pass.approvedAnswers, flatMap_cons, cons_append, nil_append, run,
        soloStep, callStep, settleStep, if_true, goOn, map_some, bind_some, andThen,
        hupdate]
    · intro heq
      exact hnew (heq ▸ mem_map_of_mem he)

theorem solo_expired (todo : List (Copy Escalation)) (s : Shared) (rest : List Choice) :
    run (soloStep L ttl) (s, .deleteExpired pass.claw mine todo)
        (pass.expiredAnswers todo ++ rest) =
      run (soloStep L ttl) (gcExpired ttl pass s todo, .deleteExpired pass.claw mine []) rest := by
  induction todo generalizing s with
  | nil => rfl
  | cons _ _ ih =>
    simp only [gcExpired]
    split_ifs with hexpired
    · rw [← ih]
      simp only [Pass.expiredAnswers, map_cons, cons_append, run, soloStep, callStep,
        settleStep, hexpired, if_true, goOn, map_some, bind_some]
    · rw [← ih]
      simp only [Pass.expiredAnswers, map_cons, cons_append, run, soloStep, callStep,
        settleStep, hexpired, goOn, map_some, bind_some, Bool.false_eq_true,
        if_false]

theorem solo_createWith {claw : String} {new : Escalation} {status : EscalationStatus}
    {onError todo : List Job} (now : Time) (rest : List Choice) :
    run (soloStep L ttl) ({ s with escalations := s.escalations.create new },
        .markNew claw mine (s.escalations.created new) status onError todo)
        (.call true now :: rest) =
      run (soloStep L ttl) (s.createWith new status, .remediate claw mine todo) rest := by
  obtain ⟨s', esc', hupdate⟩ := updateStatus_of_current
    (s := { s with escalations := s.escalations.create new })
    (Store.current_created s.escalations new) status
  simp only [run, soloStep, callStep, remediateStep, andThen, hupdate, goOn, map_some,
    bind_some, Shared.createWith]

theorem solo_jobs (todo : List Job) (i : ℕ) (s : Shared) (mine : Slot) :
    run (soloStep L ttl) (s, .remediate pass.claw mine todo) (pass.jobAnswers i todo ++ [.go]) =
      some (perform L ttl pass i s mine todo, .done) := by
  induction todo generalizing i s mine with
  | nil => rfl
  | cons job _ ih =>
    cases job with
    | escalate =>
      rw [perform, ← ih, ← solo_createWith (pass.escalatedAt i)]
      rfl
    | autoExecute =>
      rw [perform, ← ih, ← solo_createWith pass.auditedAt]
      rfl

section

variable (s : Shared) (mine : Slot) (rest : List Choice)

theorem solo_listApproved :
    run (soloStep L ttl) (s, .listApproved pass.claw mine)
        (reads (pass.listed s.escalations.live) :: rest) =
      run (soloStep L ttl) (s, .writeApproved pass.claw mine
        ((pass.listed s.escalations.live).filter (isApprovedFor pass.claw))) rest := by
  simp only [run, soloStep, callStep, settleStep, reads, list_listed, goOn, map_some, bind_some]

theorem solo_listExpired :
    run (soloStep L ttl) (s, .listExpired pass.claw mine)
        (reads (pass.listed s.escalations.live) :: rest) =
      run (soloStep L ttl) (s, .deleteExpired pass.claw mine
        ((pass.listed s.escalations.live).filter (isTerminalFor pass.claw))) rest := by
  simp only [run, soloStep, callStep, settleStep, reads, list_listed, goOn, map_some, bind_some]

end

theorem solo_reconcile (L : Libs) (ttl : Int32) (maxActions : ℤ) (pass : Pass) (C : Controller) :
    run (soloStep L ttl) (C.shared, .listApproved pass.claw (C.shared.slots pass.claw))
        (pass.answers ttl maxActions C) =
      some ((reconcile L ttl maxActions pass C).shared, .done) := by
  have hdistinct : (((pass.listed C.shared.escalations.live).filter
      (isApprovedFor pass.claw)).map Copy.object).Nodup := by
    have hlisted : ((pass.listed C.shared.escalations.live).map Copy.object).Nodup :=
      ((pass.listed_perm _).map _).nodup_iff.mpr (Store.nodup_objects_live _)
    exact hlisted.sublist (filter_sublist.map _)
  unfold Pass.answers
  rw [solo_listApproved, solo_approved (fun esc hesc => (holds_of_mem_listed hesc).2.1) hdistinct]
  -- the loop is over, and the second list is read
  change run (soloStep L ttl) ((pass.settled C).1, .listExpired pass.claw (pass.settled C).2) _ = _
  rw [solo_listExpired, solo_expired]
  change run (soloStep L ttl) (pass.swept ttl C, .remediate pass.claw (pass.settled C).2
    (pass.planned ttl maxActions C).1) _ = _
  rw [solo_jobs]
  rfl

/-- **The calls of the system do in a pass what `reconcile` computes**, whatever calls are there
already and whatever the controller remembers. -/
theorem run_reconcile (L : Libs) (ttl : Int32) (maxActions : ℤ) (pass : Pass) (P : Sys)
    (memory : Memory) :
    let C : Controller := ⟨P.shared, memory⟩
    ∃ Q, run (step L ttl) P (.reconcile pass.claw ::
        (pass.answers ttl maxActions C).map (.step P.size)) = some Q ∧
      Q.shared = (reconcile L ttl maxActions pass C).shared ∧ Q.thread P.size = .done := by
  intro C
  let P' := P.go (.listApproved pass.claw (P.shared.slots pass.claw))
  have hstart : step L ttl P (.reconcile pass.claw) = some P' := rfl
  have hsolo : run (soloStep L ttl) (P'.shared, P'.thread P.size) (pass.answers ttl maxActions C) =
      some ((reconcile L ttl maxActions pass C).shared, .done) := by
    rw [Pool.go_thread_size]
    exact solo_reconcile L ttl maxActions pass C
  obtain ⟨Q, hQ, hshared, hdone⟩ := run_solo (Nat.lt_succ_self P.size) hsolo
  exact ⟨Q, Lib.run_cons.mpr ⟨P', hstart, hQ⟩, hshared, hdone⟩

end

/-! ### The types of the open escalations -/

/-- The trigger types of the escalations of a Claw that are not terminal. -/
def Shared.openTypes (s : Shared) (claw : String) : List TriggerType :=
  s.escalations.live.filterMap (activeType claw)

section

variable {L : Libs} {ttl : Int32} {pass : Pass} {claw : String} {s s' : Shared}
  {esc esc' : Copy Escalation} {status : EscalationStatus}

theorem openTypes_updateStatus (hholds : s.escalations.Holds esc)
    (hopen : esc.value.status.phase.isTerminal = false)
    (h : s.updateStatus true esc status = some (s', esc')) :
    (s'.openTypes claw).Sublist (s.openTypes claw) := by
  have hupdate := updateStatus_true h
  obtain ⟨-, rfl, -⟩ := Store.update_eq_some hupdate
  refine Store.filterMap_live_update hholds hupdate ?_
  unfold activeType
  by_cases hclaw : esc.value.clawRef = claw
  · by_cases hterminal : status.phase.isTerminal = false
    · right
      simp [hopen, hterminal]
    · left
      simp [hterminal]
  · left
    simp [hclaw]

theorem openTypes_processApproved {todo : List (Copy Escalation)} {mine : Slot}
    (htodo : ∀ esc ∈ todo, s.escalations.Holds esc ∧ esc.value.status.phase.isTerminal = false) :
    ((processApproved pass s mine todo).1.openTypes claw).Sublist (s.openTypes claw) := by
  induction todo generalizing s mine with
  | nil => exact List.Sublist.refl _
  | cons esc _ ih =>
    obtain ⟨⟨hholds, hopen⟩, htodo⟩ := forall_mem_cons.mp htodo
    simp only [processApproved]
    split
    · next s' _ hupdate =>
      -- the annotations are no part of what is listed
      have hstep : (s'.openTypes claw).Sublist (s.openTypes claw) :=
        openTypes_updateStatus (s := (s.writeIntent pass.claw mine
          ⟨pass.claw, esc.value.status.proposedAction, true⟩).1) hholds hopen hupdate
      have hstored := updateStatus_true hupdate
      refine (ih fun esc' hesc' => ⟨?_, (htodo esc' hesc').2⟩).trans hstep
      exact Store.holds_update (htodo esc' hesc').1 hstored
    · exact List.Sublist.refl _

theorem openTypes_gcExpired (todo : List (Copy Escalation)) (s : Shared) :
    ((gcExpired ttl pass s todo).openTypes claw).Sublist (s.openTypes claw) := by
  induction todo generalizing s with
  | nil => exact List.Sublist.refl _
  | cons _ _ ih =>
    simp only [gcExpired]
    split_ifs
    · exact (ih _).trans (Store.filterMap_live_delete ..)
    · exact ih s

theorem openTypes_createWith (s : Shared) (new : Escalation) (status : EscalationStatus) :
    (s.createWith new status).openTypes claw = s.openTypes claw ++
      (if new.clawRef = claw ∧ status.phase.isTerminal = false then [new.trigger.type]
        else []) := by
  obtain ⟨store, esc, hupdate⟩ := Store.update_of_current (Store.current_created s.escalations new)
    { new with status := status }
  have hresult : Shared.updateStatus { s with escalations := s.escalations.create new } true
      (s.escalations.created new) status = some ({ s with escalations := store }, esc) := by
    simp [Shared.updateStatus, Store.created] at hupdate ⊢
    simp [hupdate]
  obtain ⟨-, hesc, -⟩ := Store.update_eq_some hupdate
  have hcreated : s.createWith new status = { s with escalations := store } := by
    simp only [Shared.createWith, hresult]
  rw [hcreated]
  simp only [Shared.openTypes]
  rw [Store.live_create_update hupdate]
  unfold activeType
  split_ifs with h <;> simp [hesc, h]

/-- **Every job opens its escalation, or none.** -/
theorem openTypes_perform (todo : List Job) (i : ℕ) (s : Shared) (mine : Slot) :
    (perform L ttl pass i s mine todo).openTypes claw =
      s.openTypes claw ++ if pass.claw = claw then todo.filterMap Job.opens else [] := by
  induction todo generalizing i s mine with
  | nil => simp [perform]
  | cons job _ ih =>
    cases job with
    | escalate =>
      rw [perform, ih, openTypes_createWith, append_assoc]
      by_cases hclaw : pass.claw = claw <;>
        simp [hclaw, newEscalation, Phase.isTerminal, Job.opens]
    | autoExecute sig rule receipt =>
      have hopens : Job.opens (.autoExecute sig rule receipt) = none := rfl
      rw [perform, ih, openTypes_createWith, append_assoc, filterMap_cons_none hopens]
      congr 1
      simp [Phase.isTerminal]

end

section

variable {L : Libs} {ttl : Int32} {maxActions : ℤ} {pass : Pass} {C C' : Controller}

/-- Before the jobs a pass only closes. -/
theorem openTypes_swept (claw : String) :
    ((pass.swept ttl C).openTypes claw).Sublist (C.shared.openTypes claw) := by
  refine (openTypes_gcExpired ..).trans (openTypes_processApproved fun esc hesc => ?_)
  obtain ⟨hholds, -, hkeep⟩ := holds_of_mem_listed hesc
  unfold isApprovedFor at hkeep
  simp only [Bool.and_eq_true, decide_eq_true_eq] at hkeep
  exact ⟨hholds, by rw [hkeep.1.2]; rfl⟩

/-- The open escalations of every Claw have different trigger types. -/
def DistinctTypes (C : Controller) : Prop := ∀ claw, (C.shared.openTypes claw).Nodup

/-- The signals that a `Reconcile` is going to escalate have different types. -/
def Pass.Distinct (ttl : Int32) (maxActions : ℤ) (pass : Pass) (C : Controller) : Prop :=
  ((pass.planned ttl maxActions C).1.filterMap Job.opens).Nodup

/-- **One `Reconcile` keeps the types apart exactly if what it escalates is of different types.** -/
theorem distinctTypes_reconcile_iff (hC : DistinctTypes C) :
    DistinctTypes (reconcile L ttl maxActions pass C) ↔ pass.Distinct ttl maxActions C := by
  constructor
  · intro h
    have hclaw := h pass.claw
    simp only [reconcile, openTypes_perform] at hclaw
    exact (nodup_append.mp hclaw).2.1
  · intro h claw
    have hswept : ((pass.swept ttl C).openTypes claw).Nodup :=
      (hC claw).sublist (openTypes_swept claw)
    simp only [reconcile, openTypes_perform]
    split_ifs with hclaw
    · subst hclaw
      refine nodup_append.mpr ⟨hswept, h, fun type hopen type' hplanned heq => ?_⟩
      subst heq
      refine not_mem_activeTypes hplanned ?_
      exact ((pass.listed_perm _).filterMap _).mem_iff.mpr hopen
    · rw [append_nil]
      exact hswept

end

/-! ### Runs -/

/-- What happens to the controller: a `Reconcile`, or one of the other programs writes the status of
an escalation that is not terminal or an annotation of a Claw, or the controller is restarted. -/
inductive Round
  | reconcile (pass : Pass)
  | review (object : ℕ) (status : EscalationStatus)
  | annotate (claw : String) (slot : Slot)
  | restart

def roundStep (L : Libs) (ttl : Int32) (maxActions : ℤ) (C : Controller) : Round → Option Controller
  | .reconcile pass => some (reconcile L ttl maxActions pass C)
  | .review object status =>
      (C.shared.escalations.stored object).bind fun esc =>
        if esc.value.status.phase.isTerminal then none
        else (C.shared.updateStatus true esc status).map fun (s, _) => { C with shared := s }
  | .annotate claw slot =>
      some { C with shared := { C.shared with slots := Function.update C.shared.slots claw slot } }
  | .restart => some { C with memory := {} }

/-- A `Reconcile` does not escalate two signals of one type. -/
def RoundDistinct (ttl : Int32) (maxActions : ℤ) (C : Controller) : Round → Prop
  | .reconcile pass => pass.Distinct ttl maxActions C
  | .review _ _ | .annotate _ _ | .restart => True

instance (ttl : Int32) (maxActions : ℤ) (C : Controller) (round : Round) :
    Decidable (RoundDistinct ttl maxActions C round) := by
  unfold RoundDistinct Pass.Distinct
  cases round <;> infer_instance

theorem distinctTypes_step_iff {L : Libs} {ttl : Int32} {maxActions : ℤ} {C C' : Controller}
    {round : Round} (hC : DistinctTypes C) (h : roundStep L ttl maxActions C round = some C') :
    DistinctTypes C' ↔ RoundDistinct ttl maxActions C round := by
  cases round with
  | reconcile =>
    cases h
    exact distinctTypes_reconcile_iff hC
  | review =>
    obtain ⟨esc, hstored, hif⟩ := bind_eq_some_iff.mp h
    split_ifs at hif with hterminal
    obtain ⟨⟨s, esc'⟩, hupdate, rfl⟩ := map_eq_some_iff.mp hif
    obtain ⟨-, hholds, -⟩ := Store.stored_eq_some_iff.mp hstored
    refine iff_of_true (fun claw => (hC claw).sublist ?_) trivial
    exact openTypes_updateStatus hholds (Bool.eq_false_iff.mpr hterminal) hupdate
  | annotate | restart =>
    cases h
    exact iff_of_true hC trivial

/-- **At most one open escalation per Claw and trigger type**, all along a run that starts with no
escalations, exactly if no `Reconcile` of it is left with two signals of one type: signals of a type
that has no open escalation and is not the one a rule takes care of.  The pods, the rules, the
times, the order of lists and what is remembered at the start are arbitrary; between two passes the
other programs may do anything to escalations that are not terminal. -/
theorem distinctTypes_along_iff {L : Libs} {ttl : Int32} {maxActions : ℤ} {memory : Memory}
    {rounds : List Round} {C : Controller}
    (h : run (roundStep L ttl maxActions) ⟨{}, memory⟩ rounds = some C) :
    Along (roundStep L ttl maxActions) DistinctTypes ⟨{}, memory⟩ rounds ↔
      Meets (roundStep L ttl maxActions) (RoundDistinct ttl maxActions) ⟨{}, memory⟩ rounds := by
  refine Lib.along_iff_meets (fun _ _ _ _ _ => trivial) ?_ trivial ?_ h
  · intro C round C' _ hC hstep
    exact distinctTypes_step_iff hC hstep
  · intro claw
    simp [Shared.openTypes, Store.live, Store.empty]

/-- A `Reconcile` of the Claw `demo` with these pods and the built-in rules, at `now`. -/
def passAt (now : Time) (pods : List Pod) : Pass where
  claw := "demo"
  pods := pods
  rules := defaultEngineRules
  receipt := ""
  limitedAt := now
  matchedAt _ _ := now
  executedAt _ := now
  expiredAt _ := now
  intentAt := now
  auditedAt := now
  recordedAt := now
  escalatedAt _ := now
  listed escs := escs
  listed_perm _ := List.Perm.refl _

/-- A pod in which one container was killed for memory and the other one crashes. -/
def killedAndCrashing : Pod where
  name := "demo-0"
  containerStatuses := [⟨"runtime", 1, some "OOMKilled", none⟩,
    ⟨"ipc-bus", 1, none, some "CrashLoopBackOff"⟩]

/-- A pod in which both containers were killed for memory. -/
def bothKilled : Pod where
  name := "demo-0"
  containerStatuses :=
    [⟨"runtime", 1, some "OOMKilled", none⟩, ⟨"ipc-bus", 1, some "OOMKilled", none⟩]

/-- The second pass finds an escalation for each signal. -/
theorem distinctTypes_along_twice :
    ((run (roundStep sampleLibs 3600 5) ⟨{}, {}⟩
        [.reconcile (passAt (seconds 1) [killedAndCrashing]),
          .reconcile (passAt (seconds 2) [killedAndCrashing])]).map fun C =>
            C.shared.openTypes "demo") = some [.oomKilled, .crashLoop] ∧
    Along (roundStep sampleLibs 3600 5) DistinctTypes ⟨{}, {}⟩
      [.reconcile (passAt (seconds 1) [killedAndCrashing]),
        .reconcile (passAt (seconds 2) [killedAndCrashing])] :=
  ⟨by decide +kernel, (distinctTypes_along_iff (C := reconcile sampleLibs 3600 5
      (passAt (seconds 2) [killedAndCrashing]) (reconcile sampleLibs 3600 5
        (passAt (seconds 1) [killedAndCrashing]) ⟨{}, {}⟩)) rfl).mpr (by decide +kernel)⟩

/-- **Two open escalations of one type from one pass.**  Neither signal has an open escalation when
`deduplicateSignals` looks, and both counts are below that of the rule. -/
theorem killedTogether :
    ((run (roundStep sampleLibs 3600 5) ⟨{}, {}⟩
        [.reconcile (passAt (seconds 1) [bothKilled])]).map fun C => C.shared.openTypes "demo") =
      some [.oomKilled, .oomKilled] := by
  decide +kernel

end K8s4Claw.Ops
