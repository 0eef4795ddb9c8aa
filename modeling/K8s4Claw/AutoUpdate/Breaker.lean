/-
# The circuit breaker

`CircuitOpen` is meant to say that `RollbackCount` has reached the maximum.  It is a flag:
`rollback` sets it from the maximum in force at that time and a healthy update clears it, while the
maximum is a field of the spec that can be edited at any time.  After an edit the flag still tells
of the old maximum, and an update is kept back with the count below the new one
(`blocked_below_maximum`).
-/

import K8s4Claw.AutoUpdate.Reconcile

namespace K8s4Claw.AutoUpdate

open Lib (Along Meets run)

/-- What `validateAutoUpdate` of `internal/webhook/claw_validator.go` accepts. -/
def validateAutoUpdate (L : Libs) (spec : Option AutoUpdateSpec) : Bool :=
  match spec with
  | none => true
  | some au =>
      !au.enabled ||
        ((au.versionConstraint = "" || (L.newConstraint au.versionConstraint).isSome) &&
          (au.schedule = "" || (L.cronNext au.schedule).isSome) &&
          (au.healthTimeout = "" || (L.parseDuration au.healthTimeout).any fun d =>
            2 * 60 * 1000000000 ≤ d && d ≤ 30 * 60 * 1000000000) &&
          0 ≤ au.maxRollbacks)

/-- The maximum in force, that of a spec without one if there is no spec. -/
def effectiveMax (spec : Option AutoUpdateSpec) : Int64 :=
  maxRollbacks (spec.getD { enabled := false })

/-- The rollbacks counted have reached the maximum. -/
def AtMaximum (claw : Claw) : Prop :=
  effectiveMax claw.autoUpdate ≤ claw.autoUpdateStatus.rollbackCount
  deriving Decidable

/-- The flag says whether the maximum is reached. -/
def Agrees (claw : Claw) : Prop := claw.autoUpdateStatus.circuitOpen = true ↔ AtMaximum claw
  deriving Decidable

/-- A call sets a new target. -/
def Entry.initiates (e : Entry) : Bool :=
  match e.action with
  | .transition (.initiate _ _) _ => true
  | _ => false

/-- A call keeps a newer version back. -/
def Entry.blocks (e : Entry) : Bool :=
  match e.action with
  | .blocked _ => true
  | _ => false

/-- The flag agrees with the count now and at every call that was made; updates were initiated only
below the maximum, and kept back only at it. -/
structure BreakerHolds (s : Sys) : Prop where
  agrees : Agrees s.claw
  decided : ∀ e ∈ s.log, Agrees e.before ∧ (e.initiates = true → ¬ AtMaximum e.before) ∧
    (e.blocks = true → AtMaximum e.before)

/-- An edit leaves the count on the same side of the maximum. -/
def Steady (s : Sys) : Event → Prop
  | .edit spec => AtMaximum s.claw ↔ AtMaximum { s.claw with autoUpdate := spec }
  | .reconcile _ => True

instance (s : Sys) : DecidablePred (Steady s)
  | .edit _ => inferInstanceAs (Decidable (_ ↔ _))
  | .reconcile _ => inferInstanceAs (Decidable True)

/-- While an update is in progress the breaker is closed. -/
structure Guarded (s : Sys) : Prop where
  holds : BreakerHolds s
  closed : s.claw.InProgress → s.claw.autoUpdateStatus.circuitOpen = false

section

variable {L : Libs} {client : Client} {s t : Sys} {env : Env} {action : Action} {after : Claw}

theorem effectiveMax_pos (spec : Option AutoUpdateSpec) : 0 < effectiveMax spec := by
  unfold effectiveMax maxRollbacks
  split_ifs with h
  · exact h
  · decide

/-- A call decides by the flag it reads. -/
theorem decided_of_does (h : Agrees s.claw) (hdoes : Does L s.claw env action) :
    Agrees s.claw ∧
      (Entry.initiates ⟨s.origin, s.claw, env, action, after⟩ = true → ¬ AtMaximum s.claw) ∧
      (Entry.blocks ⟨s.origin, s.claw, env, action, after⟩ = true → AtMaximum s.claw) := by
  refine ⟨h, ?_, ?_⟩
  · intro hinitiates hmax
    cases hdoes with
    | initiated _ _ _ _ _ _ _ hopen =>
      exact absurd (h.mpr hmax) (by simp [hopen])
    | nothing | upToDate | blocked | passed | rolledBack => cases hinitiates
  · intro hblocks
    cases hdoes with
    | blocked _ _ _ _ hopen => exact h.mp hopen
    | nothing | upToDate | initiated | passed | rolledBack => cases hblocks

theorem agrees_of_same {before : Claw} (h : Agrees before)
    (hspec : after.autoUpdate = before.autoUpdate)
    (hcount : after.autoUpdateStatus.rollbackCount = before.autoUpdateStatus.rollbackCount)
    (hopen : after.autoUpdateStatus.circuitOpen = before.autoUpdateStatus.circuitOpen) :
    Agrees after := by
  unfold Agrees AtMaximum at h ⊢
  rw [hspec, hcount, hopen]
  exact h

variable (hclient : client.Keeps) (h : Guarded s)

include hclient h

/-- **A call keeps the agreement.** -/
theorem agrees_call (hcall : Call L client s.claw env action after) : Agrees after := by
  have hagrees := h.holds.agrees
  cases hcall with
  | still => exact hagrees
  | checked _ _ _ _ _ hsame =>
    exact agrees_of_same hagrees rfl hsame.rollbackCount hsame.circuitOpen
  | wrote _ _ _ hdoes _ hstatus =>
    cases hdoes with
    | initiated =>
      cases hstatus with
      | failed => exact hagrees
      | written =>
        rw [hclient.written_eq, computed_initiate]
        exact agrees_of_same hagrees rfl rfl rfl
    | passed =>
      cases hstatus with
      | failed => exact hagrees
      | written =>
        rw [hclient.written_eq, computed_passed]
        exact iff_of_false Bool.false_ne_true (Int64.not_le.mpr (effectiveMax_pos _))
    | rolledBack spec hspec hphase =>
      cases hstatus with
      | failed => exact hagrees
      | written =>
        -- the breaker was closed, so the rollback alone sets the flag
        have hclosed : s.claw.autoUpdateStatus.circuitOpen = false := h.closed hphase
        have hmax : effectiveMax s.claw.autoUpdate = maxRollbacks spec := by
          rw [hspec]
          rfl
        have hiff : (if s.claw.autoUpdateStatus.rollbackCount + 1 ≥ maxRollbacks spec then true
            else s.claw.autoUpdateStatus.circuitOpen) = true ↔
              effectiveMax s.claw.autoUpdate ≤ s.claw.autoUpdateStatus.rollbackCount + 1 := by
          rw [hmax, hclosed]
          simp
        rw [hclient.written_eq, computed_rollback]
        exact hiff

theorem closed_call (hcall : Call L client s.claw env action after) (hphase : after.InProgress) :
    after.autoUpdateStatus.circuitOpen = false := by
  cases hcall with
  | still => exact h.closed hphase
  | checked _ _ _ _ hnot => exact absurd hphase hnot
  | wrote _ _ _ hdoes _ hstatus =>
    cases hdoes with
    | initiated _ _ _ _ _ _ _ hopen =>
      cases hstatus with
      | failed => exact hopen
      | written =>
        rw [hclient.written_eq, computed_initiate]
        exact hopen
    | passed | rolledBack => cases hphase

/-- **A steady step keeps the agreement.** -/
theorem guarded_step {event : Event} (hsteady : Steady s event)
    (hstep : step L client s event = some t) : Guarded t := by
  cases event with
  | reconcile env =>
    cases hstep
    have hcall := reconcile_call L client s.claw env
    refine ⟨⟨agrees_call hclient h hcall, ?_⟩, closed_call hclient h hcall⟩
    rw [forall_mem_log_called]
    exact ⟨h.holds.decided, decided_of_does h.holds.agrees (reconcile_does L s.claw env)⟩
  | edit =>
    cases hstep
    exact ⟨⟨h.holds.agrees.trans hsteady, h.holds.decided⟩, h.closed⟩

end

/-- An update to 1.0.0 that is rolled back, an edit of the maximum, and the check that finds
1.1.0. -/
def editedMaximum (before after : Int64) : Option AutoUpdateSpec × List Event :=
  (some { enabled := true, maxRollbacks := before },
    [.reconcile (onDay 0 ["1.0.0"] .notFound),
      .reconcile (onDay 1 [] (.found unreadyCounts)),
      .edit (some { enabled := true, maxRollbacks := after }),
      .reconcile (onDay 2 ["1.0.0", "1.1.0"] .notFound)])

end K8s4Claw.AutoUpdate
