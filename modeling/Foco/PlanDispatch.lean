import Foco.Calls
import Foco.PlanTables
import Mathlib.Data.Char
import Mathlib.Data.List.Lex

/-!
`store/workspace.rs`, the operations that settle an attempt at a plan phase before a task is bound
to it: one begins an attempt under the reservation of a dispatcher, one binds the task, one
closes the attempt, one recovers phases whose dispatcher is gone, and one cancels the plan. Each
is a sequence of statements on a database that others write too; a transaction is one statement,
and so is a reading of the clock. The marks that pause the automatic runs are left out.
-/
namespace Foco.PlanRuntime
open Foco.RustText Foco.AgentRuntime Foco.Table Foco.Programs

/-! ## Statements -/

/-- A time in milliseconds. -/
abbrev Millis := Nat

/-- How `chrono` writes and reads times. Until the years have five digits the order of the texts
is the order of the times. -/
structure PlanTimes where
  toRfc3339 : Millis → Timestamp
  parseFromRfc3339 : Timestamp → Option Millis
  last : Millis
  ordered : ∀ earlier later, earlier ≤ later → later ≤ last →
    toRfc3339 earlier ≤ toRfc3339 later

/-- The database and the clock. -/
structure PlanWorld where
  store : PlanStore
  clock : Millis

/-- What a statement is: a reading of the clock, a query, or a write. -/
inductive PlanStatement where
  | clock | query | write

abbrev PlanProgram := Program PlanWorld PlanStatement PlanError

/-- What is decided without the database. -/
def decided {α : Type} (result : Except PlanError α) : PlanProgram α := .done result

/-- A statement that only reads. -/
def query {α : Type} (read : PlanStore → α) : PlanProgram α :=
  .one .query fun world => .ok (world, read world.store)

/-- An `Immediate` transaction, or a statement outside one. -/
def transaction {α : Type} (body : PlanStore → Except PlanError (PlanStore × α)) :
    PlanProgram α :=
  .one .write fun world => do
    let (store, a) ← body world.store
    return ({ world with store }, a)

/-- `now_timestamp`. -/
def nowTimestamp (times : PlanTimes) : PlanProgram Timestamp :=
  .one .clock fun world => .ok (world, times.toRfc3339 world.clock)

/-- `PLAN_PHASE_DISPATCH_RESERVATION`. -/
def planPhaseDispatchReservation : Millis := 120 * 1000

/-- `plan_phase_dispatch_deadline_at(Utc::now())`. -/
def planPhaseDispatchDeadlineAt (times : PlanTimes) : PlanProgram Timestamp :=
  .one .clock fun world =>
    .ok (world, times.toRfc3339 (world.clock + planPhaseDispatchReservation))

/-- `dispatch_reservation_expired`. -/
def dispatchReservationExpired (times : PlanTimes) (deadlineAt now : Timestamp) :
    Except PlanError Bool :=
  match times.parseFromRfc3339 deadlineAt with
  | none => .error .invalidDispatchDeadline
  | some deadline =>
    match times.parseFromRfc3339 now with
    | none => .error .invalidDispatchClock
    | some now => .ok (deadline ≤ now)

/-- `normalize_required_dispatch_owner`. -/
def normalizeRequiredDispatchOwner (value : Text) : Except PlanError Text :=
  let trimmed := trim value
  if trimmed.isEmpty ∨ trimmed.all isOwnerCharacter = false then .error .invalidDispatchOwner
  else .ok trimmed

/-- `COALESCE(time, now)`. -/
def orNow (time : Option Timestamp) (now : Timestamp) : Option Timestamp := time.or (some now)

/-! ## Beginning an attempt -/

/-- The status lets a phase start over. -/
def PlanItemStatus.isRestartable (status : PlanItemStatus) : Bool :=
  status = .failed || status = .cancelled

/-- The plan can still run. -/
def PlanStatus.isOpen (status : PlanStatus) : Bool := status ≠ .completed && status ≠ .cancelled

/-- The earliest phase before a sequence that is not completed. -/
def incompletePredecessor (store : PlanStore) (planId : PlanId) (sequence : Nat) :
    Option PlanPhase :=
  let rows := store.phases.filter fun row =>
    row.planId = planId ∧ row.sequence < sequence ∧ row.status ≠ .completed
  (sortBy (fun first second => first.sequence ≤ second.sequence) rows).head?

/-- The active attempts at a phase that are no merges. -/
def activeImplementationAttempts (store : PlanStore) (phaseId : PlanPhaseId) : Nat :=
  store.attempts.countP fun row =>
    row.phaseId = phaseId && row.isActive && !row.trigger.isMerge

/-- The attempts at a phase, no merges, that ended without success. -/
def terminalImplementationAttempts (store : PlanStore) (phaseId : PlanPhaseId) : Nat :=
  store.attempts.countP fun row =>
    row.phaseId = phaseId && !row.trigger.isMerge &&
      (row.status = .failed || row.status = .cancelled || row.status = .interrupted)

/-- The checks of `begin_plan_phase_attempt` in its transaction: the phase. -/
def checkBegin (planId : PlanId) (phaseId : PlanPhaseId) (trigger : PlanPhaseAttemptTrigger)
    (store : PlanStore) : Except PlanError PlanPhase :=
  match store.plan planId with
  | none => .error (.planNotFound planId)
  | some plan =>
    if !plan.status.isOpen then .error (.planCannotRetry planId plan.status)
    else
      match store.phases.find? fun row => row.planId = planId ∧ row.id = phaseId with
      | none => .error (.phaseElsewhere phaseId planId)
      | some phase =>
        match incompletePredecessor store planId phase.sequence with
        | some predecessor =>
          .error (.earlierPhaseIncomplete phaseId predecessor.id predecessor.status)
        | none =>
          if !phase.status.isRestartable ∧ phase.run.agentTaskId.isSome ∨
              activeImplementationAttempts store phaseId > 0 then
            .error (.phaseHasActiveAttempt phaseId)
          else if (trigger = .retry ∨ trigger = .modelOverrideRetry) ∧
              ¬(phase.status.isRestartable ∨ phase.status = .running ∧
                terminalImplementationAttempts store phaseId > 0) then
            .error (.phaseNotRetryable phaseId)
          else .ok phase

/-- Restarting a phase cancels the merge attempts that are left over. -/
def cancelSupersededMerges (planId : PlanId) (phaseId : PlanPhaseId) (now : Timestamp)
    (phase : PlanPhase) (store : PlanStore) : PlanStore :=
  if phase.status.isRestartable then
    store.updateAttempts
      (fun row => row.planId = planId ∧ row.phaseId = phaseId ∧ row.trigger.isMerge ∧ row.isActive)
      fun row => { row.toPlanPhaseAttemptState with
        status := .cancelled
        errorMessage := row.errorMessage.or (some "superseded by phase retry".toList)
        completedAt := orNow row.completedAt now
        updatedAt := now }
  else store

/-- `COALESCE(MAX(sequence) + 1, 0)`. -/
def nextAttemptSequence (store : PlanStore) (phaseId : PlanPhaseId) : Nat :=
  ((store.attempts.filter fun row => row.phaseId = phaseId).map fun row => row.sequence + 1).foldl
    max 0

/-- The id of an attempt. -/
def planPhaseAttemptId (phaseId : PlanPhaseId) (sequence : Nat) : PlanPhaseAttemptId :=
  attemptIdPrefix ++ phaseId ++ ['-'] ++ Nat.toDigits 10 sequence

/-- The row of a new attempt. -/
def queuedAttempt (planId : PlanId) (phaseId : PlanPhaseId) (trigger : PlanPhaseAttemptTrigger)
    (owner : Text) (deadlineAt now : Timestamp) (sequence : Nat) : PlanPhaseAttempt :=
  { id := planPhaseAttemptId phaseId sequence, planId, phaseId, sequence, trigger,
    dispatchOwnerIncarnation := some owner, dispatchDeadlineAt := some deadlineAt,
    status := .queued, run := .unbound, commitId := none, errorMessage := none,
    startedAt := none, completedAt := none, updatedAt := now }

/-- The steps of a phase that starts over wait again. -/
def restartSteps (planId : PlanId) (phaseId : PlanPhaseId) (now : Timestamp) (store : PlanStore) :
    PlanStore :=
  store.updateSteps
    (fun row => row.planId = planId ∧ row.phaseId = phaseId ∧ store.phases.any fun phase =>
      phase.planId = planId ∧ phase.id = phaseId ∧ phase.status.isRestartable)
    fun row => { row.toPlanStepState with
      status := .pending, checkedAt := none, updatedAt := now }

/-- The phase of a new attempt runs, unbound. -/
def startPhase (planId : PlanId) (phaseId : PlanPhaseId) (now : Timestamp) (store : PlanStore) :
    Except PlanError PlanStore :=
  store.updatePhase
    (fun row => row.planId = planId ∧ row.id = phaseId ∧ row.status ≠ .completed)
    (fun row => {
      status := .running
      run := .unbound
      commitId := none
      mergeAttemptCount := if row.status.isRestartable then 0 else row.mergeAttemptCount
      errorMessage := none
      startedAt := if row.status.isRestartable then some now else orNow row.startedAt now
      completedAt := none
      updatedAt := now })
    (.phaseCannotBegin phaseId)

/-- The plan of a new attempt runs. -/
def runPlan (planId : PlanId) (phaseId : PlanPhaseId) (now : Timestamp) (store : PlanStore) :
    Except PlanError PlanStore :=
  store.updatePlan (fun row => row.id = planId ∧ row.status.isOpen)
    (fun row => { row.toPlanState with
      status := .running, activePhaseId := some phaseId, pauseRequestedAt := none,
      completedAt := none, completedByUserAt := none, errorMessage := none, updatedAt := now })
    (.planCannotBegin planId)

/-- The transaction of `begin_plan_phase_attempt`: the id of the attempt. -/
def beginAttempt (planId : PlanId) (phaseId : PlanPhaseId) (trigger : PlanPhaseAttemptTrigger)
    (owner : Text) (deadlineAt now : Timestamp) (store : PlanStore) :
    Except PlanError (PlanStore × PlanPhaseAttemptId) := do
  let phase ← checkBegin planId phaseId trigger store
  let store := cancelSupersededMerges planId phaseId now phase store
  let attempt := queuedAttempt planId phaseId trigger owner deadlineAt now
    (nextAttemptSequence store phaseId)
  let store ← store.insertAttempt attempt
  let store := restartSteps planId phaseId now store
  let store ← startPhase planId phaseId now store
  let store ← runPlan planId phaseId now store
  return (store, attempt.id)

/-- `begin_plan_phase_attempt`. -/
def beginPlanPhaseAttempt (times : PlanTimes) (planId : PlanId) (phaseId : PlanPhaseId)
    (trigger : PlanPhaseAttemptTrigger) (dispatchOwnerIncarnation : Text) :
    PlanProgram PlanPhaseAttempt := do
  let owner ← decided (normalizeRequiredDispatchOwner dispatchOwnerIncarnation)
  let planId := trim planId
  let phaseId := trim phaseId
  let now ← nowTimestamp times
  let deadlineAt ← planPhaseDispatchDeadlineAt times
  let attemptId ← transaction (beginAttempt planId phaseId trigger owner deadlineAt now)
  let attempt ← query fun store => store.attempt attemptId
  decided (attempt.elim (.error (.attemptNotFoundAfterInsert attemptId)) .ok)

/-! ## Binding a task -/

/-- The checks of `attach_plan_phase_attempt_run` on the attempt it has read: its deadline. -/
def checkAttach (owner : Text) (attempt : PlanPhaseAttempt) : Except PlanError Timestamp :=
  if !attempt.isActive then .error (.attemptConflict attempt.id .terminal)
  else if attempt.run ≠ .unbound then .error (.attemptConflict attempt.id .alreadyAttached)
  else
    match attempt.dispatchOwnerIncarnation with
    | none => .error (.attemptConflict attempt.id .missingOwner)
    | some reserved =>
      if reserved ≠ owner then .error (.attemptConflict attempt.id .ownerMismatch)
      else
        match attempt.dispatchDeadlineAt with
        | none => .error (.attemptConflict attempt.id .missingDeadline)
        | some deadlineAt => .ok deadlineAt

/-- The attempt that a binding statement finds: reserved by this owner until this deadline. -/
def isReservedUntil (attemptId : PlanPhaseAttemptId) (owner : Text) (deadlineAt : Timestamp)
    (row : PlanPhaseAttempt) : Bool :=
  row.id = attemptId && row.isReserved && row.dispatchOwnerIncarnation = some owner &&
    row.dispatchDeadlineAt = some deadlineAt

/-- The transaction of `attach_plan_phase_attempt_run`; `known` says whether the chat, the team
and the task exist. -/
def attachRun (attempt : PlanPhaseAttempt) (run : PlanPhaseRun) (owner : Text)
    (deadlineAt now : Timestamp) (known : Bool) (store : PlanStore) :
    Except PlanError (PlanStore × Unit) := do
  let attaches (row : PlanPhaseAttempt) : Bool :=
    isReservedUntil attempt.id owner deadlineAt row && now < deadlineAt
  if store.attempts.countP attaches ≠ 1 then
    .error (.attemptConflict attempt.id .concurrentStateChange)
  else if !known then .error .constraint
  else do
    let store := store.updateAttempts attaches fun row => { row.toPlanPhaseAttemptState with
      status := .running, run, startedAt := orNow row.startedAt now, updatedAt := now }
    let store ← store.updatePhase
      (fun row => row.planId = attempt.planId ∧ row.id = attempt.phaseId ∧ row.status = .running)
      (fun row => { row.toPlanPhaseState with run, errorMessage := none, updatedAt := now })
      (.phaseCannotAttach attempt.phaseId attempt.id)
    return (store, ())

/-- `attach_plan_phase_attempt_run`. -/
def attachPlanPhaseAttemptRun (times : PlanTimes) (attemptId : PlanPhaseAttemptId)
    (implementationChatId : ChatId) (agentTeamId : AgentTeamId) (agentTaskId : AgentTaskId)
    (dispatchOwnerIncarnation : Text) (known : Bool) : PlanProgram Plan := do
  let owner ← decided (normalizeRequiredDispatchOwner dispatchOwnerIncarnation)
  let found ← query fun store => store.attempt (trim attemptId)
  let attempt ← decided (found.elim (.error (.attemptNotFound (trim attemptId))) .ok)
  let deadlineAt ← decided (checkAttach owner attempt)
  let seen ← nowTimestamp times
  let expired ← decided (dispatchReservationExpired times deadlineAt seen)
  if expired then decided (.error (.attemptConflict attempt.id .expired))
  else do
    let now ← nowTimestamp times
    transaction (attachRun attempt
      ⟨some implementationChatId, some agentTeamId, some agentTaskId⟩ owner deadlineAt now known)
    let plan ← query fun store => store.plan attempt.planId
    decided (plan.elim (.error (.planNotFoundAfterAttach attempt.planId)) .ok)

/-! ## Closing an attempt -/

/-- A phase that runs with no task bound to it. -/
def isUnboundPhase (planId : PlanId) (phaseId : PlanPhaseId) (row : PlanPhase) : Bool :=
  row.planId = planId && row.id = phaseId && row.status = .running && row.run = .unbound

/-- The state of a phase that fails. -/
def failPhase (errorMessage : Text) (now : Timestamp) (row : PlanPhase) : PlanPhaseState :=
  { row.toPlanPhaseState with
    status := .failed, errorMessage := some errorMessage,
    completedAt := orNow row.completedAt now, updatedAt := now }

/-- The state of an attempt that fails. -/
def failAttempt (errorMessage : Text) (now : Timestamp) (row : PlanPhaseAttempt) :
    PlanPhaseAttemptState :=
  { row.toPlanPhaseAttemptState with
    status := .failed, errorMessage := some errorMessage,
    completedAt := orNow row.completedAt now, updatedAt := now }

/-- The steps of a phase that fails. -/
def failSteps (planId : PlanId) (phaseId : PlanPhaseId) (now : Timestamp) (store : PlanStore) :
    PlanStore :=
  store.updateSteps
    (fun row => row.planId = planId ∧ row.phaseId = phaseId ∧
      (row.status = .pending ∨ row.status = .running))
    fun _ => { status := .failed, checkedAt := none, updatedAt := now }

/-- The plan of a phase that fails. -/
def failPlan (planId : PlanId) (errorMessage : Text) (now : Timestamp) (otherwise : PlanError)
    (store : PlanStore) : Except PlanError PlanStore :=
  store.updatePlan (fun row => row.id = planId ∧ row.status.isOpen)
    (fun row => { row.toPlanState with
      status := .failed, activePhaseId := none, errorMessage := some errorMessage,
      completedAt := some now, completedByUserAt := none, updatedAt := now })
    otherwise

/-- The arguments of `fail_unbound_plan_phase_dispatch_attempt`. -/
structure UnboundDispatch where
  attemptId : PlanPhaseAttemptId
  planId : PlanId
  phaseId : PlanPhaseId
  dispatchOwnerIncarnation : Text
  dispatchDeadlineAt : Timestamp
  errorMessage : Text

/-- The transaction of `fail_unbound_plan_phase_dispatch_attempt`. -/
def failUnbound (dispatch : UnboundDispatch) (now : Timestamp) (store : PlanStore) :
    Except PlanError (PlanStore × Bool) := do
  let closes (row : PlanPhaseAttempt) : Bool :=
    isReservedUntil dispatch.attemptId dispatch.dispatchOwnerIncarnation
      dispatch.dispatchDeadlineAt row && row.planId = dispatch.planId &&
      row.phaseId = dispatch.phaseId
  if store.attempts.countP closes ≠ 1 then return (store, false)
  else do
    let store := store.updateAttempts closes (failAttempt dispatch.errorMessage now)
    let store ← store.updatePhase (isUnboundPhase dispatch.planId dispatch.phaseId)
      (failPhase dispatch.errorMessage now) (.closedWithoutPhase dispatch.attemptId)
    let store := failSteps dispatch.planId dispatch.phaseId now store
    let store ← failPlan dispatch.planId dispatch.errorMessage now
      (.planCannotClose dispatch.planId dispatch.attemptId) store
    return (store, true)

/-- The arguments as `fail_unbound_plan_phase_dispatch_attempt` normalizes them. -/
def normalizeUnboundDispatch (dispatch : UnboundDispatch) : Except PlanError UnboundDispatch := do
  let owner ← normalizeRequiredDispatchOwner dispatch.dispatchOwnerIncarnation
  let trimmed : UnboundDispatch := {
    attemptId := trim dispatch.attemptId
    planId := trim dispatch.planId
    phaseId := trim dispatch.phaseId
    dispatchOwnerIncarnation := owner
    dispatchDeadlineAt := trim dispatch.dispatchDeadlineAt
    errorMessage := trim dispatch.errorMessage }
  if trimmed.attemptId.isEmpty ∨ trimmed.planId.isEmpty ∨ trimmed.phaseId.isEmpty ∨
      trimmed.dispatchDeadlineAt.isEmpty ∨ trimmed.errorMessage.isEmpty then
    .error .closureIncomplete
  else return trimmed

/-- `fail_unbound_plan_phase_dispatch_attempt`. -/
def failUnboundPlanPhaseDispatchAttempt (times : PlanTimes) (dispatch : UnboundDispatch) :
    PlanProgram Bool := do
  let trimmed ← decided (normalizeUnboundDispatch dispatch)
  let now ← nowTimestamp times
  transaction (failUnbound trimmed now)

/-! ## Recovering phases -/

/-- An active attempt, no merge, that the current owner has reserved until later than now. -/
def isLiveDispatch (owner : Text) (now : Timestamp) (row : PlanPhaseAttempt) : Bool :=
  row.isActive && !row.trigger.isMerge && row.dispatchOwnerIncarnation = some owner &&
    row.dispatchDeadlineAt.any fun deadlineAt => now < deadlineAt

/-- A phase has such an attempt. -/
def hasLiveDispatch (store : PlanStore) (owner : Text) (now : Timestamp) (phase : PlanPhase) :
    Bool :=
  store.attempts.any fun row =>
    row.phaseId = phase.id && row.planId = phase.planId && isLiveDispatch owner now row

/-- Why a phase is recovered, from its newest reserved attempt. -/
def dispatchReason (store : PlanStore) (planId : PlanId) (phaseId : PlanPhaseId) (owner : Text)
    (now : Timestamp) : Text :=
  let rows := store.attempts.filter fun row =>
    row.planId = planId && row.phaseId = phaseId && row.isReserved && !row.trigger.isMerge
  match (sortBy (fun first second => second.sequence ≤ first.sequence) rows).head? with
  | none => "runtime_abandoned".toList
  | some row =>
    match row.dispatchOwnerIncarnation, row.dispatchDeadlineAt with
    | some reserved, some deadlineAt =>
      if reserved = owner then
        if deadlineAt ≤ now then "plan_phase_dispatch_timed_out".toList
        else "runtime_abandoned".toList
      else "owner_replaced".toList
    | some _, none => "owner_replaced".toList
    | none, _ => "runtime_abandoned".toList

/-- The transaction of `try_fail_unbound_running_plan_phase_for_recovery`. -/
def recoverPhase (planId : PlanId) (phaseId : PlanPhaseId) (errorMessage owner : Text)
    (now : Timestamp) (store : PlanStore) : Except PlanError (PlanStore × Bool) := do
  let message := dispatchReason store planId phaseId owner now ++ ": ".toList ++ errorMessage
  let recovers (row : PlanPhase) : Bool :=
    isUnboundPhase planId phaseId row &&
      (store.plans.any fun plan => plan.id = planId && plan.status.isOpen) &&
      !hasLiveDispatch store owner now row
  if store.phases.countP recovers ≠ 1 then return (store, false)
  else do
    let store := store.updatePhases recovers (failPhase message now)
    let store := store.updateAttempts
      (fun row => row.planId = planId && row.phaseId = phaseId && row.isReserved &&
        !(row.dispatchOwnerIncarnation = some owner &&
          row.dispatchDeadlineAt.any fun deadlineAt => now < deadlineAt))
      (failAttempt message now)
    let store := failSteps planId phaseId now store
    let store ← failPlan planId message now (.planCannotRecover planId phaseId) store
    return (store, true)

/-- `try_fail_unbound_running_plan_phase_for_recovery`. -/
def tryFailUnboundRunningPlanPhaseForRecovery (times : PlanTimes) (planId : PlanId)
    (phaseId : PlanPhaseId) (errorMessage owner : Text) : PlanProgram Bool := do
  let now ← nowTimestamp times
  transaction (recoverPhase planId phaseId errorMessage owner now)

/-- The phases that may be recovered. -/
def recoveryCandidates (owner : Text) (now : Timestamp) (store : PlanStore) : List PlanPhase :=
  store.phases.filter fun row =>
    row.status = .running && row.run = .unbound && !hasLiveDispatch store owner now row

/-- `fail_running_plan_phases_without_agent_runs`: how many phases were recovered. -/
def failRunningPlanPhasesWithoutAgentRuns (times : PlanTimes)
    (errorMessage currentDispatchOwnerIncarnation : Text) : PlanProgram Nat := do
  let owner ← decided (normalizeRequiredDispatchOwner currentDispatchOwnerIncarnation)
  let now ← nowTimestamp times
  let phases ← query (recoveryCandidates owner now)
  phases.foldlM (fun count phase => do
    let recovered ← tryFailUnboundRunningPlanPhaseForRecovery times phase.planId phase.id
      (trim errorMessage) owner
    return if recovered then count + 1 else count) 0

/-! ## Cancelling a plan -/

/-- The statements of `cancel_plan` on the phases, the attempts, the steps and the plan. -/
def cancelPhases (planId : PlanId) (now : Timestamp) (store : PlanStore) : PlanStore :=
  store.updatePhases
    (fun row => row.planId = planId ∧
      (row.status = .pending ∨ row.status = .running ∨ row.status = .failed))
    fun row => { row.toPlanPhaseState with
      status := .cancelled, completedAt := orNow row.completedAt now, updatedAt := now }

@[inherit_doc cancelPhases]
def cancelAttempts (planId : PlanId) (now : Timestamp) (store : PlanStore) : PlanStore :=
  store.updateAttempts (fun row => row.planId = planId ∧ row.isActive)
    fun row => { row.toPlanPhaseAttemptState with
      status := .cancelled, completedAt := orNow row.completedAt now, updatedAt := now }

@[inherit_doc cancelPhases]
def cancelSteps (planId : PlanId) (now : Timestamp) (store : PlanStore) : PlanStore :=
  store.updateSteps
    (fun row => row.planId = planId ∧
      (row.status = .pending ∨ row.status = .running ∨ row.status = .failed))
    fun _ => { status := .cancelled, checkedAt := none, updatedAt := now }

@[inherit_doc cancelPhases]
def markCancelled (planId : PlanId) (now : Timestamp) (store : PlanStore) : PlanStore :=
  store.updatePlans (fun row => row.id = planId)
    fun row => { row.toPlanState with
      status := .cancelled, activePhaseId := none, pauseRequestedAt := none,
      completedAt := some now, completedByUserAt := none, updatedAt := now }

/-- A statement that always succeeds. -/
def execute (statement : PlanStore → PlanStore) : PlanProgram Unit :=
  transaction fun store => .ok (statement store, ())

/-- `cancel_plan`. -/
def cancelPlan (times : PlanTimes) (planId : PlanId) : PlanProgram Plan := do
  let found ← query fun store => store.plan (trim planId)
  let plan ← decided (found.elim (.error (.planNotFound (trim planId))) .ok)
  if plan.status = .completed then decided (.error .completedCannotBeCancelled)
  else do
    let now ← nowTimestamp times
    execute (cancelPhases plan.id now)
    execute (cancelAttempts (trim planId) now)
    execute (cancelSteps (trim planId) now)
    execute (markCancelled (trim planId) now)
    let cancelled ← query fun store => store.plan (trim planId)
    decided (cancelled.elim (.error (.planNotFoundAfterCancel (trim planId))) .ok)

end Foco.PlanRuntime
