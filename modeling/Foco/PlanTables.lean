import Foco.AgentTables
import Foco.Result

/-!
`store/workspace_schema.rs` and `store/workspace.rs`, the plan tables: plans, their phases with
their steps, and the attempts at a phase. A row has columns that are written once, which the
constraints of the schema are about, and columns that statements rewrite; a statement that
rewrites rows therefore keeps the schema. The texts that no operation here reads (titles,
summaries, acceptance lists, providers and models, creation times) are left out.
-/
namespace Foco.PlanRuntime
open Foco.RustText Foco.AgentRuntime Foco.Table

abbrev PlanId := Text
abbrev PlanPhaseId := Text
abbrev PlanStepId := Text
abbrev PlanPhaseAttemptId := Text

/-! ## Rows -/

/-- The statuses that `plans` allows. -/
inductive PlanStatus where
  | draft | ready | running | paused | implemented | completed | failed | cancelled
  deriving DecidableEq

/-- The statuses that `plan_phases` and `plan_steps` allow. -/
inductive PlanItemStatus where
  | pending | running | completed | failed | cancelled
  deriving DecidableEq

/-- `PlanPhaseAttemptTrigger`. -/
inductive PlanPhaseAttemptTrigger where
  | initial | retry | modelOverrideRetry | mergeAuto | mergeRetry
  deriving DecidableEq

/-- `PlanPhaseAttemptTrigger::is_merge`. -/
def PlanPhaseAttemptTrigger.isMerge : PlanPhaseAttemptTrigger → Bool
  | .mergeAuto | .mergeRetry => true
  | .initial | .retry | .modelOverrideRetry => false

/-- `PlanPhaseAttemptStatus`. -/
inductive PlanPhaseAttemptStatus where
  | queued | running | completed | failed | cancelled | interrupted
  deriving DecidableEq

/-- The columns that bind a phase or an attempt to the task that carries it out. -/
structure PlanPhaseRun where
  implementationChatId : Option ChatId
  agentTeamId : Option AgentTeamId
  agentTaskId : Option AgentTaskId
  deriving DecidableEq

/-- All three columns are `NULL`. -/
def PlanPhaseRun.unbound : PlanPhaseRun := ⟨none, none, none⟩

/-- The columns of `plans` that are written once. -/
structure PlanKey where
  id : PlanId

/-- The other columns of `plans`. -/
structure PlanState where
  status : PlanStatus
  activePhaseId : Option PlanPhaseId
  pauseRequestedAt : Option Timestamp
  completedAt : Option Timestamp
  completedByUserAt : Option Timestamp
  sharedMergeCommitId : Option Text
  errorMessage : Option Text
  updatedAt : Timestamp

/-- A row of `plans`. -/
structure Plan extends PlanKey, PlanState

/-- The columns of `plan_phases` that are written once. -/
structure PlanPhaseKey where
  id : PlanPhaseId
  planId : PlanId
  sequence : Nat

/-- The other columns of `plan_phases`. -/
structure PlanPhaseState where
  status : PlanItemStatus
  run : PlanPhaseRun
  commitId : Option Text
  mergeAttemptCount : Nat
  errorMessage : Option Text
  startedAt : Option Timestamp
  completedAt : Option Timestamp
  updatedAt : Timestamp

/-- A row of `plan_phases`. -/
structure PlanPhase extends PlanPhaseKey, PlanPhaseState

/-- The columns of `plan_steps` that are written once. -/
structure PlanStepKey where
  id : PlanStepId
  planId : PlanId
  phaseId : PlanPhaseId
  sequence : Nat

/-- The other columns of `plan_steps`. -/
structure PlanStepState where
  status : PlanItemStatus
  checkedAt : Option Timestamp
  updatedAt : Timestamp

/-- A row of `plan_steps`. -/
structure PlanStep extends PlanStepKey, PlanStepState

/-- The columns of `plan_phase_attempts` that are written once. -/
structure PlanPhaseAttemptKey where
  id : PlanPhaseAttemptId
  planId : PlanId
  phaseId : PlanPhaseId
  sequence : Nat
  trigger : PlanPhaseAttemptTrigger
  dispatchOwnerIncarnation : Option Text
  dispatchDeadlineAt : Option Timestamp

/-- The other columns of `plan_phase_attempts`. -/
structure PlanPhaseAttemptState where
  status : PlanPhaseAttemptStatus
  run : PlanPhaseRun
  commitId : Option Text
  errorMessage : Option Text
  startedAt : Option Timestamp
  completedAt : Option Timestamp
  updatedAt : Timestamp

/-- A row of `plan_phase_attempts`. -/
structure PlanPhaseAttempt extends PlanPhaseAttemptKey, PlanPhaseAttemptState

/-- `status IN ('queued', 'running')`. -/
def PlanPhaseAttempt.isActive (row : PlanPhaseAttempt) : Bool :=
  row.status = .queued || row.status = .running

/-- An active attempt that no task is bound to. -/
def PlanPhaseAttempt.isReserved (row : PlanPhaseAttempt) : Bool :=
  row.isActive && row.run = .unbound

/-! ## The store -/

/-- The tables. -/
structure PlanTables where
  plans : List Plan
  phases : List PlanPhase
  steps : List PlanStep
  attempts : List PlanPhaseAttempt

/-- The columns that the schema is about. -/
structure PlanKeys where
  plans : List PlanKey
  phases : List PlanPhaseKey
  steps : List PlanStepKey
  attempts : List PlanPhaseAttemptKey

def PlanTables.keys (tables : PlanTables) : PlanKeys where
  plans := tables.plans.map Plan.toPlanKey
  phases := tables.phases.map PlanPhase.toPlanPhaseKey
  steps := tables.steps.map PlanStep.toPlanStepKey
  attempts := tables.attempts.map PlanPhaseAttempt.toPlanPhaseAttemptKey

/-- `id GLOB 'plan-phase-attempt-*'`. -/
def attemptIdPrefix : Text := "plan-phase-attempt-".toList

/-- The characters of an owner incarnation. -/
def isOwnerCharacter (c : Char) : Bool :=
  c.isAlphanum || c = '.' || c = '_' || c = ':' || c = '-'

/-- What the database checks of the plan tables. -/
structure PlanSchema (keys : PlanKeys) : Prop where
  planIds : Unique PlanKey.id keys.plans
  plansNamed : ∀ row ∈ keys.plans, row.id ≠ []
  phaseIds : Unique PlanPhaseKey.id keys.phases
  phasesNamed : ∀ row ∈ keys.phases, row.id ≠ []
  phasePlans : ∀ row ∈ keys.phases, row.planId ∈ keys.plans.map PlanKey.id
  phaseSequences : Unique (fun row => (row.planId, row.sequence)) keys.phases
  stepIds : Unique PlanStepKey.id keys.steps
  stepsNamed : ∀ row ∈ keys.steps, row.id ≠ []
  stepPlans : ∀ row ∈ keys.steps, row.planId ∈ keys.plans.map PlanKey.id
  stepPhases : ∀ row ∈ keys.steps, row.phaseId ∈ keys.phases.map PlanPhaseKey.id
  stepSequences : Unique (fun row => (row.phaseId, row.sequence)) keys.steps
  attemptIds : Unique PlanPhaseAttemptKey.id keys.attempts
  attemptsNamed : ∀ row ∈ keys.attempts, attemptIdPrefix <+: row.id
  attemptPlans : ∀ row ∈ keys.attempts, row.planId ∈ keys.plans.map PlanKey.id
  attemptPhases : ∀ row ∈ keys.attempts, row.phaseId ∈ keys.phases.map PlanPhaseKey.id
  attemptSequences : Unique (fun row => (row.phaseId, row.sequence)) keys.attempts
  owners : ∀ row ∈ keys.attempts, ∀ owner ∈ row.dispatchOwnerIncarnation,
    owner ≠ [] ∧ owner.all isOwnerCharacter = true

instance (keys : PlanKeys) : Decidable (PlanSchema keys) :=
  decidable_of_iff (_ ∧ _ ∧ _ ∧ _ ∧ _ ∧ _ ∧ _ ∧ _ ∧ _ ∧ _ ∧ _ ∧ _ ∧ _ ∧ _ ∧ _ ∧ _ ∧ _)
    ⟨fun ⟨a, b, c, d, e, f, g, h, i, j, k, l, m, n, o, p, q⟩ =>
        ⟨a, b, c, d, e, f, g, h, i, j, k, l, m, n, o, p, q⟩,
      fun ⟨a, b, c, d, e, f, g, h, i, j, k, l, m, n, o, p, q⟩ =>
        ⟨a, b, c, d, e, f, g, h, i, j, k, l, m, n, o, p, q⟩⟩

/-- A database state: tables that meet the schema. -/
structure PlanStore extends PlanTables where
  schema : PlanSchema toPlanTables.keys

namespace PlanStore

/-- The tables after statements that rewrite rows. -/
def rewrite (store : PlanStore) (tables : PlanTables) (same : tables.keys = store.keys) :
    PlanStore := ⟨tables, same ▸ store.schema⟩

/-- `UPDATE plans`. -/
def updatePlans (store : PlanStore) (selects : Plan → Bool) (set : Plan → PlanState) :
    PlanStore :=
  store.rewrite { store.toPlanTables with
    plans := update selects (fun row => { row with toPlanState := set row }) store.plans } (by
    simp only [PlanTables.keys, PlanKeys.mk.injEq, and_true]
    exact map_update Plan.toPlanKey fun _ => rfl)

/-- `UPDATE plan_phases`. -/
def updatePhases (store : PlanStore) (selects : PlanPhase → Bool)
    (set : PlanPhase → PlanPhaseState) : PlanStore :=
  store.rewrite { store.toPlanTables with
    phases := update selects (fun row => { row with toPlanPhaseState := set row })
      store.phases } (by
    simp only [PlanTables.keys, PlanKeys.mk.injEq, true_and, and_true]
    exact map_update PlanPhase.toPlanPhaseKey fun _ => rfl)

/-- `UPDATE plan_steps`. -/
def updateSteps (store : PlanStore) (selects : PlanStep → Bool) (set : PlanStep → PlanStepState) :
    PlanStore :=
  store.rewrite { store.toPlanTables with
    steps := update selects (fun row => { row with toPlanStepState := set row }) store.steps } (by
    simp only [PlanTables.keys, PlanKeys.mk.injEq, true_and, and_true]
    exact map_update PlanStep.toPlanStepKey fun _ => rfl)

/-- `UPDATE plan_phase_attempts`. -/
def updateAttempts (store : PlanStore) (selects : PlanPhaseAttempt → Bool)
    (set : PlanPhaseAttempt → PlanPhaseAttemptState) : PlanStore :=
  store.rewrite { store.toPlanTables with
    attempts := update selects (fun row => { row with toPlanPhaseAttemptState := set row })
      store.attempts } (by
    simp only [PlanTables.keys, PlanKeys.mk.injEq, true_and]
    exact map_update PlanPhaseAttempt.toPlanPhaseAttemptKey fun _ => rfl)

/-- `PLAN_SELECT_SQL`. -/
def plan (store : PlanStore) (id : PlanId) : Option Plan :=
  store.plans.find? fun row => row.id = id

/-- `plan_phase_attempt`. -/
def attempt (store : PlanStore) (id : PlanPhaseAttemptId) : Option PlanPhaseAttempt :=
  store.attempts.find? fun row => row.id = id

end PlanStore

/-! ## Errors -/

/-- `PlanPhaseAttemptConflictReason`. -/
inductive PlanPhaseAttemptConflictReason where
  | terminal | alreadyAttached | missingOwner | ownerMismatch | missingDeadline | expired
  | concurrentStateChange

/-- The messages of `InvalidPlan`, and the other errors of the operations on plans. -/
inductive PlanError where
  | constraint
  | invalidDispatchOwner
  | planNotFound (planId : PlanId)
  | planCannotRetry (planId : PlanId) (status : PlanStatus)
  | phaseElsewhere (phaseId : PlanPhaseId) (planId : PlanId)
  | earlierPhaseIncomplete (phaseId predecessor : PlanPhaseId) (status : PlanItemStatus)
  | phaseHasActiveAttempt (phaseId : PlanPhaseId)
  | phaseNotRetryable (phaseId : PlanPhaseId)
  | phaseCannotBegin (phaseId : PlanPhaseId)
  | planCannotBegin (planId : PlanId)
  | attemptNotFoundAfterInsert (attemptId : PlanPhaseAttemptId)
  | attemptNotFound (attemptId : PlanPhaseAttemptId)
  | attemptConflict (attemptId : PlanPhaseAttemptId) (reason : PlanPhaseAttemptConflictReason)
  | invalidDispatchDeadline
  | invalidDispatchClock
  | phaseCannotAttach (phaseId : PlanPhaseId) (attemptId : PlanPhaseAttemptId)
  | planNotFoundAfterAttach (planId : PlanId)
  | closureIncomplete
  | closedWithoutPhase (attemptId : PlanPhaseAttemptId)
  | planCannotClose (planId : PlanId) (attemptId : PlanPhaseAttemptId)
  | planCannotRecover (planId : PlanId) (phaseId : PlanPhaseId)
  | completedCannotBeCancelled
  | planNotFoundAfterCancel (planId : PlanId)

namespace PlanStore

/-- `INSERT INTO plan_phase_attempts`. -/
def insertAttempt (store : PlanStore) (row : PlanPhaseAttempt) : Except PlanError PlanStore :=
  let tables := { store.toPlanTables with attempts := store.attempts ++ [row] }
  if schema : PlanSchema tables.keys then .ok ⟨tables, schema⟩ else .error .constraint

/-- An `UPDATE plans` that must hit one row. -/
def updatePlan (store : PlanStore) (selects : Plan → Bool) (set : Plan → PlanState)
    (otherwise : PlanError) : Except PlanError PlanStore :=
  if store.plans.countP selects = 1 then .ok (store.updatePlans selects set)
  else .error otherwise

/-- An `UPDATE plan_phases` that must hit one row. -/
def updatePhase (store : PlanStore) (selects : PlanPhase → Bool)
    (set : PlanPhase → PlanPhaseState) (otherwise : PlanError) : Except PlanError PlanStore :=
  if store.phases.countP selects = 1 then .ok (store.updatePhases selects set)
  else .error otherwise

end PlanStore

end Foco.PlanRuntime
