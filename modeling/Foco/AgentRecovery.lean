import Foco.AgentLeases

/-!
`app/runtime/agent_scheduler.rs`, `reconcile_agent_attempt_leases`: a recovery scan reads the
running attempts and takes the abandoned ones from their runners, one after another, each in
several database steps. The machine runs any number of scans beside all operations of the agent
store; each step happens at an instant of its own, later than the step before it. It keeps a
history of the attempts that were started and of the leases that were renewed.
-/
namespace Foco.AgentRuntime
open Foco.RustText Foco.AgentDomain Foco.Table Foco.Runs

/-! ## What a scan decides -/

/-- A time in nanoseconds. -/
abbrev Instant := Int

/-- `AGENT_ATTEMPT_LEASE_TIMEOUT`. -/
def agentAttemptLeaseTimeout : Int := 30 * 1000000000

/-- How `chrono` reads a timestamp, and the text of an attempt id. -/
structure RecoveryTexts where
  parseFromRfc3339 : Timestamp → Option Instant
  attemptIdText : AgentAttemptId → Text

/-- `AgentAttemptRecoveryDisposition`. -/
inductive AgentAttemptRecoveryDisposition where
  | verifiedAbandonedLegacy | verifiedAbandonedInvalidLease | leaseActive
  | verifiedAbandonedLeaseExpired

/-- `agent_attempt_recovery_disposition`. -/
def agentAttemptRecoveryDisposition (texts : RecoveryTexts) (now : Instant)
    (attempt : AgentAttempt) : AgentAttemptRecoveryDisposition :=
  match attempt.ownerIncarnation, attempt.leaseRenewedAt with
  | some ownerIncarnation, some leaseRenewedAt =>
    if (trim ownerIncarnation).isEmpty then .verifiedAbandonedInvalidLease
    else
      match texts.parseFromRfc3339 leaseRenewedAt with
      | none => .verifiedAbandonedInvalidLease
      | some renewed =>
        if now - renewed ≤ agentAttemptLeaseTimeout then .leaseActive
        else .verifiedAbandonedLeaseExpired
  | _, _ => .verifiedAbandonedLegacy

/-- `AgentAttemptInterruption`. -/
inductive AgentAttemptInterruption where
  | backendRestarted | sidecarRestarted | runtimeOrphaned | legacyOwnerUnknown
  | invalidOwnerOrLease
  deriving DecidableEq

/-- `AgentAttemptInterruption::reason`. -/
def AgentAttemptInterruption.reason : AgentAttemptInterruption → Text
  | .backendRestarted => "backend restarted while Agent attempt was active".toList
  | .sidecarRestarted => "remote sidecar restarted while Agent attempt was active".toList
  | .runtimeOrphaned =>
    "Agent attempt was orphaned by its current runtime after its lease expired".toList
  | .legacyOwnerUnknown => "Agent attempt owner is unknown in a legacy record".toList
  | .invalidOwnerOrLease => "Agent attempt owner or lease data is invalid".toList

/-- `AgentAttemptRecoveryAction`. -/
inductive AgentAttemptRecoveryAction where
  | deferred
  | interrupt (interruption : AgentAttemptInterruption)

/-- `agent_attempt_recovery_action_for_evidence`. -/
def agentAttemptRecoveryActionForEvidence (recovery : AgentAttemptRecoveryDisposition)
    (isStartup ownerMatch legacyAttemptOwner activeRunnerPresent : Bool) :
    AgentAttemptRecoveryAction :=
  match recovery with
  | .leaseActive => .deferred
  | other =>
    if activeRunnerPresent then .deferred
    else
      match other with
      | .verifiedAbandonedLegacy => .interrupt .legacyOwnerUnknown
      | other =>
        if legacyAttemptOwner then .interrupt .legacyOwnerUnknown
        else
          match other with
          | .verifiedAbandonedInvalidLease => .interrupt .invalidOwnerOrLease
          | _ =>
            if isStartup then .interrupt .backendRestarted
            else if ownerMatch then .interrupt .runtimeOrphaned
            else .interrupt .backendRestarted

/-- `ActiveAgentAttemptIdentity`. -/
structure ActiveAgentAttemptIdentity where
  taskId : AgentTaskId
  attemptId : AgentAttemptId
  ownerIncarnation : Text

/-- `AgentAttemptRecoveryContext`. -/
inductive AgentAttemptRecoveryContext where
  | startup (schedulerOwnerIncarnation : Text)
  | runtimeScan (schedulerOwnerIncarnation : Text) (activeRuns : List ActiveAgentAttemptIdentity)

namespace AgentAttemptRecoveryContext

/-- `is_startup`. -/
def isStartup : AgentAttemptRecoveryContext → Bool
  | .startup _ => true
  | .runtimeScan _ _ => false

/-- `scheduler_owner_incarnation`. -/
def schedulerOwnerIncarnation : AgentAttemptRecoveryContext → Text
  | .startup owner => owner
  | .runtimeScan owner _ => owner

/-- `active_runner_present`. -/
def activeRunnerPresent (task : AgentTask) (attempt : AgentAttempt) :
    AgentAttemptRecoveryContext → Bool
  | .startup _ => false
  | .runtimeScan _ activeRuns => activeRuns.any fun identity =>
    identity.taskId = task.id ∧ identity.attemptId = attempt.id ∧
      attempt.ownerIncarnation = some identity.ownerIncarnation

end AgentAttemptRecoveryContext

/-- `AgentReconciliationRecord`. -/
structure AgentReconciliationRecord where
  attempt : AgentAttempt
  task : AgentTask

/-- What a scan decides about a record at an instant. -/
def recoveryAction (texts : RecoveryTexts) (context : AgentAttemptRecoveryContext)
    (now : Instant) (record : AgentReconciliationRecord) : AgentAttemptRecoveryAction :=
  agentAttemptRecoveryActionForEvidence
    (agentAttemptRecoveryDisposition texts now record.attempt) context.isStartup
    (record.attempt.ownerIncarnation = some context.schedulerOwnerIncarnation)
    (record.attempt.ownerIncarnation = some (texts.attemptIdText record.attempt.id))
    (context.activeRunnerPresent record.task record.attempt)

/-- `ORDER BY attempt.team_id, task.owner_instance_id, task.sequence`. -/
def reconciliationOrder (first second : AgentReconciliationRecord) : Bool :=
  orderBy [compare first.attempt.teamId second.attempt.teamId,
    compare first.task.ownerInstanceId second.task.ownerInstanceId,
    compare first.task.sequence second.task.sequence]

/-- The condition of `startup_agent_reconciliation`. -/
def isReconciled (record : AgentReconciliationRecord) : Bool :=
  record.attempt.status = .running ∧ record.task.status = .running ∨
    record.attempt.status = .suspended ∧ record.task.status = .waiting

/-- `startup_agent_reconciliation`. -/
def startupAgentReconciliation (tables : AgentTables) : List AgentReconciliationRecord :=
  sortBy reconciliationOrder <| (tables.attempts.flatMap fun attempt =>
    (tables.tasks.filter fun task => task.id = attempt.taskId).map fun task =>
      ⟨attempt, task⟩).filter isReconciled

/-! ## The steps of a scan -/

/-- Where a scan stands with its first record. -/
inductive RecoveryPhase where
  | decide
  | suspend (interruption : AgentAttemptInterruption)
  | close (interruption : AgentAttemptInterruption)
  | interrupt (interruption : AgentAttemptInterruption)
  | pause (historyLength : Nat)
  deriving DecidableEq

/-- A scan: when it read the attempts and how long the history was, and the records that it
still has to go through. -/
structure AgentRecoveryScan where
  context : AgentAttemptRecoveryContext
  readAt : Instant
  historyLength : Nat
  records : List AgentReconciliationRecord
  phase : RecoveryPhase

/-- On to the next record. -/
def AgentRecoveryScan.continue (scan : AgentRecoveryScan) : AgentRecoveryScan :=
  { scan with records := scan.records.tail, phase := .decide }

/-- An error ends the scan of the workspace. -/
def AgentRecoveryScan.stop (scan : AgentRecoveryScan) : AgentRecoveryScan :=
  { scan with records := [], phase := .decide }

/-- What a scan expects of the attempt of a record. -/
def AgentReconciliationRecord.expectedAttempt (record : AgentReconciliationRecord) :
    ExpectedAttempt where
  attemptId := record.attempt.id
  ownerIncarnation := record.attempt.ownerIncarnation
  leaseRenewedAt := record.attempt.leaseRenewedAt

/-- The update by which a scan interrupts the task of a record. -/
def AgentReconciliationRecord.interruption (record : AgentReconciliationRecord)
    (interruption : AgentAttemptInterruption) : AgentTaskStateUpdate where
  teamId := record.task.teamId
  taskId := record.task.id
  expectedStatus := record.task.status
  transition := .interrupt
  interruptionReason := some interruption.reason
  expectedAttempt := some record.expectedAttempt

/-- The next step of `reconcile_agent_attempt_leases` on the first record of a scan, with the
store and the scan it leaves. `closure` is what `close_interrupted_coordinator_chat_run` finds
out about the chat: nothing to close, or whether the queued run has the expected owner. -/
def reconcileRecord (texts : RecoveryTexts) (now : Timestamp) (instant : Instant)
    (closure : Option Bool) (historyLength : Nat) (scan : AgentRecoveryScan)
    (record : AgentReconciliationRecord) (store : AgentStore) :
    AgentStore × AgentRecoveryScan :=
  match scan.phase with
  | .decide =>
    if record.task.status ≠ .running then (store, scan.continue)
    else
      match recoveryAction texts scan.context instant record with
      | .deferred => (store, scan.continue)
      | .interrupt interruption => (store, { scan with phase := .suspend interruption })
  | .suspend interruption =>
    match suspendRunningAgentTask record.task.teamId record.task.id now store with
    | .ok (store', true) => (store', scan.continue)
    | .ok (store', false) => (store', { scan with phase := .close interruption })
    | .error _ => (store, scan.stop)
  | .close interruption =>
    match closure with
    | none => (store, { scan with phase := .interrupt interruption })
    | some owned =>
      match closePreStreamChatFailure record.task.id record.expectedAttempt
          (some interruption.reason) owned now store with
      | .ok (store', _) => (store', scan.continue)
      | .error _ => (store, scan.stop)
  | .interrupt interruption =>
    match updateAgentTaskState (record.interruption interruption) now store with
    | .ok (store', true) => (store', { scan with phase := .pause historyLength })
    | .ok (store', false) => (store', scan.continue)
    | .error _ => (store, scan.stop)
  | .pause _ =>
    match transitionAgentInstanceStatus record.task.ownerInstanceId .paused store with
    | .ok (store', _) => (store', scan.continue)
    | .error _ => (store, scan.stop)

/-! ## The machine -/

/-- What the machine remembers: an instance started an attempt, a lease was renewed. -/
inductive AgentHistoryEntry where
  | started (instanceId : AgentInstanceId) (attemptId : AgentAttemptId)
  | renewed (attemptId : AgentAttemptId)
  deriving DecidableEq

/-- What an operation adds to the history. -/
def AgentAction.record (store : AgentStore) : AgentAction → List AgentHistoryEntry
  | .claim teamId taskId attemptId ownerIncarnation now =>
    match claimRunnableAgentTaskWithOwner teamId taskId attemptId ownerIncarnation now store with
    | .ok (_, some task) => [.started task.ownerInstanceId attemptId]
    | _ => []
  | .renewLease taskId attemptId ownerIncarnation now =>
    match renewAgentAttemptLease taskId attemptId ownerIncarnation now store with
    | .ok (_, true) => [.renewed attemptId]
    | _ => []
  | _ => []

/-- The time that an operation takes from the clock. -/
def AgentAction.now : AgentAction → Option Timestamp
  | .enqueue _ _ _ _ now | .transfer _ _ _ _ _ _ now | .cancelQueued _ _ now
  | .cancelSubtree _ _ _ now | .claim _ _ _ _ now | .renewLease _ _ _ now
  | .updateState _ now | .suspend _ _ now | .resume _ _ _ now | .recover _ _ now
  | .suspendRemotePlan _ _ _ _ _ now | .closePreStream _ _ _ _ now => some now
  | _ => none

/-- The attempt that an operation would start. -/
def AgentAction.startsAttempt : AgentAction → Option AgentAttemptId
  | .claim _ _ attemptId _ _ => some attemptId
  | _ => none

/-- The store with the time of the last step, the history and the scans. -/
structure RecoveryState where
  store : AgentStore
  clock : Instant
  history : List AgentHistoryEntry
  scans : List AgentRecoveryScan

/-- A step at a time: a call of an operation, the read of a new scan, or the next step of one. -/
inductive RecoveryAction where
  | call (now : Timestamp) (action : AgentAction)
  | read (now : Timestamp) (context : AgentAttemptRecoveryContext)
  | scan (now : Timestamp) (index : Nat) (closure : Option Bool)

/-- The time of a step. -/
def RecoveryAction.now : RecoveryAction → Timestamp
  | .call now _ | .read now _ | .scan now _ _ => now

/-- An attempt id that was drawn before. -/
def wasStarted (history : List AgentHistoryEntry) (attemptId : AgentAttemptId) : Bool :=
  history.any fun
    | .started _ known => known = attemptId
    | .renewed _ => false

/-- Calls that occur: they take their time from the clock and draw new attempt ids, and a
suspended attempt is resumed through the queue, never by `AgentTaskTransition::Resume`. -/
def RecoveryState.occurs (state : RecoveryState) (now : Timestamp) (action : AgentAction) : Bool :=
  action.now.all (fun time => time = now) && !action.resumesAttempt &&
    action.startsAttempt.all fun attemptId => !wasStarted state.history attemptId

/-- What a step does at its instant. -/
def RecoveryState.advance (texts : RecoveryTexts) (state : RecoveryState) (instant : Instant) :
    RecoveryAction → Option RecoveryState
  | .call now action =>
    if state.occurs now action then
      match action.commit state.store with
      | .ok store => some { state with
        store, clock := instant, history := state.history ++ action.record state.store }
      | .error _ => some { state with clock := instant }
    else none
  | .read _ context =>
    some { state with
      clock := instant
      scans := state.scans ++ [{
        context, readAt := instant, historyLength := state.history.length
        records := startupAgentReconciliation state.store.toAgentTables, phase := .decide }] }
  | .scan now index closure =>
    match state.scans[index]? with
    | none => none
    | some scan =>
      match scan.records with
      | [] => none
      | record :: _ =>
        let (store, scan') := reconcileRecord texts now instant closure state.history.length scan
          record state.store
        some { state with store, clock := instant, scans := state.scans.set index scan' }

/-- The machine of the runners, the scans and all other callers. -/
def recoveryMachine (texts : RecoveryTexts) : Machine RecoveryState RecoveryAction where
  start := ⟨.empty, 0, [], []⟩
  step state action :=
    match texts.parseFromRfc3339 action.now with
    | none => none
    | some instant => if state.clock < instant then state.advance texts instant action else none

end Foco.AgentRuntime
