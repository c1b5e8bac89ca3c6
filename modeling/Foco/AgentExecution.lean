import Foco.AgentStore

/-!
`store/workspace.rs`, the operations that move tasks through their execution: claiming a
runnable task, updating its state, suspending and resuming it, recovering interrupted
waits; and the machine whose actions are all operations of the agent runtime. The clock of
an operation is an argument, as are its answers from the chat rows and the plan tables.
-/
namespace Foco.AgentRuntime
open Foco.RustText Foco.AgentDomain Foco.Table Foco.Runs

/-! ## Runnable tasks -/

/-- `json_extract(input_json, '$.deferUntilWorkspaceIdle') IS 1`. -/
def defersUntilWorkspaceIdle (inputJson : Json) : Bool :=
  match inputJson.get "deferUntilWorkspaceIdle" with
  | some (.bool true) => true
  | some (.number (.integer value)) => decide (value = 1)
  | some (.number (.float text)) => decide (text = "1.0".toList)
  | _ => false

/-- `COALESCE(json_extract(input_json, '$.sessionMode'), '') <> 'plan'`. -/
def sessionModeIsNotPlan (inputJson : Json) : Bool :=
  decide (inputJson.getStr "sessionMode" ≠ some "plan".toList)

/-- The team has a free run: fewer running tasks than `max_concurrent_runs`. -/
def hasFreeRun (tables : AgentTables) (team : AgentTeam) : Bool :=
  (tables.tasks.countP fun running => running.teamId = team.id ∧ running.status = .running : Int) <
    team.maxConcurrentRuns

/-- An earlier task of the owner holds the head of the queue. -/
def hasEarlierTask (tables : AgentTables) (task : AgentTask) : Bool :=
  tables.tasks.any fun earlier =>
    decide (earlier.ownerInstanceId = task.ownerInstanceId) &&
      decide (earlier.sequence < task.sequence) && earlier.status.holdsQueueHead

/-- A task inserted before this one is unfinished and is no plan session. -/
def hasEarlierWorkspaceTask (tables : AgentTables) (task : AgentTask) : Bool :=
  (tables.tasks.takeWhile fun row => row.id ≠ task.id).any fun earlier =>
    earlier.status.holdsQueueHead && sessionModeIsNotPlan earlier.inputJson

/-- The condition of `RUNNABLE_AGENT_TASKS_SQL`. -/
def isRunnable (tables : AgentTables) (now : Timestamp) (task : AgentTask) : Bool :=
  decide (task.status = .queued) &&
  (tables.instances.any fun row => decide (row.id = task.ownerInstanceId) &&
    (decide (row.status = .idle) || decide (row.status = .draining))) &&
  (tables.teams.any fun team => decide (team.id = task.teamId) &&
    (decide (team.status = .active) || decide (team.status = .draining)) &&
    hasFreeRun tables team) &&
  !hasEarlierTask tables task &&
  (!defersUntilWorkspaceIdle task.inputJson || !hasEarlierWorkspaceTask tables task) &&
  (!hasDependencies tables task.id || allDependenciesTerminal tables task.id ||
    anyDependencyTerminal tables task.id || waitDeadlinePassed tables now task.id)

/-- The condition of the query of `claim_runnable_agent_task_with_owner`, written out there
a second time. -/
def isClaimable (tables : AgentTables) (now : Timestamp) (teamId : AgentTeamId)
    (taskId : AgentTaskId) (task : AgentTask) : Bool :=
  decide (task.id = taskId) && decide (task.teamId = teamId) && decide (task.status = .queued) &&
  (tables.instances.any fun row => decide (row.id = task.ownerInstanceId) &&
    (decide (row.status = .idle) || decide (row.status = .draining))) &&
  (tables.teams.any fun team => decide (team.id = task.teamId) &&
    (decide (team.status = .active) || decide (team.status = .draining)) &&
    hasFreeRun tables team) &&
  !hasEarlierTask tables task &&
  (!defersUntilWorkspaceIdle task.inputJson || !hasEarlierWorkspaceTask tables task) &&
  (!hasDependencies tables task.id || allDependenciesTerminal tables task.id ||
    anyDependencyTerminal tables task.id || waitDeadlinePassed tables now task.id)

/-- `instance.last_scheduled_at` of the owner. -/
def lastScheduledAt (tables : AgentTables) (task : AgentTask) : Option Timestamp :=
  (tables.instances.find? fun row => row.id = task.ownerInstanceId).bind
    AgentInstance.lastScheduledAt

/-- The order of `RUNNABLE_AGENT_TASKS_SQL`: owners that never ran come first. -/
def runnableOrder (tables : AgentTables) (first second : AgentTask) : Bool :=
  let firstRun := lastScheduledAt tables first
  let secondRun := lastScheduledAt tables second
  orderBy [compare firstRun.isSome secondRun.isSome,
    compareText (firstRun.getD []) (secondRun.getD []), compare first.teamId second.teamId,
    compare first.ownerInstanceId second.ownerInstanceId, compare first.sequence second.sequence]

/-- `runnable_agent_tasks`. -/
def runnableAgentTasks (limit : Int) (now : Timestamp) (store : AgentStore) :
    Except AgentStoreError (List AgentTask) :=
  if limit ≤ 0 then .error .limitNotPositive
  else .ok ((sortBy (runnableOrder store.toAgentTables)
    (store.tasks.filter (isRunnable store.toAgentTables now))).take limit.toNat)

/-! ## Claiming -/

/-- `COALESCE(MAX(sequence), -1) + 1` over the attempts of a task. -/
def nextAttemptSequence (tables : AgentTables) (taskId : AgentTaskId) : Nat :=
  (tables.attempts.filter fun row => row.taskId = taskId).foldr
    (fun row next => max (row.sequence + 1) next) 0

/-- The attempt that `claim_runnable_agent_task_with_owner` inserts. -/
def newAttemptRow (tables : AgentTables) (task : AgentTask) (attemptId : AgentAttemptId)
    (ownerIncarnation : Option Text) (now : Timestamp) : AgentAttempt :=
  { id := attemptId, teamId := task.teamId, taskId := task.id,
    sequence := nextAttemptSequence tables task.id, status := .running,
    interruptionReason := none, ownerIncarnation,
    leaseRenewedAt := ownerIncarnation.map fun _ => now }

/-- The statements of `claim_runnable_agent_task_with_owner` on a task found runnable. -/
def startTask (task : AgentTask) (attemptId : AgentAttemptId) (ownerIncarnation : Option Text)
    (now : Timestamp) (store : AgentStore) : Except AgentStoreError AgentStore := do
  let attempt := newAttemptRow store.toAgentTables task attemptId ownerIncarnation now
  let owned := fun (row : AgentInstance) => decide (row.id = task.ownerInstanceId ∧
    row.teamId = task.teamId ∧ (row.status = .idle ∨ row.status = .draining))
  let store ← store.updateTasks
    (fun row => row.id = task.id ∧ row.teamId = task.teamId ∧ row.status = .queued)
    (AgentTask.setStatus .running now)
  let store ← store.insertAttempt attempt
  if store.instances.countP owned ≠ 1 then .error (.domain (.queueConflict task.ownerInstanceId))
  else store.updateInstances owned fun row =>
    { row.setStatusUnlessDraining .running with lastScheduledAt := some now }

/-- `claim_runnable_agent_task_with_owner`. -/
def claimRunnableAgentTaskWithOwner (teamId : AgentTeamId) (taskId : AgentTaskId)
    (attemptId : AgentAttemptId) (ownerIncarnation : Option Text) (now : Timestamp)
    (store : AgentStore) : Except AgentStoreError (AgentStore × Option AgentTask) :=
  if ownerIncarnation.any fun owner => (trim owner).isEmpty then .error .emptyOwnerIncarnation
  else
    match store.tasks.find? (isClaimable store.toAgentTables now teamId taskId) with
    | none => .ok (store, none)
    | some task => do
      let store ← startTask task attemptId ownerIncarnation now store
      return (store, store.tasks.find? fun row => row.id = taskId)

/-- `renew_agent_attempt_lease`. -/
def renewAgentAttemptLease (taskId : AgentTaskId) (attemptId : AgentAttemptId)
    (ownerIncarnation : Text) (now : Timestamp) (store : AgentStore) :
    Except AgentStoreError (AgentStore × Bool) :=
  if (trim ownerIncarnation).isEmpty then .error .emptyOwnerIncarnation
  else do
    let selects := fun (row : AgentAttempt) => decide (row.id = attemptId ∧ row.taskId = taskId ∧
      row.ownerIncarnation = some ownerIncarnation ∧
      (row.status = .running ∨ row.status = .suspended))
    let renewed := store.attempts.countP selects
    let store ← store.updateAttempts selects fun row => { row with leaseRenewedAt := some now }
    return (store, renewed = 1)

/-! ## Updating the state of a task -/

/-- What a caller of `update_agent_task_state_for_attempt` or `…_for_attempt_lease` expects of
the attempt: its id, and its owner and lease if it names them. -/
structure ExpectedAttempt where
  attemptId : AgentAttemptId
  ownerIncarnation : Option Text
  leaseRenewedAt : Option Timestamp

/-- `AgentTaskStateUpdate`, with the attempt that the caller expects, if it expects one. -/
structure AgentTaskStateUpdate where
  teamId : AgentTeamId
  taskId : AgentTaskId
  expectedStatus : AgentTaskStatus
  transition : AgentTaskTransition
  interruptionReason : Option Text
  expectedAttempt : Option ExpectedAttempt

/-- The attempt status that an update starts from. -/
def sourceAttemptStatus (expected : AgentTaskStatus) : AgentAttemptStatus :=
  if expected = .waiting then .suspended else .running

/-- The attempt has the expected id, owner and lease. -/
def ExpectedAttempt.isMet (expected : ExpectedAttempt) (row : AgentAttempt) : Bool :=
  decide (row.id = expected.attemptId) &&
  expected.ownerIncarnation.all (fun owner => row.ownerIncarnation = some owner) &&
  expected.leaseRenewedAt.all fun lease => row.leaseRenewedAt = some lease

/-- The attempts of the task in the status that the update starts from. -/
def isSourceAttempt (update : AgentTaskStateUpdate) (row : AgentAttempt) : Bool :=
  decide (row.taskId = update.taskId ∧ row.teamId = update.teamId ∧
    row.status = sourceAttemptStatus update.expectedStatus)

/-- The query of `update_agent_task_state_inner`. -/
def isUpdatable (tables : AgentTables) (update : AgentTaskStateUpdate) (task : AgentTask) : Bool :=
  decide (task.id = update.taskId) && decide (task.teamId = update.teamId) &&
  decide (task.status = update.expectedStatus) &&
  update.expectedAttempt.all fun expected => tables.attempts.any fun row =>
    isSourceAttempt update row && expected.isMet row

/-- The attempt status that a transition writes, if it writes one. -/
def attemptTarget (expected : AgentTaskStatus) : AgentTaskTransition → Option AgentAttemptStatus
  | .wait => some .suspended
  | .resume => some .running
  | .complete => some .completed
  | .fail => some .failed
  | .cancel => if expected = .running ∨ expected = .waiting then some .cancelled else none
  | .interrupt => some .interrupted
  | .start | .retry => none

/-- The statement of `update_agent_task_state_inner` on the attempt. -/
def updateTaskAttempt (update : AgentTaskStateUpdate) (store : AgentStore) :
    Except AgentStoreError AgentStore :=
  let selects := fun (row : AgentAttempt) => isSourceAttempt update row &&
    update.expectedAttempt.all fun expected => expected.isMet row
  match attemptTarget update.expectedStatus update.transition with
  | none => .ok store
  | some target =>
    if store.attempts.countP selects ≠ 1 then .error (.noActiveAttempt update.taskId)
    else store.updateAttempts selects (AgentAttempt.setStatus target update.interruptionReason)

/-- The transitions that end a wait round for good. -/
def clearsWait : AgentTaskTransition → Bool
  | .cancel | .retry => true
  | _ => false

/-- The statements of `update_agent_task_state_inner` on dependencies and cancellations: a
cancelled or retried task drops its wait, a retried root its cancellation. -/
def clearTaskWait (update : AgentTaskStateUpdate) (store : AgentStore) :
    Except AgentStoreError AgentStore :=
  { store.toAgentTables with
    dependencies := store.dependencies.filter fun row =>
      !(clearsWait update.transition && decide (row.waitingTaskId = update.taskId))
    subtreeCancellations := store.subtreeCancellations.filter fun row =>
      !(decide (update.transition = AgentTaskTransition.retry) &&
        decide (row.teamId = update.teamId ∧ row.rootTaskId = update.taskId)) }.write

/-- The owner status that an update writes, if it writes one. -/
def ownerTarget (expected target : AgentTaskStatus) : Option AgentInstanceStatus :=
  if expected = .queued then none
  else
    match target with
    | .running => some .running
    | .waiting => some .waiting
    | .completed | .failed | .cancelled | .interrupted => some .idle
    | .queued => none

/-- The statement of `update_agent_task_state_inner` on the owner: only an owner that would
become idle stays draining. -/
def updateTaskOwner (update : AgentTaskStateUpdate) (owner : AgentInstanceId)
    (target : AgentTaskStatus) (store : AgentStore) : Except AgentStoreError AgentStore :=
  match ownerTarget update.expectedStatus target with
  | none => .ok store
  | some status =>
    store.updateInstances (fun row => row.id = owner ∧ row.teamId = update.teamId)
      fun row => row.setStatus
        (if row.status = .draining ∧ status = .idle then .draining else status)

/-- `update_agent_task_state_inner`, behind `update_agent_task_state` and its variants for an
attempt and for an attempt with its lease. -/
def updateAgentTaskState (update : AgentTaskStateUpdate) (now : Timestamp) (store : AgentStore) :
    Except AgentStoreError (AgentStore × Bool) :=
  if update.transition = .start then .error .startOutsideClaim
  else do
    let target ← (update.expectedStatus.apply update.transition).mapError .domain
    match store.tasks.find? (isUpdatable store.toAgentTables update) with
    | none => .ok (store, false)
    | some task => do
      let store ← store.updateTasks
        (fun row => row.id = update.taskId ∧ row.teamId = update.teamId ∧
          row.status = update.expectedStatus)
        (AgentTask.setStatus target now)
      let store ← updateTaskAttempt update store
      let store ← clearTaskWait update store
      let store ← updateTaskOwner update task.ownerInstanceId target store
      return (store, true)

/-! ## Suspending, resuming and recovering waits -/

/-- The query of `suspend_running_agent_task_with_wait_dependencies`: the task runs and its
wait round is still open. -/
def isSuspendable (tables : AgentTables) (now : Timestamp) (teamId : AgentTeamId)
    (taskId : AgentTaskId) (task : AgentTask) : Bool :=
  decide (task.id = taskId) && decide (task.teamId = teamId) &&
  decide (task.status = .running) &&
  (tables.dependencies.any fun dependency => dependency.teamId = task.teamId ∧
    dependency.waitingTaskId = task.id) &&
  !(waitDeadlinePassed tables now task.id || allDependenciesTerminal tables task.id ||
    anyDependencyTerminal tables task.id)

/-- `suspend_running_agent_task_with_wait_dependencies`. -/
def suspendRunningAgentTask (teamId : AgentTeamId) (taskId : AgentTaskId) (now : Timestamp)
    (store : AgentStore) : Except AgentStoreError (AgentStore × Bool) :=
  let selects := fun (row : AgentAttempt) =>
    decide (row.taskId = taskId ∧ row.teamId = teamId ∧ row.status = .running)
  match store.tasks.find? (isSuspendable store.toAgentTables now teamId taskId) with
  | none => .ok (store, false)
  | some task => do
    let store ← store.updateTasks
      (fun row => row.id = taskId ∧ row.teamId = teamId ∧ row.status = .running)
      (AgentTask.setStatus .waiting now)
    if store.attempts.countP selects ≠ 1 then .error (.noActiveAttempt taskId)
    else do
      let store ← store.updateAttempts selects fun row => { row with status := .suspended }
      let store ← store.updateInstances
        (fun row => row.id = task.ownerInstanceId ∧ row.teamId = teamId ∧
          (row.status = .running ∨ row.status = .draining))
        (AgentInstance.setStatusUnlessDraining .waiting)
      return (store, true)

/-- The condition of `resume_satisfied_agent_tasks_matching`. -/
def isResumable (tables : AgentTables) (now : Timestamp) (matching : AgentTask → Bool)
    (task : AgentTask) : Bool :=
  decide (task.status = .waiting) &&
  (tables.instances.any fun row => decide (row.id = task.ownerInstanceId) &&
    (decide (row.status = .waiting) || decide (row.status = .draining))) &&
  (tables.teams.any fun team => decide (team.id = task.teamId) &&
    (decide (team.status = .active) || decide (team.status = .draining))) &&
  matching task && hasDependencies tables task.id &&
  (waitDeadlinePassed tables now task.id || allDependenciesTerminal tables task.id ||
    anyDependencyTerminal tables task.id)

/-- `ORDER BY task.created_at, task.team_id, task.owner_instance_id, task.sequence`. -/
def resumeOrder (first second : AgentTask) : Bool :=
  orderBy [compareText first.createdAt second.createdAt, compare first.teamId second.teamId,
    compare first.ownerInstanceId second.ownerInstanceId, compare first.sequence second.sequence]

/-- The tasks that `resume_satisfied_agent_tasks_matching` selects. -/
def resumableTasks (tables : AgentTables) (limit : Int) (now : Timestamp)
    (matching : AgentTask → Bool) : List AgentTask :=
  (sortBy resumeOrder (tables.tasks.filter (isResumable tables now matching))).take limit.toNat

/-- The body of the loop of `resume_satisfied_agent_tasks_matching`. -/
def resumeTask (requeued : AgentTaskId → Bool) (now : Timestamp) (store : AgentStore)
    (task : AgentTask) : Except AgentStoreError AgentStore :=
  if requeued task.id = false then .error .chatRejected
  else do
    let store ← store.updateTasks
      (fun row => row.id = task.id ∧ row.teamId = task.teamId ∧ row.status = .waiting)
      (AgentTask.setStatus .queued now)
    store.updateInstances
      (fun row => row.id = task.ownerInstanceId ∧ row.teamId = task.teamId ∧
        (row.status = .waiting ∨ row.status = .draining))
      (AgentInstance.setStatusUnlessDraining .idle)

/-- `resume_satisfied_agent_tasks_matching`. The filters by input key and by plan binding are
any condition on the row, `requeued` says for which tasks
`requeue_agent_chat_queued_run_for_resumed_task` succeeds. -/
def resumeSatisfiedAgentTasks (limit : Int) (matching : AgentTask → Bool)
    (requeued : AgentTaskId → Bool) (now : Timestamp) (store : AgentStore) :
    Except AgentStoreError (AgentStore × List AgentTask) :=
  if limit ≤ 0 then .error .limitNotPositive
  else do
    let tasks := resumableTasks store.toAgentTables limit now matching
    let store ← tasks.foldlM (resumeTask requeued now) store
    return (store, store.tasks.filter fun row => tasks.any fun task => task.id = row.id)

/-- The attempts of a task that were interrupted for a reason. -/
def interruptedFor (reason : Text) (task : AgentTask) (row : AgentAttempt) : Bool :=
  decide (row.taskId = task.id ∧ row.teamId = task.teamId ∧ row.status = .interrupted ∧
    row.interruptionReason = some reason)

/-- The task was interrupted for the reason while it had dependencies. -/
def isInterruptedWait (tables : AgentTables) (reason : Text) (task : AgentTask) : Bool :=
  decide (task.status = .interrupted) && tables.attempts.any (interruptedFor reason task) &&
  tables.dependencies.any fun dependency => dependency.teamId = task.teamId ∧
    dependency.waitingTaskId = task.id

/-- The condition of `recover_interrupted_agent_wait_tasks`. -/
def isRecoverable (tables : AgentTables) (reason : Text) (task : AgentTask) : Bool :=
  isInterruptedWait tables reason task &&
  (tables.instances.any fun row => decide (row.id = task.ownerInstanceId) &&
    decide (row.teamId = task.teamId) &&
    (decide (row.status = .paused) || decide (row.status = .idle) ||
      decide (row.status = .waiting) || decide (row.status = .draining))) &&
  (tables.teams.any fun team => decide (team.id = task.teamId) &&
    (decide (team.status = .active) || decide (team.status = .draining))) &&
  !(tables.tasks.any fun active => decide (active.ownerInstanceId = task.ownerInstanceId) &&
    decide (active.id ≠ task.id) && active.status.isActive) &&
  !(tables.tasks.any fun earlier => decide (earlier.ownerInstanceId = task.ownerInstanceId) &&
    isInterruptedWait tables reason earlier && decide (earlier.sequence < task.sequence))

/-- `ORDER BY task.updated_at, task.team_id, task.owner_instance_id, task.sequence`. -/
def recoveryOrder (first second : AgentTask) : Bool :=
  orderBy [compareText first.updatedAt second.updatedAt, compare first.teamId second.teamId,
    compare first.ownerInstanceId second.ownerInstanceId, compare first.sequence second.sequence]

/-- The tasks that `recover_interrupted_agent_wait_tasks` selects. -/
def recoverableTasks (tables : AgentTables) (reason : Text) (limit : Int) : List AgentTask :=
  (sortBy recoveryOrder (tables.tasks.filter (isRecoverable tables reason))).take limit.toNat

/-- The body of the loop of `recover_interrupted_agent_wait_tasks`. -/
def recoverTask (reason : Text) (now : Timestamp) (store : AgentStore) (task : AgentTask) :
    Except AgentStoreError AgentStore := do
  let store ← store.updateTasks
    (fun row => row.id = task.id ∧ row.teamId = task.teamId ∧ row.status = .interrupted)
    (AgentTask.setStatus .waiting now)
  let store ← store.updateAttempts (interruptedFor reason task)
    (AgentAttempt.setStatus .suspended none)
  store.updateInstances
    (fun row => row.id = task.ownerInstanceId ∧ row.teamId = task.teamId ∧
      (row.status = .paused ∨ row.status = .idle ∨ row.status = .waiting ∨
        row.status = .draining))
    (AgentInstance.setStatusUnlessDraining .waiting)

/-- `recover_interrupted_agent_wait_tasks`. -/
def recoverInterruptedAgentWaitTasks (reason : Text) (limit : Int) (now : Timestamp)
    (store : AgentStore) : Except AgentStoreError (AgentStore × List AgentTask) :=
  if limit ≤ 0 then .error .limitNotPositive
  else do
    let tasks := recoverableTasks store.toAgentTables reason limit
    let store ← tasks.foldlM (recoverTask reason now) store
    return (store, store.tasks.filter fun row => tasks.any fun task => task.id = row.id)

/-! ## Transactions shared with the chat tables -/

/-- The attempts that `suspend_remote_plan_task_and_requeue_run` suspends. -/
def isRemoteAttempt (teamId : AgentTeamId) (taskId : AgentTaskId) (attemptId : AgentAttemptId)
    (ownerIncarnation : Text) (row : AgentAttempt) : Bool :=
  row.id = attemptId ∧ row.taskId = taskId ∧ row.teamId = teamId ∧ row.status = .running ∧
    row.ownerIncarnation = some ownerIncarnation

/-- The query of `suspend_remote_plan_task_and_requeue_run`. -/
def isRemotelySuspendable (tables : AgentTables) (teamId : AgentTeamId) (taskId : AgentTaskId)
    (attemptId : AgentAttemptId) (ownerIncarnation : Text) (task : AgentTask) : Bool :=
  decide (task.id = taskId ∧ task.teamId = teamId ∧ task.status = .running) &&
  tables.attempts.any (isRemoteAttempt teamId taskId attemptId ownerIncarnation)

/-- `suspend_remote_plan_task_and_requeue_run`; `owned` says whether the queued run of the
message still has the expected owner. -/
def suspendRemotePlanTask (teamId : AgentTeamId) (taskId : AgentTaskId)
    (attemptId : AgentAttemptId) (ownerIncarnation : Text) (owned : Bool) (now : Timestamp)
    (store : AgentStore) : Except AgentStoreError (AgentStore × Bool) :=
  let selects := isRemoteAttempt teamId taskId attemptId ownerIncarnation
  match store.tasks.find?
      (isRemotelySuspendable store.toAgentTables teamId taskId attemptId ownerIncarnation) with
  | none => .ok (store, false)
  | some task =>
    if owned = false then .error .chatRejected
    else do
      let store ← store.updateTasks
        (fun row => row.id = taskId ∧ row.teamId = teamId ∧ row.status = .running)
        (AgentTask.setStatus .waiting now)
      if store.attempts.countP selects ≠ 1 then .error (.noActiveAttempt taskId)
      else do
        let store ← store.updateAttempts selects fun row => { row with status := .suspended }
        let store ← store.updateInstances
          (fun row => row.id = task.ownerInstanceId ∧ row.teamId = teamId)
          (AgentInstance.setStatusUnlessDraining .waiting)
        return (store, true)

/-- `terminal_task_status` of `close_pre_stream_chat_failure`. -/
def terminalTaskStatus (interruptionReason : Option Text) : AgentTaskStatus :=
  if interruptionReason.isSome then .interrupted else .failed

/-- `terminal_attempt_status` of `close_pre_stream_chat_failure`. -/
def terminalAttemptStatus (interruptionReason : Option Text) : AgentAttemptStatus :=
  if interruptionReason.isSome then .interrupted else .failed

/-- `terminal_instance_status` of `close_pre_stream_chat_failure`. -/
def terminalInstanceStatus (interruptionReason : Option Text) : AgentInstanceStatus :=
  if interruptionReason.isSome then .paused else .idle

/-- The attempts that `close_pre_stream_chat_failure` closes. -/
def isClosableAttempt (taskId : AgentTaskId) (expected : ExpectedAttempt) (row : AgentAttempt) :
    Bool := decide (row.taskId = taskId ∧ row.status = .running) && expected.isMet row

/-- `close_pre_stream_chat_failure` reaches its writes: the task runs and so does the attempt. -/
def isClosable (tables : AgentTables) (taskId : AgentTaskId) (expected : ExpectedAttempt)
    (task : AgentTask) : Bool :=
  decide (task.id = taskId ∧ task.status = .running) &&
  tables.attempts.any (isClosableAttempt taskId expected)

/-- `close_pre_stream_chat_failure`; `owned` says whether the queued run of the message still
has the expected owner. -/
def closePreStreamChatFailure (taskId : AgentTaskId) (expected : ExpectedAttempt)
    (interruptionReason : Option Text) (owned : Bool) (now : Timestamp) (store : AgentStore) :
    Except AgentStoreError (AgentStore × Bool) :=
  let selects := isClosableAttempt taskId expected
  match store.tasks.find? (isClosable store.toAgentTables taskId expected) with
  | none => .ok (store, false)
  | some task =>
    if owned = false then .ok (store, false)
    else do
      let store ← store.updateTasks
        (fun row => row.id = taskId ∧ row.teamId = task.teamId ∧ row.status = .running)
        (AgentTask.setStatus (terminalTaskStatus interruptionReason) now)
      if store.attempts.countP selects ≠ 1 then .error (.noActiveAttempt taskId)
      else do
        let store ← store.updateAttempts selects
          (AgentAttempt.setStatus (terminalAttemptStatus interruptionReason) interruptionReason)
        let store ← store.updateInstances
          (fun row => row.id = task.ownerInstanceId ∧ row.teamId = task.teamId)
          (AgentInstance.setStatusUnlessDraining (terminalInstanceStatus interruptionReason))
        return (store, true)

/-! ## The machine -/

/-- A call of an operation that writes the agent tables. -/
inductive AgentAction where
  | createTeam (team : NewAgentTeam)
  | createInstances (instances : List NewAgentInstance) (maxTeam maxDefinition : Int)
  | transitionTeam (teamId : AgentTeamId) (target : AgentTeamStatus)
  | transitionInstance (instanceId : AgentInstanceId) (target : AgentInstanceStatus)
  | deleteInstance (instanceId : AgentInstanceId)
  | enqueue (task : NewAgentTask) (maxTeam maxInstance maxChat : Int) (now : Timestamp)
  | transfer (teamId : AgentTeamId) (taskId : AgentTaskId) (target : AgentInstanceId)
      (maxTeam maxInstance maxChat : Int) (now : Timestamp)
  | cancelQueued (teamId : AgentTeamId) (taskId : AgentTaskId) (now : Timestamp)
  | cancelSubtree (teamId : AgentTeamId) (rootTaskId : AgentTaskId) (reason : Option Text)
      (now : Timestamp)
  | registerWait (round : WaitRound)
  | deleteDependencies (taskId : AgentTaskId)
  | claim (teamId : AgentTeamId) (taskId : AgentTaskId) (attemptId : AgentAttemptId)
      (ownerIncarnation : Option Text) (now : Timestamp)
  | renewLease (taskId : AgentTaskId) (attemptId : AgentAttemptId) (ownerIncarnation : Text)
      (now : Timestamp)
  | updateState (update : AgentTaskStateUpdate) (now : Timestamp)
  | suspend (teamId : AgentTeamId) (taskId : AgentTaskId) (now : Timestamp)
  | resume (limit : Int) (matching : AgentTask → Bool) (requeued : AgentTaskId → Bool)
      (now : Timestamp)
  | recover (reason : Text) (limit : Int) (now : Timestamp)
  | suspendRemotePlan (teamId : AgentTeamId) (taskId : AgentTaskId) (attemptId : AgentAttemptId)
      (ownerIncarnation : Text) (owned : Bool) (now : Timestamp)
  | closePreStream (taskId : AgentTaskId) (expected : ExpectedAttempt) (reason : Option Text)
      (owned : Bool) (now : Timestamp)

/-- The store that an operation commits. -/
def AgentAction.commit (store : AgentStore) : AgentAction → Except AgentStoreError AgentStore
  | .createTeam team => Prod.fst <$> createAgentTeam team store
  | .createInstances instances maxTeam maxDefinition =>
    Prod.fst <$> createAgentInstancesWithLimits instances maxTeam maxDefinition store
  | .transitionTeam teamId target => Prod.fst <$> transitionAgentTeamStatus teamId target store
  | .transitionInstance instanceId target =>
    Prod.fst <$> transitionAgentInstanceStatus instanceId target store
  | .deleteInstance instanceId => Prod.fst <$> deleteAgentInstance instanceId store
  | .enqueue task maxTeam maxInstance maxChat now =>
    Prod.fst <$> enqueueAgentTaskWithLimits task maxTeam maxInstance maxChat now store
  | .transfer teamId taskId target maxTeam maxInstance maxChat now =>
    Prod.fst <$> transferQueuedAgentTaskWithLimits teamId taskId target maxTeam maxInstance
      maxChat now store
  | .cancelQueued teamId taskId now => Prod.fst <$> cancelQueuedAgentTask teamId taskId now store
  | .cancelSubtree teamId rootTaskId reason now =>
    Prod.fst <$> cancelAgentTaskSubtree teamId rootTaskId reason now store
  | .registerWait round => Prod.fst <$> registerAgentTaskWaitDependencies round store
  | .deleteDependencies taskId => Prod.fst <$> deleteAgentTaskDependencies taskId store
  | .claim teamId taskId attemptId ownerIncarnation now => Prod.fst <$>
    claimRunnableAgentTaskWithOwner teamId taskId attemptId ownerIncarnation now store
  | .renewLease taskId attemptId ownerIncarnation now =>
    Prod.fst <$> renewAgentAttemptLease taskId attemptId ownerIncarnation now store
  | .updateState update now => Prod.fst <$> updateAgentTaskState update now store
  | .suspend teamId taskId now => Prod.fst <$> suspendRunningAgentTask teamId taskId now store
  | .resume limit matching requeued now =>
    Prod.fst <$> resumeSatisfiedAgentTasks limit matching requeued now store
  | .recover reason limit now =>
    Prod.fst <$> recoverInterruptedAgentWaitTasks reason limit now store
  | .suspendRemotePlan teamId taskId attemptId ownerIncarnation owned now => Prod.fst <$>
    suspendRemotePlanTask teamId taskId attemptId ownerIncarnation owned now store
  | .closePreStream taskId expected reason owned now =>
    Prod.fst <$> closePreStreamChatFailure taskId expected reason owned now store

/-- The machine of all callers of the agent store: a failed operation leaves the store as it
was. -/
def agentMachine : Machine AgentStore AgentAction where
  start := .empty
  step store action :=
    match action.commit store with
    | .ok store' => some store'
    | .error _ => some store

end Foco.AgentRuntime
