import Foco.AgentTables
import Foco.Runs
import Mathlib.Data.Char
import Mathlib.Data.List.Lex

/-!
`store/workspace.rs`, the operations on the agent runtime tables. An operation is one
`Immediate` transaction or one guarded statement, so it acts on the store in one piece: it
returns the store it commits, or an error, and then nothing of it stays. An operation that
first reads outside its transaction repeats the read as a guard inside.
-/
namespace Foco.AgentRuntime
open Foco.RustText Foco.AgentDomain Foco.Table Foco.Runs

/-! ## Teams and instances -/

/-- `NewAgentTeam`, without the coordinator's snapshot and worktree. -/
structure NewAgentTeam where
  id : AgentTeamId
  chatId : ChatId
  coordinatorInstanceId : AgentInstanceId
  coordinatorDefinitionId : AgentDefinitionId
  maxConcurrentRuns : Int

/-- `NewAgentInstance`, without its worktree. -/
structure NewAgentInstance where
  id : AgentInstanceId
  teamId : AgentTeamId
  definitionId : AgentDefinitionId
  definitionRevision : Nat
  role : AgentInstanceRole

/-- `INSERT INTO agent_instances`: a new instance is idle and has had no task. -/
def newInstanceRow (id : AgentInstanceId) (teamId : AgentTeamId)
    (definitionId : AgentDefinitionId) (role : AgentInstanceRole) : AgentInstance :=
  { id, teamId, definitionId, role, status := .idle, nextTaskSequence := 0,
    lastScheduledAt := none }

/-- `create_agent_team`. -/
def createAgentTeam (team : NewAgentTeam) (store : AgentStore) : Except AgentStoreError (AgentStore × Unit) :=
  if team.maxConcurrentRuns ≤ 0 then .error .limitNotPositive
  else do
    let store ← store.insertTeam {
      id := team.id, chatId := team.chatId, status := .active,
      coordinatorInstanceId := team.coordinatorInstanceId,
      maxConcurrentRuns := team.maxConcurrentRuns }
    let store ← store.insertInstance (newInstanceRow team.coordinatorInstanceId team.id
      team.coordinatorDefinitionId .coordinator)
    return (store, ())

/-- `create_agent_instances_with_limits`. -/
def createAgentInstancesWithLimits (instances : List NewAgentInstance)
    (maxTeamInstances maxDefinitionInstances : Int) (store : AgentStore) : Except AgentStoreError (AgentStore × Unit) :=
  match instances with
  | [] => .error .noInstancesRequested
  | first :: rest =>
    if maxTeamInstances ≤ 0 ∨ maxDefinitionInstances ≤ 0 then .error .limitNotPositive
    else if rest.any fun row => row.teamId ≠ first.teamId ∨
        row.definitionId ≠ first.definitionId ∨
        row.definitionRevision ≠ first.definitionRevision then .error .instancesDiffer
    else
      match store.teams.find? (fun team => team.id = first.teamId) with
      | none => .error (.notFound .team first.teamId)
      | some team =>
        if team.status ≠ .active then .error (.notAccepting .team first.teamId)
        else if (store.instances.countP (fun row => row.teamId = first.teamId) : Int) +
            instances.length > maxTeamInstances then .error .instanceLimitExceeded
        else if (store.instances.countP (fun row => row.teamId = first.teamId ∧
              row.definitionId = first.definitionId) : Int) +
            instances.length > maxDefinitionInstances then .error .instanceLimitExceeded
        else do
          let store ← instances.foldlM (fun store row => store.insertInstance
            (newInstanceRow row.id row.teamId row.definitionId row.role)) store
          return (store, ())

/-- The statement of `transition_agent_team_status` on the instances of the team: which
statuses it rewrites, and to which. -/
def teamTransitionRewrites : AgentTeamStatus → (AgentInstanceStatus → Bool) × AgentInstanceStatus
  | .active => (fun status => status = .paused || status = .failed, .idle)
  | .paused => (fun status => status = .idle, .paused)
  | .draining => (fun status => status = .idle || status = .paused, .draining)
  | .stopped => (fun _ => true, .stopped)
  | .failed => (fun status => status ≠ .stopped, .failed)

/-- `agent_team_workload` has no queued, running or waiting task. -/
def teamIsIdle (tables : AgentTables) (teamId : AgentTeamId) : Bool :=
  !tables.tasks.any fun task => task.teamId = teamId && task.status.holdsQueueHead

/-- `transition_agent_team_status`. -/
def transitionAgentTeamStatus (teamId : AgentTeamId) (target : AgentTeamStatus)
    (store : AgentStore) : Except AgentStoreError (AgentStore × Bool) :=
  match store.teams.find? (fun team => team.id = teamId) with
  | none => .error (.notFound .team teamId)
  | some current => do
    let _ ← (current.status.transitionTo target).mapError .domain
    if target = .stopped ∧ teamIsIdle store.toAgentTables teamId = false then
      .error (.domain .teamBusy)
    else
      let selects := fun (team : AgentTeam) => decide (team.id = teamId) &&
        decide (team.status = current.status) &&
        (decide (target ≠ .stopped) || teamIsIdle store.toAgentTables teamId)
      if store.teams.countP selects ≠ 1 then .error .changedDuringTransition
      else do
        let store ← store.updateTeams selects fun team => { team with status := target }
        let store ← store.updateInstances
          (fun row => decide (row.teamId = teamId) && (teamTransitionRewrites target).1 row.status)
          (AgentInstance.setStatus (teamTransitionRewrites target).2)
        return (store, true)

/-- The tasks that `transition_agent_instance_status` to a status does not tolerate. -/
def blocksInstanceTransition (target : AgentInstanceStatus) (status : AgentTaskStatus) : Bool :=
  match target with
  | .paused | .draining => status.isActive
  | .stopped => status.holdsQueueHead
  | _ => false

/-- `transition_agent_instance_status`. -/
def transitionAgentInstanceStatus (instanceId : AgentInstanceId) (target : AgentInstanceStatus)
    (store : AgentStore) : Except AgentStoreError (AgentStore × Bool) :=
  match store.instances.find? (fun row => row.id = instanceId) with
  | none => .error (.notFound .agentInstance instanceId)
  | some current => do
    let _ ← (current.status.transitionTo target).mapError .domain
    if store.tasks.any fun task => decide (task.ownerInstanceId = instanceId) &&
        blocksInstanceTransition target task.status then .error (.activeTasks instanceId)
    else
      let selects := fun (row : AgentInstance) =>
        decide (row.id = instanceId) && decide (row.status = current.status)
      if store.instances.countP selects ≠ 1 then .error .changedDuringTransition
      else do
        let store ← store.updateInstances selects (AgentInstance.setStatus target)
        return (store, true)

/-- `DELETE FROM agent_instances` with what the foreign keys delete along with it. A task
that refers to a deleted instance or task and stays fails the check of the write. -/
def withoutInstance (tables : AgentTables) (instanceId : AgentInstanceId) : AgentTables :=
  let gone := (tables.tasks.filter fun task => task.ownerInstanceId = instanceId).map AgentTask.id
  { teams := tables.teams
    instances := tables.instances.filter fun row => row.id ≠ instanceId
    tasks := tables.tasks.filter fun task => task.ownerInstanceId ≠ instanceId
    attempts := tables.attempts.filter fun attempt => attempt.taskId ∉ gone
    dependencies := tables.dependencies.filter fun row =>
      row.waitingTaskId ∉ gone ∧ row.dependencyTaskId ∉ gone
    subtreeCancellations := tables.subtreeCancellations.filter fun row => row.rootTaskId ∉ gone }

/-- `delete_agent_instance`. -/
def deleteAgentInstance (instanceId : AgentInstanceId) (store : AgentStore) : Except AgentStoreError (AgentStore × Bool) :=
  match store.instances.find? (fun row => row.id = instanceId) with
  | none => .error (.notFound .agentInstance instanceId)
  | some row =>
    match store.teams.find? (fun team => team.id = row.teamId) with
    | none => .error (.notFound .team row.teamId)
    | some team =>
      if team.coordinatorInstanceId = instanceId then .error .coordinatorInUse
      else if store.tasks.any fun task => decide (task.ownerInstanceId = instanceId) &&
          task.status.holdsQueueHead then .error (.activeTasks instanceId)
      else do
        let store ← (withoutInstance store.toAgentTables instanceId).write
        return (store, true)

/-! ## The queue -/

/-- `NewAgentTask`. -/
structure NewAgentTask where
  id : AgentTaskId
  teamId : AgentTeamId
  ownerInstanceId : AgentInstanceId
  originInstanceId : Option AgentInstanceId
  parentTaskId : Option AgentTaskId
  inputJson : Json

/-- `ensure_agent_entity_team` on instances. -/
def ensureAgentInstanceTeam (tables : AgentTables) (instanceId : AgentInstanceId)
    (expectedTeamId : AgentTeamId) : Except AgentStoreError Unit :=
  match tables.instances.find? (fun row => row.id = instanceId) with
  | none => .error (.notFound .agentInstance instanceId)
  | some row =>
    if row.teamId = expectedTeamId then .ok ()
    else .error (.domain (.crossTeamReference .agentInstance instanceId))

/-- `ensure_agent_entity_team` on tasks. -/
def ensureAgentTaskTeam (tables : AgentTables) (taskId : AgentTaskId)
    (expectedTeamId : AgentTeamId) : Except AgentStoreError Unit :=
  match tables.tasks.find? (fun row => row.id = taskId) with
  | none => .error (.notFound .task taskId)
  | some row =>
    if row.teamId = expectedTeamId then .ok ()
    else .error (.domain (.crossTeamReference .task taskId))

/-- The recursive query for a task and its ancestors. A chain without repetition is no longer
than the table, so that much fuel collects them all. -/
def ancestors (tables : AgentTables) (teamId : AgentTeamId) :
    Nat → AgentTaskId → List AgentTaskId
  | 0, _ => []
  | fuel + 1, taskId =>
    match (tables.tasks.find? fun row => row.id = taskId ∧ row.teamId = teamId).bind
        AgentTask.parentTaskId with
    | none => [taskId]
    | some parent => taskId :: ancestors tables teamId fuel parent

/-- The checks of `enqueue_agent_task_with_limits` on the parent task. -/
def ensureParentAccepts (tables : AgentTables) (teamId : AgentTeamId)
    (parentTaskId : AgentTaskId) : Except AgentStoreError Unit := do
  ensureAgentTaskTeam tables parentTaskId teamId
  if tables.tasks.any fun row => decide (row.id = parentTaskId) && !row.status.holdsQueueHead then
    .error (.notAccepting .task parentTaskId)
  else if tables.subtreeCancellations.any fun row => decide (row.teamId = teamId) &&
      decide (row.rootTaskId ∈ ancestors tables teamId tables.tasks.length parentTaskId) then
    .error (.subtreeCancelled parentTaskId)
  else .ok ()

/-- `COUNT(*)` of the queued tasks of a team. -/
def teamQueued (tables : AgentTables) (teamId : AgentTeamId) : Int :=
  tables.tasks.countP fun row => row.teamId = teamId ∧ row.status = .queued

/-- `COUNT(*)` of the queued tasks of an instance. -/
def instanceQueued (tables : AgentTables) (instanceId : AgentInstanceId) : Int :=
  tables.tasks.countP fun row => row.ownerInstanceId = instanceId ∧ row.status = .queued

/-- The check of the owner and its team: the owner's row when both take new tasks. -/
def acceptingOwner (tables : AgentTables) (teamId : AgentTeamId)
    (instanceId : AgentInstanceId) : Except AgentStoreError AgentInstance :=
  match tables.teams.find? (fun team => team.id = teamId),
    tables.instances.find? (fun row => row.id = instanceId ∧ row.teamId = teamId) with
  | some team, some owner =>
    if team.status ≠ .active then .error (.notAccepting .team teamId)
    else if owner.status ≠ .idle ∧ owner.status ≠ .running then
      .error (.notAccepting .agentInstance instanceId)
    else .ok owner
  | _, _ => .error (.notFound .agentInstance instanceId)

/-- `enqueue_agent_task_with_limits`. -/
def enqueueAgentTaskWithLimits (task : NewAgentTask)
    (maxTeamQueued maxInstanceQueued maxChatQueued : Int) (now : Timestamp)
    (store : AgentStore) : Except AgentStoreError (AgentStore × Unit) :=
  if maxTeamQueued ≤ 0 ∨ maxInstanceQueued ≤ 0 ∨ maxChatQueued ≤ 0 then
    .error .limitNotPositive
  else do
    ensureAgentInstanceTeam store.toAgentTables task.ownerInstanceId task.teamId
    task.originInstanceId.toList.forM fun origin =>
      ensureAgentInstanceTeam store.toAgentTables origin task.teamId
    task.parentTaskId.toList.forM fun parent =>
      ensureParentAccepts store.toAgentTables task.teamId parent
    let owner ← acceptingOwner store.toAgentTables task.teamId task.ownerInstanceId
    let queued := teamQueued store.toAgentTables task.teamId
    if queued ≥ maxTeamQueued ∨ queued ≥ maxChatQueued then .error .queueFull
    else if instanceQueued store.toAgentTables task.ownerInstanceId ≥ maxInstanceQueued then
      .error .queueFull
    else do
      let store ← store.updateInstances
        (fun row => row.id = task.ownerInstanceId ∧ row.teamId = task.teamId)
        AgentInstance.countTask
      let store ← store.insertTask {
        id := task.id, teamId := task.teamId, ownerInstanceId := task.ownerInstanceId,
        originInstanceId := task.originInstanceId, parentTaskId := task.parentTaskId,
        sequence := owner.nextTaskSequence, status := .queued, inputJson := task.inputJson,
        createdAt := now, updatedAt := now }
      return (store, ())

/-- `transfer_queued_agent_task_with_limits`: the row of the task afterwards. -/
def transferQueuedAgentTaskWithLimits (teamId : AgentTeamId) (taskId : AgentTaskId)
    (targetInstanceId : AgentInstanceId) (maxTeamQueued maxInstanceQueued maxChatQueued : Int)
    (now : Timestamp) (store : AgentStore) : Except AgentStoreError (AgentStore × Option AgentTask) :=
  if maxTeamQueued ≤ 0 ∨ maxInstanceQueued ≤ 0 ∨ maxChatQueued ≤ 0 then
    .error .limitNotPositive
  else
    match store.tasks.find? (fun row => row.id = taskId ∧ row.teamId = teamId),
      store.teams.find? (fun team => team.id = teamId),
      store.instances.find? (fun row => row.id = targetInstanceId ∧ row.teamId = teamId) with
    | some task, some team, some target =>
      if task.status ≠ .queued then .error (.notAccepting .task taskId)
      else if team.status ≠ .active ∧ team.status ≠ .draining then
        .error (.notAccepting .team teamId)
      else if target.status ≠ .idle ∧ target.status ≠ .running then
        .error (.notAccepting .agentInstance targetInstanceId)
      else if task.ownerInstanceId = targetInstanceId then .ok (store, some task)
      else if instanceQueued store.toAgentTables targetInstanceId ≥ maxInstanceQueued then
        .error .queueFull
      else do
        let store ← store.updateInstances
          (fun row => row.id = targetInstanceId ∧ row.teamId = teamId)
          AgentInstance.countTask
        let store ← store.updateTasks
          (fun row => row.teamId = teamId ∧ row.id = taskId ∧ row.status = .queued)
          fun row => { row with
            ownerInstanceId := targetInstanceId, sequence := target.nextTaskSequence,
            updatedAt := now }
        return (store, store.tasks.find? fun row => row.id = taskId)
    | _, _, _ => .ok (store, none)

/-- `cancel_queued_agent_task`. -/
def cancelQueuedAgentTask (teamId : AgentTeamId) (taskId : AgentTaskId) (now : Timestamp)
    (store : AgentStore) : Except AgentStoreError (AgentStore × Bool) := do
  let selects := fun (row : AgentTask) =>
    decide (row.teamId = teamId ∧ row.id = taskId ∧ row.status = .queued)
  let updated := store.tasks.countP selects
  let store ← store.updateTasks selects (AgentTask.setStatus .cancelled now)
  return (store, updated = 1)

/-! ## Cancelling a subtree -/

/-- The result of `cancel_agent_task_subtree`. -/
structure SubtreeCancellationResult where
  runningTaskIds : List AgentTaskId
  cancelledTasks : List AgentTask

/-- The recursive query for the subtree of a task: the children of what is found are added
until nothing is new. Every round adds a row, so the table's length is fuel enough. -/
def subtreeIds (tables : AgentTables) (teamId : AgentTeamId) :
    Nat → List AgentTaskId → List AgentTaskId
  | 0, found => found
  | fuel + 1, found =>
    let children := (tables.tasks.filter fun row => decide (row.teamId = teamId) &&
      decide (row.id ∉ found) && row.parentTaskId.any fun parent => decide (parent ∈ found)).map
        AgentTask.id
    if children.isEmpty then found else subtreeIds tables teamId fuel (found ++ children)

/-- `ORDER BY` over several columns. -/
def orderBy (columns : List Ordering) : Bool := (columns.foldr Ordering.then .eq).isLE

/-- The order of two texts. -/
def compareText (first second : Text) : Ordering := compareOfLessAndEq first second

/-- The rows of the subtree, `ORDER BY task.created_at, task.id`. -/
def subtreeTasks (tables : AgentTables) (teamId : AgentTeamId) (rootTaskId : AgentTaskId) :
    List AgentTask :=
  let roots := (tables.tasks.filter fun row => row.teamId = teamId ∧ row.id = rootTaskId).map
    AgentTask.id
  let found := subtreeIds tables teamId tables.tasks.length roots
  sortBy (fun first second => orderBy
      [compareText first.createdAt second.createdAt, compare first.id second.id])
    (tables.tasks.filter fun row => row.teamId = teamId ∧ row.id ∈ found)

/-- The cancellation row of a subtree that was found. -/
def recordSubtreeCancellation (teamId : AgentTeamId) (rootTaskId : AgentTaskId)
    (subtree : List AgentTask) (store : AgentStore) : Except AgentStoreError AgentStore :=
  if subtree.isEmpty then .ok store else store.insertCancellation { teamId, rootTaskId }

/-- What `cancel_agent_task_subtree` does to the attempt and the owner of a waiting task. -/
def cancelSuspendedAttempt (teamId : AgentTeamId) (interruptionReason : Option Text)
    (task : AgentTask) (store : AgentStore) : Except AgentStoreError AgentStore :=
  let selects := fun (row : AgentAttempt) =>
    decide (row.taskId = task.id ∧ row.teamId = teamId ∧ row.status = .suspended)
  if task.status ≠ .waiting then .ok store
  else if store.attempts.countP selects ≠ 1 then .error (.noSuspendedAttempt task.id)
  else do
    let store ← store.updateAttempts selects (AgentAttempt.setStatus .cancelled interruptionReason)
    store.updateInstances
      (fun row => row.id = task.ownerInstanceId ∧ row.teamId = teamId ∧
        (row.status = .waiting ∨ row.status = .draining))
      (AgentInstance.setStatusUnlessDraining .idle)

/-- The body of the loop of `cancel_agent_task_subtree`. -/
def cancelSubtreeTask (teamId : AgentTeamId) (interruptionReason : Option Text)
    (now : Timestamp) (store : AgentStore) (task : AgentTask) :
    Except AgentStoreError AgentStore :=
  let selects := fun (row : AgentTask) =>
    decide (row.teamId = teamId ∧ row.id = task.id ∧
      (row.status = .queued ∨ row.status = .waiting))
  if store.tasks.countP selects ≠ 1 then .error (.changedDuringCancellation task.id)
  else do
    let store ← store.updateTasks selects (AgentTask.setStatus .cancelled now)
    let store ← cancelSuspendedAttempt teamId interruptionReason task store
    store.deleteDependencies task.id

/-- `cancel_agent_task_subtree`. -/
def cancelAgentTaskSubtree (teamId : AgentTeamId) (rootTaskId : AgentTaskId)
    (interruptionReason : Option Text) (now : Timestamp) (store : AgentStore) :
    Except AgentStoreError (AgentStore × SubtreeCancellationResult) := do
  let subtree := subtreeTasks store.toAgentTables teamId rootTaskId
  let cancellable := subtree.filter fun task => task.status = .queued ∨ task.status = .waiting
  let store ← recordSubtreeCancellation teamId rootTaskId subtree store
  let store ← cancellable.foldlM (cancelSubtreeTask teamId interruptionReason now) store
  return (store, {
    runningTaskIds := (subtree.filter fun task => task.status = .running).map AgentTask.id
    cancelledTasks := cancellable.map (AgentTask.setStatus .cancelled now) })

/-! ## Dependencies -/

/-- The task has a dependency row. -/
def hasDependencies (tables : AgentTables) (taskId : AgentTaskId) : Bool :=
  tables.dependencies.any fun dependency => dependency.waitingTaskId = taskId

/-- A deadline of the wait has passed. -/
def waitDeadlinePassed (tables : AgentTables) (now : Timestamp) (taskId : AgentTaskId) : Bool :=
  tables.dependencies.any fun dependency => decide (dependency.waitingTaskId = taskId) &&
    dependency.deadlineAt.any fun deadline => decide (deadline ≤ now)

/-- The wait is for all its dependencies, and each is terminal. -/
def allDependenciesTerminal (tables : AgentTables) (taskId : AgentTaskId) : Bool :=
  (tables.dependencies.any fun dependency => decide (dependency.waitingTaskId = taskId) &&
    decide (dependency.waitMode = .all)) &&
  !tables.dependencies.any fun dependency => decide (dependency.waitingTaskId = taskId) &&
    tables.tasks.any fun required => decide (required.id = dependency.dependencyTaskId) &&
      !required.status.isTerminal

/-- The wait is for any of its dependencies, and one is terminal. -/
def anyDependencyTerminal (tables : AgentTables) (taskId : AgentTaskId) : Bool :=
  tables.dependencies.any fun dependency => decide (dependency.waitingTaskId = taskId) &&
    (tables.tasks.any fun required => decide (required.id = dependency.dependencyTaskId) &&
      decide (dependency.waitMode = .any) && required.status.isTerminal)

/-- `RegisterAgentTaskWaitDependencies`. -/
structure WaitRound where
  teamId : AgentTeamId
  waitingTaskId : AgentTaskId
  dependencyTaskIds : List AgentTaskId
  waitMode : AgentTaskWaitMode
  pendingToolCallId : Option Text
  deadlineAt : Option Timestamp

/-- `AgentTaskWaitRegistrationOutcome`. -/
inductive WaitRegistrationOutcome where
  | created | replayed | repaired | replaced
  deriving DecidableEq

/-- `dedupe_agent_wait_dependency_task_ids`: the ids, if none is given twice. -/
def dedupeWaitDependencies : List AgentTaskId → Except AgentStoreError Unit
  | [] => .ok ()
  | id :: rest =>
    if id ∈ rest then .error (.duplicateDependency id) else dedupeWaitDependencies rest

/-- The recursive query of `agent_dependency_path_exists`: what is found grows by what it waits
for until nothing is new. -/
def dependencyPath (tables : AgentTables) (teamId : AgentTeamId) :
    Nat → List AgentTaskId → List AgentTaskId
  | 0, found => found
  | fuel + 1, found =>
    let next := (tables.dependencies.filter fun row => row.teamId = teamId ∧
      row.waitingTaskId ∈ found ∧ row.dependencyTaskId ∉ found).map
        AgentTaskDependency.dependencyTaskId
    if next.isEmpty then found else dependencyPath tables teamId fuel (found ++ next)

/-- `agent_dependency_path_exists`. -/
def dependencyPathExists (tables : AgentTables) (teamId : AgentTeamId)
    (startTaskId targetTaskId : AgentTaskId) : Bool :=
  decide (targetTaskId ∈ dependencyPath tables teamId tables.dependencies.length [startTaskId])

/-- The check of one dependency of a wait round. -/
def ensureDependency (tables : AgentTables) (round : WaitRound) (dependency : AgentTaskId) :
    Except AgentStoreError Unit := do
  ensureAgentTaskTeam tables dependency round.teamId
  if dependency = round.waitingTaskId ∨
      dependencyPathExists tables round.teamId dependency round.waitingTaskId then
    .error (.domain (.dependencyCycle round.waitingTaskId))
  else .ok ()

/-- `insert_agent_task_dependency_rows`. -/
def insertDependencyRows (round : WaitRound) (dependencies : List AgentTaskId)
    (store : AgentStore) : Except AgentStoreError AgentStore :=
  dependencies.foldlM (fun store dependency => store.insertDependency {
    teamId := round.teamId, waitingTaskId := round.waitingTaskId,
    dependencyTaskId := dependency, waitMode := round.waitMode,
    pendingToolCallId := round.pendingToolCallId, deadlineAt := round.deadlineAt }) store

/-- `existing_rows_match_wait_round`. -/
def matchesWaitRound (round : WaitRound) (row : AgentTaskDependency) : Bool :=
  row.waitMode = round.waitMode ∧ row.pendingToolCallId = round.pendingToolCallId ∧
    row.deadlineAt = round.deadlineAt

/-- `existing_wait_round_is_terminal`. -/
def waitRoundIsTerminal (tables : AgentTables) (existing : List AgentTaskDependency) : Bool :=
  existing.all fun row => tables.tasks.any fun task =>
    decide (task.id = row.dependencyTaskId) && task.status.isTerminal

/-- The body of the transaction of `register_agent_task_wait_dependencies`, after its checks. -/
def storeWaitRound (round : WaitRound) (store : AgentStore) :
    Except AgentStoreError (AgentStore × WaitRegistrationOutcome) :=
  let existing := store.dependencies.filter fun row => row.waitingTaskId = round.waitingTaskId
  let existingIds := existing.map AgentTaskDependency.dependencyTaskId
  if existing.isEmpty then do
    let store ← insertDependencyRows round round.dependencyTaskIds store
    return (store, .created)
  else if existing.all (matchesWaitRound round) then
    if existingIds.all (· ∈ round.dependencyTaskIds) then
      if round.dependencyTaskIds.all (· ∈ existingIds) then .ok (store, .replayed)
      else do
        let store ← insertDependencyRows round
          (round.dependencyTaskIds.filter (· ∉ existingIds)) store
        return (store, .repaired)
    else .error (.waitRoundChanged round.waitingTaskId)
  else if existing.all fun row => row.pendingToolCallId = round.pendingToolCallId then
    .error (.waitRoundConflict round.waitingTaskId)
  else if waitRoundIsTerminal store.toAgentTables existing then do
    let store ← store.deleteDependencies round.waitingTaskId
    let store ← insertDependencyRows round round.dependencyTaskIds store
    return (store, .replaced)
  else .error (.waitRoundOpen round.waitingTaskId)

/-- `register_agent_task_wait_dependencies`. -/
def registerAgentTaskWaitDependencies (round : WaitRound) (store : AgentStore) :
    Except AgentStoreError (AgentStore × WaitRegistrationOutcome) := do
  dedupeWaitDependencies round.dependencyTaskIds
  if round.dependencyTaskIds.isEmpty then .error .emptyWaitRound
  else if round.pendingToolCallId.any fun id => (trim id).isEmpty then
    .error .emptyPendingToolCall
  else do
    ensureAgentTaskTeam store.toAgentTables round.waitingTaskId round.teamId
    round.dependencyTaskIds.forM (ensureDependency store.toAgentTables round)
    storeWaitRound round store

/-- `delete_agent_task_dependencies`: the number of deleted rows. -/
def deleteAgentTaskDependencies (taskId : AgentTaskId) (store : AgentStore) :
    Except AgentStoreError (AgentStore × Nat) := do
  let deleted := store.dependencies.countP fun row => row.waitingTaskId = taskId
  let store ← store.deleteDependencies taskId
  return (store, deleted)

end Foco.AgentRuntime
