import Foco.AgentDomain
import Foco.Json
import Foco.Table

/-!
`store/workspace_schema.rs` and `store/workspace.rs`, the tables of the agent runtime:
teams, instances, tasks, attempts, dependencies and subtree cancellations, the constraints
of their schema, and the statements that rewrite them. The columns that no operation reads
(results, errors, start and completion times, snapshots, worktrees) are left out, and so
are the chat rows.
-/
namespace Foco.AgentRuntime
open Foco.RustText Foco.AgentDomain Foco.Table

abbrev AgentTeamId := Nat
abbrev AgentInstanceId := Nat
abbrev AgentDefinitionId := Nat
abbrev AgentTaskId := Nat
abbrev AgentAttemptId := Nat
abbrev ChatId := Nat

/-- A reference to a row of a team is looked up by equality of both ids. -/
instance lawfulBEqReference : LawfulBEq (AgentTeamId × AgentInstanceId) := inferInstance

/-- A time as the store keeps it: RFC 3339 text, which SQLite compares as text. -/
abbrev Timestamp := Text

/-! ## Rows -/

/-- `AgentInstanceRole`. -/
inductive AgentInstanceRole where
  | coordinator | worker
  deriving DecidableEq

/-- A row of `agent_teams`. -/
structure AgentTeam where
  id : AgentTeamId
  chatId : ChatId
  coordinatorInstanceId : AgentInstanceId
  status : AgentTeamStatus
  maxConcurrentRuns : Int

/-- A row of `agent_instances`. -/
structure AgentInstance where
  id : AgentInstanceId
  teamId : AgentTeamId
  definitionId : AgentDefinitionId
  role : AgentInstanceRole
  status : AgentInstanceStatus
  nextTaskSequence : Nat
  lastScheduledAt : Option Timestamp

/-- A row of `agent_tasks`. -/
structure AgentTask where
  id : AgentTaskId
  teamId : AgentTeamId
  ownerInstanceId : AgentInstanceId
  originInstanceId : Option AgentInstanceId
  parentTaskId : Option AgentTaskId
  sequence : Nat
  status : AgentTaskStatus
  inputJson : Json
  createdAt : Timestamp
  updatedAt : Timestamp

/-- A row of `agent_attempts`. -/
structure AgentAttempt where
  id : AgentAttemptId
  teamId : AgentTeamId
  taskId : AgentTaskId
  sequence : Nat
  status : AgentAttemptStatus
  interruptionReason : Option Text
  ownerIncarnation : Option Text
  leaseRenewedAt : Option Timestamp

/-- A row of `agent_task_dependencies`. -/
structure AgentTaskDependency where
  teamId : AgentTeamId
  waitingTaskId : AgentTaskId
  dependencyTaskId : AgentTaskId
  waitMode : AgentTaskWaitMode
  pendingToolCallId : Option Text
  deadlineAt : Option Timestamp

/-- A row of `agent_task_subtree_cancellations`. -/
structure AgentTaskSubtreeCancellation where
  teamId : AgentTeamId
  rootTaskId : AgentTaskId
  deriving DecidableEq

/-- `(team_id, id)`, the key that rows of other tables refer to. -/
def AgentInstance.key (row : AgentInstance) : AgentTeamId × AgentInstanceId := (row.teamId, row.id)

@[inherit_doc AgentInstance.key]
def AgentTask.key (row : AgentTask) : AgentTeamId × AgentTaskId := (row.teamId, row.id)

/-- `SET status = …, updated_at = …`. -/
def AgentTask.setStatus (status : AgentTaskStatus) (now : Timestamp) (row : AgentTask) :
    AgentTask := { row with status, updatedAt := now }

/-- `SET status = …`. -/
def AgentInstance.setStatus (status : AgentInstanceStatus) (row : AgentInstance) :
    AgentInstance := { row with status }

/-- `SET status = CASE WHEN status = 'draining' THEN 'draining' ELSE … END`. -/
def AgentInstance.setStatusUnlessDraining (status : AgentInstanceStatus) (row : AgentInstance) :
    AgentInstance := row.setStatus (if row.status = .draining then .draining else status)

/-- `SET next_task_sequence = next_task_sequence + 1`. -/
def AgentInstance.countTask (row : AgentInstance) : AgentInstance :=
  { row with nextTaskSequence := row.nextTaskSequence + 1 }

/-- `SET status = …, interruption_reason = …`. -/
def AgentAttempt.setStatus (status : AgentAttemptStatus) (interruptionReason : Option Text)
    (row : AgentAttempt) : AgentAttempt := { row with status, interruptionReason }

@[simp] theorem AgentTask.setStatus_id {s : AgentTaskStatus} {t : Timestamp} {row : AgentTask} :
    (row.setStatus s t).id = row.id := rfl

@[simp] theorem AgentTask.setStatus_ownerInstanceId {s : AgentTaskStatus} {t : Timestamp}
    {row : AgentTask} : (row.setStatus s t).ownerInstanceId = row.ownerInstanceId := rfl

@[simp] theorem AgentTask.setStatus_status {s : AgentTaskStatus} {t : Timestamp}
    {row : AgentTask} : (row.setStatus s t).status = s := rfl

@[simp] theorem AgentInstance.setStatus_status {s : AgentInstanceStatus} {row : AgentInstance} :
    (row.setStatus s).status = s := rfl

@[simp] theorem AgentAttempt.setStatus_status {s : AgentAttemptStatus} {r : Option Text}
    {row : AgentAttempt} : (row.setStatus s r).status = s := rfl

/-- The tables, each in the order its rows were inserted. -/
structure AgentTables where
  teams : List AgentTeam
  instances : List AgentInstance
  tasks : List AgentTask
  attempts : List AgentAttempt
  dependencies : List AgentTaskDependency
  subtreeCancellations : List AgentTaskSubtreeCancellation

/-! ## The schema -/

/-- The constraints on teams and instances. -/
structure TeamSchema (tables : AgentTables) : Prop where
  teamIds : Unique AgentTeam.id tables.teams
  teamChats : Unique AgentTeam.chatId tables.teams
  instanceIds : Unique AgentInstance.id tables.instances
  oneCoordinator : UniqueWhere (fun row => decide (row.role = .coordinator))
    AgentInstance.teamId tables.instances
  instanceTeams : ∀ row ∈ tables.instances, row.teamId ∈ tables.teams.map AgentTeam.id

/-- The constraints on tasks, `agent_tasks_one_active_per_instance_idx` among them. -/
structure TaskSchema (tables : AgentTables) : Prop where
  ids : Unique AgentTask.id tables.tasks
  sequences : Unique (fun row => (row.ownerInstanceId, row.sequence)) tables.tasks
  oneActivePerInstance : UniqueWhere (fun row => row.status.isActive)
    AgentTask.ownerInstanceId tables.tasks
  owners : ∀ row ∈ tables.tasks,
    (row.teamId, row.ownerInstanceId) ∈ tables.instances.map AgentInstance.key
  origins : ∀ row ∈ tables.tasks, ∀ origin ∈ row.originInstanceId.toList,
    (row.teamId, origin) ∈ tables.instances.map AgentInstance.key
  parents : ∀ row ∈ tables.tasks, ∀ parent ∈ row.parentTaskId.toList,
    (row.teamId, parent) ∈ tables.tasks.map AgentTask.key

/-- The constraints on attempts, `agent_attempts_one_active_per_task_idx` among them. -/
structure AttemptSchema (tables : AgentTables) : Prop where
  ids : Unique AgentAttempt.id tables.attempts
  sequences : Unique (fun row => (row.taskId, row.sequence)) tables.attempts
  oneActivePerTask : UniqueWhere (fun row => decide (row.status = .running))
    AgentAttempt.taskId tables.attempts
  tasks : ∀ row ∈ tables.attempts, (row.teamId, row.taskId) ∈ tables.tasks.map AgentTask.key

/-- The constraints on dependencies and subtree cancellations. -/
structure DependencySchema (tables : AgentTables) : Prop where
  keys : Unique (fun row => (row.waitingTaskId, row.dependencyTaskId)) tables.dependencies
  notSelf : ∀ row ∈ tables.dependencies, row.waitingTaskId ≠ row.dependencyTaskId
  waiting : ∀ row ∈ tables.dependencies,
    (row.teamId, row.waitingTaskId) ∈ tables.tasks.map AgentTask.key
  required : ∀ row ∈ tables.dependencies,
    (row.teamId, row.dependencyTaskId) ∈ tables.tasks.map AgentTask.key
  cancellations : Unique (fun row => (row.teamId, row.rootTaskId)) tables.subtreeCancellations
  roots : ∀ row ∈ tables.subtreeCancellations,
    (row.teamId, row.rootTaskId) ∈ tables.tasks.map AgentTask.key

/-- Everything the database checks when a statement writes. -/
structure Schema (tables : AgentTables) : Prop where
  teams : TeamSchema tables
  tasks : TaskSchema tables
  attempts : AttemptSchema tables
  dependencies : DependencySchema tables

instance (tables : AgentTables) : Decidable (TeamSchema tables) :=
  decidable_of_iff (_ ∧ _ ∧ _ ∧ _ ∧ _)
    ⟨fun ⟨a, b, c, d, e⟩ => ⟨a, b, c, d, e⟩, fun ⟨a, b, c, d, e⟩ => ⟨a, b, c, d, e⟩⟩

instance (tables : AgentTables) : Decidable (TaskSchema tables) :=
  decidable_of_iff (_ ∧ _ ∧ _ ∧ _ ∧ _ ∧ _)
    ⟨fun ⟨a, b, c, d, e, f⟩ => ⟨a, b, c, d, e, f⟩, fun ⟨a, b, c, d, e, f⟩ => ⟨a, b, c, d, e, f⟩⟩

instance (tables : AgentTables) : Decidable (AttemptSchema tables) :=
  decidable_of_iff (_ ∧ _ ∧ _ ∧ _)
    ⟨fun ⟨a, b, c, d⟩ => ⟨a, b, c, d⟩, fun ⟨a, b, c, d⟩ => ⟨a, b, c, d⟩⟩

instance (tables : AgentTables) : Decidable (DependencySchema tables) :=
  decidable_of_iff (_ ∧ _ ∧ _ ∧ _ ∧ _ ∧ _)
    ⟨fun ⟨a, b, c, d, e, f⟩ => ⟨a, b, c, d, e, f⟩, fun ⟨a, b, c, d, e, f⟩ => ⟨a, b, c, d, e, f⟩⟩

instance (tables : AgentTables) : Decidable (Schema tables) :=
  decidable_of_iff (_ ∧ _ ∧ _ ∧ _)
    ⟨fun ⟨a, b, c, d⟩ => ⟨a, b, c, d⟩, fun ⟨a, b, c, d⟩ => ⟨a, b, c, d⟩⟩

/-- A database state: tables that meet the schema. -/
structure AgentStore extends AgentTables where
  schema : Schema toAgentTables

theorem AgentStore.eq_of_tables {store store' : AgentStore}
    (same : store'.toAgentTables = store.toAgentTables) : store' = store := by
  cases store
  cases store'
  cases same
  rfl

/-- The store of a new workspace. -/
def AgentStore.empty : AgentStore := ⟨⟨[], [], [], [], [], []⟩, by decide⟩

/-! ## Errors and statements -/

/-- Why an operation fails: the domain refuses, the database refuses a row, or one of the
operation's own checks does. -/
inductive AgentStoreError where
  | domain (error : AgentDomainError)
  | constraint
  | notFound (entity : AgentEntityKind) (id : Nat)
  | limitNotPositive
  | noInstancesRequested
  | instancesDiffer
  | instanceLimitExceeded
  | notAccepting (entity : AgentEntityKind) (id : Nat)
  | subtreeCancelled (taskId : AgentTaskId)
  | queueFull
  | changedDuringTransition
  | activeTasks (instanceId : AgentInstanceId)
  | coordinatorInUse
  | changedDuringCancellation (taskId : AgentTaskId)
  | noSuspendedAttempt (taskId : AgentTaskId)
  | noActiveAttempt (taskId : AgentTaskId)
  | emptyOwnerIncarnation
  | startOutsideClaim
  | emptyWaitRound
  | duplicateDependency (taskId : AgentTaskId)
  | emptyPendingToolCall
  | waitRoundChanged (taskId : AgentTaskId)
  | waitRoundConflict (taskId : AgentTaskId)
  | waitRoundOpen (taskId : AgentTaskId)
  | chatRejected
  deriving DecidableEq

/-- The database accepts a write that meets the schema. -/
def AgentTables.write (tables : AgentTables) : Except AgentStoreError AgentStore :=
  if schema : Schema tables then .ok ⟨tables, schema⟩ else .error .constraint

theorem AgentTables.write_eq_ok {tables : AgentTables} {store : AgentStore} :
    tables.write = .ok store ↔ store.toAgentTables = tables := by
  unfold AgentTables.write
  constructor
  · intro h
    split at h
    · cases h
      rfl
    · cases h
  · rintro rfl
    rw [dif_pos store.schema]

/-- A write fails only on a constraint. -/
theorem AgentTables.write_eq_error {tables : AgentTables} {error : AgentStoreError}
    (h : tables.write = .error error) : error = .constraint := by
  unfold AgentTables.write at h
  split at h
  · cases h
  · cases h
    rfl

namespace AgentStore

/-- `UPDATE agent_teams`. -/
def updateTeams (store : AgentStore) (selects : AgentTeam → Bool) (set : AgentTeam → AgentTeam) :
    Except AgentStoreError AgentStore :=
  { store.toAgentTables with teams := update selects set store.teams }.write

/-- `UPDATE agent_instances`. -/
def updateInstances (store : AgentStore) (selects : AgentInstance → Bool)
    (set : AgentInstance → AgentInstance) : Except AgentStoreError AgentStore :=
  { store.toAgentTables with instances := update selects set store.instances }.write

/-- `UPDATE agent_tasks`. -/
def updateTasks (store : AgentStore) (selects : AgentTask → Bool) (set : AgentTask → AgentTask) :
    Except AgentStoreError AgentStore :=
  { store.toAgentTables with tasks := update selects set store.tasks }.write

/-- `UPDATE agent_attempts`. -/
def updateAttempts (store : AgentStore) (selects : AgentAttempt → Bool)
    (set : AgentAttempt → AgentAttempt) : Except AgentStoreError AgentStore :=
  { store.toAgentTables with attempts := update selects set store.attempts }.write

/-- `INSERT INTO agent_teams`. -/
def insertTeam (store : AgentStore) (row : AgentTeam) : Except AgentStoreError AgentStore :=
  { store.toAgentTables with teams := store.teams ++ [row] }.write

/-- `INSERT INTO agent_instances`. -/
def insertInstance (store : AgentStore) (row : AgentInstance) :
    Except AgentStoreError AgentStore :=
  { store.toAgentTables with instances := store.instances ++ [row] }.write

/-- `INSERT INTO agent_tasks`. -/
def insertTask (store : AgentStore) (row : AgentTask) : Except AgentStoreError AgentStore :=
  { store.toAgentTables with tasks := store.tasks ++ [row] }.write

/-- `INSERT INTO agent_attempts`. -/
def insertAttempt (store : AgentStore) (row : AgentAttempt) :
    Except AgentStoreError AgentStore :=
  { store.toAgentTables with attempts := store.attempts ++ [row] }.write

/-- `INSERT INTO agent_task_dependencies`. -/
def insertDependency (store : AgentStore) (row : AgentTaskDependency) :
    Except AgentStoreError AgentStore :=
  { store.toAgentTables with dependencies := store.dependencies ++ [row] }.write

/-- `INSERT OR IGNORE INTO agent_task_subtree_cancellations`. -/
def insertCancellation (store : AgentStore) (row : AgentTaskSubtreeCancellation) :
    Except AgentStoreError AgentStore :=
  if row ∈ store.subtreeCancellations then .ok store
  else { store.toAgentTables with
    subtreeCancellations := store.subtreeCancellations ++ [row] }.write

/-- `DELETE FROM agent_task_dependencies WHERE waiting_task_id = …`. -/
def deleteDependencies (store : AgentStore) (taskId : AgentTaskId) :
    Except AgentStoreError AgentStore :=
  { store.toAgentTables with
    dependencies := store.dependencies.filter fun row => row.waitingTaskId ≠ taskId }.write

end AgentStore
end Foco.AgentRuntime
