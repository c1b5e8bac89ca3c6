import Foco.AgentExecution

/-!
`store/workspace.rs`, wait rounds with the events that record them. Of `agent_events` these
are the rows of type `task_waiting_requested`, which only the registration of a wait round
writes and no operation deletes; their payload stands for itself, since its redaction looks at keys
that it does not have. The foreign keys of an event that would be set null, together with its
team, keep the rows that it names from being deleted.
-/
namespace Foco.AgentRuntime
open Foco.RustText Foco.AgentDomain Foco.Table Foco.Runs

/-! ## Events -/

/-- A row of `agent_events` with its `task_waiting_requested_payload_json`. -/
structure TaskWaitingRequested where
  teamId : AgentTeamId
  instanceId : Option AgentInstanceId
  taskId : AgentTaskId
  pendingToolCallId : Option Text
  dependencyTaskIds : List AgentTaskId
  mode : AgentTaskWaitMode
  deadlineAt : Option Timestamp

/-- The foreign keys of `agent_events`. -/
structure EventSchema (tables : AgentTables) (events : List TaskWaitingRequested) : Prop where
  tasks : ∀ event ∈ events, (event.teamId, event.taskId) ∈ tables.tasks.map AgentTask.key
  instances : ∀ event ∈ events, ∀ instanceId ∈ event.instanceId.toList,
    (event.teamId, instanceId) ∈ tables.instances.map AgentInstance.key

instance (tables : AgentTables) (events : List TaskWaitingRequested) :
    Decidable (EventSchema tables events) :=
  decidable_of_iff (_ ∧ _) ⟨fun ⟨a, b⟩ => ⟨a, b⟩, fun ⟨a, b⟩ => ⟨a, b⟩⟩

/-- The agent tables with their events. -/
structure AgentEventStore where
  agents : AgentStore
  events : List TaskWaitingRequested
  schema : EventSchema agents.toAgentTables events

def AgentEventStore.empty : AgentEventStore := ⟨.empty, [], by decide⟩

/-- The database accepts a write whose events meet their foreign keys. -/
def AgentEventStore.write (agents : AgentStore) (events : List TaskWaitingRequested) :
    Except AgentStoreError AgentEventStore :=
  if schema : EventSchema agents.toAgentTables events then .ok ⟨agents, events, schema⟩
  else .error .constraint

/-! ## Registering a wait round -/

/-- The event of a wait round. -/
def WaitRound.event (round : WaitRound) (eventInstanceId : Option AgentInstanceId) :
    TaskWaitingRequested where
  teamId := round.teamId
  instanceId := eventInstanceId
  taskId := round.waitingTaskId
  pendingToolCallId := round.pendingToolCallId
  dependencyTaskIds := round.dependencyTaskIds
  mode := round.waitMode
  deadlineAt := round.deadlineAt

/-- `task_waiting_requested_event_exists`. -/
def taskWaitingRequestedEventExists (events : List TaskWaitingRequested) (teamId : AgentTeamId)
    (waitingTaskId : AgentTaskId) (pendingToolCallId : Option Text) : Bool :=
  events.any fun event => event.teamId = teamId ∧ event.taskId = waitingTaskId ∧
    event.pendingToolCallId = pendingToolCallId

/-- `ensure_task_waiting_requested_event`: the events afterwards. -/
def ensureTaskWaitingRequestedEvent (round : WaitRound)
    (eventInstanceId : Option AgentInstanceId) (events : List TaskWaitingRequested) :
    List TaskWaitingRequested :=
  if taskWaitingRequestedEventExists events round.teamId round.waitingTaskId
      round.pendingToolCallId then events
  else events ++ [round.event eventInstanceId]

/-- `register_agent_task_wait_dependencies` with its event; each of its outcomes ensures it. -/
def registerWaitRound (round : WaitRound) (eventInstanceId : Option AgentInstanceId)
    (store : AgentEventStore) :
    Except AgentStoreError (AgentEventStore × WaitRegistrationOutcome) := do
  let (agents, outcome) ← registerAgentTaskWaitDependencies round store.agents
  let store ← AgentEventStore.write agents
    (ensureTaskWaitingRequestedEvent round eventInstanceId store.events)
  return (store, outcome)

/-- `agent_wait_covered_dependency_task_ids`, the set as a list. -/
def waitCoveredDependencyTaskIds (teamId : AgentTeamId) (waitingTaskId : AgentTaskId)
    (store : AgentEventStore) : List AgentTaskId :=
  ((store.agents.dependencies.filter fun row => row.waitingTaskId = waitingTaskId).map
      AgentTaskDependency.dependencyTaskId) ++
    (store.events.filter fun event => event.teamId = teamId ∧ event.taskId = waitingTaskId).flatMap
      TaskWaitingRequested.dependencyTaskIds

/-! ## The machine -/

/-- The operation registers a wait round. -/
def AgentAction.registersWait : AgentAction → Bool
  | .registerWait _ => true
  | _ => false

/-- A call of an operation: the registration of a wait round with its event, or another
operation of the agent store, which has no part in these events. -/
inductive AgentEventAction where
  | registerWait (round : WaitRound) (eventInstanceId : Option AgentInstanceId)
  | other (action : AgentAction) (other : action.registersWait = false)

/-- The store that an operation commits. -/
def AgentEventAction.commit (store : AgentEventStore) :
    AgentEventAction → Except AgentStoreError AgentEventStore
  | .registerWait round eventInstanceId =>
    Prod.fst <$> registerWaitRound round eventInstanceId store
  | .other action _ => do
    let agents ← action.commit store.agents
    AgentEventStore.write agents store.events

/-- The machine of all callers: a failed operation leaves the store as it was. -/
def eventMachine : Machine AgentEventStore AgentEventAction where
  start := .empty
  step store action :=
    match action.commit store with
    | .ok store' => some store'
    | .error _ => some store

end Foco.AgentRuntime
