import Foco.AgentEffects
import Foco.AgentEvents
import Mathlib.Logic.Relation

/-!
What single statements of the agent operations may write, for what `TaskMoved` is silent
about: the tree of tasks, the rows of attempts, the dependencies and the subtree cancellations.
Every operation is a sequence of such statements, so what each statement keeps every operation
keeps.
-/
namespace Foco.AgentRuntime
open Foco.RustText Foco.AgentDomain Foco.Table Foco.Result Relation

/-! ## Statements -/

/-- The operation retries a task. -/
def AgentAction.retries (teamId : AgentTeamId) (taskId : AgentTaskId) : AgentAction → Bool
  | .updateState update _ => decide (update.transition = .retry ∧ update.teamId = teamId ∧
      update.taskId = taskId)
  | _ => false

/-- The operation enqueues a task. -/
def AgentAction.enqueues : AgentAction → Bool
  | .enqueue .. => true
  | _ => false

/-- The operation transfers a queued task. -/
def AgentAction.transfers : AgentAction → Bool
  | .transfer .. => true
  | _ => false

/-- The operation reopens interrupted attempts. -/
def AgentAction.recovers : AgentAction → Bool
  | .recover .. => true
  | _ => false

/-- The operation lets a suspended attempt run again. -/
def AgentAction.resumesAttempt : AgentAction → Bool
  | .updateState update _ => decide (update.transition = .resume)
  | _ => false

/-- The lease that the operation writes to an attempt, if it renews it. -/
def AgentAction.renewal (row : AgentAttempt) : AgentAction → Option Timestamp
  | .renewLease taskId attemptId ownerIncarnation now =>
    if row.id = attemptId ∧ row.taskId = taskId ∧ row.ownerIncarnation = some ownerIncarnation
    then some now else none
  | _ => none

/-- The attempt is the one that the operation starts, as it starts it. -/
def AgentAction.Starts (row : AgentAttempt) : AgentAction → Prop
  | .claim _ _ attemptId ownerIncarnation now => row.id = attemptId ∧
      row.ownerIncarnation = ownerIncarnation ∧
      row.leaseRenewedAt = ownerIncarnation.map fun _ => now
  | _ => False

/-- An attempt that can still go on. -/
def AgentAttempt.isOpen (row : AgentAttempt) : Bool :=
  decide (row.status = .running ∨ row.status = .suspended)

/-- A statement on the attempts: it keeps whose attempt a row is, renews only what the
operation renews, and moves only open attempts. -/
structure WritesAttempts (action : AgentAction) (selects : AgentAttempt → Bool)
    (set : AgentAttempt → AgentAttempt) : Prop where
  keys : ∀ row, (set row).id = row.id ∧ (set row).teamId = row.teamId ∧
    (set row).taskId = row.taskId ∧ (set row).ownerIncarnation = row.ownerIncarnation
  leases : ∀ row, selects row = true → (set row).leaseRenewedAt = row.leaseRenewedAt ∨
    ∃ now, (set row).leaseRenewedAt = some now ∧ action.renewal row = some now
  moves : ∀ row, selects row = true → row.isOpen = true ∨ action.recovers = true
  runs : ∀ row, selects row = true → (set row).status = .running →
    row.status = .running ∨ action.resumesAttempt = true

/-- A statement that ends or suspends open attempts. -/
theorem WritesAttempts.stops {action : AgentAction} {selects : AgentAttempt → Bool}
    {set : AgentAttempt → AgentAttempt} (status : AgentAttemptStatus)
    (written : ∀ row, ∃ reason, set row = { row with status, interruptionReason := reason })
    (moves : ∀ row, selects row = true → row.isOpen = true ∨ action.recovers = true)
    (stopped : status ≠ .running ∨ action.resumesAttempt = true) :
    WritesAttempts action selects set where
  keys row := by
    obtain ⟨reason, same⟩ := written row
    rw [same]
    exact ⟨rfl, rfl, rfl, rfl⟩
  leases row _ := by
    obtain ⟨reason, same⟩ := written row
    rw [same]
    exact .inl rfl
  moves := moves
  runs row _ running := by
    obtain ⟨reason, same⟩ := written row
    rw [same] at running
    exact .inr (stopped.resolve_left fun other => other running)

/-- A statement on the task table that keeps the tree. -/
structure KeepsTree (set : AgentTask → AgentTask) : Prop where
  id : ∀ row, (set row).id = row.id
  teamId : ∀ row, (set row).teamId = row.teamId
  parentTaskId : ∀ row, (set row).parentTaskId = row.parentTaskId

theorem KeepsTree.setStatus (status : AgentTaskStatus) (now : Timestamp) :
    KeepsTree (AgentTask.setStatus status now) := ⟨fun _ => rfl, fun _ => rfl, fun _ => rfl⟩

theorem KeepsTree.id_ite {set : AgentTask → AgentTask} (keeps : KeepsTree set) (selected : Bool)
    (row : AgentTask) : (if selected then set row else row).id = row.id := by
  split
  · exact keeps.id row
  · rfl

theorem KeepsTree.teamId_ite {set : AgentTask → AgentTask} (keeps : KeepsTree set)
    (selected : Bool) (row : AgentTask) :
    (if selected then set row else row).teamId = row.teamId := by
  split
  · exact keeps.teamId row
  · rfl

theorem KeepsTree.parentTaskId_ite {set : AgentTask → AgentTask} (keeps : KeepsTree set)
    (selected : Bool) (row : AgentTask) :
    (if selected then set row else row).parentTaskId = row.parentTaskId := by
  split
  · exact keeps.parentTaskId row
  · rfl

/-- What one statement of an operation may write. -/
inductive Statement (action : AgentAction) (before : AgentTables) : AgentTables → Prop where
  | teams (teams : List AgentTeam) : Statement action before { before with teams }
  | instances (instances : List AgentInstance) : Statement action before { before with instances }
  | attempts (selects : AgentAttempt → Bool) {set : AgentAttempt → AgentAttempt}
      (writes : WritesAttempts action selects set) :
      Statement action before { before with attempts := update selects set before.attempts }
  | started (row : AgentAttempt) (starts : action.Starts row) :
      Statement action before { before with attempts := before.attempts ++ [row] }
  | tasks (selects : AgentTask → Bool) {set : AgentTask → AgentTask} (keeps : KeepsTree set)
      (owners : action.transfers = true ∨
        ∀ row, (set row).ownerInstanceId = row.ownerInstanceId) :
      Statement action before { before with tasks := update selects set before.tasks }
  | enqueued (row : AgentTask) (instances : List AgentInstance)
      (fresh : ∀ old ∈ before.tasks, old.id ≠ row.id ∧ old.parentTaskId ≠ some row.id)
      (accepts : ∀ parent ∈ row.parentTaskId,
        ensureParentAccepts before row.teamId parent = .ok ())
      (enqueues : action.enqueues = true) :
      Statement action before { before with instances, tasks := before.tasks ++ [row] }
  | registered (registers : action.registersWait = true)
      (dependencies : List AgentTaskDependency) :
      Statement action before { before with dependencies }
  | waitDropped (taskId : AgentTaskId) : Statement action before { before with
      dependencies := before.dependencies.filter fun row => row.waitingTaskId ≠ taskId }
  | cancellation (row : AgentTaskSubtreeCancellation) : Statement action before { before with
      subtreeCancellations := before.subtreeCancellations ++ [row] }
  | cleared (waits : AgentTaskDependency → Bool) (roots : AgentTaskSubtreeCancellation → Bool)
      (retried : ∀ row, roots row = false → action.retries row.teamId row.rootTaskId = true) :
      Statement action before { before with
        dependencies := before.dependencies.filter waits
        subtreeCancellations := before.subtreeCancellations.filter roots }
  | instanceDeleted (instanceId : AgentInstanceId)
      (deletes : action = .deleteInstance instanceId) :
      Statement action before (withoutInstance before instanceId)

/-- A sequence of statements. -/
def Statements (action : AgentAction) : AgentTables → AgentTables → Prop :=
  ReflTransGen (Statement action)

variable {action : AgentAction}

section Writes

variable {store next : AgentStore}

theorem updateTeams_statements {selects : AgentTeam → Bool} {set : AgentTeam → AgentTeam}
    (h : store.updateTeams selects set = .ok next) :
    Statements action store.toAgentTables next.toAgentTables := by
  rw [AgentTables.write_eq_ok.mp h]
  exact .single (.teams _)

theorem updateInstances_statements {selects : AgentInstance → Bool}
    {set : AgentInstance → AgentInstance} (h : store.updateInstances selects set = .ok next) :
    Statements action store.toAgentTables next.toAgentTables := by
  rw [AgentTables.write_eq_ok.mp h]
  exact .single (.instances _)

theorem updateAttempts_statements {selects : AgentAttempt → Bool}
    {set : AgentAttempt → AgentAttempt} (h : store.updateAttempts selects set = .ok next)
    (writes : WritesAttempts action selects set) :
    Statements action store.toAgentTables next.toAgentTables := by
  rw [AgentTables.write_eq_ok.mp h]
  exact .single (.attempts _ writes)

theorem updateTasks_statements {selects : AgentTask → Bool} {set : AgentTask → AgentTask}
    (h : store.updateTasks selects set = .ok next) (keeps : KeepsTree set)
    (owners : action.transfers = true ∨ ∀ row, (set row).ownerInstanceId = row.ownerInstanceId) :
    Statements action store.toAgentTables next.toAgentTables := by
  rw [AgentTables.write_eq_ok.mp h]
  exact .single (.tasks _ keeps owners)

theorem setTaskStatus_statements {selects : AgentTask → Bool} {status : AgentTaskStatus}
    {now : Timestamp} (h : store.updateTasks selects (AgentTask.setStatus status now) = .ok next) :
    Statements action store.toAgentTables next.toAgentTables :=
  updateTasks_statements h (.setStatus _ _) (.inr fun _ => rfl)

theorem insertInstance_statements {row : AgentInstance}
    (h : store.insertInstance row = .ok next) :
    Statements action store.toAgentTables next.toAgentTables := by
  rw [AgentTables.write_eq_ok.mp h]
  exact .single (.instances _)

theorem deleteDependencies_statements {taskId : AgentTaskId}
    (h : store.deleteDependencies taskId = .ok next) :
    Statements action store.toAgentTables next.toAgentTables := by
  rw [AgentTables.write_eq_ok.mp h]
  exact .single (.waitDropped taskId)

/-- A loop is a sequence of statements if its body is. -/
theorem foldlM_statements {Row : Type} {body : AgentStore → Row → Except AgentStoreError AgentStore}
    (step : ∀ store row next, body store row = .ok next →
      Statements action store.toAgentTables next.toAgentTables) {rows : List Row}
    (h : rows.foldlM body store = .ok next) :
    Statements action store.toAgentTables next.toAgentTables := by
  induction rows generalizing store with
  | nil =>
    cases h
    exact .refl
  | cons row rest ih =>
    obtain ⟨middle, head, tail⟩ := bind_eq_ok.mp h
    exact (step store row middle head).trans (ih tail)

end Writes

/-! ## Operations -/

variable {store store' : AgentStore}

theorem createAgentTeam_statements {team : NewAgentTeam} {result : Unit}
    (h : createAgentTeam team store = .ok (store', result)) :
    Statements action store.toAgentTables store'.toAgentTables := by
  unfold createAgentTeam at h
  split at h
  · cases h
  obtain ⟨first, writeTeam, h⟩ := bind_eq_ok.mp h
  obtain ⟨second, writeInstance, done⟩ := bind_eq_ok.mp h
  cases done
  refine .trans ?_ (insertInstance_statements writeInstance)
  rw [AgentTables.write_eq_ok.mp writeTeam]
  exact .single (.teams _)

theorem createAgentInstances_statements {instances : List NewAgentInstance}
    {maxTeam maxDefinition : Int} {result : Unit}
    (h : createAgentInstancesWithLimits instances maxTeam maxDefinition store =
      .ok (store', result)) :
    Statements action store.toAgentTables store'.toAgentTables := by
  unfold createAgentInstancesWithLimits at h
  split at h
  · cases h
  split at h
  · cases h
  split at h
  · cases h
  split at h
  · cases h
  split at h
  · cases h
  split at h
  · cases h
  split at h
  · cases h
  obtain ⟨next, write, done⟩ := bind_eq_ok.mp h
  cases done
  exact foldlM_statements (fun _ _ _ => insertInstance_statements) write

theorem transitionAgentTeam_statements {teamId : AgentTeamId} {target : AgentTeamStatus}
    {result : Bool} (h : transitionAgentTeamStatus teamId target store = .ok (store', result)) :
    Statements action store.toAgentTables store'.toAgentTables := by
  unfold transitionAgentTeamStatus at h
  split at h
  · cases h
  obtain ⟨_, _, h⟩ := bind_eq_ok.mp h
  split at h
  · cases h
  simp only at h
  split at h
  · cases h
  obtain ⟨first, writeTeams, h⟩ := bind_eq_ok.mp h
  obtain ⟨second, writeInstances, done⟩ := bind_eq_ok.mp h
  cases done
  exact (updateTeams_statements writeTeams).trans (updateInstances_statements writeInstances)

theorem transitionAgentInstance_statements {instanceId : AgentInstanceId}
    {target : AgentInstanceStatus} {result : Bool}
    (h : transitionAgentInstanceStatus instanceId target store = .ok (store', result)) :
    Statements action store.toAgentTables store'.toAgentTables := by
  unfold transitionAgentInstanceStatus at h
  split at h
  · cases h
  obtain ⟨_, _, h⟩ := bind_eq_ok.mp h
  split at h
  · cases h
  simp only at h
  split at h
  · cases h
  obtain ⟨next, write, done⟩ := bind_eq_ok.mp h
  cases done
  exact updateInstances_statements write

/-- An enqueued task was accepted below its parent. -/
theorem enqueueAgentTask_row {task : NewAgentTask} {maxTeam maxInstance maxChat : Int}
    {now : Timestamp} {result : Unit}
    (h : enqueueAgentTaskWithLimits task maxTeam maxInstance maxChat now store =
      .ok (store', result)) :
    ∃ row instances, row.id = task.id ∧ row.teamId = task.teamId ∧
      row.parentTaskId = task.parentTaskId ∧
      (∀ parent ∈ row.parentTaskId,
        ensureParentAccepts store.toAgentTables row.teamId parent = .ok ()) ∧
      store'.toAgentTables =
        { store.toAgentTables with instances, tasks := store.tasks ++ [row] } := by
  unfold enqueueAgentTaskWithLimits at h
  split at h
  · cases h
  obtain ⟨_, _, h⟩ := bind_eq_ok.mp h
  obtain ⟨_, _, h⟩ := bind_eq_ok.mp h
  obtain ⟨_, parents, h⟩ := bind_eq_ok.mp h
  obtain ⟨owner, _, h⟩ := bind_eq_ok.mp h
  simp only at h
  split at h
  · cases h
  split at h
  · cases h
  obtain ⟨first, writeInstances, h⟩ := bind_eq_ok.mp h
  obtain ⟨second, writeTask, done⟩ := bind_eq_ok.mp h
  cases done
  have instances := AgentTables.write_eq_ok.mp writeInstances
  have tasks := AgentTables.write_eq_ok.mp writeTask
  rw [instances] at tasks
  refine ⟨_, _, ?_, ?_, ?_, ?_, tasks⟩
  · rfl
  · rfl
  · rfl
  · intro parent named
    exact forM_eq_ok.mp parents parent (Option.mem_toList.mpr named)

theorem enqueueAgentTask_statements {task : NewAgentTask} {maxTeam maxInstance maxChat : Int}
    {now : Timestamp} {result : Unit}
    (h : enqueueAgentTaskWithLimits task maxTeam maxInstance maxChat now store =
      .ok (store', result)) (enqueues : action.enqueues = true) :
    Statements action store.toAgentTables store'.toAgentTables := by
  obtain ⟨row, instances, -, -, -, accepts, tables⟩ := enqueueAgentTask_row h
  have fresh : ∀ old ∈ store.tasks, old.id ≠ row.id := by
    have unique := store'.schema.tasks.ids
    rw [tables] at unique
    intro old mem
    exact (List.pairwise_append.mp unique).2.2 old mem row (List.mem_singleton_self row)
  rw [tables]
  refine .single (.enqueued row instances (fun old mem => ⟨fresh old mem, ?_⟩) accepts enqueues)
  intro child
  have parent := store.schema.tasks.parents old mem row.id (Option.mem_toList.mpr child)
  obtain ⟨known, knownMem, key⟩ := List.mem_map.mp parent
  exact fresh known knownMem (Prod.mk.inj key).2

theorem transferQueuedAgentTask_statements {teamId : AgentTeamId} {taskId : AgentTaskId}
    {targetId : AgentInstanceId} {maxTeam maxInstance maxChat : Int} {now : Timestamp}
    {result : Option AgentTask}
    (h : transferQueuedAgentTaskWithLimits teamId taskId targetId maxTeam maxInstance maxChat now
      store = .ok (store', result)) (transfers : action.transfers = true) :
    Statements action store.toAgentTables store'.toAgentTables := by
  unfold transferQueuedAgentTaskWithLimits at h
  split at h
  · cases h
  split at h
  · split at h
    · cases h
    split at h
    · cases h
    split at h
    · cases h
    split at h
    · cases h
      exact .refl
    split at h
    · cases h
    obtain ⟨first, writeInstances, h⟩ := bind_eq_ok.mp h
    obtain ⟨second, writeTask, done⟩ := bind_eq_ok.mp h
    cases done
    exact (updateInstances_statements writeInstances).trans
      (updateTasks_statements writeTask ⟨fun _ => rfl, fun _ => rfl, fun _ => rfl⟩ (.inl transfers))
  · cases h
    exact .refl

theorem cancelQueuedAgentTask_statements {teamId : AgentTeamId} {taskId : AgentTaskId}
    {now : Timestamp} {result : Bool}
    (h : cancelQueuedAgentTask teamId taskId now store = .ok (store', result)) :
    Statements action store.toAgentTables store'.toAgentTables := by
  obtain ⟨next, write, done⟩ := bind_eq_ok.mp h
  cases done
  exact setTaskStatus_statements write

theorem cancelSubtreeTask_statements {teamId : AgentTeamId} {reason : Option Text}
    {now : Timestamp} {task : AgentTask}
    (h : cancelSubtreeTask teamId reason now store task = .ok store') :
    Statements action store.toAgentTables store'.toAgentTables := by
  unfold cancelSubtreeTask at h
  simp only at h
  split at h
  · cases h
  obtain ⟨first, writeTasks, h⟩ := bind_eq_ok.mp h
  obtain ⟨second, writeAttempt, writeWait⟩ := bind_eq_ok.mp h
  refine .trans (setTaskStatus_statements writeTasks)
    (.trans ?_ (deleteDependencies_statements writeWait))
  unfold cancelSuspendedAttempt at writeAttempt
  simp only at writeAttempt
  split at writeAttempt
  · cases writeAttempt
    exact .refl
  split at writeAttempt
  · cases writeAttempt
  obtain ⟨middle, writeAttempts, writeOwner⟩ := bind_eq_ok.mp writeAttempt
  refine .trans (updateAttempts_statements writeAttempts ?_) (updateInstances_statements writeOwner)
  refine .stops .cancelled (fun _ => ⟨_, rfl⟩) ?_ (.inl nofun)
  intro row hit
  exact .inl (decide_eq_true (.inr (of_decide_eq_true hit).2.2))

theorem recordSubtreeCancellation_statements {teamId : AgentTeamId} {rootTaskId : AgentTaskId}
    {subtree : List AgentTask}
    (h : recordSubtreeCancellation teamId rootTaskId subtree store = .ok store') :
    Statements action store.toAgentTables store'.toAgentTables := by
  unfold recordSubtreeCancellation AgentStore.insertCancellation at h
  split at h
  · cases h
    exact .refl
  split at h
  · cases h
    exact .refl
  · rw [AgentTables.write_eq_ok.mp h]
    exact .single (.cancellation _)

theorem cancelAgentTaskSubtree_statements {teamId : AgentTeamId} {rootTaskId : AgentTaskId}
    {reason : Option Text} {now : Timestamp} {result : SubtreeCancellationResult}
    (h : cancelAgentTaskSubtree teamId rootTaskId reason now store = .ok (store', result)) :
    Statements action store.toAgentTables store'.toAgentTables := by
  obtain ⟨first, record, h⟩ := bind_eq_ok.mp h
  obtain ⟨second, loop, done⟩ := bind_eq_ok.mp h
  cases done
  exact (recordSubtreeCancellation_statements record).trans
    (foldlM_statements (fun _ _ _ => cancelSubtreeTask_statements) loop)

theorem claimRunnableAgentTask_statements {teamId : AgentTeamId} {taskId : AgentTaskId}
    {attemptId : AgentAttemptId} {ownerIncarnation : Option Text} {now : Timestamp}
    {result : Option AgentTask}
    (h : claimRunnableAgentTaskWithOwner teamId taskId attemptId ownerIncarnation now store =
      .ok (store', result)) :
    Statements (.claim teamId taskId attemptId ownerIncarnation now) store.toAgentTables
      store'.toAgentTables := by
  rcases claimRunnableAgentTask_spec h with ⟨rfl, -⟩ | ⟨task, -, start, -, -⟩
  · exact .refl
  unfold startTask at start
  obtain ⟨first, writeTasks, h⟩ := bind_eq_ok.mp start
  obtain ⟨second, writeAttempt, h⟩ := bind_eq_ok.mp h
  simp only at h
  split at h
  · cases h
  refine .trans (setTaskStatus_statements writeTasks)
    (.trans ?_ (updateInstances_statements h))
  rw [AgentTables.write_eq_ok.mp writeAttempt]
  exact .single (.started _ ⟨rfl, rfl, rfl⟩)

theorem renewAgentAttemptLease_statements {taskId : AgentTaskId} {attemptId : AgentAttemptId}
    {ownerIncarnation : Text} {now : Timestamp} {result : Bool}
    (h : renewAgentAttemptLease taskId attemptId ownerIncarnation now store =
      .ok (store', result)) :
    Statements (.renewLease taskId attemptId ownerIncarnation now) store.toAgentTables
      store'.toAgentTables := by
  unfold renewAgentAttemptLease at h
  split at h
  · cases h
  obtain ⟨next, write, done⟩ := bind_eq_ok.mp h
  cases done
  refine updateAttempts_statements write ⟨fun _ => ⟨rfl, rfl, rfl, rfl⟩, ?_, ?_, ?_⟩
  · intro row hit
    obtain ⟨ident, task, owner, -⟩ := of_decide_eq_true hit
    exact .inr ⟨now, rfl, if_pos ⟨ident, task, owner⟩⟩
  · intro row hit
    exact .inl (decide_eq_true (of_decide_eq_true hit).2.2.2)
  · exact fun row _ running => .inl running

theorem clearTaskWait_statements {update : AgentTaskStateUpdate} {now : Timestamp}
    (h : clearTaskWait update store = .ok store') :
    Statements (.updateState update now) store.toAgentTables store'.toAgentTables := by
  rw [AgentTables.write_eq_ok.mp h]
  refine .single (.cleared _ _ ?_)
  intro row dropped
  simp only [Bool.not_eq_false', Bool.and_eq_true, decide_eq_true_eq] at dropped
  exact decide_eq_true ⟨dropped.1, dropped.2.1.symm, dropped.2.2.symm⟩

/-- Only a resumed attempt is written as running. -/
private theorem attemptTarget_running {update : AgentTaskStateUpdate} {now : Timestamp}
    {target : AgentAttemptStatus}
    (written : attemptTarget update.expectedStatus update.transition = some target) :
    target ≠ .running ∨ (AgentAction.updateState update now).resumesAttempt = true := by
  by_cases resumes : update.transition = .resume
  · exact .inr (decide_eq_true resumes)
  · left
    rintro rfl
    revert written resumes
    cases update.transition <;> simp [attemptTarget]

theorem updateAgentTaskState_statements {update : AgentTaskStateUpdate} {now : Timestamp}
    {result : Bool} (h : updateAgentTaskState update now store = .ok (store', result)) :
    Statements (.updateState update now) store.toAgentTables store'.toAgentTables := by
  unfold updateAgentTaskState at h
  split at h
  · cases h
  obtain ⟨target, -, h⟩ := bind_eq_ok.mp h
  split at h
  · cases h
    exact .refl
  obtain ⟨first, writeTasks, h⟩ := bind_eq_ok.mp h
  obtain ⟨second, writeAttempts, h⟩ := bind_eq_ok.mp h
  obtain ⟨third, writeWait, h⟩ := bind_eq_ok.mp h
  obtain ⟨fourth, writeOwner, done⟩ := bind_eq_ok.mp h
  cases done
  have attempts : Statements (.updateState update now) first.toAgentTables
      second.toAgentTables := by
    unfold updateTaskAttempt at writeAttempts
    simp only at writeAttempts
    split at writeAttempts
    · cases writeAttempts
      exact .refl
    split at writeAttempts
    · cases writeAttempts
    rename_i target written _
    refine updateAttempts_statements writeAttempts
      (.stops target (fun _ => ⟨_, rfl⟩) ?_ (attemptTarget_running written))
    intro row hit
    have source := of_decide_eq_true (Bool.and_eq_true_iff.mp hit).1
    refine .inl (decide_eq_true ?_)
    rw [source.2.2, sourceAttemptStatus]
    split
    · exact .inr rfl
    · exact .inl rfl
  have owner : Statements (.updateState update now) third.toAgentTables
      store'.toAgentTables := by
    unfold updateTaskOwner at writeOwner
    split at writeOwner
    · cases writeOwner
      exact .refl
    exact updateInstances_statements writeOwner
  exact ((setTaskStatus_statements writeTasks).trans attempts).trans
    ((clearTaskWait_statements writeWait).trans owner)

theorem suspendRunningAgentTask_statements {teamId : AgentTeamId} {taskId : AgentTaskId}
    {now : Timestamp} {result : Bool}
    (h : suspendRunningAgentTask teamId taskId now store = .ok (store', result)) :
    Statements action store.toAgentTables store'.toAgentTables := by
  unfold suspendRunningAgentTask at h
  simp only at h
  split at h
  · cases h
    exact .refl
  obtain ⟨first, writeTasks, h⟩ := bind_eq_ok.mp h
  split at h
  · cases h
  obtain ⟨second, writeAttempts, h⟩ := bind_eq_ok.mp h
  obtain ⟨third, writeOwner, done⟩ := bind_eq_ok.mp h
  cases done
  refine .trans ((setTaskStatus_statements writeTasks).trans
    (updateAttempts_statements writeAttempts ?_)) (updateInstances_statements writeOwner)
  refine .stops .suspended (fun _ => ⟨_, rfl⟩) ?_ (.inl nofun)
  intro row hit
  exact .inl (decide_eq_true (.inl (of_decide_eq_true hit).2.2))

theorem resumeTask_statements {requeued : AgentTaskId → Bool} {now : Timestamp}
    {task : AgentTask} (h : resumeTask requeued now store task = .ok store') :
    Statements action store.toAgentTables store'.toAgentTables := by
  unfold resumeTask at h
  split at h
  · cases h
  obtain ⟨first, writeTasks, writeOwner⟩ := bind_eq_ok.mp h
  exact (setTaskStatus_statements writeTasks).trans
    (updateInstances_statements writeOwner)

theorem resumeSatisfiedAgentTasks_statements {limit : Int} {matching : AgentTask → Bool}
    {requeued : AgentTaskId → Bool} {now : Timestamp} {result : List AgentTask}
    (h : resumeSatisfiedAgentTasks limit matching requeued now store = .ok (store', result)) :
    Statements action store.toAgentTables store'.toAgentTables := by
  unfold resumeSatisfiedAgentTasks at h
  split at h
  · cases h
  obtain ⟨next, loop, done⟩ := bind_eq_ok.mp h
  cases done
  exact foldlM_statements (fun _ _ _ => resumeTask_statements) loop

theorem recoverTask_statements {reason : Text} {now : Timestamp} {task : AgentTask}
    (h : recoverTask reason now store task = .ok store') (recovers : action.recovers = true) :
    Statements action store.toAgentTables store'.toAgentTables := by
  obtain ⟨first, writeTasks, h⟩ := bind_eq_ok.mp h
  obtain ⟨second, writeAttempts, writeOwner⟩ := bind_eq_ok.mp h
  refine .trans ((setTaskStatus_statements writeTasks).trans
    (updateAttempts_statements writeAttempts ?_)) (updateInstances_statements writeOwner)
  exact .stops .suspended (fun _ => ⟨_, rfl⟩) (fun _ _ => .inr recovers) (.inl nofun)

theorem recoverInterruptedAgentWaitTasks_statements {reason : Text} {limit : Int}
    {now : Timestamp} {result : List AgentTask}
    (h : recoverInterruptedAgentWaitTasks reason limit now store = .ok (store', result))
    (recovers : action.recovers = true) :
    Statements action store.toAgentTables store'.toAgentTables := by
  unfold recoverInterruptedAgentWaitTasks at h
  split at h
  · cases h
  obtain ⟨next, loop, done⟩ := bind_eq_ok.mp h
  cases done
  exact foldlM_statements (fun _ _ _ write => recoverTask_statements write recovers) loop

theorem suspendRemotePlanTask_statements {teamId : AgentTeamId} {taskId : AgentTaskId}
    {attemptId : AgentAttemptId} {ownerIncarnation : Text} {owned : Bool} {now : Timestamp}
    {result : Bool}
    (h : suspendRemotePlanTask teamId taskId attemptId ownerIncarnation owned now store =
      .ok (store', result)) : Statements action store.toAgentTables store'.toAgentTables := by
  unfold suspendRemotePlanTask at h
  simp only at h
  split at h
  · cases h
    exact .refl
  split at h
  · cases h
  obtain ⟨first, writeTasks, h⟩ := bind_eq_ok.mp h
  split at h
  · cases h
  obtain ⟨second, writeAttempts, h⟩ := bind_eq_ok.mp h
  obtain ⟨third, writeOwner, done⟩ := bind_eq_ok.mp h
  cases done
  refine .trans ((setTaskStatus_statements writeTasks).trans
    (updateAttempts_statements writeAttempts ?_)) (updateInstances_statements writeOwner)
  refine .stops .suspended (fun _ => ⟨_, rfl⟩) ?_ (.inl nofun)
  intro row hit
  exact .inl (decide_eq_true (.inl (of_decide_eq_true hit).2.2.2.1))

theorem closePreStreamChatFailure_statements {taskId : AgentTaskId} {expected : ExpectedAttempt}
    {reason : Option Text} {owned : Bool} {now : Timestamp} {result : Bool}
    (h : closePreStreamChatFailure taskId expected reason owned now store =
      .ok (store', result)) : Statements action store.toAgentTables store'.toAgentTables := by
  unfold closePreStreamChatFailure at h
  simp only at h
  split at h
  · cases h
    exact .refl
  split at h
  · cases h
    exact .refl
  obtain ⟨first, writeTasks, h⟩ := bind_eq_ok.mp h
  split at h
  · cases h
  obtain ⟨second, writeAttempts, h⟩ := bind_eq_ok.mp h
  obtain ⟨third, writeOwner, done⟩ := bind_eq_ok.mp h
  cases done
  refine .trans ((setTaskStatus_statements writeTasks).trans
    (updateAttempts_statements writeAttempts ?_)) (updateInstances_statements writeOwner)
  refine .stops (terminalAttemptStatus reason) (fun _ => ⟨_, rfl⟩) ?_ (.inl ?_)
  · intro row hit
    have closable := of_decide_eq_true (Bool.and_eq_true_iff.mp hit).1
    exact .inl (decide_eq_true (.inl closable.2))
  · unfold terminalAttemptStatus
    split
    · exact nofun
    · exact nofun

theorem insertDependencyRows_statements {round : WaitRound} {dependencies : List AgentTaskId}
    (registers : action.registersWait = true)
    (h : insertDependencyRows round dependencies store = .ok store') :
    Statements action store.toAgentTables store'.toAgentTables := by
  apply foldlM_statements ?_ h
  intro store row next write
  rw [AgentTables.write_eq_ok.mp write]
  exact .single (.registered registers _)

theorem registerAgentTaskWait_statements {round : WaitRound} {result : WaitRegistrationOutcome}
    (registers : action.registersWait = true)
    (h : registerAgentTaskWaitDependencies round store = .ok (store', result)) :
    Statements action store.toAgentTables store'.toAgentTables := by
  unfold registerAgentTaskWaitDependencies at h
  obtain ⟨_, _, h⟩ := bind_eq_ok.mp h
  split at h
  · cases h
  split at h
  · cases h
  obtain ⟨_, _, h⟩ := bind_eq_ok.mp h
  obtain ⟨_, _, h⟩ := bind_eq_ok.mp h
  unfold storeWaitRound at h
  simp only at h
  split at h
  · obtain ⟨next, write, done⟩ := bind_eq_ok.mp h
    cases done
    exact insertDependencyRows_statements registers write
  split at h
  · split at h
    · split at h
      · cases h
        exact .refl
      · obtain ⟨next, write, done⟩ := bind_eq_ok.mp h
        cases done
        exact insertDependencyRows_statements registers write
    · cases h
  split at h
  · cases h
  split at h
  · obtain ⟨next, delete, h⟩ := bind_eq_ok.mp h
    obtain ⟨last, write, done⟩ := bind_eq_ok.mp h
    cases done
    exact (deleteDependencies_statements delete).trans
      (insertDependencyRows_statements registers write)
  · cases h

/-- Every operation is a sequence of statements. -/
theorem commit_statements (h : action.commit store = .ok store') :
    Statements action store.toAgentTables store'.toAgentTables := by
  cases action with
  | createTeam team =>
    obtain ⟨_, run⟩ := commit_eq_ok h
    exact createAgentTeam_statements run
  | createInstances instances maxTeam maxDefinition =>
    obtain ⟨_, run⟩ := commit_eq_ok h
    exact createAgentInstances_statements run
  | transitionTeam teamId target =>
    obtain ⟨_, run⟩ := commit_eq_ok h
    exact transitionAgentTeam_statements run
  | transitionInstance instanceId target =>
    obtain ⟨_, run⟩ := commit_eq_ok h
    exact transitionAgentInstance_statements run
  | deleteInstance instanceId =>
    obtain ⟨_, run⟩ := commit_eq_ok h
    rw [deleteAgentInstance_spec run]
    exact .single (.instanceDeleted instanceId rfl)
  | enqueue task maxTeam maxInstance maxChat now =>
    obtain ⟨_, run⟩ := commit_eq_ok h
    exact enqueueAgentTask_statements run rfl
  | transfer teamId taskId target maxTeam maxInstance maxChat now =>
    obtain ⟨_, run⟩ := commit_eq_ok h
    exact transferQueuedAgentTask_statements run rfl
  | cancelQueued teamId taskId now =>
    obtain ⟨_, run⟩ := commit_eq_ok h
    exact cancelQueuedAgentTask_statements run
  | cancelSubtree teamId rootTaskId reason now =>
    obtain ⟨_, run⟩ := commit_eq_ok h
    exact cancelAgentTaskSubtree_statements run
  | registerWait round =>
    obtain ⟨_, run⟩ := commit_eq_ok h
    exact registerAgentTaskWait_statements rfl run
  | deleteDependencies taskId =>
    obtain ⟨_, run⟩ := commit_eq_ok h
    obtain ⟨next, delete, done⟩ := bind_eq_ok.mp run
    cases done
    exact deleteDependencies_statements delete
  | claim teamId taskId attemptId ownerIncarnation now =>
    obtain ⟨_, run⟩ := commit_eq_ok h
    exact claimRunnableAgentTask_statements run
  | renewLease taskId attemptId ownerIncarnation now =>
    obtain ⟨_, run⟩ := commit_eq_ok h
    exact renewAgentAttemptLease_statements run
  | updateState update now =>
    obtain ⟨_, run⟩ := commit_eq_ok h
    exact updateAgentTaskState_statements run
  | suspend teamId taskId now =>
    obtain ⟨_, run⟩ := commit_eq_ok h
    exact suspendRunningAgentTask_statements run
  | resume limit matching requeued now =>
    obtain ⟨_, run⟩ := commit_eq_ok h
    exact resumeSatisfiedAgentTasks_statements run
  | recover reason limit now =>
    obtain ⟨_, run⟩ := commit_eq_ok h
    exact recoverInterruptedAgentWaitTasks_statements run rfl
  | suspendRemotePlan teamId taskId attemptId ownerIncarnation owned now =>
    obtain ⟨_, run⟩ := commit_eq_ok h
    exact suspendRemotePlanTask_statements run
  | closePreStream taskId expected reason owned now =>
    obtain ⟨_, run⟩ := commit_eq_ok h
    exact closePreStreamChatFailure_statements run

/-- What every statement keeps a sequence of them keeps. -/
theorem Statements.invariant (Inv : AgentTables → Prop)
    (keep : ∀ before after, Inv before → Statement action before after → Inv after)
    {before after : AgentTables} (run : Statements action before after) (inv : Inv before) :
    Inv after := by
  induction run with
  | refl => exact inv
  | tail _ step ih => exact keep _ _ ih step

end Foco.AgentRuntime
