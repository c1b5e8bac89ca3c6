import Foco.AgentExecution
import Foco.Result

/-!
What the operations of the agent store do, said once for each. Most of them move single
tasks: the task gets a new status, some of its attempts move from one status to another,
and the status of its owner follows. `TaskMoved` is that effect; an operation either
leaves the rows as they were or is a `TaskMoved` with given parameters, or a chain of them.
-/
namespace Foco.AgentRuntime
open Foco.RustText Foco.AgentDomain Foco.Table Foco.Runs

/-! ## Counting attempts -/

/-- The attempts of a task that have a status. -/
def attemptOf (taskId : AgentTaskId) (status : AgentAttemptStatus) (row : AgentAttempt) : Bool :=
  decide (row.taskId = taskId ∧ row.status = status)

/-- How many attempts of a task have a status. -/
def attemptCount (tables : AgentTables) (taskId : AgentTaskId) (status : AgentAttemptStatus) :
    Nat := tables.attempts.countP (attemptOf taskId status)

private theorem countP_and_of_imp {Row : Type u} {rows : List Row} {selects holds : Row → Bool}
    {value : Bool} (constant : ∀ row, selects row = true → holds row = value) :
    rows.countP (fun row => selects row && holds row) =
      if value = true then rows.countP selects else 0 := by
  have pointwise : (fun row => selects row && holds row) =
      fun row => selects row && value := by
    funext row
    cases selected : selects row with
    | false => rfl
    | true => rw [constant row selected]
  rw [pointwise]
  cases value with
  | false => simp
  | true => simp

/-- A statement that moves attempts of one task from one status to another changes its counts
by the number of rows it selects. -/
theorem attemptCount_update {attempts : List AgentAttempt} {selects : AgentAttempt → Bool}
    {set : AgentAttempt → AgentAttempt} {taskId : AgentTaskId}
    {source target : AgentAttemptStatus}
    (selected : ∀ row, selects row = true → row.taskId = taskId ∧ row.status = source)
    (moved : ∀ row, (set row).taskId = row.taskId ∧ (set row).status = target)
    (status : AgentAttemptStatus) :
    (update selects set attempts).countP (attemptOf taskId status) +
        (if some source = some status then attempts.countP selects else 0) =
      attempts.countP (attemptOf taskId status) +
        (if status = target then attempts.countP selects else 0) := by
  have balance := countP_update selects set attempts (attemptOf taskId status)
  have taken : attempts.countP (fun row => selects row && attemptOf taskId status row) =
      if decide (some source = some status) = true then attempts.countP selects else 0 := by
    apply countP_and_of_imp
    intro row chosen
    obtain ⟨task, start⟩ := selected row chosen
    simp only [attemptOf, task, start, true_and, Option.some.injEq]
  have given : attempts.countP (fun row => selects row && attemptOf taskId status (set row)) =
      if decide (status = target) = true then attempts.countP selects else 0 := by
    apply countP_and_of_imp
    intro row chosen
    obtain ⟨task, written⟩ := moved row
    simp only [attemptOf, task, written, (selected row chosen).1, true_and, eq_comm]
  simp only [decide_eq_true_eq] at taken given
  omega

/-- A statement on the attempts of one task leaves every count of other attempts alone. -/
theorem countP_update_others {attempts : List AgentAttempt} {selects : AgentAttempt → Bool}
    {set : AgentAttempt → AgentAttempt} {taskId : AgentTaskId}
    (selected : ∀ row, selects row = true → row.taskId = taskId)
    (keeps : ∀ row, (set row).taskId = row.taskId) {holds : AgentAttempt → Bool}
    (others : ∀ row, row.taskId = taskId → holds row = false) :
    (update selects set attempts).countP holds = attempts.countP holds := by
  apply countP_update_eq
  intro row _ chosen
  rw [others row (selected row chosen), others (set row) ((keeps row).trans (selected row chosen))]

/-! ## Moving a task -/

/-- Every instance row comes from a row before; the owner's status follows a function, the
other statuses stay. -/
def OwnerFollows (before after : List AgentInstance) (instanceId : AgentInstanceId)
    (owner : AgentInstanceStatus → AgentInstanceStatus) : Prop :=
  ∀ row ∈ after, ∃ old ∈ before, row.id = old.id ∧ row.teamId = old.teamId ∧
    row.nextTaskSequence = old.nextTaskSequence ∧
    row.status = if old.id = instanceId then owner old.status else old.status

/-- A task got a new status, `moved` of its attempts went from `source` to `written`, and the
status of its owner followed. -/
structure TaskMoved (before after : AgentTables) (task : AgentTask) (target : AgentTaskStatus)
    (owner : AgentInstanceStatus → AgentInstanceStatus) (source : Option AgentAttemptStatus)
    (written : AgentAttemptStatus) (moved : Nat) : Prop where
  mem : task ∈ before.tasks
  teams : after.teams = before.teams
  tasks : ∃ now, after.tasks = update (fun row => row.id = task.id)
    (AgentTask.setStatus target now) before.tasks
  instances : OwnerFollows before.instances after.instances task.ownerInstanceId owner
  others : ∀ holds : AgentAttempt → Bool, (∀ row, row.taskId = task.id → holds row = false) →
    after.attempts.countP holds = before.attempts.countP holds
  own : ∀ status, attemptCount after task.id status +
      (if source = some status then moved else 0) =
    attemptCount before task.id status + (if status = written then moved else 0)

/-- The rows that the properties of teams, instances, tasks and attempts are about stayed. -/
structure SameRows (before after : AgentTables) : Prop where
  teams : after.teams = before.teams
  instances : after.instances = before.instances
  tasks : after.tasks = before.tasks
  attempts : ∀ taskId status, attemptCount after taskId status = attemptCount before taskId status

theorem SameRows.refl (tables : AgentTables) : SameRows tables tables := ⟨rfl, rfl, rfl, fun _ _ => rfl⟩

theorem OwnerFollows.refl {rows : List AgentInstance} {instanceId : AgentInstanceId} :
    OwnerFollows rows rows instanceId id := by
  intro row mem
  refine ⟨row, mem, rfl, rfl, rfl, ?_⟩
  split <;> rfl

namespace TaskMoved

variable {before after : AgentTables} {task : AgentTask} {target : AgentTaskStatus}
  {owner : AgentInstanceStatus → AgentInstanceStatus} {source : Option AgentAttemptStatus}
  {written : AgentAttemptStatus} {moved : Nat}

/-- A row of the task table after a move: the moved task, or another row as it was. -/
theorem row_cases (effect : TaskMoved before after task target owner source written moved)
    (schema : Schema before) {row : AgentTask} (mem : row ∈ after.tasks) :
    (∃ now, row = task.setStatus target now) ∨ (row ∈ before.tasks ∧ row.id ≠ task.id) := by
  obtain ⟨now, tasks⟩ := effect.tasks
  rw [tasks] at mem
  obtain ⟨old, oldMem, rfl⟩ := mem_update.mp mem
  by_cases same : old.id = task.id
  · left
    have old_eq : old = task := schema.tasks.ids.eq oldMem effect.mem same
    refine ⟨now, ?_⟩
    rw [old_eq]
    simp only [decide_true, if_true]
  · right
    simp only [same, decide_false, Bool.false_eq_true, if_false]
    exact ⟨oldMem, same⟩

/-- The rows of other tasks stay. -/
theorem other_mem (effect : TaskMoved before after task target owner source written moved)
    {row : AgentTask} (mem : row ∈ before.tasks) (other : row.id ≠ task.id) :
    row ∈ after.tasks := by
  obtain ⟨now, tasks⟩ := effect.tasks
  rw [tasks]
  exact mem_update_of_not mem (decide_eq_false other)

/-- The moved row is there with its new status. -/
theorem task_mem (effect : TaskMoved before after task target owner source written moved) :
    ∃ now, task.setStatus target now ∈ after.tasks := by
  obtain ⟨now, tasks⟩ := effect.tasks
  refine ⟨now, ?_⟩
  rw [tasks]
  exact mem_update_of effect.mem (decide_eq_true rfl)

/-- The attempts of other tasks stay. -/
theorem attemptCount_other
    (effect : TaskMoved before after task target owner source written moved)
    {taskId : AgentTaskId} (other : taskId ≠ task.id) (status : AgentAttemptStatus) :
    attemptCount after taskId status = attemptCount before taskId status := by
  apply effect.others
  intro row same
  apply decide_eq_false
  rintro ⟨rfl, _⟩
  exact other same

end TaskMoved

/-! ## How the statements move a task -/

/-- The owner of a task, by its id, is an instance of the task's team. -/
theorem owner_team {tables : AgentTables} (schema : Schema tables) {task : AgentTask}
    (mem : task ∈ tables.tasks) {row : AgentInstance} (rowMem : row ∈ tables.instances)
    (owns : row.id = task.ownerInstanceId) : row.teamId = task.teamId := by
  obtain ⟨owner, ownerMem, key⟩ := List.mem_map.mp (schema.tasks.owners task mem)
  obtain ⟨team, ident⟩ := Prod.mk.inj key
  have same : row = owner := schema.teams.instanceIds.eq rowMem ownerMem (owns.trans ident.symm)
  rw [same]
  exact team

/-- The attempts of a task, by its id, are of its team. -/
theorem attempt_team {tables : AgentTables} (schema : Schema tables) {task : AgentTask}
    (mem : task ∈ tables.tasks) {row : AgentAttempt} (rowMem : row ∈ tables.attempts)
    (tries : row.taskId = task.id) : row.teamId = task.teamId := by
  obtain ⟨found, foundMem, key⟩ := List.mem_map.mp (schema.attempts.tasks row rowMem)
  obtain ⟨team, ident⟩ := Prod.mk.inj key
  have same : task = found := schema.tasks.ids.eq mem foundMem (tries.symm.trans ident.symm)
  rw [same]
  exact team.symm

/-- A statement whose condition holds of one row of the task table, and of no row with
another id, is a statement on that id. -/
theorem update_task_eq {tables : AgentTables} (schema : Schema tables) {task : AgentTask}
    (mem : task ∈ tables.tasks) {selects : AgentTask → Bool} {set : AgentTask → AgentTask}
    (selected : selects task = true) (only : ∀ row, selects row = true → row.id = task.id) :
    update selects set tables.tasks = update (fun row => row.id = task.id) set tables.tasks := by
  apply update_congr
  intro row rowMem
  by_cases same : row.id = task.id
  · rw [schema.tasks.ids.eq rowMem mem same, selected]
    exact (decide_eq_true rfl).symm
  · rw [decide_eq_false same]
    cases hit : selects row with
    | false => rfl
    | true => exact absurd (only row hit) same

/-- A statement on instances whose condition looks at the owner's id, its team and its status. -/
theorem ownerFollows_update {rows : List AgentInstance} {instanceId : AgentInstanceId}
    {teamId : AgentTeamId} {selects : AgentInstance → Bool}
    {set : AgentInstance → AgentInstance} {owner : AgentInstanceStatus → AgentInstanceStatus}
    (inTeam : ∀ row ∈ rows, row.id = instanceId → row.teamId = teamId)
    (fields : ∀ row, (set row).id = row.id ∧ (set row).teamId = row.teamId ∧
      (set row).nextTaskSequence = row.nextTaskSequence)
    (only : ∀ row, selects row = true → row.id = instanceId)
    (follows : ∀ row, row.id = instanceId → row.teamId = teamId →
      (if selects row then (set row).status else row.status) = owner row.status) :
    OwnerFollows rows (update selects set rows) instanceId owner := by
  intro row rowMem
  obtain ⟨old, oldMem, rfl⟩ := mem_update.mp rowMem
  obtain ⟨sameId, sameTeam, sameNext⟩ := fields old
  by_cases owns : old.id = instanceId
  · have status := follows old owns (inTeam old oldMem owns)
    refine ⟨old, oldMem, ?_⟩
    rw [if_pos owns, ← status]
    split
    · exact ⟨sameId, sameTeam, sameNext, rfl⟩
    · exact ⟨rfl, rfl, rfl, rfl⟩
  · refine ⟨old, oldMem, ?_⟩
    have skipped : ¬ selects old = true := fun hit => owns (only old hit)
    rw [if_neg owns, if_neg skipped]
    exact ⟨rfl, rfl, rfl, rfl⟩

/-- `CASE WHEN status = 'draining' THEN 'draining' ELSE … END`. -/
def drainingOr (target status : AgentInstanceStatus) : AgentInstanceStatus :=
  if status = .draining then .draining else target

/-- The same for the statuses that a statement selects. -/
def drainingOrWhen (selected : AgentInstanceStatus → Bool) (target status : AgentInstanceStatus) :
    AgentInstanceStatus := if selected status then drainingOr target status else status

/-! ## The three statements of a move -/

open Foco.Result

/-- The statement on the task table wrote a new status to one row. -/
structure TaskWritten (before after : AgentTables) (task : AgentTask)
    (target : AgentTaskStatus) : Prop where
  mem : task ∈ before.tasks
  teams : after.teams = before.teams
  instances : after.instances = before.instances
  attempts : after.attempts = before.attempts
  tasks : ∃ now, after.tasks = update (fun row => row.id = task.id)
    (AgentTask.setStatus target now) before.tasks

/-- The statement on the attempts moved `moved` attempts of one task. -/
structure AttemptsMoved (before after : AgentTables) (taskId : AgentTaskId)
    (source : Option AgentAttemptStatus) (written : AgentAttemptStatus) (moved : Nat) : Prop where
  teams : after.teams = before.teams
  instances : after.instances = before.instances
  tasks : after.tasks = before.tasks
  others : ∀ holds : AgentAttempt → Bool, (∀ row, row.taskId = taskId → holds row = false) →
    after.attempts.countP holds = before.attempts.countP holds
  own : ∀ status, attemptCount after taskId status + (if source = some status then moved else 0) =
    attemptCount before taskId status + (if status = written then moved else 0)

/-- The statement on the instances let the owner's status follow. -/
structure OwnerWritten (before after : AgentTables) (instanceId : AgentInstanceId)
    (owner : AgentInstanceStatus → AgentInstanceStatus) : Prop where
  teams : after.teams = before.teams
  tasks : after.tasks = before.tasks
  attempts : after.attempts = before.attempts
  instances : OwnerFollows before.instances after.instances instanceId owner

theorem AttemptsMoved.refl (tables : AgentTables) (taskId : AgentTaskId)
    (written : AgentAttemptStatus) : AttemptsMoved tables tables taskId none written 0 :=
  ⟨rfl, rfl, rfl, fun _ _ => rfl, fun _ => by simp only [ite_self]⟩

theorem OwnerWritten.refl (tables : AgentTables) (instanceId : AgentInstanceId) :
    OwnerWritten tables tables instanceId id := ⟨rfl, rfl, rfl, .refl⟩

/-- Between the statements the owner is still an instance of the task's team. -/
theorem TaskWritten.inTeam {first second third : AgentTables} {task : AgentTask}
    {target : AgentTaskStatus} {taskId : AgentTaskId} {source : Option AgentAttemptStatus}
    {written : AgentAttemptStatus} {moved : Nat} (schema : Schema first)
    (tasks : TaskWritten first second task target)
    (attempts : AttemptsMoved second third taskId source written moved) :
    ∀ row ∈ third.instances, row.id = task.ownerInstanceId → row.teamId = task.teamId := by
  intro row rowMem owns
  rw [attempts.instances, tasks.instances] at rowMem
  exact owner_team schema tasks.mem rowMem owns

/-- The three statements together move the task. -/
theorem TaskWritten.moved {first second third fourth : AgentTables} {task : AgentTask}
    {target : AgentTaskStatus} {source : Option AgentAttemptStatus}
    {written : AgentAttemptStatus} {moved : Nat}
    {owner : AgentInstanceStatus → AgentInstanceStatus}
    (tasks : TaskWritten first second task target)
    (attempts : AttemptsMoved second third task.id source written moved)
    (instances : OwnerWritten third fourth task.ownerInstanceId owner) :
    TaskMoved first fourth task target owner source written moved := by
  refine ⟨tasks.mem, ?_, ?_, ?_, ?_, ?_⟩
  · rw [instances.teams, attempts.teams, tasks.teams]
  · obtain ⟨now, written⟩ := tasks.tasks
    exact ⟨now, by rw [instances.tasks, attempts.tasks, written]⟩
  · rw [← tasks.instances, ← attempts.instances]
    exact instances.instances
  · intro holds others
    rw [instances.attempts, attempts.others holds others, tasks.attempts]
  · intro status
    have own := attempts.own status
    simp only [attemptCount, tasks.attempts] at own
    simp only [attemptCount, instances.attempts]
    exact own

theorem taskWritten_of_updateTasks {store next : AgentStore} {selects : AgentTask → Bool}
    {target : AgentTaskStatus} {now : Timestamp} {task : AgentTask}
    (h : store.updateTasks selects (AgentTask.setStatus target now) = .ok next)
    (mem : task ∈ store.tasks) (selected : selects task = true)
    (only : ∀ row, selects row = true → row.id = task.id) :
    TaskWritten store.toAgentTables next.toAgentTables task target := by
  have tables := AgentTables.write_eq_ok.mp h
  refine ⟨mem, by rw [tables], by rw [tables], by rw [tables], now, ?_⟩
  rw [tables]
  exact update_task_eq store.schema mem selected only

theorem attemptsMoved_of_updateAttempts {store next : AgentStore}
    {selects : AgentAttempt → Bool} {set : AgentAttempt → AgentAttempt} {taskId : AgentTaskId}
    {source written : AgentAttemptStatus} (h : store.updateAttempts selects set = .ok next)
    (selected : ∀ row, selects row = true → row.taskId = taskId ∧ row.status = source)
    (sets : ∀ row, (set row).taskId = row.taskId ∧ (set row).status = written) :
    AttemptsMoved store.toAgentTables next.toAgentTables taskId (some source) written
      (store.attempts.countP selects) := by
  have tables := AgentTables.write_eq_ok.mp h
  refine ⟨by rw [tables], by rw [tables], by rw [tables], ?_, ?_⟩
  · intro holds others
    rw [tables]
    exact countP_update_others (fun row hit => (selected row hit).1) (fun row => (sets row).1) others
  · intro status
    rw [attemptCount, tables]
    exact attemptCount_update selected sets status

theorem ownerWritten_of_updateInstances {store next : AgentStore}
    {selects : AgentInstance → Bool} {set : AgentInstance → AgentInstance}
    {instanceId : AgentInstanceId} {teamId : AgentTeamId}
    {owner : AgentInstanceStatus → AgentInstanceStatus}
    (h : store.updateInstances selects set = .ok next)
    (inTeam : ∀ row ∈ store.instances, row.id = instanceId → row.teamId = teamId)
    (fields : ∀ row, (set row).id = row.id ∧ (set row).teamId = row.teamId ∧
      (set row).nextTaskSequence = row.nextTaskSequence)
    (only : ∀ row, selects row = true → row.id = instanceId)
    (follows : ∀ row, row.id = instanceId → row.teamId = teamId →
      (if selects row then (set row).status else row.status) = owner row.status) :
    OwnerWritten store.toAgentTables next.toAgentTables instanceId owner := by
  have tables := AgentTables.write_eq_ok.mp h
  refine ⟨by rw [tables], by rw [tables], by rw [tables], ?_⟩
  rw [tables]
  exact ownerFollows_update inTeam fields only follows

/-! ## Cancelling a queued task -/

theorem cancelQueuedAgentTask_spec {teamId : AgentTeamId} {taskId : AgentTaskId}
    {now : Timestamp} {store store' : AgentStore} {result : Bool}
    (h : cancelQueuedAgentTask teamId taskId now store = .ok (store', result)) :
    SameRows store.toAgentTables store'.toAgentTables ∨
      ∃ task, task.id = taskId ∧ task.teamId = teamId ∧ task.status = .queued ∧
        TaskMoved store.toAgentTables store'.toAgentTables task .cancelled id none .running 0 := by
  obtain ⟨next, write, done⟩ := bind_eq_ok.mp h
  cases done
  by_cases found : ∃ task ∈ store.tasks,
      decide (task.teamId = teamId ∧ task.id = taskId ∧ task.status = .queued) = true
  · obtain ⟨task, mem, selected⟩ := found
    obtain ⟨team, ident, queued⟩ := of_decide_eq_true selected
    have written := taskWritten_of_updateTasks write mem selected
      fun row hit => (of_decide_eq_true hit).2.1.trans ident.symm
    exact .inr ⟨task, ident, team, queued, written.moved (.refl _ _ _) (.refl _ _)⟩
  · left
    have tables := AgentTables.write_eq_ok.mp write
    refine ⟨by rw [tables], by rw [tables], ?_, fun taskId status => by rw [attemptCount, tables]; rfl⟩
    rw [tables]
    apply update_none
    intro row mem
    by_contra hit
    exact found ⟨row, mem, by simpa using hit⟩

/-! ## Updating the state of a task -/

/-- The attempts that an update moves: their status before, if it moves any. -/
def updateSource (update : AgentTaskStateUpdate) : Option AgentAttemptStatus :=
  (attemptTarget update.expectedStatus update.transition).map fun _ =>
    sourceAttemptStatus update.expectedStatus

/-- The status that an update writes to the attempts it moves. -/
def updateWritten (update : AgentTaskStateUpdate) : AgentAttemptStatus :=
  (attemptTarget update.expectedStatus update.transition).getD .running

/-- An update moves one attempt or none. -/
def updateMoved (update : AgentTaskStateUpdate) : Nat :=
  if (attemptTarget update.expectedStatus update.transition).isSome then 1 else 0

/-- What an update makes of the owner's status. -/
def updateOwner (expected target : AgentTaskStatus) (status : AgentInstanceStatus) :
    AgentInstanceStatus :=
  match ownerTarget expected target with
  | none => status
  | some new => if status = .draining ∧ new = .idle then .draining else new

theorem updateTaskAttempt_spec {update : AgentTaskStateUpdate} {store next : AgentStore}
    (h : updateTaskAttempt update store = .ok next) :
    AttemptsMoved store.toAgentTables next.toAgentTables update.taskId (updateSource update)
      (updateWritten update) (updateMoved update) := by
  unfold updateTaskAttempt at h
  unfold updateSource updateWritten updateMoved
  cases target : attemptTarget update.expectedStatus update.transition with
  | none =>
    rw [target] at h
    cases h
    exact .refl _ _ _
  | some status =>
    rw [target] at h
    simp only at h
    split at h
    · cases h
    · rename_i one
      rw [not_not] at one
      rw [← one]
      apply attemptsMoved_of_updateAttempts h
      · intro row hit
        simp only [isSourceAttempt, Bool.and_eq_true, decide_eq_true_eq] at hit
        exact ⟨hit.1.1, hit.1.2.2⟩
      · exact fun row => ⟨rfl, rfl⟩

theorem updateTaskOwner_spec {update : AgentTaskStateUpdate} {instanceId : AgentInstanceId}
    {target : AgentTaskStatus} {store next : AgentStore}
    (inTeam : ∀ row ∈ store.instances, row.id = instanceId → row.teamId = update.teamId)
    (h : updateTaskOwner update instanceId target store = .ok next) :
    OwnerWritten store.toAgentTables next.toAgentTables instanceId
      (updateOwner update.expectedStatus target) := by
  unfold updateTaskOwner at h
  cases written : ownerTarget update.expectedStatus target with
  | none =>
    rw [written] at h
    cases h
    have same : updateOwner update.expectedStatus target = id := by
      funext status
      simp only [updateOwner, written, id]
    rw [same]
    exact .refl _ _
  | some status =>
    rw [written] at h
    apply ownerWritten_of_updateInstances h inTeam
    · exact fun row => ⟨rfl, rfl, rfl⟩
    · exact fun row hit => (of_decide_eq_true hit).1
    · intro row owns team
      simp only [owns, team, and_self, decide_true, if_true, updateOwner, written,
        AgentInstance.setStatus_status]

/-- An update of a task's state leaves the store as it was, or moves the task that its query
found. -/
theorem updateAgentTaskState_spec {update : AgentTaskStateUpdate} {now : Timestamp}
    {store store' : AgentStore} {result : Bool}
    (h : updateAgentTaskState update now store = .ok (store', result)) :
    store' = store ∨ ∃ task target, isUpdatable store.toAgentTables update task = true ∧
      update.transition ≠ .start ∧ update.expectedStatus.apply update.transition = .ok target ∧
      TaskMoved store.toAgentTables store'.toAgentTables task target
        (updateOwner update.expectedStatus target) (updateSource update) (updateWritten update)
        (updateMoved update) := by
  unfold updateAgentTaskState at h
  split at h
  · cases h
  rename_i notStart
  obtain ⟨target, applied, h⟩ := bind_eq_ok.mp h
  split at h
  · cases h
    exact .inl rfl
  · rename_i task found
    have mem := List.mem_of_find?_eq_some found
    have updatable := List.find?_some found
    obtain ⟨first, writeTasks, h⟩ := bind_eq_ok.mp h
    obtain ⟨second, writeAttempts, h⟩ := bind_eq_ok.mp h
    obtain ⟨third, writeWait, h⟩ := bind_eq_ok.mp h
    obtain ⟨fourth, writeOwner, done⟩ := bind_eq_ok.mp h
    cases done
    have keys := updatable
    simp only [isUpdatable, Bool.and_eq_true, decide_eq_true_eq] at keys
    obtain ⟨⟨⟨ident, team⟩, expected⟩, -⟩ := keys
    have written := taskWritten_of_updateTasks writeTasks mem (by simp [ident, team, expected])
      fun row hit => (of_decide_eq_true hit).1.trans ident.symm
    have moves := updateTaskAttempt_spec writeAttempts
    have waits := AgentTables.write_eq_ok.mp writeWait
    have owner := updateTaskOwner_spec (fun row rowMem owns => ?_) writeOwner
    · have applied : update.expectedStatus.apply update.transition = .ok target := by
        cases outcome : update.expectedStatus.apply update.transition with
        | error error =>
          rw [outcome] at applied
          cases applied
        | ok status =>
          rw [outcome] at applied
          cases applied
          rfl
      rw [← ident] at moves
      refine .inr ⟨task, target, updatable, notStart, applied, written.moved moves ⟨?_, ?_, ?_, ?_⟩⟩
      · rw [owner.teams, waits]
      · rw [owner.tasks, waits]
      · rw [owner.attempts, waits]
      · have instances := owner.instances
        rw [waits] at instances
        exact instances
    · rw [waits] at rowMem
      rw [written.inTeam store.schema moves row rowMem owns, team]

/-! ## Claiming -/

theorem attemptsMoved_of_insertAttempt {store next : AgentStore} {row : AgentAttempt}
    (h : store.insertAttempt row = .ok next) :
    AttemptsMoved store.toAgentTables next.toAgentTables row.taskId none row.status 1 := by
  have tables := AgentTables.write_eq_ok.mp h
  refine ⟨by rw [tables], by rw [tables], by rw [tables], ?_, ?_⟩
  · intro holds others
    rw [tables, List.countP_append, List.countP_singleton, others row rfl]
    rfl
  · intro status
    simp only [attemptCount, tables, List.countP_append, List.countP_singleton, attemptOf,
      true_and, decide_eq_true_eq, reduceCtorEq, if_false, Nat.add_zero]
    simp only [eq_comm]

/-- Idle and draining owners may start a task. -/
def mayStart (status : AgentInstanceStatus) : Bool := status = .idle || status = .draining

/-- The owner's status after a claim. -/
def claimOwner : AgentInstanceStatus → AgentInstanceStatus := drainingOrWhen mayStart .running

theorem startTask_spec {task : AgentTask} {attemptId : AgentAttemptId}
    {ownerIncarnation : Option Text} {now : Timestamp} {store next : AgentStore}
    (mem : task ∈ store.tasks) (queued : task.status = .queued)
    (h : startTask task attemptId ownerIncarnation now store = .ok next) :
    TaskMoved store.toAgentTables next.toAgentTables task .running claimOwner none .running 1 := by
  unfold startTask at h
  obtain ⟨first, writeTasks, h⟩ := bind_eq_ok.mp h
  obtain ⟨second, writeAttempt, h⟩ := bind_eq_ok.mp h
  have written := taskWritten_of_updateTasks writeTasks mem (by simp [queued])
    fun row hit => (of_decide_eq_true hit).1
  have moves := attemptsMoved_of_insertAttempt writeAttempt
  split at h
  · cases h
  · have inTeam := written.inTeam store.schema moves
    refine written.moved moves (ownerWritten_of_updateInstances h inTeam ?_ ?_ ?_)
    · exact fun row => ⟨rfl, rfl, rfl⟩
    · exact fun row hit => (of_decide_eq_true hit).1
    · intro row owns team
      simp only [owns, team, true_and, decide_eq_true_eq, claimOwner, drainingOrWhen, mayStart,
        Bool.or_eq_true]
      rfl

/-- A claim that succeeds leaves the store as it was, or starts the task that its query found. -/
theorem claimRunnableAgentTask_spec {teamId : AgentTeamId} {taskId : AgentTaskId}
    {attemptId : AgentAttemptId} {ownerIncarnation : Option Text} {now : Timestamp}
    {store store' : AgentStore} {result : Option AgentTask}
    (h : claimRunnableAgentTaskWithOwner teamId taskId attemptId ownerIncarnation now store =
      .ok (store', result)) :
    (store' = store ∧ result = none) ∨
      ∃ task, isClaimable store.toAgentTables now teamId taskId task = true ∧
        startTask task attemptId ownerIncarnation now store = .ok store' ∧
        result = store'.tasks.find? (fun row => row.id = taskId) ∧
        TaskMoved store.toAgentTables store'.toAgentTables task .running claimOwner none
          .running 1 := by
  unfold claimRunnableAgentTaskWithOwner at h
  split at h
  · cases h
  split at h
  · cases h
    exact .inl ⟨rfl, rfl⟩
  · rename_i task found
    obtain ⟨next, start, done⟩ := bind_eq_ok.mp h
    cases done
    have claimable := List.find?_some found
    have queued : task.status = .queued := by
      simp only [isClaimable, Bool.and_eq_true, decide_eq_true_eq] at claimable
      exact claimable.1.1.1.1.1.2
    exact .inr ⟨task, claimable, start, rfl,
      startTask_spec (List.mem_of_find?_eq_some found) queued start⟩

/-! ## Suspending -/

/-- Running and draining owners wait with their task. -/
def mayWait (status : AgentInstanceStatus) : Bool := status = .running || status = .draining

/-- The owner's status after `suspend_running_agent_task_with_wait_dependencies`. -/
def suspendOwner : AgentInstanceStatus → AgentInstanceStatus := drainingOrWhen mayWait .waiting

theorem suspendRunningAgentTask_spec {teamId : AgentTeamId} {taskId : AgentTaskId}
    {now : Timestamp} {store store' : AgentStore} {result : Bool}
    (h : suspendRunningAgentTask teamId taskId now store = .ok (store', result)) :
    store' = store ∨ ∃ task, isSuspendable store.toAgentTables now teamId taskId task = true ∧
      TaskMoved store.toAgentTables store'.toAgentTables task .waiting suspendOwner
        (some .running) .suspended 1 := by
  unfold suspendRunningAgentTask at h
  simp only at h
  split at h
  · cases h
    exact .inl rfl
  · rename_i task found
    have mem := List.mem_of_find?_eq_some found
    have suspendable := List.find?_some found
    have keys := suspendable
    simp only [isSuspendable, Bool.and_eq_true, decide_eq_true_eq] at keys
    obtain ⟨⟨⟨⟨ident, team⟩, running⟩, -⟩, -⟩ := keys
    obtain ⟨first, writeTasks, h⟩ := bind_eq_ok.mp h
    have written := taskWritten_of_updateTasks writeTasks mem (by simp [ident, team, running])
      fun row hit => (of_decide_eq_true hit).1.trans ident.symm
    split at h
    · cases h
    rename_i one
    rw [not_not] at one
    obtain ⟨second, writeAttempts, h⟩ := bind_eq_ok.mp h
    obtain ⟨third, writeOwner, done⟩ := bind_eq_ok.mp h
    cases done
    have moves := attemptsMoved_of_updateAttempts writeAttempts
      (fun row hit => ⟨(of_decide_eq_true hit).1.trans ident.symm, (of_decide_eq_true hit).2.2⟩)
      (fun row => ⟨rfl, rfl⟩)
    rw [one] at moves
    have inTeam := written.inTeam store.schema moves
    refine .inr ⟨task, suspendable, written.moved moves
      (ownerWritten_of_updateInstances writeOwner inTeam ?_ ?_ ?_)⟩
    · exact fun row => ⟨rfl, rfl, rfl⟩
    · exact fun row hit => (of_decide_eq_true hit).1
    · intro row owns sameTeam
      simp only [owns, sameTeam, team, true_and, decide_eq_true_eq, suspendOwner, drainingOrWhen,
        mayWait, Bool.or_eq_true]
      rfl

/-- The owner's status after `suspend_remote_plan_task_and_requeue_run`. -/
def remoteSuspendOwner : AgentInstanceStatus → AgentInstanceStatus := drainingOr .waiting

theorem suspendRemotePlanTask_spec {teamId : AgentTeamId} {taskId : AgentTaskId}
    {attemptId : AgentAttemptId} {ownerIncarnation : Text} {owned : Bool} {now : Timestamp}
    {store store' : AgentStore} {result : Bool}
    (h : suspendRemotePlanTask teamId taskId attemptId ownerIncarnation owned now store =
      .ok (store', result)) :
    store' = store ∨
      ∃ task, isRemotelySuspendable store.toAgentTables teamId taskId attemptId ownerIncarnation
          task = true ∧
        TaskMoved store.toAgentTables store'.toAgentTables task .waiting remoteSuspendOwner
          (some .running) .suspended 1 := by
  unfold suspendRemotePlanTask at h
  simp only at h
  split at h
  · cases h
    exact .inl rfl
  · rename_i task found
    have mem := List.mem_of_find?_eq_some found
    have suspendable := List.find?_some found
    have keys := suspendable
    simp only [isRemotelySuspendable, Bool.and_eq_true, decide_eq_true_eq] at keys
    obtain ⟨⟨ident, team, running⟩, -⟩ := keys
    split at h
    · cases h
    obtain ⟨first, writeTasks, h⟩ := bind_eq_ok.mp h
    have written := taskWritten_of_updateTasks writeTasks mem (by simp [ident, team, running])
      fun row hit => (of_decide_eq_true hit).1.trans ident.symm
    split at h
    · cases h
    rename_i one
    rw [not_not] at one
    obtain ⟨second, writeAttempts, h⟩ := bind_eq_ok.mp h
    obtain ⟨third, writeOwner, done⟩ := bind_eq_ok.mp h
    cases done
    have moves := attemptsMoved_of_updateAttempts writeAttempts
      (fun row hit => ⟨(of_decide_eq_true hit).2.1.trans ident.symm,
        (of_decide_eq_true hit).2.2.2.1⟩)
      (fun row => ⟨rfl, rfl⟩)
    rw [one] at moves
    have inTeam := written.inTeam store.schema moves
    refine .inr ⟨task, suspendable, written.moved moves
      (ownerWritten_of_updateInstances writeOwner inTeam ?_ ?_ ?_)⟩
    · exact fun row => ⟨rfl, rfl, rfl⟩
    · exact fun row hit => (of_decide_eq_true hit).1
    · intro row owns sameTeam
      simp only [owns, sameTeam, team, and_self, decide_true, if_true]
      rfl

/-! ## Closing before the stream -/

/-- The owner's status after `close_pre_stream_chat_failure`. -/
def closeOwner (interruptionReason : Option Text) : AgentInstanceStatus → AgentInstanceStatus :=
  drainingOr (terminalInstanceStatus interruptionReason)

theorem closePreStreamChatFailure_spec {taskId : AgentTaskId} {expected : ExpectedAttempt}
    {reason : Option Text} {owned : Bool} {now : Timestamp} {store store' : AgentStore}
    {result : Bool}
    (h : closePreStreamChatFailure taskId expected reason owned now store =
      .ok (store', result)) :
    store' = store ∨ ∃ task, isClosable store.toAgentTables taskId expected task = true ∧
      TaskMoved store.toAgentTables store'.toAgentTables task (terminalTaskStatus reason)
        (closeOwner reason) (some .running) (terminalAttemptStatus reason) 1 := by
  unfold closePreStreamChatFailure at h
  simp only at h
  split at h
  · cases h
    exact .inl rfl
  · rename_i task found
    have mem := List.mem_of_find?_eq_some found
    have closable := List.find?_some found
    have keys := closable
    simp only [isClosable, Bool.and_eq_true, decide_eq_true_eq] at keys
    obtain ⟨⟨ident, running⟩, -⟩ := keys
    split at h
    · cases h
      exact .inl rfl
    obtain ⟨first, writeTasks, h⟩ := bind_eq_ok.mp h
    have written := taskWritten_of_updateTasks writeTasks mem (by simp [ident, running])
      fun row hit => (of_decide_eq_true hit).1.trans ident.symm
    split at h
    · cases h
    rename_i one
    rw [not_not] at one
    obtain ⟨second, writeAttempts, h⟩ := bind_eq_ok.mp h
    obtain ⟨third, writeOwner, done⟩ := bind_eq_ok.mp h
    cases done
    have moves : AttemptsMoved first.toAgentTables second.toAgentTables task.id (some .running)
        (terminalAttemptStatus reason) 1 := by
      rw [← one]
      apply attemptsMoved_of_updateAttempts writeAttempts
      · intro row hit
        simp only [isClosableAttempt, Bool.and_eq_true, decide_eq_true_eq] at hit
        exact ⟨hit.1.1.trans ident.symm, hit.1.2⟩
      · exact fun row => ⟨rfl, rfl⟩
    have inTeam := written.inTeam store.schema moves
    refine .inr ⟨task, closable, written.moved moves
      (ownerWritten_of_updateInstances writeOwner inTeam ?_ ?_ ?_)⟩
    · exact fun row => ⟨rfl, rfl, rfl⟩
    · exact fun row hit => (of_decide_eq_true hit).1
    · intro row owns sameTeam
      simp only [owns, sameTeam, and_self, decide_true, if_true]
      rfl

/-! ## Cancelling a subtree -/

/-- Waiting and draining owners are released by a task that stops waiting. -/
def isReleasable (status : AgentInstanceStatus) : Bool := status = .waiting || status = .draining

/-- The owner's status when its task stops waiting. -/
def releaseOwner : AgentInstanceStatus → AgentInstanceStatus := drainingOrWhen isReleasable .idle

/-- The effect of cancelling one task of a subtree: a queued task just ends, a waiting task
ends with its suspended attempt and releases its owner. -/
def SubtreeTaskCancelled (before after : AgentTables) (task : AgentTask) : Prop :=
  (task.status = .queued ∧ TaskMoved before after task .cancelled id none .cancelled 0) ∨
    (task.status = .waiting ∧
      TaskMoved before after task .cancelled releaseOwner (some .suspended) .cancelled 1)

theorem cancelSubtreeTask_spec {teamId : AgentTeamId} {reason : Option Text} {now : Timestamp}
    {store next : AgentStore} {task : AgentTask} (mem : task ∈ store.tasks)
    (team : task.teamId = teamId) (pending : task.status = .queued ∨ task.status = .waiting)
    (h : cancelSubtreeTask teamId reason now store task = .ok next) :
    SubtreeTaskCancelled store.toAgentTables next.toAgentTables task := by
  unfold cancelSubtreeTask at h
  simp only at h
  split at h
  · cases h
  obtain ⟨first, writeTasks, h⟩ := bind_eq_ok.mp h
  obtain ⟨second, writeAttempt, writeWait⟩ := bind_eq_ok.mp h
  have written := taskWritten_of_updateTasks writeTasks mem (by simp [team, pending])
    fun row hit => (of_decide_eq_true hit).2.1
  have waits := AgentTables.write_eq_ok.mp writeWait
  unfold cancelSuspendedAttempt at writeAttempt
  simp only at writeAttempt
  rcases pending with queued | waiting
  · left
    rw [if_pos (by simp [queued])] at writeAttempt
    cases writeAttempt
    refine ⟨queued, written.moved (.refl _ _ _) ⟨?_, ?_, ?_, ?_⟩⟩
    · rw [waits]
    · rw [waits]
    · rw [waits]
    · rw [waits]
      exact .refl
  · right
    rw [if_neg (by simp [waiting])] at writeAttempt
    split at writeAttempt
    · cases writeAttempt
    rename_i one
    rw [not_not] at one
    obtain ⟨middle, writeAttempts, writeOwner⟩ := bind_eq_ok.mp writeAttempt
    have moves := attemptsMoved_of_updateAttempts writeAttempts
      (fun row hit => ⟨(of_decide_eq_true hit).1, (of_decide_eq_true hit).2.2⟩)
      (fun row => ⟨rfl, rfl⟩)
    rw [one] at moves
    have inTeam := written.inTeam store.schema moves
    have owner : OwnerWritten middle.toAgentTables second.toAgentTables task.ownerInstanceId
        releaseOwner := by
      apply ownerWritten_of_updateInstances writeOwner inTeam
      · exact fun row => ⟨rfl, rfl, rfl⟩
      · exact fun row hit => (of_decide_eq_true hit).1
      · intro row owns sameTeam
        simp only [owns, sameTeam, team, true_and, decide_eq_true_eq, releaseOwner,
          drainingOrWhen, isReleasable, Bool.or_eq_true]
        rfl
    refine ⟨waiting, written.moved moves ⟨?_, ?_, ?_, ?_⟩⟩
    · rw [waits]
      exact owner.teams
    · rw [waits]
      exact owner.tasks
    · rw [waits]
      exact owner.attempts
    · rw [waits]
      exact owner.instances

/-! ## Resuming and recovering -/

theorem resumeTask_spec {requeued : AgentTaskId → Bool} {now : Timestamp}
    {store next : AgentStore} {task : AgentTask} (mem : task ∈ store.tasks)
    (waiting : task.status = .waiting) (h : resumeTask requeued now store task = .ok next) :
    TaskMoved store.toAgentTables next.toAgentTables task .queued releaseOwner none .running 0 := by
  unfold resumeTask at h
  split at h
  · cases h
  obtain ⟨first, writeTasks, writeOwner⟩ := bind_eq_ok.mp h
  have written := taskWritten_of_updateTasks writeTasks mem (by simp [waiting])
    fun row hit => (of_decide_eq_true hit).1
  have moves := AttemptsMoved.refl first.toAgentTables task.id .running
  have inTeam := written.inTeam store.schema moves
  refine written.moved moves (ownerWritten_of_updateInstances writeOwner inTeam ?_ ?_ ?_)
  · exact fun row => ⟨rfl, rfl, rfl⟩
  · exact fun row hit => (of_decide_eq_true hit).1
  · intro row owns sameTeam
    simp only [owns, sameTeam, true_and, decide_eq_true_eq, releaseOwner, drainingOrWhen,
      isReleasable, Bool.or_eq_true]
    rfl

/-- The owners that `recover_interrupted_agent_wait_tasks` lets wait again. -/
def mayRecover (status : AgentInstanceStatus) : Bool :=
  status = .paused || status = .idle || status = .waiting || status = .draining

/-- The owner's status after the recovery of its task. -/
def recoverOwner : AgentInstanceStatus → AgentInstanceStatus := drainingOrWhen mayRecover .waiting

theorem recoverTask_spec {reason : Text} {now : Timestamp} {store next : AgentStore}
    {task : AgentTask} (mem : task ∈ store.tasks) (interrupted : task.status = .interrupted)
    (h : recoverTask reason now store task = .ok next) :
    TaskMoved store.toAgentTables next.toAgentTables task .waiting recoverOwner
      (some .interrupted) .suspended (store.attempts.countP (interruptedFor reason task)) := by
  unfold recoverTask at h
  obtain ⟨first, writeTasks, h⟩ := bind_eq_ok.mp h
  obtain ⟨second, writeAttempts, writeOwner⟩ := bind_eq_ok.mp h
  have written := taskWritten_of_updateTasks writeTasks mem (by simp [interrupted])
    fun row hit => (of_decide_eq_true hit).1
  have moves := attemptsMoved_of_updateAttempts writeAttempts
    (fun row hit => ⟨(of_decide_eq_true hit).1, (of_decide_eq_true hit).2.2.1⟩)
    (fun row => ⟨rfl, rfl⟩)
  rw [written.attempts] at moves
  have inTeam := written.inTeam store.schema moves
  refine written.moved moves (ownerWritten_of_updateInstances writeOwner inTeam ?_ ?_ ?_)
  · exact fun row => ⟨rfl, rfl, rfl⟩
  · exact fun row hit => (of_decide_eq_true hit).1
  · intro row owns sameTeam
    simp only [owns, sameTeam, true_and, decide_eq_true_eq, recoverOwner, drainingOrWhen,
      mayRecover, Bool.or_eq_true, or_assoc]
    rfl

/-! ## Snapshots of tasks -/

theorem mem_subtreeTasks {tables : AgentTables} {teamId : AgentTeamId}
    {rootTaskId : AgentTaskId} {task : AgentTask}
    (mem : task ∈ subtreeTasks tables teamId rootTaskId) :
    task ∈ tables.tasks ∧ task.teamId = teamId := by
  obtain ⟨rows, found⟩ := List.mem_filter.mp (mem_sortBy.mp mem)
  exact ⟨rows, (of_decide_eq_true found).1⟩

theorem mem_resumableTasks {tables : AgentTables} {limit : Int} {now : Timestamp}
    {matching : AgentTask → Bool} {task : AgentTask}
    (mem : task ∈ resumableTasks tables limit now matching) :
    task ∈ tables.tasks ∧ isResumable tables now matching task = true :=
  List.mem_filter.mp (mem_sortBy.mp (List.mem_of_mem_take mem))

theorem mem_recoverableTasks {tables : AgentTables} {reason : Text} {limit : Int}
    {task : AgentTask} (mem : task ∈ recoverableTasks tables reason limit) :
    task ∈ tables.tasks ∧ isRecoverable tables reason task = true :=
  List.mem_filter.mp (mem_sortBy.mp (List.mem_of_mem_take mem))

/-! ## Operations on teams, instances and the queue -/

/-- Teams and idle instances were added. -/
structure InstancesCreated (before after : AgentTables) : Prop where
  teams : ∃ created, after.teams = before.teams ++ created
  instances : ∃ created, after.instances = before.instances ++ created ∧
    ∀ row ∈ created, row.status = .idle ∧ row.nextTaskSequence = 0
  tasks : after.tasks = before.tasks
  attempts : after.attempts = before.attempts

theorem createAgentTeam_spec {team : NewAgentTeam} {store store' : AgentStore} {result : Unit}
    (h : createAgentTeam team store = .ok (store', result)) :
    InstancesCreated store.toAgentTables store'.toAgentTables := by
  unfold createAgentTeam at h
  split at h
  · cases h
  obtain ⟨first, writeTeam, h⟩ := bind_eq_ok.mp h
  obtain ⟨second, writeInstance, done⟩ := bind_eq_ok.mp h
  cases done
  have teams := AgentTables.write_eq_ok.mp writeTeam
  have instances := AgentTables.write_eq_ok.mp writeInstance
  refine ⟨⟨_, by rw [instances, teams]⟩, ⟨_, by rw [instances, teams], ?_⟩, ?_, ?_⟩
  · intro row mem
    rw [List.mem_singleton.mp mem]
    exact ⟨rfl, rfl⟩
  · rw [instances, teams]
  · rw [instances, teams]

theorem insertInstances_spec {instances : List NewAgentInstance} {store store' : AgentStore}
    (h : instances.foldlM (fun store row => store.insertInstance
      (newInstanceRow row.id row.teamId row.definitionId row.role)) store = .ok store') :
    InstancesCreated store.toAgentTables store'.toAgentTables := by
  induction instances generalizing store with
  | nil =>
    cases h
    exact ⟨⟨[], (List.append_nil _).symm⟩, ⟨[], (List.append_nil _).symm, by simp⟩, rfl, rfl⟩
  | cons row rest ih =>
    obtain ⟨next, writeInstance, tail⟩ := bind_eq_ok.mp h
    have tables := AgentTables.write_eq_ok.mp writeInstance
    obtain ⟨⟨teams, teamsEq⟩, ⟨created, createdEq, idle⟩, tasks, attempts⟩ := ih tail
    rw [tables] at teamsEq createdEq tasks attempts
    refine ⟨⟨teams, teamsEq⟩,
      ⟨newInstanceRow row.id row.teamId row.definitionId row.role :: created, ?_, ?_⟩,
      tasks, attempts⟩
    · rw [createdEq, List.append_assoc]
      rfl
    · intro new mem
      rcases List.mem_cons.mp mem with rfl | old
      · exact ⟨rfl, rfl⟩
      · exact idle new old

theorem createAgentInstances_spec {instances : List NewAgentInstance}
    {maxTeam maxDefinition : Int} {store store' : AgentStore} {result : Unit}
    (h : createAgentInstancesWithLimits instances maxTeam maxDefinition store =
      .ok (store', result)) :
    InstancesCreated store.toAgentTables store'.toAgentTables := by
  unfold createAgentInstancesWithLimits at h
  split at h
  · cases h
  split at h
  · cases h
  split at h
  · cases h
  split at h
  · cases h
  split at h
  · cases h
  split at h
  · cases h
  split at h
  · cases h
  obtain ⟨next, write, done⟩ := bind_eq_ok.mp h
  cases done
  exact insertInstances_spec write

/-- A team got a new status, and the statuses of its instances were rewritten. -/
structure TeamTransitioned (before after : AgentTables) (teamId : AgentTeamId)
    (target : AgentTeamStatus) : Prop where
  teams : ∀ row ∈ after.teams, ∃ old ∈ before.teams, row.id = old.id ∧
    row.status = if old.id = teamId then target else old.status
  instances : ∀ row ∈ after.instances, ∃ old ∈ before.instances, row.id = old.id ∧
    row.teamId = old.teamId ∧ row.nextTaskSequence = old.nextTaskSequence ∧
    row.status = if old.teamId = teamId ∧ (teamTransitionRewrites target).1 old.status = true
      then (teamTransitionRewrites target).2 else old.status
  tasks : after.tasks = before.tasks
  attempts : after.attempts = before.attempts

theorem transitionAgentTeamStatus_spec {teamId : AgentTeamId} {target : AgentTeamStatus}
    {store store' : AgentStore} {result : Bool}
    (h : transitionAgentTeamStatus teamId target store = .ok (store', result)) :
    ∃ current ∈ store.teams, current.id = teamId ∧ current.status.allows target = true ∧
      (target = .stopped → teamIsIdle store.toAgentTables teamId = true) ∧
      TeamTransitioned store.toAgentTables store'.toAgentTables teamId target := by
  unfold transitionAgentTeamStatus at h
  split at h
  · cases h
  rename_i current found
  have mem := List.mem_of_find?_eq_some found
  have ident : current.id = teamId := by simpa using List.find?_some found
  obtain ⟨status, allowed, h⟩ := bind_eq_ok.mp h
  have allows : current.status.allows target = true := by
    cases outcome : current.status.transitionTo target with
    | error error =>
      rw [outcome] at allowed
      cases allowed
    | ok reached => exact (AgentTeamStatus.transitionTo_eq_ok outcome).1
  split at h
  · cases h
  rename_i workload
  simp only at h
  split at h
  · cases h
  obtain ⟨first, writeTeams, h⟩ := bind_eq_ok.mp h
  obtain ⟨second, writeInstances, done⟩ := bind_eq_ok.mp h
  cases done
  have teams := AgentTables.write_eq_ok.mp writeTeams
  have instances := AgentTables.write_eq_ok.mp writeInstances
  have idle : target = .stopped → teamIsIdle store.toAgentTables teamId = true := by
    intro stopped
    cases idle : teamIsIdle store.toAgentTables teamId with
    | true => rfl
    | false => exact absurd ⟨stopped, idle⟩ workload
  refine ⟨current, mem, ident, allows, idle, ?_, ?_, ?_, ?_⟩
  · intro row rowMem
    rw [instances, teams] at rowMem
    obtain ⟨old, oldMem, rfl⟩ := mem_update.mp rowMem
    refine ⟨old, oldMem, ?_⟩
    by_cases same : old.id = teamId
    · have old_eq : old = current := store.schema.teams.teamIds.eq oldMem mem (same.trans ident.symm)
      have selected : (decide (target ≠ .stopped) || teamIsIdle store.toAgentTables teamId) = true := by
        by_cases stopped : target = .stopped
        · rw [idle stopped, Bool.or_true]
        · rw [decide_eq_true stopped, Bool.true_or]
      subst old_eq
      simp only [same, selected, decide_true, Bool.and_true, if_true, and_self]
    · simp only [same, decide_false, Bool.false_and, Bool.false_eq_true, if_false, and_self]
  · intro row rowMem
    rw [instances, teams] at rowMem
    obtain ⟨old, oldMem, rfl⟩ := mem_update.mp rowMem
    refine ⟨old, oldMem, ?_⟩
    simp only [Bool.and_eq_true, decide_eq_true_eq]
    split
    · exact ⟨rfl, rfl, rfl, rfl⟩
    · exact ⟨rfl, rfl, rfl, rfl⟩
  · rw [instances, teams]
  · rw [instances, teams]

theorem transitionAgentInstanceStatus_spec {instanceId : AgentInstanceId}
    {target : AgentInstanceStatus} {store store' : AgentStore} {result : Bool}
    (h : transitionAgentInstanceStatus instanceId target store = .ok (store', result)) :
    ∃ current ∈ store.instances, current.id = instanceId ∧
      current.status.allows target = true ∧
      (∀ task ∈ store.tasks, task.ownerInstanceId = instanceId →
        blocksInstanceTransition target task.status = false) ∧
      OwnerWritten store.toAgentTables store'.toAgentTables instanceId (fun _ => target) := by
  unfold transitionAgentInstanceStatus at h
  split at h
  · cases h
  rename_i current found
  have mem := List.mem_of_find?_eq_some found
  have ident : current.id = instanceId := by simpa using List.find?_some found
  obtain ⟨status, allowed, h⟩ := bind_eq_ok.mp h
  have allows : current.status.allows target = true := by
    cases outcome : current.status.transitionTo target with
    | error error =>
      rw [outcome] at allowed
      cases allowed
    | ok reached => exact (AgentInstanceStatus.transitionTo_eq_ok outcome).1
  split at h
  · cases h
  rename_i free
  simp only at h
  split at h
  · cases h
  obtain ⟨next, write, done⟩ := bind_eq_ok.mp h
  cases done
  refine ⟨current, mem, ident, allows, ?_, ?_⟩
  · intro task taskMem owns
    by_contra blocks
    apply free
    apply List.any_eq_true.mpr
    refine ⟨task, taskMem, ?_⟩
    simp only [owns, decide_true, Bool.true_and]
    exact Bool.of_not_eq_false blocks
  · have tables := AgentTables.write_eq_ok.mp write
    refine ⟨by rw [tables], by rw [tables], by rw [tables], ?_⟩
    rw [tables]
    intro row rowMem
    obtain ⟨old, oldMem, rfl⟩ := mem_update.mp rowMem
    refine ⟨old, oldMem, ?_⟩
    by_cases same : old.id = instanceId
    · have old_eq : old = current :=
        store.schema.teams.instanceIds.eq oldMem mem (same.trans ident.symm)
      subst old_eq
      simp only [same, decide_true, Bool.and_self, if_true]
      exact ⟨same.symm ▸ rfl, rfl, rfl, rfl⟩
    · simp only [same, decide_false, Bool.false_and, Bool.false_eq_true, if_false, and_self]

theorem deleteAgentInstance_spec {instanceId : AgentInstanceId} {store store' : AgentStore}
    {result : Bool} (h : deleteAgentInstance instanceId store = .ok (store', result)) :
    store'.toAgentTables = withoutInstance store.toAgentTables instanceId := by
  unfold deleteAgentInstance at h
  split at h
  · cases h
  split at h
  · cases h
  split at h
  · cases h
  split at h
  · cases h
  obtain ⟨next, write, done⟩ := bind_eq_ok.mp h
  cases done
  exact AgentTables.write_eq_ok.mp write

/-- An instance gave its next task sequence away. -/
def SequenceDrawn (before after : List AgentInstance) (instanceId : AgentInstanceId) : Prop :=
  ∀ row ∈ after, ∃ old ∈ before, row.id = old.id ∧ row.teamId = old.teamId ∧
    row.status = old.status ∧
    row.nextTaskSequence = if old.id = instanceId then old.nextTaskSequence + 1
      else old.nextTaskSequence

theorem sequenceDrawn_of_update {rows : List AgentInstance} (unique : Unique AgentInstance.id rows)
    {owner : AgentInstance} {teamId : AgentTeamId} (mem : owner ∈ rows)
    (team : owner.teamId = teamId) :
    SequenceDrawn rows (update (fun row => row.id = owner.id ∧ row.teamId = teamId)
      AgentInstance.countTask rows) owner.id := by
  intro row rowMem
  obtain ⟨old, oldMem, rfl⟩ := mem_update.mp rowMem
  refine ⟨old, oldMem, ?_⟩
  by_cases same : old.id = owner.id
  · have old_eq : old = owner := unique.eq oldMem mem same
    subst old_eq
    simp only [team, and_self, decide_true, if_true]
    exact ⟨rfl, team, rfl, rfl⟩
  · simp only [same, false_and, decide_false, Bool.false_eq_true, if_false, and_self]

/-- A queued task was added at the end of its owner's queue. -/
structure TaskEnqueued (before after : AgentTables) (owner : AgentInstance) (row : AgentTask) :
    Prop where
  mem : owner ∈ before.instances
  owns : row.ownerInstanceId = owner.id
  sequence : row.sequence = owner.nextTaskSequence
  queued : row.status = .queued
  teams : after.teams = before.teams
  instances : SequenceDrawn before.instances after.instances owner.id
  tasks : after.tasks = before.tasks ++ [row]
  attempts : after.attempts = before.attempts

theorem acceptingOwner_spec {tables : AgentTables} {teamId : AgentTeamId}
    {instanceId : AgentInstanceId} {owner : AgentInstance}
    (h : acceptingOwner tables teamId instanceId = .ok owner) :
    owner ∈ tables.instances ∧ owner.id = instanceId ∧ owner.teamId = teamId := by
  unfold acceptingOwner at h
  split at h
  · rename_i team found _ foundOwner
    split at h
    · cases h
    split at h
    · cases h
    cases h
    have keys : owner.id = instanceId ∧ owner.teamId = teamId := by
      simpa using List.find?_some foundOwner
    exact ⟨List.mem_of_find?_eq_some foundOwner, keys.1, keys.2⟩
  · cases h

theorem enqueueAgentTask_spec {task : NewAgentTask} {maxTeam maxInstance maxChat : Int}
    {now : Timestamp} {store store' : AgentStore} {result : Unit}
    (h : enqueueAgentTaskWithLimits task maxTeam maxInstance maxChat now store =
      .ok (store', result)) :
    ∃ owner row, TaskEnqueued store.toAgentTables store'.toAgentTables owner row := by
  unfold enqueueAgentTaskWithLimits at h
  split at h
  · cases h
  obtain ⟨_, _, h⟩ := bind_eq_ok.mp h
  obtain ⟨_, _, h⟩ := bind_eq_ok.mp h
  obtain ⟨_, _, h⟩ := bind_eq_ok.mp h
  obtain ⟨owner, accepting, h⟩ := bind_eq_ok.mp h
  simp only at h
  split at h
  · cases h
  split at h
  · cases h
  obtain ⟨first, writeInstances, h⟩ := bind_eq_ok.mp h
  obtain ⟨second, writeTask, done⟩ := bind_eq_ok.mp h
  cases done
  obtain ⟨mem, ident, team⟩ := acceptingOwner_spec accepting
  have instances := AgentTables.write_eq_ok.mp writeInstances
  have tasks := AgentTables.write_eq_ok.mp writeTask
  refine ⟨owner, _, mem, ident.symm, rfl, rfl, ?_, ?_, by rw [tasks, instances], ?_⟩
  · rw [tasks, instances]
  · rw [tasks, instances, ← ident]
    exact sequenceDrawn_of_update store.schema.teams.instanceIds mem team
  · rw [tasks, instances]

/-- A queued task moved to the end of another owner's queue. -/
structure TaskTransferred (before after : AgentTables) (task : AgentTask)
    (target : AgentInstance) : Prop where
  mem : task ∈ before.tasks
  queued : task.status = .queued
  targetMem : target ∈ before.instances
  teams : after.teams = before.teams
  instances : SequenceDrawn before.instances after.instances target.id
  tasks : ∃ now, after.tasks = update (fun row => row.id = task.id)
    (fun row => { row with
      ownerInstanceId := target.id, sequence := target.nextTaskSequence, updatedAt := now })
    before.tasks
  attempts : after.attempts = before.attempts

theorem transferQueuedAgentTask_spec {teamId : AgentTeamId} {taskId : AgentTaskId}
    {targetId : AgentInstanceId} {maxTeam maxInstance maxChat : Int} {now : Timestamp}
    {store store' : AgentStore} {result : Option AgentTask}
    (h : transferQueuedAgentTaskWithLimits teamId taskId targetId maxTeam maxInstance maxChat now
      store = .ok (store', result)) :
    store' = store ∨
      ∃ task target, TaskTransferred store.toAgentTables store'.toAgentTables task target := by
  unfold transferQueuedAgentTaskWithLimits at h
  split at h
  · cases h
  split at h
  · rename_i task team target foundTask _ foundTarget
    split at h
    · cases h
    rename_i queued
    split at h
    · cases h
    split at h
    · cases h
    split at h
    · cases h
      exact .inl rfl
    split at h
    · cases h
    obtain ⟨first, writeInstances, h⟩ := bind_eq_ok.mp h
    obtain ⟨second, writeTask, done⟩ := bind_eq_ok.mp h
    cases done
    rw [not_not] at queued
    have taskMem := List.mem_of_find?_eq_some foundTask
    have taskKeys : task.id = taskId ∧ task.teamId = teamId := by
      simpa using List.find?_some foundTask
    have targetMem := List.mem_of_find?_eq_some foundTarget
    have targetKeys : target.id = targetId ∧ target.teamId = teamId := by
      simpa using List.find?_some foundTarget
    have instances := AgentTables.write_eq_ok.mp writeInstances
    have tasks := AgentTables.write_eq_ok.mp writeTask
    refine .inr ⟨task, target, taskMem, queued, targetMem, ?_, ?_, ⟨now, ?_⟩, ?_⟩
    · rw [tasks, instances]
    · rw [tasks, instances, ← targetKeys.1]
      exact sequenceDrawn_of_update store.schema.teams.instanceIds targetMem targetKeys.2
    · rw [tasks, instances, targetKeys.1]
      apply update_task_eq store.schema taskMem
      · simp [taskKeys.1, taskKeys.2, queued]
      · exact fun row hit => (of_decide_eq_true hit).2.1.trans taskKeys.1.symm
    · rw [tasks, instances]
  · cases h
    exact .inl rfl

/-! ## Operations on dependencies, cancellations and leases -/

private theorem sameRows_of_eq {before after : AgentTables} (teams : after.teams = before.teams)
    (instances : after.instances = before.instances) (tasks : after.tasks = before.tasks)
    (attempts : after.attempts = before.attempts) : SameRows before after :=
  ⟨teams, instances, tasks, fun _ _ => by rw [attemptCount, attempts]; rfl⟩

theorem SameRows.trans {first second third : AgentTables} (head : SameRows first second)
    (tail : SameRows second third) : SameRows first third :=
  ⟨tail.teams.trans head.teams, tail.instances.trans head.instances, tail.tasks.trans head.tasks,
    fun taskId status => (tail.attempts taskId status).trans (head.attempts taskId status)⟩

theorem deleteDependencies_spec {taskId : AgentTaskId} {store next : AgentStore}
    (h : store.deleteDependencies taskId = .ok next) :
    SameRows store.toAgentTables next.toAgentTables := by
  have tables := AgentTables.write_eq_ok.mp h
  apply sameRows_of_eq <;> rw [tables]

theorem insertDependencyRows_spec {round : WaitRound} {dependencies : List AgentTaskId}
    {store next : AgentStore} (h : insertDependencyRows round dependencies store = .ok next) :
    SameRows store.toAgentTables next.toAgentTables := by
  induction dependencies generalizing store with
  | nil =>
    cases h
    exact .refl _
  | cons dependency rest ih =>
    obtain ⟨middle, write, tail⟩ := bind_eq_ok.mp h
    have tables := AgentTables.write_eq_ok.mp write
    have head : SameRows store.toAgentTables middle.toAgentTables := by
      apply sameRows_of_eq <;> rw [tables]
    exact head.trans (ih tail)

theorem registerAgentTaskWait_spec {round : WaitRound} {store store' : AgentStore}
    {result : WaitRegistrationOutcome}
    (h : registerAgentTaskWaitDependencies round store = .ok (store', result)) :
    SameRows store.toAgentTables store'.toAgentTables := by
  unfold registerAgentTaskWaitDependencies at h
  obtain ⟨_, _, h⟩ := bind_eq_ok.mp h
  split at h
  · cases h
  split at h
  · cases h
  obtain ⟨_, _, h⟩ := bind_eq_ok.mp h
  obtain ⟨_, _, h⟩ := bind_eq_ok.mp h
  unfold storeWaitRound at h
  simp only at h
  split at h
  · obtain ⟨next, write, done⟩ := bind_eq_ok.mp h
    cases done
    exact insertDependencyRows_spec write
  split at h
  · split at h
    · split at h
      · cases h
        exact .refl _
      · obtain ⟨next, write, done⟩ := bind_eq_ok.mp h
        cases done
        exact insertDependencyRows_spec write
    · cases h
  split at h
  · cases h
  split at h
  · obtain ⟨next, delete, h⟩ := bind_eq_ok.mp h
    obtain ⟨last, write, done⟩ := bind_eq_ok.mp h
    cases done
    exact (deleteDependencies_spec delete).trans (insertDependencyRows_spec write)
  · cases h

theorem deleteAgentTaskDependencies_spec {taskId : AgentTaskId} {store store' : AgentStore}
    {result : Nat} (h : deleteAgentTaskDependencies taskId store = .ok (store', result)) :
    SameRows store.toAgentTables store'.toAgentTables := by
  obtain ⟨next, delete, done⟩ := bind_eq_ok.mp h
  cases done
  exact deleteDependencies_spec delete

theorem renewAgentAttemptLease_spec {taskId : AgentTaskId} {attemptId : AgentAttemptId}
    {ownerIncarnation : Text} {now : Timestamp} {store store' : AgentStore} {result : Bool}
    (h : renewAgentAttemptLease taskId attemptId ownerIncarnation now store =
      .ok (store', result)) :
    SameRows store.toAgentTables store'.toAgentTables := by
  unfold renewAgentAttemptLease at h
  split at h
  · cases h
  obtain ⟨next, write, done⟩ := bind_eq_ok.mp h
  cases done
  have tables := AgentTables.write_eq_ok.mp write
  refine ⟨by rw [tables], by rw [tables], by rw [tables], ?_⟩
  intro taskId status
  rw [attemptCount, tables]
  exact countP_update_eq fun row _ _ => rfl

theorem recordSubtreeCancellation_spec {teamId : AgentTeamId} {rootTaskId : AgentTaskId}
    {subtree : List AgentTask} {store next : AgentStore}
    (h : recordSubtreeCancellation teamId rootTaskId subtree store = .ok next) :
    next.teams = store.teams ∧ next.instances = store.instances ∧ next.tasks = store.tasks ∧
      next.attempts = store.attempts := by
  unfold recordSubtreeCancellation AgentStore.insertCancellation at h
  split at h
  · cases h
    exact ⟨rfl, rfl, rfl, rfl⟩
  split at h
  · cases h
    exact ⟨rfl, rfl, rfl, rfl⟩
  · have tables := AgentTables.write_eq_ok.mp h
    exact ⟨by rw [tables], by rw [tables], by rw [tables], by rw [tables]⟩

/-! ## Loops over a snapshot of tasks -/

/-- A loop whose body moves one task of the snapshot at a time. `Ready` is what the body needs
to know of the rows it has not come to. -/
theorem foldlM_moves {body : AgentStore → AgentTask → Except AgentStoreError AgentStore}
    {Inv : AgentTables → Prop} (Ready : AgentTables → AgentTask → Prop)
    (step : ∀ (store next : AgentStore) (task : AgentTask), Inv store.toAgentTables →
      task ∈ store.tasks → Ready store.toAgentTables task → body store task = .ok next →
      Inv next.toAgentTables ∧ ∃ target owner source written moved,
        TaskMoved store.toAgentTables next.toAgentTables task target owner source written moved)
    (frame : ∀ (store next : AgentStore) (task other : AgentTask), other ∈ store.tasks →
      other.id ≠ task.id → Ready store.toAgentTables other → body store task = .ok next →
      task ∈ store.tasks → Ready store.toAgentTables task → Ready next.toAgentTables other)
    {rows : List AgentTask} (unique : Unique AgentTask.id rows) {store store' : AgentStore}
    (inv : Inv store.toAgentTables)
    (ready : ∀ row ∈ rows, row ∈ store.tasks ∧ Ready store.toAgentTables row)
    (h : rows.foldlM body store = .ok store') : Inv store'.toAgentTables := by
  have keep : ∀ (store : AgentStore) (row : AgentTask) (next : AgentStore),
      Inv store.toAgentTables → (row ∈ store.tasks ∧ Ready store.toAgentTables row) →
      body store row = .ok next → Inv next.toAgentTables ∧ ∀ other : AgentTask,
        row.id ≠ other.id → (other ∈ store.tasks ∧ Ready store.toAgentTables other) →
        (other ∈ next.tasks ∧ Ready next.toAgentTables other) := by
    intro store task next inv ⟨mem, ready⟩ run
    obtain ⟨inv', _, _, _, _, _, effect⟩ := step store next task inv mem ready run
    refine ⟨inv', ?_⟩
    intro other apart ⟨otherMem, otherReady⟩
    exact ⟨effect.other_mem otherMem apart.symm,
      frame store next task other otherMem apart.symm otherReady run mem ready⟩
  exact foldlM_snapshot keep unique inv ready h

/-- A committed action is a successful operation. -/
theorem commit_eq_ok {Result : Type} {run : Except AgentStoreError (AgentStore × Result)}
    {store : AgentStore} (h : Prod.fst <$> run = .ok store) :
    ∃ result, run = .ok (store, result) := by
  cases run with
  | error error => cases h
  | ok outcome =>
    cases h
    exact ⟨outcome.2, rfl⟩

end Foco.AgentRuntime
