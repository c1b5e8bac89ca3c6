import Foco.AgentEffects

/-!
Which writes the schema accepts. The statements on tasks and instances leave the keys of
their rows alone, so all that a new status of a task can offend is the index on active
tasks; a new attempt must be the only one of its task that runs.
-/
namespace Foco.AgentRuntime
open Foco.RustText Foco.AgentDomain Foco.Table Foco.Result

/-- A write that meets the schema is accepted. -/
theorem AgentTables.write_of_schema {tables : AgentTables} (schema : Schema tables) :
    tables.write = .ok ⟨tables, schema⟩ := by
  unfold AgentTables.write
  rw [dif_pos schema]

/-- A new status of tasks meets the schema if it leaves every owner one active task. -/
theorem Schema.setTaskStatus {tables : AgentTables} (schema : Schema tables)
    {selects : AgentTask → Bool} {target : AgentTaskStatus} {now : Timestamp}
    (active : UniqueWhere (fun row => row.status.isActive) AgentTask.ownerInstanceId
      (update selects (AgentTask.setStatus target now) tables.tasks)) :
    Schema { tables with tasks := update selects (AgentTask.setStatus target now) tables.tasks } := by
  have keys : (update selects (AgentTask.setStatus target now) tables.tasks).map AgentTask.key =
      tables.tasks.map AgentTask.key := map_update AgentTask.key fun _ => rfl
  have from_old : ∀ row ∈ update selects (AgentTask.setStatus target now) tables.tasks,
      ∃ old ∈ tables.tasks, row.teamId = old.teamId ∧
        row.ownerInstanceId = old.ownerInstanceId ∧
        row.originInstanceId = old.originInstanceId ∧ row.parentTaskId = old.parentTaskId := by
    intro row mem
    obtain ⟨old, oldMem, rfl⟩ := mem_update.mp mem
    refine ⟨old, oldMem, ?_⟩
    split
    · exact ⟨rfl, rfl, rfl, rfl⟩
    · exact ⟨rfl, rfl, rfl, rfl⟩
  refine ⟨⟨schema.teams.teamIds, schema.teams.teamChats, schema.teams.instanceIds,
    schema.teams.oneCoordinator, schema.teams.instanceTeams⟩, ?_, ?_, ?_⟩
  · refine ⟨schema.tasks.ids.update fun _ => rfl, schema.tasks.sequences.update fun _ => rfl,
      active, ?_, ?_, ?_⟩
    · intro row mem
      obtain ⟨old, oldMem, team, owner, _, _⟩ := from_old row mem
      rw [team, owner]
      exact schema.tasks.owners old oldMem
    · intro row mem
      obtain ⟨old, oldMem, team, _, origin, _⟩ := from_old row mem
      rw [team, origin]
      exact schema.tasks.origins old oldMem
    · intro row mem
      obtain ⟨old, oldMem, team, _, _, parent⟩ := from_old row mem
      rw [team, parent]
      simp only [keys]
      exact schema.tasks.parents old oldMem
  · refine ⟨schema.attempts.ids, schema.attempts.sequences, schema.attempts.oneActivePerTask, ?_⟩
    simp only [keys]
    exact schema.attempts.tasks
  · refine ⟨schema.dependencies.keys, schema.dependencies.notSelf, ?_, ?_,
      schema.dependencies.cancellations, ?_⟩ <;> simp only [keys]
    · exact schema.dependencies.waiting
    · exact schema.dependencies.required
    · exact schema.dependencies.roots

/-- A statement on instances meets the schema if it leaves their ids, teams and roles alone. -/
theorem Schema.setInstances {tables : AgentTables} (schema : Schema tables)
    {selects : AgentInstance → Bool} {set : AgentInstance → AgentInstance}
    (keeps : ∀ row, (set row).id = row.id ∧ (set row).teamId = row.teamId ∧
      (set row).role = row.role) :
    Schema { tables with instances := update selects set tables.instances } := by
  have keys : (update selects set tables.instances).map AgentInstance.key =
      tables.instances.map AgentInstance.key := by
    apply map_update
    intro row
    rw [AgentInstance.key, (keeps row).1, (keeps row).2.1]
    rfl
  refine ⟨⟨schema.teams.teamIds, schema.teams.teamChats,
    schema.teams.instanceIds.update fun row => (keeps row).1, ?_, ?_⟩, ?_,
    ⟨schema.attempts.ids, schema.attempts.sequences, schema.attempts.oneActivePerTask,
      schema.attempts.tasks⟩,
    ⟨schema.dependencies.keys, schema.dependencies.notSelf, schema.dependencies.waiting,
      schema.dependencies.required, schema.dependencies.cancellations, schema.dependencies.roots⟩⟩
  · apply schema.teams.oneCoordinator.update
    · exact fun row => (keeps row).2.1
    · intro row _ coordinates
      rwa [← (keeps row).2.2]
  · intro row mem
    obtain ⟨old, oldMem, rfl⟩ := mem_update.mp mem
    split
    · rw [(keeps old).2.1]
      exact schema.teams.instanceTeams old oldMem
    · exact schema.teams.instanceTeams old oldMem
  · refine ⟨schema.tasks.ids, schema.tasks.sequences, schema.tasks.oneActivePerInstance, ?_, ?_,
      schema.tasks.parents⟩ <;> simp only [keys]
    · exact schema.tasks.owners
    · exact schema.tasks.origins

/-- Tasks that stop being active offend nothing. -/
theorem updateTasks_ok_of_inactive {store : AgentStore} {selects : AgentTask → Bool}
    {target : AgentTaskStatus} {now : Timestamp} (inactive : target.isActive = false) :
    ∃ next, store.updateTasks selects (AgentTask.setStatus target now) = .ok next := by
  refine ⟨_, AgentTables.write_of_schema (store.schema.setTaskStatus ?_)⟩
  apply store.schema.tasks.oneActivePerInstance.update
  · exact fun _ => rfl
  · intro row _ active
    rw [AgentTask.setStatus_status, inactive] at active
    cases active

/-- A new status of instances offends nothing. -/
theorem updateInstances_ok {store : AgentStore} {selects : AgentInstance → Bool}
    {set : AgentInstance → AgentInstance}
    (keeps : ∀ row, (set row).id = row.id ∧ (set row).teamId = row.teamId ∧
      (set row).role = row.role) :
    ∃ next, store.updateInstances selects set = .ok next :=
  ⟨_, AgentTables.write_of_schema (store.schema.setInstances keeps)⟩

/-- A task may become active if no other task of its owner is. -/
theorem updateTasks_ok_of_alone {store : AgentStore} {task : AgentTask} (mem : task ∈ store.tasks)
    {selects : AgentTask → Bool} {target : AgentTaskStatus} {now : Timestamp}
    (only : ∀ row, selects row = true → row.id = task.id)
    (alone : ∀ other ∈ store.tasks, other.ownerInstanceId = task.ownerInstanceId →
      other.id ≠ task.id → other.status.isActive = false) :
    ∃ next, store.updateTasks selects (AgentTask.setStatus target now) = .ok next := by
  refine ⟨_, AgentTables.write_of_schema (store.schema.setTaskStatus ?_)⟩
  have ids : Unique AgentTask.id (update selects (AgentTask.setStatus target now) store.tasks) :=
    store.schema.tasks.ids.update fun _ => rfl
  apply UniqueWhere.of_unique ids
  have written : ∀ row ∈ update selects (AgentTask.setStatus target now) store.tasks,
      row.status.isActive = true → ∃ old ∈ store.tasks, row.id = old.id ∧
        row.ownerInstanceId = old.ownerInstanceId ∧
        (old.id = task.id ∨ old.status.isActive = true) := by
    intro row rowMem active
    obtain ⟨old, oldMem, rfl⟩ := mem_update.mp rowMem
    refine ⟨old, oldMem, ?_⟩
    split at active
    · rename_i selected
      rw [if_pos selected]
      exact ⟨rfl, rfl, .inl (only old selected)⟩
    · rename_i skipped
      rw [if_neg skipped]
      exact ⟨rfl, rfl, .inr active⟩
  intro first firstMem second secondMem firstActive secondActive same
  obtain ⟨one, oneMem, oneId, oneOwner, oneCase⟩ := written first firstMem firstActive
  obtain ⟨two, twoMem, twoId, twoOwner, twoCase⟩ := written second secondMem secondActive
  rw [oneId, twoId]
  rw [oneOwner, twoOwner] at same
  by_cases oneIs : one.id = task.id <;> by_cases twoIs : two.id = task.id
  · rw [oneIs, twoIs]
  · have owner : two.ownerInstanceId = task.ownerInstanceId := by
      rw [← same, store.schema.tasks.ids.eq oneMem mem oneIs]
    have busy := twoCase.resolve_left twoIs
    rw [alone two twoMem owner twoIs] at busy
    cases busy
  · have owner : one.ownerInstanceId = task.ownerInstanceId := by
      rw [same, store.schema.tasks.ids.eq twoMem mem twoIs]
    have busy := oneCase.resolve_left oneIs
    rw [alone one oneMem owner oneIs] at busy
    cases busy
  · exact congrArg AgentTask.id (store.schema.tasks.oneActivePerInstance.eq oneMem twoMem
      (oneCase.resolve_left oneIs) (twoCase.resolve_left twoIs) same)

/-- A new attempt needs a fresh id and sequence, and no other running attempt of its task. -/
theorem Schema.insertAttempt {tables : AgentTables} (schema : Schema tables) {row : AgentAttempt}
    (fresh : ∀ old ∈ tables.attempts, old.id ≠ row.id)
    (next : ∀ old ∈ tables.attempts, old.taskId = row.taskId → old.sequence ≠ row.sequence)
    (alone : ∀ old ∈ tables.attempts, old.status = .running → old.taskId ≠ row.taskId)
    (tries : (row.teamId, row.taskId) ∈ tables.tasks.map AgentTask.key) :
    Schema { tables with attempts := tables.attempts ++ [row] } := by
  refine ⟨⟨schema.teams.teamIds, schema.teams.teamChats, schema.teams.instanceIds,
      schema.teams.oneCoordinator, schema.teams.instanceTeams⟩,
    ⟨schema.tasks.ids, schema.tasks.sequences, schema.tasks.oneActivePerInstance,
      schema.tasks.owners, schema.tasks.origins, schema.tasks.parents⟩, ?_,
    ⟨schema.dependencies.keys, schema.dependencies.notSelf, schema.dependencies.waiting,
      schema.dependencies.required, schema.dependencies.cancellations,
      schema.dependencies.roots⟩⟩
  refine ⟨schema.attempts.ids.append fresh, schema.attempts.sequences.append ?_,
    schema.attempts.oneActivePerTask.append ?_, ?_⟩
  · intro old mem same
    obtain ⟨task, sequence⟩ := Prod.mk.inj same
    exact next old mem task sequence
  · intro old mem running
    exact alone old mem (of_decide_eq_true running)
  · intro old mem
    rcases List.mem_append.mp mem with before | new
    · exact schema.attempts.tasks old before
    · rw [List.mem_singleton.mp new]
      exact tries

/-- Dependencies may be dropped. -/
theorem Schema.dropDependencies {tables : AgentTables} (schema : Schema tables)
    (keeps : AgentTaskDependency → Bool) :
    Schema { tables with dependencies := tables.dependencies.filter keeps } := by
  refine ⟨⟨schema.teams.teamIds, schema.teams.teamChats, schema.teams.instanceIds,
      schema.teams.oneCoordinator, schema.teams.instanceTeams⟩,
    ⟨schema.tasks.ids, schema.tasks.sequences, schema.tasks.oneActivePerInstance,
      schema.tasks.owners, schema.tasks.origins, schema.tasks.parents⟩,
    ⟨schema.attempts.ids, schema.attempts.sequences, schema.attempts.oneActivePerTask,
      schema.attempts.tasks⟩,
    ⟨schema.dependencies.keys.filter keeps, ?_, ?_, ?_, schema.dependencies.cancellations,
      schema.dependencies.roots⟩⟩
  · exact fun row mem => schema.dependencies.notSelf row (List.mem_of_mem_filter mem)
  · exact fun row mem => schema.dependencies.waiting row (List.mem_of_mem_filter mem)
  · exact fun row mem => schema.dependencies.required row (List.mem_of_mem_filter mem)

/-- The sequence of a new attempt is above those of the task's attempts. -/
theorem lt_nextAttemptSequence {tables : AgentTables} {row : AgentAttempt}
    (mem : row ∈ tables.attempts) : row.sequence < nextAttemptSequence tables row.taskId := by
  have own : row ∈ tables.attempts.filter fun other => other.taskId = row.taskId :=
    List.mem_filter.mpr ⟨mem, decide_eq_true rfl⟩
  unfold nextAttemptSequence
  revert own
  induction tables.attempts.filter fun other => other.taskId = row.taskId with
  | nil => nofun
  | cons head rest ih =>
    intro own
    rw [List.foldr_cons]
    rcases List.mem_cons.mp own with rfl | later
    · omega
    · have above := ih later
      omega

end Foco.AgentRuntime
