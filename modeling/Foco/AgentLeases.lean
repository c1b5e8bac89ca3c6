import Foco.AgentAttempts
import Foco.AgentStatements

/-!
What any operation leaves of a single attempt and of a single running task, without a
condition on the run. An attempt keeps its task, its team and its owner for good, its lease
changes only when it is renewed and its status only while it is open. A task has a running
attempt exactly as long as it runs, and a running task keeps its owner.
-/
namespace Foco.AgentRuntime
open Foco.RustText Foco.AgentDomain Foco.Table Foco.Runs Foco.Result

/-! ## Attempts -/

/-- What an operation may make of an attempt. -/
structure AttemptFollows (action : AgentAction) (old row : AgentAttempt) : Prop where
  id : row.id = old.id
  teamId : row.teamId = old.teamId
  taskId : row.taskId = old.taskId
  ownerIncarnation : row.ownerIncarnation = old.ownerIncarnation
  lease : row.leaseRenewedAt = old.leaseRenewedAt ∨
    ∃ now, row.leaseRenewedAt = some now ∧ action.renewal old = some now
  settled : row = old ∨ old.isOpen = true ∨ action.recovers = true
  running : row.status = .running → old.status = .running ∨ action.resumesAttempt = true

theorem AttemptFollows.refl (action : AgentAction) (row : AgentAttempt) :
    AttemptFollows action row row :=
  ⟨rfl, rfl, rfl, rfl, .inl rfl, .inl rfl, .inl⟩

/-- Whether an attempt is renewed depends on what it keeps. -/
theorem AttemptFollows.renewal {action : AgentAction} {old row : AgentAttempt}
    (follows : AttemptFollows action old row) : action.renewal row = action.renewal old := by
  unfold AgentAction.renewal
  split
  · rw [follows.id, follows.taskId, follows.ownerIncarnation]
  · rfl

/-- One more statement on the attempts. -/
theorem AttemptFollows.update {action : AgentAction} {selects : AgentAttempt → Bool}
    {set : AgentAttempt → AgentAttempt} (writes : WritesAttempts action selects set)
    {old row : AgentAttempt} (follows : AttemptFollows action old row) :
    AttemptFollows action old (if selects row then set row else row) := by
  split
  · rename_i hit
    obtain ⟨ident, team, task, owner⟩ := writes.keys row
    refine ⟨ident.trans follows.id, team.trans follows.teamId, task.trans follows.taskId,
      owner.trans follows.ownerIncarnation, ?_, ?_, ?_⟩
    · rcases writes.leases row hit with kept | ⟨now, written, renewed⟩
      · rw [kept]
        exact follows.lease
      · exact .inr ⟨now, written, follows.renewal ▸ renewed⟩
    · rcases follows.settled with rfl | rest
      · exact .inr (writes.moves row hit)
      · exact .inr rest
    · intro running
      rcases writes.runs row hit running with before | resumes
      · exact follows.running before
      · exact .inr resumes
  · exact follows

/-- Every attempt after an operation follows one before it, or was started by it. -/
def AttemptsFollow (action : AgentAction) (before after : AgentTables) : Prop :=
  ∀ row ∈ after.attempts,
    (∃ old ∈ before.attempts, AttemptFollows action old row) ∨ action.Starts row

theorem Statement.attemptsFollow {action : AgentAction} {first before after : AgentTables}
    (follow : AttemptsFollow action first before) (statement : Statement action before after) :
    AttemptsFollow action first after := by
  cases statement with
  | attempts selects writes =>
    intro row mem
    obtain ⟨middle, middleMem, rfl⟩ := mem_update.mp mem
    rcases follow middle middleMem with ⟨old, oldMem, follows⟩ | starts
    · exact .inl ⟨old, oldMem, follows.update writes⟩
    · right
      split
      · rename_i set hit
        obtain ⟨ident, -, -, owner⟩ := writes.keys middle
        have leases := writes.leases middle hit
        cases action with
        | claim teamId taskId attemptId ownerIncarnation now =>
          obtain ⟨startedId, startedOwner, startedLease⟩ := starts
          refine ⟨ident.trans startedId, owner.trans startedOwner, ?_⟩
          rcases leases with kept | ⟨_, _, renewed⟩
          · exact kept.trans startedLease
          · cases renewed
        | _ => exact absurd starts id
      · exact starts
  | started row starts =>
    intro added mem
    rcases List.mem_append.mp mem with old | new
    · exact follow added old
    · rw [List.mem_singleton.mp new]
      exact .inr starts
  | instanceDeleted instanceId deletes =>
    exact fun row mem => follow row (List.mem_filter.mp mem).1
  | _ => exact follow

/-- What an operation makes of the attempts. -/
theorem commit_attemptsFollow {store store' : AgentStore} {action : AgentAction}
    (h : action.commit store = .ok store') :
    AttemptsFollow action store.toAgentTables store'.toAgentTables :=
  (commit_statements h).invariant (AttemptsFollow action store.toAgentTables)
    (fun _ _ => Statement.attemptsFollow)
    fun row mem => .inl ⟨row, mem, .refl action row⟩

/-! ## Owners of running tasks -/

/-- Every task has the owner it had. -/
def OwnersStay (before after : AgentTables) : Prop :=
  ∀ row ∈ after.tasks, ∃ old ∈ before.tasks, old.id = row.id ∧
    old.ownerInstanceId = row.ownerInstanceId

theorem Statement.ownersStay {action : AgentAction} (enqueues : action.enqueues = false)
    (transfers : action.transfers = false) {first before after : AgentTables}
    (stay : OwnersStay first before) (statement : Statement action before after) :
    OwnersStay first after := by
  cases statement with
  | tasks selects keeps owners =>
    intro row mem
    obtain ⟨middle, middleMem, rfl⟩ := mem_update.mp mem
    obtain ⟨old, oldMem, ident, owner⟩ := stay middle middleMem
    refine ⟨old, oldMem, ident.trans (keeps.id_ite _ middle).symm, owner.trans ?_⟩
    split
    · rcases owners with other | kept
      · rw [transfers] at other
        cases other
      · exact (kept middle).symm
    · rfl
  | enqueued row instances fresh accepts added =>
    rw [enqueues] at added
    cases added
  | instanceDeleted instanceId deletes =>
    exact fun row mem => stay row (List.mem_filter.mp mem).1
  | _ => exact stay

/-- No operation gives a running task to another owner. -/
theorem commit_keeps_running_owner {store store' : AgentStore} {action : AgentAction}
    (h : action.commit store = .ok store') {old row : AgentTask} (oldMem : old ∈ store.tasks)
    (running : old.status = .running) (mem : row ∈ store'.tasks) (same : row.id = old.id) :
    row.ownerInstanceId = old.ownerInstanceId := by
  have stays : OwnersStay store.toAgentTables store'.toAgentTables →
      row.ownerInstanceId = old.ownerInstanceId := by
    intro stay
    obtain ⟨before, beforeMem, ident, owner⟩ := stay row mem
    rw [← owner, store.schema.tasks.ids.eq beforeMem oldMem (ident.trans same)]
  cases action with
  | enqueue task maxTeam maxInstance maxChat now =>
    obtain ⟨_, run⟩ := commit_eq_ok h
    obtain ⟨_, added, enqueued⟩ := enqueueAgentTask_spec run
    have oldStays : old ∈ store'.tasks := by
      rw [enqueued.tasks]
      exact List.mem_append_left _ oldMem
    rw [store'.schema.tasks.ids.eq mem oldStays same]
  | transfer teamId taskId target maxTeam maxInstance maxChat now =>
    obtain ⟨_, run⟩ := commit_eq_ok h
    rcases transferQueuedAgentTask_spec run with rfl | ⟨task, _, transferred⟩
    · rw [store'.schema.tasks.ids.eq mem oldMem same]
    · obtain ⟨_, tasks⟩ := transferred.tasks
      have apart : old.id ≠ task.id := by
        intro moved
        have task_eq := store.schema.tasks.ids.eq oldMem transferred.mem moved
        rw [task_eq, transferred.queued] at running
        cases running
      have oldStays : old ∈ store'.tasks := by
        rw [tasks]
        exact mem_update_of_not oldMem (decide_eq_false apart)
      rw [store'.schema.tasks.ids.eq mem oldStays same]
  | _ =>
    exact stays ((commit_statements h).invariant (OwnersStay store.toAgentTables)
      (fun _ _ => Statement.ownersStay rfl rfl) fun row mem => ⟨row, mem, rfl, rfl⟩)

/-! ## Running attempts -/

/-- A running task has one running attempt, any other task none. -/
def RunsFit (tables : AgentTables) : Prop :=
  ∀ task ∈ tables.tasks,
    attemptCount tables task.id .running = if task.status = .running then 1 else 0

namespace RunsFit

theorem of_attempts {before after : AgentTables} (tasks : after.tasks = before.tasks)
    (attempts : ∀ taskId status, attemptCount after taskId status =
      attemptCount before taskId status) (fit : RunsFit before) : RunsFit after := by
  intro task mem
  rw [tasks] at mem
  rw [attempts]
  exact fit task mem

/-- A move keeps the rule if it moves running attempts as it moves the task. -/
theorem of_move {before after : AgentTables} {task : AgentTask} {target : AgentTaskStatus}
    {owner : AgentInstanceStatus → AgentInstanceStatus} {source : Option AgentAttemptStatus}
    {written : AgentAttemptStatus} {moved : Nat} (schema : Schema before)
    (effect : TaskMoved before after task target owner source written moved)
    (balance : (if source = some .running then moved else 0) +
        (if target = .running then 1 else 0) =
      (if .running = written then moved else 0) + (if task.status = .running then 1 else 0))
    (fit : RunsFit before) : RunsFit after := by
  intro row mem
  rcases effect.row_cases schema mem with ⟨now, rfl⟩ | ⟨old, other⟩
  · have own := fit task effect.mem
    have runs := effect.running_count.1
    change attemptCount after task.id .running = if target = .running then 1 else 0
    by_cases leaves : source = some .running
    · rw [if_pos leaves] at balance runs
      omega
    · rw [if_neg leaves] at balance runs
      omega
  · rw [effect.attemptCount_other other]
    exact fit row old

theorem of_enqueued {before after : AgentTables} {owner : AgentInstance} {row : AgentTask}
    (schema : Schema before) (schema' : Schema after)
    (enqueued : TaskEnqueued before after owner row) (fit : RunsFit before) : RunsFit after := by
  have ids := schema'.tasks.ids
  rw [enqueued.tasks] at ids
  have fresh : ∀ task ∈ before.tasks, task.id ≠ row.id := fun task mem =>
    (List.pairwise_append.mp ids).2.2 task mem row List.mem_cons_self
  intro task mem
  rw [enqueued.tasks] at mem
  simp only [attemptCount, enqueued.attempts]
  rcases List.mem_append.mp mem with old | new
  · exact fit task old
  · rw [List.mem_singleton.mp new, enqueued.queued]
    exact attemptCount_fresh schema fresh .running

theorem of_transferred {before after : AgentTables} {task : AgentTask} {target : AgentInstance}
    (transferred : TaskTransferred before after task target) (fit : RunsFit before) :
    RunsFit after := by
  obtain ⟨now, tasks⟩ := transferred.tasks
  intro row mem
  rw [tasks] at mem
  obtain ⟨old, oldMem, rfl⟩ := mem_update.mp mem
  simp only [attemptCount, transferred.attempts]
  have own := fit old oldMem
  split
  · exact own
  · exact own

theorem withoutInstance {tables : AgentTables} (schema : Schema tables)
    (instanceId : AgentInstanceId) (fit : RunsFit tables) :
    RunsFit (withoutInstance tables instanceId) := by
  intro task mem
  rw [attemptCount_withoutInstance schema mem]
  exact fit task (List.mem_filter.mp mem).1

/-- What an update makes of the running attempts of its task, for every transition. -/
private theorem update_balance {expected target : AgentTaskStatus}
    {transition : AgentTaskTransition} (applied : expected.apply transition = .ok target)
    (declared : transition ≠ .start) :
    (if ((attemptTarget expected transition).map fun _ => sourceAttemptStatus expected) =
        some .running then if (attemptTarget expected transition).isSome then 1 else 0 else 0) +
      (if target = .running then 1 else 0) =
    (if .running = (attemptTarget expected transition).getD .running then
        if (attemptTarget expected transition).isSome then 1 else 0 else 0) +
      (if expected = .running then 1 else 0) := by
  cases expected <;> cases transition <;>
    simp only [AgentTaskStatus.apply, reduceCtorEq, Except.ok.injEq] at applied <;>
    subst applied <;> simp [attemptTarget, sourceAttemptStatus] at declared ⊢

theorem update {action : AgentTaskStateUpdate} {now : Timestamp} {store store' : AgentStore}
    {result : Bool} (h : updateAgentTaskState action now store = .ok (store', result))
    (fit : RunsFit store.toAgentTables) : RunsFit store'.toAgentTables := by
  rcases updateAgentTaskState_spec h with rfl | ⟨task, target, updatable, declared, applied, effect⟩
  · exact fit
  · simp only [isUpdatable, Bool.and_eq_true, decide_eq_true_eq] at updatable
    refine fit.of_move store.schema effect ?_
    rw [updatable.1.2]
    exact update_balance applied declared

theorem cancelSubtree {teamId : AgentTeamId} {rootTaskId : AgentTaskId} {reason : Option Text}
    {now : Timestamp} {store store' : AgentStore} {result : SubtreeCancellationResult}
    (h : cancelAgentTaskSubtree teamId rootTaskId reason now store = .ok (store', result))
    (fit : RunsFit store.toAgentTables) : RunsFit store'.toAgentTables := by
  obtain ⟨first, record, h⟩ := bind_eq_ok.mp h
  obtain ⟨last, loop, done⟩ := bind_eq_ok.mp h
  cases done
  obtain ⟨_, _, tasks, attempts⟩ := recordSubtreeCancellation_spec record
  have fitFirst : RunsFit first.toAgentTables :=
    fit.of_attempts tasks fun _ _ => by rw [attemptCount, attempts, attemptCount]
  have unique : Unique AgentTask.id (subtreeTasks store.toAgentTables teamId rootTaskId) :=
    (store.schema.tasks.ids.filter _).sortBy _
  refine foldlM_moves (fun _ task => task.teamId = teamId ∧
    (task.status = .queued ∨ task.status = .waiting)) ?_ ?_ (unique.filter _) fitFirst ?_ loop
  · rintro current next task inv mem ⟨team, unfinished⟩ run
    rcases cancelSubtreeTask_spec mem team unfinished run with ⟨queued, effect⟩ | ⟨waiting, effect⟩
    · refine ⟨inv.of_move current.schema effect ?_, _, _, _, _, _, effect⟩
      rw [queued]
      rfl
    · refine ⟨inv.of_move current.schema effect ?_, _, _, _, _, _, effect⟩
      rw [waiting]
      rfl
  · exact fun _ _ _ _ _ _ ready _ _ _ => ready
  · intro task selected
    obtain ⟨inSubtree, unfinished⟩ := List.mem_filter.mp selected
    obtain ⟨mem, team⟩ := mem_subtreeTasks inSubtree
    rw [tasks]
    exact ⟨mem, team, of_decide_eq_true unfinished⟩

theorem resume {limit : Int} {matching : AgentTask → Bool} {requeued : AgentTaskId → Bool}
    {now : Timestamp} {store store' : AgentStore} {result : List AgentTask}
    (h : resumeSatisfiedAgentTasks limit matching requeued now store = .ok (store', result))
    (fit : RunsFit store.toAgentTables) : RunsFit store'.toAgentTables := by
  unfold resumeSatisfiedAgentTasks at h
  split at h
  · cases h
  obtain ⟨last, loop, done⟩ := bind_eq_ok.mp h
  cases done
  have unique : Unique AgentTask.id (resumableTasks store.toAgentTables limit now matching) :=
    ((store.schema.tasks.ids.filter _).sortBy _).take _
  refine foldlM_moves (fun _ task => task.status = .waiting) ?_ ?_ unique fit ?_ loop
  · intro current next task inv mem waiting run
    have effect := resumeTask_spec mem waiting run
    refine ⟨inv.of_move current.schema effect ?_, _, _, _, _, _, effect⟩
    rw [waiting]
    rfl
  · exact fun _ _ _ _ _ _ ready _ _ _ => ready
  · intro task selected
    obtain ⟨mem, resumable⟩ := mem_resumableTasks selected
    simp only [isResumable, Bool.and_eq_true, decide_eq_true_eq] at resumable
    exact ⟨mem, resumable.1.1.1.1.1⟩

theorem recover {reason : Text} {limit : Int} {now : Timestamp} {store store' : AgentStore}
    {result : List AgentTask}
    (h : recoverInterruptedAgentWaitTasks reason limit now store = .ok (store', result))
    (fit : RunsFit store.toAgentTables) : RunsFit store'.toAgentTables := by
  unfold recoverInterruptedAgentWaitTasks at h
  split at h
  · cases h
  obtain ⟨last, loop, done⟩ := bind_eq_ok.mp h
  cases done
  have unique : Unique AgentTask.id (recoverableTasks store.toAgentTables reason limit) :=
    ((store.schema.tasks.ids.filter _).sortBy _).take _
  refine foldlM_moves (fun _ task => task.status = .interrupted) ?_ ?_ unique fit ?_ loop
  · intro current next task inv mem interrupted run
    have effect := recoverTask_spec mem interrupted run
    refine ⟨inv.of_move current.schema effect ?_, _, _, _, _, _, effect⟩
    rw [interrupted]
    rfl
  · exact fun _ _ _ _ _ _ ready _ _ _ => ready
  · intro task selected
    obtain ⟨mem, recoverable⟩ := mem_recoverableTasks selected
    simp only [isRecoverable, isInterruptedWait, Bool.and_eq_true, decide_eq_true_eq] at recoverable
    exact ⟨mem, recoverable.1.1.1.1.1.1⟩

/-- Every operation keeps the rule. -/
theorem commit {store store' : AgentStore} {action : AgentAction}
    (h : action.commit store = .ok store') (fit : RunsFit store.toAgentTables) :
    RunsFit store'.toAgentTables := by
  cases action with
  | createTeam team =>
    obtain ⟨_, run⟩ := commit_eq_ok h
    have created := createAgentTeam_spec run
    exact fit.of_attempts created.tasks fun _ _ => by rw [attemptCount, created.attempts, attemptCount]
  | createInstances instances maxTeam maxDefinition =>
    obtain ⟨_, run⟩ := commit_eq_ok h
    have created := createAgentInstances_spec run
    exact fit.of_attempts created.tasks fun _ _ => by rw [attemptCount, created.attempts, attemptCount]
  | transitionTeam teamId target =>
    obtain ⟨_, run⟩ := commit_eq_ok h
    obtain ⟨_, _, _, _, _, moved⟩ := transitionAgentTeamStatus_spec run
    exact fit.of_attempts moved.tasks fun _ _ => by rw [attemptCount, moved.attempts, attemptCount]
  | transitionInstance instanceId target =>
    obtain ⟨_, run⟩ := commit_eq_ok h
    obtain ⟨_, _, _, _, _, moved⟩ := transitionAgentInstanceStatus_spec run
    exact fit.of_attempts moved.tasks fun _ _ => by rw [attemptCount, moved.attempts, attemptCount]
  | deleteInstance instanceId =>
    obtain ⟨_, run⟩ := commit_eq_ok h
    rw [deleteAgentInstance_spec run]
    exact fit.withoutInstance store.schema instanceId
  | enqueue task maxTeam maxInstance maxChat now =>
    obtain ⟨_, run⟩ := commit_eq_ok h
    obtain ⟨_, _, enqueued⟩ := enqueueAgentTask_spec run
    exact fit.of_enqueued store.schema store'.schema enqueued
  | transfer teamId taskId target maxTeam maxInstance maxChat now =>
    obtain ⟨_, run⟩ := commit_eq_ok h
    rcases transferQueuedAgentTask_spec run with rfl | ⟨_, _, transferred⟩
    · exact fit
    · exact fit.of_transferred transferred
  | cancelQueued teamId taskId now =>
    obtain ⟨_, run⟩ := commit_eq_ok h
    rcases cancelQueuedAgentTask_spec run with same | ⟨task, -, -, queued, effect⟩
    · exact fit.of_attempts same.tasks same.attempts
    · refine fit.of_move store.schema effect ?_
      rw [queued]
      rfl
  | cancelSubtree teamId rootTaskId reason now =>
    obtain ⟨_, run⟩ := commit_eq_ok h
    exact fit.cancelSubtree run
  | registerWait round =>
    obtain ⟨_, run⟩ := commit_eq_ok h
    have same := registerAgentTaskWait_spec run
    exact fit.of_attempts same.tasks same.attempts
  | deleteDependencies taskId =>
    obtain ⟨_, run⟩ := commit_eq_ok h
    have same := deleteAgentTaskDependencies_spec run
    exact fit.of_attempts same.tasks same.attempts
  | claim teamId taskId attemptId ownerIncarnation now =>
    obtain ⟨_, run⟩ := commit_eq_ok h
    rcases claimRunnableAgentTask_spec run with ⟨rfl, -⟩ | ⟨task, claimable, -, -, effect⟩
    · exact fit
    · simp only [isClaimable, Bool.and_eq_true, decide_eq_true_eq] at claimable
      refine fit.of_move store.schema effect ?_
      rw [claimable.1.1.1.1.1.2]
      rfl
  | renewLease taskId attemptId ownerIncarnation now =>
    obtain ⟨_, run⟩ := commit_eq_ok h
    have same := renewAgentAttemptLease_spec run
    exact fit.of_attempts same.tasks same.attempts
  | updateState action now =>
    obtain ⟨_, run⟩ := commit_eq_ok h
    exact fit.update run
  | suspend teamId taskId now =>
    obtain ⟨_, run⟩ := commit_eq_ok h
    rcases suspendRunningAgentTask_spec run with rfl | ⟨task, suspendable, effect⟩
    · exact fit
    · simp only [isSuspendable, Bool.and_eq_true, decide_eq_true_eq] at suspendable
      refine fit.of_move store.schema effect ?_
      rw [suspendable.1.1.2]
      rfl
  | resume limit matching requeued now =>
    obtain ⟨_, run⟩ := commit_eq_ok h
    exact fit.resume run
  | recover reason limit now =>
    obtain ⟨_, run⟩ := commit_eq_ok h
    exact fit.recover run
  | suspendRemotePlan teamId taskId attemptId ownerIncarnation owned now =>
    obtain ⟨_, run⟩ := commit_eq_ok h
    rcases suspendRemotePlanTask_spec run with rfl | ⟨task, suspendable, effect⟩
    · exact fit
    · simp only [isRemotelySuspendable, Bool.and_eq_true, decide_eq_true_eq] at suspendable
      refine fit.of_move store.schema effect ?_
      rw [suspendable.1.2.2]
      rfl
  | closePreStream taskId expected reason owned now =>
    obtain ⟨_, run⟩ := commit_eq_ok h
    rcases closePreStreamChatFailure_spec run with rfl | ⟨task, closable, effect⟩
    · exact fit
    · simp only [isClosable, Bool.and_eq_true, decide_eq_true_eq] at closable
      refine fit.of_move store.schema effect ?_
      rw [closable.1.2]
      cases reason <;> rfl

end RunsFit

/-- A task with a running attempt runs. -/
theorem RunsFit.task_running {tables : AgentTables} (fit : RunsFit tables) {task : AgentTask}
    (mem : task ∈ tables.tasks) {attempt : AgentAttempt} (attemptMem : attempt ∈ tables.attempts)
    (tries : attempt.taskId = task.id) (running : attempt.status = .running) :
    task.status = .running := by
  have counted : 0 < attemptCount tables task.id .running :=
    List.countP_pos_iff.mpr ⟨attempt, attemptMem, decide_eq_true ⟨tries, running⟩⟩
  rw [fit task mem] at counted
  by_contra other
  rw [if_neg other] at counted
  exact Nat.lt_irrefl 0 counted

end Foco.AgentRuntime
