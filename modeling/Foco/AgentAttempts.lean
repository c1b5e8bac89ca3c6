import Foco.AgentEffects

/-!
How attempts follow the status of their task. A running task should have one running
attempt, a waiting task one suspended attempt and a finished task neither. Resuming a
satisfied wait re-queues the task but leaves its attempt suspended, and the next claim adds
a running attempt beside it; the second wait, or the end, of such a task breaks the rule.
In runs whose steps never take a task with such a leftover out of the queue or out of its
run, and that recover one attempt for each task, the rule holds throughout.
-/
namespace Foco.AgentRuntime
open Foco.RustText Foco.AgentDomain Foco.Table Foco.Runs Foco.Result

/-! ## The rule -/

/-- The rule for one task: its status, and how many of its attempts run or are suspended. -/
def attemptsMatch : AgentTaskStatus → Nat → Nat → Prop
  | .queued, _, _ => True
  | .running, running, _ => running = 1
  | .waiting, _, suspended => suspended = 1
  | .completed, running, suspended | .failed, running, suspended
  | .cancelled, running, suspended | .interrupted, running, suspended =>
    running = 0 ∧ suspended = 0

/-- The rule for every task. -/
def AttemptsMatch (tables : AgentTables) : Prop :=
  ∀ task ∈ tables.tasks, attemptsMatch task.status
    (attemptCount tables task.id .running) (attemptCount tables task.id .suspended)

/-- What the operations keep: only a running task has a running attempt, and a queued or
running task may have one suspended attempt left over from a wait that was satisfied. -/
def attemptsFit : AgentTaskStatus → Nat → Nat → Prop
  | .queued, running, suspended => running = 0 ∧ suspended ≤ 1
  | .running, running, suspended => running = 1 ∧ suspended ≤ 1
  | .waiting, running, suspended => running = 0 ∧ suspended = 1
  | .completed, running, suspended | .failed, running, suspended
  | .cancelled, running, suspended | .interrupted, running, suspended =>
    running = 0 ∧ suspended = 0

/-- The invariant. -/
def AttemptsFit (tables : AgentTables) : Prop :=
  ∀ task ∈ tables.tasks, attemptsFit task.status
    (attemptCount tables task.id .running) (attemptCount tables task.id .suspended)

/-- The invariant is stronger than the rule. -/
theorem AttemptsFit.attemptsMatch {tables : AgentTables} (fit : AttemptsFit tables) :
    AttemptsMatch tables := by
  intro task mem
  have own := fit task mem
  cases status : task.status <;> rw [status] at own <;>
    simp only [attemptsFit, AgentRuntime.attemptsMatch] at own ⊢ <;> omega

/-! ## The condition on a step -/

/-- The task has no suspended attempt. -/
def nothingSuspended (tables : AgentTables) (task : AgentTask) : Bool :=
  decide (attemptCount tables task.id .suspended = 0)

/-- The update is one that the domain allows. -/
def isDeclared (update : AgentTaskStateUpdate) : Bool :=
  match update.expectedStatus.apply update.transition with
  | .ok _ => true
  | .error _ => false

/-- The step takes no queued or running task that still has a suspended attempt into a wait or
to its end, and a recovery finds one interrupted attempt for each of its tasks. -/
def keepsAttempts (store : AgentStore) : AgentAction → Bool
  | .cancelQueued teamId taskId _ => store.tasks.all fun task =>
    !decide (task.id = taskId ∧ task.teamId = teamId ∧ task.status = .queued) ||
      nothingSuspended store.toAgentTables task
  | .cancelSubtree teamId rootTaskId _ _ =>
    (subtreeTasks store.toAgentTables teamId rootTaskId).all fun task =>
      decide (task.status ≠ .queued) || nothingSuspended store.toAgentTables task
  | .updateState update _ => store.tasks.all fun task =>
    !(isDeclared update && isUpdatable store.toAgentTables update task &&
      (decide (task.status = .queued) || decide (task.status = .running))) ||
      nothingSuspended store.toAgentTables task
  | .suspend teamId taskId now => store.tasks.all fun task =>
    !isSuspendable store.toAgentTables now teamId taskId task ||
      nothingSuspended store.toAgentTables task
  | .suspendRemotePlan teamId taskId attemptId ownerIncarnation _ _ => store.tasks.all fun task =>
    !isRemotelySuspendable store.toAgentTables teamId taskId attemptId ownerIncarnation task ||
      nothingSuspended store.toAgentTables task
  | .closePreStream taskId expected _ _ _ => store.tasks.all fun task =>
    !isClosable store.toAgentTables taskId expected task ||
      nothingSuspended store.toAgentTables task
  | .recover reason limit _ => (recoverableTasks store.toAgentTables reason limit).all fun task =>
    decide (store.attempts.countP (interruptedFor reason task) = 1)
  | _ => true

theorem of_all_or {Row : Type u} {rows : List Row} {excluded holds : Row → Bool}
    (all : (rows.all fun row => !excluded row || holds row) = true) {row : Row}
    (mem : row ∈ rows) (hit : excluded row = true) : holds row = true := by
  have either := List.all_eq_true.mp all row mem
  simpa only [hit, Bool.not_true, Bool.false_or] using either

/-! ## The steps keep the invariant -/

theorem AttemptsFit.of_sameRows {before after : AgentTables} (same : SameRows before after)
    (fit : AttemptsFit before) : AttemptsFit after := by
  intro task mem
  rw [same.tasks] at mem
  rw [same.attempts, same.attempts]
  exact fit task mem

/-- A move keeps the invariant if it does for the task it moves. -/
theorem AttemptsFit.of_move {before after : AgentTables} {task : AgentTask}
    {target : AgentTaskStatus} {owner : AgentInstanceStatus → AgentInstanceStatus}
    {source : Option AgentAttemptStatus} {written : AgentAttemptStatus} {moved : Nat}
    (schema : Schema before)
    (effect : TaskMoved before after task target owner source written moved)
    (own : attemptsFit target (attemptCount after task.id .running)
      (attemptCount after task.id .suspended))
    (fit : AttemptsFit before) : AttemptsFit after := by
  intro row mem
  rcases effect.row_cases schema mem with ⟨now, rfl⟩ | ⟨old, other⟩
  · exact own
  · rw [effect.attemptCount_other other, effect.attemptCount_other other]
    exact fit row old

/-- The two counts after a move, from the counts before. -/
theorem TaskMoved.running_count {before after : AgentTables} {task : AgentTask}
    {target : AgentTaskStatus} {owner : AgentInstanceStatus → AgentInstanceStatus}
    {source : Option AgentAttemptStatus} {written : AgentAttemptStatus} {moved : Nat}
    (effect : TaskMoved before after task target owner source written moved) :
    (attemptCount after task.id .running + (if source = some .running then moved else 0) =
      attemptCount before task.id .running + (if .running = written then moved else 0)) ∧
    (attemptCount after task.id .suspended + (if source = some .suspended then moved else 0) =
      attemptCount before task.id .suspended + (if .suspended = written then moved else 0)) :=
  ⟨effect.own .running, effect.own .suspended⟩

theorem AttemptsFit.of_attempts {before after : AgentTables} (tasks : after.tasks = before.tasks)
    (attempts : after.attempts = before.attempts) (fit : AttemptsFit before) :
    AttemptsFit after := by
  intro task mem
  rw [tasks] at mem
  simp only [attemptCount, attempts]
  exact fit task mem

theorem AttemptsFit.of_created {before after : AgentTables}
    (created : InstancesCreated before after) (fit : AttemptsFit before) : AttemptsFit after :=
  fit.of_attempts created.tasks created.attempts

/-- A task that is new to the table has no attempt. -/
theorem attemptCount_fresh {tables : AgentTables} (schema : Schema tables) {taskId : AgentTaskId}
    (fresh : ∀ task ∈ tables.tasks, task.id ≠ taskId) (status : AgentAttemptStatus) :
    attemptCount tables taskId status = 0 := by
  apply List.countP_eq_zero.mpr
  intro row mem hit
  obtain ⟨same, _⟩ := of_decide_eq_true hit
  obtain ⟨task, taskMem, key⟩ := List.mem_map.mp (schema.attempts.tasks row mem)
  exact fresh task taskMem ((Prod.mk.inj key).2.trans same)

theorem AttemptsFit.of_enqueued {before after : AgentTables} {owner : AgentInstance}
    {row : AgentTask} (schema : Schema before) (schema' : Schema after)
    (enqueued : TaskEnqueued before after owner row) (fit : AttemptsFit before) :
    AttemptsFit after := by
  have ids := schema'.tasks.ids
  rw [enqueued.tasks] at ids
  have fresh : ∀ task ∈ before.tasks, task.id ≠ row.id := fun task mem =>
    (List.pairwise_append.mp ids).2.2 task mem row List.mem_cons_self
  intro task mem
  rw [enqueued.tasks] at mem
  simp only [attemptCount, enqueued.attempts]
  rcases List.mem_append.mp mem with old | new
  · exact fit task old
  · rw [List.mem_singleton.mp new, enqueued.queued]
    have running := attemptCount_fresh schema fresh .running
    have suspended := attemptCount_fresh schema fresh .suspended
    unfold attemptCount at running suspended
    rw [running, suspended]
    exact ⟨rfl, Nat.zero_le 1⟩

theorem AttemptsFit.of_transferred {before after : AgentTables} {task : AgentTask}
    {target : AgentInstance} (transferred : TaskTransferred before after task target)
    (fit : AttemptsFit before) : AttemptsFit after := by
  obtain ⟨now, tasks⟩ := transferred.tasks
  intro row mem
  rw [tasks] at mem
  obtain ⟨old, oldMem, rfl⟩ := mem_update.mp mem
  simp only [attemptCount, transferred.attempts]
  have own := fit old oldMem
  split
  · exact own
  · exact own

/-- Deleting an instance deletes the attempts of its tasks and no others. -/
theorem attemptCount_withoutInstance {tables : AgentTables} (schema : Schema tables)
    {instanceId : AgentInstanceId} {task : AgentTask}
    (mem : task ∈ (withoutInstance tables instanceId).tasks) (status : AgentAttemptStatus) :
    attemptCount (withoutInstance tables instanceId) task.id status =
      attemptCount tables task.id status := by
  obtain ⟨old, stays⟩ := List.mem_filter.mp mem
  simp only [attemptCount, withoutInstance, List.countP_filter]
  apply List.countP_congr
  intro row _
  simp only [attemptOf, Bool.and_eq_true, decide_eq_true_eq, and_iff_left_iff_imp]
  rintro ⟨own, _⟩ gone
  obtain ⟨other, otherMem, ident⟩ := List.mem_map.mp gone
  obtain ⟨otherOld, leaves⟩ := List.mem_filter.mp otherMem
  have same : other = task := schema.tasks.ids.eq otherOld old (ident.trans own)
  rw [same] at leaves
  exact of_decide_eq_true stays (of_decide_eq_true leaves)

theorem AttemptsFit.withoutInstance {tables : AgentTables} (schema : Schema tables)
    (instanceId : AgentInstanceId) (fit : AttemptsFit tables) :
    AttemptsFit (withoutInstance tables instanceId) := by
  intro task mem
  rw [attemptCount_withoutInstance schema mem, attemptCount_withoutInstance schema mem]
  exact fit task (List.mem_filter.mp mem).1

/-- What an update makes of the counts of its task, for every declared transition. -/
private theorem update_fits {expected target : AgentTaskStatus}
    {transition : AgentTaskTransition} {running suspended running' suspended' : Nat}
    (applied : expected.apply transition = .ok target) (declared : transition ≠ .start)
    (own : attemptsFit expected running suspended)
    (clear : expected = .queued ∨ expected = .running → suspended = 0)
    (runs : running' + (if ((attemptTarget expected transition).map fun _ =>
        sourceAttemptStatus expected) = some .running then
          if (attemptTarget expected transition).isSome then 1 else 0 else 0) =
      running + (if .running = (attemptTarget expected transition).getD .running then
        if (attemptTarget expected transition).isSome then 1 else 0 else 0))
    (waits : suspended' + (if ((attemptTarget expected transition).map fun _ =>
        sourceAttemptStatus expected) = some .suspended then
          if (attemptTarget expected transition).isSome then 1 else 0 else 0) =
      suspended + (if .suspended = (attemptTarget expected transition).getD .running then
        if (attemptTarget expected transition).isSome then 1 else 0 else 0)) :
    attemptsFit target running' suspended' := by
  cases expected <;> cases transition <;>
    simp only [AgentTaskStatus.apply, reduceCtorEq, Except.ok.injEq] at applied <;>
    subst applied <;>
    simp [attemptTarget, sourceAttemptStatus, attemptsFit] at declared own clear runs waits ⊢ <;>
    omega

theorem updateAgentTaskState_fit {update : AgentTaskStateUpdate} {now : Timestamp}
    {store store' : AgentStore} {result : Bool} (fit : AttemptsFit store.toAgentTables)
    (keeps : keepsAttempts store (.updateState update now) = true)
    (h : updateAgentTaskState update now store = .ok (store', result)) :
    AttemptsFit store'.toAgentTables := by
  rcases updateAgentTaskState_spec h with rfl | ⟨task, target, updatable, declared, applied, effect⟩
  · exact fit
  · have expected : task.status = update.expectedStatus := by
      simp only [isUpdatable, Bool.and_eq_true, decide_eq_true_eq] at updatable
      exact updatable.1.2
    have own := fit task effect.mem
    rw [expected] at own
    obtain ⟨running, suspended⟩ := effect.running_count
    refine fit.of_move store.schema effect (update_fits applied declared own ?_ running suspended)
    intro started
    have allowed : isDeclared update = true := by
      rw [isDeclared, applied]
    have clear := of_all_or keeps effect.mem (by
      rw [allowed, updatable, expected]
      rcases started with queued | run
      · rw [queued]
        rfl
      · rw [run]
        rfl)
    exact of_decide_eq_true clear

theorem cancelQueuedAgentTask_fit {teamId : AgentTeamId} {taskId : AgentTaskId}
    {now : Timestamp} {store store' : AgentStore} {result : Bool}
    (fit : AttemptsFit store.toAgentTables)
    (keeps : keepsAttempts store (.cancelQueued teamId taskId now) = true)
    (h : cancelQueuedAgentTask teamId taskId now store = .ok (store', result)) :
    AttemptsFit store'.toAgentTables := by
  rcases cancelQueuedAgentTask_spec h with same | ⟨task, ident, team, queued, effect⟩
  · exact fit.of_sameRows same
  · have own := fit task effect.mem
    rw [queued] at own
    have clear := of_decide_eq_true (of_all_or keeps effect.mem (by simp [ident, team, queued]))
    obtain ⟨running, suspended⟩ := effect.running_count
    refine fit.of_move store.schema effect ?_
    simp only [attemptsFit, reduceCtorEq, ite_self] at own running suspended ⊢
    omega

theorem claimRunnableAgentTask_fit {teamId : AgentTeamId} {taskId : AgentTaskId}
    {attemptId : AgentAttemptId} {ownerIncarnation : Option Text} {now : Timestamp}
    {store store' : AgentStore} {result : Option AgentTask}
    (fit : AttemptsFit store.toAgentTables)
    (h : claimRunnableAgentTaskWithOwner teamId taskId attemptId ownerIncarnation now store =
      .ok (store', result)) : AttemptsFit store'.toAgentTables := by
  rcases claimRunnableAgentTask_spec h with ⟨rfl, _⟩ | ⟨task, claimable, _, _, effect⟩
  · exact fit
  · have queued : task.status = .queued := by
      simp only [isClaimable, Bool.and_eq_true, decide_eq_true_eq] at claimable
      exact claimable.1.1.1.1.1.2
    have own := fit task effect.mem
    rw [queued] at own
    obtain ⟨running, suspended⟩ := effect.running_count
    refine fit.of_move store.schema effect ?_
    simp only [attemptsFit, reduceCtorEq, if_false, if_true] at own running suspended ⊢
    omega

/-- A running task without leftovers that suspends its running attempt waits by the rule. -/
private theorem suspend_fits {store store' : AgentStore} {task : AgentTask}
    {owner : AgentInstanceStatus → AgentInstanceStatus} (fit : AttemptsFit store.toAgentTables)
    (running : task.status = .running)
    (clear : nothingSuspended store.toAgentTables task = true)
    (effect : TaskMoved store.toAgentTables store'.toAgentTables task .waiting owner
      (some .running) .suspended 1) : AttemptsFit store'.toAgentTables := by
  have own := fit task effect.mem
  rw [running] at own
  have none := of_decide_eq_true clear
  obtain ⟨runs, waits⟩ := effect.running_count
  refine fit.of_move store.schema effect ?_
  simp only [attemptsFit, reduceCtorEq, if_false, if_true, Option.some.injEq] at own runs waits ⊢
  omega

theorem suspendRunningAgentTask_fit {teamId : AgentTeamId} {taskId : AgentTaskId}
    {now : Timestamp} {store store' : AgentStore} {result : Bool}
    (fit : AttemptsFit store.toAgentTables)
    (keeps : keepsAttempts store (.suspend teamId taskId now) = true)
    (h : suspendRunningAgentTask teamId taskId now store = .ok (store', result)) :
    AttemptsFit store'.toAgentTables := by
  rcases suspendRunningAgentTask_spec h with rfl | ⟨task, suspendable, effect⟩
  · exact fit
  · have clear := of_all_or keeps effect.mem suspendable
    simp only [isSuspendable, Bool.and_eq_true, decide_eq_true_eq] at suspendable
    exact suspend_fits fit suspendable.1.1.2 clear effect

theorem suspendRemotePlanTask_fit {teamId : AgentTeamId} {taskId : AgentTaskId}
    {attemptId : AgentAttemptId} {ownerIncarnation : Text} {owned : Bool} {now : Timestamp}
    {store store' : AgentStore} {result : Bool} (fit : AttemptsFit store.toAgentTables)
    (keeps : keepsAttempts store
      (.suspendRemotePlan teamId taskId attemptId ownerIncarnation owned now) = true)
    (h : suspendRemotePlanTask teamId taskId attemptId ownerIncarnation owned now store =
      .ok (store', result)) : AttemptsFit store'.toAgentTables := by
  rcases suspendRemotePlanTask_spec h with rfl | ⟨task, suspendable, effect⟩
  · exact fit
  · have clear := of_all_or keeps effect.mem suspendable
    simp only [isRemotelySuspendable, Bool.and_eq_true, decide_eq_true_eq] at suspendable
    exact suspend_fits fit suspendable.1.2.2 clear effect

theorem closePreStreamChatFailure_fit {taskId : AgentTaskId} {expected : ExpectedAttempt}
    {reason : Option Text} {owned : Bool} {now : Timestamp} {store store' : AgentStore}
    {result : Bool} (fit : AttemptsFit store.toAgentTables)
    (keeps : keepsAttempts store (.closePreStream taskId expected reason owned now) = true)
    (h : closePreStreamChatFailure taskId expected reason owned now store =
      .ok (store', result)) : AttemptsFit store'.toAgentTables := by
  rcases closePreStreamChatFailure_spec h with rfl | ⟨task, closable, effect⟩
  · exact fit
  · have clear := of_decide_eq_true (of_all_or keeps effect.mem closable)
    simp only [isClosable, Bool.and_eq_true, decide_eq_true_eq] at closable
    have own := fit task effect.mem
    rw [closable.1.2] at own
    obtain ⟨runs, waits⟩ := effect.running_count
    refine fit.of_move store.schema effect ?_
    cases interrupted : reason.isSome <;>
      simp only [attemptsFit, terminalTaskStatus, terminalAttemptStatus, interrupted, reduceCtorEq,
        if_false, if_true, Option.some.injEq, Bool.false_eq_true] at own runs waits ⊢ <;>
      omega

/-! ## The loops keep the invariant -/

theorem cancelAgentTaskSubtree_fit {teamId : AgentTeamId} {rootTaskId : AgentTaskId}
    {reason : Option Text} {now : Timestamp} {store store' : AgentStore}
    {result : SubtreeCancellationResult} (fit : AttemptsFit store.toAgentTables)
    (keeps : keepsAttempts store (.cancelSubtree teamId rootTaskId reason now) = true)
    (h : cancelAgentTaskSubtree teamId rootTaskId reason now store = .ok (store', result)) :
    AttemptsFit store'.toAgentTables := by
  obtain ⟨first, record, h⟩ := bind_eq_ok.mp h
  obtain ⟨last, loop, done⟩ := bind_eq_ok.mp h
  cases done
  obtain ⟨_, _, tasks, attempts⟩ := recordSubtreeCancellation_spec record
  have fitFirst : AttemptsFit first.toAgentTables := fit.of_attempts tasks attempts
  have unique : Unique AgentTask.id (subtreeTasks store.toAgentTables teamId rootTaskId) :=
    (store.schema.tasks.ids.filter _).sortBy _
  refine foldlM_moves (fun tables task => task.teamId = teamId ∧
    (task.status = .queued ∨ task.status = .waiting) ∧
    (task.status = .queued → attemptCount tables task.id .suspended = 0))
    ?_ ?_ (unique.filter _) fitFirst ?_ loop
  · intro current next task inv mem ⟨team, unfinished, clear⟩ run
    have own := inv task mem
    rcases cancelSubtreeTask_spec mem team unfinished run with ⟨queued, effect⟩ | ⟨waiting, effect⟩
    · refine ⟨inv.of_move current.schema effect ?_, _, _, _, _, _, effect⟩
      obtain ⟨runs, waits⟩ := effect.running_count
      have none := clear queued
      rw [queued] at own
      simp only [attemptsFit, reduceCtorEq, ite_self] at own runs waits ⊢
      omega
    · refine ⟨inv.of_move current.schema effect ?_, _, _, _, _, _, effect⟩
      obtain ⟨runs, waits⟩ := effect.running_count
      rw [waiting] at own
      simp only [attemptsFit, reduceCtorEq, if_false, if_true, Option.some.injEq] at own runs waits ⊢
      omega
  · intro current next task other otherMem apart ⟨team, unfinished, clear⟩ run mem ready
    refine ⟨team, unfinished, fun queued => ?_⟩
    rcases cancelSubtreeTask_spec mem ready.1 ready.2.1 run with ⟨_, effect⟩ | ⟨_, effect⟩
    · rw [effect.attemptCount_other apart]
      exact clear queued
    · rw [effect.attemptCount_other apart]
      exact clear queued
  · intro task selected
    obtain ⟨inSubtree, unfinished⟩ := List.mem_filter.mp selected
    obtain ⟨mem, team⟩ := mem_subtreeTasks inSubtree
    rw [tasks]
    refine ⟨mem, team, of_decide_eq_true unfinished, fun queued => ?_⟩
    have clear := List.all_eq_true.mp keeps task inSubtree
    simp only [queued, ne_eq, not_true_eq_false, decide_false, Bool.false_or] at clear
    rw [attemptCount, attempts]
    exact of_decide_eq_true clear

theorem resumeSatisfiedAgentTasks_fit {limit : Int} {matching : AgentTask → Bool}
    {requeued : AgentTaskId → Bool} {now : Timestamp} {store store' : AgentStore}
    {result : List AgentTask} (fit : AttemptsFit store.toAgentTables)
    (h : resumeSatisfiedAgentTasks limit matching requeued now store = .ok (store', result)) :
    AttemptsFit store'.toAgentTables := by
  unfold resumeSatisfiedAgentTasks at h
  split at h
  · cases h
  obtain ⟨last, loop, done⟩ := bind_eq_ok.mp h
  cases done
  have unique : Unique AgentTask.id (resumableTasks store.toAgentTables limit now matching) :=
    ((store.schema.tasks.ids.filter _).sortBy _).take _
  refine foldlM_moves (fun _ task => task.status = .waiting) ?_ ?_ unique fit ?_ loop
  · intro current next task inv mem waiting run
    have effect := resumeTask_spec mem waiting run
    refine ⟨inv.of_move current.schema effect ?_, _, _, _, _, _, effect⟩
    obtain ⟨runs, waits⟩ := effect.running_count
    have own := inv task mem
    rw [waiting] at own
    simp only [attemptsFit, reduceCtorEq, ite_self] at own runs waits ⊢
    omega
  · exact fun _ _ _ _ _ _ waiting _ _ _ => waiting
  · intro task selected
    obtain ⟨mem, resumable⟩ := mem_resumableTasks selected
    simp only [isResumable, Bool.and_eq_true, decide_eq_true_eq] at resumable
    exact ⟨mem, resumable.1.1.1.1.1⟩

theorem recoverInterruptedAgentWaitTasks_fit {reason : Text} {limit : Int} {now : Timestamp}
    {store store' : AgentStore} {result : List AgentTask} (fit : AttemptsFit store.toAgentTables)
    (keeps : keepsAttempts store (.recover reason limit now) = true)
    (h : recoverInterruptedAgentWaitTasks reason limit now store = .ok (store', result)) :
    AttemptsFit store'.toAgentTables := by
  unfold recoverInterruptedAgentWaitTasks at h
  split at h
  · cases h
  obtain ⟨last, loop, done⟩ := bind_eq_ok.mp h
  cases done
  have unique : Unique AgentTask.id (recoverableTasks store.toAgentTables reason limit) :=
    ((store.schema.tasks.ids.filter _).sortBy _).take _
  refine foldlM_moves (fun tables task => task.status = .interrupted ∧
    tables.attempts.countP (interruptedFor reason task) = 1) ?_ ?_ unique fit ?_ loop
  · intro current next task inv mem ⟨interrupted, one⟩ run
    have effect := recoverTask_spec mem interrupted run
    refine ⟨inv.of_move current.schema effect ?_, _, _, _, _, _, effect⟩
    obtain ⟨runs, waits⟩ := effect.running_count
    have own := inv task mem
    rw [interrupted] at own
    simp only [attemptsFit, reduceCtorEq, if_false, if_true, Option.some.injEq, one] at own runs waits ⊢
    omega
  · intro current next task other otherMem apart ⟨interrupted, one⟩ run mem ready
    have effect := recoverTask_spec mem ready.1 run
    refine ⟨interrupted, ?_⟩
    rw [effect.others (interruptedFor reason other), one]
    intro row tries
    apply decide_eq_false
    rintro ⟨own, _⟩
    exact apart (own.symm.trans tries)
  · intro task selected
    obtain ⟨mem, recoverable⟩ := mem_recoverableTasks selected
    simp only [isRecoverable, isInterruptedWait, Bool.and_eq_true, decide_eq_true_eq] at recoverable
    exact ⟨mem, recoverable.1.1.1.1.1.1, of_decide_eq_true (List.all_eq_true.mp keeps task selected)⟩

/-! ## Runs -/

/-- Every step that meets the condition keeps the invariant. -/
theorem AttemptsFit.step {store store' : AgentStore} {action : AgentAction}
    (fit : AttemptsFit store.toAgentTables) (keeps : keepsAttempts store action = true)
    (step : agentMachine.step store action = some store') : AttemptsFit store'.toAgentTables := by
  simp only [agentMachine] at step
  split at step
  · rename_i next commit
    cases step
    cases action with
    | createTeam team =>
      obtain ⟨_, run⟩ := commit_eq_ok commit
      exact fit.of_created (createAgentTeam_spec run)
    | createInstances instances maxTeam maxDefinition =>
      obtain ⟨_, run⟩ := commit_eq_ok commit
      exact fit.of_created (createAgentInstances_spec run)
    | transitionTeam teamId target =>
      obtain ⟨_, run⟩ := commit_eq_ok commit
      obtain ⟨_, _, _, _, _, transitioned⟩ := transitionAgentTeamStatus_spec run
      exact fit.of_attempts transitioned.tasks transitioned.attempts
    | transitionInstance instanceId target =>
      obtain ⟨_, run⟩ := commit_eq_ok commit
      obtain ⟨_, _, _, _, _, written⟩ := transitionAgentInstanceStatus_spec run
      exact fit.of_attempts written.tasks written.attempts
    | deleteInstance instanceId =>
      obtain ⟨_, run⟩ := commit_eq_ok commit
      rw [deleteAgentInstance_spec run]
      exact fit.withoutInstance store.schema instanceId
    | enqueue task maxTeam maxInstance maxChat now =>
      obtain ⟨_, run⟩ := commit_eq_ok commit
      obtain ⟨_, _, enqueued⟩ := enqueueAgentTask_spec run
      exact fit.of_enqueued store.schema store'.schema enqueued
    | transfer teamId taskId target maxTeam maxInstance maxChat now =>
      obtain ⟨_, run⟩ := commit_eq_ok commit
      rcases transferQueuedAgentTask_spec run with rfl | ⟨_, _, transferred⟩
      · exact fit
      · exact fit.of_transferred transferred
    | cancelQueued teamId taskId now =>
      obtain ⟨_, run⟩ := commit_eq_ok commit
      exact cancelQueuedAgentTask_fit fit keeps run
    | cancelSubtree teamId rootTaskId reason now =>
      obtain ⟨_, run⟩ := commit_eq_ok commit
      exact cancelAgentTaskSubtree_fit fit keeps run
    | registerWait round =>
      obtain ⟨_, run⟩ := commit_eq_ok commit
      exact fit.of_sameRows (registerAgentTaskWait_spec run)
    | deleteDependencies taskId =>
      obtain ⟨_, run⟩ := commit_eq_ok commit
      exact fit.of_sameRows (deleteAgentTaskDependencies_spec run)
    | claim teamId taskId attemptId ownerIncarnation now =>
      obtain ⟨_, run⟩ := commit_eq_ok commit
      exact claimRunnableAgentTask_fit fit run
    | renewLease taskId attemptId ownerIncarnation now =>
      obtain ⟨_, run⟩ := commit_eq_ok commit
      exact fit.of_sameRows (renewAgentAttemptLease_spec run)
    | updateState update now =>
      obtain ⟨_, run⟩ := commit_eq_ok commit
      exact updateAgentTaskState_fit fit keeps run
    | suspend teamId taskId now =>
      obtain ⟨_, run⟩ := commit_eq_ok commit
      exact suspendRunningAgentTask_fit fit keeps run
    | resume limit matching requeued now =>
      obtain ⟨_, run⟩ := commit_eq_ok commit
      exact resumeSatisfiedAgentTasks_fit fit run
    | recover reason limit now =>
      obtain ⟨_, run⟩ := commit_eq_ok commit
      exact recoverInterruptedAgentWaitTasks_fit fit keeps run
    | suspendRemotePlan teamId taskId attemptId ownerIncarnation owned now =>
      obtain ⟨_, run⟩ := commit_eq_ok commit
      exact suspendRemotePlanTask_fit fit keeps run
    | closePreStream taskId expected reason owned now =>
      obtain ⟨_, run⟩ := commit_eq_ok commit
      exact closePreStreamChatFailure_fit fit keeps run
  · cases step
    exact fit

/-- The invariant holds in every state of a run whose steps meet the condition. -/
theorem attemptsFit_of_reachable {store : AgentStore}
    (reached : agentMachine.ReachableWhile (fun s a => keepsAttempts s a = true) store) :
    AttemptsFit store.toAgentTables := by
  induction reached with
  | start =>
    intro task mem
    cases mem
  | next _ keeps step fit => exact fit.step keeps step

/-! ## Waiting tasks can always be ended -/

/-- The attempts that a statement finds by task, team and status are those of the task. -/
theorem countP_attempts_of_team {tables : AgentTables} (schema : Schema tables)
    {task : AgentTask} (mem : task ∈ tables.tasks) (status : AgentAttemptStatus) :
    tables.attempts.countP (fun row =>
      decide (row.taskId = task.id ∧ row.teamId = task.teamId ∧ row.status = status)) =
      attemptCount tables task.id status := by
  apply List.countP_congr
  intro row rowMem
  simp only [attemptOf, decide_eq_true_eq]
  constructor
  · rintro ⟨tries, -, same⟩
    exact ⟨tries, same⟩
  · rintro ⟨tries, same⟩
    exact ⟨tries, attempt_team schema mem rowMem tries, same⟩

theorem cancelSubtreeTask_ne_noSuspendedAttempt {teamId : AgentTeamId} {reason : Option Text}
    {now : Timestamp} {store : AgentStore} {task : AgentTask} (mem : task ∈ store.tasks)
    (team : task.teamId = teamId)
    (one : task.status = .waiting → attemptCount store.toAgentTables task.id .suspended = 1)
    (taskId : AgentTaskId) :
    cancelSubtreeTask teamId reason now store task ≠ .error (.noSuspendedAttempt taskId) := by
  intro h
  unfold cancelSubtreeTask at h
  simp only at h
  split at h
  · cases h
  rcases bind_eq_error.mp h with write | ⟨first, writeTasks, h⟩
  · cases AgentTables.write_eq_error write
  rcases bind_eq_error.mp h with cancel | ⟨second, _, write⟩
  · unfold cancelSuspendedAttempt at cancel
    simp only at cancel
    split at cancel
    · cases cancel
    rename_i waiting
    rw [not_not] at waiting
    have attempts : first.attempts = store.attempts := by
      rw [AgentTables.write_eq_ok.mp writeTasks]
    have count := (countP_attempts_of_team store.schema mem .suspended).trans (one waiting)
    rw [team, ← attempts] at count
    split at cancel
    · rename_i none
      exact none count
    rcases bind_eq_error.mp cancel with write | ⟨third, _, write⟩
    · cases AgentTables.write_eq_error write
    · cases AgentTables.write_eq_error write
  · cases AgentTables.write_eq_error write

/-- A cancelled subtree never lacks the suspended attempt of one of its waiting tasks. -/
theorem cancelAgentTaskSubtree_ne_noSuspendedAttempt {store : AgentStore}
    (fit : AttemptsFit store.toAgentTables) (teamId : AgentTeamId) (rootTaskId : AgentTaskId)
    (reason : Option Text) (now : Timestamp) (taskId : AgentTaskId) :
    cancelAgentTaskSubtree teamId rootTaskId reason now store ≠
      .error (.noSuspendedAttempt taskId) := by
  intro h
  rcases bind_eq_error.mp h with record | ⟨first, record, h⟩
  · unfold recordSubtreeCancellation AgentStore.insertCancellation at record
    split at record
    · cases record
    split at record
    · cases record
    · cases AgentTables.write_eq_error record
  rcases bind_eq_error.mp h with loop | ⟨last, _, done⟩
  · obtain ⟨_, _, tasks, attempts⟩ := recordSubtreeCancellation_spec record
    have unique : Unique AgentTask.id (subtreeTasks store.toAgentTables teamId rootTaskId) :=
      (store.schema.tasks.ids.filter _).sortBy _
    refine foldlM_snapshot_ne_error (fun (current : AgentStore) task => task ∈ current.tasks ∧
      task.teamId = teamId ∧ (task.status = .queued ∨ task.status = .waiting) ∧
      (task.status = .waiting → attemptCount current.toAgentTables task.id .suspended = 1))
      ?_ ?_ (unique.filter _) ?_ loop
    · rintro current task next ⟨mem, team, unfinished, _⟩ run other apart
        ⟨otherMem, otherTeam, otherUnfinished, otherOne⟩
      have apart' : other.id ≠ task.id := fun same => apart same.symm
      rcases cancelSubtreeTask_spec mem team unfinished run with ⟨_, effect⟩ | ⟨_, effect⟩
      · refine ⟨effect.other_mem otherMem apart', otherTeam, otherUnfinished, ?_⟩
        rwa [effect.attemptCount_other apart']
      · refine ⟨effect.other_mem otherMem apart', otherTeam, otherUnfinished, ?_⟩
        rwa [effect.attemptCount_other apart']
    · rintro current task ⟨mem, team, _, one⟩
      exact cancelSubtreeTask_ne_noSuspendedAttempt mem team one taskId
    · intro task selected
      obtain ⟨inSubtree, unfinished⟩ := List.mem_filter.mp selected
      obtain ⟨mem, team⟩ := mem_subtreeTasks inSubtree
      rw [tasks, attemptCount, attempts]
      refine ⟨mem, team, of_decide_eq_true unfinished, fun waiting => ?_⟩
      have own := fit task mem
      rw [waiting] at own
      exact own.2
  · cases done

/-- Resuming or ending a waiting task never lacks its suspended attempt. -/
theorem updateAgentTaskState_ne_noActiveAttempt {store : AgentStore}
    (fit : AttemptsFit store.toAgentTables) {update : AgentTaskStateUpdate}
    (waiting : update.expectedStatus = .waiting) (now : Timestamp) (taskId : AgentTaskId) :
    updateAgentTaskState update now store ≠ .error (.noActiveAttempt taskId) := by
  intro h
  unfold updateAgentTaskState at h
  split at h
  · cases h
  rcases bind_eq_error.mp h with refused | ⟨target, _, h⟩
  · cases outcome : update.expectedStatus.apply update.transition <;> rw [outcome] at refused <;>
      cases refused
  split at h
  · cases h
  rename_i task found
  have mem := List.mem_of_find?_eq_some found
  have updatable := List.find?_some found
  simp only [isUpdatable, Bool.and_eq_true, decide_eq_true_eq] at updatable
  obtain ⟨⟨⟨ident, team⟩, expected⟩, met⟩ := updatable
  rcases bind_eq_error.mp h with write | ⟨first, writeTasks, h⟩
  · cases AgentTables.write_eq_error write
  rcases bind_eq_error.mp h with move | ⟨second, _, h⟩
  · have attempts : first.attempts = store.attempts := by
      rw [AgentTables.write_eq_ok.mp writeTasks]
    have source : isSourceAttempt update = fun row => decide (row.taskId = task.id ∧
        row.teamId = task.teamId ∧ row.status = .suspended) := by
      funext row
      simp only [isSourceAttempt, sourceAttemptStatus, waiting, if_true, ident, team]
    have own := fit task mem
    rw [expected, waiting] at own
    have all : store.attempts.countP (isSourceAttempt update) = 1 := by
      rw [source, countP_attempts_of_team store.schema mem]
      exact own.2
    have one : first.attempts.countP (fun row => isSourceAttempt update row &&
        update.expectedAttempt.all fun expected => expected.isMet row) = 1 := by
      rw [attempts]
      cases given : update.expectedAttempt with
      | none => simpa only [Option.all_none, Bool.and_true] using all
      | some attempt =>
        rw [given] at met
        obtain ⟨row, rowMem, hit⟩ := List.any_eq_true.mp met
        have hits : 0 < store.attempts.countP fun row =>
            isSourceAttempt update row && attempt.isMet row :=
          List.countP_pos_iff.mpr ⟨row, rowMem, hit⟩
        have few : store.attempts.countP (fun row =>
            isSourceAttempt update row && attempt.isMet row) ≤
            store.attempts.countP (isSourceAttempt update) := by
          apply List.countP_mono_left
          intro row _ hit
          exact (Bool.and_eq_true _ _ ▸ hit).1
        simp only [Option.all_some]
        omega
    unfold updateTaskAttempt at move
    simp only at move
    split at move
    · cases move
    · rw [if_neg (by rw [one]; omega)] at move
      cases AgentTables.write_eq_error move
  rcases bind_eq_error.mp h with write | ⟨third, _, h⟩
  · cases AgentTables.write_eq_error write
  rcases bind_eq_error.mp h with owner | ⟨fourth, _, done⟩
  · unfold updateTaskOwner at owner
    split at owner
    · cases owner
    · cases AgentTables.write_eq_error owner
  · cases done

/-! ## The rule over runs -/

/-- In every state of a run whose steps take no task with a leftover attempt into a wait or to
its end, attempts match their tasks, and a waiting task can be ended, with its subtree or by
itself. -/
theorem attempts_follow_tasks {store : AgentStore}
    (reached : agentMachine.ReachableWhile (fun s a => keepsAttempts s a = true) store) :
    AttemptsMatch store.toAgentTables ∧
    (∀ teamId rootTaskId reason now taskId,
      cancelAgentTaskSubtree teamId rootTaskId reason now store ≠
        .error (.noSuspendedAttempt taskId)) ∧
    ∀ update now taskId, update.expectedStatus = .waiting →
      updateAgentTaskState update now store ≠ .error (.noActiveAttempt taskId) := by
  have fit := attemptsFit_of_reachable reached
  refine ⟨fit.attemptsMatch, ?_, ?_⟩
  · exact cancelAgentTaskSubtree_ne_noSuspendedAttempt fit
  · intro update now taskId waiting
    exact updateAgentTaskState_ne_noActiveAttempt fit waiting now taskId

/-- The team of the runs below. -/
def soloTeam : NewAgentTeam where
  id := 1
  chatId := 1
  coordinatorInstanceId := 1
  coordinatorDefinitionId := 1
  maxConcurrentRuns := 4

/-- Its worker. -/
def soloWorker : NewAgentInstance where
  id := 2
  teamId := 1
  definitionId := 2
  definitionRevision := 1
  role := .worker

/-- A task for one of its two instances. -/
def taskFor (id : AgentTaskId) (owner : AgentInstanceId) (origin : Option AgentInstanceId)
    (parent : Option AgentTaskId) : NewAgentTask where
  id := id
  teamId := 1
  ownerInstanceId := owner
  originInstanceId := origin
  parentTaskId := parent
  inputJson := .null

/-- A wait of one task for another. -/
def waitFor (waiting dependency : AgentTaskId) (call : Text) : WaitRound where
  teamId := 1
  waitingTaskId := waiting
  dependencyTaskIds := [dependency]
  waitMode := .all
  pendingToolCallId := some call
  deadlineAt := none

/-- A transition of a task of the team. -/
def moveTask (task : AgentTaskId) (expected : AgentTaskStatus)
    (transition : AgentTaskTransition) : AgentTaskStateUpdate where
  teamId := 1
  taskId := task
  expectedStatus := expected
  transition := transition
  interruptionReason := none
  expectedAttempt := none

/-- A coordinator's task delegates another to the worker and waits for it. -/
def delegatedWait : List AgentAction :=
  [.createTeam soloTeam,
    .createInstances [soloWorker] 8 8,
    .enqueue (taskFor 1 1 none none) 8 8 8 [],
    .claim 1 1 1 none [],
    .enqueue (taskFor 2 2 (some 1) (some 1)) 8 8 8 [],
    .registerWait (waitFor 1 2 ['a']),
    .suspend 1 1 []]

/-- The delegated task completes, the coordinator's task resumes through the queue, delegates
again and waits a second time. -/
def secondWait : List AgentAction :=
  [.claim 1 2 2 none [],
    .updateState (moveTask 2 .running .complete) [],
    .resume 8 (fun _ => true) (fun _ => true) [],
    .claim 1 1 3 none [],
    .enqueue (taskFor 3 2 (some 1) (some 1)) 8 8 8 [],
    .registerWait (waitFor 1 3 ['b']),
    .suspend 1 1 []]

/-- An operation fails with a given error. -/
def failsWith {Result : Type} (error : AgentStoreError)
    (outcome : Except AgentStoreError (AgentStore × Result)) : Bool :=
  match outcome with
  | .ok _ => false
  | .error other => decide (other = error)

theorem failsWith_eq_true {Result : Type} {error : AgentStoreError}
    {outcome : Except AgentStoreError (AgentStore × Result)}
    (h : failsWith error outcome = true) : outcome = .error error := by
  cases outcome with
  | ok _ => cases h
  | error other =>
    have same : other = error := of_decide_eq_true h
    rw [same]

/-- The rule on the first wait of a task. -/
theorem attempts_follow_first_wait :
    ∃ store : AgentStore, (store.tasks.any fun task => task.status = .waiting) = true ∧
      AttemptsMatch store.toAgentTables ∧
      (∀ teamId rootTaskId reason now taskId,
        cancelAgentTaskSubtree teamId rootTaskId reason now store ≠
          .error (.noSuspendedAttempt taskId)) ∧
      ∀ update now taskId, update.expectedStatus = .waiting →
        updateAgentTaskState update now store ≠ .error (.noActiveAttempt taskId) := by
  have run : ((agentMachine.runWhile keepsAttempts .empty delegatedWait).any fun store =>
      store.tasks.any fun task => task.status = .waiting) = true := by decide
  obtain ⟨store, reaches, waits⟩ := (Option.any_eq_true ..).mp run
  exact ⟨store, waits, attempts_follow_tasks (Machine.reachableWhile_of_runWhile .start reaches)⟩

/-- The second wait of a task leaves it with two suspended attempts, and its subtree can no
longer be cancelled. -/
theorem second_wait_blocks_cancellation :
    ∃ store, agentMachine.Reachable store ∧ ¬ AttemptsMatch store.toAgentTables ∧
      cancelAgentTaskSubtree 1 1 none [] store = .error (.noSuspendedAttempt 1) := by
  have run : ((agentMachine.run .empty (delegatedWait ++ secondWait)).any fun store =>
      (store.tasks.any fun task => decide (task.status = .waiting) &&
        decide (attemptCount store.toAgentTables task.id .suspended = 2)) &&
      failsWith (.noSuspendedAttempt 1) (cancelAgentTaskSubtree 1 1 none [] store)) = true := by
    decide
  obtain ⟨store, reaches, shape⟩ := (Option.any_eq_true ..).mp run
  obtain ⟨two, fails⟩ := Bool.and_eq_true .. ▸ shape
  obtain ⟨task, mem, waits⟩ := List.any_eq_true.mp two
  simp only [Bool.and_eq_true, decide_eq_true_eq] at waits
  refine ⟨store, Machine.reachable_of_run .start reaches, ?_, failsWith_eq_true fails⟩
  intro fit
  have own := fit task mem
  rw [waits.1, waits.2] at own
  simp only [attemptsMatch] at own
  omega

end Foco.AgentRuntime
