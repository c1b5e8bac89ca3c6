import Foco.AgentInstances

/-!
Claims and the queue of an instance. A claim starts the task with the lowest sequence among
the unfinished tasks of its owner and keeps the team below its limit. Whether a task that
`runnable_agent_tasks` lists can be claimed depends on more: the queries look at earlier
tasks of the owner only, the schema allows no second active one. So no queued task may come
before an active task of an owner that is idle or draining. Enqueueing, transferring and
claiming see to that, since sequences are drawn in order; retrying or recovering an old
task, and making an instance idle or draining, may not.
-/
namespace Foco.AgentRuntime
open Foco.RustText Foco.AgentDomain Foco.Table Foco.Runs Foco.Result

/-! ## The order of a queue -/

/-- A queued task of the owner comes before this one. -/
def hasEarlierQueued (tables : AgentTables) (task : AgentTask) : Bool :=
  tables.tasks.any fun earlier => decide (earlier.ownerInstanceId = task.ownerInstanceId) &&
    decide (earlier.status = .queued) && decide (earlier.sequence < task.sequence)

/-- An active task of the owner comes after this one. -/
def hasLaterActive (tables : AgentTables) (task : AgentTask) : Bool :=
  tables.tasks.any fun later => decide (later.ownerInstanceId = task.ownerInstanceId) &&
    later.status.isActive && decide (task.sequence < later.sequence)

/-- Running tasks have one running attempt and other tasks none, sequences are drawn from the
owner's counter, and an owner that may start a task has no queued task before an active one. -/
structure QueueFit (tables : AgentTables) : Prop where
  runs : ∀ task ∈ tables.tasks,
    attemptCount tables task.id .running = if task.status = .running then 1 else 0
  drawn : ∀ task ∈ tables.tasks, ∀ row ∈ tables.instances, row.id = task.ownerInstanceId →
    task.sequence < row.nextTaskSequence
  order : ∀ row ∈ tables.instances, mayStart row.status = true →
    ∀ busy ∈ tables.tasks, busy.status.isActive = true → busy.ownerInstanceId = row.id →
    ∀ queued ∈ tables.tasks, queued.status = .queued → queued.ownerInstanceId = row.id →
    busy.sequence < queued.sequence

/-- Two tasks of one owner have different sequences. -/
theorem sequence_ne {tables : AgentTables} (schema : Schema tables) {first second : AgentTask}
    (firstMem : first ∈ tables.tasks) (secondMem : second ∈ tables.tasks)
    (same : first.ownerInstanceId = second.ownerInstanceId) (apart : first.id ≠ second.id) :
    first.sequence ≠ second.sequence := by
  intro equal
  have keys : (first.ownerInstanceId, first.sequence) = (second.ownerInstanceId, second.sequence) :=
    by rw [same, equal]
  exact apart (congrArg AgentTask.id (schema.tasks.sequences.eq firstMem secondMem keys))

section Order

variable {tables : AgentTables} {task other : AgentTask}

theorem lt_of_not_hasEarlierQueued (schema : Schema tables) (mem : task ∈ tables.tasks)
    (otherMem : other ∈ tables.tasks) (queued : other.status = .queued)
    (same : other.ownerInstanceId = task.ownerInstanceId) (apart : other.id ≠ task.id)
    (none : hasEarlierQueued tables task = false) : task.sequence < other.sequence := by
  have ne := sequence_ne schema otherMem mem same apart
  have skipped := List.any_eq_false.mp none other otherMem
  simp only [same, queued, decide_true, Bool.true_and, decide_eq_true_eq] at skipped
  omega

theorem lt_of_not_hasLaterActive (schema : Schema tables) (mem : task ∈ tables.tasks)
    (otherMem : other ∈ tables.tasks) (active : other.status.isActive = true)
    (same : other.ownerInstanceId = task.ownerInstanceId) (apart : other.id ≠ task.id)
    (none : hasLaterActive tables task = false) : other.sequence < task.sequence := by
  have ne := sequence_ne schema otherMem mem same apart
  have skipped := List.any_eq_false.mp none other otherMem
  simp only [same, active, decide_true, Bool.true_and, decide_eq_true_eq] at skipped
  omega

/-- The task at the head of a queue comes before the other unfinished tasks of its owner. -/
theorem lt_of_not_hasEarlierTask (schema : Schema tables) (mem : task ∈ tables.tasks)
    (otherMem : other ∈ tables.tasks) (unfinished : other.status.holdsQueueHead = true)
    (same : other.ownerInstanceId = task.ownerInstanceId) (apart : other.id ≠ task.id)
    (none : hasEarlierTask tables task = false) : task.sequence < other.sequence := by
  have ne := sequence_ne schema otherMem mem same apart
  have skipped := List.any_eq_false.mp none other otherMem
  simp only [same, unfinished, decide_true, Bool.true_and, Bool.and_true,
    decide_eq_true_eq] at skipped
  omega

end Order

/-! ## The condition on a step -/

/-- The instances that a team transition makes startable. -/
def wakesInstance : AgentTeamStatus → AgentInstanceStatus → Bool
  | .active, status => status = .paused || status = .failed
  | .draining, status => status = .paused
  | _, _ => false

/-- The step puts no queued task before an active task of an owner that may start tasks: it
makes no instance with such tasks idle or draining, re-queues no task of an idle or draining
owner before its active task, and recovers no wait of a draining owner behind its queue. -/
def keepsQueue (store : AgentStore) : AgentAction → Bool
  | .transitionTeam teamId target => store.teams.all fun team =>
    !(decide (team.id = teamId) && team.status.allows target) || store.tasks.all fun task =>
      !(decide (task.teamId = teamId) && task.status.isActive &&
        hasEarlierQueued store.toAgentTables task) ||
      ownerMeets store.toAgentTables task fun status => !wakesInstance target status
  | .transitionInstance instanceId target => store.instances.all fun row =>
    !(decide (row.id = instanceId) && row.status.allows target && decide (target = .idle)) ||
      store.tasks.all fun task => !(decide (task.ownerInstanceId = instanceId) &&
        task.status.isActive) || !hasEarlierQueued store.toAgentTables task
  | .updateState update _ => store.tasks.all fun task =>
    !(isDeclared update && isUpdatable store.toAgentTables update task &&
      decide (update.transition = .retry) && hasLaterActive store.toAgentTables task) ||
      ownerMeets store.toAgentTables task fun status => !mayStart status
  | .recover reason limit _ => (recoverableTasks store.toAgentTables reason limit).all fun task =>
    !hasEarlierQueued store.toAgentTables task ||
      ownerMeets store.toAgentTables task fun status => decide (status ≠ .draining)
  | _ => true

/-! ## Moves of tasks -/

theorem QueueFit.of_move {before after : AgentTables} {task : AgentTask}
    {target : AgentTaskStatus} {owner : AgentInstanceStatus → AgentInstanceStatus}
    {source : Option AgentAttemptStatus} {written : AgentAttemptStatus} {moved : Nat}
    (fit : QueueFit before) (schema : Schema before) (schema' : Schema after)
    (effect : TaskMoved before after task target owner source written moved)
    (runs : attemptCount after task.id .running = if target = .running then 1 else 0)
    (active : task.status.isActive = true ∨ target.isActive = true ∨ owner = id)
    (opens : target.isActive = true → ∀ row ∈ before.instances, row.id = task.ownerInstanceId →
      mayStart (owner row.status) = true → ∀ other ∈ before.tasks, other.status = .queued →
      other.ownerInstanceId = task.ownerInstanceId → other.id ≠ task.id →
      task.sequence < other.sequence)
    (queues : target = .queued → ∀ row ∈ before.instances, row.id = task.ownerInstanceId →
      mayStart (owner row.status) = true → ∀ other ∈ before.tasks, other.status.isActive = true →
      other.ownerInstanceId = task.ownerInstanceId → other.id ≠ task.id →
      other.sequence < task.sequence) : QueueFit after := by
  refine ⟨?_, ?_, ?_⟩
  · intro row mem
    rcases effect.row_cases schema mem with ⟨now, rfl⟩ | ⟨rowMem, apart⟩
    · exact runs
    · rw [effect.attemptCount_other apart]
      exact fit.runs row rowMem
  · intro row mem inst instMem owns
    obtain ⟨old, oldMem, ident, _, next, _⟩ := effect.instances inst instMem
    rw [next]
    rcases effect.row_cases schema mem with ⟨now, rfl⟩ | ⟨rowMem, _⟩
    · exact fit.drawn task effect.mem old oldMem (ident.symm.trans owns)
    · exact fit.drawn row rowMem old oldMem (ident.symm.trans owns)
  · intro inst instMem starts busy busyMem busyActive busyOwns queued queuedMem waits queuedOwns
    obtain ⟨old, oldMem, ident, _, _, status⟩ := effect.instances inst instMem
    rcases effect.row_cases schema busyMem with ⟨now, rfl⟩ | ⟨busyOld, busyApart⟩ <;>
      rcases effect.row_cases schema queuedMem with ⟨now', rfl⟩ | ⟨queuedOld, queuedApart⟩
    · rw [AgentTask.setStatus_status] at busyActive waits
      rw [waits] at busyActive
      cases busyActive
    · have own : old.id = task.ownerInstanceId := ident.symm.trans busyOwns.symm
      rw [status, if_pos own] at starts
      exact opens busyActive old oldMem own starts queued queuedOld waits
        (queuedOwns.trans busyOwns.symm) queuedApart
    · have own : old.id = task.ownerInstanceId := ident.symm.trans queuedOwns.symm
      rw [status, if_pos own] at starts
      exact queues waits old oldMem own starts busy busyOld busyActive
        (busyOwns.trans queuedOwns.symm) busyApart
    · by_cases own : old.id = task.ownerInstanceId
      · have busyOwn : busy.ownerInstanceId = task.ownerInstanceId :=
          busyOwns.trans (ident.trans own)
        rcases active with was | becomes | rfl
        · rw [effect.alone schema schema' (.inl was) busyOld busyApart busyOwn] at busyActive
          cases busyActive
        · rw [effect.alone schema schema' (.inr becomes) busyOld busyApart busyOwn] at busyActive
          cases busyActive
        · rw [status, if_pos own] at starts
          exact fit.order old oldMem starts busy busyOld busyActive (busyOwns.trans ident) queued
            queuedOld waits (queuedOwns.trans ident)
      · rw [status, if_neg own] at starts
        exact fit.order old oldMem starts busy busyOld busyActive (busyOwns.trans ident) queued
          queuedOld waits (queuedOwns.trans ident)

section Move

variable {store store' : AgentStore} {task : AgentTask} {target : AgentTaskStatus}
  {owner : AgentInstanceStatus → AgentInstanceStatus} {source : Option AgentAttemptStatus}
  {written : AgentAttemptStatus} {moved : Nat}

/-- A task that ends leaves the queue in order. -/
private theorem QueueFit.of_end (fit : QueueFit store.toAgentTables)
    (effect : TaskMoved store.toAgentTables store'.toAgentTables task target owner source written
      moved) (runs : attemptCount store'.toAgentTables task.id .running = 0)
    (active : task.status.isActive = true ∨ owner = id)
    (ends : target.holdsQueueHead = false) : QueueFit store'.toAgentTables := by
  refine fit.of_move store.schema store'.schema effect ?_ (active.imp id .inr) ?_ ?_
  · rw [runs, if_neg]
    rintro rfl
    cases ends
  · intro busy
    rw [AgentTaskStatus.holdsQueueHead_of_isActive busy] at ends
    cases ends
  · rintro rfl
    cases ends

/-- So does an active task that becomes queued: its owner has no other active task. -/
private theorem QueueFit.of_requeue (fit : QueueFit store.toAgentTables)
    (effect : TaskMoved store.toAgentTables store'.toAgentTables task .queued owner source written
      moved) (runs : attemptCount store'.toAgentTables task.id .running = 0)
    (active : task.status.isActive = true) : QueueFit store'.toAgentTables := by
  refine fit.of_move store.schema store'.schema effect runs (.inl active) nofun ?_
  intro _ row _ _ _ other otherMem busy same apart
  rw [effect.alone store.schema store'.schema (.inl active) otherMem apart same] at busy
  cases busy

/-- And an active task that stays active, if its owner does not come to start tasks. -/
private theorem QueueFit.of_active (fit : QueueFit store.toAgentTables)
    (effect : TaskMoved store.toAgentTables store'.toAgentTables task target owner source written
      moved) (runs : attemptCount store'.toAgentTables task.id .running =
        if target = .running then 1 else 0)
    (active : task.status.isActive = true) (stays : target ≠ .queued)
    (starts : ∀ status, mayStart (owner status) = true → mayStart status = true) :
    QueueFit store'.toAgentTables := by
  refine fit.of_move store.schema store'.schema effect runs (.inl active) ?_
    (fun queued => absurd queued stays)
  intro _ row rowMem owns may other otherMem queued same _
  exact fit.order row rowMem (starts _ may) task effect.mem active owns.symm other otherMem queued
    (same.trans owns.symm)

end Move

/-! ## Operations on single tasks -/

theorem QueueFit.of_sameRows {before after : AgentTables} (fit : QueueFit before)
    (same : SameRows before after) : QueueFit after := by
  refine ⟨?_, ?_, ?_⟩
  · intro task mem
    rw [same.tasks] at mem
    rw [same.attempts]
    exact fit.runs task mem
  · intro task mem
    rw [same.tasks] at mem
    rw [same.instances]
    exact fit.drawn task mem
  · rw [same.instances, same.tasks]
    exact fit.order

theorem cancelQueuedAgentTask_queue {teamId : AgentTeamId} {taskId : AgentTaskId}
    {now : Timestamp} {store store' : AgentStore} {result : Bool}
    (fit : QueueFit store.toAgentTables)
    (h : cancelQueuedAgentTask teamId taskId now store = .ok (store', result)) :
    QueueFit store'.toAgentTables := by
  rcases cancelQueuedAgentTask_spec h with same | ⟨task, _, _, queued, effect⟩
  · exact fit.of_sameRows same
  · refine fit.of_end effect ?_ (.inr rfl) rfl
    have before := fit.runs task effect.mem
    have balance := effect.own .running
    simp only [queued, reduceCtorEq, ite_self, if_false] at before balance
    omega

theorem claimRunnableAgentTask_queue {teamId : AgentTeamId} {taskId : AgentTaskId}
    {attemptId : AgentAttemptId} {ownerIncarnation : Option Text} {now : Timestamp}
    {store store' : AgentStore} {result : Option AgentTask} (fit : QueueFit store.toAgentTables)
    (h : claimRunnableAgentTaskWithOwner teamId taskId attemptId ownerIncarnation now store =
      .ok (store', result)) : QueueFit store'.toAgentTables := by
  rcases claimRunnableAgentTask_spec h with ⟨rfl, _⟩ | ⟨task, claimable, _, _, effect⟩
  · exact fit
  simp only [isClaimable, Bool.and_eq_true, decide_eq_true_eq, Bool.not_eq_true'] at claimable
  have queued : task.status = .queued := claimable.1.1.1.1.1.2
  have head : hasEarlierTask store.toAgentTables task = false := claimable.1.1.2
  refine fit.of_move store.schema store'.schema effect ?_ (.inr (.inl rfl)) ?_
    (fun same => by cases same)
  · have before := fit.runs task effect.mem
    have balance := effect.own .running
    simp only [queued, reduceCtorEq, if_false, if_true] at before balance ⊢
    omega
  · intro _ _ _ _ _ other otherMem waits same apart
    exact lt_of_not_hasEarlierTask store.schema effect.mem otherMem (by rw [waits]; rfl) same
      apart head

/-- A running task that suspends keeps its place in the queue. -/
private theorem QueueFit.of_suspend {store store' : AgentStore} {task : AgentTask}
    {owner : AgentInstanceStatus → AgentInstanceStatus} (fit : QueueFit store.toAgentTables)
    (running : task.status = .running)
    (effect : TaskMoved store.toAgentTables store'.toAgentTables task .waiting owner
      (some .running) .suspended 1)
    (starts : ∀ status, mayStart (owner status) = true → mayStart status = true) :
    QueueFit store'.toAgentTables := by
  refine fit.of_active effect ?_ (by rw [running]; rfl) nofun starts
  have before := fit.runs task effect.mem
  have balance := effect.own .running
  simp only [running, reduceCtorEq, if_false, if_true] at before balance ⊢
  omega

theorem suspendRunningAgentTask_queue {teamId : AgentTeamId} {taskId : AgentTaskId}
    {now : Timestamp} {store store' : AgentStore} {result : Bool}
    (fit : QueueFit store.toAgentTables)
    (h : suspendRunningAgentTask teamId taskId now store = .ok (store', result)) :
    QueueFit store'.toAgentTables := by
  rcases suspendRunningAgentTask_spec h with rfl | ⟨task, suspendable, effect⟩
  · exact fit
  · simp only [isSuspendable, Bool.and_eq_true, decide_eq_true_eq] at suspendable
    refine fit.of_suspend suspendable.1.1.2 effect ?_
    intro status
    cases status <;> decide

theorem suspendRemotePlanTask_queue {teamId : AgentTeamId} {taskId : AgentTaskId}
    {attemptId : AgentAttemptId} {ownerIncarnation : Text} {owned : Bool} {now : Timestamp}
    {store store' : AgentStore} {result : Bool} (fit : QueueFit store.toAgentTables)
    (h : suspendRemotePlanTask teamId taskId attemptId ownerIncarnation owned now store =
      .ok (store', result)) : QueueFit store'.toAgentTables := by
  rcases suspendRemotePlanTask_spec h with rfl | ⟨task, suspendable, effect⟩
  · exact fit
  · simp only [isRemotelySuspendable, Bool.and_eq_true, decide_eq_true_eq] at suspendable
    refine fit.of_suspend suspendable.1.2.2 effect ?_
    intro status
    cases status <;> decide

theorem closePreStreamChatFailure_queue {taskId : AgentTaskId} {expected : ExpectedAttempt}
    {reason : Option Text} {owned : Bool} {now : Timestamp} {store store' : AgentStore}
    {result : Bool} (fit : QueueFit store.toAgentTables)
    (h : closePreStreamChatFailure taskId expected reason owned now store =
      .ok (store', result)) : QueueFit store'.toAgentTables := by
  rcases closePreStreamChatFailure_spec h with rfl | ⟨task, closable, effect⟩
  · exact fit
  · simp only [isClosable, Bool.and_eq_true, decide_eq_true_eq] at closable
    have running : task.status = .running := closable.1.2
    have before := fit.runs task effect.mem
    have balance := effect.own .running
    have ends : (.running : AgentAttemptStatus) ≠ terminalAttemptStatus reason := by
      unfold terminalAttemptStatus
      split <;> simp
    simp only [running, ends, if_true, if_false] at before balance
    refine fit.of_end effect ?_ (.inl (by rw [running]; rfl)) ?_
    · omega
    · unfold terminalTaskStatus
      split <;> rfl

/-- What an update makes of the running attempts of its task, for every declared transition. -/
private theorem update_runs {expected target : AgentTaskStatus}
    {transition : AgentTaskTransition} {running running' : Nat}
    (applied : expected.apply transition = .ok target) (declared : transition ≠ .start)
    (own : running = if expected = .running then 1 else 0)
    (balance : running' + (if ((attemptTarget expected transition).map fun _ =>
        sourceAttemptStatus expected) = some .running then
          if (attemptTarget expected transition).isSome then 1 else 0 else 0) =
      running + (if .running = (attemptTarget expected transition).getD .running then
        if (attemptTarget expected transition).isSome then 1 else 0 else 0)) :
    running' = if target = .running then 1 else 0 := by
  cases expected <;> cases transition <;>
    simp only [AgentTaskStatus.apply, reduceCtorEq, Except.ok.injEq] at applied <;>
    subst applied <;>
    simp [attemptTarget, sourceAttemptStatus] at declared own balance ⊢ <;>
    omega

/-- The updates, as far as the queue sees them. -/
private theorem update_queue_cases {expected target : AgentTaskStatus}
    {transition : AgentTaskTransition} (applied : expected.apply transition = .ok target)
    (declared : transition ≠ .start) :
    (expected.isActive = true ∧ target ≠ .queued ∧
      (target.isActive = true → ∀ status, mayStart (updateOwner expected target status) = false)) ∨
    (updateOwner expected target = id ∧
      (target.holdsQueueHead = false ∨ transition = .retry ∧ target = .queued)) := by
  cases expected <;> cases transition <;>
    simp only [AgentTaskStatus.apply, reduceCtorEq, Except.ok.injEq] at applied <;>
    subst applied <;>
    first
      | exact absurd rfl declared
      | exact .inr ⟨rfl, .inl rfl⟩
      | exact .inr ⟨rfl, .inr ⟨rfl, rfl⟩⟩
      | refine .inl ⟨rfl, by simp, ?_⟩
        intro busy status
        revert busy
        cases status <;> decide

theorem updateAgentTaskState_queue {update : AgentTaskStateUpdate} {now : Timestamp}
    {store store' : AgentStore} {result : Bool} (fit : QueueFit store.toAgentTables)
    (keeps : keepsQueue store (.updateState update now) = true)
    (h : updateAgentTaskState update now store = .ok (store', result)) :
    QueueFit store'.toAgentTables := by
  rcases updateAgentTaskState_spec h with rfl | ⟨task, target, updatable, declared, applied, effect⟩
  · exact fit
  have expected : task.status = update.expectedStatus := by
    simp only [isUpdatable, Bool.and_eq_true, decide_eq_true_eq] at updatable
    exact updatable.1.2
  have before := fit.runs task effect.mem
  rw [expected] at before
  have runs := update_runs applied declared before (effect.own .running)
  rcases update_queue_cases applied declared with ⟨active, started, owned⟩ | ⟨stays, moves⟩
  · rw [← expected] at active
    refine fit.of_move store.schema store'.schema effect runs (.inl active) ?_
      (fun queued => absurd queued started)
    intro busy row _ _ may
    rw [owned busy row.status] at may
    cases may
  · rcases moves with ends | ⟨retried, rfl⟩
    · refine fit.of_end effect ?_ (.inr stays) ends
      rw [runs, if_neg]
      rintro rfl
      cases ends
    · refine fit.of_move store.schema store'.schema effect runs (.inr (.inr stays))
        (fun same => by cases same) ?_
      intro _ row rowMem owns may other otherMem busy same apart
      rw [stays] at may
      by_cases later : hasLaterActive store.toAgentTables task = true
      · have allowed : isDeclared update = true := by
          rw [isDeclared, applied]
        have idle := ownerMeets_iff.mp (of_all_or keeps effect.mem (by
          rw [allowed, updatable, retried, later]
          rfl)) row rowMem owns
        rw [id] at may
        rw [may] at idle
        cases idle
      · exact lt_of_not_hasLaterActive store.schema effect.mem otherMem busy same apart
          (Bool.eq_false_of_not_eq_true later)

/-! ## Loops over tasks -/

theorem cancelAgentTaskSubtree_queue {teamId : AgentTeamId} {rootTaskId : AgentTaskId}
    {reason : Option Text} {now : Timestamp} {store store' : AgentStore}
    {result : SubtreeCancellationResult} (fit : QueueFit store.toAgentTables)
    (h : cancelAgentTaskSubtree teamId rootTaskId reason now store = .ok (store', result)) :
    QueueFit store'.toAgentTables := by
  obtain ⟨first, record, h⟩ := bind_eq_ok.mp h
  obtain ⟨last, loop, done⟩ := bind_eq_ok.mp h
  cases done
  obtain ⟨teams, instances, tasks, attempts⟩ := recordSubtreeCancellation_spec record
  have same : SameRows store.toAgentTables first.toAgentTables :=
    ⟨teams, instances, tasks, fun _ _ => by rw [attemptCount, attempts]; rfl⟩
  have unique : Unique AgentTask.id (subtreeTasks store.toAgentTables teamId rootTaskId) :=
    (store.schema.tasks.ids.filter _).sortBy _
  refine foldlM_moves (fun _ task => task.teamId = teamId ∧
    (task.status = .queued ∨ task.status = .waiting)) ?_ ?_ (unique.filter _)
    (fit.of_sameRows same) ?_ loop
  · rintro current next task inv mem ⟨team, pending⟩ run
    have before := inv.runs task mem
    rcases cancelSubtreeTask_spec mem team pending run with ⟨queued, effect⟩ | ⟨waiting, effect⟩
    · have balance := effect.own .running
      simp only [queued, reduceCtorEq, if_false, ite_self] at before balance
      exact ⟨inv.of_end effect (by omega) (.inr rfl) rfl, _, _, _, _, _, effect⟩
    · have balance := effect.own .running
      simp only [waiting, reduceCtorEq, Option.some.injEq, if_false] at before balance
      exact ⟨inv.of_end effect (by omega) (.inl (by rw [waiting]; rfl)) rfl, _, _, _, _, _, effect⟩
  · exact fun _ _ _ _ _ _ ready _ _ _ => ready
  · intro task selected
    obtain ⟨inSubtree, pending⟩ := List.mem_filter.mp selected
    obtain ⟨mem, team⟩ := mem_subtreeTasks inSubtree
    rw [tasks]
    exact ⟨mem, team, of_decide_eq_true pending⟩

theorem resumeSatisfiedAgentTasks_queue {limit : Int} {matching : AgentTask → Bool}
    {requeued : AgentTaskId → Bool} {now : Timestamp} {store store' : AgentStore}
    {result : List AgentTask} (fit : QueueFit store.toAgentTables)
    (h : resumeSatisfiedAgentTasks limit matching requeued now store = .ok (store', result)) :
    QueueFit store'.toAgentTables := by
  unfold resumeSatisfiedAgentTasks at h
  split at h
  · cases h
  obtain ⟨last, loop, done⟩ := bind_eq_ok.mp h
  cases done
  have unique : Unique AgentTask.id (resumableTasks store.toAgentTables limit now matching) :=
    ((store.schema.tasks.ids.filter _).sortBy _).take _
  refine foldlM_moves (fun _ task => task.status = .waiting) ?_ ?_ unique fit ?_ loop
  · intro current next task inv mem waiting run
    have effect := resumeTask_spec mem waiting run
    have before := inv.runs task mem
    have balance := effect.own .running
    simp only [waiting, reduceCtorEq, if_false, ite_self] at before balance
    exact ⟨inv.of_requeue effect (by omega) (by rw [waiting]; rfl), _, _, _, _, _, effect⟩
  · exact fun _ _ _ _ _ _ waiting _ _ _ => waiting
  · intro task selected
    obtain ⟨mem, resumable⟩ := mem_resumableTasks selected
    simp only [isResumable, Bool.and_eq_true, decide_eq_true_eq] at resumable
    exact ⟨mem, resumable.1.1.1.1.1⟩

/-- A recovered owner starts tasks only if it drained. -/
private theorem draining_of_mayStart_recoverOwner {status : AgentInstanceStatus}
    (may : mayStart (recoverOwner status) = true) : status = .draining := by
  revert may
  cases status <;> decide

theorem recoverInterruptedAgentWaitTasks_queue {reason : Text} {limit : Int} {now : Timestamp}
    {store store' : AgentStore} {result : List AgentTask} (fit : QueueFit store.toAgentTables)
    (keeps : keepsQueue store (.recover reason limit now) = true)
    (h : recoverInterruptedAgentWaitTasks reason limit now store = .ok (store', result)) :
    QueueFit store'.toAgentTables := by
  unfold recoverInterruptedAgentWaitTasks at h
  split at h
  · cases h
  obtain ⟨last, loop, done⟩ := bind_eq_ok.mp h
  cases done
  have unique : Unique AgentTask.id (recoverableTasks store.toAgentTables reason limit) :=
    ((store.schema.tasks.ids.filter _).sortBy _).take _
  refine foldlM_moves (fun tables task => task.status = .interrupted ∧
    (ownerMeets tables task (fun status => decide (status ≠ .draining)) = true ∨
      hasEarlierQueued tables task = false)) ?_ ?_ unique fit ?_ loop
  · intro current next task inv mem ⟨interrupted, inOrder⟩ run
    have effect := recoverTask_spec mem interrupted run
    refine ⟨inv.of_move current.schema next.schema effect ?_ (.inr (.inl rfl)) ?_ nofun,
      _, _, _, _, _, effect⟩
    · have before := inv.runs task mem
      have balance := effect.own .running
      simp only [interrupted, reduceCtorEq, Option.some.injEq, if_false] at before balance ⊢
      omega
    · intro _ row rowMem owns may other otherMem queued same apart
      rcases inOrder with drains | none
      · have status := of_decide_eq_true (ownerMeets_iff.mp drains row rowMem owns)
        exact absurd (draining_of_mayStart_recoverOwner may) status
      · exact lt_of_not_hasEarlierQueued current.schema mem otherMem queued same apart none
  · intro current next task other otherMem apart ⟨interrupted, inOrder⟩ run mem ready
    have effect := recoverTask_spec mem ready.1 run
    refine ⟨interrupted, inOrder.imp ?_ ?_⟩
    · intro drains
      apply ownerMeets_iff.mpr
      intro row rowMem owns
      obtain ⟨old, oldMem, ident, _, _, status⟩ := effect.instances row rowMem
      have before := ownerMeets_iff.mp drains old oldMem (ident.symm.trans owns)
      rw [status]
      split
      · revert before
        cases old.status <;> decide
      · exact before
    · intro none
      apply List.any_eq_false.mpr
      intro row rowMem
      rcases effect.row_cases current.schema rowMem with ⟨_, rfl⟩ | ⟨old, _⟩
      · simp
      · exact List.any_eq_false.mp none row old
  · intro task selected
    obtain ⟨mem, recoverable⟩ := mem_recoverableTasks selected
    simp only [isRecoverable, isInterruptedWait, Bool.and_eq_true, decide_eq_true_eq] at recoverable
    refine ⟨mem, recoverable.1.1.1.1.1.1, ?_⟩
    have inOrder := List.all_eq_true.mp keeps task selected
    rw [Bool.or_eq_true, Bool.not_eq_true'] at inOrder
    exact inOrder.symm

/-! ## Operations on teams, instances and the queue -/

theorem QueueFit.of_created {before after : AgentTables} (schema : Schema before)
    (schema' : Schema after) (created : InstancesCreated before after) (fit : QueueFit before) :
    QueueFit after := by
  refine ⟨?_, ?_, ?_⟩
  · intro task mem
    rw [created.tasks] at mem
    rw [attemptCount, created.attempts]
    exact fit.runs task mem
  · intro task mem row rowMem owns
    rw [created.tasks] at mem
    exact fit.drawn task mem row (owner_not_created schema schema' created mem rowMem owns) owns
  · intro row rowMem starts busy busyMem active owns queued queuedMem
    rw [created.tasks] at busyMem queuedMem
    have old := owner_not_created schema schema' created busyMem rowMem owns.symm
    exact fit.order row old starts busy busyMem active owns queued queuedMem

theorem QueueFit.withoutInstance {tables : AgentTables} (schema : Schema tables)
    (instanceId : AgentInstanceId) (fit : QueueFit tables) :
    QueueFit (withoutInstance tables instanceId) := by
  refine ⟨?_, ?_, ?_⟩
  · intro task mem
    rw [attemptCount_withoutInstance schema mem]
    exact fit.runs task (List.mem_filter.mp mem).1
  · intro task mem row rowMem
    exact fit.drawn task (List.mem_filter.mp mem).1 row (List.mem_filter.mp rowMem).1
  · intro row rowMem starts busy busyMem active owns queued queuedMem
    exact fit.order row (List.mem_filter.mp rowMem).1 starts busy (List.mem_filter.mp busyMem).1
      active owns queued (List.mem_filter.mp queuedMem).1

/-- A task that gets the next sequence of an instance comes after all its tasks. -/
private theorem drawn_after {before after : AgentTables} {instanceId : AgentInstanceId}
    (unique : Unique AgentInstance.id before.instances)
    (drawn : SequenceDrawn before.instances after.instances instanceId) {target : AgentInstance}
    (mem : target ∈ before.instances) (ident : target.id = instanceId) {row : AgentInstance}
    (rowMem : row ∈ after.instances) (same : row.id = instanceId) :
    target.nextTaskSequence < row.nextTaskSequence := by
  obtain ⟨old, oldMem, rowId, _, _, next⟩ := drawn row rowMem
  have one : old = target := unique.eq oldMem mem (rowId.symm.trans (same.trans ident.symm))
  rw [next, one, if_pos ident]
  omega

theorem QueueFit.of_enqueued {before after : AgentTables} {owner : AgentInstance}
    {new : AgentTask} (schema : Schema before) (schema' : Schema after)
    (enqueued : TaskEnqueued before after owner new) (fit : QueueFit before) : QueueFit after := by
  have ids := schema'.tasks.ids
  rw [enqueued.tasks] at ids
  have fresh : ∀ task ∈ before.tasks, task.id ≠ new.id := fun task mem =>
    (List.pairwise_append.mp ids).2.2 task mem new List.mem_cons_self
  refine ⟨?_, ?_, ?_⟩
  · intro task mem
    rw [enqueued.tasks] at mem
    rw [attemptCount, enqueued.attempts]
    rcases List.mem_append.mp mem with old | added
    · exact fit.runs task old
    · rw [List.mem_singleton.mp added, enqueued.queued]
      exact attemptCount_fresh schema fresh .running
  · intro task mem row rowMem owns
    rw [enqueued.tasks] at mem
    rcases List.mem_append.mp mem with old | added
    · obtain ⟨inst, instMem, ident, _, _, next⟩ := enqueued.instances row rowMem
      have below := fit.drawn task old inst instMem (ident.symm.trans owns)
      rw [next]
      split <;> omega
    · rw [List.mem_singleton.mp added] at owns ⊢
      rw [enqueued.sequence]
      exact drawn_after schema.teams.instanceIds enqueued.instances enqueued.mem rfl rowMem
        (owns.trans enqueued.owns)
  · intro row rowMem starts busy busyMem active owns queued queuedMem waits queuedOwns
    obtain ⟨inst, instMem, ident, _, status, _⟩ := enqueued.instances row rowMem
    rw [enqueued.tasks] at busyMem queuedMem
    rw [status] at starts
    rcases List.mem_append.mp busyMem with busyOld | added
    · rcases List.mem_append.mp queuedMem with queuedOld | added
      · exact fit.order inst instMem starts busy busyOld active (owns.trans ident) queued queuedOld
          waits (queuedOwns.trans ident)
      · rw [List.mem_singleton.mp added] at queuedOwns ⊢
        rw [enqueued.sequence]
        apply fit.drawn busy busyOld owner enqueued.mem
        exact enqueued.owns.symm.trans (queuedOwns.trans owns.symm)
    · rw [List.mem_singleton.mp added, enqueued.queued] at active
      cases active

theorem QueueFit.of_transferred {before after : AgentTables} {task : AgentTask}
    {target : AgentInstance} (schema : Schema before)
    (transferred : TaskTransferred before after task target) (fit : QueueFit before) :
    QueueFit after := by
  obtain ⟨now, tasks⟩ := transferred.tasks
  have written : ∀ row ∈ after.tasks, row = { task with
        ownerInstanceId := target.id, sequence := target.nextTaskSequence, updatedAt := now } ∨
      row ∈ before.tasks := by
    intro row mem
    rw [tasks] at mem
    obtain ⟨old, oldMem, rfl⟩ := mem_update.mp mem
    by_cases same : old.id = task.id
    · rw [schema.tasks.ids.eq oldMem transferred.mem same, decide_eq_true rfl, if_pos rfl]
      exact .inl rfl
    · rw [decide_eq_false same, if_neg Bool.false_ne_true]
      exact .inr oldMem
  refine ⟨?_, ?_, ?_⟩
  · intro row mem
    rw [attemptCount, transferred.attempts]
    rcases written row mem with rfl | old
    · exact fit.runs task transferred.mem
    · exact fit.runs row old
  · intro row mem inst instMem owns
    rcases written row mem with rfl | old
    · exact drawn_after schema.teams.instanceIds transferred.instances transferred.targetMem rfl
        instMem owns
    · obtain ⟨found, foundMem, ident, _, _, next⟩ := transferred.instances inst instMem
      have below := fit.drawn row old found foundMem (ident.symm.trans owns)
      rw [next]
      split <;> omega
  · intro inst instMem starts busy busyMem active owns queued queuedMem waits queuedOwns
    obtain ⟨found, foundMem, ident, _, status, _⟩ := transferred.instances inst instMem
    rw [status] at starts
    rcases written busy busyMem with rfl | busyOld
    · rw [show task.status = .queued from transferred.queued] at active
      cases active
    · rcases written queued queuedMem with rfl | queuedOld
      · exact fit.drawn busy busyOld target transferred.targetMem
          (queuedOwns.trans owns.symm)
      · exact fit.order found foundMem starts busy busyOld active (owns.trans ident) queued
          queuedOld waits (queuedOwns.trans ident)

theorem transitionAgentTeamStatus_queue {teamId : AgentTeamId} {target : AgentTeamStatus}
    {store store' : AgentStore} {result : Bool} (fit : QueueFit store.toAgentTables)
    (keeps : keepsQueue store (.transitionTeam teamId target) = true)
    (h : transitionAgentTeamStatus teamId target store = .ok (store', result)) :
    QueueFit store'.toAgentTables := by
  obtain ⟨current, currentMem, ident, allows, _, transitioned⟩ := transitionAgentTeamStatus_spec h
  have may := List.all_eq_true.mp
    (of_all_or keeps currentMem (by rw [ident, allows, decide_eq_true rfl]; rfl))
  refine ⟨?_, ?_, ?_⟩
  · intro task mem
    rw [transitioned.tasks] at mem
    rw [attemptCount, transitioned.attempts]
    exact fit.runs task mem
  · intro task mem row rowMem owns
    rw [transitioned.tasks] at mem
    obtain ⟨old, oldMem, rowId, _, next, _⟩ := transitioned.instances row rowMem
    rw [next]
    exact fit.drawn task mem old oldMem (rowId.symm.trans owns)
  · intro row rowMem starts busy busyMem active owns queued queuedMem waits queuedOwns
    rw [transitioned.tasks] at busyMem queuedMem
    obtain ⟨old, oldMem, rowId, _, _, status⟩ := transitioned.instances row rowMem
    have oldOwns : busy.ownerInstanceId = old.id := owns.trans rowId
    have same : queued.ownerInstanceId = busy.ownerInstanceId := queuedOwns.trans owns.symm
    by_cases earlier : hasEarlierQueued store.toAgentTables busy = true
    · have oldStarts : mayStart old.status = true := by
        split at status
        · rename_i rewritten
          have team : busy.teamId = teamId :=
            (owner_team store.schema busyMem oldMem oldOwns.symm).symm.trans rewritten.1
          have meets := may busy busyMem
          rw [team, active, earlier, decide_eq_true rfl] at meets
          have sleeps := ownerMeets_iff.mp (show ownerMeets store.toAgentTables busy
            (fun status => !wakesInstance target status) = true from meets) old oldMem oldOwns.symm
          have was := rewritten.2
          rw [status] at starts
          revert starts sleeps was
          cases target <;> cases old.status <;> decide
        · rwa [← status]
      exact fit.order old oldMem oldStarts busy busyMem active oldOwns queued queuedMem waits
        (queuedOwns.trans rowId)
    · refine lt_of_not_hasEarlierQueued store.schema busyMem queuedMem waits same ?_
        (Bool.eq_false_of_not_eq_true earlier)
      intro one
      rw [← store.schema.tasks.ids.eq queuedMem busyMem one, waits] at active
      cases active

theorem transitionAgentInstanceStatus_queue {instanceId : AgentInstanceId}
    {target : AgentInstanceStatus} {store store' : AgentStore} {result : Bool}
    (fit : QueueFit store.toAgentTables)
    (keeps : keepsQueue store (.transitionInstance instanceId target) = true)
    (h : transitionAgentInstanceStatus instanceId target store = .ok (store', result)) :
    QueueFit store'.toAgentTables := by
  obtain ⟨current, currentMem, ident, allows, free, written⟩ :=
    transitionAgentInstanceStatus_spec h
  refine ⟨?_, ?_, ?_⟩
  · intro task mem
    rw [written.tasks] at mem
    rw [attemptCount, written.attempts]
    exact fit.runs task mem
  · intro task mem row rowMem owns
    rw [written.tasks] at mem
    obtain ⟨old, oldMem, rowId, _, next, _⟩ := written.instances row rowMem
    rw [next]
    exact fit.drawn task mem old oldMem (rowId.symm.trans owns)
  · intro row rowMem starts busy busyMem active owns queued queuedMem waits queuedOwns
    rw [written.tasks] at busyMem queuedMem
    obtain ⟨old, oldMem, rowId, _, _, status⟩ := written.instances row rowMem
    have same : queued.ownerInstanceId = busy.ownerInstanceId := queuedOwns.trans owns.symm
    by_cases own : old.id = instanceId
    · rw [if_pos own] at status
      rw [status] at starts
      have busyOwns : busy.ownerInstanceId = instanceId := owns.trans (rowId.trans own)
      have tolerated := free busy busyMem busyOwns
      have becomes : target = .idle := by
        revert starts tolerated
        cases target <;> simp [mayStart, blocksInstanceTransition, active]
      have none := List.all_eq_true.mp (of_all_or keeps currentMem (by
        rw [ident, allows, becomes, decide_eq_true rfl, decide_eq_true rfl]
        rfl)) busy busyMem
      rw [busyOwns, active, decide_eq_true rfl] at none
      refine lt_of_not_hasEarlierQueued store.schema busyMem queuedMem waits same ?_ ?_
      · intro one
        rw [← store.schema.tasks.ids.eq queuedMem busyMem one, waits] at active
        cases active
      · simpa using none
    · rw [if_neg own] at status
      rw [status] at starts
      exact fit.order old oldMem starts busy busyMem active (owns.trans rowId) queued queuedMem
        waits (queuedOwns.trans rowId)

/-! ## Runs -/

/-- Every step that meets the condition keeps the queues in order. -/
theorem QueueFit.step {store store' : AgentStore} {action : AgentAction}
    (fit : QueueFit store.toAgentTables) (keeps : keepsQueue store action = true)
    (step : agentMachine.step store action = some store') : QueueFit store'.toAgentTables := by
  simp only [agentMachine] at step
  split at step
  · rename_i next commit
    cases step
    cases action with
    | createTeam team =>
      obtain ⟨_, run⟩ := commit_eq_ok commit
      exact fit.of_created store.schema store'.schema (createAgentTeam_spec run)
    | createInstances instances maxTeam maxDefinition =>
      obtain ⟨_, run⟩ := commit_eq_ok commit
      exact fit.of_created store.schema store'.schema (createAgentInstances_spec run)
    | transitionTeam teamId target =>
      obtain ⟨_, run⟩ := commit_eq_ok commit
      exact transitionAgentTeamStatus_queue fit keeps run
    | transitionInstance instanceId target =>
      obtain ⟨_, run⟩ := commit_eq_ok commit
      exact transitionAgentInstanceStatus_queue fit keeps run
    | deleteInstance instanceId =>
      obtain ⟨_, run⟩ := commit_eq_ok commit
      rw [deleteAgentInstance_spec run]
      exact fit.withoutInstance store.schema instanceId
    | enqueue task maxTeam maxInstance maxChat now =>
      obtain ⟨_, run⟩ := commit_eq_ok commit
      obtain ⟨_, _, enqueued⟩ := enqueueAgentTask_spec run
      exact fit.of_enqueued store.schema store'.schema enqueued
    | transfer teamId taskId target maxTeam maxInstance maxChat now =>
      obtain ⟨_, run⟩ := commit_eq_ok commit
      rcases transferQueuedAgentTask_spec run with rfl | ⟨_, _, transferred⟩
      · exact fit
      · exact fit.of_transferred store.schema transferred
    | cancelQueued teamId taskId now =>
      obtain ⟨_, run⟩ := commit_eq_ok commit
      exact cancelQueuedAgentTask_queue fit run
    | cancelSubtree teamId rootTaskId reason now =>
      obtain ⟨_, run⟩ := commit_eq_ok commit
      exact cancelAgentTaskSubtree_queue fit run
    | registerWait round =>
      obtain ⟨_, run⟩ := commit_eq_ok commit
      exact fit.of_sameRows (registerAgentTaskWait_spec run)
    | deleteDependencies taskId =>
      obtain ⟨_, run⟩ := commit_eq_ok commit
      exact fit.of_sameRows (deleteAgentTaskDependencies_spec run)
    | claim teamId taskId attemptId ownerIncarnation now =>
      obtain ⟨_, run⟩ := commit_eq_ok commit
      exact claimRunnableAgentTask_queue fit run
    | renewLease taskId attemptId ownerIncarnation now =>
      obtain ⟨_, run⟩ := commit_eq_ok commit
      exact fit.of_sameRows (renewAgentAttemptLease_spec run)
    | updateState update now =>
      obtain ⟨_, run⟩ := commit_eq_ok commit
      exact updateAgentTaskState_queue fit keeps run
    | suspend teamId taskId now =>
      obtain ⟨_, run⟩ := commit_eq_ok commit
      exact suspendRunningAgentTask_queue fit run
    | resume limit matching requeued now =>
      obtain ⟨_, run⟩ := commit_eq_ok commit
      exact resumeSatisfiedAgentTasks_queue fit run
    | recover reason limit now =>
      obtain ⟨_, run⟩ := commit_eq_ok commit
      exact recoverInterruptedAgentWaitTasks_queue fit keeps run
    | suspendRemotePlan teamId taskId attemptId ownerIncarnation owned now =>
      obtain ⟨_, run⟩ := commit_eq_ok commit
      exact suspendRemotePlanTask_queue fit run
    | closePreStream taskId expected reason owned now =>
      obtain ⟨_, run⟩ := commit_eq_ok commit
      exact closePreStreamChatFailure_queue fit run
  · cases step
    exact fit

/-- The queues are in order in every state of a run whose steps meet the condition. -/
theorem queueFit_of_reachable {store : AgentStore}
    (reached : agentMachine.ReachableWhile (fun s a => keepsQueue s a = true) store) :
    QueueFit store.toAgentTables := by
  induction reached with
  | start => exact ⟨nofun, nofun, nofun⟩
  | next _ keeps step fit => exact fit.step keeps step

/-! ## Claims and the runnable query -/

/-- The two copies of the condition agree. -/
theorem isClaimable_iff {tables : AgentTables} {now : Timestamp} {teamId : AgentTeamId}
    {taskId : AgentTaskId} {task : AgentTask} :
    isClaimable tables now teamId taskId task = true ↔
      task.id = taskId ∧ task.teamId = teamId ∧ isRunnable tables now task = true := by
  simp only [isClaimable, isRunnable, Bool.and_eq_true, decide_eq_true_eq, and_assoc]

/-- With room for all tasks the query lists those that meet its condition. -/
theorem mem_runnableAgentTasks {limit : Int} {now : Timestamp} {store : AgentStore}
    {listed : List AgentTask} (h : runnableAgentTasks limit now store = .ok listed)
    (room : store.tasks.length ≤ limit) {task : AgentTask} :
    task ∈ listed ↔ task ∈ store.tasks ∧ isRunnable store.toAgentTables now task = true := by
  unfold runnableAgentTasks at h
  split at h
  · cases h
  cases h
  have fewer := List.length_filter_le (isRunnable store.toAgentTables now) store.tasks
  rw [List.take_of_length_le]
  · rw [mem_sortBy, List.mem_filter]
  · rw [sortBy, List.length_insertionSort]
    omega

/-- The owner of a runnable task has no active task. -/
theorem alone_of_isRunnable {store : AgentStore} (fit : QueueFit store.toAgentTables)
    {task : AgentTask} (mem : task ∈ store.tasks) {now : Timestamp}
    (runnable : isRunnable store.toAgentTables now task = true) :
    ∀ other ∈ store.tasks, other.ownerInstanceId = task.ownerInstanceId → other.id ≠ task.id →
      other.status.isActive = false := by
  simp only [isRunnable, Bool.and_eq_true, decide_eq_true_eq, Bool.not_eq_true'] at runnable
  obtain ⟨owner, ownerMem, hit⟩ := List.any_eq_true.mp runnable.1.1.1.1.2
  obtain ⟨owns, starts⟩ := Bool.and_eq_true_iff.mp hit
  have owns : owner.id = task.ownerInstanceId := of_decide_eq_true owns
  intro other otherMem same apart
  by_contra busy
  have busy : other.status.isActive = true := Bool.of_not_eq_false busy
  have before := fit.order owner ownerMem starts other otherMem busy (same.trans owns.symm)
    task mem runnable.1.1.1.1.1 owns.symm
  have after := lt_of_not_hasEarlierTask store.schema mem otherMem
    (AgentTaskStatus.holdsQueueHead_of_isActive busy) same apart runnable.1.1.2
  omega

/-- A runnable task starts: its owner has no other active task, and the task no running
attempt. -/
theorem startTask_ok {store : AgentStore} (fit : QueueFit store.toAgentTables) {task : AgentTask}
    (mem : task ∈ store.tasks) {now : Timestamp}
    (runnable : isRunnable store.toAgentTables now task = true) {attemptId : AgentAttemptId}
    (fresh : ∀ row ∈ store.attempts, row.id ≠ attemptId) (ownerIncarnation : Option Text) :
    ∃ next, startTask task attemptId ownerIncarnation now store = .ok next := by
  have alone := alone_of_isRunnable fit mem runnable
  simp only [isRunnable, Bool.and_eq_true, decide_eq_true_eq] at runnable
  have queued : task.status = .queued := runnable.1.1.1.1.1
  obtain ⟨owner, ownerMem, hit⟩ := List.any_eq_true.mp runnable.1.1.1.1.2
  obtain ⟨owns, starts⟩ := Bool.and_eq_true_iff.mp hit
  have owns : owner.id = task.ownerInstanceId := of_decide_eq_true owns
  have team := owner_team store.schema mem ownerMem owns
  obtain ⟨first, writeTasks⟩ : ∃ next, store.updateTasks (fun row => row.id = task.id ∧
      row.teamId = task.teamId ∧ row.status = .queued) (AgentTask.setStatus .running now) =
        .ok next :=
    updateTasks_ok_of_alone mem (fun row hit => (of_decide_eq_true hit).1) alone
  have tables := AgentTables.write_eq_ok.mp writeTasks
  have attempts : first.attempts = store.attempts := by rw [tables]
  have instances : first.instances = store.instances := by rw [tables]
  obtain ⟨second, writeAttempt⟩ : ∃ next, first.insertAttempt
      (newAttemptRow store.toAgentTables task attemptId ownerIncarnation now) = .ok next := by
    refine ⟨_, AgentTables.write_of_schema (first.schema.insertAttempt ?_ ?_ ?_ ?_)⟩
    · rw [attempts]
      exact fresh
    · rw [attempts]
      intro old oldMem tries
      have tries : old.taskId = task.id := tries
      have below := lt_nextAttemptSequence oldMem
      rw [tries] at below
      exact Nat.ne_of_lt below
    · intro old oldMem running tries
      rw [attempts] at oldMem
      have none := fit.runs task mem
      rw [queued] at none
      exact List.countP_eq_zero.mp none old oldMem (decide_eq_true ⟨tries, running⟩)
    · rw [tables]
      apply List.mem_map.mpr
      refine ⟨task.setStatus .running now, mem_update_of mem ?_, rfl⟩
      simp only [queued, and_self, decide_true]
  have owners : second.instances = store.instances := by
    rw [AgentTables.write_eq_ok.mp writeAttempt]
    exact instances
  have one : second.instances.countP (fun row => decide (row.id = task.ownerInstanceId ∧
      row.teamId = task.teamId ∧ (row.status = .idle ∨ row.status = .draining))) = 1 := by
    rw [owners]
    apply countP_eq_one_of_unique store.schema.teams.instanceIds ownerMem
    · simp only [owns, team, true_and, decide_eq_true_eq]
      simpa using starts
    · intro row _ hit
      exact (of_decide_eq_true hit).1.trans owns.symm
  obtain ⟨third, writeOwner⟩ : ∃ next, second.updateInstances (fun row =>
      decide (row.id = task.ownerInstanceId ∧ row.teamId = task.teamId ∧
        (row.status = .idle ∨ row.status = .draining)))
      (fun row => { row.setStatusUnlessDraining .running with lastScheduledAt := some now }) =
        .ok next := updateInstances_ok fun _ => ⟨rfl, rfl, rfl⟩
  refine ⟨third, ?_⟩
  unfold startTask
  simp only [writeTasks, bind, Except.bind, writeAttempt]
  rw [if_neg (by rw [one]; omega)]
  exact writeOwner

/-- A claim starts exactly what the query lists, and finds nothing otherwise. -/
theorem claimRunnableAgentTask_iff {store : AgentStore} (fit : QueueFit store.toAgentTables)
    {limit : Int} {now : Timestamp} {listed : List AgentTask}
    (lists : runnableAgentTasks limit now store = .ok listed)
    (room : store.tasks.length ≤ limit) (teamId : AgentTeamId) (taskId : AgentTaskId)
    {attemptId : AgentAttemptId} (fresh : ∀ row ∈ store.attempts, row.id ≠ attemptId)
    {ownerIncarnation : Option Text}
    (named : ∀ owner ∈ ownerIncarnation, (trim owner).isEmpty = false) :
    ∃ store' claimed, claimRunnableAgentTaskWithOwner teamId taskId attemptId ownerIncarnation
        now store = .ok (store', claimed) ∧
      (claimed.isSome = true ↔ ∃ task ∈ listed, task.id = taskId ∧ task.teamId = teamId) := by
  have accepted : (ownerIncarnation.any fun owner => (trim owner).isEmpty) = false := by
    cases ownerIncarnation with
    | none => rfl
    | some owner => exact named owner rfl
  unfold claimRunnableAgentTaskWithOwner
  rw [accepted, if_neg Bool.false_ne_true]
  cases found : store.tasks.find? (isClaimable store.toAgentTables now teamId taskId) with
  | none =>
    refine ⟨store, none, rfl, ?_⟩
    simp only [Option.isSome_none, Bool.false_eq_true, false_iff]
    rintro ⟨task, mem, ident, team⟩
    obtain ⟨mem, runnable⟩ := (mem_runnableAgentTasks lists room).mp mem
    exact List.find?_eq_none.mp found task mem (isClaimable_iff.mpr ⟨ident, team, runnable⟩)
  | some task =>
    have mem := List.mem_of_find?_eq_some found
    obtain ⟨ident, team, runnable⟩ := isClaimable_iff.mp (List.find?_some found)
    obtain ⟨next, started⟩ := startTask_ok fit mem runnable fresh ownerIncarnation
    refine ⟨next, next.tasks.find? fun row => row.id = taskId, ?_, ?_⟩
    · simp only [started]
      rfl
    · have effect := startTask_spec mem (by
        simp only [isRunnable, Bool.and_eq_true, decide_eq_true_eq] at runnable
        exact runnable.1.1.1.1.1) started
      obtain ⟨written, moved⟩ := effect.task_mem
      constructor
      · intro _
        exact ⟨task, (mem_runnableAgentTasks lists room).mpr ⟨mem, runnable⟩, ident, team⟩
      · intro _
        exact List.find?_isSome.mpr ⟨_, moved, decide_eq_true ident⟩

/-! ## What a claim leaves -/

/-- The number of running tasks of a team. -/
def runningTasks (tables : AgentTables) (teamId : AgentTeamId) : Nat :=
  tables.tasks.countP fun running => running.teamId = teamId ∧ running.status = .running

/-- A claimed task runs and comes first among the unfinished tasks of its owner. -/
theorem claimed_comes_first {teamId : AgentTeamId} {taskId : AgentTaskId}
    {attemptId : AgentAttemptId} {ownerIncarnation : Option Text} {now : Timestamp}
    {store store' : AgentStore} {claimed : AgentTask}
    (h : claimRunnableAgentTaskWithOwner teamId taskId attemptId ownerIncarnation now store =
      .ok (store', some claimed)) :
    claimed ∈ store'.tasks ∧ claimed.id = taskId ∧ claimed.status = .running ∧
      ∀ other ∈ store'.tasks, other.ownerInstanceId = claimed.ownerInstanceId →
        other.status.holdsQueueHead = true → claimed.sequence ≤ other.sequence := by
  rcases claimRunnableAgentTask_spec h with ⟨_, none⟩ | ⟨task, claimable, _, found, effect⟩
  · cases none
  have claimedMem := List.mem_of_find?_eq_some found.symm
  have claimedId : claimed.id = taskId := by simpa using List.find?_some found.symm
  obtain ⟨ident, _, runnable⟩ := isClaimable_iff.mp claimable
  obtain ⟨written, moved⟩ := effect.task_mem
  have one : claimed = task.setStatus .running written :=
    store'.schema.tasks.ids.eq claimedMem moved (claimedId.trans ident.symm)
  refine ⟨claimedMem, claimedId, by rw [one]; rfl, ?_⟩
  intro other otherMem same unfinished
  rw [one] at same ⊢
  simp only [isRunnable, Bool.and_eq_true, Bool.not_eq_true'] at runnable
  rcases effect.row_cases store.schema otherMem with ⟨_, rfl⟩ | ⟨old, apart⟩
  · exact Nat.le_refl _
  · have after := lt_of_not_hasEarlierTask store.schema effect.mem old unfinished same apart
      runnable.1.1.2
    exact Nat.le_of_lt after

/-- After a claim the team still has no more running tasks than it may have. -/
theorem claim_within_limit {teamId : AgentTeamId} {taskId : AgentTaskId}
    {attemptId : AgentAttemptId} {ownerIncarnation : Option Text} {now : Timestamp}
    {store store' : AgentStore} {claimed : AgentTask}
    (h : claimRunnableAgentTaskWithOwner teamId taskId attemptId ownerIncarnation now store =
      .ok (store', some claimed)) :
    ∀ team ∈ store'.teams, team.id = teamId →
      (runningTasks store'.toAgentTables teamId : Int) ≤ team.maxConcurrentRuns := by
  rcases claimRunnableAgentTask_spec h with ⟨_, none⟩ | ⟨task, claimable, _, _, effect⟩
  · cases none
  intro team teamMem ident
  obtain ⟨_, inTeam, runnable⟩ := isClaimable_iff.mp claimable
  simp only [isRunnable, Bool.and_eq_true] at runnable
  obtain ⟨found, foundMem, hit⟩ := List.any_eq_true.mp runnable.1.1.1.2
  simp only [Bool.and_eq_true, decide_eq_true_eq] at hit
  rw [effect.teams] at teamMem
  have one : team = found :=
    store.schema.teams.teamIds.eq teamMem foundMem (ident.trans (inTeam.symm.trans hit.1.1.symm))
  have free : (runningTasks store.toAgentTables teamId : Int) < team.maxConcurrentRuns := by
    rw [← ident, one]
    exact of_decide_eq_true hit.2
  obtain ⟨written, tasks⟩ := effect.tasks
  have balance := countP_update (fun row => decide (row.id = task.id))
    (AgentTask.setStatus .running written) store.tasks
    (fun running => decide (running.teamId = teamId ∧ running.status = .running))
  have moved : store.tasks.countP (fun row => decide (row.id = task.id)) = 1 :=
    countP_eq_one_of_unique store.schema.tasks.ids effect.mem (decide_eq_true rfl)
      fun _ _ same => of_decide_eq_true same
  have added : store.tasks.countP (fun row => decide (row.id = task.id) &&
      decide ((row.setStatus .running written).teamId = teamId ∧
        (row.setStatus .running written).status = .running)) ≤
      store.tasks.countP fun row => decide (row.id = task.id) := by
    apply List.countP_mono_left
    intro row _ both
    exact (Bool.and_eq_true_iff.mp both).1
  have after : runningTasks store'.toAgentTables teamId =
      (update (fun row => decide (row.id = task.id)) (AgentTask.setStatus .running written)
        store.tasks).countP
      (fun running => decide (running.teamId = teamId ∧ running.status = .running)) := by
    rw [runningTasks, tasks]
  have before : runningTasks store.toAgentTables teamId = store.tasks.countP
      (fun running => decide (running.teamId = teamId ∧ running.status = .running)) := rfl
  omega

/-! ## The rules over runs -/

/-- In every reachable state an instance has one active task at most, and a claimed task comes
first in its queue and within the limit of its team; in runs whose steps meet the condition a
claim starts exactly the tasks that the runnable query lists and fails for none. -/
theorem claims_follow_queues : ∀ store : AgentStore, agentMachine.Reachable store →
    (∀ first ∈ store.tasks, ∀ second ∈ store.tasks, first.status.isActive = true →
      second.status.isActive = true → first.ownerInstanceId = second.ownerInstanceId →
      first = second) ∧
    (∀ teamId taskId attemptId ownerIncarnation now store' claimed,
      claimRunnableAgentTaskWithOwner teamId taskId attemptId ownerIncarnation now store =
        .ok (store', some claimed) →
      claimed ∈ store'.tasks ∧ claimed.id = taskId ∧ claimed.status = .running ∧
      (∀ other ∈ store'.tasks, other.ownerInstanceId = claimed.ownerInstanceId →
        other.status.holdsQueueHead = true → claimed.sequence ≤ other.sequence) ∧
      ∀ team ∈ store'.teams, team.id = teamId →
        (runningTasks store'.toAgentTables teamId : Int) ≤ team.maxConcurrentRuns) ∧
    (agentMachine.ReachableWhile (fun s a => keepsQueue s a = true) store →
      ∀ (limit : Int) now listed, runnableAgentTasks limit now store = .ok listed →
      store.tasks.length ≤ limit →
      ∀ teamId taskId attemptId ownerIncarnation, (∀ row ∈ store.attempts, row.id ≠ attemptId) →
      (∀ owner ∈ ownerIncarnation, (trim owner).isEmpty = false) →
      ∃ store' claimed, claimRunnableAgentTaskWithOwner teamId taskId attemptId ownerIncarnation
          now store = .ok (store', claimed) ∧
        (claimed.isSome = true ↔ ∃ task ∈ listed, task.id = taskId ∧ task.teamId = teamId)) := by
  intro store _
  refine ⟨?_, ?_, ?_⟩
  · intro first firstMem second secondMem firstActive secondActive same
    exact active_eq store.schema firstMem secondMem firstActive secondActive same
  · intro teamId taskId attemptId ownerIncarnation now store' claimed h
    obtain ⟨mem, ident, running, first⟩ := claimed_comes_first h
    exact ⟨mem, ident, running, first, claim_within_limit h⟩
  · intro reached limit now listed lists room teamId taskId attemptId ownerIncarnation fresh named
    exact claimRunnableAgentTask_iff (queueFit_of_reachable reached) lists room teamId taskId fresh
      named

/-- A team with a queued task. -/
def queuedTask : List AgentAction :=
  [.createTeam soloTeam,
    .enqueue (taskFor 1 1 none none) 8 8 8 []]

/-- The rules on a queued task: it is listed, and the claim starts it. -/
theorem claim_starts_queued_task :
    ∃ store : AgentStore, agentMachine.Reachable store ∧
      ∃ store' claimed, claimRunnableAgentTaskWithOwner 1 1 1 none [] store =
        .ok (store', some claimed) ∧ claimed.status = .running := by
  have run : ((agentMachine.runWhile keepsQueue .empty queuedTask).any fun store =>
      decide (store.tasks.length ≤ 8) && store.attempts.isEmpty &&
        match runnableAgentTasks 8 [] store with
        | .ok listed => listed.any fun task => decide (task.id = 1 ∧ task.teamId = 1)
        | .error _ => false) = true := by decide
  obtain ⟨store, reaches, seen⟩ := (Option.any_eq_true ..).mp run
  obtain ⟨sizes, listing⟩ := Bool.and_eq_true_iff.mp seen
  obtain ⟨few, none⟩ := Bool.and_eq_true_iff.mp sizes
  have reached := Machine.reachableWhile_of_runWhile .start reaches
  obtain ⟨_, claims, starts⟩ := claims_follow_queues store reached.reachable
  cases lists : runnableAgentTasks 8 [] store with
  | error _ =>
    rw [lists] at listing
    cases listing
  | ok listed =>
    rw [lists] at listing
    have empty : store.attempts = [] := List.isEmpty_iff.mp none
    have room : (store.tasks.length : Int) ≤ 8 := by
      have atMost := of_decide_eq_true few
      omega
    obtain ⟨store', claimed, claim, exactly⟩ := starts reached 8 [] listed lists room 1 1 1 Option.none
      (by rw [empty]; nofun) nofun
    have isSome := exactly.mpr (by
      obtain ⟨task, mem, hit⟩ := List.any_eq_true.mp listing
      exact ⟨task, mem, of_decide_eq_true hit⟩)
    obtain ⟨task, rfl⟩ := Option.isSome_iff_exists.mp isSome
    exact ⟨store, reached.reachable, store', task, claim, (claims _ _ _ _ _ _ _ claim).2.2.1⟩

/-- A draining coordinator runs its second task when its first one, which failed, is retried. -/
def retryBehindRun : List AgentAction :=
  [.createTeam soloTeam,
    .enqueue (taskFor 1 1 none none) 8 8 8 [],
    .enqueue (taskFor 2 1 none none) 8 8 8 [],
    .claim 1 1 1 none [],
    .updateState (moveTask 1 .running .fail) [],
    .transitionInstance 1 .draining,
    .claim 1 2 2 none [],
    .updateState (moveTask 1 .failed .retry) []]

/-- The retried task is listed, and its claim fails on the index of active tasks. -/
theorem listed_task_is_refused :
    ∃ store listed, agentMachine.Reachable store ∧ runnableAgentTasks 8 [] store = .ok listed ∧
      (∃ task ∈ listed, task.id = 1 ∧ task.teamId = 1) ∧
      (∀ row ∈ store.attempts, row.id ≠ 3) ∧
      claimRunnableAgentTaskWithOwner 1 1 3 none [] store = .error .constraint := by
  have run : ((agentMachine.run .empty retryBehindRun).any fun store =>
      (store.attempts.all fun row => decide (row.id ≠ 3)) &&
      failsWith .constraint (claimRunnableAgentTaskWithOwner 1 1 3 none [] store) &&
        match runnableAgentTasks 8 [] store with
        | .ok listed => listed.any fun task => decide (task.id = 1 ∧ task.teamId = 1)
        | .error _ => false) = true := by decide
  obtain ⟨store, reaches, seen⟩ := (Option.any_eq_true ..).mp run
  obtain ⟨refused, listing⟩ := Bool.and_eq_true_iff.mp seen
  obtain ⟨fresh, fails⟩ := Bool.and_eq_true_iff.mp refused
  cases lists : runnableAgentTasks 8 [] store with
  | error _ =>
    rw [lists] at listing
    cases listing
  | ok listed =>
    rw [lists] at listing
    obtain ⟨task, mem, hit⟩ := List.any_eq_true.mp listing
    refine ⟨store, listed, Machine.reachable_of_run .start reaches, lists,
      ⟨task, mem, of_decide_eq_true hit⟩, ?_, failsWith_eq_true fails⟩
    intro row rowMem
    exact of_decide_eq_true (List.all_eq_true.mp fresh row rowMem)

end Foco.AgentRuntime
