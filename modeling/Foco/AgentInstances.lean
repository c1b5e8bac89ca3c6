import Foco.AgentAttempts
import Foco.AgentSchema

/-!
How the status of an instance follows its tasks. The owner of a waiting task should wait or
drain as long as the team runs, an idle instance should own no active task, and a draining
instance should drain until it is stopped or failed. The statements that write a status keep
`draining` in a `CASE`, except the one of `update_agent_task_state_inner`, which keeps it only
from `idle`; a team that becomes active again makes its failed instances idle whatever they
own. In runs without these steps the three hold throughout.
-/
namespace Foco.AgentRuntime
open Foco.RustText Foco.AgentDomain Foco.Table Foco.Runs Foco.Result

/-! ## The rules -/

/-- The team is active or draining, so that its waiting tasks resume. -/
def resumesTasks (tables : AgentTables) (teamId : AgentTeamId) : Bool :=
  tables.teams.any fun team => decide (team.id = teamId) &&
    (decide (team.status = .active) || decide (team.status = .draining))

/-- The status of the owner of a task meets a condition. -/
def ownerMeets (tables : AgentTables) (task : AgentTask) (holds : AgentInstanceStatus → Bool) :
    Bool :=
  tables.instances.all fun row => decide (row.id ≠ task.ownerInstanceId) || holds row.status

/-- Owners of waiting tasks wait or drain while their team runs, and idle instances own no
active task. -/
structure OwnersFit (tables : AgentTables) : Prop where
  waiting : ∀ task ∈ tables.tasks, task.status = .waiting →
    resumesTasks tables task.teamId = true → ownerMeets tables task isReleasable = true
  idle : ∀ row ∈ tables.instances, row.status = .idle →
    ∀ task ∈ tables.tasks, task.ownerInstanceId = row.id → task.status.isActive = false

/-- Every instance that drained still drains. -/
def StillDraining (before after : AgentTables) : Prop :=
  ∀ row ∈ after.instances, ∀ old ∈ before.instances, row.id = old.id →
    old.status = .draining → row.status = .draining

/-- Every instance that drained still drains, or is stopped or failed. -/
def DrainingStays (before after : AgentTables) : Prop :=
  ∀ row ∈ after.instances, ∀ old ∈ before.instances, row.id = old.id →
    old.status = .draining →
    row.status = .draining ∨ row.status = .stopped ∨ row.status = .failed

theorem ownerMeets_iff {tables : AgentTables} {task : AgentTask}
    {holds : AgentInstanceStatus → Bool} :
    ownerMeets tables task holds = true ↔
      ∀ row ∈ tables.instances, row.id = task.ownerInstanceId → holds row.status = true := by
  simp only [ownerMeets, List.all_eq_true, Bool.or_eq_true, decide_eq_true_eq, ne_eq,
    ← imp_iff_not_or]

theorem StillDraining.drainingStays {before after : AgentTables}
    (still : StillDraining before after) : DrainingStays before after :=
  fun row mem old oldMem same drains => .inl (still row mem old oldMem same drains)

theorem StillDraining.of_instances {before after : AgentTables}
    (unique : Unique AgentInstance.id before.instances)
    (instances : ∀ row ∈ after.instances, ∃ old ∈ before.instances, row.id = old.id ∧
      row.status = old.status) : StillDraining before after := by
  intro row mem old oldMem same drains
  obtain ⟨found, foundMem, ident, status⟩ := instances row mem
  rw [status, unique.eq foundMem oldMem (ident.symm.trans same), drains]

/-! ## The condition on a step -/

/-- The team may take the status: to become active, its waiting tasks have owners that wait or
drain, and no paused or failed instance owns an active task; to drain, no waiting task is
owned by an instance that runs, or is stopped or failed. -/
def teamMayBecome (tables : AgentTables) (teamId : AgentTeamId) : AgentTeamStatus → Bool
  | .active => tables.tasks.all fun task => decide (task.teamId ≠ teamId) ||
    (decide (task.status ≠ .waiting) || ownerMeets tables task isReleasable) &&
      (!task.status.isActive || ownerMeets tables task fun status =>
        decide (status ≠ .paused) && decide (status ≠ .failed))
  | .draining => tables.tasks.all fun task => decide (task.teamId ≠ teamId) ||
    decide (task.status ≠ .waiting) || ownerMeets tables task fun status =>
      decide (status ≠ .running) && decide (status ≠ .stopped) && decide (status ≠ .failed)
  | .paused | .stopped | .failed => true

/-- The instance may take the status: an idle one owns no active task, one that runs or has
failed no waiting task of a team that runs. -/
def instanceMayBecome (tables : AgentTables) (instanceId : AgentInstanceId) :
    AgentInstanceStatus → Bool
  | .idle => tables.tasks.all fun task => decide (task.ownerInstanceId ≠ instanceId) ||
    !task.status.isActive
  | .running | .failed => tables.tasks.all fun task =>
    decide (task.ownerInstanceId ≠ instanceId) || decide (task.status ≠ .waiting) ||
      !resumesTasks tables task.teamId
  | .waiting | .paused | .draining | .stopped => true

/-- The step makes no instance idle, running or failed beside a task that needs its owner to
wait, lets no task wait whose owner does not run, and takes no task of a draining owner into
or out of a wait by an update of its state. -/
def keepsOwners (store : AgentStore) : AgentAction → Bool
  | .transitionTeam teamId target => store.teams.all fun team =>
    !(decide (team.id = teamId) && team.status.allows target) ||
      teamMayBecome store.toAgentTables teamId target
  | .transitionInstance instanceId target => store.instances.all fun row =>
    !(decide (row.id = instanceId) && row.status.allows target) ||
      instanceMayBecome store.toAgentTables instanceId target
  | .updateState update _ => store.tasks.all fun task =>
    !(isDeclared update && isUpdatable store.toAgentTables update task &&
      (decide (update.transition = .wait) || decide (update.transition = .resume))) ||
      ownerMeets store.toAgentTables task fun status => decide (status ≠ .draining)
  | .suspend teamId taskId now => store.tasks.all fun task =>
    !(isSuspendable store.toAgentTables now teamId taskId task &&
      resumesTasks store.toAgentTables task.teamId) ||
      ownerMeets store.toAgentTables task fun status =>
        decide (status = .running) || isReleasable status
  | _ => true

/-! ## Moves of tasks -/

/-- Two active tasks of one owner are one task. -/
theorem active_eq {tables : AgentTables} (schema : Schema tables) {first second : AgentTask}
    (firstMem : first ∈ tables.tasks) (secondMem : second ∈ tables.tasks)
    (firstActive : first.status.isActive = true) (secondActive : second.status.isActive = true)
    (same : first.ownerInstanceId = second.ownerInstanceId) : first = second :=
  schema.tasks.oneActivePerInstance.eq firstMem secondMem firstActive secondActive same

section Move

variable {before after : AgentTables} {task : AgentTask} {target : AgentTaskStatus}
  {owner : AgentInstanceStatus → AgentInstanceStatus} {source : Option AgentAttemptStatus}
  {written : AgentAttemptStatus} {moved : Nat}

/-- A task that was or becomes active is the only active task of its owner. -/
theorem TaskMoved.alone (effect : TaskMoved before after task target owner source written moved)
    (schema : Schema before) (schema' : Schema after)
    (active : task.status.isActive = true ∨ target.isActive = true) {other : AgentTask}
    (mem : other ∈ before.tasks) (apart : other.id ≠ task.id)
    (same : other.ownerInstanceId = task.ownerInstanceId) : other.status.isActive = false := by
  by_contra busy
  have busy : other.status.isActive = true := Bool.of_not_eq_false busy
  rcases active with was | becomes
  · have one := active_eq schema mem effect.mem busy was same
    exact apart (congrArg AgentTask.id one)
  · obtain ⟨now, movedMem⟩ := effect.task_mem
    have one := active_eq schema' (effect.other_mem mem apart) movedMem busy becomes same
    have ident := congrArg AgentTask.id one
    exact apart ident

/-- A move keeps the rules if the moved task respects them and its owner's status changes only
with an active task. -/
theorem OwnersFit.of_move (fit : OwnersFit before) (schema : Schema before)
    (schema' : Schema after)
    (effect : TaskMoved before after task target owner source written moved)
    (active : task.status.isActive = true ∨ target.isActive = true ∨ owner = id)
    (waits : target = .waiting → resumesTasks before task.teamId = true →
      ownerMeets before task (fun status => isReleasable (owner status)) = true)
    (works : target.isActive = true →
      ownerMeets before task (fun status => decide (owner status ≠ .idle)) = true) :
    OwnersFit after := by
  have resumes : ∀ teamId, resumesTasks after teamId = resumesTasks before teamId := by
    intro teamId
    rw [resumesTasks, effect.teams]
    rfl
  constructor
  · intro row mem waiting runs
    rw [resumes] at runs
    apply ownerMeets_iff.mpr
    intro inst instMem owns
    obtain ⟨old, oldMem, ident, _, _, status⟩ := effect.instances inst instMem
    rw [status]
    rcases effect.row_cases schema mem with ⟨now, rfl⟩ | ⟨rowMem, apart⟩
    · rw [AgentTask.setStatus_ownerInstanceId] at owns
      rw [if_pos (ident.symm.trans owns)]
      exact ownerMeets_iff.mp (waits waiting runs) old oldMem (ident.symm.trans owns)
    · have kept := ownerMeets_iff.mp (fit.waiting row rowMem waiting runs) old oldMem
        (ident.symm.trans owns)
      by_cases same : old.id = task.ownerInstanceId
      · rw [if_pos same]
        rcases active with busy | busy | rfl
        · have none := effect.alone schema schema' (.inl busy) rowMem apart
            (owns.symm.trans (ident.trans same))
          rw [waiting] at none
          cases none
        · have none := effect.alone schema schema' (.inr busy) rowMem apart
            (owns.symm.trans (ident.trans same))
          rw [waiting] at none
          cases none
        · exact kept
      · rwa [if_neg same]
  · intro inst instMem idle row mem owns
    obtain ⟨old, oldMem, ident, _, _, status⟩ := effect.instances inst instMem
    rw [idle] at status
    rcases effect.row_cases schema mem with ⟨now, rfl⟩ | ⟨rowMem, apart⟩
    · by_contra busy
      have busy : target.isActive = true := Bool.of_not_eq_false busy
      have same : old.id = task.ownerInstanceId := ident.symm.trans owns.symm
      have works := ownerMeets_iff.mp (works busy) old oldMem same
      rw [if_pos same] at status
      exact of_decide_eq_true works status.symm
    · by_cases same : old.id = task.ownerInstanceId
      · have own : row.ownerInstanceId = task.ownerInstanceId := owns.trans (ident.trans same)
        rcases active with busy | busy | rfl
        · exact effect.alone schema schema' (.inl busy) rowMem apart own
        · exact effect.alone schema schema' (.inr busy) rowMem apart own
        · rw [if_pos same] at status
          exact fit.idle old oldMem status.symm row rowMem (owns.trans ident)
      · rw [if_neg same] at status
        exact fit.idle old oldMem status.symm row rowMem (owns.trans ident)

/-- A move keeps draining owners draining if its rule for owners does. -/
theorem StillDraining.move {start : AgentTables} (still : StillDraining start before)
    (effect : TaskMoved before after task target owner source written moved)
    (keeps : owner .draining = .draining) : StillDraining start after := by
  intro row mem old oldMem same drains
  obtain ⟨mid, midMem, ident, _, _, status⟩ := effect.instances row mem
  have mids := still mid midMem old oldMem (ident.symm.trans same) drains
  rw [status, mids, keeps, ite_self]

end Move

theorem StillDraining.refl {tables : AgentTables} (schema : Schema tables) :
    StillDraining tables tables :=
  .of_instances schema.teams.instanceIds fun row mem => ⟨row, mem, rfl, rfl⟩

/-! ## Operations on single tasks -/

/-- What a step should keep: the rules hold after it, and draining instances drain on, or are
stopped or failed. -/
def OwnersKept (before after : AgentTables) : Prop :=
  OwnersFit after ∧ DrainingStays before after

theorem OwnersKept.refl {store : AgentStore} (fit : OwnersFit store.toAgentTables) :
    OwnersKept store.toAgentTables store.toAgentTables :=
  ⟨fit, (StillDraining.refl store.schema).drainingStays⟩

theorem OwnersKept.of_sameRows {store store' : AgentStore} (fit : OwnersFit store.toAgentTables)
    (same : SameRows store.toAgentTables store'.toAgentTables) :
    OwnersKept store.toAgentTables store'.toAgentTables := by
  refine ⟨⟨?_, ?_⟩, (StillDraining.of_instances store.schema.teams.instanceIds ?_).drainingStays⟩
  · intro task mem waiting runs
    rw [same.tasks] at mem
    rw [resumesTasks, same.teams] at runs
    rw [ownerMeets, same.instances]
    exact fit.waiting task mem waiting runs
  · intro row mem idle task taskMem
    rw [same.instances] at mem
    rw [same.tasks] at taskMem
    exact fit.idle row mem idle task taskMem
  · intro row mem
    rw [same.instances] at mem
    exact ⟨row, mem, rfl, rfl⟩

private theorem kept_of_move {store store' : AgentStore} {task : AgentTask}
    {target : AgentTaskStatus} {owner : AgentInstanceStatus → AgentInstanceStatus}
    {source : Option AgentAttemptStatus} {written : AgentAttemptStatus} {moved : Nat}
    (effect : TaskMoved store.toAgentTables store'.toAgentTables task target owner source written
      moved) (fit : OwnersFit store'.toAgentTables) (keeps : owner .draining = .draining) :
    OwnersKept store.toAgentTables store'.toAgentTables :=
  ⟨fit, ((StillDraining.refl store.schema).move effect keeps).drainingStays⟩

/-- A task that ends up inactive needs nothing of its owner. -/
private theorem OwnersFit.of_inactive {store store' : AgentStore} {task : AgentTask}
    {target : AgentTaskStatus} {owner : AgentInstanceStatus → AgentInstanceStatus}
    {source : Option AgentAttemptStatus} {written : AgentAttemptStatus} {moved : Nat}
    (fit : OwnersFit store.toAgentTables)
    (effect : TaskMoved store.toAgentTables store'.toAgentTables task target owner source written
      moved) (active : task.status.isActive = true ∨ owner = id)
    (inactive : target.isActive = false) : OwnersFit store'.toAgentTables := by
  refine fit.of_move store.schema store'.schema effect ?_ ?_ ?_
  · exact active.imp id .inr
  · rintro rfl
    cases inactive
  · intro busy
    rw [inactive] at busy
    cases busy

/-- A running task's owner is not idle. -/
theorem OwnersFit.busy {tables : AgentTables} (fit : OwnersFit tables) {task : AgentTask}
    (mem : task ∈ tables.tasks) (active : task.status.isActive = true) :
    ∀ row ∈ tables.instances, row.id = task.ownerInstanceId → row.status ≠ .idle := by
  intro row rowMem owns idle
  rw [fit.idle row rowMem idle task mem owns.symm] at active
  cases active

theorem cancelQueuedAgentTask_owners {teamId : AgentTeamId} {taskId : AgentTaskId}
    {now : Timestamp} {store store' : AgentStore} {result : Bool}
    (fit : OwnersFit store.toAgentTables)
    (h : cancelQueuedAgentTask teamId taskId now store = .ok (store', result)) :
    OwnersKept store.toAgentTables store'.toAgentTables := by
  rcases cancelQueuedAgentTask_spec h with same | ⟨task, _, _, _, effect⟩
  · exact .of_sameRows fit same
  · exact kept_of_move effect (fit.of_inactive effect (.inr rfl) rfl) rfl

theorem claimRunnableAgentTask_owners {teamId : AgentTeamId} {taskId : AgentTaskId}
    {attemptId : AgentAttemptId} {ownerIncarnation : Option Text} {now : Timestamp}
    {store store' : AgentStore} {result : Option AgentTask} (fit : OwnersFit store.toAgentTables)
    (h : claimRunnableAgentTaskWithOwner teamId taskId attemptId ownerIncarnation now store =
      .ok (store', result)) : OwnersKept store.toAgentTables store'.toAgentTables := by
  rcases claimRunnableAgentTask_spec h with ⟨rfl, _⟩ | ⟨task, _, _, _, effect⟩
  · exact .refl fit
  · refine kept_of_move effect ?_ rfl
    refine fit.of_move store.schema store'.schema effect (.inr (.inl rfl)) nofun ?_
    intro _
    apply ownerMeets_iff.mpr
    intro row _ _
    cases row.status <;> rfl

theorem suspendRunningAgentTask_owners {teamId : AgentTeamId} {taskId : AgentTaskId}
    {now : Timestamp} {store store' : AgentStore} {result : Bool}
    (fit : OwnersFit store.toAgentTables)
    (keeps : keepsOwners store (.suspend teamId taskId now) = true)
    (h : suspendRunningAgentTask teamId taskId now store = .ok (store', result)) :
    OwnersKept store.toAgentTables store'.toAgentTables := by
  rcases suspendRunningAgentTask_spec h with rfl | ⟨task, suspendable, effect⟩
  · exact .refl fit
  · have running : task.status = .running := by
      simp only [isSuspendable, Bool.and_eq_true, decide_eq_true_eq] at suspendable
      exact suspendable.1.1.2
    have active : task.status.isActive = true := by rw [running]; rfl
    refine kept_of_move effect ?_ rfl
    refine fit.of_move store.schema store'.schema effect (.inl active) ?_ ?_
    · intro _ runs
      have meets := of_all_or keeps effect.mem (by rw [suspendable, runs]; rfl)
      apply ownerMeets_iff.mpr
      intro row mem owns
      have status := ownerMeets_iff.mp meets row mem owns
      revert status
      cases row.status <;> decide
    · intro _
      apply ownerMeets_iff.mpr
      intro row mem owns
      have busy := fit.busy effect.mem active row mem owns
      revert busy
      cases row.status <;> decide

theorem suspendRemotePlanTask_owners {teamId : AgentTeamId} {taskId : AgentTaskId}
    {attemptId : AgentAttemptId} {ownerIncarnation : Text} {owned : Bool} {now : Timestamp}
    {store store' : AgentStore} {result : Bool} (fit : OwnersFit store.toAgentTables)
    (h : suspendRemotePlanTask teamId taskId attemptId ownerIncarnation owned now store =
      .ok (store', result)) : OwnersKept store.toAgentTables store'.toAgentTables := by
  rcases suspendRemotePlanTask_spec h with rfl | ⟨task, _, effect⟩
  · exact .refl fit
  · refine kept_of_move effect ?_ rfl
    refine fit.of_move store.schema store'.schema effect (.inr (.inl rfl)) ?_ ?_
    · intro _ _
      apply ownerMeets_iff.mpr
      intro row _ _
      cases row.status <;> rfl
    · intro _
      apply ownerMeets_iff.mpr
      intro row _ _
      cases row.status <;> rfl

theorem closePreStreamChatFailure_owners {taskId : AgentTaskId} {expected : ExpectedAttempt}
    {reason : Option Text} {owned : Bool} {now : Timestamp} {store store' : AgentStore}
    {result : Bool} (fit : OwnersFit store.toAgentTables)
    (h : closePreStreamChatFailure taskId expected reason owned now store =
      .ok (store', result)) : OwnersKept store.toAgentTables store'.toAgentTables := by
  rcases closePreStreamChatFailure_spec h with rfl | ⟨task, closable, effect⟩
  · exact .refl fit
  · have active : task.status.isActive = true := by
      simp only [isClosable, Bool.and_eq_true, decide_eq_true_eq] at closable
      rw [closable.1.2]
      rfl
    refine kept_of_move effect (fit.of_inactive effect (.inl active) ?_) rfl
    unfold terminalTaskStatus
    split <;> rfl

/-- What an update of a task's state makes of the statuses, for every declared transition. -/
private theorem update_owner_cases {expected target : AgentTaskStatus}
    {transition : AgentTaskTransition} (applied : expected.apply transition = .ok target)
    (declared : transition ≠ .start) :
    (updateOwner expected target = id ∧ target.isActive = false) ∨
    (expected.isActive = true ∧ target.isActive = false ∧
      updateOwner expected target .draining = .draining) ∨
    (expected.isActive = true ∧ (transition = .wait ∧ target = .waiting ∨
      transition = .resume ∧ target = .running)) := by
  cases expected <;> cases transition <;>
    simp only [AgentTaskStatus.apply, reduceCtorEq, Except.ok.injEq] at applied <;>
    subst applied <;>
    first
      | exact absurd rfl declared
      | exact .inl ⟨rfl, rfl⟩
      | exact .inr (.inl ⟨rfl, rfl, rfl⟩)
      | exact .inr (.inr ⟨rfl, .inl ⟨rfl, rfl⟩⟩)
      | exact .inr (.inr ⟨rfl, .inr ⟨rfl, rfl⟩⟩)

theorem updateAgentTaskState_owners {update : AgentTaskStateUpdate} {now : Timestamp}
    {store store' : AgentStore} {result : Bool} (fit : OwnersFit store.toAgentTables)
    (keeps : keepsOwners store (.updateState update now) = true)
    (h : updateAgentTaskState update now store = .ok (store', result)) :
    OwnersKept store.toAgentTables store'.toAgentTables := by
  rcases updateAgentTaskState_spec h with rfl | ⟨task, target, updatable, declared, applied, effect⟩
  · exact .refl fit
  have expected : task.status = update.expectedStatus := by
    simp only [isUpdatable, Bool.and_eq_true, decide_eq_true_eq] at updatable
    exact updatable.1.2
  rcases update_owner_cases applied declared with
    ⟨stays, inactive⟩ | ⟨active, inactive, drains⟩ | ⟨active, moves⟩
  · refine kept_of_move effect (fit.of_inactive effect (.inr stays) inactive) ?_
    rw [stays]
    rfl
  · rw [← expected] at active
    exact kept_of_move effect (fit.of_inactive effect (.inl active) inactive) drains
  · have allowed : isDeclared update = true := by
      rw [isDeclared, applied]
    have wakes : (decide (update.transition = .wait) || decide (update.transition = .resume)) =
        true := by
      rcases moves with ⟨wait, _⟩ | ⟨resume, _⟩
      · rw [wait]
        rfl
      · rw [resume]
        rfl
    have meets := ownerMeets_iff.mp
      (of_all_or keeps effect.mem (by rw [allowed, updatable, wakes]; rfl))
    have written : ∀ status, updateOwner update.expectedStatus target status =
        if target = .waiting then .waiting else .running := by
      intro status
      rcases moves with ⟨_, rfl⟩ | ⟨_, rfl⟩ <;> revert active <;>
        cases update.expectedStatus <;> cases status <;> decide
    rw [← expected] at active
    constructor
    · refine fit.of_move store.schema store'.schema effect (.inl active) ?_ ?_
      · rintro rfl _
        apply ownerMeets_iff.mpr
        intro row _ _
        rw [written]
        rfl
      · intro _
        apply ownerMeets_iff.mpr
        intro row _ _
        rw [written]
        split <;> rfl
    · intro row mem old oldMem same drains
      obtain ⟨found, foundMem, ident, _, _, status⟩ := effect.instances row mem
      have one : found = old :=
        store.schema.teams.instanceIds.eq foundMem oldMem (ident.symm.trans same)
      rw [one] at status
      by_cases owns : old.id = task.ownerInstanceId
      · exact absurd drains (of_decide_eq_true (meets old oldMem owns))
      · rw [if_neg owns, drains] at status
        exact .inl status

/-! ## Loops over tasks -/

/-- What a loop over tasks keeps from the store it started with. -/
def FitSince (start current : AgentTables) : Prop :=
  OwnersFit current ∧ StillDraining start current

/-- A loop that moves tasks keeps the rules if each round does. -/
private theorem kept_of_loop
    {body : AgentStore → AgentTask → Except AgentStoreError AgentStore}
    (Ready : AgentTables → AgentTask → Prop)
    (step : ∀ (current next : AgentStore) (task : AgentTask), OwnersFit current.toAgentTables →
      task ∈ current.tasks → Ready current.toAgentTables task → body current task = .ok next →
      OwnersFit next.toAgentTables ∧ ∃ target owner source written moved,
        TaskMoved current.toAgentTables next.toAgentTables task target owner source written
          moved ∧ owner .draining = .draining)
    (frame : ∀ (current next : AgentStore) (task other : AgentTask), other ∈ current.tasks →
      other.id ≠ task.id → Ready current.toAgentTables other → body current task = .ok next →
      task ∈ current.tasks → Ready current.toAgentTables task →
      Ready next.toAgentTables other)
    {rows : List AgentTask} (unique : Unique AgentTask.id rows) {start store store' : AgentStore}
    (fit : OwnersFit store.toAgentTables)
    (still : StillDraining start.toAgentTables store.toAgentTables)
    (ready : ∀ row ∈ rows, row ∈ store.tasks ∧ Ready store.toAgentTables row)
    (h : rows.foldlM body store = .ok store') :
    OwnersKept start.toAgentTables store'.toAgentTables := by
  have since : FitSince start.toAgentTables store.toAgentTables := ⟨fit, still⟩
  have keep : ∀ (current next : AgentStore) (task : AgentTask),
      FitSince start.toAgentTables current.toAgentTables → task ∈ current.tasks →
      Ready current.toAgentTables task → body current task = .ok next →
      FitSince start.toAgentTables next.toAgentTables ∧ ∃ target owner source written moved,
        TaskMoved current.toAgentTables next.toAgentTables task target owner source written
          moved := by
    intro current next task ⟨inv, still⟩ mem ready run
    obtain ⟨fit, target, owner, source, written, moved, effect, keeps⟩ :=
      step current next task inv mem ready run
    exact ⟨⟨fit, still.move effect keeps⟩, target, owner, source, written, moved, effect⟩
  have final := foldlM_moves Ready keep frame unique since ready h
  exact ⟨final.1, final.2.drainingStays⟩

theorem cancelAgentTaskSubtree_owners {teamId : AgentTeamId} {rootTaskId : AgentTaskId}
    {reason : Option Text} {now : Timestamp} {store store' : AgentStore}
    {result : SubtreeCancellationResult} (fit : OwnersFit store.toAgentTables)
    (h : cancelAgentTaskSubtree teamId rootTaskId reason now store = .ok (store', result)) :
    OwnersKept store.toAgentTables store'.toAgentTables := by
  obtain ⟨first, record, h⟩ := bind_eq_ok.mp h
  obtain ⟨last, loop, done⟩ := bind_eq_ok.mp h
  cases done
  obtain ⟨teams, instances, tasks, attempts⟩ := recordSubtreeCancellation_spec record
  have same : SameRows store.toAgentTables first.toAgentTables :=
    ⟨teams, instances, tasks, fun _ _ => by rw [attemptCount, attempts]; rfl⟩
  have fitFirst := (OwnersKept.of_sameRows fit same).1
  have unique : Unique AgentTask.id (subtreeTasks store.toAgentTables teamId rootTaskId) :=
    (store.schema.tasks.ids.filter _).sortBy _
  refine kept_of_loop (fun _ task => task.teamId = teamId ∧
    (task.status = .queued ∨ task.status = .waiting)) ?_ ?_ (unique.filter _) fitFirst ?_ ?_ loop
  · rintro current next task inv mem ⟨team, pending⟩ run
    rcases cancelSubtreeTask_spec mem team pending run with ⟨_, effect⟩ | ⟨waiting, effect⟩
    · exact ⟨inv.of_inactive effect (.inr rfl) rfl, _, _, _, _, _, effect, rfl⟩
    · have active : task.status.isActive = true := by rw [waiting]; rfl
      exact ⟨inv.of_inactive effect (.inl active) rfl, _, _, _, _, _, effect, rfl⟩
  · exact fun _ _ _ _ _ _ ready _ _ _ => ready
  · apply StillDraining.of_instances store.schema.teams.instanceIds
    intro row mem
    rw [instances] at mem
    exact ⟨row, mem, rfl, rfl⟩
  · intro task selected
    obtain ⟨inSubtree, pending⟩ := List.mem_filter.mp selected
    obtain ⟨mem, team⟩ := mem_subtreeTasks inSubtree
    rw [tasks]
    exact ⟨mem, team, of_decide_eq_true pending⟩

theorem resumeSatisfiedAgentTasks_owners {limit : Int} {matching : AgentTask → Bool}
    {requeued : AgentTaskId → Bool} {now : Timestamp} {store store' : AgentStore}
    {result : List AgentTask} (fit : OwnersFit store.toAgentTables)
    (h : resumeSatisfiedAgentTasks limit matching requeued now store = .ok (store', result)) :
    OwnersKept store.toAgentTables store'.toAgentTables := by
  unfold resumeSatisfiedAgentTasks at h
  split at h
  · cases h
  obtain ⟨last, loop, done⟩ := bind_eq_ok.mp h
  cases done
  have unique : Unique AgentTask.id (resumableTasks store.toAgentTables limit now matching) :=
    ((store.schema.tasks.ids.filter _).sortBy _).take _
  refine kept_of_loop (fun _ task => task.status = .waiting) ?_ ?_ unique fit
    (.refl store.schema) ?_ loop
  · intro current next task inv mem waiting run
    have effect := resumeTask_spec mem waiting run
    have active : task.status.isActive = true := by rw [waiting]; rfl
    exact ⟨inv.of_inactive effect (.inl active) rfl, _, _, _, _, _, effect, rfl⟩
  · exact fun _ _ _ _ _ _ waiting _ _ _ => waiting
  · intro task selected
    obtain ⟨mem, resumable⟩ := mem_resumableTasks selected
    simp only [isResumable, Bool.and_eq_true, decide_eq_true_eq] at resumable
    exact ⟨mem, resumable.1.1.1.1.1⟩

theorem recoverInterruptedAgentWaitTasks_owners {reason : Text} {limit : Int} {now : Timestamp}
    {store store' : AgentStore} {result : List AgentTask} (fit : OwnersFit store.toAgentTables)
    (h : recoverInterruptedAgentWaitTasks reason limit now store = .ok (store', result)) :
    OwnersKept store.toAgentTables store'.toAgentTables := by
  unfold recoverInterruptedAgentWaitTasks at h
  split at h
  · cases h
  obtain ⟨last, loop, done⟩ := bind_eq_ok.mp h
  cases done
  have unique : Unique AgentTask.id (recoverableTasks store.toAgentTables reason limit) :=
    ((store.schema.tasks.ids.filter _).sortBy _).take _
  -- A recovered owner waits or drains, so it may still be the owner of a later task.
  refine kept_of_loop (fun tables task => task.status = .interrupted ∧
    ownerMeets tables task mayRecover = true) ?_ ?_ unique fit (.refl store.schema) ?_ loop
  · intro current next task inv mem ⟨interrupted, meets⟩ run
    have effect := recoverTask_spec mem interrupted run
    refine ⟨inv.of_move current.schema next.schema effect (.inr (.inl rfl)) ?_ ?_,
      _, _, _, _, _, effect, rfl⟩
    · intro _ _
      apply ownerMeets_iff.mpr
      intro row rowMem owns
      have status := ownerMeets_iff.mp meets row rowMem owns
      revert status
      cases row.status <;> decide
    · intro _
      apply ownerMeets_iff.mpr
      intro row rowMem owns
      have status := ownerMeets_iff.mp meets row rowMem owns
      revert status
      cases row.status <;> decide
  · intro current next task other otherMem apart ⟨interrupted, meets⟩ run mem ready
    have effect := recoverTask_spec mem ready.1 run
    refine ⟨interrupted, ownerMeets_iff.mpr ?_⟩
    intro row rowMem owns
    obtain ⟨old, oldMem, ident, _, _, status⟩ := effect.instances row rowMem
    have may := ownerMeets_iff.mp meets old oldMem (ident.symm.trans owns)
    rw [status]
    split
    · revert may
      cases old.status <;> decide
    · exact may
  · intro task selected
    obtain ⟨mem, recoverable⟩ := mem_recoverableTasks selected
    simp only [isRecoverable, isInterruptedWait, Bool.and_eq_true, decide_eq_true_eq] at recoverable
    refine ⟨mem, recoverable.1.1.1.1.1.1, ownerMeets_iff.mpr ?_⟩
    obtain ⟨owner, ownerMem, hit⟩ := List.any_eq_true.mp recoverable.1.1.1.2
    simp only [Bool.and_eq_true, decide_eq_true_eq] at hit
    intro row rowMem owns
    have one : row = owner :=
      store.schema.teams.instanceIds.eq rowMem ownerMem (owns.trans hit.1.1.symm)
    rw [one]
    simpa only [mayRecover] using hit.2

/-! ## Operations on teams, instances and the queue -/

/-- Instances that are new to the table own no task. -/
theorem owner_not_created {before after : AgentTables} (schema : Schema before)
    (schema' : Schema after) (created : InstancesCreated before after) {task : AgentTask}
    (mem : task ∈ before.tasks) {row : AgentInstance} (rowMem : row ∈ after.instances)
    (owns : row.id = task.ownerInstanceId) : row ∈ before.instances := by
  obtain ⟨rows, instances, _⟩ := created.instances
  obtain ⟨owner, ownerMem, key⟩ := List.mem_map.mp (schema.tasks.owners task mem)
  have ident : owner.id = task.ownerInstanceId := (Prod.mk.inj key).2
  have ownerAfter : owner ∈ after.instances := by
    rw [instances]
    exact List.mem_append_left rows ownerMem
  have one := schema'.teams.instanceIds.eq rowMem ownerAfter (owns.trans ident.symm)
  rwa [one]

/-- A task's team is not new to the table. -/
theorem resumesTasks_created {before after : AgentTables} (schema : Schema before)
    (schema' : Schema after) (created : InstancesCreated before after) {task : AgentTask}
    (mem : task ∈ before.tasks) (runs : resumesTasks after task.teamId = true) :
    resumesTasks before task.teamId = true := by
  obtain ⟨rows, teams⟩ := created.teams
  obtain ⟨owner, ownerMem, key⟩ := List.mem_map.mp (schema.tasks.owners task mem)
  obtain ⟨team, teamMem, ident⟩ := List.mem_map.mp (schema.teams.instanceTeams owner ownerMem)
  obtain ⟨found, foundMem, hit⟩ := List.any_eq_true.mp runs
  have foundId : found.id = task.teamId := of_decide_eq_true (Bool.and_eq_true_iff.mp hit).1
  have teamAfter : team ∈ after.teams := by
    rw [teams]
    exact List.mem_append_left rows teamMem
  have one : found = team := by
    apply schema'.teams.teamIds.eq foundMem teamAfter
    rw [foundId, ident]
    exact (Prod.mk.inj key).1.symm
  rw [one] at hit
  exact List.any_eq_true.mpr ⟨team, teamMem, hit⟩

theorem OwnersKept.of_created {store store' : AgentStore} (fit : OwnersFit store.toAgentTables)
    (created : InstancesCreated store.toAgentTables store'.toAgentTables) :
    OwnersKept store.toAgentTables store'.toAgentTables := by
  refine ⟨⟨?_, ?_⟩, ?_⟩
  · intro task mem waiting runs
    rw [created.tasks] at mem
    have before := ownerMeets_iff.mp (fit.waiting task mem waiting
      (resumesTasks_created store.schema store'.schema created mem runs))
    apply ownerMeets_iff.mpr
    intro row rowMem owns
    exact before row (owner_not_created store.schema store'.schema created mem rowMem owns) owns
  · intro row rowMem idle task mem owns
    rw [created.tasks] at mem
    have old := owner_not_created store.schema store'.schema created mem rowMem owns.symm
    exact fit.idle row old idle task mem owns
  · intro row rowMem old oldMem same drains
    obtain ⟨rows, instances, _⟩ := created.instances
    have oldAfter : old ∈ store'.instances := by
      rw [instances]
      exact List.mem_append_left rows oldMem
    rw [store'.schema.teams.instanceIds.eq rowMem oldAfter same]
    exact .inl drains

theorem transitionAgentTeamStatus_owners {teamId : AgentTeamId} {target : AgentTeamStatus}
    {store store' : AgentStore} {result : Bool} (fit : OwnersFit store.toAgentTables)
    (keeps : keepsOwners store (.transitionTeam teamId target) = true)
    (h : transitionAgentTeamStatus teamId target store = .ok (store', result)) :
    OwnersKept store.toAgentTables store'.toAgentTables := by
  obtain ⟨current, currentMem, ident, allows, _, transitioned⟩ := transitionAgentTeamStatus_spec h
  have may := of_all_or keeps currentMem (by rw [ident, allows, decide_eq_true rfl]; rfl)
  refine ⟨⟨?_, ?_⟩, ?_⟩
  · intro task mem waiting runs
    rw [transitioned.tasks] at mem
    apply ownerMeets_iff.mpr
    intro row rowMem owns
    obtain ⟨old, oldMem, rowId, _, _, status⟩ := transitioned.instances row rowMem
    have oldOwns : old.id = task.ownerInstanceId := rowId.symm.trans owns
    have oldTeam : old.teamId = task.teamId := owner_team store.schema mem oldMem oldOwns
    obtain ⟨team, teamMem, hit⟩ := List.any_eq_true.mp runs
    simp only [Bool.and_eq_true, Bool.or_eq_true, decide_eq_true_eq] at hit
    obtain ⟨oldTeamRow, oldTeamMem, teamIdent, teamStatus⟩ := transitioned.teams team teamMem
    rw [status, oldTeam]
    by_cases own : task.teamId = teamId
    · have own' : oldTeamRow.id = teamId := teamIdent.symm.trans (hit.1.trans own)
      rw [if_pos own'] at teamStatus
      rw [teamStatus] at hit
      rcases hit.2 with rfl | rfl
      · have meets := List.all_eq_true.mp may task mem
        simp only [own, waiting, ne_eq, not_true_eq_false, decide_false, Bool.false_or,
          AgentTaskStatus.isActive, Bool.not_true, Bool.and_eq_true] at meets
        have waits := ownerMeets_iff.mp meets.1 old oldMem oldOwns
        revert waits
        cases old.status <;> simp [own, isReleasable, teamTransitionRewrites]
      · have meets := List.all_eq_true.mp may task mem
        simp only [own, waiting, ne_eq, not_true_eq_false, decide_false, Bool.false_or] at meets
        have waits := ownerMeets_iff.mp meets old oldMem oldOwns
        revert waits
        cases old.status <;> simp [own, isReleasable, teamTransitionRewrites]
    · have other : ¬ oldTeamRow.id = teamId :=
        fun same => own (hit.1.symm.trans (teamIdent.trans same))
      rw [if_neg other] at teamStatus
      have before : resumesTasks store.toAgentTables task.teamId = true := by
        apply List.any_eq_true.mpr
        refine ⟨oldTeamRow, oldTeamMem, ?_⟩
        simp only [Bool.and_eq_true, Bool.or_eq_true, decide_eq_true_eq]
        rw [← teamIdent, ← teamStatus]
        exact hit
      simp only [own, false_and, if_false]
      exact ownerMeets_iff.mp (fit.waiting task mem waiting before) old oldMem oldOwns
  · intro row rowMem idle task mem owns
    rw [transitioned.tasks] at mem
    obtain ⟨old, oldMem, rowId, _, _, status⟩ := transitioned.instances row rowMem
    have oldOwns : old.id = task.ownerInstanceId := rowId.symm.trans owns.symm
    have oldTeam : old.teamId = task.teamId := owner_team store.schema mem oldMem oldOwns
    rw [idle] at status
    by_cases rewritten : old.teamId = teamId ∧ (teamTransitionRewrites target).1 old.status = true
    · rw [if_pos rewritten] at status
      have becomes : target = .active := by
        revert status
        cases target <;> simp [teamTransitionRewrites]
      subst becomes
      have meets := List.all_eq_true.mp may task mem
      by_contra busy
      have busy : task.status.isActive = true := Bool.of_not_eq_false busy
      simp only [← oldTeam, rewritten.1, busy, ne_eq, not_true_eq_false, decide_false,
        Bool.false_or, Bool.not_true, Bool.and_eq_true] at meets
      have works := ownerMeets_iff.mp meets.2 old oldMem oldOwns
      have was := rewritten.2
      revert works was
      cases old.status <;> simp [teamTransitionRewrites]
    · rw [if_neg rewritten] at status
      exact fit.idle old oldMem status.symm task mem oldOwns.symm
  · intro row rowMem old oldMem same drains
    obtain ⟨found, foundMem, rowId, _, _, status⟩ := transitioned.instances row rowMem
    have one : found = old :=
      store.schema.teams.instanceIds.eq foundMem oldMem (rowId.symm.trans same)
    rw [one, drains] at status
    split at status
    · rename_i rewritten
      have was := rewritten.2
      rw [status]
      revert was
      cases target <;> simp [teamTransitionRewrites]
    · exact .inl status

theorem transitionAgentInstanceStatus_owners {instanceId : AgentInstanceId}
    {target : AgentInstanceStatus} {store store' : AgentStore} {result : Bool}
    (fit : OwnersFit store.toAgentTables)
    (keeps : keepsOwners store (.transitionInstance instanceId target) = true)
    (h : transitionAgentInstanceStatus instanceId target store = .ok (store', result)) :
    OwnersKept store.toAgentTables store'.toAgentTables := by
  obtain ⟨current, currentMem, ident, allows, free, written⟩ :=
    transitionAgentInstanceStatus_spec h
  have may := of_all_or keeps currentMem (by rw [ident, allows, decide_eq_true rfl]; rfl)
  refine ⟨⟨?_, ?_⟩, ?_⟩
  · intro task mem waiting runs
    rw [written.tasks] at mem
    rw [resumesTasks, written.teams] at runs
    apply ownerMeets_iff.mpr
    intro row rowMem owns
    obtain ⟨old, oldMem, rowId, _, _, status⟩ := written.instances row rowMem
    have oldOwns : old.id = task.ownerInstanceId := rowId.symm.trans owns
    have before := ownerMeets_iff.mp (fit.waiting task mem waiting runs) old oldMem oldOwns
    by_cases own : old.id = instanceId
    · rw [if_pos own] at status
      rw [status]
      have taskOwn : task.ownerInstanceId = instanceId := oldOwns.symm.trans own
      have tolerated := free task mem taskOwn
      rw [waiting] at tolerated
      cases target with
      | waiting => rfl
      | draining => rfl
      | paused => cases tolerated
      | stopped => cases tolerated
      | idle =>
        have none := List.all_eq_true.mp may task mem
        rw [taskOwn, waiting] at none
        simp [AgentTaskStatus.isActive] at none
      | running =>
        have none := List.all_eq_true.mp may task mem
        simp only [taskOwn, waiting, resumesTasks, runs] at none
        simp at none
      | failed =>
        have none := List.all_eq_true.mp may task mem
        simp only [taskOwn, waiting, resumesTasks, runs] at none
        simp at none
    · rw [if_neg own] at status
      rw [status]
      exact before
  · intro row rowMem idle task mem owns
    rw [written.tasks] at mem
    obtain ⟨old, oldMem, rowId, _, _, status⟩ := written.instances row rowMem
    rw [idle] at status
    by_cases own : old.id = instanceId
    · rw [if_pos own] at status
      subst status
      have none := List.all_eq_true.mp may task mem
      simpa [owns.trans (rowId.trans own)] using none
    · rw [if_neg own] at status
      exact fit.idle old oldMem status.symm task mem (owns.trans rowId)
  · intro row rowMem old oldMem same drains
    obtain ⟨found, foundMem, rowId, _, _, status⟩ := written.instances row rowMem
    have one : found = old :=
      store.schema.teams.instanceIds.eq foundMem oldMem (rowId.symm.trans same)
    rw [one, drains] at status
    by_cases own : old.id = instanceId
    · have was : current = old :=
        store.schema.teams.instanceIds.eq currentMem oldMem (ident.trans own.symm)
      rw [was, drains] at allows
      rw [if_pos own] at status
      rw [status]
      exact .inr (AgentInstanceStatus.draining_allows allows)
    · rw [if_neg own] at status
      exact .inl status

theorem StillDraining.of_drawn {before after : AgentTables} {instanceId : AgentInstanceId}
    (unique : Unique AgentInstance.id before.instances)
    (drawn : SequenceDrawn before.instances after.instances instanceId) :
    StillDraining before after := by
  apply StillDraining.of_instances unique
  intro row mem
  obtain ⟨old, oldMem, ident, _, status, _⟩ := drawn row mem
  exact ⟨old, oldMem, ident, status⟩

/-- A queued task needs nothing of its owner, so the queue may change in any way. -/
private theorem OwnersFit.of_queue {before after : AgentTables} {instanceId : AgentInstanceId}
    (fit : OwnersFit before) (teams : after.teams = before.teams)
    (drawn : SequenceDrawn before.instances after.instances instanceId)
    (tasks : ∀ task ∈ after.tasks, task.status = .queued ∨ task ∈ before.tasks) :
    OwnersFit after := by
  constructor
  · intro task mem waiting runs
    rcases tasks task mem with queued | old
    · rw [queued] at waiting
      cases waiting
    · rw [resumesTasks, teams] at runs
      apply ownerMeets_iff.mpr
      intro row rowMem owns
      obtain ⟨found, foundMem, ident, _, status, _⟩ := drawn row rowMem
      rw [status]
      exact ownerMeets_iff.mp (fit.waiting task old waiting runs) found foundMem
        (ident.symm.trans owns)
  · intro row rowMem idle task mem owns
    rcases tasks task mem with queued | old
    · rw [queued]
      rfl
    · obtain ⟨found, foundMem, ident, _, status, _⟩ := drawn row rowMem
      exact fit.idle found foundMem (status.symm.trans idle) task old (owns.trans ident)

theorem OwnersKept.of_enqueued {store store' : AgentStore} {owner : AgentInstance}
    {row : AgentTask} (fit : OwnersFit store.toAgentTables)
    (enqueued : TaskEnqueued store.toAgentTables store'.toAgentTables owner row) :
    OwnersKept store.toAgentTables store'.toAgentTables := by
  constructor
  · apply fit.of_queue enqueued.teams enqueued.instances
    intro task mem
    rw [enqueued.tasks] at mem
    rcases List.mem_append.mp mem with old | new
    · exact .inr old
    · rw [List.mem_singleton.mp new]
      exact .inl enqueued.queued
  · exact (StillDraining.of_drawn store.schema.teams.instanceIds enqueued.instances).drainingStays

theorem OwnersKept.of_transferred {store store' : AgentStore} {task : AgentTask}
    {target : AgentInstance} (fit : OwnersFit store.toAgentTables)
    (transferred : TaskTransferred store.toAgentTables store'.toAgentTables task target) :
    OwnersKept store.toAgentTables store'.toAgentTables := by
  constructor
  · apply fit.of_queue transferred.teams transferred.instances
    obtain ⟨now, tasks⟩ := transferred.tasks
    intro row mem
    rw [tasks] at mem
    obtain ⟨old, oldMem, rfl⟩ := mem_update.mp mem
    by_cases same : old.id = task.id
    · rw [store.schema.tasks.ids.eq oldMem transferred.mem same, decide_eq_true rfl, if_pos rfl]
      exact .inl transferred.queued
    · rw [decide_eq_false same, if_neg Bool.false_ne_true]
      exact .inr oldMem
  · exact (StillDraining.of_drawn store.schema.teams.instanceIds
      transferred.instances).drainingStays

theorem OwnersKept.withoutInstance {store store' : AgentStore} {instanceId : AgentInstanceId}
    (fit : OwnersFit store.toAgentTables)
    (tables : store'.toAgentTables = withoutInstance store.toAgentTables instanceId) :
    OwnersKept store.toAgentTables store'.toAgentTables := by
  rw [tables]
  refine ⟨⟨?_, ?_⟩, (StillDraining.of_instances store.schema.teams.instanceIds ?_).drainingStays⟩
  · intro task mem waiting runs
    apply ownerMeets_iff.mpr
    intro row rowMem
    exact ownerMeets_iff.mp (fit.waiting task (List.mem_filter.mp mem).1 waiting runs) row
      (List.mem_filter.mp rowMem).1
  · intro row rowMem idle task mem
    exact fit.idle row (List.mem_filter.mp rowMem).1 idle task (List.mem_filter.mp mem).1
  · intro row mem
    exact ⟨row, (List.mem_filter.mp mem).1, rfl, rfl⟩

/-! ## Runs -/

/-- Every step that meets the condition keeps the rules. -/
theorem OwnersFit.step {store store' : AgentStore} {action : AgentAction}
    (fit : OwnersFit store.toAgentTables) (keeps : keepsOwners store action = true)
    (step : agentMachine.step store action = some store') :
    OwnersKept store.toAgentTables store'.toAgentTables := by
  simp only [agentMachine] at step
  split at step
  · rename_i next commit
    cases step
    cases action with
    | createTeam team =>
      obtain ⟨_, run⟩ := commit_eq_ok commit
      exact .of_created fit (createAgentTeam_spec run)
    | createInstances instances maxTeam maxDefinition =>
      obtain ⟨_, run⟩ := commit_eq_ok commit
      exact .of_created fit (createAgentInstances_spec run)
    | transitionTeam teamId target =>
      obtain ⟨_, run⟩ := commit_eq_ok commit
      exact transitionAgentTeamStatus_owners fit keeps run
    | transitionInstance instanceId target =>
      obtain ⟨_, run⟩ := commit_eq_ok commit
      exact transitionAgentInstanceStatus_owners fit keeps run
    | deleteInstance instanceId =>
      obtain ⟨_, run⟩ := commit_eq_ok commit
      exact .withoutInstance fit (deleteAgentInstance_spec run)
    | enqueue task maxTeam maxInstance maxChat now =>
      obtain ⟨_, run⟩ := commit_eq_ok commit
      obtain ⟨_, _, enqueued⟩ := enqueueAgentTask_spec run
      exact .of_enqueued fit enqueued
    | transfer teamId taskId target maxTeam maxInstance maxChat now =>
      obtain ⟨_, run⟩ := commit_eq_ok commit
      rcases transferQueuedAgentTask_spec run with rfl | ⟨_, _, transferred⟩
      · exact .refl fit
      · exact .of_transferred fit transferred
    | cancelQueued teamId taskId now =>
      obtain ⟨_, run⟩ := commit_eq_ok commit
      exact cancelQueuedAgentTask_owners fit run
    | cancelSubtree teamId rootTaskId reason now =>
      obtain ⟨_, run⟩ := commit_eq_ok commit
      exact cancelAgentTaskSubtree_owners fit run
    | registerWait round =>
      obtain ⟨_, run⟩ := commit_eq_ok commit
      exact .of_sameRows fit (registerAgentTaskWait_spec run)
    | deleteDependencies taskId =>
      obtain ⟨_, run⟩ := commit_eq_ok commit
      exact .of_sameRows fit (deleteAgentTaskDependencies_spec run)
    | claim teamId taskId attemptId ownerIncarnation now =>
      obtain ⟨_, run⟩ := commit_eq_ok commit
      exact claimRunnableAgentTask_owners fit run
    | renewLease taskId attemptId ownerIncarnation now =>
      obtain ⟨_, run⟩ := commit_eq_ok commit
      exact .of_sameRows fit (renewAgentAttemptLease_spec run)
    | updateState update now =>
      obtain ⟨_, run⟩ := commit_eq_ok commit
      exact updateAgentTaskState_owners fit keeps run
    | suspend teamId taskId now =>
      obtain ⟨_, run⟩ := commit_eq_ok commit
      exact suspendRunningAgentTask_owners fit keeps run
    | resume limit matching requeued now =>
      obtain ⟨_, run⟩ := commit_eq_ok commit
      exact resumeSatisfiedAgentTasks_owners fit run
    | recover reason limit now =>
      obtain ⟨_, run⟩ := commit_eq_ok commit
      exact recoverInterruptedAgentWaitTasks_owners fit run
    | suspendRemotePlan teamId taskId attemptId ownerIncarnation owned now =>
      obtain ⟨_, run⟩ := commit_eq_ok commit
      exact suspendRemotePlanTask_owners fit run
    | closePreStream taskId expected reason owned now =>
      obtain ⟨_, run⟩ := commit_eq_ok commit
      exact closePreStreamChatFailure_owners fit run
  · cases step
    exact .refl fit

/-- The rules hold in every state of a run whose steps meet the condition. -/
theorem ownersFit_of_reachable {store : AgentStore}
    (reached : agentMachine.ReachableWhile (fun s a => keepsOwners s a = true) store) :
    OwnersFit store.toAgentTables := by
  induction reached with
  | start => exact ⟨nofun, nofun⟩
  | next _ keeps step fit => exact (fit.step keeps step).1

/-! ## Satisfied waits resume -/

/-- Everything that the task waits for is terminal. -/
def DependenciesTerminal (tables : AgentTables) (taskId : AgentTaskId) : Prop :=
  ∀ dependency ∈ tables.dependencies, dependency.waitingTaskId = taskId →
    ∀ required ∈ tables.tasks, required.id = dependency.dependencyTaskId →
      required.status.isTerminal = true

/-- A wait for terminal tasks is satisfied in either mode. -/
theorem satisfied_of_terminal {tables : AgentTables} (schema : Schema tables)
    {taskId : AgentTaskId} (waits : hasDependencies tables taskId = true)
    (terminal : DependenciesTerminal tables taskId) :
    allDependenciesTerminal tables taskId = true ∨ anyDependencyTerminal tables taskId = true := by
  obtain ⟨dependency, mem, own⟩ := List.any_eq_true.mp waits
  have own : dependency.waitingTaskId = taskId := of_decide_eq_true own
  cases mode : dependency.waitMode with
  | all =>
    left
    simp only [allDependenciesTerminal, Bool.and_eq_true, List.any_eq_true, decide_eq_true_eq,
      Bool.not_eq_true', List.any_eq_false]
    refine ⟨⟨dependency, mem, own, mode⟩, ?_⟩
    rintro other otherMem ⟨otherOwn, required, requiredMem, ident, unfinished⟩
    rw [terminal other otherMem otherOwn required requiredMem ident] at unfinished
    cases unfinished
  | any =>
    right
    obtain ⟨required, requiredMem, key⟩ := List.mem_map.mp (schema.dependencies.required dependency mem)
    have ident : required.id = dependency.dependencyTaskId := (Prod.mk.inj key).2
    have ends := terminal dependency mem own required requiredMem ident
    simp only [anyDependencyTerminal, List.any_eq_true, Bool.and_eq_true, decide_eq_true_eq]
    exact ⟨dependency, mem, own, required, requiredMem, ⟨ident, mode⟩, ends⟩

/-- The query of `resume_satisfied_agent_tasks` finds a waiting task of a running team whose
wait is satisfied. -/
theorem OwnersFit.isResumable {store : AgentStore} (fit : OwnersFit store.toAgentTables)
    {task : AgentTask} (mem : task ∈ store.tasks) (waiting : task.status = .waiting)
    (runs : resumesTasks store.toAgentTables task.teamId = true)
    (waits : hasDependencies store.toAgentTables task.id = true)
    (terminal : DependenciesTerminal store.toAgentTables task.id) (now : Timestamp) :
    isResumable store.toAgentTables now (fun _ => true) task = true := by
  obtain ⟨owner, ownerMem, key⟩ := List.mem_map.mp (store.schema.tasks.owners task mem)
  have ident : owner.id = task.ownerInstanceId := (Prod.mk.inj key).2
  have status := ownerMeets_iff.mp (fit.waiting task mem waiting runs) owner ownerMem ident
  have owned : (store.instances.any fun row => decide (row.id = task.ownerInstanceId) &&
      (decide (row.status = .waiting) || decide (row.status = .draining))) = true :=
    List.any_eq_true.mpr ⟨owner, ownerMem, by
      simpa only [ident, decide_true, Bool.true_and, isReleasable] using status⟩
  have satisfied := satisfied_of_terminal store.schema waits terminal
  simp only [AgentRuntime.isResumable, waiting, owned, waits, Bool.and_eq_true, Bool.or_eq_true,
    decide_eq_true_eq, and_true, true_and]
  refine ⟨runs, ?_⟩
  rcases satisfied with all | any
  · exact .inl (.inr all)
  · exact .inr any

/-- Resuming a task fails only where its chat row cannot be queued again. -/
theorem resumeTask_ok {requeued : AgentTaskId → Bool} {now : Timestamp} (store : AgentStore)
    (task : AgentTask) (queues : requeued task.id = true) :
    ∃ next, resumeTask requeued now store task = .ok next := by
  unfold resumeTask
  rw [queues, if_neg (by decide)]
  obtain ⟨middle, first⟩ : ∃ next, store.updateTasks (fun row => row.id = task.id ∧
      row.teamId = task.teamId ∧ row.status = .waiting) (AgentTask.setStatus .queued now) =
        .ok next := updateTasks_ok_of_inactive rfl
  obtain ⟨next, second⟩ : ∃ next, middle.updateInstances (fun row =>
      row.id = task.ownerInstanceId ∧ row.teamId = task.teamId ∧
        (row.status = .waiting ∨ row.status = .draining))
      (AgentInstance.setStatusUnlessDraining .idle) = .ok next :=
    updateInstances_ok fun _ => ⟨rfl, rfl, rfl⟩
  refine ⟨next, ?_⟩
  rw [first]
  exact second

/-- The loop re-queues every task it goes over. -/
theorem resumeLoop_requeues {requeued : AgentTaskId → Bool} {now : Timestamp}
    {tasks : List AgentTask} (unique : Unique AgentTask.id tasks) {store store' : AgentStore}
    (waiting : ∀ task ∈ tasks, task ∈ store.tasks ∧ task.status = .waiting)
    (h : tasks.foldlM (resumeTask requeued now) store = .ok store') :
    ∀ task ∈ tasks, ∃ row ∈ store'.tasks, row.id = task.id ∧ row.status = .queued := by
  refine (foldlM_snapshot_done
    (fun (current : AgentStore) task => task ∈ current.tasks ∧ task.status = .waiting)
    (fun (current : AgentStore) task =>
      ∃ row ∈ current.tasks, row.id = task.id ∧ row.status = .queued) ?_ unique waiting h).1
  rintro current task next ⟨mem, waiting⟩ run
  have effect := resumeTask_spec mem waiting run
  obtain ⟨written, moved⟩ := effect.task_mem
  refine ⟨⟨_, moved, rfl, rfl⟩, ?_⟩
  intro other apart
  refine ⟨fun ⟨otherMem, otherWaiting⟩ => ⟨effect.other_mem otherMem apart.symm, otherWaiting⟩, ?_⟩
  rintro ⟨row, rowMem, ident, queued⟩
  refine ⟨row, effect.other_mem rowMem ?_, ident, queued⟩
  rw [ident]
  exact apart.symm

/-- `resume_satisfied_agent_tasks` without filters and with room for all tasks re-queues every
task that its query finds. -/
theorem resumeSatisfiedAgentTasks_requeues {store : AgentStore} {task : AgentTask}
    {now : Timestamp} (mem : task ∈ store.tasks)
    (resumable : isResumable store.toAgentTables now (fun _ => true) task = true) {limit : Int}
    (room : store.tasks.length ≤ limit) :
    ∃ store' resumed, resumeSatisfiedAgentTasks limit (fun _ => true) (fun _ => true) now store =
        .ok (store', resumed) ∧ ∃ row ∈ resumed, row.id = task.id ∧ row.status = .queued := by
  have positive : ¬ limit ≤ 0 := by
    have one := List.length_pos_of_mem mem
    omega
  have selected : task ∈ resumableTasks store.toAgentTables limit now (fun _ => true) := by
    have listed : task ∈ sortBy resumeOrder
        (store.tasks.filter (isResumable store.toAgentTables now fun _ => true)) :=
      mem_sortBy.mpr (List.mem_filter.mpr ⟨mem, resumable⟩)
    unfold resumableTasks
    rwa [List.take_of_length_le]
    rw [sortBy, List.length_insertionSort]
    have fewer := List.length_filter_le (isResumable store.toAgentTables now fun _ => true)
      store.tasks
    omega
  have total : ∀ current row, ∃ next, resumeTask (fun _ => true) now current row = .ok next :=
    fun current row => resumeTask_ok current row rfl
  obtain ⟨last, loop⟩ := foldlM_ok total
    (resumableTasks store.toAgentTables limit now fun _ => true) store
  have unique : Unique AgentTask.id (resumableTasks store.toAgentTables limit now fun _ => true) :=
    ((store.schema.tasks.ids.filter _).sortBy _).take _
  obtain ⟨row, rowMem, ident, queued⟩ := resumeLoop_requeues unique (by
    intro other selected
    obtain ⟨mem, resumable⟩ := mem_resumableTasks selected
    simp only [isResumable, Bool.and_eq_true, decide_eq_true_eq] at resumable
    exact ⟨mem, resumable.1.1.1.1.1⟩) loop task selected
  have run : resumeSatisfiedAgentTasks limit (fun _ => true) (fun _ => true) now store =
      .ok (last, last.tasks.filter fun row =>
        (resumableTasks store.toAgentTables limit now fun _ => true).any fun task =>
          task.id = row.id) := by
    unfold resumeSatisfiedAgentTasks
    rw [if_neg positive]
    simp only [loop]
    rfl
  refine ⟨last, _, run, row, List.mem_filter.mpr ⟨rowMem, ?_⟩, ident, queued⟩
  exact List.any_eq_true.mpr ⟨task, selected, decide_eq_true ident.symm⟩

/-! ## The rules over runs -/

/-- In every state of a run whose steps meet the condition, owners of waiting tasks wait or
drain while their team runs, so that satisfied waits resume, idle instances own no active
task, and such a step leaves draining instances draining, stopped or failed. -/
theorem owners_follow_tasks {store : AgentStore}
    (reached : agentMachine.ReachableWhile (fun s a => keepsOwners s a = true) store) :
    OwnersFit store.toAgentTables ∧
    (∀ task ∈ store.tasks, task.status = .waiting →
      resumesTasks store.toAgentTables task.teamId = true →
      hasDependencies store.toAgentTables task.id = true →
      DependenciesTerminal store.toAgentTables task.id →
      ∀ (limit : Int) now, store.tasks.length ≤ limit → ∃ store' resumed,
        resumeSatisfiedAgentTasks limit (fun _ => true) (fun _ => true) now store =
          .ok (store', resumed) ∧ ∃ row ∈ resumed, row.id = task.id ∧ row.status = .queued) ∧
    ∀ action store', keepsOwners store action = true →
      agentMachine.step store action = some store' →
      DrainingStays store.toAgentTables store'.toAgentTables := by
  have fit := ownersFit_of_reachable reached
  refine ⟨fit, ?_, ?_⟩
  · intro task mem waiting runs waits terminal limit now room
    exact resumeSatisfiedAgentTasks_requeues mem
      (fit.isResumable mem waiting runs waits terminal now) room
  · intro action store' keeps step
    exact (fit.step keeps step).2

/-- The rules on a task that waits for a delegated one. -/
theorem owners_follow_first_wait :
    ∃ store : AgentStore, (store.tasks.any fun task => task.status = .waiting) = true ∧
      OwnersFit store.toAgentTables ∧
      (∀ task ∈ store.tasks, task.status = .waiting →
        resumesTasks store.toAgentTables task.teamId = true →
        hasDependencies store.toAgentTables task.id = true →
        DependenciesTerminal store.toAgentTables task.id →
        ∀ (limit : Int) now, store.tasks.length ≤ limit → ∃ store' resumed,
          resumeSatisfiedAgentTasks limit (fun _ => true) (fun _ => true) now store =
            .ok (store', resumed) ∧ ∃ row ∈ resumed, row.id = task.id ∧ row.status = .queued) ∧
      ∀ action store', keepsOwners store action = true →
        agentMachine.step store action = some store' →
        DrainingStays store.toAgentTables store'.toAgentTables := by
  have run : ((agentMachine.runWhile keepsOwners .empty delegatedWait).any fun store =>
      store.tasks.any fun task => task.status = .waiting) = true := by decide
  obtain ⟨store, reaches, waits⟩ := (Option.any_eq_true ..).mp run
  exact ⟨store, waits, owners_follow_tasks (Machine.reachableWhile_of_runWhile .start reaches)⟩

/-- A draining coordinator claims the task that it still has. -/
def drainingClaim : List AgentAction :=
  [.createTeam soloTeam,
    .enqueue (taskFor 1 1 none none) 8 8 8 [],
    .transitionInstance 1 .draining,
    .claim 1 1 1 none []]

/-- A team fails and becomes active again while a task of its coordinator waits. -/
def reactivation : List AgentAction :=
  delegatedWait ++ [.transitionTeam 1 .failed, .transitionTeam 1 .active]

/-- A wait by an update of the task's state ends the draining of its owner, and a team that
becomes active again leaves the owner of a waiting task idle. -/
theorem waiting_ends_draining_and_reactivation_idles :
    (∃ store store', agentMachine.Reachable store ∧
      agentMachine.step store (.updateState (moveTask 1 .running .wait) []) = some store' ∧
      ¬ DrainingStays store.toAgentTables store'.toAgentTables) ∧
    ∃ store, agentMachine.Reachable store ∧ ¬ OwnersFit store.toAgentTables := by
  constructor
  · have run : ((agentMachine.run .empty drainingClaim).any fun store =>
        (agentMachine.step store (.updateState (moveTask 1 .running .wait) [])).any fun store' =>
          store.instances.any fun old => decide (old.status = .draining) &&
            store'.instances.any fun row => decide (row.id = old.id ∧ row.status = .waiting)) =
        true := by decide
    obtain ⟨store, reaches, stepped⟩ := (Option.any_eq_true ..).mp run
    obtain ⟨store', step, seen⟩ := (Option.any_eq_true ..).mp stepped
    refine ⟨store, store', Machine.reachable_of_run .start reaches, step, ?_⟩
    intro stays
    obtain ⟨old, oldMem, hit⟩ := List.any_eq_true.mp seen
    obtain ⟨drains, after⟩ := Bool.and_eq_true_iff.mp hit
    obtain ⟨row, rowMem, found⟩ := List.any_eq_true.mp after
    obtain ⟨same, waits⟩ := of_decide_eq_true found
    have one := stays row rowMem old oldMem same (of_decide_eq_true drains)
    rw [waits] at one
    simp at one
  · have run : ((agentMachine.run .empty reactivation).any fun store =>
        store.instances.any fun row => decide (row.status = .idle) &&
          store.tasks.any fun task => decide (task.ownerInstanceId = row.id) &&
            task.status.isActive) = true := by decide
    obtain ⟨store, reaches, seen⟩ := (Option.any_eq_true ..).mp run
    refine ⟨store, Machine.reachable_of_run .start reaches, ?_⟩
    intro fit
    obtain ⟨row, rowMem, hit⟩ := List.any_eq_true.mp seen
    obtain ⟨idle, owned⟩ := Bool.and_eq_true_iff.mp hit
    obtain ⟨task, mem, found⟩ := List.any_eq_true.mp owned
    obtain ⟨owns, active⟩ := Bool.and_eq_true_iff.mp found
    rw [fit.idle row rowMem (of_decide_eq_true idle) task mem (of_decide_eq_true owns)] at active
    cases active

end Foco.AgentRuntime
