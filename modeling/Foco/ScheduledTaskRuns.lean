import Foco.Runs
import Foco.ScheduledTasks

/-!
The scheduled tasks of a workspace under any interleaving of `dispatch_due_scheduled_tasks`,
`run_scheduled_task_now` and the requests that edit tasks. Each actor takes its database
statements one by one; a clock reading may be any time. The due claim is conditional on the
`next_run_at` it read, the manual run and the edits write back a row they read before. Runs are
never removed here, so that what is said of them is said of all runs ever made.
-/
namespace Foco.ScheduledTasks
open Foco.RustText Foco.Maps Foco.Runs

/-! ## Actors -/

/-- A due task that a scan found, with the state it moves on to. -/
structure DueTask (chrono : Chrono) where
  now : DateTime
  id : Text
  task : ScheduledTask
  next : TaskStatus × Option Millis
  computed : nextTaskState chrono task.schedule now = .ok next

/-- Where an actor stands between two statements. A scan counts the rounds it has left. -/
inductive Phase (chrono : Chrono) where
  | scanning (now : DateTime) (remaining : Nat)
  | found (remaining : Nat) (due : DueTask chrono)
  | counted (remaining : Nat) (due : DueTask chrono) (activeRuns : Nat)
  | manualRead (now : Millis) (id : Text) (task : ScheduledTask)
  | manualInserted (now : Millis) (id : Text) (task : ScheduledTask)
  | editRead (id : Text) (edit : Edit) (existing : ScheduledTask)

/-- The database, the ids that `unique_id` has given to tasks, and the actors at work. -/
structure World (chrono : Chrono) where
  store : ScheduledStore
  takenIds : List Text
  actors : Map Nat (Phase chrono)

inductive Action where
  | beginScan (actor : Nat) (now : DateTime)
  | findDue (actor : Nat)
  | countActive (actor : Nat)
  | claim (actor : Nat) (runId : Text)
  | manualRead (actor : Nat) (id : Text) (now : DateTime)
  | manualInsert (actor : Nat) (runId : Text)
  | manualWrite (actor : Nat) (written : Millis)
  | editRead (actor : Nat) (id : Text) (edit : Edit)
  | editWrite (actor : Nat) (now : DateTime) (written : Millis)
  /-- A request ends early, for a reason outside these statements. -/
  | leave (actor : Nat)
  | create (id : Text) (schedule : ScheduleSpec) (status : TaskStatus)
      (concurrencyPolicy : ScheduledConcurrencyPolicy) (now : DateTime) (written : Millis)
  | delete (id : Text)
  | updateRun (runId : Text) (status : RunStatus)

/-- `SCHEDULED_TASK_SCAN_LIMIT`. -/
def scheduledTaskScanLimit : Nat := 64

variable {chrono : Chrono}

namespace World

def enter (world : World chrono) (actor : Nat) (phase : Phase chrono) : World chrono :=
  { world with actors := world.actors.insert actor phase }

def leave (world : World chrono) (actor : Nat) : World chrono :=
  { world with actors := world.actors.erase actor }

def withStore (world : World chrono) (store : ScheduledStore) : World chrono :=
  { world with store }

/-- `next_due_task` and `next_task_state` in a round of a scan. -/
def findDue (world : World chrono) (actor : Nat) (now : DateTime) : Nat → World chrono
  | 0 => world.leave actor
  | remaining + 1 =>
    match nextDueTask world.store now with
    | none => world.leave actor
    | some (id, task) =>
      match computed : nextTaskState chrono task.schedule now with
      | .error _ => world.leave actor
      | .ok next => world.enter actor (.found remaining ⟨now, id, task, next, computed⟩)

/-- The claim of a round of a scan. -/
def claim (world : World chrono) (actor : Nat) (runId : Text) (remaining : Nat)
    (due : DueTask chrono) (activeRuns : Nat) : World chrono :=
  match dueClaim due.now runId due.id due.task due.next activeRuns with
  | none => world.leave actor
  | some claim =>
    match world.store.claimDueScheduledTaskRun claim with
    | .error _ => world.leave actor
    | .ok (store, _) => (world.withStore store).enter actor (.scanning due.now remaining)

/-- `create_scheduled_task`, and `duplicate_scheduled_task` with status paused. -/
def create (chrono : Chrono) (world : World chrono) (id : Text) (schedule : ScheduleSpec)
    (status : TaskStatus) (concurrencyPolicy : ScheduledConcurrencyPolicy) (now : DateTime)
    (written : Millis) : World chrono :=
  match taskNextRunAt chrono schedule status now with
  | .error _ => world
  | .ok nextRunAt =>
    match world.store.insertScheduledTask id
        { schedule, status, nextRunAt, lastRunAt := none, concurrencyPolicy,
          updatedAt := written } with
    | .error _ => world
    | .ok store => { world with store, takenIds := id :: world.takenIds }

end World

def step (world : World chrono) : Action → Option (World chrono)
  | .beginScan actor now =>
    match world.actors.lookup actor with
    | none => some (world.enter actor (.scanning now scheduledTaskScanLimit))
    | some _ => none
  | .findDue actor =>
    match world.actors.lookup actor with
    | some (.scanning now remaining) => some (world.findDue actor now remaining)
    | _ => none
  | .countActive actor =>
    match world.actors.lookup actor with
    | some (.found remaining due) =>
      some (world.enter actor
        (.counted remaining due (world.store.activeScheduledTaskRunCount due.id)))
    | _ => none
  | .claim actor runId =>
    match world.actors.lookup actor with
    | some (.counted remaining due activeRuns) =>
      some (world.claim actor runId remaining due activeRuns)
    | _ => none
  | .manualRead actor id now =>
    match world.actors.lookup actor, manualTask world.store id with
    | none, .ok task => some (world.enter actor (.manualRead (formatUtcTimestamp now) id task))
    | none, .error _ => some world
    | some _, _ => none
  | .manualInsert actor runId =>
    match world.actors.lookup actor with
    | some (.manualRead now id task) =>
      match world.store.insertScheduledTaskRun runId (manualRun now id) with
      | .ok store => some ((world.withStore store).enter actor (.manualInserted now id task))
      | .error _ => some (world.leave actor)
    | _ => none
  | .manualWrite actor written =>
    match world.actors.lookup actor with
    | some (.manualInserted now id task) =>
      match world.store.updateScheduledTask id (manualUpdate now task) written with
      | .ok store => some ((world.withStore store).leave actor)
      | .error _ => some (world.leave actor)
    | _ => none
  | .editRead actor id edit =>
    match world.actors.lookup actor, requireScheduledTask world.store id with
    | none, .ok existing => some (world.enter actor (.editRead id edit existing))
    | none, .error _ => some world
    | some _, _ => none
  | .editWrite actor now written =>
    match world.actors.lookup actor with
    | some (.editRead id edit existing) =>
      match edit.apply chrono existing now with
      | .error _ => some (world.leave actor)
      | .ok update =>
        match world.store.updateScheduledTask id update written with
        | .ok store => some ((world.withStore store).leave actor)
        | .error _ => some (world.leave actor)
    | _ => none
  | .leave actor => some (world.leave actor)
  | .create id schedule status concurrencyPolicy now written =>
    if id ∈ world.takenIds ∨ (status ≠ .enabled ∧ status ≠ .paused) then none
    else some (world.create chrono id schedule status concurrencyPolicy now written)
  | .delete id => some (world.withStore (world.store.deleteScheduledTask id))
  | .updateRun runId status => some (world.withStore (world.store.updateScheduledTaskRun runId status))

/-- A workspace without scheduled tasks. -/
def start (chrono : Chrono) : World chrono := ⟨⟨∅, ∅⟩, [], ∅⟩

def machine (chrono : Chrono) : Machine (World chrono) Action := ⟨start chrono, step⟩

/-! ## What runs keep -/

/-- Every claimed instant lies before the `next_run_at` of its task, no instant is claimed twice,
and the ids of tasks and of the tasks of runs have been given. -/
structure Orderly (store : ScheduledStore) (takenIds : List Text) : Prop where
  ahead : ∀ id task next instant, store.tasks.lookup id = some task →
    task.nextRunAt = some next → store.Claimed id instant → instant < next
  once : store.ClaimedOnce
  taskTaken : ∀ id task, store.tasks.lookup id = some task → id ∈ takenIds
  runTaken : ∀ runId run, store.runs.lookup runId = some run → run.taskId ∈ takenIds

variable {store : ScheduledStore} {takenIds : List Text}

/-- The instants claimed after a run is inserted. -/
private theorem claimed_insert {tasks : Map Text ScheduledTask} {runId taskId : Text}
    {run : ScheduledTaskRun} {instant : Millis}
    (claimed : ScheduledStore.Claimed ⟨tasks, store.runs.insert runId run⟩ taskId instant) :
    store.Claimed taskId instant ∨
      (run.taskId = taskId ∧ run.triggerReason = .scheduled ∧ run.scheduledAt = instant) := by
  obtain ⟨other, found, looked, facts⟩ := claimed
  rw [Map.lookup_insert_eq_ite] at looked
  split at looked
  · cases looked
    exact .inr facts
  · exact .inl ⟨other, found, looked, facts⟩

/-- Inserting a run keeps instants from being claimed twice, if it claims none or a fresh one. -/
private theorem claimedOnce_insert {tasks : Map Text ScheduledTask} {runId : Text}
    {run : ScheduledTaskRun} (once : store.ClaimedOnce)
    (fresh : run.triggerReason = .scheduled → ¬store.Claimed run.taskId run.scheduledAt) :
    ScheduledStore.ClaimedOnce ⟨tasks, store.runs.insert runId run⟩ := by
  intro a b first second foundFirst foundSecond byFirst bySecond sameTask sameInstant
  rw [Map.lookup_insert_eq_ite] at foundFirst foundSecond
  by_cases isFirst : a = runId
  · by_cases isSecond : b = runId
    · exact isFirst.trans isSecond.symm
    · rw [if_pos isFirst] at foundFirst
      rw [if_neg isSecond] at foundSecond
      cases foundFirst
      exact absurd ⟨b, second, foundSecond, sameTask.symm, bySecond, sameInstant.symm⟩
        (fresh byFirst)
  · rw [if_neg isFirst] at foundFirst
    by_cases isSecond : b = runId
    · rw [if_pos isSecond] at foundSecond
      cases foundSecond
      exact absurd ⟨a, first, foundFirst, sameTask, byFirst, sameInstant⟩ (fresh bySecond)
    · rw [if_neg isSecond] at foundSecond
      exact once a b first second foundFirst foundSecond byFirst bySecond sameTask sameInstant

namespace Orderly

/-- Writing a row keeps the order, if the `next_run_at` written is later than the instants claimed
so far. -/
theorem write (orderly : Orderly store takenIds) {id : Text} {row : ScheduledTask}
    (taken : id ∈ takenIds)
    (later : ∀ next instant, row.nextRunAt = some next → store.Claimed id instant →
      instant < next) :
    Orderly { store with tasks := store.tasks.insert id row } takenIds where
  ahead := by
    intro other task next instant found scheduled claimed
    rw [Map.lookup_insert_eq_ite] at found
    split at found
    · next same =>
      cases found
      subst same
      exact later next instant scheduled claimed
    · exact orderly.ahead other task next instant found scheduled claimed
  once := orderly.once
  taskTaken := by
    intro other task found
    rw [Map.lookup_insert_eq_ite] at found
    split at found
    · next same => exact same ▸ taken
    · exact orderly.taskTaken other task found
  runTaken := orderly.runTaken

theorem insertManual (orderly : Orderly store takenIds) {runId : Text} {run : ScheduledTaskRun}
    (manual : run.triggerReason ≠ .scheduled) (taken : run.taskId ∈ takenIds) :
    Orderly { store with runs := store.runs.insert runId run } takenIds where
  ahead := by
    intro id task next instant found scheduled claimed
    rcases claimed_insert claimed with earlier | ⟨_, byRun, _⟩
    · exact orderly.ahead id task next instant found scheduled earlier
    · exact absurd byRun manual
  once := claimedOnce_insert orderly.once fun byRun => absurd byRun manual
  taskTaken := orderly.taskTaken
  runTaken := by
    intro other found looked
    rw [Map.lookup_insert_eq_ite] at looked
    split at looked
    · cases looked
      exact taken
    · exact orderly.runTaken other found looked

/-- A claim takes the instant the task was due at, which comes after all claimed before, and moves
the task on to a later one. -/
theorem claim (orderly : Orderly store takenIds) {runId id : Text} {task task' : ScheduledTask}
    {run : ScheduledTaskRun} (found : store.tasks.lookup id = some task)
    (due : task.nextRunAt = some run.scheduledAt) (forTask : run.taskId = id)
    (later : ∀ next, task'.nextRunAt = some next → run.scheduledAt < next) :
    Orderly ⟨store.tasks.insert id task', store.runs.insert runId run⟩ takenIds where
  ahead := by
    intro other row next instant looked scheduled claimed
    rw [Map.lookup_insert_eq_ite] at looked
    rcases claimed_insert claimed with earlier | ⟨sameTask, _, sameInstant⟩
    · split at looked
      · next same =>
        cases looked
        subst same
        have before := orderly.ahead other task run.scheduledAt instant found due earlier
        exact Int.lt_trans before (later next scheduled)
      · exact orderly.ahead other row next instant looked scheduled earlier
    · rw [if_pos (sameTask.symm.trans forTask)] at looked
      cases looked
      exact sameInstant ▸ later next scheduled
  once := by
    refine claimedOnce_insert orderly.once fun _ claimed => ?_
    rw [forTask] at claimed
    exact Int.lt_irrefl _ (orderly.ahead id task _ _ found due claimed)
  taskTaken := by
    intro other row looked
    rw [Map.lookup_insert_eq_ite] at looked
    split at looked
    · next same => exact same ▸ orderly.taskTaken id task found
    · exact orderly.taskTaken other row looked
  runTaken := by
    intro other row looked
    rw [Map.lookup_insert_eq_ite] at looked
    split at looked
    · cases looked
      exact forTask ▸ orderly.taskTaken id task found
    · exact orderly.runTaken other row looked

/-- A task with an id never given before has no claimed instants. -/
theorem create (orderly : Orderly store takenIds) {id : Text} {row : ScheduledTask}
    (fresh : id ∉ takenIds) :
    Orderly { store with tasks := store.tasks.insert id row } (id :: takenIds) := by
  have wider : Orderly store (id :: takenIds) :=
    ⟨orderly.ahead, orderly.once,
      fun other task found => List.mem_cons_of_mem _ (orderly.taskTaken other task found),
      fun runId run found => List.mem_cons_of_mem _ (orderly.runTaken runId run found)⟩
  refine wider.write List.mem_cons_self fun next instant _ claimed => ?_
  obtain ⟨runId, run, found, forTask, _⟩ := claimed
  exact absurd (forTask ▸ orderly.runTaken runId run found) fresh

theorem delete (orderly : Orderly store takenIds) (id : Text) :
    Orderly (store.deleteScheduledTask id) takenIds where
  ahead := by
    intro other task next instant found scheduled claimed
    rw [ScheduledStore.deleteScheduledTask, Map.lookup_erase_eq_ite] at found
    split at found
    · cases found
    · exact orderly.ahead other task next instant found scheduled claimed
  once := orderly.once
  taskTaken := by
    intro other task found
    rw [ScheduledStore.deleteScheduledTask, Map.lookup_erase_eq_ite] at found
    split at found
    · cases found
    · exact orderly.taskTaken other task found
  runTaken := orderly.runTaken

/-- Setting the status of a run changes no claim. -/
theorem updateRun (orderly : Orderly store takenIds) (runId : Text) (status : RunStatus) :
    Orderly (store.updateScheduledTaskRun runId status) takenIds := by
  unfold ScheduledStore.updateScheduledTaskRun
  cases found : store.runs.lookup runId with
  | none => exact orderly
  | some run =>
    have earlier : ∀ other row,
        (store.runs.insert runId { run with status }).lookup other = some row →
        ∃ row', store.runs.lookup other = some row' ∧ row'.taskId = row.taskId ∧
          row'.triggerReason = row.triggerReason ∧ row'.scheduledAt = row.scheduledAt := by
      intro other row looked
      rw [Map.lookup_insert_eq_ite] at looked
      split at looked
      · next same =>
        cases looked
        exact ⟨run, same ▸ found, rfl, rfl, rfl⟩
      · exact ⟨row, looked, rfl, rfl, rfl⟩
    constructor
    · intro id task next instant looked scheduled ⟨other, row, stored, forTask, byRun, at_⟩
      obtain ⟨row', stored', task', trigger', at'⟩ := earlier other row stored
      exact orderly.ahead id task next instant looked scheduled
        ⟨other, row', stored', task'.trans forTask, trigger'.trans byRun, at'.trans at_⟩
    · intro a b first second foundFirst foundSecond byFirst bySecond sameTask sameInstant
      obtain ⟨first', stored, task, trigger, at_⟩ := earlier a first foundFirst
      obtain ⟨second', stored', task', trigger', at'⟩ := earlier b second foundSecond
      exact orderly.once a b first' second' stored stored' (trigger.trans byFirst)
        (trigger'.trans bySecond) (task.trans (sameTask.trans task'.symm))
        (at_.trans (sameInstant.trans at'.symm))
    · exact orderly.taskTaken
    · intro other row looked
      obtain ⟨row', stored, forTask, _⟩ := earlier other row looked
      exact forTask ▸ orderly.runTaken other row' stored

end Orderly

/-! ## When the claim of an instant is the only one -/

/-- A row has the status and `next_run_at` that were read from it, if it is still there. -/
def UnchangedSince (store : ScheduledStore) (id : Text) (read : ScheduledTask) : Prop :=
  ∀ row, store.tasks.lookup id = some row →
    row.status = read.status ∧ row.nextRunAt = read.nextRunAt

/-- The condition on a step. Who writes back a `next_run_at` that it read finds it and the status
unchanged; an edit that takes the next run from its clock reads a time that no claim on the task
is past; and no instant of a schedule follows a clock reading, from which a next run is taken,
within the same millisecond. -/
def Meets (world : World chrono) : Action → Prop
  | .claim actor _ => ∀ remaining due activeRuns,
      world.actors.lookup actor = some (.counted remaining due activeRuns) →
      due.task.schedule.ClearOf chrono due.now
  | .manualWrite actor _ => ∀ now id task,
      world.actors.lookup actor = some (.manualInserted now id task) →
      UnchangedSince world.store id task
  | .editWrite actor now _ => ∀ id edit existing,
      world.actors.lookup actor = some (.editRead id edit existing) →
      (edit.KeepsNextRun existing → UnchangedSince world.store id existing) ∧
      (¬edit.KeepsNextRun existing → edit.status existing = .enabled →
        (edit.schedule existing).ClearOf chrono now ∧
          ∀ instant, world.store.Claimed id instant → instant ≤ formatUtcTimestamp now)
  | _ => True

/-- A claim keeps the order if the schedule is clear of the clock reading of the scan. -/
private theorem orderly_claim {world : World chrono} {actor remaining activeRuns : Nat}
    {runId : Text} {due : DueTask chrono} (orderly : Orderly world.store world.takenIds)
    (clear : due.task.schedule.ClearOf chrono due.now) :
    Orderly (world.claim actor runId remaining due activeRuns).store world.takenIds := by
  unfold World.claim
  cases claims : dueClaim due.now runId due.id due.task due.next activeRuns with
  | none => exact orderly
  | some claim =>
    obtain ⟨expected, _, rfl⟩ := Option.map_eq_some_iff.mp claims
    simp only
    split
    · exact orderly
    · next store run claimed =>
      rcases ScheduledStore.claimDueScheduledTaskRun_eq_ok claimed with same | moved
      · exact same ▸ orderly
      · obtain ⟨task, task', run', found, scheduled, isDue, moved, _, forTask, at_, same⟩ := moved
        rw [World.enter, World.withStore, same]
        refine orderly.claim found (at_ ▸ scheduled) forTask fun next nextIs => ?_
        have computed : nextTaskState chrono due.task.schedule due.now =
            .ok (due.next.1, some next) := by
          rw [due.computed, ← moved.symm.trans nextIs]
        exact at_ ▸ Int.lt_of_le_of_lt isDue (nextTaskState_later computed clear)

/-- An edit that is written under the condition keeps the order. -/
private theorem orderly_edit {store' : ScheduledStore} {id : Text}
    {edit : Edit} {existing : ScheduledTask} {update : ScheduledTaskUpdate} {now : DateTime}
    {written : Millis} (orderly : Orderly store takenIds)
    (applied : edit.apply chrono existing now = .ok update)
    (updated : store.updateScheduledTask id update written = .ok store')
    (keeps : edit.KeepsNextRun existing → UnchangedSince store id existing)
    (moves : ¬edit.KeepsNextRun existing → edit.status existing = .enabled →
      (edit.schedule existing).ClearOf chrono now ∧
        ∀ instant, store.Claimed id instant → instant ≤ formatUtcTimestamp now) :
    Orderly store' takenIds := by
  obtain ⟨⟨row, found⟩, sameRuns, row', _, nextIs, tasks⟩ :=
    ScheduledStore.updateScheduledTask_eq_ok updated
  have same : store' = { store with tasks := store.tasks.insert id row' } := by
    cases store'
    cases sameRuns
    cases tasks
    rfl
  rw [same]
  refine orderly.write (orderly.taskTaken id row found) fun next instant scheduled claimed => ?_
  rcases Edit.apply_nextRunAt applied (nextIs.symm.trans scheduled) with
    ⟨kept, read⟩ | ⟨notKept, enabled, later⟩
  · exact orderly.ahead id row next instant found ((keeps kept row found).2.trans read) claimed
  · obtain ⟨clear, past⟩ := moves notKept enabled
    exact Int.lt_of_le_of_lt (past instant claimed) (later clear)

/-- A manual run that is written back onto an unchanged row keeps the order, and the status and
`next_run_at` of every task. -/
private theorem orderly_manual {store' : ScheduledStore} {id : Text} {task : ScheduledTask}
    {now written : Millis} (orderly : Orderly store takenIds)
    (updated : store.updateScheduledTask id (manualUpdate now task) written = .ok store')
    (unchanged : UnchangedSince store id task) :
    Orderly store' takenIds ∧
      ∀ other, store'.scheduleState other = store.scheduleState other := by
  obtain ⟨⟨row, found⟩, sameRuns, row', statusIs, nextIs, tasks⟩ :=
    ScheduledStore.updateScheduledTask_eq_ok updated
  obtain ⟨sameStatus, sameNext⟩ := unchanged row found
  constructor
  · have same : store' = { store with tasks := store.tasks.insert id row' } := by
      cases store'
      cases sameRuns
      cases tasks
      rfl
    rw [same]
    refine orderly.write (orderly.taskTaken id row found) fun next instant scheduled claimed => ?_
    exact orderly.ahead id row next instant found
      (sameNext.trans (nextIs.symm.trans scheduled)) claimed
  · intro other
    rw [ScheduledStore.scheduleState, ScheduledStore.scheduleState, tasks,
      Map.lookup_insert_eq_ite]
    split
    · next same =>
      rw [same, found, Option.map_some, Option.map_some, statusIs, nextIs, sameStatus, sameNext]
      rfl
    · rfl

private theorem World.findDue_store (world : World chrono) (actor : Nat) (now : DateTime)
    (remaining : Nat) : (world.findDue actor now remaining).store = world.store := by
  fun_cases World.findDue <;> rfl

private theorem World.findDue_takenIds (world : World chrono) (actor : Nat) (now : DateTime)
    (remaining : Nat) : (world.findDue actor now remaining).takenIds = world.takenIds := by
  fun_cases World.findDue <;> rfl

private theorem World.claim_takenIds (world : World chrono) (actor : Nat) (runId : Text)
    (remaining : Nat) (due : DueTask chrono) (activeRuns : Nat) :
    (world.claim actor runId remaining due activeRuns).takenIds = world.takenIds := by
  fun_cases World.claim <;> rfl

/-- Every step under the condition keeps the order. -/
theorem Orderly.after_step {world world' : World chrono} {action : Action}
    (orderly : Orderly world.store world.takenIds) (meets : Meets world action)
    (stepped : step world action = some world') : Orderly world'.store world'.takenIds := by
  cases action with
  | beginScan actor now =>
    simp only [step] at stepped
    split at stepped <;> cases stepped
    exact orderly
  | findDue actor =>
    simp only [step] at stepped
    split at stepped <;> cases stepped
    next now remaining _ =>
    rw [World.findDue_store, World.findDue_takenIds]
    exact orderly
  | countActive actor =>
    simp only [step] at stepped
    split at stepped <;> cases stepped
    exact orderly
  | claim actor runId =>
    simp only [step] at stepped
    split at stepped <;> cases stepped
    next remaining due activeRuns at_ =>
    rw [World.claim_takenIds]
    exact orderly_claim orderly (meets remaining due activeRuns at_)
  | manualRead actor id now =>
    simp only [step] at stepped
    split at stepped <;> cases stepped <;> exact orderly
  | manualInsert actor runId =>
    simp only [step] at stepped
    split at stepped
    · split at stepped <;> cases stepped
      · next inserted =>
        obtain ⟨_, ⟨task, found⟩, rfl⟩ := ScheduledStore.insertScheduledTaskRun_eq_ok inserted
        exact orderly.insertManual nofun (orderly.taskTaken _ task found)
      · exact orderly
    · cases stepped
  | manualWrite actor written =>
    simp only [step] at stepped
    split at stepped
    · next now id task at_ =>
      split at stepped <;> cases stepped
      · next updated => exact (orderly_manual orderly updated (meets now id task at_)).1
      · exact orderly
    · cases stepped
  | editRead actor id edit =>
    simp only [step] at stepped
    split at stepped <;> cases stepped <;> exact orderly
  | editWrite actor now written =>
    simp only [step] at stepped
    split at stepped
    · next id edit existing at_ =>
      split at stepped
      · cases stepped
        exact orderly
      · next applied =>
        split at stepped <;> cases stepped
        · next updated =>
          obtain ⟨keeps, moves⟩ := meets id edit existing at_
          exact orderly_edit orderly applied updated keeps moves
        · exact orderly
    · cases stepped
  | leave actor =>
    cases stepped
    exact orderly
  | create id schedule status concurrencyPolicy now written =>
    simp only [step] at stepped
    split at stepped
    · cases stepped
    · next fresh =>
      cases stepped
      unfold World.create
      split
      · exact orderly
      · split
        · exact orderly
        · next inserted =>
          unfold ScheduledStore.insertScheduledTask at inserted
          split at inserted <;> cases inserted
          exact orderly.create fun taken => fresh (.inl taken)
  | delete id =>
    cases stepped
    exact orderly.delete id
  | updateRun runId status =>
    cases stepped
    exact orderly.updateRun runId status

theorem orderly_start (chrono : Chrono) : Orderly (start chrono).store (start chrono).takenIds where
  ahead := by
    intro id task next instant found
    cases found
  once := by
    intro a b first second found
    cases found
  taskTaken := by
    intro id task found
    cases found
  runTaken := by
    intro runId run found
    cases found

/-- A `chrono` for schedules without times of their own. -/
def unread : Chrono := ⟨fun _ => none, fun _ => true⟩

/-- A test for the condition, for runs without edits on schedules without times of their own. -/
def meetsPlainly (world : World chrono) : Action → Bool
  | .claim actor _ =>
    match world.actors.lookup actor with
    | some (.counted _ due _) => due.task.schedule = .interval 60 none
    | _ => true
  | .manualWrite actor _ =>
    match world.actors.lookup actor with
    | some (.manualInserted _ id task) =>
      (world.store.tasks.lookup id).all fun row =>
        row.status = task.status ∧ row.nextRunAt = task.nextRunAt
    | _ => true
  | .editWrite _ _ _ => false
  | _ => true

theorem meets_of_plainly {world : World chrono} {action : Action}
    (plain : meetsPlainly world action = true) : Meets world action := by
  cases action with
  | claim actor runId =>
    intro remaining due activeRuns at_ instant fixed
    simp only [meetsPlainly, at_, decide_eq_true_eq] at plain
    rw [plain] at fixed
    exact fixed.elim
  | manualWrite actor written =>
    intro now id task at_ row found
    simpa only [meetsPlainly, at_, found, Option.all_some, decide_eq_true_eq] using plain
  | editWrite actor now written => cases plain
  | _ => trivial

end Foco.ScheduledTasks
