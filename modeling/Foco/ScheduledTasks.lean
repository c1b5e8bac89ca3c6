import Foco.ApiErrors
import Foco.Maps
import Foco.Result
import Foco.RustText
import Foco.Table
import Mathlib.Data.Char
import Mathlib.Data.Int.Order.Basic
import Mathlib.Data.List.Lex
import Mathlib.Algebra.Group.Int.Defs

/-!
`app/scheduled_tasks/service.rs` and the statements of `store/workspace.rs` on scheduled tasks
and their runs: the instant a schedule runs at next, the scan for a due task, the claim that is
conditional on `next_run_at`, and the insertions and whole-row writes. Clock readings have
nanoseconds; a timestamp column has milliseconds, as `format_utc_timestamp` writes them. Columns
that no step below reads are left out.
-/
namespace Foco.ScheduledTasks
open Foco.RustText Foco.Maps Foco.Result Foco.Table

/-! ## Times -/

/-- A `DateTime<Utc>`, in nanoseconds. -/
abbrev DateTime := Int

/-- A timestamp column, in milliseconds. -/
abbrev Millis := Int

def nanosPerMilli : Int := 1000000

def nanosPerSecond : Int := 1000000000

/-- `i64::MAX`. -/
def i64Max : Int := 2 ^ 63 - 1

/-- The seconds a `chrono::Duration` can hold; `Duration::seconds` panics beyond them. -/
def durationSecondsMax : Int := i64Max / 1000

/-- `chrono`: how it reads a time, and which times a `DateTime` can hold. -/
structure Chrono where
  parseFromRfc3339 : Text → Option DateTime
  holds : DateTime → Bool

/-- `format_utc_timestamp`. -/
def formatUtcTimestamp (time : DateTime) : Millis := time / nanosPerMilli

/-- `parse_utc_timestamp` on a column. -/
def columnTime (column : Millis) : DateTime := column * nanosPerMilli

/-! ## Schedules -/

inductive ScheduleSpec where
  | oneShotAt (runAt : Text)
  | interval (everySeconds : Nat) (startAt : Option Text)
  | cron (expression : Text) (timezone : Option Text)
  deriving DecidableEq

inductive ScheduledTaskError where
  | invalidTimestamp (field value : Text)
  | invalidInterval (everySeconds : Nat)
  | timestampOverflow
  | cronUnsupported
  /-- `Duration::seconds` panics. -/
  | durationPanic
  deriving DecidableEq

variable (chrono : Chrono)

/-- `parse_utc_timestamp`. -/
def parseUtcTimestamp (field value : Text) : Except ScheduledTaskError DateTime :=
  match chrono.parseFromRfc3339 value with
  | some time => .ok time
  | none => .error (.invalidTimestamp field value)

/-- `checked_add_signed(Duration::seconds(seconds))`. -/
def checkedAddSeconds (time : DateTime) (seconds : Int) : Except ScheduledTaskError DateTime :=
  if durationSecondsMax < seconds then .error .durationPanic
  else if chrono.holds (time + seconds * nanosPerSecond) then
    .ok (time + seconds * nanosPerSecond)
  else .error .timestampOverflow

/-- The anchor of `interval_next_run`: the start, or one interval from now. -/
def intervalAnchor (everySeconds : Nat) (startAt : Option Text) (now : DateTime) :
    Except ScheduledTaskError DateTime :=
  match startAt with
  | some startAt => parseUtcTimestamp chrono "schedule.start_at".toList startAt
  | none => checkedAddSeconds chrono now everySeconds

/-- `interval_next_run`. -/
def intervalNextRun (everySeconds : Nat) (startAt : Option Text) (now : DateTime) :
    Except ScheduledTaskError DateTime := do
  if i64Max < everySeconds ∨ everySeconds = 0 then .error (.invalidInterval everySeconds)
  else if durationSecondsMax < everySeconds then .error .durationPanic
  else
    let anchor ← intervalAnchor chrono everySeconds startAt now
    if now < anchor then .ok anchor
    else
      let elapsedSeconds := (now - anchor) / nanosPerSecond
      let periods := elapsedSeconds / everySeconds + 1
      if i64Max < periods * everySeconds then .error .timestampOverflow
      else checkedAddSeconds chrono anchor (periods * everySeconds)

/-- `next_run_after`. -/
def nextRunAfter (schedule : ScheduleSpec) (now : DateTime) :
    Except ScheduledTaskError (Option DateTime) :=
  match schedule with
  | .oneShotAt runAt =>
    match parseUtcTimestamp chrono "schedule.run_at".toList runAt with
    | .ok runAt => .ok (if now < runAt then some runAt else none)
    | .error error => .error error
  | .interval everySeconds startAt => (intervalNextRun chrono everySeconds startAt now).map some
  | .cron _ _ => .error .cronUnsupported

/-- The instants a schedule fixes by itself: the time of a one-shot, and the times a whole number
of intervals after the start of a repeated one. -/
def ScheduleSpec.HasInstant (schedule : ScheduleSpec) (instant : DateTime) : Prop :=
  match schedule with
  | .oneShotAt runAt => chrono.parseFromRfc3339 runAt = some instant
  | .interval everySeconds (some startAt) =>
    ∃ anchor, chrono.parseFromRfc3339 startAt = some anchor ∧
      ∃ periods : Int, instant = anchor + periods * everySeconds * nanosPerSecond
  | .interval _ none => False
  | .cron _ _ => False

/-- No instant of the schedule follows a clock reading within the millisecond of the reading. -/
def ScheduleSpec.ClearOf (schedule : ScheduleSpec) (now : DateTime) : Prop :=
  ∀ instant, schedule.HasInstant chrono instant → now < instant →
    formatUtcTimestamp now < formatUtcTimestamp instant

variable {chrono}

theorem checkedAddSeconds_eq_ok {time time' : DateTime} {seconds : Int}
    (added : checkedAddSeconds chrono time seconds = .ok time') :
    time' = time + seconds * nanosPerSecond := by
  unfold checkedAddSeconds at added
  split at added
  · cases added
  · split at added
    · cases added
      rfl
    · cases added

/-- One interval from now is at least a second later. -/
private theorem add_interval_later (now : Int) {everySeconds : Nat} (positive : 0 < everySeconds) :
    now + 1000000000 ≤ now + everySeconds * 1000000000 := by
  omega

/-- The boundary after the last whole interval that has passed is later than now: the rest of the
elapsed seconds is below one interval. -/
private theorem boundary_later (now anchor : Int) {everySeconds : Nat}
    (positive : 0 < everySeconds) :
    now < anchor +
      ((now - anchor) / 1000000000 / everySeconds + 1) * everySeconds * 1000000000 := by
  have seconds : now - anchor < ((now - anchor) / 1000000000 + 1) * 1000000000 :=
    Int.lt_ediv_add_one_mul_self _ (by decide)
  have periods : (now - anchor) / 1000000000 <
      ((now - anchor) / 1000000000 / everySeconds + 1) * everySeconds :=
    Int.lt_ediv_add_one_mul_self _ (by omega)
  have whole : ((now - anchor) / 1000000000 + 1) * 1000000000 ≤
      ((now - anchor) / 1000000000 / everySeconds + 1) * everySeconds * 1000000000 :=
    Int.mul_le_mul_of_nonneg_right (by omega) (by decide)
  omega

/-- A second makes a later millisecond. -/
private theorem second_later {now next : Int} (later : now + 1000000000 ≤ next) :
    now / 1000000 < next / 1000000 := by
  omega

/-- The next run of an interval is a whole number of intervals after its start, or one interval
after the clock reading when it has none, and lies after the reading. -/
theorem intervalNextRun_spec {everySeconds : Nat} {startAt : Option Text} {now next : DateTime}
    (found : intervalNextRun chrono everySeconds startAt now = .ok next) :
    now < next ∧
      (now + nanosPerSecond ≤ next ∨
        (ScheduleSpec.interval everySeconds startAt).HasInstant chrono next) := by
  unfold intervalNextRun at found
  by_cases invalid : i64Max < everySeconds ∨ everySeconds = 0
  · rw [if_pos invalid] at found
    cases found
  have positive : 0 < everySeconds := Nat.pos_of_ne_zero fun zero => invalid (.inr zero)
  by_cases panics : durationSecondsMax < everySeconds
  · rw [if_neg invalid, if_pos panics] at found
    cases found
  rw [if_neg invalid, if_neg panics] at found
  obtain ⟨anchor, anchored, rest⟩ := bind_eq_ok.mp found
  cases startAt with
  | none =>
    have later : now + nanosPerSecond ≤ anchor := by
      rw [checkedAddSeconds_eq_ok anchored]
      exact add_interval_later now positive
    have ahead : now < anchor := Int.lt_of_lt_of_le (Int.lt_add_of_pos_right _ (by decide)) later
    rw [if_pos ahead] at rest
    cases rest
    exact ⟨ahead, .inl later⟩
  | some startAt =>
    have read : chrono.parseFromRfc3339 startAt = some anchor := by
      unfold intervalAnchor parseUtcTimestamp at anchored
      cases read : chrono.parseFromRfc3339 startAt with
      | none => simp [read] at anchored
      | some time => simpa [read] using anchored
    by_cases ahead : now < anchor
    · rw [if_pos ahead] at rest
      cases rest
      exact ⟨ahead, .inr ⟨next, read, 0, by simp⟩⟩
    · rw [if_neg ahead] at rest
      by_cases overflows :
          i64Max < ((now - anchor) / nanosPerSecond / everySeconds + 1) * everySeconds
      · rw [if_pos overflows] at rest
        cases rest
      rw [if_neg overflows] at rest
      have sum := checkedAddSeconds_eq_ok rest
      refine ⟨?_, .inr ⟨anchor, read, _, sum⟩⟩
      rw [sum]
      exact boundary_later now anchor positive

/-- The next run is formatted later than a clock reading that the schedule is clear of. -/
theorem nextRunAfter_later {schedule : ScheduleSpec} {now next : DateTime}
    (found : nextRunAfter chrono schedule now = .ok (some next))
    (clear : schedule.ClearOf chrono now) : formatUtcTimestamp now < formatUtcTimestamp next := by
  cases schedule with
  | oneShotAt runAt =>
    unfold nextRunAfter parseUtcTimestamp at found
    cases read : chrono.parseFromRfc3339 runAt with
    | none =>
      simp only [read] at found
      cases found
    | some instant =>
      simp only [read, Except.ok.injEq, Option.ite_none_right_eq_some, Option.some.injEq] at found
      obtain ⟨ahead, rfl⟩ := found
      exact clear instant read ahead
  | interval everySeconds startAt =>
    have ran : intervalNextRun chrono everySeconds startAt now = .ok next := by
      simp only [nextRunAfter] at found
      cases run : intervalNextRun chrono everySeconds startAt now with
      | error error => simp [run, Except.map] at found
      | ok instant =>
        simp only [run, Except.map, Except.ok.injEq, Option.some.injEq] at found
        rw [found]
    obtain ⟨ahead, relative | fixed⟩ := intervalNextRun_spec ran
    · exact second_later relative
    · exact clear next fixed ahead
  | cron expression timezone => cases found

/-! ## Tables -/

inductive TaskStatus where
  | enabled | paused | completed | archived
  deriving DecidableEq

inductive RunStatus where
  | pending | queued | running | succeeded | failed | cancelled | skipped
  deriving DecidableEq

inductive TriggerReason where
  | scheduled | manual | retry | misfireCatchUp
  deriving DecidableEq

inductive ScheduledConcurrencyPolicy where
  | skipIfRunning | queueAfterCurrent | forceRun
  deriving DecidableEq

/-- A row of `scheduled_tasks`. -/
structure ScheduledTask where
  schedule : ScheduleSpec
  status : TaskStatus
  nextRunAt : Option Millis
  lastRunAt : Option Millis
  concurrencyPolicy : ScheduledConcurrencyPolicy
  updatedAt : Millis

/-- A row of `scheduled_task_runs`. -/
structure ScheduledTaskRun where
  taskId : Text
  triggerReason : TriggerReason
  status : RunStatus
  scheduledAt : Millis
  deriving DecidableEq

/-- The two tables, each under its primary key. -/
structure ScheduledStore where
  tasks : Map Text ScheduledTask
  runs : Map Text ScheduledTaskRun

inductive StoreError where
  /-- A primary key is taken or a foreign key is missing. -/
  | constraint
  | missingScheduledTask (id : Text)

namespace ScheduledStore

/-- `ORDER BY` of `scheduled_tasks_page`: rows without `next_run_at` last, then the earliest, the
latest updated, and the smallest id. -/
def precedes (first second : Text × ScheduledTask) : Bool :=
  match first.2.nextRunAt, second.2.nextRunAt with
  | none, some _ => false
  | some _, none => true
  | none, none => later first second
  | some a, some b => a < b || (a = b && later first second)
where
  later (first second : Text × ScheduledTask) : Bool :=
    second.2.updatedAt < first.2.updatedAt ||
      (first.2.updatedAt = second.2.updatedAt && first.1 ≤ second.1)

/-- `scheduled_tasks`. -/
def scheduledTasks (store : ScheduledStore) (status : TaskStatus) : List (Text × ScheduledTask) :=
  sortBy precedes
    ((store.tasks.entries.map fun row => (row.1, row.2)).filter fun row => row.2.status = status)

/-- `active_scheduled_task_run_count`. -/
def activeScheduledTaskRunCount (store : ScheduledStore) (taskId : Text) : Nat :=
  store.runs.entries.countP fun row =>
    row.2.taskId = taskId &&
      (row.2.status = .pending || row.2.status = .queued || row.2.status = .running)

end ScheduledStore

/-- `ScheduledTaskDueRunClaim`. -/
structure ScheduledTaskDueRunClaim where
  taskId : Text
  expectedNextRunAt : Millis
  runId : Text
  triggerReason : TriggerReason
  runStatus : RunStatus
  scheduledAt : Millis
  taskStatus : TaskStatus
  taskNextRunAt : Option Millis
  taskLastRunAt : Millis

/-- The columns that `ScheduledTaskUpdate` sets. -/
structure ScheduledTaskUpdate where
  schedule : ScheduleSpec
  status : TaskStatus
  nextRunAt : Option Millis
  lastRunAt : Option Millis
  concurrencyPolicy : ScheduledConcurrencyPolicy

namespace ScheduledStore

/-- `insert_scheduled_task`. -/
def insertScheduledTask (store : ScheduledStore) (id : Text) (task : ScheduledTask) :
    Except StoreError ScheduledStore :=
  match store.tasks.lookup id with
  | some _ => .error .constraint
  | none => .ok { store with tasks := store.tasks.insert id task }

/-- `insert_scheduled_task_run`. -/
def insertScheduledTaskRun (store : ScheduledStore) (id : Text) (run : ScheduledTaskRun) :
    Except StoreError ScheduledStore :=
  match store.runs.lookup id, store.tasks.lookup run.taskId with
  | none, some _ => .ok { store with runs := store.runs.insert id run }
  | _, _ => .error .constraint

/-- `update_scheduled_task`: the row is written whole, whatever it holds. -/
def updateScheduledTask (store : ScheduledStore) (id : Text) (task : ScheduledTaskUpdate)
    (now : Millis) : Except StoreError ScheduledStore :=
  match store.tasks.lookup id with
  | none => .error (.missingScheduledTask id)
  | some _ =>
    .ok { store with
      tasks := store.tasks.insert id
        { schedule := task.schedule, status := task.status, nextRunAt := task.nextRunAt,
          lastRunAt := task.lastRunAt, concurrencyPolicy := task.concurrencyPolicy,
          updatedAt := now } }

/-- `claim_due_scheduled_task_run`: the run, if the task is still due as expected. -/
def claimDueScheduledTaskRun (store : ScheduledStore) (claim : ScheduledTaskDueRunClaim) :
    Except StoreError (ScheduledStore × Option ScheduledTaskRun) :=
  match store.tasks.lookup claim.taskId with
  | none => .ok (store, none)
  | some task =>
    if task.status = .enabled ∧ task.nextRunAt = some claim.expectedNextRunAt ∧
        claim.expectedNextRunAt ≤ claim.taskLastRunAt then
      match store.runs.lookup claim.runId with
      | some _ => .error .constraint
      | none =>
        let run :=
          { taskId := claim.taskId, triggerReason := claim.triggerReason,
            status := claim.runStatus, scheduledAt := claim.scheduledAt }
        let task :=
          { task with
            status := claim.taskStatus, nextRunAt := claim.taskNextRunAt,
            lastRunAt := some claim.taskLastRunAt, updatedAt := claim.taskLastRunAt }
        .ok ({ tasks := store.tasks.insert claim.taskId task,
               runs := store.runs.insert claim.runId run }, some run)
    else .ok (store, none)

/-- `delete_scheduled_task`, without the runs that go with the task. -/
def deleteScheduledTask (store : ScheduledStore) (id : Text) : ScheduledStore :=
  { store with tasks := store.tasks.erase id }

/-- `update_scheduled_task_run`, which sets neither the task, the reason nor the instant. -/
def updateScheduledTaskRun (store : ScheduledStore) (id : Text) (status : RunStatus) :
    ScheduledStore :=
  match store.runs.lookup id with
  | none => store
  | some run => { store with runs := store.runs.insert id { run with status } }

end ScheduledStore

/-! ## The scheduler and the requests -/

/-- `next_due_task`. -/
def nextDueTask (store : ScheduledStore) (now : DateTime) : Option (Text × ScheduledTask) :=
  (store.scheduledTasks .enabled).find? fun row =>
    match row.2.nextRunAt with
    | none => false
    | some nextRunAt => columnTime nextRunAt ≤ now

/-- `next_task_state`. -/
def nextTaskState (chrono : Chrono) (schedule : ScheduleSpec) (now : DateTime) :
    Except ScheduledTaskError (TaskStatus × Option Millis) := do
  let next ← nextRunAfter chrono schedule now
  return (if next.isSome then .enabled else .completed, next.map formatUtcTimestamp)

/-- What `dispatch_due_scheduled_tasks` claims for a due task. -/
def dueClaim (now : DateTime) (runId taskId : Text) (task : ScheduledTask)
    (next : TaskStatus × Option Millis) (activeRuns : Nat) : Option ScheduledTaskDueRunClaim :=
  task.nextRunAt.map fun nextRunAt =>
    { taskId, expectedNextRunAt := nextRunAt, runId, triggerReason := .scheduled,
      runStatus :=
        if task.concurrencyPolicy = .skipIfRunning ∧ activeRuns > 0 then .skipped else .pending,
      scheduledAt := nextRunAt, taskStatus := next.1, taskNextRunAt := next.2,
      taskLastRunAt := formatUtcTimestamp now }

/-- What `run_scheduled_task_now` reads and checks. -/
def manualTask (store : ScheduledStore) (taskId : Text) : Except ApiError ScheduledTask :=
  match store.tasks.lookup taskId with
  | none => .error (.badRequest ("scheduled task was not found: ".toList ++ taskId))
  | some task =>
    if task.status = .archived then
      .error (.badRequest "archived scheduled tasks cannot be run manually".toList)
    else .ok task

/-- The run that `run_scheduled_task_now` inserts. -/
def manualRun (now : Millis) (taskId : Text) : ScheduledTaskRun :=
  { taskId, triggerReason := .manual, status := .pending, scheduledAt := now }

/-- The row that `run_scheduled_task_now` writes back: what it read, last run now. -/
def manualUpdate (now : Millis) (task : ScheduledTask) : ScheduledTaskUpdate :=
  { schedule := task.schedule, status := task.status, nextRunAt := task.nextRunAt,
    lastRunAt := some now, concurrencyPolicy := task.concurrencyPolicy }

/-- `require_scheduled_task`. -/
def requireScheduledTask (store : ScheduledStore) (taskId : Text) :
    Except ApiError ScheduledTask :=
  if (trim taskId).isEmpty then
    .error (.badRequest "scheduled task id must not be empty".toList)
  else
    match store.tasks.lookup (trim taskId) with
    | none => .error (.badRequest ("scheduled task was not found: ".toList ++ trim taskId))
    | some task => .ok task

/-- `task_next_run_at`. -/
def taskNextRunAt (chrono : Chrono) (schedule : ScheduleSpec) (status : TaskStatus)
    (now : DateTime) : Except ScheduledTaskError (Option Millis) := do
  if status ≠ .enabled then return none
  else
    let next ← nextRunAfter chrono schedule now
    return next.map formatUtcTimestamp

/-- `UpdateScheduledTaskRequest`. -/
structure UpdateRequest where
  schedule : Option ScheduleSpec
  status : Option TaskStatus
  concurrencyPolicy : Option ScheduledConcurrencyPolicy

/-- The `next_run_at` that `update_scheduled_task` writes. -/
def updatedNextRunAt (chrono : Chrono) (schedule : ScheduleSpec) (status : TaskStatus)
    (existing : ScheduledTask) (now : DateTime) : Except ScheduledTaskError (Option Millis) :=
  if status = .enabled then
    if schedule ≠ existing.schedule ∨ status ≠ existing.status then
      taskNextRunAt chrono schedule status now
    else .ok existing.nextRunAt
  else .ok none

/-- A request that edits a task: `update_scheduled_task`, or `set_scheduled_task_status` for
pausing, resuming and archiving. -/
inductive Edit where
  | update (request : UpdateRequest)
  | setStatus (status : TaskStatus)

namespace Edit

/-- The schedule the task has after the edit. -/
def schedule (edit : Edit) (existing : ScheduledTask) : ScheduleSpec :=
  match edit with
  | .update request => request.schedule.getD existing.schedule
  | .setStatus _ => existing.schedule

/-- The status the task has after the edit. -/
def status (edit : Edit) (existing : ScheduledTask) : TaskStatus :=
  match edit with
  | .update request => request.status.getD existing.status
  | .setStatus status => status

/-- The row that the edit writes, from what it read and a clock reading. -/
def apply (chrono : Chrono) (edit : Edit) (existing : ScheduledTask) (now : DateTime) :
    Except ScheduledTaskError ScheduledTaskUpdate := do
  match edit with
  | .update request =>
    let nextRunAt ←
      updatedNextRunAt chrono (edit.schedule existing) (edit.status existing) existing now
    return {
      schedule := edit.schedule existing, status := edit.status existing, nextRunAt,
      lastRunAt := existing.lastRunAt,
      concurrencyPolicy := request.concurrencyPolicy.getD existing.concurrencyPolicy }
  | .setStatus status =>
    let nextRunAt ← taskNextRunAt chrono existing.schedule status now
    return {
      schedule := existing.schedule, status, nextRunAt, lastRunAt := existing.lastRunAt,
      concurrencyPolicy := existing.concurrencyPolicy }

/-- The edit leaves the task enabled on the schedule it has, and keeps its `next_run_at`. -/
def KeepsNextRun (edit : Edit) (existing : ScheduledTask) : Prop :=
  match edit with
  | .update _ =>
    edit.status existing = .enabled ∧ edit.schedule existing = existing.schedule ∧
      edit.status existing = existing.status
  | .setStatus _ => False

instance (edit : Edit) (existing : ScheduledTask) : Decidable (edit.KeepsNextRun existing) := by
  unfold KeepsNextRun
  cases edit <;> infer_instance

end Edit

/-! ## What the statements do -/

namespace ScheduledStore

/-- A run has claimed an instant of a task. -/
def Claimed (store : ScheduledStore) (taskId : Text) (instant : Millis) : Prop :=
  ∃ runId run, store.runs.lookup runId = some run ∧ run.taskId = taskId ∧
    run.triggerReason = .scheduled ∧ run.scheduledAt = instant

/-- No instant of a task is claimed by two runs. -/
def ClaimedOnce (store : ScheduledStore) : Prop :=
  ∀ runId runId' run run', store.runs.lookup runId = some run →
    store.runs.lookup runId' = some run' → run.triggerReason = .scheduled →
    run'.triggerReason = .scheduled → run.taskId = run'.taskId →
    run.scheduledAt = run'.scheduledAt → runId = runId'

/-- The status and `next_run_at` of a task. -/
def scheduleState (store : ScheduledStore) (id : Text) : Option (TaskStatus × Option Millis) :=
  (store.tasks.lookup id).map fun task => (task.status, task.nextRunAt)

theorem insertScheduledTaskRun_eq_ok {store store' : ScheduledStore} {id : Text}
    {run : ScheduledTaskRun} (inserted : store.insertScheduledTaskRun id run = .ok store') :
    store.runs.lookup id = none ∧ (∃ task, store.tasks.lookup run.taskId = some task) ∧
      store' = { store with runs := store.runs.insert id run } := by
  unfold insertScheduledTaskRun at inserted
  split at inserted
  · next task free row =>
    cases inserted
    exact ⟨free, ⟨task, row⟩, rfl⟩
  · cases inserted

theorem updateScheduledTask_eq_ok {store store' : ScheduledStore} {id : Text}
    {task : ScheduledTaskUpdate} {now : Millis}
    (updated : store.updateScheduledTask id task now = .ok store') :
    (∃ row, store.tasks.lookup id = some row) ∧ store'.runs = store.runs ∧
      ∃ row, row.status = task.status ∧ row.nextRunAt = task.nextRunAt ∧
        store'.tasks = store.tasks.insert id row := by
  unfold updateScheduledTask at updated
  split at updated
  · cases updated
  · next row found =>
    cases updated
    exact ⟨⟨row, found⟩, rfl, _, rfl, rfl, rfl⟩

/-- A claim changes nothing, or finds the task enabled with the expected `next_run_at`, moves it
on and inserts the run. -/
theorem claimDueScheduledTaskRun_eq_ok {store store' : ScheduledStore}
    {claim : ScheduledTaskDueRunClaim} {run : Option ScheduledTaskRun}
    (claimed : store.claimDueScheduledTaskRun claim = .ok (store', run)) :
    store' = store ∨
      ∃ task task' run', store.tasks.lookup claim.taskId = some task ∧
        task.nextRunAt = some claim.expectedNextRunAt ∧
        claim.expectedNextRunAt ≤ claim.taskLastRunAt ∧ task'.nextRunAt = claim.taskNextRunAt ∧
        store.runs.lookup claim.runId = none ∧ run'.taskId = claim.taskId ∧
        run'.scheduledAt = claim.scheduledAt ∧
        store' = { tasks := store.tasks.insert claim.taskId task',
                   runs := store.runs.insert claim.runId run' } := by
  unfold claimDueScheduledTaskRun at claimed
  split at claimed
  · cases claimed
    exact .inl rfl
  · next task found =>
    split at claimed
    · next due =>
      split at claimed
      · cases claimed
      · next free =>
        cases claimed
        exact .inr ⟨task, _, _, found, due.2.1, due.2.2, rfl, free, rfl, rfl, rfl⟩
    · cases claimed
      exact .inl rfl

end ScheduledStore

/-- A task that stays enabled has its next run formatted later than the clock reading. -/
theorem nextTaskState_later {schedule : ScheduleSpec} {now : DateTime} {status : TaskStatus}
    {next : Millis} (found : nextTaskState chrono schedule now = .ok (status, some next))
    (clear : schedule.ClearOf chrono now) : formatUtcTimestamp now < next := by
  obtain ⟨instant, ran, same⟩ := bind_eq_ok.mp found
  cases instant with
  | none => cases pure_eq_ok.mp same
  | some instant =>
    cases pure_eq_ok.mp same
    exact nextRunAfter_later ran clear

theorem taskNextRunAt_later {schedule : ScheduleSpec} {status : TaskStatus} {now : DateTime}
    {next : Millis} (found : taskNextRunAt chrono schedule status now = .ok (some next))
    (clear : schedule.ClearOf chrono now) : formatUtcTimestamp now < next := by
  unfold taskNextRunAt at found
  split at found
  · cases pure_eq_ok.mp found
  · obtain ⟨instant, ran, same⟩ := bind_eq_ok.mp found
    cases instant with
    | none => cases pure_eq_ok.mp same
    | some instant =>
      cases pure_eq_ok.mp same
      exact nextRunAfter_later ran clear

/-- The `next_run_at` that an edit writes is the one it read, or that of an enabled task and
formatted later than a clock reading the schedule is clear of. -/
theorem Edit.apply_nextRunAt {edit : Edit} {existing : ScheduledTask} {now : DateTime}
    {update : ScheduledTaskUpdate} {next : Millis}
    (applied : edit.apply chrono existing now = .ok update) (written : update.nextRunAt = some next) :
    (edit.KeepsNextRun existing ∧ existing.nextRunAt = some next) ∨
      (¬edit.KeepsNextRun existing ∧ edit.status existing = .enabled ∧
        ((edit.schedule existing).ClearOf chrono now → formatUtcTimestamp now < next)) := by
  cases edit with
  | update request =>
    obtain ⟨nextRunAt, computed, same⟩ := bind_eq_ok.mp applied
    cases pure_eq_ok.mp same
    have computed : updatedNextRunAt chrono _ _ existing now = .ok (some next) :=
      computed.trans (congrArg Except.ok written)
    unfold updatedNextRunAt at computed
    split at computed
    · next enabled =>
      split at computed
      · next changed =>
        refine .inr ⟨?_, enabled, taskNextRunAt_later computed⟩
        rintro ⟨_, sameSchedule, sameStatus⟩
        rcases changed with changed | changed
        · exact changed sameSchedule
        · exact changed sameStatus
      · next unchanged =>
        have unchanged := not_or.mp unchanged
        exact .inl ⟨⟨enabled, not_not.mp unchanged.1, not_not.mp unchanged.2⟩,
          Except.ok.inj computed⟩
    · cases computed
  | setStatus status =>
    obtain ⟨nextRunAt, computed, same⟩ := bind_eq_ok.mp applied
    cases pure_eq_ok.mp same
    have computed : taskNextRunAt chrono existing.schedule status now = .ok (some next) :=
      computed.trans (congrArg Except.ok written)
    have enabled : status = .enabled := by
      by_contra other
      unfold taskNextRunAt at computed
      rw [if_pos other] at computed
      cases pure_eq_ok.mp computed
    exact .inr ⟨id, enabled, taskNextRunAt_later computed⟩

end Foco.ScheduledTasks
