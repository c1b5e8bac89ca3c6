import Foco.AgentRecovery

/-!
Recovery scans beside runners that are only late. A scan acts on what it read earlier; closing
and interrupting compare the attempt with its owner and its lease again, suspending looks at
the task alone, and pausing the instance looks at nothing that was read. In runs whose
suspensions still find the attempt as it was read, and whose pauses find an instance that has
started nothing since its interruption, or is busy, the scans never touch what others have
renewed or started.
-/
namespace Foco.AgentRuntime
open Foco.RustText Foco.AgentDomain Foco.Table Foco.Runs Foco.Result

/-! ## What the steps keep -/

/-- What holds of the attempts at a time: a lease comes with an owner and lies in the past, and
an attempt is one that was started. -/
structure LeasesFit (texts : RecoveryTexts) (clock : Instant)
    (history : List AgentHistoryEntry) (tables : AgentTables) : Prop where
  runs : RunsFit tables
  leased : ∀ row ∈ tables.attempts, row.ownerIncarnation = none ↔ row.leaseRenewedAt = none
  past : ∀ row ∈ tables.attempts, ∀ lease, row.leaseRenewedAt = some lease →
    ∃ instant, texts.parseFromRfc3339 lease = some instant ∧ instant ≤ clock
  started : ∀ row ∈ tables.attempts, wasStarted history row.id = true

/-- What holds of a record that a scan has read: as long as its attempt runs, its task has the
owner that was read, which has started nothing since; and a lease that was renewed since is
later than the read. -/
structure RecordFits (texts : RecoveryTexts) (readAt : Instant) (historyLength : Nat)
    (history : List AgentHistoryEntry) (tables : AgentTables)
    (record : AgentReconciliationRecord) : Prop where
  known : wasStarted history record.attempt.id = true
  leased : record.attempt.ownerIncarnation = none ↔ record.attempt.leaseRenewedAt = none
  past : ∀ lease, record.attempt.leaseRenewedAt = some lease →
    ∃ instant, texts.parseFromRfc3339 lease = some instant ∧ instant ≤ readAt
  same : ∀ row ∈ tables.attempts, row.id = record.attempt.id →
    row.taskId = record.task.id ∧ row.ownerIncarnation = record.attempt.ownerIncarnation
  renewed : .renewed record.attempt.id ∈ history.drop historyLength →
    record.attempt.ownerIncarnation ≠ none ∧
    ∀ row ∈ tables.attempts, row.id = record.attempt.id → ∃ lease instant,
      row.leaseRenewedAt = some lease ∧ texts.parseFromRfc3339 lease = some instant ∧
        readAt < instant
  running : ∀ row ∈ tables.attempts, row.id = record.attempt.id → row.status = .running →
    (∀ task ∈ tables.tasks, task.id = record.task.id →
      task.ownerInstanceId = record.task.ownerInstanceId) ∧
    ∀ attemptId, .started record.task.ownerInstanceId attemptId ∉ history.drop historyLength

/-- An operation that occurs at an instant. -/
structure Occurs (texts : RecoveryTexts) (clock instant : Instant)
    (history : List AgentHistoryEntry) (action : AgentAction) (store store' : AgentStore) :
    Prop where
  commit : action.commit store = .ok store'
  later : clock < instant
  now : ∀ now, action.now = some now → texts.parseFromRfc3339 now = some instant
  keepsSuspended : action.resumesAttempt = false
  fresh : ∀ attemptId, action.startsAttempt = some attemptId →
    wasStarted history attemptId = false

theorem wasStarted_append {history more : List AgentHistoryEntry} {attemptId : AgentAttemptId}
    (known : wasStarted history attemptId = true) :
    wasStarted (history ++ more) attemptId = true := by
  rw [wasStarted, List.any_append, Bool.or_eq_true]
  exact .inl known

/-- A renewal and a claim write the time that they take from the clock. -/
theorem renewal_now {action : AgentAction} {row : AgentAttempt} {lease : Timestamp}
    (renewed : action.renewal row = some lease) : action.now = some lease := by
  cases action with
  | renewLease taskId attemptId ownerIncarnation now =>
    simp only [AgentAction.renewal] at renewed
    split at renewed
    · exact renewed
    · cases renewed
  | _ => cases renewed

theorem renewal_owner {action : AgentAction} {row : AgentAttempt} {lease : Timestamp}
    (renewed : action.renewal row = some lease) : row.ownerIncarnation ≠ none := by
  cases action with
  | renewLease taskId attemptId ownerIncarnation now =>
    simp only [AgentAction.renewal] at renewed
    split at renewed
    · rename_i matches'
      rw [matches'.2.2]
      exact nofun
    · cases renewed
  | _ => cases renewed

/-- An attempt that an operation starts. -/
theorem starts_spec {action : AgentAction} {row : AgentAttempt} (starts : action.Starts row) :
    action.startsAttempt = some row.id ∧
      (row.ownerIncarnation = none ↔ row.leaseRenewedAt = none) ∧
      ∀ lease, row.leaseRenewedAt = some lease → action.now = some lease := by
  cases action with
  | claim teamId taskId attemptId ownerIncarnation now =>
    obtain ⟨rfl, rfl, lease⟩ := starts
    refine ⟨rfl, ?_, ?_⟩
    · rw [lease, Option.map_eq_none_iff]
    · intro written some'
      rw [lease] at some'
      obtain ⟨_, _, rfl⟩ := Option.map_eq_some_iff.mp some'
      rfl
  | _ => exact absurd starts id

/-- A claim that wrote has its start recorded: the task runs, and its owner started it. -/
theorem claim_recorded {teamId : AgentTeamId} {taskId : AgentTaskId} {attemptId : AgentAttemptId}
    {ownerIncarnation : Option Text} {now : Timestamp} {store store' : AgentStore}
    (h : (AgentAction.claim teamId taskId attemptId ownerIncarnation now).commit store =
      .ok store') :
    (store' = store ∧
      (AgentAction.claim teamId taskId attemptId ownerIncarnation now).record store = []) ∨
    ∃ task ∈ store.tasks, task.status = .queued ∧
      (∃ row ∈ store'.tasks, row.id = task.id ∧ row.status = .running ∧
        row.ownerInstanceId = task.ownerInstanceId) ∧
      (AgentAction.claim teamId taskId attemptId ownerIncarnation now).record store =
        [.started task.ownerInstanceId attemptId] := by
  obtain ⟨result, run⟩ := commit_eq_ok h
  rcases claimRunnableAgentTask_spec run with ⟨rfl, rfl⟩ | ⟨task, claimable, -, found, effect⟩
  · left
    refine ⟨rfl, ?_⟩
    simp only [AgentAction.record, run]
  · right
    simp only [isClaimable, Bool.and_eq_true, decide_eq_true_eq] at claimable
    obtain ⟨ident, queued⟩ := And.intro claimable.1.1.1.1.1.1.1 claimable.1.1.1.1.1.2
    obtain ⟨time, mem⟩ := effect.task_mem
    have unique : store'.tasks.find? (fun row => row.id = taskId) =
        some (task.setStatus .running time) := by
      cases other : store'.tasks.find? (fun row => row.id = taskId) with
      | none =>
        have absent := List.find?_eq_none.mp other _ mem
        simp only [AgentTask.setStatus_id, ident, decide_true, not_true_eq_false] at absent
      | some row =>
        have rowId : row.id = taskId := by simpa using List.find?_some other
        have rowMem := List.mem_of_find?_eq_some other
        rw [store'.schema.tasks.ids.eq rowMem mem (rowId.trans ident.symm)]
    refine ⟨task, effect.mem, queued, ⟨_, mem, rfl, rfl, rfl⟩, ?_⟩
    simp only [AgentAction.record, run, found, unique, AgentTask.setStatus_ownerInstanceId]

section Commit

variable {texts : RecoveryTexts} {clock instant : Instant} {history : List AgentHistoryEntry}
  {action : AgentAction} {store store' : AgentStore}

/-- A renewal that an operation records was one of an owned attempt, whose lease is now the
time of the operation. -/
theorem renewal_recorded (h : action.commit store = .ok store') {attemptId : AgentAttemptId}
    (recorded : .renewed attemptId ∈ action.record store) :
    (∃ row ∈ store.attempts, row.id = attemptId ∧ row.ownerIncarnation ≠ none) ∧
    ∃ now, action.now = some now ∧
      ∀ row ∈ store'.attempts, row.id = attemptId → row.leaseRenewedAt = some now := by
  cases action with
  | claim teamId taskId other ownerIncarnation now =>
    rcases claim_recorded h with ⟨-, none⟩ | ⟨_, _, _, _, one⟩
    · rw [none] at recorded
      cases recorded
    · rw [one, List.mem_singleton] at recorded
      cases recorded
  | renewLease taskId other ownerIncarnation now =>
    obtain ⟨result, run⟩ := commit_eq_ok h
    simp only [AgentAction.record, run] at recorded
    split at recorded
    · rename_i next renewed
      cases renewed
      cases List.mem_singleton.mp recorded
      unfold renewAgentAttemptLease at run
      split at run
      · cases run
      obtain ⟨written, write, done⟩ := bind_eq_ok.mp run
      obtain ⟨rfl, one⟩ := Prod.mk.inj (Except.ok.inj done)
      obtain ⟨row, mem, hit⟩ := List.countP_pos_iff.mp
        (Nat.lt_of_lt_of_eq Nat.zero_lt_one (of_decide_eq_true one).symm)
      obtain ⟨ident, task, owner, open'⟩ := of_decide_eq_true hit
      refine ⟨⟨row, mem, ident, by rw [owner]; exact nofun⟩, now, rfl, ?_⟩
      intro after afterMem same
      rw [AgentTables.write_eq_ok.mp write] at afterMem
      obtain ⟨old, oldMem, rfl⟩ := mem_update.mp afterMem
      have old_eq : old = row := by
        refine store.schema.attempts.ids.eq oldMem mem (Eq.trans ?_ ident.symm)
        split at same
        · exact same
        · exact same
      rw [old_eq, if_pos hit]
    · cases recorded
  | _ => cases recorded

/-- What an operation leaves of the attempts at its instant. -/
theorem LeasesFit.commit (occurs : Occurs texts clock instant history action store store')
    (fits : LeasesFit texts clock history store.toAgentTables) :
    LeasesFit texts instant (history ++ action.record store) store'.toAgentTables := by
  have follow := commit_attemptsFollow occurs.commit
  refine ⟨fits.runs.commit occurs.commit, ?_, ?_, ?_⟩
  · intro row mem
    rcases follow row mem with ⟨old, oldMem, follows⟩ | starts
    · have leased := fits.leased old oldMem
      rw [follows.ownerIncarnation]
      rcases follows.lease with same | ⟨now, written, renewed⟩
      · rw [same]
        exact leased
      · rw [written]
        exact iff_of_false (renewal_owner renewed) nofun
    · exact (starts_spec starts).2.1
  · intro row mem lease written
    rcases follow row mem with ⟨old, oldMem, follows⟩ | starts
    · rcases follows.lease with same | ⟨now, renewedAt, renewed⟩
      · obtain ⟨time, parsed, past⟩ := fits.past old oldMem lease (same ▸ written)
        exact ⟨time, parsed, past.trans occurs.later.le⟩
      · cases written.symm.trans renewedAt
        exact ⟨instant, occurs.now _ (renewal_now renewed), le_refl _⟩
    · exact ⟨instant, occurs.now _ ((starts_spec starts).2.2 lease written), le_refl _⟩
  · intro row mem
    rcases follow row mem with ⟨old, oldMem, follows⟩ | starts
    · rw [follows.id]
      exact wasStarted_append (fits.started old oldMem)
    · cases action with
      | claim teamId taskId attemptId ownerIncarnation now =>
        rcases claim_recorded occurs.commit with ⟨rfl, -⟩ | ⟨task, _, _, _, one⟩
        · exact wasStarted_append (fits.started row mem)
        · rw [one, wasStarted, List.any_append, Bool.or_eq_true]
          right
          simp only [List.any_cons, List.any_nil, Bool.or_false, decide_eq_true_eq]
          exact starts.1.symm
      | _ => exact absurd starts id

/-- While an attempt runs, its owner starts nothing else. -/
theorem started_other (occurs : Occurs texts clock instant history action store store')
    (fits : LeasesFit texts clock history store.toAgentTables)
    {row : AgentAttempt} (mem : row ∈ store.attempts) (running : row.status = .running)
    {after : AgentAttempt} (afterMem : after ∈ store'.attempts)
    (stillRunning : after.status = .running) (sameTask : after.taskId = row.taskId)
    {instanceId : AgentInstanceId} {attemptId : AgentAttemptId}
    (started : .started instanceId attemptId ∈ action.record store)
    {task : AgentTask} (taskMem : task ∈ store'.tasks) (tries : task.id = row.taskId) :
    task.ownerInstanceId ≠ instanceId := by
  cases action with
  | claim teamId taskId other ownerIncarnation now =>
    rcases claim_recorded occurs.commit with ⟨-, none⟩ |
      ⟨claimed, claimedMem, queued, ⟨next, nextMem, ident, runs, owner⟩, one⟩
    · rw [none] at started
      cases started
    · rw [one, List.mem_singleton] at started
      cases started
      intro same
      have fits' := fits.runs.commit occurs.commit
      have taskRuns := fits'.task_running taskMem afterMem (sameTask.trans tries.symm)
        stillRunning
      have task_eq : task = next := by
        refine store'.schema.tasks.oneActivePerInstance.eq taskMem nextMem ?_ ?_ ?_
        · rw [taskRuns]
          rfl
        · rw [runs]
          rfl
        · exact same.trans owner.symm
      obtain ⟨before, beforeMem, key⟩ := List.mem_map.mp (store.schema.attempts.tasks row mem)
      have beforeId := (Prod.mk.inj key).2
      have beforeRuns := fits.runs.task_running beforeMem mem beforeId.symm running
      have before_eq : before = claimed := by
        refine store.schema.tasks.ids.eq beforeMem claimedMem ?_
        rw [← ident, ← task_eq]
        exact beforeId.trans tries.symm
      rw [before_eq, queued] at beforeRuns
      cases beforeRuns
  | renewLease taskId other ownerIncarnation now =>
    simp only [AgentAction.record] at started
    split at started
    · cases List.mem_singleton.mp started
    · cases started
  | _ => cases started

/-- What an operation leaves of a record that was read. -/
theorem RecordFits.commit {readAt : Instant} {historyLength : Nat}
    {record : AgentReconciliationRecord}
    (occurs : Occurs texts clock instant history action store store')
    (fits : LeasesFit texts clock history store.toAgentTables) (read : readAt ≤ clock)
    (length : historyLength ≤ history.length)
    (fit : RecordFits texts readAt historyLength history store.toAgentTables record) :
    RecordFits texts readAt historyLength (history ++ action.record store) store'.toAgentTables
      record := by
  have follow : ∀ row ∈ store'.attempts, row.id = record.attempt.id →
      ∃ old ∈ store.attempts, AttemptFollows action old row := by
    intro row mem same
    rcases commit_attemptsFollow occurs.commit row mem with follows | starts
    · exact follows
    · have unknown := occurs.fresh _ (starts_spec starts).1
      rw [same, fit.known] at unknown
      cases unknown
  refine ⟨wasStarted_append fit.known, fit.leased, fit.past, ?_, ?_, ?_⟩
  · intro row mem same
    obtain ⟨old, oldMem, follows⟩ := follow row mem same
    rw [follows.taskId, follows.ownerIncarnation]
    exact fit.same old oldMem (follows.id.symm.trans same)
  · rw [List.drop_append_of_le_length length]
    intro renewed
    rcases List.mem_append.mp renewed with before | now
    · obtain ⟨owned, later⟩ := fit.renewed before
      refine ⟨owned, ?_⟩
      intro row mem same
      obtain ⟨old, oldMem, follows⟩ := follow row mem same
      rcases follows.lease with kept | ⟨lease, written, renewal⟩
      · rw [kept]
        exact later old oldMem (follows.id.symm.trans same)
      · exact ⟨lease, instant, written, occurs.now _ (renewal_now renewal),
          lt_of_le_of_lt read occurs.later⟩
    · obtain ⟨⟨old, oldMem, ident, owned⟩, lease, time, written⟩ :=
        renewal_recorded occurs.commit now
      refine ⟨?_, ?_⟩
      · rw [← (fit.same old oldMem ident).2]
        exact owned
      · intro row mem same
        exact ⟨lease, instant, written row mem same, occurs.now _ time,
          lt_of_le_of_lt read occurs.later⟩
  · intro row mem same running
    obtain ⟨old, oldMem, follows⟩ := follow row mem same
    have oldRuns : old.status = .running := by
      rcases follows.running running with runs | resumed
      · exact runs
      · rw [occurs.keepsSuspended] at resumed
        cases resumed
    obtain ⟨owner, nothing⟩ := fit.running old oldMem (follows.id.symm.trans same) oldRuns
    have oldTask := (fit.same old oldMem (follows.id.symm.trans same)).1
    have ownerAfter : ∀ task ∈ store'.tasks, task.id = record.task.id →
        task.ownerInstanceId = record.task.ownerInstanceId := by
      intro task taskMem ident
      obtain ⟨before, beforeMem, key⟩ := List.mem_map.mp (store.schema.attempts.tasks old oldMem)
      have beforeId := (Prod.mk.inj key).2
      have beforeRuns := fits.runs.task_running beforeMem oldMem beforeId.symm oldRuns
      rw [← owner before beforeMem (beforeId.trans oldTask)]
      exact commit_keeps_running_owner occurs.commit beforeMem beforeRuns taskMem
        (ident.trans (beforeId.trans oldTask).symm)
    refine ⟨ownerAfter, ?_⟩
    intro attemptId
    rw [List.drop_append_of_le_length length, List.mem_append]
    rintro (before | now)
    · exact nothing attemptId before
    · obtain ⟨task, taskMem, key⟩ := List.mem_map.mp (store'.schema.attempts.tasks row mem)
      have taskId : task.id = old.taskId := (Prod.mk.inj key).2.trans follows.taskId
      exact started_other occurs fits oldMem oldRuns mem running follows.taskId now taskMem
        taskId (ownerAfter task taskMem (taskId.trans oldTask))

end Commit

/-! ## What the writes of a scan change -/

/-- An attempt that still has the lease that was read was not renewed since. -/
theorem RecordFits.unrenewed {texts : RecoveryTexts} {readAt : Instant} {historyLength : Nat}
    {history : List AgentHistoryEntry} {tables : AgentTables}
    {record : AgentReconciliationRecord}
    (fit : RecordFits texts readAt historyLength history tables record) {row : AgentAttempt}
    (mem : row ∈ tables.attempts) (same : row.id = record.attempt.id)
    (lease : ∀ lease, record.attempt.leaseRenewedAt = some lease →
      row.leaseRenewedAt = some lease) :
    .renewed record.attempt.id ∉ history.drop historyLength := by
  intro renewed
  obtain ⟨owned, later⟩ := fit.renewed renewed
  obtain ⟨leaseText, instant, written, parsed, after⟩ := later row mem same
  obtain ⟨readLease, readText⟩ :=
    Option.ne_none_iff_exists'.mp (fun none => owned (fit.leased.mpr none))
  obtain ⟨before, readParsed, past⟩ := fit.past readLease readText
  cases written.symm.trans (lease readLease readText)
  cases parsed.symm.trans readParsed
  exact absurd after (not_lt.mpr past)

/-- A statement on the attempts changes only rows that it selects. -/
theorem attempt_selected {store next : AgentStore} {selects : AgentAttempt → Bool}
    {set : AgentAttempt → AgentAttempt} (h : store.updateAttempts selects set = .ok next)
    (keeps : ∀ row, (set row).id = row.id) {row after : AgentAttempt}
    (mem : row ∈ store.attempts) (afterMem : after ∈ next.attempts) (same : after.id = row.id)
    (changed : after.status ≠ row.status) : selects row = true := by
  rw [AgentTables.write_eq_ok.mp h] at afterMem
  obtain ⟨old, oldMem, rfl⟩ := mem_update.mp afterMem
  have old_eq : old = row := by
    refine store.schema.attempts.ids.eq oldMem mem (Eq.trans ?_ same)
    split
    · exact (keeps old).symm
    · rfl
  rw [old_eq] at changed
  by_contra skipped
  rw [if_neg skipped] at changed
  exact changed rfl

/-- Only the owner's status follows a move. -/
theorem owner_of_changed {before after : List AgentInstance} {instanceId : AgentInstanceId}
    {owner : AgentInstanceStatus → AgentInstanceStatus}
    (follows : OwnerFollows before after instanceId owner)
    (unique : Unique AgentInstance.id before) {row next : AgentInstance} (mem : row ∈ before)
    (nextMem : next ∈ after) (same : next.id = row.id) (changed : next.status ≠ row.status) :
    row.id = instanceId := by
  obtain ⟨old, oldMem, ident, -, -, status⟩ := follows next nextMem
  have old_eq : old = row := unique.eq oldMem mem (ident.symm.trans same)
  rw [old_eq] at status
  by_contra other
  rw [if_neg other] at status
  exact changed status

section Writes

variable {store store' : AgentStore} {now : Timestamp} {row after : AgentAttempt}

theorem suspendRunningAgentTask_selected {teamId : AgentTeamId} {taskId : AgentTaskId}
    {result : Bool}
    (h : suspendRunningAgentTask teamId taskId now store = .ok (store', result))
    (mem : row ∈ store.attempts) (afterMem : after ∈ store'.attempts) (same : after.id = row.id)
    (changed : after.status ≠ row.status) : row.taskId = taskId ∧ row.status = .running := by
  unfold suspendRunningAgentTask at h
  simp only at h
  split at h
  · cases h
    exact absurd (congrArg AgentAttempt.status (store.schema.attempts.ids.eq afterMem mem same))
      changed
  obtain ⟨first, writeTasks, h⟩ := bind_eq_ok.mp h
  split at h
  · cases h
  obtain ⟨second, writeAttempts, h⟩ := bind_eq_ok.mp h
  obtain ⟨third, writeOwner, done⟩ := bind_eq_ok.mp h
  cases done
  have firstMem : row ∈ first.attempts := by
    rw [AgentTables.write_eq_ok.mp writeTasks]
    exact mem
  rw [AgentTables.write_eq_ok.mp writeOwner] at afterMem
  have hit := of_decide_eq_true
    (attempt_selected writeAttempts (fun _ => rfl) firstMem afterMem same changed)
  exact ⟨hit.1, hit.2.2⟩

theorem closePreStreamChatFailure_selected {taskId : AgentTaskId} {expected : ExpectedAttempt}
    {reason : Option Text} {owned result : Bool}
    (h : closePreStreamChatFailure taskId expected reason owned now store = .ok (store', result))
    (mem : row ∈ store.attempts) (afterMem : after ∈ store'.attempts) (same : after.id = row.id)
    (changed : after.status ≠ row.status) : expected.isMet row = true := by
  unfold closePreStreamChatFailure at h
  simp only at h
  split at h
  · cases h
    exact absurd (congrArg AgentAttempt.status (store.schema.attempts.ids.eq afterMem mem same))
      changed
  split at h
  · cases h
    exact absurd (congrArg AgentAttempt.status (store.schema.attempts.ids.eq afterMem mem same))
      changed
  obtain ⟨first, writeTasks, h⟩ := bind_eq_ok.mp h
  split at h
  · cases h
  obtain ⟨second, writeAttempts, h⟩ := bind_eq_ok.mp h
  obtain ⟨third, writeOwner, done⟩ := bind_eq_ok.mp h
  cases done
  have firstMem : row ∈ first.attempts := by
    rw [AgentTables.write_eq_ok.mp writeTasks]
    exact mem
  rw [AgentTables.write_eq_ok.mp writeOwner] at afterMem
  have hit := attempt_selected writeAttempts (fun _ => rfl) firstMem afterMem same changed
  exact (Bool.and_eq_true_iff.mp hit).2

theorem updateAgentTaskState_selected {update : AgentTaskStateUpdate} {result : Bool}
    (h : updateAgentTaskState update now store = .ok (store', result))
    (mem : row ∈ store.attempts) (afterMem : after ∈ store'.attempts) (same : after.id = row.id)
    (changed : after.status ≠ row.status) :
    update.expectedAttempt.all fun expected => expected.isMet row := by
  unfold updateAgentTaskState at h
  split at h
  · cases h
  obtain ⟨target, -, h⟩ := bind_eq_ok.mp h
  split at h
  · cases h
    exact absurd (congrArg AgentAttempt.status (store.schema.attempts.ids.eq afterMem mem same))
      changed
  obtain ⟨first, writeTasks, h⟩ := bind_eq_ok.mp h
  obtain ⟨second, writeAttempts, h⟩ := bind_eq_ok.mp h
  obtain ⟨third, writeWait, h⟩ := bind_eq_ok.mp h
  obtain ⟨fourth, writeOwner, done⟩ := bind_eq_ok.mp h
  cases done
  have firstMem : row ∈ first.attempts := by
    rw [AgentTables.write_eq_ok.mp writeTasks]
    exact mem
  have secondMem : after ∈ second.attempts := by
    have waits : third.attempts = second.attempts := by rw [AgentTables.write_eq_ok.mp writeWait]
    rw [← waits]
    unfold updateTaskOwner at writeOwner
    split at writeOwner
    · cases writeOwner
      exact afterMem
    · rw [AgentTables.write_eq_ok.mp writeOwner] at afterMem
      exact afterMem
  unfold updateTaskAttempt at writeAttempts
  simp only at writeAttempts
  split at writeAttempts
  · cases writeAttempts
    exact absurd
      (congrArg AgentAttempt.status (first.schema.attempts.ids.eq secondMem firstMem same)) changed
  split at writeAttempts
  · cases writeAttempts
  have hit := attempt_selected writeAttempts (fun _ => rfl) firstMem secondMem same changed
  exact (Bool.and_eq_true_iff.mp hit).2

/-- An update that reports success found its task. -/
theorem updateAgentTaskState_found {update : AgentTaskStateUpdate}
    (h : updateAgentTaskState update now store = .ok (store', true)) :
    ∃ task ∈ store.tasks, isUpdatable store.toAgentTables update task = true := by
  unfold updateAgentTaskState at h
  split at h
  · cases h
  obtain ⟨target, -, h⟩ := bind_eq_ok.mp h
  split at h
  · cases h
  rename_i task found
  exact ⟨task, List.mem_of_find?_eq_some found, List.find?_some found⟩

end Writes

/-! ## What the steps of a scan keep -/

/-- What holds of a scan. A scan about to pause an instance interrupted its attempt while the
history was of the noted length, and until then the instance had started nothing. -/
structure ScanFits (texts : RecoveryTexts) (clock : Instant) (history : List AgentHistoryEntry)
    (tables : AgentTables) (scan : AgentRecoveryScan) : Prop where
  read : scan.readAt ≤ clock
  length : scan.historyLength ≤ history.length
  records : ∀ record ∈ scan.records,
    RecordFits texts scan.readAt scan.historyLength history tables record
  chosen : scan.phase ≠ .decide → ∀ record ∈ scan.records.head?, record.task.status = .running
  pausing : ∀ since, scan.phase = .pause since →
    scan.historyLength ≤ since ∧ since ≤ history.length ∧
    ∀ record ∈ scan.records.head?, ∀ attemptId,
      .started record.task.ownerInstanceId attemptId ∉
        (history.take since).drop scan.historyLength

/-- The invariant of the machine. -/
structure RecoveryInv (texts : RecoveryTexts) (state : RecoveryState) : Prop where
  leases : LeasesFit texts state.clock state.history state.store.toAgentTables
  scans : ∀ scan ∈ state.scans,
    ScanFits texts state.clock state.history state.store.toAgentTables scan

theorem LeasesFit.later {texts : RecoveryTexts} {clock instant : Instant}
    {history : List AgentHistoryEntry} {tables : AgentTables} (later : clock ≤ instant)
    (fits : LeasesFit texts clock history tables) : LeasesFit texts instant history tables := by
  refine ⟨fits.runs, fits.leased, ?_, fits.started⟩
  intro row mem lease written
  obtain ⟨time, parsed, past⟩ := fits.past row mem lease written
  exact ⟨time, parsed, past.trans later⟩

theorem ScanFits.later {texts : RecoveryTexts} {clock instant : Instant}
    {history : List AgentHistoryEntry} {tables : AgentTables} {scan : AgentRecoveryScan}
    (later : clock ≤ instant) (fits : ScanFits texts clock history tables scan) :
    ScanFits texts instant history tables scan :=
  ⟨fits.read.trans later, fits.length, fits.records, fits.chosen, fits.pausing⟩

theorem ScanFits.commit {texts : RecoveryTexts} {clock instant : Instant}
    {history : List AgentHistoryEntry} {action : AgentAction} {store store' : AgentStore}
    {scan : AgentRecoveryScan} (occurs : Occurs texts clock instant history action store store')
    (leases : LeasesFit texts clock history store.toAgentTables)
    (fits : ScanFits texts clock history store.toAgentTables scan) :
    ScanFits texts instant (history ++ action.record store) store'.toAgentTables scan := by
  refine ⟨fits.read.trans occurs.later.le, ?_, ?_, fits.chosen, ?_⟩
  · rw [List.length_append]
    exact fits.length.trans (Nat.le_add_right _ _)
  · exact fun record mem => (fits.records record mem).commit occurs leases fits.read fits.length
  · intro since phase
    obtain ⟨first, bound, nothing⟩ := fits.pausing since phase
    refine ⟨first, ?_, ?_⟩
    · rw [List.length_append]
      exact bound.trans (Nat.le_add_right _ _)
    · rw [List.take_append_of_le_length bound]
      exact nothing

section Reconcile

variable {texts : RecoveryTexts} {now : Timestamp} {instant : Instant} {closure : Option Bool}
  {historyLength : Nat} {scan scan' : AgentRecoveryScan} {record : AgentReconciliationRecord}
  {store store' : AgentStore}

/-- The operation that a scan runs, if its step writes. -/
def recoveryCall (now : Timestamp) (closure : Option Bool) (scan : AgentRecoveryScan)
    (record : AgentReconciliationRecord) : Option AgentAction :=
  match scan.phase with
  | .decide => none
  | .suspend _ => some (.suspend record.task.teamId record.task.id now)
  | .close interruption => closure.map fun owned =>
    .closePreStream record.task.id record.expectedAttempt (some interruption.reason) owned now
  | .interrupt interruption => some (.updateState (record.interruption interruption) now)
  | .pause _ => some (.transitionInstance record.task.ownerInstanceId .paused)

private theorem fst_of_eq_ok {Result : Type} {run : Except AgentStoreError (AgentStore × Result)}
    {result : Result} (h : run = .ok (store', result)) : Prod.fst <$> run = .ok store' := by
  rw [h]
  rfl

/-- A step of a scan leaves the store or runs its operation. -/
theorem reconcileRecord_store
    (h : reconcileRecord texts now instant closure historyLength scan record store =
      (store', scan')) :
    store' = store ∨ ∃ action, recoveryCall now closure scan record = some action ∧
      action.commit store = .ok store' := by
  cases phase : scan.phase with
  | decide =>
    simp only [reconcileRecord, phase] at h
    split at h
    · cases h
      exact .inl rfl
    · split at h
      · cases h
        exact .inl rfl
      · cases h
        exact .inl rfl
  | suspend interruption =>
    simp only [reconcileRecord, recoveryCall, phase] at h ⊢
    split at h
    · rename_i run
      cases h
      exact .inr ⟨_, rfl, fst_of_eq_ok run⟩
    · rename_i run
      cases h
      exact .inr ⟨_, rfl, fst_of_eq_ok run⟩
    · cases h
      exact .inl rfl
  | close interruption =>
    simp only [reconcileRecord, recoveryCall, phase] at h ⊢
    split at h
    · cases h
      exact .inl rfl
    · split at h
      · rename_i run
        cases h
        exact .inr ⟨_, rfl, fst_of_eq_ok run⟩
      · cases h
        exact .inl rfl
  | interrupt interruption =>
    simp only [reconcileRecord, recoveryCall, phase] at h ⊢
    split at h
    · rename_i run
      cases h
      exact .inr ⟨_, rfl, fst_of_eq_ok run⟩
    · rename_i run
      cases h
      exact .inr ⟨_, rfl, fst_of_eq_ok run⟩
    · cases h
      exact .inl rfl
  | pause since =>
    simp only [reconcileRecord, recoveryCall, phase] at h ⊢
    split at h
    · rename_i run
      cases h
      exact .inr ⟨_, rfl, fst_of_eq_ok run⟩
    · cases h
      exact .inl rfl

/-- A step of a scan goes on to the next record, ends, or stays with the record; it comes to
the pause only by an interruption. -/
theorem reconcileRecord_scan
    (h : reconcileRecord texts now instant closure historyLength scan record store =
      (store', scan')) :
    scan' = scan.continue ∨ scan' = scan.stop ∨ ∃ phase, scan' = { scan with phase } ∧
      (scan.phase = .decide → record.task.status = .running) ∧
      ∀ since, phase = .pause since → since = historyLength ∧
        scan.phase ≠ .decide ∧ ∃ interruption, ∃ task ∈ store.tasks,
          isUpdatable store.toAgentTables (record.interruption interruption) task = true := by
  cases phase : scan.phase with
  | decide =>
    simp only [reconcileRecord, phase] at h
    split at h
    · cases h
      exact .inl rfl
    · rename_i running
      split at h
      · cases h
        exact .inl rfl
      · cases h
        exact .inr (.inr ⟨_, rfl, fun _ => not_not.mp running, nofun⟩)
  | suspend interruption =>
    simp only [reconcileRecord, phase] at h
    split at h
    · cases h
      exact .inl rfl
    · cases h
      exact .inr (.inr ⟨_, rfl, nofun, nofun⟩)
    · cases h
      exact .inr (.inl rfl)
  | close interruption =>
    simp only [reconcileRecord, phase] at h
    split at h
    · cases h
      exact .inr (.inr ⟨_, rfl, nofun, nofun⟩)
    · split at h
      · cases h
        exact .inl rfl
      · cases h
        exact .inr (.inl rfl)
  | interrupt interruption =>
    simp only [reconcileRecord, phase] at h
    split at h
    · rename_i run
      cases h
      obtain ⟨task, mem, updatable⟩ := updateAgentTaskState_found run
      refine .inr (.inr ⟨_, rfl, nofun, ?_⟩)
      intro since pause
      cases pause
      exact ⟨rfl, nofun, _, task, mem, updatable⟩
    · cases h
      exact .inl rfl
    · cases h
      exact .inr (.inl rfl)
  | pause since =>
    simp only [reconcileRecord, phase] at h
    split at h
    · cases h
      exact .inl rfl
    · cases h
      exact .inr (.inl rfl)

/-- The operations of a scan draw no attempt, record nothing and take their time from the
clock. -/
theorem recoveryCall_spec {action : AgentAction}
    (h : recoveryCall now closure scan record = some action) :
    (∀ time, action.now = some time → time = now) ∧ action.resumesAttempt = false ∧
      action.startsAttempt = none ∧ ∀ store, action.record store = [] := by
  unfold recoveryCall at h
  split at h
  · cases h
  · cases h
    exact ⟨fun _ same => (Option.some.inj same).symm, rfl, rfl, fun _ => rfl⟩
  · obtain ⟨owned, _, rfl⟩ := Option.map_eq_some_iff.mp h
    exact ⟨fun _ same => (Option.some.inj same).symm, rfl, rfl, fun _ => rfl⟩
  · cases h
    exact ⟨fun _ same => (Option.some.inj same).symm, rfl, rfl, fun _ => rfl⟩
  · cases h
    exact ⟨nofun, rfl, rfl, fun _ => rfl⟩

/-- The attempt that an interruption finds is the one that was read, and it runs. -/
theorem isUpdatable_interruption {interruption : AgentAttemptInterruption} {task : AgentTask}
    {tables : AgentTables}
    (updatable : isUpdatable tables (record.interruption interruption) task = true)
    (running : record.task.status = .running) :
    task.id = record.task.id ∧ ∃ row ∈ tables.attempts, row.id = record.attempt.id ∧
      row.status = .running := by
  simp only [isUpdatable, AgentReconciliationRecord.interruption, Option.all_some,
    Bool.and_eq_true, List.any_eq_true] at updatable
  obtain ⟨⟨⟨ident, -⟩, -⟩, row, mem, source, met⟩ := updatable
  simp only [ExpectedAttempt.isMet, Bool.and_eq_true, decide_eq_true_eq] at met
  have sourceStatus := (of_decide_eq_true source).2.2
  simp only [sourceAttemptStatus, running, reduceCtorEq, if_false] at sourceStatus
  exact ⟨of_decide_eq_true ident, row, mem, met.1.1, sourceStatus⟩

end Reconcile

/-! ## The invariant over runs -/

/-- The scan that a step leaves. -/
theorem ScanFits.reconcile {texts : RecoveryTexts} {clock instant : Instant}
    {history : List AgentHistoryEntry} {now : Timestamp} {closure : Option Bool}
    {scan scan' : AgentRecoveryScan} {record : AgentReconciliationRecord}
    {rest : List AgentReconciliationRecord} {store store' : AgentStore}
    (records : scan.records = record :: rest)
    (h : reconcileRecord texts now instant closure history.length scan record store =
      (store', scan'))
    (before : ScanFits texts clock history store.toAgentTables scan)
    (after : ScanFits texts instant history store'.toAgentTables scan) :
    ScanFits texts instant history store'.toAgentTables scan' := by
  rcases reconcileRecord_scan h with rfl | rfl | ⟨phase, rfl, chosen, paused⟩
  · exact ⟨after.read, after.length,
      fun next mem => after.records next (List.mem_of_mem_tail mem), fun other => absurd rfl other,
      nofun⟩
  · exact ⟨after.read, after.length, fun _ mem => absurd mem List.not_mem_nil,
      fun other => absurd rfl other, nofun⟩
  · have running : ∀ head ∈ scan.records.head?, head.task.status = .running := by
      by_cases first : scan.phase = .decide
      · rw [records]
        rintro head ⟨⟩
        exact chosen first
      · exact after.chosen first
    refine ⟨after.read, after.length, after.records, fun _ => running, ?_⟩
    intro since pause
    obtain ⟨rfl, -, interruption, task, mem, updatable⟩ := paused since pause
    refine ⟨before.length, le_refl _, ?_⟩
    intro head headMem attemptId
    simp only [records, List.head?_cons, Option.mem_def, Option.some.injEq] at headMem
    subst headMem
    obtain ⟨-, row, rowMem, same, runs⟩ := isUpdatable_interruption updatable
      (running record (by rw [records]; rfl))
    rw [List.take_length]
    exact ((before.records record (by rw [records]; exact List.mem_cons_self)).running row rowMem
      same runs).2 attemptId

/-- A read finds what fits. -/
theorem RecordFits.read {texts : RecoveryTexts} {clock instant : Instant}
    {history : List AgentHistoryEntry} {store : AgentStore} (later : clock ≤ instant)
    (leases : LeasesFit texts clock history store.toAgentTables)
    {record : AgentReconciliationRecord}
    (mem : record ∈ startupAgentReconciliation store.toAgentTables) :
    RecordFits texts instant history.length history store.toAgentTables record := by
  have joined := (List.mem_filter.mp (mem_sortBy.mp mem)).1
  obtain ⟨attempt, attemptMem, joined⟩ := List.mem_flatMap.mp joined
  obtain ⟨task, taskMem, rfl⟩ := List.mem_map.mp joined
  obtain ⟨taskMem, tries⟩ := List.mem_filter.mp taskMem
  have tries : task.id = attempt.taskId := of_decide_eq_true tries
  refine ⟨leases.started attempt attemptMem, leases.leased attempt attemptMem, ?_, ?_, ?_, ?_⟩
  · intro lease written
    obtain ⟨time, parsed, past⟩ := leases.past attempt attemptMem lease written
    exact ⟨time, parsed, past.trans later⟩
  · intro row rowMem same
    rw [store.schema.attempts.ids.eq rowMem attemptMem same]
    exact ⟨tries.symm, rfl⟩
  · rw [List.drop_length]
    exact nofun
  · intro row rowMem same running
    refine ⟨?_, ?_⟩
    · intro other otherMem ident
      rw [store.schema.tasks.ids.eq otherMem taskMem ident]
    · rw [List.drop_length]
      exact nofun

/-- The operation of a step of a scan occurs at the step's instant. -/
theorem occurs_of_recoveryCall {texts : RecoveryTexts} {clock instant : Instant}
    {history : List AgentHistoryEntry} {now : Timestamp} {closure : Option Bool}
    {scan : AgentRecoveryScan} {record : AgentReconciliationRecord} {action : AgentAction}
    {store store' : AgentStore} (call : recoveryCall now closure scan record = some action)
    (commit : action.commit store = .ok store') (later : clock < instant)
    (time : texts.parseFromRfc3339 now = some instant) :
    Occurs texts clock instant history action store store' := by
  obtain ⟨clocked, keeps, draws, -⟩ := recoveryCall_spec call
  refine ⟨commit, later, ?_, keeps, ?_⟩
  · intro read same
    rw [clocked read same]
    exact time
  · rw [draws]
    exact nofun

/-- Every step keeps the invariant. -/
theorem RecoveryInv.step {texts : RecoveryTexts} {state state' : RecoveryState}
    {action : RecoveryAction} (inv : RecoveryInv texts state)
    (step : (recoveryMachine texts).step state action = some state') :
    RecoveryInv texts state' := by
  simp only [recoveryMachine] at step
  split at step
  · cases step
  rename_i instant time
  split at step
  swap
  · cases step
  rename_i later
  have kept : RecoveryInv texts { state with clock := instant } :=
    ⟨inv.leases.later later.le, fun scan mem => (inv.scans scan mem).later later.le⟩
  cases action with
  | call now call =>
    simp only [RecoveryState.advance] at step
    split at step
    swap
    · cases step
    rename_i occurs
    split at step
    · rename_i store commit
      cases step
      simp only [RecoveryState.occurs, Bool.and_eq_true, Bool.not_eq_true'] at occurs
      obtain ⟨⟨clocked, keeps⟩, fresh⟩ := occurs
      have occurred : Occurs texts state.clock instant state.history call state.store store := by
        refine ⟨commit, later, ?_, keeps, ?_⟩
        · intro read same
          rw [same, Option.all_some, decide_eq_true_eq] at clocked
          rw [clocked]
          exact time
        · intro attemptId draws
          rw [draws, Option.all_some, Bool.not_eq_true'] at fresh
          exact fresh
      exact ⟨inv.leases.commit occurred,
        fun scan mem => (inv.scans scan mem).commit occurred inv.leases⟩
    · cases step
      exact kept
  | read now context =>
    cases step
    refine ⟨kept.leases, ?_⟩
    intro scan mem
    rcases List.mem_append.mp mem with old | new
    · exact kept.scans scan old
    · rw [List.mem_singleton.mp new]
      exact ⟨le_refl _, le_refl _, fun record read => .read later.le inv.leases read,
        fun other => absurd rfl other, nofun⟩
  | scan now index closure =>
    simp only [RecoveryState.advance] at step
    split at step
    · cases step
    rename_i scan found
    split at step
    · cases step
    rename_i record rest records
    have scanMem := List.mem_of_getElem? found
    generalize run : reconcileRecord texts now instant closure state.history.length scan record
      state.store = outcome at step
    obtain ⟨store, scan'⟩ := outcome
    cases step
    have after : RecoveryInv texts { state with store, clock := instant } := by
      rcases reconcileRecord_store run with rfl | ⟨action, call, commit⟩
      · exact kept
      · have occurred : Occurs texts state.clock instant state.history action state.store store :=
          occurs_of_recoveryCall call commit later time
        have leases := inv.leases.commit occurred
        have scans := fun scan mem => (inv.scans scan mem).commit occurred inv.leases
        rw [(recoveryCall_spec call).2.2.2, List.append_nil] at leases scans
        exact ⟨leases, scans⟩
    refine ⟨after.leases, ?_⟩
    intro other mem
    rcases List.mem_or_eq_of_mem_set mem with old | rfl
    · exact after.scans other old
    · exact (inv.scans scan scanMem).reconcile records run (after.scans scan scanMem)

theorem recoveryInv_of_reachable {texts : RecoveryTexts} {state : RecoveryState}
    (reached : (recoveryMachine texts).Reachable state) : RecoveryInv texts state := by
  have keep : ∀ before action after, RecoveryInv texts before →
      (recoveryMachine texts).step before action = some after → RecoveryInv texts after :=
    fun _ _ _ inv step => inv.step step
  refine Machine.Reachable.invariant ⟨⟨?_, ?_, ?_, ?_⟩, ?_⟩ keep reached
  · exact nofun
  · exact nofun
  · exact nofun
  · exact nofun
  · exact nofun

/-! ## What recovery must leave alone -/

/-- The condition on the step of a scan: a suspension that finds the task suspendable finds the
attempt running with the lease that was read, and a pause finds the instance busy or without a
start since the interruption. -/
def AgentRecoveryScan.staysFenced (now : Timestamp) (store : AgentStore)
    (history : List AgentHistoryEntry) (scan : AgentRecoveryScan) : Bool :=
  match scan.records, scan.phase with
  | record :: _, .suspend _ =>
    !(store.tasks.any
      (isSuspendable store.toAgentTables now record.task.teamId record.task.id)) ||
    store.attempts.any fun row => row.id = record.attempt.id ∧ row.status = .running ∧
      row.leaseRenewedAt = record.attempt.leaseRenewedAt
  | record :: _, .pause since =>
    (store.tasks.any fun task =>
      decide (task.ownerInstanceId = record.task.ownerInstanceId) && task.status.isActive) ||
    (history.drop since).all fun
      | .started instanceId _ => instanceId ≠ record.task.ownerInstanceId
      | .renewed _ => true
  | _, _ => true

/-- The same of a step of the machine. -/
def staysFenced (state : RecoveryState) : RecoveryAction → Bool
  | .scan now index _ =>
    (state.scans[index]?.toList.all fun scan => scan.staysFenced now state.store state.history)
  | _ => true

/-- The operation is one of the runner of an attempt: it names the attempt. -/
def AgentAction.runs (attemptId : AgentAttemptId) : AgentAction → Bool
  | .renewLease _ expected _ _ | .suspendRemotePlan _ _ expected _ _ _ => expected = attemptId
  | .updateState update _ => update.expectedAttempt.any fun expected =>
    expected.attemptId = attemptId
  | .closePreStream _ expected _ _ _ => expected.attemptId = attemptId
  | _ => false

/-- What a step must leave alone. -/
structure RecoverySafe (state : RecoveryState) (action : RecoveryAction)
    (state' : RecoveryState) : Prop where
  /-- A scan changes no attempt whose lease was renewed since the scan read it. -/
  unrenewed : ∀ now index closure, action = .scan now index closure →
    ∀ scan ∈ state.scans[index]?, ∀ row ∈ state.store.attempts, ∀ after ∈ state'.store.attempts,
      after.id = row.id → after.status ≠ row.status →
      .renewed row.id ∉ state.history.drop scan.historyLength
  /-- A scan changes no instance that started an attempt since the scan read its attempts. -/
  notStarted : ∀ now index closure, action = .scan now index closure →
    ∀ scan ∈ state.scans[index]?, ∀ row ∈ state.store.instances,
      ∀ after ∈ state'.store.instances, after.id = row.id → after.status ≠ row.status →
      ∀ attemptId, .started row.id attemptId ∉ state.history.drop scan.historyLength
  /-- A settled attempt is settled for good; only the recovery of interrupted waits reopens it. -/
  settledOnce : (∀ now call, action = .call now call → call.recovers = false) →
    ∀ row ∈ state.store.attempts, row.isOpen = false → ∀ after ∈ state'.store.attempts,
      after.id = row.id → after = row
  /-- The runner of a settled attempt changes nothing. -/
  lateRunner : ∀ now call, action = .call now call →
    ∀ row ∈ state.store.attempts, row.isOpen = false → call.runs row.id = true →
      state'.store = state.store

/-- The fences hold for the operation of a step of a scan. -/
structure CallSafe (history : List AgentHistoryEntry) (scan : AgentRecoveryScan)
    (store store' : AgentStore) : Prop where
  unrenewed : ∀ row ∈ store.attempts, ∀ after ∈ store'.attempts, after.id = row.id →
    after.status ≠ row.status → .renewed row.id ∉ history.drop scan.historyLength
  notStarted : ∀ row ∈ store.instances, ∀ after ∈ store'.instances, after.id = row.id →
    after.status ≠ row.status →
    ∀ attemptId, .started row.id attemptId ∉ history.drop scan.historyLength

theorem CallSafe.refl {history : List AgentHistoryEntry} {scan : AgentRecoveryScan}
    {store : AgentStore} : CallSafe history scan store store := by
  refine ⟨?_, ?_⟩
  · intro row mem after afterMem same changed
    rw [store.schema.attempts.ids.eq afterMem mem same] at changed
    exact absurd rfl changed
  · intro row mem after afterMem same changed
    rw [store.schema.teams.instanceIds.eq afterMem mem same] at changed
    exact absurd rfl changed

section Fences

variable {texts : RecoveryTexts} {clock : Instant} {history : List AgentHistoryEntry}
  {now : Timestamp} {scan : AgentRecoveryScan} {record : AgentReconciliationRecord}
  {store store' : AgentStore}

/-- A move of the task whose attempt was read, while that attempt runs. -/
theorem notStarted_of_move {readAt : Instant} {historyLength : Nat} {task : AgentTask}
    {target : AgentTaskStatus} {owner : AgentInstanceStatus → AgentInstanceStatus}
    {source : Option AgentAttemptStatus} {written : AgentAttemptStatus} {moved : Nat}
    (fit : RecordFits texts readAt historyLength history store.toAgentTables record)
    (effect : TaskMoved store.toAgentTables store'.toAgentTables task target owner source written
      moved) (ident : task.id = record.task.id) {attempt : AgentAttempt}
    (attemptMem : attempt ∈ store.attempts) (same : attempt.id = record.attempt.id)
    (running : attempt.status = .running) :
    ∀ row ∈ store.instances, ∀ after ∈ store'.instances, after.id = row.id →
      after.status ≠ row.status →
      ∀ attemptId, .started row.id attemptId ∉ history.drop historyLength := by
  intro row mem after afterMem sameRow changed
  obtain ⟨owned, nothing⟩ := fit.running attempt attemptMem same running
  rw [owner_of_changed effect.instances store.schema.teams.instanceIds mem afterMem sameRow
    changed, owned task effect.mem ident]
  exact nothing

/-- A suspension that finds the attempt as it was read. -/
theorem suspend_safe {result : Bool} (mem : record ∈ scan.records)
    (fits : ScanFits texts clock history store.toAgentTables scan)
    (fenced : store.tasks.any (isSuspendable store.toAgentTables now record.task.teamId
        record.task.id) = true →
      ∃ row ∈ store.attempts, row.id = record.attempt.id ∧ row.status = .running ∧
        row.leaseRenewedAt = record.attempt.leaseRenewedAt)
    (h : suspendRunningAgentTask record.task.teamId record.task.id now store =
      .ok (store', result)) : CallSafe history scan store store' := by
  have fit := fits.records record mem
  rcases suspendRunningAgentTask_spec h with rfl | ⟨task, suspendable, effect⟩
  · exact .refl
  obtain ⟨attempt, attemptMem, same, running, lease⟩ :=
    fenced (List.any_eq_true.mpr ⟨task, effect.mem, suspendable⟩)
  simp only [isSuspendable, Bool.and_eq_true, decide_eq_true_eq] at suspendable
  refine ⟨?_, notStarted_of_move fit effect suspendable.1.1.1.1 attemptMem same running⟩
  intro row rowMem after afterMem sameRow changed
  obtain ⟨tries, runs⟩ := suspendRunningAgentTask_selected h rowMem afterMem sameRow changed
  have row_eq : row = attempt := by
    refine store.schema.attempts.oneActivePerTask.eq rowMem attemptMem (decide_eq_true runs)
      (decide_eq_true running) ?_
    rw [tries, (fit.same attempt attemptMem same).1]
  rw [row_eq, same]
  exact fit.unrenewed attemptMem same fun text read => lease.trans read

/-- An attempt that meets what a scan expects has the lease that was read. -/
theorem lease_of_isMet {row : AgentAttempt} (met : record.expectedAttempt.isMet row = true) :
    row.id = record.attempt.id ∧ ∀ lease, record.attempt.leaseRenewedAt = some lease →
      row.leaseRenewedAt = some lease := by
  simp only [ExpectedAttempt.isMet, AgentReconciliationRecord.expectedAttempt,
    Bool.and_eq_true] at met
  refine ⟨of_decide_eq_true met.1.1, ?_⟩
  intro lease read
  rw [read, Option.all_some, decide_eq_true_eq] at met
  exact met.2

theorem close_safe {interruption : AgentAttemptInterruption} {owned result : Bool}
    (mem : record ∈ scan.records)
    (fits : ScanFits texts clock history store.toAgentTables scan)
    (h : closePreStreamChatFailure record.task.id record.expectedAttempt
      (some interruption.reason) owned now store = .ok (store', result)) :
    CallSafe history scan store store' := by
  have fit := fits.records record mem
  rcases closePreStreamChatFailure_spec h with rfl | ⟨task, closable, effect⟩
  · exact .refl
  simp only [isClosable, isClosableAttempt, Bool.and_eq_true, decide_eq_true_eq,
    List.any_eq_true] at closable
  obtain ⟨⟨ident, -⟩, attempt, attemptMem, ⟨-, running⟩, met⟩ := closable
  refine ⟨?_, notStarted_of_move fit effect ident attemptMem (lease_of_isMet met).1 running⟩
  intro row rowMem after afterMem sameRow changed
  obtain ⟨same, lease⟩ := lease_of_isMet
    (closePreStreamChatFailure_selected h rowMem afterMem sameRow changed)
  rw [same]
  exact fit.unrenewed rowMem same lease

theorem interrupt_safe {interruption : AgentAttemptInterruption} {result : Bool}
    (mem : record ∈ scan.records) (running : record.task.status = .running)
    (fits : ScanFits texts clock history store.toAgentTables scan)
    (h : updateAgentTaskState (record.interruption interruption) now store =
      .ok (store', result)) : CallSafe history scan store store' := by
  have fit := fits.records record mem
  rcases updateAgentTaskState_spec h with rfl | ⟨task, target, updatable, -, -, effect⟩
  · exact .refl
  obtain ⟨ident, attempt, attemptMem, same, runs⟩ := isUpdatable_interruption updatable running
  refine ⟨?_, notStarted_of_move fit effect ident attemptMem same runs⟩
  intro row rowMem after afterMem sameRow changed
  have met := updateAgentTaskState_selected h rowMem afterMem sameRow changed
  obtain ⟨same, lease⟩ := lease_of_isMet met
  rw [same]
  exact fit.unrenewed rowMem same lease

/-- A pause of an instance that has started nothing since the interruption, or is busy. -/
theorem pause_safe {since : Nat} {result : Bool} (head : record ∈ scan.records.head?)
    (phase : scan.phase = .pause since)
    (fits : ScanFits texts clock history store.toAgentTables scan)
    (fenced : (∃ task ∈ store.tasks, task.ownerInstanceId = record.task.ownerInstanceId ∧
        task.status.isActive = true) ∨
      ∀ attemptId, .started record.task.ownerInstanceId attemptId ∉ history.drop since)
    (h : transitionAgentInstanceStatus record.task.ownerInstanceId .paused store =
      .ok (store', result)) : CallSafe history scan store store' := by
  obtain ⟨_, _, _, _, free, written⟩ := transitionAgentInstanceStatus_spec h
  refine ⟨?_, ?_⟩
  · intro row mem after afterMem same changed
    rw [written.attempts] at afterMem
    rw [store.schema.attempts.ids.eq afterMem mem same] at changed
    exact absurd rfl changed
  · intro row mem after afterMem same changed attemptId
    rw [owner_of_changed written.instances store.schema.teams.instanceIds mem afterMem same
      changed]
    have later : ∀ attemptId,
        .started record.task.ownerInstanceId attemptId ∉ history.drop since := by
      rcases fenced with ⟨task, taskMem, owns, active⟩ | nothing
      · have idle := free task taskMem owns
        simp only [blocksInstanceTransition, active] at idle
        cases idle
      · exact nothing
    obtain ⟨first, bound, earlier⟩ := fits.pausing since phase
    intro started
    rw [← List.take_append_drop since history, List.drop_append_of_le_length
      (by rw [List.length_take]; exact Nat.le_min.mpr ⟨first, first.trans bound⟩)] at started
    rcases List.mem_append.mp started with before | after'
    · exact earlier record head attemptId before
    · exact later attemptId after'

/-- What the condition says of the first record of a scan. -/
theorem staysFenced_suspend {interruption : AgentAttemptInterruption}
    {rest : List AgentReconciliationRecord} (records : scan.records = record :: rest)
    (phase : scan.phase = .suspend interruption) (fenced : scan.staysFenced now store history = true) :
    store.tasks.any (isSuspendable store.toAgentTables now record.task.teamId
        record.task.id) = true →
      ∃ row ∈ store.attempts, row.id = record.attempt.id ∧ row.status = .running ∧
        row.leaseRenewedAt = record.attempt.leaseRenewedAt := by
  intro suspendable
  simp only [AgentRecoveryScan.staysFenced, records, phase, suspendable, Bool.not_true,
    Bool.false_or, List.any_eq_true, decide_eq_true_eq] at fenced
  exact fenced

theorem staysFenced_pause {since : Nat} {rest : List AgentReconciliationRecord}
    (records : scan.records = record :: rest) (phase : scan.phase = .pause since)
    (fenced : scan.staysFenced now store history = true) :
    (∃ task ∈ store.tasks, task.ownerInstanceId = record.task.ownerInstanceId ∧
        task.status.isActive = true) ∨
      ∀ attemptId, .started record.task.ownerInstanceId attemptId ∉ history.drop since := by
  simp only [AgentRecoveryScan.staysFenced, records, phase, Bool.or_eq_true, List.any_eq_true,
    Bool.and_eq_true, decide_eq_true_eq, List.all_eq_true] at fenced
  refine fenced.imp id ?_
  intro nothing attemptId started
  exact of_decide_eq_true (nothing _ started) rfl

/-- A fenced step of a scan is safe. -/
theorem reconcile_safe {instant : Instant} {closure : Option Bool}
    {rest : List AgentReconciliationRecord} {scan' : AgentRecoveryScan}
    (records : scan.records = record :: rest)
    (fits : ScanFits texts clock history store.toAgentTables scan)
    (fenced : scan.staysFenced now store history = true)
    (h : reconcileRecord texts now instant closure history.length scan record store =
      (store', scan')) : CallSafe history scan store store' := by
  rcases reconcileRecord_store h with rfl | ⟨action, call, commit⟩
  · exact .refl
  have mem : record ∈ scan.records := by
    rw [records]
    exact List.mem_cons_self
  have head : record ∈ scan.records.head? := by
    rw [records]
    rfl
  cases phase : scan.phase with
  | decide =>
    simp only [recoveryCall, phase] at call
    cases call
  | suspend interruption =>
    simp only [recoveryCall, phase] at call
    cases call
    obtain ⟨_, run⟩ := commit_eq_ok commit
    exact suspend_safe mem fits (staysFenced_suspend records phase fenced) run
  | close interruption =>
    simp only [recoveryCall, phase] at call
    obtain ⟨owned, _, rfl⟩ := Option.map_eq_some_iff.mp call
    obtain ⟨_, run⟩ := commit_eq_ok commit
    exact close_safe mem fits run
  | interrupt interruption =>
    simp only [recoveryCall, phase] at call
    cases call
    obtain ⟨_, run⟩ := commit_eq_ok commit
    have running := fits.chosen (by rw [phase]; exact nofun) record head
    exact interrupt_safe mem running fits run
  | pause since =>
    simp only [recoveryCall, phase] at call
    cases call
    obtain ⟨_, run⟩ := commit_eq_ok commit
    exact pause_safe head phase fits (staysFenced_pause records phase fenced) run

/-- A settled attempt keeps its row through every operation that reopens none. -/
theorem settled_stays {action : AgentAction} (commit : action.commit store = .ok store')
    (closed : action.recovers = false) {row after : AgentAttempt} (mem : row ∈ store.attempts)
    (settled : row.isOpen = false)
    (drawn : ∀ attemptId, action.startsAttempt = some attemptId → attemptId ≠ row.id)
    (afterMem : after ∈ store'.attempts) (same : after.id = row.id) : after = row := by
  rcases commit_attemptsFollow commit after afterMem with ⟨old, oldMem, follows⟩ | starts
  · have old_eq := store.schema.attempts.ids.eq oldMem mem (follows.id.symm.trans same)
    rw [old_eq] at follows
    rcases follows.settled with kept | open' | recovers
    · exact kept
    · rw [settled] at open'
      cases open'
    · rw [closed] at recovers
      cases recovers
  · exact absurd same (drawn _ (starts_spec starts).1)

/-- The runner of a settled attempt finds nothing to write. -/
theorem lateRunner_stays {action : AgentAction} (commit : action.commit store = .ok store')
    {row : AgentAttempt} (mem : row ∈ store.attempts) (settled : row.isOpen = false)
    (runs : action.runs row.id = true) : store' = store := by
  have stopped : ∀ other ∈ store.attempts, other.id = row.id →
      ¬ (other.status = .running ∨ other.status = .suspended) := by
    intro other otherMem same open'
    rw [store.schema.attempts.ids.eq otherMem mem same] at open'
    rw [AgentAttempt.isOpen, decide_eq_true open'] at settled
    cases settled
  cases action with
  | renewLease taskId attemptId ownerIncarnation now =>
    have named : attemptId = row.id := of_decide_eq_true runs
    obtain ⟨_, run⟩ := commit_eq_ok commit
    unfold renewAgentAttemptLease at run
    split at run
    · cases run
    obtain ⟨next, write, done⟩ := bind_eq_ok.mp run
    cases done
    have tables := AgentTables.write_eq_ok.mp write
    rw [update_none] at tables
    · exact AgentStore.eq_of_tables tables
    · intro other otherMem
      apply decide_eq_false
      rintro ⟨ident, -, -, open'⟩
      exact stopped other otherMem (ident.trans named) open'
  | updateState update now =>
    obtain ⟨_, run⟩ := commit_eq_ok commit
    rcases updateAgentTaskState_spec run with same | ⟨task, _, updatable, -, -, -⟩
    · exact same
    obtain ⟨expected, given, named⟩ := Option.any_eq_true _ _ |>.mp runs
    simp only [isUpdatable, given, Option.all_some, Bool.and_eq_true,
      List.any_eq_true] at updatable
    obtain ⟨-, other, otherMem, source, met⟩ := updatable
    simp only [ExpectedAttempt.isMet, Bool.and_eq_true] at met
    have ident := (of_decide_eq_true met.1.1).trans (of_decide_eq_true named)
    have status := (of_decide_eq_true source).2.2
    refine absurd ?_ (stopped other otherMem ident)
    rw [status, sourceAttemptStatus]
    split
    · exact .inr rfl
    · exact .inl rfl
  | suspendRemotePlan teamId taskId attemptId ownerIncarnation owned now =>
    have named : attemptId = row.id := of_decide_eq_true runs
    obtain ⟨_, run⟩ := commit_eq_ok commit
    rcases suspendRemotePlanTask_spec run with same | ⟨task, suspendable, -⟩
    · exact same
    simp only [isRemotelySuspendable, Bool.and_eq_true, List.any_eq_true] at suspendable
    obtain ⟨-, other, otherMem, hit⟩ := suspendable
    obtain ⟨ident, -, -, running, -⟩ := of_decide_eq_true hit
    exact absurd (.inl running) (stopped other otherMem (ident.trans named))
  | closePreStream taskId expected reason owned now =>
    have named : expected.attemptId = row.id := of_decide_eq_true runs
    obtain ⟨_, run⟩ := commit_eq_ok commit
    rcases closePreStreamChatFailure_spec run with same | ⟨task, closable, -⟩
    · exact same
    simp only [isClosable, isClosableAttempt, ExpectedAttempt.isMet, Bool.and_eq_true,
      List.any_eq_true] at closable
    obtain ⟨-, other, otherMem, own, met⟩ := closable
    have ident := (of_decide_eq_true met.1.1).trans named
    exact absurd (.inl (of_decide_eq_true own).2) (stopped other otherMem ident)
  | _ => cases runs

end Fences

/-! ## The fences over runs -/

/-- The operations of a scan reopen nothing. -/
theorem recoveryCall_closed {now : Timestamp} {closure : Option Bool} {scan : AgentRecoveryScan}
    {record : AgentReconciliationRecord} {action : AgentAction}
    (h : recoveryCall now closure scan record = some action) : action.recovers = false := by
  unfold recoveryCall at h
  split at h
  · cases h
  · cases h
    rfl
  · obtain ⟨_, _, rfl⟩ := Option.map_eq_some_iff.mp h
    rfl
  · cases h
    rfl
  · cases h
    rfl

/-- What a step does to the store: nothing, a call that occurs, or the operation of a scan. -/
theorem recoveryMachine_store {texts : RecoveryTexts} {state state' : RecoveryState}
    {action : RecoveryAction} (step : (recoveryMachine texts).step state action = some state') :
    state'.store = state.store ∨
    (∃ now call, action = .call now call ∧ call.commit state.store = .ok state'.store ∧
      ∀ attemptId, call.startsAttempt = some attemptId →
        wasStarted state.history attemptId = false) ∨
    ∃ now index closure scan record rest, action = .scan now index closure ∧
      state.scans[index]? = some scan ∧ scan.records = record :: rest ∧
      ∃ instant scan', reconcileRecord texts now instant closure state.history.length scan record
        state.store = (state'.store, scan') := by
  simp only [recoveryMachine] at step
  split at step
  · cases step
  split at step
  swap
  · cases step
  cases action with
  | call now call =>
    simp only [RecoveryState.advance] at step
    split at step
    swap
    · cases step
    rename_i occurs
    split at step
    · rename_i store commit
      cases step
      refine .inr (.inl ⟨now, call, rfl, commit, ?_⟩)
      intro attemptId draws
      simp only [RecoveryState.occurs, draws, Option.all_some, Bool.and_eq_true,
        Bool.not_eq_true'] at occurs
      exact occurs.2
    · cases step
      exact .inl rfl
  | read now context =>
    cases step
    exact .inl rfl
  | scan now index closure =>
    simp only [RecoveryState.advance] at step
    split at step
    · cases step
    rename_i scan found
    split at step
    · cases step
    rename_i record rest records
    cases step
    exact .inr (.inr ⟨now, index, closure, scan, record, rest, rfl, found, records, _, _, rfl⟩)

/-- In every run whose scans stay fenced, no step of a scan touches what others have renewed or
started, and every attempt is settled once. -/
theorem recovery_stays_fenced {texts : RecoveryTexts} {state state' : RecoveryState}
    {action : RecoveryAction}
    (reached : (recoveryMachine texts).ReachableWhile (fun s a => staysFenced s a = true) state)
    (fenced : staysFenced state action = true)
    (step : (recoveryMachine texts).step state action = some state') :
    RecoverySafe state action state' := by
  have inv := recoveryInv_of_reachable reached.reachable
  have scanSafe : ∀ now index closure, action = .scan now index closure →
      ∀ scan ∈ state.scans[index]?, CallSafe state.history scan state.store state'.store := by
    rintro now index closure rfl scan found
    rcases recoveryMachine_store step with same | ⟨_, _, other, -⟩ |
      ⟨_, _, _, head, record, rest, named, headFound, records, instant, scan', run⟩
    · rw [same]
      exact .refl
    · cases other
    · cases named
      cases headFound.symm.trans found
      have mem := List.mem_of_getElem? headFound
      simp only [staysFenced, headFound, Option.toList_some, List.all_cons, List.all_nil,
        Bool.and_true] at fenced
      exact reconcile_safe records (inv.scans scan mem) fenced run
  refine ⟨?_, ?_, ?_, ?_⟩
  · exact fun now index closure named scan found =>
      (scanSafe now index closure named scan found).unrenewed
  · exact fun now index closure named scan found =>
      (scanSafe now index closure named scan found).notStarted
  · intro closed row mem settled after afterMem same
    rcases recoveryMachine_store step with stays | ⟨now, call, rfl, commit, fresh⟩ |
      ⟨now, index, closure, scan, record, rest, rfl, found, records, instant, scan', run⟩
    · rw [stays] at afterMem
      exact state.store.schema.attempts.ids.eq afterMem mem same
    · refine settled_stays commit (closed now call rfl) mem settled ?_ afterMem same
      rintro attemptId draws rfl
      have unknown := fresh _ draws
      rw [inv.leases.started row mem] at unknown
      cases unknown
    · rcases reconcileRecord_store run with stays | ⟨write, named, commit⟩
      · rw [stays] at afterMem
        exact state.store.schema.attempts.ids.eq afterMem mem same
      · refine settled_stays commit (recoveryCall_closed named) mem settled ?_ afterMem same
        rw [(recoveryCall_spec named).2.2.1]
        exact nofun
  · rintro now call rfl row mem settled runs
    rcases recoveryMachine_store step with stays | ⟨_, _, named, commit, -⟩ |
      ⟨_, _, _, _, _, _, named, -⟩
    · exact stays
    · cases named
      exact lateRunner_stays commit mem settled runs
    · cases named

/-- A second of the first hour of 2026, as the store writes it. -/
def secondText (second : Nat) : Timestamp :=
  "2026-01-01T00:".toList ++ [Nat.digitChar (second / 60 / 10), Nat.digitChar (second / 60 % 10),
    ':', Nat.digitChar (second % 60 / 10), Nat.digitChar (second % 60 % 10), 'Z']

/-- Reading the first minute. -/
def sampleTexts : RecoveryTexts where
  parseFromRfc3339 text := ((List.range 60).find? fun second => secondText second = text).map
    fun second => (1767225600 + second) * 1000000000
  attemptIdText attemptId := "agent_attempt_".toList ++ [Nat.digitChar attemptId]

/-- The owner of a task starts it under a lease; later a scan finds the lease expired. -/
def expiredAttempt : List RecoveryAction :=
  [.call (secondText 1) (.createTeam soloTeam),
    .call (secondText 2) (.createInstances [soloWorker] 8 8),
    .call (secondText 3) (.enqueue (taskFor 1 1 none none) 8 8 8 (secondText 3)),
    .call (secondText 4) (.enqueue (taskFor 2 1 none none) 8 8 8 (secondText 4)),
    .call (secondText 5) (.claim 1 1 1 (some ['a']) (secondText 5)),
    .read (secondText 40) (.startup ['b']),
    .scan (secondText 41) 0 none]

/-- The scan interrupts the attempt. -/
def interruptedAttempt : List RecoveryAction :=
  expiredAttempt ++ [.scan (secondText 42) 0 none, .scan (secondText 43) 0 none,
    .scan (secondText 44) 0 none]

/-- The fences on a scan that pauses the instance whose attempt it has interrupted. -/
theorem recovery_pauses_interrupted_instance : ∃ state state',
    (recoveryMachine sampleTexts).ReachableWhile (fun s a => staysFenced s a = true) state ∧
    (recoveryMachine sampleTexts).step state (.scan (secondText 45) 0 none) = some state' ∧
    (∃ row ∈ state'.store.instances, row.status = .paused) ∧
    RecoverySafe state (.scan (secondText 45) 0 none) state' := by
  have run : (((recoveryMachine sampleTexts).runWhile staysFenced ⟨.empty, 0, [], []⟩
      interruptedAttempt).any fun state => staysFenced state (.scan (secondText 45) 0 none) &&
        ((recoveryMachine sampleTexts).step state (.scan (secondText 45) 0 none)).any
          fun state' => state'.store.instances.any fun row => row.status = .paused) = true := by
    decide
  obtain ⟨state, ran, checked⟩ := (Option.any_eq_true _ _).mp run
  obtain ⟨fenced, checked⟩ := Bool.and_eq_true_iff.mp checked
  obtain ⟨state', step, paused⟩ := (Option.any_eq_true _ _).mp checked
  obtain ⟨row, mem, status⟩ := List.any_eq_true.mp paused
  have reached := Machine.reachableWhile_of_runWhile .start ran
  exact ⟨state, state', reached, step, ⟨row, mem, of_decide_eq_true status⟩,
    recovery_stays_fenced reached fenced step⟩

/-- A scan suspends the attempt of a waiting task after its runner has renewed the lease. -/
def renewedAttempt : List RecoveryAction :=
  expiredAttempt ++ [.call (secondText 42) (.registerWait (waitFor 1 2 ['a'])),
    .call (secondText 43) (.renewLease 1 1 ['a'] (secondText 43))]

/-- Between the interruption and the pause the instance starts another task and finishes it. -/
def restartedInstance : List RecoveryAction :=
  interruptedAttempt ++ [.call (secondText 45) (.claim 1 2 2 (some ['b']) (secondText 45)),
    .call (secondText 46) (.updateState (moveTask 2 .running .complete) (secondText 46))]

/-- The first suspends an attempt whose lease was renewed since it was read, the second pauses
an instance that has started an attempt since. -/
theorem recovery_touches_renewed_and_restarted :
    (∃ state state', (recoveryMachine sampleTexts).Reachable state ∧
      (recoveryMachine sampleTexts).step state (.scan (secondText 44) 0 none) = some state' ∧
      ¬ RecoverySafe state (.scan (secondText 44) 0 none) state') ∧
    ∃ state state', (recoveryMachine sampleTexts).Reachable state ∧
      (recoveryMachine sampleTexts).step state (.scan (secondText 47) 0 none) = some state' ∧
      ¬ RecoverySafe state (.scan (secondText 47) 0 none) state' := by
  constructor
  · have run : (((recoveryMachine sampleTexts).run ⟨.empty, 0, [], []⟩ renewedAttempt).any
        fun state => ((recoveryMachine sampleTexts).step state
          (.scan (secondText 44) 0 none)).any fun state' => state.scans[0]?.any fun scan =>
            state.store.attempts.any fun row => state'.store.attempts.any fun after =>
              after.id = row.id ∧ after.status ≠ row.status ∧
                .renewed row.id ∈ state.history.drop scan.historyLength) = true := by
      decide
    obtain ⟨state, ran, checked⟩ := (Option.any_eq_true _ _).mp run
    obtain ⟨state', step, checked⟩ := (Option.any_eq_true _ _).mp checked
    obtain ⟨scan, found, checked⟩ := (Option.any_eq_true _ _).mp checked
    obtain ⟨row, mem, checked⟩ := List.any_eq_true.mp checked
    obtain ⟨after, afterMem, checked⟩ := List.any_eq_true.mp checked
    obtain ⟨same, changed, renewed⟩ := of_decide_eq_true checked
    refine ⟨state, state', Machine.reachable_of_run .start ran, step, ?_⟩
    exact fun safe =>
      safe.unrenewed _ _ _ rfl scan found row mem after afterMem same changed renewed
  · have run : (((recoveryMachine sampleTexts).run ⟨.empty, 0, [], []⟩ restartedInstance).any
        fun state => ((recoveryMachine sampleTexts).step state
          (.scan (secondText 47) 0 none)).any fun state' => state.scans[0]?.any fun scan =>
            state.store.instances.any fun row => state'.store.instances.any fun after =>
              after.id = row.id ∧ after.status ≠ row.status ∧
                .started row.id 2 ∈ state.history.drop scan.historyLength) = true := by
      decide
    obtain ⟨state, ran, checked⟩ := (Option.any_eq_true _ _).mp run
    obtain ⟨state', step, checked⟩ := (Option.any_eq_true _ _).mp checked
    obtain ⟨scan, found, checked⟩ := (Option.any_eq_true _ _).mp checked
    obtain ⟨row, mem, checked⟩ := List.any_eq_true.mp checked
    obtain ⟨after, afterMem, checked⟩ := List.any_eq_true.mp checked
    obtain ⟨same, changed, started⟩ := of_decide_eq_true checked
    refine ⟨state, state', Machine.reachable_of_run .start ran, step, ?_⟩
    exact fun safe =>
      safe.notStarted _ _ _ rfl scan found row mem after afterMem same changed 2 started

end Foco.AgentRuntime
