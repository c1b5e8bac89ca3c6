import Foco.PlanDispatch

/-!
Dispatchers, recovery scans and cancellations on one plan store, in any order of their statements
and with the clock moving on between them. An attempt that is begun is reserved: active, and
bound to no task. It is settled once, by the task that is bound to it or by its end, and a call
that reports no success has changed nothing.
-/
namespace Foco.PlanRuntime
open Foco.RustText Foco.AgentRuntime Foco.Table Foco.Programs Foco.Runs Foco.Result

/-! ## Calls -/

/-- A call of one of the operations. -/
inductive PlanCall where
  | begin (planId : PlanId) (phaseId : PlanPhaseId) (trigger : PlanPhaseAttemptTrigger)
      (dispatchOwnerIncarnation : Text)
  | attach (attemptId : PlanPhaseAttemptId) (implementationChatId : ChatId)
      (agentTeamId : AgentTeamId) (agentTaskId : AgentTaskId) (dispatchOwnerIncarnation : Text)
      (known : Bool)
  | failUnbound (dispatch : UnboundDispatch)
  | recover (errorMessage currentDispatchOwnerIncarnation : Text)
  | cancel (planId : PlanId)

/-- The program of a call; its result says whether the call did what it is for. -/
def PlanCall.program (times : PlanTimes) : PlanCall → PlanProgram Bool
  | .begin planId phaseId trigger owner =>
    (fun _ => true) <$> beginPlanPhaseAttempt times planId phaseId trigger owner
  | .attach attemptId chatId teamId taskId owner known =>
    (fun _ => true) <$> attachPlanPhaseAttemptRun times attemptId chatId teamId taskId owner known
  | .failUnbound dispatch => failUnboundPlanPhaseDispatchAttempt times dispatch
  | .recover errorMessage owner =>
    (fun count => decide (count ≠ 0)) <$>
      failRunningPlanPhasesWithoutAgentRuns times errorMessage owner
  | .cancel planId => (fun _ => true) <$> cancelPlan times planId

/-- The attempts that a call may bind, and to what: the one it names, reserved by its own
dispatcher, to the task it names. -/
def PlanCall.binds : PlanCall → PlanPhaseAttempt → PlanPhaseRun → Prop
  | .attach attemptId chatId teamId taskId owner _, row, run =>
    row.id = trim attemptId ∧ row.dispatchOwnerIncarnation = some (trim owner) ∧
      run = ⟨some chatId, some teamId, some taskId⟩
  | _, _, _ => False

/-! ## What statements do to attempts -/

/-- What a statement does to an attempt: nothing, it closes one that is active, or it binds one
that is reserved. -/
inductive AttemptChange (binds : PlanPhaseAttempt → PlanPhaseRun → Prop)
    (row row' : PlanPhaseAttempt) : Prop where
  | kept (same : row' = row)
  | closed (active : row.isActive = true) (run : row'.run = row.run)
      (ended : row'.isActive = false)
  | bound (reserved : row.isReserved = true) (binds : binds row row'.run)

/-- What a statement does to the attempts of a table. -/
def AttemptsChange (binds : PlanPhaseAttempt → PlanPhaseRun → Prop)
    (rows rows' : List PlanPhaseAttempt) : Prop :=
  ∀ row ∈ rows, ∃ row' ∈ rows', row'.toPlanPhaseAttemptKey = row.toPlanPhaseAttemptKey ∧
    AttemptChange binds row row'

variable {binds : PlanPhaseAttempt → PlanPhaseRun → Prop}

theorem AttemptsChange.refl (rows : List PlanPhaseAttempt) : AttemptsChange binds rows rows :=
  fun row mem => ⟨row, mem, rfl, .kept rfl⟩

theorem AttemptsChange.append {rows rows' : List PlanPhaseAttempt}
    (change : AttemptsChange binds rows rows') (row : PlanPhaseAttempt) :
    AttemptsChange binds rows (rows' ++ [row]) := by
  intro old mem
  obtain ⟨new, newMem, change⟩ := change old mem
  exact ⟨new, List.mem_append_left _ newMem, change⟩

theorem AttemptsChange.update {rows : List PlanPhaseAttempt} {selects : PlanPhaseAttempt → Bool}
    {set : PlanPhaseAttempt → PlanPhaseAttemptState}
    (changes : ∀ row, selects row = true →
      AttemptChange binds row { row with toPlanPhaseAttemptState := set row }) :
    AttemptsChange binds rows
      (update selects (fun row => { row with toPlanPhaseAttemptState := set row }) rows) := by
  intro row mem
  by_cases selected : selects row = true
  · exact ⟨_, mem_update_of mem selected, rfl, changes row selected⟩
  · exact ⟨row, mem_update_of_not mem (Bool.of_not_eq_true selected), rfl, .kept rfl⟩

theorem PlanPhaseAttempt.isReserved_iff {row : PlanPhaseAttempt} :
    row.isReserved = true ↔ row.isActive = true ∧ row.run = .unbound := by
  simp [isReserved]

namespace PlanStore

variable {store store' : PlanStore}

theorem planIds (store : PlanStore) : Unique (fun row : Plan => row.id) store.plans :=
  (List.pairwise_map (f := Plan.toPlanKey)).mp store.schema.planIds

theorem attemptIds (store : PlanStore) :
    Unique (fun row : PlanPhaseAttempt => row.id) store.attempts :=
  (List.pairwise_map (f := PlanPhaseAttempt.toPlanPhaseAttemptKey)).mp store.schema.attemptIds

/-- The plan of an attempt exists. -/
theorem attempt_plan {row : PlanPhaseAttempt} (mem : row ∈ store.attempts) :
    row.planId ∈ store.plans.map (·.id) := by
  have exists_ := store.schema.attemptPlans _ (List.mem_map_of_mem mem)
  rw [PlanTables.keys, List.map_map] at exists_
  exact exists_

@[simp] theorem updatePlans_attempts (selects : Plan → Bool) (set : Plan → PlanState) :
    (store.updatePlans selects set).attempts = store.attempts := rfl

@[simp] theorem updatePhases_attempts (selects : PlanPhase → Bool)
    (set : PlanPhase → PlanPhaseState) :
    (store.updatePhases selects set).attempts = store.attempts := rfl

@[simp] theorem updateSteps_attempts (selects : PlanStep → Bool)
    (set : PlanStep → PlanStepState) :
    (store.updateSteps selects set).attempts = store.attempts := rfl

@[simp] theorem updateAttempts_attempts (selects : PlanPhaseAttempt → Bool)
    (set : PlanPhaseAttempt → PlanPhaseAttemptState) :
    (store.updateAttempts selects set).attempts =
      update selects (fun row => { row with toPlanPhaseAttemptState := set row })
        store.attempts := rfl

/-- No rewrite touches a key. -/
theorem rewrite_keys {tables : PlanTables} (same : tables.keys = store.keys) :
    (store.rewrite tables same).keys = store.keys := same

@[simp] theorem updatePlans_keys (selects : Plan → Bool) (set : Plan → PlanState) :
    (store.updatePlans selects set).keys = store.keys := rewrite_keys _

@[simp] theorem updatePhases_keys (selects : PlanPhase → Bool)
    (set : PlanPhase → PlanPhaseState) :
    (store.updatePhases selects set).keys = store.keys := rewrite_keys _

@[simp] theorem updateSteps_keys (selects : PlanStep → Bool) (set : PlanStep → PlanStepState) :
    (store.updateSteps selects set).keys = store.keys := rewrite_keys _

@[simp] theorem updateAttempts_keys (selects : PlanPhaseAttempt → Bool)
    (set : PlanPhaseAttempt → PlanPhaseAttemptState) :
    (store.updateAttempts selects set).keys = store.keys := rewrite_keys _

/-- A rewrite of a plan keeps the attempts and the keys. -/
theorem updatePlan_kept {selects : Plan → Bool} {set : Plan → PlanState} {otherwise : PlanError}
    (h : store.updatePlan selects set otherwise = .ok store') :
    store'.attempts = store.attempts ∧ store'.keys = store.keys := by
  unfold updatePlan at h
  split at h
  · cases h
    simp
  · cases h

theorem updatePlan_hits {selects : Plan → Bool} {set : Plan → PlanState} {otherwise : PlanError}
    (hit : store.plans.countP selects = 1) :
    store.updatePlan selects set otherwise = .ok (store.updatePlans selects set) := if_pos hit

@[inherit_doc updatePlan_kept]
theorem updatePhase_kept {selects : PlanPhase → Bool} {set : PlanPhase → PlanPhaseState}
    {otherwise : PlanError} (h : store.updatePhase selects set otherwise = .ok store') :
    store'.attempts = store.attempts ∧ store'.keys = store.keys := by
  unfold updatePhase at h
  split at h
  · cases h
    simp
  · cases h

theorem insertAttempt_eq_ok {row : PlanPhaseAttempt} (h : store.insertAttempt row = .ok store') :
    store'.attempts = store.attempts ++ [row] ∧ store'.keys.plans = store.keys.plans := by
  simp only [insertAttempt] at h
  split at h
  · cases h
    exact ⟨rfl, rfl⟩
  · cases h

end PlanStore

/-! ## The transactions -/

/-- What a statement does to a store: the attempts change one by one, and no plan and no attempt
goes away. -/
structure StoreStep (binds : PlanPhaseAttempt → PlanPhaseRun → Prop) (store store' : PlanStore) :
    Prop where
  changes : AttemptsChange binds store.attempts store'.attempts
  plans : store'.keys.plans = store.keys.plans

theorem StoreStep.refl (store : PlanStore) : StoreStep binds store store :=
  ⟨.refl _, rfl⟩

section Transactions

variable {store store' : PlanStore} {now : Timestamp}

theorem cancelSupersededMerges_step (planId : PlanId) (phaseId : PlanPhaseId) (now : Timestamp)
    (phase : PlanPhase) :
    StoreStep binds store (cancelSupersededMerges planId phaseId now phase store) := by
  unfold cancelSupersededMerges
  split
  · refine ⟨?_, by simp⟩
    apply AttemptsChange.update
    intro row selected
    simp only [decide_eq_true_eq] at selected
    exact .closed selected.2.2.2 rfl rfl
  · exact .refl store

variable (binds) in
theorem beginAttempt_step {planId : PlanId} {phaseId : PlanPhaseId}
    {trigger : PlanPhaseAttemptTrigger} {owner : Text} {deadlineAt : Timestamp}
    {attemptId : PlanPhaseAttemptId}
    (h : beginAttempt planId phaseId trigger owner deadlineAt now store =
      .ok (store', attemptId)) :
    StoreStep binds store store' ∧ attemptId ∈ store'.attempts.map (·.id) := by
  obtain ⟨phase, -, h⟩ := bind_eq_ok.mp h
  obtain ⟨inserted, insert, h⟩ := bind_eq_ok.mp h
  obtain ⟨started, start, h⟩ := bind_eq_ok.mp h
  obtain ⟨running, run, h⟩ := bind_eq_ok.mp h
  cases h
  obtain ⟨attempts, plans⟩ := PlanStore.insertAttempt_eq_ok insert
  obtain ⟨startAttempts, startKeys⟩ := PlanStore.updatePhase_kept start
  obtain ⟨runAttempts, runKeys⟩ := PlanStore.updatePlan_kept run
  have superseded : StoreStep binds store _ :=
    cancelSupersededMerges_step planId phaseId now phase
  have same : store'.attempts = inserted.attempts := by
    rw [runAttempts, startAttempts]
    rfl
  refine ⟨⟨?_, ?_⟩, ?_⟩
  · rw [same, attempts]
    exact superseded.changes.append _
  · rw [runKeys, startKeys]
    exact plans.trans superseded.plans
  · rw [same, attempts]
    simp

theorem isReservedUntil_iff {attemptId : PlanPhaseAttemptId} {owner : Text}
    {deadlineAt : Timestamp} {row : PlanPhaseAttempt} :
    isReservedUntil attemptId owner deadlineAt row = true ↔
      row.id = attemptId ∧ row.isReserved = true ∧ row.dispatchOwnerIncarnation = some owner ∧
        row.dispatchDeadlineAt = some deadlineAt := by
  simp [isReservedUntil, and_assoc]

theorem attachRun_step {attempt : PlanPhaseAttempt} {run : PlanPhaseRun} {owner : Text}
    {deadlineAt : Timestamp} {known : Bool}
    (h : attachRun attempt run owner deadlineAt now known store = .ok (store', ())) :
    StoreStep (fun row bound => bound = run ∧ row.id = attempt.id ∧
      row.dispatchOwnerIncarnation = some owner ∧ row.dispatchDeadlineAt = some deadlineAt ∧
      now < deadlineAt) store store' := by
  unfold attachRun at h
  dsimp only at h
  split at h
  · cases h
  · split at h
    · cases h
    · obtain ⟨attached, attach, h⟩ := bind_eq_ok.mp h
      cases h
      obtain ⟨attempts, keys⟩ := PlanStore.updatePhase_kept attach
      refine ⟨?_, by rw [keys, PlanStore.updateAttempts_keys]⟩
      rw [attempts]
      apply AttemptsChange.update
      intro row selected
      obtain ⟨until_, early⟩ := Bool.and_eq_true_iff.mp selected
      obtain ⟨named, reserved, owned, deadline⟩ := isReservedUntil_iff.mp until_
      exact .bound reserved ⟨rfl, named, owned, deadline, of_decide_eq_true early⟩

variable (binds) in
theorem failUnbound_step {dispatch : UnboundDispatch} {closed : Bool}
    (h : failUnbound dispatch now store = .ok (store', closed)) :
    StoreStep binds store store' ∧ (closed = false → store' = store) := by
  unfold failUnbound at h
  dsimp only at h
  split at h
  · cases h
    exact ⟨.refl store, fun _ => rfl⟩
  · obtain ⟨failed, fail, h⟩ := bind_eq_ok.mp h
    obtain ⟨ended, stop, h⟩ := bind_eq_ok.mp h
    cases h
    obtain ⟨failAttempts, failKeys⟩ := PlanStore.updatePhase_kept fail
    obtain ⟨stopAttempts, stopKeys⟩ := PlanStore.updatePlan_kept stop
    refine ⟨⟨?_, ?_⟩, nofun⟩
    case refine_2 => rw [stopKeys, failSteps, PlanStore.updateSteps_keys, failKeys,
      PlanStore.updateAttempts_keys]
    rw [stopAttempts, failSteps, PlanStore.updateSteps_attempts, failAttempts]
    apply AttemptsChange.update
    intro row selected
    simp only [Bool.and_eq_true, isReservedUntil_iff] at selected
    have reserved := PlanPhaseAttempt.isReserved_iff.mp selected.1.1.2.1
    exact .closed reserved.1 rfl rfl

variable (binds) in
theorem recoverPhase_step {planId : PlanId} {phaseId : PlanPhaseId} {errorMessage owner : Text}
    {recovered : Bool}
    (h : recoverPhase planId phaseId errorMessage owner now store = .ok (store', recovered)) :
    StoreStep binds store store' ∧ (recovered = false → store' = store) := by
  unfold recoverPhase at h
  dsimp only at h
  split at h
  · cases h
    exact ⟨.refl store, fun _ => rfl⟩
  · obtain ⟨ended, stop, h⟩ := bind_eq_ok.mp h
    cases h
    obtain ⟨attempts, keys⟩ := PlanStore.updatePlan_kept stop
    refine ⟨⟨?_, by rw [keys]; simp [failSteps]⟩, nofun⟩
    rw [attempts]
    apply AttemptsChange.update
    intro row selected
    simp only [Bool.and_eq_true] at selected
    have reserved := PlanPhaseAttempt.isReserved_iff.mp selected.1.2
    exact .closed reserved.1 rfl rfl

/-- A phase is recovered only while its plan is open, so its plan can fail with it. -/
theorem recoverPhase_ne_error {planId : PlanId} {phaseId : PlanPhaseId}
    {errorMessage owner : Text} {e : PlanError} :
    recoverPhase planId phaseId errorMessage owner now store ≠ .error e := by
  intro h
  unfold recoverPhase at h
  dsimp only at h
  split at h
  · cases h
  · rename_i recovers
    have one := of_not_not recovers
    obtain ⟨phase, -, selected⟩ := List.countP_pos_iff.mp (one ▸ Nat.one_pos)
    simp only [Bool.and_eq_true] at selected
    obtain ⟨plan, planMem, opened⟩ := List.any_eq_true.mp selected.1.2
    simp only [Bool.and_eq_true, decide_eq_true_eq] at opened
    rcases bind_eq_error.mp h with stop | ⟨_, _, h⟩
    · have hit : store.plans.countP
          (fun row => decide (row.id = planId ∧ row.status.isOpen = true)) = 1 := by
        apply countP_eq_one_of_unique store.planIds planMem (decide_eq_true opened)
        intro other _ selected
        rw [(of_decide_eq_true selected).1, opened.1]
      cases stop.symm.trans (PlanStore.updatePlan_hits hit)
    · cases h

variable (binds) in
theorem cancelPhases_step (planId : PlanId) :
    StoreStep binds store (cancelPhases planId now store) :=
  ⟨.refl _, by simp [cancelPhases]⟩

variable (binds) in
theorem cancelSteps_step (planId : PlanId) :
    StoreStep binds store (cancelSteps planId now store) :=
  ⟨.refl _, by simp [cancelSteps]⟩

variable (binds) in
theorem markCancelled_step (planId : PlanId) :
    StoreStep binds store (markCancelled planId now store) :=
  ⟨.refl _, by simp [markCancelled]⟩

variable (binds) in
theorem cancelAttempts_step (planId : PlanId) :
    StoreStep binds store (cancelAttempts planId now store) := by
  refine ⟨?_, by simp [cancelAttempts]⟩
  apply AttemptsChange.update
  intro row selected
  simp only [decide_eq_true_eq] at selected
  exact .closed selected.2 rfl rfl

end Transactions

/-! ## What the operations promise -/

/-- What statements do to the world: the clock goes on, and no plan and no attempt goes away. -/
structure Later (before after : PlanWorld) : Prop where
  clock : before.clock ≤ after.clock
  plans : before.store.plans.map (·.id) ⊆ after.store.plans.map (·.id)
  attempts : before.store.attempts.map (·.id) ⊆ after.store.attempts.map (·.id)

theorem Later.refl (world : PlanWorld) : Later world world :=
  ⟨le_refl _, List.Subset.refl _, List.Subset.refl _⟩

theorem Later.trans (first second third : PlanWorld) (before : Later first second)
    (after : Later second third) : Later first third :=
  ⟨before.clock.trans after.clock, List.Subset.trans before.plans after.plans,
    List.Subset.trans before.attempts after.attempts⟩

theorem StoreStep.later {world : PlanWorld} {store : PlanStore}
    (step : StoreStep binds world.store store) : Later world { world with store } where
  clock := le_refl _
  plans := by
    have same := congrArg (List.map PlanKey.id) step.plans
    simp only [PlanTables.keys, List.map_map] at same
    exact same ▸ List.Subset.refl _
  attempts := by
    intro id mem
    obtain ⟨row, rowMem, rfl⟩ := List.mem_map.mp mem
    obtain ⟨row', rowMem', key, -⟩ := step.changes row rowMem
    exact List.mem_map.mpr ⟨row', rowMem', congrArg PlanPhaseAttemptKey.id key⟩

instance : Trans Later Later Later := ⟨fun before after => before.trans _ _ _ after⟩

theorem Later.plan_isSome {before after : PlanWorld} (later : Later before after) {id : PlanId}
    (mem : id ∈ before.store.plans.map (·.id)) : (after.store.plan id).isSome = true := by
  obtain ⟨row, rowMem, same⟩ := List.mem_map.mp (later.plans mem)
  rw [PlanStore.plan, List.find?_isSome]
  exact ⟨row, rowMem, decide_eq_true same⟩

theorem Later.attempt_isSome {before after : PlanWorld} (later : Later before after)
    {id : PlanPhaseAttemptId} (mem : id ∈ before.store.attempts.map (·.id)) :
    (after.store.attempt id).isSome = true := by
  obtain ⟨row, rowMem, same⟩ := List.mem_map.mp (later.attempts mem)
  rw [PlanStore.attempt, List.find?_isSome]
  exact ⟨row, rowMem, decide_eq_true same⟩

abbrev PlanMove := Move PlanWorld PlanStatement

/-- Statements that left the tables as they were. -/
def Quiet (moves : List PlanMove) : Prop := ∀ move ∈ moves, move.after.store = move.before.store

/-- A call that fails, or whose result says that it did nothing, has changed nothing. -/
def Honest {α : Type} (idle : α → Prop) (moves : List PlanMove) : Except PlanError α → Prop
  | .ok a => idle a → Quiet moves
  | .error _ => Quiet moves

/-- A statement that binds an attempt to another run. -/
def Rebinds (move : PlanMove) (row : PlanPhaseAttempt) (run : PlanPhaseRun) : Prop :=
  row ∈ move.before.store.attempts ∧ run ≠ row.run ∧
    ∃ row' ∈ move.after.store.attempts, row'.id = row.id ∧ row'.run = run

/-- A reading of the clock before the deadline of an attempt. -/
def ReadBefore (times : PlanTimes) (row : PlanPhaseAttempt) (seen : PlanMove) : Prop :=
  seen.label = .clock ∧ ∀ deadline, row.dispatchDeadlineAt = some (times.toRfc3339 deadline) →
    seen.before.clock ≤ times.last → seen.before.clock < deadline

/-- A call binds what it may bind, and just before it does it reads the clock, which stands before
the deadline of the attempt. -/
def InTime (times : PlanTimes) (binds : PlanPhaseAttempt → PlanPhaseRun → Prop)
    (moves : List PlanMove) : Prop :=
  ∀ earlier move later, moves = earlier ++ move :: later → ∀ row run, Rebinds move row run →
    binds row run ∧ ∃ seen ∈ earlier.getLast?, ReadBefore times row seen

theorem Quiet.nil : Quiet [] := fun _ mem => absurd mem List.not_mem_nil

theorem Quiet.concat {moves : List PlanMove} (quiet : Quiet moves) {move : PlanMove}
    (same : move.after.store = move.before.store) : Quiet (moves ++ [move]) := by
  intro other mem
  rcases List.mem_append.mp mem with old | new
  · exact quiet other old
  · rw [List.mem_singleton.mp new]
    exact same

theorem InTime.nil (times : PlanTimes) : InTime times binds [] := by
  intro earlier move later split
  simp at split

theorem InTime.concat {times : PlanTimes} {moves : List PlanMove}
    (inTime : InTime times binds moves) (move : PlanMove)
    (last : ∀ row run, Rebinds move row run →
      binds row run ∧ ∃ seen ∈ moves.getLast?, ReadBefore times row seen) :
    InTime times binds (moves ++ [move]) := by
  intro earlier other later split row run rebinds
  rcases List.eq_nil_or_concat later with rfl | ⟨rest, final, rfl⟩
  · obtain ⟨rfl, same⟩ := List.append_inj' split rfl
    cases same
    exact last row run rebinds
  · rw [List.concat_eq_append, ← List.cons_append, ← List.append_assoc] at split
    obtain ⟨rfl, -⟩ := List.append_inj' split rfl
    exact inTime earlier other rest rfl row run rebinds

/-- A statement that leaves the tables binds nothing. -/
theorem not_rebinds {move : PlanMove} (same : move.after.store = move.before.store)
    (row : PlanPhaseAttempt) (run : PlanPhaseRun) : ¬Rebinds move row run := by
  rintro ⟨mem, other, row', mem', id, rfl⟩
  rw [same] at mem'
  have sameRow : row' = row := move.before.store.attemptIds.eq mem' mem id
  rw [sameRow] at other
  exact other rfl

/-- Only an attempt that is reserved is bound. -/
theorem AttemptsChange.rebinds {move : PlanMove}
    (changes : AttemptsChange binds move.before.store.attempts move.after.store.attempts) {row : PlanPhaseAttempt}
    {run : PlanPhaseRun} (rebinds : Rebinds move row run) :
    row.isReserved = true ∧ binds row run := by
  obtain ⟨mem, other, row', mem', id, rfl⟩ := rebinds
  obtain ⟨changed, changedMem, key, change⟩ := changes row mem
  have same : row' = changed := move.after.store.attemptIds.eq mem' changedMem
    (id.trans (congrArg PlanPhaseAttemptKey.id key).symm)
  rw [same] at other ⊢
  cases change with
  | kept same => exact absurd (same ▸ rfl) other
  | closed _ run _ => exact absurd run other
  | bound reserved binds => exact ⟨reserved, binds⟩

section Promises

variable {α β : Type} {times : PlanTimes} {always : List PlanMove → Prop}
  {ends : List PlanMove → Except PlanError β → Prop} {moves : List PlanMove}

/-- A statement that only reads leaves a call that has done nothing so. -/
theorem promises_reading {label : PlanStatement} {read : PlanWorld → α} {f : α → PlanProgram β}
    (quiet : Quiet moves) (inTime : InTime times binds moves)
    (rest : ∀ world, Since Later moves world →
      Quiet (moves ++ [⟨label, world, world⟩]) →
      InTime times binds (moves ++ [⟨label, world, world⟩]) →
      (f (read world)).Promises Later (InTime times binds) ends (moves ++ [⟨label, world, world⟩])) :
    (Program.one label (fun world => .ok (world, read world)) >>= f).Promises Later
      (InTime times binds) ends moves := by
  apply Program.Promises.one_bind
  · intro world after a since ran
    cases ran
    have kept := inTime.concat ⟨label, world, world⟩ fun row run rebinds =>
      absurd rebinds (not_rebinds rfl row run)
    exact ⟨kept, rest world since (quiet.concat rfl) kept⟩
  · intro world e _ ran
    cases ran

/-- A call that has written ends with a row that it finds again. -/
theorem promises_found {row : Type} {read : PlanStore → Option row} {otherwise : PlanError}
    (inTime : InTime times binds moves)
    (found : ∀ world, Since Later moves world → (read world.store).isSome = true) :
    (query read >>= fun found => decided (found.elim (.error otherwise) .ok)).Promises Later
      (InTime times binds) (Honest fun _ => False) moves := by
  apply Program.Promises.one_bind
  · intro world after result since ran
    cases ran
    refine ⟨inTime.concat _ fun row run rebinds => absurd rebinds (not_rebinds rfl row run), ?_⟩
    obtain ⟨row, isRow⟩ := Option.isSome_iff_exists.mp (found world since)
    rw [isRow]
    exact False.elim
  · intro world e _ ran
    cases ran

/-- A transaction that fails has done nothing. -/
theorem promises_transaction {body : PlanStore → Except PlanError (PlanStore × β)}
    (fails : ∀ store e, body store = .error e → ends moves (.error e))
    (succeeds : ∀ (world : PlanWorld) store b, Since Later moves world →
      body world.store = .ok (store, b) →
      InTime times binds (moves ++ [⟨.write, world, { world with store }⟩]) ∧
        ends (moves ++ [⟨.write, world, { world with store }⟩]) (.ok b)) :
    (transaction body).Promises Later (InTime times binds) ends moves := by
  apply Program.Promises.one
  · intro world after b since ran
    obtain ⟨⟨store, c⟩, wrote, ran⟩ := bind_eq_ok.mp ran
    cases ran
    exact succeeds world store _ since wrote
  · intro world e _ ran
    rcases bind_eq_error.mp ran with failed | ⟨_, _, ran⟩
    · exact fails world.store e failed
    · cases ran

/-- A statement that always succeeds and binds nothing. -/
theorem promises_execute {statement : PlanStore → PlanStore} {f : Unit → PlanProgram β}
    (inTime : InTime times binds moves)
    (step : ∀ store, StoreStep (fun _ _ => False) store (statement store))
    (rest : ∀ world, Since Later moves world →
      InTime times binds
        (moves ++ [⟨.write, world, { world with store := statement world.store }⟩]) →
      (f ()).Promises Later (InTime times binds) ends
        (moves ++ [⟨.write, world, { world with store := statement world.store }⟩])) :
    (execute statement >>= f).Promises Later (InTime times binds) ends moves := by
  apply Program.Promises.bind
  apply promises_transaction nofun
  intro world store _ since ran
  cases ran
  have inTime' := inTime.concat
    ⟨.write, world, { world with store := statement world.store }⟩
    fun row run rebinds => False.elim ((step world.store).changes.rebinds rebinds).2
  exact ⟨inTime', rest world since inTime'⟩

end Promises

variable {times : PlanTimes}

theorem normalizeRequiredDispatchOwner_eq_ok {value owner : Text}
    (h : normalizeRequiredDispatchOwner value = .ok owner) : owner = trim value := by
  simp only [normalizeRequiredDispatchOwner] at h
  split at h
  · cases h
  · cases h
    rfl

theorem attach_promises (attemptId : PlanPhaseAttemptId) (implementationChatId : ChatId)
    (agentTeamId : AgentTeamId) (agentTaskId : AgentTaskId) (dispatchOwnerIncarnation : Text)
    (known : Bool) :
    (attachPlanPhaseAttemptRun times attemptId implementationChatId agentTeamId agentTaskId
      dispatchOwnerIncarnation known).Promises Later
        (InTime times (PlanCall.attach attemptId implementationChatId agentTeamId agentTaskId
          dispatchOwnerIncarnation known).binds) (Honest fun _ => False) [] := by
  unfold attachPlanPhaseAttemptRun
  refine Program.Promises.done_bind ?_ fun _ _ => .nil
  intro owner normalized
  refine promises_reading .nil (.nil times) ?_
  intro first _ quiet inTime
  refine Program.Promises.done_bind ?_ fun _ _ => quiet
  intro attempt found
  refine Program.Promises.done_bind ?_ fun _ _ => quiet
  intro deadlineAt reserved
  refine promises_reading quiet inTime ?_
  intro second sinceFirst quiet inTime
  refine Program.Promises.done_bind ?_ fun _ _ => quiet
  intro expired _
  split
  · exact quiet
  · refine promises_reading quiet inTime ?_
    intro third sinceSecond quiet inTime
    refine .bind (promises_transaction (fun _ _ _ => quiet) ?_)
    intro fourth store _ sinceThird wrote
    have step := attachRun_step wrote
    have inTime' := inTime.concat ⟨.write, fourth, { fourth with store }⟩ (by
      intro row run rebinds
      obtain ⟨-, bound, named, owned, deadline, early⟩ := step.changes.rebinds rebinds
      have isAttempt := elim_eq_ok.mp found
      have named' : attempt.id = trim attemptId := by simpa using List.find?_some isAttempt
      rw [normalizeRequiredDispatchOwner_eq_ok normalized] at owned
      refine ⟨⟨named.trans named', owned, bound⟩, _, by rw [List.getLast?_concat]; rfl, rfl, ?_⟩
      intro instant same inRange
      rw [deadline, Option.some.injEq] at same
      by_contra late
      exact absurd (same ▸ early)
        (not_lt_of_ge (times.ordered _ _ (Nat.le_of_not_lt late) inRange)))
    refine ⟨inTime', ?_⟩
    apply promises_found inTime'
    intro fifth sinceFourth
    have mem := List.mem_of_find?_eq_some (elim_eq_ok.mp found)
    have since := (sinceFirst.last.trans _ _ _ sinceSecond.last).trans _ _ _
      (sinceThird.last.trans _ _ _ (step.later.trans _ _ _ sinceFourth.last))
    exact since.plan_isSome (first.store.attempt_plan mem)

theorem begin_promises (planId : PlanId) (phaseId : PlanPhaseId)
    (trigger : PlanPhaseAttemptTrigger) (dispatchOwnerIncarnation : Text) :
    (beginPlanPhaseAttempt times planId phaseId trigger dispatchOwnerIncarnation).Promises Later
      (InTime times binds) (Honest fun _ => False) [] := by
  unfold beginPlanPhaseAttempt
  refine Program.Promises.done_bind ?_ fun _ _ => .nil
  intro owner _
  refine promises_reading .nil (.nil times) ?_
  intro first _ quiet inTime
  refine promises_reading quiet inTime ?_
  intro second _ quiet inTime
  refine .bind (promises_transaction (fun _ _ _ => quiet) ?_)
  intro third store attemptId _ wrote
  obtain ⟨step, inserted⟩ := beginAttempt_step (fun _ _ => False) wrote
  have inTime' := inTime.concat ⟨.write, third, { third with store }⟩
    fun row run rebinds => False.elim (step.changes.rebinds rebinds).2
  refine ⟨inTime', ?_⟩
  apply promises_found inTime'
  intro fourth since
  exact since.last.attempt_isSome inserted

theorem failUnbound_promises (dispatch : UnboundDispatch) :
    (failUnboundPlanPhaseDispatchAttempt times dispatch).Promises Later (InTime times binds)
      (Honest (· = false)) [] := by
  unfold failUnboundPlanPhaseDispatchAttempt
  refine Program.Promises.done_bind ?_ fun _ _ => .nil
  intro trimmed _
  refine promises_reading .nil (.nil times) ?_
  intro first _ quiet inTime
  refine promises_transaction (fun _ _ _ => quiet) ?_
  intro second store closed _ wrote
  obtain ⟨step, unchanged⟩ := failUnbound_step (fun _ _ => False) wrote
  refine ⟨inTime.concat ⟨.write, second, { second with store }⟩
    fun row run rebinds => False.elim (step.changes.rebinds rebinds).2, ?_⟩
  intro idle
  exact quiet.concat (unchanged idle)

/-- A phase that is not recovered is left alone, and trying it does not fail. -/
theorem tryFail_promises {moves : List PlanMove} (inTime : InTime times binds moves) (planId : PlanId)
    (phaseId : PlanPhaseId) (errorMessage owner : Text) :
    (tryFailUnboundRunningPlanPhaseForRecovery times planId phaseId errorMessage owner).Promises
      Later (InTime times binds) (fun moves' result => ∃ recovered, result = .ok recovered ∧
        InTime times binds moves' ∧ (recovered = false → Quiet moves → Quiet moves')) moves := by
  unfold tryFailUnboundRunningPlanPhaseForRecovery
  refine Program.Promises.one_bind ?_ nofun
  intro first after now _ ran
  cases ran
  have inTime' := inTime.concat ⟨.clock, first, first⟩
    fun row run rebinds => absurd rebinds (not_rebinds rfl row run)
  refine ⟨inTime', ?_⟩
  refine promises_transaction (fun _ _ failed => absurd failed recoverPhase_ne_error) ?_
  intro second store recovered _ wrote
  obtain ⟨step, unchanged⟩ := recoverPhase_step (fun _ _ => False) wrote
  have inTime'' := inTime'.concat ⟨.write, second, { second with store }⟩
    fun row run rebinds => False.elim (step.changes.rebinds rebinds).2
  exact ⟨inTime'', recovered, rfl, inTime'', fun idle quiet =>
    (quiet.concat rfl).concat (unchanged idle)⟩

/-- A scan that has recovered nothing so far has changed nothing so far. -/
theorem recoverAll_promises {moves : List PlanMove} (phases : List PlanPhase)
    (errorMessage owner : Text) (count : Nat) (inTime : InTime times binds moves)
    (quiet : count = 0 → Quiet moves) :
    (phases.foldlM (fun count (phase : PlanPhase) => do
      let recovered ← tryFailUnboundRunningPlanPhaseForRecovery times phase.planId phase.id
        errorMessage owner
      return if recovered then count + 1 else count) count).Promises Later (InTime times binds)
        (Honest (· = 0)) moves := by
  induction phases generalizing moves count with
  | nil => exact quiet
  | cons phase rest ih =>
    rw [List.foldlM_cons]
    apply Program.Promises.bind
    apply Program.Promises.bind
    apply (tryFail_promises inTime phase.planId phase.id errorMessage owner).mono
    rintro moves' result ⟨recovered, rfl, inTime', unchanged⟩
    apply ih _ inTime'
    cases recovered with
    | true => exact nofun
    | false => exact fun none => unchanged rfl (quiet none)

theorem recover_promises (errorMessage currentDispatchOwnerIncarnation : Text) :
    (failRunningPlanPhasesWithoutAgentRuns times errorMessage
      currentDispatchOwnerIncarnation).Promises Later (InTime times binds) (Honest (· = 0)) [] := by
  unfold failRunningPlanPhasesWithoutAgentRuns
  refine Program.Promises.done_bind ?_ fun _ _ => .nil
  intro owner _
  refine promises_reading .nil (.nil times) ?_
  intro first _ quiet inTime
  refine promises_reading quiet inTime ?_
  intro second _ quiet inTime
  exact recoverAll_promises _ _ _ 0 inTime fun _ => quiet

theorem cancel_promises (planId : PlanId) :
    (cancelPlan times planId).Promises Later (InTime times binds) (Honest fun _ => False) [] := by
  unfold cancelPlan
  refine promises_reading .nil (.nil times) ?_
  intro first _ quiet inTime
  refine Program.Promises.done_bind ?_ fun _ _ => quiet
  intro plan found
  split
  · exact quiet
  · refine promises_reading quiet inTime ?_
    intro second sinceFirst _ inTime
    refine promises_execute inTime (fun _ => cancelPhases_step _ _) ?_
    intro third sinceSecond inTime
    refine promises_execute inTime (fun _ => cancelAttempts_step _ _) ?_
    intro fourth sinceThird inTime
    refine promises_execute inTime (fun _ => cancelSteps_step _ _) ?_
    intro fifth sinceFourth inTime
    refine promises_execute inTime (fun _ => markCancelled_step _ _) ?_
    intro sixth sinceFifth inTime
    apply promises_found inTime
    intro seventh sinceSixth
    have named : trim planId ∈ first.store.plans.map (·.id) := by
      have isPlan := elim_eq_ok.mp found
      exact List.mem_map.mpr ⟨plan, List.mem_of_find?_eq_some isPlan,
        by simpa using List.find?_some isPlan⟩
    have later : Later first seventh := calc
      Later first second := sinceFirst.last
      Later _ third := sinceSecond.last
      Later _ { third with store := cancelPhases plan.id _ third.store } :=
        (cancelPhases_step (fun _ _ => False) plan.id).later
      Later _ fourth := sinceThird.last
      Later _ { fourth with store := cancelAttempts (trim planId) _ fourth.store } :=
        (cancelAttempts_step (fun _ _ => False) (trim planId)).later
      Later _ fifth := sinceFourth.last
      Later _ { fifth with store := cancelSteps (trim planId) _ fifth.store } :=
        (cancelSteps_step (fun _ _ => False) (trim planId)).later
      Later _ sixth := sinceFifth.last
      Later _ { sixth with store := markCancelled (trim planId) _ sixth.store } :=
        (markCancelled_step (fun _ _ => False) (trim planId)).later
      Later _ seventh := sinceSixth.last
    exact later.plan_isSome named

theorem PlanCall.promises (call : PlanCall) :
    (call.program times).Promises Later (InTime times call.binds) (Honest (· = false)) [] := by
  cases call with
  | begin planId phaseId trigger owner =>
    apply Program.Promises.map
    apply (begin_promises planId phaseId trigger owner).mono
    intro moves result honest
    cases result with
    | error e => exact honest
    | ok attempt => exact nofun
  | attach attemptId chatId teamId taskId owner known =>
    apply Program.Promises.map
    apply (attach_promises attemptId chatId teamId taskId owner known).mono
    intro moves result honest
    cases result with
    | error e => exact honest
    | ok plan => exact nofun
  | failUnbound dispatch => exact failUnbound_promises dispatch
  | recover errorMessage owner =>
    apply Program.Promises.map
    apply (recover_promises errorMessage owner).mono
    intro moves result honest
    cases result with
    | error e => exact honest
    | ok count => exact fun idle => honest (by simpa using idle)
  | cancel planId =>
    apply Program.Promises.map
    apply (cancel_promises planId).mono
    intro moves result honest
    cases result with
    | error e => exact honest
    | ok plan => exact nofun

theorem AttemptChange.mono {may : PlanPhaseAttempt → PlanPhaseRun → Prop}
    {row row' : PlanPhaseAttempt} (change : AttemptChange binds row row')
    (weaker : ∀ row run, binds row run → may row run) : AttemptChange may row row' := by
  cases change with
  | kept same => exact .kept same
  | closed active run ended => exact .closed active run ended
  | bound reserved binds => exact .bound reserved (weaker _ _ binds)

/-- What any statement of a call does to the world. -/
structure WorldStep (before after : PlanWorld) : Prop where
  later : Later before after
  changes : AttemptsChange (fun _ _ => True) before.store.attempts after.store.attempts

theorem WorldStep.refl (world : PlanWorld) : WorldStep world world := ⟨.refl world, .refl _⟩

theorem StoreStep.worldStep {world : PlanWorld} {store : PlanStore}
    (step : StoreStep binds world.store store) : WorldStep world { world with store } where
  later := step.later
  changes := by
    intro row mem
    obtain ⟨row', mem', key, change⟩ := step.changes row mem
    exact ⟨row', mem', key, change.mono fun _ _ _ => trivial⟩

/-! ## What the statements of an operation do -/

section Respects

variable {α : Type}

theorem reading_respects {label : PlanStatement} {read : PlanWorld → α} :
    (Program.one label (fun world => .ok (world, read world)) :
      PlanProgram α).Respects fun _ => WorldStep := by
  apply Program.Respects.one
  intro world after a ran
  cases ran
  exact .refl world

theorem decided_respects {result : Except PlanError α} :
    (decided result).Respects fun _ => WorldStep := trivial

theorem transaction_respects {body : PlanStore → Except PlanError (PlanStore × α)}
    (step : ∀ store store' a, body store = .ok (store', a) → StoreStep binds store store') :
    (transaction body).Respects fun _ => WorldStep := by
  apply Program.Respects.one
  intro world after a ran
  obtain ⟨⟨store, b⟩, wrote, ran⟩ := bind_eq_ok.mp ran
  cases ran
  exact (step _ _ _ wrote).worldStep

theorem execute_respects {statement : PlanStore → PlanStore}
    (step : ∀ store, StoreStep binds store (statement store)) :
    (execute statement).Respects fun _ => WorldStep := by
  apply transaction_respects
  intro store store' _ ran
  cases ran
  exact step store

end Respects

theorem begin_respects (planId : PlanId) (phaseId : PlanPhaseId)
    (trigger : PlanPhaseAttemptTrigger) (owner : Text) :
    (beginPlanPhaseAttempt times planId phaseId trigger owner).Respects fun _ => WorldStep := by
  unfold beginPlanPhaseAttempt
  refine decided_respects.bind fun _ => ?_
  refine reading_respects.bind fun _ => ?_
  refine reading_respects.bind fun _ => ?_
  refine .bind (transaction_respects fun _ _ _ wrote =>
    (beginAttempt_step (fun _ _ => False) wrote).1) fun _ => ?_
  exact reading_respects.bind fun _ => decided_respects

theorem attach_respects (attemptId : PlanPhaseAttemptId) (chatId : ChatId) (teamId : AgentTeamId)
    (taskId : AgentTaskId) (owner : Text) (known : Bool) :
    (attachPlanPhaseAttemptRun times attemptId chatId teamId taskId owner known).Respects
      fun _ => WorldStep := by
  unfold attachPlanPhaseAttemptRun
  refine decided_respects.bind fun _ => ?_
  refine reading_respects.bind fun _ => ?_
  refine decided_respects.bind fun _ => ?_
  refine decided_respects.bind fun _ => ?_
  refine reading_respects.bind fun _ => ?_
  refine decided_respects.bind fun _ => ?_
  split
  · exact decided_respects
  · refine reading_respects.bind fun _ => ?_
    refine (transaction_respects fun _ _ _ wrote => attachRun_step wrote).bind fun _ => ?_
    exact reading_respects.bind fun _ => decided_respects

theorem failUnbound_respects (dispatch : UnboundDispatch) :
    (failUnboundPlanPhaseDispatchAttempt times dispatch).Respects fun _ => WorldStep := by
  unfold failUnboundPlanPhaseDispatchAttempt
  refine decided_respects.bind fun _ => ?_
  refine reading_respects.bind fun _ => ?_
  exact transaction_respects fun _ _ _ wrote =>
    (failUnbound_step (fun _ _ => False) wrote).1

theorem recoverAll_respects (phases : List PlanPhase) (errorMessage owner : Text) (count : Nat) :
    (phases.foldlM (fun count (phase : PlanPhase) => do
      let recovered ← tryFailUnboundRunningPlanPhaseForRecovery times phase.planId phase.id
        errorMessage owner
      return if recovered then count + 1 else count) count).Respects fun _ => WorldStep := by
  induction phases generalizing count with
  | nil => trivial
  | cons phase rest ih =>
    rw [List.foldlM_cons]
    refine Program.Respects.bind ?_ fun _ => ih _
    refine Program.Respects.bind ?_ fun _ => decided_respects
    refine reading_respects.bind fun _ => ?_
    exact transaction_respects fun _ _ _ wrote =>
      (recoverPhase_step (fun _ _ => False) wrote).1

theorem recover_respects (errorMessage owner : Text) :
    (failRunningPlanPhasesWithoutAgentRuns times errorMessage owner).Respects
      fun _ => WorldStep := by
  unfold failRunningPlanPhasesWithoutAgentRuns
  refine decided_respects.bind fun _ => ?_
  refine reading_respects.bind fun _ => ?_
  refine reading_respects.bind fun _ => ?_
  exact recoverAll_respects _ _ _ 0

theorem cancel_respects (planId : PlanId) :
    (cancelPlan times planId).Respects fun _ => WorldStep := by
  unfold cancelPlan
  refine reading_respects.bind fun _ => ?_
  refine decided_respects.bind fun _ => ?_
  split
  · exact decided_respects
  · refine reading_respects.bind fun _ => ?_
    refine .bind (execute_respects fun _ => cancelPhases_step (fun _ _ => False) _)
      fun _ => ?_
    refine .bind (execute_respects fun _ => cancelAttempts_step (fun _ _ => False) _)
      fun _ => ?_
    refine .bind (execute_respects fun _ => cancelSteps_step (fun _ _ => False) _)
      fun _ => ?_
    refine .bind (execute_respects fun _ => markCancelled_step (fun _ _ => False) _)
      fun _ => ?_
    exact reading_respects.bind fun _ => decided_respects

theorem PlanCall.respects (call : PlanCall) :
    (call.program times).Respects fun _ => WorldStep := by
  cases call with
  | begin planId phaseId trigger owner =>
    exact (begin_respects planId phaseId trigger owner).map _
  | attach attemptId chatId teamId taskId owner known =>
    exact (attach_respects attemptId chatId teamId taskId owner known).map _
  | failUnbound dispatch => exact failUnbound_respects dispatch
  | recover errorMessage owner => exact (recover_respects errorMessage owner).map _
  | cancel planId => exact (cancel_respects planId).map _

end Foco.PlanRuntime
