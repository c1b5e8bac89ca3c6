import Foco.AgentAttempts
import Foco.AgentSchema
import Foco.AgentStatements
import Foco.RecursiveQuery

/-!
Wait rounds over every run: tasks never wait for each other in a circle, the rows of a waiting
task are one round, a registration that succeeds leaves exactly the requested rows and may be
repeated, an unfinished round is never replaced, and each round is recorded by one event. What
a later wait counts as covered is what the events name; the event of a tool call is written
once, so a round that is extended afterwards is forgotten with its rows.
-/
namespace Foco.AgentRuntime
open Foco.RustText Foco.AgentDomain Foco.Table Foco.Runs Foco.RecursiveQuery Foco.Result Relation

/-! ## Who waits for whom -/

/-- A task waits for another. -/
def Waits (tables : AgentTables) (waiting required : AgentTaskId) : Prop :=
  ∃ row ∈ tables.dependencies, row.waitingTaskId = waiting ∧ row.dependencyTaskId = required

/-- The same by a row of a team. -/
def TeamWaits (tables : AgentTables) (teamId : AgentTeamId) (waiting required : AgentTaskId) :
    Prop :=
  ∃ row ∈ tables.dependencies, row.teamId = teamId ∧ row.waitingTaskId = waiting ∧
    row.dependencyTaskId = required

/-- A round of the query of `agent_dependency_path_exists`. -/
def nextDependencies (tables : AgentTables) (teamId : AgentTeamId) (found : List AgentTaskId) :
    List AgentTaskId :=
  (tables.dependencies.filter fun row => row.teamId = teamId ∧ row.waitingTaskId ∈ found ∧
    row.dependencyTaskId ∉ found).map AgentTaskDependency.dependencyTaskId

theorem dependencyPath_eq_saturate (tables : AgentTables) (teamId : AgentTeamId) (fuel : Nat)
    (found : List AgentTaskId) : dependencyPath tables teamId fuel found =
      saturate (nextDependencies tables teamId) fuel found := by
  induction fuel generalizing found with
  | zero => rfl
  | succ fuel ih =>
    unfold dependencyPath saturate
    rw [← ih]
    rfl

theorem nextDependencies_findsNew (tables : AgentTables) (teamId : AgentTeamId) :
    FindsNew (nextDependencies tables teamId) (TeamWaits tables teamId) := by
  intro found target
  simp only [nextDependencies, List.mem_map, List.mem_filter, decide_eq_true_eq]
  constructor
  · rintro ⟨row, ⟨mem, team, known, fresh⟩, rfl⟩
    exact ⟨⟨row.waitingTaskId, known, row, mem, team, rfl, rfl⟩, fresh⟩
  · rintro ⟨⟨source, known, row, mem, team, rfl, rfl⟩, fresh⟩
    exact ⟨row, ⟨mem, team, known, fresh⟩, rfl⟩

/-- The query follows every dependency of the team. -/
theorem dependencyPathExists_iff {tables : AgentTables} {teamId : AgentTeamId}
    {startTaskId targetTaskId : AgentTaskId} :
    dependencyPathExists tables teamId startTaskId targetTaskId = true ↔
      ReflTransGen (TeamWaits tables teamId) startTaskId targetTaskId := by
  have within : ∀ source target, TeamWaits tables teamId source target →
      target ∈ tables.dependencies.map AgentTaskDependency.dependencyTaskId := by
    rintro source target ⟨row, mem, -, -, rfl⟩
    exact List.mem_map_of_mem mem
  have enough : (tables.dependencies.map AgentTaskDependency.dependencyTaskId).length ≤
      tables.dependencies.length := by rw [List.length_map]
  rw [dependencyPathExists, decide_eq_true_eq, dependencyPath_eq_saturate,
    mem_saturate (nextDependencies_findsNew tables teamId) within enough]
  simp only [List.mem_singleton, exists_eq_left]

/-- A task of one team is of no other. -/
theorem task_team {tables : AgentTables} (schema : Schema tables) {teamId teamId' : AgentTeamId}
    {taskId : AgentTaskId} (first : (teamId, taskId) ∈ tables.tasks.map AgentTask.key)
    (second : (teamId', taskId) ∈ tables.tasks.map AgentTask.key) : teamId = teamId' := by
  obtain ⟨row, mem, key⟩ := List.mem_map.mp first
  obtain ⟨row', mem', key'⟩ := List.mem_map.mp second
  obtain ⟨rfl, rfl⟩ := Prod.mk.inj key
  obtain ⟨rfl, ident⟩ := Prod.mk.inj key'
  rw [schema.tasks.ids.eq mem mem' ident.symm]

/-- Whoever a task waits for is of its team. -/
theorem teamWaits_of_waits {tables : AgentTables} (schema : Schema tables) {teamId : AgentTeamId}
    {source target : AgentTaskId} (team : (teamId, source) ∈ tables.tasks.map AgentTask.key)
    (path : ReflTransGen (Waits tables) source target) :
    ReflTransGen (TeamWaits tables teamId) source target ∧
      (teamId, target) ∈ tables.tasks.map AgentTask.key := by
  induction path with
  | refl => exact ⟨.refl, team⟩
  | tail _ step ih =>
    obtain ⟨path, team⟩ := ih
    obtain ⟨row, mem, rfl, rfl⟩ := step
    have same := task_team schema (schema.dependencies.waiting row mem) team
    refine ⟨path.tail ⟨row, mem, same, rfl, rfl⟩, ?_⟩
    rw [← same]
    exact schema.dependencies.required row mem

theorem ensureAgentTaskTeam_eq_ok {tables : AgentTables} {taskId : AgentTaskId}
    {teamId : AgentTeamId} (h : ensureAgentTaskTeam tables taskId teamId = .ok ()) :
    (teamId, taskId) ∈ tables.tasks.map AgentTask.key := by
  unfold ensureAgentTaskTeam at h
  split at h
  · cases h
  · rename_i row found
    split at h
    · rename_i team
      have ident : row.id = taskId := by simpa using List.find?_some found
      rw [← team, ← ident]
      exact List.mem_map_of_mem (List.mem_of_find?_eq_some found)
    · cases h

/-! ## What a registration writes -/

/-- The row of a dependency in a wait round. -/
def WaitRound.row (round : WaitRound) (dependency : AgentTaskId) : AgentTaskDependency where
  teamId := round.teamId
  waitingTaskId := round.waitingTaskId
  dependencyTaskId := dependency
  waitMode := round.waitMode
  pendingToolCallId := round.pendingToolCallId
  deadlineAt := round.deadlineAt

/-- The round that a row belongs to. -/
def AgentTaskDependency.round (row : AgentTaskDependency) :
    AgentTaskWaitMode × Option Text × Option Timestamp :=
  (row.waitMode, row.pendingToolCallId, row.deadlineAt)

theorem matchesWaitRound_iff {round : WaitRound} {row : AgentTaskDependency} :
    matchesWaitRound round row = true ↔ row.round = (round.row row.dependencyTaskId).round := by
  simp only [matchesWaitRound, decide_eq_true_eq, AgentTaskDependency.round, WaitRound.row,
    Prod.mk.injEq]

/-- What the checks of a registration establish. -/
structure WaitRoundChecked (tables : AgentTables) (round : WaitRound) : Prop where
  distinct : dedupeWaitDependencies round.dependencyTaskIds = .ok ()
  nonempty : round.dependencyTaskIds ≠ []
  named : ¬ (round.pendingToolCallId.any fun id => (trim id).isEmpty) = true
  waiting : ensureAgentTaskTeam tables round.waitingTaskId round.teamId = .ok ()
  dependencies : ∀ dependency ∈ round.dependencyTaskIds,
    ensureDependency tables round dependency = .ok ()

theorem registerAgentTaskWait_eq_ok {round : WaitRound} {store : AgentStore}
    {outcome : AgentStore × WaitRegistrationOutcome} :
    registerAgentTaskWaitDependencies round store = .ok outcome ↔
      WaitRoundChecked store.toAgentTables round ∧ storeWaitRound round store = .ok outcome := by
  unfold registerAgentTaskWaitDependencies
  constructor
  · intro h
    obtain ⟨_, distinct, h⟩ := bind_eq_ok.mp h
    split at h
    · cases h
    rename_i nonempty
    split at h
    · cases h
    rename_i named
    obtain ⟨_, waiting, h⟩ := bind_eq_ok.mp h
    obtain ⟨_, dependencies, h⟩ := bind_eq_ok.mp h
    refine ⟨⟨distinct, ?_, named, waiting, forM_eq_ok.mp dependencies⟩, h⟩
    rwa [List.isEmpty_iff] at nonempty
  · rintro ⟨checked, h⟩
    refine bind_eq_ok.mpr ⟨_, checked.distinct, ?_⟩
    rw [if_neg (by simpa using checked.nonempty), if_neg checked.named]
    exact bind_eq_ok.mpr ⟨_, checked.waiting, bind_eq_ok.mpr
      ⟨_, forM_eq_ok.mpr checked.dependencies, h⟩⟩

theorem insertDependencyRows_eq {round : WaitRound} {dependencies : List AgentTaskId}
    {store next : AgentStore} (h : insertDependencyRows round dependencies store = .ok next) :
    next.toAgentTables = { store.toAgentTables with
      dependencies := store.dependencies ++ dependencies.map round.row } := by
  induction dependencies generalizing store with
  | nil =>
    cases h
    rw [List.map_nil, List.append_nil]
  | cons dependency rest ih =>
    obtain ⟨middle, write, tail⟩ := bind_eq_ok.mp h
    have tables := AgentTables.write_eq_ok.mp write
    rw [ih tail, tables, List.append_assoc]
    rfl

/-- What a registration makes of the dependencies: it keeps the rows of other tasks, keeps or
drops those of the task itself, and adds rows of the round. -/
structure WaitRegistered (before after : AgentTables) (round : WaitRound)
    (kept : List AgentTaskDependency) (added : List AgentTaskId) : Prop where
  tables : after = { before with dependencies := kept ++ added.map round.row }
  old : ∀ row ∈ kept, row ∈ before.dependencies
  others : ∀ row ∈ before.dependencies, row.waitingTaskId ≠ round.waitingTaskId → row ∈ kept
  own : ∀ row ∈ kept, row.waitingTaskId = round.waitingTaskId →
    matchesWaitRound round row = true ∧ row.dependencyTaskId ∈ round.dependencyTaskIds
  requested : ∀ dependency ∈ added, dependency ∈ round.dependencyTaskIds
  complete : ∀ dependency ∈ round.dependencyTaskIds, dependency ∈ added ∨
    ∃ row ∈ kept, row.waitingTaskId = round.waitingTaskId ∧ row.dependencyTaskId = dependency
  finished : (∀ row ∈ before.dependencies, row.waitingTaskId = round.waitingTaskId →
      row.pendingToolCallId = round.pendingToolCallId) ∨
    waitRoundIsTerminal before (before.dependencies.filter fun row =>
      row.waitingTaskId = round.waitingTaskId) = true

/-- Every outcome of a registration is of that kind. -/
theorem storeWaitRound_spec {round : WaitRound} {store store' : AgentStore}
    {outcome : WaitRegistrationOutcome} (h : storeWaitRound round store = .ok (store', outcome)) :
    ∃ kept added, WaitRegistered store.toAgentTables store'.toAgentTables round kept added := by
  have mem_existing : ∀ row, row ∈ (store.dependencies.filter fun row =>
      row.waitingTaskId = round.waitingTaskId) ↔
        row ∈ store.dependencies ∧ row.waitingTaskId = round.waitingTaskId := by
    intro row
    rw [List.mem_filter, decide_eq_true_eq]
  unfold storeWaitRound at h
  simp only at h
  split at h
  · -- created
    rename_i none
    obtain ⟨next, write, done⟩ := bind_eq_ok.mp h
    cases done
    have absent : ∀ row ∈ store.dependencies, row.waitingTaskId ≠ round.waitingTaskId := by
      intro row mem same
      have existing := (mem_existing row).mpr ⟨mem, same⟩
      rw [List.isEmpty_iff.mp none] at existing
      exact absurd existing List.not_mem_nil
    exact ⟨store.dependencies, round.dependencyTaskIds, insertDependencyRows_eq write,
      fun _ mem => mem, fun _ mem _ => mem, fun row mem same => absurd same (absent row mem),
      fun _ mem => mem, fun _ mem => .inl mem,
      .inl fun row mem same => absurd same (absent row mem)⟩
  split at h
  · rename_i allMatch
    have own : ∀ row ∈ store.dependencies, row.waitingTaskId = round.waitingTaskId →
        matchesWaitRound round row = true := fun row mem same =>
      List.all_eq_true.mp allMatch row ((mem_existing row).mpr ⟨mem, same⟩)
    have finished : ∀ row ∈ store.dependencies, row.waitingTaskId = round.waitingTaskId →
        row.pendingToolCallId = round.pendingToolCallId := by
      intro row mem same
      have agrees := own row mem same
      simp only [matchesWaitRound, decide_eq_true_eq] at agrees
      exact agrees.2.1
    split at h
    · rename_i inRound
      have known : ∀ row ∈ store.dependencies, row.waitingTaskId = round.waitingTaskId →
          row.dependencyTaskId ∈ round.dependencyTaskIds := by
        intro row mem same
        have listed := List.all_eq_true.mp inRound row.dependencyTaskId
          (List.mem_map_of_mem ((mem_existing row).mpr ⟨mem, same⟩))
        exact of_decide_eq_true listed
      have existing : ∀ dependency, dependency ∈ (store.dependencies.filter fun row =>
          row.waitingTaskId = round.waitingTaskId).map AgentTaskDependency.dependencyTaskId →
          ∃ row ∈ store.dependencies, row.waitingTaskId = round.waitingTaskId ∧
            row.dependencyTaskId = dependency := by
        intro dependency mem
        obtain ⟨row, rowMem, rfl⟩ := List.mem_map.mp mem
        obtain ⟨stored, same⟩ := (mem_existing row).mp rowMem
        exact ⟨row, stored, same, rfl⟩
      split at h
      · -- replayed
        rename_i covers
        cases h
        refine ⟨store.dependencies, [], ?_, fun _ mem => mem, fun _ mem _ => mem,
          fun row mem same => ⟨own row mem same, known row mem same⟩, by simp, ?_,
          .inl finished⟩
        · rw [List.map_nil, List.append_nil]
        · intro dependency mem
          exact .inr (existing dependency (of_decide_eq_true (List.all_eq_true.mp covers _ mem)))
      · -- repaired
        obtain ⟨next, write, done⟩ := bind_eq_ok.mp h
        cases done
        refine ⟨store.dependencies, _, insertDependencyRows_eq write, fun _ mem => mem,
          fun _ mem _ => mem, fun row mem same => ⟨own row mem same, known row mem same⟩,
          fun _ mem => (List.mem_filter.mp mem).1, ?_, .inl finished⟩
        intro dependency mem
        by_cases stored : dependency ∈ (store.dependencies.filter fun row =>
            row.waitingTaskId = round.waitingTaskId).map AgentTaskDependency.dependencyTaskId
        · exact .inr (existing dependency stored)
        · exact .inl (List.mem_filter.mpr ⟨mem, decide_eq_true stored⟩)
    · cases h
  split at h
  · cases h
  split at h
  · -- replaced
    rename_i terminal
    obtain ⟨next, delete, h⟩ := bind_eq_ok.mp h
    obtain ⟨last, write, done⟩ := bind_eq_ok.mp h
    cases done
    have dropped := AgentTables.write_eq_ok.mp delete
    have tables := insertDependencyRows_eq write
    rw [dropped] at tables
    refine ⟨_, _, tables, fun _ mem => List.mem_of_mem_filter mem, ?_, ?_, fun _ mem => mem,
      fun _ mem => .inl mem, .inr terminal⟩
    · intro row mem other
      exact List.mem_filter.mpr ⟨mem, decide_eq_true other⟩
    · intro row mem same
      exact absurd same (of_decide_eq_true (List.mem_filter.mp mem).2)
  · cases h

/-! ## The rows of a registered round -/

/-- After a registration the rows of the task are the rows of the round. -/
theorem WaitRegistered.mem_own {before after : AgentTables} {round : WaitRound}
    {kept : List AgentTaskDependency} {added : List AgentTaskId}
    (registered : WaitRegistered before after round kept added) (schema : Schema before)
    (checked : WaitRoundChecked before round) {row : AgentTaskDependency} :
    (row ∈ after.dependencies ∧ row.waitingTaskId = round.waitingTaskId) ↔
      ∃ dependency ∈ round.dependencyTaskIds, row = round.row dependency := by
  have kept_eq : ∀ row ∈ kept, row.waitingTaskId = round.waitingTaskId →
      row = round.row row.dependencyTaskId := by
    intro row mem same
    obtain ⟨agrees, -⟩ := registered.own row mem same
    have waits := schema.dependencies.waiting row (registered.old row mem)
    rw [same] at waits
    have team := task_team schema waits (ensureAgentTaskTeam_eq_ok checked.waiting)
    simp only [matchesWaitRound, decide_eq_true_eq] at agrees
    obtain ⟨mode, call, deadline⟩ := agrees
    cases row
    simp only [WaitRound.row, AgentTaskDependency.mk.injEq]
    exact ⟨team, same, trivial, mode, call, deadline⟩
  rw [registered.tables]
  simp only [List.mem_append, List.mem_map]
  constructor
  · rintro ⟨old | ⟨dependency, mem, rfl⟩, same⟩
    · exact ⟨row.dependencyTaskId, (registered.own row old same).2, kept_eq row old same⟩
    · exact ⟨dependency, registered.requested dependency mem, rfl⟩
  · rintro ⟨dependency, mem, rfl⟩
    refine ⟨?_, rfl⟩
    rcases registered.complete dependency mem with new | ⟨row, old, same, rfl⟩
    · exact .inr ⟨dependency, new, rfl⟩
    · left
      rw [← kept_eq row old same]
      exact old

/-! ## Wait rounds in every state -/

/-- No circle of waiting tasks, and one round for each. -/
structure WaitRounds (tables : AgentTables) : Prop where
  acyclic : Acyclic (Waits tables)
  uniform : ∀ first ∈ tables.dependencies, ∀ second ∈ tables.dependencies,
    first.waitingTaskId = second.waitingTaskId → first.round = second.round

theorem WaitRounds.shrink {before after : AgentTables} (rounds : WaitRounds before)
    (fewer : ∀ row ∈ after.dependencies, row ∈ before.dependencies) : WaitRounds after where
  acyclic := rounds.acyclic.mono fun _ _ ⟨row, mem, ends⟩ => ⟨row, fewer row mem, ends⟩
  uniform first firstMem second secondMem :=
    rounds.uniform first (fewer first firstMem) second (fewer second secondMem)

/-- No other operation adds a dependency. -/
theorem Statement.dependencies_subset {action : AgentAction} (other : action.registersWait = false)
    {before after : AgentTables} (h : Statement action before after) :
    ∀ row ∈ after.dependencies, row ∈ before.dependencies := by
  intro row mem
  cases h with
  | registered registers =>
    rw [registers] at other
    cases other
  | waitDropped => exact List.mem_of_mem_filter mem
  | cleared => exact List.mem_of_mem_filter mem
  | instanceDeleted => exact List.mem_of_mem_filter mem
  | _ => exact mem

theorem commit_dependencies_subset {action : AgentAction} (other : action.registersWait = false)
    {store store' : AgentStore} (h : action.commit store = .ok store') :
    ∀ row ∈ store'.dependencies, row ∈ store.dependencies := by
  apply (commit_statements h).invariant fun tables =>
    ∀ row ∈ tables.dependencies, row ∈ store.dependencies
  · intro before after inv step row mem
    exact inv row (step.dependencies_subset other row mem)
  · exact fun _ mem => mem

/-- A dependency that passed its check does not wait for the task, however indirectly. -/
theorem not_waits_of_checked {tables : AgentTables} (schema : Schema tables) {round : WaitRound}
    {dependency : AgentTaskId} (h : ensureDependency tables round dependency = .ok ()) :
    ¬ ReflTransGen (Waits tables) dependency round.waitingTaskId := by
  obtain ⟨_, team, h⟩ := bind_eq_ok.mp h
  split at h
  · cases h
  · rename_i apart
    intro path
    obtain ⟨teamPath, -⟩ := teamWaits_of_waits schema (ensureAgentTaskTeam_eq_ok team) path
    exact apart (.inr (dependencyPathExists_iff.mpr teamPath))

theorem WaitRegistered.rounds {before after : AgentTables} {round : WaitRound}
    {kept : List AgentTaskDependency} {added : List AgentTaskId}
    (registered : WaitRegistered before after round kept added) (schema : Schema before)
    (checked : WaitRoundChecked before round) (rounds : WaitRounds before) : WaitRounds after where
  acyclic := by
    apply rounds.acyclic.added round.waitingTaskId round.dependencyTaskIds
    · rintro source target ⟨row, mem, rfl, rfl⟩
      rw [registered.tables] at mem
      rcases List.mem_append.mp mem with old | new
      · exact .inl ⟨row, registered.old row old, rfl, rfl⟩
      · obtain ⟨dependency, dependencyMem, rfl⟩ := List.mem_map.mp new
        exact .inr ⟨rfl, registered.requested dependency dependencyMem⟩
    · intro dependency mem
      exact not_waits_of_checked schema (checked.dependencies dependency mem)
  uniform first firstMem second secondMem same := by
    by_cases own : first.waitingTaskId = round.waitingTaskId
    · obtain ⟨_, -, rfl⟩ := (registered.mem_own schema checked).mp ⟨firstMem, own⟩
      obtain ⟨_, -, rfl⟩ := (registered.mem_own schema checked).mp ⟨secondMem, same.symm.trans own⟩
      rfl
    · have old : ∀ row ∈ after.dependencies, row.waitingTaskId ≠ round.waitingTaskId →
          row ∈ before.dependencies := by
        intro row mem other
        rw [registered.tables] at mem
        rcases List.mem_append.mp mem with keeps | new
        · exact registered.old row keeps
        · obtain ⟨_, -, rfl⟩ := List.mem_map.mp new
          exact absurd rfl other
      exact rounds.uniform first (old first firstMem own) second
        (old second secondMem (same ▸ own)) same

/-- A registration may be repeated: it finds its own rows. -/
theorem WaitRegistered.replay {store store' : AgentStore} {round : WaitRound}
    {kept : List AgentTaskDependency} {added : List AgentTaskId}
    (registered : WaitRegistered store.toAgentTables store'.toAgentTables round kept added)
    (checked : WaitRoundChecked store.toAgentTables round)
    (rounds : WaitRounds store'.toAgentTables) :
    registerAgentTaskWaitDependencies round store' = .ok (store', .replayed) := by
  have own : ∀ row, (row ∈ store'.dependencies ∧ row.waitingTaskId = round.waitingTaskId) ↔
      ∃ dependency ∈ round.dependencyTaskIds, row = round.row dependency :=
    fun row => registered.mem_own store.schema checked
  have sameTasks : ∀ taskId, ensureAgentTaskTeam store'.toAgentTables taskId round.teamId =
      ensureAgentTaskTeam store.toAgentTables taskId round.teamId := by
    intro taskId
    rw [registered.tables]
    rfl
  refine registerAgentTaskWait_eq_ok.mpr ⟨⟨checked.distinct, checked.nonempty, checked.named,
    (sameTasks _).trans checked.waiting, ?_⟩, ?_⟩
  · intro dependency mem
    obtain ⟨_, team, h⟩ := bind_eq_ok.mp (checked.dependencies dependency mem)
    refine bind_eq_ok.mpr ⟨(), (sameTasks _).trans team, ?_⟩
    obtain ⟨stored, -⟩ := (own _).mpr ⟨dependency, mem, rfl⟩
    have step : Waits store'.toAgentTables round.waitingTaskId dependency :=
      ⟨_, stored, rfl, rfl⟩
    rw [if_neg]
    rintro (rfl | path)
    · exact rounds.acyclic _ (.single step)
    · have back : ReflTransGen (Waits store'.toAgentTables) dependency round.waitingTaskId :=
        ReflTransGen.mono (fun _ _ ⟨row, mem, _, ends⟩ => ⟨row, mem, ends⟩) _ _
          (dependencyPathExists_iff.mp path)
      exact rounds.acyclic _ (TransGen.head' step back)
  · have existing : ∀ row, row ∈ (store'.dependencies.filter fun row =>
        row.waitingTaskId = round.waitingTaskId) ↔
          ∃ dependency ∈ round.dependencyTaskIds, row = round.row dependency := by
      intro row
      rw [List.mem_filter, decide_eq_true_eq, own]
    obtain ⟨first, firstMem⟩ := List.exists_mem_of_ne_nil _ checked.nonempty
    have some : ¬ (store'.dependencies.filter fun row =>
        row.waitingTaskId = round.waitingTaskId).isEmpty = true := by
      intro none
      have mem := (existing _).mpr ⟨first, firstMem, rfl⟩
      rw [List.isEmpty_iff.mp none] at mem
      exact absurd mem List.not_mem_nil
    unfold storeWaitRound
    simp only
    rw [if_neg some, if_pos, if_pos, if_pos]
    · apply List.all_eq_true.mpr
      intro dependency mem
      exact decide_eq_true (List.mem_map.mpr ⟨_, (existing _).mpr ⟨dependency, mem, rfl⟩, rfl⟩)
    · apply List.all_eq_true.mpr
      intro dependency mem
      obtain ⟨row, rowMem, rfl⟩ := List.mem_map.mp mem
      obtain ⟨_, dependencyMem, rfl⟩ := (existing row).mp rowMem
      exact decide_eq_true dependencyMem
    · apply List.all_eq_true.mpr
      intro row rowMem
      obtain ⟨_, -, rfl⟩ := (existing row).mp rowMem
      exact matchesWaitRound_iff.mpr rfl

/-! ## Events -/

theorem AgentEventStore.write_eq_ok {agents : AgentStore} {events : List TaskWaitingRequested}
    {store : AgentEventStore} :
    AgentEventStore.write agents events = .ok store ↔
      store.agents = agents ∧ store.events = events := by
  unfold AgentEventStore.write
  constructor
  · intro h
    split at h
    · cases h
      exact ⟨rfl, rfl⟩
    · cases h
  · rintro ⟨rfl, rfl⟩
    rw [dif_pos store.schema]

theorem registerWaitRound_eq_ok {round : WaitRound} {eventInstanceId : Option AgentInstanceId}
    {store store' : AgentEventStore} {outcome : WaitRegistrationOutcome} :
    registerWaitRound round eventInstanceId store = .ok (store', outcome) ↔
      registerAgentTaskWaitDependencies round store.agents = .ok (store'.agents, outcome) ∧
        store'.events = ensureTaskWaitingRequestedEvent round eventInstanceId store.events := by
  constructor
  · intro h
    obtain ⟨⟨agents, registered⟩, register, h⟩ := bind_eq_ok.mp h
    obtain ⟨written, write, done⟩ := bind_eq_ok.mp h
    cases done
    obtain ⟨rfl, events⟩ := AgentEventStore.write_eq_ok.mp write
    exact ⟨register, events⟩
  · rintro ⟨register, events⟩
    refine bind_eq_ok.mpr ⟨(store'.agents, outcome), register, ?_⟩
    exact bind_eq_ok.mpr ⟨store', AgentEventStore.write_eq_ok.mpr ⟨rfl, events⟩, rfl⟩

/-- A step commits an operation or changes nothing. -/
theorem eventStep_cases {store store' : AgentEventStore} {action : AgentEventAction}
    (step : eventMachine.step store action = some store') :
    action.commit store = .ok store' ∨
      ((∃ error, action.commit store = .error error) ∧ store' = store) := by
  simp only [eventMachine] at step
  split at step
  · rename_i committed
    cases step
    exact .inl committed
  · rename_i error failed
    cases step
    exact .inr ⟨⟨error, failed⟩, rfl⟩

theorem commit_registerWait {round : WaitRound} {eventInstanceId : Option AgentInstanceId}
    {store store' : AgentEventStore}
    (h : (AgentEventAction.registerWait round eventInstanceId).commit store = .ok store') :
    ∃ outcome, registerWaitRound round eventInstanceId store = .ok (store', outcome) := by
  simp only [AgentEventAction.commit] at h
  cases run : registerWaitRound round eventInstanceId store with
  | error error =>
    rw [run] at h
    cases h
  | ok result =>
    rw [run] at h
    cases h
    exact ⟨result.2, rfl⟩

theorem commit_other {action : AgentAction} {plain : action.registersWait = false}
    {store store' : AgentEventStore}
    (h : (AgentEventAction.other action plain).commit store = .ok store') :
    action.commit store.agents = .ok store'.agents ∧ store'.events = store.events := by
  obtain ⟨agents, run, write⟩ := bind_eq_ok.mp h
  obtain ⟨rfl, events⟩ := AgentEventStore.write_eq_ok.mp write
  exact ⟨run, events⟩

theorem prefix_ensureEvent (round : WaitRound) (eventInstanceId : Option AgentInstanceId)
    (events : List TaskWaitingRequested) :
    events <+: ensureTaskWaitingRequestedEvent round eventInstanceId events := by
  unfold ensureTaskWaitingRequestedEvent
  split
  · exact List.prefix_refl _
  · exact List.prefix_append _ _

theorem eventExists_ensureEvent (round : WaitRound) (eventInstanceId : Option AgentInstanceId)
    (events : List TaskWaitingRequested) :
    taskWaitingRequestedEventExists
      (ensureTaskWaitingRequestedEvent round eventInstanceId events) round.teamId
        round.waitingTaskId round.pendingToolCallId = true := by
  unfold ensureTaskWaitingRequestedEvent
  split
  · assumption
  · apply List.any_eq_true.mpr
    refine ⟨round.event eventInstanceId, List.mem_append_right _ (List.mem_singleton_self _), ?_⟩
    exact decide_eq_true ⟨rfl, rfl, rfl⟩

/-- The event is there once it was ensured. -/
theorem ensureEvent_again (round : WaitRound) (eventInstanceId : Option AgentInstanceId)
    (events : List TaskWaitingRequested) :
    ensureTaskWaitingRequestedEvent round eventInstanceId
        (ensureTaskWaitingRequestedEvent round eventInstanceId events) =
      ensureTaskWaitingRequestedEvent round eventInstanceId events := by
  have present := eventExists_ensureEvent round eventInstanceId events
  generalize ensureTaskWaitingRequestedEvent round eventInstanceId events = ensured at present ⊢
  rw [ensureTaskWaitingRequestedEvent, if_pos present]

/-- Events are only ever appended. -/
theorem eventStep_events {store store' : AgentEventStore} {action : AgentEventAction}
    (step : eventMachine.step store action = some store') : store.events <+: store'.events := by
  rcases eventStep_cases step with committed | ⟨-, rfl⟩
  · cases action with
    | registerWait round eventInstanceId =>
      obtain ⟨_, register⟩ := commit_registerWait committed
      rw [(registerWaitRound_eq_ok.mp register).2]
      exact prefix_ensureEvent _ _ _
    | other action plain =>
      have kept := (commit_other committed).2
      exact kept ▸ List.prefix_refl store.events
  · exact List.prefix_refl _

/-- What an event is found by. -/
def TaskWaitingRequested.call (event : TaskWaitingRequested) : AgentTaskId × Option Text :=
  (event.taskId, event.pendingToolCallId)

/-- What every state of the machine satisfies. -/
structure WaitInvariant (store : AgentEventStore) : Prop where
  rounds : WaitRounds store.agents.toAgentTables
  recordedOnce : Unique TaskWaitingRequested.call store.events

theorem ensureEvent_unique {round : WaitRound} {eventInstanceId : Option AgentInstanceId}
    {store : AgentEventStore} (unique : Unique TaskWaitingRequested.call store.events)
    (team : (round.teamId, round.waitingTaskId) ∈ store.agents.tasks.map AgentTask.key) :
    Unique TaskWaitingRequested.call
      (ensureTaskWaitingRequestedEvent round eventInstanceId store.events) := by
  unfold ensureTaskWaitingRequestedEvent
  split
  · exact unique
  · rename_i absent
    apply unique.append
    intro event mem same
    obtain ⟨task, call⟩ := Prod.mk.inj same
    have owner := store.schema.tasks event mem
    have task : event.taskId = round.waitingTaskId := task
    rw [task] at owner
    apply absent
    apply List.any_eq_true.mpr
    exact ⟨event, mem, decide_eq_true ⟨task_team store.agents.schema owner team, task, call⟩⟩

theorem waitInvariant_step {store store' : AgentEventStore} {action : AgentEventAction}
    (inv : WaitInvariant store) (step : eventMachine.step store action = some store') :
    WaitInvariant store' := by
  rcases eventStep_cases step with committed | ⟨-, rfl⟩
  · cases action with
    | registerWait round eventInstanceId =>
      obtain ⟨_, register⟩ := commit_registerWait committed
      obtain ⟨register, events⟩ := registerWaitRound_eq_ok.mp register
      obtain ⟨checked, stored⟩ := registerAgentTaskWait_eq_ok.mp register
      obtain ⟨kept, added, registered⟩ := storeWaitRound_spec stored
      refine ⟨registered.rounds store.agents.schema checked inv.rounds, ?_⟩
      rw [events]
      exact ensureEvent_unique inv.recordedOnce (ensureAgentTaskTeam_eq_ok checked.waiting)
    | other action plain =>
      obtain ⟨run, events⟩ := commit_other committed
      refine ⟨inv.rounds.shrink (commit_dependencies_subset plain run), ?_⟩
      rw [events]
      exact inv.recordedOnce
  · exact inv

theorem waitInvariant_of_reachable {store : AgentEventStore}
    (reached : eventMachine.Reachable store) : WaitInvariant store := by
  have start : WaitInvariant eventMachine.start := by
    refine ⟨⟨?_, fun row mem => absurd mem List.not_mem_nil⟩, List.Pairwise.nil⟩
    intro task cycle
    obtain ⟨_, ⟨row, mem, -⟩, -⟩ := TransGen.head'_iff.mp cycle
    exact absurd mem List.not_mem_nil
  exact Machine.Reachable.invariant start (fun _ _ _ inv step => waitInvariant_step inv step) reached

/-! ## Wait rounds over every run -/

/-- An unfinished round is not replaced by one of another tool call. -/
theorem eventStep_keeps_unfinished {store store' : AgentEventStore} {action : AgentEventAction}
    (inv : WaitInvariant store) (step : eventMachine.step store action = some store')
    {row : AgentTaskDependency} (mem : row ∈ store.agents.dependencies)
    (unfinished : ∃ task ∈ store.agents.tasks, task.id = row.dependencyTaskId ∧
      task.status.isTerminal = false)
    {row' : AgentTaskDependency} (mem' : row' ∈ store'.agents.dependencies)
    (same : row'.waitingTaskId = row.waitingTaskId) :
    row'.pendingToolCallId = row.pendingToolCallId := by
  have old : row' ∈ store.agents.dependencies →
      row'.pendingToolCallId = row.pendingToolCallId := by
    intro oldMem
    have rounds := inv.rounds.uniform row' oldMem row mem same
    simp only [AgentTaskDependency.round, Prod.mk.injEq] at rounds
    exact rounds.2.1
  rcases eventStep_cases step with committed | ⟨-, rfl⟩
  · cases action with
    | registerWait round eventInstanceId =>
      obtain ⟨_, register⟩ := commit_registerWait committed
      obtain ⟨register, -⟩ := registerWaitRound_eq_ok.mp register
      obtain ⟨checked, stored⟩ := registerAgentTaskWait_eq_ok.mp register
      obtain ⟨kept, added, registered⟩ := storeWaitRound_spec stored
      by_cases own : row'.waitingTaskId = round.waitingTaskId
      · obtain ⟨_, -, rfl⟩ := (registered.mem_own store.agents.schema checked).mp ⟨mem', own⟩
        rcases registered.finished with sameCall | terminal
        · exact (sameCall row mem same.symm).symm
        · obtain ⟨task, taskMem, ident, pending⟩ := unfinished
          have listed : row ∈ store.agents.dependencies.filter fun other =>
              other.waitingTaskId = round.waitingTaskId :=
            List.mem_filter.mpr ⟨mem, decide_eq_true same.symm⟩
          obtain ⟨other, otherMem, ends⟩ :=
            List.any_eq_true.mp (List.all_eq_true.mp terminal row listed)
          simp only [Bool.and_eq_true, decide_eq_true_eq] at ends
          have equal := store.agents.schema.tasks.ids.eq taskMem otherMem
            (ident.trans ends.1.symm)
          rw [equal, ends.2] at pending
          cases pending
      · apply old
        rw [registered.tables] at mem'
        rcases List.mem_append.mp mem' with keeps | new
        · exact registered.old row' keeps
        · obtain ⟨_, -, rfl⟩ := List.mem_map.mp new
          exact absurd rfl own
    | other action plain =>
      exact old (commit_dependencies_subset plain (commit_other committed).1 row' mem')
  · exact old mem'

/-- In every reachable state: no task waits for itself, the rows of a waiting task are one
round, a registration that succeeds leaves exactly the requested rows and replays when it is
repeated, a failed one changes nothing, no operation replaces an unfinished round by that of
another tool call or takes an event away, and each tool call of a task has at most one event. -/
theorem wait_rounds_hold : ∀ store : AgentEventStore, eventMachine.Reachable store →
    (∀ task, ¬ TransGen (Waits store.agents.toAgentTables) task task) ∧
    (∀ first ∈ store.agents.dependencies, ∀ second ∈ store.agents.dependencies,
      first.waitingTaskId = second.waitingTaskId → first.waitMode = second.waitMode ∧
        first.pendingToolCallId = second.pendingToolCallId ∧
        first.deadlineAt = second.deadlineAt) ∧
    (∀ round eventInstanceId store' outcome,
      registerWaitRound round eventInstanceId store = .ok (store', outcome) →
      (∀ row, (row ∈ store'.agents.dependencies ∧ row.waitingTaskId = round.waitingTaskId) ↔
        ∃ dependency ∈ round.dependencyTaskIds, row = round.row dependency) ∧
      registerWaitRound round eventInstanceId store' = .ok (store', .replayed)) ∧
    (∀ round eventInstanceId error,
      registerWaitRound round eventInstanceId store = .error error →
      eventMachine.step store (.registerWait round eventInstanceId) = some store) ∧
    (∀ action store', eventMachine.step store action = some store' →
      (∀ row ∈ store.agents.dependencies, (∃ task ∈ store.agents.tasks,
          task.id = row.dependencyTaskId ∧ task.status.isTerminal = false) →
        ∀ row' ∈ store'.agents.dependencies, row'.waitingTaskId = row.waitingTaskId →
          row'.pendingToolCallId = row.pendingToolCallId) ∧
      store.events <+: store'.events) ∧
    Unique (fun event => (event.taskId, event.pendingToolCallId)) store.events := by
  intro store reached
  have inv := waitInvariant_of_reachable reached
  refine ⟨inv.rounds.acyclic, ?_, ?_, ?_, ?_, inv.recordedOnce⟩
  · intro first firstMem second secondMem same
    have rounds := inv.rounds.uniform first firstMem second secondMem same
    simp only [AgentTaskDependency.round, Prod.mk.injEq] at rounds
    exact rounds
  · intro round eventInstanceId store' outcome h
    obtain ⟨register, events⟩ := registerWaitRound_eq_ok.mp h
    obtain ⟨checked, stored⟩ := registerAgentTaskWait_eq_ok.mp register
    obtain ⟨kept, added, registered⟩ := storeWaitRound_spec stored
    have rounds := registered.rounds store.agents.schema checked inv.rounds
    refine ⟨fun row => registered.mem_own store.agents.schema checked,
      registerWaitRound_eq_ok.mpr ⟨registered.replay checked rounds, ?_⟩⟩
    rw [events, ensureEvent_again]
  · intro round eventInstanceId error h
    simp only [eventMachine, AgentEventAction.commit, h]
    rfl
  · intro action store' step
    exact ⟨fun row mem unfinished row' mem' same =>
      eventStep_keeps_unfinished inv step mem unfinished mem' same, eventStep_events step⟩

/-- A wait of the first task for others. -/
def firstTaskWait (dependencies : List AgentTaskId) (call : Text) : WaitRound where
  teamId := 1
  waitingTaskId := 1
  dependencyTaskIds := dependencies
  waitMode := .all
  pendingToolCallId := some call
  deadlineAt := none

/-- A team whose coordinator has four tasks, the first the parent of the others. -/
def fourTasks : List AgentEventAction :=
  [.other (.createTeam soloTeam) rfl,
    .other (.enqueue (taskFor 1 1 none none) 8 8 8 []) rfl,
    .other (.enqueue (taskFor 2 1 none (some 1)) 8 8 8 []) rfl,
    .other (.enqueue (taskFor 3 1 none (some 1)) 8 8 8 []) rfl,
    .other (.enqueue (taskFor 4 1 none (some 1)) 8 8 8 []) rfl]

/-- The rules on a parent that waits for two of its children. -/
theorem wait_rounds_hold_for_parent : ∃ store : AgentEventStore,
    eventMachine.Reachable store ∧ store.agents.dependencies.length = 2 ∧
    ¬ TransGen (Waits store.agents.toAgentTables) 1 1 ∧
    Unique (fun event => (event.taskId, event.pendingToolCallId)) store.events := by
  have run : ((eventMachine.run .empty
      (fourTasks ++ [AgentEventAction.registerWait (firstTaskWait [2, 3] ['a']) (some 1)])).any
        fun store =>
        decide (store.agents.dependencies.length = 2)) = true := by decide
  obtain ⟨store, reaches, two⟩ := (Option.any_eq_true ..).mp run
  have reached := Machine.reachable_of_run .start reaches
  obtain ⟨acyclic, -, -, -, -, once⟩ := wait_rounds_hold store reached
  exact ⟨store, reached, of_decide_eq_true two, acyclic 1, once⟩

/-! ## What a wait covers later -/

/-- A dependency that an event of the task names. -/
def NamedByEvent (events : List TaskWaitingRequested) (teamId : AgentTeamId)
    (waitingTaskId dependency : AgentTaskId) : Prop :=
  ∃ event ∈ events, event.teamId = teamId ∧ event.taskId = waitingTaskId ∧
    dependency ∈ event.dependencyTaskIds

theorem mem_waitCovered {store : AgentEventStore} {teamId : AgentTeamId}
    {waitingTaskId dependency : AgentTaskId} :
    dependency ∈ waitCoveredDependencyTaskIds teamId waitingTaskId store ↔
      (∃ row ∈ store.agents.dependencies, row.waitingTaskId = waitingTaskId ∧
        row.dependencyTaskId = dependency) ∨
      NamedByEvent store.events teamId waitingTaskId dependency := by
  simp only [waitCoveredDependencyTaskIds, List.mem_append, List.mem_map, List.mem_filter,
    List.mem_flatMap, decide_eq_true_eq, NamedByEvent, and_assoc]

/-- The machine from a state on. -/
def eventMachineFrom (store : AgentEventStore) : Machine AgentEventStore AgentEventAction :=
  { eventMachine with start := store }

theorem events_subset_of_reachable {store later : AgentEventStore}
    (reached : (eventMachineFrom store).Reachable later) : store.events <+: later.events := by
  have start : store.events <+: (eventMachineFrom store).start.events := List.prefix_refl _
  have keep : ∀ state action state', store.events <+: state.events →
      (eventMachineFrom store).step state action = some state' →
      store.events <+: state'.events :=
    fun _ _ _ grown step => grown.trans (eventStep_events step)
  exact Machine.Reachable.invariant start keep reached

/-- The rows of a task may be deleted at any time. -/
theorem deleteDependencies_step (store : AgentEventStore) (taskId : AgentTaskId) :
    ∃ later, eventMachine.step store (.other (.deleteDependencies taskId) rfl) = some later ∧
      later.events = store.events ∧
      ∀ row ∈ later.agents.dependencies, row.waitingTaskId ≠ taskId := by
  have schema := store.agents.schema.dropDependencies fun row => row.waitingTaskId ≠ taskId
  let later : AgentEventStore := ⟨⟨_, schema⟩, store.events, store.schema.tasks, store.schema.instances⟩
  have delete : store.agents.deleteDependencies taskId = .ok later.agents :=
    AgentTables.write_of_schema schema
  have committed : (AgentAction.deleteDependencies taskId).commit store.agents =
      .ok later.agents := by
    simp only [AgentAction.commit, deleteAgentTaskDependencies, delete]
    rfl
  have written : (AgentEventAction.other (.deleteDependencies taskId) rfl).commit store =
      .ok later := by
    refine bind_eq_ok.mpr ⟨later.agents, committed, ?_⟩
    exact AgentEventStore.write_eq_ok.mpr ⟨rfl, rfl⟩
  refine ⟨later, ?_, rfl, ?_⟩
  · simp only [eventMachine, written]
  · intro row mem
    exact of_decide_eq_true (List.mem_filter.mp mem).2

/-- Every dependency of a registered round stays covered, whatever follows, exactly when the
tool call has no event yet or the events of the task already name them all. -/
theorem registered_stay_covered_iff {store store' : AgentEventStore} {round : WaitRound}
    {eventInstanceId : Option AgentInstanceId} {outcome : WaitRegistrationOutcome}
    (h : registerWaitRound round eventInstanceId store = .ok (store', outcome)) :
    (∀ later, (eventMachineFrom store').Reachable later →
      ∀ dependency ∈ round.dependencyTaskIds,
        dependency ∈ waitCoveredDependencyTaskIds round.teamId round.waitingTaskId later) ↔
      (taskWaitingRequestedEventExists store.events round.teamId round.waitingTaskId
          round.pendingToolCallId = false ∨
        ∀ dependency ∈ round.dependencyTaskIds,
          NamedByEvent store.events round.teamId round.waitingTaskId dependency) := by
  obtain ⟨-, events⟩ := registerWaitRound_eq_ok.mp h
  constructor
  · intro covered
    cases present : taskWaitingRequestedEventExists store.events round.teamId
        round.waitingTaskId round.pendingToolCallId with
    | false => exact .inl rfl
    | true =>
      right
      intro dependency mem
      obtain ⟨later, step, same, dropped⟩ := deleteDependencies_step store' round.waitingTaskId
      have reached : (eventMachineFrom store').Reachable later := .next .start trivial step
      rcases mem_waitCovered.mp (covered later reached dependency mem) with
        ⟨row, rowMem, own, -⟩ | named
      · exact absurd own (dropped row rowMem)
      · rw [same, events, ensureTaskWaitingRequestedEvent, if_pos present] at named
        exact named
  · intro condition later reached dependency mem
    have grown := events_subset_of_reachable reached
    rw [events] at grown
    refine mem_waitCovered.mpr (.inr ?_)
    have named : NamedByEvent (ensureTaskWaitingRequestedEvent round eventInstanceId store.events)
        round.teamId round.waitingTaskId dependency := by
      rcases condition with absent | named
      · refine ⟨round.event eventInstanceId, ?_, rfl, rfl, mem⟩
        rw [ensureTaskWaitingRequestedEvent, if_neg (by simp [absent])]
        exact List.mem_append_right _ (List.mem_singleton_self _)
      · obtain ⟨event, eventMem, names⟩ := named dependency mem
        exact ⟨event, (prefix_ensureEvent _ _ _).subset eventMem, names⟩
    obtain ⟨event, eventMem, names⟩ := named
    exact ⟨event, grown.subset eventMem, names⟩

/-- The first round of a task stays covered. -/
theorem first_round_stays_covered : ∃ store store', eventMachine.Reachable store ∧
    registerWaitRound (firstTaskWait [2, 3] ['a']) (some 1) store = .ok (store', .created) ∧
    ∀ later, (eventMachineFrom store').Reachable later →
      ∀ dependency ∈ [2, 3], dependency ∈ waitCoveredDependencyTaskIds 1 1 later := by
  have run : ((eventMachine.run .empty fourTasks).any fun store =>
      store.events.isEmpty &&
        match registerWaitRound (firstTaskWait [2, 3] ['a']) (some 1) store with
        | .ok (_, outcome) => decide (outcome = .created)
        | .error _ => false) = true := by decide
  obtain ⟨store, reaches, seen⟩ := (Option.any_eq_true ..).mp run
  obtain ⟨none, created⟩ := Bool.and_eq_true_iff.mp seen
  cases result : registerWaitRound (firstTaskWait [2, 3] ['a']) (some 1) store with
  | error _ =>
    rw [result] at created
    cases created
  | ok registered =>
    obtain ⟨store', outcome⟩ := registered
    rw [result] at created
    cases of_decide_eq_true created
    refine ⟨store, store', Machine.reachable_of_run .start reaches, result, ?_⟩
    apply (registered_stay_covered_iff result).mpr
    left
    rw [List.isEmpty_iff.mp none]
    rfl

/-- A round is extended under the same tool call, both its tasks end, and the next round of the
parent takes its place. -/
def extendedThenReplaced : List AgentEventAction :=
  [.other (.cancelQueued 1 2 []) rfl, .other (.cancelQueued 1 3 []) rfl,
    .registerWait (firstTaskWait [4] ['b']) (some 1)]

/-- The task that extended the round is no longer covered then. -/
theorem extension_is_forgotten : ∃ store store' later, eventMachine.Reachable store ∧
    registerWaitRound (firstTaskWait [2, 3] ['a']) (some 1) store = .ok (store', .repaired) ∧
    (eventMachineFrom store').Reachable later ∧
    3 ∉ waitCoveredDependencyTaskIds 1 1 later := by
  have run : ((eventMachine.run .empty
      (fourTasks ++ [AgentEventAction.registerWait (firstTaskWait [2] ['a']) (some 1)])).any
        fun store =>
        match registerWaitRound (firstTaskWait [2, 3] ['a']) (some 1) store with
        | .ok (store', outcome) => decide (outcome = .repaired) &&
          ((eventMachineFrom store').run store' extendedThenReplaced).any fun later =>
            decide (3 ∉ waitCoveredDependencyTaskIds 1 1 later)
        | .error _ => false) = true := by decide
  obtain ⟨store, reaches, seen⟩ := (Option.any_eq_true ..).mp run
  cases result : registerWaitRound (firstTaskWait [2, 3] ['a']) (some 1) store with
  | error _ =>
    rw [result] at seen
    cases seen
  | ok registered =>
    obtain ⟨store', outcome⟩ := registered
    rw [result] at seen
    obtain ⟨repaired, tail⟩ := Bool.and_eq_true_iff.mp seen
    cases of_decide_eq_true repaired
    obtain ⟨later, laterReaches, lost⟩ := (Option.any_eq_true ..).mp tail
    exact ⟨store, store', later, Machine.reachable_of_run .start reaches, result,
      Machine.reachable_of_run .start laterReaches, of_decide_eq_true lost⟩

end Foco.AgentRuntime
