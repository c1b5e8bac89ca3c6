import Foco.AgentAttempts
import Foco.AgentStatements
import Foco.AgentWaits
import Foco.RecursiveQuery

/-!
The cancellation of a subtree over every run. The recursive query down from the root and the
recursive query up from a new task's parent walk the same tree, whose rows are inserted after
their parents, so the cancellation of a root stops every later task below it until the root is
retried.
-/
namespace Foco.AgentRuntime
open Foco.RustText Foco.AgentDomain Foco.Table Foco.Runs Foco.RecursiveQuery Foco.Result Relation

/-! ## The tree -/

/-- A task of the team has a child. -/
def ChildOf (tables : AgentTables) (teamId : AgentTeamId) (parent child : AgentTaskId) : Prop :=
  ∃ row ∈ tables.tasks, row.teamId = teamId ∧ row.id = child ∧ row.parentTaskId = some parent

/-- The task is the root or below it. -/
def InSubtree (tables : AgentTables) (teamId : AgentTeamId) (rootTaskId taskId : AgentTaskId) :
    Prop :=
  (∃ root ∈ tables.tasks, root.teamId = teamId ∧ root.id = rootTaskId) ∧
    ReflTransGen (ChildOf tables teamId) rootTaskId taskId

/-- A round of the query of `cancel_agent_task_subtree`. -/
def nextChildren (tables : AgentTables) (teamId : AgentTeamId) (found : List AgentTaskId) :
    List AgentTaskId :=
  (tables.tasks.filter fun row => decide (row.teamId = teamId) && decide (row.id ∉ found) &&
    row.parentTaskId.any fun parent => decide (parent ∈ found)).map AgentTask.id

theorem subtreeIds_eq_saturate (tables : AgentTables) (teamId : AgentTeamId) (fuel : Nat)
    (found : List AgentTaskId) :
    subtreeIds tables teamId fuel found = saturate (nextChildren tables teamId) fuel found := by
  induction fuel generalizing found with
  | zero => rfl
  | succ fuel ih =>
    unfold subtreeIds saturate
    rw [← ih]
    rfl

theorem nextChildren_findsNew (tables : AgentTables) (teamId : AgentTeamId) :
    FindsNew (nextChildren tables teamId) (ChildOf tables teamId) := by
  intro found target
  simp only [nextChildren, List.mem_map, List.mem_filter, Bool.and_eq_true, decide_eq_true_eq,
    Option.any_eq_true]
  constructor
  · rintro ⟨row, ⟨mem, ⟨team, fresh⟩, parent, named, known⟩, rfl⟩
    exact ⟨⟨parent, known, row, mem, team, rfl, named⟩, fresh⟩
  · rintro ⟨⟨parent, known, row, mem, team, rfl, named⟩, fresh⟩
    exact ⟨row, ⟨mem, ⟨team, fresh⟩, parent, named, known⟩, rfl⟩

/-- The query finds exactly the rows of the subtree. -/
theorem mem_subtreeTasks_iff {tables : AgentTables} {teamId : AgentTeamId}
    {rootTaskId : AgentTaskId} {task : AgentTask} :
    task ∈ subtreeTasks tables teamId rootTaskId ↔
      task ∈ tables.tasks ∧ task.teamId = teamId ∧ InSubtree tables teamId rootTaskId task.id := by
  have within : ∀ source target, ChildOf tables teamId source target →
      target ∈ tables.tasks.map AgentTask.id := by
    rintro source target ⟨row, mem, -, rfl, -⟩
    exact List.mem_map_of_mem mem
  have enough : (tables.tasks.map AgentTask.id).length ≤ tables.tasks.length := by
    rw [List.length_map]
  unfold subtreeTasks
  simp only
  rw [mem_sortBy, List.mem_filter, decide_eq_true_eq, subtreeIds_eq_saturate,
    mem_saturate (nextChildren_findsNew tables teamId) within enough]
  simp only [List.mem_map, List.mem_filter, decide_eq_true_eq, InSubtree]
  constructor
  · rintro ⟨mem, team, _, ⟨root, ⟨rootMem, rootTeam, ident⟩, rfl⟩, path⟩
    rw [ident] at path
    exact ⟨mem, team, ⟨root, rootMem, rootTeam, ident⟩, path⟩
  · rintro ⟨mem, team, ⟨root, rootMem, rootTeam, ident⟩, path⟩
    exact ⟨mem, team, rootTaskId, ⟨root, ⟨rootMem, rootTeam, ident⟩, ident⟩, path⟩

/-! ## Parents come first -/

/-- No row has a parent that was inserted after it, nor itself. -/
structure ParentsFirst (tables : AgentTables) : Prop where
  earlier : tables.tasks.Pairwise fun first second => first.parentTaskId ≠ some second.id
  notSelf : ∀ row ∈ tables.tasks, row.parentTaskId ≠ some row.id

theorem Statement.parentsFirst {action : AgentAction} {before after : AgentTables}
    (first : ParentsFirst before) (h : Statement action before after) : ParentsFirst after := by
  cases h with
  | @tasks selects set keeps =>
    refine ⟨List.pairwise_map.mpr (first.earlier.imp ?_), ?_⟩
    · intro one other ne
      rw [keeps.parentTaskId_ite, keeps.id_ite]
      exact ne
    · intro row mem
      obtain ⟨old, oldMem, rfl⟩ := mem_update.mp mem
      rw [keeps.parentTaskId_ite, keeps.id_ite]
      exact first.notSelf old oldMem
  | enqueued row instances fresh accepts =>
    refine ⟨List.pairwise_append.mpr ⟨first.earlier, List.pairwise_singleton _ _, ?_⟩, ?_⟩
    · intro old mem new newMem
      rw [List.mem_singleton.mp newMem]
      exact (fresh old mem).2
    · intro other mem
      rcases List.mem_append.mp mem with old | new
      · exact first.notSelf other old
      · rw [List.mem_singleton.mp new]
        intro self
        obtain ⟨_, known, -⟩ := bind_eq_ok.mp (accepts row.id self)
        obtain ⟨parent, parentMem, key⟩ := List.mem_map.mp (ensureAgentTaskTeam_eq_ok known)
        exact (fresh parent parentMem).1 (Prod.mk.inj key).2
  | instanceDeleted instanceId =>
    refine ⟨first.earlier.filter _, ?_⟩
    exact fun row mem => first.notSelf row (List.mem_of_mem_filter mem)
  | _ => exact ⟨first.earlier, first.notSelf⟩

/-- The parent that the query up the tree finds. -/
def parentOf (tables : AgentTables) (teamId : AgentTeamId) (taskId : AgentTaskId) :
    Option AgentTaskId :=
  (tables.tasks.find? fun row => row.id = taskId ∧ row.teamId = teamId).bind
    AgentTask.parentTaskId

theorem ancestors_eq_chain (tables : AgentTables) (teamId : AgentTeamId) (fuel : Nat)
    (taskId : AgentTaskId) :
    ancestors tables teamId fuel taskId = chain (parentOf tables teamId) fuel taskId := by
  induction fuel generalizing taskId with
  | zero => rfl
  | succ fuel ih =>
    unfold ancestors chain
    rw [← parentOf]
    cases parentOf tables teamId taskId with
    | none => rfl
    | some parent => exact congrArg (taskId :: ·) (ih parent)

theorem parentOf_eq_some {tables : AgentTables} (schema : Schema tables) {teamId : AgentTeamId}
    {child parent : AgentTaskId} :
    parentOf tables teamId child = some parent ↔ ChildOf tables teamId parent child := by
  unfold parentOf
  rw [Option.bind_eq_some_iff]
  constructor
  · rintro ⟨row, found, named⟩
    have keys : row.id = child ∧ row.teamId = teamId := by simpa using List.find?_some found
    exact ⟨row, List.mem_of_find?_eq_some found, keys.2, keys.1, named⟩
  · rintro ⟨row, mem, team, ident, named⟩
    cases found : tables.tasks.find? fun row => row.id = child ∧ row.teamId = teamId with
    | none =>
      have missing := List.find?_eq_none.mp found row mem
      simp [ident, team] at missing
    | some other =>
      have keys : other.id = child ∧ other.teamId = teamId := by simpa using List.find?_some found
      have same := schema.tasks.ids.eq mem (List.mem_of_find?_eq_some found)
        (ident.trans keys.1.symm)
      exact ⟨other, rfl, same ▸ named⟩

/-- Going up comes to rows inserted before. -/
theorem parentOf_earlier {tables : AgentTables} (schema : Schema tables)
    (first : ParentsFirst tables) {teamId : AgentTeamId} {child parent : AgentTaskId}
    (found : parentOf tables teamId child = some parent) :
    (tables.tasks.map AgentTask.id).idxOf parent < (tables.tasks.map AgentTask.id).idxOf child := by
  obtain ⟨row, mem, team, rfl, named⟩ := (parentOf_eq_some schema).mp found
  have known := schema.tasks.parents row mem parent (Option.mem_toList.mpr named)
  obtain ⟨other, otherMem, key⟩ := List.mem_map.mp known
  have ident : other.id = parent := (Prod.mk.inj key).2
  have earlier := first.earlier
  have ids := schema.tasks.ids
  obtain ⟨front, back, split⟩ := List.append_of_mem mem
  rw [split] at earlier ids otherMem
  rw [split]
  have inFront : other ∈ front := by
    rcases List.mem_append.mp otherMem with before | after
    · exact before
    · rcases List.mem_cons.mp after with rfl | later
      · exact absurd (ident ▸ named) (first.notSelf other mem)
      · have apart := (List.pairwise_cons.mp (List.pairwise_append.mp earlier).2.1).1 other later
        exact absurd (ident ▸ named) apart
  have frontIds : row.id ∉ front.map AgentTask.id := by
    intro listed
    obtain ⟨old, oldMem, same⟩ := List.mem_map.mp listed
    exact (List.pairwise_append.mp ids).2.2 old oldMem row List.mem_cons_self same
  have parentIn : parent ∈ front.map AgentTask.id := ident ▸ List.mem_map_of_mem inFront
  rw [List.map_append, List.map_cons, List.idxOf_append_of_mem parentIn,
    List.idxOf_append_of_notMem frontIds, List.idxOf_cons_self]
  have bound := List.idxOf_lt_length_of_mem parentIn
  omega

/-- The query for the ancestors of a task finds everything above it. -/
theorem mem_ancestors {tables : AgentTables} (schema : Schema tables)
    (first : ParentsFirst tables) {teamId : AgentTeamId} {taskId target : AgentTaskId}
    (known : taskId ∈ tables.tasks.map AgentTask.id) :
    target ∈ ancestors tables teamId tables.tasks.length taskId ↔
      ReflTransGen (ChildOf tables teamId) target taskId := by
  have enough : (tables.tasks.map AgentTask.id).idxOf taskId < tables.tasks.length := by
    have bound := List.idxOf_lt_length_of_mem known
    rwa [List.length_map] at bound
  rw [ancestors_eq_chain, mem_chain (fun id => (tables.tasks.map AgentTask.id).idxOf id)
    (fun _ _ found => parentOf_earlier schema first found) enough]
  have flip : (fun node successor => parentOf tables teamId node = some successor) =
      Function.swap (ChildOf tables teamId) := by
    funext node successor
    exact propext (parentOf_eq_some schema)
  rw [flip, reflTransGen_swap]

/-! ## The cancellation of a root stays -/

/-- The root is marked as cancelled. -/
def Marked (tables : AgentTables) (teamId : AgentTeamId) (rootTaskId : AgentTaskId) : Prop :=
  (⟨teamId, rootTaskId⟩ : AgentTaskSubtreeCancellation) ∈ tables.subtreeCancellations

/-- The operation deletes the task along with its owner. -/
def AgentAction.deletes (tables : AgentTables) (taskId : AgentTaskId) : AgentAction → Bool
  | .deleteInstance instanceId => tables.tasks.any fun row =>
      row.id = taskId ∧ row.ownerInstanceId = instanceId
  | _ => false

/-- The operation neither retries the root nor deletes it. -/
def keepsRoot (teamId : AgentTeamId) (rootTaskId : AgentTaskId) (store : AgentStore)
    (action : AgentAction) : Bool :=
  !action.retries teamId rootTaskId && !action.deletes store.toAgentTables rootTaskId

theorem Statement.marked {action : AgentAction} {teamId : AgentTeamId}
    {rootTaskId : AgentTaskId} (kept : action.retries teamId rootTaskId = false)
    (plain : ∀ instanceId, action ≠ .deleteInstance instanceId) {before after : AgentTables}
    (marked : Marked before teamId rootTaskId) (h : Statement action before after) :
    Marked after teamId rootTaskId := by
  cases h with
  | cancellation row => exact List.mem_append_left _ marked
  | cleared waits roots retried =>
    refine List.mem_filter.mpr ⟨marked, ?_⟩
    by_contra dropped
    have retries := retried _ (Bool.eq_false_iff.mpr dropped)
    rw [kept] at retries
    cases retries
  | instanceDeleted instanceId deletes => exact absurd deletes (plain instanceId)
  | _ => exact marked

theorem commit_marked {action : AgentAction} {teamId : AgentTeamId} {rootTaskId : AgentTaskId}
    {store store' : AgentStore} (marked : Marked store.toAgentTables teamId rootTaskId)
    (keeps : keepsRoot teamId rootTaskId store action = true)
    (h : action.commit store = .ok store') : Marked store'.toAgentTables teamId rootTaskId := by
  simp only [keepsRoot, Bool.and_eq_true, Bool.not_eq_true'] at keeps
  obtain ⟨kept, stays⟩ := keeps
  by_cases deletion : ∃ instanceId, action = .deleteInstance instanceId
  · obtain ⟨instanceId, rfl⟩ := deletion
    obtain ⟨_, run⟩ := commit_eq_ok h
    rw [deleteAgentInstance_spec run]
    refine List.mem_filter.mpr ⟨marked, decide_eq_true ?_⟩
    intro gone
    obtain ⟨row, mem, ident⟩ := List.mem_map.mp gone
    obtain ⟨stored, owner⟩ := List.mem_filter.mp mem
    have deletes : (AgentAction.deleteInstance instanceId).deletes store.toAgentTables
        rootTaskId = true :=
      List.any_eq_true.mpr ⟨row, stored, decide_eq_true ⟨ident, of_decide_eq_true owner⟩⟩
    rw [stays] at deletes
    cases deletes
  · have plain : ∀ instanceId, action ≠ .deleteInstance instanceId :=
      fun instanceId same => deletion ⟨instanceId, same⟩
    exact (commit_statements h).invariant (fun tables => Marked tables teamId rootTaskId)
      (fun _ _ marked step => step.marked kept plain marked) marked

/-- Below a marked root nothing is enqueued. -/
theorem enqueue_not_below {store store' : AgentStore} (first : ParentsFirst store.toAgentTables)
    {teamId : AgentTeamId} {rootTaskId : AgentTaskId}
    (marked : Marked store.toAgentTables teamId rootTaskId) {task : NewAgentTask}
    {maxTeam maxInstance maxChat : Int} {now : Timestamp} {result : Unit}
    (h : enqueueAgentTaskWithLimits task maxTeam maxInstance maxChat now store =
      .ok (store', result)) :
    ¬ TransGen (ChildOf store'.toAgentTables teamId) rootTaskId task.id := by
  obtain ⟨row, instances, ident, team, parent, accepts, tables⟩ := enqueueAgentTask_row h
  have unique := store'.schema.tasks.ids
  rw [tables] at unique
  have fresh : ∀ old ∈ store.tasks, old.id ≠ row.id := fun old mem =>
    (List.pairwise_append.mp unique).2.2 old mem row (List.mem_singleton_self row)
  have mem_after : ∀ other, other ∈ store'.tasks ↔ other ∈ store.tasks ∨ other = row := by
    intro other
    rw [tables, List.mem_append, List.mem_singleton]
  have known : ∀ old ∈ store.tasks, ∀ named ∈ old.parentTaskId,
      named ∈ store.tasks.map AgentTask.id := by
    intro old mem named is
    have key := store.schema.tasks.parents old mem named (Option.mem_toList.mpr is)
    obtain ⟨other, otherMem, same⟩ := List.mem_map.mp key
    exact List.mem_map.mpr ⟨other, otherMem, (Prod.mk.inj same).2⟩
  -- a path that does not end in the new task was there before
  have before : ∀ {target}, ReflTransGen (ChildOf store'.toAgentTables teamId) rootTaskId target →
      target ≠ row.id → ReflTransGen (ChildOf store.toAgentTables teamId) rootTaskId target := by
    intro target path
    induction path with
    | refl => exact fun _ => .refl
    | tail _ step ih =>
      intro other
      obtain ⟨child, childMem, childTeam, rfl, named⟩ := step
      rcases (mem_after child).mp childMem with old | rfl
      · have apart : ∀ parent ∈ child.parentTaskId, parent ≠ row.id := by
          rintro parent is rfl
          obtain ⟨same, sameMem, ident⟩ := List.mem_map.mp (known child old row.id is)
          exact fresh same sameMem ident
        exact (ih (apart _ named)).tail ⟨child, old, childTeam, rfl, named⟩
      · exact absurd rfl other
  intro path
  obtain ⟨above, path, child, childMem, childTeam, childIdent, named⟩ :=
    TransGen.tail'_iff.mp path
  have isRow : child = row := by
    rcases (mem_after child).mp childMem with old | new
    · exact absurd (childIdent.trans ident.symm) (fresh child old)
    · exact new
  subst isRow
  obtain ⟨_, parentKnown, refused⟩ := bind_eq_ok.mp (accepts above named)
  obtain ⟨owner, ownerMem, ownerKey⟩ := List.mem_map.mp (ensureAgentTaskTeam_eq_ok parentKnown)
  have aboveKnown : above ∈ store.tasks.map AgentTask.id :=
    List.mem_map.mpr ⟨owner, ownerMem, (Prod.mk.inj ownerKey).2⟩
  have aboveOld : above ≠ child.id := by
    rintro rfl
    exact fresh owner ownerMem (Prod.mk.inj ownerKey).2
  split at refused
  · cases refused
  split at refused
  · cases refused
  rename_i unmarked
  apply unmarked
  apply List.any_eq_true.mpr
  refine ⟨_, marked, ?_⟩
  rw [Bool.and_eq_true, decide_eq_true_eq, decide_eq_true_eq]
  refine ⟨childTeam.symm, ?_⟩
  rw [childTeam]
  exact (mem_ancestors store.schema first aboveKnown).mpr (before path aboveOld)

/-! ## What a cancellation writes -/

/-- The statement of the cancellation on the row of a task. -/
def cancels (teamId : AgentTeamId) (task row : AgentTask) : Bool :=
  row.teamId = teamId ∧ row.id = task.id ∧ (row.status = .queued ∨ row.status = .waiting)

/-- The given tasks were cancelled, with their waits and attempts, and nothing else. -/
structure TasksCancelled (before after : AgentTables) (teamId : AgentTeamId)
    (rows : List AgentTask) (now : Timestamp) : Prop where
  tasks : after.tasks = update (fun row => rows.any fun task => cancels teamId task row)
    (AgentTask.setStatus .cancelled now) before.tasks
  dependencies : ∀ row, row ∈ after.dependencies ↔
    row ∈ before.dependencies ∧ row.waitingTaskId ∉ rows.map AgentTask.id
  attempts : ∀ attempt, attempt.taskId ∉ rows.map AgentTask.id →
    (attempt ∈ after.attempts ↔ attempt ∈ before.attempts)

theorem cancelSuspendedAttempt_frame {teamId : AgentTeamId} {reason : Option Text}
    {task : AgentTask} {store next : AgentStore}
    (h : cancelSuspendedAttempt teamId reason task store = .ok next) :
    next.tasks = store.tasks ∧ next.dependencies = store.dependencies ∧
      ∀ attempt, attempt.taskId ≠ task.id →
        (attempt ∈ next.attempts ↔ attempt ∈ store.attempts) := by
  unfold cancelSuspendedAttempt at h
  simp only at h
  split at h
  · cases h
    exact ⟨rfl, rfl, fun _ _ => Iff.rfl⟩
  split at h
  · cases h
  obtain ⟨middle, writeAttempts, writeOwner⟩ := bind_eq_ok.mp h
  have attempts := AgentTables.write_eq_ok.mp writeAttempts
  have owner := AgentTables.write_eq_ok.mp writeOwner
  rw [attempts] at owner
  rw [owner]
  have selected : ∀ row : AgentAttempt,
      decide (row.taskId = task.id ∧ row.teamId = teamId ∧ row.status = .suspended) = true →
        row.taskId = task.id := fun row hit => (of_decide_eq_true hit).1
  have keeps : ∀ row : AgentAttempt, (row.setStatus .cancelled reason).taskId = row.taskId :=
    fun _ => rfl
  exact ⟨rfl, rfl, fun attempt other =>
    mem_update_of_key AgentAttempt.taskId selected keeps other⟩

theorem cancelSubtreeTask_cancels {teamId : AgentTeamId} {reason : Option Text}
    {now : Timestamp} {store next : AgentStore} {task : AgentTask}
    (h : cancelSubtreeTask teamId reason now store task = .ok next) :
    TasksCancelled store.toAgentTables next.toAgentTables teamId [task] now := by
  unfold cancelSubtreeTask at h
  simp only at h
  split at h
  · cases h
  obtain ⟨first, writeTasks, h⟩ := bind_eq_ok.mp h
  obtain ⟨second, writeAttempt, writeWait⟩ := bind_eq_ok.mp h
  have tasks := AgentTables.write_eq_ok.mp writeTasks
  have waits := AgentTables.write_eq_ok.mp writeWait
  obtain ⟨sameTasks, sameWaits, others⟩ := cancelSuspendedAttempt_frame writeAttempt
  refine ⟨?_, fun row => ?_, fun attempt other => ?_⟩
  · rw [waits]
    simp only [sameTasks, tasks, List.any_cons, List.any_nil, Bool.or_false]
    rfl
  · rw [waits, List.mem_filter, sameWaits, tasks, decide_eq_true_eq, List.map_singleton,
      List.mem_singleton]
  · rw [List.map_singleton, List.mem_singleton] at other
    rw [waits]
    simp only [others attempt other, tasks]

theorem TasksCancelled.cons {before middle after : AgentTables} {teamId : AgentTeamId}
    {task : AgentTask} {rest : List AgentTask} {now : Timestamp}
    (head : TasksCancelled before middle teamId [task] now)
    (tail : TasksCancelled middle after teamId rest now) :
    TasksCancelled before after teamId (task :: rest) now := by
  refine ⟨?_, fun row => ?_, fun attempt other => ?_⟩
  · have once : ∀ row : AgentTask, (rest.any fun task =>
        cancels teamId task (row.setStatus .cancelled now)) = false := by
      intro row
      apply List.any_eq_false.mpr
      intro task _ hit
      have pending := (of_decide_eq_true hit).2.2
      simp at pending
    rw [tail.tasks, head.tasks, update_update once]
    simp only [List.any_cons, List.any_nil, Bool.or_false]
  · rw [tail.dependencies, head.dependencies, List.map_singleton, List.mem_singleton,
      List.map_cons, List.mem_cons, not_or, and_assoc]
  · rw [List.map_cons, List.mem_cons, not_or] at other
    have apart : attempt.taskId ∉ [task].map AgentTask.id := by
      rw [List.map_singleton, List.mem_singleton]
      exact other.1
    rw [tail.attempts attempt other.2, head.attempts attempt apart]

/-- The loop cancels each of its tasks. -/
theorem cancelSubtreeTasks_cancel {teamId : AgentTeamId} {reason : Option Text}
    {now : Timestamp} {rows : List AgentTask} {store next : AgentStore}
    (h : rows.foldlM (cancelSubtreeTask teamId reason now) store = .ok next) :
    TasksCancelled store.toAgentTables next.toAgentTables teamId rows now := by
  induction rows generalizing store with
  | nil =>
    cases h
    refine ⟨(update_none fun _ _ => rfl).symm, fun row => ?_, fun _ _ => Iff.rfl⟩
    simp
  | cons task rest ih =>
    obtain ⟨middle, head, tail⟩ := bind_eq_ok.mp h
    exact (cancelSubtreeTask_cancels head).cons (ih tail)

/-! ## The cancellation of a subtree -/

theorem childOf_update {before after : AgentTables} {selects : AgentTask → Bool}
    {set : AgentTask → AgentTask} (keeps : KeepsTree set)
    (tasks : after.tasks = update selects set before.tasks) (teamId : AgentTeamId) :
    ChildOf after teamId = ChildOf before teamId := by
  funext parent child
  apply propext
  constructor
  · rintro ⟨row, mem, team, ident, named⟩
    rw [tasks] at mem
    obtain ⟨old, oldMem, rfl⟩ := mem_update.mp mem
    rw [keeps.teamId_ite] at team
    rw [keeps.id_ite] at ident
    rw [keeps.parentTaskId_ite] at named
    exact ⟨old, oldMem, team, ident, named⟩
  · rintro ⟨row, mem, team, ident, named⟩
    refine ⟨if selects row then set row else row, ?_, ?_, ?_, ?_⟩
    · rw [tasks]
      exact mem_update.mpr ⟨row, mem, rfl⟩
    · rw [keeps.teamId_ite, team]
    · rw [keeps.id_ite, ident]
    · rw [keeps.parentTaskId_ite, named]

theorem inSubtree_update {before after : AgentTables} {selects : AgentTask → Bool}
    {set : AgentTask → AgentTask} (keeps : KeepsTree set)
    (tasks : after.tasks = update selects set before.tasks) {teamId : AgentTeamId}
    {rootTaskId taskId : AgentTaskId} :
    InSubtree after teamId rootTaskId taskId ↔ InSubtree before teamId rootTaskId taskId := by
  have roots : (∃ root ∈ after.tasks, root.teamId = teamId ∧ root.id = rootTaskId) ↔
      ∃ root ∈ before.tasks, root.teamId = teamId ∧ root.id = rootTaskId := by
    rw [tasks]
    constructor
    · rintro ⟨row, mem, team, ident⟩
      obtain ⟨old, oldMem, rfl⟩ := mem_update.mp mem
      rw [keeps.teamId_ite] at team
      rw [keeps.id_ite] at ident
      exact ⟨old, oldMem, team, ident⟩
    · rintro ⟨row, mem, team, ident⟩
      refine ⟨_, mem_update.mpr ⟨row, mem, rfl⟩, ?_, ?_⟩
      · rw [keeps.teamId_ite, team]
      · rw [keeps.id_ite, ident]
  rw [InSubtree, InSubtree, roots, childOf_update keeps tasks]

/-- A row of the subtree is of its team. -/
theorem team_of_inSubtree {tables : AgentTables} (schema : Schema tables) {teamId : AgentTeamId}
    {rootTaskId : AgentTaskId} {task : AgentTask} (mem : task ∈ tables.tasks)
    (inside : InSubtree tables teamId rootTaskId task.id) : task.teamId = teamId := by
  obtain ⟨⟨root, rootMem, rootTeam, rootId⟩, path⟩ := inside
  rcases ReflTransGen.cases_tail path with same | ⟨_, -, row, rowMem, rowTeam, rowId, -⟩
  · rw [schema.tasks.ids.eq mem rootMem (same.trans rootId.symm), rootTeam]
  · rw [schema.tasks.ids.eq mem rowMem rowId.symm, rowTeam]

theorem recordSubtreeCancellation_marks {teamId : AgentTeamId} {rootTaskId : AgentTaskId}
    {subtree : List AgentTask} {store next : AgentStore}
    (h : recordSubtreeCancellation teamId rootTaskId subtree store = .ok next) :
    next.tasks = store.tasks ∧ next.dependencies = store.dependencies ∧
      next.attempts = store.attempts ∧
      (subtree ≠ [] → Marked next.toAgentTables teamId rootTaskId) := by
  unfold recordSubtreeCancellation AgentStore.insertCancellation at h
  split at h
  · rename_i empty
    cases h
    exact ⟨rfl, rfl, rfl, fun some => absurd (List.isEmpty_iff.mp empty) some⟩
  split at h
  · rename_i present
    cases h
    exact ⟨rfl, rfl, rfl, fun _ => present⟩
  · have tables := AgentTables.write_eq_ok.mp h
    rw [tables]
    exact ⟨rfl, rfl, rfl, fun _ => List.mem_append_right _ (List.mem_singleton_self _)⟩

/-- What a cancellation that succeeds did and returned. -/
structure SubtreeCancelled (store store' : AgentStore) (teamId : AgentTeamId)
    (rootTaskId : AgentTaskId) (now : Timestamp) (result : SubtreeCancellationResult)
    (rows : List AgentTask) : Prop where
  cancelled : TasksCancelled store.toAgentTables store'.toAgentTables teamId rows now
  mem_rows : ∀ task, task ∈ rows ↔ (task ∈ store.tasks ∧ task.teamId = teamId ∧
    InSubtree store.toAgentTables teamId rootTaskId task.id) ∧
      (task.status = .queued ∨ task.status = .waiting)
  running : ∀ taskId, taskId ∈ result.runningTaskIds ↔ ∃ task ∈ store.tasks,
    task.id = taskId ∧ task.teamId = teamId ∧
      InSubtree store.toAgentTables teamId rootTaskId task.id ∧ task.status = .running
  returned : result.cancelledTasks = rows.map (AgentTask.setStatus .cancelled now)
  marked : (∃ root ∈ store.tasks, root.teamId = teamId ∧ root.id = rootTaskId) →
    Marked store'.toAgentTables teamId rootTaskId

theorem cancelAgentTaskSubtree_cancels {teamId : AgentTeamId} {rootTaskId : AgentTaskId}
    {reason : Option Text} {now : Timestamp} {store store' : AgentStore}
    {result : SubtreeCancellationResult}
    (h : cancelAgentTaskSubtree teamId rootTaskId reason now store = .ok (store', result)) :
    ∃ rows, SubtreeCancelled store store' teamId rootTaskId now result rows := by
  obtain ⟨first, record, h⟩ := bind_eq_ok.mp h
  obtain ⟨second, loop, done⟩ := bind_eq_ok.mp h
  cases done
  obtain ⟨tasks, waits, attempts, marks⟩ := recordSubtreeCancellation_marks record
  have cancelled := cancelSubtreeTasks_cancel loop
  refine ⟨_, ⟨?_, fun row => ?_, fun attempt other => ?_⟩, fun task => ?_, fun taskId => ?_, rfl,
    ?_⟩
  · rw [cancelled.tasks, tasks]
  · rw [cancelled.dependencies, waits]
  · rw [cancelled.attempts attempt other, attempts]
  · rw [List.mem_filter, decide_eq_true_eq, mem_subtreeTasks_iff]
  · simp only [List.mem_map, List.mem_filter, decide_eq_true_eq, mem_subtreeTasks_iff]
    constructor
    · rintro ⟨task, ⟨⟨mem, team, inside⟩, running⟩, rfl⟩
      exact ⟨task, mem, rfl, team, inside, running⟩
    · rintro ⟨task, mem, rfl, team, inside, running⟩
      exact ⟨task, ⟨⟨mem, team, inside⟩, running⟩, rfl⟩
  · rintro ⟨root, rootMem, rootTeam, rfl⟩
    have found : root ∈ subtreeTasks store.toAgentTables teamId root.id :=
      mem_subtreeTasks_iff.mpr ⟨rootMem, rootTeam, ⟨root, rootMem, rootTeam, rfl⟩, .refl⟩
    have marked := marks fun none => by
      rw [none] at found
      exact absurd found List.not_mem_nil
    have run : Statements (.cancelSubtree teamId root.id reason now) first.toAgentTables
        store'.toAgentTables := foldlM_statements (fun _ _ _ => cancelSubtreeTask_statements) loop
    have plain : ∀ instanceId, AgentAction.cancelSubtree teamId root.id reason now ≠
        .deleteInstance instanceId := fun _ => nofun
    exact run.invariant (fun tables => Marked tables teamId root.id)
      (fun _ _ marked step => step.marked rfl plain marked) marked

namespace SubtreeCancelled

variable {store store' : AgentStore} {teamId : AgentTeamId} {rootTaskId : AgentTaskId}
  {now : Timestamp} {result : SubtreeCancellationResult} {rows : List AgentTask}

/-- The statement hits exactly the rows it was meant for. -/
theorem selects_iff (spec : SubtreeCancelled store store' teamId rootTaskId now result rows)
    {row : AgentTask} (mem : row ∈ store.tasks) :
    (rows.any fun task => cancels teamId task row) = true ↔ row ∈ rows := by
  constructor
  · intro hit
    obtain ⟨task, taskMem, selected⟩ := List.any_eq_true.mp hit
    have stored := ((spec.mem_rows task).mp taskMem).1.1
    have same := store.schema.tasks.ids.eq mem stored (of_decide_eq_true selected).2.1
    exact same ▸ taskMem
  · intro rowMem
    obtain ⟨⟨-, team, -⟩, pending⟩ := (spec.mem_rows row).mp rowMem
    exact List.any_eq_true.mpr ⟨row, rowMem, decide_eq_true ⟨team, rfl, pending⟩⟩

/-- A row afterwards is a cancelled one or a row that was left alone. -/
theorem mem_after (spec : SubtreeCancelled store store' teamId rootTaskId now result rows)
    {task : AgentTask} : task ∈ store'.tasks ↔
      (∃ old ∈ rows, task = old.setStatus .cancelled now) ∨ (task ∈ store.tasks ∧ task ∉ rows) := by
  rw [spec.cancelled.tasks, mem_update]
  constructor
  · rintro ⟨old, oldMem, rfl⟩
    by_cases hit : old ∈ rows
    · rw [if_pos ((spec.selects_iff oldMem).mpr hit)]
      exact .inl ⟨old, hit, rfl⟩
    · rw [if_neg fun selected => hit ((spec.selects_iff oldMem).mp selected)]
      exact .inr ⟨oldMem, hit⟩
  · rintro (⟨old, oldMem, rfl⟩ | ⟨mem, other⟩)
    · have stored := ((spec.mem_rows old).mp oldMem).1.1
      exact ⟨old, stored, by rw [if_pos ((spec.selects_iff stored).mpr oldMem)]⟩
    · exact ⟨task, mem, by rw [if_neg fun selected => other ((spec.selects_iff mem).mp selected)]⟩

theorem inSubtree_iff (spec : SubtreeCancelled store store' teamId rootTaskId now result rows)
    {taskId : AgentTaskId} : InSubtree store'.toAgentTables teamId rootTaskId taskId ↔
      InSubtree store.toAgentTables teamId rootTaskId taskId :=
  inSubtree_update (.setStatus _ _) spec.cancelled.tasks

end SubtreeCancelled

/-! ## Cancellations over every run -/

/-- The machine from a store on. -/
def agentMachineFrom (store : AgentStore) : Machine AgentStore AgentAction :=
  { agentMachine with start := store }

/-- A step commits an operation or changes nothing. -/
theorem agentStep_cases {store store' : AgentStore} {action : AgentAction}
    (step : agentMachine.step store action = some store') :
    action.commit store = .ok store' ∨ store' = store := by
  simp only [agentMachine] at step
  split at step
  · rename_i committed
    cases step
    exact .inl committed
  · cases step
    exact .inr rfl

theorem parentsFirst_step {store store' : AgentStore} {action : AgentAction}
    (first : ParentsFirst store.toAgentTables)
    (step : agentMachine.step store action = some store') : ParentsFirst store'.toAgentTables := by
  rcases agentStep_cases step with committed | rfl
  · exact (commit_statements committed).invariant ParentsFirst
      (fun _ _ first step => step.parentsFirst first) first
  · exact first

theorem parentsFirst_of_reachable {store : AgentStore} (reached : agentMachine.Reachable store) :
    ParentsFirst store.toAgentTables := by
  have start : ParentsFirst agentMachine.start.toAgentTables :=
    ⟨List.Pairwise.nil, fun row mem => absurd mem List.not_mem_nil⟩
  have keep : ∀ state action state', ParentsFirst state.toAgentTables →
      agentMachine.step state action = some state' → ParentsFirst state'.toAgentTables :=
    fun _ _ _ first step => parentsFirst_step first step
  exact Machine.Reachable.invariant start keep reached

/-- What stays as long as a marked root is neither retried nor deleted. -/
structure StaysMarked (teamId : AgentTeamId) (rootTaskId : AgentTaskId) (store : AgentStore) :
    Prop where
  marked : Marked store.toAgentTables teamId rootTaskId
  first : ParentsFirst store.toAgentTables

theorem staysMarked_of_reachable {teamId : AgentTeamId} {rootTaskId : AgentTaskId}
    {store later : AgentStore} (stays : StaysMarked teamId rootTaskId store)
    (reached : (agentMachineFrom store).ReachableWhile
      (fun state action => keepsRoot teamId rootTaskId state action = true) later) :
    StaysMarked teamId rootTaskId later := by
  have start : StaysMarked teamId rootTaskId (agentMachineFrom store).start := stays
  have keep : ∀ state action state', StaysMarked teamId rootTaskId state →
      keepsRoot teamId rootTaskId state action = true →
      (agentMachineFrom store).step state action = some state' →
      StaysMarked teamId rootTaskId state' := by
    intro state action state' stays keeps step
    refine ⟨?_, parentsFirst_step stays.first step⟩
    rcases agentStep_cases step with committed | rfl
    · exact commit_marked stays.marked keeps committed
    · exact stays.marked
  exact reached.invariant start keep

/-- In every reachable state: a cancellation that fails changes nothing. One that succeeds
leaves no task of the subtree queued or waiting, returns the running tasks of the subtree and
the rows that it changed, leaves the rows, attempts and dependencies of every other task alone;
and as long as the root is neither retried nor deleted, no task enqueued later is below it. -/
theorem subtree_cancellation_holds : ∀ store : AgentStore, agentMachine.Reachable store →
    ∀ teamId rootTaskId reason now,
    (∀ error, cancelAgentTaskSubtree teamId rootTaskId reason now store = .error error →
      agentMachine.step store (.cancelSubtree teamId rootTaskId reason now) = some store) ∧
    ∀ store' result,
      cancelAgentTaskSubtree teamId rootTaskId reason now store = .ok (store', result) →
      (∀ taskId, InSubtree store'.toAgentTables teamId rootTaskId taskId ↔
        InSubtree store.toAgentTables teamId rootTaskId taskId) ∧
      (∀ task ∈ store'.tasks, InSubtree store'.toAgentTables teamId rootTaskId task.id →
        task.status ≠ .queued ∧ task.status ≠ .waiting) ∧
      (∀ taskId, taskId ∈ result.runningTaskIds ↔ ∃ task ∈ store'.tasks, task.id = taskId ∧
        InSubtree store'.toAgentTables teamId rootTaskId task.id ∧ task.status = .running) ∧
      (∀ task, task ∈ result.cancelledTasks ↔ task ∈ store'.tasks ∧ task ∉ store.tasks) ∧
      (∀ task ∈ store.tasks, ¬ InSubtree store.toAgentTables teamId rootTaskId task.id →
        task ∈ store'.tasks ∧
        (∀ attempt : AgentAttempt, attempt.taskId = task.id →
          (attempt ∈ store'.attempts ↔ attempt ∈ store.attempts)) ∧
        ∀ row : AgentTaskDependency, row.waitingTaskId = task.id →
          (row ∈ store'.dependencies ↔ row ∈ store.dependencies)) ∧
      ((∃ root ∈ store.tasks, root.teamId = teamId ∧ root.id = rootTaskId) →
        ∀ later, (agentMachineFrom store').ReachableWhile
            (fun state action => keepsRoot teamId rootTaskId state action = true) later →
          ∀ task maxTeam maxInstance maxChat enqueuedAt after,
            enqueueAgentTaskWithLimits task maxTeam maxInstance maxChat enqueuedAt later =
              .ok (after, ()) →
            ¬ TransGen (ChildOf after.toAgentTables teamId) rootTaskId task.id) := by
  intro store reached teamId rootTaskId reason now
  refine ⟨?_, ?_⟩
  · intro error h
    simp only [agentMachine, AgentAction.commit, h]
    rfl
  intro store' result h
  obtain ⟨rows, spec⟩ := cancelAgentTaskSubtree_cancels h
  have inside : ∀ taskId, InSubtree store'.toAgentTables teamId rootTaskId taskId ↔
      InSubtree store.toAgentTables teamId rootTaskId taskId := fun _ => spec.inSubtree_iff
  refine ⟨inside, ?_, ?_, ?_, ?_, ?_⟩
  · intro task mem subtree
    rcases spec.mem_after.mp mem with ⟨old, -, rfl⟩ | ⟨stored, other⟩
    · exact ⟨by simp, by simp⟩
    · have subtree := (inside task.id).mp subtree
      have team := team_of_inSubtree store.schema stored subtree
      constructor
      · intro queued
        exact other ((spec.mem_rows task).mpr ⟨⟨stored, team, subtree⟩, .inl queued⟩)
      · intro waiting
        exact other ((spec.mem_rows task).mpr ⟨⟨stored, team, subtree⟩, .inr waiting⟩)
  · intro taskId
    rw [spec.running]
    constructor
    · rintro ⟨task, mem, rfl, -, subtree, running⟩
      refine ⟨task, spec.mem_after.mpr (.inr ⟨mem, ?_⟩), rfl, (inside _).mpr subtree, running⟩
      intro row
      have pending := ((spec.mem_rows task).mp row).2
      rw [running] at pending
      simp at pending
    · rintro ⟨task, mem, rfl, subtree, running⟩
      rcases spec.mem_after.mp mem with ⟨old, -, rfl⟩ | ⟨stored, -⟩
      · cases running
      · have subtree := (inside _).mp subtree
        exact ⟨task, stored, rfl, team_of_inSubtree store.schema stored subtree, subtree, running⟩
  · intro task
    rw [spec.returned, List.mem_map]
    constructor
    · rintro ⟨old, oldMem, rfl⟩
      refine ⟨spec.mem_after.mpr (.inl ⟨old, oldMem, rfl⟩), ?_⟩
      intro stored
      obtain ⟨⟨oldStored, -⟩, pending⟩ := (spec.mem_rows old).mp oldMem
      have same := store.schema.tasks.ids.eq stored oldStored rfl
      rw [← same] at pending
      simp at pending
    · rintro ⟨mem, changed⟩
      rcases spec.mem_after.mp mem with ⟨old, oldMem, rfl⟩ | ⟨stored, -⟩
      · exact ⟨old, oldMem, rfl⟩
      · exact absurd stored changed
  · intro task mem outside
    have other : task ∉ rows := fun row => outside ((spec.mem_rows task).mp row).1.2.2
    have ids : task.id ∉ rows.map AgentTask.id := by
      intro listed
      obtain ⟨row, rowMem, ident⟩ := List.mem_map.mp listed
      have stored := ((spec.mem_rows row).mp rowMem).1.1
      exact other (store.schema.tasks.ids.eq mem stored ident.symm ▸ rowMem)
    refine ⟨spec.mem_after.mpr (.inr ⟨mem, other⟩), ?_, ?_⟩
    · intro attempt tries
      exact spec.cancelled.attempts attempt (tries ▸ ids)
    · intro row waits
      rw [spec.cancelled.dependencies, waits]
      exact ⟨fun kept => kept.1, fun stored => ⟨stored, ids⟩⟩
  · intro root later laterReached task maxTeam maxInstance maxChat enqueuedAt after enqueued
    have step : agentMachine.step store (.cancelSubtree teamId rootTaskId reason now) =
        some store' := by
      simp only [agentMachine, AgentAction.commit, h]
      rfl
    have first := parentsFirst_step (parentsFirst_of_reachable reached) step
    have stays := staysMarked_of_reachable ⟨spec.marked root, first⟩ laterReached
    exact enqueue_not_below stays.first stays.marked enqueued

/-- The rules on a waiting task with a queued child. -/
theorem subtree_cancellation_of_delegated_wait : ∃ store store' result,
    agentMachine.Reachable store ∧
    cancelAgentTaskSubtree 1 1 none [] store = .ok (store', result) ∧
    result.cancelledTasks.length = 2 ∧
    ∀ task ∈ store'.tasks, InSubtree store'.toAgentTables 1 1 task.id →
      task.status ≠ .queued ∧ task.status ≠ .waiting := by
  have run : ((agentMachine.run .empty delegatedWait).any fun store =>
      match cancelAgentTaskSubtree 1 1 none [] store with
      | .ok (_, result) => decide (result.cancelledTasks.length = 2)
      | .error _ => false) = true := by decide
  obtain ⟨store, reaches, seen⟩ := (Option.any_eq_true ..).mp run
  have reached := Machine.reachable_of_run .start reaches
  cases cancels : cancelAgentTaskSubtree 1 1 none [] store with
  | error _ =>
    rw [cancels] at seen
    cases seen
  | ok outcome =>
    obtain ⟨store', result⟩ := outcome
    rw [cancels] at seen
    obtain ⟨-, succeeds⟩ := subtree_cancellation_holds store reached 1 1 none []
    obtain ⟨-, none, -⟩ := succeeds store' result cancels
    exact ⟨store, store', result, reached, cancels, of_decide_eq_true seen, none⟩

end Foco.AgentRuntime
