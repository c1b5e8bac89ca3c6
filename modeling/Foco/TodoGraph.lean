import Foco.DepthFirst
import Foco.Result
import Foco.RustText

/-!
`store/workspace.rs`, the check of a todo graph: a tree of tasks that name tasks they depend on,
anywhere in the tree. The ids and the dependencies go into hash maps; the order in which these are
iterated is arbitrary.
-/
namespace Foco.TodoGraph
open Foco.RustText Foco.Maps Foco.Result Foco.DepthFirst Relation

/-! ## Tasks -/

structure TodoGraphTask where
  id : Text
  status : Text
  dependsOn : List Text
  subtasks : List TodoGraphTask

def todoGraphStatuses : List Text :=
  ["pending", "ready", "running", "blocked", "completed", "failed", "cancelled"].map String.toList

def isTodoGraphStatus (status : Text) : Bool := todoGraphStatuses.contains status

mutual

/-- A task and the tasks below it. -/
def withSubtasks : TodoGraphTask → List TodoGraphTask
  | ⟨id, status, dependsOn, subtasks⟩ => ⟨id, status, dependsOn, subtasks⟩ :: allTasks subtasks

/-- All tasks of the tree, a task before its subtasks. -/
def allTasks : List TodoGraphTask → List TodoGraphTask
  | [] => []
  | task :: tasks => withSubtasks task ++ allTasks tasks

end

/-! ## The check -/

abbrev Dependencies := Map Text (List Text)

structure Collected where
  taskIds : Finset Text := ∅
  dependencies : Dependencies := ∅

/-- The checks of one task in `collect_todo_graph_ids`. -/
def collectTask (collected : Collected) (task : TodoGraphTask) : Except Text Collected :=
  if task.id ∈ collected.taskIds then .error ("duplicate task id: ".toList ++ task.id)
  else if isTodoGraphStatus task.status then
    .ok { taskIds := insert task.id collected.taskIds
          dependencies := collected.dependencies.insert task.id task.dependsOn }
  else .error ("task '".toList ++ task.id ++ "' has invalid status '".toList ++ task.status ++
    "'".toList)

mutual

/-- The body of the loop of `collect_todo_graph_ids`. -/
def collectWithSubtasks : TodoGraphTask → Collected → Except Text Collected
  | ⟨id, status, dependsOn, subtasks⟩, collected => do
    let collected ← collectTask collected ⟨id, status, dependsOn, subtasks⟩
    collectTodoGraphIds subtasks collected

def collectTodoGraphIds : List TodoGraphTask → Collected → Except Text Collected
  | [], collected => .ok collected
  | task :: tasks, collected => do
    let collected ← collectWithSubtasks task collected
    collectTodoGraphIds tasks collected

end

/-- The checks of one dependency. -/
def checkDependency (taskIds : Finset Text) (taskId dependencyId : Text) : Except Text Unit :=
  if dependencyId = taskId then
    .error ("task '".toList ++ taskId ++ "' cannot depend on itself".toList)
  else if dependencyId ∉ taskIds then
    .error ("task '".toList ++ taskId ++ "' depends on missing task '".toList ++ dependencyId ++
      "'".toList)
  else .ok ()

/-- The dependencies of a task, none if it is not in the map. -/
def dependenciesOf (dependencies : Dependencies) (taskId : Text) : List Text :=
  (dependencies.lookup taskId).getD []

/-- An order in which a hash map is iterated. -/
structure IterationOrder where
  keys : Dependencies → List Text
  perm : ∀ dependencies, (keys dependencies).Perm dependencies.keys

def checkDependencies (order : IterationOrder) (collected : Collected) : Except Text Unit :=
  forM (order.keys collected.dependencies) fun taskId =>
    forM (dependenciesOf collected.dependencies taskId) (checkDependency collected.taskIds taskId)

/-- `validate_todo_graph_dependency_cycles`; none if the fuel has run out. -/
def validateTodoGraphDependencyCycles (order : IterationOrder) (fuel : Nat)
    (dependencies : Dependencies) : Option (Except Text Unit) :=
  match searchAll (dependenciesOf dependencies) fuel (order.keys dependencies) with
  | none => none
  | some (.ok _) => some (.ok ())
  | some (.error taskId) =>
    some (.error ("todo graph dependencies contain a cycle at '".toList ++ taskId ++ "'".toList))

def validateTodoGraphTasks (order : IterationOrder) (fuel : Nat) (tasks : List TodoGraphTask) :
    Option (Except Text Unit) :=
  match collectTodoGraphIds tasks {} with
  | .error message => some (.error message)
  | .ok collected =>
    match checkDependencies order collected with
    | .error message => some (.error message)
    | .ok _ => validateTodoGraphDependencyCycles order fuel collected.dependencies

/-! ## What a valid tree is -/

def DependsOn (tasks : List TodoGraphTask) (source target : Text) : Prop :=
  ∃ task ∈ allTasks tasks, task.id = source ∧ target ∈ task.dependsOn

structure Valid (tasks : List TodoGraphTask) : Prop where
  distinct : ((allTasks tasks).map TodoGraphTask.id).Nodup
  statuses : ∀ task ∈ allTasks tasks, isTodoGraphStatus task.status = true
  known : ∀ task ∈ allTasks tasks, ∀ target ∈ task.dependsOn,
    target ∈ (allTasks tasks).map TodoGraphTask.id
  irreflexive : ∀ task ∈ allTasks tasks, task.id ∉ task.dependsOn
  acyclic : ∀ id, ¬TransGen (DependsOn tasks) id id

/-! ## Collecting -/

mutual

theorem collectWithSubtasks_eq : ∀ (task : TodoGraphTask) (collected : Collected),
    collectWithSubtasks task collected = (withSubtasks task).foldlM collectTask collected
  | ⟨id, status, dependsOn, subtasks⟩, collected => by
    rw [collectWithSubtasks, withSubtasks, List.foldlM_cons]
    exact bind_congr fun collected => collectTodoGraphIds_eq subtasks collected

/-- The recursion over the tree is a loop over all its tasks. -/
theorem collectTodoGraphIds_eq : ∀ (tasks : List TodoGraphTask) (collected : Collected),
    collectTodoGraphIds tasks collected = (allTasks tasks).foldlM collectTask collected
  | [], collected => rfl
  | task :: tasks, collected => by
    rw [collectTodoGraphIds, allTasks, List.foldlM_append, collectWithSubtasks_eq task]
    exact bind_congr fun collected => collectTodoGraphIds_eq tasks collected

end

/-- The tasks so far have been collected. -/
structure Collected.Holds (collected : Collected) (done : List TodoGraphTask) : Prop where
  taskIds : ∀ id, id ∈ collected.taskIds ↔ ∃ task ∈ done, task.id = id
  dependencies : ∀ id dependsOn, collected.dependencies.lookup id = some dependsOn ↔
    ∃ task ∈ done, task.id = id ∧ task.dependsOn = dependsOn
  distinct : (done.map TodoGraphTask.id).Nodup
  statuses : ∀ task ∈ done, isTodoGraphStatus task.status = true

theorem holds_nil : ({} : Collected).Holds [] := by
  constructor <;> simp

section Collecting

variable {collected collected' : Collected} {done tasks : List TodoGraphTask} {task : TodoGraphTask}

theorem collectTask_eq_ok : collectTask collected task = .ok collected' ↔
    task.id ∉ collected.taskIds ∧ isTodoGraphStatus task.status = true ∧
      collected' = { taskIds := insert task.id collected.taskIds
                     dependencies := collected.dependencies.insert task.id task.dependsOn } := by
  rw [collectTask]
  by_cases known : task.id ∈ collected.taskIds
  · simp [known]
  · by_cases status : isTodoGraphStatus task.status = true
    · simp [known, status, eq_comm]
    · simp [known, status]

/-- One more task with a new id has been collected. -/
theorem Collected.Holds.concat (holds : collected.Holds done)
    (ok : collectTask collected task = .ok collected') : collected'.Holds (done ++ [task]) := by
  obtain ⟨fresh, status, rfl⟩ := collectTask_eq_ok.mp ok
  have new : ∀ other ∈ done, other.id ≠ task.id := fun other mem same =>
    fresh ((holds.taskIds task.id).mpr ⟨other, mem, same⟩)
  refine ⟨fun id => ?_, fun id dependsOn => ?_, ?_, ?_⟩
  · dsimp only
    rw [Finset.mem_insert, holds.taskIds]
    constructor
    · rintro (rfl | ⟨other, mem, rfl⟩)
      · exact ⟨task, by simp, rfl⟩
      · exact ⟨other, by simp [mem], rfl⟩
    · rintro ⟨other, mem, rfl⟩
      obtain old | last := List.mem_append.mp mem
      · exact .inr ⟨other, old, rfl⟩
      · exact .inl (congrArg _ (List.mem_singleton.mp last))
  · dsimp only
    rw [Map.lookup_insert_eq_ite]
    by_cases same : id = task.id
    · subst same
      rw [if_pos rfl]
      constructor
      · intro here
        exact ⟨task, by simp, rfl, Option.some.inj here⟩
      · rintro ⟨other, mem, same, rfl⟩
        obtain old | last := List.mem_append.mp mem
        · exact absurd same (new other old)
        · rw [List.mem_singleton.mp last]
    · rw [if_neg same, holds.dependencies]
      constructor
      · rintro ⟨other, mem, rest⟩
        exact ⟨other, List.mem_append_left _ mem, rest⟩
      · rintro ⟨other, mem, here, rest⟩
        obtain old | last := List.mem_append.mp mem
        · exact ⟨other, old, here, rest⟩
        · rw [List.mem_singleton.mp last] at here
          exact absurd here.symm same
  · rw [List.map_append, List.map_singleton, ← List.concat_eq_append, List.nodup_concat]
    refine ⟨fun mem => ?_, holds.distinct⟩
    obtain ⟨other, mem, same⟩ := List.mem_map.mp mem
    exact new other mem same
  · intro other mem
    obtain old | last := List.mem_append.mp mem
    · exact holds.statuses other old
    · rwa [List.mem_singleton.mp last]

theorem Collected.Holds.foldlM (holds : collected.Holds done)
    (ok : tasks.foldlM collectTask collected = .ok collected') :
    collected'.Holds (done ++ tasks) := by
  induction tasks generalizing collected done with
  | nil =>
    cases ok
    rwa [List.append_nil]
  | cons task tasks ih =>
    obtain ⟨between, first, rest⟩ := bind_eq_ok.mp ok
    have later := ih (holds.concat first) rest
    rwa [List.append_assoc] at later

/-- Tasks with new ids and known statuses are collected. -/
theorem Collected.Holds.exists_foldlM (holds : collected.Holds done)
    (distinct : ((done ++ tasks).map TodoGraphTask.id).Nodup)
    (statuses : ∀ task ∈ tasks, isTodoGraphStatus task.status = true) :
    ∃ collected', tasks.foldlM collectTask collected = .ok collected' := by
  induction tasks generalizing collected done with
  | nil => exact ⟨collected, rfl⟩
  | cons task tasks ih =>
    have fresh : task.id ∉ collected.taskIds := by
      rw [holds.taskIds]
      rintro ⟨other, mem, same⟩
      rw [List.map_append, List.map_cons] at distinct
      exact List.disjoint_of_nodup_append distinct (List.mem_map_of_mem mem)
        (by rw [same]; exact List.mem_cons_self)
    have first := collectTask_eq_ok.mpr ⟨fresh, statuses task List.mem_cons_self, rfl⟩
    obtain ⟨collected', rest⟩ := ih (holds.concat first) (by rwa [List.append_assoc])
      fun other mem => statuses other (List.mem_cons_of_mem _ mem)
    exact ⟨collected', bind_eq_ok.mpr ⟨_, first, rest⟩⟩

/-! ## The dependencies -/

theorem edge_iff (holds : collected.Holds (allTasks tasks)) {source target : Text} :
    Edge (dependenciesOf collected.dependencies) source target ↔ DependsOn tasks source target := by
  rw [Edge, dependenciesOf]
  constructor
  · intro edge
    rcases found : collected.dependencies.lookup source with _ | dependsOn
    · rw [found] at edge
      cases edge
    · rw [found] at edge
      obtain ⟨task, mem, named, rfl⟩ := (holds.dependencies source dependsOn).mp found
      exact ⟨task, mem, named, edge⟩
  · rintro ⟨task, mem, rfl, edge⟩
    rw [(holds.dependencies task.id task.dependsOn).mpr ⟨task, mem, rfl, rfl⟩]
    exact edge

theorem acyclic_iff (holds : collected.Holds (allTasks tasks)) :
    Acyclic (dependenciesOf collected.dependencies) ↔ ∀ id, ¬TransGen (DependsOn tasks) id id := by
  have same : Edge (dependenciesOf collected.dependencies) = DependsOn tasks :=
    funext₂ fun _ _ => propext (edge_iff holds)
  rw [Acyclic, same]

theorem mem_keys_iff (order : IterationOrder) (holds : collected.Holds done) {id : Text} :
    id ∈ order.keys collected.dependencies ↔ ∃ task ∈ done, task.id = id := by
  rw [(order.perm _).mem_iff, ← AList.mem_keys, ← AList.lookup_isSome, Option.isSome_iff_exists]
  constructor
  · rintro ⟨dependsOn, found⟩
    obtain ⟨task, mem, named, -⟩ := (holds.dependencies id dependsOn).mp found
    exact ⟨task, mem, named⟩
  · rintro ⟨task, mem, rfl⟩
    exact ⟨task.dependsOn, (holds.dependencies _ _).mpr ⟨task, mem, rfl, rfl⟩⟩

theorem checkDependency_eq_ok {taskIds : Finset Text} {taskId dependencyId : Text} :
    checkDependency taskIds taskId dependencyId = .ok () ↔
      dependencyId ≠ taskId ∧ dependencyId ∈ taskIds := by
  rw [checkDependency]
  by_cases self : dependencyId = taskId
  · simp [self]
  · by_cases known : dependencyId ∈ taskIds <;> simp [self, known]

/-- Every dependency is that of another task of the tree. -/
theorem checkDependencies_eq_ok (order : IterationOrder)
    (holds : collected.Holds (allTasks tasks)) :
    checkDependencies order collected = .ok () ↔ ∀ source target, DependsOn tasks source target →
      target ≠ source ∧ target ∈ (allTasks tasks).map TodoGraphTask.id := by
  rw [checkDependencies, forM_eq_ok]
  simp only [forM_eq_ok, checkDependency_eq_ok]
  constructor
  · intro checked source target depends
    obtain ⟨task, mem, rfl, -⟩ := id depends
    obtain ⟨apart, known⟩ := checked task.id ((mem_keys_iff order holds).mpr ⟨task, mem, rfl⟩)
      target ((edge_iff holds).mpr depends)
    exact ⟨apart, List.mem_map.mpr ((holds.taskIds target).mp known)⟩
  · intro good source _ target edge
    obtain ⟨apart, known⟩ := good source target ((edge_iff holds).mp edge)
    exact ⟨apart, (holds.taskIds target).mpr (List.mem_map.mp known)⟩

end Collecting

/-! ## The verdict -/

/-- As deep as the search can go. -/
def searchDepth (tasks : List TodoGraphTask) : Nat := (allTasks tasks).length + 1

/-- The search for cycles comes to an end if every dependency is known. -/
theorem searchAll_isSome (order : IterationOrder) {collected : Collected}
    {tasks : List TodoGraphTask} (holds : collected.Holds (allTasks tasks)) (extra : Nat)
    (known : ∀ source target, DependsOn tasks source target →
      target ∈ (allTasks tasks).map TodoGraphTask.id) :
    (searchAll (dependenciesOf collected.dependencies) (searchDepth tasks + extra)
      (order.keys collected.dependencies)).isSome = true := by
  have closed : ∀ source ∈ collected.taskIds,
      ∀ target ∈ dependenciesOf collected.dependencies source, target ∈ collected.taskIds := by
    intro source _ target edge
    rw [holds.taskIds]
    exact List.mem_map.mp (known source target ((edge_iff holds).mp edge))
  have rooted : ∀ root ∈ order.keys collected.dependencies, root ∈ collected.taskIds := by
    intro root mem
    rw [holds.taskIds]
    exact (mem_keys_iff order holds).mp mem
  have few : collected.taskIds ⊆ ((allTasks tasks).map TodoGraphTask.id).toFinset := by
    intro id mem
    rw [List.mem_toFinset, List.mem_map]
    exact (holds.taskIds id).mp mem
  have bound : collected.taskIds.card ≤ (allTasks tasks).length :=
    ((Finset.card_le_card few).trans (List.toFinset_card_le _)).trans_eq (List.length_map _)
  exact searchAll_terminates closed rooted (by rw [searchDepth]; omega)

/-- The verdict on collected tasks whose dependencies are known. -/
theorem validateTodoGraphDependencyCycles_spec (order : IterationOrder) {collected : Collected}
    {tasks : List TodoGraphTask} (holds : collected.Holds (allTasks tasks)) (extra : Nat)
    (known : ∀ source target, DependsOn tasks source target →
      target ∈ (allTasks tasks).map TodoGraphTask.id) :
    ∃ verdict, validateTodoGraphDependencyCycles order (searchDepth tasks + extra)
      collected.dependencies = some verdict ∧
        (verdict.isOk = true ↔ ∀ id, ¬TransGen (DependsOn tasks) id id) := by
  have ends := searchAll_isSome order holds extra known
  rw [← acyclic_iff holds, validateTodoGraphDependencyCycles]
  rcases searched : searchAll (dependenciesOf collected.dependencies) (searchDepth tasks + extra)
    (order.keys collected.dependencies) with _ | met | marks
  · rw [searched] at ends
    cases ends
  · refine ⟨_, rfl, ⟨nofun, fun acyclic => ?_⟩⟩
    exact absurd (cycle_of_searchAll searched) (acyclic met)
  · refine ⟨_, rfl, ⟨fun _ => acyclic_of_searchAll (fun id leaves => ?_) searched, fun _ => rfl⟩⟩
    obtain ⟨target, edge⟩ := List.exists_mem_of_ne_nil _ leaves
    obtain ⟨task, mem, named, -⟩ := (edge_iff holds).mp edge
    exact (mem_keys_iff order holds).mpr ⟨task, mem, named⟩

theorem Valid.depends {tasks : List TodoGraphTask} (valid : Valid tasks) {source target : Text}
    (depends : DependsOn tasks source target) :
    target ≠ source ∧ target ∈ (allTasks tasks).map TodoGraphTask.id := by
  obtain ⟨task, mem, rfl, edge⟩ := depends
  exact ⟨fun same => valid.irreflexive task mem (same ▸ edge), valid.known task mem target edge⟩

/-- The check comes to an end and accepts exactly the valid trees, in whatever order the map is
iterated. -/
theorem validateTodoGraphTasks_spec (order : IterationOrder) (tasks : List TodoGraphTask)
    (extra : Nat) :
    ∃ verdict, validateTodoGraphTasks order (searchDepth tasks + extra) tasks = some verdict ∧
      (verdict.isOk = true ↔ Valid tasks) := by
  rw [validateTodoGraphTasks, collectTodoGraphIds_eq]
  rcases collecting : (allTasks tasks).foldlM collectTask {} with message | collected
  · refine ⟨_, rfl, ⟨nofun, fun valid => ?_⟩⟩
    obtain ⟨collected, ok⟩ := holds_nil.exists_foldlM valid.distinct valid.statuses
    cases collecting.symm.trans ok
  have holds : collected.Holds (allTasks tasks) := holds_nil.foldlM collecting
  dsimp only
  rcases checking : checkDependencies order collected with message | ⟨⟨⟩⟩
  · refine ⟨_, rfl, ⟨nofun, fun valid => ?_⟩⟩
    have ok := (checkDependencies_eq_ok order holds).mpr fun source target => valid.depends
    cases checking.symm.trans ok
  have good := (checkDependencies_eq_ok order holds).mp checking
  obtain ⟨verdict, reached, accepts⟩ := validateTodoGraphDependencyCycles_spec order holds extra
    fun source target depends => (good source target depends).2
  refine ⟨verdict, reached, accepts.trans ⟨fun acyclic => ?_, fun valid => valid.acyclic⟩⟩
  refine ⟨holds.distinct, holds.statuses, fun task mem target edge => ?_, fun task mem edge => ?_,
    acyclic⟩
  · exact (good task.id target ⟨task, mem, rfl, edge⟩).2
  · exact (good task.id task.id ⟨task, mem, rfl, edge⟩).1 rfl

end Foco.TodoGraph
