import Foco.ToolLocks
import Mathlib.Data.List.Pairwise

/-!
`agent/lib.rs::plan_tool_execution`: a batch of pending tool calls is analysed,
rejected when two calls conflict in a way no order resolves, and otherwise cut into
groups. A sequential call is a group of its own; the calls between two of them run
in parallel groups, a new one being opened where a workspace file would be read and
written, or edited twice, in one group.
-/
namespace Foco.ToolPlanning
open Foco.RustText Foco.ToolLocks
open Foco.Result (bind_eq_ok pure_eq_ok forM_eq_ok)

/-! ## Analysis of one call -/

/-- `FileWriteKind`. -/
inductive FileWriteKind where
  | replaceExact | patchEdit | lineRangeOrFull
  deriving DecidableEq

/-- `file_write_kind`. -/
def fileWriteKind (toolName : String) : Option FileWriteKind :=
  if toolName = editFileToolName then some .replaceExact
  else if toolName = applyPatchToolName then some .patchEdit
  else if toolName = writeFileToolName then some .lineRangeOrFull
  else none

/-- `is_contextual_file_edit`. -/
def isContextualFileEdit (kind : Option FileWriteKind) : Bool :=
  kind == some .replaceExact || kind == some .patchEdit

/-- `file_display_paths`: the display path under each lock key. The source collects the
pairs into a map, so a later pair replaces an earlier one with the same key. -/
def fileDisplayPaths (toolCall : PendingToolCall) : List (Text × Text) :=
  let paths :=
    if toolCall.name = applyPatchToolName then (applyPatchMarkerPaths toolCall).getD []
    else if toolCall.name ∈ [readFileToolName, writeFileToolName, editFileToolName] then
      ((toolCall.arguments.getStr "path").map normalizeWorkspacePathDisplay).toList
    else []
  paths.map fun path => (normalizeWorkspacePathKey path, path)

/-- `tool_call_requires_sequential_execution`. -/
def toolCallRequiresSequentialExecution (toolName : String) : Bool :=
  toolName ∈ ["ask_question", "run_command", "stop_command", "create_todo_graph",
    "update_todo_graph", "create_plan", "update_plan", "update_plan_step", "delete_plan",
    "memory_write"] || isMcpToolName toolName

/-- `AnalyzedToolCall`. -/
structure AnalyzedToolCall where
  requiresSequentialExecution : Bool
  locks : List ToolResourceLock
  fileWriteKind : Option FileWriteKind
  fileDisplayPaths : List (Text × Text)

/-- `display_path_for_resource`. -/
def AnalyzedToolCall.displayPathForResource (call : AnalyzedToolCall) :
    ToolResource → Option Text
  | .file path => (call.fileDisplayPaths.reverse.find? (·.1 == path)).map Prod.snd
  | _ => none

/-- A call whose arguments lack the path or scope is analysed with no locks at all. -/
def analyzedLocks (toolCall : PendingToolCall) :
    Except ToolConflictError (List ToolResourceLock) :=
  match toolResourceLocks toolCall with
  | .ok locks => .ok locks
  | .error (.missingPath _ _) => .ok []
  | .error (.missingScope _ _) => .ok []
  | .error error => .error error

/-- The sequential flag of an analysed call. -/
def requiresSequentialExecution (toolCall : PendingToolCall) : Bool :=
  toolCallRequiresSequentialExecution toolCall.name ||
    (toolCall.name == applyPatchToolName && (applyPatchMarkerPaths toolCall).isNone)

/-- The body of the first loop of `plan_tool_execution`. -/
def analyzeToolCall (toolCall : PendingToolCall) : Except ToolConflictError AnalyzedToolCall := do
  let locks ← analyzedLocks toolCall
  return {
    requiresSequentialExecution := requiresSequentialExecution toolCall
    locks := locks
    fileWriteKind := fileWriteKind toolCall.name
    fileDisplayPaths := fileDisplayPaths toolCall }

/-! ## Rejection -/

/-- `is_workspace_file_resource`. -/
def isWorkspaceFileResource : ToolResource → Bool
  | .workspaceFiles => true
  | .file _ => true
  | _ => false

/-- `is_orderable_workspace_file_conflict`. -/
def isOrderableWorkspaceFileConflict (firstLock : ToolResourceLock)
    (firstAnalysis : AnalyzedToolCall) (secondLock : ToolResourceLock)
    (secondAnalysis : AnalyzedToolCall) : Bool :=
  if !toolResourceLocksConflict firstLock secondLock ||
      !isWorkspaceFileResource firstLock.resource ||
      !isWorkspaceFileResource secondLock.resource then
    false
  else
    match firstLock.access, secondLock.access with
    | .read, .write => true
    | .write, .read => true
    | _, _ =>
      match firstLock.resource, secondLock.resource with
      | .file _, .file _ =>
        isContextualFileEdit firstAnalysis.fileWriteKind &&
          isContextualFileEdit secondAnalysis.fileWriteKind
      | _, _ => false

/-- The error of two whole-file conflicts that are not both contextual edits. -/
def fileWriteError (path : Text) (firstKind secondKind : Option FileWriteKind)
    (firstCallId secondCallId : String) : ToolConflictError :=
  if (firstKind = some .lineRangeOrFull ∧ isContextualFileEdit secondKind) ∨
      (secondKind = some .lineRangeOrFull ∧ isContextualFileEdit firstKind) then
    .mixedFileWriteMethods path firstCallId secondCallId
  else .sameFileWrite path firstCallId secondCallId

/-- The body of the lock loops of `reject_conflicting_parallel_tool_calls`. -/
def rejectConflictingLocks (firstCall : PendingToolCall) (firstAnalysis : AnalyzedToolCall)
    (secondCall : PendingToolCall) (secondAnalysis : AnalyzedToolCall)
    (firstLock secondLock : ToolResourceLock) : Except ToolConflictError Unit :=
  if !toolResourceLocksConflict firstLock secondLock then .ok ()
  else if firstLock.resource = .workspaceMutationLease ∧
      secondLock.resource = .workspaceMutationLease then .ok ()
  else
    let resourceConflict : Except ToolConflictError Unit :=
      if isOrderableWorkspaceFileConflict firstLock firstAnalysis secondLock secondAnalysis then
        .ok ()
      else
        .error (.resourceConflict firstLock.resource
          (firstAnalysis.displayPathForResource firstLock.resource) firstCall.id firstLock.access
          secondCall.id secondLock.access)
    match firstLock.access, secondLock.access, firstLock.resource with
    | .write, .write, .file path =>
      if isContextualFileEdit firstAnalysis.fileWriteKind &&
          isContextualFileEdit secondAnalysis.fileWriteKind then
        .ok ()
      else
        .error (fileWriteError
          ((firstAnalysis.displayPathForResource firstLock.resource).getD path)
          firstAnalysis.fileWriteKind secondAnalysis.fileWriteKind firstCall.id secondCall.id)
    | _, _, _ => resourceConflict

/-- `reject_conflicting_parallel_tool_calls`. -/
def rejectConflictingParallelToolCalls (firstCall : PendingToolCall)
    (firstAnalysis : AnalyzedToolCall) (secondCall : PendingToolCall)
    (secondAnalysis : AnalyzedToolCall) : Except ToolConflictError Unit :=
  forM firstAnalysis.locks fun firstLock =>
    forM secondAnalysis.locks fun secondLock =>
      rejectConflictingLocks firstCall firstAnalysis secondCall secondAnalysis firstLock secondLock

/-- The pair loops of `plan_tool_execution`: every later call against every earlier one. -/
def rejectConflictingPairs :
    List (PendingToolCall × AnalyzedToolCall) → Except ToolConflictError Unit
  | [] => .ok ()
  | first :: rest => do
    forM rest fun second =>
      if first.2.requiresSequentialExecution || second.2.requiresSequentialExecution then .ok ()
      else rejectConflictingParallelToolCalls first.1 first.2 second.1 second.2
    rejectConflictingPairs rest

/-! ## Grouping -/

/-- `ToolExecutionMode`. -/
inductive ToolExecutionMode where
  | parallel | sequential
  deriving DecidableEq

/-- `ToolExecutionGroup`. -/
structure ToolExecutionGroup where
  mode : ToolExecutionMode
  callIndices : List Nat
  deriving DecidableEq

/-- `ToolExecutionPlan`. -/
structure ToolExecutionPlan where
  groups : List ToolExecutionGroup
  deriving DecidableEq

/-- The variables of the grouping loop. -/
structure Grouping where
  groups : List ToolExecutionGroup
  pendingParallelIndices : List Nat

/-- `push_parallel_group`. -/
def pushParallelGroup (state : Grouping) : Grouping :=
  if state.pendingParallelIndices.isEmpty then state
  else ⟨state.groups ++ [⟨.parallel, state.pendingParallelIndices⟩], []⟩

/-- `analyzed_calls_have_orderable_workspace_file_conflict`. -/
def analyzedCallsHaveOrderableWorkspaceFileConflict (first second : AnalyzedToolCall) : Bool :=
  first.locks.any fun firstLock =>
    second.locks.any fun secondLock =>
      isOrderableWorkspaceFileConflict firstLock first secondLock second

/-- `push_parallel_group_before_orderable_workspace_file_conflict`. -/
def pushParallelGroupBeforeOrderableConflict (analyzedCalls : List AnalyzedToolCall)
    (currentCall : AnalyzedToolCall) (state : Grouping) : Grouping :=
  if state.pendingParallelIndices.any (fun index =>
      (analyzedCalls[index]?).any
        (analyzedCallsHaveOrderableWorkspaceFileConflict · currentCall)) then
    pushParallelGroup state
  else state

/-- The body of the grouping loop. -/
def groupCall (analyzedCalls : List AnalyzedToolCall) (state : Grouping)
    (entry : AnalyzedToolCall × Nat) : Grouping :=
  if entry.1.requiresSequentialExecution then
    let pushed := pushParallelGroup state
    { pushed with groups := pushed.groups ++ [⟨.sequential, [entry.2]⟩] }
  else
    let pushed := pushParallelGroupBeforeOrderableConflict analyzedCalls entry.1 state
    { pushed with pendingParallelIndices := pushed.pendingParallelIndices ++ [entry.2] }

/-- The grouping loop and the last flush of `plan_tool_execution`. -/
def groupCalls (analyzedCalls : List AnalyzedToolCall) : List ToolExecutionGroup :=
  (pushParallelGroup (analyzedCalls.zipIdx.foldl (groupCall analyzedCalls) ⟨[], []⟩)).groups

/-- `plan_tool_execution`. -/
def planToolExecution (toolCalls : List PendingToolCall) :
    Except ToolConflictError ToolExecutionPlan := do
  let analyzedCalls ← toolCalls.mapM analyzeToolCall
  rejectConflictingPairs (toolCalls.zip analyzedCalls)
  return ⟨groupCalls analyzedCalls⟩

/-! ## The locks a call holds -/

/-- The locks of a call in a plan: a call that lacks an argument holds none. -/
def heldLocks (toolCall : PendingToolCall) : List ToolResourceLock :=
  match toolResourceLocks toolCall with
  | .ok locks => locks
  | .error _ => []

/-- What a lock computation may return: the errors for a missing argument, or locks with a
workspace write lock only for a patch that the marker scan cannot read. -/
def LocksOrMissing (toolCall : PendingToolCall) :
    Except ToolConflictError (List ToolResourceLock) → Prop
  | .ok locks => ⟨.workspaceFiles, .write⟩ ∈ locks →
      toolCall.name = applyPatchToolName ∧ applyPatchMarkerPaths toolCall = none
  | .error error => error = .missingPath toolCall.name toolCall.id ∨
      error = .missingScope toolCall.name toolCall.id

private theorem locksOrMissing_bind {toolCall : PendingToolCall} {α : Type}
    {argument : Except ToolConflictError α} {lock : α → ToolResourceLock}
    (missing : ∀ error, argument = .error error →
      error = .missingPath toolCall.name toolCall.id ∨
        error = .missingScope toolCall.name toolCall.id)
    (other : ∀ a, lock a ≠ ⟨.workspaceFiles, .write⟩) :
    LocksOrMissing toolCall (argument >>= fun a => pure [lock a]) := by
  cases h : argument with
  | error error => exact missing error h
  | ok a =>
    intro mem
    exact absurd (List.mem_singleton.mp mem).symm (other a)

private theorem requiredPath_missing {toolCall : PendingToolCall} {error : ToolConflictError}
    (h : requiredPath toolCall = .error error) :
    error = .missingPath toolCall.name toolCall.id ∨
      error = .missingScope toolCall.name toolCall.id := by
  unfold requiredPath at h
  split at h <;> cases h
  exact .inl rfl

private theorem memoryScopeKey_missing {toolCall : PendingToolCall} {error : ToolConflictError}
    (h : memoryScopeKey toolCall = .error error) :
    error = .missingPath toolCall.name toolCall.id ∨
      error = .missingScope toolCall.name toolCall.id := by
  unfold memoryScopeKey at h
  split at h <;> cases h
  exact .inr rfl

private theorem requiredProcessId_missing {toolCall : PendingToolCall}
    {error : ToolConflictError} (h : requiredProcessId toolCall = .error error) :
    error = .missingPath toolCall.name toolCall.id ∨
      error = .missingScope toolCall.name toolCall.id := by
  unfold requiredProcessId at h
  split at h <;> cases h
  exact .inr rfl

private theorem locksOrMissing_ite {toolCall : PendingToolCall} {p : Prop} [Decidable p]
    {first second : Except ToolConflictError (List ToolResourceLock)}
    (thenCase : p → LocksOrMissing toolCall first) (elseCase : LocksOrMissing toolCall second) :
    LocksOrMissing toolCall (if p then first else second) := by
  split
  · rename_i h
    exact thenCase h
  · exact elseCase

private theorem locksOrMissing_single {toolCall : PendingToolCall} {lock : ToolResourceLock}
    (other : lock ≠ ⟨.workspaceFiles, .write⟩) : LocksOrMissing toolCall (.ok [lock]) :=
  fun mem => absurd (List.mem_singleton.mp mem).symm other

private theorem locksOrMissing_nil {toolCall : PendingToolCall} :
    LocksOrMissing toolCall (.ok []) := fun mem => absurd mem List.not_mem_nil

private theorem applyPatchResourceLocks_spec {toolCall : PendingToolCall}
    (patch : toolCall.name = applyPatchToolName) :
    LocksOrMissing toolCall (.ok (applyPatchResourceLocks toolCall)) := by
  intro mem
  unfold applyPatchResourceLocks at mem
  split at mem
  · simp at mem
  · rename_i unreadable
    exact ⟨patch, unreadable⟩

theorem toolOwnLocks_spec (toolCall : PendingToolCall) :
    LocksOrMissing toolCall (toolOwnLocks toolCall) := by
  have byPath : ∀ access, LocksOrMissing toolCall
      (requiredPath toolCall >>= fun path => pure [⟨.file path, access⟩]) :=
    fun _ => locksOrMissing_bind (fun _ => requiredPath_missing) (by simp)
  have byScope : ∀ access, LocksOrMissing toolCall
      (memoryScopeKey toolCall >>= fun scope => pure [⟨.memory scope, access⟩]) :=
    fun _ => locksOrMissing_bind (fun _ => memoryScopeKey_missing) (by simp)
  have byProcess : ∀ access, LocksOrMissing toolCall
      (requiredProcessId toolCall >>= fun processId => pure [⟨.commandProcess processId, access⟩]) :=
    fun _ => locksOrMissing_bind (fun _ => requiredProcessId_missing) (by simp)
  refine locksOrMissing_ite (fun _ => byPath _) ?_
  refine locksOrMissing_ite (fun _ => byPath _) ?_
  refine locksOrMissing_ite applyPatchResourceLocks_spec ?_
  refine locksOrMissing_ite (fun _ => locksOrMissing_single (by simp)) ?_
  refine locksOrMissing_ite (fun _ => locksOrMissing_single (by simp)) ?_
  refine locksOrMissing_ite (fun _ => locksOrMissing_single (by simp)) ?_
  refine locksOrMissing_ite (fun _ => locksOrMissing_single (by simp)) ?_
  refine locksOrMissing_ite (fun _ => locksOrMissing_single (by simp)) ?_
  refine locksOrMissing_ite (fun _ => locksOrMissing_single (by simp)) ?_
  refine locksOrMissing_ite (fun _ => locksOrMissing_single (by simp)) ?_
  refine locksOrMissing_ite (fun _ => locksOrMissing_nil) ?_
  refine locksOrMissing_ite (fun _ => byScope _) ?_
  refine locksOrMissing_ite (fun _ => byScope _) ?_
  refine locksOrMissing_ite (fun _ => locksOrMissing_single (by simp)) ?_
  refine locksOrMissing_ite (fun _ => byProcess _) ?_
  refine locksOrMissing_ite (fun _ => byProcess _) ?_
  refine locksOrMissing_ite (fun _ => locksOrMissing_nil) ?_
  exact locksOrMissing_ite (fun _ => locksOrMissing_single (by simp)) locksOrMissing_nil

/-- The analysis of a call, which never fails. -/
def analyzedCall (toolCall : PendingToolCall) : AnalyzedToolCall where
  requiresSequentialExecution := requiresSequentialExecution toolCall
  locks := heldLocks toolCall
  fileWriteKind := fileWriteKind toolCall.name
  fileDisplayPaths := fileDisplayPaths toolCall

theorem analyzeToolCall_eq (toolCall : PendingToolCall) :
    analyzeToolCall toolCall = .ok (analyzedCall toolCall) := by
  have locks : analyzedLocks toolCall = .ok (heldLocks toolCall) := by
    have own := toolOwnLocks_spec toolCall
    unfold analyzedLocks heldLocks toolResourceLocks
    cases h : toolOwnLocks toolCall with
    | ok locks => rfl
    | error error =>
      rw [h] at own
      rcases own with rfl | rfl <;> rfl
  rw [analyzeToolCall, locks]
  rfl

theorem mapM_analyzeToolCall (toolCalls : List PendingToolCall) :
    toolCalls.mapM analyzeToolCall = .ok (toolCalls.map analyzedCall) := by
  rw [funext analyzeToolCall_eq]
  exact List.mapM_pure

/-- A call outside a sequential group never holds the write lock on the whole workspace. -/
theorem workspaceFiles_write_sequential {toolCall : PendingToolCall}
    (held : ⟨.workspaceFiles, .write⟩ ∈ heldLocks toolCall) :
    requiresSequentialExecution toolCall = true := by
  have own := toolOwnLocks_spec toolCall
  unfold heldLocks toolResourceLocks at held
  cases h : toolOwnLocks toolCall with
  | error error =>
    rw [h] at held
    cases held
  | ok locks =>
    rw [h] at held own
    rcases List.mem_append.mp held with mem | mem
    · obtain ⟨name, unreadable⟩ := own mem
      simp [requiresSequentialExecution, name, unreadable]
    · unfold mutationLeaseLocks at mem
      split at mem
      · cases mem
      · split at mem <;> simp at mem
      · simp at mem

/-! ## Rejected batches -/

/-- Two locks that may be held in one batch: they do not conflict, or they are two mutation
leases, or an order of execution resolves them. -/
def Resolvable (first : PendingToolCall) (firstLock : ToolResourceLock)
    (second : PendingToolCall) (secondLock : ToolResourceLock) : Prop :=
  toolResourceLocksConflict firstLock secondLock = true →
    (firstLock.resource = .workspaceMutationLease ∧
      secondLock.resource = .workspaceMutationLease) ∨
    isOrderableWorkspaceFileConflict firstLock (analyzedCall first) secondLock
      (analyzedCall second) = true

private theorem orderable_of_contextual {first second : AnalyzedToolCall}
    {firstPath secondPath : Text}
    (conflict : toolResourceLocksConflict ⟨.file firstPath, .write⟩ ⟨.file secondPath, .write⟩) :
    isOrderableWorkspaceFileConflict ⟨.file firstPath, .write⟩ first ⟨.file secondPath, .write⟩
        second =
      (isContextualFileEdit first.fileWriteKind && isContextualFileEdit second.fileWriteKind) := by
  simp [isOrderableWorkspaceFileConflict, conflict, isWorkspaceFileResource]

/-- A lock that conflicts with a file lock and is not a workspace write lock is a file lock. -/
private theorem file_of_conflict {path : Text} {resource : ToolResource}
    (conflict : toolResourceLocksConflict ⟨.file path, .write⟩ ⟨resource, .write⟩ = true)
    (narrow : (⟨resource, .write⟩ : ToolResourceLock) ≠ ⟨.workspaceFiles, .write⟩) :
    ∃ other, resource = .file other := by
  cases resource with
  | file other => exact ⟨other, rfl⟩
  | workspaceFiles => exact absurd rfl narrow
  | _ => simp [toolResourceLocksConflict, resourcesOverlap] at conflict

/-- The two loops over locks and the grouping use different tests; they agree once no call
holds the write lock on the whole workspace. -/
theorem rejectConflictingLocks_eq_ok {first second : PendingToolCall}
    {firstLock secondLock : ToolResourceLock}
    (narrow : secondLock ≠ ⟨.workspaceFiles, .write⟩) :
    rejectConflictingLocks first (analyzedCall first) second (analyzedCall second) firstLock
        secondLock = .ok () ↔ Resolvable first firstLock second secondLock := by
  unfold rejectConflictingLocks Resolvable
  obtain ⟨firstResource, firstAccess⟩ := firstLock
  obtain ⟨secondResource, secondAccess⟩ := secondLock
  by_cases conflict : toolResourceLocksConflict ⟨firstResource, firstAccess⟩
      ⟨secondResource, secondAccess⟩ = true
  · by_cases lease : firstResource = .workspaceMutationLease ∧
        secondResource = .workspaceMutationLease
    · simp [lease]
    · simp only [conflict, Bool.not_true, Bool.false_eq_true, if_false, forall_const, lease,
        false_or]
      split
      · rename_i path
        obtain ⟨other, rfl⟩ := file_of_conflict conflict narrow
        rw [orderable_of_contextual conflict]
        split <;> simp_all
      · split <;> simp_all
  · simp [conflict]

theorem rejectConflictingParallelToolCalls_eq_ok {first second : PendingToolCall}
    (parallel : requiresSequentialExecution second = false) :
    rejectConflictingParallelToolCalls first (analyzedCall first) second (analyzedCall second) =
        .ok () ↔
      ∀ firstLock ∈ heldLocks first, ∀ secondLock ∈ heldLocks second,
        Resolvable first firstLock second secondLock := by
  unfold rejectConflictingParallelToolCalls
  rw [forM_eq_ok]
  refine forall₂_congr fun firstLock _ => ?_
  rw [forM_eq_ok]
  refine forall₂_congr fun secondLock held => rejectConflictingLocks_eq_ok ?_
  rintro rfl
  rw [workspaceFiles_write_sequential held] at parallel
  cases parallel

/-- Two calls may share a batch: one of them is sequential, or all their locks are
resolvable. -/
def Compatible (first second : PendingToolCall) : Prop :=
  requiresSequentialExecution first = false → requiresSequentialExecution second = false →
    ∀ firstLock ∈ heldLocks first, ∀ secondLock ∈ heldLocks second,
      Resolvable first firstLock second secondLock

private theorem rejectPair_eq_ok (first second : PendingToolCall) :
    (if (analyzedCall first).requiresSequentialExecution ||
        (analyzedCall second).requiresSequentialExecution then .ok ()
      else rejectConflictingParallelToolCalls first (analyzedCall first) second
        (analyzedCall second)) = .ok () ↔ Compatible first second := by
  unfold Compatible
  cases firstMode : requiresSequentialExecution first with
  | true => simp [analyzedCall, firstMode]
  | false =>
    cases secondMode : requiresSequentialExecution second with
    | true => simp [analyzedCall, secondMode]
    | false =>
      simp only [forall_const]
      rw [← rejectConflictingParallelToolCalls_eq_ok secondMode]
      simp [analyzedCall, firstMode, secondMode]

theorem rejectConflictingPairs_eq_ok (toolCalls : List PendingToolCall) :
    rejectConflictingPairs (toolCalls.map fun call => (call, analyzedCall call)) = .ok () ↔
      toolCalls.Pairwise Compatible := by
  induction toolCalls with
  | nil => simp [rejectConflictingPairs]
  | cons first rest ih =>
    rw [List.map_cons, rejectConflictingPairs, bind_eq_ok, List.pairwise_cons, ← ih]
    have head : (∃ done : Unit, (forM (rest.map fun call => (call, analyzedCall call)) fun second =>
        if (analyzedCall first).requiresSequentialExecution ||
            second.2.requiresSequentialExecution then .ok ()
        else rejectConflictingParallelToolCalls first (analyzedCall first) second.1 second.2) =
          .ok done) ↔ ∀ second ∈ rest, Compatible first second := by
      rw [Unique.exists_iff]
      refine forM_eq_ok.trans ?_
      rw [List.forall_mem_map]
      exact forall₂_congr fun second _ => rejectPair_eq_ok first second
    rw [← head, exists_and_right]

/-! ## Grouping -/

/-- The calls at two indices have no conflict that an order would have to resolve. -/
def Unordered (analyzedCalls : List AnalyzedToolCall) (i j : Nat) : Prop :=
  ∀ first second, analyzedCalls[i]? = some first → analyzedCalls[j]? = some second →
    analyzedCallsHaveOrderableWorkspaceFileConflict first second = false

/-- Indices that may run in parallel: none is sequential and no earlier one is ordered
before a later one. -/
structure ParallelSound (analyzedCalls : List AnalyzedToolCall) (indices : List Nat) : Prop where
  parallel : ∀ i ∈ indices, ∀ call, analyzedCalls[i]? = some call →
    call.requiresSequentialExecution = false
  unordered : indices.Pairwise (Unordered analyzedCalls)

/-- A group of a plan is a parallel set of calls or one sequential call. -/
def GroupSound (analyzedCalls : List AnalyzedToolCall) (group : ToolExecutionGroup) : Prop :=
  match group.mode with
  | .parallel => ParallelSound analyzedCalls group.callIndices
  | .sequential => ∃ i call, group.callIndices = [i] ∧ analyzedCalls[i]? = some call ∧
      call.requiresSequentialExecution = true

/-- The invariant of the grouping loop after `count` calls. -/
structure GroupingInv (analyzedCalls : List AnalyzedToolCall) (count : Nat) (state : Grouping) :
    Prop where
  covered : state.groups.flatMap (·.callIndices) ++ state.pendingParallelIndices =
    List.range count
  groups : ∀ group ∈ state.groups, GroupSound analyzedCalls group
  pending : ParallelSound analyzedCalls state.pendingParallelIndices

theorem ParallelSound.nil {analyzedCalls : List AnalyzedToolCall} :
    ParallelSound analyzedCalls [] :=
  ⟨by simp, .nil⟩

theorem ParallelSound.snoc {analyzedCalls : List AnalyzedToolCall} {indices : List Nat}
    {index : Nat} {call : AnalyzedToolCall} (sound : ParallelSound analyzedCalls indices)
    (found : analyzedCalls[index]? = some call) (parallel : call.requiresSequentialExecution = false)
    (unordered : ∀ i ∈ indices, Unordered analyzedCalls i index) :
    ParallelSound analyzedCalls (indices ++ [index]) where
  parallel := by
    intro i mem other otherFound
    rcases List.mem_append.mp mem with mem | mem
    · exact sound.parallel i mem other otherFound
    · rw [List.mem_singleton.mp mem, found] at otherFound
      cases otherFound
      exact parallel
  unordered := by
    refine List.pairwise_append.mpr ⟨sound.unordered, List.pairwise_singleton _ _, ?_⟩
    intro i mem j single
    rw [List.mem_singleton.mp single]
    exact unordered i mem

theorem GroupingInv.push {analyzedCalls : List AnalyzedToolCall} {count : Nat} {state : Grouping}
    (inv : GroupingInv analyzedCalls count state) :
    GroupingInv analyzedCalls count (pushParallelGroup state) ∧
      (pushParallelGroup state).pendingParallelIndices = [] := by
  unfold pushParallelGroup
  split
  · rename_i empty
    exact ⟨inv, List.isEmpty_iff.mp empty⟩
  · refine ⟨⟨by simpa using inv.covered, ?_, .nil⟩, rfl⟩
    intro group mem
    rcases List.mem_append.mp mem with mem | mem
    · exact inv.groups group mem
    · rw [List.mem_singleton.mp mem]
      exact inv.pending

/-- Before a parallel call is added, every pending call ordered against it is pushed out. -/
theorem GroupingInv.pushBefore {analyzedCalls : List AnalyzedToolCall} {count : Nat}
    {state : Grouping} {call : AnalyzedToolCall} (found : analyzedCalls[count]? = some call)
    (inv : GroupingInv analyzedCalls count state) :
    let pushed := pushParallelGroupBeforeOrderableConflict analyzedCalls call state
    GroupingInv analyzedCalls count pushed ∧
      ∀ i ∈ pushed.pendingParallelIndices, Unordered analyzedCalls i count := by
  unfold pushParallelGroupBeforeOrderableConflict
  split
  · obtain ⟨pushedInv, empty⟩ := inv.push
    exact ⟨pushedInv, by simp [empty]⟩
  · rename_i clear
    refine ⟨inv, fun i mem first second firstAt secondAt => ?_⟩
    rw [found] at secondAt
    cases secondAt
    rw [Bool.not_eq_true, List.any_eq_false] at clear
    simpa [firstAt] using clear i mem

/-- One round of the grouping loop. -/
theorem GroupingInv.step {analyzedCalls : List AnalyzedToolCall} {count : Nat}
    {state : Grouping} {call : AnalyzedToolCall} (found : analyzedCalls[count]? = some call)
    (inv : GroupingInv analyzedCalls count state) :
    GroupingInv analyzedCalls (count + 1) (groupCall analyzedCalls state (call, count)) := by
  unfold groupCall
  cases mode : call.requiresSequentialExecution with
  | true =>
    obtain ⟨pushed, empty⟩ := inv.push
    refine ⟨?_, ?_, by simpa [empty] using ParallelSound.nil⟩
    · have covered := pushed.covered
      rw [empty, List.append_nil] at covered
      simp [List.range_succ, covered, empty]
    · intro group mem
      rcases List.mem_append.mp mem with mem | mem
      · exact pushed.groups group mem
      · rw [List.mem_singleton.mp mem]
        exact ⟨count, call, rfl, found, mode⟩
  | false =>
    obtain ⟨pushed, unordered⟩ := inv.pushBefore found
    refine ⟨?_, pushed.groups, pushed.pending.snoc found mode unordered⟩
    simp only [Bool.false_eq_true, if_false]
    rw [← List.append_assoc, pushed.covered, List.range_succ]

/-- The whole loop, from any point of the batch on. -/
theorem GroupingInv.run {analyzedCalls rest : List AnalyzedToolCall} {count : Nat}
    {state : Grouping} (suffix : analyzedCalls.drop count = rest)
    (inv : GroupingInv analyzedCalls count state) :
    GroupingInv analyzedCalls (count + rest.length)
      ((rest.zipIdx count).foldl (groupCall analyzedCalls) state) := by
  induction rest generalizing count state with
  | nil => exact inv
  | cons call rest ih =>
    have found : analyzedCalls[count]? = some call := by
      rw [← List.head?_drop, suffix, List.head?_cons]
    have suffix' : analyzedCalls.drop (count + 1) = rest := by
      rw [← List.drop_drop, suffix, List.drop_one, List.tail_cons]
    have tail := ih suffix' (inv.step found)
    rw [List.length_cons, ← Nat.add_assoc, Nat.add_right_comm]
    exact tail

/-- What the grouping loop returns: the calls in order, in sound groups. -/
theorem groupCalls_sound (analyzedCalls : List AnalyzedToolCall) :
    (groupCalls analyzedCalls).flatMap (·.callIndices) = List.range analyzedCalls.length ∧
      ∀ group ∈ groupCalls analyzedCalls, GroupSound analyzedCalls group := by
  have start : GroupingInv analyzedCalls 0 ⟨[], []⟩ := ⟨rfl, by simp, .nil⟩
  have inv := start.run (List.drop_zero (l := analyzedCalls))
  rw [Nat.zero_add] at inv
  obtain ⟨final, empty⟩ := inv.push
  have covered := final.covered
  rw [empty, List.append_nil] at covered
  exact ⟨covered, final.groups⟩

/-! ## Plans -/

/-- What the scheduler promises about the plan of a batch. -/
structure PlanCorrect (toolCalls : List PendingToolCall) (plan : ToolExecutionPlan) : Prop where
  /-- Every call is in the plan once, in the order of the batch. -/
  inOrder : plan.groups.flatMap (·.callIndices) = List.range toolCalls.length
  /-- A sequential call is in a sequential group of its own and in no other group. -/
  sequentialAlone : ∀ (i : Nat) (call : PendingToolCall), toolCalls[i]? = some call → requiresSequentialExecution call = true →
    ⟨.sequential, [i]⟩ ∈ plan.groups ∧
      ∀ group ∈ plan.groups, i ∈ group.callIndices → group = ⟨.sequential, [i]⟩
  /-- Two calls of one parallel group hold no conflicting locks but mutation leases. -/
  conflictFree : ∀ group ∈ plan.groups, group.mode = .parallel →
    ∀ i ∈ group.callIndices, ∀ j ∈ group.callIndices, i ≠ j →
    ∀ first second, toolCalls[i]? = some first → toolCalls[j]? = some second →
    ∀ firstLock ∈ heldLocks first, ∀ secondLock ∈ heldLocks second,
      toolResourceLocksConflict firstLock secondLock = true →
      firstLock.resource = .workspaceMutationLease ∧
        secondLock.resource = .workspaceMutationLease

/-- Two calls that no plan can hold: both may run in parallel and hold conflicting locks that
are neither mutation leases nor resolved by an order. -/
def Irreconcilable (first second : PendingToolCall) : Prop :=
  requiresSequentialExecution first = false ∧ requiresSequentialExecution second = false ∧
    ∃ firstLock ∈ heldLocks first, ∃ secondLock ∈ heldLocks second,
      toolResourceLocksConflict firstLock secondLock = true ∧
      ¬(firstLock.resource = .workspaceMutationLease ∧
        secondLock.resource = .workspaceMutationLease) ∧
      isOrderableWorkspaceFileConflict firstLock (analyzedCall first) secondLock
        (analyzedCall second) = false

theorem not_compatible_iff {first second : PendingToolCall} :
    ¬Compatible first second ↔ Irreconcilable first second := by
  simp only [Compatible, Resolvable, Irreconcilable, not_forall, not_or, exists_prop,
    Bool.not_eq_true]

/-- The order of two calls does not matter for whether an order resolves their conflict. -/
theorem isOrderableWorkspaceFileConflict_comm (firstLock secondLock : ToolResourceLock)
    (first second : AnalyzedToolCall) :
    isOrderableWorkspaceFileConflict firstLock first secondLock second =
      isOrderableWorkspaceFileConflict secondLock second firstLock first := by
  unfold isOrderableWorkspaceFileConflict
  rw [toolResourceLocksConflict_comm, Bool.or_right_comm]
  obtain ⟨firstResource, firstAccess⟩ := firstLock
  obtain ⟨secondResource, secondAccess⟩ := secondLock
  cases firstAccess <;> cases secondAccess <;> cases firstResource <;> cases secondResource <;>
    simp [isWorkspaceFileResource, Bool.and_comm]

theorem haveOrderableConflict_eq_false {first second : AnalyzedToolCall} :
    analyzedCallsHaveOrderableWorkspaceFileConflict first second = false ↔
      ∀ firstLock ∈ first.locks, ∀ secondLock ∈ second.locks,
        isOrderableWorkspaceFileConflict firstLock first secondLock second = false := by
  simp [analyzedCallsHaveOrderableWorkspaceFileConflict]

instance (analyzedCalls : List AnalyzedToolCall) : Std.Symm (Unordered analyzedCalls) where
  symm i j h second first secondAt firstAt := by
    have clear := haveOrderableConflict_eq_false.mp (h first second firstAt secondAt)
    refine haveOrderableConflict_eq_false.mpr ?_
    intro secondLock secondMem firstLock firstMem
    rw [isOrderableWorkspaceFileConflict_comm]
    exact clear firstLock firstMem secondLock secondMem

theorem compatible_of_ne {toolCalls : List PendingToolCall} (compatible : toolCalls.Pairwise Compatible)
    {i j : Nat} {first second : PendingToolCall} (ne : i ≠ j) (firstAt : toolCalls[i]? = some first)
    (secondAt : toolCalls[j]? = some second) :
    Compatible first second ∨ Compatible second first := by
  obtain ⟨firstLt, rfl⟩ := List.getElem?_eq_some_iff.mp firstAt
  obtain ⟨secondLt, rfl⟩ := List.getElem?_eq_some_iff.mp secondAt
  rcases Nat.lt_or_gt_of_ne ne with lt | gt
  · exact .inl (List.pairwise_iff_getElem.mp compatible i j firstLt secondLt lt)
  · exact .inr (List.pairwise_iff_getElem.mp compatible j i secondLt firstLt gt)

theorem plan_correct_of_compatible {toolCalls : List PendingToolCall}
    (compatible : toolCalls.Pairwise Compatible) :
    PlanCorrect toolCalls ⟨groupCalls (toolCalls.map analyzedCall)⟩ := by
  obtain ⟨inOrder, sound⟩ := groupCalls_sound (toolCalls.map analyzedCall)
  rw [List.length_map] at inOrder
  have analyzedAt : ∀ {i : Nat} {call : PendingToolCall}, toolCalls[i]? = some call →
      (toolCalls.map analyzedCall)[i]? = some (analyzedCall call) := by
    intro i call found
    rw [List.getElem?_map, found, Option.map_some]
  have alone : ∀ (i : Nat) (call : PendingToolCall), toolCalls[i]? = some call → requiresSequentialExecution call = true →
      ∀ group ∈ groupCalls (toolCalls.map analyzedCall), i ∈ group.callIndices →
        group = ⟨.sequential, [i]⟩ := by
    intro i call found sequential group mem member
    obtain ⟨mode, callIndices⟩ := group
    have groupSound := sound _ mem
    cases mode with
    | parallel =>
      have parallel := groupSound.parallel i member _ (analyzedAt found)
      exact absurd (sequential.symm.trans parallel) (by simp)
    | sequential =>
      obtain ⟨k, other, rfl, -⟩ := groupSound
      rw [List.mem_singleton.mp member]
  refine ⟨inOrder, ?_, ?_⟩
  · intro i call found sequential
    refine ⟨?_, alone i call found sequential⟩
    have planned : i ∈ List.range toolCalls.length :=
      List.mem_range.mpr (List.getElem?_eq_some_iff.mp found).1
    rw [← inOrder] at planned
    obtain ⟨group, mem, member⟩ := List.mem_flatMap.mp planned
    rw [← alone i call found sequential group mem member]
    exact mem
  · intro group mem mode i firstMem j secondMem ne first second firstAt secondAt firstLock
      firstHeld secondLock secondHeld conflict
    have groupSound := sound _ mem
    rw [GroupSound, mode] at groupSound
    have firstParallel := groupSound.parallel i firstMem _ (analyzedAt firstAt)
    have secondParallel := groupSound.parallel j secondMem _ (analyzedAt secondAt)
    have unordered := groupSound.unordered.forall firstMem secondMem ne
      _ _ (analyzedAt firstAt) (analyzedAt secondAt)
    have clear := haveOrderableConflict_eq_false.mp unordered firstLock firstHeld secondLock
      secondHeld
    rcases compatible_of_ne compatible ne firstAt secondAt with resolved | resolved
    · rcases resolved firstParallel secondParallel _ firstHeld _ secondHeld conflict with
        lease | order
      · exact lease
      · rw [clear] at order
        cases order
    · rw [toolResourceLocksConflict_comm] at conflict
      rcases resolved secondParallel firstParallel _ secondHeld _ firstHeld conflict with
        lease | order
      · exact ⟨lease.2, lease.1⟩
      · rw [isOrderableWorkspaceFileConflict_comm, clear] at order
        cases order

theorem zip_analyzed (toolCalls : List PendingToolCall) :
    toolCalls.zip (toolCalls.map analyzedCall) =
      toolCalls.map fun call => (call, analyzedCall call) := by
  induction toolCalls with
  | nil => rfl
  | cons call rest ih => rw [List.map_cons, List.zip_cons_cons, ih, List.map_cons]

/-- A batch is planned correctly or rejected, and it is rejected exactly when two of its
calls cannot be reconciled. -/
theorem planToolExecution_correct (toolCalls : List PendingToolCall) :
    (∀ plan, planToolExecution toolCalls = .ok plan → PlanCorrect toolCalls plan) ∧
      ((∃ error, planToolExecution toolCalls = .error error) ↔
        ∃ (i j : Nat) (first second : PendingToolCall), i < j ∧ toolCalls[i]? = some first ∧
          toolCalls[j]? = some second ∧ Irreconcilable first second) := by
  have plan_eq : planToolExecution toolCalls =
      (rejectConflictingPairs (toolCalls.map fun call => (call, analyzedCall call)) >>= fun _ =>
        pure ⟨groupCalls (toolCalls.map analyzedCall)⟩) := by
    rw [planToolExecution, mapM_analyzeToolCall, ← zip_analyzed]
    rfl
  have accepted := rejectConflictingPairs_eq_ok toolCalls
  constructor
  · intro plan planned
    rw [plan_eq] at planned
    obtain ⟨_, rejected, rest⟩ := bind_eq_ok.mp planned
    rw [← pure_eq_ok.mp rest]
    exact plan_correct_of_compatible (accepted.mp rejected)
  · rw [plan_eq]
    have failed : (∃ error, (rejectConflictingPairs
        (toolCalls.map fun call => (call, analyzedCall call)) >>= fun _ =>
          (pure ⟨groupCalls (toolCalls.map analyzedCall)⟩ :
            Except ToolConflictError ToolExecutionPlan)) = .error error) ↔
        ¬toolCalls.Pairwise Compatible := by
      rw [← accepted]
      cases rejectConflictingPairs (toolCalls.map fun call => (call, analyzedCall call)) <;>
        simp [bind, Except.bind, pure, Except.pure]
    rw [failed, List.pairwise_iff_getElem]
    simp only [not_forall, not_compatible_iff, List.getElem?_eq_some_iff, exists_prop]
    constructor
    · rintro ⟨i, j, firstLt, secondLt, lt, bad⟩
      exact ⟨i, j, _, _, lt, ⟨firstLt, rfl⟩, ⟨secondLt, rfl⟩, bad⟩
    · rintro ⟨i, j, _, _, lt, ⟨firstLt, rfl⟩, ⟨secondLt, rfl⟩, bad⟩
      exact ⟨i, j, firstLt, secondLt, lt, bad⟩

/-- A call of one tool on one path. -/
def pathCall (name : String) (path : Text) : PendingToolCall :=
  ⟨"call", name, .object [("path", .string path)]⟩

/-- A read and a write of one file, spelled differently, end up in two groups. -/
theorem planToolExecution_splits_read_and_write :
    PlanCorrect [pathCall readFileToolName "./a".toList, pathCall writeFileToolName "A".toList]
      ⟨[⟨.parallel, [0]⟩, ⟨.parallel, [1]⟩]⟩ :=
  (planToolExecution_correct _).1 _ (by decide)

end Foco.ToolPlanning
