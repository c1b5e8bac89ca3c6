import Foco.ApplyPatch
import Foco.Json

/-!
The lock sets that `agent/lib.rs` computes for pending tool calls: the resources a
call announces, how two locks conflict, and the marker scan that reads the file
paths of an `apply_patch` document for scheduling only. The scan and the parser of
`ApplyPatch` read the same text independently of each other.
-/
namespace Foco.ToolLocks
open Foco.RustText
open Foco.ApplyPatch (beginPatchMarker endPatchMarker addFileMarker deleteFileMarker
  updateFileMarker moveToMarker)

/-! ## Resources and conflicts -/

/-- `ToolResourceAccess`. -/
inductive ToolResourceAccess where
  | read | write | exclusive
  deriving DecidableEq

/-- `ToolResource`. -/
inductive ToolResource where
  | workspaceMutationLease
  | workspaceFiles
  | file (path : Text)
  | todoGraph
  | plan
  | projectSpec
  | memory (scope : Text)
  | commandProcess (processId : Text)
  | externalTool (name : String)
  deriving DecidableEq

/-- `ToolResourceLock`. -/
structure ToolResourceLock where
  resource : ToolResource
  access : ToolResourceAccess
  deriving DecidableEq

/-- `resources_overlap`. -/
def resourcesOverlap : ToolResource → ToolResource → Bool
  | .workspaceMutationLease, .workspaceMutationLease => true
  | .workspaceFiles, .workspaceFiles => true
  | .workspaceFiles, .file _ => true
  | .file _, .workspaceFiles => true
  | .file first, .file second => first == second
  | .todoGraph, .todoGraph => true
  | .plan, .plan => true
  | .projectSpec, .projectSpec => true
  | .memory first, .memory second =>
    first == second || first == "all".toList || second == "all".toList
  | .commandProcess first, .commandProcess second => first == second
  | .externalTool first, .externalTool second => first == second
  | _, _ => false

/-- `accesses_conflict`. -/
def accessesConflict : ToolResourceAccess → ToolResourceAccess → Bool
  | .read, .read => false
  | _, _ => true

/-- `tool_resource_locks_conflict`. -/
def toolResourceLocksConflict (first second : ToolResourceLock) : Bool :=
  resourcesOverlap first.resource second.resource && accessesConflict first.access second.access

theorem resourcesOverlap_comm (first second : ToolResource) :
    resourcesOverlap first second = resourcesOverlap second first := by
  cases first <;> cases second <;> simp [resourcesOverlap, Bool.beq_comm, Bool.or_comm,
    Bool.or_left_comm]

theorem accessesConflict_comm (first second : ToolResourceAccess) :
    accessesConflict first second = accessesConflict second first := by
  cases first <;> cases second <;> rfl

theorem toolResourceLocksConflict_comm (first second : ToolResourceLock) :
    toolResourceLocksConflict first second = toolResourceLocksConflict second first := by
  rw [toolResourceLocksConflict, resourcesOverlap_comm, accessesConflict_comm,
    ← toolResourceLocksConflict]

/-! ## Tool calls -/

/-- `PendingToolCall`. -/
structure PendingToolCall where
  id : String
  name : String
  arguments : Json

/-- `ToolConflictError`. -/
inductive ToolConflictError where
  | missingPath (toolName callId : String)
  | missingScope (toolName callId : String)
  | sameFileWrite (path : Text) (firstCallId secondCallId : String)
  | mixedFileWriteMethods (path : Text) (firstCallId secondCallId : String)
  | resourceConflict (resource : ToolResource) (displayPath : Option Text)
      (firstCallId : String) (firstAccess : ToolResourceAccess)
      (secondCallId : String) (secondAccess : ToolResourceAccess)
  deriving DecidableEq

def readFileToolName : String := "read_file"
def writeFileToolName : String := "write_file"
def editFileToolName : String := "edit_file"
def applyPatchToolName : String := "apply_patch"

/-- `MCP_TOOL_NAME_PREFIX`. -/
def mcpToolNamePrefix : Text := "mcp__".toList

/-- `name.starts_with(MCP_TOOL_NAME_PREFIX)`. -/
def isMcpToolName (name : String) : Bool := startsWith mcpToolNamePrefix name.toList

/-- The search and graph tools, which read the workspace as a whole. -/
def workspaceReadToolNames : List String :=
  ["find_files", "search_text", "graph_find_symbols", "graph_find_callers", "graph_find_callees",
    "graph_find_children", "graph_find_references", "graph_find_imports", "graph_find_importers",
    "graph_related_files", "graph_explore"]

/-! ## Workspace paths -/

/-- The parts of a path text: split at `/` and `\`, without empty and `.` parts. -/
def workspacePathParts (path : Text) : List Text :=
  (((trim path).map (fun c => if c = '\\' then '/' else c)).splitOn '/').filter
    (fun part => part ≠ [] ∧ part ≠ ['.'])

/-- `normalize_workspace_path_display`. -/
def normalizeWorkspacePathDisplay (path : Text) : Text :=
  List.intercalate ['/'] (workspacePathParts path)

/-- `normalize_workspace_path_key`. -/
def normalizeWorkspacePathKey (path : Text) : Text :=
  toAsciiLowercase (normalizeWorkspacePathDisplay path)

/-! ## The marker scan of `apply_patch` -/

/-- `push_apply_patch_marker_path`. -/
def pushApplyPatchMarkerPath (paths : List Text) (rawPath : Text) : Option (List Text) :=
  let path := trim rawPath
  if path = [] ∨ '\x00' ∈ path then none
  else
    let displayPath := normalizeWorkspacePathDisplay path
    if displayPath = [] ∨ displayPath = ['.'] then none
    else if displayPath ∈ paths then some paths
    else some (paths ++ [displayPath])

/-- The loop of `apply_patch_marker_paths` over the lines after the first: the paths so far,
whether an update is active, and in the result whether `*** End Patch` was reached. The
marker texts are spelled out here in the source; they are those of the parser. -/
def scanMarkerLines (paths : List Text) (activeUpdate : Bool) :
    List Text → Option (List Text × Bool)
  | [] => some (paths, false)
  | rawLine :: rest =>
    let line := trimEndMatches '\r' rawLine
    if line = endPatchMarker then some (paths, true)
    else
      match stripPrefix addFileMarker line with
      | some path => do
        let paths ← pushApplyPatchMarkerPath paths path
        scanMarkerLines paths false rest
      | none =>
        match stripPrefix deleteFileMarker line with
        | some path => do
          let paths ← pushApplyPatchMarkerPath paths path
          scanMarkerLines paths false rest
        | none =>
          match stripPrefix updateFileMarker line with
          | some path => do
            let paths ← pushApplyPatchMarkerPath paths path
            scanMarkerLines paths true rest
          | none =>
            match stripPrefix moveToMarker line with
            | some path =>
              if activeUpdate then do
                let paths ← pushApplyPatchMarkerPath paths path
                scanMarkerLines paths activeUpdate rest
              else none
            | none =>
              if startsWith "*** ".toList line then none
              else scanMarkerLines paths activeUpdate rest

/-- The scan of `apply_patch_marker_paths` on the patch text itself. -/
def patchMarkerPaths (patch : Text) : Option (List Text) :=
  match lines patch with
  | [] => none
  | first :: rest =>
    if trimEndMatches '\r' first ≠ beginPatchMarker then none
    else
      match scanMarkerLines [] false rest with
      | some (paths, ended) => if ended ∧ paths ≠ [] then some paths else none
      | none => none

/-- `apply_patch_marker_paths`. -/
def applyPatchMarkerPaths (toolCall : PendingToolCall) : Option (List Text) :=
  (toolCall.arguments.getStr "patch").bind patchMarkerPaths

/-! ## Lock sets -/

/-- `required_path`. -/
def requiredPath (toolCall : PendingToolCall) : Except ToolConflictError Text :=
  match toolCall.arguments.getStr "path" with
  | some path => .ok (normalizeWorkspacePathKey path)
  | none => .error (.missingPath toolCall.name toolCall.id)

/-- `required_process_id`. -/
def requiredProcessId (toolCall : PendingToolCall) : Except ToolConflictError Text :=
  match ((toolCall.arguments.getStr "processId").map trim).filter (· ≠ []) with
  | some processId => .ok processId
  | none => .error (.missingScope toolCall.name toolCall.id)

/-- `memory_scope_key`. -/
def memoryScopeKey (toolCall : PendingToolCall) : Except ToolConflictError Text :=
  match (toolCall.arguments.getStr "scope").map trim with
  | some scope => .ok (if scope = "auto".toList then "all".toList else scope)
  | none => .error (.missingScope toolCall.name toolCall.id)

/-- `apply_patch_resource_locks`: an unreadable document locks the whole workspace. -/
def applyPatchResourceLocks (toolCall : PendingToolCall) : List ToolResourceLock :=
  match applyPatchMarkerPaths toolCall with
  | some paths => paths.map fun path => ⟨.file (normalizeWorkspacePathKey path), .write⟩
  | none => [⟨.workspaceFiles, .write⟩]

/-- `ToolEffect`. -/
inductive ToolEffect where
  | readOnly | workspaceMutation | externalOrUnknown

/-- `tool_effect`. -/
def toolEffect (toolName : String) : ToolEffect :=
  if toolName = readFileToolName ∨ toolName ∈ workspaceReadToolNames ∨
      toolName ∈ ["get_todo_graph", "get_plans", "read_spec", "memory_search", "web_search",
        "web_fetch", "get_command_output", "agent_list", "agent_get_task", "sleep"] then
    .readOnly
  else if toolName ∈ [writeFileToolName, editFileToolName, applyPatchToolName,
      "create_todo_graph", "update_todo_graph", "create_plan", "update_plan",
      "update_plan_step", "delete_plan", "update_spec", "memory_write"] then
    .workspaceMutation
  else .externalOrUnknown

/-- `tool_requires_workspace_mutation_lease`. -/
def toolRequiresWorkspaceMutationLease (toolName : String) : Bool :=
  toolName ∈ [writeFileToolName, editFileToolName, applyPatchToolName]

/-- The locks of a call by its tool name, before the mutation lease is added. -/
def toolOwnLocks (toolCall : PendingToolCall) :
    Except ToolConflictError (List ToolResourceLock) :=
  let name := toolCall.name
  if name = readFileToolName then do
    let path ← requiredPath toolCall
    return [⟨.file path, .read⟩]
  else if name = writeFileToolName ∨ name = editFileToolName then do
    let path ← requiredPath toolCall
    return [⟨.file path, .write⟩]
  else if name = applyPatchToolName then
    .ok (applyPatchResourceLocks toolCall)
  else if name ∈ workspaceReadToolNames then
    .ok [⟨.workspaceFiles, .read⟩]
  else if name ∈ ["create_todo_graph", "update_todo_graph"] then
    .ok [⟨.todoGraph, .write⟩]
  else if name = "get_todo_graph" then
    .ok [⟨.todoGraph, .read⟩]
  else if name ∈ ["create_plan", "update_plan", "update_plan_step", "delete_plan"] then
    .ok [⟨.plan, .write⟩]
  else if name = "get_plans" then
    .ok [⟨.plan, .read⟩]
  else if name = "read_spec" then
    .ok [⟨.projectSpec, .read⟩]
  else if name = "update_spec" then
    .ok [⟨.projectSpec, .write⟩]
  else if name ∈ ["agent_list", "agent_get_task", "agent_send_message", "agent_delegate_task",
      "agent_cancel_task", "agent_wait_tasks", "agent_transfer_task",
      "agent_create_instances"] then
    .ok []
  else if name = "memory_search" then do
    let scope ← memoryScopeKey toolCall
    return [⟨.memory scope, .read⟩]
  else if name = "memory_write" then do
    let scope ← memoryScopeKey toolCall
    return [⟨.memory scope, .write⟩]
  else if name = "web_search" ∨ name = "web_fetch" then
    .ok [⟨.externalTool name, .read⟩]
  else if name = "get_command_output" then do
    let processId ← requiredProcessId toolCall
    return [⟨.commandProcess processId, .read⟩]
  else if name = "stop_command" then do
    let processId ← requiredProcessId toolCall
    return [⟨.commandProcess processId, .exclusive⟩]
  else if name = "ask_question" ∨ name = "sleep" then
    .ok []
  else if isMcpToolName name then
    .ok [⟨.externalTool name, .exclusive⟩]
  else
    .ok []

/-- The workspace mutation lease of a tool, by its effect. -/
def mutationLeaseLocks (toolName : String) : List ToolResourceLock :=
  match toolEffect toolName with
  | .readOnly => []
  | .workspaceMutation =>
    if toolRequiresWorkspaceMutationLease toolName then [⟨.workspaceMutationLease, .exclusive⟩]
    else []
  | .externalOrUnknown => [⟨.workspaceMutationLease, .exclusive⟩]

/-- `tool_resource_locks`. -/
def toolResourceLocks (toolCall : PendingToolCall) :
    Except ToolConflictError (List ToolResourceLock) := do
  let locks ← toolOwnLocks toolCall
  return locks ++ mutationLeaseLocks toolCall.name

end Foco.ToolLocks
