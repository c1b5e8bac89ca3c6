import Foco.ApiErrors
import Foco.HistoryReplay
import Foco.Result
import Foco.ParallelLists

/-!
The layers that a run of an agent puts into the prompt of its chat: the tool routing of the prepared
context is brought up to date or taken out, then the definition, the team protocol, the private
context, the current task, the answer to a wait and unread messages go in. Messages, their sequences
and their sources are three lists side by side, and three indices point into them.
-/
namespace Foco.AgentPromptLayers
open RustText HistoryReplay ParallelLists

/-! ## The prompt of a run -/

/-- `PromptContextSource`. -/
inductive PromptContextSource where
  | reservedPrompt | agentDefinition | agentTeamProtocol | stableInjection | projectSpec | todoGraph
  | compressionSnapshot | agentPrivateContext
  | storedMessage (sequence : Int)
  | turnMemory (sequence : Int)
  | currentUser (sequence : Int)
  | agentCurrentTask (sequence : Int)
  | agentUnreadMessage | assistantDraft | hookContext | guidance | runtimeGuard | runtimeAssistant
  | runtimeToolState (batchIndex : Nat)
  | runtimeToolStateSnapshot
  deriving DecidableEq

/-- A message of the context. `origin` is no field of the source and nothing below reads it: it tells
a message of the prepared context, by where it stood there, from one that was put in. -/
structure ContextMessage where
  message : NeutralChatMessage
  origin : Option Nat

structure PendingMemoryRetrieval where
  stableInsertIndex : Nat
  turnInsertIndex : Nat

structure PreparedChatContext where
  messages : List ContextMessage
  messageSourceSequences : List (Option Int)
  messageContextSources : List PromptContextSource
  activeToolStartIndex : Nat
  pendingMemoryRetrieval : Option PendingMemoryRetrieval

/-- What ends a run before its prompt is made: an error, or a `Vec` used beyond its end. -/
inductive Stop where
  | error (error : ApiError)
  | panicked

/-! ## Tool routing -/

def graphExploreToolName : Text := "graph_explore".toList

def mcpToolNamePrefix : Text := "mcp__".toList

def graphGuidance : Text :=
  ("Code graph tool routing:\n" ++
    "- Need source context for a symbol or likely code target: use graph_explore first; do not " ++
    "follow it with read_file for the same returned snippet.\n" ++
    "- Need a candidate list or a symbolId for an ambiguous name: use graph_find_symbols.\n" ++
    "- Need relationships: use graph_find_callers, graph_find_callees, or graph_find_references; " ++
    "callers/callees are static call-site approximations, not runtime tracing.\n" ++
    "- Need module declarations or resolution diagnostics: use graph_find_imports. Need reliable " ++
    "reverse module dependencies: use graph_find_importers; it excludes candidate and unresolved " ++
    "module strings.\n" ++
    "- Need direct members of a module, class, impl, or trait: use graph_find_children.\n" ++
    "- Need adjacent files: use graph_related_files.").toList

def mcpGuidance : Text :=
  ("MCP tool routing:\n" ++
    "- Use MCP tools when they directly match the requested external system, service, or data " ++
    "source.").toList

def availableGraphToolGuidance (tools : List Text) : Option Text :=
  if tools.any fun name => name = graphExploreToolName then some graphGuidance else none

def availableMcpToolGuidance (tools : List Text) : Option Text :=
  if tools.any fun name => mcpToolNamePrefix.isPrefixOf name then some mcpGuidance else none

def routingHeading : Text := "## Tool Routing".toList

/-- `build_available_tools_prompt`, of the names of the tools. -/
def buildAvailableToolsPrompt (tools : List Text) : Option Text :=
  match availableGraphToolGuidance tools, availableMcpToolGuidance tools with
  | none, none => none
  | graph, mcp =>
    let section_ := fun guidance : Option Text => match guidance with
      | some guidance => "\n\n".toList ++ guidance
      | none => []
    some (routingHeading ++ section_ graph ++ section_ mcp)

/-- The test of the search for the routing prompt. -/
def isRouting (message : ContextMessage) : Bool :=
  message.message.role = .system && routingHeading.isPrefixOf message.message.content

/-- `messages[index].content = prompt`. -/
def ContextMessage.rewrite (prompt : Text) (message : ContextMessage) : ContextMessage :=
  { message with message := { message.message with content := prompt } }

/-- `sync_agent_tool_routing_prompt`, with whether it took the prompt out. -/
def syncAgentToolRoutingPrompt (tools : List Text) (context : PreparedChatContext) :
    PreparedChatContext × Bool :=
  match context.messages.findIdx? isRouting, buildAvailableToolsPrompt tools with
  | some index, some prompt =>
    ({ context with messages := context.messages.modify index (ContextMessage.rewrite prompt) },
      false)
  | some index, none =>
    ({ context with
      messages := context.messages.eraseIdx index
      messageSourceSequences := context.messageSourceSequences.eraseIdx index
      messageContextSources := context.messageContextSources.eraseIdx index }, true)
  | none, _ => (context, false)

/-- The same with the correction of the caller, `run_coordinator_task_inner`. -/
def syncRouting (tools : List Text) (context : PreparedChatContext) : PreparedChatContext :=
  match syncAgentToolRoutingPrompt tools context with
  | (synced, true) => { synced with activeToolStartIndex := synced.activeToolStartIndex - 1 }
  | (synced, false) => synced

/-! ## Layers -/

/-- `index += 1` for the indices at or behind an insertion. -/
def shifted (index marked : Nat) : Nat := if index ≤ marked then marked + 1 else marked

def PendingMemoryRetrieval.shift (index : Nat) (pending : PendingMemoryRetrieval) :
    PendingMemoryRetrieval where
  stableInsertIndex := shifted index pending.stableInsertIndex
  turnInsertIndex := shifted index pending.turnInsertIndex

/-- The insertions of `insert_agent_prompt_message`, and the indices moved by them. -/
def inserted (index : Nat) (message : NeutralChatMessage) (sourceSequence : Option Int)
    (source : PromptContextSource) (context : PreparedChatContext) : PreparedChatContext where
  messages := context.messages.insertIdx index ⟨message, none⟩
  messageSourceSequences := context.messageSourceSequences.insertIdx index sourceSequence
  messageContextSources := context.messageContextSources.insertIdx index source
  activeToolStartIndex := shifted index context.activeToolStartIndex
  pendingMemoryRetrieval := context.pendingMemoryRetrieval.map (PendingMemoryRetrieval.shift index)

/-- `insert_agent_prompt_message`. `Vec::insert` panics behind the end. -/
def insertAgentPromptMessage (index : Nat) (message : NeutralChatMessage)
    (sourceSequence : Option Int) (source : PromptContextSource) (context : PreparedChatContext) :
    Except Stop PreparedChatContext :=
  if index ≤ context.messages.length ∧ index ≤ context.messageSourceSequences.length ∧
      index ≤ context.messageContextSources.length then
    .ok (inserted index message sourceSequence source context)
  else .error .panicked

/-- `position(..).unwrap_or(active_tool_start_index)`. -/
def positionOrActive (test : PromptContextSource → Bool) (context : PreparedChatContext) : Nat :=
  (context.messageContextSources.findIdx? test).getD context.activeToolStartIndex

def agentDefinitionInsertIndex : PreparedChatContext → Nat :=
  positionOrActive fun source => source ≠ .reservedPrompt

def agentTeamProtocolInsertIndex : PreparedChatContext → Nat :=
  positionOrActive fun source => source ≠ .reservedPrompt && source ≠ .agentDefinition

def isCurrentUser : PromptContextSource → Bool
  | .currentUser _ => true
  | _ => false

def agentCurrentTaskInsertIndex : PreparedChatContext → Nat := positionOrActive isCurrentUser

def neutralAgentMessage (role : NeutralChatRole) (content : Text) : NeutralChatMessage where
  role
  content

/-- A task dependency of a waiting task, as its resumption reads it. -/
structure AgentTaskDependencyRecord where
  dependencyTaskId : Text
  waitMode : Text
  pendingToolCallId : Option Text

def agentWaitResumeInstruction : Text :=
  ("## Agent Wait Resume\n\nSource: Foco Agent wait resume\n\nThe following agent_wait_tasks tool " ++
    "result contains completed child task results (from an explicit wait or an implicit finalize " ++
    "wait). Continue the current parent task from this result, synthesize the child output as " ++
    "needed, and do not treat a child task's final text as the main chat reply by itself.").toList

def agentWaitTasksTool : Text := "agent_wait_tasks".toList

/-- The assistant's call of `agent_wait_resume_messages`. -/
def waitCall (dependencies : List AgentTaskDependencyRecord) (mode callId : Text) :
    NeutralChatMessage where
  role := .assistant
  content := []
  toolCalls := [{
    callId
    name := agentWaitTasksTool
    arguments := .object [
      ("taskIds", .array (dependencies.map fun dependency => .string dependency.dependencyTaskId)),
      ("mode", .string mode), ("deadlineMs", .null), ("timeoutMs", .null)] }]

/-- The result to it. -/
def waitResult (callId content : Text) : NeutralChatMessage where
  role := .tool
  content
  toolCallId := some callId
  toolName := some agentWaitTasksTool

/-- What the layers are made of. The texts are given as what making them yields: the team protocol,
the private context, the current task, the serialised answer of `agent_wait_resume_tool_result`, and
the unread messages. -/
structure PromptLayers where
  collaborationToolsEnabled : Bool
  systemPrompt : Text
  teamProtocol : Except ApiError Text
  privateContext : Except ApiError (Option Text)
  currentTask : Except ApiError Text
  taskSequence : Int
  waitDependencies : List AgentTaskDependencyRecord
  waitToolResult : Except ApiError Text
  unreadMessages : List Text

/-- The `?` on an error of the app. -/
def orStop {α : Type} : Except ApiError α → Except Stop α
  | .ok value => .ok value
  | .error error => .error (.error error)

def missingCallId : ApiError :=
  .internal "Agent wait dependency is missing pending tool call id".toList

/-- `agent_wait_resume_messages`. -/
def agentWaitResumeMessages (layers : PromptLayers) :
    Except ApiError (List NeutralChatMessage) :=
  match layers.waitDependencies with
  | [] => .ok []
  | first :: rest =>
    match (first :: rest).findSome? AgentTaskDependencyRecord.pendingToolCallId with
    | none => .error missingCallId
    | some callId => do
      let content ← layers.waitToolResult
      .ok [neutralAgentMessage .system agentWaitResumeInstruction,
        waitCall (first :: rest) first.waitMode callId, waitResult callId content]

def agentPromptRole (collaborationToolsEnabled : Bool) : NeutralChatRole :=
  if collaborationToolsEnabled then .developer else .system

/-- The layer of the current task. -/
def insertCurrentTask (sequence : Int) (message : NeutralChatMessage)
    (context : PreparedChatContext) : Except Stop PreparedChatContext :=
  insertAgentPromptMessage (agentCurrentTaskInsertIndex context) message (some sequence)
    (.agentCurrentTask sequence) context

def insertPrivateContext (privateContext : Option Text) (context : PreparedChatContext) :
    Except Stop PreparedChatContext :=
  match privateContext with
  | some content => insertAgentPromptMessage context.activeToolStartIndex
      (neutralAgentMessage .system content) none .agentPrivateContext context
  | none => .ok context

/-- The answer to a wait of the task, if it waited. -/
def insertWaitResume (layers : PromptLayers) (context : PreparedChatContext) :
    Except Stop PreparedChatContext :=
  if layers.waitDependencies.isEmpty then .ok context
  else do
    let _ ← orStop layers.waitToolResult
    let messages ← orStop (agentWaitResumeMessages layers)
    messages.foldlM (fun context message => insertCurrentTask layers.taskSequence message context)
      context

def insertUnreadMessage (context : PreparedChatContext) (content : Text) :
    Except Stop PreparedChatContext :=
  insertAgentPromptMessage context.activeToolStartIndex (neutralAgentMessage .user content) none
    .agentUnreadMessage context

/-- `apply_agent_prompt_layers`, behind `validate_agent_definition_system_prompt` and the reads of
the database. -/
def applyAgentPromptLayers (layers : PromptLayers) (context : PreparedChatContext) :
    Except Stop PreparedChatContext := do
  let role := agentPromptRole layers.collaborationToolsEnabled
  let context ← insertAgentPromptMessage (agentDefinitionInsertIndex context)
    (neutralAgentMessage role layers.systemPrompt) none .agentDefinition context
  let teamProtocol ← orStop layers.teamProtocol
  let context ← insertAgentPromptMessage (agentTeamProtocolInsertIndex context)
    (neutralAgentMessage role teamProtocol) none .agentTeamProtocol context
  let privateContext ← orStop layers.privateContext
  let context ← insertPrivateContext privateContext context
  let currentTask ← orStop layers.currentTask
  let context ← insertCurrentTask layers.taskSequence (neutralAgentMessage .user currentTask) context
  let context ← insertWaitResume layers context
  layers.unreadMessages.foldlM insertUnreadMessage context

/-- What `run_coordinator_task_inner` does to the prepared context. -/
def prepareRun (tools : List Text) (layers : PromptLayers) (context : PreparedChatContext) :
    Except Stop PreparedChatContext :=
  applyAgentPromptLayers layers (syncRouting tools context)

/-! ## What insertions keep -/

section Insertions

variable {context context' : PreparedChatContext} {index : Nat} {message : NeutralChatMessage}
  {sequence : Option Int} {source : PromptContextSource}

/-- A message with its sequence and its source. -/
abbrev Row := ContextMessage × Option Int × PromptContextSource

def rows (context : PreparedChatContext) : List Row :=
  context.messages.zip (context.messageSourceSequences.zip context.messageContextSources)

/-- Of the prepared context, not put in. -/
def isOriginal (row : Row) : Bool := row.1.origin.isSome

def originals (rows : List Row) : List Row := rows.filter isOriginal

/-- The three lists go side by side. -/
def Parallel (context : PreparedChatContext) : Prop :=
  context.messageSourceSequences.length = context.messages.length ∧
    context.messageContextSources.length = context.messages.length

/-- The indices into the context. -/
def marks (context : PreparedChatContext) : List Nat :=
  context.activeToolStartIndex :: match context.pendingMemoryRetrieval with
    | some pending => [pending.stableInsertIndex, pending.turnInsertIndex]
    | none => []

/-- What of the prepared context stands before each index. -/
def views (context : PreparedChatContext) : List (List Row) :=
  (marks context).map fun mark => originals ((rows context).take mark)

/-- The lists stay side by side, no message of the prepared context is touched, and the indices stay
between the same ones. -/
structure Layered (context context' : PreparedChatContext) : Prop where
  parallel : Parallel context'
  active : context'.activeToolStartIndex ≤ context'.messages.length
  kept : originals (rows context') = originals (rows context)
  views : views context' = views context

theorem Layered.trans {between : PreparedChatContext} (first : Layered context between)
    (second : Layered between context') : Layered context context' :=
  ⟨second.parallel, second.active, second.kept.trans first.kept, second.views.trans first.views⟩

theorem length_rows (parallel : Parallel context) :
    (rows context).length = context.messages.length := by
  simp [rows, parallel.1, parallel.2]

theorem insert_eq (parallel : Parallel context) (inside : index ≤ context.messages.length) :
    insertAgentPromptMessage index message sequence source context =
      .ok (inserted index message sequence source context) :=
  if_pos ⟨inside, parallel.1.symm ▸ inside, parallel.2.symm ▸ inside⟩

theorem rows_inserted (parallel : Parallel context) :
    rows (inserted index message sequence source context) =
      (rows context).insertIdx index (⟨message, none⟩, sequence, source) := by
  have sides : context.messageSourceSequences.length = context.messageContextSources.length :=
    parallel.1.trans parallel.2.symm
  have whole : context.messages.length =
      (context.messageSourceSequences.zip context.messageContextSources).length := by
    simp [parallel.1, parallel.2]
  simp only [rows, inserted]
  rw [zip_insertIdx source sides, zip_insertIdx (sequence, source) whole]

theorem marks_inserted :
    marks (inserted index message sequence source context) =
      (marks context).map (shifted index) := by
  unfold marks inserted
  cases context.pendingMemoryRetrieval <;> rfl

theorem layered_inserted (parallel : Parallel context)
    (active : context.activeToolStartIndex ≤ context.messages.length)
    (inside : index ≤ context.messages.length) :
    Layered context (inserted index message sequence source context) := by
  have inside' : index ≤ (rows context).length := by rwa [length_rows parallel]
  refine ⟨?_, ?_, ?_, ?_⟩
  · simp [Parallel, inserted, List.length_insertIdx, parallel.1, parallel.2]
  · simp only [inserted, List.length_insertIdx_of_le_length inside, shifted]
    split <;> omega
  · rw [rows_inserted parallel]
    exact filter_insertIdx rfl inside'
  · rw [views, views, rows_inserted parallel, marks_inserted, List.map_map]
    exact List.map_congr_left fun mark _ => filter_take_insertIdx rfl inside'

/-- The state the insertions need: three lists of one length, and the index of the tools in them. -/
structure Ready (context : PreparedChatContext) : Prop where
  parallel : Parallel context
  active : context.activeToolStartIndex ≤ context.messages.length

theorem Layered.ready (layered : Layered context context') : Ready context' :=
  ⟨layered.parallel, layered.active⟩

theorem Ready.refl (ready : Ready context) : Layered context context :=
  ⟨ready.parallel, ready.active, rfl, rfl⟩

theorem Ready.position_le (ready : Ready context) (test : PromptContextSource → Bool) :
    positionOrActive test context ≤ context.messages.length := by
  unfold positionOrActive
  cases found : context.messageContextSources.findIdx? test with
  | none => exact ready.active
  | some index =>
    obtain ⟨inside, -⟩ := List.findIdx?_eq_some_iff_getElem.mp found
    rw [ready.parallel.2] at inside
    exact inside.le

/-- The next message for the current task comes behind the last one. -/
theorem currentTaskIndex_inserted (other : isCurrentUser source = false) :
    agentCurrentTaskInsertIndex
        (inserted (agentCurrentTaskInsertIndex context) message sequence source context) =
      agentCurrentTaskInsertIndex context + 1 := by
  unfold agentCurrentTaskInsertIndex positionOrActive inserted
  dsimp only
  cases found : context.messageContextSources.findIdx? isCurrentUser with
  | none =>
    rw [findIdx?_insertIdx_eq_none other found]
    exact if_pos le_rfl
  | some index =>
    rw [Option.getD_some, findIdx?_insertIdx other found]
    rfl

/-! ## Calls and their results -/

/-- Nothing that was put in calls a tool. -/
def Calm (messages : List ContextMessage) : Prop :=
  ∀ message ∈ messages, message.origin = none → message.message.toolCalls = []

/-- A call that was put in, and its result. -/
def Answers (call result : ContextMessage) : Prop :=
  result.origin = none ∧
    ∃ made, call.message.toolCalls = [made] ∧ result.message.toolCallId = some made.callId ∧
      result.message.toolCalls = []

/-- At most one call was put in, its result is behind it, and the index of the tools is not between
the two. -/
def Paired (context : PreparedChatContext) : Prop :=
  ∃ front pair back, context.messages = front ++ pair ++ back ∧ Calm front ∧ Calm back ∧
    (pair = [] ∨ ∃ call result, pair = [call, result] ∧ Answers call result) ∧
    (context.activeToolStartIndex ≤ front.length ∨
      front.length + pair.length ≤ context.activeToolStartIndex)

theorem Calm.append {front back : List ContextMessage} (calm : Calm front) (calm' : Calm back) :
    Calm (front ++ back) := by
  intro message mem
  exact (List.mem_append.mp mem).elim (calm message) (calm' message)

theorem Calm.insert {messages : List ContextMessage} (calm : Calm messages)
    (quiet : message.toolCalls = []) : Calm (messages.insertIdx index ⟨message, none⟩) := by
  intro other mem
  obtain rfl | mem := List.mem_cons.mp (List.insertIdx_subset_cons index _ messages mem)
  · exact fun _ => quiet
  · exact calm other mem

theorem Calm.paired (calm : Calm context.messages) : Paired context :=
  ⟨context.messages, [], [], by simp, calm, by simp [Calm], .inl rfl, by
    simpa using Nat.le_total _ _⟩

/-- A message without calls at the index of the tools comes between no call and its result. -/
theorem Paired.insert_active (paired : Paired context) (quiet : message.toolCalls = [])
    (active : context.activeToolStartIndex ≤ context.messages.length) :
    Paired (inserted context.activeToolStartIndex message sequence source context) := by
  obtain ⟨front, pair, back, whole, calm, calm', answered, apart⟩ := paired
  have calm_one : Calm [(⟨message, none⟩ : ContextMessage)] := by
    intro other mem _
    rw [List.mem_singleton.mp mem]
    exact quiet
  have moved : shifted context.activeToolStartIndex context.activeToolStartIndex =
      context.activeToolStartIndex + 1 := if_pos le_rfl
  obtain before | behind := apart
  · obtain ⟨first, second, rfl, length⟩ : ∃ first second, front = first ++ second ∧
        first.length = context.activeToolStartIndex :=
      ⟨_, _, (List.take_append_drop context.activeToolStartIndex front).symm, by simpa using before⟩
    refine ⟨first ++ [⟨message, none⟩] ++ second, pair, back, ?_, ?_, calm', answered, .inl ?_⟩
    · simp only [inserted, whole, ← length, List.append_assoc, insertIdx_append_length,
        List.cons_append, List.nil_append]
    · refine (Calm.append (fun other mem => calm other (List.mem_append_left _ mem)) calm_one).append
        fun other mem => calm other (List.mem_append_right _ mem)
    · simp only [inserted, moved, List.length_append, List.length_singleton]
      omega
  · obtain ⟨first, second, rfl, length⟩ : ∃ first second, back = first ++ second ∧
        front.length + pair.length + first.length = context.activeToolStartIndex := by
      refine ⟨_, _, (List.take_append_drop
        (context.activeToolStartIndex - (front.length + pair.length)) back).symm, ?_⟩
      rw [whole] at active
      simp only [List.length_append, List.length_take] at active ⊢
      omega
    refine ⟨front, pair, first ++ [⟨message, none⟩] ++ second, ?_, calm, ?_, answered, .inr ?_⟩
    · have place : context.activeToolStartIndex = (front ++ pair ++ first).length := by
        simp only [List.length_append]
        omega
      simp only [inserted, whole, place]
      rw [← List.append_assoc, insertIdx_append_length]
      simp
    · refine (Calm.append (fun other mem => calm' other (List.mem_append_left _ mem)) calm_one).append
        fun other mem => calm' other (List.mem_append_right _ mem)
    · simp only [inserted, moved]
      omega

theorem Ready.inserted (ready : Ready context) (inside : index ≤ context.messages.length) :
    Layered context (inserted index message sequence source context) :=
  layered_inserted ready.parallel ready.active inside

/-- A message for the current task, and where the next one will come. -/
theorem insertCurrentTask_spec (ready : Ready context) (taskSequence : Int)
    (message : NeutralChatMessage) :
    ∃ context', insertCurrentTask taskSequence message context = .ok context' ∧
      context' = inserted (agentCurrentTaskInsertIndex context) message (some taskSequence)
        (.agentCurrentTask taskSequence) context ∧
      Layered context context' ∧
      agentCurrentTaskInsertIndex context' = agentCurrentTaskInsertIndex context + 1 :=
  have place_le := ready.position_le isCurrentUser
  ⟨_, insert_eq ready.parallel place_le, rfl, ready.inserted place_le,
    currentTaskIndex_inserted rfl⟩

/-- The instruction, the call and the result of a wait come one behind the other. -/
theorem insertWait_spec (ready : Ready context) (calm : Calm context.messages) (taskSequence : Int)
    {instruction call result : NeutralChatMessage} (quiet : instruction.toolCalls = [])
    (answers : Answers ⟨call, none⟩ ⟨result, none⟩) :
    ∃ context', [instruction, call, result].foldlM
        (fun context message => insertCurrentTask taskSequence message context) context =
        .ok context' ∧ Layered context context' ∧ Paired context' := by
  have place_le : agentCurrentTaskInsertIndex context ≤ context.messages.length :=
    ready.position_le isCurrentUser
  obtain ⟨first, done₁, first_eq, layered₁, next₁⟩ :=
    insertCurrentTask_spec ready taskSequence instruction
  obtain ⟨second, done₂, second_eq, layered₂, next₂⟩ :=
    insertCurrentTask_spec layered₁.ready taskSequence call
  obtain ⟨third, done₃, third_eq, layered₃, -⟩ :=
    insertCurrentTask_spec layered₂.ready taskSequence result
  refine ⟨third, ?_, layered₁.trans (layered₂.trans layered₃), ?_⟩
  · simp only [List.foldlM_cons, List.foldlM_nil, Result.bind_eq_ok]
    exact ⟨first, done₁, second, done₂, third, done₃, rfl⟩
  · obtain ⟨front, back, whole, length⟩ : ∃ front back, context.messages = front ++ back ∧
        front.length = agentCurrentTaskInsertIndex context :=
      ⟨_, _, (List.take_append_drop (agentCurrentTaskInsertIndex context) _).symm,
        by simpa using place_le⟩
    rw [next₁] at second_eq
    rw [next₂, next₁] at third_eq
    have messages₁ : first.messages = front ++ [⟨instruction, none⟩] ++ back := by
      simp only [first_eq, inserted, whole, ← length, insertIdx_append_length]
      simp
    have messages₂ : second.messages =
        front ++ [⟨instruction, none⟩] ++ [⟨call, none⟩] ++ back := by
      have place : agentCurrentTaskInsertIndex context + 1 =
          (front ++ [(⟨instruction, none⟩ : ContextMessage)]).length := by simp [length]
      simp only [second_eq, inserted, messages₁, place, insertIdx_append_length]
      simp
    have messages₃ : third.messages =
        front ++ [⟨instruction, none⟩] ++ [⟨call, none⟩, ⟨result, none⟩] ++ back := by
      have place : agentCurrentTaskInsertIndex context + 1 + 1 =
          (front ++ [(⟨instruction, none⟩ : ContextMessage)] ++
            [(⟨call, none⟩ : ContextMessage)]).length := by simp [length]
      simp only [third_eq, inserted, messages₂, place, insertIdx_append_length]
      simp
    have calm_first : Calm (front ++ [(⟨instruction, none⟩ : ContextMessage)]) := by
      refine Calm.append (fun other mem => calm other (by simp [whole, mem])) ?_
      intro other mem _
      rw [List.mem_singleton.mp mem]
      exact quiet
    refine ⟨_, _, back, messages₃, calm_first, fun other mem => calm other (by simp [whole, mem]),
      .inr ⟨_, _, rfl, answers⟩, ?_⟩
    simp only [third_eq, second_eq, first_eq, inserted, shifted, List.length_append,
      List.length_singleton, List.length_cons, List.length_nil]
    split <;> split <;> split <;> omega

/-- No `Vec` is used beyond its end, and a result is as described. -/
def Ends {α : Type} (good : α → Prop) : Except Stop α → Prop
  | .ok value => good value
  | .error (.error _) => True
  | .error .panicked => False

theorem Ends.bind {α β : Type} {good : α → Prop} {good' : β → Prop} {step : Except Stop α}
    {next : α → Except Stop β} (ends : Ends good step)
    (later : ∀ value, good value → Ends good' (next value)) : Ends good' (step >>= next) := by
  cases step with
  | ok value => exact later value ends
  | error stop =>
    cases stop with
    | error error => trivial
    | panicked => exact ends.elim

theorem ends_orStop {α : Type} (result : Except ApiError α) : Ends (fun _ => True) (orStop result) := by
  cases result <;> trivial

/-- The start, and what is kept of it while nothing that was put in calls a tool. -/
def CalmLayers (start context : PreparedChatContext) : Prop :=
  Layered start context ∧ Calm context.messages

theorem calmLayers_insert {start : PreparedChatContext} (holds : CalmLayers start context)
    (inside : index ≤ context.messages.length) (quiet : message.toolCalls = []) :
    Ends (CalmLayers start) (insertAgentPromptMessage index message sequence source context) := by
  rw [insert_eq holds.1.parallel inside]
  exact ⟨holds.1.trans (holds.1.ready.inserted inside), holds.2.insert quiet⟩

theorem insertPrivateContext_ends {start : PreparedChatContext} (holds : CalmLayers start context)
    (privateContext : Option Text) :
    Ends (CalmLayers start) (insertPrivateContext privateContext context) := by
  cases privateContext with
  | none => exact holds
  | some content => exact calmLayers_insert holds holds.1.active rfl

theorem agentWaitResumeMessages_eq_ok {layers : PromptLayers} {messages : List NeutralChatMessage}
    (made : agentWaitResumeMessages layers = .ok messages) :
    messages = [] ∨ ∃ instruction call result, messages = [instruction, call, result] ∧
      instruction.toolCalls = [] ∧ Answers ⟨call, none⟩ ⟨result, none⟩ := by
  unfold agentWaitResumeMessages at made
  split at made
  · exact .inl (Except.ok.inj made).symm
  · split at made
    · cases made
    · obtain ⟨content, -, made⟩ := Result.bind_eq_ok.mp made
      exact .inr ⟨_, _, _, (Except.ok.inj made).symm, rfl, rfl, _, rfl, rfl, rfl⟩

theorem insertWaitResume_ends {start : PreparedChatContext} (holds : CalmLayers start context)
    (layers : PromptLayers) :
    Ends (fun context' => Layered start context' ∧ Paired context')
      (insertWaitResume layers context) := by
  unfold insertWaitResume
  split
  · exact ⟨holds.1, holds.2.paired⟩
  · refine (ends_orStop _).bind fun _ _ => ?_
    cases made : agentWaitResumeMessages layers with
    | error error => trivial
    | ok messages =>
      obtain rfl | ⟨instruction, call, result, rfl, quiet, answers⟩ :=
        agentWaitResumeMessages_eq_ok made
      · exact ⟨holds.1, holds.2.paired⟩
      · obtain ⟨context', done, layered, paired⟩ :=
          insertWait_spec holds.1.ready holds.2 layers.taskSequence quiet answers
        change Ends _ ([instruction, call, result].foldlM
          (fun context message => insertCurrentTask layers.taskSequence message context) context)
        rw [done]
        exact ⟨holds.1.trans layered, paired⟩

theorem insertUnread_ends {start : PreparedChatContext} (contents : List Text)
    (holds : Layered start context ∧ Paired context) :
    Ends (fun context' => Layered start context' ∧ Paired context')
      (contents.foldlM insertUnreadMessage context) := by
  induction contents generalizing context with
  | nil => exact holds
  | cons content contents ih =>
    rw [List.foldlM_cons]
    refine Ends.bind ?_ fun context' holds' => ih holds'
    rw [insertUnreadMessage, insert_eq holds.1.parallel holds.1.active]
    exact ⟨holds.1.trans (holds.1.ready.inserted holds.1.active),
      holds.2.insert_active rfl holds.1.active⟩

/-- The layers leave what was there in its place around them. -/
theorem applyAgentPromptLayers_ends (ready : Ready context) (calm : Calm context.messages)
    (layers : PromptLayers) :
    Ends (fun context' => Layered context context' ∧ Paired context')
      (applyAgentPromptLayers layers context) := by
  unfold applyAgentPromptLayers
  have start : CalmLayers context context := ⟨ready.refl, calm⟩
  refine (calmLayers_insert start (ready.position_le _) rfl).bind fun defined holds => ?_
  refine (ends_orStop _).bind fun teamProtocol _ => ?_
  refine (calmLayers_insert holds (holds.1.ready.position_le _) rfl).bind fun joined holds => ?_
  refine (ends_orStop _).bind fun privateContext _ => ?_
  refine (insertPrivateContext_ends holds privateContext).bind fun informed holds => ?_
  refine (ends_orStop _).bind fun currentTask _ => ?_
  refine Ends.bind (calmLayers_insert holds (holds.1.ready.position_le _) rfl)
    fun tasked holds => ?_
  refine (insertWaitResume_ends holds layers).bind fun resumed holds => ?_
  exact insertUnread_ends layers.unreadMessages holds

end Insertions

/-! ## The prompt of a run keeps the prepared one -/

section Runs

variable {tools : List Text} {context final : PreparedChatContext}

/-- A context as it is prepared: three lists of one length with indices into them, and messages that
know their places. -/
structure Prepared (context : PreparedChatContext) : Prop where
  parallel : Parallel context
  numbered : context.messages.map ContextMessage.origin =
    (List.range context.messages.length).map some
  active : context.activeToolStartIndex ≤ context.messages.length
  pending : ∀ pending, context.pendingMemoryRetrieval = some pending →
    pending.stableInsertIndex ≤ context.messages.length ∧
      pending.turnInsertIndex ≤ context.messages.length

/-- What is to be left of some first rows of the context: the routing prompt is rewritten, or goes. -/
def synced (tools : List Text) (context : PreparedChatContext) (rows : List Row) : List Row :=
  match context.messages.findIdx? isRouting, buildAvailableToolsPrompt tools with
  | some index, some prompt => rows.modify index (Prod.map (ContextMessage.rewrite prompt) id)
  | some index, none => rows.eraseIdx index
  | none, _ => rows

/-- The prompt keeps the prepared one: lists of one length, every other message in order with its
sequence and source, the same messages before each index, and every call put in with its result
behind it. -/
structure Keeps (tools : List Text) (context final : PreparedChatContext) : Prop where
  parallel : Parallel final
  kept : originals (rows final) = synced tools context (rows context)
  views : views final = (marks context).map fun mark =>
    synced tools context ((rows context).take mark)
  answered : ∀ front call back, final.messages = front ++ call :: back → call.origin = none →
    call.message.toolCalls ≠ [] → ∃ result rest, back = result :: rest ∧ Answers call result

/-- Where a routing prompt is taken out, the index of the tools is behind it or 0, and the indices
for memories are not behind it, or are the end. -/
def IndicesFollow (tools : List Text) (context : PreparedChatContext) : Prop :=
  ∀ index, context.messages.findIdx? isRouting = some index →
    buildAvailableToolsPrompt tools = none →
    (index < context.activeToolStartIndex ∨ context.activeToolStartIndex = 0) ∧
      ∀ pending, context.pendingMemoryRetrieval = some pending →
        (pending.stableInsertIndex ≤ index ∨
          pending.stableInsertIndex = context.messages.length) ∧
        (pending.turnInsertIndex ≤ index ∨ pending.turnInsertIndex = context.messages.length)

theorem Prepared.original (prepared : Prepared context) :
    ∀ message ∈ context.messages, message.origin.isSome := by
  intro message mem
  have listed := List.mem_map_of_mem (f := ContextMessage.origin) mem
  rw [prepared.numbered] at listed
  obtain ⟨place, -, same⟩ := List.mem_map.mp listed
  rw [← same]
  rfl

theorem originals_eq_self {context : PreparedChatContext}
    (original : ∀ message ∈ context.messages, message.origin.isSome) (mark : Nat) :
    originals ((rows context).take mark) = (rows context).take mark := by
  refine List.filter_eq_self.mpr fun row mem => ?_
  exact original row.1 (List.of_mem_zip (List.mem_of_mem_take mem)).1

theorem Paired.answered (paired : Paired final) {front back : List ContextMessage}
    {call : ContextMessage} (whole : final.messages = front ++ call :: back)
    (new : call.origin = none) (calls : call.message.toolCalls ≠ []) :
    ∃ result rest, back = result :: rest ∧ Answers call result := by
  obtain ⟨first, pair, last, whole', calm, calm', answered, -⟩ := paired
  rw [whole, List.append_assoc] at whole'
  obtain ⟨between, rest_eq⟩ : ∃ between, pair ++ last = between ++ call :: back := by
    obtain ⟨more, first_eq, rest_eq⟩ | ⟨more, -, rest_eq⟩ := List.append_eq_append_iff.mp whole'
    · cases more with
      | nil => exact ⟨[], rest_eq.symm⟩
      | cons other more =>
        obtain rfl : call = other := (List.cons.inj rest_eq).1
        exact absurd (calm call (by simp [first_eq]) new) calls
    · exact ⟨more, rest_eq⟩
  obtain rfl | ⟨made, result, rfl, answers⟩ := answered
  · exact absurd (calm' call (by simp [show last = between ++ call :: back from rest_eq]) new) calls
  · match between, rest_eq with
    | [], rest_eq =>
      obtain ⟨rfl, rfl⟩ := List.cons.inj rest_eq
      exact ⟨result, last, rfl, answers⟩
    | [_], rest_eq =>
      obtain ⟨-, same⟩ := List.cons.inj rest_eq
      obtain rfl : result = call := (List.cons.inj same).1
      obtain ⟨-, _, -, -, quiet⟩ := answers
      exact absurd quiet calls
    | _ :: _ :: more, rest_eq =>
      have last_eq : last = more ++ call :: back := (List.cons.inj (List.cons.inj rest_eq).2).2
      exact absurd (calm' call (by simp [last_eq]) new) calls

/-- What is kept of the indices is kept exactly if it was so after the routing was brought up to
date. -/
theorem keeps_iff {start : PreparedChatContext}
    (original : ∀ message ∈ start.messages, message.origin.isSome)
    (rows_start : rows start = synced tools context (rows context))
    (layered : Layered start final) (paired : Paired final) :
    Keeps tools context final ↔ (marks start).map (fun mark => (rows start).take mark) =
      (marks context).map fun mark => synced tools context ((rows context).take mark) := by
  have views_start : views final = (marks start).map fun mark => (rows start).take mark :=
    layered.views.trans (List.map_congr_left fun mark _ => originals_eq_self original mark)
  have kept : originals (rows final) = synced tools context (rows context) := by
    rw [layered.kept, ← rows_start]
    simpa using originals_eq_self original (rows start).length
  constructor
  · intro keeps
    rw [← views_start]
    exact keeps.views
  · intro same
    exact ⟨layered.parallel, kept, views_start.trans same, fun _ _ _ => paired.answered⟩

theorem syncRouting_rewritten {index : Nat} {prompt : Text}
    (found : context.messages.findIdx? isRouting = some index)
    (built : buildAvailableToolsPrompt tools = some prompt) :
    syncRouting tools context =
      { context with messages := context.messages.modify index (ContextMessage.rewrite prompt) } := by
  simp only [syncRouting, syncAgentToolRoutingPrompt, found, built]

theorem syncRouting_removed {index : Nat}
    (found : context.messages.findIdx? isRouting = some index)
    (built : buildAvailableToolsPrompt tools = none) :
    syncRouting tools context = { context with
      messages := context.messages.eraseIdx index
      messageSourceSequences := context.messageSourceSequences.eraseIdx index
      messageContextSources := context.messageContextSources.eraseIdx index
      activeToolStartIndex := context.activeToolStartIndex - 1 } := by
  simp only [syncRouting, syncAgentToolRoutingPrompt, found, built]

/-- Taking the routing prompt out. The lists lose one row, the index of the tools is one less and
the others are as they were. -/
theorem removed_views_iff (prepared : Prepared context) {index : Nat}
    (found : context.messages.findIdx? isRouting = some index) :
    ((context.activeToolStartIndex - 1) :: (marks context).tail).map
        (fun mark => ((rows context).eraseIdx index).take mark) =
      ((marks context).map fun mark => ((rows context).take mark).eraseIdx index) ↔
    (index < context.activeToolStartIndex ∨ context.activeToolStartIndex = 0) ∧
      ∀ pending, context.pendingMemoryRetrieval = some pending →
        (pending.stableInsertIndex ≤ index ∨
          pending.stableInsertIndex = context.messages.length) ∧
        (pending.turnInsertIndex ≤ index ∨ pending.turnInsertIndex = context.messages.length) := by
  have length := length_rows prepared.parallel
  obtain ⟨inside, -⟩ := List.findIdx?_eq_some_iff_getElem.mp found
  have inside' : index < (rows context).length := by rwa [length]
  rw [marks, List.tail_cons, List.map_cons, List.map_cons, List.cons.injEq,
    take_pred_eraseIdx_iff inside' (length.symm ▸ prepared.active)]
  refine and_congr Iff.rfl ?_
  cases is_pending : context.pendingMemoryRetrieval with
  | none => simp
  | some pending =>
    obtain ⟨stable, turn⟩ := prepared.pending pending is_pending
    simp only [List.map_cons, List.map_nil, List.cons.injEq, and_true, Option.some.injEq,
      forall_eq']
    rw [take_eraseIdx_iff inside' (length.symm ▸ stable),
      take_eraseIdx_iff inside' (length.symm ▸ turn), length]

/-- The context as the layers find it. -/
theorem syncRouting_spec (prepared : Prepared context) (tools : List Text) :
    Ready (syncRouting tools context) ∧
    (∀ message ∈ (syncRouting tools context).messages, message.origin.isSome) ∧
    rows (syncRouting tools context) = synced tools context (rows context) ∧
    ((marks (syncRouting tools context)).map
        (fun mark => (rows (syncRouting tools context)).take mark) =
      ((marks context).map fun mark => synced tools context ((rows context).take mark)) ↔
        IndicesFollow tools context) := by
  have parallel := prepared.parallel
  cases found : context.messages.findIdx? isRouting with
  | none =>
    have unchanged : syncRouting tools context = context := by
      simp only [syncRouting, syncAgentToolRoutingPrompt, found]
    have same : synced tools context = id := by
      funext rows
      simp only [synced, found, id]
    rw [unchanged, same]
    refine ⟨⟨parallel, prepared.active⟩, prepared.original, rfl, iff_of_true rfl ?_⟩
    intro index found'
    rw [found] at found'
    cases found'
  | some index =>
    cases built : buildAvailableToolsPrompt tools with
    | some prompt =>
      have same : synced tools context =
          fun rows => rows.modify index (Prod.map (ContextMessage.rewrite prompt) id) := by
        funext rows
        simp only [synced, found, built]
      rw [syncRouting_rewritten found built, same]
      refine ⟨⟨?_, ?_⟩, ?_, zip_modify _, iff_of_true ?_ ?_⟩
      · simpa [Parallel] using parallel
      · simpa using prepared.active
      · intro message mem
        obtain ⟨place, at_place⟩ := List.mem_iff_getElem?.mp mem
        rw [List.getElem?_modify] at at_place
        obtain ⟨before, was, rfl⟩ := Option.map_eq_some_iff.mp at_place
        have original := prepared.original before (List.mem_of_getElem? was)
        split <;> exact original
      · refine List.map_congr_left fun mark _ => ?_
        dsimp only [rows]
        rw [zip_modify, List.take_modify]
      · intro index' _ built'
        rw [built] at built'
        cases built'
    | none =>
      have same : synced tools context = fun rows => rows.eraseIdx index := by
        funext rows
        simp only [synced, found, built]
      have sides : context.messageSourceSequences.length =
          context.messageContextSources.length := parallel.1.trans parallel.2.symm
      have whole : context.messages.length =
          (context.messageSourceSequences.zip context.messageContextSources).length := by
        simp [parallel.1, parallel.2]
      obtain ⟨inside, -⟩ := List.findIdx?_eq_some_iff_getElem.mp found
      rw [syncRouting_removed found built, same]
      have erased : rows { context with
          messages := context.messages.eraseIdx index
          messageSourceSequences := context.messageSourceSequences.eraseIdx index
          messageContextSources := context.messageContextSources.eraseIdx index
          activeToolStartIndex := context.activeToolStartIndex - 1 } =
          (rows context).eraseIdx index := by
        simp only [rows]
        rw [zip_eraseIdx sides, zip_eraseIdx whole]
      refine ⟨⟨?_, ?_⟩, ?_, erased, ?_⟩
      · simp [Parallel, List.length_eraseIdx, parallel.1, parallel.2]
      · have active := prepared.active
        simp only [List.length_eraseIdx_of_lt inside]
        omega
      · exact fun message mem => prepared.original message (List.mem_of_mem_eraseIdx mem)
      · rw [erased]
        refine (removed_views_iff prepared found).trans ⟨fun follow index' found' _ => ?_,
          fun follow => follow index found built⟩
        rw [found] at found'
        rw [← Option.some.inj found']
        exact follow

/-- The prompt of a run keeps the prepared one exactly if the indices follow the routing prompt where
it is taken out; no run ends with a panic. -/
theorem prepareRun_keeps_iff (prepared : Prepared context) (tools : List Text)
    (layers : PromptLayers) :
    Ends (fun final => Keeps tools context final ↔ IndicesFollow tools context)
      (prepareRun tools layers context) := by
  obtain ⟨ready, original, rows_start, follow⟩ := syncRouting_spec prepared tools
  have calm : Calm (syncRouting tools context).messages := by
    intro message mem new
    have is_some := original message mem
    rw [new] at is_some
    cases is_some
  have ends := applyAgentPromptLayers_ends ready calm layers
  unfold prepareRun
  cases done : applyAgentPromptLayers layers (syncRouting tools context) with
  | ok final =>
    rw [done] at ends
    exact (keeps_iff original rows_start ends.1 ends.2).trans follow
  | error stop =>
    rw [done] at ends
    cases stop with
    | error error => trivial
    | panicked => exact ends

end Runs

/-- A routing prompt and the message of the user, with memories to come between the two. -/
def routedContext : PreparedChatContext where
  messages := [⟨neutralAgentMessage .system routingHeading, some 0⟩,
    ⟨neutralAgentMessage .user [], some 1⟩]
  messageSourceSequences := [none, some 1]
  messageContextSources := [.reservedPrompt, .currentUser 1]
  activeToolStartIndex := 2
  pendingMemoryRetrieval := some ⟨1, 1⟩

/-- The layers of a task that has waited for another. -/
def resumedLayers : PromptLayers where
  collaborationToolsEnabled := false
  systemPrompt := ['s']
  teamProtocol := .ok []
  privateContext := .ok none
  currentTask := .ok []
  taskSequence := 3
  waitDependencies := [⟨['t'], ['a'], some ['c']⟩]
  waitToolResult := .ok []
  unreadMessages := [[]]

theorem routedContext_prepared : Prepared routedContext where
  parallel := ⟨rfl, rfl⟩
  numbered := rfl
  active := Nat.le_refl 2
  pending pending is_pending := by
    rw [← Option.some.inj is_pending]
    exact ⟨by decide, by decide⟩

theorem prepareRun_keeps_iff_routed :
    Ends (fun final => Keeps [] routedContext final ↔ IndicesFollow [] routedContext)
      (prepareRun [] resumedLayers routedContext) :=
  prepareRun_keeps_iff routedContext_prepared [] resumedLayers

/-- Without tools the routing prompt is taken out, and memories would come behind the user's message. -/
theorem prepareRun_not_keeps :
    ∃ final, prepareRun [] resumedLayers routedContext = .ok final ∧
      ¬ Keeps [] routedContext final := by
  refine ⟨_, rfl, fun keeps => ?_⟩
  have lengths := congrArg (List.map List.length) keeps.views
  revert lengths
  decide

end Foco.AgentPromptLayers
