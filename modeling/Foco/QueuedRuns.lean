import Foco.AgentExecution

/-!
`store/workspace.rs`, the queued runs of Coordinator chats. A run that waits or runs is marked
twice, in the metadata of its chat and in the metadata of its user message: one operation
publishes both copies with the task of the run, one claims them, one clears them, and one closes
a run that failed before it streamed. Each is one `Immediate` transaction. Of chats and messages
the rows hold what these operations read; an answer of the tables that are left out (the spec
snapshot, the prompt context injections, the plan) is an argument.
-/
namespace Foco.AgentRuntime
open Foco.RustText Foco.AgentDomain Foco.Table

/-! ## Chats and messages -/

abbrev MessageId := Text
abbrev RunId := Text

/-- The roles that `messages` allows. -/
inductive MessageRole where
  | system | user | assistant | tool
  deriving DecidableEq

/-- A row of `chats`. Metadata that is no JSON text stands as a value that is no object: both
are refused where they are read. -/
structure Chat where
  id : ChatId
  title : Text
  metadata : Json

/-- A row of `messages`. -/
structure Message where
  id : MessageId
  chatId : ChatId
  role : MessageRole
  content : Text
  sequence : Int
  metadata : Json

/-- The tables of the agent runtime with the chats that its teams belong to. -/
structure ChatTables where
  agents : AgentStore
  chats : List Chat
  messages : List Message

/-- What the database checks of chats and messages. -/
structure ChatSchema (tables : ChatTables) : Prop where
  chatIds : Unique Chat.id tables.chats
  titled : ∀ row ∈ tables.chats, row.title ≠ []
  messageIds : Unique Message.id tables.messages
  named : ∀ row ∈ tables.messages, row.id ≠ []
  sequences : Unique (fun row => (row.chatId, row.sequence)) tables.messages
  nonnegative : ∀ row ∈ tables.messages, 0 ≤ row.sequence
  messageChats : ∀ row ∈ tables.messages, row.chatId ∈ tables.chats.map Chat.id
  teamChats : ∀ team ∈ tables.agents.teams, team.chatId ∈ tables.chats.map Chat.id

instance (tables : ChatTables) : Decidable (ChatSchema tables) :=
  decidable_of_iff (_ ∧ _ ∧ _ ∧ _ ∧ _ ∧ _ ∧ _ ∧ _)
    ⟨fun ⟨a, b, c, d, e, f, g, h⟩ => ⟨a, b, c, d, e, f, g, h⟩,
      fun ⟨a, b, c, d, e, f, g, h⟩ => ⟨a, b, c, d, e, f, g, h⟩⟩

/-- A database state: tables that meet the schema. -/
structure ChatStore extends ChatTables where
  schema : ChatSchema toChatTables

/-- The store of a new workspace. -/
def ChatStore.empty : ChatStore := ⟨⟨.empty, [], []⟩, by decide⟩

/-- Whose metadata an error names. -/
inductive MetadataOwner where
  | chat | userMessage | assistantMessage

/-- The messages of `InvalidMessageMetadata` that the operations on queued runs raise. -/
inductive InvalidMetadata where
  | newChatIncomplete
  | notUserMessage
  | queuedRunNotObject (owner : Option MetadataOwner)
  | notObject (owner : MetadataOwner)
  | assistantNotNext
  | assistantIncomplete
  | userMessageNotFound
  | userMessageElsewhere
  | assistantNotFound
  | assistantReplaced
  | identityReplaced
  | ownerReplaced
  | notClaimable

/-- Why an operation on queued runs fails. -/
inductive ChatStoreError where
  | constraint
  | agents (error : AgentStoreError)
  | invalidMessageMetadata (reason : InvalidMetadata)
  | chatNotFound (chatId : ChatId)
  | newTeamDiffers
  | rejected

/-- The database accepts a write that meets the schema. -/
def ChatTables.write (tables : ChatTables) : Except ChatStoreError ChatStore :=
  if schema : ChatSchema tables then .ok ⟨tables, schema⟩ else .error .constraint

theorem ChatTables.write_eq_ok {tables : ChatTables} {store : ChatStore} :
    tables.write = .ok store ↔ store.toChatTables = tables := by
  unfold ChatTables.write
  constructor
  · intro h
    split at h
    · cases h
      rfl
    · cases h
  · rintro rfl
    rw [dif_pos store.schema]

/-- `chat_from_transaction`. -/
def ChatTables.chat (tables : ChatTables) (id : ChatId) : Option Chat :=
  tables.chats.find? fun row => row.id = id

/-- `message_from_transaction`. -/
def ChatTables.message (tables : ChatTables) (id : MessageId) : Option Message :=
  tables.messages.find? fun row => row.id = id

namespace ChatStore

/-- The statements of an operation on the agent tables. -/
def setAgents (store : ChatStore) (agents : AgentStore) : Except ChatStoreError ChatStore :=
  { store.toChatTables with agents }.write

/-- `INSERT INTO chats`. -/
def insertChat (store : ChatStore) (row : Chat) : Except ChatStoreError ChatStore :=
  { store.toChatTables with chats := store.chats ++ [row] }.write

/-- `INSERT INTO messages`. -/
def insertMessage (store : ChatStore) (row : Message) : Except ChatStoreError ChatStore :=
  { store.toChatTables with messages := store.messages ++ [row] }.write

/-- `UPDATE chats SET metadata_json = … WHERE id = …`. -/
def setChatMetadata (store : ChatStore) (id : ChatId) (metadata : JsonMap) :
    Except ChatStoreError ChatStore :=
  { store.toChatTables with
    chats := update (fun row => row.id = id) (fun row => { row with metadata := .object metadata })
      store.chats }.write

/-- `UPDATE messages … WHERE id = …`. -/
def updateMessage (store : ChatStore) (id : MessageId) (set : Message → Message) :
    Except ChatStoreError ChatStore :=
  { store.toChatTables with
    messages := update (fun row => row.id = id) set store.messages }.write

end ChatStore

/-! ## Metadata -/

/-- `QUEUED_CHAT_METADATA_KEY` and `QUEUED_MESSAGE_METADATA_KEY`. -/
def queuedRunKey : String := "queuedRun"

/-- `parse_json_object`. -/
def parseJsonObject (owner : MetadataOwner) (metadata : Json) : Except ChatStoreError JsonMap :=
  match metadata.asObject with
  | some fields => .ok fields
  | none => .error (.invalidMessageMetadata (.notObject owner))

/-- `get(camel).or_else(|| get(snake))`. -/
def getEither (camel snake : String) (run : JsonMap) : Option Json :=
  (run.get camel).or (run.get snake)

/-- The user message that a queued run names, in either spelling. -/
def runUserMessageId (run : JsonMap) : Option MessageId :=
  (getEither "userMessageId" "user_message_id" run).bind Json.asStr

@[inherit_doc runUserMessageId]
def runAssistantMessageId (run : JsonMap) : Option MessageId :=
  (getEither "assistantMessageId" "assistant_message_id" run).bind Json.asStr

@[inherit_doc runUserMessageId]
def runAssistantSequence (run : JsonMap) : Option Int :=
  (getEither "assistantSequence" "assistant_sequence" run).bind Json.asI64

/-- `get(key).and_then(Value::as_str)` on a queued run. -/
def runText (key : String) (run : JsonMap) : Option Text := (run.get key).bind Json.asStr

/-- The text of a task id. -/
def taskIdText (id : AgentTaskId) : Text := Nat.toDigits 10 id

/-- A string of the source as text. -/
def text (value : String) : Text := value.toList

/-! ## Queueing -/

/-- `NewMessage`. -/
structure NewMessage where
  id : MessageId
  chatId : ChatId
  role : MessageRole
  content : Text
  sequence : Int
  metadata : Option Json

/-- `QueueCoordinatorChatMessage`; `accepted` says whether the spec snapshot, the prompt context
injections and the plan binding are accepted. -/
structure QueueCoordinatorChatMessage where
  chatId : ChatId
  newChatTitle : Option Text
  newChatMetadata : Option Json
  userMessage : NewMessage
  chatQueuedRun : Json
  newTeam : Option NewAgentTeam
  task : NewAgentTask
  maxTeamQueued : Int
  maxInstanceQueued : Int
  maxChatQueued : Int
  accepted : Bool

/-- The checks of `queue_coordinator_chat_message` before its transaction: the queued run. -/
def validateQueued (queued : QueueCoordinatorChatMessage) : Except ChatStoreError JsonMap :=
  if queued.newChatTitle.isSome ≠ queued.newChatMetadata.isSome then
    .error (.invalidMessageMetadata .newChatIncomplete)
  else if queued.userMessage.chatId ≠ queued.chatId ∨ queued.userMessage.role ≠ .user then
    .error (.invalidMessageMetadata .notUserMessage)
  else if queued.maxTeamQueued ≤ 0 ∨ queued.maxInstanceQueued ≤ 0 ∨ queued.maxChatQueued ≤ 0 then
    .error (.agents .limitNotPositive)
  else
    match queued.chatQueuedRun.asObject with
    | none => .error (.invalidMessageMetadata (.queuedRunNotObject none))
    | some queuedRun => do
      queued.newChatMetadata.toList.forM fun metadata => do
        let _ ← parseJsonObject .chat metadata
      if queued.newTeam.any fun team => decide (team.maxConcurrentRuns ≤ 0) then
        .error (.agents .limitNotPositive)
      else return queuedRun

/-- The chat that a queued message opens, if it opens one. -/
def insertNewChat (queued : QueueCoordinatorChatMessage) (store : ChatStore) :
    Except ChatStoreError ChatStore :=
  match queued.newChatTitle, queued.newChatMetadata with
  | some title, some metadata => store.insertChat { id := queued.chatId, title, metadata }
  | _, _ => .ok store

/-- The team that a queued message brings, if it brings one. -/
def insertNewTeam (queued : QueueCoordinatorChatMessage) (store : ChatStore) :
    Except ChatStoreError ChatStore :=
  match queued.newTeam with
  | none => .ok store
  | some team =>
    if team.chatId ≠ queued.chatId ∨ team.id ≠ queued.task.teamId ∨
        team.coordinatorInstanceId ≠ queued.task.ownerInstanceId then .error .newTeamDiffers
    else do
      let (agents, _) ← (createAgentTeam team store.agents).mapError .agents
      store.setAgents agents

/-- The statements of `queue_coordinator_chat_message` on the agent tables. -/
def queueTask (queued : QueueCoordinatorChatMessage) (now : Timestamp) (store : AgentStore) :
    Except AgentStoreError AgentStore := do
  let task := queued.task
  let owner ← acceptingOwner store.toAgentTables task.teamId task.ownerInstanceId
  let inTeam := teamQueued store.toAgentTables task.teamId
  if inTeam ≥ queued.maxTeamQueued ∨ inTeam ≥ queued.maxChatQueued then .error .queueFull
  else if instanceQueued store.toAgentTables task.ownerInstanceId ≥ queued.maxInstanceQueued then
    .error .queueFull
  else do
    let store ← store.updateInstances
      (fun row => row.id = task.ownerInstanceId ∧ row.teamId = task.teamId)
      AgentInstance.countTask
    store.insertTask {
      id := task.id, teamId := task.teamId, ownerInstanceId := task.ownerInstanceId,
      originInstanceId := task.originInstanceId, parentTaskId := task.parentTaskId,
      sequence := owner.nextTaskSequence, status := .queued, inputJson := task.inputJson,
      createdAt := now, updatedAt := now }

/-- The row of the user message. -/
def NewMessage.row (message : NewMessage) : Message :=
  { id := message.id, chatId := message.chatId, role := message.role,
    content := message.content, sequence := message.sequence,
    metadata := message.metadata.getD (.object []) }

/-- `{"streamingState":"streaming"}`. -/
def streamingMetadata : Json := .object [("streamingState", .string (text "streaming"))]

/-- The row of the assistant message that the run will fill. -/
def assistantPlaceholder (chatId : ChatId) (id : MessageId) (sequence : Int) : Message :=
  { id, chatId, role := .assistant, content := [], sequence, metadata := streamingMetadata }

/-- The assistant message of a queued run, which names both its id and its sequence or none. -/
def insertAssistant (queued : QueueCoordinatorChatMessage) (queuedRun : JsonMap)
    (store : ChatStore) : Except ChatStoreError ChatStore :=
  match ((runAssistantMessageId queuedRun).map trim).filter (fun id => !id.isEmpty),
    runAssistantSequence queuedRun with
  | some id, some sequence =>
    if sequence ≠ queued.userMessage.sequence + 1 then
      .error (.invalidMessageMetadata .assistantNotNext)
    else store.insertMessage (assistantPlaceholder queued.chatId id sequence)
  | none, none => .ok store
  | _, _ => .error (.invalidMessageMetadata .assistantIncomplete)

/-- The copy of the queued run in the metadata of the chat. -/
def publishQueuedRun (chatId : ChatId) (queuedRun : Json) (store : ChatStore) :
    Except ChatStoreError ChatStore :=
  match store.chat chatId with
  | none => .error (.chatNotFound chatId)
  | some chat => do
    let metadata ← parseJsonObject .chat chat.metadata
    store.setChatMetadata chatId (metadata.insert queuedRunKey queuedRun)

/-- `queue_coordinator_chat_message`. -/
def queueCoordinatorChatMessage (queued : QueueCoordinatorChatMessage) (now : Timestamp)
    (store : ChatStore) : Except ChatStoreError (ChatStore × Unit) := do
  let queuedRun ← validateQueued queued
  let store ← insertNewChat queued store
  let store ← insertNewTeam queued store
  let agents ← (queueTask queued now store.agents).mapError .agents
  let store ← store.setAgents agents
  let store ← store.insertMessage queued.userMessage.row
  let store ← insertAssistant queued queuedRun store
  let store ← publishQueuedRun queued.chatId (.object queuedRun) store
  if queued.accepted then return (store, ()) else .error .rejected

/-! ## Claiming -/

/-- The identity of a queued run, as the callers of the operations name it. -/
structure RunIdentity where
  chatId : ChatId
  userMessageId : MessageId
  assistantMessageId : MessageId
  assistantSequence : Int
  agentTaskId : AgentTaskId
  deriving DecidableEq

/-- `queued_run_matches_agent_identity`. -/
def queuedRunMatchesAgentIdentity (run : JsonMap) (identity : RunIdentity)
    (allowMissingUserMessageId : Bool) : Bool :=
  ((allowMissingUserMessageId && (runUserMessageId run).isNone) ||
    decide (runUserMessageId run = some identity.userMessageId)) &&
  decide (runAssistantMessageId run = some identity.assistantMessageId) &&
  (runAssistantSequence run).all fun sequence => decide (sequence = identity.assistantSequence)

/-- `active_agent_task_matches_queued_run`. -/
def activeAgentTaskMatchesQueuedRun (tables : AgentTables) (identity : RunIdentity) : Bool :=
  match tables.tasks.find? fun row => row.id = identity.agentTaskId with
  | none => false
  | some task =>
    (tables.teams.any fun team => decide (team.id = task.teamId ∧ team.chatId = identity.chatId)) &&
    task.status.holdsQueueHead &&
    decide (task.inputJson.getStr "queuedUserMessageId" = some identity.userMessageId) &&
    decide (task.inputJson.getStr "visibleAssistantMessageId" =
      some identity.assistantMessageId) &&
    decide ((task.inputJson.get "visibleAssistantSequence").bind Json.asI64 =
      some identity.assistantSequence)

/-- `AgentQueuedRunClaimOutcome`. -/
inductive AgentQueuedRunClaimOutcome where
  | claimed | alreadyOwned

/-- The two copies of a queued run and the metadata they stand in. -/
structure RunCopies where
  chatMetadata : JsonMap
  userMetadata : JsonMap
  chatRun : JsonMap
  userRun : JsonMap

/-- The chat and the user message of a run to claim, whose assistant message exists. -/
def claimParties (identity : RunIdentity) (tables : ChatTables) :
    Except ChatStoreError (Chat × Message) :=
  match tables.chat identity.chatId with
  | none => .error (.chatNotFound identity.chatId)
  | some chat =>
    match tables.message identity.userMessageId with
    | none => .error (.invalidMessageMetadata .userMessageNotFound)
    | some user =>
      if user.chatId ≠ identity.chatId ∨ user.role ≠ .user then
        .error (.invalidMessageMetadata .userMessageElsewhere)
      else
        match tables.message identity.assistantMessageId with
        | none => .error (.invalidMessageMetadata .assistantNotFound)
        | some assistant =>
          if assistant.chatId ≠ identity.chatId ∨ assistant.role ≠ .assistant ∨
              assistant.sequence ≠ identity.assistantSequence then
            .error (.invalidMessageMetadata .assistantReplaced)
          else .ok (chat, user)

/-- `get_mut(key).and_then(Value::as_object_mut)`, which must be there. -/
def queuedRunOf (owner : MetadataOwner) (metadata : JsonMap) : Except ChatStoreError JsonMap :=
  match (metadata.get queuedRunKey).bind Json.asObject with
  | some run => .ok run
  | none => .error (.invalidMessageMetadata (.queuedRunNotObject (some owner)))

/-- The copies that `claim_agent_chat_queued_run` reads. -/
def claimCopies (chat : Chat) (user : Message) : Except ChatStoreError RunCopies := do
  let chatMetadata ← parseJsonObject .chat chat.metadata
  let userMetadata ← parseJsonObject .userMessage user.metadata
  let chatRun ← queuedRunOf .chat chatMetadata
  let userRun ← queuedRunOf .userMessage userMetadata
  return { chatMetadata, userMetadata, chatRun, userRun }

/-- Both copies name the task. -/
def ownerMatches (copies : RunCopies) (agentTaskId : AgentTaskId) : Bool :=
  decide (runText "agentTaskId" copies.chatRun = some (taskIdText agentTaskId)) &&
  decide (runText "agentTaskId" copies.userRun = some (taskIdText agentTaskId))

/-- Neither copy names a task. -/
def legacyOwner (copies : RunCopies) : Bool :=
  (runText "agentTaskId" copies.chatRun).isNone && (runText "agentTaskId" copies.userRun).isNone

/-- Both copies have a status. -/
def bothHaveStatus (copies : RunCopies) (status : String) : Bool :=
  decide (runText "status" copies.chatRun = some (text status)) &&
  decide (runText "status" copies.userRun = some (text status))

/-- The outcome of a claim on copies that match it, if it may have them. -/
def claimableOutcome (copies : RunCopies) (agentTaskId : AgentTaskId) (runId : RunId) :
    Option AgentQueuedRunClaimOutcome :=
  if bothHaveStatus copies "queued" then some .claimed
  else if bothHaveStatus copies "running" then
    if runText "runId" copies.chatRun = some runId ∧ runText "runId" copies.userRun = some runId
    then some .alreadyOwned
    else if ownerMatches copies agentTaskId && (copies.chatRun.get "runId").isNone &&
        (copies.userRun.get "runId").isNone then some .claimed
    else if legacyOwner copies then some .claimed
    else none
  else none

/-- The checks of `claim_agent_chat_queued_run` on the copies. -/
def claimOutcome (copies : RunCopies) (identity : RunIdentity) (runId : RunId) (active : Bool) :
    Except ChatStoreError AgentQueuedRunClaimOutcome :=
  if !(queuedRunMatchesAgentIdentity copies.chatRun identity false &&
      queuedRunMatchesAgentIdentity copies.userRun identity true) then
    .error (.invalidMessageMetadata .identityReplaced)
  else if !ownerMatches copies identity.agentTaskId && !(legacyOwner copies && active) then
    .error (.invalidMessageMetadata .ownerReplaced)
  else
    match claimableOutcome copies identity.agentTaskId runId with
    | none => .error (.invalidMessageMetadata .notClaimable)
    | some outcome => .ok outcome

/-- A copy as the claim rewrites it. -/
def claimedRun (identity : RunIdentity) (runId : RunId) (run : JsonMap) : JsonMap :=
  (((((run.insert "status" (.string (text "running"))).insert
    "userMessageId" (.string identity.userMessageId)).insert
    "assistantMessageId" (.string identity.assistantMessageId)).insert
    "assistantSequence" (.number (.integer identity.assistantSequence))).insert
    "agentTaskId" (.string (taskIdText identity.agentTaskId))).insert
    "runId" (.string runId)

/-- `claim_agent_chat_queued_run`. -/
def claimAgentChatQueuedRun (identity : RunIdentity) (runId : RunId) (store : ChatStore) :
    Except ChatStoreError (ChatStore × AgentQueuedRunClaimOutcome) := do
  let (chat, user) ← claimParties identity store.toChatTables
  let copies ← claimCopies chat user
  match ← claimOutcome copies identity runId
      (activeAgentTaskMatchesQueuedRun store.agents.toAgentTables identity) with
  | .alreadyOwned => return (store, .alreadyOwned)
  | .claimed => do
    let store ← store.setChatMetadata identity.chatId (copies.chatMetadata.insert queuedRunKey
      (.object (claimedRun identity runId copies.chatRun)))
    let store ← store.updateMessage identity.userMessageId fun row =>
      if row.chatId = identity.chatId then
        { row with metadata := .object (copies.userMetadata.insert queuedRunKey
            (.object (claimedRun identity runId copies.userRun))) }
      else row
    return (store, .claimed)

/-! ## Clearing -/

/-- `AgentQueuedRunClearOutcome`. -/
inductive AgentQueuedRunClearOutcome where
  | cleared | notOwned

/-- The condition of `clear_agent_chat_queued_run_if_owned` on one copy. -/
def isOwnedCopy (identity : RunIdentity) (runId : RunId) (run : JsonMap) : Bool :=
  queuedRunMatchesAgentIdentity run identity (run.get "userMessageId").isNone &&
  decide (runText "agentTaskId" run = some (taskIdText identity.agentTaskId)) &&
  decide (runText "runId" run = some runId) &&
  decide (runText "status" run = some (text "running"))

/-- The metadata has a queued run, which is the caller's. -/
def ownsCopy (identity : RunIdentity) (runId : RunId) (metadata : JsonMap) : Bool :=
  ((metadata.get queuedRunKey).bind Json.asObject).any (isOwnedCopy identity runId)

/-- `clear_agent_chat_queued_run_if_owned`. -/
def clearAgentChatQueuedRunIfOwned (identity : RunIdentity) (runId : RunId) (store : ChatStore) :
    Except ChatStoreError (ChatStore × AgentQueuedRunClearOutcome) :=
  match store.chat identity.chatId with
  | none => .ok (store, .notOwned)
  | some chat =>
    match store.message identity.userMessageId with
    | none => .ok (store, .notOwned)
    | some user => do
      let chatMetadata ← parseJsonObject .chat chat.metadata
      let userMetadata ← parseJsonObject .userMessage user.metadata
      if !(ownsCopy identity runId chatMetadata && ownsCopy identity runId userMetadata) then
        return (store, .notOwned)
      else do
        let store ← store.setChatMetadata identity.chatId (chatMetadata.remove queuedRunKey)
        let store ← store.updateMessage identity.userMessageId fun row =>
          if row.chatId = identity.chatId then
            { row with metadata := .object (userMetadata.remove queuedRunKey) }
          else row
        return (store, .cleared)

/-! ## Closing -/

/-- `PreStreamChatFailureClosure`; `accepted` says whether the plan of the task accepts its
failure. -/
structure PreStreamChatFailureClosure where
  identity : RunIdentity
  attempt : ExpectedAttempt
  interruptionReason : Option Text
  assistantContent : Text
  assistantMetadata : Json
  expectedQueuedRunAgentTaskId : Option AgentTaskId
  expectedQueuedRunId : Option RunId
  materializeAssistant : Bool
  accepted : Bool

/-- The queued run is the one that the closure expects. -/
def isExpectedRun (closure : PreStreamChatFailureClosure) (run : JsonMap) : Bool :=
  decide (runText "status" run = some (text "running")) &&
  decide (runUserMessageId run = some closure.identity.userMessageId) &&
  decide (runAssistantMessageId run = some closure.identity.assistantMessageId) &&
  (closure.expectedQueuedRunAgentTaskId.all fun taskId =>
    decide (runText "agentTaskId" run = some (taskIdText taskId))) &&
  closure.expectedQueuedRunId.all fun runId => decide (runText "runId" run = some runId)

/-- The check of `close_pre_stream_chat_failure` on the user message, when the caller expects an
owner of the queued run. -/
def expectedRunMatches (closure : PreStreamChatFailureClosure) (tables : ChatTables) :
    Except ChatStoreError Bool :=
  if closure.expectedQueuedRunAgentTaskId.isNone ∧ closure.expectedQueuedRunId.isNone then .ok true
  else
    match tables.message closure.identity.userMessageId with
    | none => .ok false
    | some user =>
      if user.chatId ≠ closure.identity.chatId ∨ user.role ≠ .user then .ok false
      else do
        let metadata ← parseJsonObject .userMessage user.metadata
        return ((metadata.get queuedRunKey).bind Json.asObject).any (isExpectedRun closure)

/-- The assistant message is still the caller's to write: it is missing, empty, streaming or
failed. -/
def canWriteAssistant (closure : PreStreamChatFailureClosure) (tables : ChatTables) :
    Except ChatStoreError Bool :=
  match tables.message closure.identity.assistantMessageId with
  | none => .ok true
  | some existing =>
    if existing.chatId ≠ closure.identity.chatId ∨ existing.role ≠ .assistant ∨
        existing.sequence ≠ closure.identity.assistantSequence then .ok false
    else do
      let metadata ← parseJsonObject .assistantMessage existing.metadata
      let streamingState := (runText "streamingState" metadata).getD []
      return (trim existing.content).isEmpty || decide (streamingState = text "streaming") ||
        decide (streamingState = text "failed") || (metadata.get "runFailure").isSome

/-- `INSERT INTO messages … ON CONFLICT(id) DO UPDATE …` of the error that stands for the
answer. -/
def upsertAssistant (closure : PreStreamChatFailureClosure) (store : ChatStore) :
    Except ChatStoreError ChatStore :=
  let identity := closure.identity
  match store.message identity.assistantMessageId with
  | none => store.insertMessage {
      id := identity.assistantMessageId, chatId := identity.chatId, role := .assistant,
      content := closure.assistantContent, sequence := identity.assistantSequence,
      metadata := closure.assistantMetadata }
  | some _ => store.updateMessage identity.assistantMessageId fun row =>
      if row.chatId = identity.chatId ∧ row.role = .assistant ∧
          row.sequence = identity.assistantSequence then
        { row with content := closure.assistantContent, metadata := closure.assistantMetadata }
      else row

/-- The assistant fields of a queued run are the closure's where it has them. -/
def closesAssistant (identity : RunIdentity) (run : JsonMap) : Bool :=
  ((runAssistantMessageId run).all fun id => decide (id = identity.assistantMessageId)) &&
  (runAssistantSequence run).all fun sequence => decide (sequence = identity.assistantSequence)

/-- The chat's copy is the closure's: it names its user message. -/
def closesChatRun (identity : RunIdentity) (run : JsonMap) : Bool :=
  decide (runUserMessageId run = some identity.userMessageId) && closesAssistant identity run

/-- The statements of `close_pre_stream_chat_failure` on the chat. -/
def closeChatRun (identity : RunIdentity) (store : ChatStore) : Except ChatStoreError ChatStore :=
  match store.chat identity.chatId with
  | none => .ok store
  | some chat => do
    let metadata ← parseJsonObject .chat chat.metadata
    if ((metadata.get queuedRunKey).bind Json.asObject).any (closesChatRun identity) then
      store.setChatMetadata identity.chatId (metadata.remove queuedRunKey)
    else return store

/-- The statements of `close_pre_stream_chat_failure` on the user message. -/
def closeMessageRun (identity : RunIdentity) (store : ChatStore) :
    Except ChatStoreError ChatStore :=
  match store.message identity.userMessageId with
  | none => .ok store
  | some message =>
    if message.chatId ≠ identity.chatId then .ok store
    else do
      let metadata ← parseJsonObject .userMessage message.metadata
      if ((metadata.get queuedRunKey).bind Json.asObject).any (closesAssistant identity) then
        store.updateMessage identity.userMessageId fun row =>
          if row.chatId = identity.chatId then
            { row with metadata := .object (metadata.remove queuedRunKey) }
          else row
      else return store

/-- The error message and the cleared copies of a closed run. -/
def materializeClosure (closure : PreStreamChatFailureClosure) (store : ChatStore) :
    Except ChatStoreError ChatStore :=
  if closure.materializeAssistant = false then .ok store
  else do
    let store ← if ← canWriteAssistant closure store.toChatTables then
      upsertAssistant closure store else pure store
    let store ← closeChatRun closure.identity store
    closeMessageRun closure.identity store

/-- `close_pre_stream_chat_failure`: whether it was applied. -/
def closePreStreamChatRun (closure : PreStreamChatFailureClosure) (now : Timestamp)
    (store : ChatStore) : Except ChatStoreError (ChatStore × Bool) := do
  let _ ← parseJsonObject .assistantMessage closure.assistantMetadata
  if !(store.agents.tasks.any
      (isClosable store.agents.toAgentTables closure.identity.agentTaskId closure.attempt)) then
    return (store, false)
  else if !(← expectedRunMatches closure store.toChatTables) then return (store, false)
  else do
    let (agents, _) ← (closePreStreamChatFailure closure.identity.agentTaskId closure.attempt
      closure.interruptionReason true now store.agents).mapError .agents
    let store ← store.setAgents agents
    let store ← materializeClosure closure store
    if closure.accepted then return (store, true) else .error .rejected

end Foco.AgentRuntime
