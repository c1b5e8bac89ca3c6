import Foco.QueuedRuns
import Foco.Result

/-!
What the operations on queued runs do to chats and messages: which rows they write, and what
becomes of the two copies of a run. Rows stay where they are and keep their roles; an operation
writes the chat and the messages that its caller names, and no others.
-/
namespace Foco.AgentRuntime
open Foco.RustText Foco.AgentDomain Foco.Table Foco.Result

/-- The copy of a queued run that a chat holds. -/
def chatSlot (tables : ChatTables) (id : ChatId) : Option Json :=
  (tables.chat id).bind fun row => row.metadata.get queuedRunKey

/-- The copy of a queued run that a message holds. -/
def messageMarker (tables : ChatTables) (id : MessageId) : Option Json :=
  (tables.message id).bind fun row => row.metadata.get queuedRunKey

/-! ## Rows -/

/-- A statement writes at most one chat and some messages. Rows that were there stay, keep what
identifies them, and keep metadata that are an object. -/
structure WritesWithin (before after : ChatTables) (chatId : ChatId) (messageIds : List MessageId) :
    Prop where
  chats : ∀ other, other ≠ chatId → after.chat other = before.chat other
  messages : ∀ other, other ∉ messageIds → after.message other = before.message other
  chatStays : ∀ other row, before.chat other = some row → ∃ row', after.chat other = some row' ∧
    (row.metadata.asObject.isSome = true → row'.metadata.asObject.isSome = true)
  messageStays : ∀ other row, before.message other = some row → ∃ row',
    after.message other = some row' ∧ row'.chatId = row.chatId ∧ row'.role = row.role ∧
    row'.sequence = row.sequence ∧
    (row.metadata.asObject.isSome = true → row'.metadata.asObject.isSome = true)

namespace WritesWithin

variable {before middle after : ChatTables} {chatId : ChatId} {messageIds : List MessageId}

theorem of_eq (chats : after.chats = before.chats) (messages : after.messages = before.messages) :
    WritesWithin before after chatId messageIds := by
  have chat : ∀ id, after.chat id = before.chat id := fun id => by rw [ChatTables.chat, chats]; rfl
  have message : ∀ id, after.message id = before.message id := fun id => by
    rw [ChatTables.message, messages]; rfl
  refine ⟨fun id _ => chat id, fun id _ => message id, ?_, ?_⟩
  · intro id row found
    exact ⟨row, by rw [chat, found], fun object => object⟩
  · intro id row found
    exact ⟨row, by rw [message, found], rfl, rfl, rfl, fun object => object⟩

theorem trans (first : WritesWithin before middle chatId messageIds)
    (second : WritesWithin middle after chatId messageIds) :
    WritesWithin before after chatId messageIds where
  chats other ne := (second.chats other ne).trans (first.chats other ne)
  messages other away := (second.messages other away).trans (first.messages other away)
  chatStays other row found := by
    obtain ⟨row', found', object⟩ := first.chatStays other row found
    obtain ⟨row'', found'', object'⟩ := second.chatStays other row' found'
    exact ⟨row'', found'', fun is => object' (object is)⟩
  messageStays other row found := by
    obtain ⟨row', found', chat, role, sequence, object⟩ := first.messageStays other row found
    obtain ⟨row'', found'', chat', role', sequence', object'⟩ :=
      second.messageStays other row' found'
    exact ⟨row'', found'', chat'.trans chat, role'.trans role, sequence'.trans sequence,
      fun is => object' (object is)⟩

theorem mono {more : List MessageId} (within : WritesWithin before after chatId messageIds)
    (le : ∀ id ∈ messageIds, id ∈ more) : WritesWithin before after chatId more :=
  ⟨within.chats, fun other away => within.messages other fun mem => away (le other mem),
    within.chatStays, within.messageStays⟩

theorem chatSlot (within : WritesWithin before after chatId messageIds) {other : ChatId}
    (ne : other ≠ chatId) : chatSlot after other = chatSlot before other := by
  rw [AgentRuntime.chatSlot, within.chats other ne]
  rfl

theorem messageMarker (within : WritesWithin before after chatId messageIds) {other : MessageId}
    (away : other ∉ messageIds) : messageMarker after other = messageMarker before other := by
  rw [AgentRuntime.messageMarker, within.messages other away]
  rfl

end WritesWithin

section Statements

variable {store store' : ChatStore}

theorem setAgents_tables {agents : AgentStore} (h : store.setAgents agents = .ok store') :
    store'.chats = store.chats ∧ store'.messages = store.messages := by
  rw [ChatTables.write_eq_ok.mp h]
  exact ⟨rfl, rfl⟩

theorem setAgents_within {agents : AgentStore} (h : store.setAgents agents = .ok store')
    (chatId : ChatId) (messageIds : List MessageId) :
    WritesWithin store.toChatTables store'.toChatTables chatId messageIds :=
  .of_eq (setAgents_tables h).1 (setAgents_tables h).2

/-- A new row has an id that no row had. -/
theorem find?_append_fresh {Row Key : Type} [DecidableEq Key] {key : Row → Key} {rows : List Row}
    {row : Row} (unique : Unique key (rows ++ [row])) :
    rows.find? (fun other => decide (key other = key row)) = none ∧
    (rows ++ [row]).find? (fun other => decide (key other = key row)) = some row ∧
    ∀ wanted, wanted ≠ key row → (rows ++ [row]).find? (fun other => decide (key other = wanted)) =
      rows.find? fun other => decide (key other = wanted) := by
  have none : rows.find? (fun other => decide (key other = key row)) = none := by
    rw [List.find?_eq_none]
    intro other mem same
    have apart := (List.pairwise_append.mp unique).2.2 other mem row List.mem_cons_self
    exact apart (of_decide_eq_true same)
  refine ⟨none, ?_, ?_⟩
  · rw [List.find?_append, none]
    simp
  · intro wanted ne
    rw [List.find?_append]
    simp [ne.symm]

theorem insertChat_spec {row : Chat} (h : store.insertChat row = .ok store') :
    store'.toChatTables.chat row.id = some row ∧ store.toChatTables.chat row.id = none ∧
    ∀ messageIds, WritesWithin store.toChatTables store'.toChatTables row.id messageIds := by
  have tables := ChatTables.write_eq_ok.mp h
  have unique := store'.schema.chatIds
  rw [tables] at unique
  obtain ⟨none, found, others⟩ := find?_append_fresh unique
  have chats : ∀ id, store'.toChatTables.chat id =
      (store.chats ++ [row]).find? fun other => other.id = id := fun id => by rw [tables]; rfl
  refine ⟨(chats _).trans found, none, fun messageIds => ⟨?_, ?_, ?_, ?_⟩⟩
  · intro other ne
    exact (chats _).trans (others other ne)
  · intro other _
    rw [tables]
    rfl
  · intro other old oldFound
    refine ⟨old, ?_, fun object => object⟩
    by_cases same : other = row.id
    · rw [same] at oldFound
      cases none.symm.trans oldFound
    · exact ((chats _).trans (others other same)).trans oldFound
  · intro other old oldFound
    rw [tables]
    exact ⟨old, oldFound, rfl, rfl, rfl, fun object => object⟩

theorem insertMessage_spec {row : Message} (h : store.insertMessage row = .ok store') :
    store'.toChatTables.message row.id = some row ∧ store.toChatTables.message row.id = none ∧
    store'.chats = store.chats ∧
    ∀ chatId, WritesWithin store.toChatTables store'.toChatTables chatId [row.id] := by
  have tables := ChatTables.write_eq_ok.mp h
  have unique := store'.schema.messageIds
  rw [tables] at unique
  obtain ⟨none, found, others⟩ := find?_append_fresh unique
  have messages : ∀ id, store'.toChatTables.message id =
      (store.messages ++ [row]).find? fun other => other.id = id := fun id => by rw [tables]; rfl
  refine ⟨(messages _).trans found, none, by rw [tables], fun chatId => ⟨?_, ?_, ?_, ?_⟩⟩
  · intro other _
    rw [tables]
    rfl
  · intro other away
    exact (messages _).trans (others other fun same => away (List.mem_singleton.mpr same))
  · intro other old oldFound
    rw [tables]
    exact ⟨old, oldFound, fun object => object⟩
  · intro other old oldFound
    refine ⟨old, ?_, rfl, rfl, rfl, fun object => object⟩
    by_cases same : other = row.id
    · rw [same] at oldFound
      cases none.symm.trans oldFound
    · exact ((messages _).trans (others other same)).trans oldFound

/-- A statement that rewrites the metadata of chats keeps the schema. -/
theorem setChatMetadata_ok (store : ChatStore) (id : ChatId) (metadata : JsonMap) :
    ∃ store', store.setChatMetadata id metadata = .ok store' := by
  have schema := store.schema
  let set (row : Chat) : Chat := { row with metadata := .object metadata }
  have chatIds : (update (fun row => row.id = id) set store.chats).map Chat.id =
      store.chats.map Chat.id := map_update Chat.id fun _ => rfl
  have kept : ChatSchema { store.toChatTables with
      chats := update (fun row => row.id = id) set store.chats } :=
    { chatIds := schema.chatIds.update fun _ => rfl
      titled := by
        intro row mem
        obtain ⟨old, oldMem, rfl⟩ := mem_update.mp mem
        split
        · exact schema.titled old oldMem
        · exact schema.titled old oldMem
      messageIds := schema.messageIds
      named := schema.named
      sequences := schema.sequences
      nonnegative := schema.nonnegative
      messageChats := by
        intro row mem
        rw [chatIds]
        exact schema.messageChats row mem
      teamChats := by
        intro team mem
        rw [chatIds]
        exact schema.teamChats team mem }
  exact ⟨⟨_, kept⟩, dif_pos kept⟩

theorem setChatMetadata_spec {id : ChatId} {metadata : JsonMap} {row : Chat}
    (found : store.toChatTables.chat id = some row)
    (h : store.setChatMetadata id metadata = .ok store') :
    chatSlot store'.toChatTables id = metadata.get queuedRunKey ∧
    store'.messages = store.messages ∧
    ∀ messageIds, WritesWithin store.toChatTables store'.toChatTables id messageIds := by
  have tables := ChatTables.write_eq_ok.mp h
  have chats : ∀ wanted, store'.toChatTables.chat wanted =
      if wanted = id then (store.toChatTables.chat wanted).map fun row =>
        { row with metadata := .object metadata }
      else store.toChatTables.chat wanted := by
    intro wanted
    rw [tables]
    have keeps : ∀ row : Chat, { row with metadata := .object metadata }.id = row.id :=
      fun _ => rfl
    exact find?_update_key keeps id wanted
  refine ⟨?_, by rw [tables], fun messageIds => ⟨?_, ?_, ?_, ?_⟩⟩
  · rw [chatSlot, chats, if_pos rfl, found]
    rfl
  · intro other ne
    rw [chats, if_neg ne]
  · intro other _
    rw [tables]
    rfl
  · intro other old oldFound
    rw [chats]
    split
    · rw [oldFound]
      exact ⟨_, rfl, fun _ => rfl⟩
    · exact ⟨old, oldFound, fun object => object⟩
  · intro other old oldFound
    rw [tables]
    exact ⟨old, oldFound, rfl, rfl, rfl, fun object => object⟩

/-- A statement on a message that writes its content or its metadata. -/
structure KeepsMessage (set : Message → Message) : Prop where
  id : ∀ row, (set row).id = row.id
  chatId : ∀ row, (set row).chatId = row.chatId
  role : ∀ row, (set row).role = row.role
  sequence : ∀ row, (set row).sequence = row.sequence
  object : ∀ row, row.metadata.asObject.isSome = true →
    (set row).metadata.asObject.isSome = true

/-- The statement that sets the metadata of a message of a chat. -/
theorem KeepsMessage.setMetadata (chatId : ChatId) (metadata : JsonMap) :
    KeepsMessage fun row =>
      if row.chatId = chatId then { row with metadata := .object metadata } else row where
  id row := by split <;> rfl
  chatId row := by split <;> rfl
  role row := by split <;> rfl
  sequence row := by split <;> rfl
  object row object := by
    split
    · rfl
    · exact object

theorem updateMessage_ok (store : ChatStore) (id : MessageId) {set : Message → Message}
    (keeps : KeepsMessage set) : ∃ store', store.updateMessage id set = .ok store' := by
  have schema := store.schema
  have keys : ∀ row : Message, ((set row).chatId, (set row).sequence) =
      (row.chatId, row.sequence) := fun row => by rw [keeps.chatId, keeps.sequence]
  have kept : ChatSchema { store.toChatTables with
      messages := update (fun row => row.id = id) set store.messages } :=
    { chatIds := schema.chatIds
      titled := schema.titled
      messageIds := schema.messageIds.update keeps.id
      named := by
        intro row mem
        obtain ⟨old, oldMem, rfl⟩ := mem_update.mp mem
        split
        · rw [keeps.id]
          exact schema.named old oldMem
        · exact schema.named old oldMem
      sequences := schema.sequences.update keys
      nonnegative := by
        intro row mem
        obtain ⟨old, oldMem, rfl⟩ := mem_update.mp mem
        split
        · rw [keeps.sequence]
          exact schema.nonnegative old oldMem
        · exact schema.nonnegative old oldMem
      messageChats := by
        intro row mem
        obtain ⟨old, oldMem, rfl⟩ := mem_update.mp mem
        split
        · rw [keeps.chatId]
          exact schema.messageChats old oldMem
        · exact schema.messageChats old oldMem
      teamChats := schema.teamChats }
  exact ⟨⟨_, kept⟩, dif_pos kept⟩

theorem updateMessage_spec {id : MessageId} {set : Message → Message} (keeps : KeepsMessage set)
    (h : store.updateMessage id set = .ok store') :
    store'.toChatTables.message id = (store.toChatTables.message id).map set ∧
    store'.chats = store.chats ∧
    ∀ chatId, WritesWithin store.toChatTables store'.toChatTables chatId [id] := by
  have tables := ChatTables.write_eq_ok.mp h
  have messages : ∀ wanted, store'.toChatTables.message wanted =
      if wanted = id then (store.toChatTables.message wanted).map set
      else store.toChatTables.message wanted := by
    intro wanted
    rw [tables]
    exact find?_update_key keeps.id id wanted
  refine ⟨by rw [messages, if_pos rfl], by rw [tables], fun chatId => ⟨?_, ?_, ?_, ?_⟩⟩
  · intro other _
    rw [tables]
    rfl
  · intro other away
    rw [messages, if_neg fun same => away (List.mem_singleton.mpr same)]
  · intro other old oldFound
    rw [tables]
    exact ⟨old, oldFound, fun object => object⟩
  · intro other old oldFound
    rw [messages]
    split
    · rw [oldFound]
      exact ⟨_, rfl, keeps.chatId old, keeps.role old, keeps.sequence old, keeps.object old⟩
    · exact ⟨old, oldFound, rfl, rfl, rfl, fun object => object⟩

end Statements

/-! ## The copies of a run -/

/-- A copy of a run that waits, or that a run id has claimed. Only the chat's copy always names
the user message, and a waiting copy need not name the task. -/
structure IsCopy (identity : RunIdentity) (claimedBy : Option RunId) (owned : Bool)
    (run : JsonMap) : Prop where
  status : runText "status" run = some (text (if claimedBy.isSome then "running" else "queued"))
  userMessageId : runUserMessageId run = some identity.userMessageId ∨
    runUserMessageId run = none ∧ run.get "userMessageId" = none
  assistantMessageId : runAssistantMessageId run = some identity.assistantMessageId
  assistantSequence : runAssistantSequence run = some identity.assistantSequence
  agentTaskId : runText "agentTaskId" run =
    if owned then some (taskIdText identity.agentTaskId) else none
  runId : runText "runId" run = claimedBy

/-- Both copies of a run are stored and agree. -/
structure RunStored (tables : ChatTables) (identity : RunIdentity) (claimedBy : Option RunId)
    (owned : Bool) : Prop where
  slot : ∃ run, chatSlot tables identity.chatId = some (.object run) ∧
    IsCopy identity claimedBy owned run ∧ runUserMessageId run = some identity.userMessageId
  marker : ∃ run, messageMarker tables identity.userMessageId = some (.object run) ∧
    IsCopy identity claimedBy owned run

/-- The rows that a run is about. -/
structure RunRows (tables : ChatTables) (identity : RunIdentity) : Prop where
  chat : ∃ row metadata, tables.chat identity.chatId = some row ∧ row.metadata = .object metadata
  user : ∃ row metadata, tables.message identity.userMessageId = some row ∧
    row.chatId = identity.chatId ∧ row.role = .user ∧ row.metadata = .object metadata
  assistant : ∃ row metadata, tables.message identity.assistantMessageId = some row ∧
    row.chatId = identity.chatId ∧ row.role = .assistant ∧
    row.sequence = identity.assistantSequence ∧ row.metadata = .object metadata

theorem Json.asObject_isSome {value : Json} :
    value.asObject.isSome = true ↔ ∃ fields, value = .object fields := by
  cases value <;> simp [Json.asObject]

section Rows

variable {before after tables : ChatTables} {identity : RunIdentity} {chatId : ChatId}
  {messageIds : List MessageId}

/-- Rows that a run is about stay what they are. -/
theorem RunRows.stays (rows : RunRows before identity)
    (within : WritesWithin before after chatId messageIds) : RunRows after identity := by
  obtain ⟨chat, chatMetadata, chatFound, chatObject⟩ := rows.chat
  obtain ⟨user, userMetadata, userFound, userChat, userRole, userObject⟩ := rows.user
  obtain ⟨assistant, metadata, found, inChat, role, sequence, object⟩ := rows.assistant
  refine ⟨?_, ?_, ?_⟩
  · obtain ⟨row, rowFound, stays⟩ := within.chatStays _ _ chatFound
    obtain ⟨fields, same⟩ := Json.asObject_isSome.mp (stays (by rw [chatObject]; rfl))
    exact ⟨row, fields, rowFound, same⟩
  · obtain ⟨row, rowFound, chatSame, roleSame, -, stays⟩ := within.messageStays _ _ userFound
    obtain ⟨fields, same⟩ := Json.asObject_isSome.mp (stays (by rw [userObject]; rfl))
    exact ⟨row, fields, rowFound, chatSame.trans userChat, roleSame.trans userRole, same⟩
  · obtain ⟨row, rowFound, chatSame, roleSame, sequenceSame, stays⟩ :=
      within.messageStays _ _ found
    obtain ⟨fields, same⟩ := Json.asObject_isSome.mp (stays (by rw [object]; rfl))
    exact ⟨row, fields, rowFound, chatSame.trans inChat, roleSame.trans role,
      sequenceSame.trans sequence, same⟩

/-- A user message is no assistant message. -/
theorem RunRows.user_ne_assistant {other : RunIdentity} (rows : RunRows tables identity)
    (others : RunRows tables other) : identity.userMessageId ≠ other.assistantMessageId := by
  intro same
  obtain ⟨user, _, userFound, -, userRole, -⟩ := rows.user
  obtain ⟨assistant, _, found, -, role, -⟩ := others.assistant
  rw [same, found] at userFound
  cases userFound
  rw [role] at userRole
  cases userRole

/-- The copies of a run stay where neither its chat nor its user message is written. -/
theorem RunStored.stays {claimedBy : Option RunId} {owned : Bool}
    (stored : RunStored before identity claimedBy owned)
    (within : WritesWithin before after chatId messageIds) (chat : identity.chatId ≠ chatId)
    (message : identity.userMessageId ∉ messageIds) :
    RunStored after identity claimedBy owned := by
  constructor
  · rw [within.chatSlot chat]
    exact stored.slot
  · rw [within.messageMarker message]
    exact stored.marker

theorem chatSlot_of_chat {row : Chat} {metadata : JsonMap} {id : ChatId}
    (found : tables.chat id = some row) (object : row.metadata = .object metadata) :
    chatSlot tables id = metadata.get queuedRunKey := by
  rw [chatSlot, found, Option.bind_some, object]
  rfl

theorem messageMarker_of_message {row : Message} {metadata : JsonMap} {id : MessageId}
    (found : tables.message id = some row) (object : row.metadata = .object metadata) :
    messageMarker tables id = metadata.get queuedRunKey := by
  rw [messageMarker, found, Option.bind_some, object]
  rfl

end Rows

/-! ## Claiming -/

section Claim

variable {identity : RunIdentity} {runId : RunId} {store store' : ChatStore}

theorem claimParties_of_rows {tables : ChatTables} (rows : RunRows tables identity) :
    ∃ chat user chatMetadata userMetadata, claimParties identity tables = .ok (chat, user) ∧
      tables.chat identity.chatId = some chat ∧ chat.metadata = .object chatMetadata ∧
      tables.message identity.userMessageId = some user ∧ user.metadata = .object userMetadata ∧
      user.chatId = identity.chatId := by
  obtain ⟨chat, chatMetadata, chatFound, chatObject⟩ := rows.chat
  obtain ⟨user, userMetadata, userFound, userChat, userRole, userObject⟩ := rows.user
  obtain ⟨assistant, _, found, inChat, role, sequence, -⟩ := rows.assistant
  refine ⟨chat, user, chatMetadata, userMetadata, ?_, chatFound, chatObject, userFound,
    userObject, userChat⟩
  simp [claimParties, chatFound, userFound, userChat, userRole, found, inChat, role, sequence]

/-- What a claim reads of a run whose rows are there: nothing, or both copies. -/
theorem claimCopies_of_rows {chat : Chat} {user : Message} {chatMetadata userMetadata : JsonMap}
    {copies : RunCopies} (chatObject : chat.metadata = .object chatMetadata)
    (userObject : user.metadata = .object userMetadata) :
    claimCopies chat user = .ok copies ↔
      chatMetadata.get queuedRunKey = some (.object copies.chatRun) ∧
      userMetadata.get queuedRunKey = some (.object copies.userRun) ∧
      copies.chatMetadata = chatMetadata ∧ copies.userMetadata = userMetadata := by
  have run : ∀ owner metadata run, queuedRunOf owner metadata = .ok run ↔
      metadata.get queuedRunKey = some (.object run) := by
    intro owner metadata run
    unfold queuedRunOf
    cases found : metadata.get queuedRunKey with
    | none => simp
    | some value => cases value <;> simp [Json.asObject]
  simp only [claimCopies, parseJsonObject, chatObject, userObject, Json.asObject, bind_eq_ok,
    Except.ok.injEq, exists_eq_left', run, pure_eq_ok]
  constructor
  · rintro ⟨chatRun, chatFound, userRun, userFound, rfl⟩
    exact ⟨chatFound, userFound, rfl, rfl⟩
  · rintro ⟨chatFound, userFound, rfl, rfl⟩
    exact ⟨_, chatFound, _, userFound, rfl⟩

/-- The copies of a claim in the store. -/
structure CopiesIn (tables : ChatTables) (identity : RunIdentity) (copies : RunCopies) : Prop where
  slot : chatSlot tables identity.chatId = some (.object copies.chatRun)
  marker : messageMarker tables identity.userMessageId = some (.object copies.userRun)

/-- A claim on rows that are there decides on the copies, and writes both or none. -/
theorem claim_spec (rows : RunRows store.toChatTables identity)
    {outcome : AgentQueuedRunClaimOutcome}
    (h : claimAgentChatQueuedRun identity runId store = .ok (store', outcome)) :
    ∃ copies, CopiesIn store.toChatTables identity copies ∧
      claimOutcome copies identity runId
        (activeAgentTaskMatchesQueuedRun store.agents.toAgentTables identity) = .ok outcome ∧
      (outcome = .alreadyOwned ∧ store' = store ∨
        outcome = .claimed ∧
        WritesWithin store.toChatTables store'.toChatTables identity.chatId
          [identity.userMessageId] ∧
        CopiesIn store'.toChatTables identity { copies with
          chatRun := claimedRun identity runId copies.chatRun
          userRun := claimedRun identity runId copies.userRun }) := by
  obtain ⟨chat, user, chatMetadata, userMetadata, parties, chatFound, chatObject, userFound,
    userObject, userChat⟩ := claimParties_of_rows rows
  obtain ⟨_, parties', h⟩ := bind_eq_ok.mp h
  cases parties.symm.trans parties'
  obtain ⟨copies, read, h⟩ := bind_eq_ok.mp h
  obtain ⟨chatRun, userRun, rfl, rfl⟩ := (claimCopies_of_rows chatObject userObject).mp read
  obtain ⟨decided, decide', h⟩ := bind_eq_ok.mp h
  refine ⟨copies, ⟨?_, ?_⟩, ?_⟩
  · rw [chatSlot_of_chat chatFound chatObject, chatRun]
  · rw [messageMarker_of_message userFound userObject, userRun]
  cases decided with
  | alreadyOwned =>
    cases h
    exact ⟨decide', .inl ⟨rfl, rfl⟩⟩
  | claimed =>
    obtain ⟨middle, writeChat, h⟩ := bind_eq_ok.mp h
    obtain ⟨last, writeUser, done⟩ := bind_eq_ok.mp h
    cases done
    obtain ⟨slot, messages, within⟩ := setChatMetadata_spec chatFound writeChat
    obtain ⟨message, chats, within'⟩ :=
      updateMessage_spec (.setMetadata identity.chatId _) writeUser
    refine ⟨decide', .inr ⟨rfl, (within _).trans (within' _), ?_, ?_⟩⟩
    · rw [chatSlot, ChatTables.chat, chats]
      exact slot.trans (JsonMap.get_insert_self ..)
    · have found : middle.toChatTables.message identity.userMessageId = some user := by
        rw [ChatTables.message, messages]
        exact userFound
      rw [messageMarker, message, found]
      simp only [Option.map_some, Option.bind_some, userChat, if_true]
      exact JsonMap.get_insert_self ..

section Decision

variable {copies : RunCopies} {claimedBy : Option RunId} {owned active : Bool}
  {outcome : AgentQueuedRunClaimOutcome}

theorem IsCopy.matches' {run : JsonMap} {allowMissing : Bool}
    (copy : IsCopy identity claimedBy owned run)
    (named : runUserMessageId run = some identity.userMessageId ∨ allowMissing = true) :
    queuedRunMatchesAgentIdentity run identity allowMissing = true := by
  simp only [queuedRunMatchesAgentIdentity, copy.assistantMessageId, copy.assistantSequence,
    decide_true, Option.all_some, Bool.and_true]
  rcases copy.userMessageId with there | ⟨missing, -⟩
  · simp [there]
  · rcases named with there | allowed
    · simp [there]
    · simp [missing, allowed]

/-- Copies that wait can be claimed by their task. -/
theorem claimOutcome_waiting (chat : IsCopy identity none owned copies.chatRun)
    (named : runUserMessageId copies.chatRun = some identity.userMessageId)
    (user : IsCopy identity none owned copies.userRun) :
    claimOutcome copies identity runId true = .ok .claimed := by
  have owner : ownerMatches copies identity.agentTaskId = true ∨ legacyOwner copies = true := by
    cases owned with
    | true => simp [ownerMatches, chat.agentTaskId, user.agentTaskId]
    | false => simp [legacyOwner, chat.agentTaskId, user.agentTaskId]
  have waiting : claimableOutcome copies identity.agentTaskId runId = some .claimed := by
    simp [claimableOutcome, bothHaveStatus, chat.status, user.status]
  rw [claimOutcome, chat.matches' (.inl named), user.matches' (.inr rfl), waiting]
  rcases owner with owner | owner <;> simp [owner]

/-- Copies that a run id has claimed are only found to be claimed. -/
theorem claimOutcome_running {other : RunId}
    (chat : IsCopy identity (some other) true copies.chatRun)
    (user : IsCopy identity (some other) true copies.userRun)
    (h : claimOutcome copies identity runId active = .ok outcome) : outcome = .alreadyOwned := by
  have present : ∀ {run : JsonMap}, runText "runId" run = some other →
      (run.get "runId").isNone = false := by
    intro run there
    cases value : run.get "runId" with
    | none => simp [runText, value] at there
    | some _ => rfl
  have legacy : legacyOwner copies = false := by simp [legacyOwner, chat.agentTaskId]
  unfold claimOutcome at h
  split at h
  · cases h
  split at h
  · cases h
  have apart : text "running" ≠ text "queued" := by decide
  simp only [claimableOutcome, bothHaveStatus, chat.status, user.status, chat.runId, user.runId,
    present chat.runId, legacy, Option.isSome_some, if_true, Option.some.injEq, apart,
    decide_false, Bool.and_self, Bool.and_false, Bool.false_eq_true, if_false, decide_true] at h
  by_cases same : other = runId
  · simp only [same, and_self, if_true] at h
    cases h
    rfl
  · simp only [same, and_self, if_false] at h
    cases h

end Decision

theorem asI64_of_runAssistantSequence {run : JsonMap} {sequence : Int}
    (h : runAssistantSequence run = some sequence) :
    Json.asI64 (.number (.integer sequence)) = some sequence := by
  obtain ⟨value, -, integer⟩ := Option.bind_eq_some_iff.mp h
  unfold Json.asI64 at integer
  split at integer
  · rename_i found
    split at integer
    · rename_i bounded
      cases integer
      exact if_pos bounded
    · cases integer
  · cases integer

/-- A claim makes both copies say that its run id has claimed the run. -/
theorem claimedRun_isCopy {run : JsonMap}
    (sequence : Json.asI64 (.number (.integer identity.assistantSequence)) =
      some identity.assistantSequence) :
    IsCopy identity (some runId) true (claimedRun identity runId run) ∧
    runUserMessageId (claimedRun identity runId run) = some identity.userMessageId := by
  have user : runUserMessageId (claimedRun identity runId run) = some identity.userMessageId := by
    simp [runUserMessageId, getEither, claimedRun, JsonMap.get_insert_ne, Json.asStr]
  refine ⟨⟨?_, .inl user, ?_, ?_, ?_, ?_⟩, user⟩
  · simp [runText, claimedRun, JsonMap.get_insert_ne, Json.asStr]
  · simp [runAssistantMessageId, getEither, claimedRun, JsonMap.get_insert_ne, Json.asStr]
  · simp [runAssistantSequence, getEither, claimedRun, JsonMap.get_insert_ne, sequence]
  · simp [runText, claimedRun, JsonMap.get_insert_ne, Json.asStr]
  · simp [runText, claimedRun, Json.asStr]

/-- A run that waits is claimed when its task asks. -/
theorem claim_waiting {owned : Bool} (rows : RunRows store.toChatTables identity)
    (stored : RunStored store.toChatTables identity none owned)
    (active : activeAgentTaskMatchesQueuedRun store.agents.toAgentTables identity = true) :
    ∃ store', claimAgentChatQueuedRun identity runId store = .ok (store', .claimed) := by
  obtain ⟨chat, user, chatMetadata, userMetadata, parties, chatFound, chatObject, userFound,
    userObject, -⟩ := claimParties_of_rows rows
  obtain ⟨chatRun, slot, chatCopy, named⟩ := stored.slot
  obtain ⟨userRun, marker, userCopy⟩ := stored.marker
  rw [chatSlot_of_chat chatFound chatObject] at slot
  rw [messageMarker_of_message userFound userObject] at marker
  let copies : RunCopies := { chatMetadata, userMetadata, chatRun, userRun }
  have read : claimCopies chat user = .ok copies :=
    (claimCopies_of_rows chatObject userObject).mpr ⟨slot, marker, rfl, rfl⟩
  have decided : claimOutcome copies identity runId true = .ok .claimed :=
    claimOutcome_waiting chatCopy named userCopy
  obtain ⟨middle, writeChat⟩ := setChatMetadata_ok store identity.chatId
    (JsonMap.insert queuedRunKey (.object (claimedRun identity runId chatRun)) chatMetadata)
  obtain ⟨last, writeUser⟩ := updateMessage_ok middle identity.userMessageId
    (.setMetadata identity.chatId
      (JsonMap.insert queuedRunKey (.object (claimedRun identity runId userRun)) userMetadata))
  refine ⟨last, bind_eq_ok.mpr ⟨_, parties, bind_eq_ok.mpr ⟨copies, read,
    bind_eq_ok.mpr ⟨.claimed, ?_, bind_eq_ok.mpr ⟨middle, writeChat,
      bind_eq_ok.mpr ⟨last, writeUser, rfl⟩⟩⟩⟩⟩⟩
  rw [active]
  exact decided

end Claim

/-! ## Clearing -/

section Clear

variable {identity : RunIdentity} {store : ChatStore}

/-- A copy that the run id has claimed is the caller's. -/
theorem IsCopy.isOwnedCopy {runId : RunId} {run : JsonMap}
    (copy : IsCopy identity (some runId) true run) :
    isOwnedCopy identity runId run = true := by
  have names : runUserMessageId run = some identity.userMessageId ∨
      (run.get "userMessageId").isNone = true := by
    rcases copy.userMessageId with there | ⟨-, missing⟩
    · exact .inl there
    · exact .inr (by rw [missing]; rfl)
  have status := copy.status
  simp only [Option.isSome_some, if_true] at status
  simp [AgentRuntime.isOwnedCopy, copy.matches' names, copy.agentTaskId, copy.runId, status]

/-- Clearing, on rows that are there: the copies both go if they are the caller's, and otherwise
nothing changes. -/
theorem clear_spec (runId : RunId) (rows : RunRows store.toChatTables identity) :
    (∃ store' chatRun userRun, clearAgentChatQueuedRunIfOwned identity runId store =
        .ok (store', .cleared) ∧
      chatSlot store.toChatTables identity.chatId = some (.object chatRun) ∧
      isOwnedCopy identity runId chatRun = true ∧
      messageMarker store.toChatTables identity.userMessageId = some (.object userRun) ∧
      isOwnedCopy identity runId userRun = true ∧
      WritesWithin store.toChatTables store'.toChatTables identity.chatId
        [identity.userMessageId] ∧
      chatSlot store'.toChatTables identity.chatId = none ∧
      messageMarker store'.toChatTables identity.userMessageId = none) ∨
    (clearAgentChatQueuedRunIfOwned identity runId store = .ok (store, .notOwned) ∧
      ∀ chatRun userRun,
        chatSlot store.toChatTables identity.chatId = some (.object chatRun) →
        messageMarker store.toChatTables identity.userMessageId = some (.object userRun) →
        ¬ (isOwnedCopy identity runId chatRun = true ∧
          isOwnedCopy identity runId userRun = true)) := by
  obtain ⟨chat, user, chatMetadata, userMetadata, -, chatFound, chatObject, userFound,
    userObject, userChat⟩ := claimParties_of_rows rows
  have slot := chatSlot_of_chat chatFound chatObject
  have marker := messageMarker_of_message userFound userObject
  have owns : ∀ {metadata : JsonMap}, ownsCopy identity runId metadata = true ↔
      ∃ run, metadata.get queuedRunKey = some (.object run) ∧
        isOwnedCopy identity runId run = true := by
    intro metadata
    unfold ownsCopy
    cases metadata.get queuedRunKey with
    | none => simp
    | some value => cases value <;> simp [Json.asObject]
  by_cases both : ownsCopy identity runId chatMetadata = true ∧
      ownsCopy identity runId userMetadata = true
  · left
    obtain ⟨chatRun, chatThere, chatOwned⟩ := owns.mp both.1
    obtain ⟨userRun, userThere, userOwned⟩ := owns.mp both.2
    obtain ⟨middle, writeChat⟩ := setChatMetadata_ok store identity.chatId
      (JsonMap.remove queuedRunKey chatMetadata)
    have keeps := KeepsMessage.setMetadata identity.chatId
      (JsonMap.remove queuedRunKey userMetadata)
    obtain ⟨last, writeUser⟩ := updateMessage_ok middle identity.userMessageId keeps
    obtain ⟨slotAfter, messages, within⟩ := setChatMetadata_spec chatFound writeChat
    obtain ⟨message, chats, within'⟩ := updateMessage_spec keeps writeUser
    refine ⟨last, chatRun, userRun, ?_, slot.trans chatThere, chatOwned,
      marker.trans userThere, userOwned, (within _).trans (within' _), ?_, ?_⟩
    · simp only [clearAgentChatQueuedRunIfOwned, chatFound, userFound, parseJsonObject,
        chatObject, userObject, Json.asObject]
      change (if (!(ownsCopy identity runId chatMetadata &&
        ownsCopy identity runId userMetadata)) = true then _ else _) = _
      rw [both.1, both.2]
      exact bind_eq_ok.mpr ⟨middle, writeChat, bind_eq_ok.mpr ⟨last, writeUser, rfl⟩⟩
    · rw [chatSlot, ChatTables.chat, chats]
      exact slotAfter.trans (JsonMap.get_remove_self ..)
    · have found : middle.toChatTables.message identity.userMessageId = some user := by
        rw [ChatTables.message, messages]
        exact userFound
      rw [messageMarker, message, found]
      simp only [Option.map_some, Option.bind_some, userChat, if_true]
      exact JsonMap.get_remove_self ..
  · right
    constructor
    · have not : (ownsCopy identity runId chatMetadata && ownsCopy identity runId userMetadata) =
          false := by simpa using both
      simp only [clearAgentChatQueuedRunIfOwned, chatFound, userFound, parseJsonObject,
        chatObject, userObject, Json.asObject]
      change (if (!(ownsCopy identity runId chatMetadata &&
        ownsCopy identity runId userMetadata)) = true then _ else _) = _
      rw [not]
      rfl
    · intro chatRun userRun chatThere userThere owned
      exact both ⟨owns.mpr ⟨chatRun, slot.symm.trans chatThere, owned.1⟩,
        owns.mpr ⟨userRun, marker.symm.trans userThere, owned.2⟩⟩

end Clear

/-! ## Closing -/

section Close

variable {identity : RunIdentity} {store store' : ChatStore}

/-- A copy after a closure: it goes if it is the closure's. -/
def closedValue (closes : JsonMap → Bool) (value : Option Json) : Option Json :=
  if (value.bind Json.asObject).any closes then none else value

theorem closeChatRun_spec (rows : RunRows store.toChatTables identity)
    (h : closeChatRun identity store = .ok store') :
    chatSlot store'.toChatTables identity.chatId =
      closedValue (closesChatRun identity) (chatSlot store.toChatTables identity.chatId) ∧
    store'.messages = store.messages ∧
    ∀ messageIds, WritesWithin store.toChatTables store'.toChatTables identity.chatId
      messageIds := by
  obtain ⟨chat, metadata, found, object⟩ := rows.chat
  have slot := chatSlot_of_chat found object
  simp only [closeChatRun, found, object, parseJsonObject, Json.asObject] at h
  change (if ((JsonMap.get queuedRunKey metadata).bind Json.asObject).any (closesChatRun identity)
    then _ else _) = _ at h
  rw [closedValue, slot]
  split at h
  · rename_i closes
    obtain ⟨after, messages, within⟩ := setChatMetadata_spec found h
    rw [if_pos closes, after]
    exact ⟨JsonMap.get_remove_self .., messages, within⟩
  · rename_i keeps
    cases h
    rw [if_neg keeps, slot]
    exact ⟨rfl, rfl, fun _ => .of_eq rfl rfl⟩

theorem closeMessageRun_spec (rows : RunRows store.toChatTables identity)
    (h : closeMessageRun identity store = .ok store') :
    messageMarker store'.toChatTables identity.userMessageId =
      closedValue (closesAssistant identity)
        (messageMarker store.toChatTables identity.userMessageId) ∧
    store'.chats = store.chats ∧
    ∀ chatId, WritesWithin store.toChatTables store'.toChatTables chatId
      [identity.userMessageId] := by
  obtain ⟨message, metadata, found, inChat, -, object⟩ := rows.user
  have marker := messageMarker_of_message found object
  simp only [closeMessageRun, found, object, inChat, ne_eq, not_true_eq_false, if_false,
    parseJsonObject, Json.asObject] at h
  change (if ((JsonMap.get queuedRunKey metadata).bind Json.asObject).any
    (closesAssistant identity) then _ else _) = _ at h
  rw [closedValue, marker]
  split at h
  · rename_i closes
    obtain ⟨after, chats, within⟩ := updateMessage_spec (.setMetadata identity.chatId _) h
    rw [if_pos closes, messageMarker, after, found]
    simp only [Option.map_some, Option.bind_some, inChat, if_true]
    exact ⟨JsonMap.get_remove_self .., chats, within⟩
  · rename_i keeps
    cases h
    rw [if_neg keeps, marker]
    exact ⟨rfl, rfl, fun _ => .of_eq rfl rfl⟩

theorem upsertAssistant_spec {closure : PreStreamChatFailureClosure} {metadata : JsonMap}
    (rows : RunRows store.toChatTables closure.identity)
    (object : closure.assistantMetadata = .object metadata)
    (h : upsertAssistant closure store = .ok store') :
    store'.chats = store.chats ∧ ∀ chatId, WritesWithin store.toChatTables store'.toChatTables
      chatId [closure.identity.assistantMessageId] := by
  obtain ⟨assistant, _, found, -⟩ := rows.assistant
  have there : store.toChatTables.message closure.identity.assistantMessageId =
      some assistant := found
  simp only [upsertAssistant, there] at h
  have keeps : KeepsMessage fun row =>
      if row.chatId = closure.identity.chatId ∧ row.role = .assistant ∧
          row.sequence = closure.identity.assistantSequence then
        { row with content := closure.assistantContent, metadata := closure.assistantMetadata }
      else row :=
    { id := fun row => by split <;> rfl
      chatId := fun row => by split <;> rfl
      role := fun row => by split <;> rfl
      sequence := fun row => by split <;> rfl
      object := fun row was => by
        split
        · rw [object]
          rfl
        · exact was }
  obtain ⟨-, chats, within⟩ := updateMessage_spec keeps h
  exact ⟨chats, within⟩

/-- A closure that is applied takes what is the closure's of either copy. -/
theorem close_spec {closure : PreStreamChatFailureClosure} {now : Timestamp} {applied : Bool}
    (rows : RunRows store.toChatTables closure.identity)
    (materializes : closure.materializeAssistant = true)
    (h : closePreStreamChatRun closure now store = .ok (store', applied)) :
    applied = false ∧ store' = store ∨
    applied = true ∧
      WritesWithin store.toChatTables store'.toChatTables closure.identity.chatId
        [closure.identity.userMessageId, closure.identity.assistantMessageId] ∧
      chatSlot store'.toChatTables closure.identity.chatId =
        closedValue (closesChatRun closure.identity)
          (chatSlot store.toChatTables closure.identity.chatId) ∧
      messageMarker store'.toChatTables closure.identity.userMessageId =
        closedValue (closesAssistant closure.identity)
          (messageMarker store.toChatTables closure.identity.userMessageId) := by
  obtain ⟨metadata, parsed, h⟩ := bind_eq_ok.mp h
  have object : closure.assistantMetadata = .object metadata := by
    unfold parseJsonObject at parsed
    cases value : closure.assistantMetadata <;> rw [value] at parsed <;> cases parsed
    rfl
  split at h
  · cases h
    exact .inl ⟨rfl, rfl⟩
  obtain ⟨expected, -, h⟩ := bind_eq_ok.mp h
  split at h
  · cases h
    exact .inl ⟨rfl, rfl⟩
  obtain ⟨⟨agents, _⟩, -, h⟩ := bind_eq_ok.mp h
  obtain ⟨first, writeAgents, h⟩ := bind_eq_ok.mp h
  obtain ⟨last, materialized, h⟩ := bind_eq_ok.mp h
  have done : applied = true ∧ store' = last := by
    split at h
    · cases h
      exact ⟨rfl, rfl⟩
    · cases h
  obtain ⟨rfl, rfl⟩ := done
  rw [materializeClosure, materializes] at materialized
  obtain ⟨canWrite, -, materialized⟩ := bind_eq_ok.mp materialized
  obtain ⟨second, writeAssistant, materialized⟩ : ∃ second,
      (if canWrite = true then upsertAssistant closure first else .ok first) = .ok second ∧
      (closeChatRun closure.identity second >>= closeMessageRun closure.identity) =
        .ok store' := by
    cases canWrite with
    | true => exact bind_eq_ok.mp materialized
    | false => exact bind_eq_ok.mp materialized
  obtain ⟨third, writeChat, writeUser⟩ := bind_eq_ok.mp materialized
  have sameChats := (setAgents_tables writeAgents).1
  have rowsFirst := rows.stays (setAgents_within writeAgents closure.identity.chatId [])
  have assistant : second.chats = first.chats ∧ WritesWithin first.toChatTables
      second.toChatTables closure.identity.chatId [closure.identity.assistantMessageId] := by
    split at writeAssistant
    · obtain ⟨chats, within⟩ := upsertAssistant_spec rowsFirst object writeAssistant
      exact ⟨chats, within _⟩
    · cases writeAssistant
      exact ⟨rfl, .of_eq rfl rfl⟩
  have rowsSecond := rowsFirst.stays assistant.2
  obtain ⟨slot, messages, withinChat⟩ := closeChatRun_spec rowsSecond writeChat
  have rowsThird := rowsSecond.stays (withinChat [])
  obtain ⟨marker, chats, withinUser⟩ := closeMessageRun_spec rowsThird writeUser
  have apart := rows.user_ne_assistant rows
  refine .inr ⟨rfl, ?_, ?_, ?_⟩
  · refine ((setAgents_within writeAgents _ _).trans (assistant.2.mono ?_)).trans
      ((withinChat _).trans ((withinUser _).mono ?_))
    · exact fun id mem => List.mem_cons_of_mem _ mem
    · intro id mem
      rw [List.mem_singleton.mp mem]
      exact List.mem_cons_self
  · rw [chatSlot, ChatTables.chat, chats]
    refine slot.trans ?_
    rw [chatSlot, ChatTables.chat, assistant.1, sameChats]
    rfl
  · rw [marker, messageMarker, ChatTables.message, messages]
    congr 1
    refine (assistant.2.messageMarker fun mem => apart (List.mem_singleton.mp mem)).trans ?_
    exact (setAgents_within writeAgents closure.identity.chatId []).messageMarker nofun

end Close

/-! ## Queueing -/

section Queue

variable {queued : QueueCoordinatorChatMessage} {store store' : ChatStore}

theorem validateQueued_spec {run : JsonMap} (h : validateQueued queued = .ok run) :
    queued.chatQueuedRun = .object run ∧ queued.userMessage.chatId = queued.chatId ∧
      queued.userMessage.role = .user := by
  unfold validateQueued at h
  split at h
  · cases h
  split at h
  · cases h
  rename_i own
  simp only [not_or, not_not] at own
  split at h
  · cases h
  split at h
  · cases h
  rename_i run' object
  obtain ⟨_, -, h⟩ := bind_eq_ok.mp h
  split at h
  · cases h
  cases h
  refine ⟨?_, own⟩
  cases value : queued.chatQueuedRun <;> rw [value] at object <;> cases object
  rfl

theorem insertNewChat_spec (h : insertNewChat queued store = .ok store') :
    store'.messages = store.messages ∧
      WritesWithin store.toChatTables store'.toChatTables queued.chatId [] := by
  unfold insertNewChat at h
  split at h
  · refine ⟨?_, (insertChat_spec h).2.2 []⟩
    rw [ChatTables.write_eq_ok.mp h]
  · cases h
    exact ⟨rfl, .of_eq rfl rfl⟩

theorem insertNewTeam_tables (h : insertNewTeam queued store = .ok store') :
    store'.chats = store.chats ∧ store'.messages = store.messages := by
  unfold insertNewTeam at h
  split at h
  · cases h
    exact ⟨rfl, rfl⟩
  split at h
  · cases h
  obtain ⟨_, -, h⟩ := bind_eq_ok.mp h
  exact setAgents_tables h

theorem publishQueuedRun_spec {chatId : ChatId} {run : Json}
    (h : publishQueuedRun chatId run store = .ok store') :
    chatSlot store'.toChatTables chatId = some run ∧ store'.messages = store.messages ∧
    (∃ row metadata, store'.toChatTables.chat chatId = some row ∧
      row.metadata = .object metadata) ∧
    ∀ messageIds, WritesWithin store.toChatTables store'.toChatTables chatId messageIds := by
  unfold publishQueuedRun at h
  cases found : store.toChatTables.chat chatId with
  | none =>
    rw [found] at h
    cases h
  | some chat =>
    rw [found] at h
    obtain ⟨metadata, parsed, write⟩ := bind_eq_ok.mp h
    obtain ⟨slot, messages, within⟩ := setChatMetadata_spec found write
    refine ⟨slot.trans (JsonMap.get_insert_self ..), messages, ?_, within⟩
    have object : chat.metadata.asObject.isSome = true := by
      unfold parseJsonObject at parsed
      split at parsed
      · rename_i object
        rw [object]
        rfl
      · cases parsed
    obtain ⟨row, rowFound, stays⟩ := (within []).chatStays _ _ found
    obtain ⟨fields, same⟩ := Json.asObject_isSome.mp (stays object)
    exact ⟨row, fields, rowFound, same⟩

/-- A queued message: its rows are new, its chat holds the copy that was sent along. -/
theorem queue_spec {now : Timestamp} {run : JsonMap} {assistantId : MessageId} {sequence : Int}
    (document : queued.chatQueuedRun = .object run)
    (named : ((runAssistantMessageId run).map trim).filter (fun id => !id.isEmpty) =
      some assistantId)
    (placed : runAssistantSequence run = some sequence)
    (h : queueCoordinatorChatMessage queued now store = .ok (store', ())) :
    queued.userMessage.chatId = queued.chatId ∧ queued.userMessage.role = .user ∧
    store.toChatTables.message queued.userMessage.id = none ∧
    store'.toChatTables.message queued.userMessage.id = some queued.userMessage.row ∧
    store.toChatTables.message assistantId = none ∧
    store'.toChatTables.message assistantId =
      some (assistantPlaceholder queued.chatId assistantId sequence) ∧
    (∃ row metadata, store'.toChatTables.chat queued.chatId = some row ∧
      row.metadata = .object metadata) ∧
    chatSlot store'.toChatTables queued.chatId = some (.object run) ∧
    WritesWithin store.toChatTables store'.toChatTables queued.chatId
      [queued.userMessage.id, assistantId] := by
  obtain ⟨run', validated, h⟩ := bind_eq_ok.mp h
  obtain ⟨first, writeChat, h⟩ := bind_eq_ok.mp h
  obtain ⟨second, writeTeam, h⟩ := bind_eq_ok.mp h
  obtain ⟨agents, -, h⟩ := bind_eq_ok.mp h
  obtain ⟨third, writeAgents, h⟩ := bind_eq_ok.mp h
  obtain ⟨fourth, writeUser, h⟩ := bind_eq_ok.mp h
  obtain ⟨fifth, writeAssistant, h⟩ := bind_eq_ok.mp h
  obtain ⟨last, publish, h⟩ := bind_eq_ok.mp h
  have done : store' = last := by
    split at h
    · cases h
      rfl
    · cases h
  subst done
  obtain ⟨object, inChat, role⟩ := validateQueued_spec validated
  cases document.symm.trans object
  have assistantRow : fourth.insertMessage (assistantPlaceholder queued.chatId assistantId
      sequence) = .ok fifth := by
    simp only [insertAssistant, named, placed] at writeAssistant
    split at writeAssistant
    · cases writeAssistant
    · exact writeAssistant
  obtain ⟨messagesFirst, withinChat⟩ := insertNewChat_spec writeChat
  obtain ⟨chatsSecond, messagesSecond⟩ := insertNewTeam_tables writeTeam
  obtain ⟨chatsThird, messagesThird⟩ := setAgents_tables writeAgents
  obtain ⟨userFound, userFresh, -, withinUser⟩ := insertMessage_spec writeUser
  obtain ⟨assistantFound, assistantFresh, -, withinAssistant⟩ := insertMessage_spec assistantRow
  obtain ⟨slot, messagesLast, chat, withinPublish⟩ := publishQueuedRun_spec publish
  have messagesStart : third.messages = store.messages :=
    (messagesThird.trans messagesSecond).trans messagesFirst
  have start : ∀ id, store.toChatTables.message id = third.toChatTables.message id := by
    intro id
    rw [ChatTables.message, ChatTables.message, messagesStart]
  have final : ∀ id, store'.toChatTables.message id = fifth.toChatTables.message id := by
    intro id
    rw [ChatTables.message, ChatTables.message, messagesLast]
  have apart : queued.userMessage.row.id ≠ assistantId := by
    intro same
    rw [same] at userFound
    cases assistantFresh.symm.trans userFound
  refine ⟨inChat, role, (start _).trans userFresh, ?_, ?_, (final _).trans assistantFound, chat,
    slot, ?_⟩
  · rw [final]
    refine Eq.trans ?_ userFound
    exact (withinAssistant queued.chatId).messages _ fun mem => apart (List.mem_singleton.mp mem)
  · rw [start, ← (withinUser queued.chatId).messages assistantId]
    · exact assistantFresh
    · exact fun mem => apart (List.mem_singleton.mp mem).symm
  · have toThird : WritesWithin store.toChatTables third.toChatTables queued.chatId
        [queued.userMessage.id, assistantId] :=
      (withinChat.mono nofun).trans (.of_eq (chatsThird.trans chatsSecond)
        (messagesThird.trans messagesSecond))
    refine (toThird.trans ((withinUser _).mono ?_)).trans
      (((withinAssistant _).mono ?_).trans (withinPublish _))
    · intro id mem
      rw [List.mem_singleton.mp mem]
      exact List.mem_cons_self
    · exact fun id mem => List.mem_cons_of_mem _ mem

end Queue

end Foco.AgentRuntime
