import Foco.QueuedRunCopies
import Foco.AgentAttempts

/-!
Coordinators that queue messages, claim their runs, clear and close them, in any order. A chat
has one place for a queued run and as many user messages as were queued, and queueing overwrites
the chat's copy. As long as a message is queued only into a chat whose place is free, both
copies of every run agree until the run ends: its task can claim it when its turn comes, and
nobody else touches them.
-/
namespace Foco.AgentRuntime
open Foco.RustText Foco.AgentDomain Foco.Table Foco.Runs Foco.Result

/-! ## Documents -/

/-- The fields of a queued run that identify it and say where it stands. -/
def identityKeys : List String :=
  ["status", "userMessageId", "user_message_id", "assistantMessageId", "assistant_message_id",
    "assistantSequence", "assistant_sequence", "agentTaskId", "runId"]

/-- What a queued run says besides: the model, the thinking level, the skills and so on. -/
structure RunSettings where
  fields : JsonMap
  plain : ∀ field ∈ fields, field.1 ∉ identityKeys

/-- A copy of a queued run as the callers of `queue_coordinator_chat_message` build it. -/
def queuedDocument (identity : RunIdentity) (namesMessage namesTask : Bool)
    (settings : RunSettings) : JsonMap :=
  [("status", .string (text "queued")),
    ("assistantMessageId", .string identity.assistantMessageId),
    ("assistantSequence", .number (.integer identity.assistantSequence))] ++
  (if namesMessage then [("userMessageId", .string identity.userMessageId)] else []) ++
  (if namesTask then [("agentTaskId", .string (taskIdText identity.agentTaskId))] else []) ++
  settings.fields

/-- A call of `queue_coordinator_chat_message`: `msg-assistant-…` is a new id, the sequence an
`i64`, and the copy of the user message names that message only when it is queued remotely. -/
structure QueueCall where
  identity : RunIdentity
  trimmed : trim identity.assistantMessageId = identity.assistantMessageId
  named : identity.assistantMessageId ≠ []
  bounded : Json.asI64 (.number (.integer identity.assistantSequence)) =
    some identity.assistantSequence
  namesMessage : Bool
  namesTask : Bool
  chatSettings : RunSettings
  messageSettings : RunSettings
  userMetadata : JsonMap
  content : Text
  userSequence : Int
  newChatTitle : Option Text
  newChatMetadata : Option Json
  newTeam : Option NewAgentTeam
  teamId : AgentTeamId
  ownerInstanceId : AgentInstanceId
  inputJson : Json
  maxTeamQueued : Int
  maxInstanceQueued : Int
  maxChatQueued : Int
  accepted : Bool

/-- The argument of the call. -/
def QueueCall.queued (call : QueueCall) : QueueCoordinatorChatMessage :=
  { chatId := call.identity.chatId
    newChatTitle := call.newChatTitle
    newChatMetadata := call.newChatMetadata
    userMessage := {
      id := call.identity.userMessageId, chatId := call.identity.chatId, role := .user,
      content := call.content, sequence := call.userSequence,
      metadata := some (.object (call.userMetadata.insert queuedRunKey (.object
        (queuedDocument call.identity call.namesMessage call.namesTask call.messageSettings)))) }
    chatQueuedRun := .object (queuedDocument call.identity true call.namesTask call.chatSettings)
    newTeam := call.newTeam
    task := {
      id := call.identity.agentTaskId, teamId := call.teamId,
      ownerInstanceId := call.ownerInstanceId, originInstanceId := none, parentTaskId := none,
      inputJson := call.inputJson }
    maxTeamQueued := call.maxTeamQueued
    maxInstanceQueued := call.maxInstanceQueued
    maxChatQueued := call.maxChatQueued
    accepted := call.accepted }

theorem RunSettings.find?_eq_none (settings : RunSettings) {key : String}
    (mem : key ∈ identityKeys) :
    settings.fields.find? (fun field => field.1 == key) = none := by
  rw [List.find?_eq_none]
  intro field fieldMem same
  exact settings.plain field fieldMem (beq_iff_eq.mp same ▸ mem)

section Document

variable {identity : RunIdentity} {namesMessage namesTask : Bool} {settings : RunSettings}

theorem queuedDocument_userMessageId :
    runUserMessageId (queuedDocument identity namesMessage namesTask settings) =
      (if namesMessage then some identity.userMessageId else none) ∧
    (namesMessage = false → JsonMap.get "userMessageId"
      (queuedDocument identity namesMessage namesTask settings) = none) := by
  have plain := settings.find?_eq_none (by decide : "userMessageId" ∈ identityKeys)
  have plain' := settings.find?_eq_none (by decide : "user_message_id" ∈ identityKeys)
  cases namesMessage <;> cases namesTask <;>
    simp [runUserMessageId, getEither, queuedDocument, JsonMap.get, Json.get, Json.asStr, plain,
      plain']

/-- A document as it is queued is a copy of a run that waits. -/
theorem queuedDocument_isCopy
    (bounded : Json.asI64 (.number (.integer identity.assistantSequence)) =
      some identity.assistantSequence) :
    IsCopy identity none namesTask (queuedDocument identity namesMessage namesTask settings) where
  status := by simp [queuedDocument, runText, JsonMap.get, Json.get, Json.asStr]
  userMessageId := by
    have named := @queuedDocument_userMessageId identity namesMessage namesTask settings
    cases namesMessage with
    | true => exact .inl named.1
    | false => exact .inr ⟨named.1, named.2 rfl⟩
  assistantMessageId := by
    simp [queuedDocument, runAssistantMessageId, getEither, JsonMap.get, Json.get, Json.asStr]
  assistantSequence := by
    simp [queuedDocument, runAssistantSequence, getEither, JsonMap.get, Json.get, bounded]
  agentTaskId := by
    have plain := settings.find?_eq_none (by decide : "agentTaskId" ∈ identityKeys)
    cases namesMessage <;> cases namesTask <;>
      simp [queuedDocument, runText, JsonMap.get, Json.get, Json.asStr, plain]
  runId := by
    have plain := settings.find?_eq_none (by decide : "runId" ∈ identityKeys)
    cases namesMessage <;> cases namesTask <;>
      simp [queuedDocument, runText, JsonMap.get, Json.get, plain]

end Document

/-! ## Runs -/

/-- A call, or a step of the agent runtime that writes no chat. -/
inductive QueuedRunAction where
  | queue (call : QueueCall) (now : Timestamp)
  | claim (identity : RunIdentity) (runId : RunId)
  | clear (identity : RunIdentity) (runId : RunId)
  | close (closure : PreStreamChatFailureClosure) (now : Timestamp)
  | agents (action : AgentAction)

/-- The run that an action acts for. -/
def QueuedRunAction.identity : QueuedRunAction → Option RunIdentity
  | .queue call _ => some call.identity
  | .claim identity _ | .clear identity _ => some identity
  | .close closure _ => some closure.identity
  | .agents _ => none

/-- The operation of the agent runtime writes queued runs too. -/
def AgentAction.writesQueuedRuns : AgentAction → Bool
  | .closePreStream .. | .resume .. | .suspendRemotePlan .. => true
  | _ => false

/-- The store, with what has happened to it: the runs that were queued, those that were claimed
and by which run id, and those that were cleared or closed by their own task. -/
structure QueuedRunState where
  store : ChatStore
  queued : List RunIdentity
  claimed : List (RunIdentity × RunId)
  ended : List RunIdentity

/-- The ids of the message and of the task are new. -/
def QueuedRunState.isFresh (state : QueuedRunState) (identity : RunIdentity) : Bool :=
  state.queued.all fun other => decide (other.userMessageId ≠ identity.userMessageId ∧
    other.agentTaskId ≠ identity.agentTaskId)

/-- The run was queued, and neither claimed, cleared nor closed since. -/
def QueuedRunState.Waits (state : QueuedRunState) (identity : RunIdentity) : Prop :=
  (∀ runId, (identity, runId) ∉ state.claimed) ∧ identity ∉ state.ended

/-- The task of the run is the lowest unfinished task of its owner, and its row names the chat
and the messages of the run, as the scheduler reads them from it. -/
def hasTurn (tables : AgentTables) (identity : RunIdentity) : Bool :=
  activeAgentTaskMatchesQueuedRun tables identity &&
  tables.tasks.any fun task =>
    decide (task.id = identity.agentTaskId) && !hasEarlierTask tables task

/-- Callers on one store: a failed call leaves it as it was. A run counts as cleared once its
own task and run id have cleared it, and as closed once a closure for its task was applied. -/
def queuedRunMachine : Machine QueuedRunState QueuedRunAction where
  start := ⟨.empty, [], [], []⟩
  step state
    | .queue call now =>
      if state.isFresh call.identity then
        match queueCoordinatorChatMessage call.queued now state.store with
        | .ok (store, _) => some { state with store, queued := call.identity :: state.queued }
        | .error _ => some state
      else none
    | .claim identity runId =>
      if identity ∈ state.queued ∧ hasTurn state.store.agents.toAgentTables identity = true then
        match claimAgentChatQueuedRun identity runId state.store with
        | .ok (store, .claimed) =>
          some { state with store, claimed := (identity, runId) :: state.claimed }
        | .ok (store, .alreadyOwned) => some { state with store }
        | .error _ => some state
      else none
    | .clear identity runId =>
      if identity ∈ state.queued then
        match clearAgentChatQueuedRunIfOwned identity runId state.store with
        | .ok (store, _) => some { state with
            store
            ended := if (identity, runId) ∈ state.claimed then identity :: state.ended
              else state.ended }
        | .error _ => some state
      else none
    | .close closure now =>
      if closure.identity ∈ state.queued ∧ closure.materializeAssistant = true then
        match closePreStreamChatRun closure now state.store with
        | .ok (store, applied) => some { state with
            store
            ended := if applied then closure.identity :: state.ended else state.ended }
        | .error _ => some state
      else none
    | .agents action =>
      if action.writesQueuedRuns then none
      else
        match action.commit state.store.agents with
        | .error _ => some state
        | .ok agents =>
          match state.store.setAgents agents with
          | .ok store => some { state with store }
          | .error _ => some state

/-! ## What is kept -/

/-- The copy of a queued run names another run: its task or its user message. -/
def NamesRun (run : JsonMap) (identity : RunIdentity) : Prop :=
  runText "agentTaskId" run = some (taskIdText identity.agentTaskId) ∨
    runUserMessageId run = some identity.userMessageId

/-- A step leaves the copies of the runs of other tasks: on their user messages, and in the
chats that name them. -/
structure LeavesOthers (action : QueuedRunAction) (state state' : QueuedRunState) : Prop where
  messages : ∀ other ∈ state.queued,
    (∀ acting ∈ action.identity, other.agentTaskId ≠ acting.agentTaskId) →
    messageMarker state'.store.toChatTables other.userMessageId =
      messageMarker state.store.toChatTables other.userMessageId
  chats : ∀ other ∈ state.queued,
    (∀ acting ∈ action.identity, other.agentTaskId ≠ acting.agentTaskId) →
    ∀ chatId run, chatSlot state.store.toChatTables chatId = some (.object run) →
      NamesRun run other →
      chatSlot state'.store.toChatTables chatId = chatSlot state.store.toChatTables chatId

/-- What holds of queued runs: a run that waits can be claimed when its turn has come, a run
that was cleared or closed has left its user message, and a step that is allowed leaves the
runs of other tasks. -/
structure QueuedRunsKept (allowed : QueuedRunState → QueuedRunAction → Prop)
    (state : QueuedRunState) : Prop where
  claims : ∀ identity ∈ state.queued, state.Waits identity →
    hasTurn state.store.agents.toAgentTables identity = true → ∀ runId, ∃ store',
    claimAgentChatQueuedRun identity runId state.store = .ok (store', .claimed)
  ended : ∀ identity ∈ state.ended,
    messageMarker state.store.toChatTables identity.userMessageId = none
  leaves : ∀ action state', allowed state action →
    queuedRunMachine.step state action = some state' → LeavesOthers action state state'

/-- The two copies of every run agree until it ends, and a chat holds the copy of no other run. -/
structure RunsAgree (state : QueuedRunState) : Prop where
  users : ∀ first ∈ state.queued, ∀ second ∈ state.queued,
    first.userMessageId = second.userMessageId → first = second
  tasks : ∀ first ∈ state.queued, ∀ second ∈ state.queued,
    first.agentTaskId = second.agentTaskId → first = second
  rows : ∀ identity ∈ state.queued, RunRows state.store.toChatTables identity
  waiting : ∀ identity ∈ state.queued, state.Waits identity →
    ∃ owned, RunStored state.store.toChatTables identity none owned
  running : ∀ entry ∈ state.claimed, entry.1 ∉ state.ended →
    RunStored state.store.toChatTables entry.1 (some entry.2) true
  ended : ∀ identity ∈ state.ended,
    messageMarker state.store.toChatTables identity.userMessageId = none
  slots : ∀ chatId value, chatSlot state.store.toChatTables chatId = some value →
    ∃ identity ∈ state.queued, identity.chatId = chatId ∧ identity ∉ state.ended
  claimedQueued : ∀ entry ∈ state.claimed, entry.1 ∈ state.queued
  endedQueued : ∀ identity ∈ state.ended, identity ∈ state.queued

theorem taskIdText_injective : Function.Injective taskIdText := by
  intro first second same
  have parsed := congrArg (Nat.ofDigitChars 10 · 0) same
  simpa [taskIdText] using parsed

namespace RunsAgree

variable {state : QueuedRunState} {identity other : RunIdentity} {chatId : ChatId}

/-- A run that has not ended has both its copies. -/
theorem stored (agree : RunsAgree state) (mem : identity ∈ state.queued)
    (live : identity ∉ state.ended) :
    ∃ claimedBy owned, RunStored state.store.toChatTables identity claimedBy owned := by
  by_cases claimed : ∃ runId, (identity, runId) ∈ state.claimed
  · obtain ⟨runId, entry⟩ := claimed
    exact ⟨some runId, true, agree.running _ entry live⟩
  · obtain ⟨owned, stored⟩ := agree.waiting identity mem
      ⟨fun runId entry => claimed ⟨runId, entry⟩, live⟩
    exact ⟨none, owned, stored⟩

/-- A run whose user message still has its copy has not ended. -/
theorem live_of_marker (agree : RunsAgree state) {value : Json}
    (marker : messageMarker state.store.toChatTables identity.userMessageId = some value) :
    identity ∉ state.ended := by
  intro ended
  rw [agree.ended identity ended] at marker
  cases marker

/-- The chat's copy names the run that holds the place of the chat. -/
theorem eq_of_names (agree : RunsAgree state) (mem : identity ∈ state.queued)
    (otherMem : other ∈ state.queued) (live : other ∉ state.ended) {run : JsonMap}
    (slot : chatSlot state.store.toChatTables other.chatId = some (.object run))
    (names : NamesRun run identity) : identity = other := by
  obtain ⟨claimedBy, owned, stored⟩ := agree.stored otherMem live
  obtain ⟨run', slot', copy, named⟩ := stored.slot
  cases slot.symm.trans slot'
  rcases names with task | user
  · rw [copy.agentTaskId] at task
    split at task
    · exact agree.tasks _ mem _ otherMem
        (taskIdText_injective (Option.some.inj task)).symm
    · cases task
  · exact agree.users _ mem _ otherMem (Option.some.inj (user.symm.trans named))

/-- Two runs that have not ended are in different chats. -/
theorem eq_of_chat (agree : RunsAgree state) (mem : identity ∈ state.queued)
    (live : identity ∉ state.ended) (otherMem : other ∈ state.queued)
    (otherLive : other ∉ state.ended) (same : identity.chatId = other.chatId) :
    identity = other := by
  obtain ⟨_, _, stored⟩ := agree.stored mem live
  obtain ⟨run, slot, -, named⟩ := stored.slot
  rw [same] at slot
  exact agree.eq_of_names mem otherMem otherLive slot (.inr named)

/-- A chat that names a run is the chat of the run, which has not ended. -/
theorem named_live (agree : RunsAgree state) (mem : identity ∈ state.queued) {run : JsonMap}
    (slot : chatSlot state.store.toChatTables chatId = some (.object run))
    (names : NamesRun run identity) :
    identity.chatId = chatId ∧ identity ∉ state.ended ∧
      runUserMessageId run = some identity.userMessageId := by
  obtain ⟨other, otherMem, rfl, live⟩ := agree.slots chatId _ slot
  cases agree.eq_of_names mem otherMem live slot names
  obtain ⟨_, _, stored⟩ := agree.stored otherMem live
  obtain ⟨run', slot', -, named⟩ := stored.slot
  cases slot.symm.trans slot'
  exact ⟨rfl, live, named⟩

end RunsAgree

/-! ## Steps -/

section Queue

variable {state : QueuedRunState} {call : QueueCall} {now : Timestamp} {store' : ChatStore}

/-- A queued message: both its copies are written, and nothing of the runs before it that stands
outside its chat. -/
theorem queue_call_spec
    (h : queueCoordinatorChatMessage call.queued now state.store = .ok (store', ())) :
    WritesWithin state.store.toChatTables store'.toChatTables call.identity.chatId
      [call.identity.userMessageId, call.identity.assistantMessageId] ∧
    state.store.toChatTables.message call.identity.userMessageId = none ∧
    state.store.toChatTables.message call.identity.assistantMessageId = none ∧
    RunRows store'.toChatTables call.identity ∧
    RunStored store'.toChatTables call.identity none call.namesTask := by
  have chatCopy : IsCopy call.identity none call.namesTask
      (queuedDocument call.identity true call.namesTask call.chatSettings) :=
    queuedDocument_isCopy call.bounded
  have userCopy : IsCopy call.identity none call.namesTask (queuedDocument call.identity
      call.namesMessage call.namesTask call.messageSettings) := queuedDocument_isCopy call.bounded
  have assistant : ((runAssistantMessageId (queuedDocument call.identity true call.namesTask
      call.chatSettings)).map trim).filter (fun id => !id.isEmpty) =
        some call.identity.assistantMessageId := by
    rw [chatCopy.assistantMessageId]
    simp [call.trimmed, call.named]
  obtain ⟨-, -, userFresh, userFound, assistantFresh, assistantFound, ⟨chat, metadata, chatFound,
    chatObject⟩, slot, within⟩ := queue_spec rfl assistant chatCopy.assistantSequence h
  refine ⟨within, userFresh, assistantFresh, ⟨⟨chat, metadata, chatFound, chatObject⟩,
    ⟨_, _, userFound, rfl, rfl, rfl⟩, ⟨_, _, assistantFound, rfl, rfl, rfl, rfl⟩⟩,
    ⟨_, slot, chatCopy, queuedDocument_userMessageId.1⟩, ⟨_, ?_, userCopy⟩⟩
  exact (messageMarker_of_message userFound rfl).trans (JsonMap.get_insert_self ..)

variable (agree : RunsAgree state) (fresh : state.isFresh call.identity = true)
  (h : queueCoordinatorChatMessage call.queued now state.store = .ok (store', ()))

include agree h in
/-- The messages of the runs before are not the new ones. -/
theorem queue_away {identity : RunIdentity} (mem : identity ∈ state.queued) :
    identity.userMessageId ∉
      [call.identity.userMessageId, call.identity.assistantMessageId] := by
  obtain ⟨-, userFresh, assistantFresh, -⟩ := queue_call_spec h
  obtain ⟨row, _, found, -⟩ := (agree.rows identity mem).user
  intro among
  rcases List.mem_cons.mp among with same | among
  · rw [same, userFresh] at found
    cases found
  · rw [List.mem_singleton.mp among, assistantFresh] at found
    cases found

include agree fresh h in
theorem queue_agrees (free : chatSlot state.store.toChatTables call.identity.chatId = none) :
    RunsAgree { state with store := store', queued := call.identity :: state.queued } := by
  obtain ⟨within, -, -, rows, stored⟩ := queue_call_spec h
  have apart : ∀ identity ∈ state.queued, identity.userMessageId ≠ call.identity.userMessageId ∧
      identity.agentTaskId ≠ call.identity.agentTaskId := fun identity mem =>
    of_decide_eq_true (List.all_eq_true.mp fresh identity mem)
  have notEnded : call.identity ∉ state.ended := fun ended =>
    (apart _ (agree.endedQueued _ ended)).1 rfl
  have elsewhere : ∀ identity ∈ state.queued, identity ∉ state.ended →
      identity.chatId ≠ call.identity.chatId := by
    intro identity mem live same
    obtain ⟨_, _, stored⟩ := agree.stored mem live
    obtain ⟨run, slot, -⟩ := stored.slot
    rw [same, free] at slot
    cases slot
  refine ⟨?_, ?_, ?_, ?_, ?_, ?_, ?_, ?_, ?_⟩
  · intro first firstMem second secondMem same
    rcases List.mem_cons.mp firstMem with rfl | firstMem <;>
      rcases List.mem_cons.mp secondMem with rfl | secondMem
    · rfl
    · exact absurd same.symm (apart _ secondMem).1
    · exact absurd same (apart _ firstMem).1
    · exact agree.users _ firstMem _ secondMem same
  · intro first firstMem second secondMem same
    rcases List.mem_cons.mp firstMem with rfl | firstMem <;>
      rcases List.mem_cons.mp secondMem with rfl | secondMem
    · rfl
    · exact absurd same.symm (apart _ secondMem).2
    · exact absurd same (apart _ firstMem).2
    · exact agree.tasks _ firstMem _ secondMem same
  · intro identity mem
    rcases List.mem_cons.mp mem with rfl | old
    · exact rows
    · exact (agree.rows identity old).stays within
  · intro identity mem waits
    rcases List.mem_cons.mp mem with rfl | old
    · exact ⟨_, stored⟩
    · obtain ⟨owned, was⟩ := agree.waiting identity old waits
      exact ⟨owned, was.stays within (elsewhere identity old waits.2) (queue_away agree h old)⟩
  · intro entry mem live
    have old := agree.claimedQueued entry mem
    exact (agree.running entry mem live).stays within (elsewhere _ old live)
      (queue_away agree h old)
  · intro identity mem
    rw [within.messageMarker (queue_away agree h (agree.endedQueued _ mem))]
    exact agree.ended identity mem
  · intro chatId value slot
    by_cases same : chatId = call.identity.chatId
    · exact ⟨call.identity, List.mem_cons_self, same.symm, notEnded⟩
    · rw [within.chatSlot same] at slot
      obtain ⟨identity, mem, chat, live⟩ := agree.slots chatId value slot
      exact ⟨identity, List.mem_cons_of_mem _ mem, chat, live⟩
  · exact fun entry mem => List.mem_cons_of_mem _ (agree.claimedQueued entry mem)
  · exact fun identity mem => List.mem_cons_of_mem _ (agree.endedQueued identity mem)

end Queue

/-- What a step for one run leaves: it writes in the chat of that run, to messages that are of no
other run, and if the run has not ended, or the chat holds a run that has not, nothing of
another. -/
theorem leavesOthers_of_within {action : QueuedRunAction} {state state' : QueuedRunState}
    {acting : RunIdentity} {messageIds : List MessageId} (agree : RunsAgree state)
    (acts : action.identity = some acting)
    (within : WritesWithin state.store.toChatTables state'.store.toChatTables acting.chatId
      messageIds)
    (away : ∀ other ∈ state.queued, other ≠ acting → other.userMessageId ∉ messageIds)
    (slot : ∀ other ∈ state.queued, other ≠ acting → other ∉ state.ended →
      other.chatId = acting.chatId → ∀ run,
      chatSlot state.store.toChatTables acting.chatId = some (.object run) →
      runUserMessageId run = some other.userMessageId →
      chatSlot state'.store.toChatTables acting.chatId =
        chatSlot state.store.toChatTables acting.chatId) :
    LeavesOthers action state state' where
  messages other mem apart := by
    refine within.messageMarker (away other mem ?_)
    intro same
    exact apart acting acts (by rw [same])
  chats other mem apart chatId run there names := by
    obtain ⟨chat, live, named⟩ := agree.named_live mem there names
    by_cases same : chatId = acting.chatId
    · subst same
      refine slot other mem ?_ live chat run there named
      intro same
      exact apart acting acts (by rw [same])
    · exact within.chatSlot same

/-- The runs of others are kept by a step for a run that writes in its chat alone, if that run
has not ended. -/
theorem RunStored.stays_of_other {state : QueuedRunState} {store' : ChatStore}
    {acting other : RunIdentity} {messageIds : List MessageId} {claimedBy : Option RunId}
    {owned : Bool} (agree : RunsAgree state) (mem : acting ∈ state.queued)
    (live : acting ∉ state.ended) (otherMem : other ∈ state.queued) (ne : other ≠ acting)
    (otherLive : other ∉ state.ended)
    (within : WritesWithin state.store.toChatTables store'.toChatTables acting.chatId messageIds)
    (away : other.userMessageId ∉ messageIds)
    (stored : RunStored state.store.toChatTables other claimedBy owned) :
    RunStored store'.toChatTables other claimedBy owned :=
  stored.stays within (fun same => ne (agree.eq_of_chat otherMem otherLive mem live same)) away

section Claim

variable {state : QueuedRunState} {identity : RunIdentity} {runId : RunId} {store' : ChatStore}
  (agree : RunsAgree state) (mem : identity ∈ state.queued)

include agree mem in
/-- The message of another run is another message. -/
theorem userMessage_away {other : RunIdentity} (otherMem : other ∈ state.queued)
    (ne : other ≠ identity) : other.userMessageId ∉ [identity.userMessageId] := fun among =>
  ne (agree.users _ otherMem _ mem (List.mem_singleton.mp among))

include agree mem in
/-- A claim that is granted is the first of a run that waits. -/
theorem claim_granted
    (h : claimAgentChatQueuedRun identity runId state.store = .ok (store', .claimed)) :
    state.Waits identity ∧
    WritesWithin state.store.toChatTables store'.toChatTables identity.chatId
      [identity.userMessageId] ∧
    RunStored store'.toChatTables identity (some runId) true := by
  obtain ⟨copies, inStore, decided, ⟨other, -⟩ | ⟨-, within, after⟩⟩ :=
    claim_spec (agree.rows identity mem) h
  · cases other
  have live := agree.live_of_marker inStore.marker
  have waits : state.Waits identity := by
    refine ⟨fun other entry => ?_, live⟩
    obtain ⟨⟨chatRun, slot, chatCopy, -⟩, ⟨userRun, marker, userCopy⟩⟩ :=
      agree.running _ entry live
    cases inStore.slot.symm.trans slot
    cases inStore.marker.symm.trans marker
    cases claimOutcome_running chatCopy userCopy decided
  obtain ⟨owned, ⟨run, slot, copy, -⟩, -⟩ := agree.waiting identity mem waits
  have sequence := asI64_of_runAssistantSequence copy.assistantSequence
  exact ⟨waits, within, ⟨_, after.slot, claimedRun_isCopy sequence⟩,
    ⟨_, after.marker, (claimedRun_isCopy sequence).1⟩⟩

include agree mem in
theorem claim_agrees
    (h : claimAgentChatQueuedRun identity runId state.store = .ok (store', .claimed)) :
    RunsAgree { state with store := store', claimed := (identity, runId) :: state.claimed } := by
  obtain ⟨waits, within, stored⟩ := claim_granted agree mem h
  have away : ∀ other ∈ state.queued, other ≠ identity →
      other.userMessageId ∉ [identity.userMessageId] :=
    fun _ otherMem => userMessage_away agree mem otherMem
  refine ⟨agree.users, agree.tasks, ?_, ?_, ?_, ?_, ?_, ?_, agree.endedQueued⟩
  · exact fun other otherMem => (agree.rows other otherMem).stays within
  · intro other otherMem otherWaits
    have ne : other ≠ identity := by
      rintro rfl
      exact otherWaits.1 runId List.mem_cons_self
    obtain ⟨owned, was⟩ := agree.waiting other otherMem
      ⟨fun claimer entry => otherWaits.1 claimer (List.mem_cons_of_mem _ entry), otherWaits.2⟩
    exact ⟨owned, was.stays_of_other agree mem waits.2 otherMem ne otherWaits.2 within
      (away other otherMem ne)⟩
  · intro entry entryMem live
    rcases List.mem_cons.mp entryMem with rfl | old
    · exact stored
    · have otherMem := agree.claimedQueued entry old
      have ne : entry.1 ≠ identity := by
        intro same
        refine waits.1 entry.2 ?_
        rw [← same]
        exact old
      exact (agree.running entry old live).stays_of_other agree mem waits.2 otherMem ne live
        within (away _ otherMem ne)
  · intro other ended
    have ne : other ≠ identity := by
      rintro rfl
      exact waits.2 ended
    rw [within.messageMarker (away other (agree.endedQueued other ended) ne)]
    exact agree.ended other ended
  · intro chatId value slot
    by_cases same : chatId = identity.chatId
    · exact ⟨identity, mem, same.symm, waits.2⟩
    · rw [within.chatSlot same] at slot
      exact agree.slots chatId value slot
  · intro entry entryMem
    rcases List.mem_cons.mp entryMem with rfl | old
    · exact mem
    · exact agree.claimedQueued entry old

end Claim

section Ending

variable {state : QueuedRunState} {identity : RunIdentity} {store' : ChatStore}
  {messageIds : List MessageId}

/-- A run that ends: its message loses its copy, and its chat too, unless the chat holds another
run that has not ended. -/
theorem end_agrees (agree : RunsAgree state) (mem : identity ∈ state.queued)
    (within : WritesWithin state.store.toChatTables store'.toChatTables identity.chatId messageIds)
    (away : ∀ other ∈ state.queued, other ≠ identity → other.userMessageId ∉ messageIds)
    (marker : messageMarker store'.toChatTables identity.userMessageId = none)
    (live : identity ∉ state.ended → chatSlot store'.toChatTables identity.chatId = none)
    (others : ∀ other ∈ state.queued, other ≠ identity → other ∉ state.ended →
      other.chatId = identity.chatId → chatSlot store'.toChatTables identity.chatId =
        chatSlot state.store.toChatTables identity.chatId)
    (slotFrom : ∀ value, chatSlot store'.toChatTables identity.chatId = some value →
      chatSlot state.store.toChatTables identity.chatId = some value) :
    RunsAgree { state with store := store', ended := identity :: state.ended } := by
  have stays : ∀ {other claimedBy owned}, other ∈ state.queued → other ≠ identity →
      other ∉ state.ended → RunStored state.store.toChatTables other claimedBy owned →
      RunStored store'.toChatTables other claimedBy owned := by
    intro other claimedBy owned otherMem ne otherLive stored
    constructor
    · by_cases same : other.chatId = identity.chatId
      · rw [same, others other otherMem ne otherLive same, ← same]
        exact stored.slot
      · rw [within.chatSlot same]
        exact stored.slot
    · rw [within.messageMarker (away other otherMem ne)]
      exact stored.marker
  refine ⟨agree.users, agree.tasks, ?_, ?_, ?_, ?_, ?_, agree.claimedQueued, ?_⟩
  · exact fun other otherMem => (agree.rows other otherMem).stays within
  · intro other otherMem waits
    obtain ⟨ne, notEnded⟩ := List.ne_and_not_mem_of_not_mem_cons waits.2
    obtain ⟨owned, was⟩ := agree.waiting other otherMem ⟨waits.1, notEnded⟩
    exact ⟨owned, stays otherMem ne notEnded was⟩
  · intro entry entryMem entryLive
    obtain ⟨ne, notEnded⟩ := List.ne_and_not_mem_of_not_mem_cons entryLive
    exact stays (agree.claimedQueued entry entryMem) ne notEnded
      (agree.running entry entryMem notEnded)
  · intro other ended
    by_cases same : other = identity
    · rw [same]
      exact marker
    · have old := (List.mem_cons.mp ended).resolve_left same
      rw [within.messageMarker (away other (agree.endedQueued other old) same)]
      exact agree.ended other old
  · intro chatId value slot
    by_cases same : chatId = identity.chatId
    · subst same
      obtain ⟨other, otherMem, chat, otherLive⟩ := agree.slots _ _ (slotFrom value slot)
      have ne : other ≠ identity := by
        rintro rfl
        rw [live otherLive] at slot
        cases slot
      exact ⟨other, otherMem, chat, List.not_mem_cons_of_ne_of_not_mem ne otherLive⟩
    · rw [within.chatSlot same] at slot
      obtain ⟨other, otherMem, chat, otherLive⟩ := agree.slots chatId value slot
      refine ⟨other, otherMem, chat, List.not_mem_cons_of_ne_of_not_mem ?_ otherLive⟩
      rintro rfl
      exact same chat.symm
  · intro other ended
    rcases List.mem_cons.mp ended with rfl | old
    · exact mem
    · exact agree.endedQueued other old

end Ending

/-- A step that leaves the chats and the messages leaves everything. -/
theorem leavesOthers_of_same {action : QueuedRunAction} {state state' : QueuedRunState}
    (chats : state'.store.chats = state.store.chats)
    (messages : state'.store.messages = state.store.messages) :
    LeavesOthers action state state' := by
  constructor
  · intro other _ _
    rw [messageMarker, ChatTables.message, messages]
    rfl
  · intro other _ _ chatId run _ _
    rw [chatSlot, ChatTables.chat, chats]
    rfl

section Clear

variable {state : QueuedRunState} {identity : RunIdentity} {runId : RunId}

/-- A copy that a run id may clear is that of a run that it has claimed. -/
theorem claimed_of_ownedCopy (agree : RunsAgree state) (mem : identity ∈ state.queued)
    (live : identity ∉ state.ended) {run : JsonMap}
    (slot : chatSlot state.store.toChatTables identity.chatId = some (.object run))
    (owned : isOwnedCopy identity runId run = true) : (identity, runId) ∈ state.claimed := by
  simp only [isOwnedCopy, Bool.and_eq_true, decide_eq_true_eq] at owned
  by_cases claimed : ∃ claimer, (identity, claimer) ∈ state.claimed
  · obtain ⟨claimer, entry⟩ := claimed
    obtain ⟨⟨run', slot', copy, -⟩, -⟩ := agree.running _ entry live
    cases slot.symm.trans slot'
    cases copy.runId.symm.trans owned.1.2
    exact entry
  · obtain ⟨_, ⟨run', slot', copy, -⟩, -⟩ := agree.waiting identity mem
      ⟨fun claimer entry => claimed ⟨claimer, entry⟩, live⟩
    cases slot.symm.trans slot'
    cases copy.runId.symm.trans owned.1.2

/-- Clearing ends the run that the run id has claimed, and leaves all others. -/
theorem clear_step (agree : RunsAgree state) (mem : identity ∈ state.queued)
    {store' : ChatStore} {outcome : AgentQueuedRunClearOutcome}
    (h : clearAgentChatQueuedRunIfOwned identity runId state.store = .ok (store', outcome)) :
    RunsAgree { state with
      store := store'
      ended := if (identity, runId) ∈ state.claimed then identity :: state.ended
        else state.ended } ∧
    ∀ ended, LeavesOthers (.clear identity runId) state { state with store := store', ended } := by
  rcases clear_spec runId (agree.rows identity mem) with
    ⟨cleared, chatRun, userRun, run, slot, chatOwned, marker, -, within, slotAfter, markerAfter⟩ |
    ⟨run, foreign⟩
  · cases h.symm.trans run
    have live := agree.live_of_marker marker
    have alone : ∀ other ∈ state.queued, other ≠ identity → other ∉ state.ended →
        other.chatId ≠ identity.chatId := fun other otherMem ne otherLive same =>
      ne (agree.eq_of_chat otherMem otherLive mem live same)
    constructor
    · rw [if_pos (claimed_of_ownedCopy agree mem live slot chatOwned)]
      refine end_agrees agree mem within (fun _ => userMessage_away agree mem) markerAfter
        (fun _ => slotAfter) ?_ ?_
      · exact fun other otherMem ne otherLive same =>
          absurd same (alone other otherMem ne otherLive)
      · intro value after
        rw [slotAfter] at after
        cases after
    · intro ended
      refine leavesOthers_of_within agree rfl within (fun _ => userMessage_away agree mem) ?_
      exact fun other otherMem ne otherLive same =>
        absurd same (alone other otherMem ne otherLive)
  · cases h.symm.trans run
    refine ⟨?_, fun _ => leavesOthers_of_same rfl rfl⟩
    by_cases claimed : (identity, runId) ∈ state.claimed
    · have ended : identity ∈ state.ended := by
        by_contra live
        obtain ⟨⟨chatRun, slot, chatCopy, -⟩, ⟨userRun, marker, userCopy⟩⟩ :=
          agree.running _ claimed live
        exact foreign _ _ slot marker ⟨chatCopy.isOwnedCopy, userCopy.isOwnedCopy⟩
      rw [if_pos claimed]
      refine end_agrees agree mem (.of_eq rfl rfl) (fun _ _ _ => List.not_mem_nil)
        (agree.ended identity ended) (fun live => absurd ended live) (fun _ _ _ _ _ => rfl)
        fun _ same => same
    · rw [if_neg claimed]
      exact agree

end Clear

section Close

variable {state : QueuedRunState} {closure : PreStreamChatFailureClosure} {now : Timestamp}
  {store' : ChatStore} {applied : Bool}

theorem closedValue_eq_some {closes : JsonMap → Bool} {value : Option Json} {kept : Json}
    (h : closedValue closes value = some kept) : value = some kept := by
  unfold closedValue at h
  split at h
  · cases h
  · exact h

/-- A closure that is applied ends its run, and leaves all others. -/
theorem close_step (agree : RunsAgree state) (mem : closure.identity ∈ state.queued)
    (materializes : closure.materializeAssistant = true)
    (h : closePreStreamChatRun closure now state.store = .ok (store', applied)) :
    RunsAgree { state with
      store := store'
      ended := if applied then closure.identity :: state.ended else state.ended } ∧
    ∀ ended, LeavesOthers (.close closure now) state { state with store := store', ended } := by
  rcases close_spec (agree.rows _ mem) materializes h with
    ⟨rfl, rfl⟩ | ⟨rfl, within, slotAfter, markerAfter⟩
  · exact ⟨agree, fun _ => leavesOthers_of_same rfl rfl⟩
  have away : ∀ other ∈ state.queued, other ≠ closure.identity → other.userMessageId ∉
      [closure.identity.userMessageId, closure.identity.assistantMessageId] := by
    intro other otherMem ne among
    rcases List.mem_cons.mp among with same | among
    · exact ne (agree.users _ otherMem _ mem same)
    · exact (agree.rows other otherMem).user_ne_assistant (agree.rows _ mem)
        (List.mem_singleton.mp among)
  have keeps : ∀ other ∈ state.queued, other ≠ closure.identity → ∀ run,
      chatSlot state.store.toChatTables closure.identity.chatId = some (.object run) →
      runUserMessageId run = some other.userMessageId →
      chatSlot store'.toChatTables closure.identity.chatId =
        chatSlot state.store.toChatTables closure.identity.chatId := by
    intro other otherMem ne run slot named
    have foreign : ¬ some other.userMessageId = some closure.identity.userMessageId := fun same =>
      ne (agree.users _ otherMem _ mem (Option.some.inj same))
    rw [slotAfter, slot, closedValue, if_neg]
    simp [Json.asObject, closesChatRun, named, foreign]
  constructor
  · rw [if_pos rfl]
    refine end_agrees agree mem within away ?_ ?_ ?_ ?_
    · rw [markerAfter]
      by_cases ended : closure.identity ∈ state.ended
      · rw [agree.ended _ ended]
        rfl
      · obtain ⟨_, _, -, ⟨run, marker, copy⟩⟩ := agree.stored mem ended
        rw [marker, closedValue, if_pos]
        simp [Json.asObject, closesAssistant, copy.assistantMessageId, copy.assistantSequence]
    · intro live
      obtain ⟨_, _, ⟨run, slot, copy, named⟩, -⟩ := agree.stored mem live
      rw [slotAfter, slot, closedValue, if_pos]
      simp [Json.asObject, closesChatRun, closesAssistant, named, copy.assistantMessageId,
        copy.assistantSequence]
    · intro other otherMem ne otherLive same
      obtain ⟨_, _, ⟨run, slot, -, named⟩, -⟩ := agree.stored otherMem otherLive
      rw [same] at slot
      exact keeps other otherMem ne run slot named
    · intro value after
      rw [slotAfter] at after
      exact closedValue_eq_some after
  · intro ended
    refine leavesOthers_of_within agree rfl within away ?_
    exact fun other otherMem ne _ _ run slot named => keeps other otherMem ne run slot named

end Close

/-! ## Runs into free places -/

/-- A message is queued only into a chat that holds no queued run. -/
def queuesIntoFreeChat (state : QueuedRunState) : QueuedRunAction → Bool
  | .queue call _ => (chatSlot state.store.toChatTables call.identity.chatId).isNone
  | _ => true

/-- What one step keeps. -/
theorem queuedRun_step {state state' : QueuedRunState} {action : QueuedRunAction}
    (agree : RunsAgree state) (free : queuesIntoFreeChat state action = true)
    (step : queuedRunMachine.step state action = some state') :
    RunsAgree state' ∧ LeavesOthers action state state' := by
  cases action with
  | queue call now =>
    simp only [queuedRunMachine] at step
    split at step
    · rename_i fresh
      split at step
      · rename_i store' _ h
        cases step
        have free := Option.isNone_iff_eq_none.mp free
        refine ⟨queue_agrees agree fresh h free, leavesOthers_of_within agree rfl
          (queue_call_spec h).1 (fun other otherMem _ => queue_away agree h otherMem) ?_⟩
        intro other _ _ _ _ run slot
        rw [free] at slot
        cases slot
      · cases step
        exact ⟨agree, leavesOthers_of_same rfl rfl⟩
    · cases step
  | claim identity runId =>
    simp only [queuedRunMachine] at step
    split at step
    · rename_i turn
      split at step
      · rename_i store' h
        cases step
        obtain ⟨waits, within, -⟩ := claim_granted agree turn.1 h
        refine ⟨claim_agrees agree turn.1 h, leavesOthers_of_within agree rfl within
          (fun _ => userMessage_away agree turn.1) ?_⟩
        intro other otherMem ne otherLive same
        exact absurd (agree.eq_of_chat otherMem otherLive turn.1 waits.2 same) ne
      · rename_i store' h
        cases step
        obtain ⟨_, -, -, ⟨-, rfl⟩ | ⟨other, -⟩⟩ := claim_spec (agree.rows _ turn.1) h
        · exact ⟨agree, leavesOthers_of_same rfl rfl⟩
        · cases other
      · cases step
        exact ⟨agree, leavesOthers_of_same rfl rfl⟩
    · cases step
  | clear identity runId =>
    simp only [queuedRunMachine] at step
    split at step
    · rename_i mem
      split at step
      · rename_i store' _ h
        cases step
        obtain ⟨agrees, leaves⟩ := clear_step agree mem h
        exact ⟨agrees, leaves _⟩
      · cases step
        exact ⟨agree, leavesOthers_of_same rfl rfl⟩
    · cases step
  | close closure now =>
    simp only [queuedRunMachine] at step
    split at step
    · rename_i mem
      split at step
      · rename_i store' _ h
        cases step
        obtain ⟨agrees, leaves⟩ := close_step agree mem.1 mem.2 h
        exact ⟨agrees, leaves _⟩
      · cases step
        exact ⟨agree, leavesOthers_of_same rfl rfl⟩
    · cases step
  | agents action =>
    simp only [queuedRunMachine] at step
    split at step
    · cases step
    split at step
    · cases step
      exact ⟨agree, leavesOthers_of_same rfl rfl⟩
    split at step
    · rename_i store' h
      cases step
      obtain ⟨chats, messages⟩ := setAgents_tables h
      refine ⟨?_, leavesOthers_of_same chats messages⟩
      have slots : ∀ id, chatSlot store'.toChatTables id = chatSlot state.store.toChatTables id :=
        fun id => by rw [chatSlot, ChatTables.chat, chats]; rfl
      have markers : ∀ id, messageMarker store'.toChatTables id =
          messageMarker state.store.toChatTables id :=
        fun id => by rw [messageMarker, ChatTables.message, messages]; rfl
      have stays : ∀ {identity claimedBy owned},
          RunStored state.store.toChatTables identity claimedBy owned →
          RunStored store'.toChatTables identity claimedBy owned := by
        intro identity claimedBy owned stored
        constructor
        · rw [slots]
          exact stored.slot
        · rw [markers]
          exact stored.marker
      refine ⟨agree.users, agree.tasks, ?_, ?_, ?_, ?_, ?_, agree.claimedQueued,
        agree.endedQueued⟩
      · intro identity mem
        exact (agree.rows identity mem).stays (setAgents_within h identity.chatId [])
      · intro identity mem waits
        obtain ⟨owned, stored⟩ := agree.waiting identity mem waits
        exact ⟨owned, stays stored⟩
      · exact fun entry mem live => stays (agree.running entry mem live)
      · intro identity mem
        rw [markers]
        exact agree.ended identity mem
      · intro chatId value slot
        rw [slots] at slot
        exact agree.slots chatId value slot
    · cases step
      exact ⟨agree, leavesOthers_of_same rfl rfl⟩

/-- In runs that queue messages only into chats without a queued run, both copies of every run
agree until it ends. -/
theorem queuedRuns_agree {state : QueuedRunState}
    (reached : queuedRunMachine.ReachableWhile
      (fun state action => queuesIntoFreeChat state action = true) state) : RunsAgree state := by
  refine reached.invariant ?_ fun _ _ _ agree free step => (queuedRun_step agree free step).1
  refine ⟨nofun, nofun, nofun, nofun, nofun, nofun, ?_, nofun, nofun⟩
  intro chatId value slot
  cases slot

/-- In every run that queues messages only into chats that hold no queued run: a run that waits
can be claimed when its turn has come, a run that was cleared or closed has left its user
message, and no step for one task touches the copies of another task's run. -/
theorem queued_runs_kept {state : QueuedRunState}
    (reached : queuedRunMachine.ReachableWhile
      (fun state action => queuesIntoFreeChat state action = true) state) :
    QueuedRunsKept (fun state action => queuesIntoFreeChat state action = true) state := by
  have agree := queuedRuns_agree reached
  refine ⟨?_, agree.ended, fun action state' free step => (queuedRun_step agree free step).2⟩
  intro identity mem waits turn runId
  obtain ⟨owned, stored⟩ := agree.waiting identity mem waits
  exact claim_waiting (agree.rows identity mem) stored (Bool.and_eq_true_iff.mp turn).1

/-- The task input of a turn. -/
def turnInput (identity : RunIdentity) : Json :=
  .object [("queuedUserMessageId", .string identity.userMessageId),
    ("visibleAssistantMessageId", .string identity.assistantMessageId),
    ("visibleAssistantSequence", .number (.integer identity.assistantSequence))]

/-- The first message opens a chat and its team. -/
def firstTurn : QueueCall where
  identity := ⟨1, ['u', '1'], ['a', '1'], 1, 1⟩
  trimmed := by decide
  named := by decide
  bounded := by decide
  namesMessage := false
  namesTask := true
  chatSettings := ⟨[], nofun⟩
  messageSettings := ⟨[], nofun⟩
  userMetadata := []
  content := ['h', 'i']
  userSequence := 0
  newChatTitle := some ['h', 'i']
  newChatMetadata := some (.object [])
  newTeam := some soloTeam
  teamId := 1
  ownerInstanceId := 1
  inputJson := turnInput ⟨1, ['u', '1'], ['a', '1'], 1, 1⟩
  maxTeamQueued := 8
  maxInstanceQueued := 8
  maxChatQueued := 8
  accepted := true

/-- The second message goes to the same chat. -/
def secondTurn : QueueCall where
  identity := ⟨1, ['u', '2'], ['a', '2'], 3, 2⟩
  trimmed := by decide
  named := by decide
  bounded := by decide
  namesMessage := false
  namesTask := true
  chatSettings := ⟨[], nofun⟩
  messageSettings := ⟨[], nofun⟩
  userMetadata := []
  content := ['g', 'o']
  userSequence := 2
  newChatTitle := none
  newChatMetadata := none
  newTeam := none
  teamId := 1
  ownerInstanceId := 1
  inputJson := turnInput ⟨1, ['u', '2'], ['a', '2'], 3, 2⟩
  maxTeamQueued := 8
  maxInstanceQueued := 8
  maxChatQueued := 8
  accepted := true

/-- The first turn is queued, claimed and cleared, then the second is queued into the free chat. -/
def turnAfterTurn : List QueuedRunAction :=
  [.queue firstTurn [], .claim firstTurn.identity ['r'], .clear firstTurn.identity ['r'],
    .agents (.cancelQueued 1 1 []), .queue secondTurn []]

/-- A run into free chats: the second turn waits, and is kept. -/
theorem queued_runs_kept_turnAfterTurn : ∃ state, queuedRunMachine.ReachableWhile
      (fun state action => queuesIntoFreeChat state action = true) state ∧
    secondTurn.identity ∈ state.queued ∧ firstTurn.identity ∈ state.ended ∧
    QueuedRunsKept (fun state action => queuesIntoFreeChat state action = true) state := by
  have run : ((queuedRunMachine.runWhile queuesIntoFreeChat ⟨.empty, [], [], []⟩
      turnAfterTurn).any fun state => decide (secondTurn.identity ∈ state.queued) &&
        decide (firstTurn.identity ∈ state.ended)) = true := by
    decide
  obtain ⟨state, ran, checked⟩ := (Option.any_eq_true _ _).mp run
  obtain ⟨queued, ended⟩ := Bool.and_eq_true_iff.mp checked
  have reached := Machine.reachableWhile_of_runWhile .start ran
  exact ⟨state, reached, of_decide_eq_true queued, of_decide_eq_true ended,
    queued_runs_kept reached⟩

/-- Two turns are queued before the first is claimed. -/
def twoQueued : List QueuedRunAction := [.queue firstTurn [], .queue secondTurn []]

/-- The second turn is queued while the first runs, which is then cleared. -/
def queuedWhileRunning : List QueuedRunAction :=
  [.queue firstTurn [], .claim firstTurn.identity ['r'], .queue secondTurn [],
    .clear firstTurn.identity ['r']]

/-- Queueing a second message overwrites the chat's copy of the first: its task can no longer
claim it although it is next, its copy on the user message outlives the clearing of the run, and
the chat no longer names it. -/
theorem queueing_overwrites_queued_run :
    (∃ state, queuedRunMachine.Reachable state ∧ firstTurn.identity ∈ state.queued ∧
      state.Waits firstTurn.identity ∧
      hasTurn state.store.agents.toAgentTables firstTurn.identity = true ∧
      ∀ store', claimAgentChatQueuedRun firstTurn.identity ['r'] state.store ≠
        .ok (store', .claimed)) ∧
    (∃ state, queuedRunMachine.Reachable state ∧ firstTurn.identity ∈ state.ended ∧
      messageMarker state.store.toChatTables firstTurn.identity.userMessageId ≠ none) ∧
    ∃ state state', queuedRunMachine.Reachable state ∧
      queuedRunMachine.step state (.queue secondTurn []) = some state' ∧
      ¬ LeavesOthers (.queue secondTurn []) state state' := by
  refine ⟨?_, ?_, ?_⟩
  · have run : ((queuedRunMachine.run ⟨.empty, [], [], []⟩ twoQueued).any fun state =>
        decide (firstTurn.identity ∈ state.queued) &&
        state.claimed.isEmpty && state.ended.isEmpty &&
        hasTurn state.store.agents.toAgentTables firstTurn.identity &&
        match claimAgentChatQueuedRun firstTurn.identity ['r'] state.store with
        | .ok _ => false
        | .error _ => true) = true := by
      decide
    obtain ⟨state, ran, checked⟩ := (Option.any_eq_true _ _).mp run
    simp only [Bool.and_eq_true, decide_eq_true_eq, List.isEmpty_iff] at checked
    obtain ⟨⟨⟨⟨queued, unclaimed⟩, open'⟩, turn⟩, refused⟩ := checked
    refine ⟨state, Machine.reachable_of_run .start ran, queued, ⟨?_, ?_⟩, turn, ?_⟩
    · intro runId
      rw [unclaimed]
      exact List.not_mem_nil
    · rw [open']
      exact List.not_mem_nil
    · intro store' claimed
      rw [claimed] at refused
      cases refused
  · have run : ((queuedRunMachine.run ⟨.empty, [], [], []⟩ queuedWhileRunning).any fun state =>
        decide (firstTurn.identity ∈ state.ended) &&
        (messageMarker state.store.toChatTables firstTurn.identity.userMessageId).isSome) =
          true := by
      decide
    obtain ⟨state, ran, checked⟩ := (Option.any_eq_true _ _).mp run
    obtain ⟨ended, marked⟩ := Bool.and_eq_true_iff.mp checked
    refine ⟨state, Machine.reachable_of_run .start ran, of_decide_eq_true ended, ?_⟩
    exact Option.isSome_iff_ne_none.mp marked
  · have run : ((queuedRunMachine.run ⟨.empty, [], [], []⟩ [.queue firstTurn []]).any fun state =>
        decide (firstTurn.identity ∈ state.queued) &&
        (((chatSlot state.store.toChatTables 1).bind Json.asObject).any fun run =>
          decide (runUserMessageId run = some firstTurn.identity.userMessageId)) &&
        (queuedRunMachine.step state (.queue secondTurn [])).any fun state' =>
          ((chatSlot state'.store.toChatTables 1).bind Json.asObject).any fun run =>
            decide (runUserMessageId run = some secondTurn.identity.userMessageId)) = true := by
      decide
    obtain ⟨state, ran, checked⟩ := (Option.any_eq_true _ _).mp run
    simp only [Bool.and_eq_true, decide_eq_true_eq] at checked
    obtain ⟨⟨queued, named⟩, overwritten⟩ := checked
    obtain ⟨run, slot, names⟩ := (Option.any_eq_true _ _).mp named
    obtain ⟨state', step, after⟩ := (Option.any_eq_true _ _).mp overwritten
    obtain ⟨run', slot', names'⟩ := (Option.any_eq_true _ _).mp after
    refine ⟨state, state', Machine.reachable_of_run .start ran, step, fun leaves => ?_⟩
    obtain ⟨value, stored, object⟩ := Option.bind_eq_some_iff.mp slot
    have same := leaves.chats firstTurn.identity queued (by decide) 1 run ?_
      (.inr (of_decide_eq_true names))
    · rw [same, slot] at slot'
      cases slot'
      exact absurd ((of_decide_eq_true names).symm.trans (of_decide_eq_true names')) (by decide)
    · cases value <;> cases object
      exact stored

end Foco.AgentRuntime
