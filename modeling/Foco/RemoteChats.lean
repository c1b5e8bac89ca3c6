import Foco.Maps
import Foco.RustText
import Mathlib.Algebra.Group.Nat.Defs

/-!
The chats and messages of a sidecar's workspace database, as remote runs see them: the statements of
`store/workspace.rs` that queue, claim, write and clear a run, that rewrite a chat from one of its
user messages, and that delete a chat. Each is one transaction. A run that waits or runs is marked in
the metadata of its user message; the rest of the metadata stays text.
-/
namespace Foco.RemoteChats
open Foco.Maps Foco.RustText

/-! ## Rows -/

/-- The roles that `messages` allows. -/
inductive MessageRole where
  | system | user | assistant | tool
  deriving DecidableEq

inductive QueuedStatus where
  | queued | running
  deriving DecidableEq

/-- What a `queuedRun` says about whose run it is. -/
structure QueuedRun where
  status : QueuedStatus
  userMessageId : Option Nat
  assistantMessageId : Option Nat
  runId : Option Nat := none
  idempotencyKey : Option Text := none

/-- A row of `messages`, with the `queuedRun` of its metadata apart from the rest of them. -/
structure Message where
  chatId : Nat
  role : MessageRole
  content : Text
  sequence : Nat
  metadata : Text
  queuedRun : Option QueuedRun := none

/-- A row of `chats`: the queued run in its metadata. -/
structure Chat where
  queuedRun : Option QueuedRun := none

structure Database where
  chats : Map Nat Chat := ∅
  messages : Map Nat Message := ∅

/-- `i64::MAX`. -/
def maxSequence : Nat := 2 ^ 63 - 1

namespace Database

def message (id : Nat) (database : Database) : Option Message := database.messages.lookup id

def setMessage (id : Nat) (row : Message) (database : Database) : Database :=
  { database with messages := database.messages.insert id row }

/-! ## Statements -/

/-- `insert_chat_with_metadata` with empty metadata. -/
def insertChat (id : Nat) (database : Database) : Option Database :=
  if database.chats.lookup id = none then
    some { database with chats := database.chats.insert id {} }
  else none

/-- `insert_message`, under the constraints of the table. A sequence that has wrapped around is
refused with the negative ones. -/
def insertMessage (id : Nat) (row : Message) (database : Database) : Option Database :=
  if database.message id = none ∧ (database.chats.lookup row.chatId).isSome ∧
      row.sequence ≤ maxSequence ∧
      database.messages.any (fun _ other =>
        other.chatId = row.chatId ∧ other.sequence = row.sequence) = false then
    some (database.setMessage id row)
  else none

/-- `next_message_sequence_for_chat`. -/
def nextMessageSequence (chatId : Nat) (database : Database) : Option Nat :=
  match ((database.messages.entries.filter fun entry => entry.2.chatId = chatId).map
      fun entry => entry.2.sequence).max? with
  | some last => if last < maxSequence then some (last + 1) else none
  | none => some 0

/-- `update_existing_message_content`. -/
def updateExistingMessageContent (id chatId : Nat) (role : MessageRole) (content metadata : Text)
    (database : Database) : Database × Bool :=
  match database.message id with
  | some row =>
    if row.chatId = chatId ∧ row.role = role then
      (database.setMessage id { row with content, metadata, queuedRun := none }, true)
    else (database, false)
  | none => (database, false)

/-- `upsert_message_content`. -/
def upsertMessageContent (id : Nat) (new : Message) (database : Database) : Option Database :=
  match database.message id with
  | some row =>
    if row.chatId = new.chatId ∧ row.role = new.role ∧ row.sequence = new.sequence then
      some (database.setMessage id { row with
        content := new.content, metadata := new.metadata, queuedRun := new.queuedRun })
    else none
  | none => database.insertMessage id new

/-- `claim_remote_queued_run`. -/
def claimRemoteQueuedRun (chatId user assistant run : Nat) (database : Database) :
    Option Database :=
  match database.message user, database.message assistant with
  | some row, some reply =>
    if row.chatId = chatId ∧ row.role = .user ∧ reply.chatId = chatId ∧
        reply.role = .assistant then
      row.queuedRun.bind fun queuedRun =>
        if queuedRun.userMessageId = some user ∧ queuedRun.assistantMessageId = some assistant then
          match queuedRun.status, queuedRun.runId with
          | .queued, none =>
            some (database.setMessage user { row with
              queuedRun := some { queuedRun with status := .running, runId := some run } })
          | .running, some owner => if owner = run then some database else none
          | _, _ => none
        else none
    else none
  | _, _ => none

/-- Whether a message carries the queued run of an owner. -/
def carriesOwner (chatId user assistant run : Nat) (row : Message) : Bool :=
  row.chatId = chatId ∧ row.role = .user ∧ row.queuedRun.any fun queuedRun =>
    queuedRun.status = .running ∧ queuedRun.userMessageId = some user ∧
      queuedRun.assistantMessageId = some assistant ∧ queuedRun.runId = some run

/-- `clear_remote_queued_run_if_owned`. -/
def clearRemoteQueuedRunIfOwned (chatId user assistant run : Nat) (database : Database) :
    Database :=
  match database.message user with
  | some row =>
    if carriesOwner chatId user assistant run row then
      database.setMessage user { row with queuedRun := none }
    else database
  | none => database

/-- `requeue_remote_queued_run_if_owned`. -/
def requeueRemoteQueuedRunIfOwned (chatId user assistant run : Nat) (database : Database) :
    Database :=
  match database.message user with
  | some row =>
    if carriesOwner chatId user assistant run row then
      database.setMessage user { row with
        queuedRun := row.queuedRun.map fun queuedRun =>
          { queuedRun with status := .queued, runId := none } }
    else database
  | none => database

/-- `{}`. -/
def emptyMetadata : Text := "\x7b\x7d".toList

/-- `{"streamingState":"streaming"}`. -/
def streamingMetadata : Text := "\x7b\"streamingState\":\"streaming\"\x7d".toList

/-- `rewrite_chat_from_user_message`: the later messages of the chat go, the user message is queued
again, and its run gets a new assistant message. -/
def rewriteChatFromUserMessage (chatId user : Nat) (expectedContent : Option Text)
    (content metadata : Text) (assistant : Nat) (database : Database) : Option Database :=
  match database.chats.lookup chatId, database.message user with
  | some chat, some row =>
    if chat.queuedRun = none ∧ row.chatId = chatId ∧ row.role = .user ∧
        expectedContent.all (fun expected => expected = row.content) then
      let queuedRun : QueuedRun :=
        { status := .queued, userMessageId := some user, assistantMessageId := some assistant }
      let kept : Database :=
        { chats := database.chats.insert chatId { queuedRun := some queuedRun }
          messages := database.messages.retain fun _ other =>
            other.chatId ≠ chatId ∨ other.sequence ≤ row.sequence }
      (kept.setMessage user { row with content, metadata, queuedRun := some queuedRun }).insertMessage
        assistant
        { chatId, role := .assistant, content := [], sequence := row.sequence + 1,
          metadata := streamingMetadata }
    else none
  | _, _ => none

/-- `clear_chat_queued_run`. -/
def clearChatQueuedRun (chatId : Nat) (database : Database) : Database :=
  match database.chats.lookup chatId with
  | some _ => { database with chats := database.chats.insert chatId {} }
  | none => database

/-- `delete_chat`; its messages go with it. -/
def deleteChat (chatId : Nat) (database : Database) : Database :=
  { chats := database.chats.erase chatId
    messages := database.messages.retain fun _ row => row.chatId ≠ chatId }

/-! ## What a statement does to the messages -/

variable {database database' : Database}

theorem message_setMessage (id other : Nat) (row : Message) :
    (database.setMessage id row).message other =
      if other = id then some row else database.message other :=
  Map.lookup_insert_eq_ite database.messages

/-- An inserted message is new in its table, and in its chat at its sequence. -/
theorem insertMessage_spec {id : Nat} {row : Message}
    (inserted : database.insertMessage id row = some database') :
    database.message id = none ∧
      (∀ other row', database.message other = some row' → row'.chatId = row.chatId →
        row'.sequence ≠ row.sequence) ∧
      database' = database.setMessage id row := by
  obtain ⟨⟨absent, -, -, free⟩, same⟩ := Option.ite_none_right_eq_some.mp inserted
  refine ⟨absent, fun other row' found chat sequence => ?_, (Option.some.inj same).symm⟩
  have taken : database.messages.any (fun _ other =>
      other.chatId = row.chatId ∧ other.sequence = row.sequence) = true :=
    Map.any_eq_true.mpr ⟨other, row', found, decide_eq_true ⟨chat, sequence⟩⟩
  rw [taken] at free
  cases free

theorem message_insertMessage {id : Nat} {row : Message}
    (inserted : database.insertMessage id row = some database') (other : Nat) :
    database'.message other = if other = id then some row else database.message other := by
  obtain ⟨-, -, rfl⟩ := insertMessage_spec inserted
  exact message_setMessage id other row

/-- Only the message that carries the owner is written. -/
theorem message_clearRemoteQueuedRunIfOwned {chatId user assistant run other : Nat} {row : Message}
    (found : database.message other = some row)
    (free : carriesOwner chatId user assistant run row = false) :
    (database.clearRemoteQueuedRunIfOwned chatId user assistant run).message other = some row := by
  unfold clearRemoteQueuedRunIfOwned
  split
  · next row' found' =>
    split
    · next carries =>
      rw [message_setMessage, if_neg, found]
      rintro rfl
      cases found.symm.trans found'
      rw [carries] at free
      cases free
    · exact found
  · exact found

/-- A rewritten chat keeps the messages up to the edited one, which is queued again, and gets one new
message behind it. -/
theorem rewriteChatFromUserMessage_spec {chatId user assistant : Nat}
    {expectedContent : Option Text} {content metadata : Text}
    (rewritten : database.rewriteChatFromUserMessage chatId user expectedContent content metadata
      assistant = some database') :
    ∃ (row : Message) (kept : Database), database.message user = some row ∧ row.chatId = chatId ∧ row.role = .user ∧
      (∀ id row', kept.message id = some row' ↔
        id = user ∧ row' = { row with
          content, metadata
          queuedRun := some { status := .queued, userMessageId := some user,
                              assistantMessageId := some assistant } } ∨
        id ≠ user ∧ database.message id = some row' ∧
          (row'.chatId ≠ chatId ∨ row'.sequence ≤ row.sequence)) ∧
      kept.insertMessage assistant
        { chatId, role := .assistant, content := [], sequence := row.sequence + 1,
          metadata := streamingMetadata } = some database' := by
  unfold rewriteChatFromUserMessage at rewritten
  split at rewritten
  · next chat row _ found =>
    obtain ⟨⟨-, same, role, -⟩, inserted⟩ := Option.ite_none_right_eq_some.mp rewritten
    refine ⟨row, _, found, same, role, fun id row' => ?_, inserted⟩
    rw [message_setMessage]
    by_cases edited : id = user
    · simp only [edited, if_true, Option.some.injEq, true_and, ne_eq, not_true_eq_false, false_and,
        or_false]
      exact eq_comm
    · rw [if_neg edited, message, Map.lookup_retain, decide_eq_true_iff]
      simp only [edited, false_and, false_or, ne_eq, not_false_eq_true, true_and]
      rfl
  · cases rewritten

end Database

end Foco.RemoteChats
