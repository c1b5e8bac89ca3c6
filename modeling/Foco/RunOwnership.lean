import Foco.RemoteChats
import Foco.Runs

/-!
`app/remote_workspace.rs`, the runner of a remote run and what may take its run away. The runner
reads in one step whether it still owns the run and writes in the next; edits of the user message,
deletions of the chat, cancellations, new turns and hand-offs to the queue come at any time.
-/
namespace Foco.RunOwnership
open Foco.Maps Foco.RustText Foco.Runs Foco.RemoteChats
open Foco.RemoteChats.Database (emptyMetadata)

/-! ## Runners -/

/-- Where a runner stands in `remote_sidecar_persist_owned_assistant_message`, or before the clearing
of its queued run. -/
inductive RunnerPhase where
  | idle
  /-- The ownership was read. -/
  | updating (content metadata : Text)
  /-- No row was updated. -/
  | rechecking (content metadata : Text)
  /-- The ownership was read again. -/
  | sequencing (content metadata : Text)
  | upserting (content metadata : Text) (sequence : Nat)
  | clearing
  deriving DecidableEq

structure Runner where
  chatId : Nat
  user : Nat
  assistant : Nat
  phase : RunnerPhase := .idle

/-- The assistant message that `remote_sidecar_chat_queue` inserts after its user message. -/
structure PendingReply where
  id : Nat
  chatId : Nat
  sequence : Nat

/-- The database, the turns half queued, and the runners. New ids are new. -/
structure Sidecar where
  database : Database := {}
  nextId : Nat := 0
  queueing : List PendingReply := []
  runners : Map Nat Runner := ∅

/-- Whether the user message of a runner says that its run is running. -/
def marksRun (runner : Runner) (run : Nat) (row : Message) : Bool :=
  row.chatId = runner.chatId ∧ row.role = .user ∧ row.queuedRun.any fun queuedRun =>
    queuedRun.assistantMessageId = some runner.assistant ∧
    queuedRun.userMessageId.all (· = runner.user) ∧
    queuedRun.status = .running ∧ queuedRun.runId = some run

/-- `remote_sidecar_runner_still_owns_turn`. -/
def runnerStillOwnsTurn (runner : Runner) (run : Nat) (database : Database) : Bool :=
  (database.message runner.assistant).all (fun row =>
    row.chatId = runner.chatId ∧ row.role = .assistant) ∧
  (database.message runner.user).any (marksRun runner run)

inductive RunnerAction where
  | check (content metadata : Text)
  | update
  | recheck
  | readSequence
  | upsert
  | checkClear
  | clear

/-- One database call of a runner. -/
def runnerStep (database : Database) (run : Nat) (runner : Runner) :
    RunnerAction → Option (Database × RunnerPhase)
  | .check content metadata =>
    if runner.phase = .idle then
      some (database,
        if runnerStillOwnsTurn runner run database then .updating content metadata else .idle)
    else none
  | .update =>
    match runner.phase with
    | .updating content metadata =>
      let (database, updated) := database.updateExistingMessageContent runner.assistant
        runner.chatId .assistant content metadata
      some (database, if updated then .idle else .rechecking content metadata)
    | _ => none
  | .recheck =>
    match runner.phase with
    | .rechecking content metadata =>
      some (database,
        if runnerStillOwnsTurn runner run database then .sequencing content metadata else .idle)
    | _ => none
  | .readSequence =>
    match runner.phase with
    | .sequencing content metadata =>
      match ((database.message runner.assistant).map Message.sequence).or
          (database.nextMessageSequence runner.chatId) with
      | some sequence => some (database, .upserting content metadata sequence)
      | none => some (database, .idle)
    | _ => none
  | .upsert =>
    match runner.phase with
    | .upserting content metadata sequence =>
      some ((database.upsertMessageContent runner.assistant
        { chatId := runner.chatId, role := .assistant, content, sequence, metadata }).getD database,
        .idle)
    | _ => none
  | .checkClear =>
    if runner.phase = .idle then
      some (database, if runnerStillOwnsTurn runner run database then .clearing else .idle)
    else none
  | .clear =>
    if runner.phase = .clearing then
      some (database.clearRemoteQueuedRunIfOwned runner.chatId runner.user runner.assistant run,
        .idle)
    else none

inductive Action where
  /-- `remote_sidecar_chat_queue` inserts its user message, at a sequence that may be old, and its
  chat if need be. -/
  | queueUser (chatId sequence : Nat) (content metadata : Text) (idempotencyKey : Option Text)
  | queueAssistant (id : Nat)
  | claim (run chatId user assistant : Nat)
  | runner (run : Nat) (action : RunnerAction)
  /-- `remote_sidecar_edit_chat_user_message`. -/
  | edit (chatId user : Nat) (expectedContent : Option Text) (content metadata : Text)
  /-- `remote_sidecar_delete_chat`. -/
  | delete (chatId : Nat)
  /-- `remote_sidecar_cancel_active_run_inner` clears the queued run. -/
  | cancel (run : Nat)
  | requeue (run : Nat)
  | clearChat (chatId : Nat)

def step (sidecar : Sidecar) : Action → Option Sidecar
  | .queueUser chatId sequence content metadata idempotencyKey =>
    let user := sidecar.nextId
    let assistant := sidecar.nextId + 1
    let database := (sidecar.database.insertChat chatId).getD sidecar.database
    let queuedRun : QueuedRun :=
      { status := .queued, userMessageId := some user, assistantMessageId := some assistant,
        idempotencyKey }
    (database.insertMessage user
        { chatId, role := .user, content, sequence, metadata, queuedRun := some queuedRun }).map
      fun database => { sidecar with
        database
        nextId := sidecar.nextId + 2
        queueing := { id := assistant, chatId, sequence := sequence + 1 } :: sidecar.queueing }
  | .queueAssistant id =>
    (sidecar.queueing.find? fun reply => reply.id = id).map fun reply =>
      { sidecar with
        database := (sidecar.database.insertMessage id
          { chatId := reply.chatId, role := .assistant, content := [], sequence := reply.sequence,
            metadata := emptyMetadata }).getD sidecar.database
        queueing := sidecar.queueing.filter fun other => other.id ≠ id }
  | .claim run chatId user assistant =>
    if sidecar.runners.lookup run = none then
      (sidecar.database.claimRemoteQueuedRun chatId user assistant run).map fun database =>
        { sidecar with
          database, runners := sidecar.runners.insert run { chatId, user, assistant } }
    else none
  | .runner run action =>
    (sidecar.runners.lookup run).bind fun runner =>
      (runnerStep sidecar.database run runner action).map fun (database, phase) =>
        { sidecar with
          database, runners := sidecar.runners.insert run { runner with phase } }
  | .edit chatId user expectedContent content metadata =>
    (sidecar.database.rewriteChatFromUserMessage chatId user expectedContent content metadata
        sidecar.nextId).map fun database =>
      { sidecar with database, nextId := sidecar.nextId + 1 }
  | .delete chatId => some { sidecar with database := sidecar.database.deleteChat chatId }
  | .cancel run =>
    (sidecar.runners.lookup run).map fun runner =>
      { sidecar with
        database := sidecar.database.clearRemoteQueuedRunIfOwned runner.chatId runner.user
          runner.assistant run }
  | .requeue run =>
    (sidecar.runners.lookup run).map fun runner =>
      { sidecar with
        database := sidecar.database.requeueRemoteQueuedRunIfOwned runner.chatId runner.user
          runner.assistant run }
  | .clearChat chatId =>
    some { sidecar with database := sidecar.database.clearChatQueuedRun chatId }

/-- The sidecar from some state on. -/
def sidecarMachine (start : Sidecar) : Machine Sidecar Action where
  start := start
  step := step

/-! ## What a run that was taken away keeps out of -/

/-- Edits, deletions and cancellations. -/
def Action.competes : Action → Bool
  | .edit .. | .delete _ | .cancel _ => true
  | _ => false

def owns (run : Nat) (sidecar : Sidecar) : Bool :=
  (sidecar.runners.lookup run).any fun runner => runnerStillOwnsTurn runner run sidecar.database

/-- A step of a run's runner leaves its assistant message, adds no message to the chat, and leaves
the queued runs of others. -/
structure Leaves (run : Nat) (runner : Runner) (before after : Database) : Prop where
  assistant : (after.message runner.assistant).map (fun row => (row.content, row.metadata)) =
    (before.message runner.assistant).map fun row => (row.content, row.metadata)
  noneAdded : ∀ id row, after.message id = some row → row.chatId = runner.chatId →
    (before.message id).isSome
  others : ∀ id row queuedRun, before.message id = some row → row.queuedRun = some queuedRun →
    queuedRun.runId ≠ some run →
    (after.message id).bind Message.queuedRun = some queuedRun

/-- Once an edit, a deletion or a cancellation has taken the queued run away, no step of the runner
writes. -/
def KeepsOut (allowed : Sidecar → Action → Prop) : Prop :=
  ∀ before competitor taken run later runner action after,
    (sidecarMachine {}).ReachableWhile allowed before → allowed before competitor →
    step before competitor = some taken → competitor.competes = true →
    owns run before = true → owns run taken = false →
    (sidecarMachine taken).ReachableWhile allowed later →
    later.runners.lookup run = some runner →
    step later (.runner run action) = some after →
    Leaves run runner later.database after.database

/-- No run is cancelled between the first reading of its ownership and the update. -/
def cancelsBetweenWrites (sidecar : Sidecar) : Action → Bool
  | .cancel run =>
    (sidecar.runners.lookup run).all fun runner =>
      match runner.phase with
      | .updating _ _ => runnerStillOwnsTurn runner run sidecar.database = false
      | _ => true
  | _ => true

/-! ## The invariant -/

theorem marksRun_eq_true {runner : Runner} {run : Nat} {row : Message} :
    marksRun runner run row = true ↔ row.chatId = runner.chatId ∧ row.role = .user ∧
      ∃ queuedRun, row.queuedRun = some queuedRun ∧
        queuedRun.assistantMessageId = some runner.assistant ∧ queuedRun.status = .running ∧
        queuedRun.runId = some run ∧ queuedRun.userMessageId.all (· = runner.user) = true := by
  rw [marksRun, decide_eq_true_iff, Option.any_eq_true]
  refine and_congr_right fun _ => and_congr_right fun _ => exists_congr fun queuedRun => ?_
  rw [decide_eq_true_iff]
  tauto

/-- Whatever a marked message waits for: the assistant message is the next one of its chat, and it is
there when the run is claimed. -/
structure Answered (sidecar : Sidecar) (row : Message) (status : QueuedStatus) (assistant : Nat) :
    Prop where
  known : assistant < sidecar.nextId
  next : ∀ reply, sidecar.database.message assistant = some reply → reply.chatId = row.chatId →
    reply.sequence = row.sequence + 1
  queued : ∀ reply ∈ sidecar.queueing, reply.id = assistant → reply.chatId = row.chatId →
    reply.sequence = row.sequence + 1
  stored : status = .running → ∃ reply, sidecar.database.message assistant = some reply ∧
    reply.chatId = row.chatId

/-- The assistant message of a runner was inserted, and it is gone when an update finds no row. -/
structure Runs (sidecar : Sidecar) (runner : Runner) : Prop where
  known : runner.assistant < sidecar.nextId
  inserted : ∀ reply ∈ sidecar.queueing, reply.id ≠ runner.assistant
  assistant : ∀ row, sidecar.database.message runner.assistant = some row →
    row.chatId = runner.chatId ∧ row.role = .assistant
  gone : ∀ content metadata, runner.phase = .rechecking content metadata →
    sidecar.database.message runner.assistant = none
  noSequencing : ∀ content metadata, runner.phase ≠ .sequencing content metadata
  noUpserting : ∀ content metadata sequence, runner.phase ≠ .upserting content metadata sequence

structure Sound (sidecar : Sidecar) : Prop where
  known : ∀ id row, sidecar.database.message id = some row → id < sidecar.nextId
  sequences : ∀ id other row row', sidecar.database.message id = some row →
    sidecar.database.message other = some row' → row'.chatId = row.chatId →
    row'.sequence = row.sequence → other = id
  marked : ∀ user row queuedRun assistant, sidecar.database.message user = some row →
    row.queuedRun = some queuedRun → queuedRun.assistantMessageId = some assistant →
    Answered sidecar row queuedRun.status assistant
  queueing : ∀ reply ∈ sidecar.queueing, reply.id < sidecar.nextId ∧
    sidecar.database.message reply.id = none
  runners : ∀ run runner, sidecar.runners.lookup run = some runner → Runs sidecar runner

theorem message_empty (id : Nat) : ({} : Database).message id = none := AList.lookup_empty id

theorem sound_start : Sound {} := by
  refine ⟨fun id row found => ?_, fun id _ row _ found => ?_, fun id row _ _ found => ?_, nofun,
    fun run runner found => ?_⟩
  · cases (message_empty id).symm.trans found
  · cases (message_empty id).symm.trans found
  · cases (message_empty id).symm.trans found
  · cases (AList.lookup_empty run).symm.trans found

/-- Every row comes from one that was there, in its place. -/
def RowsFrom (before after : Database) : Prop :=
  ∀ id row', after.message id = some row' → ∃ row, before.message id = some row ∧
    row'.chatId = row.chatId ∧ row'.role = row.role ∧ row'.sequence = row.sequence

theorem RowsFrom.absent {before after : Database} (rows : RowsFrom before after) {id : Nat}
    (absent : before.message id = none) : after.message id = none := by
  refine Option.eq_none_iff_forall_ne_some.mpr fun row' found => ?_
  obtain ⟨row, found', -⟩ := rows id row' found
  rw [absent] at found'
  cases found'

theorem rowsFrom_setMessage {database : Database} {id : Nat} {row row' : Message}
    (found : database.message id = some row) (chat : row'.chatId = row.chatId)
    (role : row'.role = row.role) (sequence : row'.sequence = row.sequence) :
    RowsFrom database (database.setMessage id row') := by
  intro other row₁ found₁
  rw [Database.message_setMessage] at found₁
  split at found₁
  · next same =>
    cases found₁
    exact ⟨row, same ▸ found, chat, role, sequence⟩
  · exact ⟨row₁, found₁, rfl, rfl, rfl⟩

section Changes

variable {sidecar : Sidecar} (sound : Sound sidecar)
include sound

/-- Rows may go or change, when each mark is as good as it was. -/
theorem Sound.change {database : Database} {nextId : Nat} (le : sidecar.nextId ≤ nextId)
    (rows : RowsFrom sidecar.database database)
    (marked : ∀ user row queuedRun assistant, database.message user = some row →
      row.queuedRun = some queuedRun → queuedRun.assistantMessageId = some assistant →
      Answered { sidecar with database, nextId } row queuedRun.status assistant) :
    Sound { sidecar with database, nextId } := by
  refine ⟨?_, ?_, marked, ?_, ?_⟩
  · intro id row' found
    obtain ⟨row, found, -⟩ := rows id row' found
    exact Nat.lt_of_lt_of_le (sound.known id row found) le
  · intro id other row₁ row₂ found₁ found₂ chat sequence
    obtain ⟨row, found, chat₁, -, sequence₁⟩ := rows id row₁ found₁
    obtain ⟨row', found', chat₂, -, sequence₂⟩ := rows other row₂ found₂
    refine sound.sequences id other row row' found found' ?_ ?_
    · rw [← chat₁, ← chat₂, chat]
    · rw [← sequence₁, ← sequence₂, sequence]
  · intro reply mem
    obtain ⟨known, absent⟩ := sound.queueing reply mem
    exact ⟨Nat.lt_of_lt_of_le known le, rows.absent absent⟩
  · intro run runner found
    have runs := sound.runners run runner found
    refine { runs with known := Nat.lt_of_lt_of_le runs.known le, assistant := ?_, gone := ?_ }
    · intro row' found'
      obtain ⟨row, found, chat, role, -⟩ := rows _ row' found'
      rw [chat, role]
      exact runs.assistant row found
    · exact fun content metadata phase => rows.absent (runs.gone content metadata phase)

/-- A mark that was there is as good as it was, when a claimed assistant message stays. -/
theorem Sound.marked_of_rows {database : Database} {nextId : Nat} (le : sidecar.nextId ≤ nextId)
    (rows : RowsFrom sidecar.database database) {user assistant : Nat} {row row' : Message}
    {queuedRun : QueuedRun} {status : QueuedStatus}
    (found : sidecar.database.message user = some row) (chat : row'.chatId = row.chatId)
    (sequence : row'.sequence = row.sequence)
    (mark : row.queuedRun = some queuedRun)
    (named : queuedRun.assistantMessageId = some assistant)
    (stored : status = .running → ∃ reply, database.message assistant = some reply ∧
      reply.chatId = row.chatId) :
    Answered { sidecar with database, nextId } row' status assistant := by
  have answered := sound.marked user row queuedRun assistant found mark named
  refine ⟨Nat.lt_of_lt_of_le answered.known le, ?_, ?_, ?_⟩
  · intro reply' found' chat'
    obtain ⟨reply, found, chat₁, -, sequence₁⟩ := rows assistant reply' found'
    rw [sequence, sequence₁]
    exact answered.next reply found (by rw [← chat₁, chat', chat])
  · intro reply mem same chat'
    rw [sequence]
    exact answered.queued reply mem same (by rw [chat', chat])
  · intro running
    obtain ⟨reply, found, chat'⟩ := stored running
    exact ⟨reply, found, by rw [chat', chat]⟩

/-- One row is written, and keeps its place. -/
theorem Sound.setMessage {id : Nat} {row row' : Message}
    (found : sidecar.database.message id = some row) (chat : row'.chatId = row.chatId)
    (role : row'.role = row.role) (sequence : row'.sequence = row.sequence)
    (marked : ∀ queuedRun' assistant, row'.queuedRun = some queuedRun' →
      queuedRun'.assistantMessageId = some assistant →
      ∃ queuedRun, row.queuedRun = some queuedRun ∧
        queuedRun.assistantMessageId = some assistant ∧
        (queuedRun'.status = .running → ∃ reply,
          sidecar.database.message assistant = some reply ∧ reply.chatId = row.chatId)) :
    Sound { sidecar with database := sidecar.database.setMessage id row' } := by
  have rows := rowsFrom_setMessage found chat role sequence
  have stays : ∀ other reply, sidecar.database.message other = some reply →
      ∃ reply', (sidecar.database.setMessage id row').message other = some reply' ∧
        reply'.chatId = reply.chatId := by
    intro other reply found'
    rw [Database.message_setMessage]
    split
    · next same =>
      rw [same, found] at found'
      cases found'
      exact ⟨row', rfl, chat⟩
    · exact ⟨reply, found', rfl⟩
  refine sound.change (Nat.le_refl _) rows fun user row₁ queuedRun' assistant found₁ mark named => ?_
  rw [Database.message_setMessage] at found₁
  split at found₁
  · cases found₁
    obtain ⟨queuedRun, mark', named', stored⟩ := marked queuedRun' assistant mark named
    refine sound.marked_of_rows (Nat.le_refl _) rows found chat sequence mark' named' ?_
    intro running
    obtain ⟨reply, found', chat'⟩ := stored running
    obtain ⟨reply', found'', chat''⟩ := stays assistant reply found'
    exact ⟨reply', found'', chat''.trans chat'⟩
  · refine sound.marked_of_rows (Nat.le_refl _) rows found₁ rfl rfl mark named fun running => ?_
    obtain ⟨reply, found', chat'⟩ :=
      (sound.marked user row₁ queuedRun' assistant found₁ mark named).stored running
    obtain ⟨reply', found'', chat''⟩ := stays assistant reply found'
    exact ⟨reply', found'', chat''.trans chat'⟩

/-- A new message is inserted, in the place its mark waits for. -/
theorem Sound.insertMessage {id nextId : Nat} {row : Message} {database : Database}
    (inserted : sidecar.database.insertMessage id row = some database)
    (le : sidecar.nextId ≤ nextId) (known : id < nextId)
    (unqueued : ∀ reply ∈ sidecar.queueing, reply.id ≠ id)
    (unserved : ∀ run runner, sidecar.runners.lookup run = some runner → runner.assistant ≠ id)
    (awaited : ∀ user row' queuedRun, sidecar.database.message user = some row' →
      row'.queuedRun = some queuedRun → queuedRun.assistantMessageId = some id →
      row.chatId = row'.chatId → row.sequence = row'.sequence + 1)
    (marked : ∀ queuedRun assistant, row.queuedRun = some queuedRun →
      queuedRun.assistantMessageId = some assistant →
      Answered { sidecar with database, nextId } row queuedRun.status assistant) :
    Sound { sidecar with database, nextId } := by
  obtain ⟨absent, free, -⟩ := Database.insertMessage_spec inserted
  have message := Database.message_insertMessage inserted
  refine ⟨?_, ?_, ?_, ?_, ?_⟩
  · intro other row' found
    dsimp only at found ⊢
    rw [message] at found
    split at found
    · next same => exact same ▸ known
    · exact Nat.lt_of_lt_of_le (sound.known other row' found) le
  · intro first second row₁ row₂ found₁ found₂ chat sequence
    dsimp only at found₁ found₂
    rw [message] at found₁ found₂
    split at found₁ <;> split at found₂
    · next same₁ same₂ => rw [same₁, same₂]
    · cases found₁
      exact absurd sequence (free second row₂ found₂ chat)
    · cases found₂
      exact absurd sequence.symm (free first row₁ found₁ chat.symm)
    · exact sound.sequences first second row₁ row₂ found₁ found₂ chat sequence
  · intro user row' queuedRun assistant found mark named
    dsimp only at found
    rw [message] at found
    split at found
    · cases found
      exact marked queuedRun assistant mark named
    · have answered := sound.marked user row' queuedRun assistant found mark named
      refine ⟨Nat.lt_of_lt_of_le answered.known le, ?_, answered.queued, ?_⟩
      · intro reply found' chat
        dsimp only at found'
        rw [message] at found'
        split at found'
        · next same =>
          cases found'
          exact awaited user row' queuedRun found mark (same ▸ named) chat
        · exact answered.next reply found' chat
      · intro running
        obtain ⟨reply, found', chat⟩ := answered.stored running
        refine ⟨reply, ?_, chat⟩
        dsimp only
        rw [message, if_neg, found']
        rintro rfl
        rw [absent] at found'
        cases found'
  · intro reply mem
    obtain ⟨below, none⟩ := sound.queueing reply mem
    refine ⟨Nat.lt_of_lt_of_le below le, ?_⟩
    dsimp only
    rw [message, if_neg (unqueued reply mem), none]
  · intro run runner found
    have runs := sound.runners run runner found
    have same : database.message runner.assistant = sidecar.database.message runner.assistant := by
      rw [message, if_neg (unserved run runner found)]
    exact { runs with
      known := Nat.lt_of_lt_of_le runs.known le
      assistant := fun row' found' => runs.assistant row' (same ▸ found')
      gone := fun content metadata phase => same ▸ runs.gone content metadata phase }

/-- A runner is registered, or goes to another phase. -/
theorem Sound.setRunner {run : Nat} {runner : Runner} (runs : Runs sidecar runner) :
    Sound { sidecar with runners := sidecar.runners.insert run runner } := by
  refine { sound with marked := ?_, runners := fun other runner' found => ?_ }
  · exact fun user row queuedRun assistant found mark named =>
      { sound.marked user row queuedRun assistant found mark named with }
  · dsimp only at found
    rw [Map.lookup_insert_eq_ite] at found
    split at found
    · cases found
      exact { runs with }
    · exact { sound.runners other runner' found with }

omit sound in
theorem Runs.setPhase {runner : Runner} (runs : Runs sidecar runner) {phase : RunnerPhase}
    (gone : ∀ content metadata, phase = .rechecking content metadata →
      sidecar.database.message runner.assistant = none)
    (noSequencing : ∀ content metadata, phase ≠ .sequencing content metadata)
    (noUpserting : ∀ content metadata sequence, phase ≠ .upserting content metadata sequence) :
    Runs sidecar { runner with phase } :=
  ⟨runs.known, runs.inserted, runs.assistant, gone, noSequencing, noUpserting⟩

end Changes

/-! ## Each step keeps it -/

section Steps

variable {sidecar sidecar' : Sidecar} (sound : Sound sidecar)
include sound

/-- The chats are no part of it. -/
theorem Sound.setChats {database : Database}
    (same : database.messages = sidecar.database.messages) :
    Sound { sidecar with database } := by
  obtain ⟨chats, messages⟩ := database
  subst same
  exact { sound with
    marked := fun user row queuedRun assistant found mark named =>
      { sound.marked user row queuedRun assistant found mark named with }
    runners := fun run runner found => { sound.runners run runner found with } }

theorem Sound.clear (chatId user assistant run : Nat) :
    Sound { sidecar with
      database := sidecar.database.clearRemoteQueuedRunIfOwned chatId user assistant run } := by
  unfold Database.clearRemoteQueuedRunIfOwned
  split
  · next row found =>
    split
    · exact sound.setMessage found rfl rfl rfl nofun
    · exact sound
  · exact sound

theorem Sound.requeue (chatId user assistant run : Nat) :
    Sound { sidecar with
      database := sidecar.database.requeueRemoteQueuedRunIfOwned chatId user assistant run } := by
  unfold Database.requeueRemoteQueuedRunIfOwned
  split
  · next row found =>
    split
    · refine sound.setMessage found rfl rfl rfl fun queuedRun' reply mark named => ?_
      obtain ⟨queuedRun, mark', rfl⟩ := Option.map_eq_some_iff.mp mark
      exact ⟨queuedRun, mark', named, nofun⟩
    · exact sound
  · exact sound

theorem Sound.claim {chatId user assistant run : Nat} {database : Database}
    (claimed : sidecar.database.claimRemoteQueuedRun chatId user assistant run = some database) :
    Sound { sidecar with
      database, runners := sidecar.runners.insert run { chatId, user, assistant } } := by
  unfold Database.claimRemoteQueuedRun at claimed
  split at claimed
  · next row reply found found' =>
    obtain ⟨⟨chat, -, chat', role'⟩, claimed⟩ := Option.ite_none_right_eq_some.mp claimed
    obtain ⟨queuedRun, mark, claimed⟩ := Option.bind_eq_some_iff.mp claimed
    obtain ⟨⟨-, named⟩, claimed⟩ := Option.ite_none_right_eq_some.mp claimed
    have runs : Runs sidecar { chatId, user, assistant } := by
      refine ⟨sound.known assistant reply found', fun other mem same => ?_, fun row' stored => ?_,
        nofun, nofun, nofun⟩
      · have absent := (sound.queueing other mem).2
        rw [same, found'] at absent
        cases absent
      · rw [found'] at stored
        cases stored
        exact ⟨chat', role'⟩
    split at claimed
    · cases claimed
      have marked : Sound { sidecar with database := sidecar.database.setMessage user { row with
          queuedRun := some { queuedRun with status := .running, runId := some run } } } := by
        refine sound.setMessage found rfl rfl rfl fun queuedRun' other mark' named' => ?_
        cases mark'
        refine ⟨queuedRun, mark, named', fun _ => ⟨reply, ?_, chat'.trans chat.symm⟩⟩
        cases named.symm.trans named'
        exact found'
      have still : Runs { sidecar with database := sidecar.database.setMessage user { row with
          queuedRun := some { queuedRun with status := .running, runId := some run } } }
          { chatId, user, assistant } := by
        refine ⟨runs.known, runs.inserted, fun row' stored => ?_, nofun, nofun, nofun⟩
        dsimp only at stored
        rw [Database.message_setMessage] at stored
        split at stored
        · next same =>
          cases stored
          exact runs.assistant row (same ▸ found)
        · exact runs.assistant row' stored
      exact marked.setRunner still
    · obtain ⟨-, same⟩ := Option.ite_none_right_eq_some.mp claimed
      cases same
      exact sound.setRunner runs
    · cases claimed
  · cases claimed

/-- A claimed run's message is there. -/
theorem Sound.message_of_owns {run : Nat} {runner : Runner}
    (owned : runnerStillOwnsTurn runner run sidecar.database = true) :
    ∃ reply, sidecar.database.message runner.assistant = some reply := by
  obtain ⟨row, found, marks⟩ := (Option.any_eq_true _ _).mp (of_decide_eq_true owned).2
  obtain ⟨-, -, queuedRun, mark, named, running, -⟩ := marksRun_eq_true.mp marks
  obtain ⟨reply, found', -⟩ :=
    (sound.marked runner.user row queuedRun runner.assistant found mark named).stored running
  exact ⟨reply, found'⟩

theorem Sound.runnerStep {run : Nat} {runner : Runner} {action : RunnerAction}
    {database : Database} {phase : RunnerPhase}
    (found : sidecar.runners.lookup run = some runner)
    (stepped : runnerStep sidecar.database run runner action = some (database, phase)) :
    Sound { sidecar with
      database, runners := sidecar.runners.insert run { runner with phase } } := by
  have runs := sound.runners run runner found
  cases action <;> simp only [RunOwnership.runnerStep] at stepped
  case check content metadata =>
    obtain ⟨-, same⟩ := Option.ite_none_right_eq_some.mp stepped
    cases same
    refine sound.setRunner (runs.setPhase ?_ ?_ ?_) <;> split <;> nofun
  case update =>
    split at stepped
    · next content metadata _ =>
      cases stepped
      unfold Database.updateExistingMessageContent
      split
      · next row stored =>
        simp only [if_pos (runs.assistant row stored), if_true]
        have updated : Sound { sidecar with
            database := sidecar.database.setMessage runner.assistant
              { row with content, metadata, queuedRun := none } } :=
          sound.setMessage stored rfl rfl rfl nofun
        exact updated.setRunner ((updated.runners run runner found).setPhase nofun nofun nofun)
      · next missing => exact sound.setRunner (runs.setPhase (fun _ _ _ => missing) nofun nofun)
    · cases stepped
  case recheck =>
    split at stepped
    · next content metadata phase₁ =>
      cases stepped
      -- The message is gone, and with it the ownership.
      have lost : runnerStillOwnsTurn runner run sidecar.database = false := by
        by_contra owned
        obtain ⟨reply, stored⟩ := sound.message_of_owns (Bool.of_not_eq_false owned)
        rw [runs.gone content metadata phase₁] at stored
        cases stored
      rw [lost]
      exact sound.setRunner (runs.setPhase nofun nofun nofun)
    · cases stepped
  case readSequence =>
    split at stepped
    · next content metadata phase₁ => exact absurd phase₁ (runs.noSequencing content metadata)
    · cases stepped
  case upsert =>
    split at stepped
    · next content metadata sequence phase₁ =>
      exact absurd phase₁ (runs.noUpserting content metadata sequence)
    · cases stepped
  case checkClear =>
    obtain ⟨-, same⟩ := Option.ite_none_right_eq_some.mp stepped
    cases same
    refine sound.setRunner (runs.setPhase ?_ ?_ ?_) <;> split <;> nofun
  case clear =>
    obtain ⟨-, same⟩ := Option.ite_none_right_eq_some.mp stepped
    cases same
    have cleared := sound.clear runner.chatId runner.user runner.assistant run
    exact cleared.setRunner ((cleared.runners run runner found).setPhase nofun nofun nofun)

theorem Sound.delete (chatId : Nat) :
    Sound { sidecar with database := sidecar.database.deleteChat chatId } := by
  have message : ∀ id row, (sidecar.database.deleteChat chatId).message id = some row ↔
      sidecar.database.message id = some row ∧ row.chatId ≠ chatId := by
    intro id row
    rw [Database.message, Database.deleteChat, Map.lookup_retain, decide_eq_true_iff]
    rfl
  have rows : RowsFrom sidecar.database (sidecar.database.deleteChat chatId) :=
    fun id row' found => ⟨row', ((message id row').mp found).1, rfl, rfl, rfl⟩
  refine sound.change (Nat.le_refl _) rows fun user row queuedRun assistant found mark named => ?_
  obtain ⟨found, other⟩ := (message user row).mp found
  refine sound.marked_of_rows (Nat.le_refl _) rows found rfl rfl mark named fun running => ?_
  obtain ⟨reply, stored, chat⟩ :=
    (sound.marked user row queuedRun assistant found mark named).stored running
  exact ⟨reply, (message assistant reply).mpr ⟨stored, chat ▸ other⟩, chat⟩

theorem Sound.edit {chatId user : Nat} {expectedContent : Option Text} {content metadata : Text}
    {database : Database}
    (rewritten : sidecar.database.rewriteChatFromUserMessage chatId user expectedContent content
      metadata sidecar.nextId = some database) :
    Sound { sidecar with database, nextId := sidecar.nextId + 1 } := by
  obtain ⟨row, kept, found, chat, role, message, inserted⟩ :=
    Database.rewriteChatFromUserMessage_spec rewritten
  have le : sidecar.nextId ≤ sidecar.nextId + 1 := Nat.le_succ _
  have rows : RowsFrom sidecar.database kept := by
    intro id row' found'
    obtain ⟨rfl, rfl⟩ | ⟨-, found', -⟩ := (message id row').mp found'
    · exact ⟨row, found, rfl, rfl, rfl⟩
    · exact ⟨row', found', rfl, rfl, rfl⟩
  have fresh : kept.message sidecar.nextId = none := by
    refine rows.absent (Option.eq_none_iff_forall_ne_some.mpr fun other found' => ?_)
    exact Nat.lt_irrefl _ (sound.known _ other found')
  have rewrittenSound : Sound { sidecar with database := kept, nextId := sidecar.nextId + 1 } := by
    refine sound.change le rows fun other row' queuedRun assistant found' mark named => ?_
    obtain ⟨rfl, rfl⟩ | ⟨apart, found', before⟩ := (message other row').mp found'
    · cases mark
      cases named
      refine ⟨Nat.lt_succ_self _, fun reply stored => ?_, fun reply mem same => ?_, nofun⟩
      · cases fresh.symm.trans stored
      · exact absurd same (Nat.ne_of_lt (sound.queueing reply mem).1)
    · refine sound.marked_of_rows le rows found' rfl rfl mark named fun running => ?_
      have answered := sound.marked other row' queuedRun assistant found' mark named
      obtain ⟨reply, stored, chat'⟩ := answered.stored running
      have next := answered.next reply stored chat'
      by_cases edited : assistant = user
      · exact ⟨_, (message assistant _).mpr (.inl ⟨edited, rfl⟩), by
          rw [edited, found] at stored
          cases stored
          exact chat'⟩
      · refine ⟨reply, (message assistant reply).mpr (.inr ⟨edited, stored, ?_⟩), chat'⟩
        by_cases here : row'.chatId = chatId
        · have below := before.resolve_left (not_not.mpr here)
          -- The edited message is another one of the chat, so it is not at the same sequence.
          have above : row'.sequence ≠ row.sequence := fun same =>
            apart (sound.sequences user other row row' found found' (here.trans chat.symm) same)
          exact .inr (by omega)
        · exact .inl (chat' ▸ here)
  refine rewrittenSound.insertMessage inserted (Nat.le_refl _) (Nat.lt_succ_self _) ?_ ?_ ?_ nofun
  · exact fun reply mem => Nat.ne_of_lt (sound.queueing reply mem).1
  · exact fun run runner found' => Nat.ne_of_lt (sound.runners run runner found').known
  · intro other row' queuedRun found' mark named chat'
    obtain ⟨rfl, rfl⟩ | ⟨-, found', -⟩ := (message other row').mp found'
    · rfl
    · have known := (sound.marked other row' queuedRun _ found' mark named).known
      exact absurd known (Nat.lt_irrefl _)

omit sound in
theorem messages_insertChat (database : Database) (chatId : Nat) :
    ((database.insertChat chatId).getD database).messages = database.messages := by
  unfold Database.insertChat
  split <;> rfl

theorem Sound.queueUser {chatId sequence : Nat} {content metadata : Text}
    {idempotencyKey : Option Text}
    (stepped : step sidecar (.queueUser chatId sequence content metadata idempotencyKey) =
      some sidecar') : Sound sidecar' := by
  obtain ⟨database, inserted, rfl⟩ := Option.map_eq_some_iff.mp stepped
  have opened := sound.setChats (messages_insertChat sidecar.database chatId)
  have message := Database.message_insertMessage inserted
  have below : sidecar.nextId < sidecar.nextId + 2 := by omega
  have beyond : ∀ reply, database.message (sidecar.nextId + 1) ≠ some reply := by
    intro reply stored
    rw [message, if_neg (Nat.succ_ne_self _)] at stored
    exact absurd (opened.known _ reply stored) (Nat.not_lt.mpr (Nat.le_succ _))
  have asked : Sound { sidecar with database, nextId := sidecar.nextId + 2 } := by
    refine opened.insertMessage inserted (Nat.le_add_right _ 2) below ?_ ?_ ?_ ?_
    · exact fun reply mem => Nat.ne_of_lt (sound.queueing reply mem).1
    · exact fun run runner found => Nat.ne_of_lt (sound.runners run runner found).known
    · intro user row' queuedRun found mark named _
      exact absurd (opened.marked user row' queuedRun _ found mark named).known (Nat.lt_irrefl _)
    · intro queuedRun assistant mark named
      cases mark
      cases named
      refine ⟨Nat.lt_succ_self _, fun reply stored => absurd stored (beyond reply),
        fun reply mem same => ?_, nofun⟩
      have known := (sound.queueing reply mem).1
      rw [same] at known
      exact absurd known (Nat.not_lt.mpr (Nat.le_succ _))
  refine { asked with marked := ?_, queueing := ?_, runners := ?_ }
  · intro user row queuedRun assistant found mark named
    have answered := asked.marked user row queuedRun assistant found mark named
    refine { answered with queued := fun reply mem same chat => ?_ }
    obtain rfl | old := List.mem_cons.mp mem
    · -- Only the new message waits for the new id.
      dsimp only at found
      rw [message] at found
      split at found
      · cases found
        rfl
      · have known := (opened.marked user row queuedRun assistant found mark named).known
        rw [← same] at known
        exact absurd known (Nat.not_lt.mpr (Nat.le_succ _))
    · exact answered.queued reply old same chat
  · intro reply mem
    obtain rfl | old := List.mem_cons.mp mem
    · exact ⟨Nat.lt_succ_self _, Option.eq_none_iff_forall_ne_some.mpr beyond⟩
    · exact asked.queueing reply old
  · intro run runner found
    refine { asked.runners run runner found with inserted := fun reply mem => ?_ }
    obtain rfl | old := List.mem_cons.mp mem
    · have known := (sound.runners run runner found).known
      exact fun same => absurd (same ▸ known) (Nat.not_lt.mpr (Nat.le_succ _))
    · exact (asked.runners run runner found).inserted reply old

theorem Sound.queueAssistant {id : Nat}
    (stepped : step sidecar (.queueAssistant id) = some sidecar') : Sound sidecar' := by
  obtain ⟨reply, here, rfl⟩ := Option.map_eq_some_iff.mp stepped
  have same : reply.id = id := by simpa using List.find?_some here
  have mem : reply ∈ sidecar.queueing := List.mem_of_find?_eq_some here
  obtain ⟨known, absent⟩ := sound.queueing reply mem
  have rest : Sound { sidecar with
      queueing := sidecar.queueing.filter fun other => other.id ≠ id } := by
    refine { sound with marked := ?_, queueing := ?_, runners := ?_ }
    · intro user row queuedRun assistant found mark named
      have answered := sound.marked user row queuedRun assistant found mark named
      exact { answered with
        queued := fun other mem => answered.queued other (List.mem_filter.mp mem).1 }
    · exact fun other mem => sound.queueing other (List.mem_filter.mp mem).1
    · intro run runner found
      have runs := sound.runners run runner found
      exact { runs with
        inserted := fun other mem => runs.inserted other (List.mem_filter.mp mem).1 }
  cases inserted : sidecar.database.insertMessage id
      { chatId := reply.chatId, role := .assistant, content := [], sequence := reply.sequence,
        metadata := emptyMetadata } with
  | none => exact rest
  | some database =>
    refine rest.insertMessage inserted (Nat.le_refl _) (same ▸ known) ?_ ?_ ?_ nofun
    · exact fun other mem => of_decide_eq_true (List.mem_filter.mp mem).2
    · exact fun run runner found named =>
        (sound.runners run runner found).inserted reply mem (same.trans named.symm)
    · intro user row queuedRun found mark named chat
      exact (sound.marked user row queuedRun id found mark named).queued reply mem same chat

theorem sound_step {action : Action} (stepped : step sidecar action = some sidecar') :
    Sound sidecar' := by
  cases action with
  | queueUser chatId sequence content metadata idempotencyKey => exact sound.queueUser stepped
  | queueAssistant id => exact sound.queueAssistant stepped
  | claim run chatId user assistant =>
    obtain ⟨-, stepped⟩ := Option.ite_none_right_eq_some.mp stepped
    obtain ⟨database, claimed, rfl⟩ := Option.map_eq_some_iff.mp stepped
    exact sound.claim claimed
  | runner run action =>
    obtain ⟨runner, found, stepped⟩ := Option.bind_eq_some_iff.mp stepped
    obtain ⟨⟨database, phase⟩, called, rfl⟩ := Option.map_eq_some_iff.mp stepped
    exact sound.runnerStep found called
  | edit chatId user expectedContent content metadata =>
    obtain ⟨database, rewritten, rfl⟩ := Option.map_eq_some_iff.mp stepped
    exact sound.edit rewritten
  | delete chatId =>
    cases stepped
    exact sound.delete chatId
  | cancel run =>
    obtain ⟨runner, -, rfl⟩ := Option.map_eq_some_iff.mp stepped
    exact sound.clear runner.chatId runner.user runner.assistant run
  | requeue run =>
    obtain ⟨runner, -, rfl⟩ := Option.map_eq_some_iff.mp stepped
    exact sound.requeue runner.chatId runner.user runner.assistant run
  | clearChat chatId =>
    cases stepped
    refine sound.setChats ?_
    unfold Database.clearChatQueuedRun
    split <;> rfl

end Steps

/-! ## A run that was taken away -/

/-- The runner does not own its run, and what it was about to update is gone. -/
def Lost (run : Nat) (sidecar : Sidecar) : Prop :=
  ∃ runner, sidecar.runners.lookup run = some runner ∧
    runnerStillOwnsTurn runner run sidecar.database = false ∧
    ∀ content metadata, runner.phase = .updating content metadata →
      sidecar.database.message runner.assistant = none

/-- A message that marks no run of a runner there is. -/
def Unclaimed (sidecar : Sidecar) (row : Message) : Prop :=
  ∀ queuedRun, row.queuedRun = some queuedRun → queuedRun.status = .running →
    ∃ run, queuedRun.runId = some run ∧ sidecar.runners.lookup run = none

/-- Where a message comes from that is there after a step. -/
def Origin (sidecar : Sidecar) (id : Nat) (row' : Message) : Prop :=
  (∃ row, sidecar.database.message id = some row ∧ (row' = row ∨ Unclaimed sidecar row')) ∨
    (sidecar.nextId ≤ id ∨ ∃ reply ∈ sidecar.queueing, reply.id = id) ∧ Unclaimed sidecar row'

section Origins

variable {sidecar sidecar' : Sidecar}

theorem Origin.kept {id : Nat} {row : Message} (found : sidecar.database.message id = some row) :
    Origin sidecar id row :=
  .inl ⟨row, found, .inl rfl⟩

theorem unclaimed_of_none {row : Message} (none : row.queuedRun = none) :
    Unclaimed sidecar row := by
  intro queuedRun mark
  cases none.symm.trans mark

/-- One message is written, and it marks no run of a runner there is. -/
theorem origin_setMessage {id other : Nat} {row row' row₁ : Message}
    (found : sidecar.database.message id = some row) (unclaimed : Unclaimed sidecar row')
    (found₁ : (sidecar.database.setMessage id row').message other = some row₁) :
    Origin sidecar other row₁ := by
  rw [Database.message_setMessage] at found₁
  split at found₁
  · next same =>
    cases found₁
    exact .inl ⟨row, same ▸ found, .inr unclaimed⟩
  · exact .kept found₁

theorem origin_clear {chatId user assistant run other : Nat} {row' : Message}
    (found' : (sidecar.database.clearRemoteQueuedRunIfOwned chatId user assistant run).message
      other = some row') : Origin sidecar other row' := by
  unfold Database.clearRemoteQueuedRunIfOwned at found'
  split at found'
  · next row found =>
    split at found'
    · exact origin_setMessage found (unclaimed_of_none rfl) found'
    · exact .kept found'
  · exact .kept found'

theorem origin_requeue {chatId user assistant run other : Nat} {row' : Message}
    (found' : (sidecar.database.requeueRemoteQueuedRunIfOwned chatId user assistant run).message
      other = some row') : Origin sidecar other row' := by
  unfold Database.requeueRemoteQueuedRunIfOwned at found'
  split at found'
  · next row found =>
    split at found'
    · refine origin_setMessage found ?_ found'
      intro queuedRun mark running
      obtain ⟨old, -, rfl⟩ := Option.map_eq_some_iff.mp mark
      cases running
    · exact .kept found'
  · exact .kept found'

theorem origin_claim {chatId user assistant run other : Nat} {database : Database} {row' : Message}
    (fresh : sidecar.runners.lookup run = none)
    (claimed : sidecar.database.claimRemoteQueuedRun chatId user assistant run = some database)
    (found' : database.message other = some row') : Origin sidecar other row' := by
  unfold Database.claimRemoteQueuedRun at claimed
  split at claimed
  · next row reply found _ =>
    obtain ⟨-, claimed⟩ := Option.ite_none_right_eq_some.mp claimed
    obtain ⟨queuedRun, -, claimed⟩ := Option.bind_eq_some_iff.mp claimed
    obtain ⟨-, claimed⟩ := Option.ite_none_right_eq_some.mp claimed
    split at claimed
    · cases claimed
      refine origin_setMessage found ?_ found'
      intro queuedRun' mark _
      cases mark
      exact ⟨run, rfl, fresh⟩
    · obtain ⟨-, same⟩ := Option.ite_none_right_eq_some.mp claimed
      cases same
      exact .kept found'
    · cases claimed
  · cases claimed

theorem origin_runnerStep {run other : Nat} {runner : Runner} {action : RunnerAction}
    {database : Database} {phase : RunnerPhase} {row' : Message} (runs : Runs sidecar runner)
    (stepped : runnerStep sidecar.database run runner action = some (database, phase))
    (found' : database.message other = some row') : Origin sidecar other row' := by
  cases action <;> simp only [runnerStep] at stepped
  case check content metadata =>
    obtain ⟨-, same⟩ := Option.ite_none_right_eq_some.mp stepped
    cases same
    exact .kept found'
  case update =>
    split at stepped
    · cases stepped
      unfold Database.updateExistingMessageContent at found'
      split at found'
      · next row found =>
        split at found'
        · exact origin_setMessage found (unclaimed_of_none rfl) found'
        · exact .kept found'
      · exact .kept found'
    · cases stepped
  case recheck =>
    split at stepped
    · cases stepped
      exact .kept found'
    · cases stepped
  case readSequence =>
    split at stepped
    · next content metadata phase₁ => exact absurd phase₁ (runs.noSequencing content metadata)
    · cases stepped
  case upsert =>
    split at stepped
    · next content metadata sequence phase₁ =>
      exact absurd phase₁ (runs.noUpserting content metadata sequence)
    · cases stepped
  case checkClear =>
    obtain ⟨-, same⟩ := Option.ite_none_right_eq_some.mp stepped
    cases same
    exact .kept found'
  case clear =>
    obtain ⟨-, same⟩ := Option.ite_none_right_eq_some.mp stepped
    cases same
    exact origin_clear found'

theorem origin_step {action : Action} (sound : Sound sidecar)
    (stepped : step sidecar action = some sidecar') {other : Nat} {row' : Message}
    (found' : sidecar'.database.message other = some row') : Origin sidecar other row' := by
  cases action with
  | queueUser chatId sequence content metadata idempotencyKey =>
    obtain ⟨database, inserted, rfl⟩ := Option.map_eq_some_iff.mp stepped
    dsimp only at found'
    rw [Database.message_insertMessage inserted] at found'
    split at found'
    · next same =>
      cases found'
      refine .inr ⟨.inl (Nat.le_of_eq same.symm), fun queuedRun mark running => ?_⟩
      cases mark
      cases running
    · rw [Database.message, messages_insertChat] at found'
      exact .kept found'
  | queueAssistant id =>
    obtain ⟨reply, here, rfl⟩ := Option.map_eq_some_iff.mp stepped
    have same : reply.id = id := by simpa using List.find?_some here
    dsimp only at found'
    obtain refused | ⟨database, inserted⟩ := Option.eq_none_or_eq_some
      (sidecar.database.insertMessage id
        { chatId := reply.chatId, role := .assistant, content := [], sequence := reply.sequence,
          metadata := emptyMetadata })
    · rw [refused] at found'
      exact .kept found'
    · rw [inserted, Option.getD_some, Database.message_insertMessage inserted] at found'
      split at found'
      · next here' =>
        cases found'
        exact .inr ⟨.inr ⟨reply, List.mem_of_find?_eq_some here, same.trans here'.symm⟩,
          unclaimed_of_none rfl⟩
      · exact .kept found'
  | claim run chatId user assistant =>
    obtain ⟨fresh, stepped⟩ := Option.ite_none_right_eq_some.mp stepped
    obtain ⟨database, claimed, rfl⟩ := Option.map_eq_some_iff.mp stepped
    exact origin_claim fresh claimed found'
  | runner run action =>
    obtain ⟨runner, found, stepped⟩ := Option.bind_eq_some_iff.mp stepped
    obtain ⟨⟨database, phase⟩, called, rfl⟩ := Option.map_eq_some_iff.mp stepped
    exact origin_runnerStep (sound.runners run runner found) called found'
  | edit chatId user expectedContent content metadata =>
    obtain ⟨database, rewritten, rfl⟩ := Option.map_eq_some_iff.mp stepped
    obtain ⟨row, kept, found, -, -, message, inserted⟩ :=
      Database.rewriteChatFromUserMessage_spec rewritten
    dsimp only at found'
    rw [Database.message_insertMessage inserted] at found'
    split at found'
    · next same =>
      cases found'
      exact .inr ⟨.inl (Nat.le_of_eq same.symm), unclaimed_of_none rfl⟩
    · obtain ⟨rfl, rfl⟩ | ⟨-, found', -⟩ := (message other row').mp found'
      · refine .inl ⟨row, found, .inr fun queuedRun mark running => ?_⟩
        cases mark
        cases running
      · exact .kept found'
  | delete chatId =>
    cases stepped
    dsimp only at found'
    rw [Database.message, Database.deleteChat, Map.lookup_retain] at found'
    exact .kept found'.1
  | cancel run =>
    obtain ⟨runner, -, rfl⟩ := Option.map_eq_some_iff.mp stepped
    exact origin_clear found'
  | requeue run =>
    obtain ⟨runner, -, rfl⟩ := Option.map_eq_some_iff.mp stepped
    exact origin_requeue found'
  | clearChat chatId =>
    cases stepped
    refine .kept ?_
    rw [← found']
    dsimp only
    unfold Database.clearChatQueuedRun
    split <;> rfl

end Origins

section Losing

variable {sidecar sidecar' : Sidecar} {run : Nat} {runner : Runner}

/-- The assistant message of a runner never speaks against its ownership. -/
theorem Runs.owns (runs : Runs sidecar runner) (run : Nat) :
    runnerStillOwnsTurn runner run sidecar.database =
      (sidecar.database.message runner.user).any (marksRun runner run) := by
  have agrees : (sidecar.database.message runner.assistant).all (fun row =>
      row.chatId = runner.chatId ∧ row.role = .assistant) = true :=
    (Option.all_eq_true _ _).mpr fun row found => decide_eq_true (runs.assistant row found)
  simp only [runnerStillOwnsTurn, agrees, true_and, Bool.decide_eq_true]

theorem runnerStep_updating {database database' : Database} {action : RunnerAction}
    {content metadata : Text}
    (stepped : runnerStep database run runner action = some (database', .updating content metadata)) :
    runnerStillOwnsTurn runner run database = true := by
  cases action <;> simp only [runnerStep] at stepped
  case check =>
    obtain ⟨-, same⟩ := Option.ite_none_right_eq_some.mp stepped
    by_contra disowned
    rw [if_neg disowned] at same
    cases same
  case update =>
    split at stepped
    · have same := congrArg Prod.snd (Option.some.inj stepped)
      dsimp only at same
      split at same <;> cases same
    · cases stepped
  case recheck =>
    split at stepped
    · have same := congrArg Prod.snd (Option.some.inj stepped)
      dsimp only at same
      split at same <;> cases same
    · cases stepped
  case readSequence =>
    split at stepped
    · split at stepped <;> cases stepped
    · cases stepped
  case upsert =>
    split at stepped <;> cases stepped
  case checkClear =>
    obtain ⟨-, same⟩ := Option.ite_none_right_eq_some.mp stepped
    split at same <;> cases same
  case clear =>
    obtain ⟨-, same⟩ := Option.ite_none_right_eq_some.mp stepped
    cases same

/-- A runner stays registered, and only its own steps move it. -/
theorem runners_step {action : Action} (stepped : step sidecar action = some sidecar')
    (found : sidecar.runners.lookup run = some runner) :
    ∃ phase, sidecar'.runners.lookup run = some { runner with phase } ∧
      (phase = runner.phase ∨ ∃ called,
        runnerStep sidecar.database run runner called = some (sidecar'.database, phase)) := by
  cases action with
  | queueUser chatId sequence content metadata idempotencyKey =>
    obtain ⟨database, -, rfl⟩ := Option.map_eq_some_iff.mp stepped
    exact ⟨runner.phase, found, .inl rfl⟩
  | queueAssistant id =>
    obtain ⟨reply, -, rfl⟩ := Option.map_eq_some_iff.mp stepped
    exact ⟨runner.phase, found, .inl rfl⟩
  | claim other chatId user assistant =>
    obtain ⟨fresh, stepped⟩ := Option.ite_none_right_eq_some.mp stepped
    obtain ⟨database, -, rfl⟩ := Option.map_eq_some_iff.mp stepped
    refine ⟨runner.phase, ?_, .inl rfl⟩
    dsimp only
    rw [Map.lookup_insert_eq_ite, if_neg, found]
    rintro rfl
    rw [fresh] at found
    cases found
  | runner other called =>
    obtain ⟨runner', found', stepped⟩ := Option.bind_eq_some_iff.mp stepped
    obtain ⟨⟨database, phase⟩, called', rfl⟩ := Option.map_eq_some_iff.mp stepped
    dsimp only
    rw [Map.lookup_insert_eq_ite]
    split
    · next same =>
      subst same
      rw [found] at found'
      cases found'
      exact ⟨phase, rfl, .inr ⟨called, called'⟩⟩
    · exact ⟨runner.phase, found, .inl rfl⟩
  | edit chatId user expectedContent content metadata =>
    obtain ⟨database, -, rfl⟩ := Option.map_eq_some_iff.mp stepped
    exact ⟨runner.phase, found, .inl rfl⟩
  | delete chatId =>
    cases stepped
    exact ⟨runner.phase, found, .inl rfl⟩
  | cancel other =>
    obtain ⟨other, -, rfl⟩ := Option.map_eq_some_iff.mp stepped
    exact ⟨runner.phase, found, .inl rfl⟩
  | requeue other =>
    obtain ⟨other, -, rfl⟩ := Option.map_eq_some_iff.mp stepped
    exact ⟨runner.phase, found, .inl rfl⟩
  | clearChat chatId =>
    cases stepped
    exact ⟨runner.phase, found, .inl rfl⟩

theorem lost_step {action : Action} (sound : Sound sidecar) (sound' : Sound sidecar')
    (lost : Lost run sidecar) (stepped : step sidecar action = some sidecar') :
    Lost run sidecar' := by
  obtain ⟨runner, found, disowned, gone⟩ := lost
  have runs := sound.runners run runner found
  have absent (missing : sidecar.database.message runner.assistant = none) :
      sidecar'.database.message runner.assistant = none := by
    refine Option.eq_none_iff_forall_ne_some.mpr fun row' found' => ?_
    obtain ⟨row, found₁, -⟩ | ⟨fresh | ⟨reply, mem, same⟩, -⟩ := origin_step sound stepped found'
    · cases missing.symm.trans found₁
    · exact absurd runs.known (Nat.not_lt.mpr fresh)
    · exact runs.inserted reply mem same
  have disowned' : runnerStillOwnsTurn runner run sidecar'.database = false := by
    by_contra owned
    obtain ⟨row', found', marks⟩ :=
      (Option.any_eq_true _ _).mp (of_decide_eq_true (Bool.of_not_eq_false owned)).2
    have claimed : ¬Unclaimed sidecar row' := by
      intro unclaimed
      obtain ⟨-, -, queuedRun, mark, -, running, named, -⟩ := marksRun_eq_true.mp marks
      obtain ⟨other, named', none⟩ := unclaimed queuedRun mark running
      cases named.symm.trans named'
      cases none.symm.trans found
    obtain ⟨row, found₁, same | unclaimed⟩ | ⟨-, unclaimed⟩ := origin_step sound stepped found'
    · rw [runs.owns, found₁, Option.any_some, ← same, marks] at disowned
      cases disowned
    · exact claimed unclaimed
    · exact claimed unclaimed
  obtain ⟨phase, found', moved⟩ := runners_step stepped found
  refine ⟨{ runner with phase }, found', disowned', fun content metadata updating => ?_⟩
  obtain same | ⟨called, called'⟩ := moved
  · exact absent (gone content metadata (same.symm.trans updating))
  · dsimp only at updating
    rw [updating] at called'
    rw [runnerStep_updating called'] at disowned
    cases disowned

/-- The runner of a lost run reads, finds no row, or finds that it does not own the run. -/
theorem lost_runnerStep {action : RunnerAction} {database : Database} {phase : RunnerPhase}
    (sound : Sound sidecar) (lost : Lost run sidecar)
    (found : sidecar.runners.lookup run = some runner)
    (stepped : runnerStep sidecar.database run runner action = some (database, phase)) :
    database = sidecar.database := by
  obtain ⟨runner', found', disowned, gone⟩ := lost
  rw [found] at found'
  cases found'
  have runs := sound.runners run runner found
  cases action <;> simp only [runnerStep] at stepped
  case check =>
    obtain ⟨-, same⟩ := Option.ite_none_right_eq_some.mp stepped
    cases same
    rfl
  case update =>
    split at stepped
    · next content metadata updating =>
      rw [Database.updateExistingMessageContent, gone content metadata updating] at stepped
      cases stepped
      rfl
    · cases stepped
  case recheck =>
    split at stepped
    · cases stepped
      rfl
    · cases stepped
  case readSequence =>
    split at stepped
    · next content metadata phase₁ => exact absurd phase₁ (runs.noSequencing content metadata)
    · cases stepped
  case upsert =>
    split at stepped
    · next content metadata sequence phase₁ =>
      exact absurd phase₁ (runs.noUpserting content metadata sequence)
    · cases stepped
  case checkClear =>
    obtain ⟨-, same⟩ := Option.ite_none_right_eq_some.mp stepped
    cases same
    rfl
  case clear =>
    obtain ⟨-, same⟩ := Option.ite_none_right_eq_some.mp stepped
    cases same
    unfold Database.clearRemoteQueuedRunIfOwned
    split
    · next row stored =>
      rw [if_neg]
      intro carries
      -- Who carries the owner marks the run.
      obtain ⟨chat, role, carried⟩ := of_decide_eq_true carries
      obtain ⟨queuedRun, mark, carried⟩ := (Option.any_eq_true _ _).mp carried
      obtain ⟨running, user, assistant, owner⟩ := of_decide_eq_true carried
      have marks : marksRun runner run row = true :=
        marksRun_eq_true.mpr ⟨chat, role, queuedRun, mark, assistant, running, owner, by
          rw [user]
          exact decide_eq_true rfl⟩
      rw [runs.owns, stored, Option.any_some, marks] at disowned
      cases disowned
    · rfl

/-- A change takes the run away before an update only with the assistant message, when it keeps the
user message wherever it keeps that one. -/
theorem lost_of_change {database : Database} {nextId : Nat} {row : Message}
    (sound' : Sound { sidecar with database, nextId })
    (found : sidecar.runners.lookup run = some runner) (marks : marksRun runner run row = true)
    (disowned : owns run { sidecar with database, nextId } = false)
    (keeps : ∀ content metadata, runner.phase = .updating content metadata →
      ∀ reply, database.message runner.assistant = some reply →
        database.message runner.user = some row) :
    Lost run { sidecar with database, nextId } := by
  have runs := sound'.runners run runner found
  rw [owns, found, Option.any_some] at disowned
  refine ⟨runner, found, disowned, fun content metadata updating => ?_⟩
  refine Option.eq_none_iff_forall_ne_some.mpr fun reply stays => ?_
  have user := keeps content metadata updating reply stays
  rw [runs.owns run, user, Option.any_some, marks] at disowned
  cases disowned

theorem lost_of_competitor {competitor : Action} (sound : Sound sidecar)
    (allowed : cancelsBetweenWrites sidecar competitor = true)
    (stepped : step sidecar competitor = some sidecar') (competes : competitor.competes = true)
    (owned : owns run sidecar = true) (disowned : owns run sidecar' = false) :
    Lost run sidecar' := by
  obtain ⟨runner, found, owned⟩ := (Option.any_eq_true _ _).mp owned
  have runs := sound.runners run runner found
  obtain ⟨row, user, marks⟩ := (Option.any_eq_true _ _).mp (runs.owns run ▸ owned)
  obtain ⟨-, -, queuedRun, mark, named, running, owner, -⟩ := marksRun_eq_true.mp marks
  have answered := sound.marked runner.user row queuedRun runner.assistant user mark named
  obtain ⟨reply, assistant, chat⟩ := answered.stored running
  have next := answered.next reply assistant chat
  have sound' := sound_step sound stepped
  cases competitor <;> simp only [Action.competes, Bool.false_eq_true] at competes
  case edit chatId edited expectedContent content metadata =>
    obtain ⟨database, rewritten, rfl⟩ := Option.map_eq_some_iff.mp stepped
    refine lost_of_change sound' found marks disowned fun _ _ _ reply' stays => ?_
    obtain ⟨row₀, kept, edited', chat₀, role₀, message, inserted⟩ :=
      Database.rewriteChatFromUserMessage_spec rewritten
    have old : ∀ id row', sidecar.database.message id = some row' →
        database.message id = kept.message id := by
      intro id row' found'
      rw [Database.message_insertMessage inserted, if_neg]
      exact Nat.ne_of_lt (sound.known id row' found')
    rw [old _ reply assistant] at stays
    rw [old _ row user]
    obtain ⟨same, -⟩ | ⟨-, stays, before⟩ := (message _ _).mp stays
    · -- The edited message is a user message.
      rw [← same] at edited'
      have role := (runs.assistant row₀ edited').2
      rw [role₀] at role
      cases role
    · cases assistant.symm.trans stays
      rw [chat] at before
      refine (message _ _).mpr (.inr ⟨fun same => ?_, user, before.imp_right fun below => ?_⟩)
      · rw [same, edited'] at user
        cases user
        have below := before.resolve_left (not_not.mpr chat₀)
        omega
      · omega
  case delete chatId =>
    cases stepped
    refine lost_of_change sound' found marks disowned fun _ _ _ reply' stays => ?_
    rw [Database.message, Database.deleteChat, Map.lookup_retain, decide_eq_true_iff] at stays ⊢
    cases assistant.symm.trans stays.1
    exact ⟨user, chat ▸ stays.2⟩
  case cancel other =>
    obtain ⟨canceller, found', rfl⟩ := Option.map_eq_some_iff.mp stepped
    refine lost_of_change sound' found marks disowned fun content metadata updating _ _ => ?_
    refine Database.message_clearRemoteQueuedRunIfOwned user ?_
    by_contra carries
    obtain ⟨-, -, carried⟩ := of_decide_eq_true (Bool.of_not_eq_false carries)
    obtain ⟨queuedRun', mark', carried⟩ := (Option.any_eq_true _ _).mp carried
    obtain ⟨-, -, -, owner'⟩ := of_decide_eq_true carried
    -- Who carries the owner of the cancelled run is its user message.
    cases mark.symm.trans mark'
    cases owner.symm.trans owner'
    cases found.symm.trans found'
    rw [cancelsBetweenWrites, found, Option.all_some, updating] at allowed
    dsimp only at allowed
    rw [owned] at allowed
    cases allowed

end Losing

theorem sound_of_reachable {start sidecar : Sidecar} {allowed : Sidecar → Action → Prop}
    (sound : Sound start) (reached : (sidecarMachine start).ReachableWhile allowed sidecar) :
    Sound sidecar := by
  have keep : ∀ sidecar action sidecar', Sound sidecar → allowed sidecar action →
      step sidecar action = some sidecar' → Sound sidecar' :=
    fun _ _ _ sound _ stepped => sound_step sound stepped
  exact reached.invariant sound keep

/-- When no cancellation falls between the reading of the ownership and the update, a run that was
taken away keeps out. -/
theorem keepsOut_of_cancelsBetweenWrites {before taken later after : Sidecar}
    {competitor : Action} {run : Nat} {runner : Runner} {action : RunnerAction}
    (reached : (sidecarMachine {}).ReachableWhile
      (fun sidecar action => cancelsBetweenWrites sidecar action = true) before)
    (allowed : cancelsBetweenWrites before competitor = true)
    (stepped : step before competitor = some taken) (competes : competitor.competes = true)
    (owned : owns run before = true) (disowned : owns run taken = false)
    (reachedLater : (sidecarMachine taken).ReachableWhile
      (fun sidecar action => cancelsBetweenWrites sidecar action = true) later)
    (found : later.runners.lookup run = some runner)
    (runnerStepped : step later (.runner run action) = some after) :
    Leaves run runner later.database after.database := by
  have sound := sound_of_reachable sound_start reached
  have soundTaken := sound_step sound stepped
  have lost := lost_of_competitor sound allowed stepped competes owned disowned
  have keep : ∀ sidecar action sidecar', Sound sidecar ∧ Lost run sidecar →
      cancelsBetweenWrites sidecar action = true → step sidecar action = some sidecar' →
      Sound sidecar' ∧ Lost run sidecar' := by
    intro sidecar action sidecar' ⟨sound, lost⟩ _ stepped
    have sound' := sound_step sound stepped
    exact ⟨sound', lost_step sound sound' lost stepped⟩
  obtain ⟨soundLater, lostLater⟩ := reachedLater.invariant ⟨soundTaken, lost⟩ keep
  obtain ⟨runner', found', stepped'⟩ := Option.bind_eq_some_iff.mp runnerStepped
  cases found.symm.trans found'
  obtain ⟨⟨database, phase⟩, called, rfl⟩ := Option.map_eq_some_iff.mp stepped'
  obtain rfl := lost_runnerStep soundLater lostLater found called
  refine ⟨rfl, fun id row stored _ => ?_, fun id row queuedRun stored mark _ => ?_⟩
  · dsimp only at stored
    rw [stored, Option.isSome_some]
  · dsimp only
    rw [stored, Option.bind_some, mark]

section Runs

/-- Run 5 of message 0 in chat 0 has read its ownership. -/
private def aboutToUpdate : List Action :=
  [.queueUser 0 0 [] [] none, .queueAssistant 1, .claim 5 0 0 1, .runner 5 (.check ['x'] [])]

/-- The run is cancelled there, and its runner goes on. -/
private def cancelledUpdate : Option (Sidecar × Sidecar × Sidecar) :=
  ((sidecarMachine {}).run {} aboutToUpdate).bind fun before =>
    (step before (.cancel 5)).bind fun taken =>
      (step taken (.runner 5 .update)).map fun after => (before, taken, after)

/-- The same with the deletion of the chat. -/
private def deletedUpdate : Option (Sidecar × Sidecar × Sidecar) :=
  ((sidecarMachine {}).runWhile cancelsBetweenWrites {} aboutToUpdate).bind fun before =>
    (step before (.delete 0)).bind fun taken =>
      (step taken (.runner 5 .update)).map fun after => (before, taken, after)

theorem keepsOut_deleted : ∃ taken runner after,
    taken.runners.lookup 5 = some runner ∧ step taken (.runner 5 .update) = some after ∧
      Leaves 5 runner taken.database after.database := by
  have checks : deletedUpdate.any (fun (before, taken, _) =>
      owns 5 before && !owns 5 taken && (taken.runners.lookup 5).isSome) = true := by
    decide
  obtain ⟨⟨before, taken, after⟩, states, checks⟩ := (Option.any_eq_true _ _).mp checks
  rw [deletedUpdate] at states
  obtain ⟨before', run, states⟩ := Option.bind_eq_some_iff.mp states
  obtain ⟨taken', deleted, states⟩ := Option.bind_eq_some_iff.mp states
  obtain ⟨after', updated, states⟩ := Option.map_eq_some_iff.mp states
  cases states
  simp only [Bool.and_eq_true, Bool.not_eq_true'] at checks
  obtain ⟨⟨owned, disowned⟩, known⟩ := checks
  obtain ⟨runner, found⟩ := Option.isSome_iff_exists.mp known
  exact ⟨taken, runner, after, found, updated,
    keepsOut_of_cancelsBetweenWrites (Machine.reachableWhile_of_runWhile .start run) rfl deleted
      rfl owned disowned .start found updated⟩

/-- A runner that has read its ownership writes the message of a cancelled run. -/
theorem not_keepsOut : ¬ KeepsOut fun _ _ => True := by
  intro keepsOut
  have writes : cancelledUpdate.any (fun (before, taken, after) =>
      owns 5 before && !owns 5 taken &&
      (taken.runners.lookup 5).any (fun runner => runner.assistant = 1) &&
      (taken.database.message 1).any (fun row => row.content = []) &&
      (after.database.message 1).any (fun row => row.content = ['x'])) = true := by
    decide
  obtain ⟨⟨before, taken, after⟩, states, checks⟩ := (Option.any_eq_true _ _).mp writes
  rw [cancelledUpdate] at states
  obtain ⟨before', run, states⟩ := Option.bind_eq_some_iff.mp states
  obtain ⟨taken', cancelled, states⟩ := Option.bind_eq_some_iff.mp states
  obtain ⟨after', updated, states⟩ := Option.map_eq_some_iff.mp states
  cases states
  simp only [Bool.and_eq_true, Bool.not_eq_true', Option.any_eq_true, decide_eq_true_eq] at checks
  obtain ⟨⟨⟨⟨owned, disowned⟩, runner, found, assistant⟩, row, stored, empty⟩, row', stored',
    written⟩ := checks
  have leaves := keepsOut before (.cancel 5) taken 5 taken runner .update after
    (Machine.reachable_of_run .start run) trivial cancelled rfl owned disowned .start found updated
  have same := leaves.assistant
  rw [assistant, stored, stored', Option.map_some, Option.map_some, written, empty] at same
  cases same

end Runs

end Foco.RunOwnership
