import Mathlib.Data.List.Sort
import Foco.RemoteChats
import Foco.Runs

/-!
`app/remote_workspace.rs`, `remote_sidecar_chat_queue`: requests that queue a turn, each a few
database calls with those of others between them. A request that comes again is meant to be found by
its idempotency key.
-/
namespace Foco.ChatQueue
open Foco.Maps Foco.RustText Foco.Runs Foco.RemoteChats
open Foco.RemoteChats.Database (emptyMetadata)

/-! ## Requests -/

/-- What a request to queue says about its key, with the id of its chat settled. -/
structure QueuePayload where
  chatId : Nat
  message : Text
  modelId : Text
  providerId : Option Text
  sessionMode : Option Text
  idempotencyKey : Option Text

/-- The text of a chat id, `Sha256` in hexadecimal digits, and the metadata with the parts of a
message. -/
structure QueueTexts where
  chatIdText : Nat → Text
  sha256Hex : Text → Text
  partsMetadata : Text → Text

/-- The text behind the key of a request that names none. -/
def keyFallback (texts : QueueTexts) (payload : QueuePayload) : Text :=
  "queue:".toList ++ texts.chatIdText payload.chatId ++ ':' :: payload.message ++
    ':' :: payload.modelId ++ ':' :: payload.providerId.getD [] ++ ':' :: payload.sessionMode.getD []

/-- `remote_idempotency_key`. -/
def remoteIdempotencyKey (texts : QueueTexts) (payload : QueuePayload) : Text :=
  (payload.idempotencyKey.filter fun key => !key.isEmpty).getD
    ("sha256:".toList ++ texts.sha256Hex (keyFallback texts payload))

/-- The database call that comes next, or how the request ended. -/
inductive QueuePhase where
  | lookUp
  | create
  | reload
  | scan
  | readSequence
  | insertUser (user assistant sequence : Nat)
  | insertAssistant (user assistant sequence : Nat)
  | done (user : Nat) (assistant : Option Nat)
  | failed
  deriving DecidableEq

/-- A request; recorded are the ids of the messages it inserts, once the first one is. -/
structure Request where
  payload : QueuePayload
  phase : QueuePhase := .lookUp
  inserted : Option (Nat × Nat) := none

structure Queueing where
  database : Database
  nextId : Nat
  requests : Map Nat Request := ∅

/-- `messages_for_chat`, where no message is hidden. -/
def messagesForChat (chatId : Nat) (database : Database) : List (Sigma fun _ : Nat => Message) :=
  (database.messages.entries.filter fun entry => entry.2.chatId = chatId).insertionSort
    fun first second => first.2.sequence ≤ second.2.sequence

/-- Whether a message is queued under a key. -/
def hasKey (key : Text) (row : Message) : Bool :=
  row.queuedRun.any fun queuedRun => queuedRun.idempotencyKey = some key

/-- The user message of a request. -/
def queuedMessage (texts : QueueTexts) (payload : QueuePayload) (user assistant sequence : Nat) :
    Message :=
  { chatId := payload.chatId, role := .user, content := payload.message, sequence
    metadata := texts.partsMetadata payload.message
    queuedRun := some
      { status := .queued, userMessageId := some user, assistantMessageId := some assistant,
        idempotencyKey := some (remoteIdempotencyKey texts payload) } }

/-- The assistant message that waits for the run. -/
def waitingReply (payload : QueuePayload) (sequence : Nat) : Message :=
  { chatId := payload.chatId, role := .assistant, content := [], sequence, metadata := emptyMetadata }

/-- The next database call of a request. -/
def advance (texts : QueueTexts) (queueing : Queueing) (number : Nat) (request : Request) :
    Option Queueing :=
  let chatId := request.payload.chatId
  let goes (database : Database) (request : Request) : Queueing :=
    { queueing with database, requests := queueing.requests.insert number request }
  match request.phase with
  | .lookUp =>
    let phase := if (queueing.database.chats.lookup chatId).isSome then .scan else .create
    some (goes queueing.database { request with phase })
  | .create =>
    some <| match queueing.database.insertChat chatId with
    | some database => goes database { request with phase := .reload }
    | none => goes queueing.database { request with phase := .failed }
  | .reload =>
    let phase := if (queueing.database.chats.lookup chatId).isSome then .scan else .failed
    some (goes queueing.database { request with phase })
  | .scan =>
    let key := remoteIdempotencyKey texts request.payload
    let phase := match (messagesForChat chatId queueing.database).find? fun entry =>
        hasKey key entry.2 with
      | some existing =>
        .done existing.1 (existing.2.queuedRun.bind QueuedRun.assistantMessageId)
      | none => .readSequence
    some (goes queueing.database { request with phase })
  | .readSequence =>
    let user := queueing.nextId
    let assistant := queueing.nextId + 1
    some <| match queueing.database.nextMessageSequence chatId with
    | some sequence =>
      { goes queueing.database { request with phase := .insertUser user assistant sequence } with
        nextId := queueing.nextId + 2 }
    | none => goes queueing.database { request with phase := .failed }
  | .insertUser user assistant sequence =>
    some <| match queueing.database.insertMessage user
        (queuedMessage texts request.payload user assistant sequence) with
    | some database =>
      goes database { request with
        phase := .insertAssistant user assistant (sequence + 1)
        inserted := some (user, assistant) }
    | none => goes queueing.database { request with phase := .failed }
  | .insertAssistant user assistant sequence =>
    some <| match queueing.database.insertMessage assistant
        (waitingReply request.payload sequence) with
    | some database => goes database { request with phase := .done user (some assistant) }
    | none => goes queueing.database { request with phase := .failed }
  | .done .. | .failed => none

inductive Action where
  | arrive (number : Nat) (payload : QueuePayload)
  | advance (number : Nat)
  /-- The next database call returns an error. -/
  | fail (number : Nat)

def step (texts : QueueTexts) (queueing : Queueing) : Action → Option Queueing
  | .arrive number payload =>
    if queueing.requests.lookup number = none then
      some { queueing with requests := queueing.requests.insert number { payload } }
    else none
  | .advance number =>
    (queueing.requests.lookup number).bind (ChatQueue.advance texts queueing number)
  | .fail number =>
    (queueing.requests.lookup number).bind fun request =>
      match request.phase with
      | .done .. | .failed => none
      | _ =>
        some { queueing with
          requests := queueing.requests.insert number { request with phase := .failed } }

/-- Any number of requests over a database, in any order. -/
def queueMachine (texts : QueueTexts) (database : Database) (nextId : Nat) :
    Machine Queueing Action where
  start := { database, nextId }
  step := step texts

/-! ## What the key is for -/

/-- No chat has two messages at one sequence. -/
def DistinctSequences (database : Database) : Prop :=
  ∀ id other row row', database.message id = some row → database.message other = some row' →
    row'.chatId = row.chatId → row'.sequence = row.sequence → other = id

/-- No chat has two messages that are queued under one key. -/
def DistinctKeys (database : Database) : Prop :=
  ∀ key id other row row', database.message id = some row → database.message other = some row' →
    row'.chatId = row.chatId → hasKey key row = true → hasKey key row' = true → other = id

/-- Requests with one key queue one message and report it, sequences stay distinct, and a request
that fails leaves no message without its reply. -/
structure QueuesOnce (texts : QueueTexts) (queueing : Queueing) : Prop where
  oneMessage : DistinctKeys queueing.database
  sameIds : ∀ number other request request' user user' assistant assistant',
    queueing.requests.lookup number = some request →
    queueing.requests.lookup other = some request' →
    request'.payload.chatId = request.payload.chatId →
    remoteIdempotencyKey texts request'.payload = remoteIdempotencyKey texts request.payload →
    request.phase = .done user assistant → request'.phase = .done user' assistant' →
    user' = user ∧ assistant' = assistant
  sequences : DistinctSequences queueing.database
  noOrphan : ∀ number request user assistant,
    queueing.requests.lookup number = some request → request.phase = .failed →
    request.inserted = some (user, assistant) → (queueing.database.message user).isSome →
    (queueing.database.message assistant).isSome

/-- Between the scan and the user insert. -/
def Request.beyondScan (request : Request) : Bool :=
  match request.phase with
  | .readSequence | .insertUser .. => true
  | _ => false

/-- A request scans only while no other one with its key in its chat has scanned and not inserted,
and no error comes between the two inserts. -/
def queuesInTurn (texts : QueueTexts) (queueing : Queueing) : Action → Bool
  | .arrive .. => true
  | .advance number =>
    (queueing.requests.lookup number).all fun request =>
      match request.phase with
      | .scan => queueing.requests.any (fun _ other =>
          other.beyondScan && other.payload.chatId = request.payload.chatId &&
          remoteIdempotencyKey texts other.payload =
            remoteIdempotencyKey texts request.payload) = false
      | .insertAssistant _ assistant sequence =>
        (queueing.database.insertMessage assistant (waitingReply request.payload sequence)).isSome
      | _ => true
  | .fail number =>
    (queueing.requests.lookup number).all fun request =>
      match request.phase with
      | .insertAssistant .. => false
      | _ => true

/-! ## The invariant of requests in turn -/

/-- A message that is there is queued under the key of a request, and names its reply. -/
def Reports (texts : QueueTexts) (database : Database) (payload : QueuePayload) (user : Nat)
    (assistant : Option Nat) : Prop :=
  ∃ row queuedRun, database.message user = some row ∧ row.chatId = payload.chatId ∧
    row.queuedRun = some queuedRun ∧
    queuedRun.idempotencyKey = some (remoteIdempotencyKey texts payload) ∧
    queuedRun.assistantMessageId = assistant

/-- Beyond its scan a request has seen that its key is new; with its user message inserted, or at
its end, that message reports it. -/
structure Behaves (texts : QueueTexts) (database : Database) (request : Request) : Prop where
  scanned : request.beyondScan = true → ∀ id row, database.message id = some row →
    row.chatId = request.payload.chatId →
    hasKey (remoteIdempotencyKey texts request.payload) row = false
  asking : ∀ user assistant sequence, request.phase = .insertAssistant user assistant sequence →
    Reports texts database request.payload user (some assistant)
  done : ∀ user assistant, request.phase = .done user assistant →
    Reports texts database request.payload user assistant
  inserted : ∀ user assistant, request.inserted = some (user, assistant) →
    (∃ sequence, request.phase = .insertAssistant user assistant sequence) ∨
      (database.message assistant).isSome

structure Sound (texts : QueueTexts) (queueing : Queueing) : Prop where
  sequences : DistinctSequences queueing.database
  keys : DistinctKeys queueing.database
  requests : ∀ number request, queueing.requests.lookup number = some request →
    Behaves texts queueing.database request
  alone : ∀ number other request request', queueing.requests.lookup number = some request →
    queueing.requests.lookup other = some request' → request.beyondScan = true →
    request'.beyondScan = true → request'.payload.chatId = request.payload.chatId →
    remoteIdempotencyKey texts request'.payload = remoteIdempotencyKey texts request.payload →
    other = number

variable {texts : QueueTexts} {database database' : Database}

theorem hasKey_iff {key : Text} {row : Message} : hasKey key row = true ↔
    ∃ queuedRun, row.queuedRun = some queuedRun ∧ queuedRun.idempotencyKey = some key := by
  simp only [hasKey, Option.any_eq_true, decide_eq_true_eq]

/-- Only messages are added. -/
def Grows (before after : Database) : Prop :=
  ∀ id row, before.message id = some row → after.message id = some row

theorem grows_insertMessage {id : Nat} {row : Message}
    (inserted : database.insertMessage id row = some database') : Grows database database' := by
  intro other row' found
  rw [Database.message_insertMessage inserted, if_neg, found]
  rintro rfl
  rw [(Database.insertMessage_spec inserted).1] at found
  cases found

theorem Reports.grows {payload : QueuePayload} {user : Nat} {assistant : Option Nat}
    (reports : Reports texts database payload user assistant) (grows : Grows database database') :
    Reports texts database' payload user assistant := by
  obtain ⟨row, queuedRun, found, rest⟩ := reports
  exact ⟨row, queuedRun, grows user row found, rest⟩

/-- A message under another key, or in another chat, disturbs no request. -/
theorem Behaves.grows {request : Request} (behaves : Behaves texts database request)
    (grows : Grows database database')
    (scanned : request.beyondScan = true → ∀ id row, database'.message id = some row →
      row.chatId = request.payload.chatId →
      hasKey (remoteIdempotencyKey texts request.payload) row = false) :
    Behaves texts database' request := by
  refine ⟨scanned, ?_, ?_, ?_⟩
  · exact fun user assistant sequence phase =>
      (behaves.asking user assistant sequence phase).grows grows
  · exact fun user assistant phase => (behaves.done user assistant phase).grows grows
  · intro user assistant recorded
    refine (behaves.inserted user assistant recorded).imp_right fun stored => ?_
    obtain ⟨row, found⟩ := Option.isSome_iff_exists.mp stored
    rw [grows assistant row found, Option.isSome_some]

/-- A request in a phase that promises nothing. -/
theorem Behaves.idle {request : Request} (behaves : Behaves texts database request)
    {phase : QueuePhase} (settled : ∀ user assistant sequence,
      request.phase ≠ .insertAssistant user assistant sequence)
    (early : ({ request with phase } : Request).beyondScan = false)
    (asks : ∀ user assistant sequence, phase ≠ .insertAssistant user assistant sequence)
    (ends : ∀ user assistant, phase ≠ .done user assistant) :
    Behaves texts database { request with phase } := by
  refine ⟨fun beyond => ?_, fun user assistant sequence same => absurd same (asks _ _ _),
    fun user assistant same => absurd same (ends _ _), fun user assistant recorded => ?_⟩
  · cases early.symm.trans beyond
  · refine (behaves.inserted user assistant recorded).imp_left fun ⟨sequence, same⟩ => ?_
    exact absurd same (settled _ _ _)

section Steps

variable {queueing queueing' : Queueing} (sound : Sound texts queueing)
include sound

/-- One request moves, and the database grows. -/
theorem Sound.goes {number nextId : Nat} {request : Request}
    (grows : Grows queueing.database database) (sequences : DistinctSequences database)
    (keys : DistinctKeys database) (behaves : Behaves texts database request)
    (scanned : ∀ other request', other ≠ number →
      queueing.requests.lookup other = some request' → request'.beyondScan = true →
      ∀ id row, database.message id = some row → row.chatId = request'.payload.chatId →
        hasKey (remoteIdempotencyKey texts request'.payload) row = false)
    (alone : request.beyondScan = true → ∀ other request', other ≠ number →
      queueing.requests.lookup other = some request' → request'.beyondScan = true →
      request'.payload.chatId = request.payload.chatId →
      remoteIdempotencyKey texts request'.payload ≠ remoteIdempotencyKey texts request.payload) :
    Sound texts { database, nextId, requests := queueing.requests.insert number request } := by
  refine ⟨sequences, keys, ?_, ?_⟩
  · intro other request' found
    dsimp only at found
    rw [Map.lookup_insert_eq_ite] at found
    split at found
    · cases found
      exact behaves
    · next apart =>
      exact (sound.requests other request' found).grows grows (scanned other request' apart found)
  · intro first second request₁ request₂ found₁ found₂ beyond₁ beyond₂ chat key
    dsimp only at found₁ found₂
    rw [Map.lookup_insert_eq_ite] at found₁ found₂
    split at found₁ <;> split at found₂
    · next same₁ same₂ => rw [same₁, same₂]
    · next apart =>
      cases found₁
      exact absurd key (alone beyond₁ second request₂ apart found₂ beyond₂ chat)
    · next apart _ =>
      cases found₂
      exact absurd key.symm (alone beyond₂ first request₁ apart found₁ beyond₁ chat.symm)
    · exact sound.alone first second request₁ request₂ found₁ found₂ beyond₁ beyond₂ chat key

/-- The same, when no message is added and the request is not beyond its scan. -/
theorem Sound.turns {number nextId : Nat} {request : Request}
    (same : database.messages = queueing.database.messages)
    (behaves : Behaves texts queueing.database request) (early : request.beyondScan = false) :
    Sound texts { database, nextId, requests := queueing.requests.insert number request } := by
  obtain ⟨chats, messages⟩ := database
  subst same
  refine sound.goes (fun _ _ found => found) sound.sequences sound.keys ?_ ?_ ?_
  · exact { behaves with }
  · exact fun other request' _ found => (sound.requests other request' found).scanned
  · exact fun beyond => absurd (early.symm.trans beyond) Bool.false_ne_true

omit sound in
theorem distinctSequences_insertMessage {id : Nat} {row : Message}
    (distinct : DistinctSequences database)
    (inserted : database.insertMessage id row = some database') :
    DistinctSequences database' := by
  obtain ⟨-, free, -⟩ := Database.insertMessage_spec inserted
  have message := Database.message_insertMessage inserted
  intro first second row₁ row₂ found₁ found₂ chat sequence
  rw [message] at found₁ found₂
  split at found₁ <;> split at found₂
  · next same₁ same₂ => rw [same₁, same₂]
  · cases found₁
    exact absurd sequence (free second row₂ found₂ chat)
  · cases found₂
    exact absurd sequence.symm (free first row₁ found₁ chat.symm)
  · exact distinct first second row₁ row₂ found₁ found₂ chat sequence

omit sound in
theorem distinctKeys_insertMessage {id : Nat} {row : Message} (distinct : DistinctKeys database)
    (inserted : database.insertMessage id row = some database')
    (new : ∀ key other row', database.message other = some row' → row'.chatId = row.chatId →
      hasKey key row = true → hasKey key row' = false) : DistinctKeys database' := by
  have message := Database.message_insertMessage inserted
  intro key first second row₁ row₂ found₁ found₂ chat key₁ key₂
  rw [message] at found₁ found₂
  split at found₁ <;> split at found₂
  · next same₁ same₂ => rw [same₁, same₂]
  · cases found₁
    rw [new key second row₂ found₂ chat key₁] at key₂
    cases key₂
  · cases found₂
    rw [new key first row₁ found₁ chat.symm key₂] at key₁
    cases key₁
  · exact distinct key first second row₁ row₂ found₁ found₂ chat key₁ key₂

omit sound in
theorem mem_messagesForChat {chatId : Nat} {entry : Sigma fun _ : Nat => Message} :
    entry ∈ messagesForChat chatId database ↔
      database.message entry.1 = some entry.2 ∧ entry.2.chatId = chatId := by
  rw [messagesForChat, List.mem_insertionSort, List.mem_filter, decide_eq_true_iff,
    Map.mem_entries_iff]
  rfl

/-- A request scans while no other one with its key has scanned. -/
theorem Sound.scan {number : Nat} {request : Request}
    (found : queueing.requests.lookup number = some request) (here : request.phase = .scan)
    (meets : queuesInTurn texts queueing (.advance number) = true)
    (stepped : advance texts queueing number request = some queueing') :
    Sound texts queueing' := by
  have behaves := sound.requests number request found
  have settled : ∀ user assistant sequence,
      request.phase ≠ .insertAssistant user assistant sequence := by rw [here]; nofun
  simp only [advance, here, Option.some.injEq] at stepped
  subst stepped
  split
  · next existing hit =>
    have key := List.find?_some hit
    obtain ⟨stored, chat⟩ := mem_messagesForChat.mp (List.mem_of_find?_eq_some hit)
    obtain ⟨queuedRun, mark, named⟩ := hasKey_iff.mp key
    refine sound.turns rfl ⟨nofun, nofun, fun user assistant same => ?_, fun user assistant same => ?_⟩ rfl
    · cases same
      refine ⟨existing.2, queuedRun, stored, chat, mark, named, ?_⟩
      rw [mark, Option.bind_some]
    · exact (behaves.inserted user assistant same).imp_left fun ⟨sequence, phase⟩ =>
        absurd phase (settled _ _ _)
  · next missed =>
    refine sound.goes (fun _ _ stored => stored) sound.sequences sound.keys ?_ ?_ ?_
    · refine ⟨fun _ id row stored chat => ?_, nofun, nofun, fun user assistant same => ?_⟩
      · have unkeyed := List.find?_eq_none.mp missed ⟨id, row⟩ (mem_messagesForChat.mpr ⟨stored, chat⟩)
        exact Bool.eq_false_iff.mpr unkeyed
      · exact (behaves.inserted user assistant same).imp_left fun ⟨sequence, phase⟩ =>
          absurd phase (settled _ _ _)
    · exact fun other request' _ found' => (sound.requests other request' found').scanned
    · intro _ other request' _ found' beyond chat key
      simp only [queuesInTurn, found, Option.all_some, here, decide_eq_true_eq] at meets
      have taken : queueing.requests.any (fun _ other =>
          other.beyondScan && other.payload.chatId = request.payload.chatId &&
          remoteIdempotencyKey texts other.payload =
            remoteIdempotencyKey texts request.payload) = true := by
        refine Map.any_eq_true.mpr ⟨other, request', found', ?_⟩
        simp only [beyond, chat, key, decide_true, Bool.and_self]
      rw [meets] at taken
      cases taken

/-- The one request beyond its scan with its key inserts its message. -/
theorem Sound.insertUser {number user assistant sequence : Nat} {request : Request}
    (found : queueing.requests.lookup number = some request)
    (here : request.phase = .insertUser user assistant sequence)
    (stepped : advance texts queueing number request = some queueing') :
    Sound texts queueing' := by
  have behaves := sound.requests number request found
  have beyond : request.beyondScan = true := by rw [Request.beyondScan, here]
  have settled : ∀ user assistant sequence,
      request.phase ≠ .insertAssistant user assistant sequence := by rw [here]; nofun
  simp only [advance, here, Option.some.injEq] at stepped
  subst stepped
  split
  · next database inserted =>
    have grows := grows_insertMessage inserted
    have message := Database.message_insertMessage inserted
    have keyed : ∀ key, hasKey key (queuedMessage texts request.payload user assistant sequence) =
        true ↔ key = remoteIdempotencyKey texts request.payload := by
      intro key
      simp only [hasKey, queuedMessage, Option.any_some, decide_eq_true_eq, Option.some.injEq]
      exact eq_comm
    refine sound.goes grows (distinctSequences_insertMessage sound.sequences inserted)
      (distinctKeys_insertMessage sound.keys inserted ?_) ?_ ?_ nofun
    · intro key other row' stored chat key'
      rw [(keyed key).mp key']
      exact behaves.scanned beyond other row' stored chat
    · refine ⟨nofun, fun user' assistant' sequence' same => ?_, nofun, fun user' assistant' same => ?_⟩
      · cases same
        exact ⟨_, _, by rw [message, if_pos rfl], rfl, rfl, rfl, rfl⟩
      · cases same
        exact .inl ⟨_, rfl⟩
    · intro other request' apart found' beyond' id row stored chat
      rw [message] at stored
      split at stored
      · cases stored
        by_contra key'
        have key := (keyed _).mp (Bool.of_not_eq_false key')
        exact apart (sound.alone number other request request' found found' beyond beyond' chat.symm
          key)
      · exact (sound.requests other request' found').scanned beyond' id row stored chat
  · exact sound.turns rfl (behaves.idle settled rfl nofun nofun) rfl

/-- No error comes between the two inserts. -/
theorem Sound.insertAssistant {number user assistant sequence : Nat} {request : Request}
    (found : queueing.requests.lookup number = some request)
    (here : request.phase = .insertAssistant user assistant sequence)
    (meets : queuesInTurn texts queueing (.advance number) = true)
    (stepped : advance texts queueing number request = some queueing') :
    Sound texts queueing' := by
  have behaves := sound.requests number request found
  simp only [queuesInTurn, found, Option.all_some, here] at meets
  obtain ⟨database, inserted⟩ := Option.isSome_iff_exists.mp meets
  simp only [advance, here, inserted, Option.some.injEq] at stepped
  subst stepped
  have grows := grows_insertMessage inserted
  have message := Database.message_insertMessage inserted
  have plain : ∀ key, hasKey key (waitingReply request.payload sequence) = false := fun _ => rfl
  refine sound.goes grows (distinctSequences_insertMessage sound.sequences inserted)
    (distinctKeys_insertMessage sound.keys inserted fun key _ _ _ _ key' => ?_) ?_ ?_ nofun
  · cases (plain key).symm.trans key'
  · refine ⟨nofun, nofun, fun user' assistant' same => ?_, fun user' assistant' recorded => .inr ?_⟩
    · cases same
      exact (behaves.asking user assistant sequence here).grows grows
    · obtain ⟨sequence', same⟩ | stored := behaves.inserted user' assistant' recorded
      · cases here.symm.trans same
        rw [message, if_pos rfl, Option.isSome_some]
      · obtain ⟨row, stored⟩ := Option.isSome_iff_exists.mp stored
        rw [grows _ row stored, Option.isSome_some]
  · intro other request' _ found' beyond' id row stored chat
    rw [message] at stored
    split at stored
    · cases stored
      exact plain _
    · exact (sound.requests other request' found').scanned beyond' id row stored chat

theorem Sound.advance {number : Nat} {request : Request}
    (found : queueing.requests.lookup number = some request)
    (meets : queuesInTurn texts queueing (.advance number) = true)
    (stepped : advance texts queueing number request = some queueing') :
    Sound texts queueing' := by
  have behaves := sound.requests number request found
  cases here : request.phase with
  | lookUp =>
    simp only [ChatQueue.advance, here, Option.some.injEq] at stepped
    subst stepped
    have settled : ∀ user assistant sequence,
        request.phase ≠ .insertAssistant user assistant sequence := by rw [here]; nofun
    split
    · exact sound.turns rfl (behaves.idle settled rfl nofun nofun) rfl
    · exact sound.turns rfl (behaves.idle settled rfl nofun nofun) rfl
  | create =>
    simp only [ChatQueue.advance, here, Option.some.injEq] at stepped
    subst stepped
    have settled : ∀ user assistant sequence,
        request.phase ≠ .insertAssistant user assistant sequence := by rw [here]; nofun
    split
    · next database opened =>
      obtain ⟨-, same⟩ := Option.ite_none_right_eq_some.mp opened
      cases same
      exact sound.turns rfl (behaves.idle settled rfl nofun nofun) rfl
    · exact sound.turns rfl (behaves.idle settled rfl nofun nofun) rfl
  | reload =>
    simp only [ChatQueue.advance, here, Option.some.injEq] at stepped
    subst stepped
    have settled : ∀ user assistant sequence,
        request.phase ≠ .insertAssistant user assistant sequence := by rw [here]; nofun
    split
    · exact sound.turns rfl (behaves.idle settled rfl nofun nofun) rfl
    · exact sound.turns rfl (behaves.idle settled rfl nofun nofun) rfl
  | scan => exact sound.scan found here meets stepped
  | readSequence =>
    have beyond : request.beyondScan = true := by rw [Request.beyondScan, here]
    have settled : ∀ user assistant sequence,
        request.phase ≠ .insertAssistant user assistant sequence := by rw [here]; nofun
    simp only [ChatQueue.advance, here, Option.some.injEq] at stepped
    subst stepped
    split
    · next sequence _ =>
      refine sound.goes (fun _ _ stored => stored) sound.sequences sound.keys ?_ ?_ ?_
      · refine ⟨fun _ => behaves.scanned beyond, nofun, nofun, fun user assistant same => ?_⟩
        exact (behaves.inserted user assistant same).imp_left fun ⟨sequence, phase⟩ =>
          absurd phase (settled _ _ _)
      · exact fun other request' _ found' => (sound.requests other request' found').scanned
      · exact fun _ other request' apart found' beyond' chat key => apart
          (sound.alone number other request request' found found' beyond beyond' chat key)
    · exact sound.turns rfl (behaves.idle settled rfl nofun nofun) rfl
  | insertUser user assistant sequence => exact sound.insertUser found here stepped
  | insertAssistant user assistant sequence => exact sound.insertAssistant found here meets stepped
  | done user assistant =>
    rw [ChatQueue.advance, here] at stepped
    cases stepped
  | failed =>
    rw [ChatQueue.advance, here] at stepped
    cases stepped

theorem sound_step {action : Action} (meets : queuesInTurn texts queueing action = true)
    (stepped : step texts queueing action = some queueing') : Sound texts queueing' := by
  cases action with
  | arrive number payload =>
    obtain ⟨-, same⟩ := Option.ite_none_right_eq_some.mp stepped
    cases same
    exact sound.turns rfl ⟨nofun, nofun, nofun, nofun⟩ rfl
  | advance number =>
    obtain ⟨request, found, moved⟩ := Option.bind_eq_some_iff.mp stepped
    exact sound.advance found meets moved
  | fail number =>
    obtain ⟨request, found, stepped⟩ := Option.bind_eq_some_iff.mp stepped
    have settled : ∀ user assistant sequence,
        request.phase ≠ .insertAssistant user assistant sequence := by
      intro user assistant sequence here
      rw [queuesInTurn, found, Option.all_some, here] at meets
      cases meets
    split at stepped
    · cases stepped
    · cases stepped
    · cases stepped
      exact sound.turns rfl
        ((sound.requests number request found).idle settled rfl nofun nofun) rfl

theorem Sound.queuesOnce : QueuesOnce texts queueing := by
  refine ⟨sound.keys, ?_, sound.sequences, ?_⟩
  · intro number other request request' user user' assistant assistant' found found' chat key
      finished finished'
    obtain ⟨row, queuedRun, stored, chat₁, mark, named, reply⟩ :=
      (sound.requests number request found).done user assistant finished
    obtain ⟨row', queuedRun', stored', chat₂, mark', named', reply'⟩ :=
      (sound.requests other request' found').done user' assistant' finished'
    have same : user' = user := by
      refine sound.keys (remoteIdempotencyKey texts request.payload) user user' row row' stored
        stored' (by rw [chat₁, chat₂, chat]) (hasKey_iff.mpr ⟨queuedRun, mark, named⟩) ?_
      rw [← key]
      exact hasKey_iff.mpr ⟨queuedRun', mark', named'⟩
    subst same
    cases stored.symm.trans stored'
    cases mark.symm.trans mark'
    exact ⟨rfl, reply'.symm.trans reply⟩
  · intro number request user assistant found failed recorded _
    obtain ⟨sequence, here⟩ | stored :=
      (sound.requests number request found).inserted user assistant recorded
    · cases failed.symm.trans here
    · exact stored

end Steps

/-- Requests that queue in turn queue each key once. -/
theorem queuesOnce_of_queuesInTurn {nextId : Nat} {queueing : Queueing}
    (sequences : DistinctSequences database) (keys : DistinctKeys database)
    (reached : (queueMachine texts database nextId).ReachableWhile
      (fun s a => queuesInTurn texts s a = true) queueing) : QueuesOnce texts queueing := by
  have start : Sound texts (queueMachine texts database nextId).start := by
    refine ⟨sequences, keys, fun number request found => ?_, fun number _ request _ found => ?_⟩
    · cases (AList.lookup_empty number).symm.trans found
    · cases (AList.lookup_empty number).symm.trans found
  have keep : ∀ queueing action queueing', Sound texts queueing →
      queuesInTurn texts queueing action = true →
      (queueMachine texts database nextId).step queueing action = some queueing' →
      Sound texts queueing' :=
    fun _ _ _ sound meets stepped => sound_step sound meets stepped
  exact (reached.invariant start keep).queuesOnce

section Runs

private def someTexts : QueueTexts where
  chatIdText := Nat.toDigits 10
  sha256Hex := id
  partsMetadata := id

private def keyedPayload : QueuePayload :=
  { chatId := 0, message := ['h', 'i'], modelId := ['m'], providerId := none, sessionMode := none,
    idempotencyKey := some ['k'] }

/-- Requests that come with one key, and whose turns it is. -/
private def keyedRequests (turns : List Nat) : List Action :=
  [.arrive 0 keyedPayload, .arrive 1 keyedPayload] ++ turns.map .advance

/-- Two requests that both scan before one of them inserts queue their message twice. -/
theorem queuesOnce_not_always : ¬ ∀ texts queueing,
    (queueMachine texts {} 0).Reachable queueing → QueuesOnce texts queueing := by
  intro always
  have twice : ((queueMachine someTexts {} 0).run { database := {}, nextId := 0 }
      (keyedRequests [0, 0, 0, 1, 0, 1, 0, 0, 0, 1, 1])).any (fun queueing =>
        [0, 2].all fun id => (queueing.database.message id).any fun row =>
          row.chatId = 0 ∧ hasKey ['k'] row) = true := by
    decide
  obtain ⟨queueing, run, both⟩ := (Option.any_eq_true _ _).mp twice
  simp only [List.all_cons, List.all_nil, Bool.and_true, Bool.and_eq_true, Option.any_eq_true,
    decide_eq_true_eq] at both
  obtain ⟨⟨row, found, chat, key⟩, row', found', chat', key'⟩ := both
  have one := (always someTexts queueing (Machine.reachable_of_run .start run)).oneMessage
  exact absurd (one ['k'] 0 2 row row' found found' (chat'.trans chat.symm) key key') (by decide)

/-- A request that comes after the one with its key reports the same messages. -/
theorem queuesOnce_of_queuesInTurn_retry : ∃ queueing, QueuesOnce someTexts queueing ∧
    [0, 1].all (fun number => (queueing.requests.lookup number).any fun request =>
      request.phase = .done 0 (some 1)) = true := by
  have reported : ((queueMachine someTexts {} 0).runWhile (queuesInTurn someTexts)
      { database := {}, nextId := 0 } (keyedRequests [0, 0, 0, 0, 0, 0, 0, 1, 1])).any
      (fun queueing => [0, 1].all fun number => (queueing.requests.lookup number).any fun request =>
        request.phase = .done 0 (some 1)) = true := by
    decide
  obtain ⟨queueing, run, same⟩ := (Option.any_eq_true _ _).mp reported
  have sequences : DistinctSequences {} := fun id _ _ _ found => by
    cases (AList.lookup_empty id).symm.trans found
  have keys : DistinctKeys {} := fun _ id _ _ _ found => by
    cases (AList.lookup_empty id).symm.trans found
  exact ⟨queueing, queuesOnce_of_queuesInTurn sequences keys
    (Machine.reachableWhile_of_runWhile .start run), same⟩

end Runs

end Foco.ChatQueue
