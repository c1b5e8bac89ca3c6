import Foco.RustText

/-!
`providers/openai_resp_ws_session.rs`, the operations of a turn on the state of its session: the
live connection and the continuation are two optional fields, taken, used and put back by one
critical section each. Hashes are parameters; the values they are compared by are kept as the
source has them.
-/
namespace Foco.WsSessions
open Foco.RustText

/-! ## State -/

/-- `Instant`, in nanoseconds. -/
abbrev Instant := Nat

def nanosPerSecond : Nat := 1000000000

/-- `OPENAI_RESP_WS_MAX_CONNECTION_AGE`. -/
def openaiRespWsMaxConnectionAge : Nat := 55 * 60 * nanosPerSecond

/-- `OPENAI_RESP_WS_IDLE_RECLAIM`. -/
def openaiRespWsIdleReclaim : Nat := 10 * 60 * nanosPerSecond

/-- The hashes of a turn: `messages_prefix_hash` of a whole list, `continuation_fingerprint` and
`connection_identity_from_config` of the configuration, model, system prompt, tools and options. -/
structure Hashes (Message Config Digest : Type) where
  contentHash : List Message → Digest
  continuationFingerprint : Config → Digest
  connectionIdentity : Config → Digest

/-- `LiveWsConnection`; the two halves of its socket are known by a number. -/
structure LiveWsConnection (Digest : Type) where
  socket : Nat
  connectedAt : Instant
  connectionIdentity : Digest

/-- `ContinuationState`. -/
structure ContinuationState (Digest : Type) where
  fingerprint : Digest
  committedPrefixHash : Digest
  committedMessagesLen : Nat
  previousResponseId : Text

/-- `SessionInner`. -/
structure SessionInner (Digest : Type) where
  connection : Option (LiveWsConnection Digest)
  continuation : Option (ContinuationState Digest)
  lastUsedAt : Instant
  turnInFlight : Bool

variable {Message Config Digest : Type} [DecidableEq Digest]

/-- `is_expired`; `duration_since` is zero for a later instant. -/
def LiveWsConnection.isExpired (conn : LiveWsConnection Digest) (now : Instant) : Bool :=
  now - conn.connectedAt ≥ openaiRespWsMaxConnectionAge

/-- `messages_prefix_hash`. -/
def messagesPrefixHash (hashes : Hashes Message Config Digest) (messages : List Message)
    (len : Nat) : Digest :=
  hashes.contentHash (messages.take len)

/-- What a turn asks for. -/
structure TurnRequest (Message Config : Type) where
  messages : List Message
  config : Config
  enableContinuation : Bool

/-- `AppliedContinuation`, with the fields of its request that the turn sets. -/
structure AppliedContinuation (Message Digest : Type) where
  messages : List Message
  store : Bool
  previousResponseId : Option Text
  usedPreviousResponseId : Option Text
  fullMessagesLen : Nat
  fullMessagesHash : Digest
  fingerprint : Digest

/-! ## Operations -/

/-- What `take_connection_for_identity` finds: a connection to use again, one that has still to be
closed, or none. -/
inductive TakenConnection (Digest : Type) where
  | live (conn : LiveWsConnection Digest)
  | stale
  | missing

namespace SessionInner

def clearContinuation (state : SessionInner Digest) : SessionInner Digest :=
  { state with continuation := none }

/-- `take_connection_for_identity`, up to where a stale connection is closed. -/
def takeConnectionForIdentity (state : SessionInner Digest) (connectionIdentity : Digest)
    (now : Instant) : SessionInner Digest × TakenConnection Digest :=
  match state.connection with
  | some conn =>
    if conn.connectionIdentity = connectionIdentity ∧ conn.isExpired now = false then
      ({ state with connection := none, lastUsedAt := now }, .live conn)
    else ({ state with connection := none }, .stale)
  | none => (state.clearContinuation, .missing)

/-- The continuation that `apply_continuation` may use on a request. -/
def usableContinuation (hashes : Hashes Message Config Digest) (state : SessionInner Digest)
    (messages : List Message) (fingerprint : Digest) : Option (ContinuationState Digest) :=
  state.continuation.filter fun cont =>
    cont.fingerprint = fingerprint ∧ cont.committedMessagesLen ≤ messages.length ∧
      cont.previousResponseId ≠ [] ∧
      messagesPrefixHash hashes messages cont.committedMessagesLen = cont.committedPrefixHash

/-- `apply_continuation`. -/
def applyContinuation (hashes : Hashes Message Config Digest) (state : SessionInner Digest)
    (messages : List Message) (fingerprint : Digest) (enableContinuation : Bool) :
    AppliedContinuation Message Digest :=
  let fullMessagesLen := messages.length
  let fullMessagesHash := messagesPrefixHash hashes messages fullMessagesLen
  if enableContinuation = false then
    { messages, store := false, previousResponseId := none, usedPreviousResponseId := none,
      fullMessagesLen, fullMessagesHash, fingerprint }
  else
    match state.usableContinuation hashes messages fingerprint with
    | some cont =>
      { messages := messages.drop cont.committedMessagesLen, store := true,
        previousResponseId := some cont.previousResponseId,
        usedPreviousResponseId := some cont.previousResponseId,
        fullMessagesLen, fullMessagesHash, fingerprint }
    | none =>
      { messages, store := true, previousResponseId := none, usedPreviousResponseId := none,
        fullMessagesLen, fullMessagesHash, fingerprint }

/-- `commit_success`. -/
def commitSuccess (state : SessionInner Digest) (responseId : Option Text)
    (fullMessagesLen : Nat) (fullMessagesHash fingerprint : Digest) (enableContinuation : Bool)
    (now : Instant) : SessionInner Digest :=
  if enableContinuation = false then { state with continuation := none, lastUsedAt := now }
  else
    match responseId.filter fun id => !(trim id).isEmpty with
    | some id =>
      { state with
        continuation := some
          { fingerprint, committedPrefixHash := fullMessagesHash,
            committedMessagesLen := fullMessagesLen, previousResponseId := id },
        lastUsedAt := now }
    | none => { state with continuation := none, lastUsedAt := now }

/-- `commit_failure`. -/
def commitFailure (state : SessionInner Digest) (now : Instant) : SessionInner Digest :=
  { state with continuation := none, lastUsedAt := now }

/-- `return_connection`, up to where a connection that is not kept is closed: the state, and
whether there is one to close. -/
def returnConnection (state : SessionInner Digest) (connection : Option (LiveWsConnection Digest))
    (keep : Bool) (now : Instant) : SessionInner Digest × Bool :=
  match connection with
  | none => ({ state with lastUsedAt := now }, false)
  | some conn =>
    if keep = true ∧ conn.isExpired now = false then
      ({ state with connection := some conn, lastUsedAt := now }, false)
    else ({ state with lastUsedAt := now }, true)

/-- The end of `return_connection`, when the connection is closed. -/
def connectionClosed (state : SessionInner Digest) (keep : Bool) : SessionInner Digest :=
  if keep then state else state.clearContinuation

/-- `begin_turn`, under the turn lock. -/
def beginTurn (state : SessionInner Digest) (now : Instant) : SessionInner Digest :=
  { state with turnInFlight := true, lastUsedAt := now }

/-- `finish`, or the drop of a turn. -/
def finish (state : SessionInner Digest) (now : Instant) : SessionInner Digest :=
  { state with turnInFlight := false, lastUsedAt := now }

/-- `drop_session_connection`. -/
def dropSessionConnection (state : SessionInner Digest) : SessionInner Digest :=
  { state with connection := none, continuation := none, turnInFlight := false }

/-- `drop_session_connection`, dropped itself while it closes the connection. -/
def dropConnectionOnly (state : SessionInner Digest) : SessionInner Digest :=
  { state with connection := none }

end SessionInner

/-! ## The outcome of a stream -/

/-- `StreamTurnOutcome`. -/
structure StreamTurnOutcome where
  responseId : Option Text
  keepConnection : Bool
  completedOk : Bool
  previousResponseNotFound : Bool

/-- A `ChatStreamEvent`: its end has the id of the response, if one was captured. -/
inductive StreamEvent where
  | other
  | ended (capturedResponseId : Option Text)

namespace StreamTurnOutcome

def start : StreamTurnOutcome := ⟨none, true, false, false⟩

/-- `text_looks_like_previous_response_not_found`. -/
def textLooksLikePreviousResponseNotFound (text : Text) : Bool :=
  containsText "previous_response_not_found".toList (toAsciiLowercase text) ||
    (containsText "previous response".toList (toAsciiLowercase text) &&
      containsText "not found".toList (toAsciiLowercase text))

/-- `mark_previous_not_found_if_needed`. -/
def markPreviousNotFoundIfNeeded (outcome : StreamTurnOutcome) (text : Text) : StreamTurnOutcome :=
  if textLooksLikePreviousResponseNotFound text then
    { outcome with previousResponseNotFound := true, completedOk := false }
  else outcome

/-- `mark_stream_broken`. -/
def markStreamBroken (outcome : StreamTurnOutcome) : StreamTurnOutcome :=
  { outcome with keepConnection := false, completedOk := false }

/-- `note_stream_event`. -/
def noteStreamEvent (outcome : StreamTurnOutcome) (event : StreamEvent) : StreamTurnOutcome :=
  match event with
  | .other => outcome
  | .ended capturedResponseId =>
    let completedOk := capturedResponseId.isSome && !outcome.previousResponseNotFound
    { outcome with
      responseId := capturedResponseId, completedOk,
      keepConnection :=
        if completedOk = false ∧ outcome.previousResponseNotFound = true then true
        else outcome.keepConnection }

end StreamTurnOutcome

end Foco.WsSessions
