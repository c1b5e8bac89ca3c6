import Foco.Runs
import Foco.WsSessions
import Mathlib.Data.List.Basic
import Mathlib.Logic.Function.Basic

/-!
`providers/openai_resp_websocket.rs`, `stream_with_session`: the turns of one session, which the
turn lock keeps apart, step by step, with what each socket carried. A turn may be abandoned
before any step, and an invalidation may empty the session at any time; clock readings are
arbitrary. A request that is sent with a previous response id continues, on its own socket, the
request that was answered with this id.
-/
namespace Foco.WsSessions
open Foco.RustText Foco.Runs

variable {Message Config Digest : Type} [DecidableEq Digest]

/-! ## Turns -/

/-- A request on the wire: the turn it is for, and the messages and the previous response id sent. -/
structure SentRequest (Message Config : Type) where
  turn : TurnRequest Message Config
  messages : List Message
  previousResponseId : Option Text

/-- What a socket carries: requests, and the ids of responses that completed. -/
inductive WireEvent (Message Config : Type) where
  | request (sent : SentRequest Message Config)
  | response (id : Text)

abbrev Wire (Message Config : Type) := List (WireEvent Message Config)

/-- What a turn has still to commit. -/
inductive Commit (Digest : Type) where
  | failure
  | success (responseId : Option Text) (fullMessagesLen : Nat) (fullMessagesHash fingerprint : Digest)
      (enableContinuation : Bool)

/-- Where the session's turn stands between two awaits. A connection that the turn holds is part
of its phase. -/
inductive Phase (Message Config Digest : Type) where
  | idle
  | begun (turn : TurnRequest Message Config)
  /-- A stale connection is being closed. -/
  | closingStale (turn : TurnRequest Message Config)
  | taken (turn : TurnRequest Message Config) (conn : Option (LiveWsConnection Digest))
  | applied (turn : TurnRequest Message Config) (conn : Option (LiveWsConnection Digest))
      (applied : AppliedContinuation Message Digest)
  | connected (turn : TurnRequest Message Config) (conn : LiveWsConnection Digest)
      (applied : AppliedContinuation Message Digest)
  | streaming (turn : TurnRequest Message Config) (conn : LiveWsConnection Digest)
      (applied : AppliedContinuation Message Digest) (outcome : StreamTurnOutcome)
  /-- The loop over the frames is left. -/
  | streamed (turn : TurnRequest Message Config) (conn : LiveWsConnection Digest)
      (applied : AppliedContinuation Message Digest) (outcome : StreamTurnOutcome)
  /-- The commit is due, then the return of a connection, if one is returned. -/
  | committing (commit : Commit Digest) (back : Option (Option (LiveWsConnection Digest) × Bool))
  | returning (conn : Option (LiveWsConnection Digest)) (keep : Bool)
  /-- A connection that is not kept is being closed. -/
  | closingReturned (keep : Bool)
  | finishing

/-- The session with its turn, the socket that is opened next, and what the sockets carried. -/
structure World (Message Config Digest : Type) where
  session : SessionInner Digest
  phase : Phase Message Config Digest
  nextSocket : Nat
  wire : Nat → Wire Message Config

/-- A frame that the stream reads: a text with what the decoder makes of it, one that breaks the
stream, the end of the socket with the event the decoder still gives, or one without effect. -/
inductive Frame where
  | text (text : Text) (decoded : Except Unit (Option StreamEvent))
  | broken
  | closed (event : Option StreamEvent)
  | control

inductive Action (Message Config : Type) where
  | begin (turn : TurnRequest Message Config) (now : Instant)
  | take (now : Instant)
  | staleClosed
  | apply
  | prepareFails
  | connect (now : Instant)
  | connectFails
  | send
  | sendFails
  | frame (frame : Frame)
  | finalize
  | commit (now : Instant)
  | returnConnection (now : Instant)
  | returnedClosed
  | finish (now : Instant)
  | abandon (now : Instant)
  | invalidate
  | invalidateAbandoned

namespace World

variable (world : World Message Config Digest)

def enter (phase : Phase Message Config Digest) : World Message Config Digest :=
  { world with phase }

def withSession (session : SessionInner Digest) : World Message Config Digest :=
  { world with session }

/-- A socket carries one event more. -/
def carry (socket : Nat) (event : WireEvent Message Config) : World Message Config Digest :=
  { world with wire := Function.update world.wire socket (world.wire socket ++ [event]) }

/-- The stream notes an event: the id of a response that completed has come over the socket. -/
def noteEvent (conn : LiveWsConnection Digest) (outcome : StreamTurnOutcome)
    (event : StreamEvent) : World Message Config Digest :=
  match event with
  | .other => world
  | .ended capturedResponseId =>
    match capturedResponseId, outcome.previousResponseNotFound with
    | some id, false => world.carry conn.socket (.response id)
    | _, _ => world

/-- The loop of `run_create_stream` on a frame. -/
def readFrame (turn : TurnRequest Message Config) (conn : LiveWsConnection Digest)
    (applied : AppliedContinuation Message Digest) (outcome : StreamTurnOutcome) :
    Frame → World Message Config Digest
  | .text text decoded =>
    let outcome := outcome.markPreviousNotFoundIfNeeded text
    match decoded with
    | .error _ => world.enter (.streamed turn conn applied outcome.markStreamBroken)
    | .ok none => world.enter (.streaming turn conn applied outcome)
    | .ok (some .other) => world.enter (.streaming turn conn applied outcome)
    | .ok (some (.ended id)) =>
      (world.noteEvent conn outcome (.ended id)).enter
        (.streamed turn conn applied (outcome.noteStreamEvent (.ended id)))
  | .broken => world.enter (.streamed turn conn applied outcome.markStreamBroken)
  | .closed none => world.enter (.streamed turn conn applied outcome.markStreamBroken)
  | .closed (some event) =>
    (world.noteEvent conn outcome.markStreamBroken event).enter
      (.streamed turn conn applied (outcome.markStreamBroken.noteStreamEvent event))
  | .control => world.enter (.streaming turn conn applied outcome)

/-- `finalize_turn`: what it commits, and whether it keeps the connection. -/
def finalize (turn : TurnRequest Message Config) (conn : LiveWsConnection Digest)
    (applied : AppliedContinuation Message Digest) (outcome : StreamTurnOutcome) :
    World Message Config Digest :=
  let commit :=
    if outcome.previousResponseNotFound = true ∨ outcome.completedOk = false then .failure
    else .success outcome.responseId applied.fullMessagesLen applied.fullMessagesHash
      applied.fingerprint turn.enableContinuation
  world.enter (.committing commit
    (some (some conn, outcome.keepConnection && outcome.completedOk)))

end World

/-- The session after a commit. -/
def Commit.run (commit : Commit Digest) (session : SessionInner Digest) (now : Instant) :
    SessionInner Digest :=
  match commit with
  | .failure => session.commitFailure now
  | .success responseId fullMessagesLen fullMessagesHash fingerprint enableContinuation =>
    session.commitSuccess responseId fullMessagesLen fullMessagesHash fingerprint
      enableContinuation now

variable (hashes : Hashes Message Config Digest)

/-- One step of the session's turn, of its abandonment, or of an invalidation. -/
def step (world : World Message Config Digest) :
    Action Message Config → Option (World Message Config Digest)
  | .begin turn now =>
    match world.phase with
    | .idle => some ((world.withSession (world.session.beginTurn now)).enter (.begun turn))
    | _ => none
  | .take now =>
    match world.phase with
    | .begun turn =>
      match world.session.takeConnectionForIdentity (hashes.connectionIdentity turn.config) now with
      | (session, .live conn) => some ((world.withSession session).enter (.taken turn (some conn)))
      | (session, .stale) => some ((world.withSession session).enter (.closingStale turn))
      | (session, .missing) => some ((world.withSession session).enter (.taken turn none))
    | _ => none
  | .staleClosed =>
    match world.phase with
    | .closingStale turn =>
      some ((world.withSession world.session.clearContinuation).enter (.taken turn none))
    | _ => none
  | .apply =>
    match world.phase with
    | .taken turn conn =>
      some (world.enter (.applied turn conn (world.session.applyContinuation hashes turn.messages
        (hashes.continuationFingerprint turn.config) turn.enableContinuation)))
    | _ => none
  | .prepareFails =>
    match world.phase with
    | .applied _ conn _ =>
      some (world.enter (.committing .failure (conn.map fun conn => (some conn, false))))
    | _ => none
  | .connect now =>
    match world.phase with
    | .applied turn none applied =>
      some { world with
        phase := .connected turn ⟨world.nextSocket, now, hashes.connectionIdentity turn.config⟩
          applied,
        nextSocket := world.nextSocket + 1 }
    | .applied turn (some conn) applied => some (world.enter (.connected turn conn applied))
    | _ => none
  | .connectFails =>
    match world.phase with
    | .applied _ none _ => some (world.enter (.committing .failure none))
    | _ => none
  | .send =>
    match world.phase with
    | .connected turn conn applied =>
      some ((world.carry conn.socket
        (.request ⟨turn, applied.messages, applied.previousResponseId⟩)).enter
          (.streaming turn conn applied .start))
    | _ => none
  | .sendFails =>
    match world.phase with
    | .connected _ _ _ => some (world.enter (.committing .failure (some (none, false))))
    | _ => none
  | .frame frame =>
    match world.phase with
    | .streaming turn conn applied outcome => some (world.readFrame turn conn applied outcome frame)
    | _ => none
  | .finalize =>
    match world.phase with
    | .streaming turn conn applied outcome => some (world.finalize turn conn applied outcome)
    | .streamed turn conn applied outcome => some (world.finalize turn conn applied outcome)
    | _ => none
  | .commit now =>
    match world.phase with
    | .committing commit none =>
      some ((world.withSession (commit.run world.session now)).enter .finishing)
    | .committing commit (some (conn, keep)) =>
      some ((world.withSession (commit.run world.session now)).enter (.returning conn keep))
    | _ => none
  | .returnConnection now =>
    match world.phase with
    | .returning conn keep =>
      match world.session.returnConnection conn keep now with
      | (session, false) => some ((world.withSession session).enter .finishing)
      | (session, true) => some ((world.withSession session).enter (.closingReturned keep))
    | _ => none
  | .returnedClosed =>
    match world.phase with
    | .closingReturned keep =>
      some ((world.withSession (world.session.connectionClosed keep)).enter .finishing)
    | _ => none
  | .finish now =>
    match world.phase with
    | .finishing => some ((world.withSession (world.session.finish now)).enter .idle)
    | _ => none
  | .abandon now => some ((world.withSession (world.session.finish now)).enter .idle)
  | .invalidate => some (world.withSession world.session.dropSessionConnection)
  | .invalidateAbandoned => some (world.withSession world.session.dropConnectionOnly)

/-- A session that is new in the registry. -/
def start : World Message Config Digest := ⟨⟨none, none, 0, false⟩, .idle, 0, fun _ => []⟩

def machine : Machine (World Message Config Digest) (Action Message Config) :=
  ⟨start, step hashes⟩

/-! ## What holds between the steps -/

/-- A request on a socket may be sent after what the socket carried: without a previous response
id it has the whole list of its turn; with one, this is the id of the response that came last, to
a request of the same configuration, whose whole list followed by the messages sent is the whole
list now. -/
def Continues (before : Wire Message Config) (sent : SentRequest Message Config) : Prop :=
  match sent.previousResponseId with
  | none => sent.messages = sent.turn.messages
  | some id => ∃ (earlier : Wire Message Config) (answered : SentRequest Message Config),
      before = earlier ++ [.request answered, .response id] ∧
        answered.turn.config = sent.turn.config ∧
        answered.turn.messages ++ sent.messages = sent.turn.messages

/-- Every request on a wire may be sent after what came before it. -/
def WireContinues (wire : Wire Message Config) : Prop :=
  ∀ before sent after, wire = before ++ .request sent :: after → Continues before sent

/-- The last thing a wire carried is the answer, with an id, to a request of a turn. -/
def Answered (wire : Wire Message Config) (turn : TurnRequest Message Config) (id : Text) : Prop :=
  ∃ (earlier : Wire Message Config) (sent : SentRequest Message Config),
    wire = earlier ++ [.request sent, .response id] ∧ sent.turn = turn

/-- The commitments of a turn to its messages and configuration. -/
structure Commits (turn : TurnRequest Message Config) (fullMessagesLen : Nat)
    (fullMessagesHash fingerprint : Digest) : Prop where
  len : fullMessagesLen = turn.messages.length
  hash : fullMessagesHash = hashes.contentHash turn.messages
  fingerprint : fingerprint = hashes.continuationFingerprint turn.config

/-- A continuation stands for the turn that a wire answered last. -/
def Stands (wire : Wire Message Config) (cont : ContinuationState Digest) : Prop :=
  ∃ turn, Answered wire turn cont.previousResponseId ∧
    Commits hashes turn cont.committedMessagesLen cont.committedPrefixHash cont.fingerprint

/-- If a connection is held, a continuation of the session stands for its wire. -/
def StandsFor (world : World Message Config Digest) (conn : Option (LiveWsConnection Digest)) :
    Prop :=
  ∀ cont, world.session.continuation = some cont →
    ∃ held, conn = some held ∧ Stands hashes (world.wire held.socket) cont

/-- What a commit puts down stands for the wire of the connection that is kept. -/
def CommitStands (wire : Wire Message Config) : Commit Digest → Prop
  | .failure => True
  | .success responseId fullMessagesLen fullMessagesHash fingerprint _ =>
    ∃ turn, (∀ id, responseId = some id → Answered wire turn id) ∧
      Commits hashes turn fullMessagesLen fullMessagesHash fingerprint

/-- What a turn is about to send may be sent on its connection, and is committed to rightly. -/
structure Applies (wire : Wire Message Config) (turn : TurnRequest Message Config)
    (applied : AppliedContinuation Message Digest) : Prop where
  continues : Continues wire ⟨turn, applied.messages, applied.previousResponseId⟩
  commits : Commits hashes turn applied.fullMessagesLen applied.fullMessagesHash
    applied.fingerprint

/-- What is known of the session in each phase. While a turn holds its connection the session has
none. -/
def PhaseHolds (world : World Message Config Digest) : Prop :=
  match world.phase with
  | .idle | .begun _ | .finishing =>
    ∀ conn, world.session.connection = some conn → StandsFor hashes world (some conn)
  | .closingStale _ | .closingReturned _ => world.session.connection = none
  | .taken _ conn => world.session.connection = none ∧ StandsFor hashes world conn
  | .applied turn none applied =>
    world.session.connection = none ∧ ∀ wire, Applies hashes wire turn applied
  | .applied turn (some conn) applied | .connected turn conn applied =>
    world.session.connection = none ∧ Applies hashes (world.wire conn.socket) turn applied
  | .streaming turn conn applied outcome =>
    world.session.connection = none ∧ outcome.completedOk = false ∧
      (∃ (earlier : Wire Message Config) (sent : SentRequest Message Config),
        world.wire conn.socket = earlier ++ [.request sent] ∧ sent.turn = turn) ∧
      Commits hashes turn applied.fullMessagesLen applied.fullMessagesHash applied.fingerprint
  | .streamed turn conn applied outcome =>
    world.session.connection = none ∧
      (outcome.completedOk = true → ∀ id, outcome.responseId = some id →
        Answered (world.wire conn.socket) turn id) ∧
      Commits hashes turn applied.fullMessagesLen applied.fullMessagesHash applied.fingerprint
  | .committing commit back =>
    world.session.connection = none ∧
      ∀ conn, back = some (some conn, true) → CommitStands hashes (world.wire conn.socket) commit
  | .returning conn keep =>
    world.session.connection = none ∧
      ∀ held, conn = some held → keep = true → StandsFor hashes world (some held)

/-- The phase holds, and every request so far could be sent. -/
structure Sound (world : World Message Config Digest) : Prop where
  phase : PhaseHolds hashes world
  wires : ∀ socket, WireContinues (world.wire socket)

variable {hashes}

/-- An event at the end of a wire keeps it, if it is no request or one that may be sent. -/
private theorem WireContinues.concat {wire : Wire Message Config}
    {event : WireEvent Message Config} (holds : WireContinues wire)
    (fits : ∀ sent, event = .request sent → Continues wire sent) :
    WireContinues (wire ++ [event]) := by
  intro before sent after split
  rcases List.eq_nil_or_concat after with rfl | ⟨rest, last, rfl⟩
  · obtain ⟨sameWire, sameEvent⟩ := List.append_inj' split rfl
    cases sameWire
    exact fits sent (List.cons.inj sameEvent).1
  · have split : wire ++ [event] = (before ++ .request sent :: rest) ++ [last] := by
      rw [split, List.concat_eq_append, List.append_assoc, List.cons_append]
    exact holds before sent rest (List.append_inj' split rfl).1

/-- A continuation that `apply_continuation` may use stands for a list that the request starts
with, on the same configuration. -/
private theorem usable_continues {session : SessionInner Digest} {wire : Wire Message Config}
    {turn : TurnRequest Message Config} {cont : ContinuationState Digest}
    (content : Function.Injective hashes.contentHash)
    (print : Function.Injective hashes.continuationFingerprint)
    (stands : ∀ cont, session.continuation = some cont → Stands hashes wire cont)
    (usable : session.usableContinuation hashes turn.messages
      (hashes.continuationFingerprint turn.config) = some cont) :
    Continues wire ⟨turn, turn.messages.drop cont.committedMessagesLen,
      some cont.previousResponseId⟩ := by
  obtain ⟨stored, fits⟩ := Option.filter_eq_some_iff.mp usable
  obtain ⟨sameFingerprint, _, _, samePrefix⟩ := of_decide_eq_true fits
  obtain ⟨answered, ⟨earlier, sent, carried, sentFor⟩, committed⟩ := stands cont stored
  have sameConfig : answered.config = turn.config :=
    print (committed.fingerprint.symm.trans sameFingerprint)
  have sameMessages : turn.messages.take cont.committedMessagesLen = answered.messages :=
    content (samePrefix.trans committed.hash)
  refine ⟨earlier, sent, carried, sentFor ▸ sameConfig, ?_⟩
  rw [sentFor, ← sameMessages]
  exact List.take_append_drop _ _

/-- What `apply_continuation` makes of a request may be sent on a wire that the continuation of
the session stands for. -/
private theorem applyContinuation_applies {session : SessionInner Digest}
    {wire : Wire Message Config} {turn : TurnRequest Message Config}
    (content : Function.Injective hashes.contentHash)
    (print : Function.Injective hashes.continuationFingerprint)
    (stands : ∀ cont, session.continuation = some cont → Stands hashes wire cont) :
    Applies hashes wire turn (session.applyContinuation hashes turn.messages
      (hashes.continuationFingerprint turn.config) turn.enableContinuation) := by
  have whole : messagesPrefixHash hashes turn.messages turn.messages.length =
      hashes.contentHash turn.messages := by
    rw [messagesPrefixHash, List.take_length]
  unfold SessionInner.applyContinuation
  by_cases disabled : turn.enableContinuation = false
  · rw [if_pos disabled]
    exact ⟨rfl, rfl, whole, rfl⟩
  · rw [if_neg disabled]
    cases usable : session.usableContinuation hashes turn.messages
        (hashes.continuationFingerprint turn.config) with
    | none => exact ⟨rfl, rfl, whole, rfl⟩
    | some cont => exact ⟨usable_continues content print stands usable, rfl, whole, rfl⟩

omit [DecidableEq Digest] in
/-- After a commit the continuation of the session stands for the wire of a connection that the
commit stands for. -/
private theorem Commit.run_stands {commit : Commit Digest} {session : SessionInner Digest}
    {wire : Wire Message Config} {now : Instant} (stands : CommitStands hashes wire commit)
    {cont : ContinuationState Digest} (committed : (commit.run session now).continuation = some cont) :
    Stands hashes wire cont := by
  cases commit with
  | failure => cases committed
  | success responseId len hash fingerprint enable =>
    obtain ⟨turn, answered, commits⟩ := stands
    simp only [Commit.run, SessionInner.commitSuccess] at committed
    split at committed
    · cases committed
    · split at committed
      · next id kept =>
        cases committed
        exact ⟨turn, answered id (Option.filter_eq_some_iff.mp kept).1, commits⟩
      · cases committed

omit [DecidableEq Digest] in
private theorem Commit.run_connection (commit : Commit Digest) (session : SessionInner Digest)
    (now : Instant) : (commit.run session now).connection = session.connection := by
  cases commit with
  | failure => rfl
  | success responseId len hash fingerprint enable =>
    simp only [Commit.run, SessionInner.commitSuccess]
    split
    · rfl
    · split <;> rfl

omit [DecidableEq Digest] in
/-- A session without a connection agrees with every wire. -/
private theorem holds_of_no_connection {world : World Message Config Digest}
    (none_ : world.session.connection = none) (conn : LiveWsConnection Digest)
    (held : world.session.connection = some conn) : StandsFor hashes world (some conn) := by
  rw [none_] at held
  cases held

/-- A socket that carries an event more: the other wires are as they were. -/
private theorem carry_wires {world : World Message Config Digest} {socket : Nat}
    {event : WireEvent Message Config} (wires : ∀ socket, WireContinues (world.wire socket))
    (fits : ∀ sent, event = .request sent → Continues (world.wire socket) sent) (other : Nat) :
    WireContinues ((world.carry socket event).wire other) := by
  by_cases same : other = socket
  · subst same
    simp only [World.carry, Function.update_self]
    exact (wires other).concat fits
  · simp only [World.carry, Function.update_of_ne same]
    exact wires other

/-- Taking the connection. -/
private theorem sound_take {world : World Message Config Digest}
    {turn : TurnRequest Message Config} {now : Instant} {world' : World Message Config Digest}
    (begun : world.phase = .begun turn) (sound : Sound hashes world)
    (stepped : step hashes world (.take now) = some world') : Sound hashes world' := by
  have agrees : ∀ conn, world.session.connection = some conn →
      StandsFor hashes world (some conn) := by
    have holds := sound.phase
    simpa only [PhaseHolds, begun] using holds
  simp only [step, begun, SessionInner.takeConnectionForIdentity] at stepped
  cases connection : world.session.connection with
  | none =>
    simp only [connection] at stepped
    cases stepped
    exact ⟨⟨connection, nofun⟩, sound.wires⟩
  | some conn =>
    simp only [connection] at stepped
    by_cases usable : conn.connectionIdentity = hashes.connectionIdentity turn.config ∧
        conn.isExpired now = false
    · rw [if_pos usable] at stepped
      cases stepped
      exact ⟨⟨rfl, agrees conn connection⟩, sound.wires⟩
    · rw [if_neg usable] at stepped
      cases stepped
      exact ⟨rfl, sound.wires⟩

/-- Sending the request: it may be sent, and the wire ends with it. -/
private theorem sound_send {world : World Message Config Digest}
    {turn : TurnRequest Message Config} {conn : LiveWsConnection Digest}
    {applied : AppliedContinuation Message Digest} (wires : ∀ socket, WireContinues (world.wire socket))
    (none_ : world.session.connection = none)
    (applies : Applies hashes (world.wire conn.socket) turn applied) :
    Sound hashes ((world.carry conn.socket
      (.request ⟨turn, applied.messages, applied.previousResponseId⟩)).enter
        (.streaming turn conn applied .start)) where
  phase := by
    exact ⟨none_, rfl, ⟨world.wire conn.socket,
      ⟨turn, applied.messages, applied.previousResponseId⟩, Function.update_self _ _ _, rfl⟩,
      applies.commits⟩
  wires := carry_wires wires fun sent same => by
    cases same
    exact applies.continues

/-- The end of a response, noted on the wire. -/
private theorem sound_end {world : World Message Config Digest}
    {turn : TurnRequest Message Config} {conn : LiveWsConnection Digest}
    {applied : AppliedContinuation Message Digest} (outcome : StreamTurnOutcome)
    (captured : Option Text) (wires : ∀ socket, WireContinues (world.wire socket))
    (none_ : world.session.connection = none)
    (sentLast : ∃ (earlier : Wire Message Config) (sent : SentRequest Message Config),
      world.wire conn.socket = earlier ++ [.request sent] ∧ sent.turn = turn)
    (commits : Commits hashes turn applied.fullMessagesLen applied.fullMessagesHash
      applied.fingerprint) :
    Sound hashes ((world.noteEvent conn outcome (.ended captured)).enter
      (.streamed turn conn applied (outcome.noteStreamEvent (.ended captured)))) := by
  obtain ⟨earlier, sent, carried, sentFor⟩ := sentLast
  cases captured with
  | none => exact ⟨⟨none_, (fun _ _ same => by cases same), commits⟩, wires⟩
  | some id =>
    cases notFound : outcome.previousResponseNotFound with
    | true =>
      have silent : world.noteEvent conn outcome (.ended (some id)) = world := by
        simp only [World.noteEvent, notFound]
      rw [silent]
      refine ⟨⟨none_, fun completed => ?_, commits⟩, wires⟩
      simp [StreamTurnOutcome.noteStreamEvent, notFound] at completed
    | false =>
      have noted : world.noteEvent conn outcome (.ended (some id)) =
          world.carry conn.socket (.response id) := by
        simp only [World.noteEvent, notFound]
      rw [noted]
      refine ⟨⟨none_, fun _ id' sameId => ?_, commits⟩, carry_wires wires (by simp)⟩
      cases sameId
      refine ⟨earlier, sent, ?_, sentFor⟩
      simp only [World.enter, World.carry, Function.update_self, carried, List.append_assoc,
        List.cons_append, List.nil_append]

/-- A frame of the stream. -/
private theorem sound_frame {world : World Message Config Digest}
    {turn : TurnRequest Message Config} {conn : LiveWsConnection Digest}
    {applied : AppliedContinuation Message Digest} {outcome : StreamTurnOutcome} (frame : Frame)
    (streaming : world.phase = .streaming turn conn applied outcome)
    (sound : Sound hashes world) :
    Sound hashes (world.readFrame turn conn applied outcome frame) := by
  have holds := sound.phase
  simp only [PhaseHolds, streaming] at holds
  obtain ⟨none_, incomplete, sentLast, commits⟩ := holds
  have marked : ∀ text, (outcome.markPreviousNotFoundIfNeeded text).completedOk = false := by
    intro text
    unfold StreamTurnOutcome.markPreviousNotFoundIfNeeded
    split
    · rfl
    · exact incomplete
  cases frame with
  | text text decoded =>
    rcases decoded with error | event
    · exact ⟨⟨none_, nofun, commits⟩, sound.wires⟩
    · rcases event with _ | event | captured
      · exact ⟨⟨none_, marked text, sentLast, commits⟩, sound.wires⟩
      · exact ⟨⟨none_, marked text, sentLast, commits⟩, sound.wires⟩
      · exact sound_end _ captured sound.wires none_ sentLast commits
  | broken => exact ⟨⟨none_, nofun, commits⟩, sound.wires⟩
  | closed event =>
    rcases event with _ | event | captured
    · exact ⟨⟨none_, nofun, commits⟩, sound.wires⟩
    · exact ⟨⟨none_, nofun, commits⟩, sound.wires⟩
    · exact sound_end _ captured sound.wires none_ sentLast commits
  | control => exact ⟨⟨none_, incomplete, sentLast, commits⟩, sound.wires⟩

/-- The end of a stream: what is committed stands for the connection that is kept. -/
private theorem sound_finalize {world : World Message Config Digest}
    {turn : TurnRequest Message Config} {conn : LiveWsConnection Digest}
    {applied : AppliedContinuation Message Digest} {outcome : StreamTurnOutcome}
    (wires : ∀ socket, WireContinues (world.wire socket))
    (none_ : world.session.connection = none)
    (answered : outcome.completedOk = true → ∀ id, outcome.responseId = some id →
      Answered (world.wire conn.socket) turn id)
    (commits : Commits hashes turn applied.fullMessagesLen applied.fullMessagesHash
      applied.fingerprint) :
    Sound hashes (world.finalize turn conn applied outcome) where
  phase := by
    refine ⟨none_, fun held same => ?_⟩
    obtain rfl : conn = held := Option.some.inj (Prod.mk.inj (Option.some.inj same)).1
    by_cases failed : outcome.previousResponseNotFound = true ∨ outcome.completedOk = false
    · rw [if_pos failed]
      trivial
    · rw [if_neg failed]
      have completed : outcome.completedOk = true := by
        simpa using (not_or.mp failed).2
      exact ⟨turn, answered completed, commits⟩
  wires := wires

/-- The return of a connection after the commit. -/
private theorem sound_return {world world' : World Message Config Digest}
    {conn : Option (LiveWsConnection Digest)} {keep : Bool} {now : Instant}
    (returning : world.phase = .returning conn keep) (sound : Sound hashes world)
    (stepped : step hashes world (.returnConnection now) = some world') :
    Sound hashes world' := by
  have holds := sound.phase
  simp only [PhaseHolds, returning] at holds
  obtain ⟨none_, stands⟩ := holds
  simp only [step, returning, SessionInner.returnConnection] at stepped
  cases conn with
  | none =>
    cases stepped
    exact ⟨fun held at_ => holds_of_no_connection none_ held at_, sound.wires⟩
  | some conn =>
    by_cases kept : keep = true ∧ conn.isExpired now = false
    · simp only [if_pos kept] at stepped
      cases stepped
      refine ⟨fun held same => ?_, sound.wires⟩
      cases same
      exact stands conn rfl kept.1
    · simp only [if_neg kept] at stepped
      cases stepped
      exact ⟨none_, sound.wires⟩

omit [DecidableEq Digest] in
/-- In every phase a connection that the session has agrees with the continuation. -/
private theorem holds_agrees {world : World Message Config Digest}
    (holds : PhaseHolds hashes world) (conn : LiveWsConnection Digest)
    (held : world.session.connection = some conn) : StandsFor hashes world (some conn) := by
  rw [PhaseHolds.eq_def] at holds
  split at holds
  case h_1 | h_2 | h_3 => exact holds conn held
  case h_4 | h_5 => exact holds_of_no_connection holds conn held
  all_goals exact holds_of_no_connection holds.1 conn held

omit [DecidableEq Digest] in
/-- A session that loses its connection, and with it perhaps its continuation, holds in every
phase. -/
private theorem holds_without_connection {world : World Message Config Digest}
    {session : SessionInner Digest} (holds : PhaseHolds hashes world)
    (none_ : session.connection = none)
    (fewer : ∀ cont, session.continuation = some cont → world.session.continuation = some cont) :
    PhaseHolds hashes (world.withSession session) := by
  have lost : ∀ conn, session.connection = some conn →
      StandsFor hashes (world.withSession session) (some conn) := by
    intro conn held
    rw [none_] at held
    cases held
  have weaker : ∀ conn, StandsFor hashes world conn →
      StandsFor hashes (world.withSession session) conn :=
    fun conn stands cont held => stands cont (fewer cont held)
  cases phase : world.phase with
  | idle | begun | finishing =>
    simpa only [PhaseHolds, World.withSession, phase] using lost
  | closingStale | closingReturned =>
    simpa only [PhaseHolds, World.withSession, phase] using none_
  | taken turn conn =>
    simp only [PhaseHolds, phase] at holds
    simpa only [PhaseHolds, World.withSession, phase] using
      And.intro none_ (weaker conn holds.2)
  | applied turn conn applied =>
    cases conn with
    | none | some conn =>
      simp only [PhaseHolds, phase] at holds
      simpa only [PhaseHolds, World.withSession, phase] using And.intro none_ holds.2
  | connected turn conn applied | streaming turn conn applied outcome
  | streamed turn conn applied outcome | committing commit back =>
    simp only [PhaseHolds, phase] at holds
    simpa only [PhaseHolds, World.withSession, phase] using And.intro none_ holds.2
  | returning conn keep =>
    simp only [PhaseHolds, phase] at holds
    simpa only [PhaseHolds, World.withSession, phase] using
      And.intro none_ fun held same kept => weaker (some held) (holds.2 held same kept)

/-- Every step keeps the session sound, when equal hashes mean equal lists and configurations. -/
theorem Sound.after_step {world world' : World Message Config Digest}
    {action : Action Message Config} (content : Function.Injective hashes.contentHash)
    (print : Function.Injective hashes.continuationFingerprint) (sound : Sound hashes world)
    (stepped : step hashes world action = some world') : Sound hashes world' := by
  have holds := sound.phase
  cases action with
  | begin turn now =>
    simp only [step] at stepped
    split at stepped <;> cases stepped
    next idle =>
    simp only [PhaseHolds, idle] at holds
    exact ⟨holds, sound.wires⟩
  | take now =>
    cases phase : world.phase with
    | begun turn => exact sound_take phase sound stepped
    | _ =>
      simp only [step, phase] at stepped
      cases stepped
  | staleClosed =>
    simp only [step] at stepped
    split at stepped <;> cases stepped
    next closing =>
    simp only [PhaseHolds, closing] at holds
    exact ⟨⟨holds, nofun⟩, sound.wires⟩
  | apply =>
    simp only [step] at stepped
    split at stepped <;> cases stepped
    next turn conn taken =>
    simp only [PhaseHolds, taken] at holds
    obtain ⟨none_, stands⟩ := holds
    cases conn with
    | none =>
      refine ⟨⟨none_, fun wire => applyContinuation_applies content print fun cont held => ?_⟩,
        sound.wires⟩
      obtain ⟨_, same, _⟩ := stands cont held
      cases same
    | some conn =>
      refine ⟨⟨none_, applyContinuation_applies content print fun cont held => ?_⟩, sound.wires⟩
      obtain ⟨_, same, standing⟩ := stands cont held
      cases same
      exact standing
  | prepareFails =>
    simp only [step] at stepped
    split at stepped <;> cases stepped
    next turn conn applied at_ =>
    cases conn with
    | none =>
      simp only [PhaseHolds, at_] at holds
      exact ⟨⟨holds.1, nofun⟩, sound.wires⟩
    | some conn =>
      simp only [PhaseHolds, at_] at holds
      exact ⟨⟨holds.1, nofun⟩, sound.wires⟩
  | connect now =>
    simp only [step] at stepped
    split at stepped <;> cases stepped
    · next turn applied at_ =>
      simp only [PhaseHolds, at_] at holds
      exact ⟨⟨holds.1, holds.2 _⟩, sound.wires⟩
    · next turn conn applied at_ =>
      simp only [PhaseHolds, at_] at holds
      exact ⟨holds, sound.wires⟩
  | connectFails =>
    simp only [step] at stepped
    split at stepped <;> cases stepped
    next turn applied at_ =>
    simp only [PhaseHolds, at_] at holds
    exact ⟨⟨holds.1, nofun⟩, sound.wires⟩
  | send =>
    simp only [step] at stepped
    split at stepped <;> cases stepped
    next turn conn applied at_ =>
    simp only [PhaseHolds, at_] at holds
    exact sound_send sound.wires holds.1 holds.2
  | sendFails =>
    simp only [step] at stepped
    split at stepped <;> cases stepped
    next turn conn applied at_ =>
    simp only [PhaseHolds, at_] at holds
    exact ⟨⟨holds.1, nofun⟩, sound.wires⟩
  | frame frame =>
    simp only [step] at stepped
    split at stepped <;> cases stepped
    next turn conn applied outcome at_ => exact sound_frame frame at_ sound
  | finalize =>
    simp only [step] at stepped
    split at stepped <;> cases stepped
    · next turn conn applied outcome at_ =>
      simp only [PhaseHolds, at_] at holds
      obtain ⟨none_, incomplete, _, commits⟩ := holds
      refine sound_finalize sound.wires none_ (fun completed => ?_) commits
      rw [incomplete] at completed
      cases completed
    · next turn conn applied outcome at_ =>
      simp only [PhaseHolds, at_] at holds
      exact sound_finalize sound.wires holds.1 holds.2.1 holds.2.2
  | commit now =>
    simp only [step] at stepped
    split at stepped <;> cases stepped
    · next commit at_ =>
      simp only [PhaseHolds, at_] at holds
      refine ⟨fun held same => ?_, sound.wires⟩
      exact holds_of_no_connection ((commit.run_connection _ now).trans holds.1) held same
    · next commit conn keep at_ =>
      simp only [PhaseHolds, at_] at holds
      refine ⟨⟨(commit.run_connection _ now).trans holds.1, fun held same kept cont committed => ?_⟩,
        sound.wires⟩
      have stands := holds.2 held (by rw [same, kept])
      exact ⟨held, rfl, Commit.run_stands stands committed⟩
  | returnConnection now =>
    cases phase : world.phase with
    | returning conn keep => exact sound_return phase sound stepped
    | _ =>
      simp only [step, phase] at stepped
      cases stepped
  | returnedClosed =>
    simp only [step] at stepped
    split at stepped <;> cases stepped
    next keep at_ =>
    simp only [PhaseHolds, at_] at holds
    have closed : (world.session.connectionClosed keep).connection = none := by
      cases keep <;> exact holds
    exact ⟨fun held same => holds_of_no_connection closed held same, sound.wires⟩
  | finish now =>
    simp only [step] at stepped
    split at stepped <;> cases stepped
    next at_ =>
    simp only [PhaseHolds, at_] at holds
    exact ⟨holds, sound.wires⟩
  | abandon now =>
    cases stepped
    have agrees := holds_agrees holds
    exact ⟨agrees, sound.wires⟩
  | invalidate =>
    cases stepped
    exact ⟨holds_without_connection holds rfl nofun, sound.wires⟩
  | invalidateAbandoned =>
    cases stepped
    exact ⟨holds_without_connection holds rfl fun _ held => held, sound.wires⟩

omit [DecidableEq Digest] in
theorem sound_start : Sound hashes (start : World Message Config Digest) :=
  ⟨nofun, fun _ _ _ _ split => absurd split.symm (List.append_ne_nil_of_right_ne_nil _ nofun)⟩

/-- Of hashes that differ on different message lists and different configurations: in every run of
turns on a session, a request with a previous response id is sent on the socket whose last event
is the response with this id, to a request of a turn of the same configuration, whose message list
followed by the messages sent is the message list of the turn; every other request is sent with
the message list of its turn. -/
theorem sent_request_continues {world : World Message Config Digest}
    (content : Function.Injective hashes.contentHash)
    (print : Function.Injective hashes.continuationFingerprint)
    (reached : (machine hashes).Reachable world) (socket : Nat)
    (before : Wire Message Config) (sent : SentRequest Message Config) (after : Wire Message Config)
    (carried : world.wire socket = before ++ .request sent :: after) : Continues before sent := by
  have keep : ∀ world action world', Sound hashes world →
      (machine hashes).step world action = some world' → Sound hashes world' :=
    fun _ _ _ sound stepped => sound.after_step content print stepped
  have sound : Sound hashes world := Machine.Reachable.invariant sound_start keep reached
  exact sound.wires socket before sent after carried

/-- Hashes that keep everything. -/
def plainHashes : Hashes Nat Nat (List Nat) := ⟨id, fun config => [config], fun config => [config]⟩

/-- An empty text is not an error about the previous response. -/
theorem markPreviousNotFound_nil (outcome : StreamTurnOutcome) :
    outcome.markPreviousNotFoundIfNeeded [] = outcome := by
  have quiet : StreamTurnOutcome.textLooksLikePreviousResponseNotFound [] = false := by
    unfold StreamTurnOutcome.textLooksLikePreviousResponseNotFound
    repeat rewrite [String.toList_ofList]
    decide
  rw [StreamTurnOutcome.markPreviousNotFoundIfNeeded, quiet]
  rfl

/-- The turn after a completed one on the same connection sends the new messages only. -/
theorem sent_request_continues_second_turn :
    ∃ world, (machine plainHashes).Reachable world ∧
      ∃ first : SentRequest Nat Nat,
        world.wire 0 = [.request first, .response ['r']] ++
          .request ⟨⟨[1, 2, 3], 7, true⟩, [3], some ['r']⟩ :: [] ∧
        Continues [.request first, .response ['r']] ⟨⟨[1, 2, 3], 7, true⟩, [3], some ['r']⟩ := by
  have ran : ((machine plainHashes).run start
      [.begin ⟨[1, 2], 7, true⟩ 0, .take 0, .apply, .connect 0, .send,
       .frame (.text [] (.ok (some (.ended (some ['r']))))), .finalize, .commit 1,
       .returnConnection 1, .finish 1, .begin ⟨[1, 2, 3], 7, true⟩ 2, .take 2, .apply, .connect 2,
       .send]).map (fun world => world.wire 0) =
      some [.request ⟨⟨[1, 2], 7, true⟩, [1, 2], none⟩, .response ['r'],
        .request ⟨⟨[1, 2, 3], 7, true⟩, [3], some ['r']⟩] := by
    simp [Machine.run, machine, step, start, World.readFrame, markPreviousNotFound_nil]
    rfl
  obtain ⟨world, run, wire⟩ := Option.map_eq_some_iff.mp ran
  have reached := Machine.reachable_of_run .start run
  refine ⟨world, reached, ⟨⟨[1, 2], 7, true⟩, [1, 2], none⟩, wire, ?_⟩
  exact sent_request_continues (fun _ _ same => same) (fun _ _ same => List.head_eq_of_cons_eq same)
    reached 0 _ _ _ wire

end Foco.WsSessions
