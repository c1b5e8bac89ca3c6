import Foco.Maps
import Foco.Runs
import Foco.WsSessions
import Mathlib.Data.Finset.Card
import Mathlib.Logic.Function.Basic

/-!
`providers/openai_resp_ws_session.rs`, the registry of sessions. A session is pinned by a count of
reservations, by its turn lock and by a flag under its state lock; each is taken and given up in
a step of its own, and a caller may be cancelled between them. Locks that are held across an
await are flags; the sections that hold the map lock without one are single steps. An
invalidation takes sessions out of the map whoever has reserved them. Callers asleep for capacity
are woken by `notify_waiters`, which reaches everyone whose `Notified` is enabled.
-/
namespace Foco.WsRegistry
open Foco.RustText Foco.Maps Foco.Runs Foco.WsSessions

/-! ## Sessions and callers -/

/-- `OpenAiRespWsSessionKey`. -/
structure SessionKey where
  workspaceId : Text
  runAffinityId : Text
  providerId : Text
  modelId : Text
  deriving DecidableEq

variable {Digest : Type}

/-- `SessionShared`. -/
structure SessionShared (Digest : Type) where
  key : SessionKey
  turnLocked : Bool
  stateLocked : Bool
  state : SessionInner Digest
  reservedTurns : Nat

/-- The `Drop` of a turn, after an operation of its own has let go of the state lock: the turn is
marked over if the state lock is free, then the turn lock is given up. -/
def SessionShared.dropTurn (shared : SessionShared Digest) (holdsState : Bool) (now : Instant) :
    SessionShared Digest :=
  let left := if holdsState then { shared with stateLocked := false } else shared
  let marked := if left.stateLocked then left else { left with state := left.state.finish now }
  { marked with turnLocked := false }

/-- What an invalidation has still to drop: keys of sessions in the map, which it has locked, or
the sessions that `shutdown_all` has drained. -/
inductive Doomed where
  | keys (keys : List SessionKey)
  | sessions (sessions : List Nat)

/-- Where a caller of the registry stands. -/
inductive Phase where
  | idle
  /-- A `begin_turn` whose `Notified` is enabled, about to lock the map. -/
  | looking (key : SessionKey) (notified : Bool)
  /-- A `begin_turn` that awaits capacity. -/
  | asleep (key : SessionKey) (notified : Bool)
  /-- A `begin_turn` with a reservation that awaits the turn lock. -/
  | queued (session : Nat)
  /-- A `begin_turn` with the turn lock that awaits the state lock. -/
  | locked (session : Nat)
  /-- A turn, inside or outside a section that holds the state lock. -/
  | turn (session : Nat) (holdsState : Bool)
  /-- The turn lock is given up or was never taken; the reservation has still to be released. -/
  | unlocked (session : Nat)
  /-- The reservation is released; `notify_waiters` has still to be called. -/
  | released
  /-- An invalidation between two sessions. -/
  | invalidating (doomed : Doomed)
  /-- An invalidation at a session out of the map, awaiting its state lock or closing its
  connection under it. -/
  | dropping (session : Nat) (holdsState : Bool) (doomed : Doomed)

/-- The registry with the sessions ever created and the callers at work. -/
structure World (Digest : Type) where
  sessions : Map SessionKey Nat
  mapLocked : Bool
  shared : Nat → SessionShared Digest
  nextSession : Nat
  callers : Nat → Phase

/-- Which sessions an invalidation is for. -/
inductive Scope where
  | run (workspaceId runAffinityId : Text)
  | workspace (workspaceId : Text)

inductive Action (Digest : Type) where
  | begin (caller : Nat) (key : SessionKey)
  /-- The map section of `get_or_create_session`; the map is gone through in an order of its own. -/
  | lookUp (caller : Nat) (now : Instant) (order : List (Sigma fun _ : SessionKey => Nat))
  | wake (caller : Nat)
  | takeTurnLock (caller : Nat)
  | enterTurn (caller : Nat) (now : Instant)
  | lockState (caller : Nat)
  /-- The end of an operation of the turn on the state, with the fields it leaves. -/
  | unlockState (caller : Nat) (connection : Option (LiveWsConnection Digest))
      (continuation : Option (ContinuationState Digest)) (lastUsedAt : Instant)
  | finish (caller : Nat) (now : Instant)
  | drop (caller : Nat) (now : Instant)
  | release (caller : Nat)
  | notify (caller : Nat)
  | cancel (caller : Nat)
  | invalidate (caller : Nat) (scope : Scope)
  | shutdownAll (caller : Nat)
  | removeNext (caller : Nat)
  | lockDropped (caller : Nat)
  | droppedClosed (caller : Nat)
  | invalidated (caller : Nat)
  | cancelInvalidation (caller : Nat)

/-- `notify_waiters` on a caller. -/
def Phase.notified : Phase → Phase
  | .looking key _ => .looking key true
  | .asleep key _ => .asleep key true
  | phase => phase

/-- The sessions of `invalidate_run` and `invalidate_workspace`. -/
def Scope.covers (scope : Scope) (key : SessionKey) : Bool :=
  match scope with
  | .run workspaceId runAffinityId =>
    key.workspaceId = workspaceId && key.runAffinityId = runAffinityId
  | .workspace workspaceId => key.workspaceId = workspaceId

namespace World

variable (world : World Digest)

def enter (caller : Nat) (phase : Phase) : World Digest :=
  { world with callers := Function.update world.callers caller phase }

def setShared (session : Nat) (shared : SessionShared Digest) : World Digest :=
  { world with shared := Function.update world.shared session shared }

def setState (session : Nat) (state : SessionInner Digest) : World Digest :=
  world.setShared session { world.shared session with state }

def setTurnLocked (session : Nat) (turnLocked : Bool) : World Digest :=
  world.setShared session { world.shared session with turnLocked }

def setStateLocked (session : Nat) (stateLocked : Bool) : World Digest :=
  world.setShared session { world.shared session with stateLocked }

/-- `notify_waiters`. -/
def notifyWaiters : World Digest :=
  { world with callers := fun caller => (world.callers caller).notified }

/-- A session may be taken out of the map by `reclaim_locked` or `evict_one_idle_locked`: it is
not reserved, its state lock is free, and no turn is in flight. -/
def isIdle (session : Nat) : Bool :=
  (world.shared session).reservedTurns = 0 && !(world.shared session).stateLocked &&
    !(world.shared session).state.turnInFlight

/-- An idle session that `reclaim_locked` removes. -/
def isReclaimable (now : Instant) (session : Nat) : Bool :=
  world.isIdle session &&
    (now - (world.shared session).state.lastUsedAt ≥ openaiRespWsIdleReclaim ||
      (world.shared session).state.connection.any (·.isExpired now))

/-- `reclaim_locked`. -/
def reclaimLocked (now : Instant) : World Digest :=
  let sessions := world.sessions.retain fun _ session => !world.isReclaimable now session
  let reclaimed := { world with sessions }
  if sessions.entries.length < world.sessions.entries.length then reclaimed.notifyWaiters
  else reclaimed

/-- The choice of `evict_one_idle_locked` among the sessions seen so far. -/
def older (oldest : Option (SessionKey × Instant)) (entry : Sigma fun _ : SessionKey => Nat) :
    Option (SessionKey × Instant) :=
  if world.isIdle entry.2 then
    match oldest with
    | some (key, usedAt) =>
      if (world.shared entry.2).state.lastUsedAt ≥ usedAt then some (key, usedAt)
      else some (entry.1, (world.shared entry.2).state.lastUsedAt)
    | none => some (entry.1, (world.shared entry.2).state.lastUsedAt)
  else oldest

/-- `evict_one_idle_locked`, if it evicts one. -/
def evictOneIdleLocked (order : List (Sigma fun _ : SessionKey => Nat)) : Option (World Digest) :=
  (order.foldl world.older none).map fun oldest =>
    { world with sessions := world.sessions.erase oldest.1 }.notifyWaiters

/-- A reservation of a session that is in the map. -/
def reserve (session : Nat) : World Digest :=
  world.setShared session
    { world.shared session with reservedTurns := (world.shared session).reservedTurns + 1 }

/-- A new session in the map, reserved for who creates it. -/
def insertSession (key : SessionKey) (now : Instant) : World Digest :=
  { world with
    sessions := world.sessions.insert key world.nextSession,
    shared := Function.update world.shared world.nextSession
      ⟨key, false, false, ⟨none, none, now, false⟩, 1⟩,
    nextSession := world.nextSession + 1 }

/-- The body of the loop of `get_or_create_session` after the reclaim. -/
def getOrCreate (maxSessions : Nat) (caller : Nat) (key : SessionKey) (notified : Bool)
    (now : Instant) (order : List (Sigma fun _ : SessionKey => Nat)) : World Digest :=
  match world.sessions.lookup key with
  | some session => (world.reserve session).enter caller (.queued session)
  | none =>
    if world.sessions.entries.length ≥ maxSessions then
      match world.evictOneIdleLocked order with
      | some evicted => evicted.enter caller (.looking key false)
      | none => world.enter caller (.asleep key notified)
    else (world.insertSession key now).enter caller (.queued world.nextSession)

end World

open World

/-- One step of a caller. -/
def step (maxSessions : Nat) (world : World Digest) : Action Digest → Option (World Digest)
  | .begin caller key =>
    match world.callers caller with
    | .idle => some (world.enter caller (.looking key false))
    | _ => none
  | .lookUp caller now order =>
    match world.callers caller with
    | .looking key notified =>
      let reclaimed := world.reclaimLocked now
      if world.mapLocked = true ∨ ¬order.Perm reclaimed.sessions.entries then none
      else
        let notified := notified ||
          decide (reclaimed.sessions.entries.length < world.sessions.entries.length)
        some (reclaimed.getOrCreate maxSessions caller key notified now order)
    | _ => none
  | .wake caller =>
    match world.callers caller with
    | .asleep key true => some (world.enter caller (.looking key false))
    | _ => none
  | .takeTurnLock caller =>
    match world.callers caller with
    | .queued session =>
      if (world.shared session).turnLocked then none
      else some ((world.setTurnLocked session true).enter caller (.locked session))
    | _ => none
  | .enterTurn caller now =>
    match world.callers caller with
    | .locked session =>
      if (world.shared session).stateLocked then none
      else some ((world.setState session ((world.shared session).state.beginTurn now)).enter caller
        (.turn session false))
    | _ => none
  | .lockState caller =>
    match world.callers caller with
    | .turn session false =>
      if (world.shared session).stateLocked then none
      else some ((world.setStateLocked session true).enter caller (.turn session true))
    | _ => none
  | .unlockState caller connection continuation lastUsedAt =>
    match world.callers caller with
    | .turn session true =>
      some ((world.setShared session
        { world.shared session with
          stateLocked := false,
          state :=
            { (world.shared session).state with connection, continuation, lastUsedAt } }).enter
              caller (.turn session false))
    | _ => none
  | .finish caller now =>
    match world.callers caller with
    | .turn session false =>
      if (world.shared session).stateLocked then none
      else some (world.setState session ((world.shared session).state.finish now))
    | _ => none
  | .drop caller now =>
    match world.callers caller with
    | .turn session holdsState =>
      some ((world.setShared session ((world.shared session).dropTurn holdsState now)).enter caller
        (.unlocked session))
    | _ => none
  | .release caller =>
    match world.callers caller with
    | .unlocked session =>
      some ((world.setShared session
        { world.shared session with
          reservedTurns := (world.shared session).reservedTurns - 1 }).enter caller .released)
    | _ => none
  | .notify caller =>
    match world.callers caller with
    | .released => some (world.notifyWaiters.enter caller .idle)
    | _ => none
  | .cancel caller =>
    match world.callers caller with
    | .looking _ _ => some (world.enter caller .idle)
    | .asleep _ _ => some (world.enter caller .idle)
    | .queued session => some (world.enter caller (.unlocked session))
    | .locked session =>
      some ((world.setTurnLocked session false).enter caller (.unlocked session))
    | _ => none
  | .invalidate caller scope =>
    match world.callers caller with
    | .idle =>
      if world.mapLocked then none
      else some ({ world with mapLocked := true }.enter caller
        (.invalidating (.keys (world.sessions.keys.filter scope.covers))))
    | _ => none
  | .shutdownAll caller =>
    match world.callers caller with
    | .idle =>
      if world.mapLocked then none
      else some ({ world with sessions := ∅ }.enter caller
        (.invalidating (.sessions (world.sessions.entries.map Sigma.snd))))
    | _ => none
  | .removeNext caller =>
    match world.callers caller with
    | .invalidating (.keys (key :: keys)) =>
      match world.sessions.lookup key with
      | some session =>
        some ({ world with sessions := world.sessions.erase key }.enter caller
          (.dropping session false (.keys keys)))
      | none => some (world.enter caller (.invalidating (.keys keys)))
    | .invalidating (.sessions (session :: sessions)) =>
      some (world.enter caller (.dropping session false (.sessions sessions)))
    | _ => none
  | .lockDropped caller =>
    match world.callers caller with
    | .dropping session false doomed =>
      if (world.shared session).stateLocked then none
      else some ((world.setShared session
        { world.shared session with
          stateLocked := true,
          state := (world.shared session).state.dropConnectionOnly }).enter caller
            (.dropping session true doomed))
    | _ => none
  | .droppedClosed caller =>
    match world.callers caller with
    | .dropping session true doomed =>
      some ((world.setShared session
        { world.shared session with
          stateLocked := false,
          state := (world.shared session).state.dropSessionConnection }).enter caller
            (.invalidating doomed))
    | _ => none
  | .invalidated caller =>
    match world.callers caller with
    | .invalidating (.keys []) =>
      some ({ world with mapLocked := false }.notifyWaiters.enter caller .idle)
    | .invalidating (.sessions []) => some (world.notifyWaiters.enter caller .idle)
    | _ => none
  | .cancelInvalidation caller =>
    match world.callers caller with
    | .invalidating (.keys _) => some ({ world with mapLocked := false }.enter caller .idle)
    | .invalidating (.sessions _) => some (world.enter caller .idle)
    | .dropping session holdsState doomed =>
      let unlocked := if holdsState then world.setStateLocked session false else world
      match doomed with
      | .keys _ => some ({ unlocked with mapLocked := false }.enter caller .idle)
      | .sessions _ => some (unlocked.enter caller .idle)
    | _ => none

/-- `OpenAiRespWsSessionRegistry::new`. Sessions that do not exist yet are blank. -/
def start : World Digest :=
  ⟨∅, false, fun _ => ⟨⟨[], [], [], []⟩, false, false, ⟨none, none, 0, false⟩, 0⟩, 0, fun _ => .idle⟩

/-- `max_sessions.max(1)`. -/
def capacity (maxSessions : Nat) : Nat := max maxSessions 1

def machine (maxSessions : Nat) : Machine (World Digest) (Action Digest) :=
  ⟨start, step (capacity maxSessions)⟩

end Foco.WsRegistry
