import Foco.WsRegistry

/-!
What holds in every run of the session registry: its map never grows past the capacity, a reclaim
or an eviction leaves reserved sessions alone, and a caller sleeps for capacity only while every
session in the map is reserved or a wake-up is due. One turn at a time per key holds in runs that
insert a session for a key only when no session of the key, taken out of the map by an
invalidation, is still reserved.
-/
namespace Foco.WsRegistry
open Foco.RustText Foco.Maps Foco.Runs Foco.WsSessions

variable {Digest : Type}

/-! ## What a phase stands for -/

namespace Phase

/-- A caller in the phase has one of the reservations of a session. -/
def Reserves (phase : Phase) (session : Nat) : Prop :=
  match phase with
  | .queued s | .locked s | .unlocked s | .turn s _ => s = session
  | _ => False

/-- A caller in the phase has the turn lock of a session: its turn is in flight. -/
def HoldsTurn (phase : Phase) (session : Nat) : Prop :=
  match phase with
  | .locked s | .turn s _ => s = session
  | _ => False

/-- An invalidation in the phase has taken a session out of the map and not dropped it yet. -/
def Dooms (phase : Phase) (session : Nat) : Prop :=
  match phase with
  | .dropping s _ (.sessions sessions) => s = session ∨ session ∈ sessions
  | .dropping s _ (.keys _) => s = session
  | .invalidating (.sessions sessions) => session ∈ sessions
  | _ => False

theorem reserves_notified {phase : Phase} {session : Nat} :
    phase.notified.Reserves session ↔ phase.Reserves session := by
  cases phase <;> rfl

theorem holdsTurn_notified {phase : Phase} {session : Nat} :
    phase.notified.HoldsTurn session ↔ phase.HoldsTurn session := by
  cases phase <;> rfl

theorem dooms_notified {phase : Phase} {session : Nat} :
    phase.notified.Dooms session ↔ phase.Dooms session := by
  cases phase <;> rfl

theorem notified_eq_turn {phase : Phase} {session : Nat} {holdsState : Bool} :
    phase.notified = .turn session holdsState ↔ phase = .turn session holdsState := by
  cases phase <;> simp [notified]

theorem notified_ne_asleep {phase : Phase} {key : SessionKey} :
    phase.notified ≠ .asleep key false := by
  cases phase <;> simp [notified]

end Phase

/-! ## The invariant -/

namespace World

/-- The map files sessions that exist under their keys. -/
def Filed (world : World Digest) : Prop :=
  ∀ key session, world.sessions.lookup key = some session →
    (world.shared session).key = key ∧ session < world.nextSession

/-- The count of reservations of a session is the number of callers that have one, and only
sessions that exist are reserved. -/
def Counted (world : World Digest) : Prop :=
  (∀ session, ∃ callers : Finset Nat,
    callers.card = (world.shared session).reservedTurns ∧
      ∀ caller, caller ∈ callers ↔ (world.callers caller).Reserves session) ∧
  ∀ caller session, (world.callers caller).Reserves session → session < world.nextSession

/-- Who has the turn lock of a session has it alone, and it is locked. -/
def Exclusive (world : World Digest) : Prop :=
  (∀ caller session, (world.callers caller).HoldsTurn session →
    (world.shared session).turnLocked = true) ∧
  ∀ caller other session, (world.callers caller).HoldsTurn session →
    (world.callers other).HoldsTurn session → caller = other

/-- A session that an invalidation is about to drop exists and is out of the map. -/
def Detached (world : World Digest) : Prop :=
  ∀ caller session, (world.callers caller).Dooms session →
    session < world.nextSession ∧ ∀ key, world.sessions.lookup key ≠ some session

/-- A session in the map is marked in flight, or has its state locked, only by a turn. -/
def Marked (world : World Digest) : Prop :=
  ∀ key session, world.sessions.lookup key = some session →
    ((world.shared session).state.turnInFlight = true →
      ∃ caller holdsState, world.callers caller = .turn session holdsState) ∧
    ((world.shared session).stateLocked = true → ∃ caller, world.callers caller = .turn session true)

/-- A caller sleeps without a wake-up only while one is due or every session in the map is
reserved. -/
def Awake (world : World Digest) : Prop :=
  ∀ caller key, world.callers caller = .asleep key false →
    (∃ other, world.callers other = .released) ∨
      ∀ key session, world.sessions.lookup key = some session →
        0 < (world.shared session).reservedTurns

end World

/-- What holds in every run. -/
structure Sound (maxSessions : Nat) (world : World Digest) : Prop where
  filed : world.Filed
  bounded : world.sessions.entries.length ≤ maxSessions
  counted : world.Counted
  exclusive : world.Exclusive
  detached : world.Detached
  marked : world.Marked
  awake : world.Awake

/-! ## How a step may change the world -/

/-- One caller changes its phase; the others are at most notified. -/
structure Moves (world world' : World Digest) (caller : Nat) (phase phase' : Phase) : Prop where
  before : world.callers caller = phase
  after : world'.callers caller = phase'
  others : ∀ other, other ≠ caller →
    world'.callers other = world.callers other ∨
      world'.callers other = (world.callers other).notified

namespace Moves

variable {world world' : World Digest} {caller : Nat} {phase phase' : Phase}

/-- What notifying does not change holds of a caller after the move if it held before, or of the
one that moved if it holds of its new phase. -/
theorem lift (moves : Moves world world' caller phase phase') {P : Phase → Prop}
    (quiet : ∀ phase, P phase.notified ↔ P phase) (other : Nat) :
    P (world'.callers other) ↔ (other = caller ∧ P phase') ∨ (other ≠ caller ∧ P (world.callers other)) := by
  by_cases same : other = caller
  · rw [same, moves.after]
    simp
  · rcases moves.others other same with eq | eq
    · rw [eq]
      simp [same]
    · rw [eq, quiet]
      simp [same]

theorem reserves (moves : Moves world world' caller phase phase') (other session : Nat) :
    (world'.callers other).Reserves session ↔ (other = caller ∧ phase'.Reserves session) ∨
      (other ≠ caller ∧ (world.callers other).Reserves session) :=
  moves.lift (P := fun phase => phase.Reserves session) (fun _ => Phase.reserves_notified) other

theorem holdsTurn (moves : Moves world world' caller phase phase') (other session : Nat) :
    (world'.callers other).HoldsTurn session ↔ (other = caller ∧ phase'.HoldsTurn session) ∨
      (other ≠ caller ∧ (world.callers other).HoldsTurn session) :=
  moves.lift (P := fun phase => phase.HoldsTurn session) (fun _ => Phase.holdsTurn_notified) other

/-- Everyone is notified, then a caller enters a phase. -/
theorem notify (between : World Digest) (at_ : world.callers caller = phase)
    (same : between.callers = world.callers) (next : Phase) :
    Moves world (between.notifyWaiters.enter caller next) caller phase next where
  before := at_
  after := Function.update_self _ _ _
  others := fun other apart => .inr <| by
    rw [World.enter, World.notifyWaiters, same]
    exact Function.update_of_ne apart _ _

theorem dooms (moves : Moves world world' caller phase phase') (other session : Nat) :
    (world'.callers other).Dooms session ↔ (other = caller ∧ phase'.Dooms session) ∨
      (other ≠ caller ∧ (world.callers other).Dooms session) :=
  moves.lift (P := fun phase => phase.Dooms session) (fun _ => Phase.dooms_notified) other

/-- A caller enters a phase after a change that leaves the callers alone. -/
theorem enter (between : World Digest) (at_ : world.callers caller = phase)
    (same : between.callers = world.callers) (next : Phase) :
    Moves world (between.enter caller next) caller phase next where
  before := at_
  after := Function.update_self _ _ _
  others := fun _ apart => .inl ((Function.update_of_ne apart _ _).trans (by rw [same]))

end Moves

section Groups

variable {world world' : World Digest} {caller : Nat} {phase phase' : Phase}

/-- A move keeps the counts if it keeps what is reserved and the counts of every session. -/
theorem World.Counted.move (counted : world.Counted)
    (moves : Moves world world' caller phase phase')
    (same : ∀ session, phase'.Reserves session ↔ phase.Reserves session)
    (counts : ∀ session, (world'.shared session).reservedTurns = (world.shared session).reservedTurns)
    (more : world.nextSession ≤ world'.nextSession) : world'.Counted := by
  have reserves : ∀ other session,
      (world'.callers other).Reserves session ↔ (world.callers other).Reserves session := by
    intro other session
    rw [moves.reserves other session]
    by_cases isCaller : other = caller
    · simp only [isCaller, true_and, ne_eq, not_true_eq_false, false_and, or_false, moves.before,
        same session]
    · simp only [isCaller, false_and, ne_eq, not_false_eq_true, true_and, false_or]
  refine ⟨fun session => ?_, fun other session held => ?_⟩
  · obtain ⟨callers, card, mem⟩ := counted.1 session
    exact ⟨callers, card.trans (counts session).symm, fun other =>
      (mem other).trans (reserves other session).symm⟩
  · exact Nat.lt_of_lt_of_le (counted.2 other session ((reserves other session).mp held)) more

/-- A move to a reservation of an existing session counts one more. -/
theorem World.Counted.reserve (counted : world.Counted) {session : Nat}
    (moves : Moves world world' caller phase phase')
    (free : ∀ other, ¬phase.Reserves other)
    (reserved : ∀ other, phase'.Reserves other ↔ session = other)
    (one : (world'.shared session).reservedTurns = (world.shared session).reservedTurns + 1)
    (counts : ∀ other, other ≠ session →
      (world'.shared other).reservedTurns = (world.shared other).reservedTurns)
    (more : world.nextSession ≤ world'.nextSession) (made : session < world'.nextSession) :
    world'.Counted := by
  have reserves : ∀ other target, (world'.callers other).Reserves target ↔
      (other = caller ∧ session = target) ∨
        (other ≠ caller ∧ (world.callers other).Reserves target) := by
    intro other target
    rw [moves.reserves other target, reserved target]
  refine ⟨fun target => ?_, fun other target held => ?_⟩
  · obtain ⟨callers, card, mem⟩ := counted.1 target
    have fresh : caller ∉ callers := by
      rw [mem caller, moves.before]
      exact free target
    by_cases same : target = session
    · subst same
      refine ⟨insert caller callers, ?_, fun other => ?_⟩
      · rw [Finset.card_insert_of_notMem fresh, card, one]
      · rw [Finset.mem_insert, mem other, reserves other target]
        by_cases isCaller : other = caller
        · simp only [isCaller, true_or, true_and, ne_eq, not_true_eq_false, false_and, or_false]
        · simp only [isCaller, false_or, false_and, ne_eq, not_false_eq_true, true_and]
    · refine ⟨callers, card.trans (counts target same).symm, fun other => ?_⟩
      rw [mem other, reserves other target]
      by_cases isCaller : other = caller
      · simp only [isCaller, moves.before, free target, Ne.symm same, and_false, ne_eq,
          not_true_eq_false, false_and, or_false]
      · simp only [isCaller, false_and, ne_eq, not_false_eq_true, true_and, false_or]
  · rcases (reserves other target).mp held with ⟨_, rfl⟩ | ⟨_, earlier⟩
    · exact made
    · exact Nat.lt_of_lt_of_le (counted.2 other target earlier) more

/-- A move out of a reservation counts one less. -/
theorem World.Counted.release (counted : world.Counted) {session : Nat}
    (moves : Moves world world' caller phase phase')
    (reserved : ∀ other, phase.Reserves other ↔ session = other)
    (free : ∀ other, ¬phase'.Reserves other)
    (one : (world'.shared session).reservedTurns = (world.shared session).reservedTurns - 1)
    (counts : ∀ other, other ≠ session →
      (world'.shared other).reservedTurns = (world.shared other).reservedTurns)
    (more : world.nextSession ≤ world'.nextSession) : world'.Counted := by
  have reserves : ∀ other target, (world'.callers other).Reserves target ↔
      other ≠ caller ∧ (world.callers other).Reserves target := by
    intro other target
    rw [moves.reserves other target]
    simp only [free target, and_false, false_or]
  refine ⟨fun target => ?_, fun other target held => ?_⟩
  · obtain ⟨callers, card, mem⟩ := counted.1 target
    by_cases same : target = session
    · subst same
      have held : caller ∈ callers := by
        rw [mem caller, moves.before]
        exact (reserved target).mpr rfl
      refine ⟨callers.erase caller, ?_, fun other => ?_⟩
      · rw [Finset.card_erase_of_mem held, card, one]
      · rw [Finset.mem_erase, mem other, reserves other target]
    · refine ⟨callers, card.trans (counts target same).symm, fun other => ?_⟩
      rw [mem other, reserves other target]
      by_cases isCaller : other = caller
      · simp only [isCaller, moves.before, reserved target, Ne.symm same, ne_eq,
          not_true_eq_false, and_false]
      · simp only [isCaller, ne_eq, not_false_eq_true, true_and]
  · exact Nat.lt_of_lt_of_le (counted.2 other target ((reserves other target).mp held).2) more

/-- A reservation is counted. -/
theorem World.Counted.pos (counted : world.Counted) {session : Nat}
    (held : (world.callers caller).Reserves session) : 0 < (world.shared session).reservedTurns := by
  obtain ⟨callers, card, mem⟩ := counted.1 session
  rw [← card]
  exact Finset.card_pos.mpr ⟨caller, (mem caller).mpr held⟩

/-- A move that takes no turn lock keeps the locks. -/
theorem World.Exclusive.move (exclusive : world.Exclusive)
    (moves : Moves world world' caller phase phase')
    (fewer : ∀ session, phase'.HoldsTurn session → phase.HoldsTurn session)
    (locks : ∀ session, (world'.shared session).turnLocked = (world.shared session).turnLocked) :
    world'.Exclusive := by
  have holds : ∀ other session, (world'.callers other).HoldsTurn session →
      (world.callers other).HoldsTurn session := by
    intro other session held
    rcases (moves.holdsTurn other session).mp held with
      ⟨rfl, held⟩ | ⟨_, held⟩
    · rw [moves.before]
      exact fewer session held
    · exact held
  refine ⟨fun other session held => ?_, fun first second session one two => ?_⟩
  · rw [locks session]
    exact exclusive.1 other session (holds other session held)
  · exact exclusive.2 first second session (holds first session one) (holds second session two)

/-- A free turn lock is taken. -/
theorem World.Exclusive.take (exclusive : world.Exclusive) {session : Nat}
    (moves : Moves world world' caller phase phase')
    (held : ∀ other, phase'.HoldsTurn other → session = other)
    (free : (world.shared session).turnLocked = false)
    (locked : (world'.shared session).turnLocked = true)
    (locks : ∀ other, other ≠ session →
      (world'.shared other).turnLocked = (world.shared other).turnLocked) : world'.Exclusive := by
  have holds : ∀ other target, (world'.callers other).HoldsTurn target →
      (other = caller ∧ session = target) ∨
        (world.callers other).HoldsTurn target := by
    intro other target now
    rcases (moves.holdsTurn other target).mp now with
      ⟨same, taken⟩ | ⟨_, earlier⟩
    · exact .inl ⟨same, held target taken⟩
    · exact .inr earlier
  have apart : ∀ other target, (world.callers other).HoldsTurn target → session ≠ target := by
    rintro other target earlier rfl
    rw [exclusive.1 other session earlier] at free
    cases free
  refine ⟨fun other target now => ?_, fun first second target one two => ?_⟩
  · rcases holds other target now with ⟨_, rfl⟩ | earlier
    · exact locked
    · rw [locks target (apart other target earlier).symm]
      exact exclusive.1 other target earlier
  · rcases holds first target one with ⟨isFirst, same⟩ | first_
    · rcases holds second target two with ⟨isSecond, _⟩ | second_
      · exact isFirst.trans isSecond.symm
      · exact absurd same (apart second target second_)
    · rcases holds second target two with ⟨_, same⟩ | second_
      · exact absurd same (apart first target first_)
      · exact exclusive.2 first second target first_ second_

/-- Who has a turn lock gives it up. -/
theorem World.Exclusive.giveUp (exclusive : world.Exclusive) {session : Nat}
    (moves : Moves world world' caller phase phase') (held : phase.HoldsTurn session)
    (free : ∀ other, ¬phase'.HoldsTurn other)
    (locks : ∀ other, other ≠ session →
      (world'.shared other).turnLocked = (world.shared other).turnLocked) : world'.Exclusive := by
  have holds : ∀ other target, (world'.callers other).HoldsTurn target →
      other ≠ caller ∧ (world.callers other).HoldsTurn target := by
    intro other target now
    rcases (moves.holdsTurn other target).mp now with
      ⟨_, taken⟩ | earlier
    · exact absurd taken (free target)
    · exact earlier
  refine ⟨fun other target now => ?_, fun first second target one two => ?_⟩
  · obtain ⟨apart, earlier⟩ := holds other target now
    have elsewhere : target ≠ session := by
      rintro rfl
      exact apart (exclusive.2 other caller target earlier (moves.before ▸ held))
    rw [locks target elsewhere]
    exact exclusive.1 other target earlier
  · exact exclusive.2 first second target (holds first target one).2 (holds second target two).2

/-- A move that dooms only sessions out of the map, and files none that is doomed, keeps them
detached. -/
theorem World.Detached.move (detached : world.Detached)
    (moves : Moves world world' caller phase phase')
    (doomed : ∀ session, phase'.Dooms session → phase.Dooms session ∨
      (session < world.nextSession ∧ ∀ key, world'.sessions.lookup key ≠ some session))
    (filed : ∀ key session, world'.sessions.lookup key = some session →
      world.sessions.lookup key = some session ∨ world.nextSession ≤ session)
    (more : world.nextSession ≤ world'.nextSession) : world'.Detached := by
  have still : ∀ other session, (world.callers other).Dooms session →
      session < world'.nextSession ∧ ∀ key, world'.sessions.lookup key ≠ some session := by
    intro other session dooms
    obtain ⟨made, out⟩ := detached other session dooms
    refine ⟨Nat.lt_of_lt_of_le made more, fun key found => ?_⟩
    rcases filed key session found with old | new
    · exact out key old
    · exact Nat.not_lt.mpr new made
  intro other session dooms
  rcases (moves.dooms other session).mp dooms with ⟨rfl, dooms⟩ | ⟨_, dooms⟩
  · rcases doomed session dooms with earlier | ⟨made, out⟩
    · exact still other session (moves.before ▸ earlier)
    · exact ⟨Nat.lt_of_lt_of_le made more, out⟩
  · exact still other session dooms

/-- The map may lose sessions, and a caller that is in no turn may move, under the marks. -/
theorem World.Marked.move (marked : world.Marked)
    (moves : Moves world world' caller phase phase')
    (noTurn : ∀ session holdsState, phase ≠ .turn session holdsState)
    (kept : ∀ key session, world'.sessions.lookup key = some session →
      world.sessions.lookup key = some session ∧
        (world'.shared session).state.turnInFlight = (world.shared session).state.turnInFlight ∧
        (world'.shared session).stateLocked = (world.shared session).stateLocked) :
    world'.Marked := by
  have turns : ∀ other session holdsState, world.callers other = .turn session holdsState →
      world'.callers other = .turn session holdsState := by
    intro other session holdsState earlier
    refine (moves.lift (P := fun phase => phase = .turn session holdsState)
      (fun _ => Phase.notified_eq_turn) other).mpr (.inr ⟨?_, earlier⟩)
    rintro rfl
    exact noTurn session holdsState (moves.before.symm.trans earlier)
  intro key session found
  obtain ⟨earlier, flight, locked⟩ := kept key session found
  obtain ⟨byTurn, bySection⟩ := marked key session earlier
  refine ⟨fun inFlight => ?_, fun isLocked => ?_⟩
  · obtain ⟨other, holdsState, at_⟩ := byTurn (flight ▸ inFlight)
    exact ⟨other, holdsState, turns other session holdsState at_⟩
  · obtain ⟨other, at_⟩ := bySection (locked ▸ isLocked)
    exact ⟨other, turns other session true at_⟩

/-- A caller in a turn on a session, or about to be, may change the marks of the session, if they
are right after the move. -/
theorem World.Marked.here (marked : world.Marked) (target : Nat)
    (moves : Moves world world' caller phase phase')
    (onTarget : ∀ session holdsState, phase = .turn session holdsState → session = target)
    (kept : ∀ key session, world'.sessions.lookup key = some session →
      world.sessions.lookup key = some session)
    (elsewhere : ∀ session, session ≠ target →
      (world'.shared session).state.turnInFlight = (world.shared session).state.turnInFlight ∧
        (world'.shared session).stateLocked = (world.shared session).stateLocked)
    (flight : ∀ key, world.sessions.lookup key = some target →
      (world'.shared target).state.turnInFlight = true →
      ∃ holdsState, phase' = .turn target holdsState)
    (locked : ∀ key, world.sessions.lookup key = some target →
      (world'.shared target).stateLocked = true → phase' = .turn target true) :
    world'.Marked := by
  have turns : ∀ other session holdsState, session ≠ target →
      world.callers other = .turn session holdsState →
      world'.callers other = .turn session holdsState := by
    intro other session holdsState apart earlier
    refine (moves.lift (P := fun phase => phase = .turn session holdsState)
      (fun _ => Phase.notified_eq_turn) other).mpr (.inr ⟨?_, earlier⟩)
    rintro rfl
    exact apart (onTarget session holdsState (moves.before.symm.trans earlier))
  intro key session found
  by_cases same : session = target
  · subst same
    have filed := kept key session found
    refine ⟨fun inFlight => ?_, fun isLocked => ?_⟩
    · obtain ⟨holdsState, now⟩ := flight key filed inFlight
      exact ⟨caller, holdsState, moves.after.trans now⟩
    · exact ⟨caller, moves.after.trans (locked key filed isLocked)⟩
  · obtain ⟨byTurn, bySection⟩ := marked key session (kept key session found)
    obtain ⟨sameFlight, sameLocked⟩ := elsewhere session same
    refine ⟨fun inFlight => ?_, fun isLocked => ?_⟩
    · obtain ⟨other, holdsState, at_⟩ := byTurn (sameFlight ▸ inFlight)
      exact ⟨other, holdsState, turns other session holdsState same at_⟩
    · obtain ⟨other, at_⟩ := bySection (sameLocked ▸ isLocked)
      exact ⟨other, turns other session true same at_⟩

/-- A move that ends no release, and puts its caller to sleep only when every session in the map is
reserved, keeps the sleepers awake, if reserved sessions stay reserved and only reserved ones are
filed. -/
theorem World.Awake.move (awake : world.Awake) (moves : Moves world world' caller phase phase')
    (awoken : ∀ key, phase' = .asleep key false → ∀ key session,
      world'.sessions.lookup key = some session → 0 < (world'.shared session).reservedTurns) (due : phase ≠ .released)
    (kept : ∀ key session, world'.sessions.lookup key = some session →
      0 < (world'.shared session).reservedTurns ∨
        (world.sessions.lookup key = some session ∧
          (world'.shared session).reservedTurns = (world.shared session).reservedTurns)) :
    world'.Awake := by
  intro sleeper key asleep
  by_cases isCaller : sleeper = caller
  · rw [isCaller, moves.after] at asleep
    exact .inr (awoken key asleep)
  · have earlier : world.callers sleeper = .asleep key false := by
      rcases moves.others sleeper isCaller with same | notified
      · exact same.symm.trans asleep
      · exact absurd (notified.symm.trans asleep) Phase.notified_ne_asleep
    rcases awake sleeper key earlier with ⟨other, released⟩ | reserved
    · left
      have apart : other ≠ caller := by
        rintro rfl
        exact due (moves.before.symm.trans released)
      refine ⟨other, ?_⟩
      rcases moves.others other apart with same | notified
      · exact same.trans released
      · rw [notified, released]
        rfl
    · right
      intro key session found
      rcases kept key session found with positive | ⟨old, same⟩
      · exact positive
      · rw [same]
        exact reserved key session old

/-- After everyone is notified nobody sleeps without a wake-up. -/
theorem World.awake_of_notified (notified : ∀ other, other ≠ caller →
    world'.callers other = (world.callers other).notified)
    (awoken : ∀ key, world'.callers caller ≠ .asleep key false) : world'.Awake := by
  intro sleeper key asleep
  by_cases isCaller : sleeper = caller
  · exact absurd (isCaller ▸ asleep) (awoken key)
  · exact absurd ((notified sleeper isCaller).symm.trans asleep) Phase.notified_ne_asleep

end Groups

/-! ## Steps -/

section Steps

variable {maxSessions : Nat} {world world' : World Digest} {caller : Nat} {phase phase' : Phase}

theorem World.shared_setShared (world : World Digest) (target session : Nat)
    (shared : SessionShared Digest) : (world.setShared target shared).shared session =
      if session = target then shared else world.shared session := by
  simp only [World.setShared, Function.update_apply]

/-- A column that the new value of a session keeps is as it was everywhere. -/
theorem World.column_setShared {α : Type} (column : SessionShared Digest → α) {target : Nat}
    {shared : SessionShared Digest} (same : column shared = column (world.shared target))
    (session : Nat) :
    column ((world.setShared target shared).shared session) = column (world.shared session) := by
  rw [World.shared_setShared]
  split
  · next eq => rw [same, eq]
  · rfl

theorem World.shared_setShared_of_ne (world : World Digest) {target session : Nat}
    (shared : SessionShared Digest) (apart : session ≠ target) : (world.setShared target shared).shared session =
      world.shared session := by
  rw [World.shared_setShared, if_neg apart]

theorem World.shared_setShared_self (world : World Digest) (target : Nat) (shared : SessionShared Digest) :
    (world.setShared target shared).shared target = shared := by
  rw [World.shared_setShared, if_pos rfl]

/-- A move that changes no session, and at most removes sessions from the map. -/
theorem Sound.quiet (sound : Sound maxSessions world)
    (moves : Moves world world' caller phase phase')
    (kept : ∀ key session, world'.sessions.lookup key = some session →
      world.sessions.lookup key = some session)
    (smaller : world'.sessions.entries.length ≤ world.sessions.entries.length)
    (shared : world'.shared = world.shared) (next : world'.nextSession = world.nextSession)
    (reserves : ∀ session, phase'.Reserves session ↔ phase.Reserves session)
    (holds : ∀ session, phase'.HoldsTurn session → phase.HoldsTurn session)
    (doomed : ∀ session, phase'.Dooms session → phase.Dooms session ∨
      (session < world.nextSession ∧ ∀ key, world'.sessions.lookup key ≠ some session))
    (noTurn : ∀ session holdsState, phase ≠ .turn session holdsState)
    (awoken : ∀ key, phase' = .asleep key false → ∀ key session,
      world'.sessions.lookup key = some session → 0 < (world'.shared session).reservedTurns)
    (due : phase ≠ .released) : Sound maxSessions world' where
  filed := by
    intro key session found
    rw [shared, next]
    exact sound.filed key session (kept key session found)
  bounded := Nat.le_trans smaller sound.bounded
  counted := sound.counted.move moves reserves (fun _ => by rw [shared]) next.ge
  exclusive := sound.exclusive.move moves holds fun _ => by rw [shared]
  detached := sound.detached.move moves doomed
    (fun key session found => .inl (kept key session found)) next.ge
  marked := sound.marked.move moves noTurn fun key session found =>
    ⟨kept key session found, by rw [shared], by rw [shared]⟩
  awake := sound.awake.move moves awoken due fun key session found =>
    .inr ⟨kept key session found, by rw [shared]⟩

/-- A caller that enters another phase, with no session and no reservation changed. -/
theorem Sound.enter (sound : Sound maxSessions world) (between : World Digest)
    (at_ : world.callers caller = phase) (callers : between.callers = world.callers)
    (sessions : between.sessions = world.sessions) (shared : between.shared = world.shared)
    (next : between.nextSession = world.nextSession)
    (reserves : ∀ session, phase'.Reserves session ↔ phase.Reserves session)
    (holds : ∀ session, phase'.HoldsTurn session → phase.HoldsTurn session)
    (dooms : ∀ session, phase'.Dooms session → phase.Dooms session)
    (noTurn : ∀ session holdsState, phase ≠ .turn session holdsState)
    (awoken : ∀ key, phase' ≠ .asleep key false) (due : phase ≠ .released) :
    Sound maxSessions (between.enter caller phase') :=
  sound.quiet (Moves.enter between at_ callers phase') (fun _ _ found => sessions ▸ found)
    (by rw [← sessions]; exact Nat.le_refl _) shared next reserves holds
    (fun session now => .inl (dooms session now)) noTurn
    (fun key asleep => absurd asleep (awoken key)) due

/-- A move that sets a session but not its key, reservations, marks or the map, and takes or gives
up no turn lock but as `exclusive` says. -/
theorem Sound.set (sound : Sound maxSessions world) {target : Nat} {shared : SessionShared Digest}
    (at_ : world.callers caller = phase)
    (key : shared.key = (world.shared target).key)
    (counted : ((world.setShared target shared).enter caller phase').Counted)
    (exclusive : ((world.setShared target shared).enter caller phase').Exclusive)
    (dooms : ∀ session, phase'.Dooms session → phase.Dooms session)
    (marked : ((world.setShared target shared).enter caller phase').Marked)
    (awoken : ∀ key, phase' ≠ .asleep key false) (due : phase ≠ .released)
    (reserved : shared.reservedTurns = (world.shared target).reservedTurns) :
    Sound maxSessions ((world.setShared target shared).enter caller phase') where
  filed := by
    intro key' session found
    obtain ⟨filed, made⟩ := sound.filed key' session found
    exact ⟨(World.column_setShared (·.key) key session).trans filed, made⟩
  bounded := sound.bounded
  counted := counted
  exclusive := exclusive
  detached := sound.detached.move (Moves.enter (world.setShared target shared) at_ rfl phase')
    (fun session now => .inl (dooms session now)) (fun _ _ found => .inl found) (Nat.le_refl _)
  marked := marked
  awake := sound.awake.move (Moves.enter (world.setShared target shared) at_ rfl phase')
    (fun key asleep => absurd asleep (awoken key)) due fun _ session found =>
      .inr ⟨found, World.column_setShared (·.reservedTurns) reserved session⟩

/-- A caller that waits for the turn lock takes it. -/
private theorem sound_takeTurnLock (sound : Sound maxSessions world) {session : Nat}
    (at_ : world.callers caller = .queued session)
    (free : (world.shared session).turnLocked = false) :
    Sound maxSessions ((world.setTurnLocked session true).enter caller (.locked session)) := by
  have moves := Moves.enter (world.setTurnLocked session true) at_ rfl (.locked session)
  refine sound.set at_ rfl ?_ ?_ nofun ?_ nofun nofun rfl
  · exact sound.counted.move moves (fun _ => .rfl)
      (World.column_setShared (·.reservedTurns) (by rfl)) (Nat.le_refl _)
  · refine sound.exclusive.take moves (fun _ held => held) free ?_ fun other apart => ?_
    · have now := world.shared_setShared_self session
        { world.shared session with turnLocked := true }
      exact congrArg (fun shared => shared.turnLocked) now
    · have same := world.shared_setShared_of_ne
        { world.shared session with turnLocked := true } apart
      exact congrArg (fun shared => shared.turnLocked) same
  · refine sound.marked.move moves nofun fun _ other found => ⟨found, ?_, ?_⟩
    · exact World.column_setShared (·.state.turnInFlight) (by rfl) other
    · exact World.column_setShared (·.stateLocked) (by rfl) other

/-- A move of a caller that has the turn lock of a session and keeps it: it may set the marks of
the session. -/
private theorem sound_inTurn (sound : Sound maxSessions world) {session : Nat}
    (shared : SessionShared Digest) (at_ : world.callers caller = phase)
    (held : phase.HoldsTurn session) {holdsState : Bool}
    (key : shared.key = (world.shared session).key)
    (reserved : shared.reservedTurns = (world.shared session).reservedTurns)
    (turnLocked : shared.turnLocked = (world.shared session).turnLocked)
    (locked : shared.stateLocked = holdsState) :
    Sound maxSessions ((world.setShared session shared).enter caller (.turn session holdsState)) := by
  have moves := Moves.enter (world.setShared session shared) at_ rfl (.turn session holdsState)
  have onTarget : ∀ other, phase.Reserves other ↔ session = other := by
    intro other
    cases phase <;> first | exact held.elim | (cases held; exact .rfl)
  have holds : ∀ other, phase.HoldsTurn other ↔ session = other := by
    intro other
    cases phase <;> first | exact held.elim | (cases held; exact .rfl)
  have awake : phase ≠ .released := by
    rintro rfl
    exact held
  refine sound.set at_ key ?_ ?_ nofun ?_ nofun awake reserved
  · exact sound.counted.move moves (fun other => (onTarget other).symm)
      (World.column_setShared (·.reservedTurns) reserved) (Nat.le_refl _)
  · exact sound.exclusive.move moves (fun other now => (holds other).mpr now)
      (World.column_setShared (·.turnLocked) turnLocked)
  · refine sound.marked.here session moves (fun other _ same => ?_) (fun _ _ found => found)
      (fun other apart => ?_) (fun _ _ _ => ⟨holdsState, rfl⟩) (fun _ _ isLocked => ?_)
    · subst same
      exact held.symm ▸ rfl
    · have same := world.shared_setShared_of_ne shared apart
      exact ⟨congrArg (·.state.turnInFlight) same, congrArg (·.stateLocked) same⟩
    · have same := world.shared_setShared_self session shared
      have isLocked : shared.stateLocked = true :=
        (congrArg (·.stateLocked) same).symm.trans isLocked
      rw [← locked, isLocked]

private theorem dropTurn_cleared {shared : SessionShared Digest} {holdsState : Bool} {now : Instant}
    (free : holdsState = true ∨ shared.stateLocked = false) :
    (shared.dropTurn holdsState now).stateLocked = false ∧
      (shared.dropTurn holdsState now).state.turnInFlight = false := by
  unfold SessionShared.dropTurn
  rcases free with held | unlocked
  · simp [held, SessionInner.finish]
  · cases holdsState <;> simp [unlocked, SessionInner.finish]

private theorem dropTurn_kept (shared : SessionShared Digest) (holdsState : Bool) (now : Instant) :
    (shared.dropTurn holdsState now).key = shared.key ∧
      (shared.dropTurn holdsState now).reservedTurns = shared.reservedTurns := by
  unfold SessionShared.dropTurn
  cases holdsState <;> cases locked : shared.stateLocked <;> simp [locked]

/-- A turn is dropped: unless the session is out of the map, its marks are cleared. -/
private theorem sound_dropTurn (sound : Sound maxSessions world) {session : Nat}
    {holdsState : Bool} {now : Instant} (at_ : world.callers caller = .turn session holdsState) :
    Sound maxSessions ((world.setShared session
      ((world.shared session).dropTurn holdsState now)).enter caller (.unlocked session)) := by
  obtain ⟨key, reserved⟩ := dropTurn_kept (world.shared session) holdsState now
  generalize dropped : (world.shared session).dropTurn holdsState now = shared at key reserved ⊢
  have moves := Moves.enter (world.setShared session shared) at_ rfl (.unlocked session)
  have free : ∀ key, world.sessions.lookup key = some session →
      shared.stateLocked = false ∧ shared.state.turnInFlight = false := by
    intro key found
    rw [← dropped]
    refine dropTurn_cleared ?_
    by_contra both
    obtain ⟨outside, locked⟩ := not_or.mp both
    -- the state of a session in the map is locked by the turn, which is outside its sections
    obtain ⟨other, section_⟩ := (sound.marked key session found).2 (by simpa using locked)
    have isCaller : other = caller := sound.exclusive.2 other caller session
      (by rw [section_]; rfl) (by rw [at_]; rfl)
    rw [isCaller, at_] at section_
    cases section_
    exact outside rfl
  refine sound.set at_ key ?_ ?_ (fun _ dooms => by cases dooms) ?_ (by simp) (by simp) reserved
  · exact sound.counted.move moves (fun _ => .rfl)
      (World.column_setShared (·.reservedTurns) reserved) (Nat.le_refl _)
  · refine sound.exclusive.giveUp moves (by rfl) (fun _ => id) fun other apart => ?_
    exact congrArg (fun shared => shared.turnLocked) (world.shared_setShared_of_ne shared apart)
  · refine sound.marked.here session moves (fun other _ eq => ?_) (fun _ _ found => found)
      (fun other apart => ?_) (fun key found inFlight => ?_) (fun key found isLocked => ?_)
    · cases eq
      rfl
    · have eq := world.shared_setShared_of_ne shared apart
      exact ⟨congrArg (fun shared => shared.state.turnInFlight) eq,
        congrArg (fun shared => shared.stateLocked) eq⟩
    · have eq := congrArg (fun shared => shared.state.turnInFlight)
        (world.shared_setShared_self session shared)
      cases (free key found).2.symm.trans (eq.symm.trans inFlight)
    · have eq := congrArg (fun shared => shared.stateLocked)
        (world.shared_setShared_self session shared)
      cases (free key found).1.symm.trans (eq.symm.trans isLocked)

/-- A `begin_turn` that has the turn lock is cancelled. -/
private theorem sound_cancelLocked (sound : Sound maxSessions world) {session : Nat}
    (at_ : world.callers caller = .locked session) :
    Sound maxSessions ((world.setTurnLocked session false).enter caller (.unlocked session)) := by
  have moves := Moves.enter (world.setTurnLocked session false) at_ rfl (.unlocked session)
  refine sound.set at_ rfl ?_ ?_ nofun ?_ nofun nofun rfl
  · exact sound.counted.move moves (fun _ => .rfl)
      (World.column_setShared (·.reservedTurns) (by rfl)) (Nat.le_refl _)
  · refine sound.exclusive.giveUp moves (by rfl) (fun _ => id) fun other apart => ?_
    have same := world.shared_setShared_of_ne
      { world.shared session with turnLocked := false } apart
    exact congrArg (fun shared => shared.turnLocked) same
  · refine sound.marked.move moves nofun fun _ other found => ⟨found, ?_, ?_⟩
    · exact World.column_setShared (·.state.turnInFlight) (by rfl) other
    · exact World.column_setShared (·.stateLocked) (by rfl) other

/-- A reservation is released; the wake-up is due. -/
private theorem sound_release (sound : Sound maxSessions world) {session : Nat}
    (at_ : world.callers caller = .unlocked session) :
    Sound maxSessions ((world.setShared session
      { world.shared session with
        reservedTurns := (world.shared session).reservedTurns - 1 }).enter caller .released) := by
  have moves := Moves.enter (world.setShared session
    { world.shared session with
      reservedTurns := (world.shared session).reservedTurns - 1 }) at_ rfl .released
  constructor
  · intro key other found
    obtain ⟨filed, made⟩ := sound.filed key other found
    exact ⟨(World.column_setShared (·.key) (by rfl) other).trans filed, made⟩
  · exact sound.bounded
  · refine sound.counted.release moves (fun _ => .rfl) (fun _ => id) ?_ (fun other apart => ?_)
      (Nat.le_refl _)
    · exact congrArg (fun shared => shared.reservedTurns) (world.shared_setShared_self session _)
    · exact congrArg (fun shared => shared.reservedTurns) (world.shared_setShared_of_ne _ apart)
  · exact sound.exclusive.move moves (fun _ => id) (World.column_setShared (·.turnLocked) (by rfl))
  · exact sound.detached.move moves (fun _ => False.elim) (fun _ _ found => .inl found) (Nat.le_refl _)
  · refine sound.marked.move moves nofun fun _ other found => ⟨found, ?_, ?_⟩
    · exact World.column_setShared (·.state.turnInFlight) (by rfl) other
    · exact World.column_setShared (·.stateLocked) (by rfl) other
  · exact fun _ _ _ => .inl ⟨caller, moves.after⟩

/-- A step that notifies everyone, with the map as it was. -/
private theorem sound_notify (sound : Sound maxSessions world) {mapLocked : Bool}
    (at_ : world.callers caller = phase) (reserves : ∀ session, ¬phase.Reserves session)
    (noTurn : ∀ session holdsState, phase ≠ .turn session holdsState) :
    Sound maxSessions (World.enter { world with mapLocked }.notifyWaiters caller .idle) := by
  have moves := Moves.notify { world with mapLocked } at_ rfl .idle
  constructor
  · exact sound.filed
  · exact sound.bounded
  · exact sound.counted.move moves (fun session => iff_of_false id (reserves session))
      (fun _ => rfl) (Nat.le_refl _)
  · exact sound.exclusive.move moves (fun _ => False.elim) fun _ => rfl
  · exact sound.detached.move moves (fun _ => False.elim) (fun _ _ found => .inl found)
      (Nat.le_refl _)
  · exact sound.marked.move moves noTurn fun _ _ found => ⟨found, rfl, rfl⟩
  · refine World.awake_of_notified (fun other apart => Function.update_of_ne apart _ _) fun key => ?_
    rw [moves.after]
    nofun

/-- A move of an invalidation that sets a session out of the map. -/
private theorem sound_setDetached (sound : Sound maxSessions world) {session : Nat}
    {shared : SessionShared Digest} {mapLocked : Bool} (at_ : world.callers caller = phase)
    (dooms : phase.Dooms session) (key : shared.key = (world.shared session).key)
    (reserved : shared.reservedTurns = (world.shared session).reservedTurns)
    (turnLocked : shared.turnLocked = (world.shared session).turnLocked)
    (fewer : ∀ other, phase'.Dooms other → phase.Dooms other)
    (reserves : ∀ other, ¬phase'.Reserves other) (holds : ∀ other, ¬phase'.HoldsTurn other)
    (awoken : ∀ key, phase' ≠ .asleep key false) :
    Sound maxSessions
      (World.enter { world.setShared session shared with mapLocked } caller phase') := by
  have moves := Moves.enter { world.setShared session shared with mapLocked } at_ rfl phase'
  have out := (sound.detached caller session (at_ ▸ dooms)).2
  have same : ∀ key other, world.sessions.lookup key = some other →
      (world.setShared session shared).shared other = world.shared other := by
    intro filedAs other found
    refine world.shared_setShared_of_ne shared ?_
    rintro rfl
    exact out filedAs found
  constructor
  · intro key' other found
    obtain ⟨filed, made⟩ := sound.filed key' other found
    exact ⟨(World.column_setShared (·.key) key other).trans filed, made⟩
  · exact sound.bounded
  · refine sound.counted.move moves (fun other => iff_of_false (reserves other) ?_)
      (World.column_setShared (·.reservedTurns) reserved) (Nat.le_refl _)
    cases phase <;> first | exact id | exact dooms.elim
  · exact sound.exclusive.move moves (fun other now => absurd now (holds other))
      (World.column_setShared (·.turnLocked) turnLocked)
  · exact sound.detached.move moves (fun other now => .inl (fewer other now))
      (fun _ _ found => .inl found) (Nat.le_refl _)
  · refine sound.marked.move moves ?_ fun key other found => ⟨found, ?_, ?_⟩
    · rintro other holdsState rfl
      exact dooms
    · exact congrArg (fun shared => shared.state.turnInFlight) (same key other found)
    · exact congrArg (fun shared => shared.stateLocked) (same key other found)
  · refine sound.awake.move moves (fun key asleep => absurd asleep (awoken key)) ?_
      fun key other found => .inr ⟨found, ?_⟩
    · rintro rfl
      exact dooms
    · exact congrArg (fun shared => shared.reservedTurns) (same key other found)

/-- An invalidation takes a session out of the map. -/
private theorem sound_remove (sound : Sound maxSessions world) {key : SessionKey} {session : Nat}
    {keys : List SessionKey} (at_ : world.callers caller = .invalidating (.keys (key :: keys)))
    (found : world.sessions.lookup key = some session) :
    Sound maxSessions (World.enter { world with sessions := world.sessions.erase key } caller
      (.dropping session false (.keys keys))) := by
  have moves := Moves.enter { world with sessions := world.sessions.erase key } at_ rfl
    (.dropping session false (.keys keys))
  have kept : ∀ other target, (world.sessions.erase key).lookup other = some target →
      other ≠ key ∧ world.sessions.lookup other = some target := by
    intro other target left
    rw [Map.lookup_erase_eq_ite] at left
    split at left
    · cases left
    · exact ⟨‹_›, left⟩
  refine sound.quiet moves (fun other target left => (kept other target left).2) ?_ rfl rfl
    (fun _ => .rfl) (fun _ => id) (fun target dooms => .inr ?_) nofun nofun nofun
  · exact (List.kerase_sublist _ _).length_le
  · cases dooms
    refine ⟨(sound.filed key session found).2, fun other left => ?_⟩
    obtain ⟨apart, earlier⟩ := kept other session left
    exact apart ((sound.filed other session earlier).1.symm.trans (sound.filed key session found).1)

/-- `shutdown_all` takes every session out of the map. -/
private theorem sound_drain (sound : Sound maxSessions world) (at_ : world.callers caller = .idle) :
    Sound maxSessions (World.enter { world with sessions := ∅ } caller
      (.invalidating (.sessions (world.sessions.entries.map Sigma.snd)))) := by
  have moves := Moves.enter { world with sessions := ∅ } at_ rfl
    (.invalidating (.sessions (world.sessions.entries.map Sigma.snd)))
  refine sound.quiet moves nofun (Nat.zero_le _) rfl rfl (fun _ => .rfl) (fun _ => id)
    (fun session dooms => .inr ⟨?_, nofun⟩) nofun nofun nofun
  obtain ⟨⟨key, filed⟩, mem, rfl⟩ := List.mem_map.mp dooms
  exact (sound.filed key filed (Map.mem_entries_iff.mp mem)).2

/-! ### Looking up a session -/

/-- A reclaim keeps what holds; whoever looks goes on looking. -/
private theorem sound_reclaim (sound : Sound maxSessions world) {key : SessionKey}
    {notified : Bool} {now : Instant} (at_ : world.callers caller = .looking key notified) :
    Sound maxSessions (world.reclaimLocked now) ∧
      ∃ notified, (world.reclaimLocked now).callers caller = .looking key notified := by
  have kept : ∀ other session,
      (world.sessions.retain fun _ session => !world.isReclaimable now session).lookup other =
        some session → world.sessions.lookup other = some session :=
    fun other session found => (Map.lookup_retain.mp found).1
  have smaller : (world.sessions.retain fun _ session =>
      !world.isReclaimable now session).entries.length ≤ world.sessions.entries.length :=
    List.length_filter_le _ _
  simp only [World.reclaimLocked]
  split
  · have after : ({ world with
        sessions := world.sessions.retain fun _ session => !world.isReclaimable now session
        }.notifyWaiters).callers caller = .looking key true :=
      congrArg Phase.notified at_
    refine ⟨sound.quiet ⟨at_, after, fun _ _ => .inr rfl⟩ kept smaller rfl rfl (fun _ => .rfl)
      (fun _ => id) (fun _ => .inl) nofun nofun nofun, true, after⟩
  · exact ⟨sound.quiet ⟨at_, at_, fun _ _ => .inl rfl⟩ kept smaller rfl rfl (fun _ => .rfl)
      (fun _ => id) (fun _ => .inl) nofun nofun nofun, notified, at_⟩

/-- What `evict_one_idle_locked` chooses is idle, and it chooses one if there is one. -/
private theorem foldl_older (world : World Digest)
    (order : List (Sigma fun _ : SessionKey => Nat)) (oldest : Option (SessionKey × Instant)) :
    match order.foldl world.older oldest with
    | none => oldest = none ∧ ∀ entry ∈ order, world.isIdle entry.2 = false
    | some (key, _) => (∃ usedAt, oldest = some (key, usedAt)) ∨
        ∃ entry ∈ order, entry.1 = key ∧ world.isIdle entry.2 = true := by
  induction order generalizing oldest with
  | nil =>
    cases oldest with
    | none => exact ⟨rfl, nofun⟩
    | some oldest => exact .inl ⟨oldest.2, rfl⟩
  | cons entry rest ih =>
    have later := ih (world.older oldest entry)
    rw [List.foldl_cons]
    cases result : rest.foldl world.older (world.older oldest entry) with
    | none =>
      simp only [result] at later ⊢
      obtain ⟨none_, busy⟩ := later
      unfold World.older at none_
      by_cases idle : world.isIdle entry.2 = true
      · rw [if_pos idle] at none_
        split at none_
        · split at none_ <;> cases none_
        · cases none_
      · rw [if_neg idle] at none_
        exact ⟨none_, List.forall_mem_cons.mpr ⟨by simpa using idle, busy⟩⟩
    | some chosen =>
      obtain ⟨key, chosenAt⟩ := chosen
      simp only [result] at later ⊢
      rcases later with ⟨usedAt, chosen⟩ | ⟨other, mem, found⟩
      · unfold World.older at chosen
        by_cases idle : world.isIdle entry.2 = true
        · rw [if_pos idle] at chosen
          split at chosen
          · split at chosen <;> cases chosen
            · exact .inl ⟨_, rfl⟩
            · exact .inr ⟨entry, List.mem_cons_self, rfl, idle⟩
          · cases chosen
            exact .inr ⟨entry, List.mem_cons_self, rfl, idle⟩
        · rw [if_neg idle] at chosen
          exact .inl ⟨usedAt, chosen⟩
      · exact .inr ⟨other, List.mem_cons_of_mem _ mem, found⟩

/-- A session in the map that is not idle is reserved: marks are set by turns only. -/
private theorem reserved_of_busy (sound : Sound maxSessions world) {key : SessionKey}
    {session : Nat} (found : world.sessions.lookup key = some session)
    (busy : world.isIdle session = false) : 0 < (world.shared session).reservedTurns := by
  obtain ⟨byTurn, bySection⟩ := sound.marked key session found
  by_contra unreserved
  have zero : (world.shared session).reservedTurns = 0 := Nat.eq_zero_of_not_pos unreserved
  have noTurn : ∀ caller holdsState, world.callers caller ≠ .turn session holdsState := by
    intro caller holdsState at_
    have reserves : (world.callers caller).Reserves session := by
      rw [at_]
      rfl
    exact unreserved (sound.counted.pos reserves)
  have notLocked : (world.shared session).stateLocked = false := by
    by_contra locked
    obtain ⟨caller, at_⟩ := bySection (by simpa using locked)
    exact noTurn caller true at_
  have notFlying : (world.shared session).state.turnInFlight = false := by
    by_contra flying
    obtain ⟨caller, holdsState, at_⟩ := byTurn (by simpa using flying)
    exact noTurn caller holdsState at_
  simp [World.isIdle, zero, notLocked, notFlying] at busy

/-- A session in the map is reserved once more. -/
private theorem sound_reserve (sound : Sound maxSessions world) {key : SessionKey}
    {session : Nat} {notified : Bool} (at_ : world.callers caller = .looking key notified)
    (found : world.sessions.lookup key = some session) :
    Sound maxSessions ((world.reserve session).enter caller (.queued session)) := by
  have moves := Moves.enter (world.reserve session) at_ rfl (.queued session)
  have counts : ∀ other, other ≠ session →
      ((world.reserve session).shared other).reservedTurns =
        (world.shared other).reservedTurns :=
    fun other apart => congrArg (fun shared => shared.reservedTurns)
      (world.shared_setShared_of_ne _ apart)
  have one : ((world.reserve session).shared session).reservedTurns =
      (world.shared session).reservedTurns + 1 :=
    congrArg (fun shared => shared.reservedTurns) (world.shared_setShared_self session _)
  constructor
  · intro other target filed
    obtain ⟨sameKey, made⟩ := sound.filed other target filed
    exact ⟨(World.column_setShared (·.key) (by rfl) target).trans sameKey, made⟩
  · exact sound.bounded
  · exact sound.counted.reserve moves (fun _ => id) (fun _ => .rfl) one counts (Nat.le_refl _)
      (sound.filed key session found).2
  · exact sound.exclusive.move moves (fun _ => False.elim)
      (World.column_setShared (·.turnLocked) (by rfl))
  · exact sound.detached.move moves (fun _ => False.elim) (fun _ _ filed => .inl filed)
      (Nat.le_refl _)
  · refine sound.marked.move moves nofun fun _ other filed => ⟨filed, ?_, ?_⟩
    · exact World.column_setShared (·.state.turnInFlight) (by rfl) other
    · exact World.column_setShared (·.stateLocked) (by rfl) other
  · refine sound.awake.move moves nofun nofun fun other target filed => ?_
    by_cases same : target = session
    · left
      rw [same]
      exact Nat.lt_of_lt_of_eq (Nat.succ_pos _) one.symm
    · exact .inr ⟨filed, counts target same⟩

/-- A new session is inserted, reserved for who looked. -/
private theorem sound_insert (sound : Sound maxSessions world) {key : SessionKey}
    {notified : Bool} {now : Instant} (at_ : world.callers caller = .looking key notified)
    (missing : world.sessions.lookup key = none)
    (room : world.sessions.entries.length < maxSessions) :
    Sound maxSessions
      ((world.insertSession key now).enter caller (.queued world.nextSession)) := by
  have moves := Moves.enter (world.insertSession key now) at_ rfl (.queued world.nextSession)
  have fresh : ((world.insertSession key now).shared world.nextSession) =
      ⟨key, false, false, ⟨none, none, now, false⟩, 1⟩ := Function.update_self _ _ _
  have older : ∀ other, other ≠ world.nextSession →
      (world.insertSession key now).shared other = world.shared other :=
    fun other apart => Function.update_of_ne apart _ _
  have filed : ∀ other session, (world.insertSession key now).sessions.lookup other = some session →
      (other = key ∧ session = world.nextSession) ∨
        (session < world.nextSession ∧ world.sessions.lookup other = some session) := by
    intro other session found
    rw [World.insertSession, Map.lookup_insert_eq_ite] at found
    split at found
    · next same => exact .inl ⟨same, (Option.some.inj found).symm⟩
    · exact .inr ⟨(sound.filed other session found).2, found⟩
  have unreserved : (world.shared world.nextSession).reservedTurns = 0 := by
    obtain ⟨callers, card, mem⟩ := sound.counted.1 world.nextSession
    rw [← card, Finset.card_eq_zero, Finset.eq_empty_iff_forall_notMem]
    intro other isIn
    exact Nat.lt_irrefl _ (sound.counted.2 other _ ((mem other).mp isIn))
  have noHolder : ∀ other session, (world.callers other).HoldsTurn session →
      session ≠ world.nextSession := by
    rintro other session held rfl
    refine Nat.lt_irrefl _ (sound.counted.2 other world.nextSession ?_)
    cases phase : world.callers other <;> rw [phase] at held <;> first | exact held.elim | exact held
  constructor
  · intro other session found
    rcases filed other session found with ⟨rfl, rfl⟩ | ⟨made, earlier⟩
    · exact ⟨congrArg (fun shared => shared.key) fresh, Nat.lt_succ_self _⟩
    · refine ⟨?_, Nat.lt_succ_of_lt made⟩
      exact (congrArg (fun shared => shared.key) (older session (Nat.ne_of_lt made))).trans
        (sound.filed other session earlier).1
  · have absent : key ∉ world.sessions := AList.lookup_eq_none.mp missing
    show (world.sessions.insert key world.nextSession).entries.length ≤ maxSessions
    rw [AList.entries_insert_of_notMem absent]
    exact room
  · refine sound.counted.reserve moves (fun _ => id) (fun _ => .rfl) ?_ (fun other apart => ?_)
      (Nat.le_succ _) (Nat.lt_succ_self _)
    · rw [unreserved]
      exact congrArg (fun shared => shared.reservedTurns) fresh
    · exact congrArg (fun shared => shared.reservedTurns) (older other apart)
  · refine ⟨fun other session held => ?_, fun first second session one two => ?_⟩
    · rcases (moves.holdsTurn other session).mp held with ⟨_, held⟩ | ⟨_, held⟩
      · exact held.elim
      · exact (congrArg (fun shared => shared.turnLocked)
          (older session (noHolder other session held))).trans (sound.exclusive.1 other session held)
    · rcases (moves.holdsTurn first session).mp one with ⟨_, held⟩ | ⟨_, one⟩
      · exact held.elim
      · rcases (moves.holdsTurn second session).mp two with ⟨_, held⟩ | ⟨_, two⟩
        · exact held.elim
        · exact sound.exclusive.2 first second session one two
  · refine sound.detached.move moves (fun _ => False.elim) (fun other session found => ?_)
      (Nat.le_succ _)
    rcases filed other session found with ⟨_, rfl⟩ | ⟨_, earlier⟩
    · exact .inr (Nat.le_refl _)
    · exact .inl earlier
  · intro other session found
    rcases filed other session found with ⟨_, rfl⟩ | ⟨made, earlier⟩
    · rw [show ((world.insertSession key now).enter caller _).shared world.nextSession = _ from fresh]
      exact ⟨nofun, nofun⟩
    · obtain ⟨byTurn, bySection⟩ := sound.marked other session earlier
      have same := older session (Nat.ne_of_lt made)
      have turns : ∀ turning holdsState, world.callers turning = .turn session holdsState →
          ((world.insertSession key now).enter caller (.queued world.nextSession)).callers turning =
            .turn session holdsState := by
        intro turning holdsState inTurn
        refine (Function.update_of_ne ?_ _ _).trans inTurn
        rintro rfl
        exact absurd (at_.symm.trans inTurn) nofun
      rw [show ((world.insertSession key now).enter caller _).shared session = _ from same]
      refine ⟨fun flying => ?_, fun locked => ?_⟩
      · obtain ⟨turning, holdsState, inTurn⟩ := byTurn flying
        exact ⟨turning, holdsState, turns turning holdsState inTurn⟩
      · obtain ⟨turning, inTurn⟩ := bySection locked
        exact ⟨turning, turns turning true inTurn⟩
  · refine sound.awake.move moves nofun nofun fun other session found => ?_
    rcases filed other session found with ⟨_, rfl⟩ | ⟨made, earlier⟩
    · left
      exact Nat.lt_of_lt_of_eq Nat.one_pos
        (congrArg (fun shared => shared.reservedTurns) fresh).symm
    · exact .inr ⟨earlier, congrArg (fun shared => shared.reservedTurns)
        (older session (Nat.ne_of_lt made))⟩

/-- After a reclaim the look-up reserves, evicts, sleeps or inserts. -/
private theorem sound_getOrCreate (sound : Sound maxSessions world) {key : SessionKey}
    {notified : Bool} {now : Instant} {order : List (Sigma fun _ : SessionKey => Nat)}
    (woken : Bool) (at_ : world.callers caller = .looking key notified)
    (perm : order.Perm world.sessions.entries) :
    Sound maxSessions (world.getOrCreate maxSessions caller key woken now order) := by
  unfold World.getOrCreate
  cases found : world.sessions.lookup key with
  | some session => exact sound_reserve sound at_ found
  | none =>
    by_cases full : world.sessions.entries.length ≥ maxSessions
    · simp only [if_pos full]
      have chosen := foldl_older world order none
      unfold World.evictOneIdleLocked
      cases result : order.foldl world.older none with
      | none =>
        simp only [result] at chosen
        refine sound.quiet (Moves.enter world at_ rfl (.asleep key woken)) (fun _ _ => id)
          (Nat.le_refl _) rfl rfl (fun _ => .rfl) (fun _ => id) (fun _ => .inl) nofun ?_ nofun
        intro _ _ other session filed
        have mem := perm.mem_iff.mpr (Map.mem_entries_iff.mpr filed)
        exact reserved_of_busy sound filed (chosen.2 _ mem)
      | some oldest =>
        refine sound.quiet (Moves.notify { world with sessions := world.sessions.erase oldest.1 }
          at_ rfl (.looking key false)) (fun other session left => ?_)
          (List.kerase_sublist _ _).length_le rfl rfl (fun _ => .rfl) (fun _ => id) (fun _ => .inl)
          nofun nofun nofun
        have left : (world.sessions.erase oldest.1).lookup other = some session := left
        rw [Map.lookup_erase_eq_ite] at left
        split at left
        · cases left
        · exact left
    · simp only [if_neg full]
      exact sound_insert sound at_ found (Nat.lt_of_not_le full)

/-- Every step keeps what holds. -/
theorem Sound.after_step (sound : Sound maxSessions world) {action : Action Digest}
    (stepped : step maxSessions world action = some world') : Sound maxSessions world' := by
  cases action with
  | begin caller key =>
    simp only [step] at stepped
    split at stepped <;> cases stepped
    next at_ =>
    exact sound.enter world at_ rfl rfl rfl rfl (fun _ => .rfl) (fun _ => id)
      (fun _ => id) nofun nofun nofun
  | lookUp caller now order =>
    simp only [step] at stepped
    split at stepped
    · next key notified at_ =>
      split at stepped
      · cases stepped
      · next guard =>
        cases stepped
        obtain ⟨reclaimed, woken, looking⟩ := sound_reclaim sound at_
        exact sound_getOrCreate reclaimed _ looking (not_not.mp (not_or.mp guard).2)
    · cases stepped
  | wake caller =>
    simp only [step] at stepped
    split at stepped <;> cases stepped
    next at_ =>
    exact sound.enter world at_ rfl rfl rfl rfl (fun _ => .rfl) (fun _ => id)
      (fun _ => id) nofun nofun nofun
  | takeTurnLock caller =>
    simp only [step] at stepped
    split at stepped
    · next at_ =>
      split at stepped <;> cases stepped
      next free => exact sound_takeTurnLock sound at_ (by simpa using free)
    · cases stepped
  | enterTurn caller now =>
    simp only [step] at stepped
    split at stepped
    · next at_ =>
      split at stepped <;> cases stepped
      next free => exact sound_inTurn sound _ at_ rfl rfl rfl rfl (by simpa using free)
    · cases stepped
  | lockState caller =>
    simp only [step] at stepped
    split at stepped
    · next at_ =>
      split at stepped <;> cases stepped
      exact sound_inTurn sound _ at_ rfl rfl rfl rfl rfl
    · cases stepped
  | unlockState caller connection continuation lastUsedAt =>
    simp only [step] at stepped
    split at stepped <;> cases stepped
    next at_ => exact sound_inTurn sound _ at_ rfl rfl rfl rfl rfl
  | finish caller now =>
    simp only [step] at stepped
    split at stepped
    · next session at_ =>
      split at stepped <;> cases stepped
      next free =>
      have stays := sound_inTurn sound { world.shared session with
        state := (world.shared session).state.finish now } at_ rfl rfl rfl rfl
        (by simpa using free)
      rw [World.enter, show (world.setShared session _).callers = world.callers from rfl, ← at_,
        Function.update_eq_self] at stays
      exact stays
    · cases stepped
  | drop caller now =>
    simp only [step] at stepped
    split at stepped <;> cases stepped
    next at_ => exact sound_dropTurn sound at_
  | release caller =>
    simp only [step] at stepped
    split at stepped <;> cases stepped
    next at_ => exact sound_release sound at_
  | notify caller =>
    simp only [step] at stepped
    split at stepped <;> cases stepped
    next at_ => exact sound_notify sound at_ (fun _ => id) nofun
  | cancel caller =>
    simp only [step] at stepped
    split at stepped <;> cases stepped
    · next at_ =>
      exact sound.enter world at_ rfl rfl rfl rfl (fun _ => .rfl) (fun _ => id)
        (fun _ => id) nofun nofun nofun
    · next at_ =>
      exact sound.enter world at_ rfl rfl rfl rfl (fun _ => .rfl) (fun _ => id)
        (fun _ => id) nofun nofun nofun
    · next at_ =>
      exact sound.enter world at_ rfl rfl rfl rfl (fun _ => .rfl) (fun _ => False.elim)
        (fun _ => id) nofun nofun nofun
    · next at_ => exact sound_cancelLocked sound at_
  | invalidate caller scope =>
    simp only [step] at stepped
    split at stepped
    · next at_ =>
      split at stepped <;> cases stepped
      exact sound.enter { world with mapLocked := true } at_ rfl rfl rfl rfl (fun _ => .rfl) (fun _ => id)
        (fun _ => id) nofun nofun nofun
    · cases stepped
  | shutdownAll caller =>
    simp only [step] at stepped
    split at stepped
    · next at_ =>
      split at stepped <;> cases stepped
      exact sound_drain sound at_
    · cases stepped
  | removeNext caller =>
    simp only [step] at stepped
    split at stepped
    · next at_ =>
      split at stepped <;> cases stepped
      · next found => exact sound_remove sound at_ found
      · exact sound.enter world at_ rfl rfl rfl rfl (fun _ => .rfl) (fun _ => id)
          (fun _ => id) nofun nofun nofun
    · next session sessions at_ =>
      cases stepped
      refine sound.enter world at_ rfl rfl rfl rfl (fun _ => .rfl) (fun _ => id)
        (fun other dooms => ?_) nofun nofun nofun
      rcases dooms with rfl | mem
      · exact List.mem_cons_self
      · exact List.mem_cons_of_mem _ mem
    · cases stepped
  | lockDropped caller =>
    simp only [step] at stepped
    split at stepped
    · next session doomed at_ =>
      split at stepped <;> cases stepped
      cases doomed with
      | keys keys =>
        exact sound_setDetached sound at_ rfl rfl rfl rfl (fun _ => id) (fun _ => id) (fun _ => id)
          nofun
      | sessions sessions =>
        exact sound_setDetached sound at_ (.inl rfl) rfl rfl rfl (fun _ => id) (fun _ => id)
          (fun _ => id) nofun
    · cases stepped
  | droppedClosed caller =>
    simp only [step] at stepped
    split at stepped <;> cases stepped
    next session doomed at_ =>
    cases doomed with
    | keys keys =>
      exact sound_setDetached sound at_ rfl rfl rfl rfl (fun _ => False.elim) (fun _ => id)
        (fun _ => id) nofun
    | sessions sessions =>
      exact sound_setDetached sound at_ (.inl rfl) rfl rfl rfl (fun _ => .inr) (fun _ => id)
        (fun _ => id) nofun
  | invalidated caller =>
    simp only [step] at stepped
    split at stepped <;> cases stepped
    · next at_ => exact sound_notify sound at_ (fun _ => id) nofun
    · next at_ => exact sound_notify sound at_ (fun _ => id) nofun
  | cancelInvalidation caller =>
    simp only [step] at stepped
    split at stepped
    · next at_ =>
      cases stepped
      exact sound.enter { world with mapLocked := false } at_ rfl rfl rfl rfl (fun _ => .rfl) (fun _ => id)
        (fun _ => False.elim) nofun nofun nofun
    · next at_ =>
      cases stepped
      exact sound.enter world at_ rfl rfl rfl rfl (fun _ => .rfl) (fun _ => id)
        (fun _ => False.elim) nofun nofun nofun
    · next session holdsState doomed at_ =>
      have dooms : (Phase.dropping session holdsState doomed).Dooms session := by
        cases doomed
        · rfl
        · exact .inl rfl
      cases holdsState with
      | true =>
        split at stepped <;> cases stepped
        · exact sound_setDetached sound at_ dooms rfl rfl rfl (fun _ => False.elim) (fun _ => id)
            (fun _ => id) nofun
        · exact sound_setDetached sound at_ dooms rfl rfl rfl (fun _ => False.elim) (fun _ => id)
            (fun _ => id) nofun
      | false =>
        split at stepped <;> cases stepped
        · exact sound.enter { world with mapLocked := false } at_ rfl rfl rfl rfl (fun _ => .rfl) (fun _ => id)
            (fun _ => False.elim) nofun nofun nofun
        · exact sound.enter world at_ rfl rfl rfl rfl (fun _ => .rfl) (fun _ => id)
            (fun _ => False.elim) nofun nofun nofun
    · cases stepped

end Steps

/-! ## One turn for a key -/

/-- Two turns in flight on sessions of one key are one. -/
def World.OneTurn (world : World Digest) : Prop :=
  ∀ caller other session session', (world.callers caller).HoldsTurn session →
    (world.callers other).HoldsTurn session' →
    (world.shared session).key = (world.shared session').key → caller = other

/-- Of the sessions of a key at most one is reserved, and only the one in the map if there is one. -/
structure Unforked (world : World Digest) : Prop where
  alone : ∀ session other, session < world.nextSession → other < world.nextSession →
    (world.shared session).key = (world.shared other).key →
    0 < (world.shared session).reservedTurns → 0 < (world.shared other).reservedTurns →
    session = other
  filed : ∀ key session other, world.sessions.lookup key = some session →
    other < world.nextSession → (world.shared other).key = key → other ≠ session →
    (world.shared other).reservedTurns = 0

/-- The condition on a step: a `begin_turn` that looks up a key finds no reserved session of the
key out of the map. -/
def Meets (world : World Digest) : Action Digest → Prop
  | .lookUp caller _ _ => ∀ key notified, world.callers caller = .looking key notified →
      ∀ session, session < world.nextSession → (world.shared session).key = key →
        world.sessions.lookup key ≠ some session → (world.shared session).reservedTurns = 0
  | _ => True

/-- What a step other than a look-up does to the sessions: none is new, filed or reserved. -/
structure Shrinks (world world' : World Digest) : Prop where
  next : world'.nextSession = world.nextSession
  kept : ∀ key session, world'.sessions.lookup key = some session →
    world.sessions.lookup key = some session
  keys : ∀ session, (world'.shared session).key = (world.shared session).key
  fewer : ∀ session, (world'.shared session).reservedTurns ≤ (world.shared session).reservedTurns

section Forks

variable {maxSessions : Nat} {world world' : World Digest} {caller : Nat}

theorem Unforked.shrink (unforked : Unforked world) (shrinks : Shrinks world world') :
    Unforked world' where
  alone := by
    intro session other made made' sameKey reserved reserved'
    rw [shrinks.next] at made made'
    rw [shrinks.keys, shrinks.keys] at sameKey
    exact unforked.alone session other made made' sameKey
      (Nat.lt_of_lt_of_le reserved (shrinks.fewer session))
      (Nat.lt_of_lt_of_le reserved' (shrinks.fewer other))
  filed := by
    intro key session other found made hasKey apart
    rw [shrinks.next] at made
    rw [shrinks.keys] at hasKey
    exact Nat.eq_zero_of_le_zero ((shrinks.fewer other).trans
      (unforked.filed key session other (shrinks.kept key session found) made hasKey apart).le)

/-- A step that sets a session, with its key and no more reservations. -/
private theorem shrinks_set {mapLocked : Bool} {session : Nat} {shared : SessionShared Digest}
    {callers : Nat → Phase} (key : shared.key = (world.shared session).key)
    (fewer : shared.reservedTurns ≤ (world.shared session).reservedTurns) :
    Shrinks world { world.setShared session shared with mapLocked, callers } where
  next := rfl
  kept := fun _ _ => id
  keys := World.column_setShared (·.key) key
  fewer := by
    intro other
    show ((world.setShared session shared).shared other).reservedTurns ≤ _
    rw [World.shared_setShared]
    split
    · next same => exact same ▸ fewer
    · exact Nat.le_refl _

/-- A step that sets no session. -/
private theorem shrinks_map {mapLocked : Bool} {sessions : Map SessionKey Nat}
    {callers : Nat → Phase} (kept : ∀ key session, sessions.lookup key = some session →
      world.sessions.lookup key = some session) :
    Shrinks world { world with sessions, mapLocked, callers } where
  next := rfl
  kept := kept
  keys := fun _ => rfl
  fewer := fun _ => Nat.le_refl _

private theorem lookup_erase_some {sessions : Map SessionKey Nat} {key other : SessionKey}
    {session : Nat} (left : (sessions.erase key).lookup other = some session) :
    other ≠ key ∧ sessions.lookup other = some session := by
  rw [Map.lookup_erase_eq_ite] at left
  split at left
  · cases left
  · exact ⟨‹_›, left⟩

/-- Every step other than a look-up shrinks the sessions. -/
private theorem shrinks_step {action : Action Digest}
    (other : ∀ caller now order, action ≠ .lookUp caller now order)
    (stepped : step maxSessions world action = some world') : Shrinks world world' := by
  cases action with
  | lookUp caller now order => exact absurd rfl (other caller now order)
  | begin | wake | notify | invalidated =>
    simp only [step] at stepped
    split at stepped <;> cases stepped <;> exact shrinks_map fun _ _ => id
  | invalidate =>
    simp only [step] at stepped
    split at stepped
    · split at stepped <;> cases stepped
      exact shrinks_map fun _ _ => id
    · cases stepped
  | takeTurnLock | enterTurn | lockState | finish | lockDropped =>
    simp only [step] at stepped
    split at stepped
    · split at stepped <;> cases stepped
      exact shrinks_set rfl (Nat.le_refl _)
    · cases stepped
  | unlockState | droppedClosed =>
    simp only [step] at stepped
    split at stepped <;> cases stepped
    exact shrinks_set rfl (Nat.le_refl _)
  | drop =>
    simp only [step] at stepped
    split at stepped <;> cases stepped
    obtain ⟨key, reserved⟩ := dropTurn_kept (world.shared _) _ _
    exact shrinks_set key reserved.le
  | release =>
    simp only [step] at stepped
    split at stepped <;> cases stepped
    exact shrinks_set rfl (Nat.sub_le _ _)
  | cancel =>
    simp only [step] at stepped
    split at stepped <;> cases stepped
    case h_4 => exact shrinks_set rfl (Nat.le_refl _)
    all_goals exact shrinks_map fun _ _ => id
  | shutdownAll =>
    simp only [step] at stepped
    split at stepped
    · split at stepped <;> cases stepped
      exact shrinks_map nofun
    · cases stepped
  | removeNext =>
    simp only [step] at stepped
    split at stepped
    · split at stepped <;> cases stepped
      · exact shrinks_map fun _ _ left => (lookup_erase_some left).2
      · exact shrinks_map fun _ _ => id
    · cases stepped
      exact shrinks_map fun _ _ => id
    · cases stepped
  | cancelInvalidation =>
    simp only [step] at stepped
    split at stepped
    · cases stepped
      exact shrinks_map fun _ _ => id
    · cases stepped
      exact shrinks_map fun _ _ => id
    · next holdsState _ _ =>
      cases holdsState with
      | true =>
        split at stepped <;> cases stepped <;> exact shrinks_set rfl (Nat.le_refl _)
      | false =>
        split at stepped <;> cases stepped <;> exact shrinks_map fun _ _ => id
    · cases stepped

/-- A look-up that finds no reserved session of its key out of the map forks none. -/
private theorem unforked_getOrCreate {key : SessionKey} {now : Instant}
    {order : List (Sigma fun _ : SessionKey => Nat)} (woken : Bool) (unforked : Unforked world)
    (filed : world.Filed)
    (free : world.sessions.lookup key = none → ∀ session, session < world.nextSession →
      (world.shared session).key = key → (world.shared session).reservedTurns = 0) :
    Unforked (world.getOrCreate maxSessions caller key woken now order) := by
  unfold World.getOrCreate
  cases found : world.sessions.lookup key with
  | some session =>
    have others : ∀ other, other < world.nextSession → (world.shared other).key = key →
        other ≠ session → (world.shared other).reservedTurns = 0 :=
      fun other made hasKey apart => unforked.filed key session other found made hasKey apart
    have keys : ∀ other, ((world.reserve session).shared other).key = (world.shared other).key :=
      World.column_setShared (·.key) (by rfl)
    have counts : ∀ other, other ≠ session →
        ((world.reserve session).shared other).reservedTurns =
          (world.shared other).reservedTurns := fun other apart =>
      congrArg (fun shared => shared.reservedTurns) (world.shared_setShared_of_ne _ apart)
    have hasKey := (filed key session found).1
    constructor
    · intro first second made made' sameKey reserved reserved'
      have sameKey : (world.shared first).key = (world.shared second).key :=
        (keys first).symm.trans (sameKey.trans (keys second))
      by_cases isFirst : first = session
      · by_contra apart
        have away : second ≠ session := fun same => apart (isFirst.trans same.symm)
        have none_ := others second made' (by rw [← sameKey, isFirst, hasKey]) away
        exact absurd ((counts second away).trans none_) (Nat.ne_of_gt reserved')
      · by_cases isSecond : second = session
        · have none_ := others first made (by rw [sameKey, isSecond, hasKey]) isFirst
          exact absurd ((counts first isFirst).trans none_) (Nat.ne_of_gt reserved)
        · exact unforked.alone first second made made' sameKey
            (Nat.lt_of_lt_of_eq reserved (counts first isFirst))
            (Nat.lt_of_lt_of_eq reserved' (counts second isSecond))
    · intro filedKey target other filed' made otherKey apart
      have hadKey : (world.shared other).key = filedKey := (keys other).symm.trans otherKey
      have none_ := unforked.filed filedKey target other filed' made hadKey apart
      by_cases same : other = session
      · subst same
        have sameKey : key = filedKey := hasKey.symm.trans hadKey
        have sameTarget : some target = some other := filed'.symm.trans (sameKey ▸ found)
        exact absurd (Option.some.inj sameTarget).symm apart
      · exact (counts other same).trans none_
  | none =>
    by_cases full : world.sessions.entries.length ≥ maxSessions
    · simp only [if_pos full]
      unfold World.evictOneIdleLocked
      cases order.foldl world.older none with
      | none => exact unforked.shrink (shrinks_map fun _ _ => id)
      | some oldest =>
        exact unforked.shrink (shrinks_map fun _ _ left => (lookup_erase_some left).2)
    · simp only [if_neg full]
      have fresh : (world.insertSession key now).shared world.nextSession =
          ⟨key, false, false, ⟨none, none, now, false⟩, 1⟩ := Function.update_self _ _ _
      have older : ∀ other, other ≠ world.nextSession →
          (world.insertSession key now).shared other = world.shared other :=
        fun other apart => Function.update_of_ne apart _ _
      have zero : ∀ other, other < world.nextSession + 1 → other ≠ world.nextSession →
          ((world.insertSession key now).shared other).key = key →
          ((world.insertSession key now).shared other).reservedTurns = 0 := by
        intro other made apart hasKey
        rw [older other apart] at hasKey ⊢
        exact free found other (Nat.lt_of_le_of_ne (Nat.le_of_lt_succ made) apart) hasKey
      constructor
      · intro first second made made' sameKey reserved reserved'
        have made : first < world.nextSession + 1 := made
        have made' : second < world.nextSession + 1 := made'
        have sameKey : ((world.insertSession key now).shared first).key =
            ((world.insertSession key now).shared second).key := sameKey
        by_cases isFirst : first = world.nextSession
        · by_contra apart
          have away : second ≠ world.nextSession := fun same => apart (isFirst.trans same.symm)
          have none_ := zero second made' away (by rw [← sameKey, isFirst, fresh])
          exact absurd none_ (Nat.ne_of_gt reserved')
        · by_cases isSecond : second = world.nextSession
          · have none_ := zero first made isFirst (by rw [sameKey, isSecond, fresh])
            exact absurd none_ (Nat.ne_of_gt reserved)
          · rw [older first isFirst, older second isSecond] at sameKey
            refine unforked.alone first second
              (Nat.lt_of_le_of_ne (Nat.le_of_lt_succ made) isFirst)
              (Nat.lt_of_le_of_ne (Nat.le_of_lt_succ made') isSecond) sameKey ?_ ?_
            · rw [← older first isFirst]
              exact reserved
            · rw [← older second isSecond]
              exact reserved'
      · intro filedKey target other filed' made otherKey apart
        have made : other < world.nextSession + 1 := made
        have filed' : (world.sessions.insert key world.nextSession).lookup filedKey = some target :=
          filed'
        rw [Map.lookup_insert_eq_ite] at filed'
        split at filed'
        · next same =>
          cases filed'
          exact zero other made apart (otherKey.trans same)
        · next differs =>
          have away : other ≠ world.nextSession := by
            rintro rfl
            have otherKey : ((world.insertSession key now).shared world.nextSession).key =
              filedKey := otherKey
            rw [fresh] at otherKey
            exact differs otherKey.symm
          have otherKey : ((world.insertSession key now).shared other).key = filedKey := otherKey
          show ((world.insertSession key now).shared other).reservedTurns = 0
          rw [older other away] at otherKey ⊢
          exact unforked.filed filedKey target other filed'
            (Nat.lt_of_le_of_ne (Nat.le_of_lt_succ made) away) otherKey apart

/-- A session that a reclaim removes is not reserved. -/
private theorem reclaim_keeps (now : Instant) {key : SessionKey} {session : Nat}
    (found : world.sessions.lookup key = some session)
    (reserved : 0 < (world.shared session).reservedTurns) :
    (world.reclaimLocked now).sessions.lookup key = some session := by
  have kept : (world.sessions.retain fun _ session =>
      !world.isReclaimable now session).lookup key = some session := by
    refine Map.lookup_retain.mpr ⟨found, ?_⟩
    simp [World.isReclaimable, World.isIdle, Nat.ne_of_gt reserved]
  simp only [World.reclaimLocked]
  split <;> exact kept

private theorem shrinks_reclaim {now : Instant} : Shrinks world (world.reclaimLocked now) := by
  simp only [World.reclaimLocked]
  split <;> exact shrinks_map fun _ _ found => (Map.lookup_retain.mp found).1

/-- A step under the condition forks no session. -/
theorem Unforked.after_step (unforked : Unforked world) (sound : Sound maxSessions world)
    {action : Action Digest} (meets : Meets world action)
    (stepped : step maxSessions world action = some world') : Unforked world' := by
  by_cases isLookUp : ∃ caller now order, action = .lookUp caller now order
  · obtain ⟨caller, now, order, rfl⟩ := isLookUp
    simp only [step] at stepped
    split at stepped
    · next key notified at_ =>
      split at stepped
      · cases stepped
      · cases stepped
        have shrinks : Shrinks world (world.reclaimLocked now) := shrinks_reclaim
        obtain ⟨reclaimed, _⟩ := sound_reclaim sound at_
        refine unforked_getOrCreate _ (unforked.shrink shrinks) reclaimed.filed ?_
        intro missing session made hasKey
        rw [shrinks.next] at made
        rw [shrinks.keys] at hasKey
        refine Nat.eq_zero_of_le_zero ((shrinks.fewer session).trans (Nat.le_of_eq ?_))
        by_cases filed : world.sessions.lookup key = some session
        · by_contra reserved
          have kept := reclaim_keeps now filed (Nat.pos_of_ne_zero reserved)
          rw [missing] at kept
          cases kept
        · exact meets key notified at_ session made hasKey filed
    · cases stepped
  · refine unforked.shrink (shrinks_step (fun caller now order same => ?_) stepped)
    exact isLookUp ⟨caller, now, order, same⟩

/-- Where no session is forked, one turn is in flight for a key. -/
private theorem Unforked.oneTurn (unforked : Unforked world) (sound : Sound maxSessions world) :
    world.OneTurn := by
  intro caller other session session' held held' sameKey
  have reserves : ∀ {caller session}, (world.callers caller).HoldsTurn session →
      (world.callers caller).Reserves session := by
    intro caller session held
    cases phase : world.callers caller <;> rw [phase] at held <;> first | exact held.elim | exact held
  have same := unforked.alone session session' (sound.counted.2 caller session (reserves held))
    (sound.counted.2 other session' (reserves held')) sameKey (sound.counted.pos (reserves held))
    (sound.counted.pos (reserves held'))
  exact sound.exclusive.2 caller other session held (same ▸ held')

end Forks

/-! ## Every run -/

/-- A reclaim and an eviction leave reserved sessions in the map. -/
def World.Pins (maxSessions : Nat) (world : World Digest) : Prop :=
  ∀ caller now order world', step maxSessions world (.lookUp caller now order) = some world' →
    ∀ key session, world.sessions.lookup key = some session →
      0 < (world.shared session).reservedTurns → world'.sessions.lookup key = some session

private theorem pins {maxSessions : Nat} (world : World Digest) : world.Pins maxSessions := by
  intro caller now order world' stepped key session found reserved
  simp only [step] at stepped
  split at stepped
  · next wanted notified at_ =>
    split at stepped
    · cases stepped
    · next guard =>
      cases stepped
      have kept := reclaim_keeps now found reserved
      have perm := not_not.mp (not_or.mp guard).2
      have busy : 0 < ((world.reclaimLocked now).shared session).reservedTurns := by
        simp only [World.reclaimLocked]
        split <;> exact reserved
      unfold World.getOrCreate
      cases wantedAt : (world.reclaimLocked now).sessions.lookup wanted with
      | some other => exact kept
      | none =>
        by_cases full : (world.reclaimLocked now).sessions.entries.length ≥ maxSessions
        · simp only [if_pos full]
          have chosen := foldl_older (world.reclaimLocked now) order none
          unfold World.evictOneIdleLocked
          cases result : order.foldl (world.reclaimLocked now).older none with
          | none => exact kept
          | some oldest =>
            simp only [result] at chosen
            obtain ⟨usedAt, impossible⟩ | ⟨entry, mem, isKey, idle⟩ := chosen
            · cases impossible
            · have apart : key ≠ oldest.1 := by
                rintro rfl
                have filed := Map.mem_entries_iff.mp (perm.mem_iff.mp mem)
                rw [isKey, kept, Option.some.injEq] at filed
                simp [World.isIdle, ← filed, Nat.ne_of_gt busy] at idle
              show ((world.reclaimLocked now).sessions.erase oldest.1).lookup key = some session
              rw [Map.lookup_erase_eq_ite, if_neg apart]
              exact kept
        · simp only [if_neg full]
          have apart : key ≠ wanted := by
            rintro rfl
            rw [kept] at wantedAt
            cases wantedAt
          show ((world.reclaimLocked now).sessions.insert wanted _).lookup key = some session
          rw [Map.lookup_insert_eq_ite, if_neg apart]
          exact kept
  · cases stepped

theorem sound_start {maxSessions : Nat} : Sound maxSessions (start : World Digest) where
  filed := nofun
  bounded := Nat.zero_le _
  counted := ⟨fun _ => ⟨∅, rfl, fun _ => iff_of_false nofun id⟩, nofun⟩
  exclusive := ⟨nofun, nofun⟩
  detached := nofun
  marked := nofun
  awake := nofun

/-- In every run the map stays within the capacity, reclaims and evictions leave reserved sessions
alone, and a caller asleep for capacity without a wake-up leaves no session in the map that is
not reserved. In runs whose look-ups find no reserved session of their key out of the map, one
turn at a time is in flight for a key. -/
theorem session_registry_safe {maxSessions : Nat} {world : World Digest}
    (reached : (machine maxSessions).Reachable world) :
    world.sessions.entries.length ≤ capacity maxSessions ∧ world.Pins (capacity maxSessions) ∧
      world.Awake ∧ ((machine maxSessions).ReachableWhile Meets world → world.OneTurn) := by
  have keep : ∀ world (action : Action Digest) world', Sound (capacity maxSessions) world →
      (machine maxSessions).step world action = some world' →
      Sound (capacity maxSessions) world' :=
    fun _ _ _ sound stepped => sound.after_step stepped
  have sound : Sound (capacity maxSessions) world :=
    Machine.Reachable.invariant sound_start keep reached
  refine ⟨sound.bounded, pins world, sound.awake, fun met => ?_⟩
  have both : Sound (capacity maxSessions) world ∧ Unforked world := by
    have unforked : Unforked (start : World Digest) :=
      ⟨fun _ _ made => absurd made (Nat.not_lt_zero _), nofun⟩
    have keepBoth : ∀ world (action : Action Digest) world',
        Sound (capacity maxSessions) world ∧ Unforked world → Meets world action →
        (machine maxSessions).step world action = some world' →
        Sound (capacity maxSessions) world' ∧ Unforked world' :=
      fun world action world' held meets stepped =>
        ⟨keep world action world' held.1 stepped, held.2.after_step held.1 meets stepped⟩
    exact met.invariant ⟨sound_start, unforked⟩ keepBoth
  exact both.2.oneTurn both.1

/-- The key of a run. -/
def runKey : SessionKey := ⟨['w'], ['r'], ['p'], ['m']⟩

/-- A test for the condition, for runs with at most one session. -/
def meetsPlainly (world : World Digest) : Action Digest → Bool
  | .lookUp caller _ _ =>
    match world.callers caller with
    | .looking key _ =>
      world.nextSession = 0 ∨ (world.nextSession = 1 ∧ world.sessions.lookup key = some 0)
    | _ => true
  | _ => true

theorem meets_of_plainly {world : World Digest} {action : Action Digest}
    (plain : meetsPlainly world action = true) : Meets world action := by
  cases action with
  | lookUp caller now order =>
    intro key notified at_ session made _ apart
    simp only [meetsPlainly, at_, decide_eq_true_eq] at plain
    rcases plain with none_ | ⟨one, filed⟩
    · exact absurd (none_ ▸ made) (Nat.not_lt_zero _)
    · obtain rfl : session = 0 := Nat.lt_one_iff.mp (one ▸ made)
      exact absurd filed apart
  | _ => trivial

/-- A turn is in flight and a second caller for its key waits. -/
theorem session_registry_safe_queued :
    ∃ world : World Unit, world.callers 1 = .turn 0 false ∧ world.callers 2 = .queued 0 ∧
      world.sessions.entries.length ≤ 1 ∧ world.Pins 1 ∧ world.Awake ∧ world.OneTurn := by
  obtain ⟨world, run, first, second⟩ : ∃ world : World Unit,
      (machine 0).runWhile meetsPlainly start
        [.begin 1 runKey, .lookUp 1 0 [], .takeTurnLock 1, .enterTurn 1 0, .begin 2 runKey,
         .lookUp 2 0 [⟨runKey, 0⟩]] = some world ∧
      world.callers 1 = .turn 0 false ∧ world.callers 2 = .queued 0 := ⟨_, rfl, rfl, rfl⟩
  have met : (machine 0).ReachableWhile Meets world :=
    (Machine.reachableWhile_of_runWhile .start run).mono fun _ _ => meets_of_plainly
  obtain ⟨bounded, pinned, awake, oneTurn⟩ := session_registry_safe met.reachable
  exact ⟨world, first, second, bounded, pinned, awake, oneTurn met⟩

/-- An invalidation takes the session of a turn in flight out of the map, and the next turn for the
key is in flight on a new one beside it. -/
theorem invalidated_key_has_two_turns :
    ¬∀ (maxSessions : Nat) (world : World Unit), (machine maxSessions).Reachable world →
      world.OneTurn := by
  intro oneTurn
  obtain ⟨world, run, first, second, sameKey⟩ : ∃ world : World Unit, (machine 64).run start
      [.begin 1 runKey, .lookUp 1 0 [], .takeTurnLock 1, .enterTurn 1 0,
       .invalidate 3 (.run ['w'] ['r']), .removeNext 3, .lockDropped 3, .droppedClosed 3,
       .invalidated 3, .begin 2 runKey, .lookUp 2 1 [], .takeTurnLock 2, .enterTurn 2 1] =
        some world ∧ world.callers 1 = .turn 0 false ∧ world.callers 2 = .turn 1 false ∧
      (world.shared 0).key = (world.shared 1).key := ⟨_, rfl, rfl, rfl, rfl⟩
  have same := oneTurn 64 world (Machine.reachable_of_run .start run) 1 2 0 1
    (by rw [first]; rfl) (by rw [second]; rfl) sameKey
  cases same

end Foco.WsRegistry
