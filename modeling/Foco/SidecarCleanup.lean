import Mathlib.Data.List.Nodup
import Foco.Maps
import Foco.RustText
import Foco.Runs

/-!
`app/remote_workspace.rs`, `RemoteSidecarCleanupSingleflight`: concurrent connections to one server
share one clean-up of its old sidecar versions. The first caller leads, those who join while its
flight is filed wait for what it publishes, and whoever leaves last removes the flight. Every guard
owns a reference to its flight, and so does the registry; a guard finds out that it is the last one
by the number of references, under the lock of the registry, and gives up its own reference only
after that lock is released.
-/
namespace Foco.SidecarCleanup
open Foco.RustText Foco.Maps Foco.Runs

/-! ## Flights and guards -/

structure RemoteSidecarCleanupKey where
  serverId : Text
  managedInstallVersion : Text
  deriving DecidableEq

/-- `RemoteSidecarCleanupOutcome`, over the parsed summary of a run. -/
inductive RemoteSidecarCleanupOutcome (RetainResult : Type) where
  | retainSummary (exitSuccess : Bool) (result : RetainResult)
  | invalidSummary (exitSuccess : Bool) (parseError : Text)
  | sshError (message : Text)
  | leaderCancelled

/-- Where the holder of a guard stands. -/
inductive Phase where
  /-- A leader whose clean-up still runs. -/
  | leading
  /-- A leader that has published and has still to release the flight. -/
  | published
  | waiting
  /-- A waiter whose `wait` has returned. -/
  | answered
  /-- `release_remote_sidecar_cleanup_flight` is done and the reference still held. -/
  | released
  deriving DecidableEq

/-- `RemoteSidecarCleanupFlightLeader` or `RemoteSidecarCleanupFlightWaiter`, with the number of
the call of `join` that returned it and of the flight it refers to. -/
structure Guard where
  caller : Nat
  key : RemoteSidecarCleanupKey
  flight : Nat
  phase : Phase
  deriving DecidableEq

/-- The registry, the guards not yet dropped and the values of the watches by flight. What the
leaders published and what the waiters got is recorded in the order in which it happened. -/
structure Flights (RetainResult : Type) where
  flights : Map RemoteSidecarCleanupKey Nat := ∅
  guards : List Guard := []
  results : Map Nat (RemoteSidecarCleanupOutcome RetainResult) := ∅
  nextFlight : Nat := 0
  nextCaller : Nat := 0
  ended : List (Nat × RemoteSidecarCleanupOutcome RetainResult) := []
  received : List (Guard × RemoteSidecarCleanupOutcome RetainResult) := []

section Steps
variable {RetainResult : Type}

/-- The holder of a guard moves on. -/
def Flights.advance (guard : Guard) (phase : Phase) (state : Flights RetainResult) :
    Flights RetainResult :=
  { state with guards := { guard with phase } :: state.guards.erase guard }

/-- `Arc::strong_count`: the guards of the flight, and the registry if it has the flight under
the key it was made for. -/
def strongCount (key : RemoteSidecarCleanupKey) (flight : Nat) (state : Flights RetainResult) : Nat :=
  (if state.flights.lookup key = some flight then 1 else 0) +
    state.guards.countP fun guard => guard.flight = flight

/-- `RemoteSidecarCleanupSingleflight::join`. -/
def join (key : RemoteSidecarCleanupKey) (state : Flights RetainResult) : Flights RetainResult :=
  match state.flights.lookup key with
  | some flight =>
    { state with
      guards := ⟨state.nextCaller, key, flight, .waiting⟩ :: state.guards
      nextCaller := state.nextCaller + 1 }
  | none =>
    { state with
      flights := state.flights.insert key state.nextFlight
      guards := ⟨state.nextCaller, key, state.nextFlight, .leading⟩ :: state.guards
      nextFlight := state.nextFlight + 1
      nextCaller := state.nextCaller + 1 }

/-- `RemoteSidecarCleanupFlight::publish`. -/
def publish (guard : Guard) (outcome : RemoteSidecarCleanupOutcome RetainResult)
    (state : Flights RetainResult) : Flights RetainResult :=
  { state.advance guard .published with
    results := state.results.insert guard.flight outcome
    ended := state.ended ++ [(guard.flight, outcome)] }

/-- `release_remote_sidecar_cleanup_flight`. -/
def release (guard : Guard) (state : Flights RetainResult) : Flights RetainResult :=
  let flights :=
    if state.flights.lookup guard.key = some guard.flight ∧
        strongCount guard.key guard.flight state = 2 then
      state.flights.erase guard.key
    else state.flights
  { state.advance guard .released with flights }

inductive Action (RetainResult : Type) where
  | join (key : RemoteSidecarCleanupKey)
  /-- `complete`, up to its release of the flight. -/
  | complete (leader : Guard) (outcome : RemoteSidecarCleanupOutcome RetainResult)
  /-- The drop of a leader that has not published, up to its release of the flight. -/
  | abandon (leader : Guard)
  /-- `wait` finds a value in the watch and returns it. -/
  | poll (waiter : Guard)
  /-- The body of a drop, or the end of `complete`. A waiter may be dropped before it got a value. -/
  | check (guard : Guard)
  /-- The reference of a dropped guard goes. -/
  | forget (guard : Guard)

def step (state : Flights RetainResult) : Action RetainResult → Option (Flights RetainResult)
  | .join key => some (join key state)
  | .complete leader outcome =>
    if leader ∈ state.guards ∧ leader.phase = .leading then some (publish leader outcome state)
    else none
  | .abandon leader =>
    if leader ∈ state.guards ∧ leader.phase = .leading then
      some (publish leader .leaderCancelled state)
    else none
  | .poll waiter =>
    if waiter ∈ state.guards ∧ waiter.phase = .waiting then
      (state.results.lookup waiter.flight).map fun outcome =>
        { state.advance waiter .answered with received := state.received ++ [(waiter, outcome)] }
    else none
  | .check guard =>
    if guard ∈ state.guards ∧ guard.phase ∈ [.published, .waiting, .answered] then
      some (release guard state)
    else none
  | .forget guard =>
    if guard ∈ state.guards ∧ guard.phase = .released then
      some { state with guards := state.guards.erase guard }
    else none

/-- Any number of callers, in any order. -/
def cleanupMachine (RetainResult : Type) : Machine (Flights RetainResult) (Action RetainResult) where
  start := {}
  step := step

end Steps

/-! ## What holds in every run -/

/-- The bookkeeping of guards and flights. -/
structure Sound {RetainResult : Type} (state : Flights RetainResult) : Prop where
  callers : (state.guards.map Guard.caller).Nodup
  called : ∀ guard ∈ state.guards, guard.caller < state.nextCaller
  opened : ∀ guard ∈ state.guards, guard.flight < state.nextFlight
  filed : ∀ key flight, state.flights.lookup key = some flight → flight < state.nextFlight
  apart : ∀ key other flight, state.flights.lookup key = some flight →
    state.flights.lookup other = some flight → key = other
  /-- A guard that has not yet released its flight keeps it in the registry. -/
  attached : ∀ guard ∈ state.guards, guard.phase ≠ .released →
    state.flights.lookup guard.key = some guard.flight
  /-- Who leads a flight has published nothing. -/
  silent : ∀ guard ∈ state.guards, guard.phase = .leading →
    state.results.lookup guard.flight = none
  alone : ∀ first ∈ state.guards, ∀ second ∈ state.guards, first.phase = .leading →
    second.phase = .leading → first.flight = second.flight → first = second
  /-- A filed flight without a result still has its leader. -/
  led : ∀ key flight, state.flights.lookup key = some flight →
    state.results.lookup flight = none →
      ∃ leader ∈ state.guards, leader.flight = flight ∧ leader.phase = .leading
  shown : ∀ flight outcome, state.results.lookup flight = some outcome ↔
    (flight, outcome) ∈ state.ended
  once : (state.ended.map Prod.fst).Nodup
  ended : ∀ flight outcome, (flight, outcome) ∈ state.ended → flight < state.nextFlight
  answers : ∀ guard outcome, (guard, outcome) ∈ state.received →
    (guard.flight, outcome) ∈ state.ended

section Bookkeeping
variable {RetainResult : Type} {state : Flights RetainResult} {guard : Guard}

theorem Sound.nodup (sound : Sound state) : state.guards.Nodup := sound.callers.of_map

theorem mem_advance (sound : Sound state) {phase : Phase} {other : Guard} :
    other ∈ (state.advance guard phase).guards ↔
      other = { guard with phase } ∨ (other ≠ guard ∧ other ∈ state.guards) := by
  rw [Flights.advance, List.mem_cons, sound.nodup.mem_erase_iff]

/-- Moving a guard on changes no name of a guard. -/
theorem callers_advance (sound : Sound state) (mem : guard ∈ state.guards) (phase : Phase) :
    ((state.advance guard phase).guards.map Guard.caller).Nodup := by
  have perm := (List.perm_cons_erase mem).map Guard.caller
  exact perm.nodup_iff.mp sound.callers

/-- What a guard that moved on, or stayed, was before. -/
theorem of_mem_advance (sound : Sound state) (mem : guard ∈ state.guards) {phase : Phase}
    {other : Guard} (left : other ∈ (state.advance guard phase).guards) :
    ∃ before ∈ state.guards, before.caller = other.caller ∧ before.key = other.key ∧
      before.flight = other.flight ∧ (other.phase = phase ∨ other = before) := by
  obtain rfl | ⟨_, stays⟩ := (mem_advance sound).mp left
  · exact ⟨guard, mem, rfl, rfl, rfl, .inl rfl⟩
  · exact ⟨other, stays, rfl, rfl, rfl, .inr rfl⟩

theorem sound_start : Sound (cleanupMachine RetainResult).start := by
  refine ⟨.nil, nofun, nofun, fun key flight found => ?_, fun key _ flight found => ?_, nofun,
    nofun, nofun, fun key flight found => ?_, fun flight outcome => ?_, .nil, nofun, nofun⟩
  · rw [cleanupMachine, AList.lookup_empty] at found
    cases found
  · rw [cleanupMachine, AList.lookup_empty] at found
    cases found
  · rw [cleanupMachine, AList.lookup_empty] at found
    cases found
  · rw [cleanupMachine, AList.lookup_empty]
    exact ⟨nofun, nofun⟩

theorem sound_join (sound : Sound state) (key : RemoteSidecarCleanupKey) :
    Sound (join key state) := by
  have callers : ∀ newcomer : Guard, newcomer.caller = state.nextCaller →
      ((newcomer :: state.guards).map Guard.caller).Nodup := fun newcomer name => by
    refine List.nodup_cons.mpr ⟨fun used => ?_, sound.callers⟩
    obtain ⟨guard, mem, same⟩ := List.mem_map.mp used
    have bound := sound.called guard mem
    omega
  unfold join
  cases found : state.flights.lookup key with
  | some flight =>
    refine { sound with
      callers := callers _ rfl, called := ?_, opened := ?_, attached := ?_, silent := ?_,
      alone := ?_, led := ?_ }
    · exact List.forall_mem_cons.mpr ⟨Nat.lt_succ_self _, fun guard mem =>
        Nat.lt_succ_of_lt (sound.called guard mem)⟩
    · exact List.forall_mem_cons.mpr ⟨sound.filed key flight found, sound.opened⟩
    · exact List.forall_mem_cons.mpr ⟨fun _ => found, sound.attached⟩
    · exact List.forall_mem_cons.mpr ⟨nofun, sound.silent⟩
    · refine List.forall_mem_cons.mpr ⟨fun _ _ leads => (nomatch leads), fun first firstMem => ?_⟩
      exact List.forall_mem_cons.mpr ⟨fun _ leads => (nomatch leads), sound.alone first firstMem⟩
    · intro key flight found unpublished
      obtain ⟨leader, mem, leads⟩ := sound.led key flight found unpublished
      exact ⟨leader, List.mem_cons_of_mem _ mem, leads⟩
  | none =>
    have fresh : state.results.lookup state.nextFlight = none := by
      cases known : state.results.lookup state.nextFlight with
      | none => rfl
      | some outcome =>
        exact absurd (sound.ended _ _ ((sound.shown _ _).mp known)) (Nat.lt_irrefl _)
    refine { sound with
      callers := callers _ rfl, called := ?_, opened := ?_, filed := ?_, apart := ?_,
      attached := ?_, silent := ?_, alone := ?_, led := ?_, ended := ?_ }
    · exact List.forall_mem_cons.mpr ⟨Nat.lt_succ_self _, fun guard mem =>
        Nat.lt_succ_of_lt (sound.called guard mem)⟩
    · exact List.forall_mem_cons.mpr ⟨Nat.lt_succ_self _, fun guard mem =>
        Nat.lt_succ_of_lt (sound.opened guard mem)⟩
    · intro other flight found
      rw [Map.lookup_insert_eq_ite] at found
      split at found
      · cases found
        exact Nat.lt_succ_self _
      · exact Nat.lt_succ_of_lt (sound.filed other flight found)
    · intro first second flight firstFound secondFound
      rw [Map.lookup_insert_eq_ite] at firstFound secondFound
      split at firstFound <;> split at secondFound
      · next firstSame secondSame => exact firstSame.trans secondSame.symm
      · cases firstFound
        exact absurd (sound.filed _ _ secondFound) (Nat.lt_irrefl _)
      · cases secondFound
        exact absurd (sound.filed _ _ firstFound) (Nat.lt_irrefl _)
      · exact sound.apart first second flight firstFound secondFound
    · refine List.forall_mem_cons.mpr ⟨fun _ => AList.lookup_insert _, fun guard mem holds => ?_⟩
      have attached := sound.attached guard mem holds
      rw [Map.lookup_insert_eq_ite, if_neg fun same => ?_]
      · exact attached
      · rw [same, found] at attached
        cases attached
    · exact List.forall_mem_cons.mpr ⟨fun _ => fresh, sound.silent⟩
    · refine List.forall_mem_cons.mpr ⟨List.forall_mem_cons.mpr ⟨fun _ _ _ => rfl, ?_⟩, ?_⟩
      · intro second mem _ _ same
        exact absurd (same ▸ sound.opened second mem) (Nat.lt_irrefl _)
      · intro first mem
        refine List.forall_mem_cons.mpr ⟨fun _ _ same => ?_, sound.alone first mem⟩
        exact absurd (same ▸ sound.opened first mem) (Nat.lt_irrefl _)
    · intro other flight found unpublished
      rw [Map.lookup_insert_eq_ite] at found
      split at found
      · cases found
        exact ⟨_, List.mem_cons_self, rfl, rfl⟩
      · obtain ⟨leader, mem, leads⟩ := sound.led other flight found unpublished
        exact ⟨leader, List.mem_cons_of_mem _ mem, leads⟩
    · exact fun flight outcome mem => Nat.lt_succ_of_lt (sound.ended flight outcome mem)

theorem sound_publish (sound : Sound state) (mem : guard ∈ state.guards)
    (leads : guard.phase = .leading) (outcome : RemoteSidecarCleanupOutcome RetainResult) :
    Sound (publish guard outcome state) := by
  have silent := sound.silent guard mem leads
  have unended : guard.flight ∉ state.ended.map Prod.fst := fun used => by
    obtain ⟨⟨flight, other⟩, ended, same⟩ := List.mem_map.mp used
    have known := (sound.shown flight other).mpr ended
    rw [show flight = guard.flight from same, silent] at known
    cases known
  have before : ∀ other ∈ (state.advance guard .published).guards, ∃ b ∈ state.guards,
      b.caller = other.caller ∧ b.key = other.key ∧ b.flight = other.flight ∧
        (other.phase = .published ∨ other = b) := fun other left => of_mem_advance sound mem left
  -- Another leader has another flight, so this publication is not its.
  have other_leader : ∀ other ∈ (state.advance guard .published).guards, other.phase = .leading →
      other ∈ state.guards ∧ other.flight ≠ guard.flight := fun other left otherLeads => by
    obtain rfl | ⟨ne, stays⟩ := (mem_advance sound).mp left
    · cases otherLeads
    · exact ⟨stays, fun same => ne (sound.alone other stays guard mem otherLeads leads same)⟩
  refine ⟨callers_advance sound mem _, fun other left => ?_, fun other left => ?_, sound.filed,
    sound.apart, fun other left holds => ?_, fun other left otherLeads => ?_,
    fun first firstLeft second secondLeft firstLeads secondLeads => ?_,
    fun key flight found unpublished => ?_, fun flight other => ?_, ?_, fun flight other => ?_,
    fun waiter other received => ?_⟩
  · obtain ⟨b, bMem, name, -⟩ := before other left
    exact name ▸ sound.called b bMem
  · obtain ⟨b, bMem, -, -, flight, -⟩ := before other left
    exact flight ▸ sound.opened b bMem
  · obtain ⟨b, bMem, -, key, flight, moved | rfl⟩ := before other left
    · obtain rfl | ⟨_, stays⟩ := (mem_advance sound).mp left
      · exact sound.attached guard mem (by rw [leads]; nofun)
      · exact sound.attached other stays holds
    · exact sound.attached other bMem holds
  · obtain ⟨stays, apart⟩ := other_leader other left otherLeads
    change (state.results.insert _ _).lookup _ = none
    rw [Map.lookup_insert_eq_ite, if_neg apart]
    exact sound.silent other stays otherLeads
  · exact sound.alone first (other_leader first firstLeft firstLeads).1 second
      (other_leader second secondLeft secondLeads).1 firstLeads secondLeads
  · change (state.results.insert _ _).lookup _ = none at unpublished
    rw [Map.lookup_insert_eq_ite] at unpublished
    split at unpublished
    · cases unpublished
    · next apart =>
      obtain ⟨leader, leaderMem, same, leaderLeads⟩ := sound.led key flight found unpublished
      refine ⟨leader, (mem_advance sound).mpr (.inr ⟨fun equal => ?_, leaderMem⟩), same,
        leaderLeads⟩
      exact apart (equal ▸ same.symm)
  · change (state.results.insert _ _).lookup _ = _ ↔ _ ∈ state.ended ++ _
    rw [Map.lookup_insert_eq_ite, List.mem_append, List.mem_singleton, Prod.mk.injEq,
      ← sound.shown flight other]
    split
    · next same =>
      subst same
      rw [silent]
      exact ⟨fun equal => .inr ⟨rfl, (Option.some.inj equal).symm⟩, fun
        | .inr equal => congrArg some equal.2.symm⟩
    · next apart =>
      exact ⟨.inl, fun
        | .inl known => known
        | .inr equal => absurd equal.1 apart⟩
  · change ((state.ended ++ _).map Prod.fst).Nodup
    rw [List.map_append]
    refine List.nodup_append.mpr ⟨sound.once, List.nodup_singleton _, ?_⟩
    rintro flight ended _ here rfl
    obtain rfl : flight = guard.flight := List.mem_singleton.mp here
    exact unended ended
  · intro ended
    obtain ended | ended := List.mem_append.mp ended
    · exact sound.ended flight other ended
    · cases List.mem_singleton.mp ended
      exact sound.opened guard mem
  · exact List.mem_append_left _ (sound.answers waiter other received)

/-- A guard that leads nothing moves on without disturbing the others. -/
theorem sound_advance (sound : Sound state) (mem : guard ∈ state.guards) (phase : Phase)
    (follows : guard.phase ≠ .leading) (stays : phase ≠ .leading)
    (holds : phase ≠ .released → guard.phase ≠ .released) :
    Sound (state.advance guard phase) := by
  have leader_before : ∀ other ∈ (state.advance guard phase).guards, other.phase = .leading →
      other ∈ state.guards := fun other left leads => by
    obtain rfl | ⟨_, before⟩ := (mem_advance sound).mp left
    · exact absurd leads stays
    · exact before
  refine { sound with
    callers := callers_advance sound mem phase, called := ?_, opened := ?_, attached := ?_,
    silent := ?_, alone := ?_, led := ?_ }
  · intro other left
    obtain ⟨before, beforeMem, name, -⟩ := of_mem_advance sound mem left
    exact name ▸ sound.called before beforeMem
  · intro other left
    obtain ⟨before, beforeMem, -, -, flight, -⟩ := of_mem_advance sound mem left
    exact flight ▸ sound.opened before beforeMem
  · intro other left unreleased
    obtain rfl | ⟨_, before⟩ := (mem_advance sound).mp left
    · exact sound.attached guard mem (holds unreleased)
    · exact sound.attached other before unreleased
  · exact fun other left leads => sound.silent other (leader_before other left leads) leads
  · exact fun first firstLeft second secondLeft firstLeads secondLeads =>
      sound.alone first (leader_before first firstLeft firstLeads) second
        (leader_before second secondLeft secondLeads) firstLeads secondLeads
  · intro key flight found unpublished
    obtain ⟨leader, leaderMem, same, leads⟩ := sound.led key flight found unpublished
    refine ⟨leader, (mem_advance sound).mpr (.inr ⟨fun equal => ?_, leaderMem⟩), same, leads⟩
    exact follows (equal ▸ leads)

/-- The only references are the registry's and the guard's own if and only if no other guard refers
to the flight. -/
theorem strongCount_eq_two_iff (sound : Sound state) (mem : guard ∈ state.guards)
    (filed : state.flights.lookup guard.key = some guard.flight) :
    strongCount guard.key guard.flight state = 2 ↔
      ∀ other ∈ state.guards, other.flight = guard.flight → other = guard := by
  have perm := List.perm_cons_erase mem
  have count : state.guards.countP (fun other => other.flight = guard.flight) =
      (state.guards.erase guard).countP (fun other => other.flight = guard.flight) + 1 := by
    rw [perm.countP_eq, List.countP_cons_of_pos (by simp)]
  have rest : (state.guards.erase guard).countP (fun other => other.flight = guard.flight) = 0 ↔
      ∀ other ∈ state.guards, other.flight = guard.flight → other = guard := by
    rw [List.countP_eq_zero]
    constructor
    · intro alone other otherMem same
      by_contra ne
      exact alone other ((List.mem_erase_of_ne ne).mpr otherMem) (decide_eq_true same)
    · intro alone other left same
      obtain ⟨ne, otherMem⟩ := sound.nodup.mem_erase_iff.mp left
      exact ne (alone other otherMem (of_decide_eq_true same))
  rw [strongCount, if_pos filed, count, ← rest]
  omega

theorem sound_release (sound : Sound state) (mem : guard ∈ state.guards)
    (follows : guard.phase ≠ .leading) : Sound (release guard state) := by
  have advanced := sound_advance sound mem .released follows nofun (fun no => absurd rfl no)
  unfold release
  dsimp only
  split
  · next removed =>
    obtain ⟨filed, count⟩ := removed
    have alone := (strongCount_eq_two_iff sound mem filed).mp count
    refine { advanced with
      filed := fun key flight found => ?_, apart := fun first second flight firstFound secondFound => ?_,
      attached := fun other left unreleased => ?_, led := fun key flight found => ?_ }
    · rw [Map.lookup_erase_eq_ite] at found
      exact sound.filed key flight (Option.ite_none_left_eq_some.mp found).2
    · rw [Map.lookup_erase_eq_ite] at firstFound secondFound
      exact sound.apart first second flight (Option.ite_none_left_eq_some.mp firstFound).2
        (Option.ite_none_left_eq_some.mp secondFound).2
    · have attached := advanced.attached other left unreleased
      rw [Map.lookup_erase_eq_ite, if_neg fun same => ?_]
      · exact attached
      · -- A second guard of the key would refer to the same flight.
        obtain rfl | ⟨ne, before⟩ := (mem_advance sound).mp left
        · exact unreleased rfl
        · have here : state.flights.lookup guard.key = some other.flight := same ▸ attached
          rw [filed, Option.some.injEq] at here
          exact ne (alone other before here.symm)
    · rw [Map.lookup_erase_eq_ite] at found
      exact advanced.led key flight (Option.ite_none_left_eq_some.mp found).2
  · exact { advanced with }

theorem sound_forget (sound : Sound state) (gone : guard.phase = .released) :
    Sound { state with guards := state.guards.erase guard } := by
  have before : ∀ other ∈ state.guards.erase guard, other ∈ state.guards :=
    fun other => List.mem_of_mem_erase
  refine { sound with
    callers := (List.erase_sublist.map _).nodup sound.callers
    called := fun other left => sound.called other (before other left)
    opened := fun other left => sound.opened other (before other left)
    attached := fun other left => sound.attached other (before other left)
    silent := fun other left => sound.silent other (before other left)
    alone := fun first firstLeft second secondLeft =>
      sound.alone first (before first firstLeft) second (before second secondLeft)
    led := fun key flight found unpublished => ?_ }
  obtain ⟨leader, mem, same, leads⟩ := sound.led key flight found unpublished
  refine ⟨leader, (List.mem_erase_of_ne fun equal => ?_).mpr mem, same, leads⟩
  rw [equal, gone] at leads
  cases leads

theorem sound_step {action : Action RetainResult} {state' : Flights RetainResult}
    (sound : Sound state) (stepped : step state action = some state') : Sound state' := by
  cases action with
  | join key =>
    cases stepped
    exact sound_join sound key
  | complete leader outcome =>
    obtain ⟨⟨mem, leads⟩, same⟩ := Option.ite_none_right_eq_some.mp stepped
    cases same
    exact sound_publish sound mem leads outcome
  | abandon leader =>
    obtain ⟨⟨mem, leads⟩, same⟩ := Option.ite_none_right_eq_some.mp stepped
    cases same
    exact sound_publish sound mem leads _
  | poll waiter =>
    obtain ⟨⟨mem, waits⟩, same⟩ := Option.ite_none_right_eq_some.mp stepped
    obtain ⟨outcome, known, rfl⟩ := Option.map_eq_some_iff.mp same
    have advanced := sound_advance sound mem .answered (by rw [waits]; nofun) nofun
      (fun _ => by rw [waits]; nofun)
    refine { advanced with answers := fun guard other received => ?_ }
    obtain received | received := List.mem_append.mp received
    · exact sound.answers guard other received
    · cases List.mem_singleton.mp received
      exact (sound.shown _ _).mp known
  | check guard =>
    obtain ⟨⟨mem, leaves⟩, same⟩ := Option.ite_none_right_eq_some.mp stepped
    cases same
    refine sound_release sound mem fun leads => ?_
    rw [leads] at leaves
    exact absurd leaves (by decide)
  | forget guard =>
    obtain ⟨⟨-, gone⟩, same⟩ := Option.ite_none_right_eq_some.mp stepped
    cases same
    exact sound_forget sound gone

/-! ## Runs in which the last guard leaves alone -/

/-- When a guard counts the references, another one that still needs its flight follows, or none
is between its own count and the end of its reference. -/
def leavesInTurn (state : Flights RetainResult) : Action RetainResult → Bool
  | .check guard =>
    (state.guards.any fun other =>
      other.flight = guard.flight ∧ other ≠ guard ∧ other.phase ≠ .released) ||
    state.guards.all fun other => other.flight = guard.flight → other.phase ≠ .released
  | _ => true

/-- Every filed flight has a guard that has yet to release it. -/
def Attended (state : Flights RetainResult) : Prop :=
  ∀ key flight, state.flights.lookup key = some flight →
    ∃ guard ∈ state.guards, guard.key = key ∧ guard.flight = flight ∧ guard.phase ≠ .released

theorem attended_advance (sound : Sound state) (attended : Attended state) {phase : Phase}
    (mem : guard ∈ state.guards) (holds : phase ≠ .released) :
    Attended (state.advance guard phase) := by
  intro key flight found
  obtain ⟨other, otherMem, sameKey, sameFlight, unreleased⟩ := attended key flight found
  by_cases same : other = guard
  · subst same
    exact ⟨_, (mem_advance sound).mpr (.inl rfl), sameKey, sameFlight, holds⟩
  · exact ⟨other, (mem_advance sound).mpr (.inr ⟨same, otherMem⟩), sameKey, sameFlight, unreleased⟩

theorem attended_join (attended : Attended state) (key : RemoteSidecarCleanupKey) :
    Attended (join key state) := by
  unfold join
  cases filed : state.flights.lookup key with
  | some flight =>
    intro other otherFlight found
    obtain ⟨guard, mem, rest⟩ := attended other otherFlight found
    exact ⟨guard, List.mem_cons_of_mem _ mem, rest⟩
  | none =>
    intro other otherFlight found
    rw [Map.lookup_insert_eq_ite] at found
    split at found
    · next same =>
      cases found
      exact ⟨_, List.mem_cons_self, same.symm, rfl, nofun⟩
    · obtain ⟨guard, mem, rest⟩ := attended other otherFlight found
      exact ⟨guard, List.mem_cons_of_mem _ mem, rest⟩

theorem attended_release (sound : Sound state) (attended : Attended state)
    (mem : guard ∈ state.guards) (unreleased : guard.phase ≠ .released)
    (inTurn : leavesInTurn state (.check guard) = true) : Attended (release guard state) := by
  have filed := sound.attached guard mem unreleased
  unfold release
  intro key flight found
  dsimp only at found
  -- Another guard of the same flight stays attached to it.
  have other_stays : ∀ other ∈ state.guards, other ≠ guard → other.phase ≠ .released →
      other.key = key → other.flight = flight →
      ∃ o ∈ (state.advance guard .released).guards, o.key = key ∧ o.flight = flight ∧
        o.phase ≠ .released :=
    fun other otherMem ne holds sameKey sameFlight =>
      ⟨other, (mem_advance sound).mpr (.inr ⟨ne, otherMem⟩), sameKey, sameFlight, holds⟩
  have before : state.flights.lookup key = some flight := by
    split at found
    · rw [Map.lookup_erase_eq_ite] at found
      exact (Option.ite_none_left_eq_some.mp found).2
    · exact found
  obtain ⟨holder, holderMem, sameKey, sameFlight, holds⟩ := attended key flight before
  by_cases own : holder = guard
  · subst own
    rw [leavesInTurn, Bool.or_eq_true, List.any_eq_true, List.all_eq_true] at inTurn
    obtain ⟨other, otherMem, follows⟩ | nobody := inTurn
    · obtain ⟨same, ne, otherHolds⟩ := of_decide_eq_true follows
      have otherFiled := sound.attached other otherMem otherHolds
      rw [same] at otherFiled
      exact other_stays other otherMem ne otherHolds
        ((sound.apart _ _ _ otherFiled filed).trans sameKey) (same.trans sameFlight)
    · by_cases follows : ∃ other ∈ state.guards, other.flight = holder.flight ∧ other ≠ holder
      · obtain ⟨other, otherMem, same, ne⟩ := follows
        have otherHolds := of_decide_eq_true (nobody other otherMem) same
        have otherFiled := sound.attached other otherMem otherHolds
        rw [same] at otherFiled
        exact other_stays other otherMem ne otherHolds
          ((sound.apart _ _ _ otherFiled filed).trans sameKey) (same.trans sameFlight)
      · -- The last reference but the registry's: the entry is gone.
        have count := (strongCount_eq_two_iff sound mem filed).mpr fun other otherMem same => by
          by_contra ne
          exact follows ⟨other, otherMem, same, ne⟩
        rw [if_pos ⟨filed, count⟩, sameKey, AList.lookup_erase] at found
        cases found
  · exact other_stays holder holderMem own holds sameKey sameFlight

theorem attended_step {action : Action RetainResult} {state' : Flights RetainResult}
    (sound : Sound state) (attended : Attended state) (inTurn : leavesInTurn state action = true)
    (stepped : step state action = some state') : Attended state' := by
  cases action with
  | join key =>
    cases stepped
    exact attended_join attended key
  | complete leader outcome =>
    obtain ⟨⟨mem, -⟩, same⟩ := Option.ite_none_right_eq_some.mp stepped
    cases same
    exact attended_advance sound attended mem nofun
  | abandon leader =>
    obtain ⟨⟨mem, -⟩, same⟩ := Option.ite_none_right_eq_some.mp stepped
    cases same
    exact attended_advance sound attended mem nofun
  | poll waiter =>
    obtain ⟨⟨mem, -⟩, same⟩ := Option.ite_none_right_eq_some.mp stepped
    obtain ⟨outcome, -, rfl⟩ := Option.map_eq_some_iff.mp same
    exact attended_advance sound attended mem nofun
  | check guard =>
    obtain ⟨⟨mem, leaves⟩, same⟩ := Option.ite_none_right_eq_some.mp stepped
    cases same
    refine attended_release sound attended mem (fun gone => ?_) inTurn
    rw [gone] at leaves
    exact absurd leaves (by decide)
  | forget guard =>
    obtain ⟨⟨-, gone⟩, same⟩ := Option.ite_none_right_eq_some.mp stepped
    cases same
    intro key flight found
    obtain ⟨other, mem, sameKey, sameFlight, holds⟩ := attended key flight found
    have stays : other ≠ guard := by
      rintro rfl
      exact holds gone
    exact ⟨other, (List.mem_erase_of_ne stays).mpr mem, sameKey, sameFlight, holds⟩

theorem attended_of_reachable
    (reached : (cleanupMachine RetainResult).ReachableWhile
      (fun s a => leavesInTurn s a = true) state) : Sound state ∧ Attended state := by
  have start : Attended (cleanupMachine RetainResult).start := fun key flight found => by
    rw [cleanupMachine, AList.lookup_empty] at found
    cases found
  have keep : ∀ (state : Flights RetainResult) action state', Sound state ∧ Attended state →
      leavesInTurn state action = true → step state action = some state' →
        Sound state' ∧ Attended state' :=
    fun _ _ _ inv inTurn stepped =>
      ⟨sound_step inv.1 stepped, attended_step inv.1 inv.2 inTurn stepped⟩
  exact reached.invariant ⟨sound_start, start⟩ keep

/-! ## What the singleflight promises -/

/-- One running leader for a key, its outcome for everyone who waits, and a new leader once all
have left. -/
structure SharesCleanup (state : Flights RetainResult) : Prop where
  oneLeader : ∀ first ∈ state.guards, ∀ second ∈ state.guards, first.phase = .leading →
    second.phase = .leading → first.key = second.key → first = second
  onePublication : (state.ended.map Prod.fst).Nodup
  received : ∀ waiter outcome, (waiter, outcome) ∈ state.received →
    (waiter.flight, outcome) ∈ state.ended
  served : ∀ waiter ∈ state.guards, waiter.phase = .waiting →
    (∃ leader ∈ state.guards, leader.flight = waiter.flight ∧ leader.phase = .leading) ∨
    ∃ outcome, (waiter.flight, outcome) ∈ state.ended ∧
      ∃ state', step state (.poll waiter) = some state' ∧ (waiter, outcome) ∈ state'.received
  cleared : ∀ key, (∀ guard ∈ state.guards, guard.key ≠ key) →
    state.flights.lookup key = none ∧
      ∃ leader ∈ (join key state).guards, leader.key = key ∧ leader.phase = .leading

theorem Sound.served (sound : Sound state) (mem : guard ∈ state.guards)
    (waits : guard.phase = .waiting) :
    (∃ leader ∈ state.guards, leader.flight = guard.flight ∧ leader.phase = .leading) ∨
    ∃ outcome, (guard.flight, outcome) ∈ state.ended ∧
      ∃ state', step state (.poll guard) = some state' ∧ (guard, outcome) ∈ state'.received := by
  cases known : state.results.lookup guard.flight with
  | none =>
    exact .inl (sound.led guard.key guard.flight
      (sound.attached guard mem (by rw [waits]; nofun)) known)
  | some outcome =>
    refine .inr ⟨outcome, (sound.shown _ _).mp known,
      { state.advance guard .answered with received := state.received ++ [(guard, outcome)] },
      ?_, List.mem_append_right _ (List.mem_singleton_self _)⟩
    rw [step, if_pos ⟨mem, waits⟩, known, Option.map_some]

theorem Sound.one_leader (sound : Sound state) {first second : Guard}
    (firstMem : first ∈ state.guards) (secondMem : second ∈ state.guards)
    (firstLeads : first.phase = .leading) (secondLeads : second.phase = .leading)
    (same : first.key = second.key) : first = second := by
  have firstFiled := sound.attached first firstMem (by rw [firstLeads]; nofun)
  have secondFiled := sound.attached second secondMem (by rw [secondLeads]; nofun)
  rw [same, secondFiled, Option.some.injEq] at firstFiled
  exact sound.alone first firstMem second secondMem firstLeads secondLeads firstFiled.symm

/-- All promises hold in every run in which no guard counts the reference of one on its way out
when it is the last to need the flight. -/
theorem sharesCleanup_of_leavesInTurn
    (reached : (cleanupMachine RetainResult).ReachableWhile
      (fun s a => leavesInTurn s a = true) state) : SharesCleanup state := by
  obtain ⟨sound, attended⟩ := attended_of_reachable reached
  refine ⟨fun first firstMem second secondMem => sound.one_leader firstMem secondMem, sound.once,
    sound.answers, fun waiter mem => sound.served mem, fun key left => ?_⟩
  have absent : state.flights.lookup key = none := by
    cases found : state.flights.lookup key with
    | none => rfl
    | some flight =>
      obtain ⟨guard, mem, same, -⟩ := attended key flight found
      exact absurd same (left guard mem)
  refine ⟨absent, ?_⟩
  rw [join, absent]
  exact ⟨_, List.mem_cons_self, rfl, rfl⟩

end Bookkeeping

section Runs

private def anyKey : RemoteSidecarCleanupKey := ⟨[], []⟩

private def caller (number : Nat) (phase : Phase) : Guard := ⟨number, anyKey, 0, phase⟩

/-- A leader and two waiters, up to the point where both waiters have the outcome. -/
private def shared : List (Action Unit) :=
  [.join anyKey, .join anyKey, .join anyKey, .complete (caller 0 .leading) (.sshError []),
    .check (caller 0 .published), .forget (caller 0 .released), .poll (caller 1 .waiting),
    .poll (caller 2 .waiting)]

/-- Two waiters that leave together keep the entry of a flight that nobody holds. -/
theorem sharesCleanup_not_always : ¬ ∀ state : Flights Unit,
    (cleanupMachine Unit).Reachable state → SharesCleanup state := by
  intro always
  have ends : ((cleanupMachine Unit).run {} (shared ++
      [Action.check (caller 1 .answered), .check (caller 2 .answered), .forget (caller 1 .released),
        .forget (caller 2 .released)])).any (fun state =>
      state.guards.isEmpty && (state.flights.lookup anyKey).isSome) = true := by decide
  obtain ⟨state, run, checks⟩ := (Option.any_eq_true _ _).mp ends
  rw [Bool.and_eq_true, List.isEmpty_iff] at checks
  have cleared := (always state (Machine.reachable_of_run .start run)).cleared anyKey
    (by simp [checks.1])
  rw [cleared.1] at checks
  exact nomatch checks.2

/-- The same callers leave one after the other. -/
theorem sharesCleanup_of_leavesInTurn_three : ∃ state : Flights Unit,
    state.guards = [] ∧ state.received.length = 2 ∧ SharesCleanup state := by
  have ends : ((cleanupMachine Unit).runWhile leavesInTurn {} (shared ++
      [Action.check (caller 1 .answered), .forget (caller 1 .released), .check (caller 2 .answered),
        .forget (caller 2 .released)])).any (fun state =>
      state.guards.isEmpty && state.received.length == 2) = true := by decide
  obtain ⟨state, run, checks⟩ := (Option.any_eq_true _ _).mp ends
  rw [Bool.and_eq_true, List.isEmpty_iff, beq_iff_eq] at checks
  exact ⟨state, checks.1, checks.2,
    sharesCleanup_of_leavesInTurn (Machine.reachableWhile_of_runWhile .start run)⟩

end Runs

end Foco.SidecarCleanup
