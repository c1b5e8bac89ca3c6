import Foco.OrderedStreams
import Mathlib.Data.Int.Order.Basic
import Mathlib.Data.List.Nodup
import Foco.RustText
import Foco.Runs

/-!
`app/runtime/subscriptions.rs`: how the events of an active chat run reach its subscribers. A
producer allocates the sequence of an event in the database, pushes the event to the cache and
then broadcasts it, as separate actions: `record_event` of the registration, or
`publish_persisted_event`, which looks the run up in between. A subscriber looks the run up,
attaches to the broadcast, reads the cache, and then follows the broadcast until the run is
completed; a broadcast it was too slow for makes it read the cache again. The broadcast keeps
512 events, so here a subscriber may lose any number of those it has not received. A closed
broadcast ends a subscription as the completion flag does, which is set before.
-/
namespace Foco.ChatRunStreams
open Foco.RustText Foco.Runs Foco.Streams

/-! ## The producers -/

structure ChatRunEventFrame where
  sequence : Int
  eventType : Text
  payloadJson : Text
  deriving DecidableEq

/-- What a producer has done with its event. -/
inductive ProducerPhase where
  | allocated
  /-- `publish_persisted_event` has found the run in progress. -/
  | found
  | pushed
  deriving DecidableEq

/-- An event on its way, and whether `publish_persisted_event` brings it. -/
structure Producer where
  frame : ChatRunEventFrame
  published : Bool
  phase : ProducerPhase

/-- The run as its producers see it: the sequence the database allocates next, the cache, what was
broadcast, the completion flag, whether the registry has the run, the events on their way, and
every event allocated for this registration. -/
structure ChatRun where
  nextSequence : Int := 0
  cache : List ChatRunEventFrame := []
  sent : List ChatRunEventFrame := []
  completed : Bool := false
  registered : Bool := true
  producing : List Producer := []
  allocated : List ChatRunEventFrame := []

/-- The actions of the producers, of the holder of the registration, and of other writers of the
run's events, which take sequences too. -/
inductive RunAction where
  | skip
  | allocate (published : Bool) (eventType payloadJson : Text)
  | find (sequence : Int)
  | push (sequence : Int)
  | broadcast (sequence : Int)
  | complete
  | unregister

/-- The producer that has a sequence. -/
def ChatRun.producer? (run : ChatRun) (sequence : Int) : Option Producer :=
  run.producing.find? fun producer => producer.frame.sequence = sequence

/-- The producers with the phase of one of them changed. -/
def setPhase (producing : List Producer) (sequence : Int) (phase : ProducerPhase) :
    List Producer :=
  producing.map fun producer =>
    if producer.frame.sequence = sequence then { producer with phase } else producer

/-- The producers without one of them. -/
def removeProducer (producing : List Producer) (sequence : Int) : List Producer :=
  producing.filter fun producer => producer.frame.sequence ≠ sequence

/-- Whether a producer pushes next. -/
def Producer.pushes (producer : Producer) : Bool :=
  if producer.published then producer.phase = .found else producer.phase = .allocated

/-- One action on the run. -/
def runStep (run : ChatRun) : RunAction → Option ChatRun
  | .skip => some { run with nextSequence := run.nextSequence + 1 }
  | .allocate published eventType payloadJson =>
    let frame : ChatRunEventFrame := ⟨run.nextSequence, eventType, payloadJson⟩
    some { run with
      nextSequence := run.nextSequence + 1
      producing := run.producing ++ [⟨frame, published, .allocated⟩]
      allocated := run.allocated ++ [frame] }
  | .find sequence =>
    match run.producer? sequence with
    | some producer =>
      if producer.published ∧ producer.phase = .allocated then
        if run.registered ∧ !run.completed then
          some { run with producing := setPhase run.producing sequence .found }
        else some { run with producing := removeProducer run.producing sequence }
      else none
    | none => none
  | .push sequence =>
    match run.producer? sequence with
    | some producer =>
      if producer.pushes then
        some { run with
          cache := run.cache ++ [producer.frame]
          producing := setPhase run.producing sequence .pushed }
      else none
    | none => none
  | .broadcast sequence =>
    match run.producer? sequence with
    | some producer =>
      if producer.phase = .pushed then
        some { run with
          sent := run.sent ++ [producer.frame]
          producing := removeProducer run.producing sequence }
      else none
    | none => none
  | .complete => some { run with completed := true }
  | .unregister => if run.completed then some { run with registered := false } else none

/-! ## The subscribers -/

/-- Where a subscriber stands. -/
inductive SubscriberPhase where
  /-- The run was looked up. -/
  | found
  /-- The broadcast is received; the cache was not read yet. -/
  | attached
  /-- The replay is out; the completion flag was not read yet. -/
  | replayed
  | waiting
  /-- Told of lost events; the cache was not read again yet. -/
  | lagged
  /-- Told of the completion; the cache was not read for the last time yet. -/
  | terminal
  | ended
  deriving DecidableEq

/-- What a stream yields. -/
inductive StreamItem where
  | event (frame : ChatRunEventFrame)
  | streamEnd
  deriving DecidableEq

/-- A subscription: the sequence it starts behind, how many of the events broadcast so far it has
received or lost, the last sequence it saw, and what it has yielded. -/
structure Subscriber where
  afterSequence : Int
  phase : SubscriberPhase := .found
  position : Nat := 0
  lastSequence : Int
  output : List StreamItem := []

/-- `subscribe`, after the run was found; no sequence means that all events are asked for. -/
def Subscriber.start (afterSequence : Option Int) : Subscriber where
  afterSequence := afterSequence.getD (-1)
  lastSequence := afterSequence.getD (-1)

/-- The actions of a subscriber. -/
inductive StreamAction where
  | attach | replay | check | wake | receive
  | lag (skipped : Nat)
  | recover | finish

/-- The loop over events that yields those above the last sequence. -/
def Subscriber.emit (subscriber : Subscriber) (events : List ChatRunEventFrame) : Subscriber :=
  let (out, last) := catchUp ChatRunEventFrame.sequence subscriber.lastSequence events
  { subscriber with
    lastSequence := last
    output := subscriber.output ++ out.map .event }

/-- `snapshot_after` of the last sequence. -/
def Subscriber.snapshot (subscriber : Subscriber) (run : ChatRun) : List ChatRunEventFrame :=
  run.cache.filter fun frame => subscriber.lastSequence < frame.sequence

/-- One action of a subscriber. -/
def streamStep (run : ChatRun) (subscriber : Subscriber) : StreamAction → Option Subscriber
  | .attach =>
    if subscriber.phase = .found then
      some { subscriber with phase := .attached, position := run.sent.length }
    else none
  | .replay =>
    if subscriber.phase = .attached then
      some { subscriber.emit (subscriber.snapshot run) with phase := .replayed }
    else none
  | .check =>
    if subscriber.phase = .replayed then
      some { subscriber with phase := if run.completed then .terminal else .waiting }
    else none
  | .wake =>
    if subscriber.phase = .waiting ∧ run.completed then
      some { subscriber with phase := .terminal }
    else none
  | .receive =>
    if subscriber.phase = .waiting then
      run.sent[subscriber.position]?.map fun frame =>
        { subscriber.emit [frame] with position := subscriber.position + 1 }
    else none
  | .lag skipped =>
    if subscriber.phase = .waiting ∧ subscriber.position + skipped ≤ run.sent.length then
      some { subscriber with phase := .lagged, position := subscriber.position + skipped }
    else none
  | .recover =>
    if subscriber.phase = .lagged then
      some { subscriber.emit (subscriber.snapshot run) with phase := .waiting }
    else none
  | .finish =>
    if subscriber.phase = .terminal then
      let emitted := subscriber.emit (subscriber.snapshot run)
      some { emitted with phase := .ended, output := emitted.output ++ [.streamEnd] }
    else none

/-! ## The run with its subscribers -/

structure Streams where
  run : ChatRun := {}
  subscribers : List Subscriber := []

inductive Action where
  | run (action : RunAction)
  | subscribe (afterSequence : Option Int)
  | stream (index : Nat) (action : StreamAction)

/-- One action of one party. -/
def step (state : Streams) : Action → Option Streams
  | .run action => (runStep state.run action).map fun run => { state with run }
  | .subscribe afterSequence =>
    if state.run.registered then
      some { state with subscribers := state.subscribers ++ [.start afterSequence] }
    else none
  | .stream index action => do
    let subscriber ← state.subscribers[index]?
    let subscriber ← streamStep state.run subscriber action
    return { state with subscribers := state.subscribers.set index subscriber }

def streamMachine : Machine Streams Action where
  start := {}
  step := step

/-! ## Producers in order -/

/-- Events reach the cache, and then the broadcast, in the order of their sequences; when the run
is completed every event allocated for it is in the cache, and none is allocated later. -/
def inOrder (state : Streams) : Action → Bool
  | .run (.allocate ..) => !state.run.completed
  | .run (.push sequence) => state.run.producing.all fun producer =>
      producer.phase = .pushed || sequence ≤ producer.frame.sequence
  | .run (.broadcast sequence) => state.run.producing.all fun producer =>
      producer.phase ≠ .pushed || sequence ≤ producer.frame.sequence
  | .run .complete => state.run.producing.all fun producer => producer.phase = .pushed
  | _ => true

/-- The cache and the broadcast are in order, and what is missing there is still on its way. -/
structure Orderly (run : ChatRun) : Prop where
  counted : ∀ frame ∈ run.allocated, frame.sequence < run.nextSequence
  known : ∀ producer ∈ run.producing, producer.frame ∈ run.allocated
  apart : run.producing.Pairwise fun first second => first.frame.sequence ≠ second.frame.sequence
  cacheOrdered : run.cache.Pairwise fun first second => first.sequence < second.sequence
  sentOrdered : run.sent.Pairwise fun first second => first.sequence < second.sequence
  sentCached : ∀ frame ∈ run.sent, frame ∈ run.cache
  cacheBefore : ∀ producer ∈ run.producing, producer.phase ≠ .pushed → ∀ frame ∈ run.cache,
    frame.sequence < producer.frame.sequence
  sentBefore : ∀ producer ∈ run.producing, producer.phase = .pushed →
    producer.frame ∈ run.cache ∧ ∀ frame ∈ run.sent, frame.sequence < producer.frame.sequence
  cacheSent : ∀ frame ∈ run.cache, frame ∈ run.sent ∨ ∃ producer ∈ run.producing,
    producer.phase = .pushed ∧ producer.frame = frame
  events : ∀ frame, frame ∈ run.allocated ↔ frame ∈ run.cache ∨ ∃ producer ∈ run.producing,
    producer.phase ≠ .pushed ∧ producer.frame = frame
  finished : run.completed = true → ∀ producer ∈ run.producing, producer.phase = .pushed
  closed : run.registered = false → run.completed = true

variable {run next : ChatRun} {producer : Producer} {sequence : Int} {phase : ProducerPhase}

theorem producer?_eq_some (found : run.producer? sequence = some producer) :
    producer ∈ run.producing ∧ producer.frame.sequence = sequence :=
  ⟨List.mem_of_find?_eq_some found, by simpa using List.find?_some found⟩

theorem Orderly.eq_of_sequence (orderly : Orderly run) {first second : Producer}
    (firstMem : first ∈ run.producing) (secondMem : second ∈ run.producing)
    (same : first.frame.sequence = second.frame.sequence) : first = second :=
  List.inj_on_of_nodup_map (List.pairwise_map.mpr orderly.apart) firstMem secondMem same

/-- The producers after one of them went on: that one, and the others as they were. -/
theorem mem_setPhase (orderly : Orderly run) (mem : producer ∈ run.producing) {other : Producer} :
    other ∈ setPhase run.producing producer.frame.sequence phase ↔
      other = { producer with phase } ∨
        other ∈ run.producing ∧ other.frame.sequence ≠ producer.frame.sequence := by
  rw [setPhase, List.mem_map]
  constructor
  · rintro ⟨old, oldMem, rfl⟩
    by_cases same : old.frame.sequence = producer.frame.sequence
    · rw [if_pos same, orderly.eq_of_sequence oldMem mem same]
      exact .inl rfl
    · rw [if_neg same]
      exact .inr ⟨oldMem, same⟩
  · rintro (rfl | ⟨oldMem, apart⟩)
    · exact ⟨producer, mem, if_pos rfl⟩
    · exact ⟨other, oldMem, if_neg apart⟩

theorem mem_removeProducer {other : Producer} :
    other ∈ removeProducer run.producing sequence ↔
      other ∈ run.producing ∧ other.frame.sequence ≠ sequence := by
  rw [removeProducer, List.mem_filter, decide_eq_true_iff]

theorem apart_setPhase (orderly : Orderly run) :
    (setPhase run.producing sequence phase).Pairwise fun first second =>
      first.frame.sequence ≠ second.frame.sequence := by
  have keeps : ∀ other : Producer, (if other.frame.sequence = sequence then { other with phase }
      else other).frame.sequence = other.frame.sequence := by
    intro other
    split <;> rfl
  refine List.pairwise_map.mpr (orderly.apart.imp fun {first second} apart => ?_)
  rw [keeps, keeps]
  exact apart

theorem orderly_allocate (orderly : Orderly run) (running : run.completed = false)
    {published : Bool} {eventType payloadJson : Text}
    (stepped : runStep run (.allocate published eventType payloadJson) = some next) :
    Orderly next := by
  cases stepped
  have later : ∀ frame ∈ run.cache, frame.sequence < run.nextSequence :=
    fun frame mem => orderly.counted frame ((orderly.events frame).mpr (.inl mem))
  refine { orderly with
    counted := ?_, known := ?_, apart := ?_, cacheBefore := ?_, sentBefore := ?_,
    cacheSent := ?_, events := ?_, finished := ?_ }
  · intro frame mem
    obtain old | new := List.mem_append.mp mem
    · exact (orderly.counted frame old).trans (Int.lt_succ _)
    · rw [List.mem_singleton.mp new]
      exact Int.lt_succ _
  · intro producer mem
    obtain old | new := List.mem_append.mp mem
    · exact List.mem_append_left _ (orderly.known producer old)
    · rw [List.mem_singleton.mp new]
      exact List.mem_append_right _ (List.mem_singleton_self _)
  · refine List.pairwise_append.mpr ⟨orderly.apart, List.pairwise_singleton _ _, ?_⟩
    intro first old second new
    rw [List.mem_singleton.mp new]
    exact ne_of_lt (orderly.counted _ (orderly.known first old))
  · intro producer mem pending
    obtain old | new := List.mem_append.mp mem
    · exact orderly.cacheBefore producer old pending
    · rw [List.mem_singleton.mp new]
      exact later
  · intro producer mem pushed
    obtain old | new := List.mem_append.mp mem
    · exact orderly.sentBefore producer old pushed
    · rw [List.mem_singleton.mp new] at pushed
      cases pushed
  · intro frame mem
    obtain sent | ⟨producer, old, pushed, same⟩ := orderly.cacheSent frame mem
    · exact .inl sent
    · exact .inr ⟨producer, List.mem_append_left _ old, pushed, same⟩
  · intro frame
    rw [List.mem_append, List.mem_singleton, orderly.events]
    constructor
    · rintro ((cached | ⟨producer, old, pending, same⟩) | rfl)
      · exact .inl cached
      · exact .inr ⟨producer, List.mem_append_left _ old, pending, same⟩
      · exact .inr ⟨_, List.mem_append_right _ (List.mem_singleton_self _), nofun, rfl⟩
    · rintro (cached | ⟨producer, mem, pending, same⟩)
      · exact .inl (.inl cached)
      · obtain old | new := List.mem_append.mp mem
        · exact .inl (.inr ⟨producer, old, pending, same⟩)
        · rw [List.mem_singleton.mp new] at same
          exact .inr same.symm
  · intro completed
    rw [running] at completed
    cases completed

theorem orderly_find (orderly : Orderly run) (stepped : runStep run (.find sequence) = some next) :
    Orderly next ∧ next.cache = run.cache ∧ next.sent = run.sent ∧
      next.completed = run.completed := by
  simp only [runStep] at stepped
  split at stepped
  case h_2 => cases stepped
  case h_1 producer found =>
    obtain ⟨mem, rfl⟩ := producer?_eq_some found
    obtain ⟨⟨-, allocated⟩, stepped⟩ := Option.ite_none_right_eq_some.mp stepped
    have running : run.completed = false := by
      by_contra completed
      have pushed := orderly.finished (Bool.of_not_eq_false completed) producer mem
      rw [allocated] at pushed
      cases pushed
    have registered : run.registered = true := by
      by_contra gone
      rw [orderly.closed (Bool.of_not_eq_true gone)] at running
      cases running
    rw [if_pos ⟨registered, by rw [running]; rfl⟩] at stepped
    cases stepped
    refine ⟨{ orderly with
      known := ?_, apart := apart_setPhase orderly, cacheBefore := ?_, sentBefore := ?_,
      cacheSent := ?_, events := ?_, finished := ?_ }, rfl, rfl, rfl⟩
    · intro other otherMem
      obtain rfl | ⟨old, -⟩ := (mem_setPhase orderly mem).mp otherMem
      · exact orderly.known producer mem
      · exact orderly.known other old
    · intro other otherMem pending
      obtain rfl | ⟨old, -⟩ := (mem_setPhase orderly mem).mp otherMem
      · exact orderly.cacheBefore producer mem (by rw [allocated]; nofun)
      · exact orderly.cacheBefore other old pending
    · intro other otherMem pushed
      obtain rfl | ⟨old, -⟩ := (mem_setPhase orderly mem).mp otherMem
      · cases pushed
      · exact orderly.sentBefore other old pushed
    · intro frame cached
      obtain sent | ⟨other, old, pushed, same⟩ := orderly.cacheSent frame cached
      · exact .inl sent
      · refine .inr ⟨other, (mem_setPhase orderly mem).mpr (.inr ⟨old, fun here => ?_⟩), pushed,
          same⟩
        rw [orderly.eq_of_sequence old mem here, allocated] at pushed
        cases pushed
    · intro frame
      rw [orderly.events]
      refine or_congr_right ⟨?_, ?_⟩
      · rintro ⟨other, old, pending, same⟩
        by_cases here : other.frame.sequence = producer.frame.sequence
        · rw [orderly.eq_of_sequence old mem here] at same
          exact ⟨_, (mem_setPhase orderly mem).mpr (.inl rfl), nofun, same⟩
        · exact ⟨other, (mem_setPhase orderly mem).mpr (.inr ⟨old, here⟩), pending, same⟩
      · rintro ⟨other, otherMem, pending, same⟩
        obtain rfl | ⟨old, -⟩ := (mem_setPhase orderly mem).mp otherMem
        · exact ⟨producer, mem, by rw [allocated]; nofun, same⟩
        · exact ⟨other, old, pending, same⟩
    · intro completed
      rw [running] at completed
      cases completed

theorem Producer.not_pushed (pushes : producer.pushes = true) : producer.phase ≠ .pushed := by
  intro pushed
  unfold Producer.pushes at pushes
  rw [pushed] at pushes
  cases published : producer.published <;> simp [published] at pushes

theorem orderly_push (orderly : Orderly run)
    (first : ∀ other ∈ run.producing, other.phase = .pushed ∨ sequence ≤ other.frame.sequence)
    (stepped : runStep run (.push sequence) = some next) :
    Orderly next ∧ next.sent = run.sent ∧ next.completed = run.completed ∧
      run.completed = false ∧ ∃ frame, next.cache = run.cache ++ [frame] ∧
        ∀ other ∈ run.cache, other.sequence < frame.sequence := by
  simp only [runStep] at stepped
  split at stepped
  case h_2 => cases stepped
  case h_1 producer found =>
    obtain ⟨mem, rfl⟩ := producer?_eq_some found
    obtain ⟨pushes, stepped⟩ := Option.ite_none_right_eq_some.mp stepped
    have pending := Producer.not_pushed pushes
    have running : run.completed = false := by
      by_contra completed
      exact pending (orderly.finished (Bool.of_not_eq_false completed) producer mem)
    cases stepped
    have before := orderly.cacheBefore producer mem pending
    refine ⟨{ orderly with
      known := ?_, apart := apart_setPhase orderly, cacheOrdered := ?_, sentCached := ?_,
      cacheBefore := ?_, sentBefore := ?_, cacheSent := ?_, events := ?_, finished := ?_ },
      rfl, rfl, running, producer.frame, rfl, before⟩
    · intro other otherMem
      obtain rfl | ⟨old, -⟩ := (mem_setPhase orderly mem).mp otherMem
      · exact orderly.known producer mem
      · exact orderly.known other old
    · refine List.pairwise_append.mpr ⟨orderly.cacheOrdered, List.pairwise_singleton _ _, ?_⟩
      intro frame cached new isNew
      rw [List.mem_singleton.mp isNew]
      exact before frame cached
    · exact fun frame sent => List.mem_append_left _ (orderly.sentCached frame sent)
    · intro other otherMem otherPending frame cached
      obtain rfl | ⟨old, apart⟩ := (mem_setPhase orderly mem).mp otherMem
      · exact absurd rfl otherPending
      · obtain cached | new := List.mem_append.mp cached
        · exact orderly.cacheBefore other old otherPending frame cached
        · rw [List.mem_singleton.mp new]
          exact lt_of_le_of_ne ((first other old).resolve_left otherPending) apart.symm
    · intro other otherMem pushed
      obtain rfl | ⟨old, -⟩ := (mem_setPhase orderly mem).mp otherMem
      · exact ⟨List.mem_append_right _ (List.mem_singleton_self _),
          fun frame sent => before frame (orderly.sentCached frame sent)⟩
      · obtain ⟨cached, later⟩ := orderly.sentBefore other old pushed
        exact ⟨List.mem_append_left _ cached, later⟩
    · intro frame cached
      obtain cached | new := List.mem_append.mp cached
      · obtain sent | ⟨other, old, pushed, same⟩ := orderly.cacheSent frame cached
        · exact .inl sent
        · refine .inr ⟨other, (mem_setPhase orderly mem).mpr (.inr ⟨old, fun here => ?_⟩), pushed,
            same⟩
          rw [orderly.eq_of_sequence old mem here] at pushed
          exact pending pushed
      · exact .inr ⟨_, (mem_setPhase orderly mem).mpr (.inl rfl), rfl,
          (List.mem_singleton.mp new).symm⟩
    · intro frame
      rw [orderly.events, List.mem_append, List.mem_singleton]
      constructor
      · rintro (cached | ⟨other, old, otherPending, same⟩)
        · exact .inl (.inl cached)
        · by_cases here : other.frame.sequence = producer.frame.sequence
          · rw [orderly.eq_of_sequence old mem here] at same
            exact .inl (.inr same.symm)
          · exact .inr ⟨other, (mem_setPhase orderly mem).mpr (.inr ⟨old, here⟩), otherPending,
              same⟩
      · rintro ((cached | same) | ⟨other, otherMem, otherPending, same⟩)
        · exact .inl cached
        · exact .inr ⟨producer, mem, pending, same.symm⟩
        · obtain rfl | ⟨old, -⟩ := (mem_setPhase orderly mem).mp otherMem
          · exact absurd rfl otherPending
          · exact .inr ⟨other, old, otherPending, same⟩
    · intro completed
      rw [running] at completed
      cases completed

theorem orderly_broadcast (orderly : Orderly run)
    (first : ∀ other ∈ run.producing, other.phase ≠ .pushed ∨ sequence ≤ other.frame.sequence)
    (stepped : runStep run (.broadcast sequence) = some next) :
    Orderly next ∧ next.cache = run.cache ∧ next.completed = run.completed ∧
      ∃ frame, next.sent = run.sent ++ [frame] := by
  simp only [runStep] at stepped
  split at stepped
  case h_2 => cases stepped
  case h_1 producer found =>
    obtain ⟨mem, rfl⟩ := producer?_eq_some found
    obtain ⟨isPushed, stepped⟩ := Option.ite_none_right_eq_some.mp stepped
    cases stepped
    obtain ⟨cached, before⟩ := orderly.sentBefore producer mem isPushed
    refine ⟨{ orderly with
      known := fun other left => orderly.known other (mem_removeProducer.mp left).1
      apart := orderly.apart.sublist List.filter_sublist
      sentOrdered := ?_, sentCached := ?_
      cacheBefore := fun other left => orderly.cacheBefore other (mem_removeProducer.mp left).1
      sentBefore := ?_, cacheSent := ?_, events := ?_
      finished := fun completed other left =>
        orderly.finished completed other (mem_removeProducer.mp left).1 },
      rfl, rfl, producer.frame, rfl⟩
    · refine List.pairwise_append.mpr ⟨orderly.sentOrdered, List.pairwise_singleton _ _, ?_⟩
      intro frame sent new isNew
      rw [List.mem_singleton.mp isNew]
      exact before frame sent
    · intro frame sent
      obtain sent | new := List.mem_append.mp sent
      · exact orderly.sentCached frame sent
      · rw [List.mem_singleton.mp new]
        exact cached
    · intro other left pushed
      obtain ⟨old, apart⟩ := mem_removeProducer.mp left
      refine ⟨(orderly.sentBefore other old pushed).1, fun frame sent => ?_⟩
      obtain sent | new := List.mem_append.mp sent
      · exact (orderly.sentBefore other old pushed).2 frame sent
      · rw [List.mem_singleton.mp new]
        exact lt_of_le_of_ne ((first other old).resolve_left (not_not_intro pushed)) apart.symm
    · intro frame inCache
      obtain sent | ⟨other, old, pushed, same⟩ := orderly.cacheSent frame inCache
      · exact .inl (List.mem_append_left _ sent)
      · by_cases here : other.frame.sequence = producer.frame.sequence
        · rw [orderly.eq_of_sequence old mem here] at same
          exact .inl (List.mem_append_right _ (List.mem_singleton.mpr same.symm))
        · exact .inr ⟨other, mem_removeProducer.mpr ⟨old, here⟩, pushed, same⟩
    · intro frame
      rw [orderly.events]
      refine or_congr_right ⟨?_, ?_⟩
      · rintro ⟨other, old, pending, same⟩
        refine ⟨other, mem_removeProducer.mpr ⟨old, fun here => ?_⟩, pending, same⟩
        rw [orderly.eq_of_sequence old mem here] at pending
        exact pending isPushed
      · rintro ⟨other, left, pending, same⟩
        exact ⟨other, (mem_removeProducer.mp left).1, pending, same⟩

/-- What an action of the run can do to what its subscribers read: the cache and the broadcast may
grow at their ends, the cache not after the completion. -/
structure Grows (run next : ChatRun) : Prop where
  cache : next.cache = run.cache ∨ run.completed = false ∧ ∃ frame,
    next.cache = run.cache ++ [frame] ∧
      ∀ other ∈ run.cache, other.sequence < frame.sequence
  sent : next.sent = run.sent ∨ ∃ frame, next.sent = run.sent ++ [frame]
  completed : run.completed = true → next.completed = true

theorem orderly_run {state : Streams} {action : RunAction} (orderly : Orderly state.run)
    (meets : inOrder state (.run action) = true)
    (stepped : runStep state.run action = some next) : Orderly next ∧ Grows state.run next := by
  cases action with
  | skip =>
    cases stepped
    exact ⟨{ orderly with
      counted := fun frame mem => (orderly.counted frame mem).trans (Int.lt_succ _) },
      .inl rfl, .inl rfl, id⟩
  | allocate published eventType payloadJson =>
    have running : state.run.completed = false := by simpa [inOrder] using meets
    refine ⟨orderly_allocate orderly running stepped, ?_⟩
    cases stepped
    exact ⟨.inl rfl, .inl rfl, id⟩
  | find sequence =>
    obtain ⟨kept, cache, sent, completed⟩ := orderly_find orderly stepped
    exact ⟨kept, .inl cache, .inl sent, completed ▸ id⟩
  | push sequence =>
    have first : ∀ other ∈ state.run.producing,
        other.phase = .pushed ∨ sequence ≤ other.frame.sequence := by
      simpa [inOrder] using meets
    obtain ⟨kept, sent, completed, running, frame, cache, before⟩ :=
      orderly_push orderly first stepped
    exact ⟨kept, .inr ⟨running, frame, cache, before⟩, .inl sent, completed ▸ id⟩
  | broadcast sequence =>
    have first : ∀ other ∈ state.run.producing,
        other.phase ≠ .pushed ∨ sequence ≤ other.frame.sequence := by
      simpa [inOrder] using meets
    obtain ⟨kept, cache, completed, sent⟩ := orderly_broadcast orderly first stepped
    exact ⟨kept, .inl cache, .inr sent, completed ▸ id⟩
  | complete =>
    have pushed : ∀ producer ∈ state.run.producing, producer.phase = .pushed := by
      simpa [inOrder] using meets
    cases stepped
    exact ⟨{ orderly with finished := fun _ => pushed, closed := fun _ => rfl },
      .inl rfl, .inl rfl, fun _ => rfl⟩
  | unregister =>
    obtain ⟨completed, same⟩ := Option.ite_none_right_eq_some.mp stepped
    cases same
    exact ⟨{ orderly with closed := fun _ => completed }, .inl rfl, .inl rfl, id⟩

/-! ## Subscribers follow -/

/-- Whether nothing broadcast before its position is unknown to a subscriber. -/
def SubscriberPhase.Listens : SubscriberPhase → Prop
  | .replayed | .waiting => True
  | .found | .attached | .lagged | .terminal | .ended => False

/-- Whether a subscriber was told of the completion. -/
def SubscriberPhase.Over : SubscriberPhase → Prop
  | .terminal | .ended => True
  | .found | .attached | .replayed | .waiting | .lagged => False

/-- A subscriber has yielded exactly the cached events between where it started and its last
sequence, in order; while it waits it has seen every event broadcast before its position. -/
structure Follows (run : ChatRun) (subscriber : Subscriber) : Prop where
  behind : subscriber.afterSequence ≤ subscriber.lastSequence
  position : subscriber.position ≤ run.sent.length
  caught : ∃ events, subscriber.output = events.map .event ++
      (if subscriber.phase = .ended then [.streamEnd] else []) ∧
    Caught ChatRunEventFrame.sequence subscriber.afterSequence subscriber.lastSequence
      run.cache events
  seen : subscriber.phase.Listens → ∀ frame ∈ run.sent.take subscriber.position,
    frame.sequence ≤ subscriber.lastSequence
  ceased : subscriber.phase.Over → run.completed = true
  whole : subscriber.phase = .ended →
    ∀ frame ∈ run.cache, frame.sequence ≤ subscriber.lastSequence

variable {subscriber : Subscriber}

theorem follows_start (afterSequence : Option Int) : Follows run (.start afterSequence) where
  behind := le_refl _
  position := Nat.zero_le _
  caught := ⟨[], rfl, .start _⟩
  seen := False.elim
  ceased := False.elim
  whole := nofun

theorem follows_grow (follows : Follows run subscriber) (grows : Grows run next) :
    Follows next subscriber := by
  obtain ⟨events, output, caught⟩ := follows.caught
  have sentLength : run.sent.length ≤ next.sent.length ∧
      next.sent.take subscriber.position = run.sent.take subscriber.position := by
    obtain same | ⟨frame, same⟩ := grows.sent
    · rw [same]
      exact ⟨Nat.le_refl _, rfl⟩
    · rw [same, List.take_append_of_le_length follows.position, List.length_append]
      exact ⟨Nat.le_add_right _ _, rfl⟩
  refine ⟨follows.behind, follows.position.trans sentLength.1, ⟨events, output, ?_⟩, ?_,
    fun ceased => grows.completed (follows.ceased ceased), fun ended => ?_⟩
  · obtain same | ⟨-, frame, same, before⟩ := grows.cache
    · exact same ▸ caught
    · exact same ▸ caught.grow before
  · rw [sentLength.2]
    exact follows.seen
  · obtain same | ⟨running, -⟩ := grows.cache
    · exact same ▸ follows.whole ended
    · rw [follows.ceased (by rw [ended]; trivial)] at running
      cases running

/-- What a subscriber that yields from a copy of the cache has yielded then. -/
theorem emit_snapshot (orderly : Orderly run) (follows : Follows run subscriber)
    (going : subscriber.phase ≠ .ended) :
    subscriber.afterSequence ≤ (subscriber.emit (subscriber.snapshot run)).lastSequence ∧
      (∃ events, (subscriber.emit (subscriber.snapshot run)).output = events.map .event ∧
        Caught ChatRunEventFrame.sequence subscriber.afterSequence
          (subscriber.emit (subscriber.snapshot run)).lastSequence run.cache events) ∧
      ∀ frame ∈ run.cache,
        frame.sequence ≤ (subscriber.emit (subscriber.snapshot run)).lastSequence := by
  obtain ⟨events, output, caught⟩ := follows.caught
  rw [if_neg going, List.append_nil] at output
  obtain ⟨later, le, most⟩ := caught.snapshot follows.behind orderly.cacheOrdered
  refine ⟨follows.behind.trans le, ⟨_, ?_, later⟩, most⟩
  rw [List.map_append, ← output]
  rfl

theorem follows_stream {action : StreamAction} {after : Subscriber} (orderly : Orderly run)
    (follows : Follows run subscriber) (stepped : streamStep run subscriber action = some after) :
    Follows run after := by
  have taken : ∀ count, ∀ frame ∈ run.sent.take count, frame ∈ run.cache :=
    fun count frame mem => orderly.sentCached frame (List.mem_of_mem_take mem)
  obtain ⟨events, output, caught⟩ := follows.caught
  cases action with
  | attach =>
    obtain ⟨here, same⟩ := Option.ite_none_right_eq_some.mp stepped
    cases same
    rw [here] at output
    exact ⟨follows.behind, Nat.le_refl _, ⟨events, output, caught⟩, False.elim, False.elim, nofun⟩
  | replay =>
    obtain ⟨here, same⟩ := Option.ite_none_right_eq_some.mp stepped
    cases same
    obtain ⟨behind, ⟨events, output, caught⟩, most⟩ :=
      emit_snapshot orderly follows (by rw [here]; nofun)
    exact ⟨behind, follows.position, ⟨events, output.trans (List.append_nil _).symm, caught⟩,
      fun _ frame mem => most frame (taken _ frame mem), False.elim, nofun⟩
  | check =>
    obtain ⟨here, same⟩ := Option.ite_none_right_eq_some.mp stepped
    cases same
    rw [here] at output
    have seen := follows.seen (by rw [here]; trivial)
    cases completed : run.completed with
    | true =>
      exact ⟨follows.behind, follows.position, ⟨events, output, caught⟩, False.elim,
        fun _ => completed, nofun⟩
    | false =>
      exact ⟨follows.behind, follows.position, ⟨events, output, caught⟩, fun _ => seen,
        False.elim, nofun⟩
  | wake =>
    obtain ⟨⟨here, completed⟩, same⟩ := Option.ite_none_right_eq_some.mp stepped
    cases same
    rw [here] at output
    exact ⟨follows.behind, follows.position, ⟨events, output, caught⟩, False.elim,
      fun _ => completed, nofun⟩
  | receive =>
    obtain ⟨here, same⟩ := Option.ite_none_right_eq_some.mp stepped
    obtain ⟨frame, found, rfl⟩ := Option.map_eq_some_iff.mp same
    obtain ⟨inRange, isFrame⟩ := List.getElem?_eq_some_iff.mp found
    rw [here, if_neg (by nofun), List.append_nil] at output
    have listens : subscriber.phase.Listens := by rw [here]; trivial
    have mem : frame ∈ run.cache := orderly.sentCached frame (isFrame ▸ List.getElem_mem inRange)
    -- whatever comes before the frame was broadcast before it, so it was seen
    have none : ∀ other ∈ run.cache, other.sequence < frame.sequence →
        other.sequence ≤ subscriber.lastSequence := by
      intro other cached less
      obtain sent | ⟨producer, producing, pushed, rfl⟩ := orderly.cacheSent other cached
      · obtain ⟨index, bound, rfl⟩ := List.getElem_of_mem sent
        have early : index < subscriber.position := by
          by_contra late
          obtain same | after := Nat.eq_or_lt_of_le (Nat.le_of_not_lt late)
          · subst same
            rw [isFrame] at less
            exact lt_irrefl _ less
          · have more := List.pairwise_iff_getElem.mp orderly.sentOrdered _ _ inRange bound after
            rw [isFrame] at more
            exact absurd (less.trans more) (lt_irrefl _)
        exact follows.seen listens _
          (List.mem_take_iff_getElem.mpr ⟨index, by omega, rfl⟩)
      · have more := (orderly.sentBefore producer producing pushed).2 frame
          (isFrame ▸ List.getElem_mem inRange)
        exact absurd (less.trans more) (lt_irrefl _)
    have alone : ∀ other ∈ run.cache, other.sequence = frame.sequence → other = frame :=
      fun other cached same => List.inj_on_of_nodup_map
        (List.pairwise_map.mpr (orderly.cacheOrdered.imp ne_of_lt)) cached mem same
    obtain ⟨later, le, most⟩ := caught.event follows.behind mem alone none
    refine ⟨follows.behind.trans le, inRange, ⟨_, ?_, later⟩, ?_, ?_, ?_⟩
    · rw [List.map_append, ← output]
      change _ = _ ++ if subscriber.phase = .ended then _ else _
      rw [here, if_neg (by nofun), List.append_nil]
      rfl
    · intro _ other taken
      rw [List.take_succ, found] at taken
      obtain old | new := List.mem_append.mp taken
      · exact (follows.seen listens other old).trans le
      · rw [List.mem_singleton.mp new]
        exact most
    · change subscriber.phase.Over → _
      rw [here]
      exact False.elim
    · change subscriber.phase = .ended → _
      rw [here]
      nofun
  | lag skipped =>
    obtain ⟨⟨here, bound⟩, same⟩ := Option.ite_none_right_eq_some.mp stepped
    cases same
    rw [here] at output
    exact ⟨follows.behind, bound, ⟨events, output, caught⟩, False.elim, False.elim, nofun⟩
  | recover =>
    obtain ⟨here, same⟩ := Option.ite_none_right_eq_some.mp stepped
    cases same
    obtain ⟨behind, ⟨events, output, caught⟩, most⟩ :=
      emit_snapshot orderly follows (by rw [here]; nofun)
    exact ⟨behind, follows.position, ⟨events, output.trans (List.append_nil _).symm, caught⟩,
      fun _ frame mem => most frame (taken _ frame mem), False.elim, nofun⟩
  | finish =>
    obtain ⟨here, same⟩ := Option.ite_none_right_eq_some.mp stepped
    cases same
    obtain ⟨behind, ⟨events, output, caught⟩, most⟩ :=
      emit_snapshot orderly follows (by rw [here]; nofun)
    have ceased := follows.ceased (by rw [here]; trivial)
    exact ⟨behind, follows.position, ⟨events, congrArg (· ++ [.streamEnd]) output, caught⟩,
      False.elim, fun _ => ceased, fun _ => most⟩

/-! ## Runs -/

/-- The producers are in order and every subscriber follows. -/
def Following (state : Streams) : Prop :=
  Orderly state.run ∧ ∀ subscriber ∈ state.subscribers, Follows state.run subscriber

theorem orderly_start : Orderly {} where
  counted := nofun
  known := nofun
  apart := .nil
  cacheOrdered := .nil
  sentOrdered := .nil
  sentCached := nofun
  cacheBefore := nofun
  sentBefore := nofun
  cacheSent := nofun
  events frame := ⟨nofun, by rintro (cached | ⟨producer, mem, -⟩) <;> contradiction⟩
  finished := nofun
  closed := nofun

theorem following_of_reachable {state : Streams}
    (reached : streamMachine.ReachableWhile (fun s a => inOrder s a = true) state) :
    Following state := by
  refine reached.invariant ⟨orderly_start, nofun⟩ ?_
  intro state action next ⟨orderly, follows⟩ meets stepped
  cases action with
  | run action =>
    obtain ⟨run, ran, rfl⟩ := Option.map_eq_some_iff.mp stepped
    obtain ⟨kept, grows⟩ := orderly_run orderly meets ran
    exact ⟨kept, fun subscriber mem => follows_grow (follows subscriber mem) grows⟩
  | subscribe afterSequence =>
    obtain ⟨-, same⟩ := Option.ite_none_right_eq_some.mp stepped
    cases same
    refine ⟨orderly, fun subscriber mem => ?_⟩
    obtain old | new := List.mem_append.mp mem
    · exact follows subscriber old
    · rw [List.mem_singleton.mp new]
      exact follows_start afterSequence
  | stream index action =>
    obtain ⟨before, found, stepped⟩ := Option.bind_eq_some_iff.mp stepped
    obtain ⟨after, moved, same⟩ := Option.bind_eq_some_iff.mp stepped
    cases same
    refine ⟨orderly, fun subscriber mem => ?_⟩
    obtain old | rfl := List.mem_or_eq_of_mem_set mem
    · exact follows subscriber old
    · exact follows_stream orderly (follows before (List.mem_of_getElem? found)) moved

/-- A subscriber on its own. -/
def streamRun (run : ChatRun) : Subscriber → List StreamAction → Option Subscriber
  | subscriber, [] => some subscriber
  | subscriber, action :: rest =>
    (streamStep run subscriber action).bind fun subscriber => streamRun run subscriber rest

theorem run_stream {state : Streams} {index : Nat} {actions : List StreamAction}
    {final : Subscriber} (found : state.subscribers[index]? = some subscriber)
    (alone : streamRun state.run subscriber actions = some final) :
    streamMachine.run state (actions.map (.stream index)) =
      some { state with subscribers := state.subscribers.set index final } := by
  induction actions generalizing state subscriber with
  | nil =>
    cases alone
    obtain ⟨bound, rfl⟩ := List.getElem?_eq_some_iff.mp found
    simp [Machine.run]
  | cons action rest ih =>
    obtain ⟨after, stepped, alone⟩ := Option.bind_eq_some_iff.mp alone
    have bound := (List.getElem?_eq_some_iff.mp found).1
    have here : ({ state with subscribers := state.subscribers.set index after } : Streams)
        |>.subscribers[index]? = some after := List.getElem?_set_self bound
    have rest := ih here alone
    rw [List.map_cons, Machine.run]
    have first : streamMachine.step state (.stream index action) =
        some { state with subscribers := state.subscribers.set index after } := by
      simp [streamMachine, step, found, stepped]
    rw [first, Option.bind_some, rest]
    simp

/-- What is left to do for a subscriber of a completed run. -/
def lastActions : SubscriberPhase → List StreamAction
  | .found => [.attach, .replay, .check, .finish]
  | .attached => [.replay, .check, .finish]
  | .replayed => [.check, .finish]
  | .waiting => [.wake, .finish]
  | .lagged => [.recover, .wake, .finish]
  | .terminal => [.finish]
  | .ended => []

/-- A subscriber of a completed run ends on its own. -/
theorem streamRun_lastActions (completed : run.completed = true) :
    ∃ final, streamRun run subscriber (lastActions subscriber.phase) = some final ∧
      final.phase = .ended := by
  cases here : subscriber.phase <;>
    simp [lastActions, streamRun, streamStep, Subscriber.emit, here, completed]

/-- In runs whose producers keep the order, a subscriber has at all times yielded events of this
registration behind the sequence it named, in order and once each, and nothing else until it
ends; when it ends it has yielded all of them and then one end. When the run is completed, a
few actions of its own take a subscriber to its end. -/
theorem subscribers_see_every_event : ∀ state,
    streamMachine.ReachableWhile (fun s a => inOrder s a = true) state →
    ∀ index subscriber, state.subscribers[index]? = some subscriber →
      (∃ events : List ChatRunEventFrame, subscriber.output = events.map .event ++
          (if subscriber.phase = .ended then [.streamEnd] else []) ∧
        events.Pairwise (fun first second => first.sequence < second.sequence) ∧
        (∀ frame ∈ events, frame ∈ state.run.allocated ∧
          subscriber.afterSequence < frame.sequence) ∧
        (subscriber.phase = .ended → ∀ frame ∈ state.run.allocated,
          subscriber.afterSequence < frame.sequence → frame ∈ events)) ∧
      (state.run.completed = true → ∃ final, streamMachine.run state
          ((lastActions subscriber.phase).map (.stream index)) = some final ∧
        ∃ ended, final.subscribers[index]? = some ended ∧ ended.phase = .ended) := by
  intro state reached index subscriber found
  obtain ⟨orderly, follows⟩ := following_of_reachable reached
  have follows := follows subscriber (List.mem_of_getElem? found)
  constructor
  · obtain ⟨events, output, caught⟩ := follows.caught
    refine ⟨events, output, caught.ordered, fun frame mem => ?_, fun ended frame mem above => ?_⟩
    · obtain ⟨cached, above, -⟩ := (caught.exact frame).mp mem
      exact ⟨(orderly.events frame).mpr (.inl cached), above⟩
    · have completed := follows.ceased (by rw [ended]; trivial)
      obtain cached | ⟨producer, producing, pending, -⟩ := (orderly.events frame).mp mem
      · exact (caught.exact frame).mpr ⟨cached, above, follows.whole ended frame cached⟩
      · exact absurd (orderly.finished completed producer producing) pending
  · intro completed
    obtain ⟨final, alone, ended⟩ := streamRun_lastActions completed
    exact ⟨_, run_stream found alone, final,
      List.getElem?_set_self (List.getElem?_eq_some_iff.mp found).1, ended⟩

/-- Two events, a lost broadcast, and the completion before the second broadcast. -/
def laggedRun : List Action :=
  [.subscribe none, .stream 0 .attach, .stream 0 .replay, .stream 0 .check,
    .run (.allocate false ['a'] []), .run (.allocate true ['b'] []), .run (.push 0),
    .run (.find 1), .run (.broadcast 0), .stream 0 (.lag 1), .run (.push 1), .stream 0 .recover,
    .run .complete, .run .unregister, .stream 0 .wake, .run (.broadcast 1), .stream 0 .finish]

/-- The rules on that run: the subscriber has yielded both events and the end. -/
theorem laggedRun_yields_both : ∃ state, streamMachine.Reachable state ∧
    state.run.allocated.length = 2 ∧ ∃ subscriber, state.subscribers[0]? = some subscriber ∧
      ∀ frame ∈ state.run.allocated, .event frame ∈ subscriber.output := by
  have run : ((streamMachine.runWhile inOrder {} laggedRun).any fun state =>
      decide (state.run.allocated.length = 2) &&
        decide (∀ frame ∈ state.run.allocated, -1 < frame.sequence) &&
        state.subscribers[0]?.any fun subscriber =>
          decide (subscriber.afterSequence = -1 ∧ subscriber.phase = .ended)) = true := by
    decide
  obtain ⟨state, reaches, seen⟩ := (Option.any_eq_true _ _).mp run
  obtain ⟨counts, ends⟩ := Bool.and_eq_true_iff.mp seen
  obtain ⟨two, above⟩ := Bool.and_eq_true_iff.mp counts
  obtain ⟨subscriber, found, phase⟩ := (Option.any_eq_true _ _).mp ends
  obtain ⟨after, ended⟩ := of_decide_eq_true phase
  have reached := Machine.reachableWhile_of_runWhile .start reaches
  obtain ⟨⟨events, output, -, -, every⟩, -⟩ :=
    subscribers_see_every_event state reached 0 subscriber found
  refine ⟨state, reached.reachable, of_decide_eq_true two, subscriber, found, ?_⟩
  intro frame mem
  rw [output]
  have yielded := every ended frame mem (after ▸ of_decide_eq_true above frame mem)
  exact List.mem_append_left _ (List.mem_map_of_mem yielded)

/-- A projection takes the sequence after that of the producer and is faster. -/
def overtakenRun : List Action :=
  [.subscribe none, .stream 0 .attach, .stream 0 .replay, .stream 0 .check,
    .run (.allocate false ['a'] []), .run (.allocate true ['b'] []), .run (.find 1),
    .run (.push 1), .run (.broadcast 1), .stream 0 .receive, .run (.push 0),
    .run (.broadcast 0), .stream 0 .receive, .run .complete, .stream 0 .wake, .stream 0 .finish]

/-- The subscriber of that run ends without the event that was overtaken. -/
theorem overtaken_event_is_lost : ∃ state, streamMachine.Reachable state ∧
    ∃ subscriber, state.subscribers[0]? = some subscriber ∧ subscriber.phase = .ended ∧
      ∃ frame ∈ state.run.allocated, subscriber.afterSequence < frame.sequence ∧
        .event frame ∉ subscriber.output := by
  have run : ((streamMachine.run {} overtakenRun).any fun state =>
      state.subscribers[0]?.any fun subscriber =>
        decide (subscriber.phase = .ended) && state.run.allocated.any fun frame =>
          decide (subscriber.afterSequence < frame.sequence ∧
            .event frame ∉ subscriber.output)) = true := by decide
  obtain ⟨state, reaches, seen⟩ := (Option.any_eq_true _ _).mp run
  obtain ⟨subscriber, found, seen⟩ := (Option.any_eq_true _ _).mp seen
  obtain ⟨ended, lost⟩ := Bool.and_eq_true_iff.mp seen
  obtain ⟨frame, mem, lost⟩ := List.any_eq_true.mp lost
  exact ⟨state, Machine.reachable_of_run .start reaches, subscriber, found,
    of_decide_eq_true ended, frame, mem, of_decide_eq_true lost⟩

end Foco.ChatRunStreams
