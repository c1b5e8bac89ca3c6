import Foco.RemoteRunStreams

/-!
`remote_sidecar_subscribe_run_stream`: a subscriber attaches to the broadcast, replays the log from
the sequence it asks for, and follows the broadcast until it sees `streamEnd` or finds the run
finished; then, and whenever the broadcast has dropped events it did not take, it reads the log
again. Together with the writers of the stream this is one machine.
-/
namespace Foco.RemoteRunStreams
open Foco.RustText Foco.Runs Foco.Streams

/-! ## Subscribers -/

inductive SubscriberPhase where
  /-- The stream was handed out; nothing is polled yet. -/
  | found
  | subscribed
  | following
  | ended
  deriving DecidableEq

/-- A subscription: the sequence asked for, how many of the events broadcast were taken or lost,
the last sequence sent, and what was sent. -/
structure Subscriber where
  afterSequence : Int
  phase : SubscriberPhase := .found
  position : Nat := 0
  lastSent : Int
  received : List Frame := []

/-- The loop over events that sends those above the last sequence and returns after a terminal
one: what it sends, the last sequence then, and whether it has returned. -/
def deliver : Int → List Frame → List Frame × Int × Bool
  | last, [] => ([], last, false)
  | last, frame :: rest =>
    if frame.sequence ≤ last then deliver last rest
    else if frame.terminal then ([frame], frame.sequence, true)
    else
      let (out, final, terminal) := deliver frame.sequence rest
      (frame :: out, final, terminal)

/-- A subscriber after the loop over some events. -/
def Subscriber.take (frames : List Frame) (subscriber : Subscriber) : Subscriber :=
  let (out, last, terminal) := deliver subscriber.lastSent frames
  { subscriber with
    received := subscriber.received ++ out
    lastSent := last
    phase := if terminal then .ended else subscriber.phase }

/-- The events the broadcast keeps. -/
def broadcastCapacity : Nat := 512

inductive SubscriberAction where
  | subscribe | replay | receive | lag | drain

def subscriberStep (stream : RunStream) (subscriber : Subscriber) :
    SubscriberAction → Option Subscriber
  | .subscribe =>
    if subscriber.phase = .found then
      some { subscriber with phase := .subscribed, position := stream.events.length }
    else none
  | .replay =>
    if subscriber.phase = .subscribed then
      some ({ subscriber with phase := .following }.take
        (stream.snapshotAfter subscriber.afterSequence))
    else none
  | .receive =>
    if subscriber.phase = .following ∧
        stream.events.length - subscriber.position ≤ broadcastCapacity then
      (stream.events[subscriber.position]?).map fun frame =>
        { subscriber with position := subscriber.position + 1 }.take [frame]
    else none
  | .lag =>
    if subscriber.phase = .following ∧
        broadcastCapacity < stream.events.length - subscriber.position then
      some ({ subscriber with position := stream.events.length - broadcastCapacity }.take
        (stream.snapshotAfter subscriber.lastSent))
    else none
  | .drain =>
    if subscriber.phase = .following ∧ stream.finished then
      some { subscriber.take (stream.snapshotAfter subscriber.lastSent) with phase := .ended }
    else none

/-- A run with its subscribers. -/
structure Session where
  stream : RunStream := {}
  subscribers : List Subscriber := []

inductive Action where
  | write (action : WriterAction)
  /-- A request finds the run in the registry; who has started it asks for everything and needs no
  registry. -/
  | attach (afterSequence : Int)
  | subscriber (index : Nat) (action : SubscriberAction)

def step (session : Session) : Action → Option Session
  | .write action => (writerStep session.stream action).map fun stream => { session with stream }
  | .attach afterSequence =>
    if session.stream.registered ∨ afterSequence = -1 then
      some { session with
        subscribers := session.subscribers ++
          [{ afterSequence, lastSent := afterSequence }] }
    else none
  | .subscriber index action =>
    match session.subscribers[index]? with
    | some subscriber =>
      (subscriberStep session.stream subscriber action).map fun subscriber =>
        { session with subscribers := session.subscribers.set index subscriber }
    | none => none

/-- Writers, a cancellation and any number of subscribers, in any order. -/
def remoteRunMachine : Machine Session Action where
  start := {}
  step := step

/-- The writers take turns, and nobody asks for what comes after the end of the stream. -/
def staysInOrder (session : Session) : Action → Bool
  | .write action => takesTurns session.stream action
  | .attach afterSequence =>
    afterSequence ≤ session.stream.lastSequence ∧
      (session.stream.events.any Frame.terminal → afterSequence < session.stream.lastSequence)
  | .subscriber .. => true

/-! ## What a subscriber has seen -/

/-- A subscriber of an orderly stream. -/
structure Follows (stream : RunStream) (subscriber : Subscriber) : Prop where
  begun : (stream.events.any Frame.terminal = false →
      subscriber.afterSequence ≤ stream.lastSequence) ∧
    ∀ frame ∈ stream.events, frame.terminal = true → subscriber.afterSequence < frame.sequence
  early : subscriber.phase = .found ∨ subscriber.phase = .subscribed →
    subscriber.lastSent = subscriber.afterSequence
  position : subscriber.position ≤ stream.events.length
  caught : Caught Frame.sequence subscriber.afterSequence subscriber.lastSent stream.events
    subscriber.received
  behind : subscriber.afterSequence ≤ subscriber.lastSent
  passed : subscriber.phase = .following →
    ∀ frame ∈ stream.events.take subscriber.position, frame.sequence ≤ subscriber.lastSent
  ended : subscriber.phase = .ended →
    (∀ frame ∈ stream.events, frame.sequence ≤ subscriber.lastSent) ∧
      (stream.events.any Frame.terminal = true ∨ stream.finished = true)

/-- Where only the last event may be terminal, the loop sees all it is given. -/
theorem deliver_eq_catchUp {last : Int} {frames : List Frame}
    (final : frames.Pairwise fun first _ => first.terminal = false) :
    deliver last frames = ((catchUp Frame.sequence last frames).1,
      (catchUp Frame.sequence last frames).2,
      (catchUp Frame.sequence last frames).1.any Frame.terminal) := by
  induction frames generalizing last with
  | nil => rfl
  | cons frame rest ih =>
    obtain ⟨first, tail⟩ := List.pairwise_cons.mp final
    rw [deliver, catchUp]
    by_cases seen : frame.sequence ≤ last
    · rw [if_pos seen, if_neg (not_lt_of_ge seen), ih tail]
    · rw [if_neg seen, if_pos (lt_of_not_ge seen)]
      by_cases ends : frame.terminal = true
      · have none : rest = [] := by
          cases rest with
          | nil => rfl
          | cons other _ =>
            rw [first other List.mem_cons_self] at ends
            cases ends
        subst none
        simp [ends, catchUp]
      · rw [if_neg ends, ih tail]
        simp [ends]

section Following
variable {stream stream' : RunStream} {subscriber subscriber' : Subscriber}

theorem Orderly.increasing (orderly : Orderly stream) :
    stream.events.Pairwise fun first second => first.sequence < second.sequence :=
  orderly.ordered.imp And.left

theorem Orderly.final (orderly : Orderly stream) :
    stream.events.Pairwise fun first _ => first.terminal = false :=
  orderly.ordered.imp And.right

theorem take_eq {frames : List Frame} (final : frames.Pairwise fun first _ => first.terminal = false)
    (subscriber : Subscriber) :
    subscriber.take frames = { subscriber with
      received := subscriber.received ++ (catchUp Frame.sequence subscriber.lastSent frames).1
      lastSent := (catchUp Frame.sequence subscriber.lastSent frames).2
      phase := if (catchUp Frame.sequence subscriber.lastSent frames).1.any Frame.terminal then
        .ended else subscriber.phase } := by
  rw [Subscriber.take, deliver_eq_catchUp final]

/-- What reading the log does to a subscriber. -/
theorem take_snapshot (subscriber : Subscriber) (orderly : Orderly stream)
    (caught : Caught Frame.sequence subscriber.afterSequence subscriber.lastSent stream.events
      subscriber.received) (behind : subscriber.afterSequence ≤ subscriber.lastSent) :
    ∃ received last phase, subscriber.take (stream.snapshotAfter subscriber.lastSent) =
        { subscriber with received, lastSent := last, phase } ∧
      Caught Frame.sequence subscriber.afterSequence last stream.events received ∧
      subscriber.lastSent ≤ last ∧ (∀ frame ∈ stream.events, frame.sequence ≤ last) ∧
      (phase = subscriber.phase ∨
        phase = .ended ∧ stream.events.any Frame.terminal = true) := by
  have final := orderly.final.sublist
    (List.filter_sublist (p := fun frame => subscriber.lastSent < frame.sequence))
  obtain ⟨reads, raised, all⟩ := caught.snapshot behind orderly.increasing
  refine ⟨_, _, _, take_eq final subscriber, reads, raised, all, ?_⟩
  split
  · next ends =>
    obtain ⟨frame, mem, terminal⟩ := List.any_eq_true.mp ends
    have logged := ((reads.exact frame).mp (List.mem_append_right _ mem)).1
    exact .inr ⟨rfl, List.any_eq_true.mpr ⟨frame, logged, terminal⟩⟩
  · exact .inl rfl

/-- A subscriber does not notice what the writers do, but for an event behind all others. -/
theorem follows_grow (grows : Grows stream stream') (orderly : Orderly stream)
    (follows : Follows stream subscriber) : Follows stream' subscriber := by
  obtain ⟨same, stays⟩ | ⟨frame, events, above, terminal, natural, pending⟩ := grows
  · have last : stream'.lastSequence = stream.lastSequence := by
      rw [RunStream.lastSequence, RunStream.lastSequence, same]
    exact
      { begun := by rw [same, last]; exact follows.begun
        early := follows.early
        position := by rw [same]; exact follows.position
        caught := by rw [same]; exact follows.caught
        behind := follows.behind
        passed := by rw [same]; exact follows.passed
        ended := fun ended => by
          rw [same]
          exact ⟨(follows.ended ended).1, (follows.ended ended).2.imp id stays⟩ }
  · have unclosed : stream.events.any Frame.terminal = false := by
      rw [List.any_eq_false]
      exact fun other mem ends => by
        rw [(above other mem).2] at ends
        cases ends
    have asked := follows.begun.1 unclosed
    have last : stream'.lastSequence = frame.sequence := by
      rw [RunStream.lastSequence, events, List.getLast?_append_of_ne_nil _ (List.cons_ne_nil _ _),
        List.getLast?_singleton]
    have raised : stream.lastSequence ≤ frame.sequence := by
      by_cases spoken : stream.events = []
      · rw [RunStream.lastSequence, spoken]
        exact natural
      · obtain ⟨other, mem, same⟩ := lastSequence_mem spoken
        rw [← same]
        exact Int.le_of_lt (above other mem).1
    refine ⟨⟨fun _ => ?_, fun other mem ends => ?_⟩, follows.early, ?_, ?_, follows.behind,
      fun phase => ?_, fun ended => ?_⟩
    · rw [last]
      exact asked.trans raised
    · rw [events] at mem
      obtain old | new := List.mem_append.mp mem
      · exact follows.begun.2 other old ends
      · obtain rfl := List.mem_singleton.mp new
        exact lt_of_le_of_lt asked (terminal ends)
    · rw [events, List.length_append]
      exact follows.position.trans (Nat.le_add_right _ _)
    · rw [events]
      exact follows.caught.grow fun other mem => (above other mem).1
    · rw [events, List.take_append_of_le_length follows.position]
      exact follows.passed phase
    · obtain closed | finished := (follows.ended ended).2
      · rw [unclosed] at closed
        cases closed
      · rw [pending] at finished
        cases finished

/-- A step of a subscriber. -/
theorem follows_step (orderly : Orderly stream) (follows : Follows stream subscriber)
    {action : SubscriberAction}
    (stepped : subscriberStep stream subscriber action = some subscriber') :
    Follows stream subscriber' := by
  cases action with
  | subscribe =>
    obtain ⟨found, same⟩ := Option.ite_none_right_eq_some.mp stepped
    cases same
    exact { follows with
      early := fun _ => follows.early (.inl found)
      position := Nat.le_refl _
      passed := nofun
      ended := nofun }
  | replay =>
    obtain ⟨subscribed, same⟩ := Option.ite_none_right_eq_some.mp stepped
    have early := follows.early (.inr subscribed)
    obtain ⟨received, last, phase, taken, reads, raised, all, moved⟩ :=
      take_snapshot { subscriber with phase := .following } orderly
        follows.caught follows.behind
    have asked : stream.snapshotAfter subscriber.afterSequence =
        stream.snapshotAfter subscriber.lastSent := by rw [early]
    rw [asked, taken, Option.some.injEq] at same
    subst same
    refine ⟨follows.begun, fun first => ?_, follows.position, reads, follows.behind.trans raised,
      fun _ frame mem => all frame (List.mem_of_mem_take mem), fun ended => ⟨all, ?_⟩⟩
    · obtain rfl | ⟨rfl, -⟩ := moved <;> exact first.elim nofun nofun
    · obtain rfl | ⟨-, closed⟩ := moved
      · cases ended
      · exact .inl closed
  | receive =>
    obtain ⟨⟨following, -⟩, same⟩ := Option.ite_none_right_eq_some.mp stepped
    obtain ⟨frame, here, same⟩ := Option.map_eq_some_iff.mp same
    obtain ⟨within, rfl⟩ := List.getElem?_eq_some_iff.mp here
    have mem : stream.events[subscriber.position] ∈ stream.events := List.getElem_mem within
    have split : stream.events = stream.events.take subscriber.position ++
        stream.events[subscriber.position] :: stream.events.drop (subscriber.position + 1) := by
      rw [← List.drop_eq_getElem_cons within, List.take_append_drop]
    have increasing := orderly.increasing
    rw [split] at increasing
    obtain ⟨-, rest, before⟩ := List.pairwise_append.mp increasing
    have after := (List.pairwise_cons.mp rest).1
    have passed := follows.passed following
    have alone : ∀ other ∈ stream.events,
        other.sequence = stream.events[subscriber.position].sequence →
          other = stream.events[subscriber.position] := fun other otherMem equal => by
      rw [split] at otherMem
      obtain old | new := List.mem_append.mp otherMem
      · exact absurd equal (ne_of_lt (before other old _ List.mem_cons_self))
      · obtain same | behind := List.mem_cons.mp new
        · exact same
        · exact absurd equal (ne_of_gt (after other behind))
    have none : ∀ other ∈ stream.events,
        other.sequence < stream.events[subscriber.position].sequence →
          other.sequence ≤ subscriber.lastSent := fun other otherMem less => by
      rw [split] at otherMem
      obtain old | new := List.mem_append.mp otherMem
      · exact passed other old
      · obtain same | behind := List.mem_cons.mp new
        · exact absurd (same ▸ less) (lt_irrefl _)
        · exact absurd (less.trans (after other behind)) (lt_irrefl _)
    obtain ⟨reads, raised, reached⟩ := follows.caught.event follows.behind mem alone none
    rw [take_eq (List.pairwise_singleton _ _)] at same
    subst same
    refine ⟨follows.begun, fun first => ?_, within, reads, follows.behind.trans raised,
      fun _ other otherMem => ?_, fun ended => ?_⟩
    · dsimp only at first
      rw [following] at first
      split at first <;> exact first.elim nofun nofun
    · rw [List.take_succ_eq_append_getElem within] at otherMem
      obtain old | new := List.mem_append.mp otherMem
      · exact (passed other old).trans raised
      · rw [List.mem_singleton.mp new]
        exact reached
    · dsimp only at ended
      split at ended
      · next ends =>
        obtain ⟨last, lastMem, terminal⟩ := List.any_eq_true.mp ends
        obtain ⟨logged, -, least⟩ := (reads.exact last).mp (List.mem_append_right _ lastMem)
        refine ⟨fun other otherMem => ?_, .inl (List.any_eq_true.mpr ⟨last, logged, terminal⟩)⟩
        -- A terminal event is the last one.
        obtain ⟨front, back, whole⟩ := List.append_of_mem logged
        have ordered := orderly.ordered
        rw [whole] at ordered otherMem
        obtain ⟨-, rest, front_lt⟩ := List.pairwise_append.mp ordered
        obtain inFront | inBack := List.mem_append.mp otherMem
        · exact (Int.le_of_lt (front_lt other inFront last List.mem_cons_self).1).trans least
        · obtain rfl | behind := List.mem_cons.mp inBack
          · exact least
          · rw [((List.pairwise_cons.mp rest).1 other behind).2] at terminal
            cases terminal
      · rw [following] at ended
        cases ended
  | lag =>
    obtain ⟨⟨following, -⟩, same⟩ := Option.ite_none_right_eq_some.mp stepped
    obtain ⟨received, last, phase, taken, reads, raised, all, moved⟩ :=
      take_snapshot
        { subscriber with position := stream.events.length - broadcastCapacity } orderly
        follows.caught follows.behind
    rw [taken, Option.some.injEq] at same
    subst same
    refine ⟨follows.begun, fun first => ?_, Nat.sub_le _ _, reads, follows.behind.trans raised,
      fun _ frame mem => all frame (List.mem_of_mem_take mem), fun ended => ⟨all, ?_⟩⟩
    · obtain rfl | ⟨rfl, -⟩ := moved
      · rw [following] at first
        exact first.elim nofun nofun
      · exact first.elim nofun nofun
    · obtain rfl | ⟨-, closed⟩ := moved
      · rw [following] at ended
        cases ended
      · exact .inl closed
  | drain =>
    obtain ⟨⟨-, finished⟩, same⟩ := Option.ite_none_right_eq_some.mp stepped
    obtain ⟨received, last, phase, taken, reads, raised, all, -⟩ :=
      take_snapshot subscriber orderly follows.caught follows.behind
    rw [taken, Option.some.injEq] at same
    subst same
    exact ⟨follows.begun, fun first => first.elim nofun nofun, follows.position, reads,
      follows.behind.trans raised, nofun, fun _ => ⟨all, .inr finished⟩⟩

theorem follows_attach (orderly : Orderly stream) {afterSequence : Int}
    (low : afterSequence ≤ stream.lastSequence)
    (beforeEnd : stream.events.any Frame.terminal = true → afterSequence < stream.lastSequence) :
    Follows stream { afterSequence, lastSent := afterSequence } := by
  refine ⟨⟨fun _ => low, fun frame mem ends => ?_⟩, fun _ => rfl, Nat.zero_le _, .start _,
    Int.le_refl _, nofun, nofun⟩
  have below := beforeEnd (List.any_eq_true.mpr ⟨frame, mem, ends⟩)
  obtain ⟨last, lastMem, same⟩ := lastSequence_mem (List.ne_nil_of_mem mem)
  -- Nothing comes after a terminal event, so it is the last one.
  have most : stream.lastSequence ≤ frame.sequence := by
    obtain ⟨front, back, whole⟩ := List.append_of_mem mem
    have final := orderly.final
    have increasing := orderly.increasing
    rw [whole] at final increasing lastMem
    rw [← same]
    obtain inFront | inBack := List.mem_append.mp lastMem
    · exact Int.le_of_lt ((List.pairwise_append.mp increasing).2.2 last inFront frame
        List.mem_cons_self)
    · obtain rfl | behind := List.mem_cons.mp inBack
      · exact Int.le_refl _
      · have rest := (List.pairwise_append.mp final).2.1
        rw [(List.pairwise_cons.mp rest).1 last behind] at ends
        cases ends
  exact lt_of_lt_of_le below most

end Following

/-! ## What a run promises its subscribers -/

/-- The runner has gone through its terminal events, or a cancellation through its own steps. -/
def RunStream.CompletedOrCancelled (stream : RunStream) : Prop :=
  stream.runner = .stopped true ∨
    ∃ cancellation, stream.cancellation = some cancellation ∧ cancellation.phase = .finished

/-- One sequence for one event, every event for every subscriber, and one end for all. -/
structure Delivers (session : Session) : Prop where
  increasing : session.stream.events.Pairwise fun first second => first.sequence < second.sequence
  closes : ∀ front frame back, session.stream.events = front ++ frame :: back →
    frame.terminal = true → back = []
  delivered : ∀ subscriber ∈ session.subscribers,
    subscriber.received ++ session.stream.snapshotAfter subscriber.lastSent =
      session.stream.snapshotAfter subscriber.afterSequence
  complete : ∀ subscriber ∈ session.subscribers, subscriber.phase = .ended →
    subscriber.received = session.stream.snapshotAfter subscriber.afterSequence
  ends : session.stream.CompletedOrCancelled → session.stream.finished = true ∧
    ∀ subscriber ∈ session.subscribers,
      (subscriber.phase = .ended → subscriber.received.countP Frame.terminal = 1) ∧
      (subscriber.phase = .following → ∃ subscriber',
        subscriberStep session.stream subscriber .drain = some subscriber' ∧
          subscriber'.received.countP Frame.terminal = 1)

theorem follows_of_reachable {session : Session}
    (reached : remoteRunMachine.ReachableWhile (fun s a => staysInOrder s a = true) session) :
    Orderly session.stream ∧ ∀ subscriber ∈ session.subscribers,
      Follows session.stream subscriber := by
  have keep : ∀ (session : Session) action session',
      (Orderly session.stream ∧ ∀ subscriber ∈ session.subscribers,
        Follows session.stream subscriber) →
      staysInOrder session action = true → step session action = some session' →
      Orderly session'.stream ∧ ∀ subscriber ∈ session'.subscribers,
        Follows session'.stream subscriber := by
    intro session action session' ⟨orderly, follows⟩ inOrder stepped
    cases action with
    | write action =>
      obtain ⟨stream, written, rfl⟩ := Option.map_eq_some_iff.mp stepped
      obtain ⟨orderly', grows⟩ := orderly_writerStep orderly inOrder written
      exact ⟨orderly', fun subscriber mem =>
        follows_grow grows orderly (follows subscriber mem)⟩
    | attach afterSequence =>
      obtain ⟨-, same⟩ := Option.ite_none_right_eq_some.mp stepped
      cases same
      refine ⟨orderly, fun subscriber mem => ?_⟩
      obtain old | new := List.mem_append.mp mem
      · exact follows subscriber old
      · rw [List.mem_singleton.mp new]
        obtain ⟨low, beforeEnd⟩ := of_decide_eq_true inOrder
        exact follows_attach orderly low beforeEnd
    | subscriber index action =>
      simp only [step] at stepped
      split at stepped
      · next subscriber here =>
        obtain ⟨subscriber', moved, rfl⟩ := Option.map_eq_some_iff.mp stepped
        refine ⟨orderly, fun other mem => ?_⟩
        obtain old | rfl := List.mem_or_eq_of_mem_set mem
        · exact follows other old
        · exact follows_step orderly (follows subscriber (List.mem_of_getElem? here)) moved
      · cases stepped
  exact reached.invariant ⟨orderly_start, nofun⟩ keep

section Promises
variable {stream : RunStream} {subscriber : Subscriber}

private theorem countP_terminal {events : List Frame}
    (final : events.Pairwise fun first _ => first.terminal = false)
    (ends : ∃ frame ∈ events, frame.terminal = true) : events.countP Frame.terminal = 1 := by
  induction events with
  | nil =>
    obtain ⟨_, mem, _⟩ := ends
    cases mem
  | cons first rest ih =>
    obtain ⟨before, tail⟩ := List.pairwise_cons.mp final
    by_cases terminal : first.terminal = true
    · have none : rest = [] := by
        cases rest with
        | nil => rfl
        | cons other _ =>
          rw [before other List.mem_cons_self] at terminal
          cases terminal
      rw [none, List.countP_cons_of_pos terminal, List.countP_nil]
    · rw [List.countP_cons_of_neg terminal]
      obtain ⟨frame, mem, here⟩ := ends
      obtain rfl | mem := List.mem_cons.mp mem
      · exact absurd here terminal
      · exact ih tail ⟨frame, mem, here⟩

theorem Orderly.ended (orderly : Orderly stream) (ceased : stream.CompletedOrCancelled) :
    stream.finished = true ∧ stream.closed = true := by
  rw [orderly.finished]
  obtain stopped | ⟨cancellation, cancelled, finished⟩ := ceased
  · have free := orderly.free_of_ending (by rw [stopped]; exact ⟨nofun, nofun, nofun⟩)
    simp only [RunStream.ceased, RunStream.closed, free, stopped, and_self]
  · simp only [RunStream.ceased, RunStream.closed, cancelled, finished, decide_true, and_self]

/-- A snapshot for a subscriber of a closed stream has its one end. -/
theorem Follows.one_end (follows : Follows stream subscriber) (orderly : Orderly stream)
    (closed : stream.closed = true) :
    (stream.snapshotAfter subscriber.afterSequence).countP Frame.terminal = 1 := by
  refine countP_terminal (orderly.final.sublist List.filter_sublist) ?_
  obtain ⟨frame, mem, ends⟩ := orderly.terminal.mpr closed
  exact ⟨frame, List.mem_filter.mpr ⟨mem, decide_eq_true (follows.begun.2 frame mem ends)⟩, ends⟩

theorem Follows.complete (follows : Follows stream subscriber) (orderly : Orderly stream)
    (all : ∀ frame ∈ stream.events, frame.sequence ≤ subscriber.lastSent) :
    subscriber.received = stream.snapshotAfter subscriber.afterSequence := by
  have whole := follows.caught.append_rest follows.behind orderly.increasing
  have nothing : stream.events.filter (fun frame => subscriber.lastSent < frame.sequence) = [] :=
    List.filter_eq_nil_iff.mpr fun frame mem => by simpa using all frame mem
  rw [nothing, List.append_nil] at whole
  exact whole

end Promises

/-- When the writers take turns, every subscriber gets the events it asked for in order, and the
end once. -/
theorem delivers_of_staysInOrder {session : Session}
    (reached : remoteRunMachine.ReachableWhile (fun s a => staysInOrder s a = true) session) :
    Delivers session := by
  obtain ⟨orderly, follows⟩ := follows_of_reachable reached
  refine ⟨orderly.increasing, fun front frame back split ends => ?_, fun subscriber mem => ?_,
    fun subscriber mem ended => ?_, fun ceased => ?_⟩
  · have final := orderly.final
    rw [split] at final
    cases back with
    | nil => rfl
    | cons other _ =>
      have rest := (List.pairwise_append.mp final).2.1
      rw [(List.pairwise_cons.mp rest).1 other List.mem_cons_self] at ends
      cases ends
  · exact (follows subscriber mem).caught.append_rest (follows subscriber mem).behind
      orderly.increasing
  · exact (follows subscriber mem).complete orderly ((follows subscriber mem).ended ended).1
  · obtain ⟨finished, closed⟩ := orderly.ended ceased
    refine ⟨finished, fun subscriber mem => ⟨fun ended => ?_, fun following => ?_⟩⟩
    · rw [(follows subscriber mem).complete orderly ((follows subscriber mem).ended ended).1]
      exact (follows subscriber mem).one_end orderly closed
    · have drains : subscriberStep session.stream subscriber .drain =
          some { subscriber.take (session.stream.snapshotAfter subscriber.lastSent) with
            phase := .ended } := by
        rw [subscriberStep, if_pos ⟨following, finished⟩]
      have drained := follows_step orderly (follows subscriber mem) drains
      refine ⟨_, drains, ?_⟩
      rw [drained.complete orderly (drained.ended rfl).1]
      exact drained.one_end orderly closed

section Runs

/-- A start event, and a cancellation with all its steps. -/
private def cancelledRun : List Action :=
  [.write (.emit [] []), .attach (-1), .subscriber 0 .subscribe, .subscriber 0 .replay,
    .write (.cancelDeactivate true), .write .cancelRequest, .write .cancelCount,
    .write .cancelError, .write .cancelEnd, .write .cancelFinish]

/-- A runner that goes on after the cancellation reuses a sequence, behind the end. -/
theorem delivers_not_always : ¬ ∀ session, remoteRunMachine.Reachable session →
    Delivers session := by
  intro always
  have sequences : (remoteRunMachine.run {} (cancelledRun ++ [Action.write (.emit [] [])])).any
      (fun session => session.stream.events.map Frame.sequence == [0, 1, 2, 1]) = true := by
    decide
  obtain ⟨session, run, same⟩ := (Option.any_eq_true _ _).mp sequences
  have increasing := (always session (Machine.reachable_of_run .start run)).increasing
  rw [← List.pairwise_map (R := fun first second => first < second), beq_iff_eq.mp same] at increasing
  exact absurd increasing (by decide)

/-- A subscriber of a cancelled run whose runner gives up reads the end. -/
theorem delivers_of_staysInOrder_cancelled : ∃ session, Delivers session ∧
    session.subscribers.map (fun subscriber => subscriber.received.length) = [3] := by
  have ends : (remoteRunMachine.runWhile staysInOrder {}
      (cancelledRun ++ [Action.write .quit, .subscriber 0 .drain])).any (fun session =>
      session.subscribers.map (fun subscriber => subscriber.received.length) == [3]) = true := by
    decide
  obtain ⟨session, run, same⟩ := (Option.any_eq_true _ _).mp ends
  exact ⟨session,
    delivers_of_staysInOrder (Machine.reachableWhile_of_runWhile .start run), beq_iff_eq.mp same⟩

end Runs

end Foco.RemoteRunStreams
