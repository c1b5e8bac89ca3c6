import Mathlib.Data.Int.Order.Basic
import Foco.OrderedStreams
import Foco.RustText
import Foco.Runs

/-!
`app/remote_workspace.rs`, the event stream of a chat run in the sidecar. Three parties write to
it, each with its own idea of the next sequence: the runner counts for itself, the projection of
delegated Agent tasks takes what the database allocated, and a cancellation reads the last sequence
and counts on from there. Recording an event puts it into the log and into the broadcast at once;
the broadcast keeps 512 events for each subscriber.
-/
namespace Foco.RemoteRunStreams
open Foco.RustText Foco.Runs Foco.Streams

/-! ## Events -/

/-- The payload of an event, as far as the stream tells payloads apart. -/
inductive RunEvent where
  /-- Start, connecting, deltas, tool calls and whatever else the runner shows on the way. -/
  | message (eventType payloadJson : Text)
  | complete (text : Text)
  | error (message : Text)
  | agentTaskLifecycle (eventId : Text)
  | streamEnd
  deriving DecidableEq

structure Frame where
  sequence : Int
  event : RunEvent

/-- `remote_stream_event_is_terminal`. -/
def Frame.terminal (frame : Frame) : Bool := frame.event = .streamEnd

/-! ## The writers -/

/-- Where the background runner stands. A completed or refused turn takes the run out of the
registry before its terminal events (`early`), the other failures after them. -/
inductive RunnerPhase where
  | running
  /-- The last look at the cancellation before the durable writes of a finished turn. -/
  | settled
  | deactivated
  /-- The completion or the error is recorded; `streamEnd` comes next. -/
  | concluded (early : Bool)
  /-- `streamEnd` is recorded; `mark_finished` or `remote_sidecar_finish_active_run` comes next. -/
  | closing (early : Bool)
  | stopped (completed : Bool)
  deriving DecidableEq

/-- Where `remote_sidecar_cancel_active_run_inner` stands. -/
inductive CancelPhase where
  | deactivated
  | requested
  | counted (sequence : Int)
  | errored (sequence : Int)
  | ended
  | finished
  deriving DecidableEq

structure Cancellation where
  emitEvents : Bool
  phase : CancelPhase

/-- A lifecycle event on its way into the stream, with its sequence once the database has it. -/
structure Projection where
  eventId : Text
  sequence : Option Int
  deriving DecidableEq

/-- `RemoteActiveRunStream` with the writers of one run, whether the registry has the run, and the
rows of `run_events` by event id and sequence. -/
structure RunStream where
  events : List Frame := []
  finished : Bool := false
  cancelRequested : Bool := false
  registered : Bool := true
  /-- The counter of the runner: the sequence it used last. -/
  sequence : Int := -1
  runner : RunnerPhase := .running
  cancellation : Option Cancellation := none
  projections : List Projection := []
  runEvents : List (Option Text × Int) := []

namespace RunStream

/-- `record`. -/
def record (sequence : Int) (event : RunEvent) (stream : RunStream) : RunStream :=
  { stream with events := stream.events ++ [⟨sequence, event⟩] }

/-- `last_sequence`. -/
def lastSequence (stream : RunStream) : Int :=
  match stream.events.getLast? with
  | some frame => frame.sequence
  | none => 0

/-- `try_snapshot_after`. -/
def snapshotAfter (sequence : Int) (stream : RunStream) : List Frame :=
  stream.events.filter fun frame => sequence < frame.sequence

/-- The runner records an event under its next sequence. -/
def runnerRecord (event : RunEvent) (stream : RunStream) : RunStream :=
  { stream.record (stream.sequence + 1) event with sequence := stream.sequence + 1 }

/-- `remote_sidecar_finish_active_run`: only who takes the run out of the registry marks it. -/
def finishActiveRun (stream : RunStream) : RunStream :=
  if stream.registered then { stream with registered := false, finished := true } else stream

/-- `COALESCE(MAX(sequence) + 1, 0)`. -/
def nextRunEvent (stream : RunStream) : Int :=
  match (stream.runEvents.map Prod.snd).max? with
  | some sequence => sequence + 1
  | none => 0

end RunStream

inductive WriterAction where
  /-- The runner shows an event on the way. -/
  | emit (eventType payloadJson : Text)
  /-- The runner inserts a row into `run_events`, which a row of the same sequence refuses. -/
  | store (sequence : Int)
  /-- Neither a cancellation nor the end of the run is seen; durable writes follow. -/
  | settle
  | deactivate
  /-- The terminal payload of a turn that is completed or refused by the broker. -/
  | conclude (event : RunEvent)
  /-- The terminal error of any other failure. -/
  | fail (message : Text)
  | streamEnd
  | finish
  /-- The runner gives up without terminal events: a cancellation is seen or the turn is lost. -/
  | quit
  | cancelDeactivate (emitEvents : Bool)
  | cancelRequest
  | cancelCount
  | cancelError
  | cancelEnd
  | cancelFinish
  | projectFind (eventId : Text)
  /-- `append_run_event_if_absent`. -/
  | projectAppend (eventId : Text)
  | projectRecord (eventId : Text)

/-- The terminal payloads a turn ends with. -/
def RunEvent.concludes : RunEvent → Bool
  | .complete _ | .error _ => true
  | .message .. | .agentTaskLifecycle _ | .streamEnd => false

/-- The projection of a lifecycle event that is on its way. -/
def RunStream.projection? (stream : RunStream) (eventId : Text) : Option Projection :=
  stream.projections.find? fun projection => projection.eventId = eventId

/-- The actions of the runner. -/
def runnerStep (stream : RunStream) : WriterAction → Option RunStream
  | .emit eventType payloadJson =>
    if stream.runner = .running then
      some (stream.runnerRecord (.message eventType payloadJson))
    else none
  | .store sequence =>
    if sequence ∈ stream.runEvents.map Prod.snd then some stream
    else some { stream with runEvents := stream.runEvents ++ [(none, sequence)] }
  | .settle =>
    if stream.runner = .running ∧ !stream.cancelRequested ∧ !stream.finished then
      some { stream with runner := .settled }
    else none
  | .deactivate =>
    if stream.runner = .settled then
      some { stream with registered := false, runner := .deactivated }
    else none
  | .conclude event =>
    if stream.runner = .deactivated ∧ event.concludes then
      some { stream.runnerRecord event with runner := .concluded true }
    else none
  | .fail message =>
    if stream.runner = .running then
      some { stream.runnerRecord (.error message) with runner := .concluded false }
    else none
  | .streamEnd =>
    match stream.runner with
    | .concluded early => some { stream.runnerRecord .streamEnd with runner := .closing early }
    | _ => none
  | .finish =>
    match stream.runner with
    | .closing true => some { stream with finished := true, runner := .stopped true }
    | .closing false => some { stream.finishActiveRun with runner := .stopped true }
    | _ => none
  | .quit =>
    if stream.runner = .running ∨ stream.runner = .settled then
      some { stream.finishActiveRun with runner := .stopped false }
    else none
  | _ => none

/-- The actions of a cancellation. Whoever comes after it finds no registration and returns. -/
def cancelStep (stream : RunStream) : WriterAction → Option RunStream
  | .cancelDeactivate emitEvents =>
    if stream.registered then
      some { stream with registered := false, cancellation := some ⟨emitEvents, .deactivated⟩ }
    else none
  | .cancelRequest =>
    match stream.cancellation with
    | some ⟨emitEvents, .deactivated⟩ =>
      some { stream with cancelRequested := true, cancellation := some ⟨emitEvents, .requested⟩ }
    | _ => none
  | .cancelCount =>
    match stream.cancellation with
    | some ⟨true, .requested⟩ =>
      some { stream with cancellation := some ⟨true, .counted stream.lastSequence⟩ }
    | _ => none
  | .cancelError =>
    match stream.cancellation with
    | some ⟨emitEvents, .counted sequence⟩ =>
      some { stream.record (sequence + 1) (.error "remote run was cancelled".toList) with
        cancellation := some ⟨emitEvents, .errored sequence⟩ }
    | _ => none
  | .cancelEnd =>
    match stream.cancellation with
    | some ⟨emitEvents, .errored sequence⟩ =>
      some { stream.record (sequence + 2) .streamEnd with
        cancellation := some ⟨emitEvents, .ended⟩ }
    | _ => none
  | .cancelFinish =>
    match stream.cancellation with
    | some ⟨true, .ended⟩ =>
      some { stream with finished := true, cancellation := some ⟨true, .finished⟩ }
    | some ⟨false, .requested⟩ =>
      some { stream with finished := true, cancellation := some ⟨false, .finished⟩ }
    | _ => none
  | _ => none

/-- The actions of `project_remote_sidecar_terminal_agent_task_lifecycle` that reach the stream:
it is found in the registry, the database allocates, and the event is recorded. -/
def projectStep (stream : RunStream) : WriterAction → Option RunStream
  | .projectFind eventId =>
    if stream.registered then
      some { stream with projections := ⟨eventId, none⟩ :: stream.projections }
    else none
  | .projectAppend eventId =>
    match stream.projection? eventId with
    | some ⟨_, none⟩ =>
      let others := stream.projections.erase ⟨eventId, none⟩
      if some eventId ∈ stream.runEvents.map Prod.fst then
        some { stream with projections := others }
      else
        some { stream with
          projections := ⟨eventId, some stream.nextRunEvent⟩ :: others
          runEvents := stream.runEvents ++ [(some eventId, stream.nextRunEvent)] }
    | _ => none
  | .projectRecord eventId =>
    match stream.projection? eventId with
    | some ⟨_, some sequence⟩ =>
      some { stream.record sequence (.agentTaskLifecycle eventId) with
        projections := stream.projections.erase ⟨eventId, some sequence⟩ }
    | _ => none
  | _ => none

/-- One action of any writer. -/
def writerStep (stream : RunStream) (action : WriterAction) : Option RunStream :=
  ((runnerStep stream action).or (cancelStep stream action)).or (projectStep stream action)

/-! ## Writers that take turns -/

/-- Whether a cancellation has read the last sequence. -/
def Cancellation.hasCounted (cancellation : Cancellation) : Bool :=
  match cancellation.phase with
  | .deactivated | .requested => false
  | .counted _ | .errored _ | .ended | .finished => true

/-- Whether the runner is past its terminal error and still in the registry. -/
def RunnerPhase.endsLate : RunnerPhase → Bool
  | .concluded false | .closing false => true
  | _ => false

/-- No lifecycle event goes into the stream, a cancellation emits its events and does not start
once the runner has shown a terminal error, and a runner that a cancellation has taken out of the
registry shows no terminal event, and no event at all once the last sequence was read. -/
def takesTurns (stream : RunStream) : WriterAction → Bool
  | .emit .. => stream.cancellation.all fun cancellation => !cancellation.hasCounted
  | .deactivate | .fail _ => stream.cancellation.isNone
  | .cancelDeactivate emitEvents => emitEvents && !stream.runner.endsLate
  | .projectRecord _ => false
  | _ => true

/-- Whether the runner still stands in the registry, if no cancellation has taken it out. -/
def RunnerPhase.stays : RunnerPhase → Bool
  | .running | .settled | .concluded false | .closing false => true
  | .deactivated | .concluded true | .closing true | .stopped _ => false

/-- Whether the writer of the terminal events has recorded `streamEnd`. -/
def RunStream.closed (stream : RunStream) : Bool :=
  match stream.cancellation with
  | none => match stream.runner with
    | .closing _ | .stopped true => true
    | _ => false
  | some cancellation => match cancellation.phase with
    | .ended | .finished => true
    | _ => false

/-- Whether the flag that ends the subscriptions is due. -/
def RunStream.ceased (stream : RunStream) : Bool :=
  match stream.cancellation with
  | none => match stream.runner with
    | .stopped _ => true
    | _ => false
  | some cancellation => cancellation.phase = .finished

/-- The highest sequence that may have been recorded, by whose turn it is. -/
def RunStream.bound (stream : RunStream) : Int :=
  match stream.cancellation with
  | some ⟨_, .counted sequence⟩ => sequence
  | some ⟨_, .errored sequence⟩ => sequence + 1
  | _ => stream.sequence

/-- What writers that take turns keep up. -/
structure Orderly (stream : RunStream) : Prop where
  ordered : stream.events.Pairwise fun first second =>
    first.sequence < second.sequence ∧ first.terminal = false
  bounded : stream.closed = false → ∀ frame ∈ stream.events, frame.sequence ≤ stream.bound
  terminal : (∃ frame ∈ stream.events, frame.terminal = true) ↔ stream.closed = true
  /-- Something was recorded before `streamEnd` is due. -/
  spoken : (∃ early, stream.runner = .concluded early) ∨
    (∃ sequence, stream.cancellation = some ⟨true, .errored sequence⟩) → stream.events ≠ []
  natural : (-1 ≤ stream.sequence ∧ ∀ frame ∈ stream.events, 0 ≤ frame.sequence) ∧
    ∀ emitEvents sequence, stream.cancellation = some ⟨emitEvents, .counted sequence⟩ ∨
      stream.cancellation = some ⟨emitEvents, .errored sequence⟩ → 0 ≤ sequence
  registered : stream.cancellation = none → stream.registered = stream.runner.stays
  cancelled : ∀ cancellation, stream.cancellation = some cancellation →
    cancellation.emitEvents = true ∧ stream.registered = false ∧
      (stream.runner = .running ∨ stream.runner = .settled ∨ stream.runner = .stopped false)
  finished : stream.finished = stream.ceased

/-- What a step of writers that take turns does to the log: nothing, or one more event above all
others, while the stream is neither closed nor finished. -/
def Grows (stream stream' : RunStream) : Prop :=
  stream'.events = stream.events ∧ (stream.finished = true → stream'.finished = true) ∨
    ∃ frame, stream'.events = stream.events ++ [frame] ∧
      (∀ other ∈ stream.events, other.sequence < frame.sequence ∧ other.terminal = false) ∧
      (frame.terminal = true → stream.lastSequence < frame.sequence) ∧
      0 ≤ frame.sequence ∧ stream.finished = false

section Turns
variable {stream stream' : RunStream}

/-- In an ordered log the last sequence is the highest. -/
theorem Orderly.le_lastSequence (orderly : Orderly stream) :
    ∀ frame ∈ stream.events, frame.sequence ≤ stream.lastSequence := by
  intro frame mem
  have ordered := orderly.ordered
  rw [RunStream.lastSequence]
  obtain none | ⟨front, last, split⟩ := List.eq_nil_or_concat stream.events
  · rw [none] at mem
    cases mem
  · rw [List.concat_eq_append] at split
    rw [split] at mem ordered ⊢
    rw [List.getLast?_append_of_ne_nil _ (List.cons_ne_nil _ _), List.getLast?_singleton]
    obtain inFront | isLast := List.mem_append.mp mem
    · exact Int.le_of_lt ((List.pairwise_append.mp ordered).2.2 frame inFront last
        List.mem_cons_self).1
    · rw [List.mem_singleton.mp isLast]

theorem lastSequence_mem (spoken : stream.events ≠ []) :
    ∃ frame ∈ stream.events, frame.sequence = stream.lastSequence := by
  rw [RunStream.lastSequence, List.getLast?_eq_some_getLast spoken]
  exact ⟨_, List.getLast_mem spoken, rfl⟩

theorem Orderly.lastSequence_nonneg (orderly : Orderly stream) : 0 ≤ stream.lastSequence := by
  by_cases spoken : stream.events = []
  · rw [RunStream.lastSequence, spoken]
    exact Int.le_refl 0
  · obtain ⟨frame, mem, same⟩ := lastSequence_mem spoken
    rw [← same]
    exact orderly.natural.1.2 frame mem

/-- The part of the bookkeeping that a step leaves alone or carries over, whatever it records. -/
structure Settled (stream : RunStream) : Prop where
  spoken : (∃ early, stream.runner = .concluded early) ∨
    (∃ sequence, stream.cancellation = some ⟨true, .errored sequence⟩) → stream.events ≠ []
  counter : -1 ≤ stream.sequence
  counts : ∀ emitEvents sequence, stream.cancellation = some ⟨emitEvents, .counted sequence⟩ ∨
    stream.cancellation = some ⟨emitEvents, .errored sequence⟩ → 0 ≤ sequence
  registered : stream.cancellation = none → stream.registered = stream.runner.stays
  cancelled : ∀ cancellation, stream.cancellation = some cancellation →
    cancellation.emitEvents = true ∧ stream.registered = false ∧
      (stream.runner = .running ∨ stream.runner = .settled ∨ stream.runner = .stopped false)
  finished : stream.finished = stream.ceased

/-- A step that records nothing. -/
theorem orderly_silent (orderly : Orderly stream) (same : stream'.events = stream.events)
    (closed : stream'.closed = stream.closed)
    (bound : stream.closed = false → stream.bound ≤ stream'.bound ∨
      ∀ frame ∈ stream.events, frame.sequence ≤ stream'.bound)
    (settled : Settled stream') (stays : stream.finished = true → stream'.finished = true) :
    Orderly stream' ∧ Grows stream stream' := by
  refine ⟨⟨?_, fun isOpen frame mem => ?_, ?_, settled.spoken, ⟨⟨settled.counter, ?_⟩,
    settled.counts⟩, settled.registered, settled.cancelled, settled.finished⟩, .inl ⟨same, stays⟩⟩
  · rw [same]
    exact orderly.ordered
  · rw [closed] at isOpen
    rw [same] at mem
    obtain raised | below := bound isOpen
    · exact (orderly.bounded isOpen frame mem).trans raised
    · exact below frame mem
  · rw [same, closed]
    exact orderly.terminal
  · rw [same]
    exact orderly.natural.1.2

/-- A step that records an event above the bound. -/
theorem orderly_record (orderly : Orderly stream) (frame : Frame)
    (isOpen : stream.closed = false) (pending : stream.ceased = false)
    (events : stream'.events = stream.events ++ [frame])
    (above : stream.bound < frame.sequence) (natural : 0 ≤ frame.sequence)
    (speaks : frame.terminal = true → stream.events ≠ [])
    (bound : stream'.closed = false → stream'.bound = frame.sequence)
    (closed : stream'.closed = frame.terminal) (settled : Settled stream') :
    Orderly stream' ∧ Grows stream stream' := by
  have silent : ∀ other ∈ stream.events, other.terminal = false := fun other mem => by
    rw [← Bool.not_eq_true]
    intro ends
    have closes := orderly.terminal.mp ⟨other, mem, ends⟩
    rw [isOpen] at closes
    cases closes
  have below : ∀ other ∈ stream.events, other.sequence < frame.sequence := fun other mem =>
    lt_of_le_of_lt (orderly.bounded isOpen other mem) above
  refine ⟨⟨?_, fun open' other mem => ?_, ?_, settled.spoken, ⟨⟨settled.counter, fun other mem => ?_⟩,
    settled.counts⟩, settled.registered, settled.cancelled, settled.finished⟩,
    .inr ⟨frame, events, fun other mem => ⟨below other mem, silent other mem⟩, fun ends => ?_,
      natural, orderly.finished.trans pending⟩⟩
  · rw [events]
    refine List.pairwise_append.mpr ⟨orderly.ordered, List.pairwise_singleton _ _,
      fun first old second new => ?_⟩
    rw [List.mem_singleton.mp new]
    exact ⟨below first old, silent first old⟩
  · rw [events] at mem
    rw [bound open']
    obtain old | new := List.mem_append.mp mem
    · exact Int.le_of_lt (below other old)
    · rw [List.mem_singleton.mp new]
  · rw [events, closed]
    constructor
    · rintro ⟨other, mem, ends⟩
      obtain old | new := List.mem_append.mp mem
      · rw [silent other old] at ends
        cases ends
      · rwa [← List.mem_singleton.mp new]
    · exact fun ends => ⟨frame, List.mem_append_right _ (List.mem_singleton_self _), ends⟩
  · rw [events] at mem
    obtain old | new := List.mem_append.mp mem
    · exact orderly.natural.1.2 other old
    · rwa [List.mem_singleton.mp new]
  · obtain ⟨last, mem, same⟩ := lastSequence_mem (speaks ends)
    rw [← same]
    exact below last mem

theorem Orderly.settled (orderly : Orderly stream) : Settled stream :=
  ⟨orderly.spoken, orderly.natural.1.1, orderly.natural.2, orderly.registered, orderly.cancelled,
    orderly.finished⟩

end Turns

/-! ## Every step of writers that take turns -/

section Steps
variable {stream stream' : RunStream}

/-- What a running runner may rely on while no cancellation has counted. -/
theorem Orderly.open_of_running (orderly : Orderly stream)
    (uncounted : stream.cancellation.all (fun cancellation => !cancellation.hasCounted) = true)
    (running : stream.runner = .running ∨ stream.runner = .settled) :
    stream.closed = false ∧ stream.ceased = false ∧ stream.bound = stream.sequence := by
  rw [RunStream.closed, RunStream.ceased, RunStream.bound]
  cases cancelled : stream.cancellation with
  | none =>
    obtain running | running := running <;>
      · rw [running]
        exact ⟨rfl, rfl, rfl⟩
  | some cancellation =>
    obtain ⟨emitEvents, phase⟩ := cancellation
    rw [cancelled] at uncounted
    cases phase with
    | deactivated => exact ⟨rfl, rfl, rfl⟩
    | requested => exact ⟨rfl, rfl, rfl⟩
    | _ => exact absurd uncounted (by simp [Cancellation.hasCounted])

theorem orderly_emit (orderly : Orderly stream) {eventType payloadJson : Text}
    (inTurn : takesTurns stream (.emit eventType payloadJson) = true)
    (running : stream.runner = .running) :
    Orderly (stream.runnerRecord (.message eventType payloadJson)) ∧
      Grows stream (stream.runnerRecord (.message eventType payloadJson)) := by
  obtain ⟨isOpen, pending, bound⟩ := orderly.open_of_running inTurn (.inl running)
  have settled := orderly.settled
  refine orderly_record orderly ⟨stream.sequence + 1, .message eventType payloadJson⟩
    isOpen pending rfl (by rw [bound]; exact Int.lt_succ _)
    (by have low := orderly.natural.1.1; change 0 ≤ stream.sequence + 1; omega) nofun
    (fun _ => ?_) isOpen
    { settled with
      spoken := fun _ => List.append_ne_nil_of_right_ne_nil _ (List.cons_ne_nil _ _)
      counter := by have low := orderly.natural.1.1; change -1 ≤ stream.sequence + 1; omega }
  change RunStream.bound { stream with sequence := _, events := _ } = stream.sequence + 1
  rw [RunStream.bound] at bound ⊢
  cases cancelled : stream.cancellation with
  | none => rfl
  | some cancellation =>
    obtain ⟨emitEvents, phase⟩ := cancellation
    rw [takesTurns, cancelled] at inTurn
    cases phase with
    | deactivated => rfl
    | requested => rfl
    | _ => exact absurd inTurn (by simp [Cancellation.hasCounted])

/-- A terminal event of the runner, while no cancellation has begun. -/
theorem orderly_runner_terminal (orderly : Orderly stream) (event : RunEvent)
    {runner : RunnerPhase} (free : stream.cancellation = none) (isOpen : stream.closed = false)
    (pending : stream.ceased = false) (stays : runner.stays = stream.runner.stays)
    (closed : RunStream.closed { stream with runner } = decide (event = .streamEnd))
    (ceased : RunStream.ceased { stream with runner } = false)
    (speaks : event = .streamEnd → stream.events ≠ []) :
    Orderly { stream.runnerRecord event with runner } ∧
      Grows stream { stream.runnerRecord event with runner } := by
  have bound : ∀ sequence, RunStream.bound { stream with sequence } = sequence := fun sequence => by
    simp only [RunStream.bound, free]
  have low := orderly.natural.1.1
  refine orderly_record orderly ⟨stream.sequence + 1, event⟩ isOpen pending rfl ?_ ?_
    (fun ends => speaks (of_decide_eq_true ends)) (fun _ => ?_) closed ⟨?_, ?_, ?_, ?_, ?_, ?_⟩
  · change stream.bound < stream.sequence + 1
    rw [RunStream.bound, free]
    exact Int.lt_succ _
  · change 0 ≤ stream.sequence + 1
    omega
  · simp only [RunStream.bound, RunStream.runnerRecord, RunStream.record, free]
  · exact fun _ => List.append_ne_nil_of_right_ne_nil _ (List.cons_ne_nil _ _)
  · change -1 ≤ stream.sequence + 1
    omega
  · exact orderly.natural.2
  · exact fun _ => (orderly.registered free).trans stays.symm
  · exact fun cancellation given => absurd (free.symm.trans given) nofun
  · exact (orderly.finished.trans pending).trans ceased.symm

/-- A runner in one of its last phases has no cancellation beside it. -/
theorem Orderly.free_of_ending (orderly : Orderly stream)
    (ending : stream.runner ≠ .running ∧ stream.runner ≠ .settled ∧
      stream.runner ≠ .stopped false) : stream.cancellation = none := by
  cases cancelled : stream.cancellation with
  | none => rfl
  | some cancellation =>
    obtain ⟨-, -, running | settled | stopped⟩ := orderly.cancelled _ cancelled
    · exact absurd running ending.1
    · exact absurd settled ending.2.1
    · exact absurd stopped ending.2.2

theorem orderly_runnerStep (orderly : Orderly stream) {action : WriterAction}
    (inTurn : takesTurns stream action = true) (stepped : runnerStep stream action = some stream') :
    Orderly stream' ∧ Grows stream stream' := by
  have settled := orderly.settled
  cases action with
  | emit eventType payloadJson =>
    obtain ⟨running, same⟩ := Option.ite_none_right_eq_some.mp stepped
    cases same
    exact orderly_emit orderly inTurn running
  | store sequence =>
    rw [runnerStep] at stepped
    split at stepped <;> cases stepped
    · exact ⟨orderly, .inl ⟨rfl, id⟩⟩
    · exact orderly_silent orderly rfl rfl (fun _ => .inl (Int.le_refl _)) { settled with } id
  | settle =>
    obtain ⟨⟨running, -, -⟩, same⟩ := Option.ite_none_right_eq_some.mp stepped
    cases same
    refine orderly_silent orderly rfl ?_ (fun _ => .inl (Int.le_refl _)) { settled with
      spoken := fun due => settled.spoken (due.imp (fun ⟨_, same⟩ => nomatch same) id)
      registered := fun free => (settled.registered free).trans (by rw [running]; rfl)
      cancelled := fun cancellation given =>
        have before := settled.cancelled cancellation given
        ⟨before.1, before.2.1, .inr (.inl rfl)⟩
      finished := ?_ } id
    · simp only [RunStream.closed, running]
    · refine settled.finished.trans ?_
      simp only [RunStream.ceased, running]
  | deactivate =>
    obtain ⟨before, same⟩ := Option.ite_none_right_eq_some.mp stepped
    cases same
    have free : stream.cancellation = none := Option.isNone_iff_eq_none.mp inTurn
    refine orderly_silent orderly rfl ?_ (fun _ => .inl (Int.le_refl _)) { settled with
      spoken := fun due => settled.spoken (due.imp (fun ⟨_, same⟩ => nomatch same) id)
      registered := fun _ => rfl
      cancelled := fun cancellation given => absurd (free.symm.trans given) nofun
      finished := ?_ } id
    · simp only [RunStream.closed, free, before]
    · refine settled.finished.trans ?_
      simp only [RunStream.ceased, free, before]
  | conclude event =>
    obtain ⟨⟨before, concludes⟩, same⟩ := Option.ite_none_right_eq_some.mp stepped
    cases same
    have free := orderly.free_of_ending (by rw [before]; exact ⟨nofun, nofun, nofun⟩)
    have other : event ≠ .streamEnd := by
      rintro rfl
      cases concludes
    refine orderly_runner_terminal orderly event free ?_ ?_ (by rw [before]; rfl) ?_ ?_
      (fun same => absurd same other)
    · simp only [RunStream.closed, free, before]
    · simp only [RunStream.ceased, free, before]
    · simp only [RunStream.closed, free, other, decide_false]
    · simp only [RunStream.ceased, free]
  | fail message =>
    obtain ⟨before, same⟩ := Option.ite_none_right_eq_some.mp stepped
    cases same
    have free : stream.cancellation = none := Option.isNone_iff_eq_none.mp inTurn
    refine orderly_runner_terminal orderly _ free ?_ ?_ (by rw [before]; rfl) ?_ ?_ nofun
    · simp only [RunStream.closed, free, before]
    · simp only [RunStream.ceased, free, before]
    · simp only [RunStream.closed, free, reduceCtorEq, decide_false]
    · simp only [RunStream.ceased, free]
  | streamEnd =>
    rw [runnerStep] at stepped
    split at stepped
    · next early before =>
      cases stepped
      have free := orderly.free_of_ending (by rw [before]; exact ⟨nofun, nofun, nofun⟩)
      refine orderly_runner_terminal orderly .streamEnd free ?_ ?_ (by rw [before]; cases early <;> rfl)
        ?_ ?_ fun _ => settled.spoken (.inl ⟨early, before⟩)
      · simp only [RunStream.closed, free, before]
      · simp only [RunStream.ceased, free, before]
      · simp only [RunStream.closed, free, decide_true]
      · simp only [RunStream.ceased, free]
    · cases stepped
  | finish =>
    rw [runnerStep] at stepped
    split at stepped
    · next before =>
      cases stepped
      have free := orderly.free_of_ending (by rw [before]; exact ⟨nofun, nofun, nofun⟩)
      refine orderly_silent orderly rfl ?_ (fun _ => .inl (Int.le_refl _)) { settled with
        spoken := fun due => settled.spoken (due.imp (fun ⟨_, same⟩ => nomatch same) id)
        registered := fun _ => (settled.registered free).trans (by rw [before]; rfl)
        cancelled := fun cancellation given => absurd (free.symm.trans given) nofun
        finished := ?_ } (fun _ => rfl)
      · simp only [RunStream.closed, free, before]
      · simp only [RunStream.ceased, free]
    · next before =>
      cases stepped
      have free := orderly.free_of_ending (by rw [before]; exact ⟨nofun, nofun, nofun⟩)
      have registered : stream.registered = true := (settled.registered free).trans (by rw [before]; rfl)
      rw [RunStream.finishActiveRun, if_pos registered]
      refine orderly_silent orderly rfl ?_ (fun _ => .inl (Int.le_refl _)) { settled with
        spoken := fun due => settled.spoken (due.imp (fun ⟨_, same⟩ => nomatch same) id)
        registered := fun _ => rfl
        cancelled := fun cancellation given => absurd (free.symm.trans given) nofun
        finished := ?_ } (fun _ => rfl)
      · simp only [RunStream.closed, free, before]
      · simp only [RunStream.ceased, free]
    · cases stepped
  | quit =>
    obtain ⟨before, same⟩ := Option.ite_none_right_eq_some.mp stepped
    cases same
    rw [RunStream.finishActiveRun]
    obtain cancelled | ⟨cancellation, cancelled⟩ := Option.eq_none_or_eq_some stream.cancellation
    · have registered : stream.registered = true := by
        rw [settled.registered cancelled]
        obtain before | before := before <;> rw [before] <;> rfl
      rw [if_pos registered]
      refine orderly_silent orderly rfl ?_ (fun _ => .inl (Int.le_refl _)) { settled with
        spoken := fun due => settled.spoken (due.imp (fun ⟨_, same⟩ => nomatch same) id)
        registered := fun _ => rfl
        cancelled := fun cancellation given => absurd (cancelled.symm.trans given) nofun
        finished := ?_ } (fun _ => rfl)
      · obtain before | before := before <;> simp only [RunStream.closed, cancelled, before]
      · simp only [RunStream.ceased, cancelled]
    · obtain ⟨emits, gone, -⟩ := settled.cancelled _ cancelled
      rw [if_neg (by rw [gone]; exact Bool.false_ne_true)]
      refine orderly_silent orderly rfl ?_ (fun _ => .inl (Int.le_refl _)) { settled with
        spoken := fun due => settled.spoken (due.imp (fun ⟨_, same⟩ => nomatch same) id)
        registered := fun free => absurd (cancelled.symm.trans free) nofun
        cancelled := fun other given => by
          have before := settled.cancelled other given
          exact ⟨before.1, before.2.1, .inr (.inr rfl)⟩
        finished := ?_ } id
      · simp only [RunStream.closed, cancelled]
      · refine settled.finished.trans ?_
        simp only [RunStream.ceased, cancelled]
  | _ => cases stepped

theorem orderly_cancelStep (orderly : Orderly stream) {action : WriterAction}
    (inTurn : takesTurns stream action = true) (stepped : cancelStep stream action = some stream') :
    Orderly stream' ∧ Grows stream stream' := by
  have settled := orderly.settled
  cases action with
  | cancelDeactivate emitEvents =>
    obtain ⟨registered, same⟩ := Option.ite_none_right_eq_some.mp stepped
    cases same
    obtain ⟨emits, early⟩ := Bool.and_eq_true_iff.mp inTurn
    have free : stream.cancellation = none := by
      cases cancelled : stream.cancellation with
      | none => rfl
      | some cancellation =>
        have gone := (settled.cancelled _ cancelled).2.1
        rw [registered] at gone
        cases gone
    have runs : stream.runner = .running ∨ stream.runner = .settled := by
      have stays := (settled.registered free).symm.trans registered
      cases runner : stream.runner with
      | running => exact .inl rfl
      | settled => exact .inr rfl
      | deactivated | stopped =>
        rw [runner] at stays
        cases stays
      | concluded early' | closing early' =>
        rw [runner] at stays early
        cases early'
        · cases early
        · cases stays
    refine orderly_silent orderly rfl ?_ (fun _ => .inl (Int.le_of_eq ?_)) { settled with
      spoken := fun due => settled.spoken (due.imp id fun ⟨_, same⟩ => nomatch same)
      counts := fun _ _ given => given.elim nofun nofun
      registered := nofun
      cancelled := ?_
      finished := ?_ } id
    · obtain runs | runs := runs <;> simp only [RunStream.closed, free, runs]
    · simp only [RunStream.bound, free]
    · rintro _ ⟨⟩
      exact ⟨emits, rfl, runs.imp id .inl⟩
    · refine settled.finished.trans ?_
      obtain runs | runs := runs <;> simp only [RunStream.ceased, free, runs] <;> rfl
  | cancelRequest =>
    rw [cancelStep] at stepped
    split at stepped
    · next emitEvents cancelled =>
      cases stepped
      have before := settled.cancelled _ cancelled
      refine orderly_silent orderly rfl ?_ (fun _ => .inl (Int.le_of_eq ?_)) { settled with
        spoken := fun due => settled.spoken (due.imp id fun ⟨_, same⟩ => nomatch same)
        counts := fun _ _ given => given.elim nofun nofun
        registered := nofun
        cancelled := ?_
        finished := ?_ } id
      · simp only [RunStream.closed, cancelled]
      · simp only [RunStream.bound, cancelled]
      · rintro _ ⟨⟩
        exact before
      · refine settled.finished.trans ?_
        simp only [RunStream.ceased, cancelled]
        rfl
    · cases stepped
  | cancelCount =>
    rw [cancelStep] at stepped
    split at stepped
    · next cancelled =>
      cases stepped
      have before := settled.cancelled _ cancelled
      refine orderly_silent orderly rfl ?_ (fun _ => .inr orderly.le_lastSequence) { settled with
        spoken := fun due => settled.spoken (due.imp id fun ⟨_, same⟩ => nomatch same)
        counts := ?_
        registered := nofun
        cancelled := ?_
        finished := ?_ } id
      · simp only [RunStream.closed, cancelled]
      · rintro _ _ (⟨⟨⟩⟩ | ⟨⟨⟩⟩)
        exact orderly.lastSequence_nonneg
      · rintro _ ⟨⟩
        exact before
      · refine settled.finished.trans ?_
        simp only [RunStream.ceased, cancelled]
        rfl
    · cases stepped
  | cancelError =>
    rw [cancelStep] at stepped
    split at stepped
    · next emitEvents sequence cancelled =>
      cases stepped
      have before := settled.cancelled _ cancelled
      have natural := settled.counts _ _ (.inl cancelled)
      refine orderly_record orderly
        ⟨sequence + 1, .error "remote run was cancelled".toList⟩ ?_ ?_ rfl ?_ ?_ nofun
        (fun _ => rfl) rfl ⟨?_, settled.counter, ?_, nofun, ?_, ?_⟩
      · simp only [RunStream.closed, cancelled]
      · simp only [RunStream.ceased, cancelled]
        rfl
      · rw [RunStream.bound, cancelled]
        exact Int.lt_succ _
      · change 0 ≤ sequence + 1
        omega
      · exact fun _ => List.append_ne_nil_of_right_ne_nil _ (List.cons_ne_nil _ _)
      · rintro _ _ (⟨⟨⟩⟩ | ⟨⟨⟩⟩)
        exact natural
      · rintro _ ⟨⟩
        exact before
      · refine settled.finished.trans ?_
        simp only [RunStream.ceased, cancelled]
        rfl
    · cases stepped
  | cancelEnd =>
    rw [cancelStep] at stepped
    split at stepped
    · next emitEvents sequence cancelled =>
      cases stepped
      have before := settled.cancelled _ cancelled
      obtain rfl : emitEvents = true := before.1
      have natural := settled.counts _ _ (.inr cancelled)
      refine orderly_record orderly ⟨sequence + 2, .streamEnd⟩ ?_ ?_ rfl ?_ ?_
        (fun _ => settled.spoken (.inr ⟨sequence, cancelled⟩)) nofun rfl
        ⟨?_, settled.counter, ?_, nofun, ?_, ?_⟩
      · simp only [RunStream.closed, cancelled]
      · simp only [RunStream.ceased, cancelled]
        rfl
      · rw [RunStream.bound, cancelled]
        change sequence + 1 < sequence + 2
        omega
      · change 0 ≤ sequence + 2
        omega
      · exact fun _ => List.append_ne_nil_of_right_ne_nil _ (List.cons_ne_nil _ _)
      · rintro _ _ (⟨⟨⟩⟩ | ⟨⟨⟩⟩)
      · rintro _ ⟨⟩
        exact before
      · refine settled.finished.trans ?_
        simp only [RunStream.ceased, cancelled]
        rfl
    · cases stepped
  | cancelFinish =>
    rw [cancelStep] at stepped
    split at stepped
    · next cancelled =>
      cases stepped
      have before := settled.cancelled _ cancelled
      refine orderly_silent orderly rfl ?_ (fun _ => .inl (Int.le_of_eq ?_)) { settled with
        spoken := fun due => settled.spoken (due.imp id fun ⟨_, same⟩ => nomatch same)
        counts := fun _ _ given => given.elim nofun nofun
        registered := nofun
        cancelled := ?_
        finished := rfl } (fun _ => rfl)
      · simp only [RunStream.closed, cancelled]
      · simp only [RunStream.bound, cancelled]
      · rintro _ ⟨⟩
        exact before
    · next cancelled => exact absurd (settled.cancelled _ cancelled).1 nofun
    · cases stepped
  | _ => cases stepped

theorem orderly_projectStep (orderly : Orderly stream) {action : WriterAction}
    (inTurn : takesTurns stream action = true) (stepped : projectStep stream action = some stream') :
    Orderly stream' ∧ Grows stream stream' := by
  have silent : ∀ projections runEvents,
      Orderly { stream with projections, runEvents } ∧
        Grows stream { stream with projections, runEvents } := fun projections runEvents =>
    orderly_silent orderly rfl rfl (fun _ => .inl (Int.le_refl _)) { orderly.settled with } id
  cases action with
  | projectFind eventId =>
    obtain ⟨-, same⟩ := Option.ite_none_right_eq_some.mp stepped
    cases same
    exact silent _ _
  | projectAppend eventId =>
    rw [projectStep] at stepped
    split at stepped
    · dsimp only at stepped
      split at stepped <;> cases stepped
      · exact silent _ _
      · exact silent _ _
    · cases stepped
  | projectRecord eventId => cases inTurn
  | _ => cases stepped

/-- Writers that take turns keep the log in order and close it once. -/
theorem orderly_writerStep (orderly : Orderly stream) {action : WriterAction}
    (inTurn : takesTurns stream action = true) (stepped : writerStep stream action = some stream') :
    Orderly stream' ∧ Grows stream stream' := by
  obtain stepped | ⟨-, stepped⟩ := Option.or_eq_some_iff.mp stepped
  · obtain stepped | ⟨-, stepped⟩ := Option.or_eq_some_iff.mp stepped
    · exact orderly_runnerStep orderly inTurn stepped
    · exact orderly_cancelStep orderly inTurn stepped
  · exact orderly_projectStep orderly inTurn stepped

theorem orderly_start : Orderly {} where
  ordered := .nil
  bounded _ := nofun
  terminal := ⟨fun ⟨_, mem, _⟩ => (nomatch mem), nofun⟩
  spoken due := due.elim (fun ⟨_, same⟩ => (nomatch same)) fun ⟨_, same⟩ => (nomatch same)
  natural := ⟨⟨Int.le_refl _, nofun⟩, fun _ _ given => given.elim nofun nofun⟩
  registered _ := rfl
  cancelled := nofun
  finished := rfl

end Steps

end Foco.RemoteRunStreams
