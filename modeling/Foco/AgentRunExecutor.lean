import Foco.RustText
import Foco.Runs

/-!
`agent/executor.rs`: the events of an agent's run go through an unbounded channel to the sink of the
caller, while the run, and whoever else holds its emitter, goes on. What the run does and what the
sink answers are the actions of a machine.
-/
namespace Foco.AgentRunExecutor
open RustText Runs

inductive AgentRunEventKind where
  | reasoning | text | usage | completion | error | toolCall | toolResult | controlOutcome

structure AgentRunAssociations where
  teamId : Option Text
  instanceId : Option Text
  taskId : Option Text
  attemptId : Option Text

structure AgentRunEvent (Payload : Type) where
  associations : AgentRunAssociations
  kind : AgentRunEventKind
  payload : Payload

inductive AgentRunOutcome (Usage Value : Type) where
  | completed (text : Text) (reasoning : Option Text) (usage : Option Usage)
  | failed (message : Text) (retryable : Bool)
  | cancelled (message : Text)
  | suspended (control : Value)

variable {Payload Usage Value : Type}

/-- Where `execute` is: in its loop, waiting for the run alone, passing on what is left behind an
outcome, behind the last look into the channel, or done. -/
inductive Phase (Usage Value : Type) where
  | running
  | awaiting
  | draining (outcome : AgentRunOutcome Usage Value)
  | closing (outcome : AgentRunOutcome Usage Value)
  | returned (outcome : AgentRunOutcome Usage Value)

/-- The channel, and what has happened: the events that emitters sent, those the sink took, the one
it refused, and the outcome of the run with the events sent before it. -/
structure Execution (Payload Usage Value : Type) where
  phase : Phase Usage Value := .running
  emitters : Bool := true
  queue : List (AgentRunEvent Payload) := []
  cancelled : Bool := false
  accepted : List (AgentRunEvent Payload) := []
  delivered : List (AgentRunEvent Payload) := []
  refused : Option (AgentRunEvent Payload × Text) := none
  finished : Option (AgentRunOutcome Usage Value × List (AgentRunEvent Payload)) := none

inductive Action (Payload Usage Value : Type) where
  | emit (kind : AgentRunEventKind) (payload : Payload)
  | dropEmitters
  | cancel
  | finish (outcome : AgentRunOutcome Usage Value)
  | event (answer : Except Text Unit)
  | noEvent
  | close

/-- `AgentRunEventEmitter::emit`. -/
def emit (associations : AgentRunAssociations) (state : Execution Payload Usage Value)
    (kind : AgentRunEventKind) (payload : Payload) :
    Execution Payload Usage Value × Except Text Unit :=
  match state.phase with
  | .returned _ => (state, .error "AgentRun event sink closed before execution completed".toList)
  | _ =>
    let event := ⟨associations, kind, payload⟩
    ({ state with queue := state.queue ++ [event], accepted := state.accepted ++ [event] }, .ok ())

/-- `sink.emit(event)` with its answer, and what `execute` does with that. -/
def pass (state : Execution Payload Usage Value) (event : AgentRunEvent Payload)
    (queue : List (AgentRunEvent Payload)) : Except Text Unit → Execution Payload Usage Value
  | .ok () => { state with queue, delivered := state.delivered ++ [event] }
  | .error message => { state with
      queue
      refused := some (event, message)
      cancelled := true
      phase := .returned (.failed message false) }

def step (associations : AgentRunAssociations) (state : Execution Payload Usage Value) :
    Action Payload Usage Value → Option (Execution Payload Usage Value)
  | .emit kind payload =>
    if state.emitters then some (emit associations state kind payload).1 else none
  | .dropEmitters => some { state with emitters := false }
  | .cancel => some { state with cancelled := true }
  | .finish outcome =>
    match state.phase with
    | .running => some { state with
        phase := .draining outcome
        finished := some (outcome, state.accepted) }
    | .awaiting => some { state with
        phase := .returned outcome
        finished := some (outcome, state.accepted) }
    | _ => none
  | .event answer =>
    match state.phase, state.queue with
    | .running, event :: queue | .draining _, event :: queue => some (pass state event queue answer)
    | _, _ => none
  | .noEvent =>
    match state.phase, state.queue, state.emitters with
    | .running, [], false => some { state with phase := .awaiting }
    | .draining outcome, [], _ => some { state with phase := .closing outcome }
    | _, _, _ => none
  | .close =>
    match state.phase with
    | .closing outcome => some { state with phase := .returned outcome }
    | _ => none

/-- `AgentRunExecutor::execute`. -/
def execute (associations : AgentRunAssociations) :
    Machine (Execution Payload Usage Value) (Action Payload Usage Value) where
  start := {}
  step := step associations

/-- An outcome of the run is there, and what was sent before it is among these events. -/
def Execution.Finished (state : Execution Payload Usage Value)
    (outcome : AgentRunOutcome Usage Value) (events : List (AgentRunEvent Payload)) : Prop :=
  state.refused = none ∧ ∃ before, state.finished = some (outcome, before) ∧ before <+: events

/-- What each phase means. -/
def Execution.Explained (state : Execution Payload Usage Value) : Prop :=
  match state.phase with
  | .running => state.refused = none ∧ state.finished = none
  | .awaiting => state.refused = none ∧ state.finished = none ∧ state.queue = [] ∧
      state.emitters = false
  | .draining outcome => state.Finished outcome state.accepted
  | .closing outcome => state.Finished outcome state.delivered
  | .returned outcome => state.Finished outcome state.delivered ∨ ∃ event message,
      state.refused = some (event, message) ∧ outcome = .failed message false ∧
      state.cancelled = true

/-- No event that was sent is lost, changed or out of order: it was taken by the sink, refused as the
last one shown to it, or is still in the channel. -/
structure Relayed (associations : AgentRunAssociations)
    (state : Execution Payload Usage Value) : Prop where
  associated : ∀ event ∈ state.accepted, event.associations = associations
  ordered : state.accepted =
    state.delivered ++ (state.refused.map Prod.fst).toList ++ state.queue
  explained : state.Explained

section Runs

variable {associations : AgentRunAssociations} {state next : Execution Payload Usage Value}
  {action : Action Payload Usage Value} {outcome : AgentRunOutcome Usage Value}

/-- What a phase means stays true while more is sent and taken. -/
theorem Explained.mono (explained : state.Explained) (phase : next.phase = state.phase)
    (refused : next.refused = state.refused) (finished : next.finished = state.finished)
    (accepted : state.accepted <+: next.accepted) (delivered : state.delivered <+: next.delivered)
    (quiet : state.emitters = false → state.queue = [] → next.queue = [] ∧ next.emitters = false)
    (cancelled : state.cancelled = true → next.cancelled = true) : next.Explained := by
  unfold Execution.Explained Execution.Finished at explained ⊢
  rw [phase, refused, finished]
  split <;> rename_i at_ <;> rw [at_] at explained
  · exact explained
  · obtain ⟨unrefused, unfinished, empty, dropped⟩ := explained
    exact ⟨unrefused, unfinished, quiet dropped empty⟩
  · obtain ⟨unrefused, before, finished, early⟩ := explained
    exact ⟨unrefused, before, finished, early.trans accepted⟩
  · obtain ⟨unrefused, before, finished, early⟩ := explained
    exact ⟨unrefused, before, finished, early.trans delivered⟩
  · obtain ⟨unrefused, before, finished, early⟩ | ⟨event, message, refused, failed, true_⟩ := explained
    · exact .inl ⟨unrefused, before, finished, early.trans delivered⟩
    · exact .inr ⟨event, message, refused, failed, cancelled true_⟩

theorem Relayed.emit (relayed : Relayed associations state) (held : state.emitters = true)
    (kind : AgentRunEventKind) (payload : Payload) :
    Relayed associations (emit associations state kind payload).1 := by
  unfold AgentRunExecutor.emit
  split
  · exact relayed
  refine ⟨?_, ?_, Explained.mono relayed.explained rfl rfl rfl (List.prefix_append _ _)
    (List.prefix_refl _) (fun dropped => nomatch held.symm.trans dropped) id⟩
  · intro event mem
    obtain mem | mem := List.mem_append.mp mem
    · exact relayed.associated event mem
    · rw [List.mem_singleton.mp mem]
  · dsimp only
    rw [relayed.ordered, List.append_assoc]

/-- An event that is passed on leaves the channel for the sink. -/
theorem Relayed.pass (relayed : Relayed associations state) {event : AgentRunEvent Payload}
    {queue : List (AgentRunEvent Payload)} (first : state.queue = event :: queue)
    (unrefused : state.refused = none) (answer : Except Text Unit) :
    Relayed associations (AgentRunExecutor.pass state event queue answer) := by
  obtain ⟨associated, ordered, explained⟩ := relayed
  rw [unrefused, first] at ordered
  cases answer with
  | ok =>
    refine ⟨associated, ?_, Explained.mono explained rfl rfl rfl (List.prefix_refl _)
      (List.prefix_append _ _) (fun _ empty => nomatch first.symm.trans empty) id⟩
    change state.accepted = state.delivered ++ [event] ++ (state.refused.map _).toList ++ queue
    rw [ordered, unrefused]
    simp
  | error message =>
    refine ⟨associated, ?_, .inr ⟨event, message, rfl, rfl, rfl⟩⟩
    change state.accepted = state.delivered ++ [event] ++ queue
    rw [ordered]
    simp

theorem Relayed.step (relayed : Relayed associations state)
    (stepped : step associations state action = some next) : Relayed associations next := by
  obtain ⟨associated, ordered, explained⟩ := relayed
  have explains := explained
  unfold Execution.Explained at explains
  cases action with
  | emit kind payload =>
    rw [AgentRunExecutor.step] at stepped
    split at stepped
    · next held =>
      exact Option.some.inj stepped ▸ Relayed.emit ⟨associated, ordered, explained⟩ held kind payload
    · cases stepped
  | dropEmitters =>
    obtain rfl := Option.some.inj stepped
    exact ⟨associated, ordered, Explained.mono explained rfl rfl rfl (List.prefix_refl _)
      (List.prefix_refl _) (fun _ empty => ⟨empty, rfl⟩) id⟩
  | cancel =>
    obtain rfl := Option.some.inj stepped
    exact ⟨associated, ordered, Explained.mono explained rfl rfl rfl (List.prefix_refl _)
      (List.prefix_refl _) (fun dropped empty => ⟨empty, dropped⟩) fun _ => rfl⟩
  | finish outcome =>
    rw [AgentRunExecutor.step] at stepped
    split at stepped
    · next running =>
      rw [running] at explains
      obtain rfl := Option.some.inj stepped
      exact ⟨associated, ordered, explains.1, _, rfl, List.prefix_refl _⟩
    · next awaiting =>
      rw [awaiting] at explains
      obtain rfl := Option.some.inj stepped
      obtain ⟨unrefused, -, empty, -⟩ := explains
      have all : state.accepted = state.delivered := by simp [ordered, unrefused, empty]
      exact ⟨associated, ordered, .inl ⟨unrefused, _, rfl, all ▸ List.prefix_refl _⟩⟩
    · cases stepped
  | event answer =>
    rw [AgentRunExecutor.step] at stepped
    split at stepped
    · next running first =>
      rw [running] at explains
      exact Option.some.inj stepped ▸ Relayed.pass ⟨associated, ordered, explained⟩ first
        explains.1 answer
    · next draining first =>
      rw [draining] at explains
      exact Option.some.inj stepped ▸ Relayed.pass ⟨associated, ordered, explained⟩ first
        explains.1 answer
    · cases stepped
  | noEvent =>
    rw [AgentRunExecutor.step] at stepped
    split at stepped
    · next running empty dropped =>
      rw [running] at explains
      obtain rfl := Option.some.inj stepped
      exact ⟨associated, ordered, explains.1, explains.2, empty, dropped⟩
    · next draining empty =>
      rw [draining] at explains
      obtain rfl := Option.some.inj stepped
      obtain ⟨unrefused, before, finished, early⟩ := explains
      have all : state.accepted = state.delivered := by simp [ordered, unrefused, empty]
      exact ⟨associated, ordered, unrefused, before, finished, all ▸ early⟩
    · cases stepped
  | close =>
    rw [AgentRunExecutor.step] at stepped
    split at stepped
    · next closing =>
      rw [closing] at explains
      obtain rfl := Option.some.inj stepped
      exact ⟨associated, ordered, .inl explains⟩
    · cases stepped

/-- Behind the answer of `execute` nothing is sent and nothing shown to the sink. -/
theorem step_returned (answered : state.phase = .returned outcome)
    (stepped : step associations state action = some next) : next.phase = .returned outcome ∧
      next.accepted = state.accepted ∧ next.delivered = state.delivered ∧
      next.refused = state.refused := by
  cases action with
  | dropEmitters | cancel => exact Option.some.inj stepped ▸ ⟨answered, rfl, rfl, rfl⟩
  | emit =>
    simp only [AgentRunExecutor.step, AgentRunExecutor.emit, answered] at stepped
    split at stepped
    · exact Option.some.inj stepped ▸ ⟨answered, rfl, rfl, rfl⟩
    · cases stepped
  | finish | event | noEvent | close =>
    simp only [AgentRunExecutor.step, answered] at stepped
    cases stepped

/-- In every run every event that was sent reaches the sink in order and with the run's associations,
up to the one it refuses; the outcome of the run is given only behind all that was sent before it; a
refusal fails and cancels the run; and behind the answer nothing more is sent or shown. -/
theorem execute_relays (reached : (execute associations).Reachable state) :
    Relayed associations state ∧ ∀ outcome action next, state.phase = .returned outcome →
      (execute associations).step state action = some next → next.phase = .returned outcome ∧
        next.accepted = state.accepted ∧ next.delivered = state.delivered ∧
        next.refused = state.refused := by
  refine ⟨?_, fun outcome action next answered stepped => step_returned answered stepped⟩
  induction reached with
  | start => exact ⟨nofun, rfl, rfl, rfl⟩
  | next _ _ stepped ih => exact ih.step stepped

/-- A text, the outcome, a late tool call that the sink refuses. -/
def lateRefused : List (Action Nat Nat Nat) :=
  [.emit .text 1, .finish (.completed [] none none), .emit .toolCall 2, .event (.ok ()),
    .event (.error ['x'])]

theorem execute_relays_late_refused : ∃ state : Execution Nat Nat Nat,
    state.phase = .returned (.failed ['x'] false) ∧
      Relayed ⟨none, none, none, none⟩ state := by
  obtain ⟨state, ran, answered⟩ : ∃ state, (execute ⟨none, none, none, none⟩).run {} lateRefused =
      some state ∧ state.phase = .returned (.failed ['x'] false) := ⟨_, rfl, rfl⟩
  exact ⟨state, answered, (execute_relays (Machine.reachable_of_run .start ran)).1⟩

end Runs

end Foco.AgentRunExecutor
