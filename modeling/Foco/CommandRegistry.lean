import Mathlib.Data.List.Basic
import Foco.CommandPages
import Foco.Maps
import Foco.Runs

/-!
`tools/background_command.rs`: the registry of managed background commands. A start reserves a
slot, spawns the process, makes the entry with its readers and its monitor, and publishes it; a
stop takes the published entries it covers and asks each of them to terminate. Between the spawn
and the publication only the starting thread knows the process.
-/
namespace Foco.CommandRegistry
open Foco.RustText Foco.BackgroundCommand Foco.Maps Foco.Runs

/-! ## Commands and stops -/

/-- Where a call of `BackgroundCommandRegistry::start` stands. -/
inductive StartPhase where
  | reserved
  | spawned
  /-- The monitor thread runs and the entry is not published. -/
  | monitored
  | published
  /-- The start has failed and has still to give its slot back. -/
  | abandoned
  | failed
deriving DecidableEq

inductive Process where
  | none
  | running
  | ended
deriving DecidableEq

/-- A start with its process and its `BackgroundCommandEntry`. The command id is formatted from
the sequence number kept here. -/
structure Command where
  commandId : Nat
  workspacePath : Text
  ownerChatId : Option Text
  phase : StartPhase := .reserved
  process : Process := .none
  status : BackgroundCommandStatus := .running
  requestedTermination : Option BackgroundCommandTermination := none

/-- `BackgroundCommandStatus::is_terminal`. -/
def isTerminal (status : BackgroundCommandStatus) : Bool := status ≠ .running

/-- `request_termination`. -/
def Command.requestTermination (command : Command) (reason : BackgroundCommandTermination) :
    Command :=
  if isTerminal command.status ∨ command.requestedTermination.isSome then command
  else { command with requestedTermination := some reason }

/-- `start_kill`, which may fail. -/
def Command.kill (command : Command) (killed : Bool) : Command :=
  if killed ∧ command.process = .running then { command with process := .ended } else command

/-- The end of `monitor_background_command`; `failed` says that waiting or a reader failed. -/
def Command.finish (command : Command) (failed : Bool) : Command :=
  if isTerminal command.status then command
  else { command with
    status :=
      if failed then .failed
      else match command.requestedTermination with
        | some .timeout => .timedOut
        | some _ => .stopped
        | none => .exited }

/-- The calls that stop many commands: `shutdown_all`, `stop_for_workspace` (and the variant that
waits), `stop_for_workspace_chat` and `stop_for_chat`. -/
inductive StopKind where
  | shutdownAll
  | workspace (path : Text)
  | workspaceChat (path owner : Text)
  | chat (owner : Text)
deriving DecidableEq

def StopKind.covers (kind : StopKind) (command : Command) : Bool :=
  match kind with
  | .shutdownAll => true
  | .workspace path => command.workspacePath = path
  | .workspaceChat path owner => command.workspacePath = path ∧ command.ownerChatId = some owner
  | .chat owner => command.ownerChatId = some owner

def StopKind.reason : StopKind → BackgroundCommandTermination
  | .shutdownAll => .hostShutdown
  | _ => .explicitStop

/-- Where a stop stands: called, going through the entries it has collected, about to kill the
process of one of them. -/
inductive StopPhase where
  | begun
  | requesting (remaining : List Nat)
  | killing (command : Nat) (remaining : List Nat)
deriving DecidableEq

/-- A stop, with the commands whose process had been spawned when it was called. -/
structure Stop where
  kind : StopKind
  spawnedBefore : List Nat
  phase : StopPhase := .begun

def StopPhase.remaining : StopPhase → List Nat
  | .begun => []
  | .requesting remaining | .killing _ remaining => remaining

/-- `RegistryState` with the commands, in the order of their starts, and the stops. -/
structure Registry where
  commands : List Command := []
  entries : Map Nat Nat := ∅
  pendingStarts : Map Text Nat := ∅
  nextCommandSequence : Nat := 0
  stops : List Stop := []

namespace Registry

/-- `prune_completed_entries`, where `expired` are the ids whose retention has run out. -/
def prune (registry : Registry) (expired : List Nat) : Registry :=
  { registry with
    entries := registry.entries.retain fun id index =>
      (registry.commands[index]?.any fun command => !isTerminal command.status) ||
        decide (id ∉ expired) }

/-- `release_pending_slot`. -/
def releaseSlot (registry : Registry) (path : Text) : Registry :=
  { registry with
    pendingStarts := match registry.pendingStarts.lookup path with
      | some pending =>
        if pending - 1 = 0 then registry.pendingStarts.erase path
        else registry.pendingStarts.insert path (pending - 1)
      | none => registry.pendingStarts }

def active (registry : Registry) (path : Text) : Nat :=
  (registry.entries.entries.filter fun entry =>
    registry.commands[entry.2]?.any fun command =>
      decide (command.workspacePath = path) && decide (command.status = .running)).length

/-- `reserve_command_slot` for a start that goes on, or fails with the limit of its workspace. -/
def reserve (registry : Registry) (limits : BackgroundCommandLimits) (path : Text)
    (owner : Option Text) : Registry :=
  let pending := (registry.pendingStarts.lookup path).getD 0
  if limits.maxActivePerWorkspace ≤ saturatingAdd (registry.active path) pending then registry
  else
    let sequence := saturatingAdd registry.nextCommandSequence 1
    { registry with
      nextCommandSequence := sequence
      pendingStarts := registry.pendingStarts.insert path (pending + 1)
      commands := registry.commands ++
        [{ commandId := sequence, workspacePath := path, ownerChatId := owner }] }

def modify (registry : Registry) (index : Nat) (change : Command → Command) : Registry :=
  { registry with commands := registry.commands.modify index change }

/-- The commands whose process has been spawned. -/
def spawned (registry : Registry) : List Nat :=
  (List.range registry.commands.length).filter fun index =>
    registry.commands[index]?.any fun command => command.process ≠ .none

/-- The published entries a stop covers, in whatever order the map has them. -/
def collect (registry : Registry) (kind : StopKind) : List Nat :=
  (registry.entries.entries.map Sigma.snd).filter fun index =>
    registry.commands[index]?.any kind.covers

end Registry

/-- What can happen: the steps of a start, of its process and its monitor, of a stop, and the
other calls that touch an entry. -/
inductive Action where
  | reserve (path : Text) (owner : Option Text) (expired : List Nat)
  | spawn (index : Nat) (succeeds : Bool)
  /-- A failure after the spawn; the process is killed, if that works. -/
  | abandon (index : Nat) (killed : Bool)
  | releaseSlot (index : Nat)
  | monitor (index : Nat)
  | publish (index : Nat)
  | exit (index : Nat)
  | timeout (index : Nat)
  | terminate (index : Nat) (killed : Bool)
  | finish (index : Nat) (failed : Bool)
  | prune (expired : List Nat)
  | stopOne (commandId : Nat)
  | stop (kind : StopKind)
  | collect (stop : Nat)
  | request (stop : Nat)
  | forceTerminate (stop : Nat) (killed : Bool)

/-- A change of one command that some guard allows. -/
def stepCommand (registry : Registry) (index : Nat) (guard : Command → Bool)
    (change : Command → Command) : Option Registry :=
  if registry.commands[index]?.any guard then some (registry.modify index change) else none

def step (limits : BackgroundCommandLimits) (registry : Registry) : Action → Option Registry
  | .reserve path owner expired => some ((registry.prune expired).reserve limits path owner)
  | .spawn index succeeds =>
    stepCommand registry index (·.phase = .reserved) fun command =>
      if succeeds then { command with phase := .spawned, process := .running }
      else { command with phase := .abandoned }
  | .abandon index killed =>
    stepCommand registry index (·.phase = .spawned) fun command =>
      { command.kill killed with phase := .abandoned }
  | .releaseSlot index =>
    (registry.commands[index]?).bind fun command =>
      (stepCommand registry index (·.phase = .abandoned) fun command =>
        { command with phase := .failed }).map (·.releaseSlot command.workspacePath)
  | .monitor index =>
    stepCommand registry index (·.phase = .spawned) fun command =>
      { command with phase := .monitored }
  | .publish index =>
    (registry.commands[index]?).bind fun command =>
      (stepCommand registry index (·.phase = .monitored) fun command =>
        { command with phase := .published }).map fun published =>
          let released := published.releaseSlot command.workspacePath
          { released with entries := released.entries.insert command.commandId index }
  | .exit index =>
    stepCommand registry index (·.process = .running) (·.kill true)
  | .timeout index =>
    stepCommand registry index (fun command => command.phase = .monitored ∨
      command.phase = .published) (·.requestTermination .timeout)
  | .terminate index killed =>
    stepCommand registry index (fun command => (command.phase = .monitored ∨
      command.phase = .published) ∧ command.requestedTermination.isSome) (·.kill killed)
  | .finish index failed =>
    stepCommand registry index (fun command => (command.phase = .monitored ∨
      command.phase = .published) ∧ (failed ∨ command.process = .ended)) (·.finish failed)
  | .prune expired => some (registry.prune expired)
  | .stopOne commandId =>
    (registry.entries.lookup commandId).map fun index =>
      registry.modify index (·.requestTermination .explicitStop)
  | .stop kind =>
    some { registry with
      stops := registry.stops ++ [{ kind, spawnedBefore := registry.spawned }] }
  | .collect stop =>
    (registry.stops[stop]?).bind fun call =>
      if call.phase = .begun then
        some { registry with
          stops := registry.stops.set stop
            { call with phase := .requesting (registry.collect call.kind) } }
      else none
  | .request stop =>
    (registry.stops[stop]?).bind fun call =>
      match call.phase with
      | .requesting (index :: rest) =>
        let asked := registry.modify index (·.requestTermination call.kind.reason)
        let running := asked.commands[index]?.any fun command => command.status = .running
        some { asked with
          stops := registry.stops.set stop
            { call with
              phase := if call.kind = .shutdownAll ∧ running then .killing index rest
                else .requesting rest } }
      | _ => none
  | .forceTerminate stop killed =>
    (registry.stops[stop]?).bind fun call =>
      match call.phase with
      | .killing index rest =>
        some { registry.modify index (·.kill killed) with
          stops := registry.stops.set stop { call with phase := .requesting rest } }
      | _ => none

def machine (limits : BackgroundCommandLimits) : Machine Registry Action where
  start := {}
  step := step limits

/-! ## What a stop promises -/

/-- The command carries a termination request, or is over, or never had a process. -/
def Command.answers (command : Command) : Bool :=
  isTerminal command.status || decide (command.process ≠ .running) ||
    command.requestedTermination.isSome

/-- The start of a command has returned. -/
def Command.started (command : Command) : Bool :=
  command.phase = .published ∨ command.phase = .failed

/-- All starts and all stops have returned. -/
def Registry.quiet (registry : Registry) : Bool :=
  registry.commands.all Command.started &&
    registry.stops.all fun stop => decide (stop.phase = .requesting [])

/-- Each stop has reached every command it covers whose process had been spawned before it. -/
def Registry.Stopped (registry : Registry) : Prop :=
  ∀ stop ∈ registry.stops, ∀ index ∈ stop.spawnedBefore, ∀ command,
    registry.commands[index]? = some command → stop.kind.covers command = true →
    command.answers = true

/-- A stop has collected its entries without a command that it should reach. -/
def Stop.misses (stop : Stop) (index : Nat) (command : Command) : Bool :=
  decide (stop.phase ≠ .begun) && decide (index ∈ stop.spawnedBefore) && stop.kind.covers command

/-- The step loses no process: no start publishes a live command that a stop has missed, or under
the id of another entry, and the process of a failed start dies. -/
def keepsTrack (registry : Registry) : Action → Bool
  | .publish index => registry.commands[index]?.all fun command =>
      (registry.entries.lookup command.commandId).isNone &&
        registry.stops.all fun stop => !stop.misses index command || command.answers
  | .abandon index killed => registry.commands[index]?.all fun command =>
      (command.kill killed).answers
  | _ => true

/-! ## The invariant -/

/-- The process is known to its starting thread only. -/
def Command.Unpublished (command : Command) : Prop :=
  command.phase = .spawned ∨ command.phase = .monitored

/-- What holds in a run that loses no process. -/
structure Tracked (registry : Registry) : Prop where
  /-- A published command is in the map as long as it is not over. -/
  listed : ∀ (index : Nat) (command : Command),
    registry.commands[index]? = some command →
    command.phase = .published → isTerminal command.status = false →
    registry.entries.lookup command.commandId = some index
  unspawned : ∀ (index : Nat) (command : Command),
    registry.commands[index]? = some command →
    command.phase = .reserved → command.process = .none
  dropped : ∀ (index : Nat) (command : Command),
    registry.commands[index]? = some command →
    command.phase = .abandoned ∨ command.phase = .failed → command.answers = true
  known : ∀ stop ∈ registry.stops, ∀ index ∈ stop.spawnedBefore, index < registry.commands.length
  called : ∀ stop ∈ registry.stops, ∀ index ∈ stop.spawnedBefore, ∀ command : Command,
    registry.commands[index]? = some command → command.phase ≠ .reserved
  reached : ∀ stop ∈ registry.stops, stop.phase ≠ .begun → ∀ index ∈ stop.spawnedBefore,
    ∀ command : Command, registry.commands[index]? = some command → stop.kind.covers command = true →
    command.answers = true ∨ command.Unpublished ∨ index ∈ stop.phase.remaining

section Steps

variable {registry : Registry} {command : Command}

theorem covers_congr {kind : StopKind} {other : Command}
    (path : other.workspacePath = command.workspacePath)
    (owner : other.ownerChatId = command.ownerChatId) :
    kind.covers other = kind.covers command := by
  cases kind <;> simp only [StopKind.covers, path, owner]

theorem answers_of_requested (asked : command.requestedTermination.isSome = true) :
    command.answers = true := by
  simp [Command.answers, asked]

theorem answers_of_process (gone : command.process ≠ .running) : command.answers = true := by
  simp [Command.answers, gone]

theorem answers_of_terminal (ended : isTerminal command.status = true) :
    command.answers = true := by
  simp [Command.answers, ended]

theorem answers_requestTermination (reason : BackgroundCommandTermination) :
    (command.requestTermination reason).answers = true := by
  unfold Command.requestTermination
  split
  · next already =>
    obtain ended | asked := already
    · exact answers_of_terminal ended
    · exact answers_of_requested asked
  · exact answers_of_requested rfl

/-- What the guarded changes of one command keep: its identity, that it answers or is still
unpublished, and what the map and the failed starts rely on. -/
structure Moves (before after : Command) : Prop where
  id : after.commandId = before.commandId
  path : after.workspacePath = before.workspacePath
  owner : after.ownerChatId = before.ownerChatId
  listed : after.phase = .published → isTerminal after.status = false →
    before.phase = .published ∧ isTerminal before.status = false
  unspawned : after.phase = .reserved → before.phase = .reserved ∧ after.process = before.process
  dropped : after.phase = .abandoned ∨ after.phase = .failed → after.answers = true
  reached : before.phase ≠ .reserved → before.answers = true ∨ before.Unpublished →
    after.answers = true ∨ after.Unpublished

theorem getElem?_modify {index other : Nat} {change : Command → Command} {after : Command}
    (found : (registry.modify index change).commands[other]? = some after) :
    ∃ before, registry.commands[other]? = some before ∧
      after = if index = other then change before else before := by
  rw [Registry.modify, List.getElem?_modify] at found
  obtain ⟨before, known, rfl⟩ := Option.map_eq_some_iff.mp found
  refine ⟨before, known, ?_⟩
  split <;> rfl

theorem Moves.refl (dropped : command.phase = .abandoned ∨ command.phase = .failed →
    command.answers = true) : Moves command command where
  id := rfl
  path := rfl
  owner := rfl
  listed := fun published running => ⟨published, running⟩
  unspawned := fun reserved => ⟨reserved, rfl⟩
  dropped := dropped
  reached := fun _ kept => kept

theorem Tracked.modify (tracked : Tracked registry) {index : Nat} {change : Command → Command}
    (moves : ∀ command, registry.commands[index]? = some command → Moves command (change command)) :
    Tracked (registry.modify index change) := by
  have moved : ∀ (other : Nat) (after : Command),
      (registry.modify index change).commands[other]? = some after →
      ∃ before : Command, registry.commands[other]? = some before ∧ Moves before after := by
    intro other after found
    obtain ⟨before, known, rfl⟩ := getElem?_modify found
    refine ⟨before, known, ?_⟩
    split
    · next same =>
      subst same
      exact moves before known
    · exact .refl (tracked.dropped other before known)
  refine ⟨?_, ?_, ?_, ?_, ?_, ?_⟩
  · intro other after found published running
    obtain ⟨before, known, move⟩ := moved other after found
    obtain ⟨published, running⟩ := move.listed published running
    rw [move.id]
    exact tracked.listed other before known published running
  · intro other after found reserved
    obtain ⟨before, known, move⟩ := moved other after found
    obtain ⟨reserved, same⟩ := move.unspawned reserved
    rw [same]
    exact tracked.unspawned other before known reserved
  · intro other after found gone
    obtain ⟨before, known, move⟩ := moved other after found
    exact move.dropped gone
  · intro stop mem other called
    rw [Registry.modify, List.length_modify]
    exact tracked.known stop mem other called
  · intro stop mem other called after found reserved
    obtain ⟨before, known, move⟩ := moved other after found
    exact tracked.called stop mem other called before known (move.unspawned reserved).1
  · intro stop mem begun other called after found covers
    obtain ⟨before, known, move⟩ := moved other after found
    rw [covers_congr move.path move.owner] at covers
    have spawned := tracked.called stop mem other called before known
    obtain answers | unpublished | remains :=
      tracked.reached stop mem begun other called before known covers
    · exact (move.reached spawned (.inl answers)).imp_right .inl
    · exact (move.reached spawned (.inr unpublished)).imp_right .inl
    · exact .inr (.inr remains)

/-- Changes that leave the phase alone. -/
theorem Moves.inPhase {after : Command} (id : after.commandId = command.commandId)
    (path : after.workspacePath = command.workspacePath)
    (owner : after.ownerChatId = command.ownerChatId) (phase : after.phase = command.phase)
    (unspawned : command.phase = .reserved → after.process = command.process)
    (status : isTerminal command.status = true → isTerminal after.status = true)
    (dropped : command.phase = .abandoned ∨ command.phase = .failed → command.answers = true)
    (answers : command.answers = true → after.answers = true) : Moves command after where
  id := id
  path := path
  owner := owner
  listed := fun published running => by
    refine ⟨phase ▸ published, ?_⟩
    rw [← Bool.not_eq_true] at running ⊢
    exact fun ended => running (status ended)
  unspawned := fun reserved => ⟨phase ▸ reserved, unspawned (phase ▸ reserved)⟩
  dropped := fun gone => answers (dropped (phase ▸ gone))
  reached := fun _ kept => kept.imp answers fun unpublished => by
    rwa [Command.Unpublished, phase]

theorem moves_kill (tracked : Tracked registry) {index : Nat}
    (known : registry.commands[index]? = some command) (killed : Bool) :
    Moves command (command.kill killed) := by
  have dropped := tracked.dropped index command known
  have unspawned := tracked.unspawned index command known
  unfold Command.kill
  split
  · next kill =>
    refine .inPhase rfl rfl rfl rfl (fun reserved => ?_) id dropped fun _ =>
      answers_of_process nofun
    rw [unspawned reserved] at kill
    cases kill.2
  · exact .refl dropped

theorem moves_requestTermination (tracked : Tracked registry) {index : Nat}
    (known : registry.commands[index]? = some command) (reason : BackgroundCommandTermination) :
    Moves command (command.requestTermination reason) := by
  have dropped := tracked.dropped index command known
  have asked : (command.requestTermination reason).answers = true :=
    answers_requestTermination reason
  unfold Command.requestTermination at asked ⊢
  split at asked
  · next already =>
    rw [if_pos already]
    exact .refl dropped
  · next free =>
    rw [if_neg free]
    exact .inPhase rfl rfl rfl rfl (fun _ => rfl) id dropped fun _ => asked

theorem moves_finish (tracked : Tracked registry) {index : Nat}
    (known : registry.commands[index]? = some command) (failed : Bool) :
    Moves command (command.finish failed) := by
  have dropped := tracked.dropped index command known
  unfold Command.finish
  split
  · exact .refl dropped
  · have ended : ∀ status, (status = if failed then BackgroundCommandStatus.failed
          else match command.requestedTermination with
            | some .timeout => .timedOut
            | some _ => .stopped
            | none => .exited) → isTerminal status = true := by
      rintro status rfl
      split
      · rfl
      · split <;> rfl
    exact .inPhase rfl rfl rfl rfl (fun _ => rfl) (fun _ => ended _ rfl) dropped fun _ =>
      answers_of_terminal (ended _ rfl)

theorem tracked_start : Tracked {} where
  listed := by simp
  unspawned := by simp
  dropped := by simp
  known := by simp
  called := by simp
  reached := by simp

theorem Tracked.prune (tracked : Tracked registry) (expired : List Nat) :
    Tracked (registry.prune expired) := by
  have listed : ∀ (index : Nat) (command : Command), registry.commands[index]? = some command →
      command.phase = .published → isTerminal command.status = false →
      (registry.prune expired).entries.lookup command.commandId = some index := by
    intro index command found published running
    rw [Registry.prune, Map.lookup_retain, found, Option.any_some, running]
    exact ⟨tracked.listed index command found published running, rfl⟩
  exact ⟨listed, tracked.unspawned, tracked.dropped, tracked.known, tracked.called,
    tracked.reached⟩

theorem Tracked.reserve (tracked : Tracked registry) (limits : BackgroundCommandLimits)
    (path : Text) (owner : Option Text) : Tracked (registry.reserve limits path owner) := by
  unfold Registry.reserve
  dsimp only
  split
  · exact tracked
  · generalize saturatingAdd registry.nextCommandSequence 1 = sequence
    have fresh : ∀ (index : Nat) (command : Command),
        (registry.commands ++
          [{ commandId := sequence, workspacePath := path, ownerChatId := owner }])[index]? =
          some command → registry.commands[index]? = some command ∨
            (registry.commands.length ≤ index ∧ command.phase = .reserved ∧
              command.process = .none) := by
      intro index command found
      by_cases within : index < registry.commands.length
      · rw [List.getElem?_append_left within] at found
        exact .inl found
      · have beyond := Nat.le_of_not_lt within
        rw [List.getElem?_append_right beyond] at found
        cases List.mem_singleton.mp (List.mem_of_getElem? found)
        exact .inr ⟨beyond, rfl, rfl⟩
    have before : ∀ stop ∈ registry.stops, ∀ index ∈ stop.spawnedBefore, ∀ command : Command,
        (registry.commands ++
          [{ commandId := sequence, workspacePath := path, ownerChatId := owner }])[index]? =
          some command → registry.commands[index]? = some command := by
      intro stop mem index called command found
      have known := tracked.known stop mem index called
      rwa [List.getElem?_append_left known] at found
    refine ⟨?_, ?_, ?_, ?_, ?_, ?_⟩
    · intro index command found published running
      obtain old | ⟨-, reserved, -⟩ := fresh index command found
      · exact tracked.listed index command old published running
      · rw [reserved] at published
        cases published
    · intro index command found reserved
      obtain old | ⟨-, -, none⟩ := fresh index command found
      · exact tracked.unspawned index command old reserved
      · exact none
    · intro index command found gone
      obtain old | ⟨-, reserved, -⟩ := fresh index command found
      · exact tracked.dropped index command old gone
      · rw [reserved] at gone
        exact gone.elim nofun nofun
    · intro stop mem index called
      rw [List.length_append]
      exact Nat.lt_add_right _ (tracked.known stop mem index called)
    · intro stop mem index called command found
      exact tracked.called stop mem index called command (before stop mem index called command found)
    · intro stop mem begun index called command found
      exact tracked.reached stop mem begun index called command
        (before stop mem index called command found)

theorem Tracked.stop (tracked : Tracked registry) (kind : StopKind) :
    Tracked { registry with
      stops := registry.stops ++ [{ kind, spawnedBefore := registry.spawned }] } := by
  refine { tracked with known := ?_, called := ?_, reached := ?_ }
  · intro stop mem index called
    obtain old | new := List.mem_append.mp mem
    · exact tracked.known stop old index called
    · cases List.mem_singleton.mp new
      exact List.mem_range.mp (List.mem_of_mem_filter called)
  · intro stop mem index called command found reserved
    obtain old | new := List.mem_append.mp mem
    · exact tracked.called stop old index called command found reserved
    · cases List.mem_singleton.mp new
      have spawned := (List.mem_filter.mp called).2
      change registry.commands[index]? = some command at found
      rw [found, Option.any_some, decide_eq_true_eq] at spawned
      exact spawned (tracked.unspawned index command found reserved)
  · intro stop mem begun
    obtain old | new := List.mem_append.mp mem
    · exact tracked.reached stop old begun
    · cases List.mem_singleton.mp new
      exact absurd rfl begun

/-- A stop goes on, and what it had still to do is done or still to be done. -/
theorem Tracked.setStop (tracked : Tracked registry) {position : Nat} {call : Stop}
    (found : registry.stops[position]? = some call) (phase : StopPhase)
    (reached : phase ≠ .begun → ∀ index ∈ call.spawnedBefore, ∀ command : Command,
      registry.commands[index]? = some command → call.kind.covers command = true →
      command.answers = true ∨ command.Unpublished ∨ index ∈ phase.remaining) :
    Tracked { registry with stops := registry.stops.set position { call with phase } } := by
  have member := List.mem_of_getElem? found
  have cases_ : ∀ stop ∈ registry.stops.set position { call with phase },
      stop ∈ registry.stops ∨ stop = { call with phase } :=
    fun stop mem => List.mem_or_eq_of_mem_set mem
  refine { tracked with known := ?_, called := ?_, reached := ?_ }
  · intro stop mem
    obtain old | rfl := cases_ stop mem
    · exact tracked.known stop old
    · exact tracked.known call member
  · intro stop mem
    obtain old | rfl := cases_ stop mem
    · exact tracked.called stop old
    · exact tracked.called call member
  · intro stop mem
    obtain old | rfl := cases_ stop mem
    · exact tracked.reached stop old
    · exact reached

theorem Tracked.collect (tracked : Tracked registry) {position : Nat} {call : Stop}
    (found : registry.stops[position]? = some call) :
    Tracked { registry with
      stops := registry.stops.set position
        { call with phase := .requesting (registry.collect call.kind) } } := by
  have member := List.mem_of_getElem? found
  refine tracked.setStop found _ fun _ index called command known covers => ?_
  cases phase : command.phase with
  | reserved => exact absurd phase (tracked.called call member index called command known)
  | spawned => exact .inr (.inl (.inl phase))
  | monitored => exact .inr (.inl (.inr phase))
  | abandoned => exact .inl (tracked.dropped index command known (.inl phase))
  | failed => exact .inl (tracked.dropped index command known (.inr phase))
  | published =>
    cases running : isTerminal command.status with
    | true => exact .inl (answers_of_terminal running)
    | false =>
      have listed := Map.mem_entries_iff.mpr (tracked.listed index command known phase running)
      refine .inr (.inr (List.mem_filter.mpr ⟨List.mem_map.mpr ⟨_, listed, rfl⟩, ?_⟩))
      rw [known, Option.any_some, covers]

theorem Tracked.publish (tracked : Tracked registry) {index : Nat}
    (known : registry.commands[index]? = some command) (monitored : command.phase = .monitored)
    (fresh : registry.entries.lookup command.commandId = none)
    (tracks : ∀ stop ∈ registry.stops, stop.misses index command = true →
      command.answers = true) :
    Tracked { registry.modify index ({ · with phase := .published }) with
      entries := registry.entries.insert command.commandId index } := by
  have moved : ∀ (other : Nat) (after : Command),
      (registry.modify index ({ · with phase := .published })).commands[other]? = some after →
      (other = index ∧ after = { command with phase := .published }) ∨
        (other ≠ index ∧ registry.commands[other]? = some after) := by
    intro other after found
    obtain ⟨before, old, rfl⟩ := getElem?_modify found
    by_cases here : index = other
    · subst here
      cases known.symm.trans old
      exact .inl ⟨rfl, if_pos rfl⟩
    · exact .inr ⟨Ne.symm here, by rw [if_neg here, old]⟩
  refine ⟨?_, ?_, ?_, ?_, ?_, ?_⟩
  · intro other after found published running
    obtain ⟨rfl, rfl⟩ | ⟨apart, old⟩ := moved other after found
    · exact AList.lookup_insert _
    · have listed := tracked.listed other after old published running
      have ne : after.commandId ≠ command.commandId := by
        intro same
        rw [same, fresh] at listed
        cases listed
      exact (AList.lookup_insert_ne ne).trans listed
  · intro other after found reserved
    obtain ⟨rfl, rfl⟩ | ⟨apart, old⟩ := moved other after found
    · cases reserved
    · exact tracked.unspawned other after old reserved
  · intro other after found gone
    obtain ⟨rfl, rfl⟩ | ⟨apart, old⟩ := moved other after found
    · exact gone.elim nofun nofun
    · exact tracked.dropped other after old gone
  · intro stop mem other called
    rw [Registry.modify, List.length_modify]
    exact tracked.known stop mem other called
  · intro stop mem other called after found reserved
    obtain ⟨rfl, rfl⟩ | ⟨apart, old⟩ := moved other after found
    · cases reserved
    · exact tracked.called stop mem other called after old reserved
  · intro stop mem begun other called after found covers
    obtain ⟨rfl, rfl⟩ | ⟨apart, old⟩ := moved other after found
    · refine .inl (tracks stop mem ?_)
      have covered : stop.kind.covers command = true := covers
      simp [Stop.misses, begun, called, covered]
    · exact tracked.reached stop mem begun other called after old covers

theorem stepCommand_eq_some {index : Nat} {guard : Command → Bool} {change : Command → Command}
    {registry' : Registry} (stepped : stepCommand registry index guard change = some registry') :
    ∃ command, registry.commands[index]? = some command ∧ guard command = true ∧
      registry' = registry.modify index change := by
  obtain ⟨allowed, same⟩ := Option.ite_none_right_eq_some.mp stepped
  obtain ⟨command, known, guarded⟩ := (Option.any_eq_true _ _).mp allowed
  cases same
  exact ⟨command, known, guarded, rfl⟩

/-- A guarded change of one command that moves it as the invariant wants. -/
theorem Tracked.change (tracked : Tracked registry) {index : Nat} {guard : Command → Bool}
    {change : Command → Command} {registry' : Registry}
    (stepped : stepCommand registry index guard change = some registry')
    (moves : ∀ command, registry.commands[index]? = some command → guard command = true →
      Moves command (change command)) : Tracked registry' := by
  obtain ⟨command, known, guarded, rfl⟩ := stepCommand_eq_some stepped
  refine tracked.modify fun other found => ?_
  cases known.symm.trans found
  exact moves command known guarded

theorem Tracked.step {limits : BackgroundCommandLimits} (tracked : Tracked registry)
    {action : Action} {registry' : Registry} (keeps : keepsTrack registry action = true)
    (stepped : step limits registry action = some registry') : Tracked registry' := by
  cases action with
  | reserve path owner expired =>
    cases stepped
    exact (tracked.prune expired).reserve limits path owner
  | spawn index succeeds =>
    refine tracked.change stepped fun command known guarded => ?_
    have reserved := of_decide_eq_true guarded
    cases succeeds
    · refine ⟨rfl, rfl, rfl, nofun, nofun, fun _ => ?_, fun spawned => absurd reserved spawned⟩
      have none := tracked.unspawned index command known reserved
      exact answers_of_process (by simp [none])
    · exact ⟨rfl, rfl, rfl, nofun, nofun, fun gone => gone.elim nofun nofun,
        fun _ _ => .inr (.inl rfl)⟩
  | abandon index killed =>
    refine tracked.change stepped fun command known guarded => ?_
    have answers : (command.kill killed).answers = true := by
      rwa [keepsTrack, known, Option.all_some] at keeps
    have moves := moves_kill tracked known killed
    exact ⟨moves.id, moves.path, moves.owner, nofun, nofun, fun _ => answers,
      fun _ _ => .inl answers⟩
  | releaseSlot index =>
    obtain ⟨command, known, stepped⟩ := Option.bind_eq_some_iff.mp stepped
    obtain ⟨released, failed, rfl⟩ := Option.map_eq_some_iff.mp stepped
    have kept : Tracked released := by
      refine tracked.change failed fun other found guarded => ?_
      have answers := tracked.dropped index other found (.inl (of_decide_eq_true guarded))
      exact ⟨rfl, rfl, rfl, nofun, nofun, fun _ => answers, fun _ _ => .inl answers⟩
    exact ⟨kept.listed, kept.unspawned, kept.dropped, kept.known, kept.called, kept.reached⟩
  | monitor index =>
    refine tracked.change stepped fun command known guarded => ?_
    exact ⟨rfl, rfl, rfl, nofun, nofun, fun gone => gone.elim nofun nofun,
      fun _ _ => .inr (.inr rfl)⟩
  | publish index =>
    obtain ⟨command, known, stepped⟩ := Option.bind_eq_some_iff.mp stepped
    obtain ⟨published, changed, rfl⟩ := Option.map_eq_some_iff.mp stepped
    obtain ⟨other, found, guarded, rfl⟩ := stepCommand_eq_some changed
    cases known.symm.trans found
    rw [keepsTrack, known, Option.all_some, Bool.and_eq_true, Option.isNone_iff_eq_none,
      List.all_eq_true] at keeps
    have tracks : ∀ stop ∈ registry.stops, stop.misses index command = true →
        command.answers = true := fun stop mem misses => by
      simpa [misses] using keeps.2 stop mem
    have kept := tracked.publish known (of_decide_eq_true guarded) keeps.1 tracks
    exact ⟨kept.listed, kept.unspawned, kept.dropped, kept.known, kept.called, kept.reached⟩
  | exit index => exact tracked.change stepped fun _ known _ => moves_kill tracked known true
  | timeout index =>
    exact tracked.change stepped fun _ known _ => moves_requestTermination tracked known .timeout
  | terminate index killed =>
    exact tracked.change stepped fun _ known _ => moves_kill tracked known killed
  | finish index failed =>
    exact tracked.change stepped fun _ known _ => moves_finish tracked known failed
  | prune expired =>
    cases stepped
    exact tracked.prune expired
  | stopOne commandId =>
    obtain ⟨index, -, rfl⟩ := Option.map_eq_some_iff.mp stepped
    exact tracked.modify fun _ known => moves_requestTermination tracked known .explicitStop
  | stop kind =>
    cases stepped
    exact tracked.stop kind
  | collect position =>
    obtain ⟨call, found, stepped⟩ := Option.bind_eq_some_iff.mp stepped
    obtain ⟨-, same⟩ := Option.ite_none_right_eq_some.mp stepped
    cases same
    exact tracked.collect found
  | request position =>
    obtain ⟨call, found, stepped⟩ := Option.bind_eq_some_iff.mp stepped
    split at stepped
    · next index rest phase =>
      cases stepped
      have kept : Tracked (registry.modify index (·.requestTermination call.kind.reason)) :=
        tracked.modify fun _ known => moves_requestTermination tracked known call.kind.reason
      have called : (registry.modify index
          (·.requestTermination call.kind.reason)).stops[position]? = some call := found
      have later : ∀ next : StopPhase, next.remaining = rest → ∀ other ∈ call.spawnedBefore,
          ∀ command : Command,
          (registry.modify index
            (·.requestTermination call.kind.reason)).commands[other]? = some command →
          call.kind.covers command = true →
          command.answers = true ∨ command.Unpublished ∨ other ∈ next.remaining := by
        intro next same other called command known covers
        have before := kept.reached call (List.mem_of_getElem? found) (by rw [phase]; nofun) other
          called command known covers
        rw [phase] at before
        rw [same]
        obtain answers | unpublished | remains := before
        · exact .inl answers
        · exact .inr (.inl unpublished)
        · obtain _ | ⟨_, mem⟩ := remains
          · obtain ⟨old, -, rfl⟩ := getElem?_modify known
            rw [if_pos rfl]
            exact .inl (answers_requestTermination _)
          · exact .inr (.inr mem)
      refine kept.setStop called _ fun _ => later _ ?_
      split <;> rfl
    · cases stepped
  | forceTerminate position killed =>
    obtain ⟨call, found, stepped⟩ := Option.bind_eq_some_iff.mp stepped
    split at stepped
    · next index rest phase =>
      cases stepped
      have kept : Tracked (registry.modify index (·.kill killed)) :=
        tracked.modify fun _ known => moves_kill tracked known killed
      have called : (registry.modify index (·.kill killed)).stops[position]? = some call := found
      refine kept.setStop called (.requesting rest) ?_
      intro _ other called command known covers
      have before := kept.reached call (List.mem_of_getElem? found) (by rw [phase]; nofun) other
        called command known covers
      rwa [phase] at before
    · cases stepped

theorem Tracked.stopped (tracked : Tracked registry) (quiet : registry.quiet = true) :
    registry.Stopped := by
  rw [Registry.quiet, Bool.and_eq_true, List.all_eq_true, List.all_eq_true] at quiet
  intro stop mem index called command known covers
  have done := of_decide_eq_true (quiet.2 stop mem)
  have started := of_decide_eq_true (quiet.1 command (List.mem_of_getElem? known))
  obtain answers | unpublished | remains :=
    tracked.reached stop mem (by rw [done]; nofun) index called command known covers
  · exact answers
  · obtain spawned | monitored := unpublished
    · rw [spawned] at started
      exact started.elim nofun nofun
    · rw [monitored] at started
      exact started.elim nofun nofun
  · rw [done] at remains
    cases remains

end Steps

/-- A run whose starts publish no live command behind the back of a stop stops every command it
should. -/
theorem stopped_of_keepsTrack {limits : BackgroundCommandLimits} {registry : Registry}
    (reached : (machine limits).ReachableWhile
      (fun registry action => keepsTrack registry action = true) registry)
    (quiet : registry.quiet = true) : registry.Stopped := by
  have keep : ∀ registry action registry', Tracked registry →
      keepsTrack registry action = true → step limits registry action = some registry' →
      Tracked registry' := fun _ _ _ tracked keeps stepped => tracked.step keeps stepped
  exact (reached.invariant tracked_start keep).stopped quiet

section Runs

private def limits : BackgroundCommandLimits :=
  { maxActivePerWorkspace := 4, maxOutputBytesPerCommand := 1, completedRetention := 0 }

/-- A start, and the shutdown after its publication. -/
private def published : List Action :=
  [.reserve [] none [], .spawn 0 true, .monitor 0, .publish 0, .stop .shutdownAll, .collect 0,
    .request 0, .forceTerminate 0 true]

theorem stopped_published : ∃ registry,
    (machine limits).runWhile keepsTrack {} published = some registry ∧ registry.Stopped := by
  have checks : ((machine limits).runWhile keepsTrack {} published).any Registry.quiet = true := by
    decide
  obtain ⟨registry, run, quiet⟩ := (Option.any_eq_true _ _).mp checks
  exact ⟨registry, run,
    stopped_of_keepsTrack (Machine.reachableWhile_of_runWhile .start run) quiet⟩

/-- A shutdown between the spawn and the publication. -/
private def overtaken : List Action :=
  [.reserve [] none [], .spawn 0 true, .stop .shutdownAll, .collect 0, .monitor 0, .publish 0]

/-- The shutdown misses the command, which runs on without a termination request. -/
theorem not_stopped : ¬ ∀ registry, (machine limits).Reachable registry →
    registry.quiet = true → registry.Stopped := by
  intro every
  have checks : ((machine limits).run {} overtaken).any (fun registry =>
      registry.quiet && registry.stops.any fun stop => stop.spawnedBefore.any fun index =>
        registry.commands[index]?.any fun command =>
          stop.kind.covers command && !command.answers) = true := by
    decide
  obtain ⟨registry, run, checks⟩ := (Option.any_eq_true _ _).mp checks
  rw [Bool.and_eq_true, List.any_eq_true] at checks
  obtain ⟨quiet, stop, mem, checks⟩ := checks
  obtain ⟨index, called, checks⟩ := List.any_eq_true.mp checks
  obtain ⟨command, known, checks⟩ := (Option.any_eq_true _ _).mp checks
  rw [Bool.and_eq_true, Bool.not_eq_true'] at checks
  have answers := every registry (Machine.reachable_of_run .start run) quiet stop mem index called
    command known checks.1
  rw [checks.2] at answers
  cases answers

end Runs

end Foco.CommandRegistry
