import Mathlib.Algebra.Group.Nat.Defs
import Mathlib.Data.List.Basic
import Foco.Maps
import Foco.RustText
import Foco.Runs

/-!
`app/runtime/code_graph.rs`: the registry of code graph indexes. A claim puts an entry for an
execution root into the map and starts a worker, which waits for the permit of the process,
indexes the directory and publishes what came of it; a release takes the entry out, cancels the
worker and waits for it. Every access resolves the root on the disk first.
-/
namespace Foco.CodeGraphRegistry
open Foco.RustText Foco.Maps Foco.Runs

/-! ## The registry and its workers -/

inductive CodeGraphEntryState where
  | initializing
  /-- The watcher, known by the worker that has started it. -/
  | ready (watcher : Nat)
  | failed (stage error : Text)

/-- An entry, with the worker whose claim has made it. -/
structure CodeGraphEntry where
  generation : Nat
  state : CodeGraphEntryState := .initializing
  initControl : Option Nat
  owner : Nat

/-- Where a worker stands, from its claim to the end of its thread. -/
inductive WorkerPhase where
  /-- The thread has not been spawned. -/
  | claimed
  | spawnFailed (error : Text)
  | started
  | queued
  | permitted
  | indexing
  /-- The index is done and its watcher runs. -/
  | indexed
  | completing
  | broken (error : Text)
  | failing (error : Text)
  /-- The worker has nothing more to publish and marks itself finished next. -/
  | leaving
  | finished
  | gone

/-- A worker with its claim token and its `CodeGraphInitControl`. -/
structure Worker where
  root : Text
  /-- What the root resolved to when it was claimed. -/
  key : Text
  generation : Nat
  phase : WorkerPhase := .claimed
  permit : Bool := false
  cancelled : Bool := false

/-- The worker has not been marked finished. -/
def WorkerPhase.running : WorkerPhase → Bool
  | .finished | .gone => false
  | _ => true

/-- The worker has still to publish, or to find itself cancelled. -/
def WorkerPhase.owes : WorkerPhase → Bool
  | .leaving | .finished | .gone => false
  | _ => true

/-- The worker has been let through the gate and has not finished its index. -/
def WorkerPhase.indexes : WorkerPhase → Bool
  | .permitted | .indexing => true
  | _ => false

/-- The next step of the worker publishes. -/
def WorkerPhase.publishes : WorkerPhase → Bool
  | .spawnFailed _ | .completing | .failing _ => true
  | _ => false

/-- Where a release stands, and the deletion of the worktree that some releases are for. -/
inductive ReleasePhase where
  | removed
  | cancelling
  | returned
  | restoring
  | done
deriving DecidableEq

structure Release where
  root : Text
  control : Option Nat
  deletes : Bool
  phase : ReleasePhase
  /-- The release has returned because the worker finished. -/
  finished : Bool := false

/-- `CodeGraphIndexState` with the workers, the releases, the process-wide gate and the disk. -/
structure Registry where
  /-- `std::fs::canonicalize`. -/
  disk : Text → Option Text
  entries : Map Text CodeGraphEntry := ∅
  nextGeneration : Nat := 0
  workers : List Worker := []
  releases : List Release := []
  /-- The permits that are out. -/
  active : Nat := 0

def maxConcurrentCodeGraphInits : Nat := 1

inductive CodeGraphReadinessError where
  | failed (executionRoot stage error : Text)

namespace Registry

/-- The generation of the next claim. -/
def generation (registry : Registry) : Nat := (registry.nextGeneration + 1) % 2 ^ 64

/-- The entry of a path lets a claim through. -/
def claimable (registry : Registry) (key : Text) : Bool :=
  match registry.entries.lookup key with
  | none => true
  | some entry => match entry.state with
    | .initializing | .ready _ => false
    | .failed _ _ => true

/-- `CodeGraphIndexState::claim`; the claim that succeeds has a worker to be spawned. -/
def claim (registry : Registry) (root : Text) : Registry :=
  match registry.disk root with
  | none => registry
  | some key =>
    if registry.claimable key then
      let worker := registry.workers.length
      { registry with
        nextGeneration := registry.generation
        entries := registry.entries.insert key
          { generation := registry.generation, initControl := some worker, owner := worker }
        workers := registry.workers ++ [{ root, key, generation := registry.generation }] }
    else registry

/-- What `complete` and `fail` have in common: the state is put into the entry that the root
resolves to, if its generation is that of the token. -/
def publish (registry : Registry) (worker : Worker) (state : CodeGraphEntryState) : Registry :=
  match registry.disk worker.root with
  | none => registry
  | some key => match registry.entries.lookup key with
    | none => registry
    | some entry =>
      if entry.generation = worker.generation then
        { registry with
          entries := registry.entries.insert key
            { entry with state := state, initControl := none } }
      else registry

/-- `CodeGraphIndexState::complete`. -/
def complete (registry : Registry) (worker : Worker) (watcher : Nat) : Registry :=
  registry.publish worker (.ready watcher)

/-- `CodeGraphIndexState::fail`. -/
def fail (registry : Registry) (worker : Worker) (stage error : Text) : Registry :=
  registry.publish worker (.failed stage error)

/-- `take_init_control_and_remove`, and how `release_code_graph_execution_root` goes on. -/
def release (registry : Registry) (root : Text) (deletes : Bool) : Registry :=
  match registry.disk root with
  | none =>
    { registry with
      releases := registry.releases ++ [{ root, control := none, deletes, phase := .returned }] }
  | some key =>
    let control := (registry.entries.lookup key).bind CodeGraphEntry.initControl
    { registry with
      entries := registry.entries.erase key
      releases := registry.releases ++
        [{ root, control, deletes, phase := if control.isSome then .removed else .returned }] }

def modify (registry : Registry) (index : Nat) (change : Worker → Worker) : Registry :=
  { registry with workers := registry.workers.modify index change }

def moveTo (registry : Registry) (index : Nat) (phase : WorkerPhase) : Registry :=
  registry.modify index fun worker => { worker with phase }

def takePermit (registry : Registry) (index : Nat) : Registry :=
  registry.modify index fun worker => { worker with phase := .permitted, permit := true }

def dropPermit (registry : Registry) (index : Nat) : Registry :=
  registry.modify index fun worker => { worker with phase := .gone, permit := false }

/-- The worker leaves if it has been cancelled, and goes on otherwise. -/
def unlessCancelled (registry : Registry) (index : Nat) (worker : Worker) (phase : WorkerPhase) :
    Registry :=
  registry.moveTo index (if worker.cancelled then .leaving else phase)

/-- The next step of a worker; the outcome is that of the spawn or of
`initialize_code_graph_execution_root` where the step is one of these. -/
def advance (registry : Registry) (index : Nat) (outcome : Except Text Unit) : Option Registry :=
  (registry.workers[index]?).bind fun worker =>
    match worker.phase with
    | .claimed => some (registry.moveTo index
        (match outcome with | .ok _ => .started | .error error => .spawnFailed error))
    | .spawnFailed error =>
      some ((registry.fail worker "spawn".toList error).moveTo index .leaving)
    | .started => some (registry.unlessCancelled index worker .queued)
    | .queued =>
      if worker.cancelled then some (registry.moveTo index .leaving)
      else if registry.active < maxConcurrentCodeGraphInits then
        some { registry.takePermit index with active := registry.active + 1 }
      else none
    | .permitted => some (registry.unlessCancelled index worker .indexing)
    | .indexing => some (registry.moveTo index
        (match outcome with | .ok _ => .indexed | .error error => .broken error))
    | .indexed => some (registry.unlessCancelled index worker .completing)
    | .completing => some ((registry.complete worker index).moveTo index .leaving)
    | .broken error => some (registry.unlessCancelled index worker (.failing error))
    | .failing error =>
      some ((registry.fail worker "initialize".toList error).moveTo index .leaving)
    | .leaving => some (registry.moveTo index .finished)
    | .finished =>
      some { registry.dropPermit index with
        active := if worker.permit then registry.active - 1 else registry.active }
    | .gone => none

def setRelease (registry : Registry) (call : Nat) (release : Release) : Registry :=
  { registry with releases := registry.releases.set call release }

/-- One pass of the loop of `wait_for_code_graph_ready`, without a deadline; `none` waits on. -/
def readiness (registry : Registry) (key : Text) : Option (Except CodeGraphReadinessError Unit) :=
  match registry.entries.lookup key with
  | none => some (.ok ())
  | some entry => match entry.state with
    | .ready _ => some (.ok ())
    | .failed stage error => some (.error (.failed key stage error))
    | .initializing => none

end Registry

inductive Action where
  /-- The directory of a root disappears, or comes back, there or elsewhere. -/
  | disk (root : Text) (key : Option Text)
  /-- `spawn_code_graph_execution_root_initialization_if_needed`. -/
  | claim (root : Text)
  | advance (worker : Nat) (outcome : Except Text Unit)
  | release (root : Text) (deletes : Bool)
  | requestCancel (call : Nat)
  | waitFinished (call : Nat)
  | waitTimedOut (call : Nat)
  /-- The end of the deletion that `release_code_graph_then_delete_worktree` runs. -/
  | delete (call : Nat) (succeeds : Bool)
  | restore (call : Nat)

/-- A step of a release that stands where it has to. -/
def stepRelease (registry : Registry) (call : Nat) (phase : ReleasePhase)
    (change : Release → Option Registry) : Option Registry :=
  (registry.releases[call]?).bind fun release =>
    if release.phase = phase then change release else none

def step (registry : Registry) : Action → Option Registry
  | .disk root key => some { registry with disk := Function.update registry.disk root key }
  | .claim root => some (registry.claim root)
  | .advance worker outcome => registry.advance worker outcome
  | .release root deletes => some (registry.release root deletes)
  | .requestCancel call => stepRelease registry call .removed fun release =>
      release.control.map fun control =>
        (registry.modify control fun worker => { worker with cancelled := true }).setRelease call
          { release with phase := .cancelling }
  | .waitFinished call => stepRelease registry call .cancelling fun release =>
      if release.control.any fun control =>
          registry.workers[control]?.any fun worker => !worker.phase.running then
        some (registry.setRelease call { release with phase := .returned, finished := true })
      else none
  | .waitTimedOut call => stepRelease registry call .cancelling fun release =>
      some (registry.setRelease call { release with phase := .returned })
  | .delete call succeeds => stepRelease registry call .returned fun release =>
      if release.deletes then
        some (registry.setRelease call { release with
          phase := if succeeds ∨ (registry.disk release.root).isNone then .done else .restoring })
      else none
  | .restore call => stepRelease registry call .restoring fun release =>
      some ((registry.claim release.root).setRelease call { release with phase := .done })

def machine (disk : Text → Option Text) : Machine Registry Action where
  start := { disk }
  step := step

/-! ## What the registry promises -/

/-- The entry that the claim of a worker has made is still in the map. -/
def Registry.Holds (registry : Registry) (index : Nat) (worker : Worker) : Prop :=
  ∃ entry, registry.entries.lookup worker.key = some entry ∧ entry.owner = index

/-- A claim starts a worker for the path. -/
def Registry.Starts (registry : Registry) (root key : Text) : Prop :=
  ∃ worker : Worker, (registry.claim root).workers = registry.workers ++ [worker] ∧
    worker.root = root ∧ worker.key = key

structure Behaves (registry : Registry) : Prop where
  oneIndexes : ∀ (index other : Nat) (worker another : Worker),
    registry.workers[index]? = some worker → registry.workers[other]? = some another →
    worker.phase = .indexing → another.phase = .indexing → index = other
  /-- A worker whose claim was released or superseded leaves the map alone. -/
  stale : ∀ (index : Nat) (worker : Worker) (outcome : Except Text Unit) (registry' : Registry),
    registry.workers[index]? = some worker → ¬registry.Holds index worker →
    step registry (.advance index outcome) = some registry' →
    registry'.entries = registry.entries
  /-- After a release that has seen the worker finish there is neither worker nor watcher. -/
  released : ∀ release ∈ registry.releases, release.finished = true →
    ∀ control, release.control = some control →
      (∀ worker, registry.workers[control]? = some worker → worker.phase.running = false) ∧
      ∀ key entry, registry.entries.lookup key = some entry → entry.state ≠ .ready control
  /-- While no worker runs, a wait is answered, and a claim starts a worker if the index of the
  path is not ready. -/
  idle : (∀ worker ∈ registry.workers, worker.phase.running = false) →
    (∀ key, (registry.readiness key).isSome = true) ∧
    ∀ root key, registry.disk root = some key → registry.Starts root key ∨
      ∃ entry watcher, registry.entries.lookup key = some entry ∧ entry.state = .ready watcher

/-- The generation of the next claim is in nobody's hands. -/
def Registry.fresh (registry : Registry) : Bool :=
  (registry.workers.all fun worker =>
    !worker.phase.running || decide (worker.generation ≠ registry.generation)) &&
  !registry.entries.any fun _ entry => entry.generation = registry.generation

/-- A worker publishes while its root resolves as it did when it was claimed, or after its entry
has been removed; a claim takes a generation that is not in use. -/
def publishesInPlace (registry : Registry) : Action → Bool
  | .advance index _ => registry.workers[index]?.all fun worker =>
      !worker.phase.publishes || decide (registry.disk worker.root = some worker.key) ||
        !(registry.entries.lookup worker.key).any fun entry => entry.owner = index
  | .claim _ | .restore _ => registry.fresh
  | _ => true

/-! ## The invariant -/

structure Sound (registry : Registry) : Prop where
  permits : ∀ (index : Nat) (worker : Worker), registry.workers[index]? = some worker →
    worker.permit = true → registry.active = 1
  unique : ∀ (index other : Nat) (worker another : Worker),
    registry.workers[index]? = some worker → registry.workers[other]? = some another →
    worker.permit = true → another.permit = true → index = other
  indexing : ∀ (index : Nat) (worker : Worker), registry.workers[index]? = some worker →
    worker.phase.indexes = true → worker.permit = true
  /-- An entry belongs to the worker of its claim, which has still to publish if the entry is
  initializing. -/
  owned : ∀ (key : Text) (entry : CodeGraphEntry), registry.entries.lookup key = some entry →
    ∃ worker : Worker, registry.workers[entry.owner]? = some worker ∧ worker.key = key ∧
      worker.generation = entry.generation ∧
      (entry.state = .initializing → worker.phase.owes = true)
  control : ∀ (key : Text) (entry : CodeGraphEntry), registry.entries.lookup key = some entry →
    ∀ control, entry.initControl = some control → control = entry.owner
  watcher : ∀ (key : Text) (entry : CodeGraphEntry), registry.entries.lookup key = some entry →
    ∀ watcher, entry.state = .ready watcher → watcher = entry.owner
  /-- Of the workers that have not finished only the owner has the generation of an entry. -/
  apart : ∀ (key : Text) (entry : CodeGraphEntry), registry.entries.lookup key = some entry →
    ∀ (index : Nat) (worker : Worker), registry.workers[index]? = some worker →
      worker.phase.running = true → worker.generation = entry.generation → index = entry.owner
  cancelled : ∀ (index : Nat) (worker : Worker), registry.workers[index]? = some worker →
    worker.cancelled = true →
    ∀ key entry, registry.entries.lookup key = some entry → entry.owner ≠ index
  removed : ∀ release ∈ registry.releases, ∀ control, release.control = some control →
    control < registry.workers.length ∧
    ∀ key entry, registry.entries.lookup key = some entry → entry.owner ≠ control
  finished : ∀ release ∈ registry.releases, release.finished = true →
    ∀ control, release.control = some control →
    ∀ worker : Worker, registry.workers[control]? = some worker → worker.phase.running = false

section Steps

variable {registry : Registry} {index : Nat} {worker : Worker}

theorem getElem?_modify {change : Worker → Worker} {other : Nat} {after : Worker}
    (found : (registry.modify index change).workers[other]? = some after) :
    ∃ before, registry.workers[other]? = some before ∧
      after = if index = other then change before else before := by
  rw [Registry.modify, List.getElem?_modify] at found
  obtain ⟨before, known, rfl⟩ := Option.map_eq_some_iff.mp found
  refine ⟨before, known, ?_⟩
  split <;> rfl

/-- What a step of a worker may do to its record: it keeps its claim, and where it no longer owes
a publication its entry is not initializing. -/
structure Moves (registry : Registry) (index : Nat) (before after : Worker) : Prop where
  key : after.key = before.key
  generation : after.generation = before.generation
  cancelled : after.cancelled = true →
    ∀ key entry, registry.entries.lookup key = some entry → entry.owner ≠ index
  running : after.phase.running = true → before.phase.running = true
  owes : before.phase.owes = true → after.phase.owes = true ∨
    ∀ key entry, registry.entries.lookup key = some entry → entry.owner = index →
      entry.state ≠ .initializing

/-- A step of a worker that leaves the permits to be looked at. -/
theorem Sound.modify (sound : Sound registry) (known : registry.workers[index]? = some worker)
    {change : Worker → Worker} (moves : Moves registry index worker (change worker))
    (active : Nat)
    (permits : ∀ (other : Nat) (after : Worker),
      (registry.modify index change).workers[other]? = some after → after.permit = true →
      active = 1)
    (unique : ∀ (other third : Nat) (after last : Worker),
      (registry.modify index change).workers[other]? = some after →
      (registry.modify index change).workers[third]? = some last →
      after.permit = true → last.permit = true → other = third)
    (indexing : (change worker).phase.indexes = true → (change worker).permit = true) :
    Sound { registry.modify index change with active := active } := by
  have moved : ∀ (other : Nat) (after : Worker),
      (registry.modify index change).workers[other]? = some after →
      (other = index ∧ after = change worker) ∨ registry.workers[other]? = some after := by
    intro other after found
    obtain ⟨before, was, rfl⟩ := getElem?_modify found
    split
    · next same =>
      subst same
      cases known.symm.trans was
      exact .inl ⟨rfl, rfl⟩
    · exact .inr was
  refine ⟨permits, unique, ?_, ?_, ?_, ?_, ?_, ?_, ?_, ?_⟩
  · intro other after found ready
    obtain ⟨rfl, rfl⟩ | was := moved other after found
    · exact indexing ready
    · exact sound.indexing other after was ready
  · intro key entry found
    obtain ⟨owner, was, place, same, owes⟩ := sound.owned key entry found
    have now := List.getElem?_modify change index registry.workers entry.owner
    rw [was, Option.map_eq_map, Option.map_some] at now
    by_cases mine : index = entry.owner
    · subst mine
      cases known.symm.trans was
      rw [if_pos rfl] at now
      refine ⟨_, now, moves.key.trans place, moves.generation.trans same, fun waiting => ?_⟩
      exact (moves.owes (owes waiting)).resolve_right fun none =>
        none key entry found rfl waiting
    · rw [if_neg mine] at now
      exact ⟨_, now, place, same, owes⟩
  · exact sound.control
  · exact sound.watcher
  · intro key entry found other after was runs same
    obtain ⟨rfl, rfl⟩ | was := moved other after was
    · exact sound.apart key entry found other worker known (moves.running runs)
        (moves.generation.symm.trans same)
    · exact sound.apart key entry found other after was runs same
  · intro other after was gone
    obtain ⟨rfl, rfl⟩ | was := moved other after was
    · exact moves.cancelled gone
    · exact sound.cancelled other after was gone
  · intro release mem control taken
    obtain ⟨within, absent⟩ := sound.removed release mem control taken
    refine ⟨?_, absent⟩
    change control < (registry.workers.modify index change).length
    rwa [List.length_modify]
  · intro release mem done control taken after was
    obtain ⟨rfl, rfl⟩ | was := moved control after was
    · have ended := sound.finished release mem done control taken worker known
      rw [← Bool.not_eq_true] at ended ⊢
      exact fun runs => ended (moves.running runs)
    · exact sound.finished release mem done control taken after was

/-- A step of a worker that keeps its permit. -/
theorem Sound.modifyKeeping (sound : Sound registry)
    (known : registry.workers[index]? = some worker) {change : Worker → Worker}
    (moves : Moves registry index worker (change worker))
    (permit : (change worker).permit = worker.permit)
    (indexing : (change worker).phase.indexes = true → worker.permit = true) :
    Sound (registry.modify index change) := by
  have holds : ∀ (other : Nat) (after : Worker),
      (registry.modify index change).workers[other]? = some after → after.permit = true →
      ∃ before, registry.workers[other]? = some before ∧ before.permit = true := by
    intro other after found held
    obtain ⟨before, was, rfl⟩ := getElem?_modify found
    refine ⟨before, was, ?_⟩
    split at held
    · next same =>
      subst same
      cases known.symm.trans was
      rwa [permit] at held
    · exact held
  refine sound.modify known moves registry.active ?_ ?_ (permit.symm ▸ indexing)
  · intro other after found held
    obtain ⟨before, was, held⟩ := holds other after found held
    exact sound.permits other before was held
  · intro other third after last found also held too
    obtain ⟨before, was, held⟩ := holds other after found held
    obtain ⟨third, were, too⟩ := holds third last also too
    exact sound.unique _ _ before third was were held too

theorem Sound.moveTo (sound : Sound registry) (known : registry.workers[index]? = some worker)
    {phase : WorkerPhase} (running : worker.phase.running = true)
    (owes : worker.phase.owes = true → phase.owes = true ∨
      ∀ key entry, registry.entries.lookup key = some entry → entry.owner = index →
        entry.state ≠ .initializing)
    (indexing : phase.indexes = true → worker.permit = true) :
    Sound (registry.moveTo index phase) :=
  sound.modifyKeeping known
    ⟨rfl, rfl, fun gone => sound.cancelled index worker known gone, fun _ => running, owes⟩
    rfl indexing

theorem Sound.unlessCancelled (sound : Sound registry)
    (known : registry.workers[index]? = some worker) {phase : WorkerPhase}
    (running : worker.phase.running = true) (owes : phase.owes = true)
    (indexing : phase.indexes = true → worker.permit = true) :
    Sound (registry.unlessCancelled index worker phase) := by
  unfold Registry.unlessCancelled
  split
  · next gone =>
    exact sound.moveTo known running (fun _ => .inr fun key entry found mine =>
      absurd mine (sound.cancelled index worker known gone key entry found)) nofun
  · exact sound.moveTo known running (fun _ => .inl owes) indexing

/-! ### Publications -/

theorem publish_cases (registry : Registry) (worker : Worker) (state : CodeGraphEntryState) :
    (registry.publish worker state = registry ∧
      ∀ key entry, registry.disk worker.root = some key →
        registry.entries.lookup key = some entry → entry.generation ≠ worker.generation) ∨
    ∃ key entry, registry.disk worker.root = some key ∧
      registry.entries.lookup key = some entry ∧ entry.generation = worker.generation ∧
      registry.publish worker state = { registry with
        entries := registry.entries.insert key
          { entry with state := state, initControl := none } } := by
  unfold Registry.publish
  split
  · next unresolved =>
    rw [unresolved]
    exact .inl ⟨rfl, nofun⟩
  · next key resolved =>
    rw [resolved]
    split
    · next absent =>
      refine .inl ⟨rfl, fun other entry same found => ?_⟩
      cases same
      cases absent.symm.trans found
    · next entry found =>
      split
      · next same => exact .inr ⟨key, entry, rfl, found, same, rfl⟩
      · next apart =>
        refine .inl ⟨rfl, fun other entry' same found' => ?_⟩
        cases same
        cases found.symm.trans found'
        exact apart

/-- An entry after a publication was there before it, and either it is the same or the worker has
published into it. -/
theorem lookup_publish {state : CodeGraphEntryState} {key : Text} {after : CodeGraphEntry}
    (found : (registry.publish worker state).entries.lookup key = some after) :
    ∃ entry, registry.entries.lookup key = some entry ∧ after.owner = entry.owner ∧
      after.generation = entry.generation ∧
      (after = entry ∨ (entry.generation = worker.generation ∧ after.state = state ∧
        after.initControl = none)) := by
  obtain ⟨same, -⟩ | ⟨place, entry, -, was, same, eq⟩ := publish_cases registry worker state
  · rw [same] at found
    exact ⟨after, found, rfl, rfl, .inl rfl⟩
  · rw [eq, Map.lookup_insert_eq_ite] at found
    split at found
    · next here =>
      subst here
      cases found
      exact ⟨entry, was, rfl, rfl, .inr ⟨same, rfl, rfl⟩⟩
    · exact ⟨after, found, rfl, rfl, .inl rfl⟩

theorem publish_rest (registry : Registry) (worker : Worker) (state : CodeGraphEntryState) :
    (registry.publish worker state).workers = registry.workers ∧
      (registry.publish worker state).releases = registry.releases ∧
      (registry.publish worker state).active = registry.active := by
  obtain ⟨same, -⟩ | ⟨_, _, -, -, -, eq⟩ := publish_cases registry worker state
  · rw [same]
    exact ⟨rfl, rfl, rfl⟩
  · rw [eq]
    exact ⟨rfl, rfl, rfl⟩

theorem Sound.publish (sound : Sound registry) (known : registry.workers[index]? = some worker)
    (running : worker.phase.running = true) {state : CodeGraphEntryState}
    (settles : state ≠ .initializing) (mine : ∀ watcher, state = .ready watcher → watcher = index) :
    Sound (registry.publish worker state) := by
  obtain ⟨workers, releases, active⟩ := publish_rest registry worker state
  have owners : ∀ {owner : Nat},
      (∀ key entry, registry.entries.lookup key = some entry → entry.owner ≠ owner) →
      ∀ key entry, (registry.publish worker state).entries.lookup key = some entry →
        entry.owner ≠ owner := by
    intro owner none key after found
    obtain ⟨entry, was, same, -⟩ := lookup_publish found
    rw [same]
    exact none key entry was
  refine ⟨?_, ?_, ?_, ?_, ?_, ?_, ?_, ?_, ?_, ?_⟩
  · rw [workers, active]
    exact sound.permits
  · rw [workers]
    exact sound.unique
  · rw [workers]
    exact sound.indexing
  · intro key after found
    obtain ⟨entry, was, owner, generation, rest⟩ := lookup_publish found
    obtain ⟨holder, there, place, same, owes⟩ := sound.owned key entry was
    rw [workers, owner, generation]
    refine ⟨holder, there, place, same, fun waiting => ?_⟩
    obtain rfl | ⟨-, now, -⟩ := rest
    · exact owes waiting
    · exact absurd (now.symm.trans waiting) settles
  · intro key after found control held
    obtain ⟨entry, was, owner, -, rest⟩ := lookup_publish found
    obtain rfl | ⟨-, -, dropped⟩ := rest
    · exact sound.control key after was control held
    · cases dropped.symm.trans held
  · intro key after found watcher ready
    obtain ⟨entry, was, owner, -, rest⟩ := lookup_publish found
    obtain rfl | ⟨same, now, -⟩ := rest
    · exact sound.watcher key after was watcher ready
    · rw [owner, mine watcher (now.symm.trans ready)]
      exact sound.apart key entry was index worker known running same.symm
  · intro key after found other holder there runs same
    obtain ⟨entry, was, owner, generation, -⟩ := lookup_publish found
    rw [workers] at there
    rw [owner]
    exact sound.apart key entry was other holder there runs (same.trans generation)
  · intro other holder there gone
    rw [workers] at there
    exact owners (sound.cancelled other holder there gone)
  · rw [releases, workers]
    intro release mem control taken
    obtain ⟨within, none⟩ := sound.removed release mem control taken
    exact ⟨within, owners none⟩
  · rw [releases, workers]
    exact sound.finished

/-- After a publication in place the entry of the worker is no longer initializing. -/
theorem Sound.published (sound : Sound registry) (known : registry.workers[index]? = some worker)
    {state : CodeGraphEntryState} (settles : state ≠ .initializing)
    (inPlace : registry.disk worker.root = some worker.key ∨
      ∀ entry, registry.entries.lookup worker.key = some entry → entry.owner ≠ index)
    {key : Text} {after : CodeGraphEntry}
    (found : (registry.publish worker state).entries.lookup key = some after)
    (mine : after.owner = index) : after.state ≠ .initializing := by
  obtain ⟨entry, was, owner, -, rest⟩ := lookup_publish found
  obtain ⟨holder, there, place, same, -⟩ := sound.owned key entry was
  rw [← owner, mine, known] at there
  cases there
  subst place
  obtain rfl | ⟨-, now, -⟩ := rest
  · have resolved := inPlace.resolve_right fun none => none after was mine
    obtain ⟨-, ignored⟩ | ⟨other, entry, alike, -, -, eq⟩ := publish_cases registry worker state
    · exact absurd same.symm (ignored _ _ resolved was)
    · cases resolved.symm.trans alike
      rw [eq, Map.lookup_insert_eq_ite, if_pos rfl] at found
      cases found
      exact settles
  · rw [now]
    exact settles

/-- A worker whose claim is gone publishes nothing. -/
theorem Sound.publish_stale (sound : Sound registry)
    (known : registry.workers[index]? = some worker) (running : worker.phase.running = true)
    (gone : ¬registry.Holds index worker) (state : CodeGraphEntryState) :
    (registry.publish worker state).entries = registry.entries := by
  obtain ⟨same, -⟩ | ⟨key, entry, -, was, same, -⟩ := publish_cases registry worker state
  · rw [same]
  · have mine := sound.apart key entry was index worker known running same.symm
    obtain ⟨holder, there, place, -, -⟩ := sound.owned key entry was
    rw [← mine, known] at there
    cases there
    subst place
    exact absurd ⟨entry, was, mine.symm⟩ gone

/-- A worker publishes and has nothing more to do than to mark itself finished. -/
theorem Sound.publishAndLeave (sound : Sound registry)
    (known : registry.workers[index]? = some worker) (running : worker.phase.running = true)
    {state : CodeGraphEntryState} (settles : state ≠ .initializing)
    (mine : ∀ watcher, state = .ready watcher → watcher = index)
    (inPlace : registry.disk worker.root = some worker.key ∨
      ∀ entry, registry.entries.lookup worker.key = some entry → entry.owner ≠ index) :
    Sound ((registry.publish worker state).moveTo index .leaving) := by
  have there : (registry.publish worker state).workers[index]? = some worker := by
    rw [(publish_rest registry worker state).1]
    exact known
  exact (sound.publish known running settles mine).moveTo there running
    (fun _ => .inr fun key entry found owner =>
      sound.published known settles inPlace found owner) nofun

/-! ### Claims and releases -/

theorem Sound.claim (sound : Sound registry) (fresh : registry.fresh = true) (root : Text) :
    Sound (registry.claim root) := by
  unfold Registry.claim
  split
  · exact sound
  next key resolved =>
  split
  · obtain ⟨noWorker, noEntry⟩ := Bool.and_eq_true_iff.mp fresh
    rw [Bool.not_eq_true', ← Bool.not_eq_true] at noEntry
    have apartWorkers : ∀ (index : Nat) (worker : Worker),
        registry.workers[index]? = some worker → worker.phase.running = true →
        worker.generation ≠ registry.generation := by
      intro index worker known running
      have one := List.all_eq_true.mp noWorker worker (List.mem_of_getElem? known)
      rw [running, Bool.not_true, Bool.false_or, decide_eq_true_eq] at one
      exact one
    have apartEntries : ∀ (key : Text) (entry : CodeGraphEntry),
        registry.entries.lookup key = some entry → entry.generation ≠ registry.generation :=
      fun key entry found same =>
        noEntry (Map.any_eq_true.mpr ⟨key, entry, found, decide_eq_true same⟩)
    have split_ : ∀ (index : Nat) (worker : Worker),
        (registry.workers ++ [({ root, key, generation := registry.generation } : Worker)])[index]? =
          some worker → registry.workers[index]? = some worker ∨
            (index = registry.workers.length ∧
              worker = { root, key, generation := registry.generation }) := by
      intro index worker found
      obtain ⟨within, eq⟩ := List.getElem?_eq_some_iff.mp found
      rw [List.length_append, List.length_singleton] at within
      by_cases before : index < registry.workers.length
      · rw [List.getElem?_append_left before] at found
        exact .inl found
      · obtain rfl : index = registry.workers.length := by omega
        rw [List.getElem?_append_right (Nat.le_refl _), Nat.sub_self] at found
        cases found
        exact .inr ⟨rfl, rfl⟩
    have grown : ∀ {index : Nat} {worker : Worker}, registry.workers[index]? = some worker →
        (registry.workers ++ [({ root, key, generation := registry.generation } : Worker)])[index]? =
          some worker := by
      intro index worker known
      rw [List.getElem?_append_left (List.getElem?_eq_some_iff.mp known).1]
      exact known
    have looked : ∀ (other : Text) (entry : CodeGraphEntry),
        (registry.entries.insert key
          ⟨registry.generation, .initializing, some registry.workers.length,
            registry.workers.length⟩).lookup other = some entry →
        registry.entries.lookup other = some entry ∨ (other = key ∧
          entry = ⟨registry.generation, .initializing, some registry.workers.length,
            registry.workers.length⟩) := by
      intro other entry found
      rw [Map.lookup_insert_eq_ite] at found
      split at found
      · next here =>
        cases found
        exact .inr ⟨here, rfl⟩
      · exact .inl found
    have length_ne : ∀ {index : Nat} {worker : Worker}, registry.workers[index]? = some worker →
        registry.workers.length ≠ index := by
      intro index worker known
      have within := (List.getElem?_eq_some_iff.mp known).1
      omega
    refine ⟨?_, ?_, ?_, ?_, ?_, ?_, ?_, ?_, ?_, ?_⟩
    · intro index worker found held
      obtain known | ⟨-, rfl⟩ := split_ index worker found
      · exact sound.permits index worker known held
      · cases held
    · intro index other worker another found also held too
      obtain known | ⟨-, rfl⟩ := split_ index worker found
      · obtain there | ⟨-, rfl⟩ := split_ other another also
        · exact sound.unique index other worker another known there held too
        · cases too
      · cases held
    · intro index worker found ready
      obtain known | ⟨-, rfl⟩ := split_ index worker found
      · exact sound.indexing index worker known ready
      · cases ready
    · intro other entry found
      obtain was | ⟨rfl, rfl⟩ := looked other entry found
      · obtain ⟨holder, there, rest⟩ := sound.owned other entry was
        exact ⟨holder, grown there, rest⟩
      · exact ⟨{ root, key := other, generation := registry.generation },
          List.getElem?_concat_length, rfl, rfl, fun _ => rfl⟩
    · intro other entry found control held
      obtain was | ⟨rfl, rfl⟩ := looked other entry found
      · exact sound.control other entry was control held
      · cases held
        rfl
    · intro other entry found watcher ready
      obtain was | ⟨rfl, rfl⟩ := looked other entry found
      · exact sound.watcher other entry was watcher ready
      · cases ready
    · intro other entry found index worker there running same
      obtain was | ⟨rfl, rfl⟩ := looked other entry found
      · obtain known | ⟨-, rfl⟩ := split_ index worker there
        · exact sound.apart other entry was index worker known running same
        · exact absurd same.symm (apartEntries other entry was)
      · obtain known | ⟨rfl, -⟩ := split_ index worker there
        · exact absurd same (apartWorkers index worker known running)
        · rfl
    · intro index worker there gone other entry found
      obtain known | ⟨-, rfl⟩ := split_ index worker there
      · obtain was | ⟨-, rfl⟩ := looked other entry found
        · exact sound.cancelled index worker known gone other entry was
        · exact length_ne known
      · cases gone
    · intro release mem control taken
      obtain ⟨within, none⟩ := sound.removed release mem control taken
      refine ⟨?_, fun other entry found => ?_⟩
      · change control < (registry.workers ++ [_]).length
        rw [List.length_append]
        omega
      · obtain was | ⟨-, rfl⟩ := looked other entry found
        · exact none other entry was
        · exact Nat.ne_of_gt within
    · intro release mem done control taken worker there
      have within := (sound.removed release mem control taken).1
      obtain known | ⟨rfl, -⟩ := split_ control worker there
      · exact sound.finished release mem done control taken worker known
      · omega
  · exact sound

theorem releases_claim (registry : Registry) (root : Text) :
    (registry.claim root).releases = registry.releases := by
  unfold Registry.claim
  split
  · rfl
  · split <;> rfl

/-- A release that has taken entries out of the map. -/
theorem Sound.addRelease (sound : Sound registry) {entries : Map Text CodeGraphEntry}
    (sub : ∀ key entry, entries.lookup key = some entry → registry.entries.lookup key = some entry)
    {release : Release}
    (removed : ∀ control, release.control = some control → control < registry.workers.length ∧
      ∀ key entry, entries.lookup key = some entry → entry.owner ≠ control)
    (begun : release.finished = false) :
    Sound { registry with entries := entries, releases := registry.releases ++ [release] } where
  permits := sound.permits
  unique := sound.unique
  indexing := sound.indexing
  owned := fun key entry found => sound.owned key entry (sub key entry found)
  control := fun key entry found => sound.control key entry (sub key entry found)
  watcher := fun key entry found => sound.watcher key entry (sub key entry found)
  apart := fun key entry found => sound.apart key entry (sub key entry found)
  cancelled := fun index worker known gone key entry found =>
    sound.cancelled index worker known gone key entry (sub key entry found)
  removed := by
    intro other mem control taken
    obtain old | new := List.mem_append.mp mem
    · obtain ⟨within, none⟩ := sound.removed other old control taken
      exact ⟨within, fun key entry found => none key entry (sub key entry found)⟩
    · cases List.mem_singleton.mp new
      exact removed control taken
  finished := by
    intro other mem done
    obtain old | new := List.mem_append.mp mem
    · exact sound.finished other old done
    · cases List.mem_singleton.mp new
      cases begun.symm.trans done

theorem Sound.release (sound : Sound registry) (root : Text) (deletes : Bool) :
    Sound (registry.release root deletes) := by
  unfold Registry.release
  split
  · exact sound.addRelease (fun _ _ found => found) nofun rfl
  next key resolved =>
  have erased : ∀ other entry, (registry.entries.erase key).lookup other = some entry →
      other ≠ key ∧ registry.entries.lookup other = some entry := by
    intro other entry found
    rw [Map.lookup_erase_eq_ite] at found
    split at found
    · cases found
    · next apart => exact ⟨apart, found⟩
  refine sound.addRelease (fun other entry found => (erased other entry found).2) ?_ rfl
  intro control taken
  obtain ⟨entry, was, held⟩ := Option.bind_eq_some_iff.mp taken
  obtain rfl := sound.control key entry was control held
  obtain ⟨worker, there, place, -, -⟩ := sound.owned key entry was
  refine ⟨(List.getElem?_eq_some_iff.mp there).1, fun other left found mine => ?_⟩
  obtain ⟨apart, also⟩ := erased other left found
  obtain ⟨holder, same, elsewhere, -, -⟩ := sound.owned other left also
  rw [mine, there] at same
  cases same
  exact apart (elsewhere.symm.trans place)

theorem Sound.setRelease (sound : Sound registry) {call : Nat} {before after : Release}
    (known : registry.releases[call]? = some before) (control : after.control = before.control)
    (finished : after.finished = true → before.finished = true ∨
      ∀ index, before.control = some index →
        ∀ worker, registry.workers[index]? = some worker → worker.phase.running = false) :
    Sound (registry.setRelease call after) := by
  have mem := List.mem_of_getElem? known
  refine { sound with removed := ?_, finished := ?_ }
  · intro release set index taken
    obtain old | rfl := List.mem_or_eq_of_mem_set set
    · exact sound.removed release old index taken
    · exact sound.removed before mem index (control.symm.trans taken)
  · intro release set done index taken
    obtain old | rfl := List.mem_or_eq_of_mem_set set
    · exact sound.finished release old done index taken
    · have taken := control.symm.trans taken
      obtain already | ended := finished done
      · exact sound.finished before mem already index taken
      · exact ended index taken

theorem stepRelease_eq_some {call : Nat} {phase : ReleasePhase}
    {change : Release → Option Registry} {registry' : Registry}
    (stepped : stepRelease registry call phase change = some registry') :
    ∃ release, registry.releases[call]? = some release ∧ release.phase = phase ∧
      change release = some registry' := by
  obtain ⟨release, known, stepped⟩ := Option.bind_eq_some_iff.mp stepped
  obtain ⟨stands, changed⟩ := Option.ite_none_right_eq_some.mp stepped
  exact ⟨release, known, stands, changed⟩

theorem Sound.advance (sound : Sound registry) {outcome : Except Text Unit}
    {registry' : Registry} (inPlace : publishesInPlace registry (.advance index outcome) = true)
    (stepped : registry.advance index outcome = some registry') : Sound registry' := by
  obtain ⟨worker, known, stepped⟩ := Option.bind_eq_some_iff.mp stepped
  have publishing : worker.phase.publishes = true → registry.disk worker.root = some worker.key ∨
      ∀ entry, registry.entries.lookup worker.key = some entry → entry.owner ≠ index := by
    intro publishes
    rw [publishesInPlace, known, Option.all_some, publishes, Bool.not_true, Bool.false_or,
      Bool.or_eq_true, decide_eq_true_eq] at inPlace
    refine inPlace.imp_right fun none entry found mine => ?_
    rw [found, Option.any_some, mine, decide_eq_true rfl] at none
    cases none
  cases phase : worker.phase with
  | claimed =>
    rw [phase] at stepped
    cases stepped
    refine sound.moveTo known (phase ▸ rfl) (fun _ => .inl ?_) ?_
    · split <;> rfl
    · split <;> nofun
  | spawnFailed error =>
    rw [phase] at stepped publishing
    cases stepped
    exact sound.publishAndLeave known (phase ▸ rfl) nofun nofun (publishing rfl)
  | started =>
    rw [phase] at stepped
    cases stepped
    exact sound.unlessCancelled known (phase ▸ rfl) rfl nofun
  | queued =>
    rw [phase] at stepped
    dsimp only at stepped
    split at stepped
    · next gone =>
      cases stepped
      exact sound.moveTo known (phase ▸ rfl) (fun _ => .inr fun key entry found mine =>
        absurd mine (sound.cancelled index worker known gone key entry found)) nofun
    · obtain ⟨free, eq⟩ := Option.ite_none_right_eq_some.mp stepped
      cases eq
      have none : registry.active = 0 := Nat.lt_one_iff.mp free
      -- With no permit out nobody else has one.
      have alone : ∀ (other : Nat) (after : Worker),
          (registry.takePermit index).workers[other]? = some after → after.permit = true →
          other = index := by
        intro other after found held
        obtain ⟨before, was, rfl⟩ := getElem?_modify found
        split at held
        · next same => exact same.symm
        · have one := sound.permits other before was held
          omega
      refine sound.modify known ⟨rfl, rfl, ?_, fun _ => phase ▸ rfl, fun _ => .inl rfl⟩
        (registry.active + 1) ?_ ?_ fun _ => rfl
      · exact fun gone => sound.cancelled index worker known gone
      · intro _ _ _ _
        omega
      · intro other third after last found also held too
        rw [alone other after found held, alone third last also too]
  | permitted =>
    rw [phase] at stepped
    cases stepped
    exact sound.unlessCancelled known (phase ▸ rfl) rfl fun _ =>
      sound.indexing index worker known (phase ▸ rfl)
  | indexing =>
    rw [phase] at stepped
    cases stepped
    refine sound.moveTo known (phase ▸ rfl) (fun _ => .inl ?_) ?_
    · split <;> rfl
    · split <;> nofun
  | indexed =>
    rw [phase] at stepped
    cases stepped
    exact sound.unlessCancelled known (phase ▸ rfl) rfl nofun
  | completing =>
    rw [phase] at stepped publishing
    cases stepped
    refine sound.publishAndLeave known (phase ▸ rfl) nofun ?_ (publishing rfl)
    rintro _ ⟨⟩
    rfl
  | broken error =>
    rw [phase] at stepped
    cases stepped
    exact sound.unlessCancelled known (phase ▸ rfl) rfl nofun
  | failing error =>
    rw [phase] at stepped publishing
    cases stepped
    exact sound.publishAndLeave known (phase ▸ rfl) nofun nofun (publishing rfl)
  | leaving =>
    rw [phase] at stepped
    cases stepped
    exact sound.moveTo known (phase ▸ rfl) (fun owes => by rw [phase] at owes; cases owes) nofun
  | finished =>
    rw [phase] at stepped
    cases stepped
    have others : ∀ (other : Nat) (after : Worker),
        (registry.dropPermit index).workers[other]? = some after → after.permit = true →
        other ≠ index ∧ registry.workers[other]? = some after := by
      intro other after found held
      obtain ⟨before, was, rfl⟩ := getElem?_modify found
      split at held
      · cases held
      · next apart =>
        rw [if_neg apart]
        exact ⟨Ne.symm apart, was⟩
    refine sound.modify known ⟨rfl, rfl, ?_, ?_, ?_⟩ _ ?_ ?_ ?_
    · exact fun gone => sound.cancelled index worker known gone
    · intro runs
      cases runs
    · intro owes
      rw [phase] at owes
      cases owes
    · intro other after found held
      obtain ⟨apart, was⟩ := others other after found held
      split
      · next mine =>
        exact absurd (sound.unique other index after worker was known held mine) apart
      · exact sound.permits other after was held
    · intro other third after last found also held too
      exact sound.unique other third after last (others other after found held).2
        (others third last also too).2 held too
    · intro indexes
      cases indexes
  | gone =>
    rw [phase] at stepped
    cases stepped

end Steps

theorem Sound.step {registry registry' : Registry} {action : Action} (sound : Sound registry)
    (inPlace : publishesInPlace registry action = true)
    (stepped : step registry action = some registry') : Sound registry' := by
  cases action with
  | disk root key =>
    cases stepped
    exact { sound with }
  | claim root =>
    cases stepped
    exact sound.claim inPlace root
  | advance index outcome => exact sound.advance inPlace stepped
  | release root deletes =>
    cases stepped
    exact sound.release root deletes
  | requestCancel call =>
    obtain ⟨release, known, -, changed⟩ := stepRelease_eq_some stepped
    obtain ⟨control, held, rfl⟩ := Option.map_eq_some_iff.mp changed
    obtain ⟨within, none⟩ := sound.removed release (List.mem_of_getElem? known) control held
    have there := List.getElem?_eq_getElem within
    have marked : Sound (registry.modify control fun worker => { worker with cancelled := true }) :=
      sound.modifyKeeping there ⟨rfl, rfl, fun _ => none, id, .inl⟩ rfl
        (sound.indexing control registry.workers[control] there)
    exact marked.setRelease known rfl .inl
  | waitFinished call =>
    obtain ⟨release, known, -, changed⟩ := stepRelease_eq_some stepped
    obtain ⟨settles, eq⟩ := Option.ite_none_right_eq_some.mp changed
    cases eq
    refine sound.setRelease known rfl fun _ => .inr fun index held worker there => ?_
    rw [held, Option.any_some, there, Option.any_some, Bool.not_eq_true'] at settles
    exact settles
  | waitTimedOut call =>
    obtain ⟨release, known, -, changed⟩ := stepRelease_eq_some stepped
    cases changed
    exact sound.setRelease known rfl .inl
  | delete call succeeds =>
    obtain ⟨release, known, -, changed⟩ := stepRelease_eq_some stepped
    obtain ⟨-, eq⟩ := Option.ite_none_right_eq_some.mp changed
    cases eq
    exact sound.setRelease known rfl .inl
  | restore call =>
    obtain ⟨release, known, -, changed⟩ := stepRelease_eq_some stepped
    cases changed
    have kept : (registry.claim release.root).releases[call]? = some release := by
      rw [releases_claim]
      exact known
    exact (sound.claim inPlace release.root).setRelease kept rfl .inl

theorem sound_start (disk : Text → Option Text) : Sound (machine disk).start where
  permits := by simp [machine]
  unique := by simp [machine]
  indexing := by simp [machine]
  owned := by simp [machine]
  control := by simp [machine]
  watcher := by simp [machine]
  apart := by simp [machine]
  cancelled := by simp [machine]
  removed := by simp [machine]
  finished := by simp [machine]

/-! ## What holds in every run -/

section Promises

variable {registry registry' : Registry} {index : Nat} {worker : Worker}

/-- Only a publication of a worker touches the map. -/
theorem Sound.stale (sound : Sound registry) {outcome : Except Text Unit}
    (known : registry.workers[index]? = some worker) (gone : ¬registry.Holds index worker)
    (stepped : registry.advance index outcome = some registry') :
    registry'.entries = registry.entries := by
  unfold Registry.advance at stepped
  rw [known, Option.bind_some] at stepped
  have unpublished : ∀ state, worker.phase.running = true →
      ((registry.publish worker state).moveTo index .leaving).entries = registry.entries :=
    fun state running => sound.publish_stale known running gone state
  cases phase : worker.phase with
  | spawnFailed error | completing | failing error =>
    rw [phase] at stepped
    cases stepped
    exact unpublished _ (phase ▸ rfl)
  | queued =>
    rw [phase] at stepped
    dsimp only at stepped
    split at stepped
    · cases stepped
      rfl
    · obtain ⟨-, eq⟩ := Option.ite_none_right_eq_some.mp stepped
      cases eq
      rfl
  | gone =>
    rw [phase] at stepped
    cases stepped
  | claimed | started | permitted | indexing | indexed | broken error | leaving | finished =>
    rw [phase] at stepped
    cases stepped
    rfl

theorem WorkerPhase.running_of_owes {phase : WorkerPhase} (owes : phase.owes = true) :
    phase.running = true := by
  cases phase with
  | leaving | finished | gone => cases owes
  | _ => rfl

theorem Registry.starts_of_claimable {root key : Text} (resolved : registry.disk root = some key)
    (claimable : registry.claimable key = true) : registry.Starts root key := by
  unfold Registry.Starts Registry.claim
  rw [resolved]
  dsimp only
  rw [if_pos claimable]
  exact ⟨_, rfl, rfl, rfl⟩

/-- While no worker runs, no entry is initializing. -/
theorem Sound.settled (sound : Sound registry)
    (idle : ∀ worker ∈ registry.workers, worker.phase.running = false) {key : Text}
    {entry : CodeGraphEntry} (found : registry.entries.lookup key = some entry) :
    entry.state ≠ .initializing := by
  intro waiting
  obtain ⟨owner, there, -, -, owes⟩ := sound.owned key entry found
  have ended := idle owner (List.mem_of_getElem? there)
  cases ended.symm.trans (WorkerPhase.running_of_owes (owes waiting))

theorem Sound.behaves (sound : Sound registry) : Behaves registry where
  oneIndexes := fun index other worker another known there ready also =>
    sound.unique index other worker another known there
      (sound.indexing index worker known (by rw [ready]; rfl))
      (sound.indexing other another there (by rw [also]; rfl))
  stale := fun _ _ _ _ known gone stepped => sound.stale known gone stepped
  released := by
    intro release mem done control taken
    refine ⟨sound.finished release mem done control taken, fun key entry found ready => ?_⟩
    have owner := sound.watcher key entry found control ready
    exact (sound.removed release mem control taken).2 key entry found owner.symm
  idle := by
    intro idle
    refine ⟨fun key => ?_, fun root key resolved => ?_⟩
    · unfold Registry.readiness
      split
      · rfl
      · next entry found =>
        have settled := sound.settled idle found
        cases state : entry.state with
        | initializing => exact absurd state settled
        | ready watcher => rfl
        | failed stage error => rfl
    · cases found : registry.entries.lookup key with
      | none => exact .inl (Registry.starts_of_claimable resolved (by simp [Registry.claimable, found]))
      | some entry =>
        cases state : entry.state with
        | initializing => exact absurd state (sound.settled idle found)
        | ready watcher => exact .inr ⟨entry, watcher, rfl, state⟩
        | failed stage error =>
          exact .inl (Registry.starts_of_claimable resolved
            (by simp [Registry.claimable, found, state]))

end Promises

/-- In a run in which every worker publishes in place the registry keeps its promises, however the
claims, the workers, the releases and the directories interleave. -/
theorem behaves_of_publishesInPlace (disk : Text → Option Text) (registry : Registry)
    (reached : (machine disk).ReachableWhile
      (fun state action => publishesInPlace state action = true) registry) :
    Behaves registry :=
  Sound.behaves (reached.invariant (sound_start disk) fun _ _ _ sound inPlace stepped =>
    sound.step inPlace stepped)

/-- The steps of the worker of a first claim as far as the end of its index. -/
def untilIndexed : List Action :=
  [.claim ['w'], .advance 0 (.ok ()), .advance 0 (.ok ()), .advance 0 (.ok ()),
    .advance 0 (.ok ()), .advance 0 (.ok ())]

/-- A release while the worker indexes: the worker finds itself cancelled. -/
theorem behaves_released :
    ∃ registry : Registry, registry.releases =
        [⟨['w'], some 0, false, .returned, true⟩] ∧ Behaves registry := by
  obtain ⟨registry, run, returned⟩ : ∃ registry : Registry,
      (machine some).runWhile publishesInPlace { disk := some }
        (untilIndexed ++ [Action.release ['w'] false, .requestCancel 0, .advance 0 (.ok ()),
          .advance 0 (.ok ()), .waitFinished 0]) = some registry ∧
        registry.releases = [⟨['w'], some 0, false, .returned, true⟩] := ⟨_, rfl, rfl⟩
  exact ⟨registry, returned, behaves_of_publishesInPlace some registry
    (Machine.reachableWhile_of_runWhile .start run)⟩

/-- The directory is gone while the worker completes and comes back afterwards. -/
theorem not_behaves :
    ¬ ∀ (disk : Text → Option Text) (registry : Registry),
      (machine disk).Reachable registry → Behaves registry := by
  intro behaves
  obtain ⟨registry, run, finished, waits⟩ : ∃ registry : Registry,
      (machine some).run { disk := some }
        (untilIndexed ++ [Action.advance 0 (.ok ()), .disk ['w'] none, .advance 0 (.ok ()),
          .disk ['w'] (some ['w']), .advance 0 (.ok ())]) = some registry ∧
        (registry.workers.all fun worker => !worker.phase.running) = true ∧
        registry.readiness ['w'] = none := ⟨_, rfl, rfl, rfl⟩
  have kept := behaves some registry (Machine.reachable_of_run .start run)
  obtain ⟨answers, -⟩ := kept.idle fun worker mem => by
    simpa using List.all_eq_true.mp finished worker mem
  have answered := answers ['w']
  rw [waits] at answered
  cases answered

end Foco.CodeGraphRegistry
