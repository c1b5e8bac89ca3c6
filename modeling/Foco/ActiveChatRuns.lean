import Foco.ApiErrors
import Foco.Maps
import Foco.Runs

/-!
`app/runtime/subscriptions.rs`: the registry of the chat runs in progress. A run is filed under
its id with a watch on its completion flag; its producer holds a registration with the other
end. Registering looks at the whole map in one critical section. Finishing a registration, or
dropping one that was not finished, sets the flag and then removes what the map has under the
run id in a critical section of its own, so the two are separate actions. The handles of the
run that the registry does not look at (guidance, cancellation, events) are left out.
-/
namespace Foco.ActiveChatRuns
open Foco.RustText Foco.Maps Foco.Runs

/-! ## Runs and registrations -/

structure ActiveAgentRunIdentity where
  teamId : Text
  instanceId : Text
  taskId : Text
  attemptId : Text
  deriving DecidableEq

/-- The part of an `ActiveChatRun` that says whose it is. -/
structure RunOwner where
  workspaceId : Text
  chatId : Text
  assistantMessageId : Text
  assistantSequence : Int
  queuedUserMessageId : Option Text
  agentIdentity : Option ActiveAgentRunIdentity
  primaryChatOutput : Bool
  deriving DecidableEq

/-- `ActiveChatRun`, with the number of the watch it reads. -/
structure ActiveChatRun where
  owner : RunOwner
  acceptingGuidance : Bool
  completedRx : Nat
  deriving DecidableEq

/-- Where the holder of a registration stands. -/
inductive Phase where
  | idle
  /-- `finish` has set the flag and has still to remove the run. -/
  | finishing
  /-- The drop of an unfinished registration has set the flag and has still to remove the run. -/
  | dropping
  deriving DecidableEq

/-- `ActiveChatRunRegistration`, with the number of the watch it writes. -/
structure Registration where
  runId : Text
  completedTx : Nat
  completed : Bool
  phase : Phase

/-- The map, the watches whose flag is set, and the registrations not yet dropped. -/
structure Registry where
  runs : Map Text ActiveChatRun := ∅
  flagged : List Nat := []
  registrations : List Registration := []
  next : Nat := 0

/-- `ActiveChatRunRegistrationResult`. -/
inductive RegistrationResult where
  | registered (completedTx : Nat)
  | existing

/-! ## The operations -/

/-- `*run.completed_rx.borrow()`. -/
def Registry.isCompleted (state : Registry) (run : ActiveChatRun) : Bool :=
  state.flagged.contains run.completedRx

/-- Whether a run in the map is the primary one of a chat. -/
def Registry.isPrimaryOf (state : Registry) (workspaceId chatId : Text) (run : ActiveChatRun) :
    Bool :=
  run.owner.workspaceId == workspaceId && run.owner.chatId == chatId &&
    run.owner.primaryChatOutput && !state.isCompleted run

/-- `ActiveChatRunRegistry::register_with_agent_identity`. -/
def registerWithAgentIdentity (runId : Text) (owner : RunOwner) (nextSequence : Int)
    (state : Registry) : Registry × Except ApiError RegistrationResult :=
  if nextSequence < 0 then
    (state, .error (.internal "active chat run sequence must be non-negative".toList))
  else
    match state.runs.lookup runId with
    | some existing =>
      if existing.owner = owner ∧ !state.isCompleted existing then (state, .ok .existing)
      else (state, .error (.conflict ("active chat run id '".toList ++ runId ++
        "' is already owned by a different or completed run".toList)))
    | none =>
      match state.runs.entries.find? fun entry =>
          owner.primaryChatOutput && state.isPrimaryOf owner.workspaceId owner.chatId entry.2 with
      | some other => (state, .error (.conflict ("chat '".toList ++ owner.chatId ++
          "' already has primary active run '".toList ++ other.1 ++ "'".toList)))
      | none =>
        ({ state with
            runs := state.runs.insert runId ⟨owner, true, state.next⟩
            registrations := state.registrations ++ [⟨runId, state.next, false, .idle⟩]
            next := state.next + 1 },
          .ok (.registered state.next))

/-- `ActiveChatRunRegistry::stop_accepting_guidance`. -/
def stopAcceptingGuidance (runId : Text) (state : Registry) : Registry :=
  match state.runs.lookup runId with
  | some run =>
    { state with runs := state.runs.insert runId { run with acceptingGuidance := false } }
  | none => state

/-- `ActiveChatRunRegistry::unregister`. -/
def unregister (runId : Text) (state : Registry) : Registry :=
  { state with runs := state.runs.erase runId }

/-- The registration that writes a watch. -/
def Registry.registration? (state : Registry) (completedTx : Nat) : Option Registration :=
  state.registrations.find? fun registration => registration.completedTx = completedTx

/-- The registrations with one of them changed. -/
def Registry.update (state : Registry) (completedTx : Nat) (f : Registration → Registration) :
    Registry :=
  { state with
    registrations := state.registrations.map fun registration =>
      if registration.completedTx = completedTx then f registration else registration }

/-- The registrations without one of them. -/
def Registry.forget (state : Registry) (completedTx : Nat) : Registry :=
  { state with
    registrations := state.registrations.filter fun registration =>
      registration.completedTx ≠ completedTx }

/-- `completed_tx.send(true)`. -/
def Registry.flag (state : Registry) (completedTx : Nat) : Registry :=
  { state with flagged := completedTx :: state.flagged }

/-- The atomic actions. `finish` and `drop` are the parts before the removal of the run. -/
inductive Action where
  | register (runId : Text) (owner : RunOwner) (nextSequence : Int)
  | stopAcceptingGuidance (completedTx : Nat)
  | finish (completedTx : Nat)
  | drop (completedTx : Nat)
  | unregister (completedTx : Nat)

/-- One action. The holder of a registration does one thing at a time. -/
def step (state : Registry) : Action → Option Registry
  | .register runId owner nextSequence =>
    some (registerWithAgentIdentity runId owner nextSequence state).1
  | .stopAcceptingGuidance completedTx =>
    match state.registration? completedTx with
    | some registration =>
      if registration.phase = .idle then some (stopAcceptingGuidance registration.runId state)
      else none
    | none => none
  | .finish completedTx =>
    match state.registration? completedTx with
    | some registration =>
      if registration.phase = .idle then
        some ((state.flag completedTx).update completedTx fun registration =>
          { registration with completed := true, phase := .finishing })
      else none
    | none => none
  | .drop completedTx =>
    match state.registration? completedTx with
    | some registration =>
      if registration.phase = .idle then
        if registration.completed then some (state.forget completedTx)
        else some ((state.flag completedTx).update completedTx fun registration =>
          { registration with phase := .dropping })
      else none
    | none => none
  | .unregister completedTx =>
    match state.registration? completedTx with
    | some registration =>
      match registration.phase with
      | .idle => none
      | .finishing => some ((unregister registration.runId state).update completedTx
          fun registration => { registration with phase := .idle })
      | .dropping => some ((unregister registration.runId state).forget completedTx)
    | none => none

/-- The registry with the holders of its registrations. -/
def runMachine : Machine Registry Action where
  start := {}
  step := step

/-! ## What one action does -/

variable {state next : Registry} {runId : Text} {owner : RunOwner} {nextSequence : Int}
  {registration : Registration} {completedTx : Nat}

theorem isPrimaryOf_eq_true {workspaceId chatId : Text} {run : ActiveChatRun} :
    state.isPrimaryOf workspaceId chatId run = true ↔
      run.owner.workspaceId = workspaceId ∧ run.owner.chatId = chatId ∧
        run.owner.primaryChatOutput = true ∧ state.isCompleted run = false := by
  simp [Registry.isPrimaryOf, and_assoc]

variable (state runId owner nextSequence) in
/-- What a call of `register` can do: nothing, or to file a new run under a free id, with no primary
run of the same chat in progress if it is one. -/
theorem register_cases :
    (∃ result, registerWithAgentIdentity runId owner nextSequence state = (state, result)) ∨
      (state.runs.lookup runId = none ∧
        (owner.primaryChatOutput = true → ∀ id run, state.runs.lookup id = some run →
          state.isPrimaryOf owner.workspaceId owner.chatId run = false) ∧
        registerWithAgentIdentity runId owner nextSequence state =
          ({ state with
              runs := state.runs.insert runId ⟨owner, true, state.next⟩
              registrations := state.registrations ++ [⟨runId, state.next, false, .idle⟩]
              next := state.next + 1 }, .ok (.registered state.next))) := by
  unfold registerWithAgentIdentity
  split
  · exact .inl ⟨_, rfl⟩
  · split
    · split <;> exact .inl ⟨_, rfl⟩
    · next absent =>
      split
      · exact .inl ⟨_, rfl⟩
      · next free =>
        refine .inr ⟨absent, fun primary id run found => ?_, rfl⟩
        have apart := List.find?_eq_none.mp free ⟨id, run⟩ (Map.mem_entries_iff.mpr found)
        rw [primary, Bool.true_and] at apart
        exact Bool.eq_false_iff.mpr apart

/-- What an action can do, apart from a call of `register`. -/
inductive Effect (state : Registry) (registration : Registration) : Action → Registry → Prop where
  | stopAcceptingGuidance (idle : registration.phase = .idle) :
      Effect state registration (.stopAcceptingGuidance registration.completedTx)
        (stopAcceptingGuidance registration.runId state)
  | finish (idle : registration.phase = .idle) :
      Effect state registration (.finish registration.completedTx)
        ((state.flag registration.completedTx).update registration.completedTx fun registration =>
          { registration with completed := true, phase := .finishing })
  | forget (idle : registration.phase = .idle) (completed : registration.completed = true) :
      Effect state registration (.drop registration.completedTx)
        (state.forget registration.completedTx)
  | drop (idle : registration.phase = .idle) (running : registration.completed = false) :
      Effect state registration (.drop registration.completedTx)
        ((state.flag registration.completedTx).update registration.completedTx fun registration =>
          { registration with phase := .dropping })
  | finished (finishing : registration.phase = .finishing) :
      Effect state registration (.unregister registration.completedTx)
        ((unregister registration.runId state).update registration.completedTx
          fun registration => { registration with phase := .idle })
  | dropped (dropping : registration.phase = .dropping) :
      Effect state registration (.unregister registration.completedTx)
        ((unregister registration.runId state).forget registration.completedTx)

/-- An action is a call of `register` or the doing of one registration. -/
theorem step_cases {action : Action} (stepped : step state action = some next) :
    (∃ runId owner nextSequence, action = .register runId owner nextSequence ∧
      next = (registerWithAgentIdentity runId owner nextSequence state).1) ∨
    ∃ registration ∈ state.registrations, Effect state registration action next := by
  have named : ∀ completedTx registration, state.registration? completedTx = some registration →
      registration ∈ state.registrations ∧ registration.completedTx = completedTx :=
    fun _ _ found => ⟨List.mem_of_find?_eq_some found, by simpa using List.find?_some found⟩
  cases action with
  | register runId owner nextSequence =>
    cases stepped
    exact .inl ⟨runId, owner, nextSequence, rfl, rfl⟩
  | stopAcceptingGuidance completedTx =>
    simp only [step] at stepped
    split at stepped
    · next registration found =>
      obtain ⟨mem, rfl⟩ := named _ _ found
      obtain ⟨idle, same⟩ := Option.ite_none_right_eq_some.mp stepped
      cases same
      exact .inr ⟨registration, mem, .stopAcceptingGuidance idle⟩
    · cases stepped
  | finish completedTx =>
    simp only [step] at stepped
    split at stepped
    · next registration found =>
      obtain ⟨mem, rfl⟩ := named _ _ found
      obtain ⟨idle, same⟩ := Option.ite_none_right_eq_some.mp stepped
      cases same
      exact .inr ⟨registration, mem, .finish idle⟩
    · cases stepped
  | drop completedTx =>
    simp only [step] at stepped
    split at stepped
    · next registration found =>
      obtain ⟨mem, rfl⟩ := named _ _ found
      obtain ⟨idle, same⟩ := Option.ite_none_right_eq_some.mp stepped
      split at same
      · next completed =>
        cases same
        exact .inr ⟨registration, mem, .forget idle completed⟩
      · next running =>
        cases same
        exact .inr ⟨registration, mem, .drop idle (Bool.eq_false_iff.mpr running)⟩
    · cases stepped
  | unregister completedTx =>
    simp only [step] at stepped
    split at stepped
    · next registration found =>
      obtain ⟨mem, rfl⟩ := named _ _ found
      split at stepped
      · cases stepped
      · next finishing =>
        cases stepped
        exact .inr ⟨registration, mem, .finished finishing⟩
      · next dropping =>
        cases stepped
        exact .inr ⟨registration, mem, .dropped dropping⟩
    · cases stepped

theorem lookup_stopAcceptingGuidance {id : Text} {run : ActiveChatRun}
    (found : (stopAcceptingGuidance runId state).runs.lookup id = some run) :
    ∃ old, state.runs.lookup id = some old ∧ old.owner = run.owner ∧
      old.completedRx = run.completedRx := by
  unfold stopAcceptingGuidance at found
  split at found
  · next held present =>
    rw [Map.lookup_insert_eq_ite] at found
    split at found
    · next same =>
      cases found
      exact ⟨held, same ▸ present, rfl, rfl⟩
    · exact ⟨run, found, rfl, rfl⟩
  · exact ⟨run, found, rfl, rfl⟩

theorem lookup_before_stopAcceptingGuidance {id : Text} {run : ActiveChatRun}
    (found : state.runs.lookup id = some run) :
    ∃ later, (stopAcceptingGuidance runId state).runs.lookup id = some later ∧
      later.owner = run.owner ∧ later.completedRx = run.completedRx := by
  unfold stopAcceptingGuidance
  split
  · next held present =>
    by_cases same : id = runId
    · subst same
      rw [found, Option.some.injEq] at present
      subst present
      exact ⟨_, AList.lookup_insert _, rfl, rfl⟩
    · exact ⟨run, (AList.lookup_insert_ne same).trans found, rfl, rfl⟩
  · exact ⟨run, found, rfl, rfl⟩

variable (state runId) in
theorem stopAcceptingGuidance_rest :
    (stopAcceptingGuidance runId state).flagged = state.flagged ∧
      (stopAcceptingGuidance runId state).registrations = state.registrations ∧
      (stopAcceptingGuidance runId state).next = state.next := by
  unfold stopAcceptingGuidance
  split <;> exact ⟨rfl, rfl, rfl⟩

theorem lookup_unregister {id : Text} {run : ActiveChatRun} :
    (unregister runId state).runs.lookup id = some run ↔
      id ≠ runId ∧ state.runs.lookup id = some run := by
  rw [unregister, Map.lookup_erase_eq_ite]
  by_cases same : id = runId <;> simp [same]

/-! ## One primary run of a chat -/

/-- Watches are numbered in order, and the primary runs in progress are of different chats. -/
structure OnePrimary (state : Registry) : Prop where
  flagged : ∀ completedTx ∈ state.flagged, completedTx < state.next
  opened : ∀ registration ∈ state.registrations, registration.completedTx < state.next
  primary : ∀ first second firstRun secondRun,
    state.runs.lookup first = some firstRun → state.runs.lookup second = some secondRun →
    firstRun.owner.primaryChatOutput = true → secondRun.owner.primaryChatOutput = true →
    firstRun.owner.workspaceId = secondRun.owner.workspaceId →
    firstRun.owner.chatId = secondRun.owner.chatId →
    state.isCompleted firstRun = false → state.isCompleted secondRun = false → first = second

/-- Runs that keep their owner and watch, with at least the flags set before, keep the rule. -/
theorem OnePrimary.mono (one : OnePrimary state)
    (flagged : ∀ completedTx ∈ next.flagged, completedTx < next.next)
    (opened : ∀ registration ∈ next.registrations, registration.completedTx < next.next)
    (flags : ∀ completedTx ∈ state.flagged, completedTx ∈ next.flagged)
    (runs : ∀ id run, next.runs.lookup id = some run → ∃ old, state.runs.lookup id = some old ∧
      old.owner = run.owner ∧ old.completedRx = run.completedRx) : OnePrimary next := by
  refine ⟨flagged, opened, ?_⟩
  intro first second firstRun secondRun firstFound secondFound
  obtain ⟨firstOld, firstBefore, firstOwner, firstRx⟩ := runs first firstRun firstFound
  obtain ⟨secondOld, secondBefore, secondOwner, secondRx⟩ := runs second secondRun secondFound
  have earlier : ∀ run old : ActiveChatRun, old.completedRx = run.completedRx →
      next.isCompleted run = false → state.isCompleted old = false := by
    intro run old same running
    rw [Registry.isCompleted, List.contains_eq_mem, decide_eq_false_iff_not] at running ⊢
    exact fun mem => running (same ▸ flags _ mem)
  intro firstPrimary secondPrimary workspace chat firstRuns secondRuns
  rw [← firstOwner] at firstPrimary workspace chat
  rw [← secondOwner] at secondPrimary workspace chat
  exact one.primary first second firstOld secondOld firstBefore secondBefore firstPrimary
    secondPrimary workspace chat (earlier _ _ firstRx firstRuns) (earlier _ _ secondRx secondRuns)

theorem onePrimary_register (one : OnePrimary state) :
    OnePrimary (registerWithAgentIdentity runId owner nextSequence state).1 := by
  obtain ⟨result, same⟩ | ⟨absent, free, same⟩ := register_cases state runId owner nextSequence
  · rw [same]
    exact one
  · rw [same]
    refine ⟨fun completedTx mem => Nat.lt_succ_of_lt (one.flagged completedTx mem), ?_, ?_⟩
    · intro registration mem
      obtain old | new := List.mem_append.mp mem
      · exact Nat.lt_succ_of_lt (one.opened registration old)
      · rw [List.mem_singleton.mp new]
        exact Nat.lt_succ_self _
    have apart : ∀ id run, state.runs.lookup id = some run → owner.primaryChatOutput = true →
        run.owner.primaryChatOutput = true → run.owner.workspaceId = owner.workspaceId →
        run.owner.chatId = owner.chatId → state.isCompleted run = false → False := by
      intro id run found primary runPrimary workspace chat running
      have none := free primary id run found
      rw [isPrimaryOf_eq_true.mpr ⟨workspace, chat, runPrimary, running⟩] at none
      cases none
    intro first second firstRun secondRun firstFound secondFound firstPrimary secondPrimary
      workspace chat firstRuns secondRuns
    rw [Map.lookup_insert_eq_ite] at firstFound secondFound
    split at firstFound <;> split at secondFound
    · next firstSame secondSame => exact firstSame.trans secondSame.symm
    · cases firstFound
      exact (apart second secondRun secondFound firstPrimary secondPrimary workspace.symm chat.symm
        secondRuns).elim
    · cases secondFound
      exact (apart first firstRun firstFound secondPrimary firstPrimary workspace chat
        firstRuns).elim
    · exact one.primary first second firstRun secondRun firstFound secondFound firstPrimary
        secondPrimary workspace chat firstRuns secondRuns

theorem mem_update {f : Registration → Registration} {changed : Registration}
    (mem : changed ∈ (state.update completedTx f).registrations) :
    ∃ registration ∈ state.registrations,
      (registration.completedTx = completedTx ∧ changed = f registration) ∨
        (registration.completedTx ≠ completedTx ∧ changed = registration) := by
  obtain ⟨registration, old, rfl⟩ := List.mem_map.mp mem
  refine ⟨registration, old, ?_⟩
  by_cases same : registration.completedTx = completedTx
  · exact .inl ⟨same, if_pos same⟩
  · exact .inr ⟨same, if_neg same⟩

theorem onePrimary_effect {action : Action} (one : OnePrimary state)
    (mem : registration ∈ state.registrations)
    (effect : Effect state registration action next) : OnePrimary next := by
  have counted := one.opened registration mem
  have flagging : ∀ other ∈ registration.completedTx :: state.flagged, other < state.next :=
    List.forall_mem_cons.mpr ⟨counted, one.flagged⟩
  have kept : ∀ id run, state.runs.lookup id = some run → ∃ old, state.runs.lookup id = some old ∧
      old.owner = run.owner ∧ old.completedRx = run.completedRx :=
    fun id run found => ⟨run, found, rfl, rfl⟩
  have opened : ∀ base : Registry, base.registrations = state.registrations →
      ∀ f : Registration → Registration, (∀ r, (f r).completedTx = r.completedTx) →
      ∀ changed ∈ (base.update registration.completedTx f).registrations,
        changed.completedTx < state.next := by
    intro base same f keeps changed changedMem
    obtain ⟨old, oldMem, ⟨-, now⟩ | ⟨-, now⟩⟩ := mem_update changedMem
    · rw [now, keeps]
      exact one.opened old (same ▸ oldMem)
    · rw [now]
      exact one.opened old (same ▸ oldMem)
  cases effect with
  | stopAcceptingGuidance idle =>
    obtain ⟨flags, registrations, counter⟩ :=
      stopAcceptingGuidance_rest state registration.runId
    refine one.mono ?_ ?_ ?_ fun id run found => lookup_stopAcceptingGuidance found
    · rw [flags, counter]
      exact one.flagged
    · rw [registrations, counter]
      exact one.opened
    · rw [flags]
      exact fun _ mem => mem
  | finish idle =>
    exact one.mono flagging (opened _ rfl _ fun _ => rfl)
      (fun _ mem => List.mem_cons_of_mem _ mem) kept
  | forget idle completed =>
    exact one.mono one.flagged (fun other left => one.opened other (List.mem_of_mem_filter left))
      (fun _ mem => mem) kept
  | drop idle running =>
    exact one.mono flagging (opened _ rfl _ fun _ => rfl)
      (fun _ mem => List.mem_cons_of_mem _ mem) kept
  | finished finishing =>
    exact one.mono one.flagged (opened _ rfl _ fun _ => rfl) (fun _ mem => mem)
      fun id run found => kept id run (lookup_unregister.mp found).2
  | dropped dropping =>
    exact one.mono one.flagged (fun other left => one.opened other (List.mem_of_mem_filter left))
      (fun _ mem => mem) fun id run found => kept id run (lookup_unregister.mp found).2

theorem onePrimary_start : OnePrimary runMachine.start := by
  refine ⟨nofun, nofun, ?_⟩
  intro first second firstRun secondRun found
  rw [runMachine, AList.lookup_empty] at found
  cases found

theorem onePrimary_of_reachable (reached : runMachine.Reachable state) : OnePrimary state := by
  refine reached.invariant onePrimary_start ?_
  intro state action next one stepped
  obtain ⟨runId, owner, nextSequence, -, rfl⟩ | ⟨registration, mem, effect⟩ := step_cases stepped
  · exact onePrimary_register one
  · exact onePrimary_effect one mem effect

/-! ## Registrations own their runs -/

/-- A registration is not finished a second time. -/
def finishesOnce (state : Registry) : Action → Bool
  | .finish completedTx => state.registrations.all fun registration =>
      registration.completedTx ≠ completedTx || !registration.completed
  | _ => true

/-- The registration has its run still to remove. -/
def Registration.Owns (registration : Registration) : Prop :=
  registration.completed = false ∨ registration.phase ≠ .idle

/-- The map has exactly the runs of the registrations that have theirs still to remove. -/
structure Owned (state : Registry) : Prop extends OnePrimary state where
  apart : state.registrations.Pairwise fun first second => first.completedTx ≠ second.completedTx
  finishing : ∀ registration ∈ state.registrations, registration.phase = .finishing →
    registration.completed = true
  running : ∀ registration ∈ state.registrations, registration.completed = false →
    registration.phase = .idle → registration.completedTx ∉ state.flagged
  filed : ∀ registration ∈ state.registrations, registration.Owns → ∃ run,
    state.runs.lookup registration.runId = some run ∧
      run.completedRx = registration.completedTx
  owned : ∀ id run, state.runs.lookup id = some run → ∃ registration ∈ state.registrations,
    registration.Owns ∧ registration.runId = id ∧ registration.completedTx = run.completedRx

theorem Owned.eq_of_tx (owned : Owned state) {first second : Registration}
    (firstMem : first ∈ state.registrations) (secondMem : second ∈ state.registrations)
    (same : first.completedTx = second.completedTx) : first = second :=
  List.inj_on_of_nodup_map (List.pairwise_map.mpr owned.apart) firstMem secondMem same

/-- Registrations that own runs under one id are the same one. -/
theorem Owned.eq_of_runId (owned : Owned state) {first second : Registration}
    (firstMem : first ∈ state.registrations) (secondMem : second ∈ state.registrations)
    (firstOwns : first.Owns) (secondOwns : second.Owns) (same : first.runId = second.runId) :
    first = second := by
  obtain ⟨firstRun, firstFound, firstTx⟩ := owned.filed first firstMem firstOwns
  obtain ⟨secondRun, secondFound, secondTx⟩ := owned.filed second secondMem secondOwns
  rw [same, secondFound, Option.some.injEq] at firstFound
  exact owned.eq_of_tx firstMem secondMem (firstTx.symm.trans (firstFound ▸ secondTx))

theorem owned_register (owned : Owned state) :
    Owned (registerWithAgentIdentity runId owner nextSequence state).1 := by
  have one : OnePrimary (registerWithAgentIdentity runId owner nextSequence state).1 :=
    onePrimary_register owned.toOnePrimary
  obtain ⟨result, same⟩ | ⟨absent, free, same⟩ := register_cases state runId owner nextSequence
  · rw [same]
    exact owned
  · rw [same] at one ⊢
    refine { one with apart := ?_, finishing := ?_, running := ?_, filed := ?_, owned := ?_ }
    · refine List.pairwise_append.mpr ⟨owned.apart, List.pairwise_singleton _ _, ?_⟩
      intro first old second new
      rw [List.mem_singleton.mp new]
      exact Nat.ne_of_lt (owned.opened first old)
    · intro registration mem
      obtain old | new := List.mem_append.mp mem
      · exact owned.finishing registration old
      · rw [List.mem_singleton.mp new]
        nofun
    · intro registration mem
      obtain old | new := List.mem_append.mp mem
      · exact owned.running registration old
      · rw [List.mem_singleton.mp new]
        exact fun _ _ flagged => Nat.lt_irrefl _ (owned.flagged _ flagged)
    · intro registration mem owns
      obtain old | new := List.mem_append.mp mem
      · obtain ⟨run, found, tx⟩ := owned.filed registration old owns
        have other : registration.runId ≠ runId := by
          rintro rfl
          rw [absent] at found
          cases found
        exact ⟨run, (AList.lookup_insert_ne other).trans found, tx⟩
      · rw [List.mem_singleton.mp new]
        exact ⟨_, AList.lookup_insert _, rfl⟩
    · intro id run found
      rw [Map.lookup_insert_eq_ite] at found
      split at found
      · next here =>
        cases found
        exact ⟨_, List.mem_append_right _ (List.mem_singleton_self _), .inl rfl, here.symm, rfl⟩
      · obtain ⟨registration, mem, owns, named, tx⟩ := owned.owned id run found
        exact ⟨registration, List.mem_append_left _ mem, owns, named, tx⟩

/-- What marks a registration that owns its run, and sets its flag if it is no longer running,
keeps ownership. -/
theorem owned_mark (owned : Owned state) (mem : registration ∈ state.registrations)
    (owns : registration.Owns) {f : Registration → Registration}
    (runId : (f registration).runId = registration.runId)
    (tx : ∀ r, (f r).completedTx = r.completedTx)
    (stillOwns : (f registration).Owns) (notIdle : (f registration).phase ≠ .idle)
    (finishing : (f registration).phase = .finishing → (f registration).completed = true) :
    Owned ((state.flag registration.completedTx).update registration.completedTx f) := by
  have changed : ∀ r ∈ ((state.flag registration.completedTx).update
      registration.completedTx f).registrations,
      r = f registration ∨ (r ∈ state.registrations ∧
        r.completedTx ≠ registration.completedTx) := by
    intro r rMem
    obtain ⟨old, oldMem, ⟨same, now⟩ | ⟨apart, now⟩⟩ := mem_update rMem
    · rw [owned.eq_of_tx oldMem mem same] at now
      exact .inl now
    · exact .inr (now ▸ ⟨oldMem, apart⟩)
  refine ⟨⟨?_, ?_, ?_⟩, ?_, ?_, ?_, ?_, ?_⟩
  · exact List.forall_mem_cons.mpr ⟨owned.opened registration mem, owned.flagged⟩
  · intro r rMem
    obtain rfl | ⟨old, -⟩ := changed r rMem
    · rw [tx]
      exact owned.opened registration mem
    · exact owned.opened r old
  · have mono : OnePrimary (state.flag registration.completedTx) := owned.toOnePrimary.mono
      (List.forall_mem_cons.mpr ⟨owned.opened registration mem, owned.flagged⟩) owned.opened
      (fun _ mem => List.mem_cons_of_mem _ mem) fun id run found => ⟨run, found, rfl, rfl⟩
    exact mono.primary
  · refine List.pairwise_map.mpr (owned.apart.imp fun {first second} apart => ?_)
    have keeps : ∀ r : Registration, (if r.completedTx = registration.completedTx then f r
        else r).completedTx = r.completedTx := by
      intro r
      split
      · exact tx r
      · rfl
    rw [keeps, keeps]
    exact apart
  · intro r rMem
    obtain rfl | ⟨old, -⟩ := changed r rMem
    · exact finishing
    · exact owned.finishing r old
  · intro r rMem notCompleted idle
    obtain rfl | ⟨old, apart⟩ := changed r rMem
    · exact absurd idle notIdle
    · exact fun flagged => (List.mem_cons.mp flagged).elim apart
        (owned.running r old notCompleted idle)
  · intro r rMem rOwns
    obtain rfl | ⟨old, -⟩ := changed r rMem
    · obtain ⟨run, found, runTx⟩ := owned.filed registration mem owns
      exact ⟨run, runId ▸ found, runTx.trans (tx registration).symm⟩
    · exact owned.filed r old rOwns
  · intro id run found
    obtain ⟨r, rMem, rOwns, named, runTx⟩ := owned.owned id run found
    by_cases same : r.completedTx = registration.completedTx
    · have here := owned.eq_of_tx rMem mem same
      subst here
      refine ⟨f r, ?_, stillOwns, runId.trans named, (tx r).trans runTx⟩
      exact List.mem_map.mpr ⟨r, rMem, if_pos rfl⟩
    · exact ⟨r, List.mem_map.mpr ⟨r, rMem, if_neg same⟩, rOwns, named, runTx⟩

theorem owned_stopAcceptingGuidance (owned : Owned state) :
    Owned (stopAcceptingGuidance runId state) := by
  obtain ⟨flags, registrations, counter⟩ := stopAcceptingGuidance_rest state runId
  have one : OnePrimary (stopAcceptingGuidance runId state) := by
    refine owned.toOnePrimary.mono ?_ ?_ ?_ fun id run found => lookup_stopAcceptingGuidance found
    · rw [flags, counter]
      exact owned.flagged
    · rw [registrations, counter]
      exact owned.opened
    · rw [flags]
      exact fun _ mem => mem
  refine { one with apart := ?_, finishing := ?_, running := ?_, filed := ?_, owned := ?_ } <;>
    rw [registrations]
  · exact owned.apart
  · exact owned.finishing
  · rw [flags]
    exact owned.running
  · intro registration mem owns
    obtain ⟨run, found, tx⟩ := owned.filed registration mem owns
    obtain ⟨later, still, -, same⟩ := lookup_before_stopAcceptingGuidance found
    exact ⟨later, still, same.trans tx⟩
  · intro id run found
    obtain ⟨old, before, -, same⟩ := lookup_stopAcceptingGuidance found
    obtain ⟨registration, mem, owns, named, tx⟩ := owned.owned id old before
    exact ⟨registration, mem, owns, named, tx.trans same⟩

theorem owned_forget (owned : Owned state) (mem : registration ∈ state.registrations)
    (idle : registration.phase = .idle) (completed : registration.completed = true) :
    Owned (state.forget registration.completedTx) := by
  have one : OnePrimary (state.forget registration.completedTx) :=
    owned.toOnePrimary.mono owned.flagged
      (fun other left => owned.opened other (List.mem_of_mem_filter left)) (fun _ mem => mem)
      fun id run found => ⟨run, found, rfl, rfl⟩
  refine { one with
    apart := owned.apart.sublist List.filter_sublist
    finishing := fun other left => owned.finishing other (List.mem_of_mem_filter left)
    running := fun other left => owned.running other (List.mem_of_mem_filter left)
    filed := fun other left => owned.filed other (List.mem_of_mem_filter left)
    owned := ?_ }
  intro id run found
  obtain ⟨other, otherMem, owns, named, tx⟩ := owned.owned id run found
  refine ⟨other, List.mem_filter.mpr ⟨otherMem, decide_eq_true fun same => ?_⟩, owns, named, tx⟩
  obtain rfl := owned.eq_of_tx otherMem mem same
  obtain running | busy := owns
  · rw [completed] at running
    cases running
  · exact busy idle

/-- The removal of its run by the registration that owns it. -/
theorem owned_unregister (owned : Owned state) (mem : registration ∈ state.registrations)
    (owns : registration.Owns) {left : List Registration}
    (apart : left.Pairwise fun first second => first.completedTx ≠ second.completedTx)
    (done : ∀ r ∈ left, (r ∈ state.registrations ∧ r.completedTx ≠ registration.completedTx) ∨
      (r.completedTx = registration.completedTx ∧ r.completed = true ∧ r.phase = .idle))
    (kept : ∀ r ∈ state.registrations, r.completedTx ≠ registration.completedTx → r ∈ left) :
    Owned { unregister registration.runId state with registrations := left } := by
  have one : OnePrimary { unregister registration.runId state with registrations := left } := by
    refine owned.toOnePrimary.mono owned.flagged ?_ (fun _ mem => mem)
      fun id run found => ⟨run, (lookup_unregister.mp found).2, rfl, rfl⟩
    intro r rMem
    obtain ⟨old, -⟩ | ⟨same, -⟩ := done r rMem
    · exact owned.opened r old
    · rw [same]
      exact owned.opened registration mem
  refine { one with apart := apart, finishing := ?_, running := ?_, filed := ?_, owned := ?_ }
  · intro r rMem finishing
    obtain ⟨old, -⟩ | ⟨-, completed, -⟩ := done r rMem
    · exact owned.finishing r old finishing
    · exact completed
  · intro r rMem running idle
    obtain ⟨old, -⟩ | ⟨-, completed, -⟩ := done r rMem
    · exact owned.running r old running idle
    · rw [completed] at running
      cases running
  · intro r rMem rOwns
    obtain ⟨old, other⟩ | ⟨-, completed, idle⟩ := done r rMem
    · obtain ⟨run, found, tx⟩ := owned.filed r old rOwns
      refine ⟨run, lookup_unregister.mpr ⟨fun same => ?_, found⟩, tx⟩
      exact other (congrArg Registration.completedTx
        (owned.eq_of_runId old mem rOwns owns same))
    · obtain running | busy := rOwns
      · rw [completed] at running
        cases running
      · exact absurd idle busy
  · intro id run found
    obtain ⟨other, before⟩ := lookup_unregister.mp found
    obtain ⟨r, rMem, rOwns, named, tx⟩ := owned.owned id run before
    refine ⟨r, kept r rMem fun same => ?_, rOwns, named, tx⟩
    obtain rfl := owned.eq_of_tx rMem mem same
    exact other named.symm

theorem owned_effect {action : Action} (owned : Owned state)
    (mem : registration ∈ state.registrations) (once : finishesOnce state action = true)
    (effect : Effect state registration action next) : Owned next := by
  cases effect with
  | stopAcceptingGuidance idle => exact owned_stopAcceptingGuidance owned
  | finish idle =>
    have running : registration.completed = false := by
      have unfinished := List.all_eq_true.mp once registration mem
      simpa using unfinished
    exact owned_mark owned mem (.inl running) rfl (fun _ => rfl) (.inr nofun) nofun fun _ => rfl
  | forget idle completed => exact owned_forget owned mem idle completed
  | drop idle running =>
    exact owned_mark owned mem (.inl running) rfl (fun _ => rfl) (.inl running) nofun nofun
  | finished finishing =>
    have completed := owned.finishing registration mem finishing
    refine owned_unregister owned mem (.inr (by rw [finishing]; nofun)) ?_ ?_ ?_
    · refine List.pairwise_map.mpr (owned.apart.imp fun {first second} apart => ?_)
      have keeps : ∀ r : Registration, (if r.completedTx = registration.completedTx then
          { r with phase := .idle } else r).completedTx = r.completedTx := by
        intro r
        split <;> rfl
      rw [keeps, keeps]
      exact apart
    · intro r rMem
      obtain ⟨old, oldMem, ⟨same, now⟩ | ⟨apart, now⟩⟩ := mem_update rMem
      · obtain rfl := owned.eq_of_tx oldMem mem same
        rw [now]
        exact .inr ⟨rfl, completed, rfl⟩
      · exact .inl (now ▸ ⟨oldMem, apart⟩)
    · intro r rMem other
      exact List.mem_map.mpr ⟨r, rMem, if_neg other⟩
  | dropped dropping =>
    refine owned_unregister owned mem (.inr (by rw [dropping]; nofun))
      (owned.apart.sublist List.filter_sublist) ?_ ?_
    · intro r rMem
      obtain ⟨old, other⟩ := List.mem_filter.mp rMem
      exact .inl ⟨old, of_decide_eq_true other⟩
    · intro r rMem other
      exact List.mem_filter.mpr ⟨rMem, decide_eq_true other⟩

theorem owned_of_reachable
    (reached : runMachine.ReachableWhile (fun s a => finishesOnce s a = true) state) :
    Owned state := by
  have start : Owned runMachine.start := by
    refine { onePrimary_start with
      apart := .nil, finishing := nofun, running := nofun, filed := nofun, owned := ?_ }
    intro id run found
    rw [runMachine, AList.lookup_empty] at found
    cases found
  refine reached.invariant start ?_
  intro state action next owned once stepped
  obtain ⟨runId, owner, nextSequence, -, rfl⟩ | ⟨registration, mem, effect⟩ := step_cases stepped
  · exact owned_register owned
  · exact owned_effect owned mem once effect

/-! ## What the registry promises -/

theorem register_existing {run : ActiveChatRun} (found : state.runs.lookup runId = some run)
    (running : state.isCompleted run = false) (counted : 0 ≤ nextSequence) :
    registerWithAgentIdentity runId run.owner nextSequence state = (state, .ok .existing) := by
  unfold registerWithAgentIdentity
  rw [if_neg (Int.not_lt.mpr counted), found]
  simp [running]

/-- Runs leave the map by the removal that a registration owes. -/
theorem removed_cases {action : Action} {id : Text} {run : ActiveChatRun}
    (stepped : step state action = some next) (found : state.runs.lookup id = some run)
    (removed : next.runs.lookup id = none) :
    ∃ registration ∈ state.registrations, registration.phase ≠ .idle ∧
      action = .unregister registration.completedTx ∧ registration.runId = id := by
  obtain ⟨runId, owner, nextSequence, -, rfl⟩ | ⟨registration, mem, effect⟩ := step_cases stepped
  · obtain ⟨result, same⟩ | ⟨absent, free, same⟩ := register_cases state runId owner nextSequence
    · rw [same, found] at removed
      cases removed
    · rw [same] at removed
      exact absurd found (by rw [(AList.lookup_insert_eq_none.mp removed).2]; nofun)
  · have here : (unregister registration.runId state).runs.lookup id = none →
        registration.runId = id := by
      intro gone
      by_contra other
      rw [lookup_unregister.mpr ⟨Ne.symm other, found⟩] at gone
      cases gone
    cases effect with
    | stopAcceptingGuidance idle =>
      obtain ⟨later, still, -⟩ := lookup_before_stopAcceptingGuidance found
      rw [still] at removed
      cases removed
    | finish idle | forget idle completed | drop idle running =>
      change state.runs.lookup id = none at removed
      rw [found] at removed
      cases removed
    | finished finishing =>
      exact ⟨registration, mem, by rw [finishing]; nofun, rfl, here removed⟩
    | dropped dropping =>
      exact ⟨registration, mem, by rw [dropping]; nofun, rfl, here removed⟩

/-- In every reachable state a chat has one primary run in progress at most, and registering a run
in progress again under its owner, with a sequence that is not negative, changes nothing and
says so. In runs that finish no registration twice, a registration that is neither finished nor
dropped has its run in the map, and a run leaves the map only when the registration that
filed it removes it. -/
theorem runs_stay_with_registrations : ∀ state, runMachine.Reachable state →
    (∀ first second firstRun secondRun,
      state.runs.lookup first = some firstRun → state.runs.lookup second = some secondRun →
      firstRun.owner.primaryChatOutput = true → secondRun.owner.primaryChatOutput = true →
      firstRun.owner.workspaceId = secondRun.owner.workspaceId →
      firstRun.owner.chatId = secondRun.owner.chatId →
      state.isCompleted firstRun = false → state.isCompleted secondRun = false →
      first = second) ∧
    (∀ runId run nextSequence, state.runs.lookup runId = some run →
      state.isCompleted run = false → 0 ≤ nextSequence →
      registerWithAgentIdentity runId run.owner nextSequence state = (state, .ok .existing)) ∧
    (runMachine.ReachableWhile (fun s a => finishesOnce s a = true) state →
      (∀ registration ∈ state.registrations, registration.completed = false →
        registration.phase = .idle → ∃ run, state.runs.lookup registration.runId = some run ∧
          run.completedRx = registration.completedTx ∧ state.isCompleted run = false) ∧
      ∀ action next id run, step state action = some next →
        state.runs.lookup id = some run → next.runs.lookup id = none →
        action = .unregister run.completedRx) := by
  intro state reached
  refine ⟨(onePrimary_of_reachable reached).primary,
    fun runId run nextSequence found running counted => register_existing found running counted,
    fun once => ⟨?_, ?_⟩⟩
  · intro registration mem running idle
    have owned := owned_of_reachable once
    obtain ⟨run, found, tx⟩ := owned.filed registration mem (.inl running)
    refine ⟨run, found, tx, ?_⟩
    rw [Registry.isCompleted, List.contains_eq_mem, decide_eq_false_iff_not, tx]
    exact owned.running registration mem running idle
  · intro action next id run stepped found removed
    have owned := owned_of_reachable once
    obtain ⟨registration, mem, busy, rfl, rfl⟩ := removed_cases stepped found removed
    obtain ⟨own, ownFound, tx⟩ := owned.filed registration mem (.inr busy)
    rw [found, Option.some.injEq] at ownFound
    rw [ownFound, tx]

/-- An ordinary primary run. -/
def chatRun : RunOwner := ⟨['w'], ['c'], ['a'], 1, none, none, true⟩

/-- The rules on one run: registering it again changes nothing, and only its registration
removes it. -/
theorem chatRun_stays : ∃ state, runMachine.Reachable state ∧
    registerWithAgentIdentity ['r'] chatRun 7 state = (state, .ok .existing) ∧
    ∀ action next, step state action = some next → next.runs.lookup ['r'] = none →
      action = .unregister 0 := by
  have filed : runMachine.ReachableWhile (fun s a => finishesOnce s a = true)
      (registerWithAgentIdentity ['r'] chatRun 0 runMachine.start).1 :=
    Machine.reachableWhile_of_runWhile .start
      (show runMachine.runWhile finishesOnce _ [.register ['r'] chatRun 0] = some _ from rfl)
  have found : (registerWithAgentIdentity ['r'] chatRun 0 runMachine.start).1.runs.lookup ['r'] =
      some ⟨chatRun, true, 0⟩ := rfl
  obtain ⟨-, existing, once⟩ := runs_stay_with_registrations _ filed.reachable
  exact ⟨_, filed.reachable, existing ['r'] _ 7 found rfl (by decide),
    fun action next stepped removed => (once filed).2 action next ['r'] _ stepped found removed⟩

/-- A run in progress cannot be registered again with a negative sequence, and a registration that
is finished a second time removes the run registered after it under its id. -/
theorem second_finish_removes_later_run :
    ¬(∀ state, runMachine.Reachable state → ∀ runId run nextSequence,
      state.runs.lookup runId = some run → state.isCompleted run = false →
      (registerWithAgentIdentity runId run.owner nextSequence state).2 = .ok .existing) ∧
    ¬(∀ state, runMachine.Reachable state → ∀ action next id run,
      step state action = some next → state.runs.lookup id = some run →
      next.runs.lookup id = none → action = .unregister run.completedRx) := by
  constructor
  · intro existing
    have filed : runMachine.Reachable
        (registerWithAgentIdentity ['r'] chatRun 0 runMachine.start).1 :=
      Machine.reachable_of_run .start
        (show runMachine.run _ [.register ['r'] chatRun 0] = some _ from rfl)
    have again := existing _ filed ['r'] ⟨chatRun, true, 0⟩ (-1) rfl rfl
    cases again
  · intro own
    have run : ((runMachine.run runMachine.start [.register ['r'] chatRun 0, .finish 0,
        .unregister 0, .register ['r'] chatRun 1, .finish 0]).any fun state =>
          decide (state.runs.lookup ['r'] = some ⟨chatRun, true, 1⟩) &&
            (step state (.unregister 0)).any fun next =>
              decide (next.runs.lookup ['r'] = none)) = true := by decide
    obtain ⟨state, reaches, seen⟩ := (Option.any_eq_true _ _).mp run
    obtain ⟨found, stepped⟩ := Bool.and_eq_true_iff.mp seen
    obtain ⟨next, stepped, removed⟩ := (Option.any_eq_true _ _).mp stepped
    have same := own state (Machine.reachable_of_run .start reaches) _ next ['r'] _ stepped
      (of_decide_eq_true found) (of_decide_eq_true removed)
    cases same

end Foco.ActiveChatRuns
