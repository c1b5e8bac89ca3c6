import Foco.Runs
import Foco.ToolPlanning

/-!
`execute_tool_calls_parallel` of `app/runtime/tool_execution.rs`: the groups of a plan are executed one
after the other. The calls of a parallel group are spawned together and joined, those of a sequential
group awaited in turn. A caller may drop the execution at any time; what was spawned is then aborted.
-/
namespace Foco.ToolExecution
open RustText ToolLocks ToolPlanning Runs
open Foco.Result (bind_eq_ok pure_eq_ok mapM_eq_ok exists_mapM_eq_ok)

/-! ## Executing a plan -/

section Definitions

variable (Outcome : Type)

/-- A call. One that is not in the batch was refused; one that failed has panicked or was aborted
after it began, one that was cancelled before. -/
inductive Worker where
  | waiting
  | running
  | ended (outcome : Outcome)
  | refused
  | failed (source : Text)
  | cancelled

inductive Phase where
  | running
  | returned (result : Except Text (List Outcome))
  | dropped

/-- What is seen of the calls. -/
inductive Event where
  | began (index : Nat)
  | ended (index : Nat) (outcome : Outcome)

/-- The groups to come, the group in execution (no calls between two groups), and what has become of
each call; `executed_by_index` has the outcomes. -/
structure Execution where
  groups : List ToolExecutionGroup
  current : ToolExecutionGroup := ⟨.sequential, []⟩
  worker : Nat → Worker Outcome := fun _ => .waiting
  phase : Phase Outcome := .running
  log : List (Event Outcome) := []

/-- A panic (`crash`) is that of a spawned call; one that is awaited takes the execution with it, as
`drop` does. `stop` is an abort that reaches its call. -/
inductive Move where
  | enter
  | begin_ (index : Nat)
  | finish (index : Nat) (outcome : Outcome)
  | crash (index : Nat) (source : Text)
  | join
  | drop
  | stop (index : Nat)

end Definitions

variable {Outcome : Type}

def unknownCall : Text := "tool execution plan referenced an unknown tool call".toList
def notExecuted : Text := "tool execution plan did not execute every tool call".toList
def workerFailed (source : Text) : Text := "tool execution worker failed: ".toList ++ source

namespace Worker

/-- The handle of the call is ready. -/
def isFinished : Worker Outcome → Bool
  | .ended _ | .refused | .failed _ => true
  | .waiting | .running | .cancelled => false

def started : Worker Outcome → Bool
  | .running | .ended _ | .failed _ => true
  | .waiting | .refused | .cancelled => false

/-- What becomes of a call when the execution is dropped: an awaited one goes with it, a spawned one
runs on until the abort reaches it. -/
def dropped (mode : ToolExecutionMode) : Worker Outcome → Worker Outcome
  | .waiting => .cancelled
  | .running => if mode = .sequential then .failed "dropped".toList else .running
  | worker => worker

/-- The error that a call ends its group with. -/
def error : Worker Outcome → Option Text
  | .refused => some unknownCall
  | .failed source => some (workerFailed source)
  | _ => none

def outcome : Worker Outcome → Except Text Outcome
  | .ended outcome => .ok outcome
  | _ => .error notExecuted

end Worker

def Phase.isRunning : Phase Outcome → Bool
  | .running => true
  | _ => false

namespace Execution

/-- A spawned call may begin at any time, an awaited one when those before it have ended. -/
def mayBegin (state : Execution Outcome) (index : Nat) : Bool :=
  decide (index ∈ state.current.callIndices) && (decide (state.current.mode = .parallel) ||
    (state.current.callIndices.takeWhile (· ≠ index)).all fun before => (state.worker before).isFinished)

def beginCall (count : Nat) (state : Execution Outcome) (index : Nat) : Execution Outcome :=
  if index < count then
    { state with
      worker := Function.update state.worker index .running
      log := state.log ++ [.began index] }
  else match state.current.mode with
    | .parallel => { state with worker := Function.update state.worker index .refused }
    | .sequential => { state with phase := .returned (.error unknownCall) }

/-- The next group, or the result when there is none. -/
def enter (count : Nat) (state : Execution Outcome) : Execution Outcome :=
  match state.groups with
  | [] => { state with
      phase := .returned ((List.range count).mapM fun index => (state.worker index).outcome) }
  | current :: groups => { state with groups, current }

/-- The loop over the results of a group. -/
def join (state : Execution Outcome) : Execution Outcome :=
  match state.current.callIndices.findSome? fun index => (state.worker index).error with
  | none => { state with current := ⟨.sequential, []⟩ }
  | some error => { state with phase := .returned (.error error) }

def step (count : Nat) (state : Execution Outcome) : Move Outcome → Option (Execution Outcome)
  | .enter =>
    if state.phase.isRunning && state.current.callIndices.isEmpty then some (state.enter count)
    else none
  | .begin_ index =>
    match state.worker index with
    | .waiting =>
      if state.phase.isRunning && state.mayBegin index then some (state.beginCall count index)
      else none
    | _ => none
  | .finish index outcome =>
    match state.worker index with
    | .running => some { state with
        worker := Function.update state.worker index (.ended outcome)
        log := state.log ++ [.ended index outcome] }
    | _ => none
  | .crash index source =>
    match state.worker index with
    | .running =>
      if state.current.mode = .parallel then
        some { state with worker := Function.update state.worker index (.failed source) }
      else none
    | _ => none
  | .join =>
    if state.phase.isRunning && !state.current.callIndices.isEmpty &&
        state.current.callIndices.all (fun index => (state.worker index).isFinished) then some state.join
    else none
  | .drop =>
    if state.phase.isRunning then
      some { state with
        phase := .dropped
        worker := fun index => (state.worker index).dropped state.current.mode }
    else none
  | .stop index =>
    match state.phase, state.worker index with
    | .dropped, .running =>
      some { state with worker := Function.update state.worker index (.failed "aborted".toList) }
    | _, _ => none

end Execution

section Logs

variable {log : List (Event Outcome)} {index : Nat} {outcome : Outcome}

def beginnings (log : List (Event Outcome)) : List Nat :=
  log.filterMap fun
    | .began index => some index
    | .ended _ _ => none

def endings (log : List (Event Outcome)) : List (Nat × Outcome) :=
  log.filterMap fun
    | .began _ => none
    | .ended index outcome => some (index, outcome)

@[simp] theorem beginnings_began :
    beginnings (log ++ [.began index]) = beginnings log ++ [index] := by simp [beginnings]

@[simp] theorem beginnings_ended :
    beginnings (log ++ [.ended index outcome]) = beginnings log := by simp [beginnings]

@[simp] theorem endings_began : endings (log ++ [.began index]) = endings log := by simp [endings]

@[simp] theorem endings_ended :
    endings (log ++ [.ended index outcome]) = endings log ++ [(index, outcome)] := by simp [endings]

end Logs

/-- The executions of a plan of a number of calls. -/
def machine (Outcome : Type) (plan : ToolExecutionPlan) (count : Nat) :
    Machine (Execution Outcome) (Move Outcome) where
  start := { groups := plan.groups }
  step := Execution.step count

/-! ## What an execution has done -/

section Executions

variable {plan : ToolExecutionPlan} {count index : Nat} {done : List Nat}
  {state : Execution Outcome} {worker : Worker Outcome}

open Execution

/-- The calls that were executed are behind those in execution and those to come, and the log tells
of each call once. -/
structure Sound (plan : ToolExecutionPlan) (count : Nat) (done : List Nat)
    (state : Execution Outcome) : Prop where
  covered : done ++ (state.current.callIndices ++ state.groups.flatMap (·.callIndices)) =
    List.range count
  grouped : state.current.callIndices ≠ [] → state.current ∈ plan.groups
  toCome : ∀ group ∈ state.groups, group ∈ plan.groups
  active : ∀ i, (state.worker i).started = true → i ∈ done ∨ i ∈ state.current.callIndices
  executed : ∀ i ∈ done, ∃ outcome, state.worker i = .ended outcome
  began : ∀ i, i ∈ beginnings state.log ↔ (state.worker i).started = true
  ended : ∀ i outcome, (i, outcome) ∈ endings state.log ↔ state.worker i = .ended outcome
  beganOnce : (beginnings state.log).Nodup
  endedOnce : ((endings state.log).map Prod.fst).Nodup
  known : ∀ i, state.worker i ≠ .refused
  ordered : ∀ front j, front ++ [.began j] <+: state.log → ∀ i < j,
    (∃ outcome, .ended i outcome ∈ front) ∨
      ∃ group ∈ plan.groups, group.mode = .parallel ∧ i ∈ group.callIndices ∧ j ∈ group.callIndices
  result : ∀ result, state.phase = .returned result →
    (∃ outcomes, result = .ok outcomes ∧ outcomes.length = count ∧
      ∀ i outcome, outcomes[i]? = some outcome → state.worker i = .ended outcome) ∨
    ∃ i source, state.worker i = .failed source ∧ result = .error (workerFailed source)

/-- A call that does not end its group alone is in a parallel one. -/
def SequentialAlone (plan : ToolExecutionPlan) : Prop :=
  ∀ group ∈ plan.groups, group.mode = .sequential → ∃ i, group.callIndices = [i]

theorem not_returned (running : state.phase.isRunning = true)
    {result : Except Text (List Outcome)} : state.phase ≠ .returned result := fun returned => by
  rw [returned] at running
  cases running

namespace Sound

variable (sound : Sound plan count done state)
include sound

theorem not_started (there : state.worker index = worker) (fresh : worker.started = false) :
    index ∉ beginnings state.log := fun mem => by
  have started := (sound.began index).mp mem
  rw [there, fresh] at started
  cases started

/-- Of the calls before one in execution those have ended that are not in its group. -/
theorem before (alone : SequentialAlone plan) (here : index ∈ state.current.callIndices) {i : Nat}
    (less : i < index) :
    (∃ outcome, .ended i outcome ∈ state.log) ∨ ∃ group ∈ plan.groups,
      group.mode = .parallel ∧ i ∈ group.callIndices ∧ index ∈ group.callIndices := by
  have whole : index ∈ List.range count := by
    rw [← sound.covered]
    exact List.mem_append_right _ (List.mem_append_left _ here)
  have mem : i ∈ List.range count := List.mem_range.mpr (less.trans (List.mem_range.mp whole))
  have sorted := List.pairwise_lt_range (n := count)
  rw [← sound.covered] at mem sorted
  obtain early | mem := List.mem_append.mp mem
  · obtain ⟨outcome, ended⟩ := sound.executed i early
    obtain ⟨event, mem, same⟩ := List.mem_filterMap.mp ((sound.ended i outcome).mpr ended)
    refine .inl ⟨outcome, ?_⟩
    cases event with
    | began => cases same
    | ended => cases same; exact mem
  obtain beside | later := List.mem_append.mp mem
  · have group := sound.grouped (List.ne_nil_of_mem here)
    refine .inr ⟨_, group, ?_, beside, here⟩
    cases mode : state.current.mode with
    | parallel => rfl
    | sequential =>
      obtain ⟨only, same⟩ := alone _ group mode
      rw [same, List.mem_singleton] at beside here
      omega
  · have order := (List.pairwise_append.mp (List.pairwise_append.mp sorted).2.1).2.2 _ here _ later
    omega

/-- One call moves on that has not ended yet, and the log tells of it. -/
theorem move (worker : Worker Outcome) {log : List (Event Outcome)} (here : index ∉ done)
    (inside : index ∈ state.current.callIndices)
    (unfailed : ∀ source, state.worker index ≠ .failed source)
    (unended : ∀ outcome, state.worker index ≠ .ended outcome)
    (known : worker ≠ .refused)
    (began : (beginnings log).Nodup ∧ ∀ i, i ∈ beginnings log ↔
      (Function.update state.worker index worker i).started = true)
    (ended : ((endings log).map Prod.fst).Nodup ∧ ∀ i outcome, (i, outcome) ∈ endings log ↔
      Function.update state.worker index worker i = .ended outcome)
    (ordered : ∀ front j, front ++ [.began j] <+: log → ∀ i < j,
      (∃ outcome, .ended i outcome ∈ front) ∨ ∃ group ∈ plan.groups,
        group.mode = .parallel ∧ i ∈ group.callIndices ∧ j ∈ group.callIndices) :
    Sound plan count done
      { state with worker := Function.update state.worker index worker, log } := by
  have kept {i : Nat} (ne : i ≠ index) : Function.update state.worker index worker i =
      state.worker i := Function.update_of_ne ne _ _
  refine { sound with
    active := fun i started => ?_
    executed := fun i mem => ?_
    began := began.2
    ended := ended.2
    beganOnce := began.1
    endedOnce := ended.1
    known := fun i => ?_
    ordered
    result := fun result returned => ?_ }
  · by_cases same : i = index
    · exact .inr (same ▸ inside)
    · exact sound.active i (kept same ▸ started)
  · obtain ⟨outcome, there⟩ := sound.executed i mem
    exact ⟨outcome, (kept fun same => here (same ▸ mem)).trans there⟩
  · dsimp only
    by_cases same : i = index
    · rwa [same, Function.update_self]
    · rw [kept same]
      exact sound.known i
  · obtain ⟨outcomes, same, length, all⟩ | ⟨i, source, there, same⟩ := sound.result result returned
    · refine .inl ⟨outcomes, same, length, fun i outcome found => ?_⟩
      have there := all i outcome found
      exact (kept fun same => unended outcome (same ▸ there)).trans there
    · exact .inr ⟨i, source, (kept fun same => unfailed source (same ▸ there)).trans there, same⟩

/-- A call in execution is behind those that were executed. -/
theorem not_done (inside : index ∈ state.current.callIndices) : index ∉ done := fun mem => by
  have once := sound.covered ▸ List.nodup_range (n := count)
  exact (List.nodup_append.mp once).2.2 index mem index (List.mem_append_left _ inside) rfl

/-- A call begins when those before it that are not in its group have ended. -/
theorem begins (alone : SequentialAlone plan) (waits : state.worker index = .waiting)
    (inside : index ∈ state.current.callIndices) :
    Sound plan count done { state with
      worker := Function.update state.worker index .running
      log := state.log ++ [.began index] } := by
  have fresh := sound.not_started waits rfl
  refine sound.move .running (sound.not_done inside) inside (by rw [waits]; nofun)
    (by rw [waits]; nofun) nofun ⟨?_, fun i => ?_⟩ ⟨?_, fun i outcome => ?_⟩
    fun front j within i less => ?_
  · rw [beginnings_began, List.nodup_append]
    refine ⟨sound.beganOnce, List.pairwise_singleton _ _, fun i mem j single => ?_⟩
    rintro rfl
    exact fresh (List.mem_singleton.mp single ▸ mem)
  · rw [beginnings_began, List.mem_append, sound.began, List.mem_singleton]
    by_cases same : i = index
    · simp [same, Worker.started]
    · simp [same]
  · rw [endings_began]
    exact sound.endedOnce
  · rw [endings_began, sound.ended]
    by_cases same : i = index
    · simp [same, waits]
    · simp [same]
  · obtain same | shorter := List.prefix_concat_iff.mp within
    · obtain ⟨rfl, last⟩ := List.append_inj' same rfl
      cases last
      exact sound.before alone inside less
    · exact sound.ordered front j shorter i less

/-- A call that runs is in execution. -/
theorem inside_of_running (runs : state.worker index = .running) :
    index ∈ state.current.callIndices := by
  refine (sound.active index (by rw [runs]; rfl)).resolve_left fun mem => ?_
  obtain ⟨outcome, ended⟩ := sound.executed index mem
  rw [runs] at ended
  cases ended

/-- A call ends with an outcome. -/
theorem finishes (runs : state.worker index = .running) (outcome : Outcome) :
    Sound plan count done { state with
      worker := Function.update state.worker index (.ended outcome)
      log := state.log ++ [.ended index outcome] } := by
  have inside := sound.inside_of_running runs
  refine sound.move (.ended outcome) (sound.not_done inside) inside (by rw [runs]; nofun)
    (by rw [runs]; nofun) nofun ⟨?_, fun i => ?_⟩ ⟨?_, fun i other => ?_⟩
    fun front j within i less => ?_
  · rw [beginnings_ended]
    exact sound.beganOnce
  · rw [beginnings_ended, sound.began]
    by_cases same : i = index
    · simp [same, runs, Worker.started]
    · simp [same]
  · rw [endings_ended, List.map_append, List.map_singleton, List.nodup_append]
    refine ⟨sound.endedOnce, List.pairwise_singleton _ _, fun i mem j single same => ?_⟩
    obtain ⟨entry, seen, named⟩ := List.mem_map.mp mem
    have there := (sound.ended entry.1 entry.2).mp seen
    rw [named, same, List.mem_singleton.mp single, runs] at there
    cases there
  · rw [endings_ended, List.mem_append, sound.ended, List.mem_singleton, Prod.mk.injEq]
    by_cases same : i = index
    · simp [same, runs, eq_comm]
    · simp [same]
  · obtain same | shorter := List.prefix_concat_iff.mp within
    · cases (List.append_inj' same rfl).2
    · exact sound.ordered front j shorter i less

/-- A call that has begun panics or is aborted. -/
theorem fails (runs : state.worker index = .running) (source : Text) :
    Sound plan count done
      { state with worker := Function.update state.worker index (.failed source) } := by
  have inside := sound.inside_of_running runs
  refine sound.move (.failed source) (sound.not_done inside) inside
    (by rw [runs]; nofun) (by rw [runs]; nofun) nofun ⟨sound.beganOnce, fun i => ?_⟩
    ⟨sound.endedOnce, fun i outcome => ?_⟩ sound.ordered
  · refine (sound.began i).trans ?_
    by_cases same : i = index
    · simp [same, runs, Worker.started]
    · simp [same]
  · refine (sound.ended i outcome).trans ?_
    by_cases same : i = index
    · simp [same, runs]
    · simp [same]

theorem join (running : state.phase.isRunning = true)
    (finished : ∀ i ∈ state.current.callIndices, (state.worker i).isFinished = true) :
    ∃ done, Sound plan count done state.join := by
  unfold Execution.join
  split
  · next clean =>
    have ended : ∀ i ∈ state.current.callIndices, ∃ outcome, state.worker i = .ended outcome := by
      intro i mem
      have unfailed := List.findSome?_eq_none_iff.mp clean i mem
      have ready := finished i mem
      cases there : state.worker i with
      | ended outcome => exact ⟨outcome, rfl⟩
      | _ => simp [there, Worker.error, Worker.isFinished] at unfailed ready
    refine ⟨done ++ state.current.callIndices, { sound with
      covered := by rw [← sound.covered, List.append_assoc]; rfl
      grouped := fun filled => absurd rfl filled
      active := fun i started => .inl (List.mem_append.mpr (sound.active i started))
      executed := fun i mem => (List.mem_append.mp mem).elim (sound.executed i) (ended i)
      result := fun result returned => absurd returned (not_returned running) }⟩
  · next error found =>
    refine ⟨done, { sound with result := fun result returned => .inr ?_ }⟩
    cases returned
    obtain ⟨i, -, failed⟩ := List.exists_of_findSome?_eq_some found
    cases there : state.worker i with
    | failed source =>
      rw [there] at failed
      exact ⟨i, source, there, congrArg _ (Option.some.inj failed).symm⟩
    | refused => exact absurd there (sound.known i)
    | _ =>
      rw [there] at failed
      cases failed

theorem enter (running : state.phase.isRunning = true) (idle : state.current.callIndices = []) :
    Sound plan count done (state.enter count) := by
  unfold Execution.enter
  have covered := sound.covered
  rw [idle, List.nil_append] at covered
  split
  · next last =>
    rw [last, List.flatMap_nil, List.append_nil] at covered
    refine { sound with result := fun result returned => .inl ?_ }
    cases returned
    obtain ⟨outcomes, collected⟩ : ∃ outcomes,
        (List.range count).mapM (fun i => (state.worker i).outcome) = .ok outcomes := by
      refine exists_mapM_eq_ok fun i mem => ?_
      obtain ⟨outcome, ended⟩ := sound.executed i (covered ▸ mem)
      exact ⟨outcome, by rw [ended]; rfl⟩
    obtain ⟨length, each⟩ := List.forall₂_iff_get.mp (mapM_eq_ok.mp collected)
    rw [List.length_range] at length
    refine ⟨outcomes, collected, length.symm, fun i outcome found => ?_⟩
    obtain ⟨less, rfl⟩ := List.getElem?_eq_some_iff.mp found
    have same := each i (List.length_range ▸ length ▸ less) less
    rw [List.get_eq_getElem, List.get_eq_getElem, List.getElem_range] at same
    cases there : state.worker i with
    | ended outcome =>
      rw [there] at same
      exact congrArg _ (Except.ok.inj same)
    | _ =>
      rw [there] at same
      cases same
  · next current groups later =>
    rw [later, List.flatMap_cons] at covered
    refine { sound with
      covered
      grouped := fun _ => sound.toCome current (later ▸ List.mem_cons_self)
      toCome := fun other mem => sound.toCome other (later ▸ List.mem_cons_of_mem _ mem)
      active := fun i started => .inl ?_
      result := fun result returned => absurd returned (not_returned running) }
    refine (sound.active i started).resolve_right fun inside => ?_
    rw [idle] at inside
    cases inside

theorem drop : Sound plan count done { state with
    phase := .dropped
    worker := fun index => (state.worker index).dropped state.current.mode } := by
  have started (worker : Worker Outcome) :
      (worker.dropped state.current.mode).started = worker.started := by
    cases worker with
    | running => cases state.current.mode <;> rfl
    | _ => rfl
  have ended (worker : Worker Outcome) (outcome : Outcome) :
      worker.dropped state.current.mode = .ended outcome ↔ worker = .ended outcome := by
    cases worker with
    | running => cases state.current.mode <;> simp [Worker.dropped]
    | _ => simp [Worker.dropped]
  refine { sound with
    active := fun i began => sound.active i (started _ ▸ began)
    executed := fun i mem => (sound.executed i mem).imp fun outcome => (ended _ outcome).mpr
    began := fun i => (sound.began i).trans (by rw [started])
    ended := fun i outcome => (sound.ended i outcome).trans (ended _ outcome).symm
    known := fun i => ?_
    result := nofun }
  have known := sound.known i
  dsimp only
  cases there : state.worker i with
  | running => cases state.current.mode <;> nofun
  | refused => exact absurd there known
  | _ => nofun

end Sound

/-! ## Every interleaving -/

theorem sound_start (inOrder : plan.groups.flatMap (·.callIndices) = List.range count) :
    Sound plan count [] (machine Outcome plan count).start where
  covered := inOrder
  grouped filled := absurd rfl filled
  toCome _ mem := mem
  active := nofun
  executed := nofun
  began _ := iff_of_false nofun nofun
  ended _ _ := iff_of_false nofun nofun
  beganOnce := List.nodup_nil
  endedOnce := List.nodup_nil
  known := nofun
  ordered front j within := absurd (List.prefix_nil.mp within) (by simp)
  result := nofun

theorem Sound.step (sound : Sound plan count done state) (alone : SequentialAlone plan)
    {move : Move Outcome} {next : Execution Outcome}
    (stepped : state.step count move = some next) : ∃ done, Sound plan count done next := by
  cases move with
  | enter =>
    simp only [Execution.step, Option.ite_none_right_eq_some, Bool.and_eq_true,
      List.isEmpty_iff, Option.some.injEq] at stepped
    obtain ⟨⟨running, idle⟩, rfl⟩ := stepped
    exact ⟨done, sound.enter running idle⟩
  | begin_ index =>
    simp only [Execution.step] at stepped
    split at stepped
    · next waits =>
      simp only [Option.ite_none_right_eq_some, Bool.and_eq_true, mayBegin,
        decide_eq_true_eq] at stepped
      obtain ⟨⟨-, inside, -⟩, begins⟩ := stepped
      have less : index < count := List.mem_range.mp
        (sound.covered ▸ List.mem_append_right _ (List.mem_append_left _ inside))
      rw [beginCall, if_pos less] at begins
      exact ⟨done, Option.some.inj begins ▸ sound.begins alone waits inside⟩
    · cases stepped
  | finish index outcome =>
    simp only [Execution.step] at stepped
    split at stepped
    · next runs => exact ⟨done, Option.some.inj stepped ▸ sound.finishes runs outcome⟩
    · cases stepped
  | crash index source =>
    simp only [Execution.step] at stepped
    split at stepped
    · next runs =>
      obtain ⟨-, fails⟩ := Option.ite_none_right_eq_some.mp stepped
      exact ⟨done, Option.some.inj fails ▸ sound.fails runs source⟩
    · cases stepped
  | join =>
    simp only [Execution.step, Option.ite_none_right_eq_some, Bool.and_eq_true,
      List.all_eq_true, Option.some.injEq] at stepped
    obtain ⟨⟨⟨running, -⟩, finished⟩, rfl⟩ := stepped
    exact sound.join running finished
  | drop =>
    obtain ⟨-, dropped⟩ := Option.ite_none_right_eq_some.mp stepped
    exact ⟨done, Option.some.inj dropped ▸ sound.drop⟩
  | stop index =>
    simp only [Execution.step] at stepped
    split at stepped
    · next runs => exact ⟨done, Option.some.inj stepped ▸ sound.fails runs _⟩
    · cases stepped

end Executions

/-- Two calls that may not be executed at the same time: one of them is sequential, or they hold
locks in conflict that are not both mutation leases. -/
def Excludes (first second : PendingToolCall) : Prop :=
  requiresSequentialExecution first = true ∨ requiresSequentialExecution second = true ∨
    ∃ firstLock ∈ heldLocks first, ∃ secondLock ∈ heldLocks second,
      toolResourceLocksConflict firstLock secondLock = true ∧
      ¬(firstLock.resource = .workspaceMutationLease ∧
        secondLock.resource = .workspaceMutationLease)

/-- What the execution of a batch promises in every state. -/
structure Executes (toolCalls : List PendingToolCall) (state : Execution Outcome) : Prop where
  /-- A call begins once and ends once. -/
  once : (beginnings state.log).Nodup ∧ ((endings state.log).map Prod.fst).Nodup
  apart : ∀ i j first second, i ≠ j → state.worker i = .running → state.worker j = .running →
    toolCalls[i]? = some first → toolCalls[j]? = some second → ¬Excludes first second
  /-- A call begins only after the earlier ones that exclude it have ended. -/
  ordered : ∀ front j, front ++ [.began j] <+: state.log → ∀ i < j, ∀ first second,
    toolCalls[i]? = some first → toolCalls[j]? = some second → Excludes first second →
    ∃ outcome, .ended i outcome ∈ front
  /-- The results are the outcomes in the order of the batch, unless a spawned call has failed. -/
  result : ∀ result, state.phase = .returned result →
    (∃ outcomes, result = .ok outcomes ∧ outcomes.length = toolCalls.length ∧
      ∀ i outcome, outcomes[i]? = some outcome → (i, outcome) ∈ endings state.log) ∨
    ∃ i source, state.worker i = .failed source ∧ result = .error (workerFailed source)

theorem not_excludes {toolCalls : List PendingToolCall} {plan : ToolExecutionPlan}
    (correct : PlanCorrect toolCalls plan) {group : ToolExecutionGroup} (mem : group ∈ plan.groups)
    (parallel : group.mode = .parallel) {i j : Nat} (here : i ∈ group.callIndices)
    (here' : j ∈ group.callIndices) (ne : i ≠ j) {first second : PendingToolCall}
    (firstAt : toolCalls[i]? = some first) (secondAt : toolCalls[j]? = some second) :
    ¬Excludes first second := by
  have together {k : Nat} {call : PendingToolCall} (at_ : toolCalls[k]? = some call)
      (inside : k ∈ group.callIndices) : ¬requiresSequentialExecution call = true := by
    intro sequential
    rw [(correct.sequentialAlone k call at_ sequential).2 group mem inside] at parallel
    cases parallel
  rintro (sequential | sequential | ⟨firstLock, held, secondLock, held', conflict, unleased⟩)
  · exact together firstAt here sequential
  · exact together secondAt here' sequential
  · exact unleased (correct.conflictFree group mem parallel i here j here' ne first second firstAt
      secondAt firstLock held secondLock held' conflict)

/-- A planned batch has no calls that cannot be reconciled, and its plan is that of the grouping
loop. -/
theorem plan_of_planned {toolCalls : List PendingToolCall} {plan : ToolExecutionPlan}
    (planned : planToolExecution toolCalls = .ok plan) :
    toolCalls.Pairwise Compatible ∧ plan = ⟨groupCalls (toolCalls.map analyzedCall)⟩ := by
  rw [planToolExecution, mapM_analyzeToolCall] at planned
  obtain ⟨analyzed, same, planned⟩ := bind_eq_ok.mp planned
  cases same
  obtain ⟨_, accepted, made⟩ := bind_eq_ok.mp planned
  rw [zip_analyzed] at accepted
  exact ⟨(rejectConflictingPairs_eq_ok toolCalls).mp accepted, (pure_eq_ok.mp made).symm⟩

/-- In every interleaving of the calls of a planned batch, each call is executed at most once, calls
that exclude each other are executed one after the other in the order of the batch, also when the
execution is dropped, and the results are in that order. -/
theorem executeToolCalls_executes {toolCalls : List PendingToolCall} {plan : ToolExecutionPlan}
    (planned : planToolExecution toolCalls = .ok plan) {state : Execution Outcome}
    (reached : (machine Outcome plan toolCalls.length).Reachable state) :
    Executes toolCalls state := by
  obtain ⟨compatible, planIs⟩ := plan_of_planned planned
  have correct : PlanCorrect toolCalls plan := planIs ▸ plan_correct_of_compatible compatible
  have alone : SequentialAlone plan := by
    intro group mem sequential
    rw [planIs] at mem
    have groupSound := (groupCalls_sound _).2 group mem
    rw [GroupSound, sequential] at groupSound
    obtain ⟨i, -, alone, -⟩ := groupSound
    exact ⟨i, alone⟩
  have inv : ∃ done, Sound plan toolCalls.length done state := by
    induction reached with
    | start => exact ⟨[], sound_start correct.inOrder⟩
    | next _ _ stepped ih =>
      obtain ⟨done, sound⟩ := ih
      exact sound.step alone stepped
  obtain ⟨done, sound⟩ := inv
  refine ⟨⟨sound.beganOnce, sound.endedOnce⟩, ?_, ?_, fun result returned => ?_⟩
  · intro i j first second ne runs runs' firstAt secondAt
    have here := sound.inside_of_running runs
    have here' := sound.inside_of_running runs'
    have group := sound.grouped (List.ne_nil_of_mem here)
    cases mode : state.current.mode with
    | parallel => exact not_excludes correct group mode here here' ne firstAt secondAt
    | sequential =>
      obtain ⟨only, single⟩ := alone _ group mode
      rw [single, List.mem_singleton] at here here'
      exact absurd (here.trans here'.symm) ne
  · intro front j within i less first second firstAt secondAt excludes
    obtain ended | ⟨group, mem, parallel, here, here'⟩ := sound.ordered front j within i less
    · exact ended
    · exact absurd excludes
        (not_excludes correct mem parallel here here' (Nat.ne_of_lt less) firstAt secondAt)
  · refine (sound.result result returned).imp_left ?_
    rintro ⟨outcomes, same, length, all⟩
    exact ⟨outcomes, same, length, fun i outcome found =>
      (sound.ended i outcome).mpr (all i outcome found)⟩

/-- A read and a write of one file, executed one after the other. -/
theorem executeToolCalls_executes_read_and_write :
    ∃ state, (machine Nat ⟨[⟨.parallel, [0]⟩, ⟨.parallel, [1]⟩]⟩ 2).Reachable state ∧
      Executes [pathCall readFileToolName "./a".toList, pathCall writeFileToolName "A".toList]
        state ∧ state.phase = .returned (.ok [7, 8]) := by
  obtain ⟨state, ran, returned⟩ : ∃ state,
      (machine Nat ⟨[⟨.parallel, [0]⟩, ⟨.parallel, [1]⟩]⟩ 2).run
        (machine Nat ⟨[⟨.parallel, [0]⟩, ⟨.parallel, [1]⟩]⟩ 2).start
        [.enter, .begin_ 0, .finish 0 7, .join, .enter, .begin_ 1, .finish 1 8, .join, .enter] =
        some state ∧ state.phase = .returned (.ok [7, 8]) := ⟨_, rfl, rfl⟩
  have reached := Machine.reachable_of_run .start ran
  exact ⟨state, reached, executeToolCalls_executes (by decide) reached, returned⟩

end Foco.ToolExecution
