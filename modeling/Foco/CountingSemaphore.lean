import Mathlib.Data.List.Nodup
import Mathlib.Data.List.Count
import Mathlib.Data.List.Induction
import Foco.Runs

/-!
The counting semaphore of the workspace database gate. Each pass of a caller under the state
lock is one function on the guarded state; the callers, where each of them stands and who was
served in which order are kept beside it. `Lined` ties the queue of waiter ids to the callers
that wait, and from it come the conservation of permits and the order of service.
-/
namespace Foco.CountingSemaphore
open Foco.Runs

/-- `CountingSemaphoreState`. The waiter ids are natural numbers: the source's `u64` counter
would wrap after `2 ^ 64` waits. -/
structure CountingSemaphoreState where
  available : Nat
  nextWaiterId : Nat
  queue : List Nat

/-- How one pass under the lock ends for its caller. -/
inductive Pass where
  | permit
  | timedOut
  | waiting (waiterId : Nat)

namespace CountingSemaphoreState

/-- `CountingSemaphore::new`. -/
def new (capacity : Nat) : CountingSemaphoreState :=
  { available := capacity, nextWaiterId := 0, queue := [] }

/-- One turn of the loop of `acquire_until`; `expired` says that the deadline has passed. -/
def wake (state : CountingSemaphoreState) (waiterId : Nat) (expired : Bool) :
    CountingSemaphoreState × Pass :=
  if state.queue.head? = some waiterId ∧ 0 < state.available then
    ({ state with queue := state.queue.tail, available := state.available - 1 }, .permit)
  else if expired then
    ({ state with queue := state.queue.filter (· ≠ waiterId) }, .timedOut)
  else (state, .waiting waiterId)

/-- The arrival of a waiter at the end of the queue. -/
def push (state : CountingSemaphoreState) : CountingSemaphoreState :=
  { state with
    nextWaiterId := state.nextWaiterId + 1
    queue := state.queue ++ [state.nextWaiterId] }

/-- `acquire_until` until it first gives up the lock: the fast path, or the queue and the first
turn of the loop. -/
def acquireUntil (state : CountingSemaphoreState) (expired : Bool) :
    CountingSemaphoreState × Pass :=
  if state.queue.isEmpty ∧ 0 < state.available then
    ({ state with available := state.available - 1 }, .permit)
  else state.push.wake state.nextWaiterId expired

/-- The drop of a `SemaphorePermit`. -/
def release (state : CountingSemaphoreState) : CountingSemaphoreState :=
  { state with available := state.available + 1 }

end CountingSemaphoreState

/-- Where a caller stands with one semaphore. -/
inductive Standing where
  | outside
  | waiting (waiterId : Nat)
  | holding
  | left
deriving DecidableEq

/-- A semaphore with its callers, and the callers in the order in which they arrived, were
granted a permit and timed out. -/
structure Shared where
  state : CountingSemaphoreState
  standing : List Standing := []
  arrived : List Nat := []
  granted : List Nat := []
  timedOut : List Nat := []

namespace Shared

/-- A caller's pass is over. -/
def passed (shared : Shared) (caller : Nat) : CountingSemaphoreState × Pass → Shared
  | (state, .permit) =>
    { shared with
      state
      standing := shared.standing.set caller .holding
      granted := shared.granted ++ [caller] }
  | (state, .timedOut) =>
    { shared with
      state
      standing := shared.standing.set caller .left
      timedOut := shared.timedOut ++ [caller] }
  | (state, .waiting waiterId) =>
    { shared with state, standing := shared.standing.set caller (.waiting waiterId) }

/-- The callers that hold a permit. -/
def holders (shared : Shared) : List Nat :=
  (List.range shared.standing.length).filter fun caller =>
    shared.standing[caller]? = some .holding

end Shared

/-- What the callers do: one more of them, a first pass, a later pass of a waiter, the drop of
a permit. -/
inductive Action where
  | join
  | acquire (caller : Nat) (expired : Bool)
  | wake (caller : Nat) (expired : Bool)
  | release (caller : Nat)

def step (shared : Shared) : Action → Option Shared
  | .join => some { shared with standing := shared.standing ++ [.outside] }
  | .acquire caller expired =>
    if shared.standing[caller]? = some .outside then
      some (Shared.passed { shared with arrived := shared.arrived ++ [caller] } caller
        (shared.state.acquireUntil expired))
    else none
  | .wake caller expired =>
    match shared.standing[caller]? with
    | some (.waiting waiterId) => some (shared.passed caller (shared.state.wake waiterId expired))
    | _ => none
  | .release caller =>
    if shared.standing[caller]? = some .holding then
      some { shared with
        state := shared.state.release
        standing := shared.standing.set caller .left }
    else none

def machine (capacity : Nat) : Machine Shared Action where
  start := { state := .new capacity }
  step := step

/-! ## The line of waiters -/

theorem count_set {standing : List Standing} {caller : Nat} {old : Standing}
    (found : standing[caller]? = some old) (new : Standing) :
    (standing.set caller new).count .holding + (if old = .holding then 1 else 0) =
      standing.count .holding + (if new = .holding then 1 else 0) := by
  obtain ⟨within, here⟩ := List.getElem?_eq_some_iff.mp found
  have held : old = .holding → 0 < standing.count .holding := fun same =>
    List.count_pos_iff.mpr (same ▸ List.mem_of_getElem? found)
  rw [List.count_set within, here]
  by_cases before : old = .holding
  · have positive := held before
    simp only [before, beq_self_eq_true, if_true, beq_iff_eq]
    omega
  · simp only [before, beq_iff_eq, if_false]
    omega

theorem getElem?_set_iff {standing : List Standing} {caller : Nat} {old : Standing}
    (found : standing[caller]? = some old) (new : Standing) (other : Nat) :
    (standing.set caller new)[other]? = if caller = other then some new else standing[other]? := by
  obtain ⟨within, -⟩ := List.getElem?_eq_some_iff.mp found
  rw [List.getElem?_set]
  by_cases here : caller = other
  · rw [if_pos here, if_pos within, if_pos here]
  · rw [if_neg here, if_neg here]

/-- The queue holds the waiting callers in the order of their arrival: `line` pairs each waiter
id with its caller. -/
structure Lined (capacity : Nat) (shared : Shared) (line : List (Nat × Nat)) : Prop where
  queued : shared.state.queue = line.map Prod.fst
  ascending : (line.map Prod.fst).Pairwise (· < ·)
  fresh : ∀ place ∈ line, place.1 < shared.state.nextWaiterId
  stands : ∀ id caller, (id, caller) ∈ line ↔ shared.standing[caller]? = some (.waiting id)
  served : shared.arrived.filter (· ∉ shared.timedOut) = shared.granted ++ line.map Prod.snd
  once : shared.arrived.Nodup
  stood : ∀ caller ∈ shared.arrived, ∃ standing,
    shared.standing[caller]? = some standing ∧ standing ≠ .outside
  came : ∀ caller ∈ shared.timedOut, caller ∈ shared.arrived
  conserved : shared.state.available + shared.standing.count .holding = capacity

section Lined

variable {capacity caller id : Nat} {shared : Shared} {line : List (Nat × Nat)}

theorem lined_new (capacity : Nat) : Lined capacity { state := .new capacity } [] where
  queued := rfl
  ascending := .nil
  fresh := nofun
  stands := fun _ _ => by simp
  served := rfl
  once := .nil
  stood := nofun
  came := nofun
  conserved := rfl

variable (lined : Lined capacity shared line)
include lined

theorem Lined.waited (waits : shared.standing[caller]? = some (.waiting id)) :
    (id, caller) ∈ line :=
  (lined.stands id caller).mpr waits

/-- A caller stands in the line under one id only, and an id belongs to one caller. -/
theorem Lined.same_caller {other : Nat} (mem : (id, caller) ∈ line) (also : (id, other) ∈ line) :
    caller = other := by
  have distinct : (line.map Prod.fst).Nodup := lined.ascending.imp Nat.ne_of_lt
  exact congrArg Prod.snd (List.inj_on_of_nodup_map distinct mem also rfl)

theorem Lined.same_id {other : Nat} (mem : (id, caller) ∈ line) (also : (other, caller) ∈ line) :
    id = other := by
  have first := (lined.stands _ _).mp mem
  rw [(lined.stands _ _).mp also] at first
  cases first
  rfl

theorem Lined.callers_nodup : (line.map Prod.snd).Nodup := by
  have distinct := lined.once.filter (· ∉ shared.timedOut)
  rw [lined.served] at distinct
  exact (List.nodup_append.mp distinct).2.1

theorem Lined.not_granted (mem : (id, caller) ∈ line) : caller ∉ shared.granted := by
  intro before
  have distinct := lined.once.filter (· ∉ shared.timedOut)
  rw [lined.served] at distinct
  exact (List.nodup_append.mp distinct).2.2 caller before caller
    (List.mem_map.mpr ⟨_, mem, rfl⟩) rfl

/-- A caller that is granted a permit at the head of the line. -/
theorem Lined.grant (waits : shared.standing[caller]? = some (.waiting id))
    (first : shared.state.queue.head? = some id) (free : 0 < shared.state.available) :
    ∃ rest, line = (id, caller) :: rest ∧ Lined capacity
      (shared.passed caller
        ({ shared.state with
          queue := shared.state.queue.tail
          available := shared.state.available - 1 }, .permit)) rest := by
  have mem := lined.waited waits
  cases line with
  | nil => cases mem
  | cons place rest =>
    rw [lined.queued, List.map_cons, List.head?_cons, Option.some.injEq] at first
    obtain ⟨_, holder⟩ := place
    subst first
    obtain rfl : holder = caller := lined.same_caller (.head _) mem
    have later : ∀ other, (other, holder) ∉ rest := fun other also => by
      obtain rfl := lined.same_id (.head _) (.tail _ also)
      have distinct := lined.ascending
      rw [List.map_cons, List.pairwise_cons] at distinct
      exact Nat.lt_irrefl _ (distinct.1 _ (List.mem_map.mpr ⟨_, also, rfl⟩))
    have counted := count_set waits .holding
    refine ⟨rest, rfl, ⟨?_, ?_, ?_, ?_, ?_, lined.once, ?_, lined.came, ?_⟩⟩
    · simp [Shared.passed, lined.queued]
    · exact (List.pairwise_cons.mp lined.ascending).2
    · exact fun place mem => lined.fresh place (.tail _ mem)
    · intro other person
      simp only [Shared.passed, getElem?_set_iff waits]
      by_cases here : holder = person
      · subst here
        simp [later]
      · rw [if_neg here, ← lined.stands]
        constructor
        · exact .tail _
        · intro member
          cases member with
          | head => exact absurd rfl here
          | tail _ member => exact member
    · change shared.arrived.filter (· ∉ shared.timedOut) =
        shared.granted ++ [holder] ++ rest.map Prod.snd
      rw [lined.served, List.append_assoc]
      rfl
    · intro person arrived
      obtain ⟨standing, found, inside⟩ := lined.stood person arrived
      simp only [Shared.passed, getElem?_set_iff waits]
      by_cases here : holder = person
      · exact ⟨.holding, if_pos here, nofun⟩
      · exact ⟨standing, by rw [if_neg here, found], inside⟩
    · have conserved := lined.conserved
      simp only [Shared.passed, reduceCtorEq, if_false, if_true] at counted ⊢
      omega

/-- A caller that gives up, wherever it stands in the line. -/
theorem Lined.giveUp (waits : shared.standing[caller]? = some (.waiting id)) :
    Lined capacity
      (shared.passed caller
        ({ shared.state with queue := shared.state.queue.filter (· ≠ id) }, .timedOut))
      (line.filter fun place => place.1 ≠ id) := by
  have mem := lined.waited waits
  have own : ∀ place ∈ line, place.1 = id ↔ place.2 = caller := by
    rintro ⟨other, person⟩ member
    constructor
    · rintro rfl
      exact lined.same_caller member mem
    · rintro rfl
      exact lined.same_id member mem
  have counted := count_set waits .left
  refine ⟨?_, ?_, ?_, ?_, ?_, lined.once, ?_, ?_, ?_⟩
  · simp only [Shared.passed, lined.queued, List.filter_map]
    rfl
  · exact lined.ascending.sublist (List.filter_sublist.map _)
  · exact fun place mem => lined.fresh place (List.mem_of_mem_filter mem)
  · intro other person
    simp only [Shared.passed, getElem?_set_iff waits, List.mem_filter, decide_eq_true_eq]
    by_cases here : caller = person
    · subst here
      simp only [if_true, Option.some.injEq, reduceCtorEq, iff_false, not_and, not_not]
      exact fun member => lined.same_id member mem
    · rw [if_neg here, ← lined.stands]
      exact ⟨And.left, fun member => ⟨member, fun same => here ((own _ member).mp same).symm⟩⟩
  · have split : ∀ people : List Nat,
        people.filter (· ∉ shared.timedOut ++ [caller]) =
          (people.filter (· ∉ shared.timedOut)).filter (· ≠ caller) := fun people => by
      rw [List.filter_filter]
      refine List.filter_congr fun person _ => ?_
      simp [and_comm]
    have kept : (line.map Prod.snd).filter (· ≠ caller) =
        (line.filter fun place => place.1 ≠ id).map Prod.snd := by
      rw [List.filter_map]
      refine congrArg _ (List.filter_congr fun place member => ?_)
      simp [own place member]
    have others : shared.granted.filter (· ≠ caller) = shared.granted := by
      refine List.filter_eq_self.mpr fun person granted => decide_eq_true ?_
      rintro rfl
      exact lined.not_granted mem granted
    change shared.arrived.filter (· ∉ shared.timedOut ++ [caller]) =
      shared.granted ++ (line.filter fun place => place.1 ≠ id).map Prod.snd
    rw [split, lined.served, List.filter_append, kept, others]
  · intro person arrived
    obtain ⟨standing, found, inside⟩ := lined.stood person arrived
    simp only [Shared.passed, getElem?_set_iff waits]
    by_cases here : caller = person
    · exact ⟨.left, if_pos here, nofun⟩
    · exact ⟨standing, by rw [if_neg here, found], inside⟩
  · intro person gone
    obtain before | now := List.mem_append.mp gone
    · exact lined.came person before
    · obtain rfl := List.mem_singleton.mp now
      have arrived : person ∈ shared.arrived.filter (· ∉ shared.timedOut) := by
        rw [lined.served]
        exact List.mem_append_right _ (List.mem_map.mpr ⟨_, mem, rfl⟩)
      exact List.mem_of_mem_filter arrived
  · have conserved := lined.conserved
    simp only [Shared.passed, reduceCtorEq, if_false] at counted ⊢
    omega

theorem Lined.wake (waits : shared.standing[caller]? = some (.waiting id)) (expired : Bool) :
    ∃ line, Lined capacity (shared.passed caller (shared.state.wake id expired)) line := by
  unfold CountingSemaphoreState.wake
  split
  · next turn =>
    obtain ⟨rest, -, granted⟩ := lined.grant waits turn.1 turn.2
    exact ⟨rest, granted⟩
  · split
    · exact ⟨_, lined.giveUp waits⟩
    · have same : shared.standing.set caller (.waiting id) = shared.standing := by
        obtain ⟨within, here⟩ := List.getElem?_eq_some_iff.mp waits
        rw [← here, List.set_getElem_self]
      refine ⟨line, ?_⟩
      rw [Shared.passed, same]
      exact lined

/-- The caller that has just joined the queue. -/
def Shared.queued (shared : Shared) (caller : Nat) : Shared :=
  { shared with
    state := shared.state.push
    standing := shared.standing.set caller (.waiting shared.state.nextWaiterId)
    arrived := shared.arrived ++ [caller] }

theorem Lined.not_arrived (outside : shared.standing[caller]? = some .outside) :
    caller ∉ shared.arrived := by
  intro arrived
  obtain ⟨standing, found, inside⟩ := lined.stood caller arrived
  rw [outside, Option.some.injEq] at found
  exact inside found.symm

theorem Lined.stood_arrived (outside : shared.standing[caller]? = some .outside)
    {new : Standing} (inside : new ≠ .outside) :
    ∀ person ∈ shared.arrived ++ [caller], ∃ standing,
      (shared.standing.set caller new)[person]? = some standing ∧ standing ≠ .outside := by
  intro person mem
  rw [getElem?_set_iff outside]
  by_cases here : caller = person
  · exact ⟨new, if_pos here, inside⟩
  · obtain before | now := List.mem_append.mp mem
    · obtain ⟨standing, found, other⟩ := lined.stood person before
      exact ⟨standing, by rw [if_neg here, found], other⟩
    · exact absurd (List.mem_singleton.mp now).symm here

theorem Lined.once_arrived (outside : shared.standing[caller]? = some .outside) :
    (shared.arrived ++ [caller]).Nodup :=
  List.nodup_append.mpr ⟨lined.once, List.nodup_singleton _, fun _ before _ now same =>
    lined.not_arrived outside (List.mem_singleton.mp now ▸ same ▸ before)⟩

theorem Lined.served_arrived (outside : shared.standing[caller]? = some .outside) :
    (shared.arrived ++ [caller]).filter (· ∉ shared.timedOut) =
      shared.granted ++ line.map Prod.snd ++ [caller] := by
  have present : caller ∉ shared.timedOut := fun gone =>
    lined.not_arrived outside (lined.came caller gone)
  rw [List.filter_append, lined.served]
  simp [present]

theorem Lined.push (outside : shared.standing[caller]? = some .outside) :
    Lined capacity (shared.queued caller) (line ++ [(shared.state.nextWaiterId, caller)]) := by
  have counted := count_set outside (.waiting shared.state.nextWaiterId)
  refine ⟨?_, ?_, ?_, ?_, ?_, lined.once_arrived outside, lined.stood_arrived outside nofun,
    fun person gone => List.mem_append_left _ (lined.came person gone), ?_⟩
  · simp [Shared.queued, CountingSemaphoreState.push, lined.queued]
  · rw [List.map_append]
    refine List.pairwise_append.mpr ⟨lined.ascending, List.pairwise_singleton _ _, ?_⟩
    intro other before id now
    obtain ⟨place, mem, rfl⟩ := List.mem_map.mp before
    obtain rfl := List.mem_singleton.mp now
    exact lined.fresh place mem
  · intro place mem
    obtain before | now := List.mem_append.mp mem
    · exact Nat.lt_succ_of_lt (lined.fresh place before)
    · obtain rfl := List.mem_singleton.mp now
      exact Nat.lt_succ_self _
  · intro other person
    simp only [Shared.queued, getElem?_set_iff outside, List.mem_append, List.mem_singleton,
      Prod.mk.injEq, lined.stands]
    by_cases here : caller = person
    · subst here
      simp [outside, eq_comm]
    · simp [here, Ne.symm here]
  · rw [List.map_append, ← List.append_assoc]
    exact lined.served_arrived outside
  · have conserved := lined.conserved
    simp only [Shared.queued, CountingSemaphoreState.push, reduceCtorEq, if_false] at counted ⊢
    omega

omit lined in
theorem passed_queued (result : CountingSemaphoreState × Pass) :
    (shared.queued caller).passed caller result =
      Shared.passed { shared with arrived := shared.arrived ++ [caller] } caller result := by
  obtain ⟨state, pass⟩ := result
  cases pass <;> simp [Shared.passed, Shared.queued, List.set_set]

theorem Lined.acquire (outside : shared.standing[caller]? = some .outside) (expired : Bool) :
    ∃ line, Lined capacity
      (Shared.passed { shared with arrived := shared.arrived ++ [caller] } caller
        (shared.state.acquireUntil expired)) line := by
  unfold CountingSemaphoreState.acquireUntil
  split
  · next free =>
    have counted := count_set outside .holding
    have empty : line = [] := by
      have none := free.1
      rw [lined.queued, List.isEmpty_iff] at none
      exact List.map_eq_nil_iff.mp none
    subst empty
    refine ⟨[], lined.queued, .nil, nofun, ?_, ?_, lined.once_arrived outside,
      lined.stood_arrived outside nofun,
      fun person gone => List.mem_append_left _ (lined.came person gone), ?_⟩
    · intro other person
      simp only [Shared.passed, getElem?_set_iff outside]
      by_cases here : caller = person
      · simp [here]
      · rw [if_neg here, ← lined.stands]
    · change (shared.arrived ++ [caller]).filter (· ∉ shared.timedOut) =
        shared.granted ++ [caller] ++ []
      rw [lined.served_arrived outside, List.map_nil, List.append_nil, List.append_nil]
    · have conserved := lined.conserved
      simp only [Shared.passed, reduceCtorEq, if_false, if_true] at counted ⊢
      omega
  · obtain ⟨within, -⟩ := List.getElem?_eq_some_iff.mp outside
    have waits : (shared.queued caller).standing[caller]? =
        some (.waiting shared.state.nextWaiterId) := by
      rw [Shared.queued, getElem?_set_iff outside, if_pos rfl]
    rw [← passed_queued]
    exact (lined.push outside).wake waits expired

theorem Lined.step {action : Action} {shared' : Shared}
    (stepped : step shared action = some shared') : ∃ line, Lined capacity shared' line := by
  cases action with
  | join =>
    cases stepped
    refine ⟨line, ⟨lined.queued, lined.ascending, lined.fresh, ?_, lined.served, lined.once, ?_,
      lined.came, ?_⟩⟩
    · intro id caller
      rw [lined.stands]
      by_cases within : caller < shared.standing.length
      · rw [List.getElem?_append_left within]
      · have beyond := Nat.le_of_not_lt within
        rw [List.getElem?_append_right beyond, List.getElem?_eq_none beyond]
        cases caller - shared.standing.length <;> simp
    · intro caller arrived
      obtain ⟨standing, found, inside⟩ := lined.stood caller arrived
      have within := (List.getElem?_eq_some_iff.mp found).1
      exact ⟨standing, by rw [List.getElem?_append_left within, found], inside⟩
    · have conserved := lined.conserved
      simpa [List.count_append] using conserved
  | acquire caller expired =>
    obtain ⟨outside, same⟩ := Option.ite_none_right_eq_some.mp stepped
    cases same
    exact lined.acquire outside expired
  | wake caller expired =>
    simp only [CountingSemaphore.step] at stepped
    split at stepped
    · next id waits =>
      cases stepped
      exact lined.wake waits expired
    · cases stepped
  | release caller =>
    obtain ⟨holds, same⟩ := Option.ite_none_right_eq_some.mp stepped
    cases same
    have counted := count_set holds .left
    refine ⟨line, ⟨lined.queued, lined.ascending, lined.fresh, ?_, lined.served, lined.once, ?_,
      lined.came, ?_⟩⟩
    · intro id person
      rw [getElem?_set_iff holds, lined.stands]
      by_cases here : caller = person
      · subst here
        simp [holds]
      · rw [if_neg here]
    · intro person arrived
      rw [getElem?_set_iff holds]
      obtain ⟨standing, found, inside⟩ := lined.stood person arrived
      by_cases here : caller = person
      · exact ⟨.left, if_pos here, nofun⟩
      · exact ⟨standing, by rw [if_neg here, found], inside⟩
    · have conserved := lined.conserved
      simp only [CountingSemaphoreState.release, reduceCtorEq, if_false, if_true] at counted ⊢
      omega

end Lined

/-- Who was served and who gave up stays so. -/
theorem passed_grows (shared : Shared) (caller : Nat) (result : CountingSemaphoreState × Pass) :
    shared.granted ⊆ (shared.passed caller result).granted ∧
      shared.timedOut ⊆ (shared.passed caller result).timedOut := by
  obtain ⟨state, pass⟩ := result
  cases pass with
  | permit => exact ⟨List.subset_append_left _ _, fun _ => id⟩
  | timedOut => exact ⟨fun _ => id, List.subset_append_left _ _⟩
  | waiting => exact ⟨fun _ => id, fun _ => id⟩

theorem step_grows {shared shared' : Shared} {action : Action}
    (stepped : step shared action = some shared') :
    shared.granted ⊆ shared'.granted ∧ shared.timedOut ⊆ shared'.timedOut := by
  cases action with
  | join =>
    cases stepped
    exact ⟨fun _ => id, fun _ => id⟩
  | acquire caller expired =>
    obtain ⟨-, same⟩ := Option.ite_none_right_eq_some.mp stepped
    cases same
    exact passed_grows { shared with arrived := shared.arrived ++ [caller] } caller _
  | wake caller expired =>
    simp only [step] at stepped
    split at stepped
    · cases stepped
      exact passed_grows _ _ _
    · cases stepped
  | release caller =>
    obtain ⟨-, same⟩ := Option.ite_none_right_eq_some.mp stepped
    cases same
    exact ⟨fun _ => id, fun _ => id⟩

/-- The caller whose pass an action is. -/
def Action.caller? : Action → Option Nat
  | .join => none
  | .acquire caller _ | .wake caller _ | .release caller => some caller

/-- Where a caller stands when one of its steps is taken. -/
theorem standing_before {shared shared' : Shared} {action : Action} {caller : Nat}
    (stepped : step shared action = some shared') (acts : action.caller? = some caller) :
    (∃ expired, action = .acquire caller expired ∧ shared.standing[caller]? = some .outside) ∨
      (∃ expired id, action = .wake caller expired ∧
        shared.standing[caller]? = some (.waiting id)) ∨
      (action = .release caller ∧ shared.standing[caller]? = some .holding) := by
  cases action <;> cases acts
  case acquire expired =>
    exact .inl ⟨expired, rfl, (Option.ite_none_right_eq_some.mp stepped).1⟩
  case wake expired =>
    simp only [step] at stepped
    split at stepped
    · next id waits => exact .inr (.inl ⟨expired, id, rfl, waits⟩)
    · cases stepped
  case release => exact .inr (.inr ⟨rfl, (Option.ite_none_right_eq_some.mp stepped).1⟩)

/-- A caller's step changes where this caller stands, and nothing else. -/
theorem standing_step {shared shared' : Shared} {action : Action} {caller : Nat}
    (stepped : step shared action = some shared') (acts : action.caller? = some caller) :
    ∃ standing, shared'.standing = shared.standing.set caller standing := by
  have passed : ∀ (shared : Shared) (result : CountingSemaphoreState × Pass),
      ∃ standing, (shared.passed caller result).standing = shared.standing.set caller standing := by
    rintro shared ⟨state, pass⟩
    cases pass <;> exact ⟨_, rfl⟩
  cases action <;> cases acts
  case acquire expired =>
    obtain ⟨-, same⟩ := Option.ite_none_right_eq_some.mp stepped
    cases same
    exact passed _ _
  case wake expired =>
    simp only [step] at stepped
    split at stepped
    · cases stepped
      exact passed _ _
    · cases stepped
  case release =>
    obtain ⟨-, same⟩ := Option.ite_none_right_eq_some.mp stepped
    cases same
    exact ⟨_, rfl⟩

/-! ## The callers that hold a permit -/

theorem length_filter_range (standing : List Standing) (wanted : Standing) :
    ((List.range standing.length).filter fun caller => standing[caller]? = some wanted).length =
      standing.count wanted := by
  induction standing using List.reverseRecOn with
  | nil => rfl
  | append_singleton front last ih =>
    have same : (List.range front.length).filter
          (fun caller => (front ++ [last])[caller]? = some wanted) =
        (List.range front.length).filter fun caller => front[caller]? = some wanted :=
      List.filter_congr fun caller mem => by
        rw [List.getElem?_append_left (List.mem_range.mp mem)]
    rw [List.length_append, List.length_singleton, List.range_succ, List.filter_append,
      List.length_append, same, ih, List.count_append]
    by_cases here : last = wanted <;> simp [here]

theorem length_holders (shared : Shared) :
    shared.holders.length = shared.standing.count .holding :=
  length_filter_range shared.standing .holding

theorem mem_holders {shared : Shared} {caller : Nat} :
    caller ∈ shared.holders ↔ shared.standing[caller]? = some .holding := by
  rw [Shared.holders, List.mem_filter, decide_eq_true_eq, List.mem_range]
  exact ⟨And.right, fun holds => ⟨(List.getElem?_eq_some_iff.mp holds).1, holds⟩⟩

theorem holders_nodup (shared : Shared) : shared.holders.Nodup :=
  List.nodup_range.filter _

/-! ## A waiter that nobody has to make room for -/

/-- A waiter with fewer waiters ahead of it than there are permits. -/
def Unobstructed (shared : Shared) (caller : Nat) : Prop :=
  ∃ id ahead behind, shared.standing[caller]? = some (.waiting id) ∧
    shared.state.queue = ahead ++ id :: behind ∧ ahead.length < shared.state.available

section Unobstructed

variable {capacity caller : Nat} {shared shared' : Shared} {line : List (Nat × Nat)}

/-- An arrival at a semaphore with more permits than waiters. -/
theorem Lined.arrival (lined : Lined capacity shared line)
    (outside : shared.standing[caller]? = some .outside)
    (room : line.length < shared.state.available) (expired : Bool)
    (stepped : CountingSemaphore.step shared (.acquire caller expired) = some shared') :
    caller ∈ shared'.granted ∨ Unobstructed shared' caller ∨
      (caller ∈ shared'.timedOut ∧ expired = true) := by
  have length : shared.state.queue.length = line.length := by
    rw [lined.queued, List.length_map]
  obtain ⟨-, same⟩ := Option.ite_none_right_eq_some.mp stepped
  cases same
  unfold CountingSemaphoreState.acquireUntil
  split
  · exact .inl (List.mem_append_right _ (.head _))
  · next busy =>
    unfold CountingSemaphoreState.wake
    split
    · exact .inl (List.mem_append_right _ (.head _))
    · split
      · next late =>
        exact .inr (.inr ⟨List.mem_append_right _ (.head _), late⟩)
      · refine .inr (.inl ⟨shared.state.nextWaiterId, shared.state.queue, [], ?_, rfl, ?_⟩)
        · simp only [Shared.passed, getElem?_set_iff outside, if_true]
        · change shared.state.queue.length < shared.state.available
          omega

/-- What another waiter's pass does to a place in the queue. -/
theorem wake_ahead {state : CountingSemaphoreState} {id other : Nat} (ne : other ≠ id)
    {ahead behind : List Nat} (queued : state.queue = ahead ++ id :: behind)
    (room : ahead.length < state.available) (expired : Bool) :
    ∃ ahead' behind', (state.wake other expired).1.queue = ahead' ++ id :: behind' ∧
      ahead'.length < (state.wake other expired).1.available := by
  unfold CountingSemaphoreState.wake
  split
  · next turn =>
    rw [queued] at turn
    cases ahead with
    | nil => exact absurd (Option.some.inj turn.1).symm ne
    | cons first rest =>
      refine ⟨rest, behind, by rw [queued]; rfl, ?_⟩
      rw [List.length_cons] at room
      dsimp only
      omega
  · split
    · refine ⟨ahead.filter (· ≠ other), behind.filter (· ≠ other), ?_, ?_⟩
      · dsimp only
        rw [queued, List.filter_append, List.filter_cons, if_pos (decide_eq_true ne.symm)]
      · exact Nat.lt_of_le_of_lt (List.length_filter_le _ _) room
    · exact ⟨ahead, behind, queued, room⟩

theorem standing_passed {other : Nat} (ne : other ≠ caller)
    (result : CountingSemaphoreState × Pass) :
    (shared.passed other result).standing[caller]? = shared.standing[caller]? := by
  obtain ⟨state, pass⟩ := result
  cases pass <;> exact List.getElem?_set_ne ne

theorem state_passed (caller : Nat) (result : CountingSemaphoreState × Pass) :
    (shared.passed caller result).state = result.1 := by
  obtain ⟨state, pass⟩ := result
  cases pass <;> rfl

/-- No step puts an obstacle before such a waiter: it is served, or leaves by its own deadline. -/
theorem Unobstructed.step (lined : Lined capacity shared line)
    (clear : Unobstructed shared caller) {action : Action}
    (stepped : CountingSemaphore.step shared action = some shared') :
    Unobstructed shared' caller ∨ caller ∈ shared'.granted ∨
      (caller ∈ shared'.timedOut ∧ action = .wake caller true) := by
  obtain ⟨id, ahead, behind, waits, queued, room⟩ := clear
  cases action with
  | join =>
    cases stepped
    have within := (List.getElem?_eq_some_iff.mp waits).1
    exact .inl ⟨id, ahead, behind, by rw [List.getElem?_append_left within, waits], queued, room⟩
  | acquire other expired =>
    obtain ⟨outside, same⟩ := Option.ite_none_right_eq_some.mp stepped
    cases same
    have ne : other ≠ caller := by
      rintro rfl
      rw [waits] at outside
      cases outside
    have busy : ¬ (shared.state.queue.isEmpty ∧ 0 < shared.state.available) := by
      simp [queued]
    have fresh : shared.state.nextWaiterId ≠ id := by
      have mem := lined.fresh _ (lined.waited waits)
      omega
    have pushed : shared.state.push.queue =
        ahead ++ id :: (behind ++ [shared.state.nextWaiterId]) := by
      simp [CountingSemaphoreState.push, queued]
    obtain ⟨ahead', behind', queued', room'⟩ := wake_ahead fresh pushed room expired
    refine .inl ⟨id, ahead', behind', ?_, ?_, ?_⟩
    · rw [standing_passed ne]
      exact waits
    · rw [state_passed, CountingSemaphoreState.acquireUntil, if_neg busy, queued']
    · rwa [state_passed, CountingSemaphoreState.acquireUntil, if_neg busy]
  | wake other expired =>
    simp only [CountingSemaphore.step] at stepped
    split at stepped
    · next id' waits' =>
      cases stepped
      by_cases here : other = caller
      · subst here
        obtain rfl : id = id' := by
          rw [waits] at waits'
          cases waits'
          rfl
        unfold CountingSemaphoreState.wake
        split
        · exact .inr (.inl (List.mem_append_right _ (.head _)))
        · split
          · next late =>
            exact .inr (.inr ⟨List.mem_append_right _ (.head _), by rw [late]⟩)
          · refine .inl ⟨id, ahead, behind, ?_, queued, room⟩
            simp only [Shared.passed, getElem?_set_iff waits, if_true]
      · have ne : id' ≠ id := by
          rintro rfl
          exact here (lined.same_caller (lined.waited waits') (lined.waited waits))
        obtain ⟨ahead', behind', queued', room'⟩ := wake_ahead ne queued room expired
        refine .inl ⟨id, ahead', behind', ?_, ?_, ?_⟩
        · rw [standing_passed here, waits]
        · rw [state_passed, queued']
        · rwa [state_passed]
    · cases stepped
  | release other =>
    obtain ⟨holds, same⟩ := Option.ite_none_right_eq_some.mp stepped
    cases same
    have ne : other ≠ caller := by
      rintro rfl
      rw [waits] at holds
      cases holds
    refine .inl ⟨id, ahead, behind, ?_, queued, Nat.lt_succ_of_lt room⟩
    rw [List.getElem?_set_ne ne, waits]

/-- The first waiter is granted a permit at its next pass, whatever its deadline. -/
theorem step_wake_first {id : Nat} {rest : List Nat}
    (waits : shared.standing[caller]? = some (.waiting id))
    (queued : shared.state.queue = id :: rest) (free : 0 < shared.state.available)
    (expired : Bool) :
    step shared (.wake caller expired) = some (shared.passed caller
      ({ shared.state with queue := rest, available := shared.state.available - 1 }, .permit)) := by
  simp only [CountingSemaphore.step, waits]
  rw [CountingSemaphoreState.wake, if_pos ⟨by rw [queued]; rfl, free⟩, queued]
  rfl

/-- The passes of the waiters ahead, and then its own, serve such a waiter: no permit has to be
given back. -/
theorem Unobstructed.served (lined : Lined capacity shared line)
    (clear : Unobstructed shared caller) (expired : Nat → Bool) :
    ∃ ahead final, (machine capacity).run shared
        ((ahead ++ [caller]).map fun waiter => .wake waiter (expired waiter)) = some final ∧
      final.standing[caller]? = some .holding := by
  obtain ⟨id, ahead, behind, waits, queued, room⟩ := clear
  induction ahead generalizing shared line with
  | nil =>
    have stepped := step_wake_first waits queued (by simpa using room) (expired caller)
    refine ⟨[], _, Option.bind_eq_some_iff.mpr ⟨_, stepped, rfl⟩, ?_⟩
    · simp only [Shared.passed, getElem?_set_iff waits, if_true]
  | cons first rest ih =>
    rw [List.length_cons] at room
    have placed : first ∈ line.map Prod.fst := by
      rw [← lined.queued, queued]
      exact .head _
    obtain ⟨⟨_, waiter⟩, mem, rfl⟩ := List.mem_map.mp placed
    have waiting := (lined.stands _ _).mp mem
    have stepped := step_wake_first waiting queued (by omega) (expired waiter)
    obtain ⟨line', lined'⟩ := lined.step stepped
    have ne : waiter ≠ caller := by
      rintro rfl
      rw [waits] at waiting
      cases waiting
      have ascending := lined.ascending
      rw [← lined.queued, queued, List.cons_append, List.pairwise_cons] at ascending
      exact Nat.lt_irrefl _ (ascending.1 _ (List.mem_append_right _ (.head _)))
    obtain ⟨waiters, final, run, holds⟩ := ih lined'
      (by rw [standing_passed ne, waits]) rfl (by rw [state_passed]; dsimp only; omega)
    exact ⟨waiter :: waiters, final, Option.bind_eq_some_iff.mpr ⟨_, stepped, run⟩, holds⟩

end Unobstructed

end Foco.CountingSemaphore
