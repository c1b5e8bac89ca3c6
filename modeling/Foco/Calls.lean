import Foco.Programs
import Mathlib.Data.List.GetD

/-!
Calls that run programs beside each other on one store. The state keeps a history: which call
ran which statement, and the store before and after it. What a program promises is a property of
the statements it has run so far, whatever the others do between them as long as it meets a
relation, and of its result. A pool of calls keeps the promises of all.
-/
namespace Foco.Programs
open Foco.Runs

/-- One statement as it ran. -/
structure Move (Store Label : Type) where
  label : Label
  before : Store
  after : Store

variable {Store Label Error : Type}

/-- Since the last of some statements others have moved the store as they may. -/
def Since (others : Store → Store → Prop) (moves : List (Move Store Label)) (store : Store) :
    Prop := ∀ move ∈ moves.getLast?, others move.after store

/-! ## What a program promises -/

namespace Program

variable {α β : Type}

/-- After the statements `moves` the rest of a program keeps `always` at each of its own
statements and ends in `ends`. -/
def Promises (others : Store → Store → Prop) (always : List (Move Store Label) → Prop)
    (ends : List (Move Store Label) → Except Error α → Prop) :
    List (Move Store Label) → Program Store Label Error α → Prop
  | moves, .done result => ends moves result
  | moves, .atomic label statement next => ∀ store, Since others moves store →
    match statement store with
    | .ok (after, b) =>
      always (moves ++ [⟨label, store, after⟩]) ∧
        (next b).Promises others always ends (moves ++ [⟨label, store, after⟩])
    | .error e => ends moves (.error e)

variable {others : Store → Store → Prop} {always : List (Move Store Label) → Prop}
  {moves : List (Move Store Label)}

/-- What the first part of a program promises of its end, the rest may rely on. -/
theorem Promises.bind {x : Program Store Label Error α} {f : α → Program Store Label Error β}
    {ends : List (Move Store Label) → Except Error β → Prop}
    (first : x.Promises others always (fun moves result => match result with
      | .ok a => (f a).Promises others always ends moves
      | .error e => ends moves (.error e)) moves) :
    (x >>= f).Promises others always ends moves := by
  induction x generalizing moves with
  | done result =>
    cases result with
    | error e => exact first
    | ok a => exact first
  | atomic label statement next ih =>
    intro store since
    have step := first store since
    cases written : statement store with
    | error e =>
      rw [written] at step
      exact step
    | ok done =>
      rw [written] at step
      exact ⟨step.1, ih done.2 step.2⟩

theorem Promises.mono {x : Program Store Label Error α}
    {ends ends' : List (Move Store Label) → Except Error α → Prop}
    (promises : x.Promises others always ends moves)
    (weaker : ∀ {moves result}, ends moves result → ends' moves result) :
    x.Promises others always ends' moves := by
  induction x generalizing moves with
  | done result => exact weaker promises
  | atomic label statement next ih =>
    intro store since
    have step := promises store since
    cases written : statement store with
    | error e =>
      rw [written] at step
      exact weaker step
    | ok done =>
      rw [written] at step
      exact ⟨step.1, ih done.2 step.2⟩

/-- A program of one statement. -/
theorem Promises.one {label : Label} {statement : Store → Except Error (Store × α)}
    {ends : List (Move Store Label) → Except Error α → Prop}
    (succeeds : ∀ store after a, Since others moves store → statement store = .ok (after, a) →
      always (moves ++ [⟨label, store, after⟩]) ∧ ends (moves ++ [⟨label, store, after⟩]) (.ok a))
    (fails : ∀ store e, Since others moves store → statement store = .error e →
      ends moves (.error e)) :
    (one label statement).Promises others always ends moves := by
  intro store since
  cases written : statement store with
  | error e => exact fails store e since written
  | ok done => exact succeeds store done.1 done.2 since written

/-! ## One statement -/

/-- Run the next statement: what it did, unless it failed, and the rest of the program. -/
def step : Program Store Label Error α → Store →
    Option (Option (Move Store Label) × Program Store Label Error α)
  | .done _, _ => none
  | .atomic label statement next, store =>
    match statement store with
    | .ok (after, b) => some (some ⟨label, store, after⟩, next b)
    | .error e => some (none, .done (.error e))

theorem Promises.step {x rest : Program Store Label Error α} {store : Store}
    {move : Option (Move Store Label)} {ends : List (Move Store Label) → Except Error α → Prop}
    (promises : x.Promises others always ends moves) (since : Since others moves store)
    (ran : x.step store = some (move, rest)) :
    (∀ m ∈ move, m.before = store ∧ always (moves ++ [m])) ∧
      rest.Promises others always ends (moves ++ move.toList) := by
  cases x with
  | done result => cases ran
  | atomic label statement next =>
    have kept := promises store since
    simp only [Program.step] at ran
    cases written : statement store with
    | error e =>
      rw [written] at kept ran
      cases ran
      refine ⟨nofun, ?_⟩
      rw [Option.toList_none, List.append_nil]
      exact kept
    | ok done =>
      rw [written] at kept ran
      cases ran
      exact ⟨fun m isMove => Option.mem_some.mp isMove ▸ ⟨rfl, kept.1⟩, kept.2⟩

theorem Respects.step {effect : Label → Store → Store → Prop} {x rest : Program Store Label Error α}
    {store : Store} {move : Option (Move Store Label)} (respects : x.Respects effect)
    (ran : x.step store = some (move, rest)) :
    (∀ m ∈ move, effect m.label store m.after) ∧ rest.Respects effect := by
  cases x with
  | done result => cases ran
  | atomic label statement next =>
    simp only [Program.step] at ran
    cases written : statement store with
    | error e =>
      rw [written] at ran
      cases ran
      exact ⟨nofun, trivial⟩
    | ok done =>
      rw [written] at ran
      cases ran
      exact ⟨fun m isMove => Option.mem_some.mp isMove ▸ respects.1 _ _ _ written,
        respects.2 done.2⟩

theorem Promises.map {x : Program Store Label Error α} {g : α → β}
    {ends : List (Move Store Label) → Except Error β → Prop}
    (promises : x.Promises others always (fun moves result => ends moves (result.map g)) moves) :
    (g <$> x).Promises others always ends moves := by
  apply Promises.bind
  apply promises.mono
  intro moves result ended
  cases result with
  | error e => exact ended
  | ok a => exact ended

/-- A statement and what comes after it. -/
theorem Promises.one_bind {label : Label} {statement : Store → Except Error (Store × α)}
    {f : α → Program Store Label Error β}
    {ends : List (Move Store Label) → Except Error β → Prop}
    (succeeds : ∀ store after a, Since others moves store → statement store = .ok (after, a) →
      always (moves ++ [⟨label, store, after⟩]) ∧
        (f a).Promises others always ends (moves ++ [⟨label, store, after⟩]))
    (fails : ∀ store e, Since others moves store → statement store = .error e →
      ends moves (.error e)) :
    (Program.one label statement >>= f).Promises others always ends moves :=
  (Promises.one succeeds fails).bind

/-- A result that is there already and what comes after it. -/
theorem Promises.done_bind {result : Except Error α} {f : α → Program Store Label Error β}
    {ends : List (Move Store Label) → Except Error β → Prop}
    (succeeds : ∀ a, result = .ok a → (f a).Promises others always ends moves)
    (fails : ∀ e, result = .error e → ends moves (.error e)) :
    ((.done result : Program Store Label Error α) >>= f).Promises others always ends moves := by
  cases result with
  | error e => exact fails e rfl
  | ok a => exact succeeds a rfl

end Program

theorem Since.last {others : Store → Store → Prop} {moves : List (Move Store Label)}
    {move : Move Store Label} {store : Store} (since : Since others (moves ++ [move]) store) :
    others move.after store := since move (by rw [List.getLast?_concat]; rfl)

/-! ## Calls -/

variable {Call Event α : Type}

/-- A store, the calls that were made with what is left of their programs, and the statements
that ran, each with the index of its call. -/
structure Calls (Store Label Error Call α : Type) where
  store : Store
  calls : List (Call × Program Store Label Error α)
  history : List (Nat × Move Store Label)

/-- The statements that one call has run. -/
def movesOf (index : Nat) (history : List (Nat × Move Store Label)) : List (Move Store Label) :=
  history.filterMap fun step => if step.1 = index then some step.2 else none

theorem mem_movesOf {index : Nat} {history : List (Nat × Move Store Label)}
    {move : Move Store Label} : move ∈ movesOf index history ↔ (index, move) ∈ history := by
  simp only [movesOf, List.mem_filterMap, Option.ite_none_right_eq_some, Option.some.injEq]
  constructor
  · rintro ⟨step, mem, rfl, rfl⟩
    exact mem
  · intro mem
    exact ⟨_, mem, rfl, rfl⟩

/-- A statement of a call comes after the others of that call. -/
theorem movesOf_append_self (index : Nat) (history : List (Nat × Move Store Label))
    (move : Option (Move Store Label)) :
    movesOf index (history ++ move.toList.map fun m => (index, m)) =
      movesOf index history ++ move.toList := by
  cases move with
  | none => simp
  | some m => simp [movesOf, List.filterMap_append]

theorem movesOf_append_other {index other : Nat} (apart : other ≠ index)
    (history : List (Nat × Move Store Label)) (move : Option (Move Store Label)) :
    movesOf index (history ++ move.toList.map fun m => (other, m)) = movesOf index history := by
  cases move with
  | none => simp
  | some m => simp [movesOf, List.filterMap_append, apart]

/-- The calls keep what their programs promise: what others do between their statements, what
holds of their statements so far, and what is left to promise. -/
structure CallsKeep (others : Store → Store → Prop)
    (always : Call → List (Move Store Label) → Prop)
    (ends : Call → List (Move Store Label) → Except Error α → Prop)
    (effect : Call → Label → Store → Store → Prop) (state : Calls Store Label Error Call α) :
    Prop where
  running : ∀ index call rest, state.calls[index]? = some (call, rest) →
    Since others (movesOf index state.history) state.store ∧
      always call (movesOf index state.history) ∧
      rest.Promises others (always call) (ends call) (movesOf index state.history) ∧
      rest.Respects (effect call)
  history : ∀ step ∈ state.history, ∃ call rest, state.calls[step.1]? = some (call, rest) ∧
    effect call step.2.label step.2.before step.2.after

variable {start : Store} {program : Call → Program Store Label Error α}
  {event : Event → Store → Store} {others : Store → Store → Prop}
  {always : Call → List (Move Store Label) → Prop}
  {ends : Call → List (Move Store Label) → Except Error α → Prop}
  {effect : Call → Label → Store → Store → Prop}

theorem Since.trans (trans : ∀ a b c, others a b → others b c → others a c)
    {moves : List (Move Store Label)} {store store' : Store} (since : Since others moves store)
    (more : others store store') : Since others moves store' :=
  fun move last => trans _ _ _ (since move last) more

theorem CallsKeep.call {state : Calls Store Label Error Call α}
    (keep : CallsKeep others always ends effect state) {call : Call}
    {running : Program Store Label Error α} (nothing : always call [])
    (promises : running.Promises others (always call) (ends call) [])
    (respects : running.Respects (effect call)) :
    CallsKeep others always ends effect
      { state with calls := state.calls ++ [(call, running)] } where
  running index called rest found := by
    by_cases old : index < state.calls.length
    · rw [List.getElem?_append_left old] at found
      exact keep.running index called rest found
    · rw [List.getElem?_append_right (Nat.le_of_not_lt old), List.getElem?_singleton] at found
      split at found
      · rename_i last
        cases found
        have none : movesOf index state.history = [] := by
          rw [List.eq_nil_iff_forall_not_mem]
          intro move mem
          obtain ⟨_, _, found, _⟩ := keep.history _ (mem_movesOf.mp mem)
          exact old (List.getElem?_eq_some_iff.mp found).1
        rw [none]
        exact ⟨nofun, nothing, promises, respects⟩
      · cases found
  history step mem := by
    obtain ⟨called, rest, found, meets⟩ := keep.history step mem
    refine ⟨called, rest, ?_, meets⟩
    rw [List.getElem?_append_left (List.getElem?_eq_some_iff.mp found).1]
    exact found

theorem CallsKeep.outside (trans : ∀ a b c, others a b → others b c → others a c)
    {state : Calls Store Label Error Call α} (keep : CallsKeep others always ends effect state)
    {store : Store} (moved : others state.store store) :
    CallsKeep others always ends effect { state with store } where
  running index called rest found := by
    obtain ⟨since, kept⟩ := keep.running index called rest found
    exact ⟨since.trans trans moved, kept⟩
  history := keep.history

theorem CallsKeep.step (refl : ∀ store, others store store)
    (trans : ∀ a b c, others a b → others b c → others a c)
    (allows : ∀ {call label store store'}, effect call label store store' → others store store')
    {state : Calls Store Label Error Call α} (keep : CallsKeep others always ends effect state)
    {index : Nat} {call : Call} {running rest : Program Store Label Error α}
    {move : Option (Move Store Label)} (found : state.calls[index]? = some (call, running))
    (ran : running.step state.store = some (move, rest)) :
    CallsKeep others always ends effect {
      store := (move.map Move.after).getD state.store
      calls := state.calls.set index (call, rest)
      history := state.history ++ move.toList.map fun m => (index, m) } := by
  obtain ⟨since, kept, promises, respects⟩ := keep.running index call running found
  obtain ⟨own, promises'⟩ := promises.step since ran
  obtain ⟨meets, respects'⟩ := respects.step ran
  have inRange := (List.getElem?_eq_some_iff.mp found).1
  refine ⟨?_, ?_⟩
  · intro other called left foundLeft
    by_cases same : other = index
    · subst same
      rw [List.getElem?_set_self inRange] at foundLeft
      cases foundLeft
      rw [movesOf_append_self]
      refine ⟨?_, ?_, promises', respects'⟩
      · cases move with
        | none =>
          rw [Option.toList_none, List.append_nil]
          exact since
        | some m =>
          intro last isLast
          rw [Option.toList_some, List.getLast?_concat, Option.mem_some] at isLast
          cases isLast
          exact refl m.after
      · cases move with
        | none =>
          rw [Option.toList_none, List.append_nil]
          exact kept
        | some m => exact (own m (Option.mem_some.mpr rfl)).2
    · rw [List.getElem?_set_ne (Ne.symm same)] at foundLeft
      obtain ⟨since', kept'⟩ := keep.running other called left foundLeft
      rw [movesOf_append_other (Ne.symm same)]
      refine ⟨?_, kept'⟩
      apply since'.trans trans
      cases move with
      | none => exact refl _
      | some m => exact allows (meets m (Option.mem_some.mpr rfl))
  · intro step mem
    rcases List.mem_append.mp mem with old | new
    · obtain ⟨called, left, foundLeft, effects⟩ := keep.history step old
      by_cases same : step.1 = index
      · rw [same, found] at foundLeft
        cases foundLeft
        refine ⟨call, rest, ?_, effects⟩
        rw [same]
        exact List.getElem?_set_self inRange
      · exact ⟨called, left, (List.getElem?_set_ne (Ne.symm same)).trans foundLeft, effects⟩
    · obtain ⟨m, isMove, rfl⟩ := List.mem_map.mp new
      have isMove := Option.mem_toList.mp isMove
      refine ⟨call, rest, List.getElem?_set_self inRange, ?_⟩
      rw [(own m isMove).1]
      exact meets m isMove

end Foco.Programs
