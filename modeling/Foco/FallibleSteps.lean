import Mathlib.Logic.Basic

/-!
Steps that may fail and keep what they did until then: a state goes in, a state and a result come
out. A triple says what holds of the state after a step, with its value if it succeeded.
-/
namespace Foco.FallibleSteps

universe u v w

/-- A step with results in `α`, errors in `ε` and states in `σ`. -/
def Steps (σ : Type u) (ε : Type v) (α : Type w) : Type (max u v w) := σ → Except ε α × σ

namespace Steps

variable {σ : Type u} {ε : Type v} {α β : Type w}

def pure (value : α) : Steps σ ε α := fun state => (.ok value, state)

def fail (error : ε) : Steps σ ε α := fun state => (.error error, state)

def bind (first : Steps σ ε α) (next : α → Steps σ ε β) : Steps σ ε β := fun state =>
  match first state with
  | (.ok value, state') => next value state'
  | (.error error, state') => (.error error, state')

instance : Monad (Steps σ ε) where
  pure := pure
  bind := bind

/-- An effect that always succeeds. -/
def modify (effect : σ → σ) : Steps σ ε PUnit := fun state => (.ok ⟨⟩, effect state)

/-- A look at the state. -/
def view (look : σ → α) : Steps σ ε α := fun state => (.ok (look state), state)

theorem bind_ok {first : Steps σ ε α} {next : α → Steps σ ε β} {state state' : σ} {value : α}
    (done : first state = (.ok value, state')) : (first >>= next) state = next value state' := by
  change bind first next state = _
  unfold bind
  rw [done]

theorem pure_run (value : α) (state : σ) :
    (Pure.pure value : Steps σ ε α) state = (.ok value, state) := rfl

theorem modify_run (effect : σ → σ) (state : σ) :
    (modify effect : Steps σ ε PUnit) state = (.ok ⟨⟩, effect state) := rfl

theorem view_run (look : σ → α) (state : σ) :
    (view look : Steps σ ε α) state = (.ok (look state), state) := rfl

/-- From a state with `before`, a success ends with `after` and a failure with `failed`. -/
def Triple (before : σ → Prop) (steps : Steps σ ε α) (after : α → σ → Prop) (failed : σ → Prop) :
    Prop :=
  ∀ state, before state →
    match steps state with
    | (.ok value, state') => after value state'
    | (.error _, state') => failed state'

variable {before : σ → Prop} {between after : α → σ → Prop} {afterwards : β → σ → Prop}
  {failed : σ → Prop}

theorem triple_pure {value : α} (holds : ∀ state, before state → after value state) :
    Triple before (Pure.pure value : Steps σ ε α) after failed := holds

theorem triple_fail {error : ε} (holds : ∀ state, before state → failed state) :
    Triple before (fail error : Steps σ ε α) after failed := holds

theorem triple_modify {effect : σ → σ} {after : PUnit → σ → Prop}
    (holds : ∀ state, before state → after ⟨⟩ (effect state)) :
    Triple before (modify effect : Steps σ ε PUnit) after failed := holds

theorem triple_view {look : σ → α} (holds : ∀ state, before state → after (look state) state) :
    Triple before (view look : Steps σ ε α) after failed := holds

theorem triple_bind {first : Steps σ ε α} {next : α → Steps σ ε β}
    (here : Triple before first between failed)
    (later : ∀ value, Triple (between value) (next value) afterwards failed) :
    Triple before (first >>= next) afterwards failed := by
  intro state holds
  have first_holds := here state holds
  change match bind first next state with
    | (.ok value, state') => afterwards value state'
    | (.error _, state') => failed state'
  unfold bind
  rcases outcome : first state with ⟨result, state'⟩
  rw [outcome] at first_holds
  cases result with
  | ok value => exact later value state' first_holds
  | error error => exact first_holds

/-- A triple shown from each state by itself, where what holds after may speak of that state. -/
theorem triple_each {steps : Steps σ ε α}
    (each : ∀ state, before state → Triple (· = state) steps after failed) :
    Triple before steps after failed := fun state holds => each state holds state rfl

theorem Triple.weaken {steps : Steps σ ε α} {after' : α → σ → Prop} {failed' : σ → Prop}
    (triple : Triple before steps after failed)
    (weaker : ∀ value state, after value state → after' value state)
    (weaker_failed : ∀ state, failed state → failed' state) :
    Triple before steps after' failed' := by
  intro state holds
  have result := triple state holds
  rcases outcome : steps state with ⟨value | value, state'⟩
  · rw [outcome] at result
    exact weaker_failed state' result
  · rw [outcome] at result
    exact weaker value state' result

theorem Triple.of_ok {steps : Steps σ ε α} {state state' : σ} {value : α}
    (triple : Triple before steps after failed) (holds : before state)
    (done : steps state = (.ok value, state')) : after value state' := by
  have result := triple state holds
  rw [done] at result
  exact result

theorem Triple.of_error {steps : Steps σ ε α} {state state' : σ} {error : ε}
    (triple : Triple before steps after failed) (holds : before state)
    (done : steps state = (.error error, state')) : failed state' := by
  have result := triple state holds
  rw [done] at result
  exact result

end Steps

end Foco.FallibleSteps
