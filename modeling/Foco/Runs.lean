import Mathlib.Logic.Basic

/-!
Deterministic transition machines whose actions may be disabled, and what holds over
their runs. An interleaving of several parties is a run of the machine that has the
actions of all of them. A run may be restricted to the steps that meet a condition on
the state before them; a property that a step preserves under the condition then holds
in every state of such a run.
-/
namespace Foco.Runs

/-- A machine: where it starts and what each action does, if it is enabled. -/
structure Machine (State : Type u) (Action : Type v) where
  start : State
  step : State → Action → Option State

namespace Machine

variable {State : Type u} {Action : Type v} (M : Machine State Action)

/-- The states reached by runs whose every step meets a condition on the state before it. -/
inductive ReachableWhile (cond : State → Action → Prop) : State → Prop where
  | start : ReachableWhile cond M.start
  | next {state state' : State} {action : Action} (reached : ReachableWhile cond state)
      (meets : cond state action) (step : M.step state action = some state') :
      ReachableWhile cond state'

/-- The states reached by any run. -/
def Reachable : State → Prop := M.ReachableWhile fun _ _ => True

variable {M} {cond : State → Action → Prop}

/-- What holds at the start and is kept by every step that meets the condition holds in every
state such a run reaches. -/
theorem ReachableWhile.invariant {Inv : State → Prop} (start : Inv M.start)
    (keep : ∀ state action state', Inv state → cond state action →
      M.step state action = some state' → Inv state')
    {state : State} (reached : M.ReachableWhile cond state) : Inv state := by
  induction reached with
  | start => exact start
  | next _ meets step ih => exact keep _ _ _ ih meets step

/-- The same for unrestricted runs. -/
theorem Reachable.invariant {Inv : State → Prop} (start : Inv M.start)
    (keep : ∀ state action state', Inv state → M.step state action = some state' → Inv state')
    {state : State} (reached : M.Reachable state) : Inv state :=
  ReachableWhile.invariant start (fun state action state' inv _ => keep state action state' inv)
    reached

/-- A stricter condition reaches fewer states. -/
theorem ReachableWhile.mono {weaker : State → Action → Prop}
    (le : ∀ state action, cond state action → weaker state action) {state : State}
    (reached : M.ReachableWhile cond state) : M.ReachableWhile weaker state := by
  induction reached with
  | start => exact .start
  | next _ meets step ih => exact .next ih (le _ _ meets) step

theorem ReachableWhile.reachable {state : State} (reached : M.ReachableWhile cond state) :
    M.Reachable state :=
  reached.mono fun _ _ _ => trivial

variable (M)

/-- The state after a list of actions, if each is enabled where it comes. -/
def run : State → List Action → Option State
  | state, [] => some state
  | state, action :: rest => (M.step state action).bind fun state' => run state' rest

/-- A run on given actions that also checks the condition at each step. -/
def runWhile (check : State → Action → Bool) : State → List Action → Option State
  | state, [] => some state
  | state, action :: rest =>
    if check state action then
      (M.step state action).bind fun state' => runWhile check state' rest
    else none

variable {M}

theorem reachableWhile_of_runWhile {check : State → Action → Bool} {state final : State}
    {actions : List Action} (reached : M.ReachableWhile (fun s a => check s a = true) state)
    (h : M.runWhile check state actions = some final) :
    M.ReachableWhile (fun s a => check s a = true) final := by
  induction actions generalizing state with
  | nil =>
    cases h
    exact reached
  | cons action rest ih =>
    simp only [runWhile] at h
    split at h
    · rename_i meets
      obtain ⟨state', step, tail⟩ := Option.bind_eq_some_iff.mp h
      exact ih (.next reached meets step) tail
    · cases h

theorem reachable_of_run {state final : State} {actions : List Action}
    (reached : M.Reachable state) (h : M.run state actions = some final) : M.Reachable final := by
  induction actions generalizing state with
  | nil =>
    cases h
    exact reached
  | cons action rest ih =>
    obtain ⟨state', step, tail⟩ := Option.bind_eq_some_iff.mp h
    exact ih (.next reached trivial step) tail

end Machine

end Foco.Runs
