import Foco.Runs
import Mathlib.Data.List.Basic

/-!
Programs over a store that others share. A program is a sequence of atomic statements: each
reads and writes the store in one piece or fails and leaves it, and what comes after it may
depend on what it read. A label says of a statement what a condition on runs needs to know of it.
-/
namespace Foco.Programs
open Foco.Runs

/-- A program with results in `α`. -/
inductive Program (Store Label Error : Type) (α : Type) : Type 1 where
  | done (result : Except Error α)
  | atomic {β : Type} (label : Label) (statement : Store → Except Error (Store × β))
      (next : β → Program Store Label Error α)

namespace Program

variable {Store Label Error : Type} {α β : Type}

/-- One program after another; an error ends both. -/
def bind : Program Store Label Error α → (α → Program Store Label Error β) →
    Program Store Label Error β
  | .done (.ok a), rest => rest a
  | .done (.error e), _ => .done (.error e)
  | .atomic label statement next, rest => .atomic label statement fun b => (next b).bind rest

instance : Monad (Program Store Label Error) where
  pure a := .done (.ok a)
  bind := bind

/-- A program of one statement. -/
def one (label : Label) (statement : Store → Except Error (Store × α)) :
    Program Store Label Error α :=
  .atomic label statement fun a => .done (.ok a)

/-- What every statement of a program does to the store, whatever was read before it. -/
def Respects (effect : Label → Store → Store → Prop) : Program Store Label Error α → Prop
  | .done _ => True
  | .atomic label statement next =>
    (∀ store store' b, statement store = .ok (store', b) → effect label store store') ∧
      ∀ b, (next b).Respects effect

variable {effect : Label → Store → Store → Prop}

theorem Respects.bind {x : Program Store Label Error α} {f : α → Program Store Label Error β}
    (first : x.Respects effect) (rest : ∀ a, (f a).Respects effect) :
    (x >>= f).Respects effect := by
  induction x with
  | done result =>
    cases result with
    | error e => trivial
    | ok a => exact rest a
  | atomic label statement next ih => exact ⟨first.1, fun b => ih b (first.2 b)⟩

theorem Respects.one {label : Label} {statement : Store → Except Error (Store × α)}
    (keeps : ∀ store store' a, statement store = .ok (store', a) → effect label store store') :
    (one label statement).Respects effect := ⟨keeps, fun _ => trivial⟩

theorem Respects.map {x : Program Store Label Error α} (g : α → β)
    (respects : x.Respects effect) : (g <$> x).Respects effect :=
  Respects.bind respects fun _ => trivial

end Program

end Foco.Programs
