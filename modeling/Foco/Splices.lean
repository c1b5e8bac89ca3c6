import Mathlib.Data.List.Sort
import Mathlib.Data.List.Perm.Basic

/-!
Replacing ranges of a list. Several replacements are made one after another from the back,
so that a range keeps its place until its turn; they amount to one simultaneous substitution
when the ranges come in order. A stable sort by start puts ranges in order that are apart.
-/
namespace Foco.Splices

variable {α : Type u}

/-- New elements for the `oldLength` elements from `start` on. -/
structure Replacement (α : Type u) where
  start : Nat
  oldLength : Nat
  items : List α
  deriving DecidableEq

namespace Replacement

/-- Where the replaced range ends. -/
def stop (r : Replacement α) : Nat := r.start + r.oldLength

/-- The range replaces the element at a position. -/
def Covers (r : Replacement α) (position : Nat) : Prop := r.start ≤ position ∧ position < r.stop

instance (r : Replacement α) (position : Nat) : Decidable (r.Covers position) :=
  inferInstanceAs (Decidable (_ ∧ _))

/-- One range ends before the other starts. -/
def Apart (first second : Replacement α) : Prop :=
  first.stop ≤ second.start ∨ second.stop ≤ first.start

instance (first second : Replacement α) : Decidable (Apart first second) :=
  inferInstanceAs (Decidable (_ ∨ _))

theorem Apart.symm {first second : Replacement α} (apart : Apart first second) :
    Apart second first := Or.symm apart

end Replacement

open Replacement

/-- The new elements that replacements put at a position. -/
def inserted (reps : List (Replacement α)) (position : Nat) : List α :=
  (reps.filter fun r => r.start = position).flatMap items

end Foco.Splices
