import Mathlib.Data.List.MinMax
import Mathlib.Order.Synonym
import Mathlib.Data.Prod.Lex

/-!
Ranges over a linear order, both ends included: of ranges that are nested or apart, those around one
point lie in one another, and one of them lies in all.
-/
namespace Foco.NestedRanges

universe u v

/-- A range from one point to another. -/
@[ext] structure Range (P : Type u) where
  start : P
  stop : P
  deriving DecidableEq

namespace Range

variable {P : Type u} [LinearOrder P] {a b c : Range P} {p : P}

def Inside (a b : Range P) : Prop := b.start ≤ a.start ∧ a.stop ≤ b.stop

def Apart (a b : Range P) : Prop := a.stop < b.start ∨ b.stop < a.start

def Holds (a : Range P) (p : P) : Prop := a.start ≤ p ∧ p ≤ a.stop

instance (a : Range P) (p : P) : Decidable (a.Holds p) := inferInstanceAs (Decidable (_ ∧ _))

/-- Ranges around one point are not apart. -/
theorem Holds.not_apart (here : a.Holds p) (there : b.Holds p) : ¬ a.Apart b := by
  rintro (before | after)
  · exact absurd (here.2.trans_lt before) (not_lt_of_ge there.1)
  · exact absurd (there.2.trans_lt after) (not_lt_of_ge here.1)

end Range

open Range

variable {P : Type u} [LinearOrder P] {α : Type v}

/-- One element of a list has a range in which no other element's lies. -/
theorem exists_innermost (range : α → Range P) {l : List α} (some_ : l ≠ []) :
    ∃ inner ∈ l, ∀ other ∈ l, (range other).Inside (range inner) → range other = range inner := by
  -- the range that starts last, and among those the one that stops first
  obtain ⟨inner, least⟩ : ∃ inner, l.argmin (fun element =>
      toLex (OrderDual.toDual (range element).start, (range element).stop)) = some inner :=
    Option.ne_none_iff_exists'.mp (mt List.argmin_eq_none.mp some_)
  refine ⟨inner, List.argmin_mem least, fun other mem within => ?_⟩
  have le := List.le_of_mem_argmin mem least
  rw [Prod.Lex.toLex_le_toLex] at le
  obtain later | ⟨same, sooner⟩ := le
  · exact absurd (OrderDual.toDual_lt_toDual.mp later) (not_lt_of_ge within.1)
  · exact Range.ext (OrderDual.toDual_inj.mp same).symm (le_antisymm within.2 sooner)

end Foco.NestedRanges
