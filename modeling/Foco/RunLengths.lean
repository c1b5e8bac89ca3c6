import Mathlib.Data.List.TakeWhile

/-!
How long a list has kept a property at its end, and how often in a row its last element has come. A
counter that is put back to its start whenever the row is broken holds these lengths.
-/
namespace Foco.RunLengths

variable {α : Type u} {p : α → Bool} {same : α → α → Bool} {items : List α} {item : α}

/-- How many of the last elements have a property without a break. -/
def trailing (p : α → Bool) (items : List α) : Nat := (items.reverse.takeWhile p).length

/-- How many of the last elements are the same as the last one. -/
def repeats (same : α → α → Bool) (items : List α) : Nat :=
  items.getLast?.elim 0 fun last => trailing (same last) items

@[simp] theorem trailing_nil : trailing p [] = 0 := rfl

@[simp] theorem repeats_nil : repeats same [] = 0 := rfl

theorem trailing_concat :
    trailing p (items ++ [item]) = if p item then trailing p items + 1 else 0 := by
  unfold trailing
  rw [List.reverse_append, List.reverse_singleton, List.singleton_append, List.takeWhile_cons]
  split
  · rw [List.length_cons]
  · rfl

/-- One more element continues the row if it is the same as the one before it. -/
theorem repeats_concat (equivalence : Equivalence fun a b => same a b = true) :
    repeats same (items ++ [item]) =
      if items.getLast?.any (same · item) then repeats same items + 1 else 1 := by
  have self : same item item = true := equivalence.refl item
  rw [repeats, List.getLast?_concat, Option.elim_some, trailing_concat, if_pos self]
  obtain rfl | ⟨init, last, rfl⟩ := List.eq_nil_or_concat items
  · rfl
  rw [List.concat_eq_append, List.getLast?_concat, Option.any_some]
  by_cases continues : same last item = true
  · have alike : same item = same last := funext fun other =>
      Bool.eq_iff_iff.mpr
        ⟨fun there => equivalence.trans continues there,
          fun there => equivalence.trans (equivalence.symm continues) there⟩
    rw [if_pos continues, repeats, List.getLast?_concat, Option.elim_some, alike]
  · have apart : ¬same item last = true := fun there => continues (equivalence.symm there)
    rw [if_neg continues, trailing_concat, if_neg apart]

end Foco.RunLengths
