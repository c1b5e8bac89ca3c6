import Mathlib.Data.List.TakeWhile
import Mathlib.Data.Nat.Find
import Foco.SwappedRuns

/-!
What is shown of a text whose runs are masked, up to a limit. The run behind a marker is kept from
what is shown exactly if it is masked or lies behind the limit.
-/
namespace Foco.RunMasking
open Foco.FirstOccurrence

universe u

variable {α : Type u}

/-- The items up to a limit, and a sign that there are more. -/
def cutAt (limit : Nat) (more text : List α) : List α :=
  text.take limit ++ if limit < text.length then more else []

section
variable {text text' : Marked α}

variable {mask : List α}

theorem render_split (before : Bool) (text : Marked α) (i : Nat) :
    render mask before text = render mask before (text.take i) ++
      render mask (lastMasked before (text.take i)) (text.drop i) := by
  rw [← render_append, List.take_append_drop]

theorem length_render_take_le {i j : Nat} (le : i ≤ j) (text : Marked α) :
    (render mask false (text.take i)).length ≤ (render mask false (text.take j)).length := by
  have shorter : (text.take j).take i = text.take i := by rw [List.take_take, Nat.min_eq_left le]
  rw [render_split false (text.take j) i, shorter, List.length_append]
  exact Nat.le_add_right _ _

end

section
variable {ends : α → Bool} {markers : List (List α)}

variable [DecidableEq α]

/-- Every run behind a marker is masked, or lies behind the limit. -/
def HiddenOrCut (ends : α → Bool) (mask : List α) (markers : List (List α)) (limit : Nat)
    (text : List α) : Prop :=
  ∀ marker ∈ markers, ∀ o, OccursAt text marker o →
    (∃ item, text[o + marker.length]? = some item ∧ ends item = false) →
    Masked (maskAll ends markers text) (o + marker.length) ∨
      limit ≤ (render mask false ((maskAll ends markers text).take (o + marker.length))).length

variable {mask : List α} {limit : Nat} {text text' : List α} {start size size' : Nat}

/-- In front of an item that should be masked and is not, there is nothing left to show. -/
theorem HiddenOrCut.reached (hidden : HiddenOrCut ends mask markers limit text) {marker : List α}
    (mem : marker ∈ markers) {o i : Nat} (occurs : OccursAt text marker o)
    (run : InRun ends text (o + marker.length) i)
    (shown : ¬Masked (maskAll ends markers text) i) :
    limit ≤ (render mask false ((maskAll ends markers text).take i)).length := by
  obtain masked | reached := hidden marker mem o occurs (run.2 _ (Nat.le_refl _) run.le)
  · refine absurd (closed_maskAll _ i masked ?_) shown
    rwa [plain_maskAll]
  · exact reached.trans (length_render_take_le run.le _)

end

/-! ## Runs that are kept from what is shown -/

/-- A run of a text: it is not empty, and what follows ends it. -/
structure IsRun (ends : α → Bool) (run post : List α) : Prop where
  filled : run ≠ []
  goesOn : ∀ item ∈ run, ends item = false
  stops : ∀ item ∈ post.head?, ends item = true

section
variable {ends : α → Bool} {markers : List (List α)} {pre marker run other post : List α}

theorem IsRun.item (isRun : IsRun ends run post) {j : Nat} (less : j < run.length) :
    ∃ item, (run ++ post)[j]? = some item ∧ ends item = false := by
  refine ⟨run[j], ?_, isRun.goesOn _ (List.getElem_mem less)⟩
  rw [List.getElem?_append_left less, List.getElem?_eq_getElem less]

variable [DecidableEq α]

variable {mask : List α} {limit : Nat} {more text : List α}

end

end Foco.RunMasking
