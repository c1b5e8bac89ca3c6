import Mathlib.Data.List.InsertIdx

/-!
Lists kept side by side and indices into them, when elements are put in and taken out: what stands
before an index, of the elements that are looked for.
-/
namespace Foco.ParallelLists

universe u v

variable {α : Type u} {β : Type v} {l : List α} {i mark : Nat} {a : α}

theorem zip_insertIdx (b : β) : ∀ {l : List α} {m : List β} {i : Nat}, l.length = m.length →
    (l.insertIdx i a).zip (m.insertIdx i b) = (l.zip m).insertIdx i (a, b)
  | [], [], 0, _ => rfl
  | [], [], i + 1, _ => rfl
  | x :: l, y :: m, 0, _ => rfl
  | x :: l, y :: m, i + 1, same => by
    rw [List.insertIdx_succ_cons, List.insertIdx_succ_cons, List.zip_cons_cons, List.zip_cons_cons,
      List.insertIdx_succ_cons, zip_insertIdx b (Nat.succ.inj same)]

theorem zip_eraseIdx : ∀ {l : List α} {m : List β} {i : Nat}, l.length = m.length →
    (l.eraseIdx i).zip (m.eraseIdx i) = (l.zip m).eraseIdx i
  | [], [], _, _ => rfl
  | x :: l, y :: m, 0, _ => rfl
  | x :: l, y :: m, i + 1, same => by
    simp only [List.eraseIdx_cons_succ, List.zip_cons_cons]
    rw [zip_eraseIdx (Nat.succ.inj same)]

theorem zip_modify (f : α → α) : ∀ {l : List α} {m : List β} {i : Nat},
    (l.modify i f).zip m = (l.zip m).modify i (Prod.map f id)
  | [], _, _ => by simp
  | x :: l, [], _ => by simp
  | x :: l, y :: m, 0 => rfl
  | x :: l, y :: m, i + 1 => by
    simp only [List.modify_succ_cons, List.zip_cons_cons]
    rw [zip_modify f]

theorem insertIdx_append_length (front back : List α) :
    (front ++ back).insertIdx front.length a = front ++ a :: back := by
  induction front with
  | nil => rfl
  | cons x front ih => rw [List.cons_append, List.length_cons, List.insertIdx_succ_cons, ih,
      List.cons_append]

/-- What a search finds is found one further on after something else was put in before it. -/
theorem findIdx?_insertIdx {test : α → Bool} (other : test a = false)
    (found : l.findIdx? test = some i) : (l.insertIdx i a).findIdx? test = some (i + 1) := by
  induction l generalizing i with
  | nil => simp at found
  | cons x l ih =>
    rw [List.findIdx?_cons] at found
    split at found
    · next here =>
      obtain rfl := Option.some.inj found
      simp [List.findIdx?_cons, other, here]
    · next missed =>
      obtain ⟨before, later, rfl⟩ := Option.map_eq_some_iff.mp found
      rw [List.insertIdx_succ_cons, List.findIdx?_cons, if_neg missed, ih later]
      rfl

theorem findIdx?_insertIdx_eq_none {test : α → Bool} (other : test a = false)
    (missing : l.findIdx? test = none) : (l.insertIdx i a).findIdx? test = none := by
  rw [List.findIdx?_eq_none_iff] at missing ⊢
  intro x mem
  obtain rfl | mem := List.mem_cons.mp (List.insertIdx_subset_cons i a l mem)
  · exact other
  · exact missing x mem

section Insertion

variable {keep : α → Bool}

theorem filter_insertIdx (dropped : keep a = false) (inside : i ≤ l.length) :
    (l.insertIdx i a).filter keep = l.filter keep := by
  induction l generalizing i with
  | nil =>
    obtain rfl : i = 0 := Nat.le_zero.mp inside
    simp [dropped]
  | cons x l ih =>
    cases i with
    | zero => simp [dropped]
    | succ i =>
      rw [List.insertIdx_succ_cons, List.filter_cons, List.filter_cons,
        ih (Nat.le_of_succ_le_succ inside)]

/-- An index is moved by an insertion at it or before it, and has the same elements before it then. -/
theorem filter_take_insertIdx (dropped : keep a = false) (inside : i ≤ l.length) :
    ((l.insertIdx i a).take (if i ≤ mark then mark + 1 else mark)).filter keep =
      (l.take mark).filter keep := by
  induction l generalizing i mark with
  | nil =>
    obtain rfl : i = 0 := Nat.le_zero.mp inside
    simp [dropped]
  | cons x l ih =>
    cases i with
    | zero => simp [dropped]
    | succ i =>
      cases mark with
      | zero => simp
      | succ mark =>
        have moved : (if i + 1 ≤ mark + 1 then mark + 1 + 1 else mark + 1) =
            (if i ≤ mark then mark + 1 else mark) + 1 := by split <;> split <;> omega
        rw [moved, List.insertIdx_succ_cons, List.take_succ_cons, List.take_succ_cons,
          List.filter_cons, List.filter_cons, ih (Nat.le_of_succ_le_succ inside)]

end Insertion

section Removal

theorem length_eraseIdx_take (marked : mark ≤ l.length) :
    ((l.take mark).eraseIdx i).length = if i < mark then mark - 1 else mark := by
  rw [List.length_eraseIdx, List.length_take, Nat.min_eq_left marked]

/-- An index that is moved by one has the same elements before it exactly if it was behind what was
taken out. -/
theorem take_pred_eraseIdx_iff (inside : i < l.length) (marked : mark ≤ l.length) :
    (l.eraseIdx i).take (mark - 1) = (l.take mark).eraseIdx i ↔ i < mark ∨ mark = 0 := by
  constructor
  · intro same
    have lengths := congrArg List.length same
    rw [length_eraseIdx_take marked, List.length_take, List.length_eraseIdx_of_lt inside] at lengths
    split at lengths <;> omega
  · rintro (before | rfl)
    · exact List.ext_getElem (by grind) (by grind)
    · simp

/-- An index that is left alone has them exactly if it was not behind it, or was the end. -/
theorem take_eraseIdx_iff (inside : i < l.length) (marked : mark ≤ l.length) :
    (l.eraseIdx i).take mark = (l.take mark).eraseIdx i ↔ mark ≤ i ∨ mark = l.length := by
  constructor
  · intro same
    have lengths := congrArg List.length same
    rw [length_eraseIdx_take marked, List.length_take, List.length_eraseIdx_of_lt inside] at lengths
    split at lengths <;> omega
  · rintro (behind | rfl)
    · rw [List.take_eraseIdx_eq_take_of_le _ _ _ behind, List.eraseIdx_of_length_le]
      rw [List.length_take]
      exact Nat.le_trans (Nat.min_le_left _ _) behind
    · rw [List.take_length]
      exact List.take_of_length_le (List.length_eraseIdx_le _ _)

end Removal

end Foco.ParallelLists
