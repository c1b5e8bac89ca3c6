import Mathlib.Algebra.GroupWithZero.Nat
import Mathlib.Data.List.Basic

/-!
Weights chosen from a list within some room, from its end: the elements that are required count
first, and of the others each is taken that still fits.
-/
namespace Foco.GreedySelection

universe u

variable {α : Type u}

/-- The weight of the elements that are chosen, by their place and what they are. -/
def weightWhere (weight : α → Nat) (chosen : Nat → α → Bool) : List α → Nat
  | [] => 0
  | a :: l => (if chosen 0 a then weight a else 0) + weightWhere weight (fun i => chosen (i + 1)) l

/-- The marks of the elements that are taken, and the room that is left. -/
def select (weight : α → Nat) (required : α → Bool) : List α → Nat → List Bool × Nat
  | [], room => ([], room)
  | a :: l, room =>
    let later := select weight required l room
    if required a then (true :: later.1, later.2)
    else if weight a ≤ later.2 then (true :: later.1, later.2 - weight a)
    else (false :: later.1, later.2)

variable {weight : α → Nat} {required : α → Bool} {chosen other : Nat → α → Bool} {l : List α}
  {room : Nat}

theorem weightWhere_cons (a : α) : weightWhere weight chosen (a :: l) =
    (if chosen 0 a then weight a else 0) + weightWhere weight (fun i => chosen (i + 1)) l := rfl

theorem weightWhere_congr (same : ∀ i a, l[i]? = some a → chosen i a = other i a) :
    weightWhere weight chosen l = weightWhere weight other l := by
  induction l generalizing chosen other with
  | nil => rfl
  | cons a l ih =>
    rw [weightWhere_cons, weightWhere_cons, same 0 a rfl]
    congr 1
    exact ih fun i b there => same (i + 1) b there

/-- Those chosen either way are the first and, of the second, those that are not among them. -/
theorem weightWhere_or : weightWhere weight (fun i a => chosen i a || other i a) l =
    weightWhere weight chosen l + weightWhere weight (fun i a => !chosen i a && other i a) l := by
  induction l generalizing chosen other with
  | nil => rfl
  | cons a l ih =>
    rw [weightWhere_cons, weightWhere_cons, weightWhere_cons, ih]
    cases chosen 0 a <;> cases other 0 a <;> simp <;> omega

theorem weightWhere_mono (weight : α → Nat) (l : List α) {chosen other : Nat → α → Bool}
    (more : ∀ i a, l[i]? = some a → chosen i a = true → other i a = true) :
    weightWhere weight chosen l ≤ weightWhere weight other l := by
  induction l generalizing chosen other with
  | nil => exact Nat.le_refl 0
  | cons a l ih =>
    refine Nat.add_le_add ?_ (ih fun i b there => more (i + 1) b there)
    split
    · next here => exact Nat.le_of_eq (if_pos (more 0 a rfl here)).symm
    · exact Nat.zero_le _

/-- Choosing by an element alone is a filter. -/
theorem weightWhere_filter (kept : α → Bool) :
    weightWhere weight (fun _ => kept) l = ((l.filter kept).map weight).sum := by
  induction l with
  | nil => rfl
  | cons a l ih =>
    rw [weightWhere_cons, ih, List.filter_cons]
    cases kept a <;> simp

theorem weightWhere_le (weight : α → Nat) (chosen : Nat → α → Bool) (l : List α) :
    weightWhere weight chosen l ≤ (l.map weight).sum := by
  have all : weightWhere weight (fun _ _ => true) l = (l.map weight).sum := by
    rw [weightWhere_filter, List.filter_eq_self.mpr fun _ _ => rfl]
  rw [← all]
  exact weightWhere_mono weight l fun _ _ _ _ => rfl

theorem weightWhere_zipIdx (n : Nat) :
    (((l.zipIdx n).filter fun entry => chosen entry.2 entry.1).map fun entry =>
      weight entry.1).sum = weightWhere weight (fun i => chosen (n + i)) l := by
  induction l generalizing n with
  | nil => rfl
  | cons a l ih =>
    have shifted : (fun i => chosen (n + 1 + i)) = fun i => chosen (n + (i + 1)) := by
      funext i
      rw [Nat.add_assoc, Nat.add_comm 1]
    rw [List.zipIdx_cons, List.filter_cons, weightWhere_cons, ← shifted, ← ih (n + 1)]
    cases here : chosen n a <;> simp

/-- Whether an element is taken depends on what the later ones leave. -/
theorem select_cons (a : α) : (select weight required (a :: l) room).1 =
    (required a || decide (weight a ≤ (select weight required l room).2)) ::
      (select weight required l room).1 := by
  rw [select]
  by_cases kept : required a = true
  · simp [kept]
  · by_cases fits : weight a ≤ (select weight required l room).2
    · simp [kept, fits]
    · simp [kept, fits]

@[simp] theorem select_length : (select weight required l room).1.length = l.length := by
  induction l with
  | nil => rfl
  | cons a l ih => rw [select_cons, List.length_cons, List.length_cons, ih]

/-- What is left of the room. -/
theorem select_left : weightWhere weight (fun i a => !required a &&
      (select weight required l room).1.getD i false) l +
    (select weight required l room).2 = room := by
  induction l with
  | nil => exact Nat.zero_add room
  | cons a l ih =>
    rw [weightWhere_cons, select_cons]
    simp only [List.getD_cons_zero, List.getD_cons_succ]
    rw [select]
    by_cases kept : required a = true
    · simpa [kept] using ih
    · by_cases fits : weight a ≤ (select weight required l room).2
      · simp only [kept, fits, decide_true, Bool.or_true, Bool.not_false, Bool.and_true, if_true,
          Bool.false_eq_true, if_false]
        omega
      · simpa [kept, fits] using ih

theorem select_required {i : Nat} {a : α} (there : l[i]? = some a) (kept : required a = true) :
    (select weight required l room).1.getD i false = true := by
  induction l generalizing i with
  | nil => simp at there
  | cons b l ih =>
    rw [select_cons]
    cases i with
    | zero =>
      obtain rfl := Option.some.inj there
      simp [kept]
    | succ i => exact ih there

/-- An element that is not required is taken exactly if it fits beside what is taken behind it. -/
theorem select_iff {i : Nat} {a : α} (there : l[i]? = some a) (free : required a = false) :
    (select weight required l room).1.getD i false = true ↔
      weightWhere weight (fun j b => decide (i < j) && (!required b &&
        (select weight required l room).1.getD j false)) l + weight a ≤ room := by
  induction l generalizing i with
  | nil => simp at there
  | cons b l ih =>
    rw [select_cons, weightWhere_cons]
    cases i with
    | zero =>
      obtain rfl := Option.some.inj there
      have left := @select_left _ weight required l room
      simp only [List.getD_cons_zero, List.getD_cons_succ, free, Bool.false_or, decide_eq_true_eq,
        Nat.lt_irrefl, decide_false, Bool.false_and, Bool.false_eq_true, if_false,
        Nat.zero_lt_succ, decide_true, Bool.true_and, Nat.zero_add]
      omega
    | succ i =>
      have later := ih there
      simpa using later

end Foco.GreedySelection
