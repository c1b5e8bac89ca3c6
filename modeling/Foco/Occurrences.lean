import Mathlib.Data.List.Infix
import Mathlib.Data.List.Basic

/-!
Where a list occurs in another one. A scan that goes on behind each match it finds counts matches
that do not overlap; it misses an occurrence only if that overlaps a match.
-/
namespace Foco.Occurrences

universe u

variable {α : Type u} [DecidableEq α]

/-- The searched list stands at a position. -/
def Occurs (searched items : List α) (start : Nat) : Prop := searched <+: items.drop start

instance (searched items : List α) (start : Nat) : Decidable (Occurs searched items start) :=
  inferInstanceAs (Decidable (searched <+: items.drop start))

/-- The number of matches found one behind the other; `skip` items belong to the last match. -/
def matchCount (searched : List α) (skip : Nat) : List α → Nat
  | [] => 0
  | item :: items =>
    if 0 < skip then matchCount searched (skip - 1) items
    else if searched <+: item :: items then matchCount searched (searched.length - 1) items + 1
    else matchCount searched 0 items

/-- The list with its first match replaced. -/
def replaceFirst (searched replacement : List α) : List α → List α
  | [] => []
  | item :: items =>
    if searched <+: item :: items then replacement ++ (item :: items).drop searched.length
    else item :: replaceFirst searched replacement items

/-- The list with every match found one behind the other replaced. -/
def replaceAll (searched replacement : List α) (skip : Nat) : List α → List α
  | [] => []
  | item :: items =>
    if 0 < skip then replaceAll searched replacement (skip - 1) items
    else if searched <+: item :: items then
      replacement ++ replaceAll searched replacement (searched.length - 1) items
    else item :: replaceAll searched replacement 0 items

/-- All positions where the searched list stands. -/
def positions (searched items : List α) : List Nat :=
  (List.range items.length).filter fun start => Occurs searched items start

section Scan

variable {searched replacement items : List α} {item : α} {start skip : Nat}

theorem occurs_zero : Occurs searched items 0 ↔ searched <+: items := by
  rw [Occurs, List.drop_zero]

theorem occurs_cons_succ :
    Occurs searched (item :: items) (start + 1) ↔ Occurs searched items start := by
  rw [Occurs, List.drop_succ_cons, Occurs]

theorem occurs_drop {count : Nat} :
    Occurs searched (items.drop count) start ↔ Occurs searched items (count + start) := by
  rw [Occurs, List.drop_drop, Occurs]

theorem not_occurs_nil (filled : searched ≠ []) : ¬Occurs searched ([] : List α) start := by
  rw [Occurs, List.drop_nil, List.prefix_nil]
  exact filled

/-- The position of something is inside the list. -/
theorem Occurs.lt_length (filled : searched ≠ []) (occurs : Occurs searched items start) :
    start < items.length := by
  by_contra beyond
  rw [Occurs, List.drop_eq_nil_of_le (Nat.le_of_not_lt beyond), List.prefix_nil] at occurs
  exact filled occurs

theorem mem_positions (filled : searched ≠ []) :
    start ∈ positions searched items ↔ Occurs searched items start := by
  rw [positions, List.mem_filter, List.mem_range, decide_eq_true_eq]
  exact ⟨fun both => both.2, fun occurs => ⟨occurs.lt_length filled, occurs⟩⟩

theorem matchCount_nil : matchCount searched skip [] = 0 := rfl

theorem matchCount_succ :
    matchCount searched (skip + 1) (item :: items) = matchCount searched skip items :=
  if_pos (Nat.succ_pos skip)

theorem matchCount_zero :
    matchCount searched 0 (item :: items) =
      if searched <+: item :: items then matchCount searched (searched.length - 1) items + 1
      else matchCount searched 0 items :=
  if_neg (Nat.lt_irrefl 0)

/-- Skipping is dropping. -/
theorem matchCount_drop : matchCount searched skip items = matchCount searched 0 (items.drop skip) := by
  induction items generalizing skip with
  | nil => rw [List.drop_nil, matchCount_nil, matchCount_nil]
  | cons item items ih =>
    cases skip with
    | zero => rw [List.drop_zero]
    | succ skip => rw [matchCount_succ, ih, List.drop_succ_cons]

theorem matchCount_cons (filled : searched ≠ []) :
    matchCount searched 0 (item :: items) =
      if searched <+: item :: items then
        matchCount searched 0 ((item :: items).drop searched.length) + 1
      else matchCount searched 0 items := by
  obtain ⟨first, rest, rfl⟩ := List.exists_cons_of_ne_nil filled
  rw [matchCount_zero, List.length_cons, Nat.add_sub_cancel, matchCount_drop, List.drop_succ_cons]

/-- Something is found exactly when there is an occurrence. -/
theorem matchCount_pos (filled : searched ≠ []) :
    0 < matchCount searched 0 items ↔ ∃ start, Occurs searched items start := by
  induction items with
  | nil =>
    rw [matchCount_nil]
    exact ⟨fun less => absurd less (Nat.lt_irrefl 0),
      fun ⟨start, occurs⟩ => absurd occurs (not_occurs_nil filled)⟩
  | cons item items ih =>
    rw [matchCount_cons filled]
    by_cases here : searched <+: item :: items
    · rw [if_pos here]
      exact ⟨fun _ => ⟨0, occurs_zero.mpr here⟩, fun _ => Nat.succ_pos _⟩
    · rw [if_neg here, ih]
      constructor
      · rintro ⟨start, occurs⟩
        exact ⟨start + 1, occurs_cons_succ.mpr occurs⟩
      · rintro ⟨_ | start, occurs⟩
        · exact absurd (occurs_zero.mp occurs) here
        · exact ⟨start, occurs_cons_succ.mp occurs⟩

/-- Two matches are found exactly when two occurrences do not overlap. -/
theorem one_lt_matchCount (filled : searched ≠ []) :
    1 < matchCount searched 0 items ↔ ∃ first second, Occurs searched items first ∧
      Occurs searched items second ∧ first + searched.length ≤ second := by
  induction items with
  | nil =>
    rw [matchCount_nil]
    exact ⟨fun less => absurd less (Nat.not_lt_zero 1),
      fun ⟨first, _, occurs, _⟩ => absurd occurs (not_occurs_nil filled)⟩
  | cons item items ih =>
    rw [matchCount_cons filled]
    by_cases here : searched <+: item :: items
    · rw [if_pos here, Nat.succ_lt_succ_iff, matchCount_pos filled]
      constructor
      · rintro ⟨start, occurs⟩
        exact ⟨0, searched.length + start, occurs_zero.mpr here, occurs_drop.mp occurs, by omega⟩
      · rintro ⟨first, second, -, occurs, apart⟩
        refine ⟨second - searched.length, occurs_drop.mpr ?_⟩
        rwa [Nat.add_sub_cancel' (by omega)]
    · rw [if_neg here, ih]
      constructor
      · rintro ⟨first, second, one, two, apart⟩
        exact ⟨first + 1, second + 1, occurs_cons_succ.mpr one, occurs_cons_succ.mpr two, by omega⟩
      · rintro ⟨first, second, one, two, apart⟩
        obtain _ | first := first
        · exact absurd (occurs_zero.mp one) here
        obtain _ | second := second
        · exact absurd (occurs_zero.mp two) here
        · exact ⟨first, second, occurs_cons_succ.mp one, occurs_cons_succ.mp two, by omega⟩

/-- The first occurrence is the one that is replaced. -/
theorem replaceFirst_eq (occurs : Occurs searched items start)
    (first : ∀ before, before < start → ¬Occurs searched items before) (filled : searched ≠ []) :
    replaceFirst searched replacement items =
      items.take start ++ replacement ++ items.drop (start + searched.length) := by
  induction items generalizing start with
  | nil => exact absurd occurs (not_occurs_nil filled)
  | cons item items ih =>
    rw [replaceFirst]
    cases start with
    | zero =>
      rw [if_pos (occurs_zero.mp occurs), List.take_zero, List.nil_append, Nat.zero_add]
    | succ start =>
      have later : ¬searched <+: item :: items := fun here =>
        first 0 (Nat.succ_pos start) (occurs_zero.mpr here)
      have rest : Occurs searched items start := occurs_cons_succ.mp occurs
      have apart : ∀ before, before < start → ¬Occurs searched items before :=
        fun before less there =>
          first (before + 1) (Nat.succ_lt_succ less) (occurs_cons_succ.mpr there)
      rw [if_neg later, ih rest apart, List.take_succ_cons, Nat.succ_add, List.drop_succ_cons,
        List.cons_append, List.cons_append]

end Scan

end Foco.Occurrences
