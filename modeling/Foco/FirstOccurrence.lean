import Mathlib.Data.List.Infix

/-!
The first place in a list where a test of the rest holds, and the first occurrence of a list in
another one. What was found stays where it is when the list goes on, as long as the test looked at
no more than what was there.
-/
namespace Foco.FirstOccurrence

universe u

variable {α : Type u}

/-- What comes before the first place where the test holds, and the rest from there. -/
def splitWhere (test : List α → Bool) : List α → Option (List α × List α)
  | [] => if test [] then some ([], []) else none
  | item :: items =>
    if test (item :: items) then some ([], item :: items)
    else (splitWhere test items).map fun found => (item :: found.1, found.2)

section Places

variable {test : List α → Bool} {items before rest : List α} {item : α}

theorem splitWhere_nil : splitWhere test [] = if test [] then some ([], []) else none := rfl

theorem splitWhere_cons : splitWhere test (item :: items) =
    if test (item :: items) then some ([], item :: items)
    else (splitWhere test items).map fun found => (item :: found.1, found.2) := rfl

theorem splitWhere_of_test (here : test rest = true) : splitWhere test rest = some ([], rest) := by
  cases rest with
  | nil => exact if_pos here
  | cons item items => exact if_pos here

theorem splitWhere_cons_of_not (here : test (item :: items) = false) :
    splitWhere test (item :: items) =
      (splitWhere test items).map fun found => (item :: found.1, found.2) := by
  rw [splitWhere_cons, here]
  rfl

/-- The test does not hold between the start and the rest. -/
def Misses (test : List α → Bool) (before rest : List α) : Prop :=
  ∀ front back, before = front ++ back → back ≠ [] → test (back ++ rest) = false

theorem misses_nil : Misses test [] rest := by
  intro front back same filled
  exact absurd (List.append_eq_nil_iff.mp same.symm).2 filled

theorem misses_cons :
    Misses test (item :: before) rest ↔
      test (item :: (before ++ rest)) = false ∧ Misses test before rest := by
  constructor
  · intro misses
    refine ⟨misses [] (item :: before) rfl (List.cons_ne_nil _ _), ?_⟩
    intro front back same filled
    exact misses (item :: front) back (by rw [same, List.cons_append]) filled
  · rintro ⟨here, later⟩ front back same filled
    cases front with
    | nil =>
      rw [List.nil_append] at same
      rw [← same]
      exact here
    | cons first front =>
      obtain ⟨_, same⟩ := List.cons.inj same
      exact later front back same filled

theorem misses_append {front back : List α} :
    Misses test (front ++ back) rest ↔ Misses test front (back ++ rest) ∧ Misses test back rest := by
  induction front with
  | nil => exact ⟨fun misses => ⟨misses_nil, misses⟩, fun both => both.2⟩
  | cons item front ih =>
    rw [List.cons_append, misses_cons, misses_cons, ih, List.append_assoc]
    exact and_assoc.symm

theorem splitWhere_append_of_misses (misses : Misses test before rest) :
    splitWhere test (before ++ rest) =
      (splitWhere test rest).map fun found => (before ++ found.1, found.2) := by
  induction before with
  | nil => simp
  | cons item before ih =>
    obtain ⟨here, later⟩ := misses_cons.mp misses
    rw [List.cons_append, splitWhere_cons_of_not here, ih later, Option.map_map]
    rfl

theorem splitWhere_eq_some_iff :
    splitWhere test items = some (before, rest) ↔
      items = before ++ rest ∧ test rest = true ∧ Misses test before rest := by
  constructor
  · intro found
    induction items generalizing before with
    | nil =>
      rw [splitWhere_nil] at found
      split at found
      · rename_i here
        obtain ⟨rfl, rfl⟩ := Prod.mk.inj (Option.some.inj found)
        exact ⟨rfl, here, misses_nil⟩
      · contradiction
    | cons item items ih =>
      rw [splitWhere_cons] at found
      split at found
      · rename_i here
        obtain ⟨rfl, rfl⟩ := Prod.mk.inj (Option.some.inj found)
        exact ⟨rfl, here, misses_nil⟩
      · rename_i here
        obtain ⟨⟨before', rest'⟩, later, same⟩ := Option.map_eq_some_iff.mp found
        obtain ⟨rfl, rfl⟩ := Prod.mk.inj same
        obtain ⟨rfl, holds, misses⟩ := ih later
        exact ⟨rfl, holds, misses_cons.mpr ⟨Bool.eq_false_iff.mpr here, misses⟩⟩
  · rintro ⟨rfl, here, misses⟩
    rw [splitWhere_append_of_misses misses, splitWhere_of_test here, Option.map_some,
      List.append_nil]

theorem splitWhere_eq_none_iff :
    splitWhere test items = none ↔ ∀ rest, rest <:+ items → test rest = false := by
  constructor
  · rintro none rest ⟨front, rfl⟩
    induction front with
    | nil =>
      cases here : test rest with
      | false => rfl
      | true =>
        rw [List.nil_append, splitWhere_of_test here] at none
        contradiction
    | cons item front ih =>
      rw [List.cons_append, splitWhere_cons] at none
      split at none
      · contradiction
      · exact ih (Option.map_eq_none_iff.mp none)
  · intro never
    induction items with
    | nil =>
      rw [splitWhere_nil, never [] List.suffix_rfl]
      rfl
    | cons item items ih =>
      rw [splitWhere_cons_of_not (never _ List.suffix_rfl),
        ih fun rest suffix => never rest (suffix.trans (List.suffix_cons item items))]
      rfl

end Places

section Occurrence

variable [DecidableEq α] {searched items before rest after : List α}

/-- `str::split_once`: what comes before the first occurrence, and what comes behind it. -/
def splitOnce (searched items : List α) : Option (List α × List α) :=
  (splitWhere (fun rest => searched <+: rest) items).map fun found =>
    (found.1, found.2.drop searched.length)

/-- The list does not start to occur before the rest. -/
abbrev NotBefore (searched before rest : List α) : Prop :=
  Misses (fun rest => searched <+: rest) before rest

theorem splitOnce_eq_some_iff :
    splitOnce searched items = some (before, after) ↔
      items = before ++ (searched ++ after) ∧ NotBefore searched before (searched ++ after) := by
  unfold splitOnce
  rw [Option.map_eq_some_iff]
  constructor
  · rintro ⟨⟨before', rest⟩, found, same⟩
    obtain ⟨rfl, rfl⟩ := Prod.mk.inj same
    obtain ⟨rfl, here, misses⟩ := splitWhere_eq_some_iff.mp found
    obtain ⟨after, rfl⟩ := of_decide_eq_true here
    dsimp only at misses ⊢
    rw [List.drop_left]
    exact ⟨rfl, misses⟩
  · rintro ⟨rfl, misses⟩
    refine ⟨(before, searched ++ after), splitWhere_eq_some_iff.mpr ⟨rfl, ?_, misses⟩, ?_⟩
    · exact decide_eq_true (List.prefix_append _ _)
    · rw [List.drop_left]

theorem splitOnce_eq_none_iff : splitOnce searched items = none ↔ ¬searched <:+: items := by
  unfold splitOnce
  rw [Option.map_eq_none_iff, splitWhere_eq_none_iff]
  constructor
  · intro never occurs
    obtain ⟨rest, starts, suffix⟩ := List.infix_iff_prefix_suffix.mp occurs
    exact of_decide_eq_false (never rest suffix) starts
  · intro absent rest suffix
    exact decide_eq_false fun starts => absent (starts.isInfix.trans suffix.isInfix)

/-- Behind a place, an occurrence does not reach what follows. -/
theorem notBefore_append (misses : NotBefore searched before rest)
    (reached : searched.length ≤ rest.length + 1) (more : List α) :
    NotBefore searched before (rest ++ more) := by
  intro front back same filled
  refine decide_eq_false fun starts => ?_
  have missed := of_decide_eq_false (misses front back same filled)
  rw [← List.append_assoc] at starts
  refine missed (List.prefix_of_prefix_length_le starts (List.prefix_append _ _) ?_)
  have long := List.length_pos_of_ne_nil filled
  rw [List.length_append]
  omega

theorem splitOnce_append_of_notBefore (misses : NotBefore searched before items) :
    splitOnce searched (before ++ items) =
      (splitOnce searched items).map fun found => (before ++ found.1, found.2) := by
  unfold splitOnce
  rw [splitWhere_append_of_misses misses, Option.map_map, Option.map_map]
  rfl

theorem notBefore_of_absent (absent : ¬searched <:+: before ++ rest) :
    NotBefore searched before rest := by
  rintro front back rfl filled
  refine decide_eq_false fun starts => absent ?_
  rw [List.append_assoc]
  exact starts.isInfix.trans (List.suffix_append _ _).isInfix

end Occurrence

end Foco.FirstOccurrence
