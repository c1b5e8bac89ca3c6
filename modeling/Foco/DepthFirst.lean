import Foco.Maps
import Mathlib.Data.Finset.Card
import Mathlib.Logic.Relation

/-!
Depth-first search for a cycle with three colours: a vertex is unmarked, active while its
successors are searched, or finished. A search that meets an active vertex has found a cycle, and
one that does not leaves no cycle that its roots reach.
-/
namespace Foco.DepthFirst
open Foco.Maps Relation

universe u

inductive Mark where
  | active
  | finished

variable {V : Type u} [DecidableEq V]

abbrev Marks (V : Type u) [DecidableEq V] := Map V Mark

/-- The marks, or the active vertex that was met; none if the fuel has run out. -/
abbrev Outcome (V : Type u) [DecidableEq V] := Option (Except V (Marks V))

/-- The vertices one after the other, until one of them fails. -/
def visitEach (visit : V → Marks V → Outcome V) : List V → Marks V → Outcome V
  | [], marks => some (.ok marks)
  | vertex :: rest, marks =>
    match visit vertex marks with
    | some (.ok marks) => visitEach visit rest marks
    | some (.error met) => some (.error met)
    | none => none

/-- The search from one vertex. -/
def visit (next : V → List V) : Nat → V → Marks V → Outcome V
  | 0, _, _ => none
  | fuel + 1, vertex, marks =>
    match marks.lookup vertex with
    | some .active => some (.error vertex)
    | some .finished => some (.ok marks)
    | none =>
      match visitEach (visit next fuel) (next vertex) (marks.insert vertex .active) with
      | some (.ok marks) => some (.ok (marks.insert vertex .finished))
      | some (.error met) => some (.error met)
      | none => none

def Edge (next : V → List V) (source target : V) : Prop := target ∈ next source

def Acyclic (next : V → List V) : Prop := ∀ vertex, ¬TransGen (Edge next) vertex vertex

/-- Marks that are there stay, and the new ones are not active. -/
structure Grown (marks marks' : Marks V) : Prop where
  kept : ∀ vertex mark, marks.lookup vertex = some mark → marks'.lookup vertex = some mark
  active : ∀ vertex, marks'.lookup vertex = some .active → marks.lookup vertex = some .active

theorem Grown.refl (marks : Marks V) : Grown marks marks := ⟨fun _ _ => id, fun _ => id⟩

theorem Grown.trans {first second third : Marks V} (grown : Grown first second)
    (later : Grown second third) : Grown first third :=
  ⟨fun vertex mark there => later.kept vertex mark (grown.kept vertex mark there),
    fun vertex there => grown.active vertex (later.active vertex there)⟩

/-- The successors of finished vertices are finished, and no cycle goes through them. -/
def Settled (next : V → List V) (marks : Marks V) : Prop :=
  ∀ vertex, marks.lookup vertex = some .finished →
    (∀ target ∈ next vertex, marks.lookup target = some .finished) ∧
      ¬TransGen (Edge next) vertex vertex

section Each

variable {search : V → Marks V → Outcome V} {vertices : List V} {marks marks' : Marks V}

theorem visitEach_cons (vertex : V) :
    visitEach search (vertex :: vertices) marks =
      match search vertex marks with
      | some (.ok marks) => visitEach search vertices marks
      | some (.error met) => some (.error met)
      | none => none := rfl

theorem visitEach_cons_eq_ok {vertex : V} :
    visitEach search (vertex :: vertices) marks = some (.ok marks') ↔
      ∃ between, search vertex marks = some (.ok between) ∧
        visitEach search vertices between = some (.ok marks') := by
  rw [visitEach_cons]
  rcases search vertex marks with _ | met | between <;> simp

theorem visitEach_cons_eq_error {vertex met : V} :
    visitEach search (vertex :: vertices) marks = some (.error met) ↔
      search vertex marks = some (.error met) ∨ ∃ between, search vertex marks = some (.ok between) ∧
        visitEach search vertices between = some (.error met) := by
  rw [visitEach_cons]
  rcases search vertex marks with _ | met | between <;> simp

/-- What a search does to the marks, all of them do. -/
theorem visitEach_grown
    (each : ∀ vertex marks marks', search vertex marks = some (.ok marks') → Grown marks marks')
    (ok : visitEach search vertices marks = some (.ok marks')) : Grown marks marks' := by
  induction vertices generalizing marks with
  | nil =>
    cases ok
    exact .refl _
  | cons vertex vertices ih =>
    obtain ⟨between, first, rest⟩ := visitEach_cons_eq_ok.mp ok
    exact (each vertex marks between first).trans (ih rest)

end Each

section Search

variable {next : V → List V} {fuel : Nat} {vertex : V} {marks marks' : Marks V}

theorem grown_of_entered {between : Marks V} (unmarked : marks.lookup vertex = none)
    (grown : Grown (marks.insert vertex .active) between) :
    Grown marks (between.insert vertex .finished) := by
  constructor
  · intro other mark there
    have apart : other ≠ vertex := by
      rintro rfl
      rw [unmarked] at there
      cases there
    rw [Map.lookup_insert_eq_ite, if_neg apart]
    refine grown.kept other mark ?_
    rw [Map.lookup_insert_eq_ite, if_neg apart]
    exact there
  · intro other there
    rw [Map.lookup_insert_eq_ite] at there
    by_cases same : other = vertex
    · rw [if_pos same] at there
      cases there
    · rw [if_neg same] at there
      have before := grown.active other there
      rwa [Map.lookup_insert_eq_ite, if_neg same] at before

/-- How a search that succeeds has gone. -/
theorem visit_eq_ok (ok : visit next fuel vertex marks = some (.ok marks')) :
    (marks.lookup vertex = some .finished ∧ marks' = marks) ∨
      ∃ rest between, fuel = rest + 1 ∧ marks.lookup vertex = none ∧
        visitEach (visit next rest) (next vertex) (marks.insert vertex .active) =
          some (.ok between) ∧ marks' = between.insert vertex .finished := by
  cases fuel with
  | zero => cases ok
  | succ rest =>
    rw [visit] at ok
    rcases found : marks.lookup vertex with _ | _ | _
    · rw [found] at ok
      dsimp only at ok
      rcases searched : visitEach (visit next rest) (next vertex) (marks.insert vertex .active)
        with _ | met | between
      · rw [searched] at ok
        cases ok
      · rw [searched] at ok
        cases ok
      · rw [searched] at ok
        cases ok
        exact .inr ⟨rest, between, rfl, rfl, searched, rfl⟩
    · rw [found] at ok
      cases ok
    · rw [found] at ok
      cases ok
      exact .inl ⟨rfl, rfl⟩

/-- How a search that fails has gone. -/
theorem visit_eq_error {met : V} (failed : visit next fuel vertex marks = some (.error met)) :
    (marks.lookup vertex = some .active ∧ met = vertex) ∨
      ∃ rest, fuel = rest + 1 ∧ marks.lookup vertex = none ∧
        visitEach (visit next rest) (next vertex) (marks.insert vertex .active) =
          some (.error met) := by
  cases fuel with
  | zero => cases failed
  | succ rest =>
    rw [visit] at failed
    rcases found : marks.lookup vertex with _ | _ | _
    · rw [found] at failed
      dsimp only at failed
      rcases searched : visitEach (visit next rest) (next vertex) (marks.insert vertex .active)
        with _ | met | between
      · rw [searched] at failed
        cases failed
      · rw [searched] at failed
        cases failed
        exact .inr ⟨rest, rfl, rfl, searched⟩
      · rw [searched] at failed
        cases failed
    · rw [found] at failed
      cases failed
      exact .inl ⟨rfl, rfl⟩
    · rw [found] at failed
      cases failed

theorem visit_grown (ok : visit next fuel vertex marks = some (.ok marks')) :
    Grown marks marks' := by
  induction fuel generalizing vertex marks marks' with
  | zero => cases ok
  | succ fuel ih =>
    obtain ⟨-, rfl⟩ | ⟨rest, between, same, unmarked, searched, rfl⟩ := visit_eq_ok ok
    · exact .refl _
    · cases same
      exact grown_of_entered unmarked (visitEach_grown (fun _ _ _ => ih) searched)

/-! ## Success -/

/-- A vertex whose successors are all finished before it is on no cycle. -/
theorem settled_finish {between : Marks V} (settled : Settled next between)
    (active : between.lookup vertex = some .active)
    (finished : ∀ target ∈ next vertex, between.lookup target = some .finished) :
    Settled next (between.insert vertex .finished) := by
  have closed : ∀ source target, TransGen (Edge next) source target →
      (∀ first ∈ next source, between.lookup first = some .finished) →
        between.lookup target = some .finished := by
    intro source target path first
    induction path with
    | single edge => exact first _ edge
    | tail _ edge ih => exact (settled _ ih).1 _ edge
  intro other there
  rw [Map.lookup_insert_eq_ite] at there
  have later (target : V) (done : between.lookup target = some .finished) :
      (between.insert vertex Mark.finished).lookup target = some .finished := by
    rw [Map.lookup_insert_eq_ite, done, ite_self]
  by_cases same : other = vertex
  · subst same
    refine ⟨fun target edge => later target (finished target edge), fun cycle => ?_⟩
    have done := closed other other cycle finished
    rw [active] at done
    cases done
  · rw [if_neg same] at there
    exact ⟨fun target edge => later target ((settled other there).1 target edge),
      (settled other there).2⟩

theorem visitEach_settled {search : V → Marks V → Outcome V} {vertices : List V}
    (grows : ∀ vertex marks marks', search vertex marks = some (.ok marks') → Grown marks marks')
    (settles : ∀ vertex marks marks', search vertex marks = some (.ok marks') →
      Settled next marks → Settled next marks' ∧ marks'.lookup vertex = some .finished)
    (ok : visitEach search vertices marks = some (.ok marks')) (settled : Settled next marks) :
    Settled next marks' ∧ ∀ vertex ∈ vertices, marks'.lookup vertex = some .finished := by
  induction vertices generalizing marks with
  | nil =>
    cases ok
    exact ⟨settled, by simp⟩
  | cons vertex vertices ih =>
    obtain ⟨between, first, rest⟩ := visitEach_cons_eq_ok.mp ok
    obtain ⟨later, done⟩ := settles vertex marks between first settled
    obtain ⟨last, all⟩ := ih rest later
    exact ⟨last, List.forall_mem_cons.mpr
      ⟨(visitEach_grown grows rest).kept vertex _ done, all⟩⟩

theorem settled_insert_active (settled : Settled next marks)
    (unmarked : marks.lookup vertex = none) : Settled next (marks.insert vertex .active) := by
  have unchanged (other : V) (done : marks.lookup other = some .finished) :
      (marks.insert vertex Mark.active).lookup other = some .finished := by
    rw [Map.lookup_insert_eq_ite, if_neg, done]
    rintro rfl
    rw [unmarked] at done
    cases done
  intro other there
  rw [Map.lookup_insert_eq_ite] at there
  by_cases same : other = vertex
  · rw [if_pos same] at there
    cases there
  · rw [if_neg same] at there
    exact ⟨fun target edge => unchanged target ((settled other there).1 target edge),
      (settled other there).2⟩

theorem visit_settled (ok : visit next fuel vertex marks = some (.ok marks'))
    (settled : Settled next marks) :
    Settled next marks' ∧ marks'.lookup vertex = some .finished := by
  induction fuel generalizing vertex marks marks' with
  | zero => cases ok
  | succ fuel ih =>
    obtain ⟨done, rfl⟩ | ⟨rest, between, same, unmarked, searched, rfl⟩ := visit_eq_ok ok
    · exact ⟨settled, done⟩
    · cases same
      have grown := visitEach_grown (fun _ _ _ => visit_grown) searched
      obtain ⟨settled, finished⟩ := visitEach_settled (fun _ _ _ => visit_grown)
        (fun _ _ _ => ih) searched (settled_insert_active settled unmarked)
      have active : between.lookup vertex = some .active :=
        grown.kept vertex _ (AList.lookup_insert marks)
      exact ⟨settled_finish settled active finished, AList.lookup_insert between⟩

/-! ## Failure -/

theorem visitEach_cycle {search : V → Marks V → Outcome V} {vertices : List V} {met : V}
    (grows : ∀ vertex marks marks', search vertex marks = some (.ok marks') → Grown marks marks')
    (cycles : ∀ vertex ∈ vertices, ∀ marks, search vertex marks = some (.error met) →
      (∀ active, marks.lookup active = some .active → TransGen (Edge next) active vertex) →
        TransGen (Edge next) met met)
    (failed : visitEach search vertices marks = some (.error met))
    (reaches : ∀ vertex ∈ vertices, ∀ active, marks.lookup active = some .active →
      TransGen (Edge next) active vertex) : TransGen (Edge next) met met := by
  induction vertices generalizing marks with
  | nil => cases failed
  | cons vertex vertices ih =>
    obtain here | ⟨between, first, later⟩ := visitEach_cons_eq_error.mp failed
    · exact cycles vertex List.mem_cons_self marks here (reaches vertex List.mem_cons_self)
    · refine ih (fun other mem => cycles other (List.mem_cons_of_mem _ mem)) later ?_
      intro other mem active there
      exact reaches other (List.mem_cons_of_mem _ mem) active
        ((grows vertex marks between first).active active there)

/-- A search that fails has met a vertex on a cycle, if the active vertices reach its start. -/
theorem visit_cycle {met : V} (failed : visit next fuel vertex marks = some (.error met))
    (reaches : ∀ active, marks.lookup active = some .active →
      TransGen (Edge next) active vertex) : TransGen (Edge next) met met := by
  induction fuel generalizing vertex marks with
  | zero => cases failed
  | succ fuel ih =>
    obtain ⟨active, rfl⟩ | ⟨rest, same, unmarked, searched⟩ := visit_eq_error failed
    · exact reaches met active
    · cases same
      refine visitEach_cycle (fun _ _ _ => visit_grown) (fun _ _ _ => ih) searched ?_
      intro target edge active there
      rw [Map.lookup_insert_eq_ite] at there
      by_cases same : active = vertex
      · subst same
        exact .single edge
      · rw [if_neg same] at there
        exact (reaches active there).tail edge

/-! ## Termination -/

/-- The vertices that a search has not come to yet. -/
def unmarked (universe_ : Finset V) (marks : Marks V) : Finset V :=
  universe_.filter fun vertex => marks.lookup vertex = none

theorem unmarked_card_le {universe_ : Finset V} (grown : Grown marks marks') :
    (unmarked universe_ marks').card ≤ (unmarked universe_ marks).card := by
  refine Finset.card_le_card fun vertex mem => ?_
  obtain ⟨inside, none⟩ := Finset.mem_filter.mp mem
  refine Finset.mem_filter.mpr ⟨inside, ?_⟩
  rcases found : marks.lookup vertex with _ | mark
  · rfl
  · rw [grown.kept vertex mark found] at none
    cases none

theorem unmarked_insert_card_lt {universe_ : Finset V} (inside : vertex ∈ universe_)
    (fresh : marks.lookup vertex = none) (mark : Mark) :
    (unmarked universe_ (marks.insert vertex mark)).card < (unmarked universe_ marks).card := by
  refine Finset.card_lt_card (Finset.ssubset_iff_of_subset ?_ |>.mpr ?_)
  · intro other mem
    obtain ⟨inside, none⟩ := Finset.mem_filter.mp mem
    rw [Map.lookup_insert_eq_ite] at none
    split at none
    · cases none
    · exact Finset.mem_filter.mpr ⟨inside, none⟩
  · refine ⟨vertex, Finset.mem_filter.mpr ⟨inside, fresh⟩, fun mem => ?_⟩
    have none := (Finset.mem_filter.mp mem).2
    rw [AList.lookup_insert] at none
    cases none

theorem visitEach_terminates {universe_ : Finset V} {search : V → Marks V → Outcome V}
    {vertices : List V}
    (grows : ∀ vertex marks marks', search vertex marks = some (.ok marks') → Grown marks marks')
    (terminates : ∀ vertex ∈ vertices, ∀ marks, (unmarked universe_ marks).card < fuel →
      (search vertex marks).isSome = true)
    (enough : (unmarked universe_ marks).card < fuel) :
    (visitEach search vertices marks).isSome = true := by
  induction vertices generalizing marks with
  | nil => rfl
  | cons vertex vertices ih =>
    have first := terminates vertex List.mem_cons_self marks enough
    rw [visitEach_cons]
    rcases found : search vertex marks with _ | met | between
    · rw [found] at first
      cases first
    · rfl
    · exact ih (fun other mem => terminates other (List.mem_cons_of_mem _ mem))
        (Nat.lt_of_le_of_lt (unmarked_card_le (grows vertex marks between found)) enough)

/-- The depth of a search is bounded by the vertices it has not come to. -/
theorem visit_terminates {universe_ : Finset V}
    (closed : ∀ source ∈ universe_, ∀ target ∈ next source, target ∈ universe_)
    (inside : vertex ∈ universe_) (enough : (unmarked universe_ marks).card < fuel) :
    (visit next fuel vertex marks).isSome = true := by
  induction fuel generalizing vertex marks with
  | zero => cases enough
  | succ fuel ih =>
    rw [visit]
    rcases found : marks.lookup vertex with _ | _ | _
    · have less := unmarked_insert_card_lt inside found Mark.active
      have terminates := visitEach_terminates (fun _ _ _ => visit_grown)
        (fun target edge marks enough => ih (closed vertex inside target edge) enough)
        (Nat.lt_of_lt_of_le less (Nat.le_of_lt_succ enough))
      dsimp only
      rcases searched : visitEach (visit next fuel) (next vertex) (marks.insert vertex .active)
        with _ | met | between
      · rw [searched] at terminates
        cases terminates
      · rfl
      · rfl
    · rfl
    · rfl

/-! ## The whole search -/

/-- The search from every root. -/
def searchAll (next : V → List V) (fuel : Nat) (roots : List V) : Outcome V :=
  visitEach (visit next fuel) roots ∅

theorem searchAll_terminates {universe_ : Finset V} {roots : List V}
    (closed : ∀ source ∈ universe_, ∀ target ∈ next source, target ∈ universe_)
    (inside : ∀ root ∈ roots, root ∈ universe_) (enough : universe_.card < fuel) :
    (searchAll next fuel roots).isSome = true :=
  visitEach_terminates (fun _ _ _ => visit_grown)
    (fun root mem _ enough => visit_terminates closed (inside root mem) enough)
    (Nat.lt_of_le_of_lt (Finset.card_filter_le _ _) enough)

theorem acyclic_of_searchAll {roots : List V} (rooted : ∀ vertex, next vertex ≠ [] → vertex ∈ roots)
    (ok : searchAll next fuel roots = some (.ok marks)) : Acyclic next := by
  have settled : Settled next (∅ : Marks V) := fun vertex there => by
    rw [AList.lookup_empty] at there
    cases there
  obtain ⟨settled, finished⟩ := visitEach_settled (fun _ _ _ => visit_grown)
    (fun _ _ _ => visit_settled) ok settled
  intro vertex cycle
  have leaves : next vertex ≠ [] := by
    obtain ⟨target, edge, -⟩ := TransGen.head'_iff.mp cycle
    exact List.ne_nil_of_mem edge
  exact (settled vertex (finished vertex (rooted vertex leaves))).2 cycle

theorem cycle_of_searchAll {roots : List V} {met : V}
    (failed : searchAll next fuel roots = some (.error met)) : TransGen (Edge next) met met := by
  refine visitEach_cycle (fun _ _ _ => visit_grown) (fun _ _ _ => visit_cycle) failed ?_
  intro root mem active there
  rw [AList.lookup_empty] at there
  cases there

end Search

end Foco.DepthFirst
