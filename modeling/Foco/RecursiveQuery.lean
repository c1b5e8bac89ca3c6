import Mathlib.Data.List.Basic
import Mathlib.Logic.Relation

/-!
Recursive queries over an edge relation. A query that goes several ways grows what it found
by the new neighbours, round by round, until a round finds nothing; a query that goes one way
follows the chain of successors. Both find exactly what a path reaches. Edges that are added
at one node keep a relation acyclic as long as none of their targets reaches that node.
-/
namespace Foco.RecursiveQuery
open Relation

variable {Node : Type u} [DecidableEq Node]

/-! ## Going several ways -/

/-- The rounds of a query: each adds what `next` finds, until it finds nothing. -/
def saturate (next : List Node → List Node) : Nat → List Node → List Node
  | 0, found => found
  | fuel + 1, found =>
    if (next found).isEmpty then found else saturate next fuel (found ++ next found)

/-- A round finds the targets of edges from what is found that are not found yet. -/
def FindsNew (next : List Node → List Node) (edge : Node → Node → Prop) : Prop :=
  ∀ found target, target ∈ next found ↔ (∃ source ∈ found, edge source target) ∧ target ∉ found

variable {next : List Node → List Node} {edge : Node → Node → Prop}

omit [DecidableEq Node] in
theorem subset_saturate (fuel : Nat) (found : List Node) : found ⊆ saturate next fuel found := by
  induction fuel generalizing found with
  | zero => exact fun _ mem => mem
  | succ fuel ih =>
    unfold saturate
    split
    · exact fun _ mem => mem
    · exact fun _ mem => ih _ (List.mem_append_left _ mem)

omit [DecidableEq Node] in
/-- What is found is reached. -/
theorem reached_of_mem_saturate (finds : FindsNew next edge) {fuel : Nat} {found : List Node}
    {target : Node} (mem : target ∈ saturate next fuel found) :
    ∃ source ∈ found, ReflTransGen edge source target := by
  induction fuel generalizing found with
  | zero => exact ⟨target, mem, .refl⟩
  | succ fuel ih =>
    unfold saturate at mem
    split at mem
    · exact ⟨target, mem, .refl⟩
    · obtain ⟨middle, middleMem, path⟩ := ih mem
      rcases List.mem_append.mp middleMem with old | new
      · exact ⟨middle, old, path⟩
      · obtain ⟨⟨source, sourceMem, step⟩, -⟩ := (finds found middle).mp new
        exact ⟨source, sourceMem, .head step path⟩

/-- Each round takes a target away from those still missing. -/
theorem missing_lt (finds : FindsNew next edge) {bound found : List Node}
    (within : ∀ source target, edge source target → target ∈ bound)
    (grows : (next found).isEmpty = false) :
    (bound.filter fun node => node ∉ found ++ next found).length <
      (bound.filter fun node => node ∉ found).length := by
  have nonempty : next found ≠ [] := fun none => by simp [none] at grows
  obtain ⟨target, mem⟩ := List.exists_mem_of_ne_nil _ nonempty
  obtain ⟨⟨source, -, step⟩, fresh⟩ := (finds found target).mp mem
  have fewer : (bound.filter fun node => node ∉ found ++ next found).Sublist
      (bound.filter fun node => node ∉ found) := by
    apply List.monotone_filter_right
    intro node absent
    simp only [decide_eq_true_eq, List.mem_append, not_or] at absent ⊢
    exact absent.1
  apply Nat.lt_of_le_of_ne fewer.length_le
  intro same
  have equal := fewer.eq_of_length same
  have missing : target ∈ bound.filter fun node => node ∉ found :=
    List.mem_filter.mpr ⟨within source target step, decide_eq_true fresh⟩
  rw [← equal] at missing
  have absent := of_decide_eq_true (List.mem_filter.mp missing).2
  exact absent (List.mem_append_right _ mem)

/-- With fuel for every missing target the result is closed. -/
theorem saturate_closed (finds : FindsNew next edge) {bound : List Node}
    (within : ∀ source target, edge source target → target ∈ bound) {fuel : Nat}
    {found : List Node} (enough : (bound.filter fun node => node ∉ found).length ≤ fuel)
    {source target : Node} (mem : source ∈ saturate next fuel found) (step : edge source target) :
    target ∈ saturate next fuel found := by
  induction fuel generalizing found with
  | zero =>
    have none := List.length_eq_zero_iff.mp (Nat.le_zero.mp enough)
    by_contra absent
    have missing : target ∈ bound.filter fun node => node ∉ found :=
      List.mem_filter.mpr ⟨within source target step, decide_eq_true absent⟩
    rw [none] at missing
    exact absurd missing List.not_mem_nil
  | succ fuel ih =>
    unfold saturate at mem ⊢
    cases empty : (next found).isEmpty with
    | true =>
      rw [empty, if_pos rfl] at mem
      rw [if_pos rfl]
      by_contra absent
      have new : target ∈ next found := (finds found target).mpr ⟨⟨source, mem, step⟩, absent⟩
      rw [List.isEmpty_iff.mp empty] at new
      exact absurd new List.not_mem_nil
    | false =>
      rw [empty, if_neg Bool.false_ne_true] at mem
      rw [if_neg Bool.false_ne_true]
      have fewer := missing_lt finds within empty
      exact ih (by omega) mem

/-- A query with fuel for every target of an edge finds exactly what is reached. -/
theorem mem_saturate (finds : FindsNew next edge) {bound : List Node}
    (within : ∀ source target, edge source target → target ∈ bound) {fuel : Nat}
    (enough : bound.length ≤ fuel) {found : List Node} {target : Node} :
    target ∈ saturate next fuel found ↔ ∃ source ∈ found, ReflTransGen edge source target := by
  constructor
  · exact reached_of_mem_saturate finds
  · rintro ⟨source, mem, path⟩
    have missing := List.length_filter_le (fun node => decide (node ∉ found)) bound
    induction path with
    | refl => exact subset_saturate fuel found mem
    | tail _ step ih => exact saturate_closed finds within (by omega) ih step

/-! ## Going one way -/

/-- The chain of successors of a node, itself first. -/
def chain (next : Node → Option Node) : Nat → Node → List Node
  | 0, _ => []
  | fuel + 1, node =>
    match next node with
    | none => [node]
    | some successor => node :: chain next fuel successor

omit [DecidableEq Node] in
/-- A chain that goes down in a rank, and has fuel for it, is complete. -/
theorem mem_chain {next : Node → Option Node} (rank : Node → Nat)
    (down : ∀ node successor, next node = some successor → rank successor < rank node)
    {fuel : Nat} {start target : Node} (enough : rank start < fuel) :
    target ∈ chain next fuel start ↔
      ReflTransGen (fun node successor => next node = some successor) start target := by
  induction fuel generalizing start with
  | zero => omega
  | succ fuel ih =>
    unfold chain
    cases found : next start with
    | none =>
      rw [List.mem_singleton]
      constructor
      · rintro rfl
        exact .refl
      · intro path
        rcases path.cases_head with same | ⟨successor, step, -⟩
        · exact same.symm
        · rw [found] at step
          cases step
    | some successor =>
      have lower := down start successor found
      rw [List.mem_cons, ih (by omega)]
      constructor
      · rintro (rfl | path)
        · exact .refl
        · exact .head found path
      · intro path
        rcases path.cases_head with same | ⟨other, step, rest⟩
        · exact .inl same.symm
        · rw [found] at step
          cases step
          exact .inr rest

/-! ## Acyclic relations -/

/-- No node reaches itself. -/
def Acyclic (edge : Node → Node → Prop) : Prop := ∀ node, ¬ TransGen edge node node

omit [DecidableEq Node] in
theorem Acyclic.mono {edge' : Node → Node → Prop} (acyclic : Acyclic edge)
    (fewer : ∀ source target, edge' source target → edge source target) : Acyclic edge' :=
  fun node path => acyclic node (TransGen.mono fewer _ _ path)

omit [DecidableEq Node] in
/-- With edges added at `origin`, a path is one of the old edges, or comes to `origin` and
leaves a new target by them, if no new target comes back to `origin`. -/
theorem path_of_added {edge' : Node → Node → Prop} {origin : Node} {targets : List Node}
    (added : ∀ source target, edge' source target →
      edge source target ∨ (source = origin ∧ target ∈ targets))
    (away : ∀ target ∈ targets, ¬ ReflTransGen edge target origin) {source target : Node}
    (path : TransGen edge' source target) :
    TransGen edge source target ∨
      (ReflTransGen edge source origin ∧ ∃ new ∈ targets, ReflTransGen edge new target) := by
  induction path with
  | single step =>
    rcases added _ _ step with old | ⟨rfl, new⟩
    · exact .inl (.single old)
    · exact .inr ⟨.refl, _, new, .refl⟩
  | tail _ step ih =>
    rcases ih with path | ⟨come, new, newMem, leave⟩ <;>
      rcases added _ _ step with old | ⟨rfl, fresh⟩
    · exact .inl (path.tail old)
    · exact .inr ⟨path.to_reflTransGen, _, fresh, .refl⟩
    · exact .inr ⟨come, new, newMem, leave.tail old⟩
    · exact absurd leave (away new newMem)

omit [DecidableEq Node] in
/-- Edges added at a node that none of their targets reaches close no cycle. -/
theorem Acyclic.added {edge' : Node → Node → Prop} (acyclic : Acyclic edge) (origin : Node)
    (targets : List Node)
    (added : ∀ source target, edge' source target →
      edge source target ∨ (source = origin ∧ target ∈ targets))
    (away : ∀ target ∈ targets, ¬ ReflTransGen edge target origin) : Acyclic edge' := by
  intro node cycle
  rcases path_of_added added away cycle with path | ⟨come, new, newMem, leave⟩
  · exact acyclic node path
  · exact away new newMem (leave.trans come)

end Foco.RecursiveQuery
