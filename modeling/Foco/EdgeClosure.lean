import Mathlib.Data.List.Basic
import Mathlib.Data.List.Dedup
import Mathlib.Logic.Relation

/-!
What a vertex reaches over a list of edges, computed by rounds: every round takes the targets of the
edges that leave the vertices of the round before, and no edge is taken twice.
-/
namespace Foco.EdgeClosure
open Relation

universe u

variable {V : Type u}

def Step (edges : List (V × V)) (source target : V) : Prop := (source, target) ∈ edges

variable [DecidableEq V]

def leaving (frontier : List V) (edges : List (V × V)) : List (V × V) :=
  edges.filter fun edge => edge.1 ∈ frontier

def staying (frontier : List V) (edges : List (V × V)) : List (V × V) :=
  edges.filter fun edge => edge.1 ∉ frontier

def rounds : Nat → List V → List (V × V) → List V
  | 0, _, _ => []
  | fuel + 1, frontier, edges =>
    let targets := (leaving frontier edges).map Prod.snd
    if targets = [] then [] else targets ++ rounds fuel targets (staying frontier edges)

/-- The vertices that a vertex reaches over at least one edge. -/
def closure (edges : List (V × V)) (root : V) : List V :=
  (rounds edges.length [root] edges).dedup

section Rounds

variable {edges : List (V × V)} {frontier : List V} {source target root vertex : V}

theorem mem_leaving :
    (source, target) ∈ leaving frontier edges ↔ Step edges source target ∧ source ∈ frontier := by
  simp [leaving, Step]

theorem mem_targets : target ∈ (leaving frontier edges).map Prod.snd ↔
    ∃ source ∈ frontier, Step edges source target := by
  constructor
  · intro member
    obtain ⟨⟨source, _⟩, edge, rfl⟩ := List.mem_map.mp member
    obtain ⟨step, source_mem⟩ := mem_leaving.mp edge
    exact ⟨source, source_mem, step⟩
  · rintro ⟨source, source_mem, step⟩
    exact List.mem_map.mpr ⟨(source, target), mem_leaving.mpr ⟨step, source_mem⟩, rfl⟩

theorem step_of_staying (step : Step (staying frontier edges) source target) :
    Step edges source target :=
  (List.mem_filter.mp step).1

/-- After the last edge that leaves the frontier a path stays off it. -/
theorem reached_of_path (root_mem : root ∈ frontier) (path : TransGen (Step edges) root vertex) :
    vertex ∈ (leaving frontier edges).map Prod.snd ∨
      ∃ target ∈ (leaving frontier edges).map Prod.snd,
        TransGen (Step (staying frontier edges)) target vertex := by
  induction path with
  | single step => exact .inl (mem_targets.mpr ⟨root, root_mem, step⟩)
  | @tail middle last _ step ih =>
    by_cases leaves : middle ∈ frontier
    · exact .inl (mem_targets.mpr ⟨middle, leaves, step⟩)
    · have later : Step (staying frontier edges) middle last :=
        List.mem_filter.mpr ⟨step, by simpa using leaves⟩
      obtain here | ⟨target, target_mem, path⟩ := ih
      · exact .inr ⟨middle, here, .single later⟩
      · exact .inr ⟨target, target_mem, path.tail later⟩

theorem staying_length_lt (some : (leaving frontier edges).map Prod.snd ≠ []) :
    (staying frontier edges).length < edges.length := by
  obtain ⟨edge, edge_mem⟩ := List.exists_mem_of_ne_nil _ (by simpa using some :
    leaving frontier edges ≠ [])
  obtain ⟨member, leaves⟩ := List.mem_filter.mp edge_mem
  refine List.length_filter_lt_length_iff_exists.mpr ⟨edge, member, ?_⟩
  simpa using leaves

theorem mem_rounds {fuel : Nat} (enough : edges.length ≤ fuel) :
    vertex ∈ rounds fuel frontier edges ↔
      ∃ root ∈ frontier, TransGen (Step edges) root vertex := by
  induction fuel generalizing frontier edges with
  | zero =>
    obtain rfl : edges = [] := List.eq_nil_of_length_eq_zero (by omega)
    refine iff_of_false (by simp [rounds]) ?_
    rintro ⟨root, _, path⟩
    obtain ⟨_, step, _⟩ := TransGen.head'_iff.mp path
    simp [Step] at step
  | succ fuel ih =>
    unfold rounds
    dsimp only
    split
    · rename_i none
      refine iff_of_false (by simp) ?_
      rintro ⟨root, root_mem, path⟩
      obtain here | ⟨target, target_mem, _⟩ := reached_of_path root_mem path
      · rw [none] at here
        contradiction
      · rw [none] at target_mem
        contradiction
    · rename_i some
      have shorter := staying_length_lt some
      rw [List.mem_append, ih (by omega)]
      constructor
      · rintro (here | ⟨target, target_mem, path⟩)
        · obtain ⟨source, source_mem, step⟩ := mem_targets.mp here
          exact ⟨source, source_mem, .single step⟩
        · obtain ⟨source, source_mem, step⟩ := mem_targets.mp target_mem
          exact ⟨source, source_mem, .head step ((TransGen.mono fun _ _ => step_of_staying) _ _ path)⟩
      · rintro ⟨root, root_mem, path⟩
        exact reached_of_path root_mem path

theorem mem_closure : vertex ∈ closure edges root ↔ TransGen (Step edges) root vertex := by
  unfold closure
  rw [List.mem_dedup, mem_rounds (Nat.le_refl _)]
  simp

end Rounds

end Foco.EdgeClosure
