import Mathlib.Data.List.Pairwise
import Mathlib.Data.List.Sort
import Mathlib.Order.Basic

/-!
Readers that follow a log whose entries are numbered in increasing order. A reader remembers
the last number it has seen and passes over what is not above it; it catches up from a copy
of the log, or takes single entries as they are announced. What it has seen is then exactly
the part of the log between the number it started behind and the last one it saw.
-/
namespace Foco.Streams

variable {α : Type u} {N : Type v} [LinearOrder N]

/-- The entries above the last number seen, each raising it, and the last number then. -/
def catchUp (number : α → N) : N → List α → List α × N
  | last, [] => ([], last)
  | last, entry :: rest =>
    if last < number entry then
      let (out, final) := catchUp number (number entry) rest
      (entry :: out, final)
    else catchUp number last rest

/-- What a reader that started behind `after` has seen of a log up to `last`. -/
structure Caught (number : α → N) (after last : N) (log seen : List α) : Prop where
  ordered : seen.Pairwise fun first second => number first < number second
  exact : ∀ entry, entry ∈ seen ↔ entry ∈ log ∧ after < number entry ∧ number entry ≤ last
  reached : last = after ∨ ∃ entry ∈ log, number entry = last

variable {number : α → N} {after last : N} {log seen : List α}

/-- A list in order above the last number is passed on whole. -/
theorem catchUp_above {entries : List α}
    (ordered : entries.Pairwise fun first second => number first < number second)
    (above : ∀ entry ∈ entries, last < number entry) :
    (catchUp number last entries).1 = entries ∧
      (entries = [] ∧ (catchUp number last entries).2 = last ∨
        ∃ entry ∈ entries, (catchUp number last entries).2 = number entry ∧
          ∀ other ∈ entries, number other ≤ number entry) := by
  induction entries generalizing last with
  | nil => exact ⟨rfl, .inl ⟨rfl, rfl⟩⟩
  | cons entry rest ih =>
    obtain ⟨first, tail⟩ := List.pairwise_cons.mp ordered
    obtain ⟨whole, stops⟩ := ih tail first
    rw [catchUp, if_pos (above entry List.mem_cons_self)]
    refine ⟨congrArg (entry :: ·) whole, .inr ?_⟩
    obtain ⟨rfl, stops⟩ | ⟨final, mem, stops, most⟩ := stops
    · refine ⟨entry, List.mem_cons_self, stops, fun other otherMem => ?_⟩
      exact le_of_eq (congrArg number (List.mem_singleton.mp otherMem))
    · refine ⟨final, List.mem_cons_of_mem _ mem, stops, fun other otherMem => ?_⟩
      obtain rfl | otherMem := List.mem_cons.mp otherMem
      · exact le_of_lt (first final mem)
      · exact most other otherMem

theorem Caught.start (log : List α) : Caught number after after log [] where
  ordered := .nil
  exact entry := by
    refine ⟨nofun, fun ⟨_, above, below⟩ => ?_⟩
    exact absurd (lt_of_lt_of_le above below) (lt_irrefl _)
  reached := .inl rfl

/-- An entry behind the others does not change what was to be seen so far. -/
theorem Caught.grow (caught : Caught number after last log seen) {entry : α}
    (behind : ∀ other ∈ log, number other < number entry) :
    Caught number after last (log ++ [entry]) seen where
  ordered := caught.ordered
  exact other := by
    rw [caught.exact, List.mem_append, List.mem_singleton]
    refine and_congr_left fun ⟨above, below⟩ => (or_iff_left ?_).symm
    rintro rfl
    obtain rfl | ⟨reached, mem, same⟩ := caught.reached
    · exact absurd (lt_of_lt_of_le above below) (lt_irrefl _)
    · have later := lt_of_le_of_lt (same ▸ below) (behind reached mem)
      exact absurd later (lt_irrefl _)
  reached := caught.reached.imp id fun ⟨other, mem, same⟩ =>
    ⟨other, List.mem_append_left _ mem, same⟩

/-- What raises the last number to that of a log entry, with exactly the entries between. -/
theorem Caught.extend (caught : Caught number after last log seen) (behind : after ≤ last)
    {out : List α} {final : N}
    (ordered : out.Pairwise fun first second => number first < number second)
    (between : ∀ entry, entry ∈ out ↔ entry ∈ log ∧ last < number entry ∧ number entry ≤ final)
    (reached : final = last ∨ ∃ entry ∈ log, number entry = final) (le : last ≤ final) :
    Caught number after final log (seen ++ out) where
  ordered := by
    refine List.pairwise_append.mpr ⟨caught.ordered, ordered, fun first old second new => ?_⟩
    exact lt_of_le_of_lt ((caught.exact first).mp old).2.2 ((between second).mp new).2.1
  exact entry := by
    rw [List.mem_append, caught.exact, between]
    constructor
    · rintro (⟨mem, above, below⟩ | ⟨mem, above, below⟩)
      · exact ⟨mem, above, below.trans le⟩
      · exact ⟨mem, lt_of_le_of_lt behind above, below⟩
    · rintro ⟨mem, above, below⟩
      by_cases old : number entry ≤ last
      · exact .inl ⟨mem, above, old⟩
      · exact .inr ⟨mem, lt_of_not_ge old, below⟩
  reached := by
    obtain rfl | found := reached
    · exact caught.reached
    · exact .inr found

/-- A reader that catches up from a copy of the log has seen all of it. -/
theorem Caught.snapshot (caught : Caught number after last log seen) (behind : after ≤ last)
    (ordered : log.Pairwise fun first second => number first < number second) :
    Caught number after (catchUp number last (log.filter (last < number ·))).2 log
        (seen ++ (catchUp number last (log.filter (last < number ·))).1) ∧
      last ≤ (catchUp number last (log.filter (last < number ·))).2 ∧
      ∀ entry ∈ log, number entry ≤ (catchUp number last (log.filter (last < number ·))).2 := by
  have filtered := ordered.sublist (List.filter_sublist (p := fun entry => last < number entry))
  obtain ⟨whole, stops⟩ := catchUp_above filtered fun entry mem =>
    of_decide_eq_true (List.mem_filter.mp mem).2
  have most : last ≤ (catchUp number last (log.filter (last < number ·))).2 ∧
      (∀ entry ∈ log, number entry ≤ (catchUp number last (log.filter (last < number ·))).2) ∧
      ((catchUp number last (log.filter (last < number ·))).2 = last ∨ ∃ entry ∈ log,
        number entry = (catchUp number last (log.filter (last < number ·))).2) := by
    obtain ⟨none, same⟩ | ⟨final, mem, same, most⟩ := stops
    · rw [same]
      refine ⟨le_refl _, fun entry mem => ?_, .inl rfl⟩
      by_contra above
      have found : entry ∈ log.filter (last < number ·) :=
        List.mem_filter.mpr ⟨mem, decide_eq_true (lt_of_not_ge above)⟩
      rw [none] at found
      cases found
    · rw [same]
      obtain ⟨logged, above⟩ := List.mem_filter.mp mem
      refine ⟨le_of_lt (of_decide_eq_true above), fun entry entryMem => ?_, .inr ⟨_, logged, rfl⟩⟩
      by_cases new : last < number entry
      · exact most entry (List.mem_filter.mpr ⟨entryMem, decide_eq_true new⟩)
      · exact (le_of_not_gt new).trans (le_of_lt (of_decide_eq_true above))
  rw [whole]
  refine ⟨caught.extend behind filtered (fun entry => ?_) most.2.2 most.1, most.1, most.2.1⟩
  rw [List.mem_filter, decide_eq_true_iff]
  exact ⟨fun ⟨mem, above⟩ => ⟨mem, above, most.2.1 entry mem⟩,
    fun ⟨mem, above, _⟩ => ⟨mem, above⟩⟩

/-- A reader that is shown an entry of the log, with none left out before it, goes on to it or has
seen it. -/
theorem Caught.event (caught : Caught number after last log seen) (behind : after ≤ last)
    {entry : α} (mem : entry ∈ log)
    (alone : ∀ other ∈ log, number other = number entry → other = entry)
    (none : ∀ other ∈ log, number other < number entry → number other ≤ last) :
    Caught number after (catchUp number last [entry]).2 log
        (seen ++ (catchUp number last [entry]).1) ∧
      last ≤ (catchUp number last [entry]).2 ∧
      number entry ≤ (catchUp number last [entry]).2 := by
  by_cases above : last < number entry
  · have next : catchUp number last [entry] = ([entry], number entry) := by
      rw [catchUp, if_pos above]
      rfl
    rw [next]
    refine ⟨caught.extend behind (List.pairwise_singleton _ _) (fun other => ?_)
      (.inr ⟨entry, mem, rfl⟩) (le_of_lt above), le_of_lt above, le_refl _⟩
    rw [List.mem_singleton]
    constructor
    · rintro rfl
      exact ⟨mem, above, le_refl _⟩
    · rintro ⟨otherMem, new, most⟩
      obtain less | same := lt_or_eq_of_le most
      · exact absurd (lt_of_lt_of_le new (none other otherMem less)) (lt_irrefl _)
      · exact alone other otherMem same
  · have next : catchUp number last [entry] = ([], last) := by
      rw [catchUp, if_neg above]
      rfl
    rw [next, List.append_nil]
    exact ⟨caught, le_refl _, le_of_not_gt above⟩

/-- Lists in order with the same entries are the same. -/
theorem eq_of_ordered {first second : List α}
    (firstOrdered : first.Pairwise fun a b => number a < number b)
    (secondOrdered : second.Pairwise fun a b => number a < number b)
    (same : ∀ entry, entry ∈ first ↔ entry ∈ second) : first = second := by
  haveI : Std.Irrefl fun a b : α => number a < number b := ⟨fun _ => lt_irrefl _⟩
  haveI : Std.Antisymm fun a b : α => number a < number b :=
    ⟨fun _ _ less more => absurd (less.trans more) (lt_irrefl _)⟩
  exact firstOrdered.eq_of_mem_iff secondOrdered same

/-- What a reader has seen and what lies above its last number is all it was to see. -/
theorem Caught.append_rest (caught : Caught number after last log seen) (behind : after ≤ last)
    (ordered : log.Pairwise fun first second => number first < number second) :
    seen ++ log.filter (last < number ·) = log.filter (after < number ·) := by
  have rest := ordered.sublist (List.filter_sublist (p := fun entry => last < number entry))
  refine eq_of_ordered (List.pairwise_append.mpr ⟨caught.ordered, rest, fun first old second new => ?_⟩)
    (ordered.sublist List.filter_sublist) fun entry => ?_
  · have above : last < number second := of_decide_eq_true (List.mem_filter.mp new).2
    exact lt_of_le_of_lt ((caught.exact first).mp old).2.2 above
  · rw [List.mem_append, caught.exact, List.mem_filter, List.mem_filter, decide_eq_true_iff,
      decide_eq_true_iff]
    constructor
    · rintro (⟨mem, above, -⟩ | ⟨mem, above⟩)
      · exact ⟨mem, above⟩
      · exact ⟨mem, lt_of_le_of_lt behind above⟩
    · rintro ⟨mem, above⟩
      obtain seen | new := le_or_gt (number entry) last
      · exact .inl ⟨mem, above, seen⟩
      · exact .inr ⟨mem, new⟩

end Foco.Streams
