import Foco.Table
import Mathlib.Algebra.BigOperators.Group.List.Basic
import Mathlib.Algebra.Group.Hom.Defs
import Mathlib.Algebra.Group.Int.Defs
import Mathlib.Data.List.Dedup

/-!
A table of sums by key that is kept up to date as entries come and go. Each entry adds its
sums to the row of its key; what goes is taken off again, and a row that counts no entry any
more is deleted. The table is at all times what grouping the present entries would give.
-/
namespace Foco.Rollups
open Foco.Table

variable {Key : Type u} {Sums : Type v}

/-- A key and the sums for it: a row of the table, or what one entry adds. -/
@[ext] structure Rollup (Key : Type u) (Sums : Type v) where
  key : Key
  sums : Sums
  deriving DecidableEq

variable [DecidableEq Key] [AddCommGroup Sums]

/-- The sums of the entries of a key. -/
def total (entries : List (Rollup Key Sums)) (key : Key) : Sums :=
  ((entries.filter fun entry => entry.key = key).map Rollup.sums).sum

omit [DecidableEq Key] in
/-- Add sums to a row. -/
def Rollup.add (row : Rollup Key Sums) (sums : Sums) : Rollup Key Sums :=
  { row with sums := row.sums + sums }

/-- Apply what an entry adds, or with the sign changed what it takes off. What counts
negatively only finds the row of its key and deletes it once it counts nothing; anything else
adds to the row or becomes one. -/
def applyDelta (count : Sums →+ Int) (delta : Rollup Key Sums) (rows : List (Rollup Key Sums)) :
    List (Rollup Key Sums) :=
  if count delta.sums < 0 then
    (update (fun row => row.key = delta.key) (·.add delta.sums) rows).filter fun row =>
      ¬ (row.key = delta.key ∧ count row.sums = 0)
  else if rows.any fun row => row.key = delta.key then
    update (fun row => row.key = delta.key) (·.add delta.sums) rows
  else rows ++ [delta]

/-- The table has a row for each key of an entry, with the sums of the key's entries. -/
structure Represents (rows entries : List (Rollup Key Sums)) : Prop where
  unique : Unique Rollup.key rows
  mem_iff : ∀ row, row ∈ rows ↔
    (∃ entry ∈ entries, entry.key = row.key) ∧ row.sums = total entries row.key

theorem total_cons (entry : Rollup Key Sums) (entries : List (Rollup Key Sums)) (key : Key) :
    total (entry :: entries) key =
      (if entry.key = key then entry.sums else 0) + total entries key := by
  unfold total
  by_cases same : entry.key = key
  · rw [List.filter_cons_of_pos (by simpa using same), List.map_cons, List.sum_cons, if_pos same]
  · rw [List.filter_cons_of_neg (by simpa using same), if_neg same, zero_add]

theorem total_perm {entries entries' : List (Rollup Key Sums)} (perm : entries.Perm entries')
    (key : Key) : total entries key = total entries' key :=
  ((perm.filter _).map _).sum_eq

/-- A count of one for each entry counts the entries. -/
theorem count_total {count : Sums →+ Int} {entries : List (Rollup Key Sums)}
    (single : ∀ entry ∈ entries, count entry.sums = 1) (key : Key) :
    count (total entries key) = (entries.filter fun entry => entry.key = key).length := by
  induction entries with
  | nil => exact map_zero count
  | cons entry rest ih =>
    obtain ⟨one, others⟩ := List.forall_mem_cons.mp single
    rw [total_cons, map_add, ih others]
    by_cases same : entry.key = key
    · rw [if_pos same, one, List.filter_cons_of_pos (by simpa using same), List.length_cons]
      omega
    · rw [if_neg same, map_zero, List.filter_cons_of_neg (by simpa using same)]
      omega

/-- So the count is zero exactly for the keys without an entry. -/
theorem count_total_eq_zero {count : Sums →+ Int} {entries : List (Rollup Key Sums)}
    (single : ∀ entry ∈ entries, count entry.sums = 1) {key : Key} :
    count (total entries key) = 0 ↔ ¬ ∃ entry ∈ entries, entry.key = key := by
  rw [count_total single]
  constructor
  · rintro none ⟨entry, mem, same⟩
    have selected : entry ∈ entries.filter fun entry => entry.key = key :=
      List.mem_filter.mpr ⟨mem, decide_eq_true same⟩
    have positive := List.length_pos_of_mem selected
    omega
  · intro none
    have empty : (entries.filter fun entry => entry.key = key) = [] := by
      apply List.filter_eq_nil_iff.mpr
      intro entry mem same
      exact none ⟨entry, mem, by simpa using same⟩
    rw [empty]
    rfl

theorem Represents.perm {rows entries entries' : List (Rollup Key Sums)}
    (represents : Represents rows entries) (perm : entries.Perm entries') :
    Represents rows entries' where
  unique := represents.unique
  mem_iff row := by
    rw [represents.mem_iff row, total_perm perm]
    simp only [perm.mem_iff]

theorem Represents.nil : Represents ([] : List (Rollup Key Sums)) [] where
  unique := List.Pairwise.nil
  mem_iff row := by simp

omit [DecidableEq Key] in
@[simp] theorem Rollup.add_key (row : Rollup Key Sums) (sums : Sums) :
    (row.add sums).key = row.key := rfl

/-- What adding to the rows of a key makes of a table. -/
theorem mem_update_add {rows : List (Rollup Key Sums)} {key : Key} {sums : Sums}
    {row : Rollup Key Sums} :
    row ∈ update (fun row => decide (row.key = key)) (·.add sums) rows ↔
      (row.key = key ∧ (⟨key, row.sums - sums⟩ : Rollup Key Sums) ∈ rows) ∨
        (row.key ≠ key ∧ row ∈ rows) := by
  constructor
  · intro mem
    obtain ⟨old, oldMem, rfl⟩ := mem_update.mp mem
    by_cases same : old.key = key
    · left
      subst same
      simp only [decide_true, if_true, Rollup.add_key, true_and]
      simpa only [Rollup.add, add_sub_cancel_right] using oldMem
    · right
      simp only [same, decide_false, Bool.false_eq_true, if_false]
      exact ⟨same, oldMem⟩
  · rintro (⟨rfl, oldMem⟩ | ⟨other, oldMem⟩)
    · refine mem_update.mpr ⟨_, oldMem, ?_⟩
      simp only [decide_true, if_true, Rollup.add, sub_add_cancel]
    · exact mem_update_of_not oldMem (by simpa using other)

/-- An entry that comes. -/
theorem Represents.credit {count : Sums →+ Int} {rows entries : List (Rollup Key Sums)}
    (represents : Represents rows entries) {entry : Rollup Key Sums}
    (counts : 0 ≤ count entry.sums) :
    Represents (applyDelta count entry rows) (entry :: entries) := by
  have forward : ¬ count entry.sums < 0 := by omega
  unfold applyDelta
  rw [if_neg forward]
  by_cases present : rows.any (fun row => row.key = entry.key) = true
  · rw [if_pos present]
    obtain ⟨old, oldMem, sameKey⟩ := List.any_eq_true.mp present
    have sameKey : old.key = entry.key := by simpa using sameKey
    have known := ((represents.mem_iff old).mp oldMem).1
    rw [sameKey] at known
    refine ⟨represents.unique.update fun _ => rfl, fun row => ?_⟩
    rw [mem_update_add, total_cons]
    by_cases same : row.key = entry.key
    · have here : entry.key = row.key := same.symm
      simp only [same, true_and, ne_eq, not_true, false_and, or_false, if_true,
        represents.mem_iff, known, sub_eq_iff_eq_add', List.mem_cons, exists_eq_or_imp, true_or]
    · have apart : ¬ entry.key = row.key := fun h => same h.symm
      simp only [same, false_and, ne_eq, not_false_eq_true, true_and, false_or, apart, if_false,
        zero_add, represents.mem_iff, List.mem_cons, exists_eq_or_imp]
  · rw [if_neg present]
    have fresh : ∀ row ∈ rows, row.key ≠ entry.key := by
      intro row mem same
      exact present (List.any_eq_true.mpr ⟨row, mem, decide_eq_true same⟩)
    have unknown : ¬ ∃ other ∈ entries, other.key = entry.key := fun known =>
      fresh ⟨entry.key, total entries entry.key⟩ ((represents.mem_iff _).mpr ⟨known, rfl⟩) rfl
    have none : total entries entry.key = 0 := by
      have empty : (entries.filter fun other => other.key = entry.key) = [] := by
        apply List.filter_eq_nil_iff.mpr
        intro other mem same
        exact unknown ⟨other, mem, by simpa using same⟩
      rw [total, empty]
      rfl
    refine ⟨represents.unique.append fresh, fun row => ?_⟩
    rw [List.mem_append, List.mem_singleton, total_cons]
    by_cases same : entry.key = row.key
    · have absent : row ∉ rows := fun mem => fresh row mem same.symm
      rw [if_pos same, ← same, none, add_zero]
      simp only [absent, false_or, List.mem_cons, exists_eq_or_imp, true_or, true_and]
      constructor
      · rintro rfl
        rfl
      · intro sums
        exact Rollup.ext same.symm sums
    · have apart : row ≠ entry := fun h => same (h ▸ rfl)
      simp only [apart, or_false, same, if_false, zero_add, represents.mem_iff, List.mem_cons,
        exists_eq_or_imp, false_or]

/-- An entry that goes. -/
theorem Represents.debit {count : Sums →+ Int} {rows entries : List (Rollup Key Sums)}
    {entry : Rollup Key Sums} (represents : Represents rows (entry :: entries))
    (single : ∀ other ∈ entry :: entries, count other.sums = 1) :
    Represents (applyDelta count ⟨entry.key, -entry.sums⟩ rows) entries := by
  obtain ⟨one, others⟩ := List.forall_mem_cons.mp single
  have backward : count (-entry.sums) < 0 := by
    rw [map_neg, one]
    omega
  unfold applyDelta
  rw [if_pos backward]
  have kept : Unique Rollup.key
      (update (fun row => decide (row.key = entry.key)) (·.add (-entry.sums)) rows) :=
    represents.unique.update fun _ => rfl
  refine ⟨kept.filter _, fun row => ?_⟩
  rw [List.mem_filter, mem_update_add]
  by_cases same : row.key = entry.key
  · have zero : count row.sums = 0 ∧ row.sums = total entries entry.key →
        ¬ ∃ other ∈ entries, other.key = entry.key := by
      rintro ⟨none, sums⟩
      rw [sums] at none
      exact (count_total_eq_zero others).mp none
    have here : (⟨entry.key, row.sums - -entry.sums⟩ : Rollup Key Sums) ∈ rows ↔
        row.sums = total entries entry.key := by
      rw [represents.mem_iff, total_cons, if_pos rfl, sub_neg_eq_add, add_comm row.sums]
      simp
    simp only [same, true_and, ne_eq, not_true, false_and, or_false, here, decide_eq_true_eq]
    constructor
    · rintro ⟨sums, counts⟩
      refine ⟨?_, sums⟩
      by_contra unknown
      apply counts
      rw [sums]
      exact (count_total_eq_zero others).mpr unknown
    · rintro ⟨known, sums⟩
      exact ⟨sums, fun none => zero ⟨none, sums⟩ known⟩
  · have apart : ¬ entry.key = row.key := fun h => same h.symm
    simp only [same, false_and, ne_eq, not_false_eq_true, true_and, false_or, decide_true,
      and_true, represents.mem_iff, total_cons, apart, if_false, zero_add, List.mem_cons,
      exists_eq_or_imp]

/-! ## Grouping -/

/-- `GROUP BY`: one row for each key, made of the rows of the key. -/
def groupBy {Row : Type w} {Out : Type x} (key : Row → Key) (aggregate : Key → List Row → Out)
    (rows : List Row) : List Out :=
  (rows.map key).dedup.map fun k => aggregate k (rows.filter fun row => key row = k)

omit [AddCommGroup Sums] in
/-- Grouping by keys that agree on the rows. -/
theorem groupBy_congr {Row : Type w} {Out : Type x} {key key' : Row → Key}
    {aggregate : Key → List Row → Out} {rows : List Row}
    (agree : ∀ row ∈ rows, key row = key' row) :
    groupBy key aggregate rows = groupBy key' aggregate rows := by
  unfold groupBy
  rw [List.map_congr_left agree]
  apply List.map_congr_left
  intro k _
  have same : (rows.filter fun row => key row = k) = rows.filter fun row => key' row = k :=
    List.filter_congr fun row mem => by rw [agree row mem]
  rw [same]

/-- A table of sums is the grouping of its entries, if an aggregate sums its group. -/
theorem Represents.perm_groupBy {Row : Type w} {rows : List (Rollup Key Sums)}
    {source : List Row} {entry : Row → Rollup Key Sums}
    {aggregate : Key → List Row → Rollup Key Sums}
    (represents : Represents rows (source.map entry))
    (sums : ∀ k, aggregate k (source.filter fun row => (entry row).key = k) =
      ⟨k, total (source.map entry) k⟩) :
    rows.Perm (groupBy (fun row => (entry row).key) aggregate source) := by
  have rowsNodup : rows.Nodup := (unique_iff_nodup.mp represents.unique).of_map
  have grouped : groupBy (fun row => (entry row).key) aggregate source =
      (source.map fun row => (entry row).key).dedup.map fun k =>
        (⟨k, total (source.map entry) k⟩ : Rollup Key Sums) := by
    apply List.map_congr_left
    intro k _
    exact sums k
  have injective : Function.Injective fun k =>
      (⟨k, total (source.map entry) k⟩ : Rollup Key Sums) :=
    fun _ _ same => congrArg Rollup.key same
  rw [grouped]
  apply (List.perm_ext_iff_of_nodup rowsNodup ((List.nodup_dedup _).map injective)).mpr
  intro row
  rw [represents.mem_iff]
  simp only [List.mem_map, List.mem_dedup, exists_exists_and_eq_and]
  constructor
  · rintro ⟨⟨origin, mem, same⟩, total⟩
    exact ⟨origin, mem, Rollup.ext same (by rw [same]; exact total.symm)⟩
  · rintro ⟨origin, mem, rfl⟩
    exact ⟨⟨origin, mem, rfl⟩, rfl⟩

end Foco.Rollups
