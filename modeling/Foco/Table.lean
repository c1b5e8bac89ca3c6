import Mathlib.Data.List.Nodup
import Mathlib.Data.List.Perm.Basic
import Mathlib.Data.List.Count
import Mathlib.Data.List.Sort

/-!
Tables as lists of rows in insertion order: the statement that rewrites the rows a
condition selects, unique keys, partial unique keys, and what a rewrite does to them and
to counts of rows. A statement that runs once for each row of a snapshot is a monadic fold.
-/
namespace Foco.Table

variable {Row : Type u} {Key : Type v}

/-- Rewrite the rows that a condition selects. -/
def update (selects : Row → Bool) (set : Row → Row) (rows : List Row) : List Row :=
  rows.map fun row => if selects row then set row else row

theorem mem_update {selects : Row → Bool} {set : Row → Row} {rows : List Row} {row : Row} :
    row ∈ update selects set rows ↔
      ∃ old ∈ rows, row = if selects old then set old else old := by
  simp only [update, List.mem_map, eq_comm]

theorem mem_update_of_not {selects : Row → Bool} {set : Row → Row} {rows : List Row} {row : Row}
    (mem : row ∈ rows) (skipped : selects row = false) : row ∈ update selects set rows :=
  mem_update.mpr ⟨row, mem, by simp only [skipped, Bool.false_eq_true, if_false]⟩

theorem mem_update_of {selects : Row → Bool} {set : Row → Row} {rows : List Row} {row : Row}
    (mem : row ∈ rows) (selected : selects row = true) : set row ∈ update selects set rows :=
  mem_update.mpr ⟨row, mem, by simp only [selected, if_true]⟩

/-- A rewrite keeps every column that it does not set. -/
theorem map_update {selects : Row → Bool} {set : Row → Row} {rows : List Row} (column : Row → Key)
    (keeps : ∀ row, column (set row) = column row) :
    (update selects set rows).map column = rows.map column := by
  simp only [update, List.map_map]
  apply List.map_congr_left
  intro row _
  simp only [Function.comp]
  split
  · exact keeps row
  · rfl

/-- Conditions that agree on the rows of the table select the same rewrite. -/
theorem update_congr {selects selects' : Row → Bool} {set : Row → Row} {rows : List Row}
    (agree : ∀ row ∈ rows, selects row = selects' row) :
    update selects set rows = update selects' set rows := by
  apply List.map_congr_left
  intro row mem
  rw [agree row mem]

theorem update_update {selects selects' : Row → Bool} {set : Row → Row}
    (once : ∀ row, selects' (set row) = false) (rows : List Row) :
    update selects' set (update selects set rows) =
      update (fun row => selects row || selects' row) set rows := by
  simp only [update, List.map_map]
  apply List.map_congr_left
  intro row _
  by_cases selected : selects row = true
  · simp [selected, once]
  · simp [selected]

/-- A statement on the rows of one key leaves the others. -/
theorem mem_update_of_key {selects : Row → Bool} {set : Row → Row} {rows : List Row}
    (key : Row → Key) {value : Key} (selected : ∀ row, selects row = true → key row = value)
    (keeps : ∀ row, key (set row) = key row) {row : Row} (other : key row ≠ value) :
    row ∈ update selects set rows ↔ row ∈ rows := by
  constructor
  · intro mem
    obtain ⟨old, oldMem, rfl⟩ := mem_update.mp mem
    by_cases hit : selects old = true
    · rw [if_pos hit, keeps] at other
      exact absurd (selected old hit) other
    · rw [if_neg hit]
      exact oldMem
  · intro mem
    apply mem_update_of_not mem
    by_contra hit
    exact other (selected row (Bool.of_not_eq_false hit))

theorem update_none {selects : Row → Bool} {set : Row → Row} {rows : List Row}
    (none : ∀ row ∈ rows, selects row = false) : update selects set rows = rows := by
  have same : update selects set rows = rows.map id := by
    apply List.map_congr_left
    intro row mem
    simp only [none row mem, Bool.false_eq_true, if_false, id]
  rw [same, List.map_id]

/-- A lookup by key after a statement on the rows of one key. -/
theorem find?_update_key [DecidableEq Key] {key : Row → Key} {set : Row → Row} {rows : List Row}
    (keeps : ∀ row, key (set row) = key row) (target wanted : Key) :
    (update (fun row => decide (key row = target)) set rows).find?
        (fun row => decide (key row = wanted)) =
      if wanted = target then (rows.find? fun row => decide (key row = wanted)).map set
      else rows.find? fun row => decide (key row = wanted) := by
  induction rows with
  | nil =>
    split
    · rfl
    · rfl
  | cons row rest ih =>
    have kept : key (if decide (key row = target) then set row else row) = key row := by
      split
      · exact keeps row
      · rfl
    simp only [update, List.map_cons, List.find?_cons, kept] at ih ⊢
    by_cases found : key row = wanted
    · by_cases same : wanted = target
      · simp [found, same]
      · simp [found, same]
    · simp only [found, decide_false]
      exact ih

/-! ## Counting rows -/

/-- What a rewrite does to the number of rows with a property: it takes away the selected rows
that had it and adds the selected rows that have it afterwards. -/
theorem countP_update (selects : Row → Bool) (set : Row → Row) (rows : List Row)
    (holds : Row → Bool) :
    (update selects set rows).countP holds + rows.countP (fun row => selects row && holds row) =
      rows.countP holds + rows.countP (fun row => selects row && holds (set row)) := by
  induction rows with
  | nil => rfl
  | cons row rest ih =>
    simp only [update, List.map_cons, List.countP_cons] at ih ⊢
    by_cases selected : selects row = true
    · by_cases before : holds row = true <;> by_cases after : holds (set row) = true <;>
        simp only [selected, before, after, Bool.and_true, Bool.and_false, if_true, if_false,
          Bool.false_eq_true] <;> omega
    · simp only [selected, Bool.false_and, if_false, Bool.false_eq_true]
      omega

/-- A rewrite that leaves the property of every selected row as it was keeps the count. -/
theorem countP_update_eq {selects : Row → Bool} {set : Row → Row} {rows : List Row}
    {holds : Row → Bool} (same : ∀ row ∈ rows, selects row = true → holds (set row) = holds row) :
    (update selects set rows).countP holds = rows.countP holds := by
  have balance := countP_update selects set rows holds
  have equal : rows.countP (fun row => selects row && holds (set row)) =
      rows.countP (fun row => selects row && holds row) := by
    apply List.countP_congr
    intro row mem
    cases selected : selects row with
    | false => rfl
    | true => simp only [Bool.true_and, same row mem selected]
  omega

/-! ## Unique keys -/

/-- No two rows have the same key. -/
def Unique (key : Row → Key) (rows : List Row) : Prop :=
  rows.Pairwise fun first second => key first ≠ key second

/-- No two of the rows that a condition indexes have the same key. -/
def UniqueWhere (indexed : Row → Bool) (key : Row → Key) (rows : List Row) : Prop :=
  rows.Pairwise fun first second =>
    indexed first = true → indexed second = true → key first ≠ key second

instance [DecidableEq Key] (key : Row → Key) (rows : List Row) : Decidable (Unique key rows) :=
  inferInstanceAs (Decidable (List.Pairwise _ _))

instance [DecidableEq Key] (indexed : Row → Bool) (key : Row → Key) (rows : List Row) :
    Decidable (UniqueWhere indexed key rows) :=
  inferInstanceAs (Decidable (List.Pairwise _ _))

theorem unique_iff_nodup {key : Row → Key} {rows : List Row} :
    Unique key rows ↔ (rows.map key).Nodup := List.pairwise_map.symm

/-- Two indexed rows with one key are the same row. -/
theorem UniqueWhere.eq {indexed : Row → Bool} {key : Row → Key} {rows : List Row}
    (unique : UniqueWhere indexed key rows) {first second : Row} (firstMem : first ∈ rows)
    (secondMem : second ∈ rows) (firstIndexed : indexed first = true)
    (secondIndexed : indexed second = true) (same : key first = key second) : first = second := by
  induction rows with
  | nil => cases firstMem
  | cons row rest ih =>
    obtain ⟨head, tail⟩ := List.pairwise_cons.mp unique
    rcases List.mem_cons.mp firstMem with rfl | firstRest <;>
      rcases List.mem_cons.mp secondMem with rfl | secondRest
    · rfl
    · exact absurd same (head second secondRest firstIndexed secondIndexed)
    · exact absurd same.symm (head first firstRest secondIndexed firstIndexed)
    · exact ih tail firstRest secondRest

theorem Unique.eq {key : Row → Key} {rows : List Row} (unique : Unique key rows)
    {first second : Row} (firstMem : first ∈ rows) (secondMem : second ∈ rows)
    (same : key first = key second) : first = second :=
  have indexed : UniqueWhere (fun _ => true) key rows := unique.imp fun ne _ _ => ne
  indexed.eq firstMem secondMem rfl rfl same

/-- A key is unique among the indexed rows if it determines another unique key there. -/
theorem UniqueWhere.of_unique {Ident : Type w} {ident : Row → Ident} {indexed : Row → Bool}
    {key : Row → Key} {rows : List Row} (unique : Unique ident rows)
    (determines : ∀ first ∈ rows, ∀ second ∈ rows, indexed first = true →
      indexed second = true → key first = key second → ident first = ident second) :
    UniqueWhere indexed key rows := by
  apply List.Pairwise.imp_of_mem _ unique
  intro first second firstMem secondMem apart firstIndexed secondIndexed same
  exact apart (determines first firstMem second secondMem firstIndexed secondIndexed same)

/-- A rewrite that does not touch the key keeps it unique. -/
theorem Unique.update {key : Row → Key} {rows : List Row} (unique : Unique key rows)
    {selects : Row → Bool} {set : Row → Row} (keeps : ∀ row, key (set row) = key row) :
    Unique key (update selects set rows) := by
  rw [unique_iff_nodup, map_update key keeps]
  exact unique_iff_nodup.mp unique

/-- So does a rewrite that indexes no row that was not indexed before. -/
theorem UniqueWhere.update {indexed : Row → Bool} {key : Row → Key} {rows : List Row}
    (unique : UniqueWhere indexed key rows) {selects : Row → Bool} {set : Row → Row}
    (keeps : ∀ row, key (set row) = key row)
    (shrinks : ∀ row, selects row = true → indexed (set row) = true → indexed row = true) :
    UniqueWhere indexed key (update selects set rows) := by
  have written : ∀ row, key (if selects row then set row else row) = key row ∧
      (indexed (if selects row then set row else row) = true → indexed row = true) := by
    intro row
    split
    · rename_i selected
      exact ⟨keeps row, shrinks row selected⟩
    · exact ⟨rfl, id⟩
  apply List.pairwise_map.mpr
  apply unique.imp
  intro first second apart firstIndexed secondIndexed
  rw [(written first).1, (written second).1]
  exact apart ((written first).2 firstIndexed) ((written second).2 secondIndexed)

theorem Unique.append {key : Row → Key} {rows : List Row} (unique : Unique key rows) {row : Row}
    (fresh : ∀ old ∈ rows, key old ≠ key row) : Unique key (rows ++ [row]) := by
  refine List.pairwise_append.mpr ⟨unique, List.pairwise_singleton _ _, ?_⟩
  intro old mem new newMem
  rw [List.mem_singleton.mp newMem]
  exact fresh old mem

theorem UniqueWhere.append {indexed : Row → Bool} {key : Row → Key} {rows : List Row}
    (unique : UniqueWhere indexed key rows) {row : Row}
    (fresh : ∀ old ∈ rows, indexed old = true → key old ≠ key row) :
    UniqueWhere indexed key (rows ++ [row]) := by
  refine List.pairwise_append.mpr ⟨unique, List.pairwise_singleton _ _, ?_⟩
  intro old mem new newMem oldIndexed _
  rw [List.mem_singleton.mp newMem]
  exact fresh old mem oldIndexed

/-- A condition that holds of one row, and of no row with another key, selects one row. -/
theorem countP_eq_one_of_unique {key : Row → Key} {rows : List Row} (unique : Unique key rows)
    {row : Row} (mem : row ∈ rows) {selects : Row → Bool} (selected : selects row = true)
    (only : ∀ other ∈ rows, selects other = true → key other = key row) :
    rows.countP selects = 1 := by
  induction rows with
  | nil => cases mem
  | cons head rest ih =>
    obtain ⟨apart, tail⟩ := List.pairwise_cons.mp unique
    rw [List.countP_cons]
    rcases List.mem_cons.mp mem with rfl | later
    · have none : rest.countP selects = 0 := by
        apply List.countP_eq_zero.mpr
        intro other otherMem hit
        exact apart other otherMem (only other (List.mem_cons_of_mem row otherMem) hit).symm
      rw [none, if_pos selected]
    · have one := ih tail later fun other otherMem =>
        only other (List.mem_cons_of_mem head otherMem)
      have skipped : ¬ selects head = true := fun hit =>
        apart row later (only head List.mem_cons_self hit)
      rw [one, if_neg skipped]

/-- The row of a key and the rows of other keys. -/
theorem perm_cons_filter [DecidableEq Key] {key : Row → Key} {rows : List Row}
    (unique : Unique key rows) {row : Row} (mem : row ∈ rows) :
    rows.Perm (row :: rows.filter fun other => key other ≠ key row) := by
  induction rows with
  | nil => cases mem
  | cons head rest ih =>
    obtain ⟨apart, tail⟩ := List.pairwise_cons.mp unique
    rcases List.mem_cons.mp mem with rfl | later
    · have others : rest.filter (fun other => key other ≠ key row) = rest := by
        apply List.filter_eq_self.mpr
        intro other otherMem
        exact decide_eq_true fun same => apart other otherMem same.symm
      rw [List.filter_cons_of_neg (by simp), others]
    · have kept : decide (key head ≠ key row) = true := decide_eq_true (apart row later)
      rw [List.filter_cons, if_pos kept]
      exact ((ih tail later).cons head).trans (List.Perm.swap row head _)

/-- A rewrite of the row of one key. -/
theorem update_perm [DecidableEq Key] {key : Row → Key} {rows : List Row}
    (unique : Unique key rows) {row : Row} (mem : row ∈ rows) (set : Row → Row) :
    (update (fun other => key other = key row) set rows).Perm
      (set row :: rows.filter fun other => key other ≠ key row) := by
  have rewritten := (perm_cons_filter unique mem).map fun other =>
    if decide (key other = key row) then set other else other
  rw [List.map_cons, if_pos (decide_eq_true rfl)] at rewritten
  have others : (rows.filter fun other => key other ≠ key row).map (fun other =>
      if decide (key other = key row) then set other else other) =
        rows.filter fun other => key other ≠ key row := by
    refine (List.map_congr_left fun other otherMem => ?_).trans (List.map_id _)
    have apart := (List.mem_filter.mp otherMem).2
    rw [if_neg (by simpa using apart), id]
  rwa [others] at rewritten

/-! ## Ordering rows -/

/-- `ORDER BY`: the rows in the order of a comparison. -/
def sortBy (precedes : Row → Row → Bool) (rows : List Row) : List Row :=
  rows.insertionSort fun first second => precedes first second = true

theorem mem_sortBy {precedes : Row → Row → Bool} {rows : List Row} {row : Row} :
    row ∈ sortBy precedes rows ↔ row ∈ rows :=
  (List.perm_insertionSort _ rows).mem_iff

theorem Unique.sortBy {key : Row → Key} {rows : List Row} (unique : Unique key rows)
    (precedes : Row → Row → Bool) : Unique key (sortBy precedes rows) := by
  refine (List.Perm.pairwise_iff ?_ (List.perm_insertionSort _ rows)).mpr unique
  exact fun ne same => ne same.symm

theorem Unique.filter {key : Row → Key} {rows : List Row} (unique : Unique key rows)
    (selects : Row → Bool) : Unique key (rows.filter selects) :=
  List.Pairwise.filter selects unique

theorem Unique.take {key : Row → Key} {rows : List Row} (unique : Unique key rows)
    (limit : Nat) : Unique key (rows.take limit) :=
  List.Pairwise.sublist (List.take_sublist limit rows) unique

/-! ## A statement for each row of a snapshot -/

/-- A loop over the rows of a snapshot. `Ready` says what the loop still needs to know of a row
it has not come to: it holds of every row at the start, and the body keeps it for the rows
with other keys. Then what the body keeps holds after the loop. -/
theorem foldlM_snapshot {Store : Type w} {Error : Type x} {key : Row → Key}
    {body : Store → Row → Except Error Store} {Inv : Store → Prop} {Ready : Store → Row → Prop}
    (step : ∀ store row store', Inv store → Ready store row → body store row = .ok store' →
      Inv store' ∧ ∀ other, key row ≠ key other → Ready store other → Ready store' other)
    {rows : List Row} (unique : Unique key rows) {store store' : Store} (inv : Inv store)
    (ready : ∀ row ∈ rows, Ready store row) (h : rows.foldlM body store = .ok store') :
    Inv store' := by
  induction rows generalizing store with
  | nil =>
    cases h
    exact inv
  | cons row rest ih =>
    obtain ⟨head, tail⟩ := List.pairwise_cons.mp unique
    rw [List.foldlM_cons] at h
    cases first : body store row with
    | error error =>
      rw [first] at h
      cases h
    | ok next =>
      rw [first] at h
      obtain ⟨invNext, frame⟩ := step store row next inv (ready row List.mem_cons_self) first
      apply ih tail invNext _ h
      intro other mem
      exact frame other (head other mem) (ready other (List.mem_cons_of_mem row mem))

/-- If the body fails in a given way at no row it is ready for, neither does the loop. -/
theorem foldlM_snapshot_ne_error {Store : Type w} {Error : Type x} {key : Row → Key}
    {body : Store → Row → Except Error Store} (Ready : Store → Row → Prop) {error : Error}
    (frame : ∀ store row store', Ready store row → body store row = .ok store' →
      ∀ other, key row ≠ key other → Ready store other → Ready store' other)
    (safe : ∀ store row, Ready store row → body store row ≠ .error error)
    {rows : List Row} (unique : Unique key rows) {store : Store}
    (ready : ∀ row ∈ rows, Ready store row) : rows.foldlM body store ≠ .error error := by
  induction rows generalizing store with
  | nil => nofun
  | cons row rest ih =>
    obtain ⟨head, tail⟩ := List.pairwise_cons.mp unique
    have readyRow := ready row List.mem_cons_self
    rw [List.foldlM_cons]
    cases first : body store row with
    | error other =>
      intro h
      cases h
      exact safe store row readyRow first
    | ok next =>
      apply ih tail
      intro other mem
      exact frame store row next readyRow first other (head other mem)
        (ready other (List.mem_cons_of_mem row mem))

/-- What the body makes of each row it is ready for holds of all rows after the loop, if it
stays once it holds. -/
theorem foldlM_snapshot_done {Store : Type w} {Error : Type x} {key : Row → Key}
    {body : Store → Row → Except Error Store} (Ready Done : Store → Row → Prop)
    (step : ∀ store row store', Ready store row → body store row = .ok store' →
      Done store' row ∧ ∀ other, key row ≠ key other →
        (Ready store other → Ready store' other) ∧ (Done store other → Done store' other))
    {rows : List Row} (unique : Unique key rows) {store store' : Store}
    (ready : ∀ row ∈ rows, Ready store row) (h : rows.foldlM body store = .ok store') :
    (∀ row ∈ rows, Done store' row) ∧
      ∀ other, (∀ row ∈ rows, key row ≠ key other) → Done store other → Done store' other := by
  induction rows generalizing store with
  | nil =>
    cases h
    exact ⟨nofun, fun _ _ done => done⟩
  | cons row rest ih =>
    obtain ⟨head, tail⟩ := List.pairwise_cons.mp unique
    rw [List.foldlM_cons] at h
    cases first : body store row with
    | error error =>
      rw [first] at h
      cases h
    | ok next =>
      rw [first] at h
      obtain ⟨done, frame⟩ := step store row next (ready row List.mem_cons_self) first
      have readyNext : ∀ other ∈ rest, Ready next other := fun other mem =>
        (frame other (head other mem)).1 (ready other (List.mem_cons_of_mem row mem))
      obtain ⟨each, stays⟩ := ih tail readyNext h
      refine ⟨?_, ?_⟩
      · intro other mem
        rcases List.mem_cons.mp mem with rfl | later
        · exact stays other (fun after mem same => head after mem same.symm) done
        · exact each other later
      · intro other apart before
        apply stays other fun after mem => apart after (List.mem_cons_of_mem row mem)
        exact (frame other (apart row List.mem_cons_self)).2 before

/-- A loop whose body never fails does not fail. -/
theorem foldlM_ok {Store : Type w} {Error : Type x} {body : Store → Row → Except Error Store}
    (total : ∀ store row, ∃ store', body store row = .ok store') (rows : List Row)
    (store : Store) : ∃ store', rows.foldlM body store = .ok store' := by
  induction rows generalizing store with
  | nil => exact ⟨store, rfl⟩
  | cons row rest ih =>
    obtain ⟨next, first⟩ := total store row
    obtain ⟨last, tail⟩ := ih next
    refine ⟨last, ?_⟩
    rw [List.foldlM_cons, first]
    exact tail

end Foco.Table
