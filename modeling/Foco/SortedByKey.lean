import Mathlib.Data.List.Induction
import Mathlib.Data.List.Sort
import Mathlib.Order.Basic

/-!
Sorted maps whose values hold their own keys, as lists with strictly ascending keys: what inserting
items one after the other leaves, and when that is the items in the order they came in.
-/
namespace Foco.SortedByKey

universe u v

variable {K : Type u} {A : Type v} [LinearOrder K] (key : A → K)

/-- `BTreeMap::insert`: an item with the same key is replaced. -/
def insert (item : A) : List A → List A
  | [] => [item]
  | head :: rest =>
    if key item < key head then item :: head :: rest
    else if key item = key head then item :: rest
    else head :: insert item rest

def insertAll (items : List A) (map : List A) : List A :=
  items.foldl (fun map item => insert key item map) map

def Sorted (map : List A) : Prop := map.Pairwise fun first second => key first < key second

/-- The last item with a key. -/
def lastOf (items : List A) (k : K) : Option A := items.reverse.find? fun item => key item = k

variable {key} {item other : A} {map items : List A} {k : K}

theorem mem_insert (sorted : Sorted key map) :
    other ∈ insert key item map ↔ other = item ∨ other ∈ map ∧ key other ≠ key item := by
  induction map with
  | nil => simp [insert]
  | cons head rest ih =>
    obtain ⟨least, sorted⟩ := List.pairwise_cons.mp sorted
    rw [insert]
    by_cases below : key item < key head
    · rw [if_pos below, List.mem_cons]
      have apart : ∀ other ∈ head :: rest, key other ≠ key item := by
        intro other mem
        obtain rfl | mem := List.mem_cons.mp mem
        · exact (ne_of_lt below).symm
        · exact (ne_of_lt (below.trans (least other mem))).symm
      exact or_congr_right ⟨fun mem => ⟨mem, apart other mem⟩, fun both => both.1⟩
    by_cases same : key item = key head
    · rw [if_neg below, if_pos same, List.mem_cons, List.mem_cons]
      refine or_congr_right ⟨fun mem => ⟨.inr mem, ?_⟩, ?_⟩
      · rw [same]
        exact (ne_of_lt (least other mem)).symm
      · rintro ⟨rfl | mem, apart⟩
        · exact absurd same.symm apart
        · exact mem
    · rw [if_neg below, if_neg same, List.mem_cons, ih sorted, List.mem_cons]
      constructor
      · rintro (rfl | rfl | ⟨mem, apart⟩)
        · exact .inr ⟨.inl rfl, fun eq => same eq.symm⟩
        · exact .inl rfl
        · exact .inr ⟨.inr mem, apart⟩
      · rintro (rfl | ⟨rfl | mem, apart⟩)
        · exact .inr (.inl rfl)
        · exact .inl rfl
        · exact .inr (.inr ⟨mem, apart⟩)

theorem Sorted.insert (sorted : Sorted key map) (item : A) :
    Sorted key (insert key item map) := by
  induction map with
  | nil => exact List.pairwise_singleton _ _
  | cons head rest ih =>
    obtain ⟨least, rested⟩ := List.pairwise_cons.mp sorted
    rw [SortedByKey.insert]
    by_cases below : key item < key head
    · rw [if_pos below]
      refine List.pairwise_cons.mpr ⟨fun other mem => ?_, sorted⟩
      obtain rfl | mem := List.mem_cons.mp mem
      · exact below
      · exact below.trans (least other mem)
    by_cases same : key item = key head
    · rw [if_neg below, if_pos same]
      exact List.pairwise_cons.mpr ⟨fun other mem => same ▸ least other mem, rested⟩
    · rw [if_neg below, if_neg same]
      refine List.pairwise_cons.mpr ⟨fun other mem => ?_, ih rested⟩
      obtain rfl | ⟨mem, -⟩ := (mem_insert rested).mp mem
      · exact lt_of_le_of_ne (not_lt.mp below) (Ne.symm same)
      · exact least other mem

theorem Sorted.insertAll (sorted : Sorted key map) (items : List A) :
    Sorted key (insertAll key items map) := by
  induction items generalizing map with
  | nil => exact sorted
  | cons item items ih => exact ih (sorted.insert item)

theorem sorted_nil : Sorted key ([] : List A) := List.Pairwise.nil

/-- Items that follow a sorted list are put behind it. -/
theorem insert_concat (sorted : Sorted key (map ++ [item])) :
    insert key item map = map ++ [item] := by
  induction map with
  | nil => rfl
  | cons head rest ih =>
    obtain ⟨least, rested⟩ := List.pairwise_cons.mp sorted
    have after : key head < key item := least item (by simp)
    rw [insert, if_neg (not_lt_of_gt after), if_neg (ne_of_gt after), ih rested, List.cons_append]

/-- A sorted list that is inserted item by item is left as it is. -/
theorem insertAll_of_sorted (sorted : Sorted key (map ++ items)) :
    insertAll key items map = map ++ items := by
  induction items generalizing map with
  | nil => exact (List.append_nil map).symm
  | cons item items ih =>
    have whole : map ++ item :: items = map ++ [item] ++ items := by
      rw [List.append_assoc, List.singleton_append]
    rw [whole] at sorted ⊢
    rw [insertAll, List.foldl_cons, insert_concat (List.pairwise_append.mp sorted).1]
    exact ih sorted

theorem lastOf_concat : lastOf key (items ++ [item]) k =
    if key item = k then some item else lastOf key items k := by
  rw [lastOf, List.reverse_append, List.reverse_singleton, List.singleton_append, List.find?_cons]
  by_cases same : key item = k
  · rw [if_pos same, decide_eq_true same]
  · rw [if_neg same, decide_eq_false same]
    rfl

theorem key_of_lastOf (found : lastOf key items k = some item) : key item = k := by
  have here := List.find?_some found
  exact of_decide_eq_true here

theorem mem_of_lastOf (found : lastOf key items k = some item) : item ∈ items :=
  List.mem_reverse.mp (List.mem_of_find?_eq_some found)

theorem exists_last_of_mem (mem : item ∈ items) :
    ∃ last, lastOf key items (key item) = some last := by
  rw [← Option.isSome_iff_exists, lastOf, List.find?_isSome]
  exact ⟨item, List.mem_reverse.mpr mem, decide_eq_true rfl⟩

/-- What is left of the items is the last one with each key. -/
theorem mem_insertAll : item ∈ insertAll key items [] ↔ lastOf key items (key item) = some item := by
  induction items using List.reverseRecOn generalizing item with
  | nil => simp [insertAll, lastOf]
  | append_singleton items last ih =>
    have sorted : Sorted key (insertAll key items []) := sorted_nil.insertAll items
    rw [insertAll, List.foldl_append, List.foldl_cons, List.foldl_nil, lastOf_concat]
    refine (mem_insert sorted).trans ?_
    rw [ih]
    by_cases same : key last = key item
    · rw [if_pos same, Option.some.injEq]
      exact ⟨fun either => either.elim Eq.symm fun both => absurd same.symm both.2,
        fun eq => .inl eq.symm⟩
    · rw [if_neg same]
      constructor
      · rintro (rfl | ⟨found, -⟩)
        · exact absurd rfl same
        · exact found
      · exact fun found => .inr ⟨found, fun eq => same eq.symm⟩

/-- Sorted lists with the same items are equal. -/
theorem Sorted.eq {first second : List A} (one : Sorted key first) (two : Sorted key second)
    (same : ∀ item, item ∈ first ↔ item ∈ second) : first = second := by
  have irreflexive (list : List A) (sorted : Sorted key list) : list.Nodup :=
    sorted.imp fun less eq => absurd (eq ▸ less) (lt_irrefl _)
  have perm : first.Perm second :=
    (List.perm_ext_iff_of_nodup (irreflexive _ one) (irreflexive _ two)).mpr same
  exact perm.eq_of_pairwise (fun _ _ _ _ less more => absurd (less.trans more) (lt_irrefl _))
    one two

end Foco.SortedByKey
