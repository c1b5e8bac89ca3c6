import Mathlib.Data.List.AList

/-!
Hash maps with constant value type as association lists without duplicate keys: how a look-up
sees an insertion, a removal and a filter, and how a search through all entries relates to
look-ups.
-/
namespace Foco.Maps

/-- A hash map. The order of its entries means nothing. -/
abbrev Map (K : Type u) (V : Type v) := AList fun _ : K => V

namespace Map

variable {K : Type u} {V : Type v} [DecidableEq K] {key other : K} {value : V}

theorem lookup_insert_eq_ite (map : Map K V) :
    (map.insert other value).lookup key = if key = other then some value else map.lookup key := by
  split
  · next same =>
    subst same
    exact AList.lookup_insert map
  · next apart => exact AList.lookup_insert_ne apart

theorem lookup_erase_eq_ite (map : Map K V) :
    (map.erase other).lookup key = if key = other then none else map.lookup key := by
  split
  · next same =>
    subst same
    exact AList.lookup_erase key map
  · next apart => exact AList.lookup_erase_ne apart

theorem mem_entries_iff {map : Map K V} :
    (⟨key, value⟩ : Sigma fun _ : K => V) ∈ map.entries ↔ map.lookup key = some value :=
  AList.mem_lookup_iff.symm

/-- `HashMap::retain`. -/
def retain (keep : K → V → Bool) (map : Map K V) : Map K V where
  entries := map.entries.filter fun entry => keep entry.1 entry.2
  nodupKeys := (List.filter_sublist.map Sigma.fst).nodup map.keys_nodup

theorem lookup_retain {keep : K → V → Bool} {map : Map K V} :
    (map.retain keep).lookup key = some value ↔
      map.lookup key = some value ∧ keep key value = true := by
  rw [← mem_entries_iff, ← mem_entries_iff, retain, List.mem_filter]

/-- `values().any`, or whether a search through the entries finds one. -/
def any (test : K → V → Bool) (map : Map K V) : Bool :=
  map.entries.any fun entry => test entry.1 entry.2

theorem any_eq_true {test : K → V → Bool} {map : Map K V} :
    map.any test = true ↔ ∃ key value, map.lookup key = some value ∧ test key value = true := by
  rw [any, List.any_eq_true]
  constructor
  · rintro ⟨⟨key, value⟩, mem, hit⟩
    exact ⟨key, value, mem_entries_iff.mp mem, hit⟩
  · rintro ⟨key, value, found, hit⟩
    exact ⟨⟨key, value⟩, mem_entries_iff.mpr found, hit⟩

end Map

end Foco.Maps
