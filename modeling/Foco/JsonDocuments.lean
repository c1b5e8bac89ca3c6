import Mathlib.Data.List.Forall2
import Foco.Json

/-!
Documents whose objects keep the order in which their keys were inserted, as `serde_json` does
over `indexmap`: removing a key moves the last field into its place, a new key goes to the end.
Two relations speak about whole documents: every object names each key once, and two documents
are equal but for the string values stored under some keys.
-/
namespace Foco

namespace JsonMap

/-- `Map::remove`, what is left: the last field takes the place of the one removed. -/
def swapRemove (key : String) : JsonMap → JsonMap
  | [] => []
  | field :: rest =>
    if field.1 = key then
      match rest.reverse with
      | [] => []
      | last :: front => last :: front.reverse
    else field :: swapRemove key rest

/-- The value under a key, changed in place: `Map::get_mut`. -/
def modify (key : String) (change : Json → Json) (fields : JsonMap) : JsonMap :=
  fields.map fun field => if field.1 = key then (field.1, change field.2) else field

/-- `Map::insert`: a key that is there keeps its place, a new one goes to the end. -/
def put (key : String) (value : Json) (fields : JsonMap) : JsonMap :=
  if key ∈ fields.map Prod.fst then modify key (fun _ => value) fields else fields ++ [(key, value)]

theorem swapRemove_cons (key : String) (field : String × Json) (rest : JsonMap) :
    swapRemove key (field :: rest) =
      if field.1 = key then
        match rest.reverse with
        | [] => []
        | last :: front => last :: front.reverse
      else field :: swapRemove key rest := rfl

theorem modify_eq (key : String) (change : Json → Json) (fields : JsonMap) :
    modify key change fields =
      fields.map fun field => if field.1 = key then (field.1, change field.2) else field := rfl

theorem get_cons (key : String) (field : String × Json) (fields : JsonMap) :
    JsonMap.get key (field :: fields) =
      if field.1 = key then some field.2 else JsonMap.get key fields := by
  by_cases same : field.1 = key
  · simp [get, Json.get, same]
  · simp [get, Json.get, same]

theorem get_eq_none {key : String} {fields : JsonMap} (absent : key ∉ fields.map Prod.fst) :
    JsonMap.get key fields = none :=
  Json.get_eq_none absent

theorem absent_of_get {key : String} {fields : JsonMap} (none : JsonMap.get key fields = none) :
    key ∉ fields.map Prod.fst := by
  induction fields with
  | nil => exact List.not_mem_nil
  | cons field fields ih =>
    rw [get_cons] at none
    by_cases same : field.1 = key
    · rw [if_pos same] at none
      exact nomatch none
    · rw [if_neg same] at none
      rw [List.map_cons, List.mem_cons, not_or]
      exact ⟨fun equal => same equal.symm, ih none⟩

theorem get_append_absent {key : String} {fields : JsonMap} (value : Json)
    (absent : key ∉ fields.map Prod.fst) :
    JsonMap.get key (fields ++ [(key, value)]) = some value := by
  induction fields with
  | nil => simp [get_cons]
  | cons field fields ih =>
    rw [List.map_cons, List.mem_cons, not_or] at absent
    rw [List.cons_append, get_cons, if_neg fun equal => absent.1 equal.symm]
    exact ih absent.2

theorem swapRemove_append_absent {key : String} {fields : JsonMap} (value : Json)
    (absent : key ∉ fields.map Prod.fst) :
    swapRemove key (fields ++ [(key, value)]) = fields := by
  induction fields with
  | nil => simp [swapRemove_cons]
  | cons field fields ih =>
    rw [List.map_cons, List.mem_cons, not_or] at absent
    rw [List.cons_append, swapRemove_cons, if_neg fun equal => absent.1 equal.symm, ih absent.2]

theorem swapRemove_perm {key : String} {fields : JsonMap} :
    (swapRemove key fields).Perm (fields.eraseP fun field => field.1 = key) := by
  induction fields with
  | nil => exact List.Perm.nil
  | cons field fields ih =>
    by_cases same : field.1 = key
    · rw [swapRemove_cons, if_pos same, List.eraseP_cons_of_pos (by simpa using same)]
      cases reversed : fields.reverse with
      | nil =>
        rw [List.reverse_eq_nil_iff.mp reversed]
      | cons last front =>
        have split : fields = front.reverse ++ [last] := by
          rw [← List.reverse_reverse fields, reversed, List.reverse_cons]
        rw [split]
        exact @List.perm_append_comm _ [last] _
    · rw [swapRemove_cons, if_neg same, List.eraseP_cons_of_neg (by simpa using same)]
      exact ih.cons field

/-- Among fields with different keys none is left under the removed key. -/
theorem absent_swapRemove {key : String} {fields : JsonMap} (keyed : (fields.map Prod.fst).Nodup) :
    key ∉ (swapRemove key fields).map Prod.fst := by
  rw [(List.Perm.map Prod.fst swapRemove_perm).mem_iff]
  induction fields with
  | nil => exact List.not_mem_nil
  | cons field fields ih =>
    rw [List.map_cons, List.nodup_cons] at keyed
    by_cases same : field.1 = key
    · rw [List.eraseP_cons_of_pos (by simpa using same), ← same]
      exact keyed.1
    · rw [List.eraseP_cons_of_neg (by simpa using same), List.map_cons, List.mem_cons, not_or]
      exact ⟨fun equal => same equal.symm, ih keyed.2⟩

theorem swapRemove_absent {key : String} {fields : JsonMap} (absent : key ∉ fields.map Prod.fst) :
    swapRemove key fields = fields := by
  induction fields with
  | nil => rfl
  | cons field fields ih =>
    rw [List.map_cons, List.mem_cons, not_or] at absent
    rw [swapRemove_cons, if_neg fun equal => absent.1 equal.symm, ih absent.2]

theorem mem_of_mem_swapRemove {key : String} {fields : JsonMap} {field : String × Json}
    (mem : field ∈ swapRemove key fields) : field ∈ fields :=
  List.mem_of_mem_eraseP ((List.Perm.mem_iff swapRemove_perm).mp mem)

theorem nodup_swapRemove {key : String} {fields : JsonMap} (keyed : (fields.map Prod.fst).Nodup) :
    ((swapRemove key fields).map Prod.fst).Nodup :=
  (List.Perm.map Prod.fst swapRemove_perm).nodup_iff.mpr
    ((List.eraseP_sublist.map Prod.fst).nodup keyed)

/-- Under different keys the order of the fields does not matter. -/
theorem get_perm {key : String} {fields others : JsonMap} (perm : fields.Perm others)
    (keyed : (fields.map Prod.fst).Nodup) : fields.get key = others.get key := by
  induction perm with
  | nil => rfl
  | cons field _ ih => rw [get_cons, get_cons, ih (List.nodup_cons.mp keyed).2]
  | swap first second fields =>
    rw [get_cons, get_cons, get_cons, get_cons]
    by_cases here : first.1 = key
    · have other : second.1 ≠ key := fun same =>
        (List.nodup_cons.mp keyed).1 (by simp [same, here])
      rw [if_neg other, if_pos here, if_pos here]
    · rw [if_neg here, if_neg here]
  | trans first _ ihFirst ihSecond =>
    exact (ihFirst keyed).trans (ihSecond ((first.map Prod.fst).nodup_iff.mp keyed))

theorem get_swapRemove_ne {key other : String} (ne : other ≠ key) {fields : JsonMap}
    (keyed : (fields.map Prod.fst).Nodup) :
    (swapRemove key fields).get other = fields.get other := by
  rw [get_perm swapRemove_perm (nodup_swapRemove keyed)]
  clear keyed
  induction fields with
  | nil => rfl
  | cons field fields ih =>
    by_cases same : field.1 = key
    · rw [List.eraseP_cons_of_pos (by simpa using same), get_cons,
        if_neg fun equal => ne (equal.symm.trans same)]
    · rw [List.eraseP_cons_of_neg (by simpa using same), get_cons, get_cons, ih]

@[simp] theorem keys_modify (key : String) (change : Json → Json) (fields : JsonMap) :
    (modify key change fields).map Prod.fst = fields.map Prod.fst := by
  rw [modify_eq, List.map_map]
  refine List.map_congr_left fun field _ => ?_
  by_cases same : field.1 = key
  · simp [same]
  · simp [same]

theorem get_modify_self (key : String) (change : Json → Json) (fields : JsonMap) :
    (modify key change fields).get key = (fields.get key).map change := by
  induction fields with
  | nil => rfl
  | cons field fields ih =>
    by_cases same : field.1 = key
    · simp [modify_eq, get_cons, same]
    · rw [get_cons, if_neg same, ← ih]
      simp [modify_eq, get_cons, same]

theorem get_modify_ne {key other : String} (ne : other ≠ key) (change : Json → Json)
    (fields : JsonMap) : (modify key change fields).get other = fields.get other := by
  induction fields with
  | nil => rfl
  | cons field fields ih =>
    rw [get_cons, ← ih]
    by_cases same : field.1 = key
    · simp [modify_eq, get_cons, same, ne.symm]
    · simp [modify_eq, get_cons, same]

theorem modify_modify (key : String) (first second : Json → Json) (fields : JsonMap) :
    modify key second (modify key first fields) = modify key (second ∘ first) fields := by
  rw [modify_eq, modify_eq, List.map_map]
  refine List.map_congr_left fun field _ => ?_
  by_cases same : field.1 = key
  · simp [same]
  · simp [same]

/-- A field stays where it is when another one is removed, whatever happens to its value. -/
theorem swapRemove_modify (key other : String) (change : Json → Json) (fields : JsonMap) :
    swapRemove key (modify other change fields) = modify other change (swapRemove key fields) := by
  have name : ∀ field : String × Json,
      (if field.1 = other then (field.1, change field.2) else field).1 = field.1 := fun field => by
    split <;> rfl
  induction fields with
  | nil => rfl
  | cons field fields ih =>
    by_cases same : field.1 = key
    · rw [modify_eq, List.map_cons, swapRemove_cons, if_pos ((name field).trans same),
        swapRemove_cons, if_pos same, ← List.map_reverse]
      cases fields.reverse with
      | nil => rfl
      | cons last front => simp [modify_eq]
    · rw [modify_eq, List.map_cons, swapRemove_cons,
        if_neg (fun equal => same ((name field).symm.trans equal)), swapRemove_cons, if_neg same,
        ← modify_eq, ih]
      rfl

/-- A change that does nothing to the values under the key does nothing. -/
theorem modify_eq_self {key : String} {change : Json → Json} {fields : JsonMap}
    (fixed : ∀ field ∈ fields, field.1 = key → change field.2 = field.2) :
    modify key change fields = fields := by
  rw [modify_eq]
  refine (List.map_congr_left fun field mem => ?_).trans (List.map_id fields)
  by_cases same : field.1 = key
  · rw [if_pos same, fixed field mem same, id]
  · rw [if_neg same, id]

theorem get_of_mem {key : String} {value : Json} {fields : JsonMap}
    (keyed : (fields.map Prod.fst).Nodup) (mem : (key, value) ∈ fields) :
    fields.get key = some value := by
  induction fields with
  | nil => exact absurd mem List.not_mem_nil
  | cons field fields ih =>
    rw [List.map_cons, List.nodup_cons] at keyed
    rw [get_cons]
    obtain rfl | mem := List.mem_cons.mp mem
    · exact if_pos rfl
    · have other : field.1 ≠ key := fun same =>
        keyed.1 (same.symm ▸ List.mem_map_of_mem (f := Prod.fst) mem)
      rw [if_neg other]
      exact ih keyed.2 mem

theorem put_absent {key : String} {fields : JsonMap} (value : Json)
    (absent : key ∉ fields.map Prod.fst) : put key value fields = fields ++ [(key, value)] :=
  if_neg absent

end JsonMap

/-! ## Maps field by field -/

/-- Two maps with the same keys in the same order whose values are related under each key. -/
def FieldsRelate (related : String → Json → Json → Prop) : JsonMap → JsonMap → Prop :=
  List.Forall₂ fun field other => field.1 = other.1 ∧ related field.1 field.2 other.2

namespace FieldsRelate

variable {related related' : String → Json → Json → Prop} {fields others : JsonMap}

theorem get (relate : FieldsRelate related fields others) (key : String) :
    Option.Rel (related key) (JsonMap.get key fields) (JsonMap.get key others) := by
  induction relate with
  | nil => exact .none
  | cons head _ ih =>
    rw [JsonMap.get_cons, JsonMap.get_cons, ← head.1]
    split
    · rename_i same
      exact .some (same ▸ head.2)
    · exact ih

theorem swapRemove (relate : FieldsRelate related fields others) (key : String) :
    FieldsRelate related (fields.swapRemove key) (others.swapRemove key) := by
  induction relate with
  | nil => exact .nil
  | cons head rest ih =>
    rename_i field other fields others
    rw [JsonMap.swapRemove_cons, JsonMap.swapRemove_cons, ← head.1]
    by_cases same : field.1 = key
    · have turned := List.rel_reverse rest
      rw [if_pos same, if_pos same]
      cases reversed : fields.reverse with
      | nil =>
        rw [reversed] at turned
        rw [List.forall₂_nil_left_iff.mp turned]
        exact .nil
      | cons last front =>
        rw [reversed] at turned
        obtain ⟨otherLast, otherFront, here, front, shape⟩ := List.forall₂_cons_left_iff.mp turned
        rw [shape]
        exact .cons here (List.rel_reverse front)
    · rw [if_neg same, if_neg same]
      exact .cons head ih

theorem modify (relate : FieldsRelate related fields others) (key : String)
    {change change' : Json → Json}
    (changed : ∀ value other, related key value other → related' key (change value) (change' other))
    (kept : ∀ name, name ≠ key → ∀ value other, related name value other →
      related' name value other) :
    FieldsRelate related' (fields.modify key change) (others.modify key change') := by
  induction relate with
  | nil => exact .nil
  | cons head rest ih =>
    rename_i field other fields others
    refine .cons ?_ ih
    dsimp only
    by_cases same : field.1 = key
    · rw [if_pos same, if_pos (head.1.symm.trans same)]
      exact ⟨head.1, same ▸ changed _ _ (same ▸ head.2)⟩
    · rw [if_neg same, if_neg fun equal => same (head.1.trans equal)]
      exact ⟨head.1, kept _ same _ _ head.2⟩

end FieldsRelate

/-! ## Documents -/

mutual

/-- Every object in a document names each key once, as a `serde_json::Map` does. -/
def Json.Keyed : Json → Prop
  | .null | .bool _ | .number _ | .string _ => True
  | .array values => Json.ValuesKeyed values
  | .object fields => (fields.map Prod.fst).Nodup ∧ Json.FieldsKeyed fields

def Json.ValuesKeyed : List Json → Prop
  | [] => True
  | value :: values => value.Keyed ∧ Json.ValuesKeyed values

def Json.FieldsKeyed : JsonMap → Prop
  | [] => True
  | (_, value) :: fields => value.Keyed ∧ Json.FieldsKeyed fields

end

mutual

/-- Two documents that are equal but for string values stored under a `free` key, at any depth
below it; `under` tells whether the place reached lies below one. -/
def Json.AgreeBut (free : String → Bool) (under : Bool) : Json → Json → Prop
  | .null, other => other = .null
  | .bool value, other => other = .bool value
  | .number value, other => other = .number value
  | .string text, other => ∃ otherText, other = .string otherText ∧ (under = true ∨ text = otherText)
  | .array values, other => ∃ others, other = .array others ∧
      Json.ValuesAgreeBut free under values others
  | .object fields, other => ∃ others, other = .object others ∧
      Json.FieldsAgreeBut free under fields others

def Json.ValuesAgreeBut (free : String → Bool) (under : Bool) : List Json → List Json → Prop
  | [], others => others = []
  | value :: values, others => ∃ other rest, others = other :: rest ∧
      value.AgreeBut free under other ∧ Json.ValuesAgreeBut free under values rest

def Json.FieldsAgreeBut (free : String → Bool) (under : Bool) : JsonMap → JsonMap → Prop
  | [], others => others = []
  | (key, value) :: fields, others => ∃ other rest, others = (key, other) :: rest ∧
      value.AgreeBut free (under || free key) other ∧ Json.FieldsAgreeBut free under fields rest

end

theorem Json.fieldsAgreeBut_iff {free : String → Bool} {under : Bool} {fields others : JsonMap} :
    Json.FieldsAgreeBut free under fields others ↔
      FieldsRelate (fun key => Json.AgreeBut free (under || free key)) fields others := by
  induction fields generalizing others with
  | nil => rw [Json.FieldsAgreeBut, FieldsRelate, List.forall₂_nil_left_iff]
  | cons field fields ih =>
    rw [Json.FieldsAgreeBut, FieldsRelate, List.forall₂_cons_left_iff]
    constructor
    · rintro ⟨other, rest, rfl, here, agree⟩
      exact ⟨(field.1, other), rest, ⟨rfl, here⟩, ih.mp agree, rfl⟩
    · rintro ⟨⟨key, other⟩, rest, ⟨same, here⟩, agree, rfl⟩
      cases same
      exact ⟨other, rest, rfl, here, ih.mpr agree⟩

theorem Json.valuesAgreeBut_iff {free : String → Bool} {under : Bool} {values others : List Json} :
    Json.ValuesAgreeBut free under values others ↔
      List.Forall₂ (Json.AgreeBut free under) values others := by
  induction values generalizing others with
  | nil => rw [Json.ValuesAgreeBut, List.forall₂_nil_left_iff]
  | cons value values ih =>
    rw [Json.ValuesAgreeBut, List.forall₂_cons_left_iff]
    constructor
    · rintro ⟨other, rest, rfl, here, agree⟩
      exact ⟨other, rest, here, ih.mp agree, rfl⟩
    · rintro ⟨other, rest, here, agree, rfl⟩
      exact ⟨other, rest, rfl, here, ih.mpr agree⟩

theorem Json.fieldsKeyed_iff {fields : JsonMap} :
    Json.FieldsKeyed fields ↔ ∀ field ∈ fields, field.2.Keyed := by
  induction fields with
  | nil => simp [Json.FieldsKeyed]
  | cons field fields ih => rw [Json.FieldsKeyed, ih, List.forall_mem_cons]

section Agreement
variable {free : String → Bool} {under : Bool}

theorem Json.AgreeBut.object_iff {fields : JsonMap} {other : Json} :
    Json.AgreeBut free under (.object fields) other ↔ ∃ others, other = .object others ∧
      FieldsRelate (fun key => Json.AgreeBut free (under || free key)) fields others := by
  simp only [Json.AgreeBut, Json.fieldsAgreeBut_iff]

end Agreement

end Foco
