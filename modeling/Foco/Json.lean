import Foco.MachineIntegers

/-!
`serde_json::Value`, as far as the modelled code reads it: tool arguments arrive
as one value, and handlers look fields up by name and ask for their type.
-/
namespace Foco
open Foco.RustText

/-- `serde_json::Number`: an integer, or a floating-point number kept as its text. -/
inductive JsonNumber where
  | integer (value : Int)
  | float (text : Text)

/-- `serde_json::Value`. -/
inductive Json where
  | null
  | bool (value : Bool)
  | number (value : JsonNumber)
  | string (value : Text)
  | array (values : List Json)
  | object (fields : List (String × Json))

namespace Json

/-- `Value::get` with a string key: only an object has fields. -/
def get (key : String) : Json → Option Json
  | .object fields => (fields.find? (fun field => field.1 == key)).map Prod.snd
  | _ => none

/-- `Value::as_str`. -/
def asStr : Json → Option Text
  | .string value => some value
  | _ => none

/-- `get(key).and_then(Value::as_str)`: the text argument of a tool call. -/
def getStr (key : String) (value : Json) : Option Text := (value.get key).bind asStr

/-- `Value::as_i64`. -/
def asI64 : Json → Option Int
  | .number (.integer value) => if -2 ^ 63 ≤ value ∧ value < 2 ^ 63 then some value else none
  | _ => none

/-- `Value::as_u64`. -/
def asU64 : Json → Option Nat
  | .number (.integer value) => if 0 ≤ value ∧ value ≤ usizeMax then some value.toNat else none
  | _ => none

end Json

/-! ## Objects -/

/-- `serde_json::Map`: the fields of an object. -/
abbrev JsonMap := List (String × Json)

/-- `Value::as_object`. -/
def Json.asObject : Json → Option JsonMap
  | .object fields => some fields
  | _ => none

theorem Json.get_eq_none {fields : JsonMap} {key : String} (absent : key ∉ fields.map Prod.fst) :
    (Json.object fields).get key = none := by
  rw [Json.get, Option.map_eq_none_iff, List.find?_eq_none]
  intro field mem same
  exact absent (List.mem_map.mpr ⟨field, mem, by simpa using same⟩)

theorem Json.get_append (front back : JsonMap) (key : String) :
    (Json.object (front ++ back)).get key =
      ((Json.object front).get key).or ((Json.object back).get key) := by
  simp only [Json.get, List.find?_append, Option.map_or]

namespace JsonMap

/-- `Map::get`. -/
def get (key : String) (fields : JsonMap) : Option Json := (Json.object fields).get key

/-- `Map::remove`. -/
def remove (key : String) (fields : JsonMap) : JsonMap :=
  fields.filter fun field => field.1 != key

/-- `Map::insert`. -/
def insert (key : String) (value : Json) (fields : JsonMap) : JsonMap :=
  (key, value) :: fields.remove key

theorem get_remove_self (key : String) (fields : JsonMap) : (fields.remove key).get key = none := by
  simp only [get, Json.get, remove, Option.map_eq_none_iff, List.find?_eq_none]
  intro field mem same
  have kept := (List.mem_filter.mp mem).2
  simp only [bne, same, Bool.not_true, Bool.false_eq_true] at kept

theorem get_remove_ne {key other : String} (ne : other ≠ key) (fields : JsonMap) :
    (fields.remove key).get other = fields.get other := by
  simp only [get, Json.get, remove, List.find?_filter]
  congr 2
  funext field
  by_cases same : field.1 = other
  · simp [same, ne]
  · simp [same]

@[simp] theorem get_insert_self (key : String) (value : Json) (fields : JsonMap) :
    (fields.insert key value).get key = some value := by
  simp [get, Json.get, insert]

theorem get_insert_ne {key other : String} (ne : other ≠ key) (value : Json) (fields : JsonMap) :
    (fields.insert key value).get other = fields.get other := by
  rw [← get_remove_ne ne fields]
  simp [get, Json.get, insert, ne.symm]

end JsonMap

end Foco
