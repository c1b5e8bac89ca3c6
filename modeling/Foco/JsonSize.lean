import Foco.Json
import Foco.MachineIntegers
import Foco.TextLines

/-!
How many bytes `serde_json` writes for a value and how many lines of text the value holds.
A string is written between quotes with its control characters, quotes and backslashes
escaped and everything else as UTF-8; an object and an array put a separator between
their parts. Both measures of a container are sums over its parts, so they do not depend
on the order of an object's fields.
-/
namespace Foco
open Foco.RustText Foco.TextLines

/-! ## Strings -/

/-- `str::len`: the length of a text in UTF-8. -/
def utf8Length (text : Text) : Nat := (text.map Char.utf8Size).sum

/-- The bytes of one character inside a JSON string. -/
def escapedSize (c : Char) : Nat :=
  if c = '"' ∨ c = '\\' ∨ c.toNat ∈ [8, 9, 10, 12, 13] then 2
  else if c.toNat < 0x20 then 6
  else c.utf8Size

/-- The bytes of a JSON string between its quotes. -/
def escapedLength (text : Text) : Nat := (text.map escapedSize).sum

/-- The bytes of a JSON string. -/
def stringSize (text : Text) : Nat := escapedLength text + 2

@[simp] theorem utf8Length_nil : utf8Length [] = 0 := rfl

@[simp] theorem utf8Length_cons (c : Char) (text : Text) :
    utf8Length (c :: text) = c.utf8Size + utf8Length text := by
  simp [utf8Length]

@[simp] theorem escapedLength_nil : escapedLength [] = 0 := rfl

@[simp] theorem escapedLength_cons (c : Char) (text : Text) :
    escapedLength (c :: text) = escapedSize c + escapedLength text := by
  simp [escapedLength]

@[simp] theorem escapedLength_append (front back : Text) :
    escapedLength (front ++ back) = escapedLength front + escapedLength back := by
  simp [escapedLength]

/-- Escaping makes a character at most six times as long. -/
theorem escapedSize_le (c : Char) : escapedSize c ≤ 6 * c.utf8Size := by
  have positive := c.utf8Size_pos
  unfold escapedSize
  split
  · omega
  · split <;> omega

theorem escapedLength_le (text : Text) : escapedLength text ≤ 6 * utf8Length text := by
  induction text with
  | nil => exact Nat.le_refl 0
  | cons c text ih =>
    have here := escapedSize_le c
    rw [escapedLength_cons, utf8Length_cons]
    omega

/-- A text has at least as many bytes as characters. -/
theorem length_le_utf8Length (text : Text) : text.length ≤ utf8Length text := by
  induction text with
  | nil => exact Nat.le_refl 0
  | cons c text ih =>
    have positive := c.utf8Size_pos
    rw [List.length_cons, utf8Length_cons]
    omega

/-! ## Values -/

/-- The bytes of a number. -/
def JsonNumber.size : JsonNumber → Nat
  | .integer value => (intText value).length
  | .float text => text.length

mutual

/-- The bytes `serde_json::to_writer` writes for a value. -/
def Json.size : Json → Nat
  | .null => 4
  | .bool value => if value then 4 else 5
  | .number value => value.size
  | .string text => stringSize text
  | .array values => 1 + max 1 (Json.sizeOfValues values)
  | .object fields => 1 + max 1 (Json.sizeOfFields fields)

/-- The bytes of some array elements, each with the separator or bracket behind it. -/
def Json.sizeOfValues : List Json → Nat
  | [] => 0
  | value :: values => value.size + 1 + Json.sizeOfValues values

/-- The bytes of some fields, each with the separator or brace behind it. -/
def Json.sizeOfFields : List (String × Json) → Nat
  | [] => 0
  | (key, value) :: fields =>
    stringSize key.toList + 1 + value.size + 1 + Json.sizeOfFields fields

end

/-! ## Lines of text -/

/-- `complete_line_count`: the saturating count of the visits of `for_each_complete_line`. -/
def completeLineCount (text : Text) : Nat :=
  (completeLines text).foldl (fun count _ => saturatingAdd count 1) 0

mutual

/-- `value_text_lines`: the lines of all strings in a value; the keys of an object are none. -/
def Json.textLines : Json → Nat
  | .null | .bool _ | .number _ => 0
  | .string text => completeLineCount text
  | .array values => Json.textLinesOfValues 0 values
  | .object fields => Json.textLinesOfFields 0 fields

/-- The fold over the elements of an array. -/
def Json.textLinesOfValues (lines : Nat) : List Json → Nat
  | [] => lines
  | value :: values => Json.textLinesOfValues (saturatingAdd lines value.textLines) values

/-- The fold over the values of an object. -/
def Json.textLinesOfFields (lines : Nat) : List (String × Json) → Nat
  | [] => lines
  | (_, value) :: fields => Json.textLinesOfFields (saturatingAdd lines value.textLines) fields

end

/-! ## Sums over the parts -/

@[simp] theorem Json.sizeOfFields_append (front back : List (String × Json)) :
    Json.sizeOfFields (front ++ back) = Json.sizeOfFields front + Json.sizeOfFields back := by
  induction front with
  | nil => simp [Json.sizeOfFields]
  | cons field front ih =>
    obtain ⟨key, value⟩ := field
    rw [List.cons_append, Json.sizeOfFields, Json.sizeOfFields, ih]
    omega

@[simp] theorem Json.sizeOfValues_append (front back : List Json) :
    Json.sizeOfValues (front ++ back) = Json.sizeOfValues front + Json.sizeOfValues back := by
  induction front with
  | nil => simp [Json.sizeOfValues]
  | cons value front ih =>
    rw [List.cons_append, Json.sizeOfValues, Json.sizeOfValues, ih]
    omega

theorem foldl_saturatingAdd {β : Type} (amount : β → Nat) (parts : List β) {start : Nat}
    (small : start ≤ usizeMax) :
    parts.foldl (fun total part => saturatingAdd total (amount part)) start =
      min (start + (parts.map amount).sum) usizeMax := by
  induction parts generalizing start with
  | nil => simp [small]
  | cons part parts ih =>
    have capped : saturatingAdd start (amount part) ≤ usizeMax := Nat.min_le_right _ _
    rw [List.foldl_cons, ih capped, List.map_cons, List.sum_cons, saturatingAdd]
    omega

theorem completeLineCount_eq (text : Text) :
    completeLineCount text = min (completeLines text).length usizeMax := by
  have counted := foldl_saturatingAdd (fun _ : Text => 1) (completeLines text) (Nat.zero_le _)
  simpa [completeLineCount] using counted

/-- A text of newlines has a line for each. -/
theorem completeLineCount_feeds {count : Nat} (small : count ≤ usizeMax) :
    completeLineCount (List.replicate count '\n') = count := by
  rw [completeLineCount_eq, completeLines_feeds, List.length_replicate, Nat.min_eq_left small]

theorem completeLineCount_le (text : Text) : completeLineCount text ≤ text.length := by
  rw [completeLineCount_eq]
  exact (Nat.min_le_left _ _).trans (length_completeLines_le text)

theorem Json.textLinesOfFields_eq (lines : Nat) (fields : List (String × Json)) :
    Json.textLinesOfFields lines fields =
      fields.foldl (fun total field => saturatingAdd total field.2.textLines) lines := by
  induction fields generalizing lines with
  | nil => rfl
  | cons field fields ih => exact ih _

theorem Json.textLinesOfValues_eq (lines : Nat) (values : List Json) :
    Json.textLinesOfValues lines values =
      values.foldl (fun total value => saturatingAdd total value.textLines) lines := by
  induction values generalizing lines with
  | nil => rfl
  | cons value values ih => exact ih _

/-- The lines of an object against a bound below saturation. -/
theorem Json.textLines_object_le {limit : Nat} (below : limit < usizeMax)
    (fields : List (String × Json)) :
    (Json.object fields).textLines ≤ limit ↔
      (fields.map fun field => field.2.textLines).sum ≤ limit := by
  rw [Json.textLines, Json.textLinesOfFields_eq, foldl_saturatingAdd _ _ (Nat.zero_le _)]
  omega

/-- Line counts saturate. -/
theorem Json.textLines_le (value : Json) : value.textLines ≤ usizeMax := by
  cases value with
  | null | bool | number => exact Nat.zero_le _
  | string text =>
    rw [Json.textLines, completeLineCount_eq]
    exact Nat.min_le_right _ _
  | array values =>
    rw [Json.textLines, Json.textLinesOfValues_eq, foldl_saturatingAdd _ _ (Nat.zero_le _)]
    exact Nat.min_le_right _ _
  | object fields =>
    rw [Json.textLines, Json.textLinesOfFields_eq, foldl_saturatingAdd _ _ (Nat.zero_le _)]
    exact Nat.min_le_right _ _

/-! ## Common values -/

/-- A natural number as a JSON value. -/
def jsonNat (n : Nat) : Json := .number (.integer n)

theorem size_bool_le (value : Bool) : (Json.bool value).size ≤ 5 := by
  cases value <;> decide

theorem size_jsonNat_le {n : Nat} (small : n ≤ usizeMax) : (jsonNat n).size ≤ 20 :=
  natText_length_u64 small

theorem size_string (text : Text) : (Json.string text).size = stringSize text := rfl

/-- The lines of the values of some fields. -/
def fieldLines (fields : JsonMap) : Nat := (fields.map fun field => field.2.textLines).sum

@[simp] theorem fieldLines_nil : fieldLines [] = 0 := rfl

@[simp] theorem fieldLines_cons (field : String × Json) (fields : JsonMap) :
    fieldLines (field :: fields) = field.2.textLines + fieldLines fields := by
  simp [fieldLines]

@[simp] theorem fieldLines_append (front back : JsonMap) :
    fieldLines (front ++ back) = fieldLines front + fieldLines back := by
  simp [fieldLines]

/-- A bound on the bytes of some fields, one field at a time. -/
theorem sizeOfFields_cons_le {key : String} {value : Json} {fields : JsonMap} {a b : Nat}
    (here : value.size ≤ a) (rest : Json.sizeOfFields fields ≤ b) :
    Json.sizeOfFields ((key, value) :: fields) ≤ stringSize key.toList + 2 + a + b := by
  rw [Json.sizeOfFields]
  omega

theorem plain_natText (number : Nat) : ∀ c ∈ natText number, IsPlain c := by
  unfold natText
  intro c mem
  have digits := Nat.isDigit_of_mem_toDigits (by decide) (by decide) mem
  constructor <;> (rintro rfl; exact absurd digits (by decide))

theorem textLines_jsonNat (n : Nat) : (jsonNat n).textLines = 0 := rfl

theorem textLines_bool (value : Bool) : (Json.bool value).textLines = 0 := rfl

theorem textLines_string (text : Text) : (Json.string text).textLines = completeLineCount text :=
  rfl

end Foco
