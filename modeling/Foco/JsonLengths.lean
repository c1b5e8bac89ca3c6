import Foco.JsonRoundTrip
import Foco.JsonSize

/-!
How long the text of a value is: what `Json.size` counts, and a sum over the fields of an object.
-/
namespace Foco.JsonText
open RustText

@[simp] theorem utf8Length_append (front back : Text) :
    utf8Length (front ++ back) = utf8Length front + utf8Length back := by
  simp [utf8Length]

theorem utf8Length_ascii {text : Text} (ascii : ∀ c ∈ text, c.utf8Size = 1) :
    utf8Length text = text.length := by
  induction text with
  | nil => rfl
  | cons c text ih =>
    rw [utf8Length_cons, ascii c List.mem_cons_self,
      ih fun other mem => ascii other (List.mem_cons_of_mem _ mem), List.length_cons, Nat.add_comm]

theorem utf8Size_hexDigit {n : Nat} (small : n < 16) : (hexDigit n).utf8Size = 1 := by
  have all : ∀ n < 16, (hexDigit n).utf8Size = 1 := by decide
  exact all n small

theorem utf8Size_digit {c : Char} (digit : c.isDigit = true) : c.utf8Size = 1 := by
  rw [Char.utf8Size_eq_one_iff]
  simp only [Char.isDigit, Bool.and_eq_true, decide_eq_true_eq] at digit
  exact UInt32.le_trans digit.2 (by decide)

theorem utf8Length_escape (c : Char) : utf8Length (escape c) = escapedSize c := by
  have coded : ∀ {n : Nat}, c.toNat = n → n ∈ [8, 9, 10, 12, 13] → escapedSize c = 2 := by
    rintro n rfl mem
    exact if_pos (.inr (.inr mem))
  unfold escape
  split
  · next quote =>
    subst quote
    decide
  split
  · next slash =>
    subst slash
    decide
  split
  · next code => rw [coded code (by decide)]; decide
  split
  · next code => rw [coded code (by decide)]; decide
  split
  · next code => rw [coded code (by decide)]; decide
  split
  · next code => rw [coded code (by decide)]; decide
  split
  · next code => rw [coded code (by decide)]; decide
  next other slash b f n r t =>
    have plain : ¬ (c = '"' ∨ c = '\\' ∨ c.toNat ∈ [8, 9, 10, 12, 13]) := by
      simp [other, slash, b, f, n, r, t]
    split
    · next control =>
      have front : utf8Length ['\\', 'u', '0', '0'] = 4 := by decide
      rw [escapedSize, if_neg plain, if_pos control]
      change utf8Length (['\\', 'u', '0', '0'] ++ [_, _]) = 6
      rw [utf8Length_append, front, utf8Length_cons, utf8Length_cons, utf8Length_nil,
        utf8Size_hexDigit (show c.toNat / 16 < 16 by omega),
        utf8Size_hexDigit (show c.toNat % 16 < 16 by omega)]
    · next visible => rw [escapedSize, if_neg plain, if_neg visible]; simp

theorem utf8Length_flatMap_escape (text : Text) :
    utf8Length (text.flatMap escape) = escapedLength text := by
  induction text with
  | nil => rfl
  | cons c text ih => rw [List.flatMap_cons, utf8Length_append, utf8Length_escape, ih,
      escapedLength_cons]

theorem utf8Length_quoted (text : Text) : utf8Length (quoted text) = stringSize text := by
  rw [quoted, utf8Length_cons, utf8Length_append, utf8Length_flatMap_escape, stringSize]
  have quote : utf8Length ['"'] = 1 := by decide
  have quote' : ('"' : Char).utf8Size = 1 := by decide
  omega

theorem utf8Length_intText (value : Int) : utf8Length (intText value) = (intText value).length := by
  refine utf8Length_ascii fun c mem => ?_
  cases value with
  | ofNat n => exact utf8Size_digit (natText_digits n c mem)
  | negSucc n =>
    obtain rfl | mem := List.mem_cons.mp mem
    · decide
    · exact utf8Size_digit (natText_digits (n + 1) c mem)

section Printed

variable {readFloat : Text → Option Text}

mutual

/-- `Json.size` counts the bytes that are written. -/
theorem utf8Length_print : ∀ (value : Json) {depth : Nat}, Readable readFloat depth value →
    utf8Length (print value) = value.size
  | .null, _, _ => rfl
  | .bool true, _, _ => rfl
  | .bool false, _, _ => rfl
  | .string text, _, _ => utf8Length_quoted text
  | .number (.integer value), _, _ => utf8Length_intText value
  | .number (.float _), _, readable => by
    unfold Readable at readable
    exact utf8Length_ascii readable.ascii
  | .array [], _, _ => rfl
  | .array (value :: values), depth + 2, readable => by
    unfold Readable ReadableValues at readable
    have first := utf8Length_print value readable.1
    have others := utf8Length_printElements values readable.2
    have bracket : ('[' : Char).utf8Size = 1 := by decide
    rw [print, utf8Length_cons, utf8Length_append, first, Json.size, Json.sizeOfValues]
    omega
  | .object [], _, _ => rfl
  | .object ((key, value) :: fields), depth + 2, readable => by
    unfold Readable ReadableFields at readable
    have first := utf8Length_print value readable.2.1
    have others := utf8Length_printFields fields readable.2.2
    have brace : ('{' : Char).utf8Size = 1 := by decide
    have colon : (':' : Char).utf8Size = 1 := by decide
    rw [print, utf8Length_cons, utf8Length_append, utf8Length_append, utf8Length_cons,
      utf8Length_quoted, first, Json.size, Json.sizeOfFields]
    omega
  | .array (_ :: _), 0, readable | .array (_ :: _), 1, readable | .object (_ :: _), 0, readable
  | .object (_ :: _), 1, readable => by
    unfold Readable at readable
    exact readable.elim

/-- Each further element has its separator, and the end its bracket. -/
theorem utf8Length_printElements : ∀ (values : List Json) {depth : Nat},
    ReadableValues readFloat depth values →
    utf8Length (printElements values) = Json.sizeOfValues values + 1
  | [], _, _ => rfl
  | value :: values, _, readable => by
    unfold ReadableValues at readable
    have first := utf8Length_print value readable.1
    have others := utf8Length_printElements values readable.2
    have comma : (',' : Char).utf8Size = 1 := by decide
    rw [printElements, utf8Length_cons, utf8Length_append, first, others, Json.sizeOfValues]
    omega

theorem utf8Length_printFields : ∀ (fields : JsonMap) {depth : Nat},
    ReadableFields readFloat depth fields →
    utf8Length (printFields fields) = Json.sizeOfFields fields + 1
  | [], _, _ => rfl
  | (key, value) :: fields, _, readable => by
    unfold ReadableFields at readable
    have first := utf8Length_print value readable.1
    have others := utf8Length_printFields fields readable.2
    have comma : (',' : Char).utf8Size = 1 := by decide
    have colon : (':' : Char).utf8Size = 1 := by decide
    rw [printFields, utf8Length_cons, utf8Length_append, utf8Length_append, utf8Length_cons,
      utf8Length_quoted, first, others, Json.sizeOfFields]
    omega

end

end Printed

/-- A field with the separator and the colon it needs. -/
def fieldLength (field : String × Json) : Nat :=
  stringSize field.1.toList + utf8Length (print field.2) + 2

theorem utf8Length_fields (fields : JsonMap) :
    utf8Length (printFields fields) = (fields.map fieldLength).sum + 1 := by
  induction fields with
  | nil => rfl
  | cons field fields ih =>
    obtain ⟨key, value⟩ := field
    have comma : (',' : Char).utf8Size = 1 := by decide
    have colon : (':' : Char).utf8Size = 1 := by decide
    rw [printFields, utf8Length_cons, utf8Length_append, utf8Length_append, utf8Length_cons,
      utf8Length_quoted, ih, List.map_cons, List.sum_cons, fieldLength]
    dsimp only
    omega

/-- The length of an object is a sum over its fields. -/
theorem utf8Length_object {fields : JsonMap} (some_ : fields ≠ []) :
    utf8Length (print (.object fields)) = (fields.map fieldLength).sum + 1 := by
  obtain ⟨⟨key, value⟩, fields, rfl⟩ := List.exists_cons_of_ne_nil some_
  have brace : ('{' : Char).utf8Size = 1 := by decide
  have colon : (':' : Char).utf8Size = 1 := by decide
  rw [print, utf8Length_cons, utf8Length_append, utf8Length_append, utf8Length_cons,
    utf8Length_quoted, utf8Length_fields, List.map_cons, List.sum_cons, fieldLength]
  dsimp only
  omega

theorem utf8Length_elements (values : List Json) :
    utf8Length (printElements values) =
      (values.map fun value => utf8Length (print value) + 1).sum + 1 := by
  induction values with
  | nil => rfl
  | cons value values ih =>
    have comma : (',' : Char).utf8Size = 1 := by decide
    rw [printElements, utf8Length_cons, utf8Length_append, ih, List.map_cons, List.sum_cons]
    omega

/-- An array with one element more is longer. -/
theorem utf8Length_array_concat (values : List Json) (value : Json) :
    utf8Length (print (.array values)) ≤ utf8Length (print (.array (values ++ [value]))) := by
  have bracket : ('[' : Char).utf8Size = 1 := by decide
  cases values with
  | nil =>
    have empty : utf8Length (print (.array [])) = 2 := by decide
    rw [empty, List.nil_append, print, utf8Length_cons, utf8Length_append, utf8Length_elements]
    simp only [List.map_nil, List.sum_nil]
    omega
  | cons first values =>
    rw [List.cons_append, print, print, utf8Length_cons, utf8Length_cons, utf8Length_append,
      utf8Length_append, utf8Length_elements, utf8Length_elements, List.map_append,
      List.sum_append]
    omega

end Foco.JsonText
