import Foco.JsonText

/-!
A text of a value is read as the value, wherever there is white space in it; so is the text that is
written, and values that can be read have different texts.
-/
namespace Foco.JsonText
open RustText

/-! ## Strings -/

theorem hexValue_hexDigit {n : Nat} (small : n < 16) : hexValue (hexDigit n) = some n := by
  have all : ∀ n < 16, hexValue (hexDigit n) = some n := by decide
  exact all n small

theorem hexFour_escape {n : Nat} (small : n < 256) (rest : Text) :
    hexFour ('0' :: '0' :: hexDigit (n / 16) :: hexDigit (n % 16) :: rest) = some (n, rest) := by
  have zero : hexValue '0' = some 0 := by decide
  simp only [hexFour, zero, hexValue_hexDigit (show n / 16 < 16 by omega),
    hexValue_hexDigit (show n % 16 < 16 by omega)]
  simp only [Option.bind_eq_bind, Option.bind_some, Option.some.injEq, Prod.mk.injEq, and_true]
  omega

/-- What is behind a backslash is put before the rest of its string. -/
theorem scanString_escaped {c : Char} {tail rest : Text} (read : escaped tail = some (c, rest))
    (fuel : Nat) : scanString (fuel + 1) ('\\' :: tail) =
      (scanString fuel rest).map fun (text, rest) => (c :: text, rest) := by
  rw [scanString, if_neg (by decide), if_pos rfl, read]
  change (scanString fuel rest).bind _ = _
  cases scanString fuel rest <;> rfl

theorem scanString_plain {c : Char} (other : c ≠ '"') (slash : c ≠ '\\') (visible : ¬ c.toNat < 0x20)
    (fuel : Nat) (rest : Text) : scanString (fuel + 1) (c :: rest) =
      (scanString fuel rest).map fun (text, rest) => (c :: text, rest) := by
  rw [scanString, if_neg other, if_neg slash, if_neg visible]
  change (scanString fuel rest).bind _ = _
  cases scanString fuel rest <;> rfl

theorem unicodeEscape_control {n : Nat} (small : n < 0x20) (rest : Text) :
    unicodeEscape ('0' :: '0' :: hexDigit (n / 16) :: hexDigit (n % 16) :: rest) =
      some (Char.ofNat n, rest) := by
  have leading : isLeading n = false := by simp [isLeading]; omega
  have trailing : isTrailing n = false := by simp [isTrailing]; omega
  rw [unicodeEscape, hexFour_escape (by omega)]
  simp [leading, trailing]

/-- An escaped character is read as the character. -/
theorem scanString_escape (fuel : Nat) (c : Char) (rest : Text) :
    scanString (fuel + 1) (escape c ++ rest) =
      (scanString fuel rest).map fun (text, rest) => (c :: text, rest) := by
  have back : ∀ {n : Nat}, c.toNat = n → Char.ofNat n = c := by
    rintro _ rfl
    exact Char.ofNat_toNat c
  unfold escape
  split
  · next quote =>
    subst quote
    exact scanString_escaped rfl fuel
  split
  · next slash =>
    subst slash
    exact scanString_escaped rfl fuel
  split
  · next code => exact scanString_escaped (by rw [← back code]; rfl) fuel
  split
  · next code => exact scanString_escaped (by rw [← back code]; rfl) fuel
  split
  · next code => exact scanString_escaped (by rw [← back code]; rfl) fuel
  split
  · next code => exact scanString_escaped (by rw [← back code]; rfl) fuel
  split
  · next code => exact scanString_escaped (by rw [← back code]; rfl) fuel
  split
  · next control =>
    refine scanString_escaped ?_ fuel
    change unicodeEscape ('0' :: '0' :: hexDigit (c.toNat / 16) :: hexDigit (c.toNat % 16) :: rest) = _
    rw [unicodeEscape_control control, Char.ofNat_toNat]
  · next other slash _ _ _ _ _ visible => exact scanString_plain other slash visible fuel rest

/-- A string is read back up to its quote. -/
theorem scanString_quoted {text : Text} {fuel : Nat} (enough : text.length < fuel) (rest : Text) :
    scanString fuel (text.flatMap escape ++ '"' :: rest) = some (text, rest) := by
  induction text generalizing fuel with
  | nil =>
    obtain ⟨fuel, rfl⟩ := Nat.exists_eq_succ_of_ne_zero (Nat.ne_of_gt enough)
    rfl
  | cons c text ih =>
    obtain ⟨fuel, rfl⟩ := Nat.exists_eq_succ_of_ne_zero (Nat.ne_of_gt (Nat.zero_lt_of_lt enough))
    rw [List.flatMap_cons, List.append_assoc, scanString_escape, ih (Nat.lt_of_succ_lt_succ enough)]
    rfl

theorem length_le_flatMap_escape (text : Text) : text.length ≤ (text.flatMap escape).length := by
  induction text with
  | nil => exact Nat.le_refl 0
  | cons c text ih =>
    have one : 1 ≤ (escape c).length := by
      unfold escape
      repeat' split
      all_goals simp
    rw [List.flatMap_cons, List.length_append, List.length_cons]
    omega

/-- What is read of a string in quotes, as the readers do it. -/
theorem scanString_of_quoted (text rest : Text) :
    scanString (text.flatMap escape ++ '"' :: rest).length (text.flatMap escape ++ '"' :: rest) =
      some (text, rest) := by
  refine scanString_quoted ?_ rest
  have shorter := length_le_flatMap_escape text
  rw [List.length_append, List.length_cons]
  omega

/-! ## Numbers -/

/-- What follows a number does not go on with it. -/
def Ends (rest : Text) : Prop :=
  ∀ c ∈ rest.head?, c.isDigit = false ∧ c ≠ '.' ∧ c ≠ 'e' ∧ c ≠ 'E'

theorem takeWhile_digits {digits rest : Text} (all : ∀ c ∈ digits, c.isDigit = true)
    (ends : Ends rest) : (digits ++ rest).takeWhile Char.isDigit = digits := by
  rw [List.takeWhile_append_of_pos all]
  cases rest with
  | nil => simp
  | cons c rest =>
    have other := (ends c rfl).1
    simp [List.takeWhile_cons, other]

theorem dropWhile_digits {digits rest : Text} (all : ∀ c ∈ digits, c.isDigit = true)
    (ends : Ends rest) : (digits ++ rest).dropWhile Char.isDigit = rest := by
  rw [List.dropWhile_append_of_pos all]
  cases rest with
  | nil => rfl
  | cons c rest =>
    have other := (ends c rfl).1
    simp [List.dropWhile_cons, other]

theorem fraction_ends {rest : Text} (ends : Ends rest) : fraction rest = some ([], rest) := by
  unfold fraction
  split
  · next more => exact absurd rfl (ends '.' rfl).2.1
  · rfl

theorem exponent_ends {rest : Text} (ends : Ends rest) : exponent rest = some ([], rest) := by
  cases rest with
  | nil => rfl
  | cons c rest =>
    obtain ⟨-, -, small, large⟩ := ends c rfl
    exact if_neg (not_or.mpr ⟨small, large⟩)

theorem natText_digits (n : Nat) : ∀ c ∈ natText n, c.isDigit = true :=
  fun _ mem => Nat.isDigit_of_mem_toDigits (by decide) (by decide) mem

theorem natText_ne_nil (n : Nat) : natText n ≠ [] := Nat.toDigits_ne_nil

/-- Only zero is written with a leading zero. -/
theorem eq_zero_of_leading {n : Nat} (leading : (natText n).head? = some '0') : n = 0 := by
  induction n using Nat.strongRecOn with
  | ind n ih =>
    by_cases small : n < 10
    · have all : ∀ n : Nat, n < 10 → n.digitChar = '0' → n = 0 := by decide
      rw [natText, Nat.toDigits_of_lt_base small] at leading
      exact all n small (Option.some.inj leading)
    · have split : natText n = natText (n / 10) ++ [(n % 10).digitChar] :=
        Nat.toDigits_of_base_le (by decide) (by omega)
      rw [split, List.head?_append_of_ne_nil _ (natText_ne_nil _)] at leading
      have zero := ih (n / 10) (by omega) leading
      omega

section Reading

variable (readFloat : Text → Option Text)

/-- The digits of an integer and its sign are read as the integer. -/
theorem scanNumber_digits (n : Nat) (negative : Bool) {value : Int} {text rest : Text}
    (sign : signed (text ++ rest) = (negative, natText n ++ rest))
    (fits : machineInteger negative (natText n) = some value) (ends : Ends rest) :
    scanNumber readFloat (text ++ rest) = some (.number (.integer value), rest) := by
  have all := natText_digits n
  have plain : ¬ (natText n = [] ∨ ((natText n).head? = some '0' ∧ (natText n).length ≠ 1)) := by
    rintro (none_ | ⟨leading, long⟩)
    · exact natText_ne_nil n none_
    · rw [eq_zero_of_leading leading] at long
      exact long rfl
  simp only [scanNumber, sign, takeWhile_digits all ends, dropWhile_digits all ends, if_neg plain,
    fraction_ends ends, exponent_ends ends, Option.bind_eq_bind, Option.bind_some, fits, and_self,
    if_true]

theorem ofDigitChars_natText (n : Nat) : Nat.ofDigitChars 10 (natText n) 0 = n :=
  Nat.ofDigitChars_ten_toDigits

/-- A machine integer is read back. -/
theorem scanNumber_intText {value : Int} (low : -2 ^ 63 ≤ value) (high : value < 2 ^ 64)
    {rest : Text} (ends : Ends rest) :
    scanNumber readFloat (intText value ++ rest) = some (.number (.integer value), rest) := by
  cases value with
  | ofNat n =>
    have fits : n < 2 ^ 64 := Int.ofNat_lt.mp high
    refine scanNumber_digits readFloat n false ?_ ?_ ends
    · obtain ⟨c, more, text_eq⟩ := List.exists_cons_of_ne_nil (natText_ne_nil n)
      have digit : c.isDigit = true := natText_digits n c (by simp [text_eq])
      have unsigned : c ≠ '-' := by
        rintro rfl
        exact absurd digit (by decide)
      rw [intText, text_eq, List.cons_append, signed]
      exact fun rest same => unsigned (List.cons.inj same).1
    · rw [machineInteger, ofDigitChars_natText]
      exact if_pos fits
  | negSucc n =>
    refine scanNumber_digits readFloat (n + 1) true rfl ?_ ends
    have fits : 0 < n + 1 ∧ n + 1 ≤ 2 ^ 63 := by omega
    rw [machineInteger, ofDigitChars_natText]
    exact if_pos fits

/-! ## Values -/

/-- The text of a float that is read back: it starts as a number does, and reading gives it again. -/
structure FloatText (text : Text) : Prop where
  ascii : ∀ c ∈ text, c.utf8Size = 1
  starts : ∃ c more, text = c :: more ∧ (c.isDigit = true ∨ c = '-')
  reads : ∀ rest, Ends rest →
    scanNumber readFloat (text ++ rest) = some (.number (.float text), rest)

def AllBlank (text : Text) : Prop := ∀ c ∈ text, isBlank c = true

mutual

/-- A text is one of a value, with white space wherever it may stand. `depth` is the recursion limit
that it needs. -/
inductive Renders : Nat → Json → Text → Prop
  | null {depth : Nat} : Renders depth .null ['n', 'u', 'l', 'l']
  | true_ {depth : Nat} : Renders depth (.bool true) ['t', 'r', 'u', 'e']
  | false_ {depth : Nat} : Renders depth (.bool false) ['f', 'a', 'l', 's', 'e']
  | integer {depth : Nat} {value : Int} (low : -2 ^ 63 ≤ value) (high : value < 2 ^ 64) :
      Renders depth (.number (.integer value)) (intText value)
  | float {depth : Nat} {text : Text} (float : FloatText readFloat text) :
      Renders depth (.number (.float text)) text
  | string {depth : Nat} {text : Text} : Renders depth (.string text) (quoted text)
  | noElements {depth : Nat} {blank : Text} (all : AllBlank blank) :
      Renders (depth + 2) (.array []) ('[' :: (blank ++ [']']))
  | elements {depth : Nat} {value : Json} {values : List Json} {blank text more : Text}
      (all : AllBlank blank) (first : Renders (depth + 1) value text)
      (others : RendersElements (depth + 1) values more) :
      Renders (depth + 2) (.array (value :: values)) ('[' :: (blank ++ (text ++ more)))
  | noFields {depth : Nat} {blank : Text} (all : AllBlank blank) :
      Renders (depth + 2) (.object []) ('{' :: (blank ++ ['}']))
  | fields {depth : Nat} {key : String} {value : Json} {fields : JsonMap} {blank text more : Text}
      (all : AllBlank blank) (keyed : (key :: fields.map Prod.fst).Nodup)
      (first : RendersField (depth + 1) key value text)
      (others : RendersFields (depth + 1) fields more) :
      Renders (depth + 2) (.object ((key, value) :: fields)) ('{' :: (blank ++ (text ++ more)))

inductive RendersElements : Nat → List Json → Text → Prop
  | nil {depth : Nat} {blank : Text} (all : AllBlank blank) :
      RendersElements depth [] (blank ++ [']'])
  | cons {depth : Nat} {value : Json} {values : List Json} {before after text more : Text}
      (all : AllBlank before) (all' : AllBlank after) (first : Renders depth value text)
      (others : RendersElements depth values more) :
      RendersElements depth (value :: values) (before ++ ',' :: (after ++ (text ++ more)))

inductive RendersField : Nat → String → Json → Text → Prop
  | mk {depth : Nat} {key : String} {value : Json} {before after text : Text}
      (all : AllBlank before) (all' : AllBlank after) (value_text : Renders depth value text) :
      RendersField depth key value (quoted key.toList ++ (before ++ ':' :: (after ++ text)))

inductive RendersFields : Nat → JsonMap → Text → Prop
  | nil {depth : Nat} {blank : Text} (all : AllBlank blank) :
      RendersFields depth [] (blank ++ ['}'])
  | cons {depth : Nat} {key : String} {value : Json} {fields : JsonMap}
      {before after text more : Text} (all : AllBlank before) (all' : AllBlank after)
      (first : RendersField depth key value text) (others : RendersFields depth fields more) :
      RendersFields depth ((key, value) :: fields) (before ++ ',' :: (after ++ (text ++ more)))

end

end Reading

section Rendered

variable {readFloat : Text → Option Text} {depth fuel : Nat} {value : Json} {values : List Json}
  {fields : JsonMap} {text more rest blank : Text}

theorem allBlank_nil : AllBlank [] := fun _ mem => nomatch mem

theorem skipBlank_append (all : AllBlank blank) : skipBlank (blank ++ text) = skipBlank text :=
  List.dropWhile_append_of_pos all

theorem skipBlank_cons {c : Char} (other : isBlank c = false) :
    skipBlank (c :: rest) = c :: rest := by
  rw [skipBlank, List.dropWhile_cons_of_neg (by simp [other])]

theorem isBlank_digit {c : Char} (number : c.isDigit = true ∨ c = '-') : isBlank c = false := by
  have all : ∀ c : Char, isBlank c = true → c.isDigit = false ∧ c ≠ '-' := by
    intro c blank
    simp only [isBlank, Bool.or_eq_true, decide_eq_true_eq] at blank
    obtain ((rfl | rfl) | rfl) | rfl := blank <;> decide
  by_contra blank
  obtain ⟨digit, minus⟩ := all c (by simpa using blank)
  obtain number | number := number
  · rw [digit] at number
    cases number
  · exact minus number

theorem intText_starts (value : Int) :
    ∃ c more, intText value = c :: more ∧ (c.isDigit = true ∨ c = '-') := by
  cases value with
  | ofNat n =>
    obtain ⟨c, more, text_eq⟩ := List.exists_cons_of_ne_nil (natText_ne_nil n)
    exact ⟨c, more, text_eq, .inl (natText_digits n c (by simp [text_eq]))⟩
  | negSucc n => exact ⟨'-', _, rfl, .inr rfl⟩

/-- Where the text of a value starts. -/
theorem Renders.starts (renders : Renders readFloat depth value text) :
    ∃ c more, text = c :: more ∧ isBlank c = false ∧ c ≠ ']' ∧ c ≠ '}' := by
  have number : ∀ {text : Text}, (∃ c more, text = c :: more ∧ (c.isDigit = true ∨ c = '-')) →
      ∃ c more, text = c :: more ∧ isBlank c = false ∧ c ≠ ']' ∧ c ≠ '}' := by
    rintro text ⟨c, more, same, starts⟩
    refine ⟨c, more, same, isBlank_digit starts, ?_, ?_⟩ <;> rintro rfl <;> revert starts <;> decide
  cases renders with
  | integer low high => exact number (intText_starts _)
  | float float => exact number float.starts
  | null | true_ | false_ => exact ⟨_, _, rfl, by decide, by decide, by decide⟩
  | string | noElements | elements | noFields | fields =>
    exact ⟨_, _, rfl, by decide, by decide, by decide⟩

theorem ends_append (all : AllBlank blank) (ends : Ends rest) : Ends (blank ++ rest) := by
  cases blank with
  | nil => exact ends
  | cons b blank =>
    intro first mem
    obtain rfl := Option.some.inj mem
    have white := all b List.mem_cons_self
    simp only [isBlank, Bool.or_eq_true, decide_eq_true_eq] at white
    obtain ((rfl | rfl) | rfl) | rfl := white <;> decide

theorem ends_cons {c : Char} (other : c.isDigit = false ∧ c ≠ '.' ∧ c ≠ 'e' ∧ c ≠ 'E') :
    Ends (c :: rest) := by
  intro first mem
  obtain rfl := Option.some.inj mem
  exact other

theorem ends_nil : Ends [] := fun _ mem => nomatch mem

theorem RendersElements.ends (renders : RendersElements readFloat depth values more) :
    Ends (more ++ rest) := by
  cases renders with
  | nil all =>
    rw [List.append_assoc]
    exact ends_append all (ends_cons (by decide))
  | cons all _ _ _ =>
    rw [List.append_assoc]
    exact ends_append all (ends_cons (by decide))

theorem RendersFields.ends (renders : RendersFields readFloat depth fields more) :
    Ends (more ++ rest) := by
  cases renders with
  | nil all =>
    rw [List.append_assoc]
    exact ends_append all (ends_cons (by decide))
  | cons all _ _ _ =>
    rw [List.append_assoc]
    exact ends_append all (ends_cons (by decide))

theorem readValue_number {number : Json} {c : Char} (starts : c.isDigit = true ∨ c = '-')
    (scanned : scanNumber readFloat (c :: text) = some (number, rest)) (all : AllBlank blank) :
    readValue readFloat (fuel + 1) depth (blank ++ c :: text) = some (number, rest) := by
  have other : ∀ {d : Char}, (d.isDigit = true ∨ d = '-') = False → c ≠ d := by
    rintro d not rfl
    rwa [← not]
  have apart : c ≠ 'n' ∧ c ≠ 't' ∧ c ≠ 'f' ∧ c ≠ '"' ∧ c ≠ '[' ∧ c ≠ '{' :=
    ⟨other (by decide), other (by decide), other (by decide), other (by decide), other (by decide),
      other (by decide)⟩
  rw [readValue, skipBlank_append all, skipBlank_cons (isBlank_digit starts)]
  split
  · next same => exact absurd (List.cons.inj same).1 apart.1
  · next same => exact absurd (List.cons.inj same).1 apart.2.1
  · next same => exact absurd (List.cons.inj same).1 apart.2.2.1
  · next same => exact absurd (List.cons.inj same).1 apart.2.2.2.1
  · next same => exact absurd (List.cons.inj same).1 apart.2.2.2.2.1
  · next same => exact absurd (List.cons.inj same).1 apart.2.2.2.2.2
  · exact scanned

theorem renderedField_starts {key : String} (renders : RendersField readFloat depth key value text) :
    ∃ more, text = '"' :: more := by
  obtain ⟨_, _, _⟩ := renders
  exact ⟨_, rfl⟩

theorem foldl_put {fields done : JsonMap} (keyed : ((done ++ fields).map Prod.fst).Nodup) :
    fields.foldl (fun map field => map.put field.1 field.2) done = done ++ fields := by
  induction fields generalizing done with
  | nil => simp
  | cons field fields ih =>
    have absent : field.1 ∉ done.map Prod.fst := by
      rw [List.map_append, List.map_cons] at keyed
      intro mem
      exact (List.nodup_append.mp keyed).2.2 _ mem _ List.mem_cons_self rfl
    rw [List.foldl_cons, JsonMap.put_absent _ absent, ih]
    · simp
    · simpa using keyed

/-- Fields with different keys are an object as they stand. -/
theorem collected_eq (fields : JsonMap) (keyed : (fields.map Prod.fst).Nodup) :
    collected fields = fields :=
  foldl_put (by simpa using keyed)

mutual

/-- A rendered value is read back, whatever follows it. -/
theorem readValue_renders : ∀ (value : Json) (fuel : Nat) (rest : Text) {depth : Nat}
    {text blank : Text}, Renders readFloat depth value text → text.length ≤ fuel →
    AllBlank blank → Ends rest →
    readValue readFloat fuel depth (blank ++ (text ++ rest)) = some (value, rest)
  | value, 0, rest, depth, text, blank, renders, enough, _, _ => by
    obtain ⟨c, more, rfl, -⟩ := renders.starts
    simp at enough
  | .null, fuel + 1, rest, depth, _, blank, renders, _, all, _ => by
    cases renders
    rw [readValue, skipBlank_append all]
    rfl
  | .bool value, fuel + 1, rest, depth, _, blank, renders, _, all, _ => by
    cases renders
    · rw [readValue, skipBlank_append all]
      rfl
    · rw [readValue, skipBlank_append all]
      rfl
  | .number number, fuel + 1, rest, depth, _, blank, renders, _, all, ends => by
    cases renders with
    | @integer _ value low high =>
      have scanned := scanNumber_intText readFloat low high ends
      obtain ⟨c, more, text_eq, starts⟩ := intText_starts value
      rw [text_eq] at scanned ⊢
      exact readValue_number starts scanned all
    | @float _ text float =>
      have scanned := float.reads rest ends
      obtain ⟨c, more, text_eq, starts⟩ := float.starts
      rw [text_eq] at scanned ⊢
      exact readValue_number starts scanned all
  | .string text, fuel + 1, rest, depth, _, blank, renders, _, all, _ => by
    cases renders
    have scanned := scanString_of_quoted text rest
    rw [quoted, List.cons_append, List.append_assoc, List.singleton_append]
    rw [readValue, skipBlank_append all, skipBlank_cons (by decide)]
    simp only [scanned, Option.map_some]
  | .array values, fuel + 1, rest, depth, _, blank, renders, enough, all, _ => by
    cases renders with
    | noElements all' =>
      rw [List.cons_append, List.append_assoc, readValue, skipBlank_append all,
        skipBlank_cons (by decide)]
      simp only
      rw [if_neg (by omega), skipBlank_append all']
      rfl
    | @elements _ value values blank' text more all' first others =>
      have inner := readElements_renders (value :: values) fuel rest rfl first others
        (by simp at enough; omega) all'
      obtain ⟨c, tail, rfl, other, close, -⟩ := first.starts
      rw [List.cons_append, List.append_assoc, List.append_assoc, readValue, skipBlank_append all,
        skipBlank_cons (by decide)]
      simp only
      rw [if_neg (by omega), skipBlank_append all', List.cons_append, skipBlank_cons other]
      split
      · next same => exact absurd (List.cons.inj same).1 close
      · rw [← List.cons_append, show _ + 2 - 1 = _ + 1 from rfl, inner]
        rfl
  | .object fields, fuel + 1, rest, depth, _, blank, renders, enough, all, _ => by
    cases renders with
    | noFields all' =>
      rw [List.cons_append, List.append_assoc, readValue, skipBlank_append all,
        skipBlank_cons (by decide)]
      simp only
      rw [if_neg (by omega), skipBlank_append all']
      rfl
    | @fields _ key value fields blank' text more all' keyed first others =>
      have inner := readFields_renders ((key, value) :: fields) fuel rest rfl first others
        (by simp at enough; omega) all'
      obtain ⟨tail, rfl⟩ := renderedField_starts first
      rw [List.cons_append, List.append_assoc, List.append_assoc, readValue, skipBlank_append all,
        skipBlank_cons (by decide)]
      simp only
      rw [if_neg (by omega), skipBlank_append all', List.cons_append, skipBlank_cons (by decide)]
      split
      · next same => exact absurd (List.cons.inj same).1 (by decide)
      · rw [← List.cons_append, show _ + 2 - 1 = _ + 1 from rfl, inner, Option.map_some]
        rw [collected_eq ((key, value) :: fields) keyed]

/-- Elements are read up to the end of their array. -/
theorem readElements_renders : ∀ (values : List Json) (fuel : Nat) (rest : Text) {value : Json}
    {others : List Json} {depth : Nat} {text more blank : Text}, values = value :: others →
    Renders readFloat depth value text → RendersElements readFloat depth others more →
    text.length + more.length ≤ fuel → AllBlank blank →
    readElements readFloat fuel depth (blank ++ (text ++ (more ++ rest))) = some (values, rest)
  | value :: others, 0, rest, _, _, depth, text, more, blank, rfl, first, _, enough, _ => by
    obtain ⟨c, tail, rfl, -⟩ := first.starts
    simp at enough
  | value :: others, fuel + 1, rest, _, _, depth, text, more, blank, rfl, first, tail, enough,
      all => by
    have one : 1 ≤ more.length := by cases tail <;> simp <;> omega
    have read := readValue_renders value fuel (more ++ rest) first (by omega) all tail.ends
    rw [readElements, read]
    simp only [Option.bind_eq_bind, Option.bind_some]
    cases tail with
    | nil all' =>
      rw [List.append_assoc, skipBlank_append all', List.singleton_append,
        skipBlank_cons (by decide)]
      rfl
    | @cons _ next others before after text' more' all' all'' first' others' =>
      have later := readElements_renders (next :: others) fuel rest rfl first' others'
        (by simp at enough; omega) all''
      rw [List.append_assoc, skipBlank_append all', List.cons_append, skipBlank_cons (by decide)]
      simp only [List.append_assoc, later, Option.bind_some]

/-- Fields are read up to the end of their object. -/
theorem readFields_renders : ∀ (fields : JsonMap) (fuel : Nat) (rest : Text) {key : String}
    {value : Json} {others : JsonMap} {depth : Nat} {text more blank : Text},
    fields = (key, value) :: others → RendersField readFloat depth key value text →
    RendersFields readFloat depth others more → text.length + more.length ≤ fuel →
    AllBlank blank →
    readFields readFloat fuel depth (blank ++ (text ++ (more ++ rest))) = some (fields, rest)
  | (key, value) :: others, 0, rest, _, _, _, depth, text, more, blank, rfl, first, _, enough, _ => by
    obtain ⟨tail, rfl⟩ := renderedField_starts first
    simp at enough
  | (key, value) :: others, fuel + 1, rest, _, _, _, depth, text, more, blank, rfl, first, tail,
      enough, all => by
    have one : 1 ≤ more.length := by cases tail <;> simp <;> omega
    obtain @⟨_, _, _, before, after, text, all', all'', value_text⟩ := first
    have read := readValue_renders value fuel (more ++ rest) value_text
      (by simp at enough; omega) all'' tail.ends
    have scanned := scanString_of_quoted key.toList (before ++ ':' :: (after ++ (text ++ (more ++ rest))))
    rw [quoted]
    simp only [List.append_assoc, List.cons_append, List.nil_append]
    rw [readFields, skipBlank_append all, skipBlank_cons (by decide)]
    simp only [scanned, Option.bind_eq_bind, Option.bind_some]
    rw [skipBlank_append all', skipBlank_cons (by decide)]
    simp only [read, Option.bind_some, String.ofList_toList]
    cases tail with
    | nil all' =>
      rw [List.append_assoc, skipBlank_append all', List.singleton_append,
        skipBlank_cons (by decide)]
      rfl
    | @cons _ next value' others before' after' text' more' blank₁ blank₂ first' others' =>
      have later := readFields_renders ((next, value') :: others) fuel rest rfl first' others'
        (by simp at enough; omega) blank₂
      rw [List.append_assoc, skipBlank_append blank₁, List.cons_append, skipBlank_cons (by decide)]
      simp only [List.append_assoc, later, Option.bind_some]

end

/-! ## What is written is read back -/

mutual

/-- A value that can be read back within a recursion limit: integers of the machine, floats that
reading gives again, and objects that name each key once. -/
def Readable (readFloat : Text → Option Text) : Nat → Json → Prop
  | _, .null | _, .bool _ | _, .string _ => True
  | _, .number (.integer value) => -2 ^ 63 ≤ value ∧ value < 2 ^ 64
  | _, .number (.float text) => FloatText readFloat text
  | depth + 2, .array values => ReadableValues readFloat (depth + 1) values
  | depth + 2, .object fields =>
    (fields.map Prod.fst).Nodup ∧ ReadableFields readFloat (depth + 1) fields
  | _, .array _ | _, .object _ => False

def ReadableValues (readFloat : Text → Option Text) : Nat → List Json → Prop
  | _, [] => True
  | depth, value :: values => Readable readFloat depth value ∧ ReadableValues readFloat depth values

def ReadableFields (readFloat : Text → Option Text) : Nat → JsonMap → Prop
  | _, [] => True
  | depth, (_, value) :: fields =>
    Readable readFloat depth value ∧ ReadableFields readFloat depth fields

end

mutual

theorem print_renders : ∀ (value : Json) {depth : Nat}, Readable readFloat depth value →
    Renders readFloat depth value (print value)
  | .null, _, _ => .null
  | .bool true, _, _ => .true_
  | .bool false, _, _ => .false_
  | .string _, _, _ => .string
  | .number (.integer _), _, readable => by
    unfold Readable at readable
    exact .integer readable.1 readable.2
  | .number (.float _), _, readable => by
    unfold Readable at readable
    exact .float readable
  | .array [], depth + 2, _ => .noElements allBlank_nil
  | .array (value :: values), depth + 2, readable => by
    unfold Readable ReadableValues at readable
    exact .elements allBlank_nil (print_renders value readable.1)
      (printElements_renders values readable.2)
  | .object [], depth + 2, _ => .noFields allBlank_nil
  | .object ((key, value) :: fields), depth + 2, readable => by
    unfold Readable ReadableFields at readable
    obtain ⟨keyed, first, others⟩ := readable
    exact .fields allBlank_nil keyed (.mk allBlank_nil allBlank_nil (print_renders value first))
      (printFields_renders fields others)
  | .array _, 0, readable | .array _, 1, readable | .object _, 0, readable
  | .object _, 1, readable => by
    unfold Readable at readable
    exact readable.elim

theorem printElements_renders : ∀ (values : List Json) {depth : Nat},
    ReadableValues readFloat depth values →
    RendersElements readFloat depth values (printElements values)
  | [], _, _ => .nil allBlank_nil
  | value :: values, _, readable => by
    unfold ReadableValues at readable
    exact .cons allBlank_nil allBlank_nil (print_renders value readable.1)
      (printElements_renders values readable.2)

theorem printFields_renders : ∀ (fields : JsonMap) {depth : Nat},
    ReadableFields readFloat depth fields →
    RendersFields readFloat depth fields (printFields fields)
  | [], _, _ => .nil allBlank_nil
  | (key, value) :: fields, _, readable => by
    unfold ReadableFields at readable
    exact .cons allBlank_nil allBlank_nil
      (.mk allBlank_nil allBlank_nil (print_renders value readable.1))
      (printFields_renders fields readable.2)

end

end Rendered

section Injective

variable {readFloat : Text → Option Text} {depth deeper : Nat} {value other : Json}

mutual

/-- A value that can be read within a limit can be read within a higher one. -/
theorem Readable.mono : ∀ (value : Json) {depth deeper : Nat}, Readable readFloat depth value →
    depth ≤ deeper → Readable readFloat deeper value
  | .null, _, _, _, _ | .bool _, _, _, _, _ | .string _, _, _, _, _ => by
    unfold Readable
    trivial
  | .number (.integer _), _, _, readable, _ | .number (.float _), _, _, readable, _ => by
    unfold Readable at readable ⊢
    exact readable
  | .array values, depth + 2, deeper + 2, readable, le => by
    unfold Readable at readable ⊢
    exact ReadableValues.mono values readable (by omega)
  | .object fields, depth + 2, deeper + 2, readable, le => by
    unfold Readable at readable ⊢
    exact ⟨readable.1, ReadableFields.mono fields readable.2 (by omega)⟩
  | .array _, 0, _, readable, _ | .array _, 1, _, readable, _ | .object _, 0, _, readable, _
  | .object _, 1, _, readable, _ => by
    unfold Readable at readable
    exact readable.elim

theorem ReadableValues.mono : ∀ (values : List Json) {depth deeper : Nat},
    ReadableValues readFloat depth values → depth ≤ deeper → ReadableValues readFloat deeper values
  | [], _, _, _, _ => by
    unfold ReadableValues
    trivial
  | value :: values, _, _, readable, le => by
    unfold ReadableValues at readable ⊢
    exact ⟨Readable.mono value readable.1 le, ReadableValues.mono values readable.2 le⟩

theorem ReadableFields.mono : ∀ (fields : JsonMap) {depth deeper : Nat},
    ReadableFields readFloat depth fields → depth ≤ deeper → ReadableFields readFloat deeper fields
  | [], _, _, _, _ => by
    unfold ReadableFields
    trivial
  | (_, value) :: fields, _, _, readable, le => by
    unfold ReadableFields at readable ⊢
    exact ⟨Readable.mono value readable.1 le, ReadableFields.mono fields readable.2 le⟩

end

/-- Values that can be read back differ in their texts. -/
theorem print_injective (readable : Readable readFloat depth value)
    (readable' : Readable readFloat deeper other) (same : print value = print other) :
    value = other := by
  have first := readValue_renders value (print value).length []
    (print_renders value (Readable.mono value readable (Nat.le_max_left depth deeper))) le_rfl
    allBlank_nil ends_nil
  have second := readValue_renders other (print value).length []
    (print_renders other (Readable.mono other readable' (Nat.le_max_right depth deeper)))
    (same ▸ le_rfl) allBlank_nil ends_nil
  rw [same] at first second
  rw [first] at second
  exact (Prod.mk.inj (Option.some.inj second)).1

theorem readableFields_append {fields others : JsonMap} :
    ReadableFields readFloat depth (fields ++ others) ↔
      ReadableFields readFloat depth fields ∧ ReadableFields readFloat depth others := by
  induction fields with
  | nil => simp [ReadableFields]
  | cons field fields ih =>
    obtain ⟨key, field⟩ := field
    simp only [List.cons_append, ReadableFields, ih, and_assoc]

theorem readableValues_of_strings (texts : List Text) :
    ReadableValues readFloat depth (texts.map Json.string) := by
  induction texts with
  | nil =>
    unfold ReadableValues
    trivial
  | cons text texts ih =>
    rw [List.map_cons]
    unfold ReadableValues
    exact ⟨by unfold Readable; trivial, ih⟩

end Injective

end Foco.JsonText
