import Foco.JsonDocuments
import Foco.MachineIntegers

/-!
The text of a value: what `serde_json::to_string` writes, and what `serde_json::from_str` reads. The
reading of numbers that are no machine integers is the one of a float library.
-/
namespace Foco.JsonText
open RustText

/-! ## Writing -/

def hexDigit (n : Nat) : Char := Nat.digitChar n

/-- A character between the quotes of a string. -/
def escape (c : Char) : Text :=
  if c = '"' then ['\\', '"']
  else if c = '\\' then ['\\', '\\']
  else if c.toNat = 8 then ['\\', 'b']
  else if c.toNat = 12 then ['\\', 'f']
  else if c.toNat = 10 then ['\\', 'n']
  else if c.toNat = 13 then ['\\', 'r']
  else if c.toNat = 9 then ['\\', 't']
  else if c.toNat < 0x20 then ['\\', 'u', '0', '0', hexDigit (c.toNat / 16), hexDigit (c.toNat % 16)]
  else [c]

def quoted (text : Text) : Text := '"' :: (text.flatMap escape ++ ['"'])

def numberText : JsonNumber → Text
  | .integer value => intText value
  | .float text => text

mutual

/-- `serde_json::to_string`, `Value::to_string`. -/
def print : Json → Text
  | .null => ['n', 'u', 'l', 'l']
  | .bool true => ['t', 'r', 'u', 'e']
  | .bool false => ['f', 'a', 'l', 's', 'e']
  | .number value => numberText value
  | .string text => quoted text
  | .array [] => ['[', ']']
  | .array (value :: values) => '[' :: (print value ++ printElements values)
  | .object [] => ['{', '}']
  | .object ((key, value) :: fields) =>
    '{' :: (quoted key.toList ++ ':' :: print value ++ printFields fields)

/-- The further elements of an array and its end. -/
def printElements : List Json → Text
  | [] => [']']
  | value :: values => ',' :: (print value ++ printElements values)

/-- The further fields of an object and its end. -/
def printFields : JsonMap → Text
  | [] => ['}']
  | (key, value) :: fields => ',' :: (quoted key.toList ++ ':' :: print value ++ printFields fields)

end

/-! ## Reading -/

/-- The white space of JSON. -/
def isBlank (c : Char) : Bool := c = ' ' || c = '\n' || c = '\t' || c = '\r'

def skipBlank (text : Text) : Text := text.dropWhile isBlank

def hexValue (c : Char) : Option Nat :=
  if '0' ≤ c ∧ c ≤ '9' then some (c.toNat - 48)
  else if 'a' ≤ c ∧ c ≤ 'f' then some (c.toNat - 87)
  else if 'A' ≤ c ∧ c ≤ 'F' then some (c.toNat - 55)
  else none

/-- The four digits behind `\u`. -/
def hexFour : Text → Option (Nat × Text)
  | a :: b :: c :: d :: rest => do
    let a ← hexValue a
    let b ← hexValue b
    let c ← hexValue c
    let d ← hexValue d
    some (((a * 16 + b) * 16 + c) * 16 + d, rest)
  | _ => none

def isLeading (unit : Nat) : Bool := 0xD800 ≤ unit && unit < 0xDC00

def isTrailing (unit : Nat) : Bool := 0xDC00 ≤ unit && unit < 0xE000

/-- The character behind `\u`. A leading surrogate needs a trailing one behind it. -/
def unicodeEscape (text : Text) : Option (Char × Text) := do
  let (unit, rest) ← hexFour text
  if isTrailing unit then none
  else if isLeading unit then
    match rest with
    | '\\' :: 'u' :: rest => do
      let (second, rest) ← hexFour rest
      if isTrailing second then
        some (Char.ofNat (0x10000 + (unit - 0xD800) * 0x400 + (second - 0xDC00)), rest)
      else none
    | _ => none
  else some (Char.ofNat unit, rest)

/-- The character behind a backslash. -/
def escaped : Text → Option (Char × Text)
  | '"' :: rest => some ('"', rest)
  | '\\' :: rest => some ('\\', rest)
  | '/' :: rest => some ('/', rest)
  | 'b' :: rest => some (Char.ofNat 8, rest)
  | 'f' :: rest => some (Char.ofNat 12, rest)
  | 'n' :: rest => some ('\n', rest)
  | 'r' :: rest => some ('\r', rest)
  | 't' :: rest => some ('\t', rest)
  | 'u' :: rest => unicodeEscape rest
  | _ => none

/-- The characters up to the quote that ends a string. Each step takes at least one of `fuel`
characters. -/
def scanString : Nat → Text → Option (Text × Text)
  | fuel + 1, c :: rest =>
    if c = '"' then some ([], rest)
    else if c = '\\' then do
      let (c, rest) ← escaped rest
      let (text, rest) ← scanString fuel rest
      some (c :: text, rest)
    else if c.toNat < 0x20 then none
    else do
      let (text, rest) ← scanString fuel rest
      some (c :: text, rest)
  | _, _ => none

/-- The digits of a fraction behind its point, if there is one. -/
def fraction : Text → Option (Text × Text)
  | '.' :: rest =>
    if rest.takeWhile Char.isDigit = [] then none
    else some ('.' :: rest.takeWhile Char.isDigit, rest.dropWhile Char.isDigit)
  | rest => some ([], rest)

def exponentSign : Text → Text × Text
  | '+' :: rest => (['+'], rest)
  | '-' :: rest => (['-'], rest)
  | rest => ([], rest)

def exponent : Text → Option (Text × Text)
  | [] => some ([], [])
  | c :: rest =>
    if c = 'e' ∨ c = 'E' then
      let (sign, rest) := exponentSign rest
      if rest.takeWhile Char.isDigit = [] then none
      else some (c :: sign ++ rest.takeWhile Char.isDigit, rest.dropWhile Char.isDigit)
    else some ([], c :: rest)

def signed (text : Text) : Bool × Text :=
  match text with
  | '-' :: rest => (true, rest)
  | rest => (false, rest)

/-- An integer as `u64` or `i64`, and nothing for one that is read as a float: `-0` and what does not
fit. -/
def machineInteger (negative : Bool) (digits : Text) : Option Int :=
  let n := Nat.ofDigitChars 10 digits 0
  if negative then if 0 < n ∧ n ≤ 2 ^ 63 then some (-n) else none
  else if n < 2 ^ 64 then some n else none

section Values

variable (readFloat : Text → Option Text)

def scanNumber (text : Text) : Option (Json × Text) := do
  let (negative, rest) := signed text
  let digits := rest.takeWhile Char.isDigit
  let rest := rest.dropWhile Char.isDigit
  if digits = [] ∨ (digits.head? = some '0' ∧ digits.length ≠ 1) then none
  else
    let (decimals, rest) ← fraction rest
    let (power, rest) ← exponent rest
    let read := (readFloat ((if negative then ['-'] else []) ++ digits ++ decimals ++ power)).map
      fun text => (Json.number (.float text), rest)
    if decimals = [] ∧ power = [] then
      match machineInteger negative digits with
      | some value => some (.number (.integer value), rest)
      | none => read
    else read

/-- The fields of an object as they come: a key that comes again replaces its value. -/
def collected (fields : JsonMap) : JsonMap :=
  fields.foldl (fun map field => map.put field.1 field.2) []

mutual

/-- A value at the front of a text, with what follows it. `depth` is what is left of the recursion
limit. -/
def readValue : Nat → Nat → Text → Option (Json × Text)
  | 0, _, _ => none
  | fuel + 1, depth, text =>
    match skipBlank text with
    | 'n' :: 'u' :: 'l' :: 'l' :: rest => some (.null, rest)
    | 't' :: 'r' :: 'u' :: 'e' :: rest => some (.bool true, rest)
    | 'f' :: 'a' :: 'l' :: 's' :: 'e' :: rest => some (.bool false, rest)
    | '"' :: rest => (scanString rest.length rest).map fun (text, rest) => (.string text, rest)
    | '[' :: rest =>
      if depth ≤ 1 then none
      else match skipBlank rest with
        | ']' :: rest => some (.array [], rest)
        | _ => (readElements fuel (depth - 1) rest).map fun (values, rest) => (.array values, rest)
    | '{' :: rest =>
      if depth ≤ 1 then none
      else match skipBlank rest with
        | '}' :: rest => some (.object [], rest)
        | _ => (readFields fuel (depth - 1) rest).map fun (fields, rest) =>
          (.object (collected fields), rest)
    | text => scanNumber readFloat text

/-- Elements up to the end of their array. -/
def readElements : Nat → Nat → Text → Option (List Json × Text)
  | 0, _, _ => none
  | fuel + 1, depth, text => do
    let (value, rest) ← readValue fuel depth text
    match skipBlank rest with
    | ']' :: rest => some ([value], rest)
    | ',' :: rest => do
      let (values, rest) ← readElements fuel depth rest
      some (value :: values, rest)
    | _ => none

/-- Fields up to the end of their object. -/
def readFields : Nat → Nat → Text → Option (JsonMap × Text)
  | 0, _, _ => none
  | fuel + 1, depth, text =>
    match skipBlank text with
    | '"' :: rest => do
      let (key, rest) ← scanString rest.length rest
      match skipBlank rest with
      | ':' :: rest => do
        let (value, rest) ← readValue fuel depth rest
        match skipBlank rest with
        | '}' :: rest => some ([(String.ofList key, value)], rest)
        | ',' :: rest => do
          let (fields, rest) ← readFields fuel depth rest
          some ((String.ofList key, value) :: fields, rest)
        | _ => none
      | _ => none
    | _ => none

end

end Values

end Foco.JsonText
