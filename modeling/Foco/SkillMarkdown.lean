import Foco.Result
import Foco.RustText

/-!
`app/skills.rs`: the file `SKILL.md`, YAML front matter between two `---` lines and the
instructions after it. Only the fields `name` and `description` are read.
-/
namespace Foco.SkillMarkdown
open Foco.RustText Foco.Result

structure ParsedSkillFile where
  id : Text
  name : Text
  description : Text
  markdown : Text

/-- The start of the messages about a file. -/
def skillFile (path : Text) : Text := "skill file ".toList ++ path

/-- `str::split_once`. -/
def splitOnce (sep : Char) (text : Text) : Option (Text × Text) :=
  if sep ∈ text then some (text.takeWhile (· ≠ sep), (text.dropWhile (· ≠ sep)).drop 1) else none

/-- `u8::is_ascii_whitespace`. -/
def isAsciiWhitespace (c : Char) : Bool :=
  c = ' ' ∨ c = '\t' ∨ c = '\n' ∨ c = '\x0C' ∨ c = '\r'

/-- An empty line, or one that the front matter ignores as a comment. -/
def isSkipped (trimmed : Text) : Bool := trimmed = [] ∨ startsWith ['#'] trimmed

def unquoteFrontmatterValue : Text → Text
  | quote :: rest =>
    if (quote = '"' ∨ quote = '\'') ∧ rest.getLast? = some quote then rest.dropLast
    else quote :: rest
  | [] => []

def validateSkillId (id : Text) : Except Text Unit :=
  if trim id = [] then .error "skill id must not be empty".toList
  else if id.any isWhitespace then
    .error ("skill id '".toList ++ id ++ "' must not contain whitespace".toList)
  else .ok ()

/-- The message about a field without a value. -/
def emptyField (path field : Text) : Text :=
  skillFile path ++ " frontmatter field '".toList ++ field ++ "' must not be empty".toList

/-- The message about a field that is not there. -/
def missingField (path field : Text) : Text :=
  skillFile path ++ " frontmatter is missing required field '".toList ++ field ++ "'".toList

/-- A value on the line of its key. -/
def inlineValue (path field value : Text) : Except Text Text :=
  let value := trim (unquoteFrontmatterValue value)
  if value = [] then .error (emptyField path field) else .ok value

def skillFrontmatterField (path field : Text) : List Text → Except Text Text
  | [] => .error (missingField path field)
  | line :: rest =>
    if isSkipped (trim line) then skillFrontmatterField path field rest
    else match splitOnce ':' (trim line) with
      | none => skillFrontmatterField path field rest
      | some (key, value) =>
        if trim key = field then inlineValue path field (trim value)
        else skillFrontmatterField path field rest

/-- The chomping and indentation marks of a block header, each at most once. -/
def isBlockHeader (sawChomp sawIndent : Bool) : Text → Bool
  | [] => true
  | c :: rest =>
    if !sawChomp ∧ (c = '-' ∨ c = '+') then isBlockHeader true sawIndent rest
    else if !sawIndent ∧ c.isDigit ∧ c ≠ '0' then isBlockHeader sawChomp true rest
    else false

def isYamlBlockScalarIndicator : Text → Bool
  | [] => false
  | style :: rest => (style = '>' ∨ style = '|') ∧ isBlockHeader false false rest

/-- What comes before a comment, if there is one. -/
def beforeComment (boundary : Bool) : Text → Option Text
  | [] => none
  | c :: rest =>
    if c = '#' ∧ boundary then some []
    else (beforeComment (isAsciiWhitespace c) rest).map (c :: ·)

def frontmatterValueWithoutInlineComment (value : Text) : Text :=
  match beforeComment true value with
  | some before => trimEnd before
  | none => value

def isIndented (line : Text) : Bool := startsWith [' '] line ∨ startsWith ['\t'] line

def isTopLevelFrontmatterKeyLine (line : Text) : Bool :=
  if isSkipped (trim line) ∨ isIndented line then false
  else match splitOnce ':' (trim line) with
    | none => false
    | some (key, rest) =>
      if trim key = [] ∨ (trim key).any isWhitespace then false
      else rest = [] ∨ (rest.head?.any isWhitespace)

/-- The loop of `collect_description_continuation`. -/
def descriptionParts (requireIndentedBlock : Bool) (parts : List Text) : List Text → List Text
  | [] => parts
  | line :: rest =>
    if isTopLevelFrontmatterKeyLine line then parts
    else if trim line = [] ∨ (isIndented line = false ∧ startsWith ['#'] (trim line)) then
      descriptionParts requireIndentedBlock (if parts = [] then parts else parts ++ [[]]) rest
    else if requireIndentedBlock ∧ isIndented line = false then parts
    else descriptionParts requireIndentedBlock (parts ++ [trim line]) rest

def collectDescriptionContinuation (path : Text) (lines : List Text)
    (requireIndentedBlock : Bool) : Except Text Text :=
  let parts := descriptionParts requireIndentedBlock [] lines
  let description := List.intercalate [' '] ((parts.map trim).filter (· ≠ []))
  if description = [] then .error (emptyField path "description".toList) else .ok description

def skillFrontmatterDescription (path : Text) : List Text → Except Text Text
  | [] => .error (missingField path "description".toList)
  | line :: rest =>
    if isSkipped (trim line) then skillFrontmatterDescription path rest
    else match splitOnce ':' (trim line) with
      | none => skillFrontmatterDescription path rest
      | some (key, value) =>
        if trim key ≠ "description".toList then skillFrontmatterDescription path rest
        else if trim value = [] then collectDescriptionContinuation path rest false
        else if isYamlBlockScalarIndicator (frontmatterValueWithoutInlineComment (trim value)) then
          collectDescriptionContinuation path rest true
        else inlineValue path "description".toList (trim value)

/-- The front matter and the lines after its closing delimiter. -/
def splitFrontmatter : List Text → Option (List Text × List Text)
  | [] => none
  | line :: rest =>
    if trim line = "---".toList then some ([], rest)
    else (splitFrontmatter rest).map fun found => (line :: found.1, found.2)

def parseSkillMarkdown (path content : Text) : Except Text ParsedSkillFile :=
  let content := (stripPrefix ['\uFEFF'] content).getD content
  match lines content with
  | [] => .error (skillFile path ++ " must start with YAML frontmatter delimiter '---'".toList)
  | first :: rest =>
    if trim first ≠ "---".toList then
      .error (skillFile path ++ " must start with YAML frontmatter delimiter '---'".toList)
    else match splitFrontmatter rest with
      | none =>
        .error (skillFile path ++ " is missing closing YAML frontmatter delimiter '---'".toList)
      | some (frontmatter, body) =>
        if trim (List.intercalate ['\n'] body) = [] then
          .error (skillFile path ++ " must contain instructions after frontmatter".toList)
        else do
          let id ← skillFrontmatterField path "name".toList frontmatter
          (validateSkillId id).mapError fun error => skillFile path ++ ": ".toList ++ error
          let description ← skillFrontmatterDescription path frontmatter
          pure { id, name := id, description, markdown := content }

end Foco.SkillMarkdown
