import Mathlib.Logic.Function.Basic
import Foco.MachineIntegers
import Foco.Occurrences
import Foco.Result

/-!
Edits that replace an exact text: `edit_file` of `tools/file_tools.rs` and `apply_spec_text_edits` of
`tools/spec_patch.rs`. Both want the text to be there once; the first counts matches that do not
overlap, the second every position.
-/
namespace Foco.ExactEdits
open Foco.RustText Foco.Occurrences Foco.Result

/-! ## Spec patches -/

structure SpecTextEdit where
  oldText : Text
  newText : Text

inductive SpecPatchError where
  | emptyEdits
  | emptyOldText (index : Nat)
  | notFound (index : Nat)
  | ambiguousMatch (index : Nat)
  | noChange

/-- The body of the loop of `apply_spec_text_edits`. -/
def applyEdit (content : Text) (index : Nat) (edit : SpecTextEdit) : Except SpecPatchError Text :=
  if edit.oldText = [] then .error (.emptyOldText index)
  else match positions edit.oldText content with
    | [] => .error (.notFound index)
    | [start] => .ok (content.take start ++ edit.newText ++
        content.drop (start + edit.oldText.length))
    | _ :: _ :: _ => .error (.ambiguousMatch index)

def applyEdits (content : Text) (index : Nat) : List SpecTextEdit → Except SpecPatchError Text
  | [] => .ok content
  | edit :: edits => do
    let content ← applyEdit content index edit
    applyEdits content (index + 1) edits

def applySpecTextEdits (currentContent : Text) (edits : List SpecTextEdit) :
    Except SpecPatchError Text :=
  if edits = [] then .error .emptyEdits
  else do
    let content ← applyEdits currentContent 0 edits
    if content = currentContent then .error .noChange else .ok content

/-! ## Text files -/

inductive TextEncoding where
  | utf8
  | utf8Bom
  | utf16LeBom
  | utf16BeBom
deriving DecidableEq

abbrev Bytes := List UInt8

/-- `std::str::from_utf8`. -/
def fromUtf8 (bytes : Bytes) : Option Text :=
  (String.fromUTF8? ⟨bytes.toArray⟩).map String.toList

/-- `str::as_bytes`. -/
def asBytes (text : Text) : Bytes := (String.ofList text).toUTF8.data.toList

/-- The 16-bit units of a file, the low byte first or last. -/
def utf16Units (lowFirst : Bool) : Bytes → List Nat
  | first :: second :: rest =>
    (if lowFirst then first.toNat + 256 * second.toNat else 256 * first.toNat + second.toNat) ::
      utf16Units lowFirst rest
  | _ => []

/-- `String::from_utf16`; a surrogate must have its other half. -/
def fromUtf16 : List Nat → Option Text
  | [] => some []
  | unit :: units =>
    if unit < 0xD800 ∨ 0xDFFF < unit then (fromUtf16 units).map (Char.ofNat unit :: ·)
    else match units with
      | low :: rest =>
        if unit < 0xDC00 ∧ 0xDC00 ≤ low ∧ low ≤ 0xDFFF then
          (fromUtf16 rest).map
            (Char.ofNat (0x10000 + (unit - 0xD800) * 0x400 + (low - 0xDC00)) :: ·)
        else none
      | [] => none

/-- `str::encode_utf16` for one character. -/
def encodeUtf16 (c : Char) : List Nat :=
  if c.toNat < 0x10000 then [c.toNat]
  else [0xD800 + (c.toNat - 0x10000) / 0x400, 0xDC00 + (c.toNat - 0x10000) % 0x400]

def utf16Bytes (lowFirst : Bool) (unit : Nat) : Bytes :=
  if lowFirst then [UInt8.ofNat (unit % 256), UInt8.ofNat (unit / 256)]
  else [UInt8.ofNat (unit / 256), UInt8.ofNat (unit % 256)]

def decodeUtf16File (bytes : Bytes) (lowFirst : Bool) : Option Text :=
  if bytes.length % 2 ≠ 0 then none else fromUtf16 (utf16Units lowFirst bytes)

/-- `decode_text_file`; none is an unsupported encoding. -/
def decodeTextFile : Bytes → Option (Text × TextEncoding)
  | 0xEF :: 0xBB :: 0xBF :: content => (fromUtf8 content).map (·, .utf8Bom)
  | 0xFF :: 0xFE :: content => (decodeUtf16File content true).map (·, .utf16LeBom)
  | 0xFE :: 0xFF :: content => (decodeUtf16File content false).map (·, .utf16BeBom)
  | bytes => (fromUtf8 bytes).map (·, .utf8)

def encodeTextFile (content : Text) : TextEncoding → Bytes
  | .utf8 => asBytes content
  | .utf8Bom => [0xEF, 0xBB, 0xBF] ++ asBytes content
  | .utf16LeBom => [0xFF, 0xFE] ++ (content.flatMap encodeUtf16).flatMap (utf16Bytes true)
  | .utf16BeBom => [0xFE, 0xFF] ++ (content.flatMap encodeUtf16).flatMap (utf16Bytes false)

/-! ## Editing a file -/

structure EditFileInput where
  path : Text
  oldStr : Text
  newStr : Text
  replaceAll : Option Bool := none
  timeoutMs : Option Nat := none

inductive ToolRuntimeError where
  | invalidArguments (message : Text)
  | invalidPath (message : Text)
  | unsupportedEncoding (path : List Text)
  | io (path : List Text) (source : Text)

structure TextChangeStats where
  linesAdded : Nat
  linesRemoved : Nat

structure EditFileOutput where
  path : Text
  bytes : Nat
  replacements : Nat
  replaceAll : Bool
  linesAdded : Nat
  linesRemoved : Nat
  timeoutMs : Nat

/-- What `edit_file` uses besides the content of the file: the resolution of its path, the diff that
the change is counted with, and whether a file can be read and written. -/
structure Host where
  normalizePath : Text → Except ToolRuntimeError Text
  resolveFile : Text → Except ToolRuntimeError (List Text)
  textChangeStats : Text → Text → Except Text TextChangeStats
  writable : List Text → Bool

/-- The content of each file that can be read. -/
abbrev Files := List Text → Option Bytes

def defaultWriteFileTimeoutMs : Nat := 10000
def maxToolTimeoutMs : Nat := 600000

def toolTimeoutMs (timeoutMs : Option Nat) (defaultTimeoutMs : Nat) : Except ToolRuntimeError Nat :=
  let timeoutMs := timeoutMs.getD defaultTimeoutMs
  if timeoutMs = 0 ∨ maxToolTimeoutMs < timeoutMs then
    .error (.invalidArguments ("timeoutMs must be between 1 and ".toList ++
      natText maxToolTimeoutMs ++ " milliseconds".toList))
  else .ok timeoutMs

/-- What the file is to hold, and the number of matches. -/
def editedContent (request : EditFileInput) (normalizedPath existingContent : Text) :
    Except ToolRuntimeError (Text × Nat) :=
  let matchCount := matchCount request.oldStr 0 existingContent
  let all := request.replaceAll.getD false
  if matchCount = 0 then
    .error (.invalidArguments ("oldStr was not found in ".toList ++ normalizedPath ++
      "; call read_file to get the latest file content before retrying".toList))
  else if 1 < matchCount ∧ !all then
    .error (.invalidArguments ("oldStr matched ".toList ++ natText matchCount ++ " times in ".toList ++
      normalizedPath ++ ("; set replaceAll to true to replace all matches, or provide a more " ++
        "specific oldStr from the latest read_file output").toList))
  else .ok (if all then replaceAll request.oldStr request.newStr 0 existingContent
    else replaceFirst request.oldStr request.newStr existingContent, matchCount)

/-- `fs::read` with its error mapped. -/
def readFile (files : Files) (path : List Text) : Except ToolRuntimeError Bytes :=
  (files path).elim (.error (.io path "cannot be read".toList)) .ok

/-- The steps of `edit_file` before the file is written: where it is written, what, and the
answer. -/
def planEdit (host : Host) (files : Files) (request : EditFileInput) :
    Except ToolRuntimeError (List Text × Bytes × EditFileOutput) := do
  let timeoutMs ← toolTimeoutMs request.timeoutMs defaultWriteFileTimeoutMs
  if request.oldStr = [] then .error (.invalidArguments "oldStr must not be empty".toList)
  else
    let normalizedPath ← host.normalizePath request.path
    let path ← host.resolveFile request.path
    let bytes ← readFile files path
    let (existingContent, encoding) ←
      (decodeTextFile bytes).elim (.error (.unsupportedEncoding path)) .ok
    let (content, matchCount) ← editedContent request normalizedPath existingContent
    let stats ← (host.textChangeStats existingContent content).mapError fun source =>
      .invalidArguments ("failed to compute file change stats: ".toList ++ source)
    let encoded := encodeTextFile content encoding
    pure (path, encoded, {
      path := normalizedPath
      bytes := encoded.length
      replacements := matchCount
      replaceAll := request.replaceAll.getD false
      linesAdded := stats.linesAdded
      linesRemoved := stats.linesRemoved
      timeoutMs })

def editFile (host : Host) (files : Files) (request : EditFileInput) :
    Except ToolRuntimeError EditFileOutput × Files :=
  match planEdit host files request with
  | .error error => (.error error, files)
  | .ok (path, encoded, output) =>
    if host.writable path then (.ok output, Function.update files path (some encoded))
    else (.error (.io path "cannot be written".toList), files)

/-! ## What an edit promises -/

/-- The text to be replaced is there once. -/
def OccursOnce (searched content : Text) : Prop := ∃ start, ∀ other,
  Occurs searched content other ↔ other = start

/-- The request asks for one replacement, and its file can be read, decoded and written. -/
structure Editable (host : Host) (files : Files) (request : EditFileInput) (path : List Text)
    (content : Text) (encoding : TextEncoding) : Prop where
  single : request.replaceAll.getD false = false
  filled : request.oldStr ≠ []
  timeout : (toolTimeoutMs request.timeoutMs defaultWriteFileTimeoutMs).isOk = true
  normalized : (host.normalizePath request.path).isOk = true
  resolved : host.resolveFile request.path = .ok path
  decoded : (files path).bind decodeTextFile = some (content, encoding)
  counted : ∀ changed, (host.textChangeStats content changed).isOk = true
  writable : host.writable path = true

/-- The edit succeeds exactly if the text is there once, then replaces that occurrence, and
otherwise writes nothing. -/
structure EditsUnique (files : Files) (request : EditFileInput) (path : List Text) (content : Text)
    (encoding : TextEncoding) (outcome : Except ToolRuntimeError EditFileOutput × Files) : Prop where
  succeeds : outcome.1.isOk = true ↔ OccursOnce request.oldStr content
  replaces : outcome.1.isOk = true → ∀ start, Occurs request.oldStr content start →
    outcome.2 = Function.update files path (some (encodeTextFile (content.take start ++
      request.newStr ++ content.drop (start + request.oldStr.length)) encoding))
  keeps : outcome.1.isOk = false → outcome.2 = files

/-- If the text is there several times, then twice without overlap. -/
def SeveralApart (searched content : Text) : Prop :=
  (∃ first second, Occurs searched content first ∧ Occurs searched content second ∧
    first ≠ second) → ∃ first second, Occurs searched content first ∧
      Occurs searched content second ∧ first + searched.length ≤ second

section Edits

variable {host : Host} {files : Files} {request : EditFileInput} {path : List Text}
  {content searched : Text} {encoding : TextEncoding}

/-- What an edit comes to if nothing but the matches is in its way. -/
theorem editFile_of_editable (editable : Editable host files request path content encoding) :
    (matchCount request.oldStr 0 content = 1 ∧
      (editFile host files request).1.isOk = true ∧
      (editFile host files request).2 = Function.update files path (some (encodeTextFile
        (replaceFirst request.oldStr request.newStr content) encoding))) ∨
    (matchCount request.oldStr 0 content ≠ 1 ∧ (editFile host files request).1.isOk = false ∧
      (editFile host files request).2 = files) := by
  obtain ⟨timeoutMs, timeout⟩ := exists_of_isOk editable.timeout
  obtain ⟨normalizedPath, normalized⟩ := exists_of_isOk editable.normalized
  obtain ⟨bytes, there, decoded⟩ := Option.bind_eq_some_iff.mp editable.decoded
  have read : readFile files path = .ok bytes := by rw [readFile, there, Option.elim_some]
  have planned : planEdit host files request = (do
      let (changed, matchCount) ← editedContent request normalizedPath content
      let stats ← (host.textChangeStats content changed).mapError fun source =>
        .invalidArguments ("failed to compute file change stats: ".toList ++ source)
      pure (path, encodeTextFile changed encoding, {
        path := normalizedPath
        bytes := (encodeTextFile changed encoding).length
        replacements := matchCount
        replaceAll := request.replaceAll.getD false
        linesAdded := stats.linesAdded
        linesRemoved := stats.linesRemoved
        timeoutMs })) := by
    rw [planEdit, timeout, normalized, editable.resolved]
    simp only [bind, Except.bind, if_neg editable.filled, read, decoded, Option.elim_some]
  by_cases once : matchCount request.oldStr 0 content = 1
  · refine .inl ⟨once, ?_⟩
    have changes : editedContent request normalizedPath content =
        .ok (replaceFirst request.oldStr request.newStr content, 1) := by
      rw [editedContent, once, editable.single]
      simp
    obtain ⟨stats, counted⟩ := exists_of_isOk
      (editable.counted (replaceFirst request.oldStr request.newStr content))
    rw [editFile, planned, changes]
    simp only [bind, Except.bind, counted, Except.mapError, pure, Except.pure]
    rw [if_pos editable.writable]
    exact ⟨rfl, rfl⟩
  · refine .inr ⟨once, ?_⟩
    obtain ⟨error, refused⟩ : ∃ error, editedContent request normalizedPath content =
        .error error := by
      unfold editedContent
      dsimp only
      by_cases none : matchCount request.oldStr 0 content = 0
      · exact ⟨_, if_pos none⟩
      · have several : 1 < matchCount request.oldStr 0 content := by omega
        rw [if_neg none, if_pos ⟨several, by rw [editable.single]; rfl⟩]
        exact ⟨_, rfl⟩
    rw [editFile, planned, refused]
    exact ⟨rfl, rfl⟩

theorem occursOnce_of_matchCount (filled : searched ≠ [])
    (once : matchCount searched 0 content = 1) (apart : SeveralApart searched content) :
    OccursOnce searched content := by
  have found : 0 < matchCount searched 0 content := by omega
  obtain ⟨start, occurs⟩ := (matchCount_pos filled).mp found
  refine ⟨start, fun other => ⟨fun there => ?_, fun same => same ▸ occurs⟩⟩
  by_contra ne
  have several := (one_lt_matchCount filled).mpr (apart ⟨other, start, there, occurs, ne⟩)
  omega

theorem matchCount_of_occursOnce (filled : searched ≠ []) (once : OccursOnce searched content) :
    matchCount searched 0 content = 1 := by
  obtain ⟨start, only⟩ := once
  have found := (matchCount_pos filled).mpr ⟨start, (only start).mpr rfl⟩
  by_contra ne
  obtain ⟨first, second, one, two, apart⟩ :=
    (one_lt_matchCount filled).mp (Nat.lt_of_le_of_ne found (Ne.symm ne))
  have length : 0 < searched.length := List.length_pos_of_ne_nil filled
  have := (only first).mp one
  have := (only second).mp two
  omega

/-- An edit is one of the only occurrence exactly if several occurrences are never all in each
other's way. -/
theorem editFile_editsUnique_iff (host : Host) (files : Files) (request : EditFileInput)
    (path : List Text) (content : Text) (encoding : TextEncoding)
    (editable : Editable host files request path content encoding) :
    EditsUnique files request path content encoding (editFile host files request) ↔
      SeveralApart request.oldStr content := by
  have filled := editable.filled
  constructor
  · rintro unique ⟨first, second, one, two, ne⟩
    by_contra overlap
    have found := (matchCount_pos filled).mpr ⟨first, one⟩
    have few : ¬1 < matchCount request.oldStr 0 content :=
      fun several => overlap ((one_lt_matchCount filled).mp several)
    obtain ⟨-, ok, -⟩ | ⟨several, -⟩ := editFile_of_editable editable
    · obtain ⟨start, only⟩ := unique.succeeds.mp ok
      exact ne (((only first).mp one).trans ((only second).mp two).symm)
    · omega
  · intro apart
    obtain ⟨once, ok, written⟩ | ⟨several, failed, kept⟩ := editFile_of_editable editable
    · have unique := occursOnce_of_matchCount filled once apart
      refine ⟨⟨fun _ => unique, fun _ => ok⟩, fun _ start occurs => ?_, fun failed => ?_⟩
      · have first : ∀ before, before < start → ¬Occurs request.oldStr content before := by
          intro before less there
          obtain ⟨only, same⟩ := unique
          have := (same before).mp there
          have := (same start).mp occurs
          omega
        rw [written, replaceFirst_eq occurs first filled]
      · rw [ok] at failed
        cases failed
    · refine ⟨⟨fun ok => ?_, fun unique => ?_⟩, fun ok => ?_, fun _ => kept⟩
      · rw [failed] at ok
        cases ok
      · exact absurd (matchCount_of_occursOnce filled unique) several
      · rw [failed] at ok
        cases ok

end Edits

/-! ## A text that overlaps itself -/

/-- A host on which every path is a file that can be written. -/
def plainHost : Host where
  normalizePath := .ok
  resolveFile := fun path => .ok [path]
  textChangeStats := fun _ _ => .ok ⟨1, 1⟩
  writable := fun _ => true

/-- A request to replace a text in the file `f`. -/
def requestFor (searched : Text) : EditFileInput :=
  { path := ['f'], oldStr := searched, newStr := ['b'] }

/-- The file `f` with the text `aaa`. -/
def threeLetters : Files := fun _ => some [97, 97, 97]

theorem editable_threeLetters (searched : Text) (filled : searched ≠ []) :
    Editable plainHost threeLetters (requestFor searched) [['f']] ['a', 'a', 'a'] .utf8 where
  single := rfl
  filled := filled
  timeout := by
    have default : (toolTimeoutMs none defaultWriteFileTimeoutMs).isOk = true := by decide
    exact default
  normalized := rfl
  resolved := rfl
  decoded := by decide
  counted := fun _ => rfl
  writable := rfl

/-- The text `aaa` has the one occurrence of `aaa`. -/
theorem editsUnique_three : EditsUnique threeLetters (requestFor ['a', 'a', 'a']) [['f']]
    ['a', 'a', 'a'] .utf8 (editFile plainHost threeLetters (requestFor ['a', 'a', 'a'])) := by
  refine (editFile_editsUnique_iff _ _ _ _ _ _ (editable_threeLetters _ (by simp))).mpr ?_
  rintro ⟨first, second, one, two, ne⟩
  have only : ∀ start < 3, Occurs ['a', 'a', 'a'] ['a', 'a', 'a'] start → start = 0 := by decide
  have inside (start : Nat)
      (there : Occurs (requestFor ['a', 'a', 'a']).oldStr ['a', 'a', 'a'] start) : start = 0 :=
    only start (there.lt_length (by simp [requestFor])) there
  exact absurd ((inside first one).trans (inside second two).symm) ne

/-- It has two occurrences of `aa`, and the edit takes the first one. -/
theorem edits_first_of_two : ¬∀ (host : Host) (files : Files) (request : EditFileInput)
    (path : List Text) (content : Text) (encoding : TextEncoding),
      Editable host files request path content encoding →
        EditsUnique files request path content encoding (editFile host files request) := by
  intro unique
  have editable := editable_threeLetters ['a', 'a'] (by simp)
  obtain ⟨-, ok, -⟩ | ⟨several, -⟩ := editFile_of_editable editable
  · obtain ⟨start, only⟩ := (unique _ _ _ _ _ _ editable).succeeds.mp ok
    have one := (only 0).mp (by decide)
    have two := (only 1).mp (by decide)
    omega
  · exact absurd rfl several

end Foco.ExactEdits
