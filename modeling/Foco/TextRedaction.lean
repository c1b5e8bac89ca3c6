import Foco.RustText
import Foco.Words

/-!
`redact_agent_text` of `store/workspace.rs`: a line that starts with a sensitive marker loses
everything behind it; any other line is rebuilt from its words, and a word that starts with a
marker loses what follows the marker in it.
-/
namespace Foco.TextRedaction
open Foco.RustText Foco.Words

/-! ## Markers -/

def sensitiveKeys : List Text :=
  ["authorization".toList, "api_key".toList, "apikey".toList, "api-key".toList, "cookie".toList,
    "password".toList, "token".toList, "secret".toList]

def keyMarkers (key : Text) : List Text :=
  [key ++ ['='], key ++ [':'], '"' :: key ++ ['"', ':']]

def markers : List Text := sensitiveKeys.flatMap keyMarkers

def redacted : Text := "[REDACTED]".toList

def isSeparator (c : Char) : Bool := c == '=' || c == ':'

/-- A text up to its first separator. -/
def upToSeparator (text : Text) : Text := text.take (text.findIdx isSeparator + 1)

/-- The marker that a text starts with, in any ASCII case. -/
def startMarker (text : Text) : Option Text :=
  markers.find? fun marker => startsWith marker (toAsciiLowercase text)

/-! ## Redaction -/

def splitWhitespace (text : Text) : List Text := words isWhitespace text

def redactPart (part : Text) : Text :=
  if (startMarker part).isSome then upToSeparator part ++ redacted else part

/-- `redact_agent_text_line`. -/
def redactAgentTextLine (line : Text) : Text :=
  let trimmed := trimStart line
  let indentationLen := line.length - trimmed.length
  match startMarker trimmed with
  | some marker => line.take (indentationLen + marker.length) ++ redacted
  | none => List.intercalate [' '] ((splitWhitespace line).map redactPart)

def redactAgentText (value : Text) : Text :=
  List.intercalate ['\n'] ((lines value).map redactAgentTextLine)

/-! ## Values and frames -/

/-- A marker at the start of a line or of a word, and the value that follows it on the line: the
rest of the word, or the next word. -/
structure MarkerAt (before marked gap value after : Text) : Prop where
  starts : Opens isWhitespace before
  sensitive : toAsciiLowercase marked ∈ markers
  gap : ∀ c ∈ gap, isWhitespace c = true ∧ c ≠ '\n'
  value : IsWord isWhitespace value
  ends : Closes isWhitespace after

/-- Another value behind a marker gives the same result. -/
def HidesValues (text : Text) : Prop :=
  ∀ before marked gap value after, text = before ++ marked ++ gap ++ value ++ after →
    MarkerAt before marked gap value after → ∀ other, IsWord isWhitespace other →
      redactAgentText (before ++ marked ++ gap ++ other ++ after) = redactAgentText text

def HasMarker (text : Text) : Prop :=
  ∃ before marked after, text = before ++ marked ++ after ∧ Opens isWhitespace before ∧
    toAsciiLowercase marked ∈ markers

def KeepsUnmarked (text : Text) : Prop := ¬HasMarker text → redactAgentText text = text

/-- The part of a text on its last line. -/
def lastLine (before : Text) : Text := before.rtakeWhile (· ≠ '\n')

/-- A marker that whitespace follows, and another word on its line, is on a line that starts with a
marker. -/
def AttachesValues (text : Text) : Prop :=
  ∀ before marked gap value after, text = before ++ marked ++ gap ++ value ++ after →
    MarkerAt before marked gap value after → gap ≠ [] →
      (startMarker (trimStart (lastLine before ++ marked))).isSome = true

/-- Newlines, but for a last one, and single spaces between words are the only whitespace. -/
def Framed : Text → Prop :=
  Everywhere fun before c after => isWhitespace c = true →
    c = '\n' ∧ after ≠ [] ∨
      c = ' ' ∧ LastVisible isWhitespace before ∧ FirstVisible isWhitespace after

/-! ## The marker at the start of a text -/

section StartMarker

variable {text rest marked marker : Text}

theorem isSeparator_toLower (c : Char) : isSeparator c.toLower = isSeparator c := by
  have equals : c.toLower = '=' ↔ c = '=' := toLower_eq_iff (by decide)
  have colon : c.toLower = ':' ↔ c = ':' := toLower_eq_iff (by decide)
  unfold isSeparator
  simp only [beq_eq_decide, equals, colon]

/-- A marker ends with its first separator. -/
theorem marker_shape (member : marker ∈ markers) :
    ∃ body separator, marker = body ++ [separator] ∧ isSeparator separator = true ∧
      ∀ c ∈ body, isSeparator c = false := by
  have shapes : ∀ marker ∈ markers, marker = marker.dropLast ++ [marker.getLast?.getD ' '] ∧
      isSeparator (marker.getLast?.getD ' ') = true ∧
      ∀ c ∈ marker.dropLast, isSeparator c = false := by
    decide
  obtain ⟨shape, separator, body⟩ := shapes marker member
  exact ⟨_, _, shape, separator, body⟩

theorem toLower_whitespace {c : Char} (white : isWhitespace c = true) : c.toLower = c := by
  unfold Char.toLower
  refine dif_neg fun upper => ?_
  have low := UInt32.le_iff_toNat_le.mp upper.1
  have high := UInt32.le_iff_toNat_le.mp upper.2
  change 65 ≤ c.toNat at low
  change c.toNat ≤ 90 at high
  simp only [isWhitespace, Bool.or_eq_true, Bool.and_eq_true, decide_eq_true_eq, beq_iff_eq]
    at white
  omega

theorem marked_visible (sensitive : toAsciiLowercase marked ∈ markers) :
    IsWord isWhitespace marked := by
  have visible : ∀ marker ∈ markers, marker ≠ [] ∧ ∀ c ∈ marker, isWhitespace c = false := by
    decide
  obtain ⟨nonempty, unbroken⟩ := visible _ sensitive
  refine ⟨fun empty => nonempty (by rw [empty]; rfl), fun c member => ?_⟩
  by_contra broken
  have white : isWhitespace c = true := by simpa using broken
  have lower_mem : c.toLower ∈ toAsciiLowercase marked := List.mem_map.mpr ⟨c, member, rfl⟩
  rw [toLower_whitespace white] at lower_mem
  rw [unbroken c lower_mem] at white
  contradiction

theorem upToSeparator_append_cons {body : Text} {separator : Char}
    (unbroken : ∀ c ∈ body, isSeparator c = false) (separated : isSeparator separator = true)
    (rest : Text) : upToSeparator (body ++ separator :: rest) = body ++ [separator] := by
  have index : (body ++ separator :: rest).findIdx isSeparator = body.length := by
    rw [List.findIdx_append, List.findIdx_eq_length.mpr unbroken, if_neg (Nat.lt_irrefl _),
      List.findIdx_cons, separated]
    simp
  unfold upToSeparator
  rw [index, List.take_length_add_append]
  rfl

/-- A text in the case of a marker has the marker's shape. -/
theorem marked_shape (sensitive : toAsciiLowercase marked ∈ markers) :
    ∃ body separator, marked = body ++ [separator] ∧ isSeparator separator = true ∧
      ∀ c ∈ body, isSeparator c = false := by
  obtain ⟨lowerBody, lowerSeparator, shape, separated, unbroken⟩ := marker_shape sensitive
  obtain ⟨body, last, rfl, rfl, last_eq⟩ := List.map_eq_append_iff.mp shape
  obtain ⟨separator, rfl, rfl⟩ := List.map_eq_singleton_iff.mp last_eq
  rw [isSeparator_toLower] at separated
  refine ⟨body, separator, rfl, separated, fun c member => ?_⟩
  rw [← isSeparator_toLower]
  exact unbroken _ (List.mem_map.mpr ⟨c, member, rfl⟩)

theorem upToSeparator_marked (sensitive : toAsciiLowercase marked ∈ markers) (rest : Text) :
    upToSeparator (marked ++ rest) = marked := by
  obtain ⟨body, separator, rfl, separated, unbroken⟩ := marked_shape sensitive
  rw [List.append_assoc]
  exact upToSeparator_append_cons unbroken separated rest

theorem upToSeparator_starts (text : Text) : upToSeparator text <+: text := List.take_prefix _ _

/-- A marker starts a text exactly if it is the text up to its first separator, in lower case. -/
theorem startsWith_marker_iff (member : marker ∈ markers) :
    startsWith marker (toAsciiLowercase text) = true ↔
      toAsciiLowercase (upToSeparator text) = marker := by
  rw [startsWith_iff]
  constructor
  · rintro ⟨rest, shape⟩
    obtain ⟨marked, more, rfl, rfl, _⟩ := List.map_eq_append_iff.mp shape.symm
    rw [upToSeparator_marked member]
    rfl
  · rintro rfl
    exact (upToSeparator_starts text).map Char.toLower

theorem startMarker_eq_some_iff :
    startMarker text = some marker ↔
      marker ∈ markers ∧ toAsciiLowercase (upToSeparator text) = marker := by
  constructor
  · intro found
    have member := List.mem_of_find?_eq_some found
    have starts := List.find?_some found
    exact ⟨member, (startsWith_marker_iff member).mp starts⟩
  · rintro ⟨member, same⟩
    cases found : startMarker text with
    | none =>
      have missing := List.find?_eq_none.mp found marker member
      exact absurd ((startsWith_marker_iff member).mpr same) missing
    | some other =>
      have other_mem := List.mem_of_find?_eq_some found
      have starts := List.find?_some found
      rw [← same, (startsWith_marker_iff other_mem).mp starts]

theorem startMarker_isSome_iff :
    (startMarker text).isSome = true ↔ toAsciiLowercase (upToSeparator text) ∈ markers := by
  simp [Option.isSome_iff_exists, startMarker_eq_some_iff]

theorem startMarker_isSome_marked (sensitive : toAsciiLowercase marked ∈ markers) (rest : Text) :
    (startMarker (marked ++ rest)).isSome = true := by
  rw [startMarker_isSome_iff, upToSeparator_marked sensitive]
  exact sensitive

/-- What follows a separator is not part of the marker. -/
theorem upToSeparator_append {front : Text} (separated : ∃ c ∈ front, isSeparator c = true)
    (rest : Text) : upToSeparator (front ++ rest) = upToSeparator front := by
  unfold upToSeparator
  have found : front.findIdx isSeparator < front.length := List.findIdx_lt_length.mpr separated
  rw [List.findIdx_append, if_pos found, List.take_append_of_le_length (by omega)]

end StartMarker

/-! ## Lines -/

section Lines

variable {line rest mid tail : Text} {c : Char}

theorem lastLine_split (before : Text) :
    ∃ above, before = above ++ lastLine before ∧ ∀ last ∈ above.getLast?, last = '\n' := by
  refine ⟨before.rdropWhile (· ≠ '\n'), List.rdropWhile_append_rtakeWhile.symm, ?_⟩
  intro last last_mem
  have nonempty : before.rdropWhile (· ≠ '\n') ≠ [] := by
    intro empty
    rw [empty] at last_mem
    contradiction
  have newline := List.rdropWhile_last_not (fun c => decide (c ≠ '\n')) before nonempty
  rw [Option.mem_def, List.getLast?_eq_some_getLast nonempty, Option.some.injEq] at last_mem
  rw [last_mem] at newline
  simpa using newline

theorem not_mem_lastLine (before : Text) : '\n' ∉ lastLine before := by
  intro member
  have other := List.mem_rtakeWhile_imp member
  simp at other

/-- Something on one line whose end is not part of a line end. -/
structure Inline (mid : Text) : Prop where
  nonempty : mid ≠ []
  unbroken : '\n' ∉ mid
  ends : ∀ last ∈ mid.getLast?, last ≠ '\r'

/-- The lines of a text around something on one of them. -/
theorem lines_around (before after : Text) :
    ∃ above tail below, tail <+: after ∧ ∀ mid, Inline mid →
      lines (before ++ mid ++ after) = above ++ (lastLine before ++ mid ++ tail) :: below := by
  obtain ⟨above, shape, ends⟩ := lastLine_split before
  have split (mid : Text) : lines (before ++ mid ++ after) =
      lines above ++ lines (lastLine before ++ mid ++ after) := by
    conv_lhs => rw [shape]
    rw [List.append_assoc, List.append_assoc, lines_append_of_ends ends, List.append_assoc]
  have visible (mid : Text) (inline : Inline mid) : '\n' ∉ lastLine before ++ mid := by
    rw [List.mem_append, not_or]
    exact ⟨not_mem_lastLine before, inline.unbroken⟩
  have parts : Unbroken (· == '\n') after ∨ ∃ piece separator rest,
      after = piece ++ separator :: rest ∧ Unbroken (· == '\n') piece ∧
        (separator == '\n') = true := unbroken_or_split after
  obtain unbroken | ⟨tail, separator, rest, rfl, unbroken, separated⟩ := parts
  · refine ⟨lines above, after, [], List.prefix_rfl, fun mid inline => ?_⟩
    have alone : '\n' ∉ lastLine before ++ mid ++ after := by
      rw [List.mem_append, not_or]
      exact ⟨visible mid inline, fun member => by simpa using unbroken _ member⟩
    have some : lastLine before ++ mid ++ after ≠ [] := by simp [inline.nonempty]
    rw [split, lines_unbroken alone some]
  · obtain rfl : separator = '\n' := by simpa using separated
    refine ⟨lines above, stripSuffixChar '\r' tail, lines rest, ?_, fun mid inline => ?_⟩
    · exact (stripSuffixChar_starts _ _).trans (List.prefix_append _ _)
    have alone : '\n' ∉ lastLine before ++ mid ++ tail := by
      rw [List.mem_append, not_or]
      exact ⟨visible mid inline, fun member => by simpa using unbroken _ member⟩
    have ends : ∀ last ∈ (lastLine before ++ mid).getLast?, last ≠ '\r' := by
      rw [List.getLast?_append_of_ne_nil _ inline.nonempty]
      exact inline.ends
    rw [split, ← List.append_assoc, lines_terminated alone, stripSuffixChar_append ends]

end Lines

/-! ## One line -/

section Line

variable {line before marked gap value other after : Text}

/-- A line that starts with a marker keeps its indentation and the marker. -/
theorem redactAgentTextLine_marked (sensitive : (startMarker (trimStart line)).isSome = true) :
    redactAgentTextLine line =
      line.takeWhile isWhitespace ++ upToSeparator (trimStart line) ++ redacted := by
  obtain ⟨marker, found⟩ := Option.isSome_iff_exists.mp sensitive
  obtain ⟨_, lower⟩ := startMarker_eq_some_iff.mp found
  have sameLength : marker.length = (upToSeparator (trimStart line)).length := by
    rw [← lower]
    exact List.length_map _
  have shape : line = line.takeWhile isWhitespace ++ trimStart line :=
    List.takeWhile_append_dropWhile.symm
  have indentation : line.length - (trimStart line).length =
      (line.takeWhile isWhitespace).length := by
    have lengths := congrArg List.length shape
    rw [List.length_append] at lengths
    omega
  have kept : (trimStart line).take (upToSeparator (trimStart line)).length =
      upToSeparator (trimStart line) :=
    (List.prefix_iff_eq_take.mp (upToSeparator_starts _)).symm
  unfold redactAgentTextLine
  dsimp only
  rw [found]
  dsimp only
  have taken : (line.takeWhile isWhitespace ++ trimStart line).take
      ((line.takeWhile isWhitespace).length + (upToSeparator (trimStart line)).length) =
        line.takeWhile isWhitespace ++
          (trimStart line).take (upToSeparator (trimStart line)).length :=
    List.take_length_add_append _
  rw [← shape, kept] at taken
  rw [indentation, sameLength, taken]

theorem redactAgentTextLine_unmarked (plain : ¬(startMarker (trimStart line)).isSome = true) :
    redactAgentTextLine line =
      List.intercalate [' '] ((splitWhitespace line).map redactPart) := by
  unfold redactAgentTextLine
  dsimp only
  rw [Option.not_isSome_iff_eq_none.mp plain]

/-- What stands behind a marker does not change whether its line starts with one, nor how. -/
theorem trimStart_marked (sensitive : toAsciiLowercase marked ∈ markers) (before rest : Text) :
    trimStart (before ++ marked ++ rest) = trimStart (before ++ marked) ++ rest ∧
      (before ++ marked ++ rest).takeWhile isWhitespace =
        (before ++ marked).takeWhile isWhitespace ∧
      ∃ c ∈ trimStart (before ++ marked), isSeparator c = true := by
  obtain ⟨body, separator, shape, separated, _⟩ := marked_shape sensitive
  have word := marked_visible sensitive
  have separator_mem : separator ∈ marked := by simp [shape]
  have start : trimStart marked = marked := by
    obtain ⟨first, more, rfl⟩ := List.exists_cons_of_ne_nil word.nonempty
    exact List.dropWhile_cons_of_neg (by simp [word.unbroken first (by simp)])
  have some : trimStart (before ++ marked) ≠ [] := by
    intro blank
    have white := trimStart_eq_nil_iff.mp blank separator (by simp [separator_mem])
    rw [word.unbroken separator separator_mem] at white
    contradiction
  have notAll :
      ¬((before ++ marked).takeWhile isWhitespace).length = (before ++ marked).length := by
    intro all
    refine some ?_
    have lengths := congrArg List.length
      (List.takeWhile_append_dropWhile (p := isWhitespace) (l := before ++ marked))
    rw [List.length_append, all] at lengths
    exact List.eq_nil_of_length_eq_zero (by unfold trimStart; omega)
  refine ⟨trimStart_append_of_ne_nil rest some, ?_, separator, ?_, separated⟩
  · rw [List.takeWhile_append, if_neg notAll]
  · unfold trimStart at start ⊢
    rw [List.dropWhile_append]
    split
    · rw [start]
      exact separator_mem
    · exact List.mem_append_right _ separator_mem

theorem startMarker_marked (sensitive : toAsciiLowercase marked ∈ markers) (before rest : Text) :
    (startMarker (trimStart (before ++ marked ++ rest))).isSome =
      (startMarker (trimStart (before ++ marked))).isSome := by
  obtain ⟨trimmed, _, separated⟩ := trimStart_marked sensitive before rest
  rw [Bool.eq_iff_iff, startMarker_isSome_iff, startMarker_isSome_iff, trimmed,
    upToSeparator_append separated]

/-- A line that starts with a marker loses everything behind a marker on it. -/
theorem redactAgentTextLine_hidden (sensitive : toAsciiLowercase marked ∈ markers)
    (hidden : (startMarker (trimStart (before ++ marked))).isSome = true) (rest : Text) :
    redactAgentTextLine (before ++ marked ++ rest) = (before ++ marked).takeWhile isWhitespace ++
      upToSeparator (trimStart (before ++ marked)) ++ redacted := by
  obtain ⟨trimmed, indentation, separated⟩ := trimStart_marked sensitive before rest
  rw [← startMarker_marked sensitive before rest] at hidden
  rw [redactAgentTextLine_marked hidden, indentation, trimmed, upToSeparator_append separated]

theorem redactPart_marked (sensitive : toAsciiLowercase marked ∈ markers) (value : Text) :
    redactPart (marked ++ value) = marked ++ redacted := by
  unfold redactPart
  rw [if_pos (startMarker_isSome_marked sensitive value), upToSeparator_marked sensitive]

/-- The words around a value that stands in the same word as its marker. -/
theorem splitWhitespace_attached (opens : Opens isWhitespace before)
    (closes : Closes isWhitespace after) (word : IsWord isWhitespace (marked ++ value)) :
    splitWhitespace (before ++ (marked ++ value) ++ after) =
      splitWhitespace before ++ (marked ++ value) :: splitWhitespace after := by
  unfold splitWhitespace
  rw [words_append_of_closes closes, words_append_of_opens opens, words_word word]
  simp

/-- The words around a value that whitespace separates from its marker. -/
theorem splitWhitespace_detached (opens : Opens isWhitespace before)
    (closes : Closes isWhitespace after) (word : IsWord isWhitespace marked)
    (apart : ∀ c ∈ gap, isWhitespace c = true) (some : gap ≠ [])
    (value_word : IsWord isWhitespace value) :
    splitWhitespace (before ++ (marked ++ gap ++ value) ++ after) =
      splitWhitespace before ++ marked :: value :: splitWhitespace after := by
  have gap_opens : Opens isWhitespace gap := fun last last_mem =>
    apart last (List.mem_of_getLast? last_mem)
  have gap_closes : Closes isWhitespace (gap ++ value) := by
    obtain ⟨first, rest, rfl⟩ := List.exists_cons_of_ne_nil some
    intro c c_mem
    obtain rfl : first = c := by simpa using c_mem
    exact apart first (by simp)
  unfold splitWhitespace
  rw [words_append_of_closes closes, words_append_of_opens opens,
    List.append_assoc marked, words_append_of_closes gap_closes, words_append_of_opens gap_opens,
    words_gap apart, words_word word, words_word value_word]
  simp

/-- A part in the middle of a joined list. -/
theorem intercalate_around (blank : Char) (front back : List Text) :
    ∃ left right, ∀ part,
      List.intercalate [blank] (front ++ part :: back) = left ++ part ++ right := by
  induction front with
  | nil =>
    refine ⟨[], if back = [] then [] else blank :: List.intercalate [blank] back, fun part => ?_⟩
    rw [List.nil_append, intercalate_cons]
    rfl
  | cons first front ih =>
    obtain ⟨left, right, joined⟩ := ih
    refine ⟨first ++ blank :: left, right, fun part => ?_⟩
    rw [List.cons_append, intercalate_cons, if_neg (by simp), joined]
    simp

/-- The line of a marker and its value, with the value in the same word or hidden with the line. -/
theorem redactAgentTextLine_value (at_ : MarkerAt before marked gap value after)
    (other_word : IsWord isWhitespace other)
    (attached : gap = [] ∨ (startMarker (trimStart (before ++ marked))).isSome = true) :
    redactAgentTextLine (before ++ (marked ++ gap ++ other) ++ after) =
      redactAgentTextLine (before ++ (marked ++ gap ++ value) ++ after) := by
  by_cases hidden : (startMarker (trimStart (before ++ marked))).isSome = true
  · have shape (word : Text) : before ++ (marked ++ gap ++ word) ++ after =
        before ++ marked ++ (gap ++ word ++ after) := by simp
    rw [shape other, shape value, redactAgentTextLine_hidden at_.sensitive hidden,
      redactAgentTextLine_hidden at_.sensitive hidden]
  · obtain rfl : gap = [] := attached.resolve_right hidden
    have line (word : Text) (isWord : IsWord isWhitespace word) :
        redactAgentTextLine (before ++ (marked ++ [] ++ word) ++ after) =
          List.intercalate [' '] ((splitWhitespace before).map redactPart ++
            (marked ++ redacted) :: (splitWhitespace after).map redactPart) := by
      have marked_word := marked_visible at_.sensitive
      have joined : IsWord isWhitespace (marked ++ word) := by
        refine ⟨by simp [isWord.nonempty], fun c member => ?_⟩
        exact (List.mem_append.mp member).elim (marked_word.unbroken c) (isWord.unbroken c)
      have plain : ¬(startMarker (trimStart
          (before ++ (marked ++ [] ++ word) ++ after))).isSome = true := by
        have shape : before ++ (marked ++ [] ++ word) ++ after =
            before ++ marked ++ (word ++ after) := by simp
        rwa [shape, startMarker_marked at_.sensitive]
      rw [redactAgentTextLine_unmarked plain, List.append_nil,
        splitWhitespace_attached at_.starts at_.ends joined, List.map_append, List.map_cons,
        redactPart_marked at_.sensitive]
    rw [line other other_word, line value at_.value]

/-- A value that whitespace separates from its marker, on a line that does not start with one, is a
part like any other. -/
theorem redactAgentTextLine_detached (at_ : MarkerAt before marked gap value after)
    (some : gap ≠ []) (plain : ¬(startMarker (trimStart (before ++ marked))).isSome = true) :
    ∃ left right, ∀ word, IsWord isWhitespace word →
      redactAgentTextLine (before ++ (marked ++ gap ++ word) ++ after) =
        left ++ redactPart word ++ right := by
  obtain ⟨left, right, joined⟩ := intercalate_around ' '
    ((splitWhitespace before).map redactPart ++ [redactPart marked])
    ((splitWhitespace after).map redactPart)
  refine ⟨left, right, fun word isWord => ?_⟩
  have line_plain : ¬(startMarker (trimStart
      (before ++ (marked ++ gap ++ word) ++ after))).isSome = true := by
    have shape : before ++ (marked ++ gap ++ word) ++ after =
        before ++ marked ++ (gap ++ word ++ after) := by simp
    rwa [shape, startMarker_marked at_.sensitive]
  rw [redactAgentTextLine_unmarked line_plain, splitWhitespace_detached at_.starts at_.ends
    (marked_visible at_.sensitive) (fun c member => (at_.gap c member).1) some isWord, ← joined]
  simp

end Line

/-! ## Hidden values -/

section Values

variable {text before marked gap value after : Text}

/-- The result around something on one line. -/
theorem redactAgentText_around (before after : Text) :
    ∃ left right tail, tail <+: after ∧ ∀ mid, Inline mid →
      redactAgentText (before ++ mid ++ after) =
        left ++ redactAgentTextLine (lastLine before ++ mid ++ tail) ++ right := by
  obtain ⟨above, tail, below, tail_starts, around⟩ := lines_around before after
  obtain ⟨left, right, joined⟩ := intercalate_around '\n' (above.map redactAgentTextLine)
    (below.map redactAgentTextLine)
  refine ⟨left, right, tail, tail_starts, fun mid inline => ?_⟩
  unfold redactAgentText
  rw [around mid inline, List.map_append, List.map_cons, joined]

theorem MarkerAt.inline (at_ : MarkerAt before marked gap value after) {word : Text}
    (isWord : IsWord isWhitespace word) : Inline (marked ++ gap ++ word) := by
  have visible (c : Char) (member : c ∈ word) (white : isWhitespace c = true) : False := by
    rw [isWord.unbroken c member] at white
    contradiction
  refine ⟨by simp [isWord.nonempty], ?_, ?_⟩
  · intro newline
    rw [List.mem_append, List.mem_append] at newline
    obtain (inMarked | inGap) | inWord := newline
    · have white := (marked_visible at_.sensitive).unbroken '\n' inMarked
      contradiction
    · exact (at_.gap '\n' inGap).2 rfl
    · exact visible '\n' inWord (by decide)
  · rw [List.getLast?_append_of_ne_nil _ isWord.nonempty]
    rintro last last_mem rfl
    exact visible '\r' (List.mem_of_getLast? last_mem) (by decide)

/-- The occurrence on its line. -/
theorem MarkerAt.onLine (at_ : MarkerAt before marked gap value after) {tail : Text}
    (tail_starts : tail <+: after) : MarkerAt (lastLine before) marked gap value tail where
  starts := at_.starts.of_suffix (List.rtakeWhile_suffix _ _)
  sensitive := at_.sensitive
  gap := at_.gap
  value := at_.value
  ends := at_.ends.of_prefix tail_starts

theorem isWord_singleton {c : Char} (visible : isWhitespace c = false) :
    IsWord isWhitespace [c] :=
  ⟨by simp, by simpa [Unbroken] using visible⟩

/-- Values are hidden exactly if the ones apart from their marker stand on lines that start with a
marker. -/
theorem hidesValues_iff : HidesValues text ↔ AttachesValues text := by
  constructor
  · rintro hides before marked gap value after rfl at_ some
    by_contra plain
    obtain ⟨left, right, tail, tail_starts, around⟩ := redactAgentText_around before after
    obtain ⟨left', right', detached⟩ :=
      redactAgentTextLine_detached (at_.onLine tail_starts) some plain
    have result (word : Text) (isWord : IsWord isWhitespace word) :
        redactAgentText (before ++ marked ++ gap ++ word ++ after) =
          left ++ (left' ++ redactPart word ++ right') ++ right := by
      rw [← detached word isWord, ← around _ (at_.inline isWord)]
      simp
    have first := hides before marked gap value after rfl at_ ['a'] (isWord_singleton (by decide))
    have second := hides before marked gap value after rfl at_ ['b'] (isWord_singleton (by decide))
    have same := first.trans second.symm
    rw [result ['a'] (isWord_singleton (by decide)),
      result ['b'] (isWord_singleton (by decide))] at same
    have parts : redactPart ['a'] = redactPart ['b'] := by simpa using same
    exact absurd parts (by decide)
  · rintro attaches before marked gap value after rfl at_ other other_word
    obtain ⟨left, right, tail, tail_starts, around⟩ := redactAgentText_around before after
    have attached : gap = [] ∨
        (startMarker (trimStart (lastLine before ++ marked))).isSome = true := by
      by_cases none : gap = []
      · exact .inl none
      · exact .inr (attaches before marked gap value after rfl at_ none)
    have line := redactAgentTextLine_value (at_.onLine tail_starts) other_word attached
    have result (word : Text) : before ++ marked ++ gap ++ word ++ after =
        before ++ (marked ++ gap ++ word) ++ after := by simp
    rw [result other, result value, around _ (at_.inline other_word),
      around _ (at_.inline at_.value), line]

end Values

/-! ## Unmarked texts -/

section Unmarked

variable {text line piece rest : Text}

theorem exists_of_mem_lines (member : line ∈ lines text) :
    ∃ above below, text = above ++ line ++ below ∧ Opens isWhitespace above := by
  induction text using separated_induction (· == '\n') with
  | last text unbroken =>
    by_cases empty : text = []
    · subst text
      contradiction
    · have alone : '\n' ∉ text := fun newline => by simpa using unbroken _ newline
      rw [lines_unbroken alone empty] at member
      obtain rfl : line = text := by simpa using member
      exact ⟨[], [], by simp, nofun⟩
  | next piece separator rest unbroken separated ih =>
    obtain rfl : separator = '\n' := by simpa using separated
    have alone : '\n' ∉ piece := fun newline => by simpa using unbroken _ newline
    rw [lines_terminated alone, List.mem_cons] at member
    obtain rfl | later := member
    · obtain ⟨ending, shape, _⟩ :=
        stripSuffixChar_split (show isWhitespace '\r' = true by decide) piece
      refine ⟨[], ending ++ '\n' :: rest, ?_, nofun⟩
      conv_lhs => rw [shape]
      simp
    · obtain ⟨above, below, rfl, opens⟩ := ih later
      refine ⟨piece ++ '\n' :: above, below, by simp, ?_⟩
      intro last last_mem
      cases above with
      | nil =>
        obtain rfl : '\n' = last := by simpa using last_mem
        decide
      | cons first above =>
        refine opens last ?_
        simpa [List.getLast?_append, List.getLast?_cons] using last_mem

/-- What starts with a marker at the start of a word makes the text one with a marker. -/
theorem hasMarker_of_startMarker {before part after : Text} (shape : text = before ++ part ++ after)
    (opens : Opens isWhitespace before) (sensitive : (startMarker part).isSome = true) :
    HasMarker text := by
  obtain ⟨rest, part_eq⟩ := upToSeparator_starts part
  refine ⟨before, upToSeparator part, rest ++ after, ?_, opens,
    startMarker_isSome_iff.mp sensitive⟩
  rw [shape, ← List.append_assoc, List.append_assoc before _ rest, part_eq]

theorem opens_append {before front : Text} (opens : Opens isWhitespace before)
    (opens' : Opens isWhitespace front) : Opens isWhitespace (before ++ front) := by
  by_cases empty : front = []
  · rwa [empty, List.append_nil]
  · intro last last_mem
    rw [List.getLast?_append_of_ne_nil _ empty] at last_mem
    exact opens' last last_mem

/-- The lines of a text without markers are rebuilt from their words. -/
theorem redactAgentText_unmarked (unmarked : ¬HasMarker text) :
    redactAgentText text = List.intercalate ['\n']
      ((lines text).map fun line => List.intercalate [' '] (splitWhitespace line)) := by
  unfold redactAgentText
  congr 1
  refine List.map_congr_left fun line member => ?_
  obtain ⟨above, below, shape, opens⟩ := exists_of_mem_lines member
  have plain : ¬(startMarker (trimStart line)).isSome = true := by
    intro sensitive
    have indentation : Opens isWhitespace (line.takeWhile isWhitespace) := fun last last_mem =>
      List.mem_takeWhile_imp (List.mem_of_getLast? last_mem)
    have line_eq : line = line.takeWhile isWhitespace ++ trimStart line :=
      List.takeWhile_append_dropWhile.symm
    have trimmed : text =
        above ++ line.takeWhile isWhitespace ++ trimStart line ++ below := by
      rw [List.append_assoc above, ← line_eq]
      exact shape
    exact unmarked (hasMarker_of_startMarker trimmed (opens_append opens indentation) sensitive)
  have parts : (splitWhitespace line).map redactPart = splitWhitespace line := by
    refine (List.map_congr_left fun part part_mem => ?_).trans (List.map_id' _)
    obtain ⟨_, before, after, line_eq, opens', _⟩ := exists_of_mem_words part_mem
    have whole : text = above ++ before ++ part ++ (after ++ below) := by
      rw [shape, line_eq]
      simp
    unfold redactPart
    rw [if_neg fun sensitive =>
      unmarked (hasMarker_of_startMarker whole (opens_append opens opens') sensitive)]
  rw [redactAgentTextLine_unmarked plain, parts]

/-- Lists are the same up to the first separator and behind it. -/
theorem append_cons_inj_of_unbroken {a b a' b' : Text} {c : Char} (unbroken : c ∉ a)
    (unbroken' : c ∉ a') (same : a ++ c :: b = a' ++ c :: b') : a = a' ∧ b = b' := by
  obtain ⟨extra, rfl, behind⟩ | ⟨extra, rfl, behind⟩ := List.append_eq_append_iff.mp same
  · cases extra with
    | nil => exact ⟨by simp, by simpa using behind⟩
    | cons first extra =>
      obtain ⟨rfl, _⟩ := List.cons.inj behind
      simp at unbroken'
  · cases extra with
    | nil => exact ⟨by simp, by simpa using behind.symm⟩
    | cons first extra =>
      obtain ⟨rfl, _⟩ := List.cons.inj behind
      simp at unbroken

theorem newline_not_mem_joined (parts : List Text)
    (unbroken : ∀ part ∈ parts, Unbroken isWhitespace part) :
    '\n' ∉ List.intercalate [' '] parts := by
  induction parts with
  | nil => simp [List.intercalate]
  | cons first parts ih =>
    have later := ih fun part member => unbroken part (by simp [member])
    have here : '\n' ∉ first := by
      intro newline
      have white := unbroken first (by simp) '\n' newline
      contradiction
    rw [intercalate_cons]
    split
    · simpa using here
    · simp [here, later]

theorem splitWhitespace_stripSuffixChar (line : Text) :
    splitWhitespace (stripSuffixChar '\r' line) = splitWhitespace line := by
  obtain ⟨ending, shape, blank⟩ :=
    stripSuffixChar_split (show isWhitespace '\r' = true by decide) line
  have closes : Closes isWhitespace ending := fun first first_mem =>
    blank first (List.mem_of_head? first_mem)
  unfold splitWhitespace
  conv_rhs => rw [shape]
  rw [words_append_of_closes closes, words_gap blank, List.append_nil]

theorem framed_unbroken (alone : '\n' ∉ line) :
    Framed line ↔ Spaced isWhitespace ' ' line := by
  unfold Framed Spaced Everywhere Between
  refine forall₃_congr fun before c after => forall_congr' fun shape => ?_
  have visible : c ≠ '\n' := by
    rintro rfl
    exact alone (by simp [shape])
  simp [visible]

theorem framed_append_cons (alone : '\n' ∉ line) :
    Framed (line ++ '\n' :: rest) ↔ Spaced isWhitespace ' ' line ∧ rest ≠ [] ∧ Framed rest := by
  have newline : isWhitespace '\n' = true := by decide
  unfold Framed
  rw [everywhere_append_cons]
  refine and_congr ?_ (and_congr ?_ ?_)
  · unfold Spaced Everywhere Between
    refine forall₃_congr fun before c after => forall_congr' fun shape => ?_
    have visible : c ≠ '\n' := by
      rintro rfl
      exact alone (by simp [shape])
    simp only [visible, false_and, false_or, firstVisible_append_cons newline]
  · simp [newline]
  · simp only [lastVisible_append_cons newline]

/-- Rebuilding the lines from their words gives the text back exactly if it is framed. -/
theorem respaced_eq_iff : List.intercalate ['\n']
      ((lines text).map fun line => List.intercalate [' '] (splitWhitespace line)) = text ↔
    Framed text := by
  induction text using separated_induction (· == '\n') with
  | last text unbroken =>
    have alone : '\n' ∉ text := fun newline => by simpa using unbroken _ newline
    rw [framed_unbroken alone, ← joined_eq_iff (by decide)]
    by_cases empty : text = []
    · subst text
      simp [lines, splitInclusive_nil, List.intercalate]
    · rw [lines_unbroken alone empty, List.map_singleton, List.intercalate_singleton]
      rfl
  | next piece separator rest unbroken separated ih =>
    obtain rfl : separator = '\n' := by simpa using separated
    have alone : '\n' ∉ piece := fun newline => by simpa using unbroken _ newline
    have joined : '\n' ∉ List.intercalate [' '] (splitWhitespace piece) :=
      newline_not_mem_joined _ fun part member => (exists_of_mem_words member).1.unbroken
    rw [framed_append_cons alone, lines_terminated alone, List.map_cons, intercalate_cons,
      splitWhitespace_stripSuffixChar, ← ih, ← joined_eq_iff (by decide)]
    by_cases empty : rest = []
    · subst rest
      constructor
      · intro same
        refine absurd ?_ joined
        have shorter : List.intercalate [' '] (splitWhitespace piece) = piece ++ ['\n'] := by
          simpa [lines, splitInclusive_nil] using same
        simp [shorter]
      · rintro ⟨_, some, _⟩
        contradiction
    · have some : ¬(lines rest).map
          (fun line => List.intercalate [' '] (splitWhitespace line)) = [] := by
        unfold lines
        rw [List.map_eq_nil_iff, List.map_eq_nil_iff, splitInclusive_eq_nil_iff]
        exact empty
      rw [if_neg some]
      constructor
      · intro same
        obtain ⟨first, later⟩ := append_cons_inj_of_unbroken joined alone same
        exact ⟨first, empty, later⟩
      · rintro ⟨first, _, later⟩
        rw [later]
        congr 1

end Unmarked

/-- The values of a text are hidden and the rest is kept exactly if every value apart from its
marker is on a line that starts with a marker, and a text without markers is framed. -/
theorem redactAgentText_correct_iff (text : Text) :
    HidesValues text ∧ KeepsUnmarked text ↔
      AttachesValues text ∧ (HasMarker text ∨ Framed text) := by
  rw [hidesValues_iff]
  refine and_congr_right fun _ => ?_
  unfold KeepsUnmarked
  rw [or_iff_not_imp_left]
  refine forall_congr' fun unmarked => ?_
  rw [redactAgentText_unmarked unmarked]
  exact respaced_eq_iff

/-- The word behind a marker stays if the line starts with another word; a final newline goes. -/
theorem redactAgentText_misses :
    ¬HidesValues "use token: abc".toList ∧ ¬KeepsUnmarked "done\n".toList := by
  constructor
  · intro hides
    have at_ : MarkerAt "use ".toList "token:".toList " ".toList "abc".toList [] := by
      refine ⟨?_, by decide, by decide, ⟨by decide, by decide⟩, nofun⟩
      intro last last_mem
      obtain rfl : ' ' = last := by simpa using last_mem
      decide
    have same := hides _ _ _ _ _ rfl at_ "x".toList ⟨by decide, by decide⟩
    exact absurd same (by decide)
  · intro keeps
    have unmarked : ¬HasMarker "done\n".toList := by
      rintro ⟨before, marked, after, shape, _, sensitive⟩
      obtain ⟨body, separator, rfl, separated, _⟩ := marked_shape sensitive
      have visible : ∀ c ∈ "done\n".toList, isSeparator c = false := by decide
      have absent := visible separator (by rw [shape]; simp)
      rw [separated] at absent
      contradiction
    exact absurd (keeps unmarked) (by decide)

end Foco.TextRedaction
