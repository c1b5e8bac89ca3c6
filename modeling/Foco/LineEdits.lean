import Foco.MachineIntegers
import Foco.TextLines

/-!
`tools/lib.rs`: line ranges of a file and the replacement of one. The scan for lines gives their
positions and endings, and a replacement without an ending of its own takes that of the last line
that it replaces. Positions count characters here and bytes in the source.
-/
namespace Foco.LineEdits
open Foco.RustText Foco.TextLines

inductive ToolRuntimeError where
  | invalidArguments (message : Text)

/-- A 1-based inclusive range. -/
structure LineRange where
  start : Nat
  end_ : Nat
  start_pos : 0 < start
  start_le : start ≤ end_

def LineRange.new (start end_ : Nat) : Except ToolRuntimeError LineRange :=
  if h : start = 0 ∨ end_ = 0 ∨ end_ < start then
    .error (.invalidArguments
      ("line ranges are 1-based inclusive ranges and must satisfy ".toList ++
        "startLine <= endLine".toList))
  else .ok ⟨start, end_, by omega, by omega⟩

structure LineSpan where
  start : Nat
  end_ : Nat
  lineEnding : Option Text

/-- `line_spans` from a position in a line on. -/
def lineSpansFrom (start index : Nat) : Text → List LineSpan
  | [] => if start < index then [⟨start, index, none⟩] else []
  | '\r' :: '\n' :: rest =>
    ⟨start, index + 2, some ['\r', '\n']⟩ :: lineSpansFrom (index + 2) (index + 2) rest
  | '\r' :: rest => ⟨start, index + 1, some ['\r']⟩ :: lineSpansFrom (index + 1) (index + 1) rest
  | '\n' :: rest => ⟨start, index + 1, some ['\n']⟩ :: lineSpansFrom (index + 1) (index + 1) rest
  | _ :: rest => lineSpansFrom start (index + 1) rest

def lineSpans (content : Text) : List LineSpan := lineSpansFrom 0 0 content

def validateLineRange (range : LineRange) (lineCount : Nat) : Except ToolRuntimeError Unit :=
  if lineCount < range.end_ then
    .error (.invalidArguments
      ("line range ".toList ++ natText range.start ++ "-".toList ++ natText range.end_ ++
        " is outside the file; file has ".toList ++ natText lineCount ++ " lines".toList))
  else .ok ()

def endsWithLineEnding (content : Text) : Bool :=
  content.getLast? == some '\n' || content.getLast? == some '\r'

/-- The replacement with the ending of the last line that it replaces, if it has none and that
line has one. -/
def withLineEnding (lineEnding : Option Text) (replacement : Text) : Text :=
  match lineEnding with
  | some lineEnding =>
    if endsWithLineEnding replacement then replacement else replacement ++ lineEnding
  | none => replacement

/-- A span of the list; within the bounds once the range has been validated. -/
def spanAt (spans : List LineSpan) (line : Nat) : LineSpan := spans.getD (line - 1) ⟨0, 0, none⟩

def replaceLineRange (existingContent : Text) (range : LineRange) (replacement : Text) :
    Except ToolRuntimeError Text := do
  let spans := lineSpans existingContent
  validateLineRange range spans.length
  let start := (spanAt spans range.start).start
  let replacedEnd := (spanAt spans range.end_).end_
  let replacement := withLineEnding (spanAt spans range.end_).lineEnding replacement
  return existingContent.take start ++ replacement ++ existingContent.drop replacedEnd

/-! ## Spans and lines -/

/-- The texts of the spans. -/
def lines (content : Text) : List Text :=
  (lineSpans content).map fun span => (content.drop span.start).take (span.end_ - span.start)

def endingOf (line : Text) : Option Text :=
  match line.reverse with
  | '\n' :: '\r' :: _ => some ['\r', '\n']
  | '\n' :: _ => some ['\n']
  | '\r' :: _ => some ['\r']
  | _ => none

def spansOf (start : Nat) : List Text → List LineSpan
  | [] => []
  | line :: lines =>
    ⟨start, start + line.length, endingOf line⟩ :: spansOf (start + line.length) lines

theorem spansOf_nil (start : Nat) : spansOf start [] = [] := rfl

theorem spansOf_cons (start : Nat) (line : Text) (lines : List Text) :
    spansOf start (line :: lines) =
      ⟨start, start + line.length, endingOf line⟩ :: spansOf (start + line.length) lines := rfl

theorem endingOf_feed {body : Text} (plain : ∀ c ∈ body, IsPlain c) :
    endingOf (body ++ ['\n']) = some ['\n'] := by
  unfold endingOf
  rw [List.reverse_append]
  cases back : body.reverse with
  | nil => rfl
  | cons c back =>
    have notReturn : c ≠ '\r' := (plain c (by
      rw [← List.mem_reverse, back]
      exact List.mem_cons_self)).2
    simp [notReturn]

theorem endingOf_return (body : Text) : endingOf (body ++ ['\r']) = some ['\r'] := by
  unfold endingOf
  rw [List.reverse_append]
  rfl

theorem endingOf_pair (body : Text) : endingOf (body ++ ['\r', '\n']) = some ['\r', '\n'] := by
  unfold endingOf
  rw [List.reverse_append]
  rfl

theorem endingOf_plain {body : Text} (plain : ∀ c ∈ body, IsPlain c) : endingOf body = none := by
  unfold endingOf
  cases back : body.reverse with
  | nil => rfl
  | cons c back =>
    obtain ⟨notFeed, notReturn⟩ := plain c (by
      rw [← List.mem_reverse, back]
      exact List.mem_cons_self)
    simp [notFeed, notReturn]

/-- The scan gives the spans of the lines. -/
theorem lineSpansFrom_eq {pending text : Text} (plain : ∀ c ∈ pending, IsPlain c) (start : Nat) :
    lineSpansFrom start (start + pending.length) text = spansOf start (scanLines pending text) := by
  have fresh : ∀ c ∈ ([] : Text), IsPlain c := fun c mem => absurd mem List.not_mem_nil
  induction pending, text using scanLines.induct generalizing start with
  | case1 => simp [lineSpansFrom, scanLines, spansOf_nil]
  | case2 pending filled =>
    have some_ : 0 < pending.length := List.length_pos_iff.mpr filled
    simp [lineSpansFrom, scanLines, spansOf_nil, spansOf_cons, filled, some_, endingOf_plain plain]
  | case3 pending rest ih =>
    rw [lineSpansFrom, scanLines, spansOf_cons, endingOf_pair, List.length_append, ← ih fresh]
    rfl
  | case4 pending rest lone ih =>
    rw [scanLines_lone_return lone, spansOf_cons, endingOf_return, List.length_append, ← ih fresh,
      lineSpansFrom]
    · rfl
    · exact lone
  | case5 pending rest ih =>
    rw [lineSpansFrom, scanLines, spansOf_cons, endingOf_feed plain, List.length_append, ← ih fresh]
    rfl
  | case6 pending c rest notPair notReturn notFeed ih =>
    have longer : ∀ d ∈ pending ++ [c], IsPlain d := by
      intro d mem
      obtain mem | mem := List.mem_append.mp mem
      · exact plain d mem
      · rw [List.mem_singleton.mp mem]
        exact ⟨notFeed, notReturn⟩
    rw [scanLines_plain_cons ⟨notFeed, notReturn⟩, ← ih longer, List.length_append, lineSpansFrom]
    · rfl
    · exact fun _ same _ => notReturn same
    · exact notReturn
    · exact notFeed

theorem lineSpans_eq (content : Text) : lineSpans content = spansOf 0 (completeLines content) :=
  lineSpansFrom_eq (fun _ mem => absurd mem List.not_mem_nil) 0

theorem length_spansOf (start : Nat) (lines : List Text) :
    (spansOf start lines).length = lines.length := by
  induction lines generalizing start with
  | nil => rfl
  | cons line lines ih => rw [spansOf_cons, List.length_cons, ih, List.length_cons]

theorem slices_spansOf (front : Text) (lines : List Text) :
    (spansOf front.length lines).map (fun span =>
      ((front ++ lines.flatten).drop span.start).take (span.end_ - span.start)) = lines := by
  induction lines generalizing front with
  | nil => rfl
  | cons line lines ih =>
    have rest := ih (front ++ line)
    rw [List.length_append, List.append_assoc] at rest
    rw [spansOf_cons, List.map_cons, List.flatten_cons, rest, List.drop_left, Nat.add_sub_cancel_left,
      List.take_left]

/-- The texts of the spans are the complete lines. -/
theorem lines_eq (content : Text) : lines content = completeLines content := by
  have slices := slices_spansOf [] (completeLines content)
  rw [List.nil_append, flatten_completeLines] at slices
  rw [lines, lineSpans_eq]
  exact slices

theorem getElem?_spansOf (start : Nat) (lines : List Text) (index : Nat) :
    (spansOf start lines)[index]? = lines[index]?.map fun line =>
      ⟨start + (lines.take index).flatten.length,
        start + (lines.take (index + 1)).flatten.length, endingOf line⟩ := by
  induction lines generalizing start index with
  | nil => rfl
  | cons line lines ih =>
    cases index with
    | zero => simp [spansOf_cons]
    | succ index =>
      rw [spansOf_cons, List.getElem?_cons_succ, ih, List.getElem?_cons_succ, List.take_succ_cons,
        List.flatten_cons, List.length_append, List.take_succ_cons, List.flatten_cons,
        List.length_append, Nat.add_assoc, Nat.add_assoc]

/-! ## The lines of an edited text -/

/-- The replacement as it is put in. -/
def completedReplacement (existingContent : Text) (range : LineRange) (replacement : Text) : Text :=
  withLineEnding (spanAt (lineSpans existingContent) range.end_).lineEnding replacement

/-- The lines before a range and those after it. -/
def linesBefore (content : Text) (range : LineRange) : List Text :=
  (lines content).take (range.start - 1)

def linesAfter (content : Text) (range : LineRange) : List Text :=
  (lines content).drop range.end_

theorem spanAt_eq {content : Text} {line : Nat} (pos : 0 < line)
    (within : line ≤ (lines content).length) :
    ∃ last ∈ (lines content)[line - 1]?, spanAt (lineSpans content) line =
      ⟨((lines content).take (line - 1)).flatten.length, ((lines content).take line).flatten.length,
        endingOf last⟩ := by
  have inside : line - 1 < (lines content).length := by omega
  refine ⟨_, List.getElem?_eq_getElem inside, ?_⟩
  rw [spanAt, List.getD_eq_getElem?_getD, lineSpans_eq, getElem?_spansOf, ← lines_eq,
    List.getElem?_eq_getElem inside, Nat.zero_add, Nat.zero_add, Nat.sub_add_cancel pos]
  rfl

theorem take_flatten (lines : List Text) (count : Nat) :
    lines.flatten.take (lines.take count).flatten.length = (lines.take count).flatten := by
  have whole : (lines.take count).flatten ++ (lines.drop count).flatten = lines.flatten := by
    rw [← List.flatten_append, List.take_append_drop]
  rw [← whole, List.take_left]

theorem drop_flatten (lines : List Text) (count : Nat) :
    lines.flatten.drop (lines.take count).flatten.length = (lines.drop count).flatten := by
  have whole : (lines.take count).flatten ++ (lines.drop count).flatten = lines.flatten := by
    rw [← List.flatten_append, List.take_append_drop]
  conv_lhs => rw [← whole]
  rw [List.drop_left]

section Replace

variable {existingContent replacement content : Text} {range : LineRange}

/-- An edited text is the lines before, the replacement and the lines after. -/
theorem replaceLineRange_eq_ok
    (replaced : replaceLineRange existingContent range replacement = .ok content) :
    range.end_ ≤ (lines existingContent).length ∧
      content = (linesBefore existingContent range).flatten ++
        completedReplacement existingContent range replacement ++
          (linesAfter existingContent range).flatten := by
  have count : (lineSpans existingContent).length = (lines existingContent).length := by
    rw [lineSpans_eq, length_spansOf, lines_eq]
  have text : (lines existingContent).flatten = existingContent := by
    rw [lines_eq, flatten_completeLines]
  unfold replaceLineRange validateLineRange at replaced
  dsimp only at replaced
  rw [count] at replaced
  split at replaced
  · cases replaced
  · rename_i inside
    have within : range.end_ ≤ (lines existingContent).length := Nat.not_lt.mp inside
    have end_pos : 0 < range.end_ := Nat.lt_of_lt_of_le range.start_pos range.start_le
    obtain ⟨_, _, first⟩ := spanAt_eq range.start_pos (Nat.le_trans range.start_le within)
    obtain ⟨_, _, last⟩ := spanAt_eq end_pos within
    obtain rfl := Except.ok.inj replaced
    refine ⟨within, ?_⟩
    have front := take_flatten (lines existingContent) (range.start - 1)
    have back := drop_flatten (lines existingContent) range.end_
    rw [text] at front back
    have start : (spanAt (lineSpans existingContent) range.start).start =
        ((lines existingContent).take (range.start - 1)).flatten.length := by rw [first]
    have replacedEnd : (spanAt (lineSpans existingContent) range.end_).end_ =
        ((lines existingContent).take range.end_).flatten.length := by rw [last]
    rw [start, replacedEnd, front, back]
    rfl

/-- A line with an ending. -/
theorem endingOf_some {line : Text} (filled : line ≠ []) (ended : IsEnded line) :
    ∃ ending, endingOf line = some ending ∧ ending ≠ [] ∧ ending.getLast? = line.getLast? := by
  obtain ⟨init, last, rfl⟩ := List.eq_nil_or_concat line |>.resolve_left filled
  rw [List.concat_eq_append] at *
  have head : (init ++ [last]).getLast? = some last := List.getLast?_concat
  rw [head]
  unfold endingOf
  rw [List.reverse_append, List.reverse_singleton, List.singleton_append]
  obtain rfl | rfl := ended last head
  · split
    · exact ⟨_, rfl, by decide, rfl⟩
    · exact ⟨_, rfl, by decide, rfl⟩
    · rename_i other
      cases (List.cons.inj other).1
    · rename_i other _
      exact absurd rfl (other _)
  · split
    · rename_i other
      exact absurd (List.cons.inj other).1 (by decide)
    · rename_i other
      exact absurd (List.cons.inj other).1 (by decide)
    · exact ⟨_, rfl, by decide, rfl⟩
    · rename_i other
      exact absurd rfl (other _)

theorem endsWithLineEnding_iff {text : Text} :
    endsWithLineEnding text = true ↔ text ≠ [] ∧ IsEnded text := by
  unfold endsWithLineEnding IsEnded
  rw [Bool.or_eq_true, beq_iff_eq, beq_iff_eq]
  obtain rfl | ⟨init, last, rfl⟩ := List.eq_nil_or_concat text
  · simp
  · simp

/-- Behind a replaced line with an ending the replacement has one. -/
theorem withLineEnding_ended {line : Text} (filled : line ≠ []) (ended : IsEnded line)
    (replacement : Text) :
    withLineEnding (endingOf line) replacement ≠ [] ∧
      IsEnded (withLineEnding (endingOf line) replacement) := by
  obtain ⟨ending, some_, nonempty, same⟩ := endingOf_some filled ended
  rw [some_]
  change (if _ then _ else _) ≠ [] ∧ IsEnded (if _ then _ else _)
  split
  · rename_i own
    exact endsWithLineEnding_iff.mp own
  · refine ⟨fun empty => nonempty (List.append_eq_nil_iff.mp empty).2, fun last mem => ?_⟩
    rw [List.getLast?_append_of_ne_nil _ nonempty, same] at mem
    exact ended last mem

/-- Two parts of a text that are cut between lines do not join. -/
theorem not_joins_take_drop (content : Text) (count : Nat) :
    ¬Joins ((completeLines content).take count).flatten
      ((completeLines content).drop count).flatten := by
  intro joins
  have less := length_completeLines_of_joins joins
  rw [← List.flatten_append, List.take_append_drop, flatten_completeLines, completeLines_take,
    completeLines_drop, ← List.length_append, List.take_append_drop] at less
  omega

/-- The last line of a range, if a line follows it. -/
theorem completedReplacement_before (within : range.end_ < (lines existingContent).length) :
    (completedReplacement existingContent range replacement ≠ [] ∧
        IsEnded (completedReplacement existingContent range replacement)) ∧
      (Joins (completedReplacement existingContent range replacement)
          (linesAfter existingContent range).flatten ↔
        Joins replacement (linesAfter existingContent range).flatten) := by
  have end_pos : 0 < range.end_ := Nat.lt_of_lt_of_le range.start_pos range.start_le
  obtain ⟨last, at_, span⟩ := spanAt_eq end_pos (Nat.le_of_lt within)
  rw [lines_eq] at within at_
  have filled : last ≠ [] := filled_of_mem (List.mem_of_getElem? at_)
  have split : ((completeLines existingContent).take range.end_).flatten =
      ((completeLines existingContent).take (range.end_ - 1)).flatten ++ last := by
    conv_lhs => rw [← Nat.sub_add_cancel end_pos]
    rw [List.take_add_one, at_, List.flatten_append]
    simp
  have ended : IsEnded last := by
    intro c mem
    refine isEnded_take within c ?_
    rwa [split, List.getLast?_append_of_ne_nil _ filled]
  unfold completedReplacement
  rw [span]
  refine ⟨withLineEnding_ended filled ended replacement, ?_⟩
  obtain ⟨ending, some_, nonempty, same⟩ := endingOf_some filled ended
  rw [some_]
  change Joins (if _ then _ else _) _ ↔ _
  by_cases own : endsWithLineEnding replacement = true
  · rw [if_pos own]
  · -- An ending that is put behind the replacement is that of a line of the text.
    rw [if_neg own]
    refine iff_of_false (fun joins => ?_) fun joins => own ?_
    · refine not_joins_take_drop existingContent range.end_ ⟨?_, ?_⟩
      · rw [split, List.getLast?_append_of_ne_nil _ filled, ← same,
          ← List.getLast?_append_of_ne_nil replacement nonempty]
        exact joins.1
      · rw [← lines_eq]
        exact joins.2
    · unfold endsWithLineEnding
      rw [joins.1]
      rfl

/-- The lines of an edited text are those before the range, those of the replacement and those
behind the range exactly if no return before the replacement or at its end meets a feed. -/
theorem replaceLineRange_lines_iff
    (replaced : replaceLineRange existingContent range replacement = .ok content) :
    lines content = linesBefore existingContent range ++
        lines (completedReplacement existingContent range replacement) ++
          linesAfter existingContent range ↔
      ¬Joins (linesBefore existingContent range).flatten
          (completedReplacement existingContent range replacement) ∧
        ¬Joins replacement (linesAfter existingContent range).flatten := by
  obtain ⟨within, rfl⟩ := replaceLineRange_eq_ok replaced
  have start_le := range.start_le
  have start_pos := range.start_pos
  have before : completeLines (linesBefore existingContent range).flatten =
      linesBefore existingContent range := by
    rw [linesBefore, lines_eq, completeLines_take]
  have after : completeLines (linesAfter existingContent range).flatten =
      linesAfter existingContent range := by
    rw [linesAfter, lines_eq, completeLines_drop]
  have ended : IsEnded (linesBefore existingContent range).flatten := by
    rw [linesBefore, lines_eq]
    rw [lines_eq] at within
    exact isEnded_take (by omega)
  rw [lines_eq, lines_eq]
  obtain last | more := Nat.eq_or_lt_of_le within
  · -- Nothing follows the range.
    have none_ : linesAfter existingContent range = [] :=
      List.drop_eq_nil_of_le (Nat.le_of_eq last.symm)
    have apart : ¬Joins replacement [] := fun joins => by cases joins.2
    have two := completeLines_append_iff ended
      (completedReplacement existingContent range replacement)
    rw [before] at two
    rw [none_, List.flatten_nil, List.append_nil, List.append_nil, two, and_iff_left apart]
  · obtain ⟨⟨filled, ended'⟩, same⟩ := completedReplacement_before more
    have three := completeLines_append_three_iff ended filled ended'
      (linesAfter existingContent range).flatten
    rw [before, after] at three
    rw [three, same]

end Replace

theorem replaceLineRange_middle :
    lines "a\nx\nc".toList = linesBefore "a\nb\nc".toList ⟨2, 2, by decide, by decide⟩ ++
        lines (completedReplacement "a\nb\nc".toList ⟨2, 2, by decide, by decide⟩ "x".toList) ++
          linesAfter "a\nb\nc".toList ⟨2, 2, by decide, by decide⟩ :=
  (replaceLineRange_lines_iff (show replaceLineRange "a\nb\nc".toList _ "x".toList = _ by rfl)).mpr
    (by decide)

/-- A return at the end of the replacement swallows the empty line behind the range. -/
theorem replaceLineRange_loses_line :
    ∃ content, replaceLineRange "a\n\nb".toList ⟨1, 1, by decide, by decide⟩ "x\r".toList =
        .ok content ∧
      lines content ≠ linesBefore "a\n\nb".toList ⟨1, 1, by decide, by decide⟩ ++
        lines (completedReplacement "a\n\nb".toList ⟨1, 1, by decide, by decide⟩ "x\r".toList) ++
          linesAfter "a\n\nb".toList ⟨1, 1, by decide, by decide⟩ :=
  ⟨"x\r\nb".toList, rfl, by decide⟩

end Foco.LineEdits
