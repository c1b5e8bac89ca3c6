import Foco.Result
import Foco.RustText
import Mathlib.Algebra.GroupWithZero.Nat

/-!
`tools/apply_patch.rs`: the parser of `*** Begin Patch` documents. The source
walks an index over the lines between the first and the last one; here the walk
is over the list of those lines, and the index is carried for the line numbers of
the errors. A hunk body is the run of lines up to the next file marker, so each
body reader is a structural recursion over that run.
-/
namespace Foco.ApplyPatch
open Foco.RustText
open Foco.Result (bind_eq_ok pure_eq_ok)

/-! ## Grammar texts -/

/-- `MAX_PATCH_BYTES`. -/
def maxPatchBytes : Nat := 2 * 1024 * 1024

def beginPatchMarker : Text := "*** Begin Patch".toList
def endPatchMarker : Text := "*** End Patch".toList
def addFileMarker : Text := "*** Add File: ".toList
def deleteFileMarker : Text := "*** Delete File: ".toList
def updateFileMarker : Text := "*** Update File: ".toList
def moveToMarker : Text := "*** Move to: ".toList
def eofMarker : Text := "*** End of File".toList

/-- `UpdateFileChunk`. -/
structure UpdateFileChunk where
  changeContext : Option Text
  oldLines : List Text
  newLines : List Text
  isEndOfFile : Bool
  deriving DecidableEq

/-- `PatchHunk`: one file operation of a parsed patch. -/
inductive PatchHunk where
  | addFile (path contents : Text)
  | deleteFile (path : Text)
  | updateFile (path : Text) (movePath : Option Text) (chunks : List UpdateFileChunk)
  deriving DecidableEq

/-- `PatchParseError`. -/
inductive PatchParseError where
  | invalidPatch (message : Text)
  | invalidHunk (lineNumber : Nat) (message : Text)
  deriving DecidableEq

/-- The paths a hunk writes: its own path and the destination of a move. -/
def PatchHunk.touchedPaths : PatchHunk → List Text
  | .addFile path _ => [path]
  | .deleteFile path => [path]
  | .updateFile path movePath _ => path :: movePath.toList

/-! ## Lines and boundaries -/

/-- `str::len`: the length in UTF-8 bytes. -/
def byteLength (text : Text) : Nat := (text.map Char.utf8Size).sum

/-- The lines of the trimmed patch, each without one more trailing carriage return. -/
def patchLines (patch : Text) : List Text :=
  (lines (trim patch)).map (stripSuffixChar '\r')

/-- `matches_patch_boundaries`. -/
def matchesPatchBoundaries (patchLines : List Text) : Bool :=
  patchLines.head?.any (fun line => trim line = beginPatchMarker) &&
    patchLines.getLast?.any (fun line => trim line = endPatchMarker)

/-- The heredoc openers that `unwrap_heredoc` accepts. -/
def heredocOpeners : List Text := ["<<EOF".toList, "<<'EOF'".toList, "<<\"EOF\"".toList]

/-- `unwrap_heredoc`. -/
def unwrapHeredoc (patchLines : List Text) : List Text :=
  if matchesPatchBoundaries patchLines then patchLines
  else
    match patchLines with
    | first :: second :: rest =>
      let middle := (second :: rest).dropLast
      let last := (second :: rest).getLast (by simp)
      if trim first ∈ heredocOpeners ∧ endsWith "EOF".toList (trimEnd last) ∧ middle.length ≥ 2 then
        middle
      else patchLines
    | _ => patchLines

def firstLineMessage : Text := "The first line of the patch must be '*** Begin Patch'".toList
def lastLineMessage : Text := "The last line of the patch must be '*** End Patch'".toList

/-- `validate_patch_boundaries`. -/
def validatePatchBoundaries (patchLines : List Text) : Except PatchParseError Unit :=
  match patchLines.head? with
  | none => .error (.invalidPatch firstLineMessage)
  | some first =>
    if trim first ≠ beginPatchMarker then .error (.invalidPatch firstLineMessage)
    else
      match patchLines.getLast? with
      | none => .error (.invalidPatch lastLineMessage)
      | some last =>
        if trim last ≠ endPatchMarker then .error (.invalidPatch lastLineMessage) else .ok ()

/-- `is_file_marker`, on a trimmed line. -/
def isFileMarker (line : Text) : Bool :=
  startsWith addFileMarker line || startsWith deleteFileMarker line ||
    startsWith updateFileMarker line || line == endPatchMarker

/-- A line that does not end the body of the hunk it is in. -/
def isBodyLine (line : Text) : Bool := !isFileMarker (trim line)

/-- `marker_path`: the path named on a marker line, with the line's number. -/
def markerPath (line marker : Text) (lineNumber : Nat) :
    Except PatchParseError (Text × Nat) :=
  match markerArgument marker line with
  | some path => .ok (path, lineNumber)
  | none => .error (.invalidHunk lineNumber (marker ++ " requires a file path".toList))

/-! ## Hunk bodies -/

/-- The body of an Add File hunk from line `index` on: its contents and number of lines. -/
def addFileBody (index : Nat) : List Text → Except PatchParseError (Text × Nat)
  | [] => .ok ([], 0)
  | addLine :: rest =>
    match stripPrefix ['+'] addLine with
    | none => .error (.invalidHunk (index + 1) "added file content must start with '+'".toList)
    | some content => do
      let (contents, count) ← addFileBody (index + 1) rest
      return (content ++ ['\n'] ++ contents, count + 1)

/-- `ChunkBuilder`: the chunk an Update File hunk is reading. -/
structure ChunkBuilder where
  changeContext : Option Text := none
  oldLines : List Text := []
  newLines : List Text := []
  isEndOfFile : Bool := false

/-- `ChunkBuilder::into_chunk`. -/
def ChunkBuilder.intoChunk (builder : ChunkBuilder) (lineNumber : Nat) :
    Except PatchParseError UpdateFileChunk :=
  if builder.oldLines.isEmpty && builder.newLines.isEmpty then
    .error (.invalidHunk lineNumber "update chunk is empty".toList)
  else
    .ok ⟨builder.changeContext, builder.oldLines, builder.newLines, builder.isEndOfFile⟩

/-- The current chunk, if there is one, closed and pushed onto the finished ones. -/
def closeChunk (chunks : List UpdateFileChunk) (current : Option ChunkBuilder)
    (lineNumber : Nat) : Except PatchParseError (List UpdateFileChunk) :=
  match current with
  | some builder => do
    let chunk ← builder.intoChunk lineNumber
    return chunks ++ [chunk]
  | none => .ok chunks

/-- One change line added to the chunk, by its first character. A line without one of the
three prefixes is unchanged context as it stands. -/
def ChunkBuilder.pushLine (builder : ChunkBuilder) (changeLine : Text) : ChunkBuilder :=
  match changeLine with
  | '+' :: added => { builder with newLines := builder.newLines ++ [added] }
  | '-' :: removed => { builder with oldLines := builder.oldLines ++ [removed] }
  | ' ' :: unchanged =>
    { builder with
      oldLines := builder.oldLines ++ [unchanged], newLines := builder.newLines ++ [unchanged] }
  | _ =>
    { builder with
      oldLines := builder.oldLines ++ [changeLine], newLines := builder.newLines ++ [changeLine] }

/-- The body of an Update File hunk from line `index` on, in the state of the source's loop:
the finished chunks, the current chunk and whether `*** End of File` was seen. -/
def updateFileBody (index : Nat) (chunks : List UpdateFileChunk) (current : Option ChunkBuilder)
    (eofSeen : Bool) : List Text → Except PatchParseError (List UpdateFileChunk)
  | [] => closeChunk chunks current (index + 1)
  | changeLine :: rest =>
    let changeTrimmed := trim changeLine
    if startsWith moveToMarker changeTrimmed then
      .error (.invalidHunk (index + 1) "Move to must appear directly after Update File".toList)
    else if changeTrimmed = eofMarker then
      match current with
      | none => .error (.invalidHunk (index + 1) "End of File must follow an update chunk".toList)
      | some builder =>
        updateFileBody (index + 1) chunks (some { builder with isEndOfFile := true }) true rest
    else if eofSeen then
      .error
        (.invalidHunk (index + 1) "End of File must be the last line in an update hunk".toList)
    else if changeTrimmed = "@@".toList ∨ startsWith "@@ ".toList changeTrimmed then do
      let chunks ← closeChunk chunks current (index + 1)
      let context := (stripPrefix "@@ ".toList changeTrimmed).filter (· ≠ [])
      updateFileBody (index + 1) chunks (some { changeContext := context }) eofSeen rest
    else
      updateFileBody (index + 1) chunks (some ((current.getD {}).pushLine changeLine)) eofSeen rest

/-! ## Documents -/

/-- The optional Move to line directly after an Update File line: the destination and the
lines after it. -/
def moveTarget (index : Nat) : List Text → Except PatchParseError (Option Text × List Text)
  | [] => .ok (none, [])
  | line :: rest =>
    if startsWith moveToMarker (trim line) then do
      let (destination, _) ← markerPath (trim line) moveToMarker (index + 1)
      return (some destination, rest)
    else .ok (none, line :: rest)

theorem markerPath_eq_ok {line marker : Text} {lineNumber : Nat} {found : Text × Nat} :
    markerPath line marker lineNumber = .ok found ↔
      markerArgument marker line = some found.1 ∧ found.2 = lineNumber := by
  unfold markerPath
  cases markerArgument marker line with
  | none => simp
  | some path => cases found; simp [eq_comm]

/-- Either there is no Move to line and nothing is consumed, or the first line is one. -/
theorem moveTarget_cases {index : Nat} {body next : List Text} {destination : Option Text}
    (h : moveTarget index body = .ok (destination, next)) :
    (destination = none ∧ next = body ∧
        ∀ line ∈ body.head?, startsWith moveToMarker (trim line) = false) ∨
      ∃ line path, body = line :: next ∧ destination = some path ∧
        markerArgument moveToMarker (trim line) = some path := by
  cases body with
  | nil =>
    obtain ⟨rfl, rfl⟩ := Prod.mk.inj (Except.ok.inj h)
    exact .inl ⟨rfl, rfl, by simp⟩
  | cons line rest =>
    simp only [moveTarget] at h
    split at h
    · obtain ⟨found, path, result⟩ := bind_eq_ok.mp h
      obtain ⟨rfl, rfl⟩ := Prod.mk.inj (pure_eq_ok.mp result)
      exact .inr ⟨line, found.1, rfl, rfl, (markerPath_eq_ok.mp path).1⟩
    · rename_i plain
      obtain ⟨rfl, rfl⟩ := Prod.mk.inj (Except.ok.inj h)
      exact .inl ⟨rfl, rfl, by simpa using plain⟩

theorem moveTarget_length {index : Nat} {body next : List Text} {destination : Option Text}
    (h : moveTarget index body = .ok (destination, next)) : next.length ≤ body.length := by
  rcases moveTarget_cases h with ⟨-, rfl, -⟩ | ⟨line, path, rfl, -, -⟩
  · exact Nat.le_refl _
  · simp

/-- The loop of `parse_patch` over the lines from `index` up to the last one. -/
def parseHunks (index : Nat) : List Text → Except PatchParseError (List PatchHunk)
  | [] => .ok []
  | line :: rest =>
    let trimmed := trim line
    if startsWith addFileMarker trimmed then do
      let (path, headerLine) ← markerPath trimmed addFileMarker (index + 1)
      let body := rest.takeWhile isBodyLine
      let (contents, count) ← addFileBody (index + 1) body
      if count = 0 then
        .error (.invalidHunk headerLine
          ("Add file hunk for path '".toList ++ path ++ "' is empty".toList))
      else
        let hunks ← parseHunks (index + 1 + body.length) (rest.dropWhile isBodyLine)
        return .addFile path contents :: hunks
    else if startsWith deleteFileMarker trimmed then do
      let (path, _) ← markerPath trimmed deleteFileMarker (index + 1)
      if rest.head?.any isBodyLine then
        .error (.invalidHunk (index + 2) "Delete file hunk must not contain change lines".toList)
      else
        let hunks ← parseHunks (index + 1) rest
        return .deleteFile path :: hunks
    else if startsWith updateFileMarker trimmed then do
      let (path, headerLine) ← markerPath trimmed updateFileMarker (index + 1)
      match moved : moveTarget (index + 1) rest with
      | .error e => .error e
      | .ok (movePath, afterMove) =>
        let bodyIndex := index + 1 + (rest.length - afterMove.length)
        let body := afterMove.takeWhile isBodyLine
        let chunks ← updateFileBody bodyIndex [] none false body
        if chunks.isEmpty then
          .error (.invalidHunk headerLine
            ("Update file hunk for path '".toList ++ path ++ "' is empty".toList))
        else
          have : (afterMove.dropWhile isBodyLine).length ≤ rest.length :=
            Nat.le_trans (List.length_dropWhile_le _ _) (moveTarget_length moved)
          let hunks ← parseHunks (bodyIndex + body.length) (afterMove.dropWhile isBodyLine)
          return .updateFile path movePath chunks :: hunks
    else
      .error (.invalidHunk (index + 1) ("unexpected patch marker '".toList ++ line ++ "'".toList))
  termination_by patchLines => patchLines.length
  decreasing_by
    all_goals simp only [List.length_cons]
    · exact Nat.lt_succ_of_le (List.length_dropWhile_le _ _)
    · exact Nat.lt_succ_self _
    · exact Nat.lt_succ_of_le this

/-- `parse_patch`. -/
def parsePatch (patch : Text) : Except PatchParseError (List PatchHunk) :=
  if patch = [] then .error (.invalidPatch "patch must not be empty".toList)
  else if byteLength patch > maxPatchBytes then
    .error (.invalidPatch "patch exceeds the 2097152-byte input limit".toList)
  else do
    let documentLines := unwrapHeredoc (patchLines patch)
    validatePatchBoundaries documentLines
    parseHunks 1 documentLines.tail.dropLast

/-! ## The files of an accepted document -/

/-- The file named on a marker line, for any of the four markers that name one. -/
def markedPath (line : Text) : Option Text :=
  [addFileMarker, deleteFileMarker, updateFileMarker, moveToMarker].findSome?
    (markerArgument · line)

theorem markedPath_append_blank (line : Text) {tail : Text} (blank : Blank tail) :
    markedPath (line ++ tail) = markedPath line := by
  simp only [markedPath, markerArgument_append_blank _ _ blank]

/-- On a line that does not start with white space, trimming changes nothing. -/
theorem markedPath_trim {line : Text} (flush : trimStart line = line) :
    markedPath (trim line) = markedPath line := by
  obtain ⟨tail, split, blank⟩ := trim_split flush
  conv_rhs => rw [split, markedPath_append_blank _ blank]

/-- Only a line that starts with its marker, unindented, names a file as it stands. -/
theorem trimStart_of_markedPath {line path : Text} (h : markedPath line = some path) :
    trimStart line = line := by
  obtain ⟨marker, mem, argument⟩ := List.exists_of_findSome?_eq_some h
  obtain ⟨rest', shape⟩ : ∃ rest', marker = '*' :: rest' := by
    simp only [List.mem_cons, List.not_mem_nil, or_false] at mem
    rcases mem with rfl | rfl | rfl | rfl <;> exact ⟨_, rfl⟩
  obtain ⟨rest, rfl, -, -⟩ := markerArgument_eq_some_iff.mp argument
  subst shape
  exact (flush_of_starts_visible (by decide) ⟨rest, rfl⟩).1

theorem markerArgument_eq_none {marker line : Text} (h : startsWith marker line = false) :
    markerArgument marker line = none := by
  simp only [startsWith, Option.isSome_eq_false_iff, Option.isNone_iff_eq_none] at h
  simp [markerArgument, h]

/-- A line inside a hunk body names no file unless it is a Move to line. -/
theorem markedPath_of_isBodyLine {line : Text} (body : isBodyLine line = true)
    (notMove : startsWith moveToMarker (trim line) = false) : markedPath (trim line) = none := by
  simp only [isBodyLine, isFileMarker, Bool.not_eq_true', Bool.or_eq_false_iff] at body
  obtain ⟨⟨⟨add, delete⟩, update⟩, -⟩ := body
  simp [markedPath, markerArgument_eq_none add, markerArgument_eq_none delete,
    markerArgument_eq_none update, markerArgument_eq_none notMove]

theorem trim_ne_endPatchMarker_of_isBodyLine {line : Text} (body : isBodyLine line = true) :
    trim line ≠ endPatchMarker := by
  intro h
  simp [isBodyLine, isFileMarker, h] at body

/-- Added content starts with `+`, so no line of an accepted Add File body is a marker. -/
theorem addFileBody_no_move {index : Nat} {body : List Text} {found : Text × Nat}
    (h : addFileBody index body = .ok found) :
    ∀ line ∈ body, startsWith moveToMarker (trim line) = false := by
  induction body generalizing index found with
  | nil => simp
  | cons addLine rest ih =>
    simp only [addFileBody] at h
    cases strip : stripPrefix ['+'] addLine with
    | none => simp [strip] at h
    | some content =>
      simp only [strip] at h
      obtain ⟨tail, ok, -⟩ := bind_eq_ok.mp h
      obtain ⟨rest', trimmed⟩ : ∃ rest', trim addLine = '+' :: rest' := by
        have visible : isWhitespace '+' = false := by decide
        rw [stripPrefix_eq_some_iff.mp strip]
        exact trim_cons_of_visible visible
      refine List.forall_mem_cons.mpr ⟨?_, ih ok⟩
      rw [trimmed]
      rfl

/-- A Move to line inside an update body is an error. -/
theorem updateFileBody_no_move {index : Nat} {chunks found : List UpdateFileChunk}
    {current : Option ChunkBuilder} {eofSeen : Bool} {body : List Text}
    (h : updateFileBody index chunks current eofSeen body = .ok found) :
    ∀ line ∈ body, startsWith moveToMarker (trim line) = false := by
  induction body generalizing index chunks current eofSeen with
  | nil => simp
  | cons changeLine rest ih =>
    simp only [updateFileBody] at h
    split at h
    · cases h
    · rename_i notMove
      refine List.forall_mem_cons.mpr ⟨by simpa using notMove, ?_⟩
      split at h
      · cases current with
        | none => cases h
        | some builder => exact ih h
      · split at h
        · cases h
        · split at h
          · obtain ⟨_, -, ok⟩ := bind_eq_ok.mp h
            exact ih ok
          · exact ih h

private theorem filterMap_body_eq_nil {body : List Text}
    (noMove : ∀ line ∈ body.takeWhile isBodyLine, startsWith moveToMarker (trim line) = false) :
    (body.takeWhile isBodyLine).filterMap (fun line => markedPath (trim line)) = [] := by
  rw [List.filterMap_eq_nil_iff]
  exact fun line mem => markedPath_of_isBodyLine (List.mem_takeWhile_imp mem) (noMove line mem)

/-- What one round of the parser's loop reads: a hunk whose files are the files named on the
lines it consumes, none of which is the end marker. -/
structure HunkRead (hunk : PatchHunk) (consumed : List Text) : Prop where
  touched : hunk.touchedPaths = consumed.filterMap (fun line => markedPath (trim line))
  no_end : ∀ line ∈ consumed, trim line ≠ endPatchMarker

private theorem ne_endPatchMarker_of_startsWith {marker line : Text}
    (marked : startsWith marker line = true)
    (foreign : startsWith marker endPatchMarker = false) : line ≠ endPatchMarker := by
  rintro rfl
  rw [marked] at foreign
  cases foreign

private theorem no_end_of_body {body : List Text} :
    ∀ line ∈ body.takeWhile isBodyLine, trim line ≠ endPatchMarker :=
  fun _ mem => trim_ne_endPatchMarker_of_isBodyLine (List.mem_takeWhile_imp mem)

/-- A header line followed by a body without a Move to line touches the header's file. -/
private theorem hunkRead_of_body {hunk : PatchHunk} {line path : Text} {body : List Text}
    (touched : hunk.touchedPaths = [path]) (marked : markedPath (trim line) = some path)
    (lineEnd : trim line ≠ endPatchMarker)
    (noMove : ∀ line ∈ body.takeWhile isBodyLine, startsWith moveToMarker (trim line) = false) :
    HunkRead hunk (line :: body.takeWhile isBodyLine) where
  touched := by rw [touched, List.filterMap_cons, marked, filterMap_body_eq_nil noMove]
  no_end := List.forall_mem_cons.mpr ⟨lineEnd, no_end_of_body⟩

theorem markedPath_of_moveTo {line path : Text}
    (h : markerArgument moveToMarker line = some path) : markedPath line = some path := by
  obtain ⟨rest, rfl, -, -⟩ := markerArgument_eq_some_iff.mp h
  have add : startsWith addFileMarker (moveToMarker ++ rest) = false := rfl
  have delete : startsWith deleteFileMarker (moveToMarker ++ rest) = false := rfl
  have update : startsWith updateFileMarker (moveToMarker ++ rest) = false := rfl
  simp [markedPath, markerArgument_eq_none add, markerArgument_eq_none delete,
    markerArgument_eq_none update, h]

/-- The Move to line directly after an Update File line adds its destination. -/
private theorem hunkRead_of_move {path target line moveLine : Text} {body : List Text}
    {chunks : List UpdateFileChunk} (marked : markedPath (trim line) = some path)
    (lineEnd : trim line ≠ endPatchMarker)
    (found : markerArgument moveToMarker (trim moveLine) = some target)
    (noMove : ∀ line ∈ body.takeWhile isBodyLine, startsWith moveToMarker (trim line) = false) :
    HunkRead (.updateFile path (some target) chunks)
      (line :: moveLine :: body.takeWhile isBodyLine) where
  touched := by
    rw [List.filterMap_cons, marked, List.filterMap_cons, markedPath_of_moveTo found,
      filterMap_body_eq_nil noMove]
    rfl
  no_end := by
    obtain ⟨rest, shape, -, -⟩ := markerArgument_eq_some_iff.mp found
    have moveEnd : trim moveLine ≠ endPatchMarker :=
      ne_endPatchMarker_of_startsWith (startsWith_iff.mpr ⟨rest, shape.symm⟩) (by decide)
    exact List.forall_mem_cons.mpr ⟨lineEnd, List.forall_mem_cons.mpr ⟨moveEnd, no_end_of_body⟩⟩

/-- One round of the loop: a hunk is read from a non-empty stretch of lines and the loop
goes on behind them. -/
theorem parseHunks_step {index : Nat} {line : Text} {rest : List Text} {hunks : List PatchHunk}
    (h : parseHunks index (line :: rest) = .ok hunks) :
    ∃ hunk hunks' consumed next index', hunks = hunk :: hunks' ∧ rest = consumed ++ next ∧
      HunkRead hunk (line :: consumed) ∧ parseHunks index' next = .ok hunks' := by
  rw [parseHunks] at h
  simp only at h
  split at h
  · rename_i isAdd
    obtain ⟨⟨path, headerLine⟩, header, h⟩ := bind_eq_ok.mp h
    obtain ⟨⟨contents, count⟩, bodyOk, h⟩ := bind_eq_ok.mp h
    split at h
    · cases h
    · obtain ⟨hunks', tail, result⟩ := bind_eq_ok.mp h
      refine ⟨.addFile path contents, hunks', _, _, _, (pure_eq_ok.mp result).symm,
        List.takeWhile_append_dropWhile.symm, ?_, tail⟩
      refine hunkRead_of_body rfl ?_ (ne_endPatchMarker_of_startsWith isAdd (by decide))
        (addFileBody_no_move bodyOk)
      simp [markedPath, (markerPath_eq_ok.mp header).1]
  · rename_i notAdd
    have notAdd := markerArgument_eq_none (Bool.eq_false_iff.mpr notAdd)
    split at h
    · rename_i isDelete
      obtain ⟨⟨path, headerLine⟩, header, h⟩ := bind_eq_ok.mp h
      split at h
      · cases h
      · obtain ⟨hunks', tail, result⟩ := bind_eq_ok.mp h
        refine ⟨.deleteFile path, hunks', [], rest, _, (pure_eq_ok.mp result).symm, rfl, ?_, tail⟩
        have marked : markedPath (trim line) = some path := by
          simp [markedPath, notAdd, (markerPath_eq_ok.mp header).1]
        have lineEnd := ne_endPatchMarker_of_startsWith isDelete (by decide)
        have noMove : ∀ line ∈ [].takeWhile isBodyLine,
            startsWith moveToMarker (trim line) = false := by simp
        exact hunkRead_of_body rfl marked lineEnd noMove
    · rename_i notDelete
      have notDelete := markerArgument_eq_none (Bool.eq_false_iff.mpr notDelete)
      split at h
      · rename_i isUpdate
        obtain ⟨⟨path, headerLine⟩, header, h⟩ := bind_eq_ok.mp h
        have marked : markedPath (trim line) = some path := by
          simp [markedPath, notAdd, notDelete, (markerPath_eq_ok.mp header).1]
        have lineEnd := ne_endPatchMarker_of_startsWith isUpdate (by decide)
        split at h
        · cases h
        · rename_i movePath afterMove moved
          obtain ⟨chunks, bodyOk, h⟩ := bind_eq_ok.mp h
          split at h
          · cases h
          · obtain ⟨hunks', tail, result⟩ := bind_eq_ok.mp h
            have noMove := updateFileBody_no_move bodyOk
            rcases moveTarget_cases moved with ⟨rfl, rfl, -⟩ | ⟨moveLine, target, rfl, rfl, found⟩
            · exact ⟨.updateFile path none chunks, hunks', _, _, _, (pure_eq_ok.mp result).symm,
                List.takeWhile_append_dropWhile.symm, hunkRead_of_body rfl marked lineEnd noMove,
                tail⟩
            · refine ⟨.updateFile path (some target) chunks, hunks',
                moveLine :: afterMove.takeWhile isBodyLine, _, _,
                (pure_eq_ok.mp result).symm, ?_, ?_, tail⟩
              · rw [List.cons_append, List.takeWhile_append_dropWhile]
              · exact hunkRead_of_move marked lineEnd found noMove
      · cases h

/-- The files of the hunks are the files named on the marker lines of the document, in
order: the parser reads every trimmed marker line and touches nothing else. -/
theorem parseHunks_read {index : Nat} {document : List Text} {hunks : List PatchHunk}
    (h : parseHunks index document = .ok hunks) :
    hunks.flatMap PatchHunk.touchedPaths =
        document.filterMap (fun line => markedPath (trim line)) ∧
      ∀ line ∈ document, trim line ≠ endPatchMarker := by
  induction size : document.length using Nat.strong_induction_on
    generalizing index document hunks with
  | _ size ih =>
    cases document with
    | nil => simp_all [parseHunks]
    | cons line rest =>
      obtain ⟨hunk, hunks', consumed, next, index', rfl, rfl, read, tail⟩ := parseHunks_step h
      obtain ⟨touched, noEnd⟩ := ih next.length (by simp at size; omega) tail rfl
      constructor
      · rw [List.flatMap_cons, read.touched, touched, ← List.cons_append, List.filterMap_append]
      · rw [← List.cons_append]
        exact List.forall_mem_append.mpr ⟨read.no_end, noEnd⟩

/-- The lines between the first and the last line of a document. -/
def patchInterior (patch : Text) : List Text := (patchLines patch).tail.dropLast

/-- A document whose own first line is the begin marker is never taken for a heredoc. -/
theorem unwrapHeredoc_of_begin {document : List Text} {first : Text}
    (head : document.head? = some first) (begins : trim first = beginPatchMarker) :
    unwrapHeredoc document = document := by
  unfold unwrapHeredoc
  split
  · rfl
  · match document with
    | [] => rfl
    | [_] => rfl
    | opener :: second :: rest =>
      cases head
      have foreign : beginPatchMarker ∉ heredocOpeners := by decide
      simp [begins, foreign]

theorem validatePatchBoundaries_eq_ok {document : List Text}
    (h : validatePatchBoundaries document = .ok ()) :
    ∃ first last, document.head? = some first ∧ document.getLast? = some last ∧
      trim first = beginPatchMarker ∧ trim last = endPatchMarker := by
  unfold validatePatchBoundaries at h
  cases head : document.head? with
  | none => simp [head] at h
  | some first =>
    cases final : document.getLast? with
    | none => simp_all [List.getLast?_eq_none_iff]
    | some last =>
      simp only [head, final] at h
      split at h
      · cases h
      · rename_i begins
        split at h
        · cases h
        · rename_i ends
          exact ⟨first, last, rfl, rfl, not_not.mp begins, not_not.mp ends⟩

/-- What acceptance says about a patch whose first line is the begin marker: its last line is
the end marker, no line between them is, and the hunks touch the files named there. -/
theorem parsePatch_read {patch first : Text} {hunks : List PatchHunk}
    (head : (patchLines patch).head? = some first) (begins : trim first = beginPatchMarker)
    (h : parsePatch patch = .ok hunks) :
    (∀ last ∈ (patchLines patch).getLast?, trim last = endPatchMarker) ∧
      (∀ line ∈ patchInterior patch, trim line ≠ endPatchMarker) ∧
      hunks.flatMap PatchHunk.touchedPaths =
        (patchInterior patch).filterMap (fun line => markedPath (trim line)) := by
  unfold parsePatch at h
  split at h
  · cases h
  · split at h
    · cases h
    · obtain ⟨_, valid, parsed⟩ := bind_eq_ok.mp h
      rw [unwrapHeredoc_of_begin head begins] at valid parsed
      obtain ⟨-, last, -, final, -, ends⟩ := validatePatchBoundaries_eq_ok valid
      obtain ⟨touched, noEnd⟩ := parseHunks_read parsed
      refine ⟨fun other mem => ?_, noEnd, touched⟩
      rw [final] at mem
      rw [← Option.mem_some.mp mem, ends]

end Foco.ApplyPatch
