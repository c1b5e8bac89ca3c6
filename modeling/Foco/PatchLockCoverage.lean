import Foco.ApplyPatch
import Foco.ToolLocks

/-!
Which files of an `apply_patch` document its lock set announces. The parser of
`tools/apply_patch.rs` trims a line before it looks for a marker; the marker scan
of `agent/lib.rs` looks at the line as it stands. Where both accept a document
they read the same lines between the begin and the end marker, so they differ
exactly on the indented marker lines, and the scan covers the patch exactly when
every file named on an indented marker line is also named on an unindented one.
-/
namespace Foco.PatchLockCoverage
open Foco.RustText Foco.ApplyPatch Foco.ToolLocks

/-! ## The scan on one run of lines -/

theorem pushApplyPatchMarkerPath_spec {paths paths' : List Text} {rawPath : Text}
    (h : pushApplyPatchMarkerPath paths rawPath = some paths') :
    trim rawPath ≠ [] ∧
      ∀ file, file ∈ paths' ↔ file ∈ paths ∨ file = normalizeWorkspacePathDisplay (trim rawPath) := by
  simp only [pushApplyPatchMarkerPath] at h
  split at h
  · cases h
  · rename_i named
    refine ⟨fun blank => named (.inl blank), fun file => ?_⟩
    split at h
    · cases h
    · split at h
      · rename_i known
        cases h
        exact ⟨.inl, fun mem => mem.elim id fun same => same ▸ known⟩
      · cases h
        simp

/-- The file the scan reads off one line. -/
def scannedPath (rawLine : Text) : Option Text :=
  (markedPath (trimEndMatches '\r' rawLine)).map normalizeWorkspacePathDisplay

/-- The scan does not take a line for the end marker. -/
def notEnd (rawLine : Text) : Bool := trimEndMatches '\r' rawLine ≠ endPatchMarker

private theorem markerArgument_of_strip_none {marker line : Text}
    (h : stripPrefix marker line = none) : markerArgument marker line = none := by
  simp [markerArgument, h]

private theorem markerArgument_of_strip {marker line raw : Text}
    (h : stripPrefix marker line = some raw) (named : trim raw ≠ []) :
    markerArgument marker line = some (trim raw) := by
  simp [markerArgument, h, named]

/-- Pushing the path that a marker line names adds exactly the file scanned on that line. -/
private theorem push_scanned {paths paths' : List Text} {rawLine raw : Text}
    (push : pushApplyPatchMarkerPath paths raw = some paths')
    (marked : trim raw ≠ [] → markedPath (trimEndMatches '\r' rawLine) = some (trim raw)) :
    ∀ file, file ∈ paths' ↔ file ∈ paths ∨ scannedPath rawLine = some file := by
  obtain ⟨named, mem⟩ := pushApplyPatchMarkerPath_spec push
  intro file
  rw [mem file, scannedPath, marked named, Option.map_some, Option.some.injEq, eq_comm (a := file)]

/-- One line before the end marker: the scan goes on with the file of that line added. -/
theorem scanMarkerLines_step {paths out : List Text} {activeUpdate ended : Bool} {rawLine : Text}
    {rest : List Text} (before : notEnd rawLine = true)
    (h : scanMarkerLines paths activeUpdate (rawLine :: rest) = some (out, ended)) :
    ∃ paths' activeUpdate', scanMarkerLines paths' activeUpdate' rest = some (out, ended) ∧
      ∀ file, file ∈ paths' ↔ file ∈ paths ∨ scannedPath rawLine = some file := by
  have notEndLine : trimEndMatches '\r' rawLine ≠ endPatchMarker := by simpa [notEnd] using before
  simp only [scanMarkerLines, if_neg notEndLine] at h
  cases add : stripPrefix addFileMarker (trimEndMatches '\r' rawLine) with
  | some raw =>
    simp only [add] at h
    obtain ⟨paths', push, tail⟩ := Option.bind_eq_some_iff.mp h
    refine ⟨paths', _, tail, push_scanned push fun named => ?_⟩
    simp [markedPath, markerArgument_of_strip add named]
  | none =>
    have notAdd := markerArgument_of_strip_none add
    simp only [add] at h
    cases delete : stripPrefix deleteFileMarker (trimEndMatches '\r' rawLine) with
    | some raw =>
      simp only [delete] at h
      obtain ⟨paths', push, tail⟩ := Option.bind_eq_some_iff.mp h
      refine ⟨paths', _, tail, push_scanned push fun named => ?_⟩
      simp [markedPath, notAdd, markerArgument_of_strip delete named]
    | none =>
      have notDelete := markerArgument_of_strip_none delete
      simp only [delete] at h
      cases update : stripPrefix updateFileMarker (trimEndMatches '\r' rawLine) with
      | some raw =>
        simp only [update] at h
        obtain ⟨paths', push, tail⟩ := Option.bind_eq_some_iff.mp h
        refine ⟨paths', _, tail, push_scanned push fun named => ?_⟩
        simp [markedPath, notAdd, notDelete, markerArgument_of_strip update named]
      | none =>
        have notUpdate := markerArgument_of_strip_none update
        simp only [update] at h
        cases move : stripPrefix moveToMarker (trimEndMatches '\r' rawLine) with
        | some raw =>
          simp only [move] at h
          split at h
          · obtain ⟨paths', push, tail⟩ := Option.bind_eq_some_iff.mp h
            refine ⟨paths', _, tail, push_scanned push fun named => ?_⟩
            simp [markedPath, notAdd, notDelete, notUpdate, markerArgument_of_strip move named]
          · cases h
        | none =>
          have notMove := markerArgument_of_strip_none move
          simp only [move] at h
          split at h
          · cases h
          · refine ⟨paths, activeUpdate, h, fun file => ?_⟩
            simp [scannedPath, markedPath, notAdd, notDelete, notUpdate, notMove]

theorem scanMarkerLines_end {paths : List Text} {activeUpdate : Bool} {rawLine : Text}
    (rest : List Text) (isEnd : trimEndMatches '\r' rawLine = endPatchMarker) :
    scanMarkerLines paths activeUpdate (rawLine :: rest) = some (paths, true) := if_pos isEnd

/-- The scan up to the end marker collects the files of the lines before it. -/
theorem scanMarkerLines_spec {paths out : List Text} {activeUpdate : Bool}
    {rawLines : List Text} (h : scanMarkerLines paths activeUpdate rawLines = some (out, true)) :
    (∃ line ∈ rawLines, notEnd line = false) ∧
      ∀ file, file ∈ out ↔
        file ∈ paths ∨ ∃ line ∈ rawLines.takeWhile notEnd, scannedPath line = some file := by
  induction rawLines generalizing paths activeUpdate with
  | nil => exact absurd (Prod.mk.inj (Option.some.inj h)).2 Bool.false_ne_true
  | cons rawLine rest ih =>
    by_cases before : notEnd rawLine = true
    · obtain ⟨paths', activeUpdate', tail, added⟩ := scanMarkerLines_step before h
      obtain ⟨⟨last, mem, isEnd⟩, collected⟩ := ih tail
      refine ⟨⟨last, List.mem_cons_of_mem _ mem, isEnd⟩, fun file => ?_⟩
      rw [collected, added, List.takeWhile_cons_of_pos before, List.exists_mem_cons_iff, or_assoc]
    · have isEnd : trimEndMatches '\r' rawLine = endPatchMarker := by simpa [notEnd] using before
      rw [scanMarkerLines_end rest isEnd] at h
      obtain rfl : paths = out := (Prod.mk.inj (Option.some.inj h)).1
      refine ⟨⟨rawLine, List.mem_cons_self, Bool.eq_false_iff.mpr before⟩, fun file => ?_⟩
      simp [List.takeWhile_cons_of_neg before]

/-- The scan never returns an empty list of paths. -/
theorem patchMarkerPaths_ne_nil {patch : Text} {paths : List Text}
    (h : patchMarkerPaths patch = some paths) : paths ≠ [] := by
  unfold patchMarkerPaths at h
  split at h
  · cases h
  · split at h
    · cases h
    · split at h
      · split at h
        · rename_i complete
          rw [← Option.some.inj h]
          exact complete.2
        · cases h
      · cases h

/-! ## Both readers on one document -/

private theorem whitespace_carriageReturn : isWhitespace '\r' = true := by decide

/-- A patch whose first line is the begin marker has nothing for trimming to remove in front. -/
private theorem flush_of_begin {patch first : Text} {rest : List Text}
    (split : lines patch = first :: rest) (begins : trimEndMatches '\r' first = beginPatchMarker) :
    trimStart patch = patch ∧ trim patch ≠ [] := by
  obtain ⟨firstTail, firstSplit, -⟩ := trimEndMatches_split whitespace_carriageReturn first
  have starts : beginPatchMarker <+: patch := by
    refine List.IsPrefix.trans ⟨firstTail, ?_⟩ (head_line_starts_text split)
    rw [← begins, ← firstSplit]
  obtain ⟨rest', shape⟩ : ∃ rest', beginPatchMarker = '*' :: rest' := ⟨_, rfl⟩
  rw [shape] at starts
  exact flush_of_starts_visible (by decide) starts

private theorem takeWhile_notEnd {mids more : List Text} {last : Text}
    (midsOpen : ∀ line ∈ mids, notEnd line = true) (moreOpen : ∀ line ∈ more, notEnd line = true)
    (reached : ∃ line ∈ mids ++ last :: more, notEnd line = false) :
    (mids ++ last :: more).takeWhile notEnd = mids := by
  have isEnd : notEnd last = false := by
    obtain ⟨line, mem, isEnd⟩ := reached
    rcases List.mem_append.mp mem with mem | mem
    · rw [midsOpen line mem] at isEnd
      cases isEnd
    · rcases List.mem_cons.mp mem with rfl | mem
      · exact isEnd
      · rw [moreOpen line mem] at isEnd
        cases isEnd
  rw [List.takeWhile_append_of_pos midsOpen, List.takeWhile_cons_of_neg (by simp [isEnd]),
    List.append_nil]

private theorem notEnd_of_trim {line : Text} (h : trim line ≠ endPatchMarker) :
    notEnd line = true := by
  have trimmed : trim endPatchMarker = endPatchMarker := by decide
  refine decide_eq_true fun isEnd => h ?_
  rw [← trim_trimEndMatches whitespace_carriageReturn, isEnd, trimmed]

private theorem scan_reads_interior_of_split {patch first : Text} {rest paths : List Text}
    {hunks : List PatchHunk} (flush : trimStart patch = patch) (visible : trim patch ≠ [])
    (split : lines patch = first :: rest) (firstTrim : trim first = beginPatchMarker)
    (parsed : parsePatch patch = .ok hunks)
    (scan : scanMarkerLines [] false rest = some (paths, true)) :
    ∃ rawLines : List Text, patchInterior patch = rawLines.map (stripSuffixChar '\r') ∧
      hunks.flatMap PatchHunk.touchedPaths =
        rawLines.filterMap (fun line => markedPath (trim line)) ∧
      ∀ file, file ∈ paths ↔ ∃ line ∈ rawLines, scannedPath line = some file := by
  obtain ⟨init, last, last', more, trimmedLines, allLines, lastTrim, moreBlank⟩ :=
    lines_trim flush visible
  have stripTrim := trim_stripSuffixChar whitespace_carriageReturn
  rw [split] at allLines
  cases init with
  | nil =>
    -- One visible line would have to be both the begin and the end marker.
    obtain ⟨rfl, -⟩ := List.cons.inj allLines
    have document : patchLines patch = [stripSuffixChar '\r' last] := by
      simp [patchLines, trimmedLines]
    have begins : trim (stripSuffixChar '\r' last) = beginPatchMarker := by
      rw [stripTrim, ← lastTrim, firstTrim]
    have ends : trim (stripSuffixChar '\r' last) = endPatchMarker :=
      (parsePatch_read (by rw [document]; rfl) begins parsed).1 _ (by rw [document]; rfl)
    rw [begins] at ends
    exact absurd ends (by decide)
  | cons first' mids =>
    rw [List.cons_append] at allLines
    obtain ⟨rfl, rfl⟩ := List.cons.inj allLines
    have document : patchLines patch =
        stripSuffixChar '\r' first :: (mids.map (stripSuffixChar '\r') ++
          [stripSuffixChar '\r' last]) := by
      simp [patchLines, trimmedLines]
    have interior : patchInterior patch = mids.map (stripSuffixChar '\r') := by
      simp [patchInterior, document]
    obtain ⟨-, noEnd, touched⟩ := parsePatch_read (by rw [document]; rfl)
      ((stripTrim first).trans firstTrim) parsed
    obtain ⟨reached, collected⟩ := scanMarkerLines_spec scan
    have midsOpen : ∀ line ∈ mids, notEnd line = true := fun line mem => by
      have := noEnd _ (interior ▸ List.mem_map_of_mem mem)
      rw [stripTrim] at this
      exact notEnd_of_trim this
    have moreOpen : ∀ line ∈ more, notEnd line = true := fun line mem => by
      refine notEnd_of_trim fun isEnd => ?_
      rw [trim_eq_nil_iff.mpr (moreBlank line mem)] at isEnd
      cases isEnd
    rw [takeWhile_notEnd midsOpen moreOpen reached] at collected
    refine ⟨mids, interior, ?_, fun file => by simp [collected]⟩
    rw [touched, interior, List.filterMap_map]
    simp only [Function.comp_def, stripTrim]

/-- On a document that both accept, the scan reads exactly the lines that the parser takes for
the interior of the patch. -/
theorem scan_reads_interior {patch : Text} {hunks : List PatchHunk} {paths : List Text}
    (parsed : parsePatch patch = .ok hunks) (scanned : patchMarkerPaths patch = some paths) :
    ∃ rawLines : List Text, patchInterior patch = rawLines.map (stripSuffixChar '\r') ∧
      hunks.flatMap PatchHunk.touchedPaths =
        rawLines.filterMap (fun line => markedPath (trim line)) ∧
      ∀ file, file ∈ paths ↔ ∃ line ∈ rawLines, scannedPath line = some file := by
  unfold patchMarkerPaths at scanned
  cases split : lines patch with
  | nil => simp [split] at scanned
  | cons first rest =>
    simp only [split] at scanned
    by_cases begins : trimEndMatches '\r' first = beginPatchMarker
    · rw [if_neg (not_not.mpr begins)] at scanned
      cases scan : scanMarkerLines [] false rest with
      | none => simp [scan] at scanned
      | some found =>
        obtain ⟨out, ended⟩ := found
        simp only [scan] at scanned
        split at scanned
        · rename_i complete
          obtain ⟨rfl, -⟩ := complete
          cases scanned
          obtain ⟨flush, visible⟩ := flush_of_begin split begins
          have firstTrim : trim first = beginPatchMarker := by
            rw [← trim_trimEndMatches whitespace_carriageReturn, begins]
            decide
          exact scan_reads_interior_of_split flush visible split firstTrim parsed scan
        · cases scanned
    · rw [if_pos begins] at scanned
      cases scanned

/-! ## Coverage -/

/-- The files named on the marker lines of a patch that start at the first column. -/
def unindentedMarkedPaths (patch : Text) : List Text :=
  (patchInterior patch).filterMap fun line =>
    if trimStart line = line then markedPath (trim line) else none

/-- The files named on the marker lines of a patch that white space precedes. -/
def indentedMarkedPaths (patch : Text) : List Text :=
  (patchInterior patch).filterMap fun line =>
    if trimStart line = line then none else markedPath (trim line)

/-- Every file named on an indented marker line is named on an unindented one as well. -/
def IndentedMarkersAnnounced (patch : Text) : Prop :=
  ∀ path ∈ indentedMarkedPaths patch, ∃ announced ∈ unindentedMarkedPaths patch,
    normalizeWorkspacePathDisplay announced = normalizeWorkspacePathDisplay path

theorem scannedPath_eq_some_iff {rawLine file : Text} :
    scannedPath rawLine = some file ↔
      ∃ path, (if trimStart (stripSuffixChar '\r' rawLine) = stripSuffixChar '\r' rawLine then
          markedPath (trim (stripSuffixChar '\r' rawLine)) else none) = some path ∧
        normalizeWorkspacePathDisplay path = file := by
  obtain ⟨lineTail, lineSplit, lineBlank⟩ :=
    stripSuffixChar_split whitespace_carriageReturn rawLine
  obtain ⟨scanTail, scanSplit, scanBlank⟩ :=
    trimEndMatches_split whitespace_carriageReturn rawLine
  have scanSame := markedPath_append_blank (trimEndMatches '\r' rawLine) scanBlank
  have lineSame := markedPath_append_blank (stripSuffixChar '\r' rawLine) lineBlank
  rw [← scanSplit] at scanSame
  rw [← lineSplit] at lineSame
  rw [scannedPath, ← scanSame, lineSame, Option.map_eq_some_iff]
  split
  · rename_i flush
    rw [markedPath_trim flush]
  · rename_i indented
    constructor
    · rintro ⟨path, marked, -⟩
      exact absurd (trimStart_of_markedPath marked) indented
    · rintro ⟨path, none, -⟩
      cases none

/-- On a document that both accept, the scan announces the unindented marker lines. -/
theorem mem_markerPaths_iff {patch : Text} {hunks : List PatchHunk} {paths : List Text}
    (parsed : parsePatch patch = .ok hunks) (scanned : patchMarkerPaths patch = some paths)
    (file : Text) :
    file ∈ paths ↔
      ∃ path ∈ unindentedMarkedPaths patch, normalizeWorkspacePathDisplay path = file := by
  obtain ⟨rawLines, interior, -, announced⟩ := scan_reads_interior parsed scanned
  simp only [announced, scannedPath_eq_some_iff, unindentedMarkedPaths, interior,
    List.filterMap_map, List.mem_filterMap, Function.comp_apply]
  exact ⟨fun ⟨line, mem, path, marked, same⟩ => ⟨path, ⟨line, mem, marked⟩, same⟩,
    fun ⟨path, ⟨line, mem, marked⟩, same⟩ => ⟨line, mem, path, marked, same⟩⟩

/-- On a document that both accept, the hunks touch the marker lines, indented or not. -/
theorem mem_touchedPaths_iff {patch : Text} {hunks : List PatchHunk} {paths : List Text}
    (parsed : parsePatch patch = .ok hunks) (scanned : patchMarkerPaths patch = some paths)
    (file : Text) :
    file ∈ hunks.flatMap PatchHunk.touchedPaths ↔
      file ∈ unindentedMarkedPaths patch ∨ file ∈ indentedMarkedPaths patch := by
  obtain ⟨rawLines, interior, touched, -⟩ := scan_reads_interior parsed scanned
  rw [touched, unindentedMarkedPaths, indentedMarkedPaths, interior]
  simp only [List.filterMap_map, List.mem_filterMap, Function.comp_apply,
    trim_stripSuffixChar whitespace_carriageReturn]
  constructor
  · rintro ⟨line, mem, marked⟩
    by_cases flush : trimStart (stripSuffixChar '\r' line) = stripSuffixChar '\r' line
    · exact .inl ⟨line, mem, by rw [if_pos flush, marked]⟩
    · exact .inr ⟨line, mem, by rw [if_neg flush, marked]⟩
  · rintro (⟨line, mem, marked⟩ | ⟨line, mem, marked⟩)
    · split at marked
      · exact ⟨line, mem, marked⟩
      · cases marked
    · split at marked
      · cases marked
      · exact ⟨line, mem, marked⟩

/-- The lock set of an accepted patch covers every file its hunks touch exactly when the
patch names no file on indented marker lines only. -/
theorem marker_paths_cover_touched_files_iff (toolCall : PendingToolCall) (patch : Text)
    (hunks : List PatchHunk) (paths : List Text)
    (argument : toolCall.arguments.getStr "patch" = some patch)
    (parsed : parsePatch patch = .ok hunks)
    (scanned : applyPatchMarkerPaths toolCall = some paths) :
    (∀ file ∈ hunks.flatMap PatchHunk.touchedPaths,
        normalizeWorkspacePathDisplay file ∈ paths) ↔ IndentedMarkersAnnounced patch := by
  rw [applyPatchMarkerPaths, argument, Option.bind_some] at scanned
  simp only [mem_touchedPaths_iff parsed scanned, mem_markerPaths_iff parsed scanned,
    IndentedMarkersAnnounced]
  constructor
  · exact fun covered path mem => covered path (.inr mem)
  · rintro announced file (mem | mem)
    · exact ⟨file, mem, rfl⟩
    · exact announced file mem

/-- An update of `a` whose body holds an indented Add File line for `b`. -/
def indentedAddPatch : Text :=
  "*** Begin Patch\n*** Update File: a\n@@\n-x\n+y\n *** Add File: b\n+z\n*** End Patch".toList

/-- A call that applies one patch. -/
def patchCall (patch : Text) : PendingToolCall :=
  ⟨"call", applyPatchToolName, .object [("patch", .string patch)]⟩

/-- What the parser reads in `indentedAddPatch` and in a patch without indented lines. -/
theorem parsePatch_indented_unindented :
    parsePatch indentedAddPatch = .ok [.updateFile ['a'] none [⟨none, [['x']], [['y']], false⟩],
        .addFile ['b'] ['z', '\n']] ∧
      parsePatch "*** Begin Patch\n*** Delete File: a\n*** End Patch".toList =
        .ok [.deleteFile ['a']] := by
  decide +kernel

theorem marker_paths_cover_unindented_patch :
    let patch := "*** Begin Patch\n*** Delete File: a\n*** End Patch".toList
    (∀ file ∈ [PatchHunk.deleteFile ['a']].flatMap PatchHunk.touchedPaths,
        normalizeWorkspacePathDisplay file ∈ [['a']]) ↔ IndentedMarkersAnnounced patch :=
  marker_paths_cover_touched_files_iff (patchCall _) _ _ _ rfl parsePatch_indented_unindented.2
    (by decide)

/-- The parser adds `b`, which the scan does not announce. -/
theorem marker_paths_miss_indented_file :
    ¬∀ (toolCall : PendingToolCall) (patch : Text) (hunks : List PatchHunk) (paths : List Text),
      toolCall.arguments.getStr "patch" = some patch → parsePatch patch = .ok hunks →
      applyPatchMarkerPaths toolCall = some paths →
      ∀ file ∈ hunks.flatMap PatchHunk.touchedPaths,
        normalizeWorkspacePathDisplay file ∈ paths := by
  intro covered
  have parsed := parsePatch_indented_unindented.1
  have scanned : applyPatchMarkerPaths (patchCall indentedAddPatch) = some [['a']] := by
    decide
  have missed := covered _ _ _ _ rfl parsed scanned ['b'] (by decide)
  exact absurd missed (by decide)

end Foco.PatchLockCoverage
