import Foco.FileResolution
import Foco.PatchLockCoverage
import Foco.ToolPlanning

/-!
Whether two file tool calls that reach one file hold conflicting file locks. The lock
of a call is made from the text of its path argument alone, the file from the text and
the workspace, so the two agree on the paths that name a file one way only: relative to
the workspace, without `..`. Two spellings of one file that are not alike are two locks.
-/
namespace Foco.PathLockAgreement
open Foco.RustText Foco.ApplyPatch Foco.ToolLocks Foco.ToolPlanning Foco.PatchLockCoverage
open Foco.UnixPath (FileSystem isAbsolute components parentDir)
open Foco.FileResolution

/-! ## Lock keys -/

/-- Two path texts with the same parts between slashes or backslashes, up to ASCII case and
without empty and `.` parts. -/
def SpelledAlike (first second : Text) : Prop :=
  (workspacePathParts first).map toAsciiLowercase =
    (workspacePathParts second).map toAsciiLowercase

instance (first second : Text) : Decidable (SpelledAlike first second) :=
  inferInstanceAs (Decidable (_ = _))

theorem workspacePathParts_eq (path : Text) :
    workspacePathParts path = components (foldBackslashes (trim path)) := rfl

private theorem part_named {path part : Text} (mem : part ∈ workspacePathParts path) :
    part ≠ [] ∧ '/' ∉ part := by
  obtain ⟨piece, named⟩ := List.mem_filter.mp mem
  exact ⟨(of_decide_eq_true named).1, not_mem_of_mem_splitOn piece⟩

private theorem lowercase_part_named {path part : Text}
    (mem : part ∈ (workspacePathParts path).map toAsciiLowercase) : part ≠ [] ∧ '/' ∉ part := by
  obtain ⟨original, originalMem, rfl⟩ := List.mem_map.mp mem
  obtain ⟨ne, slashFree⟩ := part_named originalMem
  refine ⟨by simpa [toAsciiLowercase] using ne, fun slash => ?_⟩
  obtain ⟨c, inPart, lower⟩ := List.mem_map.mp slash
  exact slashFree (toLower_eq_slash.mp lower ▸ inPart)

/-- Two lock keys are equal exactly when their paths are spelled alike. -/
theorem normalizeWorkspacePathKey_eq_iff {first second : Text} :
    normalizeWorkspacePathKey first = normalizeWorkspacePathKey second ↔
      SpelledAlike first second := by
  have key : ∀ path, normalizeWorkspacePathKey path =
      List.intercalate ['/'] ((workspacePathParts path).map toAsciiLowercase) :=
    fun path => map_intercalate Char.toLower '/' (workspacePathParts path)
  rw [key, key]
  exact ⟨intercalate_inj (fun _ => lowercase_part_named) (fun _ => lowercase_part_named),
    fun alike => congrArg _ alike⟩

/-- A display path without outer white space has the parts of the path it was made from. -/
theorem workspacePathParts_display {path : Text}
    (flush : trim (normalizeWorkspacePathDisplay path) = normalizeWorkspacePathDisplay path) :
    workspacePathParts (normalizeWorkspacePathDisplay path) = workspacePathParts path := by
  have partFolded : ∀ part ∈ workspacePathParts path, foldBackslashes part = part := by
    intro part mem
    refine foldBackslashes_eq_self fun inPart => ?_
    exact backslash_not_mem_foldBackslashes (trim path)
      (mem_of_mem_splitOn (List.mem_filter.mp mem).1 inPart)
  have folded : foldBackslashes (normalizeWorkspacePathDisplay path) =
      normalizeWorkspacePathDisplay path := by
    refine (map_intercalate _ '/' (workspacePathParts path)).trans ?_
    exact congrArg _ ((List.map_congr_left partFolded).trans (List.map_id _))
  rw [workspacePathParts_eq, flush, folded]
  by_cases empty : workspacePathParts path = []
  · rw [normalizeWorkspacePathDisplay, empty]
    decide
  · have split : (normalizeWorkspacePathDisplay path).splitOn '/' = workspacePathParts path :=
      List.splitOn_intercalate '/' (fun part mem => (part_named mem).2) empty
    rw [components, UnixPath.pieces, split]
    exact List.filter_eq_self.mpr fun part mem => (List.mem_filter.mp mem).2

/-! ## File locks of the four file tools -/

/-- The tools that write the files they name. -/
def isWriter (toolCall : PendingToolCall) : Bool :=
  toolCall.name ∈ [writeFileToolName, editFileToolName, applyPatchToolName]

/-- The tools that name one file by a path argument. -/
def isPathTool (toolCall : PendingToolCall) : Bool :=
  toolCall.name ∈ [readFileToolName, writeFileToolName, editFileToolName]

/-- A patch whose markers the scan cannot read. -/
def Unscannable (toolCall : PendingToolCall) : Prop :=
  toolCall.name = applyPatchToolName ∧ applyPatchMarkerPaths toolCall = none

/-- The path texts that a call's file locks are made from: the path argument, or the display
paths of the unindented marker lines of a patch. -/
def announcedPaths (toolCall : PendingToolCall) : List Text :=
  if toolCall.name = applyPatchToolName then
    ((toolCall.arguments.getStr "patch").toList.flatMap unindentedMarkedPaths).map
      normalizeWorkspacePathDisplay
  else (toolCall.arguments.getStr "path").toList

/-- The access of a call's file locks. -/
def fileAccess (toolCall : PendingToolCall) : ToolResourceAccess :=
  if isWriter toolCall then .write else .read

private theorem not_fileLock_of_lease {toolName : String} {lock : ToolResourceLock}
    (mem : lock ∈ mutationLeaseLocks toolName) : isWorkspaceFileResource lock.resource = false := by
  unfold mutationLeaseLocks at mem
  split at mem
  · cases mem
  · split at mem
    · rw [List.mem_singleton.mp mem]
      rfl
    · cases mem
  · rw [List.mem_singleton.mp mem]
    rfl

private theorem mem_heldLocks_of_own {toolCall : PendingToolCall} {own : List ToolResourceLock}
    (ok : toolOwnLocks toolCall = .ok own) {lock : ToolResourceLock}
    (file : isWorkspaceFileResource lock.resource = true) :
    lock ∈ heldLocks toolCall ↔ lock ∈ own := by
  have held : heldLocks toolCall = own ++ mutationLeaseLocks toolCall.name := by
    rw [heldLocks, toolResourceLocks, ok]
    rfl
  rw [held, List.mem_append]
  refine ⟨fun mem => mem.elim id fun lease => ?_, .inl⟩
  rw [not_fileLock_of_lease lease] at file
  cases file

theorem toolOwnLocks_of_path {toolCall : PendingToolCall} {path : Text}
    (tool : isPathTool toolCall = true) (argument : toolCall.arguments.getStr "path" = some path) :
    toolOwnLocks toolCall =
      .ok [⟨.file (normalizeWorkspacePathKey path), fileAccess toolCall⟩] := by
  have required : requiredPath toolCall = .ok (normalizeWorkspacePathKey path) := by
    rw [requiredPath, argument]
  simp only [isPathTool, List.mem_cons, List.not_mem_nil, or_false, decide_eq_true_eq] at tool
  rcases tool with name | name | name
  · have reader : isWriter toolCall = false := by
      rw [isWriter, name]
      decide
    rw [toolOwnLocks, if_pos name, required, fileAccess, reader]
    rfl
  · have writer : isWriter toolCall = true := by
      rw [isWriter, name]
      decide
    have notRead : toolCall.name ≠ readFileToolName := by
      rw [name]
      decide
    rw [toolOwnLocks, if_neg notRead, if_pos (.inl name), required, fileAccess, writer]
    rfl
  · have writer : isWriter toolCall = true := by
      rw [isWriter, name]
      decide
    have notRead : toolCall.name ≠ readFileToolName := by
      rw [name]
      decide
    rw [toolOwnLocks, if_neg notRead, if_pos (.inr name), required, fileAccess, writer]
    rfl

theorem toolOwnLocks_of_patch {toolCall : PendingToolCall}
    (name : toolCall.name = applyPatchToolName) :
    toolOwnLocks toolCall = .ok (applyPatchResourceLocks toolCall) := by
  have notRead : toolCall.name ≠ readFileToolName := by
    rw [name]
    decide
  have notWrite : ¬(toolCall.name = writeFileToolName ∨ toolCall.name = editFileToolName) := by
    rw [name]
    decide
  rw [toolOwnLocks, if_neg notRead, if_neg notWrite, if_pos name]

/-! ## Calls that reach a file -/

/-- The path texts of the files a call asks its tool to read or write. -/
def namedPaths (toolCall : PendingToolCall) : List Text :=
  if toolCall.name = applyPatchToolName then
    match (toolCall.arguments.getStr "patch").map parsePatch with
    | some (.ok hunks) => hunks.flatMap PatchHunk.touchedPaths
    | _ => []
  else if isPathTool toolCall then (toolCall.arguments.getStr "path").toList
  else []

/-- The resolver of the tool of a call, applied to one of its paths. -/
def resolveNamedPath (fs : FileSystem) (workspacePath : List Text) (toolCall : PendingToolCall)
    (input : Text) : Except ToolRuntimeError (List Text) :=
  if toolCall.name = applyPatchToolName then resolvePatchTarget fs workspacePath input
  else if toolCall.name = readFileToolName then resolveInternalReadPath fs workspacePath input
  else if toolCall.name = writeFileToolName then resolveWorkspaceWritePath fs workspacePath input
  else resolveWorkspacePath fs workspacePath input

/-- A call reaches a file by one of its path texts, as its own resolver reads it. -/
structure Reaches (fs : FileSystem) (workspacePath : List Text) (toolCall : PendingToolCall)
    (input : Text) (file : List Text) : Prop where
  named : input ∈ namedPaths toolCall
  resolved : resolveNamedPath fs workspacePath toolCall input = .ok file

/-- Two calls hold conflicting locks on workspace files. -/
def FileLocksConflict (first second : PendingToolCall) : Prop :=
  ∃ firstLock ∈ heldLocks first, ∃ secondLock ∈ heldLocks second,
    isWorkspaceFileResource firstLock.resource = true ∧
      isWorkspaceFileResource secondLock.resource = true ∧
      toolResourceLocksConflict firstLock secondLock = true

/-- Two calls announce some path alike, or one of them locks the whole workspace because its
patch markers cannot be read. -/
def AnnouncedAlike (first second : PendingToolCall) : Prop :=
  Unscannable first ∨ Unscannable second ∨
    ∃ firstPath ∈ announcedPaths first, ∃ secondPath ∈ announcedPaths second,
      SpelledAlike firstPath secondPath

/-- A call that names a file is an accepted patch or a path tool with a path argument. -/
theorem namedPaths_cases {toolCall : PendingToolCall} {input : Text}
    (named : input ∈ namedPaths toolCall) :
    (toolCall.name = applyPatchToolName ∧ ∃ patch hunks,
        toolCall.arguments.getStr "patch" = some patch ∧ parsePatch patch = .ok hunks ∧
        input ∈ hunks.flatMap PatchHunk.touchedPaths) ∨
      (toolCall.name ≠ applyPatchToolName ∧ isPathTool toolCall = true ∧
        toolCall.arguments.getStr "path" = some input) := by
  unfold namedPaths at named
  split at named
  · rename_i name
    split at named
    · rename_i hunks parsed
      obtain ⟨patch, argument, parsed⟩ := Option.map_eq_some_iff.mp parsed
      exact .inl ⟨name, patch, hunks, argument, parsed, named⟩
    · cases named
  · rename_i notPatch
    split at named
    · rename_i tool
      exact .inr ⟨notPatch, tool, Option.mem_toList.mp named⟩
    · cases named

/-- The file locks of a call that names a file. -/
theorem mem_fileLocks_iff {toolCall : PendingToolCall} {input : Text}
    (named : input ∈ namedPaths toolCall) {lock : ToolResourceLock}
    (file : isWorkspaceFileResource lock.resource = true) :
    lock ∈ heldLocks toolCall ↔
      (Unscannable toolCall ∧ lock = ⟨.workspaceFiles, .write⟩) ∨
        (¬Unscannable toolCall ∧ ∃ path ∈ announcedPaths toolCall,
          lock = ⟨.file (normalizeWorkspacePathKey path), fileAccess toolCall⟩) := by
  rcases namedPaths_cases named with ⟨name, patch, hunks, argument, parsed, -⟩ |
    ⟨notPatch, tool, argument⟩
  · have writer : fileAccess toolCall = .write := by
      rw [fileAccess, isWriter, name]
      decide
    rw [mem_heldLocks_of_own (toolOwnLocks_of_patch name) file, applyPatchResourceLocks,
      announcedPaths, if_pos name, Unscannable, writer, argument]
    cases scan : applyPatchMarkerPaths toolCall with
    | none => simp [name]
    | some paths =>
      rw [applyPatchMarkerPaths, argument, Option.bind_some] at scan
      have announced := mem_markerPaths_iff parsed scan
      simp only [List.mem_map, announced, Option.toList_some, List.flatMap_singleton,
        reduceCtorEq, and_false, false_and, not_false_eq_true, true_and, false_or]
      simp only [eq_comm (a := lock)]
  · rw [mem_heldLocks_of_own (toolOwnLocks_of_path tool argument) file, announcedPaths,
      if_neg notPatch, argument, Unscannable]
    simp [notPatch]

/-- A call that names a file holds some file lock. -/
theorem exists_fileLock {toolCall : PendingToolCall} {input : Text}
    (named : input ∈ namedPaths toolCall) :
    ∃ lock ∈ heldLocks toolCall, isWorkspaceFileResource lock.resource = true := by
  by_cases unscannable : Unscannable toolCall
  · have file : isWorkspaceFileResource .workspaceFiles = true := rfl
    exact ⟨⟨.workspaceFiles, .write⟩, (mem_fileLocks_iff named file).mpr (.inl ⟨unscannable, rfl⟩),
      file⟩
  · obtain ⟨path, announced⟩ : ∃ path, path ∈ announcedPaths toolCall := by
      rcases namedPaths_cases named with ⟨name, patch, hunks, argument, parsed, -⟩ |
        ⟨notPatch, tool, argument⟩
      · cases scan : applyPatchMarkerPaths toolCall with
        | none => exact absurd ⟨name, scan⟩ unscannable
        | some paths =>
          rw [applyPatchMarkerPaths, argument, Option.bind_some] at scan
          obtain ⟨path, mem⟩ := List.exists_mem_of_ne_nil paths (patchMarkerPaths_ne_nil scan)
          obtain ⟨marked, markedMem, same⟩ := (mem_markerPaths_iff parsed scan path).mp mem
          refine ⟨path, ?_⟩
          rw [announcedPaths, if_pos name, argument]
          exact List.mem_map.mpr ⟨marked, by simpa using markedMem, same⟩
      · exact ⟨input, by simp [announcedPaths, notPatch, argument]⟩
    have file : isWorkspaceFileResource (.file (normalizeWorkspacePathKey path)) = true := rfl
    exact ⟨⟨.file _, fileAccess toolCall⟩,
      (mem_fileLocks_iff named file).mpr (.inr ⟨unscannable, path, announced, rfl⟩), file⟩

private theorem conflict_of_workspace_write {lock : ToolResourceLock}
    (file : isWorkspaceFileResource lock.resource = true) :
    toolResourceLocksConflict ⟨.workspaceFiles, .write⟩ lock = true := by
  obtain ⟨resource, access⟩ := lock
  cases resource <;> cases access <;>
    simp_all [isWorkspaceFileResource, toolResourceLocksConflict, resourcesOverlap, accessesConflict]

theorem FileLocksConflict.symm {first second : PendingToolCall}
    (h : FileLocksConflict first second) : FileLocksConflict second first := by
  obtain ⟨firstLock, firstHeld, secondLock, secondHeld, firstFile, secondFile, conflict⟩ := h
  refine ⟨secondLock, secondHeld, firstLock, firstHeld, secondFile, firstFile, ?_⟩
  rw [toolResourceLocksConflict_comm]
  exact conflict

private theorem conflict_of_unscannable {first second : PendingToolCall} {input other : Text}
    (firstNamed : input ∈ namedPaths first) (secondNamed : other ∈ namedPaths second)
    (unscannable : Unscannable first) : FileLocksConflict first second := by
  obtain ⟨lock, held, file⟩ := exists_fileLock secondNamed
  have workspace : ⟨.workspaceFiles, .write⟩ ∈ heldLocks first :=
    (mem_fileLocks_iff firstNamed rfl).mpr (.inl ⟨unscannable, rfl⟩)
  exact ⟨_, workspace, lock, held, rfl, file, conflict_of_workspace_write file⟩

private theorem accessesConflict_of_writer {first second : PendingToolCall}
    (writer : isWriter first = true ∨ isWriter second = true) :
    accessesConflict (fileAccess first) (fileAccess second) = true := by
  unfold fileAccess
  rcases writer with writer | writer <;> rw [writer]
  · cases isWriter second <;> rfl
  · cases isWriter first <;> rfl

/-- Two calls that name files, one of them a writer, hold conflicting file locks exactly when
they announce some path alike. -/
theorem fileLocksConflict_iff {first second : PendingToolCall} {input other : Text}
    (firstNamed : input ∈ namedPaths first) (secondNamed : other ∈ namedPaths second)
    (writer : isWriter first = true ∨ isWriter second = true) :
    FileLocksConflict first second ↔ AnnouncedAlike first second := by
  constructor
  · rintro ⟨firstLock, firstHeld, secondLock, secondHeld, firstFile, secondFile, conflict⟩
    rcases (mem_fileLocks_iff firstNamed firstFile).mp firstHeld with
      ⟨unscannable, -⟩ | ⟨-, firstPath, firstMem, rfl⟩
    · exact .inl unscannable
    rcases (mem_fileLocks_iff secondNamed secondFile).mp secondHeld with
      ⟨unscannable, -⟩ | ⟨-, secondPath, secondMem, rfl⟩
    · exact .inr (.inl unscannable)
    · simp only [toolResourceLocksConflict, resourcesOverlap, Bool.and_eq_true, beq_iff_eq]
        at conflict
      exact .inr (.inr ⟨firstPath, firstMem, secondPath, secondMem,
        normalizeWorkspacePathKey_eq_iff.mp conflict.1⟩)
  · intro alike
    by_cases firstScan : Unscannable first
    · exact conflict_of_unscannable firstNamed secondNamed firstScan
    by_cases secondScan : Unscannable second
    · exact (conflict_of_unscannable secondNamed firstNamed secondScan).symm
    rcases alike with unscannable | unscannable | ⟨firstPath, firstMem, secondPath, secondMem, alike⟩
    · exact absurd unscannable firstScan
    · exact absurd unscannable secondScan
    · have sameKey := normalizeWorkspacePathKey_eq_iff.mpr alike
      refine ⟨⟨.file (normalizeWorkspacePathKey firstPath), fileAccess first⟩, ?_,
        ⟨.file (normalizeWorkspacePathKey secondPath), fileAccess second⟩, ?_, rfl, rfl, ?_⟩
      · exact (mem_fileLocks_iff firstNamed rfl).mpr (.inr ⟨firstScan, firstPath, firstMem, rfl⟩)
      · exact (mem_fileLocks_iff secondNamed rfl).mpr
          (.inr ⟨secondScan, secondPath, secondMem, rfl⟩)
      · simp [toolResourceLocksConflict, resourcesOverlap, sameKey,
          accessesConflict_of_writer writer]

/-! ## Plain paths -/

/-- A path that names its file one way only: relative and without `..`, and in a patch on an
unindented marker line, without backslashes and without outer white space in its names. -/
structure NamesPlainly (toolCall : PendingToolCall) (input : Text) : Prop where
  plain : PlainArgument input
  patch : toolCall.name = applyPatchToolName →
    '\\' ∉ trim input ∧
      trim (normalizeWorkspacePathDisplay input) = normalizeWorkspacePathDisplay input ∧
      ∃ patch, toolCall.arguments.getStr "patch" = some patch ∧ input ∈ unindentedMarkedPaths patch

/-- A plainly named file is the workspace followed by the parts of the path. -/
theorem file_of_namesPlainly {fs : FileSystem} {workspacePath file : List Text}
    {toolCall : PendingToolCall} {input : Text}
    (reaches : Reaches fs workspacePath toolCall input file)
    (plainly : NamesPlainly toolCall input) :
    InWorkspace fs workspacePath file (workspacePathParts input) := by
  have resolved := reaches.resolved
  unfold resolveNamedPath at resolved
  rw [workspacePathParts_eq]
  split at resolved
  · rename_i name
    have folded := foldBackslashes_eq_self (plainly.patch name).1
    have relative := plainly.plain.1
    rw [folded] at relative ⊢
    exact resolvePatchTarget_relative relative resolved
  · split at resolved
    · exact resolveInternalReadPath_plain plainly.plain resolved
    · split at resolved
      · exact resolveWorkspaceWritePath_plain plainly.plain resolved
      · exact resolveWorkspacePath_plain plainly.plain resolved

/-- A plainly named file is announced under a text with the same parts. -/
theorem announced_of_namesPlainly {toolCall : PendingToolCall} {input : Text}
    (named : input ∈ namedPaths toolCall) (plainly : NamesPlainly toolCall input) :
    ∃ path ∈ announcedPaths toolCall, workspacePathParts path = workspacePathParts input := by
  rcases namedPaths_cases named with ⟨name, -⟩ | ⟨notPatch, -, argument⟩
  · obtain ⟨-, flush, patch, argument, unindented⟩ := plainly.patch name
    refine ⟨normalizeWorkspacePathDisplay input, ?_, workspacePathParts_display flush⟩
    rw [announcedPaths, if_pos name, argument]
    exact List.mem_map.mpr ⟨input, by simpa using unindented, rfl⟩
  · exact ⟨input, by simp [announcedPaths, notPatch, argument], rfl⟩

/-- Two plain names of one file have the same parts, so they are announced alike. -/
theorem announcedAlike_of_namesPlainly {fs : FileSystem} {workspacePath file : List Text}
    {first second : PendingToolCall} {input other : Text}
    (firstReaches : Reaches fs workspacePath first input file)
    (secondReaches : Reaches fs workspacePath second other file)
    (firstPlainly : NamesPlainly first input) (secondPlainly : NamesPlainly second other) :
    AnnouncedAlike first second := by
  obtain ⟨workspace, root, firstFile⟩ := file_of_namesPlainly firstReaches firstPlainly
  obtain ⟨workspace', root', secondFile⟩ := file_of_namesPlainly secondReaches secondPlainly
  cases root.symm.trans root'
  have sameParts : workspacePathParts input = workspacePathParts other :=
    List.append_cancel_left (firstFile.symm.trans secondFile)
  obtain ⟨firstPath, firstMem, firstParts⟩ :=
    announced_of_namesPlainly firstReaches.named firstPlainly
  obtain ⟨secondPath, secondMem, secondParts⟩ :=
    announced_of_namesPlainly secondReaches.named secondPlainly
  refine .inr (.inr ⟨firstPath, firstMem, secondPath, secondMem, ?_⟩)
  rw [SpelledAlike, firstParts, secondParts, sameParts]

/-- Two calls that reach one file, one of them a writer, hold conflicting file locks exactly
when they announce some path alike, and they do when both name the file plainly. -/
theorem file_locks_conflict_iff_announced_alike (fs : FileSystem) (workspacePath : List Text)
    (first second : PendingToolCall) (input other : Text) (file : List Text)
    (firstReaches : Reaches fs workspacePath first input file)
    (secondReaches : Reaches fs workspacePath second other file)
    (writer : isWriter first = true ∨ isWriter second = true) :
    (FileLocksConflict first second ↔ AnnouncedAlike first second) ∧
      (NamesPlainly first input → NamesPlainly second other → FileLocksConflict first second) := by
  have precise := fileLocksConflict_iff firstReaches.named secondReaches.named writer
  exact ⟨precise, fun firstPlainly secondPlainly =>
    precise.mpr (announcedAlike_of_namesPlainly firstReaches secondReaches firstPlainly
      secondPlainly)⟩

/-- A file system with the one file `/w/a`. -/
def oneFile : FileSystem where
  kind location :=
    if location = [] ∨ location = [['w']] then some .directory
    else if location = [['w'], ['a']] then some .regularFile
    else none

theorem plain_spellings_conflict :
    (FileLocksConflict (pathCall readFileToolName "./a".toList)
        (pathCall writeFileToolName "a".toList) ↔
      AnnouncedAlike (pathCall readFileToolName "./a".toList)
        (pathCall writeFileToolName "a".toList)) ∧
      (NamesPlainly (pathCall readFileToolName "./a".toList) "./a".toList →
        NamesPlainly (pathCall writeFileToolName "a".toList) "a".toList →
        FileLocksConflict (pathCall readFileToolName "./a".toList)
          (pathCall writeFileToolName "a".toList)) :=
  file_locks_conflict_iff_announced_alike oneFile [['w']] _ _ _ _ [['w'], ['a']]
    ⟨by decide, by decide⟩ ⟨by decide, by decide⟩
    (.inr (by decide))

/-- `read_file` takes the absolute path `/w/a` of the file that `write_file` calls `a`, and the
two lock keys differ. -/
theorem absolute_spelling_misses_conflict :
    ¬∀ (fs : FileSystem) (workspacePath : List Text) (first second : PendingToolCall)
        (input other : Text) (file : List Text),
      Reaches fs workspacePath first input file → Reaches fs workspacePath second other file →
      isWriter first = true ∨ isWriter second = true → FileLocksConflict first second := by
  intro conflict
  have read : Reaches oneFile [['w']] (pathCall readFileToolName "/w/a".toList) "/w/a".toList
      [['w'], ['a']] := ⟨by decide, by decide⟩
  have write : Reaches oneFile [['w']] (pathCall writeFileToolName "a".toList) "a".toList
      [['w'], ['a']] := ⟨by decide, by decide⟩
  have locks := conflict _ _ _ _ _ _ _ read write (.inr (by decide))
  rw [fileLocksConflict_iff read.named write.named (.inr (by decide))] at locks
  have notPatch : ∀ {name : String} {path : Text}, name ≠ applyPatchToolName →
      ¬Unscannable (pathCall name path) := fun ne unscannable => ne unscannable.1
  rcases locks with unscannable | unscannable | ⟨firstPath, firstMem, secondPath, secondMem, alike⟩
  · exact notPatch (by decide) unscannable
  · exact notPatch (by decide) unscannable
  · have readPath : announcedPaths (pathCall readFileToolName "/w/a".toList) = ["/w/a".toList] := by
      decide
    have writePath : announcedPaths (pathCall writeFileToolName "a".toList) = ["a".toList] := by
      decide
    rw [readPath, List.mem_singleton] at firstMem
    rw [writePath, List.mem_singleton] at secondMem
    subst firstMem secondMem
    exact absurd alike (by decide)

end Foco.PathLockAgreement
