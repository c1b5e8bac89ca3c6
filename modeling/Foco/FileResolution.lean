import Foco.ToolLocks
import Foco.UnixPath

/-!
How the file tools turn a path argument into a location on Unix: the resolvers of
`tools/lib.rs`, `tools/file_tools.rs` and `tools/apply_patch.rs`. They differ in what
they do with backslashes and absolute paths: `read_file` and `apply_patch` take
absolute paths, and only `apply_patch` keeps a backslash as part of a name.
-/
namespace Foco.FileResolution
open Foco.RustText Foco.UnixPath
open Foco.Result (bind_eq_ok pure_eq_ok)

/-- `ToolRuntimeError`, as far as path resolution returns it. -/
inductive ToolRuntimeError where
  | invalidPath (message : Text)
  | io (kind : IoErrorKind)
  deriving DecidableEq

/-- `fs::canonicalize` with its error mapped to `ToolRuntimeError::Io`. -/
def canonicalizeOrIo (fs : FileSystem) (path : List Text) : Except ToolRuntimeError (List Text) :=
  match canonicalize fs path with
  | .ok location => .ok location
  | .error kind => .error (.io kind)

/-- `replace('\\', "/")`. -/
def foldBackslashes (path : Text) : Text := path.map fun c => if c = '\\' then '/' else c

theorem foldBackslashes_eq_self {path : Text} (h : '\\' ∉ path) : foldBackslashes path = path := by
  refine (List.map_congr_left fun c mem => ?_).trans (List.map_id path)
  exact if_neg fun (same : c = '\\') => h (same ▸ mem)

theorem backslash_not_mem_foldBackslashes (path : Text) : '\\' ∉ foldBackslashes path := by
  intro mem
  obtain ⟨c, -, same⟩ := List.mem_map.mp mem
  split at same
  · cases same
  · rename_i other
    exact other same

def emptyPathError : ToolRuntimeError := .invalidPath "path must not be empty".toList

def escapesError (path : Text) : ToolRuntimeError :=
  .invalidPath ("path escapes the workspace: ".toList ++ path)

/-- `normalize_workspace_path_text`: the component checks come before backslashes are read as
slashes. -/
def normalizeWorkspacePathText (input : Text) : Except ToolRuntimeError Text :=
  let trimmed := trim input
  if trimmed = [] then .error emptyPathError
  else if isAbsolute trimmed then
    .error (.invalidPath ("path must be relative to the workspace: ".toList ++ trimmed))
  else if parentDir ∈ components trimmed then .error (escapesError trimmed)
  else .ok (foldBackslashes trimmed)

/-- The path that `resolve_internal_read_path` makes canonical: an absolute one as it is, a
relative one after the checks of the other workspace tools. -/
def internalReadTarget (fs : FileSystem) (workspace : List Text) (trimmed : Text) :
    Except ToolRuntimeError (List Text) :=
  if isAbsolute trimmed then canonicalizeOrIo fs (pieces trimmed)
  else do
    let normalized ← normalizeWorkspacePathText trimmed
    canonicalizeOrIo fs (joinPieces workspace normalized)

/-- `resolve_internal_read_path`, for `read_file`. -/
def resolveInternalReadPath (fs : FileSystem) (workspacePath : List Text) (input : Text) :
    Except ToolRuntimeError (List Text) := do
  let trimmed := trim input
  if trimmed = [] then .error emptyPathError
  else
    let workspace ← canonicalizeOrIo fs workspacePath
    let path ← internalReadTarget fs workspace trimmed
    if !workspace.isPrefixOf path then .error (escapesError trimmed) else .ok path

/-- `resolve_workspace_path`, for `edit_file`. -/
def resolveWorkspacePath (fs : FileSystem) (workspacePath : List Text) (input : Text) :
    Except ToolRuntimeError (List Text) := do
  let trimmed ← normalizeWorkspacePathText input
  let workspace ← canonicalizeOrIo fs workspacePath
  let path ← canonicalizeOrIo fs (joinPieces workspace trimmed)
  if !workspace.isPrefixOf path then .error (escapesError trimmed) else .ok path

/-- `resolve_workspace_write_path`, for `write_file`: the file itself may not exist yet. -/
def resolveWorkspaceWritePath (fs : FileSystem) (workspacePath : List Text) (input : Text) :
    Except ToolRuntimeError (List Text) := do
  let trimmed ← normalizeWorkspacePathText input
  match fileName trimmed with
  | none =>
    .error (.invalidPath ("write_file path must include a file name: ".toList ++ trimmed))
  | some name =>
    let workspace ← canonicalizeOrIo fs workspacePath
    let directory := if isAbsolute trimmed then [] else workspace
    let parentPath ← canonicalizeOrIo fs (directory ++ parent trimmed)
    if !workspace.isPrefixOf parentPath then .error (escapesError trimmed)
    else
      let path := parentPath ++ [name]
      if fs.exists path then do
        let canonicalPath ← canonicalizeOrIo fs path
        if !workspace.isPrefixOf canonicalPath then .error (escapesError trimmed)
        else .ok canonicalPath
      else .ok path

/-- `canonicalize_absolute_target`: the deepest ancestor that exists, made canonical, and the
names below it. The ancestors are the given names without the last, and so on to the root. -/
def canonicalizeAbsoluteTarget (fs : FileSystem) (requested : Text) (ancestor : List Text) :
    List Text → Except ToolRuntimeError (List Text)
  | [] =>
    match canonicalize fs ancestor with
    | .ok canonical => .ok canonical
    | .error .notFound =>
      .error (.invalidPath ("apply_patch path must include a file name: ".toList ++ requested))
    | .error kind => .error (.io kind)
  | name :: parents =>
    match canonicalize fs ancestor with
    | .ok canonical => .ok canonical
    | .error .notFound => do
      let canonical ← canonicalizeAbsoluteTarget fs requested parents.reverse parents
      return canonical ++ [name]
    | .error kind => .error (.io kind)

def patchEscapesError (path : Text) : ToolRuntimeError :=
  .invalidPath ("apply_patch path escapes the workspace: ".toList ++ path)

/-- `resolve_patch_target`, with the workspace made canonical by `apply_patch`. -/
def resolvePatchTarget (fs : FileSystem) (workspacePath : List Text) (rawPath : Text) :
    Except ToolRuntimeError (List Text) := do
  let workspace ← canonicalizeOrIo fs workspacePath
  let pathText := trim rawPath
  if pathText = [] then .error (.invalidPath "apply_patch path must not be empty".toList)
  else if (fileName pathText).isNone then
    .error (.invalidPath ("apply_patch path must include a file name: ".toList ++ pathText))
  else if parentDir ∈ components pathText then .error (patchEscapesError pathText)
  else
    let target ←
      if isAbsolute pathText then
        canonicalizeAbsoluteTarget fs pathText (pieces pathText) (components pathText).reverse
      else .ok (workspace ++ components pathText)
    if !workspace.isPrefixOf target then .error (patchEscapesError pathText)
    else
      let relative := target.drop workspace.length
      if relative = [] ∨ parentDir ∈ relative then .error (patchEscapesError pathText)
      else .ok target

/-! ## Plain relative arguments

A path argument is plain when reading every backslash as a slash leaves a relative path
without `..`. The tools that fold backslashes resolve it to the workspace followed by its
parts. -/

/-- Relative and without `..`, with backslashes read as slashes. -/
def PlainArgument (input : Text) : Prop :=
  isAbsolute (foldBackslashes (trim input)) = false ∧
    parentDir ∉ components (foldBackslashes (trim input))

instance (input : Text) : Decidable (PlainArgument input) := instDecidableAnd

theorem canonicalizeOrIo_eq_ok {fs : FileSystem} {path location : List Text} :
    canonicalizeOrIo fs path = .ok location ↔ canonicalize fs path = .ok location := by
  unfold canonicalizeOrIo
  cases canonicalize fs path <;> simp

theorem normalizeWorkspacePathText_eq_ok {input normalized : Text}
    (h : normalizeWorkspacePathText input = .ok normalized) :
    normalized = foldBackslashes (trim input) := by
  simp only [normalizeWorkspacePathText] at h
  split at h
  · cases h
  · split at h
    · cases h
    · split at h
      · cases h
      · exact (Except.ok.inj h).symm

/-- A location is given by its parts below the workspace root. -/
def InWorkspace (fs : FileSystem) (workspacePath location parts : List Text) : Prop :=
  ∃ workspace, canonicalizeOrIo fs workspacePath = .ok workspace ∧ location = workspace ++ parts

/-- The location of a plain argument, joined to the workspace and made canonical. -/
theorem canonicalize_plainArgument {fs : FileSystem} {workspacePath workspace location : List Text}
    {input : Text} (root : canonicalizeOrIo fs workspacePath = .ok workspace)
    (plain : PlainArgument input)
    (h : canonicalizeOrIo fs (joinPieces workspace (foldBackslashes (trim input))) =
      .ok location) :
    location = workspace ++ components (foldBackslashes (trim input)) :=
  canonicalize_joinPieces (canonicalize_plain (canonicalizeOrIo_eq_ok.mp root)) plain.1 plain.2
    (canonicalizeOrIo_eq_ok.mp h)

theorem resolveWorkspacePath_plain {fs : FileSystem} {workspacePath location : List Text}
    {input : Text} (plain : PlainArgument input)
    (h : resolveWorkspacePath fs workspacePath input = .ok location) :
    InWorkspace fs workspacePath location (components (foldBackslashes (trim input))) := by
  obtain ⟨normalized, text, h⟩ := bind_eq_ok.mp h
  rw [normalizeWorkspacePathText_eq_ok text] at h
  obtain ⟨workspace, root, h⟩ := bind_eq_ok.mp h
  obtain ⟨path, joined, h⟩ := bind_eq_ok.mp h
  split at h
  · cases h
  · rw [← Except.ok.inj h]
    exact ⟨workspace, root, canonicalize_plainArgument root plain joined⟩

theorem isAbsolute_foldBackslashes {path : Text} (h : isAbsolute path = true) :
    isAbsolute (foldBackslashes path) = true := by
  obtain ⟨rest, rfl⟩ := startsWith_iff.mp h
  exact startsWith_iff.mpr ⟨foldBackslashes rest, rfl⟩

theorem resolveInternalReadPath_plain {fs : FileSystem} {workspacePath location : List Text}
    {input : Text} (plain : PlainArgument input)
    (h : resolveInternalReadPath fs workspacePath input = .ok location) :
    InWorkspace fs workspacePath location (components (foldBackslashes (trim input))) := by
  simp only [resolveInternalReadPath] at h
  split at h
  · cases h
  · obtain ⟨workspace, root, h⟩ := bind_eq_ok.mp h
    have relative : ¬isAbsolute (trim input) = true := fun absolute => by
      have folded := isAbsolute_foldBackslashes absolute
      rw [plain.1] at folded
      cases folded
    obtain ⟨path, joined, h⟩ := bind_eq_ok.mp h
    rw [internalReadTarget, if_neg relative] at joined
    obtain ⟨normalized, text, joined⟩ := bind_eq_ok.mp joined
    rw [normalizeWorkspacePathText_eq_ok text, trim_trim] at joined
    split at h
    · cases h
    · rw [← Except.ok.inj h]
      exact ⟨workspace, root, canonicalize_plainArgument root plain joined⟩

theorem fileName_eq_some {path name : Text} (h : fileName path = some name) :
    name ≠ parentDir ∧ components path = parent path ++ [name] := by
  obtain ⟨last, named⟩ := Option.filter_eq_some_iff.mp h
  exact ⟨by simpa using named, (List.dropLast_append_getLast? name last).symm⟩

theorem resolveWorkspaceWritePath_plain {fs : FileSystem} {workspacePath location : List Text}
    {input : Text} (plain : PlainArgument input)
    (h : resolveWorkspaceWritePath fs workspacePath input = .ok location) :
    InWorkspace fs workspacePath location (components (foldBackslashes (trim input))) := by
  obtain ⟨normalized, text, h⟩ := bind_eq_ok.mp h
  rw [normalizeWorkspacePathText_eq_ok text] at h
  split at h
  · cases h
  · rename_i name named
    obtain ⟨-, split⟩ := fileName_eq_some named
    obtain ⟨workspace, root, h⟩ := bind_eq_ok.mp h
    refine ⟨workspace, root, ?_⟩
    simp only [plain.1, Bool.false_eq_true, if_false] at h
    obtain ⟨parentPath, parentOk, h⟩ := bind_eq_ok.mp h
    have workspacePlain := canonicalize_plain (canonicalizeOrIo_eq_ok.mp root)
    have allPlain : UnixPath.Plain (workspace ++ components (foldBackslashes (trim input))) :=
      workspacePlain.append fun part mem =>
        ⟨(List.mem_filter.mp mem).2, fun same => plain.2 (same ▸ mem)⟩
    rw [split, ← List.append_assoc] at allPlain
    have parentFree : parentDir ∉ workspace ++ parent (foldBackslashes (trim input)) :=
      fun mem => (allPlain _ (List.mem_append_left _ mem)).2 rfl
    have parentEq : parentPath = workspace ++ parent (foldBackslashes (trim input)) := by
      have eq := canonicalize_eq parentFree (canonicalizeOrIo_eq_ok.mp parentOk)
      rw [eq]
      exact UnixPath.Plain.filter_isComponent fun part mem => allPlain part (List.mem_append_left _ mem)
    rw [split, ← List.append_assoc, ← parentEq]
    rw [← parentEq] at allPlain
    split at h
    · cases h
    · split at h
      · obtain ⟨canonicalPath, canonicalOk, h⟩ := bind_eq_ok.mp h
        split at h
        · cases h
        · rw [← Except.ok.inj h, canonicalize_eq (fun mem => (allPlain _ mem).2 rfl)
            (canonicalizeOrIo_eq_ok.mp canonicalOk), allPlain.filter_isComponent]
      · exact (Except.ok.inj h).symm

/-- A relative patch path resolves to the workspace followed by its components, backslashes
being part of a name. -/
theorem resolvePatchTarget_relative {fs : FileSystem} {workspacePath location : List Text}
    {rawPath : Text} (relative : isAbsolute (trim rawPath) = false)
    (h : resolvePatchTarget fs workspacePath rawPath = .ok location) :
    InWorkspace fs workspacePath location (components (trim rawPath)) := by
  obtain ⟨workspace, root, h⟩ := bind_eq_ok.mp h
  refine ⟨workspace, root, ?_⟩
  simp only at h
  split at h
  · cases h
  · split at h
    · cases h
    · split at h
      · cases h
      · simp only [relative, Bool.false_eq_true, if_false] at h
        obtain ⟨target, targetOk, h⟩ := bind_eq_ok.mp h
        cases targetOk
        split at h
        · cases h
        · split at h
          · cases h
          · exact (Except.ok.inj h).symm

end Foco.FileResolution
