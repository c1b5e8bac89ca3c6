import Foco.RustText

/-!
`std::path::Path` and `std::fs::canonicalize` on Unix, for a file system without
symbolic links. A path text is read as the pieces between its slashes; an empty or
`.` piece names the directory it stands in, `..` its parent. A location is the list
of names from the root.
-/
namespace Foco.UnixPath
open Foco.RustText

/-! ## Path texts -/

/-- The pieces of a path text between its slashes. -/
def pieces (path : Text) : List Text := path.splitOn '/'

/-- A piece that is a component of its path: not empty and not `.`. -/
def isComponent (piece : Text) : Bool := piece ≠ [] ∧ piece ≠ ['.']

/-- The piece for the parent directory. -/
def parentDir : Text := "..".toList

/-- `Path::components` without the root: the named pieces and the `..` pieces. -/
def components (path : Text) : List Text := (pieces path).filter isComponent

/-- `Path::is_absolute`. -/
def isAbsolute (path : Text) : Bool := startsWith ['/'] path

/-- `Path::file_name`: the last component, unless it is `..`. -/
def fileName (path : Text) : Option Text :=
  (components path).getLast?.filter (· ≠ parentDir)

/-- The components of `Path::parent`. -/
def parent (path : Text) : List Text := (components path).dropLast

/-- The pieces of `Path::join` behind a directory: an absolute path replaces it. -/
def joinPieces (directory : List Text) (path : Text) : List Text :=
  if isAbsolute path then pieces path else directory ++ pieces path

/-! ## File systems -/

/-- What stands at a location. -/
inductive FileKind where
  | directory | regularFile

/-- A file system without symbolic links: what stands at each location, if anything. -/
structure FileSystem where
  kind : List Text → Option FileKind

/-- `io::ErrorKind`, as far as path resolution tells errors apart. -/
inductive IoErrorKind where
  | notFound | notADirectory
  deriving DecidableEq

/-- `fs::canonicalize` from a location on: every piece is looked up in a directory. -/
def canonicalizeFrom (fs : FileSystem) (location : List Text) :
    List Text → Except IoErrorKind (List Text)
  | [] => .ok location
  | piece :: rest =>
    match fs.kind location with
    | none => .error .notFound
    | some .regularFile => .error .notADirectory
    | some .directory =>
      if !isComponent piece then canonicalizeFrom fs location rest
      else if piece = parentDir then canonicalizeFrom fs location.dropLast rest
      else
        match fs.kind (location ++ [piece]) with
        | none => .error .notFound
        | some _ => canonicalizeFrom fs (location ++ [piece]) rest

/-- `fs::canonicalize` of the pieces of an absolute path. -/
def canonicalize (fs : FileSystem) (path : List Text) : Except IoErrorKind (List Text) :=
  canonicalizeFrom fs [] path

/-- `Path::exists`. -/
def FileSystem.exists (fs : FileSystem) (location : List Text) : Bool :=
  (fs.kind location).isSome

/-- Names only: no empty, `.` or `..` component. -/
def Plain (location : List Text) : Prop :=
  ∀ name ∈ location, isComponent name = true ∧ name ≠ parentDir

theorem Plain.append {a b : List Text} (ha : Plain a) (hb : Plain b) : Plain (a ++ b) :=
  fun name mem => (List.mem_append.mp mem).elim (ha name) (hb name)

theorem Plain.filter_isComponent {location : List Text} (plain : Plain location) :
    location.filter isComponent = location :=
  List.filter_eq_self.mpr fun name mem => (plain name mem).1

/-- A canonical location consists of names only. -/
theorem canonicalizeFrom_plain {fs : FileSystem} {location path result : List Text}
    (plain : Plain location) (h : canonicalizeFrom fs location path = .ok result) :
    Plain result := by
  induction path generalizing location with
  | nil =>
    cases h
    exact plain
  | cons piece rest ih =>
    simp only [canonicalizeFrom] at h
    split at h
    · cases h
    · cases h
    · split at h
      · exact ih plain h
      · rename_i named
        split at h
        · exact ih (fun name mem => plain name (List.dropLast_subset _ mem)) h
        · rename_i notParent
          split at h
          · cases h
          · refine ih (plain.append fun name mem => ?_) h
            rw [List.mem_singleton.mp mem]
            exact ⟨by simpa using named, notParent⟩

/-- Without `..` pieces the canonical location is the start followed by the components. -/
theorem canonicalizeFrom_eq {fs : FileSystem} {location path result : List Text}
    (noParent : parentDir ∉ path) (h : canonicalizeFrom fs location path = .ok result) :
    result = location ++ path.filter isComponent := by
  induction path generalizing location with
  | nil =>
    cases h
    simp
  | cons piece rest ih =>
    obtain ⟨notParent, noParent⟩ := not_or.mp (mt List.mem_cons.mpr noParent)
    simp only [canonicalizeFrom] at h
    split at h
    · cases h
    · cases h
    · split at h
      · rename_i skipped
        rw [ih noParent h, List.filter_cons_of_neg (by simpa using skipped)]
      · rename_i named
        rw [if_neg (Ne.symm notParent)] at h
        split at h
        · cases h
        · rw [ih noParent h, List.filter_cons_of_pos (by simpa using named), List.append_assoc,
            List.singleton_append]

theorem canonicalize_plain {fs : FileSystem} {path result : List Text}
    (h : canonicalize fs path = .ok result) : Plain result :=
  canonicalizeFrom_plain (fun _ mem => absurd mem List.not_mem_nil) h

theorem canonicalize_eq {fs : FileSystem} {path result : List Text} (noParent : parentDir ∉ path)
    (h : canonicalize fs path = .ok result) : result = path.filter isComponent := by
  simpa using canonicalizeFrom_eq noParent h

/-- A relative path without `..` leads to the directory followed by its components. -/
theorem canonicalize_joinPieces {fs : FileSystem} {directory result : List Text} {path : Text}
    (plain : Plain directory) (relative : isAbsolute path = false)
    (noParent : parentDir ∉ components path)
    (h : canonicalize fs (joinPieces directory path) = .ok result) :
    result = directory ++ components path := by
  have parentFree : parentDir ∉ pieces path := fun mem =>
    noParent (List.mem_filter.mpr ⟨mem, by decide⟩)
  rw [joinPieces, if_neg (by simp [relative])] at h
  rw [canonicalize_eq ?_ h, List.filter_append, plain.filter_isComponent, components]
  rw [List.mem_append]
  rintro (mem | mem)
  · exact (plain _ mem).2 rfl
  · exact parentFree mem

end Foco.UnixPath
