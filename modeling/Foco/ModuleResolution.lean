import Foco.GraphResolver

/-!
Which file a relative TypeScript import names: its specifier is resolved against the directory of the
importing file, and what the resolver reports should lie there.
-/
namespace Foco.ModuleResolution
open RustText SortedByKey GraphResolver

/-! ## Specifiers -/

/-- The directory of components that a specifier leads to: nothing above the root. -/
def resolve : List Text → List Text → Option (List Text)
  | directory, [] => some directory
  | directory, part :: parts =>
    if part = [] ∨ part = ['.'] then resolve directory parts
    else if part = ['.', '.'] then
      if directory = [] then none else resolve directory.dropLast parts
    else resolve (directory ++ [part]) parts

/-- Where the specifier of an import leads, if not above the root. -/
def target (import_ : CodeGraphResolverImportRecord) : Option (List Text) :=
  resolve (components (pathParent import_.path)) (import_.module.splitOn '/')

/-- What may follow the path of a specifier: an extension, or an index file with one, or nothing. -/
def endings : List Text :=
  extensions.flatMap fun extension => ['.' :: extension, "/index.".toList ++ extension]

def suffixes : List Text := [] :: endings

/-- The file lies where the specifier leads, with one of the endings. -/
def LiesAt (import_ : CodeGraphResolverImportRecord) (file : CodeGraphResolverFileRecord) : Prop :=
  ∃ directory, target import_ = some directory ∧
    ∃ suffix ∈ suffixes, file.path = List.intercalate ['/'] directory ++ suffix

/-- A relative specifier in a file of one of the TypeScript languages. -/
structure RelativeImport (import_ : CodeGraphResolverImportRecord) : Prop where
  language : ∃ language ∈ typescriptLanguages, import_.language = some language
  relative : startsWith ['.'] import_.module = true

/-- The rows of a table of files: ids and paths are unique. -/
structure Stored (files : List CodeGraphResolverFileRecord) : Prop where
  ids : ∀ file ∈ files, ∀ other ∈ files, file.id = other.id → file = other
  paths : ∀ file ∈ files, ∀ other ∈ files, file.path = other.path → file = other

/-- The ids of the files that a resolution reports. -/
def reported (resolution : OwnedResolution) : List Int :=
  resolution.targetFileId.toList ++ resolution.candidates.map (·.targetFileId)

/-- Every reported file lies where the specifier leads, none is reported for a specifier that leads
above the root, and an exact one is the only one there. -/
structure FollowsSpecifier (import_ : CodeGraphResolverImportRecord)
    (files : List CodeGraphResolverFileRecord) (resolution : OwnedResolution) : Prop where
  lies : ∀ file ∈ files, file.id ∈ reported resolution → LiesAt import_ file
  climbing : target import_ = none →
    resolution.resolution ≠ .exact ∧ resolution.resolution ≠ .candidate
  unique : resolution.resolution = .exact → ∃! file, file ∈ files ∧ LiesAt import_ file

/-- The path that the resolver tries, without an ending. -/
def triedPath (import_ : CodeGraphResolverImportRecord) : Text :=
  normalizeJoin (pathParent import_.path) import_.module

/-- The paths that the resolver tries. -/
def triedPaths (import_ : CodeGraphResolverImportRecord) : List Text :=
  (typescriptModuleCandidates import_).getD []

/-- A name is imported that several exported symbols of the file have. -/
def SeveralExports (import_ : CodeGraphResolverImportRecord)
    (symbols : List CodeGraphResolverSymbolRecord) (file : CodeGraphResolverFileRecord) : Prop :=
  ∃ name, import_.importedSymbol = some name ∧ name ≠ ['*'] ∧
    1 < (matchingSymbols symbols file name).length

/-- A specifier above the root meets no stored file where it is resolved from the root; and beside
the only file that is tried there is none at the path itself, unless it has one of the extensions or
the import is ambiguous for its name. -/
structure StaysInside (import_ : CodeGraphResolverImportRecord)
    (files : List CodeGraphResolverFileRecord) (symbols : List CodeGraphResolverSymbolRecord) :
    Prop where
  climbing : target import_ = none → ∀ file ∈ files, file.path ∉ triedPaths import_
  bare : target import_ ≠ none → hasTypescriptExtension (triedPath import_) = false →
    ∀ file ∈ files, file.path = triedPath import_ →
      ∀ only ∈ files, only.path ∈ triedPaths import_ →
        (∀ other ∈ files, other.path ∈ triedPaths import_ → other = only) →
        SeveralExports import_ symbols only

/-! ## What is tried -/

section Tried

variable {import_ : CodeGraphResolverImportRecord} {files : List CodeGraphResolverFileRecord}
  {symbols : List CodeGraphResolverSymbolRecord}

theorem resolve_join {directory result : List Text} {parts : List Text}
    (inside : resolve directory parts = some result) :
    parts.foldl joinComponent directory = result := by
  induction parts generalizing directory with
  | nil => exact Option.some.inj inside
  | cons part parts ih =>
    rw [resolve] at inside
    rw [List.foldl_cons, joinComponent]
    split at inside
    · next skipped =>
      rw [if_pos skipped]
      exact ih inside
    · next named =>
      rw [if_neg named]
      split at inside
      · next parent =>
        rw [if_pos parent]
        split at inside
        · cases inside
        · exact ih inside
      · next child =>
        rw [if_neg child]
        exact ih inside

/-- Inside the root the path that is tried is where the specifier leads. -/
theorem triedPath_eq {directory : List Text} (inside : target import_ = some directory) :
    triedPath import_ = List.intercalate ['/'] directory := by
  rw [triedPath, normalizeJoin, resolve_join inside]

theorem mem_textSet {text : Text} {texts : List Text} : text ∈ textSet texts ↔ text ∈ texts := by
  rw [textSet, mem_insertAll]
  constructor
  · exact mem_of_lastOf
  · intro mem
    obtain ⟨last, there⟩ : ∃ last, lastOf id texts (id text) = some last := exists_last_of_mem mem
    have same : last = text := key_of_lastOf there
    rwa [same] at there

theorem nodup_textSet (texts : List Text) : (textSet texts).Nodup := by
  have sorted : Sorted id (textSet texts) := sorted_nil.insertAll texts
  exact sorted.imp fun less same => absurd (same ▸ less) (lt_irrefl _)

theorem typescriptModuleCandidates_eq (relative : RelativeImport import_) :
    typescriptModuleCandidates import_ = some (triedPaths import_) := by
  rw [triedPaths, typescriptModuleCandidates, if_pos relative.relative]
  rfl

theorem endings_named : ∀ ending ∈ endings, ending ≠ [] := by decide

/-- Every ending is tried, but none only after one of the extensions. -/
theorem mem_triedPaths (relative : RelativeImport import_) {path : Text} :
    path ∈ triedPaths import_ ↔
      path = triedPath import_ ∧ hasTypescriptExtension (triedPath import_) = true ∨
        ∃ ending ∈ endings, path = triedPath import_ ++ ending := by
  have tried : triedPaths import_ = textSet
      ((if hasTypescriptExtension (triedPath import_) then [triedPath import_] else []) ++
        endings.map (triedPath import_ ++ ·)) := by
    rw [triedPaths, typescriptModuleCandidates, if_pos relative.relative, Option.getD_some,
      endings, List.map_flatMap]
    simp only [List.map_cons, List.map_nil, ← List.append_assoc]
    rfl
  rw [tried, mem_textSet, List.mem_append]
  refine or_congr ?_ ?_
  · split
    · next typed => simp [typed]
    · next other => simp [other]
  · rw [List.mem_map]
    exact exists_congr fun ending => and_congr_right fun _ => eq_comm

/-- The path itself is not tried without one of the extensions. -/
theorem triedPath_not_mem (relative : RelativeImport import_)
    (bare : hasTypescriptExtension (triedPath import_) = false) :
    triedPath import_ ∉ triedPaths import_ := by
  rw [mem_triedPaths relative]
  rintro (⟨-, typed⟩ | ⟨ending, mem, same⟩)
  · rw [bare] at typed
    cases typed
  · exact endings_named ending mem (List.self_eq_append_right.mp same)

/-- What is tried inside the root lies where the specifier leads. -/
theorem liesAt_of_tried (relative : RelativeImport import_) {directory : List Text}
    (inside : target import_ = some directory) {file : CodeGraphResolverFileRecord}
    (tried : file.path ∈ triedPaths import_) : LiesAt import_ file := by
  refine ⟨directory, inside, ?_⟩
  rw [← triedPath_eq inside]
  obtain ⟨same, -⟩ | ⟨ending, mem, same⟩ := (mem_triedPaths relative).mp tried
  · exact ⟨[], List.mem_cons_self, by rw [same, List.append_nil]⟩
  · exact ⟨ending, List.mem_cons_of_mem _ mem, same⟩

/-- What lies there is tried, or it has no ending and its path none of the extensions. -/
theorem tried_of_liesAt (relative : RelativeImport import_) {file : CodeGraphResolverFileRecord}
    (lies : LiesAt import_ file) : file.path ∈ triedPaths import_ ∨
      file.path = triedPath import_ ∧ hasTypescriptExtension (triedPath import_) = false := by
  obtain ⟨directory, inside, suffix, mem, same⟩ := lies
  rw [← triedPath_eq inside] at same
  rw [mem_triedPaths relative]
  obtain rfl | mem := List.mem_cons.mp mem
  · rw [List.append_nil] at same
    cases typed : hasTypescriptExtension (triedPath import_) with
    | true => exact .inl (.inl ⟨same, rfl⟩)
    | false => exact .inr ⟨same, rfl⟩
  · exact .inl (.inr ⟨suffix, mem, same⟩)

/-! ## What is found -/

/-- The files that are found, in the order in which they are tried. -/
def found (import_ : CodeGraphResolverImportRecord) (files : List CodeGraphResolverFileRecord) :
    List CodeGraphResolverFileRecord :=
  (triedPaths import_).filterMap (fileAt files)

theorem fileAt_eq_some (stored : Stored files) {path : Text} {file : CodeGraphResolverFileRecord} :
    fileAt files path = some file ↔ file ∈ files ∧ file.path = path := by
  constructor
  · exact fun there => ⟨mem_of_lastOf there, key_of_lastOf there⟩
  · rintro ⟨mem, rfl⟩
    obtain ⟨last, there⟩ : ∃ last, fileAt files file.path = some last := exists_last_of_mem mem
    have same : last = file :=
      stored.paths last (mem_of_lastOf there) file mem (key_of_lastOf there)
    rwa [same] at there

theorem mem_found (stored : Stored files) {file : CodeGraphResolverFileRecord} :
    file ∈ found import_ files ↔ file ∈ files ∧ file.path ∈ triedPaths import_ := by
  rw [found, List.mem_filterMap]
  constructor
  · rintro ⟨path, mem, at_⟩
    obtain ⟨there, rfl⟩ := (fileAt_eq_some stored).mp at_
    exact ⟨there, mem⟩
  · rintro ⟨there, mem⟩
    exact ⟨file.path, mem, (fileAt_eq_some stored).mpr ⟨there, rfl⟩⟩

theorem nodup_found (stored : Stored files) : (found import_ files).Nodup := by
  have distinct : (triedPaths import_).Nodup := by
    rw [triedPaths, typescriptModuleCandidates]
    split
    · exact nodup_textSet _
    · exact List.nodup_nil
  refine distinct.filterMap fun path other file at_ at' => ?_
  rw [Option.mem_def, fileAt_eq_some stored] at at_ at'
  exact at_.2.symm.trans at'.2

/-- What an import resolves to, by the files that are found. -/
theorem resolveImport_eq (relative : RelativeImport import_) :
    resolveImport import_ files symbols = match found import_ files with
      | [] => ⟨import_.id, .unresolved, none, none, []⟩
      | [file] => resolveInFile import_ symbols file
      | several => ⟨import_.id, .candidate, none, none,
          several.map fun file => ⟨file.id, none⟩⟩ := by
  obtain ⟨language, mem, spoken⟩ := relative.language
  rw [resolveImport, modulePathResolution, spoken]
  simp only [if_pos mem, typescriptModuleCandidates_eq relative]
  have same : (triedPaths import_).filterMap (fileAt files) = found import_ files := rfl
  rw [same]
  cases found import_ files with
  | nil => rfl
  | cons file others =>
    cases others with
    | nil => rfl
    | cons other others => rfl

/-- What is reported when one file is found: it is exact unless several symbols are meant. -/
structure Settles (several : Prop) (file : CodeGraphResolverFileRecord)
    (resolution : OwnedResolution) : Prop where
  outcome : several ∧ resolution.resolution = .candidate ∨
    ¬ several ∧ resolution.resolution = .exact
  ids : ∀ id, id ∈ reported resolution ↔ id = file.id

theorem settles_exact {several : Prop} (single : ¬ several) (file : CodeGraphResolverFileRecord)
    (id : Int) (symbol : Option Int) :
    Settles several file ⟨id, .exact, some file.id, symbol, []⟩ :=
  ⟨.inr ⟨single, rfl⟩, fun _ => List.mem_singleton⟩

theorem resolveInFile_settles (import_ : CodeGraphResolverImportRecord)
    (symbols : List CodeGraphResolverSymbolRecord) (file : CodeGraphResolverFileRecord) :
    Settles (SeveralExports import_ symbols file) file (resolveInFile import_ symbols file) := by
  cases named : import_.importedSymbol with
  | none =>
    have single : ¬ SeveralExports import_ symbols file := by
      rintro ⟨name, given, -⟩
      rw [named] at given
      cases given
    rw [resolveInFile, named]
    exact settles_exact single file _ _
  | some name =>
    have several : SeveralExports import_ symbols file ↔
        name ≠ ['*'] ∧ 1 < (matchingSymbols symbols file name).length := by
      refine ⟨?_, fun both => ⟨name, named, both⟩⟩
      rintro ⟨other, given, both⟩
      rw [named] at given
      rwa [Option.some.inj given]
    rw [several, resolveInFile, named]
    dsimp only
    by_cases star : name = ['*']
    · rw [if_pos star]
      exact settles_exact (fun both => both.1 star) file _ _
    · rw [if_neg star]
      cases matchingSymbols symbols file name with
      | nil => exact settles_exact (by simp) file _ _
      | cons symbol others =>
        cases others with
        | nil => exact settles_exact (by simp) file _ _
        | cons other others =>
          refine ⟨.inl ⟨⟨star, by simp⟩, rfl⟩, fun id => ?_⟩
          simp [reported, eq_comm]

theorem mem_reported (relative : RelativeImport import_) {id : Int} :
    id ∈ reported (resolveImport import_ files symbols) ↔
      ∃ file ∈ found import_ files, id = file.id := by
  rw [resolveImport_eq relative]
  cases found import_ files with
  | nil => simp [reported]
  | cons file others =>
    cases others with
    | nil => simpa using (resolveInFile_settles import_ symbols file).ids id
    | cons other others => simp [reported, eq_comm]

theorem exact_iff (relative : RelativeImport import_) :
    (resolveImport import_ files symbols).resolution = .exact ↔
      ∃ file, found import_ files = [file] ∧ ¬ SeveralExports import_ symbols file := by
  rw [resolveImport_eq relative]
  cases found import_ files with
  | nil => simp
  | cons file others =>
    cases others with
    | nil =>
      obtain ⟨several, open_⟩ | ⟨single, exact_⟩ := (resolveInFile_settles import_ symbols file).outcome
      · simp [open_, several]
      · simp [exact_, single]
    | cons other others => simp

theorem resolved_iff (relative : RelativeImport import_) :
    (resolveImport import_ files symbols).resolution = .exact ∨
      (resolveImport import_ files symbols).resolution = .candidate ↔ found import_ files ≠ [] := by
  rw [resolveImport_eq relative]
  cases found import_ files with
  | nil => simp
  | cons file others =>
    cases others with
    | nil =>
      obtain ⟨-, open_⟩ | ⟨-, exact_⟩ := (resolveInFile_settles import_ symbols file).outcome
      · simp [open_]
      · simp [exact_]
    | cons other others => simp

theorem found_eq_singleton (stored : Stored files) {only : CodeGraphResolverFileRecord} :
    found import_ files = [only] ↔ only ∈ files ∧ only.path ∈ triedPaths import_ ∧
      ∀ other ∈ files, other.path ∈ triedPaths import_ → other = only := by
  constructor
  · intro alone
    have here : only ∈ found import_ files := by simp [alone]
    obtain ⟨mem, tried⟩ := (mem_found stored).mp here
    refine ⟨mem, tried, fun other mem' tried' => ?_⟩
    have there : other ∈ found import_ files := (mem_found stored).mpr ⟨mem', tried'⟩
    rwa [alone, List.mem_singleton] at there
  · rintro ⟨mem, tried, alone⟩
    refine List.perm_singleton.mp ((List.perm_ext_iff_of_nodup (nodup_found stored)
      (List.nodup_singleton only)).mpr fun other => ?_)
    rw [mem_found stored, List.mem_singleton]
    exact ⟨fun both => alone other both.1 both.2, fun same => same ▸ ⟨mem, tried⟩⟩

/-! ## What is reported -/

theorem follows_of_staysInside (relative : RelativeImport import_) (stored : Stored files)
    (stays : StaysInside import_ files symbols) :
    FollowsSpecifier import_ files (resolveImport import_ files symbols) := by
  have nothing (above : target import_ = none) : found import_ files = [] := by
    rw [List.eq_nil_iff_forall_not_mem]
    intro file mem
    obtain ⟨there, tried⟩ := (mem_found stored).mp mem
    exact stays.climbing above file there tried
  have inside {file : CodeGraphResolverFileRecord} (mem : file ∈ found import_ files) :
      ∃ directory, target import_ = some directory := by
    refine Option.ne_none_iff_exists'.mp fun above => ?_
    rw [nothing above] at mem
    cases mem
  refine ⟨fun file mem id => ?_, fun above => ?_, fun exact_ => ?_⟩
  · obtain ⟨other, mem', same⟩ := (mem_reported relative).mp id
    obtain ⟨there, tried⟩ := (mem_found stored).mp mem'
    obtain rfl := stored.ids file mem other there same
    obtain ⟨directory, inside⟩ := inside mem'
    exact liesAt_of_tried relative inside tried
  · rw [← not_or, resolved_iff relative]
    exact fun some_ => some_ (nothing above)
  · obtain ⟨only, alone, single⟩ := (exact_iff relative).mp exact_
    obtain ⟨mem, tried, rest⟩ := (found_eq_singleton stored).mp alone
    have here : only ∈ found import_ files := by simp [alone]
    obtain ⟨directory, inside⟩ := inside here
    refine ⟨only, ⟨mem, liesAt_of_tried relative inside tried⟩, ?_⟩
    rintro other ⟨mem', lies⟩
    obtain tried' | ⟨same, untyped⟩ := tried_of_liesAt relative lies
    · exact rest other mem' tried'
    · have above : target import_ ≠ none := by rw [inside]; exact nofun
      exact absurd (stays.bare above untyped other mem' same only mem tried rest) single

theorem staysInside_of_follows (relative : RelativeImport import_) (stored : Stored files)
    (follows : FollowsSpecifier import_ files (resolveImport import_ files symbols)) :
    StaysInside import_ files symbols := by
  refine ⟨fun above file mem tried => ?_, fun inside untyped bare mem same only mem' tried rest => ?_⟩
  · have some_ : found import_ files ≠ [] :=
      List.ne_nil_of_mem ((mem_found stored).mpr ⟨mem, tried⟩)
    exact not_or.mpr (follows.climbing above) ((resolved_iff relative).mpr some_)
  · by_contra single
    have alone := (found_eq_singleton stored).mpr ⟨mem', tried, rest⟩
    obtain ⟨directory, inside⟩ := Option.ne_none_iff_exists'.mp inside
    have lies : LiesAt import_ bare :=
      ⟨directory, inside, [], List.mem_cons_self, by rw [same, triedPath_eq inside, List.append_nil]⟩
    obtain ⟨file, -, unique⟩ := follows.unique ((exact_iff relative).mpr ⟨only, alone, single⟩)
    have first := unique bare ⟨mem, lies⟩
    have second := unique only ⟨mem', liesAt_of_tried relative inside tried⟩
    rw [second.trans first.symm, same] at tried
    exact triedPath_not_mem relative untyped tried

end Tried

/-- A relative import is resolved as its specifier says exactly if the specifier stays inside the root,
or finds nothing there, and no file without an ending stands beside the only one that is tried. -/
theorem resolveImport_follows_iff {import_ : CodeGraphResolverImportRecord}
    {files : List CodeGraphResolverFileRecord} {symbols : List CodeGraphResolverSymbolRecord}
    (relative : RelativeImport import_) (stored : Stored files) :
    FollowsSpecifier import_ files (resolveImport import_ files symbols) ↔
      StaysInside import_ files symbols :=
  ⟨staysInside_of_follows relative stored, follows_of_staysInside relative stored⟩

/-! An import that climbs above the root, and a file of the same name inside it. -/

def climbingImport : CodeGraphResolverImportRecord :=
  { id := 1, path := "src/a.ts".toList, language := some "typescript".toList,
    module := "../../lib/b".toList, importedSymbol := none }

def climbingFiles : List CodeGraphResolverFileRecord :=
  [⟨1, "src/a.ts".toList, some "typescript".toList⟩,
    ⟨2, "lib/b.ts".toList, some "typescript".toList⟩]

theorem climbingImport_relative : RelativeImport climbingImport :=
  ⟨⟨"typescript".toList, by decide, rfl⟩, by decide⟩

theorem climbingFiles_stored : Stored climbingFiles := ⟨by decide, by decide⟩

theorem climbingImport_iff :
    FollowsSpecifier climbingImport climbingFiles (resolveImport climbingImport climbingFiles []) ↔
      StaysInside climbingImport climbingFiles [] :=
  resolveImport_follows_iff climbingImport_relative climbingFiles_stored

/-- The file inside the root is reported for a specifier that leads above it. -/
theorem climbingImport_found : target climbingImport = none ∧
    ¬ FollowsSpecifier climbingImport climbingFiles
      (resolveImport climbingImport climbingFiles []) := by
  have above : target climbingImport = none := by decide
  refine ⟨above, fun follows => ?_⟩
  have stays := staysInside_of_follows climbingImport_relative climbingFiles_stored follows
  refine stays.climbing above ⟨2, "lib/b.ts".toList, some "typescript".toList⟩ (by decide) ?_
  refine (mem_triedPaths climbingImport_relative).mpr (.inr ⟨".ts".toList, by decide, by decide⟩)

end Foco.ModuleResolution
