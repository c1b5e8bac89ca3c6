import Mathlib.Data.Char
import Mathlib.Data.List.Lex
import Mathlib.Data.List.MinMax
import Mathlib.Data.Prod.Lex
import Foco.RustText
import Foco.SortedByKey

/-!
The resolver of the code graph: which stored files an import may name, and which symbol of a file a
reference stands in.
-/
namespace Foco.GraphResolver
open RustText SortedByKey

/-! ## Stored records -/

structure CodeGraphResolverFileRecord where
  id : Int
  path : Text
  language : Option Text
  deriving DecidableEq

/-- Lines and columns are `i64`; what is stored comes from `u32`, where the differences below do not
overflow. -/
structure CodeGraphResolverSymbolRecord where
  id : Int
  fileId : Int
  name : Text
  visibility : Option Text
  metadataJson : Text
  startLine : Option Int
  startColumn : Option Int
  endLine : Option Int
  endColumn : Option Int
  deriving DecidableEq

structure CodeGraphResolverReferenceRecord where
  startLine : Option Int
  startColumn : Option Int

structure CodeGraphResolverImportRecord where
  id : Int
  path : Text
  language : Option Text
  module : Text
  importedSymbol : Option Text

/-! ## The symbol around a reference -/

/-- Pairs of a line and a column are ordered by the line, then by the column. -/
abbrev Position := Lex (Int × Int)

/-- The filter of `containing_symbol`. -/
def contains (line column : Int) (symbol : CodeGraphResolverSymbolRecord) : Bool :=
  match symbol.startLine, symbol.startColumn, symbol.endLine, symbol.endColumn with
  | some startLine, some startColumn, some endLine, some endColumn =>
    decide ((toLex (startLine, startColumn) : Position) ≤ toLex (line, column)) &&
      decide ((toLex (line, column) : Position) ≤ toLex (endLine, endColumn))
  | _, _, _, _ => false

/-- The key of `containing_symbol`. -/
def extent (symbol : CodeGraphResolverSymbolRecord) : Int :=
  let startLine := symbol.startLine.getD 0
  let endLine := symbol.endLine.getD startLine
  let startColumn := symbol.startColumn.getD 0
  let endColumn := symbol.endColumn.getD startColumn
  (endLine - startLine) * 10000 + (endColumn - startColumn)

/-- The order in which extents are compared. -/
local instance (priority := 2000) extentOrder : Preorder Int := Int.instLinearOrder.toPreorder

/-- `containing_symbol`: `min_by_key` returns the first of several least elements. -/
def containingSymbol (symbols : List CodeGraphResolverSymbolRecord)
    (reference : CodeGraphResolverReferenceRecord) : Option CodeGraphResolverSymbolRecord := do
  let line ← reference.startLine
  let column ← reference.startColumn
  (symbols.filter (contains line column)).argmin extent

/-! ## The files an import may name -/

/-- The text before the last slash, if there is one: `path_parent`. -/
def pathParent (path : Text) : Text := ((path.reverse.dropWhile (· ≠ '/')).drop 1).reverse

/-- The components of a path that name something. -/
def components (path : Text) : List Text := (path.splitOn '/').filter fun part => part ≠ []

/-- One step of `normalize_join`: popping nothing leaves nothing. -/
def joinComponent (joined : List Text) (component : Text) : List Text :=
  if component = [] ∨ component = ['.'] then joined
  else if component = ['.', '.'] then joined.dropLast
  else joined ++ [component]

/-- `normalize_join`. -/
def normalizeJoin (base module : Text) : Text :=
  List.intercalate ['/'] ((module.splitOn '/').foldl joinComponent (components base))

/-- `join_segments`. -/
def joinSegments (base : Text) (segments : List Text) : Text :=
  List.intercalate ['/'] (components base ++ segments)

def extensions : List Text :=
  ["ts", "tsx", "js", "jsx", "mjs", "cjs", "ets"].map String.toList

/-- `has_typescript_extension`. -/
def hasTypescriptExtension (path : Text) : Bool :=
  extensions.any fun extension => endsWith ('.' :: extension) path

/-- A `BTreeSet` of texts, in its order. -/
def textSet (texts : List Text) : List Text := insertAll id texts []

/-- `typescript_module_candidates`. -/
def typescriptModuleCandidates (import_ : CodeGraphResolverImportRecord) : Option (List Text) :=
  if startsWith ['.'] import_.module then
    let path := normalizeJoin (pathParent import_.path) import_.module
    some (textSet ((if hasTypescriptExtension path then [path] else []) ++
      extensions.flatMap fun extension =>
        [path ++ '.' :: extension, path ++ "/index.".toList ++ extension]))
  else none

/-- `rust_module_directory`. -/
def rustModuleDirectory (path : Text) : Text :=
  let parent := pathParent path
  let fileName := (path.splitOn '/').getLast?.getD path
  if fileName ∈ ["lib.rs", "main.rs", "mod.rs"].map String.toList then parent
  else
    let stem := if endsWith ".rs".toList fileName then fileName.dropLast.dropLast.dropLast
      else fileName
    joinSegments parent [stem]

/-- `split("::")`. -/
def splitDoubleColon : Text → List Text
  | [] => [[]]
  | [c] => [[c]]
  | c :: d :: rest =>
    if c = ':' ∧ d = ':' then [] :: splitDoubleColon rest
    else
      match splitDoubleColon (d :: rest) with
      | [] => [[c]]
      | piece :: pieces => (c :: piece) :: pieces

/-- The directories that the first segment of a Rust path stands for. -/
def rustBase (path first : Text) : Option (List Text) :=
  if first = "crate".toList then some ["src".toList, []]
  else if first = "self".toList then some [rustModuleDirectory path]
  else if first = "super".toList then some [pathParent (rustModuleDirectory path)]
  else none

/-- `rust_module_candidates`. -/
def rustModuleCandidates (import_ : CodeGraphResolverImportRecord) : Option (List Text) :=
  match (splitDoubleColon import_.module).filter fun segment => segment ≠ [] with
  | [] => none
  | first :: rest =>
    (rustBase import_.path first).map fun bases => textSet (bases.flatMap fun base =>
      let modulePath := joinSegments base rest
      if modulePath = [] then ["src/lib.rs".toList, "lib.rs".toList]
      else [modulePath ++ ".rs".toList, modulePath ++ "/mod.rs".toList])

/-! ## The resolution of an import -/

inductive PathResolution where
  | external | unresolved
  | candidates (files : List CodeGraphResolverFileRecord)

/-- The string of an `OwnedResolution`. -/
inductive ImportResolution where
  | external | unresolved | candidate | exact

structure NewCodeGraphImportResolutionCandidate where
  targetFileId : Int
  targetSymbolId : Option Int

structure OwnedResolution where
  importId : Int
  resolution : ImportResolution
  targetFileId : Option Int
  targetSymbolId : Option Int
  candidates : List NewCodeGraphImportResolutionCandidate

/-- `files_by_path.get(path)`: of several files with one path the last is in the map. -/
def fileAt (files : List CodeGraphResolverFileRecord) (path : Text) :
    Option CodeGraphResolverFileRecord :=
  lastOf CodeGraphResolverFileRecord.path files path

def typescriptLanguages : List Text :=
  ["typescript", "javascript", "tsx", "jsx", "ets"].map String.toList

/-- `module_path_resolution`. -/
def modulePathResolution (import_ : CodeGraphResolverImportRecord)
    (files : List CodeGraphResolverFileRecord) : PathResolution :=
  let resolved (paths : Option (List Text)) : PathResolution :=
    match paths with
    | none => .external
    | some paths =>
      match paths.filterMap (fileAt files) with
      | [] => .unresolved
      | file :: others => .candidates (file :: others)
  match import_.language with
  | none => .unresolved
  | some language =>
    if language ∈ typescriptLanguages then resolved (typescriptModuleCandidates import_)
    else if language = "rust".toList then resolved (rustModuleCandidates import_)
    else .unresolved

/-- `symbol_is_exported`. -/
def symbolIsExported (symbol : CodeGraphResolverSymbolRecord) : Bool :=
  symbol.visibility = some "public".toList ||
    containsText "\"exported\":true".toList symbol.metadataJson

/-- `symbol_is_default_export`. -/
def symbolIsDefaultExport (symbol : CodeGraphResolverSymbolRecord) : Bool :=
  containsText "\"defaultExport\":true".toList symbol.metadataJson

/-- The symbols of a file that an imported name may mean. -/
def matchingSymbols (symbols : List CodeGraphResolverSymbolRecord)
    (file : CodeGraphResolverFileRecord) (importedSymbol : Text) :
    List CodeGraphResolverSymbolRecord :=
  symbols.filter fun symbol => symbol.fileId = file.id &&
    (symbol.name = importedSymbol && symbolIsExported symbol ||
      importedSymbol = "default".toList && symbolIsDefaultExport symbol)

/-- An import of one file: the whole module, or a name of it. -/
def resolveInFile (import_ : CodeGraphResolverImportRecord)
    (symbols : List CodeGraphResolverSymbolRecord) (file : CodeGraphResolverFileRecord) :
    OwnedResolution :=
  let whole : OwnedResolution := ⟨import_.id, .exact, some file.id, none, []⟩
  match import_.importedSymbol with
  | none => whole
  | some importedSymbol =>
    if importedSymbol = ['*'] then whole
    else
      match matchingSymbols symbols file importedSymbol with
      | [symbol] => ⟨import_.id, .exact, some file.id, some symbol.id, []⟩
      | [] => whole
      | several => ⟨import_.id, .candidate, none, none,
          several.map fun symbol => ⟨file.id, some symbol.id⟩⟩

/-- `resolve_import`. -/
def resolveImport (import_ : CodeGraphResolverImportRecord)
    (files : List CodeGraphResolverFileRecord) (symbols : List CodeGraphResolverSymbolRecord) :
    OwnedResolution :=
  match modulePathResolution import_ files with
  | .external => ⟨import_.id, .external, none, none, []⟩
  | .unresolved => ⟨import_.id, .unresolved, none, none, []⟩
  | .candidates [file] => resolveInFile import_ symbols file
  | .candidates files =>
    ⟨import_.id, .candidate, none, none, files.map fun file => ⟨file.id, none⟩⟩

end Foco.GraphResolver
