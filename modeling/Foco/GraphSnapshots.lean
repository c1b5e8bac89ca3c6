import Foco.OutputBudget
import Foco.Result

/-!
The answer of `graph_explore` in `tools/graph_tools.rs`: the first snippets inline, and if there are
more than fit, a text with all of them to be read from a line on.
-/
namespace Foco.GraphSnapshots
open Foco.RustText Foco.TextLines Foco.OutputBudget

/-- `ToolRuntimeError::InvalidArguments`, the only error here. -/
inductive ToolRuntimeError where
  | invalidArguments (message : Text)

structure GraphExploreSnippet where
  value : Json

structure GraphExploreSnapshot where
  id : Text
  contents : Text
  snippetStartLines : List Nat

def maxGraphSnapshotLineBytes : Nat := toolExecutionPayloadHardByteLimit - 1024

/-! ## The snapshot text -/

/-- What the text says about a snippet. -/
structure SnippetFields where
  symbolId : Int
  path : Text
  qualifiedName : Text
  kind : Text
  startLine : Nat
  endLine : Nat
  content : Text

def snapshotError (detail : String) : ToolRuntimeError :=
  .invalidArguments ("failed to render graph_explore snapshot: ".toList ++ detail.toList)

/-- `ok_or_else`. -/
def required {α : Type} (value : Option α) (detail : String) : Except ToolRuntimeError α :=
  value.elim (.error (snapshotError detail)) .ok

def longestCompleteLineBytes (content : Text) : Nat :=
  (completeLines content).foldl (fun longest line => max longest (utf8Length line)) 0

def collectionIncompleteError (detail : Text) : ToolRuntimeError :=
  .invalidArguments ("graph_explore collection incomplete: ".toList ++ detail ++
    "; refine query, kind, or path and try again".toList)

def checkContent (content : Text) : Except ToolRuntimeError Unit :=
  if maxGraphSnapshotLineBytes < longestCompleteLineBytes content then
    .error (collectionIncompleteError ("a snapshot source line exceeds the ".toList ++
      natText maxGraphSnapshotLineBytes ++ "-byte readable-line safety limit".toList))
  else .ok ()

/-- The fields that a snippet is rendered from. -/
def snippetFields (value : Json) : Except ToolRuntimeError SnippetFields := do
  let symbol ← required (value.get "symbol") "snippet is missing symbol"
  let symbolId ← required ((symbol.get "symbolId").bind Json.asI64) "symbol is missing symbolId"
  let path ← required (value.getStr "path") "snippet is missing path"
  let name ← required (symbol.getStr "name") "symbol is missing name"
  let qualifiedName := (symbol.getStr "qualifiedName").getD name
  let kind := (symbol.getStr "kind").getD "unknown".toList
  let startLine ← required ((value.get "startLine").bind Json.asU64) "snippet is missing startLine"
  let endLine ← required ((value.get "endLine").bind Json.asU64) "snippet is missing endLine"
  let content ← required (value.getStr "content") "snippet is missing content"
  checkContent content
  return { symbolId, path, qualifiedName, kind, startLine, endLine, content }

/-- The text so far and the number of the next line. -/
structure SnapshotText where
  contents : Text
  nextLine : Nat

def appendGraphSnapshotLine (snapshot : SnapshotText) (line : Text) : SnapshotText :=
  ⟨snapshot.contents ++ line ++ ['\n'], saturatingAdd snapshot.nextLine 1⟩

def appendSource (snapshot : SnapshotText) (content : Text) : SnapshotText :=
  ⟨snapshot.contents ++ content ++ (if content.getLast? = some '\n' then [] else ['\n']),
    saturatingAdd snapshot.nextLine (completeLineCount content)⟩

def snippetHeader (index : Nat) : Text :=
  "=== graph_explore snippet ".toList ++ natText (index + 1) ++ " ===".toList

/-- The lines in front of the source. -/
def headerLines (index : Nat) (fields : SnippetFields) : List Text :=
  [snippetHeader index,
    "symbolId: ".toList ++ intText fields.symbolId,
    "path: ".toList ++ fields.path,
    "symbol: ".toList ++ fields.qualifiedName ++ " (".toList ++ fields.kind ++ [')'],
    "sourceLines: ".toList ++ natText fields.startLine ++ ['-'] ++ natText fields.endLine,
    "source:".toList]

def footerLines (index : Nat) : List Text :=
  ["=== end graph_explore snippet ".toList ++ natText (index + 1) ++ " ===".toList, []]

def appendSnippet (snapshot : SnapshotText) (index : Nat) (fields : SnippetFields) :
    SnapshotText :=
  (footerLines index).foldl appendGraphSnapshotLine
    (appendSource ((headerLines index fields).foldl appendGraphSnapshotLine snapshot)
      fields.content)

/-- The loop of `render_graph_explore_snapshot`. -/
def renderFrom (snapshot : SnapshotText) (startLines : List Nat) (index : Nat) :
    List GraphExploreSnippet → Except ToolRuntimeError (Text × List Nat)
  | [] => .ok (snapshot.contents, startLines)
  | snippet :: rest => do
    let fields ← snippetFields snippet.value
    renderFrom (appendSnippet snapshot index fields) (startLines ++ [snapshot.nextLine])
      (index + 1) rest

def renderGraphExploreSnapshot (snippets : List GraphExploreSnippet) :
    Except ToolRuntimeError (Text × List Nat) :=
  renderFrom ⟨[], 1⟩ [] 0 snippets

/-- `next_graph_snapshot_id` gives the id. -/
def prepareGraphExploreSnapshot (id : Text) (snippets : List GraphExploreSnippet) :
    Except ToolRuntimeError GraphExploreSnapshot := do
  let (contents, snippetStartLines) ← renderGraphExploreSnapshot snippets
  return { id, contents, snippetStartLines }

def graphSnapshotTextRelativePath (id : Text) : Text :=
  ".foco/graph-results/".toList ++ id ++ ".txt".toList

/-! ## The response -/

structure Request where
  query : Option Text
  path : Option Text
  contextLines : Nat
  timeoutMs : Nat

structure Continuation where
  nextOffset : Nat
  nextStartLine : Nat
  fullResultPath : Text
  note : Text

structure Response where
  request : Request
  snippets : List Json
  truncated : Bool
  outputTruncated : Bool
  totalCount : Nat
  returnedCount : Nat
  continuation : Option Continuation

def optionalText (text : Option Text) : Json := text.elim .null .string

def Continuation.toJson (continuation : Continuation) : JsonMap :=
  [("nextOffset", jsonNat continuation.nextOffset),
    ("nextStartLine", jsonNat continuation.nextStartLine),
    ("fullResultPath", .string continuation.fullResultPath),
    ("note", .string continuation.note)]

def Response.toJson (response : Response) : Json :=
  .object ([("query", optionalText response.request.query),
    ("path", optionalText response.request.path),
    ("contextLines", jsonNat response.request.contextLines),
    ("snippets", .array response.snippets),
    ("truncated", .bool response.truncated),
    ("outputTruncated", .bool response.outputTruncated),
    ("totalCount", jsonNat response.totalCount),
    ("returnedCount", jsonNat response.returnedCount),
    ("timeoutMs", jsonNat response.request.timeoutMs)] ++
      response.continuation.elim [] Continuation.toJson)

def continuationNote (returnedCount totalCount : Nat) (fullResultPath : Text)
    (nextStartLine : Nat) : Text :=
  "Results truncated: showing ".toList ++ natText returnedCount ++ " of ".toList ++
    natText totalCount ++ " snippets. The complete stable snapshot is at '".toList ++
    fullResultPath ++ "'. Continue with read_file(path='".toList ++ fullResultPath ++
    "', startLine=".toList ++ natText nextStartLine ++ ", endLine=<small range>).".toList

/-- What is said about the snapshot, if there is one. -/
def continuationOf (returnedCount totalCount : Nat) :
    Option GraphExploreSnapshot → Except ToolRuntimeError (Option Continuation)
  | none => .ok none
  | some snapshot =>
    match snapshot.snippetStartLines[returnedCount]? with
    | none => .error (.invalidArguments
        "failed to render graph_explore snapshot continuation line".toList)
    | some nextStartLine =>
      let fullResultPath := graphSnapshotTextRelativePath snapshot.id
      .ok (some {
        nextOffset := returnedCount
        nextStartLine
        fullResultPath
        note := continuationNote returnedCount totalCount fullResultPath nextStartLine })

/-- The snapshot is prepared when it is needed for the first time. -/
def snapshotFor (id : Text) (snippets : List GraphExploreSnippet) (truncated : Bool)
    (snapshot : Option GraphExploreSnapshot) :
    Except ToolRuntimeError (Option GraphExploreSnapshot) :=
  if truncated ∧ snapshot.isNone then (prepareGraphExploreSnapshot id snippets).map some
  else .ok snapshot

def fitsSoftBudget (output : Json) : Except ToolRuntimeError Bool :=
  match measureToolExecution ⟨output, false⟩ with
  | .error source => .error (.invalidArguments
      ("failed to measure graph_explore response output: ".toList ++ source))
  | .ok measurement => .ok (decide (measurement.serializedBytes ≤ toolOutputSoftByteLimit ∧
      measurement.textLines ≤ toolOutputSoftLineLimit))

/-- The response with a number of snippets, and the snapshot after it is made. -/
def responseWith (request : Request) (id : Text) (snippets : List GraphExploreSnippet)
    (requestedCount returnedCount : Nat) (snapshot : Option GraphExploreSnapshot) :
    Except ToolRuntimeError (Response × Option GraphExploreSnapshot) := do
  let totalCount := snippets.length
  let truncated := decide (returnedCount < totalCount)
  let snapshot ← snapshotFor id snippets truncated snapshot
  let continuation ← continuationOf returnedCount totalCount snapshot
  return ({
    request
    snippets := (snippets.take returnedCount).map GraphExploreSnippet.value
    truncated
    outputTruncated := decide (returnedCount < requestedCount)
    totalCount
    returnedCount
    continuation }, snapshot)

/-- The loop of `graph_explore_preview_response`. -/
def previewFrom (request : Request) (id : Text) (snippets : List GraphExploreSnippet)
    (requestedCount returnedCount : Nat) (snapshot : Option GraphExploreSnapshot) :
    Except ToolRuntimeError (Response × Option GraphExploreSnapshot) := do
  let (response, snapshot) ←
    responseWith request id snippets requestedCount returnedCount snapshot
  if (← fitsSoftBudget response.toJson) then return (response, snapshot)
  else match returnedCount with
    | 0 => .error (.invalidArguments "graph_explore response metadata exceeds the shared output budget; refine query or path and try again".toList)
    | returnedCount + 1 =>
      previewFrom request id snippets requestedCount returnedCount snapshot

def graphExplorePreviewResponse (request : Request) (id : Text)
    (snippets : List GraphExploreSnippet) (previewLimit : Nat) :
    Except ToolRuntimeError (Response × Option GraphExploreSnapshot) :=
  let requestedCount := min previewLimit snippets.length
  previewFrom request id snippets requestedCount requestedCount none

end Foco.GraphSnapshots
