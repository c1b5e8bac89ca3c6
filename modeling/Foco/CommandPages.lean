import Foco.OutputBudget
import Foco.OutputReaders
import Foco.Utf8Lossy

/-!
The pages `get_command_output` cuts from a command's retained chunks. A page takes chunks
in cursor order as long as the whole response, measured as a tool result, stays within
the shared soft limits; the client asks again with the returned cursor while the page says
that there is more.
-/
namespace Foco.BackgroundCommand
open Foco.RustText Foco.OutputBudget
open Foco.Json (asU64)

inductive BackgroundCommandStatus where
  | running
  | exited
  | stopped
  | timedOut
  | failed
  deriving DecidableEq

inductive BackgroundCommandTermination where
  | explicitStop
  | timeout
  | hostShutdown

/-- What a page reads of a command's snapshot. The command id is formatted from the registry's
sequence number, and instants are milliseconds of the Unix epoch. -/
structure BackgroundCommandSnapshot where
  commandSequence : UInt64
  pid : UInt32
  status : BackgroundCommandStatus
  startedAt : UInt64
  endedAt : Option UInt64
  exitCode : Option Int32
  termination : Option BackgroundCommandTermination
  retainedOutputBytes : UInt64

/-- Sixteen hexadecimal digits, as `{:016x}` formats a 64-bit number. -/
def hexText (n : Nat) : Text :=
  (List.range 16).map fun place => Nat.digitChar (n / 16 ^ (15 - place) % 16)

/-- The id `reserve_command_slot` formats. -/
def BackgroundCommandSnapshot.commandId (snapshot : BackgroundCommandSnapshot) : Text :=
  "command-".toList ++ hexText snapshot.commandSequence.toNat

/-- `background_status_name`. -/
def backgroundStatusName : BackgroundCommandStatus → Text
  | .running => "running".toList
  | .exited => "exited".toList
  | .stopped => "stopped".toList
  | .timedOut => "timed_out".toList
  | .failed => "failed".toList

/-- `background_termination_name`. -/
def backgroundTerminationName : BackgroundCommandTermination → Text
  | .explicitStop => "explicit_stop".toList
  | .timeout => "timeout".toList
  | .hostShutdown => "host_shutdown".toList

/-- `background_success`. -/
def backgroundSuccess (snapshot : BackgroundCommandSnapshot) : Option Bool :=
  match snapshot.status with
  | .running => none
  | .exited => some (decide (snapshot.exitCode = some 0))
  | .stopped | .timedOut | .failed => some false

/-- An optional value, `null` when absent. -/
def jsonOption {α : Type} (toJson : α → Json) (value : Option α) : Json :=
  (value.map toJson).getD .null

/-- The fields of a response that do not depend on the page. -/
def responseBase (snapshot : BackgroundCommandSnapshot) (output : BackgroundCommandOutput)
    (requestedCursor : Option Nat) : JsonMap :=
  let availableFromCursor := output.earliestCursor.getD output.nextCursor
  [("processId", .string snapshot.commandId),
    ("pid", jsonNat snapshot.pid.toNat),
    ("status", .string (backgroundStatusName snapshot.status)),
    ("startedAt", jsonNat snapshot.startedAt.toNat),
    ("endedAt", jsonOption (fun time => jsonNat time.toNat) snapshot.endedAt),
    ("exitCode", jsonOption (fun code => .number (.integer code.toInt)) snapshot.exitCode),
    ("success", jsonOption .bool (backgroundSuccess snapshot)),
    ("terminationReason",
      jsonOption (fun reason => .string (backgroundTerminationName reason)) snapshot.termination),
    ("fromCursor", jsonNat (requestedCursor.getD availableFromCursor)),
    ("availableFromCursor", jsonNat availableFromCursor),
    ("cursorExpired", .bool output.cursorExpired),
    ("retainedOutputBytes", jsonNat snapshot.retainedOutputBytes.toNat),
    ("outputTruncated", .bool output.outputTruncated)]

def invalidResponse : Text := "invalid managed command response".toList

/-- The note of a page that is not the last. -/
def pageNote (processId : Text) (nextCursor : Nat) : Text :=
  "This response was explicitly paginated under the shared output budget; no retained ".toList ++
    "output was silently discarded. Continue with get_command_output using the same ".toList ++
    "processId=".toList ++ processId ++ " and cursor=".toList ++ natText nextCursor ++
    " (the returned nextCursor) to receive the next complete chunk without repeats. ".toList ++
    "This response-level truncated flag is separate from outputTruncated and ".toList ++
    "cursorExpired, which only describe the retained process buffer.".toList

/-- `command_output_page`; inserting a new field appends it. -/
def commandOutputPage (response : JsonMap) (chunks : List Json) (nextCursor : Nat)
    (hasMore : Bool) : Except Text Json :=
  match (Json.object response).getStr "processId" with
  | none => .error invalidResponse
  | some processId =>
    .ok <| .object <| response ++
      [("chunks", .array chunks), ("nextCursor", jsonNat nextCursor), ("hasMore", .bool hasMore),
        ("truncated", .bool hasMore)] ++
      if hasMore then [("note", .string (pageNote processId nextCursor))] else []

/-- The name of a stream on a page. -/
def streamName : BackgroundCommandOutputStream → Text
  | .stdout => "stdout".toList
  | .stderr => "stderr".toList

/-- A chunk as a page shows it. -/
def chunkJson (chunk : BackgroundCommandOutputChunk) : Json :=
  .object
    [("cursor", jsonNat chunk.cursor),
      ("stream", .string (streamName chunk.stream)),
      ("text", .string (fromUtf8Lossy chunk.bytes))]

/-- The loop of `limited_chunks` over the chunks that are not on the page yet. -/
def limitedChunksFrom (response : JsonMap) :
    List Json → Nat → List BackgroundCommandOutputChunk → Except Text (List Json × Nat)
  | chunks, nextCursor, [] => .ok (chunks, nextCursor)
  | chunks, nextCursor, chunk :: rest => do
    let candidate ← commandOutputPage response (chunks ++ [chunkJson chunk]) chunk.cursor
      (!rest.isEmpty)
    match measureToolExecution ⟨candidate, false⟩ with
    | .error source => .error ("failed to measure managed command output: ".toList ++ source)
    | .ok measurement =>
      if toolOutputSoftByteLimit < measurement.serializedBytes ∨
          toolOutputSoftLineLimit < measurement.textLines then
        .ok (chunks, nextCursor)
      else limitedChunksFrom response (chunks ++ [chunkJson chunk]) chunk.cursor rest

/-- `limited_chunks`. -/
def limitedChunks (response : JsonMap) (output : BackgroundCommandOutput)
    (cursorBeforeOutput : Nat) : Except Text (List Json × Nat × Bool) := do
  let (chunks, nextCursor) ← limitedChunksFrom response [] cursorBeforeOutput output.chunks
  return (chunks, nextCursor, decide (chunks.length < output.chunks.length))

/-- The cursor before the first chunk of a page. -/
def cursorBeforeOutput (output : BackgroundCommandOutput) (requestedCursor : Option Nat) : Nat :=
  requestedCursor.getD (output.earliestCursor.getD output.nextCursor - 1)

/-- `command_output_response`. -/
def commandOutputResponse (snapshot : BackgroundCommandSnapshot) (output : BackgroundCommandOutput)
    (requestedCursor : Option Nat) : Except Text Json := do
  let response := responseBase snapshot output requestedCursor
  let (chunks, nextCursor, hasMore) ←
    limitedChunks response output (cursorBeforeOutput output requestedCursor)
  commandOutputPage response chunks nextCursor hasMore

/-- The page `get_command_output` returns for a cursor. -/
def getCommandOutput (snapshot : BackgroundCommandSnapshot) (ring : OutputRingBuffer)
    (cursor : Option Nat) : Except Text Json :=
  commandOutputResponse snapshot (ring.readAfter snapshot.commandId cursor) cursor

/-! ## The client -/

/-- What a client reads from a page: the chunks, the next cursor and whether there is more. -/
def pageChunks (page : Json) : Option (List Json) :=
  match page.get "chunks" with
  | some (.array chunks) => some chunks
  | _ => none

def pageNextCursor (page : Json) : Option Nat := (page.get "nextCursor").bind asU64

def pageHasMore (page : Json) : Bool := flagIs "hasMore" true page

/-- A client that follows the returned cursor while there is more, for a number of calls: the
chunks of all pages, if the last page says that it is the last. -/
def followPages (snapshot : BackgroundCommandSnapshot) (ring : OutputRingBuffer) :
    Nat → Option Nat → Option (List Json)
  | 0, _ => none
  | calls + 1, cursor =>
    match getCommandOutput snapshot ring cursor with
    | .error _ => none
    | .ok page => do
      let chunks ← pageChunks page
      if pageHasMore page then
        let next ← pageNextCursor page
        let others ← followPages snapshot ring calls (some next)
        return chunks ++ others
      else return chunks

/-- The buffer after some appends. -/
def produced (maxBytes : Nat) (writes : List OutputWrite) : OutputRingBuffer :=
  writes.foldl (fun ring write => (ring.append write.stream write.bytes maxBytes).1) .new

end Foco.BackgroundCommand
