import Foco.JsonSize
import Foco.UnixPath

/-!
The output budget every tool result passes before it is transported. A result over the
soft limits is rewritten unless its tool has already paged it, and a rewritten result of a
failed or retry-unsafe tool carries a preview of the original text.
-/
namespace Foco.OutputBudget
open Foco.RustText Foco.TextLines
open Foco.Json (asU64)

def toolOutputSoftByteLimit : Nat := 50 * 1024
def toolOutputSoftLineLimit : Nat := 2000
def toolExecutionHardByteLimit : Nat := 128 * 1024
def toolExecutionEnvelopeReserveBytes : Nat := 8 * 1024
def toolExecutionPayloadHardByteLimit : Nat :=
  toolExecutionHardByteLimit - toolExecutionEnvelopeReserveBytes
def maxEnvelopeToolNameBytes : Nat := 256
def maxOutputPreviewBytes : Nat := 4 * 1024

inductive ToolOutputBudgetState where
  | withinBudget
  | softLimitPreview
  | readOnlyRecoverableFailure
  | retryUnsafeOutputOmitted
  | hardLimitFallback

/-- The state as `serde` writes it. -/
def ToolOutputBudgetState.name : ToolOutputBudgetState → Text
  | .withinBudget => "withinBudget".toList
  | .softLimitPreview => "softLimitPreview".toList
  | .readOnlyRecoverableFailure => "readOnlyRecoverableFailure".toList
  | .retryUnsafeOutputOmitted => "retryUnsafeOutputOmitted".toList
  | .hardLimitFallback => "hardLimitFallback".toList

inductive ToolOutputBudgetReason where
  | softByteLimit
  | softLineLimit
  | hardByteLimit
  | serializationFailure
  deriving DecidableEq

/-- The reason as `serde` writes it. -/
def ToolOutputBudgetReason.name : ToolOutputBudgetReason → Text
  | .softByteLimit => "softByteLimit".toList
  | .softLineLimit => "softLineLimit".toList
  | .hardByteLimit => "hardByteLimit".toList
  | .serializationFailure => "serializationFailure".toList

inductive ToolOutputSemantics where
  | readOnly
  | retryUnsafe
  deriving DecidableEq

structure ToolOutputMeasurement where
  serializedBytes : Nat
  textLines : Nat

/-- The result of a tool call. -/
structure ToolExecution where
  output : Json
  isError : Bool

structure BudgetedToolExecution where
  execution : ToolExecution
  state : ToolOutputBudgetState
  originalMeasurement : Option ToolOutputMeasurement

/-! ## Measuring -/

/-- A tool result as `serde` writes it. -/
def ToolExecution.toJson (execution : ToolExecution) : Json :=
  .object [("output", execution.output), ("isError", .bool execution.isError)]

/-- `serialized_json_size`; the error is the text of the counter's overflow. -/
def serializedJsonSize (execution : ToolExecution) : Except Text Nat :=
  if execution.toJson.size ≤ usizeMax then .ok execution.toJson.size
  else .error "serialized JSON size overflow".toList

/-- `measure_tool_execution`. -/
def measureToolExecution (execution : ToolExecution) : Except Text ToolOutputMeasurement := do
  let serializedBytes ← serializedJsonSize execution
  return { serializedBytes, textLines := execution.output.textLines }

/-- `budget_reason`. -/
def budgetReason (measurement : ToolOutputMeasurement) (hardByteLimit : Nat) :
    Option ToolOutputBudgetReason :=
  if hardByteLimit < measurement.serializedBytes then some .hardByteLimit
  else if toolOutputSoftByteLimit < measurement.serializedBytes then some .softByteLimit
  else if toolOutputSoftLineLimit < measurement.textLines then some .softLineLimit
  else none

/-! ## Results that keep their form -/

/-- `matches!(fields.get(key), Some(Value::Bool(expected)))`. -/
def flagIs (key : String) (expected : Bool) (output : Json) : Bool :=
  match output.get key with
  | some (.bool value) => value == expected
  | _ => false

/-- `is_line_bounded_budget_success`. -/
def isLineBoundedBudgetSuccess (execution : ToolExecution) : Bool :=
  !execution.isError &&
    ((flagIs "truncated" true execution.output &&
        ((execution.output.get "nextStartLine").bind asU64).any (1 ≤ ·)) ||
      (flagIs "softBudgetExceeded" true execution.output &&
        flagIs "truncated" false execution.output))

/-- `is_command_output_cursor_pagination`. -/
def isCommandOutputCursorPagination (toolName : Text) (execution : ToolExecution) : Bool :=
  decide (toolName = "get_command_output".toList) && !execution.isError &&
    flagIs "truncated" true execution.output && flagIs "hasMore" true execution.output &&
    ((execution.output.get "nextCursor").bind asU64).any (1 ≤ ·) &&
    (execution.output.getStr "processId").any (fun processId => !processId.isEmpty) &&
    (execution.output.getStr "note").isSome

/-- `is_get_plans_offset_pagination`. -/
def isGetPlansOffsetPagination (toolName : Text) (execution : ToolExecution) : Bool :=
  decide (toolName = "get_plans".toList) && !execution.isError &&
    flagIs "truncated" true execution.output && flagIs "hasMore" true execution.output &&
    ((execution.output.get "returnedCount").bind asU64).any (0 < ·) &&
    ((execution.output.get "nextOffset").bind asU64).any (0 < ·)

/-- `is_update_spec_content_omitted_success`. -/
def isUpdateSpecContentOmittedSuccess (toolName : Text) (execution : ToolExecution) : Bool :=
  decide (toolName = "update_spec".toList) && !execution.isError &&
    flagIs "contentOmitted" true execution.output &&
    ((execution.output.get "revision").bind asU64).isSome &&
    (execution.output.getStr "updateMode").any (fun mode => !mode.isEmpty) &&
    (execution.output.get "contentMarkdown").isNone

/-- `path_is_skill_md`. -/
def pathIsSkillMd (path : Text) : Bool := decide (UnixPath.fileName path = some "SKILL.md".toList)

/-- `read_file_output_is_skill_md`. -/
def readFileOutputIsSkillMd (output : Json) : Bool :=
  (output.getStr "path").any fun path =>
    pathIsSkillMd path && ((output.get "bytes").bind asU64).isSome

/-- The two exemptions of an over-budget result: a full `SKILL.md` read, and a success that its
tool has already paged or cut. -/
def keepsForm (toolName : Text) (semantics : ToolOutputSemantics) (execution : ToolExecution) :
    Bool :=
  (decide (semantics = .readOnly) && decide (toolName = "read_file".toList) &&
      !execution.isError && readFileOutputIsSkillMd execution.output) ||
    (!execution.isError &&
      (isLineBoundedBudgetSuccess execution ||
        isCommandOutputCursorPagination toolName execution ||
        isGetPlansOffsetPagination toolName execution ||
        isUpdateSpecContentOmittedSuccess toolName execution))

/-! ## Rewriting -/

/-- The longest prefix within a number of UTF-8 bytes that does not split a character. -/
def utf8Prefix : Nat → Text → Text
  | _, [] => []
  | maxBytes, c :: text =>
    if c.utf8Size ≤ maxBytes then c :: utf8Prefix (maxBytes - c.utf8Size) text else []

/-- `bounded_utf8_prefix`. -/
def boundedUtf8Prefix (text : Text) (maxBytes : Nat) : Text × Bool :=
  if utf8Length text ≤ maxBytes then (text, false) else (utf8Prefix maxBytes text, true)

/-- `bounded_tool_name`. -/
def boundedToolName (toolName : Text) : Text × Bool :=
  boundedUtf8Prefix toolName maxEnvelopeToolNameBytes

/-- `common_budget_fields`. -/
def commonBudgetFields (toolName : Text) (state : ToolOutputBudgetState)
    (measurement : ToolOutputMeasurement) (reason : ToolOutputBudgetReason) : JsonMap :=
  [("budgetState", .string state.name),
    ("toolName", .string (boundedToolName toolName).1),
    ("toolNameTruncated", .bool (boundedToolName toolName).2),
    ("originalBytes", jsonNat measurement.serializedBytes),
    ("originalLines", jsonNat measurement.textLines),
    ("reason", .string reason.name),
    ("softLimitBytes", jsonNat toolOutputSoftByteLimit),
    ("softLimitLines", jsonNat toolOutputSoftLineLimit),
    ("hardLimitBytes", jsonNat toolExecutionHardByteLimit),
    ("envelopeReserveBytes", jsonNat toolExecutionEnvelopeReserveBytes)]

def readOnlyRetryGuidance : Text :=
  "Retry with a narrower path, query, range, or limit, or use the tool's continuation ".toList ++
    "mechanism when available.".toList

/-- What a rewritten result says about the output it leaves out. -/
def readOnlyOmitted : Text :=
  "Tool completed, but its read-only result exceeded the shared output ".toList ++
    "budget and was omitted.".toList

def retryUnsafeOmitted : Text :=
  "Tool completed successfully, but its output exceeded the shared ".toList ++
    "output budget and was omitted.".toList

def failureOmitted : Text :=
  "Tool failed, and its oversized error output was explicitly omitted by ".toList ++
    "the shared output budget.".toList

/-- `read_only_failure`; assigning a new field appends it. -/
def readOnlyFailure (toolName : Text) (measurement : ToolOutputMeasurement)
    (reason : ToolOutputBudgetReason) : ToolExecution where
  output := .object <|
    commonBudgetFields toolName .readOnlyRecoverableFailure measurement reason ++
    [("error", .string readOnlyOmitted),
      ("retryable", .bool true),
      ("guidance", .string readOnlyRetryGuidance)]
  isError := true

/-- The fields a preview is taken from, in the order they are tried. -/
def previewFields : List String :=
  ["error", "message", "summary", "status", "path", "stderr", "stdout", "result"]

/-- `output_text_preview`: where the text comes from, its bounded prefix and whether it was cut. -/
def outputTextPreview (output : Json) : Option (String × Text × Bool) :=
  let source := match output with
    | .string text => some ("output", text)
    | .object _ => previewFields.findSome? fun field =>
        (output.getStr field).map fun text => (field, text)
    | _ => none
  source.map fun (field, text) => (field, boundedUtf8Prefix text maxOutputPreviewBytes)

/-- `attach_output_preview`: the fields it adds. -/
def previewAttachment (originalOutput : Json) : JsonMap :=
  match outputTextPreview originalOutput with
  | none => []
  | some (source, preview, truncated) =>
    [("outputPreview", .string preview),
      ("outputPreviewSource", .string source.toList),
      ("outputPreviewTruncated", .bool truncated)]

/-- `retry_unsafe_omission`. -/
def retryUnsafeOmission (toolName : Text) (originalOutput : Json)
    (measurement : ToolOutputMeasurement) (reason : ToolOutputBudgetReason) : ToolExecution where
  output := .object <|
    commonBudgetFields toolName .retryUnsafeOutputOmitted measurement reason ++
    [("summary", .string retryUnsafeOmitted),
      ("outputOmitted", .bool true),
      ("retryUnsafe", .bool true)] ++
    previewAttachment originalOutput
  isError := false

/-- `original_failure_omission`. -/
def originalFailureOmission (toolName : Text) (originalOutput : Json)
    (measurement : ToolOutputMeasurement) (reason : ToolOutputBudgetReason)
    (state : ToolOutputBudgetState) : ToolExecution where
  output := .object <|
    commonBudgetFields toolName state measurement reason ++
    [("error", .string failureOmitted),
      ("outputOmitted", .bool true)] ++
    previewAttachment originalOutput
  isError := true

/-- `serialization_fallback`. -/
def serializationFallback (toolName : Text) (semantics : ToolOutputSemantics)
    (originalIsError : Bool) (error : Text) : ToolExecution where
  output := .object
    [("budgetState", .string ToolOutputBudgetState.hardLimitFallback.name),
      ("toolName", .string (boundedToolName toolName).1),
      ("toolNameTruncated", .bool (boundedToolName toolName).2),
      ("reason", .string ToolOutputBudgetReason.serializationFailure.name),
      ("error", .string
        ("Tool result could not be measured for safe serialization: ".toList ++ error)),
      ("outputOmitted", .bool true),
      ("retryUnsafe", .bool (!originalIsError && decide (semantics = .retryUnsafe))),
      ("hardLimitBytes", jsonNat toolExecutionHardByteLimit),
      ("envelopeReserveBytes", jsonNat toolExecutionEnvelopeReserveBytes)]
  isError := originalIsError || decide (semantics = .readOnly)

/-- `minimal_hard_limit_fallback`. -/
def minimalHardLimitFallback (toolName : Text) (semantics : ToolOutputSemantics)
    (measurement : ToolOutputMeasurement) (isError : Bool) : ToolExecution where
  output := .object
    [("budgetState", .string ToolOutputBudgetState.hardLimitFallback.name),
      ("toolName", .string (boundedToolName toolName).1),
      ("originalBytes", jsonNat measurement.serializedBytes),
      ("reason", .string ToolOutputBudgetReason.hardByteLimit.name),
      ("outputOmitted", .bool true),
      ("retryUnsafe", .bool (!isError && decide (semantics = .retryUnsafe))),
      ("hardLimitBytes", jsonNat toolExecutionHardByteLimit),
      ("envelopeReserveBytes", jsonNat toolExecutionEnvelopeReserveBytes)]
  isError := isError

/-! ## Normalising -/

/-- `finalize_budgeted_execution`. -/
def finalizeBudgetedExecution (toolName : Text) (semantics : ToolOutputSemantics)
    (execution : ToolExecution) (state : ToolOutputBudgetState)
    (measurement : ToolOutputMeasurement) (hardByteLimit : Nat)
    (measureEnvelope : ToolExecution → Except Text Nat) : BudgetedToolExecution :=
  let fits := match measureEnvelope execution with
    | .ok serializedBytes => decide (serializedBytes ≤ hardByteLimit)
    | .error _ => false
  if fits then ⟨execution, state, some measurement⟩
  else
    ⟨minimalHardLimitFallback toolName semantics measurement execution.isError,
      .hardLimitFallback, some measurement⟩

/-- The rewriting of a result that is over the budget and does not keep its form. -/
def rewriteExecution (toolName : Text) (semantics : ToolOutputSemantics)
    (execution : ToolExecution) (measurement : ToolOutputMeasurement)
    (reason : ToolOutputBudgetReason) : ToolExecution × ToolOutputBudgetState :=
  if execution.isError then
    let state := if reason = .hardByteLimit then .hardLimitFallback else .softLimitPreview
    (originalFailureOmission toolName execution.output measurement reason state, state)
  else
    match semantics with
    | .readOnly => (readOnlyFailure toolName measurement reason, .readOnlyRecoverableFailure)
    | .retryUnsafe =>
      (retryUnsafeOmission toolName execution.output measurement reason, .retryUnsafeOutputOmitted)

/-- `normalize_tool_execution_with_measurement`. -/
def normalizeToolExecutionWithMeasurement (toolName : Text) (semantics : ToolOutputSemantics)
    (execution : ToolExecution) (hardByteLimit : Nat)
    (measureEnvelope : ToolExecution → Except Text Nat) : BudgetedToolExecution :=
  match measureEnvelope execution with
  | .error error =>
    ⟨serializationFallback toolName semantics execution.isError error, .hardLimitFallback, none⟩
  | .ok serializedBytes =>
    let measurement := ⟨serializedBytes, execution.output.textLines⟩
    match budgetReason measurement hardByteLimit with
    | none => ⟨execution, .withinBudget, some measurement⟩
    | some reason =>
      if reason ≠ .hardByteLimit ∧ keepsForm toolName semantics execution = true then
        ⟨execution, .withinBudget, some measurement⟩
      else
        let (rewritten, state) :=
          rewriteExecution toolName semantics execution measurement reason
        finalizeBudgetedExecution toolName semantics rewritten state measurement hardByteLimit
          measureEnvelope

/-- `normalize_tool_execution`. -/
def normalizeToolExecution (toolName : Text) (semantics : ToolOutputSemantics)
    (execution : ToolExecution) : BudgetedToolExecution :=
  normalizeToolExecutionWithMeasurement toolName semantics execution
    toolExecutionPayloadHardByteLimit serializedJsonSize

end Foco.OutputBudget
