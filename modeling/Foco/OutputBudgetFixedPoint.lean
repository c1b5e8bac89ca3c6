import Foco.OutputBudget

/-!
Normalising a tool result once should be enough: the result then fits the payload limit,
keeps its outcome, and a second normalisation with the same tool leaves it alone. A
rewritten result is always small in bytes; only the lines of the preview it embeds can
put it over the line limit again.
-/
namespace Foco.OutputBudget
open Foco.RustText Foco.TextLines

/-! ## Bounded prefixes -/

theorem utf8Length_utf8Prefix (maxBytes : Nat) (text : Text) :
    utf8Length (utf8Prefix maxBytes text) ≤ maxBytes := by
  induction text generalizing maxBytes with
  | nil => exact Nat.zero_le _
  | cons c text ih =>
    rw [utf8Prefix]
    split
    · have rest := ih (maxBytes - c.utf8Size)
      rw [utf8Length_cons]
      omega
    · exact Nat.zero_le _

theorem utf8Length_boundedUtf8Prefix (text : Text) (maxBytes : Nat) :
    utf8Length (boundedUtf8Prefix text maxBytes).1 ≤ maxBytes := by
  unfold boundedUtf8Prefix
  split
  · assumption
  · exact utf8Length_utf8Prefix maxBytes text

/-- A bounded text is small as a JSON string. -/
theorem stringSize_boundedUtf8Prefix (text : Text) (maxBytes : Nat) :
    stringSize (boundedUtf8Prefix text maxBytes).1 ≤ 6 * maxBytes + 2 := by
  have bytes := utf8Length_boundedUtf8Prefix text maxBytes
  have escaped := escapedLength_le (boundedUtf8Prefix text maxBytes).1
  rw [stringSize]
  omega

/-- A bounded text has few lines. -/
theorem completeLineCount_boundedUtf8Prefix (text : Text) (maxBytes : Nat) :
    completeLineCount (boundedUtf8Prefix text maxBytes).1 ≤ maxBytes :=
  (completeLineCount_le _).trans <| (length_le_utf8Length _).trans <|
    utf8Length_boundedUtf8Prefix text maxBytes

/-! ## The sizes of rewritten results -/

theorem ToolOutputBudgetState.name_size (state : ToolOutputBudgetState) :
    stringSize state.name ≤ 28 := by
  cases state <;> (unfold name; rewrite [String.toList_ofList]; decide)

theorem ToolOutputBudgetState.name_lines (state : ToolOutputBudgetState) :
    completeLineCount state.name = 1 := by
  cases state <;> (unfold name; rewrite [String.toList_ofList]; decide)

theorem ToolOutputBudgetReason.name_size (reason : ToolOutputBudgetReason) :
    stringSize reason.name ≤ 22 := by
  cases reason <;> (unfold name; rewrite [String.toList_ofList]; decide)

theorem ToolOutputBudgetReason.name_lines (reason : ToolOutputBudgetReason) :
    completeLineCount reason.name = 1 := by
  cases reason <;> (unfold name; rewrite [String.toList_ofList]; decide)

theorem boundedToolName_size (toolName : Text) :
    stringSize (boundedToolName toolName).1 ≤ 1538 :=
  stringSize_boundedUtf8Prefix toolName maxEnvelopeToolNameBytes

/-- A measurement of 64-bit counters. -/
def ToolOutputMeasurement.Counted (measurement : ToolOutputMeasurement) : Prop :=
  measurement.serializedBytes ≤ usizeMax ∧ measurement.textLines ≤ usizeMax

theorem commonBudgetFields_size (toolName : Text) (state : ToolOutputBudgetState)
    {measurement : ToolOutputMeasurement} (counted : measurement.Counted)
    (reason : ToolOutputBudgetReason) :
    Json.sizeOfFields (commonBudgetFields toolName state measurement reason) ≤ 2000 := by
  have keys : stringSize "budgetState".toList = 13 ∧ stringSize "toolName".toList = 10 ∧
      stringSize "toolNameTruncated".toList = 19 ∧ stringSize "originalBytes".toList = 15 ∧
      stringSize "originalLines".toList = 15 ∧ stringSize "reason".toList = 8 ∧
      stringSize "softLimitBytes".toList = 16 ∧ stringSize "softLimitLines".toList = 16 ∧
      stringSize "hardLimitBytes".toList = 16 ∧
      stringSize "envelopeReserveBytes".toList = 22 := by
    repeat rewrite [String.toList_ofList]
    decide
  have stateSize := state.name_size
  have nameSize := boundedToolName_size toolName
  have cut := size_bool_le (boundedToolName toolName).2
  have bytes := size_jsonNat_le counted.1
  have lines := size_jsonNat_le counted.2
  have reasonSize := reason.name_size
  have limits : (jsonNat toolOutputSoftByteLimit).size = 5 ∧
      (jsonNat toolOutputSoftLineLimit).size = 4 ∧
      (jsonNat toolExecutionHardByteLimit).size = 6 ∧
      (jsonNat toolExecutionEnvelopeReserveBytes).size = 4 := by decide
  simp only [commonBudgetFields, Json.sizeOfFields, size_string, keys, limits]
  omega

/-- A preview is a bounded text from one of a few fields. -/
theorem outputTextPreview_spec {output : Json} {source : String} {preview : Text}
    {truncated : Bool} (taken : outputTextPreview output = some (source, preview, truncated)) :
    source ∈ "output" :: previewFields ∧
      ∃ text, boundedUtf8Prefix text maxOutputPreviewBytes = (preview, truncated) := by
  obtain ⟨⟨field, text⟩, found, same⟩ := Option.map_eq_some_iff.mp taken
  simp only [Prod.mk.injEq] at same
  obtain ⟨rfl, bounded⟩ := same
  refine ⟨?_, text, bounded⟩
  cases output with
  | string value =>
    simp only [Option.some.injEq, Prod.mk.injEq] at found
    exact found.1 ▸ List.mem_cons_self
  | object fields =>
    obtain ⟨name, mem, got⟩ := List.exists_of_findSome?_eq_some found
    obtain ⟨_, -, pair⟩ := Option.map_eq_some_iff.mp got
    simp only [Prod.mk.injEq] at pair
    exact List.mem_cons_of_mem _ (pair.1 ▸ mem)
  | null | bool | number | array => cases found

theorem previewSource_small {source : String} (mem : source ∈ "output" :: previewFields) :
    stringSize source.toList ≤ 9 ∧ completeLineCount source.toList = 1 := by
  have all : ∀ source ∈ "output" :: previewFields,
      stringSize source.toList ≤ 9 ∧ completeLineCount source.toList = 1 := by
    unfold previewFields
    simp only [List.forall_mem_cons, List.not_mem_nil, false_implies, implies_true, and_true,
      -String.reduceToList]
    repeat rewrite [String.toList_ofList]
    decide
  exact all source mem

theorem previewAttachment_size (output : Json) :
    Json.sizeOfFields (previewAttachment output) ≤ 25000 := by
  unfold previewAttachment
  split
  · exact Nat.zero_le _
  · rename_i source preview truncated taken
    obtain ⟨mem, text, bounded⟩ := outputTextPreview_spec taken
    have keys : stringSize "outputPreview".toList = 15 ∧
        stringSize "outputPreviewSource".toList = 21 ∧
        stringSize "outputPreviewTruncated".toList = 24 := by
      repeat rewrite [String.toList_ofList]
      decide
    have sourceSize := (previewSource_small mem).1
    have previewSize : stringSize preview ≤ 6 * (4 * 1024) + 2 := by
      have size := stringSize_boundedUtf8Prefix text maxOutputPreviewBytes
      rwa [bounded] at size
    have flag := size_bool_le truncated
    simp only [Json.sizeOfFields, size_string]
    omega

theorem commonBudgetFields_lines (toolName : Text) (state : ToolOutputBudgetState)
    (measurement : ToolOutputMeasurement) (reason : ToolOutputBudgetReason) :
    fieldLines (commonBudgetFields toolName state measurement reason) =
      completeLineCount (boundedToolName toolName).1 + 2 := by
  have stateLines := state.name_lines
  have reasonLines := reason.name_lines
  simp only [commonBudgetFields, fieldLines_cons, fieldLines_nil, jsonNat, Json.textLines]
  omega

/-- The lines of an attached preview and of the name of its source. -/
def previewLines (output : Json) : Nat :=
  ((outputTextPreview output).map fun preview => completeLineCount preview.2.1 + 1).getD 0

theorem previewAttachment_lines (output : Json) :
    fieldLines (previewAttachment output) = previewLines output := by
  unfold previewAttachment previewLines
  split
  · rename_i none_
    rw [none_]
    rfl
  · rename_i source preview truncated taken
    rw [taken]
    have sourceLines := (previewSource_small (outputTextPreview_spec taken).1).2
    simp only [fieldLines_cons, fieldLines_nil, Json.textLines, Option.map_some, Option.getD_some]
    omega

/-- A result of few bytes of fields is within the soft limit. -/
theorem toJson_size_le {fields : JsonMap} (small : Json.sizeOfFields fields ≤ 50000)
    (isError : Bool) :
    (ToolExecution.toJson ⟨.object fields, isError⟩).size ≤ toolOutputSoftByteLimit := by
  have keys : stringSize "output".toList = 8 ∧ stringSize "isError".toList = 9 := by
    repeat rewrite [String.toList_ofList]
    decide
  have flag := size_bool_le isError
  have limit : toolOutputSoftByteLimit = 51200 := rfl
  simp only [ToolExecution.toJson, Json.size, Json.sizeOfFields] at flag ⊢
  omega

/-! ## One normalisation -/

theorem serializedJsonSize_eq {execution : ToolExecution}
    (bytes : execution.toJson.size ≤ toolOutputSoftByteLimit) :
    serializedJsonSize execution = .ok execution.toJson.size :=
  if_pos (bytes.trans (by decide))

/-- A result within the soft limits is returned as it is. -/
theorem normalize_within (toolName : Text) (semantics : ToolOutputSemantics)
    {execution : ToolExecution} (bytes : execution.toJson.size ≤ toolOutputSoftByteLimit)
    (lines : execution.output.textLines ≤ toolOutputSoftLineLimit) :
    (normalizeToolExecution toolName semantics execution).execution = execution := by
  have measured := serializedJsonSize_eq bytes
  have hard : ¬toolExecutionPayloadHardByteLimit < execution.toJson.size :=
    Nat.not_lt_of_le (bytes.trans (by decide))
  simp only [normalizeToolExecution, normalizeToolExecutionWithMeasurement, measured,
    budgetReason, hard, Nat.not_lt_of_le bytes, Nat.not_lt_of_le lines, if_false]

/-- A result whose rewriting is small is replaced by that rewriting. -/
theorem normalize_rewrites (toolName : Text) (semantics : ToolOutputSemantics)
    {execution : ToolExecution} {bytes : Nat} {reason : ToolOutputBudgetReason}
    (measured : serializedJsonSize execution = .ok bytes)
    (exceeds : budgetReason ⟨bytes, execution.output.textLines⟩ toolExecutionPayloadHardByteLimit =
      some reason)
    (loses : ¬(reason ≠ .hardByteLimit ∧ keepsForm toolName semantics execution = true))
    (small : (rewriteExecution toolName semantics execution
      ⟨bytes, execution.output.textLines⟩ reason).1.toJson.size ≤ toolOutputSoftByteLimit) :
    (normalizeToolExecution toolName semantics execution).execution =
      (rewriteExecution toolName semantics execution
        ⟨bytes, execution.output.textLines⟩ reason).1 := by
  have measured' := serializedJsonSize_eq small
  have fits : decide ((rewriteExecution toolName semantics execution
      ⟨bytes, execution.output.textLines⟩ reason).1.toJson.size ≤
        toolExecutionPayloadHardByteLimit) = true :=
    decide_eq_true (small.trans (by decide))
  simp only [normalizeToolExecution, normalizeToolExecutionWithMeasurement, measured, exceeds, loses,
    if_false, finalizeBudgetedExecution, measured', fits, if_true]

/-- The fields that say what became of an omitted output. -/
def omissionNotice (isError : Bool) : JsonMap :=
  if isError then
    [("error", .string failureOmitted),
      ("outputOmitted", .bool true)]
  else
    [("summary", .string retryUnsafeOmitted),
      ("outputOmitted", .bool true),
      ("retryUnsafe", .bool true)]

/-- The state of an omitted output. -/
def omissionState (isError : Bool) (reason : ToolOutputBudgetReason) : ToolOutputBudgetState :=
  if isError then if reason = .hardByteLimit then .hardLimitFallback else .softLimitPreview
  else .retryUnsafeOutputOmitted

/-- A rewritten failure or retry-unsafe success: what happened, and a preview of the output. -/
def omission (toolName : Text) (execution : ToolExecution) (measurement : ToolOutputMeasurement)
    (reason : ToolOutputBudgetReason) : ToolExecution where
  output := .object <|
    commonBudgetFields toolName (omissionState execution.isError reason) measurement reason ++
      omissionNotice execution.isError ++ previewAttachment execution.output
  isError := execution.isError

/-- A failure, or the success of a tool that must not be run again. -/
def CarriesPreview (semantics : ToolOutputSemantics) (execution : ToolExecution) : Prop :=
  execution.isError = true ∨ semantics = .retryUnsafe

section Rewriting

variable {toolName : Text} {semantics : ToolOutputSemantics} {execution : ToolExecution}
  {measurement : ToolOutputMeasurement} {reason : ToolOutputBudgetReason}

theorem rewriteExecution_omission (carries : CarriesPreview semantics execution) :
    (rewriteExecution toolName semantics execution measurement reason).1 =
      omission toolName execution measurement reason := by
  unfold rewriteExecution omission
  cases failed : execution.isError with
  | true => rfl
  | false =>
    obtain rfl : semantics = .retryUnsafe :=
      carries.resolve_left (by rw [failed]; exact Bool.false_ne_true)
    rfl

theorem rewriteExecution_failure (carries : ¬CarriesPreview semantics execution) :
    (rewriteExecution toolName semantics execution measurement reason).1 =
      readOnlyFailure toolName measurement reason := by
  unfold rewriteExecution
  obtain ⟨succeeded, notUnsafe⟩ := not_or.mp carries
  rw [if_neg succeeded]
  cases semantics with
  | readOnly => rfl
  | retryUnsafe => exact absurd rfl notUnsafe

theorem omissionNotice_size (isError : Bool) :
    Json.sizeOfFields (omissionNotice isError) ≤ 300 := by
  cases isError <;>
    (unfold omissionNotice failureOmitted retryUnsafeOmitted
     repeat rewrite [String.toList_ofList]
     decide)

set_option maxRecDepth 1024 in
/-- What a result says of its omitted output is one line each. -/
theorem notices_lines :
    completeLineCount failureOmitted = 1 ∧ completeLineCount retryUnsafeOmitted = 1 ∧
      completeLineCount readOnlyOmitted = 1 ∧ completeLineCount readOnlyRetryGuidance = 1 := by
  unfold failureOmitted retryUnsafeOmitted readOnlyOmitted readOnlyRetryGuidance
  repeat rewrite [String.toList_ofList]
  decide

theorem omissionNotice_lines (isError : Bool) : fieldLines (omissionNotice isError) = 1 := by
  cases isError <;> simp [omissionNotice, Json.textLines, notices_lines]

theorem omission_size (counted : measurement.Counted) :
    (omission toolName execution measurement reason).toJson.size ≤ toolOutputSoftByteLimit := by
  apply toJson_size_le
  have common := commonBudgetFields_size toolName (omissionState execution.isError reason) counted
    reason
  have notice := omissionNotice_size execution.isError
  have preview := previewAttachment_size execution.output
  rw [Json.sizeOfFields_append, Json.sizeOfFields_append]
  omega

/-- The lines a rewritten result with a preview has. -/
def omissionLines (toolName : Text) (output : Json) : Nat :=
  completeLineCount (boundedToolName toolName).1 + previewLines output + 3

theorem omission_lines :
    (omission toolName execution measurement reason).output.textLines ≤ toolOutputSoftLineLimit ↔
      omissionLines toolName execution.output ≤ toolOutputSoftLineLimit := by
  have common := commonBudgetFields_lines toolName (omissionState execution.isError reason)
    measurement reason
  have notice := omissionNotice_lines execution.isError
  have preview := previewAttachment_lines execution.output
  rw [omission, Json.textLines_object_le (by decide)]
  change fieldLines _ ≤ _ ↔ _
  rw [fieldLines_append, fieldLines_append, common, notice, preview, omissionLines]
  omega

theorem readOnlyFailure_small (counted : measurement.Counted) :
    (readOnlyFailure toolName measurement reason).toJson.size ≤ toolOutputSoftByteLimit ∧
      (readOnlyFailure toolName measurement reason).output.textLines ≤
        toolOutputSoftLineLimit := by
  have common := commonBudgetFields_size toolName .readOnlyRecoverableFailure counted reason
  have commonLines :=
    commonBudgetFields_lines toolName .readOnlyRecoverableFailure measurement reason
  have name := completeLineCount_boundedUtf8Prefix toolName maxEnvelopeToolNameBytes
  have limit : maxEnvelopeToolNameBytes = 256 ∧ toolOutputSoftLineLimit = 2000 := ⟨rfl, rfl⟩
  refine ⟨toJson_size_le ?_ true, ?_⟩
  · rw [Json.sizeOfFields_append]
    have own : Json.sizeOfFields [("error", .string readOnlyOmitted), ("retryable", .bool true),
        ("guidance", .string readOnlyRetryGuidance)] ≤ 400 := by
      unfold readOnlyOmitted readOnlyRetryGuidance
      repeat rewrite [String.toList_ofList]
      decide
    exact (Nat.add_le_add common own).trans (by decide)
  · rw [readOnlyFailure, Json.textLines_object_le (by decide)]
    change fieldLines _ ≤ _
    have own : fieldLines [("error", .string readOnlyOmitted), ("retryable", .bool true),
        ("guidance", .string readOnlyRetryGuidance)] = 2 := by
      simp [Json.textLines, notices_lines]
    rw [fieldLines_append, commonLines]
    refine (Nat.add_le_add_left (Nat.le_of_eq own) _).trans ?_
    rw [boundedToolName]
    omega

end Rewriting

/-! ## Normalising again -/

section Again

variable {toolName : Text} {semantics : ToolOutputSemantics} {execution : ToolExecution}
  {measurement : ToolOutputMeasurement} {reason : ToolOutputBudgetReason}

theorem serializedJsonSize_ok {bytes : Nat} (measured : serializedJsonSize execution = .ok bytes) :
    bytes = execution.toJson.size ∧ bytes ≤ usizeMax := by
  unfold serializedJsonSize at measured
  split at measured
  · rename_i small
    cases measured
    exact ⟨rfl, small⟩
  · cases measured

theorem counted_of_measured {bytes : Nat} (measured : serializedJsonSize execution = .ok bytes) :
    ToolOutputMeasurement.Counted ⟨bytes, execution.output.textLines⟩ :=
  ⟨(serializedJsonSize_ok measured).2, execution.output.textLines_le⟩

theorem commonBudgetFields_keys (toolName : Text) (state : ToolOutputBudgetState)
    (measurement : ToolOutputMeasurement) (reason : ToolOutputBudgetReason) :
    (commonBudgetFields toolName state measurement reason).map Prod.fst =
      ["budgetState", "toolName", "toolNameTruncated", "originalBytes", "originalLines", "reason",
        "softLimitBytes", "softLimitLines", "hardLimitBytes", "envelopeReserveBytes"] := rfl

theorem previewAttachment_keys (output : Json) :
    (previewAttachment output).map Prod.fst ⊆
      ["outputPreview", "outputPreviewSource", "outputPreviewTruncated"] := by
  unfold previewAttachment
  split
  · exact List.nil_subset _
  · exact List.Subset.refl _

/-- A field that neither the budget nor the preview adds comes from the notice. -/
theorem get_omission {key : String}
    (absent : key ∉ ["budgetState", "toolName", "toolNameTruncated", "originalBytes",
      "originalLines", "reason", "softLimitBytes", "softLimitLines", "hardLimitBytes",
      "envelopeReserveBytes"] ++
      ["outputPreview", "outputPreviewSource", "outputPreviewTruncated"]) :
    (omission toolName execution measurement reason).output.get key =
      (Json.object (omissionNotice execution.isError)).get key := by
  rw [List.mem_append, not_or] at absent
  rw [omission, Json.get_append, Json.get_append,
    Json.get_eq_none (by rw [commonBudgetFields_keys]; exact absent.1),
    Json.get_eq_none fun mem => absent.2 (previewAttachment_keys _ mem), Option.none_or,
    Option.or_none]

/-- No rewritten result looks like one its tool has paged or cut. -/
theorem keepsForm_omission (carries : CarriesPreview semantics execution) :
    keepsForm toolName semantics (omission toolName execution measurement reason) = false := by
  have truncated : (omission toolName execution measurement reason).output.get "truncated" =
      none := by
    rw [get_omission (by decide)]
    cases execution.isError <;> decide
  have content : (omission toolName execution measurement reason).output.get "contentOmitted" =
      none := by
    rw [get_omission (by decide)]
    cases execution.isError <;> decide
  have same : (omission toolName execution measurement reason).isError = execution.isError := rfl
  rcases carries with failed | rfl
  · simp [keepsForm, same, failed]
  · simp [keepsForm, isLineBoundedBudgetSuccess, isCommandOutputCursorPagination,
      isGetPlansOffsetPagination, isUpdateSpecContentOmittedSuccess, flagIs, truncated, content]

/-- The text a rewritten result would be previewed by. -/
theorem outputTextPreview_omission :
    outputTextPreview (omission toolName execution measurement reason).output =
      if execution.isError then some ("error", boundedUtf8Prefix failureOmitted maxOutputPreviewBytes)
      else some ("summary", boundedUtf8Prefix retryUnsafeOmitted maxOutputPreviewBytes) := by
  have error := @get_omission toolName execution measurement reason "error" (by decide)
  have message := @get_omission toolName execution measurement reason "message" (by decide)
  have summary := @get_omission toolName execution measurement reason "summary" (by decide)
  change (previewFields.findSome? fun field =>
    ((omission toolName execution measurement reason).output.getStr field).map fun text =>
      (field, text)).map _ = _
  cases failed : execution.isError with
  | true =>
    have found : (Json.object (omissionNotice true)).get "error" =
        some (.string failureOmitted) := rfl
    rw [failed, found] at error
    simp only [previewFields, List.findSome?_cons, Json.getStr, error, Option.bind_some,
      Json.asStr, Option.map_some, if_true]
  | false =>
    have noError : (Json.object (omissionNotice false)).get "error" = none := rfl
    have noMessage : (Json.object (omissionNotice false)).get "message" = none := rfl
    have found : (Json.object (omissionNotice false)).get "summary" =
        some (.string retryUnsafeOmitted) := rfl
    rw [failed, noError] at error
    rw [failed, noMessage] at message
    rw [failed, found] at summary
    simp only [previewFields, List.findSome?_cons, Json.getStr, error, message, summary,
      Option.bind_some, Option.bind_none, Json.asStr, Option.map_some, Option.map_none,
      Bool.false_eq_true, if_false]

theorem previewLines_omission :
    previewLines (omission toolName execution measurement reason).output = 2 := by
  rw [previewLines, outputTextPreview_omission]
  have failure : completeLineCount (boundedUtf8Prefix failureOmitted maxOutputPreviewBytes).1 =
      1 := by
    unfold failureOmitted
    repeat rewrite [String.toList_ofList]
    decide
  have success : completeLineCount
      (boundedUtf8Prefix retryUnsafeOmitted maxOutputPreviewBytes).1 = 1 := by
    unfold retryUnsafeOmitted
    repeat rewrite [String.toList_ofList]
    decide
  cases execution.isError with
  | true => simp [failure]
  | false => simp [success]

/-- The fallback for a result that cannot be measured is small. -/
theorem serializationFallback_small (originalIsError : Bool) :
    (serializationFallback toolName semantics originalIsError
        "serialized JSON size overflow".toList).toJson.size ≤ toolOutputSoftByteLimit ∧
      (serializationFallback toolName semantics originalIsError
        "serialized JSON size overflow".toList).output.textLines ≤ toolOutputSoftLineLimit := by
  have nameSize := boundedToolName_size toolName
  have nameLines := completeLineCount_boundedUtf8Prefix toolName maxEnvelopeToolNameBytes
  have limits : maxEnvelopeToolNameBytes = 256 ∧ toolOutputSoftLineLimit = 2000 := ⟨rfl, rfl⟩
  have cut := size_bool_le (boundedToolName toolName).2
  have unsafe_ := size_bool_le (!originalIsError && decide (semantics = .retryUnsafe))
  have stateSize := ToolOutputBudgetState.hardLimitFallback.name_size
  have reasonSize := ToolOutputBudgetReason.serializationFailure.name_size
  have stateLines := ToolOutputBudgetState.hardLimitFallback.name_lines
  have reasonLines := ToolOutputBudgetReason.serializationFailure.name_lines
  have message : stringSize ("Tool result could not be measured for safe serialization: ".toList ++
      "serialized JSON size overflow".toList) ≤ 100 ∧
      completeLineCount ("Tool result could not be measured for safe serialization: ".toList ++
      "serialized JSON size overflow".toList) = 1 := by
    repeat rewrite [String.toList_ofList]
    decide
  have keys : stringSize "budgetState".toList = 13 ∧ stringSize "toolName".toList = 10 ∧
      stringSize "toolNameTruncated".toList = 19 ∧ stringSize "reason".toList = 8 ∧
      stringSize "error".toList = 7 ∧ stringSize "outputOmitted".toList = 15 ∧
      stringSize "retryUnsafe".toList = 13 ∧ stringSize "hardLimitBytes".toList = 16 ∧
      stringSize "envelopeReserveBytes".toList = 22 := by
    repeat rewrite [String.toList_ofList]
    decide
  have numbers : (jsonNat toolExecutionHardByteLimit).size = 6 ∧
      (jsonNat toolExecutionEnvelopeReserveBytes).size = 4 ∧ (Json.bool true).size = 4 := by
    decide
  refine ⟨toJson_size_le ?_ _, ?_⟩
  · simp only [Json.sizeOfFields, size_string, keys, numbers]
    omega
  · rw [serializationFallback, Json.textLines_object_le (by decide)]
    rw [boundedToolName] at *
    simp only [List.map_cons, List.map_nil, List.sum_cons, List.sum_nil, Json.textLines, jsonNat,
      stateLines, reasonLines, message]
    omega

end Again

/-! ## When one normalisation is enough -/

/-- Whether a result is rewritten with a preview: it is over budget, does not keep its form, and is
a failure or the success of a tool that must not be run again. -/
def RewritesWithPreview (toolName : Text) (semantics : ToolOutputSemantics)
    (execution : ToolExecution) : Prop :=
  ∃ measurement reason, measureToolExecution execution = .ok measurement ∧
    budgetReason measurement toolExecutionPayloadHardByteLimit = some reason ∧
    ¬(reason ≠ .hardByteLimit ∧ keepsForm toolName semantics execution = true) ∧
    CarriesPreview semantics execution

/-- The preview, its source, the bounded tool name and three more strings of one line each are
within the line limit, if a preview is attached at all. -/
def PreviewFits (toolName : Text) (semantics : ToolOutputSemantics) (execution : ToolExecution) :
    Prop :=
  RewritesWithPreview toolName semantics execution →
    omissionLines toolName execution.output ≤ toolOutputSoftLineLimit

/-- What normalisation promises of the result it returns. -/
structure Normalised (toolName : Text) (semantics : ToolOutputSemantics)
    (execution : ToolExecution) : Prop where
  bounded : (normalizeToolExecution toolName semantics execution).execution.toJson.size ≤
    toolExecutionPayloadHardByteLimit
  fixed : (normalizeToolExecution toolName semantics
      (normalizeToolExecution toolName semantics execution).execution).execution =
    (normalizeToolExecution toolName semantics execution).execution
  failureKept : execution.isError = true →
    (normalizeToolExecution toolName semantics execution).execution.isError = true
  successKept : execution.isError = false → semantics = .retryUnsafe →
    (normalizeToolExecution toolName semantics execution).execution.isError = false

section Outcomes

variable {toolName : Text} {semantics : ToolOutputSemantics} {execution : ToolExecution}

/-- The results a normalisation can return. -/
inductive Outcome (toolName : Text) (semantics : ToolOutputSemantics)
    (execution : ToolExecution) : ToolExecution → Prop where
  | kept (plain : ¬RewritesWithPreview toolName semantics execution)
      (small : execution.toJson.size ≤ toolExecutionPayloadHardByteLimit) :
      Outcome toolName semantics execution execution
  | unmeasured (plain : ¬RewritesWithPreview toolName semantics execution) :
      Outcome toolName semantics execution (serializationFallback toolName semantics
        execution.isError "serialized JSON size overflow".toList)
  | failure (plain : ¬CarriesPreview semantics execution) {measurement : ToolOutputMeasurement}
      (counted : measurement.Counted) (reason : ToolOutputBudgetReason) :
      Outcome toolName semantics execution (readOnlyFailure toolName measurement reason)
  | omitted (rewrites : RewritesWithPreview toolName semantics execution)
      {measurement : ToolOutputMeasurement} (counted : measurement.Counted)
      (reason : ToolOutputBudgetReason) :
      Outcome toolName semantics execution (omission toolName execution measurement reason)

theorem budgetReason_none {measurement : ToolOutputMeasurement} {hardByteLimit : Nat}
    (within : budgetReason measurement hardByteLimit = none) :
    measurement.serializedBytes ≤ hardByteLimit := by
  unfold budgetReason at within
  split at within
  · cases within
  · omega

theorem budgetReason_soft {measurement : ToolOutputMeasurement} {hardByteLimit : Nat}
    {reason : ToolOutputBudgetReason}
    (exceeds : budgetReason measurement hardByteLimit = some reason) (soft : reason ≠ .hardByteLimit) :
    measurement.serializedBytes ≤ hardByteLimit := by
  unfold budgetReason at exceeds
  split at exceeds
  · exact absurd (Option.some.inj exceeds).symm soft
  · omega

theorem normalize_outcome (toolName : Text) (semantics : ToolOutputSemantics)
    (execution : ToolExecution) :
    Outcome toolName semantics execution
      (normalizeToolExecution toolName semantics execution).execution := by
  cases measured : serializedJsonSize execution with
  | error error =>
    obtain rfl : "serialized JSON size overflow".toList = error := by
      unfold serializedJsonSize at measured
      split at measured
      · cases measured
      · exact Except.error.inj measured
    have plain : ¬RewritesWithPreview toolName semantics execution := by
      rintro ⟨measurement, reason, other, -⟩
      rw [measureToolExecution, measured] at other
      cases other
    have same : (normalizeToolExecution toolName semantics execution).execution =
        serializationFallback toolName semantics execution.isError
          "serialized JSON size overflow".toList := by
      simp only [normalizeToolExecution, normalizeToolExecutionWithMeasurement, measured]
    exact same ▸ .unmeasured plain
  | ok bytes =>
    have size := (serializedJsonSize_ok measured).1
    have measurement : measureToolExecution execution =
        .ok ⟨bytes, execution.output.textLines⟩ := by
      rw [measureToolExecution, measured]
      rfl
    cases exceeds : budgetReason ⟨bytes, execution.output.textLines⟩
        toolExecutionPayloadHardByteLimit with
    | none =>
      have plain : ¬RewritesWithPreview toolName semantics execution := by
        rintro ⟨other, reason, same, exceeds', -⟩
        rw [measurement] at same
        cases same
        rw [exceeds] at exceeds'
        cases exceeds'
      have same : (normalizeToolExecution toolName semantics execution).execution = execution := by
        simp only [normalizeToolExecution, normalizeToolExecutionWithMeasurement, measured, exceeds]
      exact same.symm ▸ .kept plain (size ▸ budgetReason_none exceeds)
    | some reason =>
      by_cases keeps : reason ≠ .hardByteLimit ∧ keepsForm toolName semantics execution = true
      · have plain : ¬RewritesWithPreview toolName semantics execution := by
          rintro ⟨other, reason', same, exceeds', loses, -⟩
          rw [measurement] at same
          cases same
          rw [exceeds] at exceeds'
          cases exceeds'
          exact loses keeps
        have same : (normalizeToolExecution toolName semantics execution).execution =
            execution := by
          simp only [normalizeToolExecution, normalizeToolExecutionWithMeasurement, measured, exceeds]
          rw [if_pos keeps]
        exact same.symm ▸ .kept plain (size ▸ budgetReason_soft exceeds keeps.1)
      · have counted := counted_of_measured measured
        by_cases carries : CarriesPreview semantics execution
        · have rewritten := @rewriteExecution_omission toolName semantics execution
            ⟨bytes, execution.output.textLines⟩ reason carries
          rw [normalize_rewrites toolName semantics measured exceeds keeps
            (by rw [rewritten]; exact omission_size counted), rewritten]
          exact .omitted ⟨_, reason, measurement, exceeds, keeps, carries⟩ counted reason
        · have rewritten := @rewriteExecution_failure toolName semantics execution
            ⟨bytes, execution.output.textLines⟩ reason carries
          rw [normalize_rewrites toolName semantics measured exceeds keeps
            (by rw [rewritten]; exact (readOnlyFailure_small counted).1), rewritten]
          exact .failure carries counted reason

/-- Normalising a rewritten result again changes it exactly if it has too many lines. -/
theorem normalize_omission (carries : CarriesPreview semantics execution)
    {measurement : ToolOutputMeasurement} (counted : measurement.Counted)
    (reason : ToolOutputBudgetReason) :
    (normalizeToolExecution toolName semantics
        (omission toolName execution measurement reason)).execution =
        omission toolName execution measurement reason ↔
      omissionLines toolName execution.output ≤ toolOutputSoftLineLimit := by
  refine ⟨fun fixed => ?_, fun few =>
    normalize_within toolName semantics (omission_size counted) (omission_lines.mpr few)⟩
  by_contra many
  have lines := mt (@omission_lines toolName execution measurement reason).mp many
  have small := @omission_size toolName execution measurement reason counted
  have measured := serializedJsonSize_eq small
  have exceeds : budgetReason ⟨(omission toolName execution measurement reason).toJson.size,
      (omission toolName execution measurement reason).output.textLines⟩
      toolExecutionPayloadHardByteLimit = some .softLineLimit := by
    have hard : ¬toolExecutionPayloadHardByteLimit <
        (omission toolName execution measurement reason).toJson.size :=
      Nat.not_lt_of_le (small.trans (by decide))
    rw [budgetReason, if_neg hard, if_neg (Nat.not_lt_of_le small), if_pos (Nat.lt_of_not_le lines)]
  have loses : ¬(ToolOutputBudgetReason.softLineLimit ≠ .hardByteLimit ∧
      keepsForm toolName semantics (omission toolName execution measurement reason) = true) := by
    rw [keepsForm_omission carries]
    exact fun both => Bool.false_ne_true both.2
  have carries' : CarriesPreview semantics (omission toolName execution measurement reason) :=
    carries
  have rewritten := @rewriteExecution_omission toolName semantics _
    ⟨(omission toolName execution measurement reason).toJson.size,
      (omission toolName execution measurement reason).output.textLines⟩ .softLineLimit carries'
  rw [normalize_rewrites toolName semantics measured exceeds loses
    (by rw [rewritten]; exact omission_size (counted_of_measured measured)), rewritten] at fixed
  -- the second rewriting previews the notice of the first, which is one line
  have fields := Json.object.inj (congrArg ToolExecution.output fixed)
  have attached := (List.append_inj_right fields (by simp [omission, commonBudgetFields]))
  have again := previewAttachment_lines (omission toolName execution measurement reason).output
  rw [attached, previewAttachment_lines, previewLines_omission] at again
  have name := completeLineCount_boundedUtf8Prefix toolName maxEnvelopeToolNameBytes
  have limits : maxEnvelopeToolNameBytes = 256 ∧ toolOutputSoftLineLimit = 2000 := ⟨rfl, rfl⟩
  rw [omissionLines, boundedToolName] at many
  omega

/-- A result whose normalisation is final has no preview of too many lines. -/
theorem previewFits_of_normalised (normalised : Normalised toolName semantics execution) :
    PreviewFits toolName semantics execution := by
  intro rewrites
  have carries := rewrites.choose_spec.choose_spec.2.2.2
  have fixed := normalised.fixed
  have outcome := normalize_outcome toolName semantics execution
  generalize (normalizeToolExecution toolName semantics execution).execution = result
    at outcome fixed
  cases outcome with
  | kept plain => exact absurd rewrites plain
  | unmeasured plain => exact absurd rewrites plain
  | failure plain => exact absurd carries plain
  | omitted _ counted reason => exact (normalize_omission carries counted reason).mp fixed

/-- Normalising is final if no preview of too many lines is attached. -/
theorem normalised_of_previewFits (fits : PreviewFits toolName semantics execution) :
    Normalised toolName semantics execution := by
  have outcome := normalize_outcome toolName semantics execution
  generalize same : (normalizeToolExecution toolName semantics execution).execution = result
    at outcome
  have soft : toolOutputSoftByteLimit ≤ toolExecutionPayloadHardByteLimit := by decide
  cases outcome with
  | kept _ small =>
    exact ⟨same.symm ▸ small, by rw [same, same], fun failed => same.symm ▸ failed,
      fun succeeded _ => same.symm ▸ succeeded⟩
  | unmeasured =>
    obtain ⟨bytes, lines⟩ := @serializationFallback_small toolName semantics execution.isError
    refine ⟨?_, ?_, fun failed => ?_, fun succeeded retryUnsafe => ?_⟩ <;> rw [same]
    · exact bytes.trans soft
    · exact normalize_within toolName semantics bytes lines
    · simp [serializationFallback, failed]
    · simp [serializationFallback, succeeded, retryUnsafe]
  | failure plain counted reason =>
    obtain ⟨bytes, lines⟩ := @readOnlyFailure_small toolName _ reason counted
    refine ⟨?_, ?_, fun _ => ?_, fun _ retryUnsafe => absurd (.inr retryUnsafe) plain⟩ <;>
      rw [same]
    · exact bytes.trans soft
    · exact normalize_within toolName semantics bytes lines
    · rfl
  | omitted rewrites counted reason =>
    refine ⟨?_, ?_, fun failed => ?_, fun succeeded _ => ?_⟩ <;> rw [same]
    · exact (omission_size counted).trans soft
    · exact (normalize_omission rewrites.choose_spec.choose_spec.2.2.2 counted reason).mpr
        (fits rewrites)
    · exact failed
    · exact succeeded

end Outcomes

/-- Normalising once bounds a result and keeps its outcome, and a second normalisation changes
nothing, exactly if an attached preview leaves the rewritten result within the line limit. -/
theorem normalised_iff_preview_fits (toolName : Text) (semantics : ToolOutputSemantics)
    (execution : ToolExecution) :
    Normalised toolName semantics execution ↔ PreviewFits toolName semantics execution :=
  ⟨previewFits_of_normalised, normalised_of_previewFits⟩

/-! ## A preview of too many lines -/

/-- A command that prints 2001 empty lines. -/
def emptyLines : ToolExecution where
  output := .object [("stdout", .string (List.replicate 2001 '\n'))]
  isError := false

/-- The result of a command that prints 2001 empty lines changes when it is normalised again. -/
theorem emptyLines_changes_again :
    ¬Normalised "run_command".toList .retryUnsafe emptyLines := by
  intro normalised
  have lines : completeLineCount (List.replicate 2001 '\n') = 2001 :=
    completeLineCount_feeds (by decide)
  have text : stringSize (List.replicate 2001 '\n') = 4004 := by
    rw [stringSize, escapedLength, List.map_replicate, List.sum_replicate]
    rfl
  have short : utf8Length (List.replicate 2001 '\n') ≤ maxOutputPreviewBytes := by
    rw [utf8Length, List.map_replicate, List.sum_replicate]
    decide
  have keys : stringSize "output".toList = 8 ∧ stringSize "isError".toList = 9 ∧
      stringSize "stdout".toList = 8 := by
    repeat rewrite [String.toList_ofList]
    decide
  have size : emptyLines.toJson.size = 4042 := by
    simp only [emptyLines, ToolExecution.toJson, Json.size, Json.sizeOfFields, keys, text]
    rfl
  have measured : measureToolExecution emptyLines = .ok ⟨4042, 2001⟩ := by
    have textLines : emptyLines.output.textLines = 2001 := by
      simp only [emptyLines, Json.textLines, Json.textLinesOfFields, lines]
      rfl
    rw [measureToolExecution, serializedJsonSize_eq (size ▸ by decide), size, textLines]
    rfl
  have preview : outputTextPreview emptyLines.output =
      some ("stdout", List.replicate 2001 '\n', false) := by
    have bounded : boundedUtf8Prefix (List.replicate 2001 '\n') maxOutputPreviewBytes =
        (List.replicate 2001 '\n', false) := if_pos short
    rw [← bounded]
    rfl
  have rewrites : RewritesWithPreview "run_command".toList .retryUnsafe emptyLines :=
    ⟨_, .softLineLimit, measured, rfl, fun both => absurd both.2 (by decide), .inr rfl⟩
  have fits := previewFits_of_normalised normalised rewrites
  rw [omissionLines, previewLines, preview] at fits
  simp only [Option.map_some, Option.getD_some, lines] at fits
  have limit : toolOutputSoftLineLimit = 2000 := rfl
  omega

end Foco.OutputBudget
