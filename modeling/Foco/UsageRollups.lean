import Mathlib
import Foco.Result
import Foco.Rollups
import Foco.Runs
import Foco.RustText

/-!
`store/workspace.rs`, the usage rollups of LLM requests. Every change of a request takes what
the request counted for off the rollup of its key and adds what it counts for now; a rebuild
computes the same table by grouping the requests. The incremental key is trimmed in Rust and
cuts the time by bytes, the key of the rebuild is not trimmed and cuts it by characters.
-/
namespace Foco.LlmUsage
open Foco.RustText Foco.Table Foco.Rollups Foco.Runs
open Foco.Result (bind_eq_ok pure_eq_ok)

/-! ## Requests -/

abbrev LlmRequestId := Nat

/-- A row of `llm_requests`: the columns that the rollups read. -/
structure LlmRequest where
  id : LlmRequestId
  workspaceId : Option Text
  providerId : Text
  modelId : Text
  requestStartedAt : Text
  inputTokens : Option Int
  outputTokens : Option Int
  cacheReadTokens : Option Int
  cacheWriteTokens : Option Int
  reasoningTokens : Option Int
  totalLatencyMs : Option Int
  finalState : Text
  invalidated : Bool

/-- `UpdateLlmRequestOutcome`. -/
structure UpdateLlmRequestOutcome where
  inputTokens : Option Int
  outputTokens : Option Int
  cacheReadTokens : Option Int
  cacheWriteTokens : Option Int
  reasoningTokens : Option Int
  totalLatencyMs : Option Int
  finalState : Text

/-- Why an operation on the requests fails. -/
inductive LlmRequestError where
  | invalidAuditTokens | invalidReferences | constraint | missingLlmRequest (id : LlmRequestId)

def runningState : Text := "running".toList
def succeededStates : List Text := ["succeeded".toList, "completed".toList]

/-- `validate_llm_token_values`. -/
def validateLlmTokenValues (inputTokens outputTokens cacheReadTokens cacheWriteTokens
    reasoningTokens : Option Int) : Except LlmRequestError Unit :=
  if [inputTokens, outputTokens, cacheReadTokens, cacheWriteTokens, reasoningTokens].any
      (fun value => value.any (· < 0)) then .error .invalidAuditTokens
  else
    match inputTokens, cacheReadTokens with
    | some input, some cacheRead =>
      if (input = 0 ∧ cacheRead > 0) ∨ cacheRead > input then .error .invalidAuditTokens
      else .ok ()
    | _, _ => .ok ()

/-! ## Keys and sums -/

/-- The primary key of `llm_request_usage_rollups`. -/
structure UsageKey where
  workspaceId : Text
  bucketDate : Text
  providerId : Text
  modelId : Text
  finalState : Text
  deriving DecidableEq

/-- The counts and sums of a rollup. -/
@[ext] structure UsageSums where
  requestCount : Int
  successCount : Int
  failedCount : Int
  totalInputTokens : Int
  totalOutputTokens : Int
  totalCacheReadTokens : Int
  totalCacheWriteTokens : Int
  totalTokens : Int
  latencyCount : Int
  latencySum : Int
  deriving DecidableEq

namespace UsageSums

/-- The columns combined one by one. -/
def zipWith (f : Int → Int → Int) (a b : UsageSums) : UsageSums where
  requestCount := f a.requestCount b.requestCount
  successCount := f a.successCount b.successCount
  failedCount := f a.failedCount b.failedCount
  totalInputTokens := f a.totalInputTokens b.totalInputTokens
  totalOutputTokens := f a.totalOutputTokens b.totalOutputTokens
  totalCacheReadTokens := f a.totalCacheReadTokens b.totalCacheReadTokens
  totalCacheWriteTokens := f a.totalCacheWriteTokens b.totalCacheWriteTokens
  totalTokens := f a.totalTokens b.totalTokens
  latencyCount := f a.latencyCount b.latencyCount
  latencySum := f a.latencySum b.latencySum

instance : Zero UsageSums := ⟨⟨0, 0, 0, 0, 0, 0, 0, 0, 0, 0⟩⟩
instance : Add UsageSums := ⟨zipWith (· + ·)⟩
instance : Neg UsageSums := ⟨zipWith (fun _ b => -b) 0⟩

instance : AddCommGroup UsageSums where
  add_assoc _ _ _ := UsageSums.ext (Int.add_assoc ..) (Int.add_assoc ..) (Int.add_assoc ..)
    (Int.add_assoc ..) (Int.add_assoc ..) (Int.add_assoc ..) (Int.add_assoc ..)
    (Int.add_assoc ..) (Int.add_assoc ..) (Int.add_assoc ..)
  zero_add _ := UsageSums.ext (Int.zero_add _) (Int.zero_add _) (Int.zero_add _) (Int.zero_add _)
    (Int.zero_add _) (Int.zero_add _) (Int.zero_add _) (Int.zero_add _) (Int.zero_add _)
    (Int.zero_add _)
  add_zero _ := UsageSums.ext (Int.add_zero _) (Int.add_zero _) (Int.add_zero _) (Int.add_zero _)
    (Int.add_zero _) (Int.add_zero _) (Int.add_zero _) (Int.add_zero _) (Int.add_zero _)
    (Int.add_zero _)
  neg_add_cancel _ := UsageSums.ext (Int.add_left_neg _) (Int.add_left_neg _)
    (Int.add_left_neg _) (Int.add_left_neg _) (Int.add_left_neg _) (Int.add_left_neg _)
    (Int.add_left_neg _) (Int.add_left_neg _) (Int.add_left_neg _) (Int.add_left_neg _)
  add_comm _ _ := UsageSums.ext (Int.add_comm ..) (Int.add_comm ..) (Int.add_comm ..)
    (Int.add_comm ..) (Int.add_comm ..) (Int.add_comm ..) (Int.add_comm ..) (Int.add_comm ..)
    (Int.add_comm ..) (Int.add_comm ..)
  nsmul := nsmulRec
  zsmul := zsmulRec

theorem add_def (a b : UsageSums) : a + b = zipWith (· + ·) a b := rfl

/-- The number of requests of a rollup. -/
def count : UsageSums →+ Int where
  toFun := requestCount
  map_zero' := rfl
  map_add' _ _ := rfl

end UsageSums

def unknownWorkspace : Text := "__foco_unknown_workspace__".toList
def unknownDate : Text := "__foco_unknown_date__".toList
def unknownProvider : Text := "__foco_unknown_provider__".toList
def unknownModel : Text := "__foco_unknown_model__".toList

/-- `normalize_llm_request_rollup_dimension`. -/
def normalizeDimension (value : Option Text) (unknown : Text) : Text :=
  match value with
  | some value => if trim value = [] then unknown else trim value
  | none => unknown

/-- `str::get(..bytes)`: a prefix of so many bytes, if one ends there. -/
def bytePrefix : Nat → Text → Option Text
  | 0, _ => some []
  | _ + 1, [] => none
  | bytes + 1, c :: rest =>
    if c.utf8Size ≤ bytes + 1 then
      (bytePrefix (bytes + 1 - c.utf8Size) rest).map (c :: ·)
    else none

/-- `normalized_llm_request_rollup_bucket`. -/
def normalizedBucket (requestStartedAt : Text) : Text :=
  let bucket := trim ((bytePrefix 10 requestStartedAt).getD requestStartedAt)
  if bucket = [] then unknownDate else bucket

/-- The key of the rollup that counts a request. -/
def usageKey (request : LlmRequest) : UsageKey where
  workspaceId := normalizeDimension request.workspaceId unknownWorkspace
  bucketDate := normalizedBucket request.requestStartedAt
  providerId := normalizeDimension (some request.providerId) unknownProvider
  modelId := normalizeDimension (some request.modelId) unknownModel
  finalState := request.finalState

/-- `llm_request_usage_rollup_delta`. -/
def usageDelta (request : LlmRequest) (sign : Int) : Option (Rollup UsageKey UsageSums) :=
  if request.finalState = runningState then none
  else
    let inputTokens := request.inputTokens.getD 0
    let outputTokens := request.outputTokens.getD 0
    let succeeded := request.finalState ∈ succeededStates
    some ⟨usageKey request, {
      requestCount := sign
      successCount := if succeeded then sign else 0
      failedCount := if succeeded then 0 else sign
      totalInputTokens := sign * inputTokens
      totalOutputTokens := sign * outputTokens
      totalCacheReadTokens := sign * request.cacheReadTokens.getD 0
      totalCacheWriteTokens := sign * request.cacheWriteTokens.getD 0
      totalTokens := sign * (inputTokens + outputTokens)
      latencyCount := if request.totalLatencyMs.isSome then sign else 0
      latencySum := sign * request.totalLatencyMs.getD 0 }⟩

/-- `apply_llm_request_usage_rollup_delta`. -/
def applyUsageDelta (rollups : List (Rollup UsageKey UsageSums))
    (delta : Option (Rollup UsageKey UsageSums)) : List (Rollup UsageKey UsageSums) :=
  match delta with
  | none => rollups
  | some delta => applyDelta UsageSums.count delta rollups

/-! ## The rebuild -/

/-- `SUBSTR(value, 1, 10)`: so many characters, at most up to a NUL. -/
def substr (characters : Nat) (value : Text) : Text :=
  (value.takeWhile (· ≠ Char.ofNat 0)).take characters

/-- `COALESCE(NULLIF(value, ''), unknown)`. -/
def coalesceNullIf (value : Option Text) (unknown : Text) : Text :=
  match value with
  | some value => if value = [] then unknown else value
  | none => unknown

/-- The first five columns of the rebuild query, which it groups by. -/
def rebuildKey (request : LlmRequest) : UsageKey where
  workspaceId := coalesceNullIf request.workspaceId unknownWorkspace
  bucketDate := coalesceNullIf (some (substr 10 request.requestStartedAt)) unknownDate
  providerId := coalesceNullIf (some request.providerId) unknownProvider
  modelId := coalesceNullIf (some request.modelId) unknownModel
  finalState := request.finalState

/-- The aggregates of the rebuild query over one group. -/
def rebuildAggregate (key : UsageKey) (group : List LlmRequest) : Rollup UsageKey UsageSums :=
  ⟨key, {
    requestCount := group.length
    successCount := group.countP fun request => request.finalState ∈ succeededStates
    failedCount := group.countP fun request => request.finalState ∉ succeededStates
    totalInputTokens := (group.map fun request => request.inputTokens.getD 0).sum
    totalOutputTokens := (group.map fun request => request.outputTokens.getD 0).sum
    totalCacheReadTokens := (group.map fun request => request.cacheReadTokens.getD 0).sum
    totalCacheWriteTokens := (group.map fun request => request.cacheWriteTokens.getD 0).sum
    totalTokens :=
      (group.map fun request => request.inputTokens.getD 0 + request.outputTokens.getD 0).sum
    latencyCount := group.countP fun request => request.totalLatencyMs.isSome
    latencySum := (group.map fun request => request.totalLatencyMs.getD 0).sum }⟩

/-- The requests that the rebuild query reads. -/
def LlmRequest.counted (request : LlmRequest) : Bool :=
  request.finalState ≠ runningState && !request.invalidated

/-- `insert_llm_request_usage_rollup_rebuild_rows`, for all workspaces. -/
def rebuildRows (requests : List LlmRequest) : List (Rollup UsageKey UsageSums) :=
  groupBy rebuildKey rebuildAggregate (requests.filter LlmRequest.counted)

/-! ## Operations -/

/-- The requests and their rollups. -/
structure UsageStore where
  requests : List LlmRequest
  rollups : List (Rollup UsageKey UsageSums)
  unique : Unique LlmRequest.id requests

def UsageStore.empty : UsageStore := ⟨[], [], List.Pairwise.nil⟩

/-- The checks of the table on the columns that a request and an outcome set. -/
def LlmRequest.satisfiesChecks (request : LlmRequest) : Bool :=
  request.providerId ≠ [] && request.modelId ≠ [] && request.finalState ≠ [] &&
    [request.inputTokens, request.outputTokens, request.cacheReadTokens,
      request.cacheWriteTokens, request.reasoningTokens, request.totalLatencyMs].all
      fun value => value.all (0 ≤ ·)

/-- `insert_llm_request`. Whether the agent references of the request hold is given. -/
def insertLlmRequest (request : LlmRequest) (referencesHold : Bool) (store : UsageStore) :
    Except LlmRequestError UsageStore := do
  validateLlmTokenValues request.inputTokens request.outputTokens request.cacheReadTokens
    request.cacheWriteTokens request.reasoningTokens
  if referencesHold = false then .error .invalidReferences
  else
    let request := { request with invalidated := false }
    if fresh : ∀ other ∈ store.requests, other.id ≠ request.id then
      if request.satisfiesChecks then
        return {
          requests := store.requests ++ [request]
          rollups := applyUsageDelta store.rollups (usageDelta request 1)
          unique := store.unique.append fresh }
      else .error .constraint
    else .error .constraint

/-- The columns that an outcome writes. -/
def LlmRequest.setOutcome (outcome : UpdateLlmRequestOutcome) (request : LlmRequest) :
    LlmRequest :=
  { request with
    inputTokens := outcome.inputTokens
    outputTokens := outcome.outputTokens
    cacheReadTokens := outcome.cacheReadTokens
    cacheWriteTokens := outcome.cacheWriteTokens
    reasoningTokens := outcome.reasoningTokens
    totalLatencyMs := outcome.totalLatencyMs
    finalState := outcome.finalState }

/-- `update_llm_request_outcome_in_transaction_with_mode`, with the validation before it. -/
def updateLlmRequestOutcome (id : LlmRequestId) (outcome : UpdateLlmRequestOutcome)
    (onlyIfRunning : Bool) (store : UsageStore) : Except LlmRequestError UsageStore := do
  validateLlmTokenValues outcome.inputTokens outcome.outputTokens outcome.cacheReadTokens
    outcome.cacheWriteTokens outcome.reasoningTokens
  match store.requests.find? (fun request => request.id = id) with
  | none => .error (.missingLlmRequest id)
  | some old =>
    if onlyIfRunning ∧ old.finalState ≠ runningState then return store
    else if (old.setOutcome outcome).satisfiesChecks = false then .error .constraint
    else
      let requests := update (fun request => request.id = id) (LlmRequest.setOutcome outcome)
        store.requests
      have unique : Unique LlmRequest.id requests := store.unique.update fun _ => rfl
      if old.invalidated then return { requests, rollups := store.rollups, unique }
      else
        let rollups := applyUsageDelta store.rollups (usageDelta old (-1))
        return {
          requests
          rollups := applyUsageDelta rollups (usageDelta (old.setOutcome outcome) 1)
          unique }

/-- `finalize_llm_request_outcome_with_events`, without the events. -/
def finalizeLlmRequestOutcome (id : LlmRequestId) (outcome : UpdateLlmRequestOutcome)
    (store : UsageStore) : Except LlmRequestError UsageStore :=
  updateLlmRequestOutcome id outcome true store

/-- `SET invalidated_at = …`. -/
def LlmRequest.invalidate (request : LlmRequest) : LlmRequest :=
  { request with invalidated := true }

/-- `invalidate_llm_request`, with a reason. -/
def invalidateLlmRequest (id : LlmRequestId) (store : UsageStore) :
    Except LlmRequestError UsageStore :=
  match store.requests.find? (fun request => request.id = id) with
  | none => .ok store
  | some request =>
    if request.invalidated then .ok store
    else .ok {
      requests := update (fun request => request.id = id) LlmRequest.invalidate store.requests
      rollups := applyUsageDelta store.rollups (usageDelta request (-1))
      unique := store.unique.update fun _ => rfl }

/-- The operations on requests. -/
inductive UsageAction where
  | insert (request : LlmRequest) (referencesHold : Bool)
  | update (id : LlmRequestId) (outcome : UpdateLlmRequestOutcome)
  | finalize (id : LlmRequestId) (outcome : UpdateLlmRequestOutcome)
  | invalidate (id : LlmRequestId)

/-- One operation. A failed one is rolled back. -/
def usageStep (store : UsageStore) (action : UsageAction) : Except LlmRequestError UsageStore :=
  match action with
  | .insert request referencesHold => insertLlmRequest request referencesHold store
  | .update id outcome => updateLlmRequestOutcome id outcome false store
  | .finalize id outcome => finalizeLlmRequestOutcome id outcome store
  | .invalidate id => invalidateLlmRequest id store

/-- Any sequence of operations on requests. -/
def usageMachine : Machine UsageStore UsageAction where
  start := .empty
  step store action := some ((usageStep store action).toOption.getD store)

end Foco.LlmUsage
