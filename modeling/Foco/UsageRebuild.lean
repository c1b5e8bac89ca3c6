import Foco.UsageRollups

/-!
The usage rollups against their rebuild. The rollups are at all times the sums of the
requests by the keys that Rust computes, so they are what a rebuild would give as long as SQL
computes the same keys, which it does for fields that trimming leaves alone.
-/
namespace Foco.LlmUsage
open Foco.RustText Foco.Table Foco.Rollups Foco.Runs
open Foco.Result (bind_eq_ok pure_eq_ok)

/-! ## The rollups sum the requests -/

/-- What a request adds to the rollups. -/
def usageEntries (request : LlmRequest) : List (Rollup UsageKey UsageSums) :=
  if request.invalidated then [] else (usageDelta request 1).toList

/-- One request counts once. -/
theorem count_usageDelta {request : LlmRequest} {delta : Rollup UsageKey UsageSums}
    (h : usageDelta request 1 = some delta) : UsageSums.count delta.sums = 1 := by
  unfold usageDelta at h
  split at h
  · cases h
  · cases h
    rfl

theorem count_of_mem {requests : List LlmRequest} {entry : Rollup UsageKey UsageSums}
    (mem : entry ∈ requests.flatMap usageEntries) : UsageSums.count entry.sums = 1 := by
  obtain ⟨request, -, entryMem⟩ := List.mem_flatMap.mp mem
  unfold usageEntries at entryMem
  split at entryMem
  · cases entryMem
  · exact count_usageDelta (Option.mem_toList.mp entryMem)

/-- What is taken off is what was added. -/
theorem usageDelta_neg (request : LlmRequest) :
    usageDelta request (-1) =
      (usageDelta request 1).map fun delta => ⟨delta.key, -delta.sums⟩ := by
  unfold usageDelta
  split
  · rfl
  · simp only [Option.map_some, Option.some.injEq, Rollup.mk.injEq, true_and]
    have flip : ∀ n : Int, -1 * n = -(1 * n) := fun n => by omega
    apply UsageSums.ext <;> first | exact flip _ | rfl | skip
    · by_cases succeeded : request.finalState ∈ succeededStates <;>
        simp only [succeeded, if_true, if_false] <;> rfl
    · by_cases succeeded : request.finalState ∈ succeededStates <;>
        simp only [succeeded, if_true, if_false] <;> rfl
    · cases request.totalLatencyMs <;> rfl

theorem represents_credit {rollups entries : List (Rollup UsageKey UsageSums)}
    (represents : Represents rollups entries) (request : LlmRequest) :
    Represents (applyUsageDelta rollups (usageDelta request 1))
      ((usageDelta request 1).toList ++ entries) := by
  cases counted : usageDelta request 1 with
  | none => exact represents
  | some delta =>
    have one := count_usageDelta counted
    exact represents.credit (by omega)

theorem represents_debit {rollups entries : List (Rollup UsageKey UsageSums)}
    {request : LlmRequest}
    (represents : Represents rollups ((usageDelta request 1).toList ++ entries))
    (single : ∀ entry ∈ entries, UsageSums.count entry.sums = 1) :
    Represents (applyUsageDelta rollups (usageDelta request (-1))) entries := by
  rw [usageDelta_neg]
  cases counted : usageDelta request 1 with
  | none =>
    rw [counted] at represents
    exact represents
  | some delta =>
    rw [counted] at represents
    exact represents.debit (List.forall_mem_cons.mpr ⟨count_usageDelta counted, single⟩)

/-- The rollups of a store sum its requests. -/
def Summed (store : UsageStore) : Prop :=
  Represents store.rollups (store.requests.flatMap usageEntries)

/-- The entries of the requests other than one. -/
theorem entries_perm {requests : List LlmRequest} (unique : Unique LlmRequest.id requests)
    {request : LlmRequest} (mem : request ∈ requests) :
    (requests.flatMap usageEntries).Perm (usageEntries request ++
      (requests.filter fun other => other.id ≠ request.id).flatMap usageEntries) :=
  (perm_cons_filter unique mem).flatMap_right usageEntries

theorem entries_update_perm {requests : List LlmRequest} (unique : Unique LlmRequest.id requests)
    {request : LlmRequest} (mem : request ∈ requests) (set : LlmRequest → LlmRequest) :
    ((update (fun other => other.id = request.id) set requests).flatMap usageEntries).Perm
      (usageEntries (set request) ++
        (requests.filter fun other => other.id ≠ request.id).flatMap usageEntries) :=
  (update_perm unique mem set).flatMap_right usageEntries

/-- What a request still counts for goes, what it counts for now comes. -/
theorem summed_rewrite {store : UsageStore} (summed : Summed store) {request : LlmRequest}
    (mem : request ∈ store.requests) (valid : request.invalidated = false)
    {set : LlmRequest → LlmRequest} (kept : (set request).invalidated = false) :
    Represents (applyUsageDelta (applyUsageDelta store.rollups (usageDelta request (-1)))
        (usageDelta (set request) 1))
      ((update (fun other => other.id = request.id) set store.requests).flatMap usageEntries) := by
  have before := summed.perm (entries_perm store.unique mem)
  have after := entries_update_perm store.unique mem set
  rw [usageEntries, valid, if_neg Bool.false_ne_true] at before
  rw [usageEntries, kept, if_neg Bool.false_ne_true] at after
  exact ((represents_credit (represents_debit before fun _ => count_of_mem) _)).perm after.symm

theorem insertLlmRequest_summed {request : LlmRequest} {referencesHold : Bool}
    {store store' : UsageStore} (summed : Summed store)
    (h : insertLlmRequest request referencesHold store = .ok store') : Summed store' := by
  obtain ⟨_, _, h⟩ := bind_eq_ok.mp h
  split at h
  · cases h
  · dsimp only at h
    split at h
    · split at h
      · cases pure_eq_ok.mp h
        have credited := represents_credit summed { request with invalidated := false }
        apply credited.perm
        rw [List.flatMap_append, List.flatMap_singleton]
        exact List.perm_append_comm
      · cases h
    · cases h

theorem updateLlmRequestOutcome_summed {id : LlmRequestId} {outcome : UpdateLlmRequestOutcome}
    {onlyIfRunning : Bool} {store store' : UsageStore} (summed : Summed store)
    (h : updateLlmRequestOutcome id outcome onlyIfRunning store = .ok store') : Summed store' := by
  obtain ⟨_, _, h⟩ := bind_eq_ok.mp h
  split at h
  · cases h
  · rename_i old found
    have mem := List.mem_of_find?_eq_some found
    have ident : old.id = id := by simpa using List.find?_some found
    subst ident
    split at h
    · cases pure_eq_ok.mp h
      exact summed
    · split at h
      · cases h
      · dsimp only at h
        split at h
        · rename_i invalid
          cases pure_eq_ok.mp h
          have before := entries_perm store.unique mem
          have after := entries_update_perm store.unique mem (LlmRequest.setOutcome outcome)
          have stays : (old.setOutcome outcome).invalidated = true := invalid
          rw [usageEntries, if_pos invalid] at before
          rw [usageEntries, if_pos stays] at after
          exact summed.perm (before.trans after.symm)
        · rename_i valid
          cases pure_eq_ok.mp h
          have valid : old.invalidated = false := Bool.eq_false_iff.mpr valid
          exact summed_rewrite summed mem valid valid

theorem invalidateLlmRequest_summed {id : LlmRequestId} {store store' : UsageStore}
    (summed : Summed store) (h : invalidateLlmRequest id store = .ok store') : Summed store' := by
  unfold invalidateLlmRequest at h
  split at h
  · cases h
    exact summed
  · rename_i request found
    have mem := List.mem_of_find?_eq_some found
    have ident : request.id = id := by simpa using List.find?_some found
    subst ident
    split at h
    · cases h
      exact summed
    · rename_i valid
      cases h
      have valid : request.invalidated = false := Bool.eq_false_iff.mpr valid
      have gone : (request.invalidate).invalidated = true := rfl
      have before := summed.perm (entries_perm store.unique mem)
      have after := entries_update_perm store.unique mem LlmRequest.invalidate
      rw [usageEntries, valid, if_neg Bool.false_ne_true] at before
      rw [usageEntries, if_pos gone, List.nil_append] at after
      exact (represents_debit before fun _ => count_of_mem).perm after.symm

/-- Every operation keeps the rollups the sums of the requests. -/
theorem usageStep_summed {action : UsageAction} {store store' : UsageStore}
    (summed : Summed store) (h : usageStep store action = .ok store') : Summed store' := by
  cases action with
  | insert request referencesHold => exact insertLlmRequest_summed summed h
  | update id outcome => exact updateLlmRequestOutcome_summed summed h
  | finalize id outcome => exact updateLlmRequestOutcome_summed summed h
  | invalidate id => exact invalidateLlmRequest_summed summed h

/-! ## The keys of the rebuild -/

/-- Fields for which SQL finds the key that Rust does: trimming leaves the identifiers alone and
the trimmed byte prefix of the time is its first ten characters. -/
structure PlainFields (request : LlmRequest) : Prop where
  workspace : ∀ workspace ∈ request.workspaceId, trim workspace = workspace
  provider : trim request.providerId = request.providerId
  model : trim request.modelId = request.modelId
  started : trim ((bytePrefix 10 request.requestStartedAt).getD request.requestStartedAt) =
    substr 10 request.requestStartedAt

instance (request : LlmRequest) : Decidable (PlainFields request) :=
  decidable_of_iff (_ ∧ _ ∧ _ ∧ _)
    ⟨fun ⟨a, b, c, d⟩ => ⟨a, b, c, d⟩, fun ⟨a, b, c, d⟩ => ⟨a, b, c, d⟩⟩

theorem normalizeDimension_of_trim {value : Option Text} {unknown : Text}
    (plain : ∀ text ∈ value, trim text = text) :
    normalizeDimension value unknown = coalesceNullIf value unknown := by
  cases value with
  | none => rfl
  | some text => rw [normalizeDimension, coalesceNullIf, plain text rfl]

theorem usageKey_eq_rebuildKey {request : LlmRequest} (plain : PlainFields request) :
    usageKey request = rebuildKey request := by
  have bucket : normalizedBucket request.requestStartedAt =
      coalesceNullIf (some (substr 10 request.requestStartedAt)) unknownDate := by
    rw [normalizedBucket, plain.started, coalesceNullIf]
  rw [usageKey, rebuildKey, bucket, normalizeDimension_of_trim plain.workspace,
    normalizeDimension_of_trim fun text mem => Option.mem_some.mp mem ▸ plain.provider,
    normalizeDimension_of_trim fun text mem => Option.mem_some.mp mem ▸ plain.model]

/-- The entry of a request that counts. -/
def usageEntry (request : LlmRequest) : Rollup UsageKey UsageSums :=
  (usageDelta request 1).getD ⟨usageKey request, 0⟩

theorem usageEntry_key (request : LlmRequest) : (usageEntry request).key = usageKey request := by
  unfold usageEntry usageDelta
  split <;> rfl

theorem usageEntries_eq_map (requests : List LlmRequest) :
    requests.flatMap usageEntries = (requests.filter LlmRequest.counted).map usageEntry := by
  induction requests with
  | nil => rfl
  | cons request rest ih =>
    rw [List.flatMap_cons, ih, List.filter_cons, LlmRequest.counted]
    unfold usageEntries
    cases request.invalidated with
    | true => simp
    | false =>
      by_cases running : request.finalState = runningState
      · have none : usageDelta request 1 = none := if_pos running
        simp [none, running]
      · have some : usageDelta request 1 = some (usageEntry request) := by
          unfold usageEntry usageDelta
          rw [if_neg running]
          rfl
        simp [some, running]

/-- The aggregates of the rebuild query are sums over the group. -/
theorem rebuildAggregate_sums (key : UsageKey) {group : List LlmRequest}
    (counted : ∀ request ∈ group, request.counted = true) :
    (rebuildAggregate key group).sums = (group.map fun request => (usageEntry request).sums).sum := by
  induction group with
  | nil => rfl
  | cons request rest ih =>
    obtain ⟨head, tail⟩ := List.forall_mem_cons.mp counted
    have notRunning : request.finalState ≠ runningState := by
      simp only [LlmRequest.counted, Bool.and_eq_true, decide_eq_true_eq] at head
      exact head.1
    rw [List.map_cons, List.sum_cons, ← ih tail]
    unfold usageEntry usageDelta
    rw [if_neg notRunning, Option.getD_some, UsageSums.add_def]
    apply UsageSums.ext
    all_goals simp only [rebuildAggregate, UsageSums.zipWith, List.length_cons, List.countP_cons,
      List.map_cons, List.sum_cons, Int.one_mul]
    · omega
    · by_cases succeeded : request.finalState ∈ succeededStates <;> simp [succeeded, add_comm]
    · by_cases succeeded : request.finalState ∈ succeededStates <;> simp [succeeded, add_comm]
    · cases request.totalLatencyMs <;> simp [add_comm]

/-- Rollups that sum the requests are what the rebuild computes, if it finds the same keys. -/
theorem perm_rebuildRows {store : UsageStore} (summed : Summed store)
    (plain : ∀ request ∈ store.requests, request.counted = true → PlainFields request) :
    store.rollups.Perm (rebuildRows store.requests) := by
  have counted : ∀ request ∈ store.requests.filter LlmRequest.counted,
      request ∈ store.requests ∧ request.counted = true :=
    fun request mem => List.mem_filter.mp mem
  have keys : ∀ request ∈ store.requests.filter LlmRequest.counted,
      (usageEntry request).key = rebuildKey request := by
    intro request mem
    obtain ⟨stored, counts⟩ := counted request mem
    rw [usageEntry_key]
    exact usageKey_eq_rebuildKey (plain request stored counts)
  unfold Summed at summed
  rw [usageEntries_eq_map] at summed
  rw [rebuildRows, ← groupBy_congr keys]
  apply summed.perm_groupBy
  intro key
  apply Rollup.ext
  · rfl
  rw [rebuildAggregate_sums key fun request mem => (counted request (List.mem_of_mem_filter mem)).2,
    total, List.filter_map, List.map_map]
  rfl

/-- A row of the rollups counts at least one request. -/
theorem requestCount_ne_zero {store : UsageStore} (summed : Summed store)
    {row : Rollup UsageKey UsageSums} (mem : row ∈ store.rollups) :
    row.sums.requestCount ≠ 0 := by
  intro none
  obtain ⟨known, sums⟩ := (summed.mem_iff row).mp mem
  have empty : UsageSums.count (total (store.requests.flatMap usageEntries) row.key) = 0 := by
    rw [← sums]
    exact none
  exact (count_total_eq_zero fun _ => count_of_mem).mp empty known

/-! ## Every run -/

/-- A request that the operation makes count has plain fields. -/
def CountsPlain (store : UsageStore) : UsageAction → Prop
  | .insert request _ => request.finalState ≠ runningState → PlainFields request
  | .update id outcome | .finalize id outcome => outcome.finalState ≠ runningState →
      ∀ request ∈ store.requests, request.id = id → PlainFields request
  | .invalidate _ => True

instance (store : UsageStore) (action : UsageAction) : Decidable (CountsPlain store action) := by
  cases action <;> unfold CountsPlain <;> infer_instance

/-- The requests that count have plain fields. -/
def PlainRequests (store : UsageStore) : Prop :=
  ∀ request ∈ store.requests, request.counted = true → PlainFields request

theorem notRunning_of_counted {request : LlmRequest} (counted : request.counted = true) :
    request.finalState ≠ runningState := by
  simp only [LlmRequest.counted, Bool.and_eq_true, decide_eq_true_eq] at counted
  exact counted.1

theorem setOutcome_plain {request : LlmRequest} (outcome : UpdateLlmRequestOutcome)
    (plain : PlainFields request) : PlainFields (request.setOutcome outcome) where
  workspace := plain.workspace
  provider := plain.provider
  model := plain.model
  started := plain.started

theorem insertLlmRequest_plain {request : LlmRequest} {referencesHold : Bool}
    {store store' : UsageStore} (plain : PlainRequests store)
    (meets : CountsPlain store (.insert request referencesHold))
    (h : insertLlmRequest request referencesHold store = .ok store') : PlainRequests store' := by
  obtain ⟨_, _, h⟩ := bind_eq_ok.mp h
  split at h
  · cases h
  · dsimp only at h
    split at h
    · split at h
      · cases pure_eq_ok.mp h
        intro other mem counted
        rcases List.mem_append.mp mem with old | new
        · exact plain other old counted
        · cases List.mem_singleton.mp new
          have running : { request with invalidated := false }.finalState ≠ runningState :=
            notRunning_of_counted counted
          have fields := meets running
          exact ⟨fields.workspace, fields.provider, fields.model, fields.started⟩
      · cases h
    · cases h

theorem update_setOutcome_plain {id : LlmRequestId} {outcome : UpdateLlmRequestOutcome}
    {store : UsageStore} (plain : PlainRequests store)
    (meets : CountsPlain store (.update id outcome)) {request : LlmRequest}
    (mem : request ∈ update (fun request => request.id = id) (LlmRequest.setOutcome outcome)
      store.requests)
    (counted : request.counted = true) : PlainFields request := by
  obtain ⟨old, oldMem, rfl⟩ := mem_update.mp mem
  by_cases ident : old.id = id
  · rw [if_pos (decide_eq_true ident)] at counted ⊢
    exact setOutcome_plain outcome (meets (notRunning_of_counted counted) old oldMem ident)
  · have other : ¬ decide (old.id = id) = true := by simpa using ident
    rw [if_neg other] at counted ⊢
    exact plain old oldMem counted

theorem updateLlmRequestOutcome_plain {id : LlmRequestId} {outcome : UpdateLlmRequestOutcome}
    {onlyIfRunning : Bool} {store store' : UsageStore} (plain : PlainRequests store)
    (meets : CountsPlain store (.update id outcome))
    (h : updateLlmRequestOutcome id outcome onlyIfRunning store = .ok store') :
    PlainRequests store' := by
  obtain ⟨_, _, h⟩ := bind_eq_ok.mp h
  split at h
  · cases h
  · split at h
    · cases pure_eq_ok.mp h
      exact plain
    · split at h
      · cases h
      · dsimp only at h
        split at h <;> cases pure_eq_ok.mp h <;>
          exact fun request mem counted => update_setOutcome_plain plain meets mem counted

theorem invalidateLlmRequest_plain {id : LlmRequestId} {store store' : UsageStore}
    (plain : PlainRequests store) (h : invalidateLlmRequest id store = .ok store') :
    PlainRequests store' := by
  unfold invalidateLlmRequest at h
  split at h
  · cases h
    exact plain
  · split at h
    · cases h
      exact plain
    · cases h
      intro request mem counted
      obtain ⟨old, oldMem, rfl⟩ := mem_update.mp mem
      by_cases ident : old.id = id
      · rw [if_pos (decide_eq_true ident)] at counted
        simp [LlmRequest.counted, LlmRequest.invalidate] at counted
      · have other : ¬ decide (old.id = id) = true := by simpa using ident
        rw [if_neg other] at counted ⊢
        exact plain old oldMem counted

theorem usageStep_plain {action : UsageAction} {store store' : UsageStore}
    (plain : PlainRequests store) (meets : CountsPlain store action)
    (h : usageStep store action = .ok store') : PlainRequests store' := by
  cases action with
  | insert request referencesHold => exact insertLlmRequest_plain plain meets h
  | update id outcome => exact updateLlmRequestOutcome_plain plain meets h
  | finalize id outcome => exact updateLlmRequestOutcome_plain plain meets h
  | invalidate id => exact invalidateLlmRequest_plain plain h

/-- What every step keeps. -/
structure UsageInvariant (store : UsageStore) : Prop where
  summed : Summed store
  plain : PlainRequests store

theorem usageInvariant_step {store store' : UsageStore} {action : UsageAction}
    (inv : UsageInvariant store) (meets : CountsPlain store action)
    (step : usageMachine.step store action = some store') : UsageInvariant store' := by
  cases result : usageStep store action with
  | error _ =>
    simp only [usageMachine, result] at step
    cases step
    exact inv
  | ok after =>
    simp only [usageMachine, result] at step
    cases step
    exact ⟨usageStep_summed inv.summed result, usageStep_plain inv.plain meets result⟩

/-- In every run whose counting requests have plain fields, the rollups are what a rebuild
gives, and none of them counts nothing. -/
theorem rollups_match_rebuild {store : UsageStore}
    (reached : usageMachine.ReachableWhile CountsPlain store) :
    store.rollups.Perm (rebuildRows store.requests) ∧
      ∀ row ∈ store.rollups, row.sums.requestCount ≠ 0 := by
  have start : UsageInvariant usageMachine.start :=
    ⟨Represents.nil, fun request mem => absurd mem List.not_mem_nil⟩
  have inv : UsageInvariant store :=
    reached.invariant start fun _ _ _ inv meets step => usageInvariant_step inv meets step
  exact ⟨perm_rebuildRows inv.summed inv.plain,
    fun row mem => requestCount_ne_zero inv.summed mem⟩

/-- A request with a token in and one out. -/
def sampleRequest (id : LlmRequestId) (providerId finalState : Text) : LlmRequest where
  id := id
  workspaceId := some "workspace".toList
  providerId := providerId
  modelId := "model".toList
  requestStartedAt := "2025-01-02T03:04:05Z".toList
  inputTokens := some 3
  outputTokens := some 2
  cacheReadTokens := some 1
  cacheWriteTokens := none
  reasoningTokens := none
  totalLatencyMs := some 7
  finalState := finalState
  invalidated := false

def failedOutcome : UpdateLlmRequestOutcome where
  inputTokens := some 5
  outputTokens := none
  cacheReadTokens := none
  cacheWriteTokens := none
  reasoningTokens := none
  totalLatencyMs := none
  finalState := "failed".toList

/-- A running request fails, a completed one is corrected and a third is invalidated. -/
def sampleRun : List UsageAction :=
  [.insert (sampleRequest 0 "provider".toList runningState) true,
    .insert (sampleRequest 1 "provider".toList "completed".toList) true,
    .finalize 0 failedOutcome, .update 1 failedOutcome,
    .insert (sampleRequest 2 "provider".toList "succeeded".toList) true, .invalidate 2]

/-- The run leaves one rollup of two failed requests. -/
theorem sampleRun_matches_rebuild :
    ∃ store, usageMachine.Reachable store ∧ store.rollups.length = 1 ∧
      store.rollups.Perm (rebuildRows store.requests) ∧
        ∀ row ∈ store.rollups, row.sums.requestCount ≠ 0 := by
  have run : ((usageMachine.runWhile (fun s a => decide (CountsPlain s a)) .empty sampleRun).any
      fun store => decide (store.rollups.length = 1)) = true := by decide +kernel
  obtain ⟨store, reaches, single⟩ := (Option.any_eq_true ..).mp run
  have reached := Machine.reachableWhile_of_runWhile .start reaches
  have plain : usageMachine.ReachableWhile CountsPlain store :=
    reached.mono fun _ _ meets => of_decide_eq_true meets
  exact ⟨store, reached.reachable, of_decide_eq_true single, rollups_match_rebuild plain⟩

/-- A provider with a blank before its name is counted under the name alone, and the rebuild
counts it under the whole text. -/
theorem rebuild_keeps_blank :
    ∃ store, usageMachine.Reachable store ∧ ¬ store.rollups.Perm (rebuildRows store.requests) := by
  have run : ((usageMachine.run .empty
      [.insert (sampleRequest 0 " provider".toList "completed".toList) true]).any fun store =>
        decide (¬ store.rollups.Perm (rebuildRows store.requests))) = true := by
    decide +kernel
  obtain ⟨store, reaches, differs⟩ := (Option.any_eq_true ..).mp run
  exact ⟨store, Machine.reachable_of_run .start reaches, of_decide_eq_true differs⟩

end Foco.LlmUsage
