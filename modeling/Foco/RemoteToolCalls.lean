import Mathlib.Data.Char
import Mathlib.Data.List.Lex
import Mathlib.Data.List.Dedup
import Mathlib.Data.List.ReduceOption
import Foco.HistoryReplay
import Foco.SortedByKey

/-!
`app/remote_workspace.rs`, the tool calls of one broker turn of a remote run: the calls that were
streamed and the calls of the final response are merged through a map ordered by call id, and
executed one by one in the order of the merged list.
-/
namespace Foco.RemoteToolCalls
open Foco.RustText Foco.SortedByKey
open Foco.HistoryReplay (NeutralToolCall)

/-- `merge_remote_tool_calls`. The order of Rust strings is that of their characters. -/
def mergeRemoteToolCalls (existing incoming : List NeutralToolCall) : List NeutralToolCall :=
  insertAll NeutralToolCall.callId (existing ++ incoming) []

/-- One `toolCall` event, none if its call is missing or cannot be read. -/
def collectToolCall (collected : List NeutralToolCall) :
    Option NeutralToolCall → List NeutralToolCall
  | none => collected
  | some toolCall => mergeRemoteToolCalls collected [toolCall]

/-- The calls that `remote_sidecar_run_broker_llm_turn` hands on, with the calls of the final
response, none if they are missing or cannot be read. -/
def turnToolCalls (events : List (Option NeutralToolCall))
    (response : Option (List NeutralToolCall)) : List NeutralToolCall :=
  let collectedToolCalls := events.foldl collectToolCall []
  let responseToolCalls := response.getD []
  if responseToolCalls.isEmpty then collectedToolCalls
  else mergeRemoteToolCalls collectedToolCalls responseToolCalls

/-! ## The calls as the model issued them -/

/-- The call ids in the order of the response, then of their first appearance in the stream. -/
def issuedIds (streamed response : List NeutralToolCall) : List Text :=
  ((response ++ streamed).map NeutralToolCall.callId).reverse.dedup.reverse

/-- Every call once, as it arrived last. -/
def issuedCalls (streamed response : List NeutralToolCall) : List NeutralToolCall :=
  (issuedIds streamed response).filterMap (lastOf NeutralToolCall.callId (streamed ++ response))

section Merging

variable {events : List (Option NeutralToolCall)} {response : Option (List NeutralToolCall)}
  {streamed responded collected : List NeutralToolCall} {toolCall : NeutralToolCall}

theorem mergeRemoteToolCalls_of_sorted (sorted : Sorted NeutralToolCall.callId collected)
    (incoming : List NeutralToolCall) :
    mergeRemoteToolCalls collected incoming =
      insertAll NeutralToolCall.callId incoming collected := by
  have kept : insertAll NeutralToolCall.callId collected [] = collected :=
    insertAll_of_sorted sorted
  rw [mergeRemoteToolCalls, insertAll, List.foldl_append]
  rw [insertAll] at kept
  rw [kept, insertAll]

/-- Merging event by event is inserting the calls that were read. -/
theorem collected_eq (sorted : Sorted NeutralToolCall.callId collected) :
    events.foldl collectToolCall collected =
      insertAll NeutralToolCall.callId events.reduceOption collected := by
  induction events generalizing collected with
  | nil => rfl
  | cons event events ih =>
    cases event with
    | none => exact ih sorted
    | some toolCall =>
      have merged : mergeRemoteToolCalls collected [toolCall] =
          SortedByKey.insert NeutralToolCall.callId toolCall collected :=
        mergeRemoteToolCalls_of_sorted sorted [toolCall]
      rw [List.foldl_cons, collectToolCall, merged, ih (sorted.insert toolCall),
        List.reduceOption_cons_of_some]
      rfl

/-- The two sources are read as one list, the response last. -/
theorem turnToolCalls_eq (events : List (Option NeutralToolCall))
    (response : Option (List NeutralToolCall)) :
    turnToolCalls events response =
      insertAll NeutralToolCall.callId (events.reduceOption ++ response.getD []) [] := by
  have collected : events.foldl collectToolCall [] =
      insertAll NeutralToolCall.callId events.reduceOption [] := collected_eq sorted_nil
  rw [turnToolCalls, collected]
  by_cases none : (response.getD []).isEmpty = true
  · rw [if_pos none, List.isEmpty_iff.mp none, List.append_nil]
  · rw [if_neg none, mergeRemoteToolCalls_of_sorted (sorted_nil.insertAll _), insertAll, insertAll,
      insertAll, List.foldl_append]

theorem mem_issuedIds {id : Text} :
    id ∈ issuedIds streamed responded ↔ ∃ call ∈ streamed ++ responded, call.callId = id := by
  rw [issuedIds, List.mem_reverse, List.mem_dedup, List.mem_reverse, List.mem_map]
  simp only [List.mem_append, or_comm]

theorem nodup_issuedIds : (issuedIds streamed responded).Nodup :=
  List.nodup_reverse.mpr (List.nodup_dedup _)

/-- There is a last call with each id that was issued. -/
theorem exists_lastOf {id : Text} (mem : id ∈ issuedIds streamed responded) :
    ∃ call, lastOf NeutralToolCall.callId (streamed ++ responded) id = some call ∧
      call.callId = id := by
  obtain ⟨call, there, rfl⟩ := mem_issuedIds.mp mem
  have found : (lastOf NeutralToolCall.callId (streamed ++ responded) call.callId).isSome = true :=
    List.find?_isSome.mpr ⟨call, List.mem_reverse.mpr there, by simp⟩
  obtain ⟨last, found⟩ := Option.isSome_iff_exists.mp found
  exact ⟨last, found, key_of_lastOf found⟩

theorem mem_issuedCalls : toolCall ∈ issuedCalls streamed responded ↔
    lastOf NeutralToolCall.callId (streamed ++ responded) toolCall.callId = some toolCall := by
  rw [issuedCalls, List.mem_filterMap]
  constructor
  · rintro ⟨id, -, found⟩
    rwa [key_of_lastOf found]
  · intro found
    have mem := List.mem_reverse.mp (List.mem_of_find?_eq_some found)
    exact ⟨toolCall.callId, mem_issuedIds.mpr ⟨toolCall, mem, rfl⟩, found⟩

/-- Every id that was issued is there exactly once, in its place. -/
theorem map_callId_issuedCalls :
    (issuedCalls streamed responded).map NeutralToolCall.callId = issuedIds streamed responded := by
  have each : ∀ ids : List Text, (∀ id ∈ ids, id ∈ issuedIds streamed responded) →
      (ids.filterMap (lastOf NeutralToolCall.callId (streamed ++ responded))).map
        NeutralToolCall.callId = ids := by
    intro ids issued
    induction ids with
    | nil => rfl
    | cons id ids ih =>
      obtain ⟨call, found, named⟩ := exists_lastOf (issued id List.mem_cons_self)
      rw [List.filterMap_cons_some found, List.map_cons, named,
        ih fun other mem => issued other (List.mem_cons_of_mem _ mem)]
  exact each _ fun _ => id

theorem sorted_issuedCalls :
    Sorted NeutralToolCall.callId (issuedCalls streamed responded) ↔
      (issuedIds streamed responded).Pairwise (· < ·) := by
  rw [← map_callId_issuedCalls, List.pairwise_map, Sorted]

/-- The calls are those that the model has issued, whatever their order. -/
theorem perm_issuedCalls (events : List (Option NeutralToolCall))
    (response : Option (List NeutralToolCall)) :
    (turnToolCalls events response).Perm (issuedCalls events.reduceOption (response.getD [])) := by
  have sorted : Sorted NeutralToolCall.callId (turnToolCalls events response) := by
    rw [turnToolCalls_eq]
    exact sorted_nil.insertAll _
  have distinct : (issuedCalls events.reduceOption (response.getD [])).Nodup := by
    refine List.Nodup.of_map NeutralToolCall.callId ?_
    rw [map_callId_issuedCalls]
    exact nodup_issuedIds
  refine (List.perm_ext_iff_of_nodup ?_ distinct).mpr fun toolCall => ?_
  · exact sorted.imp fun less eq => absurd (eq ▸ less) (lt_irrefl _)
  · rw [turnToolCalls_eq, mem_insertAll, mem_issuedCalls]

/-- The calls are handed on in the order of the model exactly when that is the order of their
ids. -/
theorem turnToolCalls_eq_issuedCalls_iff (events : List (Option NeutralToolCall))
    (response : Option (List NeutralToolCall)) :
    turnToolCalls events response = issuedCalls events.reduceOption (response.getD []) ↔
      (issuedIds events.reduceOption (response.getD [])).Pairwise (· < ·) := by
  have sorted : Sorted NeutralToolCall.callId (turnToolCalls events response) := by
    rw [turnToolCalls_eq]
    exact sorted_nil.insertAll _
  rw [← sorted_issuedCalls]
  constructor
  · intro same
    rwa [← same]
  · exact fun issued => sorted.eq issued fun _ => (perm_issuedCalls events response).mem_iff

end Merging

/-- A write and a run whose ids are not in order. -/
def writeThenRun : List NeutralToolCall :=
  [⟨['b'], "write_file".toList, .null⟩, ⟨['a'], "run_command".toList, .null⟩]

theorem run_before_write :
    ¬∀ (events : List (Option NeutralToolCall)) (response : Option (List NeutralToolCall)),
      turnToolCalls events response = issuedCalls events.reduceOption (response.getD []) := by
  intro inOrder
  have ids := congrArg (List.map NeutralToolCall.callId) (inOrder [] (some writeThenRun))
  rw [map_callId_issuedCalls] at ids
  revert ids
  decide

end Foco.RemoteToolCalls
