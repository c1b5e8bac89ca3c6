import Foco.ApiErrors
import Foco.JsonLengths

/-!
The result of an agent's task as it is stored: a text within a limit of bytes. A result over it loses
its reasoning, then the end of its text, then all but some of the changed paths of its worktree.
-/
namespace Foco.TaskOutcomes
open RustText JsonText

/-! ## Compaction -/

def agentMaxTaskOutcomeBytes : Nat := 64 * 1024

def exceeds (field suffix : String) : ApiError :=
  .internal (("Agent task " ++ field ++ " exceeds ").toList ++ natText agentMaxTaskOutcomeBytes ++
    (" bytes" ++ suffix).toList)

/-- `json.len() <= AGENT_MAX_TASK_OUTCOME_BYTES`. -/
def fits (value : Json) : Bool := utf8Length (print value) ≤ agentMaxTaskOutcomeBytes

/-- `agent_task_json_if_within_limit`. -/
def agentTaskJsonIfWithinLimit (value : Json) : Option Text :=
  if fits value then some (print value) else none

def string (text : String) : Json := .string text.toList

/-- `mark_agent_task_result_truncated`. -/
def markAgentTaskResultTruncated (originalBytes : Nat) (truncatedFields : List Json)
    (object : JsonMap) : JsonMap :=
  ((object.put "truncated" (.bool true)).put "originalBytes" (jsonNat originalBytes)).put
    "truncatedFields" (.array truncatedFields)

/-- The longest front of a text with at most so many bytes: `&value[..end]` with `end` lowered to a
character boundary. -/
def frontWithin : Nat → Text → Text
  | _, [] => []
  | bytes, c :: rest =>
    if c.utf8Size ≤ bytes then c :: frontWithin (bytes - c.utf8Size) rest else []

def truncationSuffix : Text := "\n\n[truncated to fit agent task result_json]".toList

/-- `truncated_agent_task_text`. -/
def truncatedAgentTaskText (value : Text) (maxBytes : Nat) : Text :=
  if utf8Length value ≤ maxBytes then value else frontWithin maxBytes value ++ truncationSuffix

/-- The loop of `truncate_agent_task_string_field_to_fit`: the last candidate that fitted. -/
def bestFitting (candidate : Nat → Text) (fitting : Text → Bool) (low high : Nat) (best : Text) :
    Text :=
  if low ≤ high then
    if fitting (candidate (low + (high - low) / 2)) then
      bestFitting candidate fitting (low + (high - low) / 2 + 1) high
        (candidate (low + (high - low) / 2))
    else if low + (high - low) / 2 = 0 then best
    else bestFitting candidate fitting low (low + (high - low) / 2 - 1) best
  else best
termination_by high + 1 - low

/-- `fields.push(..)` on the array that the object holds. -/
def pushTruncatedField (field : String) (object : JsonMap) : JsonMap :=
  object.modify "truncatedFields" fun
    | .array fields => .array (fields ++ [string field])
    | other => other

/-- `truncate_agent_task_string_field_to_fit`: nothing without a text to truncate, else the object
and the names of the truncated fields. -/
def truncateAgentTaskStringFieldToFit (field : String) (object : JsonMap)
    (truncatedFields : List Json) : Option (JsonMap × List Json) :=
  match (object.get field).bind Json.asStr with
  | none => none
  | some original =>
    if original = [] then none
    else
      let object := pushTruncatedField field object
      let best := bestFitting (truncatedAgentTaskText original)
        (fun candidate => fits (.object (object.put field (.string candidate)))) 0
        (utf8Length original) []
      some (object.put field (.string best), truncatedFields ++ [string field])

def keptChangedPaths : Nat := 32

/-- `compact_agent_task_worktree`. -/
def compactAgentTaskWorktree (object : JsonMap) (truncatedFields : List Json) :
    JsonMap × List Json :=
  match (object.get "worktree").bind Json.asObject with
  | none => (object, truncatedFields)
  | some worktree =>
    match worktree.get "changedPaths" with
    | some (.array changedPaths) =>
      if changedPaths.length ≤ keptChangedPaths then (object, truncatedFields)
      else
        (object.modify "worktree" fun _ => .object
          (((worktree.put "changedPaths" (.array (changedPaths.take keptChangedPaths))).put
            "changedPathsTruncated" (.bool true)).put
            "originalChangedPathCount" (jsonNat changedPaths.length)),
          truncatedFields ++ [string "worktree.changedPaths"])
    | _ => (object, truncatedFields)

/-- What is left of a result when nothing else fits. -/
def fallback (value : Json) (compacted : JsonMap) (originalBytes : Nat) : Json :=
  .object [("text", string ""), ("reasoning", string ""),
    ("usage", (value.get "usage").getD .null),
    ("worktree", (compacted.get "worktree").getD .null),
    ("truncated", .bool true),
    ("truncatedFields", .array [string "reasoning", string "text", string "worktree"]),
    ("originalBytes", jsonNat originalBytes)]

/-- The last steps of `compact_agent_task_result_json`: the worktree, then the fallback. -/
def compactWithoutWorktree (value : Json) (originalBytes : Nat) (object : JsonMap)
    (truncatedFields : List Json) : Except ApiError Text :=
  let (object, truncatedFields) := compactAgentTaskWorktree object truncatedFields
  let object := markAgentTaskResultTruncated originalBytes truncatedFields object
  match agentTaskJsonIfWithinLimit (.object object) with
  | some json => .ok json
  | none =>
    match agentTaskJsonIfWithinLimit (fallback value object originalBytes) with
    | some json => .ok json
    | none => .error (exceeds "result_json" " after compaction")

/-- Its first step: the reasoning is emptied. -/
def withoutReasoning (object : JsonMap) : JsonMap × List Json :=
  match (object.get "reasoning").bind Json.asStr with
  | some (_ :: _) => (object.put "reasoning" (string ""), [string "reasoning"])
  | _ => (object, [])

/-- `compact_agent_task_result_json`. -/
def compactAgentTaskResultJson (value : Json) (originalBytes : Nat) : Except ApiError Text :=
  match value.asObject with
  | none => .error (exceeds "result_json" "")
  | some object =>
    let (object, truncatedFields) := withoutReasoning object
    let object := markAgentTaskResultTruncated originalBytes truncatedFields object
    match agentTaskJsonIfWithinLimit (.object object) with
    | some json => .ok json
    | none =>
      match truncateAgentTaskStringFieldToFit "text" object truncatedFields with
      | none => compactWithoutWorktree value originalBytes object truncatedFields
      | some (object, truncatedFields) =>
        let object := markAgentTaskResultTruncated originalBytes truncatedFields object
        match agentTaskJsonIfWithinLimit (.object object) with
        | some json => .ok json
        | none => compactWithoutWorktree value originalBytes object truncatedFields

/-- `agent_task_outcome_json`. -/
def agentTaskOutcomeJson (value : Json) (field : String) : Except ApiError Text :=
  if fits value then .ok (print value)
  else if field = "result_json" then
    compactAgentTaskResultJson value (utf8Length (print value))
  else .error (exceeds field "")

/-! ## Results -/

/-- The worktree of a result: what is said of it and the paths that changed. -/
structure Worktree where
  details : JsonMap
  changedPaths : List Text
  named : (details.map Prod.fst ++
    ["changedPaths", "changedPathsTruncated", "originalChangedPathCount"]).Nodup

/-- A completed task. -/
structure TaskResult where
  text : Text
  reasoning : Text
  usage : Json
  worktree : Option Worktree

namespace Worktree

def fields (worktree : Worktree) : JsonMap :=
  worktree.details ++ [("changedPaths", .array (worktree.changedPaths.map Json.string))]

def json (worktree : Worktree) : Json := .object worktree.fields

/-- The worktree with the paths that are kept. -/
def shortened (worktree : Worktree) : Json :=
  .object (worktree.details ++
    [("changedPaths", .array ((worktree.changedPaths.take keptChangedPaths).map Json.string)),
      ("changedPathsTruncated", .bool true),
      ("originalChangedPathCount", jsonNat worktree.changedPaths.length)])

/-- There are paths to leave out. -/
def Long (worktree : Worktree) : Prop := keptChangedPaths < worktree.changedPaths.length

theorem absent (worktree : Worktree) : "changedPaths" ∉ worktree.details.map Prod.fst := by
  intro mem
  exact (List.nodup_append.mp worktree.named).2.2 _ mem _ List.mem_cons_self rfl

theorem put_kept (worktree : Worktree) (kept : Json) (count : Nat) :
    ((worktree.fields.put "changedPaths" kept).put "changedPathsTruncated" (.bool true)).put
        "originalChangedPathCount" (jsonNat count) =
      worktree.details ++ [("changedPaths", kept), ("changedPathsTruncated", .bool true),
        ("originalChangedPathCount", jsonNat count)] := by
  have apart := (List.nodup_append.mp worktree.named).2.2
  have listed : worktree.fields.put "changedPaths" kept =
      worktree.details ++ [("changedPaths", kept)] := by
    have there : "changedPaths" ∈ worktree.fields.map Prod.fst := by simp [fields]
    rw [JsonMap.put, if_pos there, fields, JsonMap.modify, List.map_append]
    congr 1
    refine (List.map_congr_left fun field mem => ?_).trans (List.map_id _)
    exact if_neg (apart _ (List.mem_map_of_mem mem) _ List.mem_cons_self)
  have truncated : "changedPathsTruncated" ∉
      (worktree.details ++ [("changedPaths", kept)]).map Prod.fst := by
    rw [List.map_append, List.mem_append, not_or]
    refine ⟨fun mem => ?_, by simp⟩
    exact apart _ mem "changedPathsTruncated" (by simp) rfl
  have counted : "originalChangedPathCount" ∉
      (worktree.details ++ [("changedPaths", kept)] ++
        [("changedPathsTruncated", Json.bool true)]).map Prod.fst := by
    rw [List.append_assoc, List.map_append, List.mem_append, not_or]
    refine ⟨fun mem => ?_, by simp⟩
    exact apart _ mem "originalChangedPathCount" (by simp) rfl
  rw [listed, JsonMap.put_absent _ truncated, JsonMap.put_absent _ counted, List.append_assoc,
    List.append_assoc]
  rfl

end Worktree

/-- The fields of a result. -/
def plain (text reasoning : Text) (usage : Json) (worktree : Option Json) : JsonMap :=
  [("text", .string text), ("reasoning", .string reasoning), ("usage", usage)] ++
    (worktree.map (Prod.mk "worktree")).toList

/-- The fields of a result that was truncated. -/
def marked (text reasoning : Text) (usage : Json) (worktree : Option Json) (originalBytes : Nat)
    (named : List Json) : JsonMap :=
  plain text reasoning usage worktree ++
    [("truncated", .bool true), ("originalBytes", jsonNat originalBytes),
      ("truncatedFields", .array named)]

namespace TaskResult

def json (result : TaskResult) : Json :=
  .object (plain result.text result.reasoning result.usage (result.worktree.map Worktree.json))

def originalBytes (result : TaskResult) : Nat := utf8Length (print result.json)

def reasoningNames (result : TaskResult) : List String :=
  if result.reasoning = [] then [] else ["reasoning"]

def reasoningNamed (result : TaskResult) : List Json := result.reasoningNames.map string

/-- The result without its reasoning. -/
def unreasoned (result : TaskResult) : JsonMap :=
  marked result.text [] result.usage (result.worktree.map Worktree.json) result.originalBytes
    result.reasoningNamed

/-- The same with another text. -/
def retexted (result : TaskResult) (text : Text) : JsonMap :=
  marked text [] result.usage (result.worktree.map Worktree.json) result.originalBytes
    (result.reasoningNamed ++ [string "text"])

/-- The result without its reasoning and with the paths that are kept of a worktree. -/
def shortened (result : TaskResult) (worktree : Worktree) : JsonMap :=
  marked result.text [] result.usage (some worktree.shortened) result.originalBytes
    (result.reasoningNamed ++ [string "worktree.changedPaths"])

/-- With fewer changed paths it fits. -/
def ShortenedFits (result : TaskResult) : Prop :=
  ∃ worktree, result.worktree = some worktree ∧ worktree.Long ∧
    fits (.object (result.shortened worktree)) = true

/-- The result fits with its text complete: as it is, without its reasoning, or with fewer changed
paths too. -/
def TextFits (result : TaskResult) : Prop :=
  fits result.json = true ∨ fits (.object result.unreasoned) = true ∨ result.ShortenedFits

end TaskResult

section Steps

variable {text reasoning other : Text} {usage : Json} {worktree : Option Json} {bytes : Nat}
  {named : List Json}

theorem mark_plain : markAgentTaskResultTruncated bytes named (plain text reasoning usage worktree) =
    marked text reasoning usage worktree bytes named := by
  cases worktree <;> simp [markAgentTaskResultTruncated, plain, marked, JsonMap.put]

theorem mark_marked {others : List Json} :
    markAgentTaskResultTruncated bytes others (marked text reasoning usage worktree bytes named) =
      marked text reasoning usage worktree bytes others := by
  cases worktree <;>
    simp [markAgentTaskResultTruncated, plain, marked, JsonMap.put, JsonMap.modify]

theorem put_text : (marked text reasoning usage worktree bytes named).put "text" (.string other) =
    marked other reasoning usage worktree bytes named := by
  cases worktree <;> simp [plain, marked, JsonMap.put, JsonMap.modify]

theorem push_marked {field : String} :
    pushTruncatedField field (marked text reasoning usage worktree bytes named) =
      marked text reasoning usage worktree bytes (named ++ [string field]) := by
  cases worktree <;> simp [plain, marked, JsonMap.modify, pushTruncatedField]

theorem get_text : (marked text reasoning usage worktree bytes named).get "text" =
    some (.string text) := rfl

theorem get_reasoning : (marked text reasoning usage worktree bytes named).get "reasoning" =
    some (.string reasoning) := rfl

theorem get_usage : (marked text reasoning usage worktree bytes named).get "usage" = some usage :=
  rfl

theorem get_worktree : (marked text reasoning usage worktree bytes named).get "worktree" =
    worktree := by
  cases worktree <;> rfl

theorem fits_iff {value : Json} :
    fits value = true ↔ utf8Length (print value) ≤ agentMaxTaskOutcomeBytes :=
  decide_eq_true_iff

theorem print_string_length (text : Text) : utf8Length (print (.string text)) = stringSize text := by
  rw [print, utf8Length_quoted]

theorem length_marked : utf8Length (print (.object
      (marked text reasoning usage worktree bytes named))) =
    ((marked text reasoning usage worktree bytes named).map fieldLength).sum + 1 :=
  utf8Length_object (List.cons_ne_nil _ _)

/-- What fits with a text fits with a shorter one. -/
theorem fits_of_shorter (shorter : escapedLength other ≤ escapedLength text)
    (fitting : fits (.object (marked text reasoning usage worktree bytes named)) = true) :
    fits (.object (marked other reasoning usage worktree bytes named)) = true := by
  rw [fits_iff, length_marked] at fitting ⊢
  simp only [marked, plain, List.append_assoc, List.cons_append, List.map_cons, List.sum_cons,
    fieldLength, print_string_length, stringSize] at fitting ⊢
  omega

/-- What fits with a field named fits without it. -/
theorem fits_of_fewer {field : Json}
    (fitting : fits (.object (marked text reasoning usage worktree bytes (named ++ [field]))) = true) :
    fits (.object (marked text reasoning usage worktree bytes named)) = true := by
  have longer := utf8Length_array_concat named field
  rw [fits_iff, length_marked] at fitting ⊢
  simp only [marked, List.map_append, List.sum_append, List.map_cons, List.sum_cons, List.map_nil,
    List.sum_nil, fieldLength] at fitting ⊢
  omega

end Steps

/-! ## The search for a text that fits -/

section Search

variable {candidate : Nat → Text} {fitting : Text → Bool} {low high : Nat} {best : Text}

theorem bestFitting_eq (candidate : Nat → Text) (fitting : Text → Bool) (low high : Nat)
    (best : Text) :
    bestFitting candidate fitting low high best = best ∨
      ∃ bytes ≤ high, fitting (candidate bytes) = true ∧
        bestFitting candidate fitting low high best = candidate bytes := by
  fun_induction bestFitting candidate fitting low high best with
  | case1 low high best le fit ih =>
    obtain same | ⟨bytes, bound, fit', same⟩ := ih
    · exact .inr ⟨_, by omega, fit, same⟩
    · exact .inr ⟨bytes, bound, fit', same⟩
  | case2 low high best le misfit zero => exact .inl rfl
  | case3 low high best le misfit positive ih =>
    obtain same | ⟨bytes, bound, fit, same⟩ := ih
    · exact .inl same
    · exact .inr ⟨bytes, by omega, fit, same⟩
  | case4 low high best gt => exact .inl rfl

/-- Where the shortest candidate fits, some candidate that fits is found. -/
theorem bestFitting_found (candidate : Nat → Text) (fitting : Text → Bool) (best : Text)
    (le : low ≤ high) (fit : fitting (candidate low) = true) :
    ∃ bytes ≤ high, fitting (candidate bytes) = true ∧
      bestFitting candidate fitting low high best = candidate bytes := by
  fun_induction bestFitting candidate fitting low high best with
  | case1 low high best le fit' ih =>
    obtain same | ⟨bytes, bound, fit'', same⟩ :=
      bestFitting_eq candidate fitting (low + (high - low) / 2 + 1) high
        (candidate (low + (high - low) / 2))
    · exact ⟨_, by omega, fit', same⟩
    · exact ⟨bytes, bound, fit'', same⟩
  | case2 low high best le misfit zero =>
    have same : low + (high - low) / 2 = low := by omega
    rw [same] at misfit
    exact absurd fit misfit
  | case3 low high best le misfit positive ih =>
    have other : low + (high - low) / 2 ≠ low := by
      intro same
      rw [same] at misfit
      exact misfit fit
    obtain ⟨bytes, bound, fit', same⟩ := ih (by omega) fit
    exact ⟨bytes, by omega, fit', same⟩
  | case4 low high best gt => exact absurd le gt

/-- Where no candidate fits, there is none. -/
theorem bestFitting_none (misfits : ∀ bytes ≤ high, fitting (candidate bytes) = false) :
    bestFitting candidate fitting low high best = best := by
  obtain same | ⟨bytes, bound, fit, -⟩ := bestFitting_eq candidate fitting low high best
  · exact same
  · rw [misfits bytes bound] at fit
    cases fit

end Search

theorem frontWithin_prefix (bytes : Nat) (text : Text) : frontWithin bytes text <+: text := by
  induction text generalizing bytes with
  | nil => exact List.nil_prefix
  | cons c text ih =>
    rw [frontWithin]
    split
    · exact List.cons_prefix_cons.mpr ⟨rfl, ih _⟩
    · exact List.nil_prefix

theorem utf8Length_frontWithin (bytes : Nat) (text : Text) :
    utf8Length (frontWithin bytes text) ≤ bytes := by
  induction text generalizing bytes with
  | nil => exact Nat.zero_le bytes
  | cons c text ih =>
    rw [frontWithin]
    split
    · next room =>
      have rest := ih (bytes - c.utf8Size)
      rw [utf8Length_cons]
      omega
    · exact Nat.zero_le bytes

/-- What a text is cut to: a proper front of it, and the mark. -/
theorem truncated_eq {text : Text} {bytes : Nat} (over_ : ¬ utf8Length text ≤ bytes) :
    ∃ front, front <+: text ∧ front ≠ text ∧
      truncatedAgentTaskText text bytes = front ++ truncationSuffix := by
  refine ⟨frontWithin bytes text, frontWithin_prefix bytes text, ?_, if_neg over_⟩
  intro whole
  have short := utf8Length_frontWithin bytes text
  rw [whole] at short
  exact over_ short

/-! ## What is stored of a result -/

section Outcomes

variable {readFloat : Text → Option Text} {result : TaskResult} {depth : Nat}

/-- The values in a result are ones of `serde_json`, and lengths are `usize`. -/
structure TaskResult.Valid (readFloat : Text → Option Text) (depth : Nat) (result : TaskResult) :
    Prop where
  usage : Readable readFloat depth result.usage
  details : ∀ worktree, result.worktree = some worktree →
    ReadableFields readFloat depth worktree.details
  paths : ∀ worktree, result.worktree = some worktree →
    worktree.changedPaths.length ≤ usizeMax
  bytes : result.originalBytes ≤ usizeMax

theorem readable_jsonNat {n : Nat} (small : n ≤ usizeMax) :
    Readable readFloat depth (jsonNat n) := by
  have bound : n < 2 ^ 64 := Nat.lt_of_le_of_lt small (by decide)
  unfold jsonNat Readable
  omega

theorem readable_string (text : Text) : Readable readFloat depth (.string text) := by
  unfold Readable
  trivial

theorem readable_bool (value : Bool) : Readable readFloat depth (.bool value) := by
  unfold Readable
  trivial

theorem readable_changedPaths (paths : List Text) :
    Readable readFloat (depth + 2) (.array (paths.map Json.string)) := by
  unfold Readable
  exact readableValues_of_strings paths

theorem readableValues_strings (names : List String) :
    ReadableValues readFloat depth (names.map string) := by
  have texts : names.map string = (names.map String.toList).map Json.string := by
    rw [List.map_map]
    rfl
  rw [texts]
  exact readableValues_of_strings _

theorem readable_worktree {worktree : Worktree} (valid : result.Valid readFloat depth)
    (there : result.worktree = some worktree) :
    Readable readFloat (depth + 3) worktree.json ∧
      Readable readFloat (depth + 3) worktree.shortened := by
  have details := ReadableFields.mono _ (valid.details worktree there) (Nat.le_add_right depth 2)
  have keyed := worktree.named
  unfold Worktree.json Worktree.fields Worktree.shortened Readable
  refine ⟨⟨?_, readableFields_append.mpr ⟨details, ?_⟩⟩,
    ?_, readableFields_append.mpr ⟨details, ?_⟩⟩
  · rw [List.map_append]
    refine keyed.sublist (List.Sublist.append (List.Sublist.refl _) ?_)
    exact List.Sublist.cons_cons _ (List.nil_sublist _)
  · simp only [ReadableFields, and_true]
    exact readable_changedPaths _
  · rw [List.map_append]
    exact keyed
  · simp only [ReadableFields, and_true]
    exact ⟨readable_changedPaths _, readable_bool true, readable_jsonNat (valid.paths worktree there)⟩

/-- The objects of the compaction can be read back. -/
theorem readable_marked (valid : result.Valid readFloat depth) (text reasoning : Text)
    {worktree : Option Json} (others : ∀ value, worktree = some value →
      Readable readFloat (depth + 3) value) (names : List String) :
    Readable readFloat (depth + 4) (.object (marked text reasoning result.usage worktree
      result.originalBytes (names.map string))) := by
  have usage := Readable.mono _ valid.usage (Nat.le_add_right depth 3)
  have array : Readable readFloat (depth + 3) (.array (names.map string)) := by
    unfold Readable
    exact readableValues_strings names
  unfold Readable marked plain
  refine ⟨?_, ?_⟩
  · cases worktree <;> simp
  · simp only [readableFields_append, ReadableFields, and_true, readable_string, true_and, usage,
      array, readable_bool, readable_jsonNat valid.bytes]
    cases worktree with
    | none => trivial
    | some value => exact ⟨others value rfl, trivial⟩

def namedFields (fields : JsonMap) : List Json :=
  match fields.get "truncatedFields" with
  | some (.array fields) => fields
  | _ => []

/-- The field of a name is not what it was. -/
def Differs (result : TaskResult) (fields : JsonMap) (name : String) : Prop :=
  name = "text" ∧ fields.get "text" ≠ some (.string result.text) ∨
  name = "reasoning" ∧ fields.get "reasoning" ≠ some (.string result.reasoning) ∨
  name = "worktree.changedPaths" ∧ fields.get "worktree" ≠ result.worktree.map Worktree.json

/-- An object within the limit that keeps the usage, keeps the text complete wherever that fits and
else a front of it with the mark, and names the fields that differ. -/
structure Describes (result : TaskResult) (fields : JsonMap) : Prop where
  short : fits (.object fields) = true
  usage : fields.get "usage" = some result.usage
  complete : result.TextFits → fields.get "text" = some (.string result.text)
  cut : ¬ result.TextFits → ∃ front, front <+: result.text ∧ front ≠ result.text ∧
    fields.get "text" = some (.string (front ++ truncationSuffix))
  named : ∀ name, string name ∈ namedFields fields ↔ Differs result fields name

/-- What is stored of a result is the text of an object that describes it. -/
def StoredFaithfully (readFloat : Text → Option Text) (result : TaskResult) : Prop :=
  ∃ fields depth, Readable readFloat depth (.object fields) ∧
    agentTaskOutcomeJson result.json "result_json" = .ok (print (.object fields)) ∧
    Describes result fields

/-- The result fits, or fits without its reasoning; or the mark of a cut text fits beside all changed
paths, and the complete text does not fit beside fewer; or there is no text, and the rest fits beside
fewer paths. -/
def Compacts (result : TaskResult) : Prop :=
  fits result.json = true ∨ fits (.object result.unreasoned) = true ∨
  (result.text ≠ [] ∧ fits (.object (result.retexted truncationSuffix)) = true ∧
    ¬ result.ShortenedFits) ∨
  (result.text = [] ∧ result.ShortenedFits)

theorem string_inj {name other : String} : string name = string other ↔ name = other := by
  unfold string
  rw [Json.string.injEq]
  exact String.toList_inj

theorem withoutReasoning_plain (text reasoning : Text) (usage : Json) (worktree : Option Json) :
    withoutReasoning (plain text reasoning usage worktree) =
      (plain text [] usage worktree,
        (if reasoning = [] then [] else ["reasoning"]).map string) := by
  have there : ((plain text reasoning usage worktree).get "reasoning").bind Json.asStr =
      some reasoning := rfl
  have emptied : (plain text reasoning usage worktree).put "reasoning" (string "") =
      plain text [] usage worktree := by
    cases worktree <;> simp [plain, JsonMap.put, JsonMap.modify, string]
  unfold withoutReasoning
  rw [there]
  cases reasoning with
  | nil => rfl
  | cons c reasoning => exact Prod.ext emptied rfl

/-! ### The worktree -/

theorem compactWorktree_kept {text reasoning : Text} {usage : Json} {worktree : Option Worktree}
    {bytes : Nat} {named others : List Json}
    (few : ∀ tree, worktree = some tree → ¬ tree.Long) :
    compactAgentTaskWorktree
        (marked text reasoning usage (worktree.map Worktree.json) bytes named) others =
      (marked text reasoning usage (worktree.map Worktree.json) bytes named, others) := by
  unfold compactAgentTaskWorktree
  rw [get_worktree]
  cases worktree with
  | none => rfl
  | some tree =>
    have listed : tree.fields.get "changedPaths" =
        some (.array (tree.changedPaths.map Json.string)) :=
      JsonMap.get_append_absent _ tree.absent
    have count : (tree.changedPaths.map Json.string).length ≤ keptChangedPaths := by
      rw [List.length_map]
      exact Nat.not_lt.mp (few tree rfl)
    show (match tree.fields.get "changedPaths" with
      | some (.array changedPaths) => _
      | _ => _) = _
    rw [listed]
    exact if_pos count

theorem compactWorktree_long {text reasoning : Text} {usage : Json} {tree : Worktree}
    {bytes : Nat} {named others : List Json} (long : tree.Long) :
    compactAgentTaskWorktree (marked text reasoning usage (some tree.json) bytes named) others =
      (marked text reasoning usage (some tree.shortened) bytes named,
        others ++ [string "worktree.changedPaths"]) := by
  have listed : tree.fields.get "changedPaths" =
      some (.array (tree.changedPaths.map Json.string)) :=
    JsonMap.get_append_absent _ tree.absent
  have count : ¬ (tree.changedPaths.map Json.string).length ≤ keptChangedPaths := by
    rw [List.length_map]
    exact Nat.not_le.mpr long
  unfold compactAgentTaskWorktree
  rw [get_worktree]
  show (match tree.fields.get "changedPaths" with
    | some (.array changedPaths) => _
    | _ => _) = _
  rw [listed]
  refine (if_neg count).trans (Prod.ext ?_ rfl)
  rw [← List.map_take, List.length_map, tree.put_kept]
  simp [marked, plain, JsonMap.modify, Worktree.shortened]

/-! ### The text -/

/-- The text that the search settles on. -/
def TaskResult.best (result : TaskResult) : Text :=
  bestFitting (truncatedAgentTaskText result.text)
    (fun candidate => fits (.object (result.retexted candidate))) 0 (utf8Length result.text) []

theorem TaskResult.unreasoned_fits_of_retexted
    (fit : fits (.object (result.retexted result.text)) = true) :
    fits (.object result.unreasoned) = true :=
  fits_of_fewer fit

/-- Where there is room for the mark, the text is cut to a front of it. -/
theorem best_of_room (some_ : result.text ≠ []) (misfit : fits (.object result.unreasoned) ≠ true)
    (room : fits (.object (result.retexted truncationSuffix)) = true) :
    fits (.object (result.retexted result.best)) = true ∧
      ∃ front, front <+: result.text ∧ front ≠ result.text ∧
        result.best = front ++ truncationSuffix := by
  have least : truncatedAgentTaskText result.text 0 = truncationSuffix := by
    obtain ⟨c, rest, there⟩ := List.exists_cons_of_ne_nil some_
    have positive := c.utf8Size_pos
    rw [there, truncatedAgentTaskText, if_neg, frontWithin, if_neg]
    · rfl
    · omega
    · rw [utf8Length_cons]
      omega
  obtain ⟨bytes, -, fit, same⟩ := bestFitting_found (truncatedAgentTaskText result.text)
    (fun candidate => fits (.object (result.retexted candidate))) []
    (Nat.zero_le (utf8Length result.text)) (by rw [least]; exact room)
  change result.best = _ at same
  rw [same]
  refine ⟨fit, truncated_eq fun within => ?_⟩
  rw [truncatedAgentTaskText, if_pos within] at fit
  exact misfit (result.unreasoned_fits_of_retexted fit)

/-- Without room for the mark, nothing is left of the text. -/
theorem best_of_noRoom (misfit : fits (.object result.unreasoned) ≠ true)
    (noRoom : fits (.object (result.retexted truncationSuffix)) ≠ true) : result.best = [] := by
  refine bestFitting_none fun bytes _ => ?_
  rw [Bool.eq_false_iff]
  intro fit
  by_cases within : utf8Length result.text ≤ bytes
  · rw [truncatedAgentTaskText, if_pos within] at fit
    exact misfit (result.unreasoned_fits_of_retexted fit)
  · obtain ⟨front, -, -, cut⟩ := truncated_eq within
    rw [cut] at fit
    refine noRoom (fits_of_shorter ?_ fit)
    rw [escapedLength_append]
    exact Nat.le_add_left _ _

/-! ### The outcome -/

theorem retexted_eq (text : Text) :
    result.retexted text = marked text [] result.usage (result.worktree.map Worktree.json)
      result.originalBytes ((result.reasoningNames ++ ["text"]).map string) := by
  rw [TaskResult.retexted, List.map_append]
  rfl

theorem outcome_of_fits (fit : fits result.json = true) :
    agentTaskOutcomeJson result.json "result_json" = .ok (print result.json) :=
  if_pos fit

/-- A result over the limit without its reasoning. -/
theorem outcome_of_misfit (misfit : fits result.json ≠ true) :
    agentTaskOutcomeJson result.json "result_json" =
      match agentTaskJsonIfWithinLimit (.object result.unreasoned) with
      | some json => .ok json
      | none =>
        match truncateAgentTaskStringFieldToFit "text" result.unreasoned result.reasoningNamed with
        | none => compactWithoutWorktree result.json result.originalBytes result.unreasoned
            result.reasoningNamed
        | some (object, truncatedFields) =>
          match agentTaskJsonIfWithinLimit (.object
            (markAgentTaskResultTruncated result.originalBytes truncatedFields object)) with
          | some json => .ok json
          | none => compactWithoutWorktree result.json result.originalBytes
              (markAgentTaskResultTruncated result.originalBytes truncatedFields object)
              truncatedFields := by
  have object : result.json.asObject = some (plain result.text result.reasoning result.usage
      (result.worktree.map Worktree.json)) := rfl
  have first : withoutReasoning (plain result.text result.reasoning result.usage
      (result.worktree.map Worktree.json)) =
        (plain result.text [] result.usage (result.worktree.map Worktree.json),
          result.reasoningNamed) := withoutReasoning_plain _ _ _ _
  have marks : markAgentTaskResultTruncated result.originalBytes result.reasoningNamed
      (plain result.text [] result.usage (result.worktree.map Worktree.json)) =
        result.unreasoned := mark_plain
  rw [agentTaskOutcomeJson, if_neg misfit, if_pos rfl, ← TaskResult.originalBytes,
    compactAgentTaskResultJson, object]
  dsimp only
  rw [first]
  dsimp only
  rw [marks]

theorem outcome_of_unreasoned (misfit : fits result.json ≠ true)
    (fit : fits (.object result.unreasoned) = true) :
    agentTaskOutcomeJson result.json "result_json" = .ok (print (.object result.unreasoned)) := by
  rw [outcome_of_misfit misfit, agentTaskJsonIfWithinLimit, if_pos fit]

/-- Without a text to cut the worktree is next. -/
theorem outcome_of_noText (misfit : fits result.json ≠ true)
    (still : fits (.object result.unreasoned) ≠ true) (none_ : result.text = []) :
    agentTaskOutcomeJson result.json "result_json" =
      compactWithoutWorktree result.json result.originalBytes result.unreasoned
        result.reasoningNamed := by
  have noText : truncateAgentTaskStringFieldToFit "text" result.unreasoned result.reasoningNamed =
      none := by
    rw [truncateAgentTaskStringFieldToFit, TaskResult.unreasoned, get_text]
    exact if_pos none_
  rw [outcome_of_misfit misfit, agentTaskJsonIfWithinLimit, if_neg still, noText]

theorem outcome_of_text (misfit : fits result.json ≠ true)
    (still : fits (.object result.unreasoned) ≠ true) (some_ : result.text ≠ []) :
    agentTaskOutcomeJson result.json "result_json" =
      match agentTaskJsonIfWithinLimit (.object (result.retexted result.best)) with
      | some json => .ok json
      | none => compactWithoutWorktree result.json result.originalBytes
          (result.retexted result.best) (result.reasoningNamed ++ [string "text"]) := by
  have cut : truncateAgentTaskStringFieldToFit "text" result.unreasoned result.reasoningNamed =
      some (result.retexted result.best, result.reasoningNamed ++ [string "text"]) := by
    rw [truncateAgentTaskStringFieldToFit, TaskResult.unreasoned, get_text]
    refine (if_neg some_).trans ?_
    simp only [push_marked, put_text]
    rfl
  rw [outcome_of_misfit misfit, agentTaskJsonIfWithinLimit, if_neg still, cut]
  simp only [TaskResult.retexted, mark_marked]

/-- The last steps change only the worktree and what is named. -/
theorem compactWorktree_readable (valid : result.Valid readFloat depth) (text : Text)
    (names : List String) : ∃ worktree others,
      (∀ value, worktree = some value → Readable readFloat (depth + 3) value) ∧
      compactAgentTaskWorktree (marked text [] result.usage (result.worktree.map Worktree.json)
          result.originalBytes (names.map string)) (names.map string) =
        (marked text [] result.usage worktree result.originalBytes (names.map string),
          List.map string others) := by
  by_cases long : ∃ tree, result.worktree = some tree ∧ tree.Long
  · obtain ⟨tree, there, long⟩ := long
    refine ⟨some tree.shortened, names ++ ["worktree.changedPaths"], ?_, ?_⟩
    · rintro value ⟨⟩
      exact (readable_worktree valid there).2
    · rw [there, Option.map_some, compactWorktree_long long, List.map_append]
      rfl
  · refine ⟨result.worktree.map Worktree.json, names, ?_, ?_⟩
    · intro value mapped
      obtain ⟨tree, there, rfl⟩ := Option.map_eq_some_iff.mp mapped
      exact (readable_worktree valid there).1
    · exact compactWorktree_kept fun tree there long' => long ⟨tree, there, long'⟩

/-- What the last steps return: the object with the paths that are kept, or what is left of it. -/
theorem last_cases {value : Json} {bytes : Nat} {object compacted : JsonMap} {named others : List Json}
    {json : Text} (step : compactAgentTaskWorktree object named = (compacted, others))
    (outcome : compactWithoutWorktree value bytes object named = .ok json) :
    json = print (.object (markAgentTaskResultTruncated bytes others compacted)) ∨
      json = print (fallback value (markAgentTaskResultTruncated bytes others compacted) bytes) := by
  rw [compactWithoutWorktree, step] at outcome
  dsimp only [agentTaskJsonIfWithinLimit] at outcome
  by_cases fit : fits (.object (markAgentTaskResultTruncated bytes others compacted)) = true
  · rw [if_pos fit] at outcome
    exact .inl (Except.ok.inj outcome).symm
  · rw [if_neg fit] at outcome
    by_cases last : fits (fallback value (markAgentTaskResultTruncated bytes others compacted)
        bytes) = true
    · rw [if_pos last] at outcome
      exact .inr (Except.ok.inj outcome).symm
    · rw [if_neg last] at outcome
      cases outcome

theorem last_of_fits {value : Json} {bytes : Nat} {object : JsonMap} {named : List Json}
    (compacted : JsonMap) (others : List Json)
    (step : compactAgentTaskWorktree object named = (compacted, others))
    (fit : fits (.object (markAgentTaskResultTruncated bytes others compacted)) = true) :
    compactWithoutWorktree value bytes object named =
      .ok (print (.object (markAgentTaskResultTruncated bytes others compacted))) := by
  rw [compactWithoutWorktree, step]
  dsimp only [agentTaskJsonIfWithinLimit]
  rw [if_pos fit]

/-- Once the text is gone, what the last steps return has none. -/
theorem noText_after_last (valid : result.Valid readFloat depth) {names : List String} {json : Text}
    (outcome : compactWithoutWorktree result.json result.originalBytes
      (marked [] [] result.usage (result.worktree.map Worktree.json) result.originalBytes
        (names.map string)) (names.map string) = .ok json) :
    ∃ fields : JsonMap, Readable readFloat (depth + 4) (.object fields) ∧
      json = print (.object fields) ∧ fields.get "text" = some (.string []) := by
  obtain ⟨worktree, others, readable, step⟩ := compactWorktree_readable valid [] names
  obtain printed | printed := last_cases step outcome
  · rw [mark_marked] at printed
    exact ⟨_, readable_marked valid [] [] readable others, printed, get_text⟩
  · rw [mark_marked] at printed
    refine ⟨_, ?_, printed, rfl⟩
    have usage := Readable.mono _ valid.usage (Nat.le_add_right depth 3)
    have tree : Readable readFloat (depth + 3) (worktree.getD .null) := by
      cases worktree with
      | none =>
        unfold Readable
        trivial
      | some value => exact readable value rfl
    have array : Readable readFloat (depth + 3)
        (.array [string "reasoning", string "text", string "worktree"]) := by
      unfold Readable
      exact readableValues_strings ["reasoning", "text", "worktree"]
    unfold Readable
    refine ⟨by simp, ?_⟩
    simp only [ReadableFields, and_true]
    rw [get_worktree]
    exact ⟨readable_string _, readable_string _, usage, tree, readable_bool true, array,
      readable_jsonNat valid.bytes⟩

/-! ### Faithfulness -/

theorem describes_of_outcome {fields : JsonMap} {deeper : Nat}
    (readable : Readable readFloat deeper (.object fields))
    (outcome : agentTaskOutcomeJson result.json "result_json" = .ok (print (.object fields)))
    (stored : StoredFaithfully readFloat result) : Describes result fields := by
  obtain ⟨others, depth, readable', outcome', describes⟩ := stored
  have same : print (.object fields) = print (.object others) :=
    Except.ok.inj (outcome.symm.trans outcome')
  obtain rfl := Json.object.inj (print_injective readable readable' same)
  exact describes

/-- An object without a text describes only a result without one that fits. -/
theorem not_describes_of_noText {fields : JsonMap} (gone : fields.get "text" = some (.string []))
    (lost : result.text = [] → ¬ result.TextFits) : ¬ Describes result fields := by
  intro describes
  by_cases whole : result.TextFits
  · have kept := describes.complete whole
    rw [gone, Option.some.injEq, Json.string.injEq] at kept
    exact lost kept.symm whole
  · obtain ⟨front, -, -, cut⟩ := describes.cut whole
    rw [gone, Option.some.injEq, Json.string.injEq] at cut
    exact List.append_ne_nil_of_right_ne_nil front (by decide) cut.symm

theorem not_stored_of_last (valid : result.Valid readFloat depth) (names : List String)
    (outcome : agentTaskOutcomeJson result.json "result_json" =
      compactWithoutWorktree result.json result.originalBytes
        (marked [] [] result.usage (result.worktree.map Worktree.json) result.originalBytes
          (names.map string)) (names.map string))
    (lost : result.text = [] → ¬ result.TextFits) : ¬ StoredFaithfully readFloat result := by
  intro stored
  obtain ⟨_, _, _, returned, _⟩ := id stored
  obtain ⟨fields, readable, printed, gone⟩ := noText_after_last valid (outcome.symm.trans returned)
  rw [printed] at returned
  exact not_describes_of_noText gone lost (describes_of_outcome readable returned stored)

theorem readable_worktree_map (valid : result.Valid readFloat depth) :
    ∀ value, result.worktree.map Worktree.json = some value →
      Readable readFloat (depth + 3) value := by
  intro value mapped
  obtain ⟨tree, there, rfl⟩ := Option.map_eq_some_iff.mp mapped
  exact (readable_worktree valid there).1

theorem readable_retexted (valid : result.Valid readFloat depth) (text : Text) :
    Readable readFloat (depth + 4) (.object (result.retexted text)) := by
  rw [retexted_eq]
  exact readable_marked valid text [] (readable_worktree_map valid) _

/-- A text cut although it would fit beside fewer paths. -/
theorem not_stored_of_cut (valid : result.Valid readFloat depth) (misfit : fits result.json ≠ true)
    (still : fits (.object result.unreasoned) ≠ true) (some_ : result.text ≠ [])
    (room : fits (.object (result.retexted truncationSuffix)) = true)
    (shorter : result.ShortenedFits) : ¬ StoredFaithfully readFloat result := by
  intro stored
  obtain ⟨fit, -⟩ := best_of_room some_ still room
  have outcome := outcome_of_text misfit still some_
  rw [agentTaskJsonIfWithinLimit, if_pos fit] at outcome
  have describes := describes_of_outcome (readable_retexted valid result.best) outcome stored
  have kept := describes.complete (.inr (.inr shorter))
  rw [TaskResult.retexted, get_text, Option.some.injEq, Json.string.injEq] at kept
  rw [kept] at fit
  exact still (result.unreasoned_fits_of_retexted fit)

/-- Without room for the mark there is no text left, whatever is stored. -/
theorem not_stored_of_noRoom (valid : result.Valid readFloat depth)
    (misfit : fits result.json ≠ true) (still : fits (.object result.unreasoned) ≠ true)
    (some_ : result.text ≠ [])
    (noRoom : fits (.object (result.retexted truncationSuffix)) ≠ true) :
    ¬ StoredFaithfully readFloat result := by
  have outcome := outcome_of_text misfit still some_
  rw [best_of_noRoom still noRoom, agentTaskJsonIfWithinLimit] at outcome
  have lost : result.text = [] → ¬ result.TextFits := fun none_ => absurd none_ some_
  by_cases fit : fits (.object (result.retexted [])) = true
  · rw [if_pos fit] at outcome
    exact fun stored => not_describes_of_noText get_text lost
      (describes_of_outcome (readable_retexted valid []) outcome stored)
  · rw [if_neg fit, retexted_eq] at outcome
    refine not_stored_of_last valid (result.reasoningNames ++ ["text"]) ?_ lost
    rw [outcome, List.map_append]
    rfl

/-! ### What is named -/

theorem mem_names {names : List String} {name : String} :
    string name ∈ names.map string ↔ name ∈ names := by
  rw [List.mem_map]
  refine ⟨?_, fun mem => ⟨name, mem, rfl⟩⟩
  rintro ⟨other, mem, same⟩
  rwa [string_inj.mp same] at mem

theorem mem_reasoningNames {name : String} :
    name ∈ result.reasoningNames ↔ name = "reasoning" ∧ result.reasoning ≠ [] := by
  rw [TaskResult.reasoningNames]
  split
  · next none_ => simp [none_]
  · next some_ => simp [some_]

theorem differs_marked {text : Text} {worktree : Option Json} {bytes : Nat} {named : List Json}
    {name : String} :
    Differs result (marked text [] result.usage worktree bytes named) name ↔
      name = "text" ∧ text ≠ result.text ∨ name = "reasoning" ∧ result.reasoning ≠ [] ∨
        name = "worktree.changedPaths" ∧ worktree ≠ result.worktree.map Worktree.json := by
  simp only [Differs, get_text, get_reasoning, get_worktree, ne_eq, Option.some.injEq,
    Json.string.injEq, eq_comm (a := ([] : Text))]

/-- The names are right when those beside the reasoning are. -/
theorem named_marked {text : Text} {worktree : Option Json} {bytes : Nat} {names : List String}
    (right : ∀ name, name ∈ names ↔ name = "text" ∧ text ≠ result.text ∨
      name = "worktree.changedPaths" ∧ worktree ≠ result.worktree.map Worktree.json)
    (name : String) :
    string name ∈ namedFields (marked text [] result.usage worktree bytes
        ((result.reasoningNames ++ names).map string)) ↔
      Differs result (marked text [] result.usage worktree bytes
        ((result.reasoningNames ++ names).map string)) name := by
  have listed : namedFields (marked text [] result.usage worktree bytes
      ((result.reasoningNames ++ names).map string)) =
      (result.reasoningNames ++ names).map string := by
    cases worktree <;> rfl
  rw [listed, mem_names, List.mem_append, mem_reasoningNames, right, differs_marked]
  exact or_left_comm

/-! ### Results that are stored faithfully -/

theorem stored_of_fits (valid : result.Valid readFloat depth) (fit : fits result.json = true) :
    StoredFaithfully readFloat result := by
  have readable : Readable readFloat (depth + 4) result.json := by
    have usage := Readable.mono _ valid.usage (Nat.le_add_right depth 3)
    unfold TaskResult.json Readable plain
    refine ⟨by cases result.worktree <;> simp, ?_⟩
    simp only [readableFields_append, ReadableFields, and_true, readable_string, true_and, usage]
    cases there : result.worktree with
    | none => trivial
    | some tree => exact ⟨(readable_worktree valid there).1, trivial⟩
  refine ⟨_, depth + 4, readable, outcome_of_fits fit, fit, rfl, fun _ => rfl,
    fun cut => absurd (.inl fit) cut, fun name => ?_⟩
  have none_ : namedFields (plain result.text result.reasoning result.usage
      (result.worktree.map Worktree.json)) = [] := by
    cases result.worktree <;> rfl
  have worktree : (plain result.text result.reasoning result.usage
      (result.worktree.map Worktree.json)).get "worktree" = result.worktree.map Worktree.json := by
    cases result.worktree <;> rfl
  rw [none_, Differs, worktree]
  refine ⟨fun mem => (List.not_mem_nil mem).elim, ?_⟩
  rintro (⟨-, ne⟩ | ⟨-, ne⟩ | ⟨-, ne⟩)
  · exact absurd rfl ne
  · exact absurd rfl ne
  · exact absurd rfl ne

theorem stored_of_unreasoned (valid : result.Valid readFloat depth)
    (misfit : fits result.json ≠ true) (fit : fits (.object result.unreasoned) = true) :
    StoredFaithfully readFloat result := by
  refine ⟨_, depth + 4, readable_marked valid _ [] (readable_worktree_map valid) _,
    outcome_of_unreasoned misfit fit, fit, get_usage, fun _ => get_text,
    fun cut => absurd (.inr (.inl fit)) cut, ?_⟩
  have none_ : result.reasoningNames = result.reasoningNames ++ [] := (List.append_nil _).symm
  rw [none_]
  exact named_marked fun name => by simp

theorem stored_of_room (valid : result.Valid readFloat depth) (misfit : fits result.json ≠ true)
    (still : fits (.object result.unreasoned) ≠ true) (some_ : result.text ≠ [])
    (room : fits (.object (result.retexted truncationSuffix)) = true)
    (longer : ¬ result.ShortenedFits) : StoredFaithfully readFloat result := by
  obtain ⟨fit, front, within, proper, cut⟩ := best_of_room some_ still room
  have outcome := outcome_of_text misfit still some_
  rw [agentTaskJsonIfWithinLimit, if_pos fit] at outcome
  have over_ : ¬ result.TextFits := by
    rintro (whole | whole | whole)
    · exact misfit whole
    · exact still whole
    · exact longer whole
  have changed : result.best ≠ result.text := by
    intro same
    rw [same] at fit
    exact still (result.unreasoned_fits_of_retexted fit)
  refine ⟨_, depth + 4, readable_retexted valid result.best, outcome, fit, get_usage,
    fun whole => absurd whole over_, fun _ => ⟨front, within, proper, cut ▸ get_text⟩, ?_⟩
  rw [retexted_eq]
  exact named_marked fun name => by simp [changed]

theorem shortened_ne (tree : Worktree) : tree.shortened ≠ tree.json := by
  intro same
  have counts := congrArg List.length (Json.object.inj same)
  simp [Worktree.fields] at counts

theorem named_worktree : result.reasoningNamed ++ [string "worktree.changedPaths"] =
    (result.reasoningNames ++ ["worktree.changedPaths"]).map string := by
  rw [List.map_append]
  rfl

theorem TaskResult.Valid.readable_shortened (valid : result.Valid readFloat depth) {tree : Worktree}
    (there : result.worktree = some tree) :
    Readable readFloat (depth + 4) (.object (result.shortened tree)) := by
  rw [TaskResult.shortened, named_worktree]
  refine readable_marked valid _ [] ?_ _
  rintro value ⟨⟩
  exact (readable_worktree valid there).2

theorem stored_of_noText (valid : result.Valid readFloat depth) (misfit : fits result.json ≠ true)
    (still : fits (.object result.unreasoned) ≠ true) (none_ : result.text = [])
    (shorter : result.ShortenedFits) : StoredFaithfully readFloat result := by
  obtain ⟨tree, there, long, fit⟩ := id shorter
  have outcome := outcome_of_noText misfit still none_
  have last : compactWithoutWorktree result.json result.originalBytes result.unreasoned
      result.reasoningNamed = .ok (print (.object (result.shortened tree))) := by
    refine (last_of_fits (marked result.text [] result.usage (some tree.shortened)
      result.originalBytes result.reasoningNamed)
      (result.reasoningNamed ++ [string "worktree.changedPaths"]) ?_ ?_).trans ?_
    · rw [TaskResult.unreasoned, there, Option.map_some, compactWorktree_long long]
    · rw [mark_marked]
      exact fit
    · rw [mark_marked]
      rfl
  rw [last] at outcome
  refine ⟨_, depth + 4, valid.readable_shortened there, outcome, fit, get_usage, fun _ => get_text,
    fun cut => absurd (.inr (.inr shorter)) cut, ?_⟩
  rw [TaskResult.shortened, named_worktree]
  refine named_marked fun name => ?_
  rw [there, Option.map_some]
  simp [shortened_ne tree]

theorem compacts_of_stored (valid : result.Valid readFloat depth)
    (stored : StoredFaithfully readFloat result) : Compacts result := by
  by_cases fit : fits result.json = true
  · exact .inl fit
  by_cases unreasoned : fits (.object result.unreasoned) = true
  · exact .inr (.inl unreasoned)
  by_cases none_ : result.text = []
  · by_cases shorter : result.ShortenedFits
    · exact .inr (.inr (.inr ⟨none_, shorter⟩))
    have outcome := outcome_of_noText fit unreasoned none_
    rw [TaskResult.unreasoned, none_] at outcome
    refine absurd stored (not_stored_of_last valid result.reasoningNames outcome ?_)
    rintro - (whole | whole | whole)
    · exact fit whole
    · exact unreasoned whole
    · exact shorter whole
  by_cases room : fits (.object (result.retexted truncationSuffix)) = true
  · refine .inr (.inr (.inl ⟨none_, room, fun shorter => ?_⟩))
    exact not_stored_of_cut valid fit unreasoned none_ room shorter stored
  · exact absurd stored (not_stored_of_noRoom valid fit unreasoned none_ room)

theorem stored_of_compacts (valid : result.Valid readFloat depth) (compacts : Compacts result) :
    StoredFaithfully readFloat result := by
  by_cases fit : fits result.json = true
  · exact stored_of_fits valid fit
  by_cases unreasoned : fits (.object result.unreasoned) = true
  · exact stored_of_unreasoned valid fit unreasoned
  obtain whole | whole | ⟨some_, room, longer⟩ | ⟨none_, shorter⟩ := compacts
  · exact absurd whole fit
  · exact absurd whole unreasoned
  · exact stored_of_room valid fit unreasoned some_ room longer
  · exact stored_of_noText valid fit unreasoned none_ shorter

end Outcomes

/-- A result is stored as an object that describes it exactly where nothing but its reasoning has to
go, or one step more settles it: a text is cut that fewer paths would not have saved, or paths are
left out beside no text. -/
theorem storedFaithfully_iff {readFloat : Text → Option Text} {depth : Nat} {result : TaskResult}
    (valid : result.Valid readFloat depth) : StoredFaithfully readFloat result ↔ Compacts result :=
  ⟨compacts_of_stored valid, stored_of_compacts valid⟩

/-! ### A text cut needlessly -/

/-- A text beside paths of which only the last, beyond those that are kept, is long. -/
def crowded (text path : Text) : TaskResult where
  text
  reasoning := []
  usage := .null
  worktree := some ⟨[], List.replicate 32 [] ++ [path], by decide⟩

theorem keys_length : [escapedLength "text".toList, escapedLength "reasoning".toList,
    escapedLength "usage".toList, escapedLength "worktree".toList,
    escapedLength "changedPaths".toList, escapedLength "changedPathsTruncated".toList,
    escapedLength "originalChangedPathCount".toList, escapedLength "truncated".toList,
    escapedLength "originalBytes".toList, escapedLength "truncatedFields".toList,
    escapedLength "worktree.changedPaths".toList] =
      [4, 9, 5, 8, 12, 21, 24, 9, 13, 15, 21] := by decide

theorem size_object_cons (key : String) (value : Json) (fields : JsonMap) :
    (Json.object ((key, value) :: fields)).size =
      stringSize key.toList + value.size + Json.sizeOfFields fields + 3 := by
  rw [Json.size, Json.sizeOfFields]
  omega

theorem size_array_cons (value : Json) (values : List Json) :
    (Json.array (value :: values)).size = value.size + Json.sizeOfValues values + 2 := by
  rw [Json.size, Json.sizeOfValues]
  omega

theorem sizeOfValues_empty (count : Nat) :
    Json.sizeOfValues ((List.replicate count []).map Json.string) = 3 * count := by
  induction count with
  | zero => rfl
  | succ count ih =>
    rw [List.replicate_succ, List.map_cons, Json.sizeOfValues, ih, size_string, stringSize,
      escapedLength_nil]
    omega

theorem crowded_size (text path : Text) :
    (crowded text path).json.size = escapedLength text + escapedLength path + 168 := by
  have keys := keys_length
  simp only [List.cons.injEq, and_true] at keys
  have paths : (Json.array ((List.replicate 32 [] ++ [path]).map Json.string)).size =
      escapedLength path + 100 := by
    rw [List.replicate_succ, List.cons_append, List.map_cons, size_array_cons, List.map_append,
      Json.sizeOfValues_append, sizeOfValues_empty, List.map_singleton, Json.sizeOfValues,
      Json.sizeOfValues, size_string, size_string, stringSize, stringSize, escapedLength_nil]
    omega
  change (Json.object [("text", .string text), ("reasoning", .string []), ("usage", .null),
    ("worktree", .object [("changedPaths", _)])]).size = _
  have null : Json.null.size = 4 := rfl
  simp only [size_object_cons, Json.sizeOfFields, paths, null, size_string, stringSize, keys,
    escapedLength_nil]
  omega

/-- Beside the paths that are kept there is only the text. -/
theorem crowded_shortened_size (text path : Text) {tree : Worktree}
    (small : (crowded text path).originalBytes ≤ usizeMax)
    (there : (crowded text path).worktree = some tree) :
    (Json.object ((crowded text path).shortened tree)).size ≤ escapedLength text + 500 := by
  have keys := keys_length
  simp only [List.cons.injEq, and_true] at keys
  have bytes := size_jsonNat_le small
  have count : (jsonNat 33).size = 2 := by decide
  have paths : (Json.array ((List.replicate 32 []).map Json.string)).size = 97 := by
    rw [List.replicate_succ, List.map_cons, size_array_cons, sizeOfValues_empty, size_string,
      stringSize, escapedLength_nil]
  have named : (Json.array [string "worktree.changedPaths"]).size = 25 := by
    rw [size_array_cons, string, size_string, stringSize, Json.sizeOfValues]
    omega
  obtain rfl := Option.some.inj there
  change (Json.object [("text", .string text), ("reasoning", .string []), ("usage", .null),
    ("worktree", .object [("changedPaths", .array ((List.replicate 32 []).map Json.string)),
      ("changedPathsTruncated", .bool true), ("originalChangedPathCount", jsonNat 33)]),
    ("truncated", .bool true), ("originalBytes", jsonNat (crowded text path).originalBytes),
    ("truncatedFields", .array [string "worktree.changedPaths"])]).size ≤ _
  have null : Json.null.size = 4 := rfl
  have true_ : (Json.bool true).size = 4 := rfl
  simp only [size_object_cons, Json.sizeOfFields, paths, null, true_, count, named, size_string,
    stringSize, keys, escapedLength_nil]
  omega

theorem escapedLength_replicate (count : Nat) {c : Char} (single : escapedSize c = 1) :
    escapedLength (List.replicate count c) = count := by
  simp [escapedLength, single]

/-- More than half of the limit. -/
def long (c : Char) : Text := List.replicate 40000 c

theorem escapedLength_long {c : Char} (single : escapedSize c = 1) :
    escapedLength (long c) = 40000 :=
  escapedLength_replicate 40000 single

/-- The marks make a result longer. -/
theorem plain_le_unreasoned (result : TaskResult) (none_ : result.reasoning = []) :
    utf8Length (print result.json) ≤ utf8Length (print (.object result.unreasoned)) := by
  have fields : plain result.text result.reasoning result.usage
      (result.worktree.map Worktree.json) ≠ [] := List.cons_ne_nil _ _
  rw [TaskResult.unreasoned, length_marked, TaskResult.json, utf8Length_object fields, none_,
    marked, List.map_append, List.sum_append]
  omega

theorem crowded_json : (crowded (long 'a') (long 'b')).json.size = 80168 := by
  rw [crowded_size, escapedLength_long (by decide), escapedLength_long (by decide)]

theorem crowded_bytes : (crowded (long 'a') (long 'b')).originalBytes = 80168 := by
  have readable : Readable (fun _ => none) 4 (crowded (long 'a') (long 'b')).json := by
    change Readable (fun _ => none) 4 (.object [("text", .string _), ("reasoning", .string []),
      ("usage", .null), ("worktree", .object [("changedPaths", .array (List.map Json.string _))])])
    simp only [Readable, ReadableFields, and_true, true_and]
    exact ⟨by simp, by simp, readableValues_of_strings _⟩
  exact (utf8Length_print _ readable).trans crowded_json

theorem crowded_valid : (crowded (long 'a') (long 'b')).Valid (fun _ => none) 0 where
  usage := by
    change Readable (fun _ => none) 0 .null
    unfold Readable
    trivial
  details := by
    rintro tree there
    obtain rfl := Option.some.inj there
    unfold ReadableFields
    trivial
  paths := by
    rintro tree there
    obtain rfl := Option.some.inj there
    change 33 ≤ usizeMax
    decide
  bytes := by
    rw [crowded_bytes]
    decide

theorem crowded_not_compacts : (crowded (long 'a') (long 'b')).ShortenedFits ∧
    ¬ Compacts (crowded (long 'a') (long 'b')) := by
  have shorter : (crowded (long 'a') (long 'b')).ShortenedFits := by
    have small : (crowded (long 'a') (long 'b')).originalBytes ≤ usizeMax := by
      rw [crowded_bytes]
      decide
    refine ⟨_, rfl, Nat.lt_succ_self 32, ?_⟩
    have size := crowded_shortened_size (long 'a') (long 'b') small rfl
    have readable : Readable (fun _ => none) 4
        (.object ((crowded (long 'a') (long 'b')).shortened _)) := crowded_valid.readable_shortened rfl
    rw [fits_iff, utf8Length_print _ readable]
    rw [escapedLength_long (by decide)] at size
    exact size.trans (by decide)
  refine ⟨shorter, ?_⟩
  rintro (fit | fit | ⟨-, -, longer⟩ | ⟨none_, -⟩)
  · rw [fits_iff] at fit
    have bytes := crowded_bytes
    rw [TaskResult.originalBytes] at bytes
    rw [bytes] at fit
    exact absurd fit (by decide)
  · have size := plain_le_unreasoned (crowded (long 'a') (long 'b')) rfl
    have bytes := crowded_bytes
    rw [fits_iff] at fit
    rw [TaskResult.originalBytes] at bytes
    rw [bytes] at size
    exact absurd (size.trans fit) (by decide)
  · exact longer shorter
  · exact absurd none_ (List.cons_ne_nil _ _)

/-- The text of a result over the limit is cut although it fits beside the paths that are kept. -/
theorem crowded_not_stored : (crowded (long 'a') (long 'b')).ShortenedFits ∧
    ¬ StoredFaithfully (fun _ => none) (crowded (long 'a') (long 'b')) :=
  ⟨crowded_not_compacts.1, fun stored =>
    crowded_not_compacts.2 (compacts_of_stored crowded_valid stored)⟩

theorem crowded_stored_iff :
    StoredFaithfully (fun _ => none) (crowded (long 'a') (long 'b')) ↔
      Compacts (crowded (long 'a') (long 'b')) :=
  storedFaithfully_iff crowded_valid

end Foco.TaskOutcomes
