import Foco.HistoryReplay
import Foco.JsonText
import Foco.OutputBudget
import Foco.Result
import Foco.RunLengths
import Foco.Runs

/-!
`app/runtime/tool_loop.rs` and the detectors of `app/runtime/tool_execution.rs`: what keeps a run from
calling the same tools forever. Both hosts ask the guard before they execute the calls of a turn and
report to it afterwards; the local one (`app/main.rs`) looks at the number of rounds first, the
remote one (`app/remote_workspace.rs`) at the repeated calls.
-/
namespace Foco.ToolLoop
open RustText OutputBudget RunLengths Runs
open HistoryReplay (NeutralToolCall)

def maxRepeatedToolCallBatches : Nat := 3
def readOnlyToolBatchWarningThreshold : Nat := 16
def maxAgentToolRounds : Nat := 128
def maxToolCallLoopRecoveriesPerRun : Nat := 3
def toolTransportDynamicFieldByteLimit : Nat := 512

/-! ## Repeated calls -/

structure ToolCallLoopSignature where
  name : Text
  arguments : Json

/-- `tool_call_loop_signatures`: the ids of the calls do not count. -/
def toolCallLoopSignatures (toolCalls : List NeutralToolCall) : List ToolCallLoopSignature :=
  toolCalls.map fun toolCall => ⟨toolCall.name, toolCall.arguments⟩

inductive ToolLoopBeforeExecutionAction where
  | continue_
  | recoverRepeatedBatch (message toolNames : Text)

structure RepeatedToolCallDetector where
  previousBatch : Option (List ToolCallLoopSignature) := none
  consecutiveCount : Nat := 0

/-- `validate_tool_call_transport_fields`. -/
def validateToolCallTransportFields (toolCalls : List NeutralToolCall) : Except Text Unit :=
  match toolCalls.find? fun toolCall =>
      toolTransportDynamicFieldByteLimit < utf8Length toolCall.callId with
  | some toolCall => .error ("provider tool call id for '".toList ++
      (boundedUtf8Prefix toolCall.name toolTransportDynamicFieldByteLimit).1 ++
      "' exceeds the ".toList ++ natText toolTransportDynamicFieldByteLimit ++
      "-byte transport limit".toList)
  | none => .ok ()

def repeatedBatchMessage (toolNames : Text) : Text :=
  "agent run repeated the same tool call batch ".toList ++ natText maxRepeatedToolCallBatches ++
    " times (".toList ++ toolNames ++ "); possible tool-call loop".toList

section Signatures

variable (sameValue : Json → Json → Bool)

/-- The comparison of two lists of signatures; `sameValue` compares their arguments. -/
def sameSignatures : List ToolCallLoopSignature → List ToolCallLoopSignature → Bool
  | [], [] => true
  | first :: rest, other :: others =>
    decide (first.name = other.name) && sameValue first.arguments other.arguments &&
      sameSignatures rest others
  | _, _ => false

/-- `RepeatedToolCallDetector::check`; a refused batch leaves the detector as it was. -/
def RepeatedToolCallDetector.check (detector : RepeatedToolCallDetector)
    (toolCalls : List NeutralToolCall) :
    Except Text (ToolLoopBeforeExecutionAction × RepeatedToolCallDetector) := do
  validateToolCallTransportFields toolCalls
  let batch := toolCallLoopSignatures toolCalls
  let detector : RepeatedToolCallDetector :=
    if detector.previousBatch.any (sameSignatures sameValue · batch) then
      { detector with consecutiveCount := detector.consecutiveCount + 1 }
    else ⟨some batch, 1⟩
  if detector.consecutiveCount < maxRepeatedToolCallBatches then return (.continue_, detector)
  let toolNames := List.intercalate ", ".toList
    ((detector.previousBatch.getD []).map ToolCallLoopSignature.name)
  return (.recoverRepeatedBatch (repeatedBatchMessage toolNames) toolNames, detector)

end Signatures

/-! ## Reading without progress -/

/-- `is_code_graph_tool_name`. -/
def isCodeGraphToolName (toolName : Text) : Bool :=
  toolName ∈ ["graph_find_symbols", "graph_find_callers", "graph_find_callees",
    "graph_find_children", "graph_find_references", "graph_find_imports", "graph_find_importers",
    "graph_related_files", "graph_explore"].map String.toList

/-- `is_read_only_tool`. -/
def isReadOnlyTool (toolName : Text) : Bool :=
  decide (toolName ∈ ["read_file", "find_files", "search_text", "get_todo_graph", "read_spec",
    "memory_search"].map String.toList) || isCodeGraphToolName toolName

inductive ReadOnlyToolProgressAction where
  | continue_
  | warn (message : Text)

structure ReadOnlyToolProgressDetector where
  consecutiveReadOnlyBatches : Nat := 0
  warned : Bool := false

def readOnlyWarning (batches : Nat) : Text :=
  "Runtime progress guard: you have made ".toList ++ natText batches ++
    (" consecutive read-only exploration tool batches without editing, asking a question, or " ++
      "finishing. Do not call more read-only exploration tools now. Either make the needed edit, " ++
      "ask one blocking question, or provide the final diagnosis/answer using the evidence already " ++
      "gathered.").toList

/-- The calls of a batch only read; a batch without calls does not count. -/
def readOnlyBatch (toolCalls : List NeutralToolCall) : Bool :=
  !toolCalls.isEmpty && toolCalls.all fun toolCall => isReadOnlyTool toolCall.name

/-- `ReadOnlyToolProgressDetector::check`. -/
def ReadOnlyToolProgressDetector.check (detector : ReadOnlyToolProgressDetector)
    (toolCalls : List NeutralToolCall) :
    ReadOnlyToolProgressAction × ReadOnlyToolProgressDetector :=
  if !readOnlyBatch toolCalls then (.continue_, ⟨0, false⟩)
  else
    let batches := saturatingAdd detector.consecutiveReadOnlyBatches 1
    if !detector.warned && decide (readOnlyToolBatchWarningThreshold ≤ batches) then
      (.warn (readOnlyWarning batches), ⟨batches, true⟩)
    else (.continue_, ⟨batches, detector.warned⟩)

/-! ## The guard of a run -/

structure ToolLoopGuard where
  toolRounds : Nat := 0
  repeatedToolCallDetector : RepeatedToolCallDetector := {}
  readOnlyToolProgressDetector : ReadOnlyToolProgressDetector := {}

/-- `reached_round_cap`. -/
def ToolLoopGuard.reachedRoundCap (guard : ToolLoopGuard) (maxToolRounds : Nat) : Bool :=
  maxToolRounds ≤ guard.toolRounds

/-- `record_executed_round`. -/
def ToolLoopGuard.recordExecutedRound (guard : ToolLoopGuard) : ToolLoopGuard :=
  { guard with toolRounds := saturatingAdd guard.toolRounds 1 }

/-- `reset_after_compression`. -/
def ToolLoopGuard.resetAfterCompression (guard : ToolLoopGuard) : ToolLoopGuard :=
  { guard with toolRounds := 0 }

/-- A turn of the model that ends with tool calls, and what comes of it: whether the host ends the
run before it asks the guard (a tool that is not allowed, or a terminal event), whether compressing
the tool state at the round cap succeeds, fails or finds nothing, whether blocked calls are
recorded, and whether the results of the batch come back before the run ends. -/
structure LoopTurn where
  toolCalls : List NeutralToolCall
  refused : Bool
  compresses : Bool
  recorded : Bool
  finishes : Bool

/-- A run with its guard. The last fields are its history: the batches the guard was asked about and
whether it blocked them, those that were let through since the tool state was last compressed, all
whose results came back, and after how many of these a warning was given. -/
structure LoopRun where
  guard : ToolLoopGuard := {}
  toolCallLoopRecoveryCount : Nat := 0
  running : Bool := true
  checks : List (List ToolCallLoopSignature × Bool) := []
  admitted : List (List ToolCallLoopSignature) := []
  finished : List (List NeutralToolCall) := []
  warnings : List Nat := []

/-- The number of finished batches is kept with a warning that follows the last of them. -/
def ReadOnlyToolProgressAction.warningsAfter (action : ReadOnlyToolProgressAction)
    (finished : List (List NeutralToolCall)) (warnings : List Nat) : List Nat :=
  match action with
  | .warn _ => warnings ++ [finished.length]
  | .continue_ => warnings

def LoopRun.stop (run : LoopRun) : LoopRun := { run with running := false }

/-- The batch is executed; its results are reported to the guard. -/
def LoopRun.execute (run : LoopRun) (turn : LoopTurn) : LoopRun :=
  let run := { run with admitted := run.admitted ++ [toolCallLoopSignatures turn.toolCalls] }
  if turn.finishes then
    let (action, detector) := run.guard.readOnlyToolProgressDetector.check turn.toolCalls
    let finished := run.finished ++ [turn.toolCalls]
    { run with
      guard := { run.guard.recordExecutedRound with readOnlyToolProgressDetector := detector }
      finished
      warnings := action.warningsAfter finished run.warnings }
  else run.stop

/-- The tool state is compressed at the round cap, or the run ends there. -/
def LoopRun.compress (run : LoopRun) (turn : LoopTurn) : LoopRun :=
  if turn.compresses then { run with guard := run.guard.resetAfterCompression, admitted := [] }
  else run.stop

/-- The guard is asked about a batch; `onward` is what the host does with one that may go on. A host
that stops when it cannot record blocked calls has `stopsUnrecorded`. -/
def LoopRun.check (sameValue : Json → Json → Bool) (stopsUnrecorded : Bool)
    (onward : LoopRun → LoopRun) (run : LoopRun) (turn : LoopTurn) : LoopRun :=
  match run.guard.repeatedToolCallDetector.check sameValue turn.toolCalls with
  | .error _ => run.stop
  | .ok (action, detector) =>
    let run := { run with guard := { run.guard with repeatedToolCallDetector := detector } }
    let batch := toolCallLoopSignatures turn.toolCalls
    match action with
    | .continue_ => onward { run with checks := run.checks ++ [(batch, false)] }
    | .recoverRepeatedBatch _ _ =>
      let run := { run with checks := run.checks ++ [(batch, true)] }
      if stopsUnrecorded && !turn.recorded then run.stop
      else if run.toolCallLoopRecoveryCount < maxToolCallLoopRecoveriesPerRun then
        { run with toolCallLoopRecoveryCount := run.toolCallLoopRecoveryCount + 1 }
      else run.stop

/-- A turn on the local host. -/
def localTurn (sameValue : Json → Json → Bool) (run : LoopRun) (turn : LoopTurn) : LoopRun :=
  if run.guard.reachedRoundCap maxAgentToolRounds then run.compress turn
  else if turn.refused then run.stop
  else run.check sameValue true (·.execute turn) turn

/-- A turn on the remote host. -/
def remoteTurn (sameValue : Json → Json → Bool) (run : LoopRun) (turn : LoopTurn) : LoopRun :=
  if turn.refused then run.stop
  else run.check sameValue false
    (fun run => if run.guard.reachedRoundCap maxAgentToolRounds then run.compress turn
      else run.execute turn) turn

inductive LoopHost where
  | local_
  | remote

/-- The runs of a host. -/
def machine (sameValue : Json → Json → Bool) (host : LoopHost) : Machine LoopRun LoopTurn where
  start := {}
  step run turn :=
    if run.running then
      some (match host with
        | .local_ => localTurn sameValue run turn
        | .remote => remoteTurn sameValue run turn)
    else none

/-! ## Comparing batches -/

section Runs

variable {sameValue : Json → Json → Bool}

/-- Batches are compared call by call, so the comparison is an equivalence if that of values is. -/
theorem sameSignatures_equivalence (equivalence : Equivalence fun a b => sameValue a b = true) :
    Equivalence fun a b => sameSignatures sameValue a b = true where
  refl batch := by
    induction batch with
    | nil => rfl
    | cons first rest ih => simp [sameSignatures, equivalence.refl, ih]
  symm := by
    intro batch other alike
    induction batch generalizing other with
    | nil => cases other with
      | nil => rfl
      | cons => cases alike
    | cons first rest ih =>
      cases other with
      | nil => cases alike
      | cons second others =>
        simp only [sameSignatures, Bool.and_eq_true, decide_eq_true_eq] at alike ⊢
        exact ⟨⟨alike.1.1.symm, equivalence.symm alike.1.2⟩, ih alike.2⟩
  trans := by
    intro batch other third alike alike'
    induction batch generalizing other third with
    | nil => cases other with
      | nil => exact alike'
      | cons => cases alike
    | cons first rest ih =>
      cases other with
      | nil => cases alike
      | cons second others =>
        cases third with
        | nil => cases alike'
        | cons last thirds =>
          simp only [sameSignatures, Bool.and_eq_true, decide_eq_true_eq] at alike alike' ⊢
          exact ⟨⟨alike.1.1.trans alike'.1.1, equivalence.trans alike.1.2 alike'.1.2⟩,
            ih alike.2 alike'.2⟩

/-- How often in a row the last batch has come. -/
abbrev batchRepeats (sameValue : Json → Json → Bool) :
    List (List ToolCallLoopSignature) → Nat := repeats (sameSignatures sameValue)

variable (equivalence : Equivalence fun a b => sameValue a b = true)

/-! ## What the detectors know -/

/-- The detector knows the last batch it has seen, up to the comparison, and how often in a row. -/
structure RepeatedToolCallDetector.Tracks (sameValue : Json → Json → Bool)
    (detector : RepeatedToolCallDetector) (seen : List (List ToolCallLoopSignature)) : Prop where
  counts : detector.consecutiveCount = batchRepeats sameValue seen
  previous : ∀ batch, detector.previousBatch.any (sameSignatures sameValue · batch) =
    seen.getLast?.any (sameSignatures sameValue · batch)

include equivalence in
theorem RepeatedToolCallDetector.Tracks.check {detector : RepeatedToolCallDetector}
    {seen : List (List ToolCallLoopSignature)} (tracks : detector.Tracks sameValue seen)
    {toolCalls : List NeutralToolCall} {action : ToolLoopBeforeExecutionAction}
    {next : RepeatedToolCallDetector}
    (checked : detector.check sameValue toolCalls = .ok (action, next)) :
    next.Tracks sameValue (seen ++ [toolCallLoopSignatures toolCalls]) ∧
      (action = .continue_ ∧
          batchRepeats sameValue (seen ++ [toolCallLoopSignatures toolCalls]) < 3 ∨
        (∃ message toolNames, action = .recoverRepeatedBatch message toolNames) ∧
          3 ≤ batchRepeats sameValue (seen ++ [toolCallLoopSignatures toolCalls])) := by
  have same := sameSignatures_equivalence equivalence
  generalize batchIs : toolCallLoopSignatures toolCalls = batch at *
  have moved : ∃ moved : RepeatedToolCallDetector,
      (if detector.previousBatch.any (sameSignatures sameValue · batch) then
        { detector with consecutiveCount := detector.consecutiveCount + 1 }
        else ⟨some batch, 1⟩ : RepeatedToolCallDetector) = moved ∧
      moved.Tracks sameValue (seen ++ [batch]) := by
    refine ⟨_, rfl, ?_⟩
    by_cases again : detector.previousBatch.any (sameSignatures sameValue · batch) = true
    · have continues := again
      rw [tracks.previous] at continues
      rw [if_pos again]
      refine ⟨?_, fun other => ?_⟩
      · rw [batchRepeats, repeats_concat same, if_pos continues, tracks.counts]
      · obtain ⟨previous, found, alike⟩ := (Option.any_eq_true _ _).mp again
        rw [List.getLast?_concat, Option.any_some, found, Option.any_some]
        exact Bool.eq_iff_iff.mpr ⟨fun there => same.trans (same.symm alike) there,
          fun there => same.trans alike there⟩
    · have broken := again
      rw [tracks.previous] at broken
      rw [if_neg again]
      refine ⟨?_, fun other => ?_⟩
      · rw [batchRepeats, repeats_concat same, if_neg broken]
      · rw [List.getLast?_concat]
  obtain ⟨moved, movedIs, tracks'⟩ := moved
  rw [RepeatedToolCallDetector.check] at checked
  obtain ⟨_, _, rest⟩ := Result.bind_eq_ok.mp checked
  simp only [batchIs, movedIs] at rest
  have counts := tracks'.counts
  split at rest
  · next few =>
    obtain ⟨rfl, rfl⟩ := Prod.mk.inj (Result.pure_eq_ok.mp rest)
    rw [maxRepeatedToolCallBatches, counts] at few
    exact ⟨tracks', .inl ⟨rfl, few⟩⟩
  · next many =>
    obtain ⟨rfl, rfl⟩ := Prod.mk.inj (Result.pure_eq_ok.mp rest)
    rw [maxRepeatedToolCallBatches, counts] at many
    exact ⟨tracks', .inr ⟨⟨_, _, rfl⟩, Nat.le_of_not_lt many⟩⟩

/-- The detector knows for how long only reading was done, and a warning was given whenever it had
gone on for exactly as long as the threshold. -/
structure ReadOnlyToolProgressDetector.Tracks (detector : ReadOnlyToolProgressDetector)
    (finished : List (List NeutralToolCall)) (warnings : List Nat) : Prop where
  counts : detector.consecutiveReadOnlyBatches = min (trailing readOnlyBatch finished) usizeMax
  warned : detector.warned = decide (readOnlyToolBatchWarningThreshold ≤
    trailing readOnlyBatch finished)
  warnings : ∀ count, count ∈ warnings ↔ count ≤ finished.length ∧
    trailing readOnlyBatch (finished.take count) = readOnlyToolBatchWarningThreshold

theorem ReadOnlyToolProgressDetector.Tracks.check {detector : ReadOnlyToolProgressDetector}
    {finished : List (List NeutralToolCall)} {warnings : List Nat}
    (tracks : detector.Tracks finished warnings) (toolCalls : List NeutralToolCall) :
    (detector.check toolCalls).2.Tracks (finished ++ [toolCalls])
      ((detector.check toolCalls).1.warningsAfter (finished ++ [toolCalls]) warnings) := by
  have threshold : readOnlyToolBatchWarningThreshold = 16 := rfl
  have bound : usizeMax = 18446744073709551615 := rfl
  -- a warning after this batch is the only thing that can be new
  have later (warns : Bool) (exact_ : warns = true ↔
      trailing readOnlyBatch (finished ++ [toolCalls]) = 16) (count : Nat) :
      (count ∈ if warns then warnings ++ [(finished ++ [toolCalls]).length] else warnings) ↔
        count ≤ (finished ++ [toolCalls]).length ∧
          trailing readOnlyBatch ((finished ++ [toolCalls]).take count) = 16 := by
    have old := tracks.warnings count
    rw [threshold] at old
    have length : (finished ++ [toolCalls]).length = finished.length + 1 := by simp
    by_cases here : count = finished.length + 1
    · have whole : (finished ++ [toolCalls]).take count = finished ++ [toolCalls] :=
        List.take_of_length_le (by omega)
      have new : count ∉ warnings := fun mem => by have := (old.mp mem).1; omega
      rw [whole, ← exact_, length]
      cases warns with
      | false => simp [new]
      | true => simp [here]
    · have before : count ≤ finished.length →
          (finished ++ [toolCalls]).take count = finished.take count :=
        fun less => List.take_append_of_le_length less
      have mem : (count ∈ if warns then warnings ++ [(finished ++ [toolCalls]).length]
          else warnings) ↔ count ∈ warnings := by
        cases warns <;> simp [length, here]
      rw [mem, old, length]
      constructor
      · rintro ⟨less, row⟩
        exact ⟨by omega, (before less).symm ▸ row⟩
      · rintro ⟨less, row⟩
        have inside : count ≤ finished.length := by omega
        exact ⟨inside, before inside ▸ row⟩
  have counts := tracks.counts
  have warned := tracks.warned
  rw [threshold] at warned
  have row : trailing readOnlyBatch (finished ++ [toolCalls]) =
      if readOnlyBatch toolCalls then trailing readOnlyBatch finished + 1 else 0 := trailing_concat
  by_cases reads : readOnlyBatch toolCalls = true
  · rw [if_pos reads] at row
    have added : saturatingAdd detector.consecutiveReadOnlyBatches 1 =
        min (trailing readOnlyBatch finished + 1) usizeMax := by
      rw [saturatingAdd, counts]
      omega
    by_cases warns : detector.warned = false ∧ 16 ≤ min (trailing readOnlyBatch finished + 1) usizeMax
    · have checked : detector.check toolCalls =
          (.warn (readOnlyWarning (min (trailing readOnlyBatch finished + 1) usizeMax)),
            ⟨min (trailing readOnlyBatch finished + 1) usizeMax, true⟩) := by
        simp [ReadOnlyToolProgressDetector.check, reads, added, warns.1, threshold]
        omega
      have fresh : ¬16 ≤ trailing readOnlyBatch finished := by
        rw [warns.1] at warned
        exact of_decide_eq_false warned.symm
      rw [checked]
      refine ⟨?_, ?_, later true ⟨fun _ => by omega, fun _ => rfl⟩⟩
      · rw [row]
      · rw [row, threshold]
        exact (decide_eq_true (by omega)).symm
    · have checked : detector.check toolCalls =
          (.continue_, ⟨min (trailing readOnlyBatch finished + 1) usizeMax, detector.warned⟩) := by
        simp only [ReadOnlyToolProgressDetector.check, reads, added, threshold, Bool.not_true,
          Bool.false_eq_true, if_false]
        rw [if_neg]
        simpa using warns
      have steady : 16 ≤ trailing readOnlyBatch finished + 1 →
          16 ≤ trailing readOnlyBatch finished := by
        intro reached
        cases state : detector.warned with
        | false => exact absurd ⟨state, by omega⟩ warns
        | true =>
          rw [state] at warned
          exact of_decide_eq_true warned.symm
      rw [checked]
      refine ⟨?_, ?_, later false (by rw [row]; simp; omega)⟩
      · rw [row]
      · rw [row, threshold, warned]
        exact decide_eq_decide.mpr ⟨fun there => by omega, steady⟩
  · have broken : readOnlyBatch toolCalls = false := Bool.eq_false_iff.mpr reads
    rw [if_neg reads] at row
    have checked : detector.check toolCalls = (.continue_, ⟨0, false⟩) := by
      simp [ReadOnlyToolProgressDetector.check, broken]
    rw [checked]
    refine ⟨?_, ?_, later false (by rw [row]; simp)⟩
    · rw [row]
      rfl
    · rw [row]
      rfl

/-! ## What holds over a run -/

/-- Exactly the batches that have come often enough in a row were blocked. -/
def BlocksRepeats (sameValue : Json → Json → Bool)
    (checks : List (List ToolCallLoopSignature × Bool)) : Prop :=
  ∀ front batch blocked, front ++ [(batch, blocked)] <+: checks →
    (blocked = true ↔
      maxRepeatedToolCallBatches ≤ batchRepeats sameValue (front.map Prod.fst ++ [batch]))

theorem BlocksRepeats.concat {checks : List (List ToolCallLoopSignature × Bool)}
    (blocks : BlocksRepeats sameValue checks) {batch : List ToolCallLoopSignature} {blocked : Bool}
    (right : blocked = true ↔
      3 ≤ batchRepeats sameValue (checks.map Prod.fst ++ [batch])) :
    BlocksRepeats sameValue (checks ++ [(batch, blocked)]) := by
  intro front other mark within
  obtain same | shorter := List.prefix_concat_iff.mp within
  · obtain ⟨rfl, last⟩ := List.append_inj' same rfl
    obtain ⟨rfl, rfl⟩ := Prod.mk.inj (List.singleton_inj.mp last)
    exact right
  · exact blocks front other mark shorter

/-- The batches let through since the last compression, beside those the guard was asked about: no
batch comes three times in a row, and the last one let through is like the last one asked about. -/
structure RowsShort (sameValue : Json → Json → Bool)
    (seen admitted : List (List ToolCallLoopSignature)) : Prop where
  short : ∀ front, front <+: admitted → batchRepeats sameValue front ≤ 2
  fewer : batchRepeats sameValue admitted ≤ batchRepeats sameValue seen
  last : ∀ batch ∈ admitted.getLast?,
    seen.getLast?.any (sameSignatures sameValue batch ·) = true

theorem RowsShort.cleared (seen : List (List ToolCallLoopSignature)) :
    RowsShort sameValue seen [] where
  short front within := by
    rw [List.prefix_nil.mp within]
    exact Nat.zero_le 2
  fewer := Nat.zero_le _
  last := nofun

section Rows

variable {seen admitted : List (List ToolCallLoopSignature)} {batch : List ToolCallLoopSignature}
include equivalence

/-- A batch that is like the last one let through is like the last one asked about. -/
theorem RowsShort.continues (rows : RowsShort sameValue seen admitted)
    (again : admitted.getLast?.any (sameSignatures sameValue · batch) = true) :
    seen.getLast?.any (sameSignatures sameValue · batch) = true := by
  have same := sameSignatures_equivalence equivalence
  obtain ⟨last, found, alike⟩ := (Option.any_eq_true _ _).mp again
  obtain ⟨other, found', alike'⟩ := (Option.any_eq_true _ _).mp (rows.last last found)
  rw [found', Option.any_some]
  exact same.trans (same.symm alike') alike

theorem RowsShort.admit (rows : RowsShort sameValue seen admitted)
    (few : batchRepeats sameValue (seen ++ [batch]) < 3) :
    RowsShort sameValue (seen ++ [batch]) (admitted ++ [batch]) := by
  have same := sameSignatures_equivalence equivalence
  have fewer : batchRepeats sameValue (admitted ++ [batch]) ≤
      batchRepeats sameValue (seen ++ [batch]) := by
    unfold batchRepeats
    rw [repeats_concat same, repeats_concat same]
    by_cases again : admitted.getLast?.any (sameSignatures sameValue · batch) = true
    · rw [if_pos again, if_pos (rows.continues equivalence again)]
      exact Nat.succ_le_succ rows.fewer
    · rw [if_neg again]
      split
      · exact Nat.succ_le_succ (Nat.zero_le _)
      · exact Nat.le_refl 1
  refine ⟨fun front within => ?_, fewer, fun last found => ?_⟩
  · obtain rfl | shorter := List.prefix_concat_iff.mp within
    · omega
    · exact rows.short front shorter
  · rw [List.getLast?_concat, Option.mem_some_iff] at found
    rw [List.getLast?_concat, Option.any_some, found]
    exact same.refl last

theorem RowsShort.block (rows : RowsShort sameValue seen admitted)
    (many : 3 ≤ batchRepeats sameValue (seen ++ [batch])) :
    RowsShort sameValue (seen ++ [batch]) admitted := by
  have same := sameSignatures_equivalence equivalence
  have row := many
  rw [batchRepeats, repeats_concat same] at row
  split at row
  · next again =>
    refine ⟨rows.short, ?_, fun last found => ?_⟩
    · have more : batchRepeats sameValue (seen ++ [batch]) = batchRepeats sameValue seen + 1 := by
        rw [batchRepeats, repeats_concat same, if_pos again]
      have := rows.fewer
      omega
    · obtain ⟨other, found', alike⟩ := (Option.any_eq_true _ _).mp (rows.last last found)
      rw [found', Option.any_some] at again
      rw [List.getLast?_concat, Option.any_some]
      exact same.trans alike again
  · omega

end Rows

/-- What the guard keeps up in a run. -/
structure Guarded (sameValue : Json → Json → Bool) (run : LoopRun) : Prop where
  detector : run.guard.repeatedToolCallDetector.Tracks sameValue (run.checks.map Prod.fst)
  reads : run.guard.readOnlyToolProgressDetector.Tracks run.finished run.warnings
  blocks : BlocksRepeats sameValue run.checks
  short : ∀ front, front <+: run.admitted → batchRepeats sameValue front ≤ 2
  capped : run.admitted.length ≤ maxAgentToolRounds
  alive : run.running = true → RowsShort sameValue (run.checks.map Prod.fst) run.admitted ∧
    run.guard.toolRounds = run.admitted.length
  recoveries : run.toolCallLoopRecoveryCount ≤ maxToolCallLoopRecoveriesPerRun
  blocked : (run.checks.filter Prod.snd).length ≤
    run.toolCallLoopRecoveryCount + if run.running then 0 else 1

section Turns

variable {run : LoopRun} {turn : LoopTurn} {detector : RepeatedToolCallDetector}

theorem Guarded.stop (guarded : Guarded sameValue run) : Guarded sameValue run.stop :=
  { guarded with
    alive := nofun
    blocked := guarded.blocked.trans (by
      unfold LoopRun.stop
      simp only [Bool.false_eq_true, if_false]
      split <;> omega) }

theorem Guarded.compress (guarded : Guarded sameValue run) :
    Guarded sameValue (run.compress turn) := by
  unfold LoopRun.compress
  split
  · exact { guarded with
      short := (RowsShort.cleared (run.checks.map Prod.fst)).short
      capped := Nat.zero_le _
      alive := fun _ => ⟨.cleared _, rfl⟩ }
  · exact guarded.stop

/-- The run when the guard has been asked about the batch of a turn. -/
def LoopRun.asked (run : LoopRun) (turn : LoopTurn) (detector : RepeatedToolCallDetector)
    (blocked : Bool) : LoopRun :=
  { run with
    guard := { run.guard with repeatedToolCallDetector := detector }
    checks := run.checks ++ [(toolCallLoopSignatures turn.toolCalls, blocked)] }

/-- The batches the guard was asked about, with that of a turn. -/
abbrev LoopRun.seenWith (run : LoopRun) (turn : LoopTurn) : List (List ToolCallLoopSignature) :=
  run.checks.map Prod.fst ++ [toolCallLoopSignatures turn.toolCalls]

theorem LoopRun.asked_seen (blocked : Bool) :
    (run.asked turn detector blocked).checks.map Prod.fst = run.seenWith turn := by
  rw [LoopRun.asked, List.map_append, List.map_singleton]

/-- A run whose batch may go on, with what has become of it. -/
theorem Guarded.goesOn (guarded : Guarded sameValue run) (running : run.running = true)
    (tracks : detector.Tracks sameValue (run.seenWith turn))
    (few : batchRepeats sameValue (run.seenWith turn) < 3)
    {admitted : List (List ToolCallLoopSignature)}
    (short : ∀ front, front <+: admitted → batchRepeats sameValue front ≤ 2)
    (capped : admitted.length ≤ maxAgentToolRounds) {toolRounds : Nat} {goes : Bool}
    (alive : goes = true →
      RowsShort sameValue (run.seenWith turn) admitted ∧ toolRounds = admitted.length) :
    Guarded sameValue { run.asked turn detector false with
      guard := { (run.asked turn detector false).guard with toolRounds }
      admitted
      running := goes } where
  detector := by
    rw [LoopRun.asked_seen]
    exact tracks
  reads := guarded.reads
  blocks := guarded.blocks.concat
    ⟨(fun same => by cases same), fun many => absurd many (Nat.not_le_of_lt few)⟩
  short := short
  capped := capped
  alive goesOn := by
    rw [LoopRun.asked_seen]
    exact alive goesOn
  recoveries := guarded.recoveries
  blocked := by
    have before := guarded.blocked
    have same : (run.asked turn detector false).checks.filter Prod.snd =
        run.checks.filter Prod.snd := by simp [LoopRun.asked]
    rw [if_pos running] at before
    rw [same]
    exact before.trans (Nat.le_add_right _ _)

theorem Guarded.finish (guarded : Guarded sameValue run) (toolCalls : List NeutralToolCall) :
    Guarded sameValue { run with
      guard := { run.guard with
        readOnlyToolProgressDetector := (run.guard.readOnlyToolProgressDetector.check toolCalls).2 }
      finished := run.finished ++ [toolCalls]
      warnings := (run.guard.readOnlyToolProgressDetector.check toolCalls).1.warningsAfter
        (run.finished ++ [toolCalls]) run.warnings } :=
  { guarded with reads := guarded.reads.check toolCalls }

include equivalence

/-- A batch that may go on is executed below the round cap. -/
theorem Guarded.asked_execute (guarded : Guarded sameValue run) (running : run.running = true)
    (tracks : detector.Tracks sameValue (run.seenWith turn))
    (few : batchRepeats sameValue (run.seenWith turn) < 3)
    (below : run.guard.toolRounds < maxAgentToolRounds) :
    Guarded sameValue ((run.asked turn detector false).execute turn) := by
  obtain ⟨rows, rounds⟩ := guarded.alive running
  have admits := rows.admit equivalence few
  have counted : saturatingAdd run.guard.toolRounds 1 =
      (run.admitted ++ [toolCallLoopSignatures turn.toolCalls]).length := by
    have small : maxAgentToolRounds < usizeMax := by decide
    rw [saturatingAdd_eq (by omega), List.length_append, rounds, List.length_singleton]
  have capped : (run.admitted ++ [toolCallLoopSignatures turn.toolCalls]).length ≤
      maxAgentToolRounds := by
    rw [List.length_append, List.length_singleton, ← rounds]
    exact below
  unfold LoopRun.execute
  split
  · exact (guarded.goesOn running tracks few admits.short capped
      fun _ => ⟨admits, counted⟩).finish turn.toolCalls
  · exact guarded.goesOn running tracks few admits.short capped fun goes => by cases goes

/-- A blocked batch is recovered from or ends the run. -/
theorem Guarded.asked_block (guarded : Guarded sameValue run) (running : run.running = true)
    (tracks : detector.Tracks sameValue (run.seenWith turn))
    (many : 3 ≤ batchRepeats sameValue (run.seenWith turn)) :
    Guarded sameValue (run.asked turn detector true).stop ∧
      (run.toolCallLoopRecoveryCount < maxToolCallLoopRecoveriesPerRun →
        Guarded sameValue { run.asked turn detector true with
          toolCallLoopRecoveryCount := run.toolCallLoopRecoveryCount + 1 }) := by
  have blocks : BlocksRepeats sameValue (run.asked turn detector true).checks :=
    guarded.blocks.concat ⟨fun _ => many, fun _ => rfl⟩
  have seen : detector.Tracks sameValue ((run.asked turn detector true).checks.map Prod.fst) := by
    rw [LoopRun.asked_seen]
    exact tracks
  have before := guarded.blocked
  rw [if_pos running] at before
  have more : ((run.asked turn detector true).checks.filter Prod.snd).length =
      (run.checks.filter Prod.snd).length + 1 := by simp [LoopRun.asked]
  refine ⟨{ guarded with detector := seen, blocks, alive := nofun, blocked := ?_ }, fun less =>
    { guarded with
      detector := seen
      blocks
      alive := fun _ => ?_
      recoveries := less
      blocked := ?_ }⟩
  · change ((run.asked turn detector true).checks.filter Prod.snd).length ≤ _ + 1
    rw [more]
    exact Nat.succ_le_succ before
  · obtain ⟨rows, rounds⟩ := guarded.alive running
    rw [LoopRun.asked_seen]
    exact ⟨rows.block equivalence many, rounds⟩
  · change ((run.asked turn detector true).checks.filter Prod.snd).length ≤ _ + 1 + _
    rw [more]
    omega

/-- Asking the guard keeps its promises if the host does with a batch that may go on. -/
theorem Guarded.check (guarded : Guarded sameValue run) (running : run.running = true)
    {stopsUnrecorded : Bool} {onward : LoopRun → LoopRun}
    (goes : ∀ detector : RepeatedToolCallDetector,
      detector.Tracks sameValue (run.seenWith turn) →
      batchRepeats sameValue (run.seenWith turn) < 3 →
      Guarded sameValue (onward (run.asked turn detector false))) :
    Guarded sameValue (run.check sameValue stopsUnrecorded onward turn) := by
  unfold LoopRun.check
  split
  · exact guarded.stop
  · next action detector checked =>
    obtain ⟨tracks, ⟨rfl, few⟩ | ⟨⟨message, toolNames, rfl⟩, many⟩⟩ :=
      guarded.detector.check equivalence checked
    · exact goes detector tracks few
    · obtain ⟨stopped, recovered⟩ := guarded.asked_block equivalence running tracks many
      dsimp only
      split
      · exact stopped
      · split
        · next less => exact recovered less
        · exact stopped

theorem Guarded.localTurn (guarded : Guarded sameValue run) (running : run.running = true) :
    Guarded sameValue (localTurn sameValue run turn) := by
  unfold ToolLoop.localTurn
  split
  · exact guarded.compress
  · next below =>
    split
    · exact guarded.stop
    · refine guarded.check equivalence running fun detector tracks few => ?_
      refine guarded.asked_execute equivalence running tracks few (Nat.lt_of_not_le fun reached => ?_)
      exact below (decide_eq_true reached)

theorem Guarded.remoteTurn (guarded : Guarded sameValue run) (running : run.running = true) :
    Guarded sameValue (remoteTurn sameValue run turn) := by
  unfold ToolLoop.remoteTurn
  split
  · exact guarded.stop
  · refine guarded.check equivalence running fun detector tracks few => ?_
    split
    · unfold LoopRun.compress
      split
      · exact guarded.goesOn running tracks few (RowsShort.cleared (run.seenWith turn)).short
          (Nat.zero_le _) fun goes => ⟨.cleared _, rfl⟩
      · exact guarded.goesOn running tracks few guarded.short guarded.capped
          fun goes => by cases goes
    · next below =>
      refine guarded.asked_execute equivalence running tracks few
        (Nat.lt_of_not_le fun reached => ?_)
      exact below (decide_eq_true reached)

end Turns

theorem guarded_start : Guarded sameValue {} where
  detector := ⟨rfl, fun _ => rfl⟩
  reads := by
    refine ⟨rfl, rfl, fun count => ⟨nofun, ?_⟩⟩
    rintro ⟨-, row⟩
    rw [List.take_nil] at row
    cases row
  blocks front batch blocked within := by
    exact absurd (List.prefix_nil.mp within) (by simp)
  short := (RowsShort.cleared []).short
  capped := Nat.zero_le _
  alive _ := ⟨.cleared _, rfl⟩
  recoveries := Nat.zero_le _
  blocked := Nat.le_refl 0

/-- In every run of either host exactly the batches that have come three times in a row are blocked,
and of those let through between two compressions none comes three times in a row and there are at
most as many as the round cap; no more batches are blocked than there are recoveries, and the one that
ends the run; and a warning is given exactly when reading alone has gone on for 16 batches. -/
theorem toolLoop_guarded (sameValue : Json → Json → Bool)
    (equivalence : Equivalence fun a b => sameValue a b = true) (host : LoopHost) {run : LoopRun}
    (reached : (machine sameValue host).Reachable run) :
    BlocksRepeats sameValue run.checks ∧
      (∀ front, front <+: run.admitted → batchRepeats sameValue front ≤ 2) ∧
      run.admitted.length ≤ maxAgentToolRounds ∧
      (run.checks.filter Prod.snd).length ≤ maxToolCallLoopRecoveriesPerRun + 1 ∧
      ∀ count, count ∈ run.warnings ↔ count ≤ run.finished.length ∧
        trailing readOnlyBatch (run.finished.take count) = readOnlyToolBatchWarningThreshold := by
  have guarded : Guarded sameValue run := by
    refine reached.invariant guarded_start fun state turn next guarded step => ?_
    simp only [machine] at step
    split at step
    · next running =>
      obtain rfl := Option.some.inj step
      cases host with
      | local_ => exact guarded.localTurn equivalence running
      | remote => exact guarded.remoteTurn equivalence running
    · cases step
  refine ⟨guarded.blocks, guarded.short, guarded.capped, ?_, guarded.reads.warnings⟩
  have blocked := guarded.blocked
  have recoveries := guarded.recoveries
  split at blocked <;> omega

/-- The third of three equal reads is blocked. -/
theorem toolLoop_guarded_thrice :
    ∃ run, (machine (fun a b => decide (JsonText.print a = JsonText.print b)) .remote).Reachable run ∧
      run.checks.map Prod.snd = [false, false, true] ∧
      BlocksRepeats (fun a b => decide (JsonText.print a = JsonText.print b)) run.checks := by
  let turn : LoopTurn :=
    ⟨[⟨"call".toList, "read_file".toList, .object []⟩], false, false, true, true⟩
  obtain ⟨run, ran, marks⟩ : ∃ run,
      (machine (fun a b => decide (JsonText.print a = JsonText.print b)) .remote).run {}
        [turn, turn, turn] = some run ∧ run.checks.map Prod.snd = [false, false, true] :=
    ⟨_, rfl, rfl⟩
  have reached := Machine.reachable_of_run .start ran
  refine ⟨run, reached, marks, (toolLoop_guarded _ ⟨fun _ => ?_, fun same => ?_, fun same other => ?_⟩
    .remote reached).1⟩
  · exact decide_eq_true rfl
  · exact decide_eq_true (of_decide_eq_true same).symm
  · exact decide_eq_true ((of_decide_eq_true same).trans (of_decide_eq_true other))

end Runs

end Foco.ToolLoop
