import Foco.CommandPages

/-!
When a client that follows the pages of `get_command_output` sees every retained chunk. A
chunk always fits a page in bytes, since its bytes are capped and escaping makes them at
most six times as long. In lines it need not fit: the response counts its other strings
and every line ending of the decoded text, not only the newlines a chunk is capped by.
-/
namespace Foco.BackgroundCommand
open Foco.RustText Foco.TextLines Foco.OutputBudget Foco.Logs
open Foco.Json (asU64)

/-! ## What appends leave in the buffer -/

/-- A buffer that only appends have written: consecutive cursors up to the last one, and chunks
within the byte cap. -/
structure OutputRingBuffer.Cut (ring : OutputRingBuffer) : Prop where
  cursors : ∃ first, 0 < first ∧ Numbered (·.cursor) first ring.chunks ∧
    first + ring.chunks.length = ring.nextCursor + 1
  limit : ring.nextCursor ≤ usizeMax
  small : ∀ chunk ∈ ring.chunks, chunk.bytes.length ≤ maxOutputChunkBytes

theorem OutputRingBuffer.Cut.new : OutputRingBuffer.new.Cut where
  cursors := ⟨1, Nat.one_pos, .nil, rfl⟩
  limit := Nat.zero_le _
  small := by simp [OutputRingBuffer.new]

theorem evict_suffix (incoming maxBytes nextCursor : Nat)
    (chunks : List BackgroundCommandOutputChunk) (retained dropped : Nat) :
    (evict incoming maxBytes nextCursor chunks retained dropped).chunks <:+ chunks := by
  induction chunks generalizing retained dropped with
  | nil => exact List.suffix_refl _
  | cons chunk rest ih =>
    simp only [evict]
    split
    · exact (ih _ _).trans (List.suffix_cons _ _)
    · exact List.suffix_refl _

theorem OutputRingBuffer.Cut.makeRoom {ring : OutputRingBuffer} (cut : ring.Cut)
    (incoming maxBytes : Nat) : (ring.makeRoom incoming maxBytes).Cut := by
  obtain ⟨first, positive, numbered, last⟩ := cut.cursors
  obtain ⟨gone, split⟩ := evict_suffix incoming maxBytes ring.nextCursor ring.chunks
    ring.retainedBytes ring.droppedBytes
  have next : (ring.makeRoom incoming maxBytes).nextCursor = ring.nextCursor :=
    evict_nextCursor _ _ _ _ _ _
  rw [← split] at numbered last
  refine ⟨⟨first + gone.length, by omega, (numbered_append.mp numbered).2, ?_⟩,
    next ▸ cut.limit, fun chunk mem => cut.small chunk ?_⟩
  · rw [next, ← last, List.length_append, Nat.add_assoc]
    rfl
  · exact split ▸ List.mem_append_right _ mem

theorem OutputRingBuffer.Cut.pushBack {ring : OutputRingBuffer} (cut : ring.Cut)
    (stream : BackgroundCommandOutputStream) {bytes : List UInt8}
    (small : bytes.length ≤ maxOutputChunkBytes) (free : ring.nextCursor ≠ usizeMax) :
    (ring.pushBack stream bytes).Cut := by
  obtain ⟨first, positive, numbered, last⟩ := cut.cursors
  refine ⟨⟨first, positive, numbered.concat last.symm, ?_⟩, ?_, fun chunk mem => ?_⟩
  · simp only [OutputRingBuffer.pushBack, List.length_append, List.length_singleton]
    omega
  · exact Nat.lt_of_le_of_ne cut.limit free
  · rcases List.mem_append.mp mem with old | new
    · exact cut.small chunk old
    · obtain rfl := List.mem_singleton.mp new
      exact small

theorem appendRemaining_cut (stream : BackgroundCommandOutputStream) (maxBytes rounds : Nat)
    (remaining : List UInt8) {ring : OutputRingBuffer} (cut : ring.Cut) :
    (OutputRingBuffer.appendRemaining stream maxBytes rounds remaining ring).1.Cut := by
  induction rounds generalizing remaining ring with
  | zero => exact cut
  | succ rounds ih =>
    rw [OutputRingBuffer.appendRemaining]
    split
    · exact cut
    · rename_i more
      have filled : remaining ≠ [] := by simpa using more
      have room := cut.makeRoom (remaining.take (outputChunkEnd remaining)).length maxBytes
      dsimp only
      split
      · exact room
      · rename_i free
        refine ih _ (room.pushBack stream ?_ free)
        rw [List.length_take]
        have cap := (outputChunkEnd_spec filled).2.2.1
        omega

theorem OutputRingBuffer.Cut.append {ring : OutputRingBuffer} (cut : ring.Cut)
    (stream : BackgroundCommandOutputStream) (bytes : List UInt8) (maxBytes : Nat) :
    (ring.append stream bytes maxBytes).1.Cut := by
  unfold OutputRingBuffer.append
  split
  · exact cut
  · split
    · exact appendRemaining_cut stream maxBytes _ _ ⟨cut.cursors, cut.limit, cut.small⟩
    · exact appendRemaining_cut stream maxBytes _ _ cut

/-- Every content that appends produce is cut into numbered chunks within the byte cap. -/
theorem produced_cut (maxBytes : Nat) (writes : List OutputWrite) :
    (produced maxBytes writes).Cut := by
  have from_ : ∀ ring : OutputRingBuffer, ring.Cut →
      (writes.foldl (fun ring write => (ring.append write.stream write.bytes maxBytes).1)
        ring).Cut := by
    induction writes with
    | nil => exact fun _ cut => cut
    | cons write writes ih => exact fun ring cut => ih _ (cut.append write.stream write.bytes _)
  exact from_ _ .new

/-! ## Texts of one line -/

theorem completeLineCount_plain {text : Text} (plain : ∀ c ∈ text, IsPlain c)
    (filled : text ≠ []) : completeLineCount text = 1 := by
  rw [completeLineCount_eq, completeLines_plain plain filled]
  rfl

theorem natText_plain (n : Nat) : ∀ c ∈ natText n, IsPlain c ∧ escapedSize c = 1 := by
  intro c mem
  have digit := Nat.isDigit_of_mem_toDigits (by decide) (by decide) mem
  have bounds : 48 ≤ c.toNat ∧ c.toNat ≤ 57 := by
    obtain ⟨low, high⟩ := Bool.and_eq_true_iff.mp digit
    exact ⟨UInt32.le_iff_toNat_le.mp (of_decide_eq_true low),
      UInt32.le_iff_toNat_le.mp (of_decide_eq_true high)⟩
  have ascii : c.utf8Size = 1 := by
    unfold Char.utf8Size
    exact if_pos (UInt32.le_iff_toNat_le.mpr (bounds.2.trans (by decide)))
  have apart : ∀ other : Char, other.toNat < 48 ∨ 57 < other.toNat → c ≠ other := by
    rintro other out rfl
    omega
  refine ⟨⟨apart _ (by decide), apart _ (by decide)⟩, ?_⟩
  rw [escapedSize, if_neg, if_neg (by omega), ascii]
  simp only [List.mem_cons, List.not_mem_nil, or_false, not_or]
  refine ⟨apart _ (by decide), apart _ (by decide), ?_⟩
  omega

theorem hexText_plain (n : Nat) : ∀ c ∈ hexText n, IsPlain c ∧ escapedSize c = 1 := by
  intro c mem
  obtain ⟨place, -, rfl⟩ := List.mem_map.mp mem
  have digits : ∀ digit < 16, IsPlain (Nat.digitChar digit) ∧
      escapedSize (Nat.digitChar digit) = 1 := by decide
  exact digits _ (Nat.mod_lt _ (by decide))

theorem escapedLength_eq_length {text : Text} (single : ∀ c ∈ text, escapedSize c = 1) :
    escapedLength text = text.length := by
  rw [escapedLength, List.map_congr_left single, List.map_const', List.sum_replicate]
  simp

theorem escapedLength_le_length (text : Text) : escapedLength text ≤ 6 * text.length := by
  induction text with
  | nil => exact Nat.le_refl 0
  | cons c text ih =>
    have single : escapedSize c ≤ 6 := by
      have width : c.utf8Size ≤ 4 := c.utf8Size_le_four
      unfold escapedSize
      split
      · omega
      · split <;> omega
    rw [escapedLength_cons, List.length_cons]
    omega

section Response

variable (snapshot : BackgroundCommandSnapshot)

theorem commandId_plain : ∀ c ∈ snapshot.commandId, IsPlain c := by
  intro c mem
  rcases List.mem_append.mp mem with label | digits
  · have all : ∀ c ∈ "command-".toList, IsPlain c := by
      apply plain_of_all
      rewrite [String.toList_ofList]
      decide
    exact all c label
  · exact (hexText_plain _ c digits).1

theorem commandId_length : escapedLength snapshot.commandId = 24 := by
  have label : escapedLength "command-".toList = 8 := by
    rewrite [String.toList_ofList]
    decide
  have digits := escapedLength_eq_length fun c mem =>
    (hexText_plain snapshot.commandSequence.toNat c mem).2
  unfold BackgroundCommandSnapshot.commandId
  rw [escapedLength_append, label, digits, hexText, List.length_map, List.length_range]

theorem commandId_ne_nil : snapshot.commandId ≠ [] := by
  intro empty
  have length := commandId_length snapshot
  rw [empty] at length
  cases length

theorem pageNote_plain (nextCursor : Nat) :
    ∀ c ∈ pageNote snapshot.commandId nextCursor, IsPlain c := by
  unfold pageNote
  simp only [List.forall_mem_append]
  refine ⟨⟨⟨⟨⟨⟨⟨⟨?_, ?_⟩, ?_⟩, commandId_plain snapshot⟩, ?_⟩,
    fun c mem => (natText_plain nextCursor c mem).1⟩, ?_⟩, ?_⟩, ?_⟩ <;>
    (apply plain_of_all; rewrite [String.toList_ofList]; decide)

theorem pageNote_lines (nextCursor : Nat) :
    completeLineCount (pageNote snapshot.commandId nextCursor) = 1 := by
  refine completeLineCount_plain (pageNote_plain snapshot nextCursor) fun empty => ?_
  have id : snapshot.commandId = [] := by
    unfold pageNote at empty
    simp only [List.append_eq_nil_iff] at empty
    exact empty.1.1.1.1.1.2
  exact commandId_ne_nil snapshot id

theorem pageNote_size {nextCursor : Nat} (small : nextCursor ≤ usizeMax) :
    stringSize (pageNote snapshot.commandId nextCursor) ≤ 500 := by
  have literal : escapedLength
        "This response was explicitly paginated under the shared output budget; no retained ".toList
        = 83 ∧
      escapedLength
        "output was silently discarded. Continue with get_command_output using the same ".toList
        = 79 ∧
      escapedLength "processId=".toList = 10 ∧ escapedLength " and cursor=".toList = 12 ∧
      escapedLength
        " (the returned nextCursor) to receive the next complete chunk without repeats. ".toList
        = 79 ∧
      escapedLength
        "This response-level truncated flag is separate from outputTruncated and ".toList = 72 ∧
      escapedLength
        "cursorExpired, which only describe the retained process buffer.".toList = 63 := by
    repeat rewrite [String.toList_ofList]
    decide
  have id := commandId_length snapshot
  have digits := escapedLength_eq_length fun c mem => (natText_plain nextCursor c mem).2
  have few := natText_length_u64 small
  unfold pageNote
  simp only [stringSize, escapedLength_append]
  omega

theorem size_jsonOption_le {α : Type} {toJson : α → Json} {value : Option α} {limit : Nat}
    (room : 4 ≤ limit) (each : ∀ v, (toJson v).size ≤ limit) :
    (jsonOption toJson value).size ≤ limit := by
  cases value with
  | none => exact room
  | some v => exact each v

theorem statusName_size (status : BackgroundCommandStatus) :
    stringSize (backgroundStatusName status) ≤ 11 := by
  cases status <;> (unfold backgroundStatusName; rewrite [String.toList_ofList]; decide)

theorem statusName_lines (status : BackgroundCommandStatus) :
    completeLineCount (backgroundStatusName status) = 1 := by
  cases status <;> (unfold backgroundStatusName; rewrite [String.toList_ofList]; decide)

theorem terminationName_size (reason : BackgroundCommandTermination) :
    stringSize (backgroundTerminationName reason) ≤ 15 := by
  cases reason <;> (unfold backgroundTerminationName; rewrite [String.toList_ofList]; decide)

theorem terminationName_lines (reason : BackgroundCommandTermination) :
    completeLineCount (backgroundTerminationName reason) = 1 := by
  cases reason <;> (unfold backgroundTerminationName; rewrite [String.toList_ofList]; decide)

theorem size_jsonUInt64_le (n : UInt64) : (jsonNat n.toNat).size ≤ 20 :=
  size_jsonNat_le (Nat.le_sub_one_of_lt n.toNat_lt)

theorem size_exitCode_le (code : Int32) : (Json.number (.integer code.toInt)).size ≤ 20 := by
  have low := code.le_toInt
  have high := code.toInt_lt
  change (intText code.toInt).length ≤ 20
  cases value : code.toInt with
  | ofNat n =>
    rw [value] at high
    exact natText_length_u64 (by rw [Int.ofNat_eq_natCast] at high; simp only [usizeMax]; omega)
  | negSucc n =>
    rw [value] at low
    have few : (natText (n + 1)).length ≤ 19 :=
      natText_length (by decide) (by omega)
    exact Nat.succ_le_succ few

/-- A cursor a query returns is one of the buffer's. -/
def OutputInRange (output : BackgroundCommandOutput) : Prop :=
  output.nextCursor ≤ usizeMax ∧ ∀ earliest ∈ output.earliestCursor, earliest ≤ usizeMax

variable {snapshot} {output : BackgroundCommandOutput} {requestedCursor : Option Nat}

theorem responseBase_size (inRange : OutputInRange output)
    (requested : ∀ cursor ∈ requestedCursor, cursor ≤ usizeMax) :
    Json.sizeOfFields (responseBase snapshot output requestedCursor) ≤ 500 := by
  have keys : stringSize "processId".toList = 11 ∧ stringSize "pid".toList = 5 ∧
      stringSize "status".toList = 8 ∧ stringSize "startedAt".toList = 11 ∧
      stringSize "endedAt".toList = 9 ∧ stringSize "exitCode".toList = 10 ∧
      stringSize "success".toList = 9 ∧ stringSize "terminationReason".toList = 19 ∧
      stringSize "fromCursor".toList = 12 ∧ stringSize "availableFromCursor".toList = 21 ∧
      stringSize "cursorExpired".toList = 15 ∧ stringSize "retainedOutputBytes".toList = 21 ∧
      stringSize "outputTruncated".toList = 17 := by
    repeat rewrite [String.toList_ofList]
    decide
  have id : stringSize snapshot.commandId = 26 := congrArg (· + 2) (commandId_length snapshot)
  have pid : (jsonNat snapshot.pid.toNat).size ≤ 20 :=
    size_jsonNat_le (Nat.le_of_lt (snapshot.pid.toNat_lt.trans (by decide)))
  have status := statusName_size snapshot.status
  have started := size_jsonUInt64_le snapshot.startedAt
  have ended := @size_jsonOption_le _ _ snapshot.endedAt 20 (by decide) size_jsonUInt64_le
  have exit := @size_jsonOption_le _ _ snapshot.exitCode 20 (by decide) size_exitCode_le
  have success := @size_jsonOption_le _ _ (backgroundSuccess snapshot) 5 (by decide) size_bool_le
  have termination := @size_jsonOption_le _ (fun reason => .string (backgroundTerminationName reason))
    snapshot.termination 15 (by decide) terminationName_size
  have available : output.earliestCursor.getD output.nextCursor ≤ usizeMax := by
    cases earliest : output.earliestCursor with
    | none => exact inRange.1
    | some cursor => exact inRange.2 cursor earliest
  have availableSize := size_jsonNat_le available
  have fromSize : (jsonNat (requestedCursor.getD
      (output.earliestCursor.getD output.nextCursor))).size ≤ 20 := by
    cases requestedCursor with
    | none => exact availableSize
    | some cursor => exact size_jsonNat_le (requested cursor rfl)
  have expired := size_bool_le output.cursorExpired
  have retained := size_jsonUInt64_le snapshot.retainedOutputBytes
  have truncated := size_bool_le output.outputTruncated
  refine (sizeOfFields_cons_le id.le <| sizeOfFields_cons_le pid <| sizeOfFields_cons_le status <|
    sizeOfFields_cons_le started <| sizeOfFields_cons_le ended <| sizeOfFields_cons_le exit <|
    sizeOfFields_cons_le success <| sizeOfFields_cons_le termination <|
    sizeOfFields_cons_le fromSize <| sizeOfFields_cons_le availableSize <|
    sizeOfFields_cons_le expired <| sizeOfFields_cons_le retained <|
    sizeOfFields_cons_le truncated (Nat.le_refl 0)).trans ?_
  simp only [keys]
  decide

/-! ## The measure of one page -/

/-- The fields a page adds to the response. -/
def pageFields (processId : Text) (chunks : List Json) (nextCursor : Nat) (hasMore : Bool) :
    JsonMap :=
  [("chunks", .array chunks), ("nextCursor", jsonNat nextCursor), ("hasMore", .bool hasMore),
    ("truncated", .bool hasMore)] ++
  if hasMore then [("note", .string (pageNote processId nextCursor))] else []

theorem commandOutputPage_eq (chunks : List Json) (nextCursor : Nat) (hasMore : Bool) :
    commandOutputPage (responseBase snapshot output requestedCursor) chunks nextCursor hasMore =
      .ok (.object (responseBase snapshot output requestedCursor ++
        pageFields snapshot.commandId chunks nextCursor hasMore)) := by
  have id : (Json.object (responseBase snapshot output requestedCursor)).getStr "processId" =
      some snapshot.commandId := rfl
  rw [commandOutputPage, id, pageFields, ← List.append_assoc]

variable (snapshot output requestedCursor) in
/-- A page with given chunks, as the tool result it is measured as. -/
def pageExecution (chunks : List Json) (nextCursor : Nat) (hasMore : Bool) : ToolExecution where
  output := .object (responseBase snapshot output requestedCursor ++
    pageFields snapshot.commandId chunks nextCursor hasMore)
  isError := false

theorem pageExecution_size (inRange : OutputInRange output)
    (requested : ∀ cursor ∈ requestedCursor, cursor ≤ usizeMax) (chunks : List Json)
    {nextCursor : Nat} (small : nextCursor ≤ usizeMax) (hasMore : Bool) :
    Json.sizeOfValues chunks ≤
        (pageExecution snapshot output requestedCursor chunks nextCursor hasMore).toJson.size ∧
      (pageExecution snapshot output requestedCursor chunks nextCursor hasMore).toJson.size ≤
        1300 + Json.sizeOfValues chunks := by
  have keys : stringSize "output".toList = 8 ∧ stringSize "isError".toList = 9 ∧
      stringSize "chunks".toList = 8 ∧ stringSize "nextCursor".toList = 12 ∧
      stringSize "hasMore".toList = 9 ∧ stringSize "truncated".toList = 11 ∧
      stringSize "note".toList = 6 := by
    repeat rewrite [String.toList_ofList]
    decide
  have base := @responseBase_size snapshot output requestedCursor inRange requested
  have note := pageNote_size snapshot small
  have cursor := size_jsonNat_le small
  have more := size_bool_le hasMore
  have noteField : Json.sizeOfFields (if hasMore = true then
      [("note", .string (pageNote snapshot.commandId nextCursor))] else []) ≤ 508 := by
    split
    · simp only [Json.sizeOfFields, size_string, keys]
      omega
    · exact Nat.zero_le _
  have page : Json.sizeOfFields (responseBase snapshot output requestedCursor ++
      pageFields snapshot.commandId chunks nextCursor hasMore) =
      Json.sizeOfFields (responseBase snapshot output requestedCursor) +
        (max 1 (Json.sizeOfValues chunks) + (jsonNat nextCursor).size +
          2 * (Json.bool hasMore).size + 49 + Json.sizeOfFields (if hasMore = true then
            [("note", .string (pageNote snapshot.commandId nextCursor))] else [])) := by
    rw [pageFields, Json.sizeOfFields_append, Json.sizeOfFields_append]
    simp only [Json.sizeOfFields, Json.size, keys]
    omega
  have whole : (pageExecution snapshot output requestedCursor chunks nextCursor
      hasMore).toJson.size = 27 + (1 + max 1 (Json.sizeOfFields
        (responseBase snapshot output requestedCursor ++
          pageFields snapshot.commandId chunks nextCursor hasMore))) := by
    simp only [pageExecution, ToolExecution.toJson, Json.size, Json.sizeOfFields, keys,
      Bool.false_eq_true, if_false]
    omega
  rw [whole, page]
  omega

theorem chunkJson_size {chunk : BackgroundCommandOutputChunk}
    (small : chunk.bytes.length ≤ maxOutputChunkBytes) (cursor : chunk.cursor ≤ usizeMax) :
    (chunkJson chunk).size ≤ 24700 := by
  have keys : stringSize "cursor".toList = 8 ∧ stringSize "stream".toList = 8 ∧
      stringSize "text".toList = 6 := by
    repeat rewrite [String.toList_ofList]
    decide
  have stream : stringSize (streamName chunk.stream) = 8 := by
    cases chunk.stream <;> (unfold streamName; rewrite [String.toList_ofList]; decide)
  have digits := size_jsonNat_le cursor
  have escaped := escapedLength_le_length (fromUtf8Lossy chunk.bytes)
  have decoded := length_fromUtf8Lossy_le chunk.bytes
  have cap : maxOutputChunkBytes = 4096 := rfl
  have text : stringSize (fromUtf8Lossy chunk.bytes) ≤ 24578 := by
    rw [stringSize]
    omega
  have fields : Json.sizeOfFields [("cursor", jsonNat chunk.cursor),
      ("stream", .string (streamName chunk.stream)),
      ("text", .string (fromUtf8Lossy chunk.bytes))] ≤ 24650 := by
    refine (sizeOfFields_cons_le digits <| sizeOfFields_cons_le stream.le <|
      sizeOfFields_cons_le text (Nat.le_refl 0)).trans ?_
    simp only [keys]
    decide
  rw [chunkJson, Json.size]
  omega

theorem responseBase_lines :
    fieldLines (responseBase snapshot output requestedCursor) =
      2 + if snapshot.termination.isSome then 1 else 0 := by
  have id := completeLineCount_plain (commandId_plain snapshot) (commandId_ne_nil snapshot)
  have status := statusName_lines snapshot.status
  have ended : (jsonOption (fun time : UInt64 => jsonNat time.toNat) snapshot.endedAt).textLines =
      0 := by
    cases snapshot.endedAt <;> rfl
  have exit : (jsonOption (fun code : Int32 => .number (.integer code.toInt))
      snapshot.exitCode).textLines = 0 := by
    cases snapshot.exitCode <;> rfl
  have success : (jsonOption .bool (backgroundSuccess snapshot)).textLines = 0 := by
    cases backgroundSuccess snapshot <;> rfl
  have termination : (jsonOption (fun reason => .string (backgroundTerminationName reason))
      snapshot.termination).textLines = if snapshot.termination.isSome then 1 else 0 := by
    cases snapshot.termination with
    | none => rfl
    | some reason =>
      change completeLineCount (backgroundTerminationName reason) = 1
      exact terminationName_lines reason
  simp only [responseBase, fieldLines_cons, fieldLines_nil, textLines_jsonNat, textLines_bool,
    textLines_string, id, status, ended, exit, success, termination]
  omega

theorem streamName_lines (stream : BackgroundCommandOutputStream) :
    completeLineCount (streamName stream) = 1 := by
  cases stream <;> (unfold streamName; rewrite [String.toList_ofList]; decide)

theorem chunkJson_lines (chunk : BackgroundCommandOutputChunk) :
    (chunkJson chunk).textLines =
      min (1 + completeLineCount (fromUtf8Lossy chunk.bytes)) usizeMax := by
  have stream := streamName_lines chunk.stream
  rw [chunkJson, Json.textLines, Json.textLinesOfFields_eq, foldl_saturatingAdd _ _ (Nat.zero_le _)]
  simp only [List.map_cons, List.map_nil, List.sum_cons, List.sum_nil, textLines_jsonNat,
    textLines_string, stream]
  omega

/-- The lines of a page with one chunk. -/
theorem pageExecution_lines (chunk : BackgroundCommandOutputChunk) (nextCursor : Nat)
    (hasMore : Bool) :
    (pageExecution snapshot output requestedCursor [chunkJson chunk] nextCursor
        hasMore).output.textLines ≤ toolOutputSoftLineLimit ↔
      completeLineCount (fromUtf8Lossy chunk.bytes) + (if hasMore then 1 else 0) +
        (if snapshot.termination.isSome then 1 else 0) + 3 ≤ toolOutputSoftLineLimit := by
  have base := @responseBase_lines snapshot output requestedCursor
  have array : (Json.array [chunkJson chunk]).textLines =
      min (1 + completeLineCount (fromUtf8Lossy chunk.bytes)) usizeMax := by
    rw [Json.textLines, Json.textLinesOfValues, Json.textLinesOfValues, saturatingAdd,
      chunkJson_lines]
    omega
  have note : fieldLines (if hasMore = true then
      [("note", .string (pageNote snapshot.commandId nextCursor))] else []) =
      if hasMore then 1 else 0 := by
    cases hasMore with
    | false => rfl
    | true =>
      change completeLineCount (pageNote snapshot.commandId nextCursor) + 0 = 1
      rw [pageNote_lines]
  have page : fieldLines (pageFields snapshot.commandId [chunkJson chunk] nextCursor hasMore) =
      min (1 + completeLineCount (fromUtf8Lossy chunk.bytes)) usizeMax +
        if hasMore then 1 else 0 := by
    rw [pageFields, fieldLines_append, note]
    simp only [fieldLines_cons, fieldLines_nil, array, textLines_jsonNat, textLines_bool]
    omega
  rw [pageExecution, Json.textLines_object_le (by decide)]
  change fieldLines _ ≤ _ ↔ _
  have limits : toolOutputSoftLineLimit = 2000 ∧ 2000 < usizeMax := by decide
  rw [fieldLines_append, base, page]
  omega

/-! ## One page -/

/-- The cursor after some chunks. -/
def cursorAfter (cursor : Nat) (taken : List BackgroundCommandOutputChunk) : Nat :=
  (taken.getLast?.map (·.cursor)).getD cursor

/-- A chunk that can be on a page of its own: its lines, its stream, the other strings of the
response and the note of a page that is not the last. -/
def ChunkFits (snapshot : BackgroundCommandSnapshot) (isLast : Bool)
    (chunk : BackgroundCommandOutputChunk) : Prop :=
  completeLineCount (fromUtf8Lossy chunk.bytes) + (if isLast then 0 else 1) +
    (if snapshot.termination.isSome then 1 else 0) + 3 ≤ toolOutputSoftLineLimit

variable (snapshot output requestedCursor) in
/-- Whether one more chunk keeps a page within the limits. -/
def PageFits (shown : List Json) (chunk : BackgroundCommandOutputChunk)
    (rest : List BackgroundCommandOutputChunk) : Prop :=
  (pageExecution snapshot output requestedCursor (shown ++ [chunkJson chunk]) chunk.cursor
      (!rest.isEmpty)).toJson.size ≤ toolOutputSoftByteLimit ∧
    (pageExecution snapshot output requestedCursor (shown ++ [chunkJson chunk]) chunk.cursor
      (!rest.isEmpty)).output.textLines ≤ toolOutputSoftLineLimit

/-- A chunk of a buffer that appends have written. -/
def ChunkInRange (chunk : BackgroundCommandOutputChunk) : Prop :=
  chunk.bytes.length ≤ maxOutputChunkBytes ∧ chunk.cursor ≤ usizeMax

section Pages

variable {shown : List Json} {cursor : Nat} {chunk : BackgroundCommandOutputChunk}
  {rest remaining : List BackgroundCommandOutputChunk}

theorem limitedChunksFrom_cons (inRange : OutputInRange output)
    (requested : ∀ cursor ∈ requestedCursor, cursor ≤ usizeMax)
    (room : Json.sizeOfValues shown ≤ toolOutputSoftByteLimit) (small : ChunkInRange chunk) :
    (PageFits snapshot output requestedCursor shown chunk rest →
      limitedChunksFrom (responseBase snapshot output requestedCursor) shown cursor
          (chunk :: rest) =
        limitedChunksFrom (responseBase snapshot output requestedCursor)
          (shown ++ [chunkJson chunk]) chunk.cursor rest) ∧
    (¬PageFits snapshot output requestedCursor shown chunk rest →
      limitedChunksFrom (responseBase snapshot output requestedCursor) shown cursor
          (chunk :: rest) = .ok (shown, cursor)) := by
  have values : Json.sizeOfValues (shown ++ [chunkJson chunk]) ≤ 51200 + 24701 := by
    have one := chunkJson_size small.1 small.2
    have limit : toolOutputSoftByteLimit = 51200 := rfl
    rw [Json.sizeOfValues_append, Json.sizeOfValues, Json.sizeOfValues]
    omega
  have size := (@pageExecution_size snapshot output requestedCursor inRange requested
    (shown ++ [chunkJson chunk]) chunk.cursor small.2 (!rest.isEmpty)).2
  have measured : measureToolExecution (pageExecution snapshot output requestedCursor
      (shown ++ [chunkJson chunk]) chunk.cursor (!rest.isEmpty)) =
      .ok ⟨(pageExecution snapshot output requestedCursor (shown ++ [chunkJson chunk])
        chunk.cursor (!rest.isEmpty)).toJson.size,
        (pageExecution snapshot output requestedCursor (shown ++ [chunkJson chunk])
        chunk.cursor (!rest.isEmpty)).output.textLines⟩ := by
    have fits : (pageExecution snapshot output requestedCursor (shown ++ [chunkJson chunk])
        chunk.cursor (!rest.isEmpty)).toJson.size ≤ usizeMax := by
      have wide : 1300 + (51200 + 24701) ≤ usizeMax := by decide
      omega
    rw [measureToolExecution, serializedJsonSize, if_pos fits]
    rfl
  have unfolded : limitedChunksFrom (responseBase snapshot output requestedCursor) shown cursor
      (chunk :: rest) =
      if toolOutputSoftByteLimit < (pageExecution snapshot output requestedCursor
          (shown ++ [chunkJson chunk]) chunk.cursor (!rest.isEmpty)).toJson.size ∨
        toolOutputSoftLineLimit < (pageExecution snapshot output requestedCursor
          (shown ++ [chunkJson chunk]) chunk.cursor (!rest.isEmpty)).output.textLines then
        .ok (shown, cursor)
      else limitedChunksFrom (responseBase snapshot output requestedCursor)
        (shown ++ [chunkJson chunk]) chunk.cursor rest := by
    have same : (⟨.object (responseBase snapshot output requestedCursor ++
        pageFields snapshot.commandId (shown ++ [chunkJson chunk]) chunk.cursor (!rest.isEmpty)),
        false⟩ : ToolExecution) = pageExecution snapshot output requestedCursor
          (shown ++ [chunkJson chunk]) chunk.cursor (!rest.isEmpty) := rfl
    rw [limitedChunksFrom, commandOutputPage_eq]
    dsimp only [bind, Except.bind]
    rw [same, measured]
  rw [unfolded]
  refine ⟨fun fits => if_neg ?_, fun exceeds => if_pos ?_⟩
  · exact fun either => either.elim (Nat.not_lt_of_le fits.1) (Nat.not_lt_of_le fits.2)
  · rcases not_and_or.mp exceeds with bytes | lines
    · exact .inl (Nat.lt_of_not_le bytes)
    · exact .inr (Nat.lt_of_not_le lines)

/-- A page takes some of the remaining chunks in order. -/
theorem limitedChunksFrom_spec (inRange : OutputInRange output)
    (requested : ∀ cursor ∈ requestedCursor, cursor ≤ usizeMax)
    (room : Json.sizeOfValues shown ≤ toolOutputSoftByteLimit)
    (small : ∀ chunk ∈ remaining, ChunkInRange chunk) :
    ∃ taken rest, remaining = taken ++ rest ∧
      limitedChunksFrom (responseBase snapshot output requestedCursor) shown cursor remaining =
        .ok (shown ++ taken.map chunkJson, cursorAfter cursor taken) := by
  induction remaining generalizing shown cursor with
  | nil => exact ⟨[], [], rfl, by rw [List.map_nil, List.append_nil]; rfl⟩
  | cons chunk rest ih =>
    obtain ⟨accepts, refuses⟩ := @limitedChunksFrom_cons snapshot output requestedCursor shown
      cursor chunk rest inRange requested room (small chunk List.mem_cons_self)
    by_cases fits : PageFits snapshot output requestedCursor shown chunk rest
    · have room' : Json.sizeOfValues (shown ++ [chunkJson chunk]) ≤ toolOutputSoftByteLimit :=
        (pageExecution_size inRange requested _ (small chunk List.mem_cons_self).2 _).1.trans fits.1
      obtain ⟨taken, left, split, result⟩ := @ih (shown ++ [chunkJson chunk]) chunk.cursor room'
        fun other mem => small other (List.mem_cons_of_mem _ mem)
      refine ⟨chunk :: taken, left, by rw [split]; rfl, ?_⟩
      rw [accepts fits, result, List.append_assoc, List.map_cons, List.singleton_append]
      congr 2
      cases taken with
      | nil => rfl
      | cons => rfl
    · exact ⟨[], chunk :: rest, rfl, by rw [refuses fits, List.map_nil, List.append_nil]; rfl⟩

/-- The first chunk of a page is accepted exactly if it fits a page of its own. -/
theorem pageFits_first (inRange : OutputInRange output)
    (requested : ∀ cursor ∈ requestedCursor, cursor ≤ usizeMax) (small : ChunkInRange chunk) :
    PageFits snapshot output requestedCursor [] chunk rest ↔
      ChunkFits snapshot rest.isEmpty chunk := by
  have one := chunkJson_size small.1 small.2
  have size := (@pageExecution_size snapshot output requestedCursor inRange requested
    [chunkJson chunk] chunk.cursor small.2 (!rest.isEmpty)).2
  have limit : toolOutputSoftByteLimit = 51200 := rfl
  rw [Json.sizeOfValues, Json.sizeOfValues] at size
  rw [PageFits, List.nil_append, pageExecution_lines, ChunkFits]
  have bytes : (pageExecution snapshot output requestedCursor [chunkJson chunk] chunk.cursor
      (!rest.isEmpty)).toJson.size ≤ toolOutputSoftByteLimit := by omega
  rw [and_iff_right bytes]
  cases rest.isEmpty <;> exact Iff.rfl

end Pages

end Response

/-! ## The client -/

section Client

variable {snapshot : BackgroundCommandSnapshot} {ring : OutputRingBuffer} {cursor : Option Nat}

/-- The retained chunks after a cursor, all of them without one. -/
def chunksAfter (ring : OutputRingBuffer) (cursor : Option Nat) :
    List BackgroundCommandOutputChunk :=
  ring.chunks.filter fun chunk => cursor.all (· < chunk.cursor)

/-- A page as the client reads it. -/
structure PageShows (page : Json) (chunks : List Json) (nextCursor : Nat) (hasMore : Bool) :
    Prop where
  chunks : pageChunks page = some chunks
  nextCursor : pageNextCursor page = some nextCursor
  hasMore : pageHasMore page = hasMore

theorem pageFields_shows {base : JsonMap} {processId : Text} {chunks : List Json}
    {nextCursor : Nat} {hasMore : Bool}
    (absent : ∀ key ∈ ["chunks", "nextCursor", "hasMore"], key ∉ base.map Prod.fst)
    (small : nextCursor ≤ usizeMax) :
    PageShows (.object (base ++ pageFields processId chunks nextCursor hasMore)) chunks nextCursor
      hasMore := by
  have get : ∀ key ∈ ["chunks", "nextCursor", "hasMore"],
      (Json.object (base ++ pageFields processId chunks nextCursor hasMore)).get key =
        (Json.object (pageFields processId chunks nextCursor hasMore)).get key := by
    intro key mem
    rw [Json.get_append, Json.get_eq_none (absent key mem), Option.none_or]
  have chunksField := get "chunks" (by decide)
  have cursorField := get "nextCursor" (by decide)
  have moreField := get "hasMore" (by decide)
  refine ⟨?_, ?_, ?_⟩
  · rw [pageChunks, chunksField]
    rfl
  · rw [pageNextCursor, cursorField]
    change asU64 (jsonNat nextCursor) = _
    rw [jsonNat, asU64, if_pos ⟨Int.natCast_nonneg _, Int.ofNat_le.mpr small⟩, Int.toNat_natCast]
  · rw [pageHasMore, flagIs, moreField]
    change (hasMore == true) = _
    exact beq_true hasMore

theorem responseBase_keys (output : BackgroundCommandOutput) (requestedCursor : Option Nat) :
    (responseBase snapshot output requestedCursor).map Prod.fst =
      ["processId", "pid", "status", "startedAt", "endedAt", "exitCode", "success",
        "terminationReason", "fromCursor", "availableFromCursor", "cursorExpired",
        "retainedOutputBytes", "outputTruncated"] := rfl

theorem OutputRingBuffer.Cut.chunkInRange (cut : ring.Cut) :
    ∀ chunk ∈ ring.chunks, ChunkInRange chunk := by
  intro chunk mem
  obtain ⟨first, -, numbered, last⟩ := cut.cursors
  have bound := (numbered.mem mem).2
  have limit := cut.limit
  exact ⟨cut.small chunk mem, by omega⟩

theorem OutputRingBuffer.Cut.outputInRange (cut : ring.Cut) :
    OutputInRange (ring.readAfter snapshot.commandId cursor) := by
  refine ⟨cut.limit, fun earliest mem => ?_⟩
  obtain ⟨chunk, front, rfl⟩ := Option.map_eq_some_iff.mp mem
  exact (cut.chunkInRange chunk (List.mem_of_mem_head? front)).2

/-- What a page of a buffer shows: a front part of the chunks after the cursor, which is not empty
exactly if the first of them fits a page of its own. -/
theorem getCommandOutput_spec (cut : ring.Cut)
    (inRange : ∀ requested ∈ cursor, requested ≤ usizeMax) :
    ∃ page taken rest, chunksAfter ring cursor = taken ++ rest ∧
      getCommandOutput snapshot ring cursor = .ok page ∧
      PageShows page (taken.map chunkJson)
        (cursorAfter (cursorBeforeOutput (ring.readAfter snapshot.commandId cursor) cursor) taken)
        (!rest.isEmpty) ∧
      ∀ chunk tail, chunksAfter ring cursor = chunk :: tail →
        (taken ≠ [] ↔ ChunkFits snapshot tail.isEmpty chunk) := by
  have outRange := @OutputRingBuffer.Cut.outputInRange snapshot ring cursor cut
  have small : ∀ chunk ∈ chunksAfter ring cursor, ChunkInRange chunk := fun chunk mem =>
    cut.chunkInRange chunk (List.mem_of_mem_filter mem)
  obtain ⟨taken, rest, split, took⟩ := @limitedChunksFrom_spec snapshot
    (ring.readAfter snapshot.commandId cursor) cursor []
    (cursorBeforeOutput (ring.readAfter snapshot.commandId cursor) cursor)
    (chunksAfter ring cursor) outRange inRange (Nat.zero_le _) small
  rw [List.nil_append] at took
  have more : decide ((taken.map chunkJson).length < (chunksAfter ring cursor).length) =
      !rest.isEmpty := by
    rw [split, List.length_map, List.length_append]
    cases rest with
    | nil => simp
    | cons => simp
  have limited : limitedChunks (responseBase snapshot (ring.readAfter snapshot.commandId cursor)
      cursor) (ring.readAfter snapshot.commandId cursor)
      (cursorBeforeOutput (ring.readAfter snapshot.commandId cursor) cursor) =
      .ok (taken.map chunkJson,
        cursorAfter (cursorBeforeOutput (ring.readAfter snapshot.commandId cursor) cursor) taken,
        !rest.isEmpty) := by
    rw [← more, limitedChunks, show (ring.readAfter snapshot.commandId cursor).chunks =
      chunksAfter ring cursor from rfl, took]
    rfl
  have bounded : cursorAfter
      (cursorBeforeOutput (ring.readAfter snapshot.commandId cursor) cursor) taken ≤ usizeMax := by
    unfold cursorAfter
    cases last : taken.getLast? with
    | none =>
      change cursorBeforeOutput _ _ ≤ _
      unfold cursorBeforeOutput
      cases cursor with
      | some requested => exact inRange requested rfl
      | none =>
        cases earliest : (ring.readAfter snapshot.commandId none).earliestCursor with
        | none => exact (Nat.sub_le _ _).trans outRange.1
        | some first => exact (Nat.sub_le _ _).trans (outRange.2 first earliest)
    | some chunk =>
      exact (small chunk (split ▸ List.mem_append_left _ (List.mem_of_getLast? last))).2
  have shows := @pageFields_shows (responseBase snapshot
    (ring.readAfter snapshot.commandId cursor) cursor) snapshot.commandId (taken.map chunkJson) _
    (!rest.isEmpty) (by rw [responseBase_keys]; decide) bounded
  refine ⟨_, taken, rest, split, ?_, shows, fun chunk tail front => ?_⟩
  · rw [getCommandOutput, commandOutputResponse, limited]
    exact commandOutputPage_eq _ _ _
  · have inChunk := small chunk (front ▸ List.mem_cons_self)
    obtain ⟨accepts, refuses⟩ := @limitedChunksFrom_cons snapshot
      (ring.readAfter snapshot.commandId cursor) cursor []
      (cursorBeforeOutput (ring.readAfter snapshot.commandId cursor) cursor) chunk tail outRange
      inRange (Nat.zero_le _) inChunk
    rw [← pageFits_first outRange inRange inChunk]
    rw [front] at took
    constructor
    · intro some_
      by_contra exceeds
      rw [refuses exceeds, Except.ok.injEq, Prod.mk.injEq] at took
      exact some_ (List.map_eq_nil_iff.mp took.1.symm)
    · rintro fits rfl
      obtain ⟨taken', rest', -, took'⟩ := @limitedChunksFrom_spec snapshot
        (ring.readAfter snapshot.commandId cursor) cursor [chunkJson chunk] chunk.cursor tail
        outRange inRange ((pageExecution_size outRange inRange _ inChunk.2 _).1.trans fits.1)
        fun other mem => small other (front ▸ List.mem_cons_of_mem _ mem)
      rw [accepts fits] at took
      have same := took.symm.trans took'
      rw [Except.ok.injEq, Prod.mk.injEq] at same
      cases same.1

/-- The chunks behind a front part are those after its last cursor. -/
theorem OutputRingBuffer.Cut.chunksAfter_eq (cut : ring.Cut)
    {front later : List BackgroundCommandOutputChunk} (split : ring.chunks = front ++ later) :
    ∃ first, 0 < first ∧ Numbered (·.cursor) first (front ++ later) ∧
      first + (front ++ later).length = ring.nextCursor + 1 ∧
      ∀ seen, seen + 1 = first + front.length → chunksAfter ring (some seen) = later := by
  obtain ⟨first, positive, numbered, last⟩ := cut.cursors
  rw [split] at numbered last
  refine ⟨first, positive, numbered, last, fun seen here => ?_⟩
  change ring.chunks.filter (fun chunk => seen < chunk.cursor) = later
  rw [split, numbered.filter_after, show seen + 1 - first = front.length by omega, List.drop_left]

/-- What `get_command_output` owes a client of a buffer: progress of every page, and a run over
the pages that ends with each chunk after the first cursor once and in order. -/
structure PagesProgress (snapshot : BackgroundCommandSnapshot) (ring : OutputRingBuffer) :
    Prop where
  progress : ∀ cursor : Option UInt64, chunksAfter ring (cursor.map UInt64.toNat) ≠ [] →
    ∃ page taken next hasMore,
      getCommandOutput snapshot ring (cursor.map UInt64.toNat) = .ok page ∧
      PageShows page (taken.map chunkJson) next hasMore ∧ taken ≠ [] ∧
      taken <+: chunksAfter ring (cursor.map UInt64.toNat) ∧
      ∀ requested ∈ cursor, requested.toNat < next
  finishes : ∀ cursor : Option UInt64, ∃ calls,
    followPages snapshot ring calls (cursor.map UInt64.toNat) =
      some ((chunksAfter ring (cursor.map UInt64.toNat)).map chunkJson)

theorem chunksAfter_suffix (cut : ring.Cut) (cursor : Option Nat) :
    chunksAfter ring cursor <:+ ring.chunks := by
  cases cursor with
  | none =>
    have all : chunksAfter ring none = ring.chunks := List.filter_eq_self.mpr fun _ _ => rfl
    exact all ▸ List.suffix_refl _
  | some seen =>
    obtain ⟨first, -, numbered, -⟩ := cut.cursors
    have dropped : chunksAfter ring (some seen) = ring.chunks.drop (seen + 1 - first) :=
      numbered.filter_after seen
    rw [dropped]
    exact List.drop_suffix _ _

/-- The last retained chunk carries the last cursor. -/
theorem OutputRingBuffer.Cut.isLast (cut : ring.Cut)
    {front tail : List BackgroundCommandOutputChunk} {chunk : BackgroundCommandOutputChunk}
    (split : ring.chunks = front ++ chunk :: tail) :
    tail.isEmpty = decide (chunk.cursor = ring.nextCursor) := by
  obtain ⟨first, -, numbered, last, -⟩ := cut.chunksAfter_eq split
  have here := (numbered_cons.mp (numbered_append.mp numbered).2).1
  rw [List.length_append, List.length_cons] at last
  cases tail with
  | nil => exact (decide_eq_true (by rw [List.length_nil] at last; omega)).symm
  | cons other rest => exact (decide_eq_false (by rw [List.length_cons] at last; omega)).symm

/-- The chunks after the last cursor of a page are those that were not on it. -/
theorem chunksAfter_cursorAfter (cut : ring.Cut) {before : Nat}
    {taken rest : List BackgroundCommandOutputChunk}
    (split : chunksAfter ring cursor = taken ++ rest) (some_ : taken ≠ []) :
    chunksAfter ring (some (cursorAfter before taken)) = rest := by
  obtain ⟨gone, all⟩ := chunksAfter_suffix cut cursor
  obtain ⟨shown, last, rfl⟩ : ∃ shown last, taken = shown ++ [last] :=
    ⟨taken.dropLast, taken.getLast some_, (List.dropLast_append_getLast some_).symm⟩
  have whole : ring.chunks = (gone ++ shown ++ [last]) ++ rest := by
    rw [← all, split, List.append_assoc, List.append_assoc, List.append_assoc]
  obtain ⟨first, positive, numbered, -, after⟩ := cut.chunksAfter_eq whole
  have here : last.cursor = first + (gone ++ shown).length := by
    rw [List.append_assoc, numbered_append] at numbered
    exact (numbered_cons.mp numbered.2).1
  have cursor_eq : cursorAfter before (shown ++ [last]) = last.cursor := by
    rw [cursorAfter, List.getLast?_concat]
    rfl
  have count : (gone ++ shown ++ [last]).length = (gone ++ shown).length + 1 :=
    List.length_append
  rw [cursor_eq]
  exact after last.cursor (by rw [here, count, Nat.add_assoc])

/-- While every retained chunk fits a page, a client gets all chunks after its cursor. -/
theorem followPages_complete (cut : ring.Cut)
    (fits : ∀ chunk ∈ ring.chunks,
      ChunkFits snapshot (decide (chunk.cursor = ring.nextCursor)) chunk)
    (inRange : ∀ requested ∈ cursor, requested ≤ usizeMax) :
    ∃ calls, followPages snapshot ring calls cursor =
      some ((chunksAfter ring cursor).map chunkJson) := by
  induction count : (chunksAfter ring cursor).length using Nat.strong_induction_on
    generalizing cursor with
  | _ count ih =>
  subst count
  obtain ⟨page, taken, rest, split, answered, shows, first⟩ :=
    @getCommandOutput_spec snapshot ring cursor cut inRange
  cases rest with
  | nil =>
    refine ⟨1, ?_⟩
    simp only [followPages, answered, shows.chunks, shows.hasMore]
    rw [split, List.append_nil]
    rfl
  | cons next tail =>
    have some_ : taken ≠ [] := by
      cases after : chunksAfter ring cursor with
      | nil => rw [after] at split; cases taken <;> cases split
      | cons chunk later =>
        refine (first chunk later after).mpr ?_
        obtain ⟨gone, all⟩ := chunksAfter_suffix cut cursor
        rw [after] at all
        rw [cut.isLast all.symm]
        exact fits chunk (all ▸ List.mem_append_right _ List.mem_cons_self)
    have after := @chunksAfter_cursorAfter ring cursor cut
      (cursorBeforeOutput (ring.readAfter snapshot.commandId cursor) cursor) taken (next :: tail)
      split some_
    have bounded : cursorAfter
        (cursorBeforeOutput (ring.readAfter snapshot.commandId cursor) cursor) taken ≤
          usizeMax := by
      rw [cursorAfter, List.getLast?_eq_some_getLast some_]
      exact (cut.chunkInRange _ ((chunksAfter_suffix cut cursor).subset
        (split ▸ List.mem_append_left _ (List.getLast_mem some_)))).2
    have shorter : (next :: tail).length < (chunksAfter ring cursor).length := by
      have positive := List.length_pos_iff.mpr some_
      rw [split, List.length_append]
      omega
    rw [← after] at shorter
    obtain ⟨calls, rest_⟩ := ih _ shorter (fun requested mem => Option.mem_some.mp mem ▸ bounded) rfl
    refine ⟨calls + 1, ?_⟩
    simp only [followPages, answered, shows.chunks, shows.hasMore, shows.nextCursor]
    simp only [Option.bind_eq_bind, Option.bind_some, List.isEmpty_cons, Bool.not_false, if_true,
      rest_, after]
    rw [split, List.map_append]
    rfl

/-- A chunk that is first after some cursor is on the page of that cursor only if it fits. -/
theorem chunkFits_of_progress (cut : ring.Cut) (pages : PagesProgress snapshot ring)
    {chunk : BackgroundCommandOutputChunk} (mem : chunk ∈ ring.chunks) :
    ChunkFits snapshot (decide (chunk.cursor = ring.nextCursor)) chunk := by
  obtain ⟨front, tail, split⟩ := List.append_of_mem mem
  obtain ⟨first, positive, numbered, last, after⟩ := cut.chunksAfter_eq split
  have limit := cut.limit
  have inside : first + front.length - 1 < 2 ^ 64 := by
    rw [List.length_append, List.length_cons] at last
    have bound : usizeMax < 2 ^ 64 := by decide
    omega
  have seen : (some (UInt64.ofNat (first + front.length - 1))).map UInt64.toNat =
      some (first + front.length - 1) :=
    congrArg some (UInt64.toNat_ofNat_of_lt' inside)
  have remaining := after (first + front.length - 1) (by omega)
  obtain ⟨page, shown, next, hasMore, answered, shows, some_, -⟩ :=
    pages.progress (some (UInt64.ofNat (first + front.length - 1)))
      (by rw [seen, remaining]; exact List.cons_ne_nil _ _)
  rw [seen] at answered
  obtain ⟨page', taken, rest, -, answered', shows', fits⟩ := @getCommandOutput_spec snapshot ring
    (some (first + front.length - 1)) cut (by
      rintro requested mem
      obtain rfl := Option.mem_some.mp mem
      have bound : 2 ^ 64 = usizeMax + 1 := by decide
      omega)
  obtain rfl : page = page' := Except.ok.inj (answered.symm.trans answered')
  have same := Option.some.inj (shows.chunks.symm.trans shows'.chunks)
  rw [← cut.isLast split]
  refine (fits chunk tail remaining).mp fun none_ => some_ ?_
  rw [none_] at same
  exact List.map_eq_nil_iff.mp same

/-- While every retained chunk fits a page, every page makes progress. -/
theorem progress_of_chunksFit (cut : ring.Cut)
    (fits : ∀ chunk ∈ ring.chunks,
      ChunkFits snapshot (decide (chunk.cursor = ring.nextCursor)) chunk) :
    PagesProgress snapshot ring where
  progress cursor unread := by
    have inRange : ∀ requested ∈ cursor.map UInt64.toNat, requested ≤ usizeMax := by
      intro requested mem
      obtain ⟨value, -, rfl⟩ := Option.map_eq_some_iff.mp mem
      exact Nat.le_sub_one_of_lt value.toNat_lt
    obtain ⟨page, taken, rest, split, answered, shows, first⟩ :=
      @getCommandOutput_spec snapshot ring (cursor.map UInt64.toNat) cut inRange
    obtain ⟨chunk, tail, after⟩ := List.exists_cons_of_ne_nil unread
    obtain ⟨gone, all⟩ := chunksAfter_suffix cut (cursor.map UInt64.toNat)
    have some_ : taken ≠ [] := by
      refine (first chunk tail after).mpr ?_
      rw [after] at all
      rw [cut.isLast all.symm]
      exact fits chunk (all ▸ List.mem_append_right _ List.mem_cons_self)
    refine ⟨page, taken, _, _, answered, shows, some_, ⟨rest, split.symm⟩, ?_⟩
    rintro requested rfl
    rw [cursorAfter, List.getLast?_eq_some_getLast some_]
    have mem : taken.getLast some_ ∈ chunksAfter ring (some requested.toNat) :=
      split ▸ List.mem_append_left _ (List.getLast_mem some_)
    exact of_decide_eq_true (List.mem_filter.mp mem).2
  finishes cursor := followPages_complete cut fits fun requested mem => by
    obtain ⟨value, -, rfl⟩ := Option.map_eq_some_iff.mp mem
    exact Nat.le_sub_one_of_lt value.toNat_lt

end Client

/-- For every content that appends can produce, pages make progress from every cursor, and a client
that follows them gets each retained chunk once and in order, exactly if each retained chunk fits
a page of its own. -/
theorem pages_progress_iff_chunks_fit (snapshot : BackgroundCommandSnapshot) (maxBytes : Nat)
    (writes : List OutputWrite) :
    PagesProgress snapshot (produced maxBytes writes) ↔
      ∀ chunk ∈ (produced maxBytes writes).chunks,
        ChunkFits snapshot (decide (chunk.cursor = (produced maxBytes writes).nextCursor)) chunk :=
  ⟨fun pages _ mem => chunkFits_of_progress (produced_cut maxBytes writes) pages mem,
    progress_of_chunksFit (produced_cut maxBytes writes)⟩

/-! ## A chunk of newlines -/

/-- A running command. -/
def runningCommand : BackgroundCommandSnapshot where
  commandSequence := 1
  pid := 100
  status := .running
  startedAt := 0
  endedAt := none
  exitCode := none
  termination := none
  retainedOutputBytes := 1999

theorem decodeLossy_feeds (count : Nat) :
    fromUtf8Lossy (List.replicate count lineFeed) = List.replicate count '\n' := by
  rw [fromUtf8Lossy, List.length_replicate]
  induction count with
  | zero => rfl
  | succ count ih =>
    rw [List.replicate_succ, List.replicate_succ, ← ih]
    rfl

/-- As many newlines as a chunk may hold are one chunk. -/
theorem outputChunkEnd_feeds : outputChunkEnd (List.replicate 1999 lineFeed) = 1999 := by
  have limit : min (List.replicate 1999 lineFeed).length maxOutputChunkBytes = 1999 := by
    rw [List.length_replicate]
    rfl
  have uncut : newlineCutoff 0 0 (List.replicate 1999 lineFeed) = none := by
    cases cut : newlineCutoff 0 0 (List.replicate 1999 lineFeed) with
    | none => rfl
    | some stop =>
      obtain ⟨-, high, count⟩ := newlineCutoff_some (Nat.zero_le _) cut
      rw [List.length_replicate] at high
      have few := List.count_le_length
        (l := (List.replicate 1999 lineFeed).take (stop - 0)) (a := lineFeed)
      rw [List.length_take] at few
      have cap : maxOutputChunkNewlines = 1999 := rfl
      omega
  rw [outputChunkEnd, limit, List.take_of_length_le (by rw [List.length_replicate]), uncut, Option.getD_none]

theorem appendRemaining_nil (stream : BackgroundCommandOutputStream) (maxBytes rounds : Nat)
    (ring : OutputRingBuffer) :
    OutputRingBuffer.appendRemaining stream maxBytes rounds [] ring = (ring, .ok ()) := by
  cases rounds <;> rfl

/-- One append that needs no cut is retained as one chunk. -/
theorem produced_single {maxBytes : Nat} {bytes : List UInt8}
    (stream : BackgroundCommandOutputStream) (filled : bytes ≠ [])
    (uncut : outputChunkEnd bytes = bytes.length) (short : bytes.length ≤ maxBytes) :
    produced maxBytes [⟨stream, bytes⟩] =
      ⟨[⟨1, stream, bytes⟩], saturatingAdd 0 bytes.length, 0, 1⟩ := by
  obtain ⟨rounds, length⟩ : ∃ rounds, bytes.length = rounds + 1 :=
    ⟨bytes.length - 1, by have := List.length_pos_iff.mpr filled; omega⟩
  have some_ : bytes.isEmpty = false := List.isEmpty_eq_false_iff.mpr filled
  have whole : bytes.take (outputChunkEnd bytes) = bytes := by rw [uncut, List.take_length]
  have nothing : bytes.drop (outputChunkEnd bytes) = [] := by rw [uncut, List.drop_length]
  have free : OutputRingBuffer.new.nextCursor ≠ usizeMax := by decide
  change (OutputRingBuffer.new.append stream bytes maxBytes).1 = _
  rw [OutputRingBuffer.append, some_, if_neg Bool.false_ne_true,
    if_neg (Nat.not_lt_of_le short), length, OutputRingBuffer.appendRemaining, some_,
    if_neg Bool.false_ne_true]
  dsimp only
  rw [whole, nothing, appendRemaining_nil]
  change (if OutputRingBuffer.new.nextCursor = usizeMax then _ else _ :
    OutputRingBuffer × Except BackgroundCommandError Unit).1 = _
  rw [if_neg free, ← length]
  rfl

/-- A buffer of one chunk that does not fit never shows it. -/
theorem single_chunk_never_paged {snapshot : BackgroundCommandSnapshot} {maxBytes : Nat}
    {bytes : List UInt8} {stream : BackgroundCommandOutputStream} (filled : bytes ≠ [])
    (uncut : outputChunkEnd bytes = bytes.length) (short : bytes.length ≤ maxBytes)
    (exceeds : ¬ChunkFits snapshot true ⟨1, stream, bytes⟩) :
    ¬PagesProgress snapshot (produced maxBytes [⟨stream, bytes⟩]) := by
  intro pages
  have cut := produced_cut maxBytes [⟨stream, bytes⟩]
  rw [produced_single stream filled uncut short] at pages cut
  exact exceeds (chunkFits_of_progress cut pages List.mem_cons_self)

/-- A chunk of nearly as many lines as a page may have leaves no room for the other strings. -/
theorem not_chunkFits_of_lines {snapshot : BackgroundCommandSnapshot} {isLast : Bool}
    {chunk : BackgroundCommandOutputChunk} {lines : Nat}
    (counted : completeLineCount (fromUtf8Lossy chunk.bytes) = lines)
    (many : toolOutputSoftLineLimit < lines + 3) : ¬ChunkFits snapshot isLast chunk := by
  unfold ChunkFits
  omega

/-- A command that printed 1999 newlines and still runs. -/
theorem newline_chunk_never_paged :
    ¬PagesProgress runningCommand
      (produced (1024 * 1024) [⟨.stdout, List.replicate 1999 lineFeed⟩]) := by
  have length : (List.replicate 1999 lineFeed).length = 1999 := List.length_replicate
  have lines : completeLineCount (fromUtf8Lossy (List.replicate 1999 lineFeed)) = 1999 :=
    (congrArg completeLineCount (decodeLossy_feeds 1999)).trans
      (completeLineCount_feeds (by decide))
  refine single_chunk_never_paged (List.ne_nil_of_length_pos ?_)
    (outputChunkEnd_feeds.trans length.symm) ?_ ?_
  · rw [length]
    decide
  · rw [length]
    decide
  · exact not_chunkFits_of_lines lines (by decide)

end Foco.BackgroundCommand
