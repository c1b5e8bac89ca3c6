import Mathlib.Tactic.Common
import Foco.MachineIntegers
import Foco.NumberedLogs

/-!
The ring buffer that keeps the newest output of a background command. An append is trimmed
to the output limit, cut into chunks, and evicts old chunks from the front until the new
one fits; every chunk carries the next cursor. What the buffer holds is a tail of the log
of all chunks ever written, and the invariant says how that log, the counters and the
bytes handed in relate.
-/
namespace Foco.BackgroundCommand
open Foco.RustText Foco.Logs

/-! ## Limits and chunks -/

/-- Configurable bounds of a registry; the retention is in nanoseconds. -/
structure BackgroundCommandLimits where
  maxActivePerWorkspace : Nat
  maxOutputBytesPerCommand : Nat
  completedRetention : Nat

/-- `BackgroundCommandRegistry::with_limits`: the limits a registry works with. -/
def withLimits (limits : BackgroundCommandLimits) : BackgroundCommandLimits where
  maxActivePerWorkspace := max limits.maxActivePerWorkspace 1
  maxOutputBytesPerCommand := max limits.maxOutputBytesPerCommand 1
  completedRetention := limits.completedRetention

inductive BackgroundCommandOutputStream where
  | stdout
  | stderr
  deriving DecidableEq

/-- A retained output fragment. -/
structure BackgroundCommandOutputChunk where
  cursor : Nat
  stream : BackgroundCommandOutputStream
  bytes : List UInt8

/-- What a query for output returns. -/
structure BackgroundCommandOutput where
  commandId : Text
  chunks : List BackgroundCommandOutputChunk
  nextCursor : Nat
  earliestCursor : Option Nat
  cursorExpired : Bool
  outputTruncated : Bool

/-- The error an append can end with. -/
inductive BackgroundCommandError where
  | cursorExhausted

structure OutputRingBuffer where
  chunks : List BackgroundCommandOutputChunk
  retainedBytes : Nat
  droppedBytes : Nat
  nextCursor : Nat

def OutputRingBuffer.new : OutputRingBuffer := ⟨[], 0, 0, 0⟩

/-! ## Cutting an append into chunks -/

def maxOutputChunkBytes : Nat := 4 * 1024
def maxOutputChunkNewlines : Nat := 1999

/-- The byte of a line feed. -/
def lineFeed : UInt8 := 10

/-- The scan of `output_chunk_end`: where the newlines of a chunk become too many. -/
def newlineCutoff (index newlines : Nat) : List UInt8 → Option Nat
  | [] => none
  | byte :: rest =>
    if byte = lineFeed then
      if maxOutputChunkNewlines < newlines + 1 then some index
      else newlineCutoff (index + 1) (newlines + 1) rest
    else newlineCutoff (index + 1) newlines rest

/-- `output_chunk_end`. -/
def outputChunkEnd (bytes : List UInt8) : Nat :=
  let byteLimit := min bytes.length maxOutputChunkBytes
  (newlineCutoff 0 0 (bytes.take byteLimit)).getD byteLimit

theorem newlineCutoff_some {index newlines stop : Nat} {bytes : List UInt8}
    (few : newlines ≤ maxOutputChunkNewlines)
    (cut : newlineCutoff index newlines bytes = some stop) :
    index ≤ stop ∧ stop < index + bytes.length ∧
      (bytes.take (stop - index)).count lineFeed + newlines = maxOutputChunkNewlines := by
  induction bytes generalizing index newlines with
  | nil => cases cut
  | cons byte rest ih =>
    simp only [newlineCutoff] at cut
    split at cut
    · rename_i isFeed
      split at cut
      · injection cut with cut
        subst cut
        simp only [Nat.sub_self, List.take_zero, List.count_nil, List.length_cons]
        omega
      · obtain ⟨low, high, count⟩ := ih (by omega) cut
        rw [show stop - index = (stop - (index + 1)) + 1 by omega, List.take_succ_cons,
          List.count_cons, if_pos (by simpa using isFeed), List.length_cons]
        omega
    · rename_i notFeed
      obtain ⟨low, high, count⟩ := ih few cut
      rw [show stop - index = (stop - (index + 1)) + 1 by omega, List.take_succ_cons,
        List.count_cons, if_neg (by simpa using notFeed), List.length_cons]
      omega

theorem newlineCutoff_none {index newlines : Nat} {bytes : List UInt8}
    (few : newlines ≤ maxOutputChunkNewlines)
    (uncut : newlineCutoff index newlines bytes = none) :
    bytes.count lineFeed + newlines ≤ maxOutputChunkNewlines := by
  induction bytes generalizing index newlines with
  | nil => simpa using few
  | cons byte rest ih =>
    simp only [newlineCutoff] at uncut
    split at uncut
    · rename_i isFeed
      split at uncut
      · cases uncut
      · rw [List.count_cons, if_pos (by simpa using isFeed)]
        have count := ih (by omega) uncut
        omega
    · rename_i notFeed
      rw [List.count_cons, if_neg (by simpa using notFeed)]
      exact ih few uncut

/-- A chunk is not empty, is within the byte cap and holds no more newlines than the cap. -/
theorem outputChunkEnd_spec {bytes : List UInt8} (nonempty : bytes ≠ []) :
    0 < outputChunkEnd bytes ∧ outputChunkEnd bytes ≤ bytes.length ∧
      outputChunkEnd bytes ≤ maxOutputChunkBytes ∧
      (bytes.take (outputChunkEnd bytes)).count lineFeed ≤ maxOutputChunkNewlines := by
  have some_ := List.length_pos_iff.mpr nonempty
  have few : 0 ≤ maxOutputChunkNewlines := Nat.zero_le _
  unfold outputChunkEnd
  dsimp only
  cases cut : newlineCutoff 0 0 (bytes.take (min bytes.length maxOutputChunkBytes)) with
  | none =>
    have count := newlineCutoff_none few cut
    rw [Option.getD_none]
    refine ⟨?_, by omega, by omega, by omega⟩
    have : 0 < maxOutputChunkBytes := by decide
    omega
  | some stop =>
    obtain ⟨-, high, count⟩ := newlineCutoff_some few cut
    rw [Nat.sub_zero, List.take_take, Nat.zero_add] at *
    rw [List.length_take] at high
    rw [Nat.min_eq_left (by omega)] at count
    rw [Option.getD_some]
    refine ⟨?_, by omega, by omega, by omega⟩
    apply Nat.pos_of_ne_zero
    rintro rfl
    rw [List.take_zero, List.count_nil] at count
    exact absurd count (by decide)

/-! ## Appending and reading -/

/-- The eviction loop of `append` over the chunks of a buffer, oldest first. -/
def evict (incoming maxBytes nextCursor : Nat) :
    List BackgroundCommandOutputChunk → Nat → Nat → OutputRingBuffer
  | [], retained, dropped => ⟨[], retained, dropped, nextCursor⟩
  | evicted :: rest, retained, dropped =>
    if maxBytes < saturatingAdd retained incoming then
      evict incoming maxBytes nextCursor rest (retained - evicted.bytes.length)
        (saturatingAdd dropped evicted.bytes.length)
    else ⟨evicted :: rest, retained, dropped, nextCursor⟩

namespace OutputRingBuffer

/-- Evicts old chunks until `incoming` bytes fit. -/
def makeRoom (ring : OutputRingBuffer) (incoming maxBytes : Nat) : OutputRingBuffer :=
  evict incoming maxBytes ring.nextCursor ring.chunks ring.retainedBytes ring.droppedBytes

/-- Stores one chunk under the next cursor. -/
def pushBack (ring : OutputRingBuffer) (stream : BackgroundCommandOutputStream)
    (bytes : List UInt8) : OutputRingBuffer where
  chunks := ring.chunks ++ [⟨ring.nextCursor + 1, stream, bytes⟩]
  retainedBytes := saturatingAdd ring.retainedBytes bytes.length
  droppedBytes := ring.droppedBytes
  nextCursor := ring.nextCursor + 1

/-- The loop of `append` over the bytes that remain; each round takes at least one byte. -/
def appendRemaining (stream : BackgroundCommandOutputStream) (maxBytes : Nat) :
    Nat → List UInt8 → OutputRingBuffer → OutputRingBuffer × Except BackgroundCommandError Unit
  | 0, _, ring => (ring, .ok ())
  | rounds + 1, remaining, ring =>
    if remaining.isEmpty then (ring, .ok ())
    else
      let chunkEnd := outputChunkEnd remaining
      let chunkBytes := remaining.take chunkEnd
      let ring := ring.makeRoom chunkBytes.length maxBytes
      if ring.nextCursor = usizeMax then (ring, .error .cursorExhausted)
      else
        appendRemaining stream maxBytes rounds (remaining.drop chunkEnd)
          (ring.pushBack stream chunkBytes)

/-- `OutputRingBuffer::append`: the buffer afterwards and the result. -/
def append (ring : OutputRingBuffer) (stream : BackgroundCommandOutputStream)
    (bytes : List UInt8) (maxBytes : Nat) :
    OutputRingBuffer × Except BackgroundCommandError Unit :=
  if bytes.isEmpty then (ring, .ok ())
  else if maxBytes < bytes.length then
    let retainedSlice := bytes.drop (bytes.length - maxBytes)
    appendRemaining stream maxBytes retainedSlice.length retainedSlice
      { ring with droppedBytes := saturatingAdd ring.droppedBytes (bytes.length - maxBytes) }
  else appendRemaining stream maxBytes bytes.length bytes ring

/-- `OutputRingBuffer::read_after`. -/
def readAfter (ring : OutputRingBuffer) (commandId : Text) (afterCursor : Option Nat) :
    BackgroundCommandOutput :=
  let earliestCursor := ring.chunks.head?.map (·.cursor)
  { commandId
    chunks := ring.chunks.filter fun chunk => afterCursor.all (· < chunk.cursor)
    nextCursor := ring.nextCursor
    earliestCursor
    cursorExpired := afterCursor.any fun cursor =>
      decide (0 < ring.droppedBytes) && earliestCursor.any fun earliest => cursor < earliest - 1
    outputTruncated := decide (0 < ring.droppedBytes) }

end OutputRingBuffer

/-! ## The log behind the buffer -/

/-- The bytes of some chunks. -/
def byteCount (chunks : List BackgroundCommandOutputChunk) : Nat :=
  (chunks.map fun chunk => chunk.bytes.length).sum

@[simp] theorem byteCount_nil : byteCount [] = 0 := rfl

@[simp] theorem byteCount_cons (chunk : BackgroundCommandOutputChunk)
    (chunks : List BackgroundCommandOutputChunk) :
    byteCount (chunk :: chunks) = chunk.bytes.length + byteCount chunks := by
  simp [byteCount]

@[simp] theorem byteCount_append (front back : List BackgroundCommandOutputChunk) :
    byteCount (front ++ back) = byteCount front + byteCount back := by
  simp [byteCount]

/-- A log of chunks that are not empty has at least as many bytes as chunks. -/
theorem length_le_byteCount {chunks : List BackgroundCommandOutputChunk}
    (filled : ∀ chunk ∈ chunks, chunk.bytes ≠ []) : chunks.length ≤ byteCount chunks := by
  induction chunks with
  | nil => simp
  | cons chunk chunks ih =>
    have here := List.length_pos_iff.mpr (filled chunk List.mem_cons_self)
    have rest := ih fun other mem => filled other (List.mem_cons_of_mem _ mem)
    rw [List.length_cons, byteCount_cons]
    omega

/-- The buffer holds the tail of a log of numbered chunks behind those that are gone, within
its limit, and its counters account for `appended` bytes. -/
structure OutputRingBuffer.Keeps (ring : OutputRingBuffer) (maxBytes appended : Nat)
    (gone : List BackgroundCommandOutputChunk) : Prop where
  numbered : Numbered (·.cursor) 1 (gone ++ ring.chunks)
  next : ring.nextCursor = (gone ++ ring.chunks).length
  filled : ∀ chunk ∈ gone ++ ring.chunks, chunk.bytes ≠ []
  retained : ring.retainedBytes = byteCount ring.chunks
  bounded : ring.retainedBytes ≤ maxBytes
  accounted : ring.retainedBytes + ring.droppedBytes = appended
  dropped : byteCount gone ≤ ring.droppedBytes
  newest : ring.chunks = [] → gone = []

theorem OutputRingBuffer.Keeps.new (maxBytes : Nat) :
    OutputRingBuffer.new.Keeps maxBytes 0 [] where
  numbered := .nil
  next := rfl
  filled := by simp [OutputRingBuffer.new]
  retained := rfl
  bounded := Nat.zero_le _
  accounted := rfl
  dropped := Nat.le_refl _
  newest := fun _ => rfl

/-- What eviction leaves: the same log, split so that the incoming bytes fit. -/
structure Evicted (ring : OutputRingBuffer) (incoming maxBytes appended : Nat)
    (gone log : List BackgroundCommandOutputChunk) : Prop where
  log_eq : gone ++ ring.chunks = log
  retained : ring.retainedBytes = byteCount ring.chunks
  room : ring.retainedBytes + incoming ≤ maxBytes
  accounted : ring.retainedBytes + ring.droppedBytes = appended
  dropped : byteCount gone ≤ ring.droppedBytes

@[simp] theorem evict_nextCursor (incoming maxBytes nextCursor : Nat)
    (chunks : List BackgroundCommandOutputChunk) (retained dropped : Nat) :
    (evict incoming maxBytes nextCursor chunks retained dropped).nextCursor = nextCursor := by
  induction chunks generalizing retained dropped with
  | nil => rfl
  | cons chunk rest ih =>
    simp only [evict]
    split
    · exact ih _ _
    · rfl

theorem evict_spec (nextCursor : Nat) {incoming maxBytes retained dropped : Nat}
    {gone chunks : List BackgroundCommandOutputChunk} (holds : retained = byteCount chunks)
    (lost : byteCount gone ≤ dropped) (fits : retained + dropped + incoming ≤ usizeMax)
    (small : incoming ≤ maxBytes) :
    ∃ gone', Evicted (evict incoming maxBytes nextCursor chunks retained dropped) incoming
      maxBytes (retained + dropped) gone' (gone ++ chunks) := by
  induction chunks generalizing gone retained dropped with
  | nil =>
    rw [byteCount_nil] at holds
    exact ⟨gone, rfl, holds, by simp only [evict]; omega, rfl, lost⟩
  | cons chunk rest ih =>
    rw [byteCount_cons] at holds
    simp only [evict, saturatingAdd_eq (show retained + incoming ≤ usizeMax by omega)]
    split
    · rw [saturatingAdd_eq (by omega)]
      have lost' : byteCount (gone ++ [chunk]) ≤ dropped + chunk.bytes.length := by
        simpa using lost
      have holds' : retained - chunk.bytes.length = byteCount rest := by omega
      obtain ⟨gone', evicted⟩ := ih holds' lost' (by omega)
      rw [List.append_assoc, List.singleton_append] at evicted
      refine ⟨gone', { evicted with accounted := ?_ }⟩
      rw [evicted.accounted]
      omega
    · exact ⟨gone, rfl, by rw [byteCount_cons]; exact holds, by dsimp only; omega, rfl, lost⟩

variable {ring : OutputRingBuffer} {maxBytes appended : Nat}
  {gone : List BackgroundCommandOutputChunk}

/-- The cursors never run out before the byte counter does. -/
theorem OutputRingBuffer.Keeps.next_le (keeps : ring.Keeps maxBytes appended gone) :
    ring.nextCursor ≤ appended := by
  have cursors := length_le_byteCount keeps.filled
  have bytes := keeps.dropped
  have retained := keeps.retained
  have accounted := keeps.accounted
  rw [keeps.next]
  rw [byteCount_append] at cursors
  omega

/-- One round of the append loop: the chunk joins the log and the counters account for it. -/
theorem OutputRingBuffer.Keeps.push (keeps : ring.Keeps maxBytes appended gone)
    (stream : BackgroundCommandOutputStream) {bytes : List UInt8} (nonempty : bytes ≠ [])
    (small : bytes.length ≤ maxBytes) (fits : appended + bytes.length ≤ usizeMax) :
    ∃ gone', ((ring.makeRoom bytes.length maxBytes).pushBack stream bytes).Keeps maxBytes
        (appended + bytes.length) gone' ∧
      gone' ++ ((ring.makeRoom bytes.length maxBytes).pushBack stream bytes).chunks =
        gone ++ ring.chunks ++ [⟨ring.nextCursor + 1, stream, bytes⟩] := by
  obtain ⟨gone', room⟩ := evict_spec ring.nextCursor keeps.retained keeps.dropped
    (by rw [keeps.accounted]; exact fits) small
  have same : (ring.makeRoom bytes.length maxBytes).nextCursor = ring.nextCursor :=
    evict_nextCursor _ _ _ _ _ _
  have log : gone' ++ ((ring.makeRoom bytes.length maxBytes).pushBack stream bytes).chunks =
      gone ++ ring.chunks ++ [⟨ring.nextCursor + 1, stream, bytes⟩] := by
    rw [← room.log_eq, List.append_assoc]
    simp only [pushBack, same]
    rfl
  have accounted : (ring.makeRoom bytes.length maxBytes).retainedBytes +
      (ring.makeRoom bytes.length maxBytes).droppedBytes = appended :=
    room.accounted.trans keeps.accounted
  have counted : ((ring.makeRoom bytes.length maxBytes).pushBack stream bytes).retainedBytes =
      (ring.makeRoom bytes.length maxBytes).retainedBytes + bytes.length :=
    saturatingAdd_eq (by omega)
  refine ⟨gone', ⟨?_, ?_, ?_, ?_, ?_, ?_, room.dropped, ?_⟩, log⟩
  · rw [log]
    exact keeps.numbered.concat (by rw [← keeps.next, Nat.add_comm])
  · rw [log, List.length_append, ← keeps.next, List.length_singleton]
    exact congrArg (· + 1) same
  · rw [log]
    intro chunk mem
    rcases List.mem_append.mp mem with old | new
    · exact keeps.filled chunk old
    · obtain rfl := List.mem_singleton.mp new
      exact nonempty
  · have held : (ring.makeRoom bytes.length maxBytes).retainedBytes =
      byteCount (ring.makeRoom bytes.length maxBytes).chunks := room.retained
    rw [counted, held]
    simp only [pushBack, byteCount_append, byteCount_cons, byteCount_nil, Nat.add_zero]
  · rw [counted]
    exact room.room
  · rw [counted]
    simp only [pushBack]
    omega
  · simp [pushBack]

/-- The bytes of an append that survive trimming. -/
def retainedSlice (maxBytes : Nat) (bytes : List UInt8) : List UInt8 :=
  bytes.drop (bytes.length - maxBytes)

theorem retainedSlice_length (maxBytes : Nat) (bytes : List UInt8) :
    (retainedSlice maxBytes bytes).length = min bytes.length maxBytes := by
  rw [retainedSlice, List.length_drop]
  omega

theorem retainedSlice_eq {maxBytes : Nat} {bytes : List UInt8} (short : bytes.length ≤ maxBytes) :
    retainedSlice maxBytes bytes = bytes := by
  rw [retainedSlice, Nat.sub_eq_zero_of_le short, List.drop_zero]

/-- What an append does to the buffer and to the log: chunks of one stream join the log, and
together they hold the written bytes. -/
structure Appended (ring ring' : OutputRingBuffer) (maxBytes appended : Nat)
    (gone gone' new : List BackgroundCommandOutputChunk)
    (stream : BackgroundCommandOutputStream) (written : List UInt8) : Prop where
  keeps : ring'.Keeps maxBytes appended gone'
  log_eq : gone' ++ ring'.chunks = gone ++ ring.chunks ++ new
  stream_eq : ∀ chunk ∈ new, chunk.stream = stream
  bytes_eq : new.flatMap (·.bytes) = written

/-- The loop of `append` never fails while the bytes are counted exactly, and stores the bytes it
is given. -/
theorem appendRemaining_spec (stream : BackgroundCommandOutputStream) {rounds : Nat}
    {remaining : List UInt8} (keeps : ring.Keeps maxBytes appended gone)
    (enough : remaining.length ≤ rounds) (small : remaining.length ≤ maxBytes)
    (fits : appended + remaining.length ≤ usizeMax) :
    ∃ ring' gone' new,
      OutputRingBuffer.appendRemaining stream maxBytes rounds remaining ring = (ring', .ok ()) ∧
      Appended ring ring' maxBytes (appended + remaining.length) gone gone' new stream
        remaining := by
  induction rounds generalizing ring remaining appended gone with
  | zero =>
    obtain rfl : remaining = [] := List.eq_nil_of_length_eq_zero (Nat.le_zero.mp enough)
    exact ⟨ring, gone, [], rfl, keeps, by simp, by simp, rfl⟩
  | succ rounds ih =>
    by_cases done : remaining = []
    · subst done
      exact ⟨ring, gone, [], rfl, keeps, by simp, by simp, rfl⟩
    · obtain ⟨positive, within, -, -⟩ := outputChunkEnd_spec done
      have taken : (remaining.take (outputChunkEnd remaining)).length = outputChunkEnd remaining :=
        List.length_take_of_le within
      have left : (remaining.drop (outputChunkEnd remaining)).length =
          remaining.length - outputChunkEnd remaining := List.length_drop
      have nonempty : remaining.take (outputChunkEnd remaining) ≠ [] :=
        List.ne_nil_of_length_pos (by omega)
      obtain ⟨gone', kept, log⟩ := keeps.push stream nonempty (by omega) (by omega)
      have cursor : (ring.makeRoom (remaining.take (outputChunkEnd remaining)).length
          maxBytes).nextCursor = ring.nextCursor := evict_nextCursor _ _ _ _ _ _
      have free : ring.nextCursor ≠ usizeMax := by
        have low := keeps.next_le
        omega
      have enough' : (remaining.drop (outputChunkEnd remaining)).length ≤ rounds := by omega
      obtain ⟨ring', gone'', new, ran, result⟩ := ih kept enough' (by omega) (by omega)
      refine ⟨ring', gone'',
        ⟨ring.nextCursor + 1, stream, remaining.take (outputChunkEnd remaining)⟩ :: new,
        ?_, ?_, ?_, ?_, ?_⟩
      · simp only [OutputRingBuffer.appendRemaining, List.isEmpty_iff, done, cursor, free]
        exact ran
      · have total : appended + (remaining.take (outputChunkEnd remaining)).length +
            (remaining.drop (outputChunkEnd remaining)).length = appended + remaining.length := by
          omega
        exact total ▸ result.keeps
      · rw [result.log_eq, log, List.append_assoc, List.singleton_append]
      · intro chunk mem
        rcases List.mem_cons.mp mem with rfl | mem
        · rfl
        · exact result.stream_eq chunk mem
      · rw [List.flatMap_cons, result.bytes_eq, List.take_append_drop]

/-- An append stores the bytes that survive trimming and counts the others as dropped. -/
theorem append_spec (stream : BackgroundCommandOutputStream) (bytes : List UInt8)
    (keeps : ring.Keeps maxBytes appended gone)
    (fits : appended + bytes.length ≤ usizeMax) :
    ∃ ring' gone' new, ring.append stream bytes maxBytes = (ring', .ok ()) ∧
      Appended ring ring' maxBytes (appended + bytes.length) gone gone' new stream
        (retainedSlice maxBytes bytes) := by
  have trimmed := retainedSlice_length maxBytes bytes
  unfold OutputRingBuffer.append
  split
  · rename_i empty
    obtain rfl := List.isEmpty_iff.mp empty
    exact ⟨ring, gone, [], rfl, keeps, by simp, by simp, by simp [retainedSlice]⟩
  · split
    · rename_i long
      have counted : saturatingAdd ring.droppedBytes (bytes.length - maxBytes) =
          ring.droppedBytes + (bytes.length - maxBytes) := by
        have accounted := keeps.accounted
        exact saturatingAdd_eq (by omega)
      rw [counted]
      have kept : ({ ring with droppedBytes := ring.droppedBytes + (bytes.length - maxBytes) } :
          OutputRingBuffer).Keeps maxBytes (appended + (bytes.length - maxBytes)) gone :=
        { keeps with
          accounted := by rw [← keeps.accounted]; dsimp only; omega
          dropped := Nat.le_add_right_of_le keeps.dropped }
      obtain ⟨ring', gone', new, ran, result⟩ :=
        appendRemaining_spec stream kept (Nat.le_refl (retainedSlice maxBytes bytes).length)
          (by omega) (by omega)
      have total : appended + (bytes.length - maxBytes) + (retainedSlice maxBytes bytes).length =
          appended + bytes.length := by omega
      exact ⟨ring', gone', new, ran, total ▸ result.keeps, result.log_eq, result.stream_eq,
        result.bytes_eq⟩
    · rename_i short
      rw [retainedSlice_eq (Nat.le_of_not_lt short)]
      exact appendRemaining_spec stream keeps (Nat.le_refl _) (by omega) fits

end Foco.BackgroundCommand
