import Foco.OutputRing
import Foco.Runs

/-!
A reader that follows the output of a command with cursors while appends go on. Each read
names the cursor the read before it returned. Evicted chunks leave a gap in the cursors
that a read can see; bytes trimmed off an over-long append never had a cursor, so they
show only if that append also pushed out a chunk the reader had not seen.
-/
namespace Foco.BackgroundCommand
open Foco.Logs Foco.Runs

/-- Bytes handed to `append` for one stream, or held for it by a chunk. -/
structure OutputWrite where
  stream : BackgroundCommandOutputStream
  bytes : List UInt8
  deriving DecidableEq

/-- The content of a chunk. -/
def BackgroundCommandOutputChunk.write (chunk : BackgroundCommandOutputChunk) : OutputWrite :=
  ⟨chunk.stream, chunk.bytes⟩

/-- The bytes of one stream, in order. -/
def streamBytes (stream : BackgroundCommandOutputStream) (writes : List OutputWrite) :
    List UInt8 :=
  writes.flatMap fun write => if write.stream = stream then write.bytes else []

/-- How many bytes some writes hold. -/
def writtenBytes (writes : List OutputWrite) : Nat :=
  (writes.map fun write => write.bytes.length).sum

/-- A buffer, the reader that follows it and what was appended before and after its last read. -/
structure OutputFollow where
  ring : OutputRingBuffer
  seen : List OutputWrite
  unread : List OutputWrite
  cursor : Option Nat
  received : List BackgroundCommandOutputChunk
  expired : Bool

/-- An append, or a read with the cursor of the read before. -/
inductive FollowAction where
  | append (write : OutputWrite)
  | read

namespace OutputFollow

def new : OutputFollow := ⟨.new, [], [], none, [], false⟩

/-- All that was appended so far. -/
def appended (state : OutputFollow) : List OutputWrite := state.seen ++ state.unread

def append (maxBytes : Nat) (state : OutputFollow) (write : OutputWrite) : OutputFollow :=
  { state with
    ring := (state.ring.append write.stream write.bytes maxBytes).1
    unread := state.unread ++ [write] }

def read (state : OutputFollow) : OutputFollow :=
  let output := state.ring.readAfter [] state.cursor
  { state with
    seen := state.seen ++ state.unread
    unread := []
    cursor := some output.nextCursor
    received := state.received ++ output.chunks
    expired := state.expired || output.cursorExpired }

end OutputFollow

/-- Appends to a command's buffer and the reads of one reader, in any order. -/
def followMachine (limits : BackgroundCommandLimits) : Machine OutputFollow FollowAction where
  start := .new
  step state
    | .append write =>
      some (state.append (withLimits limits).maxOutputBytesPerCommand write)
    | .read => some state.read

/-- Between two reads, what is lost shows: it is not the case that the only bytes appended are
one append longer than the limit. -/
def LossShows (maxBytes : Nat) (unread : List OutputWrite) : Prop :=
  ∀ write, unread.filter (fun write => 0 < write.bytes.length) = [write] →
    write.bytes.length ≤ maxBytes

/-- A step after which the reader still has every byte or knows that it has not. A read without a
cursor cannot be told what it missed. -/
def InSight (maxBytes : Nat) (state : OutputFollow) : FollowAction → Prop
  | .append write => writtenBytes (state.appended ++ [write]) ≤ usizeMax
  | .read => state.expired = true ∨
      match state.cursor with
      | none => state.ring.droppedBytes = 0
      | some _ => LossShows maxBytes state.unread

instance (maxBytes : Nat) (unread : List OutputWrite) : Decidable (LossShows maxBytes unread) :=
  decidable_of_iff
    (∀ write ∈ unread, unread.filter (fun write => 0 < write.bytes.length) = [write] →
      write.bytes.length ≤ maxBytes)
    ⟨fun shows write alone =>
      have mem : write ∈ unread.filter (fun write => 0 < write.bytes.length) :=
        alone ▸ List.mem_singleton_self write
      shows write (List.mem_of_mem_filter mem) alone,
    fun shows write _ => shows write⟩

instance (maxBytes : Nat) (state : OutputFollow) :
    (action : FollowAction) → Decidable (InSight maxBytes state action)
  | .append write =>
    inferInstanceAs (Decidable (writtenBytes (state.appended ++ [write]) ≤ usizeMax))
  | .read =>
    match cursor : state.cursor with
    | none => decidable_of_iff (state.expired = true ∨ state.ring.droppedBytes = 0)
        (by simp [InSight, cursor])
    | some _ => decidable_of_iff (state.expired = true ∨ LossShows maxBytes state.unread)
        (by simp [InSight, cursor])

/-- What a buffer owes its users: the counters, the cursors, and every byte to the reader. -/
structure Followed (maxBytes : Nat) (state : OutputFollow) : Prop where
  retained : state.ring.retainedBytes = byteCount state.ring.chunks
  bounded : state.ring.retainedBytes ≤ maxBytes
  accounted : state.ring.retainedBytes + state.ring.droppedBytes = writtenBytes state.appended
  cursors : ∃ first, Numbered (·.cursor) first state.ring.chunks ∧
    first + state.ring.chunks.length = state.ring.nextCursor + 1
  complete : state.expired = true ∨ ∀ stream,
    streamBytes stream (state.received.map (·.write)) = streamBytes stream state.seen

/-! ## What the buffer holds of the writes -/

@[simp] theorem streamBytes_append (stream : BackgroundCommandOutputStream)
    (front back : List OutputWrite) :
    streamBytes stream (front ++ back) = streamBytes stream front ++ streamBytes stream back :=
  List.flatMap_append

@[simp] theorem writtenBytes_append (front back : List OutputWrite) :
    writtenBytes (front ++ back) = writtenBytes front + writtenBytes back := by
  simp [writtenBytes]

@[simp] theorem writtenBytes_singleton (write : OutputWrite) :
    writtenBytes [write] = write.bytes.length := by
  simp [writtenBytes]

/-- A write as the buffer stores it. -/
def OutputWrite.kept (maxBytes : Nat) (write : OutputWrite) : OutputWrite :=
  { write with bytes := retainedSlice maxBytes write.bytes }

theorem OutputWrite.kept_length (maxBytes : Nat) (write : OutputWrite) :
    (write.kept maxBytes).bytes.length = min write.bytes.length maxBytes :=
  retainedSlice_length maxBytes write.bytes

theorem OutputWrite.kept_eq {maxBytes : Nat} {write : OutputWrite}
    (short : write.bytes.length ≤ maxBytes) : write.kept maxBytes = write := by
  rw [kept, retainedSlice_eq short]

/-- Chunks that hold given writes, stream by stream. -/
structure Holds (chunks : List BackgroundCommandOutputChunk) (writes : List OutputWrite) :
    Prop where
  bytes : ∀ stream, streamBytes stream (chunks.map (·.write)) = streamBytes stream writes
  count : byteCount chunks = writtenBytes writes

theorem Holds.nil : Holds [] [] := ⟨fun _ => rfl, rfl⟩

theorem Holds.append {chunks chunks' : List BackgroundCommandOutputChunk}
    {writes writes' : List OutputWrite} (front : Holds chunks writes)
    (back : Holds chunks' writes') : Holds (chunks ++ chunks') (writes ++ writes') where
  bytes stream := by
    rw [List.map_append, streamBytes_append, streamBytes_append, front.bytes, back.bytes]
  count := by rw [byteCount_append, writtenBytes_append, front.count, back.count]

/-- The chunks of one append hold its trimmed bytes. -/
theorem Holds.of_append {chunks : List BackgroundCommandOutputChunk} {write : OutputWrite}
    (same : ∀ chunk ∈ chunks, chunk.stream = write.stream)
    (bytes : chunks.flatMap (·.bytes) = write.bytes) : Holds chunks [write] where
  bytes stream := by
    have each : ∀ chunk ∈ chunks, (if chunk.write.stream = stream then chunk.write.bytes else []) =
        if write.stream = stream then chunk.bytes else [] := by
      intro chunk mem
      rw [show chunk.write.stream = write.stream from same chunk mem]
      rfl
    rw [streamBytes, List.flatMap_map, List.flatMap_congr each, streamBytes,
      List.flatMap_singleton, ← bytes]
    split
    · rfl
    · exact List.flatMap_eq_nil_iff.mpr fun _ _ => rfl
  count := by
    rw [writtenBytes_singleton, ← bytes, List.length_flatMap]
    rfl

/-! ## What a limit does to the writes -/

variable {maxBytes : Nat} {writes : List OutputWrite}

@[simp] theorem writtenBytes_cons (write : OutputWrite) (writes : List OutputWrite) :
    writtenBytes (write :: writes) = write.bytes.length + writtenBytes writes := by
  simp [writtenBytes]

theorem writtenBytes_kept_le (maxBytes : Nat) (writes : List OutputWrite) :
    writtenBytes (writes.map (·.kept maxBytes)) ≤ writtenBytes writes := by
  induction writes with
  | nil => exact Nat.le_refl _
  | cons write writes ih =>
    have here := write.kept_length maxBytes
    rw [List.map_cons, writtenBytes_cons, writtenBytes_cons]
    omega

/-- Writes that keep all their bytes were not trimmed. -/
theorem kept_eq_of_writtenBytes
    (same : writtenBytes (writes.map (·.kept maxBytes)) = writtenBytes writes) :
    writes.map (·.kept maxBytes) = writes := by
  induction writes with
  | nil => rfl
  | cons write writes ih =>
    have here := write.kept_length maxBytes
    have rest := writtenBytes_kept_le maxBytes writes
    rw [List.map_cons, writtenBytes_cons, writtenBytes_cons] at same
    rw [List.map_cons, ih (by omega), OutputWrite.kept_eq (by omega)]

theorem no_bytes_of_kept (positive : 0 < maxBytes)
    (empty : writtenBytes (writes.map (·.kept maxBytes)) = 0) :
    writes.filter (fun write => 0 < write.bytes.length) = [] := by
  induction writes with
  | nil => rfl
  | cons write writes ih =>
    have here := write.kept_length maxBytes
    rw [List.map_cons, writtenBytes_cons] at empty
    rw [List.filter_cons_of_neg (by rw [decide_eq_true_eq]; omega)]
    exact ih (by omega)

/-- A trimmed append fills the buffer, and any other append between two reads overflows it. -/
theorem overflow_of_long (positive : 0 < maxBytes) (shows : LossShows maxBytes writes)
    {write : OutputWrite} (mem : write ∈ writes) (long : maxBytes < write.bytes.length) :
    maxBytes < writtenBytes (writes.map (·.kept maxBytes)) := by
  obtain ⟨front, back, rfl⟩ := List.append_of_mem mem
  have here := write.kept_length maxBytes
  rw [List.map_append, List.map_cons, writtenBytes_append, writtenBytes_cons]
  refine Nat.lt_of_not_le fun small => ?_
  have alone : (front ++ write :: back).filter (fun write => 0 < write.bytes.length) =
      [write] := by
    rw [List.filter_append, no_bytes_of_kept positive (by omega),
      List.filter_cons_of_pos (by rw [decide_eq_true_eq]; omega),
      no_bytes_of_kept positive (by omega), List.nil_append]
  exact absurd (shows write alone) (Nat.not_le_of_lt long)

/-! ## One read -/

section Reads

variable {ring : OutputRingBuffer} {appended : Nat}
  {gone old unseen : List BackgroundCommandOutputChunk}

/-- A reader is told when a chunk it has not seen is gone. -/
theorem readAfter_expired (keeps : ring.Keeps maxBytes appended gone)
    (late : old.length < gone.length) :
    (ring.readAfter [] (some old.length)).cursorExpired = true := by
  have lost : 0 < ring.droppedBytes := by
    have count := length_le_byteCount fun chunk mem =>
      keeps.filled chunk (List.mem_append_left _ mem)
    have dropped := keeps.dropped
    omega
  cases chunks : ring.chunks with
  | nil =>
    rw [keeps.newest chunks] at late
    cases late
  | cons front rest =>
    have earliest := keeps.numbered.earliest (List.head?_eq_some_iff.mpr ⟨rest, chunks⟩)
    simp only [OutputRingBuffer.readAfter, chunks, List.head?_cons, Option.map_some,
      Option.any_some, Bool.and_eq_true, decide_eq_true_eq]
    exact ⟨lost, by omega⟩

/-- A read after a cursor returns the chunks it has not seen, unless one of them is gone. -/
theorem readAfter_chunks (keeps : ring.Keeps maxBytes appended gone)
    (split : gone ++ ring.chunks = old ++ unseen) (early : gone.length ≤ old.length) :
    (ring.readAfter [] (some old.length)).chunks = unseen :=
  keeps.numbered.unseen split early

/-- A loss between two reads either shows in the cursors or is no loss. -/
theorem read_complete (keeps : ring.Keeps maxBytes appended gone)
    (split : gone ++ ring.chunks = old ++ unseen) (positive : 0 < maxBytes)
    (holds : Holds unseen (writes.map (·.kept maxBytes))) (shows : LossShows maxBytes writes) :
    (ring.readAfter [] (some old.length)).cursorExpired = true ∨
      Holds (ring.readAfter [] (some old.length)).chunks writes := by
  by_cases late : old.length < gone.length
  · exact .inl (readAfter_expired keeps late)
  · right
    rw [readAfter_chunks keeps split (Nat.le_of_not_lt late)]
    have whole : writes.map (·.kept maxBytes) = writes := by
      refine (List.map_congr_left fun write mem => OutputWrite.kept_eq ?_).trans (List.map_id _)
      refine Nat.le_of_not_lt fun long => late ?_
      -- the unseen chunks alone would not fit, so one of them is gone
      have overflow := overflow_of_long positive shows mem long
      have total := congrArg byteCount split
      have bounded := keeps.bounded
      rw [byteCount_append, byteCount_append, holds.count, ← keeps.retained] at total
      refine Nat.lt_of_not_le fun early => ?_
      have under : byteCount gone ≤ byteCount old := by
        have front : gone <+: old :=
          List.prefix_of_prefix_length_le ⟨_, split⟩ ⟨_, rfl⟩ early
        obtain ⟨rest, rfl⟩ := front
        rw [byteCount_append]
        exact Nat.le_add_right _ _
      omega
    exact whole ▸ holds

/-- A first read, without a cursor, returns everything if nothing was dropped. -/
theorem first_read_complete (keeps : ring.Keeps maxBytes (writtenBytes writes) gone)
    (split : gone ++ ring.chunks = unseen) (holds : Holds unseen (writes.map (·.kept maxBytes)))
    (undropped : ring.droppedBytes = 0) :
    Holds (ring.readAfter [] none).chunks writes := by
  have lost := keeps.dropped
  have none_gone : gone = [] := by
    have count := length_le_byteCount fun chunk mem =>
      keeps.filled chunk (List.mem_append_left _ mem)
    exact List.eq_nil_of_length_eq_zero (by omega)
  subst none_gone
  have all : (ring.readAfter [] none).chunks = unseen := by
    rw [← split]
    exact List.filter_eq_self.mpr fun _ _ => rfl
  have count := holds.count
  have accounted := keeps.accounted
  rw [← split, List.nil_append, ← keeps.retained] at count
  have whole := kept_eq_of_writtenBytes
    (show writtenBytes (writes.map (·.kept maxBytes)) = writtenBytes writes by omega)
  rw [all]
  exact whole ▸ holds

end Reads

/-! ## A whole run -/

/-- The log behind a followed buffer: what is gone, and where the reader stands in it. -/
structure OutputFollow.Stands (maxBytes : Nat) (state : OutputFollow)
    (gone old unseen : List BackgroundCommandOutputChunk) : Prop where
  fits : writtenBytes state.appended ≤ usizeMax
  keeps : state.ring.Keeps maxBytes (writtenBytes state.appended) gone
  split : gone ++ state.ring.chunks = old ++ unseen
  unseen : Holds unseen (state.unread.map (·.kept maxBytes))
  cursor : state.cursor = some old.length ∨ state.cursor = none ∧ old = [] ∧ state.seen = [] ∧
    state.received = []
  complete : state.expired = true ∨ ∀ stream,
    streamBytes stream (state.received.map (·.write)) = streamBytes stream state.seen

namespace OutputFollow.Stands

variable {state : OutputFollow} {gone old unseen : List BackgroundCommandOutputChunk}

theorem new (maxBytes : Nat) : OutputFollow.new.Stands maxBytes [] [] [] where
  fits := Nat.zero_le _
  keeps := .new maxBytes
  split := rfl
  unseen := .nil
  cursor := .inr ⟨rfl, rfl, rfl, rfl⟩
  complete := .inr fun _ => rfl

theorem append (stands : state.Stands maxBytes gone old unseen) {write : OutputWrite}
    (fits : writtenBytes (state.appended ++ [write]) ≤ usizeMax) :
    ∃ gone' unseen', (state.append maxBytes write).Stands maxBytes gone' old unseen' := by
  rw [writtenBytes_append, writtenBytes_singleton] at fits
  obtain ⟨ring', gone', new, ran, result⟩ :=
    append_spec write.stream write.bytes stands.keeps fits
  have total : writtenBytes (state.append maxBytes write).appended =
      writtenBytes state.appended + write.bytes.length := by
    rw [← writtenBytes_singleton, ← writtenBytes_append]
    simp only [OutputFollow.appended, OutputFollow.append, List.append_assoc]
  have ring : (state.append maxBytes write).ring = ring' := congrArg Prod.fst ran
  refine ⟨gone', unseen ++ new, total ▸ fits, ?_, ?_, ?_, stands.cursor, stands.complete⟩
  · rw [ring, total]
    exact result.keeps
  · rw [ring, result.log_eq, stands.split, List.append_assoc]
  · have stored : Holds new [write.kept maxBytes] :=
      .of_append result.stream_eq result.bytes_eq
    simpa [OutputFollow.append] using stands.unseen.append stored

theorem read (stands : state.Stands maxBytes gone old unseen) (positive : 0 < maxBytes)
    (sight : InSight maxBytes state .read) :
    state.read.Stands maxBytes gone (old ++ unseen) [] := by
  have next : state.ring.nextCursor = (old ++ unseen).length := by
    rw [stands.keeps.next, stands.split]
  have same : state.read.appended = state.appended :=
    (List.append_nil _).trans rfl
  refine ⟨?_, ?_, stands.split.trans (List.append_nil _).symm, .nil, .inl ?_, ?_⟩
  · rw [same]
    exact stands.fits
  · rw [same]
    exact stands.keeps
  · exact congrArg some next
  · by_cases expired : state.expired = true
    · exact .inl (by simp [OutputFollow.read, expired])
    · have received := stands.complete.resolve_left expired
      have answered : (state.ring.readAfter [] state.cursor).cursorExpired = true ∨
          Holds (state.ring.readAfter [] state.cursor).chunks state.unread := by
        have shows := sight.resolve_left expired
        rcases stands.cursor with at_ | ⟨at_, rfl, noneSeen, -⟩
        · rw [at_] at shows ⊢
          exact read_complete stands.keeps stands.split positive stands.unseen shows
        · rw [at_] at shows ⊢
          have all : state.appended = state.unread := by rw [OutputFollow.appended, noneSeen]; rfl
          exact .inr (first_read_complete (all ▸ stands.keeps) stands.split stands.unseen shows)
      rcases answered with told | got
      · exact .inl (by simp [OutputFollow.read, told])
      · right
        intro stream
        simp only [OutputFollow.read, List.map_append, streamBytes_append, received stream,
          got.bytes stream]

theorem followed (stands : state.Stands maxBytes gone old unseen) : Followed maxBytes state where
  retained := stands.keeps.retained
  bounded := stands.keeps.bounded
  accounted := stands.keeps.accounted
  cursors := by
    refine ⟨1 + gone.length, (numbered_append.mp stands.keeps.numbered).2, ?_⟩
    rw [stands.keeps.next, List.length_append]
    omega
  complete := stands.complete

end OutputFollow.Stands

/-- While every loss can show, a buffer keeps its counters and cursors, and a reader that follows
it has every appended byte of each stream in order, or was told that its cursor expired. -/
theorem reader_receives_every_byte (limits : BackgroundCommandLimits) {state : OutputFollow}
    (reached : (followMachine limits).ReachableWhile
      (InSight (withLimits limits).maxOutputBytesPerCommand) state) :
    Followed (withLimits limits).maxOutputBytesPerCommand state := by
  have positive : 0 < (withLimits limits).maxOutputBytesPerCommand :=
    Nat.lt_of_lt_of_le Nat.one_pos (Nat.le_max_right _ _)
  have stands : ∃ gone old unseen,
      state.Stands (withLimits limits).maxOutputBytesPerCommand gone old unseen := by
    apply reached.invariant ⟨[], [], [], .new _⟩
    rintro state action state' ⟨gone, old, unseen, stands⟩ sight step
    cases action with
    | append write =>
      obtain rfl := Option.some.inj step
      obtain ⟨gone', unseen', stands'⟩ := stands.append sight
      exact ⟨gone', old, unseen', stands'⟩
    | read =>
      obtain rfl := Option.some.inj step
      exact ⟨gone, _, [], stands.read positive sight⟩
  obtain ⟨gone, old, unseen, stands⟩ := stands
  exact stands.followed

/-- A limit of three bytes, and a reader that reads twice between three appends. -/
def readTwice : List FollowAction :=
  [.append ⟨.stdout, [97, 98]⟩, .read, .append ⟨.stderr, [99]⟩, .append ⟨.stdout, [100]⟩, .read]

theorem reader_receives_every_byte_twice :
    ∃ state, streamBytes .stdout state.seen = [97, 98, 100] ∧ state.expired = false ∧
      Followed (withLimits ⟨16, 3, 0⟩).maxOutputBytesPerCommand state := by
  have run : (((followMachine ⟨16, 3, 0⟩).runWhile
      (fun state action => decide (InSight 3 state action)) .new readTwice).any fun state =>
        decide (streamBytes .stdout state.seen = [97, 98, 100] ∧ state.expired = false)) =
      true := by
    decide
  obtain ⟨state, ran, facts⟩ := (Option.any_eq_true _ _).mp run
  obtain ⟨seen, current⟩ := of_decide_eq_true facts
  have reached := Machine.reachableWhile_of_runWhile .start ran
  exact ⟨state, seen, current, reader_receives_every_byte ⟨16, 3, 0⟩
    (reached.mono fun _ _ meets => of_decide_eq_true meets)⟩

/-- With a limit of one byte, a reader that starts with the command and reads again after one
append of two bytes gets the second byte, and no read says that the first is lost. -/
theorem trimmed_append_is_silent :
    ∃ state, (followMachine ⟨16, 1, 0⟩).run .new
        [.read, .append ⟨.stdout, [97, 98]⟩, .read] = some state ∧
      (followMachine ⟨16, 1, 0⟩).Reachable state ∧ state.expired = false ∧
      streamBytes .stdout state.seen = [97, 98] ∧
      streamBytes .stdout (state.received.map (·.write)) = [98] ∧
      ¬Followed (withLimits ⟨16, 1, 0⟩).maxOutputBytesPerCommand state := by
  have run : (((followMachine ⟨16, 1, 0⟩).run .new
      [.read, .append ⟨.stdout, [97, 98]⟩, .read]).any fun state =>
        decide (state.expired = false ∧ streamBytes .stdout state.seen = [97, 98] ∧
          streamBytes .stdout (state.received.map (·.write)) = [98])) = true := by
    decide
  obtain ⟨state, ran, facts⟩ := (Option.any_eq_true _ _).mp run
  obtain ⟨current, appended, received⟩ := of_decide_eq_true facts
  refine ⟨state, ran, Machine.reachable_of_run .start ran, current, appended, received, ?_⟩
  intro followed
  rcases followed.complete with expired | complete
  · rw [current] at expired
    cases expired
  · have same := complete .stdout
    rw [appended, received] at same
    cases same

end Foco.BackgroundCommand
