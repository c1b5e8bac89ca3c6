import Foco.OutputBudget
import Foco.Runs
import Foco.Utf8Chunks
import Mathlib.Logic.Function.Basic

/-!
`tools/lib.rs`: the output of a running command. A reader thread for each of the two pipes sends
what it reads through a bounded channel, and the loop that waits for the command drains both
channels round by round and sends the text of every chunk to the sink of the call.
-/
namespace Foco.CommandPipes
open Foco.RustText Foco.Runs Foco.OutputBudget

def maxCommandPipeMessagesPerDrain : Nat := 8

/-- The bound of the channels. -/
def commandPipeCapacity : Nat := 8

inductive ToolOutputStream where
  | stdout
  | stderr
deriving DecidableEq

structure ToolOutputChunk where
  stream : ToolOutputStream
  text : Text

inductive CommandPipeMessage where
  | chunk (bytes : List UInt8)
  | complete

inductive ToolRuntimeError where
  | commandOutputTooLarge (command : Text) (pid : Nat) (stream : ToolOutputStream)
      (bytes maxBytes : Nat)
  | command (command source : Text)

structure CommandStreamCapture where
  output : List UInt8 := []
  observedBytes : Nat := 0
  truncated : Bool := false

structure CommandDeltaBudget where
  maxBytes : Option Nat
  emittedBytes : Nat := 0
  truncated : Bool := false

/-- `read_command_pipe`: what is sent of what the pipe gives. A read of no bytes is its end. -/
def readCommandPipe : List (Except Text (List UInt8)) → List (Except Text CommandPipeMessage)
  | [] => [.ok .complete]
  | .ok [] :: _ => [.ok .complete]
  | .ok (byte :: bytes) :: reads => .ok (.chunk (byte :: bytes)) :: readCommandPipe reads
  | .error source :: _ => [.error source]

/-! ## The text deltas -/

/-- `COMMAND_OUTPUT_DELTA_TRUNCATION_NOTICE`. -/
def commandOutputDeltaTruncationNotice : Text :=
  "\n[command output truncated: further stdout/stderr output omitted]\n".toList

/-- The sink of the call, if it has one, with what it has been sent, and the budget. -/
structure Deltas where
  sink : Option (List ToolOutputChunk)
  budget : CommandDeltaBudget

/-- What is left of the budget, without one as much as is wanted. -/
def CommandDeltaBudget.remaining (budget : CommandDeltaBudget) (wanted : Nat) : Nat :=
  match budget.maxBytes with
  | some limit => limit - budget.emittedBytes
  | none => wanted

/-- What a budget keeps for the notice. -/
def CommandDeltaBudget.noticeReserve (budget : CommandDeltaBudget) (remaining : Nat) : Nat :=
  match budget.maxBytes with
  | some _ => min (utf8Length commandOutputDeltaTruncationNotice) remaining
  | none => 0

/-- Text that is sent and counted unless it is empty. -/
def Deltas.outputChunk (deltas : Deltas) (sent : List ToolOutputChunk) (stream : ToolOutputStream)
    (text : Text) : Deltas :=
  if text.isEmpty then deltas
  else
    { sink := some (sent ++ [⟨stream, text⟩])
      budget := { deltas.budget with
        emittedBytes := saturatingAdd deltas.budget.emittedBytes (utf8Length text) } }

def emitCommandOutputTruncationNotice (stream : ToolOutputStream) (deltas : Deltas) : Deltas :=
  match deltas.sink with
  | none => deltas
  | some sent =>
    if deltas.budget.truncated then deltas
    else
      let remaining := deltas.budget.remaining (utf8Length commandOutputDeltaTruncationNotice)
      let notice := (boundedUtf8Prefix commandOutputDeltaTruncationNotice remaining).1
      let written := deltas.outputChunk sent stream notice
      { written with budget := { written.budget with truncated := true } }

/-- Every chunk is decoded on its own. -/
def emitCommandOutputDelta (stream : ToolOutputStream) (chunk : List UInt8) (deltas : Deltas) :
    Deltas :=
  match deltas.sink with
  | none => deltas
  | some sent =>
    if chunk.isEmpty || deltas.budget.truncated then deltas
    else
      let text := fromUtf8Lossy chunk
      let remaining := deltas.budget.remaining (utf8Length text)
      let contentBudget := remaining - deltas.budget.noticeReserve remaining
      let visible := boundedUtf8Prefix text contentBudget
      let written := deltas.outputChunk sent stream visible.1
      if visible.2 then emitCommandOutputTruncationNotice stream written else written

/-! ## Draining a channel -/

/-- What a drain of a channel is called with. -/
structure PipeCall where
  command : Text
  pid : Nat
  stream : ToolOutputStream
  outputLimit : Option Nat
  truncateAtLimit : Bool

/-- A channel, what has been taken of its stream and whether it has ended. -/
structure CommandPipe where
  queue : List (Except Text CommandPipeMessage) := []
  capture : CommandStreamCapture := {}
  complete : Bool := false

def CommandPipe.push (pipe : CommandPipe) (message : Except Text CommandPipeMessage) :
    CommandPipe :=
  { pipe with queue := pipe.queue ++ [message] }

structure Drain where
  pipe : CommandPipe
  deltas : Deltas
  error : Option ToolRuntimeError

/-- How many bytes of a chunk are taken. -/
def PipeCall.visibleBytes (call : PipeCall) (capture : CommandStreamCapture) (length : Nat) : Nat :=
  match call.truncateAtLimit, call.outputLimit with
  | true, some limit => min length (limit - capture.output.length)
  | _, _ => length

def CommandStreamCapture.take (capture : CommandStreamCapture) (call : PipeCall)
    (chunk : List UInt8) : CommandStreamCapture :=
  let visible := call.visibleBytes capture chunk.length
  { output := capture.output ++ chunk.take visible
    observedBytes := saturatingAdd capture.observedBytes chunk.length
    truncated := capture.truncated || decide (visible < chunk.length) }

/-- The error of a stream that must not be truncated. -/
def PipeCall.tooLarge (call : PipeCall) (capture : CommandStreamCapture) :
    Option ToolRuntimeError :=
  match call.truncateAtLimit, call.outputLimit with
  | false, some limit =>
    if limit < capture.output.length then
      some (.commandOutputTooLarge call.command call.pid call.stream capture.output.length limit)
    else none
  | _, _ => none

/-- A chunk from the channel. -/
def PipeCall.receive (call : PipeCall) (chunk : List UInt8) (pipe : CommandPipe)
    (deltas : Deltas) : Drain :=
  let capture := pipe.capture.take call chunk
  let visibleChunk := chunk.take (call.visibleBytes pipe.capture chunk.length)
  let emitted := emitCommandOutputDelta call.stream visibleChunk deltas
  { pipe := { pipe with capture }
    deltas :=
      if capture.truncated then emitCommandOutputTruncationNotice call.stream emitted else emitted
    error := call.tooLarge capture }

def PipeCall.drainMessages (call : PipeCall) : Nat → CommandPipe → Deltas → Drain
  | 0, pipe, deltas => ⟨pipe, deltas, none⟩
  | messages + 1, pipe, deltas =>
    match pipe.queue with
    | [] => ⟨pipe, deltas, none⟩
    | .ok (.chunk chunk) :: queue =>
      let received := call.receive chunk { pipe with queue } deltas
      if received.error.isSome then received
      else call.drainMessages messages received.pipe received.deltas
    | .ok .complete :: queue => ⟨{ pipe with queue, complete := true }, deltas, none⟩
    | .error source :: queue => ⟨{ pipe with queue }, deltas, some (.command call.command source)⟩

def drainCommandPipe (call : PipeCall) (pipe : CommandPipe) (deltas : Deltas) : Drain :=
  if pipe.complete then ⟨pipe, deltas, none⟩
  else call.drainMessages maxCommandPipeMessagesPerDrain pipe deltas

/-! ## The command -/

structure CommandOutputLimits where
  stdoutBytes : Option Nat
  stderrBytes : Option Nat
  outputDeltaBytes : Option Nat
  truncate : Bool

/-- What does not change while a command runs: its label, its process, the limits and what its
two pipes will give. -/
structure CommandRun where
  command : Text
  pid : Nat
  outputLimits : Option CommandOutputLimits
  reads : ToolOutputStream → List (Except Text (List UInt8))

/-- The readers with what they have not sent, the channels, the sink and the error that has ended
the loop. -/
structure World where
  unsent : ToolOutputStream → List (Except Text CommandPipeMessage)
  pipe : ToolOutputStream → CommandPipe
  deltas : Deltas
  error : Option ToolRuntimeError

namespace CommandRun

def call (run : CommandRun) (stream : ToolOutputStream) : PipeCall where
  command := run.command
  pid := run.pid
  stream := stream
  outputLimit := run.outputLimits.bind fun limits =>
    match stream with
    | .stdout => limits.stdoutBytes
    | .stderr => limits.stderrBytes
  truncateAtLimit := run.outputLimits.any (·.truncate)

/-- `run_command_with_timeout` with a sink, before its loop. -/
def start (run : CommandRun) : World where
  unsent stream := readCommandPipe (run.reads stream)
  pipe _ := {}
  deltas :=
    { sink := some []
      budget := { maxBytes := run.outputLimits.bind (·.outputDeltaBytes) } }
  error := none

def drain (run : CommandRun) (stream : ToolOutputStream) (world : World) : World :=
  let drained := drainCommandPipe (run.call stream) (world.pipe stream) world.deltas
  { world with
    pipe := Function.update world.pipe stream drained.pipe
    deltas := drained.deltas
    error := drained.error }

/-- A reader sends a message, or the loop goes round. -/
inductive Action where
  | send (stream : ToolOutputStream)
  | round

def send (stream : ToolOutputStream) (world : World) : Option World :=
  match world.unsent stream with
  | [] => none
  | message :: unsent =>
    if (world.pipe stream).queue.length < commandPipeCapacity then
      some { world with
        unsent := Function.update world.unsent stream unsent
        pipe := Function.update world.pipe stream ((world.pipe stream).push message) }
    else none

/-- Both channels are drained, the second one if the first gave no error. An error ends the
loop. -/
def round (run : CommandRun) (world : World) : Option World :=
  if world.error.isSome then none
  else
    let world := run.drain .stdout world
    some (if world.error.isSome then world else run.drain .stderr world)

def machine (run : CommandRun) : Machine World Action where
  start := run.start
  step world
    | .send stream => send stream world
    | .round => run.round world

end CommandRun

/-! ## What is emitted -/

/-- The text deltas of a stream, one after the other. -/
def Deltas.emitted (deltas : Deltas) (stream : ToolOutputStream) : Text :=
  ((deltas.sink.getD []).filter (·.stream = stream)).flatMap (·.text)

/-- The chunks a pipe is read in. -/
def chunksRead (reads : List (Except Text (List UInt8))) : List (List UInt8) :=
  (readCommandPipe reads).filterMap fun
    | .ok (.chunk bytes) => some bytes
    | _ => none

/-- Unless the notice of a limit has been given, the text of a stream has been added to. -/
structure Deltas.Extends (before after : Deltas) (stream : ToolOutputStream) (text : Text) :
    Prop where
  sink : before.sink.isSome = true → after.sink.isSome = true
  untruncated : after.budget.truncated = false → before.budget.truncated = false
  emitted : after.budget.truncated = false →
    ∀ s, after.emitted s = before.emitted s ++ if s = stream then text else []

section Emit

variable {deltas : Deltas} {stream : ToolOutputStream}

theorem Deltas.Extends.none (deltas : Deltas) (stream : ToolOutputStream) :
    deltas.Extends deltas stream [] where
  sink := id
  untruncated := id
  emitted _ s := by rw [ite_self, List.append_nil]

theorem Deltas.Extends.trans {middle after : Deltas} {first second : Text}
    (front : deltas.Extends middle stream first) (back : middle.Extends after stream second) :
    deltas.Extends after stream (first ++ second) where
  sink := back.sink ∘ front.sink
  untruncated := front.untruncated ∘ back.untruncated
  emitted untruncated s := by
    rw [back.emitted untruncated, front.emitted (back.untruncated untruncated)]
    split
    · exact List.append_assoc ..
    · exact List.append_assoc ..

/-- Behind a notice there is nothing to say. -/
theorem Deltas.Extends.of_truncated {after : Deltas}
    (sink : deltas.sink.isSome = true → after.sink.isSome = true)
    (truncated : after.budget.truncated = true) (text : Text) :
    deltas.Extends after stream text where
  sink := sink
  untruncated none_ := by rw [truncated] at none_; cases none_
  emitted none_ := by rw [truncated] at none_; cases none_

variable (stream) in
theorem outputChunk_extends {sent : List ToolOutputChunk} (sink : deltas.sink = some sent)
    (text : Text) : deltas.Extends (deltas.outputChunk sent stream text) stream text := by
  unfold Deltas.outputChunk
  split
  · rename_i empty
    obtain rfl := List.isEmpty_iff.mp empty
    exact .none deltas stream
  · refine ⟨fun _ => rfl, id, fun _ s => ?_⟩
    unfold Deltas.emitted
    rw [sink, Option.getD_some, Option.getD_some, List.filter_append, List.flatMap_append]
    by_cases same : s = stream
    · rw [if_pos same, List.filter_singleton, decide_eq_true same.symm]
      rw [cond_true, List.flatMap_singleton]
    · rw [if_neg same, List.filter_singleton, decide_eq_false (Ne.symm same)]
      rfl

variable (stream) in
/-- The notice is given once. -/
theorem notice_truncated (sink : deltas.sink.isSome = true) :
    (emitCommandOutputTruncationNotice stream deltas).budget.truncated = true ∧
      (emitCommandOutputTruncationNotice stream deltas).sink.isSome = true := by
  obtain ⟨sent, sink⟩ := Option.isSome_iff_exists.mp sink
  unfold emitCommandOutputTruncationNotice
  rw [sink]
  dsimp only
  split
  · rename_i truncated
    exact ⟨truncated, by rw [sink]; rfl⟩
  · exact ⟨rfl, (outputChunk_extends stream sink _).sink (by rw [sink]; rfl)⟩

theorem boundedUtf8Prefix_whole {text : Text} {maxBytes : Nat}
    (whole : (boundedUtf8Prefix text maxBytes).2 = false) :
    (boundedUtf8Prefix text maxBytes).1 = text := by
  unfold boundedUtf8Prefix at whole ⊢
  split at whole
  · rename_i short
    rw [if_pos short]
  · cases whole

variable (stream) in
/-- A chunk is decoded whole, or the notice follows. -/
theorem emitCommandOutputDelta_extends (sink : deltas.sink.isSome = true) (chunk : List UInt8) :
    deltas.Extends (emitCommandOutputDelta stream chunk deltas) stream (fromUtf8Lossy chunk) := by
  obtain ⟨sent, some_⟩ := Option.isSome_iff_exists.mp sink
  unfold emitCommandOutputDelta
  rw [some_]
  dsimp only
  split
  · rename_i skipped
    obtain empty | truncated := Bool.or_eq_true_iff.mp skipped
    · obtain rfl := List.isEmpty_iff.mp empty
      exact .none deltas stream
    · exact .of_truncated id truncated _
  · split
    · obtain ⟨truncated, sink'⟩ := notice_truncated stream
        ((outputChunk_extends stream some_ _).sink sink)
      exact .of_truncated (fun _ => sink') truncated _
    · rename_i whole
      rw [boundedUtf8Prefix_whole (Bool.eq_false_of_not_eq_true whole)]
      exact outputChunk_extends stream some_ _

end Emit

/-! ## Draining -/

section Drains

variable {call : PipeCall} {pipe : CommandPipe} {deltas : Deltas}

variable (call pipe) in
/-- A chunk is taken and decoded whole, or the notice has been given. -/
theorem receive_extends (sink : deltas.sink.isSome = true) (chunk : List UInt8) :
    deltas.Extends (call.receive chunk pipe deltas).deltas call.stream (fromUtf8Lossy chunk) := by
  unfold PipeCall.receive
  have emitted := emitCommandOutputDelta_extends call.stream sink
    (chunk.take (call.visibleBytes pipe.capture chunk.length))
  dsimp only
  split
  · obtain ⟨truncated, sink'⟩ := notice_truncated call.stream (emitted.sink sink)
    exact .of_truncated (fun _ => sink') truncated _
  · rename_i whole
    have visible : ¬call.visibleBytes pipe.capture chunk.length < chunk.length := fun less =>
      whole (Bool.or_eq_true_iff.mpr (Or.inr (decide_eq_true less)))
    rw [List.take_of_length_le (Nat.not_lt.mp visible)] at emitted ⊢
    exact emitted

/-- The message for a chunk. -/
def chunkMessage (chunk : List UInt8) : Except Text CommandPipeMessage := .ok (.chunk chunk)

/-- A drain takes chunks from the channel and perhaps the end behind them, and emits the text of
these chunks. -/
structure Drained (call : PipeCall) (pipe : CommandPipe) (deltas : Deltas) (drain : Drain)
    (chunks : List (List UInt8)) : Prop where
  unfinished : drain.pipe.complete = false → drain.error = none →
    pipe.queue = chunks.map chunkMessage ++ drain.pipe.queue
  finished : drain.pipe.complete = true →
    ∃ rest, pipe.queue = chunks.map chunkMessage ++ .ok .complete :: rest
  extended : deltas.Extends drain.deltas call.stream (chunks.map fromUtf8Lossy).flatten

/-- A drain that takes no chunk. -/
theorem Drained.silent {drain : Drain} (open_ : drain.pipe.complete = false)
    (queue : drain.error = none → pipe.queue = drain.pipe.queue) (kept : drain.deltas = deltas) :
    ∃ chunks, Drained call pipe deltas drain chunks := by
  refine ⟨[], fun _ => queue, fun complete => ?_, ?_⟩
  · rw [open_] at complete
    cases complete
  · rw [kept]
    exact .none deltas call.stream

theorem drainMessages_drained (messages : Nat) (open_ : pipe.complete = false)
    (sink : deltas.sink.isSome = true) :
    ∃ chunks, Drained call pipe deltas (call.drainMessages messages pipe deltas) chunks := by
  induction messages generalizing pipe deltas with
  | zero => exact Drained.silent open_ (fun _ => rfl) rfl
  | succ messages ih =>
    unfold PipeCall.drainMessages
    split
    · exact Drained.silent open_ (fun _ => rfl) rfl
    · rename_i chunk queue shape
      have first := receive_extends call { pipe with queue } sink chunk
      dsimp only
      split
      · rename_i failed
        refine ⟨[chunk], fun _ none_ => ?_, fun complete => ?_, ?_⟩
        · rw [none_] at failed
          cases failed
        · have same : (call.receive chunk { pipe with queue } deltas).pipe.complete =
              pipe.complete := rfl
          rw [same, open_] at complete
          cases complete
        · rwa [List.map_singleton, List.flatten_singleton]
      · have same : (call.receive chunk { pipe with queue } deltas).pipe.complete = false := open_
        obtain ⟨chunks, drained⟩ := ih same (first.sink sink)
        refine ⟨chunk :: chunks, fun going none_ => ?_, fun complete => ?_, ?_⟩
        · rw [shape, List.map_cons, List.cons_append, ← drained.unfinished going none_]
          rfl
        · obtain ⟨rest, queue⟩ := drained.finished complete
          refine ⟨rest, ?_⟩
          rw [shape, List.map_cons, List.cons_append, ← queue]
          rfl
        · rw [List.map_cons, List.flatten_cons]
          exact first.trans drained.extended
    · rename_i queue shape
      refine ⟨[], nofun, fun _ => ⟨queue, shape⟩, .none deltas call.stream⟩
    · exact Drained.silent open_ nofun rfl

variable (call) in
theorem drainCommandPipe_drained (open_ : pipe.complete = false)
    (sink : deltas.sink.isSome = true) :
    ∃ chunks, Drained call pipe deltas (drainCommandPipe call pipe deltas) chunks := by
  rw [drainCommandPipe, if_neg (by rw [open_]; exact Bool.false_ne_true)]
  exact drainMessages_drained _ open_ sink

end Drains

/-! ## Runs -/

theorem chunksRead_of_complete {reads : List (Except Text (List UInt8))}
    {chunks : List (List UInt8)} {rest : List (Except Text CommandPipeMessage)}
    (ended : readCommandPipe reads = chunks.map chunkMessage ++ .ok .complete :: rest) :
    chunks = chunksRead reads := by
  induction reads generalizing chunks with
  | nil =>
    cases chunks with
    | nil => rfl
    | cons chunk chunks => cases (List.cons.inj ended).1
  | cons read reads ih =>
    unfold readCommandPipe at ended
    split at ended
    · rename_i empty
      cases empty
    · rename_i more shape
      obtain ⟨rfl, -⟩ := List.cons.inj shape
      cases chunks with
      | nil => rfl
      | cons chunk chunks => cases (List.cons.inj ended).1
    · rename_i byte bytes more shape
      obtain ⟨rfl, rfl⟩ := List.cons.inj shape
      cases chunks with
      | nil => cases (List.cons.inj ended).1
      | cons chunk chunks =>
        obtain ⟨head, tail⟩ := List.cons.inj ended
        cases head
        rw [ih tail]
        rfl
    · cases chunks with
      | nil => cases (List.cons.inj ended).1
      | cons chunk chunks => cases (List.cons.inj ended).1

section Runs

variable {run : CommandRun} {world : World} {stream : ToolOutputStream}

/-- The chunks of a stream that have been taken, and their text. -/
structure Follows (run : CommandRun) (world : World) (stream : ToolOutputStream)
    (chunks : List (List UInt8)) : Prop where
  unfinished : (world.pipe stream).complete = false → world.error = none →
    readCommandPipe (run.reads stream) =
      chunks.map chunkMessage ++ ((world.pipe stream).queue ++ world.unsent stream)
  finished : (world.pipe stream).complete = true → chunks = chunksRead (run.reads stream)
  text : world.deltas.budget.truncated = false →
    world.deltas.emitted stream = (chunks.map fromUtf8Lossy).flatten

/-- Every stream is followed, and the call has a sink. -/
structure Followed (run : CommandRun) (world : World) : Prop where
  sink : world.deltas.sink.isSome = true
  streams : ∀ stream, ∃ chunks, Follows run world stream chunks

theorem followed_start (run : CommandRun) : Followed run run.start where
  sink := rfl
  streams _ := ⟨[], fun _ _ => rfl, nofun, fun _ => rfl⟩

theorem Followed.send (followed : Followed run world) {world' : World}
    (sends : CommandRun.send stream world = some world') : Followed run world' := by
  unfold CommandRun.send at sends
  split at sends
  · cases sends
  · rename_i message unsent shape
    split at sends
    · obtain rfl := Option.some.inj sends
      refine ⟨followed.sink, fun other => ?_⟩
      obtain ⟨chunks, follows⟩ := followed.streams other
      by_cases same : other = stream
      · subst same
        refine ⟨chunks, ?_, ?_, follows.text⟩
        · dsimp only
          rw [Function.update_self, Function.update_self]
          intro going none_
          rw [follows.unfinished going none_, shape, CommandPipe.push, List.append_assoc]
          rfl
        · dsimp only
          rw [Function.update_self]
          exact follows.finished
      · refine ⟨chunks, ?_, ?_, follows.text⟩
        · dsimp only
          rw [Function.update_of_ne same, Function.update_of_ne same]
          exact follows.unfinished
        · dsimp only
          rw [Function.update_of_ne same]
          exact follows.finished
    · cases sends

variable (stream) in
theorem Followed.drain (followed : Followed run world) (none_ : world.error = none) :
    Followed run (run.drain stream world) := by
  by_cases complete : (world.pipe stream).complete = true
  · -- A channel that has ended is left alone.
    have same : run.drain stream world = world := by
      rw [CommandRun.drain, drainCommandPipe, if_pos complete, Function.update_eq_self, ← none_]
    rwa [same]
  · have open_ : (world.pipe stream).complete = false := Bool.eq_false_of_not_eq_true complete
    obtain ⟨more, drained⟩ := drainCommandPipe_drained (run.call stream) open_ followed.sink
    have extended : world.deltas.Extends (run.drain stream world).deltas stream
        (more.map fromUtf8Lossy).flatten := drained.extended
    refine ⟨extended.sink followed.sink, fun other => ?_⟩
    obtain ⟨chunks, follows⟩ := followed.streams other
    by_cases same : other = stream
    · subst same
      have pipe : (run.drain other world).pipe other =
          (drainCommandPipe (run.call other) (world.pipe other) world.deltas).pipe :=
        Function.update_self ..
      refine ⟨chunks ++ more, fun going none' => ?_, fun ended => ?_, fun whole => ?_⟩
      · rw [pipe] at going
        rw [pipe, follows.unfinished open_ none_, drained.unfinished going none', List.map_append,
          List.append_assoc, List.append_assoc]
        rfl
      · rw [pipe] at ended
        obtain ⟨rest, queue⟩ := drained.finished ended
        have sent := follows.unfinished open_ none_
        rw [queue, List.append_assoc, ← List.append_assoc, ← List.map_append] at sent
        exact chunksRead_of_complete sent
      · rw [extended.emitted whole, follows.text (extended.untruncated whole), if_pos rfl,
          List.map_append, List.flatten_append]
    · have pipe : (run.drain stream world).pipe other = world.pipe other :=
        Function.update_of_ne same ..
      refine ⟨chunks, fun going _ => ?_, fun ended => ?_, fun whole => ?_⟩
      · rw [pipe] at going ⊢
        exact follows.unfinished going none_
      · rw [pipe] at ended
        exact follows.finished ended
      · rw [extended.emitted whole, follows.text (extended.untruncated whole), if_neg same,
          List.append_nil]

theorem Followed.round (followed : Followed run world) {world' : World}
    (rounds : run.round world = some world') : Followed run world' := by
  unfold CommandRun.round at rounds
  split at rounds
  · cases rounds
  · rename_i going
    have none_ : world.error = none := Option.not_isSome_iff_eq_none.mp going
    have first := followed.drain .stdout none_
    obtain rfl := Option.some.inj rounds
    split
    · exact first
    · rename_i going'
      exact first.drain .stderr (Option.not_isSome_iff_eq_none.mp going')

theorem followed_of_reachable (reached : run.machine.Reachable world) : Followed run world := by
  refine reached.invariant (followed_start run) fun world action world' followed steps => ?_
  cases action with
  | send stream => exact followed.send steps
  | round => exact followed.round steps

/-- When a stream has ended and no limit has been reached, the deltas are the text of the stream
exactly if no chunk of it goes on with a character that the chunks before it began. -/
theorem emitted_eq_stream_iff (run : CommandRun) {world : World}
    (reached : run.machine.Reachable world) {stream : ToolOutputStream}
    (complete : (world.pipe stream).complete = true)
    (unlimited : world.deltas.budget.truncated = false) :
    world.deltas.emitted stream = fromUtf8Lossy (chunksRead (run.reads stream)).flatten ↔
      Utf8Chunks.KeepsCharacters (chunksRead (run.reads stream)) := by
  obtain ⟨chunks, follows⟩ := (followed_of_reachable reached).streams stream
  rw [follows.text unlimited, follows.finished complete]
  exact Utf8Chunks.fromUtf8Lossy_parts _

end Runs

/-- A command that writes the two bytes of an accented letter, read in the chunks given. -/
def letterRun (chunks : List (List UInt8)) : CommandRun where
  command := "printf".toList
  pid := 7
  outputLimits := none
  reads
    | .stdout => chunks.map .ok
    | .stderr => []

/-- Everything is sent and drained. -/
def letterActions (chunks : List (List UInt8)) : List CommandRun.Action :=
  .send .stderr :: List.replicate (chunks.length + 1) (.send .stdout) ++ [.round]

theorem emitted_letter :
    ∃ world, (letterRun [[0x6F, 0xC3, 0xA9], [0x6B]]).machine.Reachable world ∧
      (world.deltas.emitted .stdout = fromUtf8Lossy [0x6F, 0xC3, 0xA9, 0x6B] ↔
        Utf8Chunks.KeepsCharacters [[0x6F, 0xC3, 0xA9], [0x6B]]) := by
  have ends : ((letterRun [[0x6F, 0xC3, 0xA9], [0x6B]]).machine.run
      (letterRun [[0x6F, 0xC3, 0xA9], [0x6B]]).start
      (letterActions [[0x6F, 0xC3, 0xA9], [0x6B]])).any (fun world =>
        (world.pipe .stdout).complete && !world.deltas.budget.truncated) = true := by
    decide
  obtain ⟨world, reaches, ended⟩ := (Option.any_eq_true ..).mp ends
  obtain ⟨complete, untruncated⟩ := Bool.and_eq_true_iff.mp ended
  have reached := Machine.reachable_of_run .start reaches
  exact ⟨world, reached,
    emitted_eq_stream_iff _ reached complete ((Bool.not_eq_true' _).mp untruncated)⟩

/-- A letter cut in two becomes two replacement characters. -/
theorem not_emitted_cutLetter :
    ¬∀ (run : CommandRun) (world : World) (stream : ToolOutputStream),
      run.machine.Reachable world → (world.pipe stream).complete = true →
      world.deltas.budget.truncated = false →
        world.deltas.emitted stream = fromUtf8Lossy (chunksRead (run.reads stream)).flatten := by
  have ends : ((letterRun [[0xC3], [0xA9]]).machine.run (letterRun [[0xC3], [0xA9]]).start
      (letterActions [[0xC3], [0xA9]])).any (fun world =>
        ((world.pipe .stdout).complete && !world.deltas.budget.truncated) &&
          decide (world.deltas.emitted .stdout ≠ fromUtf8Lossy [0xC3, 0xA9])) = true := by
    decide
  obtain ⟨world, reaches, ended⟩ := (Option.any_eq_true ..).mp ends
  obtain ⟨ended, differs⟩ := Bool.and_eq_true_iff.mp ended
  obtain ⟨complete, untruncated⟩ := Bool.and_eq_true_iff.mp ended
  intro all
  exact of_decide_eq_true differs (all _ world .stdout (Machine.reachable_of_run .start reaches)
    complete ((Bool.not_eq_true' _).mp untruncated))

end Foco.CommandPipes
