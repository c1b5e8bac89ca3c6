import Foco.Runs
import Foco.Utf8Lossy

/-!
`app/terminal.rs`: a terminal session. A reader thread decodes what the process wrote chunk by
chunk, a waiter thread reports the end of the process, and both put their messages into the
queue of the connection loop, which leaves at the first message that marks an end.
-/
namespace Foco.TerminalSession
open Foco.RustText Foco.Runs

/-! ## The session -/

/-- What the two threads send to the connection loop. -/
inductive PtyOutput where
  | output (data : Text)
  | error (message : Text)
  | exit (status : Text)
  | closed

inductive ServerTerminalEvent where
  | output (data : Text)
  | cwd (cwd : Text)
  | exit (status : Text)
  | error (message : Text)

/-- A session after its `Started` event. Counts of bytes are positions in the stream that the
process writes in all. -/
structure Session where
  written : Nat := 0
  /-- The process has ended. -/
  finished : Bool := false
  /-- How far the reader has read. -/
  position : Nat := 0
  reading : Bool := true
  waiting : Bool := true
  queue : List PtyOutput := []
  /-- The connection loop has not left. -/
  looping : Bool := true
  events : List ServerTerminalEvent := []

/-- What can happen, the process and the client included. -/
inductive Action where
  | write (count : Nat)
  | finish
  | read (count : Nat)
  | readEnd
  | readError (source : Text)
  | wait (status : Text)
  | waitError (source : Text)
  /-- The loop takes a message; the tracker of the directory may have something to say first. -/
  | receive (notice : Option (Except Text Text))
  /-- An input of the client, which the terminal may refuse. -/
  | input (failure : Option Text)
  | resize (failure : Option Text)
  | invalid (source : Text)
  | disconnect
  | heartbeatFailed
  | shutdown

namespace Session

def send (session : Session) (event : ServerTerminalEvent) : Session :=
  { session with events := session.events ++ [event] }

def enqueue (session : Session) (output : PtyOutput) : Session :=
  { session with queue := session.queue ++ [output] }

/-- The loop breaks and the session ends with its `Exit` event. -/
def leave (session : Session) (exitStatus : Option Text) : Session :=
  { session.send (.exit (exitStatus.getD "terminal exited".toList)) with looping := false }

/-- What `persist_terminal_cwd` makes of a directory that `CwdTracker::observe` has found. -/
def sendNotice (session : Session) : Option (Except Text Text) → Session
  | none => session
  | some (.ok cwd) => session.send (.cwd cwd)
  | some (.error message) => session.send (.error message)

/-- The loop's arm for one message of the queue. -/
def consume (session : Session) (notice : Option (Except Text Text)) : PtyOutput → Session
  | .output data => (session.sendNotice notice).send (.output data)
  | .error message => (session.send (.error message)).leave none
  | .exit status => session.leave (some status)
  | .closed => session.leave (some "terminal output stream closed".toList)

end Session

/-- The reader's buffer. -/
def bufferSize : Nat := 8192

/-- One step of a session whose process writes the given bytes. -/
def step (stream : List UInt8) (session : Session) : Action → Option Session
  | .write count =>
    if session.finished = false ∧ session.written + count ≤ stream.length then
      some { session with written := session.written + count }
    else none
  | .finish =>
    if session.written = stream.length then some { session with finished := true } else none
  | .read count =>
    if session.reading ∧ 0 < count ∧ count ≤ bufferSize ∧
        session.position + count ≤ session.written then
      let buffer := (stream.drop session.position).take count
      some { session.enqueue (.output (fromUtf8Lossy buffer)) with
        position := session.position + count }
    else none
  | .readEnd =>
    if session.reading ∧ session.finished ∧ session.position = session.written then
      some { session.enqueue .closed with reading := false }
    else none
  | .readError source =>
    if session.reading then
      some { session.enqueue (.error ("failed to read terminal output: ".toList ++ source)) with
        reading := false }
    else none
  | .wait status =>
    if session.waiting ∧ session.finished then
      some { session.enqueue (.exit status) with waiting := false }
    else none
  | .waitError source =>
    if session.waiting then
      some { session.enqueue (.error ("failed to wait for terminal process: ".toList ++ source)) with
        waiting := false }
    else none
  | .receive notice =>
    match session.queue with
    | [] => none
    | output :: rest =>
      if session.looping then some ({ session with queue := rest }.consume notice output) else none
  | .input failure =>
    if session.looping then
      match failure with
      | none => some session
      | some source =>
        let told := session.send (.error ("failed to write terminal input: ".toList ++ source))
        some (told.leave none)
    else none
  | .resize failure =>
    if session.looping then
      match failure with
      | none => some session
      | some message => some (session.send (.error message))
    else none
  | .invalid source =>
    if session.looping then
      some (session.send (.error ("invalid terminal event: ".toList ++ source)))
    else none
  | .disconnect => if session.looping then some (session.leave none) else none
  | .heartbeatFailed =>
    if session.looping then
      some (session.leave (some "terminal websocket heartbeat failed".toList))
    else none
  | .shutdown =>
    if session.looping then some (session.leave (some "app shutdown".toList)) else none

def machine (stream : List UInt8) : Machine Session Action where
  start := {}
  step := step stream

/-! ## What the client is shown -/

/-- The text of an `Output` event. -/
def ServerTerminalEvent.shown : ServerTerminalEvent → Text
  | .output data => data
  | _ => []

def PtyOutput.pending : PtyOutput → Text
  | .output data => data
  | _ => []

def PtyOutput.isOutput : PtyOutput → Bool
  | .output _ => true
  | _ => false

/-- The output sent before an `Exit` event is the whole stream, decoded at once. -/
def Session.ShowsStream (stream : List UInt8) (session : Session) : Prop :=
  ∀ before status after, session.events = before ++ .exit status :: after →
    before.flatMap ServerTerminalEvent.shown = fromUtf8Lossy stream

/-- The client stays, the app runs on and no read fails. -/
def undisturbed (_ : Session) : Action → Bool
  | .readError _ | .disconnect | .heartbeatFailed | .shutdown => false
  | _ => true

/-- An undisturbed step that loses no output: each chunk ends between two characters, the end of
the process is reported after the reader has read everything, and an input is refused only when
all of the output has been sent. -/
def losesNothing (stream : List UInt8) (session : Session) (action : Action) : Bool :=
  undisturbed session action &&
    match action with
    | .read count => endsCharacter (stream.drop session.position) count
    | .wait _ | .waitError _ => decide (session.position = stream.length)
    | .input (some _) => decide (session.position = stream.length) &&
        session.queue.all fun output => !output.isOutput
    | _ => true

/-! ## The invariant -/

/-- What has been sent, what is queued and what has not been read make up the stream. -/
structure Complete (stream : List UInt8) (session : Session) : Prop where
  read : session.position ≤ session.written
  written : session.written ≤ stream.length
  finished : session.finished = true → session.written = stream.length
  text : session.looping = true →
    session.events.flatMap ServerTerminalEvent.shown ++
      (session.queue.flatMap PtyOutput.pending ++ fromUtf8Lossy (stream.drop session.position)) =
        fromUtf8Lossy stream
  /-- An end is marked after everything has been read. -/
  marked : ∀ output ∈ session.queue, output.isOutput = false → session.position = stream.length
  /-- No output comes after a mark. -/
  ordered : session.queue.Pairwise fun first second =>
    first.isOutput = false → second.isOutput = false
  unfinished : session.looping = true → ∀ status, .exit status ∉ session.events
  shown : session.ShowsStream stream

section Steps

variable {stream : List UInt8} {session : Session}

theorem pending_of_marks {queue : List PtyOutput}
    (marks : ∀ output ∈ queue, output.isOutput = false) :
    queue.flatMap PtyOutput.pending = [] := by
  refine List.flatMap_eq_nil_iff.mpr fun output mem => ?_
  have mark := marks output mem
  cases output with
  | output data => cases mark
  | error message => rfl
  | exit status => rfl
  | closed => rfl

/-- An event that is neither output nor exit. -/
theorem Complete.send (complete : Complete stream session) (looping : session.looping = true)
    {event : ServerTerminalEvent} (silent : event.shown = [])
    (other : ∀ status, event ≠ .exit status) : Complete stream (session.send event) := by
  refine { complete with text := ?_, unfinished := ?_, shown := ?_ }
  · intro _
    have text := complete.text looping
    change (session.events ++ [event]).flatMap ServerTerminalEvent.shown ++ _ = _
    rw [List.flatMap_append, List.flatMap_singleton, silent, List.append_nil]
    exact text
  · intro _ status mem
    obtain earlier | last := List.mem_append.mp mem
    · exact complete.unfinished looping status earlier
    · exact other status (List.mem_singleton.mp last).symm
  · intro before status after same
    have mem : ServerTerminalEvent.exit status ∈ session.events ++ [event] := by
      change session.events ++ [event] = _ at same
      rw [same]
      exact List.mem_append_right before List.mem_cons_self
    obtain earlier | last := List.mem_append.mp mem
    · exact absurd earlier (complete.unfinished looping status)
    · exact absurd (List.mem_singleton.mp last).symm (other status)

/-- The loop leaves when everything has been sent. -/
theorem Complete.leave (complete : Complete stream session) (looping : session.looping = true)
    (read : session.position = stream.length)
    (sent : session.queue.flatMap PtyOutput.pending = []) (exitStatus : Option Text) :
    Complete stream (session.leave exitStatus) := by
  have text := complete.text looping
  rw [read, List.drop_length, sent, List.nil_append] at text
  change _ ++ [] = _ at text
  rw [List.append_nil] at text
  refine { complete with text := nofun, unfinished := nofun, shown := ?_ }
  intro before status after same
  change session.events ++ [_] = before ++ _ at same
  obtain ⟨middle, front, back⟩ | ⟨middle, front, back⟩ := List.append_eq_append_iff.mp same
  · cases middle with
    | nil =>
      rw [List.append_nil] at front
      rw [front]
      exact text
    | cons event middle => simp at back
  · cases middle with
    | nil =>
      rw [List.append_nil] at front
      rw [← front]
      exact text
    | cons event middle =>
      obtain ⟨rfl, -⟩ := List.cons.inj back
      refine absurd ?_ (complete.unfinished looping status)
      rw [front]
      exact List.mem_append_right before List.mem_cons_self

/-- A message that marks an end, put into the queue when everything has been read. -/
theorem Complete.mark (complete : Complete stream session)
    (read : session.position = stream.length) {output : PtyOutput}
    (mark : output.isOutput = false) : Complete stream (session.enqueue output) := by
  refine { complete with text := ?_, marked := ?_, ordered := ?_ }
  · intro looping
    have text := complete.text looping
    have silent : PtyOutput.pending output = [] := by cases output <;> first | rfl | cases mark
    change _ ++ ((session.queue ++ [output]).flatMap PtyOutput.pending ++ _) = _
    rw [List.flatMap_append, List.flatMap_singleton, silent, List.append_nil]
    exact text
  · intro _ _ _
    exact read
  · change (session.queue ++ [output]).Pairwise _
    refine List.pairwise_append.mpr ⟨complete.ordered, List.pairwise_singleton _ _, ?_⟩
    intro _ _ second last _
    rw [List.mem_singleton.mp last]
    exact mark

/-- A chunk that ends between two characters. -/
theorem Complete.chunk (complete : Complete stream session) {count : Nat} (nonempty : 0 < count)
    (available : session.position + count ≤ session.written)
    (between : endsCharacter (stream.drop session.position) count = true) :
    Complete stream { session.enqueue
        (.output (fromUtf8Lossy ((stream.drop session.position).take count))) with
      position := session.position + count } := by
  have within : session.position + count ≤ stream.length := le_trans available complete.written
  have unmarked : ∀ output ∈ session.queue, ¬output.isOutput = false := fun output mem mark => by
    have all := complete.marked output mem mark
    omega
  refine ⟨available, complete.written, complete.finished, ?_, ?_, ?_, complete.unfinished,
    complete.shown⟩
  · intro looping
    have text := complete.text looping
    rw [fromUtf8Lossy_split between, List.drop_drop] at text
    change _ ++ ((session.queue ++ [_]).flatMap PtyOutput.pending ++ _) = _
    rw [List.flatMap_append, List.flatMap_singleton, List.append_assoc]
    exact text
  · intro output mem mark
    obtain queued | last := List.mem_append.mp mem
    · exact absurd mark (unmarked output queued)
    · rw [List.mem_singleton.mp last] at mark
      cases mark
  · change (session.queue ++ [_]).Pairwise _
    refine List.pairwise_append.mpr ⟨complete.ordered, List.pairwise_singleton _ _, ?_⟩
    intro first mem _ _ mark
    exact absurd mark (unmarked first mem)

/-- The loop takes a chunk from the queue. -/
theorem Complete.forward (complete : Complete stream session) (looping : session.looping = true)
    {data : Text} {rest : List PtyOutput} (queued : session.queue = .output data :: rest) :
    Complete stream ({ session with queue := rest }.send (.output data)) := by
  refine { complete with text := ?_, marked := ?_, ordered := ?_, unfinished := ?_, shown := ?_ }
  · intro _
    have text := complete.text looping
    rw [queued, List.flatMap_cons, List.append_assoc, ← List.append_assoc] at text
    change (session.events ++ [_]).flatMap ServerTerminalEvent.shown ++ _ = _
    rw [List.flatMap_append, List.flatMap_singleton]
    exact text
  · intro output mem
    refine complete.marked output ?_
    rw [queued]
    exact List.mem_cons_of_mem _ mem
  · have ordered := complete.ordered
    rw [queued] at ordered
    exact ordered.of_cons
  · intro _ status mem
    obtain earlier | last := List.mem_append.mp mem
    · exact complete.unfinished looping status earlier
    · cases List.mem_singleton.mp last
  · intro before status after same
    have mem : ServerTerminalEvent.exit status ∈ session.events ++ [.output data] := by
      change session.events ++ [_] = _ at same
      rw [same]
      exact List.mem_append_right before List.mem_cons_self
    obtain earlier | last := List.mem_append.mp mem
    · exact absurd earlier (complete.unfinished looping status)
    · cases List.mem_singleton.mp last

/-- At a mark everything has been read, and nothing that is queued after it is output. -/
theorem Complete.atMark (complete : Complete stream session) {output : PtyOutput}
    {rest : List PtyOutput} (queued : session.queue = output :: rest)
    (mark : output.isOutput = false) :
    session.position = stream.length ∧ rest.flatMap PtyOutput.pending = [] := by
  have ordered := complete.ordered
  rw [queued] at ordered
  refine ⟨complete.marked output ?_ mark, ?_⟩
  · rw [queued]
    exact List.mem_cons_self
  · exact pending_of_marks fun other mem => (List.pairwise_cons.mp ordered).1 other mem mark

/-- Dropping a mark from the queue. -/
theorem Complete.unmark (complete : Complete stream session) {output : PtyOutput}
    {rest : List PtyOutput} (queued : session.queue = output :: rest)
    (mark : output.isOutput = false) : Complete stream { session with queue := rest } := by
  have silent : PtyOutput.pending output = [] := by cases output <;> first | rfl | cases mark
  have ordered := complete.ordered
  rw [queued] at ordered
  refine { complete with text := ?_, marked := ?_, ordered := ordered.of_cons }
  · intro looping
    have text := complete.text looping
    rw [queued, List.flatMap_cons, silent] at text
    exact text
  · intro other mem
    refine complete.marked other ?_
    rw [queued]
    exact List.mem_cons_of_mem _ mem

theorem Complete.sendNotice (complete : Complete stream session)
    (looping : session.looping = true) (notice : Option (Except Text Text)) :
    Complete stream (session.sendNotice notice) := by
  match notice with
  | none => exact complete
  | some (.ok cwd) => exact complete.send looping rfl nofun
  | some (.error message) => exact complete.send looping rfl nofun

theorem sendNotice_queue (notice : Option (Except Text Text)) :
    (session.sendNotice notice).queue = session.queue := by
  match notice with
  | none | some (.ok _) | some (.error _) => rfl

theorem sendNotice_looping (notice : Option (Except Text Text)) :
    (session.sendNotice notice).looping = session.looping := by
  match notice with
  | none | some (.ok _) | some (.error _) => rfl

theorem consume_output {notice : Option (Except Text Text)} {data : Text}
    {rest : List PtyOutput} :
    { session with queue := rest }.consume notice (.output data) =
      { session.sendNotice notice with queue := rest }.send (.output data) := by
  match notice with
  | none | some (.ok _) | some (.error _) => rfl

theorem Complete.consume (complete : Complete stream session) (looping : session.looping = true)
    {output : PtyOutput} {rest : List PtyOutput} (queued : session.queue = output :: rest)
    (notice : Option (Except Text Text)) :
    Complete stream ({ session with queue := rest }.consume notice output) := by
  cases output with
  | output data =>
    rw [consume_output]
    refine (complete.sendNotice looping notice).forward ?_ ?_
    · rw [sendNotice_looping]
      exact looping
    · rw [sendNotice_queue]
      exact queued
  | error message =>
    obtain ⟨read, sent⟩ := complete.atMark queued rfl
    have told : Complete stream ({ session with queue := rest }.send (.error message)) :=
      (complete.unmark queued rfl).send looping rfl nofun
    exact told.leave looping read sent none
  | exit status =>
    obtain ⟨read, sent⟩ := complete.atMark queued rfl
    exact (complete.unmark queued rfl).leave looping read sent (some status)
  | closed =>
    obtain ⟨read, sent⟩ := complete.atMark queued rfl
    exact (complete.unmark queued rfl).leave looping read sent _

end Steps

theorem Complete.step {stream : List UInt8} {session session' : Session} {action : Action}
    (complete : Complete stream session) (cond : losesNothing stream session action = true)
    (stepped : step stream session action = some session') : Complete stream session' := by
  obtain ⟨calm, kept⟩ := Bool.and_eq_true_iff.mp cond
  cases action with
  | write count =>
    obtain ⟨⟨running, fits⟩, ⟨⟩⟩ := Option.ite_none_right_eq_some.mp stepped
    have read := complete.read
    refine { complete with read := ?_, written := fits, finished := ?_ }
    · change session.position ≤ session.written + count
      omega
    · intro ended
      cases running.symm.trans ended
  | finish =>
    obtain ⟨all, ⟨⟩⟩ := Option.ite_none_right_eq_some.mp stepped
    exact { complete with finished := fun _ => all }
  | read count =>
    obtain ⟨⟨-, nonempty, -, available⟩, ⟨⟩⟩ := Option.ite_none_right_eq_some.mp stepped
    exact complete.chunk nonempty available kept
  | readEnd =>
    obtain ⟨⟨-, ended, read⟩, ⟨⟩⟩ := Option.ite_none_right_eq_some.mp stepped
    have marked : Complete stream (session.enqueue .closed) :=
      complete.mark (read.trans (complete.finished ended)) rfl
    exact { marked with }
  | readError source => cases calm
  | wait status =>
    obtain ⟨-, ⟨⟩⟩ := Option.ite_none_right_eq_some.mp stepped
    have marked : Complete stream (session.enqueue (.exit status)) :=
      complete.mark (of_decide_eq_true kept) rfl
    exact { marked with }
  | waitError source =>
    obtain ⟨-, ⟨⟩⟩ := Option.ite_none_right_eq_some.mp stepped
    have marked : Complete stream
        (session.enqueue (.error ("failed to wait for terminal process: ".toList ++ source))) :=
      complete.mark (of_decide_eq_true kept) rfl
    exact { marked with }
  | receive notice =>
    simp only [TerminalSession.step] at stepped
    split at stepped
    · cases stepped
    · next output rest queued =>
      obtain ⟨looping, ⟨⟩⟩ := Option.ite_none_right_eq_some.mp stepped
      exact complete.consume looping queued notice
  | input failure =>
    obtain ⟨looping, taken⟩ := Option.ite_none_right_eq_some.mp stepped
    cases failure with
    | none =>
      cases taken
      exact complete
    | some source =>
      cases taken
      obtain ⟨read, sent⟩ := Bool.and_eq_true_iff.mp kept
      have marks : ∀ output ∈ session.queue, output.isOutput = false := fun output mem => by
        simpa using List.all_eq_true.mp sent output mem
      have told : Complete stream
          (session.send (.error ("failed to write terminal input: ".toList ++ source))) :=
        complete.send looping rfl nofun
      exact told.leave looping (of_decide_eq_true read) (pending_of_marks marks) none
  | resize failure =>
    obtain ⟨looping, taken⟩ := Option.ite_none_right_eq_some.mp stepped
    cases failure with
    | none =>
      cases taken
      exact complete
    | some message =>
      cases taken
      exact complete.send looping rfl nofun
  | invalid source =>
    obtain ⟨looping, ⟨⟩⟩ := Option.ite_none_right_eq_some.mp stepped
    exact complete.send looping rfl nofun
  | disconnect => cases calm
  | heartbeatFailed => cases calm
  | shutdown => cases calm

theorem complete_start (stream : List UInt8) : Complete stream (machine stream).start where
  read := Nat.le_refl 0
  written := Nat.zero_le _
  finished := nofun
  text := fun _ => rfl
  marked := by simp [machine]
  ordered := .nil
  unfinished := by simp [machine]
  shown := by
    intro before status after same
    simp [machine] at same

/-- In a run in which no step loses output, whatever the chunks and the order of the threads, the
client is shown the whole stream before the session's end. -/
theorem showsStream_of_losesNothing (stream : List UInt8) (session : Session)
    (reached : (machine stream).ReachableWhile
      (fun state action => losesNothing stream state action = true) session) :
    session.ShowsStream stream :=
  (reached.invariant (complete_start stream) fun _ _ _ complete cond stepped =>
    complete.step cond stepped).shown

/-- A character of two bytes that is read in one chunk, and the end of the process reported
after it. -/
theorem showsStream_oneChunk :
    ∃ session : Session,
      session.events = [.output "é".toList, .exit "terminal output stream closed".toList] ∧
        session.ShowsStream [0xC3, 0xA9] := by
  obtain ⟨session, run, sent⟩ : ∃ session : Session,
      (machine [0xC3, 0xA9]).runWhile (losesNothing [0xC3, 0xA9]) {}
        [.write 2, .read 2, .receive none, .finish, .readEnd, .wait "0".toList, .receive none] =
          some session ∧
        session.events =
          [.output "é".toList, .exit "terminal output stream closed".toList] := ⟨_, rfl, rfl⟩
  exact ⟨session, sent, showsStream_of_losesNothing _ _
    (Machine.reachableWhile_of_runWhile .start run)⟩

/-- The waiter can report the end of the process before the reader has read its output. -/
theorem not_showsStream :
    ¬ ∀ (stream : List UInt8) (session : Session),
      (machine stream).ReachableWhile
        (fun state action => undisturbed state action = true) session →
      session.ShowsStream stream := by
  intro shows
  obtain ⟨session, run, sent⟩ : ∃ session : Session,
      (machine [0x6F, 0x6B]).runWhile undisturbed {}
        [.write 2, .finish, .wait "0".toList, .receive none] = some session ∧
        session.events = [.exit "0".toList] := ⟨_, rfl, rfl⟩
  have whole := shows [0x6F, 0x6B] session (Machine.reachableWhile_of_runWhile .start run)
    [] "0".toList [] sent
  cases whole

end Foco.TerminalSession
