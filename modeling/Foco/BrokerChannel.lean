import Mathlib.Data.List.Nodup
import Foco.Maps
import Foco.Runs

/-!
`app/remote_workspace.rs`, the channel over which the sidecar asks the host for model turns and
tools. A request is filed in the map of pending requests and broadcast to every control socket; the
host runs one loop for each socket, starts a task for each request it reads, and answers on the same
socket. The handler of a socket takes the waiter of an answer from the map under its lock and sends
to it afterwards. A handler whose loop has ended takes itself off the count of sockets, and the last
one fails what is pending; until its task ends it still holds a receiver of the broadcast.
-/
namespace Foco.BrokerChannel
open Foco.Maps Foco.Runs

/-! ## Sockets and requests -/

/-- What is broadcast. Request ids are unique. -/
inductive Envelope where
  | request (id : Nat)
  | cancel (id : Nat)
  | heartbeat

/-- An envelope of type `stream`, or one of type `response` or `error`, which is terminal. -/
structure Answer where
  id : Nat
  terminal : Bool
  deriving DecidableEq

/-- Where the handler of a control socket stands. -/
inductive SocketPhase where
  /-- The broadcast is received; the upgrade is not done. -/
  | opening
  | serving
  /-- The loop has ended; the socket is still counted. -/
  | closed
  /-- Counted off as the last one; the pending requests have to be failed. -/
  | last
  /-- Done, but for the end of the task that holds the receiver. -/
  | left
  deriving DecidableEq

/-- A control socket: how much of the broadcast its handler has taken, what is on the way to the host
and back, and an answer whose waiter was taken from the map and not sent to yet. -/
structure Socket where
  phase : SocketPhase := .opening
  position : Nat
  toHost : List Envelope := []
  answers : List Answer := []
  holding : Option Answer := none

/-- Where a call of `remote_sidecar_broker_request` stands. -/
inductive CallPhase where
  /-- A socket was counted. -/
  | checked
  | inserted
  | published
  | refused
  deriving DecidableEq

/-- The sidecar's side and the host's tasks, by socket and request. Recorded are the sockets each
request was broadcast to, the requests the host has started, and what the waiters were sent. -/
structure Broker where
  pending : List Nat := []
  queue : List Envelope := []
  sockets : Map Nat Socket := ∅
  nextSocket : Nat := 0
  count : Nat := 0
  calls : Map Nat CallPhase := ∅
  tasks : List (Nat × Nat) := []
  routed : List (Nat × Nat) := []
  executed : List Nat := []
  delivered : List Answer := []

/-- The capacity of the broadcast. -/
def brokerCapacity : Nat := 256

namespace Broker

/-- `broker_pending.remove`. -/
def forget (id : Nat) (broker : Broker) : Broker :=
  { broker with pending := broker.pending.filter (· ≠ id) }

def setSocket (number : Nat) (socket : Socket) (broker : Broker) : Broker :=
  { broker with sockets := broker.sockets.insert number socket }

def setCall (id : Nat) (phase : CallPhase) (broker : Broker) : Broker :=
  { broker with calls := broker.calls.insert id phase }

end Broker

inductive Action where
  /-- A request finds a socket counted. -/
  | begin (id : Nat)
  | insert (id : Nat)
  | publish (id : Nat)
  /-- A cancel or a heartbeat is broadcast. -/
  | announce (envelope : Envelope)
  /-- The waiter times out or is cancelled, and removes its request. -/
  | giveUp (id : Nat)
  | openSocket
  | upgrade (socket : Nat)
  | abandon (socket : Nat)
  /-- The handler sends the next envelope of the broadcast to the host. -/
  | forward (socket : Nat)
  | lag (socket : Nat)
  | hostReceive (socket : Nat)
  | taskStream (socket id : Nat)
  | taskFinish (socket id : Nat)
  /-- The handler reads an answer and takes its waiter. -/
  | take (socket : Nat)
  | send (socket : Nat)
  | close (socket : Nat)
  | countOff (socket : Nat)
  /-- `remote_sidecar_fail_pending_broker_requests`. -/
  | drain (socket : Nat)
  | dropReceiver (socket : Nat)

/-- `remote_sidecar_broker_request`, in its steps. -/
def requestStep (broker : Broker) : Action → Option Broker
  | .begin id =>
    if broker.calls.lookup id = none ∧ broker.count ≠ 0 then some (broker.setCall id .checked)
    else none
  | .insert id =>
    if broker.calls.lookup id = some .checked then
      some { broker.setCall id .inserted with pending := id :: broker.pending }
    else none
  | .publish id =>
    if broker.calls.lookup id = some .inserted then
      if broker.sockets.entries.isEmpty then some ((broker.forget id).setCall id .refused)
      else
        some { broker.setCall id .published with
          queue := broker.queue ++ [.request id]
          routed := broker.routed ++ broker.sockets.keys.map fun socket => (id, socket) }
    else none
  | .announce envelope =>
    match envelope with
    | .request _ => none
    | envelope =>
      if broker.sockets.entries.isEmpty then some broker
      else some { broker with queue := broker.queue ++ [envelope] }
  | .giveUp id => some (broker.forget id)
  | _ => none

/-- The upgrade of a socket and the end of its handler. -/
def lifeStep (broker : Broker) : Action → Option Broker
  | .openSocket =>
    some { broker.setSocket broker.nextSocket { position := broker.queue.length } with
      nextSocket := broker.nextSocket + 1 }
  | .upgrade number =>
    match broker.sockets.lookup number with
    | some socket =>
      if socket.phase = .opening then
        some { broker.setSocket number { socket with phase := .serving } with
          count := broker.count + 1 }
      else none
    | none => none
  | .abandon number =>
    match broker.sockets.lookup number with
    | some socket =>
      if socket.phase = .opening then
        some { broker with sockets := broker.sockets.erase number }
      else none
    | none => none
  | .close number =>
    match broker.sockets.lookup number with
    | some socket =>
      if socket.phase = .serving ∧ socket.holding = none then
        some (broker.setSocket number { socket with phase := .closed, toHost := [], answers := [] })
      else none
    | none => none
  | .countOff number =>
    match broker.sockets.lookup number with
    | some socket =>
      if socket.phase = .closed then
        let phase := if broker.count = 1 then .last else .left
        some { broker.setSocket number { socket with phase } with count := broker.count - 1 }
      else none
    | none => none
  | .drain number =>
    match broker.sockets.lookup number with
    | some socket =>
      if socket.phase = .last then
        some { broker.setSocket number { socket with phase := .left } with
          pending := []
          delivered := broker.delivered ++ broker.pending.map fun id => ⟨id, true⟩ }
      else none
    | none => none
  | .dropReceiver number =>
    match broker.sockets.lookup number with
    | some socket =>
      if socket.phase = .left then some { broker with sockets := broker.sockets.erase number }
      else none
    | none => none
  | _ => none

/-- The loops of a handler and of the host at one socket, and the tasks of the host. -/
def trafficStep (broker : Broker) : Action → Option Broker
  | .forward number =>
    match broker.sockets.lookup number with
    | some socket =>
      if socket.phase = .serving ∧ socket.holding = none ∧
          broker.queue.length - socket.position ≤ brokerCapacity then
        (broker.queue[socket.position]?).map fun envelope =>
          broker.setSocket number { socket with
            position := socket.position + 1
            toHost := socket.toHost ++ [envelope] }
      else none
    | none => none
  | .lag number =>
    match broker.sockets.lookup number with
    | some socket =>
      if socket.phase = .serving ∧ socket.holding = none ∧
          brokerCapacity < broker.queue.length - socket.position then
        some (broker.setSocket number { socket with
          position := broker.queue.length - brokerCapacity })
      else none
    | none => none
  | .hostReceive number =>
    match broker.sockets.lookup number with
    | some socket =>
      if socket.phase = .serving then
        match socket.toHost with
        | [] => none
        | envelope :: rest =>
          let broker := broker.setSocket number { socket with toHost := rest }
          match envelope with
          | .request id =>
            some { broker with
              tasks := (number, id) :: broker.tasks
              executed := broker.executed ++ [id] }
          | .cancel _ | .heartbeat => some broker
      else none
    | none => none
  | .taskStream number id =>
    if (number, id) ∈ broker.tasks then
      match broker.sockets.lookup number with
      | some socket =>
        if socket.phase = .serving then
          some (broker.setSocket number { socket with answers := socket.answers ++ [⟨id, false⟩] })
        else some broker
      | none => some broker
    else none
  | .taskFinish number id =>
    if (number, id) ∈ broker.tasks then
      let broker := { broker with tasks := broker.tasks.filter (· ≠ (number, id)) }
      match broker.sockets.lookup number with
      | some socket =>
        if socket.phase = .serving then
          some (broker.setSocket number { socket with answers := socket.answers ++ [⟨id, true⟩] })
        else some broker
      | none => some broker
    else none
  | .take number =>
    match broker.sockets.lookup number with
    | some socket =>
      if socket.phase = .serving ∧ socket.holding = none then
        match socket.answers with
        | [] => none
        | answer :: rest =>
          let waits := answer.id ∈ broker.pending
          let broker := broker.setSocket number { socket with
            answers := rest
            holding := if waits then some answer else none }
          some (if answer.terminal then broker.forget answer.id else broker)
      else none
    | none => none
  | .send number =>
    match broker.sockets.lookup number with
    | some socket =>
      match socket.holding with
      | some answer =>
        some { broker.setSocket number { socket with holding := none } with
          delivered := broker.delivered ++ [answer] }
      | none => none
    | none => none
  | _ => none

def step (broker : Broker) (action : Action) : Option Broker :=
  ((requestStep broker action).or (lifeStep broker action)).or (trafficStep broker action)

/-- Any number of requests and sockets, in any order. -/
def brokerMachine : Machine Broker Action where
  start := {}
  step := step

/-! ## What the channel promises -/

/-- The ids of the requests among some envelopes. -/
def requests (envelopes : List Envelope) : List Nat :=
  envelopes.filterMap fun
    | .request id => some id
    | .cancel _ | .heartbeat => none

/-- What the host has still to read from an open socket. -/
def Socket.unread (queue : List Envelope) (socket : Socket) : List Nat :=
  match socket.phase with
  | .opening | .serving => requests (socket.toHost ++ queue.drop socket.position)
  | .closed | .last | .left => []

/-- A socket that will bring an answer: an open one that has the request queued, running or
answered, or one whose handler has still to clean up. -/
def Attends (broker : Broker) (number : Nat) (socket : Socket) (id : Nat) : Prop :=
  match socket.phase with
  | .opening | .serving =>
    id ∈ socket.unread broker.queue ∨ (number, id) ∈ broker.tasks ∨ ⟨id, true⟩ ∈ socket.answers
  | .closed | .last => True
  | .left => False

/-- One terminal answer and nothing after it, one execution, and no request left alone. -/
structure Answers (broker : Broker) : Prop where
  oneTerminal : broker.delivered.Pairwise fun first second =>
    first.id = second.id → first.terminal = false
  once : broker.executed.Nodup
  attended : ∀ id ∈ broker.pending, broker.calls.lookup id = some .published →
    ∃ number socket, broker.sockets.lookup number = some socket ∧ Attends broker number socket id

/-- A request is broadcast to a single receiver whose handler has not cleaned up; no handler loses
envelopes to lag; an upgrade fails, or a handler leaves that is not the last, only without a pending
request of its own; and pending requests are failed while no handler holds a waiter. -/
def oneSocketEach (broker : Broker) : Action → Bool
  | .publish _ =>
    match broker.sockets.entries with
    | [] => true
    | [⟨_, socket⟩] => socket.phase ≠ .left
    | _ => false
  | .lag _ => false
  | .abandon number => broker.pending.all fun id => (id, number) ∉ broker.routed
  | .countOff number =>
    broker.count = 1 ∨ broker.pending.all fun id => (id, number) ∉ broker.routed
  | .drain _ => broker.sockets.entries.all fun entry => entry.2.holding = none
  | _ => true

/-! ## The invariant of such runs -/

theorem requests_append (first second : List Envelope) :
    requests (first ++ second) = requests first ++ requests second :=
  List.filterMap_append

theorem lookup_setSocket (broker : Broker) (number other : Nat) (socket : Socket) :
    (broker.setSocket number socket).sockets.lookup other =
      if other = number then some socket else broker.sockets.lookup other :=
  Map.lookup_insert_eq_ite broker.sockets

theorem lookup_setCall (broker : Broker) (id other : Nat) (phase : CallPhase) :
    (broker.setCall id phase).calls.lookup other =
      if other = id then some phase else broker.calls.lookup other :=
  Map.lookup_insert_eq_ite broker.calls

/-- In the same phase a socket attends what it will bring an answer to. -/
theorem Attends.mono {broker broker' : Broker} {number id : Nat} {socket socket' : Socket}
    (attends : Attends broker number socket id) (phase : socket'.phase = socket.phase)
    (brings : id ∈ socket.unread broker.queue ∨ (number, id) ∈ broker.tasks ∨
        ⟨id, true⟩ ∈ socket.answers →
      id ∈ socket'.unread broker'.queue ∨ (number, id) ∈ broker'.tasks ∨
        ⟨id, true⟩ ∈ socket'.answers) : Attends broker' number socket' id := by
  rw [Attends] at attends ⊢
  rw [phase]
  revert attends
  cases socket.phase with
  | opening => exact brings
  | serving => exact brings
  | closed => exact fun attends => attends
  | last => exact fun attends => attends
  | left => exact fun attends => attends

/-- The request was inserted, whatever became of it. -/
def Filed (broker : Broker) (id : Nat) : Prop :=
  ∃ phase, broker.calls.lookup id = some phase ∧ phase ≠ .checked

/-- What is on its way at a socket was broadcast to this socket, and what the host has still to read
it reads for the first time. A waiter that is held was not sent a terminal envelope. -/
structure Serves (broker : Broker) (number : Nat) (socket : Socket) : Prop where
  position_le : socket.position ≤ broker.queue.length
  known : number < broker.nextSocket
  unread_nodup : (socket.unread broker.queue).Nodup
  unread : ∀ id ∈ socket.unread broker.queue, (id, number) ∈ broker.routed ∧ id ∉ broker.executed
  answers : ∀ answer ∈ socket.answers, (answer.id, number) ∈ broker.routed
  tasks : ∀ id, (number, id) ∈ broker.tasks → socket.phase ≠ .opening
  held : ∀ answer, socket.holding = some answer →
    socket.phase = .serving ∧ (answer.id, number) ∈ broker.routed ∧
      (∀ sent ∈ broker.delivered, sent.id = answer.id → sent.terminal = false) ∧
      (answer.terminal = true → answer.id ∉ broker.pending)

/-- Every request was broadcast to one socket, which attends it while it is pending. -/
structure Sound (broker : Broker) : Prop where
  serves : ∀ number socket, broker.sockets.lookup number = some socket → Serves broker number socket
  tasks : ∀ number id, (number, id) ∈ broker.tasks →
    (id, number) ∈ broker.routed ∧ number < broker.nextSocket
  routed : ∀ id number, (id, number) ∈ broker.routed → broker.calls.lookup id = some .published
  oneSocket : ∀ id number other, (id, number) ∈ broker.routed → (id, other) ∈ broker.routed →
    number = other
  executed : ∀ id ∈ broker.executed, ∃ number, (id, number) ∈ broker.routed
  once : broker.executed.Nodup
  pending : ∀ id ∈ broker.pending, Filed broker id
  pending_nodup : broker.pending.Nodup
  delivered : ∀ sent ∈ broker.delivered, sent.terminal = true →
    sent.id ∉ broker.pending ∧ Filed broker sent.id
  oneTerminal : broker.delivered.Pairwise fun first second =>
    first.id = second.id → first.terminal = false
  attended : ∀ id ∈ broker.pending, broker.calls.lookup id = some .published →
    ∃ number socket, broker.sockets.lookup number = some socket ∧
      (id, number) ∈ broker.routed ∧ Attends broker number socket id

theorem sound_start : Sound {} :=
  ⟨fun _ _ found => by simp [AList.lookup_empty] at found, nofun, nofun, nofun, nofun, .nil, nofun,
    .nil, nofun, .nil, nofun⟩

theorem Sound.answers {broker : Broker} (sound : Sound broker) : Answers broker :=
  ⟨sound.oneTerminal, sound.once, fun id waits published =>
    have ⟨number, socket, found, _, attends⟩ := sound.attended id waits published
    ⟨number, socket, found, attends⟩⟩

section Frames

variable {broker : Broker} (sound : Sound broker)
include sound

theorem Sound.setCount (count : Nat) : Sound { broker with count } :=
  { sound with serves := fun number socket found => { sound.serves number socket found with } }

/-- A socket may be replaced by one that serves as well and attends what the old one did. -/
theorem Sound.setSocket {number : Nat} {socket socket' : Socket}
    (found : broker.sockets.lookup number = some socket) (serves : Serves broker number socket')
    (attends : ∀ id ∈ broker.pending, (id, number) ∈ broker.routed →
      Attends broker number socket id → Attends broker number socket' id) :
    Sound (broker.setSocket number socket') := by
  refine { sound with serves := ?_, attended := ?_ }
  · intro other socket₁ found₁
    rw [lookup_setSocket] at found₁
    split at found₁
    · next same =>
      cases found₁
      subst same
      exact { serves with }
    · exact { sound.serves other socket₁ found₁ with }
  · intro id waits published
    obtain ⟨other, socket₁, found₁, routed, attended⟩ := sound.attended id waits published
    by_cases same : other = number
    · subst same
      rw [found] at found₁
      cases found₁
      exact ⟨other, socket', by rw [lookup_setSocket, if_pos rfl], routed,
        attends id waits routed attended⟩
    · exact ⟨other, socket₁, by rw [lookup_setSocket, if_neg same, found₁], routed, attended⟩

/-- A socket that attends no pending request may go. -/
theorem Sound.erase {number : Nat}
    (idle : ∀ socket, broker.sockets.lookup number = some socket →
      ∀ id ∈ broker.pending, (id, number) ∈ broker.routed → ¬Attends broker number socket id) :
    Sound { broker with sockets := broker.sockets.erase number } := by
  refine { sound with serves := ?_, attended := ?_ }
  · intro other socket found
    dsimp only at found
    rw [Map.lookup_erase_eq_ite] at found
    split at found
    · cases found
    · exact { sound.serves other socket found with }
  · intro id waits published
    obtain ⟨other, socket, found, routed, attended⟩ := sound.attended id waits published
    have apart : other ≠ number := by
      rintro rfl
      exact idle socket found id waits routed attended
    refine ⟨other, socket, ?_, routed, attended⟩
    dsimp only
    rw [Map.lookup_erase_eq_ite, if_neg apart, found]

theorem Sound.forget (id : Nat) : Sound (broker.forget id) := by
  have weaker : ∀ other, other ∈ (broker.forget id).pending → other ∈ broker.pending :=
    fun other mem => (List.mem_filter.mp mem).1
  refine { sound with serves := ?_, pending := ?_, pending_nodup := ?_, delivered := ?_,
                      attended := ?_ }
  · intro number socket found
    have serves := sound.serves number socket found
    refine { serves with held := fun answer holds => ?_ }
    obtain ⟨serving, routed, unsent, removed⟩ := serves.held answer holds
    exact ⟨serving, routed, unsent, fun terminal mem => removed terminal (weaker _ mem)⟩
  · exact fun other mem => sound.pending other (weaker other mem)
  · exact sound.pending_nodup.filter _
  · intro sent mem terminal
    obtain ⟨removed, filed⟩ := sound.delivered sent mem terminal
    exact ⟨fun waits => removed (weaker _ waits), filed⟩
  · exact fun other mem published => sound.attended other (weaker other mem) published

/-- A call that is not published before or after moves on. -/
theorem Sound.setCall {id : Nat} {phase : CallPhase}
    (before : broker.calls.lookup id ≠ some .published)
    (filed : Filed broker id → phase ≠ .checked)
    (after : phase = .published → id ∉ broker.pending) : Sound (broker.setCall id phase) := by
  have kept : ∀ other, Filed broker other → Filed (broker.setCall id phase) other := by
    rintro other ⟨old, found, inserted⟩
    rw [Filed, lookup_setCall]
    split
    · next same => exact ⟨phase, rfl, filed (same ▸ ⟨old, found, inserted⟩)⟩
    · exact ⟨old, found, inserted⟩
  refine { sound with serves := ?_, routed := ?_, pending := ?_, delivered := ?_, attended := ?_ }
  · exact fun number socket found => { sound.serves number socket found with }
  · intro other number routed
    have published := sound.routed other number routed
    rw [lookup_setCall, if_neg, published]
    rintro rfl
    exact before published
  · exact fun other waits => kept other (sound.pending other waits)
  · intro sent mem terminal
    obtain ⟨removed, inserted⟩ := sound.delivered sent mem terminal
    exact ⟨removed, kept _ inserted⟩
  · intro other waits published
    rw [lookup_setCall] at published
    split at published
    · next same =>
      cases published
      exact absurd (same ▸ waits) (after rfl)
    · exact sound.attended other waits published

/-- The waiter of an answer that no terminal envelope went before is sent it. -/
theorem Sound.deliver {answer : Answer} (filed : Filed broker answer.id)
    (unsent : ∀ sent ∈ broker.delivered, sent.id = answer.id → sent.terminal = false)
    (removed : answer.terminal = true → answer.id ∉ broker.pending)
    (free : ∀ number socket other, broker.sockets.lookup number = some socket →
      socket.holding = some other → answer.id ≠ other.id) :
    Sound { broker with delivered := broker.delivered ++ [answer] } := by
  refine { sound with serves := ?_, delivered := ?_, oneTerminal := ?_ }
  · intro number socket found
    have serves := sound.serves number socket found
    refine { serves with held := fun other holds => ?_ }
    obtain ⟨serving, routed, unsent', removed'⟩ := serves.held other holds
    refine ⟨serving, routed, fun sent mem same => ?_, removed'⟩
    obtain old | new := List.mem_append.mp mem
    · exact unsent' sent old same
    · rw [List.mem_singleton.mp new] at same
      exact absurd same (free number socket other found holds)
  · intro sent mem terminal
    obtain old | new := List.mem_append.mp mem
    · exact sound.delivered sent old terminal
    · rw [List.mem_singleton.mp new] at terminal ⊢
      exact ⟨removed terminal, filed⟩
  · refine List.pairwise_append.mpr ⟨sound.oneTerminal, List.pairwise_singleton _ _, ?_⟩
    intro sent mem other new
    rw [List.mem_singleton.mp new]
    exact unsent sent mem

end Frames

/-! ## Each step keeps it -/

theorem unread_append {queue more : List Envelope} {socket : Socket}
    (le : socket.position ≤ queue.length) :
    socket.unread (queue ++ more) = socket.unread queue ++
      if socket.phase = .opening ∨ socket.phase = .serving then requests more else [] := by
  rw [Socket.unread, Socket.unread, List.drop_append_of_le_length le, ← List.append_assoc,
    requests_append]
  cases socket.phase <;> simp

section Steps

variable {broker broker' : Broker} (sound : Sound broker)
include sound

/-- The request is read from the broadcast by the one socket there is. -/
theorem Sound.publish {id number : Nat} {socket : Socket}
    (filed : broker.calls.lookup id = some .inserted)
    (single : broker.sockets.entries = [⟨number, socket⟩]) (stays : socket.phase ≠ .left) :
    Sound { broker.setCall id .published with
      queue := broker.queue ++ [.request id]
      routed := broker.routed ++ [(id, number)] } := by
  have fresh : ∀ other, (id, other) ∉ broker.routed := by
    intro other routed
    rw [sound.routed id other routed] at filed
    cases filed
  have unexecuted : id ∉ broker.executed := fun mem =>
    have ⟨other, routed⟩ := sound.executed id mem
    fresh other routed
  have found : broker.sockets.lookup number = some socket := by
    rw [← Map.mem_entries_iff, single]
    exact List.mem_singleton_self _
  have only : ∀ other socket₁, broker.sockets.lookup other = some socket₁ →
      other = number ∧ socket₁ = socket := by
    intro other socket₁ found₁
    rw [← Map.mem_entries_iff, single, List.mem_singleton] at found₁
    cases found₁
    exact ⟨rfl, rfl⟩
  have kept : ∀ other, Filed broker other → Filed (broker.setCall id .published) other := by
    rintro other ⟨phase, looked, inserted⟩
    rw [Filed, lookup_setCall]
    split
    · exact ⟨_, rfl, nofun⟩
    · exact ⟨phase, looked, inserted⟩
  have serves := sound.serves number socket found
  have unread : socket.unread (broker.queue ++ [.request id]) = _ :=
    unread_append serves.position_le
  refine { sound with serves := ?_, tasks := ?_, routed := ?_, oneSocket := ?_, executed := ?_,
                      pending := ?_, delivered := ?_, attended := ?_ }
  · intro other socket₁ found₁
    obtain ⟨rfl, rfl⟩ := only other socket₁ found₁
    refine { serves with position_le := ?_, unread_nodup := ?_, unread := ?_, answers := ?_,
                         held := ?_ }
    · rw [List.length_append]
      exact Nat.le_trans serves.position_le (Nat.le_add_right _ _)
    · rw [unread]
      split
      · refine List.Nodup.append serves.unread_nodup (List.nodup_singleton id) ?_
        rintro other mem (_ | ⟨_, ⟨⟩⟩)
        exact fresh _ (serves.unread _ mem).1
      · rw [List.append_nil]
        exact serves.unread_nodup
    · intro other mem
      rw [unread] at mem
      obtain old | new := List.mem_append.mp mem
      · have ⟨routed, unexecuted⟩ := serves.unread other old
        exact ⟨List.mem_append_left _ routed, unexecuted⟩
      · split at new
        · obtain rfl := List.mem_singleton.mp new
          exact ⟨List.mem_append_right _ (List.mem_singleton_self _), unexecuted⟩
        · cases new
    · exact fun answer mem => List.mem_append_left _ (serves.answers answer mem)
    · intro answer holds
      obtain ⟨serving, routed, rest⟩ := serves.held answer holds
      exact ⟨serving, List.mem_append_left _ routed, rest⟩
  · intro other id₁ mem
    obtain ⟨routed, known⟩ := sound.tasks other id₁ mem
    exact ⟨List.mem_append_left _ routed, known⟩
  · intro other number₁ routed
    dsimp only
    rw [lookup_setCall]
    split
    · rfl
    · next apart =>
      obtain old | new := List.mem_append.mp routed
      · exact sound.routed other number₁ old
      · cases List.mem_singleton.mp new
        exact absurd rfl apart
  · intro other first second routed₁ routed₂
    obtain old₁ | new₁ := List.mem_append.mp routed₁ <;>
      obtain old₂ | new₂ := List.mem_append.mp routed₂
    · exact sound.oneSocket other first second old₁ old₂
    · cases List.mem_singleton.mp new₂
      exact absurd old₁ (fresh _)
    · cases List.mem_singleton.mp new₁
      exact absurd old₂ (fresh _)
    · cases List.mem_singleton.mp new₁
      cases List.mem_singleton.mp new₂
      rfl
  · intro other mem
    obtain ⟨number₁, routed⟩ := sound.executed other mem
    exact ⟨number₁, List.mem_append_left _ routed⟩
  · exact fun other waits => kept other (sound.pending other waits)
  · intro sent mem terminal
    obtain ⟨removed, inserted⟩ := sound.delivered sent mem terminal
    exact ⟨removed, kept _ inserted⟩
  · intro other waits published
    dsimp only at published
    rw [lookup_setCall] at published
    split at published
    · next same =>
      subst same
      refine ⟨number, socket, found, List.mem_append_right _ (List.mem_singleton_self _), ?_⟩
      rw [Attends]
      dsimp only
      rw [unread]
      split
      · next opening => exact .inl (List.mem_append_right _ (by simp [opening, requests]))
      · next serving => exact .inl (List.mem_append_right _ (by simp [serving, requests]))
      · trivial
      · trivial
      · next gone => exact stays gone
    · obtain ⟨number₁, socket₁, found₁, routed, attends⟩ := sound.attended other waits published
      obtain ⟨rfl, rfl⟩ := only number₁ socket₁ found₁
      refine ⟨_, _, found₁, List.mem_append_left _ routed, attends.mono rfl (.imp_left ?_)⟩
      dsimp only
      rw [unread]
      exact List.mem_append_left _

/-- A cancel or a heartbeat asks nothing of the host. -/
theorem Sound.broadcast {envelope : Envelope} (quiet : requests [envelope] = []) :
    Sound { broker with queue := broker.queue ++ [envelope] } := by
  have unread : ∀ socket : Socket, socket.position ≤ broker.queue.length →
      socket.unread (broker.queue ++ [envelope]) = socket.unread broker.queue := by
    intro socket le
    rw [unread_append le, quiet, ite_self, List.append_nil]
  refine { sound with serves := ?_, attended := ?_ }
  · intro number socket found
    have serves := sound.serves number socket found
    refine { serves with position_le := ?_, unread_nodup := ?_, unread := ?_ }
    · rw [List.length_append]
      exact Nat.le_trans serves.position_le (Nat.le_add_right _ _)
    · rw [unread socket serves.position_le]
      exact serves.unread_nodup
    · rw [unread socket serves.position_le]
      exact serves.unread
  · intro other waits published
    obtain ⟨number, socket, found, routed, attends⟩ := sound.attended other waits published
    refine ⟨number, socket, found, routed, attends.mono rfl (.imp_left ?_)⟩
    dsimp only
    rw [unread socket (sound.serves number socket found).position_le]
    exact id

/-- While no waiter is held, the pending requests may be failed. -/
theorem Sound.failPending (free : ∀ number socket answer,
      broker.sockets.lookup number = some socket → socket.holding ≠ some answer) :
    Sound { broker with
      pending := []
      delivered := broker.delivered ++ broker.pending.map fun id => ⟨id, true⟩ } := by
  refine { sound with serves := ?_, pending := nofun, pending_nodup := .nil, delivered := ?_,
                      oneTerminal := ?_, attended := nofun }
  · intro number socket found
    exact { sound.serves number socket found with
      held := fun answer holds => absurd holds (free number socket answer found) }
  · intro sent mem terminal
    refine ⟨nofun, ?_⟩
    obtain old | new := List.mem_append.mp mem
    · exact (sound.delivered sent old terminal).2
    · obtain ⟨id, waits, rfl⟩ := List.mem_map.mp new
      exact sound.pending id waits
  · refine List.pairwise_append.mpr ⟨sound.oneTerminal, ?_, ?_⟩
    · rw [List.pairwise_map]
      exact sound.pending_nodup.imp fun apart same => absurd same apart
    · intro sent mem other new same
      obtain ⟨id, waits, rfl⟩ := List.mem_map.mp new
      by_contra terminal
      exact (sound.delivered sent mem (by simpa using terminal)).1 (same ▸ waits)

theorem sound_requestStep {action : Action} (meets : oneSocketEach broker action = true)
    (stepped : requestStep broker action = some broker') : Sound broker' := by
  cases action <;> simp only [requestStep, reduceCtorEq] at stepped
  case begin id =>
    obtain ⟨⟨unknown, -⟩, same⟩ := Option.ite_none_right_eq_some.mp stepped
    cases same
    refine sound.setCall (by rw [unknown]; nofun) ?_ nofun
    rintro ⟨phase, found, -⟩
    rw [unknown] at found
    cases found
  case insert id =>
    obtain ⟨checked, same⟩ := Option.ite_none_right_eq_some.mp stepped
    cases same
    have unfiled : ¬Filed broker id := by
      rintro ⟨phase, found, inserted⟩
      rw [checked] at found
      cases found
      exact inserted rfl
    have moved : Sound (broker.setCall id .inserted) :=
      sound.setCall (by rw [checked]; nofun) (fun filed => absurd filed unfiled) nofun
    have filed : Filed (broker.setCall id .inserted) id :=
      ⟨.inserted, by rw [lookup_setCall, if_pos rfl], nofun⟩
    refine { moved with serves := ?_, pending := ?_, pending_nodup := ?_, delivered := ?_,
                        attended := ?_ }
    · intro number socket found
      have serves := moved.serves number socket found
      refine { serves with held := fun answer holds => ?_ }
      obtain ⟨serving, routed, unsent, removed⟩ := serves.held answer holds
      refine ⟨serving, routed, unsent, fun terminal mem => ?_⟩
      obtain same | waits := List.mem_cons.mp mem
      · have published := moved.routed _ _ routed
        rw [same, lookup_setCall, if_pos rfl] at published
        cases published
      · exact removed terminal waits
    · intro other mem
      obtain rfl | waits := List.mem_cons.mp mem
      · exact filed
      · exact moved.pending other waits
    · exact List.nodup_cons.mpr ⟨fun waits => unfiled (sound.pending id waits), sound.pending_nodup⟩
    · intro sent mem terminal
      obtain ⟨removed, inserted⟩ := moved.delivered sent mem terminal
      refine ⟨fun waits => ?_, inserted⟩
      obtain same | waits := List.mem_cons.mp waits
      · exact unfiled (same ▸ (sound.delivered sent mem terminal).2)
      · exact removed waits
    · intro other mem published
      obtain rfl | waits := List.mem_cons.mp mem
      · rw [lookup_setCall, if_pos rfl] at published
        cases published
      · exact moved.attended other waits published
  case publish id =>
    obtain ⟨inserted, same⟩ := Option.ite_none_right_eq_some.mp stepped
    split at same
    · cases same
      refine (sound.forget id).setCall ?_ (fun _ => nofun) nofun
      rw [show (broker.forget id).calls = broker.calls from rfl, inserted]
      nofun
    · next receivers =>
      cases same
      simp only [oneSocketEach] at meets
      split at meets
      · next none => exact absurd (by rw [none]; rfl) receivers
      · next number socket single =>
        rw [AList.keys, single]
        exact sound.publish inserted single (of_decide_eq_true meets)
      · cases meets
  case announce envelope =>
    split at stepped
    · cases stepped
    · next quiet =>
      split at stepped
      · cases stepped
        exact sound
      · cases stepped
        refine sound.broadcast ?_
        cases envelope with
        | request id => exact absurd rfl (quiet id)
        | cancel id => rfl
        | heartbeat => rfl
  case giveUp id =>
    cases stepped
    exact sound.forget id

omit sound in
/-- Nothing is left to read at a socket in a later phase. -/
theorem Serves.ended {number : Nat} {socket : Socket} {toHost : List Envelope}
    {answers : List Answer} (serves : Serves broker number socket) (phase : SocketPhase)
    (opened : phase ≠ .opening) (served : phase ≠ .serving)
    (routed : ∀ answer ∈ answers, (answer.id, number) ∈ broker.routed)
    (free : socket.holding = none) :
    Serves broker number { socket with phase, toHost, answers } := by
  have unread : ({ socket with phase, toHost, answers } : Socket).unread broker.queue = [] := by
    cases phase <;> first | rfl | contradiction
  refine { serves with unread_nodup := ?_, unread := ?_, answers := routed, tasks := ?_, held := ?_ }
  · rw [unread]
    exact .nil
  · rw [unread]
    nofun
  · exact fun _ _ => opened
  · dsimp only
    rw [free]
    nofun

theorem sound_lifeStep {action : Action} (meets : oneSocketEach broker action = true)
    (stepped : lifeStep broker action = some broker') : Sound broker' := by
  cases action <;> simp only [lifeStep, reduceCtorEq] at stepped
  case openSocket =>
    cases stepped
    have serves : Serves { broker with nextSocket := broker.nextSocket + 1 } broker.nextSocket
        { position := broker.queue.length } := by
      refine ⟨Nat.le_refl _, Nat.lt_succ_self _, ?_, ?_, nofun, ?_, nofun⟩
      · simp [Socket.unread, requests]
      · simp [Socket.unread, requests]
      · exact fun id mem => absurd (sound.tasks _ id mem).2 (Nat.lt_irrefl _)
    refine { sound with serves := ?_, tasks := ?_, attended := ?_ }
    · intro number socket found
      dsimp only at found
      rw [lookup_setSocket] at found
      split at found
      · next same =>
        cases found
        subst same
        exact { serves with }
      · have old := sound.serves number socket found
        exact { old with known := Nat.lt_succ_of_lt old.known }
    · intro number id mem
      obtain ⟨routed, known⟩ := sound.tasks number id mem
      exact ⟨routed, Nat.lt_succ_of_lt known⟩
    · intro id waits published
      obtain ⟨number, socket, found, routed, attends⟩ := sound.attended id waits published
      refine ⟨number, socket, ?_, routed, attends⟩
      dsimp only
      rw [lookup_setSocket, if_neg (Nat.ne_of_lt (sound.serves number socket found).known), found]
  case upgrade number =>
    split at stepped
    · next socket found =>
      have serves := sound.serves number socket found
      obtain ⟨opening, same⟩ := Option.ite_none_right_eq_some.mp stepped
      cases same
      have same : ({ socket with phase := .serving } : Socket).unread broker.queue =
          socket.unread broker.queue := by
        simp only [Socket.unread, opening]
      have serves' : Serves broker number { socket with phase := .serving } :=
        { serves with
          unread_nodup := same ▸ serves.unread_nodup
          unread := same ▸ serves.unread
          tasks := nofun
          held := fun answer holds => ⟨rfl, (serves.held answer holds).2⟩ }
      refine (sound.setSocket found serves' fun id _ _ attends => ?_).setCount _
      simp only [Attends, opening, same] at attends ⊢
      exact attends
    · cases stepped
  case abandon number =>
    split at stepped
    · next socket found =>
      obtain ⟨opening, same⟩ := Option.ite_none_right_eq_some.mp stepped
      cases same
      refine sound.erase fun _ _ id waits routed => ?_
      exact absurd routed (of_decide_eq_true (List.all_eq_true.mp meets id waits))
    · cases stepped
  case close number =>
    split at stepped
    · next socket found =>
      have serves := sound.serves number socket found
      obtain ⟨⟨serving, free⟩, same⟩ := Option.ite_none_right_eq_some.mp stepped
      cases same
      exact sound.setSocket found (serves.ended .closed nofun nofun nofun free)
        fun _ _ _ _ => trivial
    · cases stepped
  case countOff number =>
    split at stepped
    · next socket found =>
      have serves := sound.serves number socket found
      obtain ⟨closed, same⟩ := Option.ite_none_right_eq_some.mp stepped
      cases same
      have free : socket.holding = none := by
        refine Option.eq_none_iff_forall_ne_some.mpr fun answer holds => ?_
        have serving := (serves.held answer holds).1
        rw [closed] at serving
        cases serving
      by_cases single : broker.count = 1
      · simp only [if_pos single]
        have serves' : Serves broker number { socket with phase := .last } :=
          serves.ended .last nofun nofun serves.answers free
        exact (sound.setSocket found serves' fun _ _ _ _ => trivial).setCount _
      · simp only [if_neg single]
        have serves' : Serves broker number { socket with phase := .left } :=
          serves.ended .left nofun nofun serves.answers free
        refine (sound.setSocket found serves' fun id waits routed _ => ?_).setCount _
        have idle := (of_decide_eq_true meets).resolve_left single
        exact absurd routed (of_decide_eq_true (List.all_eq_true.mp idle id waits))
    · cases stepped
  case drain number =>
    split at stepped
    · next socket found =>
      have serves := sound.serves number socket found
      obtain ⟨last, same⟩ := Option.ite_none_right_eq_some.mp stepped
      cases same
      have free : ∀ other socket₁ answer, broker.sockets.lookup other = some socket₁ →
          socket₁.holding ≠ some answer := by
        intro other socket₁ answer found₁ holds
        have none := of_decide_eq_true
          (List.all_eq_true.mp meets ⟨other, socket₁⟩ (Map.mem_entries_iff.mpr found₁))
        rw [none] at holds
        cases holds
      have failed := sound.failPending free
      have unheld : socket.holding = none :=
        Option.eq_none_iff_forall_ne_some.mpr fun answer => free number socket answer found
      refine @Sound.setSocket _ failed _ _ { socket with phase := .left } found ?_ nofun
      exact (failed.serves number socket found).ended .left nofun nofun serves.answers unheld
    · cases stepped
  case dropReceiver number =>
    split at stepped
    · next socket found =>
      obtain ⟨gone, same⟩ := Option.ite_none_right_eq_some.mp stepped
      cases same
      refine sound.erase fun socket₁ found₁ id _ _ attends => ?_
      rw [found] at found₁
      cases found₁
      simp only [Attends, gone] at attends
    · cases stepped

/-- The host starts a task for a request it has not read before. -/
theorem Sound.execute {number id : Nat} {socket : Socket} {rest : List Envelope}
    (found : broker.sockets.lookup number = some socket) (serving : socket.phase = .serving)
    (next : socket.toHost = .request id :: rest) :
    Sound { broker.setSocket number { socket with toHost := rest } with
      tasks := (number, id) :: broker.tasks
      executed := broker.executed ++ [id] } := by
  have serves := sound.serves number socket found
  have unread : socket.unread broker.queue =
      id :: ({ socket with toHost := rest } : Socket).unread broker.queue := by
    simp only [Socket.unread, serving, next]
    rfl
  have nodup := serves.unread_nodup
  rw [unread] at nodup
  obtain ⟨apart, nodup⟩ := List.nodup_cons.mp nodup
  obtain ⟨routed, unexecuted⟩ := serves.unread id (unread ▸ List.mem_cons_self)
  refine { sound with serves := ?_, tasks := ?_, executed := ?_, once := ?_, attended := ?_ }
  · intro other socket₁ found₁
    dsimp only at found₁
    rw [lookup_setSocket] at found₁
    split at found₁
    · next same =>
      cases found₁
      subst same
      refine { serves with unread_nodup := nodup, unread := fun id₁ mem => ?_, tasks := ?_ }
      · obtain ⟨routed₁, unexecuted₁⟩ := serves.unread id₁ (unread ▸ List.mem_cons_of_mem _ mem)
        refine ⟨routed₁, fun done => ?_⟩
        obtain old | new := List.mem_append.mp done
        · exact unexecuted₁ old
        · exact apart (List.mem_singleton.mp new ▸ mem)
      · intro _ _ opening
        rw [serving] at opening
        cases opening
    · next elsewhere =>
      have serves₁ := sound.serves other socket₁ found₁
      refine { serves₁ with unread := fun id₁ mem => ?_, tasks := fun id₁ mem => ?_ }
      · obtain ⟨routed₁, unexecuted₁⟩ := serves₁.unread id₁ mem
        refine ⟨routed₁, fun done => ?_⟩
        obtain old | new := List.mem_append.mp done
        · exact unexecuted₁ old
        · rw [List.mem_singleton.mp new] at routed₁
          exact elsewhere (sound.oneSocket id other number routed₁ routed)
      · obtain same | old := List.mem_cons.mp mem
        · cases same
          exact absurd rfl elsewhere
        · exact serves₁.tasks id₁ old
  · intro other id₁ mem
    obtain same | old := List.mem_cons.mp mem
    · cases same
      exact ⟨routed, serves.known⟩
    · exact sound.tasks other id₁ old
  · intro id₁ mem
    obtain old | new := List.mem_append.mp mem
    · exact sound.executed id₁ old
    · exact ⟨number, List.mem_singleton.mp new ▸ routed⟩
  · refine List.Nodup.append sound.once (List.nodup_singleton id) ?_
    rintro other mem (_ | ⟨_, ⟨⟩⟩)
    exact unexecuted mem
  · intro id₁ waits published
    obtain ⟨other, socket₁, found₁, routed₁, attends⟩ := sound.attended id₁ waits published
    by_cases same : other = number
    · subst same
      rw [found] at found₁
      cases found₁
      refine ⟨other, { socket with toHost := rest }, ?_, routed₁,
        attends.mono rfl fun brought => ?_⟩
      · dsimp only
        rw [lookup_setSocket, if_pos rfl]
      · rw [unread] at brought
        obtain queued | running | answered := brought
        · obtain rfl | behind := List.mem_cons.mp queued
          · exact .inr (.inl List.mem_cons_self)
          · exact .inl behind
        · exact .inr (.inl (List.mem_cons_of_mem _ running))
        · exact .inr (.inr answered)
    · refine ⟨other, socket₁, ?_, routed₁, ?_⟩
      · dsimp only
        rw [lookup_setSocket, if_neg same, found₁]
      · exact attends.mono rfl (.imp_right (.imp_left (List.mem_cons_of_mem _)))

/-- More answers on a socket are answers to requests that were broadcast to it. -/
theorem Sound.answer {number : Nat} {socket : Socket} {answer : Answer}
    (found : broker.sockets.lookup number = some socket)
    (routed : (answer.id, number) ∈ broker.routed) :
    Sound (broker.setSocket number { socket with answers := socket.answers ++ [answer] }) := by
  have serves := sound.serves number socket found
  refine sound.setSocket found { serves with answers := fun other mem => ?_ } ?_
  · obtain old | new := List.mem_append.mp mem
    · exact serves.answers other old
    · exact List.mem_singleton.mp new ▸ routed
  · exact fun id _ _ attends => attends.mono rfl (.imp_right (.imp_right (List.mem_append_left _)))

/-- A task may end that has answered, or whose socket does not serve any more. -/
theorem Sound.finish {number id : Nat}
    (answered : ∀ socket, broker.sockets.lookup number = some socket → socket.phase = .serving →
      ⟨id, true⟩ ∈ socket.answers)
    (running : (number, id) ∈ broker.tasks) :
    Sound { broker with tasks := broker.tasks.filter (· ≠ (number, id)) } := by
  refine { sound with serves := ?_, tasks := ?_, attended := ?_ }
  · intro other socket found
    have serves := sound.serves other socket found
    exact { serves with tasks := fun id₁ mem => serves.tasks id₁ (List.mem_filter.mp mem).1 }
  · exact fun other id₁ mem => sound.tasks other id₁ (List.mem_filter.mp mem).1
  · intro id₁ waits published
    obtain ⟨other, socket, found, routed, attends⟩ := sound.attended id₁ waits published
    refine ⟨other, socket, found, routed, ?_⟩
    by_cases same : (other, id₁) = (number, id)
    · cases same
      have opened := (sound.serves _ socket found).tasks _ running
      rw [Attends] at attends ⊢
      split at attends
      · next opening => exact absurd opening opened
      · next serving => exact .inr (.inr (answered socket found serving))
      · trivial
      · trivial
      · cases attends
    · have kept : (other, id₁) ∈ broker.tasks →
          (other, id₁) ∈ broker.tasks.filter (· ≠ (number, id)) :=
        fun mem => List.mem_filter.mpr ⟨mem, decide_eq_true same⟩
      exact attends.mono rfl (.imp_right (.imp_left kept))

theorem sound_trafficStep {action : Action} (meets : oneSocketEach broker action = true)
    (stepped : trafficStep broker action = some broker') : Sound broker' := by
  cases action <;> simp only [trafficStep, reduceCtorEq] at stepped
  case forward number =>
    split at stepped
    · next socket found =>
      have serves := sound.serves number socket found
      obtain ⟨⟨serving, free, -⟩, moved⟩ := Option.ite_none_right_eq_some.mp stepped
      obtain ⟨envelope, here, rfl⟩ := Option.map_eq_some_iff.mp moved
      obtain ⟨within, same⟩ := List.getElem?_eq_some_iff.mp here
      -- The envelope goes from the broadcast to the connection.
      have unread : ({ socket with
            position := socket.position + 1
            toHost := socket.toHost ++ [envelope] } : Socket).unread broker.queue =
          socket.unread broker.queue := by
        simp only [Socket.unread, serving]
        rw [List.drop_eq_getElem_cons within, same, List.append_assoc, List.singleton_append]
      refine sound.setSocket found { serves with position_le := within, unread_nodup := ?_,
                                                 unread := ?_ } ?_
      · exact unread ▸ serves.unread_nodup
      · exact unread ▸ serves.unread
      · exact fun id _ _ attends => attends.mono rfl (.imp_left fun mem => unread ▸ mem)
    · cases stepped
  case lag number => cases meets
  case hostReceive number =>
    split at stepped
    · next socket found =>
      have serves := sound.serves number socket found
      obtain ⟨serving, moved⟩ := Option.ite_none_right_eq_some.mp stepped
      split at moved
      · cases moved
      · next envelope rest here =>
        have other (quiet : requests [envelope] = []) :
            Sound (broker.setSocket number { socket with toHost := rest }) := by
          have unread : ({ socket with toHost := rest } : Socket).unread broker.queue =
              socket.unread broker.queue := by
            simp only [Socket.unread, serving, here]
            rw [← List.singleton_append, List.append_assoc, requests_append [envelope], quiet,
              List.nil_append]
          refine sound.setSocket found { serves with unread_nodup := ?_, unread := ?_ } ?_
          · exact unread ▸ serves.unread_nodup
          · exact unread ▸ serves.unread
          · exact fun id _ _ attends => attends.mono rfl (.imp_left fun mem => unread ▸ mem)
        cases envelope with
        | request id =>
          cases moved
          exact sound.execute found serving here
        | cancel id =>
          cases moved
          exact other rfl
        | heartbeat =>
          cases moved
          exact other rfl
    · cases stepped
  case taskStream number id =>
    obtain ⟨running, moved⟩ := Option.ite_none_right_eq_some.mp stepped
    split at moved
    · next socket found =>
      split at moved
      · cases moved
        exact sound.answer found (sound.tasks number id running).1
      · cases moved
        exact sound
    · cases moved
      exact sound
  case taskFinish number id =>
    obtain ⟨running, moved⟩ := Option.ite_none_right_eq_some.mp stepped
    split at moved
    · next socket found =>
      split at moved
      · next serving =>
        cases moved
        have answered : Sound (broker.setSocket number
            { socket with answers := socket.answers ++ [⟨id, true⟩] }) :=
          sound.answer found (sound.tasks number id running).1
        refine answered.finish (fun socket₁ found₁ _ => ?_) running
        rw [lookup_setSocket, if_pos rfl] at found₁
        cases found₁
        exact List.mem_append_right _ (List.mem_singleton_self _)
      · next ceased =>
        cases moved
        refine sound.finish (fun socket₁ found₁ serving => ?_) running
        rw [found] at found₁
        cases found₁
        exact absurd serving ceased
    · next missing =>
      cases moved
      refine sound.finish (fun socket₁ found₁ _ => ?_) running
      rw [missing] at found₁
      cases found₁
  case take number =>
    split at stepped
    · next socket found =>
      have serves := sound.serves number socket found
      obtain ⟨⟨serving, free⟩, moved⟩ := Option.ite_none_right_eq_some.mp stepped
      split at moved
      · cases moved
      · next answer rest here =>
        have routed : (answer.id, number) ∈ broker.routed :=
          serves.answers answer (here ▸ List.mem_cons_self)
        have behind : ∀ other ∈ rest, (other.id, number) ∈ broker.routed :=
          fun other mem => serves.answers other (here ▸ List.mem_cons_of_mem _ mem)
        have unsent (waits : answer.id ∈ broker.pending) :
            ∀ sent ∈ broker.delivered, sent.id = answer.id → sent.terminal = false := by
          intro sent mem same
          by_contra terminal
          exact (sound.delivered sent mem (by simpa using terminal)).1 (same ▸ waits)
        split at moved
        · next terminal =>
          cases moved
          have forgot := sound.forget answer.id
          refine forgot.setSocket found { forgot.serves number socket found with
            answers := behind, held := ?_ } ?_
          · intro held holds
            obtain ⟨waits, same⟩ := Option.ite_none_right_eq_some.mp holds
            cases same
            refine ⟨serving, routed, unsent waits, fun _ mem => ?_⟩
            exact absurd rfl (of_decide_eq_true (List.mem_filter.mp mem).2)
          · intro id waits _ attends
            refine attends.mono rfl (.imp_right (.imp_right fun mem => ?_))
            obtain first | later := List.mem_cons.mp (here ▸ mem)
            · have apart := of_decide_eq_true (List.mem_filter.mp waits).2
              exact absurd (congrArg Answer.id first) apart
            · exact later
        · next streamed =>
          cases moved
          refine sound.setSocket found { serves with answers := behind, held := ?_ } ?_
          · intro held holds
            obtain ⟨waits, same⟩ := Option.ite_none_right_eq_some.mp holds
            cases same
            exact ⟨serving, routed, unsent waits, fun terminal => absurd terminal streamed⟩
          · intro id _ _ attends
            refine attends.mono rfl (.imp_right (.imp_right fun mem => ?_))
            obtain first | later := List.mem_cons.mp (here ▸ mem)
            · exact absurd (congrArg Answer.terminal first.symm) streamed
            · exact later
    · cases stepped
  case send number =>
    split at stepped
    · next socket found =>
      have serves := sound.serves number socket found
      split at stepped
      · next answer holds =>
        cases stepped
        obtain ⟨-, routed, unsent, removed⟩ := serves.held answer holds
        have freed : Sound (broker.setSocket number { socket with holding := none }) :=
          sound.setSocket found { serves with held := nofun } fun _ _ _ attends =>
            attends.mono rfl id
        refine freed.deliver ⟨.published, sound.routed _ _ routed, nofun⟩ unsent removed ?_
        intro other socket₁ held found₁ holds₁ same
        rw [lookup_setSocket] at found₁
        split at found₁
        · cases found₁
          cases holds₁
        · next apart =>
          obtain ⟨-, routed₁, -⟩ := (sound.serves other socket₁ found₁).held held holds₁
          exact apart (sound.oneSocket _ _ _ routed₁ (same ▸ routed))
      · cases stepped
    · cases stepped

theorem sound_step {action : Action} (meets : oneSocketEach broker action = true)
    (stepped : step broker action = some broker') : Sound broker' := by
  obtain earlier | traffic := Option.or_eq_some_iff.mp stepped
  · obtain request | ⟨-, life⟩ := Option.or_eq_some_iff.mp earlier
    · exact sound_requestStep sound meets request
    · exact sound_lifeStep sound meets life
  · exact sound_trafficStep sound meets traffic.2

end Steps

/-- In every run that has one receiver for each request, the channel keeps its promise. -/
theorem broker_answers {broker : Broker}
    (reached : brokerMachine.ReachableWhile (fun s a => oneSocketEach s a = true) broker) :
    Answers broker := by
  have keep : ∀ broker action broker', Sound broker → oneSocketEach broker action = true →
      brokerMachine.step broker action = some broker' → Sound broker' :=
    fun _ _ _ sound meets stepped => sound_step sound meets stepped
  exact (reached.invariant sound_start keep).answers

section Runs

/-- A request is broadcast while a number of sockets serve. -/
private def published (sockets : List Nat) : List Action :=
  (sockets.flatMap fun socket => [.openSocket, .upgrade socket]) ++
    [.begin 7, .insert 7, .publish 7]

/-- Before the old socket is seen closed, a reconnected host reads the request from both. -/
theorem answers_not_always : ¬ ∀ broker, brokerMachine.Reachable broker → Answers broker := by
  intro always
  have twice : (brokerMachine.run {} (published [0, 1] ++
      [Action.forward 0, .forward 1, .hostReceive 0, .hostReceive 1])).any
      (fun broker => broker.executed == [7, 7]) = true := by
    decide
  obtain ⟨broker, run, same⟩ := (Option.any_eq_true _ _).mp twice
  have once := (always broker (Machine.reachable_of_run .start run)).once
  rw [beq_iff_eq.mp same] at once
  exact absurd once (by decide)

/-- With one socket, the waiter gets a stream envelope and then the response. -/
theorem broker_answers_streamed : ∃ broker, Answers broker ∧
    broker.delivered = [⟨7, false⟩, ⟨7, true⟩] := by
  have streamed : (brokerMachine.runWhile oneSocketEach {} (published [0] ++
      [Action.forward 0, .hostReceive 0, .taskStream 0 7, .taskFinish 0 7, .take 0, .send 0,
        .take 0, .send 0])).any (fun broker => broker.delivered == [⟨7, false⟩, ⟨7, true⟩]) = true := by
    decide
  obtain ⟨broker, run, same⟩ := (Option.any_eq_true _ _).mp streamed
  exact ⟨broker, broker_answers (Machine.reachableWhile_of_runWhile .start run),
    beq_iff_eq.mp same⟩

end Runs

end Foco.BrokerChannel
