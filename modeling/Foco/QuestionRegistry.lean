import Foco.ApiErrors
import Foco.MachineIntegers
import Foco.Maps
import Foco.Oneshot
import Foco.Result
import Foco.Runs

/-!
`app/runtime/questions.rs`: the questions that wait for an answer of the user. A question is
filed under an id its caller chose, with the sender of a one-shot channel; the caller holds the
receiver in a registration, whose drop removes whatever is filed under the id by then. Each
operation holds the lock of the registry, so a run is a sequence of them. A poisoned lock
needs a panic while the lock is held, which no operation here can have, and is left out with
the registration times, which only order what is listed.
-/
namespace Foco.Questions
open Foco.RustText Foco.Maps Foco.Oneshot Foco.Result Foco.Runs

/-! ## Requests and answers -/

structure QuestionOption where
  label : Text
  value : Text
  description : Option Text
  deriving DecidableEq

structure QuestionItem where
  id : Text
  question : Text
  options : List QuestionOption
  allowFreeText : Bool
  deriving DecidableEq

structure QuestionRequest where
  id : Text
  toolCallId : Text
  workspaceId : Text
  chatId : Text
  questions : List QuestionItem
  deriving DecidableEq

structure QuestionItemAnswer where
  id : Text
  answer : Text
  selectedOptionValue : Option Text

structure QuestionAnswer where
  answers : List QuestionItemAnswer

/-- `validate_question_item_answer`. -/
def validateQuestionItemAnswer (question : QuestionItem) (answer : QuestionItemAnswer) :
    Except ApiError Unit :=
  let answerText := trim answer.answer
  match (answer.selectedOptionValue.map trim).filter fun value => !value.isEmpty with
  | some selected =>
    match question.options.find? fun option => option.value = selected with
    | none => .error (.badRequest ("selected option was not found for question item '".toList ++
        question.id ++ "': ".toList ++ selected))
    | some option =>
      if answerText ≠ option.value then
        .error (.badRequest
          "answer must match selectedOptionValue when an option is selected".toList)
      else .ok ()
  | none =>
    if !question.allowFreeText then
      .error (.badRequest ("question item '".toList ++ question.id ++
        "' requires selecting one of the provided options".toList))
    else if answerText.isEmpty then .error (.badRequest "answer must not be empty".toList)
    else .ok ()

/-- The loop of `validate_question_answer` over the answers, with the ids answered so far. -/
def validateAnswers (request : QuestionRequest) :
    List Text → List QuestionItemAnswer → Except ApiError (List Text)
  | answered, [] => .ok answered
  | answered, answer :: rest => do
    let questionId := trim answer.id
    if questionId.isEmpty then
      throw (.badRequest "answer question id must not be empty".toList)
    if answered.contains questionId then
      throw (.badRequest ("duplicate answer for question item: ".toList ++ questionId))
    match request.questions.find? fun question => question.id = questionId with
    | none =>
      throw (.badRequest ("answer references unknown question item: ".toList ++ questionId))
    | some question =>
      validateQuestionItemAnswer question answer
      validateAnswers request (answered ++ [questionId]) rest

/-- `validate_question_answer`. -/
def validateQuestionAnswer (request : QuestionRequest) (answer : QuestionAnswer) :
    Except ApiError Unit := do
  if answer.answers.length ≠ request.questions.length then
    throw (.badRequest ("question '".toList ++ request.id ++
      "' requires answers for all ".toList ++ natText request.questions.length ++
      " questions".toList))
  let answered ← validateAnswers request [] answer.answers
  match request.questions.find? fun question => !answered.contains question.id with
  | some question =>
    throw (.badRequest ("missing answer for question item: ".toList ++ question.id))
  | none => return ()

/-! ## The registry -/

/-- `PendingQuestion`, with the channel its sender belongs to. -/
structure PendingQuestion where
  request : QuestionRequest
  answerTx : Nat
  deriving DecidableEq

/-- `QuestionRegistration` as its holder has it: the channel of its receiver, and the request
it was made for. The id its drop removes is the id of that request. -/
structure QuestionRegistration where
  answerRx : Nat
  request : QuestionRequest
  deriving DecidableEq

/-- The map of the registry, the channels, and the registrations not yet dropped. -/
structure Questions where
  pending : Map Text PendingQuestion := ∅
  channels : Pool QuestionAnswer := {}
  live : List QuestionRegistration := []

/-- `QuestionRegistry::register`. The insertion comes first, so a duplicate has already
replaced the question filed under the id when it is refused: the old sender is dropped with
the old entry, and the new receiver with the refused call. -/
def register (request : QuestionRequest) (state : Questions) :
    Questions × Except ApiError QuestionRegistration :=
  let channel := state.channels.next
  let pending := state.pending.insert request.id ⟨request, channel⟩
  match state.pending.lookup request.id with
  | some replaced =>
    ({ state with
        pending
        channels := (state.channels.opened.dropSender replaced.answerTx).dropReceiver channel },
      .error (.internal ("duplicate pending question id: ".toList ++ request.id)))
  | none =>
    let registration : QuestionRegistration := ⟨channel, request⟩
    ({ pending, channels := state.channels.opened, live := state.live ++ [registration] },
      .ok registration)

/-- `QuestionRegistry::answer`. -/
def answer (questionId : Text) (answer : QuestionAnswer) (state : Questions) :
    Questions × Except ApiError Unit :=
  let questionId := trim questionId
  if questionId.isEmpty then
    (state, .error (.badRequest "question id must not be empty".toList))
  else
    match state.pending.lookup questionId with
    | none => (state, .error (.badRequest
        ("question is not waiting for an answer: ".toList ++ questionId)))
    | some question =>
      match validateQuestionAnswer question.request answer with
      | .error error => (state, .error error)
      | .ok () =>
        let pending := state.pending.erase questionId
        match state.channels.send question.answerTx answer with
        | .ok channels => ({ state with pending, channels }, .ok ())
        | .error _ =>
          ({ state with pending, channels := state.channels.dropSender question.answerTx },
            .error (.badRequest
              ("question is no longer waiting for an answer: ".toList ++ questionId)))

/-- The channels without the sender of a removed question. -/
def dropRemoved (channels : Pool QuestionAnswer) : Option PendingQuestion → Pool QuestionAnswer
  | some removed => channels.dropSender removed.answerTx
  | none => channels

/-- Dropping a `QuestionRegistration`: its receiver goes, and `QuestionCleanup::drop` removes
what is filed under the id. -/
def dropRegistration (registration : QuestionRegistration) (state : Questions) : Questions where
  pending := state.pending.erase registration.request.id
  channels := dropRemoved (state.channels.dropReceiver registration.answerRx)
    (state.pending.lookup registration.request.id)
  live := state.live.erase registration

/-- The operations. -/
inductive Action where
  | register (request : QuestionRequest)
  | answer (questionId : Text) (answer : QuestionAnswer)
  | drop (registration : QuestionRegistration)

/-- One operation; only a registration that is alive can be dropped. -/
def step (state : Questions) : Action → Option Questions
  | .register request => some (register request state).1
  | .answer questionId given => some (answer questionId given state).1
  | .drop registration =>
    if registration ∈ state.live then some (dropRegistration registration state) else none

/-- The registry with its callers. -/
def questionMachine : Machine Questions Action where
  start := {}
  step := step

/-! ## What every operation keeps -/

/-- A question is filed under its own id, and who still waits for it holds the registration that
was made with it. -/
structure Filed (state : Questions) : Prop where
  filed : ∀ id question, state.pending.lookup id = some question →
    question.request.id = id ∧ question.answerTx < state.channels.next
  waiter : ∀ id question, state.pending.lookup id = some question →
    state.channels.Waits question.answerTx → ⟨question.answerTx, question.request⟩ ∈ state.live
  opened : ∀ registration ∈ state.live, registration.answerRx < state.channels.next
  apart : state.live.Pairwise fun first second => first.answerRx ≠ second.answerRx

variable {state : Questions} {request : QuestionRequest} {questionId : Text}
  {given : QuestionAnswer} {registration : QuestionRegistration}

theorem filed_register (filed : Filed state) : Filed (register request state).1 := by
  unfold register
  dsimp only
  have later : ∀ id question,
      (state.pending.insert request.id ⟨request, state.channels.next⟩).lookup id =
        some question → (question = ⟨request, state.channels.next⟩ ∧ id = request.id) ∨
          state.pending.lookup id = some question := by
    intro id question found
    rw [Map.lookup_insert_eq_ite] at found
    split at found
    · next same => exact .inl ⟨(Option.some.inj found).symm, same⟩
    · exact .inr found
  split
  · next replaced present =>
    refine ⟨fun id question found => ?_, fun id question found waits => ?_, ?_, filed.apart⟩
    · rw [Pool.next_dropReceiver, Pool.next_dropSender, Pool.next_opened]
      obtain ⟨rfl, rfl⟩ | old := later id question found
      · exact ⟨rfl, Nat.lt_succ_self _⟩
      · exact ⟨(filed.filed id question old).1, Nat.lt_succ_of_lt (filed.filed id question old).2⟩
    · obtain ⟨before, notNew⟩ := Pool.waits_dropReceiver.mp waits
      obtain ⟨rfl, rfl⟩ | old := later id question found
      · exact absurd rfl notNew
      · have waited := Pool.waits_opened.mp (Pool.waits_dropSender.mp before)
        exact filed.waiter id question old (waited.resolve_left notNew)
    · intro registration mem
      rw [Pool.next_dropReceiver, Pool.next_dropSender, Pool.next_opened]
      exact Nat.lt_succ_of_lt (filed.opened registration mem)
  · next absent =>
    refine ⟨fun id question found => ?_, fun id question found waits => ?_, ?_, ?_⟩
    · rw [Pool.next_opened]
      obtain ⟨rfl, rfl⟩ | old := later id question found
      · exact ⟨rfl, Nat.lt_succ_self _⟩
      · exact ⟨(filed.filed id question old).1, Nat.lt_succ_of_lt (filed.filed id question old).2⟩
    · obtain ⟨rfl, rfl⟩ | old := later id question found
      · exact List.mem_append_right _ (List.mem_singleton_self _)
      · have bound := (filed.filed id question old).2
        have waited := (Pool.waits_opened.mp waits).resolve_left (Nat.ne_of_lt bound)
        exact List.mem_append_left _ (filed.waiter id question old waited)
    · intro registration mem
      rw [Pool.next_opened]
      obtain old | new := List.mem_append.mp mem
      · exact Nat.lt_succ_of_lt (filed.opened registration old)
      · rw [List.mem_singleton.mp new]
        exact Nat.lt_succ_self _
    · refine List.pairwise_append.mpr ⟨filed.apart, List.pairwise_singleton _ _, ?_⟩
      intro first old second new
      rw [List.mem_singleton.mp new]
      exact Nat.ne_of_lt (filed.opened first old)

variable (state questionId given) in
/-- What an answer can do: nothing, or to remove the question it was validated against, whose
channel then has the answer or nobody who waits for it. -/
theorem answer_cases :
    (∃ error, answer questionId given state = (state, .error error)) ∨
      ∃ question, state.pending.lookup (trim questionId) = some question ∧
        validateQuestionAnswer question.request given = .ok () ∧
        ((∃ channels, state.channels.send question.answerTx given = .ok channels ∧
            answer questionId given state =
              ({ state with pending := state.pending.erase (trim questionId), channels },
                .ok ())) ∨
          ∃ error, answer questionId given state =
            ({ state with
                pending := state.pending.erase (trim questionId)
                channels := state.channels.dropSender question.answerTx }, .error error)) := by
  unfold answer
  dsimp only
  split
  · exact .inl ⟨_, rfl⟩
  · split
    · exact .inl ⟨_, rfl⟩
    · next question found =>
      split
      · exact .inl ⟨_, rfl⟩
      · next valid =>
        refine .inr ⟨question, found, valid, ?_⟩
        split
        · next channels sent => exact .inl ⟨channels, sent, rfl⟩
        · exact .inr ⟨_, rfl⟩

theorem lookup_of_erase {id key : Text} {question : PendingQuestion}
    (found : (state.pending.erase key).lookup id = some question) :
    id ≠ key ∧ state.pending.lookup id = some question := by
  rw [Map.lookup_erase_eq_ite] at found
  split at found
  · cases found
  · next apart => exact ⟨apart, found⟩

theorem filed_answer (filed : Filed state) : Filed (answer questionId given state).1 := by
  obtain ⟨error, same⟩ | ⟨question, found, valid, ⟨channels, sent, same⟩ | ⟨error, same⟩⟩ :=
    answer_cases state questionId given
  · rw [same]
    exact filed
  · rw [same]
    obtain ⟨-, next, -, -, waits⟩ := Pool.send_eq_ok sent
    refine ⟨fun id other left => ?_, fun id other left waiting => ?_, ?_, filed.apart⟩
    · rw [next]
      exact filed.filed id other (lookup_of_erase left).2
    · exact filed.waiter id other (lookup_of_erase left).2 ((waits _).mp waiting)
    · intro registration mem
      rw [next]
      exact filed.opened registration mem
  · rw [same]
    refine ⟨fun id other left => ?_, fun id other left waiting => ?_, ?_, filed.apart⟩
    · rw [Pool.next_dropSender]
      exact filed.filed id other (lookup_of_erase left).2
    · exact filed.waiter id other (lookup_of_erase left).2 (Pool.waits_dropSender.mp waiting)
    · intro registration mem
      rw [Pool.next_dropSender]
      exact filed.opened registration mem

theorem next_dropRemoved (channels : Pool QuestionAnswer) (removed : Option PendingQuestion) :
    (dropRemoved channels removed).next = channels.next := by
  cases removed with
  | none => rfl
  | some removed => exact Pool.next_dropSender

theorem waits_dropRemoved (channels : Pool QuestionAnswer) (removed : Option PendingQuestion)
    (channel : Nat) : (dropRemoved channels removed).Waits channel ↔ channels.Waits channel := by
  cases removed with
  | none => rfl
  | some removed => exact Pool.waits_dropSender

theorem filed_drop (filed : Filed state) : Filed (dropRegistration registration state) := by
  refine ⟨fun id question left => ?_, fun id question left waiting => ?_, ?_,
    filed.apart.sublist (List.erase_sublist ..)⟩
  · change _ ∧ _ < (dropRemoved _ _).next
    rw [next_dropRemoved, Pool.next_dropReceiver]
    exact filed.filed id question (lookup_of_erase left).2
  · obtain ⟨before, notDropped⟩ := Pool.waits_dropReceiver.mp ((waits_dropRemoved ..).mp waiting)
    have live := filed.waiter id question (lookup_of_erase left).2 before
    refine (List.mem_erase_of_ne ?_).mpr live
    rintro rfl
    exact notDropped rfl
  · intro other mem
    change _ < (dropRemoved _ _).next
    rw [next_dropRemoved, Pool.next_dropReceiver]
    exact filed.opened other (List.mem_of_mem_erase mem)

theorem filed_start : Filed questionMachine.start := by
  refine ⟨fun id question found => ?_, fun id question found => ?_, nofun, .nil⟩ <;>
    (rw [questionMachine, AList.lookup_empty] at found; cases found)

theorem filed_of_reachable (reached : questionMachine.Reachable state) : Filed state := by
  refine reached.invariant filed_start ?_
  intro state action state' filed stepped
  cases action with
  | register request =>
    cases stepped
    exact filed_register filed
  | answer questionId given =>
    cases stepped
    exact filed_answer filed
  | drop registration =>
    obtain ⟨-, same⟩ := Option.ite_none_right_eq_some.mp stepped
    cases same
    exact filed_drop filed

/-! ## Runs in which ids are not reused -/

/-- A registration is made under an id that no registration still held was made under. -/
def freshId (state : Questions) : Action → Bool
  | .register request => state.live.all fun registration => registration.request.id ≠ request.id
  | .answer .. | .drop _ => true

/-- Every question filed has its registration, and no two registrations share an id. -/
structure Held (state : Questions) : Prop extends Filed state where
  held : ∀ id question, state.pending.lookup id = some question →
    ⟨question.answerTx, question.request⟩ ∈ state.live
  ids : state.live.Pairwise fun first second => first.request.id ≠ second.request.id

theorem held_register (held : Held state) (fresh : freshId state (.register request) = true) :
    Held (register request state).1 := by
  have fresh' : ∀ registration ∈ state.live, registration.request.id ≠ request.id :=
    fun registration mem => of_decide_eq_true (List.all_eq_true.mp fresh registration mem)
  refine { filed_register held.toFiled with held := ?_, ids := ?_ } <;> unfold register <;>
    dsimp only
  · split
    · next replaced present =>
      have old := held.held request.id replaced present
      exact absurd (held.filed request.id replaced present).1 (fresh' _ old)
    · next absent =>
      intro id question found
      rw [Map.lookup_insert_eq_ite] at found
      split at found
      · cases found
        exact List.mem_append_right _ (List.mem_singleton_self _)
      · exact List.mem_append_left _ (held.held id question found)
  · split
    · exact held.ids
    · refine List.pairwise_append.mpr ⟨held.ids, List.pairwise_singleton _ _, ?_⟩
      intro first old second new
      rw [List.mem_singleton.mp new]
      exact fresh' first old

theorem held_answer (held : Held state) : Held (answer questionId given state).1 := by
  refine { filed_answer held.toFiled with held := ?_, ids := ?_ } <;>
    obtain ⟨error, same⟩ | ⟨question, found, valid, ⟨channels, sent, same⟩ | ⟨error, same⟩⟩ :=
      answer_cases state questionId given <;> rw [same]
  · exact held.held
  · exact fun id other left => held.held id other (lookup_of_erase left).2
  · exact fun id other left => held.held id other (lookup_of_erase left).2
  · exact held.ids
  · exact held.ids
  · exact held.ids

/-- Registrations that share an id are the same one. -/
theorem registration_eq (held : Held state) {first second : QuestionRegistration}
    (firstMem : first ∈ state.live) (secondMem : second ∈ state.live)
    (same : first.request.id = second.request.id) : first = second :=
  List.inj_on_of_nodup_map (List.pairwise_map.mpr held.ids) firstMem secondMem same

/-- A dropped registration removes its own question or none. -/
theorem drop_own (held : Held state) (mem : registration ∈ state.live) {question : PendingQuestion}
    (found : state.pending.lookup registration.request.id = some question) :
    question.answerTx = registration.answerRx := by
  have own := registration_eq held (held.held _ question found) mem
    (held.filed _ question found).1
  exact congrArg QuestionRegistration.answerRx own

theorem held_drop (held : Held state) (mem : registration ∈ state.live) :
    Held (dropRegistration registration state) := by
  refine { filed_drop held.toFiled with held := ?_, ids := held.ids.sublist List.erase_sublist }
  intro id question left
  obtain ⟨apart, found⟩ := lookup_of_erase left
  refine (List.mem_erase_of_ne ?_).mpr (held.held id question found)
  rintro rfl
  exact apart (held.filed id question found).1.symm

theorem held_of_reachable
    (reached : questionMachine.ReachableWhile (fun s a => freshId s a = true) state) :
    Held state := by
  have start : Held questionMachine.start := by
    refine { filed_start with held := fun id question found => ?_, ids := .nil }
    rw [questionMachine, AList.lookup_empty] at found
    cases found
  refine reached.invariant start ?_
  intro state action state' held fresh stepped
  cases action with
  | register request =>
    cases stepped
    exact held_register held fresh
  | answer questionId given =>
    cases stepped
    exact held_answer held
  | drop registration =>
    obtain ⟨mem, same⟩ := Option.ite_none_right_eq_some.mp stepped
    cases same
    exact held_drop held mem

/-! ## What the operations promise -/

/-- Every question that waits is filed as before, with its channel as before. -/
def KeepsQuestions (before after : Questions) : Prop :=
  ∀ id question, before.pending.lookup id = some question →
    after.pending.lookup id = some question ∧
      after.channels.get? question.answerTx = before.channels.get? question.answerTx

/-- A refused registration replaces the question that waits under the id. -/
theorem refused_register_replaces (filed : Filed state) {question : PendingQuestion}
    (found : state.pending.lookup request.id = some question) :
    (∃ error, (register request state).2 = .error error) ∧
      ¬KeepsQuestions state (register request state).1 := by
  unfold register
  dsimp only
  rw [found]
  refine ⟨⟨_, rfl⟩, fun keeps => ?_⟩
  have kept := (keeps request.id question found).1
  rw [Map.lookup_insert_eq_ite, if_pos rfl, Option.some.injEq] at kept
  have bound := (filed.filed request.id question found).2
  rw [← kept] at bound
  exact Nat.lt_irrefl _ bound

/-- In every reachable state a refused registration leaves the questions that wait alone exactly
if there is none under its id, where it is not refused, and an accepted answer goes to the
waiter whose question it was validated against and to no one else; in runs that make no
registration under the id of one still held, a dropped registration removes no question
but its own. -/
theorem questions_reach_their_waiters : ∀ state, questionMachine.Reachable state →
    (∀ request, ((∀ error, (register request state).2 = .error error →
        KeepsQuestions state (register request state).1) ↔
      state.pending.lookup request.id = none)) ∧
    (∀ questionId given, (answer questionId given state).2 = .ok () →
      ∃ question, state.pending.lookup (trim questionId) = some question ∧
        validateQuestionAnswer question.request given = .ok () ∧
        (∃ registration ∈ state.live, registration.answerRx = question.answerTx ∧
          registration.request = question.request ∧
          ∀ other ∈ state.live, other.answerRx = question.answerTx → other = registration) ∧
        (∃ ends, (answer questionId given state).1.channels.get? question.answerTx = some ends ∧
          ends.value = some given) ∧
        ∀ channel, channel ≠ question.answerTx →
          (answer questionId given state).1.channels.get? channel =
            state.channels.get? channel) ∧
    (questionMachine.ReachableWhile (fun s a => freshId s a = true) state →
      ∀ registration ∈ state.live, ∀ id question, state.pending.lookup id = some question →
        (dropRegistration registration state).pending.lookup id = none →
        question.answerTx = registration.answerRx) := by
  intro state reached
  have filed := filed_of_reachable reached
  refine ⟨fun request => ⟨fun keeps => ?_, fun absent error refused => ?_⟩, ?_, ?_⟩
  · by_contra present
    obtain ⟨question, found⟩ := Option.ne_none_iff_exists'.mp present
    obtain ⟨⟨error, refused⟩, changes⟩ := refused_register_replaces filed found
    exact changes (keeps error refused)
  · unfold register at refused
    dsimp only at refused
    rw [absent] at refused
    cases refused
  · intro questionId given accepted
    obtain ⟨error, same⟩ | ⟨question, found, valid, ⟨channels, sent, same⟩ | ⟨error, same⟩⟩ :=
      answer_cases state questionId given
    · rw [same] at accepted
      cases accepted
    · obtain ⟨waits, -, ⟨ends, before, filled⟩, others, -⟩ := Pool.send_eq_ok sent
      refine ⟨question, found, valid, ?_, ?_, ?_⟩
      · have live := filed.waiter _ question found waits
        exact ⟨_, live, rfl, rfl, fun other mem alike =>
          List.inj_on_of_nodup_map (List.pairwise_map.mpr filed.apart) mem live alike⟩
      · rw [same]
        exact ⟨_, filled, rfl⟩
      · rw [same]
        exact others
    · rw [same] at accepted
      cases accepted
  · intro fresh registration mem id question found removed
    have held := held_of_reachable fresh
    rw [dropRegistration, Map.lookup_erase_eq_ite] at removed
    split at removed
    · next same =>
      subst same
      exact drop_own held mem found
    · rw [found] at removed
      cases removed

/-- A question with one item, and an answer to it. -/
def asked : QuestionRequest :=
  ⟨['q'], ['t'], ['w'], ['c'], [⟨['i'], ['?'], [], true⟩]⟩

def reply : QuestionAnswer := ⟨[⟨['i'], ['a'], none⟩]⟩

theorem asked_reachable :
    questionMachine.ReachableWhile (fun s a => freshId s a = true)
      (register asked questionMachine.start).1 :=
  Machine.reachableWhile_of_runWhile .start
    (show questionMachine.runWhile freshId _ [.register asked] = some _ from rfl)

/-- The rules on one question: its answer reaches the registration, whose drop removes it. -/
theorem question_is_answered :
    (∃ registration ∈ (register asked questionMachine.start).1.live,
      registration.request = asked) ∧
    ∀ registration ∈ (register asked questionMachine.start).1.live, ∀ id question,
      (register asked questionMachine.start).1.pending.lookup id = some question →
      (dropRegistration registration (register asked questionMachine.start).1).pending.lookup
        id = none → question.answerTx = registration.answerRx := by
  obtain ⟨-, answers, drops⟩ := questions_reach_their_waiters _ asked_reachable.reachable
  refine ⟨?_, drops asked_reachable⟩
  obtain ⟨question, found, -, ⟨registration, mem, -, made, -⟩, -⟩ :=
    answers ['q'] reply (by decide)
  cases found
  exact ⟨registration, mem, made⟩

/-- A second question under the id of a waiting one is refused and replaces it, and a registration
that outlives its answer removes the next question under its id. -/
theorem reused_id_loses_question :
    ¬(∀ state, questionMachine.Reachable state → ∀ request error,
      (register request state).2 = .error error →
      KeepsQuestions state (register request state).1) ∧
    ¬(∀ state, questionMachine.Reachable state → ∀ registration ∈ state.live, ∀ id question,
      state.pending.lookup id = some question →
      (dropRegistration registration state).pending.lookup id = none →
      question.answerTx = registration.answerRx) := by
  constructor
  · intro keeps
    have reached := asked_reachable.reachable
    have waits : (register asked questionMachine.start).1.pending.lookup asked.id =
        some ⟨asked, 0⟩ := rfl
    obtain ⟨⟨error, refused⟩, changes⟩ :=
      refused_register_replaces (filed_of_reachable reached) waits
    exact changes (keeps _ reached asked error refused)
  · intro own
    have again : questionMachine.Reachable (register asked
        (answer ['q'] reply (register asked questionMachine.start).1).1).1 :=
      Machine.reachable_of_run asked_reachable.reachable
        (show questionMachine.run _ [.answer ['q'] reply, .register asked] = some _ from rfl)
    have same := own _ again ⟨0, asked⟩ (by decide) ['q'] ⟨asked, 1⟩ (by decide)
      (by decide)
    cases same

end Foco.Questions
