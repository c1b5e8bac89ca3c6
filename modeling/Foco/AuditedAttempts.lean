import Foco.RustText
import Mathlib.Algebra.Group.Nat.Defs

/-!
`app/structured_llm_outcome.rs` and the loop over stream attempts of
`audited_provider_tool_request_with_args_validate` (`app/main.rs`): an attempt that fails on the way to
the provider is made again with the same request, one whose answer does not keep to the tool protocol
is repaired once. What a failure is classified as is given with it.
-/
namespace Foco.AuditedAttempts
open RustText

/-! ## The next attempt -/

inductive StructuredLlmRetryKind where
  | initial | providerRetry | outputRepair
  deriving DecidableEq

inductive StructuredLlmFailureKind where
  | missingTool | prose | wrongTool | schemaInvalid | semanticInvalid | providerTimeout
  | providerError | thinkingToolChoiceIncompatible | other
  deriving DecidableEq

inductive StructuredLlmNextAction where
  | continue_ (retryKind : StructuredLlmRetryKind) (providerRetryIndex : Nat)
      (outputRepairUsed : Bool)
  | stop

def StructuredLlmFailureKind.isOutputRepairEligible (kind : StructuredLlmFailureKind) : Bool :=
  kind ∈ [.missingTool, .prose, .wrongTool, .schemaInvalid, .thinkingToolChoiceIncompatible]

def isProviderRetryableStatus : Option Int → Bool
  | some code => code = 408 ∨ code = 409 ∨ code = 429 ∨ 500 ≤ code ∧ code ≤ 599
  | none => false

def isProviderTransportRetryable (kind : StructuredLlmFailureKind) (statusCode : Option Int) : Bool :=
  match kind with
  | .providerTimeout => true
  | .providerError => statusCode.isNone || isProviderRetryableStatus statusCode
  | _ => false

def u32Max : Nat := 2 ^ 32 - 1

/-- `u32::saturating_add`. -/
def saturatingAdd (a b : Nat) : Nat := min (a + b) u32Max

def auditedMaxStreamAttempts (providerRetryBudget : Nat) : Nat :=
  saturatingAdd (saturatingAdd (saturatingAdd providerRetryBudget 1) 1) providerRetryBudget

def nextAuditedStreamAction (failureKind : StructuredLlmFailureKind) (statusCode : Option Int)
    (outputRepairUsed : Bool) (providerAttemptsUsed providerRetryBudget : Nat) :
    StructuredLlmNextAction :=
  if failureKind.isOutputRepairEligible && !outputRepairUsed then .continue_ .outputRepair 0 true
  else if isProviderTransportRetryable failureKind statusCode &&
      decide (providerAttemptsUsed < providerRetryBudget) then
    .continue_ .providerRetry (saturatingAdd providerAttemptsUsed 1) outputRepairUsed
  else .stop

/-! ## The loop -/

section Loop

variable {Arguments : Type}

/-- What an attempt comes to: arguments, arguments that the caller rejects, or no arguments. -/
inductive AttemptOutcome (Arguments : Type) where
  | accepted (arguments : Arguments)
  | rejected (failureKind : StructuredLlmFailureKind) (message : Text)
  | failed (failureKind : StructuredLlmFailureKind) (statusCode : Option Int) (message : Text)

inductive RequestError where
  | badRequest (message : Text)
  | internal (message : Text)
  | withoutAttemptResult

/-- The start event of an attempt, and the failure whose correction its request ends with. -/
structure Attempt where
  attempt : Nat
  retryKind : StructuredLlmRetryKind
  providerRetryIndex : Nat
  outputRepairUsed : Bool
  corrects : Option StructuredLlmFailureKind

/-- The failure of an attempt, with its status. -/
def AttemptOutcome.failure : AttemptOutcome Arguments →
    Option (StructuredLlmFailureKind × Option Int)
  | .accepted _ => none
  | .rejected failureKind _ => some (failureKind, none)
  | .failed failureKind statusCode _ => some (failureKind, statusCode)

/-- The answer, if no attempt follows. -/
def AttemptOutcome.ending : AttemptOutcome Arguments → Except RequestError Arguments
  | .accepted arguments => .ok arguments
  | .rejected _ message => .error (.badRequest message)
  | .failed _ _ message => .error (.internal message)

/-- The attempt that follows a failure. -/
def Attempt.next (attempt : Attempt) (budget : Nat) :
    Option (StructuredLlmFailureKind × Option Int) → Option Attempt
  | none => none
  | some (failureKind, statusCode) =>
    match nextAuditedStreamAction failureKind statusCode attempt.outputRepairUsed
        attempt.providerRetryIndex budget with
    | .continue_ retryKind providerRetryIndex outputRepairUsed => some {
        attempt := saturatingAdd attempt.attempt 1
        retryKind
        providerRetryIndex
        outputRepairUsed
        corrects := if retryKind = .outputRepair then some failureKind else attempt.corrects }
    | .stop => none

/-- The attempts from one on, and the answer; a number of turns of the loop are left. -/
def attemptsFrom (budget : Nat) (outcomes : Nat → AttemptOutcome Arguments) :
    Nat → Attempt → List Attempt × Except RequestError Arguments
  | 0, _ => ([], .error .withoutAttemptResult)
  | turns + 1, attempt =>
    match attempt.next budget (outcomes attempt.attempt).failure with
    | some next =>
      let (attempts, answer) := attemptsFrom budget outcomes turns next
      (attempt :: attempts, answer)
    | none => ([attempt], (outcomes attempt.attempt).ending)

def initialAttempt : Attempt := ⟨1, .initial, 0, false, none⟩

def auditedProviderToolRequest (providerRetryBudget : Nat)
    (outcomes : Nat → AttemptOutcome Arguments) : List Attempt × Except RequestError Arguments :=
  attemptsFrom providerRetryBudget outcomes (auditedMaxStreamAttempts providerRetryBudget)
    initialAttempt

/-! ## What attempts are made -/

/-- Attempts with one request: a first one, and retries that count on from it. -/
def sameRequest (first : Attempt) : Nat → List Attempt
  | 0 => [first]
  | retries + 1 => first :: sameRequest
      { first with
        attempt := first.attempt + 1
        retryKind := .providerRetry
        providerRetryIndex := first.providerRetryIndex + 1 } retries

/-- The attempt with the repaired request, after one that failed. -/
def repaired (failed : Nat) (failureKind : StructuredLlmFailureKind) : Attempt :=
  ⟨failed + 1, .outputRepair, 0, true, some failureKind⟩

/-- From an attempt on there are retries with its request, and at most once a repaired request with
retries of its own; the answer is that of the last attempt. -/
structure Audited (budget : Nat) (outcomes : Nat → AttemptOutcome Arguments) (first : Attempt)
    (attempts : List Attempt) (answer : Except RequestError Arguments) : Prop where
  requests : ∃ retries, first.providerRetryIndex + retries ≤ budget ∧
    (attempts = sameRequest first retries ∨ first.outputRepairUsed = false ∧
      ∃ failureKind statusCode more, more ≤ budget ∧
        (outcomes (first.attempt + retries)).failure = some (failureKind, statusCode) ∧
        failureKind.isOutputRepairEligible = true ∧ attempts = sameRequest first retries ++
          sameRequest (repaired (first.attempt + retries) failureKind) more)
  answered : ∃ last, attempts.getLast? = some last ∧ answer = (outcomes last.attempt).ending

variable {budget : Nat} (outcomes : Nat → AttemptOutcome Arguments) {attempt next : Attempt}

/-- A retry is within the budget, and a repair the first one. -/
theorem next_cases {failure : Option (StructuredLlmFailureKind × Option Int)}
    (small : budget ≤ u32Max) (numbered : attempt.attempt < u32Max)
    (found : attempt.next budget failure = some next) :
    (attempt.providerRetryIndex < budget ∧ next = { attempt with
        attempt := attempt.attempt + 1
        retryKind := .providerRetry
        providerRetryIndex := attempt.providerRetryIndex + 1 }) ∨
      attempt.outputRepairUsed = false ∧ ∃ failureKind statusCode,
        failure = some (failureKind, statusCode) ∧ failureKind.isOutputRepairEligible = true ∧
        next = repaired attempt.attempt failureKind := by
  obtain _ | ⟨failureKind, statusCode⟩ := failure
  · cases found
  have number : saturatingAdd attempt.attempt 1 = attempt.attempt + 1 := Nat.min_eq_left numbered
  simp only [Attempt.next, nextAuditedStreamAction, number] at found
  by_cases repairs : (failureKind.isOutputRepairEligible && !attempt.outputRepairUsed) = true
  · rw [if_pos repairs] at found
    obtain ⟨eligible, unused⟩ := (Bool.and_eq_true _ _).mp repairs
    exact .inr ⟨by simpa using unused, failureKind, statusCode, rfl, eligible,
      (Option.some.inj found).symm⟩
  rw [if_neg repairs] at found
  by_cases retries : (isProviderTransportRetryable failureKind statusCode &&
      decide (attempt.providerRetryIndex < budget)) = true
  · rw [if_pos retries] at found
    have less := of_decide_eq_true ((Bool.and_eq_true _ _).mp retries).2
    have counted : saturatingAdd attempt.providerRetryIndex 1 = attempt.providerRetryIndex + 1 :=
      Nat.min_eq_left (by omega)
    refine .inl ⟨less, ?_⟩
    rw [← Option.some.inj found, counted]
    rfl
  · rw [if_neg retries] at found
    cases found

theorem attemptsFrom_audited (turns : Nat) (attempt : Attempt) (small : budget ≤ u32Max)
    (within : attempt.providerRetryIndex ≤ budget) (numbered : attempt.attempt + turns ≤ u32Max)
    (enough : budget - attempt.providerRetryIndex +
      (if attempt.outputRepairUsed then 0 else budget + 1) < turns) :
    Audited budget outcomes attempt (attemptsFrom budget outcomes turns attempt).1
      (attemptsFrom budget outcomes turns attempt).2 := by
  induction turns generalizing attempt with
  | zero => omega
  | succ turns ih =>
    rw [attemptsFrom]
    split
    case h_2 => exact ⟨⟨0, within, .inl rfl⟩, attempt, rfl, rfl⟩
    next next found =>
    obtain ⟨less, nextIs⟩ | ⟨unused, failureKind, statusCode, failure, eligible, nextIs⟩ :=
      next_cases small (by omega) found
    · obtain ⟨⟨retries, most, made⟩, last, isLast, answered⟩ := ih next
        (by rw [nextIs]; exact less) (by rw [nextIs]; dsimp only; omega)
        (by rw [nextIs]; dsimp only; omega)
      have number : next.attempt + retries = attempt.attempt + (retries + 1) := by
        rw [nextIs]
        exact Nat.add_right_comm .. |>.trans (Nat.add_assoc ..)
      have used : next.outputRepairUsed = attempt.outputRepairUsed := by rw [nextIs]
      rw [number, used] at made
      refine ⟨⟨retries + 1, ?_, ?_⟩, last, ?_, answered⟩
      · rw [nextIs] at most
        dsimp only at most
        omega
      · rw [sameRequest, ← nextIs]
        refine made.imp (congrArg _) ?_
        rintro ⟨unused, failureKind, statusCode, more, most, failure, eligible, made⟩
        exact ⟨unused, failureKind, statusCode, more, most, failure, eligible, congrArg _ made⟩
      · rw [List.getLast?_cons, isLast]
        rfl
    · rw [unused, if_neg Bool.false_ne_true] at enough
      obtain ⟨⟨more, most, made⟩, last, isLast, answered⟩ := ih next
        (by rw [nextIs]; exact Nat.zero_le _) (by rw [nextIs]; dsimp only [repaired]; omega)
        (by rw [nextIs]; dsimp only [repaired]; simp only [if_true]; omega)
      have only : (attemptsFrom budget outcomes turns next).1 = sameRequest next more := by
        refine made.resolve_right fun again => ?_
        rw [nextIs] at again
        cases again.1
      rw [nextIs] at most only
      refine ⟨⟨0, within, .inr ⟨unused, failureKind, statusCode, more, (Nat.zero_add more) ▸ most,
        failure, eligible, ?_⟩⟩, last, ?_, answered⟩
      · rw [nextIs]
        exact congrArg _ only
      · rw [List.getLast?_cons, isLast]
        rfl

/-- Whatever the attempts come to, the original request is sent with at most the retries of the
budget, a repaired one at most once with as many, and the answer is that of the last attempt: the loop
never runs out of its turns. -/
theorem auditedProviderToolRequest_audited (providerRetryBudget : Nat)
    (outcomes : Nat → AttemptOutcome Arguments) (fits : 2 * providerRetryBudget + 3 ≤ u32Max) :
    Audited providerRetryBudget outcomes initialAttempt
      (auditedProviderToolRequest providerRetryBudget outcomes).1
      (auditedProviderToolRequest providerRetryBudget outcomes).2 := by
  have turns : auditedMaxStreamAttempts providerRetryBudget = 2 * providerRetryBudget + 2 := by
    unfold auditedMaxStreamAttempts saturatingAdd
    omega
  refine attemptsFrom_audited outcomes _ initialAttempt (by omega) (Nat.zero_le _) ?_ ?_
  · change 1 + auditedMaxStreamAttempts providerRetryBudget ≤ u32Max
    omega
  · change providerRetryBudget - 0 + (providerRetryBudget + 1) < _
    omega

/-- The provider is away twice, then answers in prose, then with arguments. -/
def awayThenProse : Nat → AttemptOutcome Nat
  | 1 => .failed .providerTimeout none []
  | 2 => .failed .providerError (some 503) []
  | 3 => .failed .prose none []
  | n => .accepted n

theorem auditedProviderToolRequest_audited_repaired :
    (auditedProviderToolRequest 2 awayThenProse).1.map (·.retryKind) =
        [.initial, .providerRetry, .providerRetry, .outputRepair] ∧
      Audited 2 awayThenProse initialAttempt (auditedProviderToolRequest 2 awayThenProse).1
        (auditedProviderToolRequest 2 awayThenProse).2 :=
  ⟨by decide, auditedProviderToolRequest_audited 2 awayThenProse (by decide)⟩

end Loop

end Foco.AuditedAttempts
