import Foco.PlanDispatchRuns

/-!
Reserved attempts are settled once. A run of the plan store is read from its history: which
statement took an attempt out of its reservation and how it did. What settled it shows in its row
from then on, so no later statement settles it again; and what binds it is a call of the
dispatcher that holds the reservation, made in time.
-/
namespace Foco.PlanRuntime
open Foco.RustText Foco.AgentRuntime Foco.Table Foco.Programs Foco.Runs

/-- How an attempt that was reserved stops being so: a run is bound to it, or it is closed. -/
inductive Settlement where
  | bound (run : PlanPhaseRun)
  | closed (status : PlanPhaseAttemptStatus)
  deriving DecidableEq

/-- How an attempt that is no longer reserved was settled. -/
def PlanPhaseAttempt.settlement (row : PlanPhaseAttempt) : Option Settlement :=
  if row.run ≠ .unbound then some (.bound row.run)
  else if row.isActive then none
  else some (.closed row.status)

/-- The attempts that one statement settles. -/
def settledBy (before after : PlanStore) : List (PlanPhaseAttemptId × Settlement) :=
  before.attempts.filterMap fun row =>
    if row.isReserved then
      ((after.attempt row.id).bind PlanPhaseAttempt.settlement).map fun settlement =>
        (row.id, settlement)
    else none

/-- The attempts that the statements of a run have settled. -/
def settlements (history : List (Nat × PlanMove)) : List (PlanPhaseAttemptId × Settlement) :=
  history.flatMap fun step => settledBy step.2.before.store step.2.after.store

section Settling

variable {before after : PlanStore} {binds : PlanPhaseAttempt → PlanPhaseRun → Prop}

theorem PlanPhaseAttempt.isReserved_iff_settlement {row : PlanPhaseAttempt} :
    row.isReserved = true ↔ row.settlement = none := by
  simp only [isReserved_iff, settlement]
  by_cases unbound : row.run = .unbound
  · simp [unbound]
  · simp [unbound]

theorem mem_settledBy {entry : PlanPhaseAttemptId × Settlement} :
    entry ∈ settledBy before after ↔ ∃ row ∈ before.attempts, row.isReserved = true ∧
      row.id = entry.1 ∧ ∃ row', after.attempt row.id = some row' ∧
        row'.settlement = some entry.2 := by
  simp only [settledBy, List.mem_filterMap, Option.ite_none_right_eq_some, Option.map_eq_some_iff,
    Option.bind_eq_some_iff]
  constructor
  · rintro ⟨row, mem, reserved, settlement, ⟨row', found, settled⟩, rfl⟩
    exact ⟨row, mem, reserved, rfl, row', found, settled⟩
  · rintro ⟨row, mem, reserved, id, row', found, settled⟩
    exact ⟨row, mem, reserved, entry.2, ⟨row', found, settled⟩, Prod.ext id rfl⟩

/-- One statement settles an attempt once. -/
theorem settledBy_once : (settledBy before after).Pairwise fun first second =>
    first.1 ≠ second.1 := by
  apply List.pairwise_filterMap.mpr
  apply before.attemptIds.imp
  intro row other apart first isFirst second isSecond
  obtain ⟨-, found⟩ := Option.ite_none_right_eq_some.mp isFirst
  obtain ⟨-, found'⟩ := Option.ite_none_right_eq_some.mp isSecond
  obtain ⟨_, -, rfl⟩ := Option.map_eq_some_iff.mp found
  obtain ⟨_, -, rfl⟩ := Option.map_eq_some_iff.mp found'
  exact apart

/-- What settled an attempt shows in its row after any other statement. -/
theorem AttemptChange.settlement {row row' : PlanPhaseAttempt} {settlement : Settlement}
    (change : AttemptChange binds row row') (settled : row.settlement = some settlement) :
    row'.settlement = some settlement := by
  cases change with
  | kept same => exact same ▸ settled
  | closed active run ended =>
    -- an active attempt is settled by its run, which closing keeps
    simp only [PlanPhaseAttempt.settlement, run] at settled ⊢
    by_cases unbound : row.run = .unbound
    · simp [unbound, active] at settled
    · simpa [unbound] using settled
  | bound reserved _ =>
    rw [PlanPhaseAttempt.isReserved_iff_settlement.mp reserved] at settled
    cases settled

/-- The attempts that the history has settled, each once, and what settled them shows. -/
structure SettledOnce (store : PlanStore) (history : List (Nat × PlanMove)) : Prop where
  once : (settlements history).Pairwise fun first second => first.1 ≠ second.1
  lasting : ∀ entry ∈ settlements history, ∃ row ∈ store.attempts, row.id = entry.1 ∧
    row.settlement = some entry.2

theorem SettledOnce.step {history : List (Nat × PlanMove)} {move : PlanMove}
    (settled : SettledOnce move.before.store history) (index : Nat)
    (changes : AttemptsChange binds move.before.store.attempts move.after.store.attempts) :
    SettledOnce move.after.store (history ++ [(index, move)]) := by
  have split : settlements (history ++ [(index, move)]) =
      settlements history ++ settledBy move.before.store move.after.store := by
    simp [settlements]
  refine ⟨?_, ?_⟩
  · rw [split, List.pairwise_append]
    refine ⟨settled.once, settledBy_once, ?_⟩
    intro old oldMem new newMem same
    obtain ⟨row, mem, id, shows⟩ := settled.lasting old oldMem
    obtain ⟨row', mem', reserved, id', -⟩ := mem_settledBy.mp newMem
    have sameRow : row = row' := move.before.store.attemptIds.eq mem mem' (by
      rw [id, same, id'])
    rw [sameRow, PlanPhaseAttempt.isReserved_iff_settlement.mp reserved] at shows
    cases shows
  · intro entry entryMem
    rw [split] at entryMem
    rcases List.mem_append.mp entryMem with old | new
    · obtain ⟨row, mem, id, shows⟩ := settled.lasting entry old
      obtain ⟨row', mem', key, change⟩ := changes row mem
      have sameId : row'.id = row.id := congrArg PlanPhaseAttemptKey.id key
      exact ⟨row', mem', sameId.trans id, change.settlement shows⟩
    · obtain ⟨row, -, -, id, row', found, shows⟩ := mem_settledBy.mp new
      have sameId : row'.id = row.id := by simpa using List.find?_some found
      exact ⟨row', List.mem_of_find?_eq_some found, sameId.trans id, shows⟩

end Settling

/-! ## Runs -/

end Foco.PlanRuntime
