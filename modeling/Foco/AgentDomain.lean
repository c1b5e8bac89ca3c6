import Foco.Result

/-!
`agent/lib.rs`: the statuses of teams, instances, tasks and attempts and the transitions
between them that the domain declares.
-/
namespace Foco.AgentDomain

/-- `AgentTeamStatus`. -/
inductive AgentTeamStatus where
  | active | paused | draining | stopped | failed
  deriving DecidableEq

/-- `AgentInstanceStatus`. -/
inductive AgentInstanceStatus where
  | idle | running | waiting | paused | draining | stopped | failed
  deriving DecidableEq

/-- `AgentTaskStatus`. -/
inductive AgentTaskStatus where
  | queued | running | waiting | completed | failed | cancelled | interrupted
  deriving DecidableEq

/-- `AgentTaskTransition`. -/
inductive AgentTaskTransition where
  | start | wait | resume | complete | fail | cancel | interrupt | retry
  deriving DecidableEq

/-- `AgentAttemptStatus`. -/
inductive AgentAttemptStatus where
  | running | suspended | completed | failed | cancelled | interrupted
  deriving DecidableEq

/-- `AgentTaskWaitMode`. -/
inductive AgentTaskWaitMode where
  | all | any
  deriving DecidableEq

/-- The entities that a domain error names. -/
inductive AgentEntityKind where
  | team | agentInstance | task
  deriving DecidableEq

/-- The errors of the domain that the store passes on. -/
inductive AgentDomainError where
  | invalidStateTransition (entity : AgentEntityKind)
  | teamBusy
  | queueConflict (instanceId : Nat)
  | dependencyCycle (taskId : Nat)
  | crossTeamReference (entity : AgentEntityKind) (id : Nat)
  deriving DecidableEq

/-- The targets that `AgentTeamStatus::transition_to` allows. -/
def AgentTeamStatus.allows : AgentTeamStatus → AgentTeamStatus → Bool
  | .active, .paused | .active, .draining | .active, .stopped | .active, .failed => true
  | .paused, .active | .paused, .draining | .paused, .stopped | .paused, .failed => true
  | .draining, .stopped | .draining, .failed => true
  | .failed, .active | .failed, .stopped => true
  | _, _ => false

/-- `AgentTeamStatus::transition_to`. -/
def AgentTeamStatus.transitionTo (self target : AgentTeamStatus) :
    Except AgentDomainError AgentTeamStatus :=
  if self.allows target then .ok target else .error (.invalidStateTransition .team)

/-- The targets that `AgentInstanceStatus::transition_to` allows. -/
def AgentInstanceStatus.allows : AgentInstanceStatus → AgentInstanceStatus → Bool
  | .idle, .running | .idle, .paused | .idle, .draining | .idle, .stopped | .idle, .failed => true
  | .running, .idle | .running, .waiting | .running, .paused | .running, .draining
  | .running, .stopped | .running, .failed => true
  | .waiting, .running | .waiting, .paused | .waiting, .draining | .waiting, .stopped
  | .waiting, .failed => true
  | .paused, .idle | .paused, .draining | .paused, .stopped | .paused, .failed => true
  | .draining, .stopped | .draining, .failed => true
  | .failed, .idle | .failed, .stopped => true
  | _, _ => false

/-- `AgentInstanceStatus::transition_to`. -/
def AgentInstanceStatus.transitionTo (self target : AgentInstanceStatus) :
    Except AgentDomainError AgentInstanceStatus :=
  if self.allows target then .ok target else .error (.invalidStateTransition .agentInstance)

/-- `AgentTaskStatus::apply`. -/
def AgentTaskStatus.apply : AgentTaskStatus → AgentTaskTransition →
    Except AgentDomainError AgentTaskStatus
  | .queued, .start => .ok .running
  | .queued, .cancel => .ok .cancelled
  | .running, .wait => .ok .waiting
  | .running, .complete => .ok .completed
  | .running, .fail => .ok .failed
  | .running, .cancel => .ok .cancelled
  | .running, .interrupt => .ok .interrupted
  | .waiting, .resume => .ok .running
  | .waiting, .fail => .ok .failed
  | .waiting, .cancel => .ok .cancelled
  | .waiting, .interrupt => .ok .interrupted
  | .failed, .retry | .cancelled, .retry | .interrupted, .retry => .ok .queued
  | _, _ => .error (.invalidStateTransition .task)

/-- `AgentTaskStatus::is_terminal`. -/
def AgentTaskStatus.isTerminal : AgentTaskStatus → Bool
  | .completed | .failed | .cancelled | .interrupted => true
  | .queued | .running | .waiting => false

/-- `AgentTaskStatus::holds_queue_head`. -/
def AgentTaskStatus.holdsQueueHead : AgentTaskStatus → Bool
  | .queued | .running | .waiting => true
  | _ => false

/-- The statuses that `agent_tasks_one_active_per_instance_idx` indexes. -/
def AgentTaskStatus.isActive : AgentTaskStatus → Bool
  | .running | .waiting => true
  | _ => false

/-- A draining instance stays draining only until it is stopped or failed. -/
theorem AgentInstanceStatus.draining_allows {target : AgentInstanceStatus}
    (allowed : AgentInstanceStatus.allows .draining target = true) :
    target = .stopped ∨ target = .failed := by
  cases target <;> simp [AgentInstanceStatus.allows] at allowed ⊢

theorem AgentTeamStatus.transitionTo_eq_ok {self target result : AgentTeamStatus}
    (h : self.transitionTo target = .ok result) : self.allows target = true ∧ result = target := by
  unfold AgentTeamStatus.transitionTo at h
  split at h
  · rename_i allowed
    cases h
    exact ⟨allowed, rfl⟩
  · cases h

theorem AgentInstanceStatus.transitionTo_eq_ok {self target result : AgentInstanceStatus}
    (h : self.transitionTo target = .ok result) : self.allows target = true ∧ result = target := by
  unfold AgentInstanceStatus.transitionTo at h
  split at h
  · rename_i allowed
    cases h
    exact ⟨allowed, rfl⟩
  · cases h

theorem AgentTaskStatus.holdsQueueHead_of_isActive {status : AgentTaskStatus}
    (active : status.isActive = true) : status.holdsQueueHead = true := by
  cases status <;> simp_all [isActive, holdsQueueHead]

end Foco.AgentDomain
