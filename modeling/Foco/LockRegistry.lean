import Foco.Runs
import Foco.ToolLocks

/-!
`app/runtime/tool_locks.rs`: the registry that serialises tool calls of all runs by
their resource locks. `acquire_with_owner` draws a lease id, then tries in a critical
section: it enters its normalised locks, or it registers as a waiter and sleeps until
the next notification. Dropping a lease removes its entries in a critical section and
notifies the waiters after it. Each of these is one action, so a run is an interleaving
of any number of callers.
-/
namespace Foco.LockRegistry
open Foco.RustText Foco.ToolLocks Foco.Runs

/-! ## Normalised lock sets -/

/-- `strongest_tool_resource_access`. -/
def strongestToolResourceAccess (first second : ToolResourceAccess) : ToolResourceAccess :=
  if first = .exclusive ∨ second = .exclusive then .exclusive
  else if first = .write ∨ second = .write then .write
  else .read

/-- The body of the loop of `normalize_tool_resource_locks`. -/
def mergeLock : List ToolResourceLock → ToolResourceLock → List ToolResourceLock
  | [], lock => [lock]
  | existing :: rest, lock =>
    if existing.resource = lock.resource then
      { existing with access := strongestToolResourceAccess existing.access lock.access } :: rest
    else existing :: mergeLock rest lock

/-- `tool_resource_sort_key`. -/
def toolResourceSortKey : ToolResource → Text
  | .workspaceMutationLease => "workspace-mutation-lease".toList
  | .workspaceFiles => "workspace-files".toList
  | .file path => "file:".toList ++ path
  | .todoGraph => "todo-graph".toList
  | .plan => "plan".toList
  | .projectSpec => "project-spec".toList
  | .memory scope => "memory:".toList ++ scope
  | .commandProcess processId => "command-process:".toList ++ processId
  | .externalTool toolName => "external:".toList ++ toolName.toList

/-- `tool_resource_access_rank`. -/
def toolResourceAccessRank : ToolResourceAccess → Nat
  | .read => 0
  | .write => 1
  | .exclusive => 2

/-- The order of the normalised locks: by key, then by access. -/
def lockLe (first second : ToolResourceLock) : Bool :=
  let firstKey := toolResourceSortKey first.resource
  let secondKey := toolResourceSortKey second.resource
  firstKey < secondKey || (firstKey == secondKey &&
    toolResourceAccessRank first.access ≤ toolResourceAccessRank second.access)

/-- `normalize_tool_resource_locks`. -/
def normalizeToolResourceLocks (locks : List ToolResourceLock) : List ToolResourceLock :=
  (locks.foldl mergeLock []).mergeSort lockLe

/-! ## The registry -/

/-- `ActiveToolResourceLock`. -/
structure ActiveToolResourceLock where
  leaseId : Nat
  workspaceId : Text
  lock : ToolResourceLock

/-- `tool_locks_share_scope`. -/
def toolLocksShareScope (workspaceId : Text) (pending : ToolResourceLock)
    (active : ActiveToolResourceLock) : Bool :=
  match pending.resource, active.lock.resource with
  | .memory _, .memory _ => true
  | _, _ => active.workspaceId == workspaceId

/-- `tool_locks_conflict_with_active`. -/
def toolLocksConflictWithActive (workspaceId : Text) (pending : List ToolResourceLock)
    (active : List ActiveToolResourceLock) : Bool :=
  pending.any fun pendingLock =>
    active.any fun activeLock =>
      toolLocksShareScope workspaceId pendingLock activeLock &&
        toolResourceLocksConflict pendingLock activeLock.lock

/-- A lease as its holder has it: the locks it asked for, before they are normalised. -/
structure Lease where
  leaseId : Nat
  workspaceId : Text
  requested : List ToolResourceLock
  deriving DecidableEq

/-- The entries that an acquired lease has in the active list. -/
def Lease.entries (lease : Lease) : List ActiveToolResourceLock :=
  (normalizeToolResourceLocks lease.requested).map fun lock =>
    ⟨lease.leaseId, lease.workspaceId, lock⟩

/-- Where a caller of `acquire_with_owner` stands. -/
inductive CallerPhase where
  /-- About to enter the critical section. -/
  | trying
  /-- Registered with the notifier and not yet notified. -/
  | asleep
  /-- Notified, and not yet back at the critical section. -/
  | woken
  deriving DecidableEq

/-- A call of `acquire_with_owner` that has not returned. -/
structure Caller where
  lease : Lease
  phase : CallerPhase

/-- The registry, its callers, the leases that were returned and not dropped, and the calls
of `notify_waiters` that dropped leases still have to make. -/
structure Registry where
  active : List ActiveToolResourceLock := []
  nextLeaseId : Nat := 1
  callers : List Caller := []
  live : List Lease := []
  notifications : Nat := 0

/-- The atomic actions of the parties. A cancelled call of `acquire_with_owner` is abandoned
where it waits. -/
inductive Action where
  | begin (workspaceId : Text) (locks : List ToolResourceLock)
  | attempt (leaseId : Nat)
  | resume (leaseId : Nat)
  | abandon (leaseId : Nat)
  | drop (leaseId : Nat)
  | notify

/-- A caller that is asleep is woken; the others do not wait for this notification. -/
def Caller.wake (caller : Caller) : Caller :=
  if caller.phase = .asleep then { caller with phase := .woken } else caller

/-- The callers with the phase of one of them changed. -/
def setPhase (callers : List Caller) (leaseId : Nat) (phase : CallerPhase) : List Caller :=
  callers.map fun caller =>
    if caller.lease.leaseId = leaseId then { caller with phase := phase } else caller

/-- The callers without one of them. -/
def removeCaller (callers : List Caller) (leaseId : Nat) : List Caller :=
  callers.filter fun caller => caller.lease.leaseId ≠ leaseId

/-- The critical section of `acquire_with_owner`. -/
def attempt (state : Registry) (lease : Lease) : Registry :=
  if toolLocksConflictWithActive lease.workspaceId
      (normalizeToolResourceLocks lease.requested) state.active then
    { state with callers := setPhase state.callers lease.leaseId .asleep }
  else
    { state with
      active := state.active ++ lease.entries
      callers := removeCaller state.callers lease.leaseId
      live := state.live ++ [lease] }

/-- The critical section of `ToolResourceLease::drop`, with the notification it owes. -/
def dropLease (state : Registry) (leaseId : Nat) : Registry :=
  let active := state.active.filter fun entry => entry.leaseId ≠ leaseId
  let released := active.length != state.active.length
  { state with
    active := active
    live := state.live.filter fun lease => lease.leaseId ≠ leaseId
    notifications := if released then state.notifications + 1 else state.notifications }

/-- The caller of a lease id. -/
def Registry.caller? (state : Registry) (leaseId : Nat) : Option Caller :=
  state.callers.find? fun caller => caller.lease.leaseId = leaseId

/-- One action. The lease counter is a `u64` that starts at one and is taken not to wrap. -/
def step (state : Registry) : Action → Option Registry
  | .begin workspaceId locks =>
    some { state with
      nextLeaseId := state.nextLeaseId + 1
      callers := state.callers ++ [⟨⟨state.nextLeaseId, workspaceId, locks⟩, .trying⟩] }
  | .attempt leaseId =>
    match state.caller? leaseId with
    | some caller => if caller.phase = .trying then some (attempt state caller.lease) else none
    | none => none
  | .resume leaseId =>
    match state.caller? leaseId with
    | some caller =>
      if caller.phase = .woken then
        some { state with callers := setPhase state.callers leaseId .trying }
      else none
    | none => none
  | .abandon leaseId =>
    match state.caller? leaseId with
    | some _ => some { state with callers := removeCaller state.callers leaseId }
    | none => none
  | .drop leaseId =>
    if state.live.any (fun lease => lease.leaseId = leaseId) then some (dropLease state leaseId)
    else none
  | .notify =>
    if 0 < state.notifications then
      some { state with
        notifications := state.notifications - 1
        callers := state.callers.map Caller.wake }
    else none

/-- The registry with all its callers. -/
def registry : Machine Registry Action := ⟨{}, step⟩

/-! ## What normalising keeps -/

private theorem strongest_eq_or (first second : ToolResourceAccess) :
    strongestToolResourceAccess first second = first ∨
      strongestToolResourceAccess first second = second := by
  cases first <;> cases second <;> decide

private theorem rank_le_strongest (first second : ToolResourceAccess) :
    toolResourceAccessRank first ≤
        toolResourceAccessRank (strongestToolResourceAccess first second) ∧
      toolResourceAccessRank second ≤
        toolResourceAccessRank (strongestToolResourceAccess first second) := by
  cases first <;> cases second <;> decide

/-- One lock stands in for another: the same resource with at least its access. -/
def Covers (stronger weaker : ToolResourceLock) : Prop :=
  stronger.resource = weaker.resource ∧
    toolResourceAccessRank weaker.access ≤ toolResourceAccessRank stronger.access

theorem Covers.refl (lock : ToolResourceLock) : Covers lock lock := ⟨rfl, Nat.le_refl _⟩

theorem Covers.trans {first second third : ToolResourceLock} (h : Covers first second)
    (h' : Covers second third) : Covers first third :=
  ⟨h.1.trans h'.1, Nat.le_trans h'.2 h.2⟩

/-- A stronger access conflicts with whatever a weaker one conflicts with. -/
theorem Covers.conflict {stronger weaker other : ToolResourceLock} (covers : Covers stronger weaker)
    (conflict : toolResourceLocksConflict weaker other = true) :
    toolResourceLocksConflict stronger other = true := by
  obtain ⟨strongResource, strongAccess⟩ := stronger
  obtain ⟨weakResource, weakAccess⟩ := weaker
  obtain ⟨otherResource, otherAccess⟩ := other
  obtain ⟨same, le⟩ := covers
  simp only [toolResourceLocksConflict, Bool.and_eq_true] at same le conflict ⊢
  refine ⟨same ▸ conflict.1, ?_⟩
  have clash := conflict.2
  cases strongAccess <;> cases weakAccess <;> cases otherAccess <;>
    simp_all [accessesConflict, toolResourceAccessRank]

theorem mem_of_mem_mergeLock {locks : List ToolResourceLock} {lock found : ToolResourceLock}
    (mem : found ∈ mergeLock locks lock) : found ∈ locks ∨ found = lock := by
  induction locks with
  | nil => exact .inr (List.mem_singleton.mp mem)
  | cons existing rest ih =>
    rw [mergeLock] at mem
    split at mem
    · rename_i same
      rcases List.mem_cons.mp mem with rfl | mem
      · rcases strongest_eq_or existing.access lock.access with eq | eq
        · exact .inl (by simp [eq])
        · exact .inr (by rw [eq, same])
      · exact .inl (List.mem_cons_of_mem _ mem)
    · rcases List.mem_cons.mp mem with rfl | mem
      · exact .inl List.mem_cons_self
      · exact (ih mem).imp (List.mem_cons_of_mem _) id

theorem mergeLock_covers (locks : List ToolResourceLock) (lock : ToolResourceLock) :
    (∃ found ∈ mergeLock locks lock, Covers found lock) ∧
      ∀ old ∈ locks, ∃ found ∈ mergeLock locks lock, Covers found old := by
  induction locks with
  | nil => exact ⟨⟨lock, List.mem_singleton.mpr rfl, .refl lock⟩, by simp⟩
  | cons existing rest ih =>
    obtain ⟨⟨found, mem, covers⟩, kept⟩ := ih
    rw [mergeLock]
    split
    · rename_i same
      obtain ⟨oldLe, newLe⟩ := rank_le_strongest existing.access lock.access
      refine ⟨⟨_, List.mem_cons_self, same, newLe⟩, fun old oldMem => ?_⟩
      rcases List.mem_cons.mp oldMem with rfl | oldMem
      · exact ⟨_, List.mem_cons_self, rfl, oldLe⟩
      · exact ⟨old, List.mem_cons_of_mem _ oldMem, .refl old⟩
    · refine ⟨⟨found, List.mem_cons_of_mem _ mem, covers⟩, fun old oldMem => ?_⟩
      rcases List.mem_cons.mp oldMem with rfl | oldMem
      · exact ⟨_, List.mem_cons_self, .refl _⟩
      · obtain ⟨found', mem', covers'⟩ := kept old oldMem
        exact ⟨found', List.mem_cons_of_mem _ mem', covers'⟩

private theorem foldl_mergeLock_spec (locks acc : List ToolResourceLock) :
    (∀ found ∈ locks.foldl mergeLock acc, found ∈ acc ∨ found ∈ locks) ∧
      ∀ lock, lock ∈ acc ∨ lock ∈ locks → ∃ found ∈ locks.foldl mergeLock acc, Covers found lock := by
  induction locks generalizing acc with
  | nil =>
    refine ⟨fun found mem => .inl mem, fun lock mem => ?_⟩
    exact ⟨lock, mem.resolve_right List.not_mem_nil, .refl lock⟩
  | cons head rest ih =>
    obtain ⟨origin, covered⟩ := ih (mergeLock acc head)
    obtain ⟨⟨new, newMem, newCovers⟩, kept⟩ := mergeLock_covers acc head
    constructor
    · intro found mem
      rcases origin found mem with mem | mem
      · rcases mem_of_mem_mergeLock mem with mem | rfl
        · exact .inl mem
        · exact .inr List.mem_cons_self
      · exact .inr (List.mem_cons_of_mem _ mem)
    · intro lock mem
      have step : ∃ merged, (merged ∈ mergeLock acc head ∨ merged ∈ rest) ∧ Covers merged lock := by
        rcases mem with mem | mem
        · obtain ⟨merged, mergedMem, covers⟩ := kept lock mem
          exact ⟨merged, .inl mergedMem, covers⟩
        · rcases List.mem_cons.mp mem with rfl | mem
          · exact ⟨new, .inl newMem, newCovers⟩
          · exact ⟨lock, .inr mem, .refl lock⟩
      obtain ⟨merged, mergedMem, covers⟩ := step
      obtain ⟨found, foundMem, foundCovers⟩ := covered merged mergedMem
      exact ⟨found, foundMem, foundCovers.trans covers⟩

/-- A normalised lock is one of the requested ones. -/
theorem mem_of_mem_normalize {locks : List ToolResourceLock} {lock : ToolResourceLock}
    (mem : lock ∈ normalizeToolResourceLocks locks) : lock ∈ locks := by
  rw [normalizeToolResourceLocks, List.mem_mergeSort] at mem
  exact ((foldl_mergeLock_spec locks []).1 lock mem).resolve_left List.not_mem_nil

/-- Every requested lock is covered by a normalised one. -/
theorem normalize_covers {locks : List ToolResourceLock} {lock : ToolResourceLock}
    (mem : lock ∈ locks) : ∃ found ∈ normalizeToolResourceLocks locks, Covers found lock := by
  obtain ⟨found, foundMem, covers⟩ := (foldl_mergeLock_spec locks []).2 lock (.inr mem)
  exact ⟨found, by rwa [normalizeToolResourceLocks, List.mem_mergeSort], covers⟩

/-! ## The invariant -/

/-- Two locks of leases in these workspaces share a scope: both are memory locks, or the
workspace is the same. -/
def SharesScope (firstWorkspace : Text) (firstLock : ToolResourceLock) (secondWorkspace : Text)
    (secondLock : ToolResourceLock) : Prop :=
  (∃ first second, firstLock.resource = .memory first ∧ secondLock.resource = .memory second) ∨
    firstWorkspace = secondWorkspace

theorem toolLocksShareScope_iff {workspaceId : Text} {pending : ToolResourceLock}
    {active : ActiveToolResourceLock} :
    toolLocksShareScope workspaceId pending active = true ↔
      SharesScope workspaceId pending active.workspaceId active.lock := by
  unfold toolLocksShareScope SharesScope
  split
  · rename_i first second firstMemory secondMemory
    exact iff_of_true rfl (.inl ⟨first, second, firstMemory, secondMemory⟩)
  · rename_i notMemory
    rw [beq_iff_eq, eq_comm, or_iff_right]
    rintro ⟨first, second, firstMemory, secondMemory⟩
    exact notMemory first second firstMemory secondMemory

theorem SharesScope.symm {firstWorkspace secondWorkspace : Text}
    {firstLock secondLock : ToolResourceLock}
    (h : SharesScope firstWorkspace firstLock secondWorkspace secondLock) :
    SharesScope secondWorkspace secondLock firstWorkspace firstLock :=
  h.imp (fun ⟨first, second, firstMemory, secondMemory⟩ =>
    ⟨second, first, secondMemory, firstMemory⟩) Eq.symm

/-- No lock of one lease conflicts with a lock of the other in a scope they share. -/
def Compatible (first second : Lease) : Prop :=
  ∀ firstLock ∈ first.requested, ∀ secondLock ∈ second.requested,
    toolResourceLocksConflict firstLock secondLock = true →
    ¬SharesScope first.workspaceId firstLock second.workspaceId secondLock

/-- A caller has a requested lock that conflicts with an active one in a scope they share. -/
def Blocked (active : List ActiveToolResourceLock) (lease : Lease) : Prop :=
  ∃ lock ∈ lease.requested, ∃ entry ∈ active,
    toolResourceLocksConflict lock entry.lock = true ∧
      SharesScope lease.workspaceId lock entry.workspaceId entry.lock

/-- The test on normalised locks decides whether the requested ones conflict. -/
theorem toolLocksConflictWithActive_iff {active : List ActiveToolResourceLock} {lease : Lease} :
    toolLocksConflictWithActive lease.workspaceId (normalizeToolResourceLocks lease.requested)
      active = true ↔ Blocked active lease := by
  simp only [toolLocksConflictWithActive, List.any_eq_true, Bool.and_eq_true,
    toolLocksShareScope_iff, Blocked]
  constructor
  · rintro ⟨lock, mem, entry, entryMem, scope, conflict⟩
    exact ⟨lock, mem_of_mem_normalize mem, entry, entryMem, conflict, scope⟩
  · rintro ⟨lock, mem, entry, entryMem, conflict, scope⟩
    obtain ⟨found, foundMem, covers⟩ := normalize_covers mem
    exact ⟨found, foundMem, entry, entryMem, by rwa [SharesScope, covers.1], covers.conflict conflict⟩

/-- What holds in every state of the registry. -/
structure RegistryInv (state : Registry) : Prop where
  callersDrawn : ∀ lease ∈ state.callers.map (·.lease), lease.leaseId < state.nextLeaseId
  liveDrawn : ∀ lease ∈ state.live, lease.leaseId < state.nextLeaseId
  callersDistinct : (state.callers.map (·.lease)).Pairwise fun a b => a.leaseId ≠ b.leaseId
  liveDistinct : state.live.Pairwise fun a b => a.leaseId ≠ b.leaseId
  separate : ∀ pending ∈ state.callers.map (·.lease), ∀ lease ∈ state.live,
    pending.leaseId ≠ lease.leaseId
  entries : ∀ lease ∈ state.live,
    state.active.filter (fun entry => entry.leaseId = lease.leaseId) = lease.entries
  owned : ∀ entry ∈ state.active, ∃ lease ∈ state.live, entry ∈ lease.entries
  compatible : state.live.Pairwise Compatible
  noLostWakeup : state.notifications = 0 → ∀ caller ∈ state.callers, caller.phase = .asleep →
    Blocked state.active caller.lease

theorem mem_entries {lease : Lease} {entry : ActiveToolResourceLock}
    (mem : entry ∈ lease.entries) :
    entry.leaseId = lease.leaseId ∧ entry.workspaceId = lease.workspaceId ∧
      entry.lock ∈ lease.requested := by
  obtain ⟨lock, lockMem, rfl⟩ := List.mem_map.mp mem
  exact ⟨rfl, rfl, mem_of_mem_normalize lockMem⟩

theorem map_lease_setPhase (callers : List Caller) (leaseId : Nat) (phase : CallerPhase) :
    (setPhase callers leaseId phase).map (·.lease) = callers.map (·.lease) := by
  rw [setPhase, List.map_map]
  refine List.map_congr_left fun caller _ => ?_
  simp only [Function.comp_apply]
  split <;> rfl

theorem map_lease_wake (callers : List Caller) :
    (callers.map Caller.wake).map (·.lease) = callers.map (·.lease) := by
  rw [List.map_map]
  refine List.map_congr_left fun caller _ => ?_
  simp only [Function.comp_apply, Caller.wake]
  split <;> rfl

theorem mem_setPhase {callers : List Caller} {leaseId : Nat} {phase : CallerPhase} {caller : Caller}
    (mem : caller ∈ setPhase callers leaseId phase) :
    caller ∈ callers ∨ (caller.lease.leaseId = leaseId ∧ caller.phase = phase ∧
      caller.lease ∈ callers.map (·.lease)) := by
  obtain ⟨original, originalMem, eq⟩ := List.mem_map.mp mem
  split at eq
  · rename_i same
    subst eq
    exact .inr ⟨same, rfl, List.mem_map.mpr ⟨original, originalMem, rfl⟩⟩
  · exact .inl (eq ▸ originalMem)

theorem not_asleep_of_wake {callers : List Caller} {caller : Caller}
    (mem : caller ∈ callers.map Caller.wake) : caller.phase ≠ .asleep := by
  obtain ⟨original, -, rfl⟩ := List.mem_map.mp mem
  unfold Caller.wake
  split
  · simp
  · assumption

theorem removeCaller_sublist (callers : List Caller) (leaseId : Nat) :
    ((removeCaller callers leaseId).map (·.lease)).Sublist (callers.map (·.lease)) :=
  List.filter_sublist.map _

/-- Two leases with one id among distinct ones are the same. -/
theorem eq_of_leaseId {leases : List Lease} (distinct : leases.Pairwise fun a b => a.leaseId ≠ b.leaseId)
    {first second : Lease} (firstMem : first ∈ leases) (secondMem : second ∈ leases)
    (same : first.leaseId = second.leaseId) : first = second := by
  by_contra ne
  have symm : Std.Symm fun a b : Lease => a.leaseId ≠ b.leaseId := ⟨fun _ _ h => h.symm⟩
  exact distinct.forall firstMem secondMem ne same

theorem caller?_spec {state : Registry} {leaseId : Nat} {caller : Caller}
    (h : state.caller? leaseId = some caller) :
    caller ∈ state.callers ∧ caller.lease.leaseId = leaseId :=
  ⟨List.mem_of_find?_eq_some h, by simpa using List.find?_some h⟩

/-- The invariant does not mind a change of the callers' phases, as long as whoever sleeps is
blocked or a notification is due. -/
theorem RegistryInv.withCallers {state : Registry} (inv : RegistryInv state)
    {callers : List Caller} {notifications : Nat}
    (sublist : (callers.map (·.lease)).Sublist (state.callers.map (·.lease)))
    (noLostWakeup : notifications = 0 → ∀ caller ∈ callers, caller.phase = .asleep →
      Blocked state.active caller.lease) :
    RegistryInv { state with callers := callers, notifications := notifications } where
  callersDrawn := fun lease mem => inv.callersDrawn lease (sublist.subset mem)
  liveDrawn := inv.liveDrawn
  callersDistinct := inv.callersDistinct.sublist sublist
  liveDistinct := inv.liveDistinct
  separate := fun pending mem => inv.separate pending (sublist.subset mem)
  entries := inv.entries
  owned := inv.owned
  compatible := inv.compatible
  noLostWakeup := noLostWakeup

theorem RegistryInv.begin {state : Registry} (inv : RegistryInv state) (workspaceId : Text)
    (locks : List ToolResourceLock) :
    RegistryInv { state with
      nextLeaseId := state.nextLeaseId + 1
      callers := state.callers ++ [⟨⟨state.nextLeaseId, workspaceId, locks⟩, .trying⟩] } where
  callersDrawn := by
    intro lease mem
    rw [List.map_append, List.mem_append] at mem
    rcases mem with mem | mem
    · exact Nat.lt_succ_of_lt (inv.callersDrawn lease mem)
    · rw [List.mem_singleton.mp mem]
      exact Nat.lt_succ_self _
  liveDrawn := fun lease mem => Nat.lt_succ_of_lt (inv.liveDrawn lease mem)
  callersDistinct := by
    rw [List.map_append]
    refine List.pairwise_append.mpr ⟨inv.callersDistinct, List.pairwise_singleton _ _, ?_⟩
    intro old oldMem new newMem
    rw [List.mem_singleton.mp newMem]
    exact Nat.ne_of_lt (inv.callersDrawn old oldMem)
  liveDistinct := inv.liveDistinct
  separate := by
    intro pending mem lease leaseMem
    rw [List.map_append, List.mem_append] at mem
    rcases mem with mem | mem
    · exact inv.separate pending mem lease leaseMem
    · rw [List.mem_singleton.mp mem]
      exact Nat.ne_of_gt (inv.liveDrawn lease leaseMem)
  entries := inv.entries
  owned := inv.owned
  compatible := inv.compatible
  noLostWakeup := by
    intro quiet caller mem asleep
    rcases List.mem_append.mp mem with mem | mem
    · exact inv.noLostWakeup quiet caller mem asleep
    · rw [List.mem_singleton.mp mem] at asleep
      cases asleep

theorem Blocked.mono {active more : List ActiveToolResourceLock} {lease : Lease}
    (blocked : Blocked active lease) : Blocked (active ++ more) lease := by
  obtain ⟨lock, mem, entry, entryMem, conflict⟩ := blocked
  exact ⟨lock, mem, entry, List.mem_append_left _ entryMem, conflict⟩

/-- A lease that no active lock blocks is compatible with every live lease. -/
theorem RegistryInv.compatible_of_not_blocked {state : Registry} (inv : RegistryInv state)
    {lease : Lease} (free : ¬Blocked state.active lease) {held : Lease} (mem : held ∈ state.live) :
    Compatible held lease := by
  intro heldLock heldMem lock lockMem conflict scope
  obtain ⟨entryLock, entryMem, covers⟩ := normalize_covers heldMem
  have active : (⟨held.leaseId, held.workspaceId, entryLock⟩ : ActiveToolResourceLock) ∈
      state.active := by
    have own := inv.entries held mem
    refine (List.mem_filter.mp (own ▸ List.mem_map.mpr ⟨entryLock, entryMem, rfl⟩ :
      _ ∈ state.active.filter fun entry => entry.leaseId = held.leaseId)).1
  refine free ⟨lock, lockMem, _, active, ?_, ?_⟩
  · rw [toolResourceLocksConflict_comm]
    exact covers.conflict conflict
  · have shared := scope.symm
    rwa [SharesScope, ← covers.1] at shared

/-- Acquiring enters the locks of a caller that nothing blocks. -/
theorem RegistryInv.acquire {state : Registry} (inv : RegistryInv state) {lease : Lease}
    (pending : lease ∈ state.callers.map (·.lease)) (free : ¬Blocked state.active lease) :
    RegistryInv { state with
      active := state.active ++ lease.entries
      callers := removeCaller state.callers lease.leaseId
      live := state.live ++ [lease] } where
  callersDrawn := fun other mem =>
    inv.callersDrawn other ((removeCaller_sublist _ _).subset mem)
  liveDrawn := by
    intro other mem
    rcases List.mem_append.mp mem with mem | mem
    · exact inv.liveDrawn other mem
    · rw [List.mem_singleton.mp mem]
      exact inv.callersDrawn lease pending
  callersDistinct := inv.callersDistinct.sublist (removeCaller_sublist _ _)
  liveDistinct := by
    refine List.pairwise_append.mpr ⟨inv.liveDistinct, List.pairwise_singleton _ _, ?_⟩
    intro held heldMem new newMem
    rw [List.mem_singleton.mp newMem]
    exact (inv.separate lease pending held heldMem).symm
  separate := by
    intro other mem held heldMem
    rcases List.mem_append.mp heldMem with heldMem | heldMem
    · exact inv.separate other ((removeCaller_sublist _ _).subset mem) held heldMem
    · rw [List.mem_singleton.mp heldMem]
      obtain ⟨caller, callerMem, rfl⟩ := List.mem_map.mp mem
      simpa [removeCaller] using (List.mem_filter.mp callerMem).2
  entries := by
    have own : lease.entries.filter (fun entry => entry.leaseId = lease.leaseId) = lease.entries :=
      List.filter_eq_self.mpr fun entry mem => by simp [(mem_entries mem).1]
    intro held mem
    rw [List.filter_append]
    rcases List.mem_append.mp mem with mem | mem
    · have foreign : lease.entries.filter (fun entry => entry.leaseId = held.leaseId) = [] :=
        List.filter_eq_nil_iff.mpr fun entry entryMem => by
          simpa [(mem_entries entryMem).1] using inv.separate lease pending held mem
      rw [inv.entries held mem, foreign, List.append_nil]
    · have fresh : state.active.filter (fun entry => entry.leaseId = lease.leaseId) = [] := by
        refine List.filter_eq_nil_iff.mpr fun entry entryMem => ?_
        obtain ⟨owner, ownerMem, owned⟩ := inv.owned entry entryMem
        simpa [(mem_entries owned).1] using (inv.separate lease pending owner ownerMem).symm
      rw [List.mem_singleton.mp mem, fresh, own, List.nil_append]
  owned := by
    intro entry mem
    rcases List.mem_append.mp mem with mem | mem
    · obtain ⟨owner, ownerMem, owned⟩ := inv.owned entry mem
      exact ⟨owner, List.mem_append_left _ ownerMem, owned⟩
    · exact ⟨lease, List.mem_append_right _ List.mem_cons_self, mem⟩
  compatible := by
    refine List.pairwise_append.mpr ⟨inv.compatible, List.pairwise_singleton _ _, ?_⟩
    intro held heldMem new newMem
    rw [List.mem_singleton.mp newMem]
    exact inv.compatible_of_not_blocked free heldMem
  noLostWakeup := by
    intro quiet caller mem asleep
    exact (inv.noLostWakeup quiet caller (List.mem_of_mem_filter mem) asleep).mono

/-- Dropping removes the entries of one lease; if there were any, a notification is due. -/
theorem RegistryInv.drop {state : Registry} (inv : RegistryInv state) (leaseId : Nat) :
    RegistryInv (dropLease state leaseId) where
  callersDrawn := inv.callersDrawn
  liveDrawn := fun lease mem => inv.liveDrawn lease (List.mem_of_mem_filter mem)
  callersDistinct := inv.callersDistinct
  liveDistinct := inv.liveDistinct.filter _
  separate := fun pending mem lease leaseMem =>
    inv.separate pending mem lease (List.mem_of_mem_filter leaseMem)
  entries := by
    intro lease mem
    obtain ⟨mem, other⟩ := List.mem_filter.mp mem
    rw [dropLease, List.filter_filter, ← inv.entries lease mem]
    refine List.filter_congr fun entry _ => ?_
    by_cases same : entry.leaseId = lease.leaseId
    · simpa [same] using other
    · simp [same]
  owned := by
    intro entry mem
    obtain ⟨mem, other⟩ := List.mem_filter.mp mem
    obtain ⟨owner, ownerMem, owned⟩ := inv.owned entry mem
    rw [(mem_entries owned).1] at other
    exact ⟨owner, List.mem_filter.mpr ⟨ownerMem, other⟩, owned⟩
  compatible := inv.compatible.filter _
  noLostWakeup := by
    intro quiet caller mem asleep
    simp only [dropLease] at quiet
    split at quiet
    · omega
    · rename_i unchanged
      have length : (state.active.filter fun entry => entry.leaseId ≠ leaseId).length =
          state.active.length := by simpa using unchanged
      have same : (state.active.filter fun entry => entry.leaseId ≠ leaseId) = state.active :=
        List.filter_sublist.eq_of_length length
      have blocked := inv.noLostWakeup quiet caller mem asleep
      rwa [← same] at blocked

theorem RegistryInv.step {state state' : Registry} {action : Action} (inv : RegistryInv state)
    (h : step state action = some state') : RegistryInv state' := by
  cases action with
  | begin workspaceId locks =>
    cases h
    exact inv.begin workspaceId locks
  | attempt leaseId =>
    simp only [LockRegistry.step] at h
    split at h
    · rename_i caller found
      obtain ⟨mem, rfl⟩ := caller?_spec found
      have pending : caller.lease ∈ state.callers.map (·.lease) := List.mem_map.mpr ⟨_, mem, rfl⟩
      split at h
      · cases h
        unfold attempt
        split
        · rename_i conflict
          refine inv.withCallers (by rw [map_lease_setPhase]) fun quiet other otherMem asleep => ?_
          rcases mem_setPhase otherMem with otherMem | ⟨same, -, otherMem⟩
          · exact inv.noLostWakeup quiet other otherMem asleep
          · rw [eq_of_leaseId inv.callersDistinct otherMem pending same]
            exact toolLocksConflictWithActive_iff.mp conflict
        · rename_i free
          exact inv.acquire pending fun blocked =>
            free (toolLocksConflictWithActive_iff.mpr blocked)
      · cases h
    · cases h
  | resume leaseId =>
    simp only [LockRegistry.step] at h
    split at h
    · split at h
      · cases h
        refine inv.withCallers (by rw [map_lease_setPhase]) fun quiet other otherMem asleep => ?_
        rcases mem_setPhase otherMem with otherMem | ⟨-, trying, -⟩
        · exact inv.noLostWakeup quiet other otherMem asleep
        · rw [trying] at asleep
          cases asleep
      · cases h
    · cases h
  | abandon leaseId =>
    simp only [LockRegistry.step] at h
    split at h
    · cases h
      exact inv.withCallers (removeCaller_sublist _ _) fun quiet other otherMem asleep =>
        inv.noLostWakeup quiet other (List.mem_of_mem_filter otherMem) asleep
    · cases h
  | drop leaseId =>
    simp only [LockRegistry.step] at h
    split at h
    · cases h
      exact inv.drop leaseId
    · cases h
  | notify =>
    simp only [LockRegistry.step] at h
    split at h
    · cases h
      exact inv.withCallers (by rw [map_lease_wake]) fun _ other otherMem asleep =>
        absurd asleep (not_asleep_of_wake otherMem)
    · cases h

theorem registry_inv {state : Registry} (reached : registry.Reachable state) :
    RegistryInv state :=
  Machine.Reachable.invariant
    ⟨by simp [registry], by simp [registry], .nil, .nil, by simp [registry], by simp [registry],
      by simp [registry], .nil, by simp [registry]⟩
    (fun _ _ _ inv step => inv.step step) reached

/-! ## Safety of the registry -/

/-- What dropping a lease does: its entries, which are its normalised locks, go, and every
other live lease keeps its own. -/
theorem drop_exact {state state' : Registry} {leaseId : Nat} (inv : RegistryInv state)
    (h : step state (.drop leaseId) = some state') :
    (∃ lease ∈ state.live, lease.leaseId = leaseId ∧
        state.active.filter (fun entry => entry.leaseId = leaseId) = lease.entries) ∧
      state'.active = state.active.filter (fun entry => entry.leaseId ≠ leaseId) ∧
      ∀ other ∈ state.live, other.leaseId ≠ leaseId →
        other ∈ state'.live ∧
          state'.active.filter (fun entry => entry.leaseId = other.leaseId) = other.entries := by
  have inv' := inv.step h
  simp only [step] at h
  split at h
  · rename_i held
    obtain ⟨lease, mem, same⟩ := List.any_eq_true.mp held
    have same : lease.leaseId = leaseId := by simpa using same
    cases h
    refine ⟨⟨lease, mem, same, same ▸ inv.entries lease mem⟩, rfl, fun other otherMem ne => ?_⟩
    have kept : other ∈ (dropLease state leaseId).live :=
      List.mem_filter.mpr ⟨otherMem, by simpa using ne⟩
    exact ⟨kept, inv'.entries other kept⟩
  · cases h

/-- In every reachable state of the registry no two live leases hold requested locks that
conflict in a shared scope, dropping a lease removes exactly its own entries, and a sleeping
caller for whom no notification is due is blocked by a lock that is active. -/
theorem lock_registry_safe {state : Registry} (reached : registry.Reachable state) :
    state.live.Pairwise Compatible ∧
      (∀ leaseId state', registry.step state (.drop leaseId) = some state' →
        (∃ lease ∈ state.live, lease.leaseId = leaseId ∧
            state.active.filter (fun entry => entry.leaseId = leaseId) = lease.entries) ∧
          state'.active = state.active.filter (fun entry => entry.leaseId ≠ leaseId) ∧
          ∀ other ∈ state.live, other.leaseId ≠ leaseId →
            other ∈ state'.live ∧
              state'.active.filter (fun entry => entry.leaseId = other.leaseId) = other.entries) ∧
      ∀ caller ∈ state.callers, caller.phase = .asleep → state.notifications = 0 →
        Blocked state.active caller.lease := by
  have inv := registry_inv reached
  exact ⟨inv.compatible, fun _ _ => drop_exact inv,
    fun caller mem asleep quiet => inv.noLostWakeup quiet caller mem asleep⟩

/-- One caller holds a file for reading and writing while another waits for the workspace. -/
def writeThenRead : List Action :=
  [.begin ['w'] [⟨.file ['a'], .read⟩, ⟨.file ['a'], .write⟩], .attempt 1,
    .begin ['w'] [⟨.workspaceFiles, .read⟩], .attempt 2]

theorem lock_registry_safe_write_then_read :
    ∃ state, registry.Reachable state ∧ (state.live.length = 1 ∧ state.callers.length = 1) ∧
      state.live.Pairwise Compatible := by
  have run : ((registry.run registry.start writeThenRead).any fun state =>
      state.live.length = 1 ∧ state.callers.length = 1) = true := by decide +kernel
  obtain ⟨state, reaches, shape⟩ := (Option.any_eq_true ..).mp run
  have reached := Machine.reachable_of_run .start reaches
  exact ⟨state, reached, of_decide_eq_true shape, (lock_registry_safe reached).1⟩

end Foco.LockRegistry
