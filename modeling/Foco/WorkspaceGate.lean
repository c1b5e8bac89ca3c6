import Foco.CountingSemaphore

/-!
The gate of one workspace database (`store/workspace_gate.rs`): two counting semaphores that an
ordinary opener acquires one after the other under one deadline, and of which a critical opener
acquires the second only. A step is one critical section of a semaphore, the arrival of an
opener, or the passing of time.
-/
namespace Foco.WorkspaceGate
open Foco.Runs Foco.CountingSemaphore

/-- `WORKSPACE_DATABASE_TOTAL_CAPACITY`. -/
def totalCapacity : Nat := 3

/-- `WORKSPACE_DATABASE_ORDINARY_CAPACITY`. -/
def ordinaryCapacity : Nat := 2

/-- `WorkspaceDatabaseGateKind`. -/
inductive GateKind where
  | ordinary
  | critical
deriving DecidableEq

/-- `WorkspaceDatabaseGateKind::timeout`, in milliseconds. -/
def GateKind.timeout : GateKind → Nat
  | .ordinary => 5000
  | .critical => 15000

/-- A call of `acquire_workspace_database_permits`. -/
structure Opener where
  kind : GateKind
  startedAt : Nat

/-- The two semaphores, by the `slot_kind` they are acquired as. -/
inductive Slot where
  | ordinary
  | total
deriving DecidableEq

def Slot.capacity : Slot → Nat
  | .ordinary => ordinaryCapacity
  | .total => totalCapacity

/-- `WorkspaceDatabaseGate` with the clock and the openers; an opener is known to both
semaphores by its position. -/
structure Gate where
  now : Nat := 0
  openers : List Opener := []
  ordinary : Shared := { state := .new ordinaryCapacity }
  total : Shared := { state := .new totalCapacity }

namespace Gate

def slot (gate : Gate) : Slot → Shared
  | .ordinary => gate.ordinary
  | .total => gate.total

def setSlot (gate : Gate) (shared : Shared) : Slot → Gate
  | .ordinary => { gate with ordinary := shared }
  | .total => { gate with total := shared }

def hasKind (gate : Gate) (kind : GateKind) (opener : Nat) : Bool :=
  gate.openers[opener]?.any fun known => known.kind = kind

/-- The deadline of an opener has passed: `started_at.elapsed() >= timeout`. -/
def expired (gate : Gate) (opener : Nat) : Bool :=
  gate.openers[opener]?.any fun known => known.kind.timeout ≤ gate.now - known.startedAt

/-- Where the code calls `acquire_until`: an ordinary opener on the ordinary semaphore first, and
on the total one with that permit in hand; a critical opener on the total one. -/
def mayAcquire (gate : Gate) (opener : Nat) : Slot → Bool
  | .ordinary => gate.hasKind .ordinary opener
  | .total => gate.hasKind .critical opener ∨ gate.ordinary.standing[opener]? = some .holding

/-- Where the code drops a permit: the total one with the handle, the ordinary one after the
total one is dropped or was refused. -/
def mayRelease (gate : Gate) (opener : Nat) : Slot → Bool
  | .ordinary => gate.total.standing[opener]? = some .left
  | .total => true

end Gate

/-- What can happen at the gate. -/
inductive Action where
  | tick (elapsed : Nat)
  | start (kind : GateKind)
  | acquire (slot : Slot) (opener : Nat)
  | wake (slot : Slot) (opener : Nat)
  | release (slot : Slot) (opener : Nat)

def stepSlot (gate : Gate) (slot : Slot) (action : CountingSemaphore.Action) : Option Gate :=
  (CountingSemaphore.step (gate.slot slot) action).map fun shared => gate.setSlot shared slot

def step (gate : Gate) : Action → Option Gate
  | .tick elapsed => some { gate with now := gate.now + elapsed }
  | .start kind =>
    ((stepSlot gate .ordinary .join).bind fun gate => stepSlot gate .total .join).map fun joined =>
      { joined with openers := gate.openers ++ [{ kind, startedAt := gate.now }] }
  | .acquire slot opener =>
    if gate.mayAcquire opener slot then
      stepSlot gate slot (.acquire opener (gate.expired opener))
    else none
  | .wake slot opener => stepSlot gate slot (.wake opener (gate.expired opener))
  | .release slot opener =>
    if gate.mayRelease opener slot then stepSlot gate slot (.release opener) else none

/-- The gate from some state on; a fresh gate is the default one. -/
def machine (start : Gate) : Machine Gate Action where
  start := start
  step := step

/-! ## The reserve for critical openers -/

/-- No critical opener holds or waits for a total permit. -/
def Unreserved (gate : Gate) : Prop :=
  ∀ opener, gate.hasKind .critical opener = true →
    gate.total.standing[opener]? ≠ some .holding ∧
      ∀ id, gate.total.standing[opener]? ≠ some (.waiting id)

/-- The opener has its total permit, or has left by its own deadline, or gets its permit from the
passes of waiting openers alone. -/
def Served (opener : Nat) (gate : Gate) : Prop :=
  opener ∈ gate.total.granted ∨ (opener ∈ gate.total.timedOut ∧ gate.expired opener = true) ∨
    ∃ (waiters : List Nat) (final : Gate),
      (machine gate).run gate (waiters.map (.wake .total)) = some final ∧
      final.total.standing[opener]? = some .holding

/-! ## The invariant -/

/-- Both semaphores are in order, and an ordinary opener at the total semaphore has its ordinary
permit. -/
structure Sound (gate : Gate) : Prop where
  lined : ∀ slot, ∃ line, Lined slot.capacity (gate.slot slot) line
  known : ∀ slot, (gate.slot slot).standing.length = gate.openers.length
  paired : ∀ opener, gate.hasKind .ordinary opener = true →
    (gate.total.standing[opener]? = some .holding ∨
      ∃ id, gate.total.standing[opener]? = some (.waiting id)) →
    gate.ordinary.standing[opener]? = some .holding

section Steps

variable {gate gate' : Gate} {slot : Slot} {shared : Shared}

theorem slot_setSlot (gate : Gate) (shared : Shared) (slot other : Slot) :
    (gate.setSlot shared slot).slot other = if other = slot then shared else gate.slot other := by
  cases slot <;> cases other <;> rfl

@[simp] theorem now_setSlot : (gate.setSlot shared slot).now = gate.now := by
  cases slot <;> rfl

@[simp] theorem openers_setSlot : (gate.setSlot shared slot).openers = gate.openers := by
  cases slot <;> rfl

@[simp] theorem hasKind_setSlot (kind : GateKind) (opener : Nat) :
    (gate.setSlot shared slot).hasKind kind opener = gate.hasKind kind opener := by
  rw [Gate.hasKind, openers_setSlot, Gate.hasKind]

@[simp] theorem expired_setSlot (opener : Nat) :
    (gate.setSlot shared slot).expired opener = gate.expired opener := by
  rw [Gate.expired, openers_setSlot, now_setSlot, Gate.expired]

theorem stepSlot_eq_some {action : CountingSemaphore.Action} :
    stepSlot gate slot action = some gate' ↔
      ∃ shared, CountingSemaphore.step (gate.slot slot) action = some shared ∧
        gate.setSlot shared slot = gate' :=
  Option.map_eq_some_iff

/-- What a step of the gate is: time, a new opener, or a pass of one opener at one semaphore. -/
theorem step_cases {action : Action} (stepped : step gate action = some gate') :
    (∃ elapsed, gate' = { gate with now := gate.now + elapsed }) ∨
      (∃ kind, gate' = { gate with
        openers := gate.openers ++ [{ kind, startedAt := gate.now }]
        ordinary := { gate.ordinary with standing := gate.ordinary.standing ++ [.outside] }
        total := { gate.total with standing := gate.total.standing ++ [.outside] } }) ∨
      ∃ slot opener pass shared, pass.caller? = some opener ∧
        CountingSemaphore.step (gate.slot slot) pass = some shared ∧
        gate' = gate.setSlot shared slot ∧
        (∀ expired, pass = .acquire opener expired → gate.mayAcquire opener slot = true) ∧
        (∀ expired, pass = .wake opener expired → expired = gate.expired opener) ∧
        (pass = .release opener → gate.mayRelease opener slot = true) := by
  cases action with
  | tick elapsed =>
    cases stepped
    exact .inl ⟨elapsed, rfl⟩
  | start kind =>
    cases stepped
    exact .inr (.inl ⟨kind, rfl⟩)
  | acquire slot opener =>
    obtain ⟨may, stepped⟩ := Option.ite_none_right_eq_some.mp stepped
    obtain ⟨shared, passed, rfl⟩ := stepSlot_eq_some.mp stepped
    exact .inr (.inr ⟨slot, opener, _, shared, rfl, passed, rfl, fun _ _ => may, nofun, nofun⟩)
  | wake slot opener =>
    obtain ⟨shared, passed, rfl⟩ := stepSlot_eq_some.mp stepped
    refine .inr (.inr ⟨slot, opener, _, shared, rfl, passed, rfl, nofun, fun expired same => ?_,
      nofun⟩)
    cases same
    rfl
  | release slot opener =>
    obtain ⟨may, stepped⟩ := Option.ite_none_right_eq_some.mp stepped
    obtain ⟨shared, passed, rfl⟩ := stepSlot_eq_some.mp stepped
    exact .inr (.inr ⟨slot, opener, _, shared, rfl, passed, rfl, nofun, nofun, fun _ => may⟩)

theorem sound_start : Sound {} where
  lined := fun slot => by
    cases slot <;> exact ⟨[], lined_new _⟩
  known := fun slot => by
    cases slot <;> rfl
  paired := nofun

theorem hasKind_critical {opener : Nat} (ordinary : gate.hasKind .ordinary opener = true) :
    gate.hasKind .critical opener = false := by
  rw [Gate.hasKind] at ordinary ⊢
  cases known : gate.openers[opener]? with
  | none => rfl
  | some known' =>
    rw [known, Option.any_some, decide_eq_true_eq] at ordinary
    rw [Option.any_some, ordinary]
    rfl

theorem Sound.join (sound : Sound gate) (kind : GateKind) :
    Sound { gate with
      openers := gate.openers ++ [{ kind, startedAt := gate.now }]
      ordinary := { gate.ordinary with standing := gate.ordinary.standing ++ [.outside] }
      total := { gate.total with standing := gate.total.standing ++ [.outside] } } := by
  have joins : ∀ slot, ∃ line, Lined slot.capacity
      { gate.slot slot with standing := (gate.slot slot).standing ++ [.outside] } line :=
    fun slot => by
      obtain ⟨line, lined⟩ := sound.lined slot
      exact lined.step (show CountingSemaphore.step (gate.slot slot) .join = some _ from rfl)
  refine ⟨fun slot => ?_, fun slot => ?_, fun opener ordinary at_ => ?_⟩
  · cases slot
    · exact joins .ordinary
    · exact joins .total
  · have known := sound.known slot
    cases slot <;> simpa [Gate.slot] using known
  · have total := sound.known .total
    have ordinaries := sound.known .ordinary
    dsimp only [Gate.slot] at total ordinaries at_ ⊢
    have within : opener < gate.total.standing.length := by
      by_contra beyond
      have far := Nat.le_of_not_lt beyond
      rw [List.getElem?_append_right far] at at_
      obtain at_ | ⟨id, at_⟩ := at_ <;>
      · have new := List.mem_singleton.mp (List.mem_of_getElem? at_)
        cases new
    rw [List.getElem?_append_left within] at at_
    rw [List.getElem?_append_left (by omega)]
    refine sound.paired opener ?_ at_
    rwa [Gate.hasKind, List.getElem?_append_left (by omega)] at ordinary

/-- A pass of one opener keeps the invariant if it keeps this opener's permits paired. -/
theorem Sound.pass (sound : Sound gate) {pass : CountingSemaphore.Action} {opener : Nat}
    (acts : pass.caller? = some opener)
    (stepped : CountingSemaphore.step (gate.slot slot) pass = some shared)
    (pairs : gate.hasKind .ordinary opener = true →
      ((gate.setSlot shared slot).total.standing[opener]? = some .holding ∨
        ∃ id, (gate.setSlot shared slot).total.standing[opener]? = some (.waiting id)) →
      (gate.setSlot shared slot).ordinary.standing[opener]? = some .holding) :
    Sound (gate.setSlot shared slot) := by
  obtain ⟨standing, changed⟩ := standing_step stepped acts
  refine ⟨fun other => ?_, fun other => ?_, fun other ordinary at_ => ?_⟩
  · rw [slot_setSlot]
    split
    · next same =>
      subst same
      obtain ⟨line, lined⟩ := sound.lined other
      exact lined.step stepped
    · exact sound.lined other
  · rw [slot_setSlot, openers_setSlot]
    split
    · next same =>
      subst same
      rw [changed, List.length_set, sound.known]
    · exact sound.known other
  · rw [hasKind_setSlot] at ordinary
    by_cases here : opener = other
    · subst here
      exact pairs ordinary at_
    · have same : ∀ place : Slot, ((gate.setSlot shared slot).slot place).standing[other]? =
          (gate.slot place).standing[other]? := fun place => by
        rw [slot_setSlot]
        split
        · next at_slot =>
          rw [changed, List.getElem?_set_ne here, at_slot]
        · rfl
      have total := same .total
      have ordinaries := same .ordinary
      dsimp only [Gate.slot] at total ordinaries
      rw [total] at at_
      rw [ordinaries]
      exact sound.paired other ordinary at_

theorem Sound.step (sound : Sound gate) {action : Action}
    (stepped : step gate action = some gate') : Sound gate' := by
  obtain ⟨elapsed, rfl⟩ | ⟨kind, rfl⟩ | ⟨slot, opener, pass, shared, acts, passed, rfl,
    acquires, -, releases⟩ := step_cases stepped
  · exact ⟨sound.lined, sound.known, sound.paired⟩
  · exact sound.join kind
  · refine sound.pass acts passed fun ordinary at_ => ?_
    have before := standing_before passed acts
    cases slot with
    | ordinary =>
      -- the opener is not yet, or no longer, at the total semaphore
      have holds := sound.paired opener ordinary at_
      obtain ⟨expired, rfl, outside⟩ | ⟨expired, id, rfl, waits⟩ | ⟨rfl, -⟩ := before
      · cases holds.symm.trans outside
      · cases holds.symm.trans waits
      · have gone := of_decide_eq_true (releases rfl)
        obtain at_ | ⟨id, at_⟩ := at_
        · cases gone.symm.trans at_
        · cases gone.symm.trans at_
    | total =>
      change gate.ordinary.standing[opener]? = some .holding
      obtain ⟨expired, rfl, outside⟩ | ⟨expired, id, rfl, waits⟩ | ⟨rfl, holds⟩ := before
      · have may := of_decide_eq_true (acquires expired rfl)
        exact may.resolve_left (by rw [hasKind_critical ordinary]; simp)
      · exact sound.paired opener ordinary (.inr ⟨id, waits⟩)
      · exact sound.paired opener ordinary (.inl holds)

theorem sound_of_reachable (reached : (machine {}).Reachable gate) : Sound gate :=
  reached.invariant sound_start fun _ _ _ sound stepped => sound.step stepped

/-! ## Permits and the reserve -/

theorem Sound.conserved (sound : Sound gate) (slot : Slot) :
    (gate.slot slot).state.available + (gate.slot slot).holders.length = slot.capacity := by
  obtain ⟨line, lined⟩ := sound.lined slot
  rw [length_holders]
  exact lined.conserved

theorem kind_cases {opener : Nat} (known : opener < gate.openers.length) :
    gate.hasKind .ordinary opener = true ∨ gate.hasKind .critical opener = true := by
  rw [Gate.hasKind, Gate.hasKind, List.getElem?_eq_getElem known]
  cases kind : gate.openers[opener].kind
  · exact .inl (decide_eq_true kind)
  · exact .inr (decide_eq_true kind)

/-- The ordinary openers that hold or wait for a total permit hold an ordinary one. -/
theorem Sound.ordinary_le (sound : Sound gate) {people : List Nat} (distinct : people.Nodup)
    (ordinary : ∀ opener ∈ people, gate.hasKind .ordinary opener = true)
    (at_ : ∀ opener ∈ people, gate.total.standing[opener]? = some .holding ∨
      ∃ id, gate.total.standing[opener]? = some (.waiting id)) :
    people.length ≤ ordinaryCapacity := by
  have holders : people ⊆ gate.ordinary.holders := fun opener mem =>
    mem_holders.mpr (sound.paired opener (ordinary opener mem) (at_ opener mem))
  have bound := (List.subperm_of_subset distinct holders).length_le
  have conserved := sound.conserved .ordinary
  dsimp only [Gate.slot, Slot.capacity] at conserved
  omega

/-- Without critical openers there are more total permits than waiters. -/
theorem Sound.room (sound : Sound gate) (unreserved : Unreserved gate) :
    ∃ line, Lined totalCapacity gate.total line ∧
      line.length < gate.total.state.available := by
  obtain ⟨line, lined⟩ := sound.lined .total
  refine ⟨line, lined, ?_⟩
  have at_ : ∀ opener ∈ gate.total.holders ++ line.map Prod.snd,
      gate.total.standing[opener]? = some .holding ∨
        ∃ id, gate.total.standing[opener]? = some (.waiting id) := fun opener mem => by
    obtain holds | waits := List.mem_append.mp mem
    · exact .inl (mem_holders.mp holds)
    · obtain ⟨⟨id, _⟩, place, rfl⟩ := List.mem_map.mp waits
      exact .inr ⟨id, (lined.stands _ _).mp place⟩
  have ordinary : ∀ opener ∈ gate.total.holders ++ line.map Prod.snd,
      gate.hasKind .ordinary opener = true := fun opener mem => by
    have stands := at_ opener mem
    have within : opener < gate.total.standing.length := by
      obtain holds | ⟨id, waits⟩ := stands
      · exact (List.getElem?_eq_some_iff.mp holds).1
      · exact (List.getElem?_eq_some_iff.mp waits).1
    have known := sound.known .total
    dsimp only [Gate.slot] at known
    obtain ordinary | critical := kind_cases (known ▸ within)
    · exact ordinary
    · have free := unreserved opener critical
      obtain holds | ⟨id, waits⟩ := stands
      · exact absurd holds free.1
      · exact absurd waits (free.2 id)
  have distinct : (gate.total.holders ++ line.map Prod.snd).Nodup := by
    refine List.nodup_append.mpr ⟨holders_nodup _, lined.callers_nodup, ?_⟩
    rintro opener holds _ waits rfl
    obtain ⟨⟨id, _⟩, place, rfl⟩ := List.mem_map.mp waits
    exact absurd ((mem_holders.mp holds).symm.trans ((lined.stands _ _).mp place)) nofun
  have bound := sound.ordinary_le distinct ordinary at_
  have conserved := sound.conserved .total
  rw [List.length_append, List.length_map] at bound
  dsimp only [Gate.slot, Slot.capacity, totalCapacity, ordinaryCapacity] at bound conserved
  omega

theorem expired_step {action : Action} (stepped : WorkspaceGate.step gate action = some gate')
    {opener : Nat} (expired : gate.expired opener = true) : gate'.expired opener = true := by
  obtain ⟨known, found, late⟩ := (Option.any_eq_true _ _).mp expired
  rw [decide_eq_true_eq] at late
  obtain ⟨elapsed, rfl⟩ | ⟨kind, rfl⟩ | ⟨slot, _, _, shared, -, -, rfl, -⟩ := step_cases stepped
  · refine (Option.any_eq_true _ _).mpr ⟨known, found, decide_eq_true ?_⟩
    dsimp only
    omega
  · have within := (List.getElem?_eq_some_iff.mp found).1
    refine (Option.any_eq_true _ _).mpr ⟨known, ?_, decide_eq_true late⟩
    rw [List.getElem?_append_left within, found]
  · rwa [expired_setSlot]

/-- How an opener stands for which the reserve was kept. -/
def Reserved (opener : Nat) (gate : Gate) : Prop :=
  opener ∈ gate.total.granted ∨ (opener ∈ gate.total.timedOut ∧ gate.expired opener = true) ∨
    Unobstructed gate.total opener

theorem Reserved.step {opener : Nat} (sound : Sound gate) (reserved : Reserved opener gate)
    {action : Action} (stepped : WorkspaceGate.step gate action = some gate') :
    Reserved opener gate' := by
  have expired : gate.expired opener = true → gate'.expired opener = true :=
    expired_step stepped
  obtain ⟨line, lined⟩ := sound.lined .total
  obtain ⟨elapsed, rfl⟩ | ⟨kind, rfl⟩ | ⟨slot, other, pass, shared, acts, passed, rfl, -, wakes,
    -⟩ := step_cases stepped
  · exact reserved.imp_right (Or.imp_left fun left => ⟨left.1, expired left.2⟩)
  · obtain granted | ⟨left, late⟩ | clear := reserved
    · exact .inl granted
    · exact .inr (.inl ⟨left, expired late⟩)
    · obtain clear | granted | ⟨-, no⟩ := clear.step lined
        (show CountingSemaphore.step gate.total .join = some _ from rfl)
      · exact .inr (.inr clear)
      · exact .inl granted
      · cases no
  · cases slot with
    | ordinary => exact reserved.imp_right (Or.imp_left fun left => ⟨left.1, expired left.2⟩)
    | total =>
      obtain granted | ⟨left, late⟩ | clear := reserved
      · exact .inl ((step_grows passed).1 granted)
      · exact .inr (.inl ⟨(step_grows passed).2 left, expired late⟩)
      · obtain clear | granted | ⟨left, rfl⟩ := clear.step lined passed
        · exact .inr (.inr clear)
        · exact .inl granted
        · cases acts
          exact .inr (.inl ⟨left, expired (wakes true rfl).symm⟩)

/-- Passes at the total semaphore are passes at the gate. -/
theorem run_wakes {waiters : List Nat} {final : Shared} (gate start : Gate)
    (run : (CountingSemaphore.machine totalCapacity).run gate.total
      (waiters.map fun waiter => .wake waiter (gate.expired waiter)) = some final) :
    (machine start).run gate (waiters.map (.wake .total)) = some { gate with total := final } := by
  induction waiters generalizing gate with
  | nil =>
    cases run
    rfl
  | cons waiter rest ih =>
    obtain ⟨shared, passed, tail⟩ := Option.bind_eq_some_iff.mp run
    have stepped : WorkspaceGate.step gate (.wake .total waiter) =
        some { gate with total := shared } :=
      stepSlot_eq_some.mpr ⟨shared, passed, rfl⟩
    exact Option.bind_eq_some_iff.mpr ⟨_, stepped, ih { gate with total := shared } tail⟩

theorem Reserved.served {opener : Nat} (sound : Sound gate) (reserved : Reserved opener gate) :
    Served opener gate := by
  obtain granted | left | clear := reserved
  · exact .inl granted
  · exact .inr (.inl left)
  · obtain ⟨line, lined⟩ := sound.lined .total
    obtain ⟨ahead, final, run, holds⟩ := clear.served lined gate.expired
    exact .inr (.inr ⟨ahead ++ [opener], { gate with total := final }, run_wakes gate gate run,
      holds⟩)

theorem Sound.reserve (sound : Sound gate) (unreserved : Unreserved gate) {opener : Nat}
    {arrived later : Gate}
    (stepped : WorkspaceGate.step gate (.acquire .total opener) = some arrived)
    (reached : (machine arrived).Reachable later) : Served opener later := by
  have soundArrived := sound.step stepped
  have begins : Reserved opener arrived := by
    obtain ⟨-, acquires⟩ := Option.ite_none_right_eq_some.mp stepped
    obtain ⟨shared, passed, rfl⟩ := stepSlot_eq_some.mp acquires
    obtain ⟨line, lined, room⟩ := sound.room unreserved
    have outside := (Option.ite_none_right_eq_some.mp passed).1
    obtain granted | clear | ⟨left, late⟩ := lined.arrival outside room _ passed
    · exact .inl granted
    · exact .inr (.inr clear)
    · exact .inr (.inl ⟨left, by rwa [expired_setSlot]⟩)
  have keep : ∀ gate action gate', Sound gate ∧ Reserved opener gate →
      WorkspaceGate.step gate action = some gate' → Sound gate' ∧ Reserved opener gate' :=
    fun _ _ _ ⟨sound, reserved⟩ stepped => ⟨sound.step stepped, reserved.step sound stepped⟩
  obtain ⟨soundLater, reserved⟩ := reached.invariant ⟨soundArrived, begins⟩ keep
  exact reserved.served soundLater

end Steps

end Foco.WorkspaceGate
