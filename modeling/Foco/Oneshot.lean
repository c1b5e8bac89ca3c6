import Mathlib.Data.List.Basic

/-!
One-shot channels: each has one sender and one receiver, either of which may be dropped, and
carries one value at most. A pool holds the channels in the order they were opened, and a
channel is named by its place there.
-/
namespace Foco.Oneshot

/-- What is left of a channel and what it carries. -/
structure Channel (α : Type u) where
  senderAlive : Bool := true
  receiverAlive : Bool := true
  value : Option α := none

/-- The channels opened so far. -/
structure Pool (α : Type u) where
  channels : List (Channel α) := []

namespace Pool

variable {α : Type u} (pool : Pool α) (channel other : Nat)

/-- The name the next channel gets. -/
def next : Nat := pool.channels.length

/-- A channel of the pool. -/
def get? : Option (Channel α) := pool.channels[channel]?

/-- Opens a channel. -/
def opened : Pool α := ⟨pool.channels ++ [({} : Channel α)]⟩

/-- Drops the sender of a channel. -/
def dropSender : Pool α :=
  ⟨pool.channels.modify channel fun ends => { ends with senderAlive := false }⟩

/-- Drops the receiver of a channel. -/
def dropReceiver : Pool α :=
  ⟨pool.channels.modify channel fun ends => { ends with receiverAlive := false }⟩

/-- `Sender::send`, which consumes the sender; without a receiver it returns the value. -/
def send (value : α) : Except α (Pool α) :=
  if (pool.get? channel).any (·.receiverAlive) then
    .ok ⟨pool.channels.modify channel fun ends =>
      { ends with senderAlive := false, value := some value }⟩
  else .error value

/-- Whether someone can still receive from a channel. -/
def Waits : Prop := (pool.get? channel).any (·.receiverAlive) = true

variable {pool channel other}

theorem waits_lt (waits : pool.Waits channel) : channel < pool.next := by
  obtain ⟨ends, found, -⟩ := (Option.any_eq_true _ _).mp waits
  exact (List.getElem?_eq_some_iff.mp found).1

theorem next_opened : pool.opened.next = pool.next + 1 := by
  simp [opened, next]

theorem next_dropSender : (pool.dropSender channel).next = pool.next := by
  simp [dropSender, next]

theorem next_dropReceiver : (pool.dropReceiver channel).next = pool.next := by
  simp [dropReceiver, next]

theorem get?_opened (present : channel < pool.next) :
    pool.opened.get? channel = pool.get? channel :=
  List.getElem?_append_left present

theorem get?_opened_next : pool.opened.get? pool.next = some ({} : Channel α) := by
  simp [opened, get?, next]

theorem get?_dropSender_ne (apart : other ≠ channel) :
    (pool.dropSender channel).get? other = pool.get? other :=
  List.getElem?_modify_ne _ _ apart.symm

theorem get?_dropReceiver_ne (apart : other ≠ channel) :
    (pool.dropReceiver channel).get? other = pool.get? other :=
  List.getElem?_modify_ne _ _ apart.symm

theorem waits_opened : pool.opened.Waits channel ↔ channel = pool.next ∨ pool.Waits channel := by
  by_cases present : channel < pool.next
  · rw [Waits, Waits, get?_opened present]
    exact ⟨.inr, fun either => either.resolve_left (Nat.ne_of_lt present)⟩
  · constructor
    · intro waits
      have bound := waits_lt waits
      rw [next_opened] at bound
      exact .inl (by omega)
    · rintro (rfl | waits)
      · rw [Waits, get?_opened_next]
        rfl
      · exact absurd (waits_lt waits) present

theorem waits_dropSender : (pool.dropSender channel).Waits other ↔ pool.Waits other := by
  by_cases same : other = channel
  · subst same
    cases found : pool.channels[other]? <;> simp [Waits, get?, dropSender, found]
  · rw [Waits, Waits, get?_dropSender_ne same]

theorem waits_dropReceiver :
    (pool.dropReceiver channel).Waits other ↔ pool.Waits other ∧ other ≠ channel := by
  by_cases same : other = channel
  · subst same
    cases found : pool.channels[other]? <;> simp [Waits, get?, dropReceiver, found]
  · rw [Waits, Waits, get?_dropReceiver_ne same]
    exact (and_iff_left same).symm

/-- A send that succeeds fills its channel and no other, and leaves who waits as it was. -/
theorem send_eq_ok {value : α} {sent : Pool α} (h : pool.send channel value = .ok sent) :
    pool.Waits channel ∧ sent.next = pool.next ∧
      (∃ ends, pool.get? channel = some ends ∧
        sent.get? channel = some { ends with senderAlive := false, value := some value }) ∧
      (∀ other, other ≠ channel → sent.get? other = pool.get? other) ∧
      ∀ other, sent.Waits other ↔ pool.Waits other := by
  unfold send at h
  split at h
  case isFalse => cases h
  case isTrue waits =>
    cases h
    obtain ⟨ends, found, -⟩ := (Option.any_eq_true _ _).mp waits
    have filled : Pool.get? ⟨pool.channels.modify channel fun ends =>
        { ends with senderAlive := false, value := some value }⟩ channel =
        some { ends with senderAlive := false, value := some value } := by
      rw [get?, List.getElem?_modify_eq, show pool.channels[channel]? = some ends from found]
      rfl
    have others : ∀ other, other ≠ channel → Pool.get? ⟨pool.channels.modify channel fun ends =>
        { ends with senderAlive := false, value := some value }⟩ other = pool.get? other :=
      fun other apart => List.getElem?_modify_ne _ _ apart.symm
    refine ⟨waits, List.length_modify _ _ _, ⟨ends, found, filled⟩, others, fun other => ?_⟩
    by_cases same : other = channel
    · subst same
      rw [Waits, Waits, filled, found]
      rfl
    · rw [Waits, Waits, others other same]

end Pool

end Foco.Oneshot
