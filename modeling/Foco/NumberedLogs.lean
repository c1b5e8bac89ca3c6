import Mathlib.Data.List.Basic

/-!
Logs whose entries are numbered one after another, of which only a tail may still be
held. A reader names the last number it has seen; what it then gets is the part of the
tail above that number, and whether it missed entries shows in the first number held.
-/
namespace Foco.Logs

variable {α : Type u} {number : α → Nat} {first : Nat}

/-- Entries that carry the numbers from `first` on, without gaps. -/
def Numbered (number : α → Nat) (first : Nat) (log : List α) : Prop :=
  log.map number = List.range' first log.length

theorem Numbered.nil : Numbered number first [] := rfl

theorem numbered_cons {entry : α} {log : List α} :
    Numbered number first (entry :: log) ↔
      number entry = first ∧ Numbered number (first + 1) log := by
  simp [Numbered, List.range'_succ]

theorem numbered_append {front back : List α} :
    Numbered number first (front ++ back) ↔
      Numbered number first front ∧ Numbered number (first + front.length) back := by
  induction front generalizing first with
  | nil => simp [Numbered]
  | cons entry front ih =>
    rw [List.cons_append, numbered_cons, numbered_cons, ih, List.length_cons, and_assoc,
      Nat.add_assoc, Nat.add_comm 1]

theorem Numbered.concat {log : List α} {entry : α} (numbered : Numbered number first log)
    (next : number entry = first + log.length) : Numbered number first (log ++ [entry]) :=
  numbered_append.mpr ⟨numbered, numbered_cons.mpr ⟨next, .nil⟩⟩

theorem Numbered.mem {log : List α} {entry : α} (numbered : Numbered number first log)
    (mem : entry ∈ log) : first ≤ number entry ∧ number entry < first + log.length := by
  have named : number entry ∈ List.range' first log.length :=
    numbered ▸ List.mem_map_of_mem mem
  simpa using named

/-- The entries above a number are those behind the first few. -/
theorem Numbered.filter_after {log : List α} (numbered : Numbered number first log) (seen : Nat) :
    log.filter (fun entry => seen < number entry) = log.drop (seen + 1 - first) := by
  induction log generalizing first with
  | nil => simp
  | cons entry log ih =>
    obtain ⟨here, rest⟩ := numbered_cons.mp numbered
    by_cases above : seen < first
    · have all : ∀ other ∈ entry :: log, decide (seen < number other) = true := by
        intro other mem
        have bounds := numbered.mem mem
        exact decide_eq_true (by omega)
      rw [List.filter_eq_self.mpr all, show seen + 1 - first = 0 by omega, List.drop_zero]
    · rw [List.filter_cons_of_neg (by simpa [here] using above), ih rest,
        show seen + 1 - first = (seen + 1 - (first + 1)) + 1 by omega, List.drop_succ_cons]

/-- A reader that has seen the front of the log gets what came after it, if what is no longer
held lies within that front. -/
theorem Numbered.unseen {gone held seen unseen : List α}
    (numbered : Numbered number 1 (gone ++ held)) (split : gone ++ held = seen ++ unseen)
    (early : gone.length ≤ seen.length) :
    held.filter (fun entry => seen.length < number entry) = unseen := by
  have tail := (numbered_append.mp numbered).2
  rw [tail.filter_after]
  have dropped := congrArg (List.drop seen.length) split
  rw [List.drop_append, List.drop_of_length_le early, List.nil_append, List.drop_left] at dropped
  rw [← dropped]
  congr 1
  omega

/-- The first number held tells how many entries are gone. -/
theorem Numbered.earliest {gone held : List α} (numbered : Numbered number 1 (gone ++ held))
    {entry : α} (front : held.head? = some entry) : number entry = gone.length + 1 := by
  obtain ⟨rest, rfl⟩ := List.head?_eq_some_iff.mp front
  rw [(numbered_cons.mp (numbered_append.mp numbered).2).1, Nat.add_comm]

end Foco.Logs
