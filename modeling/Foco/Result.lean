import Mathlib.Data.List.Pairwise
import Mathlib.Data.List.Forall2

/-!
Rust's `Result` as `Except`: when a chain of fallible steps succeeds. The `?`
operator is `bind`, a loop whose body may return an error is `forM`.
-/
namespace Foco.Result

variable {ε : Type u} {α β : Type v}

/-- A `?` succeeds exactly when the step and the rest after it both succeed. -/
theorem bind_eq_ok {x : Except ε α} {f : α → Except ε β} {b : β} :
    x >>= f = .ok b ↔ ∃ a, x = .ok a ∧ f a = .ok b := by
  cases x <;> simp [bind, Except.bind]

/-- A `?` fails exactly when the step fails or the rest after it does. -/
theorem bind_eq_error {x : Except ε α} {f : α → Except ε β} {e : ε} :
    x >>= f = .error e ↔ x = .error e ∨ ∃ a, x = .ok a ∧ f a = .error e := by
  cases x <;> simp [bind, Except.bind]

theorem pure_eq_ok {a b : α} : (pure a : Except ε α) = .ok b ↔ a = b := by
  simp [pure, Except.pure]

theorem map_eq_ok {x : Except ε α} {f : α → β} {b : β} :
    x.map f = .ok b ↔ ∃ a, x = .ok a ∧ f a = b := by
  cases x <;> simp [Except.map]

theorem exists_of_isOk {x : Except ε α} (ok : x.isOk = true) : ∃ a, x = .ok a := by
  cases x with
  | error e => cases ok
  | ok a => exact ⟨a, rfl⟩

/-- `ok_or` succeeds exactly on a value. -/
theorem elim_eq_ok {x : Option α} {e : ε} {a : α} :
    x.elim (.error e) .ok = (.ok a : Except ε α) ↔ x = some a := by
  cases x <;> simp

/-- A loop of fallible checks succeeds exactly when every check does. -/
theorem forM_eq_ok {check : α → Except ε PUnit} {items : List α} :
    forM items check = .ok ⟨⟩ ↔ ∀ item ∈ items, check item = .ok ⟨⟩ := by
  induction items with
  | nil => simp [pure, Except.pure]
  | cons item rest ih =>
    rw [List.forM_cons, bind_eq_ok, List.forall_mem_cons]
    exact ⟨fun ⟨_, head, tail⟩ => ⟨head, ih.mp tail⟩, fun ⟨head, tail⟩ => ⟨_, head, ih.mpr tail⟩⟩

/-- A loop that collects results succeeds with the result of each item. -/
theorem mapM_eq_ok {f : α → Except ε β} {items : List α} {results : List β} :
    items.mapM f = .ok results ↔
      List.Forall₂ (fun item result => f item = .ok result) items results := by
  induction items generalizing results with
  | nil =>
    rw [List.mapM_nil, pure_eq_ok, List.forall₂_nil_left_iff]
    exact eq_comm
  | cons item items ih =>
    rw [List.mapM_cons, List.forall₂_cons_left_iff]
    simp only [bind_eq_ok, pure_eq_ok, ih]
    exact ⟨fun ⟨result, here, others, later, same⟩ => ⟨result, others, here, later, same.symm⟩,
      fun ⟨result, others, here, later, same⟩ => ⟨result, here, others, later, same.symm⟩⟩

theorem exists_mapM_eq_ok {f : α → Except ε β} {items : List α}
    (each : ∀ item ∈ items, ∃ result, f item = .ok result) :
    ∃ results, items.mapM f = .ok results := by
  induction items with
  | nil => exact ⟨[], rfl⟩
  | cons item rest ih =>
    obtain ⟨result, here⟩ := each item List.mem_cons_self
    obtain ⟨results, later⟩ := ih fun other mem => each other (List.mem_cons_of_mem _ mem)
    exact ⟨result :: results, by rw [List.mapM_cons, here, later]; rfl⟩

end Foco.Result
