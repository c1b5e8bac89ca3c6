import Foco.ExactEdits

/-!
`apply_spec_text_edits` of `tools/spec_patch.rs` against replacing the only occurrence of a text, edit
by edit: when a patch goes through, and which error it ends with.
-/
namespace Foco.SpecPatches
open RustText Occurrences ExactEdits

/-! ## Replacing what occurs once -/

/-- The only occurrence of the old text gives way to the new one. -/
def Replaces (edit : SpecTextEdit) (content result : Text) : Prop :=
  edit.oldText ≠ [] ∧ ∃ start, (∀ other, Occurs edit.oldText content other ↔ other = start) ∧
    result = content.take start ++ edit.newText ++ content.drop (start + edit.oldText.length)

/-- One edit after the other. -/
def Leads : List SpecTextEdit → Text → Text → Prop
  | [], content, result => result = content
  | edit :: edits, content, result => ∃ next, Replaces edit content next ∧ Leads edits next result

/-- What an edit is refused for. -/
def Refuses (edit : SpecTextEdit) (content : Text) (index : Nat) : SpecPatchError → Prop
  | .emptyOldText i => i = index ∧ edit.oldText = []
  | .notFound i => i = index ∧ edit.oldText ≠ [] ∧ ∀ start, ¬Occurs edit.oldText content start
  | .ambiguousMatch i => i = index ∧ edit.oldText ≠ [] ∧ ∃ first second, first ≠ second ∧
      Occurs edit.oldText content first ∧ Occurs edit.oldText content second
  | .emptyEdits | .noChange => False

/-- What a patch comes to. -/
def Patches (content : Text) (edits : List SpecTextEdit) : Except SpecPatchError Text → Prop
  | .ok result => edits ≠ [] ∧ Leads edits content result ∧ result ≠ content
  | .error .emptyEdits => edits = []
  | .error .noChange => edits ≠ [] ∧ Leads edits content content
  | .error error => ∃ done edit rest reached, edits = done ++ edit :: rest ∧
      Leads done content reached ∧ Refuses edit reached done.length error

section Edits

variable {content result : Text} {index : Nat} {edit : SpecTextEdit} {edits : List SpecTextEdit}
  {error : SpecPatchError}

theorem applyEdit_spec (index : Nat) : (∀ result, applyEdit content index edit = .ok result ↔
      Replaces edit content result) ∧
    ∀ error, applyEdit content index edit = .error error ↔ Refuses edit content index error := by
  rw [applyEdit]
  by_cases empty : edit.oldText = []
  · rw [if_pos empty]
    refine ⟨fun result => iff_of_false nofun fun replaces => replaces.1 empty, fun error => ?_⟩
    cases error <;> simp [Refuses, empty, eq_comm]
  rw [if_neg empty]
  have nodup : (positions edit.oldText content).Nodup := List.nodup_range.filter _
  have found (start : Nat) :
      start ∈ positions edit.oldText content ↔ Occurs edit.oldText content start :=
    mem_positions empty
  simp only [Replaces, ← found]
  have refuses : ∀ error, Refuses edit content index error ↔
      (error = .notFound index ∧ ∀ start, start ∉ positions edit.oldText content) ∨
        (error = .ambiguousMatch index ∧ ∃ first second, first ≠ second ∧
          first ∈ positions edit.oldText content ∧ second ∈ positions edit.oldText content) := by
    intro error
    simp only [found]
    cases error <;> simp [Refuses, empty]
  simp only [refuses]
  generalize positions edit.oldText content = starts at nodup found ⊢
  rcases starts with _ | ⟨first, _ | ⟨second, rest⟩⟩
  · refine ⟨fun result => iff_of_false nofun ?_, fun error => ?_⟩
    · rintro ⟨-, start, only, -⟩
      cases (only start).mpr rfl
    · simp [eq_comm]
  · refine ⟨fun result => ?_, fun error => iff_of_false nofun ?_⟩
    · rw [Except.ok.injEq]
      constructor
      · rintro rfl
        exact ⟨empty, first, fun other => List.mem_singleton, rfl⟩
      · rintro ⟨-, start, only, rfl⟩
        obtain rfl := List.mem_singleton.mp ((only start).mpr rfl)
        rfl
    · rintro (⟨-, none_⟩ | ⟨-, one, two, ne, mem, mem'⟩)
      · exact none_ first List.mem_cons_self
      · exact ne ((List.mem_singleton.mp mem).trans (List.mem_singleton.mp mem').symm)
  · have ne : first ≠ second := List.ne_of_not_mem_cons (List.nodup_cons.mp nodup).1
    have mem : second ∈ first :: second :: rest := List.mem_cons_of_mem _ List.mem_cons_self
    refine ⟨fun result => iff_of_false nofun ?_, fun error => ?_⟩
    · rintro ⟨-, start, only, -⟩
      exact ne (((only first).mp List.mem_cons_self).trans ((only second).mp mem).symm)
    · rw [Except.error.injEq]
      constructor
      · rintro rfl
        exact .inr ⟨rfl, first, second, ne, List.mem_cons_self, mem⟩
      · rintro (⟨-, none_⟩ | ⟨same, -⟩)
        · exact absurd List.mem_cons_self (none_ first)
        · exact same.symm

theorem applyEdits_eq_ok : applyEdits content index edits = .ok result ↔
    Leads edits content result := by
  induction edits generalizing content index with
  | nil => exact ⟨fun same => (Except.ok.inj same).symm, fun same => congrArg _ same.symm⟩
  | cons edit edits ih =>
    simp only [applyEdits, Result.bind_eq_ok, (applyEdit_spec _).1, ih, Leads]

theorem applyEdits_eq_error (index : Nat) : applyEdits content index edits = .error error ↔
    ∃ done edit rest reached, edits = done ++ edit :: rest ∧ Leads done content reached ∧
      Refuses edit reached (index + done.length) error := by
  induction edits generalizing content index with
  | nil =>
    refine iff_of_false nofun ?_
    rintro ⟨done, edit, rest, reached, same, -⟩
    simp at same
  | cons edit edits ih =>
    simp only [applyEdits, Result.bind_eq_error, (applyEdit_spec _).1, (applyEdit_spec _).2, ih]
    constructor
    · rintro (refused | ⟨next, replaces, done, other, rest, reached, rfl, leads, refused⟩)
      · exact ⟨[], edit, edits, content, rfl, rfl, refused⟩
      · exact ⟨edit :: done, other, rest, reached, rfl, ⟨next, replaces, leads⟩, by
          rwa [List.length_cons, Nat.add_comm _ 1, ← Nat.add_assoc]⟩
    · rintro ⟨_ | ⟨first, done⟩, other, rest, reached, same, leads, refused⟩
      · obtain ⟨rfl, rfl⟩ := List.cons.inj same
        exact .inl (leads ▸ refused)
      · obtain ⟨rfl, rfl⟩ := List.cons.inj same
        obtain ⟨next, replaces, leads⟩ := leads
        refine .inr ⟨next, replaces, done, other, rest, reached, rfl, leads, ?_⟩
        rwa [List.length_cons, Nat.add_comm _ 1, ← Nat.add_assoc] at refused

/-- A patch goes through exactly if each edit replaces the only occurrence of its text and the result
is another one; otherwise its error names the first edit that does not, and why. -/
theorem applySpecTextEdits_patches (content : Text) (edits : List SpecTextEdit)
    (outcome : Except SpecPatchError Text) :
    applySpecTextEdits content edits = outcome ↔ Patches content edits outcome := by
  rw [applySpecTextEdits]
  by_cases empty : edits = []
  · subst empty
    rw [if_pos rfl]
    rcases outcome with (_ | _ | _ | _ | _) | _ <;> simp [Patches]
  rw [if_neg empty]
  cases outcome with
  | ok result =>
    simp only [Result.bind_eq_ok, applyEdits_eq_ok, Patches, empty, ne_eq, not_false_eq_true,
      true_and]
    constructor
    · rintro ⟨reached, leads, done⟩
      split at done
      · cases done
      · next changed => exact Except.ok.inj done ▸ ⟨leads, changed⟩
    · rintro ⟨leads, changed⟩
      exact ⟨result, leads, if_neg changed⟩
  | error error =>
    have fails : applyEdits content 0 edits = .error error ↔
        ∃ done edit rest reached, edits = done ++ edit :: rest ∧ Leads done content reached ∧
          Refuses edit reached done.length error := by
      simpa only [Nat.zero_add] using applyEdits_eq_error 0
    have unchanged : (∃ reached, Leads edits content reached ∧
        (if reached = content then Except.error .noChange else .ok reached) = .error error) ↔
        error = .noChange ∧ Leads edits content content := by
      constructor
      · rintro ⟨reached, leads, done⟩
        split at done
        · next same => exact ⟨(Except.error.inj done).symm, same ▸ leads⟩
        · cases done
      · rintro ⟨rfl, leads⟩
        exact ⟨content, leads, if_pos rfl⟩
    simp only [Result.bind_eq_error, fails, applyEdits_eq_ok, unchanged]
    cases error <;> simp [Patches, Refuses, empty]

end Edits

end Foco.SpecPatches
