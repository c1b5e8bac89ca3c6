import Mathlib.Data.List.Basic
import Mathlib.Data.List.Infix
import Mathlib.Data.List.DropRight

/-!
The words of a list: the pieces between the elements that separate, without the empty ones. Words
are counted where a part of the list starts and ends at a separator, and joining them again gives
the list exactly if single separators stand between words only.
-/
namespace Foco.Words

variable {α : Type} (separates : α → Bool)

def words (text : List α) : List (List α) := (text.splitOnP separates).filter (· ≠ [])

def Unbroken (text : List α) : Prop := ∀ c ∈ text, separates c = false

instance (text : List α) : Decidable (Unbroken separates text) :=
  inferInstanceAs (Decidable (∀ c ∈ text, separates c = false))

structure IsWord (text : List α) : Prop where
  nonempty : text ≠ []
  unbroken : Unbroken separates text

/-- Something that a word can follow: nothing, or a separator at its end. -/
def Opens (before : List α) : Prop := ∀ last ∈ before.getLast?, separates last = true

/-- Something that can follow a word. -/
def Closes (after : List α) : Prop := ∀ first ∈ after.head?, separates first = true

variable {separates} {text before after piece : List α} {separator : α}

/-! ## Splitting -/

/-- A list without separators, or the part before its first one. -/
theorem unbroken_or_split (text : List α) :
    Unbroken separates text ∨ ∃ piece separator rest, text = piece ++ separator :: rest ∧
      Unbroken separates piece ∧ separates separator = true := by
  induction text with
  | nil => exact .inl nofun
  | cons first rest ih =>
    by_cases here : separates first = true
    · exact .inr ⟨[], first, rest, rfl, nofun, here⟩
    have visible : separates first = false := by simpa using here
    obtain unbroken | ⟨piece, separator, rest', rfl, unbroken, separated⟩ := ih
    · exact .inl (by simpa [Unbroken, visible] using unbroken)
    · exact .inr ⟨first :: piece, separator, rest', rfl,
        by simpa [Unbroken, visible] using unbroken, separated⟩

/-- Induction along the separators. -/
theorem separated_induction (separates : α → Bool) {motive : List α → Prop}
    (last : ∀ text, Unbroken separates text → motive text)
    (next : ∀ piece separator rest, Unbroken separates piece → separates separator = true →
      motive rest → motive (piece ++ separator :: rest)) (text : List α) : motive text := by
  obtain unbroken | ⟨piece, separator, rest, shape, unbroken, separated⟩ :=
    unbroken_or_split text
  · exact last text unbroken
  · rw [shape]
    exact next piece separator rest unbroken separated
      (separated_induction separates last next rest)
termination_by text.length
decreasing_by
  rw [shape, List.length_append, List.length_cons]
  omega

theorem Opens.of_suffix (opens : Opens separates before) (suffix : text <:+ before) :
    Opens separates text := by
  obtain ⟨front, rfl⟩ := suffix
  intro last last_mem
  have nonempty : text ≠ [] := by
    rintro rfl
    contradiction
  refine opens last ?_
  rwa [List.getLast?_append_of_ne_nil _ nonempty]

theorem Closes.of_prefix (closes : Closes separates after) (start : text <+: after) :
    Closes separates text := by
  obtain ⟨rest, rfl⟩ := start
  intro first first_mem
  refine closes first ?_
  rw [List.head?_append, first_mem]
  rfl

@[simp] theorem words_nil : words separates [] = [] := by
  simp [words]

theorem words_separator (separated : separates separator = true) (before after : List α) :
    words separates (before ++ separator :: after) =
      words separates before ++ words separates after := by
  unfold words
  rw [List.splitOnP_append_cons before after separated, List.filter_append]

theorem words_unbroken (unbroken : Unbroken separates text) :
    words separates text = if text = [] then [] else [text] := by
  unfold words
  rw [List.splitOnP_eq_singleton unbroken]
  by_cases empty : text = [] <;> simp [empty]

theorem words_word (word : IsWord separates text) : words separates text = [text] := by
  rw [words_unbroken word.unbroken, if_neg word.nonempty]

theorem words_append_of_opens (opens : Opens separates before) (after : List α) :
    words separates (before ++ after) = words separates before ++ words separates after := by
  obtain rfl | ⟨init, last, rfl⟩ := List.eq_nil_or_concat before
  · simp
  have separated : separates last = true := opens last (by simp)
  have alone := words_separator separated init []
  rw [words_nil, List.append_nil] at alone
  rw [List.concat_eq_append, List.append_assoc, alone]
  exact words_separator separated init after

theorem words_append_of_closes (closes : Closes separates after) (before : List α) :
    words separates (before ++ after) = words separates before ++ words separates after := by
  cases after with
  | nil => simp
  | cons first rest =>
    have separated : separates first = true := closes first rfl
    have alone := words_separator separated [] rest
    rw [words_nil, List.nil_append, List.nil_append] at alone
    rw [words_separator separated, alone]

theorem words_gap (gap : ∀ c ∈ text, separates c = true) : words separates text = [] := by
  induction text with
  | nil => simp
  | cons first rest ih =>
    have first_gap : separates first = true := gap first (by simp)
    have alone := words_separator first_gap [] rest
    rw [List.nil_append] at alone
    rw [alone, words_nil, ih fun c member => gap c (by simp [member])]
    rfl

/-- A word stands where one can, and goes as far as it can. -/
theorem exists_of_mem_words (member : piece ∈ words separates text) :
    IsWord separates piece ∧ ∃ before after, text = before ++ piece ++ after ∧
      Opens separates before ∧ Closes separates after := by
  induction text using separated_induction separates with
  | last text unbroken =>
    rw [words_unbroken unbroken] at member
    split at member
    · contradiction
    · rename_i nonempty
      obtain rfl : piece = text := by simpa using member
      exact ⟨⟨nonempty, unbroken⟩, [], [], by simp, nofun, nofun⟩
  | next front separator rest unbroken separated ih =>
    rw [words_separator separated, words_unbroken unbroken, List.mem_append] at member
    obtain here | later := member
    · split at here
      · contradiction
      · rename_i nonempty
        obtain rfl : piece = front := by simpa using here
        refine ⟨⟨nonempty, unbroken⟩, [], separator :: rest, rfl, nofun, ?_⟩
        simpa [Closes] using separated
    · obtain ⟨word, before, after, rfl, opens, closes⟩ := ih later
      refine ⟨word, front ++ separator :: before, after, by simp, ?_, closes⟩
      intro last last_mem
      cases before with
      | nil =>
        obtain rfl : separator = last := by simpa using last_mem
        exact separated
      | cons first before =>
        refine opens last ?_
        simpa [List.getLast?_append, List.getLast?_cons] using last_mem

/-! ## Single separators -/

/-- A property of every element, by what stands before and behind it. -/
def Everywhere (allowed : List α → α → List α → Prop) (text : List α) : Prop :=
  ∀ before c after, text = before ++ c :: after → allowed before c after

theorem everywhere_append_cons {allowed : List α → α → List α → Prop} {front rest : List α}
    {c : α} :
    Everywhere allowed (front ++ c :: rest) ↔
      Everywhere (fun before c' after => allowed before c' (after ++ c :: rest)) front ∧
        allowed front c rest ∧
        Everywhere (fun before c' after => allowed (front ++ c :: before) c' after) rest := by
  constructor
  · intro everywhere
    refine ⟨?_, everywhere front c rest rfl, ?_⟩
    · rintro before c' after rfl
      exact everywhere before c' (after ++ c :: rest) (by simp)
    · rintro before c' after rfl
      exact everywhere (front ++ c :: before) c' after (by simp)
  · rintro ⟨inFront, here, later⟩ before c' after shape
    obtain ⟨extra, rfl, behind⟩ | ⟨extra, rfl, behind⟩ := List.append_eq_append_iff.mp shape
    · cases extra with
      | nil =>
        obtain ⟨rfl, rfl⟩ : c = c' ∧ rest = after := by simpa using behind
        simpa using here
      | cons first extra =>
        obtain ⟨rfl, further⟩ : c = first ∧ rest = extra ++ c' :: after := by simpa using behind
        exact later extra c' after further
    · cases extra with
      | nil =>
        obtain ⟨rfl, rfl⟩ : c' = c ∧ after = rest := by simpa using behind
        simpa using here
      | cons first extra =>
        obtain ⟨rfl, rfl⟩ : c' = first ∧ after = extra ++ c :: rest := by simpa using behind
        exact inFront before c' extra rfl

variable (separates)

def LastVisible (before : List α) : Prop := ∃ last ∈ before.getLast?, separates last = false

def FirstVisible (after : List α) : Prop := ∃ first ∈ after.head?, separates first = false

variable {separates} {blank : α}

theorem lastVisible_append_cons (separated : separates separator = true) (front : List α) :
    LastVisible separates (front ++ separator :: before) ↔ LastVisible separates before := by
  unfold LastVisible
  cases before with
  | nil => simp [separated]
  | cons first rest => simp [List.getLast?_append, List.getLast?_cons]

theorem firstVisible_append_cons (separated : separates separator = true) (rest : List α) :
    FirstVisible separates (after ++ separator :: rest) ↔ FirstVisible separates after := by
  unfold FirstVisible
  cases after with
  | nil => simp [separated]
  | cons first after => simp

theorem lastVisible_unbroken (unbroken : Unbroken separates before) :
    LastVisible separates before ↔ before ≠ [] := by
  unfold LastVisible
  obtain rfl | ⟨init, last, rfl⟩ := List.eq_nil_or_concat before
  · simp
  · simpa using unbroken last (by simp)

/-- A separator is the given one and stands between two words. -/
def Between (separates : α → Bool) (blank : α) (before : List α) (c : α) (after : List α) : Prop :=
  separates c = true → c = blank ∧ LastVisible separates before ∧ FirstVisible separates after

/-- Words with one separator between every two of them. -/
abbrev Spaced (separates : α → Bool) (blank : α) : List α → Prop :=
  Everywhere (Between separates blank)

theorem spaced_unbroken (unbroken : Unbroken separates text) : Spaced separates blank text := by
  rintro before c after rfl separated
  have visible := unbroken c (by simp)
  rw [visible] at separated
  contradiction

theorem spaced_append_cons {front rest : List α} (unbroken : Unbroken separates front)
    (separated : separates separator = true) :
    Spaced separates blank (front ++ separator :: rest) ↔
      (separator = blank ∧ front ≠ [] ∧ FirstVisible separates rest) ∧
        Spaced separates blank rest := by
  have later : Everywhere (fun before c after =>
      Between separates blank (front ++ separator :: before) c after) rest ↔
      Spaced separates blank rest := by
    unfold Spaced Between
    simp only [lastVisible_append_cons separated]
  have inFront : Everywhere (fun before c after =>
      Between separates blank before c (after ++ separator :: rest)) front := by
    rintro before c after rfl separated
    have visible := unbroken c (by simp)
    rw [visible] at separated
    contradiction
  unfold Spaced
  rw [everywhere_append_cons, later]
  unfold Between
  rw [lastVisible_unbroken unbroken]
  constructor
  · rintro ⟨_, here, later⟩
    exact ⟨here separated, later⟩
  · rintro ⟨here, later⟩
    exact ⟨inFront, fun _ => here, later⟩

/-! ## Joined words -/

theorem intercalate_cons (blank : α) (first : List α) (rest : List (List α)) :
    List.intercalate [blank] (first :: rest) =
      first ++ if rest = [] then [] else blank :: List.intercalate [blank] rest := by
  cases rest with
  | nil => simp [List.intercalate]
  | cons second rest => simp [List.intercalate]

/-- The words joined are a text without words, or start with the first word. -/
theorem firstVisible_joined (some : words separates text ≠ []) :
    FirstVisible separates (List.intercalate [blank] (words separates text)) := by
  obtain ⟨first, rest, shape⟩ := List.exists_cons_of_ne_nil some
  have member : first ∈ words separates text := by simp [shape]
  have word := (exists_of_mem_words member).1
  obtain ⟨c, first, rfl⟩ := List.exists_cons_of_ne_nil word.nonempty
  rw [shape, intercalate_cons]
  exact ⟨c, rfl, word.unbroken c (by simp)⟩

/-- Joining the words gives the text back exactly if it has single separators between words. -/
theorem joined_eq_iff (separated : separates blank = true) :
    List.intercalate [blank] (words separates text) = text ↔ Spaced separates blank text := by
  induction text using separated_induction separates with
  | last text unbroken =>
    refine iff_of_true ?_ (spaced_unbroken unbroken)
    rw [words_unbroken unbroken]
    split
    · rename_i empty
      simp [empty, List.intercalate]
    · simp [List.intercalate]
  | next front separator rest unbroken separated' ih =>
    rw [words_separator separated', words_unbroken unbroken,
      spaced_append_cons unbroken separated', ← ih]
    by_cases empty : front = []
    · subst front
      constructor
      · intro joined
        by_cases none : words separates rest = []
        · simp [none, List.intercalate] at joined
        · have starts : FirstVisible separates
              (List.intercalate [blank] (words separates rest)) := firstVisible_joined none
          obtain ⟨first, first_mem, visible⟩ := starts
          simp only [if_true, List.nil_append] at joined
          rw [joined] at first_mem
          obtain rfl : separator = first := by simpa using first_mem
          rw [separated'] at visible
          contradiction
      · rintro ⟨⟨_, nonempty, _⟩, _⟩
        contradiction
    · rw [if_neg empty, List.singleton_append, intercalate_cons]
      by_cases none : words separates rest = []
      · rw [none]
        constructor
        · intro joined
          simp at joined
        · rintro ⟨⟨_, _, first, first_mem, visible⟩, joined⟩
          obtain rfl : [] = rest := joined
          contradiction
      · rw [if_neg none, List.append_right_inj, List.cons.injEq]
        constructor
        · rintro ⟨rfl, joined⟩
          refine ⟨⟨rfl, empty, ?_⟩, joined⟩
          rw [← joined]
          exact firstVisible_joined none
        · rintro ⟨⟨rfl, _, _⟩, joined⟩
          exact ⟨rfl, joined⟩

end Foco.Words
