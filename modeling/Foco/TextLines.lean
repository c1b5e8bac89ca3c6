import Mathlib.Algebra.BigOperators.Group.List.Basic
import Foco.RustText

/-!
Complete lines of a text: `\r\n`, `\n` and a lone `\r` end a line, and a final line ending
starts no further line. A text is the concatenation of its lines, and cutting it between
two lines cuts the list of lines there: the part before and the part after have the lines
they had in the whole text.
-/
namespace Foco.TextLines
open Foco.RustText

/-- The scan for line endings; `pending` is the part of the current line already passed. -/
def scanLines (pending : Text) : Text → List Text
  | [] => if pending = [] then [] else [pending]
  | '\r' :: '\n' :: rest => (pending ++ ['\r', '\n']) :: scanLines [] rest
  | '\r' :: rest => (pending ++ ['\r']) :: scanLines [] rest
  | '\n' :: rest => (pending ++ ['\n']) :: scanLines [] rest
  | c :: rest => scanLines (pending ++ [c]) rest

/-- The complete lines of a text, each with its ending. -/
def completeLines (text : Text) : List Text := scanLines [] text

/-- The first line of a scan, the text it comes from, and that it stays the first line when the
text after it is cut short. -/
structure FirstLine (pending text line : Text) (lines : List Text) (own rest : Text) : Prop where
  text_eq : text = own ++ rest
  line_eq : line = pending ++ own
  lines_eq : lines = scanLines [] rest
  filled : line ≠ []
  stays : ∀ short, short <+: rest → scanLines pending (own ++ short) = line :: scanLines [] short

theorem scanLines_cons {pending text line : Text} {lines : List Text}
    (scan : scanLines pending text = line :: lines) :
    ∃ own rest, FirstLine pending text line lines own rest := by
  induction pending, text using scanLines.induct with
  | case1 => simp [scanLines] at scan
  | case2 pending filled =>
    simp only [scanLines, filled, if_false, List.cons.injEq] at scan
    obtain ⟨rfl, rfl⟩ := scan
    refine ⟨[], [], rfl, (List.append_nil _).symm, rfl, filled, fun short cut => ?_⟩
    obtain rfl := List.prefix_nil.mp cut
    simp [scanLines, filled]
  | case3 pending rest ih =>
    rw [scanLines, List.cons.injEq] at scan
    obtain ⟨rfl, rfl⟩ := scan
    exact ⟨['\r', '\n'], rest, rfl, rfl, rfl, by simp, fun short _ => by
      simp only [List.cons_append, List.nil_append, scanLines]⟩
  | case4 pending rest lone ih =>
    have alone : ∀ short, short <+: rest → ∀ tail, short = '\n' :: tail → False := by
      rintro short ⟨after, rfl⟩ tail rfl
      exact lone (tail ++ after) rfl
    have unfolded : ∀ short, (∀ tail, short = '\n' :: tail → False) →
        scanLines pending ('\r' :: short) = (pending ++ ['\r']) :: scanLines [] short := by
      intro short lone
      rw [scanLines]
      exact lone
    rw [unfolded rest lone, List.cons.injEq] at scan
    obtain ⟨rfl, rfl⟩ := scan
    exact ⟨['\r'], rest, rfl, rfl, rfl, by simp, fun short cut =>
      unfolded short (alone short cut)⟩
  | case5 pending rest ih =>
    rw [scanLines, List.cons.injEq] at scan
    obtain ⟨rfl, rfl⟩ := scan
    exact ⟨['\n'], rest, rfl, rfl, rfl, by simp, fun short _ => by
      simp only [List.cons_append, List.nil_append, scanLines]⟩
  | case6 pending c rest notPair notReturn notFeed ih =>
    have passes : ∀ text, scanLines pending (c :: text) = scanLines (pending ++ [c]) text := by
      intro text
      rw [scanLines]
      · exact fun _ same _ => notReturn same
      · exact notReturn
      · exact notFeed
    rw [passes] at scan
    obtain ⟨own, tail, first⟩ := ih scan
    refine ⟨c :: own, tail, ?_, ?_, first.lines_eq, first.filled, fun short cut => ?_⟩
    · rw [first.text_eq, List.cons_append]
    · rw [first.line_eq, List.append_assoc, List.singleton_append]
    · rw [List.cons_append, passes]
      exact first.stays short cut

/-- A text of which the scan has passed something has a line. -/
theorem scanLines_ne_nil {pending text : Text} (filled : pending ++ text ≠ []) :
    scanLines pending text ≠ [] := by
  induction pending, text using scanLines.induct with
  | case1 => simp at filled
  | case2 pending some_ => simp [scanLines, some_]
  | case3 | case5 => simp [scanLines]
  | case4 pending rest lone => rw [scanLines]; exacts [List.cons_ne_nil _ _, lone]
  | case6 pending c rest notPair notReturn notFeed ih =>
    rw [scanLines]
    · exact ih (by simp)
    · exact notPair
    · exact notReturn
    · exact notFeed

theorem completeLines_eq_nil {text : Text} : completeLines text = [] ↔ text = [] := by
  refine ⟨fun none_ => ?_, fun empty => by rw [empty]; rfl⟩
  by_contra some_
  exact scanLines_ne_nil (by rwa [List.nil_append]) none_

/-- The lines of a text are its first line and the lines of what follows. -/
theorem completeLines_cons {text line : Text} {lines : List Text}
    (scan : completeLines text = line :: lines) :
    ∃ rest, text = line ++ rest ∧ lines = completeLines rest ∧ line ≠ [] ∧
      ∀ short, short <+: rest → completeLines (line ++ short) = line :: completeLines short := by
  obtain ⟨own, rest, first⟩ := scanLines_cons scan
  obtain rfl : line = own := first.line_eq
  exact ⟨rest, first.text_eq, first.lines_eq, first.filled, first.stays⟩

/-- No line is empty. -/
theorem filled_of_mem {text line : Text} (mem : line ∈ completeLines text) : line ≠ [] := by
  induction lines : completeLines text generalizing text with
  | nil => rw [lines] at mem; cases mem
  | cons first others ih =>
    obtain ⟨rest, -, rfl, filled, -⟩ := completeLines_cons lines
    rw [lines] at mem
    rcases List.mem_cons.mp mem with rfl | mem
    · exact filled
    · exact ih mem rfl

/-- A text is the concatenation of its lines. -/
theorem flatten_completeLines (text : Text) : (completeLines text).flatten = text := by
  induction lines : completeLines text generalizing text with
  | nil => rw [completeLines_eq_nil.mp lines]; rfl
  | cons line others ih =>
    obtain ⟨rest, rfl, rfl, -⟩ := completeLines_cons lines
    rw [List.flatten_cons, ih rest rfl]

/-- The text behind the first few lines has the other lines. -/
theorem completeLines_drop (text : Text) (count : Nat) :
    completeLines ((completeLines text).drop count).flatten = (completeLines text).drop count := by
  induction count generalizing text with
  | zero => rw [List.drop_zero, flatten_completeLines]
  | succ count ih =>
    cases lines : completeLines text with
    | nil => rfl
    | cons line others =>
      obtain ⟨rest, -, rfl, -⟩ := completeLines_cons lines
      rw [List.drop_succ_cons]
      exact ih rest

/-- The text of the first few lines has those lines. -/
theorem completeLines_take (text : Text) (count : Nat) :
    completeLines ((completeLines text).take count).flatten = (completeLines text).take count := by
  induction count generalizing text with
  | zero => rfl
  | succ count ih =>
    cases lines : completeLines text with
    | nil => rfl
    | cons line others =>
      obtain ⟨rest, -, rfl, -, stays⟩ := completeLines_cons lines
      have cut : ((completeLines rest).take count).flatten <+: rest := by
        refine ⟨((completeLines rest).drop count).flatten, ?_⟩
        rw [← List.flatten_append, List.take_append_drop, flatten_completeLines]
      rw [List.take_succ_cons, List.flatten_cons, stays _ cut, ih]

/-- There are no more lines than characters. -/
theorem length_completeLines_le (text : Text) : (completeLines text).length ≤ text.length := by
  have filled : ∀ line ∈ completeLines text, 1 ≤ line.length := fun line mem =>
    List.length_pos_iff.mpr (filled_of_mem mem)
  have total := congrArg List.length (flatten_completeLines text)
  rw [List.length_flatten] at total
  have count := List.length_le_sum_of_one_le ((completeLines text).map List.length)
    (by simpa using filled)
  rw [List.length_map] at count
  exact total ▸ count

/-- A character that ends no line. -/
def IsPlain (c : Char) : Prop := c ≠ '\n' ∧ c ≠ '\r'

instance (c : Char) : Decidable (IsPlain c) := inferInstanceAs (Decidable (_ ∧ _))

theorem plain_of_all {text : Text} (all : (text.all fun c => decide (IsPlain c)) = true) :
    ∀ c ∈ text, IsPlain c := fun c mem => of_decide_eq_true (List.all_eq_true.mp all c mem)

theorem scanLines_plain {pending text : Text} (plain : ∀ c ∈ text, IsPlain c)
    (filled : pending ++ text ≠ []) : scanLines pending text = [pending ++ text] := by
  induction text generalizing pending with
  | nil => simpa [scanLines] using filled
  | cons c text ih =>
    obtain ⟨notFeed, notReturn⟩ := plain c List.mem_cons_self
    rw [scanLines, ih (fun d mem => plain d (List.mem_cons_of_mem _ mem)) (by simp)]
    · rw [List.append_assoc, List.singleton_append]
    · exact fun _ same _ => notReturn same
    · exact notReturn
    · exact notFeed

/-- A text without line endings is one line, unless it is empty. -/
theorem completeLines_plain {text : Text} (plain : ∀ c ∈ text, IsPlain c) (filled : text ≠ []) :
    completeLines text = [text] :=
  scanLines_plain plain filled

/-! ## Lines that are ended by a feed -/

theorem scanLines_lone_return {pending rest : Text} (lone : ∀ tail, rest ≠ '\n' :: tail) :
    scanLines pending ('\r' :: rest) = (pending ++ ['\r']) :: scanLines [] rest := by
  rw [scanLines]
  exact lone

theorem scanLines_plain_cons {pending rest : Text} {c : Char} (plain : IsPlain c) :
    scanLines pending (c :: rest) = scanLines (pending ++ [c]) rest := by
  rw [scanLines]
  · exact fun _ same _ => plain.2 same
  · exact plain.2
  · exact plain.1

/-- A feed ends the lines before it, and the text behind it has its own. -/
theorem scanLines_append_feed (pending front rest : Text) :
    scanLines pending (front ++ '\n' :: rest) =
      scanLines pending (front ++ ['\n']) ++ scanLines [] rest := by
  induction pending, front using scanLines.induct with
  | case1 => rfl
  | case2 pending filled => rfl
  | case3 pending front ih =>
    rw [List.cons_append, List.cons_append, scanLines, List.cons_append, List.cons_append,
      scanLines, ih, List.cons_append]
  | case4 pending front lone ih =>
    cases front with
    | nil => rfl
    | cons c front =>
      have apart (tail : Text) : ∀ other, c :: front ++ '\n' :: tail ≠ '\n' :: other := by
        rintro other same
        exact lone front (by rw [(List.cons.inj same).1])
      have turn (tail : Text) : scanLines pending ('\r' :: (c :: front ++ '\n' :: tail)) =
          (pending ++ ['\r']) :: scanLines [] (c :: front ++ '\n' :: tail) :=
        scanLines_lone_return (apart tail)
      calc scanLines pending ('\r' :: (c :: front ++ '\n' :: rest))
          = (pending ++ ['\r']) :: scanLines [] (c :: front ++ '\n' :: rest) := turn rest
        _ = (pending ++ ['\r']) ::
            (scanLines [] (c :: front ++ ['\n']) ++ scanLines [] rest) := by rw [ih]
        _ = scanLines pending ('\r' :: (c :: front ++ ['\n'])) ++ scanLines [] rest :=
          (congrArg (· ++ scanLines [] rest) (turn [])).symm
  | case5 pending front ih =>
    rw [List.cons_append, scanLines, List.cons_append, scanLines, ih, List.cons_append]
  | case6 pending c front notPair notReturn notFeed ih =>
    rw [List.cons_append, scanLines_plain_cons ⟨notFeed, notReturn⟩, ih, List.cons_append,
      scanLines_plain_cons ⟨notFeed, notReturn⟩]

theorem completeLines_append_feed (front rest : Text) :
    completeLines (front ++ ['\n'] ++ rest) =
      completeLines (front ++ ['\n']) ++ completeLines rest := by
  unfold completeLines
  rw [List.append_assoc, List.singleton_append]
  exact scanLines_append_feed [] front rest

theorem completeLines_append_of_ended {front : Text} (ended : ∀ last ∈ front.getLast?, last = '\n')
    (rest : Text) : completeLines (front ++ rest) = completeLines front ++ completeLines rest := by
  obtain rfl | ⟨init, last, rfl⟩ := List.eq_nil_or_concat front
  · rfl
  obtain rfl := ended last (by simp)
  rw [List.concat_eq_append]
  exact completeLines_append_feed init rest

/-- A return ends the lines before it if no feed follows. -/
theorem scanLines_append_return (pending front : Text) {rest : Text}
    (lone : ∀ tail, rest ≠ '\n' :: tail) :
    scanLines pending (front ++ '\r' :: rest) =
      scanLines pending (front ++ ['\r']) ++ scanLines [] rest := by
  induction pending, front using scanLines.induct with
  | case1 => exact scanLines_lone_return lone
  | case2 pending filled => exact scanLines_lone_return lone
  | case3 pending front ih =>
    rw [List.cons_append, List.cons_append, scanLines, List.cons_append, List.cons_append,
      scanLines, ih, List.cons_append]
  | case4 pending front apart ih =>
    have apart' (tail : Text) : ∀ other, front ++ '\r' :: tail ≠ '\n' :: other := by
      rintro other same
      cases front with
      | nil => exact absurd (List.cons.inj same).1 (by decide)
      | cons c front => exact apart front (by rw [(List.cons.inj same).1])
    rw [List.cons_append, List.cons_append, scanLines_lone_return (apart' _),
      scanLines_lone_return (apart' _), ih, List.cons_append]
  | case5 pending front ih =>
    rw [List.cons_append, scanLines, List.cons_append, scanLines, ih, List.cons_append]
  | case6 pending c front notPair notReturn notFeed ih =>
    rw [List.cons_append, scanLines_plain_cons ⟨notFeed, notReturn⟩, ih, List.cons_append,
      scanLines_plain_cons ⟨notFeed, notReturn⟩]

/-- A feed behind an unfinished line, or behind a lone return, makes no further line. -/
theorem length_scanLines_feed {pending text : Text} (filled : pending ++ text ≠ [])
    (unended : text.getLast? ≠ some '\n') :
    (scanLines pending (text ++ ['\n'])).length = (scanLines pending text).length := by
  have tail {c : Char} {rest : Text} (unended : (c :: rest).getLast? ≠ some '\n')
      (apart : rest ≠ []) : rest.getLast? ≠ some '\n' := by
    rwa [List.getLast?_cons_of_ne_nil apart] at unended
  induction pending, text using scanLines.induct with
  | case1 => exact absurd rfl filled
  | case2 pending some_ => simp [scanLines, some_]
  | case3 pending rest ih =>
    have apart : rest ≠ [] := by
      rintro rfl
      exact unended rfl
    rw [List.cons_append, List.cons_append, scanLines, scanLines, List.length_cons,
      List.length_cons, ih apart (tail (tail unended (List.cons_ne_nil _ _)) apart)]
  | case4 pending rest lone ih =>
    cases rest with
    | nil => simp [scanLines]
    | cons c rest =>
      have other : ∀ tail, c :: rest ++ ['\n'] ≠ '\n' :: tail := fun tail same =>
        lone rest (by rw [(List.cons.inj same).1])
      have other' : ∀ tail, c :: rest ≠ '\n' :: tail := fun tail same => lone tail same
      rw [List.cons_append, scanLines_lone_return other, scanLines_lone_return other',
        List.length_cons, List.length_cons,
        ih (List.cons_ne_nil _ _) (tail unended (List.cons_ne_nil _ _))]
  | case5 pending rest ih =>
    have apart : rest ≠ [] := by
      rintro rfl
      exact unended rfl
    rw [List.cons_append, scanLines, scanLines, List.length_cons, List.length_cons,
      ih apart (tail unended apart)]
  | case6 pending c rest notPair notReturn notFeed ih =>
    rw [List.cons_append, scanLines_plain_cons ⟨notFeed, notReturn⟩,
      scanLines_plain_cons ⟨notFeed, notReturn⟩, ih (by simp)]
    obtain rfl | apart := eq_or_ne rest []
    · exact nofun
    · exact tail unended apart

theorem length_completeLines_feed {text : Text} (filled : text ≠ [])
    (unended : text.getLast? ≠ some '\n') :
    (completeLines (text ++ ['\n'])).length = (completeLines text).length :=
  length_scanLines_feed (by rwa [List.nil_append]) unended

/-- A return and a feed that become one line ending when two texts are put together. -/
def Joins (front back : Text) : Prop := front.getLast? = some '\r' ∧ back.head? = some '\n'

instance (front back : Text) : Decidable (Joins front back) := inferInstanceAs (Decidable (_ ∧ _))

/-- A text that is empty or ends with a line ending. -/
def IsEnded (text : Text) : Prop := ∀ last ∈ text.getLast?, last = '\n' ∨ last = '\r'

/-- Behind a text that is ended the lines are those of the second text, unless the two texts
join. -/
theorem completeLines_append_of_not_joins {front : Text} (ended : IsEnded front) {back : Text}
    (apart : ¬Joins front back) :
    completeLines (front ++ back) = completeLines front ++ completeLines back := by
  obtain rfl | ⟨init, last, rfl⟩ := List.eq_nil_or_concat front
  · rfl
  rw [List.concat_eq_append] at *
  obtain rfl | rfl := ended last (by simp)
  · exact completeLines_append_feed init back
  · have lone : ∀ tail, back ≠ '\n' :: tail := by
      rintro tail rfl
      exact apart ⟨by simp, rfl⟩
    rw [List.append_assoc]
    exact scanLines_append_return [] init lone

/-- Two texts that join have a line less. -/
theorem length_completeLines_of_joins {front back : Text} (joins : Joins front back) :
    (completeLines (front ++ back)).length + 1 =
      (completeLines front).length + (completeLines back).length := by
  obtain ⟨return_, feed⟩ := joins
  obtain ⟨rest, rfl⟩ := List.head?_eq_some_iff.mp feed
  have filled : front ≠ [] := by
    rintro rfl
    cases return_
  have unended : front.getLast? ≠ some '\n' := by
    rw [return_]
    decide
  have alone : completeLines ('\n' :: rest) = ['\n'] :: completeLines rest := rfl
  rw [← List.singleton_append, ← List.append_assoc, completeLines_append_feed, List.length_append,
    length_completeLines_feed filled unended, List.singleton_append, alone, List.length_cons]
  omega

/-- Two texts have at most the lines of the first and those of the second, and all of them exactly
if they do not join. -/
theorem length_completeLines_append {front : Text} (ended : IsEnded front) (back : Text) :
    (completeLines (front ++ back)).length ≤
        (completeLines front).length + (completeLines back).length ∧
      ((completeLines (front ++ back)).length =
        (completeLines front).length + (completeLines back).length → ¬Joins front back) := by
  by_cases joins : Joins front back
  · have less := length_completeLines_of_joins joins
    exact ⟨by omega, fun same => absurd same (by omega)⟩
  · rw [completeLines_append_of_not_joins ended joins, List.length_append]
    exact ⟨Nat.le_refl _, fun _ => joins⟩

/-- The lines of two texts are those of the first and those of the second exactly if they do not
join. -/
theorem completeLines_append_iff {front : Text} (ended : IsEnded front) (back : Text) :
    completeLines (front ++ back) = completeLines front ++ completeLines back ↔
      ¬Joins front back := by
  refine ⟨fun same => (length_completeLines_append ended back).2 ?_,
    completeLines_append_of_not_joins ended⟩
  rw [same, List.length_append]

/-- The same for three texts. -/
theorem completeLines_append_three_iff {front middle : Text} (ended : IsEnded front)
    (filled : middle ≠ []) (ended' : IsEnded middle) (back : Text) :
    completeLines (front ++ middle ++ back) =
        completeLines front ++ completeLines middle ++ completeLines back ↔
      ¬Joins front middle ∧ ¬Joins middle back := by
  have head : Joins front (middle ++ back) ↔ Joins front middle := by
    unfold Joins
    rw [List.head?_append_of_ne_nil _ filled]
  obtain ⟨most, apart⟩ := length_completeLines_append ended (middle ++ back)
  obtain ⟨most', apart'⟩ := length_completeLines_append ended' back
  rw [List.append_assoc, List.append_assoc]
  constructor
  · intro same
    have sum := congrArg List.length same
    rw [List.length_append, List.length_append] at sum
    exact ⟨fun joins => apart (by omega) (head.mpr joins), apart' (by omega)⟩
  · rintro ⟨first, second⟩
    rw [completeLines_append_of_not_joins ended (mt head.mp first),
      completeLines_append_of_not_joins ended' second]

/-- A line before another one is ended. -/
theorem isEnded_of_scanLines_cons {pending text line : Text} {lines : List Text}
    (scan : scanLines pending text = line :: lines) (more : lines ≠ []) : IsEnded line := by
  have ends (body : Text) {last : Char} (ending : last = '\n' ∨ last = '\r') :
      IsEnded (body ++ [last]) := by
    intro c mem
    rw [List.getLast?_concat] at mem
    exact Option.some.inj mem ▸ ending
  induction pending, text using scanLines.induct with
  | case1 => simp [scanLines] at scan
  | case2 pending filled =>
    simp only [scanLines, filled, if_false, List.cons.injEq] at scan
    exact absurd scan.2.symm more
  | case3 pending rest ih =>
    rw [scanLines, List.cons.injEq] at scan
    rw [← scan.1]
    have feed := ends (pending ++ ['\r']) (.inl rfl : '\n' = '\n' ∨ '\n' = '\r')
    rwa [List.append_assoc] at feed
  | case4 pending rest lone ih =>
    rw [scanLines_lone_return lone, List.cons.injEq] at scan
    exact scan.1 ▸ ends pending (.inr rfl)
  | case5 pending rest ih =>
    rw [scanLines, List.cons.injEq] at scan
    exact scan.1 ▸ ends pending (.inl rfl)
  | case6 pending c rest notPair notReturn notFeed ih =>
    rw [scanLines_plain_cons ⟨notFeed, notReturn⟩] at scan
    exact ih scan

/-- The lines before a further line are ended. -/
theorem isEnded_take {text : Text} {count : Nat} (more : count < (completeLines text).length) :
    IsEnded ((completeLines text).take count).flatten := by
  induction count generalizing text with
  | zero => exact nofun
  | succ count ih =>
    cases lines : completeLines text with
    | nil => exact nofun
    | cons line others =>
      obtain ⟨rest, -, rfl, -⟩ := completeLines_cons lines
      rw [lines, List.length_cons] at more
      have ended : IsEnded line := isEnded_of_scanLines_cons lines (by
        rintro none_
        rw [none_] at more
        exact absurd more (by simp))
      rw [List.take_succ_cons, List.flatten_cons]
      intro last mem
      by_cases empty : ((completeLines rest).take count).flatten = []
      · rw [empty, List.append_nil] at mem
        exact ended last mem
      · rw [List.getLast?_append_of_ne_nil _ empty] at mem
        exact ih (by omega) last mem

/-- A text that is one line when a feed is put behind it. -/
def SingleLine (line : Text) : Prop :=
  ∃ body, (∀ c ∈ body, IsPlain c) ∧ (line = body ∨ line = body ++ ['\r'])

theorem singleLine_of_plain {line : Text} (plain : ∀ c ∈ line, IsPlain c) : SingleLine line :=
  ⟨line, plain, .inl rfl⟩

theorem scanLines_append_plain {pending body : Text} (plain : ∀ c ∈ body, IsPlain c)
    (rest : Text) : scanLines pending (body ++ rest) = scanLines (pending ++ body) rest := by
  induction body generalizing pending with
  | nil => rw [List.nil_append, List.append_nil]
  | cons c body ih =>
    obtain ⟨here, later⟩ := List.forall_mem_cons.mp plain
    rw [List.cons_append, scanLines_plain_cons here, ih later, List.append_assoc,
      List.singleton_append]

theorem completeLines_singleLine {line : Text} (single : SingleLine line) :
    completeLines (line ++ ['\n']) = [line ++ ['\n']] := by
  obtain ⟨body, plain, rfl | rfl⟩ := single
  · unfold completeLines
    rw [scanLines_append_plain plain]
    rfl
  · unfold completeLines
    rw [List.append_assoc, scanLines_append_plain plain]
    simp [scanLines]

/-- A line has its ending at its end only. -/
theorem shape_of_mem_scanLines {pending text line : Text} (plain : ∀ c ∈ pending, IsPlain c)
    (mem : line ∈ scanLines pending text) :
    ∃ body ending, line = body ++ ending ∧ (∀ c ∈ body, IsPlain c) ∧
      (ending = [] ∨ ending = ['\n'] ∨ ending = ['\r'] ∨ ending = ['\r', '\n']) := by
  induction pending, text using scanLines.induct with
  | case1 => simp [scanLines] at mem
  | case2 pending some_ =>
    simp only [scanLines, some_, if_false, List.mem_singleton] at mem
    exact ⟨pending, [], by rw [mem, List.append_nil], plain, .inl rfl⟩
  | case3 pending rest ih =>
    rw [scanLines, List.mem_cons] at mem
    obtain rfl | mem := mem
    · exact ⟨pending, _, rfl, plain, .inr (.inr (.inr rfl))⟩
    · exact ih nofun mem
  | case4 pending rest lone ih =>
    rw [scanLines_lone_return lone, List.mem_cons] at mem
    obtain rfl | mem := mem
    · exact ⟨pending, _, rfl, plain, .inr (.inr (.inl rfl))⟩
    · exact ih nofun mem
  | case5 pending rest ih =>
    rw [scanLines, List.mem_cons] at mem
    obtain rfl | mem := mem
    · exact ⟨pending, _, rfl, plain, .inr (.inl rfl)⟩
    · exact ih nofun mem
  | case6 pending c rest notPair notReturn notFeed ih =>
    rw [scanLines_plain_cons ⟨notFeed, notReturn⟩] at mem
    refine ih (fun d dMem => ?_) mem
    obtain dMem | dMem := List.mem_append.mp dMem
    · exact plain d dMem
    · rw [List.mem_singleton.mp dMem]
      exact ⟨notFeed, notReturn⟩

theorem singleLine_of_length {line : Text} (one : (completeLines (line ++ ['\n'])).length = 1) :
    SingleLine line := by
  obtain ⟨only, lines⟩ := List.length_eq_one_iff.mp one
  have whole := flatten_completeLines (line ++ ['\n'])
  rw [lines, List.flatten_singleton] at whole
  have mem : only ∈ scanLines [] (line ++ ['\n']) := by
    change only ∈ completeLines (line ++ ['\n'])
    rw [lines]
    exact List.mem_singleton_self only
  have fresh : ∀ c ∈ ([] : Text), IsPlain c := fun c mem => absurd mem List.not_mem_nil
  obtain ⟨body, ending, shape, plain, ends⟩ := shape_of_mem_scanLines fresh mem
  rw [whole] at shape
  obtain rfl | rfl | rfl | rfl := ends
  · rw [List.append_nil] at shape
    exact absurd rfl (plain '\n' (by rw [← shape]; simp)).1
  · exact ⟨body, plain, .inl (List.append_cancel_right shape)⟩
  · exact absurd (List.append_inj_right' shape rfl) (by decide)
  · have joined : line ++ ['\n'] = (body ++ ['\r']) ++ ['\n'] := by
      rw [shape, List.append_assoc]
      rfl
    exact ⟨body, plain, .inr (List.append_cancel_right joined)⟩

theorem completeLines_feeds (count : Nat) :
    completeLines (List.replicate count '\n') = List.replicate count ['\n'] := by
  induction count with
  | zero => rfl
  | succ count ih =>
    rw [List.replicate_succ, List.replicate_succ, ← ih]
    rfl

end Foco.TextLines
