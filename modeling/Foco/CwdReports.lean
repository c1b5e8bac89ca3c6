import Foco.CwdTracking
import Foco.Runs

/-!
Which directory the tracker has reported last, when the output came in any pieces: that of the last
OSC 7 sequence with a valid value, unless a piece hides it from the search or a cut of the buffer
brings to light a sequence that was inside another one.
-/
namespace Foco.CwdTracking
open Foco.RustText Foco.FirstOccurrence Foco.Runs

/-! ## Sequences of a text -/

/-- A complete OSC 7 sequence: where it starts, and its value. -/
structure OscSequence where
  start : Nat
  value : Text

/-- Where the terminator of a sequence is. -/
def OscSequence.stop (sequence : OscSequence) : Nat :=
  sequence.start + osc7Prefix.length + sequence.value.length

/-- The sequences of a text that stands at a position. -/
def sequencesFrom (position : Nat) (input : Text) : List OscSequence :=
  match found : splitOnce osc7Prefix input with
  | none => []
  | some (before, rest) =>
    match valueEnd rest with
    | none => []
    | some stop =>
      ⟨position + before.length, rest.take stop⟩ ::
        sequencesFrom (position + before.length + osc7Prefix.length + stop) (rest.drop stop)
termination_by input.length
decreasing_by
  have shorter := length_of_splitOnce (by decide) found
  rw [List.length_drop]
  omega

def sequences (input : Text) : List OscSequence := sequencesFrom 0 input

def values (input : Text) : List Text := (sequences input).map OscSequence.value

/-- The directory in the last sequence whose value is valid. -/
def lastValid (values : List Text) : Option Text := (values.filterMap percentDecode).getLast?

/-! ## Terminators -/

def terminates (rest : Text) : Bool := [oscBel] <+: rest ∨ oscSt <+: rest

/-- A value up to the first terminator. -/
structure Closed (value after : Text) : Prop where
  terminated : terminates after = true
  first : Misses terminates value after

theorem find_cons {marker rest : Text} {c : Char} :
    find marker (c :: rest) =
      if marker <+: c :: rest then some 0 else (find marker rest).map (· + 1) := by
  unfold find
  split
  · rename_i starts
    rw [splitWhere_of_test (decide_eq_true starts)]
    rfl
  · rename_i apart
    rw [splitWhere_cons_of_not (decide_eq_false apart), Option.map_map, Option.map_map]
    rfl

theorem earlier_zero_left (st : Option Nat) : earlier (some 0) st = some 0 := by
  cases st <;> simp [earlier]

theorem earlier_zero_right (bel : Option Nat) : earlier bel (some 0) = some 0 := by
  cases bel <;> simp [earlier]

theorem earlier_succ (bel st : Option Nat) :
    earlier (bel.map (· + 1)) (st.map (· + 1)) = (earlier bel st).map (· + 1) := by
  cases bel <;> cases st <;> simp [earlier]

theorem valueEnd_eq (rest : Text) :
    valueEnd rest = (splitWhere terminates rest).map fun found => found.1.length := by
  induction rest with
  | nil => decide
  | cons c rest ih =>
    unfold valueEnd
    rw [find_cons, find_cons]
    by_cases here : terminates (c :: rest) = true
    · rw [splitWhere_of_test here]
      obtain bel | st := of_decide_eq_true here
      · rw [if_pos bel, earlier_zero_left]
        rfl
      · rw [if_pos st, earlier_zero_right]
        rfl
    · obtain ⟨noBel, noSt⟩ := not_or.mp (of_decide_eq_false (Bool.eq_false_iff.mpr here))
      rw [splitWhere_cons_of_not (Bool.eq_false_iff.mpr here), if_neg noBel, if_neg noSt,
        earlier_succ, Option.map_map]
      unfold valueEnd at ih
      rw [ih, Option.map_map]
      rfl

theorem valueEnd_eq_none_iff {rest : Text} :
    valueEnd rest = none ↔ ∀ after, after <:+ rest → terminates after = false := by
  rw [valueEnd_eq, Option.map_eq_none_iff, splitWhere_eq_none_iff]

theorem valueEnd_of_closed {value after : Text} (closed : Closed value after) :
    valueEnd (value ++ after) = some value.length := by
  rw [valueEnd_eq, splitWhere_eq_some_iff.mpr ⟨rfl, closed.terminated, closed.first⟩]
  rfl

theorem closed_of_valueEnd {rest : Text} {stop : Nat} (ends : valueEnd rest = some stop) :
    ∃ value after, rest = value ++ after ∧ stop = value.length ∧ Closed value after := by
  rw [valueEnd_eq] at ends
  obtain ⟨⟨value, after⟩, found, same⟩ := Option.map_eq_some_iff.mp ends
  obtain ⟨split, terminated, first⟩ := splitWhere_eq_some_iff.mp found
  exact ⟨value, after, split, same.symm, terminated, first⟩

/-- Two characters tell a terminator. -/
theorem terminates_append {rest : Text} (long : 2 ≤ rest.length) (more : Text) :
    terminates (rest ++ more) = terminates rest := by
  obtain ⟨first, rest, rfl⟩ := List.exists_cons_of_length_pos (Nat.zero_lt_of_lt long)
  obtain ⟨second, rest, rfl⟩ := List.exists_cons_of_length_pos (Nat.lt_of_succ_lt_succ long)
  simp [terminates, oscSt]

theorem terminates_append_of_terminates {rest : Text} (here : terminates rest = true)
    (more : Text) : terminates (rest ++ more) = true := by
  refine decide_eq_true ?_
  exact (of_decide_eq_true here).imp (fun starts => starts.trans (List.prefix_append _ _))
    fun starts => starts.trans (List.prefix_append _ _)

theorem terminates_nil : terminates [] = false := by decide

theorem Closed.append {value after : Text} (closed : Closed value after) (more : Text) :
    Closed value (after ++ more) where
  terminated := terminates_append_of_terminates closed.terminated more
  first front back same filled := by
    have some : after ≠ [] := by
      rintro rfl
      exact absurd closed.terminated (by rw [terminates_nil]; decide)
    have long : 2 ≤ (back ++ after).length := by
      have backLong := List.length_pos_of_ne_nil filled
      have afterLong := List.length_pos_of_ne_nil some
      rw [List.length_append]
      omega
    rw [← List.append_assoc, terminates_append long]
    exact closed.first front back same filled

/-! ## Scanning -/

theorem sequencesFrom_absent {input : Text} (absent : ¬osc7Prefix <:+: input) (position : Nat) :
    sequencesFrom position input = [] := by
  rw [sequencesFrom]
  split
  · rfl
  · rename_i before rest found
    rw [splitOnce_eq_none_iff.mpr absent] at found
    contradiction

theorem sequencesFrom_open {before rest : Text}
    (first : NotBefore osc7Prefix before (osc7Prefix ++ rest))
    (unended : ∀ after, after <:+ rest → terminates after = false) (position : Nat) :
    sequencesFrom position (before ++ (osc7Prefix ++ rest)) = [] := by
  have here := splitOnce_eq_some_iff.mpr ⟨rfl, first⟩
  rw [sequencesFrom]
  split
  · rfl
  · rename_i before' rest' found
    obtain ⟨rfl, rfl⟩ := Prod.mk.inj (Option.some.inj (here.symm.trans found))
    rw [valueEnd_eq_none_iff.mpr unended]

theorem sequencesFrom_closed {before value after : Text}
    (first : NotBefore osc7Prefix before (osc7Prefix ++ (value ++ after)))
    (closed : Closed value after) (position : Nat) :
    sequencesFrom position (before ++ (osc7Prefix ++ (value ++ after))) =
      ⟨position + before.length, value⟩ ::
        sequencesFrom (position + before.length + osc7Prefix.length + value.length) after := by
  have here := splitOnce_eq_some_iff.mpr ⟨rfl, first⟩
  conv_lhs => rw [sequencesFrom]
  split
  · rename_i found
    rw [here] at found
    contradiction
  · rename_i before' rest' found
    obtain ⟨rfl, rfl⟩ := Prod.mk.inj (Option.some.inj (here.symm.trans found))
    rw [valueEnd_of_closed closed]
    dsimp only
    rw [List.take_left, List.drop_left]

/-- No prefix, a prefix without a terminator behind it, or a complete sequence. -/
inductive Scan : Text → Prop
  | absent {input : Text} (absent : ¬osc7Prefix <:+: input) : Scan input
  | unended {before rest : Text} (first : NotBefore osc7Prefix before (osc7Prefix ++ rest))
      (unended : ∀ after, after <:+ rest → terminates after = false) :
      Scan (before ++ (osc7Prefix ++ rest))
  | closed {before value after : Text}
      (first : NotBefore osc7Prefix before (osc7Prefix ++ (value ++ after)))
      (closed : Closed value after) : Scan (before ++ (osc7Prefix ++ (value ++ after)))

theorem scan (input : Text) : Scan input := by
  cases found : splitOnce osc7Prefix input with
  | none => exact .absent (splitOnce_eq_none_iff.mp found)
  | some split =>
    obtain ⟨before, rest⟩ := split
    obtain ⟨rfl, first⟩ := splitOnce_eq_some_iff.mp found
    cases ends : valueEnd rest with
    | none => exact .unended first (valueEnd_eq_none_iff.mp ends)
    | some stop =>
      obtain ⟨value, after, rfl, _, closed⟩ := closed_of_valueEnd ends
      exact .closed first closed

/-- The values do not depend on where the text stands. -/
theorem map_value_sequencesFrom (position position' : Nat) (input : Text) :
    (sequencesFrom position input).map OscSequence.value =
      (sequencesFrom position' input).map OscSequence.value := by
  induction size : input.length using Nat.strong_induction_on generalizing input position position'
  rename_i size ih
  obtain absent | ⟨first, unended⟩ | ⟨first, closed⟩ := scan input
  · rw [sequencesFrom_absent absent, sequencesFrom_absent absent]
  · rw [sequencesFrom_open first unended, sequencesFrom_open first unended]
  · rw [sequencesFrom_closed first closed, sequencesFrom_closed first closed, List.map_cons,
      List.map_cons]
    refine congrArg _ (ih _ ?_ _ _ _ rfl)
    rw [← size]
    simp only [List.length_append]
    have long : 0 < osc7Prefix.length := by decide
    omega

theorem map_value_eq_values (position : Nat) (input : Text) :
    (sequencesFrom position input).map OscSequence.value = values input :=
  map_value_sequencesFrom position 0 input

theorem values_absent {input : Text} (absent : ¬osc7Prefix <:+: input) : values input = [] :=
  congrArg (List.map OscSequence.value) (sequencesFrom_absent absent 0)

theorem values_open {before rest : Text}
    (first : NotBefore osc7Prefix before (osc7Prefix ++ rest))
    (unended : ∀ after, after <:+ rest → terminates after = false) :
    values (before ++ (osc7Prefix ++ rest)) = [] :=
  congrArg (List.map OscSequence.value) (sequencesFrom_open first unended 0)

theorem values_closed {before value after : Text}
    (first : NotBefore osc7Prefix before (osc7Prefix ++ (value ++ after)))
    (closed : Closed value after) :
    values (before ++ (osc7Prefix ++ (value ++ after))) = value :: values after := by
  unfold values sequences
  rw [sequencesFrom_closed first closed, List.map_cons, map_value_eq_values, values, sequences]

theorem start_ge {position : Nat} {input : Text} :
    ∀ sequence ∈ sequencesFrom position input, position ≤ sequence.start := by
  induction size : input.length using Nat.strong_induction_on generalizing input position
  rename_i size ih
  obtain absent | ⟨first, unended⟩ | ⟨first, closed⟩ := scan input
  · rw [sequencesFrom_absent absent]
    exact nofun
  · rw [sequencesFrom_open first unended]
    exact nofun
  · rw [sequencesFrom_closed first closed]
    refine List.forall_mem_cons.mpr ⟨Nat.le_add_right _ _, fun sequence mem => ?_⟩
    have later := ih _ (by
      rw [← size]
      simp only [List.length_append]
      have long : 0 < osc7Prefix.length := by decide
      omega) rfl sequence mem
    omega

/-- What the loop finds is in the last sequence. -/
theorem extractFrom_eq (latest : Option Text) (input : Text) :
    extractFrom latest input = ((values input).getLast?.map percentDecode).getD latest := by
  induction size : input.length using Nat.strong_induction_on generalizing input latest
  rename_i size ih
  rw [extractFrom]
  obtain absent | ⟨first, unended⟩ | @⟨before, value, after, first, closed⟩ := scan input
  · rw [values_absent absent]
    split
    · rfl
    · rename_i found
      rw [splitOnce_eq_none_iff.mpr absent] at found
      contradiction
  · rw [values_open first unended]
    split
    · rfl
    · rename_i found
      obtain ⟨rfl, rfl⟩ := Prod.mk.inj (Option.some.inj
        ((splitOnce_eq_some_iff.mpr ⟨rfl, first⟩).symm.trans found))
      rw [valueEnd_eq_none_iff.mpr unended]
      rfl
  · rw [values_closed first closed]
    split
    · rename_i found
      rw [splitOnce_eq_some_iff.mpr ⟨rfl, first⟩] at found
      contradiction
    · rename_i found
      obtain ⟨rfl, rfl⟩ := Prod.mk.inj (Option.some.inj
        ((splitOnce_eq_some_iff.mpr ⟨rfl, first⟩).symm.trans found))
      rw [valueEnd_of_closed closed]
      dsimp only
      rw [List.take_left, List.drop_left, ih _ ?_ _ _ rfl]
      · cases values after with
        | nil => rfl
        | cons other others => simp [List.getLast?_cons]
      · rw [← size]
        simp only [List.length_append]
        have long : 0 < osc7Prefix.length := by decide
        omega

theorem extractLatestCwd_eq (input : Text) :
    extractLatestCwd input = (values input).getLast?.bind percentDecode := by
  unfold extractLatestCwd
  rw [extractFrom_eq]
  cases (values input).getLast? <;> rfl

/-! ## Cutting the buffer -/

/-- Output without the start of a sequence only moves the others. -/
theorem sequencesFrom_skip {before input : Text} (misses : NotBefore osc7Prefix before input)
    (position : Nat) :
    sequencesFrom position (before ++ input) = sequencesFrom (position + before.length) input := by
  obtain absent | ⟨first, unended⟩ | ⟨first, closed⟩ := scan input
  · rw [sequencesFrom_absent absent]
    refine sequencesFrom_absent (fun occurs => ?_) position
    rw [← splitOnce_eq_none_iff] at absent
    refine splitOnce_eq_none_iff.mp ?_ occurs
    rw [splitOnce_append_of_notBefore misses, absent]
    rfl
  · rw [sequencesFrom_open first unended, ← List.append_assoc]
    exact sequencesFrom_open (misses_append.mpr ⟨misses, first⟩) unended position
  · rw [sequencesFrom_closed first closed, ← List.append_assoc,
      sequencesFrom_closed (misses_append.mpr ⟨misses, first⟩) closed, List.length_append,
      ← Nat.add_assoc]

theorem values_skip {before input : Text} (misses : NotBefore osc7Prefix before input) :
    values (before ++ input) = values input := by
  unfold values sequences
  rw [sequencesFrom_skip misses]
  exact map_value_eq_values _ _

/-- A prefix does not reach over the start of a terminator. -/
theorem notBefore_terminated {before after : Text} (absent : ¬osc7Prefix <:+: before)
    (terminated : terminates after = true) : NotBefore osc7Prefix before after := by
  rintro front back rfl filled
  refine decide_eq_false fun ⟨rest, starts⟩ => ?_
  obtain ⟨inner, same, _⟩ | ⟨reached, same, split⟩ := List.append_eq_append_iff.mp starts
  · exact absent ⟨front, inner, by rw [List.append_assoc, ← same]⟩
  cases reached with
  | nil => exact absent ⟨front, [], by rw [same, List.append_nil, List.append_nil]⟩
  | cons c reached =>
    obtain ⟨first, back, rfl⟩ := List.exists_cons_of_ne_nil filled
    have inside : c ∈ osc7Prefix.tail := by
      rw [same]
      exact List.mem_append_right _ List.mem_cons_self
    have plain : ∀ c ∈ osc7Prefix.tail, c ≠ oscBel ∧ c ≠ '\x1b' := by decide
    rw [split] at terminated
    obtain bel | st := of_decide_eq_true terminated
    · exact (plain c inside).1 (List.cons_prefix_cons.mp bel).1.symm
    · exact (plain c inside).2 (List.cons_prefix_cons.mp st).1.symm

/-- Every sequence is shorter than what is kept of the buffer. -/
def Short (input : Text) : Prop := ∀ value ∈ values input, osc7Prefix.length + value.length < 4096

/-- The sequences that start before a place. -/
def valuesBefore (place : Nat) (sequences : List OscSequence) : List Text :=
  (sequences.filter fun sequence => sequence.start < place).map OscSequence.value

theorem valuesBefore_cons_of_lt {place : Nat} {sequence : OscSequence}
    (before : sequence.start < place) (sequences : List OscSequence) :
    valuesBefore place (sequence :: sequences) = sequence.value :: valuesBefore place sequences := by
  unfold valuesBefore
  rw [List.filter_cons, if_pos (decide_eq_true before), List.map_cons]

theorem valuesBefore_of_ge {place : Nat} {sequences : List OscSequence}
    (behind : ∀ sequence ∈ sequences, place ≤ sequence.start) :
    valuesBefore place sequences = [] := by
  unfold valuesBefore
  rw [List.filter_eq_nil_iff.mpr, List.map_nil]
  exact fun sequence mem before => absurd (of_decide_eq_true before) (by
    have := behind sequence mem
    omega)

/-- A cut inside a sequence leaves no prefix of another one behind it. -/
def CutsWhole (place : Nat) (sequences : List OscSequence) : Prop :=
  ∀ sequence ∈ sequences, sequence.start < place → place < sequence.stop →
    ¬osc7Prefix <:+: (osc7Prefix ++ sequence.value).drop (place - sequence.start)

/-- A terminator behind an open sequence is not in front of its last character. -/
theorem unended_length_le {rest more value after : Text}
    (unended : ∀ after, after <:+ rest → terminates after = false)
    (same : value ++ after = rest ++ more) (closed : Closed value after) :
    rest.length ≤ value.length + 1 := by
  by_contra shorter
  obtain ⟨inner, rfl, rfl⟩ | ⟨inner, rfl, _⟩ := List.append_eq_append_iff.mp same
  · rw [List.length_append] at shorter
    have here := closed.terminated
    rw [terminates_append (by omega), unended inner (List.suffix_append _ _)] at here
    contradiction
  · rw [List.length_append] at shorter
    omega

/-- An open sequence from before a cut does not end, as it would be too long. -/
theorem values_unended {before rest front kept : Text}
    (unended : ∀ after, after <:+ rest → terminates after = false)
    (same : before ++ (osc7Prefix ++ rest) = front ++ kept) (inside : before.length < front.length)
    (long : 4096 ≤ kept.length) (first : NotBefore osc7Prefix before (osc7Prefix ++ rest))
    (more : Text) (short : Short (front ++ (kept ++ more))) :
    values (front ++ (kept ++ more)) = [] ∧ values (kept ++ more) = [] := by
  have whole : front ++ (kept ++ more) = before ++ (osc7Prefix ++ (rest ++ more)) := by
    rw [← List.append_assoc, ← same]
    simp
  have total := congrArg List.length same
  simp only [List.length_append] at total
  have first' : NotBefore osc7Prefix before (osc7Prefix ++ (rest ++ more)) := by
    rw [← List.append_assoc]
    exact notBefore_append first (by rw [List.length_append]; omega) more
  have never : ∀ after, after <:+ rest ++ more → terminates after = false := by
    rw [← valueEnd_eq_none_iff]
    by_contra ends
    obtain ⟨stop, ends⟩ := Option.ne_none_iff_exists'.mp ends
    obtain ⟨value, after, split, _, closed⟩ := closed_of_valueEnd ends
    have bound := unended_length_le unended split.symm closed
    rw [whole, split] at short
    rw [split] at first'
    have small := short value (by rw [values_closed first' closed]; exact List.mem_cons_self)
    omega
  refine ⟨by rw [whole]; exact values_open first' never, ?_⟩
  obtain ⟨input, input_eq⟩ : ∃ input, input = kept ++ more := ⟨_, rfl⟩
  rw [← input_eq]
  obtain absent | ⟨first, unended⟩ | @⟨before', value, after, first, closed⟩ := scan input
  · exact values_absent absent
  · exact values_open first unended
  · have within : after <:+ rest ++ more := by
      have outer : after <:+ front ++ (kept ++ more) := by
        rw [← input_eq]
        exact ⟨front ++ (before' ++ (osc7Prefix ++ value)), by simp⟩
      rw [whole, ← List.append_assoc] at outer
      refine List.suffix_of_suffix_length_le outer (List.suffix_append _ _) ?_
      have lengths := congrArg List.length input_eq
      simp only [List.length_append] at lengths ⊢
      omega
    exact absurd closed.terminated (by rw [never after within]; decide)

theorem values_cut {front kept : Text} (position : Nat) (long : front = [] ∨ 4096 ≤ kept.length)
    (whole : CutsWhole (position + front.length) (sequencesFrom position (front ++ kept)))
    (more : Text) (short : Short (front ++ (kept ++ more))) :
    values (front ++ (kept ++ more)) =
      valuesBefore (position + front.length) (sequencesFrom position (front ++ kept)) ++
        values (kept ++ more) := by
  induction size : front.length using Nat.strong_induction_on generalizing front position
  rename_i size ih
  subst size
  by_cases skip : NotBefore osc7Prefix front kept
  · rw [sequencesFrom_skip skip, valuesBefore_of_ge start_ge, List.nil_append]
    obtain rfl | long := long
    · rfl
    · have reached : osc7Prefix.length ≤ kept.length + 1 := by
        have width : osc7Prefix.length = 16 := by decide
        omega
      exact values_skip (notBefore_append skip reached more)
  obtain rfl | long := long
  · exact absurd misses_nil skip
  obtain ⟨input, same⟩ : ∃ input, input = front ++ kept := ⟨_, rfl⟩
  rw [← same] at whole
  obtain absent | ⟨first, unended⟩ | @⟨before, value, after, first, closed⟩ := scan input
  · exact absurd (notBefore_of_absent (same ▸ absent)) skip
  · rename_i before rest
    obtain ⟨inner, rfl, kept_eq⟩ | ⟨inner, rfl, rfl⟩ := List.append_eq_append_iff.mp same
    · have filled : inner ≠ [] := by
        rintro rfl
        rw [List.append_nil] at skip
        rw [List.nil_append] at kept_eq
        exact skip (kept_eq ▸ first)
      have inside : before.length < (before ++ inner).length := by
        have := List.length_pos_of_ne_nil filled
        rw [List.length_append]
        omega
      obtain ⟨wholeEmpty, keptEmpty⟩ := values_unended unended same inside long first more short
      rw [wholeEmpty, keptEmpty, ← same, sequencesFrom_open first unended]
      rfl
    · exact absurd (misses_append.mp first).1 skip
  · obtain ⟨inner, rfl, kept_eq⟩ | ⟨inner, rfl, rfl⟩ := List.append_eq_append_iff.mp same
    · have filled : inner ≠ [] := by
        rintro rfl
        rw [List.append_nil] at skip
        rw [List.nil_append] at kept_eq
        exact skip (kept_eq ▸ first)
      have split : before ++ inner ++ (kept ++ more) =
          before ++ (osc7Prefix ++ (value ++ (after ++ more))) := by
        rw [← List.append_assoc (before ++ inner), ← same]
        simp
      have first' : NotBefore osc7Prefix before (osc7Prefix ++ (value ++ (after ++ more))) := by
        rw [← List.append_assoc value, ← List.append_assoc osc7Prefix]
        exact notBefore_append first (by rw [List.length_append]; omega) more
      have innerLong := List.length_pos_of_ne_nil filled
      have values_eq : values (before ++ inner ++ (kept ++ more)) =
          value :: values (after ++ more) := by
        rw [split]
        exact values_closed first' (closed.append more)
      rw [sequencesFrom_closed first closed] at whole
      have before_lt : position + before.length < position + (before ++ inner).length := by
        rw [List.length_append]
        omega
      rw [values_eq, ← same, sequencesFrom_closed first closed,
        valuesBefore_cons_of_lt before_lt, List.cons_append]
      refine congrArg _ ?_
      rw [← List.append_assoc] at kept_eq
      obtain ⟨inner', rfl, rfl⟩ | ⟨inner', value_eq, rfl⟩ := List.append_eq_append_iff.mp kept_eq
      · have place : position + (before ++ (osc7Prefix ++ value ++ inner')).length =
            position + before.length + osc7Prefix.length + value.length + inner'.length := by
          simp only [List.length_append]
          omega
        rw [place] at whole ⊢
        rw [List.append_assoc inner']
        refine ih inner'.length ?_ _ (.inr long)
          (fun sequence mem => whole sequence (List.mem_cons_of_mem _ mem)) (fun other mem => ?_) rfl
        · have width : 0 < osc7Prefix.length := by decide
          simp only [List.length_append]
          omega
        · refine short other ?_
          rw [values_eq, List.append_assoc inner']
          exact List.mem_cons_of_mem _ mem
      · rw [valuesBefore_of_ge fun sequence mem => ?_, List.nil_append, List.append_assoc]
        · refine (values_skip (notBefore_terminated ?_
            (closed.append more).terminated)).symm
          have lengths := congrArg List.length value_eq
          simp only [List.length_append] at lengths
          obtain rfl | filled' := eq_or_ne inner' []
          · exact fun occurs => absurd (List.infix_nil.mp occurs) (by decide)
          have innerLong' := List.length_pos_of_ne_nil filled'
          have kept := whole _ List.mem_cons_self before_lt (by
            unfold OscSequence.stop
            simp only [List.length_append]
            omega)
          have offset : position + (before ++ inner).length - (position + before.length) =
              inner.length := by
            rw [List.length_append]
            omega
          rw [offset, value_eq, List.drop_left] at kept
          exact kept
        · have bound := start_ge sequence mem
          have lengths := congrArg List.length value_eq
          simp only [List.length_append] at lengths ⊢
          omega
    · exact absurd (misses_append.mp first).1 skip

/-- What comes later leaves the complete sequences as they are. -/
theorem values_starts (input more : Text) : values input <+: values (input ++ more) := by
  induction size : input.length using Nat.strong_induction_on generalizing input
  rename_i size ih
  obtain absent | ⟨first, unended⟩ | @⟨before, value, after, first, closed⟩ := scan input
  · rw [values_absent absent]
    exact List.nil_prefix
  · rw [values_open first unended]
    exact List.nil_prefix
  · have first' : NotBefore osc7Prefix before (osc7Prefix ++ (value ++ (after ++ more))) := by
      rw [← List.append_assoc value, ← List.append_assoc osc7Prefix]
      exact notBefore_append first (by rw [List.length_append]; omega) more
    have split : before ++ (osc7Prefix ++ (value ++ after)) ++ more =
        before ++ (osc7Prefix ++ (value ++ (after ++ more))) := by simp
    rw [values_closed first closed, split, values_closed first' (closed.append more)]
    refine List.cons_prefix_cons.mpr ⟨rfl, ih after.length ?_ after rfl⟩
    have width : 0 < osc7Prefix.length := by decide
    rw [← size]
    simp only [List.length_append]
    omega

/-! ## Runs -/

/-- Where the kept part of a buffer starts. -/
def cutAt (buffer : Text) : Nat := buffer.length - (keptBuffer buffer).length

theorem keptBuffer_split (buffer : Text) :
    ∃ front, buffer = front ++ keptBuffer buffer ∧ front.length = cutAt buffer ∧
      (front = [] ∨ 4096 ≤ (keptBuffer buffer).length) := by
  have split : ∃ front, buffer = front ++ keptBuffer buffer ∧
      (front = [] ∨ 4096 ≤ (keptBuffer buffer).length) := by
    unfold keptBuffer
    split
    · rw [List.take_reverse, List.reverse_reverse]
      refine ⟨buffer.take (buffer.length - 4096), (List.take_append_drop _ _).symm, ?_⟩
      rw [List.length_drop]
      obtain small | large := Nat.le_total buffer.length 4096
      · exact .inl (by rw [Nat.sub_eq_zero_of_le small, List.take_zero])
      · exact .inr (by omega)
    · exact ⟨[], rfl, .inl rfl⟩
  obtain ⟨front, whole, long⟩ := split
  refine ⟨front, whole, ?_, long⟩
  have lengths := congrArg List.length whole
  rw [List.length_append] at lengths
  unfold cutAt
  omega

/-- The values of the sequences that a piece of output completes. -/
def completed (tracker : CwdTracker) (data : Text) : List Text :=
  (values (tracker.buffer ++ data)).drop (values tracker.buffer).length

/-- A piece of output neither hides the directory it reports nor brings to light another one: the
buffer is not cut inside a sequence that has the prefix behind the cut, and the last sequence is
valid and kept if the piece completes one with a valid value that is new. -/
structure Settles (tracker : CwdTracker) (data : Text) : Prop where
  whole : CutsWhole (cutAt (tracker.buffer ++ data)) (sequences (tracker.buffer ++ data))
  newest : ∀ cwd, lastValid (completed tracker data) = some cwd → tracker.lastCwd = some cwd ∨
    ∃ sequence, (sequences (tracker.buffer ++ data)).getLast? = some sequence ∧
      cutAt (tracker.buffer ++ data) ≤ sequence.start ∧
      (percentDecode sequence.value).isSome = true

/-- A tracker, the output it was given and the directory it has reported last. -/
structure Tracked where
  tracker : CwdTracker
  output : Text
  reported : Option Text

def trackerMachine : Machine Tracked Text where
  start := ⟨⟨[], none⟩, [], none⟩
  step state data :=
    some ⟨(state.tracker.observe data).1, state.output ++ data,
      (state.tracker.observe data).2.or state.reported⟩

/-- The buffer has what later sequences need, and the last report is right. -/
structure Follows (state : Tracked) : Prop where
  buffered : ∃ earlier, ∀ more, Short (state.output ++ more) →
    values (state.output ++ more) = earlier ++ values (state.tracker.buffer ++ more)
  tracked : state.tracker.lastCwd = state.reported
  correct : Short state.output → state.reported = lastValid (values state.output)

theorem lastValid_append (front back : List Text) :
    lastValid (front ++ back) = (lastValid back).or (lastValid front) := by
  unfold lastValid
  rw [List.filterMap_append, List.getLast?_append]

theorem lastValid_of_getLast {values : List Text} {value cwd : Text}
    (last : values.getLast? = some value) (valid : percentDecode value = some cwd) :
    lastValid values = some cwd := by
  obtain ⟨front, rfl⟩ := List.getLast?_eq_some_iff.mp last
  rw [lastValid_append]
  simp [lastValid, valid]

theorem getLast_kept {place : Nat} {sequences : List OscSequence} {kept : List Text}
    {sequence : OscSequence} (last : sequences.getLast? = some sequence)
    (behind : place ≤ sequence.start)
    (split : sequences.map OscSequence.value = valuesBefore place sequences ++ kept) :
    kept.getLast? = some sequence.value := by
  have lastValue : (sequences.map OscSequence.value).getLast? = some sequence.value := by
    rw [List.getLast?_map, last]
    rfl
  rw [split, List.getLast?_append] at lastValue
  cases shape : kept.getLast? with
  | some value =>
    rw [shape] at lastValue
    exact lastValue
  | none =>
    obtain rfl := List.getLast?_eq_none_iff.mp shape
    have lengths := congrArg List.length split
    rw [List.append_nil, valuesBefore, List.length_map, List.length_map] at lengths
    have all := List.length_filter_eq_length_iff.mp lengths.symm sequence (List.mem_of_getLast? last)
    have := of_decide_eq_true all
    omega

section Step

variable {state : Tracked} {data : Text}

theorem Short.of_append {front back : Text} (short : Short (front ++ back)) : Short front :=
  fun value mem => short value ((values_starts front back).subset mem)

/-- What the kept buffer still has of the whole output. -/
theorem Follows.values_kept (follows : Follows state)
    (whole : CutsWhole (cutAt (state.tracker.buffer ++ data))
      (sequences (state.tracker.buffer ++ data))) :
    ∃ earlier, ∀ more, Short (state.output ++ data ++ more) →
      values (state.output ++ data ++ more) =
        earlier ++ values (state.tracker.buffer ++ data ++ more) ∧
      values (state.tracker.buffer ++ data ++ more) =
        valuesBefore (cutAt (state.tracker.buffer ++ data))
          (sequences (state.tracker.buffer ++ data)) ++
            values (keptBuffer (state.tracker.buffer ++ data) ++ more) := by
  obtain ⟨earlier, buffered⟩ := follows.buffered
  refine ⟨earlier, fun more short => ?_⟩
  obtain ⟨front, split, place, long⟩ := keptBuffer_split (state.tracker.buffer ++ data)
  have later := buffered (data ++ more) (by rwa [← List.append_assoc])
  refine ⟨by rw [List.append_assoc, later, List.append_assoc], ?_⟩
  have shortBuffer : Short (front ++ (keptBuffer (state.tracker.buffer ++ data) ++ more)) := by
    rw [← List.append_assoc, ← split, List.append_assoc]
    intro value mem
    refine short value ?_
    rw [List.append_assoc, later]
    exact List.mem_append_right _ mem
  unfold sequences at whole ⊢
  rw [← place, ← Nat.zero_add front.length] at whole ⊢
  rw [split] at whole
  have cut := values_cut 0 long whole more shortBuffer
  rwa [← split, ← List.append_assoc, ← split] at cut

theorem lastValid_completed (follows : Follows state) (short : Short (state.output ++ data)) :
    lastValid (values (state.output ++ data)) =
      (lastValid (completed state.tracker data)).or state.reported := by
  obtain ⟨earlier, buffered⟩ := follows.buffered
  have before := buffered [] (by rw [List.append_nil]; exact short.of_append)
  rw [List.append_nil, List.append_nil] at before
  obtain ⟨new, whole⟩ := values_starts state.tracker.buffer data
  have new_eq : completed state.tracker data = new := by
    unfold completed
    rw [← whole, List.drop_left]
  rw [follows.correct short.of_append, buffered data short, new_eq, ← whole, ← List.append_assoc,
    ← before, lastValid_append]

theorem observe_eq (tracker : CwdTracker) (data : Text) :
    ((tracker.observe data).1.buffer = keptBuffer (tracker.buffer ++ data)) ∧
      (tracker.observe data).1.lastCwd =
        (extractLatestCwd (keptBuffer (tracker.buffer ++ data))).or tracker.lastCwd ∧
      (tracker.observe data).2.or tracker.lastCwd = (tracker.observe data).1.lastCwd := by
  unfold CwdTracker.observe
  dsimp only
  split
  · rename_i none
    rw [none]
    exact ⟨rfl, rfl, rfl⟩
  · rename_i cwd found
    rw [found]
    split
    · rename_i same
      exact ⟨rfl, same, rfl⟩
    · exact ⟨rfl, rfl, rfl⟩

theorem follows_step (follows : Follows state) (settles : Settles state.tracker data)
    {state' : Tracked} (stepped : trackerMachine.step state data = some state') :
    Follows state' := by
  obtain rfl : Tracked.mk _ _ _ = state' := Option.some.inj stepped
  obtain ⟨buffer, lastCwd, report⟩ := observe_eq state.tracker data
  obtain ⟨earlier, kept⟩ := follows.values_kept settles.whole
  refine ⟨⟨earlier ++ valuesBefore (cutAt (state.tracker.buffer ++ data))
    (sequences (state.tracker.buffer ++ data)), fun more short => ?_⟩, ?_, fun short => ?_⟩
  · obtain ⟨whole, buffered⟩ := kept more short
    rw [whole, buffered, buffer, List.append_assoc]
  · change _ = Option.or _ _
    rw [← follows.tracked, report]
  change Option.or _ _ = _
  rw [← follows.tracked, report, lastCwd, extractLatestCwd_eq]
  obtain ⟨whole, buffered⟩ := kept [] (by rwa [List.append_nil])
  rw [List.append_nil, List.append_nil] at whole buffered
  cases found : (values (keptBuffer (state.tracker.buffer ++ data))).getLast?.bind percentDecode with
  | some cwd =>
    obtain ⟨value, last, valid⟩ := Option.bind_eq_some_iff.mp found
    rw [whole, buffered, ← List.append_assoc, lastValid_append, lastValid_of_getLast last valid]
    rfl
  | none =>
    change state.tracker.lastCwd = _
    rw [lastValid_completed follows short]
    cases newest : lastValid (completed state.tracker data) with
    | none => exact follows.tracked
    | some cwd =>
      obtain same | ⟨sequence, last, behind, valid⟩ := settles.newest cwd newest
      · exact same
      · -- The last sequence was kept and is valid, so the search has found it.
        rw [getLast_kept last behind buffered, Option.bind_some] at found
        rw [found] at valid
        contradiction

end Step

theorem follows_start : Follows trackerMachine.start :=
  ⟨⟨[], fun _ _ => rfl⟩, rfl, fun _ => by
    change none = lastValid (values [])
    rw [values_absent (by decide)]
    rfl⟩

/-- A valid sequence and a malformed one behind it. -/
def hiddenOutput : Text := osc7Prefix ++ (['a'] ++ (oscBel :: (osc7Prefix ++ (['%'] ++ [oscBel]))))

theorem closed_bel {value after : Text}
    (first : splitWhere terminates (value ++ after) = some (value, after)) : Closed value after :=
  ⟨(splitWhere_eq_some_iff.mp first).2.1, (splitWhere_eq_some_iff.mp first).2.2⟩

theorem values_hiddenOutput : values hiddenOutput = [['a'], ['%']] := by
  have second : NotBefore osc7Prefix [oscBel] (osc7Prefix ++ (['%'] ++ [oscBel])) :=
    (splitOnce_eq_some_iff.mp (by decide :
      splitOnce osc7Prefix (oscBel :: (osc7Prefix ++ (['%'] ++ [oscBel]))) =
        some ([oscBel], ['%'] ++ [oscBel]))).2
  have later : values ([oscBel] ++ (osc7Prefix ++ (['%'] ++ [oscBel]))) = [['%']] := by
    rw [values_closed second (closed_bel (by decide)), values_absent (by decide)]
  have whole : values ([] ++ hiddenOutput) = ['a'] :: values ([oscBel] ++
      (osc7Prefix ++ (['%'] ++ [oscBel]))) := values_closed misses_nil (closed_bel (by decide))
  rwa [later] at whole

/-- The malformed sequence hides the valid one that came with it. -/
theorem hidden_unreported :
    ∃ state, trackerMachine.run trackerMachine.start [hiddenOutput] = some state ∧
      state.output = hiddenOutput ∧ hiddenOutput.length ≤ 8192 ∧ Short state.output ∧
      lastValid (values state.output) = some ['a'] ∧ state.reported = none := by
  refine ⟨_, rfl, rfl, by decide, ?_, ?_, ?_⟩
  · change Short hiddenOutput
    unfold Short
    rw [values_hiddenOutput]
    decide
  · change lastValid (values hiddenOutput) = _
    rw [values_hiddenOutput]
    decide
  · have kept : keptBuffer ([] ++ hiddenOutput) = hiddenOutput := if_neg (by decide)
    have missed : extractLatestCwd (keptBuffer ([] ++ hiddenOutput)) = none := by
      rw [kept, extractLatestCwd_eq, values_hiddenOutput]
      decide
    obtain ⟨_, lastCwd, report⟩ := observe_eq ⟨[], none⟩ hiddenOutput
    rw [missed] at lastCwd
    exact report.trans lastCwd

/-- The tracker has reported the right directory last, in every state that is reached by pieces that
hide nothing from it. -/
theorem reported_of_reachable {state : Tracked}
    (reached : trackerMachine.ReachableWhile
      (fun state data => Settles state.tracker data) state)
    (short : Short state.output) :
    state.reported = lastValid (values state.output) :=
  (reached.invariant follows_start fun _ _ _ follows settles step =>
    follows_step follows settles step).correct short

/-- One valid sequence. -/
def plainOutput : Text := osc7Prefix ++ (['a'] ++ [oscBel])

theorem sequences_plainOutput : sequences ([] ++ plainOutput) = [⟨0, ['a']⟩] := by
  have whole := sequencesFrom_closed misses_nil
    (closed_bel (by decide : splitWhere terminates (['a'] ++ [oscBel]) = some (['a'], [oscBel]))) 0
  have rest (position : Nat) : sequencesFrom position [oscBel] = [] :=
    sequencesFrom_absent (by decide) position
  rw [rest] at whole
  exact whole

theorem settles_plainOutput : Settles trackerMachine.start.tracker plainOutput := by
  have kept : cutAt ([] ++ plainOutput) = 0 := by decide
  refine ⟨fun sequence _ before => ?_, fun cwd _ => .inr ⟨⟨0, ['a']⟩, ?_, ?_, by decide⟩⟩
  · change sequence.start < cutAt ([] ++ plainOutput) at before
    rw [kept] at before
    exact absurd before (Nat.not_lt_zero _)
  · change (sequences ([] ++ plainOutput)).getLast? = _
    rw [sequences_plainOutput]
    rfl
  · exact kept.le

theorem plain_reported :
    (trackerMachine.start.tracker.observe plainOutput).2.or none =
      lastValid (values ([] ++ plainOutput)) :=
  reported_of_reachable (.next .start settles_plainOutput rfl) (by
    change Short ([] ++ plainOutput)
    unfold Short values
    rw [sequences_plainOutput]
    decide)

end Foco.CwdTracking
