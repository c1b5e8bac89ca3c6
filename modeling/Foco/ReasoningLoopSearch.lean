import Foco.ReasoningLoop

/-!
What the search for a repeating suffix finds: the smallest period whose copies at the end of the
tail are enough, with all of the copies there are. A new detector reports it at the first
checkpoint at which there is one, and never reads past the ends of the tail.
-/
namespace Foco.ReasoningLoop
open Foco.RustText

/-! ## The copies of a block -/

theorem length_copies (copies : Nat) (block : Text) :
    (List.replicate copies block).flatten.length = copies * block.length := by
  rw [List.length_flatten, List.map_replicate, List.sum_replicate_nat]

/-- The blocks of a tail that ends in copies are all the same. -/
theorem EndsInCopies.blocks {tail : Text} {period copies : Nat}
    (ends : EndsInCopies tail period copies) : period * copies ≤ tail.length ∧
      ∀ offset < copies, blockAt tail period offset = blockAt tail period 0 := by
  obtain ⟨block, rfl, front, rfl⟩ := ends
  have each (offset : Nat) (inside : offset < copies) :
      blockAt (front ++ (List.replicate copies block).flatten) block.length offset = block := by
    have parts : copies = (copies - (offset + 1)) + (offset + 1) := by omega
    have cut : front ++ (List.replicate copies block).flatten =
        (front ++ (List.replicate (copies - (offset + 1)) block).flatten) ++
          (List.replicate (offset + 1) block).flatten := by
      conv_lhs => rw [parts, List.replicate_add, List.flatten_append]
      rw [List.append_assoc]
    have long : block.length * (offset + 1) = (List.replicate (offset + 1) block).flatten.length := by
      rw [length_copies, Nat.mul_comm]
    rw [cut, blockAt, long, List.length_append, Nat.add_sub_cancel, List.drop_left,
      List.replicate_succ, List.flatten_cons, List.take_left]
  constructor
  · rw [List.length_append, length_copies, Nat.mul_comm]
    exact Nat.le_add_left _ _
  · intro offset inside
    rw [each offset inside, each 0 (Nat.zero_lt_of_lt inside)]

/-- The loop over the blocks does not stop before a block that differs. -/
theorem le_countRepeats {tail : Text} {period remaining copies most : Nat}
    (fits : period * most ≤ tail.length) (room : most ≤ copies + remaining)
    (same : ∀ offset < most, blockAt tail period offset = blockAt tail period 0) :
    most ≤ countRepeats tail period remaining copies := by
  induction remaining generalizing copies with
  | zero => exact room
  | succ remaining ih =>
    rw [countRepeats]
    by_cases inside : copies < most
    · have within : period * (copies + 1) ≤ tail.length :=
        (Nat.mul_le_mul_left period inside).trans fits
      rw [if_pos ((blocksMatch_iff within).mpr (same copies inside))]
      exact ih (by omega)
    · split
      · exact ih (by omega)
      · omega

/-! ## What is to be detected -/

/-- The tail ends in enough copies of a block, and of enough characters. -/
structure Repeats (tail : Text) (period copies : Nat) : Prop where
  minPeriod : minPeriodChars ≤ period
  maxPeriod : period ≤ maxPeriodChars
  enough : minRepeatCount ≤ copies
  covered : minObservedChars ≤ period * copies
  ends : EndsInCopies tail period copies

/-- The smallest period that repeats, with all of its copies. -/
structure Detects (tail : Text) (detection : ReasoningLoopDetection) : Prop where
  repeats : Repeats tail detection.periodCharCount detection.repeatCount
  observed : detection.observedCharCount = detection.periodCharCount * detection.repeatCount
  maximal : ∀ copies, EndsInCopies tail detection.periodCharCount copies →
    copies ≤ detection.repeatCount
  smallest : ∀ period copies, Repeats tail period copies → detection.periodCharCount ≤ period

/-- All of the copies at the end are counted. -/
theorem EndsInCopies.le_counted {tail : Text} {period copies : Nat} (positive : 0 < period)
    (ends : EndsInCopies tail period copies) :
    copies ≤ countRepeats tail period (tail.length / period - 1) 1 := by
  obtain ⟨fits, same⟩ := ends.blocks
  have most : copies ≤ tail.length / period := by
    rw [Nat.le_div_iff_mul_le positive, Nat.mul_comm]
    exact fits
  exact le_countRepeats fits (by omega) same

theorem Repeats.detected {tail : Text} {period copies : Nat} (repeats : Repeats tail period copies) :
    (detectPeriod tail period).isSome = true := by
  have positive : 0 < period := Nat.lt_of_lt_of_le (by decide) repeats.minPeriod
  have counted := repeats.ends.le_counted positive
  unfold detectPeriod
  dsimp only
  rw [if_pos ⟨repeats.enough.trans counted,
    repeats.covered.trans (Nat.mul_le_mul_left period counted)⟩]
  rfl

/-- The periods that are searched are all that can repeat. -/
theorem Repeats.searched {tail : Text} {period copies : Nat} (repeats : Repeats tail period copies) :
    period ∈ List.range' minPeriodChars
      (min maxPeriodChars (tail.length / minRepeatCount) + 1 - minPeriodChars) := by
  have fits : period * minRepeatCount ≤ tail.length :=
    (Nat.mul_le_mul_left period repeats.enough).trans repeats.ends.blocks.1
  have long : period ≤ tail.length / minRepeatCount :=
    (Nat.le_div_iff_mul_le (by decide)).mpr fits
  have bound : period ≤ min maxPeriodChars (tail.length / minRepeatCount) :=
    Nat.le_min.mpr ⟨repeats.maxPeriod, long⟩
  have least := repeats.minPeriod
  rw [List.mem_range'_1]
  omega

theorem detectPeriod_repeats {tail : Text} {period : Nat} {detection : ReasoningLoopDetection}
    (searched : period ∈ List.range' minPeriodChars
      (min maxPeriodChars (tail.length / minRepeatCount) + 1 - minPeriodChars))
    (found : detectPeriod tail period = some detection) :
    detection.periodCharCount = period ∧ Repeats tail period detection.repeatCount ∧
      detection.observedCharCount = period * detection.repeatCount ∧
        ∀ copies, EndsInCopies tail period copies → copies ≤ detection.repeatCount := by
  rw [List.mem_range'_1] at searched
  obtain ⟨least, most⟩ := searched
  have bound : period ≤ min maxPeriodChars (tail.length / minRepeatCount) := by omega
  have positive : 0 < period := Nat.lt_of_lt_of_le (by decide) least
  obtain ⟨ends, rfl, observed, enough, covered⟩ := detectPeriod_sound positive found
  refine ⟨rfl, ⟨least, (Nat.le_min.mp bound).1, enough, observed ▸ covered, ends⟩, observed, ?_⟩
  intro copies ends'
  have counted := (Option.ite_none_right_eq_some.mp found).2
  rw [← Option.some.inj counted]
  exact ends'.le_counted positive

/-- The search finds what is to be detected. -/
theorem detectRepeatedSuffix_detects {tail : Text} {detection : ReasoningLoopDetection}
    (found : detectRepeatedSuffix tail = some detection) : Detects tail detection := by
  obtain ⟨before, period, after, shape, found, missed⟩ := List.findSome?_eq_some_iff.mp found
  have searched : period ∈ List.range' minPeriodChars
      (min maxPeriodChars (tail.length / minRepeatCount) + 1 - minPeriodChars) := by
    rw [shape]
    exact List.mem_append_right before List.mem_cons_self
  obtain ⟨rfl, repeats, observed, maximal⟩ := detectPeriod_repeats searched found
  refine ⟨repeats, observed, maximal, fun other copies repeats' => ?_⟩
  have inside := repeats'.searched
  rw [shape] at inside
  obtain earlier | later := List.mem_append.mp inside
  · have none_ := missed other earlier
    have some_ := repeats'.detected
    rw [none_] at some_
    cases some_
  · have ordered : (before ++ detection.periodCharCount :: after).Pairwise (· < ·) := by
      rw [← shape]
      exact List.pairwise_lt_range' 1
    obtain rfl | later := List.mem_cons.mp later
    · exact Nat.le_refl _
    · exact Nat.le_of_lt ((List.pairwise_cons.mp (List.pairwise_append.mp ordered).2.1).1 _ later)

theorem detectRepeatedSuffix_eq_none {tail : Text} (missed : detectRepeatedSuffix tail = none)
    (period copies : Nat) : ¬Repeats tail period copies := fun repeats => by
  have none_ := List.findSome?_eq_none_iff.mp missed period repeats.searched
  have some_ := repeats.detected
  rw [none_] at some_
  cases some_

/-- There is at most one detection. -/
theorem Detects.unique {tail : Text} {first second : ReasoningLoopDetection}
    (left : Detects tail first) (right : Detects tail second) : first = second := by
  have period : first.periodCharCount = second.periodCharCount :=
    Nat.le_antisymm (left.smallest _ _ right.repeats) (right.smallest _ _ left.repeats)
  have copies : first.repeatCount = second.repeatCount := by
    refine Nat.le_antisymm (right.maximal _ ?_) (left.maximal _ ?_)
    · exact period ▸ left.repeats.ends
    · exact period ▸ right.repeats.ends
  have observed : first.observedCharCount = second.observedCharCount := by
    rw [left.observed, right.observed, period, copies]
  cases first
  cases second
  congr

/-! ## Checkpoints -/

/-- What the detector keeps of a normalised text. -/
def keptTail (normalized : Text) : Text :=
  normalized.drop (normalized.length - maxNormalizedTailChars)

/-- The search is due when so many characters have been counted; the counter is a machine integer
that stops at its bound. -/
def IsCheckpoint (count : Nat) : Prop :=
  minObservedChars ≤ min count usizeMax ∧ min count usizeMax % detectionStrideChars = 0

instance (count : Nat) : Decidable (IsCheckpoint count) := inferInstanceAs (Decidable (_ ∧ _))

/-- There is nothing to detect at any checkpoint of the text. -/
def Quiet (normalized : Text) : Prop :=
  ∀ count ≤ normalized.length, IsCheckpoint count →
    ∀ period copies, ¬Repeats (keptTail (normalized.take count)) period copies

/-- The first checkpoint at which there is something to detect. -/
structure FirstDetection (normalized : Text) (count : Nat) (detection : ReasoningLoopDetection) :
    Prop where
  within : count ≤ normalized.length
  checkpoint : IsCheckpoint count
  detects : Detects (keptTail (normalized.take count)) detection
  first : ∀ earlier < count, IsCheckpoint earlier →
    ∀ period copies, ¬Repeats (keptTail (normalized.take earlier)) period copies

theorem FirstDetection.unique {normalized : Text} {count other : Nat}
    {first second : ReasoningLoopDetection} (left : FirstDetection normalized count first)
    (right : FirstDetection normalized other second) : count = other ∧ first = second := by
  have same : count = other := by
    refine Nat.le_antisymm (Nat.le_of_not_lt fun less => ?_) (Nat.le_of_not_lt fun less => ?_)
    · exact left.first other less right.checkpoint _ _ right.detects.repeats
    · exact right.first count less left.checkpoint _ _ left.detects.repeats
  subst same
  exact ⟨rfl, left.detects.unique right.detects⟩

theorem Quiet.not_first {normalized : Text} (quiet : Quiet normalized) (count : Nat)
    (detection : ReasoningLoopDetection) : ¬FirstDetection normalized count detection :=
  fun first => quiet count first.within first.checkpoint _ _ first.detects.repeats

namespace ReasoningLoopDetector

variable {detector : ReasoningLoopDetector} {normalized : Text}

/-- The search is made at the checkpoints. -/
theorem Keeps.append_detection (keeps : detector.Keeps normalized)
    (fresh : detector.detection = none) (character : Char) :
    (detector.append character).detection =
      if IsCheckpoint (normalized ++ [character]).length then
        detectRepeatedSuffix (keptTail (normalized ++ [character]))
      else none := by
  have counted : saturatingAdd detector.normalizedCharCount 1 =
      min (normalized ++ [character]).length usizeMax := by
    rw [keeps.count, saturatingAdd, List.length_append, List.length_singleton]
    omega
  have tail : pushTail detector.normalizedTail character =
      keptTail (normalized ++ [character]) := by
    rw [keeps.tail, pushTail_eq]
    rfl
  unfold ReasoningLoopDetector.append isDue
  simp only [decide_eq_true_eq, counted, tail]
  by_cases due : IsCheckpoint (normalized ++ [character]).length
  · have both := due
    unfold IsCheckpoint at both
    rw [if_pos both, if_pos due]
  · have neither := due
    unfold IsCheckpoint at neither
    rw [if_neg neither, if_neg due]
    exact fresh

theorem pushChar_dropped {character : Char}
    (dropped : normalizeChar detector.previousWasWhitespace character = none) :
    detector.pushChar character =
      { detector with previousWasWhitespace := isWhitespace character } := by
  unfold ReasoningLoopDetector.pushChar
  rw [dropped]

theorem pushChar_kept {character blank : Char}
    (kept : normalizeChar detector.previousWasWhitespace character = some blank) :
    detector.pushChar character =
      { detector with previousWasWhitespace := isWhitespace character }.append blank := by
  unfold ReasoningLoopDetector.pushChar
  rw [kept]

theorem take_append_of_le {front back : Text} {count : Nat} (le : count ≤ front.length) :
    (front ++ back).take count = front.take count :=
  List.take_append_of_le_length le

/-- A detector that has found nothing so far, and what it makes of the rest of the text. -/
theorem Keeps.pushChars_spec (keeps : detector.Keeps normalized)
    (fresh : detector.detection = none) (quiet : Quiet normalized) (delta : Text) :
    ((detector.pushChars delta).detection = none ∧
        Quiet (normalized ++ normalizeFrom detector.previousWasWhitespace delta)) ∨
      ∃ detection count, (detector.pushChars delta).detection = some detection ∧
        FirstDetection (normalized ++ normalizeFrom detector.previousWasWhitespace delta) count
          detection ∧
        (detector.pushChars delta).normalizedCharCount = min count usizeMax := by
  induction delta generalizing detector normalized with
  | nil => exact .inl ⟨fresh, by rwa [normalizeFrom, List.append_nil]⟩
  | cons character delta ih =>
    have pushed := keeps.pushChar fresh character
    have whitespace := previousWasWhitespace_pushChar detector character
    rw [ReasoningLoopDetector.pushChars, normalizeFrom, ← List.append_assoc]
    cases kept : normalizeChar detector.previousWasWhitespace character with
    | none =>
      -- A dropped character changes neither the text nor what is found.
      have missed : (detector.pushChar character).detection = none := by
        rw [pushChar_dropped kept]
        exact fresh
      rw [kept] at pushed
      have rest := ih pushed missed (by rwa [Option.toList_none, List.append_nil])
      rw [whitespace] at rest
      rwa [if_neg (by rw [missed]; exact Bool.false_ne_true)]
    | some blank =>
      have found : (detector.pushChar character).detection =
          if IsCheckpoint (normalized ++ [blank]).length then
            detectRepeatedSuffix (keptTail (normalized ++ [blank]))
          else none := by
        rw [pushChar_kept kept]
        have read : { detector with
            previousWasWhitespace := isWhitespace character }.Keeps normalized :=
          ⟨keeps.tail, keeps.count, keeps.found⟩
        exact read.append_detection fresh blank
      rw [kept, Option.toList_some] at pushed
      rw [Option.toList_some]
      cases detected : (detector.pushChar character).detection with
      | none =>
        have quiet' : Quiet (normalized ++ [blank]) := by
          intro count le due
          rw [List.length_append, List.length_singleton] at le
          obtain le | rfl := Nat.le_succ_iff.mp le
          · rw [take_append_of_le le]
            exact quiet count le due
          · have whole : (normalized ++ [blank]).take (normalized.length + 1) =
                normalized ++ [blank] := List.take_of_length_le (by simp)
            rw [whole]
            have due : IsCheckpoint (normalized ++ [blank]).length := by
              rwa [List.length_append, List.length_singleton]
            rw [detected, if_pos due] at found
            exact detectRepeatedSuffix_eq_none found.symm
        have rest := ih pushed detected quiet'
        rw [whitespace] at rest
        rwa [if_neg (by exact Bool.false_ne_true)]
      | some detection =>
        rw [detected] at found
        obtain ⟨due, searched⟩ := Option.ite_none_right_eq_some.mp found.symm
        have whole : (normalized ++ [blank] ++ normalizeFrom (isWhitespace character) delta).take
            (normalized ++ [blank]).length = normalized ++ [blank] := List.take_left
        refine .inr ⟨detection, (normalized ++ [blank]).length, ?_, ⟨?_, due, ?_, ?_⟩, ?_⟩
        · rw [if_pos (by rfl), detected]
        · exact (List.prefix_append _ _).length_le
        · rw [whole]
          exact detectRepeatedSuffix_detects searched
        · intro earlier less due'
          rw [List.length_append, List.length_singleton] at less
          rw [List.append_assoc, take_append_of_le (by omega)]
          exact quiet earlier (by omega) due'
        · rw [if_pos (by rfl)]
          exact pushed.count

end ReasoningLoopDetector

/-! ## Indices -/

/-- A subtraction of machine integers; below zero it ends the program. -/
def checkedSub (left right : Nat) : Option Nat := if right ≤ left then some (left - right) else none

/-- `all` over a check that may end the program. -/
def allIndexed (check : Nat → Option Bool) : List Nat → Option Bool
  | [] => some true
  | offset :: offsets =>
    (check offset).bind fun holds => if holds then allIndexed check offsets else some false

/-- `blocks_match` with every subtraction and every index checked. -/
def blocksMatchIndexed (tail : Text) (periodCharCount previousBlockOffset : Nat) : Option Bool := do
  let latestStart ← checkedSub tail.length periodCharCount
  let previousStart ← checkedSub tail.length (periodCharCount * (previousBlockOffset + 1))
  allIndexed (fun offset => do
    let latest ← tail[latestStart + offset]?
    let previous ← tail[previousStart + offset]?
    return latest == previous) (List.range periodCharCount)

def countRepeatsIndexed (tail : Text) (periodCharCount : Nat) : Nat → Nat → Option Nat
  | 0, repeatCount => some repeatCount
  | remaining + 1, repeatCount =>
    (blocksMatchIndexed tail periodCharCount repeatCount).bind fun same =>
      if same then countRepeatsIndexed tail periodCharCount remaining (repeatCount + 1)
      else some repeatCount

/-- A period of zero would be divided by. -/
def detectPeriodIndexed (tail : Text) (periodCharCount : Nat) :
    Option (Option ReasoningLoopDetection) :=
  if periodCharCount = 0 then none
  else
    (countRepeatsIndexed tail periodCharCount (tail.length / periodCharCount - 1) 1).map
      fun repeatCount =>
        let observedCharCount := periodCharCount * repeatCount
        if minRepeatCount ≤ repeatCount ∧ minObservedChars ≤ observedCharCount then
          some { periodCharCount, repeatCount, observedCharCount }
        else none

def searchIndexed (tail : Text) : List Nat → Option (Option ReasoningLoopDetection)
  | [] => some none
  | period :: periods =>
    (detectPeriodIndexed tail period).bind fun found =>
      if found.isSome then some found else searchIndexed tail periods

def detectRepeatedSuffixIndexed (tail : Text) : Option (Option ReasoningLoopDetection) :=
  let maxPeriod := min maxPeriodChars (tail.length / minRepeatCount)
  searchIndexed tail (List.range' minPeriodChars (maxPeriod + 1 - minPeriodChars))

theorem allIndexed_eq {check : Nat → Option Bool} {holds : Nat → Bool} {offsets : List Nat}
    (inside : ∀ offset ∈ offsets, check offset = some (holds offset)) :
    allIndexed check offsets = some (offsets.all holds) := by
  induction offsets with
  | nil => rfl
  | cons offset offsets ih =>
    obtain ⟨here, later⟩ := List.forall_mem_cons.mp inside
    rw [allIndexed, here, Option.bind_some, ih later, List.all_cons]
    cases holds offset <;> rfl

theorem blocksMatchIndexed_eq {tail : Text} {period offset : Nat}
    (fits : period * (offset + 1) ≤ tail.length) :
    blocksMatchIndexed tail period offset = some (blocksMatch tail period offset) := by
  have one : period * 1 ≤ period * (offset + 1) := Nat.mul_le_mul_left period (by omega)
  rw [Nat.mul_one] at one
  unfold blocksMatchIndexed checkedSub
  rw [if_pos (one.trans fits), if_pos fits]
  refine allIndexed_eq fun index inside => ?_
  rw [List.mem_range] at inside
  have latest : tail.length - period + index < tail.length := by omega
  have previous : tail.length - period * (offset + 1) + index < tail.length := by omega
  rw [List.getElem?_eq_getElem latest, List.getElem?_eq_getElem previous]
  rfl

theorem countRepeatsIndexed_eq {tail : Text} {period remaining copies : Nat}
    (fits : period * (copies + remaining) ≤ tail.length) :
    countRepeatsIndexed tail period remaining copies =
      some (countRepeats tail period remaining copies) := by
  induction remaining generalizing copies with
  | zero => rfl
  | succ remaining ih =>
    have inside : period * (copies + 1) ≤ tail.length :=
      (Nat.mul_le_mul_left period (by omega)).trans fits
    rw [countRepeatsIndexed, countRepeats, blocksMatchIndexed_eq inside, Option.bind_some]
    split
    · exact ih (by rwa [Nat.add_assoc, Nat.add_comm 1])
    · rfl

theorem detectPeriodIndexed_eq {tail : Text} {period : Nat} (positive : 0 < period)
    (fits : period ≤ tail.length) :
    detectPeriodIndexed tail period = some (detectPeriod tail period) := by
  have several : 0 < tail.length / period := Nat.div_pos fits positive
  have whole : 1 + (tail.length / period - 1) = tail.length / period := by omega
  have blocks : period * (1 + (tail.length / period - 1)) ≤ tail.length := by
    rw [whole]
    exact Nat.mul_div_le tail.length period
  rw [detectPeriodIndexed, if_neg (Nat.ne_of_gt positive), countRepeatsIndexed_eq blocks]
  rfl

theorem searchIndexed_eq {tail : Text} {periods : List Nat}
    (fits : ∀ period ∈ periods, 0 < period ∧ period ≤ tail.length) :
    searchIndexed tail periods = some (periods.findSome? (detectPeriod tail)) := by
  induction periods with
  | nil => rfl
  | cons period periods ih =>
    obtain ⟨here, later⟩ := List.forall_mem_cons.mp fits
    rw [searchIndexed, detectPeriodIndexed_eq here.1 here.2, Option.bind_some,
      List.findSome?_cons, ih later]
    cases detectPeriod tail period <;> rfl

/-- No index of the search leaves the tail, and no subtraction goes below zero. -/
theorem detectRepeatedSuffixIndexed_eq (tail : Text) :
    detectRepeatedSuffixIndexed tail = some (detectRepeatedSuffix tail) := by
  refine searchIndexed_eq fun period mem => ?_
  rw [List.mem_range'_1] at mem
  have least : 0 < minPeriodChars := by decide
  have quarter : tail.length / minRepeatCount ≤ tail.length := Nat.div_le_self _ _
  have bound : period ≤ min maxPeriodChars (tail.length / minRepeatCount) := by omega
  exact ⟨by omega, ((Nat.le_min.mp bound).2).trans quarter⟩

namespace ReasoningLoopDetector

/-- However a text is cut into deltas, a new detector reports what there is to detect at the first
checkpoint at which there is something, right when it has counted that far; it reports nothing if
there is no such checkpoint; and its search stays within the tail. -/
theorem feedDeltas_detects (deltas : List Text) :
    (∀ detection, (({} : ReasoningLoopDetector).feedDeltas deltas).2 = some detection ↔
        ∃ count, FirstDetection (normalizeFrom false deltas.flatten) count detection ∧
          (({} : ReasoningLoopDetector).feedDeltas deltas).1.normalizedCharCount =
            min count usizeMax) ∧
      ((({} : ReasoningLoopDetector).feedDeltas deltas).2 = none ↔
        Quiet (normalizeFrom false deltas.flatten)) ∧
      ∀ tail, detectRepeatedSuffixIndexed tail = some (detectRepeatedSuffix tail) := by
  have nothing : Quiet [] := by
    intro count le due
    obtain rfl : count = 0 := Nat.le_zero.mp le
    exact absurd due (by decide)
  have spec := keeps_new.pushChars_spec rfl nothing deltas.flatten
  rw [feedDeltas_eq, pushDelta_fresh rfl]
  change (_ ∧ Quiet (normalizeFrom false deltas.flatten)) ∨
    ∃ _ _, _ ∧ FirstDetection (normalizeFrom false deltas.flatten) _ _ ∧ _ at spec
  obtain ⟨none_, quiet⟩ | ⟨detection, count, some_, first, counted⟩ := spec
  · refine ⟨fun detection => ?_, iff_of_true none_ quiet, detectRepeatedSuffixIndexed_eq⟩
    dsimp only
    rw [none_]
    exact iff_of_false nofun fun ⟨count, first, _⟩ => quiet.not_first count detection first
  · refine ⟨fun other => ?_, iff_of_false ?_ ?_, detectRepeatedSuffixIndexed_eq⟩
    · dsimp only
      rw [some_, Option.some.injEq]
      constructor
      · rintro rfl
        exact ⟨count, first, counted⟩
      · rintro ⟨_, first', -⟩
        exact (first.unique first').2
    · dsimp only
      rw [some_]
      exact nofun
    · exact fun quiet => quiet.not_first count detection first

end ReasoningLoopDetector

end Foco.ReasoningLoop
