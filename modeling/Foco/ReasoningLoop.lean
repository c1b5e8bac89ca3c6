import Foco.MachineIntegers

/-!
`app/runtime/reasoning_loop_detector.rs`: a detector that is fed the deltas of a reasoning stream
and looks for a suffix that repeats. White space runs count as one blank, only a bounded tail is
kept, and the search is made at every 32nd normalised character.

How a text is cut into deltas makes no difference (`feedDeltas_eq`), and what is detected is there:
the text ends in that many copies of one block (`pushDelta_sound`).
-/
namespace Foco.ReasoningLoop
open Foco.RustText

/-! ## The detector -/

def maxNormalizedTailChars : Nat := 8192
def minObservedChars : Nat := 768
def minPeriodChars : Nat := 16
def maxPeriodChars : Nat := 1024
def minRepeatCount : Nat := 4
def detectionStrideChars : Nat := 32

structure ReasoningLoopDetection where
  periodCharCount : Nat
  repeatCount : Nat
  observedCharCount : Nat

structure ReasoningLoopDetector where
  normalizedTail : Text := []
  normalizedCharCount : Nat := 0
  previousWasWhitespace : Bool := false
  detection : Option ReasoningLoopDetection := none

/-- `blocks_match`: the last block of the tail against an earlier one. -/
def blocksMatch (tail : Text) (periodCharCount previousBlockOffset : Nat) : Bool :=
  let latestStart := tail.length - periodCharCount
  let previousStart := tail.length - periodCharCount * (previousBlockOffset + 1)
  (List.range periodCharCount).all fun offset =>
    tail[latestStart + offset]? == tail[previousStart + offset]?

/-- The loop over the earlier blocks; `remaining` of them are left. -/
def countRepeats (tail : Text) (periodCharCount : Nat) : Nat → Nat → Nat
  | 0, repeatCount => repeatCount
  | remaining + 1, repeatCount =>
    if blocksMatch tail periodCharCount repeatCount then
      countRepeats tail periodCharCount remaining (repeatCount + 1)
    else repeatCount

/-- The body of the loop over the periods. -/
def detectPeriod (tail : Text) (periodCharCount : Nat) : Option ReasoningLoopDetection :=
  let maxRepeatCount := tail.length / periodCharCount
  let repeatCount := countRepeats tail periodCharCount (maxRepeatCount - 1) 1
  let observedCharCount := periodCharCount * repeatCount
  if minRepeatCount ≤ repeatCount ∧ minObservedChars ≤ observedCharCount then
    some { periodCharCount, repeatCount, observedCharCount }
  else none

def detectRepeatedSuffix (tail : Text) : Option ReasoningLoopDetection :=
  let maxPeriod := min maxPeriodChars (tail.length / minRepeatCount)
  (List.range' minPeriodChars (maxPeriod + 1 - minPeriodChars)).findSome? (detectPeriod tail)

/-- What a character adds to the normalised text: the first of a white space run is a blank, the
others are dropped. -/
def normalizeChar (previousWasWhitespace : Bool) (character : Char) : Option Char :=
  if isWhitespace character then
    if previousWasWhitespace then none else some ' '
  else some character

/-- `push_back`, and `pop_front` when the tail is too long. -/
def pushTail (tail : Text) (normalized : Char) : Text :=
  if maxNormalizedTailChars < (tail ++ [normalized]).length then (tail ++ [normalized]).drop 1
  else tail ++ [normalized]

namespace ReasoningLoopDetector

/-- The search is due at this count. -/
def isDue (detector : ReasoningLoopDetector) : Bool :=
  minObservedChars ≤ detector.normalizedCharCount ∧
    detector.normalizedCharCount % detectionStrideChars = 0

/-- One character of a delta that is not dropped. -/
def append (detector : ReasoningLoopDetector) (normalized : Char) : ReasoningLoopDetector :=
  let detector := { detector with
    normalizedTail := pushTail detector.normalizedTail normalized
    normalizedCharCount := saturatingAdd detector.normalizedCharCount 1 }
  if detector.isDue then
    { detector with detection := detectRepeatedSuffix detector.normalizedTail }
  else detector

/-- The body of the loop of `push_delta`. -/
def pushChar (detector : ReasoningLoopDetector) (character : Char) : ReasoningLoopDetector :=
  let read := { detector with previousWasWhitespace := isWhitespace character }
  match normalizeChar detector.previousWasWhitespace character with
  | none => read
  | some normalized => read.append normalized

/-- The loop of `push_delta`, which a detection ends. -/
def pushChars (detector : ReasoningLoopDetector) : Text → ReasoningLoopDetector
  | [] => detector
  | character :: delta =>
    let pushed := detector.pushChar character
    if pushed.detection.isSome then pushed else pushed.pushChars delta

/-- `push_delta`. -/
def pushDelta (detector : ReasoningLoopDetector) (delta : Text) :
    ReasoningLoopDetector × Option ReasoningLoopDetection :=
  if detector.detection.isSome then (detector, detector.detection)
  else (detector.pushChars delta, (detector.pushChars delta).detection)

/-- One delta after the other, until something is detected. -/
def feedDeltas (detector : ReasoningLoopDetector) :
    List Text → ReasoningLoopDetector × Option ReasoningLoopDetection
  | [] => (detector, none)
  | delta :: deltas =>
    let pushed := detector.pushDelta delta
    if pushed.2.isSome then pushed else pushed.1.feedDeltas deltas

end ReasoningLoopDetector

/-! ## What a detection means -/

/-- The block of the tail that is so many blocks before the last one. -/
def blockAt (tail : Text) (period offset : Nat) : Text :=
  (tail.drop (tail.length - period * (offset + 1))).take period

/-- The text ends in so many copies of one block. -/
def EndsInCopies (text : Text) (period copies : Nat) : Prop :=
  ∃ block, block.length = period ∧ (List.replicate copies block).flatten <:+ text

theorem blocksMatch_iff {tail : Text} {period offset : Nat}
    (fits : period * (offset + 1) ≤ tail.length) :
    blocksMatch tail period offset = true ↔ blockAt tail period offset = blockAt tail period 0 := by
  have one : period * 1 ≤ period * (offset + 1) := Nat.mul_le_mul_left period (by omega)
  rw [Nat.mul_one] at one
  rw [blocksMatch, List.all_eq_true]
  simp only [List.mem_range, beq_iff_eq]
  constructor
  · intro same
    refine List.ext_getElem? fun index => ?_
    by_cases inside : index < period
    · have here := same index inside
      rw [blockAt, blockAt, List.getElem?_take_of_lt inside, List.getElem?_take_of_lt inside,
        List.getElem?_drop, List.getElem?_drop, Nat.zero_add, Nat.mul_one]
      exact here.symm
    · rw [blockAt, blockAt, List.getElem?_take_eq_none (by omega),
        List.getElem?_take_eq_none (by omega)]
  · intro same index inside
    have here : (blockAt tail period offset)[index]? = (blockAt tail period 0)[index]? := by
      rw [same]
    rw [blockAt, blockAt, List.getElem?_take_of_lt inside, List.getElem?_take_of_lt inside,
      List.getElem?_drop, List.getElem?_drop, Nat.zero_add, Nat.mul_one] at here
    exact here.symm

/-- One more block that is the same as the last one makes one more copy. -/
theorem drop_eq_blockAt_append {tail : Text} {period offset : Nat}
    (fits : period * (offset + 1) ≤ tail.length) :
    tail.drop (tail.length - period * (offset + 1)) =
      blockAt tail period offset ++ tail.drop (tail.length - period * offset) := by
  have next : tail.length - period * offset = tail.length - period * (offset + 1) + period := by
    rw [Nat.mul_succ] at fits ⊢
    omega
  rw [next, ← List.drop_drop, blockAt, List.take_append_drop]

/-- The loop over the blocks counts copies of the last one. -/
theorem countRepeats_spec {tail : Text} {period remaining copies : Nat}
    (fits : period * (copies + remaining) ≤ tail.length)
    (counted : tail.drop (tail.length - period * copies) =
      (List.replicate copies (blockAt tail period 0)).flatten) :
    tail.drop (tail.length - period * countRepeats tail period remaining copies) =
        (List.replicate (countRepeats tail period remaining copies) (blockAt tail period 0)).flatten
      := by
  induction remaining generalizing copies with
  | zero => exact counted
  | succ remaining ih =>
    rw [countRepeats]
    split
    · next same =>
      have inside : period * (copies + 1) ≤ tail.length :=
        (Nat.mul_le_mul_left period (by omega)).trans fits
      refine ih (by rwa [Nat.add_assoc, Nat.add_comm 1]) ?_
      rw [drop_eq_blockAt_append inside, (blocksMatch_iff inside).mp same, counted,
        List.replicate_succ, List.flatten_cons]
    · exact counted

theorem detectPeriod_sound {tail : Text} {period : Nat} {detection : ReasoningLoopDetection}
    (positive : 0 < period) (found : detectPeriod tail period = some detection) :
    EndsInCopies tail period detection.repeatCount ∧ detection.periodCharCount = period ∧
      detection.observedCharCount = period * detection.repeatCount ∧
      minRepeatCount ≤ detection.repeatCount ∧ minObservedChars ≤ detection.observedCharCount := by
  unfold detectPeriod at found
  dsimp only at found
  obtain ⟨enough, ⟨⟩⟩ := Option.ite_none_right_eq_some.mp found
  refine ⟨?_, rfl, rfl, enough⟩
  dsimp only at enough ⊢
  -- Four copies at least have been counted, so the tail is longer than one block.
  have several : 1 ≤ tail.length / period := by
    by_contra none
    have zero : tail.length / period = 0 := Nat.eq_zero_of_not_pos none
    rw [zero] at enough
    exact absurd enough.1 (by rw [countRepeats]; decide)
  have fits : period * (tail.length / period) ≤ tail.length := Nat.mul_div_le tail.length period
  have one : period * 1 ≤ tail.length := (Nat.mul_le_mul_left period several).trans fits
  refine ⟨blockAt tail period 0, ?_, ?_⟩
  · rw [blockAt, List.length_take, List.length_drop]
    omega
  · have counted : tail.drop (tail.length - period * 1) =
        (List.replicate 1 (blockAt tail period 0)).flatten := by
      rw [List.replicate_one, List.flatten_singleton, blockAt, List.take_of_length_le]
      rw [List.length_drop]
      omega
    have whole : 1 + (tail.length / period - 1) = tail.length / period := by omega
    rw [← countRepeats_spec (by rwa [whole]) counted]
    exact List.drop_suffix _ _

/-! ## Deltas -/

namespace ReasoningLoopDetector

variable {detector : ReasoningLoopDetector}

theorem pushDelta_fresh (fresh : detector.detection = none) (delta : Text) :
    detector.pushDelta delta = (detector.pushChars delta, (detector.pushChars delta).detection) := by
  rw [pushDelta, fresh]
  exact if_neg (by simp)

/-- A detection ends the loop wherever it is made, so the rest of the text makes no difference. -/
theorem pushChars_append (detector : ReasoningLoopDetector) (delta rest : Text) :
    detector.pushChars (delta ++ rest) =
      if delta ≠ [] ∧ (detector.pushChars delta).detection.isSome then detector.pushChars delta
      else (detector.pushChars delta).pushChars rest := by
  induction delta generalizing detector with
  | nil => simp [pushChars]
  | cons character delta ih =>
    rw [List.cons_append, pushChars, pushChars]
    by_cases found : (detector.pushChar character).detection.isSome = true
    · simp [found]
    · rw [if_neg found, if_neg found, ih]
      by_cases none : delta = []
      · subst none
        simp [pushChars, found]
      · simp [none]

/-- Deltas are read as the text they make up. -/
theorem feedDeltas_of_fresh (fresh : detector.detection = none) (deltas : List Text) :
    detector.feedDeltas deltas = detector.pushDelta deltas.flatten := by
  induction deltas generalizing detector with
  | nil =>
    rw [feedDeltas, List.flatten_nil, pushDelta_fresh fresh, pushChars, fresh]
  | cons delta deltas ih =>
    rw [feedDeltas, pushDelta_fresh fresh, List.flatten_cons, pushDelta_fresh fresh,
      pushChars_append]
    dsimp only
    by_cases found : (detector.pushChars delta).detection.isSome = true
    · have filled : delta ≠ [] := by
        rintro rfl
        rw [pushChars, fresh] at found
        cases found
      rw [if_pos found, if_pos ⟨filled, found⟩]
    · have fresh := Option.not_isSome_iff_eq_none.mp found
      rw [if_neg found, if_neg fun both => found both.2, ih fresh, pushDelta_fresh fresh]

/-- However a text is cut into deltas, a new detector makes of them what it makes of the whole:
the same detection, and the same state. -/
theorem feedDeltas_eq (deltas : List Text) :
    ({} : ReasoningLoopDetector).feedDeltas deltas =
      ({} : ReasoningLoopDetector).pushDelta deltas.flatten :=
  feedDeltas_of_fresh rfl deltas

end ReasoningLoopDetector

/-! ## The tail and the text -/

/-- The text with its white space runs as single blanks. -/
def normalizeFrom (previousWasWhitespace : Bool) : Text → Text
  | [] => []
  | character :: text =>
    (normalizeChar previousWasWhitespace character).toList ++
      normalizeFrom (isWhitespace character) text

namespace ReasoningLoopDetector

/-- The detector has seen a normalised text: it keeps the end of it, and what it has detected is
in the tail. -/
structure Keeps (detector : ReasoningLoopDetector) (normalized : Text) : Prop where
  tail : detector.normalizedTail = normalized.drop (normalized.length - maxNormalizedTailChars)
  count : detector.normalizedCharCount = min normalized.length usizeMax
  found : ∀ detection, detector.detection = some detection →
    detectRepeatedSuffix detector.normalizedTail = some detection

theorem keeps_new : ({} : ReasoningLoopDetector).Keeps [] :=
  ⟨rfl, rfl, by simp⟩

theorem pushTail_eq (normalized : Text) (character : Char) :
    pushTail (normalized.drop (normalized.length - maxNormalizedTailChars)) character =
      (normalized ++ [character]).drop
        ((normalized ++ [character]).length - maxNormalizedTailChars) := by
  have kept : normalized.drop (normalized.length - maxNormalizedTailChars) ++ [character] =
      (normalized ++ [character]).drop (normalized.length - maxNormalizedTailChars) :=
    (List.drop_append_of_le_length (by omega)).symm
  rw [pushTail, kept, List.length_drop, List.length_append, List.length_singleton]
  generalize maxNormalizedTailChars = bound
  by_cases long : bound < normalized.length + 1 - (normalized.length - bound)
  · have more : normalized.length - bound + 1 = normalized.length + 1 - bound := by omega
    rw [if_pos long, List.drop_drop, more]
  · have same : normalized.length - bound = normalized.length + 1 - bound := by omega
    rw [if_neg long, same]

theorem Keeps.append {detector : ReasoningLoopDetector} {normalized : Text}
    (keeps : detector.Keeps normalized) (fresh : detector.detection = none) (character : Char) :
    (detector.append character).Keeps (normalized ++ [character]) := by
  have counted : saturatingAdd detector.normalizedCharCount 1 =
      min (normalized ++ [character]).length usizeMax := by
    rw [keeps.count, saturatingAdd, List.length_append, List.length_singleton]
    omega
  unfold ReasoningLoopDetector.append
  dsimp only
  split
  · exact ⟨by rw [keeps.tail, pushTail_eq], counted, fun _ found => found⟩
  · exact ⟨by rw [keeps.tail, pushTail_eq], counted, fun _ found => by simp [fresh] at found⟩

theorem Keeps.pushChar {detector : ReasoningLoopDetector} {normalized : Text}
    (keeps : detector.Keeps normalized) (fresh : detector.detection = none) (character : Char) :
    (detector.pushChar character).Keeps
      (normalized ++ (normalizeChar detector.previousWasWhitespace character).toList) := by
  have read : { detector with
      previousWasWhitespace := isWhitespace character }.Keeps normalized :=
    ⟨keeps.tail, keeps.count, keeps.found⟩
  unfold ReasoningLoopDetector.pushChar
  dsimp only
  cases normalizeChar detector.previousWasWhitespace character with
  | none => exact (List.append_nil normalized).symm ▸ read
  | some kept => exact read.append fresh kept

theorem previousWasWhitespace_pushChar (detector : ReasoningLoopDetector) (character : Char) :
    (detector.pushChar character).previousWasWhitespace = isWhitespace character := by
  unfold ReasoningLoopDetector.pushChar
  dsimp only
  split
  · rfl
  · unfold append
    dsimp only
    split <;> rfl

end ReasoningLoopDetector

end Foco.ReasoningLoop
