import Foco.ScheduledTasks

/-!
`interval_next_run` on the readings that `chrono` has: whole seconds in a bounded range of dates,
and nanoseconds that from one second on stand for a leap second. A leap second sorts behind its
second and before the next one; a difference counts it if the clock times are in that order; an
addition of seconds leaves it.
-/
namespace Foco.IntervalRuns
open Foco.RustText Foco.ScheduledTasks Foco.Result

/-! ## Readings -/

/-- `DateTime::MIN_UTC`, in seconds. -/
def minSeconds : Int := -8334601228800

/-- `DateTime::MAX_UTC`, in seconds. -/
def maxSeconds : Int := 8210266876799

def nanos : Int := 1000000000

/-- A `DateTime<Utc>`. -/
structure Reading where
  seconds : Int
  frac : Int
  inRange : minSeconds ≤ seconds ∧ seconds ≤ maxSeconds
  fracRange : 0 ≤ frac ∧ frac < 2 * nanos
deriving DecidableEq

namespace Reading

/-- The second of the day. -/
def clock (reading : Reading) : Int := reading.seconds % 86400

def After (later earlier : Reading) : Prop :=
  earlier.seconds < later.seconds ∨ earlier.seconds = later.seconds ∧ earlier.frac < later.frac

instance (later earlier : Reading) : Decidable (After later earlier) :=
  inferInstanceAs (Decidable (_ ∨ _))

/-- The leap second that a difference counts, by the clock times. -/
def leapBetween (later earlier : Reading) : Int :=
  if earlier.clock < later.clock ∧ nanos ≤ earlier.frac then 1
  else if later.clock < earlier.clock ∧ nanos ≤ later.frac then -1
  else 0

/-- `signed_duration_since`, in nanoseconds. -/
def signedDurationSince (later earlier : Reading) : Int :=
  (later.seconds - earlier.seconds + leapBetween later earlier) * nanos +
    (later.frac - earlier.frac)

/-- `signed_duration_since(..).num_seconds()`, which truncates. -/
def secondsSince (later earlier : Reading) : Int :=
  (signedDurationSince later earlier).tdiv nanos

/-- The nanoseconds once whole seconds have been added. -/
def fracAfter (reading : Reading) : Int :=
  if nanos ≤ reading.frac then reading.frac - nanos else reading.frac

theorem fracAfter_range (reading : Reading) :
    0 ≤ reading.fracAfter ∧ reading.fracAfter < 2 * nanos := by
  have range := reading.fracRange
  unfold fracAfter
  split <;> omega

/-- `checked_add_signed(Duration::seconds(seconds))` for a positive number of seconds. -/
def checkedAddSeconds (reading : Reading) (seconds : Int) : Except ScheduledTaskError Reading :=
  if durationSecondsMax < seconds then .error .durationPanic
  else if inRange : minSeconds ≤ reading.seconds + seconds ∧
      reading.seconds + seconds ≤ maxSeconds then
    .ok ⟨reading.seconds + seconds, reading.fracAfter, inRange, reading.fracAfter_range⟩
  else .error .timestampOverflow

end Reading

/-! ## The next run -/

/-- `DateTime::parse_from_rfc3339`, in UTC. -/
abbrev Parser := Text → Option Reading

section NextRun

variable (parse : Parser)

/-- The anchor of `interval_next_run`. -/
def intervalAnchor (everySeconds : Nat) (startAt : Option Text) (now : Reading) :
    Except ScheduledTaskError Reading :=
  match startAt with
  | some startAt => (parse startAt).elim
      (.error (.invalidTimestamp "schedule.start_at".toList startAt)) .ok
  | none => now.checkedAddSeconds everySeconds

/-- What `interval_next_run` makes of its anchor. -/
def nextFromAnchor (everySeconds : Nat) (now anchor : Reading) :
    Except ScheduledTaskError Reading :=
  if anchor.After now then .ok anchor
  else
    let elapsedSeconds := now.secondsSince anchor
    let periods := elapsedSeconds.tdiv everySeconds + 1
    let offsetSeconds := periods * everySeconds
    if i64Max < offsetSeconds then .error .timestampOverflow
    else anchor.checkedAddSeconds offsetSeconds

def intervalNextRun (everySeconds : Nat) (startAt : Option Text) (now : Reading) :
    Except ScheduledTaskError Reading :=
  if i64Max < everySeconds ∨ everySeconds = 0 then .error (.invalidInterval everySeconds)
  else if durationSecondsMax < everySeconds then .error .durationPanic
  else do
    let anchor ← intervalAnchor parse everySeconds startAt now
    nextFromAnchor everySeconds now anchor

end NextRun

/-! ## What the next run should be -/

/-- The seconds and the nanoseconds of the anchor plus a number of intervals. -/
def multiple (anchor : Reading) (everySeconds count : Nat) : Int × Int :=
  if count = 0 then (anchor.seconds, anchor.frac)
  else (anchor.seconds + count * everySeconds, anchor.fracAfter)

def AfterNow (now : Reading) (point : Int × Int) : Prop :=
  now.seconds < point.1 ∨ now.seconds = point.1 ∧ now.frac < point.2

/-- The first of the anchor plus whole intervals after now. -/
def IsNextRun (everySeconds : Nat) (now anchor result : Reading) : Prop :=
  ∃ count, multiple anchor everySeconds count = (result.seconds, result.frac) ∧
    AfterNow now (multiple anchor everySeconds count) ∧
      ∀ fewer < count, ¬AfterNow now (multiple anchor everySeconds fewer)

/-- The start time, or one interval from now. -/
def IsAnchor (parse : Parser) (everySeconds : Nat) (startAt : Option Text)
    (now anchor : Reading) : Prop :=
  match startAt with
  | some startAt => parse startAt = some anchor
  | none => multiple now everySeconds 1 = (anchor.seconds, anchor.frac)

/-- No panic, and an instant that is returned is the next run. -/
structure Right (parse : Parser) (everySeconds : Nat) (startAt : Option Text) (now : Reading)
    (outcome : Except ScheduledTaskError Reading) : Prop where
  total : outcome ≠ .error .durationPanic
  next : ∀ result, outcome = .ok result →
    ∃ anchor, IsAnchor parse everySeconds startAt now anchor ∧
      IsNextRun everySeconds now anchor result

/-- The seconds between two readings that count for the next run: a second counts if what is added
to the first reading by then is not after the second one. -/
def wholeSeconds (now anchor : Reading) : Int :=
  if anchor.fracAfter ≤ now.frac then now.seconds - anchor.seconds
  else now.seconds - anchor.seconds - 1

/-- A leap second that a difference counts and the addition does not, or the other way round: by the
clock times, and by the order within the second if now is a leap second. -/
def leapError (now anchor : Reading) : Int :=
  if now.frac < nanos then
    if nanos ≤ anchor.frac ∧ now.clock ≤ anchor.clock then -1 else 0
  else
    (if anchor.clock < now.clock then 1
      else if now.clock < anchor.clock then if nanos ≤ anchor.frac then -1 else 0
      else if nanos ≤ anchor.frac then 0 else 1) -
      (if now.frac - nanos < anchor.fracAfter then 1 else 0)

/-- The seconds that a difference counts. -/
def countedSeconds (now anchor : Reading) : Int :=
  max 0 (wholeSeconds now anchor + leapError now anchor)

/-- No interval ends between the seconds that count and the ones counted, or the next run is out of
range. -/
def CountsIntervals (everySeconds : Nat) (now anchor : Reading) : Prop :=
  anchor.seconds + (countedSeconds now anchor / everySeconds + 1) * everySeconds ≤ maxSeconds →
    countedSeconds now anchor / everySeconds = wholeSeconds now anchor / everySeconds

/-! ## Differences -/

section Differences

variable {now anchor result : Reading} {everySeconds : Nat}

theorem wholeSeconds_nonneg (past : ¬anchor.After now) : 0 ≤ wholeSeconds now anchor := by
  have range := anchor.fracRange
  have apart := not_or.mp past
  unfold wholeSeconds Reading.fracAfter nanos at *
  split
  · omega
  · split at * <;> omega

/-- A difference is the seconds that count, the leap seconds that it counts otherwise, and less than
a second. -/
theorem signedDurationSince_bounds (past : ¬anchor.After now) :
    (wholeSeconds now anchor + leapError now anchor) * nanos ≤ now.signedDurationSince anchor ∧
      now.signedDurationSince anchor <
        (wholeSeconds now anchor + leapError now anchor + 1) * nanos := by
  have range := anchor.fracRange
  have range' := now.fracRange
  have apart := not_or.mp past
  unfold wholeSeconds leapError Reading.signedDurationSince Reading.leapBetween Reading.fracAfter
  unfold nanos at *
  generalize now.clock = clock at *
  generalize anchor.clock = clock' at *
  split_ifs <;> omega

/-- A reading that is not after another one is at most a leap second ahead of it. -/
theorem signedDurationSince_gt (past : ¬anchor.After now) :
    -nanos < now.signedDurationSince anchor := by
  have range := anchor.fracRange
  have range' := now.fracRange
  have apart := not_or.mp past
  unfold Reading.signedDurationSince Reading.leapBetween Reading.clock
  unfold nanos at *
  split
  · omega
  · split <;> omega

theorem secondsSince_eq (past : ¬anchor.After now) :
    now.secondsSince anchor = countedSeconds now anchor := by
  have near := signedDurationSince_gt past
  have bounds := signedDurationSince_bounds past
  unfold Reading.secondsSince countedSeconds
  unfold nanos at *
  by_cases positive : 0 ≤ now.signedDurationSince anchor
  · rw [Int.tdiv_eq_ediv_of_nonneg positive]
    omega
  · have negated : now.signedDurationSince anchor = -(-now.signedDurationSince anchor) := by omega
    rw [negated, Int.neg_tdiv, Int.tdiv_eq_ediv_of_nonneg (by omega)]
    omega

theorem countedSeconds_le (past : ¬anchor.After now) :
    countedSeconds now anchor ≤ maxSeconds - minSeconds + 1 := by
  have low := anchor.inRange.1
  have high := now.inRange.2
  have nonneg := wholeSeconds_nonneg past
  unfold countedSeconds wholeSeconds leapError minSeconds maxSeconds at *
  split_ifs at * <;> omega

theorem durationSecondsMax_lt : durationSecondsMax < i64Max := by
  unfold durationSecondsMax i64Max
  decide

end Differences

/-! ## Boundaries -/

section Boundaries

variable {parse : Parser} {now anchor result : Reading} {everySeconds count : Nat}
  {startAt : Option Text} {outcome : Except ScheduledTaskError Reading}

theorem not_afterNow_anchor (past : ¬anchor.After now) :
    ¬AfterNow now (multiple anchor everySeconds 0) := past

/-- A boundary is after now if more seconds than the ones that count lie before it. -/
theorem afterNow_multiple (counted : 0 < count) :
    AfterNow now (multiple anchor everySeconds count) ↔
      wholeSeconds now anchor < count * everySeconds := by
  unfold AfterNow multiple wholeSeconds
  rw [if_neg (Nat.ne_of_gt counted)]
  split <;> constructor <;> intro apart <;> dsimp only at * <;> omega

theorem multiple_injective {count' : Nat} (positive : 0 < everySeconds)
    (same : multiple anchor everySeconds count = multiple anchor everySeconds count') :
    count = count' := by
  have seconds (number : Nat) :
      (multiple anchor everySeconds number).1 = anchor.seconds + number * everySeconds := by
    unfold multiple
    split
    · subst number
      simp
    · rfl
  have same' := congrArg Prod.fst same
  rw [seconds, seconds] at same'
  have products : (count : Int) * everySeconds = count' * everySeconds := by omega
  have nonzero : (everySeconds : Int) ≠ 0 := by omega
  exact Int.ofNat.inj (Int.eq_of_mul_eq_mul_right nonzero products)

/-- The next run is at the boundary after the whole intervals. -/
theorem isNextRun_multiple (past : ¬anchor.After now) (positive : 0 < everySeconds)
    (counted : 0 < count)
    (here : multiple anchor everySeconds count = (result.seconds, result.frac)) :
    IsNextRun everySeconds now anchor result ↔
      (count : Int) = wholeSeconds now anchor / everySeconds + 1 := by
  have wide : (0 : Int) < everySeconds := by omega
  have nonneg := Int.ediv_nonneg (wholeSeconds_nonneg past) (Int.le_of_lt wide)
  constructor
  · rintro ⟨count', here', later, least⟩
    obtain rfl : count' = count := multiple_injective positive (here'.trans here.symm)
    have upper : wholeSeconds now anchor / everySeconds < count' :=
      Int.ediv_lt_of_lt_mul wide ((afterNow_multiple counted).mp later)
    by_contra apart
    obtain ⟨fewer, fewer_eq⟩ :=
      Int.eq_ofNat_of_zero_le (show 0 ≤ wholeSeconds now anchor / everySeconds + 1 by omega)
    refine least fewer (by omega) ((afterNow_multiple (by omega)).mpr ?_)
    rw [← fewer_eq]
    exact Int.lt_ediv_add_one_mul_self _ wide
  · intro boundary
    refine ⟨count, here, (afterNow_multiple counted).mpr ?_, ?_⟩
    · rw [boundary]
      exact Int.lt_ediv_add_one_mul_self _ wide
    · intro fewer fewer_lt later
      by_cases none : fewer = 0
      · subst fewer
        exact not_afterNow_anchor past later
      · have later' := (afterNow_multiple (Nat.pos_of_ne_zero none)).mp later
        have upper := Int.ediv_lt_of_lt_mul wide later'
        omega

/-- The anchor itself is the next run if it is after now. -/
theorem isNextRun_anchor (later : anchor.After now) :
    IsNextRun everySeconds now anchor anchor :=
  ⟨0, by simp [multiple], later, by omega⟩

theorem Right.of_error {error : ScheduledTaskError} (failed : outcome = .error error)
    (total : error ≠ .durationPanic) : Right parse everySeconds startAt now outcome where
  total := by
    rw [failed]
    simpa using total
  next := by simp [failed]

end Boundaries

/-! ## The outcome -/

section Outcome

variable {parse : Parser} {now anchor result : Reading} {everySeconds : Nat} {startAt : Option Text}

/-- The offset of the next run is an accepted duration: one interval, or at most twice the range of
dates. -/
theorem offset_le (past : ¬anchor.After now) (positive : 0 < everySeconds)
    (accepted : everySeconds ≤ durationSecondsMax) :
    (countedSeconds now anchor / everySeconds + 1) * everySeconds ≤ durationSecondsMax := by
  have bound := countedSeconds_le past
  have nonneg : 0 ≤ countedSeconds now anchor := Int.le_max_left _ _
  have wide : (0 : Int) < everySeconds := by omega
  have lower := Int.ediv_mul_le (countedSeconds now anchor) (Int.ne_of_gt wide)
  have split : (countedSeconds now anchor / everySeconds + 1) * (everySeconds : Int) =
      countedSeconds now anchor / everySeconds * everySeconds + everySeconds := by
    rw [Int.add_mul, Int.one_mul]
  rw [split]
  by_cases short : countedSeconds now anchor < everySeconds
  · rw [Int.ediv_eq_zero_of_lt nonneg short]
    omega
  · unfold durationSecondsMax i64Max minSeconds maxSeconds at *
    omega

/-- From a start that is not after now: the boundary after the intervals counted, or no date. -/
theorem nextFromAnchor_past (past : ¬anchor.After now) (positive : 0 < everySeconds)
    (accepted : everySeconds ≤ durationSecondsMax) :
    nextFromAnchor everySeconds now anchor =
      anchor.checkedAddSeconds
        ((countedSeconds now anchor / everySeconds + 1) * everySeconds) := by
  have nonneg : 0 ≤ countedSeconds now anchor := Int.le_max_left _ _
  have offset := offset_le past positive accepted
  have small : ¬i64Max < (countedSeconds now anchor / everySeconds + 1) * everySeconds := by
    unfold durationSecondsMax i64Max at *
    omega
  unfold nextFromAnchor
  rw [if_neg past, secondsSince_eq past]
  dsimp only
  rw [Int.tdiv_eq_ediv_of_nonneg nonneg, if_neg small]

/-- An accepted positive offset: the date, or none. -/
theorem checkedAddSeconds_cases (start : Reading) {seconds : Int}
    (accepted : seconds ≤ durationSecondsMax) (positive : 0 ≤ seconds) :
    (start.seconds + seconds ≤ maxSeconds ∧
        ∃ result : Reading, start.checkedAddSeconds seconds = .ok result ∧
          result.seconds = start.seconds + seconds ∧ result.frac = start.fracAfter) ∨
      maxSeconds < start.seconds + seconds ∧
        start.checkedAddSeconds seconds = .error .timestampOverflow := by
  have low := start.inRange.1
  have small : ¬durationSecondsMax < seconds := by omega
  unfold Reading.checkedAddSeconds
  rw [if_neg small]
  by_cases inRange : start.seconds + seconds ≤ maxSeconds
  · refine .inl ⟨inRange, ?_⟩
    rw [dif_pos ⟨by omega, inRange⟩]
    exact ⟨_, rfl, rfl, rfl⟩
  · refine .inr ⟨by omega, ?_⟩
    rw [dif_neg fun both => inRange both.2]

/-- The next run from a start that is not after now is right if the difference counts the whole
intervals. -/
theorem right_past {text : Text} (started : startAt = some text) (parsed : parse text = some anchor)
    (past : ¬anchor.After now) (positive : 0 < everySeconds)
    (accepted : everySeconds ≤ durationSecondsMax) :
    Right parse everySeconds startAt now (nextFromAnchor everySeconds now anchor) ↔
      CountsIntervals everySeconds now anchor := by
  have nonneg : 0 ≤ countedSeconds now anchor := Int.le_max_left _ _
  have wide : (0 : Int) < everySeconds := by omega
  have quotient := Int.ediv_nonneg nonneg (Int.le_of_lt wide)
  have offset := offset_le past positive accepted
  obtain ⟨periods, periods_eq⟩ := Int.eq_ofNat_of_zero_le
    (show 0 ≤ countedSeconds now anchor / everySeconds + 1 by omega)
  have counted : 0 < periods := by omega
  have isAnchor (other : Reading) : IsAnchor parse everySeconds startAt now other ↔
      other = anchor := by
    unfold IsAnchor
    rw [started]
    simp [parsed, eq_comm]
  unfold CountsIntervals
  rw [nextFromAnchor_past past positive accepted]
  have product : 0 ≤ (countedSeconds now anchor / everySeconds + 1) * (everySeconds : Int) :=
    Int.mul_nonneg (by omega) (Int.le_of_lt wide)
  obtain ⟨inRange, result, added, seconds, frac⟩ | ⟨outside, failed⟩ :=
    checkedAddSeconds_cases anchor offset product
  · have here : multiple anchor everySeconds periods = (result.seconds, result.frac) := by
      unfold multiple
      rw [if_neg (Nat.ne_of_gt counted), seconds, frac, periods_eq]
    have boundary := isNextRun_multiple past positive counted here
    rw [added]
    constructor
    · intro right _
      obtain ⟨other, other_eq, next⟩ := right.next result rfl
      rw [(isAnchor other).mp other_eq] at next
      have periods_eq' := boundary.mp next
      omega
    · intro counts
      have same := counts inRange
      refine ⟨by simp, fun other other_eq => ?_⟩
      obtain rfl : result = other := by simpa using other_eq
      exact ⟨anchor, (isAnchor anchor).mpr rfl, boundary.mpr (by omega)⟩
  · constructor
    · intro _ inRange
      omega
    · intro _
      exact .of_error failed (by simp)

/-- Without a start time the anchor is after now. -/
theorem right_unstarted (positive : 0 < everySeconds)
    (accepted : everySeconds ≤ durationSecondsMax) :
    Right parse everySeconds none now
      ((intervalAnchor parse everySeconds none now).bind
        (nextFromAnchor everySeconds now)) := by
  unfold intervalAnchor
  obtain ⟨_, anchor, added, seconds, frac⟩ | ⟨_, failed⟩ :=
    checkedAddSeconds_cases now accepted (by omega)
  · have later : anchor.After now := .inl (by omega)
    dsimp only
    rw [added]
    unfold Except.bind nextFromAnchor
    dsimp only
    rw [if_pos later]
    refine ⟨by simp, fun other other_eq => ?_⟩
    obtain rfl : anchor = other := by simpa using other_eq
    refine ⟨anchor, ?_, isNextRun_anchor later⟩
    unfold IsAnchor multiple
    rw [seconds, frac, if_neg Nat.one_ne_zero]
    simp
  · dsimp only
    rw [failed]
    exact .of_error rfl (by simp)

end Outcome

/-- The next run is total and right where the interval is refused or makes a duration, and the
difference of an earlier start counts the whole intervals. -/
theorem intervalNextRun_right_iff (parse : Parser) (everySeconds : Nat) (startAt : Option Text)
    (now : Reading) :
    Right parse everySeconds startAt now (intervalNextRun parse everySeconds startAt now) ↔
      (everySeconds = 0 ∨ i64Max < everySeconds ∨ everySeconds ≤ durationSecondsMax) ∧
        ∀ text anchor, startAt = some text → parse text = some anchor → ¬anchor.After now →
          0 < everySeconds → everySeconds ≤ durationSecondsMax →
            CountsIntervals everySeconds now anchor := by
  unfold intervalNextRun
  by_cases refused : i64Max < everySeconds ∨ everySeconds = 0
  · rw [if_pos refused]
    have failed : (Except.error (.invalidInterval everySeconds) :
        Except ScheduledTaskError Reading) = .error (.invalidInterval everySeconds) := rfl
    refine ⟨fun _ => ⟨by omega, ?_⟩, fun _ => .of_error failed nofun⟩
    intro text anchor _ _ _ positive accepted
    have large := durationSecondsMax_lt
    omega
  rw [if_neg refused]
  by_cases panics : durationSecondsMax < everySeconds
  · rw [if_pos panics]
    refine ⟨fun right => absurd rfl right.total, fun ⟨accepted, _⟩ => ?_⟩
    omega
  rw [if_neg panics]
  have positive : 0 < everySeconds := by omega
  have accepted : (everySeconds : Int) ≤ durationSecondsMax := by omega
  cases startAt with
  | none =>
    have right : Right parse everySeconds none now
        ((intervalAnchor parse everySeconds none now).bind (nextFromAnchor everySeconds now)) :=
      right_unstarted positive accepted
    refine ⟨fun _ => ⟨by omega, ?_⟩, fun _ => right⟩
    intro text anchor started
    contradiction
  | some text =>
    cases parsed : parse text with
    | none =>
      have failed : (intervalAnchor parse everySeconds (some text) now >>=
          nextFromAnchor everySeconds now) =
          .error (.invalidTimestamp "schedule.start_at".toList text) := by
        unfold intervalAnchor
        dsimp only
        rw [parsed]
        rfl
      refine ⟨fun _ => ⟨by omega, ?_⟩, fun _ => .of_error failed (by simp)⟩
      rintro text' anchor started parsed'
      obtain rfl : text = text' := by simpa using started
      rw [parsed] at parsed'
      contradiction
    | some anchor =>
      have started : (intervalAnchor parse everySeconds (some text) now >>=
          nextFromAnchor everySeconds now) = nextFromAnchor everySeconds now anchor := by
        unfold intervalAnchor
        dsimp only
        rw [parsed]
        rfl
      rw [started]
      by_cases later : anchor.After now
      · have first : nextFromAnchor everySeconds now anchor = .ok anchor := by
          unfold nextFromAnchor
          rw [if_pos later]
        rw [first]
        refine ⟨fun _ => ⟨by omega, ?_⟩, fun _ => ⟨by simp, fun other other_eq => ?_⟩⟩
        · rintro text' anchor' started' parsed' past
          obtain rfl : text = text' := by simpa using started'
          obtain rfl : anchor = anchor' := by simpa [parsed] using parsed'
          exact absurd later past
        · obtain rfl : anchor = other := by simpa using other_eq
          exact ⟨anchor, parsed, isNextRun_anchor later⟩
      · rw [right_past rfl parsed later positive accepted]
        refine ⟨fun counts => ⟨by omega, ?_⟩, fun both => ?_⟩
        · rintro text' anchor' started' parsed' _ _ _
          obtain rfl : text = text' := by simpa using started'
          obtain rfl : anchor = anchor' := by simpa [parsed] using parsed'
          exact counts
        · exact both.2 text anchor rfl parsed later positive accepted

/-- The start of 2024. -/
def newYear : Reading := ⟨1704067200, 0, by decide, by decide⟩

/-- One second more than the largest duration is accepted and panics. -/
theorem intervalNextRun_panics :
    ¬Right (fun _ => none) 9223372036854776 none newYear
      (intervalNextRun (fun _ => none) 9223372036854776 none newYear) :=
  fun right => right.total (by decide)

end Foco.IntervalRuns
