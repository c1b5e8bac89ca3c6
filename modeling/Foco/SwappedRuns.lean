import Foco.RunMasking

/-!
Two texts that differ in the run behind one marker. What is masked of the first text before the run
and behind it is masked of the second one too, if the new run brings no marker; and as long as the
run itself is not masked, both have the same masks before it.
-/
namespace Foco.RunMasking
open Foco.FirstOccurrence

universe u

variable {α : Type u}

/-- Two texts with runs of their own at one place, behind a marker. -/
structure Swap (ends : α → Bool) (markers : List (List α)) (text text' : List α)
    (start size size' : Nat) : Prop where
  front : ∀ i < start, text[i]? = text'[i]?
  back : ∀ j, text[start + size + j]? = text'[start + size' + j]?
  filled : 0 < size
  filled' : 0 < size'
  run : ∀ j < size, ∃ item, text[start + j]? = some item ∧ ends item = false
  run' : ∀ j < size', ∃ item, text'[start + j]? = some item ∧ ends item = false
  stops : ∀ item, text[start + size]? = some item → ends item = true
  behind : ∃ marker ∈ markers, ∃ o, OccursAt text marker o ∧ o + marker.length = start

/-- No marker starts in the new run. -/
def Fresh (markers : List (List α)) (text' : List α) (start size' : Nat) : Prop :=
  ∀ marker ∈ markers, ∀ j < size', ¬OccursAt text' marker (start + j)

section
variable {ends : α → Bool} {markers : List (List α)} {text text' : List α}
  {start size size' : Nat}

theorem Swap.symm (swap : Swap ends markers text text' start size size') :
    Swap ends markers text' text start size' size where
  front i before := (swap.front i before).symm
  back j := (swap.back j).symm
  filled := swap.filled'
  filled' := swap.filled
  run := swap.run'
  run' := swap.run
  stops item found := swap.stops item <| by
    have same := swap.back 0
    rwa [Nat.add_zero, Nat.add_zero, found] at same
  behind := by
    obtain ⟨marker, mem, o, occurs, reached⟩ := swap.behind
    refine ⟨marker, mem, o, occursAt_iff.mpr fun k less => ?_, reached⟩
    rw [← swap.front (o + k) (by omega)]
    exact occursAt_iff.mp occurs k less

/-- A marker that starts before the run ends before it. -/
theorem Swap.reaches (swap : Swap ends markers text text' start size size')
    (apart : Markers ends markers) {marker : List α} (mem : marker ∈ markers) {i : Nat}
    (occurs : OccursAt text marker i) (before : i < start) : i + marker.length ≤ start := by
  obtain ⟨first, mem', o, occurs', rfl⟩ := swap.behind
  exact apart.not_straddle mem' mem occurs' occurs before

theorem Swap.occurs_front (swap : Swap ends markers text text' start size size')
    (apart : Markers ends markers) {marker : List α} (mem : marker ∈ markers) {i : Nat}
    (before : i < start) (occurs : OccursAt text marker i) : OccursAt text' marker i := by
  have inside := swap.reaches apart mem occurs before
  refine occursAt_iff.mpr fun k less => ?_
  rw [← swap.front (i + k) (by omega)]
  exact occursAt_iff.mp occurs k less

theorem Swap.occurs_back (swap : Swap ends markers text text' start size size') {marker : List α}
    {j : Nat} (occurs : OccursAt text marker (start + size + j)) :
    OccursAt text' marker (start + size' + j) := by
  refine occursAt_iff.mpr fun k less => ?_
  rw [Nat.add_assoc, ← swap.back (j + k), ← Nat.add_assoc]
  exact occursAt_iff.mp occurs k less

theorem Swap.inRun_front (swap : Swap ends markers text text' start size size') {a i : Nat}
    (before : i < start) (run : InRun ends text a i) : InRun ends text' a i :=
  ⟨run.le, fun k low high => by
    rw [← swap.front k (by omega)]
    exact run.2 k low high⟩

/-- A run that reaches the swapped one goes on to its end. -/
theorem Swap.inRun_own (swap : Swap ends markers text text' start size size') {a j : Nat}
    (upTo : a ≤ start) (inside : j < size') (run : InRun ends text a start) :
    InRun ends text' a (start + j) := by
  refine ⟨by omega, fun k low high => ?_⟩
  obtain before | behind := Nat.lt_or_ge k start
  · rw [← swap.front k before]
    exact run.2 k low before.le
  · obtain ⟨m, rfl⟩ := Nat.exists_eq_add_of_le behind
    exact swap.run' m (by omega)

theorem Swap.inRun_back (swap : Swap ends markers text text' start size size') {a j : Nat}
    (run : InRun ends text (start + size + a) (start + size + j)) :
    InRun ends text' (start + size' + a) (start + size' + j) := by
  refine ⟨by have := run.le; omega, fun k low high => ?_⟩
  obtain ⟨m, rfl⟩ := Nat.exists_eq_add_of_le ((Nat.le_add_right _ a).trans low)
  rw [← swap.back m]
  exact run.2 _ (by omega) (by omega)

/-- A run that starts before the end of the swapped one does not reach behind it. -/
theorem Swap.not_inRun_over (swap : Swap ends markers text text' start size size') {a j : Nat}
    (before : a ≤ start + size) (run : InRun ends text a (start + size + j)) : False :=
  not_inRun_across run before (Nat.le_add_right _ _) swap.stops

theorem Swap.inRun_inside (swap : Swap ends markers text text' start size size') {i : Nat}
    (low : start ≤ i) (inside : i < start + size) : InRun ends text start i := by
  refine ⟨low, fun k above high => ?_⟩
  obtain ⟨m, rfl⟩ := Nat.exists_eq_add_of_le above
  exact swap.run m (by omega)

theorem Swap.item_behind (swap : Swap ends markers text text' start size size') {i : Nat}
    (upTo : i ≤ start) (goesOn : ∃ item, text'[i]? = some item ∧ ends item = false) :
    ∃ item, text[i]? = some item ∧ ends item = false := by
  obtain before | rfl := Nat.lt_or_eq_of_le upTo
  · rwa [swap.front i before]
  · exact swap.run 0 swap.filled

/-- A nested marker of the second text is one of the first. -/
theorem Swap.unnested (swap : Swap ends markers text text' start size size')
    (apart : Markers ends markers) (fresh : Fresh markers text' start size')
    (unnested : Unnested ends markers text) : Unnested ends markers text' := by
  intro other mem i occurs open_ goesOn marker mem' o occurs' run
  have le := run.le
  obtain before | behind := Nat.lt_or_ge i start
  · have inside := swap.symm.reaches apart mem occurs before
    exact unnested other mem i (swap.symm.occurs_front apart mem before occurs) open_
      (swap.item_behind inside goesOn) marker mem' o
      (swap.symm.occurs_front apart mem' (by omega) occurs') (swap.symm.inRun_front before run)
  obtain ⟨j, rfl⟩ := Nat.exists_eq_add_of_le behind
  obtain inside | behind := Nat.lt_or_ge j size'
  · exact fresh other mem j inside occurs
  obtain ⟨j, rfl⟩ := Nat.exists_eq_add_of_le behind
  rw [← Nat.add_assoc] at *
  -- The run in which the marker starts is behind the new run, and so is its own marker.
  have late : start + size' < o + marker.length := by
    by_contra early
    exact swap.symm.not_inRun_over (by omega) run
  obtain before | behind := Nat.lt_or_ge o start
  · have upTo := swap.symm.reaches apart mem' occurs' before
    omega
  obtain ⟨m, rfl⟩ := Nat.exists_eq_add_of_le behind
  obtain inside | behind := Nat.lt_or_ge m size'
  · exact fresh marker mem' m inside occurs'
  obtain ⟨m, rfl⟩ := Nat.exists_eq_add_of_le behind
  rw [← Nat.add_assoc] at *
  refine unnested other mem (start + size + j) (swap.symm.occurs_back occurs) open_ ?_ marker mem'
    (start + size + m) (swap.symm.occurs_back occurs') ?_
  · rw [Nat.add_assoc] at goesOn ⊢
    rwa [swap.back]
  · rw [Nat.add_assoc] at run ⊢
    exact swap.symm.inRun_back run

/-! ## The second text has at least the masks of the first -/

structure Ahead (start size size' : Nat) (marked marked' : Marked α) : Prop where
  front : ∀ i < start, Masked marked i → Masked marked' i
  back : ∀ j, Masked marked (start + size + j) → Masked marked' (start + size' + j)
  own : Masked marked start → ∀ j < size', Masked marked' (start + j)

variable {marked marked' : Marked α}

theorem Ahead.visible_front (swap : Swap ends markers (plain marked) (plain marked') start size size')
    (apart : Markers ends markers) (ahead : Ahead start size size' marked marked') {marker : List α}
    (mem : marker ∈ markers) {i : Nat} (before : i < start) (visible : VisibleAt marked' marker i) :
    VisibleAt marked marker i := by
  have inside := swap.symm.reaches apart mem visible.1 before
  exact ⟨swap.symm.occurs_front apart mem before visible.1, fun k less masked =>
    visible.2 k less (ahead.front (i + k) (by omega) masked)⟩

theorem Ahead.visible_back (swap : Swap ends markers (plain marked) (plain marked') start size size')
    (ahead : Ahead start size size' marked marked') {marker : List α} {j : Nat}
    (visible : VisibleAt marked' marker (start + size' + j)) :
    VisibleAt marked marker (start + size + j) := by
  refine ⟨swap.symm.occurs_back visible.1, fun k less masked => visible.2 k less ?_⟩
  rw [Nat.add_assoc] at masked ⊢
  exact ahead.back (j + k) masked

variable [DecidableEq α]

/-- The run behind the first visible occurrence is masked. -/
theorem masked_of_first {marker : List α} {o i : Nat} (visible : VisibleAt marked marker o)
    (first : ∀ k < o, ¬VisibleAt marked marker k)
    (run : InRun ends (plain marked) (o + marker.length) i) :
    Masked (maskFirst ends marker marked) i := by
  obtain ⟨-, never⟩ | ⟨o', visible', first', inside, same⟩ := maskFirst_cases ends marker marked
  · exact absurd visible (never o)
  · obtain less | rfl | less := Nat.lt_trichotomy o o'
    · exact absurd visible (first' o less)
    · rw [same, masked_maskFrom ends inside]
      exact .inr run
    · exact absurd visible' (first o' less)

/-- What masking one marker adds to the first text, it adds to the second one, unless it is
masked there already. -/
theorem Ahead.maskFirst (apart : Markers ends markers)
    (swap : Swap ends markers (plain marked) (plain marked') start size size')
    (fresh : Fresh markers (plain marked') start size')
    (unnested : Unnested ends markers (plain marked))
    (sound : Sound ends markers marked') (closed : Closed ends marked')
    (ahead : Ahead start size size' marked marked') {marker : List α} (mem : marker ∈ markers) :
    Ahead start size size' (maskFirst ends marker marked) (maskFirst ends marker marked') := by
  have keep {i : Nat} (masked : Masked marked' i) :
      Masked (RunMasking.maskFirst ends marker marked') i := masked_maskFirst marker masked
  obtain ⟨same, -⟩ | ⟨o, visible, first, inside, same⟩ := maskFirst_cases ends marker marked
  · rw [same]
    exact ⟨fun i before masked => keep (ahead.front i before masked),
      fun j masked => keep (ahead.back j masked), fun masked j less => keep (ahead.own masked j less)⟩
  have unnested' := swap.unnested apart fresh unnested
  have filled := List.length_pos_iff.mpr (apart.filled marker mem)
  have hidden {o' i : Nat} (occurs : OccursAt (plain marked') marker o')
      (firstIfVisible : VisibleAt marked' marker o' → ∀ k < o', ¬VisibleAt marked' marker k)
      (run : InRun ends (plain marked') (o' + marker.length) i) :
      Masked (RunMasking.maskFirst ends marker marked') i := by
    by_cases visible' : VisibleAt marked' marker o'
    · exact masked_of_first visible' (firstIfVisible visible') run
    · exact keep (masked_of_hidden apart sound closed unnested' mem occurs visible' run)
  have added : (∀ i < start, InRun ends (plain marked) (o + marker.length) i →
        Masked (RunMasking.maskFirst ends marker marked') i) ∧
      (∀ j, InRun ends (plain marked) (o + marker.length) (start + size + j) →
        Masked (RunMasking.maskFirst ends marker marked') (start + size' + j)) ∧
      (InRun ends (plain marked) (o + marker.length) start → ∀ j < size',
        Masked (RunMasking.maskFirst ends marker marked') (start + j)) := by
    obtain before | behind := Nat.lt_or_ge o start
    · -- A marker before the run is the first visible one in both texts, or it is hidden.
      have upTo := swap.reaches apart mem visible.1 before
      have masks {i : Nat} := hidden (i := i) (swap.occurs_front apart mem before visible.1)
        fun _ k less visible' => first k less
          (ahead.visible_front swap apart mem (less.trans before) visible')
      exact ⟨fun i before run => masks (swap.inRun_front before run),
        fun j run => (swap.not_inRun_over (by omega) run).elim,
        fun run j less => masks (swap.inRun_own upTo less run)⟩
    obtain ⟨k, rfl⟩ := Nat.exists_eq_add_of_le behind
    obtain own | behind := Nat.lt_or_ge k size
    · -- A marker in the run masks nothing outside of it: it would be nested otherwise.
      refine ⟨fun i before run => absurd run.le (by omega), fun j run => ?_,
        fun run => absurd run.le (by omega)⟩
      by_cases upTo : start + k + marker.length ≤ start + size
      · exact (swap.not_inRun_over upTo run).elim
      obtain ⟨stop, found⟩ : ∃ m, m + k = size := ⟨size - k, by omega⟩
      have less : stop < marker.length := by omega
      have item := occursAt_iff.mp visible.1 stop less
      rw [show start + k + stop = start + size by omega, List.getElem?_eq_getElem less] at item
      have stops := swap.stops _ item
      obtain ⟨first, mem', o', occurs, reached⟩ := swap.behind
      refine absurd ?_ (unnested marker mem (start + k) visible.1 ⟨_, List.getElem_mem _, stops⟩
        (run.2 _ (Nat.le_refl _) run.le) first mem' o' occurs)
      rw [reached]
      exact swap.inRun_inside (Nat.le_add_right _ _) (by omega)
    obtain ⟨k, rfl⟩ := Nat.exists_eq_add_of_le behind
    -- A marker behind the run: nothing before it is visible in the second text either.
    rw [← Nat.add_assoc] at *
    have masks {i : Nat} := hidden (i := i) (swap.occurs_back visible.1) fun _ m less visible' => by
      obtain before | behind := Nat.lt_or_ge m start
      · exact first m (by omega) (ahead.visible_front swap apart mem before visible')
      obtain ⟨m, rfl⟩ := Nat.exists_eq_add_of_le behind
      obtain own | behind := Nat.lt_or_ge m size'
      · exact fresh marker mem m own visible'.1
      obtain ⟨m, rfl⟩ := Nat.exists_eq_add_of_le behind
      rw [← Nat.add_assoc] at visible'
      exact first _ (by omega) (ahead.visible_back swap visible')
    refine ⟨fun i before run => absurd run.le (by omega), fun j run => masks ?_,
      fun run => absurd run.le (by omega)⟩
    rw [Nat.add_assoc] at run ⊢
    exact swap.inRun_back run
  obtain ⟨front, back, own⟩ := added
  rw [same]
  refine ⟨fun i before masked => ?_, fun j masked => ?_, fun masked j less => ?_⟩
  · exact ((masked_maskFrom ends inside i).mp masked).elim
      (fun masked => keep (ahead.front i before masked)) (front i before)
  · exact ((masked_maskFrom ends inside _).mp masked).elim
      (fun masked => keep (ahead.back j masked)) (back j)
  · exact ((masked_maskFrom ends inside _).mp masked).elim
      (fun masked => keep (ahead.own masked j less)) fun run => own run j less

/-- What masking a marker does before a position: it masks a run behind a marker that is visible
there, or nothing. -/
theorem maskFirst_before (ends : α → Bool) (marked : Marked α) {marker : List α}
    (filled : marker ≠ []) (start : Nat) :
    (∃ o < start, VisibleAt marked marker o ∧ (∀ k < o, ¬VisibleAt marked marker k) ∧
      ∀ i, Masked (maskFirst ends marker marked) i ↔
        Masked marked i ∨ InRun ends (plain marked) (o + marker.length) i) ∨
    (∀ o < start, ¬VisibleAt marked marker o) ∧
      ∀ i ≤ start, Masked (maskFirst ends marker marked) i ↔ Masked marked i := by
  have long := List.length_pos_iff.mpr filled
  obtain ⟨same, never⟩ | ⟨o, visible, first, inside, same⟩ := maskFirst_cases ends marker marked
  · exact .inr ⟨fun o _ => never o, fun i _ => by rw [same]⟩
  · obtain before | behind := Nat.lt_or_ge o start
    · exact .inl ⟨o, before, visible, first, fun i => by rw [same, masked_maskFrom ends inside]⟩
    · refine .inr ⟨fun k less => first k (by omega), fun i upTo => ?_⟩
      rw [same, masked_maskFrom ends inside]
      exact or_iff_left fun run => absurd run.le (by omega)

/-- The masks before the run are the same, and the run is shown in both texts. -/
structure SameFront (start : Nat) (marked marked' : Marked α) : Prop where
  front : ∀ i < start, Masked marked i ↔ Masked marked' i
  shown : ¬Masked marked start
  shown' : ¬Masked marked' start

omit [DecidableEq α] in
theorem SameFront.visible (apart : Markers ends markers)
    (swap : Swap ends markers (plain marked) (plain marked') start size size')
    (same : SameFront start marked marked') {marker : List α} (mem : marker ∈ markers) {o : Nat}
    (before : o < start) : VisibleAt marked marker o ↔ VisibleAt marked' marker o := by
  constructor
  · intro visible
    have inside := swap.reaches apart mem visible.1 before
    exact ⟨swap.occurs_front apart mem before visible.1, fun k less masked =>
      visible.2 k less ((same.front (o + k) (by omega)).mpr masked)⟩
  · intro visible
    have inside := swap.symm.reaches apart mem visible.1 before
    exact ⟨swap.symm.occurs_front apart mem before visible.1, fun k less masked =>
      visible.2 k less ((same.front (o + k) (by omega)).mp masked)⟩

theorem SameFront.maskFirst (apart : Markers ends markers)
    (swap : Swap ends markers (plain marked) (plain marked') start size size')
    (same : SameFront start marked marked') {marker : List α} (mem : marker ∈ markers)
    (shown : ¬Masked (maskFirst ends marker marked) start) :
    SameFront start (maskFirst ends marker marked) (maskFirst ends marker marked') := by
  have filled := apart.filled marker mem
  have sees {o : Nat} (before : o < start) := same.visible apart swap mem before
  obtain ⟨o, before, visible, first, masks⟩ | ⟨never, keeps⟩ :=
    maskFirst_before ends marked filled start <;>
  obtain ⟨o', before', visible', first', masks'⟩ | ⟨never', keeps'⟩ :=
    maskFirst_before ends marked' filled start
  · obtain rfl : o = o' := by
      obtain less | same | less := Nat.lt_trichotomy o o'
      · exact absurd ((sees before).mp visible) (first' o less)
      · exact same
      · exact absurd ((sees before').mpr visible') (first o' less)
    have upTo := swap.reaches apart mem visible.1 before
    refine ⟨fun i front => ?_, shown, fun masked => ?_⟩
    · rw [masks, masks', same.front i front]
      exact or_congr_right ⟨swap.inRun_front front, swap.symm.inRun_front front⟩
    · rw [masks] at shown
      rw [masks'] at masked
      refine masked.elim same.shown' fun run => shown (.inr ?_)
      exact swap.symm.inRun_own upTo swap.filled run
  · exact absurd ((sees before).mp visible) (never' o before)
  · exact absurd ((sees before').mpr visible') (never o' before')
  · refine ⟨fun i front => ?_, shown, ?_⟩
    · rw [keeps i front.le, keeps' i front.le, same.front i front]
    · rw [keeps' start (Nat.le_refl start)]
      exact same.shown'

end

end Foco.RunMasking
