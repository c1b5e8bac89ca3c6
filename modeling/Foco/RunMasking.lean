import Foco.FirstOccurrence

/-!
Masking what stands behind a marker. Markers are searched one after the other; at the first place
where a marker is still visible the run behind it is masked, up to an item that ends runs. A masked
item stays where it is and is no longer visible, so that everything can be said about positions of
the text that was given.
-/
namespace Foco.RunMasking
open Foco.FirstOccurrence

universe u

variable {α : Type u}

/-! ## Texts with masked items -/

/-- A text in which some items are masked. -/
abbrev Marked (α : Type u) := List (α × Bool)

def unmarked (text : List α) : Marked α := text.map fun item => (item, false)

def plain (text : Marked α) : List α := text.map Prod.fst

/-- The item at a position is masked. -/
def Masked (text : Marked α) (i : Nat) : Prop := text[i]?.map Prod.snd = some true

/-- Masks the items before the first one that ends runs. -/
def maskRun (ends : α → Bool) : Marked α → Marked α
  | [] => []
  | (item, masked) :: rest =>
    if ends item then (item, masked) :: rest else (item, true) :: maskRun ends rest

/-- The list stands at a position. -/
def OccursAt (text marker : List α) (i : Nat) : Prop := marker <+: text.drop i

/-- No run ends between a position and another one. -/
def InRun (ends : α → Bool) (text : List α) (start i : Nat) : Prop :=
  start ≤ i ∧ ∀ k, start ≤ k → k ≤ i → ∃ item, text[k]? = some item ∧ ends item = false

@[simp] theorem plain_unmarked (text : List α) : plain (unmarked text) = text :=
  (List.map_map ..).trans (List.map_id text)

@[simp] theorem length_unmarked (text : List α) : (unmarked text).length = text.length :=
  List.length_map ..

theorem getElem?_plain (text : Marked α) (i : Nat) : (plain text)[i]? = text[i]?.map Prod.fst :=
  List.getElem?_map ..

theorem not_masked_unmarked (text : List α) (i : Nat) : ¬Masked (unmarked text) i := by
  unfold Masked unmarked
  rw [List.getElem?_map]
  cases text[i]? <;> simp

theorem occursAt_iff {text marker : List α} {i : Nat} :
    OccursAt text marker i ↔ ∀ k < marker.length, text[i + k]? = marker[k]? := by
  unfold OccursAt
  rw [List.prefix_iff_getElem?]
  simp only [List.getElem?_drop]
  exact forall₂_congr fun k less => by rw [List.getElem?_eq_getElem less]

section Runs

variable {ends : α → Bool} {text : List α} {start middle i : Nat}

theorem InRun.le (run : InRun ends text start i) : start ≤ i := run.1

theorem InRun.starts (run : InRun ends text start i) (later : start ≤ middle) (upTo : middle ≤ i) :
    InRun ends text middle i :=
  ⟨upTo, fun k low high => run.2 k (later.trans low) high⟩

theorem InRun.before (run : InRun ends text start i) (later : start ≤ middle) (upTo : middle ≤ i) :
    InRun ends text start middle :=
  ⟨later, fun k low high => run.2 k low (high.trans upTo)⟩

theorem InRun.trans (run : InRun ends text start middle) (more : InRun ends text middle i) :
    InRun ends text start i :=
  ⟨run.1.trans more.1, fun k low high => by
    obtain upTo | above := Nat.le_total k middle
    · exact run.2 k low upTo
    · exact more.2 k above high⟩

theorem InRun.item (run : InRun ends text start i) :
    ∃ item, text[i]? = some item ∧ ends item = false :=
  run.2 i run.1 (Nat.le_refl i)

theorem not_inRun_across (run : InRun ends text start i) (low : start ≤ middle) (high : middle ≤ i)
    (stops : ∀ item, text[middle]? = some item → ends item = true) : False := by
  obtain ⟨item, found, goesOn⟩ := run.2 middle low high
  exact Bool.noConfusion ((stops item found).symm.trans goesOn)

end Runs

/-! ## What masking a run does -/

section MaskRun

variable (ends : α → Bool)

@[simp] theorem plain_maskRun (text : Marked α) : plain (maskRun ends text) = plain text := by
  induction text with
  | nil => rfl
  | cons head rest ih =>
    obtain ⟨item, masked⟩ := head
    unfold maskRun
    split
    · rfl
    · simp only [plain, List.map_cons] at ih ⊢
      rw [ih]

theorem masked_maskRun (text : Marked α) (i : Nat) :
    Masked (maskRun ends text) i ↔ Masked text i ∨ InRun ends (plain text) 0 i := by
  induction text generalizing i with
  | nil =>
    refine ⟨.inl, fun masked => masked.elim id fun run => ?_⟩
    obtain ⟨item, found, -⟩ := run.item
    cases found
  | cons head rest ih =>
    obtain ⟨item, masked⟩ := head
    unfold maskRun
    split
    · next stops =>
      refine ⟨.inl, fun masked => masked.elim id fun run => ?_⟩
      obtain ⟨first, found, goesOn⟩ := run.2 0 (Nat.le_refl 0) (Nat.zero_le i)
      obtain rfl := Option.some.inj found
      exact absurd (stops.symm.trans goesOn) (by decide)
    · next goesOn =>
      have here : ∃ first, (plain ((item, masked) :: rest))[0]? = some first ∧ ends first = false :=
        ⟨item, rfl, Bool.eq_false_iff.mpr goesOn⟩
      cases i with
      | zero =>
        refine iff_of_true rfl (.inr ⟨Nat.le_refl 0, fun k _ upTo => ?_⟩)
        obtain rfl := Nat.le_zero.mp upTo
        exact here
      | succ i =>
        have later : InRun ends (plain ((item, masked) :: rest)) 0 (i + 1) ↔
            InRun ends (plain rest) 0 i := by
          constructor
          · exact fun run => ⟨Nat.zero_le i, fun k _ upTo =>
              run.2 (k + 1) (Nat.zero_le _) (Nat.succ_le_succ upTo)⟩
          · refine fun run => ⟨Nat.zero_le _, fun k _ upTo => ?_⟩
            cases k with
            | zero => exact here
            | succ k => exact run.2 k (Nat.zero_le k) (Nat.le_of_succ_le_succ upTo)
        exact (ih i).trans (or_congr_right later.symm)

/-- Masks the run from a position on. -/
def maskFrom (text : Marked α) (start : Nat) : Marked α :=
  text.take start ++ maskRun ends (text.drop start)

@[simp] theorem plain_maskFrom (text : Marked α) (start : Nat) :
    plain (maskFrom ends text start) = plain text := by
  have tail := plain_maskRun ends (text.drop start)
  unfold maskFrom plain at *
  rw [List.map_append, tail, ← List.map_append, List.take_append_drop]

theorem masked_maskFrom {text : Marked α} {start : Nat} (inside : start ≤ text.length) (i : Nat) :
    Masked (maskFrom ends text start) i ↔ Masked text i ∨ InRun ends (plain text) start i := by
  have length : (text.take start).length = start := by
    rw [List.length_take, Nat.min_eq_left inside]
  obtain before | behind := Nat.lt_or_ge i start
  · have same : Masked (maskFrom ends text start) i ↔ Masked text i := by
      unfold Masked maskFrom
      rw [List.getElem?_append_left (by omega), List.getElem?_take_of_lt before]
    exact same.trans (or_iff_left fun run => absurd run.le (by omega)).symm
  · obtain ⟨k, rfl⟩ := Nat.exists_eq_add_of_le behind
    have masked := masked_maskRun ends (text.drop start) k
    have here : Masked (maskFrom ends text start) (start + k) ↔
        Masked (maskRun ends (text.drop start)) k := by
      unfold Masked maskFrom
      rw [List.getElem?_append_right (by omega), length, Nat.add_sub_cancel_left]
    have there : Masked (text.drop start) k ↔ Masked text (start + k) := by
      unfold Masked
      rw [List.getElem?_drop]
    have run : InRun ends (plain (text.drop start)) 0 k ↔
        InRun ends (plain text) start (start + k) := by
      have shift (m : Nat) : (plain (text.drop start))[m]? = (plain text)[start + m]? := by
        rw [getElem?_plain, getElem?_plain, List.getElem?_drop]
      constructor
      · refine fun run => ⟨Nat.le_add_right _ _, fun m low high => ?_⟩
        obtain ⟨j, rfl⟩ := Nat.exists_eq_add_of_le low
        rw [← shift]
        exact run.2 j (Nat.zero_le j) (by omega)
      · refine fun run => ⟨Nat.zero_le k, fun m _ high => ?_⟩
        rw [shift]
        exact run.2 (start + m) (by omega) (by omega)
    rw [here, masked, there, run]

end MaskRun

/-! ## One marker after the other -/

section Steps

variable [DecidableEq α] (ends : α → Bool)

/-- Masks the run behind the first visible occurrence of a marker. -/
def maskFirst (marker : List α) (text : Marked α) : Marked α :=
  match splitOnce (unmarked marker) text with
  | none => text
  | some (before, after) => before ++ (unmarked marker ++ maskRun ends after)

/-- The text behind all markers. -/
def maskAll (markers : List (List α)) (text : List α) : Marked α :=
  markers.foldl (fun text marker => maskFirst ends marker text) (unmarked text)

/-- The marker stands at a position, and no item of it is masked. -/
def VisibleAt (text : Marked α) (marker : List α) (i : Nat) : Prop :=
  OccursAt (plain text) marker i ∧ ∀ k < marker.length, ¬Masked text (i + k)

omit [DecidableEq α] in
theorem visibleAt_iff {text : Marked α} {marker : List α} {i : Nat} :
    VisibleAt text marker i ↔ unmarked marker <+: text.drop i := by
  have stands : unmarked marker <+: text.drop i ↔
      ∀ k < (unmarked marker).length, text[i + k]? = (unmarked marker)[k]? := occursAt_iff
  unfold VisibleAt
  rw [stands, occursAt_iff, length_unmarked]
  simp only [unmarked, List.getElem?_map, getElem?_plain, Masked]
  constructor
  · rintro ⟨items, visible⟩ k less
    have item := items k less
    have shown := visible k less
    rw [← item]
    rw [List.getElem?_eq_getElem less] at item
    obtain ⟨⟨found, masked⟩, here, -⟩ := Option.map_eq_some_iff.mp item
    rw [here] at shown ⊢
    cases masked with
    | false => rfl
    | true => exact absurd rfl shown
  · refine fun stands => ⟨fun k less => ?_, fun k less => ?_⟩
    · rw [stands k less, Option.map_map]
      cases marker[k]? <;> rfl
    · rw [stands k less, Option.map_map]
      cases marker[k]? <;> simp

/-- The first visible occurrence, if there is one. -/
theorem maskFirst_cases (marker : List α) (text : Marked α) :
    (maskFirst ends marker text = text ∧ ∀ i, ¬VisibleAt text marker i) ∨
      ∃ i, VisibleAt text marker i ∧ (∀ k < i, ¬VisibleAt text marker k) ∧
        i + marker.length ≤ text.length ∧
        maskFirst ends marker text = maskFrom ends text (i + marker.length) := by
  unfold maskFirst
  split
  · next absent =>
    refine .inl ⟨rfl, fun i visible => ?_⟩
    exact splitOnce_eq_none_iff.mp absent
      ((visibleAt_iff.mp visible).isInfix.trans (List.drop_suffix i text).isInfix)
  · next before after found =>
    obtain ⟨rfl, misses⟩ := splitOnce_eq_some_iff.mp found
    refine .inr ⟨before.length, ?_, fun k less visible => ?_, ?_, ?_⟩
    · rw [visibleAt_iff, List.drop_left]
      exact List.prefix_append _ _
    · have missed := misses (before.take k) (before.drop k) (List.take_append_drop k before).symm
        (fun empty => by simp at empty; omega)
      rw [visibleAt_iff, List.drop_append_of_le_length less.le] at visible
      exact of_decide_eq_false missed visible
    · rw [List.length_append, List.length_append, length_unmarked]
      omega
    · have front : (before ++ unmarked marker).length = before.length + marker.length := by simp
      unfold maskFrom
      rw [← List.append_assoc, ← front, ← List.append_assoc, List.take_left, List.drop_left]

@[simp] theorem plain_maskFirst (marker : List α) (text : Marked α) :
    plain (maskFirst ends marker text) = plain text := by
  obtain ⟨same, -⟩ | ⟨i, -, -, -, same⟩ := maskFirst_cases ends marker text
  · rw [same]
  · rw [same, plain_maskFrom]

end Steps

/-! ## What is masked -/

/-- Markers that can be found and masked one after the other: no marker ends inside another one,
and only its last item may end runs. -/
structure Markers (ends : α → Bool) (markers : List (List α)) : Prop where
  filled : ∀ marker ∈ markers, marker ≠ []
  apart : ∀ marker ∈ markers, ∀ other ∈ markers, ∀ k, 0 < k → k < other.length →
    ¬other.take k <:+ marker ∧ ¬marker <:+ other.take k
  whole : ∀ marker ∈ markers, ∀ k, k + 1 < marker.length →
    ∀ item, marker[k]? = some item → ends item = false

theorem suffix_of_occursAt {text marker : List α} {i : Nat} (occurs : OccursAt text marker i) :
    marker <:+ text.take (i + marker.length) := by
  obtain ⟨rest, stands⟩ := occurs
  rw [List.take_add, ← stands, List.take_left]
  exact List.suffix_append _ _

theorem occursAt_take {text marker : List α} {i : Nat} (occurs : OccursAt text marker i) (k : Nat) :
    OccursAt text (marker.take k) i :=
  (List.take_prefix k marker).trans occurs

section Invariants

variable {ends : α → Bool} {markers : List (List α)} {text : List α}

/-- No marker starts before the end of another one and goes on behind it. -/
theorem Markers.not_straddle (sound : Markers ends markers) {marker other : List α}
    (mem : marker ∈ markers) (mem' : other ∈ markers) {o i : Nat}
    (occurs : OccursAt text marker o) (occurs' : OccursAt text other i)
    (before : i < o + marker.length) : i + other.length ≤ o + marker.length := by
  by_contra beyond
  obtain ⟨k, length⟩ := Nat.exists_eq_add_of_lt before
  have cut : (other.take (k + 1)).length = k + 1 := by
    rw [List.length_take]
    omega
  have inner := suffix_of_occursAt (occursAt_take occurs' (k + 1))
  rw [cut, show i + (k + 1) = o + marker.length by omega] at inner
  obtain ⟨notInside, notAround⟩ := sound.apart marker mem other mem' (k + 1) (by omega) (by omega)
  obtain inside | around := List.suffix_or_suffix_of_suffix inner (suffix_of_occursAt occurs)
  · exact notInside inside
  · exact notAround around

/-- Everything masked is in the run behind a marker. -/
def Sound (ends : α → Bool) (markers : List (List α)) (text : Marked α) : Prop :=
  ∀ i, Masked text i → ∃ marker ∈ markers, ∃ o, OccursAt (plain text) marker o ∧
    InRun ends (plain text) (o + marker.length) i

/-- What follows a masked item in its run is masked. -/
def Closed (ends : α → Bool) (text : Marked α) : Prop :=
  ∀ start i, Masked text start → InRun ends (plain text) start i → Masked text i

theorem Sound.goesOn {marked : Marked α} (sound : Sound ends markers marked) {i : Nat}
    (masked : Masked marked i) : ∃ item, (plain marked)[i]? = some item ∧ ends item = false := by
  obtain ⟨marker, -, o, -, run⟩ := sound i masked
  exact run.item

variable [DecidableEq α]

theorem masked_maskFirst {marked : Marked α} {i : Nat} (marker : List α) (masked : Masked marked i) :
    Masked (maskFirst ends marker marked) i := by
  obtain ⟨same, -⟩ | ⟨o, -, -, inside, same⟩ := maskFirst_cases ends marker marked
  · rwa [same]
  · rw [same, masked_maskFrom ends inside]
    exact .inl masked

theorem Sound.maskFirst {marked : Marked α} (sound : Sound ends markers marked) {marker : List α}
    (mem : marker ∈ markers) : Sound ends markers (maskFirst ends marker marked) := by
  intro i masked
  rw [plain_maskFirst]
  obtain ⟨same, -⟩ | ⟨o, visible, -, inside, same⟩ := maskFirst_cases ends marker marked
  · rw [same] at masked
    exact sound i masked
  · rw [same, masked_maskFrom ends inside] at masked
    obtain masked | run := masked
    · exact sound i masked
    · exact ⟨marker, mem, o, visible.1, run⟩

theorem Closed.maskFirst {marked : Marked α} (closed : Closed ends marked) (marker : List α) :
    Closed ends (maskFirst ends marker marked) := by
  intro start i masked run
  rw [plain_maskFirst] at run
  obtain ⟨same, -⟩ | ⟨o, -, -, inside, same⟩ := maskFirst_cases ends marker marked
  · rw [same] at masked ⊢
    exact closed start i masked run
  · rw [same, masked_maskFrom ends inside] at masked ⊢
    obtain masked | first := masked
    · exact .inl (closed start i masked run)
    · exact .inr (first.trans run)

omit [DecidableEq α] in
theorem closed_unmarked : Closed ends (unmarked text) :=
  fun start _ masked => absurd masked (not_masked_unmarked text start)

theorem plain_maskAll : plain (maskAll ends markers text) = text :=
  List.foldlRecOn (motive := fun marked => plain marked = text) markers _ (plain_unmarked text)
    fun _ same _ _ => by rw [plain_maskFirst, same]

theorem closed_maskAll : Closed ends (maskAll ends markers text) :=
  List.foldlRecOn (motive := Closed ends) markers _ closed_unmarked
    fun _ closed marker _ => closed.maskFirst marker

/-- Behind every marker whose last item ends runs, a marker that starts in a run has nothing to
mask. -/
def Unnested (ends : α → Bool) (markers : List (List α)) (text : List α) : Prop :=
  ∀ other ∈ markers, ∀ i, OccursAt text other i →
    (∃ item ∈ other, ends item = true) →
    (∃ item, text[i + other.length]? = some item ∧ ends item = false) →
    ∀ marker ∈ markers, ∀ o, OccursAt text marker o → ¬InRun ends text (o + marker.length) i

omit [DecidableEq α] in
/-- A marker that is no longer visible has its run masked. -/
theorem masked_of_hidden {marked : Marked α} (apart : Markers ends markers)
    (sound : Sound ends markers marked) (closed : Closed ends marked)
    (unnested : Unnested ends markers (plain marked)) {marker : List α} (mem : marker ∈ markers)
    {o i : Nat} (occurs : OccursAt (plain marked) marker o) (hidden : ¬VisibleAt marked marker o)
    (run : InRun ends (plain marked) (o + marker.length) i) : Masked marked i := by
  obtain ⟨k, less, masked⟩ : ∃ k < marker.length, Masked marked (o + k) := by
    by_contra none_
    exact hidden ⟨occurs, fun k less masked => none_ ⟨k, less, masked⟩⟩
  have items := occursAt_iff.mp occurs
  by_cases open_ : ∃ item ∈ marker, ends item = true
  · -- The marker ends with an item that ends runs, so it starts in the run of another one.
    obtain ⟨other, mem', o', occurs', run'⟩ := sound (o + k) masked
    have outside : o' + other.length ≤ o := by
      by_contra inside
      have contained := apart.not_straddle mem' mem occurs' occurs (by omega)
      have here := run'.le
      omega
    obtain ⟨first, found, goesOn⟩ := run.2 (o + marker.length) (Nat.le_refl _) run.le
    exact absurd (run'.before outside (by omega))
      (unnested marker mem o occurs open_ ⟨first, found, goesOn⟩ other mem' o' occurs')
  · refine closed (o + k) i masked ⟨(by omega : o + k ≤ o + marker.length).trans run.le, ?_⟩
    intro m low high
    obtain inside | behind := Nat.lt_or_ge m (o + marker.length)
    · obtain ⟨j, rfl⟩ := Nat.exists_eq_add_of_le ((Nat.le_add_right o k).trans low)
      have less : j < marker.length := by omega
      have item := items j less
      rw [List.getElem?_eq_getElem less] at item
      refine ⟨_, item, Bool.eq_false_iff.mpr fun stops => open_ ⟨_, List.getElem_mem _, stops⟩⟩
    · exact run.2 m behind high

end Invariants

/-! ## Showing a text with its masks -/

section Render

variable (mask : List α)

/-- Shows the masked items of a run as one mask. -/
def render : Bool → Marked α → List α
  | _, [] => []
  | _, (item, false) :: rest => item :: render false rest
  | false, (_, true) :: rest => mask ++ render true rest
  | true, (_, true) :: rest => render true rest

/-- Whether the last item is masked. -/
def lastMasked (before : Bool) (text : Marked α) : Bool := text.foldl (fun _ item => item.2) before

theorem render_append (before : Bool) (front back : Marked α) :
    render mask before (front ++ back) =
      render mask before front ++ render mask (lastMasked before front) back := by
  induction front generalizing before with
  | nil => rfl
  | cons head front ih =>
    obtain ⟨item, _ | _⟩ := head
    · cases before <;> exact congrArg (item :: ·) (ih false)
    · cases before
      · change mask ++ render mask true (front ++ back) = mask ++ render mask true front ++ _
        rw [ih, List.append_assoc]
        rfl
      · exact ih true

/-- Only items that end no run are masked. -/
def Inner (ends : α → Bool) (text : Marked α) : Prop := ∀ item, (item, true) ∈ text → ends item = false

variable {mask} {ends : α → Bool} {markers : List (List α)}

variable [DecidableEq α]

/-- Replaces the run behind the first occurrence of a marker. -/
def replaceFirst (ends : α → Bool) (mask marker text : List α) : List α :=
  match splitOnce marker text with
  | none => text
  | some (before, after) =>
    if after.takeWhile (fun item => !ends item) = [] then text
    else before ++ (marker ++ (mask ++ after.dropWhile fun item => !ends item))

theorem Sound.inner {marked : Marked α} (sound : Sound ends markers marked) : Inner ends marked := by
  intro item mem
  obtain ⟨i, found⟩ := List.mem_iff_getElem?.mp mem
  obtain ⟨other, here, goesOn⟩ := sound.goesOn (i := i) (by rw [Masked, found]; rfl)
  rw [getElem?_plain, found] at here
  obtain rfl := Option.some.inj here
  exact goesOn

end Render

end Foco.RunMasking
