import Mathlib.Data.List.Chain
import Foco.MachineIntegers
import Foco.MixedOrders
import Foco.RustText

/-!
`compare_versions` of `app/update_runtime.rs`, by which a release is newer than what is installed.
Versions of numbers are compared part by part and all others as texts, so that a version with a
suffix can lie between two numeric ones that are ordered the other way.
-/
namespace Foco.UpdateVersions
open Foco.RustText Foco.MixedOrders Std

def normalizedVersion (version : Text) : Text :=
  ((stripPrefix ['v'] (trim version)).orElse fun _ => stripPrefix ['V'] (trim version)).getD
    (trim version)

/-- `str::parse::<u64>` of a text of digits. -/
def parseDigits (part : Text) : Option Nat :=
  let value := part.foldl (fun value c => 10 * value + (c.toNat - '0'.toNat)) 0
  if value ≤ usizeMax then some value else none

def numericVersionPart (part : Text) : Option Nat :=
  if part = [] ∨ ¬part.all Char.isDigit then none else parseDigits part

def numericVersionParts (version : Text) : Option (List Nat) :=
  (version.splitOn '.').mapM numericVersionPart

/-- The loop of `compare_numeric_parts` from an index on. -/
def compareNumericPartsFrom (left right : List Nat) (index : Nat) : Nat → Ordering
  | 0 => .eq
  | remaining + 1 =>
    match compare (left.getD index 0) (right.getD index 0) with
    | .eq => compareNumericPartsFrom left right (index + 1) remaining
    | ordering => ordering

def compareNumericParts (left right : List Nat) : Ordering :=
  compareNumericPartsFrom left right 0 (max left.length right.length)

/-- `str::cmp` orders texts by their characters. -/
def compareTexts (left right : Text) : Ordering := compare left right

def compareVersions (left right : Text) : Ordering :=
  match numericVersionParts (normalizedVersion left), numericVersionParts (normalizedVersion right)
  with
  | some leftParts, some rightParts => compareNumericParts leftParts rightParts
  | _, _ => compareTexts (normalizedVersion left) (normalizedVersion right)

/-! ## The order of the numbers -/

theorem compareNumericPartsFrom_succ (left right : List Nat) (index remaining : Nat) :
    compareNumericPartsFrom left right index (remaining + 1) =
      (compare (left.getD index 0) (right.getD index 0)).then
        (compareNumericPartsFrom left right (index + 1) remaining) := by
  rw [compareNumericPartsFrom]
  cases compare (left.getD index 0) (right.getD index 0) <;> rfl

theorem compareNumericPartsFrom_append (left right : List Nat) (index front back : Nat) :
    compareNumericPartsFrom left right index (front + back) =
      (compareNumericPartsFrom left right index front).then
        (compareNumericPartsFrom left right (index + front) back) := by
  induction front generalizing index with
  | zero => rw [Nat.zero_add]; rfl
  | succ front ih =>
    rw [Nat.succ_add, compareNumericPartsFrom_succ, compareNumericPartsFrom_succ, ih,
      Nat.succ_add_eq_add_succ]
    cases compare (left.getD index 0) (right.getD index 0) <;> rfl

/-- Behind the last part of both there is nothing to compare. -/
theorem compareNumericPartsFrom_behind {left right : List Nat} {index : Nat}
    (behind : left.length ≤ index) (behind' : right.length ≤ index) (remaining : Nat) :
    compareNumericPartsFrom left right index remaining = .eq := by
  induction remaining generalizing index with
  | zero => rfl
  | succ remaining ih =>
    rw [compareNumericPartsFrom_succ, List.getD_eq_getElem?_getD, List.getD_eq_getElem?_getD,
      List.getElem?_eq_none behind, List.getElem?_eq_none behind',
      ih (Nat.le_succ_of_le behind) (Nat.le_succ_of_le behind')]
    rfl

/-- The parts from an index on, with zeros behind them. -/
def partsFrom (parts : List Nat) (index count : Nat) : List Nat :=
  (List.range' index count).map fun index => parts.getD index 0

theorem compareNumericPartsFrom_eq (left right : List Nat) (index count : Nat) :
    compareNumericPartsFrom left right index count =
      compare (partsFrom left index count) (partsFrom right index count) := by
  induction count generalizing index with
  | zero => rfl
  | succ count ih =>
    have first (parts : List Nat) : partsFrom parts index (count + 1) =
        parts.getD index 0 :: partsFrom parts (index + 1) count := rfl
    rw [compareNumericPartsFrom_succ, ih, first, first, List.compare_cons_cons]

/-- The numbers are compared alike for every count that reaches behind both. -/
theorem compareNumericParts_eq {left right : List Nat} {count : Nat} (reached : left.length ≤ count)
    (reached' : right.length ≤ count) :
    compareNumericParts left right = compare (partsFrom left 0 count) (partsFrom right 0 count) := by
  obtain ⟨more, rfl⟩ := Nat.exists_eq_add_of_le (Nat.max_le.mpr ⟨reached, reached'⟩)
  rw [← compareNumericPartsFrom_eq, compareNumericPartsFrom_append, Nat.zero_add,
    compareNumericPartsFrom_behind (Nat.le_max_left _ _) (Nat.le_max_right _ _), Ordering.then_eq]
  rfl

instance : TransCmp compareNumericParts where
  eq_swap {left right} := by
    have reached := Nat.le_max_left left.length right.length
    have reached' := Nat.le_max_right left.length right.length
    rw [compareNumericParts_eq reached reached', compareNumericParts_eq reached' reached]
    exact OrientedCmp.eq_swap
  isLE_trans {a b c} first second := by
    have count : ∃ n, a.length ≤ n ∧ b.length ≤ n ∧ c.length ≤ n :=
      ⟨a.length + b.length + c.length, by omega, by omega, by omega⟩
    obtain ⟨n, ha, hb, hc⟩ := count
    rw [compareNumericParts_eq ha hb] at first
    rw [compareNumericParts_eq hb hc] at second
    rw [compareNumericParts_eq ha hc]
    exact TransCmp.isLE_trans first second

/-- The parts of a version, if it has only numbers. -/
def versionNumbers (version : Text) : Option (List Nat) :=
  numericVersionParts (normalizedVersion version)

/-- The versions as texts. -/
def compareAsTexts (left right : Text) : Ordering :=
  compareTexts (normalizedVersion left) (normalizedVersion right)

instance : TransCmp compareAsTexts where
  eq_swap {a b} :=
    (OrientedOrd.eq_swap : compare (normalizedVersion a) (normalizedVersion b) = _)
  isLE_trans {a b c} (first : (compare (normalizedVersion a) (normalizedVersion b)).isLE)
      (second : (compare (normalizedVersion b) (normalizedVersion c)).isLE) :=
    (TransOrd.isLE_trans first second : (compare (normalizedVersion a) (normalizedVersion c)).isLE)

theorem sameNumber : SameNumber compareAsTexts versionNumbers := by
  intro a b same
  have alike : normalizedVersion a = normalizedVersion b := LawfulEqOrd.eq_of_compare same
  rw [versionNumbers, alike]
  rfl

/-! ## Chains of updates -/

theorem compareVersions_eq (left right : Text) :
    compareVersions left right = mixed compareAsTexts compareNumericParts versionNumbers left right := by
  unfold compareVersions mixed versionNumbers
  split
  · next first second => rw [first, second]
  · next notBoth =>
    split
    · next first second => exact absurd second (notBoth _ _ first)
    · rfl

/-- The release is newer than what is installed. -/
def Newer (installed release : Text) : Prop := compareVersions release installed = .gt

/-- The comparison is a total preorder among some versions, and a chain of updates among them never
leads back. -/
structure OrdersUpdates (among : Text → Prop) : Prop where
  reverse : ∀ a b, among a → among b → compareVersions a b = (compareVersions b a).swap
  transitive : ∀ a b c, among a → among b → among c → compareVersions a b ≠ .gt →
    compareVersions b c ≠ .gt → compareVersions a c ≠ .gt
  noReturn : ∀ chain : List Text, (∀ version ∈ chain, among version) → chain.IsChain Newer →
    chain.Pairwise Newer

/-- A version that is not numeric does not lie, as a text, between two numeric versions, unless
these are ordered alike by their numbers. -/
def SuffixesKeepApart (among : Text → Prop) : Prop :=
  KeepApart compareAsTexts compareNumericParts versionNumbers among

theorem compareVersions_swap (a b : Text) :
    compareVersions a b = (compareVersions b a).swap := by
  rw [compareVersions_eq, compareVersions_eq]
  exact mixed_swap _ _

theorem isLE_iff (ordering : Ordering) : ordering.isLE = true ↔ ordering ≠ .gt := by
  cases ordering <;> decide

/-- A newer version than one that is newer is newer. -/
theorem Newer.trans {among : Text → Prop}
    (transitive : ∀ a b c, among a → among b → among c → compareVersions a b ≠ .gt →
      compareVersions b c ≠ .gt → compareVersions a c ≠ .gt)
    {a b c : Text} (ha : among a) (hb : among b) (hc : among c) (first : Newer a b)
    (second : Newer b c) : Newer a c := by
  unfold Newer at *
  by_contra notNewer
  -- Otherwise `c` would not be above `a`, which is not above `b`.
  have older : compareVersions a b ≠ .gt := by
    rw [compareVersions_swap, first]
    decide
  have back := transitive c a b hc ha hb notNewer older
  rw [second] at back
  exact back rfl

theorem pairwise_newer {among : Text → Prop}
    (transitive : ∀ a b c, among a → among b → among c → compareVersions a b ≠ .gt →
      compareVersions b c ≠ .gt → compareVersions a c ≠ .gt)
    {chain : List Text} (within : ∀ version ∈ chain, among version) (newer : chain.IsChain Newer) :
    chain.Pairwise Newer := by
  induction chain with
  | nil => exact List.Pairwise.nil
  | cons first chain ih =>
    obtain ⟨here, later⟩ := List.forall_mem_cons.mp within
    have rest := ih later newer.tail
    refine List.pairwise_cons.mpr ⟨fun version mem => ?_, rest⟩
    cases chain with
    | nil => cases mem
    | cons second chain =>
      have next : Newer first second := (List.isChain_cons_cons.mp newer).1
      obtain rfl | mem' := List.mem_cons.mp mem
      · exact next
      · exact Newer.trans transitive here (later second List.mem_cons_self) (later version mem) next
          ((List.pairwise_cons.mp rest).1 version mem')

/-- Among any versions the comparison orders updates exactly if the versions with suffixes keep
apart from the numeric ones. -/
theorem compareVersions_ordersUpdates_iff (among : Text → Prop) :
    OrdersUpdates among ↔ SuffixesKeepApart among := by
  constructor
  · intro orders
    refine keepApart_of_trans fun a b c ha hb hc first second => ?_
    rw [← compareVersions_eq, isLE_iff] at *
    exact orders.transitive a b c ha hb hc first second
  · intro apart
    have transitive (a b c : Text) (ha : among a) (hb : among b) (hc : among c)
        (first : compareVersions a b ≠ .gt) (second : compareVersions b c ≠ .gt) :
        compareVersions a c ≠ .gt := by
      rw [← isLE_iff, compareVersions_eq] at *
      exact mixed_trans sameNumber apart ha hb hc first second
    exact ⟨fun a b _ _ => compareVersions_swap a b, transitive, fun _ within =>
      pairwise_newer transitive within⟩

/-- The suffix of `10-beta` makes it newer than `10`, and as a text it is older than `9`. -/
theorem compareVersions_cycle : ¬OrdersUpdates fun _ => True := by
  intro orders
  have cycle : compareVersions "9".toList "10".toList ≠ .gt ∧
      compareVersions "10".toList "10-beta".toList ≠ .gt ∧
      compareVersions "9".toList "10-beta".toList = .gt := by decide
  exact orders.transitive _ _ _ trivial trivial trivial cycle.1 cycle.2.1 cycle.2.2

end Foco.UpdateVersions
