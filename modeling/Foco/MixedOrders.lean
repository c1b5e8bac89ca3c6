import Mathlib.Tactic.ByContra

/-!
A comparison that goes by numbers where both sides have one and by the items themselves otherwise.
It is reversed by a swap, and it is transitive unless an item without a number lies between two
items that the numbers order differently.
-/
namespace Foco.MixedOrders
open Std

universe u v

variable {α : Type u} {β : Type v}

/-- Compares numbers where both items have one, and the items otherwise. -/
def mixed (items : α → α → Ordering) (numbers : β → β → Ordering) (number : α → Option β)
    (a b : α) : Ordering :=
  match number a, number b with
  | some x, some y => numbers x y
  | _, _ => items a b

/-- No item without a number lies between two items, unless the numbers order these alike. -/
def KeepApart (items : α → α → Ordering) (numbers : β → β → Ordering) (number : α → Option β)
    (among : α → Prop) : Prop :=
  ∀ a b c, among a → among b → among c → ∀ x z, number a = some x → number b = none →
    number c = some z → items a b = .lt → items b c = .lt → numbers x z = .lt

section
variable {items : α → α → Ordering} {numbers : β → β → Ordering} {number : α → Option β}

theorem mixed_of_numbers {a b : α} {x y : β} (first : number a = some x)
    (second : number b = some y) : mixed items numbers number a b = numbers x y := by
  rw [mixed, first, second]

theorem mixed_of_left {a b : α} (none_ : number a = none) :
    mixed items numbers number a b = items a b := by
  unfold mixed
  rw [none_]

theorem mixed_of_right {a b : α} (none_ : number b = none) :
    mixed items numbers number a b = items a b := by
  unfold mixed
  rw [none_]
  cases number a <;> rfl

variable [OrientedCmp numbers]

theorem mixed_swap [OrientedCmp items] (a b : α) :
    mixed items numbers number a b = (mixed items numbers number b a).swap := by
  cases first : number a with
  | none =>
    rw [mixed_of_left first, mixed_of_right first]
    exact OrientedCmp.eq_swap
  | some x =>
    cases second : number b with
    | none =>
      rw [mixed_of_left second, mixed_of_right second]
      exact OrientedCmp.eq_swap
    | some y =>
      rw [mixed_of_numbers first second, mixed_of_numbers second first]
      exact OrientedCmp.eq_swap

end

section
variable {items : α → α → Ordering} {numbers : β → β → Ordering} {number : α → Option β}
  {among : α → Prop}

/-- Items that are alike have the same number. -/
def SameNumber (items : α → α → Ordering) (number : α → Option β) : Prop :=
  ∀ a b, items a b = .eq → number a = number b

theorem SameNumber.lt_of_isLE (same : SameNumber items number) {a b : α} (le : (items a b).isLE)
    (different : number a ≠ number b) : items a b = .lt := by
  cases here : items a b with
  | lt => rfl
  | eq => exact absurd (same a b here) different
  | gt => rw [here] at le; cases le

variable [TransCmp items] [TransCmp numbers]

/-- Among items that keep apart, the comparison is transitive: the cases are which of the three
have numbers. -/
theorem mixed_trans (same : SameNumber items number) (apart : KeepApart items numbers number among) {a b c : α}
    (ha : among a) (hb : among b) (hc : among c) (first : (mixed items numbers number a b).isLE)
    (second : (mixed items numbers number b c).isLE) : (mixed items numbers number a c).isLE := by
  by_contra after
  cases numberA : number a with
  | none =>
    rw [mixed_of_left numberA] at first after
    cases numberB : number b with
    | none =>
      rw [mixed_of_left numberB] at second
      exact after (TransCmp.isLE_trans first second)
    | some y =>
      cases numberC : number c with
      | none =>
        rw [mixed_of_right numberC] at second
        exact after (TransCmp.isLE_trans first second)
      | some z =>
        rw [mixed_of_numbers numberB numberC] at second
        have back := OrientedCmp.lt_of_not_isLE after
        have onward := same.lt_of_isLE first (by simp [numberA, numberB])
        have less := apart c a b hc ha hb z y numberC numberA numberB back onward
        exact OrientedCmp.not_lt_of_isLE second less
  | some x =>
    cases numberC : number c with
    | none =>
      rw [mixed_of_right numberC] at second after
      cases numberB : number b with
      | none =>
        rw [mixed_of_right numberB] at first
        exact after (TransCmp.isLE_trans first second)
      | some y =>
        rw [mixed_of_numbers numberA numberB] at first
        have back := OrientedCmp.lt_of_not_isLE after
        have onward := same.lt_of_isLE second (by simp [numberB, numberC])
        have less := apart b c a hb hc ha y x numberB numberC numberA onward back
        exact OrientedCmp.not_lt_of_isLE first less
    | some z =>
      rw [mixed_of_numbers numberA numberC] at after
      cases numberB : number b with
      | none =>
        rw [mixed_of_right numberB] at first
        rw [mixed_of_left numberB] at second
        have less := apart a b c ha hb hc x z numberA numberB numberC
          (same.lt_of_isLE first (by simp [numberA, numberB]))
          (same.lt_of_isLE second (by simp [numberB, numberC]))
        exact after (Ordering.isLE_of_eq_lt less)
      | some y =>
        rw [mixed_of_numbers numberA numberB] at first
        rw [mixed_of_numbers numberB numberC] at second
        exact after (TransCmp.isLE_trans first second)

/-- Where the comparison is transitive, the items keep apart. -/
theorem keepApart_of_trans
    (trans : ∀ a b c, among a → among b → among c → (mixed items numbers number a b).isLE →
      (mixed items numbers number b c).isLE → (mixed items numbers number a c).isLE) :
    KeepApart items numbers number among := by
  intro a b c ha hb hc x z numberA numberB numberC less less'
  by_contra notLess
  have first : (mixed items numbers number c a).isLE := by
    rw [mixed_of_numbers numberC numberA]
    by_contra after
    exact notLess (OrientedCmp.lt_of_not_isLE after)
  have second : (mixed items numbers number a b).isLE := by
    rw [mixed_of_right numberB]
    exact Ordering.isLE_of_eq_lt less
  have third := trans c a b hc ha hb first second
  rw [mixed_of_right numberB] at third
  exact OrientedCmp.not_lt_of_isLE third less'

end

end Foco.MixedOrders
