import Mathlib.Data.Nat.Digits.Defs
import Foco.RustText

/-!
The unsigned integers of a 64-bit host as natural numbers: their bound, the addition that
stops there, and their decimal text.
-/
namespace Foco
open Foco.RustText

/-- `usize::MAX`, which is also `u64::MAX`. -/
def usizeMax : Nat := 2 ^ 64 - 1

/-- `usize::saturating_add`. -/
def saturatingAdd (a b : Nat) : Nat := min (a + b) usizeMax

theorem saturatingAdd_eq {a b : Nat} (fits : a + b ≤ usizeMax) : saturatingAdd a b = a + b :=
  Nat.min_eq_left fits

/-- An unsigned integer as decimal text. -/
def natText (n : Nat) : Text := Nat.toDigits 10 n

theorem natText_length {n digits : Nat} (positive : 0 < digits) (small : n < 10 ^ digits) :
    (natText n).length ≤ digits :=
  Nat.toDigits_length 10 n digits positive small

/-- An integer as decimal text. -/
def intText : Int → Text
  | .ofNat n => natText n
  | .negSucc n => '-' :: natText (n + 1)

/-- The decimal text of a 64-bit integer has at most twenty digits. -/
theorem natText_length_u64 {n : Nat} (small : n ≤ usizeMax) : (natText n).length ≤ 20 :=
  natText_length (by decide) (Nat.lt_of_le_of_lt small (by decide))

end Foco
