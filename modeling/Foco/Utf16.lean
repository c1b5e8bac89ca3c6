import Mathlib.Data.List.Basic

/-!
UTF-16: a character is one unit, or a high and a low surrogate. Decoding refuses a surrogate
without its partner, and is the inverse of encoding.
-/
namespace Foco.Utf16

/-- The units of a character. -/
def units (c : Char) : List UInt16 :=
  if c.toNat < 0x10000 then [.ofNat c.toNat]
  else
    [.ofNat (0xD800 + (c.toNat - 0x10000) / 0x400), .ofNat (0xDC00 + (c.toNat - 0x10000) % 0x400)]

def encode (text : List Char) : List UInt16 := text.flatMap units

def IsHigh (unit : UInt16) : Prop := 0xD800 ≤ unit.toNat ∧ unit.toNat < 0xDC00

def IsLow (unit : UInt16) : Prop := 0xDC00 ≤ unit.toNat ∧ unit.toNat < 0xE000

instance (unit : UInt16) : Decidable (IsHigh unit) := inferInstanceAs (Decidable (_ ∧ _))

instance (unit : UInt16) : Decidable (IsLow unit) := inferInstanceAs (Decidable (_ ∧ _))

/-- The character of a high and a low surrogate. -/
def pair (high low : UInt16) : Char :=
  .ofNat (0x10000 + (high.toNat - 0xD800) * 0x400 + (low.toNat - 0xDC00))

def decode : List UInt16 → Option (List Char)
  | [] => some []
  | [unit] => if IsHigh unit ∨ IsLow unit then none else some [.ofNat unit.toNat]
  | unit :: next :: rest =>
    if IsHigh unit then
      if IsLow next then (decode rest).map (pair unit next :: ·) else none
    else if IsLow unit then none
    else (decode (next :: rest)).map (.ofNat unit.toNat :: ·)

theorem toNat_ofNat {value : Nat} (valid : value.isValidChar) : (Char.ofNat value).toNat = value := by
  rw [Char.toNat, Char.ofNat, dif_pos valid]
  rfl

theorem toNat_ofNat_unit {value : Nat} (fits : value < 0x10000) :
    (UInt16.ofNat value).toNat = value := by
  rw [UInt16.toNat_ofNat']
  omega

/-- A unit that is no surrogate is a character. -/
theorem units_single {unit : UInt16} (high : ¬IsHigh unit) (low : ¬IsLow unit) :
    units (.ofNat unit.toNat) = [unit] := by
  have fits : unit.toNat < 0x10000 := unit.toNat_lt
  unfold IsHigh at high
  unfold IsLow at low
  have valid : unit.toNat.isValidChar := by
    unfold Nat.isValidChar
    omega
  unfold units
  rw [toNat_ofNat valid, if_pos fits, UInt16.ofNat_toNat]

theorem units_pair {high low : UInt16} (isHigh : IsHigh high) (isLow : IsLow low) :
    units (pair high low) = [high, low] := by
  obtain ⟨high_ge, high_lt⟩ := isHigh
  obtain ⟨low_ge, low_lt⟩ := isLow
  have valid : (0x10000 + (high.toNat - 0xD800) * 0x400 + (low.toNat - 0xDC00)).isValidChar := by
    unfold Nat.isValidChar
    omega
  unfold units pair
  rw [toNat_ofNat valid, if_neg (by omega)]
  have first : 0xD800 + (0x10000 + (high.toNat - 0xD800) * 0x400 + (low.toNat - 0xDC00) -
      0x10000) / 0x400 = high.toNat := by omega
  have second : 0xDC00 + (0x10000 + (high.toNat - 0xD800) * 0x400 + (low.toNat - 0xDC00) -
      0x10000) % 0x400 = low.toNat := by omega
  rw [first, second, UInt16.ofNat_toNat, UInt16.ofNat_toNat]

/-- What decodes encodes to what it was decoded from. -/
theorem encode_of_decode {text : List Char} {stream : List UInt16}
    (decoded : decode stream = some text) : encode text = stream := by
  induction stream using decode.induct generalizing text with
  | case1 =>
    obtain rfl := Option.some.inj decoded
    rfl
  | case2 unit surrogate =>
    rw [decode, if_pos surrogate] at decoded
    cases decoded
  | case3 unit single =>
    rw [decode, if_neg single] at decoded
    obtain rfl := Option.some.inj decoded
    rw [not_or] at single
    rw [encode, List.flatMap_singleton, units_single single.1 single.2]
  | case4 unit next rest high low ih =>
    rw [decode, if_pos high, if_pos low, Option.map_eq_some_iff] at decoded
    obtain ⟨tail, decoded, rfl⟩ := decoded
    rw [encode, List.flatMap_cons, units_pair high low, ← encode, ih decoded]
    rfl
  | case5 unit next rest high alone =>
    rw [decode, if_pos high, if_neg alone] at decoded
    cases decoded
  | case6 unit next rest high low =>
    rw [decode, if_neg high, if_pos low] at decoded
    cases decoded
  | case7 unit next rest high low ih =>
    rw [decode, if_neg high, if_neg low, Option.map_eq_some_iff] at decoded
    obtain ⟨tail, decoded, rfl⟩ := decoded
    rw [encode, List.flatMap_cons, units_single high low, ← encode, ih decoded]
    rfl

/-- A character is one unit that is no surrogate, or a pair. -/
theorem units_cases (c : Char) :
    (∃ unit, units c = [unit] ∧ ¬IsHigh unit ∧ ¬IsLow unit ∧ Char.ofNat unit.toNat = c) ∨
      ∃ high low, units c = [high, low] ∧ IsHigh high ∧ IsLow low ∧ pair high low = c := by
  have valid : c.toNat < 0xD800 ∨ 0xDFFF < c.toNat ∧ c.toNat < 0x110000 := c.valid
  unfold units
  by_cases small : c.toNat < 0x10000
  · refine .inl ⟨_, if_pos small, ?_, ?_, ?_⟩
    · unfold IsHigh
      rw [toNat_ofNat_unit small]
      omega
    · unfold IsLow
      rw [toNat_ofNat_unit small]
      omega
    · rw [toNat_ofNat_unit small, Char.ofNat_toNat]
  · have high := toNat_ofNat_unit
      (show 0xD800 + (c.toNat - 0x10000) / 0x400 < 0x10000 by omega)
    have low := toNat_ofNat_unit
      (show 0xDC00 + (c.toNat - 0x10000) % 0x400 < 0x10000 by omega)
    refine .inr ⟨_, _, if_neg small, ?_, ?_, ?_⟩
    · unfold IsHigh
      rw [high]
      omega
    · unfold IsLow
      rw [low]
      omega
    · have value : 0x10000 + (0xD800 + (c.toNat - 0x10000) / 0x400 - 0xD800) * 0x400 +
          (0xDC00 + (c.toNat - 0x10000) % 0x400 - 0xDC00) = c.toNat := by omega
      rw [pair, high, low, value, Char.ofNat_toNat]

theorem decode_units_append (c : Char) (rest : List UInt16) :
    decode (units c ++ rest) = (decode rest).map (c :: ·) := by
  obtain ⟨unit, one, high, low, same⟩ | ⟨high, low, two, isHigh, isLow, same⟩ := units_cases c
  · rw [one, List.singleton_append]
    cases rest with
    | nil =>
      change (if IsHigh unit ∨ IsLow unit then none else some [Char.ofNat unit.toNat]) = some [c]
      rw [if_neg (not_or.mpr ⟨high, low⟩), same]
    | cons next rest => rw [decode, if_neg high, if_neg low, same]
  · rw [two]
    change decode (high :: low :: rest) = _
    rw [decode, if_pos isHigh, if_pos isLow, same]

/-- What is encoded decodes. -/
theorem decode_encode (text : List Char) : decode (encode text) = some text := by
  induction text with
  | nil => rfl
  | cons c text ih => rw [encode, List.flatMap_cons, ← encode, decode_units_append, ih]; rfl

theorem encode_append (front back : List Char) :
    encode (front ++ back) = encode front ++ encode back :=
  List.flatMap_append

end Foco.Utf16
