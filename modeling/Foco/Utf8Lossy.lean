import Foco.JsonSize

/-!
`String::from_utf8_lossy`: bytes are decoded one character at a time, and a byte sequence
that cannot start or continue a character becomes one replacement character, up to and
not including the byte that ruled it out.
-/
namespace Foco.RustText

/-- The character that stands for bytes that are not UTF-8. -/
def replacementCharacter : Char := '\uFFFD'

/-- A continuation byte. -/
def isContinuation (byte : Nat) : Bool := decide (0x80 ≤ byte ∧ byte ≤ 0xBF)

/-- The second byte of a three-byte character must keep the character from being overlong or a
surrogate. -/
def secondOfThree (first second : Nat) : Bool :=
  decide ((first = 0xE0 ∧ 0xA0 ≤ second ∧ second ≤ 0xBF) ∨
    (0xE1 ≤ first ∧ first ≤ 0xEC ∧ 0x80 ≤ second ∧ second ≤ 0xBF) ∨
    (first = 0xED ∧ 0x80 ≤ second ∧ second ≤ 0x9F) ∨
    (0xEE ≤ first ∧ first ≤ 0xEF ∧ 0x80 ≤ second ∧ second ≤ 0xBF))

/-- The second byte of a four-byte character must keep the character in range. -/
def secondOfFour (first second : Nat) : Bool :=
  decide ((first = 0xF0 ∧ 0x90 ≤ second ∧ second ≤ 0xBF) ∨
    (0xF1 ≤ first ∧ first ≤ 0xF3 ∧ 0x80 ≤ second ∧ second ≤ 0xBF) ∨
    (first = 0xF4 ∧ 0x80 ≤ second ∧ second ≤ 0x8F))

/-- One character from a first byte and the bytes after it: the character or the replacement, and
how many of the bytes after the first it takes. A byte past the end reads as zero. -/
def decodeCharacter (first : Nat) (rest : List UInt8) : Char × Nat :=
  let byte (index : Nat) : Nat := ((rest[index]?).map UInt8.toNat).getD 0
  if first < 0x80 then (Char.ofNat first, 0)
  else if 0xC2 ≤ first ∧ first ≤ 0xDF then
    if isContinuation (byte 0) then (Char.ofNat (first % 0x20 * 0x40 + byte 0 % 0x40), 1)
    else (replacementCharacter, 0)
  else if 0xE0 ≤ first ∧ first ≤ 0xEF then
    if secondOfThree first (byte 0) then
      if isContinuation (byte 1) then
        (Char.ofNat (first % 0x10 * 0x1000 + byte 0 % 0x40 * 0x40 + byte 1 % 0x40), 2)
      else (replacementCharacter, 1)
    else (replacementCharacter, 0)
  else if 0xF0 ≤ first ∧ first ≤ 0xF4 then
    if secondOfFour first (byte 0) then
      if isContinuation (byte 1) then
        if isContinuation (byte 2) then
          (Char.ofNat (first % 0x08 * 0x40000 + byte 0 % 0x40 * 0x1000 + byte 1 % 0x40 * 0x40 +
            byte 2 % 0x40), 3)
        else (replacementCharacter, 2)
      else (replacementCharacter, 1)
    else (replacementCharacter, 0)
  else (replacementCharacter, 0)

/-- The decoding loop; every round takes at least one byte. -/
def decodeLossy : Nat → List UInt8 → Text
  | 0, _ => []
  | _ + 1, [] => []
  | rounds + 1, first :: rest =>
    (decodeCharacter first.toNat rest).1 ::
      decodeLossy rounds (rest.drop (decodeCharacter first.toNat rest).2)

theorem decodeLossy_cons (rounds : Nat) (first : UInt8) (rest : List UInt8) :
    decodeLossy (rounds + 1) (first :: rest) =
      (decodeCharacter first.toNat rest).1 ::
        decodeLossy rounds (rest.drop (decodeCharacter first.toNat rest).2) := rfl

/-- `String::from_utf8_lossy`. -/
def fromUtf8Lossy (bytes : List UInt8) : Text := decodeLossy bytes.length bytes

/-- The rounds of the loop are enough to take every byte. -/
theorem decodeLossy_more {rounds more : Nat} {bytes : List UInt8}
    (enough : bytes.length ≤ rounds) (le : rounds ≤ more) :
    decodeLossy more bytes = decodeLossy rounds bytes := by
  induction rounds generalizing more bytes with
  | zero =>
    obtain rfl : bytes = [] := List.eq_nil_of_length_eq_zero (Nat.le_zero.mp enough)
    cases more <;> rfl
  | succ rounds ih =>
    obtain ⟨more, rfl⟩ : ∃ n, more = n + 1 := ⟨more - 1, by omega⟩
    cases bytes with
    | nil => rfl
    | cons first rest =>
      rw [List.length_cons] at enough
      rw [decodeLossy_cons, decodeLossy_cons, ih _ (Nat.le_of_succ_le_succ le)]
      rw [List.length_drop]
      omega

theorem length_decodeLossy_le (rounds : Nat) (bytes : List UInt8) :
    (decodeLossy rounds bytes).length ≤ bytes.length := by
  induction rounds generalizing bytes with
  | zero => exact Nat.zero_le _
  | succ rounds ih =>
    cases bytes with
    | nil => exact Nat.le_refl 0
    | cons first rest =>
      have tail := ih (rest.drop (decodeCharacter first.toNat rest).2)
      rw [List.length_drop] at tail
      rw [decodeLossy_cons, List.length_cons, List.length_cons]
      omega

/-- Decoding gives at most one character for each byte. -/
theorem length_fromUtf8Lossy_le (bytes : List UInt8) :
    (fromUtf8Lossy bytes).length ≤ bytes.length :=
  length_decodeLossy_le _ bytes

/-! ## Decoding a stream in two parts -/

/-- After so many bytes the decoding of all of them is between two characters. -/
def endsCharacterIn : Nat → List UInt8 → Nat → Bool
  | _, _, 0 => true
  | 0, _, _ + 1 => false
  | _ + 1, [], _ + 1 => false
  | rounds + 1, first :: rest, count + 1 =>
    let taken := (decodeCharacter first.toNat rest).2
    decide (taken ≤ count) && endsCharacterIn rounds (rest.drop taken) (count - taken)

def endsCharacter (bytes : List UInt8) (count : Nat) : Bool :=
  endsCharacterIn bytes.length bytes count

theorem isContinuation_zero : isContinuation 0 = false := rfl

theorem secondOfThree_zero (first : Nat) : secondOfThree first 0 = false :=
  decide_eq_false (by omega)

theorem secondOfFour_zero (first : Nat) : secondOfFour first 0 = false :=
  decide_eq_false (by omega)

/-- A byte, or zero past the end. -/
def byteAt (bytes : List UInt8) (index : Nat) : Nat := ((bytes[index]?).map UInt8.toNat).getD 0

/-- The character from its first byte and the three that are read after it. -/
def decodeBytes (first second third fourth : Nat) : Char × Nat :=
  if first < 0x80 then (Char.ofNat first, 0)
  else if 0xC2 ≤ first ∧ first ≤ 0xDF then
    if isContinuation second then (Char.ofNat (first % 0x20 * 0x40 + second % 0x40), 1)
    else (replacementCharacter, 0)
  else if 0xE0 ≤ first ∧ first ≤ 0xEF then
    if secondOfThree first second then
      if isContinuation third then
        (Char.ofNat (first % 0x10 * 0x1000 + second % 0x40 * 0x40 + third % 0x40), 2)
      else (replacementCharacter, 1)
    else (replacementCharacter, 0)
  else if 0xF0 ≤ first ∧ first ≤ 0xF4 then
    if secondOfFour first second then
      if isContinuation third then
        if isContinuation fourth then
          (Char.ofNat (first % 0x08 * 0x40000 + second % 0x40 * 0x1000 + third % 0x40 * 0x40 +
            fourth % 0x40), 3)
        else (replacementCharacter, 2)
      else (replacementCharacter, 1)
    else (replacementCharacter, 0)
  else (replacementCharacter, 0)

theorem decodeCharacter_eq (first : Nat) (rest : List UInt8) :
    decodeCharacter first rest =
      decodeBytes first (byteAt rest 0) (byteAt rest 1) (byteAt rest 2) :=
  rfl

/-- The bytes that a character does not take may as well be zero. -/
theorem decodeBytes_of_taken {first second third fourth count : Nat}
    (taken : (decodeBytes first second third fourth).2 ≤ count) :
    decodeBytes first (if 0 < count then second else 0) (if 1 < count then third else 0)
      (if 2 < count then fourth else 0) = decodeBytes first second third fourth := by
  obtain _ | _ | _ | count := count
  · unfold decodeBytes at taken ⊢
    simp only [Nat.lt_irrefl, Nat.not_lt_zero, if_false, isContinuation_zero, secondOfThree_zero,
      secondOfFour_zero, Bool.false_eq_true] at taken ⊢
    split_ifs at taken ⊢ <;> first | rfl | omega
  · unfold decodeBytes at taken ⊢
    simp only [Nat.zero_lt_one, Nat.lt_irrefl, Nat.zero_add, if_true, if_false,
      isContinuation_zero, Nat.not_lt_of_lt (show 1 < 2 by decide), Bool.false_eq_true] at taken ⊢
    split_ifs at taken ⊢ <;> first | rfl | omega
  · unfold decodeBytes at taken ⊢
    simp only [Nat.zero_add, Nat.reduceAdd, Nat.zero_lt_two, Nat.one_lt_two, Nat.lt_irrefl,
      if_true, if_false, isContinuation_zero, Bool.false_eq_true] at taken ⊢
    split_ifs at taken ⊢ <;> first | rfl | omega
  · have below {index : Nat} (small : index < 3) : index < count + 1 + 1 + 1 := by omega
    rw [if_pos (below (by decide)), if_pos (below (by decide)), if_pos (below (by decide))]

/-- A character is decoded from the bytes that it takes. -/
theorem decodeCharacter_of_taken {first : Nat} {rest : List UInt8} {count : Nat}
    (taken : (decodeCharacter first rest).2 ≤ count) :
    decodeCharacter first (rest.take count) = decodeCharacter first rest := by
  have byte (index : Nat) :
      byteAt (rest.take count) index = if index < count then byteAt rest index else 0 := by
    unfold byteAt
    rw [List.getElem?_take]
    split <;> rfl
  rw [decodeCharacter_eq, byte, byte, byte]
  exact decodeBytes_of_taken taken

theorem decodeLossy_split {rounds count : Nat} {bytes : List UInt8}
    (between : endsCharacterIn rounds bytes count = true) (enough : bytes.length ≤ rounds) :
    decodeLossy rounds bytes =
      decodeLossy rounds (bytes.take count) ++ decodeLossy rounds (bytes.drop count) := by
  induction rounds generalizing bytes count with
  | zero => rfl
  | succ rounds ih =>
    cases count with
    | zero => rfl
    | succ count =>
      cases bytes with
      | nil => cases between
      | cons first rest =>
        rw [endsCharacterIn, Bool.and_eq_true, decide_eq_true_eq] at between
        obtain ⟨taken, between⟩ := between
        rw [List.length_cons] at enough
        have short : (rest.drop (decodeCharacter first.toNat rest).2).length ≤ rounds := by
          rw [List.length_drop]
          omega
        have behind := ih between short
        rw [List.drop_drop, Nat.add_sub_cancel' taken] at behind
        rw [List.take_succ_cons, List.drop_succ_cons, decodeLossy_cons, decodeLossy_cons,
          decodeCharacter_of_taken taken, behind, List.cons_append, List.drop_take]
        rw [decodeLossy_more (by rw [List.length_drop]; omega) (Nat.le_succ rounds)]

/-- Bytes cut between two characters are decoded like the two parts. -/
theorem fromUtf8Lossy_split {bytes : List UInt8} {count : Nat}
    (between : endsCharacter bytes count = true) :
    fromUtf8Lossy bytes = fromUtf8Lossy (bytes.take count) ++ fromUtf8Lossy (bytes.drop count) := by
  have short (part : List UInt8) (within : part.length ≤ bytes.length) :
      decodeLossy bytes.length part = fromUtf8Lossy part :=
    decodeLossy_more (Nat.le_refl _) within
  rw [fromUtf8Lossy, decodeLossy_split between (Nat.le_refl _), short _ (List.length_take_le' ..),
    short _ (by rw [List.length_drop]; omega)]

end Foco.RustText
