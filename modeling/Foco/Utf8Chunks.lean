import Foco.Utf8Lossy

/-!
Decoding bytes that need not be UTF-8: every longest start of a character that goes no further is
replaced by one `U+FFFD`. The decoder goes byte by byte, with what it has read of a character.
Decoding the parts of some bytes one by one gives the same exactly if no part ends inside of a
character or of such a start.
-/
namespace Foco.Utf8Chunks
open Foco.RustText

/-- What has been read of a character: its bits, the bounds of the next byte and the number of
bytes behind that one. The bounds are within those of a continuation byte. -/
structure Pending where
  bits : Nat
  low : Nat
  high : Nat
  more : Nat
  low_ge : 0x80 ≤ low
  high_le : high ≤ 0xBF

/-- What a byte is at the start of a character. -/
inductive First where
  | char (c : Char)
  | pending (pending : Pending)
  | invalid

def first (byte : Nat) : First :=
  if byte < 0x80 then .char (Char.ofNat byte)
  else if 0xC2 ≤ byte ∧ byte ≤ 0xDF then
    .pending ⟨byte - 0xC0, 0x80, 0xBF, 0, by decide, by decide⟩
  else if byte = 0xE0 then .pending ⟨0, 0xA0, 0xBF, 1, by decide, by decide⟩
  else if byte = 0xED then .pending ⟨0xD, 0x80, 0x9F, 1, by decide, by decide⟩
  else if 0xE1 ≤ byte ∧ byte ≤ 0xEF then
    .pending ⟨byte - 0xE0, 0x80, 0xBF, 1, by decide, by decide⟩
  else if byte = 0xF0 then .pending ⟨0, 0x90, 0xBF, 2, by decide, by decide⟩
  else if 0xF1 ≤ byte ∧ byte ≤ 0xF3 then
    .pending ⟨byte - 0xF0, 0x80, 0xBF, 2, by decide, by decide⟩
  else if byte = 0xF4 then .pending ⟨4, 0x80, 0x8F, 2, by decide, by decide⟩
  else .invalid

/-- A byte at the start of a character: what is written, and what is pending behind it. -/
def start (byte : UInt8) : List Char × Option Pending :=
  match first byte.toNat with
  | .char c => ([c], none)
  | .pending pending => ([], some pending)
  | .invalid => ([replacementCharacter], none)

def Pending.Accepts (pending : Pending) (byte : UInt8) : Prop :=
  pending.low ≤ byte.toNat ∧ byte.toNat ≤ pending.high

instance (pending : Pending) (byte : UInt8) : Decidable (pending.Accepts byte) :=
  inferInstanceAs (Decidable (_ ∧ _))

/-- A byte that goes on with a character. -/
def Pending.next (pending : Pending) (byte : UInt8) : List Char × Option Pending :=
  let bits := pending.bits * 64 + (byte.toNat - 0x80)
  match pending.more with
  | 0 => ([Char.ofNat bits], none)
  | more + 1 => ([], some ⟨bits, 0x80, 0xBF, more, by decide, by decide⟩)

def step : Option Pending → UInt8 → List Char × Option Pending
  | none, byte => start byte
  | some pending, byte =>
    if pending.Accepts byte then pending.next byte
    else (replacementCharacter :: (start byte).1, (start byte).2)

theorem step_of_accepts {pending : Pending} {byte : UInt8} (accepts : pending.Accepts byte) :
    step (some pending) byte = pending.next byte :=
  if_pos accepts

theorem step_of_refuses {pending : Pending} {byte : UInt8} (refuses : ¬pending.Accepts byte) :
    step (some pending) byte = (replacementCharacter :: (start byte).1, (start byte).2) :=
  if_neg refuses

/-- What is written at the end. -/
def flush : Option Pending → List Char
  | none => []
  | some _ => [replacementCharacter]

def decodeFrom : Option Pending → List UInt8 → List Char
  | state, [] => flush state
  | state, byte :: bytes => (step state byte).1 ++ decodeFrom (step state byte).2 bytes

/-- What some bytes are decoded to. -/
def decode (bytes : List UInt8) : List Char := decodeFrom none bytes

/-- What is pending behind some bytes. -/
def stateAfter (state : Option Pending) (bytes : List UInt8) : Option Pending :=
  bytes.foldl (fun state byte => (step state byte).2) state

/-- The bytes go on with the character that is pending. -/
def Continues (state : Option Pending) (bytes : List UInt8) : Prop :=
  ∃ pending ∈ state, ∃ byte ∈ bytes.head?, pending.Accepts byte

/-- What is written of some bytes before the end. -/
def writtenFrom : Option Pending → List UInt8 → List Char
  | _, [] => []
  | state, byte :: bytes => (step state byte).1 ++ writtenFrom (step state byte).2 bytes

theorem decodeFrom_append (state : Option Pending) (front back : List UInt8) :
    decodeFrom state (front ++ back) =
      writtenFrom state front ++ decodeFrom (stateAfter state front) back := by
  induction front generalizing state with
  | nil => rfl
  | cons byte front ih =>
    rw [List.cons_append, decodeFrom, ih, writtenFrom, List.append_assoc]
    rfl

theorem decodeFrom_eq (state : Option Pending) (bytes : List UInt8) :
    decodeFrom state bytes = writtenFrom state bytes ++ flush (stateAfter state bytes) := by
  have whole := decodeFrom_append state bytes []
  rwa [List.append_nil] at whole

/-! ## Where the pending character ends -/

/-- Bytes that do not go on with a character are decoded by themselves. -/
theorem decodeFrom_of_not_continues {state : Option Pending} {bytes : List UInt8}
    (ended : ¬Continues state bytes) :
    decodeFrom state bytes = flush state ++ decode bytes := by
  cases state with
  | none => rfl
  | some pending =>
    cases bytes with
    | nil => rfl
    | cons byte bytes =>
      have refuses : ¬pending.Accepts byte := fun accepts => ended ⟨pending, rfl, byte, rfl, accepts⟩
      rw [decodeFrom, step_of_refuses refuses]
      rfl

theorem stateAfter_of_not_continues {state : Option Pending} {bytes : List UInt8}
    (ended : ¬Continues state bytes) (filled : bytes ≠ []) :
    stateAfter state bytes = stateAfter none bytes := by
  obtain ⟨byte, bytes, rfl⟩ := List.exists_cons_of_ne_nil filled
  cases state with
  | none => rfl
  | some pending =>
    have refuses : ¬pending.Accepts byte := fun accepts => ended ⟨pending, rfl, byte, rfl, accepts⟩
    unfold stateAfter
    rw [List.foldl_cons, List.foldl_cons, step_of_refuses refuses]
    rfl

/-- A continuation byte starts no character. -/
theorem start_of_accepts {pending : Pending} {byte : UInt8} (accepts : pending.Accepts byte) :
    start byte = ([replacementCharacter], none) := by
  have low : 0x80 ≤ byte.toNat := Nat.le_trans pending.low_ge accepts.1
  have high : byte.toNat ≤ 0xBF := Nat.le_trans accepts.2 pending.high_le
  have invalid : first byte.toNat = .invalid := by
    unfold first
    rw [if_neg (by omega), if_neg (by omega), if_neg (by omega), if_neg (by omega),
      if_neg (by omega), if_neg (by omega), if_neg (by omega), if_neg (by omega)]
  rw [start, invalid]

/-- What is pending adds at most the character that replaces it, and less if the bytes go on. -/
theorem length_decodeFrom_le (pending : Pending) (bytes : List UInt8) :
    (decodeFrom (some pending) bytes).length ≤ (decode bytes).length + 1 ∧
      (Continues (some pending) bytes →
        (decodeFrom (some pending) bytes).length < (decode bytes).length + 1) := by
  induction bytes generalizing pending with
  | nil => exact ⟨Nat.le_refl 1, fun ⟨_, _, _, none_, _⟩ => by cases none_⟩
  | cons byte bytes ih =>
    by_cases accepts : pending.Accepts byte
    · have less : (decodeFrom (some pending) (byte :: bytes)).length <
          (decode (byte :: bytes)).length + 1 := by
        have alone : decode (byte :: bytes) = replacementCharacter :: decode bytes := by
          rw [decode, decodeFrom, step, start_of_accepts accepts]
          rfl
        rw [decodeFrom, step_of_accepts accepts, alone, List.length_cons, List.length_append]
        unfold Pending.next
        cases pending.more with
        | zero =>
          have rest : decodeFrom none bytes = decode bytes := rfl
          simp only [rest, List.length_singleton]
          omega
        | succ more =>
          simp only [List.length_nil, Nat.zero_add]
          exact Nat.lt_succ_of_le (ih _).1
      exact ⟨Nat.le_of_lt less, fun _ => less⟩
    · have ended : ¬Continues (some pending) (byte :: bytes) := by
        rintro ⟨other, same, _, head, accepts'⟩
        obtain rfl := Option.some.inj same
        obtain rfl := Option.some.inj head
        exact accepts accepts'
      rw [decodeFrom_of_not_continues ended, List.length_append, Nat.add_comm]
      exact ⟨Nat.le_refl _, fun continues => absurd continues ended⟩

/-! ## Parts -/

/-- Two parts are decoded like the whole exactly if the second one does not go on with a character
of the first. -/
theorem decode_append (front back : List UInt8) :
    (decode (front ++ back)).length ≤
        (decode front).length + (decode back).length ∧
      ((decode (front ++ back)).length =
          (decode front).length + (decode back).length →
        ¬Continues (stateAfter none front) back) ∧
      (¬Continues (stateAfter none front) back →
        decode (front ++ back) = decode front ++ decode back) := by
  have whole : decode (front ++ back) =
      writtenFrom none front ++ decodeFrom (stateAfter none front) back :=
    decodeFrom_append none front back
  have part : decode front = writtenFrom none front ++ flush (stateAfter none front) :=
    decodeFrom_eq none front
  rw [whole, part]
  cases state : stateAfter none front with
  | none =>
    refine ⟨?_, fun _ continues => ?_, fun _ => ?_⟩
    · simp only [List.length_append, flush, List.length_nil, decode]
      omega
    · obtain ⟨_, none_, _⟩ := continues
      cases none_
    · rw [flush, List.append_nil]
      rfl
  | some pending =>
    obtain ⟨most, less⟩ := length_decodeFrom_le pending back
    refine ⟨?_, fun same continues => ?_, fun ended => ?_⟩
    · simp only [List.length_append, flush, List.length_singleton]
      omega
    · have fewer := less continues
      simp only [List.length_append, flush, List.length_singleton] at same
      omega
    · rw [decodeFrom_of_not_continues ended, List.append_assoc]

/-- No part goes on with a character that the parts before it began. -/
def KeepsCharacters (parts : List (List UInt8)) : Prop :=
  ∀ front back, parts = front ++ back → ¬Continues (stateAfter none front.flatten) back.flatten

theorem not_continues_none (bytes : List UInt8) : ¬Continues none bytes := by
  rintro ⟨_, none_, _⟩
  cases none_

theorem stateAfter_append (state : Option Pending) (front back : List UInt8) :
    stateAfter state (front ++ back) = stateAfter (stateAfter state front) back :=
  List.foldl_append

theorem keepsCharacters_cons {part : List UInt8} {parts : List (List UInt8)} :
    KeepsCharacters (part :: parts) ↔
      ¬Continues (stateAfter none part) parts.flatten ∧ KeepsCharacters parts := by
  -- Behind a part that is not gone on with, the state is that of the parts behind it alone.
  have behind {front back : List (List UInt8)}
      (ended : ¬Continues (stateAfter none part) (front ++ back).flatten) :
      Continues (stateAfter none (part :: front).flatten) back.flatten ↔
        Continues (stateAfter none front.flatten) back.flatten := by
    rw [List.flatten_append] at ended
    rw [List.flatten_cons, stateAfter_append]
    by_cases empty : front.flatten = []
    · rw [empty] at ended ⊢
      exact iff_of_false ended (not_continues_none _)
    · have ended' : ¬Continues (stateAfter none part) front.flatten := by
        rintro ⟨pending, state, byte, head, accepts⟩
        refine ended ⟨pending, state, byte, ?_, accepts⟩
        rwa [List.head?_append_of_ne_nil _ empty]
      rw [stateAfter_of_not_continues ended' empty]
  constructor
  · intro keeps
    have ended : ¬Continues (stateAfter none part) parts.flatten := by
      have here := keeps [part] parts rfl
      rwa [List.flatten_singleton] at here
    refine ⟨ended, ?_⟩
    rintro front back rfl
    exact mt (behind ended).mpr (keeps (part :: front) back rfl)
  · rintro ⟨ended, keeps⟩ front back same
    cases front with
    | nil => exact not_continues_none _
    | cons first front =>
      obtain ⟨rfl, rfl⟩ := List.cons.inj same
      exact mt (behind ended).mp (keeps front back rfl)

/-- The parts one by one are decoded like the whole exactly if none goes on with a character. -/
theorem decode_parts (parts : List (List UInt8)) :
    (parts.map decode).flatten = decode parts.flatten ↔ KeepsCharacters parts := by
  suffices all : (decode parts.flatten).length ≤ (parts.map decode).flatten.length ∧
      ((decode parts.flatten).length = (parts.map decode).flatten.length →
        KeepsCharacters parts) ∧
      (KeepsCharacters parts → (parts.map decode).flatten = decode parts.flatten) from
    ⟨fun same => all.2.1 (by rw [same]), all.2.2⟩
  induction parts with
  | nil =>
    refine ⟨Nat.le_refl 0, fun _ front back same => ?_, fun _ => rfl⟩
    obtain ⟨rfl, rfl⟩ := List.append_eq_nil_iff.mp same.symm
    exact not_continues_none _
  | cons part parts ih =>
    obtain ⟨most, ended, joined⟩ := decode_append part parts.flatten
    obtain ⟨most', keeps', joined'⟩ := ih
    rw [List.map_cons, List.flatten_cons, List.flatten_cons, List.length_append,
      keepsCharacters_cons]
    refine ⟨by omega, fun same => ⟨ended (by omega), keeps' (by omega)⟩, ?_⟩
    rintro ⟨ended, keeps⟩
    rw [joined ended, joined' keeps]

/-! ## The decoder of the standard library -/

/-- What is pending and the bytes behind it, by the next byte. -/
theorem decodeFrom_pending (pending : Pending) (rest : List UInt8) :
    decodeFrom (some pending) rest =
      if pending.low ≤ byteAt rest 0 ∧ byteAt rest 0 ≤ pending.high then
        match pending.more with
        | 0 => Char.ofNat (pending.bits * 64 + (byteAt rest 0 - 0x80)) :: decode (rest.drop 1)
        | more + 1 => decodeFrom (some ⟨pending.bits * 64 + (byteAt rest 0 - 0x80), 0x80, 0xBF,
            more, by decide, by decide⟩) (rest.drop 1)
      else replacementCharacter :: decode rest := by
  cases rest with
  | nil =>
    have low := pending.low_ge
    have refuses : ¬(pending.low ≤ byteAt [] 0 ∧ byteAt [] 0 ≤ pending.high) := fun both => by
      have zero : byteAt [] 0 = 0 := rfl
      omega
    rw [if_neg refuses]
    rfl
  | cons byte rest =>
    have head : byteAt (byte :: rest) 0 = byte.toNat := rfl
    rw [head]
    by_cases accepts : pending.low ≤ byte.toNat ∧ byte.toNat ≤ pending.high
    · rw [if_pos accepts, decodeFrom, step_of_accepts accepts]
      unfold Pending.next
      cases pending.more <;> rfl
    · rw [if_neg accepts, decodeFrom, step_of_refuses accepts]
      rfl

theorem byteAt_drop (bytes : List UInt8) (count index : Nat) :
    byteAt (bytes.drop count) index = byteAt bytes (count + index) := by
  rw [byteAt, List.getElem?_drop]
  rfl

section Classes

variable {head bits low high : Nat} (low_ge : 0x80 ≤ low) (high_le : high ≤ 0xBF)
  (rest : List UInt8)

theorem decode_two (class_ : 0xC2 ≤ head ∧ head ≤ 0xDF) (bits : Nat) (same : bits = head % 0x20) :
    decodeFrom (some ⟨bits, 0x80, 0xBF, 0, by decide, by decide⟩) rest =
      (decodeCharacter head rest).1 :: decode (rest.drop (decodeCharacter head rest).2) := by
  rw [decodeCharacter_eq, decodeBytes, if_neg (by omega), if_pos class_, decodeFrom_pending]
  by_cases second : 0x80 ≤ byteAt rest 0 ∧ byteAt rest 0 ≤ 0xBF
  · have value : head % 0x20 * 0x40 + byteAt rest 0 % 0x40 =
        bits * 64 + (byteAt rest 0 - 0x80) := by omega
    rw [if_pos second, isContinuation, if_pos (decide_eq_true second), value]
  · rw [if_neg second, isContinuation, if_neg (by rwa [decide_eq_true_eq])]
    rfl

theorem decode_three (class_ : 0xE0 ≤ head ∧ head ≤ 0xEF) (same : bits = head % 0x10)
    (bounds : secondOfThree head (byteAt rest 0) = true ↔
      low ≤ byteAt rest 0 ∧ byteAt rest 0 ≤ high) :
    decodeFrom (some ⟨bits, low, high, 1, low_ge, high_le⟩) rest =
      (decodeCharacter head rest).1 :: decode (rest.drop (decodeCharacter head rest).2) := by
  rw [decodeCharacter_eq, decodeBytes, if_neg (by omega), if_neg (by omega), if_pos class_,
    decodeFrom_pending]
  by_cases second : low ≤ byteAt rest 0 ∧ byteAt rest 0 ≤ high
  · rw [if_pos second, if_pos (bounds.mpr second)]
    dsimp only
    rw [decodeFrom_pending, byteAt_drop, List.drop_drop]
    by_cases third : 0x80 ≤ byteAt rest 1 ∧ byteAt rest 1 ≤ 0xBF
    · have value : head % 0x10 * 0x1000 + byteAt rest 0 % 0x40 * 0x40 + byteAt rest 1 % 0x40 =
          (bits * 64 + (byteAt rest 0 - 0x80)) * 64 + (byteAt rest 1 - 0x80) := by omega
      rw [if_pos third, isContinuation, if_pos (decide_eq_true third), value]
    · rw [if_neg third, isContinuation, if_neg (by rwa [decide_eq_true_eq])]
  · rw [if_neg second, if_neg (mt bounds.mp second)]
    rfl

theorem decode_four (class_ : 0xF0 ≤ head ∧ head ≤ 0xF4) (same : bits = head % 0x08)
    (bounds : secondOfFour head (byteAt rest 0) = true ↔
      low ≤ byteAt rest 0 ∧ byteAt rest 0 ≤ high) :
    decodeFrom (some ⟨bits, low, high, 2, low_ge, high_le⟩) rest =
      (decodeCharacter head rest).1 :: decode (rest.drop (decodeCharacter head rest).2) := by
  rw [decodeCharacter_eq, decodeBytes, if_neg (by omega), if_neg (by omega), if_neg (by omega),
    if_pos class_, decodeFrom_pending]
  by_cases second : low ≤ byteAt rest 0 ∧ byteAt rest 0 ≤ high
  · rw [if_pos second, if_pos (bounds.mpr second)]
    dsimp only
    rw [decodeFrom_pending, byteAt_drop, List.drop_drop]
    by_cases third : 0x80 ≤ byteAt rest 1 ∧ byteAt rest 1 ≤ 0xBF
    · rw [if_pos third, isContinuation, if_pos (decide_eq_true third)]
      dsimp only
      rw [decodeFrom_pending, byteAt_drop, List.drop_drop]
      by_cases fourth : 0x80 ≤ byteAt rest 2 ∧ byteAt rest 2 ≤ 0xBF
      · have value : head % 0x08 * 0x40000 + byteAt rest 0 % 0x40 * 0x1000 +
            byteAt rest 1 % 0x40 * 0x40 + byteAt rest 2 % 0x40 =
              ((bits * 64 + (byteAt rest 0 - 0x80)) * 64 + (byteAt rest 1 - 0x80)) * 64 +
                (byteAt rest 2 - 0x80) := by omega
        rw [if_pos fourth, isContinuation, if_pos (decide_eq_true fourth), value]
      · rw [if_neg fourth, isContinuation, if_neg (by rwa [decide_eq_true_eq])]
    · rw [if_neg third, isContinuation, if_neg (by rwa [decide_eq_true_eq])]
  · rw [if_neg second, if_neg (mt bounds.mp second)]
    rfl

end Classes

/-- One character at a time. -/
theorem decode_cons (byte : UInt8) (rest : List UInt8) :
    decode (byte :: rest) = (decodeCharacter byte.toNat rest).1 ::
      decode (rest.drop (decodeCharacter byte.toNat rest).2) := by
  have below : byte.toNat < 256 := byte.toNat_lt
  change (start byte).1 ++ decodeFrom (start byte).2 rest = _
  unfold start
  generalize byte.toNat = head at below ⊢
  have three (second low high : Nat) (bounds : (head = 0xE0 ∧ 0xA0 ≤ second ∧ second ≤ 0xBF) ∨
      (0xE1 ≤ head ∧ head ≤ 0xEC ∧ 0x80 ≤ second ∧ second ≤ 0xBF) ∨
      (head = 0xED ∧ 0x80 ≤ second ∧ second ≤ 0x9F) ∨
      (0xEE ≤ head ∧ head ≤ 0xEF ∧ 0x80 ≤ second ∧ second ≤ 0xBF) ↔
        low ≤ second ∧ second ≤ high) :
      secondOfThree head second = true ↔ low ≤ second ∧ second ≤ high :=
    decide_eq_true_iff.trans bounds
  have four (second low high : Nat) (bounds : (head = 0xF0 ∧ 0x90 ≤ second ∧ second ≤ 0xBF) ∨
      (0xF1 ≤ head ∧ head ≤ 0xF3 ∧ 0x80 ≤ second ∧ second ≤ 0xBF) ∨
      (head = 0xF4 ∧ 0x80 ≤ second ∧ second ≤ 0x8F) ↔ low ≤ second ∧ second ≤ high) :
      secondOfFour head second = true ↔ low ≤ second ∧ second ≤ high :=
    decide_eq_true_iff.trans bounds
  unfold first
  split_ifs with ascii two e0 ed e f0 f f4
  · rw [decodeCharacter_eq, decodeBytes, if_pos ascii]
    rfl
  · exact decode_two rest two _ (by omega)
  · exact decode_three _ _ rest (by omega) (by omega) (three _ _ _ (by omega))
  · exact decode_three _ _ rest (by omega) (by omega) (three _ _ _ (by omega))
  · exact decode_three _ _ rest (by omega) (by omega) (three _ _ _ (by omega))
  · exact decode_four _ _ rest (by omega) (by omega) (four _ _ _ (by omega))
  · exact decode_four _ _ rest (by omega) (by omega) (four _ _ _ (by omega))
  · exact decode_four _ _ rest (by omega) (by omega) (four _ _ _ (by omega))
  · rw [decodeCharacter_eq, decodeBytes, if_neg ascii, if_neg two, if_neg (by omega),
      if_neg (by omega)]
    rfl

/-- `String::from_utf8_lossy` is the decoder. -/
theorem decodeLossy_eq {rounds : Nat} {bytes : List UInt8} (enough : bytes.length ≤ rounds) :
    decodeLossy rounds bytes = decode bytes := by
  induction rounds generalizing bytes with
  | zero =>
    obtain rfl := List.eq_nil_of_length_eq_zero (Nat.le_zero.mp enough)
    rfl
  | succ rounds ih =>
    cases bytes with
    | nil => rfl
    | cons byte rest =>
      rw [List.length_cons] at enough
      rw [decodeLossy_cons, ih (by rw [List.length_drop]; omega), decode_cons]

theorem fromUtf8Lossy_eq : fromUtf8Lossy = decode :=
  funext fun _ => decodeLossy_eq (Nat.le_refl _)

/-- Chunks that are decoded one by one give the decoding of all of them exactly if none goes on
with a character of the chunks before it. -/
theorem fromUtf8Lossy_parts (parts : List (List UInt8)) :
    (parts.map fromUtf8Lossy).flatten = fromUtf8Lossy parts.flatten ↔ KeepsCharacters parts := by
  rw [fromUtf8Lossy_eq]
  exact decode_parts parts

end Foco.Utf8Chunks
