import Foco.RustText
import Foco.Utf16
import Foco.Utf8Bytes

/-!
`tools/lib.rs`: reading and writing text files. The encoding is told by the first bytes, and the
same marks are written back.
-/
namespace Foco.TextFiles
open Foco.RustText

inductive TextEncoding where
  | utf8
  | utf8Bom
  | utf16LeBom
  | utf16BeBom

inductive ToolRuntimeError where
  | unsupportedEncoding (path : Text)

/-! ## Units and bytes -/

/-- `u16::from_le_bytes`. -/
def fromLeBytes (first second : UInt8) : UInt16 := .ofNat (first.toNat + 256 * second.toNat)

/-- `u16::from_be_bytes`. -/
def fromBeBytes (first second : UInt8) : UInt16 := .ofNat (256 * first.toNat + second.toNat)

/-- `u16::to_le_bytes`. -/
def toLeBytes (unit : UInt16) : List UInt8 := [.ofNat (unit.toNat % 256), .ofNat (unit.toNat / 256)]

/-- `u16::to_be_bytes`. -/
def toBeBytes (unit : UInt16) : List UInt8 := [.ofNat (unit.toNat / 256), .ofNat (unit.toNat % 256)]

/-- `chunks_exact(2)`. -/
def chunksExact : List UInt8 → List (UInt8 × UInt8)
  | first :: second :: rest => (first, second) :: chunksExact rest
  | _ => []

/-! ## Files -/

/-- The unit of two bytes. Only the two encodings of UTF-16 are decoded this way. -/
def TextEncoding.unit (encoding : TextEncoding) (chunk : UInt8 × UInt8) : UInt16 :=
  match encoding with
  | .utf16LeBom => fromLeBytes chunk.1 chunk.2
  | .utf16BeBom => fromBeBytes chunk.1 chunk.2
  | .utf8 | .utf8Bom => 0

def decodeUtf16File (path : Text) (bytes : List UInt8) (encoding : TextEncoding) :
    Except ToolRuntimeError (String × TextEncoding) :=
  if bytes.length % 2 ≠ 0 then .error (.unsupportedEncoding path)
  else
    match Utf16.decode ((chunksExact bytes).map encoding.unit) with
    | some content => .ok (.ofList content, encoding)
    | none => .error (.unsupportedEncoding path)

def decodeUtf8File (path : Text) (bytes : List UInt8) (encoding : TextEncoding) :
    Except ToolRuntimeError (String × TextEncoding) :=
  match fromUtf8 bytes with
  | some content => .ok (content, encoding)
  | none => .error (.unsupportedEncoding path)

def decodeTextFile (path : Text) (bytes : List UInt8) :
    Except ToolRuntimeError (String × TextEncoding) :=
  match bytes.dropPrefix? [0xEF, 0xBB, 0xBF] with
  | some content => decodeUtf8File path content .utf8Bom
  | none =>
    match bytes.dropPrefix? [0xFF, 0xFE] with
    | some content => decodeUtf16File path content .utf16LeBom
    | none =>
      match bytes.dropPrefix? [0xFE, 0xFF] with
      | some content => decodeUtf16File path content .utf16BeBom
      | none => decodeUtf8File path bytes .utf8

def encodeTextFile (content : String) : TextEncoding → List UInt8
  | .utf8 => asBytes content
  | .utf8Bom => [0xEF, 0xBB, 0xBF] ++ asBytes content
  | .utf16LeBom => [0xFF, 0xFE] ++ (Utf16.encode content.toList).flatMap toLeBytes
  | .utf16BeBom => [0xFE, 0xFF] ++ (Utf16.encode content.toList).flatMap toBeBytes

/-! ## Byte orders -/

/-- A byte order: two bytes are a unit and a unit is two bytes. -/
structure ByteOrder (toBytes : UInt16 → List UInt8) (unit : UInt8 × UInt8 → UInt16) : Prop where
  toBytes_unit : ∀ chunk, toBytes (unit chunk) = [chunk.1, chunk.2]
  unit_toBytes : ∀ value, ∃ chunk, toBytes value = [chunk.1, chunk.2] ∧ unit chunk = value

theorem toNat_ofNat_byte {value : Nat} (fits : value < 256) : (UInt8.ofNat value).toNat = value := by
  rw [UInt8.toNat_ofNat']
  omega

theorem littleEndian : ByteOrder toLeBytes TextEncoding.utf16LeBom.unit where
  toBytes_unit chunk := by
    have first := chunk.1.toNat_lt
    have second := chunk.2.toNat_lt
    have low : (chunk.1.toNat + 256 * chunk.2.toNat) % 256 = chunk.1.toNat := by omega
    have high : (chunk.1.toNat + 256 * chunk.2.toNat) / 256 = chunk.2.toNat := by omega
    change toLeBytes (fromLeBytes chunk.1 chunk.2) = _
    rw [toLeBytes, fromLeBytes, Utf16.toNat_ofNat_unit (by omega), low, high, UInt8.ofNat_toNat,
      UInt8.ofNat_toNat]
  unit_toBytes value := by
    have fits : value.toNat < 0x10000 := value.toNat_lt
    refine ⟨(.ofNat (value.toNat % 256), .ofNat (value.toNat / 256)), rfl, ?_⟩
    have whole : value.toNat % 256 + 256 * (value.toNat / 256) = value.toNat := by omega
    change fromLeBytes _ _ = _
    rw [fromLeBytes, toNat_ofNat_byte (by omega), toNat_ofNat_byte (by omega), whole,
      UInt16.ofNat_toNat]

theorem bigEndian : ByteOrder toBeBytes TextEncoding.utf16BeBom.unit where
  toBytes_unit chunk := by
    have first := chunk.1.toNat_lt
    have second := chunk.2.toNat_lt
    have low : (256 * chunk.1.toNat + chunk.2.toNat) % 256 = chunk.2.toNat := by omega
    have high : (256 * chunk.1.toNat + chunk.2.toNat) / 256 = chunk.1.toNat := by omega
    change toBeBytes (fromBeBytes chunk.1 chunk.2) = _
    rw [toBeBytes, fromBeBytes, Utf16.toNat_ofNat_unit (by omega), low, high, UInt8.ofNat_toNat,
      UInt8.ofNat_toNat]
  unit_toBytes value := by
    have fits : value.toNat < 0x10000 := value.toNat_lt
    refine ⟨(.ofNat (value.toNat / 256), .ofNat (value.toNat % 256)), rfl, ?_⟩
    have whole : 256 * (value.toNat / 256) + value.toNat % 256 = value.toNat := by omega
    change fromBeBytes _ _ = _
    rw [fromBeBytes, toNat_ofNat_byte (by omega), toNat_ofNat_byte (by omega), whole,
      UInt16.ofNat_toNat]

section Orders

variable {toBytes : UInt16 → List UInt8} {unit : UInt8 × UInt8 → UInt16}

theorem ByteOrder.flatMap_units (order : ByteOrder toBytes unit) {bytes : List UInt8}
    (even : bytes.length % 2 = 0) : ((chunksExact bytes).map unit).flatMap toBytes = bytes := by
  induction bytes using chunksExact.induct with
  | case1 first second rest ih =>
    rw [List.length_cons, List.length_cons] at even
    rw [chunksExact, List.map_cons, List.flatMap_cons, order.toBytes_unit, ih (by omega)]
    rfl
  | case2 bytes other =>
    match bytes, other, even with
    | [], _, _ => rfl
    | [_], _, even => cases even
    | first :: second :: rest, other, _ => exact absurd rfl (other first second rest)

theorem ByteOrder.units_flatMap (order : ByteOrder toBytes unit) (units : List UInt16) :
    (chunksExact (units.flatMap toBytes)).map unit = units ∧
      (units.flatMap toBytes).length % 2 = 0 := by
  induction units with
  | nil => exact ⟨rfl, rfl⟩
  | cons value units ih =>
    obtain ⟨chunk, bytes, same⟩ := order.unit_toBytes value
    rw [List.flatMap_cons, bytes]
    rw [List.cons_append, List.singleton_append, chunksExact, List.map_cons, same, ih.1,
      List.length_cons, List.length_cons]
    exact ⟨rfl, by omega⟩

/-- What a file of a byte order is read as, and the only bytes that are read so. -/
theorem ByteOrder.decodeUtf16File_eq_ok_iff {encoding : TextEncoding}
    (order : ByteOrder toBytes encoding.unit) {path : Text} {bytes : List UInt8} {content : String}
    {other : TextEncoding} :
    decodeUtf16File path bytes encoding = .ok (content, other) ↔
      encoding = other ∧ (Utf16.encode content.toList).flatMap toBytes = bytes := by
  unfold decodeUtf16File
  constructor
  · intro decoded
    split at decoded
    · cases decoded
    · rename_i even
      split at decoded
      · rename_i text units
        obtain ⟨rfl, rfl⟩ := Prod.mk.inj (Except.ok.inj decoded)
        refine ⟨rfl, ?_⟩
        rw [String.toList_ofList, Utf16.encode_of_decode units,
          order.flatMap_units (Decidable.not_not.mp even)]
      · cases decoded
  · rintro ⟨rfl, rfl⟩
    obtain ⟨units, even⟩ := order.units_flatMap (Utf16.encode content.toList)
    rw [if_neg (not_not.mpr even), units, Utf16.decode_encode]
    dsimp only
    rw [String.ofList_toList]

end Orders

/-! ## Telling encodings apart -/

theorem byte_ne {value : Nat} {byte : UInt8} (small : value < 256) (other : value ≠ byte.toNat) :
    UInt8.ofNat value ≠ byte := by
  rintro rfl
  exact other (toNat_ofNat_byte small).symm

/-- Only the mark's own character is encoded to bytes that begin with those of the mark. -/
theorem eq_mark_of_utf8EncodeChar {c : Char} {behind rest : List UInt8}
    (same : String.utf8EncodeChar c ++ behind = 0xEF :: 0xBB :: 0xBF :: rest) : c = '\uFEFF' := by
  have head (value : Nat) (tail : List UInt8) (small : value < 256) (low : value ≠ 0xEF) :
      UInt8.ofNat value :: tail ≠ 0xEF :: 0xBB :: 0xBF :: rest := fun equal =>
    byte_ne small (show value ≠ (0xEF : UInt8).toNat from low) (List.cons.inj equal).1
  unfold String.utf8EncodeChar at same
  dsimp only at same
  split_ifs at same with one two three
  · exact absurd same (head _ _ (by omega) (by omega))
  · exact absurd same (head _ _ (by omega) (by omega))
  · obtain ⟨first, same⟩ := List.cons.inj same
    obtain ⟨second, same⟩ := List.cons.inj same
    obtain ⟨third, -⟩ := List.cons.inj same
    have first := congrArg UInt8.toNat first
    have second := congrArg UInt8.toNat second
    have third := congrArg UInt8.toNat third
    rw [toNat_ofNat_byte (by omega)] at first second third
    have first : c.val.toNat / 4096 % 16 + 224 = 0xEF := first
    have second : c.val.toNat / 64 % 64 + 128 = 0xBB := second
    have third : c.val.toNat % 64 + 128 = 0xBF := third
    refine Char.toNat_inj.mp ?_
    change c.val.toNat = 0xFEFF
    omega
  · exact absurd same (head _ _ (by omega) (by omega))

/-- No character is encoded to bytes that begin with one of the marks of UTF-16. -/
theorem head_utf8EncodeChar {c : Char} {behind rest : List UInt8} {first : UInt8}
    (high : 0xF8 ≤ first.toNat) : String.utf8EncodeChar c ++ behind ≠ first :: rest := by
  have head (value : Nat) (tail : List UInt8) (low : value < 0xF8) :
      UInt8.ofNat value :: tail ≠ first :: rest := fun equal =>
    byte_ne (by omega) (by omega) (List.cons.inj equal).1
  unfold String.utf8EncodeChar
  dsimp only
  split_ifs with one two three
  · exact head _ _ (by omega)
  · exact head _ _ (by omega)
  · exact head _ _ (by omega)
  · exact head _ _ (by omega)

theorem asBytes_mark {content : String} :
    content.toList.head? = some '\uFEFF' ↔
      ∃ rest, asBytes content = 0xEF :: 0xBB :: 0xBF :: rest := by
  rw [asBytes_eq_flatMap]
  cases content.toList with
  | nil => exact iff_of_false nofun nofun
  | cons c text =>
    rw [List.flatMap_cons, List.head?_cons, Option.some.injEq]
    refine ⟨?_, fun ⟨rest, same⟩ => eq_mark_of_utf8EncodeChar same⟩
    rintro rfl
    exact ⟨text.flatMap String.utf8EncodeChar, rfl⟩

theorem asBytes_head (content : String) {first : UInt8} (high : 0xF8 ≤ first.toNat)
    (rest : List UInt8) : asBytes content ≠ first :: rest := by
  rw [asBytes_eq_flatMap]
  cases content.toList with
  | nil => exact nofun
  | cons c text =>
    rw [List.flatMap_cons]
    exact head_utf8EncodeChar high

/-! ## Reading and writing -/

theorem dropPrefix_eq_some {bytes mark rest : List UInt8} :
    bytes.dropPrefix? mark = some rest ↔ bytes = mark ++ rest := by
  rw [List.dropPrefix?_eq_some_iff]
  constructor
  · rintro ⟨front, rfl, same⟩
    rw [eq_of_beq same]
  · rintro rfl
    exact ⟨mark, rfl, BEq.rfl⟩

theorem dropPrefix_eq_none {bytes mark : List UInt8} (none_ : bytes.dropPrefix? mark = none)
    (rest : List UInt8) : bytes ≠ mark ++ rest := fun same => by
  rw [dropPrefix_eq_some.mpr same] at none_
  cases none_

theorem decodeUtf8File_eq_ok_iff {path : Text} {bytes : List UInt8} {content : String}
    {encoding other : TextEncoding} :
    decodeUtf8File path bytes encoding = .ok (content, other) ↔
      encoding = other ∧ asBytes content = bytes := by
  rw [← fromUtf8_eq_some_iff]
  unfold decodeUtf8File
  split
  · rename_i text decoded
    rw [decoded, Except.ok.injEq, Prod.mk.injEq, Option.some.injEq, and_comm]
  · rename_i refused
    rw [refused]
    exact iff_of_false nofun fun both => by cases both.2

/-- A file is read as a content with an encoding exactly if these are written back as the file,
and a content of plain UTF-8 does not begin with the mark. -/
theorem decodeTextFile_eq_ok_iff {path : Text} {bytes : List UInt8} {content : String}
    {encoding : TextEncoding} :
    decodeTextFile path bytes = .ok (content, encoding) ↔
      encodeTextFile content encoding = bytes ∧
        (encoding = .utf8 → content.toList.head? ≠ some '\uFEFF') := by
  unfold decodeTextFile
  split
  · rename_i rest mark
    obtain rfl := dropPrefix_eq_some.mp mark
    rw [decodeUtf8File_eq_ok_iff]
    constructor
    · rintro ⟨rfl, rfl⟩
      exact ⟨rfl, nofun⟩
    · rintro ⟨written, unmarked⟩
      cases encoding with
      | utf8 => exact absurd (asBytes_mark.mpr ⟨rest, written⟩) (unmarked rfl)
      | utf8Bom => exact ⟨rfl, List.append_cancel_left written⟩
      | utf16LeBom => exact absurd (List.cons.inj written).1 (by decide)
      | utf16BeBom => exact absurd (List.cons.inj written).1 (by decide)
  · rename_i noMark
    split
    · rename_i rest mark
      obtain rfl := dropPrefix_eq_some.mp mark
      rw [littleEndian.decodeUtf16File_eq_ok_iff]
      constructor
      · rintro ⟨rfl, rfl⟩
        exact ⟨rfl, nofun⟩
      · rintro ⟨written, -⟩
        cases encoding with
        | utf8 => exact absurd written (asBytes_head content (by decide) _)
        | utf8Bom => exact absurd (List.cons.inj written).1 (by decide)
        | utf16LeBom => exact ⟨rfl, List.append_cancel_left written⟩
        | utf16BeBom => exact absurd (List.cons.inj written).1 (by decide)
    · rename_i noLittle
      split
      · rename_i rest mark
        obtain rfl := dropPrefix_eq_some.mp mark
        rw [bigEndian.decodeUtf16File_eq_ok_iff]
        constructor
        · rintro ⟨rfl, rfl⟩
          exact ⟨rfl, nofun⟩
        · rintro ⟨written, -⟩
          cases encoding with
          | utf8 => exact absurd written (asBytes_head content (by decide) _)
          | utf8Bom => exact absurd (List.cons.inj written).1 (by decide)
          | utf16LeBom => exact absurd (List.cons.inj written).1 (by decide)
          | utf16BeBom => exact ⟨rfl, List.append_cancel_left written⟩
      · rename_i noBig
        rw [decodeUtf8File_eq_ok_iff]
        constructor
        · rintro ⟨rfl, rfl⟩
          refine ⟨rfl, fun _ mark => ?_⟩
          obtain ⟨rest, bytes⟩ := asBytes_mark.mp mark
          exact dropPrefix_eq_none noMark rest bytes
        · rintro ⟨rfl, -⟩
          cases encoding with
          | utf8 => exact ⟨rfl, rfl⟩
          | utf8Bom => exact absurd rfl (dropPrefix_eq_none noMark _)
          | utf16LeBom => exact absurd rfl (dropPrefix_eq_none noLittle _)
          | utf16BeBom => exact absurd rfl (dropPrefix_eq_none noBig _)

theorem encodeTextFile_of_decoded {path : Text} {bytes : List UInt8} {content : String}
    {encoding : TextEncoding} (decoded : decodeTextFile path bytes = .ok (content, encoding)) :
    encodeTextFile content encoding = bytes := by
  rw [decodeTextFile_eq_ok_iff] at decoded
  exact decoded.1

/-- What a written content is read back as. -/
def readBack (content : String) (encoding : TextEncoding) : String × TextEncoding :=
  match encoding, content.toList with
  | .utf8, '\uFEFF' :: rest => (.ofList rest, .utf8Bom)
  | _, _ => (content, encoding)

theorem decodeTextFile_encodeTextFile (path : Text) (content : String) (encoding : TextEncoding) :
    decodeTextFile path (encodeTextFile content encoding) = .ok (readBack content encoding) := by
  unfold readBack
  split <;> rw [decodeTextFile_eq_ok_iff]
  · rename_i rest text
    refine ⟨?_, nofun⟩
    change _ = asBytes content
    rw [asBytes_eq_flatMap content, text, List.flatMap_cons, encodeTextFile, asBytes_eq_flatMap,
      String.toList_ofList]
    rfl
  · rename_i other
    refine ⟨rfl, ?_⟩
    rintro rfl mark
    obtain ⟨rest, text⟩ := List.head?_eq_some_iff.mp mark
    exact other rest rfl text

/-- The bytes of a content behind the mark of its encoding. -/
def TextEncoding.contentBytes (encoding : TextEncoding) (content : String) : List UInt8 :=
  match encoding with
  | .utf8 | .utf8Bom => asBytes content
  | .utf16LeBom => (Utf16.encode content.toList).flatMap toLeBytes
  | .utf16BeBom => (Utf16.encode content.toList).flatMap toBeBytes

def TextEncoding.mark : TextEncoding → List UInt8
  | .utf8 => []
  | .utf8Bom => [0xEF, 0xBB, 0xBF]
  | .utf16LeBom => [0xFF, 0xFE]
  | .utf16BeBom => [0xFE, 0xFF]

theorem encodeTextFile_eq (content : String) (encoding : TextEncoding) :
    encodeTextFile content encoding = encoding.mark ++ encoding.contentBytes content := by
  cases encoding <;> rfl

theorem contentBytes_append (encoding : TextEncoding) (front back : String) :
    encoding.contentBytes (front ++ back) =
      encoding.contentBytes front ++ encoding.contentBytes back := by
  have units (toBytes : UInt16 → List UInt8) :
      (Utf16.encode (front ++ back).toList).flatMap toBytes =
        (Utf16.encode front.toList).flatMap toBytes ++
          (Utf16.encode back.toList).flatMap toBytes := by
    rw [String.toList_append, Utf16.encode_append, List.flatMap_append]
  cases encoding with
  | utf8 | utf8Bom => exact asBytes_append front back
  | utf16LeBom => exact units toLeBytes
  | utf16BeBom => exact units toBeBytes

/-- An edit puts the bytes of the new text in the place of those of the old one. -/
theorem encodeTextFile_replace {path : Text} {bytes : List UInt8} {before old after : String}
    {encoding : TextEncoding}
    (decoded : decodeTextFile path bytes = .ok (before ++ old ++ after, encoding)) :
    ∃ head tail, bytes = head ++ encoding.contentBytes old ++ tail ∧
      ∀ new, encodeTextFile (before ++ new ++ after) encoding =
        head ++ encoding.contentBytes new ++ tail := by
  have written (middle : String) : encodeTextFile (before ++ middle ++ after) encoding =
      encoding.mark ++ encoding.contentBytes before ++ encoding.contentBytes middle ++
        encoding.contentBytes after := by
    rw [encodeTextFile_eq, contentBytes_append, contentBytes_append, List.append_assoc,
      List.append_assoc, List.append_assoc]
  refine ⟨encoding.mark ++ encoding.contentBytes before, encoding.contentBytes after, ?_, written⟩
  rw [← written old]
  exact (encodeTextFile_of_decoded decoded).symm

/-- A file that is read is written back as it was, a content that is written is read back, and an
edit changes no other bytes. -/
theorem textFile_roundTrips (path : Text) :
    (∀ bytes content encoding, decodeTextFile path bytes = .ok (content, encoding) →
        encodeTextFile content encoding = bytes) ∧
      (∀ content encoding, decodeTextFile path (encodeTextFile content encoding) =
        .ok (readBack content encoding)) ∧
      ∀ bytes before old after encoding,
        decodeTextFile path bytes = .ok (before ++ old ++ after, encoding) →
        ∃ head tail, bytes = head ++ encoding.contentBytes old ++ tail ∧
          ∀ new, encodeTextFile (before ++ new ++ after) encoding =
            head ++ encoding.contentBytes new ++ tail :=
  ⟨fun _ _ _ decoded => encodeTextFile_of_decoded decoded,
    decodeTextFile_encodeTextFile path, fun _ _ _ _ _ decoded => encodeTextFile_replace decoded⟩

theorem textFile_roundTrips_little :
    encodeTextFile "é" .utf16LeBom = [0xFF, 0xFE, 0xE9, 0x00] :=
  (textFile_roundTrips "a.txt".toList).1 [0xFF, 0xFE, 0xE9, 0x00] "é" .utf16LeBom rfl

end Foco.TextFiles
