/-!
The UTF-8 bytes of a string, and the string of bytes that are UTF-8.
-/
namespace Foco.RustText

/-- `str::as_bytes`. -/
def asBytes (text : String) : List UInt8 := text.toUTF8.data.toList

/-- `String::from_utf8`. -/
def fromUtf8 (bytes : List UInt8) : Option String := String.fromUTF8? ⟨bytes.toArray⟩

theorem fromUtf8_asBytes (text : String) : fromUtf8 (asBytes text) = some text := by
  have same : (⟨(asBytes text).toArray⟩ : ByteArray) = text.toUTF8 := by simp [asBytes]
  unfold fromUtf8
  rw [same]
  unfold String.fromUTF8?
  rw [String.toUTF8_eq_toByteArray, dif_pos text.isValidUTF8]
  rfl

/-- Only the bytes of a string decode to it. -/
theorem fromUtf8_eq_some_iff {bytes : List UInt8} {text : String} :
    fromUtf8 bytes = some text ↔ asBytes text = bytes := by
  refine ⟨fun decoded => ?_, fun same => same ▸ fromUtf8_asBytes text⟩
  unfold fromUtf8 String.fromUTF8? at decoded
  split at decoded
  · obtain rfl := Option.some.inj decoded
    rfl
  · cases decoded

/-- The bytes of a string are those of its characters. -/
theorem asBytes_eq_flatMap (text : String) :
    asBytes text = text.toList.flatMap String.utf8EncodeChar := by
  have list : text.toByteArray = text.toList.utf8Encode := by
    rw [← String.toByteArray_ofList, String.ofList_toList]
  rw [asBytes, String.toUTF8_eq_toByteArray, list, List.utf8Encode, List.toList_data_toByteArray]

theorem asBytes_append (front back : String) :
    asBytes (front ++ back) = asBytes front ++ asBytes back := by
  rw [asBytes_eq_flatMap, String.toList_append, List.flatMap_append, ← asBytes_eq_flatMap,
    ← asBytes_eq_flatMap]

end Foco.RustText
