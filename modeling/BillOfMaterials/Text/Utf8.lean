/-! # Text as bytes

    Files hold texts in UTF-8. -/

namespace BillOfMaterials.Text

/-- A text's bytes. -/
def encodeUtf8 (text : String) : List UInt8 := text.toUTF8.data.toList

theorem encodeUtf8_append (first second : String) :
    encodeUtf8 (first ++ second) = encodeUtf8 first ++ encodeUtf8 second := by
  simp [encodeUtf8]

/-- Texts of the same bytes are the same. -/
theorem encodeUtf8_inj {first second : String} :
    encodeUtf8 first = encodeUtf8 second ↔ first = second := by
  rw [encodeUtf8, encodeUtf8, Array.toList_inj, ← ByteArray.ext_iff, String.toUTF8_eq_toByteArray,
    String.toUTF8_eq_toByteArray, String.toByteArray_inj]

/-- The text of bytes, if they are the bytes of one. -/
def decodeUtf8? (bytes : List UInt8) : Option String := String.fromUTF8? ⟨bytes.toArray⟩

end BillOfMaterials.Text
