/-!
Text as bytes: the UTF-8 form of a text and reading it back.
-/
namespace LedgerNode

abbrev Bytes := List UInt8

namespace Text

/-- The UTF-8 form of a text. -/
def utf8 (s : String) : Bytes := s.toByteArray.data.toList

/-- The text that the bytes are the UTF-8 form of, if there is one. -/
def ofUtf8? (b : Bytes) : Option String := String.fromUTF8? ⟨b.toArray⟩

@[simp] theorem ofUtf8?_utf8 (s : String) : ofUtf8? (utf8 s) = some s := by
  have h : (ByteArray.mk (utf8 s).toArray) = s.toByteArray := by simp [utf8]
  simp [ofUtf8?, h, String.fromUTF8?, s.isValidUTF8, String.fromUTF8]

theorem utf8_injective {s t : String} (h : utf8 s = utf8 t) : s = t :=
  Option.some.inj (by rw [← ofUtf8?_utf8 s, h, ofUtf8?_utf8])

theorem utf8_of_ofUtf8? {b : Bytes} {s : String} (h : ofUtf8? b = some s) : utf8 s = b := by
  simp only [ofUtf8?, String.fromUTF8?] at h
  split at h
  · cases h; simp [utf8, String.fromUTF8]
  · cases h

end Text
end LedgerNode
