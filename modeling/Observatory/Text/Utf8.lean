/-!
# Text as bytes

What travels between peers is bytes: the UTF-8 form of the text.

* `decode_encode` — encoded text is valid and decodes to itself.
-/

namespace Observatory

/-- Bytes in the order they travel. -/
abbrev Bytes := List UInt8

namespace Text.Utf8

def encode (s : String) : Bytes := s.toUTF8.data.toList

/-- The text whose UTF-8 form the bytes are, if there is one. -/
def decode? (bytes : Bytes) : Option String := String.fromUTF8? ⟨bytes.toArray⟩

/-- Encoded text is valid and decodes to itself. -/
theorem decode_encode (s : String) : decode? (encode s) = some s := by
  have h : (⟨(encode s).toArray⟩ : ByteArray) = s.toUTF8 := by simp [encode]
  rw [decode?, h, String.fromUTF8?, dif_pos (show s.toUTF8.IsValidUTF8 from s.isValidUTF8)]
  rfl

end Text.Utf8

end Observatory
