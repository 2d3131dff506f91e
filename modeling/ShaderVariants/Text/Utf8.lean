import ShaderVariants.Text.Basic

/-!
# Texts as bytes

Files hold bytes; a text is written in UTF-8, and bytes that are not UTF-8 are
no text.
-/

namespace ShaderVariants.Text

/-- The bytes of a text. -/
def toUtf8 (t : Text) : ByteArray := (String.ofList t).toUTF8

/-- The text that the bytes are, if they are UTF-8. -/
def ofUtf8? (bytes : ByteArray) : Option Text := (String.fromUTF8? bytes).map String.toList

/-- A text reads back from its bytes. -/
@[simp] theorem ofUtf8?_toUtf8 (t : Text) : ofUtf8? t.toUtf8 = some t := by
  have h : (String.ofList t).toByteArray.IsValidUTF8 := (String.ofList t).isValidUTF8
  rw [ofUtf8?, toUtf8, String.toUTF8, String.fromUTF8?, dif_pos h]
  exact congrArg some String.toList_ofList

/-- Bytes that are a text are the bytes of that text. -/
theorem toUtf8_of_ofUtf8? {bytes : ByteArray} {t : Text} (h : ofUtf8? bytes = some t) :
    t.toUtf8 = bytes := by
  simp only [ofUtf8?, String.fromUTF8?, Option.map_eq_some_iff] at h
  obtain ⟨s, hs, rfl⟩ := h
  split at hs
  · cases hs
    simp [toUtf8, String.fromUTF8]
  · simp at hs

end ShaderVariants.Text
