import PackExchange.Bytes

/-!
# Text as bytes

Text travels as UTF-8.

* `Bytes.ofText` — the bytes of a text;
* `Bytes.toText?` — the text that bytes spell, if they are well-formed UTF-8: no over-long
  form, no surrogate, nothing above the last code point.

The two are inverse to each other: `toText?_ofText` and `ofText_of_toText?`.
-/

namespace PackExchange.Bytes

/-- The bytes of a text. -/
def ofText (s : String) : Bytes := s.toByteArray.data.toList

/-- The text that bytes spell, if they are well-formed. -/
def toText? (bs : Bytes) : Option String := String.fromUTF8? ⟨bs.toArray⟩

theorem toText?_ofText (s : String) : toText? (ofText s) = some s := by
  have h : s.toByteArray.IsValidUTF8 := s.isValidUTF8
  simp [toText?, ofText, String.fromUTF8?, String.fromUTF8, h]

theorem ofText_of_toText? {bs : Bytes} {s : String} (h : toText? bs = some s) : ofText s = bs := by
  simp only [toText?, String.fromUTF8?] at h
  split at h
  · cases h
    simp [ofText, String.fromUTF8]
  · cases h

end PackExchange.Bytes
