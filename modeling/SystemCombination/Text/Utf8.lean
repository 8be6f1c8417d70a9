/-! Text as bytes. `encode` writes a text in UTF-8 and `decode?` reads bytes that are UTF-8;
`decode?_eq_some_iff` says that the two are inverse to each other. -/

namespace SystemCombination.Text

def encode (text : String) : List UInt8 := text.toByteArray.data.toList

/-- The text whose UTF-8 bytes are given, if there is one. -/
def decode? (bytes : List UInt8) : Option String := String.fromUTF8? ⟨bytes.toArray⟩

theorem decode?_eq_some_iff {bytes : List UInt8} {text : String} :
    decode? bytes = some text ↔ bytes = encode text := by
  constructor
  · intro h
    simp only [decode?, String.fromUTF8?] at h
    split at h
    · cases h
      simp [encode, String.fromUTF8]
    · cases h
  · rintro rfl
    simp [decode?, encode, String.fromUTF8?, String.fromUTF8, text.isValidUTF8]

@[simp] theorem decode?_encode (text : String) : decode? (encode text) = some text :=
  decode?_eq_some_iff.mpr rfl

end SystemCombination.Text
