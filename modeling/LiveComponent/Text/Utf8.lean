import LiveComponent.Text.Basic

namespace LiveComponent

/-!
# UTF-8

Hashes, sizes and files see a text through its UTF-8 bytes.
-/

namespace Text

/-- The UTF-8 bytes of the text. -/
def bytes (text : Text) : List UInt8 :=
  text.flatMap String.utf8EncodeChar

/-- The number of UTF-8 bytes of the text. -/
def byteSize (text : Text) : Nat :=
  text.foldl (fun size c => size + c.utf8Size) 0

/-- The text with the given UTF-8 bytes, if they are valid. -/
def ofBytes? (bytes : List UInt8) : Option Text :=
  (String.fromUTF8? ⟨bytes.toArray⟩).map String.toList

/-- The sizes of the characters add up from any start. -/
theorem foldl_utf8Size (text : Text) (start : Nat) :
    text.foldl (fun size c => size + c.utf8Size) start =
      start + text.foldl (fun size c => size + c.utf8Size) 0 := by
  induction text generalizing start with
  | nil => rfl
  | cons c rest ih =>
    rw [List.foldl_cons, List.foldl_cons, ih, ih (0 + c.utf8Size)]
    omega

/-- The size of a text is that of its first character and of the rest. -/
theorem byteSize_cons (c : Char) (rest : Text) :
    byteSize (c :: rest) = c.utf8Size + byteSize rest := by
  rw [byteSize, byteSize, List.foldl_cons, foldl_utf8Size]
  omega

end Text

end LiveComponent
