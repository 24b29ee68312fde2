import LiveComponent.Text.Printable
import LiveComponent.Text.Basic

namespace LiveComponent

/-!
# Quoted text

A text is shown between double quotes.  What cannot be shown on its own is written as an escape.
-/

namespace Text

/-- An escape by the number of the character. -/
def numberEscape (c : Char) : Text :=
  "\\u\x7b".toList ++ Nat.toDigits 16 c.toNat ++ "\x7d".toList

/-- A character between quotes. -/
def quotedChar (c : Char) : Text :=
  if c = '"' then "\\\""
  else if c = '\\' then "\\\\"
  else if c = '\n' then "\\n"
  else if c = '\r' then "\\r"
  else if c = '\t' then "\\t"
  else if c.toNat = 0 then "\\0"
  else if isPrintableAlone c then [c]
  else numberEscape c

/-- The text between double quotes. -/
def quoted (text : Text) : Text :=
  '"' :: (text.flatMap quotedChar ++ ['"'])

end Text

end LiveComponent
