import LiveComponent.Json.Basic

namespace LiveComponent

namespace Json

/-!
# Printing values

A value is printed without blanks.  Quotes, backslashes and control characters are escaped, everything
else stands for itself.
-/

/-- A character between quotes. -/
def printedChar (c : Char) : Text :=
  match c with
  | '"' => "\\\""
  | '\\' => "\\\\"
  | '\n' => "\\n"
  | '\r' => "\\r"
  | '\t' => "\\t"
  | '\x08' => "\\b"
  | '\x0c' => "\\f"
  | _ =>
    if c.toNat < 32 then
      "\\u00".toList ++ [Nat.digitChar (c.toNat / 16), Nat.digitChar (c.toNat % 16)]
    else
      [c]

/-- A string. -/
def printedString (value : Text) : Text :=
  '"' :: (value.flatMap printedChar ++ ['"'])

mutual

/-- The text of a value. -/
def print : Json → Text
  | null => "null"
  | bool true => "true"
  | bool false => "false"
  | number literal => literal
  | text value => printedString value
  | brokenText => "null"
  | list items => '[' :: (Text.joinWith [','] (printAll items) ++ [']'])
  | object members =>
    '\x7b' :: (Text.joinWith [','] (printMembers members) ++ ['\x7d'])

/-- The texts of items. -/
def printAll : List Json → List Text
  | [] => []
  | item :: items => print item :: printAll items

/-- The texts of members. -/
def printMembers : List (Text × Json) → List Text
  | [] => []
  | (name, value) :: members =>
    (printedString name ++ (':' :: print value)) :: printMembers members

end

end Json

end LiveComponent
