import LiveComponent.Text.Basic

namespace LiveComponent

/-!
# Written values

The values of the JSON format.  A number is kept as it is written, so no digit is lost before a reader
says which kind of number it wants.
-/

/-- A value of the JSON format. -/
inductive Json where
  | null
  | bool (value : Bool)
  /-- A number as it is written. -/
  | number (literal : Text)
  | text (value : Text)
  /-- A string with half of a surrogate pair, which stands for no text. -/
  | brokenText
  | list (items : List Json)
  /-- Members in the order in which they are written; names may repeat. -/
  | object (members : List (Text × Json))
deriving Repr, Inhabited

namespace Json

/-- A natural number. -/
def ofNat (n : Nat) : Json :=
  number (Text.ofNat n)

/-- A text or nothing. -/
def ofText? : Option Text → Json
  | none => null
  | some value => text value

/-- A list of texts. -/
def ofTexts (texts : List Text) : Json :=
  list (texts.map text)

/-- An object with the given members. -/
def ofMembers (members : List (String × Json)) : Json :=
  object (members.map fun (name, value) => (name.toList, value))

/-- The value of a text. -/
def asText? : Json → Option Text
  | text value => some value
  | _ => none

/-- The value of a truth value. -/
def asBool? : Json → Option Bool
  | bool value => some value
  | _ => none

/-- The number with the given decimal digits. -/
def valueOfDigits (digits : Text) : Nat :=
  digits.foldl (fun value c => 10 * value + (c.toNat - '0'.toNat)) 0

/-- The value of a natural number of at most 64 bits. -/
def asWord? : Json → Option Nat
  | number literal =>
    if !literal.isEmpty && literal.all Char.isDigit && valueOfDigits literal < UInt64.size then
      some (valueOfDigits literal)
    else
      none
  | _ => none

/-- The items of a list. -/
def asList? : Json → Option (List Json)
  | list items => some items
  | _ => none

/-- The texts of a list of texts. -/
def asTexts? (json : Json) : Option (List Text) :=
  json.asList?.bind fun items => items.mapM asText?

/-- The last member of a name in an object. -/
def member? (name : Text) : Json → Option Json
  | object members => members.reverse.lookup name
  | _ => none

end Json

end LiveComponent
