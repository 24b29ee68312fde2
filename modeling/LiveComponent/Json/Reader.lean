import LiveComponent.Json.Basic

namespace LiveComponent

namespace Json

/-!
# Reading values

A text is read as one value with blanks around it.  Strings hold no control characters, numbers have no
leading zeros, and nothing follows the value.
-/

/-- A blank between values. -/
def isGap (c : Char) : Bool :=
  c == ' ' || c == '\n' || c == '\t' || c == '\r'

/-- The text without the blanks at its start. -/
def skipGap (text : Text) : Text :=
  text.dropWhile isGap

/-! ## Strings -/

/-- The value of a hexadecimal digit. -/
def hexDigit? (c : Char) : Option Nat :=
  if c.isDigit then some (c.toNat - '0'.toNat)
  else if 'a' ≤ c && c ≤ 'f' then some (c.toNat - 'a'.toNat + 10)
  else if 'A' ≤ c && c ≤ 'F' then some (c.toNat - 'A'.toNat + 10)
  else none

/-- The value of four hexadecimal digits. -/
def hexFour? (a b c d : Char) : Option Nat := do
  let a ← hexDigit? a
  let b ← hexDigit? b
  let c ← hexDigit? c
  let d ← hexDigit? d
  return ((a * 16 + b) * 16 + c) * 16 + d

/-- The character of an escape of one letter. -/
def shortEscape? (c : Char) : Option Char :=
  [('"', '"'), ('\\', '\\'), ('/', '/'), ('b', '\x08'), ('f', '\x0c'), ('n', '\n'), ('r', '\r'),
    ('t', '\t')].lookup c

/-- The code units of a string up to its closing quote, and the text after it. -/
def readUnits : Text → Option (List Nat × Text)
  | [] => none
  | '"' :: rest => some ([], rest)
  | '\\' :: 'u' :: a :: b :: c :: d :: rest =>
    match hexFour? a b c d, readUnits rest with
    | some unit, some (units, after) => some (unit :: units, after)
    | _, _ => none
  | '\\' :: e :: rest =>
    match shortEscape? e, readUnits rest with
    | some c, some (units, after) => some (c.toNat :: units, after)
    | _, _ => none
  | c :: rest =>
    if c.toNat < 32 then none
    else (readUnits rest).map fun (units, after) => (c.toNat :: units, after)

/-- Whether the code unit is the first of a surrogate pair. -/
def isHighHalf (unit : Nat) : Bool :=
  0xD800 ≤ unit && unit < 0xDC00

/-- Whether the code unit is the second of a surrogate pair. -/
def isLowHalf (unit : Nat) : Bool :=
  0xDC00 ≤ unit && unit < 0xE000

/-- The text of code units; none if there is half of a surrogate pair. -/
def textOfUnits? : List Nat → Option Text
  | [] => some []
  | [unit] => if isHighHalf unit || isLowHalf unit then none else some [Char.ofNat unit]
  | unit :: next :: rest =>
    if isLowHalf unit then
      none
    else if isHighHalf unit then
      if isLowHalf next then
        (textOfUnits? rest).map
          (Char.ofNat (0x10000 + (unit - 0xD800) * 0x400 + (next - 0xDC00)) :: ·)
      else
        none
    else
      (textOfUnits? (next :: rest)).map (Char.ofNat unit :: ·)

/-- A string after its opening quote. -/
def readString? (text : Text) : Option (Json × Text) :=
  (readUnits text).map fun (units, rest) =>
    match textOfUnits? units with
    | some value => (.text value, rest)
    | none => (brokenText, rest)

/-! ## Numbers -/

/-- At least one digit after a lead. -/
def digitsAfter? (lead text : Text) : Option (Text × Text) :=
  let digits := text.takeWhile Char.isDigit
  if digits.isEmpty then none else some (lead ++ digits, text.drop digits.length)

/-- The fraction of a number, if there is one. -/
def readFraction? : Text → Option (Text × Text)
  | '.' :: rest => digitsAfter? ['.'] rest
  | rest => some ([], rest)

/-- The exponent of a number, if there is one. -/
def readExponent? : Text → Option (Text × Text)
  | c :: rest =>
    if c == 'e' || c == 'E' then
      match rest with
      | '+' :: more => digitsAfter? [c, '+'] more
      | '-' :: more => digitsAfter? [c, '-'] more
      | more => digitsAfter? [c] more
    else
      some ([], c :: rest)
  | [] => some ([], [])

/-- The integral part of a number. -/
def readIntegral? : Text → Option (Text × Text)
  | '0' :: rest => if rest.head?.any Char.isDigit then none else some (['0'], rest)
  | rest => digitsAfter? [] rest

/-- A number. -/
def readNumber? (text : Text) : Option (Json × Text) := do
  let sign := text.takeWhile (· == '-') |>.take 1
  let (integral, rest) ← readIntegral? (text.drop sign.length)
  let (fraction, rest) ← readFraction? rest
  let (exponent, rest) ← readExponent? rest
  return (.number (sign ++ integral ++ fraction ++ exponent), rest)

/-! ## Values -/

/-- The name of a member and the text after its colon. -/
def readName? (text : Text) : Option (Text × Text) :=
  match skipGap text with
  | '"' :: rest =>
    match readString? rest with
    | some (.text name, rest) =>
      match skipGap rest with
      | ':' :: rest => some (name, rest)
      | _ => none
    | _ => none
  | _ => none

mutual

/-- A value at the start of a text, and the text after it.  The first argument bounds the number of
values and brackets. -/
def readValue? : Nat → Text → Option (Json × Text)
  | 0, _ => none
  | count + 1, input =>
    match skipGap input with
    | 'n' :: 'u' :: 'l' :: 'l' :: rest => some (.null, rest)
    | 't' :: 'r' :: 'u' :: 'e' :: rest => some (.bool true, rest)
    | 'f' :: 'a' :: 'l' :: 's' :: 'e' :: rest => some (.bool false, rest)
    | '"' :: rest => readString? rest
    | '[' :: rest =>
      match skipGap rest with
      | ']' :: rest => some (.list [], rest)
      | rest => (readItems? count rest).map fun (items, rest) => (.list items, rest)
    | '\x7b' :: rest =>
      match skipGap rest with
      | '\x7d' :: rest => some (.object [], rest)
      | rest => (readMembers? count rest).map fun (members, rest) => (.object members, rest)
    | rest => readNumber? rest

/-- The items of a list up to its closing bracket. -/
def readItems? : Nat → Text → Option (List Json × Text)
  | 0, _ => none
  | count + 1, input =>
    match readValue? count input with
    | some (item, rest) =>
      match skipGap rest with
      | ',' :: rest => (readItems? count rest).map fun (items, rest) => (item :: items, rest)
      | ']' :: rest => some ([item], rest)
      | _ => none
    | none => none

/-- The members of an object up to its closing brace. -/
def readMembers? : Nat → Text → Option (List (Text × Json) × Text)
  | 0, _ => none
  | count + 1, input =>
    match readName? input with
    | some (name, rest) =>
      match readValue? count rest with
      | some (value, rest) =>
        match skipGap rest with
        | ',' :: rest =>
          (readMembers? count rest).map fun (members, rest) => ((name, value) :: members, rest)
        | '\x7d' :: rest => some ([(name, value)], rest)
        | _ => none
      | none => none
    | none => none

end

/-- The value that a text stands for. -/
def read? (text : Text) : Option Json :=
  match readValue? (2 * text.length + 2) text with
  | some (value, rest) => if (skipGap rest).isEmpty then some value else none
  | none => none

end Json

end LiveComponent
