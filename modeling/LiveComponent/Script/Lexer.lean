import LiveComponent.Script.Token
import LiveComponent.Text.Identifier

namespace LiveComponent

/-!
# Reading tokens

The next token of a text, after blanks and comments.  A slash is read as an operator; the parser asks
for a regular expression where one may stand.  In the same way a closing angle bracket is read alone
and joined with what follows where an operator may stand.
-/

namespace Lexer

/-- A character that ends a line. -/
def isLineEnd (c : Char) : Bool :=
  c == '\n' || c == '\r' || c.toNat == 0x2028 || c.toNat == 0x2029

/-- A blank between tokens that does not end the line. -/
def isSpace (c : Char) : Bool :=
  let n := c.toNat
  n == 9 || n == 11 || n == 12 || n == 32 || n == 0x85 || n == 0xA0 || n == 0x1680 ||
    (0x2000 ≤ n && n ≤ 0x200B) || n == 0x202F || n == 0x205F || n == 0x3000 || n == 0xFEFF

/-! ## Blanks and comments -/

/-- What the comments before a token say. -/
structure Notes where
  /-- The call after them has no effects. -/
  call : Bool
  /-- The calls of the function after them have no effects. -/
  function : Bool

/-- No comment says anything. -/
def Notes.none : Notes :=
  ⟨false, false⟩

/-- The notes with what one more comment says. -/
def Notes.add (notes : Notes) (comment : Text) : Notes :=
  match comment.dropWhile (fun c => c == ' ' || c == '\t' || c == '\n' || c == '\r' || c == '\x0c')
  with
  | c :: rest =>
    if c == '@' || c == '#' then
      ⟨notes.call || "__PURE__".toList.isPrefixOf rest,
        notes.function || "__NO_SIDE_EFFECTS__".toList.isPrefixOf rest⟩
    else
      notes
  | [] => notes

/-- What stands between two tokens. -/
inductive Gap where
  | blank
  | lineComment
  /-- At the star that opens a comment. -/
  | blockOpen
  | blockComment
  /-- At the slash that closes a comment. -/
  | blockClose

/-- The place after blanks and comments. -/
structure Start where
  rest : Text
  offset : Nat
  /-- Whether a line ended before the place. -/
  newline : Bool
  notes : Notes
  /-- Whether all comments are closed. -/
  closed : Bool

/-- Skip blanks and comments. -/
def skip : Gap → Nat → Bool → Notes → Text → Start
  | .blank, offset, newline, notes, [] => ⟨[], offset, newline, notes, true⟩
  | .lineComment, offset, newline, notes, [] => ⟨[], offset, newline, notes, true⟩
  | _, offset, newline, notes, [] => ⟨[], offset, newline, notes, false⟩
  | .blank, offset, newline, notes, c :: rest =>
    if isLineEnd c then
      skip .blank (offset + 1) true notes rest
    else if isSpace c then
      skip .blank (offset + 1) newline notes rest
    else if c == '/' && rest.head? == some '/' then
      skip .lineComment (offset + 1) newline (notes.add (rest.drop 1)) rest
    else if c == '/' && rest.head? == some '*' then
      skip .blockOpen (offset + 1) newline (notes.add (rest.drop 1)) rest
    else
      ⟨c :: rest, offset, newline, notes, true⟩
  | .lineComment, offset, newline, notes, c :: rest =>
    if isLineEnd c then
      skip .blank (offset + 1) true notes rest
    else
      skip .lineComment (offset + 1) newline notes rest
  | .blockOpen, offset, newline, notes, _ :: rest =>
    skip .blockComment (offset + 1) newline notes rest
  | .blockComment, offset, newline, notes, c :: rest =>
    if c == '*' && rest.head? == some '/' then
      skip .blockClose (offset + 1) newline notes rest
    else
      skip .blockComment (offset + 1) (newline || isLineEnd c) notes rest
  | .blockClose, offset, newline, notes, _ :: rest =>
    skip .blank (offset + 1) newline notes rest

/-! ## Single tokens -/

/-- A token with the number of characters it takes and whether it is well formed. -/
structure Reading where
  token : Token
  size : Nat
  valid : Bool

/-- A reading of something that is no token. -/
def Reading.bad : Reading :=
  ⟨.bad, 1, false⟩

/-- The value of a hexadecimal digit. -/
def hexValue? (c : Char) : Option Nat :=
  if '0' ≤ c && c ≤ '9' then some (c.toNat - '0'.toNat)
  else if 'a' ≤ c && c ≤ 'f' then some (c.toNat - 'a'.toNat + 10)
  else if 'A' ≤ c && c ≤ 'F' then some (c.toNat - 'A'.toNat + 10)
  else none

/-- The value of hexadecimal digits. -/
def hexNumber? : Nat → Text → Option Nat
  | value, [] => some value
  | value, c :: rest =>
    match hexValue? c with
    | some digit => hexNumber? (16 * value + digit) rest
    | none => none

/-- The value of the first `count` characters as hexadecimal digits. -/
def fixedHex? (count : Nat) (text : Text) : Option Nat :=
  let digits := text.take count
  if digits.length = count then hexNumber? 0 digits else none

/-- The code point written after a backslash and `u`, with the number of its characters: four digits,
or some digits in braces. -/
def codePoint? (text : Text) : Option (Nat × Nat) :=
  match text with
  | '\x7b' :: rest =>
    let digits := rest.takeWhile (· != '\x7d')
    if digits.isEmpty || digits.length = rest.length then
      none
    else
      match hexNumber? 0 digits with
      | some value => if value ≤ 0x10FFFF then some (value, digits.length + 2) else none
      | none => none
  | _ => (fixedHex? 4 text).map fun value => (value, 4)

/-- The characters of a name from here on, with their count; the flags tell whether there were escapes
and whether all of them are allowed.  The counter bounds the number of characters. -/
def readName : Nat → Bool → Text → Text × Nat × Bool × Bool
  | 0, _, _ => ([], 0, false, true)
  | count + 1, isFirst, '\\' :: rest =>
    match rest with
    | 'u' :: digits =>
      match codePoint? digits with
      | some (value, size) =>
        let c := Char.ofNat value
        let fits := (if isFirst then isIdStart c else isIdPart c) && c.toNat == value
        let (name, length, _, valid) := readName count false (digits.drop size)
        (c :: name, length + size + 2, true, valid && fits)
      | none => ([], 1, true, false)
    | _ => ([], 1, true, false)
  | count + 1, isFirst, c :: rest =>
    if (if isFirst then isIdStart c else isIdPart c) then
      let (name, length, escaped, valid) := readName count false rest
      (c :: name, length + 1, escaped, valid)
    else
      ([], 0, false, true)
  | _ + 1, _, [] => ([], 0, false, true)

/-- Read a word or, after `#`, a private name. -/
def readWord (text : Text) : Reading :=
  let (name, size, escaped, valid) := readName (text.length + 1) true text
  ⟨.word name escaped, size, valid && !name.isEmpty⟩

/-- The surrogate code points. -/
def isSurrogate (n : Nat) : Bool :=
  0xD800 ≤ n && n ≤ 0xDFFF

/-- A code point written after a backslash and `u` in a string; two escapes of four digits may form a
pair of surrogates. -/
def stringCodePoint? (text : Text) : Option (Nat × Nat) :=
  match codePoint? text with
  | none => none
  | some (value, size) =>
    if size = 4 && 0xD800 ≤ value && value ≤ 0xDBFF then
      match text.drop 4 with
      | '\\' :: 'u' :: rest =>
        match fixedHex? 4 rest with
        | some low =>
          if 0xDC00 ≤ low && low ≤ 0xDFFF then
            some (0x10000 + (value - 0xD800) * 0x400 + (low - 0xDC00), 10)
          else some (value, size)
        | none => some (value, size)
      | _ => some (value, size)
    else
      some (value, size)

/-- Whether the character is an octal digit. -/
def isOctal (c : Char) : Bool :=
  '0' ≤ c && c ≤ '7'

/-- The characters for which an escape after a backslash stands, with its length; none if the escape
is not allowed. -/
def escape? (text : Text) : Option (List Nat × Nat) :=
  match text with
  | [] => none
  | '\r' :: '\n' :: _ => some ([], 2)
  | 'n' :: _ => some ([10], 1)
  | 't' :: _ => some ([9], 1)
  | 'r' :: _ => some ([13], 1)
  | 'b' :: _ => some ([8], 1)
  | 'f' :: _ => some ([12], 1)
  | 'v' :: _ => some ([11], 1)
  | 'x' :: rest => (fixedHex? 2 rest).map fun value => ([value], 3)
  | 'u' :: rest => (stringCodePoint? rest).map fun (value, size) => ([value], size + 1)
  | c :: rest =>
    if isLineEnd c then
      some ([], 1)
    else if isOctal c then
      let more := (rest.take (if c ≤ '3' then 2 else 1)).takeWhile isOctal
      let value := (c :: more).foldl (fun value c => 8 * value + (c.toNat - '0'.toNat)) 0
      some ([value], 1 + more.length)
    else
      some ([c.toNat], 1)

/-- The code points of a string up to its closing quote, with the number of characters up to the quote;
none if the string is not closed or has a forbidden escape. -/
def readStringBody (quote : Char) : Nat → Text → Option (List Nat × Nat)
  | 0, _ => none
  | _ + 1, [] => none
  | count + 1, '\\' :: rest =>
    match escape? rest with
    | some (values, size) =>
      (readStringBody quote count (rest.drop size)).map fun (points, length) =>
        (values ++ points, length + size + 1)
    | none => none
  | count + 1, c :: rest =>
    if c == quote then some ([], 0)
    else if c == '\n' || c == '\r' then none
    else
      (readStringBody quote count rest).map fun (points, length) => (c.toNat :: points, length + 1)

/-- Four hexadecimal digits. -/
def fourHex (n : Nat) : Text :=
  [12, 8, 4, 0].map fun shift => Nat.digitChar ((n >>> shift) % 16)

/-- The text of code points.  If there are lone surrogates, the replacement character and four digits
stand for each of them, and the replacement character is written in the same way. -/
def textOfPoints (points : List Nat) : Text × Bool :=
  if points.any isSurrogate then
    (points.flatMap fun n =>
      if isSurrogate n || n == 0xFFFD then Char.ofNat 0xFFFD :: fourHex n else [Char.ofNat n], true)
  else
    (points.map Char.ofNat, false)

/-- Read a string; the text starts after the opening quote. -/
def readString (quote : Char) (text : Text) : Reading :=
  match readStringBody quote (text.length + 1) text with
  | some (points, size) =>
    let (value, escaped) := textOfPoints points
    ⟨.string value escaped, size + 2, true⟩
  | none => .bad

/-! ### Numbers -/

/-- The digits of a run that may have single separators inside, with the length of the run. -/
def digitRun (isDigit : Char → Bool) (text : Text) : Text × Nat × Bool :=
  let run := text.takeWhile fun c => isDigit c || c == '_'
  let fits := run.head? != some '_' && run.getLast? != some '_' && !Text.occursIn "__" run
  (run.filter (· != '_'), run.length, fits)

/-- The value of a decimal digit. -/
def digitValue (c : Char) : Nat :=
  c.toNat - '0'.toNat

/-- A number may not run into a name or a digit. -/
def endsNumber (rest : Text) : Bool :=
  match rest with
  | [] => true
  | c :: _ => !(isIdStart c || c.isDigit || c == '\\')

/-- Finish the reading of a number. -/
def finishNumber (token : Token) (size : Nat) (valid : Bool) (text : Text) : Reading :=
  ⟨token, size, valid && endsNumber (text.drop size)⟩

/-- Read a number in the given radix; the text starts with a zero and the letter of the radix. -/
def readRadix (base : Nat) (isDigit : Char → Bool) (text : Text) : Reading :=
  let (digits, length, fits) := digitRun isDigit (text.drop 2)
  let values := digits.map fun c => (hexValue? c).getD 0
  let valid := fits && !digits.isEmpty
  if (text.drop (length + 2)).head? == some 'n' then
    let value := values.foldl (fun value digit => base * value + digit) 0
    finishNumber (.bigint (Text.ofNat value)) (length + 3) valid text
  else
    finishNumber (.number (Double.ofRadix base values)) (length + 2) valid text

/-- An exponent at the start of the text: its value, its length, and whether it has digits. -/
def readExponent (text : Text) : Int × Nat × Bool :=
  match text with
  | c :: rest =>
    if c == 'e' || c == 'E' then
      let (isNegative, lead) : Bool × Nat :=
        match rest.head? with
        | some '-' => (true, 2)
        | some '+' => (false, 2)
        | _ => (false, 1)
      let (digits, length, fits) := digitRun Char.isDigit (text.drop lead)
      let value : Int := digits.foldl (fun value c => 10 * value + digitValue c) (0 : Nat)
      (if isNegative then -value else value, lead + length, fits && !digits.isEmpty)
    else
      (0, 0, true)
  | [] => (0, 0, true)

/-- Read a decimal number; the text starts with a digit, or with a point before a digit. -/
def readDecimal (text : Text) : Reading :=
  let (whole, wholeLength, wholeFits) := digitRun Char.isDigit text
  let afterWhole := text.drop wholeLength
  if afterWhole.head? == some 'n' && wholeLength != 0 then
    let value := whole.foldl (fun value c => 10 * value + digitValue c) 0
    finishNumber (.bigint (Text.ofNat value)) (wholeLength + 1)
      (wholeFits && (wholeLength == 1 || whole.head? != some '0')) text
  else
    let (fraction, fractionLength, fractionFits) : Text × Nat × Bool :=
      match afterWhole with
      | '.' :: rest =>
        let (digits, length, fits) := digitRun Char.isDigit rest
        (digits, length + 1, fits)
      | _ => ([], 0, true)
    let (exponent, exponentLength, exponentFits) :=
      readExponent (text.drop (wholeLength + fractionLength))
    let digits := (whole ++ fraction).map digitValue
    let value := Double.ofDecimal digits (exponent - fraction.length)
    finishNumber (.number value) (wholeLength + fractionLength + exponentLength)
      (wholeFits && fractionFits && exponentFits) text

/-- Read a number that starts with a zero before another digit: octal if all digits allow it. -/
def readZeroLed (text : Text) : Reading :=
  let digits := text.takeWhile Char.isDigit
  if digits.all isOctal then
    finishNumber (.number (Double.ofRadix 8 (digits.map digitValue))) digits.length true text
  else
    readDecimal text

/-- Read a number. -/
def readNumber (text : Text) : Reading :=
  match text with
  | '0' :: c :: _ =>
    if c == 'x' || c == 'X' then readRadix 16 (fun c => (hexValue? c).isSome) text
    else if c == 'o' || c == 'O' then readRadix 8 isOctal text
    else if c == 'b' || c == 'B' then readRadix 2 (fun c => c == '0' || c == '1') text
    else if c.isDigit then readZeroLed text
    else if c == '_' then .bad
    else readDecimal text
  | _ => readDecimal text

/-! ### Templates and regular expressions -/

/-- Whether all escapes of a template are allowed outside tagged templates. -/
def validEscapes : Text → Bool
  | '\\' :: c :: rest =>
    (if c == 'u' then (codePoint? rest).isSome
      else if c == 'x' then (fixedHex? 2 rest).isSome
      else if c == '0' then !(rest.head?.any Char.isDigit)
      else !c.isDigit) &&
      validEscapes rest
  | _ :: rest => validEscapes rest
  | [] => true

/-- Line breaks of a raw template are line feeds. -/
def normalizeBreaks : Text → Text
  | '\r' :: '\n' :: rest => '\n' :: normalizeBreaks rest
  | '\r' :: rest => '\n' :: normalizeBreaks rest
  | c :: rest => c :: normalizeBreaks rest
  | [] => []

/-- The raw text up to the end of a template part, and whether the template ends there. -/
def templateBody? : Text → Option (Text × Bool)
  | [] => none
  | '\x60' :: _ => some ([], true)
  | '$' :: '\x7b' :: _ => some ([], false)
  | '\\' :: c :: rest => (templateBody? rest).map fun (raw, complete) => ('\\' :: c :: raw, complete)
  | c :: rest => (templateBody? rest).map fun (raw, complete) => (c :: raw, complete)

/-- The code points for which a raw template part stands; none if it has a forbidden escape. -/
def templatePoints? : Nat → Text → Option (List Nat)
  | 0, _ => none
  | _ + 1, [] => some []
  | count + 1, '\\' :: rest =>
    match escape? rest with
    | some (values, size) => (templatePoints? count (rest.drop size)).map (values ++ ·)
    | none => none
  | count + 1, c :: rest => (templatePoints? count rest).map (c.toNat :: ·)

/-- The text for which a raw template part stands. -/
def templateText? (raw : Text) : Option Text :=
  if validEscapes raw then
    (templatePoints? (raw.length + 1) raw).map fun points => (textOfPoints points).1
  else
    none

/-- Read a part of a template; the text starts after the mark that opens it. -/
def readTemplate (text : Text) : Reading :=
  match templateBody? text with
  | some (raw, complete) =>
    ⟨.template (normalizeBreaks raw) complete (validEscapes raw),
      raw.length + (if complete then 2 else 3), true⟩
  | none => .bad

/-- The pattern of a regular expression up to its closing slash; the flag tells whether the place is
inside a class. -/
def regexBody? : Bool → Text → Option Text
  | _, [] => none
  | inClass, '\\' :: c :: rest =>
    if isLineEnd c then none
    else (regexBody? inClass rest).map fun pattern => '\\' :: c :: pattern
  | inClass, c :: rest =>
    if isLineEnd c then none
    else if c == '/' && !inClass then some []
    else
      (regexBody? (if c == '[' then true else if c == ']' then false else inClass) rest).map
        fun pattern => c :: pattern

/-- Whether the flags of a regular expression are known and distinct. -/
def validFlags (flags : Text) : Bool :=
  flags.all ("dgimsuvy".toList.contains ·) && flags.eraseDups.length == flags.length

/-- The pattern and flags of a regular expression; the text starts after the opening slash. -/
def readRegex? (text : Text) : Option (Text × Text) :=
  (regexBody? false text).map fun pattern =>
    (pattern, (text.drop (pattern.length + 1)).takeWhile isIdPart)

/-! ### All tokens -/

/-- The marks of more than one character, longest first. -/
def longMarks : List String :=
  ["...", "===", "!==", "**=", "<<=", "&&=", "||=", "??=", "=>", "==", "!=", "<=", "++", "--", "+=",
    "-=", "*=", "/=", "%=", "&=", "|=", "^=", "**", "<<", "&&", "||", "??", "?."]

/-- The marks of one character. -/
def singleMarks : Text :=
  "\x7b\x7d()[].;,<>+-*/%&|^!~?:=@"

/-- Read a mark. -/
def readMark (text : Text) : Reading :=
  if "<!--".toList.isPrefixOf text then
    .bad
  else
    match longMarks.find? fun mark =>
      mark.toList.isPrefixOf text && !(mark == "?." && (text.drop 2).head?.any Char.isDigit)
    with
    | some mark => ⟨.mark mark, mark.length, true⟩
    | none =>
      match text with
      | c :: _ => if singleMarks.contains c then ⟨.mark c.toString, 1, true⟩ else .bad
      | [] => .bad

/-- Read the token at the start of a text. -/
def read (text : Text) : Reading :=
  match text with
  | [] => ⟨.eof, 0, true⟩
  | c :: rest =>
    if isIdStart c || c == '\\' then
      readWord text
    else if c.isDigit || (c == '.' && rest.head?.any Char.isDigit) then
      readNumber text
    else if c == '"' || c == '\'' then
      readString c rest
    else if c == '\x60' then
      readTemplate rest
    else if c == '#' then
      let (name, size, _, valid) := readName (rest.length + 1) true rest
      ⟨.privateName name, size + 1, valid && !name.isEmpty⟩
    else
      readMark text

/-- The operators that start with a closing angle bracket, longest first. -/
def angleMarks : List String :=
  [">>>=", ">>=", ">>>", ">=", ">>"]

/-- Read the operator that starts with a closing angle bracket. -/
def readAngle (text : Text) : Reading :=
  match angleMarks.find? fun mark => mark.toList.isPrefixOf text with
  | some mark => ⟨.mark mark, mark.length, true⟩
  | none => ⟨.mark ">", 1, true⟩

/-- Read what follows a tag: a text, a tag or a substitution. -/
def readMarkup (text : Text) : Reading :=
  match text with
  | [] => ⟨.eof, 0, true⟩
  | '<' :: _ => ⟨.mark "<", 1, true⟩
  | '\x7b' :: _ => ⟨.mark "\x7b", 1, true⟩
  | _ =>
    let raw := text.takeWhile fun c => c != '<' && c != '\x7b' && c != '>' && c != '\x7d'
    let next := (text.drop raw.length).head?
    if next == some '>' || next == some '\x7d' then .bad
    else ⟨.markupText raw, raw.length, true⟩

/-- Read the quoted value of an attribute; the text starts after the quote. -/
def readQuotedValue (quote : Char) (text : Text) : Reading :=
  let value := text.takeWhile (· != quote)
  if value.length = text.length then .bad
  else ⟨.string value false, value.length + 2, true⟩

end Lexer

end LiveComponent
