import LiveComponent.Decimal.Shortest
import LiveComponent.Script.Lexer
import LiveComponent.Script.Printer.Page

namespace LiveComponent

/-!
# Printed literals

Strings stand in double quotes.  Control characters that have a short escape or would be lost are
escaped; so are the line separators, the no-break space and the end of a script tag.
-/

namespace Printer

/-- Whether the text starts with the name that ends a script tag. -/
def endsScript (text : Text) : Bool :=
  "/script".toList.isPrefixOf ((text.take 7).map Char.toLower)

/-- A character of a string in front of the rest of the string. -/
def stringChar (c : Char) (rest : Text) : Text :=
  match c with
  | '"' => "\\\""
  | '\\' => "\\\\"
  | '\n' => "\\n"
  | '\r' => "\\r"
  | '\x08' => "\\b"
  | '\x0b' => "\\v"
  | '\x0c' => "\\f"
  | '\x07' => "\\x07"
  | '\x1b' => "\\x1B"
  | '\x00' => if rest.head?.any Char.isDigit then "\\x00" else "\\0"
  | '<' => if endsScript rest then "<\\" else "<"
  | _ =>
    if c.toNat == 0xA0 then "\\xA0"
    else if c.toNat == 0x2028 then "\\u2028"
    else if c.toNat == 0x2029 then "\\u2029"
    else [c]

/-- The characters of a string between its quotes. -/
def plainBody : Text → Text
  | [] => []
  | c :: rest => stringChar c rest ++ plainBody rest

/-- The characters of a string in which the replacement character and four digits stand for a lone
surrogate. -/
def escapedBody : Text → Text
  | c :: a :: b :: d :: e :: rest =>
    if c.toNat == 0xFFFD then
      (if [a, b, d, e] == "fffd".toList then [c] else ['\\', 'u', a, b, d, e]) ++ escapedBody rest
    else
      stringChar c (a :: b :: d :: e :: rest) ++ escapedBody (a :: b :: d :: e :: rest)
  | c :: rest => stringChar c rest ++ escapedBody rest
  | [] => []

/-- Print a string. -/
def stringText (value : Text) (escaped : Bool) : Print := do
  word "\""
  put (if escaped then escapedBody value else plainBody value)
  word "\""

/-- Break up the end of a script tag. -/
def withoutScriptEnd : Text → Text
  | [] => []
  | '<' :: rest =>
    if endsScript rest then '<' :: '\\' :: withoutScriptEnd rest else '<' :: withoutScriptEnd rest
  | c :: rest => c :: withoutScriptEnd rest

/-- The quote around a directive: the other one of the first that occurs in it. -/
def directiveQuote : Text → String
  | [] => "\""
  | '\\' :: _ :: rest => directiveQuote rest
  | '"' :: _ => "'"
  | '\'' :: _ => "\""
  | _ :: rest => directiveQuote rest

/-- Print a number. -/
def numberText (value : Double) : Print := do
  spaceBeforeWord
  let text := value.literal
  put text
  when (text.all Char.isDigit) (modify fun page => { page with afterInteger := some page.size })

/-- Print a regular expression. -/
def regexText (pattern flags : Text) : Print := do
  let page ← get
  let joins :=
    match page.reversed with
    | '/' :: _ => true
    | '<' :: _ => "script".toList.isPrefixOf ((pattern.take 6).map Char.toLower)
    | _ => false
  when joins space
  word "/"
  put pattern
  word "/"
  put flags
  modify fun page => { page with afterRegex := some page.size }

/-- Print the parts of a template around its values. -/
def templateText (quasis : List Text) (values : List Print) : Print := do
  word "\x60"
  go quasis values
  word "\x60"
where
  /-- Print texts and values in turn. -/
  go : List Text → List Print → Print
    | quasi :: quasis, value :: values => do
      put (withoutScriptEnd quasi)
      word "$\x7b"
      value
      word "\x7d"
      go quasis values
    | quasi :: _, [] => put (withoutScriptEnd quasi)
    | [], _ => nothing

end Printer

end LiveComponent
