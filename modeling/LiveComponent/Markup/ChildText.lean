import LiveComponent.Text.Blank

namespace LiveComponent

/-!
# Texts between tags

A text between tags loses the blanks around its line breaks and its blank lines; then its character
entities are decoded.
-/

namespace Markup

/-- The entities in the order in which they are decoded; the ampersand comes last, so that it cannot
become part of another one. -/
def entities : List (Text × Text) :=
  [
    ("&nbsp;".toList, [Char.ofNat 0xA0]),
    ("&lt;".toList, ['<']),
    ("&gt;".toList, ['>']),
    ("&quot;".toList, ['"']),
    ("&#39;".toList, ['\'']),
    ("&amp;".toList, ['&'])
  ]

/-- The text with its entities decoded. -/
def decodeEntities (text : Text) : Text :=
  entities.foldl (fun text (entity, meaning) => Text.replaceAll entity meaning text) text

/-- A line without carriage returns at its end and with spaces for tabs. -/
def plainLine (line : Text) : Text :=
  (line.reverse.dropWhile (· == '\r')).reverse.map fun c => if c == '\t' then ' ' else c

/-- The lines of a text without the blanks around line breaks. -/
def trimmedLines : Bool → List Text → List Text
  | _, [] => []
  | isFirst, [line] => [if isFirst then plainLine line else Text.trimStart (plainLine line)]
  | isFirst, line :: lines =>
    let kept := Text.trimEnd (plainLine line)
    (if isFirst then kept else Text.trimStart kept) :: trimmedLines false lines

/-- The text that a raw text between tags stands for; none if nothing is left of it. -/
def childText? (raw : Text) : Option Text :=
  let parts := (trimmedLines true (Text.splitAt '\n' raw)).filter fun part => !part.isEmpty
  if parts.isEmpty then none else some (decodeEntities (Text.joinWith [' '] parts))

end Markup

end LiveComponent
