import LiveComponent.Text.Basic

namespace LiveComponent

/-!
# Blank characters

A character is blank when it has the Unicode property `White_Space`.  Trimming and splitting into
words go by this property.
-/

/-- The Unicode property `White_Space`. -/
def isBlank (c : Char) : Bool :=
  let n := c.toNat
  (9 ≤ n && n ≤ 13) || n == 32 || n == 133 || n == 160 || n == 5760 ||
    (8192 ≤ n && n ≤ 8202) || n == 8232 || n == 8233 || n == 8239 || n == 8287 || n == 12288

namespace Text

/-- The text without its leading blanks. -/
def trimStart (text : Text) : Text :=
  text.dropWhile isBlank

/-- The text without its trailing blanks. -/
def trimEnd (text : Text) : Text :=
  (text.reverse.dropWhile isBlank).reverse

/-- The text without its leading and trailing blanks. -/
def trim (text : Text) : Text :=
  trimEnd (trimStart text)

/-- Whether the text holds blanks only. -/
def isBlankText (text : Text) : Bool :=
  text.all isBlank

/-- Collect words; `word` holds the characters of the current one, last first. -/
def wordsFrom : Text → Text → List Text
  | word, [] => if word.isEmpty then [] else [word.reverse]
  | word, c :: rest =>
    if isBlank c then
      if word.isEmpty then wordsFrom [] rest else word.reverse :: wordsFrom [] rest
    else
      wordsFrom (c :: word) rest

/-- The maximal blank-free parts of the text. -/
def words (text : Text) : List Text :=
  wordsFrom [] text

/-- The words of the text with one space in between. -/
def squash (text : Text) : Text :=
  joinWith [' '] (words text)

end Text

end LiveComponent
