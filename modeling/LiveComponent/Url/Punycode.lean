import LiveComponent.Text.Basic

namespace LiveComponent

/-!
# Punycode

A text is written with the letters, digits and hyphens of ASCII alone: first its ASCII characters, then
the code points and places of all others as a row of numbers, each in a variable-length notation that
adapts to the size of the numbers before it.
-/

namespace Punycode

/-- The first threshold of the notation. -/
def firstBias : Nat := 72

/-- The code point from which on characters are encoded. -/
def firstPoint : Nat := 128

/-- The digit of a number below 36. -/
def digitOf (n : Nat) : Char :=
  if n < 26 then Char.ofNat ('a'.toNat + n) else Char.ofNat ('0'.toNat + (n - 26))

/-- The value of a digit. -/
def digit? (c : Char) : Option Nat :=
  if 'a' ≤ c && c ≤ 'z' then some (c.toNat - 'a'.toNat)
  else if 'A' ≤ c && c ≤ 'Z' then some (c.toNat - 'A'.toNat)
  else if c.isDigit then some (c.toNat - '0'.toNat + 26)
  else none

/-- Reduce a number to the scale of the thresholds; the first argument bounds the reductions. -/
def scale : Nat → Nat → Nat → Nat
  | 0, _, bias => bias
  | count + 1, delta, bias =>
    if 455 < delta then scale count (delta / 35) (bias + 36) else bias + 36 * delta / (delta + 38)

/-- The bias after a number; `points` characters are known by then. -/
def adapt (delta points : Nat) (isFirst : Bool) : Nat :=
  let delta := if isFirst then delta / 700 else delta / 2
  scale delta.log2.succ (delta + delta / points) 0

/-- The threshold of a digit at the given weight. -/
def threshold (weight bias : Nat) : Nat :=
  if weight ≤ bias then 1 else if bias + 26 ≤ weight then 26 else weight - bias

/-- The digits of a number; the first argument bounds their count. -/
def numberText (bias : Nat) : Nat → Nat → Nat → Text
  | 0, _, _ => []
  | count + 1, weight, number =>
    let limit := threshold weight bias
    if number < limit then
      [digitOf number]
    else
      let rest := number - limit
      digitOf (limit + rest % (36 - limit)) ::
        numberText bias count (weight + 36) (rest / (36 - limit))

/-- What the encoder keeps between characters. -/
structure Progress where
  written : Text
  delta : Nat
  bias : Nat
  known : Nat

/-- Write the places of one code point among the characters. -/
def encodePoint (basic point : Nat) (progress : Progress) (c : Char) : Progress :=
  if c.toNat < point then
    { progress with delta := progress.delta + 1 }
  else if c.toNat = point then
    ⟨progress.written ++ numberText progress.bias (progress.delta + 1) 36 progress.delta, 0,
      adapt progress.delta (progress.known + 1) (progress.known == basic), progress.known + 1⟩
  else
    progress

/-- Write the characters from a code point on, which is the least one left; the first argument bounds
their number. -/
def encodeFrom (text : Text) (basic : Nat) : Nat → Nat → Progress → Text
  | 0, _, progress => progress.written
  | count + 1, least, progress =>
    match ((text.map Char.toNat).filter fun point => least ≤ point).min? with
    | none => progress.written
    | some point =>
      let entered := { progress with
        delta := progress.delta + (point - least) * (progress.known + 1) }
      let done := text.foldl (encodePoint basic point) entered
      encodeFrom text basic count (point + 1) { done with delta := done.delta + 1 }

/-- The written form of a text. -/
def encode (text : Text) : Text :=
  let basic := text.filter fun c => c.toNat < firstPoint
  let lead := if basic.isEmpty then [] else basic ++ ['-']
  encodeFrom text basic.length (text.length + 1) firstPoint ⟨lead, 0, firstBias, basic.length⟩

/-- Read a number: its value and the text after it. -/
def readNumber? (bias : Nat) : Nat → Nat → Nat → Text → Option (Nat × Text)
  | _, _, _, [] => none
  | value, factor, weight, c :: rest =>
    match digit? c with
    | none => none
    | some digit =>
      let limit := threshold weight bias
      let value := value + digit * factor
      if digit < limit then some (value, rest)
      else readNumber? bias value (factor * (36 - limit)) (weight + 36) rest

/-- Insert the characters that a row of numbers stands for; the first argument bounds their count. -/
def decodeFrom? : Nat → Nat → Nat → Nat → Text → Text → Option Text
  | 0, _, _, _, known, rest => if rest.isEmpty then some known else none
  | count + 1, point, place, bias, known, rest =>
    if rest.isEmpty then
      some known
    else
      match readNumber? bias 0 1 36 rest with
      | none => none
      | some (number, rest) =>
        let size := known.length + 1
        let total := place + number
        let bias := adapt number size (place == 0)
        let point := point + total / size
        let place := total % size
        if 0x10FFFF < point || (0xD800 ≤ point && point < 0xE000) then
          none
        else
          decodeFrom? count point (place + 1) bias (known.insertIdx place (Char.ofNat point)) rest

/-- The text before the last hyphen and the text after it. -/
def splitLast (text : Text) : Text × Text :=
  let after := (text.reverse.takeWhile (· != '-')).reverse
  if after.length = text.length then ([], text)
  else (text.take (text.length - after.length - 1), after)

/-- The text of a written form. -/
def decode? (written : Text) : Option Text :=
  let (basic, numbers) := splitLast written
  decodeFrom? (numbers.length + 1) firstPoint 0 firstBias basic numbers

end Punycode

end LiveComponent
