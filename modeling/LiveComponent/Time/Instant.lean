import LiveComponent.Text.Blank
import LiveComponent.Time.Date

namespace LiveComponent

/-!
# Instants

A point in time, as it is written in stored documents: a date and a time of the day with an offset from
universal time.  The reader is lenient about blanks and leading zeros; the writer uses universal time
and as many groups of three fraction digits as the instant needs.
-/

/-- A point in time.  In a leap second there are more than `10 ^ 9` nanoseconds. -/
structure Instant where
  /-- Full seconds since the start of 1970. -/
  seconds : Int
  nanos : Nat
deriving DecidableEq, Repr

namespace Instant

/-- The full milliseconds since the start of 1970. -/
def millis (instant : Instant) : Int :=
  instant.seconds * 1000 + (instant.nanos / 1000000 : Nat)

/-- The instant a number of milliseconds later. -/
def addMillis (instant : Instant) (count : Nat) : Instant :=
  let nanos := instant.nanos + count * 1000000
  ⟨instant.seconds + (nanos / 1000000000 : Nat), nanos % 1000000000⟩

/-! ## Writing -/

/-- A number with leading zeros up to the given width. -/
def padded (width n : Nat) : Text :=
  let digits := Text.ofNat n
  List.replicate (width - digits.length) '0' ++ digits

/-- A year: four digits, with a sign if it is out of their range. -/
def yearText (year : Int) : Text :=
  if 0 ≤ year ∧ year ≤ 9999 then padded 4 year.toNat
  else if year < 0 then '-' :: padded 4 (-year).toNat
  else '+' :: padded 4 year.toNat

/-- The fraction of a second in three, six or nine digits, or none if it is zero. -/
def fractionText (nanos : Nat) : Text :=
  if nanos = 0 then []
  else if nanos % 1000000 = 0 then '.' :: padded 3 (nanos / 1000000)
  else if nanos % 1000 = 0 then '.' :: padded 6 (nanos / 1000)
  else '.' :: padded 9 nanos

/-- The date of an instant. -/
def date (instant : Instant) : Date :=
  .ofDays (instant.seconds.fdiv 86400)

/-- The written form of an instant. -/
def toText (instant : Instant) : Text :=
  let date := instant.date
  let second := (instant.seconds.fmod 86400).toNat
  let isLeap := 1000000000 ≤ instant.nanos
  yearText date.year ++ ['-'] ++ padded 2 date.month ++ ['-'] ++ padded 2 date.day ++ ['T'] ++
    padded 2 (second / 3600) ++ [':'] ++ padded 2 (second / 60 % 60) ++ [':'] ++
    padded 2 (if isLeap then second % 60 + 1 else second % 60) ++
    fractionText (if isLeap then instant.nanos - 1000000000 else instant.nanos) ++ ['Z']

/-! ## Reading -/

/-- The number with the given decimal digits. -/
def numberOf (digits : Text) : Nat :=
  digits.foldl (fun value c => 10 * value + (c.toNat - '0'.toNat)) 0

/-- Read between one and `width` digits. -/
def readDigits? (width : Nat) (text : Text) : Option (Nat × Text) :=
  let digits := (text.take width).takeWhile Char.isDigit
  if digits.isEmpty then none else some (numberOf digits, text.drop digits.length)

/-- Read digits behind blanks, as a number between two bounds. -/
def readField? (low high : Nat) (text : Text) : Option (Nat × Text) :=
  match readDigits? 2 (Text.trimStart text) with
  | some (value, rest) => if low ≤ value ∧ value ≤ high then some (value, rest) else none
  | none => none

/-- Read a year: four digits at most, or any number of digits behind a sign. -/
def readYear? (text : Text) : Option (Int × Text) :=
  match Text.trimStart text with
  | '-' :: rest => (readDigits? rest.length rest).map fun (year, rest) => (-(year : Int), rest)
  | '+' :: rest => (readDigits? rest.length rest).map fun (year, rest) => ((year : Int), rest)
  | rest => (readDigits? 4 rest).map fun (year, rest) => ((year : Int), rest)

/-- Read a mark behind blanks. -/
def readMark? (mark : Char) (text : Text) : Option Text :=
  match Text.trimStart text with
  | c :: rest => if c = mark then some rest else none
  | [] => none

/-- Read a date. -/
def readDate? (text : Text) : Option (Date × Text) := do
  let (year, rest) ← readYear? text
  let rest ← readMark? '-' rest
  let (month, rest) ← readField? 1 12 rest
  let rest ← readMark? '-' rest
  let (day, rest) ← readField? 1 31 rest
  return (⟨year, month, day⟩, rest)

/-- Read a fraction of a second in nanoseconds; digits beyond the ninth do not count. -/
def readFraction? : Text → Option (Nat × Text)
  | '.' :: rest =>
    let digits := rest.takeWhile Char.isDigit
    if digits.isEmpty then none
    else
      let known := digits.take 9
      some (numberOf known * Nat.pow 10 (9 - known.length), rest.drop digits.length)
  | rest => some (0, rest)

/-- Read a time of the day in seconds and nanoseconds. -/
def readTime? (text : Text) : Option (Nat × Nat × Text) := do
  let (hour, rest) ← readField? 0 23 text
  let rest ← readMark? ':' rest
  let (minute, rest) ← readField? 0 59 rest
  let rest ← readMark? ':' rest
  let (second, rest) ← readField? 0 60 rest
  let (nanos, rest) ← readFraction? rest
  let whole := hour * 3600 + minute * 60
  return if second = 60 then (whole + 59, nanos + 1000000000, rest) else (whole + second, nanos, rest)

/-- Read two digits. -/
def readPair? : Text → Option (Nat × Text)
  | a :: b :: rest =>
    if a.isDigit && b.isDigit then some (numberOf [a, b], rest) else none
  | _ => none

/-- Read the size of an offset in seconds: hours and minutes, with colons and blanks between them. -/
def readOffsetSize? (text : Text) : Option (Nat × Text) := do
  let (hours, rest) ← readPair? text
  let (minutes, rest) ← readPair? (rest.dropWhile fun c => c == ':' || isBlank c)
  if minutes < 60 then some (hours * 3600 + minutes * 60, rest) else none

/-- Read an offset from universal time in seconds. -/
def readOffset? (text : Text) : Option (Int × Text) :=
  let text := Text.trimStart text
  if (text.take 3).map Char.toUpper = "UTC".toList then
    some (0, text.drop 3)
  else
    match text with
    | 'Z' :: rest => some (0, rest)
    | 'z' :: rest => some (0, rest)
    | '+' :: rest => (readOffsetSize? rest).map fun (size, rest) => ((size : Int), rest)
    | c :: rest =>
      if c = '-' ∨ c.toNat = 0x2212 then
        (readOffsetSize? rest).map fun (size, rest) => (-(size : Int), rest)
      else
        none
    | [] => none

/-- The years in which instants can lie. -/
def isKnownYear (year : Int) : Bool :=
  -262143 ≤ year && year ≤ 262142

/-- The instant that a text stands for. -/
def ofText? (text : Text) : Option Instant := do
  let (date, rest) ← readDate? text
  let rest ← match rest with
    | c :: rest => if c = 'T' ∨ c = 't' ∨ c = ' ' then some rest else none
    | [] => none
  let (second, nanos, rest) ← readTime? rest
  let (offset, rest) ← readOffset? rest
  if !Text.isBlankText rest || !date.isValid || !isKnownYear date.year || 86400 ≤ offset.natAbs then
    none
  else
    let instant : Instant := ⟨date.toDays * 86400 + second - offset, nanos⟩
    if isKnownYear instant.date.year then some instant else none

end Instant

end LiveComponent
