import LiveComponent.Text.Basic
import LiveComponent.Url.Percent

namespace LiveComponent

/-!
# Numeric addresses

Hosts given by numbers: four bytes, or eight groups of sixteen bits.
-/

namespace Address

/-- The number with the given digits in a radix. -/
def numberOf (base : Nat) (digits : Text) : Nat :=
  digits.foldl (fun value c => value * base + (Percent.digit? c).getD 0) 0

/-- The number that a part of an address of four bytes stands for: hexadecimal behind `0x`, octal
behind a zero, decimal otherwise. -/
def partNumber? (part : Text) : Option Nat :=
  let number? (base : Nat) (digits : Text) : Option Nat :=
    if digits.all fun c => (Percent.digit? c).any (· < base) then some (numberOf base digits)
    else none
  match part with
  | [] => none
  | '0' :: 'x' :: rest => number? 16 rest
  | '0' :: 'X' :: rest => number? 16 rest
  | '0' :: c :: rest => number? 8 (c :: rest)
  | rest => number? 10 rest

/-- The parts of a host, without an empty last one. -/
def parts (host : Text) : List Text :=
  let all := Text.splitAt '.' host
  if all.getLast? = some [] && 1 < all.length then all.dropLast else all

/-- Whether the last part of the host is a number. -/
def endsInNumber (host : Text) : Bool :=
  match (parts host).getLast? with
  | some last => (!last.isEmpty && last.all Char.isDigit) || (partNumber? last).isSome
  | none => false

/-- The value of an address of four bytes; the last part fills all bytes that are left. -/
def fourBytes? (host : Text) : Option Nat := do
  let numbers ← (parts host).mapM partNumber?
  let last ← numbers.getLast?
  let leading := numbers.dropLast
  if numbers.length ≤ 4 && last < Nat.pow 256 (4 - leading.length) && leading.all (· < 256) then
    return (leading.zipIdx.map fun (number, i) => number * Nat.pow 256 (3 - i)).foldl (· + ·) last
  else
    none

/-- The text of an address of four bytes. -/
def fourBytesText (value : Nat) : Text :=
  Text.joinWith ['.'] ([3, 2, 1, 0].map fun i => Text.ofNat (value / Nat.pow 256 i % 256))

/-- A group of an address: up to four hexadecimal digits. -/
def group? (text : Text) : Option Nat :=
  if !text.isEmpty && text.length ≤ 4 && text.all fun c => (Percent.digit? c).isSome then
    some (numberOf 16 text)
  else
    none

/-- A byte in decimal notation without leading zeros. -/
def decimalByte? (text : Text) : Option Nat :=
  if !text.isEmpty && text.length ≤ 3 && text.all Char.isDigit &&
      (text.length = 1 || text.head? != some '0') && numberOf 10 text < 256 then
    some (numberOf 10 text)
  else
    none

/-- The groups that stand for four bytes in decimal notation. -/
def bytePair? (text : Text) : Option (List Nat) :=
  match (Text.splitAt '.' text).mapM decimalByte? with
  | some [a, b, c, d] => some [a * 256 + b, c * 256 + d]
  | _ => none

/-- The groups of one side of an address; the last one may be four bytes if it ends the address. -/
def groups? (isLast : Bool) : List Text → Option (List Nat)
  | [] => some []
  | [text] =>
    if isLast && text.contains '.' then bytePair? text else (group? text).map fun group => [group]
  | text :: texts => do
    let group ← group? text
    let groups ← groups? isLast texts
    return group :: groups

/-- The groups of a side, which may be empty. -/
def side? (isLast : Bool) (text : Text) : Option (List Nat) :=
  if text.isEmpty then some [] else groups? isLast (Text.splitAt ':' text)

/-- The text before the first double colon and the text after it. -/
def splitGap : Text → Option (Text × Text)
  | [] => none
  | ':' :: ':' :: rest => some ([], rest)
  | c :: rest => (splitGap rest).map fun (before, after) => (c :: before, after)

/-- The eight groups of an address; a double colon stands for as many zeros as are missing. -/
def eightGroups? (text : Text) : Option (List Nat) :=
  match splitGap text with
  | some (before, after) => do
    let left ← side? false before
    let right ← side? true after
    if left.length + right.length < 8 then
      return left ++ List.replicate (8 - left.length - right.length) 0 ++ right
    else
      none
  | none => do
    let groups ← groups? true (Text.splitAt ':' text)
    if groups.length = 8 then return groups else none

/-- The number of zeros at the start. -/
def leadingZeros (groups : List Nat) : Nat :=
  (groups.takeWhile (· == 0)).length

/-- The place and length of the first longest run of zeros, from place `i` on. -/
def longestRun : Nat → List Nat → Nat × Nat
  | _, [] => (0, 0)
  | i, group :: groups =>
    let here := leadingZeros (group :: groups)
    let (place, length) := longestRun (i + 1) groups
    if length ≤ here then (i, here) else (place, length)

/-- Groups with colons between them. -/
def groupsText (groups : List Nat) : Text :=
  Text.joinWith [':'] (groups.map (Nat.toDigits 16))

/-- The text of an address of eight groups; a double colon stands for the first longest run of at least
two zeros. -/
def eightGroupsText (groups : List Nat) : Text :=
  let (place, length) := longestRun 0 groups
  if 2 ≤ length then
    groupsText (groups.take place) ++ "::".toList ++ groupsText (groups.drop (place + length))
  else
    groupsText groups

end Address

end LiveComponent
