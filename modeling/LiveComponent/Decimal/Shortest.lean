import LiveComponent.Decimal.Double
import LiveComponent.Text.Basic

namespace LiveComponent

/-!
# Shortest decimals

The decimal with the fewest digits that rounds to a given double; of several the nearest.
-/

/-- The number `digits * 10 ^ scale`. -/
structure Decimal where
  digits : Nat
  scale : Int
deriving DecidableEq, Repr

namespace Decimal

/-- Remove up to `count` trailing zeros of the digits. -/
def strip : Nat → Decimal → Decimal
  | 0, decimal => decimal
  | count + 1, decimal =>
    if decimal.digits % 10 = 0 then strip count ⟨decimal.digits / 10, decimal.scale + 1⟩
    else decimal

/-- The least `j ≤ start + count` from `start` on with `den ≤ num * 10 ^ j`. -/
def leadingZeros (num den : Nat) : Nat → Nat → Nat
  | 0, start => start
  | count + 1, start =>
    if den ≤ num * Nat.pow 10 start then start else leadingZeros num den count (start + 1)

/-- The exponent of the leading decimal digit of a positive ratio. -/
def magnitude (num den : Nat) : Int :=
  if den ≤ num then ((Nat.toDigits 10 (num / den)).length : Int) - 1
  else -(leadingZeros num den 400 0 : Int)

/-- The reals that round to a double: `num / den` with the distances of the two ends. -/
structure Interval where
  num : Nat
  den : Nat
  below : Nat
  above : Nat
  /-- Whether the ends belong to the interval. -/
  closed : Bool

/-- The reals that round to `mantissa * 2 ^ exponent`. -/
def Interval.ofDouble (mantissa : Nat) (exponent : Int) : Interval :=
  let below := if mantissa = Double.leastNormal ∧ exponent ≠ Double.minExponent then 1 else 2
  let closed := mantissa % 2 == 0
  match exponent with
  | .ofNat up => ⟨(4 * mantissa) <<< up, 4, below <<< up, 2 <<< up, closed⟩
  | .negSucc down => ⟨4 * mantissa, 4 <<< (down + 1), below, 2, closed⟩

/-- Whether the ratio `top / bottom` lies in the interval. -/
def Interval.holds (i : Interval) (top bottom : Nat) : Bool :=
  let point := top * i.den
  let low := (i.num - i.below) * bottom
  let high := (i.num + i.above) * bottom
  if i.closed then low ≤ point && point ≤ high else low < point && point < high

/-- The point of the grid with step `10 ^ scale` that lies in the interval and is nearest. -/
def onGrid? (i : Interval) (scale : Int) : Option Decimal :=
  let (up, down) : Nat × Nat :=
    match scale with
    | .ofNat up => (Nat.pow 10 up, 1)
    | .negSucc down => (1, Nat.pow 10 (down + 1))
  let floor := i.num * down / (i.den * up)
  let hitLow := i.holds (floor * up) down
  let hitHigh := i.holds ((floor + 1) * up) down
  let lowDistance := i.num * down - floor * up * i.den
  let highDistance := (floor + 1) * up * i.den - i.num * down
  if hitLow && (!hitHigh || lowDistance ≤ highDistance) then some ⟨floor, scale⟩
  else if hitHigh then some ⟨floor + 1, scale⟩
  else none

/-- Try grids of step `10 ^ scale` and finer ones. -/
def search (i : Interval) : Nat → Int → Decimal
  | 0, scale => ⟨i.num / i.den, scale⟩
  | count + 1, scale =>
    match onGrid? i scale with
    | some decimal => decimal
    | none => search i count (scale - 1)

/-- The shortest decimal of `mantissa * 2 ^ exponent`. -/
def ofFinite (mantissa : Nat) (exponent : Int) : Decimal :=
  if mantissa = 0 then
    ⟨0, 0⟩
  else
    let i := Interval.ofDouble mantissa exponent
    strip 400 (search i 18 (magnitude i.num i.den))

/-- The digits of the number, the first one not zero unless the number is zero. -/
def digitText (decimal : Decimal) : Text :=
  Text.ofNat decimal.digits

/-- The number in positional notation. -/
def positional (decimal : Decimal) : Text :=
  let digits := digitText decimal
  match decimal.scale with
  | .ofNat up => digits ++ List.replicate up '0'
  | .negSucc down =>
    let places := down + 1
    if places < digits.length then
      digits.take (digits.length - places) ++ ['.'] ++ digits.drop (digits.length - places)
    else
      "0.".toList ++ List.replicate (places - digits.length) '0' ++ digits

/-- The number with an exponent behind its first digit; positive exponents have a plus sign. -/
def scientific (decimal : Decimal) : Text :=
  let digits := digitText decimal
  let exponent : Int := decimal.scale + digits.length - 1
  let fraction : Text := if digits.length ≤ 1 then [] else '.' :: digits.drop 1
  let mark : Text :=
    match exponent with
    | .ofNat up => "e+".toList ++ Text.ofNat up
    | .negSucc down => "e-".toList ++ Text.ofNat (down + 1)
  digits.take 1 ++ fraction ++ mark

end Decimal

namespace Double

/-- The shortest decimal of a double in positional notation. -/
def positional : Double → Text
  | finite mantissa exponent => (Decimal.ofFinite mantissa exponent).positional
  | infinite => "inf"

/-- The shortest decimal of a double, positional from `1e-6` up to `1e21`. -/
def standard : Double → Text
  | infinite => "Infinity"
  | finite mantissa exponent =>
    let decimal := Decimal.ofFinite mantissa exponent
    let point : Int := decimal.scale + (Decimal.digitText decimal).length
    if -6 < point ∧ point ≤ 21 then decimal.positional else decimal.scientific

/-- Count the trailing zeros of a text. -/
def trailingZeros (text : Text) : Nat :=
  (text.reverse.takeWhile (· == '0')).length

/-- The shorter of two texts, the first one if they are equally long. -/
def shorter (first second : Text) : Text :=
  if second.length < first.length then second else first

/-- `.00012` as `12e-5`, if that is shorter. -/
def liftLeadingZeros (text : Text) : Text :=
  match text with
  | '.' :: '0' :: rest =>
    let digits := rest.dropWhile (· == '0')
    shorter text (digits ++ "e-".toList ++ Text.ofNat (text.length - 1))
  | _ => text

/-- `1200000` as `12e5`, if that is shorter. -/
def liftTrailingZeros (text : Text) : Text :=
  let zeros := trailingZeros text
  if zeros = 0 then text
  else shorter text (text.take (text.length - zeros) ++ ['e'] ++ Text.ofNat zeros)

/-- An integer in decimal notation with its sign. -/
def signedText : Int → Text
  | .ofNat n => Text.ofNat n
  | .negSucc n => '-' :: Text.ofNat (n + 1)

/-- The integer behind an exponent mark. -/
def readExponent (text : Text) : Int :=
  let value (digits : Text) : Nat :=
    digits.foldl (fun value c => 10 * value + (c.toNat - '0'.toNat)) 0
  match text with
  | '-' :: digits => -(value digits : Int)
  | digits => value digits

/-- `1.2e101` as `12e100`, if that is shorter. -/
def liftFraction (text : Text) : Text :=
  let whole := text.takeWhile (· != '.')
  match text.drop whole.length with
  | '.' :: rest =>
    let fraction := rest.takeWhile (· != 'e')
    match rest.drop fraction.length with
    | 'e' :: exponent =>
      shorter text (whole ++ fraction ++ ['e'] ++
        signedText (readExponent exponent - fraction.length))
    | _ => text
  | _ => text

/-- The shortest literal of a finite double: decimal without a leading zero, with an exponent where
that is shorter, or hexadecimal for integers. -/
def literal (value : Double) : Text :=
  match value with
  | infinite => "Infinity"
  | finite .. =>
    let plain := Text.replaceAll "e+" "e" value.standard
    let plain := match plain with
      | '0' :: '.' :: rest => '.' :: rest
      | _ => plain
    match value.toNat? with
    | some n =>
      if n < 1000 then
        Text.ofNat n
      else
        let hex := "0x".toList ++ Nat.toDigits 16 n
        if hex.length < plain.length then hex
        else liftFraction (liftTrailingZeros plain)
    | none => liftFraction (liftTrailingZeros (liftLeadingZeros plain))

end Double

end LiveComponent
