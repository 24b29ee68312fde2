namespace LiveComponent

/-!
# Double-precision numbers

The non-negative numbers of the binary interchange format with 64 bits, and rounding of ratios and of
decimal or radix notations to the nearest of them.
-/

/-- A non-negative double-precision number. -/
inductive Double where
  /-- The number `mantissa * 2 ^ exponent`. -/
  | finite (mantissa : Nat) (exponent : Int)
  | infinite
deriving DecidableEq, Repr

namespace Double

/-- The least exponent. -/
def minExponent : Int := -1074

/-- The greatest exponent. -/
def maxExponent : Int := 971

/-- The mantissas of normal numbers start here; below it are the subnormal ones. -/
def leastNormal : Nat := 1 <<< 52

/-- No mantissa reaches this bound. -/
def mantissaBound : Nat := 1 <<< 53

/-- The number zero. -/
def zero : Double := finite 0 minExponent

/-- The quotient rounded to the nearest integer, a tie to the even one. -/
def roundQuotient (num den : Nat) : Nat :=
  let low := num / den
  let twice := 2 * (num % den)
  if twice < den then low
  else if den < twice then low + 1
  else if low % 2 = 0 then low else low + 1

/-- The ratio in units of `2 ^ exponent`, as numerator and denominator. -/
def inUnits (num den : Nat) (exponent : Int) : Nat × Nat :=
  match exponent with
  | .ofNat up => (num, den <<< up)
  | .negSucc down => (num <<< (down + 1), den)

/-- The number with a mantissa below its bound, or one that has just reached it. -/
def ofMantissa (mantissa : Nat) (exponent : Int) : Double :=
  let (mantissa, exponent) :=
    if mantissa = mantissaBound then (leastNormal, exponent + 1) else (mantissa, exponent)
  if maxExponent < exponent then infinite else finite mantissa exponent

/-- The double nearest to a ratio with positive denominator. -/
def ofRatio (num den : Nat) : Double :=
  if num = 0 then
    zero
  else
    let guess := max ((num.log2 : Int) - den.log2 - 53) minExponent
    let (scaled, unit) := inUnits num den guess
    let exponent := if mantissaBound ≤ scaled / unit then guess + 1 else guess
    let (scaled, unit) := inUnits num den exponent
    ofMantissa (roundQuotient scaled unit) exponent

/-- The number of a notation with the given digits, of which the last counts `10 ^ scale`. -/
def ofDecimal (digits : List Nat) (scale : Int) : Double :=
  let digits := digits.dropWhile (· == 0)
  let significant := digits.foldl (fun value digit => 10 * value + digit) 0
  if significant = 0 then
    zero
  else if 400 < scale + digits.length then
    infinite
  else if scale + digits.length < -400 then
    zero
  else
    match scale with
    | .ofNat up => ofRatio (significant * Nat.pow 10 up) 1
    | .negSucc down => ofRatio significant (Nat.pow 10 (down + 1))

/-- The number as a ratio. -/
def ratio? : Double → Option (Nat × Nat)
  | finite mantissa (.ofNat up) => some (mantissa <<< up, 1)
  | finite mantissa (.negSucc down) => some (mantissa, 1 <<< (down + 1))
  | infinite => none

/-- `base * value + digit`, rounded. -/
def mulAdd (value : Double) (base digit : Nat) : Double :=
  match value.ratio? with
  | some (num, den) => ofRatio (base * num + digit * den) den
  | none => infinite

/-- The number with the given digits in a radix, rounded after each digit. -/
def ofRadix (base : Nat) (digits : List Nat) : Double :=
  digits.foldl (fun value digit => value.mulAdd base digit) zero

/-- The value of an integral number. -/
def toNat? (value : Double) : Option Nat :=
  match value.ratio? with
  | some (num, den) => if num % den = 0 then some (num / den) else none
  | none => none

end Double

end LiveComponent
