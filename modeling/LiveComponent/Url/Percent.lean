import LiveComponent.Text.Utf8

namespace LiveComponent

/-!
# Percent encoding

A character that may not stand in a part of an address is written as its UTF-8 bytes, each as a percent
sign and two hexadecimal digits.
-/

namespace Percent

/-- The characters that are encoded in every part: controls and everything beyond ASCII. -/
def isControl (c : Char) : Bool :=
  c.toNat < 0x20 || 0x7E < c.toNat

/-- The visible characters that are encoded in a fragment. -/
def inFragment : Text := " \"<>\x60"

/-- The visible characters that are encoded in a query. -/
def inQuery : Text := " \"#<>'"

/-- The visible characters that are encoded in a path. -/
def inPath : Text := " \"<>\x60#?\x7b\x7d"

/-- The visible characters that are encoded in a user name or password. -/
def inUserinfo : Text := " \"<>\x60#?\x7b\x7d/:;=@[\\]^|"

/-- The digit of a number below sixteen. -/
def upperDigit (n : Nat) : Char :=
  (Nat.digitChar n).toUpper

/-- An encoded byte. -/
def encodeByte (byte : UInt8) : Text :=
  ['%', upperDigit (byte.toNat / 16), upperDigit (byte.toNat % 16)]

/-- Encode controls and the given visible characters. -/
def encode (visible : Text) (text : Text) : Text :=
  text.flatMap fun c =>
    if isControl c || visible.contains c then (Text.bytes [c]).flatMap encodeByte else [c]

/-- The value of a hexadecimal digit. -/
def digit? (c : Char) : Option Nat :=
  if c.isDigit then some (c.toNat - '0'.toNat)
  else if 'a' ≤ c && c ≤ 'f' then some (c.toNat - 'a'.toNat + 10)
  else if 'A' ≤ c && c ≤ 'F' then some (c.toNat - 'A'.toNat + 10)
  else none

/-- The bytes of a text in which encoded bytes stand for themselves. -/
def decode : Text → List UInt8
  | [] => []
  | [c] => Text.bytes [c]
  | [a, b] => Text.bytes [a, b]
  | a :: b :: c :: rest =>
    match a, digit? b, digit? c with
    | '%', some high, some low => UInt8.ofNat (high * 16 + low) :: decode rest
    | _, _, _ => Text.bytes [a] ++ decode (b :: c :: rest)

end Percent

end LiveComponent
