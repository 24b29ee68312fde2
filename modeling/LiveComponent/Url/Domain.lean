import LiveComponent.Text.Lowercase
import LiveComponent.Text.Printable
import LiveComponent.Url.Punycode

namespace LiveComponent

/-!
# Domain names

A domain name is compared by its ASCII form: letters in lower case, and labels with other characters in
Punycode behind a mark.
-/

namespace Domain

/-- The visible ASCII characters that no domain name holds. -/
def forbidden : Text := "%#/:<>?@[\\]^|"

/-- Whether a domain name may hold the ASCII character. -/
def isAllowed (c : Char) : Bool :=
  0x20 < c.toNat && c.toNat < 0x7F && !forbidden.contains c

/-- Whether the character is left out of domain names. -/
def isIgnored (c : Char) : Bool :=
  let n := c.toNat
  n == 0xAD || n == 0x34F || (0x180B ≤ n && n ≤ 0x180D) || n == 0x180F || n == 0x200B ||
    n == 0x2060 || n == 0x2064 || (0xFE00 ≤ n && n ≤ 0xFE0F) || n == 0xFEFF ||
    (0xE0100 ≤ n && n ≤ 0xE01EF)

/-- The characters that separate labels besides the full stop. -/
def isDot (c : Char) : Bool :=
  let n := c.toNat
  n == 0x3002 || n == 0xFF0E || n == 0xFF61

/-- The ASCII character of which this is the wide form. -/
def narrow (c : Char) : Char :=
  if 0xFF01 ≤ c.toNat && c.toNat ≤ 0xFF5E then Char.ofNat (c.toNat - 0xFEE0) else c

/-- Whether the character is alone a part of a label. -/
def isLabelPart (c : Char) : Bool :=
  if c.toNat < 128 then isAllowed c
  else !inRanges c.toNat unprintableRanges

/-- The canonical form of a character; none if no domain name holds it. -/
def canonical? (c : Char) : Option Text :=
  if isIgnored c then some []
  else if isDot c then some ['.']
  else
    let plain := lowerCase (narrow c)
    if isLabelPart plain then some [plain] else none

/-- The mark of a label in Punycode. -/
def mark : Text := "xn--"

/-- Whether the label is one that Punycode may stand for. -/
def isEncodable (label : Text) : Bool :=
  label.any (fun c => 127 < c.toNat) && label.all fun c => canonical? c == some [c]

/-- Whether no combining mark starts the label. -/
def startsWell (label : Text) : Bool :=
  !(label.head?.any fun c => 127 < c.toNat && inRanges c.toNat graphemeExtendRanges)

/-- The ASCII form of a label. -/
def asciiLabel? (label : Text) : Option Text :=
  match Text.dropLead? mark label with
  | some written =>
    match Punycode.decode? written with
    | some decoded =>
      if isEncodable decoded && startsWell decoded && Punycode.encode decoded == written
      then some label else none
    | none => none
  | none =>
    if label.all fun c => c.toNat < 128 then some label
    else if startsWell label then some (mark ++ Punycode.encode label)
    else none

/-- The ASCII form of a domain name. -/
def toAscii? (name : Text) : Option Text := do
  let parts ← name.mapM canonical?
  let labels ← (Text.splitAt '.' parts.flatten).mapM asciiLabel?
  return Text.joinWith ['.'] labels

end Domain

end LiveComponent
