namespace LiveComponent

/-!
# Text

Source code, file contents and messages are lists of Unicode scalar values, so every operation on
them is an operation on lists.
-/

/-- Text is a list of Unicode scalar values. -/
abbrev Text := List Char

/-- A string literal stands for its characters. -/
instance : Coe String Text := ⟨String.toList⟩

namespace Text

/-- The text after `lead`, if the text starts with it. -/
def dropLead? : Text → Text → Option Text
  | [], rest => some rest
  | _ :: _, [] => none
  | want :: lead, got :: rest =>
    if want = got then dropLead? lead rest else none

/-- Whether `part` occurs anywhere in the text. -/
def occursIn (part : Text) : Text → Bool
  | [] => part.isEmpty
  | c :: rest => part.isPrefixOf (c :: rest) || occursIn part rest

/-- Whether `tail` is the last part of the text. -/
def endsIn (text tail : Text) : Bool :=
  tail.reverse.isPrefixOf text.reverse

/-- Replace occurrences of `part` from left to right; the counter skips the rest of an occurrence. -/
def replaceFrom (part new : Text) : Nat → Text → Text
  | _, [] => []
  | skip + 1, _ :: rest => replaceFrom part new skip rest
  | 0, c :: rest =>
    if part.isPrefixOf (c :: rest) then
      new ++ replaceFrom part new (part.length - 1) rest
    else
      c :: replaceFrom part new 0 rest

/-- Replace every occurrence of `part`, leftmost first and without overlaps. -/
def replaceAll (part new text : Text) : Text :=
  replaceFrom part new 0 text

/-- The parts of the text between the occurrences of `mark`; there is always at least one. -/
def splitAt (mark : Char) : Text → List Text
  | [] => [[]]
  | c :: rest =>
    match splitAt mark rest with
    | [] => [[c]]
    | part :: parts => if c = mark then [] :: part :: parts else (c :: part) :: parts

/-- The parts joined with `between` in between. -/
def joinWith (between : Text) : List Text → Text
  | [] => []
  | [part] => part
  | part :: parts => part ++ between ++ joinWith between parts

/-- The characters from offset `start` up to offset `stop`. -/
def slice (text : Text) (start stop : Nat) : Text :=
  (text.drop start).take (stop - start)

/-- A number in decimal notation. -/
def ofNat (n : Nat) : Text :=
  Nat.toDigits 10 n

/-- Comparison by code points; a proper initial part comes first. -/
def before : Text → Text → Bool
  | _, [] => false
  | [], _ :: _ => true
  | a :: as, b :: bs => a.toNat < b.toNat || (a = b && before as bs)

/-- Insert into an ascending list without repetition. -/
def insertSorted (text : Text) : List Text → List Text
  | [] => [text]
  | other :: others =>
    if text = other then other :: others
    else if before text other then text :: other :: others
    else other :: insertSorted text others

/-- The distinct members of a list in ascending order. -/
def sortedSet (texts : List Text) : List Text :=
  texts.foldl (fun done text => insertSorted text done) []

end Text

end LiveComponent
