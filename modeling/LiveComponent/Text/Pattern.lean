import LiveComponent.Text.Word
import LiveComponent.Text.Blank

namespace LiveComponent

/-!
# Text patterns

A pattern is matched against a place in a text.  Alternatives are tried in order and repetition takes
as much as it can, so the match found at a place is the first one in this order of preference.  Every
repetition is over single characters.
-/

/-- A pattern of text. -/
inductive Pattern where
  /-- Matches nothing at all, at any place. -/
  | empty
  /-- One character of a class. -/
  | one (accepts : Char → Bool)
  /-- As many characters of a class as possible, fewer if the rest of the pattern needs them. -/
  | many (accepts : Char → Bool)
  /-- One pattern after the other. -/
  | seq (first second : Pattern)
  /-- The first pattern, or else the second. -/
  | alt (first second : Pattern)
  /-- A pattern whose match is remembered under a name. -/
  | group (name : String) (inner : Pattern)
  /-- The start of the text. -/
  | textStart
  /-- The start of the text or the place after a line feed. -/
  | lineStart
  /-- A place between a word character and a place without one. -/
  | boundary

namespace Pattern

/-- A place in a text. -/
structure Place where
  /-- The character before the place. -/
  before : Option Char
  /-- The number of characters before the place. -/
  index : Nat
  /-- The text from the place on. -/
  rest : Text

/-- A part of a text. -/
structure Part where
  start : Nat
  stop : Nat
  text : Text
deriving DecidableEq, Repr

/-- The named parts of a match, latest first. -/
abbrev Groups := List (String × Part)

/-- The part between two places of one text. -/
def Place.upTo (start stop : Place) : Part :=
  ⟨start.index, stop.index, start.rest.take (stop.index - start.index)⟩

/-- Whether an optional character is a word character. -/
def wordAt : Option Char → Bool
  | none => false
  | some c => isWordChar c

/-- Go on after as many accepted characters as possible. -/
def runMany
    {α : Type}
    (accepts : Char → Bool)
    (next : Place → Option α) :
    Option Char → Nat → Text → Option α
  | before, index, [] => next ⟨before, index, []⟩
  | before, index, c :: rest =>
    if accepts c then
      match runMany accepts next (some c) (index + 1) rest with
      | some found => some found
      | none => next ⟨before, index, c :: rest⟩
    else
      next ⟨before, index, c :: rest⟩

/-- Match at a place and go on with `next` at the end of the match. -/
def run {α : Type} :
    Pattern → Place → Groups → (Place → Groups → Option α) → Option α
  | empty, place, groups, next => next place groups
  | one accepts, place, groups, next =>
    match place.rest with
    | [] => none
    | c :: rest => if accepts c then next ⟨some c, place.index + 1, rest⟩ groups else none
  | many accepts, place, groups, next =>
    runMany accepts (fun stop => next stop groups) place.before place.index place.rest
  | seq first second, place, groups, next =>
    first.run place groups fun middle groups => second.run middle groups next
  | alt first second, place, groups, next =>
    match first.run place groups next with
    | some found => some found
    | none => second.run place groups next
  | group name inner, place, groups, next =>
    inner.run place groups fun stop groups => next stop ((name, place.upTo stop) :: groups)
  | textStart, place, groups, next =>
    match place.before with
    | none => next place groups
    | some _ => none
  | lineStart, place, groups, next =>
    match place.before with
    | none => next place groups
    | some c => if c = '\n' then next place groups else none
  | boundary, place, groups, next =>
    if wordAt place.before = wordAt place.rest.head? then none else next place groups

/-- A match: the whole part and the named parts. -/
structure Found where
  whole : Part
  groups : Groups
deriving DecidableEq, Repr

/-- The part remembered under a name. -/
def Found.part? (found : Found) (name : String) : Option Part :=
  found.groups.lookup name

/-- The text remembered under a name. -/
def Found.text? (found : Found) (name : String) : Option Text :=
  (found.part? name).map Part.text

/-- The preferred match at a place. -/
def matchAt (pattern : Pattern) (place : Place) : Option Found :=
  pattern.run place [] fun stop groups => some ⟨place.upTo stop, groups⟩

/-- Collect matches from left to right; the counter skips the rest of a match. -/
def findFrom (pattern : Pattern) : Nat → Option Char → Nat → Text → List Found
  | 0, before, index, [] => (pattern.matchAt ⟨before, index, []⟩).toList
  | _ + 1, _, _, [] => []
  | skip + 1, _, index, c :: rest => findFrom pattern skip (some c) (index + 1) rest
  | 0, before, index, c :: rest =>
    match pattern.matchAt ⟨before, index, c :: rest⟩ with
    | some found =>
      found :: findFrom pattern (found.whole.text.length - 1) (some c) (index + 1) rest
    | none => findFrom pattern 0 (some c) (index + 1) rest

/-- All matches, leftmost first and without overlaps. -/
def findAll (pattern : Pattern) (text : Text) : List Found :=
  findFrom pattern 0 none 0 text

/-- The leftmost match. -/
def find? (pattern : Pattern) (text : Text) : Option Found :=
  (findAll pattern text).head?

/-- Whether there is a match anywhere from a place on. -/
def occursFrom (pattern : Pattern) : Option Char → Nat → Text → Bool
  | before, index, [] => (pattern.matchAt ⟨before, index, []⟩).isSome
  | before, index, c :: rest =>
    (pattern.matchAt ⟨before, index, c :: rest⟩).isSome ||
      occursFrom pattern (some c) (index + 1) rest

/-- Whether the text has a match. -/
def occurs (pattern : Pattern) (text : Text) : Bool :=
  occursFrom pattern none 0 text

/-- The patterns one after the other. -/
def sequence : List Pattern → Pattern
  | [] => empty
  | [pattern] => pattern
  | pattern :: patterns => seq pattern (sequence patterns)

/-- The first of the patterns that leads to a match. -/
def choice : List Pattern → Pattern
  | [] => one fun _ => false
  | [pattern] => pattern
  | pattern :: patterns => alt pattern (choice patterns)

/-- The pattern, or nothing if it does not match. -/
def optional (pattern : Pattern) : Pattern :=
  alt pattern empty

/-- At least one character of a class. -/
def some1 (accepts : Char → Bool) : Pattern :=
  seq (one accepts) (many accepts)

/-- One given character. -/
def char (c : Char) : Pattern :=
  one fun got => got == c

/-- One of the given characters. -/
def oneOf (chars : Text) : Pattern :=
  one fun got => chars.contains got

/-- A given text. -/
def text (word : Text) : Pattern :=
  sequence (word.map char)

/-- One of the given texts. -/
def oneWordOf (words : List String) : Pattern :=
  choice (words.map fun word => text word.toList)

/-- Any number of blanks. -/
def blanks : Pattern :=
  many isBlank

/-- At least one blank. -/
def blanks1 : Pattern :=
  some1 isBlank

/-- Any number of spaces and tabs. -/
def spaces : Pattern :=
  many fun c => c == ' ' || c == '\t'

/-- An ASCII identifier start followed by word characters and dollar signs. -/
def name : Pattern :=
  seq (one fun c => c.isAlpha || c == '_' || c == '$') (many fun c => isWordChar c || c == '$')

/-- A word character or a dollar sign. -/
def isNamePart (c : Char) : Bool :=
  isWordChar c || c == '$'

end Pattern

end LiveComponent
