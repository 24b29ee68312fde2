import LiveComponent.Proofs.TokenRuns
import Mathlib.Data.Bool.AllAny

namespace LiveComponent

/-!
# Texts as tokens

A text spells tokens if they are read from it one after the other, whatever follows it.  A parser that stands at
such a text runs over the tokens, finds no fault, and then stands at what follows.
-/

namespace Lexer

/-! ## The token at a text -/

/-- What is skipped depends on the text only. -/
theorem skip_same
    (text : Text)
    (gap : Gap)
    (offset other : Nat)
    (newline newline' : Bool)
    (notes notes' : Notes) :
    (skip gap offset newline notes text).rest = (skip gap other newline' notes' text).rest ∧
      (skip gap offset newline notes text).closed = (skip gap other newline' notes' text).closed := by
  induction text generalizing gap offset other newline newline' notes notes' with
  | nil =>
      cases gap <;> exact ⟨rfl, rfl⟩
  | cons c rest inductionHypothesis =>
      cases gap with
      | blank =>
          unfold skip
          split
          · exact inductionHypothesis ..
          · split
            · exact inductionHypothesis ..
            · split
              · exact inductionHypothesis ..
              · split
                · exact inductionHypothesis ..
                · exact ⟨rfl, rfl⟩
      | lineComment =>
          unfold skip
          split <;> exact inductionHypothesis ..
      | blockOpen =>
          exact inductionHypothesis ..
      | blockComment =>
          unfold skip
          split <;> exact inductionHypothesis ..
      | blockClose =>
          exact inductionHypothesis ..

/-- The place of the first token of a text. -/
def startOf (text : Text) : Start :=
  skip .blank 0 false .none text

/-- The reading of the first token of a text. -/
def firstReading (text : Text) : Reading :=
  read (startOf text).rest

/-- What follows the first token of a text. -/
def behind (text : Text) : Text :=
  (startOf text).rest.drop (firstReading text).size

/-- Whether the first token of a text and the comments before it are well formed. -/
def isSound (text : Text) : Bool :=
  (startOf text).closed && (firstReading text).valid

/-- The text starts with the well-formed tokens, and then the rest follows. -/
def Spells : List Token → Text → Text → Prop
  | [], text, rest => rest = text
  | token :: tokens, text, rest =>
    (firstReading text).token = token ∧ isSound text = true ∧ Spells tokens (behind text) rest

theorem spells_append
    {tokens more : List Token}
    {text middle rest : Text}
    (first : Spells tokens text middle)
    (second : Spells more middle rest) :
    Spells (tokens ++ more) text rest := by
  induction tokens generalizing text with
  | nil =>
      obtain rfl := first
      exact second
  | cons token tokens inductionHypothesis =>
      exact ⟨first.1, first.2.1, inductionHypothesis first.2.2⟩

/-! ## Texts of single tokens -/

/-- A character with which a token starts that is no operator with a slash. -/
def isVisible (c : Char) : Bool :=
  !isLineEnd c && !isSpace c && c != '/'

/-- A token is spelled where the text is read as the token. -/
theorem spells_of_read
    {token : Token}
    {c : Char}
    {lead rest : Text}
    (visible : isVisible c = true)
    (reading : read (c :: (lead ++ rest)) = ⟨token, lead.length + 1, true⟩) :
    Spells [token] (c :: (lead ++ rest)) rest := by
  simp only [isVisible, Bool.and_eq_true, Bool.not_eq_true', bne_iff_ne] at visible
  have slash : (c == '/') = false := beq_eq_false_iff_ne.mpr visible.2
  have start : startOf (c :: (lead ++ rest)) = ⟨c :: (lead ++ rest), 0, false, .none, true⟩ := by
    simp [startOf, skip, visible.1.1, visible.1.2, slash]
  have first : firstReading (c :: (lead ++ rest)) = ⟨token, lead.length + 1, true⟩ := by
    rw [firstReading, start]
    exact reading
  refine ⟨by rw [first], by rw [isSound, start, first]; rfl, ?_⟩
  change rest = behind _
  rw [behind, start, first, List.drop_succ_cons, List.drop_left]

/-- A character between tokens. -/
def isGap (c : Char) : Bool :=
  isLineEnd c || isSpace c

/-- A blank may stand in front of tokens. -/
theorem spells_blank
    {tokens : List Token}
    {c : Char}
    {text rest : Text}
    (blank : isGap c = true)
    (spells : Spells tokens text rest)
    (filled : tokens ≠ []) :
    Spells tokens (c :: text) rest := by
  have same (newline : Bool) := skip_same text .blank 1 0 newline false .none .none
  have start : (startOf (c :: text)).rest = (startOf text).rest ∧
      (startOf (c :: text)).closed = (startOf text).closed := by
    rw [startOf, skip]
    split
    · exact same true
    next noEnd =>
      have space : isSpace c = true := by
        rw [isGap, Bool.or_eq_true] at blank
        exact blank.resolve_left noEnd
      rw [if_pos space]
      exact same false
  have first : firstReading (c :: text) = firstReading text := by
    rw [firstReading, start.1, firstReading]
  have later : behind (c :: text) = behind text := by
    rw [behind, start.1, first, behind]
  cases tokens with
  | nil =>
      exact absurd rfl filled
  | cons token tokens =>
      refine ⟨by rw [first]; exact spells.1, ?_, by rw [later]; exact spells.2.2⟩
      rw [isSound, start.2, first]
      exact spells.2.1

/-- Blanks may stand in front of tokens. -/
theorem spells_blanks
    {tokens : List Token}
    {blanks text rest : Text}
    (blank : ∀ c ∈ blanks, isGap c = true)
    (spells : Spells tokens text rest)
    (filled : tokens ≠ []) :
    Spells tokens (blanks ++ text) rest := by
  induction blanks with
  | nil =>
      exact spells
  | cons c blanks inductionHypothesis =>
      rw [List.forall_mem_cons] at blank
      exact spells_blank blank.1 (inductionHypothesis blank.2) filled

theorem spells_space
    {tokens : List Token}
    {text rest : Text}
    (spells : Spells tokens text rest)
    (filled : tokens ≠ []) :
    Spells tokens (' ' :: text) rest :=
  spells_blank rfl spells filled

/-- The code points of blanks, line ends and the slash. -/
def invisible : List Nat :=
  [9, 10, 11, 12, 13, 32, 47, 0x85, 0xA0, 0x1680, 0x2000, 0x2001, 0x2002, 0x2003, 0x2004, 0x2005, 0x2006,
    0x2007, 0x2008, 0x2009, 0x200A, 0x200B, 0x2028, 0x2029, 0x202F, 0x205F, 0x3000, 0xFEFF]

theorem isVisible_of_isIdStart
    {c : Char}
    (starts : isIdStart c = true) :
    isVisible c = true := by
  have none : ∀ n ∈ invisible, isIdStart (Char.ofNat n) = false := by decide +kernel
  have other : c.toNat ∉ invisible := by
    intro member
    have closed := none c.toNat member
    rw [Char.ofNat_toNat, starts] at closed
    cases closed
  have lineEnd : isLineEnd c = false := by
    apply Bool.eq_false_iff.mpr
    intro ends
    simp only [isLineEnd, Bool.or_eq_true, beq_iff_eq] at ends
    rcases ends with ((rfl | rfl) | code) | code
    · exact other (by decide)
    · exact other (by decide)
    · exact other (by rw [code]; decide)
    · exact other (by rw [code]; decide)
  have space : isSpace c = false := by
    apply Bool.eq_false_iff.mpr
    intro blank
    simp only [isSpace, Bool.or_eq_true, Bool.and_eq_true, beq_iff_eq, decide_eq_true_eq] at blank
    apply other
    generalize c.toNat = n at blank
    rcases blank with ((((((((((rfl | rfl) | rfl) | rfl) | rfl) | rfl) | rfl) | range) | rfl) | rfl) | rfl) | rfl
    case inl.inl.inl.inl.inr =>
      have wide : ∀ n ∈ List.range' 0x2000 12, n ∈ invisible := by decide
      exact wide n (List.mem_range'_1.mpr (by omega))
    all_goals decide
  have slash : c ≠ '/' := by
    rintro rfl
    exact other (by decide)
  simp only [isVisible, lineEnd, space, Bool.not_false, Bool.true_and, bne_iff_ne]
  exact slash

theorem not_isDigit_of_isIdStart
    {c : Char}
    (starts : isIdStart c = true) :
    c.isDigit = false := by
  have none : ∀ n ∈ List.range' 48 10, isIdStart (Char.ofNat n) = false := by decide +kernel
  apply Bool.eq_false_iff.mpr
  intro digit
  obtain ⟨lower, upper⟩ := Char.isDigit_iff_toNat.mp digit
  have member : c.toNat ∈ List.range' 48 10 := List.mem_range'_1.mpr ⟨lower, Nat.lt_succ_of_le upper⟩
  have closed := none c.toNat member
  rw [Char.ofNat_toNat, starts] at closed
  cases closed

theorem ne_backslash_of_isIdPart
    {c : Char}
    (fits : isIdPart c = true) :
    c ≠ '\\' := by
  rintro rfl
  exact absurd fits (by decide)

/-- The characters of a name are read up to the first other one. -/
theorem readName_append
    {name rest : Text}
    (parts : name.all isIdPart = true)
    (ends : ∀ c ∈ rest.head?, isIdPart c = false ∧ c ≠ '\\')
    {count : Nat}
    (enough : name.length < count) :
    readName count false (name ++ rest) = (name, name.length, false, true) := by
  induction name generalizing count with
  | nil =>
      obtain ⟨count, rfl⟩ := Nat.exists_eq_succ_of_ne_zero (Nat.ne_zero_of_lt enough)
      cases rest with
      | nil =>
          rfl
      | cons c rest =>
          obtain ⟨other, backslash⟩ := ends c rfl
          rw [List.nil_append, readName]
          · simp [other]
          · exact backslash
  | cons c name inductionHypothesis =>
      obtain ⟨count, rfl⟩ := Nat.exists_eq_succ_of_ne_zero (Nat.ne_zero_of_lt enough)
      rw [List.all_cons, Bool.and_eq_true] at parts
      have further := inductionHypothesis parts.2 (Nat.lt_of_succ_lt_succ enough)
      rw [List.cons_append, readName]
      · simp [parts.1, further]
      · exact ne_backslash_of_isIdPart parts.1

/-- A name is spelled in front of anything that does not go on with it. -/
theorem spells_name
    {name rest : Text}
    (isName : isIdentifierName name = true)
    (ends : ∀ c ∈ rest.head?, isIdPart c = false ∧ c ≠ '\\') :
    Spells [.word name false] (name ++ rest) rest := by
  cases name with
  | nil =>
      cases isName
  | cons c name =>
      rw [isIdentifierName, Bool.and_eq_true] at isName
      have backslash : c ≠ '\\' := by
        rintro rfl
        exact absurd isName.1 (by decide)
      refine spells_of_read (isVisible_of_isIdStart isName.1) ?_
      have named : readName ((c :: (name ++ rest)).length + 1) true (c :: (name ++ rest)) =
          (c :: name, name.length + 1, false, true) := by
        have enough : name.length < (c :: (name ++ rest)).length := by
          rw [List.length_cons, List.length_append]
          omega
        have further := readName_append isName.2 ends enough
        rw [readName]
        · simp only [isName.1, further, if_true]
        · exact backslash
      rw [read, if_pos (by rw [isName.1]; rfl), readWord, named]
      rfl

/-- A character of a string that stands for itself. -/
def isLetter (c : Char) : Bool :=
  c != '"' && c != '\\' && c != '\n' && c != '\r'

theorem readStringBody_append
    {value : Text}
    (letters : value.all isLetter = true)
    (rest : Text)
    {count : Nat}
    (enough : value.length < count) :
    readStringBody '"' count (value ++ '"' :: rest) = some (value.map Char.toNat, value.length) := by
  induction value generalizing count with
  | nil =>
      obtain ⟨count, rfl⟩ := Nat.exists_eq_succ_of_ne_zero (Nat.ne_zero_of_lt enough)
      rfl
  | cons c value inductionHypothesis =>
      obtain ⟨count, rfl⟩ := Nat.exists_eq_succ_of_ne_zero (Nat.ne_zero_of_lt enough)
      rw [List.all_cons, Bool.and_eq_true] at letters
      have further := inductionHypothesis letters.2 (Nat.lt_of_succ_lt_succ enough)
      simp only [isLetter, Bool.and_eq_true, bne_iff_ne] at letters
      obtain ⟨⟨⟨⟨quote, backslash⟩, feed⟩, carriage⟩, -⟩ := letters
      rw [List.cons_append, readStringBody]
      · simp [quote, feed, carriage, further]
      · exact backslash

theorem textOfPoints_toNat
    (value : Text) :
    textOfPoints (value.map Char.toNat) = (value, false) := by
  have scalars : (value.map Char.toNat).any isSurrogate = false := by
    apply List.any_eq_false.mpr
    intro n member surrogate
    obtain ⟨c, -, rfl⟩ := List.mem_map.mp member
    simp only [isSurrogate, Bool.and_eq_true, decide_eq_true_eq] at surrogate
    have valid : c.toNat.isValidChar := c.valid
    simp only [Nat.isValidChar] at valid
    omega
  rw [textOfPoints, if_neg (Bool.eq_false_iff.mp scalars), List.map_map]
  have same : Char.ofNat ∘ Char.toNat = id := funext Char.ofNat_toNat
  rw [same, List.map_id]

/-- A string is spelled between its quotes by what is read as its characters. -/
theorem spells_quoted
    {value body rest : Text}
    (read : ∀ {count : Nat}, body.length < count →
      readStringBody '"' count (body ++ '"' :: rest) = some (value.map Char.toNat, body.length)) :
    Spells [.string value false] ('"' :: ((body ++ ['"']) ++ rest)) rest := by
  refine spells_of_read (by decide) ?_
  have inside := read (Nat.lt_succ_of_le (Nat.le_add_right body.length (rest.length + 1)))
  have string : readString '"' (body ++ '"' :: rest) = ⟨.string value false, body.length + 2, true⟩ := by
    have length : (body ++ '"' :: rest).length + 1 = (body.length + (rest.length + 1)).succ := by
      rw [List.length_append, List.length_cons]
    rw [readString, length, inside]
    simp only [textOfPoints_toNat]
  rw [List.append_assoc, List.length_append]
  exact string

/-- A string of letters is spelled between its quotes. -/
theorem spells_string
    {value : Text}
    (letters : value.all isLetter = true)
    (rest : Text) :
    Spells [.string value false] ('"' :: ((value ++ ['"']) ++ rest)) rest :=
  spells_quoted (readStringBody_append letters rest)

/-- A bracket, a comma or a semicolon is a token of its own. -/
theorem spells_bracket
    (c : Char)
    (bracket : c ∈ ['(', ')', '\x7b', '\x7d', ';', ','])
    (rest : Text) :
    Spells [.mark c.toString] (c :: rest) rest := by
  simp only [List.mem_cons, List.not_mem_nil, or_false] at bracket
  rcases bracket with rfl | rfl | rfl | rfl | rfl | rfl <;>
    exact @spells_of_read _ _ [] rest (by decide) rfl

theorem spells_and (rest : Text) :
    Spells [.mark "&&"] ("&& ".toList ++ rest) (' ' :: rest) :=
  @spells_of_read _ '&' ['&'] (' ' :: rest) (by decide) rfl

/-- A point that no other point follows is a token of its own. -/
theorem readMark_point
    {c : Char}
    (other : c ≠ '.')
    (rest : Text) :
    readMark ('.' :: c :: rest) = ⟨.mark ".", 1, true⟩ := by
  have shape : ∀ mark ∈ longMarks,
      mark.toList.head?.any (· != '.') = true ∨ mark.toList.take 2 = ['.', '.'] := by
    decide
  have short :
      longMarks.find? (fun mark => mark.toList.isPrefixOf ('.' :: c :: rest) &&
        !(mark == "?." && (('.' :: c :: rest).drop 2).head?.any Char.isDigit)) = none := by
    apply List.find?_eq_none.mpr
    intro mark member fits
    rw [Bool.and_eq_true, List.isPrefixOf_iff_prefix] at fits
    obtain ⟨⟨tail, starts⟩, -⟩ := fits
    rcases shape mark member with first | points
    · cases letters : mark.toList with
      | nil =>
          rw [letters] at first
          cases first
      | cons d more =>
          rw [letters] at first starts
          obtain ⟨rfl, -⟩ := List.cons.inj starts
          cases first
    · have two := congrArg (List.take 2) starts
      have long : 2 ≤ mark.toList.length := by
        have length := congrArg List.length points
        rw [List.length_take, List.length_cons, List.length_singleton] at length
        omega
      rw [List.take_append_of_le_length long, points] at two
      exact other (List.cons.inj (List.cons.inj two).2).1.symm
  rw [readMark, short]
  rfl

/-- A point in front of a name is a token of its own. -/
theorem spells_point
    {name : Text}
    (isName : isIdentifierName name = true)
    (rest : Text) :
    Spells [.mark "."] ('.' :: (name ++ rest)) (name ++ rest) := by
  refine @spells_of_read _ '.' [] (name ++ rest) (by decide) ?_
  cases name with
  | nil =>
      cases isName
  | cons c name =>
      rw [isIdentifierName, Bool.and_eq_true] at isName
      have digit : c.isDigit = false := not_isDigit_of_isIdStart isName.1
      have other : c ≠ '.' := by
        rintro rfl
        exact absurd isName.1 (by decide)
      change (if ('.'.isDigit || ('.' == '.' && c.isDigit)) = true then _ else _) = _
      rw [digit]
      exact readMark_point other _

/-! ## Texts in front of closing characters -/

/-- What follows starts with a character that ends any name or string. -/
def Closes (rest : Text) : Prop :=
  ∃ c tail, rest = c :: tail ∧ c ∈ [' ', ')', '.', ';', ',', '(']

/-- The text spells the tokens in front of anything that closes them. -/
def Spelling (text : Text) (tokens : List Token) : Prop :=
  ∀ rest, Closes rest → Spells tokens (text ++ rest) rest

theorem spelling_name
    {name : Text}
    (isName : isIdentifierName name = true) :
    Spelling name [.word name false] := by
  rintro _ ⟨c, tail, rfl, closes⟩
  have noParts : ∀ c ∈ [' ', ')', '.', ';', ',', '('], isIdPart c = false ∧ c ≠ '\\' :=
    List.all_iff_forall_prop.mp (by decide)
  refine spells_name isName fun d first => ?_
  obtain rfl := Option.some.inj first
  exact noParts c closes

/-- The property of what a text stands for is spelled by a point and its name. -/
theorem spelling_member
    {text name : Text}
    {tokens : List Token}
    (object : Spelling text tokens)
    (isName : isIdentifierName name = true) :
    Spelling (text ++ '.' :: name) (tokens ++ [Token.mark ".", .word name false]) := by
  intro rest closes
  have behind := spells_append (spells_point isName rest) (spelling_name isName rest closes)
  rw [List.append_assoc]
  exact spells_append (object _ ⟨'.', name ++ rest, rfl, by decide⟩) behind

end Lexer

namespace Parser

open Lexer

variable {state after : State} {tokens : List Token} {text rest : Text}

/-! ## Parsers at a text -/

/-- The current token is the first one of the text. -/
def State.StandsAt (state : State) (text : Text) : Prop :=
  state.token = (firstReading text).token ∧ state.rest = behind text

/-- The parser has gone on to the rest of the source without a fault on the way, and all else is as before. -/
structure Passes (state after : State) (rest : Text) : Prop where
  stands : after.StandsAt rest
  faulty : after.faulty = (state.faulty || !isSound rest)
  typed : after.typed = state.typed
  budget : after.budget = state.budget
  flags : after.flags = state.flags
  pending : after.pending = state.pending
  commas : after.commas = state.commas

theorem passes_next
    (state : State) :
    Passes state state.next state.rest := by
  have same := skip_same state.rest .blank state.stop 0 false false .none .none
  have reading :
      Lexer.read (Lexer.skip .blank state.stop false .none state.rest).rest = firstReading state.rest := by
    rw [same.1]
    rfl
  refine ⟨⟨?_, ?_⟩, ?_, rfl, rfl, rfl, rfl, rfl⟩
  · exact congrArg Reading.token reading
  · change (Lexer.skip .blank state.stop false .none state.rest).rest.drop _ = _
    rw [reading, same.1]
    rfl
  · change (state.faulty || !(Lexer.read (Lexer.skip .blank state.stop false .none state.rest).rest).valid ||
      !(Lexer.skip .blank state.stop false .none state.rest).closed) = _
    rw [reading, same.2, isSound, Bool.not_and, Bool.or_assoc, Bool.or_comm (!(firstReading state.rest).valid)]
    rfl

/-- A parser at a text runs over the tokens that the text spells. -/
theorem runs_of_spells
    (spells : Spells tokens text rest)
    (filled : tokens ≠ [])
    (stands : state.StandsAt text) :
    ∃ after, Runs tokens state after ∧ Passes state after rest := by
  induction tokens generalizing state text with
  | nil =>
      exact absurd rfl filled
  | cons token tokens inductionHypothesis =>
      obtain ⟨first, sound, further⟩ := spells
      have step := passes_next state
      rw [stands.2] at step
      cases tokens with
      | nil =>
          obtain rfl := further
          exact ⟨state.next, ⟨stands.1.trans first, rfl⟩, step⟩
      | cons other tokens =>
          obtain ⟨after, runs, passes⟩ := inductionHypothesis further (List.cons_ne_nil _ _) step.stands
          refine ⟨after, ⟨stands.1.trans first, runs⟩, passes.stands, ?_, passes.typed, passes.budget,
            passes.flags, passes.pending, passes.commas⟩
          have sound := further.2.1
          rw [passes.faulty, step.faulty, sound, Bool.not_true, Bool.or_false]

end Parser

end LiveComponent
