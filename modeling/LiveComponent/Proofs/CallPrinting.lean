import LiveComponent.Proofs.ArgumentReading
import LiveComponent.Proofs.TextParts
import LiveComponent.Proofs.TokenTexts
import LiveComponent.Markup.Transpile

namespace LiveComponent

/-!
# How calls are printed

What the printer writes for a call spells the tokens of its callee and of its arguments, with the marks of a call
around them.  So it is read as the call if each argument is printed in such a way that it is read as what it is.
-/

namespace Lexer

/-! ## Printed strings -/

/-- A zero behind a backslash stands alone in front of anything but an octal digit. -/
theorem escape?_zero
    {more : Text}
    (apart : ∀ d ∈ more.head?, isOctal d = false) :
    escape? ('0' :: more) = some ([0], 1) := by
  have none : (more.take 2).takeWhile isOctal = [] := by
    cases more with
    | nil => rfl
    | cons d more =>
        rw [List.take_succ_cons, List.takeWhile_cons, apart d rfl]
        rfl
  have read : escape? ('0' :: more) =
      some ([('0' :: (more.take 2).takeWhile isOctal).foldl (fun value c => 8 * value + (c.toNat - '0'.toNat)) 0],
        1 + ((more.take 2).takeWhile isOctal).length) := rfl
  rw [read, none]
  rfl

/-- How the printer writes a character of a string: as it is, with a backslash behind it that the next character
does not need, or behind a backslash. -/
theorem stringChar_cases
    (c : Char)
    (rest : Text) :
    (Printer.stringChar c rest = [c] ∧ isLetter c = true) ∨
      (Printer.stringChar c rest = ['<', '\\'] ∧ c = '<' ∧ Printer.endsScript rest = true) ∨
      ∃ escape, Printer.stringChar c rest = '\\' :: escape ∧
        ∀ more : Text, (∀ d ∈ more.head?, isOctal d = true → rest.head?.any Char.isDigit = true) →
          escape? (escape ++ more) = some ([c.toNat], escape.length) := by
  unfold Printer.stringChar
  split
  case h_10 =>
    split
    · exact .inr (.inr ⟨_, rfl, fun _ _ => rfl⟩)
    next noDigit =>
      refine .inr (.inr ⟨_, rfl, fun more apart => escape?_zero fun d first => ?_⟩)
      exact Bool.eq_false_iff.mpr fun octal => noDigit (apart d first octal)
  case h_11 =>
    split
    next ends => exact .inr (.inl ⟨rfl, rfl, ends⟩)
    next => exact .inl ⟨rfl, rfl⟩
  case h_12 quote backslash feed carriage _ _ _ _ _ _ _ =>
    have code {n : Nat} (same : (c.toNat == n) = true) : c.toNat = n := eq_of_beq same
    split
    next same => exact .inr (.inr ⟨_, rfl, fun _ _ => by rw [code same]; rfl⟩)
    next =>
      split
      next same => exact .inr (.inr ⟨_, rfl, fun _ _ => by rw [code same]; rfl⟩)
      next =>
        split
        next same => exact .inr (.inr ⟨_, rfl, fun _ _ => by rw [code same]; rfl⟩)
        next =>
          refine .inl ⟨rfl, ?_⟩
          simp only [isLetter, Bool.and_eq_true, bne_iff_ne]
          exact ⟨⟨⟨quote, backslash⟩, feed⟩, carriage⟩
  all_goals exact .inr (.inr ⟨_, rfl, fun _ _ => rfl⟩)

theorem slash_of_endsScript
    {rest : Text}
    (ends : Printer.endsScript rest = true) :
    ∃ more, rest = '/' :: more := by
  cases rest with
  | nil => cases ends
  | cons c more =>
      have first : ('/' == c.toLower) = true := by
        have parts := ends
        rw [Printer.endsScript, List.take_succ_cons, List.map_cons] at parts
        change ('/' == c.toLower && _) = true at parts
        rw [Bool.and_eq_true] at parts
        exact parts.1
      have slash : c.toLower = '/' := (eq_of_beq first).symm
      refine ⟨more, congrArg (· :: more) ?_⟩
      delta Char.toLower at slash
      split at slash
      next upper =>
        have code : c.val + ('a'.val - 'A'.val) = '/'.val := congrArg Char.val slash
        have back : '/'.val - ('a'.val - 'A'.val) = c.val := by
          rw [← code]
          exact UInt32.add_sub_cancel ..
        rw [← back] at upper
        exact absurd upper (by decide)
      next => exact slash

/-- The printed text of a string starts with an octal digit only if the string starts with a digit. -/
theorem digit_of_octal_plainBody
    (value rest : Text) :
    ∀ d ∈ (Printer.plainBody value ++ '"' :: rest).head?, isOctal d = true → value.head?.any Char.isDigit = true := by
  intro d first octal
  cases value with
  | nil =>
      obtain rfl := Option.some.inj first
      cases octal
  | cons c value =>
      rw [Printer.plainBody, List.append_assoc] at first
      rcases stringChar_cases c value with ⟨plain, -⟩ | ⟨split, -⟩ | ⟨escape, escaped, -⟩
      · rw [plain] at first
        obtain rfl := Option.some.inj first
        rw [isOctal, Bool.and_eq_true, decide_eq_true_eq, decide_eq_true_eq] at octal
        rw [List.head?_cons, Option.any_some, Char.isDigit_iff_toNat]
        exact ⟨octal.1, Nat.le_trans octal.2 (by decide)⟩
      · rw [split] at first
        obtain rfl := Option.some.inj first
        cases octal
      · rw [escaped] at first
        obtain rfl := Option.some.inj first
        cases octal

/-- A printed string is read as the string. -/
theorem readStringBody_plainBody
    (value rest : Text)
    {count : Nat}
    (enough : (Printer.plainBody value).length < count) :
    readStringBody '"' count (Printer.plainBody value ++ '"' :: rest) =
      some (value.map Char.toNat, (Printer.plainBody value).length) := by
  induction value generalizing count with
  | nil =>
      obtain ⟨count, rfl⟩ := Nat.exists_eq_succ_of_ne_zero (Nat.ne_zero_of_lt enough)
      rfl
  | cons c value inductionHypothesis =>
      obtain ⟨count, rfl⟩ := Nat.exists_eq_succ_of_ne_zero (Nat.ne_zero_of_lt enough)
      rw [Printer.plainBody, List.length_append] at enough
      rw [Printer.plainBody, List.append_assoc, List.length_append]
      rcases stringChar_cases c value with ⟨plain, letter⟩ | ⟨split, rfl, ends⟩ | ⟨escape, escaped, read⟩
      · rw [plain, List.length_singleton] at enough ⊢
        have further := @inductionHypothesis count (by omega)
        simp only [isLetter, Bool.and_eq_true, bne_iff_ne] at letter
        obtain ⟨⟨⟨quote, backslash⟩, feed⟩, carriage⟩ := letter
        rw [List.singleton_append, readStringBody]
        · simp [quote, feed, carriage, further, Nat.add_comm]
        · exact backslash
      · rw [split, List.length_cons, List.length_singleton] at enough ⊢
        obtain ⟨more, rfl⟩ := slash_of_endsScript ends
        have body : Printer.plainBody ('/' :: more) = '/' :: Printer.plainBody more := rfl
        rw [body, List.length_cons] at enough ⊢
        obtain ⟨count, rfl⟩ : ∃ shorter, count = shorter + 1 := ⟨count - 1, by omega⟩
        have further := @inductionHypothesis (count + 1) (by rw [body, List.length_cons]; omega)
        rw [body] at further
        -- the backslash is skipped, so the slash behind it is read as without one
        have plain : readStringBody '"' (count + 1) ('/' :: (Printer.plainBody more ++ '"' :: rest)) =
            (readStringBody '"' count (Printer.plainBody more ++ '"' :: rest)).map fun found =>
              ('/'.toNat :: found.1, found.2 + 1) := rfl
        have skipped : readStringBody '"' (count + 2) ('<' :: '\\' :: '/' :: (Printer.plainBody more ++ '"' :: rest)) =
            ((readStringBody '"' count (Printer.plainBody more ++ '"' :: rest)).map fun found =>
              ('/'.toNat :: found.1, found.2 + 1 + 1)).map fun found =>
                ('<'.toNat :: found.1, found.2 + 1) := rfl
        rw [List.cons_append, plain, Option.map_eq_some_iff] at further
        obtain ⟨⟨points, length⟩, read, same⟩ := further
        obtain ⟨samePoints, sameLength⟩ := Prod.mk.inj same
        obtain rfl := (List.cons.inj samePoints).2
        obtain rfl := Nat.succ.inj sameLength
        refine skipped.trans ?_
        rw [read, Option.map_some, Option.map_some, List.map_cons, List.map_cons, Nat.add_comm (1 + 1)]
      · rw [escaped, List.length_cons] at enough ⊢
        have further := @inductionHypothesis count (by omega)
        have escapeRead := read _ (digit_of_octal_plainBody value rest)
        rw [List.cons_append, readStringBody, escapeRead]
        simp only [List.drop_left, further, Option.map_some, List.map_cons, List.singleton_append]
        congr 2
        omega

/-- A printed string is spelled between its quotes. -/
theorem spells_printedString
    (value rest : Text) :
    Spells [.string value false] ('"' :: ((Printer.plainBody value ++ ['"']) ++ rest)) rest :=
  spells_quoted (readStringBody_plainBody value rest)

/-! ## Texts of items -/

/-- What follows does not go on with a name. -/
def EndsName (rest : Text) : Prop :=
  ∀ c ∈ rest.head?, isIdPart c = false ∧ c ≠ '\\'

/-- What stands behind an item of a list. -/
def Follows (rest : Text) : Prop :=
  ∃ c tail, rest = c :: tail ∧ c ∈ [',', ')', ' ', '\n']

theorem Follows.endsName
    {rest : Text}
    (follows : Follows rest) :
    EndsName rest := by
  obtain ⟨c, tail, rfl, closes⟩ := follows
  have noParts : ∀ c ∈ [',', ')', ' ', '\n'], isIdPart c = false ∧ c ≠ '\\' :=
    List.all_iff_forall_prop.mp (by decide)
  intro d first
  obtain rfl := Option.some.inj first
  exact noParts c closes

/-- The text spells the tokens in front of anything that stands behind an item of a list. -/
def IsSpelled (text : Text) (tokens : List Token) : Prop :=
  ∀ rest, Follows rest → Spells tokens (text ++ rest) rest

end Lexer

namespace Markup

/-- Whether the text is a name of a variable, perhaps with names of members behind it and points between. -/
def isPath (text : Text) : Bool :=
  match Text.splitAt '.' text with
  | [] => false
  | root :: names => isIdentifierName root && Token.isFree root && names.all isIdentifierName

end Markup

namespace Printer

open Lexer Parser

/-! ## Pages -/

/-- The page after a step. -/
def result (print : Print) (page : Page) : Page :=
  (print.run page).2

/-- The page with more text behind. -/
def Page.written (page : Page) (text : Text) : Page :=
  { page with reversed := text.reverse ++ page.reversed, size := page.size + text.length }

variable {page middle after : Page} {text more : Text}

@[simp]
theorem result_bind (first : Print) (next : Unit → Print) (page : Page) :
    result (first >>= next) page = result (next ()) (result first page) := rfl

@[simp]
theorem result_get (next : Page → Print) (page : Page) :
    result (get >>= next) page = result (next page) page := rfl

@[simp]
theorem result_put (text : Text) (page : Page) :
    result (put text) page = page.written text := rfl

@[simp]
theorem result_word (text : String) (page : Page) :
    result (word text) page = page.written text.toList := rfl

@[simp]
theorem result_nothing (page : Page) :
    result nothing page = page := rfl

@[simp]
theorem result_modify (change : Page → Page) (page : Page) :
    result (modify change) page = change page := rfl

@[simp]
theorem result_pure (page : Page) :
    result (pure ()) page = page := rfl

@[simp]
theorem when_true (print : Print) :
    when true print = print := rfl

@[simp]
theorem when_false (print : Print) :
    when false print = nothing := rfl

@[simp]
theorem result_wrap_false (print : Print) (page : Page) :
    result (wrap false print) page = result print page := rfl

@[simp]
theorem written_written (page : Page) (text more : Text) :
    (page.written text).written more = page.written (text ++ more) := by
  simp [Page.written, List.reverse_append, Nat.add_assoc]

/-- The places that the page has marked. -/
def Page.places (page : Page) : List Nat :=
  page.statementStart.toList ++ page.arrowStart.toList ++ page.afterRegex.toList ++
    (page.operator.map Prod.snd).toList ++ page.afterInteger.toList

/-- The page has marked no place behind its text, and does not go on with the line of another statement. -/
structure Page.IsSettled (page : Page) : Prop where
  joined : page.joins = false
  places : ∀ place ∈ page.places, place ≤ page.size

/-- The page goes on with a new token, and nothing is marked where it does. -/
structure Page.IsFresh (page : Page) : Prop where
  joined : page.joins = false
  places : ∀ place ∈ page.places, place < page.size
  apart : ∀ c ∈ page.reversed.head?, isIdPart c = false

/-- The page goes on with the text. -/
structure Page.Appends (page after : Page) (text : Text) : Prop where
  reversed : after.reversed = text.reverse ++ page.reversed
  size : after.size = page.size + text.length
  indent : after.indent = page.indent
  settled : after.IsSettled

theorem Page.IsFresh.settled
    (fresh : page.IsFresh) :
    page.IsSettled :=
  ⟨fresh.joined, fun place member => Nat.le_of_lt (fresh.places place member)⟩

theorem Page.IsSettled.appends
    (settled : page.IsSettled)
    (text : Text) :
    page.Appends (page.written text) text :=
  ⟨rfl, rfl, rfl, settled.joined, fun place member => Nat.le_trans (settled.places place member) (Nat.le_add_right ..)⟩

theorem Page.Appends.trans
    (first : page.Appends middle text)
    (second : middle.Appends after more) :
    page.Appends after (text ++ more) := by
  refine ⟨?_, ?_, second.indent.trans first.indent, second.settled⟩
  · rw [second.reversed, first.reversed, List.reverse_append, List.append_assoc]
  · rw [second.size, first.size, List.length_append, Nat.add_assoc]

/-- More text is written behind. -/
theorem Page.Appends.written
    (appends : page.Appends after text)
    (more : Text) :
    page.Appends (after.written more) (text ++ more) :=
  appends.trans (appends.settled.appends more)

/-- Behind characters that are no part of a word, the page goes on with a new token. -/
theorem Page.IsSettled.fresh
    (settled : page.IsSettled)
    (filled : text ≠ [])
    (apart : ∀ c ∈ text, isIdPart c = false) :
    (page.written text).IsFresh := by
  refine ⟨settled.joined, fun place member => ?_, fun c last => ?_⟩
  · have bound := settled.places place member
    have long := List.length_pos_iff.mpr filled
    change place < page.size + text.length
    omega
  · have written : (page.written text).reversed = text.reverse ++ page.reversed := rfl
    obtain ⟨d, more, reversed⟩ := List.exists_cons_of_ne_nil (List.reverse_ne_nil_iff.mpr filled)
    rw [written, reversed] at last
    obtain rfl := Option.some.inj last
    exact apart d (List.mem_reverse.mp (reversed ▸ List.mem_cons_self ..))

/-- Behind marks the page goes on with a new token. -/
theorem Page.IsSettled.freshMark
    (settled : page.IsSettled)
    (filled : text ≠ [])
    (marks : (text.all fun c => !isIdPart c) = true) :
    (page.written text).IsFresh :=
  settled.fresh filled fun c member => by
    have mark := List.all_eq_true.mp marks c member
    rwa [Bool.not_eq_true'] at mark

/-! ## Words -/

/-- The page can go on with a word. -/
structure Page.IsApart (page : Page) : Prop where
  apart : ∀ c ∈ page.reversed.head?, isIdPart c = false
  noRegex : page.afterRegex ≠ some page.size

theorem Page.IsFresh.isApart
    (fresh : page.IsFresh) :
    page.IsApart := by
  refine ⟨fresh.apart, fun same => ?_⟩
  have member : page.size ∈ page.places := by
    simp only [Page.places, same, Option.toList_some, List.mem_append, List.mem_singleton, or_true, true_or]
  exact absurd (fresh.places _ member) (Nat.lt_irrefl _)

theorem result_spaceBeforeWord
    (apart : page.IsApart) :
    result spaceBeforeWord page = page := by
  rw [spaceBeforeWord, result_get]
  cases reversed : page.reversed with
  | nil => rfl
  | cons c more =>
      have first : isIdPart c = false := apart.apart c (by rw [reversed]; rfl)
      have noRegex : (page.afterRegex == some page.size) = false := beq_eq_false_iff_ne.mpr apart.noRegex
      simp only [first, noRegex, Bool.or_false, when_false, result_nothing]

theorem result_keyword
    (apart : page.IsApart)
    (text : String) :
    result (keyword text) page = page.written text.toList := by
  rw [keyword, result_bind, result_spaceBeforeWord apart, result_word]

/-! ## Operands -/

theorem document_node
    (kind : Kind)
    (span : Span)
    (children : List Tree) :
    document (.node kind span children) = layout (.node kind span children) (children.map document) :=
  Tree.fold_node ..

/-- The tree is an operand that is always written as the text. -/
structure IsWritten (tree : Tree) (text : Text) (tokens : List Token) : Prop where
  operand : Operand tokens tree
  filled : text ≠ []
  prints : ∀ {page : Page} {level : Nat}, page.IsSettled → page.IsApart →
    result (document tree (.plain level)) page = page.written text
  spells : ∀ rest, EndsName rest → Spells tokens (text ++ rest) rest

theorem isWritten_reference
    {name : Text}
    (isName : isIdentifierName name = true)
    (free : Token.isFree name = true) :
    IsWritten (Markup.reference name) name [.word name false] := by
  have other {word : String} (bound : Token.isFree word.toList = false) : (name == word.toList) = false := by
    apply beq_eq_false_iff_ne.mpr
    rintro rfl
    rw [bound] at free
    cases free
  refine ⟨.atom ?_, ?_, fun {page level} _ apart => ?_, fun rest ends => spells_name isName ends⟩
  · rw [Token.atom?, other (by decide), other (by decide), free]
    rfl
  · rintro rfl
    cases isName
  · have print : document (Markup.reference name) (.plain level) = (do spaceBeforeWord; put name) := rfl
    rw [print, result_bind, result_spaceBeforeWord apart, result_put]

/-- A member of an operand is written with a point. -/
theorem isWritten_member
    {object : Tree}
    {name : Text}
    {tokens : List Token}
    (written : IsWritten object text tokens)
    (isName : isIdentifierName name = true) :
    IsWritten (.made (.member false) [object, .made (.name name) []]) (text ++ '.' :: name)
      (tokens ++ [Token.mark ".", .word name false]) := by
  refine ⟨written.operand.member name, by simp [written.filled], fun {page level} settled apart => ?_,
    fun rest ends => ?_⟩
  · have print : document (.made (.member false) [object, .made (.name name) []]) (.plain level) = (do
        document object (.plain Level.trailing)
        let page ← get
        when (page.afterInteger == some page.size) space
        word "."
        put name) := by
      rw [Tree.made, document_node]
      rfl
    have noInteger : ((page.written text).afterInteger == some (page.written text).size) = false := by
      apply beq_eq_false_iff_ne.mpr
      intro same
      have member : (page.written text).size ∈ page.places := by
        have integer : page.afterInteger = some (page.written text).size := same
        simp only [Page.places, integer, Option.toList_some, List.mem_append, List.mem_singleton, or_true]
      have bound : page.size + text.length ≤ page.size := settled.places _ member
      have long := List.length_pos_iff.mpr written.filled
      omega
    rw [print, result_bind, written.prints settled apart, result_get, noInteger]
    simp only [when_false, result_bind, result_nothing, result_word, result_put, written_written, List.append_assoc]
    rfl
  · have point := spells_append (spells_point isName rest) (spells_name isName ends)
    have object := written.spells ('.' :: (name ++ rest)) (by
      intro c first
      obtain rfl := Option.some.inj first
      decide)
    rw [List.append_assoc]
    exact spells_append object point

/-- Members of members of an operand are written with points, behind what the operand is written as. -/
theorem isWritten_members
    {object : Tree}
    {tokens : List Token}
    (written : IsWritten object text tokens)
    {names : List Text}
    (areNames : names.all isIdentifierName = true) :
    ∃ more tokens, (∀ c ∈ more.head?, c = '.') ∧ IsWritten
      (names.foldl (fun object name => .made (.member false) [object, .made (.name name) []]) object)
      (text ++ more) tokens := by
  induction names generalizing object text tokens with
  | nil =>
      exact ⟨[], tokens, by simp, by rw [List.append_nil]; exact written⟩
  | cons name names inductionHypothesis =>
      rw [List.all_cons, Bool.and_eq_true] at areNames
      obtain ⟨more, tokens, -, further⟩ := inductionHypothesis (isWritten_member written areNames.1) areNames.2
      rw [List.append_assoc] at further
      exact ⟨_, tokens, by simp, further⟩

/-- The first part of a path is the variable behind it. -/
theorem rootOf_eq
    {root : Text}
    {names : List Text}
    (parts : Text.splitAt '.' text = root :: names) :
    Markup.rootOf text = root := by
  induction text generalizing root names with
  | nil =>
      obtain ⟨rfl, -⟩ := List.cons.inj parts
      rfl
  | cons c text inductionHypothesis =>
      rw [Text.splitAt] at parts
      rw [Markup.rootOf, List.takeWhile_cons]
      split at parts
      next none =>
        exact absurd none (Text.splitAt_ne_nil '.' text)
      next part _ found =>
        have same := inductionHypothesis found
        split at parts
        next point =>
          obtain ⟨rfl, -⟩ := List.cons.inj parts
          rw [point]
          rfl
        next other =>
          obtain ⟨rfl, -⟩ := List.cons.inj parts
          rw [if_pos (by simpa using other), ← same]
          rfl

/-- A path is written as the variable behind it, perhaps with points and more names. -/
theorem isWritten_path
    (isPath : Markup.isPath text = true) :
    ∃ more tokens, (∀ c ∈ more.head?, c = '.') ∧
      IsWritten (Markup.path text) (Markup.rootOf text ++ more) tokens := by
  unfold Markup.isPath at isPath
  unfold Markup.path
  cases parts : Text.splitAt '.' text with
  | nil =>
      rw [parts] at isPath
      cases isPath
  | cons root names =>
      rw [parts] at isPath
      simp only [Bool.and_eq_true] at isPath
      rw [rootOf_eq parts]
      exact isWritten_members (isWritten_reference isPath.1.1 isPath.1.2) isPath.2

/-! ## Items -/

/-- On a fresh page, the print writes tokens that are read as the tree. -/
def Writes (reads : List Token → Tree → Prop) (print : Print) (tree : Tree) : Prop :=
  ∀ ⦃page : Page⦄, page.IsFresh →
    ∃ text tokens, reads tokens tree ∧ tokens ≠ [] ∧ page.Appends (result print page) text ∧ IsSpelled text tokens

variable
  {reads : List Token → Tree → Prop}
  {print : Tree → Print}
  {separator : Print}
  {blanks : Text}
  {indent : Nat}
  {tree : Tree}
  {trees : List Tree}
  {typed : Bool}
  {flags : Flags}

theorem Writes.mono
    {wider : List Token → Tree → Prop}
    {print : Print}
    {other : Tree}
    (writes : Writes reads print tree)
    (implies : ∀ tokens, reads tokens tree → wider tokens other) :
    Writes wider print other := by
  intro page fresh
  obtain ⟨text, tokens, read, filled, appends, spelled⟩ := writes fresh
  exact ⟨text, tokens, implies tokens read, filled, appends, spelled⟩

/-- Operands are printed as expressions. -/
theorem IsWritten.writes
    {tokens : List Token}
    (written : IsWritten tree text tokens)
    (level : Nat) :
    Writes (IsExpression typed flags) (document tree (.plain level)) tree := by
  intro page fresh
  refine ⟨text, tokens, isExpression_operand written.operand, written.operand.filled, ?_,
    fun rest follows => written.spells rest follows.endsName⟩
  rw [written.prints fresh.settled fresh.isApart]
  exact fresh.settled.appends text

theorem writes_string
    (value : Text)
    (level : Nat) :
    Writes (IsExpression typed flags) (document (Markup.string value) (.plain level)) (Markup.string value) := by
  intro page fresh
  refine ⟨'"' :: (plainBody value ++ ['"']), _, isExpression_string value, List.cons_ne_nil _ _, ?_,
    fun rest _ => spells_printedString value rest⟩
  have print : result (document (Markup.string value) (.plain level)) page =
      page.written ('"' :: (plainBody value ++ ['"'])) := by
    have printed : document (Markup.string value) (.plain level) = stringText value false := rfl
    rw [printed, stringText]
    simp only [result_bind, result_word, result_put, written_written, List.append_assoc]
    rfl
  rw [print]
  exact fresh.settled.appends _

theorem writes_null
    (level : Nat) :
    Writes (IsExpression typed flags) (document (.made .nullLiteral []) (.plain level)) (.made .nullLiteral []) := by
  intro page fresh
  refine ⟨"null".toList, _, isExpression_null, List.cons_ne_nil _ _, ?_,
    fun rest follows => spells_name (by decide) follows.endsName⟩
  have print : result (document (.made .nullLiteral []) (.plain level)) page = page.written "null".toList :=
    result_keyword fresh.isApart "null"
  rw [print]
  exact fresh.settled.appends _

theorem writes_true
    (level : Nat) :
    Writes (IsExpression typed flags) (document (.made (.boolLiteral true) []) (.plain level))
      (.made (.boolLiteral true) []) := by
  intro page fresh
  refine ⟨"true".toList, _, isExpression_true, List.cons_ne_nil _ _, ?_,
    fun rest follows => spells_name (by decide) follows.endsName⟩
  have print : result (document (.made (.boolLiteral true) []) (.plain level)) page = page.written "true".toList :=
    result_keyword fresh.isApart "true"
  rw [print]
  exact fresh.settled.appends _

/-! ## Lists of items -/

theorem commas_cons
    (first : List Token)
    (rest : List (List Token)) :
    commas (first :: rest) = first ++ rest.flatMap (.mark "," :: ·) := by
  induction rest generalizing first with
  | nil =>
      rw [commas, List.flatMap_nil, List.append_nil]
  | cons second rest inductionHypothesis =>
      rw [commas, inductionHypothesis, List.flatMap_cons, List.cons_append]
      exact List.cons_ne_nil _ _

/-- Items with a comma and blanks in front of each of them. -/
theorem appends_separated
    (separates : ∀ {page : Page}, page.IsSettled → page.indent = indent →
      result separator page = page.written (',' :: blanks))
    (blank : ∀ c ∈ blanks, isGap c = true ∧ isIdPart c = false)
    (follows : ∀ rest, Follows (',' :: rest))
    (each : ∀ item ∈ trees, Writes reads (print item) item)
    (settled : page.IsSettled)
    (indented : page.indent = indent) :
    ∃ text, ∃ parts : List (List Token × Tree), parts.map Prod.snd = trees ∧ (∀ part ∈ parts, reads part.1 part.2) ∧
      page.Appends (result ((trees.map print).forM fun print => do separator; print) page) text ∧
      ∀ rest, Follows rest → Follows (text ++ rest) ∧
        Spells ((parts.map Prod.fst).flatMap (.mark "," :: ·)) (text ++ rest) rest := by
  induction trees generalizing page with
  | nil =>
      exact ⟨[], [], rfl, by simp, settled.appends [], fun rest follows => ⟨follows, rfl⟩⟩
  | cons tree trees inductionHypothesis =>
      rw [List.forall_mem_cons] at each
      have apart : ∀ c ∈ ',' :: blanks, isIdPart c = false :=
        List.forall_mem_cons.mpr ⟨by decide, fun c member => (blank c member).2⟩
      obtain ⟨text, tokens, read, filled, appends, spelled⟩ :=
        each.1 (settled.fresh (List.cons_ne_nil _ _) apart)
      obtain ⟨more, parts, found, readMore, appendsMore, spelledMore⟩ :=
        inductionHypothesis each.2 appends.settled (appends.indent.trans indented)
      refine ⟨',' :: blanks ++ (text ++ more), (tokens, tree) :: parts, by rw [List.map_cons, found],
        List.forall_mem_cons.mpr ⟨read, readMore⟩, ?_, fun rest ends => ⟨follows _, ?_⟩⟩
      · have print : result (((tree :: trees).map print).forM fun print => do separator; print) page =
            result ((trees.map print).forM fun print => do separator; print)
              (result (print tree) (result separator page)) := rfl
        rw [print, separates settled indented]
        exact (settled.appends _).trans (appends.trans appendsMore)
      · obtain ⟨begins, spells⟩ := spelledMore rest ends
        have both := spells_append (spelled _ begins) spells
        have behind := spells_blanks (fun c member => (blank c member).1) both
          (List.append_ne_nil_of_left_ne_nil filled _)
        have comma := spells_append (spells_bracket ',' (by decide) _) behind
        simp only [List.map_cons, List.flatMap_cons, List.cons_append, List.append_assoc]
        exact comma

/-- Items with a comma and blanks between them. -/
theorem appends_items
    (separates : ∀ {page : Page}, page.IsSettled → page.indent = indent →
      result separator page = page.written (',' :: blanks))
    (blank : ∀ c ∈ blanks, isGap c = true ∧ isIdPart c = false)
    (each : ∀ item ∈ tree :: trees, Writes reads (print item) item)
    (fresh : page.IsFresh)
    (indented : page.indent = indent) :
    ∃ text, ∃ parts : List (List Token × Tree), parts.map Prod.snd = tree :: trees ∧ (∀ part ∈ parts, reads part.1 part.2) ∧
      page.Appends
        (result ((trees.map print).forM fun print => do separator; print) (result (print tree) page)) text ∧
      IsSpelled text (commas (parts.map Prod.fst)) ∧ commas (parts.map Prod.fst) ≠ [] := by
  rw [List.forall_mem_cons] at each
  obtain ⟨text, tokens, read, filled, appends, spelled⟩ := each.1 fresh
  obtain ⟨more, parts, found, readMore, appendsMore, spelledMore⟩ :=
    appends_separated separates blank (fun rest => ⟨',', rest, rfl, by decide⟩) each.2 appends.settled
      (appends.indent.trans indented)
  refine ⟨text ++ more, (tokens, tree) :: parts, by rw [List.map_cons, found],
    List.forall_mem_cons.mpr ⟨read, readMore⟩, appends.trans appendsMore, fun rest ends => ?_, ?_⟩
  · obtain ⟨begins, spells⟩ := spelledMore rest ends
    rw [List.map_cons, commas_cons, List.append_assoc]
    exact spells_append (spelled _ begins) spells
  · rw [List.map_cons, commas_cons]
    exact List.append_ne_nil_of_left_ne_nil filled _

theorem result_commaSeparated
    (first : Print)
    (prints : List Print)
    (page : Page) :
    result (commaSeparated (first :: prints)) page =
      result (prints.forM fun print => do word ", "; print) (result first page) := by
  induction prints generalizing first page with
  | nil =>
      rfl
  | cons second prints inductionHypothesis =>
      rw [commaSeparated, result_bind, result_bind, inductionHypothesis]
      · rfl
      · exact List.cons_ne_nil _ _

/-- Items are printed with commas between them. -/
theorem appends_commaSeparated
    (each : ∀ item ∈ trees, Writes reads (print item) item)
    (fresh : page.IsFresh) :
    ∃ text, ∃ parts : List (List Token × Tree), parts.map Prod.snd = trees ∧
      (∀ part ∈ parts, reads part.1 part.2) ∧
      page.Appends (result (commaSeparated (trees.map print)) page) text ∧
      IsSpelled text (commas (parts.map Prod.fst)) := by
  cases trees with
  | nil =>
      exact ⟨[], [], rfl, by simp, fresh.settled.appends [], fun rest _ => rfl⟩
  | cons tree trees =>
      have separates : ∀ {other : Page}, other.IsSettled → other.indent = page.indent →
          result (word ", ") other = other.written (',' :: [' ']) :=
        fun _ _ => rfl
      have blank : ∀ c ∈ [' '], isGap c = true ∧ isIdPart c = false :=
        List.forall_mem_singleton.mpr ⟨by decide, by decide⟩
      obtain ⟨text, parts, found, read, appends, spelled, -⟩ := appends_items separates blank each fresh rfl
      rw [List.map_cons, result_commaSeparated]
      exact ⟨text, parts, found, read, appends, spelled⟩

/-! ## Calls -/

theorem zip_document
    (children : List Tree) :
    children.zip (children.map document) = children.map fun child => (child, document child) := by
  induction children with
  | nil => rfl
  | cons child children inductionHypothesis => rw [List.map_cons, List.zip_cons_cons, inductionHypothesis, List.map_cons]

theorem result_call
    (callee : Tree)
    (arguments : List Tree)
    {level : Nat}
    (loose : level < Level.construct)
    (page : Page) :
    result (document (.made (.call false false) (callee :: .absent :: arguments)) (.plain level)) page =
      (result (commaSeparated (arguments.map fun argument => document argument (.plain Level.comma)))
        ((result (document callee (.plain Level.trailing)) page).written "(".toList)).written ")".toList := by
  have unwrapped : (level ≥ Level.construct || false || (false && level ≥ Level.trailing)) = false := by
    simp [Nat.not_le.mpr loose]
  have print : document (.made (.call false false) (callee :: .absent :: arguments)) (.plain level) = (do
      let page ← get
      wrap (level ≥ Level.construct || false || (false && level ≥ Level.trailing)) do
        when false (word "/* @__PURE__ */ ")
        when (false && atStatementStart page) (modify fun page => { page with statementStart := some page.size })
        document callee (.plain Level.trailing)
        when false (word "?.")
        document .absent (.plain Level.lowest)
        argumentsText (arguments.zip (arguments.map document))) := by
    rw [Tree.made, document_node]
    rfl
  have absent : result (document .absent (.plain Level.lowest)) = id := rfl
  rw [print, result_get, unwrapped, result_wrap_false, Bool.false_and, argumentsText, zip_document, List.map_map]
  simp only [when_false, result_bind, result_nothing, absent, result_word]
  rfl

/-- The arguments of a call are printed between parentheses. -/
theorem appends_call
    {callee : Tree}
    {arguments : List Tree}
    {tokens : List Token}
    {level : Nat}
    (written : IsWritten callee text tokens)
    (each : ∀ item ∈ arguments, Writes (IsItem Parser.argument typed flags) (document item (.plain Level.comma)) item)
    (loose : level < Level.construct)
    (settled : page.IsSettled)
    (apart : page.IsApart) :
    ∃ inside, ∃ parts : List (List Token × Tree), parts.map Prod.snd = arguments ∧
      (∀ part ∈ parts, IsItem Parser.argument typed flags part.1 part.2) ∧
      page.Appends
        (result (document (.made (.call false false) (callee :: .absent :: arguments)) (.plain level)) page)
        (text ++ '(' :: inside) ∧
      ∀ rest, Spells (tokens ++ Token.mark "(" :: (commas (parts.map Prod.fst) ++ [Token.mark ")"]))
        (text ++ '(' :: inside ++ rest) rest := by
  have opened : page.Appends ((page.written text).written "(".toList) (text ++ "(".toList) :=
    (settled.appends text).written _
  have fresh : ((page.written text).written "(".toList).IsFresh :=
    (settled.appends text).settled.freshMark (List.cons_ne_nil _ _) (by decide)
  have callee (inside rest : Text) := written.spells ('(' :: (inside ++ ')' :: rest)) (by
    intro c first
    obtain rfl := Option.some.inj first
    decide)
  rw [result_call _ _ loose, written.prints settled apart]
  obtain ⟨inside, parts, found, read, appends, spelled⟩ := appends_commaSeparated each fresh
  have all := (opened.trans appends).written ")".toList
  rw [List.append_assoc, List.append_assoc] at all
  refine ⟨inside ++ ")".toList, parts, found, read, all, fun rest => ?_⟩
  have closed :=
    spells_append (spelled (')' :: rest) ⟨')', rest, rfl, by decide⟩) (spells_bracket ')' (by decide) rest)
  have whole := spells_append (callee inside rest) (spells_append (spells_bracket '(' (by decide) _) closed)
  simp only [List.append_assoc, List.cons_append]
  exact whole

/-- A call is printed as an expression if its arguments are printed as arguments. -/
theorem writes_call
    {callee : Tree}
    {arguments : List Tree}
    {tokens : List Token}
    {level : Nat}
    (written : IsWritten callee text tokens)
    (each : ∀ item ∈ arguments, Writes (IsItem Parser.argument typed flags) (document item (.plain Level.comma)) item)
    (loose : level < Level.construct) :
    Writes (IsExpression typed flags)
      (document (.made (.call false false) (callee :: .absent :: arguments)) (.plain level))
      (.made (.call false false) (callee :: .absent :: arguments)) := by
  intro page fresh
  obtain ⟨inside, parts, rfl, read, appends, spells⟩ := appends_call written each loose fresh.settled fresh.isApart
  exact ⟨_, _, isExpression_call written.operand read, List.append_ne_nil_of_left_ne_nil written.operand.filled _,
    appends, fun rest _ => spells rest⟩

/-! ## Properties and spreads -/

/-- A spread is printed with dots in front of its expression. -/
theorem writes_spread
    {item : P Tree}
    (spreads : ∀ {goals : Goal → Step Tree} {state : State}, state.token.isMark "..." = true →
      item goals state = spreadElement goals state)
    {expression : Tree}
    (writes : Writes (IsExpression typed flags) (document expression (.plain Level.comma)) expression)
    (level : Nat) :
    Writes (IsItem item typed flags) (document (.made .spread [expression]) (.plain level))
      (.made .spread [expression]) := by
  intro page fresh
  obtain ⟨text, tokens, read, filled, appends, spelled⟩ :=
    writes (@Page.IsSettled.freshMark page "...".toList fresh.settled (by decide) (by decide))
  refine ⟨"...".toList ++ text, .mark "..." :: tokens, read.spread spreads, List.cons_ne_nil _ _, ?_,
    fun rest follows => ?_⟩
  · have print : document (.made .spread [expression]) (.plain level) = (do
        word "..."
        document expression (.plain Level.comma)) := by
      rw [Tree.made, document_node]
      rfl
    rw [print, result_bind, result_word]
    exact (fresh.settled.appends _).trans appends
  · have dots : Spells [.mark "..."] ('.' :: (['.', '.'] ++ (text ++ rest))) (text ++ rest) :=
      spells_of_read (by decide) rfl
    exact spells_append dots (spelled rest follows)

/-- The printer writes the expression so that it is read as what it is, and a variable by its name. -/
structure IsReadBack (typed : Bool) (flags : Flags) (tree : Tree) : Prop where
  written : Writes (IsExpression typed flags) (document tree (.plain Level.comma)) tree
  named : ∀ {name : Text} {span : Span} {children : List Tree},
    withoutParentheses tree = .node (.identifier name) span children →
      children = [] ∧ Token.isVariable name = true

theorem layout_of_expression
    {docs : List Doc}
    {request : Request}
    {print : Print}
    (printed : expressionLayout? tree.kind (tree.children.zip docs) request = some print) :
    layout tree docs request = print := by
  simp only [layout, printed]

/-- A function stands in no parentheses. -/
theorem withoutParentheses_of_isFunction
    (function : isFunction tree = true) :
    withoutParentheses tree = tree := by
  unfold withoutParentheses
  split
  · cases function
  · rfl

/-- A variable is printed without parentheses. -/
theorem document_of_withoutParentheses
    {name : Text}
    {span : Span}
    {children : List Tree}
    (bound : withoutParentheses tree = .node (.identifier name) span children)
    (request : Request) :
    document tree request = document (.node (.identifier name) span children) request := by
  fun_induction withoutParentheses tree with
  | case1 outer expression inductionHypothesis =>
      have noFunction : ¬isFunction expression = true := by
        intro function
        rw [withoutParentheses_of_isFunction function] at bound
        rw [bound] at function
        cases function
      have print : document (.node .parenthesized outer [expression]) request = document expression request := by
        rw [document_node]
        refine layout_of_expression ?_
        change (if isFunction expression = true then _ else some (document expression request)) = _
        rw [if_neg noFunction]
      rw [print, inductionHypothesis bound]
  | case2 expression other =>
      rw [bound]

theorem bare_withoutParentheses
    (tree : Tree) :
    (withoutParentheses tree).bare = tree.bare := by
  fun_induction withoutParentheses tree with
  | case1 outer expression inductionHypothesis =>
      rw [inductionHypothesis, Tree.bare_node]
      rfl
  | case2 expression other =>
      rfl

theorem keyKind?_propertyKey
    (name : Text) :
    ∃ key kind text, keyKind? key = some kind ∧ Markup.propertyKey name = .made kind [] ∧
      (∀ page, result (document (Markup.propertyKey name) (.plain Level.comma)) page = page.written text) ∧
      ∀ rest, EndsName rest → Spells [key] (text ++ rest) rest := by
  unfold Markup.propertyKey
  split
  next isName =>
    exact ⟨.word name false, .name name, name, rfl, rfl, fun _ => rfl, fun rest ends => spells_name isName ends⟩
  next =>
    refine ⟨.string name false, .stringLiteral name false, '"' :: (plainBody name ++ ['"']), rfl, rfl, fun page => ?_,
      fun rest _ => spells_printedString name rest⟩
    have print : document (Markup.string name) (.plain Level.comma) = stringText name false := rfl
    rw [print, stringText]
    simp only [result_bind, result_word, result_put, written_written, List.append_assoc]
    rfl

/-- A property is printed by its name alone only if its value is the variable of that name. -/
theorem printsName_propertyKey
    {name : Text}
    (alone : printsName (Markup.propertyKey name) tree false = true) :
    isIdentifierName name = true ∧
      ∃ span children, withoutParentheses tree = .node (.identifier name) span children := by
  unfold Markup.propertyKey at alone
  split at alone
  next isName =>
    refine ⟨isName, ?_⟩
    unfold printsName at alone
    split at alone
    next text _ _ isText =>
      cases isText
      split at alone
      · cases alone
      · split at alone
        next other span children bound =>
          rw [eq_of_beq alone] at bound
          exact ⟨span, children, bound⟩
        next => cases alone
    next => cases alone
  next => cases alone

theorem isInfiniteKey_propertyKey
    (name : Text) :
    isInfiniteKey (Markup.propertyKey name) = false := by
  unfold Markup.propertyKey
  split <;> rfl

/-- A property of an attribute is printed as a property. -/
theorem writes_property
    (name : Text)
    (readBack : IsReadBack typed flags tree)
    (level : Nat) :
    Writes (IsItem objectItem typed flags)
      (document (.made (.property .plain false false false) [Markup.propertyKey name, tree]) (.plain level))
      (.made (.property .plain false false false) [Markup.propertyKey name, tree]) := by
  have print : document (.made (.property .plain false false false) [Markup.propertyKey name, tree]) (.plain level) =
      (do
        when (!printsName (Markup.propertyKey name) tree false) do
          key (isInfiniteKey (Markup.propertyKey name)) (Markup.propertyKey name, document (Markup.propertyKey name))
          word ": "
        document tree (.plain Level.comma)) := by
    rw [Tree.made, document_node]
    rfl
  rw [print, isInfiniteKey_propertyKey]
  intro page fresh
  cases alone : printsName (Markup.propertyKey name) tree false with
  | true =>
      obtain ⟨isName, span, children, bound⟩ := printsName_propertyKey alone
      obtain ⟨rfl, stands⟩ := readBack.named bound
      have named : Markup.propertyKey name = .made (.name name) [] := if_pos isName
      have same : Tree.sense (.made (.identifier name) []) = tree.sense := by
        rw [Tree.sense, Tree.sense, ← bare_withoutParentheses tree, bound]
        rfl
      refine ⟨name, [.word name false], (isItem_shorthand stands).congr ?_, List.cons_ne_nil _ _, ?_,
        fun rest follows => spells_name isName follows.endsName⟩
      · rw [named, Tree.sense_made (.property ..) (by simp), Tree.sense_made (.property ..) (by simp), List.map_cons,
          List.map_singleton, List.map_cons, List.map_singleton, same]
      · have printed : document (.node (.identifier name) span []) (.plain Level.comma) = (do
            spaceBeforeWord
            put name) := rfl
        rw [Bool.not_true, when_false, result_bind, result_nothing, document_of_withoutParentheses bound, printed,
          result_bind, result_spaceBeforeWord fresh.isApart, result_put]
        exact fresh.settled.appends name
  | false =>
      obtain ⟨token, kind, text, named, key, prints, spells⟩ := keyKind?_propertyKey name
      have begun := (fresh.settled.appends text).written ": ".toList
      obtain ⟨value, tokens, read, filled, appends, spelled⟩ := readBack.written
        (@Page.IsSettled.freshMark (page.written text) ": ".toList (fresh.settled.appends text).settled (by decide) (by decide))
      refine ⟨text ++ ": ".toList ++ value, token :: .mark ":" :: tokens, ?_, List.cons_ne_nil _ _, ?_,
        fun rest follows => ?_⟩
      · rw [key]
        exact isItem_property named read
      · have printed : result (do
            Printer.key false (Markup.propertyKey name, document (Markup.propertyKey name))
            word ": ") page = (page.written text).written ": ".toList := by
          rw [Printer.key]
          simp only [when_false, result_bind, result_nothing, result_word, Part.item, Part.at, prints]
        rw [Bool.not_false, when_true, result_bind, printed]
        exact begun.trans appends
      · have colon : Spells [.mark ":"] (':' :: ([] ++ ' ' :: (value ++ rest))) (' ' :: (value ++ rest)) :=
          spells_of_read (by decide) rfl
        have behind := spells_append colon (spells_space (spelled rest follows) filled)
        have whole := spells_append (spells _ (by
          intro c first
          obtain rfl := Option.some.inj first
          decide)) behind
        simp only [List.append_assoc]
        exact whole

/-! ## Objects -/

theorem result_indentation
    (settled : page.IsSettled) :
    result indentation page = page.written (List.replicate page.indent '\t') := by
  rw [indentation, result_get, settled.joined]
  rfl

/-- A new line, up to its first item. -/
def margin (indent : Nat) : Text :=
  '\n' :: List.replicate indent '\t'

theorem blank_margin
    (indent : Nat) :
    ∀ c ∈ margin indent, isGap c = true ∧ isIdPart c = false := by
  refine List.forall_mem_cons.mpr ⟨by decide, fun c member => ?_⟩
  rw [List.eq_of_mem_replicate member]
  decide

theorem result_newLine
    (settled : page.IsSettled) :
    result (do newline; indentation) page = page.written (margin page.indent) := by
  have broken : result newline page = page.written ['\n'] := rfl
  rw [result_bind, broken, result_indentation (settled.appends _).settled, written_written]
  rfl

/-- Items are printed on lines of their own. -/
theorem appends_lines
    (each : ∀ item ∈ tree :: trees, Writes reads (print item) item)
    (settled : page.IsSettled) :
    ∃ text, ∃ parts : List (List Token × Tree), parts.map Prod.snd = tree :: trees ∧
      (∀ part ∈ parts, reads part.1 part.2) ∧
      page.Appends (result (lines ((tree :: trees).map print)) page) text ∧
      ∀ {behind rest tokens}, Spells tokens behind rest → tokens ≠ [] →
        Spells (commas (parts.map Prod.fst) ++ tokens) (text ++ behind) rest := by
  let deeper : Page := { page with indent := page.indent + 1 }
  have settledDeeper : deeper.IsSettled := ⟨settled.joined, settled.places⟩
  have separates : ∀ {other : Page}, other.IsSettled → other.indent = page.indent + 1 →
      result (do word ","; newline; indentation) other = other.written (',' :: margin (page.indent + 1)) := by
    intro other settled indented
    have broken : result (do newline; indentation) (other.written [',']) =
        (other.written [',']).written (margin other.indent) := result_newLine (settled.appends _).settled
    rw [result_bind, result_word, ← indented]
    exact broken.trans (written_written ..)
  have fresh : (deeper.written (margin (page.indent + 1))).IsFresh :=
    settledDeeper.fresh (List.cons_ne_nil _ _) fun c member => (blank_margin _ c member).2
  obtain ⟨text, parts, found, read, appends, spelled, filled⟩ :=
    appends_items separates (blank_margin _) each fresh rfl
  refine ⟨margin (page.indent + 1) ++ text ++ margin page.indent, parts, found, read, ?_, fun spells filledBehind => ?_⟩
  · have printed : result (lines ((tree :: trees).map print)) page =
        (let last := result ((trees.map print).forM fun print => do (do word ","; newline; indentation); print)
            (result (print tree) (result (do newline; indentation) deeper))
        result (do newline; indentation) { last with indent := last.indent - 1 }) := rfl
    have inside := (settledDeeper.appends (margin (page.indent + 1))).trans appends
    rw [printed, result_newLine settledDeeper]
    generalize result ((trees.map print).forM fun print => do (do word ","; newline; indentation); print)
      (result (print tree) (deeper.written (margin (page.indent + 1)))) = last at inside ⊢
    have outside : page.Appends { last with indent := last.indent - 1 } (margin (page.indent + 1) ++ text) :=
      ⟨inside.reversed, inside.size, by rw [inside.indent]; rfl, inside.settled.joined, inside.settled.places⟩
    have closed := outside.written (margin page.indent)
    rw [← outside.indent] at closed ⊢
    rw [result_newLine outside.settled]
    exact closed
  · have behindItems := spells_blanks (fun c member => (blank_margin page.indent c member).1) spells filledBehind
    have items := spells_append (spelled _ ⟨'\n', _, rfl, by decide⟩) behindItems
    have whole := spells_blanks (fun c member => (blank_margin (page.indent + 1) c member).1) items
      (List.append_ne_nil_of_left_ne_nil filled _)
    simp only [List.append_assoc]
    exact whole

/-- Nothing starts on a fresh page. -/
theorem Page.IsFresh.startsNothing
    (fresh : page.IsFresh) :
    (atStatementStart page || atArrowStart page) = false := by
  have other {place : Option Nat} (marked : ∀ n ∈ place, n ∈ page.places) : (place == some page.size) = false := by
    apply beq_eq_false_iff_ne.mpr
    rintro rfl
    exact absurd (fresh.places _ (marked _ rfl)) (Nat.lt_irrefl _)
  have statement : atStatementStart page = false := other fun n start => by
    rw [Option.mem_def] at start
    simp only [Page.places, start, Option.toList_some, List.mem_append, List.mem_singleton, true_or]
  have arrow : atArrowStart page = false := other fun n start => by
    rw [Option.mem_def] at start
    simp only [Page.places, start, Option.toList_some, List.mem_append, List.mem_singleton, true_or, or_true]
  rw [statement, arrow]
  rfl

/-- The properties of an object are printed between braces. -/
theorem appends_object
    (each : ∀ item ∈ tree :: trees, Writes reads (document item (.plain Level.lowest)) item)
    (fresh : page.IsFresh) :
    ∃ text, ∃ parts : List (List Token × Tree), parts.map Prod.snd = tree :: trees ∧
      (∀ part ∈ parts, reads part.1 part.2) ∧
      page.Appends (result (objectText ((tree :: trees).map fun item => (item, document item))) page) text ∧
      ∀ rest, Spells (.mark "\x7b" :: (commas (parts.map Prod.fst) ++ [Token.mark "\x7d"])) (text ++ rest) rest := by
  have opened : page.Appends (page.written ['\x7b']) ['\x7b'] := fresh.settled.appends _
  rw [objectText, result_get, fresh.startsNothing, result_wrap_false]
  cases trees with
  | nil =>
      obtain ⟨text, tokens, read, filled, appends, spelled⟩ :=
        each tree (List.mem_cons_self ..)
          (@Page.IsSettled.freshMark (page.written ['\x7b']) [' '] opened.settled (by decide) (by decide))
      refine ⟨['\x7b'] ++ [' '] ++ text ++ [' '] ++ ['\x7d'], [(tokens, tree)], rfl,
        List.forall_mem_singleton.mpr read, ?_, fun rest => ?_⟩
      · exact (((opened.written [' ']).trans appends).written [' ']).written ['\x7d']
      · have close := spells_space (spells_bracket '\x7d' (by decide) rest) (List.cons_ne_nil _ _)
        have item := spells_append (spelled _ ⟨' ', _, rfl, by decide⟩) close
        have inside := spells_space item (List.append_ne_nil_of_left_ne_nil filled _)
        have whole := spells_append (spells_bracket '\x7b' (by decide) _) inside
        simp only [List.append_assoc]
        exact whole
  | cons second trees =>
      obtain ⟨text, parts, found, read, appends, spells⟩ :=
        @appends_lines _ reads (fun item => document item (.plain Level.lowest)) tree (second :: trees) each
          opened.settled
      have prints : ((tree :: second :: trees).map fun item => (item, document item)).map Part.print =
          (tree :: second :: trees).map fun item => document item (.plain Level.lowest) := by
        rw [List.map_map]
        rfl
      refine ⟨['\x7b'] ++ text ++ ['\x7d'], parts, found, read, ?_, fun rest => ?_⟩
      · rw [← prints] at appends
        exact (opened.trans appends).written ['\x7d']
      · have inside := spells (spells_bracket '\x7d' (by decide) rest) (List.cons_ne_nil _ _)
        have whole := spells_append (spells_bracket '\x7b' (by decide) _) inside
        simp only [List.append_assoc]
        exact whole

/-- An object is printed as an expression if its properties are printed as properties. -/
theorem writes_object
    {properties : List Tree}
    (each : ∀ item ∈ properties,
      Writes (IsItem objectItem typed flags) (document item (.plain Level.lowest)) item)
    (filled : properties ≠ [])
    (level : Nat) :
    Writes (IsExpression typed flags) (document (.made .object properties) (.plain level))
      (.made .object properties) := by
  obtain ⟨first, more, rfl⟩ := List.exists_cons_of_ne_nil filled
  intro page fresh
  obtain ⟨text, parts, found, read, appends, spells⟩ := appends_object each fresh
  have print : document (.made .object (first :: more)) (.plain level) =
      objectText ((first :: more).zip ((first :: more).map document)) := by
    rw [Tree.made, document_node]
    rfl
  rw [print, zip_document, ← found]
  refine ⟨text, _, isExpression_object read, List.cons_ne_nil _ _, ?_, fun rest _ => spells rest⟩
  rw [found]
  exact appends

end Printer

end LiveComponent
