import LiveComponent.Proofs.GuardedStatements
import LiveComponent.Proofs.OperandTexts
import LiveComponent.Proofs.StatementReading
import LiveComponent.Script.Comparison

namespace LiveComponent

/-!
# How guards are read

A guard is pasted together from the texts of the call and its operands.  Where these are operands of a
conjunction, it is read as the statement it is meant to be, wherever a statement is wanted, and the parser
goes on behind it as before.
-/

namespace Teardown

open Lexer Parser

/-! ## Guards as tokens -/

variable {test call parent child : Text} {tokens testTokens callTokens parentTokens childTokens : List Token}

/-- A call in braces, from behind the opening one on. -/
theorem spells_body
    (called : Spelling call callTokens)
    (filled : callTokens ≠ [])
    (rest : Text) :
    Spells (.mark "\x7b" :: (callTokens ++ [Token.mark ";", .mark "\x7d"]))
      ("\x7b ".toList ++ (call ++ ("; \x7d".toList ++ rest))) rest := by
  have brace := spells_space (spells_bracket '\x7d' (by decide) rest) (List.cons_ne_nil _ _)
  have ended := spells_append (spells_bracket ';' (by decide) _) brace
  have inside := spells_append (called _ ⟨';', _, rfl, by decide⟩) ended
  exact spells_append (spells_bracket '\x7b' (by decide) _)
    (spells_space inside (List.append_ne_nil_of_left_ne_nil filled _))

theorem underTest_append
    (test call rest : Text) :
    underTest test call ++ rest =
      "if (".toList ++ (test ++ (") \x7b ".toList ++ (call ++ ("; \x7d".toList ++ rest)))) := by
  have assoc (a b c d e : Text) : a ++ b ++ c ++ d ++ e ++ rest = a ++ (b ++ (c ++ (d ++ (e ++ rest)))) := by
    simp only [List.append_assoc]
  exact assoc "if (".toList test ") \x7b ".toList call "; \x7d".toList

theorem spells_underTest
    (tested : Spelling test testTokens)
    (called : Spelling call callTokens)
    (filled : callTokens ≠ [])
    (rest : Text) :
    Spells
      (.word "if".toList false :: .mark "(" ::
        (testTokens ++ Token.mark ")" :: .mark "\x7b" :: (callTokens ++ [Token.mark ";", .mark "\x7d"])))
      (underTest test call ++ rest) rest := by
  rw [underTest_append]
  have body := spells_space (spells_body called filled rest) (List.cons_ne_nil _ _)
  have head := spells_append (spells_bracket ')' (by decide) _) body
  have choice := spells_append (tested _ ⟨')', _, rfl, by decide⟩) head
  have opened := spells_append (spells_bracket '(' (by decide) _) choice
  have whole := spells_append (@spelling_name "if".toList (by decide) _ ⟨' ', _, rfl, by decide⟩)
    (spells_space opened (List.cons_ne_nil _ _))
  exact whole

/-- The tokens of the call that reports what a call throws. -/
def warning : List Token :=
  [.word "console".toList false, .mark ".", .word "warn".toList false, .mark "(",
    .string "dispose failed".toList false, .mark ",", .word "disposeError".toList false, .mark ")"]

/-- The call that reports what a call throws. -/
def report : Tree :=
  .made (.call false false)
    [.made (.member false)
        [.made (.identifier "console".toList) [], .made (.name "warn".toList) []], .absent,
      .made (.stringLiteral "dispose failed".toList false) [], .made (.identifier "disposeError".toList) []]

theorem operand_warning :
    Operand warning report := by
  have name (text : Text) (free : (Token.word text false).atom? = some (.identifier text)) :=
    Operand.atom free
  have callee := (name "console".toList (by decide +kernel)).member "warn".toList
  have each : ∀ argument ∈
      [([Token.string "dispose failed".toList false],
          Tree.made (.stringLiteral "dispose failed".toList false) []),
        ([Token.word "disposeError".toList false], Tree.made (.identifier "disposeError".toList) [])],
      Operand argument.1 argument.2 :=
    List.forall_mem_cons.mpr ⟨Operand.atom rfl, List.forall_mem_cons.mpr
      ⟨name "disposeError".toList (by decide +kernel), nofun⟩⟩
  exact Operand.call callee each

/-- The handler that reports what a call throws. -/
def handler : Tree :=
  .made .catchClause
    [.made (.parameter [] false) [.absent, .made (.binding "disposeError".toList) [], .absent, .absent],
      .made .block [.made .expressionStatement [report]]]

theorem spelling_warning :
    Spelling "console.warn(\"dispose failed\", disposeError)".toList warning := by
  intro rest closes
  have last := spells_append (@spelling_name "disposeError".toList (by decide) _ ⟨')', rest, rfl, by decide⟩)
    (spells_bracket ')' (by decide) rest)
  have comma := spells_append (spells_bracket ',' (by decide) _) (spells_space last (List.cons_ne_nil _ _))
  have string := spells_append (@spells_string "dispose failed".toList (by decide) _) comma
  have opened := spells_append (spells_bracket '(' (by decide) _) string
  have callee := @spelling_member _ "warn".toList _ (@spelling_name "console".toList (by decide)) (by decide)
  exact spells_append (callee _ ⟨'(', _, rfl, by decide⟩) opened

/-- The tokens behind the call in a `try` statement. -/
def handling : List Token :=
  .word "catch".toList false :: .mark "(" :: .word "disposeError".toList false :: .mark ")" ::
    .mark "\x7b" :: (warning ++ [Token.mark ";", .mark "\x7d"])

theorem spells_handling
    (rest : Text) :
    Spells handling
      ("catch (disposeError) ".toList ++ ("\x7b ".toList ++
        ("console.warn(\"dispose failed\", disposeError)".toList ++ ("; \x7d".toList ++ rest)))) rest := by
  have body := spells_space (spells_body spelling_warning (List.cons_ne_nil _ _) rest) (List.cons_ne_nil _ _)
  have closed := spells_append (spells_bracket ')' (by decide) _) body
  have named := spells_append (@spelling_name "disposeError".toList (by decide) _ ⟨')', _, rfl, by decide⟩) closed
  have opened := spells_append (spells_bracket '(' (by decide) _) named
  exact spells_append (@spelling_name "catch".toList (by decide) _ ⟨' ', _, rfl, by decide⟩)
    (spells_space opened (List.cons_ne_nil _ _))

theorem reported_append
    (call rest : Text) :
    reported call ++ rest =
      "try \x7b ".toList ++ (call ++ ("; \x7d".toList ++ ' ' :: ("catch (disposeError) ".toList ++
        ("\x7b ".toList ++ ("console.warn(\"dispose failed\", disposeError)".toList ++
          ("; \x7d".toList ++ rest)))))) := by
  have behind :
      "; \x7d catch (disposeError) \x7b console.warn(\"dispose failed\", disposeError); \x7d".toList =
        "; \x7d".toList ++ ' ' :: ("catch (disposeError) ".toList ++ ("\x7b ".toList ++
          ("console.warn(\"dispose failed\", disposeError)".toList ++ "; \x7d".toList))) := by
    decide +kernel
  refine (congrArg ("try \x7b ".toList ++ call ++ · ++ rest) behind).trans ?_
  simp only [List.append_assoc, List.cons_append]

theorem spells_reported
    (called : Spelling call callTokens)
    (filled : callTokens ≠ [])
    (rest : Text) :
    Spells
      (.word "try".toList false :: .mark "\x7b" :: (callTokens ++ [Token.mark ";", .mark "\x7d"] ++ handling))
      (reported call ++ rest) rest := by
  rw [reported_append]
  have handler := spells_space (spells_handling rest) (List.cons_ne_nil _ _)
  have both := spells_append (spells_body called filled _) handler
  have whole := spells_append (@spelling_name "try".toList (by decide) _ ⟨' ', _, rfl, by decide⟩)
    (spells_space both (List.cons_ne_nil _ _))
  exact whole

/-- The tokens of the call of a method with one argument. -/
def methodCall (object : List Token) (name : Text) (argument : List Token) : List Token :=
  object ++ [Token.mark ".", .word name false] ++ Token.mark "(" :: (argument ++ [Token.mark ")"])

/-- The call of a method with one argument is spelled by the texts of its parts. -/
theorem spelling_methodCall
    (object : Spelling parent parentTokens)
    {name : Text}
    (isName : isIdentifierName name = true)
    (argument : Spelling child childTokens) :
    Spelling (parent ++ ('.' :: name ++ '(' :: (child ++ [')']))) (methodCall parentTokens name childTokens) := by
  intro rest closes
  have last := spells_append (argument _ ⟨')', rest, rfl, by decide⟩) (spells_bracket ')' (by decide) rest)
  have opened := spells_append (spells_bracket '(' (by decide) _) last
  have whole := spells_append (spelling_member object isName _ ⟨'(', _, rfl, by decide⟩) opened
  have assoc :
      parent ++ ('.' :: name ++ '(' :: (child ++ [')'])) ++ rest =
        parent ++ '.' :: name ++ ([] ++ '(' :: (child ++ ([] ++ ')' :: rest))) := by
    simp
  rw [assoc]
  exact whole

/-- Two operands are spelled with a conjunction between. -/
theorem spelling_and
    (first : Spelling parent parentTokens)
    (second : Spelling child childTokens)
    (filled : childTokens ≠ []) :
    Spelling (parent ++ (" && ".toList ++ child)) (parentTokens ++ Token.mark "&&" :: childTokens) := by
  intro rest closes
  have behind := spells_append (spells_and _) (spells_space (second rest closes) filled)
  have whole := spells_append (first _ ⟨' ', _, rfl, by decide⟩) (spells_space behind (List.cons_ne_nil _ _))
  rw [List.append_assoc, List.append_assoc]
  exact whole

theorem childTest_eq
    (parent child : Text) :
    childTest parent child =
      parent ++ (" && ".toList ++ (child ++ (" && ".toList ++
        (parent ++ (".contains(".toList ++ (child ++ ")".toList)))))) := by
  simp only [childTest, List.append_assoc]

theorem elementTest_eq
    (owner : Text) :
    elementTest owner = owner ++ (" && ".toList ++ (owner ++ ".domElement".toList)) := by
  simp only [elementTest, List.append_assoc]

theorem spelling_childTest
    (object : Spelling parent parentTokens)
    (argument : Spelling child childTokens)
    (filled : childTokens ≠ [])
    (first second : Tree) :
    Spelling (childTest parent child)
      (parentTokens ++
        conjuncts [(childTokens, first), (methodCall parentTokens "contains".toList childTokens, second)]) := by
  have contains := @spelling_methodCall _ _ _ _ object "contains".toList (by decide) argument
  have further : methodCall parentTokens "contains".toList childTokens ≠ [] :=
    List.append_ne_nil_of_right_ne_nil _ (List.cons_ne_nil _ _)
  have last := spelling_and argument contains further
  have whole := spelling_and object last (List.append_ne_nil_of_left_ne_nil filled _)
  rw [childTest_eq]
  simp only [conjuncts, List.flatMap_cons, List.flatMap_nil, List.append_nil]
  exact whole

theorem spelling_elementTest
    (object : Spelling parent parentTokens)
    (tree : Tree) :
    Spelling (elementTest parent)
      (parentTokens ++
        conjuncts [(parentTokens ++ [Token.mark ".", .word "domElement".toList false], tree)]) := by
  have element := @spelling_member _ "domElement".toList _ object (by decide)
  have whole := spelling_and object element (List.append_ne_nil_of_right_ne_nil _ (List.cons_ne_nil _ _))
  rw [elementTest_eq]
  simp only [conjuncts, List.flatMap_cons, List.flatMap_nil, List.append_nil]
  exact whole

/-! ## Guards as statements -/

section

variable {parts : List Tree} {first : Tree} {more : List (List Token × Tree)} {state after : State}

/-- A call that stands in braces with its semicolon is read as a block. -/
theorem body_eq
    {middle : State}
    {found : Tree}
    {kind : Kind}
    {depth : Nat}
    (opens : state.token = .mark "\x7b")
    (atom : state.next.token.atom? = some kind)
    (read : reach depth .expression state.next = some (found, middle))
    (bare : found.bare = .made (.call false false) parts)
    (closes : Runs [.mark ";", .mark "\x7d"] middle after)
    (large : 1 < state.budget) :
    reach (depth + 2) .block state =
      some (.node .block ⟨state.start, after.lastStop⟩
        [.node .expressionStatement ⟨state.next.start, middle.next.lastStop⟩ [found]], after) := by
  obtain ⟨semicolon, brace, rfl⟩ := closes
  have statement := callStatement_eq atom read bare semicolon false
  exact block_eq opens (Token.isMark_of_atom? atom _) statement brace large

/-- A call with its semicolon is read as a block if it stands in braces. -/
theorem reads_body
    (operand : Operand callTokens (.made (.call false false) parts))
    (depth : Nat)
    (deep : 4 * callTokens.length ≤ depth)
    (large : callTokens.length < state.budget)
    (runs : Runs (.mark "\x7b" :: (callTokens ++ [Token.mark ";", .mark "\x7d"])) state after) :
    ∃ span inner, reach (depth + 8) .block state = some (.node .block span inner, after) ∧
      (Tree.node .block span inner).bare =
        .made .block [.made .expressionStatement [.made (.call false false) parts]] := by
  obtain ⟨opens, behind⟩ := runs
  obtain ⟨middle, inner, closes⟩ := runs_append.mp behind
  have chained := operand.chained
  obtain ⟨kind, atom⟩ := chained.atom_of_runs inner
  have filled := List.length_pos_iff.mpr operand.filled
  have semicolon : middle.token = .mark ";" := closes.1
  have call : callTokens ++ conjuncts [] = callTokens := List.append_nil _
  obtain ⟨found, read, bare, -⟩ := @Chained.expression_eq state.next _ _ _ chained [] (List.forall_mem_nil _) depth
    (by rw [call]; exact deep) (by rw [call]; exact large) (by rw [call]; exact inner) (by rw [semicolon]; decide)
    (by rw [semicolon]; rfl)
  refine ⟨_, _, body_eq opens atom read bare closes (by omega), ?_⟩
  rw [Tree.bare_node, List.map_singleton, Tree.bare_node, List.map_singleton, bare]
  rfl

/-- The guard with a test, behind which `else` may go on. -/
theorem reads_underTest
    (firstOperand : Operand testTokens first)
    (each : ∀ other ∈ more, Operand other.1 other.2)
    (operand : Operand callTokens (.made (.call false false) parts))
    (depth : Nat)
    (deep : 4 * ((testTokens ++ conjuncts more).length + callTokens.length) ≤ depth)
    (large : (testTokens ++ conjuncts more).length + callTokens.length < state.budget)
    (runs :
      Runs
        (.word "if".toList false :: .mark "(" ::
          ((testTokens ++ conjuncts more) ++ Token.mark ")" :: .mark "\x7b" ::
            (callTokens ++ [Token.mark ";", .mark "\x7d"])))
        state after)
    (single : Bool) :
    (after.token.isWord "else" = false →
      Reads (depth + 10) (.statement single) state after
        (.made .conditionalStatement
          [conjunction first more,
            .made .block [.made .expressionStatement [.made (.call false false) parts]], .absent])) ∧
      ∀ last alternate, after.token = .word "else".toList false →
        Reads (depth + 9) (.statement true) after.next last alternate →
          Reads (depth + 10) (.statement single) state last
            (.made .conditionalStatement
              [conjunction first more,
                .made .block [.made .expressionStatement [.made (.call false false) parts]], alternate]) := by
  obtain ⟨word, opens, behind⟩ := runs
  obtain ⟨middle, inner, closes, body⟩ := runs_append.mp behind
  have budget : middle.budget = state.budget := inner.kept.2.1
  obtain ⟨test, tested, testBare, -⟩ := firstOperand.chained.expression_eq
    (fun other member => (each other member).chained) (depth + 3) (by omega) (by simp only [next_budget]; omega) inner
    (by rw [closes]; decide) (by rw [closes]; rfl)
  obtain ⟨span, block, read, bare⟩ := reads_body operand depth (by omega) (by rw [next_budget]; omega) body
  have run := blockStatement_eq body.1 read true
  obtain ⟨alone, further⟩ := conditionalStatement_eq word opens tested closes run single
  have meant {last : State} {found alternate : Tree} (same : found.bare = alternate) :
      (Tree.node .conditionalStatement ⟨state.start, last.lastStop⟩ [test, .node .block span block, found]).bare =
        .made .conditionalStatement
          [conjunction first more,
            .made .block [.made .expressionStatement [.made (.call false false) parts]], alternate] := by
    rw [Tree.bare_node, List.map_cons, List.map_cons, List.map_singleton, testBare, bare, same]
    rfl
  constructor
  · exact fun other => ⟨_, alone other, @meant after _ _ rfl⟩
  · rintro last alternate isElse ⟨found, read, same⟩
    exact ⟨_, further last found isElse read, @meant last _ _ same⟩

/-- The guard that reports what the call throws. -/
theorem reads_reported
    (operand : Operand callTokens (.made (.call false false) parts))
    (depth : Nat)
    (deep : 4 * (callTokens.length + warning.length) ≤ depth)
    (large : callTokens.length + warning.length < state.budget)
    (runs :
      Runs (.word "try".toList false :: .mark "\x7b" ::
        (callTokens ++ [Token.mark ";", .mark "\x7d"] ++ handling)) state after)
    (noFinally : after.token.isWord "finally" = false)
    (single : Bool) :
    Reads (depth + 9) (.statement single) state after
      (.made .tryStatement
        [.made .block [.made .expressionStatement [.made (.call false false) parts]], handler, .absent]) := by
  obtain ⟨word, block⟩ := runs
  obtain ⟨middle, body, handled⟩ := runs_append.mp (show
    Runs ((.mark "\x7b" :: (callTokens ++ [Token.mark ";", .mark "\x7d"])) ++ handling) _ _ from block)
  obtain ⟨last, head, caught⟩ := runs_append.mp (show
    Runs ([Token.word "catch".toList false, .mark "(", .word "disposeError".toList false, .mark ")"] ++
      Token.mark "\x7b" :: (warning ++ [Token.mark ";", .mark "\x7d"])) _ _ from handled)
  have budget : last.budget = state.budget := head.kept.2.1.trans body.kept.2.1
  obtain ⟨span, inner, run, bare⟩ := reads_body operand depth (by omega) (by rw [next_budget]; omega) body
  obtain ⟨place, report, handlerBlock, meant⟩ := reads_body operand_warning depth (by omega) (by omega) caught
  obtain ⟨clause, read, clauseBare⟩ := tryStatement_eq word run head (by decide) handlerBlock noFinally single
  refine ⟨_, read, ?_⟩
  rw [Tree.bare_node, List.map_cons, List.map_cons, List.map_singleton, bare, clauseBare, meant]
  rfl

end

/-! ## Teardown calls -/

/-- A teardown call with the operands that its guard repeats. -/
inductive Call where
  | removal (parent child : Tree)
  | unlistening (owner : Tree)
  | disposal

/-- The teardown call that an expression is. -/
def call? : Tree → Option Call
  | .node (.call false _) _
      (.node (.member false) _ [object, .node (.name name) _ _] :: _ :: arguments) =>
    if name = "removeChild".toList then
      match arguments with
      | [child] => some (.removal object child)
      | _ => none
    else if name = "removeEventListener".toList then
      (elementOwner? object).map .unlistening
    else if name = "dispose".toList ∧ arguments = [] then
      some .disposal
    else
      none
  | _ => none

namespace Call

/-- The operands that the guard repeats. -/
def repeated : Call → List Tree
  | removal parent child => [parent, child]
  | unlistening owner => [owner]
  | disposal => []

/-- The test under which the call is put. -/
def test? : Call → Option Tree
  | removal parent child =>
    some (.made (.logical "&&".toList)
      [.made (.logical "&&".toList) [parent.bare, child.bare],
        .made (.call false false)
          [.made (.member false) [parent.bare, .made (.name "contains".toList) []], .absent, child.bare]])
  | unlistening owner =>
    some (.made (.logical "&&".toList)
      [owner.bare, .made (.member false) [owner.bare, .made (.name "domElement".toList) []]])
  | disposal => none

/-- A block with the expression. -/
def body (expression : Tree) : Tree :=
  .made .block [.made .expressionStatement [expression.bare]]

/-- The statement that guards a call. -/
def guard (call : Call) (expression : Tree) : Tree :=
  match call.test? with
  | some test => .made .conditionalStatement [test, body expression, .absent]
  | none => .made .tryStatement [body expression, handler, .absent]

/-- The text of the statement that guards a call. -/
def text (source : Text) (expression : Tree) : Call → Text
  | removal parent child => underTest (childTest (textOf source parent) (textOf source child)) (textOf source expression)
  | unlistening owner => underTest (elementTest (textOf source owner)) (textOf source expression)
  | disposal => reported (textOf source expression)

end Call

/-- What is guarded is a teardown call, and the guard is pasted together from the texts of its operands. -/
theorem call?_of_guarded?
    {source text : Text}
    {around : Surroundings}
    {expression : Tree}
    (guarded : guarded? source around expression = some text) :
    ∃ call, call? expression = some call ∧ call.text source expression = text := by
  unfold guarded? at guarded
  split at guarded
  next object name _ _ _ arguments =>
    split at guarded
    next removes =>
      split at guarded
      next child =>
        dsimp only at guarded
        split at guarded
        · cases guarded
        · exact ⟨.removal object child, if_pos removes, Option.some.inj guarded⟩
      next =>
        cases guarded
    next keeps =>
      split at guarded
      next unlistens =>
        split at guarded
        next owner owned =>
          dsimp only at guarded
          split at guarded
          · cases guarded
          · refine ⟨.unlistening owner, (if_neg keeps).trans ((if_pos unlistens).trans ?_),
              Option.some.inj guarded⟩
            rw [owned]
            rfl
        next =>
          cases guarded
      next listens =>
        split at guarded
        next disposes =>
          split at guarded
          next free =>
            rw [Bool.and_eq_true, List.isEmpty_iff] at free
            exact ⟨.disposal,
              (if_neg keeps).trans ((if_neg listens).trans (if_pos ⟨disposes, free.1⟩)),
              Option.some.inj guarded⟩
          next =>
            cases guarded
        next =>
          cases guarded
  next =>
    cases guarded

/-! ## Guards in place -/

/-- The tree is a name or a literal with members and calls behind it, up to parentheses, and its text spells it
by itself. -/
def IsOperand (source : Text) (tree : Tree) : Prop :=
  ∃ tokens, Operand tokens tree.bare ∧ Spelling (textOf source tree) tokens

/-- Wherever a statement is wanted and the text stands, the statement is read, and the parser goes on behind it as
before.  An `else` behind a choice belongs to it.  The depth and the rounds that this takes grow with the text, as those
of a whole source do. -/
def IsReadAs (text : Text) (statement : Tree) : Prop :=
  ∀ depth state rest single,
    4 * text.length + 9 ≤ depth → text.length < state.budget → state.StandsAt (text ++ rest) →
      ∃ after, Passes state after rest ∧
        (after.token.isWord "else" = false → after.token.isWord "finally" = false →
          Reads (depth + 1) (.statement single) state after statement) ∧
        ∀ test body last alternate,
          statement = .made .conditionalStatement [test, body, .absent] →
          after.token = .word "else".toList false →
          Reads depth (.statement true) after.next last alternate →
            Reads (depth + 1) (.statement single) state last
              (.made .conditionalStatement [test, body, alternate])

section

variable {test call : Text} {testTokens callTokens : List Token} {first : Tree}
  {more : List (List Token × Tree)} {parts : List Tree}

/-- A guard with a test takes at least as many characters as its operands have tokens. -/
theorem length_underTest
    (tested : Spelling test (testTokens ++ conjuncts more))
    (firstOperand : Operand testTokens first)
    (each : ∀ other ∈ more, Operand other.1 other.2)
    (called : Spelling call callTokens)
    (operand : Operand callTokens (.made (.call false false) parts)) :
    (testTokens ++ conjuncts more).length + callTokens.length < (underTest test call).length := by
  have joined : ∀ token ∈ conjuncts more, token ≠ .eof :=
    List.forall_mem_flatMap.mpr fun other member => List.forall_mem_cons.mpr ⟨nofun, (each other member).ne_eof⟩
  have length := (spells_underTest tested called operand.filled []).length_le (by
    simp only [List.forall_mem_cons, List.forall_mem_append]
    exact ⟨nofun, nofun, ⟨firstOperand.ne_eof, joined⟩, nofun, nofun, operand.ne_eof, nofun, nofun, nofun⟩)
  rw [List.append_nil] at length
  simp only [List.length_cons, List.length_append] at length ⊢
  omega

theorem length_reported
    (called : Spelling call callTokens)
    (operand : Operand callTokens (.made (.call false false) parts)) :
    callTokens.length + warning.length < (reported call).length := by
  have handled : ∀ token ∈ handling, token ≠ .eof := by
    decide
  have length := (spells_reported called operand.filled []).length_le (by
    simp only [List.forall_mem_cons, List.forall_mem_append]
    exact ⟨nofun, nofun, ⟨operand.ne_eof, nofun, nofun, nofun⟩, handled⟩)
  rw [List.append_nil] at length
  simp only [handling, List.length_cons, List.length_append] at length ⊢
  omega

theorem isReadAs_underTest
    (tested : Spelling test (testTokens ++ conjuncts more))
    (firstOperand : Operand testTokens first)
    (each : ∀ other ∈ more, Operand other.1 other.2)
    (called : Spelling call callTokens)
    (operand : Operand callTokens (.made (.call false false) parts)) :
    IsReadAs (underTest test call)
      (.made .conditionalStatement
        [conjunction first more,
          .made .block [.made .expressionStatement [.made (.call false false) parts]], .absent]) := by
  intro depth state rest single deep large stands
  obtain ⟨shallow, rfl⟩ : ∃ shallow, depth = shallow + 9 := ⟨depth - 9, by omega⟩
  have short := length_underTest tested firstOperand each called operand
  obtain ⟨after, runs, passes⟩ :=
    runs_of_spells (spells_underTest tested called operand.filled rest) (List.cons_ne_nil _ _) stands
  obtain ⟨alone, further⟩ :=
    reads_underTest firstOperand each operand shallow (by omega) (by omega) runs single
  refine ⟨after, passes, fun noElse _ => alone noElse, fun _ _ last alternate same isElse read => ?_⟩
  obtain ⟨rfl, rfl, -⟩ := (List.cons.inj (Tree.node.inj same).2.2).imp_right List.cons.inj
  exact further last alternate isElse read

theorem isReadAs_reported
    (called : Spelling call callTokens)
    (operand : Operand callTokens (.made (.call false false) parts)) :
    IsReadAs (reported call)
      (.made .tryStatement
        [.made .block [.made .expressionStatement [.made (.call false false) parts]], handler, .absent]) := by
  intro depth state rest single deep large stands
  obtain ⟨shallow, rfl⟩ : ∃ shallow, depth = shallow + 8 := ⟨depth - 8, by omega⟩
  have short := length_reported called operand
  obtain ⟨after, runs, passes⟩ :=
    runs_of_spells (spells_reported called operand.filled rest) (List.cons_ne_nil _ _) stands
  refine ⟨after, passes, fun _ noFinally =>
    reads_reported operand shallow (by omega) (by omega) runs noFinally single, fun _ _ _ _ same => ?_⟩
  cases (Tree.node.inj same).1

end

/-- The guard of a call between operands is read as the statement it is meant to be. -/
theorem Call.isReadAs_guard
    {source : Text}
    {expression : Tree}
    {call : Call}
    {parts : List Tree}
    (bare : expression.bare = .made (.call false false) parts)
    (operand : IsOperand source expression)
    (repeated : ∀ part ∈ call.repeated, IsOperand source part) :
    IsReadAs (call.text source expression) (call.guard expression) := by
  obtain ⟨callTokens, called, spelled⟩ := operand
  have body : Call.body expression =
      .made .block [.made .expressionStatement [.made (.call false false) parts]] := by
    rw [Call.body, bare]
  rw [bare] at called
  rw [Call.guard, body]
  cases call with
  | removal parent child =>
      rw [Call.repeated, List.forall_mem_cons, List.forall_mem_singleton] at repeated
      obtain ⟨⟨parentTokens, parentOperand, parentText⟩, childTokens, childOperand, childText⟩ := repeated
      have contains := @Operand.call _ _ [(childTokens, child.bare)] (parentOperand.member "contains".toList)
        (List.forall_mem_cons.mpr ⟨childOperand, nofun⟩)
      exact isReadAs_underTest (spelling_childTest parentText childText childOperand.filled child.bare _) parentOperand
        (List.forall_mem_cons.mpr ⟨childOperand, List.forall_mem_cons.mpr ⟨contains, nofun⟩⟩) spelled called
  | unlistening owner =>
      rw [Call.repeated, List.forall_mem_singleton] at repeated
      obtain ⟨ownerTokens, ownerOperand, ownerText⟩ := repeated
      exact isReadAs_underTest (spelling_elementTest ownerText _) ownerOperand
        (List.forall_mem_cons.mpr ⟨ownerOperand.member "domElement".toList, nofun⟩) spelled called
  | disposal =>
      exact isReadAs_reported spelled called

theorem bare_of_call?
    {expression : Tree}
    {call : Call}
    (isCall : call? expression = some call) :
    ∃ parts, expression.bare = .made (.call false false) parts := by
  unfold call? at isCall
  split at isCall
  · exact ⟨_, Tree.bare_node ..⟩
  · cases isCall

/-- The pass puts guards over teardown calls that are statements, and over nothing else.  If what a guard repeats
are operands, then it is read as the statement it is meant to be, and the parser goes on behind it as before. -/
theorem guards_stand_for_statements
    {source : Text}
    {tree : Tree}
    (parsed : parse? (isTyped source) source = some tree) :
    (guard source).1 = Text.splice (edits source tree) source ∧
      (∀ edit ∈ edits source tree,
        ∃ around span expression call,
          Reaches source .top tree around (.node .expressionStatement span [expression]) ∧
            call? expression = some call ∧
            edit = ⟨span.start, span.stop, call.text source expression⟩) ∧
      ∀ expression call,
        call? expression = some call →
        (∀ part ∈ expression :: call.repeated, IsOperand source part) →
          IsReadAs (call.text source expression) (call.guard expression) := by
  refine ⟨guard_eq_splice parsed, fun edit member => ?_, fun expression call isCall operands => ?_⟩
  · obtain ⟨around, statement, reached, guarded⟩ := mem_editsWithin_iff.mp member
    unfold edit? at guarded
    split at guarded
    next span expression =>
      obtain ⟨text, made, same⟩ := Option.map_eq_some_iff.mp guarded
      obtain ⟨call, isCall, isText⟩ := call?_of_guarded? made
      exact ⟨around, span, expression, call, reached, isCall, by rw [← same, isText]⟩
    next =>
      cases guarded
  · obtain ⟨parts, bare⟩ := bare_of_call? isCall
    rw [List.forall_mem_cons] at operands
    exact Call.isReadAs_guard bare operands.1 operands.2

/-- The removal of a child under a test without braces: its guard is read as a test, and takes the `else`. -/
theorem guards_stand_for_statements_of_removal :
    ∃ source tree edit expression call,
      parse? (isTyped source) source = some tree ∧ edits source tree = [edit] ∧
        call? expression = some call ∧ edit.text = call.text source expression ∧
        (∀ part ∈ expression :: call.repeated, IsOperand source part) ∧
        IsReadAs (call.text source expression) (call.guard expression) := by
  let source := "if (a) list.removeChild(item); else b();".toList
  let name (text : String) (start stop : Nat) := Tree.node (.identifier text.toList) ⟨start, stop⟩ []
  let list := name "list" 7 11
  let item := name "item" 24 28
  let expression := Tree.node (.call false false) ⟨7, 29⟩
    [.node (.member false) ⟨7, 23⟩ [list, .node (.name "removeChild".toList) ⟨12, 23⟩ []], .absent, item]
  let edit : Edit := ⟨7, 30, (Call.removal list item).text source expression⟩
  have found : (parse? (isTyped source) source).map (edits source) = some [edit] := by decide +kernel
  obtain ⟨tree, parsed, edits⟩ := Option.map_eq_some_iff.mp found
  have listed : Operand [.word "list".toList false] list.bare :=
    @Operand.atom (.word "list".toList false) (.identifier "list".toList) (by decide)
  have itemized : Operand [.word "item".toList false] item.bare :=
    @Operand.atom (.word "item".toList false) (.identifier "item".toList) (by decide)
  have removed := @Operand.call _ _ [([.word "item".toList false], item.bare)]
    (listed.member "removeChild".toList) (List.forall_mem_cons.mpr ⟨itemized, nofun⟩)
  have listText := @spelling_name "list".toList (by decide)
  have itemText := @spelling_name "item".toList (by decide)
  have text := @spelling_methodCall _ _ _ _ listText "removeChild".toList (by decide) itemText
  have operands : ∀ part ∈ [expression, list, item], IsOperand source part := by
    rw [List.forall_mem_cons, List.forall_mem_cons, List.forall_mem_singleton]
    refine ⟨⟨_, removed, ?_⟩, ⟨_, listed, ?_⟩, _, itemized, ?_⟩
    · exact Eq.mpr (congrArg (Spelling · _) (by decide +kernel)) text
    · exact Eq.mpr (congrArg (Spelling · _) (by decide +kernel)) listText
    · exact Eq.mpr (congrArg (Spelling · _) (by decide +kernel)) itemText
  have isCall : call? expression = some (.removal list item) := rfl
  obtain ⟨-, -, reads⟩ := guards_stand_for_statements parsed
  exact ⟨source, tree, edit, expression, _, parsed, edits, isCall, rfl, operands, reads _ _ isCall operands⟩

/-- The guard that takes the place of a statement. -/
def guard? (source : Text) (around : Surroundings) (tree : Tree) : Option Tree := do
  let _ ← edit? source around tree
  let expression ← tree.children.head?
  let call ← call? expression
  return call.guard expression

/-- A tree in which guards have taken the place of the teardown calls. -/
def guardedTree (source : Text) (tree : Tree) : Tree :=
  tree.fold
    (fun tree parts around =>
      (guard? source around tree).getD
        (.bareNode tree.kind (parts.mapIdx fun place part => part (around.inside source tree place))))
    Surroundings.top

/-- An operand of a looser operator comes apart in the test, and the module stays one. -/
theorem guard_read_apart :
    ¬∀ source tree guarded,
      parse? (isTyped source) source = some tree →
      parse? (isTyped (guard source).1) (guard source).1 = some guarded →
        guarded.bare = guardedTree source tree := by
  intro kept
  let source := "p.removeChild(a || b);".toList
  obtain ⟨tree, parsed⟩ : ∃ tree, parse? (isTyped source) source = some tree :=
    Option.isSome_iff_exists.mp (by decide +kernel)
  obtain ⟨guarded, read⟩ : ∃ guarded, parse? (isTyped (guard source).1) (guard source).1 = some guarded :=
    Option.isSome_iff_exists.mp (by decide +kernel)
  have same := kept source tree guarded parsed read
  have differs :
      (parse? (isTyped (guard source).1) (guard source).1).map Tree.bare ≠
        (parse? (isTyped source) source).map (guardedTree source) := by
    decide +kernel
  rw [parsed, read, Option.map_some, Option.map_some, same] at differs
  exact differs rfl

end Teardown

end LiveComponent
