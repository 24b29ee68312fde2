import LiveComponent.Proofs.OperandReading

namespace LiveComponent

/-!
# How statements are read

Calls, blocks, choices and `try` statements are read part by part.  Each lemma takes what is read of the parts and
says where the parser is behind the statement.
-/

namespace Parser

variable {goals : Goal → Step Tree} {state middle last after : State} {kind : Kind} {tokens : List Token} {tree : Tree}

/-! ## Statements -/

/-- A statement that starts with an expression on its own is an expression. -/
theorem plainStatement_of_atom?
    (atom : state.token.atom? = some kind)
    (single : Bool) :
    plainStatement single goals state = expressionStatement goals state := by
  have noType : ["interface", "type", "module", "namespace", "declare", "enum", "private", "protected",
      "public", "abstract", "accessor", "static", "readonly", "global"].any state.token.isWord = false := by
    have leads : ∀ word ∈ ["interface", "type", "module", "namespace", "declare", "enum", "private",
        "protected", "public", "abstract", "accessor", "static", "readonly", "global"],
        (Token.word word.toList false).atom?.isNone = true := by
      decide
    exact List.any_eq_false.mpr fun word member =>
      Bool.eq_false_iff.mp (Token.isWord_of_atom? atom (leads word member))
  have declares : atTypeDeclaration goals state = some (false, state) := by
    rw [atTypeDeclaration, get_bind, noType, Bool.and_false]
    rfl
  have uses : usingDeclares false goals state = some (false, state) := by
    rw [usingDeclares, atWord_bind, Token.isWord_of_atom? atom (by decide)]
    rfl
  have awaits : awaitUsingDeclares goals state = some (false, state) := by
    rw [awaitUsingDeclares, atWord_bind, Token.isWord_of_atom? atom (by decide)]
    rfl
  rw [plainStatement, get_bind]
  refine of_choice fun choice chosen => ?_
  split at chosen
  next token =>
    rw [token] at atom
    cases atom
  next token =>
    rw [token] at atom
    cases atom
  next text escaped token =>
    have differs
        {word : String}
        (same : String.ofList text = word)
        (leads : (Token.word word.toList false).atom?.isNone = true) :
        False := by
      have other := Token.isWord_of_atom? atom leads
      rw [token, ← same] at other
      change (text == (String.ofList text).toList) = false at other
      rw [String.toList_ofList, beq_self_eq_true] at other
      cases other
    split at chosen
    all_goals first
      | exact (differs ‹_› (by decide)).elim
      | skip
    subst chosen
    rw [bind_of_some (atAsyncFunction_of_atom? atom)]
    change (atTypeDeclaration >>= _) _ _ = _
    rw [bind_of_some declares]
    change (usingDeclares false >>= _) _ _ = _
    rw [bind_of_some uses]
    change (awaitUsingDeclares >>= _) _ _ = _
    rw [bind_of_some awaits]
    rfl
  next =>
    subst chosen
    rfl

/-- A statement that is no import, no export and no class is read as such. -/
theorem statement_eq
    {found : Tree}
    (imports : state.token.isWord "import" = false)
    (exports : state.token.isWord "export" = false)
    (decorates : state.token.isMark "@" = false)
    {single : Bool}
    (read : plainStatement single goals state = some (found, after))
    (plain : markHarmlessStatement found = found) :
    statement single goals state = some (found, after) := by
  rw [statement, get_bind, imports, exports, decorates]
  change (plainStatement single >>= _) _ _ = _
  rw [bind_of_some read]
  change some (if state.notes.function then markHarmlessStatement found else found, after) = _
  rw [plain, ite_self]

/-- A call with its semicolon is a statement. -/
theorem callStatement_eq
    {depth : Nat}
    {found : Tree}
    {parts : List Tree}
    (atom : state.token.atom? = some kind)
    (read : reach depth .expression state = some (found, middle))
    (bare : found.bare = .made (.call false false) parts)
    (semicolon : middle.token = .mark ";")
    (single : Bool) :
    reach (depth + 1) (.statement single) state =
      some (.node .expressionStatement ⟨state.start, middle.next.lastStop⟩ [found], middle.next) := by
  have wanted : want .expression (reach depth) state = some (found, middle) := read
  have isMark : middle.token.isMark ";" = true := by
    rw [semicolon]
    rfl
  have canEnd : canEndStatement (reach depth) middle = some (true, middle) := by
    rw [canEndStatement, get_bind, isMark, Bool.or_true, Bool.true_or]
    rfl
  have ended : endStatement (reach depth) middle = some ((), middle.next) := by
    rw [endStatement, bind_of_some canEnd, if_pos rfl, bind_of_some (eat_eq_true isMark)]
    rfl
  have stated : expressionStatement (reach depth) state =
      some (.node .expressionStatement ⟨state.start, middle.next.lastStop⟩ [found], middle.next) := by
    rw [expressionStatement, here_bind, bind_of_some wanted]
    refine of_choice fun choice chosen => ?_
    split at chosen
    next text span children =>
      rw [Tree.bare_node] at bare
      cases bare
    next =>
      subst chosen
      rw [bind_of_some ended]
      rfl
  exact statement_eq (Token.isWord_of_atom? atom (by decide)) (Token.isWord_of_atom? atom (by decide))
    (Token.isMark_of_atom? atom "@") ((plainStatement_of_atom? atom single).trans stated) rfl

/-- A block with one statement is read where a block is wanted. -/
theorem block_eq
    {depth : Nat}
    {found : Tree}
    (opens : state.token = .mark "\x7b")
    (filled : state.next.token.isMark "\x7d" = false)
    (read : reach depth (.statement false) state.next = some (found, middle))
    (closes : middle.token = .mark "\x7d")
    (large : 1 < state.budget) :
    reach (depth + 1) .block state =
      some (.node .block ⟨state.start, middle.next.lastStop⟩ [found], middle.next) := by
  have opening : state.token.isMark "\x7b" = true := by
    rw [opens]
    rfl
  have closing : middle.token.isMark "\x7d" = true := by
    rw [closes]
    rfl
  obtain ⟨count, budget⟩ : ∃ count, state.next.budget = count + 1 + 1 :=
    ⟨state.budget - 2, by rw [next_budget]; omega⟩
  have wanted : want (.statement false) (reach depth) state.next = some (found, middle) := read
  have listed : manyUntil (atMark "\x7d") (want (.statement false)) (reach depth) state.next =
      some ([found], middle) := by
    rw [manyUntil, rounds_eq, budget]
    refine (@roundTrips_again _ _ _ _ middle _ _ [found] ?_ _).trans (roundTrips_done ?_ _)
    · rw [atMark_bind, filled]
      change (want (.statement false) >>= _) _ _ = _
      rw [bind_of_some wanted]
      rfl
    · rw [atMark_bind, closing]
      rfl
  change statementBlock (reach depth) state = _
  rw [statementBlock, here_bind, bind_of_some (expect_eq opening), bind_of_some listed,
    bind_of_some (expect_eq closing)]
  rfl

/-- A block is read where a statement is wanted. -/
theorem blockStatement_eq
    {depth : Nat}
    {span : Span}
    {parts : List Tree}
    (opens : state.token = .mark "\x7b")
    (read : reach depth .block state = some (.node .block span parts, after))
    (single : Bool) :
    reach (depth + 1) (.statement single) state = some (.node .block span parts, after) := by
  have stated : plainStatement single (reach depth) state = some (.node .block span parts, after) := by
    rw [plainStatement, get_bind, opens]
    exact read
  exact statement_eq (by rw [opens]; rfl) (by rw [opens]; rfl) (by rw [opens]; rfl) stated rfl

/-- A test with a block is read as a choice; an `else` behind it belongs to it. -/
theorem conditionalStatement_eq
    {depth : Nat}
    {test body : Tree}
    (word : state.token = .word "if".toList false)
    (opens : state.next.token = .mark "(")
    (tested : reach depth .expression state.next.next = some (test, middle))
    (closes : middle.token = .mark ")")
    (run : reach depth (.statement true) middle.next = some (body, after))
    (single : Bool) :
    (after.token.isWord "else" = false →
      reach (depth + 1) (.statement single) state =
        some (.node .conditionalStatement ⟨state.start, after.lastStop⟩ [test, body, .absent], after)) ∧
      ∀ last alternate, after.token = .word "else".toList false →
        reach depth (.statement true) after.next = some (alternate, last) →
          reach (depth + 1) (.statement single) state =
            some (.node .conditionalStatement ⟨state.start, last.lastStop⟩ [test, body, alternate], last) := by
  have opening : state.next.token.isMark "(" = true := by
    rw [opens]
    rfl
  have closing : middle.token.isMark ")" = true := by
    rw [closes]
    rfl
  have wantedTest : want .expression (reach depth) state.next.next = some (test, middle) := tested
  have wantedBody : bodyStatement (reach depth) middle.next = some (body, after) := run
  have head : headExpression (reach depth) state.next = some (test, middle.next) := by
    rw [headExpression, bind_of_some (expect_eq opening), bind_of_some wantedTest,
      bind_of_some (expect_eq closing)]
    rfl
  have stated
      {last : State}
      {found : Tree}
      (rest : after.token.isWord "else" = false ∧ last = after ∧ found = .absent ∨
        after.token = .word "else".toList false ∧ bodyStatement (reach depth) after.next = some (found, last)) :
      statement single (reach depth) state =
        some (.node .conditionalStatement ⟨state.start, last.lastStop⟩ [test, body, found], last) := by
    refine statement_eq (by rw [word]; rfl) (by rw [word]; rfl) (by rw [word]; rfl) ?_ rfl
    rw [plainStatement, get_bind, word]
    change conditionalStatement (reach depth) state = _
    rw [conditionalStatement, here_bind, bind_of_some (advance_eq (isDisguised_of_word word)),
      bind_of_some head, bind_of_some wantedBody]
    rcases rest with ⟨other, rfl, rfl⟩ | ⟨isElse, further⟩
    · rw [bind_of_some (eatWord_eq_false other)]
      rfl
    · rw [bind_of_some (eatWord_eq_true isElse)]
      change (bodyStatement >>= _) _ _ = _
      rw [bind_of_some further]
      rfl
  exact ⟨fun other => stated (.inl ⟨other, rfl, rfl⟩), fun last alternate isElse read =>
    stated (.inr ⟨isElse, read⟩)⟩

/-- A handler of exceptions with a name is read as such. -/
theorem catchClause_eq
    {depth : Nat}
    {name : Text}
    {block : Tree}
    (catches : Runs [.word "catch".toList false, .mark "(", .word name false, .mark ")"] state middle)
    (free : Token.isFree name = true)
    (handled : reach (depth + 1) .block middle = some (block, after)) :
    ∃ found,
      catchClause (reach (depth + 1)) state = some (found, after) ∧
        found.bare = .made .catchClause
          [.made (.parameter [] false) [.absent, .made (.binding name) [], .absent, .absent], block.bare] ∧
        found.isAbsent = false := by
  obtain ⟨word, opens, named, closes, rfl⟩ := catches
  have opening : state.next.token.isMark "(" = true := by
    rw [opens]
    rfl
  have closing : state.next.next.next.token.isMark ")" = true := by
    rw [closes]
    rfl
  have noType : state.next.next.next.token.isMark ":" = false := by
    rw [closes]
    rfl
  have noBrace : state.next.next.token.isMark "\x7b" = false := by
    rw [named]
    rfl
  have noBracket : state.next.next.token.isMark "[" = false := by
    rw [named]
    rfl
  have bound : want .pattern (reach (depth + 1)) state.next.next =
      some (.node (.binding name) ⟨state.next.next.start, state.next.next.next.lastStop⟩ [],
        state.next.next.next) := by
    change bindingPattern (reach depth) state.next.next = _
    rw [bindingPattern, here_bind, bind_of_some (eat_eq_false noBrace)]
    change (eat "[" >>= _) _ _ = _
    rw [bind_of_some (eat_eq_false noBracket)]
    exact bindingName_eq named free
  have untyped : typeAnnotation (reach (depth + 1)) state.next.next.next =
      some (.absent, state.next.next.next) := by
    rw [ typeAnnotation, get_bind, noType, Bool.and_false]
    rfl
  have wanted : want .block (reach (depth + 1)) state.next.next.next.next = some (block, after) := handled
  let binding := Tree.node (.binding name) ⟨state.next.next.start, state.next.next.next.lastStop⟩ []
  let parameter := Tree.node (.parameter [] false)
    ⟨state.next.next.start, state.next.next.next.next.lastStop⟩ [.absent, binding, .absent, .absent]
  refine ⟨.node .catchClause ⟨state.start, after.lastStop⟩ [parameter, block], ?_, ?_, rfl⟩
  · rw [catchClause, here_bind, bind_of_some (advance_eq (isDisguised_of_word word)),
      bind_of_some (eat_eq_true opening)]
    change (here >>= _) _ _ = _
    rw [here_bind, bind_of_some bound, bind_of_some untyped, bind_of_some (expect_eq closing)]
    change (want .block >>= _) _ _ = _
    rw [bind_of_some wanted]
    rfl
  · simp only [parameter, binding, Tree.bare_node, List.map_cons, List.map_nil, Tree.bare_absent]
    rfl

/-- A block with a handler is read as a `try` statement. -/
theorem tryStatement_eq
    {depth : Nat}
    {name : Text}
    {block handler : Tree}
    (word : state.token = .word "try".toList false)
    (run : reach (depth + 1) .block state.next = some (block, middle))
    (catches : Runs [.word "catch".toList false, .mark "(", .word name false, .mark ")"] middle last)
    (free : Token.isFree name = true)
    (handled : reach (depth + 1) .block last = some (handler, after))
    (noFinally : after.token.isWord "finally" = false)
    (single : Bool) :
    ∃ clause,
      reach (depth + 2) (.statement single) state =
        some (.node .tryStatement ⟨state.start, after.lastStop⟩ [block, clause, .absent], after) ∧
      clause.bare = .made .catchClause
        [.made (.parameter [] false) [.absent, .made (.binding name) [], .absent, .absent], handler.bare] := by
  obtain ⟨clause, handlerRead, handlerBare, present⟩ := catchClause_eq catches free handled
  have wanted : want .block (reach (depth + 1)) state.next = some (block, middle) := run
  have isCatch : middle.token.isWord "catch" = true := by
    rw [catches.1]
    rfl
  refine ⟨clause, statement_eq (by rw [word]; rfl) (by rw [word]; rfl) (by rw [word]; rfl) ?_ rfl, handlerBare⟩
  rw [plainStatement, get_bind, word]
  change tryStatement (reach (depth + 1)) state = _
  rw [tryStatement, here_bind, bind_of_some (advance_eq (isDisguised_of_word word)),
    bind_of_some wanted, atWord_bind, isCatch]
  change (catchClause >>= _) _ _ = _
  rw [bind_of_some handlerRead]
  change (eatWord "finally" >>= _) _ _ = _
  rw [bind_of_some (eatWord_eq_false noFinally)]
  change (faultIf (clause.isAbsent && true) >>= _) _ _ = _
  rw [present]
  rfl

end Parser

end LiveComponent
