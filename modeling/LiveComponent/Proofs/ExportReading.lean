import LiveComponent.Proofs.ImportLines

namespace LiveComponent

/-!
# How default exports are read

A default export of an expression is read from what is read of the expression.  So is an arrow function without
parameters that gives an expression.
-/

namespace Parser

open Lexer

variable
  {goals : Goal → Step Tree}
  {depth : Nat}
  {state after : State}
  {value : Tree}

/-! ## Exports of expressions -/

/-- Whether a default export that starts with the token is the export of an expression. -/
def exportsExpression (token : Token) : Bool :=
  !token.isMark "@" && !(["function", "async", "class", "abstract", "interface"].any token.isWord)

theorem moreDecorators_eq
    (plain : state.token.isMark "@" = false) :
    moreDecorators .absent goals state = some (.absent, state) := by
  have none : decorators goals state = some (.absent, state) := by
    rw [decorators, here_bind, atMark_bind, plain]
    rfl
  rw [moreDecorators, bind_of_some none]
  rfl

/-- A word that does not stand there is not found ahead. -/
theorem ahead_eatWord
    {word : String}
    {next : Bool → State → Bool}
    (other : state.token.isWord word = false)
    (lost : ∀ state, next false state = false) :
    ahead (do
      let isThere ← eatWord word
      let after ← get
      return next isThere after) goals state = some (false, state) := by
  refine @ahead_eq _ _ state _ _ ?_
  rw [bind_of_some (eatWord_eq_false other), get_bind, lost]
  rfl

/-- From the word `default` on, the export of an expression is read to its end. -/
theorem exportDefault_eq
    {start : Nat}
    (isDefault : state.token = .word "default".toList false)
    (starts : exportsExpression state.next.token = true)
    (read : goals (.assignment true) state.next = some (value, after))
    (semicolon : after.token = .mark ";") :
    exportDefault start .absent goals state =
      some (.node .exportDefault ⟨start, after.next.lastStop⟩ [value], after.next) := by
  simp only [exportsExpression, Bool.and_eq_true, Bool.not_eq_true', List.any_cons, Bool.or_eq_false_iff] at starts
  obtain ⟨plain, noFunction, noAsync, noClass, noAbstract, noInterface, -⟩ := starts
  have notAsync : atAsyncFunction goals state.next = some (false, state.next) := by
    rw [atAsyncFunction, atWord_bind, noAsync]
    rfl
  have wanted : want (.assignment true) goals state.next = some (value, after) := read
  rw [exportDefault, bind_of_some (advance_eq (isDisguised_of_word isDefault)), here_bind,
    bind_of_some (moreDecorators_eq plain), get_bind]
  rw [bind_of_some (@ahead_eatWord _ state.next "abstract"
    (fun isThere after => isThere && after.token.isWord "class" && !after.newline) noAbstract fun _ => rfl)]
  rw [bind_of_some (@ahead_eatWord _ state.next "interface"
    (fun isThere after => isThere && after.token.isBindable && !after.newline) noInterface fun _ => rfl)]
  rw [noFunction, noClass]
  change (atAsyncFunction >>= _) _ _ = _
  rw [bind_of_some notAsync]
  change (want (.assignment true) >>= _) _ _ = _
  rw [bind_of_some wanted, bind_of_some (endStatement_eq semicolon)]
  rfl

/-- The default export of an expression is read as a statement. -/
theorem statement_exportDefault
    (isExport : state.token = .word "export".toList false)
    (isDefault : state.next.token = .word "default".toList false)
    (starts : exportsExpression state.next.next.token = true)
    (read : reach depth (.assignment true) state.next.next = some (value, after))
    (semicolon : after.token = .mark ";") :
    reach (depth + 1) (.statement false) state =
      some (.node .exportDefault ⟨state.start, after.next.lastStop⟩ [value], after.next) := by
  have noImport : state.token.isWord "import" = false := by
    rw [isExport]
    rfl
  have isWord : state.token.isWord "export" = true := by
    rw [isExport]
    rfl
  have noType : state.next.token.isWord "type" = false := by
    rw [isDefault]
    rfl
  have noBrace : state.next.token.isMark "\x7b" = false := by
    rw [isDefault]
    rfl
  have noStar : state.next.token.isMark "*" = false := by
    rw [isDefault]
    rfl
  have isDefault' : state.next.token.isWord "default" = true := by
    rw [isDefault]
    rfl
  have noTypes : ahead (do
      let isType ← eatWord "type"
      let opens ← atOneOf ["\x7b", "*"]
      return isType && opens) (reach depth) state.next = some (false, state.next) := by
    refine @ahead_eq _ _ state.next _ _ ?_
    rw [bind_of_some (eatWord_eq_false noType), atOneOf_bind]
    rfl
  have exported := @exportDefault_eq _ _ _ _ state.start isDefault starts read semicolon
  have declared : exportDeclaration .absent (reach depth) state =
      some (.node .exportDefault ⟨state.start, after.next.lastStop⟩ [value], after.next) := by
    rw [exportDeclaration, here_bind, bind_of_some (advance_eq (isDisguised_of_word isExport)), get_bind,
      bind_of_some noTypes]
    change (if state.next.token.isMark "\x7b" = true then _ else _ : P _) _ state.next = _
    rw [noBrace, noStar, isDefault']
    exact exported
  change statement false (reach depth) state = _
  rw [statement, get_bind, noImport, isWord]
  change (exportDeclaration .absent >>= _) _ _ = _
  rw [bind_of_some declared]
  exact congrArg (fun tree => some (tree, after.next)) (ite_self _)

/-! ## Functions without parameters -/

/-- The tokens in front of what a function without parameters gives. -/
def arrowTokens : List Token :=
  [.mark "(", .mark ")", .mark "=>"]

/-- What is allowed in an arrow function that is not asynchronous. -/
def arrowFlags (flags : Flags) : Flags :=
  { flags with awaits := false, yields := false }

section

variable
  {middle : State}
  (runs : Runs arrowTokens state middle)

include runs

/-- Empty parentheses before an arrow start an arrow function. -/
theorem arrowAhead_eq :
    arrowAhead goals state = some (.yes, state) := by
  obtain ⟨opens, closes, arrow, -⟩ := runs
  have opening : state.token.isMark "(" = true := by
    rw [opens]
    rfl
  have closing : state.next.token.isMark ")" = true := by
    rw [closes]
    rfl
  have noType : state.next.next.token.isMark ":" = false := by
    rw [arrow]
    rfl
  have goesOn : ["=>", "\x7b"].any state.next.next.token.isMark = true := by
    rw [arrow]
    rfl
  have guessed : guessArrow goals state = some (.yes, state.next.next) := by
    rw [guessArrow, bind_of_some (eat_eq_true opening)]
    change (get >>= _) _ state.next = _
    rw [get_bind, if_pos closing, bind_of_some (advance_eq (isDisguised_of_isMark closing)), atMark_bind, noType]
    change (atOneOf _ >>= _) _ state.next.next = _
    rw [atOneOf_bind, goesOn]
    rfl
  have marks : ["(", "<"].any state.token.isMark = true := by
    rw [opens]
    rfl
  rw [arrowAhead, atOneOf_bind, if_pos marks, probe, guessed]

/-- Empty parentheses are a list of parameters. -/
theorem parameterList_eq
    (filled : 0 < state.budget) :
    parameterList goals state =
      some (.node .parameters ⟨state.start, state.next.next.lastStop⟩ [], state.next.next) := by
  obtain ⟨opens, closes, -⟩ := runs
  have opening : state.token.isMark "(" = true := by
    rw [opens]
    rfl
  have closing : state.next.token.isMark ")" = true := by
    rw [closes]
    rfl
  have noThis : state.next.token.isWord "this" = false := by
    rw [closes]
    rfl
  obtain ⟨count, budget⟩ : ∃ count, state.next.budget = count + 1 := ⟨state.budget - 1, by rw [next_budget]; omega⟩
  have listed : restList ")" parameter restParameter goals state.next = some ([], state.next) := by
    rw [restList, rounds_eq, budget]
    refine roundTrips_done ?_ _
    change (atMark ")" >>= _) _ _ = _
    rw [atMark_bind, closing]
    rfl
  rw [parameterList, here_bind, bind_of_some (expect_eq opening), get_bind, noThis, Bool.and_false]
  change (restList ")" parameter restParameter >>= _) _ _ = _
  rw [bind_of_some listed, bind_of_some (expect_eq closing)]
  rfl

/-- Empty parentheses and an arrow on the same line are the head of an arrow function. -/
theorem arrowHead_eq
    (sameLine : state.next.next.newline = false)
    (filled : 0 < state.budget) :
    arrowHead goals state =
      some (⟨state.start, false, [.absent, .node .parameters ⟨state.start, state.next.next.lastStop⟩ [], .absent]⟩,
        middle) := by
  have noAsync : state.token.isWord "async" = false := by
    rw [runs.1]
    rfl
  have noTypes : state.token.isMark "<" = false := by
    rw [runs.1]
    rfl
  have noResult : state.next.next.token.isMark ":" = false := by
    rw [runs.2.2.1]
    rfl
  have isArrow : state.next.next.token.isMark "=>" = true := by
    rw [runs.2.2.1]
    rfl
  let change (flags : Flags) : Flags := { flags with awaits := flags.awaits || false }
  let inside := state.flagged (change state.flags)
  have plain : typeParameters goals inside = some (.absent, inside) := by
    rw [typeParameters, get_bind]
    change (if (inside.typed && state.token.isMark "<") = true then _ else _ : P _) _ _ = _
    rw [noTypes, Bool.and_false]
    rfl
  have listed := @parameterList_eq goals inside (middle.flagged (change state.flags)) (runs.flagged _) filled
  have untyped : resultAnnotation goals inside.next.next = some (.absent, inside.next.next) := by
    rw [ resultAnnotation, get_bind]
    change (if (inside.typed && state.next.next.token.isMark ":") = true then _ else _ : P _) _ _ = _
    rw [noResult, Bool.and_false]
    rfl
  have parts : withFlags change (do
      let generics ← typeParameters
      let all ← parameterList
      let result ← resultAnnotation
      return [generics, all, result]) goals state =
      some ([.absent, .node .parameters ⟨state.start, state.next.next.lastStop⟩ [], .absent], state.next.next) := by
    refine withFlags_eq rfl ?_
    rw [bind_of_some plain, bind_of_some listed, bind_of_some untyped]
    rfl
  have arrow : expectArrow goals state.next.next = some ((), state.next.next.next) := by
    rw [expectArrow, get_bind, sameLine]
    exact expect_eq isArrow
  rw [arrowHead, here_bind, bind_of_some (eatWord_eq_false noAsync), bind_of_some parts, bind_of_some arrow, runs.2.2.2]
  rfl

/-- An arrow function without parameters is read from what it gives. -/
theorem arrow_eq
    (sameLine : state.next.next.newline = false)
    (filled : 0 < state.budget)
    (noBrace : middle.token.isMark "\x7b" = false)
    (kept : after.flags = middle.flags)
    (read : reach depth (.assignment true) (middle.flagged (arrowFlags middle.flags)) =
      some (value, after.flagged (arrowFlags middle.flags))) :
    reach (depth + 1) (.assignment true) state =
      some (.node (.arrow false true state.notes.function) ⟨state.start, after.lastStop⟩
        [.absent, .node .parameters ⟨state.start, state.next.next.lastStop⟩ [], .absent,
          .node .body value.span [.node .expressionStatement value.span [value]]], after) := by
  have noYield : atYield (reach depth) state = some (false, state) := by
    rw [atYield, get_bind, runs.1]
    rfl
  let parameters := Tree.node .parameters ⟨state.start, state.next.next.lastStop⟩ []
  let body := Tree.node .body value.span [.node .expressionStatement value.span [value]]
  let whole := Tree.node (.arrow false true false) ⟨state.start, after.lastStop⟩ [.absent, parameters, .absent, body]
  have given : arrowBody ⟨state.start, false, [.absent, parameters, .absent]⟩ true (reach depth) middle =
      some (whole, after) := by
    rw [arrowBody]
    refine withFlags_eq kept ?_
    change (atMark "\x7b" >>= _) _ (middle.flagged (arrowFlags middle.flags)) = _
    rw [atMark_bind]
    change (if middle.token.isMark "\x7b" = true then _ else _ : P _) _ _ = _
    rw [noBrace]
    change (want (.assignment true) >>= _) _ _ = _
    have wanted : want (.assignment true) (reach depth) _ = _ := read
    rw [bind_of_some wanted]
    rfl
  have arrow : arrow? true (reach depth) state = some (some whole, after) := by
    rw [arrow?, bind_of_some (arrowAhead_eq runs)]
    change (arrowHead >>= _) _ _ = _
    rw [bind_of_some (arrowHead_eq runs sameLine filled), bind_of_some given]
    rfl
  have bareRead : bareAssignment true (reach depth) state = some (whole, after) := by
    rw [bareAssignment, bind_of_some noYield]
    change (arrow? true >>= _) _ _ = _
    rw [bind_of_some arrow]
    rfl
  change assignment true (reach depth) state = _
  rw [assignment, get_bind, bind_of_some bareRead]
  cases state.notes.function <;> rfl

end

end Parser

end LiveComponent
