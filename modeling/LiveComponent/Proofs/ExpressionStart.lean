import LiveComponent.Script.Parse

namespace LiveComponent

/-!
# How expressions start

An expression starts with a name, a literal, one of few reserved words, or one of few marks.  In front of
any other word or mark the parser reads no expression, whatever follows and however deep it may go.
-/

namespace Token

/-- The reserved words with which an expression may start. -/
def leadingWords : List Text :=
  ["this", "function", "class", "new", "super", "import", "null", "true", "false", "typeof", "void",
    "delete"].map String.toList

/-- The marks with which an expression may start. -/
def leadingMarks : List String :=
  ["[", "\x7b", "(", "/", "/=", "<", "@", "!", "~", "+", "-", "++", "--"]

/-- Whether the token is a word or mark with which no expression starts. -/
def opensNothing : Token → Bool
  | word text _ => isReserved text && !leadingWords.contains text
  | mark text => !leadingMarks.contains text
  | _ => false

variable {token : Token}

/-- A token with which no expression starts is no name. -/
theorem isBindable_of_opensNothing
    (closed : token.opensNothing = true) :
    token.isBindable = false := by
  cases token with
  | word text escaped =>
      rw [opensNothing, Bool.and_eq_true] at closed
      rw [isBindable, closed.1]
      rfl
  | _ => rfl

/-- A token with which no expression starts is none of the other words. -/
theorem isWord_of_opensNothing
    (closed : token.opensNothing = true)
    {text : String}
    (leads : (word text.toList false).opensNothing = false) :
    token.isWord text = false := by
  cases token with
  | word got escaped =>
      apply Bool.eq_false_iff.mpr
      intro same
      rw [eq_of_beq same] at closed
      exact Bool.false_ne_true (leads.symm.trans closed)
  | _ => rfl

/-- A token with which no expression starts is none of the other marks. -/
theorem isMark_of_opensNothing
    (closed : token.opensNothing = true)
    {text : String}
    (leads : (mark text).opensNothing = false) :
    token.isMark text = false := by
  cases token with
  | mark got =>
      apply Bool.eq_false_iff.mpr
      intro same
      rw [eq_of_beq same] at closed
      exact Bool.false_ne_true (leads.symm.trans closed)
  | _ => rfl

end Token

namespace Parser

variable {α β : Type} {goals : Goal → Step Tree} {state after : State}

/-! ## Steps in a row -/

theorem bind_of_some
    {first : P α}
    {next : α → P β}
    {value : α}
    (found : first goals state = some (value, after)) :
    (first >>= next) goals state = next value goals after := by
  simp only [bind, found]

theorem bind_of_none
    {first : P α}
    {next : α → P β}
    (lost : first goals state = none) :
    (first >>= next) goals state = none := by
  simp only [bind, lost]

/-- A choice between parsers has an outcome that each of its possible results has. -/
theorem of_choice
    {parser : P α}
    {outcome : Option (α × State)}
    (each : ∀ choice, parser = choice → choice goals state = outcome) :
    parser goals state = outcome :=
  each parser rfl

theorem get_bind
    (next : State → P β) :
    (get >>= next) goals state = next state goals state := rfl

theorem here_bind
    (next : Nat → P β) :
    (here >>= next) goals state = next state.start goals state := rfl

theorem atMark_bind
    (text : String)
    (next : Bool → P β) :
    (atMark text >>= next) goals state = next (state.token.isMark text) goals state := rfl

theorem atOneOf_bind
    (texts : List String)
    (next : Bool → P β) :
    (atOneOf texts >>= next) goals state = next (texts.any state.token.isMark) goals state := rfl

theorem atWord_bind
    (text : String)
    (next : Bool → P β) :
    (atWord text >>= next) goals state = next (state.token.isWord text) goals state := rfl

/-! ## Tests of the token -/

variable (closed : state.token.opensNothing = true)

include closed

theorem atYield_of_opensNothing :
    atYield goals state = some (false, state) := by
  rw [atYield, get_bind, Token.isWord_of_opensNothing closed rfl]
  rfl

theorem atAwait_of_opensNothing :
    atAwait goals state = some (false, state) := by
  rw [atAwait, get_bind, Token.isWord_of_opensNothing closed rfl]
  rfl

theorem atAsyncFunction_of_opensNothing :
    atAsyncFunction goals state = some (false, state) := by
  rw [atAsyncFunction, atWord_bind, Token.isWord_of_opensNothing closed rfl]
  rfl

theorem atAsyncArrow_of_opensNothing :
    atAsyncArrow goals state = some (false, state) := by
  rw [atAsyncArrow, atWord_bind, Token.isWord_of_opensNothing closed rfl]
  rfl

theorem arrowAhead_of_opensNothing :
    arrowAhead goals state = some (.no, state) := by
  have parenthesis : state.token.isMark "(" = false := Token.isMark_of_opensNothing closed rfl
  have angle : state.token.isMark "<" = false := Token.isMark_of_opensNothing closed rfl
  have marks : ["(", "<"].any state.token.isMark = false := by
    simp [parenthesis, angle]
  rw [arrowAhead, atOneOf_bind, marks]
  change (atWord "async" >>= _) _ _ = _
  rw [atWord_bind, Token.isWord_of_opensNothing closed rfl]
  rfl

theorem arrow?_of_opensNothing
    (resultType : Bool) :
    arrow? resultType goals state = some (none, state) := by
  rw [arrow?, bind_of_some (arrowAhead_of_opensNothing closed)]
  change (atAsyncArrow >>= _) _ _ = _
  rw [bind_of_some (atAsyncArrow_of_opensNothing closed)]
  rfl

theorem unaryOperator?_of_opensNothing :
    unaryOperator? state.token = none := by
  unfold unaryOperator?
  split
  next text shape =>
    simp_all [Token.opensNothing, Token.leadingMarks]
  next text escaped shape =>
    simp_all [Token.opensNothing, Token.leadingWords]
  next => rfl

/-! ## Operands -/

theorem identifier_eq_none :
    identifier goals state = none := by
  rw [identifier, get_bind, Token.isBindable_of_opensNothing closed]
  rfl

theorem wordExpression_eq_none
    {text : Text}
    {escaped : Bool}
    (shape : state.token = .word text escaped) :
    wordExpression text goals state = none := by
  have other (word : String) (leads : (Token.word word.toList false).opensNothing = false) :
      (text == word.toList) = false := by
    have differs := Token.isWord_of_opensNothing closed leads
    rwa [shape] at differs
  rw [wordExpression, here_bind]
  simp only [other "this" rfl, other "function" rfl, other "class" rfl, other "new" rfl,
    other "super" rfl, other "import" rfl, other "null" rfl, other "true" rfl, other "false" rfl,
    Bool.or_false, Bool.false_eq_true, if_false]
  rw [bind_of_some (atAsyncFunction_of_opensNothing closed)]
  exact identifier_eq_none closed

theorem primary_eq_none :
    primary goals state = none := by
  rw [primary, get_bind]
  refine of_choice fun choice chosen => ?_
  split at chosen
  next text escaped shape =>
    subst chosen
    exact wordExpression_eq_none closed shape
  -- All other tokens but the last ones may start an expression.
  all_goals
    subst chosen
    first
    | rfl
    | simp_all [Token.opensNothing, Token.leadingMarks]

/-- What starts with no primary expression is no operand of a call or member. -/
theorem reach_leftHand
    (depth : Nat) :
    reach depth .leftHand state = none := by
  cases depth with
  | zero => rfl
  | succ depth =>
      change leftHand (reach depth) state = none
      rw [leftHand, here_bind, bind_of_none (primary_eq_none closed)]

theorem updateExpression_eq_none
    (depth : Nat) :
    updateExpression (reach depth) state = none := by
  have finish : updateExpression.finish state.start (reach depth) state = none :=
    bind_of_none (reach_leftHand closed depth)
  rw [updateExpression, get_bind]
  refine of_choice fun choice chosen => ?_
  split at chosen
  next shape =>
    simp_all [Token.opensNothing, Token.leadingMarks]
  next mark _ shape =>
    split at chosen
    next =>
      simp_all [Token.opensNothing, Token.leadingMarks]
    next =>
      subst chosen
      exact finish
  next =>
    subst chosen
    exact finish

theorem simpleUnary_eq_none
    (depth : Nat) :
    simpleUnary (reach depth) state = none := by
  rw [simpleUnary, get_bind, unaryOperator?_of_opensNothing closed]
  change (atAwait >>= _) _ _ = _
  rw [bind_of_some (atAwait_of_opensNothing closed)]
  exact updateExpression_eq_none closed depth

theorem reach_unary
    (depth : Nat) :
    reach depth .unary state = none := by
  cases depth with
  | zero => rfl
  | succ depth =>
      change unary (reach depth) state = none
      rw [unary, get_bind, unaryOperator?_of_opensNothing closed,
        bind_of_some (atAwait_of_opensNothing closed)]
      exact bind_of_none (simpleUnary_eq_none closed depth)

/-! ## Expressions -/

theorem reach_operation
    (depth level : Nat) :
    reach depth (.operation level) state = none := by
  cases depth with
  | zero => rfl
  | succ depth =>
      change operation level (reach depth) state = none
      rw [operation, get_bind]
      refine of_choice fun choice chosen => ?_
      split at chosen
      next shape =>
        rw [shape] at closed
        cases closed
      next =>
        subst chosen
        exact bind_of_none (reach_unary closed depth)

theorem bareAssignment_eq_none
    (depth : Nat)
    (resultType : Bool) :
    bareAssignment resultType (reach depth) state = none := by
  rw [bareAssignment, bind_of_some (atYield_of_opensNothing closed)]
  change (arrow? resultType >>= _) _ _ = _
  rw [bind_of_some (arrow?_of_opensNothing closed resultType)]
  change (here >>= _) _ _ = _
  rw [here_bind, bind_of_none (reach_operation closed depth 1)]

/-- No assignment, and no expression that binds tighter, is read in front of such a token. -/
theorem reach_assignment
    (depth : Nat)
    (resultType : Bool) :
    reach depth (.assignment resultType) state = none := by
  cases depth with
  | zero => rfl
  | succ depth =>
      change assignment resultType (reach depth) state = none
      rw [assignment, get_bind]
      exact bind_of_none (bareAssignment_eq_none closed depth resultType)

/-- The body of an arrow function is a block or an expression, so neither is read there. -/
theorem arrowBody_eq_none
    (depth : Nat)
    (head : ArrowHead)
    (resultType : Bool) :
    arrowBody head resultType (reach depth) state = none := by
  have brace : state.token.isMark "\x7b" = false := Token.isMark_of_opensNothing closed rfl
  have lost (flags : Flags) :
      want (.assignment resultType) (reach depth) { state with flags := flags } = none :=
    reach_assignment (by exact closed) depth resultType
  unfold arrowBody withFlags
  dsimp only
  rw [atMark_bind, brace, if_neg Bool.false_ne_true, bind_of_none (lost _)]

end Parser

end LiveComponent
