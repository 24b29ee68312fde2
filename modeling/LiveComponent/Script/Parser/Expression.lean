import LiveComponent.Script.Parser.Function
import LiveComponent.Script.Parser.Target

namespace LiveComponent

/-!
# Expressions

Literals, arrow functions, calls and members, and operators with their levels.
-/

namespace Parser

/-! ## Literals with parts -/

/-- A template; `tagged` if it follows a tag, so that any escape is allowed. -/
def templateLiteral (tagged : Bool) : P Tree := do
  let state ← get
  match state.token with
  | .template raw complete valid =>
    faultIf (!tagged && !valid)
    advance
    if complete then
      node state.start (.template [raw]) []
    else
      rounds
        (fun (quasis, values) => do
          let value ← withFlags bracketed (want .expression)
          if ← atMark "\x7d" then
            reread (Lexer.readTemplate ((← get).here.drop 1))
            match (← get).token with
            | .template raw complete valid =>
              faultIf (!tagged && !valid)
              advance
              if complete then
                return .done (← node state.start (.template (raw :: quasis).reverse)
                  (value :: values).reverse)
              else
                return .again (raw :: quasis, value :: values)
            | _ => fail
          else
            fail)
        ([raw], [])
  | _ => fail

/-- A regular expression; the current token is its slash. -/
def regexLiteral : P Tree := do
  let state ← get
  match Lexer.readRegex? (state.here.drop 1) with
  | some (pattern, flags) =>
    reread ⟨.bad, pattern.length + flags.length + 2, Lexer.validFlags flags⟩
    advance
    node state.start (.regexLiteral pattern flags) []
  | none => fail

/-- An expression after `...`. -/
def spreadElement : P Tree := do
  let start ← here
  expect "..."
  let expression ← want (.assignment true)
  node start .spread [expression]

/-- An argument of a call. -/
def argument : P Tree := do
  if ← atMark "..." then spreadElement else want (.assignment true)

/-- The arguments of a call in their parentheses. -/
def argumentList : P (List Tree) := do
  expect "("
  let (all, _) ← withFlags bracketed (commaList ")" argument)
  expect ")"
  return all

/-- Remember that the list at `start` ends in a comma. -/
def noteComma (start : Nat) (trailing : Bool) : P Unit :=
  modify fun state =>
    if trailing then { state with commas := start :: state.commas } else state

/-- An array in its brackets. -/
def arrayLiteral : P Tree := do
  let start ← here
  expect "["
  let item : P Tree := do
    if ← atMark "," then
      let place ← here
      return .node .hole ⟨place, place⟩ []
    else
      argument
  let (elements, trailing) ← withFlags bracketed (commaList "]" item)
  noteComma start trailing
  expect "]"
  node start .array elements

/-- A property of an object. -/
def objectProperty : P Tree := do
  let start ← here
  let found ← modifiers
  faultIf (found.any (· != .async))
  match ← accessorRole? with
  | some role =>
    faultIf (!found.isEmpty)
    let (key, computed) ← propertyKey
    let function ← methodFunction role false false true
    node start (.property role false false computed) [key, function]
  | none =>
    let isGenerator ← eat "*"
    let state ← get
    let (key, computed) ← propertyKey
    faultIf (match key.kind with
      | .privateName _ => true
      | _ => false)
    let isAsync := found.contains .async
    if isGenerator || (← atOneOf ["(", "<"]) then
      let function ← methodFunction .plain isAsync isGenerator true
      node start (.property .plain true false computed) [key, function]
    else if isAsync then
      fail
    else
      let isName :=
        match state.token with
        | .word text _ =>
          !Token.isReserved text && !(state.flags.awaits && text == "await".toList) &&
            !(state.flags.yields && text == "yield".toList)
        | _ => false
      match key, isName && !(← atMark ":") with
      | .node (.name text) span _, true =>
        let value := Tree.node (.identifier text) span []
        if ← eat "=" then
          let default ← withFlags bracketed (want (.assignment true))
          modify fun state => { state with pending := start :: state.pending }
          node start (.property .plain false true false) [key, value, default]
        else
          node start (.property .plain false true false) [key, value]
      | _, _ =>
        expect ":"
        let value ← want (.assignment true)
        node start (.property .plain false false computed) [key, value]

/-- An object in its braces. -/
def objectLiteral : P Tree := do
  let start ← here
  expect "\x7b"
  let item : P Tree := do
    if ← atMark "..." then spreadElement else objectProperty
  let (properties, _) ← withFlags bracketed (commaList "\x7d" item)
  expect "\x7d"
  node start .object properties

/-- An expression in parentheses. -/
def parenthesized : P Tree := do
  let start ← here
  expect "("
  let expression ← withFlags bracketed (want .expression)
  expect ")"
  node start .parenthesized [expression]

/-! ## Arrow functions -/

/-- How sure it is that an arrow function starts here. -/
inductive Guess where
  | yes
  | no
  | maybe
deriving DecidableEq

/-- Guess from the tokens after an opening parenthesis or angle bracket. -/
def guessArrow : P Guess := do
  if ← eat "(" then
    let second ← get
    if second.token.isMark ")" then
      advance
      if ← atMark ":" then return if second.typed then .maybe else .no
      else return if ← atOneOf ["=>", "\x7b"] then .yes else .no
    else if second.token.isMark "[" || second.token.isMark "\x7b" then
      return .maybe
    else if second.token.isMark "..." then
      advance
      return if (← get).token.isLiteral then .no else .maybe
    else
      advance
      let third ← get
      let isModifier :=
        match second.token with
        | .word text _ => (modifierOf? text).isSome && text != "async".toList
        | _ => false
      if isModifier && third.token.isBindable then
        return if third.token.isWord "as" then .no else .yes
      else if !second.token.isBindable && !second.token.isWord "this" then
        return .no
      else if third.token.isMark ":" then
        return .yes
      else if third.token.isMark "?" then
        advance
        return if ← atOneOf [":", ",", "=", ")"] then .yes else .no
      else
        return if ← atOneOf [",", "=", ")"] then .maybe else .no
  else
    expect "<"
    let _ ← eatWord "const"
    if (← get).token.isBindable then
      advance
      if ← eatWord "extends" then
        return if ← atOneOf ["=", ">", "/"] then .no else .yes
      else
        return if ← atOneOf [",", "="] then .yes else .no
    else
      return .no

/-- Guess whether the current token starts an arrow function. -/
def arrowAhead : P Guess := do
  if ← atOneOf ["(", "<"] then
    probe .no guessArrow
  else if ← atWord "async" then
    probe .no do
      advance
      if (← get).newline then return .no
      else if ← atOneOf ["(", "<"] then guessArrow
      else return .no
  else
    return .no

/-- An arrow function up to its arrow. -/
structure ArrowHead where
  start : Nat
  isAsync : Bool
  parts : List Tree

/-- Go past the arrow, which must stand on the same line. -/
def expectArrow : P Unit := do
  faultIf (← get).newline
  expect "=>"

/-- An arrow function with parentheses, up to its arrow. -/
def arrowHead : P ArrowHead := do
  let start ← here
  let isAsync ← eatWord "async"
  let parts ← withFlags (fun flags => { flags with awaits := flags.awaits || isAsync }) do
    let generics ← typeParameters
    let all ← parameterList
    let result ← resultAnnotation
    return [generics, all, result]
  expectArrow
  return ⟨start, isAsync, parts⟩

/-- The body of an arrow function. -/
def arrowBody (head : ArrowHead) (resultType : Bool) : P Tree :=
  let change (flags : Flags) : Flags := { flags with awaits := head.isAsync, yields := false }
  withFlags change do
    if ← atMark "\x7b" then
      let body ← want .functionBody
      node head.start (.arrow head.isAsync false false) (head.parts ++ [body])
    else
      let value ← want (.assignment resultType)
      let statement := Tree.node .expressionStatement value.span [value]
      let body := Tree.node .body value.span [statement]
      node head.start (.arrow head.isAsync true false) (head.parts ++ [body])

/-- Whether the arrow function states its result type. -/
def ArrowHead.statesResult (head : ArrowHead) : Bool :=
  match head.parts with
  | [_, _, result] => !result.isAbsent
  | _ => false

/-- An arrow function, if one can be read.  Between the marks of a condition, one with a result type
must be followed by a colon. -/
def possibleArrow (resultType : Bool) : P (Option Tree) :=
  fun goals state =>
    match arrowHead goals state with
    | none => some (none, state)
    | some (head, after) =>
      match arrowBody head resultType goals after with
      | none => none
      | some (tree, last) =>
        if !resultType && head.statesResult && !last.token.isMark ":" then
          some (none, state)
        else
          some (some tree, last)

/-- An arrow function with one bare parameter. -/
def simpleArrow (start : Nat) (isAsync : Bool) (name : Tree) (resultType : Bool) : P Tree := do
  match name with
  | .node (.identifier text) span _ =>
    let pattern := Tree.node (.binding text) span []
    let parameter := Tree.node (.parameter [] false) span [.absent, pattern, .absent, .absent]
    expectArrow
    arrowBody ⟨start, isAsync, [.absent, .node .parameters span [parameter], .absent]⟩ resultType
  | _ => fail

/-- Whether the current word is `async` before a bare parameter and an arrow. -/
def atAsyncArrow : P Bool := do
  if ← atWord "async" then
    ahead do
      advance
      let state ← get
      if state.newline || !state.token.isBindable then
        return false
      else
        advanceName
        atMark "=>"
  else
    return false

/-- An arrow function, if the current token starts one. -/
def arrow? (resultType : Bool) : P (Option Tree) := do
  match ← arrowAhead with
  | .yes => return some (← arrowBody (← arrowHead) true)
  | .maybe => possibleArrow resultType
  | .no =>
    if ← atAsyncArrow then
      let start ← here
      advance
      let name ← identifier
      return some (← simpleArrow start true name resultType)
    else
      return none

/-! ## Calls and members -/

/-- The level of an operator between two operands; a higher level binds tighter. -/
def operatorLevel? (token : Token) : Option Nat :=
  match token with
  | .mark text =>
    [("??", 6), ("||", 7), ("&&", 8), ("|", 9), ("^", 10), ("&", 11), ("==", 12), ("!=", 12),
      ("===", 12), ("!==", 12), ("<", 13), (">", 13), ("<=", 13), (">=", 13), ("<<", 14), (">>", 14),
      (">>>", 14), ("+", 15), ("-", 15), ("*", 16), ("/", 16), ("%", 16), ("**", 17)].lookup text
  | .word text _ =>
    [("instanceof".toList, 13), ("in".toList, 13), ("as".toList, 13),
      ("satisfies".toList, 13)].lookup text
  | _ => none

/-- Whether the current token can start an expression. -/
def startsExpression : P Bool := do
  let state ← get
  let isPrivate :=
    match state.token with
    | .privateName _ => true
    | _ => false
  let isWord :=
    ["this", "super", "null", "true", "false", "function", "class", "new", "delete", "typeof",
      "void"].any state.token.isWord
  let opensImport ←
    if state.token.isWord "import" then
      ahead do
        advance
        atOneOf ["(", "<", "."]
    else
      pure false
  return isPrivate || isWord || opensImport || state.token.isBindable || state.token.isLiteral ||
    state.token.isTemplate ||
    ["(", "[", "\x7b", "/", "/=", "+", "-", "~", "!", "++", "--", "<", "@"].any state.token.isMark

/-- A list of type arguments in an expression, where an angle bracket may also be an operator. -/
def expressionTypeArguments : P Tree := do
  rereadOpenAngle
  let arguments ← do
    let start ← here
    expect "<"
    let (all, _) ← commaList ">" freeType
    rereadAngle
    if ← atMark ">=" then
      fail
    else
      reread ⟨.mark ">", 1, true⟩
      advance
      faultIf all.isEmpty
      node start .typeArguments all
  let state ← get
  if state.token.isMark "(" || state.token.isTemplate then
    return arguments
  else if ["<", ">", "+", "-"].any state.token.isMark then
    fail
  else if state.newline || (operatorLevel? state.token).isSome || !(← startsExpression) then
    return arguments
  else
    fail

/-- A name or private name after a point. -/
def memberName : P Tree := do
  match (← get).token with
  | .privateName _ => privateName
  | _ => propertyWord

/-- One step of a chain of members and calls: the longer expression and whether the chain has an
optional link. -/
def suffix (start : Nat) (isNew : Bool) (expression : Tree) (linked : Bool) :
    P (Turn (Tree × Bool) (Tree × Bool)) := do
  let state ← get
  match state.token with
  | .mark "?." =>
    if isNew then
      fail
    else
      advance
      let after ← get
      if after.token.isMark "[" then
        advance
        let index ← withFlags bracketed (want .expression)
        expect "]"
        return .again (← node start (.index true) [expression, index], true)
      else if after.token.isMark "(" || (after.typed &&
          (after.token.isMark "<" || after.token.isMark "<<")) then
        let arguments ← if after.token.isMark "(" then pure .absent else expressionTypeArguments
        let all ← argumentList
        return .again (← node start (.call true false) (expression :: arguments :: all), true)
      else
        let name ← memberName
        return .again (← node start (.member true) [expression, name], true)
  | .mark "." =>
    advance
    let name ← memberName
    return .again (← node start (.member false) [expression, name], linked)
  | .mark "[" =>
    if state.flags.decorates then
      return .done (expression, linked)
    else
      advance
      let index ← withFlags bracketed (want .expression)
      expect "]"
      return .again (← node start (.index false) [expression, index], linked)
  | .template .. =>
    faultIf linked
    let (tag, arguments) := splitArguments expression
    let text ← templateLiteral true
    return .again (← node start .taggedTemplate [tag, arguments, text], linked)
  | .mark "(" =>
    if isNew then
      return .done (expression, linked)
    else
      let (callee, arguments) := splitArguments expression
      let all ← argumentList
      return .again (← node start (.call false false) (callee :: arguments :: all), linked)
  | .mark mark =>
    if state.typed && mark == "!" && !state.newline then
      advance
      return .again (← node start .nonNull [expression], linked)
    else if state.typed && (mark == "<" || mark == "<<") then
      match ← attempt expressionTypeArguments with
      | some arguments =>
        return .again (← node start .instantiation [expression, arguments], linked)
      | none => return .done (expression, linked)
    else
      return .done (expression, linked)
  | _ => return .done (expression, linked)

/-- A chain of members and calls; an optional link makes it a chain expression. -/
def suffixes (start : Nat) (isNew : Bool) (head : Tree) : P Tree := do
  let (expression, linked) ←
    rounds (fun (expression, linked) => suffix start isNew expression linked) (head, false)
  if linked then
    match expression with
    | .node .instantiation span [inner, arguments] =>
      return .node .instantiation span [.node .chain span [inner], arguments]
    | _ => node start .chain [expression]
  else
    return expression

/-! ## Primary expressions -/

/-- A construction, or `new.target`. -/
def newExpression : P Tree := do
  let start ← here
  expectWord "new"
  if ← eat "." then
    expectWord "target"
    node start (.metaProperty "new" "target") []
  else
    let callee ← want .constructed
    let (callee, arguments) := splitArguments callee
    faultIf (match callee.kind with
      | .importCall _ => true
      | _ => false)
    let all ← if ← atMark "(" then argumentList else pure []
    node start (.construct false) (callee :: arguments :: all)

/-- The parentheses of a dynamic import. -/
def importArguments (start : Nat) (phase : Text) : P Tree := do
  expect "("
  let source ← withFlags bracketed (want (.assignment true))
  let options ←
    if ← eat "," then
      if ← atMark ")" then
        pure .absent
      else do
        let options ← withFlags bracketed (want (.assignment true))
        let _ ← eat ","
        pure options
    else
      pure .absent
  expect ")"
  node start (.importCall phase) [source, options]

/-- A dynamic import, or `import.meta`. -/
def importExpression : P Tree := do
  let start ← here
  expectWord "import"
  if ← eat "." then
    let word ← takeWord
    if word == "meta".toList then
      node start (.metaProperty "import" "meta") []
    else if word == "source".toList || word == "defer".toList then
      importArguments start word
    else
      fail
  else
    importArguments start []

/-- An expression that starts with a word. -/
def wordExpression (text : Text) : P Tree := do
  let start ← here
  if text == "this".toList then
    advance
    node start .this []
  else if text == "function".toList then
    functionLike start .expression false false
  else if text == "class".toList then
    classLike .absent start .expression false false
  else if text == "new".toList then
    newExpression
  else if text == "super".toList then
    advance
    let found ← atOneOf [".", "[", "("]
    faultIf (!found)
    node start .superRef []
  else if text == "import".toList then
    importExpression
  else if text == "null".toList || text == "true".toList || text == "false".toList then
    literal
  else if ← atAsyncFunction then
    advance
    functionLike start .expression true false
  else
    identifier

/-- An expression without operators, members or calls. -/
def primary : P Tree := do
  let state ← get
  match state.token with
  | .word text _ => wordExpression text
  | .number _ | .bigint _ | .string _ _ => literal
  | .template .. => templateLiteral false
  | .mark "[" => arrayLiteral
  | .mark "\x7b" => objectLiteral
  | .mark "(" => parenthesized
  | .mark "/" => regexLiteral
  | .mark "/=" => regexLiteral
  | .mark "<" => want (.markup false)
  | .mark "@" =>
    let decorated ← decorators
    classLike decorated state.start .expression false false
  | _ => fail

/-- A primary expression with its members and calls. -/
def leftHand : P Tree := do
  let start ← here
  let head ← primary
  suffixes start false head

/-- A primary expression with its members, in front of the arguments of a construction. -/
def constructed : P Tree := do
  let start ← here
  let head ← primary
  suffixes start true head

/-! ## Operators -/

/-- Whether the token is an operator in front of its operand. -/
def unaryOperator? (token : Token) : Option Text :=
  match token with
  | .mark text =>
    if ["!", "~", "+", "-"].contains text then some text.toList else none
  | .word text _ =>
    if text == "typeof".toList || text == "void".toList || text == "delete".toList then some text
    else none
  | _ => none

/-- Whether the current word is the operator `await`. -/
def atAwait : P Bool := do
  let state ← get
  if state.token.isWord "await" then
    if state.flags.awaits then
      return true
    else
      ahead do
        advance
        let after ← get
        return !after.newline && !(operatorLevel? after.token).isSome &&
          (after.token.isLiteral || after.token.isAnyWord)
  else
    return false

/-- An operand with an increment or decrement. -/
def updateExpression : P Tree := do
  let state ← get
  match state.token with
  | .mark "<" => want (.markup false)
  | .mark mark =>
    if mark == "++" || mark == "--" then
      advance
      let operand ← want .unary
      let target ← assignmentTarget false operand
      node state.start (.update mark.toList true) [target]
    else
      finish state.start
  | _ => finish state.start
where
  /-- An operand, and the operator behind it. -/
  finish (start : Nat) : P Tree := do
    let operand ← want .leftHand
    let after ← get
    match after.token with
    | .mark mark =>
      if (mark == "++" || mark == "--") && !after.newline then
        advance
        let target ← assignmentTarget false operand
        node start (.update mark.toList false) [target]
      else
        return operand
    | _ => return operand

/-- An operand with the operators in front of it. -/
def simpleUnary : P Tree := do
  let state ← get
  match unaryOperator? state.token with
  | some operator =>
    advance
    let operand ← want .simpleUnary
    node state.start (.unary operator) [operand]
  | none =>
    if ← atAwait then
      faultIf (!state.flags.awaits)
      advance
      let operand ←
        withFlags (fun flags => { flags with awaits := true }) (want .simpleUnary)
      node state.start .await [operand]
    else
      updateExpression

/-- An operand of an operator; one with an operator in front of it has no power. -/
def unary : P Tree := do
  let state ← get
  let operates := (unaryOperator? state.token).isSome || (← atAwait)
  let operand ← simpleUnary
  if operates then
    let powers ← atMark "**"
    faultIf powers
  return operand

/-- Mark the call that an expression starts with as free of effects. -/
def markPure : Tree → Tree
  | .node (.call isOptional _) span parts => .node (.call isOptional true) span parts
  | .node (.construct _) span parts => .node (.construct true) span parts
  | .node .parenthesized span [expression] => .node .parenthesized span [markPure expression]
  | .node .chain span [expression] =>
    match expression.kind with
    | .call .. => .node .chain span [markPure expression]
    | _ => .node .chain span [expression]
  | .node (.binary operator) span [left, right] =>
    .node (.binary operator) span [markPure left, right]
  | .node (.logical operator) span [left, right] =>
    .node (.logical operator) span [markPure left, right]
  | .node .conditional span [test, consequent, alternate] =>
    .node .conditional span [markPure test, consequent, alternate]
  | expression => expression

/-- Whether the expression is an operation by `||` or `&&`. -/
def isPlainLogical (expression : Tree) : Bool :=
  match expression.kind with
  | .logical operator => operator != ['?', '?']
  | _ => false

/-- Join two operands by an operator. -/
def joined (start : Nat) (operator : Text) (level : Nat) (left right : Tree) : P Tree := do
  if level = 6 then
    faultIf (isPlainLogical left || isPlainLogical right)
    node start (.logical operator) [left, right]
  else if level = 7 || level = 8 then
    node start (.logical operator) [left, right]
  else
    node start (.binary operator) [left, right]

/-- Operators that bind tighter than the level, after their left operand. -/
def operations (start : Nat) (level : Nat) (left : Tree) : P Tree :=
  rounds
    (fun left => do
      rereadAngle
      let state ← get
      match operatorLevel? state.token with
      | none => return .done left
      | some found =>
        let stops := if found = 17 then found < level else found ≤ level
        if stops || (state.token.isWord "in" && !state.flags.allowIn) then
          return .done left
        else
          match state.token with
          | .word text _ =>
            if text == "as".toList || text == "satisfies".toList then
              if state.newline then
                return .done left
              else
                faultIf (!state.typed)
                advance
                let type ← freeType
                let kind : Kind := if text == "as".toList then .asType else .satisfiesType
                return .again (← node start kind [left, type])
            else
              advance
              let right ← want (.operation found)
              return .again (← joined start text found left right)
          | .mark mark =>
            advance
            let right ← want (.operation found)
            return .again (← joined start mark.toList found left right)
          | _ => return .done left)
    left

/-- An operand and the operators after it that bind tighter than the level. -/
def operation (level : Nat) : P Tree := do
  let state ← get
  match state.token with
  | .privateName _ =>
    if state.flags.allowIn then
      let name ← privateName
      expectWord "in"
      let right ← want (.operation 13)
      let left ← node state.start .privateIn [name, right]
      operations state.start level left
    else
      fail
  | _ =>
    let operand ← want .unary
    operations state.start level (if state.notes.call then markPure operand else operand)

/-- The operators of assignments. -/
def assignmentOperators : List String :=
  ["=", "+=", "-=", "*=", "/=", "%=", "**=", "<<=", ">>=", ">>>=", "&=", "|=", "^=", "&&=", "||=",
    "??="]

/-- Whether the current word is the operator `yield`. -/
def atYield : P Bool := do
  let state ← get
  if state.token.isWord "yield" then
    if state.flags.yields then
      return true
    else
      ahead do
        advance
        let after ← get
        return !after.newline && !(operatorLevel? after.token).isSome &&
          (after.token.isLiteral || after.token.isAnyWord)
  else
    return false

/-- A `yield` with its operand. -/
def yieldExpression : P Tree := do
  let state ← get
  faultIf (!state.flags.yields)
  advance
  let after ← get
  if after.newline then
    node state.start (.yield false) [.absent]
  else if ← eat "*" then
    let operand ← want (.assignment true)
    node state.start (.yield true) [operand]
  else if after.token == .eof || after.token.isWord "in" || after.token.isWord "of" ||
      [")", "]", "\x7d", ",", ";", ":", "?", "="].any after.token.isMark then
    node state.start (.yield false) [.absent]
  else
    let operand ← want (.assignment true)
    node state.start (.yield false) [operand]

/-- A condition with its two results, or just its test. -/
def conditionalRest (start : Nat) (test : Tree) (resultType : Bool) : P Tree := do
  if ← eat "?" then
    let consequent ← withFlags bracketed (want (.assignment false))
    expect ":"
    let alternate ← want (.assignment resultType)
    node start .conditional [test, consequent, alternate]
  else
    return test

/-- Mark a function whose calls have no effects. -/
def markHarmless : Tree → Tree
  | .node (.function form isAsync isGenerator declared _) span parts =>
    .node (.function form isAsync isGenerator declared true) span parts
  | .node (.arrow isAsync isExpression _) span parts =>
    .node (.arrow isAsync isExpression true) span parts
  | expression => expression

/-- An assignment without regard to the comments before it, or an expression that binds tighter. -/
def bareAssignment (resultType : Bool) : P Tree := do
  if ← atYield then
    yieldExpression
  else
    match ← arrow? resultType with
    | some tree => return tree
    | none =>
      let start ← here
      let left ← want (.operation 1)
      let state ← get
      match state.token with
      | .mark mark =>
        let isName :=
          match left.kind with
          | .identifier _ => true
          | _ => false
        if mark == "=>" && isName then
          simpleArrow start false left resultType
        else if assignmentOperators.contains mark then
          let target ← assignmentTarget (mark == "=") left
          advance
          let value ← want (.assignment resultType)
          node start (.assign mark.toList) [target, value]
        else
          conditionalRest start left resultType
      | _ => return left

/-- An assignment, or an expression that binds tighter. -/
def assignment (resultType : Bool) : P Tree := do
  let notes := (← get).notes
  let tree ← bareAssignment resultType
  return if notes.function then markHarmless tree else tree

/-- Expressions with commas between. -/
def expression : P Tree := do
  let start ← here
  let all ← separated "," (want (.assignment true))
  match all with
  | [single] => return single
  | _ => node start .sequence all

end Parser

end LiveComponent
