import LiveComponent.Script.Parser.Declaration

namespace LiveComponent

/-!
# Statements

Statements other than imports and exports.
-/

namespace Parser

/-- A statement that is the body of another one. -/
def bodyStatement : P Tree :=
  want (.statement true)

/-- An expression in parentheses as the head of a statement. -/
def headExpression : P Tree := do
  expect "("
  let expression ← want .expression
  expect ")"
  return expression

/-- An expression that is a statement, or a statement with a label. -/
def expressionStatement : P Tree := do
  let start ← here
  let expression ← want .expression
  match expression with
  | .node (.identifier text) span _ =>
    if ← eat ":" then
      let body ← bodyStatement
      node start .labeled [.node (.name text) span [], body]
    else
      endStatement
      node start .expressionStatement [expression]
  | _ =>
    endStatement
    node start .expressionStatement [expression]

/-- A choice between statements. -/
def conditionalStatement : P Tree := do
  let start ← here
  advance
  let test ← headExpression
  let consequent ← bodyStatement
  let alternate ← if ← eatWord "else" then bodyStatement else pure .absent
  node start .conditionalStatement [test, consequent, alternate]

/-- A loop with its test at the end. -/
def doLoop : P Tree := do
  let start ← here
  advance
  let body ← bodyStatement
  expectWord "while"
  let test ← headExpression
  let _ ← eat ";"
  node start .doLoop [body, test]

/-- A loop with its test at the start. -/
def whileLoop : P Tree := do
  let start ← here
  advance
  let test ← headExpression
  let body ← bodyStatement
  node start .whileLoop [test, body]

/-- The rest of a loop after the expression that starts it. -/
def forLoopRest (start : Nat) (awaits : Bool) (first : Tree) : P Tree := do
  expect ";"
  let test ← if ← atOneOf [";", ")"] then pure .absent else want .expression
  expect ";"
  let update ← if ← atMark ")" then pure .absent else want .expression
  expect ")"
  faultIf awaits
  let body ← bodyStatement
  node start .forLoop [first, test, update, body]

/-- The rest of a loop over the properties of an object. -/
def forInRest (start : Nat) (awaits : Bool) (left : Tree) : P Tree := do
  advance
  let right ← want .expression
  expect ")"
  faultIf awaits
  let body ← bodyStatement
  node start .forIn [left, right, body]

/-- The rest of a loop over the values of an iterable. -/
def forOfRest (start : Nat) (awaits : Bool) (left : Tree) : P Tree := do
  advance
  let right ← want (.assignment true)
  expect ")"
  let body ← bodyStatement
  node start (.forOf awaits) [left, right, body]

/-- Flags where `in` is no operator. -/
def withoutIn (flags : Flags) : Flags :=
  { flags with allowIn := false }

/-- Whether `let` starts a declaration here. -/
def letDeclares : P Bool :=
  ahead do
    advance
    let state ← get
    return state.token.isMark "\x7b" || state.token.isMark "[" ||
      (state.token.isAnyWord && !state.token.isWord "in")

/-- A loop that declares its variables; the current token is the last word of its keyword. -/
def forVariables (start : Nat) (awaits : Bool) (keyword : String) : P Tree := do
  let keyword := keyword.toList
  let inner ← here
  advance
  let left ← withFlags withoutIn (bindingList inner keyword)
  if ← atWord "in" then
    faultIf (keyword == "using".toList || keyword == "await using".toList)
    forInRest start awaits left
  else if ← atWord "of" then
    forOfRest start awaits left
  else
    checkValues keyword left
    forLoopRest start awaits left

/-- Whether the current word is `using` and a name follows on the same line. -/
def usingDeclares (isHead : Bool) : P Bool := do
  if ← atWord "using" then
    ahead do
      advance
      let state ← get
      return state.token.isBindable && !state.newline && !(isHead && state.token.isWord "of")
  else
    return false

/-- Whether the current word is `await` and a declaration by `using` follows on the same line. -/
def awaitUsingDeclares : P Bool := do
  if ← atWord "await" then
    ahead do
      advance
      let newline := (← get).newline
      let declares ← usingDeclares false
      return declares && !newline
  else
    return false

/-- A loop of any kind. -/
def forStatement : P Tree := do
  let start ← here
  advance
  let state ← get
  let awaits ← eatWord "await"
  faultIf (awaits && !state.flags.awaits)
  expect "("
  let state ← get
  if state.token.isMark ";" then
    forLoopRest start awaits .absent
  else if state.token.isWord "var" then
    forVariables start awaits "var"
  else if state.token.isWord "const" then
    forVariables start awaits "const"
  else if state.token.isWord "let" && (← letDeclares) then
    forVariables start awaits "let"
  else if ← usingDeclares true then
    forVariables start awaits "using"
  else if ← awaitUsingDeclares then
    advance
    forVariables start awaits "await using"
  else
    let isLet := state.token.isWord "let"
    let isAsync := state.token.isWord "async"
    let first ← withFlags withoutIn (want .expression)
    if ← atWord "in" then
      let target ← assignmentTarget true first
      forInRest start awaits target
    else if ← atWord "of" then
      let isBareAsync :=
        match first.kind with
        | .identifier _ => isAsync
        | _ => false
      faultIf (isLet || (isBareAsync && !awaits))
      let target ← assignmentTarget true first
      forOfRest start awaits target
    else
      forLoopRest start awaits first

/-- A jump out of or to the head of a loop. -/
def jumpStatement (kind : Kind) : P Tree := do
  let start ← here
  advance
  let label ← if ← canEndStatement then pure .absent else labelName
  endStatement
  node start kind [label]

/-- The end of a function. -/
def returnStatement : P Tree := do
  let state ← get
  faultIf (!state.flags.returns)
  advance
  let value ← if ← canEndStatement then pure .absent else want .expression
  endStatement
  node state.start .returnStatement [value]

/-- A statement with an object as scope. -/
def withStatement : P Tree := do
  let start ← here
  advance
  let object ← headExpression
  let body ← bodyStatement
  node start .withStatement [object, body]

/-- A case of a choice by value. -/
def switchCase : P Tree := do
  let start ← here
  let test ←
    if ← eatWord "default" then
      pure .absent
    else do
      expectWord "case"
      want .expression
  expect ":"
  let stop : P Bool := do
    let state ← get
    return state.token.isMark "\x7d" || state.token.isWord "case" || state.token.isWord "default"
  let all ← manyUntil stop (want (.statement false))
  node start .switchCase (test :: all)

/-- A choice by value. -/
def switchStatement : P Tree := do
  let start ← here
  advance
  let value ← headExpression
  expect "\x7b"
  let cases ← manyUntil (atMark "\x7d") switchCase
  expect "\x7d"
  node start .switchStatement (value :: cases)

/-- The raising of an exception. -/
def throwStatement : P Tree := do
  let start ← here
  advance
  faultIf (← get).newline
  let value ← want .expression
  endStatement
  node start .throwStatement [value]

/-- The handler of exceptions. -/
def catchClause : P Tree := do
  let start ← here
  advance
  let parameter ←
    if ← eat "(" then do
      let inner ← here
      let pattern ← want .pattern
      let type ← typeAnnotation
      expect ")"
      node inner (.parameter [] false) [.absent, pattern, type, .absent]
    else
      pure .absent
  let block ← want .block
  node start .catchClause [parameter, block]

/-- A block with a handler of exceptions or with a last block. -/
def tryStatement : P Tree := do
  let start ← here
  advance
  let block ← want .block
  let handler ← if ← atWord "catch" then catchClause else pure .absent
  let finalizer ← if ← eatWord "finally" then want .block else pure .absent
  faultIf (handler.isAbsent && finalizer.isAbsent)
  node start .tryStatement [block, handler, finalizer]

/-- A stop for debuggers. -/
def debuggerStatement : P Tree := do
  let start ← here
  advance
  endStatement
  node start .debuggerStatement []

/-- Variables that are declared by `let`, or an expression that starts with this name. -/
def letStatement (single : Bool) : P Tree := do
  let declares ←
    if single then
      ahead do
        advance
        atMark "["
    else
      letDeclares
  if declares then
    faultIf single
    variableStatement "let"
  else
    expressionStatement

/-- Constants, or an enumeration of constants. -/
def constStatement (single : Bool) : P Tree := do
  let start ← here
  faultIf single
  declaration .absent start

/-- Resources that are waited for when they are released. -/
def awaitUsingStatement : P Tree := do
  let start ← here
  advance
  let tree ← variableStatement "using"
  return .node (.bindings "await using".toList false) ⟨start, tree.span.stop⟩ tree.children

/-- A statement that is no import or export. -/
def plainStatement (single : Bool) : P Tree := do
  let state ← get
  match state.token with
  | .mark "\x7b" => want .block
  | .mark ";" =>
    advance
    node state.start .emptyStatement []
  | .word text _ =>
    match String.ofList text with
    | "if" => conditionalStatement
    | "do" => doLoop
    | "while" => whileLoop
    | "for" => forStatement
    | "continue" => jumpStatement .continueStatement
    | "break" => jumpStatement .breakStatement
    | "return" => returnStatement
    | "with" => withStatement
    | "switch" => switchStatement
    | "throw" => throwStatement
    | "try" => tryStatement
    | "debugger" => debuggerStatement
    | "var" => variableStatement "var"
    | "const" => constStatement single
    | "let" => letStatement single
    | "class" =>
      faultIf single
      classLike .absent state.start .declaration false true
    | "function" =>
      let tree ← functionDeclaration state.start true
      faultIf (single && (match tree.kind with
        | .function _ _ isGenerator _ _ => isGenerator
        | _ => false))
      return tree
    | _ =>
      if ← atAsyncFunction then
        faultIf single
        functionDeclaration state.start true
      else if ← atTypeDeclaration then
        declaration .absent state.start
      else if ← usingDeclares false then
        faultIf single
        variableStatement "using"
      else if ← awaitUsingDeclares then
        faultIf (single || !state.flags.awaits)
        awaitUsingStatement
      else
        expressionStatement
  | _ => expressionStatement

/-- Statements in braces. -/
def block : P Tree :=
  statementBlock

/-! ## Directives -/

/-- The directive that a statement at the head of a body stands for.  A string in parentheses is
none. -/
def directive? (raw : Text) : Tree → Option Tree
  | .node .expressionStatement span [.node (.stringLiteral _ _) inner _] =>
    if span.start = inner.start then
      some (.node (.directive ((raw.drop 1).take (inner.stop - inner.start - 2))) span [])
    else none
  | _ => none

/-- Directives and statements up to a place where the test holds. -/
def directivesAndStatements (stop : P Bool) (item : P Tree) : P (List Tree) := do
  let directives ← rounds
    (fun (done : List Tree × Bool) => do
      if !done.2 || (← stop) || !(← get).token.isString then
        return .done done.1
      else
        let raw := (← get).here
        let statement ← item
        match directive? raw statement with
        | some tree => return .again (tree :: done.1, true)
        | none => return .again (statement :: done.1, false))
    ([], true)
  let statements ← manyUntil stop item
  return directives.reverse ++ statements

/-- The body of a function in its braces. -/
def functionBody : P Tree := do
  let start ← here
  expect "\x7b"
  let all ← withFlags (fun flags => { flags with returns := true, allowIn := true })
    (directivesAndStatements (atMark "\x7d") (want (.statement false)))
  expect "\x7d"
  node start .body all

end Parser

end LiveComponent
