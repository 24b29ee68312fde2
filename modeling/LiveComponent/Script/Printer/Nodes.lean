import LiveComponent.Script.Printer.Types

namespace LiveComponent

/-!
# Printed expressions and statements

Expressions take the parentheses that their place demands and lose all others.  Statements stand on
lines of their own, with tabs as indentation.
-/

namespace Printer

/-! ## Operators -/

/-- The level of a binary operator. -/
def binaryLevel (operator : Text) : Nat :=
  ([("**", 17), ("*", 16), ("/", 16), ("%", 16), ("+", 15), ("-", 15), ("<<", 14), (">>", 14),
    (">>>", 14), ("<", 13), (">", 13), ("<=", 13), (">=", 13), ("instanceof", 13), ("in", 13),
    ("==", 12), ("!=", 12), ("===", 12), ("!==", 12), ("&", 11), ("^", 10), ("|", 9), ("&&", 8),
    ("||", 7), ("??", 6)].lookup (String.ofList operator)).getD 0

/-- The expression inside parentheses. -/
def withoutParentheses : Tree → Tree
  | .node .parenthesized _ [expression] => withoutParentheses expression
  | expression => expression

/-- Whether the expression is a function.  Parentheses around one are kept, since they announce that
it is called soon. -/
def isFunction (tree : Tree) : Bool :=
  match tree.kind with
  | .arrow .. => true
  | .function .. => true
  | _ => false

/-- Whether the expression is the name `let`, with which a bracket would start a declaration. -/
def isLet (tree : Tree) : Bool :=
  match (withoutParentheses tree).kind with
  | .identifier text => text == "let".toList
  | _ => false

/-- Whether the target of a loop is the name `async`, which needs parentheses before `of`. -/
def isAsyncName (tree : Tree) : Bool :=
  match tree.kind with
  | .identifier text => text == "async".toList
  | _ => false

/-- Whether the expression is an operation by `||` or `&&`. -/
def mixesWithCoalesce (tree : Tree) : Bool :=
  match (withoutParentheses tree).kind with
  | .logical operator => operator != "??".toList
  | _ => false

/-- Whether the expression has an operator in front of it, so that it cannot be raised to a power. -/
def hasNoPower (tree : Tree) : Bool :=
  match (withoutParentheses tree).kind with
  | .unary _ | .await => true
  | _ => false

/-- Print an operation. A logical operator on the right of the same operator needs no parentheses,
since grouping does not matter to its value. -/
def operation
    (isLogical : Bool)
    (operator : Text)
    (left right : Part)
    (request : Request) :
    Print := do
  let level := binaryLevel operator
  let wrapped :=
    request.level ≥ level || (operator == "in".toList && request.withoutIn)
  let withoutIn := request.withoutIn && !wrapped
  let isPower := operator == "**".toList
  let isCoalesce := operator == "??".toList
  let leftLevel :=
    if isPower then (if hasNoPower left.1 then Level.call else level)
    else if isCoalesce && mixesWithCoalesce left.1 then Level.leading
    else level - 1
  let rightLevel :=
    if isPower then level - 1
    else if isCoalesce && mixesWithCoalesce right.1 then Level.leading
    else if isLogical then level - 1
    else level
  wrap wrapped do
    left.2 ⟨leftLevel, withoutIn, false, false⟩
    space
    put operator
    space
    right.2 ⟨rightLevel, withoutIn, false, false⟩

/-- Print the arguments of a call. -/
def argumentsText (parts : List Part) : Print := do
  word "("
  commaSeparated (parts.map Part.item)
  word ")"

/-! ## Objects -/

/-- Whether a property is printed by its name alone. -/
def printsName (key value : Tree) (shorthand : Bool) : Bool :=
  match key with
  | .node (.name text) _ _ =>
    if text == "__proto__".toList then
      shorthand
    else
      match withoutParentheses value with
      | .node (.identifier name) _ _ => name == text
      | _ => false
  | _ => false

/-- Whether a key is a number that has no literal. -/
def isInfiniteKey (tree : Tree) : Bool :=
  match tree.kind with
  | .numberLiteral value => value == .infinite
  | _ => false

/-- Print the words in front of the key of a method. -/
def functionMarks (tree : Tree) : Print :=
  match tree.kind with
  | .function _ isAsync isGenerator _ _ => do
    mark isAsync "async"
    when isGenerator (word "*")
  | _ => nothing

/-- Print a property of an object. -/
def propertyText
    (role : MethodRole)
    (isMethod shorthand computed : Bool)
    (name value : Part) :
    Print := do
  if isMethod || role == .getter || role == .setter then
    roleMark role
    functionMarks value.1
    key computed name
    value.print
  else
    let computed := computed || isInfiniteKey name.1
    when (!printsName name.1 value.1 shorthand) do
      key computed name
      word ": "
    value.item

/-- Print a list in square brackets, one item a line if there are more than two. -/
def arrayText (parts : List Part) : Print := do
  let isLast (tree : Tree) : Bool :=
    match tree.kind with
    | .hole => true
    | _ => false
  let endsInHole := (parts.getLast?.map fun part => isLast part.1).getD false
  let prints := parts.map Part.item
  word "["
  if 2 < parts.length then
    lines (match prints.reverse with
      | last :: others =>
        (if endsInHole then (do last; word ",") :: others else last :: others).reverse
      | [] => [])
  else
    commaSeparated prints
    when endsInHole (word ",")
  word "]"

/-- Print an object, one property a line if there are more than one. -/
def objectText (parts : List Part) : Print := do
  let page ← get
  wrap (atStatementStart page || atArrowStart page) do
    word "\x7b"
    match parts with
    | [] => nothing
    | [single] =>
      space
      single.print
      space
    | _ => lines (parts.map Part.print)
    word "\x7d"

/-! ## Functions and classes -/

/-- Print a function with its keyword. -/
def functionText
    (form : FunctionForm)
    (isAsync isGenerator declared : Bool)
    (name generics parameters result body : Part) :
    Print := do
  let page ← get
  wrap (form == .expression && atStatementStart page) do
    mark declared "declare"
    mark isAsync "async"
    keyword "function"
    when isGenerator (word "* ")
    name.print
    signatureText generics parameters result
    if body.isAbsent then
      word ";"
    else
      space
      body.print

/-- Print the parameters, result type and body of a method. -/
def methodText (generics parameters result body : Part) : Print := do
  signatureText generics parameters result
  if body.isAbsent then
    word ";"
  else
    space
    body.print

/-- Whether a decorator needs no parentheses: a dotted name, perhaps with calls. -/
def isPlainDecorator : Tree → Bool
  | .node (.identifier _) _ _ => true
  | .node (.member false) _ _ => true
  | .node (.call _ _) _ (callee :: _) => isPlainDecorator callee
  | _ => false

/-- Print a class. -/
def classText
    (form : FunctionForm)
    (abstracted declared : Bool)
    (decorators name generics superclass arguments : Part)
    (rest : List Part) :
    Print := do
  let page ← get
  wrap (form == .expression && atStatementStart page) do
    decorators.print
    mark declared "declare"
    mark abstracted "abstract"
    keyword "class"
    name.print
    when (!name.isAbsent) generics.print
    when (!superclass.isAbsent) do
      word " extends "
      superclass.at Level.trailing
    arguments.print
    let implemented := rest.dropLast
    when (!implemented.isEmpty) do
      word " implements "
      commaSeparated (implemented.map Part.print)
    space
    rest.getLast?.forM Part.print

/-- Print a member of a class. -/
def memberText (part : Part) : Print := do
  indentation
  part.print
  match part.1.kind with
  | .field .. | .indexSignature .. => semicolon
  | _ => newline

/-! ## Statements -/

/-- Print a statement behind the head of another one. -/
def bodyText (part : Part) : Print := do
  match part.1.kind with
  | .block =>
    space
    part.2 .inline
    newline
  | .emptyStatement => semicolon
  | _ =>
    modify fun page => { page with joins := true }
    part.print

/-- Whether a statement ends in a choice without an alternative, to which a following `else` would
belong. -/
def dangles : Tree → Bool
  | .node .conditionalStatement _ [_, _, alternate] =>
    if alternate.isAbsent then true else dangles alternate
  | .node .forLoop _ [_, _, _, body] => dangles body
  | .node .forIn _ [_, _, body] => dangles body
  | .node (.forOf _) _ [_, _, body] => dangles body
  | .node .whileLoop _ [_, body] => dangles body
  | .node .withStatement _ [_, body] => dangles body
  | .node .labeled _ [_, body] => dangles body
  | _ => false

/-- Print a choice between statements without its indentation. -/
def choiceText (test consequent alternate : Part) : Print := do
  keyword "if ("
  test.print
  word ")"
  let gap : Print := if alternate.isAbsent then newline else space
  match consequent.1.kind with
  | .block =>
    space
    consequent.2 .inline
    gap
  | _ =>
    if dangles consequent.1 then
      space
      braces false consequent.print
      gap
    else
      bodyText consequent
      when (!alternate.isAbsent) indentation
  when (!alternate.isAbsent) do
    keyword "else"
    match alternate.1.kind with
    | .conditionalStatement =>
      space
      alternate.2 .inline
    | _ => bodyText alternate

/-- Print a statement on a line of its own, unless it continues the line. -/
def onLine (request : Request) (print : Print) : Print := do
  when (!request.sameLine) indentation
  print

/-- Whether the statement is a string, perhaps in parentheses. -/
def isStringStatement : Tree → Bool
  | .node .expressionStatement _ [expression] =>
    match (withoutParentheses expression).kind with
    | .stringLiteral .. => true
    | _ => false
  | _ => false

/-- Print directives and statements.  A string that is the first statement gets parentheses, since it
would be a directive without them. -/
def bodyLines (parts : List Part) : Print := do
  match parts with
  | [] => nothing
  | first :: rest =>
    if isStringStatement first.1 then
      word "("
      first.2 .inline
      word ")"
      semicolon
    else
      first.print
    rest.forM Part.print

/-- Print the cases of a choice by value. -/
def caseText (test : Part) (statements : List Part) : Print := do
  indentation
  if test.isAbsent then
    word "default"
  else
    word "case "
    test.print
  word ":"
  match statements with
  | [single] => bodyText single
  | _ =>
    newline
    indented (statements.forM Part.print)

/-- How statements are printed. -/
def statementLayout? (kind : Kind) (parts : List Part) (request : Request) : Option Print :=
  match kind, parts with
  | .directive raw, _ => some do
    indentation
    let quote := directiveQuote raw
    word quote
    put raw
    word quote
    semicolon
  | .block, parts => some do
    onLine request (braces parts.isEmpty (parts.forM Part.print))
    when (!request.sameLine) newline
  | .emptyStatement, _ => some do
    indentation
    semicolon
  | .expressionStatement, [expression] =>
    if request.sameLine then
      some (expression.2 ⟨Level.comma, request.withoutIn, false, false⟩)
    else some do
      indentation
      modify fun page => { page with statementStart := some page.size }
      expression.print
      semicolon
  | .conditionalStatement, [test, consequent, alternate] =>
    some (onLine request (choiceText test consequent alternate))
  | .doLoop, [body, test] => some do
    indentation
    word "do"
    match body.1.kind with
    | .block =>
      space
      body.2 .inline
      space
    | _ =>
      modify fun page => { page with joins := true }
      body.print
      indentation
    word "while ("
    test.print
    word ")"
    semicolon
  | .whileLoop, [test, body] => some do
    indentation
    keyword "while ("
    test.print
    word ")"
    bodyText body
  | .forLoop, [start, test, update, body] => some do
    indentation
    keyword "for ("
    start.2 ⟨Level.lowest, true, false, true⟩
    word ";"
    test.after " "
    word ";"
    update.after " "
    word ")"
    bodyText body
  | .forIn, [left, right, body] => some do
    indentation
    keyword "for ("
    wrap (isAsyncName left.1) (left.2 ⟨Level.lowest, true, false, true⟩)
    word " in "
    right.print
    word ")"
    bodyText body
  | .forOf awaits, [left, right, body] => some do
    indentation
    keyword "for"
    when awaits (word " await")
    word " ("
    wrap (isAsyncName left.1) (left.2 ⟨Level.lowest, true, false, true⟩)
    word " of "
    right.item
    word ")"
    bodyText body
  | .continueStatement, [label] => some do
    indentation
    keyword "continue"
    label.after " "
    semicolon
  | .breakStatement, [label] => some do
    indentation
    keyword "break"
    label.after " "
    semicolon
  | .returnStatement, [value] => some do
    indentation
    keyword "return"
    value.after " "
    semicolon
  | .withStatement, [object, body] => some do
    indentation
    keyword "with("
    object.print
    word ")"
    bodyText body
  | .switchStatement, value :: cases => some do
    indentation
    keyword "switch ("
    value.print
    word ") "
    braces cases.isEmpty (cases.forM Part.print)
    newline
  | .switchCase, test :: statements => some (caseText test statements)
  | .labeled, [label, body] => some do
    indentation
    label.print
    word ":"
    bodyText body
  | .throwStatement, [value] => some do
    indentation
    keyword "throw "
    value.print
    semicolon
  | .tryStatement, [block, handler, finalizer] => some do
    indentation
    keyword "try "
    block.2 .inline
    handler.print
    when (!finalizer.isAbsent) do
      word " finally "
      finalizer.2 .inline
    newline
  | .catchClause, [parameter, block] => some do
    word " catch"
    when (!parameter.isAbsent) do
      word " ("
      parameter.print
      word ")"
    space
    block.2 .inline
  | .debuggerStatement, _ => some do
    indentation
    keyword "debugger"
    semicolon
  | .bindings text declared, declarators => some do
    onLine request do
      mark declared "declare"
      spaceBeforeWord
      put text
      space
      commaSeparated (declarators.map fun part =>
        part.2 ⟨Level.lowest, request.withoutIn, false, false⟩)
    when (!request.sameLine) semicolon
  | .declarator definite, [target, type, value] => some do
    target.print
    when definite (word "!")
    type.after ": "
    when (!value.isAbsent) do
      word " = "
      value.2 ⟨Level.comma, request.withoutIn, false, false⟩
  | .typeAlias declared, [name, generics, type] => some do
    indentation
    mark declared "declare"
    word "type "
    name.print
    generics.print
    type.after " = "
    semicolon
  | .interface declared, name :: generics :: rest => some do
    indentation
    mark declared "declare"
    word "interface "
    name.print
    generics.print
    match rest.reverse with
    | body :: extended =>
      when (!extended.isEmpty) do
        word " extends "
        commaSeparated (extended.reverse.map Part.print)
      space
      body.print
    | [] => nothing
    newline
  | .extended, [expression, arguments] => some do
    expression.at Level.call
    arguments.print
  | .enum constant declared, name :: members => some do
    indentation
    mark declared "declare"
    mark constant "const"
    keyword "enum "
    name.print
    space
    braces members.isEmpty do
      members.forM fun member => do
        indentation
        member.print
        word ",\n"
    newline
  | .namespaceLike text declared, [name, block] => some do
    indentation
    mark declared "declare"
    when (!text.isEmpty) do
      spaceBeforeWord
      put text
      space
    name.print
    when (!block.isAbsent) do
      space
      block.2 .inline
    newline
  | .enumMember, [name, value] => some do
    name.print
    value.after " = "
  | _, _ => none

/-! ## Expressions -/

/-- How expressions are printed. -/
def expressionLayout? (kind : Kind) (parts : List Part) (request : Request) : Option Print :=
  match kind, parts with
  | .name text, _ => some (put text)
  | .privateName text, _ => some do
    word "#"
    put text
  | .identifier text, _ => some do
    spaceBeforeWord
    put text
  | .nullLiteral, _ => some (keyword "null")
  | .boolLiteral value, _ => some (keyword (if value then "true" else "false"))
  | .numberLiteral value, _ => some (numberText value)
  | .bigintLiteral digits, _ => some do
    spaceBeforeWord
    put digits
    word "n"
  | .regexLiteral pattern flags, _ => some (regexText pattern flags)
  | .stringLiteral value escaped, _ => some (stringText value escaped)
  | .template quasis, values => some (templateText quasis (values.map Part.print))
  | .taggedTemplate, [tag, arguments, text] => some do
    tag.at Level.trailing
    arguments.print
    text.print
  | .this, _ => some (keyword "this")
  | .superRef, _ => some (keyword "super")
  | .metaProperty owner property, _ => some do
    spaceBeforeWord
    put owner
    word "."
    put property
  | .array, parts => some (arrayText parts)
  | .hole, _ => some nothing
  | .object, parts => some (objectText parts)
  | .property role isMethod shorthand computed, name :: value :: _ =>
    some (propertyText role isMethod shorthand computed name value)
  | .spread, [expression] => some do
    word "..."
    expression.item
  | .unary operator, [operand] => some do
    wrap (request.level ≥ Level.leading) do
      if operator.all Char.isAlpha then
        spaceBeforeWord
        put operator
        space
      else
        leadingOperator operator
      operand.2 (request.operand Level.exponent)
  | .update operator true, [operand] => some do
    wrap (request.level ≥ Level.leading) do
      leadingOperator operator
      operand.2 (request.operand Level.leading)
  | .update operator false, [operand] => some do
    wrap (request.level ≥ Level.trailing) do
      operand.2 (request.operand Level.trailing)
      put operator
  | .binary operator, [left, right] => some (operation false operator left right request)
  | .logical operator, [left, right] => some (operation true operator left right request)
  | .privateIn, [name, right] => some do
    wrap (request.level ≥ Level.compare) do
      name.print
      word " in "
      right.at Level.compare
  | .conditional, [test, consequent, alternate] => some do
    let wrapped := request.level ≥ Level.conditional
    let withoutIn := request.withoutIn && !wrapped
    wrap wrapped do
      test.2 ⟨Level.conditional, withoutIn, false, false⟩
      word " ? "
      consequent.at Level.yield
      word " : "
      alternate.2 ⟨Level.yield, withoutIn, false, false⟩
  | .assign operator, [target, value] => some do
    let page ← get
    let isObject :=
      match target.1.kind with
      | .objectTarget => true
      | _ => false
    let starts := atStatementStart page || atArrowStart page
    wrap ((starts && isObject) || request.level ≥ Level.assign) do
      target.2 (request.operand Level.comma)
      space
      put operator
      space
      value.2 (request.operand Level.comma)
  | .sequence, parts => some do
    wrap (request.level ≥ Level.comma)
      (commaSeparated (parts.map fun part => part.2 (request.operand Level.lowest)))
  | .await, [operand] => some do
    wrap (request.level ≥ Level.leading) do
      keyword "await "
      operand.2 (request.operand Level.exponent)
  | .yield delegates, [operand] => some do
    wrap (request.level ≥ Level.assign) do
      keyword "yield"
      when delegates (word "*")
      when (!operand.isAbsent) do
        space
        operand.2 (request.operand Level.yield)
  | .call isOptional pure, callee :: arguments :: all => some do
    let page ← get
    let starts := atStatementStart page
    let wrapped :=
      request.level ≥ Level.construct || request.withoutCall ||
        (pure && request.level ≥ Level.trailing)
    wrap wrapped do
      when pure (word "/* @__PURE__ */ ")
      when (pure && starts) (modify fun page => { page with statementStart := some page.size })
      callee.at Level.trailing
      when isOptional (word "?.")
      arguments.print
      argumentsText all
  | .construct pure, callee :: arguments :: all => some do
    wrap (request.level ≥ Level.call || (pure && request.level ≥ Level.trailing)) do
      when pure (word "/* @__PURE__ */ ")
      keyword "new "
      callee.2 ⟨Level.construct, false, true, false⟩
      arguments.print
      argumentsText all
  | .importCall phase, [source, options] => some do
    wrap (request.level ≥ Level.construct || request.withoutCall) do
      keyword "import"
      when (!phase.isEmpty) do
        word "."
        put phase
      word "("
      source.item
      options.valueAfter ", "
      word ")"
  | .member isOptional, [object, name] => some do
    object.2 ⟨Level.trailing, false, request.withoutCall, false⟩
    let page ← get
    if isOptional then word "?"
    else when (page.afterInteger == some page.size) space
    word "."
    name.print
  | .index isOptional, [object, index] => some do
    wrap (isLet object.1) (object.2 ⟨Level.trailing, false, request.withoutCall, false⟩)
    when isOptional (word "?.")
    word "["
    index.print
    word "]"
  | .chain, [expression] => some do
    wrap (request.level ≥ Level.trailing) (expression.2 request)
  | .parenthesized, [expression] =>
    if isFunction expression.1 then
      some (wrap true (expression.2 (request.operand Level.lowest)))
    else
      some (expression.2 request)
  | .asType, [expression, type] => some do
    wrap (request.level ≥ Level.shift) do
      expression.2 (request.operand Level.exponent)
      word " as "
      type.print
  | .satisfiesType, [expression, type] => some do
    wrap (request.level ≥ Level.shift) do
      expression.2 (request.operand Level.exponent)
      word " satisfies "
      type.print
  | .nonNull, [expression] => some do
    expression.2 (request.operand Level.trailing)
    word "!"
  | .instantiation, [expression, arguments] => some do
    expression.2 request
    arguments.print
  | .arrow isAsync isExpression harmless, [generics, parameters, result, body] => some do
    when harmless (word "/* @__NO_SIDE_EFFECTS__ */ ")
    wrap (request.level ≥ Level.assign) do
      mark isAsync "async"
      signatureText generics parameters result
      word " => "
      if isExpression then
        modify fun page => { page with arrowStart := some page.size }
        body.2 ⟨Level.comma, request.withoutIn, false, true⟩
      else
        body.print
  | .body, parts =>
    if request.sameLine then
      match parts with
      | [statement] => some (statement.2 request)
      | _ => some nothing
    else
      some (braces parts.isEmpty (bodyLines parts))
  | .function form isAsync isGenerator declared harmless,
    [name, generics, parameters, result, body] =>
    match form with
    | .method => some (methodText generics parameters result body)
    | .expression => some do
      when harmless (word "/* @__NO_SIDE_EFFECTS__ */ ")
      functionText form isAsync isGenerator declared name generics parameters result body
    | .declaration => some do
      when harmless do
        indentation
        word "/* @__NO_SIDE_EFFECTS__ */"
        newline
      indentation
      functionText form isAsync isGenerator declared name generics parameters result body
      newline
  | .classLike form abstracted declared,
    decorators :: name :: generics :: superclass :: arguments :: rest =>
    let text := classText form abstracted declared decorators name generics superclass arguments rest
    match form with
    | .declaration => some do
      indentation
      text
      newline
    | _ => some text
  | .implemented, [name, arguments] => some do
    name.print
    arguments.print
  | .classBody, members => some (braces members.isEmpty (members.forM memberText))
  | .method role computed isOptional found, [decorators, name, function] => some do
    decorators.print
    memberMarks (found.filter fun modifier => modifier != .override)
    roleMark role
    functionMarks function.1
    key computed name
    when isOptional (word "?")
    function.print
  | .field computed isOptional _ found, [decorators, name, type, value] => some do
    decorators.print
    memberMarks (found.filter fun modifier => modifier != .override)
    key computed name
    when isOptional (word "?")
    type.after ": "
    value.valueAfter " = "
  | .decorators, all => some do
    all.forM fun decorator => do
      decorator.print
      space
  | .decorator, [expression] => some do
    word "@"
    wrap (!isPlainDecorator expression.1) expression.print
  | .staticBlock, statements => some do
    word "static "
    braces statements.isEmpty (statements.forM Part.print)
  | _, _ => none

/-- How a node is printed, given how its children are printed. -/
def layout (tree : Tree) (docs : List Doc) : Doc :=
  fun request =>
    let parts := tree.children.zip docs
    match expressionLayout? tree.kind parts request with
    | some print => print
    | none =>
      match statementLayout? tree.kind parts request with
      | some print => print
      | none =>
        match patternLayout? tree.kind parts with
        | some print => print
        | none => (typeLayout? tree.kind parts).getD nothing

/-- How a tree is printed. -/
def document (tree : Tree) : Doc :=
  tree.fold layout

end Printer

/-- The text of an expression at the start of a statement. -/
def Tree.expressionText (tree : Tree) : Text :=
  let page : Printer.Page := { Printer.Page.blank with statementStart := some 0 }
  ((Printer.document tree (.plain Printer.Level.lowest)).run page).2.reversed.reverse

end LiveComponent
