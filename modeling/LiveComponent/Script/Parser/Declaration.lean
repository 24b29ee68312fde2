import LiveComponent.Script.Parser.Expression

namespace LiveComponent

/-!
# Declarations

Variables, and the declarations that belong to the grammar of types.
-/

namespace Parser

/-! ## Variables -/

/-- A variable or pattern with its type and its value. -/
def declarator : P Tree := do
  let start ← here
  let target ← want .pattern
  let state ← get
  let isName :=
    match target.kind with
    | .binding _ => true
    | _ => false
  let definite ← if state.typed && isName && !state.newline then eat "!" else pure false
  let type ← typeAnnotation
  let value ← if ← eat "=" then want (.assignment true) else pure .absent
  node start (.declarator definite) [target, type, value]

/-- Whether a declarator lacks a value that the keyword or its pattern demands. -/
def lacksValue (keyword : Text) (tree : Tree) : Bool :=
  match tree with
  | .node (.declarator _) _ [target, _, value] =>
    value.isAbsent &&
      (match target.kind with
        | .binding _ => ["const", "using", "await using"].contains (String.ofList keyword)
        | _ => true)
  | _ => false

/-- Variables after their keyword, without the end of the statement. -/
def bindingList (start : Nat) (keyword : Text) : P Tree := do
  let all ← separated "," declarator
  node start (.bindings keyword (← get).flags.ambient) all

/-- Remember a fault if a variable lacks a value that it needs. -/
def checkValues (keyword : Text) (tree : Tree) : P Unit := do
  let state ← get
  faultIf (!state.flags.ambient && tree.children.any (lacksValue keyword))

/-- A statement that declares variables; the current token is its keyword. -/
def variableStatement (keyword : String) : P Tree := do
  let start ← here
  expectWord keyword
  let tree ← bindingList start keyword.toList
  checkValues keyword.toList tree
  endStatement
  node start tree.kind tree.children

/-! ## Declarations of types -/

/-- A name for a type. -/
def typeAlias (start : Nat) : P Tree := do
  expectWord "type"
  let name ← bindingName
  let generics ← typeParameters
  expect "="
  let type ← freeType
  endStatement
  node start (.typeAlias (← get).flags.ambient) [name, generics, type]

/-- A type that an interface extends. -/
def extendedType : P Tree := do
  let start ← here
  let (expression, arguments) := splitArguments (← want .leftHand)
  let arguments ← if arguments.isAbsent then typeArguments else pure arguments
  node start .extended [expression, arguments]

/-- An interface. -/
def interfaceDeclaration (start : Nat) : P Tree := do
  expectWord "interface"
  let name ← bindingName
  let generics ← typeParameters
  let all ← if ← eatWord "extends" then separated "," extendedType else pure []
  let members ← typeLiteral
  node start (.interface (← get).flags.ambient) ([name, generics] ++ all ++ [members])

/-- A member of an enumeration. -/
def enumMember : P Tree := do
  let start ← here
  let (key, computed) ← propertyKey
  faultIf (match key.kind with
    | .name _ => false
    | .stringLiteral _ _ => false
    | .template [_] => !computed
    | _ => true)
  let value ← if ← eat "=" then want (.assignment true) else pure .absent
  node start .enumMember [key, value]

/-- An enumeration. -/
def enumDeclaration (start : Nat) (constant : Bool) : P Tree := do
  expectWord "enum"
  let name ← bindingName
  expect "\x7b"
  let (members, _) ← withFlags (fun flags => { flags with awaits := false, yields := false })
    (commaList "\x7d" enumMember)
  expect "\x7d"
  node start (.enum constant (← get).flags.ambient) (name :: members)

/-- Statements in braces. -/
def statementBlock : P Tree := do
  let start ← here
  expect "\x7b"
  let all ← manyUntil (atMark "\x7d") (want (.statement false))
  expect "\x7d"
  node start .block all

/-- The dotted name of a namespace; each part is a declaration of its own. -/
def namespaceName : P Tree := do
  let start ← here
  match ← separated "." bindingName with
  | [] => fail
  | head :: names =>
    return names.foldl
      (fun left name => .node .qualifiedName ⟨start, name.span.stop⟩ [left, name])
      head

/-- A namespace or module with a name or a string. -/
def namespaceDeclaration (start : Nat) : P Tree := do
  let keyword ← takeWord
  let name ← if (← get).token.isString then stringLiteral else namespaceName
  let state ← get
  if state.token.isMark "\x7b" then
    let block ← statementBlock
    node start (.namespaceLike keyword state.flags.ambient) [name, block]
  else
    endStatement
    node start (.namespaceLike keyword state.flags.ambient) [name, .absent]

/-- The global scope. -/
def globalDeclaration (start : Nat) : P Tree := do
  let state ← get
  let name ← propertyWord
  let block ← statementBlock
  node start (.namespaceLike [] state.flags.ambient) [name, block]

/-- A name for a module or for something in a namespace, after the name. -/
def importEquals (start : Nat) (typeOnly : Bool) (name : Tree) : P Tree := do
  expect "="
  let requires ← ahead do
    let isRequire ← eatWord "require"
    let opens ← atMark "("
    return isRequire && opens
  if requires then
    let inner ← here
    advance
    expect "("
    let source ← stringLiteral
    expect ")"
    let reference ← node inner .externalModule [source]
    endStatement
    node start (.importEquals typeOnly) [name, reference]
  else
    let reference ← typeName
    endStatement
    node start (.importEquals typeOnly) [name, reference]

/-- Step past the words before a declaration and look at what they lead to.  The words are those that
may stand before it. -/
def leadsToDeclaration : P Bool :=
  rounds
    (fun _ => do
      let state ← get
      if ["var", "let", "const", "function", "class", "enum"].any state.token.isWord then
        return .done true
      else if ["interface", "type"].any state.token.isWord then
        advance
        let after ← get
        return .done (after.token.isBindable && !after.newline)
      else if ["module", "namespace"].any state.token.isWord then
        advance
        let after ← get
        return .done ((after.token.isBindable || after.token.isString) && !after.newline)
      else if ["abstract", "accessor", "async", "declare", "private", "protected", "public",
          "readonly"].any state.token.isWord then
        advance
        if (← get).newline then return .done false else return .again ()
      else if state.token.isWord "global" then
        advance
        let after ← get
        return .done (after.token.isMark "\x7b")
      else if state.token.isWord "import" then
        advance
        let after ← get
        return .done (after.token.isString || after.token.isMark "*" || after.token.isMark "\x7b" ||
          after.token.isAnyWord)
      else if state.token.isWord "static" then
        advance
        return .again ()
      else
        return .done false)
    ()

/-- Whether the current word starts a declaration of the grammar of types. -/
def atTypeDeclaration : P Bool := do
  let state ← get
  if state.typed && ["interface", "type", "module", "namespace", "declare", "enum", "private",
      "protected", "public", "abstract", "accessor", "static", "readonly", "global"].any
      state.token.isWord then
    ahead leadsToDeclaration
  else
    return false

/-- A function declaration, which may be asynchronous. -/
def functionDeclaration (start : Nat) (needsName : Bool) : P Tree := do
  let isAsync ← eatWord "async"
  functionLike start .declaration isAsync needsName

/-- A declaration with the words before it; `start` is where it begins.  Only a class may have
decorators. -/
def declaration (decorated : Tree) (start : Nat) : P Tree := do
  let found ← modifiers
  let state ← get
  faultIf (!decorated.isAbsent && !state.token.isWord "class")
  faultIf (found.any fun modifier =>
    modifier != .declared && modifier != .abstracted && modifier != .async)
  faultIf (!state.typed && found.any (· != .async))
  let ambient := found.contains .declared
  withFlags (fun flags => { flags with ambient := flags.ambient || ambient }) do
    let isConstEnum ← ahead do
      let isConst ← eatWord "const"
      let isEnum ← atWord "enum"
      return isConst && isEnum && state.typed
    if isConstEnum then
      advance
      enumDeclaration start true
    else if state.token.isWord "class" then
      classLike decorated start .declaration (found.contains .abstracted) true
    else if found.contains .abstracted then
      fail
    else if state.token.isWord "function" then
      functionLike start .declaration (found.contains .async) true
    else if found.contains .async then
      fail
    else if state.token.isWord "var" then
      let tree ← variableStatement "var"
      return .node tree.kind ⟨start, tree.span.stop⟩ tree.children
    else if state.token.isWord "let" then
      let tree ← variableStatement "let"
      return .node tree.kind ⟨start, tree.span.stop⟩ tree.children
    else if state.token.isWord "const" then
      let tree ← variableStatement "const"
      return .node tree.kind ⟨start, tree.span.stop⟩ tree.children
    else if !state.typed then
      fail
    else if state.token.isWord "type" then
      typeAlias start
    else if state.token.isWord "interface" then
      interfaceDeclaration start
    else if state.token.isWord "enum" then
      enumDeclaration start false
    else if state.token.isWord "module" || state.token.isWord "namespace" then
      namespaceDeclaration start
    else if state.token.isWord "global" then
      globalDeclaration start
    else if state.token.isWord "import" then
      advance
      importEquals start false (← bindingName)
    else
      fail

end Parser

end LiveComponent
