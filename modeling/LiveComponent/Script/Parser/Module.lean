import LiveComponent.Script.Parser.Statement

namespace LiveComponent

/-!
# Imports and exports
-/

namespace Parser

/-- The name of something in another module: a word or a string. -/
def moduleName : P Tree := do
  if (← get).token.isString then stringLiteral else propertyWord

/-- An attribute of an import. -/
def importAttribute : P Tree := do
  let start ← here
  let key ← moduleName
  expect ":"
  let value ← stringLiteral
  node start .importAttribute [key, value]

/-- The text of the key of an attribute. -/
def attributeKey? : Tree → Option Text
  | .node .importAttribute _ [key, _] => keyText? key
  | _ => none

/-- The attributes of an import, if there are any; no two have the same key. -/
def importAttributes : P (List Tree) := do
  let state ← get
  if state.token.isWord "with" || (state.token.isWord "assert" && !state.newline) then
    advance
    expect "\x7b"
    let (all, _) ← commaList "\x7d" importAttribute
    expect "\x7d"
    let keys := all.filterMap attributeKey?
    faultIf (keys.eraseDups.length < keys.length)
    return all
  else
    return []

/-! ## Imports -/

/-- An entry of an import or export list: whether it is a type, its first name and the name after
`as`, if there is one. -/
structure Entry where
  typeOnly : Bool
  first : Tree
  second : Tree

/-- Whether the current token can name something in another module. -/
def atModuleName : P Bool := do
  let state ← get
  return state.token.isAnyWord || state.token.isString

/-- Read an entry.  The words `type` and `as` may be names too. -/
def entry : P Entry := do
  let first ← moduleName
  let isType :=
    match first.kind with
    | .name text => text == "type".toList
    | _ => false
  if isType && (← atModuleName) then
    if ← atWord "as" then
      let firstAs ← moduleName
      if ← atWord "as" then
        let secondAs ← moduleName
        if ← atModuleName then
          return ⟨true, firstAs, ← moduleName⟩
        else
          return ⟨false, first, secondAs⟩
      else if ← atModuleName then
        return ⟨false, first, ← moduleName⟩
      else
        return ⟨true, firstAs, .absent⟩
    else
      let name ← moduleName
      if ← eatWord "as" then
        return ⟨true, name, ← moduleName⟩
      else
        return ⟨true, name, .absent⟩
  else if ← eatWord "as" then
    return ⟨false, first, ← moduleName⟩
  else
    return ⟨false, first, .absent⟩

/-- Turn a name into a declared variable. -/
def declaredName (tree : Tree) : P Tree := do
  match tree with
  | .node (.name text) span _ =>
    if Token.isReserved text then
      fail
    else
      checkName (← get).flags text
      return .node (.binding text) span []
  | _ => fail

/-- An entry of an import list. -/
def importNamed : P Tree := do
  let start ← here
  let found ← entry
  faultIf (found.typeOnly && !(← get).typed)
  let name ← declaredName (if found.second.isAbsent then found.first else found.second)
  node start (.importNamed found.typeOnly) [found.first, name]

/-- All of a module under one name. -/
def importNamespace : P Tree := do
  let start ← here
  expect "*"
  expectWord "as"
  let name ← bindingName
  node start .importNamespace [name]

/-- Entries in braces, or all of a module under one name. -/
def importList : P (List Tree) := do
  if ← atMark "*" then
    return [← importNamespace]
  else
    expect "\x7b"
    let (all, _) ← commaList "\x7d" importNamed
    expect "\x7d"
    return all

/-- The specifiers, the source and the attributes of an import, after its first name. -/
def importRest (start : Nat) (typeOnly : Bool) (name : Tree) : P Tree := do
  let first :=
    if name.isAbsent then [] else [Tree.node .importDefault name.span [name]]
  let hasList ← if name.isAbsent then pure true else eat ","
  let more ← if hasList then importList else pure []
  expectWord "from"
  let source ← stringLiteral
  let attributes ← importAttributes
  endStatement
  let specifiers := first ++ more
  node start (.importDeclaration typeOnly (some specifiers.length))
    (specifiers ++ [source] ++ attributes)

/-- Whether an import of types starts after the word `type`. -/
def importsTypes : P Bool := do
  let state ← get
  if state.token.isWord "from" then
    ahead do
      advance
      let after ← get
      return after.token.isWord "from" || after.token.isMark "="
  else
    return state.token.isBindable || state.token.isMark "\x7b" || state.token.isMark "*"

/-- Whether the name is the word for a phase of loading and what is imported follows. -/
def importsInPhase (name : Tree) : P Bool := do
  match name.kind with
  | .binding text =>
    if text == "defer".toList then
      atMark "*"
    else if text == "source".toList then
      let state ← get
      if state.token.isWord "from" then
        ahead do
          advance
          atWord "from"
      else
        return state.token.isBindable
    else
      return false
  | _ => return false

/-- An import; the current token is its keyword. -/
def importDeclaration : P Tree := do
  let start ← here
  advance
  let state ← get
  if state.token.isString then
    let source ← stringLiteral
    let attributes ← importAttributes
    endStatement
    node start (.importDeclaration false none) (source :: attributes)
  else if state.token.isBindable then
    let name ← bindingName
    if state.token.isWord "type" && (← importsTypes) then
      faultIf (!state.typed)
      if (← get).token.isBindable then
        let name ← bindingName
        if ← atMark "=" then importEquals start true name else importRest start true name
      else
        importRest start true .absent
    else if (← get).typed && (← atMark "=") then
      importEquals start false name
    else if ← importsInPhase name then
      if ← atMark "*" then
        importRest start false .absent
      else
        importRest start false (← bindingName)
    else
      importRest start false name
  else
    importRest start false .absent

/-- An import, or an expression that starts with its keyword. -/
def importStatement : P Tree := do
  let isExpression ← ahead do
    advance
    atOneOf ["(", "."]
  if isExpression then expressionStatement else importDeclaration

/-! ## Exports -/

/-- An entry of an export list. -/
def exportName : P Tree := do
  let start ← here
  let found ← entry
  faultIf (found.typeOnly && !(← get).typed)
  let exported := if found.second.isAbsent then found.first else found.second
  node start (.exportName found.typeOnly) [found.first, exported]

/-- Whether an entry can name a variable of this module. -/
def namesVariable (tree : Tree) : Bool :=
  match tree with
  | .node (.exportName _) _ [.node (.name text) _ _, _] => !Token.isReserved text
  | _ => false

/-- Exports of names, from this module or from another one. -/
def exportNames (start : Nat) (typeOnly : Bool) : P Tree := do
  expect "\x7b"
  let (all, _) ← commaList "\x7d" exportName
  expect "\x7d"
  let source ←
    if ← eatWord "from" then do
      let source ← stringLiteral
      let _ ← importAttributes
      pure source
    else do
      faultIf (!all.all namesVariable)
      pure .absent
  endStatement
  node start (.exportNames typeOnly) (source :: all)

/-- The export of all of another module. -/
def exportAll (start : Nat) (typeOnly : Bool) : P Tree := do
  expect "*"
  let name ← if ← eatWord "as" then moduleName else pure .absent
  expectWord "from"
  let source ← stringLiteral
  let _ ← importAttributes
  endStatement
  node start (.exportAll typeOnly) [name, source]

/-- The decorators of an exported class, which stand either before the export or after it. -/
def moreDecorators (decorated : Tree) : P Tree := do
  let more ← decorators
  faultIf (!decorated.isAbsent && !more.isAbsent)
  return if decorated.isAbsent then more else decorated

/-- The default export; the decorators stand before it. -/
def exportDefault (start : Nat) (decorated : Tree) : P Tree := do
  advance
  let inner ← here
  let decorated ← moreDecorators decorated
  let state ← get
  let startsAbstract ← ahead do
    let isAbstract ← eatWord "abstract"
    let after ← get
    return isAbstract && after.token.isWord "class" && !after.newline
  let startsInterface ← ahead do
    let isInterface ← eatWord "interface"
    let after ← get
    return isInterface && after.token.isBindable && !after.newline
  let value ←
    if state.token.isWord "function" || (← atAsyncFunction) then
      functionDeclaration inner false
    else if state.token.isWord "class" then
      classLike decorated inner .declaration false false
    else if startsAbstract then do
      advance
      classLike decorated inner .declaration true false
    else if startsInterface then
      interfaceDeclaration inner
    else do
      let value ← want (.assignment true)
      endStatement
      pure value
  faultIf (!decorated.isAbsent && (match value.kind with
    | .classLike .. => false
    | _ => true))
  node start .exportDefault [value]

/-- An export; the current token is its keyword, and the decorators stand before it. -/
def exportDeclaration (decorated : Tree) : P Tree := do
  let start ← here
  advance
  let state ← get
  let exportsTypes ← ahead do
    let isType ← eatWord "type"
    let opens ← atOneOf ["\x7b", "*"]
    return isType && opens
  faultIf (!decorated.isAbsent && (exportsTypes || ["\x7b", "*", "="].any state.token.isMark))
  if state.token.isMark "\x7b" then
    exportNames start false
  else if state.token.isMark "*" then
    exportAll start false
  else if state.token.isWord "default" then
    exportDefault start decorated
  else if state.typed && state.token.isMark "=" then
    advance
    let value ← want (.assignment true)
    endStatement
    node start .exportAssignment [value]
  else if state.typed && state.token.isWord "as" then
    advance
    expectWord "namespace"
    let name ← propertyWord
    endStatement
    node start .exportNamespace [name]
  else if state.typed && exportsTypes then
    advance
    if ← atMark "*" then exportAll start true else exportNames start true
  else
    let inner ← declaration (← moreDecorators decorated) state.start
    node start .exportDeclaration [inner]

/-- A class with decorators, which may be exported. -/
def decoratedStatement : P Tree := do
  let start ← here
  let decorated ← decorators
  if ← atWord "export" then
    exportDeclaration decorated
  else
    declaration decorated start

/-- Mark the function that a statement declares, so that its calls have no effects. -/
def markHarmlessStatement : Tree → Tree
  | .node (.function .declaration isAsync isGenerator declared _) span parts =>
    .node (.function .declaration isAsync isGenerator declared true) span parts
  | .node (.bindings keyword declared) span
      (.node (.declarator definite) inner [target, type, value] :: others) =>
    let value := if keyword == "const".toList then markHarmless value else value
    .node (.bindings keyword declared) span
      (.node (.declarator definite) inner [target, type, value] :: others)
  | tree => tree

/-- A statement of any kind. -/
def statement (single : Bool) : P Tree := do
  let state ← get
  let tree ←
    if state.token.isWord "import" then importStatement
    else if state.token.isWord "export" then exportDeclaration .absent
    else if state.token.isMark "@" then decoratedStatement
    else plainStatement single
  return if state.notes.function then markHarmlessStatement tree else tree

end Parser

end LiveComponent
