import LiveComponent.Script.Parser.Type

namespace LiveComponent

/-!
# Functions and classes

Functions after their keyword, classes, and the members of classes.
-/

namespace Parser

/-! ## Functions -/

/-- The flags inside a function. -/
def functionFlags (isAsync isGenerator : Bool) (flags : Flags) : Flags :=
  { flags with allowIn := true, awaits := isAsync, yields := isGenerator }

/-- Whether one of the parameters has decorators. -/
def decoratesParameters (parts : List Tree) : Bool :=
  match parts with
  | [_, .node .parameters _ all, _, _] =>
    all.any fun tree =>
      match tree with
      | .node (.parameter ..) _ (decorated :: _) => !decorated.isAbsent
      | _ => false
  | _ => false

/-- What follows the name of a function.  Without types, and for methods of objects, a body is
required. -/
def functionRest
    (start : Nat)
    (form : FunctionForm)
    (isAsync isGenerator needsBody : Bool)
    (name : Tree) :
    P Tree := do
  let state ← get
  let parts ← withFlags (functionFlags isAsync isGenerator) do
    let generics ← typeParameters
    let all ← parameterList
    let result ← resultAnnotation
    let hasBody ← atMark "\x7b"
    if hasBody then
      return [generics, all, result, ← want .functionBody]
    else if needsBody || !state.typed then
      fail
    else
      return [generics, all, result, .absent]
  let hasBody :=
    match parts with
    | [_, _, _, body] => !body.isAbsent
    | _ => false
  if !hasBody then endStatement
  faultIf (state.flags.ambient && hasBody && form != .method)
  faultIf ((form != .method || needsBody) && decoratesParameters parts)
  node start (.function form isAsync isGenerator state.flags.ambient false) (name :: parts)

/-- A function from the word `function` on; its start may lie before. -/
def functionLike (start : Nat) (form : FunctionForm) (isAsync needsName : Bool) : P Tree := do
  expectWord "function"
  let isGenerator ← eat "*"
  let state ← get
  let flags :=
    if form == .expression then functionFlags isAsync isGenerator state.flags else state.flags
  if state.token.isBindable then
    let text ← takeWord
    checkName flags text
    let name ← node state.start (.binding text) []
    functionRest start form isAsync isGenerator (form == .expression) name
  else if needsName then
    fail
  else
    functionRest start form isAsync isGenerator (form == .expression) .absent

/-- Whether the current word is `async` before a function on the same line. -/
def atAsyncFunction : P Bool := do
  if ← atWord "async" then
    ahead do
      advance
      let state ← get
      return state.token.isWord "function" && !state.newline
  else
    return false

/-- Whether the number of parameters fits the role of a method. -/
def fitsRole (role : MethodRole) (parts : List Tree) : Bool :=
  let all :=
    (match parts with
    | [_, _, .node .parameters _ all, _, _] => all
    | _ => []).filter fun (tree : Tree) =>
      match tree.kind with
      | .thisParameter => false
      | _ => true
  match role with
  | .getter => all.isEmpty
  | .setter =>
    match all with
    | [.node (.parameter ..) _ _] => true
    | _ => false
  | _ => true

/-- The function of a method. -/
def methodFunction (role : MethodRole) (isAsync isGenerator needsBody : Bool) : P Tree := do
  let start ← here
  let function ← functionRest start .method isAsync isGenerator needsBody .absent
  faultIf (!fitsRole role function.children)
  return function

/-! ## Classes -/

/-- The text of a key that is not computed. -/
def keyText? : Tree → Option Text
  | .node (.name text) _ _ => some text
  | .node (.stringLiteral text _) _ _ => some text
  | _ => none

/-- Whether the key is the private name of a constructor. -/
def isPrivateConstructor : Tree → Bool
  | .node (.privateName text) _ _ => text == "constructor".toList
  | _ => false

/-- The key of a member of a class. -/
def memberKey (found : List Modifier) : P (Tree × Bool) := do
  let (key, computed) ← propertyKey
  faultIf (isPrivateConstructor key)
  faultIf (!computed && found.contains .static && keyText? key == some "prototype".toList &&
    !(← get).flags.ambient)
  return (key, computed)

/-- The flags inside a member that is no method. -/
def memberFlags (flags : Flags) : Flags :=
  { flags with allowIn := true, awaits := false, yields := false, returns := false }

/-- Split the type arguments off an expression. -/
def splitArguments : Tree → Tree × Tree
  | .node .instantiation _ [expression, arguments] => (expression, arguments)
  | expression => (expression, .absent)

/-- A field, after its key. -/
def fieldRest
    (start : Nat)
    (decorated : Tree)
    (found : List Modifier)
    (key : Tree)
    (computed isOptional : Bool) :
    P Tree := do
  let state ← get
  let definite ← if state.typed && !state.newline then eat "!" else pure false
  let type ← typeAnnotation
  let value ← if ← eat "=" then withFlags memberFlags (want (.assignment true)) else pure .absent
  endStatement
  faultIf (!computed && keyText? key == some "constructor".toList)
  node start (.field computed isOptional definite found) [decorated, key, type, value]

/-- A member of a class. -/
def classMember : P Tree := do
  let start ← here
  let decorated ← decorators
  let found ← modifiers
  let state ← get
  faultIf (!state.typed && found.any isTypeModifier)
  let opensBlock ← ahead do
    let isStatic ← eatWord "static"
    let opens ← atMark "\x7b"
    return isStatic && opens
  if opensBlock then
    advance
    faultIf (!decorated.isAbsent)
    let block ← withFlags (fun flags => { memberFlags flags with awaits := true }) (want .block)
    node start .staticBlock block.children
  else
    match ← accessorRole? with
    | some role =>
      let (key, computed) ← memberKey found
      faultIf (found.contains .async)
      faultIf (!computed && !found.contains .static && keyText? key == some "constructor".toList)
      let function ← methodFunction role false false false
      node start (.method role computed false found) [decorated, key, function]
    | none =>
      if state.typed && (← opensIndexSignature) then
        faultIf (!decorated.isAbsent)
        indexSignature start found
      else
        let isGenerator ← eat "*"
        let isAsync := found.contains .async
        let (key, computed) ← memberKey found
        let isOptional ← if state.typed then eat "?" else pure false
        if isGenerator || (← atOneOf ["(", "<"]) then
          let constructs := !computed && !found.contains .static &&
            keyText? key == some "constructor".toList
          faultIf (constructs && (isGenerator || isAsync || !decorated.isAbsent))
          let role : MethodRole := if constructs then .constructor else .plain
          let function ← methodFunction role isAsync isGenerator false
          node start (.method role computed isOptional found) [decorated, key, function]
        else
          faultIf isAsync
          fieldRest start decorated found key computed isOptional

/-- The body of a class. -/
def classBody : P Tree := do
  let start ← here
  expect "\x7b"
  let members ← rounds
    (fun members => do
      if ← eat ";" then
        return .again members
      else if ← atMark "\x7d" then
        return .done members.reverse
      else
        return .again ((← classMember) :: members))
    []
  expect "\x7d"
  node start .classBody members

/-- The types that a class implements. -/
def implementedTypes : P (List Tree) := do
  if ← eatWord "implements" then
    separated "," do
      let start ← here
      let name ← typeName
      let arguments ← typeArguments
      node start .implemented [name, arguments]
  else
    return []

/-- A class from the word `class` on; its start and its decorators may lie before. -/
def classLike
    (decorated : Tree)
    (start : Nat)
    (form : FunctionForm)
    (abstracted needsName : Bool) :
    P Tree := do
  expectWord "class"
  let state ← get
  let isNamed := state.token.isBindable && !state.token.isWord "implements"
  let name ← optionalPart isNamed bindingName
  faultIf (needsName && !isNamed)
  let generics ← typeParameters
  let (superclass, arguments) ←
    if ← eatWord "extends" then do
      let (superclass, arguments) := splitArguments (← want .leftHand)
      let arguments ←
        if arguments.isAbsent && state.typed then typeArguments else pure arguments
      pure (superclass, arguments)
    else
      pure (.absent, .absent)
  let implemented ← implementedTypes
  faultIf (!state.typed && !implemented.isEmpty)
  let body ← withFlags (fun flags => { flags with ambient := false }) classBody
  node start (.classLike form abstracted state.flags.ambient)
    ([decorated, name, generics, superclass, arguments] ++ implemented ++ [body])

end Parser

end LiveComponent
