import LiveComponent.Script.Parser.Binding

namespace LiveComponent

/-!
# Types

The grammar of types, of their members, and of lists of type parameters and arguments.
-/

namespace Parser

/-- A type in a place of its own, where it may be conditional. -/
def freeType : P Tree :=
  withFlags (fun flags => { flags with noConditional := false }) (want .anyType)

/-! ## Type parameters and arguments -/

/-- The modifiers of type parameters. -/
def typeParameterModifiers : P (List Text) :=
  rounds
    (fun seen => do
      let found ← attemptOption do
        match (← get).token with
        | .word text _ =>
          if text == "const".toList || text == "in".toList || text == "out".toList then
            advance
            let state ← get
            if state.token.isBindable || state.token.isWord "in" || state.token.isWord "const" then
              return some text
            else return none
          else return none
        | _ => return none
      match found with
      | some text => return .again (text :: seen)
      | none => return .done seen.reverse)
    []

/-- A type parameter with its bound and its default. -/
def typeParameter : P Tree := do
  let start ← here
  let found ← typeParameterModifiers
  let name ← bindingName
  let bound ← if ← eatWord "extends" then freeType else pure .absent
  let value ← if ← eat "=" then freeType else pure .absent
  node start (.typeParameter found) [name, bound, value]

/-- A list of type parameters, if there is one. -/
def typeParameters : P Tree := do
  let state ← get
  if state.typed && state.token.isMark "<" then
    advance
    let (all, _) ← commaList ">" typeParameter
    expect ">"
    faultIf all.isEmpty
    node state.start .typeParameters all
  else
    return .absent

/-- A list of type arguments; the current token is an opening angle bracket. -/
def typeArgumentList : P Tree := do
  let start ← here
  expect "<"
  let (all, _) ← commaList ">" freeType
  expect ">"
  faultIf all.isEmpty
  node start .typeArguments all

/-- A list of type arguments on the same line, if there is one. -/
def typeArguments : P Tree := do
  if (← get).newline then
    return .absent
  else
    rereadOpenAngle
    if ← atMark "<" then typeArgumentList else return .absent

/-! ## Names of types -/

/-- A dotted name. -/
def dottedName (first : P Tree) : P Tree := do
  let start ← here
  let head ← first
  rounds
    (fun left => do
      if ← eat "." then
        return .again (← node start .qualifiedName [left, ← propertyWord])
      else
        return .done left)
    head

/-- The name of a type, in which every word may occur. -/
def typeName : P Tree :=
  dottedName propertyWord

/-- A reference to a type. -/
def typeReference : P Tree := do
  let start ← here
  let name ← typeName
  let arguments ← typeArguments
  node start .typeReference [name, arguments]

/-! ## Functions -/

/-- A result type after the given mark, which may be a statement about a parameter. -/
def resultType : P Tree := do
  let start ← here
  let subject ← attemptOption do
    if (← get).token.isAnyWord then
      let name ← propertyWord
      let state ← get
      if state.token.isWord "is" && !state.newline then
        advance
        return some name
      else return none
    else return none
  match subject with
  | some name =>
    let type ← freeType
    node start (.typePredicate false) [name, type]
  | none => freeType

/-- A result type after a colon, if there is one. -/
def resultAnnotation : P Tree := do
  let state ← get
  if state.typed && state.token.isMark ":" then
    advance
    resultType
  else
    return .absent

/-- Skip the start of a parameter. -/
def skipParameterStart : P Bool := do
  let _ ← modifiers
  let state ← get
  if state.token.isBindable || state.token.isWord "this" then
    advance
    return true
  else if state.token.isMark "[" || state.token.isMark "\x7b" then
    let _ ← want .pattern
    return !(← get).faulty || state.faulty
  else
    return false

/-- Whether the current parenthesis opens the parameters of a function type. -/
def opensFunctionType : P Bool :=
  ahead do
    advance
    if ← atOneOf [")", "..."] then
      return true
    else if ← skipParameterStart then
      if ← atOneOf [":", ",", "?", "="] then
        return true
      else if ← eat ")" then
        atMark "=>"
      else
        return false
    else
      return false

/-- Whether the current token starts the type of a function. -/
def startsFunctionType : P Bool := do
  let state ← get
  if state.token.isMark "<" || state.token.isWord "new" then
    return true
  else if state.token.isMark "(" then
    opensFunctionType
  else if state.token.isWord "abstract" then
    ahead do
      advance
      atWord "new"
  else
    return false

/-- The type of a function or of a constructor. -/
def functionType : P Tree := do
  let start ← here
  let abstracted ← eatWord "abstract"
  let constructs ← eatWord "new"
  let generics ← typeParameters
  let all ← parameterList
  expect "=>"
  let result ← resultType
  node start (if constructs then .constructorType abstracted else .functionType)
    [generics, all, result]

/-! ## Members -/

/-- End a member of a type. -/
def endMember : P Unit := do
  if ← eat "," then return ()
  else endStatement

/-- Whether the current bracket opens an index signature. -/
def opensIndexSignature : P Bool := do
  if ← atMark "[" then
    ahead do
      advance
      if ← atOneOf ["...", "]"] then
        return true
      else
        let _ ← modifiers
        if (← get).token.isBindable then
          advance
          if ← atOneOf [":", ","] then return true
          else if ← eat "?" then atOneOf [":", ",", "]"]
          else return false
        else
          return false
  else
    return false

/-- An index signature. -/
def indexSignature (start : Nat) (found : List Modifier) : P Tree := do
  expect "["
  let name ← takeWord
  expect ":"
  let key ← freeType
  expect "]"
  if ← atMark ":" then
    let type ← typeAnnotation
    endMember
    node start (.indexSignature name found) [key, type]
  else
    fail

/-- Whether the current word is `get` or `set` before a name. -/
def accessorRole? : P (Option MethodRole) :=
  attemptOption do
    let state ← get
    let role? :=
      if state.token.isWord "get" then some MethodRole.getter
      else if state.token.isWord "set" then some MethodRole.setter
      else none
    match role? with
    | some role =>
      advance
      let after ← get
      let isPrivate :=
        match after.token with
        | .privateName _ => true
        | _ => false
      if after.token.isPropertyName || after.token.isMark "[" || isPrivate then
        return some role
      else return none
    | none => return none

/-- The type parameters, parameters and result type of a signature. -/
def signature : P (List Tree) := do
  let generics ← typeParameters
  let all ← parameterList
  let result ← resultAnnotation
  return [generics, all, result]

/-- A member of an object type. -/
def typeMember : P Tree := do
  let start ← here
  if ← atOneOf ["(", "<"] then
    let parts ← signature
    endMember
    node start .callSignature parts
  else
    let constructs ← ahead do
      let isNew ← eatWord "new"
      let opens ← atOneOf ["(", "<"]
      return isNew && opens
    if constructs then
      advance
      let parts ← signature
      endMember
      node start .constructSignature parts
    else
      let found ← modifiers
      faultIf (found.any fun modifier => modifier != .readonly)
      match ← accessorRole? with
      | some role =>
        let (key, computed) ← propertyKey
        let parts ← signature
        endMember
        node start (.methodSignature role computed false) (key :: parts)
      | none =>
        if ← opensIndexSignature then
          indexSignature start found
        else
          let (key, computed) ← propertyKey
          let isOptional ← eat "?"
          if ← atOneOf ["(", "<"] then
            faultIf (!found.isEmpty)
            let parts ← signature
            endMember
            node start (.methodSignature .plain computed isOptional) (key :: parts)
          else
            let type ← typeAnnotation
            endMember
            node start (.propertySignature computed isOptional (found.contains .readonly))
              [key, type]

/-- The members of an object type in their braces. -/
def typeLiteral : P Tree := do
  let start ← here
  expect "\x7b"
  let members ← manyUntil (atMark "\x7d") typeMember
  expect "\x7d"
  node start .typeLiteral members

/-- Whether the current brace opens a mapped type. -/
def opensMappedType : P Bool :=
  ahead do
    advance
    if ← atOneOf ["+", "-"] then
      advance
      atWord "readonly"
    else
      let _ ← eatWord "readonly"
      if ← eat "[" then
        if (← get).token.isAnyWord then
          advanceName
          atWord "in"
        else
          return false
      else
        return false

/-- How a mapped type changes a property; `present` is the step past its sign. -/
def mappedChange (present : P Bool) : P MappedChange := do
  if ← eat "+" then
    if ← present then return .added else fail
  else if ← eat "-" then
    if ← present then return .removed else fail
  else if ← present then
    return .present
  else
    return .unchanged

/-- A mapped type. -/
def mappedType : P Tree := do
  let start ← here
  expect "\x7b"
  let readonlyness ← mappedChange (eatWord "readonly")
  expect "["
  let name ← bindingName
  expectWord "in"
  let keys ← freeType
  let renamed ← if ← eatWord "as" then freeType else pure .absent
  expect "]"
  let optionality ← mappedChange (eat "?")
  let type ← if ← eat ":" then freeType else pure .absent
  let _ ← eat ";"
  expect "\x7d"
  node start (.mappedType optionality readonlyness) [name, keys, renamed, type]

/-! ## Types -/

/-- Whether the current word labels an element of a tuple. -/
def labelsElement : P Bool :=
  ahead do
    let _ ← eat "..."
    if (← get).token.isAnyWord then
      advanceName
      let _ ← eat "?"
      atMark ":"
    else
      return false

/-- An element of a tuple. -/
def tupleElement : P Tree := do
  let start ← here
  if ← labelsElement then
    let isRest ← eat "..."
    let inner ← here
    let label ← propertyWord
    let isOptional ← eat "?"
    expect ":"
    let type ← freeType
    let member ← node inner (.namedTupleMember isOptional) [label, type]
    if isRest then node start .restType [member] else return member
  else if ← eat "..." then
    let type ← freeType
    node start .restType [type]
  else
    match ← freeType with
    | .node (.markedType '?' false) span [type] => return .node .optionalType span [type]
    | type => return type

/-- A type that is a template. -/
def templateType : P Tree := do
  let state ← get
  match state.token with
  | .template raw true _ =>
    advance
    node state.start (.templateType [raw]) []
  | .template raw false _ =>
    advance
    rounds
      (fun (quasis, types) => do
        let type ← freeType
        if ← atMark "\x7d" then
          reread (Lexer.readTemplate ((← get).here.drop 1))
          match (← get).token with
          | .template raw complete _ =>
            advance
            if complete then
              return .done (← node state.start (.templateType (raw :: quasis).reverse)
                (type :: types).reverse)
            else
              return .again (raw :: quasis, type :: types)
          | _ => fail
        else
          fail)
      ([raw], [])
  | _ => fail

/-- The words that are types of their own. -/
def keywordTypes : List Text :=
  ["any", "unknown", "string", "bigint", "number", "symbol", "boolean", "undefined", "never",
    "object", "null", "void"].map String.toList

/-- A type that is imported from a module. -/
def importType : P Tree := do
  let start ← here
  expectWord "import"
  expect "("
  let source ← freeType
  let options ← if ← eat "," then want (.assignment true) else pure .absent
  expect ")"
  let qualifier ← if ← eat "." then dottedName propertyWord else pure .absent
  let arguments ← typeArguments
  node start .importType [source, options, qualifier, arguments]

/-- The type of a variable. -/
def typeQuery : P Tree := do
  let start ← here
  expectWord "typeof"
  if ← atWord "import" then
    let type ← importType
    node start .typeQuery [type, .absent]
  else
    let name ← typeName
    let arguments ← typeArguments
    node start .typeQuery [name, arguments]

/-- Whether a word on the same line follows the current one. -/
def wordFollows : P Bool :=
  ahead do
    advance
    let state ← get
    return state.token.isAnyWord && !state.newline

/-- A statement about a parameter after `asserts`. -/
def assertedPredicate : P Tree := do
  let start ← here
  advance
  let name ← propertyWord
  let type ← if ← eatWord "is" then freeType else pure .absent
  node start (.typePredicate true) [name, type]

/-- A type without operators. -/
def simpleType : P Tree := do
  let state ← get
  let start := state.start
  match state.token with
  | .word text _ =>
    let dotted ← ahead do
      advance
      atMark "."
    if keywordTypes.contains text && !dotted then
      advance
      node start (.keywordType text) []
    else if text == "this".toList then
      advance
      let after ← get
      if after.token.isWord "is" && !after.newline then
        advance
        let name := Tree.node (.name text) ⟨start, state.stop⟩ []
        let type ← freeType
        node start (.typePredicate false) [name, type]
      else
        node start .thisType []
    else if text == "typeof".toList then typeQuery
    else if text == "import".toList then importType
    else if text == "true".toList || text == "false".toList then
      node start .literalType [← literal]
    else if text == "asserts".toList && (← wordFollows) then assertedPredicate
    else typeReference
  | .mark "\x7b" => if ← opensMappedType then mappedType else typeLiteral
  | .mark "[" =>
    advance
    let (elements, _) ← commaList "]" tupleElement
    expect "]"
    node start .tupleType elements
  | .mark "(" =>
    advance
    let type ← freeType
    expect ")"
    node start .parenthesizedType [type]
  | .mark "?" =>
    advance
    if ← atOneOf [",", "\x7d", ")", ">", "=", "|"] then
      node start .unknownType []
    else
      let type ← freeType
      node start (.markedType '?' true) [type]
  | .mark "!" =>
    advance
    let type ← want .operatorType
    node start (.markedType '!' true) [type]
  | .mark "-" =>
    advance
    if (← get).token.isNumber then
      let value ← literal
      let negative ← node start (.unary "-") [value]
      node start .literalType [negative]
    else
      fail
  | .template .. => templateType
  | token =>
    if token.isString || token.isNumber then node start .literalType [← literal] else fail

/-- Whether the current token can start a type. -/
def startsType : P Bool := do
  let state ← get
  match state.token with
  | .mark "-" =>
    ahead do
      advance
      return (← get).token.isNumber
  | .mark "(" =>
    ahead do
      advance
      let after ← get
      return after.token.isAnyWord || after.token.isLiteral || after.token.isTemplate ||
        [")", "\x7b", "[", "(", "<", "|", "&", "*", "?", "!", "...", "-", "@"].any after.token.isMark
  | token =>
    return token.isBindable || token.isLiteral || token.isTemplate ||
      ["\x7b", "[", "<", "|", "&", "*", "?", "!", "..."].any token.isMark ||
      ["void", "null", "this", "typeof", "new", "import", "function"].any token.isWord

/-- A type followed by any number of brackets and marks. -/
def postfixType : P Tree := do
  let start ← here
  let type ← simpleType
  rounds
    (fun type => do
      let state ← get
      if state.newline then
        return .done type
      else if ← eat "[" then
        if ← eat "]" then
          return .again (← node start .arrayType [type])
        else
          let index ← freeType
          expect "]"
          return .again (← node start .indexedType [type, index])
      else if ← eat "!" then
        return .again (← node start (.markedType '!' false) [type])
      else if state.token.isMark "?" then
        let isCondition ← ahead do
          advance
          startsType
        if isCondition then
          return .done type
        else
          advance
          return .again (← node start (.markedType '?' false) [type])
      else
        return .done type)
    type

/-- A type parameter after `infer`. -/
def inferredType : P Tree := do
  let start ← here
  advance
  let inner ← here
  let name ← bindingName
  let flags := (← get).flags
  let bound ← attemptOption do
    if ← eatWord "extends" then
      let type ← withFlags (fun flags => { flags with noConditional := true }) (want .anyType)
      if !flags.noConditional && (← atMark "?") then return none else return some type
    else
      return none
  let parameter ← node inner (.typeParameter []) [name, bound.getD .absent, .absent]
  node start .inferType [parameter]

/-- A type with the operators that stand before it. -/
def operatorType : P Tree := do
  let state ← get
  match state.token with
  | .word text _ =>
    if text == "keyof".toList || text == "unique".toList || text == "readonly".toList then
      advance
      let type ← want .operatorType
      faultIf (text == "readonly".toList && (match type.kind with
        | .arrayType | .tupleType => false
        | _ => true))
      node state.start (.typeOperator text) [type]
    else if text == "infer".toList then
      inferredType
    else
      withFlags (fun flags => { flags with noConditional := false }) postfixType
  | _ => withFlags (fun flags => { flags with noConditional := false }) postfixType

/-- Types joined by a mark, which may also stand before the first one. -/
def joinedTypes (mark : String) (kind : Kind) (item : P Tree) : P Tree := do
  let start ← here
  let leads ← eat mark
  let types ← separated mark item
  match types with
  | [type] => if leads then node start kind [type] else return type
  | _ => node start kind types

/-- Types joined by operators; a function among them needs parentheses. -/
def unionType : P Tree :=
  joinedTypes "|" .unionType (joinedTypes "&" .intersectionType operatorType)

/-- A type of any form. -/
def anyType : P Tree := do
  if ← startsFunctionType then
    functionType
  else
    let start ← here
    let type ← unionType
    let state ← get
    if !state.flags.noConditional && !state.newline && state.token.isWord "extends" then
      advance
      let bound ← withFlags (fun flags => { flags with noConditional := true }) (want .anyType)
      expect "?"
      let consequent ← freeType
      expect ":"
      let alternate ← freeType
      node start .conditionalType [type, bound, consequent, alternate]
    else
      return type

end Parser

end LiveComponent
