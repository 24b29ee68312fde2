import LiveComponent.Script.Parser.State

namespace LiveComponent

/-!
# Names, patterns and parameters

The parts of the grammar that declare variables, and the names of properties.
-/

namespace Parser

/-! ## Names -/

/-- The faults of a word as the name of a variable: the operators `await` and `yield`, where the
given flags make them operators. -/
def checkName (flags : Flags) (text : Text) : P Unit :=
  faultIf
    ((flags.awaits && text == "await".toList) || (flags.yields && text == "yield".toList))

/-- Take the current word as a name of any kind. -/
def takeWord : P Text := do
  match (← get).token with
  | .word text _ =>
    advanceName
    return text
  | _ => fail

/-- The name of a property or label. -/
def propertyWord : P Tree := do
  let start ← here
  let text ← takeWord
  node start (.name text) []

/-- The name of a variable where it is declared. -/
def bindingName : P Tree := do
  let state ← get
  if state.token.isBindable then
    let text ← takeWord
    checkName state.flags text
    node state.start (.binding text) []
  else
    fail

/-- The name of a variable where it is used. -/
def identifier : P Tree := do
  let state ← get
  if state.token.isBindable then
    let text ← takeWord
    checkName state.flags text
    node state.start (.identifier text) []
  else
    fail

/-- The label of a jump or statement. -/
def labelName : P Tree := do
  let state ← get
  if state.token.isBindable then
    checkName state.flags (← takeWord)
    match state.token with
    | .word text _ => node state.start (.name text) []
    | _ => fail
  else
    fail

/-- A string. -/
def stringLiteral : P Tree := do
  let state ← get
  match state.token with
  | .string value escaped =>
    advance
    node state.start (.stringLiteral value escaped) []
  | _ => fail

/-- A literal other than a template or a regular expression. -/
def literal : P Tree := do
  let state ← get
  match state.token with
  | .number value =>
    advance
    node state.start (.numberLiteral value) []
  | .bigint digits =>
    advance
    node state.start (.bigintLiteral digits) []
  | .string _ _ => stringLiteral
  | .word text _ =>
    advance
    if text == "null".toList then node state.start .nullLiteral []
    else if text == "true".toList then node state.start (.boolLiteral true) []
    else if text == "false".toList then node state.start (.boolLiteral false) []
    else fail
  | _ => fail

/-- A name that starts with `#`. -/
def privateName : P Tree := do
  let state ← get
  match state.token with
  | .privateName text =>
    advance
    node state.start (.privateName text) []
  | _ => fail

/-- Flags inside brackets. -/
def bracketed (flags : Flags) : Flags :=
  { flags with allowIn := true, decorates := false }

/-- The name of a property, and whether it is computed. -/
def propertyKey : P (Tree × Bool) := do
  let state ← get
  match state.token with
  | .privateName _ => return (← privateName, false)
  | .mark "[" =>
    advance
    let key ← withFlags bracketed (want (.assignment true))
    expect "]"
    return (key, true)
  | token =>
    if token.isString || token.isNumber then return (← literal, false)
    else return (← propertyWord, false)

/-! ## Modifiers -/

/-- The modifier that a word stands for. -/
def modifierOf? (text : Text) : Option Modifier :=
  [
    ("declare".toList, Modifier.declared),
    ("abstract".toList, Modifier.abstracted),
    ("public".toList, Modifier.publicAccess),
    ("protected".toList, Modifier.protectedAccess),
    ("private".toList, Modifier.privateAccess),
    ("static".toList, Modifier.static),
    ("override".toList, Modifier.override),
    ("readonly".toList, Modifier.readonly),
    ("accessor".toList, Modifier.accessor),
    ("async".toList, Modifier.async)
  ].lookup text

/-- Whether the current token may follow a modifier. -/
def canFollowModifier : P Bool := do
  let state ← get
  return state.token.isPropertyName || state.token.isMark "[" || state.token.isMark "\x7b" ||
    state.token.isMark "*" || state.token.isMark "..." ||
    (match state.token with
      | .privateName _ => true
      | _ => false)

/-- The modifier at the current token, if what follows shows that it is one. -/
def modifier? (seen : List Modifier) : P (Option Modifier) :=
  attemptOption do
    match (← get).token with
    | .word text _ =>
      match modifierOf? text with
      | some found =>
        advance
        if found == .static && (← atMark "\x7b") then
          return none
        else if found == .static && seen.contains .static then
          return none
        else if found != .static && (← get).newline then
          return none
        else if ← canFollowModifier then
          return some found
        else
          return none
      | none => return none
    | _ => return none

/-- The modifiers before a member, which must be distinct. -/
def modifiers : P (List Modifier) :=
  rounds
    (fun seen => do
      match ← modifier? seen with
      | some found =>
        faultIf (seen.contains found)
        return .again (found :: seen)
      | none => return .done seen.reverse)
    []

/-- Whether the modifier belongs to the grammar of types. -/
def isTypeModifier : Modifier → Bool
  | .static | .accessor | .async => false
  | _ => true

/-! ## Decorators -/

/-- A decorator; the current token is its mark. -/
def decorator : P Tree := do
  let start ← here
  advance
  let expression ← withFlags (fun flags => { flags with decorates := true }) (want .leftHand)
  node start .decorator [expression]

/-- The decorators in front of a class, a member or a parameter, if there are any. -/
def decorators : P Tree := do
  let start ← here
  if ← atMark "@" then
    let all ← manyUntil (do return !(← atMark "@")) decorator
    node start .decorators all
  else
    return .absent

/-! ## Types of variables -/

/-- A type after a colon, if there is one. -/
def typeAnnotation : P Tree := do
  let state ← get
  if state.typed && state.token.isMark ":" then
    advance
    withFlags (fun flags => { flags with noConditional := false }) (want .anyType)
  else
    return .absent

/-! ## Binding patterns -/

/-- A value after an equals sign, if there is one. -/
def initializer : P Tree := do
  if ← eat "=" then
    withFlags bracketed (want (.assignment true))
  else
    return .absent

/-- A pattern with an optional value. -/
def patternElement : P Tree := do
  let start ← here
  let pattern ← want .pattern
  let value ← initializer
  if value.isAbsent then return pattern else node start .defaultPattern [pattern, value]

/-- A pattern for the remaining elements. -/
def restPattern : P Tree := do
  let start ← here
  expect "..."
  let pattern ← want .pattern
  if ← atMark "=" then
    let _ ← initializer
    fault
  node start .restElement [pattern]

/-- A property of an object pattern. -/
def patternProperty : P Tree := do
  let state ← get
  let (key, computed) ← propertyKey
  if state.token.isBindable && !(← atMark ":") then
    match key with
    | .node (.name text) span _ =>
      checkName state.flags text
      let name := Tree.node (.binding text) span []
      let value ← initializer
      let target ←
        if value.isAbsent then pure name else node state.start .defaultPattern [name, value]
      node state.start (.patternProperty true false) [key, target]
    | _ => fail
  else
    expect ":"
    let target ← patternElement
    node state.start (.patternProperty false computed) [key, target]

/-- The pattern for the remaining properties, which must be a name. -/
def restProperty : P Tree := do
  let rest ← restPattern
  match rest with
  | .node .restElement _ [.node (.binding _) _ _] => return rest
  | _ =>
    fault
    return rest

/-- An element of an array pattern. -/
def arrayElement : P Tree := do
  if ← atMark "," then
    let start ← here
    return .node .hole ⟨start, start⟩ []
  else
    patternElement

/-- A binding pattern without a type or a value. -/
def bindingPattern : P Tree := do
  let start ← here
  if ← eat "\x7b" then
    let properties ← restList "\x7d" patternProperty restProperty
    expect "\x7d"
    node start .objectPattern properties
  else if ← eat "[" then
    let elements ← restList "]" arrayElement restPattern
    expect "]"
    node start .arrayPattern elements
  else
    bindingName

/-! ## Parameters -/

/-- A parameter of a function. -/
def parameter : P Tree := do
  let start ← here
  let decorated ← decorators
  let found ← modifiers
  let state ← get
  faultIf (found.any fun modifier => !isTypeModifier modifier || !state.typed)
  let pattern ← want .pattern
  let isOptional ← if state.typed then eat "?" else pure false
  let type ← typeAnnotation
  let value ← initializer
  faultIf (isOptional && !value.isAbsent)
  node start (.parameter found isOptional) [decorated, pattern, type, value]

/-- The parameter for the remaining arguments. -/
def restParameter : P Tree := do
  let start ← here
  let rest ← restPattern
  let type ← typeAnnotation
  faultIf (← atMark "=")
  node start .restParameter [rest, type]

/-- The parameter that gives `this` a type. -/
def thisParameter : P Tree := do
  let start ← here
  advance
  let type ← typeAnnotation
  node start .thisParameter [type]

/-- The parameters of a function in their parentheses. -/
def parameterList : P Tree := do
  let start ← here
  expect "("
  let state ← get
  if state.typed && state.token.isWord "this" then
    let this ← thisParameter
    if !(← atMark ")") then expect ","
    let others ← restList ")" parameter restParameter
    expect ")"
    node start .parameters (this :: others)
  else
    let all ← restList ")" parameter restParameter
    expect ")"
    node start .parameters all

end Parser

end LiveComponent
