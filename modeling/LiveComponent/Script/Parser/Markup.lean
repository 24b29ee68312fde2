import LiveComponent.Script.Parser.Expression

namespace LiveComponent

/-!
# Markup

Elements and fragments inside scripts: tags with attributes, and children between tags.
-/

namespace Parser

/-- Go past a mark, either to a token or to what follows a tag. -/
def expectMarkup (text : String) (inChildren : Bool) : P Unit := do
  if ← atMark text then
    if inChildren then advanceMarkup else advance
  else
    fail

/-- Take the current word, with hyphens, as the name of a tag or attribute. -/
def tagWord : P Text := do
  let state ← get
  match state.token with
  | .word text _ =>
    let more :=
      if state.rest.head? == some '-' then
        state.rest.takeWhile fun c => isIdPart c || c == '-'
      else
        []
    modify fun state =>
      { state with stop := state.stop + more.length, rest := state.rest.drop more.length }
    advanceName
    return text ++ more
  | _ => fail

/-- A tag or attribute name. -/
def tagName : P Tree := do
  let start ← here
  let text ← tagWord
  node start (.tagName text) []

/-- Whether a tag name refers to a variable. -/
def isReferenceName (text : Text) : Bool :=
  match text with
  | [] => false
  | c :: _ => 128 ≤ c.toNat || ('A' ≤ c && c ≤ 'Z') || c == '_' || c == '$'

/-- The name of an element: a name, a name in a namespace, or a dotted path. -/
def elementName : P Tree := do
  let state ← get
  let text ← tagWord
  let name ← node state.start (.tagName text) []
  let reference ← node state.start
    (if text == "this".toList then .this else .tagReference text) []
  if ← eat ":" then
    let inner ← tagName
    node state.start .tagNamespace [name, inner]
  else if ← atMark "." then
    faultIf (text.contains '-')
    rounds
      (fun left => do
        if ← eat "." then
          let start ← here
          let text ← tagWord
          faultIf (text.contains '-')
          let name ← node start (.name text) []
          return .again (← node state.start .tagMember [left, name])
        else
          return .done left)
      reference
  else if text == "this".toList || (isReferenceName text && !text.contains '-') then
    return reference
  else
    return name

/-- The parts of an element name, from left to right. -/
def nameParts : Tree → List Text
  | .node (.tagName text) _ _ => [text]
  | .node (.tagReference text) _ _ => [text]
  | .node (.name text) _ _ => [text]
  | .node .this _ _ => ["this".toList]
  | .node .tagNamespace _ [left, right] => nameParts left ++ [[':']] ++ nameParts right
  | .node .tagMember _ [left, right] => nameParts left ++ [['.']] ++ nameParts right
  | _ => []

/-- The name of an attribute. -/
def attributeName : P Tree := do
  let start ← here
  let name ← tagName
  if ← eat ":" then
    let inner ← tagName
    node start .tagNamespace [name, inner]
  else
    return name

/-- An expression in braces as the value of an attribute; it must not be empty. -/
def attributeContainer : P Tree := do
  let start ← here
  expect "\x7b"
  if ← eat "\x7d" then
    fault
    node start .container [.absent]
  else
    let expression ← want .expression
    expect "\x7d"
    node start .container [expression]

/-- An attribute, or a spread of attributes. -/
def tagAttribute : P Tree := do
  let start ← here
  if ← eat "\x7b" then
    expect "..."
    let expression ← want .expression
    expect "\x7d"
    node start .attributeSpread [expression]
  else
    let name ← attributeName
    if ← atMark "=" then
      advanceToValue
      let state ← get
      let value ←
        if state.token.isString then stringLiteral
        else if state.token.isMark "\x7b" then attributeContainer
        else if state.token.isMark "<" then want (.markup false)
        else fail
      node start .tagProperty [name, value]
    else
      node start .tagProperty [name, .absent]

/-- A child of a tag; the current token is what follows a tag or another child. -/
def child : P Tree := do
  let state ← get
  match state.token with
  | .markupText raw =>
    advanceMarkup
    node state.start (.markupText raw) []
  | .mark "<" => want (.markup true)
  | .mark "\x7b" =>
    advance
    if ← atMark "\x7d" then
      advanceMarkup
      node state.start .container [.absent]
    else if ← eat "..." then
      let expression ← want .expression
      expectMarkup "\x7d" true
      node state.start .childSpread [expression]
    else
      let expression ← want .expression
      expectMarkup "\x7d" true
      node state.start .container [expression]
  | _ => fail

/-- Whether the current token opens a closing tag. -/
def opensClosingTag : P Bool := do
  if ← atMark "<" then
    ahead do
      advance
      atMark "/"
  else
    return false

/-- The children of a tag, up to its closing tag. -/
def childList : P (List Tree) :=
  manyUntil opensClosingTag child

/-- A fragment after its opening angle bracket. -/
def fragment (start : Nat) (inChildren : Bool) : P Tree := do
  expectMarkup ">" true
  let children ← childList
  advance
  expect "/"
  expectMarkup ">" inChildren
  node start .fragment children

/-- An element after its opening angle bracket. -/
def element (start : Nat) (inChildren : Bool) : P Tree := do
  let name ← elementName
  let arguments ← if (← get).typed then typeArguments else pure .absent
  let attributes ← manyUntil (atOneOf [">", "/"]) tagAttribute
  if ← eat "/" then
    expectMarkup ">" inChildren
    node start (.element attributes.length) ([name, arguments] ++ attributes ++ [.absent])
  else
    expectMarkup ">" true
    let children ← childList
    advance
    expect "/"
    let closing ← elementName
    expectMarkup ">" inChildren
    faultIf (nameParts name != nameParts closing)
    node start (.element attributes.length)
      ([name, arguments] ++ attributes ++ [closing] ++ children)

/-- An element or a fragment; the current token is its opening angle bracket. -/
def markup (inChildren : Bool) : P Tree := do
  let start ← here
  expect "<"
  if ← atMark ">" then fragment start inChildren else element start inChildren

end Parser

end LiveComponent
