import LiveComponent.Script.Printer.Literal

namespace LiveComponent

/-!
# Printed types, patterns and parameters
-/

namespace Printer

/-- A child of a node with the way it is printed. -/
abbrev Part := Tree × Doc

/-- Whether the part is missing. -/
def Part.isAbsent (part : Part) : Bool :=
  part.1.isAbsent

/-- Print a part at a level. -/
def Part.at (part : Part) (level : Nat) : Print :=
  part.2 (.plain level)

/-- Print a part without demands on it. -/
def Part.print (part : Part) : Print :=
  part.at Level.lowest

/-- Print a text and a part, unless the part is missing. -/
def Part.after (part : Part) (text : String) : Print :=
  when (!part.isAbsent) do
    word text
    part.print

/-- Print a text and an expression that is part of a list, unless it is missing. -/
def Part.valueAfter (part : Part) (text : String) : Print :=
  when (!part.isAbsent) do
    word text
    part.at Level.comma

/-- Print an expression without its parentheses as long as it can stand in a list. -/
def Part.item (part : Part) : Print :=
  part.at Level.comma

/-- Print a key, in brackets if it is computed. -/
def key (computed : Bool) (part : Part) : Print := do
  when computed (word "[")
  part.item
  when computed (word "]")

/-- Print a word and a space if the condition holds. -/
def mark (condition : Bool) (text : String) : Print :=
  when condition do
    spaceBeforeWord
    word text
    space

/-- Print the modifiers of a member in their fixed order. -/
def memberMarks (found : List Modifier) : Print := do
  mark (found.contains .declared) "declare"
  mark (found.contains .publicAccess) "public"
  mark (found.contains .protectedAccess) "protected"
  mark (found.contains .privateAccess) "private"
  mark (found.contains .abstracted) "abstract"
  mark (found.contains .static) "static"
  mark (found.contains .override) "override"
  mark (found.contains .readonly) "readonly"
  mark (found.contains .accessor) "accessor"

/-- Print the word of an accessor. -/
def roleMark (role : MethodRole) : Print :=
  match role with
  | .getter => word "get "
  | .setter => word "set "
  | _ => nothing

/-- Print parameters with their types and the result type. -/
def signatureText (generics parameters result : Part) : Print := do
  generics.print
  parameters.print
  result.after ": "

/-- Print the change that a mapped type makes. -/
def changeText (change : MappedChange) (text : String) : Print :=
  match change with
  | .unchanged => nothing
  | .present => word text
  | .added => do
    word "+"
    word text
  | .removed => do
    word "-"
    word text

/-- Print a list in square brackets in which holes may occur; a hole or a rest element is the last
one. -/
def bracketList (parts : List Part) : Print := do
  word "["
  commaSeparated (parts.map Part.item)
  when (match parts.getLast? with
    | some (tree, _) =>
      match tree.kind with
      | .hole => true
      | _ => false
    | none => false) (word ",")
  word "]"

/-- Whether a pattern declares just the name, perhaps with a value. -/
def declaresName (text : Text) : Tree → Bool
  | .node (.binding name) _ _ => name == text
  | .node .defaultPattern _ [.node (.binding name) _ _, _] => name == text
  | _ => false

/-- Whether a property of a pattern is printed by its name alone. -/
def isShorthand (key value : Tree) : Bool :=
  match key with
  | .node (.name text) _ _ => declaresName text value
  | _ => false

/-- How patterns and parameters are printed. -/
def patternLayout? (kind : Kind) (parts : List Part) : Option Print :=
  match kind, parts with
  | .binding text, _ => some do
    spaceBeforeWord
    put text
  | .objectPattern, [] => some (word "\x7b\x7d")
  | .objectPattern, parts => some do
    word "\x7b "
    commaSeparated (parts.map Part.print)
    word " \x7d"
  | .patternProperty _ computed, [name, value] => some do
    when (computed || !isShorthand name.1 value.1) do
      key computed name
      word ": "
    value.print
  | .arrayPattern, parts => some (bracketList parts)
  | .restElement, [pattern] => some do
    word "..."
    pattern.print
  | .defaultPattern, [pattern, value] => some do
    pattern.print
    value.valueAfter " = "
  | .objectTarget, parts => some do
    word "\x7b"
    commaSeparated (parts.map Part.print)
    word "\x7d"
  | .targetProperty shorthand computed, [name, value] => some do
    when (!shorthand) do
      key computed name
      word ": "
    value.item
  | .arrayTarget, parts => some (bracketList parts)
  | .targetRest, [target] => some do
    word "..."
    target.item
  | .targetDefault, [target, value] => some do
    target.item
    value.valueAfter " = "
  | .parameters, parts => some do
    word "("
    commaSeparated (parts.map Part.print)
    word ")"
  | .parameter found isOptional, [decorators, pattern, type, value] => some do
    decorators.print
    memberMarks found
    pattern.print
    when isOptional (word "?")
    type.after ": "
    value.valueAfter " = "
  | .restParameter, [rest, type] => some do
    rest.print
    type.after ": "
  | .thisParameter, [type] => some do
    word "this"
    type.after ": "
  | _, _ => none

/-- How types are printed. -/
def typeLayout? (kind : Kind) (parts : List Part) : Option Print :=
  match kind, parts with
  | .keywordType text, _ => some do
    spaceBeforeWord
    put text
  | .thisType, _ => some (keyword "this")
  | .literalType, [literal] => some literal.print
  | .templateType quasis, types => some (templateText quasis (types.map Part.print))
  | .typeReference, [name, arguments] => some do
    name.print
    arguments.print
  | .qualifiedName, [left, name] => some do
    left.print
    word "."
    name.print
  | .typeQuery, [name, arguments] => some do
    keyword "typeof "
    name.print
    arguments.print
  | .arrayType, [type] => some do
    type.print
    word "[]"
  | .indexedType, [type, index] => some do
    type.print
    word "["
    index.print
    word "]"
  | .tupleType, elements => some do
    word "["
    commaSeparated (elements.map Part.print)
    word "]"
  | .namedTupleMember isOptional, [label, type] => some do
    label.print
    when isOptional (word "?")
    type.after ": "
  | .optionalType, [type] => some do
    type.print
    word "?"
  | .markedType mark isLeading, [type] => some do
    when isLeading (put [mark])
    type.print
    when (!isLeading) (put [mark])
  | .unknownType, _ => some (keyword "unknown")
  | .restType, [type] => some do
    word "..."
    type.print
  | .unionType, types => some (separatedBy " | " (types.map Part.print))
  | .intersectionType, types => some (separatedBy " & " (types.map Part.print))
  | .typeOperator operator, [type] => some do
    spaceBeforeWord
    put operator
    space
    type.print
  | .inferType, [parameter] => some do
    keyword "infer "
    parameter.print
  | .conditionalType, [checked, bound, consequent, alternate] => some do
    checked.print
    word " extends "
    bound.print
    word " ? "
    consequent.print
    word " : "
    alternate.print
  | .functionType, [generics, parameters, result] => some do
    generics.print
    parameters.print
    word " => "
    result.print
  | .constructorType abstracted, [generics, parameters, result] => some do
    mark abstracted "abstract"
    keyword "new "
    generics.print
    parameters.print
    word " => "
    result.print
  | .parenthesizedType, [type] => some do
    word "("
    type.print
    word ")"
  | .typeLiteral, members => some do
    braces members.isEmpty do
      members.forM fun member => do
        indentation
        member.print
        semicolon
  | .mappedType optionality readonlyness, [name, keys, renamed, type] => some do
    word "\x7b "
    changeText readonlyness "readonly"
    when (readonlyness != .unchanged) space
    word "["
    name.print
    word " in "
    keys.print
    renamed.after " as "
    word "]"
    changeText optionality "?"
    when (optionality != .unchanged) space
    type.after ": "
    word " \x7d"
  | .importType, [source, options, qualifier, arguments] => some do
    keyword "import("
    source.print
    options.valueAfter ", "
    word ")"
    qualifier.after "."
    arguments.print
  | .typePredicate asserts, [name, type] => some do
    mark asserts "asserts"
    name.print
    type.after " is "
  | .propertySignature computed isOptional isReadonly, [name, type] => some do
    mark isReadonly "readonly"
    key computed name
    when isOptional (word "?")
    type.after ": "
  | .methodSignature role computed isOptional, [name, generics, parameters, result] => some do
    roleMark role
    key computed name
    when isOptional (word "?")
    signatureText generics parameters result
  | .callSignature, [generics, parameters, result] =>
    some (signatureText generics parameters result)
  | .constructSignature, [generics, parameters, result] => some do
    word "new "
    signatureText generics parameters result
  | .indexSignature parameter found, [name, type] => some do
    mark (found.contains .static) "static"
    mark (found.contains .readonly) "readonly"
    word "["
    put parameter
    name.after ": "
    word "]"
    type.after ": "
  | .typeParameters, parts => some do
    word "<"
    match parts with
    | [single] =>
      single.print
      word ","
    | _ => lines (parts.map Part.print)
    word ">"
  | .typeParameter found, [name, bound, value] => some do
    found.forM fun text => do
      put text
      space
    name.print
    bound.after " extends "
    value.after " = "
  | .typeArguments, types => some do
    word "<"
    commaSeparated (types.map Part.print)
    word ">"
  | _, _ => none

end Printer

end LiveComponent
