import LiveComponent.Decimal.Double
import LiveComponent.Text.Basic

namespace LiveComponent

/-!
# Syntax trees of scripts

A node has a kind, the part of the source it covers, and its children in a fixed order.  Parts that
may be missing are present as nodes of kind `absent`, so the position of a child tells its role.
-/

/-- A part of a source, as offsets of characters. -/
structure Span where
  start : Nat
  stop : Nat
deriving DecidableEq, Repr, Inhabited

/-- A word that modifies a declaration or a member. -/
inductive Modifier where
  | declared
  | abstracted
  | publicAccess
  | protectedAccess
  | privateAccess
  | static
  | override
  | readonly
  | accessor
  | async
  | constant
deriving DecidableEq, Repr

/-- Where a function is written. -/
inductive FunctionForm where
  | declaration
  | expression
  /-- The function of a method, without the word `function`. -/
  | method
deriving DecidableEq, Repr

/-- The role of a method. -/
inductive MethodRole where
  | plain
  | getter
  | setter
  | constructor
deriving DecidableEq, Repr

/-- How a mapped type changes a property of its members. -/
inductive MappedChange where
  | unchanged
  | present
  | added
  | removed
deriving DecidableEq, Repr

/-- What a node is.  The children are listed in brackets; `?` marks those that may be absent, and `*`
those of any number. -/
inductive Kind where
  | absent
  /-- `[directive*, statement*]` -/
  | program
  /-- The body of a function: `[directive*, statement*]`. -/
  | body
  /-- A string at the head of a program or body, as written between its quotes. -/
  | directive (raw : Text)
  /-- A name that refers to no variable: of a property, of a label or of an export. -/
  | name (text : Text)
  | privateName (text : Text)
  /-- A name where it is declared. -/
  | binding (text : Text)
  /-- A name where it is used. -/
  | identifier (text : Text)
  /-- `[statement*]` -/
  | block
  | emptyStatement
  /-- `[expression]` -/
  | expressionStatement
  /-- `[test, consequent, alternate?]` -/
  | conditionalStatement
  /-- `[body, test]` -/
  | doLoop
  /-- `[test, body]` -/
  | whileLoop
  /-- `[start?, test?, update?, body]` -/
  | forLoop
  /-- `[left, right, body]` -/
  | forIn
  /-- `[left, right, body]` -/
  | forOf (awaits : Bool)
  /-- `[label?]` -/
  | continueStatement
  /-- `[label?]` -/
  | breakStatement
  /-- `[value?]` -/
  | returnStatement
  /-- `[object, body]` -/
  | withStatement
  /-- `[value, case*]` -/
  | switchStatement
  /-- `[test?, statement*]` -/
  | switchCase
  /-- `[label, body]` -/
  | labeled
  /-- `[value]` -/
  | throwStatement
  /-- `[block, handler?, finalizer?]` -/
  | tryStatement
  /-- `[parameter?, block]` -/
  | catchClause
  | debuggerStatement
  /-- `[declarator*]` -/
  | bindings (keyword : Text) (declared : Bool)
  /-- `[target, type?, value?]` -/
  | declarator (definite : Bool)
  /-- `[name?, type parameters?, parameters, result type?, body?]`; the calls of a harmless function
  have no effects. -/
  | function (form : FunctionForm) (isAsync isGenerator declared harmless : Bool)
  /-- `[parameter*]` -/
  | parameters
  /-- `[decorators?, pattern, type?, value?]` -/
  | parameter (modifiers : List Modifier) (isOptional : Bool)
  /-- `[rest element, type?]` -/
  | restParameter
  /-- `[type?]` -/
  | thisParameter
  /-- `[type parameters?, parameters, result type?, body]` -/
  | arrow (isAsync isExpression harmless : Bool)
  /-- `[decorators?, name?, type parameters?, superclass?, type arguments?, implemented*, body]` -/
  | classLike (form : FunctionForm) (abstracted declared : Bool)
  /-- `[type name, type arguments?]` -/
  | implemented
  /-- `[element*]` -/
  | classBody
  /-- `[decorators?, key, function]` -/
  | method (role : MethodRole) (computed isOptional : Bool) (modifiers : List Modifier)
  /-- `[decorators?, key, type?, value?]` -/
  | field (computed isOptional definite : Bool) (modifiers : List Modifier)
  /-- `[statement*]` -/
  | staticBlock
  /-- `[decorator*]` -/
  | decorators
  /-- `[expression]` -/
  | decorator
  | nullLiteral
  | boolLiteral (value : Bool)
  | numberLiteral (value : Double)
  /-- An integer literal of any size, as its decimal digits. -/
  | bigintLiteral (digits : Text)
  | regexLiteral (pattern flags : Text)
  /-- With `escaped`, the replacement character and four hexadecimal digits stand for a lone
  surrogate. -/
  | stringLiteral (value : Text) (escaped : Bool)
  /-- The raw texts around the children: `[expression*]`. -/
  | template (quasis : List Text)
  /-- `[tag, type arguments?, template]` -/
  | taggedTemplate
  | this
  | superRef
  /-- `new.target` and `import.meta`. -/
  | metaProperty (owner property : Text)
  /-- `[element*]` -/
  | array
  /-- A missing element. -/
  | hole
  /-- `[property*]` -/
  | object
  /-- `[key, value]` -/
  | property (role : MethodRole) (isMethod shorthand computed : Bool)
  /-- `[expression]` -/
  | spread
  /-- `[operand]` -/
  | unary (operator : Text)
  /-- `[operand]` -/
  | update (operator : Text) (isLeading : Bool)
  /-- `[left, right]` -/
  | binary (operator : Text)
  /-- `[left, right]` -/
  | logical (operator : Text)
  /-- `[private name, right]` -/
  | privateIn
  /-- `[test, consequent, alternate]` -/
  | conditional
  /-- `[target, value]` -/
  | assign (operator : Text)
  /-- `[expression*]` -/
  | sequence
  /-- `[operand]` -/
  | await
  /-- `[operand?]` -/
  | yield (delegates : Bool)
  /-- `[callee, type arguments?, argument*]` -/
  | call (isOptional pure : Bool)
  /-- `[callee, type arguments?, argument*]` -/
  | construct (pure : Bool)
  /-- `[source, options?]` -/
  | importCall (phase : Text)
  /-- `[object, name]` -/
  | member (isOptional : Bool)
  /-- `[object, index]` -/
  | index (isOptional : Bool)
  /-- `[expression]` -/
  | chain
  /-- `[expression]` -/
  | parenthesized
  /-- `[expression, type]` -/
  | asType
  /-- `[expression, type]` -/
  | satisfiesType
  /-- `[expression]` -/
  | nonNull
  /-- `[expression, type arguments]` -/
  | instantiation
  /-- `[property*, rest?]` -/
  | objectPattern
  /-- `[key, value]` -/
  | patternProperty (shorthand computed : Bool)
  /-- `[element*]` -/
  | arrayPattern
  /-- `[pattern]` -/
  | restElement
  /-- `[pattern, value]` -/
  | defaultPattern
  /-- `[property*]` -/
  | objectTarget
  /-- `[key, target]` -/
  | targetProperty (shorthand computed : Bool)
  /-- `[element*]` -/
  | arrayTarget
  /-- `[target]` -/
  | targetRest
  /-- `[target, value]` -/
  | targetDefault
  /-- `[name, type arguments?, attribute*, closing name?, child*]` -/
  | element (attributes : Nat)
  /-- `[child*]` -/
  | fragment
  /-- A tag or attribute name. -/
  | tagName (text : Text)
  /-- `[namespace, name]` -/
  | tagNamespace
  /-- `[object, name]` -/
  | tagMember
  /-- A tag name that refers to a variable. -/
  | tagReference (text : Text)
  /-- `[name, value?]` -/
  | tagProperty
  /-- `[expression]` -/
  | attributeSpread
  | markupText (raw : Text)
  /-- `[expression?]` -/
  | container
  /-- `[expression]` -/
  | childSpread
  /-- `[specifier*, source, attribute*]` -/
  | importDeclaration (typeOnly : Bool) (specifiers : Option Nat)
  /-- `[binding]` -/
  | importDefault
  /-- `[binding]` -/
  | importNamespace
  /-- `[imported, binding]` -/
  | importNamed (typeOnly : Bool)
  /-- `[key, value]` -/
  | importAttribute
  /-- `[declaration]` -/
  | exportDeclaration
  /-- `[source?, specifier*]` -/
  | exportNames (typeOnly : Bool)
  /-- `[local name, exported name]` -/
  | exportName (typeOnly : Bool)
  /-- `[declaration or expression]` -/
  | exportDefault
  /-- `[exported name?, source]` -/
  | exportAll (typeOnly : Bool)
  /-- `[expression]` -/
  | exportAssignment
  /-- `[name]` -/
  | exportNamespace
  /-- `[binding, reference]` -/
  | importEquals (typeOnly : Bool)
  /-- `[source]` -/
  | externalModule
  /-- `[binding, type parameters?, type]` -/
  | typeAlias (declared : Bool)
  /-- `[binding, type parameters?, extended*, type literal]` -/
  | interface (declared : Bool)
  /-- `[expression, type arguments?]` -/
  | extended
  /-- `[binding, member*]` -/
  | enum (constant declared : Bool)
  /-- `[key, value?]` -/
  | enumMember
  /-- `[name, body?]` -/
  | namespaceLike (keyword : Text) (declared : Bool)
  /-- A type that is a keyword. -/
  | keywordType (text : Text)
  | thisType
  /-- `[literal]` -/
  | literalType
  /-- The raw texts around the children: `[type*]`. -/
  | templateType (quasis : List Text)
  /-- `[name, type arguments?]` -/
  | typeReference
  /-- `[left, name]` -/
  | qualifiedName
  /-- `[name, type arguments?]` -/
  | typeQuery
  /-- `[type]` -/
  | arrayType
  /-- `[type, index]` -/
  | indexedType
  /-- `[element*]` -/
  | tupleType
  /-- `[label, type]` -/
  | namedTupleMember (isOptional : Bool)
  /-- `[type]` -/
  | optionalType
  /-- A type with a question mark or an exclamation mark before or after it: `[type]`. -/
  | markedType (mark : Char) (isLeading : Bool)
  /-- A question mark in place of a type. -/
  | unknownType
  /-- `[type]` -/
  | restType
  /-- `[type*]` -/
  | unionType
  /-- `[type*]` -/
  | intersectionType
  /-- `[type]` -/
  | typeOperator (operator : Text)
  /-- `[type parameter]` -/
  | inferType
  /-- `[checked, bound, consequent, alternate]` -/
  | conditionalType
  /-- `[type parameters?, parameters, result type]` -/
  | functionType
  /-- `[type parameters?, parameters, result type]` -/
  | constructorType (abstracted : Bool)
  /-- `[type]` -/
  | parenthesizedType
  /-- `[member*]` -/
  | typeLiteral
  /-- `[binding, constraint, name type?, type?]` -/
  | mappedType (optionality readonlyness : MappedChange)
  /-- `[source, options?, qualifier?, type arguments?]` -/
  | importType
  /-- `[name, type?]` -/
  | typePredicate (asserts : Bool)
  /-- `[key, type?]` -/
  | propertySignature (computed isOptional isReadonly : Bool)
  /-- `[key, type parameters?, parameters, result type?]` -/
  | methodSignature (role : MethodRole) (computed isOptional : Bool)
  /-- `[type parameters?, parameters, result type?]` -/
  | callSignature
  /-- `[type parameters?, parameters, result type?]` -/
  | constructSignature
  /-- `[key type, type]` -/
  | indexSignature (parameter : Text) (modifiers : List Modifier)
  /-- `[type parameter*]` -/
  | typeParameters
  /-- `[binding, constraint?, value?]` -/
  | typeParameter (modifiers : List Text)
  /-- `[type*]` -/
  | typeArguments

/-- A syntax tree. -/
inductive Tree where
  | node (kind : Kind) (span : Span) (children : List Tree)

namespace Tree

/-- What the root is. -/
def kind : Tree → Kind
  | node kind _ _ => kind

/-- The part of the source that the tree covers. -/
def span : Tree → Span
  | node _ span _ => span

/-- The subtrees of the root. -/
def children : Tree → List Tree
  | node _ _ children => children

/-- A missing part. -/
def absent : Tree :=
  node .absent ⟨0, 0⟩ []

/-- A node that stands in no source. -/
def made (kind : Kind) (children : List Tree) : Tree :=
  node kind ⟨0, 0⟩ children

/-- Whether the part is missing. -/
def isAbsent : Tree → Bool
  | node .absent _ _ => true
  | _ => false

mutual

/-- Combine a tree from its leaves up: a node is combined from itself and from what its children have
become. -/
def fold {α : Type} (combine : Tree → List α → α) : Tree → α
  | node kind span children => combine (node kind span children) (foldAll combine children)

/-- Combine each tree of a list. -/
def foldAll {α : Type} (combine : Tree → List α → α) : List Tree → List α
  | [] => []
  | tree :: trees => fold combine tree :: foldAll combine trees

end

/-- All trees of a list are combined in the same way. -/
theorem foldAll_eq_map
    {α : Type}
    (combine : Tree → List α → α)
    (trees : List Tree) :
    foldAll combine trees = trees.map (fold combine) := by
  induction trees with
  | nil => rfl
  | cons tree trees ih => simp [foldAll, ih]

/-- A node is combined from what its children have become. -/
theorem fold_node
    {α : Type}
    (combine : Tree → List α → α)
    (kind : Kind)
    (span : Span)
    (children : List Tree) :
    fold combine (node kind span children) =
      combine (node kind span children) (children.map (fold combine)) := by
  simp [fold, foldAll_eq_map]

/-- What holds of each node whose children have it holds of every tree. -/
@[elab_as_elim, induction_eliminator]
theorem induction
    {motive : Tree → Prop}
    (node : ∀ kind span children,
      (∀ child ∈ children, motive child) → motive (.node kind span children)) :
    ∀ tree, motive tree
  | .node kind span children =>
    node kind span children fun child _ => induction node child

end Tree

end LiveComponent
