import LiveComponent.Classification
import LiveComponent.Decimal.Shortest
import LiveComponent.Script.Lexer
import LiveComponent.Script.Parse
import LiveComponent.Table
import LiveComponent.Text.Quoted

namespace LiveComponent

/-!
# Exports of a module

What a module exports is read off its tree: functions and classes by their names, literals by their
texts, objects by their static keys, and variables by what was bound to them last.  Everything else is
unknown until it runs.
-/

/-- What is known of an exported value. -/
inductive ExportValue where
  | function (name : Option Text)
  | classLike (name : Option Text)
  /-- The properties in the order of their first occurrence. -/
  | object (entries : List (Text × ExportValue))
  /-- A value shown as a text. -/
  | primitive (shown : Text)
  | unknown
deriving Repr, Inhabited

/-- The exports of a module in the order of their declaration. -/
abbrev Exports := List (Text × ExportValue)

/-- The values of variables, latest first. -/
abbrev Bindings := List (Text × ExportValue)

namespace ExportValue

/-- Whether the value can be called. -/
def isCallable : ExportValue → Bool
  | function _ | classLike _ => true
  | _ => false

/-- The value of a variable. -/
def ofName (bindings : Bindings) (name : Text) : ExportValue :=
  (bindings.lookup name).getD unknown

/-- The name of a function or class, from its first child. -/
def nameOf? : List Tree → Option Text
  | .node (.binding name) _ _ :: _ => some name
  | _ => none

/-- The name of a property that does not depend on the run. -/
def staticKey? : Tree → Option Text
  | .node (.name text) _ _ => some text
  | .node (.stringLiteral text _) _ _ => some text
  | .node (.numberLiteral value) _ _ => some value.positional
  | .node (.bigintLiteral digits) _ _ => some digits
  | .node (.regexLiteral pattern flags) _ _ => some (['/'] ++ pattern ++ ['/'] ++ flags)
  | .node .nullLiteral _ _ => some "null".toList
  | .node (.template [raw]) _ _ => Lexer.templateText? raw
  | _ => none

/-- Add a property of an object, given its node and its value.  A known one keeps its place. -/
def addProperty
    (entries : Table ExportValue) :
    Tree × ExportValue → Table ExportValue
  | (.node (.property ..) _ (key :: _), value) =>
    match staticKey? key with
    | some name => entries.put name value
    | none => entries
  | _ => entries

/-- The value of a node, given the values of its children. -/
def ofNode (bindings : Bindings) (tree : Tree) (parts : List ExportValue) : ExportValue :=
  match tree.kind, parts with
  | .arrow .., _ => function none
  | .function .., _ => function (nameOf? tree.children)
  | .classLike .., _ => classLike (nameOf? (tree.children.drop 1))
  | .object, _ => object ((tree.children.zip parts).foldl addProperty [])
  | .property .., [_, value] => value
  | .identifier name, _ => ofName bindings name
  | .stringLiteral value _, _ => primitive (Text.quoted value)
  | .numberLiteral value, _ => primitive value.positional
  | .boolLiteral value, _ => primitive (if value then "true" else "false")
  | .nullLiteral, _ => primitive "null"
  | .parenthesized, value :: _ => value
  | .asType, value :: _ => value
  | .satisfiesType, value :: _ => value
  | _, _ => unknown

/-- What is known of the value of an expression. -/
def ofTree (bindings : Bindings) (tree : Tree) : ExportValue :=
  tree.fold (ofNode bindings)

end ExportValue

namespace Exports

open ExportValue

/-- A function declaration is bound before the module runs. -/
def hoisted (bindings : Bindings) : Tree → Bindings
  | .node (.function ..) _ children =>
    match nameOf? children with
    | some name => (name, .function (some name)) :: bindings
    | none => bindings
  | _ => bindings

/-- Bind the variable of a declarator. -/
def bindDeclarator (bindings : Bindings) : Tree → Bindings
  | .node (.declarator _) _ [.node (.binding name) _ _, _, value] =>
    (name, if value.isAbsent then .primitive "undefined" else ofTree bindings value) :: bindings
  | _ => bindings

/-- Bind what a declaration declares when it runs. -/
def bindDeclaration (bindings : Bindings) : Tree → Bindings
  | .node (.classLike ..) _ (_ :: children) =>
    match nameOf? children with
    | some name => (name, .classLike (some name)) :: bindings
    | none => bindings
  | .node (.bindings ..) _ declarators => declarators.foldl bindDeclarator bindings
  | _ => bindings

/-- The declaration that a statement makes, exported or not. -/
def declarationOf : Tree → Tree
  | .node .exportDeclaration _ [declaration] => declaration
  | statement => statement

/-- The expression that a statement throws. -/
def thrown? : Tree → Option Tree
  | .node .throwStatement _ [value] => some value
  | _ => none

/-- The names that an exported declaration binds. -/
def namesOf : Tree → List Text
  | .node (.function ..) _ children => (nameOf? children).toList
  | .node (.classLike ..) _ (_ :: children) => (nameOf? children).toList
  | .node (.bindings ..) _ declarators =>
    declarators.filterMap fun declarator => nameOf? declarator.children
  | _ => []

/-- The text of a name in an export list. -/
def entryText : Tree → Text
  | .node (.name text) _ _ => text
  | .node (.identifier text) _ _ => text
  | .node (.stringLiteral text _) _ _ => text
  | _ => []

/-- What a statement exports. -/
def ofStatement (bindings : Bindings) : Tree → Exports
  | .node .exportDeclaration _ [declaration] =>
    (namesOf declaration).map fun name => (name, ofName bindings name)
  | .node (.exportNames _) _ (source :: entries) =>
    entries.filterMap fun entry =>
      match entry.children with
      | [declared, exported] =>
        some (entryText exported,
          if source.isAbsent then ofName bindings (entryText declared) else .unknown)
      | _ => none
  | .node .exportDefault _ [value] => [("default", ofTree bindings value)]
  | _ => []

/-- The exports of a module, given its source and tree; a statement that throws ends the run. -/
def ofTree (source : Text) (tree : Tree) : Except Failure Exports :=
  match tree.children.findSome? thrown? with
  | some value =>
    .error (.executionValidation ("module threw during evaluation: ".toList ++
      Text.slice source value.span.start value.span.stop))
  | none =>
    let declarations := tree.children.map declarationOf
    let bindings := declarations.foldl bindDeclaration (declarations.foldl hoisted [])
    .ok (tree.children.flatMap (ofStatement bindings))

/-- The exports of a module. -/
def ofText (source : Text) : Except Failure Exports :=
  match parse? (isTyped source) source with
  | some tree => ofTree source tree
  | none => .error (.executionValidation "module failed to parse: the source is no module")

/-- Whether a name starts with an upper case letter. -/
def isCapitalized (name : Text) : Bool :=
  name.head?.any fun c => 'A' ≤ c && c ≤ 'Z'

/-- Whether an export is a component by its name and value. -/
def isComponent (entry : Text × ExportValue) : Bool :=
  isCapitalized entry.1 && entry.2.isCallable

/-- Whether the first export of a name can be called. -/
def isCallable (exports : Exports) (name : Text) : Bool :=
  (exports.lookup name).any ExportValue.isCallable

/-- The path of the component among the exports: a callable default export, a callable `Component`,
the first capitalized callable export, or such a property of a default object. -/
def component (exports : Exports) : Except Failure Text :=
  if exports.isCallable "default" then .ok "default"
  else if exports.isCallable "Component" then .ok "Component"
  else
    match exports.find? isComponent with
    | some entry => .ok entry.1
    | none =>
      match exports.lookup "default".toList with
      | some (.object entries) =>
        match entries.find? isComponent with
        | some entry => .ok ("default.".toList ++ entry.1)
        | none => .error .noComponentFound
      | _ => .error .noComponentFound

end Exports

end LiveComponent
