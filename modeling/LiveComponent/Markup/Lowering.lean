import LiveComponent.Markup.ChildText
import LiveComponent.Script.Tree
import LiveComponent.Text.Identifier

namespace LiveComponent

/-!
# Lowering of markup

An element becomes a call of the factory with its type, its properties and its children; a fragment
becomes such a call with the fragment type.
-/

namespace Markup

/-- The dotted paths of the factory and of the fragment type. -/
structure Paths where
  factory : Text
  fragment : Text
deriving DecidableEq, Repr

/-- A variable. -/
def reference (name : Text) : Tree :=
  .made (.identifier name) []

/-- A string. -/
def string (value : Text) : Tree :=
  .made (.stringLiteral value false) []

/-- A dotted path as members of a variable. -/
def path (text : Text) : Tree :=
  match Text.splitAt '.' text with
  | [] => reference text
  | root :: names =>
    names.foldl
      (fun object name => .made (.member false) [object, .made (.name name) []])
      (reference root)

/-- The text of a tag or attribute name. -/
def nameText : Tree → Text
  | .node (.tagName text) _ _ => text
  | .node (.tagReference text) _ _ => text
  | .node (.name text) _ _ => text
  | .node .this _ _ => "this"
  | .node .tagNamespace _ [left, right] => nameText left ++ [':'] ++ nameText right
  | .node .tagMember _ [left, right] => nameText left ++ ['.'] ++ nameText right
  | _ => []

/-- The type of an element: a string for a plain tag, a reference otherwise. -/
def elementType (name : Tree) : Tree :=
  match name.kind with
  | .this => .made .this []
  | .tagReference text => reference text
  | .tagMember => path (nameText name)
  | _ => string (nameText name)

/-- The key of a property with the given name. -/
def propertyKey (name : Text) : Tree :=
  if isIdentifierName name then .made (.name name) [] else string name

/-- The value of an attribute. -/
def attributeValue : Tree → Tree
  | .node .absent _ _ => .made (.boolLiteral true) []
  | .node .container _ [expression] =>
    if expression.isAbsent then reference "undefined" else expression
  | value => value

/-- The property of an attribute. -/
def property : Tree → Tree
  | .node .tagProperty _ [name, value] =>
    .made (.property .plain false false false)
      [propertyKey (nameText name), attributeValue value]
  | .node .attributeSpread _ [expression] => .made .spread [expression]
  | other => other

/-- The properties of an element: an object, or null without attributes. -/
def properties (attributes : List Tree) : Tree :=
  if attributes.isEmpty then .made .nullLiteral []
  else .made .object (attributes.map property)

/-- The arguments that a child stands for. -/
def childArguments : Tree → List Tree
  | .node (.markupText raw) _ _ => (childText? raw).toList.map string
  | .node .container _ [expression] => if expression.isAbsent then [] else [expression]
  | .node .childSpread _ [expression] => [.made .spread [expression]]
  | child => [child]

/-- A call of the factory. -/
def factoryCall (paths : Paths) (arguments : List Tree) : Tree :=
  .made (.call false false) (path paths.factory :: .absent :: arguments)

/-- Lower a node of which the children are lowered. -/
def lowerNode (paths : Paths) (tree : Tree) (children : List Tree) : Tree :=
  match tree.kind with
  | .element count =>
    let parts := children.drop 2
    let attributes := parts.take count
    let inner := parts.drop (count + 1)
    factoryCall paths
      (elementType (children.headD .absent) :: properties attributes ::
        inner.flatMap childArguments)
  | .fragment =>
    factoryCall paths
      (path paths.fragment :: .made .nullLiteral [] :: children.flatMap childArguments)
  | kind => .node kind tree.span children

/-- The tree with all markup lowered. -/
def lower (paths : Paths) (tree : Tree) : Tree :=
  tree.fold (lowerNode paths)

/-- Whether the tree is an element or a fragment. -/
def isMarkup (tree : Tree) : Bool :=
  match tree.kind with
  | .element _ | .fragment => true
  | _ => false

/-- The elements and fragments that lie in no other one, from left to right. -/
def outermost (tree : Tree) : List Tree :=
  tree.fold fun node parts => if isMarkup node then [node] else parts.flatten

end Markup

end LiveComponent
