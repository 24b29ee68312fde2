import LiveComponent.Classification
import LiveComponent.Script.Parse
import LiveComponent.Text.Splice

namespace LiveComponent

/-!
# Guarded teardown

Statements that release resources may run twice or against nodes that are gone.  The three calls known
to fail then are put under a test or into a `try` statement, unless one surrounds them already.
-/

namespace Teardown

/-- What surrounds a statement. -/
structure Surroundings where
  /-- The tests under which the statement runs, with single spaces between their words. -/
  tests : List Text
  /-- Whether a `try` statement handles what the statement throws. -/
  handled : Bool
deriving DecidableEq, Repr

/-- Nothing surrounds a statement at the top. -/
def Surroundings.top : Surroundings :=
  ⟨[], false⟩

/-- Whether the statement runs under a test already, up to blanks. -/
def Surroundings.isTested (around : Surroundings) (test : Text) : Bool :=
  around.tests.contains (Text.squash test)

/-- The part of a source that a tree covers. -/
def textOf (source : Text) (tree : Tree) : Text :=
  Text.slice source tree.span.start tree.span.stop

/-- A call under a test. -/
def underTest (test call : Text) : Text :=
  "if (".toList ++ test ++ ") \x7b ".toList ++ call ++ "; \x7d".toList

/-- A call that reports what it throws. -/
def reported (call : Text) : Text :=
  "try \x7b ".toList ++ call ++
    "; \x7d catch (disposeError) \x7b console.warn(\"dispose failed\", disposeError); \x7d".toList

/-- The test for the removal of a child. -/
def childTest (parent child : Text) : Text :=
  parent ++ " && ".toList ++ child ++ " && ".toList ++ parent ++ ".contains(".toList ++ child ++
    ")".toList

/-- The test for the use of an owner's element. -/
def elementTest (owner : Text) : Text :=
  owner ++ " && ".toList ++ owner ++ ".domElement".toList

/-- The owner of an element, if the tree is a member `domElement`. -/
def elementOwner? : Tree → Option Tree
  | .node (.member false) _ [owner, .node (.name name) _ _] =>
    if name = "domElement".toList then some owner else none
  | _ => none

/-- The guarded form of a teardown call, if the expression is one that needs a guard. -/
def guarded? (source : Text) (around : Surroundings) : Tree → Option Text
  | .node (.call false pure) span
      (.node (.member false) _ [object, .node (.name name) _ _] :: _ :: arguments) =>
    let call := textOf source (.node (.call false pure) span [])
    if name = "removeChild".toList then
      match arguments with
      | [child] =>
        let test := childTest (textOf source object) (textOf source child)
        if around.isTested test then none else some (underTest test call)
      | _ => none
    else if name = "removeEventListener".toList then
      match elementOwner? object with
      | some owner =>
        let test := elementTest (textOf source owner)
        if around.isTested test then none else some (underTest test call)
      | none => none
    else if name = "dispose".toList then
      if arguments.isEmpty && !around.handled then some (reported call) else none
    else
      none
  | _ => none

/-- The edits in a node, given those in its children. -/
def editsOfNode
    (source : Text)
    (tree : Tree)
    (parts : List (Surroundings → List Edit))
    (around : Surroundings) :
    List Edit :=
  match tree, parts with
  | .node .conditionalStatement _ (testTree :: _), test :: consequent :: rest =>
    let tested : Surroundings :=
      { around with tests := Text.squash (textOf source testTree) :: around.tests }
    test around ++ consequent tested ++ rest.flatMap fun part => part around
  | .node .tryStatement _ _, block :: rest =>
    block { around with handled := true } ++ rest.flatMap fun part => part around
  | .node .expressionStatement span [expression], _ =>
    match guarded? source around expression with
    | some text => [⟨span.start, span.stop, text⟩]
    | none => parts.flatMap fun part => part around
  | _, _ => parts.flatMap fun part => part around

/-- The edits that guard the teardown calls of a source, from left to right. -/
def edits (source : Text) (tree : Tree) : List Edit :=
  tree.fold (editsOfNode source) .top

/-- Guard the teardown calls of a source; the second part holds warnings. -/
def guard (source : Text) : Text × List Text :=
  match parse? (isTyped source) source with
  | none => (source, ["cleanup rewrites skipped: source does not parse".toList])
  | some tree =>
    match edits source tree with
    | [] => (source, [])
    | found =>
      (Text.splice found source,
        ["guarded ".toList ++ Text.ofNat found.length ++ " unsafe teardown call(s)".toList])

end Teardown

end LiveComponent
