import LiveComponent.Script.Parser.Markup
import LiveComponent.Script.Parser.Module

namespace LiveComponent

/-!
# Parsing scripts

A source is parsed as a module with markup and, on demand, with types.  Its tree exists exactly when
the grammar accepts it.
-/

namespace Parser

/-- The parser of each goal. -/
def parserOf : Goal → P Tree
  | .statement single => statement single
  | .block => block
  | .functionBody => functionBody
  | .expression => expression
  | .assignment resultType => assignment resultType
  | .operation level => operation level
  | .unary => unary
  | .simpleUnary => simpleUnary
  | .leftHand => leftHand
  | .constructed => constructed
  | .pattern => bindingPattern
  | .anyType => anyType
  | .operatorType => operatorType
  | .markup inChildren => markup inChildren

/-- Reach goals within a bounded depth. -/
def reach : Nat → Goal → Step Tree
  | 0, _ => fun _ => none
  | depth + 1, goal => parserOf goal (reach depth)

/-- The first line of a source is skipped if it names an interpreter. -/
def skipHashbang (source : Text) : Text × Nat :=
  match source with
  | '#' :: '!' :: _ =>
    let line := source.takeWhile fun c => !Lexer.isLineEnd c
    (source.drop line.length, line.length)
  | _ => (source, 0)

/-- The state in front of the first token. -/
def State.initial (typed : Bool) (source : Text) : State :=
  let (rest, offset) := skipHashbang source
  let flags : Flags := ⟨true, true, false, false, false, false, false⟩
  let empty : State :=
    ⟨typed, source.length + 2, .bad, offset, offset, false, .none, rest, rest, offset, false, flags,
      [], []⟩
  { empty.next with lastStop := 0 }

/-- A bound on the depth of goals; between two tokens at most a dozen goals are nested. -/
def depthBound (source : Text) : Nat :=
  16 * (source.length + 4)

/-- All statements of a source. -/
def program : P Tree := do
  let all ← directivesAndStatements atEnd (want (.statement false))
  return .node .program ⟨0, (← get).stop⟩ all

/-- The names that a pattern declares. -/
def boundNames : Tree → List Text :=
  Tree.fold fun tree names =>
    match tree.kind with
    | .binding text => [text]
    | .defaultPattern => (names.take 1).flatten
    | .patternProperty .. => (names.drop 1).flatten
    | _ => names.flatten

/-- The text of an exported name. -/
def exportedText : Tree → List Text
  | .node (.name text) _ _ => [text]
  | .node (.stringLiteral text _) _ _ => [text]
  | _ => []

/-- The names that a declaration exports. -/
def declaredExports : Tree → List Text
  | .node (.bindings ..) _ declarators =>
    declarators.flatMap fun tree => (tree.children.take 1).flatMap boundNames
  | .node (.function ..) _ (name :: _) => boundNames name
  | .node (.classLike ..) _ (_ :: name :: _) => boundNames name
  | _ => []

/-- The names that a statement exports. -/
def exportedNames : Tree → List Text
  | .node .exportDeclaration _ [inner] => declaredExports inner
  | .node (.exportNames _) _ (_ :: all) =>
    all.flatMap fun tree => (tree.children.drop 1).flatMap exportedText
  | .node .exportDefault _ _ => ["default".toList]
  | .node (.exportAll _) _ [name, _] => exportedText name
  | _ => []

/-- Whether all members of a list are distinct. -/
def allDistinct (texts : List Text) : Bool :=
  match texts with
  | [] => true
  | text :: rest => !rest.contains text && allDistinct rest

/-- The tree of a source with or without types, if the grammar accepts it. -/
def parseWith? (typed : Bool) (source : Text) : Option Tree :=
  match program (reach (depthBound source)) (State.initial typed source) with
  | some (tree, state) =>
    if state.faulty || !state.pending.isEmpty then none
    else if !typed && !allDistinct (tree.children.flatMap exportedNames) then none
    else some tree
  | none => none

end Parser

/-- The tree of a source with or without types, if the grammar accepts it. -/
def parse? (typed : Bool) (source : Text) : Option Tree :=
  Parser.parseWith? typed source

end LiveComponent
