import LiveComponent.Classification
import LiveComponent.Config
import LiveComponent.Markup.Lowering
import LiveComponent.Script.Parse
import LiveComponent.Script.Printer.Nodes
import LiveComponent.Text.Splice

namespace LiveComponent

/-!
# Transpiling

Markup is replaced by factory calls in the text of a source; everything else stays as it is, except
that the factory is imported if nothing seems to bind it.
-/

namespace Markup

/-- How to transpile. -/
structure Options where
  factory : Text
  fragment : Text
  /-- The module from which the factory is imported. -/
  frameworkModule : Text
  /-- Whether the source has types; without an answer its text decides. -/
  typed : Option Bool
deriving DecidableEq, Repr

/-- The options of a framework. -/
def Options.ofFramework (framework : Framework) : Options :=
  ⟨framework.factory, framework.fragment, framework.name, none⟩

/-- What came of a transpilation. -/
structure Outcome where
  success : Bool
  code : Option Text
  error : Option Text
  warnings : List Text
deriving DecidableEq, Repr

namespace Outcome

/-- A failed transpilation. -/
def failed (error : Text) : Outcome :=
  ⟨false, none, some error, []⟩

/-- The code and warnings of a transpilation, or its failure. -/
def result (outcome : Outcome) : Except Failure (Text × List Text) :=
  match outcome.success, outcome.code with
  | true, some code => .ok (code, outcome.warnings)
  | _, _ =>
    .error (.transpile (outcome.error.getD "unknown transpile failure") outcome.warnings)

end Outcome

open Pattern in
/-- An import at the start of a line, up to the first name it binds. -/
def importBinding : Pattern :=
  sequence
    [Classification.lineIndent, text "import", blanks1,
      optional (sequence [char '*', blanks, text "as", blanks1]), group "name" name]

open Pattern in
/-- A declaration of the given name. -/
def declarationOf (declared : Text) : Pattern :=
  sequence
    [boundary, oneWordOf ["const", "let", "var", "function", "class"], blanks1, text declared,
      boundary]

/-- Whether the code seems to bind a name. -/
def bindsName (code declared : Text) : Bool :=
  ((importBinding.findAll code).any fun found => found.text? "name" == some declared) ||
    (declarationOf declared).occurs code

open Pattern in
/-- A directive for a framework at the start of the text, with its line. -/
def directiveLine : Pattern :=
  let directive := seq (text "use ") (some1 fun c => isWordChar c || c == ' ')
  sequence
    [textStart, blanks,
      choice
        [sequence [char '"', directive, char '"'], sequence [char '\'', directive, char '\'']],
      optional (char ';'), spaces, optional (char '\r'), char '\n']

/-- Insert a line behind the directive line. -/
def insertLine (line code : Text) : Text :=
  match directiveLine.find? code with
  | some found => code.take found.whole.stop ++ line ++ code.drop found.whole.stop
  | none => line ++ code

/-- The variable behind a dotted path. -/
def rootOf (path : Text) : Text :=
  path.takeWhile (· != '.')

/-- The line that imports the root of the factory. -/
def importLine (options : Options) : Text :=
  "import ".toList ++ rootOf options.factory ++ " from \"".toList ++ options.frameworkModule ++
    "\";\n".toList

/-- The edit that replaces an element or fragment by its factory call. -/
def loweringEdit (paths : Paths) (tree : Tree) : Edit :=
  ⟨tree.span.start, tree.span.stop, (lower paths tree).expressionText⟩

/-- Bind the factory in lowered code, if nothing seems to bind it. -/
def bindFactory (options : Options) (code : Text) : Text × List Text :=
  let root := rootOf options.factory
  if bindsName code root then
    (code, [])
  else
    (insertLine (importLine options) code,
      ["added missing `".toList ++ root ++ "` import for lowered markup".toList])

/-- Replace the markup of a source by factory calls. -/
def transpile (options : Options) (code : Text) : Outcome :=
  match parse? (options.typed.getD (isTyped code)) code with
  | none => .failed "syntax error: the source is no module"
  | some tree =>
    let found := outermost tree
    if found.isEmpty then
      ⟨true, some code, none, ["no markup found; source left unchanged".toList]⟩
    else
      let paths : Paths := ⟨options.factory, options.fragment⟩
      let lowered := Text.splice (found.map (loweringEdit paths)) code
      if isModule lowered then
        let (bound, warnings) := bindFactory options lowered
        ⟨true, some bound, none, warnings⟩
      else
        .failed "unexpectedly removed module structure"

end Markup

end LiveComponent
