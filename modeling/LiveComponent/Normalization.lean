import LiveComponent.Config
import LiveComponent.Teardown

namespace LiveComponent

/-!
# Normalization of framework imports

A component often calls primitives of the framework that it forgot to import.  They are added to the
first import of the framework that binds values, and unsafe teardown calls are guarded.
-/

/-- The primitives of the framework that may be used without an import, in ascending order. -/
def primitives : List String :=
  ["createContext", "forwardRef", "lazy", "memo", "startTransition", "useCallback", "useContext",
    "useDeferredValue", "useEffect", "useId", "useImperativeHandle", "useLayoutEffect", "useMemo",
    "useReducer", "useRef", "useState"]

/-- What came of a normalization. -/
structure Normalization where
  success : Bool
  code : Text
  /-- The primitives that were added to the import. -/
  added : List Text
  warnings : List Text
  error : Option Text
deriving DecidableEq, Repr

namespace Normalization

/-- The code and warnings of a normalization, or its failure. -/
def result (outcome : Normalization) : Except Failure (Text × List Text) :=
  if outcome.success then .ok (outcome.code, outcome.warnings)
  else .error (.importNormalization (outcome.error.getD "unknown normalization failure".toList))

open Pattern in
/-- A static import of a module at the start of a line. -/
def importOf (moduleName : Text) : Pattern :=
  sequence
    [
      lineStart,
      group "indent" spaces,
      text "import",
      blanks1,
      optional (sequence [group "default" name, blanks, optional (char ','), blanks]),
      optional
        (sequence [char '\x7b', group "named" (many fun c => c != '\x7d'), char '\x7d']),
      blanks,
      text "from",
      blanks,
      group "quote" (oneOf "'\""),
      text moduleName,
      oneOf "'\"",
      spaces,
      optional (char ';')
    ]

/-- Whether an import binds values and not only types. -/
def bindsValues (found : Pattern.Found) : Bool :=
  match found.text? "default" with
  | some name => name != "type".toList
  | none => (found.text? "named").isSome

/-- The entries of an import list, with single spaces between their words. -/
def entries (named : Text) : List Text :=
  ((Text.splitAt ',' named).map Text.squash).filter fun entry => !entry.isEmpty

/-- The name that an entry imports, apart from its alias. -/
def importedName (entry : Text) : Text :=
  let entry := (Text.dropLead? "type " entry).getD entry
  (Text.words entry).headD entry

/-- The names that a module declares anywhere, if it can be parsed. -/
def declaredNames? (code : Text) : Option (List Text) :=
  (parse? (isTyped code) code).map <| Tree.fold fun tree names =>
    match tree.kind with
    | .binding name => [name]
    | _ => names.flatten

open Pattern in
/-- A call of a name that is not a member. -/
def callOf (called : Text) : Pattern :=
  sequence
    [choice [textStart, one fun c => !isNamePart c && c != '.'], text called, blanks, char '(']

open Pattern in
/-- A declaration of a name. -/
def declarationOf (declared : Text) : Pattern :=
  sequence
    [boundary, oneWordOf ["function", "const", "let", "var", "class"], blanks1, text declared,
      boundary]

/-- Whether a name is declared; without a tree the text decides. -/
def isDeclared (declared : Option (List Text)) (code name : Text) : Bool :=
  match declared with
  | some names => names.contains name
  | none => (declarationOf name).occurs code

/-- The primitives that the code calls and neither imports nor declares. -/
def missing (imported : List Text) (code : Text) : List Text :=
  let declared := declaredNames? code
  (primitives.map String.toList).filter fun name =>
    !imported.contains name && (callOf name).occurs code && !isDeclared declared code name

/-- The module name as it is written: the text before the last of the opening quotes. -/
def writtenModule (found : Pattern.Found) : Text :=
  match found.text? "quote" with
  | some [quote] => (Text.splitAt quote found.whole.text).reverse[1]?.getD "react".toList
  | _ => "react"

/-- The import with the given entries in its list. -/
def rebuilt (found : Pattern.Found) (entries : List Text) : Text :=
  let quote := (found.text? "quote").getD "'".toList
  let list := "\x7b ".toList ++ Text.joinWith ", " entries ++ " \x7d".toList
  let head :=
    match found.text? "default" with
    | some name => name ++ ", ".toList ++ list
    | none => list
  (found.text? "indent").getD [] ++ "import ".toList ++ head ++ " from ".toList ++ quote ++
    writtenModule found ++ quote ++ ";".toList

/-- Add the missing primitives to a found import; the second part names them. -/
def complete (found : Pattern.Found) (code : Text) : Text × List Text :=
  let current := ((found.text? "named").map entries).getD []
  let body := code.take found.whole.start ++ code.drop found.whole.stop
  let added := missing (current.map importedName) body
  if added.isEmpty then
    (code, [])
  else
    let statement := rebuilt found (Text.sortedSet (current ++ added))
    (Text.splice [⟨found.whole.start, found.whole.stop, statement⟩] code, added)

/-- Complete the framework import of a source and guard its teardown calls. -/
def ofText (framework : Framework) (code : Text) : Normalization :=
  match ((importOf framework.name).findAll code).filter bindsValues with
  | [] =>
    ⟨true, code, [], ["no framework import statement found; imports left unchanged".toList], none⟩
  | found :: others =>
    let repeated : List Text :=
      if others.isEmpty then []
      else ["multiple framework imports found; only the first is normalized".toList]
    let (completed, added) := complete found code
    let (guarded, warnings) := Teardown.guard completed
    ⟨true, guarded, added, repeated ++ warnings, none⟩

end Normalization

end LiveComponent
