import LiveComponent.Failure
import LiveComponent.Text.Pattern

namespace LiveComponent

/-!
# Classification of sources

Whether a source is a module or a legacy script, and in which dialect it is written, is guessed from
its text alone.
-/

/-- The form of a source. -/
inductive SourceFormat where
  | module
  | legacyScript
deriving DecidableEq, Repr

/-- The dialect of a source. -/
inductive Dialect where
  | plain
  | typed
  | markup
deriving DecidableEq, Repr

namespace Classification

open Pattern

/-- The start of a line with its indentation. -/
def lineIndent : Pattern :=
  seq lineStart spaces

/-- An upper case letter. -/
def isCapital (c : Char) : Bool :=
  'A' ≤ c && c ≤ 'Z'

/-- A keyword of an exported declaration, up to the end of the word. -/
def exportedKeyword : Pattern :=
  choice
    (["default", "const", "let", "var", "function", "async", "class", "type", "interface",
      "enum"].map fun word => seq (text word.toList) boundary)

/-- An import or export statement at the start of a line. -/
def moduleSyntax : Pattern :=
  seq lineIndent
    (choice
      [
        sequence [text "import", blanks1,
          one fun c => isNamePart c || c == '*' || c == '\x7b'],
        sequence [text "import", blanks, oneOf ['\'', '"', '\x7b', '*']],
        sequence [text "export", blanks1, exportedKeyword],
        sequence [text "export", blanks, oneOf ['\x7b', '*']]
      ])

/-- An optional `export` with blanks after it. -/
def optionalExport : Pattern :=
  optional (seq (text "export") blanks1)

/-- An interface, a type alias or an import of types at the start of a line. -/
def typeDeclaration : Pattern :=
  seq lineIndent
    (choice
      [
        sequence [optionalExport, text "interface", blanks1, name],
        sequence [optionalExport, text "type", blanks1, name, blanks,
          optional (sequence [char '<', many (· != '>'), char '>']), blanks, char '='],
        sequence [text "import", blanks1, text "type", blanks1,
          one fun c => isNamePart c || c == '\x7b']
      ])

/-- The names of the predefined types. -/
def predefinedType : Pattern :=
  oneWordOf ["string", "number", "boolean", "any", "unknown", "void"]

/-- A capital letter and the dotted name it starts. -/
def capitalizedPath : Pattern :=
  seq (one isCapital) (many fun c => isNamePart c || c == '.')

/-- A keyword that declares variables. -/
def variableKeyword : Pattern :=
  oneWordOf ["const", "let", "var"]

/-- A type annotation of a parameter or variable, or a hook with a type argument. -/
def typeAnnotation : Pattern :=
  choice
    [
      sequence [oneOf "(,", blanks, name, optional (char '?'), blanks, char ':', blanks,
        choice [capitalizedPath, predefinedType], boundary],
      sequence [char ':', blanks, predefinedType, optional (text "[]"), blanks, oneOf "=;,)"],
      sequence [boundary, variableKeyword, blanks1, name, blanks, char ':', blanks,
        capitalizedPath, optional (sequence [char '<', many (· != '='), char '>']), blanks,
        char '='],
      sequence [boundary, text "use", one isCapital, many isWordChar, char '<',
        one fun c => c.isAlpha || c == '[']
    ]

/-- The tags that are recognised by name. -/
def knownTags : List String :=
  ["div", "span", "p", "a", "ul", "ol", "li", "img", "h1", "h2", "h3", "h4", "h5", "h6", "button",
    "input", "label", "form", "section", "header", "footer", "main", "nav", "svg", "path", "canvas",
    "textarea", "select", "option", "table", "tr", "td", "th"]

/-- A character after which a tag name is complete. -/
def isTagEnd (c : Char) : Bool :=
  isBlank c || c == '/' || c == '>'

/-- A tag with a capitalized name. -/
def capitalizedTag : Pattern :=
  sequence [char '<', capitalizedPath, one isTagEnd]

/-- A tag that is recognised by name. -/
def knownTag : Pattern :=
  sequence [char '<', oneWordOf knownTags, one isTagEnd]

/-- A returned tag. -/
def returnedMarkup : Pattern :=
  sequence [text "return", blanks, optional (char '('), blanks, char '<',
    one fun c => c.isAlpha || c == '>']

/-- An attribute with an expression. -/
def attributeExpression : Pattern :=
  sequence [one isBlank, one Char.isAlpha, many (fun c => isWordChar c || c == '-'), char '=',
    char '\x7b']

/-- The starts of common tags. -/
def commonTags : List String :=
  ["<div", "<span", "<button", "<input", "<svg", "<section", "</div>", "</span>", "</button>"]

/-- A declaration of a capitalized name at the start of a line. -/
def capitalizedDeclaration : Pattern :=
  let capitalized := group "name" (seq (one isCapital) (many isNamePart))
  seq lineIndent
    (choice
      [
        sequence [optional (seq (text "async") blanks1), text "function", blanks,
          optional (char '*'), blanks, capitalized],
        sequence [text "class", blanks1, capitalized],
        sequence [variableKeyword, blanks1, capitalized, blanks, char '=']
      ])

/-- A binding of the framework's default name. -/
def frameworkBinding : Pattern :=
  choice
    [
      sequence [boundary, variableKeyword, blanks1, text "React", blanks, char '='],
      sequence [boundary, text "import", blanks1, text "React", boundary]
    ]

end Classification

open Classification

/-- Whether the source has an import or export statement at the start of a line. -/
def isModule (code : Text) : Bool :=
  moduleSyntax.occurs code

/-- Whether the source seems to have types. -/
def isTyped (code : Text) : Bool :=
  typeDeclaration.occurs code || typeAnnotation.occurs code

/-- Whether the source seems to have markup. -/
def containsMarkup (code : Text) : Bool :=
  capitalizedTag.occurs code || knownTag.occurs code || returnedMarkup.occurs code ||
    (attributeExpression.occurs code && code.contains '<') ||
    Text.occursIn "<>" code || Text.occursIn "</>" code ||
    commonTags.any fun tag => Text.occursIn tag.toList code

/-- The guessed form of a source. -/
def SourceFormat.ofText (code : Text) : SourceFormat :=
  if isModule code then .module else .legacyScript

/-- The guessed dialect of a source. -/
def Dialect.ofText (code : Text) : Dialect :=
  if isTyped code then .typed else if containsMarkup code then .markup else .plain

/-- The name of the last capitalized declaration of a script. -/
def lastCapitalized? (code : Text) : Option Text :=
  ((capitalizedDeclaration.findAll code).filterMap fun found => found.text? "name").getLast?

/-- Make a module of a legacy script: import the framework unless it is bound, and export the last
capitalized declaration. -/
def modularizeLegacy (code : Text) : Except Failure Text :=
  match lastCapitalized? code with
  | none =>
    .error (.unsupportedFormat "legacy script declares no capitalized component to export")
  | some component =>
    let lead : Text :=
      if frameworkBinding.occurs code then [] else "import React from \"react\";\n".toList
    .ok (lead ++ Text.trimEnd code ++ "\n\nexport default ".toList ++ component ++ ";\n".toList)

end LiveComponent
