import LiveComponent.Config
import LiveComponent.Text.Pattern
import LiveComponent.Text.Splice

namespace LiveComponent

/-!
# Import specifiers

A loaded module finds its dependencies by address.  Addresses and paths stay as they are, entry
points of the framework go to local shims, and bare packages go to a mirror that is told to leave the
framework out.
-/

namespace Specifier

open Pattern in
/-- A scheme with its colon at the start of the text. -/
def schemePattern : Pattern :=
  sequence
    [
      textStart,
      one Char.isAlpha,
      many fun c => c.isAlphanum || c == '+' || c == '.' || c == '-',
      char ':'
    ]

/-- Whether the specifier is an address or a path. -/
def isAddress (specifier : Text) : Bool :=
  schemePattern.occurs specifier || "//".toList.isPrefixOf specifier ||
    "./".toList.isPrefixOf specifier || "../".toList.isPrefixOf specifier ||
    "/".toList.isPrefixOf specifier

/-- The packages that the mirror leaves out. -/
def external (config : Config) : Text :=
  config.framework.name ++ [','] ++ config.framework.domBinding

/-- The address of a bare package at the mirror. -/
def mirrored (config : Config) (specifier : Text) : Text :=
  "https://".toList ++ config.mirrorHost ++ ['/'] ++ specifier ++
    (if specifier.contains '?' then ['&'] else ['?']) ++ "external=".toList ++ external config

/-- The address of a specifier. -/
def resolve (config : Config) (specifier : Text) : Text :=
  if isAddress specifier then
    specifier
  else
    match config.framework.shims.lookup specifier with
    | some shim => shim
    | none => mirrored config specifier

/-- The address of a specifier that is not empty and holds no blank. -/
def tryResolve (config : Config) (specifier : Text) : Except Failure Text :=
  if specifier.isEmpty then
    .error (.moduleResolution specifier "empty specifier")
  else if specifier.any isBlank then
    .error (.moduleResolution specifier "specifier contains whitespace")
  else
    .ok (resolve config specifier)

open Pattern in
/-- A quoted specifier after `from`, `import` or `import(`. -/
def importPattern : Pattern :=
  sequence
    [
      choice
        [
          sequence [boundary, text "from", blanks],
          sequence [boundary, text "import", blanks, char '(', blanks],
          sequence [boundary, text "import", blanks]
        ],
      oneOf "'\"",
      group "specifier" (some1 fun c => c != '\'' && c != '"' && c != '\r' && c != '\n'),
      oneOf "'\""
    ]

/-- The specifiers of the imports of a text, in order, with their places. -/
def occurrences (code : Text) : List Pattern.Part :=
  (importPattern.findAll code).filterMap fun found => found.part? "specifier"

/-- The edits that put addresses in the place of specifiers; the first failure wins. -/
def rewrites (config : Config) : List Pattern.Part → Except Failure (List Edit)
  | [] => .ok []
  | part :: parts =>
    match tryResolve config part.text with
    | .error failure => .error failure
    | .ok address => (rewrites config parts).map (⟨part.start, part.stop, address⟩ :: ·)

/-- Put its address in the place of each import specifier. -/
def rewriteImports (config : Config) (code : Text) : Except Failure Text :=
  (rewrites config (occurrences code)).map fun edits => Text.splice edits code

/-- The distinct members of a list, each at its first place. -/
def distinct (texts : List Text) : List Text :=
  texts.foldl (fun seen text => if seen.contains text then seen else seen ++ [text]) []

/-- The distinct import specifiers of a text in order. -/
def collect (code : Text) : List Text :=
  distinct ((occurrences code).map Pattern.Part.text)

end Specifier

end LiveComponent
