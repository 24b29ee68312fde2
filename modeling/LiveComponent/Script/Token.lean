import LiveComponent.Decimal.Double
import LiveComponent.Text.Basic

namespace LiveComponent

/-!
# Tokens of scripts

The smallest parts of a source, and the classes of words.
-/

/-- A token. -/
inductive Token where
  /-- The end of the source. -/
  | eof
  /-- A name or keyword; `escaped` tells whether it is written with an escape. -/
  | word (text : Text) (escaped : Bool)
  | privateName (text : Text)
  /-- An operator or a bracket. -/
  | mark (text : String)
  | number (value : Double)
  | bigint (digits : Text)
  | string (value : Text) (escaped : Bool)
  /-- The text of a template up to its end or up to the next substitution. -/
  | template (raw : Text) (complete valid : Bool)
  /-- A text between tags. -/
  | markupText (raw : Text)
  /-- Something that is no token. -/
  | bad
deriving DecidableEq, Repr

namespace Token

/-- Words that are never names of variables. -/
def reservedWords : List Text :=
  ["break", "case", "catch", "class", "const", "continue", "debugger", "default", "delete", "do",
    "else", "enum", "export", "extends", "false", "finally", "for", "function", "if", "import", "in",
    "instanceof", "new", "null", "return", "super", "switch", "this", "throw", "true", "try",
    "typeof", "var", "void", "while", "with"].map String.toList

/-- Words that are keywords in some places. -/
def contextualWords : List Text :=
  ["await", "yield", "let", "static", "async", "as", "from", "get", "set", "of", "target", "meta",
    "accessor", "abstract", "any", "asserts", "assert", "bigint", "boolean", "constructor",
    "declare", "global", "implements", "infer", "interface", "intrinsic", "is", "keyof", "module",
    "namespace", "never", "number", "object", "out", "override", "package", "private", "protected",
    "public", "readonly", "require", "satisfies", "string", "symbol", "type", "undefined", "unique",
    "unknown", "using", "defer", "source"].map String.toList

/-- Whether the word is never the name of a variable. -/
def isReserved (text : Text) : Bool :=
  reservedWords.contains text

/-- Whether the word is a keyword somewhere. -/
def isKeyword (text : Text) : Bool :=
  reservedWords.contains text || contextualWords.contains text

/-- Whether the token is the given mark. -/
def isMark (token : Token) (text : String) : Bool :=
  match token with
  | mark got => got == text
  | _ => false

/-- Whether the token is the given word, with or without escapes. -/
def isWord (token : Token) (text : String) : Bool :=
  match token with
  | word got _ => got == text.toList
  | _ => false

/-- Whether the token is a word at all. -/
def isAnyWord : Token → Bool
  | word _ _ => true
  | _ => false

/-- Whether the token can be the name of a variable. -/
def isBindable : Token → Bool
  | word text _ => !isReserved text
  | _ => false

/-- Whether the token is a string. -/
def isString : Token → Bool
  | string _ _ => true
  | _ => false

/-- Whether the token is a number of any size. -/
def isNumber : Token → Bool
  | number _ => true
  | bigint _ => true
  | _ => false

/-- Whether the token starts a template. -/
def isTemplate : Token → Bool
  | template .. => true
  | _ => false

/-- Whether the token is a literal: a number, a string, or one of the words for them. -/
def isLiteral (token : Token) : Bool :=
  token.isNumber || token.isString || token.isWord "null" || token.isWord "true" ||
    token.isWord "false"

/-- Whether the token can be the name of a property. -/
def isPropertyName (token : Token) : Bool :=
  token.isAnyWord || token.isString || token.isNumber

end Token

end LiveComponent
