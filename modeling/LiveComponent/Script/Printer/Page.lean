import LiveComponent.Script.Tree
import LiveComponent.Text.Identifier

namespace LiveComponent

/-!
# Printed pages

The text printed so far with what later text depends on: the indentation, and places at which an
expression begins a statement or the like.
-/

namespace Printer

/-! How tightly operators bind: an expression needs parentheses where at least its own level is
demanded. -/

namespace Level

def lowest : Nat := 0
def comma : Nat := 1
def yield : Nat := 3
def assign : Nat := 4
def conditional : Nat := 5
def coalesce : Nat := 6
def either : Nat := 7
def both : Nat := 8
def compare : Nat := 13
def shift : Nat := 14
def exponent : Nat := 17
def leading : Nat := 18
def trailing : Nat := 19
def construct : Nat := 20
def call : Nat := 21

end Level

/-- The text printed so far. -/
structure Page where
  /-- The characters, last first. -/
  reversed : Text
  size : Nat
  indent : Nat
  /-- Whether the next indentation is a space. -/
  joins : Bool
  /-- The place after an integer, where a point needs a space before it. -/
  afterInteger : Option Nat
  /-- The place where a statement starts. -/
  statementStart : Option Nat
  /-- The place where the result of an arrow function starts. -/
  arrowStart : Option Nat
  /-- The place after a regular expression. -/
  afterRegex : Option Nat
  /-- The last operator and the place after it. -/
  operator : Option (Text × Nat)

/-- An empty page. A point that comes first has a space before it. -/
def Page.blank : Page :=
  ⟨[], 0, 0, false, some 0, none, none, none, none⟩

/-- A step that prints on a page. -/
abbrev Print := StateM Page Unit

/-- How a node is to be printed. -/
structure Request where
  /-- The level from which on parentheses are needed. -/
  level : Nat
  /-- Whether the operator `in` needs parentheses. -/
  withoutIn : Bool
  /-- Whether calls need parentheses. -/
  withoutCall : Bool
  /-- Whether a statement continues the line instead of taking one of its own. -/
  sameLine : Bool

/-- A printable node. -/
abbrev Doc := Request → Print

/-- The request of an expression of its own. -/
def Request.plain (level : Nat) : Request :=
  ⟨level, false, false, false⟩

/-- The request of a statement that continues the line. -/
def Request.inline : Request :=
  ⟨0, false, false, true⟩

/-- The same request with another level. -/
def Request.at (request : Request) (level : Nat) : Request :=
  { request with level := level }

/-- The request of an operand; calls need no parentheses there. -/
def Request.operand (request : Request) (level : Nat) : Request :=
  ⟨level, request.withoutIn, false, false⟩

/-- Print a text. -/
def put (text : Text) : Print :=
  modify fun page =>
    { page with reversed := text.reverse ++ page.reversed, size := page.size + text.length }

/-- Print a given text. -/
def word (text : String) : Print :=
  put text.toList

/-- Print nothing. -/
def nothing : Print :=
  pure ()

/-- Print if the condition holds. -/
def when (condition : Bool) (print : Print) : Print :=
  if condition then print else nothing

/-- Print a line feed. -/
def newline : Print :=
  word "\n"

/-- Print a space. -/
def space : Print :=
  word " "

/-- Print the indentation of a line, or the space that joins a statement to the line before it. -/
def indentation : Print := do
  let page ← get
  if page.joins then
    set { page with joins := false }
    space
  else
    put (List.replicate page.indent '\t')

/-- Print with a deeper indentation. -/
def indented (print : Print) : Print := do
  modify fun page => { page with indent := page.indent + 1 }
  print
  modify fun page => { page with indent := page.indent - 1 }

/-- End a statement. -/
def semicolon : Print :=
  word ";\n"

/-- Print a space where a word would run into the word before it. -/
def spaceBeforeWord : Print := do
  let page ← get
  match page.reversed with
  | c :: _ => when (isIdPart c || page.afterRegex == some page.size) space
  | [] => nothing

/-- Print a word that must not run into the word before it. -/
def keyword (text : String) : Print := do
  spaceBeforeWord
  word text

/-- Print in parentheses if the condition holds. -/
def wrap (condition : Bool) (print : Print) : Print := do
  when condition (word "(")
  print
  when condition (word ")")

/-- Print one after the other. -/
def inOrder (prints : List Print) : Print :=
  prints.forM id

/-- Print with commas between. -/
def commaSeparated : List Print → Print
  | [] => nothing
  | [print] => print
  | print :: prints => do
    print
    word ", "
    commaSeparated prints

/-- Print with a text between. -/
def separatedBy (text : String) : List Print → Print
  | [] => nothing
  | [print] => print
  | print :: prints => do
    print
    word text
    separatedBy text prints

/-- Print each item on a line of its own, with commas between. -/
def lines (prints : List Print) : Print := do
  indented do
    match prints with
    | [] => nothing
    | first :: rest =>
      newline
      indentation
      first
      rest.forM fun print => do
        word ","
        newline
        indentation
        print
  newline
  indentation

/-- Print lines in braces, or empty braces. -/
def braces (isEmpty : Bool) (print : Print) : Print := do
  word "\x7b"
  when (!isEmpty) do
    newline
    indented print
    indentation
  word "\x7d"

/-- Whether the page is at the start of a statement. -/
def atStatementStart (page : Page) : Bool :=
  page.statementStart == some page.size

/-- Whether the page is at the start of the result of an arrow function. -/
def atArrowStart (page : Page) : Bool :=
  page.arrowStart == some page.size

/-- Operators that would run together without a space: a sign or step before another one. -/
def runsTogether (last next : Text) : Bool :=
  let isPlus (operator : Text) := operator == ['+'] || operator == ['+', '+']
  let isMinus (operator : Text) := operator == ['-'] || operator == ['-', '-']
  (last == ['+'] && isPlus next) || (last == ['-'] && isMinus next)

/-- Print an operator in front of its operand. -/
def leadingOperator (text : Text) : Print := do
  let page ← get
  match page.operator with
  | some (last, place) => when (place == page.size && runsTogether last text) space
  | none => nothing
  put text
  modify fun page => { page with operator := some (text, page.size) }

end Printer

end LiveComponent
