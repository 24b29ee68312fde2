import LiveComponent.Script.Lexer
import LiveComponent.Script.Tree

namespace LiveComponent

/-!
# Parser states and steps

A parser step takes a state to a result and a state, or gives up.  A fault that does not stop the
parser is remembered in the state, so that a source is accepted only if none is left at the end, while
an abandoned attempt takes its faults with it.

The grammar is recursive through goals: a step may ask for the tree of a goal, and the steps behind
the goals are tied together in one place, with a bound on their depth.
-/

namespace Parser

/-- What the place in the grammar allows. -/
structure Flags where
  /-- `in` is an operator. -/
  allowIn : Bool
  /-- `await` is an operator. -/
  awaits : Bool
  /-- `yield` is an operator. -/
  yields : Bool
  /-- `return` may occur. -/
  returns : Bool
  /-- Declarations have no bodies. -/
  ambient : Bool
  /-- A conditional type may not stand here without parentheses. -/
  noConditional : Bool
  /-- A bracket does not belong to the expression before it. -/
  decorates : Bool
deriving DecidableEq, Repr

/-- The state of the parser: the current token and what is known about the place. -/
structure State where
  /-- Whether types are part of the grammar. -/
  typed : Bool
  /-- A bound on the number of elements of any list of the source. -/
  budget : Nat
  token : Token
  start : Nat
  stop : Nat
  /-- Whether a line ended before the token. -/
  newline : Bool
  /-- What the comments before the token say. -/
  notes : Lexer.Notes
  /-- The source from the token on. -/
  here : Text
  /-- The source after the token. -/
  rest : Text
  /-- The end of the token before. -/
  lastStop : Nat
  /-- Whether the source has a fault so far. -/
  faulty : Bool
  flags : Flags
  /-- The starts of shorthand properties with a value, which only patterns may have. -/
  pending : List Nat
  /-- The starts of lists that end in a comma. -/
  commas : List Nat

/-- The parts of the grammar through which it is recursive. -/
inductive Goal where
  /-- A statement; `single` if it is the body of another statement. -/
  | statement (single : Bool)
  | block
  | functionBody
  | expression
  /-- An assignment or anything that binds tighter; the flag tells whether an arrow function may
  state its result type. -/
  | assignment (resultType : Bool)
  /-- An operation that binds tighter than the given level. -/
  | operation (level : Nat)
  | unary
  | simpleUnary
  | leftHand
  /-- The function of a `new` expression. -/
  | constructed
  /-- A binding pattern without a type or a value. -/
  | pattern
  | anyType
  | operatorType
  /-- A tag; the flag tells whether it stands among the children of another one. -/
  | markup (inChildren : Bool)

/-- A function from states that may give up. -/
abbrev Step (α : Type) := State → Option (α × State)

/-- A parser that may ask for the trees of goals. -/
def P (α : Type) := (Goal → Step Tree) → Step α

instance : Monad P where
  pure value := fun _ state => some (value, state)
  bind first next := fun goals state =>
    match first goals state with
    | some (value, state) => next value goals state
    | none => none

/-- Ask for the tree of a goal. -/
def want (goal : Goal) : P Tree :=
  fun goals => goals goal

/-- Give up. -/
def fail {α : Type} : P α :=
  fun _ _ => none

/-- The current state. -/
def get : P State :=
  fun _ state => some (state, state)

/-- Change the state. -/
def modify (change : State → State) : P Unit :=
  fun _ state => some ((), change state)

/-- Remember a fault. -/
def fault : P Unit :=
  modify fun state => { state with faulty := true }

/-- Remember a fault if the condition holds. -/
def faultIf (condition : Bool) : P Unit :=
  if condition then fault else pure ()

/-- Try a parser; if it gives up, the state stays as it was. -/
def attempt {α : Type} (parser : P α) : P (Option α) :=
  fun goals state =>
    match parser goals state with
    | some (value, state) => some (some value, state)
    | none => some (none, state)

/-- Try a parser that may find nothing; then the state stays as it was. -/
def attemptOption {α : Type} (parser : P (Option α)) : P (Option α) :=
  fun goals state =>
    match parser goals state with
    | some (some value, state) => some (some value, state)
    | _ => some (none, state)

/-- Run a parser ahead; the state stays as it was, and giving up means `other`. -/
def probe {α : Type} (other : α) (parser : P α) : P α :=
  fun goals state =>
    match parser goals state with
    | some (answer, _) => some (answer, state)
    | none => some (other, state)

/-- Run a test ahead; the state stays as it was, and giving up means no. -/
def ahead (test : P Bool) : P Bool :=
  probe false test

/-- Run a parser with other flags. -/
def withFlags {α : Type} (change : Flags → Flags) (parser : P α) : P α :=
  fun goals state =>
    match parser goals { state with flags := change state.flags } with
    | some (value, after) => some (value, { after with flags := state.flags })
    | none => none

/-! ## Tokens -/

/-- The state at the next token, as read by `reader` from a place. -/
def State.load (state : State) (start : Lexer.Start) (reading : Lexer.Reading) : State :=
  { state with
    token := reading.token
    start := start.offset
    stop := start.offset + reading.size
    newline := start.newline
    notes := start.notes
    here := start.rest
    rest := start.rest.drop reading.size
    lastStop := state.stop
    faulty := state.faulty || !reading.valid || !start.closed }

/-- The state after the next token. -/
def State.next (state : State) : State :=
  let start := Lexer.skip .blank state.stop false .none state.rest
  state.load start (Lexer.read start.rest)

/-- Whether the current token is a keyword written with an escape. -/
def State.isDisguised (state : State) : Bool :=
  match state.token with
  | .word text true => Token.isKeyword text
  | _ => false

/-- Go on to the next token. -/
def advance : P Unit :=
  modify fun state => { state.next with faulty := state.next.faulty || state.isDisguised }

/-- Go on to the next token after a name, in which escapes are allowed. -/
def advanceName : P Unit :=
  modify State.next

/-- Go on to the next token among the children of a tag. -/
def advanceMarkup : P Unit :=
  modify fun state =>
    state.load ⟨state.rest, state.stop, false, .none, true⟩ (Lexer.readMarkup state.rest)

/-- Go on to the value of an attribute. -/
def advanceToValue : P Unit :=
  modify fun state =>
    let start := Lexer.skip .blank state.stop false .none state.rest
    match start.rest with
    | '"' :: rest => state.load start (Lexer.readQuotedValue '"' rest)
    | '\'' :: rest => state.load start (Lexer.readQuotedValue '\'' rest)
    | _ => state.load start (Lexer.read start.rest)

/-- Read the current token again. -/
def reread (reading : Lexer.Reading) : P Unit :=
  modify fun state =>
    { state with
      token := reading.token
      stop := state.start + reading.size
      rest := state.here.drop reading.size
      faulty := state.faulty || !reading.valid }

/-- Join a closing angle bracket with what follows it. -/
def rereadAngle : P Unit := do
  let state ← get
  if state.token.isMark ">" then reread (Lexer.readAngle state.here)

/-- Read an opening angle bracket alone. -/
def rereadOpenAngle : P Unit := do
  let state ← get
  if state.token.isMark "<<" || state.token.isMark "<<=" || state.token.isMark "<=" then
    reread ⟨.mark "<", 1, true⟩

/-- Whether the current token is the mark. -/
def atMark (text : String) : P Bool := do
  return (← get).token.isMark text

/-- Whether the current token is one of the marks. -/
def atOneOf (texts : List String) : P Bool := do
  let state ← get
  return texts.any state.token.isMark

/-- Whether the current token is the word. -/
def atWord (text : String) : P Bool := do
  return (← get).token.isWord text

/-- Whether the current token is the end of the source. -/
def atEnd : P Bool := do
  return (← get).token == .eof

/-- Go past the mark if it is there. -/
def eat (text : String) : P Bool := do
  if ← atMark text then
    advance
    return true
  else
    return false

/-- Go past the word if it is there. -/
def eatWord (text : String) : P Bool := do
  if ← atWord text then
    advance
    return true
  else
    return false

/-- Go past the mark, which must be there. -/
def expect (text : String) : P Unit := do
  if ← atMark text then advance else fail

/-- Go past the word, which must be there. -/
def expectWord (text : String) : P Unit := do
  if ← atWord text then advance else fail

/-- The start of the current token. -/
def here : P Nat := do
  return (← get).start

/-- The part of the source from `start` to the end of the last token. -/
def spanFrom (start : Nat) : P Span := do
  return ⟨start, (← get).lastStop⟩

/-- A node that ends at the last token. -/
def node (start : Nat) (kind : Kind) (children : List Tree) : P Tree := do
  return .node kind (← spanFrom start) children

/-- Whether a statement may end before the current token without a semicolon. -/
def canEndStatement : P Bool := do
  let state ← get
  return state.newline || state.token == .eof || state.token.isMark ";" || state.token.isMark "\x7d"

/-- End a statement: a semicolon, or a place where it may be left out. -/
def endStatement : P Unit := do
  if ← canEndStatement then
    let _ ← eat ";"
  else
    fail

/-- A missing part, or the part if the condition holds. -/
def optionalPart (condition : Bool) (parser : P Tree) : P Tree :=
  if condition then parser else pure .absent

/-! ## Lists -/

/-- Whether to go round once more. -/
inductive Turn (σ α : Type) where
  | again (state : σ)
  | done (value : α)

/-- Go round at most `count` times. -/
def roundTrips {σ α : Type} (step : σ → P (Turn σ α)) : Nat → σ → P α
  | 0, _ => fail
  | count + 1, value => do
    match ← step value with
    | .again value => roundTrips step count value
    | .done result => pure result

/-- Go round until a result is found. -/
def rounds {σ α : Type} (step : σ → P (Turn σ α)) (value : σ) : P α := do
  roundTrips step (← get).budget value

/-- Items up to a place where the test holds. -/
def manyUntil (stop : P Bool) (item : P Tree) : P (List Tree) :=
  rounds
    (fun items => do
      if ← stop then
        return .done items.reverse
      else
        return .again ((← item) :: items))
    []

/-- Items with commas between, up to the closing mark; the flag tells whether the list ends in a
comma. -/
def commaList (close : String) (item : P Tree) : P (List Tree × Bool) := do
  if ← atMark close then
    return ([], false)
  else
    rounds
      (fun items => do
        let items := (← item) :: items
        if ← atMark close then
          return .done (items.reverse, false)
        else
          expect ","
          if ← atMark close then
            return .done (items.reverse, true)
          else
            return .again items)
      []

/-- Items with commas between, of which only the last may be a rest item. -/
def restList (close : String) (item rest : P Tree) : P (List Tree) :=
  rounds
    (fun (items, sawRest) => do
      if ← atMark close then
        return .done items.reverse
      else
        faultIf sawRest
        let isRest ← atMark "..."
        let items := (← if isRest then rest else item) :: items
        if ← atMark close then
          return .done items.reverse
        else
          expect ","
          let state ← get
          faultIf (isRest && state.token.isMark close && !state.flags.ambient)
          return .again (items, sawRest || isRest))
    ([], false)

/-- Items with the mark between. -/
def separated (mark : String) (item : P Tree) : P (List Tree) :=
  rounds
    (fun items => do
      let items := (← item) :: items
      if ← eat mark then
        return .again items
      else
        return .done items.reverse)
    []

end Parser

end LiveComponent
