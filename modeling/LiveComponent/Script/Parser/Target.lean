import LiveComponent.Script.Parser.State

namespace LiveComponent

/-!
# Assignment targets

An assignment target is first read as an expression and then turned into a target.  A shorthand
property with a value is allowed in targets only, so it stays pending until it is part of one.
-/

namespace Parser

/-- The expression inside all type assertions and parentheses around it. -/
def inner : Tree → Tree
  | .node .parenthesized _ [expression] => inner expression
  | .node .asType _ [expression, _] => inner expression
  | .node .satisfiesType _ [expression, _] => inner expression
  | .node .nonNull _ [expression] => inner expression
  | expression => expression

/-- Whether the expression is a variable or a member of an object. -/
def isReference (expression : Tree) : Bool :=
  match expression.kind with
  | .identifier _ | .member _ | .index _ => true
  | _ => false

/-- The target without a pattern that an expression stands for.  Parentheses around it are dropped. -/
def simpleTarget? : Tree → Option Tree
  | .node .parenthesized _ [expression] => simpleTarget? expression
  | expression =>
    match expression.kind with
    | .identifier _ | .member _ | .index _ => some expression
    | .asType | .satisfiesType | .nonNull =>
      if isReference (inner expression) then some expression else none
    | _ => none

/-- A target with the starts of the properties that are no longer pending, and whether the source has
a fault. -/
structure Covered where
  target : Tree
  settled : List Nat
  faulty : Bool

mutual

/-- The target that an expression stands for; `commas` are the starts of lists that end in one. -/
def target? (commas : List Nat) : Tree → Option Covered
  | .node .array span elements =>
    (elementTargets? commas (commas.contains span.start) elements).map
      fun (targets, settled, faulty) => ⟨.node .arrayTarget span targets, settled, faulty⟩
  | .node .object span properties =>
    (elementTargets? commas false properties).map
      fun (targets, settled, faulty) => ⟨.node .objectTarget span targets, settled, faulty⟩
  | .node (.assign operator) span [target, value] =>
    if operator == ['='] then some ⟨.node .targetDefault span [target, value], [], false⟩ else none
  | .node (.property role isMethod true computed) span parts =>
    match role, isMethod, parts with
    | .plain, false, [key, _] => some ⟨.node (.targetProperty true computed) span
        [key, key], [], false⟩
    | .plain, false, [key, value, default] =>
      some ⟨.node (.targetProperty true computed) span
        [key, .node .targetDefault span [value, default]], [span.start], false⟩
    | _, _, _ => none
  | .node (.property role isMethod false computed) span [key, value] =>
    if role == .plain && !isMethod then
      (target? commas value).map fun covered =>
        { covered with
          target := .node (.targetProperty false computed) span [key, covered.target] }
    else
      none
  | .node .spread span [expression] =>
    match expression.kind with
    | .assign _ => none
    | _ =>
      (target? commas expression).map fun covered =>
        { covered with target := .node .targetRest span [covered.target] }
  | .node .hole span parts => some ⟨.node .hole span parts, [], false⟩
  | expression => (simpleTarget? expression).map fun target => ⟨target, [], false⟩

/-- The targets of the elements of a list; only the last one may be a rest element. -/
def elementTargets? (commas : List Nat) (trailing : Bool) :
    List Tree → Option (List Tree × List Nat × Bool)
  | [] => some ([], [], false)
  | element :: elements =>
    match target? commas element, elementTargets? commas trailing elements with
    | some covered, some (targets, settled, faulty) =>
      match covered.target.kind with
      | .targetRest =>
        if elements.isEmpty then
          some ([covered.target], covered.settled ++ settled, covered.faulty || trailing)
        else
          none
      | _ =>
        some (covered.target :: targets, covered.settled ++ settled, covered.faulty || faulty)
    | _, _ => none

end

/-- Turn an expression into an assignment target. -/
def assignmentTarget (isPattern : Bool) (expression : Tree) : P Tree := do
  let state ← get
  let isDefault :=
    match expression.kind with
    | .assign _ | .spread | .hole | .property .. => true
    | _ => false
  if isDefault then
    fail
  else if isPattern then
    match target? state.commas expression with
    | some covered =>
      faultIf covered.faulty
      modify fun state =>
        { state with pending := state.pending.filter fun start => !covered.settled.contains start }
      return covered.target
    | none => fail
  else
    match simpleTarget? expression with
    | some target => return target
    | none => fail

end Parser

end LiveComponent
