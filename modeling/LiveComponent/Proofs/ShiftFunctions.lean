import LiveComponent.Proofs.ShiftTypes
import LiveComponent.Script.Parser.Function

namespace LiveComponent

/-!
# Functions and classes on sources that are alike from a place on
-/

namespace Parser

variable
  {shift : Shift}
  {on : State → Prop}
  {rank : Nat}
  {moved : Bool}
  {tree tree' : Tree}
  {trees trees' : List Tree}

/-! ## What is decided by the look of a tree -/

/-- Whether the tree is a parameter with decorators. -/
def isDecorated : Tree → Bool
  | .node (.parameter ..) _ (decorated :: _) => !decorated.isAbsent
  | _ => false

/-- The parameters among the parts of a function. -/
def parametersOf : List Tree → List Tree
  | [_, _, .node .parameters _ all, _, _] => all
  | _ => []

/-- Whether the tree is a parameter that takes an argument. -/
def takesArgument (tree : Tree) : Bool :=
  match tree.kind with
  | .thisParameter => false
  | _ => true

/-- Whether there is one parameter, which is not for the rest of the arguments. -/
def isSingleParameter : List Tree → Bool
  | [.node (.parameter ..) _ _] => true
  | _ => false

theorem isDecorated_eq
    (same : shift.Parts tree tree') :
    isDecorated tree = isDecorated tree' := by
  unfold isDecorated
  split
  next =>
    obtain ⟨_, _, rfl, inner⟩ := same.of_node_left
    obtain ⟨_, _, rfl, decorated, _⟩ := inner.of_cons_left
    exact congrArg _ decorated.isAbsent_eq
  next none =>
    split
    next =>
      obtain ⟨_, _, rfl, inner⟩ := same.of_node_right
      obtain ⟨_, _, rfl, _⟩ := inner.of_cons_right
      exact (none _ _ _ _ _ rfl).elim
    next => rfl

theorem parametersOf_same
    (same : shift.Trees trees trees') :
    shift.Trees (parametersOf trees) (parametersOf trees') := by
  unfold parametersOf
  split
  next =>
    obtain ⟨_, _, rfl, _, second⟩ := same.of_cons_left
    obtain ⟨_, _, rfl, _, third⟩ := second.of_cons_left
    obtain ⟨_, _, rfl, all, fourth⟩ := third.of_cons_left
    obtain ⟨_, _, rfl, inner⟩ := all.of_node_left
    obtain ⟨_, _, rfl, _, fifth⟩ := fourth.of_cons_left
    obtain ⟨_, _, rfl, _, last⟩ := fifth.of_cons_left
    obtain rfl := last.of_nil_left
    exact inner
  next none =>
    split
    next =>
      obtain ⟨_, _, rfl, _, second⟩ := same.of_cons_right
      obtain ⟨_, _, rfl, _, third⟩ := second.of_cons_right
      obtain ⟨_, _, rfl, all, fourth⟩ := third.of_cons_right
      obtain ⟨_, _, rfl, inner⟩ := all.of_node_right
      obtain ⟨_, _, rfl, _, fifth⟩ := fourth.of_cons_right
      obtain ⟨_, _, rfl, _, last⟩ := fifth.of_cons_right
      obtain rfl := last.of_nil_right
      exact (none _ _ _ _ _ _ rfl).elim
    next => exact .nil

theorem isSingleParameter_eq
    (same : shift.Trees trees trees') :
    isSingleParameter trees = isSingleParameter trees' := by
  unfold isSingleParameter
  split
  next =>
    obtain ⟨_, _, rfl, first, last⟩ := same.of_cons_left
    obtain ⟨_, _, rfl, _⟩ := first.of_node_left
    obtain rfl := last.of_nil_left
    rfl
  next none =>
    split
    next =>
      obtain ⟨_, _, rfl, first, last⟩ := same.of_cons_right
      obtain ⟨_, _, rfl, _⟩ := first.of_node_right
      obtain rfl := last.of_nil_right
      exact (none _ _ _ _ rfl).elim
    next => rfl

theorem decoratesParameters_eq
    (same : shift.Trees trees trees') :
    decoratesParameters trees = decoratesParameters trees' := by
  unfold decoratesParameters
  split
  next =>
    obtain ⟨_, _, rfl, _, second⟩ := same.of_cons_left
    obtain ⟨_, _, rfl, all, third⟩ := second.of_cons_left
    obtain ⟨_, _, rfl, inner⟩ := all.of_node_left
    obtain ⟨_, _, rfl, _, fourth⟩ := third.of_cons_left
    obtain ⟨_, _, rfl, _, last⟩ := fourth.of_cons_left
    obtain rfl := last.of_nil_left
    exact inner.any_eq isDecorated_eq
  next none =>
    split
    next =>
      obtain ⟨_, _, rfl, _, second⟩ := same.of_cons_right
      obtain ⟨_, _, rfl, all, third⟩ := second.of_cons_right
      obtain ⟨_, _, rfl, inner⟩ := all.of_node_right
      obtain ⟨_, _, rfl, _, fourth⟩ := third.of_cons_right
      obtain ⟨_, _, rfl, _, last⟩ := fourth.of_cons_right
      obtain rfl := last.of_nil_right
      exact (none _ _ _ _ _ rfl).elim
    next => rfl

theorem fitsRole_eq
    (role : MethodRole)
    (same : shift.Trees trees trees') :
    fitsRole role trees = fitsRole role trees' := by
  have counted := (parametersOf_same same).filter takesArgument fun same => by
    unfold takesArgument
    rw [same.kind_eq]
  unfold fitsRole
  cases role with
  | getter => exact counted.isEmpty_eq
  | setter => exact isSingleParameter_eq counted
  | _ => rfl

theorem keyText?_eq
    (same : shift.Parts tree tree') :
    keyText? tree = keyText? tree' := by
  obtain ⟨kind, span, children⟩ := tree
  obtain ⟨_, _, rfl, _⟩ := same.of_node_left
  cases kind <;> rfl

theorem isPrivateConstructor_eq
    (same : shift.Parts tree tree') :
    isPrivateConstructor tree = isPrivateConstructor tree' := by
  obtain ⟨kind, span, children⟩ := tree
  obtain ⟨_, _, rfl, _⟩ := same.of_node_left
  cases kind <;> rfl

/-- The parts of an expression with type arguments are the same. -/
theorem splitArguments_same
    (same : shift.Wholes tree tree') :
    shift.Parts (splitArguments tree).1 (splitArguments tree').1 ∧
      shift.Parts (splitArguments tree).2 (splitArguments tree').2 := by
  unfold splitArguments
  split
  next =>
    obtain ⟨_, _, rfl, inner⟩ := same.parts.of_node_left
    obtain ⟨_, _, rfl, expression, later⟩ := inner.of_cons_left
    obtain ⟨_, _, rfl, arguments, last⟩ := later.of_cons_left
    obtain rfl := last.of_nil_left
    exact ⟨expression, arguments⟩
  next none =>
    split
    next =>
      obtain ⟨_, _, rfl, inner⟩ := same.parts.of_node_right
      obtain ⟨_, _, rfl, _, later⟩ := inner.of_cons_right
      obtain ⟨_, _, rfl, _, last⟩ := later.of_cons_right
      obtain rfl := last.of_nil_right
      exact (none _ _ _ rfl).elim
    next => exact ⟨same.parts, .absent .nil⟩

/-! ## Functions -/

/-- The parts of a signature and a body are the same. -/
inductive SignedSame (shift : Shift) : List Tree → List Tree → Prop where
  | parts
      {generics all result body generics' all' result' body' : Tree}
      (signature : shift.Trees [generics, all, result] [generics', all', result'])
      (bodies : shift.Parts body body') :
      SignedSame shift [generics, all, result, body] [generics', all', result', body']

theorem alike_functionRest
    {start start' : Nat}
    {form : FunctionForm}
    {isAsync isGenerator needsBody : Bool}
    {name name' : Tree}
    (places : shift.Places start start')
    (names : shift.Parts name name') :
    Alike shift on rank moved (functionRest start form isAsync isGenerator needsBody name)
      (functionRest start' form isAsync isGenerator needsBody name') (fun _ => true) shift.Wholes := by
  refine .get fun {state stand} _ _ => ?_
  refine .bind (.withFlags <| show Alike _ _ _ _ _ _ (fun _ => true) (SignedSame shift) from ?_) fun _ _ signed => ?_
  · refine .bind alike_typeParameters fun _ _ generics => .bind alike_parameterList fun _ _ all => ?_
    refine .bind alike_resultAnnotation fun _ _ result => .atMark fun _ => ?_
    have signature := generics.cons (all.parts.cons result)
    refine .ite (fun _ => ?_) fun _ => .ite (fun _ => .fail) fun _ => .pure (.parts signature (.absent .nil))
    exact .bind (.want .functionBody) fun _ _ body => .pure (.parts signature body.parts)
  · obtain ⟨signature, bodies⟩ := signed
    have same := signature.append bodies
    dsimp only [State.onto, List.cons_append, List.nil_append] at same ⊢
    rw [bodies.isAbsent_eq, decoratesParameters_eq same]
    refine .sometimes (fun _ => .endStatement) (.step (.faultIf rfl) fun _ => .step (.faultIf rfl) fun _ => ?_)
    exact .node places (names.cons same)

theorem alike_functionLike
    {start start' : Nat}
    {form : FunctionForm}
    {isAsync needsName : Bool}
    (places : shift.Places start start') :
    Alike shift on rank moved (functionLike start form isAsync needsName) (functionLike start' form isAsync needsName)
      (fun _ => true) shift.Wholes := by
  refine .step (.expectWord "function") fun _ => .step (.mayEat "*") fun isGenerator => .get fun {state _} mirrors _ => ?_
  refine .ite (fun _ => ?_) fun _ => .ite (fun _ => .fail) fun _ => alike_functionRest places (.absent .nil)
  refine .step alike_takeWord fun _ => .step (alike_checkName _ _) fun _ => ?_
  exact .nodeThen mirrors.start .nil fun _ _ name => alike_functionRest places name.parts

theorem alike_atAsyncFunction :
    Alike shift on rank moved atAsyncFunction atAsyncFunction (fun _ => moved) Eq :=
  .atWord fun _ => .ite (fun isWord => .aheadOnly <| .step (.advanceAt (Token.ne_eof_of_isWord isWord)) fun _ =>
    .getLine fun _ _ => .pure rfl) fun _ => .pure rfl

theorem alike_methodFunction
    {role : MethodRole}
    {isAsync isGenerator needsBody : Bool} :
    Alike shift on rank moved (methodFunction role isAsync isGenerator needsBody)
      (methodFunction role isAsync isGenerator needsBody) (fun _ => true) shift.Wholes := by
  refine .here fun places => .bind (alike_functionRest places (.absent .nil)) fun _ _ function => ?_
  rw [fitsRole_eq role function.parts.children]
  exact .step (.faultIf rfl) fun _ => .pure function

/-! ## Classes -/

theorem alike_memberKey
    (found : List Modifier) :
    Alike shift on rank moved (memberKey found) (memberKey found) (fun _ => true) (KeysSame shift) := by
  refine .bind alike_propertyKey fun ⟨key, computed⟩ ⟨key', _⟩ ⟨keys, same⟩ => ?_
  obtain rfl : computed = _ := same
  dsimp only
  rw [isPrivateConstructor_eq keys.parts, keyText?_eq keys.parts]
  exact .step (.faultIf rfl) fun _ => .get fun _ _ => .step (.faultIf rfl) fun _ => .pure ⟨keys, rfl⟩

theorem alike_fieldRest
    {start start' : Nat}
    {decorated decorated' key key' : Tree}
    {found : List Modifier}
    {computed isOptional : Bool}
    (places : shift.Places start start')
    (decorates : shift.Parts decorated decorated')
    (keys : shift.Parts key key') :
    Alike shift on rank true (fieldRest start decorated found key computed isOptional)
      (fieldRest start' decorated' found key' computed isOptional) (fun _ => true) shift.Wholes := by
  refine .getLine fun _ _ => .choice true (fun _ => .mayEat "!") (fun _ => .pure rfl) fun definite _ same => ?_
  subst same
  refine .bind alike_typeAnnotation fun _ _ type => .step (.mayEat "=") fun _ => ?_
  refine .choice true (fun _ => .part (.withFlags (.want (.assignment true)))) (fun _ => .pure (.absent .nil)) ?_
  refine fun _ _ value => .step .endStatement fun _ => ?_
  rw [keyText?_eq keys]
  exact .step (.faultIf rfl) fun _ => .node places (decorates.cons (keys.cons (type.cons value)))

theorem alike_classMember
    (lower : 0 < rank) :
    Alike shift on rank moved classMember classMember (fun _ => true) shift.Wholes := by
  refine .here fun places => .bind alike_decorators fun _ _ decorated => .step alike_modifiers fun found => ?_
  rw [decorated.isAbsent_eq]
  refine .get fun _ _ => .step (.faultIf rfl) fun _ => .ahead ?_ fun _ => .ite (fun _ => ?_) fun _ => ?_
  · exact .step (.mayEatWord _) fun _ => .get fun _ _ => .pure rfl
  · refine .step .advance fun _ => .step (.faultIf rfl) fun _ => .bind (.withFlags (.wantFirst lower)) fun _ _ block => ?_
    exact .node places block.parts.children
  refine .step alike_accessorRole? fun role => ?_
  cases role with
  | some role =>
      refine .bind (alike_memberKey found) fun ⟨key, computed⟩ ⟨key', _⟩ ⟨keys, same⟩ => ?_
      obtain rfl : computed = _ := same
      refine .step (.faultIf rfl) fun _ => ?_
      rw [keyText?_eq keys.parts]
      refine .step (.faultIf rfl) fun _ => .bind alike_methodFunction fun _ _ function => ?_
      exact .node places (decorated.cons (keys.parts.cons function.parts))
  | none =>
      refine .step alike_opensIndexSignature fun _ => .ite (fun _ => ?_) fun _ => ?_
      · exact .step (.faultIf rfl) fun _ => alike_indexSignature places found
      refine .step (.mayEat "*") fun _ => .bind (alike_memberKey found) fun ⟨key, computed⟩ ⟨key', _⟩ ⟨keys, same⟩ => ?_
      obtain rfl : computed = _ := same
      dsimp only
      rw [keyText?_eq keys.parts]
      refine .choice true (fun _ => .mayEat "?") (fun _ => .pure rfl) fun isOptional _ same => ?_
      subst same
      refine .atOneOf fun _ => .ite (fun _ => ?_) fun _ => ?_
      · exact .step (.faultIf rfl) fun _ => .bind alike_methodFunction fun _ _ function =>
          .node places (decorated.cons (keys.parts.cons function.parts))
      · exact .step (.faultIf rfl) fun _ => alike_fieldRest places decorated keys.parts

theorem alike_classBody :
    Alike shift on rank moved classBody classBody (fun _ => true) shift.Wholes := by
  refine .here fun places => .step (.expect "\x7b") fun _ => .bind (.roundsBehind shift.Trees .nil ?_) fun _ _ members =>
    .step (.expect "\x7d") fun _ => .node places members
  intro members members' held
  refine .anywhere <| .ifEat (.again held) <| .atMark fun _ => .ite (fun _ => .done held.reverse) fun _ => ?_
  exact .bind (alike_classMember (Nat.succ_pos _)) fun _ _ member => .again (member.parts.cons held)

theorem alike_implementedTypes :
    Alike shift on rank moved implementedTypes implementedTypes (fun _ => moved) shift.Trees := by
  refine .ifEatWord ?_ (.pure .nil)
  refine (Alike.separated (.here fun places => ?_)).mono (fun _ => inferInstance) Shift.Trees.of_wholes
  exact .bind alike_typeName fun _ _ name => .bind alike_typeArguments fun _ _ arguments =>
    .node places (name.parts.cons arguments)

theorem alike_classLike
    {start start' : Nat}
    {decorated decorated' : Tree}
    {form : FunctionForm}
    {abstracted needsName : Bool}
    (decorates : shift.Parts decorated decorated')
    (places : shift.Places start start') :
    Alike shift on rank moved (classLike decorated start form abstracted needsName)
      (classLike decorated' start' form abstracted needsName) (fun _ => true) shift.Wholes := by
  refine .step (.expectWord "class") fun _ => .get fun {state _} _ _ => ?_
  refine .bind (.optionalPart rfl fun _ => .part alike_bindingName) fun _ _ name => ?_
  refine .step (.faultIf rfl) fun _ => .bind alike_typeParameters fun _ _ generics => .step (.mayEatWord "extends") fun _ => ?_
  extract_lets rest rest'
  have goesOn {parts parts' : Tree × Tree} (first : shift.Parts parts.1 parts'.1) (second : shift.Parts parts.2 parts'.2) :
      Alike shift (fun _ => True) rank true (rest parts) (rest' parts') (fun _ => true) shift.Wholes := by
    refine .bind alike_implementedTypes fun _ _ implemented => ?_
    rw [implemented.isEmpty_eq]
    refine .step (.faultIf rfl) fun _ => .bind (.withFlags alike_classBody) fun _ _ body => ?_
    have front := decorates.cons (name.cons (generics.cons (first.cons second)))
    exact .node places ((front.append implemented).append body.parts)
  clear_value rest rest'
  refine .ite (fun _ => .bind (.want .leftHand) fun _ _ derived => ?_) fun _ => .passing (goesOn (.absent .nil) (.absent .nil))
  have ⟨first, second⟩ := splitArguments_same derived
  dsimp only [State.onto]
  rw [second.isAbsent_eq]
  refine .ite (fun _ => .bind alike_typeArguments fun _ _ arguments => ?_) fun _ => ?_
  · exact .passing (goesOn first arguments)
  · exact .passing (.passing (goesOn first second))

end Parser

end LiveComponent
