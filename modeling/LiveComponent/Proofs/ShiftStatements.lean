import LiveComponent.Proofs.ShiftExpressions
import LiveComponent.Script.Parser.Statement

namespace LiveComponent

/-!
# Statements of sources that are alike from a place on
-/

namespace Parser

variable
  {shift : Shift}
  {on : State → Prop}
  {rank : Nat}
  {moved : Bool}
  {start start' : Nat}
  {tree tree' decorated decorated' : Tree}
  {trees trees' : List Tree}
  {state : State}

/-! ## Variables -/

theorem alike_declarator
    (lower : 0 < rank) :
    Alike shift on rank moved declarator declarator (fun _ => true) shift.Wholes := by
  refine .here fun places => .bind (.wantFirst lower) fun _ _ target => .getLine fun {state _} _ _ => ?_
  rw [target.parts.kind_eq]
  refine .choice true (fun _ => .mayEat "!") (fun _ => .pure rfl) fun definite _ same => ?_
  subst same
  refine .bind alike_typeAnnotation fun _ _ type => .step (.mayEat "=") fun _ => ?_
  refine .choice true (fun _ => .part (.want (.assignment true))) (fun _ => .pure (.absent .nil)) fun _ _ value => ?_
  exact .node places (target.parts.cons (type.cons value))

theorem lacksValue_eq
    (keyword : Text)
    (same : shift.Parts tree tree') :
    lacksValue keyword tree = lacksValue keyword tree' := by
  unfold lacksValue
  split
  next =>
    obtain ⟨_, _, rfl, parts⟩ := same.of_node_left
    obtain ⟨_, _, _, rfl, target, _, value⟩ := parts.of_three_left
    dsimp only
    rw [value.isAbsent_eq, target.kind_eq]
  next none =>
    split
    next =>
      obtain ⟨_, _, rfl, parts⟩ := same.of_node_right
      obtain ⟨_, _, _, rfl, _⟩ := parts.of_three_right
      exact (none _ _ _ _ _ rfl).elim
    next => rfl

theorem alike_bindingList
    (places : shift.Places start start')
    (keyword : Text) :
    Alike shift on rank true (bindingList start keyword) (bindingList start' keyword) (fun _ => true) shift.Wholes :=
  .bind (.separated (alike_declarator (Nat.succ_pos _))) fun _ _ all => .get fun _ _ => .node places (.of_wholes all)

theorem alike_checkValues
    (keyword : Text)
    (same : shift.Parts tree tree') :
    Alike shift on rank moved (checkValues keyword tree) (checkValues keyword tree') (fun _ => moved) Eq := by
  refine .get fun _ _ => .faultIf ?_
  rw [same.children.any_eq (lacksValue_eq keyword)]
  rfl

theorem alike_variableStatement (keyword : String) :
    Alike shift on rank moved (variableStatement keyword) (variableStatement keyword) (fun _ => true) shift.Wholes := by
  refine .here fun places => .step (.expectWord keyword) fun _ => .bind (alike_bindingList places _) fun _ _ tree => ?_
  refine .step (alike_checkValues _ tree.parts) fun _ => .step .endStatement fun _ => ?_
  rw [tree.parts.kind_eq]
  exact .node places tree.parts.children

/-- Variables may begin earlier, where the words before their keyword begin. -/
theorem alike_variablesFrom
    (places : shift.Places start start')
    (keyword : String) :
    Alike shift on rank moved
      (do
        let tree ← variableStatement keyword
        return .node tree.kind ⟨start, tree.span.stop⟩ tree.children)
      (do
        let tree ← variableStatement keyword
        return .node tree.kind ⟨start', tree.span.stop⟩ tree.children)
      (fun _ => true) shift.Wholes := by
  refine .bind (alike_variableStatement keyword) fun _ _ tree => ?_
  rw [tree.parts.kind_eq]
  exact .pure (.node ⟨places, tree.spans.stop⟩ tree.parts.children)

/-! ## Declarations of types -/

theorem alike_typeAlias
    (places : shift.Places start start') :
    Alike shift on rank moved (typeAlias start) (typeAlias start') (fun _ => true) shift.Wholes :=
  .step (.expectWord "type") fun _ => .bind alike_bindingName fun _ _ name => .bind alike_typeParameters fun _ _ generics =>
    .step (.expect "=") fun _ => .bind alike_freeType fun _ _ type => .step .endStatement fun _ => .get fun _ _ =>
      .node places (name.parts.cons (generics.cons type.parts))

theorem alike_extendedType
    (lower : 2 < rank) :
    Alike shift on rank moved extendedType extendedType (fun _ => true) shift.Wholes := by
  refine .here fun places => .bind (.wantFirst lower) fun tree tree' same => ?_
  have ⟨expressions, arguments⟩ := splitArguments_same same
  generalize splitArguments tree = parts at expressions arguments
  generalize splitArguments tree' = parts' at expressions arguments
  obtain ⟨expression, given⟩ := parts
  obtain ⟨expression', given'⟩ := parts'
  dsimp only at expressions arguments ⊢
  rw [arguments.isAbsent_eq]
  refine .choice true (fun _ => alike_typeArguments) (fun _ => .pure arguments) fun _ _ arguments => ?_
  exact .node places (expressions.cons arguments)

theorem alike_interfaceDeclaration
    (places : shift.Places start start') :
    Alike shift on rank moved (interfaceDeclaration start) (interfaceDeclaration start') (fun _ => true) shift.Wholes := by
  refine .step (.expectWord "interface") fun _ => .bind alike_bindingName fun _ _ name => ?_
  refine .bind alike_typeParameters fun _ _ generics => .step (.mayEatWord "extends") fun _ => ?_
  refine .choice true (fun _ => .separated (alike_extendedType (Nat.le_of_ble_eq_true rfl))) (fun _ => .pure .nil) fun _ _ all => ?_
  refine .bind alike_typeLiteral fun _ _ members => .get fun _ _ => ?_
  exact .node places ((name.parts.cons (generics.append (.of_wholes all))).append members.parts)

theorem alike_enumMember :
    Alike shift on rank moved enumMember enumMember (fun _ => true) shift.Wholes := by
  refine .here fun places => .bind alike_propertyKey fun ⟨key, computed⟩ ⟨key', _⟩ ⟨keys, same⟩ => ?_
  obtain rfl : computed = _ := same
  dsimp only
  rw [keys.parts.kind_eq]
  refine .step (.faultIf rfl) fun _ => .step (.mayEat "=") fun _ => ?_
  refine .choice true (fun _ => .part (.want (.assignment true))) (fun _ => .pure (.absent .nil)) fun _ _ value => ?_
  exact .node places (keys.parts.cons value)

theorem alike_enumDeclaration
    {constant : Bool}
    (places : shift.Places start start') :
    Alike shift on rank moved (enumDeclaration start constant) (enumDeclaration start' constant) (fun _ => true)
      shift.Wholes :=
  .step (.expectWord "enum") fun _ => .bind alike_bindingName fun _ _ name => .step (.expect "\x7b") fun _ =>
    .bind (.withFlags (.commaList (.part alike_enumMember))) fun _ _ ⟨members, _⟩ => .step (.expect "\x7d") fun _ =>
      .get fun _ _ => .node places (name.parts.cons members)

theorem alike_statementBlock :
    Alike shift on rank moved statementBlock statementBlock (fun _ => true) shift.Wholes :=
  .here fun places => .step (.expect "\x7b") fun _ =>
    .bind (.manyUntil (.atMark fun _ => .pure rfl) (.part (.wantFirst (Nat.le_of_ble_eq_true rfl)))) fun _ _ all =>
      .step (.expect "\x7d") fun _ => .node places all

/-- Names with points between become one dotted name. -/
theorem dotted_same
    (places : shift.Places start start')
    (names : List.Forall₂ shift.Wholes trees trees')
    (first : shift.Wholes tree tree') :
    shift.Wholes
      (trees.foldl (fun left name => .node .qualifiedName ⟨start, name.span.stop⟩ [left, name]) tree)
      (trees'.foldl (fun left name => .node .qualifiedName ⟨start', name.span.stop⟩ [left, name]) tree') := by
  induction names generalizing tree tree' with
  | nil => exact first
  | cons name _ rest =>
      exact rest (.node ⟨places, name.spans.stop⟩ (first.parts.cons name.parts))

theorem alike_namespaceName :
    Alike shift on rank moved namespaceName namespaceName (fun _ => true) shift.Wholes := by
  refine .here fun places => .bind (.separated alike_bindingName) fun _ _ names => ?_
  cases names with
  | nil => exact .fail
  | cons first rest => exact .pure (dotted_same places rest first)

theorem alike_namespaceDeclaration
    (places : shift.Places start start') :
    Alike shift on rank moved (namespaceDeclaration start) (namespaceDeclaration start') (fun _ => true) shift.Wholes := by
  refine .step alike_takeWord fun _ => .get fun {state _} _ _ => ?_
  refine .choice true (fun _ => alike_stringLiteral) (fun _ => alike_namespaceName) fun _ _ name => .get fun _ _ => ?_
  refine .ite (fun _ => .bind alike_statementBlock fun _ _ block => ?_) fun _ => .step .endStatement fun _ => ?_
  · exact .node places (name.parts.cons block.parts)
  · exact .node places (name.parts.cons (.absent .nil))

theorem alike_globalDeclaration
    (places : shift.Places start start') :
    Alike shift on rank moved (globalDeclaration start) (globalDeclaration start') (fun _ => true) shift.Wholes :=
  .get fun _ _ => .bind alike_propertyWord fun _ _ name => .bind alike_statementBlock fun _ _ block =>
    .node places (name.parts.cons block.parts)

theorem alike_importEquals
    {typeOnly : Bool}
    (places : shift.Places start start')
    (name : shift.Wholes tree tree') :
    Alike shift on rank moved (importEquals start typeOnly tree) (importEquals start' typeOnly tree') (fun _ => true)
      shift.Wholes := by
  refine .step (.expect "=") fun _ => .ahead ?_ fun _ => .ite (fun _ => ?_) fun _ => ?_
  · exact .step (.mayEatWord "require") fun _ => .atMark fun _ => .pure rfl
  · refine .here fun places' => .step .advance fun _ => .step (.expect "(") fun _ => .bind alike_stringLiteral fun _ _ source => ?_
    refine .step (.expect ")") fun _ => .nodeThen places' source.parts fun _ _ reference => .step .endStatement fun _ => ?_
    exact .node places (name.parts.cons reference.parts)
  · exact .bind alike_typeName fun _ _ reference => .step .endStatement fun _ => .node places (name.parts.cons reference.parts)

/-! ## Declarations -/

theorem alike_leadsToDeclaration :
    Alike shift on rank moved leadsToDeclaration leadsToDeclaration (fun _ => moved) Eq := by
  refine .rounds (fun _ => false) Eq rfl fun _ _ _ => .get fun {state _} _ _ => ?_
  refine .ite (fun _ => .done rfl) fun _ => .ite (fun isWord => ?_) fun _ => .ite (fun isWord => ?_) fun _ => ?_
  · exact .step (.advanceAt (Token.ne_eof_of_any_isWord isWord)) fun _ => .getLine fun _ _ => .done rfl
  · exact .step (.advanceAt (Token.ne_eof_of_any_isWord isWord)) fun _ => .getLine fun _ _ => .done rfl
  refine .ite (fun isWord => ?_) fun _ => .ite (fun isWord => ?_) fun _ => .ite (fun isWord => ?_) fun _ => ?_
  · exact .step (.advanceAt (Token.ne_eof_of_any_isWord isWord)) fun _ => .getLine fun _ _ =>
      .ite (fun _ => .done rfl) fun _ => .again rfl
  · exact .step .advance fun _ => .get fun _ _ => .done rfl
  · exact .step .advance fun _ => .get fun _ _ => .done rfl
  refine .ite (fun isWord => ?_) fun _ => .done rfl
  exact .step (.advanceAt (Token.ne_eof_of_isWord isWord)) fun _ => .again rfl

theorem alike_atTypeDeclaration :
    Alike shift on rank moved atTypeDeclaration atTypeDeclaration (fun _ => moved) Eq :=
  .get fun _ _ => .ite (fun _ => .aheadOnly (.loosely alike_leadsToDeclaration)) fun _ => .pure rfl

theorem alike_functionDeclaration
    {needsName : Bool}
    (places : shift.Places start start') :
    Alike shift on rank moved (functionDeclaration start needsName) (functionDeclaration start' needsName) (fun _ => true)
      shift.Wholes :=
  .step (.mayEatWord "async") fun _ => alike_functionLike places

theorem alike_declaration
    (decorates : shift.Parts decorated decorated')
    (places : shift.Places start start') :
    Alike shift on rank moved (declaration decorated start) (declaration decorated' start') (fun _ => true)
      shift.Wholes := by
  refine .step alike_modifiers fun found => .get fun {state _} _ _ => ?_
  rw [decorates.isAbsent_eq]
  refine .step (.faultIf rfl) fun _ => .step (.faultIf rfl) fun _ => .step (.faultIf rfl) fun _ => .withFlags ?_
  refine .ahead ?_ fun _ => .ite (fun _ => ?_) fun _ => ?_
  · exact .step (.mayEatWord "const") fun _ => .atWord fun _ => .pure rfl
  · exact .step .advance fun _ => alike_enumDeclaration places
  refine .ite (fun _ => alike_classLike decorates places) fun _ => .ite (fun _ => .fail) fun _ => ?_
  refine .ite (fun _ => alike_functionLike places) fun _ => .ite (fun _ => .fail) fun _ => ?_
  refine .ite (fun _ => alike_variablesFrom places "var") fun _ => .ite (fun _ => alike_variablesFrom places "let") fun _ => ?_
  refine .ite (fun _ => alike_variablesFrom places "const") fun _ => .ite (fun _ => .fail) fun _ => ?_
  refine .ite (fun _ => alike_typeAlias places) fun _ => .ite (fun _ => alike_interfaceDeclaration places) fun _ => ?_
  refine .ite (fun _ => alike_enumDeclaration places) fun _ => .ite (fun _ => alike_namespaceDeclaration places) fun _ => ?_
  refine .ite (fun _ => alike_globalDeclaration places) fun _ => .ite (fun _ => .step .advance fun _ => ?_) fun _ => .fail
  exact .bind alike_bindingName fun _ _ name => alike_importEquals places name

/-! ## Statements -/

theorem alike_bodyStatement :
    Alike shift on rank true bodyStatement bodyStatement (fun _ => true) shift.Wholes :=
  .want _

theorem alike_headExpression :
    Alike shift on rank moved headExpression headExpression (fun _ => true) shift.Wholes :=
  .step (.expect "(") fun _ => .bind (.want .expression) fun _ _ expression => .step (.expect ")") fun _ =>
    .pure expression

theorem alike_expressionStatement
    (lower : 7 < rank) :
    Alike shift on rank moved expressionStatement expressionStatement (fun _ => true) shift.Wholes := by
  refine .here fun places => .bind (.wantFirst lower) fun expression expression' same => ?_
  obtain ⟨parts, spans⟩ := same
  cases parts with
  | absent => exact .step .endStatement fun _ => .node places (.absent .nil)
  | @node kind span other children children' _ _ _ inner _ =>
    have whole : shift.Parts (.node kind span children) (.node kind other children') := .node spans inner .nil
    cases kind with
    | identifier text =>
        refine .ifEat ?_ (.step .endStatement fun _ => .node places whole)
        have name : shift.Wholes (.node (.name text) span []) (.node (.name text) other []) := .node spans .nil
        exact .bind alike_bodyStatement fun _ _ body => .node places (name.parts.cons body.parts)
    | _ => exact .step .endStatement fun _ => .node places whole

theorem alike_conditionalStatement :
    Alike shift Present rank moved conditionalStatement conditionalStatement (fun _ => true) shift.Wholes := by
  refine .here fun places => .step (.advanceFrom id) fun _ => .bind alike_headExpression fun _ _ test => ?_
  refine .bind alike_bodyStatement fun _ _ consequent => .step (.mayEatWord "else") fun _ => ?_
  refine .choice true (fun _ => .part alike_bodyStatement) (fun _ => .pure (.absent .nil)) fun _ _ alternate => ?_
  exact .node places (test.parts.cons (consequent.parts.cons alternate))

theorem alike_doLoop :
    Alike shift Present rank moved doLoop doLoop (fun _ => true) shift.Wholes :=
  .here fun places => .step (.advanceFrom id) fun _ => .bind alike_bodyStatement fun _ _ body =>
    .step (.expectWord "while") fun _ => .bind alike_headExpression fun _ _ test => .step (.mayEat ";") fun _ =>
      .node places (body.parts.cons test.parts)

theorem alike_whileLoop :
    Alike shift on rank moved whileLoop whileLoop (fun _ => true) shift.Wholes :=
  .here fun places => .step .advance fun _ => .bind alike_headExpression fun _ _ test =>
    .bind alike_bodyStatement fun _ _ body => .node places (test.parts.cons body.parts)

/-! ### Loops over values -/

theorem alike_forLoopRest
    {awaits : Bool}
    (places : shift.Places start start')
    (first : shift.Parts tree tree') :
    Alike shift on rank moved (forLoopRest start awaits tree) (forLoopRest start' awaits tree') (fun _ => true)
      shift.Wholes := by
  refine .step (.expect ";") fun _ => .atOneOf fun _ => ?_
  refine .choice true (fun _ => .pure (.absent .nil)) (fun _ => .part (.want .expression)) fun _ _ test => ?_
  refine .step (.expect ";") fun _ => .atMark fun _ => ?_
  refine .choice true (fun _ => .pure (.absent .nil)) (fun _ => .part (.want .expression)) fun _ _ update => ?_
  refine .step (.expect ")") fun _ => .step (.faultIf rfl) fun _ => .bind alike_bodyStatement fun _ _ body => ?_
  exact .node places (first.cons (test.cons (update.cons body.parts)))

theorem alike_forInRest
    {awaits : Bool}
    (places : shift.Places start start')
    (left : shift.Parts tree tree') :
    Alike shift on rank true (forInRest start awaits tree) (forInRest start' awaits tree') (fun _ => true)
      shift.Wholes :=
  .step .advance fun _ => .bind (.want .expression) fun _ _ right => .step (.expect ")") fun _ =>
    .step (.faultIf rfl) fun _ => .bind alike_bodyStatement fun _ _ body =>
      .node places (left.cons (right.parts.cons body.parts))

theorem alike_forOfRest
    {awaits : Bool}
    (places : shift.Places start start')
    (left : shift.Parts tree tree') :
    Alike shift on rank true (forOfRest start awaits tree) (forOfRest start' awaits tree') (fun _ => true)
      shift.Wholes :=
  .step .advance fun _ => .bind (.want (.assignment true)) fun _ _ right => .step (.expect ")") fun _ =>
    .bind alike_bodyStatement fun _ _ body => .node places (left.cons (right.parts.cons body.parts))

theorem alike_letDeclares :
    Alike shift on rank moved letDeclares letDeclares (fun _ => moved) Eq :=
  .aheadOnly <| .step .advance fun _ => .get fun _ _ => .pure rfl

theorem alike_forVariables
    {awaits : Bool}
    (places : shift.Places start start')
    (keyword : String) :
    Alike shift on rank true (forVariables start awaits keyword) (forVariables start' awaits keyword) (fun _ => true)
      shift.Wholes := by
  refine .here fun places' => .step .advance fun _ => .bind (.withFlags (alike_bindingList places' _)) fun _ _ left => ?_
  refine .atWord fun _ => .ite (fun _ => .step (.faultIf rfl) fun _ => alike_forInRest places left.parts) fun _ => ?_
  refine .atWord fun _ => .ite (fun _ => alike_forOfRest places left.parts) fun _ => ?_
  exact .step (alike_checkValues _ left.parts) fun _ => alike_forLoopRest places left.parts

theorem alike_usingDeclares
    (isHead : Bool) :
    Alike shift on rank moved (usingDeclares isHead) (usingDeclares isHead) (fun _ => moved) Eq :=
  .atWord fun _ => .ite (fun isWord => .aheadOnly <| .step (.advanceAt (Token.ne_eof_of_isWord isWord)) fun _ =>
    .getLine fun _ _ => .pure rfl) fun _ => .pure rfl

theorem alike_awaitUsingDeclares :
    Alike shift on rank moved awaitUsingDeclares awaitUsingDeclares (fun _ => moved) Eq :=
  .atWord fun _ => .ite (fun isWord => .aheadOnly <| .step (.advanceAt (Token.ne_eof_of_isWord isWord)) fun _ =>
    .getLine fun _ _ => .step (alike_usingDeclares false) fun _ => .pure rfl) fun _ => .pure rfl

theorem alike_forStatement :
    Alike shift on rank moved forStatement forStatement (fun _ => true) shift.Wholes := by
  refine .here fun places => .step .advance fun _ => .get fun _ _ => .step (.mayEatWord "await") fun awaits => ?_
  refine .step (.faultIf rfl) fun _ => .step (.expect "(") fun _ => .get fun {state _} _ _ => ?_
  refine .ite (fun _ => alike_forLoopRest places (.absent .nil)) fun _ => ?_
  refine .ite (fun _ => alike_forVariables places "var") fun _ => .ite (fun _ => alike_forVariables places "const") fun _ => ?_
  refine .step alike_letDeclares fun _ => .ite (fun _ => alike_forVariables places "let") fun _ => ?_
  refine .step (alike_usingDeclares true) fun _ => .ite (fun _ => alike_forVariables places "using") fun _ => ?_
  refine .step alike_awaitUsingDeclares fun _ => .ite (fun _ => .step .advance fun _ => alike_forVariables places _) fun _ => ?_
  refine .bind (.withFlags (.want .expression)) fun _ _ first => .atWord fun _ => .ite (fun _ => ?_) fun _ => ?_
  · exact .bind (alike_assignmentTarget true first.parts) fun _ _ target => alike_forInRest places target
  refine .atWord fun _ => .ite (fun _ => ?_) fun _ => alike_forLoopRest places first.parts
  rw [first.parts.kind_eq]
  exact .step (.faultIf rfl) fun _ => .bind (alike_assignmentTarget true first.parts) fun _ _ target =>
    alike_forOfRest places target

/-! ### Jumps and choices -/

theorem alike_jumpStatement (kind : Kind) :
    Alike shift Present rank moved (jumpStatement kind) (jumpStatement kind) (fun _ => true) shift.Wholes := by
  refine .here fun places => .step (.advanceFrom id) fun _ => .step .canEndStatement fun _ => ?_
  refine .choice true (fun _ => .pure (.absent .nil)) (fun _ => .part alike_labelName) fun _ _ label => ?_
  exact .step .endStatement fun _ => .node places label

theorem alike_returnStatement :
    Alike shift Present rank moved returnStatement returnStatement (fun _ => true) shift.Wholes := by
  refine .get fun {state _} mirrors present => .given (.faultThen rfl ?_) fun same => same ▸ present
  refine .step (.advanceFrom id) fun _ => .step .canEndStatement fun _ => ?_
  refine .choice true (fun _ => .pure (.absent .nil)) (fun _ => .part (.want .expression)) fun _ _ value => ?_
  exact .step .endStatement fun _ => .node mirrors.start value

theorem alike_withStatement :
    Alike shift on rank moved withStatement withStatement (fun _ => true) shift.Wholes :=
  .here fun places => .step .advance fun _ => .bind alike_headExpression fun _ _ object =>
    .bind alike_bodyStatement fun _ _ body => .node places (object.parts.cons body.parts)

theorem alike_switchCase :
    Alike shift on rank moved switchCase switchCase (fun _ => true) shift.Wholes := by
  refine .here fun places => .step (.mayEatWord "default") fun _ => ?_
  extract_lets stop rest rest'
  have goesOn {moved : Bool} {test test' : Tree} (tests : shift.Parts test test') :
      Alike shift (fun _ => True) rank moved (rest test) (rest' test') (fun _ => true) shift.Wholes := by
    refine .step (.expect ":") fun _ => ?_
    refine .bind (.manyUntil (.get fun _ _ => .pure rfl) (.part (.wantFirst (Nat.le_of_ble_eq_true rfl)))) fun _ _ all => ?_
    exact .node places (tests.append all)
  clear_value rest rest'
  refine .ite (fun _ => .passing (goesOn (.absent .nil))) fun _ => ?_
  exact .step (.expectWord "case") fun _ => .bind (.want .expression) fun _ _ test => goesOn test.parts

theorem alike_switchStatement :
    Alike shift on rank moved switchStatement switchStatement (fun _ => true) shift.Wholes :=
  .here fun places => .step .advance fun _ => .bind alike_headExpression fun _ _ value => .step (.expect "\x7b") fun _ =>
    .bind (.manyUntil (.atMark fun _ => .pure rfl) (.part alike_switchCase)) fun _ _ cases =>
      .step (.expect "\x7d") fun _ => .node places (value.parts.cons cases)

/-! ### Exceptions -/

theorem alike_throwStatement :
    Alike shift Present rank moved throwStatement throwStatement (fun _ => true) shift.Wholes :=
  .here fun places => .step (.advanceFrom id) fun _ => .getLine fun _ _ => .step (.faultIf rfl) fun _ =>
    .bind (.want .expression) fun _ _ value => .step .endStatement fun _ => .node places value.parts

theorem alike_catchClause :
    Alike shift on rank true catchClause catchClause (fun _ => true) shift.Wholes := by
  refine .here fun places => .step .advance fun _ => .step (.mayEat "(") fun _ => ?_
  extract_lets rest rest'
  have goesOn {parameter parameter' : Tree} (parameters : shift.Parts parameter parameter') :
      Alike shift (fun _ => True) rank true (rest parameter) (rest' parameter') (fun _ => true) shift.Wholes :=
    .bind (.want .block) fun _ _ block => .node places (parameters.cons block.parts)
  clear_value rest rest'
  refine .ite (fun _ => ?_) fun _ => .passing (goesOn (.absent .nil))
  refine .here fun places' => .bind (.want .pattern) fun _ _ pattern => .bind alike_typeAnnotation fun _ _ type => ?_
  refine .step (.expect ")") fun _ => .nodeThen places' ?_ fun _ _ parameter => goesOn parameter.parts
  exact .absent (pattern.parts.cons (type.cons (.absent .nil)))

theorem alike_tryStatement :
    Alike shift Present rank moved tryStatement tryStatement (fun _ => true) shift.Wholes := by
  refine .here fun places => .step (.advanceFrom id) fun _ => .bind (.want .block) fun _ _ block => .atWord fun _ => ?_
  refine .choice true (fun _ => .part alike_catchClause) (fun _ => .pure (.absent .nil)) fun _ _ handler => ?_
  refine .step (.mayEatWord "finally") fun _ => ?_
  refine .choice true (fun _ => .part (.want .block)) (fun _ => .pure (.absent .nil)) fun _ _ finalizer => ?_
  dsimp only
  rw [handler.isAbsent_eq, finalizer.isAbsent_eq]
  exact .step (.faultIf rfl) fun _ => .node places (block.parts.cons (handler.cons finalizer))

theorem alike_debuggerStatement :
    Alike shift Present rank moved debuggerStatement debuggerStatement (fun _ => true) shift.Wholes :=
  .here fun places => .step (.advanceFrom id) fun _ => .step .endStatement fun _ => .node places .nil

/-! ### Declarations -/

theorem alike_letStatement
    (lower : 7 < rank)
    (single : Bool) :
    Alike shift on rank moved (letStatement single) (letStatement single) (fun _ => true) shift.Wholes := by
  refine .choice moved (fun _ => .aheadOnly ?_) (fun _ => alike_letDeclares) fun declares _ same => ?_
  · exact .step .advance fun _ => .atMark fun _ => .pure rfl
  subst same
  refine .ite (fun _ => ?_) fun _ => alike_expressionStatement lower
  exact .step (.faultIf rfl) fun _ => alike_variableStatement "let"

theorem alike_constStatement (single : Bool) :
    Alike shift on rank moved (constStatement single) (constStatement single) (fun _ => true) shift.Wholes :=
  .here fun places => .step (.faultIf rfl) fun _ => alike_declaration (.absent .nil) places

theorem alike_awaitUsingStatement :
    Alike shift on rank moved awaitUsingStatement awaitUsingStatement (fun _ => true) shift.Wholes :=
  .here fun places => .step .advance fun _ => .bind (alike_variableStatement "using") fun _ _ tree =>
    .pure (.node ⟨places, tree.spans.stop⟩ tree.parts.children)

theorem alike_plainStatement
    (lower : 7 < rank)
    (single : Bool) :
    Alike shift on rank moved (plainStatement single) (plainStatement single) (fun _ => true) shift.Wholes := by
  refine .get fun {state _} mirrors _ => ?_
  dsimp only [State.onto]
  split
  next => exact .wantFirst (Nat.lt_of_le_of_lt (Nat.zero_le _) lower)
  next found => exact .step (.advanceAt (found ▸ nofun)) fun _ => .node mirrors.start .nil
  next found =>
    have present : Present state := present_of found nofun
    have given {parser : P Tree} (alike : Alike shift Present rank moved parser parser (fun _ => true) shift.Wholes) :
        Alike shift (· = state) rank moved parser parser (fun _ => true) shift.Wholes :=
      alike.given fun same => same ▸ present
    split
    · exact given alike_conditionalStatement
    · exact given alike_doLoop
    · exact alike_whileLoop
    · exact alike_forStatement
    · exact given (alike_jumpStatement _)
    · exact given (alike_jumpStatement _)
    · exact given alike_returnStatement
    · exact alike_withStatement
    · exact alike_switchStatement
    · exact given alike_throwStatement
    · exact given alike_tryStatement
    · exact given alike_debuggerStatement
    · exact alike_variableStatement "var"
    · exact alike_constStatement single
    · exact alike_letStatement lower single
    · exact .step (.faultIf rfl) fun _ => alike_classLike (.absent .nil) mirrors.start
    · refine .bind (alike_functionDeclaration mirrors.start) fun _ _ function => ?_
      rw [function.parts.kind_eq]
      exact .step (.faultIf rfl) fun _ => .pure function
    · refine .step alike_atAsyncFunction fun _ => .ite (fun _ => ?_) fun _ => ?_
      · exact .step (.faultIf rfl) fun _ => alike_functionDeclaration mirrors.start
      refine .step alike_atTypeDeclaration fun _ => .ite (fun _ => alike_declaration (.absent .nil) mirrors.start) fun _ => ?_
      refine .step (alike_usingDeclares false) fun _ => .ite (fun _ => ?_) fun _ => ?_
      · exact .step (.faultIf rfl) fun _ => alike_variableStatement "using"
      refine .step alike_awaitUsingDeclares fun _ => .ite (fun _ => ?_) fun _ => alike_expressionStatement lower
      exact .step (.faultIf rfl) fun _ => alike_awaitUsingStatement
  next => exact alike_expressionStatement lower

/-! ## Directives and bodies -/

/-- A statement stands for the same directive, because its string is of the same length. -/
theorem directive?_same
    (raw : Text)
    (same : shift.Parts tree tree') :
    Option.Rel shift.Parts (directive? raw tree) (directive? raw tree') := by
  unfold directive?
  split
  next =>
    cases same with
    | node spans inner _ =>
      obtain ⟨_, rfl, literal⟩ := inner.of_one_left
      cases literal with
      | node spans' _ _ =>
        dsimp only
        rw [spans'.stop.sub_eq spans'.start]
        simp only [spans.start.eq_iff spans'.start]
        split
        · exact .some (.node spans .nil .nil)
        · exact .none
  next none =>
    split
    next =>
      obtain ⟨_, _, rfl, parts⟩ := same.of_node_right
      obtain ⟨_, rfl, literal⟩ := parts.of_one_right
      obtain ⟨_, _, rfl, _⟩ := literal.of_node_right
      exact (none _ _ _ _ _ rfl).elim
    next => exact .none

theorem alike_directivesAndStatements
    {stop : P Bool}
    {item : P Tree}
    (test : Alike shift (fun _ => True) (roundRank moved rank) false stop stop (fun _ => false) Eq)
    (each : Alike shift (fun _ => True) (roundRank moved rank) false item item (fun _ => true) shift.Wholes) :
    Alike shift on rank moved (directivesAndStatements stop item) (directivesAndStatements stop item) (fun _ => moved)
      shift.Trees := by
  refine .bind (.rounds (fun _ => false) (Alike.ListsSame shift) ⟨.nil, rfl⟩ ?_)
    fun all all' (directives : shift.Trees all all') => ?_
  · intro ⟨done, goesOn⟩ ⟨done', _⟩ ⟨held, same⟩
    obtain rfl : goesOn = _ := same
    refine .anywhere <| .step test fun _ => .get fun {state _} _ _ => .ite (fun _ => .done held) fun _ => ?_
    refine .get fun {state _} _ _ => .bind each.anywhere fun tree tree' statement => ?_
    have found := directive?_same state.here statement.parts
    dsimp only [State.onto]
    generalize directive? state.here tree = directive at found
    generalize directive? state.here tree' = directive' at found
    cases found with
    | some directive => exact .again ⟨directive.cons held, rfl⟩
    | none => exact .again ⟨statement.parts.cons held, rfl⟩
  · exact .bind (.manyUntil test (.part each)) fun _ _ statements => .pure (directives.reverse.append statements)

theorem alike_functionBody :
    Alike shift on rank moved functionBody functionBody (fun _ => true) shift.Wholes := by
  refine .here fun places => .step (.expect "\x7b") fun _ => ?_
  refine .bind (.withFlags (alike_directivesAndStatements ?_ (.wantFirst (Nat.le_of_ble_eq_true rfl)))) fun _ _ all => ?_
  · exact .atMark fun _ => .pure rfl
  · exact .step (.expect "\x7d") fun _ => .node places all

end Parser

end LiveComponent
