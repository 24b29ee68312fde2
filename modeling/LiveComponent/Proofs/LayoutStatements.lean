import LiveComponent.Proofs.LayoutExpressions

namespace LiveComponent

/-!
# The layout of statements

Declarations and statements are laid out one after the other; the span of a statement that is an expression lies
in its place.
-/

namespace Parser

open Tree (Fits Laid)

variable
  {size low high start place : Nat}
  {moved : Bool}
  {tree decorated name : Tree}

/-! ## Variables -/

theorem lays_declarator :
    Lays size false declarator oneTree :=
  .of_extends fun _ _ => .step lays_here fun _ => .bind (lays_want .pattern) fun _ =>
    .step lays_get fun _ => .choice (lays_eat "!") (lays_pure false) fun _ =>
      .bind lays_typeAnnotation fun _ => .step (lays_eat "=") fun _ =>
        .choice (lays_want _) lays_absent fun _ => .node rfl trivial

theorem lays_bindingList
    (keyword : Text) :
    Lays size false (bindingList start keyword) oneTree :=
  .of_extends fun _ _ => .bind (lays_separated lays_declarator) fun _ => .step lays_get fun _ => .node rfl trivial

/-- A list of variables is no expression. -/
theorem gives_bindingList
    (keyword : Text) :
    Gives size (bindingList start keyword) fun tree => ∃ declared, tree.kind = .bindings keyword declared :=
  .bind fun _ => .bind fun _ => .node fun _ => ⟨_, rfl⟩

theorem lays_checkValues
    (keyword : Text)
    (tree : Tree) :
    Lays size false (checkValues keyword tree) noTrees :=
  .of_extends fun _ _ => .step lays_get fun _ => .lastly (lays_faultIf _)

theorem lays_variableStatement (keyword : String) :
    Lays size true (variableStatement keyword) oneTree := by
  refine .of_extends fun _ _ => .step lays_here fun _ => .step (lays_expectWord keyword) fun _ =>
    .bindWith (gives_bindingList _) (lays_bindingList _) fun tree isBindings => ?_
  obtain ⟨kind, span, children⟩ := tree
  obtain ⟨declared, same⟩ := isBindings
  obtain rfl : kind = .bindings keyword.toList declared := same
  exact .replace children .children_node (.step (lays_checkValues _ _) fun _ => .step lays_endStatement fun _ =>
    .node rfl trivial)

theorem gives_variableStatement (keyword : String) :
    Gives size (variableStatement keyword) fun tree => ∃ declared, tree.kind = .bindings keyword.toList declared :=
  .bind fun _ => .bind fun _ => .bindWith (gives_bindingList _) fun _ isBindings =>
    .bind fun _ => .bind fun _ => .node fun _ => isBindings

/-- Variables may begin earlier, where the words before their keyword begin. -/
theorem extends_variables
    {keyword : String}
    {start : Tree → Span} :
    Extends size low place moved []
      (do
        let tree ← variableStatement keyword
        return .node tree.kind (start tree) tree.children)
      true oneTree := by
  refine .bindWith (gives_variableStatement _) (lays_variableStatement keyword) fun tree isBindings => ?_
  obtain ⟨kind, span, children⟩ := tree
  obtain ⟨declared, same⟩ := isBindings
  obtain rfl : kind = .bindings keyword.toList declared := same
  exact .replace [.node (.bindings _ declared) _ children] (fun laid => .node laid.children_node trivial) (.pure rfl)

/-! ## Declarations of types -/

theorem extends_typeAlias :
    Extends size low place moved [] (typeAlias start) true oneTree :=
  .step (lays_expectWord "type") fun _ => .bind lays_bindingName fun _ => .bind lays_typeParameters fun _ =>
    .step (lays_expect "=") fun _ => .bind lays_freeType fun _ => .step lays_endStatement fun _ =>
      .step lays_get fun _ => .node rfl trivial

theorem lays_extendedType :
    Lays size true extendedType oneTree := by
  refine .of_extends fun _ _ => .step lays_here fun _ => .bind (lays_want .leftHand) fun tree => ?_
  refine .replace [(splitArguments tree).1, (splitArguments tree).2] laid_splitArguments ?_
  generalize splitArguments tree = parts
  obtain ⟨expression, arguments⟩ := parts
  refine .ite (.bind lays_typeArguments fun given => ?_) (.passing (.node rfl trivial))
  exact .replace [expression, given] (fun laid => laid.last [expression] (.right [arguments])) (.node rfl trivial)

theorem extends_interfaceDeclaration :
    Extends size low place moved [] (interfaceDeclaration start) true oneTree :=
  .step (lays_expectWord "interface") fun _ => .bind lays_bindingName fun _ =>
    .bind lays_typeParameters fun _ => .step (lays_eatWord "extends") fun _ =>
      .choice (lays_separated lays_extendedType) lays_none fun _ => .bind lays_typeLiteral fun _ =>
        .step lays_get fun _ => .node rfl trivial

theorem lays_enumMember :
    Lays size true enumMember oneTree := by
  refine .of_extends fun _ _ => .step lays_here fun _ => .bind lays_propertyKey fun named => ?_
  obtain ⟨key, computed⟩ := named
  exact .step (lays_faultIf _) fun _ => .step (lays_eat "=") fun _ =>
    .choice (lays_want _) lays_absent fun value => .node rfl trivial

theorem extends_enumDeclaration
    {constant : Bool} :
    Extends size low place moved [] (enumDeclaration start constant) true oneTree := by
  refine .step (lays_expectWord "enum") fun _ => .bind lays_bindingName fun name => .step (lays_expect "\x7b") fun _ =>
    .bind (lays_commaList lays_enumMember).withFlags fun found => ?_
  obtain ⟨members, trailing⟩ := found
  exact .step (lays_expect "\x7d") fun _ => .step lays_get fun state => .node rfl trivial

theorem lays_statementBlock :
    Lays size true statementBlock oneTree :=
  .of_extends fun _ _ => .step lays_here fun _ => .step (lays_expect "\x7b") fun _ =>
    .bind (lays_manyUntil (lays_atMark "\x7d") (lays_want _)) fun _ => .step (lays_expect "\x7d") fun _ =>
      .node rfl trivial

/-- Names with points between become one dotted name. -/
theorem laid_dotted
    {join : Tree → Tree → Span}
    {names : List Tree}
    (laid : Laid low (tree :: names) high) :
    Laid low [names.foldl (fun left name => .node .qualifiedName (join left name) [left, name]) tree] high := by
  induction names generalizing tree with
  | nil => exact laid
  | cons name names inductionHypothesis =>
      obtain ⟨between, first, later⟩ := Laid.split (show Laid low ([tree, name] ++ names) high from laid)
      have joined : Laid low [.node .qualifiedName (join tree name) [tree, name]] between := .node first trivial
      exact inductionHypothesis (joined.append later)

theorem lays_namespaceName :
    Lays size false namespaceName oneTree := by
  refine .of_extends fun _ _ => .step lays_here fun _ => .bind (lays_separated lays_bindingName) fun names => ?_
  split
  · exact .fail
  · exact .replace [_] laid_dotted (.pure rfl)

theorem extends_namespaceDeclaration :
    Extends size low place moved [] (namespaceDeclaration start) true oneTree := by
  refine .step lays_takeWord fun keyword => .step lays_get fun state =>
    .choice lays_stringLiteral lays_namespaceName fun name => .step lays_get fun after => .ite ?_ ?_
  · exact .bind lays_statementBlock fun block => .node rfl trivial
  · exact .step lays_endStatement fun _ => .replace [name, .absent] (.insert [name] [] trivial) (.node rfl trivial)

theorem extends_globalDeclaration :
    Extends size low place moved [] (globalDeclaration start) true oneTree :=
  .step lays_get fun _ => .bind lays_propertyWord fun _ => .bind lays_statementBlock fun _ => .node rfl trivial

theorem extends_importEquals
    {typeOnly : Bool} :
    Extends size low place moved [name] (importEquals start typeOnly name) true oneTree := by
  refine .step (lays_expect "=") fun _ => .step (lays_ahead _) fun requires => .ite ?_ ?_
  · exact .step lays_here fun inner => .step lays_advance fun _ => .step (lays_expect "(") fun _ =>
      .bind lays_stringLiteral fun source => .step (lays_expect ")") fun _ =>
        .andThen (.nodeAfter [name] rfl trivial) fun reference => .step lays_endStatement fun _ => .node rfl trivial
  · exact .bind lays_typeName fun reference => .step lays_endStatement fun _ => .node rfl trivial

theorem lays_atTypeDeclaration :
    Lays size false atTypeDeclaration noTrees :=
  .of_extends fun _ _ => .step lays_get fun _ => .ite (.lastly (lays_ahead _)) (.pure rfl)

theorem extends_functionDeclaration
    {needsName : Bool} :
    Extends size low place moved [] (functionDeclaration place needsName) true wholeTree :=
  .step (lays_eatWord "async") fun _ => extends_functionLike

theorem extends_declaration :
    Extends size low start moved [decorated] (declaration decorated start) true oneTree := by
  refine .step lays_modifiers fun found => .step lays_get fun state => .step (lays_faultIf _) fun _ =>
    .step (lays_faultIf _) fun _ => .step (lays_faultIf _) fun _ => .withFlags ?_
  refine .step (lays_ahead _) fun isConstEnum => .ite (.drop ?_) (.ite ?_ (.ite .fail (.ite (.drop ?_) (.ite .fail
    (.ite (.drop ?_) (.ite (.drop ?_) (.ite (.drop ?_) (.ite .fail (.ite (.drop ?_) (.ite (.drop ?_) (.ite (.drop ?_)
      (.ite (.drop ?_) (.ite (.drop ?_) (.ite (.drop ?_) .fail))))))))))))))
  · exact .step lays_advance fun _ => extends_enumDeclaration
  · exact extends_classLike.tree
  · exact extends_functionLike.tree
  · exact extends_variables
  · exact extends_variables
  · exact extends_variables
  · exact extends_typeAlias
  · exact extends_interfaceDeclaration
  · exact extends_enumDeclaration
  · exact extends_namespaceDeclaration
  · exact extends_globalDeclaration
  · exact .step lays_advance fun _ => .bind lays_bindingName fun name => extends_importEquals

/-! ## Statements -/

theorem lays_bodyStatement :
    Lays size false bodyStatement oneTree :=
  lays_want (.statement true)

theorem lays_headExpression :
    Lays size true headExpression oneTree :=
  .of_extends fun _ _ => .step (lays_expect "(") fun _ => .bind (lays_want .expression) fun _ =>
    .step (lays_expect ")") fun _ => .pure rfl

theorem lays_expressionStatement :
    Lays size true expressionStatement oneTree := by
  refine .of_extends fun low _ => .here fun start => .bind (lays_whole rfl) fun expression => ?_
  have ends {moved : Bool} (isTrue : moved = true) :
      Extends size low start moved [expression.asStatement]
        (endStatement >>= fun _ => node start .expressionStatement [expression]) true oneTree := by
    subst isTrue
    exact .replace [expression] .of_statement (.step lays_endStatement fun _ =>
      .tree (.whole rfl fun reached behind => ⟨behind, reached, Nat.le_refl _⟩))
  split
  next text span parts =>
    refine .step (lays_eat ":") fun labels => .ite ?_ (ends rfl)
    exact .replace [.node (.name text) span []] (fun laid => .insert [] [] rfl (.nil laid.le))
      (.bind lays_bodyStatement fun body => .node rfl trivial)
  · exact ends rfl

theorem lays_conditionalStatement :
    Lays size true conditionalStatement oneTree :=
  .of_extends fun _ _ => .step lays_here fun _ => .step lays_advance fun _ => .bind lays_headExpression fun _ =>
    .bind lays_bodyStatement fun _ => .step (lays_eatWord "else") fun _ =>
      .choice lays_bodyStatement lays_absent fun _ => .node rfl trivial

theorem lays_doLoop :
    Lays size true doLoop oneTree :=
  .of_extends fun _ _ => .step lays_here fun _ => .step lays_advance fun _ => .bind lays_bodyStatement fun _ =>
    .step (lays_expectWord "while") fun _ => .bind lays_headExpression fun _ => .step (lays_eat ";") fun _ =>
      .node rfl trivial

theorem lays_whileLoop :
    Lays size true whileLoop oneTree :=
  .of_extends fun _ _ => .step lays_here fun _ => .step lays_advance fun _ => .bind lays_headExpression fun _ =>
    .bind lays_bodyStatement fun _ => .node rfl trivial

section Loops

variable {awaits : Bool}

theorem extends_forLoopRest :
    Extends size low place moved [tree] (forLoopRest start awaits tree) true oneTree :=
  .step (lays_expect ";") fun _ => .step (lays_atOneOf _) fun _ => .choice lays_absent (lays_want _) fun _ =>
    .step (lays_expect ";") fun _ => .step (lays_atMark ")") fun _ => .choice lays_absent (lays_want _) fun _ =>
      .step (lays_expect ")") fun _ => .step (lays_faultIf _) fun _ => .bind lays_bodyStatement fun _ =>
        .node rfl trivial

theorem extends_forInRest :
    Extends size low place moved [tree] (forInRest start awaits tree) true oneTree :=
  .step lays_advance fun _ => .bind (lays_want .expression) fun _ => .step (lays_expect ")") fun _ =>
    .step (lays_faultIf _) fun _ => .bind lays_bodyStatement fun _ => .node rfl trivial

theorem extends_forOfRest :
    Extends size low place moved [tree] (forOfRest start awaits tree) true oneTree :=
  .step lays_advance fun _ => .bind (lays_want _) fun _ => .step (lays_expect ")") fun _ =>
    .bind lays_bodyStatement fun _ => .node rfl trivial

theorem lays_letDeclares :
    Lays size false letDeclares noTrees :=
  lays_ahead _

theorem extends_forVariables
    {keyword : String} :
    Extends size low place moved [] (forVariables start awaits keyword) true oneTree :=
  .step lays_here fun _ => .step lays_advance fun _ => .bind (lays_bindingList _).withFlags fun _ =>
    .step (lays_atWord "in") fun _ => .ite (.step (lays_faultIf _) fun _ => extends_forInRest)
      (.step (lays_atWord "of") fun _ => .ite extends_forOfRest
        (.step (lays_checkValues _ _) fun _ => extends_forLoopRest))

theorem lays_usingDeclares (isHead : Bool) :
    Lays size false (usingDeclares isHead) noTrees :=
  .of_extends fun _ _ => .step (lays_atWord "using") fun _ => .ite (.lastly (lays_ahead _)) (.pure rfl)

theorem lays_awaitUsingDeclares :
    Lays size false awaitUsingDeclares noTrees :=
  .of_extends fun _ _ => .step (lays_atWord "await") fun _ => .ite (.lastly (lays_ahead _)) (.pure rfl)

theorem lays_forStatement :
    Lays size true forStatement oneTree := by
  refine .of_extends fun _ _ => .here fun start => .step lays_advance fun _ => .step lays_get fun state =>
    .step (lays_eatWord "await") fun awaits => .step (lays_faultIf _) fun _ => .step (lays_expect "(") fun _ =>
      .step lays_get fun state => ?_
  refine .ite (.replace [.absent] (.insert [] [] trivial) extends_forLoopRest) (.ite extends_forVariables
    (.ite extends_forVariables (.step lays_letDeclares fun _ => .ite extends_forVariables
      (.step (lays_usingDeclares _) fun _ => .ite extends_forVariables (.step lays_awaitUsingDeclares fun _ => .ite
        (.step lays_advance fun _ => extends_forVariables)
        (.bind (lays_want .expression).withFlags fun first => .step (lays_atWord "in") fun _ => .ite ?_ ?_))))))
  · exact .andThen extends_assignmentTarget fun target => extends_forInRest
  refine .step (lays_atWord "of") fun _ => .ite ?_ extends_forLoopRest
  exact .step (lays_faultIf _) fun _ => .andThen extends_assignmentTarget fun target => extends_forOfRest

end Loops

theorem lays_jumpStatement
    {kind : Kind}
    (fits : ∀ {low high span children}, Fits low high span children kind) :
    Lays size true (jumpStatement kind) oneTree :=
  .of_extends fun _ _ => .step lays_here fun _ => .step lays_advance fun _ => .step lays_canEndStatement fun _ =>
    .choice lays_absent lays_labelName fun _ => .step lays_endStatement fun _ => .node rfl fits

theorem lays_returnStatement :
    Lays size true returnStatement oneTree :=
  .of_extends fun _ _ => .step lays_get fun _ => .step (lays_faultIf _) fun _ => .step lays_advance fun _ =>
    .step lays_canEndStatement fun _ => .choice lays_absent (lays_want _) fun _ =>
      .step lays_endStatement fun _ => .node rfl trivial

theorem lays_withStatement :
    Lays size true withStatement oneTree :=
  .of_extends fun _ _ => .step lays_here fun _ => .step lays_advance fun _ => .bind lays_headExpression fun _ =>
    .bind lays_bodyStatement fun _ => .node rfl trivial

theorem lays_switchCase :
    Lays size false switchCase oneTree := by
  refine .of_extends fun _ _ => .step lays_here fun _ => .step (lays_eatWord "default") fun isDefault => .ite ?_ ?_
  · exact .bind lays_absent fun test => .step (lays_expect ":") fun _ =>
      .bind (lays_manyUntil (.of_extends fun _ _ => .step lays_get fun state => .pure rfl) (lays_want _)) fun all =>
        .node rfl trivial
  · exact .step (lays_expectWord "case") fun _ => .bind (lays_want _) fun test => .step (lays_expect ":") fun _ =>
      .bind (lays_manyUntil (.of_extends fun _ _ => .step lays_get fun state => .pure rfl) (lays_want _)) fun all =>
        .node rfl trivial

theorem lays_switchStatement :
    Lays size true switchStatement oneTree :=
  .of_extends fun _ _ => .step lays_here fun _ => .step lays_advance fun _ => .bind lays_headExpression fun _ =>
    .step (lays_expect "\x7b") fun _ => .bind (lays_manyUntil (lays_atMark "\x7d") lays_switchCase) fun _ =>
      .step (lays_expect "\x7d") fun _ => .node rfl trivial

theorem lays_throwStatement :
    Lays size true throwStatement oneTree :=
  .of_extends fun _ _ => .step lays_here fun _ => .step lays_advance fun _ => .step lays_get fun _ =>
    .step (lays_faultIf _) fun _ => .bind (lays_want .expression) fun _ => .step lays_endStatement fun _ =>
      .node rfl trivial

theorem lays_catchClause :
    Lays size true catchClause oneTree := by
  refine .of_extends fun _ _ => .step lays_here fun _ => .step lays_advance fun _ =>
    .step (lays_eat "(") fun opens => .ite ?_ ?_
  · refine .step lays_here fun inner => .bind (lays_want .pattern) fun pattern => .bind lays_typeAnnotation fun type =>
      .step (lays_expect ")") fun _ => ?_
    exact .replace [.absent, pattern, type, .absent] (fun laid =>
      .insert [] _ trivial (.insert [pattern, type] [] trivial laid))
      (.andThen (.nodeAfter [] rfl trivial) fun parameter => .bind (lays_want .block) fun block => .node rfl trivial)
  · exact .bind lays_absent fun parameter => .bind (lays_want .block) fun block => .node rfl trivial

theorem lays_tryStatement :
    Lays size true tryStatement oneTree :=
  .of_extends fun _ _ => .step lays_here fun _ => .step lays_advance fun _ => .bind (lays_want .block) fun _ =>
    .step (lays_atWord "catch") fun _ => .choice lays_catchClause lays_absent fun _ =>
      .step (lays_eatWord "finally") fun _ => .choice (lays_want .block) lays_absent fun _ =>
        .step (lays_faultIf _) fun _ => .node rfl trivial

theorem lays_debuggerStatement :
    Lays size true debuggerStatement oneTree :=
  .of_extends fun _ _ => .step lays_here fun _ => .step lays_advance fun _ => .step lays_endStatement fun _ =>
    .node rfl trivial

theorem lays_letStatement (single : Bool) :
    Lays size true (letStatement single) oneTree :=
  .of_extends fun _ _ => .choice (lays_ahead _) lays_letDeclares fun _ =>
    .ite (.step (lays_faultIf _) fun _ => .lastly (lays_variableStatement "let")) (.lastly lays_expressionStatement)

theorem lays_constStatement (single : Bool) :
    Lays size true (constStatement single) oneTree :=
  .of_extends fun _ _ => .here fun _ => .step (lays_faultIf _) fun _ =>
    .replace [.absent] (.insert [] [] trivial) extends_declaration

theorem lays_awaitUsingStatement :
    Lays size true awaitUsingStatement oneTree := by
  refine .of_extends fun _ _ => .step lays_here fun place => .step lays_advance fun _ =>
    .bind (lays_variableStatement "using") fun tree => ?_
  obtain ⟨kind, span, children⟩ := tree
  exact .replace [.node (.bindings "await using".toList false) _ children]
    (fun laid => .node laid.children_node trivial) (.pure rfl)

theorem lays_plainStatement (single : Bool) :
    Lays size false (plainStatement single) oneTree := by
  refine .of_extends fun _ _ => .getIdle fun state => ?_
  split
  · exact .lastly (lays_want .block)
  · exact .step lays_advance fun _ => .node rfl trivial
  · split
    · exact .lastly lays_conditionalStatement
    · exact .lastly lays_doLoop
    · exact .lastly lays_whileLoop
    · exact .lastly lays_forStatement
    · exact .lastly (lays_jumpStatement trivial)
    · exact .lastly (lays_jumpStatement trivial)
    · exact .lastly lays_returnStatement
    · exact .lastly lays_withStatement
    · exact .lastly lays_switchStatement
    · exact .lastly lays_throwStatement
    · exact .lastly lays_tryStatement
    · exact .lastly lays_debuggerStatement
    · exact .lastly (lays_variableStatement "var")
    · exact .lastly (lays_constStatement single)
    · exact .lastly (lays_letStatement single)
    · exact .step (lays_faultIf _) fun _ => .replace [.absent] (.insert [] [] trivial) extends_classLike.tree.idle
    · exact .andThen extends_functionDeclaration.tree fun tree => .step (lays_faultIf _) fun _ => .pure rfl
    · refine .step lays_atAsyncFunction fun isAsync => .ite ?_ (.step lays_atTypeDeclaration fun declares => .ite ?_
        (.step (lays_usingDeclares _) fun uses => .ite ?_ (.step lays_awaitUsingDeclares fun waits => .ite ?_ ?_)))
      · exact .step (lays_faultIf _) fun _ => extends_functionDeclaration.tree.idle
      · exact .replace [.absent] (.insert [] [] trivial) extends_declaration.idle
      · exact .step (lays_faultIf _) fun _ => .lastly (lays_variableStatement "using")
      · exact .step (lays_faultIf _) fun _ => .lastly lays_awaitUsingStatement
      · exact .lastly lays_expressionStatement
  · exact .lastly lays_expressionStatement

theorem lays_block :
    Lays size true block oneTree :=
  lays_statementBlock

/-! ## Bodies -/

theorem laid_directive
    {raw : Text}
    {directive : Tree}
    (found : directive? raw tree = some directive)
    (laid : Laid low [tree] high) :
    Laid low [directive] high := by
  unfold directive? at found
  split at found
  · split at found
    · cases found
      exact .node (.nil laid.le) trivial
    · cases found
  · cases found

theorem lays_directivesAndStatements
    {stop : P Bool}
    {item : P Tree}
    (test : Lays size false stop noTrees)
    (lays : Lays size false item oneTree) :
    Lays size false (directivesAndStatements stop item) id := by
  refine .of_extends fun _ _ => .bind (.of_extends fun _ _ => .rounds (fun held => held.1.reverse) rfl fun held =>
    ?_) fun directives =>
    .bind (lays_manyUntil test lays) fun statements => .pure rfl
  refine .step test fun stops => .step lays_get fun state => .ite (.pure rfl) ?_
  refine .step lays_get fun state => .bind lays fun statement => ?_
  split
  next tree found =>
    exact .replace (_ ++ [tree]) (fun laid => laid.last _ (laid_directive found)) (.pure (by simp))
  next => exact .pure (by simp)

theorem lays_functionBody :
    Lays size true functionBody oneTree :=
  .of_extends fun _ _ => .step lays_here fun _ => .step (lays_expect "\x7b") fun _ =>
    .bind (lays_directivesAndStatements (lays_atMark "\x7d") (lays_want (.statement false))).withFlags fun _ =>
      .step (lays_expect "\x7d") fun _ => .node rfl trivial

end Parser

end LiveComponent
