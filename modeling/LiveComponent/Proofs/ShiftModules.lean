import LiveComponent.Proofs.ShiftMarkup
import LiveComponent.Proofs.ShiftStatements
import LiveComponent.Script.Parse

namespace LiveComponent

/-!
# Modules that are alike from a place on

Imports and exports, and with them all statements: behind the place from which two sources are alike, their modules
have the same statements.
-/

namespace Parser

variable
  {shift : Shift}
  {on : State → Prop}
  {rank : Nat}
  {moved : Bool}
  {start start' : Nat}
  {tree tree' decorated decorated' : Tree}
  {state : State}

theorem alike_moduleName :
    Alike shift on rank moved moduleName moduleName (fun _ => true) shift.Wholes :=
  .get fun _ _ => .ite (fun _ => alike_stringLiteral) fun _ => alike_propertyWord

theorem alike_importAttribute :
    Alike shift on rank moved importAttribute importAttribute (fun _ => true) shift.Wholes :=
  .here fun places => .bind alike_moduleName fun _ _ key => .step (.expect ":") fun _ =>
    .bind alike_stringLiteral fun _ _ value => .node places (key.parts.cons value.parts)

theorem attributeKey?_eq
    (same : shift.Parts tree tree') :
    attributeKey? tree = attributeKey? tree' := by
  unfold attributeKey?
  split
  next =>
    obtain ⟨_, _, rfl, parts⟩ := same.of_node_left
    obtain ⟨_, _, rfl, key, _⟩ := parts.of_two_left
    exact keyText?_eq key
  next none =>
    split
    next =>
      obtain ⟨_, _, rfl, parts⟩ := same.of_node_right
      obtain ⟨_, _, rfl, _⟩ := parts.of_two_right
      exact (none _ _ _ rfl).elim
    next => rfl

/-- The word that starts the attributes stands on the line of what is before it. -/
theorem alike_importAttributes :
    Alike shift on rank true importAttributes importAttributes (fun _ => true) shift.Trees := by
  refine .getLine fun _ _ => .ite (fun _ => .step .advance fun _ => .step (.expect "\x7b") fun _ => ?_) fun _ => .pure .nil
  refine .bind (.commaList (.part alike_importAttribute)) fun ⟨all, _⟩ ⟨all', _⟩ ⟨same, _⟩ => .step (.expect "\x7d") fun _ => ?_
  dsimp only at same ⊢
  rw [same.filterMap_eq attributeKey?_eq]
  exact .step (.faultIf rfl) fun _ => .pure same

/-! ## Imports -/

/-- Entries name the same. -/
structure EntriesSame (shift : Shift) (found found' : Entry) : Prop where
  typeOnly : found.typeOnly = found'.typeOnly
  first : shift.Parts found.first found'.first
  second : shift.Parts found.second found'.second

theorem alike_atModuleName :
    Alike shift on rank moved atModuleName atModuleName (fun _ => moved) Eq :=
  .get fun _ _ => .pure rfl

theorem alike_entry :
    Alike shift on rank moved entry entry (fun _ => true) (EntriesSame shift) := by
  refine .bind alike_moduleName fun _ _ first => ?_
  rw [first.parts.kind_eq]
  refine .step alike_atModuleName fun _ => .ite (fun _ => .atWord fun _ => .ite (fun _ => ?_) fun _ => ?_) fun _ => ?_
  · refine .bind alike_moduleName fun _ _ firstAs => .atWord fun _ => .ite (fun _ => ?_) fun _ => ?_
    · refine .bind alike_moduleName fun _ _ secondAs => .step alike_atModuleName fun _ => .ite (fun _ => ?_) fun _ => ?_
      · exact .bind alike_moduleName fun _ _ name => .pure ⟨rfl, firstAs.parts, name.parts⟩
      · exact .pure ⟨rfl, first.parts, secondAs.parts⟩
    · refine .step alike_atModuleName fun _ => .ite (fun _ => ?_) fun _ => .pure ⟨rfl, firstAs.parts, .absent .nil⟩
      exact .bind alike_moduleName fun _ _ name => .pure ⟨rfl, first.parts, name.parts⟩
  · refine .bind alike_moduleName fun _ _ name => .step (.mayEatWord "as") fun _ => .ite (fun _ => ?_) fun _ => ?_
    · exact .bind alike_moduleName fun _ _ second => .pure ⟨rfl, name.parts, second.parts⟩
    · exact .pure ⟨rfl, name.parts, .absent .nil⟩
  · refine .step (.mayEatWord "as") fun _ => .ite (fun _ => ?_) fun _ => .pure ⟨rfl, first.parts, .absent .nil⟩
    exact .bind alike_moduleName fun _ _ second => .pure ⟨rfl, first.parts, second.parts⟩

theorem alike_declaredName
    (same : shift.Parts tree tree') :
    Alike shift on rank moved (declaredName tree) (declaredName tree') (fun _ => moved) shift.Wholes := by
  cases same with
  | absent => exact .fail
  | @node kind _ _ _ _ _ _ spans _ _ =>
    cases kind with
    | name text =>
        exact .ite (fun _ => .fail) fun _ => .get fun _ _ => .step (alike_checkName _ _) fun _ => .pure (.node spans .nil)
    | _ => exact .fail

theorem alike_importNamed :
    Alike shift on rank moved importNamed importNamed (fun _ => true) shift.Wholes := by
  refine .here fun places => .bind alike_entry fun found found' same => ?_
  rw [same.typeOnly, same.second.isAbsent_eq]
  refine .get fun _ _ => .step (.faultIf rfl) fun _ => .bind (alike_declaredName ?_) fun _ _ name => ?_
  · split
    · exact same.first
    · exact same.second
  · exact .node places (same.first.cons name.parts)

theorem alike_importNamespace :
    Alike shift on rank moved importNamespace importNamespace (fun _ => true) shift.Wholes :=
  .here fun places => .step (.expect "*") fun _ => .step (.expectWord "as") fun _ =>
    .bind alike_bindingName fun _ _ name => .node places name.parts

theorem alike_importList :
    Alike shift on rank moved importList importList (fun _ => true) shift.Trees := by
  refine .atMark fun _ => .ite (fun _ => .bind alike_importNamespace fun _ _ all => .pure all.parts) fun _ => ?_
  exact .step (.expect "\x7b") fun _ => .bind (.commaList (.part alike_importNamed)) fun _ _ ⟨same, _⟩ =>
    .step (.expect "\x7d") fun _ => .pure same

theorem alike_importRest
    {typeOnly : Bool}
    (places : shift.Places start start')
    (name : shift.Parts tree tree') :
    Alike shift on rank moved (importRest start typeOnly tree) (importRest start' typeOnly tree') (fun _ => true)
      shift.Wholes := by
  unfold importRest
  rw [name.isAbsent_eq]
  have first :
      shift.Trees (if tree'.isAbsent = true then [] else [.node .importDefault tree.span [tree]])
        (if tree'.isAbsent = true then [] else [.node .importDefault tree'.span [tree']]) := by
    split
    next => exact .nil
    next present =>
      have present : tree.isAbsent = false := name.isAbsent_eq.trans (Bool.not_eq_true _ ▸ present)
      exact .node (name.wholes present).spans name .nil
  refine .choice moved (fun _ => .pure rfl) (fun _ => .mayEat ",") fun hasList _ same => ?_
  subst same
  refine .choice moved (fun _ => alike_importList.mono (fun _ => .all _) id) (fun _ => .pure .nil) fun _ _ more => ?_
  refine .step (.expectWord "from") fun _ => .bind alike_stringLiteral fun _ _ source => ?_
  refine .bind alike_importAttributes fun _ _ attributes => .step .endStatement fun _ => ?_
  have specifiers := first.append more
  dsimp only
  rw [specifiers.length_eq]
  exact .node places ((specifiers.append source.parts).append attributes)

theorem alike_importsTypes :
    Alike shift on rank moved importsTypes importsTypes (fun _ => moved) Eq :=
  .get fun _ _ => .ite (fun _ => .aheadOnly <| .step .advance fun _ => .get fun _ _ => .pure rfl) fun _ => .pure rfl

theorem alike_importsInPhase
    (same : shift.Parts tree tree') :
    Alike shift on rank moved (importsInPhase tree) (importsInPhase tree') (fun _ => moved) Eq := by
  unfold importsInPhase
  rw [same.kind_eq]
  split
  next =>
    refine .ite (fun _ => .atMark fun _ => .pure rfl) fun _ => .ite (fun _ => ?_) fun _ => .pure rfl
    refine .get fun _ _ => .ite (fun _ => .aheadOnly <| .step .advance fun _ => ?_) fun _ => .pure rfl
    exact .atWord fun _ => .pure rfl
  next => exact .pure rfl

theorem alike_importDeclaration :
    Alike shift on rank moved importDeclaration importDeclaration (fun _ => true) shift.Wholes := by
  refine .here fun places => .step .advance fun _ => .get fun {state _} _ _ => .ite (fun _ => ?_) fun _ => ?_
  · exact .bind alike_stringLiteral fun _ _ source => .bind alike_importAttributes fun _ _ attributes =>
      .step .endStatement fun _ => .node places (source.parts.cons attributes)
  refine .ite (fun _ => .bind alike_bindingName fun _ _ name => .step alike_importsTypes fun _ => ?_) fun _ => ?_
  · refine .ite (fun _ => .step (.faultIf rfl) fun _ => .get fun _ _ => .ite (fun _ => ?_) fun _ => ?_) fun _ => ?_
    · exact .bind alike_bindingName fun _ _ name => .atMark fun _ =>
        .ite (fun _ => alike_importEquals places name) fun _ => alike_importRest places name.parts
    · exact alike_importRest places (.absent .nil)
    refine .get fun _ _ => .atMark fun _ => .ite (fun _ => alike_importEquals places name) fun _ => ?_
    refine .step (alike_importsInPhase name.parts) fun _ => .ite (fun _ => .atMark fun _ => ?_) fun _ => ?_
    · exact .ite (fun _ => alike_importRest places (.absent .nil)) fun _ => .bind alike_bindingName fun _ _ name =>
        alike_importRest places name.parts
    · exact alike_importRest places name.parts
  · exact alike_importRest places (.absent .nil)

theorem alike_importStatement
    (lower : 7 < rank) :
    Alike shift on rank moved importStatement importStatement (fun _ => true) shift.Wholes := by
  refine .ahead (.step .advance fun _ => .atOneOf fun _ => .pure rfl) fun _ => ?_
  exact .ite (fun _ => alike_expressionStatement lower) fun _ => alike_importDeclaration

/-! ## Exports -/

theorem alike_exportName :
    Alike shift on rank moved exportName exportName (fun _ => true) shift.Wholes := by
  refine .here fun places => .bind alike_entry fun found found' same => ?_
  rw [same.typeOnly, same.second.isAbsent_eq]
  refine .get fun _ _ => .step (.faultIf rfl) fun _ => .node places (same.first.cons ?_)
  split
  · exact same.first
  · exact same.second

theorem namesVariable_eq
    (same : shift.Parts tree tree') :
    namesVariable tree = namesVariable tree' := by
  unfold namesVariable
  split
  next =>
    obtain ⟨_, _, rfl, parts⟩ := same.of_node_left
    obtain ⟨_, _, rfl, name, _⟩ := parts.of_two_left
    obtain ⟨_, _, rfl, _⟩ := name.of_node_left
    rfl
  next none =>
    split
    next =>
      obtain ⟨_, _, rfl, parts⟩ := same.of_node_right
      obtain ⟨_, _, rfl, name, _⟩ := parts.of_two_right
      obtain ⟨_, _, rfl, _⟩ := name.of_node_right
      exact (none _ _ _ _ _ _ rfl).elim
    next => rfl

theorem alike_exportNames
    {typeOnly : Bool}
    (places : shift.Places start start') :
    Alike shift on rank moved (exportNames start typeOnly) (exportNames start' typeOnly) (fun _ => true)
      shift.Wholes := by
  refine .step (.expect "\x7b") fun _ => .bind (.commaList (.part alike_exportName)) fun ⟨all, _⟩ ⟨all', _⟩ ⟨same, _⟩ => ?_
  refine .step (.expect "\x7d") fun _ => .step (.mayEatWord "from") fun _ => ?_
  dsimp only at same ⊢
  rw [same.all_eq namesVariable_eq]
  refine .ite (fun _ => ?_) fun _ => .step (.faultIf rfl) fun _ => .passing <| .step .endStatement fun _ => ?_
  · exact .bind alike_stringLiteral fun _ _ source => .bind alike_importAttributes fun _ _ _ =>
      .passing <| .step .endStatement fun _ => .node places (source.parts.cons same)
  · exact .node places (.absent same)

theorem alike_exportAll
    {typeOnly : Bool}
    (places : shift.Places start start') :
    Alike shift on rank moved (exportAll start typeOnly) (exportAll start' typeOnly) (fun _ => true) shift.Wholes := by
  refine .step (.expect "*") fun _ => .step (.mayEatWord "as") fun _ => ?_
  refine .choice true (fun _ => .part alike_moduleName) (fun _ => .pure (.absent .nil)) fun _ _ name => ?_
  refine .step (.expectWord "from") fun _ => .bind alike_stringLiteral fun _ _ source => ?_
  exact .bind alike_importAttributes fun _ _ _ => .step .endStatement fun _ => .node places (name.cons source.parts)

theorem alike_moreDecorators
    (decorates : shift.Parts decorated decorated') :
    Alike shift on rank moved (moreDecorators decorated) (moreDecorators decorated') (fun _ => moved) shift.Parts := by
  refine .bind alike_decorators fun _ _ more => ?_
  rw [decorates.isAbsent_eq, more.isAbsent_eq]
  refine .step (.faultIf rfl) fun _ => .pure ?_
  split
  · exact more
  · exact decorates

theorem alike_exportDefault
    (places : shift.Places start start')
    (decorates : shift.Parts decorated decorated') :
    Alike shift on rank true (exportDefault start decorated) (exportDefault start' decorated') (fun _ => true)
      shift.Wholes := by
  refine .step .advance fun _ => .here fun inner => .bind (alike_moreDecorators decorates) fun _ _ decorates => ?_
  refine .get fun {state _} _ _ => .ahead ?_ fun _ => .ahead ?_ fun _ => ?_
  · exact .step (.mayEatWord "abstract") fun _ => .getLine fun _ _ => .pure rfl
  · exact .step (.mayEatWord "interface") fun _ => .getLine fun _ _ => .pure rfl
  refine .step alike_atAsyncFunction fun _ => ?_
  extract_lets rest rest'
  have goesOn {value value' : Tree} (same : shift.Wholes value value') :
      Alike shift (fun _ => True) rank true (rest value) (rest' value') (fun _ => true) shift.Wholes := by
    refine .step (.faultIf ?_) fun _ => .node places same.parts
    rw [decorates.isAbsent_eq, same.parts.kind_eq]
  clear_value rest rest'
  refine .ite (fun _ => .bind (alike_functionDeclaration inner) fun _ _ => goesOn) fun _ => ?_
  refine .ite (fun _ => .bind (alike_classLike decorates inner) fun _ _ => goesOn) fun _ => .ite (fun _ => ?_) fun _ => ?_
  · exact .step .advance fun _ => .bind (alike_classLike decorates inner) fun _ _ => goesOn
  refine .ite (fun _ => .bind (alike_interfaceDeclaration inner) fun _ _ => goesOn) fun _ => ?_
  exact .bind (.want _) fun _ _ value => .step .endStatement fun _ => .passing (goesOn value)

theorem alike_exportDeclaration
    (decorates : shift.Parts decorated decorated') :
    Alike shift Present rank moved (exportDeclaration decorated) (exportDeclaration decorated') (fun _ => true)
      shift.Wholes := by
  refine .here fun places => .step (.advanceFrom id) fun _ => .get fun {state _} mirrors _ => ?_
  rw [decorates.isAbsent_eq]
  refine .ahead (.step (.mayEatWord "type") fun _ => .atOneOf fun _ => .pure rfl) fun _ => .step (.faultIf rfl) fun _ => ?_
  refine .ite (fun _ => alike_exportNames places) fun _ => .ite (fun _ => alike_exportAll places) fun _ => ?_
  refine .ite (fun _ => alike_exportDefault places decorates) fun _ => .ite (fun _ => .step .advance fun _ => ?_) fun _ => ?_
  · exact .bind (.want (.assignment true)) fun _ _ value => .step .endStatement fun _ => .node places value.parts
  refine .ite (fun _ => .step .advance fun _ => .step (.expectWord "namespace") fun _ => ?_) fun _ => .ite (fun _ => ?_) fun _ => ?_
  · exact .bind alike_propertyWord fun _ _ name => .step .endStatement fun _ => .node places name.parts
  · exact .step .advance fun _ => .atMark fun _ => .ite (fun _ => alike_exportAll places) fun _ => alike_exportNames places
  · exact .bind (alike_moreDecorators decorates) fun _ _ decorates => .bind (alike_declaration decorates mirrors.start)
      fun _ _ inner => .node places inner.parts

theorem alike_decoratedStatement :
    Alike shift on rank moved decoratedStatement decoratedStatement (fun _ => true) shift.Wholes := by
  refine .here fun places => .bind alike_decorators fun _ _ decorates => .atWord fun _ => .ite (fun isWord => ?_) fun _ => ?_
  · exact (alike_exportDeclaration decorates).given fun same => same ▸ Token.ne_eof_of_isWord isWord
  · exact alike_declaration decorates places

/-! ## Statements -/

/-- Of the first declared variable the value is marked, so the other variables and its target stay as they are. -/
theorem markHarmlessStatement_parts
    (same : shift.Parts tree tree') :
    shift.Parts (markHarmlessStatement tree) (markHarmlessStatement tree') := by
  unfold markHarmlessStatement
  split
  next =>
    cases same with
    | node spans inner later => exact .node spans inner later
  next keyword _ _ _ _ _ _ _ _ =>
    cases same with
    | node spans inner later =>
      obtain ⟨_, _, rfl, first, others⟩ := inner.of_cons_left
      cases first with
      | node spans' parts later' =>
        obtain ⟨_, _, _, rfl, target, type, value⟩ := parts.of_three_left
        refine .node spans (Shift.Trees.cons (.node spans' (target.cons (type.cons ?_)) later') others) later
        split
        · exact markHarmless_parts value
        · exact value
  next noFunction noBindings =>
    split
    next =>
      obtain ⟨_, _, rfl, _⟩ := same.of_node_right
      exact (noFunction _ _ _ _ _ _ rfl).elim
    next =>
      obtain ⟨_, _, rfl, inner⟩ := same.of_node_right
      obtain ⟨_, _, rfl, first, _⟩ := inner.of_cons_right
      obtain ⟨_, _, rfl, parts⟩ := first.of_node_right
      obtain ⟨_, _, _, rfl, _⟩ := parts.of_three_right
      exact (noBindings _ _ _ _ _ _ _ _ _ rfl).elim
    next => exact same

/-- Marking leaves the span of a statement as it is. -/
theorem span_markHarmlessStatement (tree : Tree) :
    (markHarmlessStatement tree).span = tree.span := by
  unfold markHarmlessStatement
  split <;> rfl

theorem markHarmlessStatement_same
    (same : shift.Wholes tree tree') :
    shift.Wholes (markHarmlessStatement tree) (markHarmlessStatement tree') where
  parts := markHarmlessStatement_parts same.parts
  spans := by
    rw [span_markHarmlessStatement, span_markHarmlessStatement]
    exact same.spans

theorem alike_statement
    (lower : 7 < rank)
    (single : Bool) :
    Alike shift on rank moved (statement single) (statement single) (fun _ => true) shift.Wholes := by
  refine .get fun {state _} _ _ => ?_
  extract_lets rest rest'
  have goesOn {tree tree' : Tree} (same : shift.Wholes tree tree') :
      Alike shift (fun _ => True) rank true (rest tree) (rest' tree') (fun _ => true) shift.Wholes := by
    refine .pure ?_
    change shift.Wholes (if state.notes.function = true then markHarmlessStatement tree else tree)
      (if state.notes.function = true then markHarmlessStatement tree' else tree')
    split
    · exact markHarmlessStatement_same same
    · exact same
  clear_value rest rest'
  refine .ite (fun _ => .bind (alike_importStatement lower) fun _ _ => goesOn) fun _ => .ite (fun isWord => ?_) fun _ => ?_
  · refine .bind ((alike_exportDeclaration (.absent .nil)).given ?_) fun _ _ => goesOn
    exact fun same => same ▸ Token.ne_eof_of_isWord isWord
  refine .ite (fun _ => .bind alike_decoratedStatement fun _ _ => goesOn) fun _ => ?_
  exact .bind (alike_plainStatement lower single) fun _ _ => goesOn

/-! ## Goals -/

/-- The parser of each goal finds the same in both sources, if the goals below it do. -/
theorem alike_parserOf (goal : Goal) :
    Alike shift on goal.rank moved (parserOf goal) (parserOf goal) (fun _ => true) shift.Wholes := by
  cases goal with
  | statement single => exact alike_statement (Nat.lt_succ_self _) single
  | block => exact alike_statementBlock
  | functionBody => exact alike_functionBody
  | expression => exact alike_expression (Nat.lt_succ_self _)
  | assignment resultType => exact alike_assignment (Nat.lt_succ_self _) resultType
  | operation level => exact alike_operation (Nat.lt_succ_self _) level
  | unary => exact alike_unary (Nat.lt_succ_self _)
  | simpleUnary => exact alike_simpleUnary (Nat.lt_succ_self _)
  | leftHand => exact alike_leftHand (Nat.lt_succ_self _)
  | constructed => exact alike_constructed (Nat.lt_succ_self _)
  | pattern => exact alike_bindingPattern
  | anyType => exact alike_anyType
  | operatorType => exact alike_operatorType
  | markup inChildren => exact alike_markup inChildren

/-- Goals are reached alike within any two depths that suffice for them. -/
theorem agree_reach
    {depth depth' bound : Nat}
    (deep : bound ≤ depth)
    (deep' : bound ≤ depth') :
    Agree shift (reach depth) (reach depth') bound := by
  induction bound generalizing depth depth' with
  | zero => exact fun _ below => (Nat.not_lt_zero _ below).elim
  | succ bound inductionHypothesis =>
      obtain ⟨depth, rfl⟩ := Nat.exists_eq_add_of_le' deep
      obtain ⟨depth', rfl⟩ := Nat.exists_eq_add_of_le' deep'
      intro goal state stand mirrors below
      have agree : Agree shift (reach (depth + bound)) (reach (depth' + bound)) bound :=
        inductionHypothesis (Nat.le_add_left _ _) (Nat.le_add_left _ _)
      have alike : Alike shift (fun _ => True) goal.rank false (parserOf goal) (parserOf goal) (fun _ => true)
          shift.Wholes := alike_parserOf goal
      exact alike.run mirrors.size_le (agree.mono (Nat.le_of_lt_succ below)) mirrors trivial (Nat.le_refl _)

end Parser

end LiveComponent
