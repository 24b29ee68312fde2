import LiveComponent.Proofs.LayoutBindings

namespace LiveComponent

/-!
# The layout of types
-/

namespace Parser

open Tree (Fits Laid)

variable {size : Nat}

theorem lays_freeType :
    Lays size false freeType oneTree :=
  (lays_want .anyType).withFlags

/-! ## Type parameters and arguments -/

theorem lays_typeParameterModifiers :
    Lays size false typeParameterModifiers noTrees := by
  refine .of_extends fun _ _ => .rounds noTrees rfl fun seen => ?_
  refine .bind (lays_attemptOption noTrees (.of_extends fun _ _ => .step lays_get fun state => ?_)) fun found => ?_
  · split
    · split
      · refine .step lays_advance fun _ => .step lays_get fun after => ?_
        split <;> exact .pure rfl
      · exact .pure rfl
    · exact .pure rfl
  · cases found <;> exact .pure rfl

theorem lays_typeParameter :
    Lays size true typeParameter oneTree :=
  .of_extends fun _ _ => .step lays_here fun _ => .step lays_typeParameterModifiers fun _ =>
    .bind lays_bindingName fun _ => .step (lays_eatWord "extends") fun _ =>
      .choice lays_freeType lays_absent fun _ => .step (lays_eat "=") fun _ =>
        .choice lays_freeType lays_absent fun _ => .node rfl trivial

theorem lays_typeParameters :
    Lays size false typeParameters oneTree := by
  refine .of_extends fun _ _ => .step lays_get fun state => ?_
  split
  · refine .step lays_advance fun _ => .bind (lays_commaList lays_typeParameter) fun found => ?_
    obtain ⟨all, trailing⟩ := found
    exact .step (lays_expect ">") fun _ => .step (lays_faultIf _) fun _ => .node rfl trivial
  · exact .lastly lays_absent

theorem lays_typeArgumentList :
    Lays size true typeArgumentList oneTree := by
  refine .of_extends fun _ _ => .step lays_here fun _ => .step (lays_expect "<") fun _ =>
    .bind (lays_commaList lays_freeType) fun found => ?_
  obtain ⟨all, trailing⟩ := found
  exact .step (lays_expect ">") fun _ => .step (lays_faultIf _) fun _ => .node rfl trivial

theorem lays_typeArguments :
    Lays size false typeArguments oneTree := by
  refine .of_extends fun _ _ => .step lays_get fun state => ?_
  split
  · exact .lastly lays_absent
  refine .step lays_rereadOpenAngle fun _ => .step (lays_atMark "<") fun opens => ?_
  split
  · exact .lastly lays_typeArgumentList
  · exact .lastly lays_absent

/-! ## Names of types -/

theorem lays_dottedName
    {first : P Tree}
    (lays : Lays size true first oneTree) :
    Lays size true (dottedName first) oneTree := by
  refine .of_extends fun _ _ => .step lays_here fun _ => .bind lays fun head =>
    .rounds oneTree rfl fun left => .step (lays_eat ".") fun more => ?_
  split
  · exact .bind lays_propertyWord fun name => .andThen (.nodeAfter [] rfl trivial) fun tree => .pure rfl
  · exact .pure rfl

theorem lays_typeName :
    Lays size true typeName oneTree :=
  lays_dottedName lays_propertyWord

theorem lays_typeReference :
    Lays size true typeReference oneTree :=
  .of_extends fun _ _ => .step lays_here fun _ => .bind lays_typeName fun _ =>
    .bind lays_typeArguments fun _ => .node rfl trivial

/-! ## Functions -/

theorem lays_resultType :
    Lays size false resultType oneTree := by
  refine .of_extends fun _ _ => .step lays_here fun _ =>
    .bind (lays_attemptOption oneTree (.of_extends fun _ _ => .step lays_get fun state => ?_)) fun subject => ?_
  · split
    · refine .bind lays_propertyWord fun name => .step lays_get fun after => ?_
      split
      · exact .step lays_advance fun _ => .pure rfl
      · exact .drop (.pure rfl)
    · exact .pure rfl
  · cases subject with
    | some name => exact .bind lays_freeType fun type => .node rfl trivial
    | none => exact .lastly lays_freeType

theorem lays_resultAnnotation :
    Lays size false resultAnnotation oneTree := by
  refine .of_extends fun _ _ => .step lays_get fun state => ?_
  split
  · exact .step lays_advance fun _ => .lastly lays_resultType
  · exact .lastly lays_absent

theorem lays_startsFunctionType :
    Lays size false startsFunctionType noTrees := by
  refine .of_extends fun _ _ => .step lays_get fun state => ?_
  split
  · exact .pure rfl
  split
  · exact .lastly (lays_ahead _)
  split
  · exact .lastly (lays_ahead _)
  · exact .pure rfl

theorem lays_functionType :
    Lays size true functionType oneTree := by
  refine .of_extends fun _ _ => .step lays_here fun _ => .step (lays_eatWord "abstract") fun abstracted =>
    .step (lays_eatWord "new") fun constructs => .bind lays_typeParameters fun generics =>
      .bind lays_parameterList fun all => .step (lays_expect "=>") fun _ =>
        .bind lays_resultType fun result => ?_
  cases constructs <;> exact .node rfl trivial

/-! ## Members -/

theorem lays_endMember :
    Lays size false endMember noTrees := by
  refine .of_extends fun _ _ => .step (lays_eat ",") fun found => ?_
  split
  · exact .pure rfl
  · exact .lastly lays_endStatement

theorem lays_opensIndexSignature :
    Lays size false opensIndexSignature noTrees := by
  refine .of_extends fun _ _ => .step (lays_atMark "[") fun opens => ?_
  split
  · exact .lastly (lays_ahead _)
  · exact .pure rfl

theorem lays_indexSignature
    (start : Nat)
    (found : List Modifier) :
    Lays size true (indexSignature start found) oneTree := by
  refine .of_extends fun _ _ => .step (lays_expect "[") fun _ => .step lays_takeWord fun name =>
    .step (lays_expect ":") fun _ => .bind lays_freeType fun key => .step (lays_expect "]") fun _ =>
      .step (lays_atMark ":") fun typed => ?_
  split
  · exact .bind lays_typeAnnotation fun type => .step lays_endMember fun _ => .node rfl trivial
  · exact .fail

theorem lays_accessorRole? :
    Lays size false accessorRole? noTrees := by
  have tried : Lays size false accessorRole? fun found => found.elim [] noTrees := by
    refine lays_attemptOption noTrees (.of_extends fun _ _ => .step lays_get fun state => ?_)
    dsimp only
    split
    · exact .step lays_advance fun _ => .step lays_get fun after => .ite (.pure rfl) (.pure rfl)
    · exact .pure rfl
  exact tried.mono fun found {_ _} laid => by cases found <;> exact laid

theorem lays_signature :
    Lays size true signature id :=
  .of_extends fun _ _ => .bind lays_typeParameters fun _ => .bind lays_parameterList fun _ =>
    .bind lays_resultAnnotation fun _ => .pure rfl

theorem lays_typeMember :
    Lays size false typeMember oneTree := by
  refine .of_extends fun _ _ => .step lays_here fun _ => .step (lays_atOneOf _) fun calls => ?_
  split
  · exact .bind lays_signature fun parts => .step lays_endMember fun _ => .node rfl trivial
  refine .step (lays_ahead _) fun constructs => ?_
  split
  · exact .step lays_advance fun _ => .bind lays_signature fun parts => .step lays_endMember fun _ => .node rfl trivial
  refine .step lays_modifiers fun found => .step (lays_faultIf _) fun _ => .step lays_accessorRole? fun role? => ?_
  split
  · refine .bind lays_propertyKey fun named => ?_
    obtain ⟨key, computed⟩ := named
    exact .bind lays_signature fun parts => .step lays_endMember fun _ => .node rfl trivial
  refine .step lays_opensIndexSignature fun indexes => ?_
  split
  · exact .lastly (lays_indexSignature _ _)
  refine .bind lays_propertyKey fun named => ?_
  obtain ⟨key, computed⟩ := named
  refine .step (lays_eat "?") fun isOptional => .step (lays_atOneOf _) fun isMethod => ?_
  split
  · exact .step (lays_faultIf _) fun _ => .bind lays_signature fun parts => .step lays_endMember fun _ =>
      .node rfl trivial
  · exact .bind lays_typeAnnotation fun type => .step lays_endMember fun _ => .node rfl trivial

theorem lays_typeLiteral :
    Lays size true typeLiteral oneTree :=
  .of_extends fun _ _ => .step lays_here fun _ => .step (lays_expect "\x7b") fun _ =>
    .bind (lays_manyUntil (lays_atMark "\x7d") lays_typeMember) fun _ =>
      .step (lays_expect "\x7d") fun _ => .node rfl trivial

theorem lays_mappedChange
    {present : P Bool}
    (lays : Lays size false present noTrees) :
    Lays size false (mappedChange present) noTrees := by
  refine .of_extends fun _ _ => .step (lays_eat "+") fun adds => ?_
  split
  · refine .step lays fun found => ?_
    split
    · exact .pure rfl
    · exact .fail
  refine .step (lays_eat "-") fun removes => ?_
  split
  · refine .step lays fun found => ?_
    split
    · exact .pure rfl
    · exact .fail
  refine .step lays fun found => ?_
  split <;> exact .pure rfl

theorem lays_mappedType :
    Lays size true mappedType oneTree :=
  .of_extends fun _ _ => .step lays_here fun _ => .step (lays_expect "\x7b") fun _ =>
    .step (lays_mappedChange (lays_eatWord "readonly")) fun _ => .step (lays_expect "[") fun _ =>
      .bind lays_bindingName fun _ => .step (lays_expectWord "in") fun _ => .bind lays_freeType fun _ =>
        .step (lays_eatWord "as") fun _ => .choice lays_freeType lays_absent fun _ =>
          .step (lays_expect "]") fun _ => .step (lays_mappedChange (lays_eat "?")) fun _ =>
            .step (lays_eat ":") fun _ => .choice lays_freeType lays_absent fun _ =>
              .step (lays_eat ";") fun _ => .step (lays_expect "\x7d") fun _ => .node rfl trivial

/-! ## Types -/

theorem lays_tupleElement :
    Lays size false tupleElement oneTree := by
  refine .of_extends fun _ _ => .step lays_here fun _ => .step (lays_ahead _) fun labels => ?_
  split
  · refine .step (lays_eat "...") fun isRest => .step lays_here fun _ => .bind lays_propertyWord fun label =>
      .step (lays_eat "?") fun isOptional => .step (lays_expect ":") fun _ => .bind lays_freeType fun type =>
        .andThen (.nodeAfter [] rfl trivial) fun member => ?_
    split
    · exact .node rfl trivial
    · exact .pure rfl
  refine .step (lays_eat "...") fun isRest => ?_
  split
  · exact .bind lays_freeType fun type => .node rfl trivial
  refine .bind lays_freeType fun type => ?_
  split
  next span type =>
    exact .replace [.node .optionalType span [type]] (fun laid => .node laid.children_node trivial) (.pure rfl)
  · exact .pure rfl

theorem lays_templateType :
    Lays size true templateType oneTree := by
  refine .of_extends fun _ _ => .step lays_get fun state => ?_
  split
  · exact .step lays_advance fun _ => .node rfl trivial
  · refine .step lays_advance fun _ => .rounds (fun held => held.2.reverse) rfl fun held => ?_
    refine .bind lays_freeType fun type => .closing fun _ => .step lays_get fun after => ?_
    split
    · refine .step lays_advance fun _ => .ite ?_ (.pure (by simp))
      exact .andThen (.nodeAfter [] (by simp) trivial) fun tree => .pure rfl
    · exact .fail
  · exact .fail

theorem lays_importType :
    Lays size true importType oneTree :=
  .of_extends fun _ _ => .step lays_here fun _ => .step (lays_expectWord "import") fun _ =>
    .step (lays_expect "(") fun _ => .bind lays_freeType fun _ => .step (lays_eat ",") fun _ =>
      .choice (lays_want _) lays_absent fun _ => .step (lays_expect ")") fun _ =>
        .step (lays_eat ".") fun _ => .choice lays_typeName lays_absent fun _ =>
          .bind lays_typeArguments fun _ => .node rfl trivial

theorem lays_typeQuery :
    Lays size true typeQuery oneTree := by
  refine .of_extends fun _ _ => .step lays_here fun _ => .step (lays_expectWord "typeof") fun _ =>
    .step (lays_atWord "import") fun imports => .ite ?_ ?_
  · exact .bind lays_importType fun type => .replace [type, .absent] (.insert [type] [] trivial) (.node rfl trivial)
  · exact .bind lays_typeName fun name => .bind lays_typeArguments fun arguments => .node rfl trivial

theorem lays_wordFollows :
    Lays size false wordFollows noTrees :=
  lays_ahead _

theorem lays_assertedPredicate :
    Lays size true assertedPredicate oneTree :=
  .of_extends fun _ _ => .step lays_here fun _ => .step lays_advance fun _ => .bind lays_propertyWord fun _ =>
    .step (lays_eatWord "is") fun _ => .choice lays_freeType lays_absent fun _ => .node rfl trivial

theorem lays_simpleType :
    Lays size false simpleType oneTree := by
  refine .of_extends fun _ _ => .step lays_get fun state => ?_
  dsimp only
  split
  next text _ _ =>
    refine .step (lays_ahead _) fun dotted => .ite ?_ (.ite ?_ (.ite ?_ (.ite ?_ (.ite ?_ ?_))))
    · exact .step lays_advance fun _ => .node rfl trivial
    · refine .step lays_advance fun _ => .step lays_get fun after => .ite ?_ (.node rfl trivial)
      refine .step lays_advance fun _ => .bind lays_freeType fun type => ?_
      exact .replace [.node (.name text) ⟨state.start, state.stop⟩ [], type] (.insert [] [type] rfl) (.node rfl trivial)
    · exact .lastly lays_typeQuery
    · exact .lastly lays_importType
    · exact .bind lays_literal fun value => .node rfl trivial
    · refine .step lays_wordFollows fun asserts => .ite ?_ ?_
      · exact .lastly lays_assertedPredicate
      · exact .lastly lays_typeReference
  · exact .step (lays_ahead _) fun maps => .ite (.lastly lays_mappedType) (.lastly lays_typeLiteral)
  · refine .step lays_advance fun _ => .bind (lays_commaList lays_tupleElement) fun found => ?_
    obtain ⟨elements, trailing⟩ := found
    exact .step (lays_expect "]") fun _ => .node rfl trivial
  · exact .step lays_advance fun _ => .bind lays_freeType fun type => .step (lays_expect ")") fun _ => .node rfl trivial
  · exact .step lays_advance fun _ => .step (lays_atOneOf _) fun _ =>
      .ite (.node rfl trivial) (.bind lays_freeType fun type => .node rfl trivial)
  · exact .step lays_advance fun _ => .bind (lays_want .operatorType) fun type => .node rfl trivial
  · refine .step lays_advance fun _ => .step lays_get fun after => .ite ?_ .fail
    exact .bind lays_literal fun value => .andThen (.nodeAfter [] rfl trivial) fun negative => .node rfl trivial
  · exact .lastly lays_templateType
  · exact .ite (.bind lays_literal fun value => .node rfl trivial) .fail

theorem lays_postfixType :
    Lays size false postfixType oneTree := by
  refine .of_extends fun _ _ => .step lays_here fun _ => .bind lays_simpleType fun type =>
    .rounds oneTree rfl fun type => .step lays_get fun state => .ite (.pure rfl) ?_
  refine .step (lays_eat "[") fun brackets => .ite ?_ (.step (lays_eat "!") fun _ => .ite ?_ (.ite ?_ (.pure rfl)))
  · refine .step (lays_eat "]") fun closes => .ite ?_ ?_
    · exact .andThen (.nodeAfter [] rfl trivial) fun tree => .pure rfl
    · exact .bind lays_freeType fun index => .step (lays_expect "]") fun _ =>
        .andThen (.nodeAfter [] rfl trivial) fun tree => .pure rfl
  · exact .andThen (.nodeAfter [] rfl trivial) fun tree => .pure rfl
  · exact .step (lays_ahead _) fun isCondition => .ite (.pure rfl) (.step lays_advance fun _ =>
      .andThen (.nodeAfter [] rfl trivial) fun tree => .pure rfl)

theorem lays_inferredType :
    Lays size true inferredType oneTree := by
  refine .of_extends fun _ _ => .step lays_here fun _ => .step lays_advance fun _ => .step lays_here fun inner =>
    .bind lays_bindingName fun name => .step lays_get fun state => .bind (lays_attemptOption oneTree ?_) fun bound => ?_
  · refine .of_extends fun _ _ => .step (lays_eatWord "extends") fun extended => .ite ?_ (.pure rfl)
    refine .bind (lays_want .anyType).withFlags fun type => .step (lays_atMark "?") fun _ => .ite ?_ (.pure rfl)
    exact .drop (.pure rfl)
  · refine .replace [name, bound.getD .absent, .absent] (fun laid => ?_) ?_
    · cases bound with
      | none => exact .insert [name, .absent] [] trivial (.insert [name] [] trivial laid)
      | some type => exact .insert [name, type] [] trivial laid
    · exact .andThen (.nodeAfter [] rfl trivial) fun parameter => .node rfl trivial

theorem lays_operatorType :
    Lays size false operatorType oneTree := by
  refine .of_extends fun _ _ => .step lays_get fun state => ?_
  split
  · refine .ite ?_ (.ite (.lastly lays_inferredType) (.lastly lays_postfixType.withFlags))
    exact .step lays_advance fun _ => .bind (lays_want .operatorType) fun type => .step (lays_faultIf _) fun _ =>
      .node rfl trivial
  · exact .lastly lays_postfixType.withFlags

theorem lays_joinedTypes
    {mark : String}
    {kind : Kind}
    {item : P Tree}
    (fits : ∀ {low high span children}, Fits low high span children kind)
    (lays : Lays size false item oneTree) :
    Lays size false (joinedTypes mark kind item) oneTree := by
  refine .of_extends fun _ _ => .step lays_here fun _ => .step (lays_eat mark) fun leads =>
    .bind (lays_separated lays) fun types => ?_
  split
  · exact .ite (.node rfl fits) (.pure rfl)
  · exact .node rfl fits

theorem lays_unionType :
    Lays size false unionType oneTree :=
  lays_joinedTypes trivial (lays_joinedTypes trivial lays_operatorType)

theorem lays_anyType :
    Lays size false anyType oneTree := by
  refine .of_extends fun _ _ => .step lays_startsFunctionType fun isFunction =>
    .ite (.lastly lays_functionType) ?_
  refine .step lays_here fun _ => .bind lays_unionType fun type => .step lays_get fun state => .ite ?_ (.pure rfl)
  exact .step lays_advance fun _ => .bind (lays_want .anyType).withFlags fun bound => .step (lays_expect "?") fun _ =>
    .bind lays_freeType fun consequent => .step (lays_expect ":") fun _ =>
      .bind lays_freeType fun alternate => .node rfl trivial

end Parser

end LiveComponent
