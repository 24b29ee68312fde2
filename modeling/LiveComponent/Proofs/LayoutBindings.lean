import LiveComponent.Proofs.LayoutSteps

namespace LiveComponent

/-!
# The layout of names, patterns and parameters
-/

namespace Parser

open Tree (Fits Laid)

variable {size : Nat}

/-! ## Names -/

theorem lays_checkName
    (flags : Flags)
    (text : Text) :
    Lays size false (checkName flags text) noTrees :=
  lays_faultIf _

theorem lays_takeWord :
    Lays size true takeWord noTrees := by
  refine .of_extends fun _ _ => .step lays_get fun state => ?_
  split
  · exact .step lays_advanceName fun _ => .pure rfl
  · exact .fail

theorem lays_propertyWord :
    Lays size true propertyWord oneTree :=
  .of_extends fun _ _ => .step lays_here fun _ => .step lays_takeWord fun _ => .node rfl rfl

theorem lays_bindingName :
    Lays size true bindingName oneTree := by
  refine .of_extends fun _ _ => .step lays_get fun state => ?_
  split
  · exact .step lays_takeWord fun _ => .step (lays_checkName _ _) fun _ => .node rfl trivial
  · exact .fail

theorem whole_identifier :
    Lays size true identifier wholeTree := by
  refine .of_extends fun _ _ => .get fun state => ?_
  split
  · exact .step lays_takeWord fun _ => .step (lays_checkName _ _) fun _ => .whole rfl fun _ _ => trivial
  · exact .fail

theorem lays_labelName :
    Lays size true labelName oneTree := by
  refine .of_extends fun _ _ => .step lays_get fun state => ?_
  split
  · refine .step lays_takeWord fun text => .step (lays_checkName _ _) fun _ => ?_
    split
    · exact .node rfl rfl
    · exact .fail
  · exact .fail

theorem whole_stringLiteral :
    Lays size true stringLiteral wholeTree := by
  refine .of_extends fun _ _ => .get fun state => ?_
  split
  · exact .step lays_advance fun _ => .whole rfl fun _ _ => rfl
  · exact .fail

theorem gives_stringLiteral :
    Gives size stringLiteral fun tree => tree.isString = true := by
  refine .bind fun state => ?_
  split
  · exact .bind fun _ => .node fun _ => rfl
  · exact .fail

theorem whole_literal :
    Lays size true literal wholeTree := by
  refine .of_extends fun _ _ => .get fun state => ?_
  split
  · exact .step lays_advance fun _ => .whole rfl fun _ _ => trivial
  · exact .step lays_advance fun _ => .whole rfl fun _ _ => trivial
  · exact .lastly whole_stringLiteral
  · refine .step lays_advance fun _ => ?_
    repeat' split
    · exact .whole rfl fun _ _ => trivial
    · exact .whole rfl fun _ _ => trivial
    · exact .whole rfl fun _ _ => trivial
    · exact .fail
  · exact .fail

/-- A tree of which the span lies in its place is laid out. -/
theorem Lays.tree
    {moves : Bool}
    {parser : P Tree}
    (lays : Lays size moves parser wholeTree) :
    Lays size moves parser oneTree :=
  lays.mono fun _ {_ _} => Laid.of_statement

theorem lays_stringLiteral :
    Lays size true stringLiteral oneTree :=
  whole_stringLiteral.tree

theorem lays_literal :
    Lays size true literal oneTree :=
  whole_literal.tree

theorem lays_privateName :
    Lays size true privateName oneTree := by
  refine .of_extends fun _ _ => .step lays_get fun state => ?_
  split
  · exact .step lays_advance fun _ => .node rfl trivial
  · exact .fail

theorem lays_propertyKey :
    Lays size true propertyKey fun key => [key.1] := by
  refine .of_extends fun _ _ => .step lays_get fun state => ?_
  split
  · exact .bind lays_privateName fun key => .pure rfl
  · exact .step lays_advance fun _ => .bind (lays_want _).withFlags fun key =>
      .step (lays_expect "]") fun _ => .pure rfl
  · split
    · exact .bind lays_literal fun key => .pure rfl
    · exact .bind lays_propertyWord fun key => .pure rfl

/-! ## Modifiers and decorators -/

theorem lays_canFollowModifier :
    Lays size false canFollowModifier noTrees :=
  .still fun ran => by
    cases ran
    rfl

theorem lays_modifier? (seen : List Modifier) :
    Lays size false (modifier? seen) noTrees := by
  have tried : Lays size false (modifier? seen) fun found => found.elim [] noTrees := by
    refine lays_attemptOption noTrees (.of_extends fun _ _ => .step lays_get fun state => ?_)
    split
    · split
      · refine .step lays_advance fun _ => .step (lays_atMark _) fun opens => ?_
        split
        · exact .pure rfl
        split
        · exact .pure rfl
        refine .step lays_get fun after => ?_
        split
        · exact .pure rfl
        refine .step lays_canFollowModifier fun follows => ?_
        split <;> exact .pure rfl
      · exact .pure rfl
    · exact .pure rfl
  exact tried.mono fun found {_ _} laid => by cases found <;> exact laid

theorem lays_modifiers :
    Lays size false modifiers noTrees := by
  refine .of_extends fun _ _ => .rounds noTrees rfl fun seen => ?_
  refine .step (lays_modifier? seen) fun found => ?_
  split
  · exact .step (lays_faultIf _) fun _ => .pure rfl
  · exact .pure rfl

theorem lays_decorator :
    Lays size true decorator oneTree :=
  .of_extends fun _ _ => .step lays_here fun _ => .step lays_advance fun _ =>
    .bind (lays_want .leftHand).withFlags fun _ => .node rfl trivial

theorem lays_decorators :
    Lays size false decorators oneTree := by
  refine .of_extends fun _ _ => .step lays_here fun _ => .step (lays_atMark "@") fun found => ?_
  split
  · exact .bind (lays_manyUntil (.of_extends fun _ _ => .step (lays_atMark "@") fun _ => .pure rfl)
      lays_decorator) fun all => .node rfl trivial
  · exact .lastly lays_absent

/-! ## Types and values of variables -/

theorem lays_typeAnnotation :
    Lays size false typeAnnotation oneTree := by
  refine .of_extends fun _ _ => .step lays_get fun state => ?_
  split
  · exact .step lays_advance fun _ => .lastly (lays_want .anyType).withFlags
  · exact .lastly lays_absent

theorem lays_initializer :
    Lays size false initializer oneTree := by
  refine .of_extends fun _ _ => .step (lays_eat "=") fun found => ?_
  split
  · exact .lastly (lays_want _).withFlags
  · exact .lastly lays_absent

/-! ## Patterns -/

theorem lays_patternElement :
    Lays size false patternElement oneTree := by
  refine .of_extends fun _ _ => .step lays_here fun _ => .bind (lays_want .pattern) fun pattern =>
    .bind lays_initializer fun value => ?_
  split
  · exact .replace [pattern] Laid.left (.pure rfl)
  · exact .node rfl trivial

theorem lays_restPattern :
    Lays size true restPattern oneTree := by
  refine .of_extends fun _ _ => .step lays_here fun _ => .step (lays_expect "...") fun _ =>
    .bind (lays_want .pattern) fun pattern => .step (lays_atMark "=") fun found => ?_
  dsimp only
  split
  · exact .bind lays_initializer fun value => .step lays_fault fun _ =>
      .replace [pattern] Laid.left (.node rfl trivial)
  · exact .node rfl trivial

theorem lays_patternProperty :
    Lays size true patternProperty oneTree := by
  refine .of_extends fun _ _ => .step lays_get fun state => .bind lays_propertyKey fun found => ?_
  obtain ⟨key, computed⟩ := found
  refine .step (lays_atMark ":") fun _ => ?_
  split
  · split
    next text span parts =>
      refine .step (lays_checkName _ _) fun _ => .bind lays_initializer fun value => ?_
      let name := Tree.node (.binding text) span []
      dsimp only
      split
      · exact .passing <| .replace [_, name] (fun laid => .insert [_] [] trivial laid.left) (.node rfl trivial)
      · exact .replace [_, name, value] (.insert [_] [value] trivial) (.andThen (.nodeAfter [_] rfl trivial) fun target => .node rfl trivial)
    next => exact .fail
  · exact .step (lays_expect ":") fun _ => .bind lays_patternElement fun target => .node rfl trivial

theorem lays_restProperty :
    Lays size true restProperty oneTree := by
  refine .of_extends fun _ _ => .bind lays_restPattern fun rest => ?_
  split
  · exact .pure rfl
  · exact .step lays_fault fun _ => .pure rfl

theorem lays_arrayElement :
    Lays size false arrayElement oneTree := by
  refine .of_extends fun _ _ => .step (lays_atMark ",") fun missing => ?_
  split
  · exact .step lays_here fun place => .replace [.node .hole ⟨place, place⟩ []] (.insert [] [] trivial) (.pure rfl)
  · exact .lastly lays_patternElement

theorem lays_bindingPattern :
    Lays size true bindingPattern oneTree := by
  refine .of_extends fun _ _ => .step lays_here fun _ => .step (lays_eat "\x7b") fun braces => ?_
  split
  · exact .bind (lays_restList lays_patternProperty lays_restProperty) fun properties =>
      .step (lays_expect "\x7d") fun _ => .node rfl trivial
  refine .step (lays_eat "[") fun brackets => ?_
  split
  · exact .bind (lays_restList lays_arrayElement lays_restPattern) fun elements =>
      .step (lays_expect "]") fun _ => .node rfl trivial
  · exact .lastly lays_bindingName

/-! ## Parameters -/

theorem lays_parameter :
    Lays size false parameter oneTree := by
  refine .of_extends fun _ _ => .step lays_here fun _ => .bind lays_decorators fun decorated =>
    .step lays_modifiers fun found => .step lays_get fun state => .step (lays_faultIf _) fun _ =>
      .bind (lays_want .pattern) fun pattern => ?_
  refine .choice (lays_eat "?") (lays_pure false) fun isOptional => ?_
  exact .bind lays_typeAnnotation fun type => .bind lays_initializer fun value =>
    .step (lays_faultIf _) fun _ => .node rfl trivial

theorem lays_restParameter :
    Lays size true restParameter oneTree :=
  .of_extends fun _ _ => .step lays_here fun _ => .bind lays_restPattern fun _ =>
    .bind lays_typeAnnotation fun _ => .step (lays_atMark "=") fun _ => .step (lays_faultIf _) fun _ =>
      .node rfl trivial

theorem lays_thisParameter :
    Lays size true thisParameter oneTree :=
  .of_extends fun _ _ => .step lays_here fun _ => .step lays_advance fun _ =>
    .bind lays_typeAnnotation fun _ => .node rfl trivial

theorem lays_parameterList :
    Lays size true parameterList oneTree := by
  refine .of_extends fun _ _ => .step lays_here fun _ => .step (lays_expect "(") fun _ =>
    .step lays_get fun state => ?_
  split
  · exact .bind lays_thisParameter fun this => .step (lays_atMark ")") fun closes =>
      .sometimes (lays_expect ",") fun _ => .bind (lays_restList lays_parameter lays_restParameter) fun others =>
        .step (lays_expect ")") fun _ => .node rfl trivial
  · exact .bind (lays_restList lays_parameter lays_restParameter) fun all =>
      .step (lays_expect ")") fun _ => .node rfl trivial

end Parser

end LiveComponent
