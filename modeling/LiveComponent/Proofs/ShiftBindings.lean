import LiveComponent.Proofs.ShiftSteps
import LiveComponent.Script.Parser.Binding

namespace LiveComponent

/-!
# Names, patterns and parameters on sources that are alike from a place on
-/

namespace Parser

variable
  {shift : Shift}
  {on : State → Prop}
  {rank : Nat}
  {moved : Bool}
  {state : State}

/-! ## Names -/

theorem alike_checkName
    (flags : Flags)
    (text : Text) :
    Alike shift on rank moved (checkName flags text) (checkName flags text) (fun _ => moved) Eq :=
  .faultIf rfl

theorem alike_takeWord :
    Alike shift on rank moved takeWord takeWord (fun _ => true) Eq := by
  refine .get fun {state _} _ _ => ?_
  dsimp only [State.onto]
  cases found : state.token with
  | word text => exact .step (.advanceNameFrom fun {_} same => same ▸ found ▸ nofun) fun _ => .pure rfl
  | _ => exact .fail

theorem alike_propertyWord :
    Alike shift on rank moved propertyWord propertyWord (fun _ => true) shift.Wholes :=
  .here fun places => .step alike_takeWord fun _ => .node places .nil

/-- A name at the current token. -/
theorem alike_named
    {make : Text → Kind} :
    Alike shift on rank moved
      (do
        let state ← get
        if state.token.isBindable then
          let text ← takeWord
          checkName state.flags text
          node state.start (make text) []
        else
          fail)
      (do
        let state ← get
        if state.token.isBindable then
          let text ← takeWord
          checkName state.flags text
          node state.start (make text) []
        else
          fail)
      (fun _ => true) shift.Wholes :=
  .get fun mirrors _ => .ite
    (fun _ => .step alike_takeWord fun _ => .step (alike_checkName _ _) fun _ => .node mirrors.start .nil) fun _ => .fail

theorem alike_bindingName :
    Alike shift on rank moved bindingName bindingName (fun _ => true) shift.Wholes :=
  alike_named

theorem alike_identifier :
    Alike shift on rank moved identifier identifier (fun _ => true) shift.Wholes :=
  alike_named

theorem alike_labelName :
    Alike shift on rank moved labelName labelName (fun _ => true) shift.Wholes := by
  refine .get fun {state _} mirrors _ => .ite (fun _ => ?_) fun _ => .fail
  refine .step alike_takeWord fun _ => .step (alike_checkName _ _) fun _ => ?_
  dsimp only [State.onto]
  cases state.token with
  | word => exact .node mirrors.start .nil
  | _ => exact .fail

theorem alike_stringLiteral :
    Alike shift on rank moved stringLiteral stringLiteral (fun _ => true) shift.Wholes := by
  refine .get fun {state _} mirrors _ => ?_
  dsimp only [State.onto]
  cases found : state.token with
  | string => exact .step (.advanceAt (found ▸ nofun)) fun _ => .node mirrors.start .nil
  | _ => exact .fail

theorem alike_literal :
    Alike shift on rank moved literal literal (fun _ => true) shift.Wholes := by
  refine .get fun {state _} mirrors _ => ?_
  dsimp only [State.onto]
  cases found : state.token with
  | number => exact .step (.advanceAt (found ▸ nofun)) fun _ => .node mirrors.start .nil
  | bigint => exact .step (.advanceAt (found ▸ nofun)) fun _ => .node mirrors.start .nil
  | string => exact alike_stringLiteral
  | word text =>
      refine .step (.advanceAt (found ▸ nofun)) fun _ => .ite (fun _ => .node mirrors.start .nil) fun _ => ?_
      exact .ite (fun _ => .node mirrors.start .nil) fun _ => .ite (fun _ => .node mirrors.start .nil) fun _ => .fail
  | _ => exact .fail

theorem alike_privateName :
    Alike shift on rank moved privateName privateName (fun _ => true) shift.Wholes := by
  refine .get fun {state _} mirrors _ => ?_
  dsimp only [State.onto]
  cases found : state.token with
  | privateName => exact .step (.advanceAt (found ▸ nofun)) fun _ => .node mirrors.start .nil
  | _ => exact .fail

/-- Keys are the same, and so is whether they are computed. -/
abbrev KeysSame (shift : Shift) (key key' : Tree × Bool) : Prop :=
  shift.Wholes key.1 key'.1 ∧ key.2 = key'.2

theorem alike_propertyKey :
    Alike shift on rank moved propertyKey propertyKey (fun _ => true) (KeysSame shift) := by
  refine .get fun {state _} _ _ => ?_
  dsimp only [State.onto]
  split
  next found => exact .bind alike_privateName fun _ _ same => .pure ⟨same, rfl⟩
  next found =>
    exact .step (.advanceAt (found ▸ nofun)) fun _ => .bind (.withFlags (.want _)) fun _ _ same =>
      .step (.expect "]") fun _ => .pure ⟨same, rfl⟩
  next =>
    split
    · exact .bind alike_literal fun _ _ same => .pure ⟨same, rfl⟩
    · exact .bind alike_propertyWord fun _ _ same => .pure ⟨same, rfl⟩

/-! ## Modifiers and decorators -/

theorem alike_canFollowModifier :
    Alike shift on rank moved canFollowModifier canFollowModifier (fun _ => moved) Eq :=
  .get fun _ _ => .pure rfl

theorem alike_modifier? (seen : List Modifier) :
    Alike shift on rank moved (modifier? seen) (modifier? seen) (fun found => found.isSome || moved) Eq := by
  refine .attemptSame <| .get fun {state _} _ _ => ?_
  dsimp only [State.onto]
  cases found : state.token with
  | word text escaped =>
      dsimp only
      split
      · refine .step (.advanceAt (found ▸ nofun)) fun _ => .atMark fun _ => .ite (fun _ => .pure rfl) fun _ => ?_
        refine .ite (fun _ => .pure rfl) fun _ => .getLine fun _ _ => .ite (fun _ => .pure rfl) fun _ => ?_
        exact .step alike_canFollowModifier fun _ => .ite (fun _ => .pure rfl) fun _ => .pure rfl
      · exact .pure rfl
  | _ => exact .pure rfl

theorem alike_modifiers :
    Alike shift on rank moved modifiers modifiers (fun _ => moved) Eq := by
  refine .rounds (fun _ => false) Eq rfl fun seen _ same => ?_
  subst same
  refine .anywhere <| .step (alike_modifier? seen) fun found => ?_
  cases found with
  | some found => exact .step (.faultIf rfl) fun _ => .again rfl
  | none => exact .done rfl

theorem alike_decorator :
    Alike shift Present rank moved decorator decorator (fun _ => true) shift.Wholes :=
  .here fun places => .step (.advanceFrom id) fun _ => .bind (.withFlags (.want .leftHand)) fun _ _ same =>
    .node places same.parts

theorem alike_decorators :
    Alike shift on rank moved decorators decorators (fun _ => moved) shift.Parts := by
  refine .here fun places => .atMark fun _ => .ite (fun _ => ?_) fun _ => .pure (.absent .nil)
  have many {on : State → Prop} : Alike shift on rank moved
      (manyUntil (do return !(← atMark "@")) decorator) (manyUntil (do return !(← atMark "@")) decorator) (fun _ => moved)
      shift.Trees := by
    refine .rounds (fun _ => false) shift.Trees .nil fun _ _ held => .test (fun _ _ => rfl) (fun _ _ => rfl) fun {state} _ => ?_
    refine .ite (fun _ => .done held.reverse) fun isMark => .bind (alike_decorator.given ?_) fun _ _ same => .again (same.parts.cons held)
    rintro _ rfl
    rw [Bool.not_eq_true, Bool.not_eq_false'] at isMark
    exact Token.ne_eof_of_isMark isMark
  exact .bind many fun _ _ same => .nodePart places same

/-! ## Types and values of variables -/

theorem alike_typeAnnotation :
    Alike shift on rank moved typeAnnotation typeAnnotation (fun _ => moved) shift.Parts := by
  refine .get fun {state _} _ _ => .ite (fun isMark => ?_) fun _ => .pure (.absent .nil)
  refine .step (.advanceAt ?_) fun _ => .part (.withFlags (.want .anyType))
  exact Token.ne_eof_of_isMark (Bool.and_eq_true_iff.mp isMark).2

theorem alike_initializer :
    Alike shift on rank moved initializer initializer (fun _ => moved) shift.Parts :=
  .ifEat (.part (.withFlags (.want (.assignment true)))) (.pure (.absent .nil))

/-! ## Patterns -/

theorem alike_patternElement
    (lower : 0 < rank) :
    Alike shift on rank moved patternElement patternElement (fun _ => true) shift.Wholes := by
  refine .here fun places => .bind (.wantFirst lower) fun _ _ pattern => .bind alike_initializer fun _ _ value => ?_
  rw [value.isAbsent_eq]
  exact .ite (fun _ => .pure pattern) fun _ => .node places (pattern.parts.cons value)

theorem alike_restPattern :
    Alike shift on rank moved restPattern restPattern (fun _ => true) shift.Wholes := by
  refine .here fun places => .step (.expect "...") fun _ => .bind (.want .pattern) fun _ _ pattern => .atMark fun _ => ?_
  refine .ite (fun _ => .bind alike_initializer fun _ _ _ => .step .fault fun _ => ?_) fun _ => ?_
  · exact .node places pattern.parts
  · exact .node places pattern.parts

theorem alike_patternProperty
    (lower : 0 < rank) :
    Alike shift on rank moved patternProperty patternProperty (fun _ => true) shift.Wholes := by
  refine .get fun {state _} mirrors _ => .bind alike_propertyKey fun ⟨key, computed⟩ ⟨key', _⟩ ⟨keys, same⟩ => ?_
  obtain rfl : computed = _ := same
  refine .atMark fun _ => .ite (fun _ => ?_) fun _ => ?_
  · obtain ⟨parts, spans⟩ := keys
    cases parts with
    | absent => exact .fail
    | @node kind span other children parts _ _ spans' inner later =>
      cases kind with
      | name text =>
          refine .step (alike_checkName _ _) fun _ => .bind alike_initializer fun _ _ value => ?_
          dsimp only
          rw [value.isAbsent_eq]
          have name : shift.Wholes (.node (.binding text) span []) (.node (.binding text) other []) := .node spans' .nil
          refine .choice true (fun _ => .pure name) (fun _ => .node mirrors.start (name.parts.cons value)) fun _ _ target => ?_
          exact .node mirrors.start (Shift.Trees.cons (.node spans' inner .nil) target.parts)
      | _ => exact .fail
  · exact .step (.expect ":") fun _ => .bind (alike_patternElement lower) fun _ _ target =>
      .node mirrors.start (keys.parts.cons target.parts)

theorem alike_restProperty :
    Alike shift on rank moved restProperty restProperty (fun _ => true) shift.Wholes := by
  refine .bind alike_restPattern fun rest rest' same => ?_
  split
  next =>
    cases same.parts with
    | node _ inner _ =>
      cases inner with
      | node _ _ later =>
        cases later
        exact .pure same
  next none =>
    split
    next =>
      cases same.parts with
      | node _ inner _ =>
        cases inner with
        | node _ _ later =>
          cases later
          exact (none _ _ _ _ rfl).elim
    next => exact .step .fault fun _ => .pure same

theorem alike_arrayElement
    (lower : 0 < rank) :
    Alike shift on rank moved arrayElement arrayElement (fun _ => moved) shift.Wholes := by
  refine .atMark fun _ => .ite (fun _ => .here fun places => .pure (.node ⟨places, places.ends⟩ .nil)) fun _ => ?_
  exact (alike_patternElement lower).mono (fun _ => inferInstance) id

theorem alike_bindingPattern :
    Alike shift on rank moved bindingPattern bindingPattern (fun _ => true) shift.Wholes := by
  refine .here fun places => .ifEat ?_ (.ifEat ?_ alike_bindingName)
  · exact .bind (.restList (.part (alike_patternProperty (Nat.succ_pos _))) (.part alike_restProperty)) fun _ _ properties =>
      .step (.expect "\x7d") fun _ => .node places properties
  · exact .bind (.restList (.part (alike_arrayElement (Nat.succ_pos _))) (.part alike_restPattern)) fun _ _ elements =>
      .step (.expect "]") fun _ => .node places elements

/-! ## Parameters -/

theorem alike_parameter
    (lower : 0 < rank) :
    Alike shift on rank moved parameter parameter (fun _ => true) shift.Wholes := by
  refine .here fun places => .bind alike_decorators fun _ _ decorated => .step alike_modifiers fun found => ?_
  refine .get fun {state _} _ _ => .step (.faultIf rfl) fun _ => .bind (.wantFirst lower) fun _ _ pattern => ?_
  refine .choice true (fun _ => .mayEat "?") (fun _ => .pure rfl) fun isOptional _ same => ?_
  subst same
  refine .bind alike_typeAnnotation fun _ _ type => .bind alike_initializer fun _ _ value => ?_
  rw [value.isAbsent_eq]
  exact .step (.faultIf rfl) fun _ => .node places (decorated.cons (pattern.parts.cons (type.cons value)))

theorem alike_restParameter :
    Alike shift on rank moved restParameter restParameter (fun _ => true) shift.Wholes :=
  .here fun places => .bind alike_restPattern fun _ _ rest => .bind alike_typeAnnotation fun _ _ type =>
    .atMark fun _ => .step (.faultIf rfl) fun _ => .node places (rest.parts.cons type)

theorem alike_thisParameter :
    Alike shift on rank true thisParameter thisParameter (fun _ => true) shift.Wholes :=
  .here fun places => .step .advance fun _ => .bind alike_typeAnnotation fun _ _ type => .node places type

theorem alike_parameterList :
    Alike shift on rank moved parameterList parameterList (fun _ => true) shift.Wholes := by
  refine .here fun places => .step (.expect "(") fun _ => .get fun {state _} _ _ => ?_
  have list {on : State → Prop} {rank : Nat} {close : String} : Alike shift on rank true (restList close parameter restParameter)
      (restList close parameter restParameter) (fun _ => true) shift.Trees :=
    .restList (.part (alike_parameter (Nat.succ_pos _))) (.part alike_restParameter)
  refine .ite (fun _ => ?_) fun _ => ?_
  · refine .bind alike_thisParameter fun _ _ this => .atMark fun _ => ?_
    refine .sometimes (fun _ => .expect ",") ?_
    exact .bind list fun _ _ others => .step (.expect ")") fun _ => .node places (this.parts.cons others)
  · exact .bind list fun _ _ all => .step (.expect ")") fun _ => .node places all

end Parser

end LiveComponent
