import LiveComponent.Proofs.ShiftBindings
import LiveComponent.Script.Parser.Type

namespace LiveComponent

/-!
# Types on sources that are alike from a place on
-/

namespace Parser

variable
  {shift : Shift}
  {on : State → Prop}
  {rank : Nat}
  {moved : Bool}
  {state : State}

theorem alike_freeType :
    Alike shift on rank true freeType freeType (fun _ => true) shift.Wholes :=
  .withFlags (.want .anyType)

theorem alike_freeTypeFirst
    (lower : 0 < rank) :
    Alike shift on rank moved freeType freeType (fun _ => true) shift.Wholes :=
  .withFlags (.wantFirst lower)

/-! ## Type parameters and arguments -/

theorem alike_typeParameterModifiers :
    Alike shift on rank moved typeParameterModifiers typeParameterModifiers (fun _ => moved) Eq := by
  refine .rounds (fun _ => false) Eq rfl fun seen _ same => .anywhere ?_
  subst same
  refine .step (.attemptSame <| .get fun {state _} _ _ => ?_) fun found => ?_
  · dsimp only [State.onto]
    cases found : state.token with
    | word text =>
        refine .ite (fun _ => .step (.advanceAt (found ▸ nofun)) fun _ => .get fun _ _ => ?_) fun _ => .pure rfl
        exact .ite (fun _ => .pure rfl) fun _ => .pure rfl
    | _ => exact .pure rfl
  · cases found with
    | some text => exact .again rfl
    | none => exact .done rfl

theorem alike_typeParameter :
    Alike shift on rank moved typeParameter typeParameter (fun _ => true) shift.Wholes := by
  refine .here fun places => .step alike_typeParameterModifiers fun found => .bind alike_bindingName fun _ _ name => ?_
  refine .step (.mayEatWord "extends") fun _ => .choice true (fun _ => .part alike_freeType) (fun _ => .pure (.absent .nil)) ?_
  refine fun _ _ bound => .step (.mayEat "=") fun _ => ?_
  refine .choice true (fun _ => .part alike_freeType) (fun _ => .pure (.absent .nil)) fun _ _ value => ?_
  exact .node places (name.parts.cons (bound.cons value))

theorem alike_typeParameters :
    Alike shift on rank moved typeParameters typeParameters (fun _ => moved) shift.Parts := by
  refine .get fun {state _} mirrors _ => .ite (fun isMark => ?_) fun _ => .pure (.absent .nil)
  refine .step (.advanceAt (Token.ne_eof_of_isMark (Bool.and_eq_true_iff.mp isMark).2)) fun _ => ?_
  refine .bind (.commaList (.part alike_typeParameter)) fun ⟨all, _⟩ ⟨all', _⟩ ⟨same, _⟩ => ?_
  exact .step (.expect ">") fun _ => .step (.faultIf same.isEmpty_eq) fun _ => .nodePart mirrors.start same

theorem alike_typeArgumentList :
    Alike shift on rank moved typeArgumentList typeArgumentList (fun _ => true) shift.Wholes := by
  refine .here fun places => .step (.expect "<") fun _ => ?_
  refine .bind (.commaList (.part (alike_freeTypeFirst (Nat.succ_pos _)))) fun ⟨all, _⟩ ⟨all', _⟩ ⟨same, _⟩ => ?_
  exact .step (.expect ">") fun _ => .step (.faultIf same.isEmpty_eq) fun _ => .node places same

theorem alike_typeArguments :
    Alike shift on rank true typeArguments typeArguments (fun _ => true) shift.Parts := by
  refine .getLine fun _ _ => .ite (fun _ => .pure (.absent .nil)) fun _ => ?_
  exact .step .rereadOpenAngle fun _ => .atMark fun _ => .ite (fun _ => .part alike_typeArgumentList) fun _ =>
    .pure (.absent .nil)

/-! ## Names of types -/

theorem alike_dottedName
    {first first' : P Tree}
    (alike : Alike shift (fun _ => True) rank moved first first' (fun _ => true) shift.Wholes) :
    Alike shift on rank moved (dottedName first) (dottedName first') (fun _ => true) shift.Wholes := by
  refine .here fun places => .bind alike.anywhere fun _ _ head => .roundsBehind shift.Wholes head fun _ _ left => ?_
  refine .ifEat ?_ (.done left)
  exact .bind alike_propertyWord fun _ _ name => .bind (.node places (left.parts.cons name.parts)) fun _ _ whole =>
    .again whole

theorem alike_typeName :
    Alike shift on rank moved typeName typeName (fun _ => true) shift.Wholes :=
  alike_dottedName alike_propertyWord

theorem alike_typeReference :
    Alike shift on rank moved typeReference typeReference (fun _ => true) shift.Wholes :=
  .here fun places => .bind alike_typeName fun _ _ name => .bind alike_typeArguments fun _ _ arguments =>
    .node places (name.parts.cons arguments)

/-! ## Functions -/

theorem alike_resultType :
    Alike shift on rank true resultType resultType (fun _ => true) shift.Wholes := by
  refine .here fun places => .bind (.attemptOption shift.Wholes <| .get fun {state _} _ _ => ?_) fun _ _ subject => ?_
  · refine .ite (fun _ => .bind alike_propertyWord fun _ _ name => .getLine fun _ _ => ?_) fun _ => .pure .none
    exact .ite (fun _ => .step .advance fun _ => .pure (.some name)) fun _ => .pure .none
  · cases subject with
    | some name => exact .bind alike_freeType fun _ _ type => .node places (name.parts.cons type.parts)
    | none => exact alike_freeType

theorem alike_resultAnnotation :
    Alike shift on rank moved resultAnnotation resultAnnotation (fun _ => moved) shift.Parts := by
  refine .get fun {state _} _ _ => .ite (fun isMark => ?_) fun _ => .pure (.absent .nil)
  exact .step (.advanceAt (Token.ne_eof_of_isMark (Bool.and_eq_true_iff.mp isMark).2)) fun _ => .part alike_resultType

theorem alike_skipParameterStart :
    Alike shift on rank true skipParameterStart skipParameterStart (fun _ => true) Eq := by
  refine .step alike_modifiers fun _ => .get fun {state _} _ _ => .ite (fun _ => .step .advance fun _ => .pure rfl) fun _ => ?_
  exact .ite (fun _ => .bind (.want .pattern) fun _ _ _ => .get fun _ _ => .pure rfl) fun _ => .pure rfl

theorem alike_opensFunctionType :
    Alike shift Present rank moved opensFunctionType opensFunctionType (fun _ => moved) Eq := by
  refine .aheadOnly <| .step (.advanceFrom id) fun _ => .atOneOf fun _ => .ite (fun _ => .pure rfl) fun _ => ?_
  refine .step alike_skipParameterStart fun _ => .ite (fun _ => .atOneOf fun _ => ?_) fun _ => .pure rfl
  refine .ite (fun _ => .pure rfl) fun _ => .ifEat ?_ (.pure rfl)
  exact .get fun _ _ => .pure rfl

theorem alike_startsFunctionType :
    Alike shift on rank moved startsFunctionType startsFunctionType (fun _ => moved) Eq := by
  refine .get fun {state _} _ _ => .ite (fun _ => .pure rfl) fun _ => .ite (fun isMark => ?_) fun _ => ?_
  · exact alike_opensFunctionType.given fun same => same ▸ Token.ne_eof_of_isMark isMark
  · refine .ite (fun isWord => .aheadOnly ?_) fun _ => .pure rfl
    exact .step (.advanceAt (Token.ne_eof_of_isWord isWord)) fun _ => .get fun _ _ => .pure rfl

theorem alike_functionType :
    Alike shift on rank moved functionType functionType (fun _ => true) shift.Wholes := by
  refine .here fun places => .step (.mayEatWord _) fun _ => .step (.mayEatWord _) fun _ => ?_
  refine .bind alike_typeParameters fun _ _ generics => .bind alike_parameterList fun _ _ all => ?_
  refine .step (.expect "=>") fun _ => .bind alike_resultType fun _ _ result => ?_
  exact .node places (generics.cons (all.parts.cons result.parts))

/-! ## Members -/

theorem alike_endMember :
    Alike shift on rank true endMember endMember (fun _ => true) Eq :=
  .ifEat (.pure rfl) .endStatement

theorem alike_opensIndexSignature :
    Alike shift on rank moved opensIndexSignature opensIndexSignature (fun _ => moved) Eq := by
  refine .atMark fun _ => .ite (fun isMark => .aheadOnly ?_) fun _ => .pure rfl
  refine .step (.advanceAt (Token.ne_eof_of_isMark isMark)) fun _ => .atOneOf fun _ => .ite (fun _ => .pure rfl) fun _ => ?_
  refine .step alike_modifiers fun _ => .get fun _ _ => .ite (fun _ => .step .advance fun _ => ?_) fun _ => .pure rfl
  refine .atOneOf fun _ => .ite (fun _ => .pure rfl) fun _ => .ifEat ?_ (.pure rfl)
  exact .get fun _ _ => .pure rfl

theorem alike_indexSignature
    {start start' : Nat}
    (places : shift.Places start start')
    (found : List Modifier) :
    Alike shift on rank moved (indexSignature start found) (indexSignature start' found) (fun _ => true) shift.Wholes := by
  refine .step (.expect "[") fun _ => .step alike_takeWord fun _ => .step (.expect ":") fun _ => ?_
  refine .bind alike_freeType fun _ _ key => .step (.expect "]") fun _ => .atMark fun _ => .ite (fun _ => ?_) fun _ => .fail
  exact .bind alike_typeAnnotation fun _ _ type => .step alike_endMember fun _ => .node places (key.parts.cons type)

theorem alike_accessorRole? :
    Alike shift on rank moved accessorRole? accessorRole? (fun found => found.isSome || moved) Eq := by
  refine .attemptSame <| .get fun {state _} _ _ => ?_
  dsimp only [State.onto]
  generalize found : (if state.token.isWord "get" = true then some MethodRole.getter
    else if state.token.isWord "set" = true then some MethodRole.setter else none) = role
  cases role with
  | some role =>
      have some : state.token ≠ .eof := by
        split at found
        next isWord => exact Token.ne_eof_of_isWord isWord
        next =>
          split at found
          next isWord => exact Token.ne_eof_of_isWord isWord
          next => cases found
      exact .step (.advanceAt some) fun _ => .get fun _ _ => .ite (fun _ => .pure rfl) fun _ => .pure rfl
  | none => exact .pure rfl

theorem alike_signature :
    Alike shift on rank moved signature signature (fun _ => true) shift.Trees :=
  .bind alike_typeParameters fun _ _ generics => .bind alike_parameterList fun _ _ all =>
    .bind alike_resultAnnotation fun _ _ result => .pure (generics.cons (all.parts.cons result))

theorem alike_typeMember :
    Alike shift on rank moved typeMember typeMember (fun _ => true) shift.Wholes := by
  refine .here fun places => .atOneOf fun _ => .ite (fun _ => ?_) fun _ => ?_
  · exact .bind alike_signature fun _ _ parts => .step alike_endMember fun _ => .node places parts
  refine .ahead ?_ fun constructs => .ite (fun _ => ?_) fun _ => ?_
  · exact .step (.mayEatWord _) fun _ => .atOneOf fun _ => .pure rfl
  · exact .step .advance fun _ => .bind alike_signature fun _ _ parts => .step alike_endMember fun _ =>
      .node places parts
  refine .step alike_modifiers fun found => .step (.faultIf rfl) fun _ => .step alike_accessorRole? fun role => ?_
  cases role with
  | some role =>
      refine .bind alike_propertyKey fun ⟨key, computed⟩ ⟨key', _⟩ ⟨keys, same⟩ => ?_
      obtain rfl : computed = _ := same
      exact .bind alike_signature fun _ _ parts => .step alike_endMember fun _ => .node places (keys.parts.cons parts)
  | none =>
      refine .step alike_opensIndexSignature fun _ => .ite (fun _ => alike_indexSignature places found) fun _ => ?_
      refine .bind alike_propertyKey fun ⟨key, computed⟩ ⟨key', _⟩ ⟨keys, same⟩ => ?_
      obtain rfl : computed = _ := same
      refine .step (.mayEat "?") fun _ => .atOneOf fun _ => .ite (fun _ => ?_) fun _ => ?_
      · exact .step (.faultIf rfl) fun _ => .bind alike_signature fun _ _ parts => .step alike_endMember fun _ =>
          .node places (keys.parts.cons parts)
      · exact .bind alike_typeAnnotation fun _ _ type => .step alike_endMember fun _ =>
          .node places (keys.parts.cons type)

theorem alike_typeLiteral :
    Alike shift on rank moved typeLiteral typeLiteral (fun _ => true) shift.Wholes := by
  refine .here fun places => .step (.expect "\x7b") fun _ => ?_
  exact .bind (.manyUntil (.get fun _ _ => .pure rfl) (.part alike_typeMember)) fun _ _ members => .step (.expect "\x7d") fun _ =>
    .node places members

theorem alike_opensMappedType :
    Alike shift on rank moved opensMappedType opensMappedType (fun _ => moved) Eq := by
  refine .aheadOnly <| .step .advance fun _ => .atOneOf fun _ => .ite (fun _ => ?_) fun _ => ?_
  · exact .step .advance fun _ => .get fun _ _ => .pure rfl
  · refine .step (.mayEatWord _) fun _ => .ifEat ?_ (.pure rfl)
    exact .get fun _ _ => .ite (fun _ => .step .advanceName fun _ => .get fun _ _ => .pure rfl) fun _ => .pure rfl

theorem alike_mappedChange
    {present : P Bool}
    (alike : ∀ {on moved}, Alike shift on rank moved present present (fun _ => moved) Eq) :
    Alike shift on rank moved (mappedChange present) (mappedChange present) (fun _ => moved) Eq := by
  refine .ifEat ?_ (.ifEat ?_ ?_)
  · exact .step alike fun _ => .ite (fun _ => .pure rfl) fun _ => .fail
  · exact .step alike fun _ => .ite (fun _ => .pure rfl) fun _ => .fail
  · exact .step alike fun _ => .ite (fun _ => .pure rfl) fun _ => .pure rfl

theorem alike_mappedType :
    Alike shift on rank moved mappedType mappedType (fun _ => true) shift.Wholes := by
  refine .here fun places => .step (.expect "\x7b") fun _ => .step (alike_mappedChange (.mayEatWord _)) fun _ => ?_
  refine .step (.expect "[") fun _ => .bind alike_bindingName fun _ _ name => .step (.expectWord "in") fun _ => ?_
  refine .bind alike_freeType fun _ _ keys => .step (.mayEatWord _) fun _ => ?_
  refine .choice true (fun _ => .part alike_freeType) (fun _ => .pure (.absent .nil)) fun _ _ renamed => ?_
  refine .step (.expect "]") fun _ => .step (alike_mappedChange (.mayEat _)) fun _ => .step (.mayEat ":") fun _ => ?_
  refine .choice true (fun _ => .part alike_freeType) (fun _ => .pure (.absent .nil)) fun _ _ type => ?_
  exact .step (.mayEat ";") fun _ => .step (.expect "\x7d") fun _ =>
    .node places (name.parts.cons (keys.parts.cons (renamed.cons type)))

/-! ## Tuples and templates -/

theorem alike_labelsElement :
    Alike shift on rank moved labelsElement labelsElement (fun _ => moved) Eq := by
  refine .aheadOnly <| .step (.mayEat "...") fun _ => .get fun _ _ => .ite (fun _ => ?_) fun _ => .pure rfl
  exact .step .advanceName fun _ => .step (.mayEat "?") fun _ => .get fun _ _ => .pure rfl

theorem alike_tupleElement
    (lower : 0 < rank) :
    Alike shift on rank moved tupleElement tupleElement (fun _ => moved) shift.Wholes := by
  refine .here fun places => .step alike_labelsElement fun _ => .ite (fun _ => ?_) fun _ => .ifEat ?_ ?_
  · refine .step (.mayEat "...") fun isRest => .here fun inner => .bind alike_propertyWord fun _ _ label => ?_
    refine .step (.mayEat "?") fun _ => .step (.expect ":") fun _ => .bind alike_freeType fun _ _ type => ?_
    refine .nodeThen inner (label.parts.cons type.parts) fun _ _ member => ?_
    exact .ite (fun _ => .node places member.parts) fun _ => .pure member
  · exact .bind alike_freeType fun _ _ type => .node places type.parts
  · refine .bind (alike_freeTypeFirst lower) fun type type' same => ?_
    split
    next =>
      obtain ⟨_, _, rfl, inner⟩ := same.parts.of_node_left
      obtain ⟨_, _, rfl, type, later⟩ := inner.of_cons_left
      obtain rfl := later.of_nil_left
      exact .pure (.node same.spans type)
    next none =>
      split
      next =>
        obtain ⟨_, _, rfl, inner⟩ := same.parts.of_node_right
        obtain ⟨_, _, rfl, _, later⟩ := inner.of_cons_right
        obtain rfl := later.of_nil_right
        exact (none _ _ rfl).elim
      next => exact .pure same

theorem alike_templateType :
    Alike shift on rank moved templateType templateType (fun _ => true) shift.Wholes := by
  refine .get fun {state _} mirrors _ => ?_
  dsimp only [State.onto]
  split
  next found => exact .step (.advanceAt (found ▸ nofun)) fun _ => .node mirrors.start .nil
  next raw _ found =>
    refine .step (.advanceAt (found ▸ nofun)) fun _ => ?_
    refine .roundsBehind (fun held held' => held.1 = held'.1 ∧ shift.Trees held.2 held'.2) ⟨rfl, .nil⟩
      fun ⟨quasis, types⟩ ⟨quasis', types'⟩ ⟨same, held⟩ => ?_
    obtain rfl : quasis = quasis' := same
    refine .bind (alike_freeTypeFirst (Nat.succ_pos _)) fun _ _ type => .closing fun _ => .get fun {after _} _ _ => ?_
    dsimp only [State.onto]
    split
    next found =>
      have more := type.parts.cons held
      refine .step (.advanceAt (found ▸ nofun)) fun _ => .ite (fun _ => ?_) fun _ => .again ⟨rfl, more⟩
      exact .nodeThen mirrors.start more.reverse fun _ _ whole => .done whole
    next => exact .fail
  next => exact .fail

/-! ## Simple types -/

theorem alike_importType :
    Alike shift on rank moved importType importType (fun _ => true) shift.Wholes := by
  refine .here fun places => .step (.expectWord "import") fun _ => .step (.expect "(") fun _ => ?_
  refine .bind alike_freeType fun _ _ source => .step (.mayEat ",") fun _ => ?_
  refine .choice true (fun _ => .part (.want (.assignment true))) (fun _ => .pure (.absent .nil)) fun _ _ options => ?_
  refine .step (.expect ")") fun _ => .step (.mayEat ".") fun _ => ?_
  refine .choice true (fun _ => .part (alike_dottedName alike_propertyWord)) (fun _ => .pure (.absent .nil)) ?_
  refine fun _ _ qualifier => .bind alike_typeArguments fun _ _ arguments => ?_
  exact .node places (source.parts.cons (options.cons (qualifier.cons arguments)))

theorem alike_typeQuery :
    Alike shift on rank moved typeQuery typeQuery (fun _ => true) shift.Wholes := by
  refine .here fun places => .step (.expectWord "typeof") fun _ => .atWord fun _ => .ite (fun _ => ?_) fun _ => ?_
  · exact .bind alike_importType fun _ _ type => .node places (type.parts.cons (.absent .nil))
  · exact .bind alike_typeName fun _ _ name => .bind alike_typeArguments fun _ _ arguments =>
      .node places (name.parts.cons arguments)

theorem alike_wordFollows :
    Alike shift Present rank moved wordFollows wordFollows (fun _ => moved) Eq :=
  .aheadOnly <| .step (.advanceFrom id) fun _ => .getLine fun _ _ => .pure rfl

theorem alike_assertedPredicate :
    Alike shift on rank moved assertedPredicate assertedPredicate (fun _ => true) shift.Wholes := by
  refine .here fun places => .step .advance fun _ => .bind alike_propertyWord fun _ _ name => ?_
  refine .step (.mayEatWord _) fun _ => ?_
  refine .choice true (fun _ => .part alike_freeType) (fun _ => .pure (.absent .nil)) fun _ _ type => ?_
  exact .node places (name.parts.cons type)

theorem alike_simpleType :
    Alike shift on rank moved simpleType simpleType (fun _ => true) shift.Wholes := by
  refine .get fun {state _} mirrors _ => ?_
  dsimp only [State.onto]
  split
  next text _ found =>
    have some : state.token ≠ .eof := found ▸ nofun
    refine .ahead (.step .advance fun _ => .get fun _ _ => .pure rfl) fun _ => .ite (fun _ => ?_) fun _ => ?_
    · exact .step (.advanceAt some) fun _ => .node mirrors.start .nil
    refine .ite (fun _ => .step (.advanceAt some) fun _ => .getLine fun _ _ => .ite (fun _ => ?_) fun _ => ?_) fun _ => ?_
    · refine .step .advance fun _ => .bind alike_freeType fun _ _ type => ?_
      exact .node mirrors.start (Shift.Trees.cons (.node ⟨mirrors.start, mirrors.stop.ends⟩ .nil .nil) type.parts)
    · exact .node mirrors.start .nil
    refine .ite (fun _ => alike_typeQuery) fun _ => .ite (fun _ => alike_importType) fun _ => .ite (fun _ => ?_) fun _ => ?_
    · exact .bind alike_literal fun _ _ value => .node mirrors.start value.parts
    refine .step (alike_wordFollows.given fun same => same ▸ some) fun _ => .ite (fun _ => ?_) fun _ => ?_
    · exact alike_assertedPredicate
    · exact alike_typeReference
  · exact .step alike_opensMappedType fun _ => .ite (fun _ => alike_mappedType) fun _ => alike_typeLiteral
  next found =>
    refine .step (.advanceAt (found ▸ nofun)) fun _ => ?_
    refine .bind (.commaList (.part (alike_tupleElement (Nat.succ_pos _)))) fun ⟨all, _⟩ ⟨all', _⟩ ⟨same, _⟩ => ?_
    exact .step (.expect "]") fun _ => .node mirrors.start same
  next found =>
    exact .step (.advanceAt (found ▸ nofun)) fun _ => .bind alike_freeType fun _ _ type => .step (.expect ")") fun _ =>
      .node mirrors.start type.parts
  next found =>
    refine .step (.advanceAt (found ▸ nofun)) fun _ => .atOneOf fun _ => .ite (fun _ => .node mirrors.start .nil) fun _ => ?_
    exact .bind alike_freeType fun _ _ type => .node mirrors.start type.parts
  next found =>
    exact .step (.advanceAt (found ▸ nofun)) fun _ => .bind (.want .operatorType) fun _ _ type =>
      .node mirrors.start type.parts
  next found =>
    refine .step (.advanceAt (found ▸ nofun)) fun _ => .get fun _ _ => .ite (fun _ => ?_) fun _ => .fail
    exact .bind alike_literal fun _ _ value => .nodeThen mirrors.start value.parts fun _ _ negative =>
      .node mirrors.start negative.parts
  · exact alike_templateType
  · exact .ite (fun _ => .bind alike_literal fun _ _ value => .node mirrors.start value.parts) fun _ => .fail

theorem alike_startsType :
    Alike shift on rank moved startsType startsType (fun _ => moved) Eq := by
  refine .get fun {state _} _ _ => ?_
  dsimp only [State.onto]
  split
  · exact .aheadOnly <| .step .advance fun _ => .get fun _ _ => .pure rfl
  · exact .aheadOnly <| .step .advance fun _ => .get fun _ _ => .pure rfl
  · exact .pure rfl

theorem alike_postfixType :
    Alike shift on rank moved postfixType postfixType (fun _ => true) shift.Wholes := by
  refine .here fun places => .bind alike_simpleType fun _ _ type => .roundsBehind shift.Wholes type fun _ _ type => ?_
  refine .getBehind fun {state _} _ _ => .ite (fun _ => .done type) fun _ => .ifEat (.ifEat ?_ ?_) (.ifEat ?_ ?_)
  · exact .nodeThen places type.parts fun _ _ whole => .again whole
  · refine .bind alike_freeType fun _ _ index => .step (.expect "]") fun _ => ?_
    exact .nodeThen places (type.parts.cons index.parts) fun _ _ whole => .again whole
  · exact .nodeThen places type.parts fun _ _ whole => .again whole
  refine .ite (fun isMark => .ahead ?_ fun _ => .ite (fun _ => .done type) fun _ => ?_) fun _ => .done type
  · exact .step .advance fun _ => alike_startsType.loosely
  · exact .step (.advanceAt (Token.ne_eof_of_isMark isMark)) fun _ => .nodeThen places type.parts fun _ _ whole =>
      .again whole

theorem alike_inferredType :
    Alike shift Present rank moved inferredType inferredType (fun _ => true) shift.Wholes := by
  refine .here fun places => .step (.advanceFrom id) fun _ => .here fun inner => .bind alike_bindingName fun _ _ name => ?_
  refine .get fun {state _} _ _ => .bind (.attemptOption shift.Wholes ?_) fun bound bound' found => ?_
  · refine .ifEatWord ?_ (.pure .none)
    refine .bind (.withFlags (.want .anyType)) fun _ _ type => ?_
    exact .atMark fun _ => .ite (fun _ => .pure .none) fun _ => .pure (.some type)
  · have bound : shift.Parts (bound.getD .absent) (bound'.getD .absent) := by
      cases found with
      | some bound => exact bound.parts
      | none => exact .absent .nil
    exact .nodeThen inner (name.parts.cons (bound.cons (.absent .nil))) fun _ _ parameter => .node places parameter.parts

theorem alike_operatorType :
    Alike shift on rank moved operatorType operatorType (fun _ => true) shift.Wholes := by
  refine .get fun {state _} mirrors _ => ?_
  dsimp only [State.onto]
  split
  next text _ found =>
    have some : state.token ≠ .eof := found ▸ nofun
    refine .ite (fun _ => .step (.advanceAt some) fun _ => .bind (.want .operatorType) fun _ _ type => ?_) fun _ => .ite (fun _ => ?_) fun _ => ?_
    · rw [type.parts.kind_eq]
      exact .step (.faultIf rfl) fun _ => .node mirrors.start type.parts
    · exact alike_inferredType.given fun same => same ▸ some
    · exact .withFlags alike_postfixType
  next => exact .withFlags alike_postfixType

theorem alike_joinedTypes
    {mark : String}
    {kind : Kind}
    {item : P Tree}
    (alike : ∀ {on rank moved}, Alike shift on rank moved item item (fun _ => true) shift.Wholes) :
    Alike shift on rank moved (joinedTypes mark kind item) (joinedTypes mark kind item) (fun _ => true) shift.Wholes := by
  refine .here fun places => .step (.mayEat mark) fun leads => .bind (.separated alike) fun types types' same => ?_
  have parts := Shift.Trees.of_wholes same
  cases same with
  | nil => exact .node places .nil
  | cons type later =>
      cases later with
      | nil => exact .ite (fun _ => .node places parts) fun _ => .pure type
      | cons => exact .node places parts

theorem alike_unionType :
    Alike shift on rank moved unionType unionType (fun _ => true) shift.Wholes :=
  alike_joinedTypes (alike_joinedTypes alike_operatorType)

theorem alike_anyType :
    Alike shift on rank moved anyType anyType (fun _ => true) shift.Wholes := by
  refine .step alike_startsFunctionType fun _ => .ite (fun _ => alike_functionType) fun _ => ?_
  refine .here fun places => .bind alike_unionType fun _ _ type => .getLine fun _ _ => .ite (fun _ => ?_) fun _ => .pure type
  refine .step .advance fun _ => .bind (.withFlags (.want .anyType)) fun _ _ bound => .step (.expect "?") fun _ => ?_
  refine .bind alike_freeType fun _ _ consequent => .step (.expect ":") fun _ => .bind alike_freeType fun _ _ alternate => ?_
  exact .node places (type.parts.cons (bound.parts.cons (consequent.parts.cons alternate.parts)))

end Parser

end LiveComponent
