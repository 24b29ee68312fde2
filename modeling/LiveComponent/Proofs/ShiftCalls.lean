import LiveComponent.Proofs.ShiftFunctions
import LiveComponent.Script.Parser.Expression

namespace LiveComponent

/-!
# Literals, arrow functions and calls on sources that are alike from a place on
-/

namespace Parser

variable
  {shift : Shift}
  {on : State → Prop}
  {rank : Nat}
  {moved : Bool}
  {start start' : Nat}
  {tree tree' : Tree}
  {state : State}

/-! ## Literals with parts -/

theorem alike_templateLiteral
    (tagged : Bool) :
    Alike shift on rank moved (templateLiteral tagged) (templateLiteral tagged) (fun _ => true) shift.Wholes := by
  refine .get fun {state _} mirrors _ => ?_
  dsimp only [State.onto]
  split
  next raw complete valid found =>
    have some : state.token ≠ .eof := found ▸ nofun
    refine Alike.given (.faultThen rfl <| .step (.advanceFrom id) fun _ => .ite (fun _ => ?_) fun _ => ?_) fun same => same ▸ some
    · exact .node mirrors.start .nil
    refine .roundsBehind (fun held held' => held.1 = held'.1 ∧ shift.Trees held.2 held'.2) ⟨rfl, .nil⟩
      fun ⟨quasis, values⟩ ⟨quasis', values'⟩ ⟨same, held⟩ => ?_
    obtain rfl : quasis = quasis' := same
    refine .bind (.withFlags (.wantFirst (Nat.le_of_ble_eq_true rfl))) fun _ _ value => .closing fun _ => .get fun {after _} _ _ => ?_
    dsimp only [State.onto]
    split
    next =>
      have more := value.parts.cons held
      refine .step (.faultIf rfl) fun _ => .step .advance fun _ => .ite (fun _ => ?_) fun _ => .again ⟨rfl, more⟩
      exact .nodeThen mirrors.start more.reverse fun _ _ whole => .done whole
    next => exact .fail
  next => exact .fail

theorem alike_regexLiteral :
    Alike shift Present rank moved regexLiteral regexLiteral (fun _ => true) shift.Wholes := by
  refine .get fun {state _} mirrors some => ?_
  dsimp only [State.onto]
  split
  next pattern flags found =>
    refine Alike.given (.rereadThen (Nat.succ_pos _) nofun <| .step (.advanceFrom id) fun _ => ?_) fun same => same ▸ some
    exact .node mirrors.start .nil
  next => exact .fail

theorem alike_spreadElement :
    Alike shift on rank moved spreadElement spreadElement (fun _ => true) shift.Wholes :=
  .here fun places => .step (.expect "...") fun _ => .bind (.want _) fun _ _ expression =>
    .node places expression.parts

theorem alike_argument
    (lower : 6 < rank) :
    Alike shift on rank moved argument argument (fun _ => true) shift.Wholes :=
  .atMark fun _ => .ite (fun _ => alike_spreadElement) fun _ => .wantFirst lower

theorem alike_argumentList :
    Alike shift on rank moved argumentList argumentList (fun _ => true) shift.Trees := by
  refine .step (.expect "(") fun _ => .bind (.withFlags (.commaList (.part (alike_argument (Nat.le_of_ble_eq_true rfl))))) ?_
  exact fun ⟨all, _⟩ ⟨all', _⟩ ⟨same, _⟩ => .step (.expect ")") fun _ => .pure same

theorem alike_noteComma
    {trailing : Bool}
    (places : shift.Places start start') :
    Alike shift on rank moved (noteComma start trailing) (noteComma start' trailing) (fun _ => moved) Eq :=
  .modify false fun {_ stand} mirrors _ => by
    cases trailing with
    | true =>
        exact ⟨{ stand with commas := start' :: stand.commas }, rfl,
          { mirrors with commas := .cons places mirrors.commas }, Nat.le_refl _⟩
    | false => exact ⟨stand, rfl, mirrors, Nat.le_refl _⟩

theorem alike_arrayLiteral :
    Alike shift on rank moved arrayLiteral arrayLiteral (fun _ => true) shift.Wholes := by
  refine .here fun places => .step (.expect "[") fun _ => .bind (.withFlags (.commaList (.atMark fun _ => ?_))) ?_
  · refine .ite (fun _ => .here fun place => .pure (.node ⟨place, place.ends⟩ .nil .nil)) fun _ => ?_
    exact .part (alike_argument (Nat.le_of_ble_eq_true rfl))
  · intro ⟨elements, trailing⟩ ⟨elements', _⟩ ⟨same, ends⟩
    obtain rfl : trailing = _ := ends
    exact .step (alike_noteComma places) fun _ => .step (.expect "]") fun _ => .node places same

theorem alike_objectProperty :
    Alike shift on rank moved objectProperty objectProperty (fun _ => true) shift.Wholes := by
  refine .here fun places => .step alike_modifiers fun found => .step (.faultIf rfl) fun _ => .step alike_accessorRole? fun role => ?_
  cases role with
  | some role =>
      refine .step (.faultIf rfl) fun _ => .bind alike_propertyKey fun ⟨key, computed⟩ ⟨key', _⟩ ⟨keys, same⟩ => ?_
      obtain rfl : computed = _ := same
      exact .bind alike_methodFunction fun _ _ function => .node places (keys.parts.cons function.parts)
  | none =>
      refine .step (.mayEat "*") fun isGenerator => .get fun {state _} _ _ => ?_
      refine .bind alike_propertyKey fun ⟨key, computed⟩ ⟨key', _⟩ ⟨keys, same⟩ => ?_
      obtain rfl : computed = _ := same
      dsimp only [State.onto]
      rw [← keys.parts.kind_eq]
      refine .step (.faultIf rfl) fun _ => .atOneOf fun _ => .ite (fun _ => ?_) fun _ => .ite (fun _ => .fail) fun _ => ?_
      · exact .bind alike_methodFunction fun _ _ function => .node places (keys.parts.cons function.parts)
      · refine .atMark fun _ => ?_
        generalize (_ && !_) = isPlain
        dsimp only at keys
        split
        next =>
          obtain ⟨span', _, rfl, _⟩ := keys.parts.of_node_left
          have value {text : Text} : shift.Parts (.node (.identifier text) _ []) (.node (.identifier text) span' []) :=
            .node keys.spans .nil .nil
          refine .ifEat (.bind (.withFlags (.want _)) fun _ _ default => .step (.modify false fun {_ stand} mirrors _ => ?_) fun _ => ?_) ?_
          · exact ⟨{ stand with pending := _ :: stand.pending }, rfl,
              { mirrors with pending := .cons places mirrors.pending }, Nat.le_refl _⟩
          · exact .node places (keys.parts.cons (value.cons default.parts))
          · exact .node places (keys.parts.cons value)
        next none =>
          split
          next =>
            obtain ⟨_, _, rfl, _⟩ := keys.parts.of_node_right
            exact (none _ _ _ rfl rfl).elim
          next =>
            exact .step (.expect ":") fun _ => .bind (.want _) fun _ _ value =>
              .node places (keys.parts.cons value.parts)

theorem alike_objectLiteral :
    Alike shift on rank moved objectLiteral objectLiteral (fun _ => true) shift.Wholes := by
  refine .here fun places => .step (.expect "\x7b") fun _ => .bind (.withFlags (.commaList (.atMark fun _ => ?_))) ?_
  · exact .ite (fun _ => .part alike_spreadElement) fun _ => .part alike_objectProperty
  · exact fun ⟨all, _⟩ ⟨all', _⟩ ⟨same, _⟩ => .step (.expect "\x7d") fun _ => .node places same

theorem alike_parenthesized :
    Alike shift on rank moved parenthesized parenthesized (fun _ => true) shift.Wholes :=
  .here fun places => .step (.expect "(") fun _ => .bind (.withFlags (.want .expression)) fun _ _ expression =>
    .step (.expect ")") fun _ => .node places expression.parts

/-! ## Arrow functions -/

theorem alike_guessArrow :
    Alike shift on rank moved guessArrow guessArrow (fun _ => moved) Eq := by
  refine .ifEat (.get fun {second _} _ _ => .ite (fun _ => ?_) fun _ => .ite (fun _ => .pure rfl) fun _ => ?_) ?_
  · refine .step .advance fun _ => .atMark fun _ => .ite (fun _ => .pure rfl) fun _ => ?_
    exact .atOneOf fun _ => .pure rfl
  · refine .ite (fun _ => .step .advance fun _ => .get fun _ _ => .pure rfl) fun _ => .step .advance fun _ => .get fun _ _ => ?_
    refine .ite (fun _ => .pure rfl) fun _ => .ite (fun _ => .pure rfl) fun _ => .ite (fun _ => .pure rfl) fun _ => ?_
    refine .ite (fun _ => .step .advance fun _ => .atOneOf fun _ => .pure rfl) fun _ => .atOneOf fun _ => .pure rfl
  · refine .step (.expect "<") fun _ => .step (.mayEatWord _) fun _ => .get fun _ _ => .ite (fun _ => ?_) fun _ => .pure rfl
    refine .step .advance fun _ => .ifEatWord ?_ ?_
    · exact .atOneOf fun _ => .pure rfl
    · exact .atOneOf fun _ => .pure rfl

theorem alike_arrowAhead :
    Alike shift on rank moved arrowAhead arrowAhead (fun _ => moved) Eq := by
  refine .atOneOf fun _ => .ite (fun _ => .probeOnly _ alike_guessArrow.loosely) fun _ => .atWord fun _ => ?_
  refine .ite (fun isWord => .probeOnly _ <| .step (.advanceAt (Token.ne_eof_of_isWord isWord)) fun _ => ?_) fun _ => .pure rfl
  refine .getLine fun _ _ => .ite (fun _ => .pure rfl) fun _ => .atOneOf fun _ => ?_
  exact .ite (fun _ => alike_guessArrow.loosely) fun _ => .pure rfl

/-- Arrow functions are the same up to their arrows. -/
structure HeadsSame (shift : Shift) (head head' : ArrowHead) : Prop where
  start : shift.Places head.start head'.start
  isAsync : head.isAsync = head'.isAsync
  parts : shift.Trees head.parts head'.parts

theorem alike_expectArrow :
    Alike shift on rank true expectArrow expectArrow (fun _ => true) Eq :=
  .getLine fun _ _ => .step (.faultIf rfl) fun _ => .expect "=>"

theorem alike_arrowHead :
    Alike shift on rank moved arrowHead arrowHead (fun _ => true) (HeadsSame shift) := by
  refine .here fun places => .step (.mayEatWord _) fun _ => .bind (.withFlags alike_signature) fun _ _ parts => ?_
  exact .step alike_expectArrow fun _ => .pure ⟨places, rfl, parts⟩

theorem alike_arrowBody
    {head head' : ArrowHead}
    (resultType : Bool)
    (same : HeadsSame shift head head') :
    Alike shift on rank true (arrowBody head resultType) (arrowBody head' resultType) (fun _ => true) shift.Wholes := by
  obtain ⟨start, isAsync, parts⟩ := head
  obtain ⟨start', _, parts'⟩ := head'
  obtain ⟨places, rfl, same⟩ := same
  unfold arrowBody
  refine .withFlags (.atMark fun _ => .ite (fun _ => ?_) fun _ => ?_)
  · exact .bind (.want .functionBody) fun _ _ body => .node places (same.append body.parts)
  · refine .bind (.want _) fun _ _ value => .node places (same.append ?_)
    exact .node value.spans (.node value.spans value.parts .nil) .nil

theorem statesResult_eq
    {head head' : ArrowHead}
    (same : HeadsSame shift head head') :
    head.statesResult = head'.statesResult := by
  obtain ⟨start, isAsync, parts⟩ := head
  obtain ⟨start', _, parts'⟩ := head'
  obtain ⟨_, _, same⟩ := same
  dsimp only at same
  unfold ArrowHead.statesResult
  split
  next found =>
    cases found
    obtain ⟨_, _, _, rfl, _, _, result⟩ := same.of_three_left
    exact congrArg _ result.isAbsent_eq
  next none =>
    split
    next found =>
      cases found
      obtain ⟨_, _, _, rfl, _⟩ := same.of_three_right
      exact (none _ _ _ rfl).elim
    next => rfl

theorem alike_possibleArrow
    (resultType : Bool) :
    Alike shift on rank moved (possibleArrow resultType) (possibleArrow resultType) (fun found => found.isSome || moved)
      (Option.Rel shift.Wholes) where
  run {limit} small {goals others} agree {state stand} mirrors held size_le := by
    have heads := alike_arrowHead.run small agree mirrors held size_le
    unfold possibleArrow
    generalize arrowHead goals state = result at heads
    generalize arrowHead others (state.onto stand) = result' at heads
    cases heads with
    | none => exact .some .none mirrors size_le
    | @some head head' after stand' same mirrors' size_le' =>
        have body : Alike shift (fun _ => True) rank true (arrowBody head resultType) (arrowBody head' resultType)
            (fun _ => true) shift.Wholes := alike_arrowBody resultType same
        have bodies := body.run small agree mirrors' trivial size_le'
        dsimp only
        generalize arrowBody head resultType goals after = result at bodies
        generalize arrowBody head' resultType others (after.onto stand') = result' at bodies
        cases bodies with
        | none => exact .none
        | @some tree tree' last stand'' same' mirrors'' size_le'' =>
            dsimp only [State.onto]
            rw [statesResult_eq same]
            split
            · exact .some .none mirrors size_le
            · exact .some (.some same') mirrors'' size_le''

theorem alike_simpleArrow
    {isAsync resultType : Bool}
    (places : shift.Places start start')
    (names : shift.Wholes tree tree') :
    Alike shift on rank true (simpleArrow start isAsync tree resultType) (simpleArrow start' isAsync tree' resultType)
      (fun _ => true) shift.Wholes := by
  unfold simpleArrow
  split
  next =>
    obtain ⟨_, _, rfl, _⟩ := names.parts.of_node_left
    have pattern {text : Text} : shift.Trees [.node (.binding text) _ []] [.node (.binding text) _ []] := .node names.spans .nil .nil
    refine .step alike_expectArrow fun _ => alike_arrowBody resultType ⟨places, rfl, ?_⟩
    exact .absent (.node names.spans (.node names.spans (.absent (pattern.append (.absent (.absent .nil)))) .nil) (.absent .nil))
  next none =>
    split
    next =>
      obtain ⟨_, _, rfl, _⟩ := names.parts.of_node_right
      exact (none _ _ _ rfl).elim
    next => exact .fail

theorem alike_atAsyncArrow :
    Alike shift on rank moved atAsyncArrow atAsyncArrow (fun _ => moved) Eq := by
  refine .atWord fun _ => .ite (fun isWord => .aheadOnly <| .step (.advanceAt (Token.ne_eof_of_isWord isWord)) fun _ => ?_) fun _ => .pure rfl
  refine .getLine fun _ _ => .ite (fun _ => .pure rfl) fun _ => .step .advanceName fun _ => .get fun _ _ => .pure rfl

theorem alike_arrow?
    (resultType : Bool) :
    Alike shift on rank moved (arrow? resultType) (arrow? resultType) (fun found => found.isSome || moved)
      (Option.Rel shift.Wholes) := by
  refine .step alike_arrowAhead fun guess => ?_
  cases guess with
  | yes => exact .bind alike_arrowHead fun _ _ head => .bind (alike_arrowBody _ head) fun _ _ tree => .pure (.some tree)
  | maybe => exact alike_possibleArrow resultType
  | no =>
      refine .step alike_atAsyncArrow fun _ => .ite (fun _ => .here fun places => ?_) fun _ => .pure .none
      refine .step .advance fun _ => .bind alike_identifier fun _ _ name => ?_
      exact .bind (alike_simpleArrow places name) fun _ _ tree => .pure (.some tree)

/-! ## Calls and members -/

theorem alike_startsExpression :
    Alike shift on rank moved startsExpression startsExpression (fun _ => moved) Eq := by
  refine .get fun {state _} _ _ => .choice moved (fun _ => .aheadOnly ?_) (fun _ => .pure rfl) fun _ _ same => ?_
  · exact .step .advance fun _ => .get fun _ _ => .pure rfl
  · subst same
    exact .pure rfl

theorem alike_expressionTypeArguments :
    Alike shift on rank moved expressionTypeArguments expressionTypeArguments (fun _ => true) shift.Wholes := by
  refine .step .rereadOpenAngle fun _ => .here fun places => .step (.expect "<") fun _ => ?_
  refine .bindAt (fun _ state => state.token.isMark ">" = true) (.commaList (.part (alike_freeTypeFirst (Nat.succ_pos _)))) (fun _ ran => commaList_leads ran) ?_
  intro ⟨all, _⟩ ⟨all', _⟩ ⟨same, _⟩
  refine .bindAt (fun _ => Present) .rereadAngle (fun isMark ran => present_of_rereadAngle isMark ran) fun _ _ _ => .atMark fun some => ?_
  extract_lets rest
  have goesOn {tree tree' : Tree} (arguments : shift.Wholes tree tree') :
      Alike shift (fun _ => True) rank true (rest tree) (rest tree') (fun _ => true) shift.Wholes := by
    refine .getLine fun _ _ => .ite (fun _ => .pure arguments) fun _ => .ite (fun _ => .fail) fun _ => ?_
    exact .step alike_startsExpression fun _ => .ite (fun _ => .pure arguments) fun _ => .fail
  clear_value rest
  refine .ite (fun _ => .failing) fun _ => .given (.rereadThen Nat.one_pos nofun <| .step .advance fun _ => ?_) fun same => same ▸ some
  exact .step (.faultIf same.isEmpty_eq) fun _ => .nodeThen places same fun _ _ arguments => goesOn arguments

theorem alike_memberName :
    Alike shift on rank moved memberName memberName (fun _ => true) shift.Wholes := by
  refine .get fun {state _} _ _ => ?_
  dsimp only [State.onto]
  split
  · exact alike_privateName
  · exact alike_propertyWord

/-- The expressions are the same, and so is whether they have an optional link. -/
abbrev LinkedSame (shift : Shift) (found found' : Tree × Bool) : Prop :=
  shift.Wholes found.1 found'.1 ∧ found.2 = found'.2

theorem alike_suffix
    {isNew linked : Bool}
    (places : shift.Places start start')
    (same : shift.Wholes tree tree') :
    Alike shift (Behind shift) 16 false (suffix start isNew tree linked) (suffix start' isNew tree' linked)
      (turnClaim fun _ => false) (TurnsRelated (LinkedSame shift) (LinkedSame shift)) := by
  have parts := splitArguments_same same
  refine .getBehind fun {state _} _ _ => ?_
  dsimp only [State.onto]
  split
  next found =>
    refine .ite (fun _ => .fail) fun _ => .step (.advanceAt (found ▸ nofun)) fun _ => .get fun {after _} _ _ => ?_
    refine .ite (fun isMark => ?_) fun _ => .ite (fun _ => ?_) fun _ => ?_
    · refine .step .advance fun _ => .bind (.withFlags (.want .expression)) fun _ _ index => .step (.expect "]") fun _ => ?_
      exact .nodeThen places (same.parts.cons index.parts) fun _ _ whole => .again ⟨whole, rfl⟩
    · refine .choice true (fun _ => .pure (.absent .nil)) (fun _ => .part alike_expressionTypeArguments) fun _ _ arguments => ?_
      refine .bind alike_argumentList fun _ _ all => ?_
      exact .nodeThen places (same.parts.cons (arguments.cons all)) fun _ _ whole => .again ⟨whole, rfl⟩
    · refine .bind alike_memberName fun _ _ name => ?_
      exact .nodeThen places (same.parts.cons name.parts) fun _ _ whole => .again ⟨whole, rfl⟩
  next found =>
    refine .step (.advanceAt (found ▸ nofun)) fun _ => .bind alike_memberName fun _ _ name => ?_
    exact .nodeThen places (same.parts.cons name.parts) fun _ _ whole => .again ⟨whole, rfl⟩
  next found =>
    refine .ite (fun _ => .done ⟨same, rfl⟩) fun _ => .step (.advanceAt (found ▸ nofun)) fun _ => ?_
    refine .bind (.withFlags (.want .expression)) fun _ _ index => .step (.expect "]") fun _ => ?_
    exact .nodeThen places (same.parts.cons index.parts) fun _ _ whole => .again ⟨whole, rfl⟩
  next found =>
    refine .step (.faultIf rfl) fun _ => .bind (alike_templateLiteral true) fun _ _ text => ?_
    exact .nodeThen places (parts.1.cons (parts.2.cons text.parts)) fun _ _ whole => .again ⟨whole, rfl⟩
  next found =>
    refine .ite (fun _ => .done ⟨same, rfl⟩) fun _ => .bind alike_argumentList fun _ _ all => ?_
    exact .nodeThen places (parts.1.cons (parts.2.cons all)) fun _ _ whole => .again ⟨whole, rfl⟩
  next found =>
    refine .ite (fun _ => .step (.advanceAt (found ▸ nofun)) fun _ => ?_) fun _ => .ite (fun _ => ?_) fun _ => .done ⟨same, rfl⟩
    · exact .nodeThen places same.parts fun _ _ whole => .again ⟨whole, rfl⟩
    · refine .bind (.attempt alike_expressionTypeArguments) fun _ _ found => ?_
      cases found with
      | some arguments =>
          exact .nodeThen places (same.parts.cons arguments.parts) fun _ _ whole => .again ⟨whole, rfl⟩
      | none => exact .done ⟨same, rfl⟩
  next => exact .done ⟨same, rfl⟩

theorem alike_suffixes
    {isNew : Bool}
    (places : shift.Places start start')
    (same : shift.Wholes tree tree') :
    Alike shift on rank true (suffixes start isNew tree) (suffixes start' isNew tree') (fun _ => true) shift.Wholes := by
  have linked : Alike shift on rank true
      (rounds (fun chain => suffix start isNew chain.1 chain.2) (tree, false))
      (rounds (fun chain => suffix start' isNew chain.1 chain.2) (tree', false)) (fun _ => true)
      (LinkedSame shift) := by
    refine .roundsBehind (LinkedSame shift) ⟨same, rfl⟩ ?_
    rintro ⟨expression, linked⟩ ⟨expression', _⟩ ⟨same, links⟩
    obtain rfl : linked = _ := links
    exact alike_suffix places same
  refine .bind linked ?_
  rintro ⟨expression, linked⟩ ⟨expression', _⟩ ⟨same, links⟩
  obtain rfl : linked = _ := links
  refine .ite (fun _ => ?_) fun _ => .pure same
  dsimp only at same
  split
  next =>
    obtain ⟨_, _, rfl, inner⟩ := same.parts.of_node_left
    obtain ⟨_, _, rfl, expression, arguments⟩ := inner.of_two_left
    have chain : shift.Parts (.node .chain _ [_]) (.node .chain _ [_]) := .node same.spans expression .nil
    exact .pure (.node same.spans (chain.cons arguments))
  next none =>
    split
    next =>
      obtain ⟨_, _, rfl, inner⟩ := same.parts.of_node_right
      obtain ⟨_, _, rfl, _⟩ := inner.of_two_right
      exact (none _ _ _ rfl).elim
    next => exact .node places same.parts

/-! ## Primary expressions -/

theorem alike_newExpression :
    Alike shift on rank moved newExpression newExpression (fun _ => true) shift.Wholes := by
  refine .here fun places => .step (.expectWord "new") fun _ => .ifEat ?_ ?_
  · exact .step (.expectWord "target") fun _ => .node places .nil
  · refine .bind (.want .constructed) fun _ _ callee => ?_
    have ⟨callee, arguments⟩ := splitArguments_same callee
    dsimp only
    rw [callee.kind_eq]
    refine .step (.faultIf rfl) fun _ => .atMark fun _ => ?_
    refine .choice true (fun _ => alike_argumentList) (fun _ => .pure .nil) fun _ _ all => ?_
    exact .node places (callee.cons (arguments.cons all))

theorem alike_importArguments
    {phase : Text}
    (places : shift.Places start start') :
    Alike shift on rank moved (importArguments start phase) (importArguments start' phase) (fun _ => true)
      shift.Wholes := by
  refine .step (.expect "(") fun _ => .bind (.withFlags (.want _)) fun _ _ source => .step (.mayEat ",") fun _ => ?_
  extract_lets rest rest'
  have goesOn {options options' : Tree} (options : shift.Parts options options') :
      Alike shift (fun _ => True) rank true (rest _) (rest' _) (fun _ => true) shift.Wholes :=
    .step (.expect ")") fun _ => .node places (source.parts.cons options)
  clear_value rest rest'
  have absent : Alike shift (fun _ => True) rank true (rest .absent) (rest' .absent) (fun _ => true) shift.Wholes :=
    goesOn (.absent .nil)
  refine .ite (fun _ => .atMark fun _ => .ite (fun _ => .anywhere (.passing absent)) fun _ => ?_) fun _ => .passing absent
  exact .bind (.withFlags (.want _)) fun _ _ options => .step (.mayEat ",") fun _ => .passing (goesOn options.parts)

theorem alike_importExpression :
    Alike shift on rank moved importExpression importExpression (fun _ => true) shift.Wholes := by
  refine .here fun places => .step (.expectWord "import") fun _ => .ifEat ?_ (alike_importArguments places)
  refine .step alike_takeWord fun _ => .ite (fun _ => .node places .nil) fun _ => ?_
  exact .ite (fun _ => alike_importArguments places) fun _ => .fail

theorem alike_wordExpression
    (text : Text) :
    Alike shift Present rank moved (wordExpression text) (wordExpression text) (fun _ => true) shift.Wholes := by
  refine .here fun places => .ite (fun _ => .step (.advanceFrom id) fun _ => .node places .nil) fun _ => ?_
  refine .ite (fun _ => alike_functionLike places) fun _ => .ite (fun _ => alike_classLike (.absent .nil) places) fun _ => ?_
  refine .ite (fun _ => alike_newExpression) fun _ => .ite (fun _ => ?_) fun _ => .ite (fun _ => alike_importExpression) fun _ => ?_
  · exact .step (.advanceFrom id) fun _ => .atOneOf fun _ => .step (.faultIf rfl) fun _ => .node places .nil
  · refine .ite (fun _ => alike_literal) fun _ => .step alike_atAsyncFunction fun _ => .ite (fun _ => ?_) fun _ => ?_
    · exact .step .advance fun _ => alike_functionLike places
    · exact alike_identifier

theorem alike_primary
    (lower : 1 < rank) :
    Alike shift on rank moved primary primary (fun _ => true) shift.Wholes := by
  refine .get fun {state _} mirrors _ => ?_
  dsimp only [State.onto]
  split
  next found => exact (alike_wordExpression _).given fun same => same ▸ present_of found nofun
  · exact alike_literal
  · exact alike_literal
  · exact alike_literal
  · exact alike_templateLiteral false
  · exact alike_arrayLiteral
  · exact alike_objectLiteral
  · exact alike_parenthesized
  next found => exact alike_regexLiteral.given fun same => same ▸ present_of found nofun
  next found => exact alike_regexLiteral.given fun same => same ▸ present_of found nofun
  · exact .wantFirst lower
  · exact .bind alike_decorators fun _ _ decorated => alike_classLike decorated mirrors.start
  · exact .fail

theorem alike_leftHand
    (lower : 1 < rank) :
    Alike shift on rank moved leftHand leftHand (fun _ => true) shift.Wholes :=
  .here fun places => .bind (alike_primary lower) fun _ _ head => alike_suffixes places head

theorem alike_constructed
    (lower : 1 < rank) :
    Alike shift on rank moved constructed constructed (fun _ => true) shift.Wholes :=
  .here fun places => .bind (alike_primary lower) fun _ _ head => alike_suffixes places head

end Parser

end LiveComponent
