import LiveComponent.Proofs.LayoutExpressions
import LiveComponent.Proofs.ShiftCalls
import LiveComponent.Proofs.ShiftTargets

namespace LiveComponent

/-!
# Expressions on sources that are alike from a place on
-/

namespace Parser

variable
  {shift : Shift}
  {on : State → Prop}
  {rank : Nat}
  {moved : Bool}
  {start start' : Nat}
  {tree tree' other other' : Tree}
  {state : State}

/-! ## Operators -/

theorem alike_atAwait :
    Alike shift on rank moved atAwait atAwait (fun _ => moved) Eq := by
  refine .get fun {state _} _ _ => .ite (fun isWord => .ite (fun _ => .pure rfl) fun _ => .aheadOnly ?_) fun _ => .pure rfl
  exact .step (.advanceAt (Token.ne_eof_of_isWord isWord)) fun _ => .getLine fun _ _ => .pure rfl

/-- Where the operator `await` stands, the source does not end. -/
theorem present_of_atAwait
    {goals : Goal → Step Tree}
    {awaits : Bool}
    {after : State}
    (ran : atAwait goals state = some (awaits, after))
    (found : awaits = true) :
    Present after := by
  unfold atAwait at ran
  obtain ⟨_, _, looked, ran⟩ := exists_of_bind ran
  cases looked
  split at ran
  next isWord =>
    have some : Present state := Token.ne_eof_of_isWord isWord
    split at ran
    · cases ran
      exact some
    · rw [of_ahead ran]
      exact some
  next =>
    cases ran
    cases found

theorem alike_updateFinish
    (lower : 2 < rank)
    (places : shift.Places start start') :
    Alike shift on rank moved (updateExpression.finish start) (updateExpression.finish start') (fun _ => true)
      shift.Wholes := by
  refine .bind (.wantFirst lower) fun _ _ operand => .getLine fun {after _} _ _ => ?_
  dsimp only [State.onto]
  split
  · refine .ite (fun _ => .step .advance fun _ => ?_) fun _ => .pure operand
    exact .bind (alike_assignmentTarget false operand.parts) fun _ _ target => .node places target
  · exact .pure operand

theorem alike_updateExpression
    (lower : 2 < rank) :
    Alike shift on rank moved updateExpression updateExpression (fun _ => true) shift.Wholes := by
  refine .get fun {state _} mirrors _ => ?_
  dsimp only [State.onto]
  split
  · exact .wantFirst (Nat.lt_of_succ_lt lower)
  next found =>
    refine .ite (fun _ => .step (.advanceAt (found ▸ nofun)) fun _ => .bind (.want .unary) fun _ _ operand => ?_) fun _ => ?_
    · exact .bind (alike_assignmentTarget false operand.parts) fun _ _ target => .node mirrors.start target
    · exact alike_updateFinish lower mirrors.start
  · exact alike_updateFinish lower mirrors.start

theorem alike_simpleUnary
    (lower : 2 < rank) :
    Alike shift on rank moved simpleUnary simpleUnary (fun _ => true) shift.Wholes := by
  refine .get fun {state _} mirrors _ => ?_
  dsimp only [State.onto]
  split
  next operator found =>
    have some : state.token ≠ .eof := by
      rintro ends
      rw [ends] at found
      cases found
    exact .step (.advanceAt some) fun _ => .bind (.want .simpleUnary) fun _ _ operand =>
      .node mirrors.start operand.parts
  next =>
    refine .bindAt (fun awaits state => awaits = true → Present state) alike_atAwait (fun _ ran => present_of_atAwait ran) fun awaits _ same => ?_
    subst same
    cases awaits with
    | true =>
        refine Alike.given (.faultThen rfl <| .step (.advanceFrom id) fun _ => ?_) fun present => present rfl
        exact .bind (.withFlags (.want .simpleUnary)) fun _ _ operand => .node mirrors.start operand.parts
    | false => exact alike_updateExpression lower

theorem alike_unary
    (lower : 3 < rank) :
    Alike shift on rank moved unary unary (fun _ => true) shift.Wholes := by
  refine .get fun {state _} _ _ => .step alike_atAwait fun _ => .bind (alike_simpleUnary (Nat.lt_of_succ_lt lower)) fun _ _ operand => ?_
  refine .ite (fun _ => .atMark fun _ => .step (.faultIf rfl) fun _ => .pure operand) fun _ => .pure operand

theorem markPure_parts
    (same : shift.Parts tree tree') :
    shift.Parts (markPure tree) (markPure tree') := by
  induction tree generalizing tree' with
  | node kind span children inductionHypothesis =>
      cases same with
      | absent => exact .absent .nil
      | @node _ _ span' _ children' _ _ spans parts =>
      unfold markPure
      split
      next found =>
        cases found
        exact .node spans parts .nil
      next found =>
        cases found
        exact .node spans parts .nil
      next found =>
        cases found
        obtain ⟨_, rfl, first⟩ := parts.of_one_left
        exact .node spans (inductionHypothesis _ (by simp) first) .nil
      next found =>
        cases found
        obtain ⟨_, rfl, first⟩ := parts.of_one_left
        dsimp only
        rw [← first.kind_eq]
        split
        · exact .node spans (inductionHypothesis _ (by simp) first) .nil
        · exact .node spans parts .nil
      next found =>
        cases found
        obtain ⟨_, _, rfl, first, second⟩ := parts.of_two_left
        exact .node spans ((inductionHypothesis _ (by simp) first).cons second) .nil
      next found =>
        cases found
        obtain ⟨_, _, rfl, first, second⟩ := parts.of_two_left
        exact .node spans ((inductionHypothesis _ (by simp) first).cons second) .nil
      next found =>
        cases found
        obtain ⟨_, _, _, rfl, first, second, third⟩ := parts.of_three_left
        exact .node spans ((inductionHypothesis _ (by simp) first).cons (second.cons third)) .nil
      next none₁ none₂ none₃ none₄ none₅ none₆ none₇ =>
        split
        next found =>
          cases found
          exact (none₁ _ _ _ _ rfl).elim
        next found =>
          cases found
          exact (none₂ _ _ _ rfl).elim
        next found =>
          cases found
          obtain ⟨_, rfl, _⟩ := parts.of_one_right
          exact (none₃ _ _ rfl).elim
        next found =>
          cases found
          obtain ⟨_, rfl, _⟩ := parts.of_one_right
          exact (none₄ _ _ rfl).elim
        next found =>
          cases found
          obtain ⟨_, _, rfl, _⟩ := parts.of_two_right
          exact (none₅ _ _ _ _ rfl).elim
        next found =>
          cases found
          obtain ⟨_, _, rfl, _⟩ := parts.of_two_right
          exact (none₆ _ _ _ _ rfl).elim
        next found =>
          cases found
          obtain ⟨_, _, _, rfl, _⟩ := parts.of_three_right
          exact (none₇ _ _ _ _ rfl).elim
        next => exact .node spans parts .nil

/-- What is marked covers the same parts of the sources. -/
theorem markPure_same
    (same : shift.Wholes tree tree') :
    shift.Wholes (markPure tree) (markPure tree') := by
  refine ⟨markPure_parts same.parts, ?_⟩
  rw [span_markPure, span_markPure]
  exact same.spans

theorem isPlainLogical_eq
    (same : shift.Parts tree tree') :
    isPlainLogical tree = isPlainLogical tree' := by
  unfold isPlainLogical
  rw [same.kind_eq]

theorem alike_joined
    {operator : Text}
    {level : Nat}
    (places : shift.Places start start')
    (left : shift.Wholes tree tree')
    (right : shift.Wholes other other') :
    Alike shift on rank moved (joined start operator level tree other) (joined start' operator level tree' other')
      (fun _ => moved) shift.Wholes := by
  have parts := left.parts.cons right.parts
  unfold joined
  rw [isPlainLogical_eq left.parts, isPlainLogical_eq right.parts]
  refine .ite (fun _ => .step (.faultIf rfl) fun _ => .node places parts) fun _ => ?_
  exact .ite (fun _ => .node places parts) fun _ => .node places parts

theorem alike_operations
    {level : Nat}
    (places : shift.Places start start')
    (left : shift.Wholes tree tree') :
    Alike shift on rank true (operations start level tree) (operations start' level tree') (fun _ => true)
      shift.Wholes := by
  refine .roundsBehind shift.Wholes left fun _ _ left => .rereadAngleThen <| .getBehind fun {state _} _ _ => ?_
  dsimp only [State.onto]
  split
  · exact .done left
  refine .ite (fun _ => .done left) fun _ => ?_
  split
  next found =>
    have some : state.token ≠ .eof := present_of found nofun
    refine .ite (fun _ => .ite (fun _ => .done left) fun _ => ?_) fun _ => ?_
    · refine Alike.given (.faultThen rfl <| .step (.advanceFrom id) fun _ => ?_) fun same => same ▸ some
      exact .bind alike_freeType fun _ _ type => .nodeThen places (left.parts.cons type.parts) fun _ _ whole => .again whole
    · refine .step (.advanceAt some) fun _ => .bind (.want _) fun _ _ right => ?_
      exact .bind (alike_joined places left right) fun _ _ whole => .again whole
  next found =>
    refine .step (.advanceAt (present_of found nofun)) fun _ => .bind (.want _) fun _ _ right => ?_
    exact .bind (alike_joined places left right) fun _ _ whole => .again whole
  · exact .done left

theorem alike_operation
    (lower : 4 < rank)
    (level : Nat) :
    Alike shift on rank moved (operation level) (operation level) (fun _ => true) shift.Wholes := by
  refine .get fun {state _} mirrors _ => ?_
  dsimp only [State.onto]
  split
  · refine .ite (fun _ => .bind alike_privateName fun _ _ name => .step (.expectWord "in") fun _ => ?_) fun _ => .fail
    refine .bind (.want _) fun _ _ right => .nodeThen mirrors.start (name.parts.cons right.parts) fun _ _ left => ?_
    exact alike_operations mirrors.start left
  · refine .bind (.wantFirst lower) fun _ _ operand => ?_
    refine alike_operations mirrors.start ?_
    split
    · exact markPure_same operand
    · exact operand

/-! ## Assignments -/

theorem alike_atYield :
    Alike shift on rank moved atYield atYield (fun _ => moved) Eq := by
  refine .get fun {state _} _ _ => .ite (fun isWord => .ite (fun _ => .pure rfl) fun _ => .aheadOnly ?_) fun _ => .pure rfl
  exact .step (.advanceAt (Token.ne_eof_of_isWord isWord)) fun _ => .getLine fun _ _ => .pure rfl

/-- Where the operator `yield` stands, the source does not end. -/
theorem present_of_atYield
    {goals : Goal → Step Tree}
    {yields : Bool}
    {after : State}
    (ran : atYield goals state = some (yields, after))
    (found : yields = true) :
    Present after := by
  unfold atYield at ran
  obtain ⟨_, _, looked, ran⟩ := exists_of_bind ran
  cases looked
  split at ran
  next isWord =>
    have some : Present state := Token.ne_eof_of_isWord isWord
    split at ran
    · cases ran
      exact some
    · rw [of_ahead ran]
      exact some
  next =>
    cases ran
    cases found

theorem alike_yieldExpression :
    Alike shift Present rank moved yieldExpression yieldExpression (fun _ => true) shift.Wholes := by
  refine .get fun {state _} mirrors some => ?_
  refine Alike.given (.faultThen rfl <| .step (.advanceFrom id) fun _ => .getLine fun _ _ => ?_) fun same => same ▸ some
  refine .ite (fun _ => .node mirrors.start (.absent .nil)) fun _ => .ifEat ?_ (.ite (fun _ => ?_) fun _ => ?_)
  · exact .bind (.want _) fun _ _ operand => .node mirrors.start operand.parts
  · exact .node mirrors.start (.absent .nil)
  · exact .bind (.want _) fun _ _ operand => .node mirrors.start operand.parts

theorem alike_conditionalRest
    {resultType : Bool}
    (places : shift.Places start start')
    (test : shift.Wholes tree tree') :
    Alike shift on rank true (conditionalRest start tree resultType) (conditionalRest start' tree' resultType)
      (fun _ => true) shift.Wholes := by
  refine .ifEat (.bind (.withFlags (.want _)) fun _ _ consequent => .step (.expect ":") fun _ => ?_) (.pure test)
  exact .bind (.want _) fun _ _ alternate =>
    .node places (test.parts.cons (consequent.parts.cons alternate.parts))

theorem markHarmless_parts
    (same : shift.Parts tree tree') :
    shift.Parts (markHarmless tree) (markHarmless tree') := by
  cases same with
  | absent => exact .absent .nil
  | @node kind _ _ _ _ _ _ spans inner _ => cases kind <;> exact .node spans inner .nil

theorem markHarmless_same
    (same : shift.Wholes tree tree') :
    shift.Wholes (markHarmless tree) (markHarmless tree') := by
  obtain ⟨kind, span, children⟩ := tree
  obtain ⟨_, _, rfl, parts⟩ := same.parts.of_node_left
  cases kind
  case function => exact .node same.spans parts
  case arrow => exact .node same.spans parts
  all_goals exact same

theorem alike_bareAssignment
    (lower : 5 < rank)
    (resultType : Bool) :
    Alike shift on rank moved (bareAssignment resultType) (bareAssignment resultType) (fun _ => true) shift.Wholes := by
  refine .bindAt (fun yields state => yields = true → Present state) alike_atYield (fun _ ran => present_of_atYield ran) fun yields _ same => ?_
  subst same
  cases yields with
  | true => exact alike_yieldExpression.given fun present => present rfl
  | false =>
      refine .bind (alike_arrow? resultType) fun found found' same => ?_
      cases same with
      | some tree => exact .pure tree
      | none =>
          refine .here fun places => .bind (.wantFirst lower) fun _ _ left => .get fun {state _} _ _ => ?_
          dsimp only [State.onto]
          rw [← left.parts.kind_eq]
          split
          · refine .ite (fun _ => alike_simpleArrow places left) fun _ => .ite (fun _ => ?_) fun _ => ?_
            · refine .bind (alike_assignmentTarget _ left.parts) fun _ _ target => .step .advance fun _ => ?_
              exact .bind (.want _) fun _ _ value => .node places (target.cons value.parts)
            · exact alike_conditionalRest places left
          · exact .pure left

theorem alike_assignment
    (lower : 5 < rank)
    (resultType : Bool) :
    Alike shift on rank moved (assignment resultType) (assignment resultType) (fun _ => true) shift.Wholes := by
  refine .get fun {state _} _ _ => .bind (alike_bareAssignment lower resultType) fun _ _ same => ?_
  refine .pure ?_
  change shift.Wholes (if state.notes.function = true then markHarmless _ else _)
    (if state.notes.function = true then markHarmless _ else _)
  cases state.notes.function with
  | true => exact markHarmless_same same
  | false => exact same

theorem alike_expression
    (lower : 6 < rank) :
    Alike shift on rank moved expression expression (fun _ => true) shift.Wholes := by
  refine .here fun places => .bind (.separated (.wantFirst ?_)) fun _ _ all => ?_
  · unfold roundRank
    split
    · exact Nat.le_of_ble_eq_true rfl
    · exact lower
  · have parts := Shift.Trees.of_wholes all
    cases all with
    | nil => exact .node places .nil
    | cons single later =>
        cases later with
        | nil => exact .pure single
        | cons => exact .node places parts

end Parser

end LiveComponent
