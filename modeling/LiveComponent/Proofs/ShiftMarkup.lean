import LiveComponent.Proofs.ShiftExpressions
import LiveComponent.Script.Parser.Markup

namespace LiveComponent

/-!
# Markup on sources that are alike from a place on
-/

namespace Parser

variable
  {shift : Shift}
  {on : State → Prop}
  {rank : Nat}
  {moved : Bool}
  {start start' : Nat}
  {tree tree' : Tree}
  {state : State}

/-! ## Names -/

theorem alike_expectMarkup
    (text : String)
    (inChildren : Bool) :
    Alike shift on rank moved (expectMarkup text inChildren) (expectMarkup text inChildren) (fun _ => true) Eq := by
  refine .atMark fun _ => .ite (fun isMark => ?_) fun _ => .fail
  have some := Token.ne_eof_of_isMark isMark
  exact .ite (fun _ => .advanceMarkupAt some) fun _ => .advanceAt some

/-- The current token is made longer. -/
theorem Mirrors.lengthen
    {stand : Stand}
    (mirrors : Mirrors shift state stand)
    (size : Nat) :
    Mirrors shift { state with stop := state.stop + size, rest := state.rest.drop size }
      { stand with stop := stand.stop + size } :=
  have shorter : (state.rest.drop size).length ≤ state.rest.length := by
    rw [List.length_drop]
    exact Nat.sub_le _ _
  { mirrors with
    stop := mirrors.stop.add _
    rest_le := Nat.le_trans shorter mirrors.rest_le
    rest_lt := fun some => Nat.lt_of_le_of_lt shorter (mirrors.rest_lt some) }

theorem alike_tagWord :
    Alike shift on rank moved tagWord tagWord (fun _ => true) Eq := by
  refine .get fun {state _} _ _ => ?_
  dsimp only [State.onto]
  split
  next found =>
    refine .bindAt (fun _ => Present) (.modify false fun {_ stand} mirrors _ => ?_) (fun same ran => ?_) fun _ _ _ => ?_
    · exact ⟨{ stand with stop := stand.stop + _ }, rfl, mirrors.lengthen _, Nat.le_refl _⟩
    · obtain rfl := congrArg Prod.snd (Option.some.inj ran)
      subst same
      exact fun ends => Token.noConfusion (found.symm.trans ends)
    · exact .step (.advanceNameFrom id) fun _ => .pure rfl
  next => exact .fail

theorem alike_tagName :
    Alike shift on rank moved tagName tagName (fun _ => true) shift.Wholes :=
  .here fun places => .step alike_tagWord fun _ => .node places .nil

theorem alike_elementName :
    Alike shift on rank moved elementName elementName (fun _ => true) shift.Wholes := by
  refine .get fun {state _} mirrors _ => .step alike_tagWord fun text => ?_
  refine .nodeThen mirrors.start .nil fun _ _ name => .nodeThen mirrors.start .nil fun _ _ reference => ?_
  refine .ifEat (.bind alike_tagName fun _ _ inner => .node mirrors.start (name.parts.cons inner.parts)) ?_
  refine .atMark fun _ => .ite (fun _ => .step (.faultIf rfl) fun _ => ?_) fun _ => .ite (fun _ => .pure reference) fun _ => .pure name
  refine .roundsBehind shift.Wholes reference fun _ _ left => .ifEat ?_ (.done left)
  refine .here fun places => .step alike_tagWord fun _ => .step (.faultIf rfl) fun _ => .nodeThen places .nil fun _ _ name => ?_
  exact .nodeThen mirrors.start (left.parts.cons name.parts) fun _ _ whole => .again whole

theorem nameParts_eq
    (same : shift.Parts tree tree') :
    nameParts tree = nameParts tree' := by
  induction tree generalizing tree' with
  | node kind span children inductionHypothesis =>
      obtain ⟨_, _, rfl, parts⟩ := same.of_node_left
      unfold nameParts
      split
      next found =>
        cases found
        rfl
      next found =>
        cases found
        rfl
      next found =>
        cases found
        rfl
      next found =>
        cases found
        rfl
      next found =>
        cases found
        obtain ⟨_, _, rfl, first, second⟩ := parts.of_two_left
        rw [inductionHypothesis _ (by simp) first, inductionHypothesis _ (by simp) second]
      next found =>
        cases found
        obtain ⟨_, _, rfl, first, second⟩ := parts.of_two_left
        rw [inductionHypothesis _ (by simp) first, inductionHypothesis _ (by simp) second]
      next none₁ none₂ none₃ none₄ none₅ none₆ =>
        split
        next found =>
          cases found
          exact (none₁ _ _ _ rfl).elim
        next found =>
          cases found
          exact (none₂ _ _ _ rfl).elim
        next found =>
          cases found
          exact (none₃ _ _ _ rfl).elim
        next found =>
          cases found
          exact (none₄ _ _ rfl).elim
        next found =>
          cases found
          obtain ⟨_, _, rfl, _⟩ := parts.of_two_right
          exact (none₅ _ _ _ rfl).elim
        next found =>
          cases found
          obtain ⟨_, _, rfl, _⟩ := parts.of_two_right
          exact (none₆ _ _ _ rfl).elim
        next => rfl

/-! ## Attributes -/

theorem alike_attributeName :
    Alike shift on rank moved attributeName attributeName (fun _ => true) shift.Wholes := by
  refine .here fun places => .bind alike_tagName fun _ _ name => .ifEat ?_ (.pure name)
  exact .bind alike_tagName fun _ _ inner => .node places (name.parts.cons inner.parts)

theorem alike_attributeContainer :
    Alike shift on rank moved attributeContainer attributeContainer (fun _ => true) shift.Wholes := by
  refine .here fun places => .step (.expect "\x7b") fun _ => .ifEat ?_ ?_
  · exact .step .fault fun _ => .node places (.absent .nil)
  · exact .bind (.want .expression) fun _ _ expression => .step (.expect "\x7d") fun _ => .node places expression.parts

theorem alike_tagAttribute :
    Alike shift on rank moved tagAttribute tagAttribute (fun _ => true) shift.Wholes := by
  refine .here fun places => .ifEat ?_ ?_
  · exact .step (.expect "...") fun _ => .bind (.want .expression) fun _ _ expression => .step (.expect "\x7d") fun _ =>
      .node places expression.parts
  · refine .bind alike_attributeName fun _ _ name => .atMark fun _ => .ite (fun _ => ?_) fun _ => ?_
    · refine .step .advanceToValue fun _ => .get fun {state _} _ _ => ?_
      refine .ite (fun _ => .bind alike_stringLiteral fun _ _ value => ?_) fun _ =>
        .ite (fun _ => .bind alike_attributeContainer fun _ _ value => ?_) fun _ =>
          .ite (fun _ => .bind (.want (.markup false)) fun _ _ value => ?_) fun _ => .failing
      all_goals exact .node places (name.parts.cons value.parts)
    · exact .node places (name.parts.cons (.absent .nil))

/-! ## Elements -/

theorem alike_child
    (lower : 1 < rank) :
    Alike shift on rank moved child child (fun _ => true) shift.Wholes := by
  refine .get fun {state _} mirrors _ => ?_
  dsimp only [State.onto]
  split
  next found => exact .step (.advanceMarkupAt (present_of found nofun)) fun _ => .node mirrors.start .nil
  next => exact .wantFirst lower
  next found =>
    refine .step (.advanceAt (present_of found nofun)) fun _ => .atMark fun _ => .ite (fun _ => ?_) fun _ => .ifEat ?_ ?_
    · exact .step .advanceMarkup fun _ => .node mirrors.start (.absent .nil)
    · exact .bind (.want .expression) fun _ _ expression => .step (alike_expectMarkup _ _) fun _ =>
        .node mirrors.start expression.parts
    · exact .bind (.want .expression) fun _ _ expression => .step (alike_expectMarkup _ _) fun _ =>
        .node mirrors.start expression.parts
  next => exact .fail

theorem alike_opensClosingTag :
    Alike shift on rank moved opensClosingTag opensClosingTag (fun _ => moved) Eq :=
  .atMark fun _ => .ite (fun _ => .aheadOnly <| .step .advance fun _ => .get fun _ _ => .pure rfl) fun _ => .pure rfl

theorem alike_childList :
    Alike shift on rank true childList childList (fun _ => true) shift.Trees :=
  .manyUntil alike_opensClosingTag (.part (alike_child (Nat.le_of_ble_eq_true rfl)))

theorem alike_fragment
    {inChildren : Bool}
    (places : shift.Places start start') :
    Alike shift on rank true (fragment start inChildren) (fragment start' inChildren) (fun _ => true) shift.Wholes := by
  refine .step (alike_expectMarkup _ _) fun _ => .bind alike_childList fun _ _ children => .step .advance fun _ => ?_
  exact .step (.expect "/") fun _ => .step (alike_expectMarkup _ _) fun _ => .node places children

theorem alike_element
    {inChildren : Bool}
    (places : shift.Places start start') :
    Alike shift on rank true (element start inChildren) (element start' inChildren) (fun _ => true) shift.Wholes := by
  refine .bind alike_elementName fun _ _ name => .get fun {state _} _ _ => ?_
  refine .choice true (fun _ => alike_typeArguments) (fun _ => .pure (.absent .nil)) fun _ _ arguments => ?_
  refine .bind (.manyUntil (.get fun _ _ => .pure rfl) (.part alike_tagAttribute)) fun _ _ attributes => ?_
  rw [attributes.length_eq]
  have front := (name.parts.cons arguments).append attributes
  refine .ifEat (.step (alike_expectMarkup _ _) fun _ => .node places (front.append (.absent .nil))) ?_
  refine .step (alike_expectMarkup _ _) fun _ => .bind alike_childList fun _ _ children => .step .advance fun _ => ?_
  refine .step (.expect "/") fun _ => .bind alike_elementName fun _ _ closing => .step (alike_expectMarkup _ _) fun _ => ?_
  rw [nameParts_eq name.parts, nameParts_eq closing.parts]
  exact .step (.faultIf rfl) fun _ => .node places ((front.append closing.parts).append children)

theorem alike_markup
    (inChildren : Bool) :
    Alike shift on rank moved (markup inChildren) (markup inChildren) (fun _ => true) shift.Wholes :=
  .here fun places => .step (.expect "<") fun _ => .atMark fun _ =>
    .ite (fun _ => alike_fragment places) fun _ => alike_element places

end Parser

end LiveComponent
