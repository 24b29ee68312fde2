import LiveComponent.Proofs.LayoutExpressions

namespace LiveComponent

/-!
# The layout of markup

The span of an element or fragment lies in its place, and its parts are what its grammar says.
-/

namespace Parser

open Tree (Fits Laid IsElementParts)

variable
  {size low start : Nat}
  {inChildren : Bool}

/-! ## Kinds of parts -/

/-- A tag is an element or a fragment. -/
theorem gives_tag :
    Gives size (want (.markup inChildren)) fun tree => Markup.isMarkup tree = true :=
  ⟨fun {_} lawful {_ _ _} ran => lawful.markup ran⟩

theorem isAttributeValue_of_isMarkup
    {tree : Tree}
    (isMarkup : Markup.isMarkup tree = true) :
    tree.isAttributeValue = true := by
  obtain ⟨kind, span, children⟩ := tree
  cases kind <;> first | rfl | cases isMarkup

theorem isMarkupChild_of_isMarkup
    {tree : Tree}
    (isMarkup : Markup.isMarkup tree = true) :
    tree.isMarkupChild = true := by
  obtain ⟨kind, span, children⟩ := tree
  cases kind <;> first | rfl | cases isMarkup

theorem isAttributeValue_of_isString
    {tree : Tree}
    (isString : tree.isString = true) :
    tree.isAttributeValue = true := by
  obtain ⟨kind, span, children⟩ := tree
  cases kind <;> first | rfl | cases isString

/-! ## Names -/

theorem lays_expectMarkup (text : String) :
    Lays size true (expectMarkup text inChildren) noTrees :=
  .of_extends fun _ _ => .step (lays_atMark text) fun _ =>
    .ite (.ite (.lastly lays_advanceMarkup) (.lastly lays_advance)) .fail

theorem lays_tagWord :
    Lays size true tagWord noTrees where
  leads {goals} lawful {state} sound {value last} ran := by
    obtain ⟨_, _, got, ran⟩ := exists_of_bind ran
    cases got
    dsimp only at ran
    generalize more : (if (state.rest.head? == some '-') = true then
      state.rest.takeWhile fun c => isIdPart c || c == '-' else []) = hyphens at ran
    have fits : hyphens.length ≤ state.rest.length := by
      subst more
      split
      · exact Lexer.length_takeWhile_le _ _
      · exact Nat.zero_le _
    have longer : Leads size false [] state
        { state with stop := state.stop + hyphens.length, rest := state.rest.drop hyphens.length } := by
      refine ⟨⟨sound.lastStop_le, ?_, sound.here_length, ?_, sound.here_ne_nil⟩, Nat.le_refl _, by simp,
        .nil (Nat.le_refl _)⟩
      · exact Nat.le_trans sound.start_le (Nat.le_add_right _ _)
      · have length := sound.rest_length
        simp only [List.length_drop]
        omega
    cases isWord : state.token with
    | word text escaped =>
        rw [isWord] at ran
        have goesOn : Extends size state.lastStop state.start false []
            (advanceName >>= fun _ => pure (text ++ hyphens)) true noTrees :=
          .step lays_advanceName fun _ => .pure rfl
        exact (goesOn.past lawful ((Past.begin sound).leads longer) ran).led
    | _ =>
        rw [isWord] at ran
        cases ran

theorem lays_tagName :
    Lays size true tagName oneTree :=
  .of_extends fun _ _ => .step lays_here fun _ => .step lays_tagWord fun _ => .node rfl rfl

theorem gives_tagName :
    Gives size tagName fun tree => tree.isTagName = true :=
  .bind fun _ => .bind fun _ => .node fun _ => rfl

/-- A leaf that is not used later takes up no place. -/
theorem lays_leaf
    {kind : Kind} :
    Lays size false (node start kind []) noTrees :=
  .still fun ran => by
    cases ran
    rfl

theorem gives_leaf
    {kind : Kind} :
    Gives size (node start kind []) fun tree => ∃ span, tree = .node kind span [] :=
  .node fun span => ⟨span, rfl⟩

section ElementName

variable
  {text : Text}
  {place : Span}

/-- The leaf for a name that refers to a variable. -/
theorem fits_reference
    {low high : Nat} :
    Fits low high place [] (if text == "this".toList then .this else .tagReference text) := by
  split <;> rfl

theorem isPathName_reference :
    Tree.isPathName (.node (if text == "this".toList then .this else .tagReference text) place []) = true := by
  split <;> rfl

end ElementName

theorem lays_elementName :
    Lays size true elementName oneTree := by
  refine .of_extends fun _ _ => .step lays_get fun state => .step lays_tagWord fun text =>
    .bindWith gives_leaf lays_leaf fun name isName => .bindWith gives_leaf lays_leaf fun reference isReference => ?_
  obtain ⟨span, rfl⟩ := isName
  obtain ⟨place, rfl⟩ := isReference
  refine .step (lays_eat ":") fun spaced => .ite ?_ (.step (lays_atMark ".") fun dotted => .ite ?_ (.ite ?_ ?_))
  · refine .replace [.node (.tagName text) span []] (.insert [] [] rfl) (.bindWith gives_tagName lays_tagName fun inner isName => ?_)
    exact .node rfl ⟨_, _, rfl, rfl, isName⟩
  · refine .step (lays_faultIf _) fun _ => .replace [.node _ place []] (.insert [] [] fits_reference)
      (.roundsKeeping oneTree rfl (fun left => left.isPathName = true) (fun left isPath => ?_) (fun left isPath => ?_)
        isPathName_reference (Bool.and_self _))
    · exact .bind fun more => .ite (.bind fun _ => .bind fun _ => .bind fun _ => .bind fun name =>
        .bindWith (.node fun _ => rfl) fun member isMember => .pure isMember) (.pure trivial)
    · refine .step (lays_eat ".") fun more => .ite (.step lays_here fun _ => .step lays_tagWord fun text =>
        .step (lays_faultIf _) fun _ => ?_) (.pure rfl)
      refine .bindWith gives_leaf lays_leaf fun name isName => ?_
      obtain ⟨span, rfl⟩ := isName
      refine .replace [left, .node (.name text) span []] (.insert [left] [] rfl) ?_
      exact .andThen (.nodeAfter [] rfl ⟨_, _, rfl, isPath, rfl⟩) fun member => .pure rfl
  · exact .replace [.node _ place []] (.insert [] [] fits_reference) (.pure rfl)
  · exact .replace [.node (.tagName text) span []] (.insert [] [] rfl) (.pure rfl)

theorem gives_elementName :
    Gives size elementName fun tree => tree.isElementName = true := by
  refine .bind fun state => .bind fun text => .bindWith gives_leaf fun name isName =>
    .bindWith gives_leaf fun reference isReference => .bind fun spaced => ?_
  obtain ⟨span, rfl⟩ := isName
  obtain ⟨place, rfl⟩ := isReference
  refine .ite (.bind fun inner => .node fun _ => rfl) (.bind fun dotted => .ite (.bind fun _ =>
    ?_) (.ite (.pure ?_) (.pure rfl)))
  · refine .rounds (fun left => left.isElementName = true) (fun left isElement => ?_) ?_
    · refine .bind fun more => .ite (.bind fun _ => .bind fun _ => .bind fun _ => .bind fun name =>
        .bindWith (.node fun _ => rfl) fun member isMember => .pure isMember) (.pure isElement)
    · exact Tree.isElementName_of_isPathName isPathName_reference
  · exact Tree.isElementName_of_isPathName isPathName_reference

/-! ## Attributes -/

theorem lays_attributeName :
    Lays size true attributeName oneTree := by
  refine .of_extends fun _ _ => .step lays_here fun _ => .bindWith gives_tagName lays_tagName fun name isName =>
    .step (lays_eat ":") fun spaced => .ite (.bindWith gives_tagName lays_tagName fun inner isInner => ?_) (.pure rfl)
  exact .node rfl ⟨_, _, rfl, isName, isInner⟩

theorem gives_attributeName :
    Gives size attributeName fun tree => tree.isAttributeName = true := by
  refine .bind fun _ => .bindWith gives_tagName fun name isName => .bind fun spaced =>
    .ite (.bind fun inner => .node fun _ => rfl) (.pure ?_)
  obtain ⟨kind, span, children⟩ := name
  cases kind <;> first | rfl | cases isName

theorem lays_attributeContainer :
    Lays size true attributeContainer oneTree := by
  refine .of_extends fun _ _ => .step lays_here fun _ => .step (lays_expect "\x7b") fun _ =>
    .step (lays_eat "\x7d") fun empty => .ite (.step lays_fault fun _ => ?_) ?_
  · exact .replace [.absent] (.insert [] [] trivial) (.node rfl ⟨_, rfl⟩)
  · exact .bind (lays_want .expression) fun expression => .step (lays_expect "\x7d") fun _ => .node rfl ⟨_, rfl⟩

theorem gives_attributeContainer :
    Gives size attributeContainer fun tree => tree.isAttributeValue = true :=
  .bind fun _ => .bind fun _ => .bind fun _ => .ite (.bind fun _ => .node fun _ => rfl)
    (.bind fun _ => .bind fun _ => .node fun _ => rfl)

theorem lays_tagAttribute :
    Lays size true tagAttribute oneTree := by
  refine .of_extends fun _ _ => .step lays_here fun _ => .step (lays_eat "\x7b") fun spreads => .ite ?_ ?_
  · exact .step (lays_expect "...") fun _ => .bind (lays_want .expression) fun expression =>
      .step (lays_expect "\x7d") fun _ => .node rfl ⟨_, rfl⟩
  refine .bindWith gives_attributeName lays_attributeName fun name isName => .step (lays_atMark "=") fun given =>
    .ite ?_ ?_
  · refine .step lays_advanceToValue fun _ => .step lays_get fun state => .ite ?_ (.ite ?_ (.ite ?_ ?_))
    · exact .bindWith gives_stringLiteral lays_stringLiteral fun value isString =>
        .node rfl ⟨_, _, rfl, isName, isAttributeValue_of_isString isString⟩
    · exact .bindWith gives_attributeContainer lays_attributeContainer fun value isValue =>
        .node rfl ⟨_, _, rfl, isName, isValue⟩
    · exact .bindWith gives_tag (lays_want _) fun value isMarkup =>
        .node rfl ⟨_, _, rfl, isName, isAttributeValue_of_isMarkup isMarkup⟩
    · exact .fail
  · exact .replace [name, .absent] (.insert [name] [] trivial) (.node rfl ⟨_, _, rfl, isName, rfl⟩)

theorem gives_tagAttribute :
    Gives size tagAttribute fun tree => tree.isAttribute = true := by
  refine .bind fun _ => .bind fun spreads => .ite (.bind fun _ => .bind fun _ => .bind fun _ => .node fun _ => rfl) ?_
  refine .bind fun name => .bind fun given => .ite ?_ (.node fun _ => rfl)
  refine .bind fun _ => .bind fun state => .ite ?_ (.ite ?_ (.ite ?_ ?_))
  all_goals exact .bind fun value => .node fun _ => rfl

/-! ## Children -/

theorem lays_child :
    Lays size true child oneTree := by
  refine .of_extends fun _ _ => .step lays_get fun state => ?_
  split
  · exact .step lays_advanceMarkup fun _ => .node rfl rfl
  · exact .lastly (lays_want _)
  · refine .step lays_advance fun _ => .step (lays_atMark "\x7d") fun empty =>
      .ite (.step lays_advanceMarkup fun _ => ?_) (.step (lays_eat "...") fun spreads => .ite ?_ ?_)
    · exact .replace [.absent] (.insert [] [] trivial) (.node rfl ⟨_, rfl⟩)
    · exact .bind (lays_want .expression) fun expression => .step (lays_expectMarkup "\x7d") fun _ =>
        .node rfl ⟨_, rfl⟩
    · exact .bind (lays_want .expression) fun expression => .step (lays_expectMarkup "\x7d") fun _ =>
        .node rfl ⟨_, rfl⟩
  · exact .fail

theorem gives_child :
    Gives size child fun tree => tree.isMarkupChild = true := by
  refine .bind fun state => ?_
  split
  · exact .bind fun _ => .node fun _ => rfl
  · exact ⟨fun {_} lawful {_ _ _} ran => isMarkupChild_of_isMarkup (lawful.markup ran)⟩
  · refine .bind fun _ => .bind fun empty => .ite (.bind fun _ => .node fun _ => rfl) (.bind fun spreads => .ite ?_ ?_)
    all_goals exact .bind fun _ => .bind fun _ => .node fun _ => rfl
  · exact .fail

theorem lays_opensClosingTag :
    Lays size false opensClosingTag noTrees :=
  .of_extends fun _ _ => .step (lays_atMark "<") fun _ => .ite (.lastly (lays_ahead _)) (.pure rfl)

theorem lays_childList :
    Lays size false childList id :=
  lays_manyUntil lays_opensClosingTag lays_child

theorem gives_childList :
    Gives size childList fun children => ∀ child ∈ children, child.isMarkupChild = true :=
  gives_manyUntil gives_child

/-! ## Elements and fragments -/

theorem extends_fragment :
    Extends size low start true [] (fragment start inChildren) true wholeTree := by
  refine .step (lays_expectMarkup ">") fun _ => .bindWith gives_childList lays_childList fun children areChildren => ?_
  exact .step lays_advance fun _ => .step (lays_expect "/") fun _ => .step (lays_expectMarkup ">") fun _ =>
    .whole rfl fun reached behind => ⟨⟨behind, reached, Nat.le_refl _⟩, areChildren⟩

theorem extends_element :
    Extends size low start true [] (element start inChildren) true wholeTree := by
  refine .bindWith gives_elementName lays_elementName fun name isName => .step lays_get fun state =>
    .choice lays_typeArguments lays_absent fun arguments =>
      .bindWith (gives_manyUntil gives_tagAttribute) (lays_manyUntil (lays_atOneOf _) lays_tagAttribute)
        fun attributes areAttributes => .step (lays_eat "/") fun closes => .ite ?_ ?_
  · refine .replace ([name, arguments] ++ attributes ++ [Tree.absent]) (fun laid => ?_)
      (.step (lays_expectMarkup ">") fun _ => .whole rfl fun reached behind => ⟨⟨behind, reached, Nat.le_refl _⟩, ?_⟩)
    · exact .insert ([name, arguments] ++ attributes) [] trivial (by simpa using laid)
    · exact ⟨name, arguments, attributes, .absent, [], by simp, rfl, isName, areAttributes, by simp⟩
  · refine .step (lays_expectMarkup ">") fun _ => .bindWith gives_childList lays_childList fun children areChildren =>
      .step lays_advance fun _ => .step (lays_expect "/") fun _ =>
        .bindWith gives_elementName lays_elementName fun closing isClosing =>
          .step (lays_expectMarkup ">") fun _ => .step (lays_faultIf _) fun _ => ?_
    refine .replace ([name, arguments] ++ attributes ++ [closing] ++ children) (fun laid => ?_)
      (.whole rfl fun reached behind => ⟨⟨behind, reached, Nat.le_refl _⟩, ?_⟩)
    · -- the closing name is read behind the children and stands before them
      obtain ⟨between, opened, last⟩ := laid.split
      obtain ⟨inner, front, childrenLaid⟩ := opened.split
      have moved := last.elementName isClosing (Nat.le_refl inner)
      exact ((front.append moved).append (childrenLaid.raise last.le))
    · exact ⟨name, arguments, attributes, closing, children, rfl, rfl, isName, areAttributes, areChildren⟩

theorem whole_markup :
    Lays size true (markup inChildren) wholeTree :=
  .of_extends fun _ _ => .here fun _ => .step (lays_expect "<") fun _ => .step (lays_atMark ">") fun _ =>
    .ite extends_fragment extends_element

theorem gives_markup :
    Gives size (markup inChildren) fun tree => Markup.isMarkup tree = true := by
  refine .bind fun _ => .bind fun _ => .bind fun _ => .ite ?_ ?_
  · exact .bind fun _ => .bind fun _ => .bind fun _ => .bind fun _ => .bind fun _ => .node fun _ => rfl
  refine .bind fun name => .bind fun state => .ite (.bind fun arguments => ?_) (.bind fun arguments => ?_)
  all_goals
    refine .bind fun attributes => .bind fun _ => .ite (.bind fun _ => .node fun _ => rfl) ?_
    exact .bind fun _ => .bind fun _ => .bind fun _ => .bind fun _ => .bind fun _ => .bind fun _ => .bind fun _ =>
      .node fun _ => rfl

end Parser

end LiveComponent
