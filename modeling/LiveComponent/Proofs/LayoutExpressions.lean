import LiveComponent.Proofs.LayoutFunctions
import LiveComponent.Proofs.TokenRuns

namespace LiveComponent

/-!
# The layout of expressions

The span of an expression lies in its place.  What is first read as an expression and then turned into a target
or marked stays where it is.
-/

namespace Parser

open Tree (Fits Laid)

variable
  {size low high start place : Nat}
  {moved : Bool}
  {commas : List Nat}
  {tree target : Tree}

/-! ## Assignment targets -/

theorem laid_simpleTarget
    (found : simpleTarget? tree = some target)
    (laid : Laid low [tree] high) :
    Laid low [target] high := by
  induction tree with
  | node kind span children inductionHypothesis =>
      unfold simpleTarget? at found
      split at found
      next inner same =>
        cases same
        exact inductionHypothesis inner (by simp) found laid.children_node
      next =>
        repeat' split at found
        all_goals cases found
        all_goals exact laid

/-- If each element stands for a target in its place, then the targets of all elements are laid out. -/
theorem laid_elementTargets
    {trailing : Bool}
    {elements targets : List Tree}
    {settled : List Nat}
    {faulty : Bool}
    (each : ∀ element ∈ elements, ∀ {low high covered}, target? commas element = some covered →
      Laid low [element] high → Laid low [covered.target] high)
    (found : elementTargets? commas trailing elements = some (targets, settled, faulty))
    (laid : Laid low elements high) :
    Laid low targets high := by
  induction elements generalizing low targets settled faulty with
  | nil =>
      cases found
      exact laid
  | cons element elements inductionHypothesis =>
      obtain ⟨between, first, later⟩ := laid.uncons
      unfold elementTargets? at found
      split at found
      next covered targets' settled' faulty' isCovered others =>
        have target := each element (by simp) isCovered first
        split at found
        · split at found
          · cases found
            exact target.raise later.le
          · cases found
        · cases found
          exact target.append
            (inductionHypothesis (fun other among => each other (by simp [among])) others later)
      next => cases found

theorem laid_target
    {covered : Covered}
    (found : target? commas tree = some covered)
    (laid : Laid low [tree] high) :
    Laid low [covered.target] high := by
  induction tree generalizing low high covered with
  | node kind span children inductionHypothesis =>
      unfold target? at found
      split at found
      next same =>
        cases same
        obtain ⟨⟨targets, settled, faulty⟩, elements, rfl⟩ := Option.map_eq_some_iff.mp found
        exact .node (laid_elementTargets inductionHypothesis elements laid.children_node) trivial
      next same =>
        cases same
        obtain ⟨⟨targets, settled, faulty⟩, properties, rfl⟩ := Option.map_eq_some_iff.mp found
        exact .node (laid_elementTargets inductionHypothesis properties laid.children_node) trivial
      next same =>
        cases same
        split at found
        · cases found
          exact .node laid.children_node trivial
        · cases found
      next same =>
        cases same
        obtain ⟨key, rest, parts, named⟩ := laid.fits_node
        split at found
        · cases parts
          cases found
          -- the name stands for the target too
          obtain ⟨between, first, later⟩ := laid.children_node.uncons
          exact .node (first.append (first.anywhere (.inl named) later.le)) trivial
        · cases found
          obtain ⟨between, first, later⟩ := laid.children_node.uncons
          exact .node (first.append (.node later trivial)) trivial
        · cases found
      next key value same =>
        cases same
        split at found
        · obtain ⟨inner, isCovered, rfl⟩ := Option.map_eq_some_iff.mp found
          obtain ⟨between, first, later⟩ := laid.children_node.uncons
          exact .node (first.append (inductionHypothesis value (by simp) isCovered later)) trivial
        · cases found
      next expression same =>
        cases same
        split at found
        · cases found
        · obtain ⟨inner, isCovered, rfl⟩ := Option.map_eq_some_iff.mp found
          exact .node (inductionHypothesis expression (by simp) isCovered laid.children_node) trivial
      next same =>
        cases same
        cases found
        exact laid
      next =>
        obtain ⟨target, isTarget, rfl⟩ := Option.map_eq_some_iff.mp found
        exact laid_simpleTarget isTarget laid

theorem extends_assignmentTarget
    {isPattern : Bool} :
    Extends size low start true [tree] (assignmentTarget isPattern tree) true oneTree := by
  refine .step lays_get fun state => .ite .fail (.ite ?_ ?_)
  · split
    next covered isCovered =>
      refine .replace [covered.target] (laid_target isCovered) (.step (lays_faultIf _) fun _ => ?_)
      exact .step (lays_modify (fun _ => rfl) (fun _ => rfl) (fun _ => rfl) (fun _ => rfl) (fun _ => rfl)
        fun _ => rfl) fun _ => .pure rfl
    next => exact .fail
  · split
    next target isTarget =>
      exact .replace [target] (laid_simpleTarget isTarget) (.pure rfl)
    next => exact .fail

/-! ## Literals with parts -/

theorem whole_templateLiteral (tagged : Bool) :
    Lays size true (templateLiteral tagged) wholeTree := by
  refine .of_extends fun _ _ => .get fun state => ?_
  split
  · refine .step (lays_faultIf _) fun _ => .step lays_advance fun _ => .ite (.whole rfl fun _ _ => trivial) ?_
    refine .rounds (fun held => held.2.reverse) rfl fun held => ?_
    refine .bind (lays_want .expression).withFlags fun value => .closing fun _ => .step lays_get fun after => ?_
    split
    · refine .step (lays_faultIf _) fun _ => .step lays_advance fun _ => .ite ?_ (.pure (by simp))
      exact .andThen (.whole (by simp) fun _ _ => trivial) fun tree => .pure rfl
    · exact .fail
  · exact .fail

theorem whole_regexLiteral :
    Lays size true regexLiteral wholeTree where
  leads {goals} lawful {state} sound {value last} ran := by
    cases found : Lexer.readRegex? (state.here.drop 1) with
    | none =>
        simp only [regexLiteral, Bind.bind, get, found] at ran
        cases ran
    | some parts =>
        obtain ⟨pattern, flags⟩ := parts
        have fits := Lexer.readRegex?_size found
        rw [List.length_drop] at fits
        have again := leads_reread sound
          ⟨.bad, pattern.length + flags.length + 2, Lexer.validFlags flags⟩
          (state.faulty || !Lexer.validFlags flags) (by simp only; omega) (by simp)
        have goesOn : Extends size state.lastStop state.start false []
            (advance >>= fun _ => node state.start (.regexLiteral pattern flags) []) true wholeTree :=
          .step lays_advance fun _ => .whole rfl fun _ _ => trivial
        simp only [regexLiteral, Bind.bind, get, found] at ran
        exact (goesOn.past lawful ((Past.begin sound).leads again) ran).led

theorem lays_spreadElement :
    Lays size true spreadElement oneTree :=
  .of_extends fun _ _ => .step lays_here fun _ => .step (lays_expect "...") fun _ =>
    .bind (lays_want _) fun _ => .node rfl trivial

theorem lays_argument :
    Lays size true argument oneTree :=
  .of_extends fun _ _ => .step (lays_atMark "...") fun _ =>
    .ite (.lastly lays_spreadElement) (.lastly (lays_want _))

theorem lays_argumentList :
    Lays size true argumentList id := by
  refine .of_extends fun _ _ => .step (lays_expect "(") fun _ =>
    .bind (lays_commaList lays_argument).withFlags fun found => ?_
  obtain ⟨all, trailing⟩ := found
  exact .step (lays_expect ")") fun _ => .pure rfl

theorem lays_noteComma
    (start : Nat)
    (trailing : Bool) :
    Lays size false (noteComma start trailing) noTrees := by
  cases trailing <;>
    exact lays_modify (fun _ => rfl) (fun _ => rfl) (fun _ => rfl) (fun _ => rfl) (fun _ => rfl) fun _ => rfl

theorem whole_arrayLiteral :
    Lays size true arrayLiteral wholeTree := by
  refine .of_extends fun _ _ => .here fun start => .step (lays_expect "[") fun _ =>
    .bind (Lays.withFlags (lays_commaList (show Lays size false _ _ from .of_extends fun _ _ => ?_))) fun found => ?_
  · refine .step (lays_atMark ",") fun missing => .ite ?_ (.lastly lays_argument)
    exact .step lays_here fun place => .replace [.node .hole ⟨place, place⟩ []] (.insert [] [] trivial) (.pure rfl)
  · obtain ⟨elements, trailing⟩ := found
    exact .step (lays_noteComma _ _) fun _ => .step (lays_expect "]") fun _ => .whole rfl fun _ _ => trivial

theorem lays_objectProperty :
    Lays size true objectProperty oneTree := by
  refine .of_extends fun _ _ => .step lays_here fun _ => .step lays_modifiers fun found =>
    .step (lays_faultIf _) fun _ => .step lays_accessorRole? fun role? => ?_
  split
  · refine .step (lays_faultIf _) fun _ => .bind lays_propertyKey fun named => ?_
    obtain ⟨key, computed⟩ := named
    exact .bind lays_methodFunction fun function => .node rfl trivial
  refine .step (lays_eat "*") fun isGenerator => .step lays_get fun state => .bind lays_propertyKey fun named => ?_
  obtain ⟨key, computed⟩ := named
  refine .step (lays_faultIf _) fun _ => .step (lays_atOneOf _) fun isMethod => .ite ?_ (.ite .fail ?_)
  · exact .bind lays_methodFunction fun function => .node rfl trivial
  refine .step (lays_atMark ":") fun _ => ?_
  split
  next text span parts _ =>
    refine .replace [_, .node (.identifier text) span []] (.insert [_] [] trivial) ?_
    refine .step (lays_eat "=") fun _ => .ite ?_ ?_
    · refine .bind (lays_want _).withFlags fun default => .step (lays_modify ?_ ?_ ?_ ?_ ?_ ?_) fun _ =>
        .node rfl ⟨_, _, rfl, rfl⟩
      all_goals exact fun _ => rfl
    · exact .node rfl ⟨_, _, rfl, rfl⟩
  · exact .step (lays_expect ":") fun _ => .bind (lays_want _) fun value => .node rfl trivial

theorem whole_objectLiteral :
    Lays size true objectLiteral wholeTree := by
  refine .of_extends fun _ _ => .here fun start => .step (lays_expect "\x7b") fun _ =>
    .bind (Lays.withFlags (lays_commaList (show Lays size true _ _ from .of_extends fun _ _ => ?_))) fun found => ?_
  · exact .step (lays_atMark "...") fun spreads =>
      .ite (.lastly lays_spreadElement) (.lastly lays_objectProperty)
  · obtain ⟨properties, trailing⟩ := found
    exact .step (lays_expect "\x7d") fun _ => .whole rfl fun _ _ => trivial

theorem whole_parenthesized :
    Lays size true parenthesized wholeTree :=
  .of_extends fun _ _ => .here fun _ => .step (lays_expect "(") fun _ =>
    .bind (lays_want .expression).withFlags fun _ => .step (lays_expect ")") fun _ => .whole rfl fun _ _ => trivial

/-! ## Arrow functions -/

theorem lays_arrowAhead :
    Lays size false arrowAhead noTrees := by
  refine .of_extends fun _ _ => .step (lays_atOneOf _) fun opens => .ite (.lastly (lays_probe _ _)) ?_
  exact .step (lays_atWord "async") fun isAsync => .ite (.lastly (lays_probe _ _)) (.pure rfl)

theorem lays_expectArrow :
    Lays size true expectArrow noTrees :=
  .of_extends fun _ _ => .step lays_get fun _ => .step (lays_faultIf _) fun _ => .lastly (lays_expect "=>")

/-- What follows the head of an arrow function knows where the function begins. -/
theorem extends_arrowHead
    {α : Type}
    {moves : Bool}
    {next : ArrowHead → P α}
    {trees : α → List Tree}
    (rest : ∀ place isAsync parts, Extends size low place true parts (next ⟨place, isAsync, parts⟩) true trees) :
    Extends size low start moved [] (arrowHead >>= next) moves trees := by
  unfold arrowHead
  simp only [bind_bind]
  exact .here fun place => .step (lays_eatWord "async") fun isAsync => .bind lays_signature.withFlags fun parts =>
    .step lays_expectArrow fun _ => .passing (rest place isAsync parts)

theorem extends_arrowBody
    {isAsync resultType : Bool}
    {parts : List Tree} :
    Extends size low start true parts (arrowBody ⟨start, isAsync, parts⟩ resultType) true wholeTree := by
  unfold arrowBody
  refine .withFlags (.step (lays_atMark "\x7b") fun opens => .ite ?_ ?_)
  · exact .bind (lays_want .functionBody) fun body => .whole rfl fun _ _ => trivial
  · refine .bind (lays_whole rfl) fun value =>
      .replace (parts ++ [Tree.node .body value.span [value.asStatement]]) ?_ (.whole rfl fun _ _ => trivial)
    exact fun laid => laid.last parts fun laid => .node laid trivial

/-- An arrow function that cannot be read is not read at all. -/
theorem extends_possibleArrow
    {α : Type}
    {resultType : Bool}
    {next : Option Tree → P α}
    {trees : α → List Tree}
    (found : ∀ tree, Extends size low start true [tree.asStatement] (next (some tree)) true trees)
    (missing : Extends size low start moved [] (next none) true trees) :
    Extends size low start moved [] (possibleArrow resultType >>= next) true trees where
  past {goals} lawful {state} past {value last} ran := by
    obtain ⟨result, after, stepped, goesOn⟩ := exists_of_bind ran
    unfold possibleArrow at stepped
    split at stepped
    · cases stepped
      exact missing.past lawful past goesOn
    next head behindHead headRan =>
      split at stepped
      · cases stepped
      next tree behindBody bodyRan =>
        split at stepped
        · cases stepped
          exact missing.past lawful past goesOn
        · cases stepped
          have whole : Extends size low start moved []
              (arrowHead >>= fun head => arrowBody head resultType) true wholeTree :=
            extends_arrowHead fun _ _ _ => extends_arrowBody
          refine (found tree).past lawful (whole.past lawful past ?_) goesOn
          simp only [Bind.bind, headRan, bodyRan]

theorem extends_simpleArrow
    {isAsync resultType : Bool} :
    Extends size low start true [tree] (simpleArrow start isAsync tree resultType) true wholeTree := by
  unfold simpleArrow
  split
  next text span parts =>
    dsimp only
    let parameter := Tree.node (.parameter [] false) span [.absent, .node (.binding text) span [], .absent, .absent]
    refine .replace [.absent, .node .parameters span [parameter], .absent] (fun laid => ?_)
      (.step lays_expectArrow fun _ => extends_arrowBody)
    have inner {low high : Nat} (ordered : low ≤ high) : Laid low [parameter] high :=
      .node (.insert [] _ trivial (.insert [] _ trivial (.insert [] _ trivial (.absent ordered)))) trivial
    exact .insert [] _ trivial (.insert [_] [] trivial (.node (inner laid.le) trivial))
  next => exact .fail

theorem lays_atAsyncArrow :
    Lays size false atAsyncArrow noTrees :=
  .of_extends fun _ _ => .step (lays_atWord "async") fun _ => .ite (.lastly (lays_ahead _)) (.pure rfl)

/-- What follows knows whether an arrow function was read. -/
theorem extends_arrow?
    {α : Type}
    {resultType : Bool}
    {next : Option Tree → P α}
    {trees : α → List Tree}
    (found : ∀ {start} tree, Extends size low start true [tree.asStatement] (next (some tree)) true trees)
    (missing : ∀ {moved}, Extends size low start moved [] (next none) true trees) :
    Extends size low start moved [] (arrow? resultType >>= next) true trees := by
  unfold arrow?
  rw [bind_bind]
  refine .step lays_arrowAhead fun guess => ?_
  cases guess with
  | yes =>
      simp only [bind_bind]
      exact extends_arrowHead fun _ _ _ => .andThen extends_arrowBody fun tree => .passing (found tree)
  | maybe => exact extends_possibleArrow found missing
  | no =>
      simp only [bind_bind]
      refine .step lays_atAsyncArrow fun isAsync => ?_
      cases isAsync with
      | true =>
          simp only [if_true, bind_bind]
          exact .here fun place => .step lays_advance fun _ => .bind whole_identifier.tree fun name =>
            .andThen extends_simpleArrow fun tree => .passing (found tree)
      | false => exact .passing missing

/-! ## Calls and members -/

theorem lays_startsExpression :
    Lays size false startsExpression noTrees :=
  .of_extends fun _ _ => .step lays_get fun _ =>
    .choice (lays_ahead _) (lays_pure false) fun _ => .pure rfl

/-- A list ends in front of its closing mark. -/
theorem isMark_of_commaList
    {goals : Goal → Step Tree}
    {state last : State}
    {close : String}
    {item : P Tree}
    {found : List Tree × Bool}
    (ran : commaList close item goals state = some (found, last)) :
    last.token.isMark close = true := by
  have trips (count : Nat) (items : List Tree) (state : State)
      (ran : roundTrips
        (fun items => do
          let items := (← item) :: items
          if ← atMark close then
            return .done (items.reverse, false)
          else
            expect ","
            if ← atMark close then
              return .done (items.reverse, true)
            else
              return .again items)
        count items goals state = some (found, last)) :
      last.token.isMark close = true := by
    induction count generalizing items state with
    | zero => cases ran
    | succ count inductionHypothesis =>
        obtain ⟨turn, behindItem, stepped, goesOn⟩ := exists_of_bind ran
        obtain ⟨tree, after, itemRan, stepped⟩ := exists_of_bind stepped
        change (if after.token.isMark close = true then _ else _ : P _) goals after = _ at stepped
        split at stepped
        next closes =>
          cases stepped
          cases goesOn
          exact closes
        next =>
          obtain ⟨_, behind, commaRan, stepped⟩ := exists_of_bind stepped
          change (if behind.token.isMark close = true then _ else _ : P _) goals behind = _ at stepped
          split at stepped
          next closes =>
            cases stepped
            cases goesOn
            exact closes
          next =>
            cases stepped
            exact inductionHypothesis _ _ goesOn
  change (if state.token.isMark close = true then _ else _ : P _) goals state = _ at ran
  split at ran
  next closes =>
    cases ran
    exact closes
  next => exact trips _ _ _ ran

/-- A closing angle bracket that may be part of a longer mark is read alone. -/
theorem past_closingAngle
    {α β : Type}
    {moves : Bool}
    {before : List Tree}
    {other : β → P α}
    {next : Unit → P α}
    {trees : α → List Tree}
    (rest : ∀ value, Extends size low start moved before (next value) moves trees)
    {goals : Goal → Step Tree}
    (lawful : Lawful size goals)
    {state : State}
    (past : Past size low start moved before state)
    (closes : state.token.isMark ">" = true)
    {value : α}
    {last : State}
    (ran : (do
      rereadAngle
      let joined ← atMark ">="
      if joined = true then do
        let value ← fail
        other value
      else do
        let value ← reread ⟨.mark ">", 1, true⟩
        next value) goals state = some (value, last)) :
    Past size low start moves (trees value) last := by
  have some := past.sound.here_ne_nil _ (token_of_isMark closes)
  obtain ⟨_, after, angleRan, ran⟩ := exists_of_bind ran
  change (if state.token.isMark ">" = true then _ else _ : P _) goals state = _ at angleRan
  rw [if_pos closes] at angleRan
  cases angleRan
  change (if (Lexer.readAngle state.here).token.isMark ">=" = true then _ else _ : P _) goals _ = _ at ran
  split at ran
  · cases ran
  · have again (faulty : Bool) := past.leads (leads_reread past.sound ⟨.mark ">", 1, true⟩ faulty
      (List.length_pos_iff.mpr some) fun _ _ => some)
    simp only [List.append_nil] at again
    exact (rest ()).past lawful (again _) ran

theorem lays_expressionTypeArguments :
    Lays size true expressionTypeArguments oneTree := by
  refine .of_extends fun low _ => .step lays_rereadOpenAngle fun _ => .step lays_here fun place =>
    .step (lays_expect "<") fun _ => ⟨fun {goals} lawful {state} past {value last} ran => ?_⟩
  obtain ⟨⟨all, trailing⟩, after, listed, ran⟩ := exists_of_bind ran
  have further := past.leads ((lays_commaList lays_freeType).leads lawful past.sound listed)
  refine past_closingAngle (fun _ => ?_) lawful further (isMark_of_commaList listed) ran
  refine .step lays_advance fun _ => .step (lays_faultIf _) fun _ =>
    .andThen (.nodeAfter [] rfl trivial) fun arguments => ?_
  refine .step lays_get fun state => .ite (.pure rfl) (.ite .fail ?_)
  exact .step lays_startsExpression fun _ => .ite (.pure rfl) .fail

theorem lays_memberName :
    Lays size true memberName oneTree := by
  refine .of_extends fun _ _ => .step lays_get fun state => ?_
  split
  · exact .lastly lays_privateName
  · exact .lastly lays_propertyWord

theorem extends_suffix
    {isNew linked : Bool} :
    Extends size low start true [tree.asStatement] (suffix start isNew tree linked) true
      (Extends.turnTrees (fun held => [held.1.asStatement]) fun held => [held.1.asStatement]) := by
  refine .step lays_get fun state => ?_
  split
  · refine .ite .fail (.step lays_advance fun _ => .step lays_get fun after => .ite ?_ (.ite ?_ ?_))
    · exact .replace [tree] .of_statement (.step lays_advance fun _ =>
        .bind (lays_want .expression).withFlags fun index => .step (lays_expect "]") fun _ =>
          .andThen (.whole rfl fun _ _ => trivial) fun longer => .pure rfl)
    · exact .replace [tree] .of_statement (.choice lays_absent lays_expressionTypeArguments fun arguments =>
        .bind lays_argumentList fun all => .andThen (.whole rfl fun _ _ => trivial) fun longer => .pure rfl)
    · exact .replace [tree] .of_statement (.bind lays_memberName fun name => .andThen (.whole rfl fun _ _ =>
        trivial) fun longer => .pure rfl)
  · exact .replace [tree] .of_statement (.step lays_advance fun _ => .bind lays_memberName fun name =>
      .andThen (.whole rfl fun _ _ => trivial) fun longer => .pure rfl)
  · refine .ite (.pure rfl) ?_
    exact .replace [tree] .of_statement (.step lays_advance fun _ =>
      .bind (lays_want .expression).withFlags fun index => .step (lays_expect "]") fun _ =>
        .andThen (.whole rfl fun _ _ => trivial) fun longer => .pure rfl)
  · refine .step (lays_faultIf _) fun _ => ?_
    refine .replace [(splitArguments tree).1, (splitArguments tree).2]
      (fun laid => laid_splitArguments laid.of_statement) ?_
    generalize splitArguments tree = parts
    obtain ⟨tag, arguments⟩ := parts
    exact .bind (whole_templateLiteral true).tree fun text => .andThen (.whole rfl fun _ _ => trivial) fun longer =>
      .pure rfl
  · refine .ite (.pure rfl) ?_
    refine .replace [(splitArguments tree).1, (splitArguments tree).2]
      (fun laid => laid_splitArguments laid.of_statement) ?_
    generalize splitArguments tree = parts
    obtain ⟨callee, arguments⟩ := parts
    exact .bind lays_argumentList fun all => .andThen (.whole rfl fun _ _ => trivial) fun longer => .pure rfl
  · refine .ite ?_ (.ite ?_ (.pure rfl))
    · exact .replace [tree] .of_statement (.step lays_advance fun _ => .andThen (.whole rfl fun _ _ =>
        trivial) fun longer => .pure rfl)
    · refine .bind (lays_attempt lays_expressionTypeArguments) fun found => ?_
      cases found with
      | some arguments =>
          refine .replace [tree, arguments] (fun laid => ?_) (.andThen (.whole rfl fun _ _ => trivial) fun longer =>
            .pure rfl)
          obtain ⟨between, first, later⟩ := laid.uncons
          exact first.of_statement.append later
      | none => exact .pure rfl
  · exact .pure rfl

theorem extends_suffixes
    {isNew : Bool} :
    Extends size low start true [tree.asStatement] (suffixes start isNew tree) true wholeTree := by
  refine .andThen (.rounds (fun held => [held.1.asStatement]) rfl fun held => extends_suffix) fun held => ?_
  obtain ⟨longer, linked⟩ := held
  refine .ite ?_ (.pure rfl)
  dsimp only
  split
  next span inner arguments =>
    refine .replace [Tree.asStatement (.node .instantiation span [.node .chain span [inner], arguments])] (fun laid => ?_) (.pure rfl)
    obtain ⟨between, first, later⟩ := laid.of_statement.children_node.uncons
    exact .statement (.node ((show Laid _ [.node .chain span [inner]] _ from .node first trivial).append later) trivial) laid.within
  · exact .replace [longer] .of_statement (.whole rfl fun _ _ => trivial)

/-! ## Primary expressions -/

theorem lays_none :
    Lays size false (pure [] : P (List Tree)) id :=
  .of_extends fun _ _ => .pure rfl

theorem whole_newExpression :
    Lays size true newExpression wholeTree := by
  refine .of_extends fun _ _ => .here fun start => .step (lays_expectWord "new") fun _ =>
    .step (lays_eat ".") fun target => .ite (.step (lays_expectWord "target") fun _ => .whole rfl fun _ _ => trivial) ?_
  refine .bind (lays_want .constructed) fun callee => ?_
  refine .replace [(splitArguments callee).1, (splitArguments callee).2] laid_splitArguments ?_
  generalize splitArguments callee = parts
  obtain ⟨callee, arguments⟩ := parts
  exact .step (lays_faultIf _) fun _ => .step (lays_atMark "(") fun opens =>
    .choice lays_argumentList lays_none fun all => .whole rfl fun _ _ => trivial

theorem extends_importArguments
    {phase : Text} :
    Extends size low start moved [] (importArguments start phase) true wholeTree := by
  refine .step (lays_expect "(") fun _ => .bind (lays_want _).withFlags fun source =>
    .step (lays_eat ",") fun more => .ite (.step (lays_atMark ")") fun closes => .ite ?_ ?_) ?_
  · exact .bind lays_absent fun options => .step (lays_expect ")") fun _ => .whole rfl fun _ _ => trivial
  · exact .bind (lays_want _).withFlags fun options => .step (lays_eat ",") fun _ =>
      .passing (.step (lays_expect ")") fun _ => .whole rfl fun _ _ => trivial)
  · exact .bind lays_absent fun options => .step (lays_expect ")") fun _ => .whole rfl fun _ _ => trivial

theorem whole_importExpression :
    Lays size true importExpression wholeTree :=
  .of_extends fun _ _ => .here fun _ => .step (lays_expectWord "import") fun _ =>
    .step (lays_eat ".") fun _ => .ite
      (.step lays_takeWord fun _ => .ite (.whole rfl fun _ _ =>
        trivial) (.ite extends_importArguments .fail)) extends_importArguments

theorem whole_wordExpression (text : Text) :
    Lays size true (wordExpression text) wholeTree := by
  refine .of_extends fun _ _ => .here fun start => ?_
  refine .ite (.step lays_advance fun _ => .whole rfl fun _ _ => rfl) (.ite extends_functionLike (.ite ?_
    (.ite (.lastly whole_newExpression) (.ite ?_ (.ite (.lastly whole_importExpression)
      (.ite (.lastly whole_literal) ?_))))))
  · exact .replace [.absent] (.insert [] [] trivial) extends_classLike
  · exact .step lays_advance fun _ => .step (lays_atOneOf _) fun found => .step (lays_faultIf _) fun _ =>
      .whole rfl fun _ _ => trivial
  · exact .step lays_atAsyncFunction fun isAsync =>
      .ite (.step lays_advance fun _ => extends_functionLike) (.lastly whole_identifier)

theorem whole_primary :
    Lays size true primary wholeTree := by
  refine .of_extends fun _ _ => .get fun state => ?_
  split
  · exact .lastly (whole_wordExpression _)
  · exact .lastly whole_literal
  · exact .lastly whole_literal
  · exact .lastly whole_literal
  · exact .lastly (whole_templateLiteral false)
  · exact .lastly whole_arrayLiteral
  · exact .lastly whole_objectLiteral
  · exact .lastly whole_parenthesized
  · exact .lastly whole_regexLiteral
  · exact .lastly whole_regexLiteral
  · exact .lastly (lays_whole rfl)
  · exact .bind lays_decorators fun decorated => extends_classLike
  · exact .fail

theorem whole_leftHand :
    Lays size true leftHand wholeTree :=
  .of_extends fun _ _ => .here fun _ => .bind whole_primary fun _ => extends_suffixes

theorem whole_constructed :
    Lays size true constructed wholeTree :=
  .of_extends fun _ _ => .here fun _ => .bind whole_primary fun _ => extends_suffixes

/-! ## Operators -/

theorem lays_atAwait :
    Lays size false atAwait noTrees :=
  .of_extends fun _ _ => .step lays_get fun _ => .ite (.ite (.pure rfl) (.lastly (lays_ahead _))) (.pure rfl)

theorem extends_updateExpression_finish :
    Extends size low start false [] (updateExpression.finish start) true wholeTree := by
  refine .bind (lays_whole rfl) fun operand => .step lays_get fun after => ?_
  split
  · refine .ite (.replace [operand] .of_statement (.step lays_advance fun _ => ?_)) (.pure rfl)
    exact .andThen extends_assignmentTarget fun target => .whole rfl fun _ _ => trivial
  · exact .pure rfl

theorem whole_updateExpression :
    Lays size true updateExpression wholeTree := by
  refine .of_extends fun _ _ => .get fun state => ?_
  split
  · exact .lastly (lays_whole rfl)
  · refine .ite ?_ extends_updateExpression_finish
    exact .step lays_advance fun _ => .bind (lays_want .unary) fun operand =>
      .andThen extends_assignmentTarget fun target => .whole rfl fun _ _ => trivial
  · exact extends_updateExpression_finish

theorem whole_simpleUnary :
    Lays size true simpleUnary wholeTree := by
  refine .of_extends fun _ _ => .get fun state => ?_
  split
  · exact .step lays_advance fun _ => .bind (lays_want .simpleUnary) fun operand => .whole rfl fun _ _ => trivial
  · refine .step lays_atAwait fun found => .ite ?_ (.lastly whole_updateExpression)
    exact .step (lays_faultIf _) fun _ => .step lays_advance fun _ =>
      .bind (lays_want .simpleUnary).withFlags fun operand => .whole rfl fun _ _ => trivial

theorem whole_unary :
    Lays size true unary wholeTree := by
  refine .of_extends fun _ _ => .step lays_get fun state => .step lays_atAwait fun awaits =>
    .bind whole_simpleUnary fun operand => .ite ?_ (.pure rfl)
  exact .step (lays_atMark "**") fun powers => .step (lays_faultIf _) fun _ => .pure rfl

/-- A marked expression lies where the expression lies. -/
theorem laid_markPure
    (laid : Laid low [tree] high) :
    Laid low [markPure tree] high := by
  induction tree generalizing low high with
  | node kind span children inductionHypothesis =>
      have head {tree : Tree} {trees : List Tree} (same : children = tree :: trees) :
          Laid low (markPure tree :: trees) high := by
        subst same
        obtain ⟨between, first, later⟩ := laid.children_node.uncons
        exact (inductionHypothesis tree (by simp) first).append later
      unfold markPure
      split
      all_goals try rename_i same; cases same
      · exact .node laid.children_node trivial
      · exact .node laid.children_node trivial
      · exact .node (head rfl) trivial
      · split
        · exact .node (head rfl) trivial
        · exact laid
      · exact .node (head rfl) trivial
      · exact .node (head rfl) trivial
      · exact .node (head rfl) trivial
      · exact laid

theorem extends_joined
    {operator : Text}
    {level : Nat}
    {left right : Tree} :
    Extends size low start true [left, right] (joined start operator level left right) true wholeTree :=
  .ite (.step (lays_faultIf _) fun _ => .whole rfl fun _ _ => trivial) (.ite (.whole rfl fun _ _ =>
    trivial) (.whole rfl fun _ _ => trivial))

theorem extends_operations
    {level : Nat} :
    Extends size low start true [tree.asStatement] (operations start level tree) true wholeTree := by
  refine .rounds wholeTree rfl fun left => .step lays_rereadAngle fun _ => .step lays_get fun state => ?_
  split
  · exact .pure rfl
  refine .ite (.pure rfl) ?_
  split
  · refine .ite (.ite (.pure rfl) ?_) ?_
    · refine .replace [left] .of_statement (.step (lays_faultIf _) fun _ => .step lays_advance fun _ =>
        .bind lays_freeType fun type => .andThen (.whole rfl fun _ _ => ?_) fun longer => .pure rfl)
      split <;> exact trivial
    · exact .replace [left] .of_statement (.step lays_advance fun _ => .bind (lays_want _) fun right =>
        .andThen extends_joined fun longer => .pure rfl)
  · exact .replace [left] .of_statement (.step lays_advance fun _ => .bind (lays_want _) fun right =>
      .andThen extends_joined fun longer => .pure rfl)
  · exact .pure rfl

theorem whole_operation (level : Nat) :
    Lays size true (operation level) wholeTree := by
  refine .of_extends fun _ _ => .get fun state => ?_
  split
  · refine .ite (.bind lays_privateName fun name => .step (lays_expectWord "in") fun _ => ?_) .fail
    exact .bind (lays_want _) fun right => .andThen (.whole rfl fun _ _ => trivial) fun left => extends_operations
  · refine .bind (lays_whole rfl) fun operand => .replace [Tree.asStatement _] (fun laid => ?_) extends_operations
    split
    · refine .statement (laid_markPure laid.of_statement) ?_
      rw [span_markPure]
      exact laid.within
    · exact laid

theorem lays_atYield :
    Lays size false atYield noTrees :=
  .of_extends fun _ _ => .step lays_get fun _ => .ite (.ite (.pure rfl) (.lastly (lays_ahead _))) (.pure rfl)

theorem whole_yieldExpression :
    Lays size true yieldExpression wholeTree := by
  refine .of_extends fun _ _ => .get fun state => .step (lays_faultIf _) fun _ => .step lays_advance fun _ =>
    .step lays_get fun after => .ite ?_ (.step (lays_eat "*") fun delegates => .ite ?_ (.ite ?_ ?_))
  · exact .replace [.absent] (.insert [] [] trivial) (.whole rfl fun _ _ => trivial)
  · exact .bind (lays_want _) fun operand => .whole rfl fun _ _ => trivial
  · exact .replace [.absent] (.insert [] [] trivial) (.whole rfl fun _ _ => trivial)
  · exact .bind (lays_want _) fun operand => .whole rfl fun _ _ => trivial

theorem extends_conditionalRest
    {resultType : Bool} :
    Extends size low start true [tree.asStatement] (conditionalRest start tree resultType) true wholeTree := by
  refine .step (lays_eat "?") fun found => .ite (.replace [tree] .of_statement ?_) (.pure rfl)
  exact .bind (lays_want _).withFlags fun consequent => .step (lays_expect ":") fun _ =>
    .bind (lays_want _) fun alternate => .whole rfl fun _ _ => trivial

/-- A marked function lies where the function lies. -/
theorem laid_markHarmless
    (laid : Laid low [tree] high) :
    Laid low [markHarmless tree] high := by
  unfold markHarmless
  split
  · exact .node laid.children_node trivial
  · exact .node laid.children_node trivial
  · exact laid

theorem whole_bareAssignment (resultType : Bool) :
    Lays size true (bareAssignment resultType) wholeTree := by
  refine .of_extends fun _ _ => .step lays_atYield fun yields => .ite (.lastly whole_yieldExpression) ?_
  refine extends_arrow? (fun tree => .pure rfl) ?_
  refine .here fun start => .bind (lays_whole rfl) fun left => .step lays_get fun state => ?_
  split
  · refine .ite (.replace [left] .of_statement extends_simpleArrow) (.ite ?_ extends_conditionalRest)
    exact .replace [left] .of_statement (.andThen extends_assignmentTarget fun target =>
      .step lays_advance fun _ => .bind (lays_want _) fun value => .whole rfl fun _ _ => trivial)
  · exact .pure rfl

theorem whole_assignment (resultType : Bool) :
    Lays size true (assignment resultType) wholeTree := by
  refine .of_extends fun _ _ => .step lays_get fun state => .bind (whole_bareAssignment _) fun tree => ?_
  refine .replace [Tree.asStatement _] (fun laid => ?_) (.pure rfl)
  split
  · refine .statement (laid_markHarmless laid.of_statement) ?_
    rw [span_markHarmless]
    exact laid.within
  · exact laid

theorem whole_expression :
    Lays size true expression wholeTree := by
  refine .of_extends fun _ _ => .here fun start =>
    .bind (lays_separatedIn Tree.asStatement (lays_whole rfl)) fun all => ?_
  split
  next single => exact .pure rfl
  · exact .replace all .of_statements (.whole rfl fun _ _ => trivial)

end Parser

end LiveComponent
