import LiveComponent.Proofs.LayoutMarkup
import LiveComponent.Proofs.LayoutStatements

namespace LiveComponent

/-!
# The layout of modules

Imports and exports are laid out like other statements.  All goals together lay out their trees, and so the tree
of a source is laid out in the source.
-/

/-- The tree has no parts and may stand anywhere. -/
def Tree.IsLeaf (tree : Tree) : Prop :=
  ∃ kind span, tree = .node kind span [] ∧ ∀ {low high}, Fits low high span [] kind

theorem Tree.IsLeaf.absent :
    IsLeaf .absent :=
  ⟨.absent, ⟨0, 0⟩, rfl, trivial⟩

/-- A leaf may be put between trees. -/
theorem Tree.Laid.insertLeaf
    {low high : Nat}
    {tree : Tree}
    (trees others : List Tree)
    (laid : Laid low (trees ++ others) high)
    (isLeaf : tree.IsLeaf) :
    Laid low (trees ++ tree :: others) high := by
  obtain ⟨kind, span, rfl, fits⟩ := isLeaf
  exact laid.insert trees others fits

namespace Parser

open Tree (Fits Laid IsLeaf)

variable
  {size low high start place : Nat}
  {moved : Bool}
  {tree decorated name : Tree}

/-! ## Names -/

/-- What is read need not be laid out. -/
theorem Lays.silent
    {α : Type}
    {moves : Bool}
    {parser : P α}
    {trees : α → List Tree}
    (lays : Lays size moves parser trees) :
    Lays size moves parser noTrees :=
  lays.mono fun _ {_ _} laid => .nil laid.le

theorem lays_moduleName :
    Lays size true moduleName oneTree :=
  .of_extends fun _ _ => .step lays_get fun _ => .ite (.lastly lays_stringLiteral) (.lastly lays_propertyWord)

theorem gives_moduleName :
    Gives size moduleName IsLeaf := by
  refine .bind fun state => .ite (.bind fun state => ?_) (.bind fun _ => .bind fun _ => .node fun _ => ⟨_, _, rfl, rfl⟩)
  split
  · exact .bind fun _ => .node fun _ => ⟨_, _, rfl, rfl⟩
  · exact .fail

theorem lays_importAttribute :
    Lays size true importAttribute oneTree :=
  .of_extends fun _ _ => .step lays_here fun _ => .bind lays_moduleName fun _ => .step (lays_expect ":") fun _ =>
    .bind lays_stringLiteral fun _ => .node rfl trivial

theorem lays_importAttributes :
    Lays size false importAttributes id := by
  refine .of_extends fun _ _ => .step lays_get fun state => .ite ?_ (.pure rfl)
  refine .step lays_advance fun _ => .step (lays_expect "\x7b") fun _ =>
    .bind (lays_commaList lays_importAttribute) fun found => ?_
  obtain ⟨all, trailing⟩ := found
  exact .step (lays_expect "\x7d") fun _ => .step (lays_faultIf _) fun _ => .pure rfl

/-! ## Imports -/

theorem lays_atModuleName :
    Lays size false atModuleName noTrees :=
  .of_extends fun _ _ => .step lays_get fun _ => .pure rfl

theorem lays_entry :
    Lays size true entry noTrees := by
  have name : Lays size true moduleName noTrees := lays_moduleName.silent
  refine .of_extends fun _ _ => .step name fun first => .step lays_atModuleName fun more => .ite ?_ ?_
  · refine .step (lays_atWord "as") fun _ => .ite ?_ ?_
    · refine .step name fun firstAs => .step (lays_atWord "as") fun _ => .ite ?_ ?_
      · exact .step name fun secondAs => .step lays_atModuleName fun _ => .ite (.step name fun last =>
          .pure rfl) (.pure rfl)
      · exact .step lays_atModuleName fun _ => .ite (.step name fun last => .pure rfl) (.pure rfl)
    · exact .step name fun second => .step (lays_eatWord "as") fun _ => .ite (.step name fun last =>
        .pure rfl) (.pure rfl)
  · exact .step (lays_eatWord "as") fun _ => .ite (.step name fun last => .pure rfl) (.pure rfl)

/-- The names of an entry are leaves. -/
theorem gives_entry :
    Gives size entry fun found => found.first.IsLeaf ∧ found.second.IsLeaf := by
  have name : Gives size moduleName IsLeaf := gives_moduleName
  refine .bindWith name fun first isFirst => .bind fun more => .ite ?_ ?_
  · refine .bind fun _ => .ite ?_ ?_
    · refine .bindWith name fun firstAs isFirstAs => .bind fun _ => .ite ?_ ?_
      · exact .bindWith name fun secondAs isSecondAs => .bind fun _ => .ite
          (.bindWith name fun last isLast => .pure ⟨isFirstAs, isLast⟩) (.pure ⟨isFirst, isSecondAs⟩)
      · exact .bind fun _ => .ite (.bindWith name fun last isLast =>
          .pure ⟨isFirst, isLast⟩) (.pure ⟨isFirstAs, .absent⟩)
    · exact .bindWith name fun second isSecond => .bind fun _ => .ite
        (.bindWith name fun last isLast => .pure ⟨isSecond, isLast⟩) (.pure ⟨isSecond, .absent⟩)
  · exact .bind fun _ => .ite (.bindWith name fun last isLast => .pure ⟨isFirst, isLast⟩) (.pure ⟨isFirst, .absent⟩)

theorem lays_declaredName (tree : Tree) :
    Lays size false (declaredName tree) noTrees := by
  refine .of_extends fun _ _ => ?_
  unfold declaredName
  split
  · exact .ite .fail (.step lays_get fun state => .step (lays_checkName _ _) fun _ => .pure rfl)
  · exact .fail

theorem gives_declaredName (tree : Tree) :
    Gives size (declaredName tree) IsLeaf := by
  unfold declaredName
  split
  · exact .ite .fail (.bind fun _ => .bind fun _ => .pure ⟨_, _, rfl, trivial⟩)
  · exact .fail

theorem lays_importNamed :
    Lays size true importNamed oneTree := by
  refine .of_extends fun _ _ => .step lays_here fun _ => .bindWith gives_entry lays_entry fun found areLeaves =>
    .step lays_get fun state => .step (lays_faultIf _) fun _ =>
      .bindWith (gives_declaredName _) (lays_declaredName _) fun name isName => ?_
  exact .replace [found.first, name] (fun laid =>
    .insertLeaf [] [name] (.insertLeaf [] [] laid isName) areLeaves.1) (.node rfl trivial)

theorem lays_importNamespace :
    Lays size true importNamespace oneTree :=
  .of_extends fun _ _ => .step lays_here fun _ => .step (lays_expect "*") fun _ => .step (lays_expectWord "as") fun _ =>
    .bind lays_bindingName fun _ => .node rfl trivial

theorem lays_importList :
    Lays size true importList id := by
  refine .of_extends fun _ _ => .step (lays_atMark "*") fun found => .ite
    (.bind lays_importNamespace fun all => .pure rfl) (.step (lays_expect "\x7b") fun _ =>
      .bind (lays_commaList lays_importNamed) fun found => ?_)
  obtain ⟨all, trailing⟩ := found
  exact .step (lays_expect "\x7d") fun _ => .pure rfl

theorem extends_importRest
    {typeOnly : Bool} :
    Extends size low place moved [name] (importRest start typeOnly name) true oneTree := by
  refine .replace (if name.isAbsent then [] else [.node .importDefault name.span [name]]) (fun laid => ?_)
    (.choice (lays_pure true) (lays_eat ",") fun _ => by
      rw [List.append_nil]
      exact .choice lays_importList lays_none fun more => .step (lays_expectWord "from") fun _ =>
        .bind lays_stringLiteral fun source => .bind lays_importAttributes fun attributes =>
          .step lays_endStatement fun _ => .node rfl trivial)
  split
  · exact .nil laid.le
  · exact .node laid trivial

theorem lays_importsTypes :
    Lays size false importsTypes noTrees :=
  .of_extends fun _ _ => .step lays_get fun _ => .ite (.lastly (lays_ahead _)) (.pure rfl)

theorem lays_importsInPhase (name : Tree) :
    Lays size false (importsInPhase name) noTrees := by
  refine .of_extends fun _ _ => ?_
  unfold importsInPhase
  split
  · exact .ite (.lastly (lays_atMark "*")) (.ite (.step lays_get fun state =>
      .ite (.lastly (lays_ahead _)) (.pure rfl)) (.pure rfl))
  · exact .pure rfl

theorem lays_importDeclaration :
    Lays size true importDeclaration oneTree := by
  refine .of_extends fun _ _ => .step lays_here fun _ => .step lays_advance fun _ => .step lays_get fun state =>
    .ite ?_ (.ite ?_ ?_)
  · exact .bind lays_stringLiteral fun source => .bind lays_importAttributes fun attributes =>
      .step lays_endStatement fun _ => .node rfl trivial
  · refine .bind lays_bindingName fun name => .step lays_importsTypes fun types => .ite (.drop ?_)
      (.step lays_get fun state => .step (lays_atMark "=") fun equals => .ite extends_importEquals
        (.step (lays_importsInPhase name) fun inPhase => .ite (.drop ?_) extends_importRest))
    · refine .step (lays_faultIf _) fun _ => .step lays_get fun state => .ite ?_ ?_
      · exact .bind lays_bindingName fun name => .step (lays_atMark "=") fun equals =>
          .ite extends_importEquals extends_importRest
      · exact .replace [.absent] (.insert [] [] trivial) extends_importRest
    · refine .step (lays_atMark "*") fun all => .ite ?_ ?_
      · exact .replace [.absent] (.insert [] [] trivial) extends_importRest
      · exact .bind lays_bindingName fun name => extends_importRest
  · exact .replace [.absent] (.insert [] [] trivial) extends_importRest

theorem lays_importStatement :
    Lays size true importStatement oneTree :=
  .of_extends fun _ _ => .step (lays_ahead _) fun _ =>
    .ite (.lastly lays_expressionStatement) (.lastly lays_importDeclaration)

/-! ## Exports -/

theorem lays_exportName :
    Lays size true exportName oneTree := by
  refine .of_extends fun _ _ => .step lays_here fun _ => .bindWith gives_entry lays_entry fun found areLeaves =>
    .step lays_get fun state => .step (lays_faultIf _) fun _ => ?_
  have isLeaf : (if found.second.isAbsent then found.first else found.second).IsLeaf := by
    split
    · exact areLeaves.1
    · exact areLeaves.2
  exact .replace [found.first, _] (fun laid =>
    .insertLeaf [] _ (.insertLeaf [] [] laid isLeaf) areLeaves.1) (.node rfl trivial)

theorem extends_exportNames
    {typeOnly : Bool} :
    Extends size low place moved [] (exportNames start typeOnly) true oneTree := by
  refine .step (lays_expect "\x7b") fun _ => .bind (lays_commaList lays_exportName) fun found => ?_
  obtain ⟨all, trailing⟩ := found
  refine .step (lays_expect "\x7d") fun _ => .step (lays_eatWord "from") fun _ => .ite ?_ ?_
  · refine .bindWith gives_stringLiteral lays_stringLiteral fun source isString =>
      .step lays_importAttributes.silent fun _ => .passing ?_
    -- the source is read last and stands before the names
    refine .replace (source :: all) (fun laid => ?_) (.step lays_endStatement fun _ => .node rfl trivial)
    obtain ⟨between, names, last⟩ := laid.split
    exact (last.anywhere (.inr isString) (Nat.le_refl _)).append (names.raise last.le)
  · exact .step (lays_faultIf _) fun _ => .replace (.absent :: all) (.insert [] all trivial)
      (.passing (.step lays_endStatement fun _ => .node rfl trivial))

theorem extends_exportAll
    {typeOnly : Bool} :
    Extends size low place moved [] (exportAll start typeOnly) true oneTree :=
  .step (lays_expect "*") fun _ => .step (lays_eatWord "as") fun _ => .choice lays_moduleName lays_absent fun _ =>
    .step (lays_expectWord "from") fun _ => .bind lays_stringLiteral fun _ =>
      .step lays_importAttributes.silent fun _ => .step lays_endStatement fun _ => .node rfl trivial

theorem extends_moreDecorators :
    Extends size low place moved [decorated] (moreDecorators decorated) moved oneTree := by
  refine .bind lays_decorators fun more => .step (lays_faultIf _) fun _ =>
    .replace [if decorated.isAbsent then more else decorated] (fun laid => ?_) (.pure rfl)
  split
  · exact laid.right [decorated]
  · exact laid.left

theorem extends_exportDefault :
    Extends size low place moved [decorated] (exportDefault start decorated) true oneTree := by
  refine .step lays_advance fun _ => .here fun inner => .andThen extends_moreDecorators fun decorated =>
    .step lays_get fun state => .step (lays_ahead _) fun startsAbstract => .step (lays_ahead _) fun startsInterface =>
      .step lays_atAsyncFunction fun isAsync => .ite (.drop ?_) (.ite ?_ (.ite ?_ (.ite (.drop ?_) (.drop ?_))))
  · exact .andThen extends_functionDeclaration.tree fun value => .step (lays_faultIf _) fun _ => .node rfl trivial
  · exact .andThen extends_classLike.tree fun value => .step (lays_faultIf _) fun _ => .node rfl trivial
  · exact .step lays_advance fun _ => .andThen extends_classLike.tree fun value => .step (lays_faultIf _) fun _ =>
      .node rfl trivial
  · exact .andThen extends_interfaceDeclaration fun value => .step (lays_faultIf _) fun _ => .node rfl trivial
  · exact .bind (lays_want _) fun value => .step lays_endStatement fun _ => .passing
      (.step (lays_faultIf _) fun _ => .node rfl trivial)

theorem extends_exportDeclaration :
    Extends size low place moved [decorated] (exportDeclaration decorated) true oneTree := by
  refine .step lays_here fun start => .step lays_advance fun _ => .get fun state =>
    .step (lays_ahead _) fun exportsTypes =>
    .step (lays_faultIf _) fun _ => .ite (.drop extends_exportNames) (.ite (.drop extends_exportAll)
      (.ite extends_exportDefault (.ite (.drop ?_) (.ite (.drop ?_) (.ite (.drop ?_) ?_)))))
  · exact .step lays_advance fun _ => .bind (lays_want _) fun value => .step lays_endStatement fun _ =>
      .node rfl trivial
  · exact .step lays_advance fun _ => .step (lays_expectWord "namespace") fun _ => .bind lays_propertyWord fun name =>
      .step lays_endStatement fun _ => .node rfl trivial
  · exact .step lays_advance fun _ => .step (lays_atMark "*") fun all => .ite extends_exportAll extends_exportNames
  · exact .andThen extends_moreDecorators fun decorated => .andThen extends_declaration fun inner => .node rfl trivial

theorem lays_decoratedStatement :
    Lays size true decoratedStatement oneTree :=
  .of_extends fun _ _ => .here fun _ => .bind lays_decorators fun _ =>
    .step (lays_atWord "export") fun _ => .ite extends_exportDeclaration extends_declaration

/-- A marked statement lies where the statement lies. -/
theorem laid_markHarmlessStatement
    (laid : Laid low [tree] high) :
    Laid low [markHarmlessStatement tree] high := by
  unfold markHarmlessStatement
  split
  · exact .node laid.children_node trivial
  next keyword declared span definite inner target type value others =>
    obtain ⟨between, first, later⟩ := laid.children_node.uncons
    have parts : Laid low [target, type, if keyword == "const".toList then markHarmless value else value] between :=
      first.children_node.last [target, type] fun laid => by
        split
        · exact laid_markHarmless laid
        · exact laid
    have variableLaid : Laid low [.node (.declarator definite) inner _] between := .node parts trivial
    exact .node (variableLaid.append later) trivial
  · exact laid

theorem lays_statement (single : Bool) :
    Lays size false (statement single) oneTree := by
  refine .of_extends fun low start => .step lays_get fun state => ?_
  have ends (tree : Tree) {moved : Bool} :
      Extends size low start moved [tree]
        (pure (if state.notes.function then markHarmlessStatement tree else tree)) false oneTree := by
    refine .replace [_] (fun laid => ?_) (.pure rfl)
    split
    · exact laid_markHarmlessStatement laid
    · exact laid
  refine .ite (.bind lays_importStatement fun tree => ends tree) (.ite ?_ (.ite
    (.bind lays_decoratedStatement fun tree => ends tree) (.bind (lays_plainStatement single) fun tree => ends tree)))
  exact .replace [.absent] (.insert [] [] trivial) (.andThen extends_exportDeclaration fun tree => ends tree)

/-! ## Sources -/

/-- The parser of each goal lays out what is demanded of the goal. -/
theorem lays_parserOf (goal : Goal) :
    Lays size goal.isExpression (parserOf goal) goal.parts := by
  cases goal with
  | statement single => exact lays_statement single
  | block => exact lays_block.mono fun _ {_ _} => id
  | functionBody => exact lays_functionBody.mono fun _ {_ _} => id
  | expression => exact whole_expression
  | assignment resultType => exact whole_assignment resultType
  | operation level => exact whole_operation level
  | unary => exact whole_unary
  | simpleUnary => exact whole_simpleUnary
  | leftHand => exact whole_leftHand
  | constructed => exact whole_constructed
  | pattern => exact lays_bindingPattern.mono fun _ {_ _} => id
  | anyType => exact lays_anyType
  | operatorType => exact lays_operatorType
  | markup inChildren => exact whole_markup

/-- Within any depth, the goals that are reached lay out their trees. -/
theorem lawful_reach (depth : Nat) :
    Lawful size (reach depth) := by
  induction depth with
  | zero =>
      constructor
      · intro goal state tree last sound ran
        cases ran
      · intro inChildren state tree last ran
        cases ran
  | succ depth inductionHypothesis =>
      exact ⟨fun {goal} {_ _ _} sound ran => (lays_parserOf goal).leads inductionHypothesis sound ran,
        fun {_ _ _ _} ran => gives_markup.holds inductionHypothesis ran⟩

theorem length_skipHashbang (source : Text) :
    (skipHashbang source).2 + (skipHashbang source).1.length = source.length := by
  unfold skipHashbang
  split
  next rest =>
    have fits := Lexer.length_takeWhile_le (fun c => !Lexer.isLineEnd c) ('#' :: '!' :: rest)
    simp only [List.length_drop]
    omega
  next => exact Nat.zero_add _

theorem sound_initial
    (typed : Bool)
    (source : Text) :
    (State.initial typed source).Sound source.length := by
  have length := length_skipHashbang source
  unfold State.initial
  generalize skipHashbang source = skipped at length ⊢
  obtain ⟨rest, offset⟩ := skipped
  dsimp only
  generalize flags : (Flags.mk _ _ _ _ _ _ _) = flags'
  have begins : State.Sound source.length
      ⟨typed, source.length + 2, .bad, offset, offset, false, .none, rest, rest, offset, false, flags', [], []⟩ :=
    ⟨Nat.le_refl _, Nat.le_refl _, length, length, fun _ isMark => by cases isMark⟩
  have read := (leads_next begins).sound
  exact ⟨Nat.zero_le _, read.start_le, read.here_length, read.rest_length, read.here_ne_nil⟩

/-- The statements of a source are laid out in the source. -/
theorem laid_parse
    {typed : Bool}
    {source : Text}
    {tree : Tree}
    (parsed : parse? typed source = some tree) :
    Laid 0 [tree] source.length := by
  have laysProgram : Lays source.length false program fun tree => [tree] := by
    refine .of_extends fun _ _ => .bind (lays_directivesAndStatements (.of_extends fun _ _ =>
      .step lays_get fun state => .pure rfl)
      (lays_want (.statement false))) fun all => .step lays_get fun state => ?_
    exact .replace [.node .program _ all] (fun laid => .node laid trivial) (.pure rfl)
  unfold parse? parseWith? at parsed
  split at parsed
  next tree' last ran =>
    have leads := laysProgram.leads (lawful_reach _) (sound_initial typed source) ran
    have laid := (leads.laid.raise leads.sound.lastStop_le).raise
      (Nat.le_trans leads.sound.start_le (Nat.le.intro leads.sound.rest_length))
    repeat' split at parsed
    all_goals cases parsed
    exact laid
  next => cases parsed

end Parser

end LiveComponent
