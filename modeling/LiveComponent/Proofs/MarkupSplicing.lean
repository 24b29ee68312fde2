import LiveComponent.Proofs.CallPrinting
import LiveComponent.Proofs.LoweringReference
import LiveComponent.Proofs.ModuleReading
import LiveComponent.Script.Comparison

namespace LiveComponent

/-!
# Factory calls in the place of markup

A call takes over some expressions of the markup it stands for.  If each of them is printed so that it is read back,
then the text of the call is read back as the call, wherever it starts a token of its own and an operand is wanted.
A word that touches it in front runs into it.
-/

/-! ## Names behind names -/

/-- Whether each of the narrow ranges lies in one of the wide ones; both ascend. -/
def covers : List (Nat × Nat) → List (Nat × Nat) → Bool
  | [], narrow => narrow.isEmpty
  | range :: wide, narrow =>
    narrow.head?.all (fun first => range.1 ≤ first.1) && covers wide (narrow.dropWhile fun first => first.2 ≤ range.2)

theorem inRanges_dropWhile
    {n bound : Nat}
    {ranges : List (Nat × Nat)}
    (above : bound < n)
    (member : inRanges n ranges = true) :
    inRanges n (ranges.dropWhile fun first => first.2 ≤ bound) = true := by
  induction ranges with
  | nil => exact member
  | cons range ranges inductionHypothesis =>
      rw [List.dropWhile_cons]
      split
      next below =>
        rw [decide_eq_true_eq] at below
        simp only [inRanges, Bool.and_eq_true, Bool.or_eq_true, decide_eq_true_eq] at member
        exact inductionHypothesis (member.2.resolve_left (by omega))
      next => exact member

/-- What lies in the narrow ranges lies in the wide ones. -/
theorem inRanges_of_covers
    {n : Nat}
    {wide narrow : List (Nat × Nat)}
    (covered : covers wide narrow = true)
    (member : inRanges n narrow = true) :
    inRanges n wide = true := by
  induction wide generalizing narrow with
  | nil =>
      rw [covers, List.isEmpty_iff] at covered
      rw [covered] at member
      exact member
  | cons range wide inductionHypothesis =>
      rw [covers, Bool.and_eq_true] at covered
      simp only [inRanges, Bool.and_eq_true, Bool.or_eq_true, decide_eq_true_eq]
      constructor
      · cases narrow with
        | nil => cases member
        | cons first narrow =>
            have begins := of_decide_eq_true covered.1
            simp only [inRanges, Bool.and_eq_true, decide_eq_true_eq] at member
            exact Nat.le_trans begins member.1
      · rcases Nat.lt_or_ge range.2 n with above | below
        · exact .inr (inductionHypothesis covered.2 (inRanges_dropWhile above member))
        · exact .inl below

theorem isIdPart_of_isIdStart
    {c : Char}
    (starts : isIdStart c = true) :
    isIdPart c = true := by
  unfold isIdStart at starts
  unfold isIdPart
  split at starts
  next ascii =>
    rw [if_pos ascii, Char.isAlphanum]
    simp only [Bool.or_eq_true] at starts ⊢
    exact starts.imp_left (Or.imp_left .inl)
  next other =>
    have all : covers idContinueRanges idStartRanges = true := by decide +kernel
    rw [if_neg other, inRanges_of_covers all starts]
    rfl

/-- Two names without anything between are one name. -/
theorem isIdentifierName_append
    {word name : Text}
    (front : isIdentifierName word = true)
    (back : isIdentifierName name = true) :
    isIdentifierName (word ++ name) = true := by
  have parts : name.all isIdPart = true := by
    cases name with
    | nil => cases back
    | cons c name =>
        rw [isIdentifierName, Bool.and_eq_true] at back
        rw [List.all_cons, isIdPart_of_isIdStart back.1, back.2]
        rfl
  cases word with
  | nil => cases front
  | cons c word =>
      rw [isIdentifierName, Bool.and_eq_true] at front
      rw [List.cons_append, isIdentifierName, front.1, List.all_append, front.2, parts]
      rfl

namespace Markup

open Lexer Parser Printer

/-- The call that the markup becomes takes over the expression as it is.  These are the types of the elements, and
what stands in braces, with the markup in it lowered. -/
inductive Embeds (paths : Paths) : Role → Tree → Tree → Prop where
  | other
      {tree : Tree}
      (noMarkup : isMarkup tree = false) :
      Embeds paths .code tree (lower paths tree)
  | type
      {count : Nat}
      {span : Span}
      {name type : Tree}
      {parts : List Tree}
      (typed : TypeOf name type) :
      Embeds paths .code (.node (.element count) span (name :: parts)) type
  | attr
      {span : Span}
      {name arguments closing given expression : Tree}
      {attributes children : List Tree}
      (among : given ∈ attributes)
      (inner : Embeds paths .attr given expression) :
      Embeds paths .code
        (.node (.element attributes.length) span ([name, arguments] ++ attributes ++ [closing] ++ children)) expression
  | elementChild
      {span : Span}
      {name arguments closing child expression : Tree}
      {attributes children : List Tree}
      (among : child ∈ children)
      (inner : Embeds paths .child child expression) :
      Embeds paths .code
        (.node (.element attributes.length) span ([name, arguments] ++ attributes ++ [closing] ++ children)) expression
  | fragmentChild
      {span : Span}
      {child expression : Tree}
      {children : List Tree}
      (among : child ∈ children)
      (inner : Embeds paths .child child expression) :
      Embeds paths .code (.node .fragment span children) expression
  | property
      {span : Span}
      {name value expression : Tree}
      (inner : Embeds paths .value value expression) :
      Embeds paths .attr (.node .tagProperty span [name, value]) expression
  | spreadProperties
      {span : Span}
      {properties expression : Tree}
      (inner : Embeds paths .code properties expression) :
      Embeds paths .attr (.node .attributeSpread span [properties]) expression
  | escaped
      {text : Text}
      {span : Span} :
      Embeds paths .value (.node (.stringLiteral text true) span []) (.node (.stringLiteral text true) span [])
  | givenValue
      {span : Span}
      {value expression : Tree}
      (filled : value.isAbsent = false)
      (inner : Embeds paths .code value expression) :
      Embeds paths .value (.node .container span [value]) expression
  | markupValue
      {tree expression : Tree}
      (nested : isMarkup tree = true)
      (inner : Embeds paths .code tree expression) :
      Embeds paths .value tree expression
  | givenChild
      {span : Span}
      {child expression : Tree}
      (filled : child.isAbsent = false)
      (inner : Embeds paths .code child expression) :
      Embeds paths .child (.node .container span [child]) expression
  | spreadChildren
      {span : Span}
      {children expression : Tree}
      (inner : Embeds paths .code children expression) :
      Embeds paths .child (.node .childSpread span [children]) expression
  | markupChild
      {tree expression : Tree}
      (nested : isMarkup tree = true)
      (inner : Embeds paths .code tree expression) :
      Embeds paths .child tree expression

variable
  {paths : Paths}
  {typed : Bool}
  {flags : Flags}
  {role : Role}
  {tree : Tree}
  {trees results : List Tree}

/-! ## Arguments of factory calls -/

/-- The printer writes the tree so that it is read as what it is in its role. -/
def IsRewritten (typed : Bool) (flags : Flags) (role : Role) (tree : Tree) : Prop :=
  match role with
  | .code | .value => IsReadBack typed flags tree
  | .attr => Writes (IsItem objectItem typed flags) (document tree (.plain Level.lowest)) tree
  | .child => Writes (IsItem argument typed flags) (document tree (.plain Level.comma)) tree

/-- The printer writes the tree so that it is read as an argument. -/
def IsArgument (typed : Bool) (flags : Flags) (tree : Tree) : Prop :=
  Writes (IsItem argument typed flags) (document tree (.plain Level.comma)) tree

theorem isArgument_of_writes
    (writes : Writes (IsExpression typed flags) (document tree (.plain Level.comma)) tree) :
    IsArgument typed flags tree :=
  writes.mono fun _ => IsExpression.argument

/-- The variable behind a path is a name. -/
theorem isIdentifierName_rootOf
    {text : Text}
    (isPath : isPath text = true) :
    isIdentifierName (rootOf text) = true := by
  unfold Markup.isPath at isPath
  cases parts : Text.splitAt '.' text with
  | nil =>
      rw [parts] at isPath
      cases isPath
  | cons root names =>
      rw [parts] at isPath
      simp only [Bool.and_eq_true] at isPath
      rw [rootOf_eq parts]
      exact isPath.1.1

/-- What is printed as an expression and is no variable is read back. -/
theorem isReadBack_of_writes
    {kind : Kind}
    {span : Span}
    {children : List Tree}
    (writes : Writes (IsExpression typed flags) (document (.node kind span children) (.plain Level.comma))
      (.node kind span children))
    (noParentheses : kind ≠ .parenthesized)
    (noVariable : ∀ name, kind ≠ .identifier name) :
    IsReadBack typed flags (.node kind span children) := by
  refine ⟨writes, fun {name place parts} bound => ?_⟩
  unfold withoutParentheses at bound
  split at bound
  next same =>
    exact absurd (Tree.node.inj same).1 noParentheses
  next =>
    exact absurd (Tree.node.inj bound).1 (noVariable name)

theorem isReadBack_string
    (value : Text)
    (span : Span) :
    IsReadBack typed flags (.node (.stringLiteral value false) span []) := by
  have same : Writes (IsExpression typed flags) (document (string value) (.plain Level.comma))
      (.node (.stringLiteral value false) span []) :=
    (writes_string value _).mono fun _ read => read
  exact isReadBack_of_writes same (by simp) (by simp)

/-- A variable is read back by its name. -/
theorem isReadBack_reference
    {name : Text}
    (isName : isIdentifierName name = true)
    (free : Token.isFree name = true)
    (stands : Token.isVariable name = true) :
    IsReadBack typed flags (reference name) := by
  refine ⟨(isWritten_reference isName free).writes _, fun {other span children} bound => ?_⟩
  have same : Tree.made (.identifier name) [] = .node (.identifier other) span children := bound
  obtain ⟨kinds, -, rfl⟩ := Tree.node.inj same
  obtain rfl := Kind.identifier.inj kinds
  exact ⟨rfl, stands⟩

theorem isReadBack_true :
    IsReadBack typed flags (.made (.boolLiteral true) []) :=
  isReadBack_of_writes (writes_true _) (by simp) (by simp)

/-- A factory call is read back. -/
theorem isReadBack_factoryCall
    {arguments : List Tree}
    (factory : isPath paths.factory = true)
    (each : ∀ item ∈ arguments, IsArgument typed flags item) :
    IsReadBack typed flags (factoryCall paths arguments) := by
  obtain ⟨more, tokens, -, written⟩ := isWritten_path factory
  exact isReadBack_of_writes (writes_call written each (by decide)) (by simp) (by simp)

/-- The arguments of the call of an element. -/
theorem isArgument_element
    {type : Tree}
    {given inner : List Tree}
    (typeRead : IsReadBack typed flags type)
    (eachGiven : ∀ item ∈ given, IsRewritten typed flags .attr item)
    (eachInner : ∀ item ∈ inner, IsArgument typed flags item) :
    ∀ item ∈ type :: objectOf given :: inner, IsArgument typed flags item := by
  refine List.forall_mem_cons.mpr ⟨isArgument_of_writes typeRead.written, List.forall_mem_cons.mpr ⟨?_, eachInner⟩⟩
  unfold objectOf
  split
  · exact isArgument_of_writes (writes_null _)
  next filled =>
    exact isArgument_of_writes (writes_object eachGiven (by simpa using filled) _)

/-- The arguments of the call of a fragment. -/
theorem isArgument_fragment
    {inner : List Tree}
    (fragment : isPath paths.fragment = true)
    (eachInner : ∀ item ∈ inner, IsArgument typed flags item) :
    ∀ item ∈ path paths.fragment :: .made .nullLiteral [] :: inner, IsArgument typed flags item := by
  obtain ⟨more, tokens, -, written⟩ := isWritten_path fragment
  exact List.forall_mem_cons.mpr ⟨isArgument_of_writes (written.writes _),
    List.forall_mem_cons.mpr ⟨isArgument_of_writes (writes_null _), eachInner⟩⟩

/-! ## Calls that are read back -/

section

variable
  (factory : isPath paths.factory = true)
  (fragment : isPath paths.fragment = true)

include factory fragment

/-- What the table makes of trees is printed so that it is read back, if this holds of what it takes over. -/
theorem Lowers.isRewritten
    (lowers : Lowers paths role trees results)
    (readBack : ∀ tree ∈ trees, ∀ expression, Embeds paths role tree expression →
      IsReadBack typed flags expression) :
    ∀ result ∈ results, IsRewritten typed flags role result := by
  have alone {role : Role} {tree result : Tree}
      (hypothesis : (∀ part ∈ [tree], ∀ expression, Embeds paths role part expression →
        IsReadBack typed flags expression) → ∀ part ∈ [result], IsRewritten typed flags role part)
      (takes : ∀ expression, Embeds paths role tree expression → IsReadBack typed flags expression) :
      IsRewritten typed flags role result :=
    hypothesis (List.forall_mem_singleton.mpr takes) result (List.mem_singleton_self result)
  induction lowers with
  | nil => simp
  | @cons role tree trees first later one others firstHypothesis laterHypothesis =>
      rw [List.forall_mem_cons] at readBack
      intro result among
      rcases List.mem_append.mp among with among | among
      · exact firstHypothesis (List.forall_mem_singleton.mpr readBack.1) result among
      · exact laterHypothesis readBack.2 result among
  | @other kind span children parts noMarkup inner innerHypothesis =>
      rw [List.forall_mem_singleton] at readBack ⊢
      have lowered := (Lowers.other noMarkup inner).eq_flatMap
      rw [List.flatMap_singleton] at lowered
      rw [(List.cons.inj lowered).1]
      exact readBack _ (.other noMarkup)
  | element typed props between propsHypothesis innerHypothesis =>
      rw [List.forall_mem_singleton] at readBack ⊢
      exact isReadBack_factoryCall factory (isArgument_element (readBack _ (.type typed))
        (propsHypothesis fun given among expression inner => readBack expression (.attr among inner))
        (innerHypothesis fun child among expression inner => readBack expression (.elementChild among inner)))
  | fragment between innerHypothesis =>
      rw [List.forall_mem_singleton] at readBack ⊢
      exact isReadBack_factoryCall factory (isArgument_fragment fragment
        (innerHypothesis fun child among expression inner => readBack expression (.fragmentChild among inner)))
  | property named given givenHypothesis =>
      rw [List.forall_mem_singleton] at readBack ⊢
      exact writes_property _ (alone givenHypothesis fun expression inner => readBack expression (.property inner)) _
  | spreadProperties inner innerHypothesis =>
      rw [List.forall_mem_singleton] at readBack ⊢
      have read := alone innerHypothesis fun expression inner => readBack expression (.spreadProperties inner)
      refine writes_spread (fun {goals state} dots => ?_) read.written _
      rw [objectItem, atMark_bind, dots]
      rfl
  | missing => exact List.forall_mem_singleton.mpr isReadBack_true
  | text text escaped span =>
      rw [List.forall_mem_singleton] at readBack ⊢
      cases escaped with
      | true => exact readBack _ .escaped
      | false => exact isReadBack_string text span
  | emptyValue =>
      exact List.forall_mem_singleton.mpr (isReadBack_reference (by decide) (by decide) (by decide))
  | givenValue filled inner innerHypothesis =>
      rw [List.forall_mem_singleton] at readBack ⊢
      have read := alone innerHypothesis fun expression inner => readBack expression (.givenValue filled inner)
      exact read
  | markupValue nested inner innerHypothesis =>
      rw [List.forall_mem_singleton] at readBack ⊢
      have read := alone innerHypothesis fun expression inner => readBack expression (.markupValue nested inner)
      exact read
  | blank => simp
  | words =>
      exact List.forall_mem_singleton.mpr (isArgument_of_writes (writes_string _ _))
  | emptyChild => simp
  | givenChild filled inner innerHypothesis =>
      rw [List.forall_mem_singleton] at readBack ⊢
      have read := alone innerHypothesis fun expression inner => readBack expression (.givenChild filled inner)
      exact isArgument_of_writes read.written
  | spreadChildren inner innerHypothesis =>
      rw [List.forall_mem_singleton] at readBack ⊢
      have read := alone innerHypothesis fun expression inner => readBack expression (.spreadChildren inner)
      refine writes_spread (fun {goals state} dots => ?_) read.written _
      rw [argument, atMark_bind, dots]
      rfl
  | markupChild nested inner innerHypothesis =>
      rw [List.forall_mem_singleton] at readBack ⊢
      have read := alone innerHypothesis fun expression inner => readBack expression (.markupChild nested inner)
      exact isArgument_of_writes read.written

/-- Markup becomes a factory call with arguments that are read back. -/
theorem exists_arguments
    (laid : tree.IsLaid)
    (markup : isMarkup tree = true)
    (readBack : ∀ expression, Embeds paths .code tree expression → IsReadBack typed flags expression) :
    ∃ arguments, lower paths tree = factoryCall paths arguments ∧
      ∀ item ∈ arguments, IsArgument typed flags item := by
  obtain ⟨low, high, placed⟩ := laid
  obtain ⟨kind, span, children⟩ := tree
  have fits := placed.fits_node
  have parts := placed.children_node.isLaid
  cases kind
  case element count =>
    obtain ⟨-, name, arguments, attributes, closing, inner, rfl, rfl, isElement, areAttributes, areChildren⟩ := fits
    obtain ⟨type, typed⟩ := exists_typeOf (parts name (by simp)) isElement
    have props : Lowers paths .attr attributes (attributes.flatMap (becomes paths .attr)) :=
      .all fun given among => lowers_becomes (parts given (by simp [among])) .attr (areAttributes given among)
    have between : Lowers paths .child inner (inner.flatMap (becomes paths .child)) :=
      .all fun child among => lowers_becomes (parts child (by simp [among])) .child (areChildren child among)
    refine ⟨_, ?_, isArgument_element (readBack _ (.type typed))
      (props.isRewritten factory fragment fun given among expression inner =>
        readBack expression (.attr among inner))
      (between.isRewritten factory fragment fun child among expression inner =>
        readBack expression (.elementChild among inner))⟩
    rw [lower_element, typed.elementType_lower, properties_eq_objectOf, flatMap_childArguments]
  case fragment =>
    have between : Lowers paths .child children (children.flatMap (becomes paths .child)) :=
      .all fun child among => lowers_becomes (parts child among) .child (fits.2 child among)
    refine ⟨_, ?_, isArgument_fragment fragment
      (between.isRewritten factory fragment fun child among expression inner =>
        readBack expression (.fragmentChild among inner))⟩
    rw [← flatMap_childArguments]
    exact lower_node ..
  all_goals cases markup

end

/-! ## Texts of factory calls -/

/-- Wherever the text stands and an operand is wanted, the call is read, and the parser goes on with the chain of
members and calls behind it.  So the call is read as an operand of an operator that ends there, and as an assignment
that ends there. -/
def IsReadAs (typed : Bool) (flags : Flags) (text : Text) (call : Tree) : Prop :=
  ∃ size, ∀ depth state rest,
    size ≤ depth → size ≤ state.budget → state.typed = typed → bracketed state.flags = bracketed flags →
      state.StandsAt (text ++ rest) →
        ∃ after read length, Passes state after rest ∧ read.longhand = call.sense ∧
          length ≤ state.budget ∧ ChainAt depth length state after read ∧
          (∀ level, endsOperation level after.token = true → Reads (depth + 3) (.operation level) state after read) ∧
          (endsAssignment after.token = true → Reads (depth + 4) (.assignment true) state after read)

/-- Whether what is wanted, an operation or an assignment, ends before the token. -/
def endsBefore : Goal → Token → Bool
  | .operation level, token => endsOperation level token
  | .assignment true, token => endsAssignment token
  | _, _ => false

/-- Wherever the text stands in a source and an operation or an assignment is wanted that ends behind it, the call is
read, within the depth and the rounds that suffice for the rest of the source. -/
def IsReadWithin (typed : Bool) (flags : Flags) (text : Text) (call : Tree) : Prop :=
  ∀ depth state rest goal,
    16 * state.size + goal.rank < depth → state.size < state.budget → state.typed = typed →
      bracketed state.flags = bracketed flags → state.OpensAt (text ++ rest) →
        endsBefore goal (firstReading rest).token = true →
          ∃ after read, after.StandsAt rest ∧ after.faulty = (state.faulty || !isSound rest) ∧
            after.flags = state.flags ∧ after.pending = state.pending ∧ Reads depth goal state after read ∧
              read.longhand = call.sense

/-- What is read wherever the parser may go deep enough is read within the bounds for its source. -/
theorem IsReadAs.within
    {text : Text}
    {call : Tree}
    (isReadAs : IsReadAs typed flags text call) :
    IsReadWithin typed flags text call := by
  intro depth state rest goal deep large sameTyped sameFlags opens ends
  obtain ⟨size, reads⟩ := isReadAs
  let enough := size + 16 * state.size + 16
  obtain ⟨after, read, length, passes, meant, -, -, operation, assignment⟩ :=
    reads enough { state with budget := enough } rest (by omega) (by change size ≤ enough; omega) sameTyped sameFlags
      opens.stands
  obtain ⟨depth', deep', found⟩ :
      ∃ depth', 16 * state.size + goal.rank < depth' ∧ Reads depth' goal { state with budget := enough } after read := by
    rw [← passes.stands.1] at ends
    unfold endsBefore at ends
    split at ends
    next level => exact ⟨enough + 3, by change 16 * state.size + 5 < _; omega, operation level ends⟩
    next => exact ⟨enough + 4, by change 16 * state.size + 6 < _; omega, assignment ends⟩
    next => cases ends
  obtain ⟨last, stand, rfl, pending, found⟩ := found.of_enough opens large (by omega) deep deep'
  exact ⟨last, read, passes.stands, passes.faulty, passes.flags, pending.trans passes.pending, found, meant⟩

section

variable
  {arguments : List Tree}
  (factory : isPath paths.factory = true)
  (each : ∀ item ∈ arguments, IsArgument typed flags item)

include factory each

/-- A factory call starts with the variable of the factory, and its text spells its tokens. -/
theorem expressionText_factoryCall :
    ∃ names inside tokens, ∃ parts : List (List Token × Tree),
      (factoryCall paths arguments).expressionText = rootOf paths.factory ++ names ++ '(' :: inside ∧
        (∀ c ∈ names.head?, c = '.') ∧
        Operand tokens (path paths.factory) ∧
        parts.map Prod.snd = arguments ∧
        (∀ part ∈ parts, IsItem argument typed flags part.1 part.2) ∧
        ∀ rest, Spells (tokens ++ Token.mark "(" :: (commas (parts.map Prod.fst) ++ [Token.mark ")"]))
          ((factoryCall paths arguments).expressionText ++ rest) rest := by
  obtain ⟨names, tokens, points, written⟩ := isWritten_path factory
  let page : Page := { Page.blank with statementStart := some 0 }
  have settled : page.IsSettled := ⟨rfl, by decide⟩
  have apart : page.IsApart := ⟨nofun, nofun⟩
  obtain ⟨inside, parts, found, read, appends, spells⟩ :=
    @appends_call page _ typed flags _ arguments tokens Level.lowest written each (by decide) settled apart
  have printed : (factoryCall paths arguments).expressionText = rootOf paths.factory ++ names ++ '(' :: inside := by
    have reversed : (result (document (factoryCall paths arguments) (.plain Level.lowest)) page).reversed =
        (rootOf paths.factory ++ names ++ '(' :: inside).reverse := appends.reversed.trans (List.append_nil _)
    rw [Tree.expressionText]
    exact (congrArg List.reverse reversed).trans (List.reverse_reverse _)
  exact ⟨names, inside, tokens, parts, printed, points, written.operand, found, read, by rw [printed]; exact spells⟩

/-- The text of a factory call is read as the call. -/
theorem isReadAs_factoryCall :
    IsReadAs typed flags (factoryCall paths arguments).expressionText (factoryCall paths arguments) := by
  obtain ⟨names, inside, tokens, parts, -, -, operand, found, read, spells⟩ :=
    expressionText_factoryCall factory each
  obtain ⟨size, reads⟩ := reads_call operand read
  refine ⟨size + 1, fun depth state rest deep large sameTyped sameFlags stands => ?_⟩
  obtain ⟨after, runs, passes⟩ := runs_of_spells (spells rest) (by simp) stands
  obtain ⟨length, call, short, chain, meant⟩ :=
    @reads depth state after (by omega) (by omega) sameTyped sameFlags runs
  have operation (level : Nat) (ends : endsOperation level after.token = true) :
      Reads (depth + 3) (.operation level) state after call :=
    chain.reads_operation short (by omega) level ends
  refine ⟨after, call, length, passes, ?_, short, chain, operation, fun ends => ?_⟩
  · rw [meant, found]
    rfl
  · obtain ⟨kind, atom⟩ := chain.atom
    have operationEnds : endsOperation 1 after.token = true := by
      simp only [endsAssignment, Bool.and_eq_true] at ends
      exact ends.1
    exact reads_assignment (Token.startsOperand_of_atom? atom) (operation 1 operationEnds) ends true

/-- A word in front of a factory call runs into the variable of the factory. -/
theorem firstReading_word_factoryCall
    {word : Text}
    (isName : isIdentifierName word = true)
    (rest : Text) :
    (firstReading (word ++ ((factoryCall paths arguments).expressionText ++ rest))).token =
      .word (word ++ rootOf paths.factory) false := by
  obtain ⟨names, inside, tokens, parts, printed, points, -⟩ := expressionText_factoryCall factory each
  have ends : ∀ c ∈ (names ++ '(' :: inside ++ rest).head?, isIdPart c = false ∧ c ≠ '\\' := by
    intro c first
    cases names with
    | nil =>
        obtain rfl := Option.some.inj first
        decide
    | cons point names =>
        obtain rfl := points point rfl
        obtain rfl := Option.some.inj first
        decide
  have spells := spells_name (isIdentifierName_append isName (isIdentifierName_rootOf factory)) ends
  rw [printed]
  simp only [List.append_assoc] at spells ⊢
  exact spells.1

end

/-! ## Lowered sources -/

/-- Transpiled code is the source with all outermost markup replaced at once, and at most the line that imports the
factory added.  The text in the place of each is read as its factory call, wherever it starts a token of its own and
an operand is wanted, if what the call takes over is read back; the bounds for the source suffice for this.  But a word
that touches it runs into it. -/
theorem calls_stand_for_markup
    {options : Options}
    {source code : Text}
    {tree : Tree}
    (factory : isPath options.factory = true)
    (fragment : isPath options.fragment = true)
    (parsed : parse? (options.typed.getD (isTyped source)) source = some tree)
    (lowers : loweringEditsOf options tree ≠ [])
    (transpiled : (transpile options source).code = some code) :
    (∃ lowered, Text.Rewritten (loweringEditsOf options tree) source lowered ∧ isModule lowered = true ∧
      MayInsert (importLine options) lowered code) ∧
    ∀ edit ∈ loweringEditsOf options tree, ∃ node, Exposes tree node ∧ isMarkup node = true ∧
      edit = loweringEdit ⟨options.factory, options.fragment⟩ node ∧
        ∀ typed flags,
          (∀ expression, Embeds ⟨options.factory, options.fragment⟩ .code node expression →
            IsReadBack typed flags expression) →
          IsReadAs typed flags edit.text (lower ⟨options.factory, options.fragment⟩ node) ∧
            IsReadWithin typed flags edit.text (lower ⟨options.factory, options.fragment⟩ node) ∧
            ∀ word rest, isIdentifierName word = true →
              (firstReading (word ++ (edit.text ++ rest))).token = .word (word ++ rootOf options.factory) false := by
  rw [code_transpile parsed, if_neg lowers] at transpiled
  constructor
  · split at transpiled
    next isModule =>
      obtain rfl := Option.some.inj transpiled
      exact ⟨_, rewritten_lowered parsed, isModule, mayInsert_bindFactory _ _⟩
    next => cases transpiled
  · intro edit among
    obtain ⟨node, outer, rfl⟩ := List.mem_map.mp among
    obtain ⟨exposed, markup⟩ := mem_outermost_iff.mp outer
    refine ⟨node, exposed, markup, rfl, fun typed flags readBack => ?_⟩
    have laid : node.IsLaid := exposed.contains.isLaid ⟨0, source.length, Parser.laid_parse parsed⟩
    obtain ⟨arguments, call, each⟩ := exists_arguments factory fragment laid markup readBack
    rw [loweringEdit, call]
    have isReadAs := @isReadAs_factoryCall ⟨options.factory, options.fragment⟩ typed flags arguments factory each
    exact ⟨isReadAs, isReadAs.within, fun word rest isName =>
      firstReading_word_factoryCall factory each isName rest⟩

/-- Of a plain element with nothing in it, the call takes over the name only. -/
theorem Embeds.exists_string
    {span place : Span}
    {text : Text}
    {arguments closing expression : Tree}
    (embeds : Embeds paths .code
      (.node (.element 0) span [.node (.tagName text) place [], arguments, closing]) expression) :
    ∃ name, expression = string name := by
  generalize same : Tree.node (.element 0) span [.node (.tagName text) place [], arguments, closing] = tree at embeds
  cases embeds with
  | other noMarkup =>
      rw [← same] at noMarkup
      cases noMarkup
  | type typed =>
      obtain ⟨-, -, parts⟩ := Tree.node.inj same
      rw [← (List.cons.inj parts).1] at typed
      cases typed with
      | plain named => exact ⟨_, rfl⟩
  | @attr _ _ _ _ _ _ attributes _ among inner =>
      obtain ⟨kinds, -, -⟩ := Tree.node.inj same
      rw [List.eq_nil_of_length_eq_zero (Kind.element.inj kinds).symm] at among
      cases among
  | @elementChild _ _ _ _ _ _ attributes children among inner =>
      obtain ⟨kinds, -, parts⟩ := Tree.node.inj same
      rw [List.eq_nil_of_length_eq_zero (Kind.element.inj kinds).symm] at parts
      obtain ⟨-, -, -, none⟩ : _ ∧ _ ∧ _ ∧ [] = children := by simpa using parts
      rw [← none] at among
      cases among
  | fragmentChild among inner =>
      cases (Tree.node.inj same).1

/-- A function that gives an element with nothing in it. -/
theorem calls_stand_for_markup_of_arrow :
    ∃ source code tree node,
      parse? (isTyped source) source = some tree ∧
        (transpile (.ofFramework {}) source).code = some code ∧
        loweringEditsOf (.ofFramework {}) tree =
          [loweringEdit ⟨"React.createElement".toList, "React.Fragment".toList⟩ node] ∧
        ∀ typed flags,
          IsReadAs typed flags "React.createElement(\"br\", null)".toList
            (lower ⟨"React.createElement".toList, "React.Fragment".toList⟩ node) := by
  let name := Tree.node (.tagName "br".toList) ⟨22, 24⟩ []
  let node := Tree.node (.element 0) ⟨21, 26⟩ [name, .absent, .absent]
  obtain ⟨source, found⟩ : ∃ source, (parse? (isTyped source) source).any (fun tree =>
      outermost tree == [node] && (transpile (.ofFramework {}) source).code.isSome) = true :=
    ⟨"export default () => <br/>;".toList, by decide +kernel⟩
  obtain ⟨tree, parsed, facts⟩ := (Option.any_eq_true ..).mp found
  rw [Bool.and_eq_true, beq_iff_eq] at facts
  obtain ⟨code, transpiled⟩ := Option.isSome_iff_exists.mp facts.2
  have edits : loweringEditsOf (.ofFramework {}) tree =
      [loweringEdit ⟨"React.createElement".toList, "React.Fragment".toList⟩ node] := by
    rw [loweringEditsOf, facts.1]
    rfl
  obtain ⟨-, each⟩ := @calls_stand_for_markup (.ofFramework {}) source code tree (by decide) (by decide) parsed
    (by rw [edits]; exact List.cons_ne_nil _ _) transpiled
  obtain ⟨other, exposed, markup, -, reads⟩ := each _ (by rw [edits]; exact List.mem_singleton_self _)
  have same : other = node := by
    have outer := mem_outermost_iff.mpr ⟨exposed, markup⟩
    rw [facts.1] at outer
    exact List.mem_singleton.mp outer
  rw [same] at reads
  refine ⟨source, code, tree, node, parsed, transpiled, edits, fun typed flags => ?_⟩
  obtain ⟨read, -⟩ := reads typed flags fun expression embedded => by
    obtain ⟨text, rfl⟩ := embedded.exists_string
    exact isReadBack_string text _
  have text : (loweringEdit ⟨"React.createElement".toList, "React.Fragment".toList⟩ node).text =
      "React.createElement(\"br\", null)".toList := by
    decide +kernel
  rw [← text]
  exact read

/-- A word that touches an element runs into the factory, and the program becomes another one. -/
theorem markup_runs_into_word :
    ¬∀ options source tree lowered module,
      parse? (isTyped source) source = some tree →
      loweringEditsOf options tree ≠ [] →
      Text.Rewritten (loweringEditsOf options tree) source lowered →
      (transpile options source).code = some (bindFactory options lowered).1 →
      parse? (isTyped lowered) lowered = some module →
        module.sense = (lower ⟨options.factory, options.fragment⟩ tree).sense := by
  intro kept
  obtain ⟨source, found⟩ : ∃ source, (parse? (isTyped source) source).any (fun tree =>
      !(loweringEditsOf (.ofFramework {}) tree).isEmpty &&
        isModule (Text.splice (loweringEditsOf (.ofFramework {}) tree) source) &&
        (parse? (isTyped (Text.splice (loweringEditsOf (.ofFramework {}) tree) source))
          (Text.splice (loweringEditsOf (.ofFramework {}) tree) source)).any fun module =>
            module.sense != (lower ⟨"React.createElement".toList, "React.Fragment".toList⟩ tree).sense) = true :=
    ⟨"export default () => \x7b return<div/> \x7d".toList, by decide +kernel⟩
  obtain ⟨tree, parsed, facts⟩ := (Option.any_eq_true ..).mp found
  simp only [Bool.and_eq_true, Bool.not_eq_true', List.isEmpty_eq_false_iff] at facts
  obtain ⟨⟨lowers, isModule⟩, read⟩ := facts
  obtain ⟨module, readAgain, differs⟩ := (Option.any_eq_true ..).mp read
  have code := @code_transpile source tree (.ofFramework {}) parsed
  rw [if_neg lowers, if_pos isModule] at code
  have same := kept (.ofFramework {}) source tree _ module parsed lowers (rewritten_lowered parsed) code readAgain
  rw [bne_iff_ne] at differs
  exact differs same

end Markup

end LiveComponent
