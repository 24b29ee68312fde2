import LiveComponent.Proofs.OperandReading

namespace LiveComponent

/-!
# How arguments are read

The items of a list in brackets are read one by one: the arguments of a call, and the properties of an object.
What is read of them is compared without what does not matter to its meaning; so it is not asked whether a property
is written by its name alone.
-/

/-- The kind without whether a property is written by its name alone. -/
def Kind.longhand : Kind → Kind
  | .property role isMethod _ computed => .property role isMethod false computed
  | kind => kind

namespace Tree

/-- The tree without whether properties are written by their names alone. -/
def longhand : Tree → Tree :=
  fold fun tree parts => made tree.kind.longhand parts

/-- The tree without its places, its parentheses, what comments say and whether properties are written by their
names alone. -/
def sense (tree : Tree) : Tree :=
  tree.bare.longhand

@[simp]
theorem longhand_node
    (kind : Kind)
    (span : Span)
    (children : List Tree) :
    (node kind span children).longhand = made kind.longhand (children.map longhand) :=
  fold_node ..

theorem sense_node
    (kind : Kind)
    (other : kind ≠ .parenthesized)
    (span : Span)
    (children : List Tree) :
    (node kind span children).sense = made kind.bare.longhand (children.map sense) := by
  have bare : (node kind span children).bare = made kind.bare (children.map bare) := by
    rw [bare_node]
    unfold bareNode
    split
    · exact absurd rfl other
    · rfl
  rw [sense, bare, made, longhand_node, List.map_map]
  rfl

@[simp]
theorem longhand_made
    (kind : Kind)
    (children : List Tree) :
    (made kind children).longhand = made kind.longhand (children.map longhand) :=
  longhand_node ..

theorem sense_made
    (kind : Kind)
    (other : kind ≠ .parenthesized)
    (children : List Tree) :
    (made kind children).sense = made kind.bare.longhand (children.map sense) :=
  sense_node kind other ..

end Tree

namespace Token

/-- Whether an item of a list in brackets ends before the token. -/
def endsItem (token : Token) : Bool :=
  [",", ")", "\x7d"].any token.isMark

/-- Whether the name of a property ends before the token. -/
def endsKey (token : Token) : Bool :=
  [":", ",", ")", "\x7d"].any token.isMark

/-- Whether the word by itself is a property with the value of the variable of that name. -/
def isVariable (text : Text) : Bool :=
  !isReserved text && text != "await".toList && text != "yield".toList

end Token

namespace Parser

variable
  {typed : Bool}
  {flags : Flags}
  {tokens : List Token}
  {tree : Tree}
  {parts : List (List Token × Tree)}

/-! ## Items of lists -/

/-- A goal is met, and what is found means the same as the tree. -/
def Means (depth : Nat) (goal : Goal) (state after : State) (tree : Tree) : Prop :=
  ∃ read, Reads depth goal state after read ∧ read.longhand = tree.sense

/-- The tokens are read as the expression wherever they stand as an item of a list in brackets. -/
def IsExpression (typed : Bool) (flags : Flags) (tokens : List Token) (tree : Tree) : Prop :=
  ∃ size, ∀ {depth : Nat} {state after : State},
    size ≤ depth → size ≤ state.budget → state.typed = typed → state.flags = bracketed flags →
      Runs tokens state after → after.token.endsItem = true →
        Means depth (.assignment true) state after tree

/-- The parser of items reads the tokens as the item, if it may go that deep. -/
def ReadsItem
    (size : Nat)
    (item : P Tree)
    (typed : Bool)
    (flags : Flags)
    (tokens : List Token)
    (tree : Tree) :
    Prop :=
  ∀ {depth : Nat} {state after : State},
    size ≤ depth → size ≤ state.budget → state.typed = typed → state.flags = bracketed flags →
      Runs tokens state after → after.token.endsItem = true →
        state.token.endsItem = false ∧
          ∃ found, item (reach depth) state = some (found, after) ∧ found.sense = tree.sense

/-- The tokens are read as the item wherever they stand in a list in brackets. -/
def IsItem (item : P Tree) (typed : Bool) (flags : Flags) (tokens : List Token) (tree : Tree) : Prop :=
  ∃ size, ReadsItem size item typed flags tokens tree

/-- What is read as an item means the same as any tree of the same sense. -/
theorem IsItem.congr
    {item : P Tree}
    {other : Tree}
    (isItem : IsItem item typed flags tokens tree)
    (same : tree.sense = other.sense) :
    IsItem item typed flags tokens other := by
  obtain ⟨size, reads⟩ := isItem
  refine ⟨size, fun deep large sameTyped sameFlags runs ends => ?_⟩
  obtain ⟨opens, found, read, meant⟩ := reads deep large sameTyped sameFlags runs ends
  exact ⟨opens, found, read, meant.trans same⟩

/-- Items of a list can be read within a common depth. -/
theorem exists_size
    {item : P Tree}
    (each : ∀ part ∈ parts, IsItem item typed flags part.1 part.2) :
    ∃ size, ∀ part ∈ parts, ReadsItem size item typed flags part.1 part.2 := by
  induction parts with
  | nil =>
      exact ⟨0, List.forall_mem_nil _⟩
  | cons part more inductionHypothesis =>
      rw [List.forall_mem_cons] at each
      obtain ⟨size, reads⟩ := each.1
      obtain ⟨common, readsMore⟩ := inductionHypothesis each.2
      refine ⟨max size common, List.forall_mem_cons.mpr ⟨fun deep large => ?_, fun other member => ?_⟩⟩
      · exact reads (Nat.le_trans (Nat.le_max_left ..) deep) (Nat.le_trans (Nat.le_max_left ..) large)
      · intro depth state after deep large
        exact readsMore other member (Nat.le_trans (Nat.le_max_right ..) deep)
          (Nat.le_trans (Nat.le_max_right ..) large)

/-- What each item of a list is read as, as the list wants it. -/
theorem reads_items
    {item : P Tree}
    (each : ∀ part ∈ parts, IsItem item typed flags part.1 part.2)
    {close : String}
    (closing : close ∈ [")", "\x7d"]) :
    ∃ size, ∀ {depth : Nat} {state : State},
      size ≤ depth → size ≤ state.budget → state.typed = typed → state.flags = bracketed flags →
        parts.length ≤ state.budget ∧
          ∀ part ∈ parts.map fun part => (part.1, part.2.sense), ∀ {start behind : State},
            state.Alike start → Runs part.1 start behind →
              (behind.token = .mark "," ∨ behind.token = .mark close) →
                start.token.isMark close = false ∧
                  ∃ found, item (reach depth) start = some (found, behind) ∧ found.sense = part.2 := by
  obtain ⟨size, reads⟩ := exists_size each
  refine ⟨max size parts.length, fun {depth state} deep large sameTyped sameFlags => ?_⟩
  refine ⟨Nat.le_trans (Nat.le_max_right ..) large, List.forall_mem_map.mpr ?_⟩
  intro part member start behind alike runs ends
  have closes : behind.token.endsItem = true := by
    simp only [List.mem_cons, List.not_mem_nil, or_false] at closing
    rcases ends with comma | last
    · rw [comma]
      decide
    · rw [last]
      rcases closing with rfl | rfl <;> decide
  have budget : size ≤ start.budget := by
    rw [alike.2.1]
    exact Nat.le_trans (Nat.le_max_left ..) large
  obtain ⟨opens, found, read, meant⟩ := reads part member (Nat.le_trans (Nat.le_max_left ..) deep) budget
    (alike.2.2.trans sameTyped) (alike.1.trans sameFlags) runs closes
  refine ⟨?_, found, read, meant⟩
  have none := List.any_eq_false.mp opens close (List.mem_cons_of_mem _ closing)
  exact Bool.eq_false_iff.mpr none

/-! ## Expressions as items -/

/-- What is read as an expression does not end an item, and starts with no dots. -/
theorem Means.opens
    {depth : Nat}
    {state after : State}
    (means : Means depth (.assignment true) state after tree) :
    state.token.endsItem = false ∧ state.token.isMark "..." = false := by
  obtain ⟨read, ⟨found, met, -⟩, -⟩ := means
  have leads : state.token.opensNothing = false := by
    apply Bool.eq_false_iff.mpr
    intro closed
    rw [reach_assignment closed] at met
    cases met
  have other (text : String) (closed : (Token.mark text).opensNothing = true) :
      state.token.isMark text = false := by
    cases token : state.token with
    | mark got =>
        apply Bool.eq_false_iff.mpr
        intro same
        rw [Token.isMark, beq_iff_eq] at same
        subst same
        rw [token, closed] at leads
        cases leads
    | _ => rfl
  refine ⟨?_, other "..." (by decide)⟩
  simp [Token.endsItem, other "," (by decide), other ")" (by decide), other "\x7d" (by decide)]

/-- An expression is an argument. -/
theorem IsExpression.argument
    (expression : IsExpression typed flags tokens tree) :
    IsItem argument typed flags tokens tree := by
  obtain ⟨size, reads⟩ := expression
  refine ⟨size, fun deep large sameTyped sameFlags runs ends => ?_⟩
  have means := reads deep large sameTyped sameFlags runs ends
  obtain ⟨opens, noDots⟩ := means.opens
  obtain ⟨read, ⟨found, met, bare⟩, meant⟩ := means
  refine ⟨opens, found, ?_, by rw [Tree.sense, bare, meant]⟩
  rw [Parser.argument, atMark_bind, noDots]
  exact met

/-- An expression with dots in front is a spread. -/
theorem IsExpression.spread
    (expression : IsExpression typed flags tokens tree)
    {item : P Tree}
    (spreads : ∀ {goals : Goal → Step Tree} {state : State}, state.token.isMark "..." = true →
      item goals state = spreadElement goals state) :
    IsItem item typed flags (.mark "..." :: tokens) (.made .spread [tree]) := by
  obtain ⟨size, reads⟩ := expression
  refine ⟨size, fun {depth state after} deep large sameTyped sameFlags runs ends => ?_⟩
  obtain ⟨dots, inside⟩ := runs
  obtain ⟨read, ⟨found, met, bare⟩, meant⟩ := @reads depth state.next after deep large sameTyped sameFlags inside ends
  have isDots : state.token.isMark "..." = true := by
    rw [dots]
    rfl
  have wanted : want (.assignment true) (reach depth) state.next = some (found, after) := met
  refine ⟨by rw [dots]; decide, .node .spread ⟨state.start, after.lastStop⟩ [found], ?_, ?_⟩
  · rw [spreads isDots, spreadElement, here_bind, bind_of_some (expect_eq isDots), bind_of_some wanted]
    rfl
  · have same : found.sense = tree.sense := by
      rw [Tree.sense, bare, meant]
    rw [Tree.sense_node .spread (by simp), Tree.sense_made .spread (by simp), List.map_singleton, List.map_singleton, same]

/-! ## Operands -/

/-- What ends an item ends everything in it. -/
theorem ends_of_endsItem
    {token : Token}
    (ends : token.endsItem = true) :
    endsAssignment token = true ∧ endsOperation 1 token = true ∧ token.goesOn = false := by
  simp only [Token.endsItem, List.any_cons, List.any_nil, Bool.or_false, Bool.or_eq_true] at ends
  have same {text : String} (isMark : token.isMark text = true) : token = .mark text := by
    cases token with
    | mark got =>
        rw [eq_of_beq isMark]
    | _ => cases isMark
  rcases ends with comma | parenthesis | brace
  · rw [same comma]
    decide
  · rw [same parenthesis]
    decide
  · rw [same brace]
    decide

/-- A primary expression in front of the end of an item is all of it. -/
theorem reads_of_primary
    {depth : Nat}
    {state after : State}
    {found : Tree}
    (starts : state.token.startsOperand = true)
    (read : primary (reach depth) state = some (found, after))
    (filled : 0 < after.budget)
    (ends : after.token.endsItem = true) :
    Reads (depth + 4) (.assignment true) state after found.bare := by
  obtain ⟨assignmentEnds, operationEnds, chainEnds⟩ := ends_of_endsItem ends
  have operandEnds : endsOperand after.token = true := by
    simp only [endsOperation, Bool.and_eq_true] at operationEnds
    exact operationEnds.1.1
  have alone := prolongs_of_endsOperand operandEnds
  rw [State.prolongs, Bool.or_eq_false_iff] at alone
  have leftHanded : leftHand (reach depth) state = some (found, after) := by
    obtain ⟨count, budget⟩ : ∃ count, after.budget = count + 1 :=
      Nat.exists_eq_succ_of_ne_zero (Nat.ne_of_gt filled)
    rw [leftHand, here_bind, bind_of_some read]
    refine suffixes_eq ?_
    rw [budget, roundTrips_done (link_done alone.1 state.start found)]
  have operand : Reads (depth + 2) .unary state after found.bare :=
    ⟨found, @unary_eq (reach (depth + 1)) state after starts found leftHanded alone.2, rfl⟩
  exact reads_assignment starts (reads_operation starts operand filled 1 operationEnds) assignmentEnds true

theorem Operand.bare_eq
    (operand : Operand tokens tree) :
    tree.bare = tree := by
  induction operand with
  | atom atom =>
      rcases Token.kind_of_atom? atom with
        rfl | rfl | ⟨text, rfl⟩ | ⟨value, rfl⟩ | ⟨value, escaped, rfl⟩ <;> rfl
  | member object name inductionHypothesis =>
      rw [Tree.made, Tree.bare_node, List.map_cons, inductionHypothesis]
      rfl
  | @call tokens tree arguments callee each inductionHypothesis inductionHypotheses =>
      have all : (arguments.map Prod.snd).map Tree.bare = arguments.map Prod.snd := by
        rw [List.map_map]
        exact List.map_congr_left inductionHypotheses
      rw [Tree.made, Tree.bare_node, List.map_cons, List.map_cons, inductionHypothesis, all]
      rfl

/-- An operand is an expression. -/
theorem isExpression_operand
    (operand : Operand tokens tree) :
    IsExpression typed flags tokens tree := by
  refine ⟨4 * tokens.length + 5, fun {depth state after} deep large _ _ runs ends => ?_⟩
  obtain ⟨assignmentEnds, operationEnds, -⟩ := ends_of_endsItem ends
  obtain ⟨shallow, rfl⟩ : ∃ shallow, depth = shallow + 4 := ⟨depth - 4, by omega⟩
  obtain ⟨kind, atom⟩ := operand.chained.atom_of_runs runs
  have chain := operand.chained.chain shallow (by omega) (by omega) runs
  have operation := chain.reads_operation (by omega) (by omega) 1 operationEnds
  exact ⟨tree, reads_assignment (Token.startsOperand_of_atom? atom) operation assignmentEnds true,
    by rw [Tree.sense, operand.bare_eq]⟩

/-- A string is an expression. -/
theorem isExpression_string
    (value : Text) :
    IsExpression typed flags [.string value false] (.made (.stringLiteral value false) []) :=
  isExpression_operand (.atom rfl)

theorem isExpression_null :
    IsExpression typed flags [.word "null".toList false] (.made .nullLiteral []) :=
  isExpression_operand (.atom rfl)

theorem isExpression_true :
    IsExpression typed flags [.word "true".toList false] (.made (.boolLiteral true) []) := by
  refine ⟨4, fun {depth state after} deep large _ _ runs ends => ?_⟩
  obtain ⟨token, rfl⟩ := runs
  obtain ⟨shallow, rfl⟩ : ∃ shallow, depth = shallow + 4 := ⟨depth - 4, by omega⟩
  have starts : state.token.startsOperand = true := by
    rw [token]
    decide
  have read : primary (reach shallow) state =
      some (.node (.boolLiteral true) ⟨state.start, state.next.lastStop⟩ [], state.next) := by
    rw [primary, get_bind, token]
    change literal (reach shallow) state = _
    rw [literal, get_bind, token]
    change (advance >>= _) _ _ = _
    rw [bind_of_some (advance_eq (isDisguised_of_word token))]
    rfl
  exact ⟨_, reads_of_primary starts read (by rw [next_budget]; omega) ends, rfl⟩

/-! ## Calls -/

/-- An operand with arguments behind it is read as a call. -/
theorem reads_call
    {callee : Tree}
    (operand : Operand tokens callee)
    (each : ∀ part ∈ parts, IsItem argument typed flags part.1 part.2) :
    ∃ size, ∀ {depth : Nat} {state after : State},
      size ≤ depth → size ≤ state.budget → state.typed = typed → bracketed state.flags = bracketed flags →
        Runs (tokens ++ Token.mark "(" :: (commas (parts.map Prod.fst) ++ [Token.mark ")"])) state after →
          ∃ length read, length ≤ state.budget ∧ ChainAt depth length state after read ∧
            read.longhand = (Tree.made (.call false false) (callee :: .absent :: parts.map Prod.snd)).sense := by
  obtain ⟨size, reads⟩ := reads_items each (List.mem_cons_self ..)
  refine ⟨max size (4 * tokens.length + 1), fun {depth state after} deep large sameTyped sameFlags runs => ?_⟩
  obtain ⟨middle, first, inside⟩ := runs_append.mp runs
  have kept := first.kept
  have chain := operand.chained.chain depth (by omega) (by omega) first
  obtain ⟨few, eachRead⟩ := @reads depth (middle.flagged (bracketed middle.flags)) (by omega)
    (by change size ≤ middle.budget; omega) (kept.2.2.trans sameTyped)
    (by change bracketed middle.flags = _; rw [kept.1]; exact sameFlags)
  have listed : Runs
      (.mark "(" :: (commas ((parts.map fun part => (part.1, part.2.sense)).map Prod.fst) ++ [Token.mark ")"]))
      middle after := by
    rw [List.map_map]
    exact inside
  obtain ⟨all, found, meant⟩ := argumentList_eq eachRead (by rw [List.length_map]; exact few) listed
  refine ⟨tokens.length + 1, _, by omega, chain.call inside.1 found inside.kept.2.1, ?_⟩
  have same : (all.map Tree.bare).map Tree.longhand = (parts.map Prod.snd).map Tree.sense := by
    rw [List.map_map] at meant ⊢
    rw [List.map_map]
    exact meant
  have sameCallee : callee.longhand = callee.sense := by
    rw [Tree.sense, operand.bare_eq]
  rw [Tree.longhand_made, Tree.sense_made (.call false false) (by simp), List.map_cons, List.map_cons, List.map_cons, List.map_cons,
    same, sameCallee]
  rfl

/-- A call is an expression. -/
theorem isExpression_call
    {callee : Tree}
    (operand : Operand tokens callee)
    (each : ∀ part ∈ parts, IsItem argument typed flags part.1 part.2) :
    IsExpression typed flags (tokens ++ Token.mark "(" :: (commas (parts.map Prod.fst) ++ [Token.mark ")"]))
      (.made (.call false false) (callee :: .absent :: parts.map Prod.snd)) := by
  obtain ⟨size, reads⟩ := reads_call operand each
  refine ⟨size + 5, fun {depth state after} deep large sameTyped sameFlags runs ends => ?_⟩
  obtain ⟨assignmentEnds, operationEnds, -⟩ := ends_of_endsItem ends
  obtain ⟨shallow, rfl⟩ : ∃ shallow, depth = shallow + 4 := ⟨depth - 4, by omega⟩
  obtain ⟨length, read, short, chain, meant⟩ :=
    @reads shallow state after (by omega) (by omega) sameTyped (by rw [sameFlags]; rfl) runs
  obtain ⟨kind, atom⟩ := chain.atom
  have operation := chain.reads_operation short (by omega) 1 operationEnds
  exact ⟨read, reads_assignment (Token.startsOperand_of_atom? atom) operation assignmentEnds true, meant⟩

/-! ## Properties -/

/-- An item of an object. -/
def objectItem : P Tree := do
  if ← atMark "..." then spreadElement else objectProperty

/-- Where nothing is found, the state stays as it was. -/
theorem attemptOption_eq_none
    {α : Type}
    {parser : P (Option α)}
    {goals : Goal → Step Tree}
    {state : State}
    (lost : ∃ after, parser goals state = some (none, after)) :
    attemptOption parser goals state = some (none, state) := by
  obtain ⟨after, found⟩ := lost
  simp only [attemptOption, found]

/-- Behind the name of a property there is no other name. -/
theorem follows_of_endsKey
    {token : Token}
    (ends : token.endsKey = true) :
    ∃ text ∈ [":", ",", ")", "\x7d"], token = .mark text := by
  obtain ⟨text, member, isMark⟩ := List.any_eq_true.mp ends
  refine ⟨text, member, ?_⟩
  cases token with
  | mark got =>
      rw [eq_of_beq isMark]
  | _ => cases isMark

/-- What stands behind the name of a property follows no modifier. -/
theorem isMark_of_endsKey
    {token : Token}
    (ends : token.endsKey = true)
    {text : String}
    (other : text ∉ [":", ",", ")", "\x7d"]) :
    token.isMark text = false := by
  obtain ⟨got, member, rfl⟩ := follows_of_endsKey ends
  apply Bool.eq_false_iff.mpr
  intro same
  rw [Token.isMark, beq_iff_eq] at same
  exact other (same ▸ member)

section

variable
  {goals : Goal → Step Tree}
  {state : State}
  (ends : state.next.token.endsKey = true)

include ends

/-- A name is no modifier in front of what ends it. -/
theorem modifier?_eq :
    modifier? [] goals state = some (none, state) := by
  let moved : State := { state.next with faulty := state.next.faulty || state.isDisguised }
  have advanced : advance goals state = some ((), moved) := rfl
  have isMark {text : String} (other : text ∉ [":", ",", ")", "\x7d"]) : moved.token.isMark text = false :=
    @isMark_of_endsKey state.next.token ends text other
  have follows : canFollowModifier goals moved = some (false, moved) := by
    obtain ⟨text, -, token⟩ := follows_of_endsKey ends
    have here : moved.token = .mark text := token
    rw [canFollowModifier, get_bind, isMark (by decide), isMark (by decide), isMark (by decide), isMark (by decide),
      here]
    rfl
  refine attemptOption_eq_none ?_
  rw [get_bind]
  cases here : state.token with
  | word word escaped =>
      cases found : modifierOf? word with
      | none =>
          refine ⟨state, ?_⟩
          simp only [found]
          rfl
      | some modifier =>
          refine ⟨moved, ?_⟩
          simp only [found]
          rw [bind_of_some advanced, atMark_bind, isMark (by decide), Bool.and_false, if_neg Bool.false_ne_true,
            List.contains_nil, Bool.and_false, if_neg Bool.false_ne_true, get_bind]
          split
          next => rfl
          next =>
            rw [bind_of_some follows]
            rfl
  | _ =>
      exact ⟨state, rfl⟩

theorem modifiers_eq
    (filled : 0 < state.budget) :
    modifiers goals state = some ([], state) := by
  obtain ⟨count, budget⟩ : ∃ count, state.budget = count + 1 :=
    Nat.exists_eq_succ_of_ne_zero (Nat.ne_of_gt filled)
  rw [modifiers, rounds_eq, budget]
  apply roundTrips_done
  rw [bind_of_some (modifier?_eq ends)]
  rfl

/-- A name is no accessor in front of what ends it. -/
theorem accessorRole?_eq :
    accessorRole? goals state = some (none, state) := by
  obtain ⟨text, -, token⟩ := follows_of_endsKey ends
  let moved : State := { state.next with faulty := state.next.faulty || state.isDisguised }
  have advanced : advance goals state = some ((), moved) := rfl
  have here : moved.token = .mark text := token
  have noBracket : moved.token.isMark "[" = false :=
    @isMark_of_endsKey state.next.token ends "[" (by decide)
  have noRole
      (role : MethodRole)
      {isPrivate : State → Bool}
      (isMark : isPrivate moved = false) :
      ∃ after, (advance >>= fun _ => get >>= fun after =>
        if (after.token.isPropertyName || after.token.isMark "[" || isPrivate after) = true then
          pure (some role)
        else pure none : P (Option MethodRole)) goals state = some (none, after) := by
    refine ⟨moved, ?_⟩
    rw [bind_of_some advanced, get_bind, noBracket, isMark, here]
    rfl
  refine attemptOption_eq_none ?_
  rw [get_bind]
  by_cases gets : state.token.isWord "get" = true
  · simp only [gets, if_true]
    exact noRole .getter (by simp only [here])
  · by_cases sets : state.token.isWord "set" = true
    · simp only [gets, sets, if_true]
      exact noRole .setter (by simp only [here])
    · simp only [gets, sets]
      exact ⟨state, rfl⟩

end

/-- What a token stands for as the name of a property. -/
def keyKind? : Token → Option Kind
  | .word text false => some (.name text)
  | .string value false => some (.stringLiteral value false)
  | _ => none

section

variable
  {goals : Goal → Step Tree}
  {state after : State}
  {kind : Kind}
  (named : keyKind? state.token = some kind)

include named

/-- A name of a property. -/
theorem propertyKey_eq :
    propertyKey goals state =
      some ((.node kind ⟨state.start, state.next.lastStop⟩ [], false), state.next) := by
  rw [propertyKey, get_bind]
  cases token : state.token with
  | word text escaped =>
      rw [token] at named
      cases escaped with
      | true =>
          cases named
      | false =>
          obtain rfl := Option.some.inj named
          have taken : takeWord goals state = some (text, state.next) := by
            rw [takeWord, get_bind, token]
            rfl
          have word : propertyWord goals state =
              some (.node (.name text) ⟨state.start, state.next.lastStop⟩ [], state.next) := by
            rw [propertyWord, here_bind, bind_of_some taken]
            rfl
          change (propertyWord >>= fun key => pure (key, false)) goals state = _
          rw [bind_of_some word]
          rfl
  | string value escaped =>
      rw [token] at named
      cases escaped with
      | true =>
          cases named
      | false =>
          obtain rfl := Option.some.inj named
          have undisguised : state.isDisguised = false := by
            rw [State.isDisguised, token]
          have string : literal goals state =
              some (.node (.stringLiteral value false) ⟨state.start, state.next.lastStop⟩ [], state.next) := by
            rw [literal, get_bind, token]
            change stringLiteral goals state = _
            rw [stringLiteral, get_bind, token]
            change (advance >>= _) _ _ = _
            rw [bind_of_some (advance_eq undisguised)]
            rfl
          change (literal >>= fun key => pure (key, false)) goals state = _
          rw [bind_of_some string]
          rfl
  | _ =>
      rw [token] at named
      cases named

theorem kind_of_keyKind? :
    (∃ text, kind = .name text) ∨ ∃ value, kind = .stringLiteral value false := by
  unfold keyKind? at named
  split at named
  next text _ =>
    exact .inl ⟨text, (Option.some.inj named).symm⟩
  next value _ =>
    exact .inr ⟨value, (Option.some.inj named).symm⟩
  next =>
    cases named

theorem isMark_of_keyKind?
    (text : String) :
    state.token.isMark text = false := by
  cases token : state.token with
  | mark got =>
      rw [token] at named
      cases named
  | _ => rfl

theorem endsItem_of_keyKind? :
    state.token.endsItem = false := by
  simp [Token.endsItem, isMark_of_keyKind? named]

theorem objectItem_eq :
    objectItem goals state = objectProperty goals state := by
  rw [objectItem, atMark_bind, isMark_of_keyKind? named]
  rfl

/-- A value behind the name of a property and a colon is read as its value. -/
theorem objectProperty_of_value
    {found : Tree}
    (colon : state.next.token = .mark ":")
    (filled : 0 < state.budget)
    (read : goals (.assignment true) state.next.next = some (found, after)) :
    objectProperty goals state =
      some (.node (.property .plain false false false) ⟨state.start, after.lastStop⟩
        [.node kind ⟨state.start, state.next.lastStop⟩ [], found], after) := by
  have isColon : state.next.token.isMark ":" = true := by
    rw [colon]
    rfl
  have ends : state.next.token.endsKey = true := by
    rw [colon]
    decide
  have opens : ["(", "<"].any state.next.token.isMark = false := by
    rw [colon]
    decide
  have wanted : want (.assignment true) goals state.next.next = some (found, after) := read
  rw [objectProperty, here_bind, bind_of_some (modifiers_eq ends filled)]
  change (accessorRole? >>= _) _ _ = _
  rw [bind_of_some (accessorRole?_eq ends)]
  change (eat "*" >>= _) _ _ = _
  rw [bind_of_some (eat_eq_false (isMark_of_keyKind? named "*")), get_bind, bind_of_some (propertyKey_eq named)]
  have noFault : faultIf false goals state.next = some ((), state.next) := rfl
  rcases kind_of_keyKind? named with ⟨text, rfl⟩ | ⟨value, rfl⟩ <;>
  · change (faultIf false >>= _) goals state.next = _
    rw [bind_of_some noFault]
    rw [atOneOf_bind, opens]
    change (atMark ":" >>= _) goals state.next = _
    rw [atMark_bind, isColon, Bool.not_true, Bool.and_false]
    change (expect ":" >>= _) goals state.next = _
    rw [bind_of_some (expect_eq isColon), bind_of_some wanted]
    rfl

omit named in
/-- A name by itself is read as a property with the value of the variable. -/
theorem objectProperty_of_name
    {text : Text}
    (word : state.token = .word text false)
    (stands : Token.isVariable text = true)
    (inside : state.next.token.endsKey = true)
    (colon : state.next.token.isMark ":" = false)
    (filled : 0 < state.budget) :
    objectProperty goals state =
      some (.node (.property .plain false true false) ⟨state.start, state.next.lastStop⟩
        [.node (.name text) ⟨state.start, state.next.lastStop⟩ [],
          .node (.identifier text) ⟨state.start, state.next.lastStop⟩ []], state.next) := by
  have named : keyKind? state.token = some (.name text) := by
    rw [word]
    rfl
  have other {mark : String} (differs : mark ∉ [":", ",", ")", "\x7d"]) : state.next.token.isMark mark = false :=
    isMark_of_endsKey inside differs
  have opens : ["(", "<"].any state.next.token.isMark = false := by
    simp [@other "(" (by decide), @other "<" (by decide)]
  simp only [Token.isVariable, Bool.and_eq_true, bne_iff_ne, Bool.not_eq_true'] at stands
  obtain ⟨⟨free, noAwait⟩, noYield⟩ := stands
  rw [objectProperty, here_bind, bind_of_some (modifiers_eq inside filled)]
  change (accessorRole? >>= _) _ _ = _
  rw [bind_of_some (accessorRole?_eq inside)]
  change (eat "*" >>= _) _ _ = _
  rw [bind_of_some (eat_eq_false (isMark_of_keyKind? named "*")), get_bind, bind_of_some (propertyKey_eq named)]
  have noFault : faultIf false goals state.next = some ((), state.next) := rfl
  change (faultIf false >>= _) goals state.next = _
  rw [bind_of_some noFault]
  rw [atOneOf_bind, opens]
  change (atMark ":" >>= _) goals state.next = _
  rw [atMark_bind, colon, word]
  simp only [free, beq_eq_false_iff_ne.mpr noAwait, beq_eq_false_iff_ne.mpr noYield, Bool.and_false, Bool.not_false,
    Bool.and_true]
  rw [bind_of_some (eat_eq_false (other (by decide)))]
  rfl

end

/-- What ends an item ends the name of a property. -/
theorem endsKey_of_endsItem
    {token : Token}
    (ends : token.endsItem = true) :
    token.endsKey = true ∧ token.isMark ":" = false := by
  obtain ⟨text, member, isMark⟩ := List.any_eq_true.mp ends
  refine ⟨List.any_eq_true.mpr ⟨text, List.mem_cons_of_mem _ member, isMark⟩, ?_⟩
  cases token with
  | mark got =>
      obtain rfl := eq_of_beq isMark
      simp only [List.mem_cons, List.not_mem_nil, or_false] at member
      rcases member with rfl | rfl | rfl <;> rfl
  | _ => rfl

/-- A name, a colon and an expression are a property. -/
theorem isItem_property
    {key : Token}
    {kind : Kind}
    (named : keyKind? key = some kind)
    (value : IsExpression typed flags tokens tree) :
    IsItem objectItem typed flags (key :: .mark ":" :: tokens)
      (.made (.property .plain false false false) [.made kind [], tree]) := by
  obtain ⟨size, reads⟩ := value
  refine ⟨size + 1, fun {depth state after} deep large sameTyped sameFlags runs ends => ?_⟩
  obtain ⟨token, colon, inside⟩ := runs
  obtain ⟨read, ⟨found, met, bare⟩, meant⟩ :=
    @reads depth state.next.next after (by omega) (by simp only [next_budget]; omega) sameTyped sameFlags inside ends
  have namedHere : keyKind? state.token = some kind := by
    rw [token]
    exact named
  have property := @objectProperty_of_value (reach depth) state after kind namedHere found colon (by omega) met
  refine ⟨endsItem_of_keyKind? namedHere, _, (objectItem_eq namedHere).trans property, ?_⟩
  · have same : found.sense = tree.sense := by
      rw [Tree.sense, bare, meant]
    have sameKey (span : Span) : (Tree.node kind span []).sense = (Tree.made kind []).sense := by
      rcases kind_of_keyKind? namedHere with ⟨text, rfl⟩ | ⟨value, rfl⟩ <;> rfl
    rw [Tree.sense_node (.property ..) (by simp), Tree.sense_made (.property ..) (by simp), List.map_cons, List.map_singleton, List.map_cons,
      List.map_singleton, same, sameKey]

/-- The name of a variable is a property with its value. -/
theorem isItem_shorthand
    {text : Text}
    (stands : Token.isVariable text = true) :
    IsItem objectItem typed flags [.word text false]
      (.made (.property .plain false false false) [.made (.name text) [], .made (.identifier text) []]) := by
  refine ⟨1, fun {depth state after} _ large _ _ runs ends => ?_⟩
  obtain ⟨token, rfl⟩ := runs
  have named : keyKind? state.token = some (.name text) := by
    rw [token]
    rfl
  obtain ⟨inside, colon⟩ := endsKey_of_endsItem ends
  have property := @objectProperty_of_name (reach depth) state text token stands inside colon large
  refine ⟨endsItem_of_keyKind? named, _, (objectItem_eq named).trans property, ?_⟩
  rw [Tree.sense_node (.property ..) (by simp), Tree.sense_made (.property ..) (by simp)]
  rfl

/-- An object with its properties is an expression. -/
theorem isExpression_object
    (each : ∀ part ∈ parts, IsItem objectItem typed flags part.1 part.2) :
    IsExpression typed flags (.mark "\x7b" :: (commas (parts.map Prod.fst) ++ [Token.mark "\x7d"]))
      (.made .object (parts.map Prod.snd)) := by
  obtain ⟨size, reads⟩ := reads_items each (List.mem_cons_of_mem _ (List.mem_singleton_self _))
  refine ⟨size + 5, fun {depth state after} deep large sameTyped sameFlags runs ends => ?_⟩
  obtain ⟨opens, inside⟩ := runs
  obtain ⟨middle, inner, closes, rfl⟩ := runs_append.mp inside
  obtain ⟨shallow, rfl⟩ : ∃ shallow, depth = shallow + 4 := ⟨depth - 4, by omega⟩
  have opening : state.token.isMark "\x7b" = true := by
    rw [opens]
    rfl
  have closing : middle.token.isMark "\x7d" = true := by
    rw [closes]
    rfl
  have starts : state.token.startsOperand = true := by
    rw [opens]
    rfl
  have budget : middle.budget = state.budget := inner.kept.2.1
  obtain ⟨few, eachRead⟩ := @reads shallow (state.next.flagged (bracketed state.next.flags)) (by omega)
    (by change size ≤ state.budget; omega) sameTyped (by change bracketed state.flags = _; rw [sameFlags]; rfl)
  have listed : Runs (commas ((parts.map fun part => (part.1, part.2.sense)).map Prod.fst))
      (state.next.flagged (bracketed state.next.flags)) (middle.flagged (bracketed state.next.flags)) := by
    rw [List.map_map]
    exact inner.flagged _
  obtain ⟨all, found, meant⟩ := commaList_eq (by decide) eachRead (by rw [List.length_map]; exact few) listed closes
  have object : primary (reach shallow) state =
      some (.node .object ⟨state.start, middle.next.lastStop⟩ all, middle.next) := by
    rw [primary, get_bind, opens]
    change objectLiteral (reach shallow) state = _
    have items : commaList "\x7d" objectItem (reach shallow) (state.next.flagged (bracketed state.next.flags)) = _ :=
      found
    rw [objectLiteral, here_bind, bind_of_some (expect_eq opening)]
    change (withFlags bracketed (commaList "\x7d" objectItem) >>= _) _ _ = _
    rw [bind_of_some (withFlags_eq inner.kept.1 items)]
    change (expect "\x7d" >>= _) _ _ = _
    rw [bind_of_some (expect_eq closing)]
    rfl
  refine ⟨_, reads_of_primary starts object (by rw [next_budget]; omega) ends, ?_⟩
  have same : all.map Tree.sense = (parts.map Prod.snd).map Tree.sense := by
    rw [meant, List.map_map, List.map_map]
    rfl
  change (Tree.node .object _ all).sense = _
  rw [Tree.sense_node .object (by simp), Tree.sense_made .object (by simp), same]

end Parser

end LiveComponent
