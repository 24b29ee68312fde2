import LiveComponent.Proofs.TokenRuns

namespace LiveComponent

/-!
# How operands are read

An operand is a name or a literal with the members and calls behind it.  Nothing in front of it or behind it
reaches into it, unless a token behind it goes on with the chain.  So wherever an operand of any operator is wanted, its
tokens are read as the operand.
-/

namespace Token

/-- Words that may start something else than a name in front of a statement or an expression. -/
def openingWords : List Text :=
  ["async", "await", "yield", "let", "using", "interface", "type", "module", "namespace", "declare", "enum",
    "private", "protected", "public", "abstract", "accessor", "static", "readonly", "global"].map
    String.toList

/-- Whether the word is a name wherever an expression may start. -/
def isFree (text : Text) : Bool :=
  !isReserved text && !openingWords.contains text

/-- What the token stands for, if it is an expression on its own. -/
def atom? : Token → Option Kind
  | word text false =>
    if text == "this".toList then some .this
    else if text == "null".toList then some .nullLiteral
    else if isFree text then some (.identifier text)
    else none
  | number value => some (.numberLiteral value)
  | string value escaped => some (.stringLiteral value escaped)
  | _ => none

/-- Whether an operand starts with the token that is no markup and no function, and no operator in front of one. -/
def startsOperand : Token → Bool
  | word text escaped =>
    !escaped && !(["async", "await", "yield", "typeof", "void", "delete"].map String.toList).contains text
  | number _ => true
  | string .. => true
  | mark text => text == "\x7b"
  | _ => false

/-- Whether the chain of members and calls goes on with the token. -/
def goesOn : Token → Bool
  | mark text => ["?.", ".", "[", "(", "!", "<", "<<"].contains text
  | template .. => true
  | _ => false

variable {token : Token} {kind : Kind}

/-- An expression on its own is none of the other words. -/
theorem isWord_of_atom?
    (atom : token.atom? = some kind)
    {text : String}
    (other : (word text.toList false).atom?.isNone = true) :
    token.isWord text = false := by
  cases token with
  | word got escaped =>
      apply Bool.eq_false_iff.mpr
      intro same
      rw [isWord, beq_iff_eq] at same
      subst same
      cases escaped with
      | false =>
          rw [atom] at other
          cases other
      | true =>
          cases atom
  | _ => rfl

theorem isMark_of_atom?
    (atom : token.atom? = some kind)
    (text : String) :
    token.isMark text = false := by
  cases token with
  | mark got =>
      cases atom
  | _ => rfl

/-- What stands for an expression on its own. -/
theorem kind_of_atom?
    (atom : token.atom? = some kind) :
    kind = .this ∨ kind = .nullLiteral ∨ (∃ text, kind = .identifier text) ∨
      (∃ value, kind = .numberLiteral value) ∨ ∃ value escaped, kind = .stringLiteral value escaped := by
  unfold atom? at atom
  split at atom
  next text =>
    split at atom
    · exact .inl (Option.some.inj atom).symm
    · split at atom
      · exact .inr (.inl (Option.some.inj atom).symm)
      · split at atom
        · exact .inr (.inr (.inl ⟨text, (Option.some.inj atom).symm⟩))
        · cases atom
  next value =>
    exact .inr (.inr (.inr (.inl ⟨value, (Option.some.inj atom).symm⟩)))
  next value escaped =>
    exact .inr (.inr (.inr (.inr ⟨value, escaped, (Option.some.inj atom).symm⟩)))
  next =>
    cases atom

/-- An expression on its own is an operand. -/
theorem startsOperand_of_atom?
    (atom : token.atom? = some kind) :
    token.startsOperand = true := by
  cases token with
  | word text escaped =>
      cases escaped with
      | true =>
          cases atom
      | false =>
          have none : ∀ word ∈ ["async", "await", "yield", "typeof", "void", "delete"].map String.toList,
              (Token.word word false).atom?.isNone = true := by
            decide
          have other : (["async", "await", "yield", "typeof", "void", "delete"].map String.toList).contains text =
              false := by
            apply Bool.eq_false_iff.mpr
            intro among
            have lost := none text (List.contains_iff_mem.mp among)
            rw [atom] at lost
            cases lost
          rw [startsOperand, other]
          rfl
  | number | string =>
      rfl
  | eof | privateName | mark | bigint | template | markupText | bad =>
      cases atom

/-- An operand starts with none of the other words. -/
theorem isWord_of_startsOperand
    (starts : token.startsOperand = true)
    {text : String}
    (other : (word text.toList false).startsOperand = false) :
    token.isWord text = false := by
  cases token with
  | word got escaped =>
      apply Bool.eq_false_iff.mpr
      intro same
      rw [isWord, beq_iff_eq] at same
      subst same
      cases escaped with
      | false =>
          rw [starts] at other
          cases other
      | true =>
          cases starts
  | _ => rfl

/-- An operand starts with none of the other marks. -/
theorem isMark_of_startsOperand
    (starts : token.startsOperand = true)
    {text : String}
    (other : (mark text).startsOperand = false) :
    token.isMark text = false := by
  cases token with
  | mark got =>
      apply Bool.eq_false_iff.mpr
      intro same
      rw [isMark, beq_iff_eq] at same
      subst same
      rw [starts] at other
      cases other
  | _ => rfl

end Token

namespace Parser

variable {goals : Goal → Step Tree} {state after : State} {kind : Kind} {tokens : List Token} {tree : Tree}

/-! ## Expressions on their own -/

section

variable (atom : state.token.atom? = some kind)

include atom

theorem isDisguised_of_atom? :
    state.isDisguised = false := by
  unfold State.isDisguised
  split
  next text token =>
    rw [token] at atom
    cases atom
  next =>
    rfl

theorem atAsyncFunction_of_atom? :
    atAsyncFunction goals state = some (false, state) := by
  rw [atAsyncFunction, atWord_bind, Token.isWord_of_atom? atom (by decide)]
  rfl

omit atom in
/-- A free name is taken as the name of a variable, whatever the flags are. -/
theorem takes_name
    {text : Text}
    (token : state.token = .word text false)
    (free : Token.isFree text = true) :
    state.token.isBindable = true ∧ takeWord goals state = some (text, state.next) ∧
      checkName state.flags text goals state.next = some ((), state.next) := by
  rw [Token.isFree, Bool.and_eq_true, Bool.not_eq_true', Bool.not_eq_true'] at free
  have other (word : String) (opening : Token.openingWords.contains word.toList = true) :
      (text == word.toList) = false := by
    apply beq_eq_false_iff_ne.mpr
    rintro rfl
    rw [free.2] at opening
    cases opening
  refine ⟨?_, ?_, ?_⟩
  · rw [token, Token.isBindable, free.1]
    rfl
  · rw [takeWord, get_bind, token]
    rfl
  · rw [checkName, other "await" (by decide), other "yield" (by decide), Bool.and_false, Bool.and_false]
    rfl

omit atom in
theorem identifier_eq
    {text : Text}
    (token : state.token = .word text false)
    (free : Token.isFree text = true) :
    identifier goals state = some (.node (.identifier text) ⟨state.start, state.next.lastStop⟩ [], state.next) := by
  obtain ⟨bindable, taken, checked⟩ := @takes_name goals state text token free
  rw [identifier, get_bind, if_pos bindable, bind_of_some taken, bind_of_some checked]
  rfl

omit atom in
theorem bindingName_eq
    {text : Text}
    (token : state.token = .word text false)
    (free : Token.isFree text = true) :
    bindingName goals state = some (.node (.binding text) ⟨state.start, state.next.lastStop⟩ [], state.next) := by
  obtain ⟨bindable, taken, checked⟩ := @takes_name goals state text token free
  rw [bindingName, get_bind, if_pos bindable, bind_of_some taken, bind_of_some checked]
  rfl

/-- A word that is an expression on its own is read as what it stands for. -/
theorem wordExpression_eq
    {text : Text}
    {escaped : Bool}
    (token : state.token = .word text escaped) :
    wordExpression text goals state = some (.node kind ⟨state.start, state.next.lastStop⟩ [], state.next) := by
  have advanced := @advance_eq goals state (isDisguised_of_atom? atom)
  have noFunction := @atAsyncFunction_of_atom? goals state kind atom
  have other (word : String) (leads : (Token.word word.toList false).atom?.isNone = true) :
      (text == word.toList) = false := by
    have differs := Token.isWord_of_atom? atom leads
    rwa [token] at differs
  rw [wordExpression, here_bind]
  simp only [other "function" (by decide), other "class" (by decide), other "new" (by decide),
    other "super" (by decide), other "import" (by decide), other "true" (by decide),
    other "false" (by decide), Bool.or_false, Bool.false_eq_true, if_false]
  rw [token] at atom
  cases escaped with
  | true =>
      cases atom
  | false =>
      rw [Token.atom?] at atom
      by_cases this : (text == "this".toList) = true
      · rw [if_pos this] at atom ⊢
        obtain rfl := Option.some.inj atom
        rw [bind_of_some advanced]
        rfl
      · rw [if_neg this] at atom ⊢
        by_cases null : (text == "null".toList) = true
        · rw [if_pos null] at atom ⊢
          obtain rfl := Option.some.inj atom
          rw [literal, get_bind, token]
          change (advance >>= _) _ _ = _
          rw [bind_of_some advanced, if_pos null]
          rfl
        · rw [if_neg null, Option.ite_none_right_eq_some] at atom
          obtain ⟨free, same⟩ := atom
          obtain rfl := Option.some.inj same
          rw [if_neg null, bind_of_some noFunction]
          exact identifier_eq token free

/-- An expression on its own is read as what it stands for. -/
theorem primary_eq :
    primary goals state = some (.node kind ⟨state.start, state.next.lastStop⟩ [], state.next) := by
  have advanced := @advance_eq goals state (isDisguised_of_atom? atom)
  rw [primary, get_bind]
  cases token : state.token with
  | word text escaped =>
      exact wordExpression_eq atom token
  | number value =>
      rw [token] at atom
      cases atom
      change literal goals state = _
      rw [literal, get_bind, token]
      change (advance >>= _) _ _ = _
      rw [bind_of_some advanced]
      rfl
  | string value escaped =>
      rw [token] at atom
      cases atom
      change literal goals state = _
      rw [literal, get_bind, token]
      change stringLiteral goals state = _
      rw [stringLiteral, get_bind, token]
      change (advance >>= _) _ _ = _
      rw [bind_of_some advanced]
      rfl
  | _ =>
      rw [token] at atom
      cases atom

end

/-! ## Operands -/

/-- Parts of a list of tokens with commas between. -/
def commas : List (List Token) → List Token
  | [] => []
  | [part] => part
  | part :: more => part ++ Token.mark "," :: commas more

/-- The tokens of an operand, and the tree they stand for. -/
inductive Operand : List Token → Tree → Prop where
  | atom {token : Token} {kind : Kind} (atom : token.atom? = some kind) :
      Operand [token] (.made kind [])
  | member {tokens : List Token} {tree : Tree} (object : Operand tokens tree) (name : Text) :
      Operand (tokens ++ [Token.mark ".", .word name false])
        (.made (.member false) [tree, .made (.name name) []])
  | call
      {tokens : List Token}
      {tree : Tree}
      {arguments : List (List Token × Tree)}
      (callee : Operand tokens tree)
      (each : ∀ argument ∈ arguments, Operand argument.1 argument.2) :
      Operand (tokens ++ Token.mark "(" :: (commas (arguments.map Prod.fst) ++ [Token.mark ")"]))
        (.made (.call false false) (tree :: .absent :: arguments.map Prod.snd))

/-- An operand starts with an expression on its own. -/
theorem Operand.opens
    (operand : Operand tokens tree) :
    ∃ token kind rest, tokens = token :: rest ∧ token.atom? = some kind := by
  induction operand with
  | atom atom =>
      exact ⟨_, _, [], rfl, atom⟩
  | member object name inductionHypothesis =>
      obtain ⟨token, kind, rest, rfl, atom⟩ := inductionHypothesis
      exact ⟨token, kind, _, List.cons_append, atom⟩
  | call callee each inductionHypothesis =>
      obtain ⟨token, kind, rest, rfl, atom⟩ := inductionHypothesis
      exact ⟨token, kind, _, List.cons_append, atom⟩

theorem Operand.filled
    (operand : Operand tokens tree) :
    tokens ≠ [] := by
  obtain ⟨token, _, rest, rfl, -⟩ := operand.opens
  exact List.cons_ne_nil token rest

/-! ## Chains -/

/-- One link of a chain. -/
def link (start : Nat) (chain : Tree × Bool) : P (Turn (Tree × Bool) (Tree × Bool)) :=
  suffix start false chain.1 chain.2

theorem suffixes_eq
    {start : Nat}
    {head chain : Tree}
    (linked : roundTrips (link start) state.budget (head, false) goals state = some ((chain, false), after)) :
    suffixes start false head goals state = some (chain, after) := by
  have chained :
      rounds (link start) (head, false) goals state = some ((chain, false), after) := linked
  exact bind_of_some chained

theorem link_member
    {name : Text}
    (point : state.token = .mark ".")
    (word : state.next.token = .word name false)
    (start : Nat)
    (object : Tree) :
    link start (object, false) goals state =
      some (.again (.node (.member false) ⟨start, state.next.next.lastStop⟩
        [object, .node (.name name) ⟨state.next.start, state.next.next.lastStop⟩ []], false),
        state.next.next) := by
  have isPoint : state.token.isMark "." = true := by
    rw [point]
    rfl
  have advanced := @advance_eq goals state (isDisguised_of_isMark isPoint)
  have named : memberName goals state.next =
      some (.node (.name name) ⟨state.next.start, state.next.next.lastStop⟩ [], state.next.next) := by
    rw [memberName, get_bind, word]
    change propertyWord goals state.next = _
    rw [propertyWord, here_bind]
    have taken : takeWord goals state.next = some (name, state.next.next) := by
      rw [takeWord, get_bind, word]
      rfl
    rw [bind_of_some taken]
    rfl
  rw [link, suffix, get_bind, point]
  change (advance >>= _) _ _ = _
  rw [bind_of_some advanced, bind_of_some named]
  rfl

/-- Whether the chain of members and calls goes on with the current token. -/
def State.linksOn (state : State) : Bool :=
  match state.token with
  | .mark text =>
    ["?.", ".", "[", "("].contains text ||
      (state.typed && ((text == "!" && !state.newline) || text == "<" || text == "<<"))
  | .template .. => true
  | _ => false

/-- Whether the current token increments or decrements the expression before it. -/
def State.stepsOn (state : State) : Bool :=
  (state.token.isMark "++" || state.token.isMark "--") && !state.newline

/-- Whether the current token belongs to the operand before it. -/
def State.prolongs (state : State) : Bool :=
  state.linksOn || state.stepsOn

theorem linksOn_of_goesOn
    (ends : state.token.goesOn = false) :
    state.linksOn = false := by
  unfold State.linksOn
  split
  next text token =>
    rw [token] at ends
    have other (mark : String) (among : ["?.", ".", "[", "(", "!", "<", "<<"].contains mark = true) :
        (text == mark) = false := by
      apply beq_eq_false_iff_ne.mpr
      rintro rfl
      rw [Token.goesOn, among] at ends
      cases ends
    simp [beq_eq_false_iff_ne.mp (other "?." (by decide)), beq_eq_false_iff_ne.mp (other "." (by decide)),
      beq_eq_false_iff_ne.mp (other "[" (by decide)), beq_eq_false_iff_ne.mp (other "(" (by decide)),
      other "!" (by decide), other "<" (by decide), other "<<" (by decide)]
  next token =>
    rw [token] at ends
    cases ends
  next =>
    rfl

theorem link_done
    (ends : state.linksOn = false)
    (start : Nat)
    (chain : Tree) :
    link start (chain, false) goals state = some (.done (chain, false), state) := by
  rw [link, suffix, get_bind]
  refine of_choice fun choice chosen => ?_
  split at chosen
  next point =>
    rw [State.linksOn, point] at ends
    cases ends
  next point =>
    rw [State.linksOn, point] at ends
    cases ends
  next point =>
    rw [State.linksOn, point] at ends
    cases ends
  next point =>
    rw [State.linksOn, point] at ends
    cases ends
  next point =>
    rw [State.linksOn, point] at ends
    cases ends
  next mark _ _ _ _ token =>
    simp only [State.linksOn, token, Bool.or_eq_false_iff, Bool.and_eq_false_iff] at ends
    have noBang : (state.typed && mark == "!" && !state.newline) = false := by
      rcases ends.2 with untyped | ⟨⟨bang, -⟩, -⟩
      · rw [untyped]
        rfl
      · rw [Bool.and_assoc]
        rcases bang with other | line
        · rw [other, Bool.false_and, Bool.and_false]
        · rw [line, Bool.and_false, Bool.and_false]
    have noAngle : (state.typed && (mark == "<" || mark == "<<")) = false := by
      rcases ends.2 with untyped | ⟨⟨-, one⟩, two⟩
      · rw [untyped]
        rfl
      · rw [one, two, Bool.or_false, Bool.and_false]
    simp only [noBang, noAngle, Bool.false_eq_true, if_false] at chosen
    subst chosen
    rfl
  next =>
    subst chosen
    rfl

/-- A call with its arguments is a link of the chain. -/
theorem link_call
    {arguments : List Tree}
    (parenthesis : state.token = .mark "(")
    (found : argumentList goals state = some (arguments, after))
    {callee : Tree}
    (bare : splitArguments callee = (callee, .absent))
    (start : Nat) :
    link start (callee, false) goals state =
      some (.again (.node (.call false false) ⟨start, after.lastStop⟩ (callee :: .absent :: arguments), false),
        after) := by
  rw [link, suffix, get_bind, parenthesis]
  simp only [bare]
  change (argumentList >>= _) _ _ = _
  rw [bind_of_some found]
  rfl

/-- An expression on its own and fewer links than the length, which lead from one state to the other, make up the
chain. -/
structure Linked (start depth length : Nat) (state after : State) (chain : Tree) : Prop where
  links : ∃ head entered used,
    primary (reach depth) state = some (head, entered) ∧ used < length ∧ entered.budget = state.budget ∧
      ∀ count, roundTrips (link start) (used + count) (head, false) (reach depth) entered =
        roundTrips (link start) count (chain, false) (reach depth) after
  plain : splitArguments chain = (chain, .absent)
  span : start = state.start → chain.span = ⟨start, after.lastStop⟩

namespace Linked

variable {depth length : Nat} {middle : State} {chain : Tree}

/-- An expression on its own is a chain without links. -/
theorem single
    (start depth : Nat)
    (atom : state.token.atom? = some kind) :
    Linked start depth 1 state state.next (.node kind ⟨state.start, state.next.lastStop⟩ []) where
  links := ⟨_, state.next, 0, primary_eq atom, Nat.zero_lt_one, rfl, fun count => by rw [Nat.zero_add]⟩
  plain := by
    rcases Token.kind_of_atom? atom with
      rfl | rfl | ⟨text, rfl⟩ | ⟨value, rfl⟩ | ⟨value, escaped, rfl⟩ <;> rfl
  span := fun same => by rw [same, Tree.span]

/-- One more link makes the chain longer. -/
theorem again
    {start : Nat}
    (linked : Linked start depth length state middle chain)
    {kind : Kind}
    {parts : List Tree}
    (goesOn : link start (chain, false) (reach depth) middle =
      some (.again (.node kind ⟨start, after.lastStop⟩ parts, false), after))
    (plain : splitArguments (.node kind ⟨start, after.lastStop⟩ parts) =
      (.node kind ⟨start, after.lastStop⟩ parts, .absent)) :
    Linked start depth (length + 1) state after (.node kind ⟨start, after.lastStop⟩ parts) where
  links := by
    obtain ⟨head, entered, used, found, short, budget, linked⟩ := linked.links
    refine ⟨head, entered, used + 1, found, Nat.succ_lt_succ short, budget, fun count => ?_⟩
    have total : used + 1 + count = used + (count + 1) := by omega
    rw [total, linked, roundTrips_again goesOn]
  plain := plain
  span := fun _ => rfl

theorem member
    {start : Nat}
    (linked : Linked start depth length state middle chain)
    {name : Text}
    (point : middle.token = .mark ".")
    (word : middle.next.token = .word name false) :
    Linked start depth (length + 1) state middle.next.next
      (.node (.member false) ⟨start, middle.next.next.lastStop⟩
        [chain, .node (.name name) ⟨middle.next.start, middle.next.next.lastStop⟩ []]) :=
  linked.again (link_member point word start chain) rfl

theorem call
    {start : Nat}
    (linked : Linked start depth length state middle chain)
    (parenthesis : middle.token = .mark "(")
    {arguments : List Tree}
    (found : argumentList (reach depth) middle = some (arguments, after)) :
    Linked start depth (length + 1) state after
      (.node (.call false false) ⟨start, after.lastStop⟩ (chain :: .absent :: arguments)) :=
  linked.again (link_call parenthesis found linked.plain start) rfl

theorem longer
    {start : Nat}
    (linked : Linked start depth length state after chain)
    {bound : Nat}
    (le : length ≤ bound) :
    Linked start depth bound state after chain :=
  { linked with
    links := by
      obtain ⟨head, entered, used, found, short, further⟩ := linked.links
      exact ⟨head, entered, used, found, Nat.lt_of_lt_of_le short le, further⟩ }

/-- A chain is read where a chain is wanted, if no link follows. -/
theorem leftHand_eq
    (linked : Linked state.start depth length state after chain)
    (large : length ≤ state.budget)
    (ends : after.linksOn = false) :
    reach (depth + 1) .leftHand state = some (chain, after) := by
  obtain ⟨head, entered, used, read, short, budget, linked⟩ := linked.links
  change leftHand (reach depth) state = _
  obtain ⟨count, total⟩ : ∃ count, entered.budget = used + (count + 1) :=
    ⟨entered.budget - used - 1, by omega⟩
  have done :
      roundTrips (link state.start) entered.budget (head, false) (reach depth) entered =
        some ((chain, false), after) := by
    rw [total, linked, roundTrips_done (link_done ends state.start chain)]
  rw [leftHand, here_bind, bind_of_some read]
  exact suffixes_eq done

end Linked

/-- From a state on, an expression on its own and the members and calls behind it are read up to another
state. -/
structure ChainAt (depth length : Nat) (state after : State) (tree : Tree) : Prop where
  atom : ∃ kind, state.token.atom? = some kind
  budget : after.budget = state.budget
  links : ∀ start, ∃ chain, Linked start depth length state after chain ∧ chain.bare = tree

namespace ChainAt

variable {depth length : Nat} {middle : State}

/-- An expression on its own is a chain without links. -/
theorem single
    (depth : Nat)
    (atom : state.token.atom? = some kind) :
    ChainAt depth 1 state state.next (.made kind []) := by
  refine ⟨⟨kind, atom⟩, rfl, fun start => ⟨_, .single start depth atom, ?_⟩⟩
  rcases Token.kind_of_atom? atom with
    rfl | rfl | ⟨text, rfl⟩ | ⟨value, rfl⟩ | ⟨value, escaped, rfl⟩ <;> rfl

theorem member
    (chain : ChainAt depth length state middle tree)
    {name : Text}
    (point : middle.token = .mark ".")
    (word : middle.next.token = .word name false) :
    ChainAt depth (length + 1) state middle.next.next
      (.made (.member false) [tree, .made (.name name) []]) := by
  refine ⟨chain.atom, chain.budget, fun start => ?_⟩
  obtain ⟨object, linked, bare⟩ := chain.links start
  refine ⟨_, linked.member point word, ?_⟩
  simp only [Tree.bare_node, List.map_cons, List.map_nil, bare]
  rfl

theorem call
    (chain : ChainAt depth length state middle tree)
    (parenthesis : middle.token = .mark "(")
    {arguments : List Tree}
    (found : argumentList (reach depth) middle = some (arguments, after))
    (kept : after.budget = middle.budget) :
    ChainAt depth (length + 1) state after
      (.made (.call false false) (tree :: .absent :: arguments.map Tree.bare)) := by
  refine ⟨chain.atom, kept.trans chain.budget, fun start => ?_⟩
  obtain ⟨callee, linked, bare⟩ := chain.links start
  refine ⟨_, linked.call parenthesis found, ?_⟩
  simp only [Tree.bare_node, List.map_cons, bare, Tree.bare_absent]
  rfl

theorem longer
    (chain : ChainAt depth length state after tree)
    {bound : Nat}
    (le : length ≤ bound) :
    ChainAt depth bound state after tree := by
  refine ⟨chain.atom, chain.budget, fun start => ?_⟩
  obtain ⟨found, linked, bare⟩ := chain.links start
  exact ⟨found, linked.longer le, bare⟩

end ChainAt

/-! ## Operands of operators -/

/-- Whether an operand ends before the token. -/
def endsOperand (token : Token) : Bool :=
  !token.goesOn && !token.isMark "++" && !token.isMark "--"

/-- Whether the token is no operator that binds tighter than the level. -/
def endsOperation (level : Nat) (token : Token) : Bool :=
  endsOperand token && !token.isMark ">" &&
    (operatorLevel? token).all fun found => found != 17 && found ≤ level

/-- Whether an assignment ends before the token. -/
def endsAssignment (token : Token) : Bool :=
  endsOperation 1 token && !("=>" :: "?" :: assignmentOperators).any token.isMark

/-- What ends an operand does not belong to it. -/
theorem prolongs_of_endsOperand
    (ends : endsOperand state.token = true) :
    state.prolongs = false := by
  simp only [endsOperand, Bool.and_eq_true, Bool.not_eq_true'] at ends
  rw [State.prolongs, linksOn_of_goesOn ends.1.1, State.stepsOn, ends.1.2, ends.2]
  rfl

section

variable (starts : state.token.startsOperand = true)

include starts

theorem unaryOperator?_of_startsOperand :
    unaryOperator? state.token = none := by
  unfold unaryOperator?
  split
  next text token =>
    rw [token, Token.startsOperand, beq_iff_eq] at starts
    rw [starts]
    rfl
  next text escaped token =>
    have differs (word : String) (leads : (Token.word word.toList false).startsOperand = false) :
        (text == word.toList) = false := by
      have isWord := Token.isWord_of_startsOperand starts leads
      rwa [token] at isWord
    rw [differs "typeof" (by decide), differs "void" (by decide), differs "delete" (by decide)]
    rfl
  next =>
    rfl

theorem atAwait_of_startsOperand :
    atAwait goals state = some (false, state) := by
  rw [atAwait, get_bind, Token.isWord_of_startsOperand starts (by decide)]
  rfl

theorem atYield_of_startsOperand :
    atYield goals state = some (false, state) := by
  rw [atYield, get_bind, Token.isWord_of_startsOperand starts (by decide)]
  rfl

theorem arrow?_of_startsOperand
    (resultType : Bool) :
    arrow? resultType goals state = some (none, state) := by
  have marks : ["(", "<"].any state.token.isMark = false := by
    simp [@Token.isMark_of_startsOperand _ starts "(" (by decide),
      @Token.isMark_of_startsOperand _ starts "<" (by decide)]
  have noAsync : state.token.isWord "async" = false := Token.isWord_of_startsOperand starts (by decide)
  have guessed : arrowAhead goals state = some (.no, state) := by
    rw [arrowAhead, atOneOf_bind, marks]
    change (atWord "async" >>= _) _ _ = _
    rw [atWord_bind, noAsync]
    rfl
  have bare : atAsyncArrow goals state = some (false, state) := by
    rw [atAsyncArrow, atWord_bind, noAsync]
    rfl
  rw [arrow?, bind_of_some guessed]
  change (atAsyncArrow >>= _) _ _ = _
  rw [bind_of_some bare]
  rfl

/-- An operand is read where one with an increment or decrement is wanted. -/
theorem updateExpression_eq
    {found : Tree}
    (read : goals .leftHand state = some (found, after))
    (ends : after.stepsOn = false) :
    updateExpression goals state = some (found, after) := by
  have finished : updateExpression.finish state.start goals state = some (found, after) := by
    have wanted : want .leftHand goals state = some (found, after) := read
    rw [updateExpression.finish, bind_of_some wanted, get_bind]
    refine of_choice fun choice chosen => ?_
    split at chosen
    next mark token =>
      rw [State.stepsOn, token] at ends
      simp only [Token.isMark] at ends
      rw [ends] at chosen
      subst chosen
      rfl
    next =>
      subst chosen
      rfl
  rw [updateExpression, get_bind]
  refine of_choice fun choice chosen => ?_
  split at chosen
  next token =>
    rw [token] at starts
    cases starts
  next mark _ token =>
    rw [token, Token.startsOperand, beq_iff_eq] at starts
    subst starts
    subst chosen
    exact finished
  next =>
    subst chosen
    exact finished

theorem simpleUnary_eq
    {found : Tree}
    (read : goals .leftHand state = some (found, after))
    (ends : after.stepsOn = false) :
    simpleUnary goals state = some (found, after) := by
  rw [simpleUnary, get_bind, unaryOperator?_of_startsOperand starts]
  change (atAwait >>= _) _ _ = _
  rw [bind_of_some (atAwait_of_startsOperand starts)]
  exact updateExpression_eq starts read ends

theorem unary_eq
    {found : Tree}
    (read : goals .leftHand state = some (found, after))
    (ends : after.stepsOn = false) :
    unary goals state = some (found, after) := by
  rw [unary, get_bind, unaryOperator?_of_startsOperand starts, bind_of_some (atAwait_of_startsOperand starts),
    bind_of_some (simpleUnary_eq starts read ends)]
  rfl

end

/-! ## Operations -/

/-- What ends before an operator of a low level ends before one of a higher level. -/
theorem endsOperation_of_le
    {token : Token}
    {low high : Nat}
    (ends : endsOperation low token = true)
    (le : low ≤ high) :
    endsOperation high token = true := by
  simp only [endsOperation, Bool.and_eq_true] at ends ⊢
  refine ⟨ends.1, ?_⟩
  cases level : operatorLevel? token with
  | none =>
      rfl
  | some found =>
      have fits := ends.2
      rw [level] at fits
      simp only [Option.all_some, Bool.and_eq_true, decide_eq_true_eq] at fits ⊢
      exact ⟨fits.1, Nat.le_trans fits.2 le⟩

/-- The operators behind an operand are read round by round: a round ends the operation, or it joins the next
operand of a conjunction. -/
theorem operations_rounds
    (start level : Nat) :
    ∃ step : Tree → P (Turn Tree Tree),
      (∀ left, operations start level left = rounds step left) ∧
        (∀ {goals state} left, endsOperation level state.token = true →
          step left goals state = some (.done left, state)) ∧
        ∀ {goals state after} left right, state.token = .mark "&&" → level < 8 →
          goals (.operation 8) state.next = some (right, after) →
          step left goals state =
            some (.again (.node (.logical "&&".toList) ⟨start, after.lastStop⟩ [left, right]), after) := by
  have same
      {goals : Goal → Step Tree}
      {state : State}
      (other : state.token.isMark ">" = false) :
      rereadAngle goals state = some ((), state) := by
    rw [rereadAngle, get_bind, other]
    rfl
  refine ⟨_, fun _ => rfl, ?_, ?_⟩
  · intro goals state left ends
    simp only [endsOperation, Bool.and_eq_true, Bool.not_eq_true'] at ends
    obtain ⟨⟨-, angle⟩, fits⟩ := ends
    rw [bind_of_some (same angle), get_bind]
    cases found : operatorLevel? state.token with
    | none =>
        rfl
    | some tightness =>
        rw [found] at fits
        simp only [Option.all_some, Bool.and_eq_true, bne_iff_ne, decide_eq_true_eq] at fits
        have stops : (if tightness = 17 then tightness < level else tightness ≤ level) := by
          rw [if_neg fits.1]
          exact fits.2
        simp only [stops, decide_true, Bool.true_or, if_true]
        rfl
  · intro goals state after left right token below read
    have isMark : state.token.isMark "&&" = true := by
      rw [token]
      rfl
    have angle : state.token.isMark ">" = false := by
      rw [token]
      rfl
    have wanted : want (.operation 8) goals state.next = some (right, after) := read
    have further : ¬(8 ≤ level) := Nat.not_le_of_lt below
    rw [bind_of_some (same angle), get_bind, token]
    change (if (decide (8 ≤ level) || false) = true then (_ : P (Turn Tree Tree)) else _) _ _ = _
    rw [decide_eq_false further]
    change (advance >>= _) _ _ = _
    rw [bind_of_some (advance_eq (isDisguised_of_isMark isMark)), bind_of_some wanted]
    rfl

theorem operation_of_startsOperand
    (starts : state.token.startsOperand = true)
    (level : Nat) :
    operation level goals state =
      (want .unary >>= fun operand =>
        operations state.start level (if state.notes.call then markPure operand else operand)) goals state := by
  rw [operation, get_bind]
  refine of_choice fun choice chosen => ?_
  split at chosen
  next token =>
    rw [token] at starts
    cases starts
  next =>
    subst chosen
    rfl

/-- An operand that no operator follows is an operation. -/
theorem operation_eq
    {found : Tree}
    (starts : state.token.startsOperand = true)
    (read : goals .unary state = some (found, after))
    (filled : 0 < after.budget)
    (level : Nat)
    (ends : endsOperation level after.token = true) :
    operation level goals state = some (if state.notes.call then markPure found else found, after) := by
  have wanted : want .unary goals state = some (found, after) := read
  obtain ⟨step, rounds, done, -⟩ := operations_rounds state.start level
  obtain ⟨count, budget⟩ : ∃ count, after.budget = count + 1 :=
    Nat.exists_eq_succ_of_ne_zero (Nat.ne_of_gt filled)
  rw [operation_of_startsOperand starts, bind_of_some wanted, rounds, rounds_eq, budget,
    roundTrips_done (done _ ends)]

/-- What is read as an operand of an operator is read where an operation is wanted. -/
theorem reads_operation
    {depth : Nat}
    (starts : state.token.startsOperand = true)
    (operand : Reads depth .unary state after tree)
    (filled : 0 < after.budget)
    (level : Nat)
    (ends : endsOperation level after.token = true) :
    Reads (depth + 1) (.operation level) state after tree := by
  obtain ⟨found, read, bare⟩ := operand
  refine ⟨_, operation_eq starts read filled level ends, ?_⟩
  split
  next => rw [bare_markPure, bare]
  next => exact bare

namespace Linked

variable {depth length : Nat} {chain : Tree}

/-- A chain is read where an operand of an operator is wanted. -/
theorem unary_eq
    (linked : Linked state.start depth length state after chain)
    (atom : state.token.atom? = some kind)
    (large : length ≤ state.budget)
    (ends : after.prolongs = false) :
    reach (depth + 2) .unary state = some (chain, after) := by
  rw [State.prolongs, Bool.or_eq_false_iff] at ends
  exact Parser.unary_eq (Token.startsOperand_of_atom? atom) (linked.leftHand_eq large ends.1) ends.2

end Linked

namespace ChainAt

variable {depth length : Nat}

/-- A chain is read where an operand of an operator is wanted. -/
theorem reads_unary
    (chain : ChainAt depth length state after tree)
    (large : length ≤ state.budget)
    (ends : after.prolongs = false) :
    Reads (depth + 2) .unary state after tree := by
  obtain ⟨kind, atom⟩ := chain.atom
  obtain ⟨found, linked, bare⟩ := chain.links state.start
  exact ⟨found, linked.unary_eq atom large ends, bare⟩

/-- A chain is read where an operation is wanted. -/
theorem reads_operation
    (chain : ChainAt depth length state after tree)
    (large : length ≤ state.budget)
    (filled : 0 < state.budget)
    (level : Nat)
    (ends : endsOperation level after.token = true) :
    Reads (depth + 3) (.operation level) state after tree := by
  obtain ⟨kind, atom⟩ := chain.atom
  have operandEnds : endsOperand after.token = true := by
    simp only [endsOperation, Bool.and_eq_true] at ends
    exact ends.1.1
  have operand := chain.reads_unary large (prolongs_of_endsOperand operandEnds)
  exact Parser.reads_operation (Token.startsOperand_of_atom? atom) operand (by rw [chain.budget]; exact filled)
    level ends

end ChainAt

/-- An operation that nothing else of an assignment follows is an assignment. -/
theorem bareAssignment_eq
    {found : Tree}
    (starts : state.token.startsOperand = true)
    (read : goals (.operation 1) state = some (found, after))
    (ends : endsAssignment after.token = true)
    (resultType : Bool) :
    bareAssignment resultType goals state = some (found, after) := by
  simp only [endsAssignment, Bool.and_eq_true, Bool.not_eq_true'] at ends
  have unmarked (text : String) (among : text ∈ "=>" :: "?" :: assignmentOperators) :
      after.token.isMark text = false :=
    Bool.eq_false_iff.mpr (List.any_eq_false.mp ends.2 text among)
  have wanted : want (.operation 1) goals state = some (found, after) := read
  rw [bareAssignment, bind_of_some (atYield_of_startsOperand starts)]
  change (arrow? resultType >>= _) _ _ = _
  rw [bind_of_some (arrow?_of_startsOperand starts resultType)]
  change (here >>= _) _ _ = _
  rw [here_bind, bind_of_some wanted, get_bind]
  refine of_choice fun choice chosen => ?_
  split at chosen
  next mark token =>
    have arrow : (mark == "=>") = false := by
      have other := unmarked "=>" (by decide)
      rwa [token] at other
    have operator : assignmentOperators.contains mark = false := by
      apply Bool.eq_false_iff.mpr
      intro among
      have other := unmarked mark (by simpa using .inr (.inr (List.contains_iff_mem.mp among)))
      rw [token] at other
      simp [Token.isMark] at other
    simp only [arrow, operator, Bool.false_and, Bool.false_eq_true, if_false] at chosen
    subst chosen
    rw [conditionalRest, bind_of_some (eat_eq_false (unmarked "?" (by decide)))]
    rfl
  next =>
    subst chosen
    rfl

theorem assignment_eq
    {found : Tree}
    (starts : state.token.startsOperand = true)
    (read : goals (.operation 1) state = some (found, after))
    (ends : endsAssignment after.token = true)
    (resultType : Bool) :
    assignment resultType goals state = some (if state.notes.function then markHarmless found else found, after) := by
  rw [assignment, get_bind, bind_of_some (bareAssignment_eq starts read ends resultType)]
  rfl

/-- What is read as an operation is read where an assignment is wanted. -/
theorem reads_assignment
    {depth : Nat}
    (starts : state.token.startsOperand = true)
    (operation : Reads depth (.operation 1) state after tree)
    (ends : endsAssignment after.token = true)
    (resultType : Bool) :
    Reads (depth + 1) (.assignment resultType) state after tree := by
  obtain ⟨found, read, bare⟩ := operation
  refine ⟨_, assignment_eq starts read ends resultType, ?_⟩
  split
  next => rw [bare_markHarmless, bare]
  next => exact bare

/-- A chain is read where an assignment is wanted. -/
theorem ChainAt.assignment_eq
    {depth length : Nat}
    (chain : ChainAt depth length state after tree)
    {found : Tree}
    (linked : Linked state.start depth length state after found)
    (large : length ≤ state.budget)
    (filled : 0 < state.budget)
    (ends : endsAssignment after.token = true)
    (resultType : Bool) :
    reach (depth + 4) (.assignment resultType) state = some (state.noted found, after) := by
  obtain ⟨kind, atom⟩ := chain.atom
  have starts := Token.startsOperand_of_atom? atom
  have operationEnds : endsOperation 1 after.token = true := by
    simp only [endsAssignment, Bool.and_eq_true] at ends
    exact ends.1
  have operandEnds : endsOperand after.token = true := by
    simp only [endsOperation, Bool.and_eq_true] at operationEnds
    exact operationEnds.1.1
  have operand := linked.unary_eq atom large (prolongs_of_endsOperand operandEnds)
  have operation := operation_eq starts operand (by rw [chain.budget]; exact filled) 1 operationEnds
  exact Parser.assignment_eq starts operation ends resultType

/-- An assignment that no comma follows is an expression. -/
theorem expression_eq
    {found : Tree}
    (read : goals (.assignment true) state = some (found, after))
    (filled : 0 < state.budget)
    (comma : after.token.isMark "," = false) :
    expression goals state = some (found, after) := by
  have wanted : want (.assignment true) goals state = some (found, after) := read
  have single : separated "," (want (.assignment true)) goals state = some ([found], after) := by
    obtain ⟨rounds, budget⟩ : ∃ rounds, state.budget = rounds + 1 :=
      Nat.exists_eq_succ_of_ne_zero (by omega)
    rw [separated, rounds_eq, budget]
    apply roundTrips_done
    rw [bind_of_some wanted]
    rw [bind_of_some (eat_eq_false comma)]
    rfl
  rw [expression, here_bind, bind_of_some single]
  rfl

/-! ## Conjunctions -/

/-- Tokens that are read as a chain wherever they stand. -/
structure Chained (tokens : List Token) (tree : Tree) : Prop where
  opens : ∃ token kind rest, tokens = token :: rest ∧ token.atom? = some kind
  chain : ∀ (depth : Nat) {state after : State},
    4 * tokens.length ≤ depth → tokens.length < state.budget → Runs tokens state after →
      ChainAt depth tokens.length state after tree

theorem Chained.atom_of_runs
    (chained : Chained tokens tree)
    (runs : Runs tokens state after) :
    ∃ kind, state.token.atom? = some kind := by
  obtain ⟨token, kind, rest, rfl, atom⟩ := chained.opens
  exact ⟨kind, by rw [runs.1, atom]⟩

/-- The tokens of further operands of a conjunction. -/
def conjuncts (more : List (List Token × Tree)) : List Token :=
  more.flatMap fun other => .mark "&&" :: other.1

/-- A conjunction from left to right. -/
def conjunction (first : Tree) (more : List (List Token × Tree)) : Tree :=
  more.foldl (fun left other => .made (.logical "&&".toList) [left, other.2]) first

theorem length_le_conjuncts
    (more : List (List Token × Tree)) :
    more.length ≤ (conjuncts more).length := by
  induction more with
  | nil =>
      exact Nat.le_refl 0
  | cons other more inductionHypothesis =>
      simp only [conjuncts, List.flatMap_cons, List.length_append, List.length_cons] at inductionHypothesis ⊢
      omega

/-- An operand ends before a conjunction, or before what ends the conjunction. -/
theorem endsOperation_of_conjuncts
    {more : List (List Token × Tree)}
    (runs : Runs (conjuncts more) state after)
    (ends : endsOperation 1 after.token = true) :
    endsOperation 8 state.token = true := by
  cases more with
  | nil =>
      obtain rfl := runs
      exact endsOperation_of_le ends (by decide)
  | cons other more =>
      rw [runs.1]
      decide

/-- The operands behind the first one are joined with it one by one. -/
theorem joins_conjuncts
    {more : List (List Token × Tree)}
    (each : ∀ other ∈ more, Chained other.1 other.2)
    (depth : Nat)
    (deep : 4 * (conjuncts more).length ≤ depth)
    (large : (conjuncts more).length < state.budget)
    (runs : Runs (conjuncts more) state after)
    (ends : endsOperation 1 after.token = true)
    {step : Tree → P (Turn Tree Tree)}
    {start : Nat}
    (done : ∀ {goals state} left, endsOperation 1 state.token = true →
      step left goals state = some (.done left, state))
    (again : ∀ {goals state after} left right, state.token = .mark "&&" → 1 < 8 →
      goals (.operation 8) state.next = some (right, after) →
      step left goals state =
        some (.again (.node (.logical "&&".toList) ⟨start, after.lastStop⟩ [left, right]), after))
    (left : Tree)
    (count : Nat) :
    ∃ found,
      roundTrips step (more.length + (count + 1)) left (reach (depth + 3)) state = some (found, after) ∧
        found.bare = conjunction left.bare more ∧
        (left.span = ⟨start, state.lastStop⟩ → found.span = ⟨start, after.lastStop⟩) := by
  induction more generalizing state left with
  | nil =>
      obtain rfl := runs
      refine ⟨left, ?_, rfl, id⟩
      rw [List.length_nil, Nat.zero_add, roundTrips_done (done left ends)]
  | cons other more inductionHypothesis =>
      obtain ⟨operator, behind⟩ := runs
      obtain ⟨middle, first, further⟩ := runs_append.mp behind
      have length : (conjuncts (other :: more)).length = 1 + other.1.length + (conjuncts more).length := by
        simp only [conjuncts, List.flatMap_cons, List.length_append, List.length_cons]
        omega
      rw [length] at deep large
      have budget := first.kept.2.1
      obtain ⟨right, read, bare⟩ :=
        ((each other List.mem_cons_self).chain depth (by omega) (by rw [next_budget]; omega) first).reads_operation
          (by rw [next_budget]; omega) (by rw [next_budget]; omega) 8 (endsOperation_of_conjuncts further ends)
      obtain ⟨found, joined, joinedBare, span⟩ :=
        inductionHypothesis (fun later member => each later (List.mem_cons_of_mem _ member)) (by omega)
          (by rw [budget, next_budget]; omega) further
          (.node (.logical "&&".toList) ⟨start, middle.lastStop⟩ [left, right])
      refine ⟨found, ?_, ?_, fun _ => span rfl⟩
      · have length : (other :: more).length + (count + 1) = more.length + (count + 1) + 1 := by
          rw [List.length_cons]
          omega
        rw [length, roundTrips_again (again left right operator (by decide) read), joined]
      · rw [joinedBare]
        simp only [Tree.bare_node, List.map_cons, List.map_nil, bare]
        rfl

/-- Operands with conjunctions between are read as a conjunction from left to right, which covers all of them. -/
theorem Chained.conjunction_eq
    (chained : Chained tokens tree)
    {more : List (List Token × Tree)}
    (each : ∀ other ∈ more, Chained other.1 other.2)
    (depth : Nat)
    (deep : 4 * (tokens ++ conjuncts more).length ≤ depth)
    (large : (tokens ++ conjuncts more).length < state.budget)
    (runs : Runs (tokens ++ conjuncts more) state after)
    (ends : endsOperation 1 after.token = true) :
    ∃ found, reach (depth + 4) (.operation 1) state = some (found, after) ∧
      found.bare = conjunction tree more ∧ found.span = ⟨state.start, after.lastStop⟩ := by
  obtain ⟨middle, first, further⟩ := runs_append.mp runs
  rw [List.length_append] at deep large
  obtain ⟨kind, atom⟩ := chained.atom_of_runs first
  have firstEnds := endsOperation_of_conjuncts further ends
  have operandEnds : endsOperand middle.token = true := by
    simp only [endsOperation, Bool.and_eq_true] at firstEnds
    exact firstEnds.1.1
  have chain := chained.chain (depth + 1) (by omega) (by omega) first
  obtain ⟨found, linked, bare⟩ := chain.links state.start
  have wanted : want .unary (reach (depth + 3)) state = some (found, middle) :=
    linked.unary_eq atom (by omega) (prolongs_of_endsOperand operandEnds)
  have count := length_le_conjuncts more
  have budget := first.kept.2.1
  obtain ⟨rest, total⟩ : ∃ rest, middle.budget = more.length + (rest + 1) :=
    ⟨middle.budget - more.length - 1, by omega⟩
  obtain ⟨step, rounds, done, again⟩ := operations_rounds state.start 1
  obtain ⟨whole, joined, joinedBare, span⟩ :=
    joins_conjuncts each depth (by omega) (by omega) further ends done again
      (if state.notes.call then markPure found else found) rest
  refine ⟨whole, ?_, ?_, span ?_⟩
  · change operation 1 (reach (depth + 3)) state = _
    rw [operation_of_startsOperand (Token.startsOperand_of_atom? atom), bind_of_some wanted, rounds, rounds_eq, total, joined]
  · rw [joinedBare]
    split
    next => rw [bare_markPure, bare]
    next => rw [bare]
  · split
    next => rw [span_markPure, linked.span rfl]
    next => rw [linked.span rfl]

/-- Operands with conjunctions between are read as an expression. -/
theorem Chained.expression_eq
    (chained : Chained tokens tree)
    {more : List (List Token × Tree)}
    (each : ∀ other ∈ more, Chained other.1 other.2)
    (depth : Nat)
    (deep : 4 * (tokens ++ conjuncts more).length ≤ depth)
    (large : (tokens ++ conjuncts more).length < state.budget)
    (runs : Runs (tokens ++ conjuncts more) state after)
    (ends : endsAssignment after.token = true)
    (comma : after.token.isMark "," = false) :
    ∃ found, reach (depth + 6) .expression state = some (found, after) ∧
      found.bare = conjunction tree more ∧ found.span = ⟨state.start, after.lastStop⟩ := by
  obtain ⟨_, first, -⟩ := runs_append.mp runs
  obtain ⟨kind, atom⟩ := chained.atom_of_runs first
  have operationEnds : endsOperation 1 after.token = true := by
    simp only [endsAssignment, Bool.and_eq_true] at ends
    exact ends.1
  obtain ⟨found, operation, bare, span⟩ := chained.conjunction_eq each depth deep large runs operationEnds
  have assignment := assignment_eq (Token.startsOperand_of_atom? atom) operation ends true
  refine ⟨_, Parser.expression_eq assignment (by omega) comma, ?_, ?_⟩
  · split
    next => rw [bare_markHarmless, bare]
    next => exact bare
  · split
    next => rw [span_markHarmless, span]
    next => exact span

/-! ## Arguments -/

/-- The items of a list are read round by round: a round ends the list, or it goes past a comma. -/
theorem commaList_rounds
    (close : String)
    (item : P Tree) :
    ∃ step : List Tree → P (Turn (List Tree) (List Tree × Bool)),
      (commaList close item =
        atMark close >>= fun empty => if empty then pure ([], false) else rounds step []) ∧
        (∀ {goals state after} items found, item goals state = some (found, after) →
          after.token.isMark close = true →
          step items goals state = some (.done ((found :: items).reverse, false), after)) ∧
        ∀ {goals state after} items found, item goals state = some (found, after) →
          after.token.isMark close = false → after.token.isMark "," = true →
          after.next.token.isMark close = false →
          step items goals state = some (.again (found :: items), after.next) := by
  refine ⟨_, rfl, fun {goals state after} items found read closes => ?_,
    fun {goals state after} items found read goesOn comma filled => ?_⟩
  · rw [bind_of_some read]
    rw [atMark_bind, closes]
    rfl
  · rw [bind_of_some read]
    rw [atMark_bind, goesOn]
    change (expect "," >>= _) _ _ = _
    rw [bind_of_some (expect_eq comma)]
    rw [atMark_bind, filled]
    rfl

/-- At the other place the same is allowed. -/
def State.Alike (state other : State) : Prop :=
  other.flags = state.flags ∧ other.budget = state.budget ∧ other.typed = state.typed

section

variable
  {close : String}
  {item : P Tree}
  {view : Tree → Tree}
  {base : State}
  {parts : List (List Token × Tree)}

/-- The items behind those that are read already. -/
theorem roundTrips_commas
    (filled : parts ≠ [])
    (other : (Token.mark ",").isMark close = false)
    (each : ∀ part ∈ parts, ∀ {start behind : State},
      base.Alike start → Runs part.1 start behind → (behind.token = .mark "," ∨ behind.token = .mark close) →
        start.token.isMark close = false ∧
          ∃ found, item goals start = some (found, behind) ∧ view found = part.2)
    (alike : base.Alike state)
    (runs : Runs (commas (parts.map Prod.fst)) state after)
    (closes : after.token = .mark close)
    {step : List Tree → P (Turn (List Tree) (List Tree × Bool))}
    (done : ∀ {goals state after} items found, item goals state = some (found, after) →
      after.token.isMark close = true →
      step items goals state = some (.done ((found :: items).reverse, false), after))
    (again : ∀ {goals state after} items found, item goals state = some (found, after) →
      after.token.isMark close = false → after.token.isMark "," = true →
      after.next.token.isMark close = false →
      step items goals state = some (.again (found :: items), after.next))
    (items : List Tree)
    (count : Nat) :
    state.token.isMark close = false ∧ ∃ all,
      roundTrips step (parts.length + count) items goals state = some ((items.reverse ++ all, false), after) ∧
        all.map view = parts.map Prod.snd := by
  induction parts generalizing state items with
  | nil =>
      exact absurd rfl filled
  | cons part more inductionHypothesis =>
      rw [List.forall_mem_cons] at each
      cases more with
      | nil =>
          obtain ⟨opens, found, read, viewed⟩ := each.1 alike runs (.inr closes)
          have closed : after.token.isMark close = true := by
            rw [closes]
            exact beq_self_eq_true close
          refine ⟨opens, [found], ?_, by simp [viewed]⟩
          have total : [part].length + count = count + 1 := Nat.add_comm ..
          rw [total, roundTrips_done (done items found read closed), List.reverse_cons]
      | cons next more =>
          obtain ⟨middle, first, comma, further⟩ := runs_append.mp runs
          obtain ⟨opens, found, read, viewed⟩ := each.1 alike first (.inl comma)
          have kept := first.kept
          have alikeNext : base.Alike middle.next :=
            ⟨kept.1.trans alike.1, kept.2.1.trans alike.2.1, kept.2.2.trans alike.2.2⟩
          obtain ⟨filledNext, all, readAll, viewedAll⟩ :=
            inductionHypothesis (List.cons_ne_nil _ _) each.2 alikeNext further (found :: items)
          refine ⟨opens, found :: all, ?_, by rw [List.map_cons, List.map_cons, viewedAll, viewed]⟩
          have goesOn : middle.token.isMark close = false := by
            rw [comma, other]
          have isComma : middle.token.isMark "," = true := by
            rw [comma]
            rfl
          have total : (part :: next :: more).length + count = (next :: more).length + count + 1 := by
            simp only [List.length_cons]
            omega
          rw [total, roundTrips_again (again items found read goesOn isComma filledNext), readAll,
            List.reverse_cons, List.append_assoc, List.singleton_append]

/-- The items of a list are read up to its closing mark, if each of them can be read. -/
theorem commaList_eq
    (other : (Token.mark ",").isMark close = false)
    (each : ∀ part ∈ parts, ∀ {start behind : State},
      state.Alike start → Runs part.1 start behind → (behind.token = .mark "," ∨ behind.token = .mark close) →
        start.token.isMark close = false ∧
          ∃ found, item goals start = some (found, behind) ∧ view found = part.2)
    (large : parts.length ≤ state.budget)
    (runs : Runs (commas (parts.map Prod.fst)) state after)
    (closes : after.token = .mark close) :
    ∃ all,
      commaList close item goals state = some ((all, false), after) ∧ all.map view = parts.map Prod.snd := by
  obtain ⟨step, list, done, again⟩ := commaList_rounds close item
  rw [list, atMark_bind]
  cases parts with
  | nil =>
      obtain rfl := runs
      have closed : after.token.isMark close = true := by
        rw [closes]
        exact beq_self_eq_true close
      rw [closed]
      exact ⟨[], rfl, rfl⟩
  | cons part more =>
      obtain ⟨rest, total⟩ : ∃ rest, state.budget = (part :: more).length + rest :=
        Nat.exists_eq_add_of_le large
      obtain ⟨opens, all, read, viewed⟩ :=
        roundTrips_commas (List.cons_ne_nil _ _) other each ⟨rfl, rfl, rfl⟩ runs closes done again [] rest
      refine ⟨all, ?_, viewed⟩
      rw [opens, if_neg Bool.false_ne_true, rounds_eq, total, read]
      rfl

/-- Items between parentheses are arguments. -/
theorem argumentList_of_commaList
    {middle : State}
    {all : List Tree}
    (opens : state.token = .mark "(")
    (listed : commaList ")" argument goals (state.next.flagged (bracketed state.next.flags)) =
      some ((all, false), middle.flagged (bracketed state.next.flags)))
    (kept : middle.flags = state.next.flags)
    (closes : middle.token = .mark ")") :
    argumentList goals state = some (all, middle.next) := by
  have opening : state.token.isMark "(" = true := by
    rw [opens]
    rfl
  have closing : middle.token.isMark ")" = true := by
    rw [closes]
    rfl
  rw [argumentList, bind_of_some (expect_eq opening), bind_of_some (withFlags_eq kept listed)]
  change (expect ")" >>= _) _ _ = _
  rw [bind_of_some (expect_eq closing)]
  rfl

/-- Arguments in their parentheses are read one by one, if each of them can be read. -/
theorem argumentList_eq
    (each : ∀ part ∈ parts, ∀ {start behind : State},
      (state.next.flagged (bracketed state.next.flags)).Alike start → Runs part.1 start behind →
        (behind.token = .mark "," ∨ behind.token = .mark ")") →
          start.token.isMark ")" = false ∧
            ∃ found, argument goals start = some (found, behind) ∧ view found = part.2)
    (large : parts.length ≤ state.budget)
    (runs : Runs (.mark "(" :: (commas (parts.map Prod.fst) ++ [Token.mark ")"])) state after) :
    ∃ all, argumentList goals state = some (all, after) ∧ all.map view = parts.map Prod.snd := by
  obtain ⟨opens, inside⟩ := runs
  obtain ⟨middle, inner, closes, rfl⟩ := runs_append.mp inside
  have large : parts.length ≤ (state.next.flagged (bracketed state.next.flags)).budget := large
  obtain ⟨all, listed, viewed⟩ :=
    commaList_eq rfl each large (inner.flagged (bracketed state.next.flags)) closes
  exact ⟨all, argumentList_of_commaList opens listed inner.kept.1 closes, viewed⟩

end

/-- A chain is read as an argument, and covers its tokens. -/
theorem Chained.argument_eq
    (chained : Chained tokens tree)
    (depth : Nat)
    (deep : 4 * tokens.length ≤ depth)
    (large : tokens.length < state.budget)
    (runs : Runs tokens state after)
    (ends : endsAssignment after.token = true) :
    ∃ found, argument (reach (depth + 5)) state = some (found, after) ∧ found.bare = tree ∧
      found.span = ⟨state.start, after.lastStop⟩ := by
  obtain ⟨kind, atom⟩ := chained.atom_of_runs runs
  have chain := chained.chain (depth + 1) (by omega) large runs
  obtain ⟨found, linked, bare⟩ := chain.links state.start
  refine ⟨state.noted found, ?_, by rw [bare_noted, bare], by rw [span_noted, linked.span rfl]⟩
  rw [argument, atMark_bind, Token.isMark_of_atom? atom]
  exact chain.assignment_eq linked (by omega) (by omega) ends true

theorem length_commas
    (first next : List Token)
    (more : List (List Token)) :
    (commas (first :: next :: more)).length = first.length + (commas (next :: more)).length + 1 := by
  change (first ++ Token.mark "," :: commas (next :: more)).length = _
  rw [List.length_append, List.length_cons, Nat.add_assoc]

theorem length_le_commas
    {part : List Token}
    {parts : List (List Token)}
    (member : part ∈ parts) :
    part.length ≤ (commas parts).length := by
  induction parts with
  | nil =>
      cases member
  | cons first more inductionHypothesis =>
      cases more with
      | nil =>
          obtain rfl := List.mem_singleton.mp member
          exact Nat.le_refl _
      | cons next more =>
          rw [length_commas]
          rcases List.mem_cons.mp member with rfl | later
          · omega
          · have shorter := inductionHypothesis later
            omega

/-- There are at least as many tokens as parts, if none of these is empty. -/
theorem count_le_commas
    {parts : List (List Token)}
    (filled : ∀ part ∈ parts, part ≠ []) :
    parts.length ≤ (commas parts).length := by
  induction parts with
  | nil =>
      exact Nat.le_refl 0
  | cons first more inductionHypothesis =>
      rw [List.forall_mem_cons] at filled
      have positive : 0 < first.length := List.length_pos_iff.mpr filled.1
      have rest := inductionHypothesis filled.2
      cases more with
      | nil =>
          exact positive
      | cons next more =>
          rw [length_commas, List.length_cons]
          omega

/-- Chains in parentheses with commas between are read as arguments. -/
theorem argumentList_of_chained
    {parts : List (List Token × Tree)}
    (each : ∀ part ∈ parts, Chained part.1 part.2)
    (depth : Nat)
    (deep : 4 * (commas (parts.map Prod.fst)).length ≤ depth)
    (large : (commas (parts.map Prod.fst)).length < state.budget)
    (runs : Runs (.mark "(" :: (commas (parts.map Prod.fst) ++ [Token.mark ")"])) state after) :
    ∃ all, argumentList (reach (depth + 5)) state = some (all, after) ∧ all.map Tree.bare = parts.map Prod.snd := by
  have count : (parts.map Prod.fst).length ≤ (commas (parts.map Prod.fst)).length := by
    refine count_le_commas (List.forall_mem_map.mpr fun part member => ?_)
    obtain ⟨_, _, _, tokens, -⟩ := (each part member).opens
    rw [tokens]
    exact List.cons_ne_nil _ _
  rw [List.length_map] at count
  refine argumentList_eq (fun part member start behind alike runs ends => ?_) (by omega) runs
  have shorter := length_le_commas (List.mem_map_of_mem (f := Prod.fst) member)
  obtain ⟨kind, atom⟩ := (each part member).atom_of_runs runs
  have same : start.budget = state.budget := alike.2.1
  obtain ⟨found, read, bare, -⟩ := (each part member).argument_eq depth (by omega) (by omega) runs
    (by rcases ends with comma | closes <;> simp only [*] <;> decide)
  exact ⟨Token.isMark_of_atom? atom _, found, read, bare⟩

/-! ## All operands -/

/-- Every operand is read as a chain. -/
theorem Operand.chained
    (operand : Operand tokens tree) :
    Chained tokens tree := by
  induction operand with
  | @atom token kind atom =>
      refine ⟨⟨token, kind, [], rfl, atom⟩, fun depth state after deep large runs => ?_⟩
      obtain ⟨rfl, rfl⟩ := runs
      exact ChainAt.single depth atom
  | @member tokens tree object name inductionHypothesis =>
      obtain ⟨token, kind, rest, opens, atom⟩ := inductionHypothesis.opens
      refine ⟨⟨token, kind, rest ++ [Token.mark ".", .word name false], by rw [opens]; rfl, atom⟩,
        fun depth state after deep large runs => ?_⟩
      obtain ⟨middle, first, point, word, rfl⟩ := runs_append.mp runs
      simp only [List.length_append, List.length_cons, List.length_nil] at deep large ⊢
      exact ((inductionHypothesis.chain depth (by omega) (by omega) first).member point word).longer (by omega)
  | @call tokens tree arguments callee each inductionHypothesis inductionHypotheses =>
      obtain ⟨token, kind, rest, opens, atom⟩ := inductionHypothesis.opens
      refine ⟨⟨token, kind, _, by rw [opens]; rfl, atom⟩, fun depth state after deep large runs => ?_⟩
      obtain ⟨middle, first, inside⟩ := runs_append.mp runs
      simp only [List.length_append, List.length_cons, List.length_nil] at deep large ⊢
      have kept := first.kept.2.1
      have chain := inductionHypothesis.chain depth (by omega) (by omega) first
      obtain ⟨shallow, rfl⟩ : ∃ shallow, depth = shallow + 5 := ⟨depth - 5, by omega⟩
      obtain ⟨all, listed, bare⟩ :=
        argumentList_of_chained inductionHypotheses shallow (by omega) (by omega) inside
      rw [← bare]
      exact (chain.call inside.1 listed inside.kept.2.1).longer (by omega)

end Parser

end LiveComponent
