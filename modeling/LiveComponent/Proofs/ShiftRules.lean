import LiveComponent.Proofs.LayoutSteps
import LiveComponent.Proofs.ShiftedTrees

namespace LiveComponent

/-!
# Parsers on sources that are alike from a place on

From states that have the same text before them, a parser goes through the same steps, finds the same trees apart
from their places, and gives up in the same cases.  That the bounds on its depth and on its rounds differ makes no
difference, because each goal is asked for with less text left or, with the same text, by a goal of higher rank,
and each round takes some of the text.  The rules follow the steps of a parser.
-/

namespace Lexer

/-- Blanks and comments are skipped in the same way wherever they stand. -/
theorem skip_add
    (gap : Gap)
    (offset size : Nat)
    (newline : Bool)
    (notes : Notes)
    (text : Text) :
    skip gap (offset + size) newline notes text =
      { skip gap offset newline notes text with
        offset := (skip gap offset newline notes text).offset + size } := by
  fun_induction skip gap offset newline notes text <;> grind [skip]

/-- Only at the end nothing is read. -/
theorem read_some
    {text : Text}
    (token : (read text).token ≠ .eof) :
    0 < (read text).size ∧ text ≠ [] := by
  have some : text ≠ [] := by
    rintro rfl
    exact token rfl
  exact ⟨read_pos some, some⟩

theorem readMarkup_some
    {text : Text}
    (token : (readMarkup text).token ≠ .eof) :
    0 < (readMarkup text).size ∧ text ≠ [] := by
  have some : text ≠ [] := by
    rintro rfl
    exact token rfl
  exact ⟨readMarkup_pos some, some⟩

end Lexer

namespace Token

variable {token : Token} {text : String}

theorem ne_eof_of_isMark
    (isMark : token.isMark text = true) :
    token ≠ .eof := by
  rintro rfl
  cases isMark

theorem ne_eof_of_isWord
    (isWord : token.isWord text = true) :
    token ≠ .eof := by
  rintro rfl
  cases isWord

theorem ne_eof_of_any_isWord
    {texts : List String}
    (isWord : texts.any token.isWord = true) :
    token ≠ .eof := by
  obtain ⟨_, _, isWord⟩ := List.any_eq_true.mp isWord
  exact ne_eof_of_isWord isWord

end Token

namespace Parser

/-! ## States -/

/-- What two states may differ in if they have the same text before them. -/
structure Stand where
  budget : Nat
  start : Nat
  stop : Nat
  newline : Bool
  lastStop : Nat
  pending : List Nat
  commas : List Nat

/-- The state at another place. -/
def State.onto (state : State) (stand : Stand) : State :=
  { state with
    budget := stand.budget
    start := stand.start
    stop := stand.stop
    newline := stand.newline
    lastStop := stand.lastStop
    pending := stand.pending
    commas := stand.commas }

/-- The size of the text from the current token on. -/
def State.size (state : State) : Nat :=
  state.here.length

/-- The source does not end at the state. -/
def Present (state : State) : Prop :=
  state.token ≠ .eof

/-- Some of the text from the first token on was read. -/
def Behind (shift : Shift) (state : State) : Prop :=
  state.size < shift.size

theorem present_of
    {state : State}
    {token : Token}
    (found : state.token = token)
    (some : token ≠ .eof) :
    Present state :=
  fun ends => some (found.symm.trans ends)

/-- The state stands in one source as the other does in the other source.  Only at the first token it may matter
that a line ended before it. -/
structure Mirrors (shift : Shift) (state : State) (stand : Stand) : Prop where
  start : shift.Places state.start stand.start
  stop : shift.Places state.stop stand.stop
  lastStop : shift.Ends state.lastStop stand.lastStop
  newline : state.size < shift.size → stand.newline = state.newline
  pending : List.Forall₂ shift.Places state.pending stand.pending
  commas : List.Forall₂ shift.Places state.commas stand.commas
  size_le : state.size ≤ shift.size
  size_lt : state.size < state.budget
  size_lt' : state.size < stand.budget
  rest_le : state.rest.length ≤ state.size
  rest_lt : state.token ≠ .eof → state.rest.length < state.size

/-- The rank of a goal: it asks for goals of lower rank or with less text left. -/
def Goal.rank : Goal → Nat
  | .statement _ => 8
  | .expression => 7
  | .assignment _ => 6
  | .operation _ => 5
  | .unary => 4
  | .simpleUnary => 3
  | .leftHand | .constructed => 2
  | .markup _ => 1
  | .block | .functionBody | .pattern | .anyType | .operatorType => 0

/-- Both parsers gave up, or their results are related and they left states with the same text before them.  Which
results were found by reading a token is told by `moves`. -/
inductive Meets
    (shift : Shift)
    {α β : Type}
    (limit : Nat)
    (moves : α → Bool)
    (related : α → β → Prop) :
    Option (α × State) → Option (β × State) → Prop where
  | none :
      Meets shift limit moves related none none
  | some
      {value : α}
      {other : β}
      {state : State}
      {stand : Stand}
      (values : related value other)
      (mirrors : Mirrors shift state stand)
      (size_le : state.size + (moves value).toNat ≤ limit) :
      Meets shift limit moves related (some (value, state)) (some (other, state.onto stand))

/-- Below a bound, the goals meet. -/
def Agree (shift : Shift) (goals others : Goal → Step Tree) (bound : Nat) : Prop :=
  ∀ {goal state stand}, Mirrors shift state stand → 16 * state.size + goal.rank < bound →
    Meets shift state.size (fun _ => true) shift.Wholes (goals goal state) (others goal (state.onto stand))

/-- In states for which `on` holds the parsers meet.  If `moved`, a token was read since the rank began to count. -/
structure Alike
    (shift : Shift)
    {α β : Type}
    (on : State → Prop)
    (rank : Nat)
    (moved : Bool)
    (parser : P α)
    (other : P β)
    (moves : α → Bool)
    (related : α → β → Prop) :
    Prop where
  run : ∀ {limit}, limit ≤ shift.size → ∀ {goals others}, Agree shift goals others (16 * limit + rank) →
    ∀ {state stand}, Mirrors shift state stand → on state → state.size + moved.toNat ≤ limit →
      Meets shift limit moves related (parser goals state) (other others (state.onto stand))

variable
  {α β γ δ : Type}
  {shift : Shift}
  {on : State → Prop}
  {rank limit : Nat}
  {moved moves moves' : Bool}
  {state : State}
  {stand : Stand}
  {text : String}

theorem toNat_le_of_fewer
    [fewer : Fewer moves moved] :
    moves.toNat ≤ moved.toNat := by
  have less := fewer.less
  cases moves <;> cases moved <;> simp_all

theorem Agree.mono
    {goals others : Goal → Step Tree}
    {bound bound' : Nat}
    (agree : Agree shift goals others bound)
    (less : bound' ≤ bound) :
    Agree shift goals others bound' :=
  fun mirrors below => agree mirrors (Nat.lt_of_lt_of_le below less)

theorem eat_then
    {next : Bool → P α}
    {goals : Goal → Step Tree}
    (isMark : state.token.isMark text = true) :
    (eat text >>= next) goals state = (advance >>= fun _ => next true) goals state := by
  simp only [Bind.bind, eat, atMark, get, Pure.pure, isMark]
  rfl

theorem eat_else
    {next : Bool → P α}
    {goals : Goal → Step Tree}
    (isMark : ¬state.token.isMark text = true) :
    (eat text >>= next) goals state = next false goals state := by
  simp only [Bind.bind, eat, atMark, get, Pure.pure, isMark]
  rfl

theorem eatWord_then
    {next : Bool → P α}
    {goals : Goal → Step Tree}
    (isWord : state.token.isWord text = true) :
    (eatWord text >>= next) goals state = (advance >>= fun _ => next true) goals state := by
  simp only [Bind.bind, eatWord, atWord, get, Pure.pure, isWord]
  rfl

theorem eatWord_else
    {next : Bool → P α}
    {goals : Goal → Step Tree}
    (isWord : ¬state.token.isWord text = true) :
    (eatWord text >>= next) goals state = next false goals state := by
  simp only [Bind.bind, eatWord, atWord, get, Pure.pure, isWord]
  rfl

namespace Meets

variable
  {claim claim' : α → Bool}
  {related related' : α → β → Prop}
  {result : Option (α × State)}
  {result' : Option (β × State)}

/-- Less may be claimed. -/
theorem mono
    (meets : Meets shift limit claim related result result')
    (fewer : ∀ value, (claim' value).toNat ≤ (claim value).toNat)
    (weaker : ∀ {value other}, related value other → related' value other) :
    Meets shift limit claim' related' result result' := by
  cases meets with
  | none => exact .none
  | some values mirrors size_le =>
      exact .some (weaker values) mirrors (Nat.le_trans (Nat.add_le_add_left (fewer _) _) size_le)

/-- There may have been more text at the start. -/
theorem raise
    (meets : Meets shift limit claim related result result')
    {limit' : Nat}
    (le : limit ≤ limit') :
    Meets shift limit' claim related result result' := by
  cases meets with
  | none => exact .none
  | some values mirrors size_le => exact .some values mirrors (Nat.le_trans size_le le)

end Meets

/-- What was not found was not read. -/
instance Fewer.nothing (small : Bool) : Fewer ((Option.none : Option α).isSome || small) small :=
  .same small

instance Fewer.something (small large : Bool) (value : α) : Fewer small ((Option.some value).isSome || large) :=
  .all small

instance Fewer.missing (small : Bool) : Fewer (false || small) small :=
  .same small

/-! ## The rules -/

namespace Alike

variable
  {parser : P α}
  {other : P β}
  {next : α → P γ}
  {next' : β → P δ}
  {claim : α → Bool}
  {claim' : γ → Bool}
  {related : α → β → Prop}
  {results : γ → δ → Prop}

/-- A step, after which both parsers go on in the same way. -/
theorem bind
    (first : Alike shift on rank moved parser other claim related)
    (rest : ∀ value value', related value value' →
      Alike shift (fun _ => True) rank (claim value) (next value) (next' value') claim' results) :
    Alike shift on rank moved (parser >>= next) (other >>= next') claim' results where
  run {limit} small {goals others} agree {state stand} mirrors held size_le := by
    have meets := first.run small agree mirrors held size_le
    simp only [Bind.bind]
    generalize parser goals state = result at meets
    generalize other others (state.onto stand) = result' at meets
    cases meets with
    | none => exact .none
    | some values mirrors size_le => exact (rest _ _ values).run small agree mirrors trivial size_le

/-- A step, of which it is known where it leads. -/
theorem bindAt
    (condition : α → State → Prop)
    (first : Alike shift on rank moved parser other claim related)
    (leads : ∀ {goals state value after}, on state → parser goals state = some (value, after) → condition value after)
    (rest : ∀ value value', related value value' →
      Alike shift (condition value) rank (claim value) (next value) (next' value') claim' results) :
    Alike shift on rank moved (parser >>= next) (other >>= next') claim' results where
  run {limit} small {goals others} agree {state stand} mirrors held size_le := by
    have meets := first.run small agree mirrors held size_le
    simp only [Bind.bind]
    generalize found : parser goals state = result at meets
    generalize other others (state.onto stand) = result' at meets
    cases meets with
    | none => exact .none
    | some values mirrors size_le => exact (rest _ _ values).run small agree mirrors (leads held found) size_le

/-- A step with the same result in both sources. -/
theorem step
    {other : P α}
    {next' : α → P δ}
    (first : Alike shift on rank moved parser other claim Eq)
    (rest : ∀ value, Alike shift (fun _ => True) rank (claim value) (next value) (next' value) claim' results) :
    Alike shift on rank moved (parser >>= next) (other >>= next') claim' results :=
  bind first fun value _ same => same ▸ rest value

/-- Less may be claimed. -/
theorem mono
    {claim'' : α → Bool}
    {related' : α → β → Prop}
    (alike : Alike shift on rank moved parser other claim related)
    (fewer : ∀ value, Fewer (claim'' value) (claim value))
    (weaker : ∀ {value value'}, related value value' → related' value value') :
    Alike shift on rank moved parser other claim'' related' where
  run {_} small {_ _} agree {_ _} mirrors held size_le :=
    (alike.run small agree mirrors held size_le).mono
      (fun value => have := fewer value; toNat_le_of_fewer) weaker

/-- What is claimed of trees that cover something holds of trees. -/
theorem part
    {parser other : P Tree}
    {claim claim' : Tree → Bool}
    (alike : Alike shift on rank moved parser other claim shift.Wholes)
    [fewer : ∀ tree, Fewer (claim' tree) (claim tree)] :
    Alike shift on rank moved parser other claim' shift.Parts :=
  alike.mono fewer Shift.Wholes.parts

theorem pure
    {value : α}
    {value' : β}
    (values : related value value')
    [fewer : Fewer (claim value) moved] :
    Alike shift on rank moved (Pure.pure value) (Pure.pure value') claim related where
  run {_} _ {_ _} _ {_ _} mirrors _ size_le :=
    .some values mirrors (Nat.le_trans (Nat.add_le_add_left toNat_le_of_fewer _) size_le)

/-- A value of which as much is claimed as before. -/
theorem keep
    {value : α}
    {value' : β}
    (values : related value value')
    (same : claim value = moved) :
    Alike shift on rank moved (Pure.pure value) (Pure.pure value') claim related :=
  have : Fewer (claim value) moved := same ▸ .same _
  pure values

/-- A value is passed on. -/
theorem passing
    {value : α}
    {value' : β}
    (rest : Alike shift on rank moved (next value) (next' value') claim' results) :
    Alike shift on rank moved (Pure.pure value >>= next) (Pure.pure value' >>= next') claim' results where
  run {_} small {_ _} agree {_ _} mirrors held size_le := rest.run small agree mirrors held size_le

theorem fail :
    Alike shift on rank moved (Parser.fail : P α) (Parser.fail : P β) claim related where
  run {_} _ {_ _} _ {_ _} _ _ _ := .none

/-- Nothing is done behind a failure. -/
theorem failing
    {next : α → P γ}
    {next' : β → P δ} :
    Alike shift on rank moved (Parser.fail >>= next) (Parser.fail >>= next') claim' results where
  run {_} _ {_ _} _ {_ _} _ _ _ := .none

theorem ite
    {condition : Prop}
    [Decidable condition]
    {parser' : P α}
    {other' : P β}
    (first : condition → Alike shift on rank moved parser other claim related)
    (second : ¬condition → Alike shift on rank moved parser' other' claim related) :
    Alike shift on rank moved (if condition then parser else parser') (if condition then other else other') claim
      related := by
  split
  next holds => exact first holds
  next fails => exact second fails

/-- A choice of two steps, after which both go on in the same way. -/
theorem choice
    (moves : Bool)
    {condition : Prop}
    [Decidable condition]
    {parser' : P α}
    {other' : P β}
    (first : condition → Alike shift on rank moved parser other (fun _ => moves) related)
    (second : ¬condition → Alike shift on rank moved parser' other' (fun _ => moves) related)
    (rest : ∀ value value', related value value' →
      Alike shift (fun _ => True) rank moves (next value) (next' value') claim' results) :
    Alike shift on rank moved (if condition then parser >>= next else parser' >>= next)
      (if condition then other >>= next' else other' >>= next') claim' results :=
  ite (fun holds => bind (first holds) rest) fun fails => bind (second fails) rest

/-- A condition on the state may be weakened. -/
theorem given
    {condition : State → Prop}
    (alike : Alike shift condition rank moved parser other claim related)
    (weaker : ∀ {state}, on state → condition state) :
    Alike shift on rank moved parser other claim related where
  run {_} small {_ _} agree {_ _} mirrors held size_le := alike.run small agree mirrors (weaker held) size_le

/-- A condition on the state may be forgotten. -/
theorem anywhere
    (alike : Alike shift (fun _ => True) rank moved parser other claim related) :
    Alike shift on rank moved parser other claim related :=
  alike.given fun _ => trivial

/-- A step that is taken on a condition. -/
theorem sometimes
    {condition : Prop}
    [Decidable condition]
    {parser other : P Unit}
    {next : Unit → P γ}
    {next' : Unit → P δ}
    (first : condition → Alike shift on rank moved parser other (fun _ => moved) Eq)
    (rest : Alike shift (fun _ => True) rank moved (next ()) (next' ()) claim' results) :
    Alike shift on rank moved (if condition then parser >>= next else next ())
      (if condition then other >>= next' else next' ()) claim' results :=
  ite (fun holds => step (first holds) fun _ => rest) fun _ => rest.anywhere

/-! ### States -/

/-- The whole state is looked at. -/
theorem get
    {next : State → P γ}
    {next' : State → P δ}
    (rest : ∀ {state stand}, Mirrors shift state stand → on state →
      Alike shift (· = state) rank moved (next state) (next' (state.onto stand)) claim' results) :
    Alike shift on rank moved (Parser.get >>= next) (Parser.get >>= next') claim' results where
  run {_} small {_ _} agree {_ _} mirrors held size_le :=
    (rest mirrors held).run small agree mirrors rfl size_le

/-- Behind the first token the whole state is looked at, with what is known of line breaks. -/
theorem getLine
    {next : State → P γ}
    {next' : State → P δ}
    (rest : ∀ {state stand}, Mirrors shift state stand → on state →
      Alike shift (· = state) rank true (next state) (next' (state.onto { stand with newline := state.newline }))
        claim' results) :
    Alike shift on rank true (Parser.get >>= next) (Parser.get >>= next') claim' results where
  run {_} small {_ _} agree {state stand} mirrors held size_le := by
    have line : stand.newline = state.newline := mirrors.newline (Nat.lt_of_lt_of_le size_le small)
    have given := rest mirrors held
    rw [← line] at given
    exact given.run small agree mirrors rfl size_le

/-- In a round behind the first token the whole state is looked at. -/
theorem getBehind
    {next : State → P γ}
    {next' : State → P δ}
    (rest : ∀ {state stand}, Mirrors shift state stand → Behind shift state →
      Alike shift (· = state) rank moved (next state) (next' (state.onto { stand with newline := state.newline }))
        claim' results) :
    Alike shift (Behind shift) rank moved (Parser.get >>= next) (Parser.get >>= next') claim' results where
  run {_} small {_ _} agree {state stand} mirrors behind size_le := by
    have given := rest mirrors behind
    rw [← mirrors.newline behind] at given
    exact given.run small agree mirrors rfl size_le

/-- The place of the current token is kept in mind. -/
theorem here
    {next : Nat → P γ}
    {next' : Nat → P δ}
    (rest : ∀ {start start'}, shift.Places start start' →
      Alike shift on rank moved (next start) (next' start') claim' results) :
    Alike shift on rank moved (Parser.here >>= next) (Parser.here >>= next') claim' results where
  run {_} small {_ _} agree {_ _} mirrors held size_le :=
    (rest mirrors.start).run small agree mirrors held size_le

/-- The token is tested. -/
theorem test
    {tested : P α}
    {next : α → P γ}
    {next' : α → P δ}
    {answer : State → α}
    (looks : ∀ goals state, tested goals state = some (answer state, state))
    (blind : ∀ state stand, answer (state.onto stand) = answer state)
    (rest : ∀ {state}, on state →
      Alike shift (· = state) rank moved (next (answer state)) (next' (answer state)) claim' results) :
    Alike shift on rank moved (tested >>= next) (tested >>= next') claim' results where
  run {_} small {_ _} agree {_ stand} mirrors held size_le := by
    simp only [Bind.bind, looks, blind]
    exact (rest held).run small agree mirrors rfl size_le

theorem atMark
    {next : Bool → P γ}
    {next' : Bool → P δ}
    (rest : ∀ {state}, on state →
      Alike shift (· = state) rank moved (next (state.token.isMark text)) (next' (state.token.isMark text)) claim'
        results) :
    Alike shift on rank moved (Parser.atMark text >>= next) (Parser.atMark text >>= next') claim' results :=
  test (fun _ _ => rfl) (fun _ _ => rfl) rest

theorem atWord
    {next : Bool → P γ}
    {next' : Bool → P δ}
    (rest : ∀ {state}, on state →
      Alike shift (· = state) rank moved (next (state.token.isWord text)) (next' (state.token.isWord text)) claim'
        results) :
    Alike shift on rank moved (Parser.atWord text >>= next) (Parser.atWord text >>= next') claim' results :=
  test (fun _ _ => rfl) (fun _ _ => rfl) rest

theorem atOneOf
    {texts : List String}
    {next : Bool → P γ}
    {next' : Bool → P δ}
    (rest : ∀ {state}, on state →
      Alike shift (· = state) rank moved (next (texts.any state.token.isMark)) (next' (texts.any state.token.isMark))
        claim' results) :
    Alike shift on rank moved (Parser.atOneOf texts >>= next) (Parser.atOneOf texts >>= next') claim' results :=
  test (fun _ _ => rfl) (fun _ _ => rfl) rest

/-- A node covers the same part of both sources. -/
theorem node
    {start start' : Nat}
    {kind : Kind}
    {children children' : List Tree}
    {claim : Tree → Bool}
    (places : shift.Places start start')
    (inner : shift.Trees children children')
    [fewer : ∀ tree, Fewer (claim tree) moved] :
    Alike shift on rank moved (Parser.node start kind children) (Parser.node start' kind children') claim
      shift.Wholes where
  run {_} _ {_ _} _ {_ _} mirrors _ size_le :=
    have := fewer
    .some (.node ⟨places, mirrors.lastStop⟩ inner) mirrors
      (Nat.le_trans (Nat.add_le_add_left toNat_le_of_fewer _) size_le)

/-- A node that covers the same part of both sources is the same apart from its places. -/
theorem nodePart
    {start start' : Nat}
    {kind : Kind}
    {children children' : List Tree}
    {claim : Tree → Bool}
    (places : shift.Places start start')
    (inner : shift.Trees children children')
    [fewer : ∀ tree, Fewer (claim tree) moved] :
    Alike shift on rank moved (Parser.node start kind children) (Parser.node start' kind children') claim
      shift.Parts :=
  have whole : Alike shift on rank moved (Parser.node start kind children) (Parser.node start' kind children') claim
      shift.Wholes := node places inner
  whole.part

/-- A node is made, and both parsers go on with it in the same way. -/
theorem nodeThen
    {next : Tree → P γ}
    {next' : Tree → P δ}
    {start start' : Nat}
    {kind : Kind}
    {children children' : List Tree}
    (places : shift.Places start start')
    (inner : shift.Trees children children')
    (rest : ∀ tree tree', shift.Wholes tree tree' →
      Alike shift (fun _ => True) rank moved (next tree) (next' tree') claim' results) :
    Alike shift on rank moved (Parser.node start kind children >>= next) (Parser.node start' kind children' >>= next')
      claim' results :=
  have whole : Alike shift on rank moved (Parser.node start kind children) (Parser.node start' kind children')
      (fun _ => moved) shift.Wholes := node places inner
  bind whole rest

/-! ### Goals -/

/-- A goal of lower rank is asked for. -/
theorem wantFirst
    {goal : Goal}
    (lower : goal.rank < rank) :
    Alike shift on rank moved (want goal) (want goal) (fun _ => true) shift.Wholes where
  run {limit} small {goals others} agree {state stand} mirrors _ size_le := by
    have less : state.size ≤ limit := Nat.le_trans (Nat.le_add_right _ _) size_le
    have below : 16 * state.size + goal.rank < 16 * limit + rank := by omega
    exact (agree mirrors below).raise less

/-- Behind a token any goal is asked for. -/
theorem want
    (goal : Goal) :
    Alike shift on rank true (Parser.want goal) (Parser.want goal) (fun _ => true) shift.Wholes where
  run {limit} small {goals others} agree {state stand} mirrors _ size_le := by
    have less : state.size + 1 ≤ limit := size_le
    have bound : goal.rank < 16 := by cases goal <;> exact Nat.le_of_ble_eq_true rfl
    have below : 16 * state.size + goal.rank < 16 * limit + rank := by omega
    exact (agree mirrors below).raise (Nat.le_of_succ_le less)

/-! ### Changes of the state -/

/-- A change that goes no place back; with `moves`, a token is read. -/
theorem modify
    {change change' : State → State}
    (moves : Bool)
    (changes : ∀ {state stand}, Mirrors shift state stand → on state →
      ∃ stand', change' (state.onto stand) = (change state).onto stand' ∧ Mirrors shift (change state) stand' ∧
        (change state).size + moves.toNat ≤ state.size) :
    Alike shift on rank moved (Parser.modify change) (Parser.modify change') (fun _ => moves || moved) Eq where
  run {limit} _ {_ _} _ {state stand} mirrors held less := by
    obtain ⟨stand', same, mirrors', size_le⟩ := changes mirrors held
    simp only [Parser.modify, same]
    refine .some rfl mirrors' ?_
    cases moves with
    | true => exact Nat.le_trans size_le (Nat.le_trans (Nat.le_add_right _ _) less)
    | false => exact Nat.le_trans (Nat.add_le_add_right size_le _) less

theorem fault :
    Alike shift on rank moved Parser.fault Parser.fault (fun _ => moved) Eq :=
  modify false fun {_ stand} mirrors _ => ⟨stand, rfl, { mirrors with }, Nat.le_refl _⟩

theorem faultIf
    {condition condition' : Bool}
    (same : condition = condition') :
    Alike shift on rank moved (Parser.faultIf condition) (Parser.faultIf condition') (fun _ => moved) Eq := by
  subst same
  cases condition with
  | true => exact fault
  | false => exact pure rfl

/-- A fault does not hide that there is a token. -/
theorem faultThen
    {condition condition' : Bool}
    {next : Unit → P γ}
    {next' : Unit → P δ}
    (same : condition = condition')
    (rest : Alike shift Present rank moved (next ()) (next' ()) claim' results) :
    Alike shift Present rank moved (Parser.faultIf condition >>= next) (Parser.faultIf condition' >>= next') claim'
      results where
  run {_} small {_ _} agree {_ _} mirrors held size_le := by
    subst same
    cases condition with
    | true => exact rest.run small agree { mirrors with } held size_le
    | false => exact rest.run small agree mirrors held size_le

theorem withFlags
    {change : Flags → Flags}
    (inner : Alike shift (fun _ => True) rank moved parser other claim related) :
    Alike shift on rank moved (Parser.withFlags change parser) (Parser.withFlags change other) claim related where
  run {limit} small {goals others} agree {state stand} mirrors _ size_le := by
    have changed : Mirrors shift { state with flags := change state.flags } stand := { mirrors with }
    have meets := inner.run small agree changed trivial size_le
    have flagged : { state.onto stand with flags := change (state.onto stand).flags } =
      State.onto { state with flags := change state.flags } stand := rfl
    unfold Parser.withFlags
    rw [flagged]
    generalize parser goals { state with flags := change state.flags } = result at meets
    generalize other others (State.onto { state with flags := change state.flags } stand) = result' at meets
    cases meets with
    | none => exact .none
    | some values mirrors size_le => exact .some values { mirrors with } size_le

/-! ### Attempts -/

/-- What is found by an attempt was found by reading a token. -/
theorem attempt
    (inner : Alike shift on rank moved parser other (fun _ => true) related) :
    Alike shift on rank moved (Parser.attempt parser) (Parser.attempt other) (fun found => found.isSome || moved)
      (Option.Rel related) where
  run {limit} small {goals others} agree {state stand} mirrors held size_le := by
    have meets := inner.run small agree mirrors held size_le
    unfold Parser.attempt
    generalize parser goals state = result at meets
    generalize other others (state.onto stand) = result' at meets
    cases meets with
    | none => exact .some .none mirrors size_le
    | some values mirrors size_le => exact .some (.some values) mirrors size_le

/-- What is found by an attempt may have been found by reading a token. -/
theorem attemptOption
    (related : α → β → Prop)
    {parser : P (Option α)}
    {other : P (Option β)}
    (inner : Alike shift on rank moved parser other (fun found => found.isSome || moved) (Option.Rel related)) :
    Alike shift on rank moved (Parser.attemptOption parser) (Parser.attemptOption other)
      (fun found => found.isSome || moved) (Option.Rel related) where
  run {limit} small {goals others} agree {state stand} mirrors held size_le := by
    have meets := inner.run small agree mirrors held size_le
    unfold Parser.attemptOption
    generalize parser goals state = result at meets
    generalize other others (state.onto stand) = result' at meets
    cases meets with
    | none => exact .some .none mirrors size_le
    | some values mirrors' size_le' =>
        cases values with
        | none => exact .some .none mirrors size_le
        | some values => exact .some (.some values) mirrors' size_le'

/-- The same is found by an attempt, perhaps by reading a token. -/
theorem attemptSame
    {parser other : P (Option α)}
    (inner : Alike shift on rank moved parser other (fun found => found.isSome || moved) Eq) :
    Alike shift on rank moved (Parser.attemptOption parser) (Parser.attemptOption other)
      (fun found => found.isSome || moved) Eq := by
  have found : Alike shift on rank moved (Parser.attemptOption parser) (Parser.attemptOption other)
      (fun found => found.isSome || moved) (Option.Rel Eq) :=
    attemptOption Eq <| inner.mono (fun _ => .same _) fun {value _} same => same ▸ by cases value <;> constructor; rfl
  exact found.mono (fun _ => .same _) fun same => by
    cases same with
    | some same => rw [same]
    | none => rfl

/-- Nothing is claimed of what was read. -/
theorem loosely
    (alike : Alike shift on rank moved parser other claim related) :
    Alike shift on rank moved parser other (fun _ => false) related :=
  alike.mono (fun _ => inferInstance) id

/-- What is only tried has the same answer, and the state stays as it was. -/
theorem probe
    {parser other : P α}
    {next : α → P γ}
    {next' : α → P δ}
    (answer : α)
    (inner : Alike shift on rank moved parser other (fun _ => false) Eq)
    (rest : ∀ value, Alike shift on rank moved (next value) (next' value) claim' results) :
    Alike shift on rank moved (Parser.probe answer parser >>= next) (Parser.probe answer other >>= next') claim'
      results where
  run {limit} small {goals others} agree {state stand} mirrors held size_le := by
    have meets := inner.run small agree mirrors held size_le
    simp only [Bind.bind, Parser.probe]
    generalize parser goals state = result at meets
    generalize other others (state.onto stand) = result' at meets
    cases meets with
    | none => exact (rest answer).run small agree mirrors held size_le
    | some values _ _ =>
        subst values
        exact (rest _).run small agree mirrors held size_le

/-- A test that runs ahead has the same answer. -/
theorem ahead
    {parser other : P Bool}
    {next : Bool → P γ}
    {next' : Bool → P δ}
    (inner : Alike shift on rank moved parser other (fun _ => false) Eq)
    (rest : ∀ answer, Alike shift on rank moved (next answer) (next' answer) claim' results) :
    Alike shift on rank moved (Parser.ahead parser >>= next) (Parser.ahead other >>= next') claim' results :=
  probe false inner rest

/-- The answer of what is only tried is all that is wanted. -/
theorem probeOnly
    {parser other : P α}
    {claim : α → Bool}
    (answer : α)
    (inner : Alike shift on rank moved parser other (fun _ => false) Eq)
    [fewer : ∀ answer, Fewer (claim answer) moved] :
    Alike shift on rank moved (Parser.probe answer parser) (Parser.probe answer other) claim Eq where
  run {limit} small {goals others} agree {state stand} mirrors held size_le := by
    have meets := inner.run small agree mirrors held size_le
    have less (answer : α) : state.size + (claim answer).toNat ≤ limit :=
      have := fewer
      Nat.le_trans (Nat.add_le_add_left toNat_le_of_fewer _) size_le
    unfold Parser.probe
    generalize parser goals state = result at meets
    generalize other others (state.onto stand) = result' at meets
    cases meets with
    | none => exact .some rfl mirrors (less _)
    | some values _ _ => exact .some values mirrors (less _)

theorem aheadOnly
    {parser other : P Bool}
    {claim : Bool → Bool}
    (inner : Alike shift on rank moved parser other (fun _ => false) Eq)
    [fewer : ∀ answer, Fewer (claim answer) moved] :
    Alike shift on rank moved (Parser.ahead parser) (Parser.ahead other) claim Eq :=
  probeOnly false inner

/-! ### Tokens -/

end Alike

theorem skip_places
    {place place' : Nat}
    (places : shift.Places place place')
    (gap : Lexer.Gap)
    (newline : Bool)
    (notes : Lexer.Notes)
    (text : Text) :
    ∃ offset,
      Lexer.skip gap place' newline notes text = { Lexer.skip gap place newline notes text with offset } ∧
        shift.Places (Lexer.skip gap place newline notes text).offset offset := by
  obtain ⟨distance, rfl, rfl⟩ := places
  have first := Lexer.skip_add gap 0 (shift.first + distance) newline notes text
  have second := Lexer.skip_add gap 0 (shift.second + distance) newline notes text
  rw [Nat.zero_add] at first second
  refine ⟨_, by rw [first, second], ?_⟩
  rw [first]
  exact ⟨(Lexer.skip gap 0 newline notes text).offset + distance, by dsimp only; omega, by omega⟩

/-- The same token is read behind both states. -/
theorem Mirrors.load
    (mirrors : Mirrors shift state stand)
    (start : Lexer.Start)
    {offset : Nat}
    (places : shift.Places start.offset offset)
    (length_le : start.rest.length ≤ state.rest.length)
    {reading : Lexer.Reading}
    (some : reading.token ≠ .eof → 0 < reading.size ∧ start.rest ≠ []) :
    ∃ stand',
      (state.onto stand).load { start with offset } reading = (state.load start reading).onto stand' ∧
        Mirrors shift (state.load start reading) stand' := by
  have size_le : (state.load start reading).size ≤ state.size := Nat.le_trans length_le mirrors.rest_le
  refine ⟨{ stand with start := offset, stop := offset + reading.size, newline := start.newline,
                       lastStop := stand.stop }, rfl, ?_⟩
  exact
    { start := places
      stop := places.add _
      lastStop := mirrors.stop.ends
      newline := fun _ => rfl
      pending := mirrors.pending
      commas := mirrors.commas
      size_le := Nat.le_trans size_le mirrors.size_le
      size_lt := Nat.lt_of_le_of_lt size_le mirrors.size_lt
      size_lt' := Nat.lt_of_le_of_lt size_le mirrors.size_lt'
      rest_le := by
        rw [State.load, List.length_drop]
        exact Nat.sub_le _ _
      rest_lt := by
        intro token
        obtain ⟨positive, nonempty⟩ := some token
        have length := List.length_pos_iff.mpr nonempty
        change (start.rest.drop reading.size).length < start.rest.length
        rw [List.length_drop]
        omega }

theorem next_length_le
    (state : State) :
    state.next.size ≤ state.rest.length := by
  have ⟨behind, counted⟩ := Lexer.skip_length .blank state.stop false .none state.rest
  change (Lexer.skip .blank state.stop false .none state.rest).rest.length ≤ _
  omega

theorem Mirrors.next
    (mirrors : Mirrors shift state stand) :
    ∃ stand', (state.onto stand).next = state.next.onto stand' ∧ Mirrors shift state.next stand' := by
  obtain ⟨offset, same, places⟩ := skip_places mirrors.stop .blank false .none state.rest
  unfold State.next
  change ∃ stand',
    (state.onto stand).load (Lexer.skip .blank stand.stop false .none state.rest)
      (Lexer.read (Lexer.skip .blank stand.stop false .none state.rest).rest) = _ ∧ _
  rw [same]
  exact mirrors.load _ places (next_length_le state) Lexer.read_some

namespace Alike

variable
  {parser : P α}
  {other : P β}
  {next : α → P γ}
  {next' : β → P δ}
  {claim : α → Bool}
  {claim' : γ → Bool}
  {related : α → β → Prop}
  {results : γ → δ → Prop}

theorem advanceName :
    Alike shift on rank moved Parser.advanceName Parser.advanceName (fun _ => moved) Eq :=
  modify false fun mirrors _ =>
    have ⟨stand, same, mirrors'⟩ := mirrors.next
    ⟨stand, same, mirrors', Nat.le_trans (next_length_le _) mirrors.rest_le⟩

/-- Some of the text is taken by a token that is not the end. -/
theorem advanceNameFrom
    (some : ∀ {state}, on state → state.token ≠ .eof) :
    Alike shift on rank moved Parser.advanceName Parser.advanceName (fun _ => true) Eq :=
  modify true fun mirrors held =>
    have ⟨stand, same, mirrors'⟩ := mirrors.next
    ⟨stand, same, mirrors', Nat.lt_of_le_of_lt (next_length_le _) (mirrors.rest_lt (some held))⟩

theorem advance_changes
    (mirrors : Mirrors shift state stand) :
    ∃ stand',
      { (state.onto stand).next with
        faulty := (state.onto stand).next.faulty || (state.onto stand).isDisguised } =
        State.onto { state.next with faulty := state.next.faulty || state.isDisguised } stand' ∧
        Mirrors shift { state.next with faulty := state.next.faulty || state.isDisguised } stand' := by
  obtain ⟨stand', same, mirrors'⟩ := mirrors.next
  refine ⟨stand', ?_, { mirrors' with }⟩
  rw [same]
  rfl

theorem advance :
    Alike shift on rank moved Parser.advance Parser.advance (fun _ => moved) Eq :=
  modify false fun mirrors _ =>
    have ⟨stand, same, mirrors'⟩ := advance_changes mirrors
    ⟨stand, same, mirrors', Nat.le_trans (next_length_le _) mirrors.rest_le⟩

theorem advanceFrom
    (some : ∀ {state}, on state → state.token ≠ .eof) :
    Alike shift on rank moved Parser.advance Parser.advance (fun _ => true) Eq :=
  modify true fun mirrors held =>
    have ⟨stand, same, mirrors'⟩ := advance_changes mirrors
    ⟨stand, same, mirrors', Nat.lt_of_le_of_lt (next_length_le _) (mirrors.rest_lt (some held))⟩

theorem advanceAt
    (some : state.token ≠ .eof) :
    Alike shift (· = state) rank moved Parser.advance Parser.advance (fun _ => true) Eq :=
  advanceFrom fun same => same ▸ some

/-! ### Marks and words -/

theorem expect (text : String) :
    Alike shift on rank moved (Parser.expect text) (Parser.expect text) (fun _ => true) Eq := by
  unfold Parser.expect
  exact atMark fun _ => ite (fun isMark => advanceAt (Token.ne_eof_of_isMark isMark)) fun _ => fail

theorem expectWord (text : String) :
    Alike shift on rank moved (Parser.expectWord text) (Parser.expectWord text) (fun _ => true) Eq := by
  unfold Parser.expectWord
  exact atWord fun _ => ite (fun isWord => advanceAt (Token.ne_eof_of_isWord isWord)) fun _ => fail

theorem eat (text : String) :
    Alike shift on rank moved (Parser.eat text) (Parser.eat text) (fun found => found || moved) Eq := by
  unfold Parser.eat
  exact atMark fun _ =>
    ite (fun isMark => step (advanceAt (Token.ne_eof_of_isMark isMark)) fun _ => pure rfl) fun _ => pure rfl

theorem eatWord (text : String) :
    Alike shift on rank moved (Parser.eatWord text) (Parser.eatWord text) (fun found => found || moved) Eq := by
  unfold Parser.eatWord
  exact atWord fun _ =>
    ite (fun isWord => step (advanceAt (Token.ne_eof_of_isWord isWord)) fun _ => pure rfl) fun _ => pure rfl

/-- A mark that may be there. -/
theorem mayEat (text : String) :
    Alike shift on rank moved (Parser.eat text) (Parser.eat text) (fun _ => moved) Eq :=
  (eat text).mono (fun _ => .second _) id

/-- A word that may be there. -/
theorem mayEatWord (text : String) :
    Alike shift on rank moved (Parser.eatWord text) (Parser.eatWord text) (fun _ => moved) Eq :=
  (eatWord text).mono (fun _ => .second _) id

/-- A mark is taken if it is there; if not, the state stays as it was. -/
theorem ifEat
    {parser' : P α}
    {other' : P β}
    (first : Alike shift (fun _ => True) rank true parser other claim related)
    (second : Alike shift on rank moved parser' other' claim related) :
    Alike shift on rank moved
      (Parser.eat text >>= fun found => if found = true then parser else parser')
      (Parser.eat text >>= fun found => if found = true then other else other') claim related where
  run {_} small {_ _} agree {state stand} mirrors held size_le := by
    by_cases isMark : state.token.isMark text = true
    · rw [eat_then isMark, eat_then (show (state.onto stand).token.isMark text = true from isMark)]
      have taken := step (@advanceAt _ _ moved _ (Token.ne_eof_of_isMark isMark)) fun _ => first
      exact taken.run small agree mirrors rfl size_le
    · rw [eat_else isMark, eat_else (show ¬(state.onto stand).token.isMark text = true from isMark)]
      exact second.run small agree mirrors held size_le

/-- A word is taken if it is there; if not, the state stays as it was. -/
theorem ifEatWord
    {parser' : P α}
    {other' : P β}
    (first : Alike shift (fun _ => True) rank true parser other claim related)
    (second : Alike shift on rank moved parser' other' claim related) :
    Alike shift on rank moved
      (Parser.eatWord text >>= fun found => if found = true then parser else parser')
      (Parser.eatWord text >>= fun found => if found = true then other else other') claim related where
  run {_} small {_ _} agree {state stand} mirrors held size_le := by
    by_cases isWord : state.token.isWord text = true
    · rw [eatWord_then isWord, eatWord_then (show (state.onto stand).token.isWord text = true from isWord)]
      have taken := step (@advanceAt _ _ moved _ (Token.ne_eof_of_isWord isWord)) fun _ => first
      exact taken.run small agree mirrors rfl size_le
    · rw [eatWord_else isWord, eatWord_else (show ¬(state.onto stand).token.isWord text = true from isWord)]
      exact second.run small agree mirrors held size_le

/-- Where a line ended, a statement may end. -/
theorem canEndStatement :
    Alike shift on rank true Parser.canEndStatement Parser.canEndStatement (fun _ => true) Eq := by
  unfold Parser.canEndStatement
  exact getLine fun _ _ => pure rfl

theorem endStatement :
    Alike shift on rank true Parser.endStatement Parser.endStatement (fun _ => true) Eq := by
  unfold Parser.endStatement
  exact step canEndStatement fun ends => ite (fun _ => step (eat ";") fun _ => pure rfl) fun _ => fail

theorem optionalPart
    {condition condition' : Bool}
    (same : condition = condition')
    {parser other : P Tree}
    (inner : condition = true → Alike shift on rank moved parser other (fun _ => moved) shift.Parts) :
    Alike shift on rank moved (Parser.optionalPart condition parser) (Parser.optionalPart condition' other)
      (fun _ => moved) shift.Parts := by
  subst same
  exact ite inner fun _ => pure (.absent .nil)

end Alike

/-! ### Rounds -/

/-- The results of a turn are related. -/
inductive TurnsRelated {σ τ : Type} (held : σ → τ → Prop) (related : α → β → Prop) : Turn σ α → Turn τ β → Prop where
  | again
      {value : σ}
      {other : τ}
      (values : held value other) :
      TurnsRelated held related (.again value) (.again other)
  | done
      {value : α}
      {other : β}
      (values : related value other) :
      TurnsRelated held related (.done value) (.done other)

/-- A turn goes on only if a token was read. -/
def turnClaim {σ : Type} (claim : α → Bool) : Turn σ α → Bool
  | .again _ => true
  | .done value => claim value

namespace Alike

variable
  {σ τ : Type}
  {held : σ → τ → Prop}
  {claim : α → Bool}
  {related : α → β → Prop}

theorem again
    {value : σ}
    {other : τ}
    (values : held value other) :
    Alike shift on rank true (Pure.pure (Turn.again value)) (Pure.pure (Turn.again other)) (turnClaim claim)
      (TurnsRelated held related) :=
  keep (.again values) rfl

theorem done
    {value : α}
    {other : β}
    (values : related value other)
    [fewer : Fewer (claim value) moved] :
    Alike shift on rank moved (Pure.pure (Turn.done value)) (Pure.pure (Turn.done other)) (turnClaim claim)
      (TurnsRelated held related) :=
  have : Fewer (turnClaim claim (Turn.done value : Turn σ α)) moved := fewer
  pure (.done values)

end Alike

/-- The rank from which on goals are asked for in a round. -/
def roundRank (moved : Bool) (rank : Nat) : Nat :=
  if moved then 16 else rank

namespace Alike

variable {related : α → β → Prop}

/-- What holds of each round holds of all. -/
theorem rounds
    {σ τ : Type}
    {turn : σ → P (Turn σ α)}
    {turn' : τ → P (Turn τ β)}
    {value : σ}
    {value' : τ}
    (claim : α → Bool)
    (held : σ → τ → Prop)
    (begins : held value value')
    (each : ∀ value value', held value value' →
      Alike shift (fun state => moved = true → state.size < shift.size) (roundRank moved rank) false (turn value)
        (turn' value') (turnClaim claim) (TurnsRelated held related)) :
    Alike shift on rank moved (Parser.rounds turn value) (Parser.rounds turn' value') (fun found => claim found || moved)
      related where
  run {limit} small {goals others} agree {state stand} mirrors _ size_le := by
    -- by induction on the rounds that one bound allows; the text left is less than either bound
    have trips (count count' : Nat) (value : σ) (value' : τ) (values : held value value') :
        ∀ {state stand}, Mirrors shift state stand → state.size + moved.toNat ≤ limit → state.size < count →
          state.size < count' →
            Meets shift limit (fun found => claim found || moved) related (roundTrips turn count value goals state)
              (roundTrips turn' count' value' others (state.onto stand)) := by
      induction count generalizing count' value value' with
      | zero => exact fun _ _ none => absurd none (Nat.not_lt_zero _)
      | succ count inductionHypothesis =>
          intro state stand mirrors size_le enough enough'
          obtain ⟨count', rfl⟩ : ∃ rest, count' = rest + 1 := ⟨count' - 1, by omega⟩
          have bound : 16 * state.size + roundRank moved rank ≤ 16 * limit + rank := by
            unfold roundRank
            cases moved with
            | true =>
                rw [if_pos rfl]
                simp only [Bool.toNat_true] at size_le
                omega
            | false =>
                simp only [Bool.toNat_false] at size_le
                simp only [Bool.false_eq_true, if_false]
                omega
          have later : moved = true → state.size < shift.size := by
            rintro rfl
            exact Nat.lt_of_lt_of_le size_le small
          have meets := (each value value' values).run mirrors.size_le (agree.mono bound) mirrors later (Nat.le_refl _)
          simp only [roundTrips, Bind.bind]
          generalize turn value goals state = result at meets
          generalize turn' value' others (state.onto stand) = result' at meets
          cases meets with
          | none => exact .none
          | some turns mirrors' size_le' =>
              cases turns with
              | again values =>
                  have shorter := Nat.lt_of_succ_le size_le'
                  exact inductionHypothesis _ _ _ values mirrors' (by omega) (by omega) (by omega)
              | @done found _ values =>
                  refine .some values mirrors' ?_
                  change _ + (claim found).toNat ≤ _ at size_le'
                  have more : (claim found || moved).toNat ≤ (claim found).toNat + moved.toNat := by
                    cases claim found <;> cases moved <;> exact Nat.le_of_ble_eq_true rfl
                  omega
    exact trips _ _ _ _ begins mirrors size_le mirrors.size_lt mirrors.size_lt'

/-- Behind a token each round may ask for any goal. -/
theorem roundsBehind
    {σ τ : Type}
    {turn : σ → P (Turn σ α)}
    {turn' : τ → P (Turn τ β)}
    {value : σ}
    {value' : τ}
    (held : σ → τ → Prop)
    (begins : held value value')
    (each : ∀ value value', held value value' →
      Alike shift (Behind shift) 16 false (turn value) (turn' value') (turnClaim fun _ => false)
        (TurnsRelated held related)) :
    Alike shift on rank true (Parser.rounds turn value) (Parser.rounds turn' value') (fun _ => true) related :=
  rounds (fun _ => false) held begins fun value value' values =>
    (each value value' values).given fun behind => behind rfl

end Alike

end Parser

end LiveComponent
