import LiveComponent.Proofs.ExpressionStart

namespace LiveComponent

/-!
# Runs over tokens

A parser that reads a part of a source goes over its tokens one by one.  What it finds is compared without the
places and the parentheses, and without what comments say.
-/

/-- The kind without what the comments say. -/
def Kind.bare : Kind → Kind
  | .function form isAsync isGenerator declared _ => .function form isAsync isGenerator declared false
  | .arrow isAsync isExpression _ => .arrow isAsync isExpression false
  | .call isOptional _ => .call isOptional false
  | .construct _ => .construct false
  | kind => kind

namespace Tree

/-- A node without its place and what the comments say; parentheses are left out. -/
def bareNode : Kind → List Tree → Tree
  | .parenthesized, [inner] => inner
  | kind, parts => made kind.bare parts

/-- The tree without its places, its parentheses and what the comments say. -/
def bare : Tree → Tree :=
  fold fun tree parts => bareNode tree.kind parts

@[simp]
theorem bare_node
    (kind : Kind)
    (span : Span)
    (children : List Tree) :
    (node kind span children).bare = bareNode kind (children.map bare) :=
  fold_node ..

@[simp]
theorem bare_absent :
    absent.bare = absent := rfl

end Tree

namespace Parser

variable {α β σ : Type} {goals : Goal → Step Tree} {state middle after : State}

/-! ## Single steps -/

theorem advance_eq
    (clear : state.isDisguised = false) :
    advance goals state = some ((), state.next) := by
  simp only [advance, modify, clear, Bool.or_false]

theorem isDisguised_of_isMark
    {text : String}
    (mark : state.token.isMark text = true) :
    state.isDisguised = false := by
  unfold State.isDisguised
  cases token : state.token with
  | word word escaped =>
      rw [token] at mark
      cases mark
  | _ => rfl

/-- A word without escapes is the given one. -/
theorem isDisguised_of_word
    {word : Text}
    (token : state.token = .word word false) :
    state.isDisguised = false := by
  simp only [State.isDisguised, token]

theorem eat_eq_true
    {text : String}
    (mark : state.token.isMark text = true) :
    eat text goals state = some (true, state.next) := by
  rw [eat, atMark_bind, mark, if_pos rfl, bind_of_some (advance_eq (isDisguised_of_isMark mark))]
  rfl

theorem eat_eq_false
    {text : String}
    (other : state.token.isMark text = false) :
    eat text goals state = some (false, state) := by
  rw [eat, atMark_bind, other]
  rfl

theorem expect_eq
    {text : String}
    (mark : state.token.isMark text = true) :
    expect text goals state = some ((), state.next) := by
  rw [expect, atMark_bind, mark, if_pos rfl, advance_eq (isDisguised_of_isMark mark)]

theorem eatWord_eq_true
    {text : String}
    (token : state.token = .word text.toList false) :
    eatWord text goals state = some (true, state.next) := by
  have isWord : state.token.isWord text = true := by
    rw [token]
    exact beq_self_eq_true _
  rw [eatWord, atWord_bind, isWord, if_pos rfl, bind_of_some (advance_eq (isDisguised_of_word token))]
  rfl

theorem eatWord_eq_false
    {text : String}
    (other : state.token.isWord text = false) :
    eatWord text goals state = some (false, state) := by
  rw [eatWord, atWord_bind, other]
  rfl

/-- The state with other flags. -/
def State.flagged (state : State) (flags : Flags) : State :=
  { state with flags }

@[simp]
theorem next_flags :
    state.next.flags = state.flags := rfl

@[simp]
theorem next_budget :
    state.next.budget = state.budget := rfl

@[simp]
theorem next_typed :
    state.next.typed = state.typed := rfl

/-- A parser that keeps the flags is run with other ones. -/
theorem withFlags_eq
    {change : Flags → Flags}
    {parser : P α}
    {value : α}
    (kept : after.flags = state.flags)
    (found : parser goals (state.flagged (change state.flags)) =
      some (value, after.flagged (change state.flags))) :
    withFlags change parser goals state = some (value, after) := by
  rw [State.flagged] at found
  simp only [withFlags, found]
  rw [← kept]
  rfl

/-! ## Rounds -/

theorem rounds_eq
    (step : σ → P (Turn σ α))
    (value : σ) :
    rounds step value goals state = roundTrips step state.budget value goals state := rfl

theorem roundTrips_again
    {step : σ → P (Turn σ α)}
    {value found : σ}
    (again : step value goals state = some (.again found, after))
    (count : Nat) :
    roundTrips step (count + 1) value goals state = roundTrips step count found goals after := by
  rw [roundTrips, bind_of_some again]

theorem roundTrips_done
    {step : σ → P (Turn σ α)}
    {value : σ}
    {result : α}
    (done : step value goals state = some (.done result, after))
    (count : Nat) :
    roundTrips step (count + 1) value goals state = some (result, after) := by
  rw [roundTrips, bind_of_some done]
  rfl

/-! ## Tokens in a row -/

/-- The tokens from one state on lead to another one. -/
def Runs : List Token → State → State → Prop
  | [], state, after => after = state
  | token :: tokens, state, after => state.token = token ∧ Runs tokens state.next after

@[simp]
theorem runs_nil :
    Runs [] state after ↔ after = state := Iff.rfl

@[simp]
theorem runs_cons
    {token : Token}
    {tokens : List Token} :
    Runs (token :: tokens) state after ↔ state.token = token ∧ Runs tokens state.next after := Iff.rfl

theorem runs_append
    {tokens more : List Token} :
    Runs (tokens ++ more) state after ↔ ∃ middle, Runs tokens state middle ∧ Runs more middle after := by
  induction tokens generalizing state with
  | nil =>
      simp
  | cons token tokens inductionHypothesis =>
      simp [inductionHypothesis, and_assoc]

/-- A run keeps all but the place. -/
theorem Runs.kept
    {tokens : List Token}
    (runs : Runs tokens state after) :
    after.flags = state.flags ∧ after.budget = state.budget ∧ after.typed = state.typed := by
  induction tokens generalizing state with
  | nil =>
      obtain rfl := runs
      exact ⟨rfl, rfl, rfl⟩
  | cons token tokens inductionHypothesis =>
      have later := inductionHypothesis runs.2
      exact later

/-- The same run with other flags. -/
theorem Runs.flagged
    {tokens : List Token}
    (runs : Runs tokens state after)
    (flags : Flags) :
    Runs tokens (state.flagged flags) (after.flagged flags) := by
  induction tokens generalizing state with
  | nil =>
      obtain rfl := runs
      rfl
  | cons token tokens inductionHypothesis =>
      have later := inductionHypothesis runs.2
      exact ⟨runs.1, later⟩

/-- A goal is met behind a run, and the tree is the given one. -/
def Reads (depth : Nat) (goal : Goal) (state after : State) (tree : Tree) : Prop :=
  ∃ found, reach depth goal state = some (found, after) ∧ found.bare = tree

/-! ## Trees that comments mark -/

@[simp]
theorem bare_markPure
    (tree : Tree) :
    (markPure tree).bare = tree.bare := by
  fun_induction markPure tree <;> simp_all [Tree.bareNode, Kind.bare]

@[simp]
theorem bare_markHarmless
    (tree : Tree) :
    (markHarmless tree).bare = tree.bare := by
  fun_cases markHarmless tree <;> simp [Tree.bareNode, Kind.bare]

@[simp]
theorem span_markPure
    (tree : Tree) :
    (markPure tree).span = tree.span := by
  fun_cases markPure tree <;> rfl

@[simp]
theorem span_markHarmless
    (tree : Tree) :
    (markHarmless tree).span = tree.span := by
  fun_cases markHarmless tree <;> rfl

/-- The expression at a state as the comments before it mark it. -/
def State.noted (state : State) (tree : Tree) : Tree :=
  let operand := if state.notes.call then markPure tree else tree
  if state.notes.function then markHarmless operand else operand

@[simp]
theorem bare_noted
    (state : State)
    (tree : Tree) :
    (state.noted tree).bare = tree.bare := by
  unfold State.noted
  split <;> split <;> simp

@[simp]
theorem span_noted
    (state : State)
    (tree : Tree) :
    (state.noted tree).span = tree.span := by
  unfold State.noted
  split <;> split <;> simp

/-- A call that is marked is a call with the same parts. -/
theorem noted_call
    (state : State)
    (pure : Bool)
    (span : Span)
    (parts : List Tree) :
    ∃ pure', state.noted (.node (.call false pure) span parts) = .node (.call false pure') span parts := by
  unfold State.noted
  cases state.notes.call <;> cases state.notes.function <;> exact ⟨_, rfl⟩

end Parser

end LiveComponent
