import LiveComponent.Proofs.StatementReading

namespace LiveComponent

/-!
# How directives are read

A string that no other part of an expression follows is a statement on its own, and at the head of a source it is kept
as a directive.
-/

namespace Parser

variable
  {state : State}
  {value : Text}
  {escaped : Bool}

/-- Whether a statement that is an operand ends before the current token. -/
def State.endsStatement (state : State) : Bool :=
  endsAssignment state.token && !state.token.isMark "," &&
    (state.newline || state.token == .eof || state.token.isMark ";" || state.token.isMark "\x7d")

/-- The state behind the end of a statement, with its semicolon if there is one. -/
def State.ended (state : State) : State :=
  if state.token.isMark ";" then state.next else state

/-- Where a statement ends, its semicolon is taken. -/
theorem endStatement_of_ends
    {goals : Goal → Step Tree}
    (ends : state.endsStatement = true) :
    endStatement goals state = some ((), state.ended) := by
  rw [State.endsStatement, Bool.and_eq_true] at ends
  have canEnd : canEndStatement goals state = some (true, state) := by
    rw [canEndStatement, get_bind, ends.2]
    rfl
  rw [endStatement, bind_of_some canEnd, if_pos rfl, State.ended]
  split
  next isMark =>
    rw [bind_of_some (eat_eq_true isMark)]
    rfl
  next isMark =>
    rw [bind_of_some (eat_eq_false (Bool.eq_false_iff.mpr isMark))]
    rfl

/-- An expression on its own that nothing else of an assignment follows is an assignment. -/
theorem assignment_atom
    {kind : Kind}
    {depth : Nat}
    (atom : state.token.atom? = some kind)
    (filled : 0 < state.budget)
    (ends : endsAssignment state.next.token = true) :
    reach (depth + 4) (.assignment true) state =
      some (.node kind ⟨state.start, state.next.lastStop⟩ [], state.next) := by
  let found := Tree.node kind ⟨state.start, state.next.lastStop⟩ []
  have starts := Token.startsOperand_of_atom? atom
  have unmarked : markPure found = found ∧ markHarmless found = found := by
    rcases Token.kind_of_atom? atom with rfl | rfl | ⟨_, rfl⟩ | ⟨_, rfl⟩ | ⟨_, _, rfl⟩ <;> exact ⟨rfl, rfl⟩
  have operation : endsOperation 1 state.next.token = true := by
    simp only [endsAssignment, Bool.and_eq_true] at ends
    exact ends.1
  have operand : endsOperand state.next.token = true := by
    simp only [endsOperation, Bool.and_eq_true] at operation
    exact operation.1.1
  have prolongs := prolongs_of_endsOperand operand
  rw [State.prolongs, Bool.or_eq_false_iff] at prolongs
  obtain ⟨count, budget⟩ : ∃ count, state.next.budget = count + 1 := Nat.exists_eq_succ_of_ne_zero (Nat.ne_of_gt filled)
  -- the goals down to the expression, and up again
  have leftHanded : reach (depth + 1) .leftHand state = some (found, state.next) := by
    change leftHand (reach depth) state = _
    rw [leftHand, here_bind, bind_of_some (primary_eq atom)]
    refine suffixes_eq ?_
    rw [budget]
    exact roundTrips_done (link_done prolongs.1 _ _) count
  have unary : reach (depth + 2) .unary state = some (found, state.next) := unary_eq starts leftHanded prolongs.2
  have operated : reach (depth + 3) (.operation 1) state = some (found, state.next) := by
    refine (operation_eq starts unary filled 1 operation).trans ?_
    rw [unmarked.1, ite_self]
  refine (assignment_eq starts operated ends true).trans ?_
  rw [unmarked.2, ite_self]

/-- A string at whose end a statement may end is a statement. -/
theorem statement_string
    {depth : Nat}
    (token : state.token = .string value escaped)
    (filled : 0 < state.budget)
    (ends : state.next.endsStatement = true)
    (single : Bool) :
    reach (depth + 6) (.statement single) state =
      some (.node .expressionStatement ⟨state.start, state.next.ended.lastStop⟩
        [.node (.stringLiteral value escaped) ⟨state.start, state.next.lastStop⟩ []], state.next.ended) := by
  have atom : state.token.atom? = some (.stringLiteral value escaped) := by rw [token]; rfl
  have closed := ends
  simp only [State.endsStatement, Bool.and_eq_true, Bool.not_eq_true'] at closed
  have assigned := @assignment_atom state _ depth atom filled closed.1.1
  have wanted : want .expression (reach (depth + 5)) state = _ := expression_eq assigned filled closed.1.2
  refine statement_eq (Token.isWord_of_atom? atom (by decide)) (Token.isWord_of_atom? atom (by decide))
    (Token.isMark_of_atom? atom "@") ((plainStatement_of_atom? atom single).trans ?_) rfl
  rw [expressionStatement, here_bind, bind_of_some wanted]
  change (endStatement >>= _) _ _ = _
  rw [bind_of_some (endStatement_of_ends ends)]
  rfl

/-- The statement of a string at the head of a source is a directive. -/
theorem directive?_string
    (raw : Text)
    (start stop last : Nat) :
    directive? raw (.node .expressionStatement ⟨start, last⟩ [.node (.stringLiteral value escaped) ⟨start, stop⟩ []]) =
      some (.node (.directive ((raw.drop 1).take (stop - start - 2))) ⟨start, last⟩ []) :=
  if_pos rfl

end Parser

end LiveComponent
