import LiveComponent.Proofs.LayoutModules
import LiveComponent.Proofs.ShiftRules
import LiveComponent.Proofs.TokenTexts

namespace LiveComponent

/-!
# Places of texts in sources

Where the same text is left of two sources, their parsers stand alike, and go on in the same way from there on.
-/

namespace Lexer

/-- What the comments before a token say depends on the text only. -/
theorem skip_notes
    (text : Text)
    (gap : Gap)
    (offset other : Nat)
    (newline newline' : Bool)
    (notes : Notes) :
    (skip gap offset newline notes text).notes = (skip gap other newline' notes text).notes := by
  fun_induction skip gap offset newline notes text generalizing other newline' <;> grind [skip]

/-- A line that ended before a place has also ended before what is behind it. -/
theorem skip_newline
    (text : Text)
    (gap : Gap)
    (offset : Nat)
    (notes : Notes) :
    (skip gap offset true notes text).newline = true := by
  generalize ended : true = newline
  fun_induction skip gap offset newline notes text <;> grind

/-- Behind blanks among which a line ends, a line has ended. -/
theorem skip_newline_of_blanks
    {blanks : Text}
    (blank : ∀ c ∈ blanks, isGap c = true)
    (ends : '\n' ∈ blanks)
    (offset : Nat)
    (newline : Bool)
    (notes : Notes)
    (text : Text) :
    (skip .blank offset newline notes (blanks ++ text)).newline = true := by
  induction blanks generalizing offset newline with
  | nil => cases ends
  | cons c blanks inductionHypothesis =>
      rw [List.forall_mem_cons] at blank
      rw [List.cons_append, skip]
      split
      · exact skip_newline _ _ _ _
      next noEnd =>
        have space : isSpace c = true := by
          have gap := blank.1
          rw [isGap, Bool.or_eq_true] at gap
          exact gap.resolve_left noEnd
        rw [if_pos space]
        refine inductionHypothesis blank.2 ((List.mem_cons.mp ends).resolve_left ?_) _ _
        rintro rfl
        exact noEnd rfl

/-- Blanks in front of a text change nothing but its place. -/
theorem startOf_blank
    {c : Char}
    (blank : isGap c = true)
    (text : Text) :
    (startOf (c :: text)).rest = (startOf text).rest ∧ (startOf (c :: text)).closed = (startOf text).closed ∧
      (startOf (c :: text)).notes = (startOf text).notes := by
  have same (newline : Bool) := skip_same text .blank 1 0 newline false .none .none
  have notes (newline : Bool) := skip_notes text .blank 1 0 newline false .none
  rw [startOf, skip]
  split
  · exact ⟨(same true).1, (same true).2, notes true⟩
  next noEnd =>
    have space : isSpace c = true := by
      rw [isGap, Bool.or_eq_true] at blank
      exact blank.resolve_left noEnd
    rw [if_pos space]
    exact ⟨(same false).1, (same false).2, notes false⟩

end Lexer

namespace Parser

open Lexer

/-- The parser stands at the first token of the text, and all that it knows of the token is right. -/
structure State.OpensAt (state : State) (text : Text) : Prop where
  stands : state.StandsAt text
  here : state.here = (startOf text).rest
  notes : state.notes = (startOf text).notes
  stop : state.stop = state.start + (firstReading text).size

variable
  {state state' after : State}
  {tokens : List Token}
  {text rest : Text}
  {c : Char}

namespace State.OpensAt

/-- What follows the token is left of what follows the state. -/
theorem rest_eq
    (opens : state.OpensAt text) :
    state.rest = state.here.drop (firstReading text).size := by
  rw [opens.stands.2, opens.here]
  rfl

theorem rest_le
    (opens : state.OpensAt text) :
    state.rest.length ≤ state.size := by
  rw [opens.rest_eq, List.length_drop]
  exact Nat.sub_le _ _

/-- Less is left behind a token than before it. -/
theorem rest_lt
    (opens : state.OpensAt text)
    (present : state.token ≠ .eof) :
    state.rest.length < state.size := by
  rw [opens.stands.1] at present
  obtain ⟨positive, filled⟩ := read_some present
  rw [opens.rest_eq, State.size, opens.here, List.length_drop]
  have some := List.length_pos_of_ne_nil filled
  change 0 < (firstReading text).size at positive
  omega

end State.OpensAt

theorem opensAt_next
    (state : State) :
    state.next.OpensAt state.rest := by
  have same := skip_same state.rest .blank state.stop 0 false false .none .none
  have reading :
      Lexer.read (Lexer.skip .blank state.stop false .none state.rest).rest = firstReading state.rest := by
    rw [same.1]
    rfl
  refine ⟨(passes_next state).stands, same.1, skip_notes state.rest .blank state.stop 0 false false .none, ?_⟩
  exact congrArg (fun reading => state.next.start + reading.size) reading

theorem opensAt_of_blank
    (blank : isGap c = true)
    (opens : state.OpensAt (c :: text)) :
    state.OpensAt text := by
  obtain ⟨start, -, notes⟩ := startOf_blank blank text
  have reading : firstReading (c :: text) = firstReading text := congrArg read start
  obtain ⟨⟨token, left⟩, here, said, stop⟩ := opens
  rw [behind, start, reading] at left
  rw [reading] at token stop
  exact ⟨⟨token, left⟩, here.trans start, said.trans notes, stop⟩

theorem opensAt_of_blanks
    {blanks : Text}
    (blank : ∀ c ∈ blanks, isGap c = true)
    (opens : state.OpensAt (blanks ++ text)) :
    state.OpensAt text := by
  induction blanks with
  | nil => exact opens
  | cons c blanks inductionHypothesis =>
      rw [List.forall_mem_cons] at blank
      exact inductionHypothesis blank.2 (opensAt_of_blank blank.1 opens)

theorem isSound_blanks
    {blanks : Text}
    (blank : ∀ c ∈ blanks, isGap c = true)
    (text : Text) :
    isSound (blanks ++ text) = isSound text := by
  induction blanks with
  | nil => rfl
  | cons c blanks inductionHypothesis =>
      rw [List.forall_mem_cons] at blank
      obtain ⟨start, closed, -⟩ := startOf_blank blank.1 (blanks ++ text)
      rw [List.cons_append, isSound, closed, firstReading, start, ← inductionHypothesis blank.2]
      rfl

/-- Behind tokens that a text spells, the parser stands at what follows them. -/
theorem opensAt_of_runs
    (spells : Spells tokens text rest)
    (filled : tokens ≠ [])
    (stands : state.StandsAt text)
    (runs : Runs tokens state after) :
    after.OpensAt rest := by
  induction tokens generalizing state text with
  | nil => exact absurd rfl filled
  | cons token tokens inductionHypothesis =>
      obtain ⟨-, -, further⟩ := spells
      obtain ⟨-, runs⟩ := runs
      cases tokens with
      | nil =>
          obtain rfl := runs
          obtain rfl := further
          have opens := opensAt_next state
          rw [stands.2] at opens
          exact opens
      | cons other tokens =>
          have step := (passes_next state).stands
          rw [stands.2] at step
          exact inductionHypothesis further (List.cons_ne_nil _ _) step runs

/-! ## The same text in two sources -/

/-- All of a state but what depends on its place. -/
structure State.Peers (state state' : State) : Prop where
  typed : state'.typed = state.typed
  faulty : state'.faulty = state.faulty
  flags : state'.flags = state.flags
  pending : state.pending = [] ∧ state'.pending = []
  commas : state.commas = [] ∧ state'.commas = []

/-- What a state knows that depends on its place. -/
def State.stand (state : State) : Stand :=
  ⟨state.budget, state.start, state.stop, state.newline, state.lastStop, state.pending, state.commas⟩

/-- Where the same text is left of two sources, the parser stands in one as in the other. -/
theorem mirrors_of_opensAt
    {size size' : Nat}
    (opens : state.OpensAt text)
    (opens' : state'.OpensAt text)
    (alike : state.Peers state')
    (sound : state.Sound size)
    (sound' : state'.Sound size')
    (small : state.size < state.budget)
    (small' : state.size < state'.budget) :
    state' = state.onto state'.stand ∧
      Mirrors ⟨state.start, state'.start, state.size⟩ state state'.stand := by
  have here : state'.here = state.here := opens'.here.trans opens.here.symm
  have left : state'.rest = state.rest := opens'.stands.2.trans opens.stands.2.symm
  have same : state' = state.onto state'.stand := by
    have token : state'.token = state.token := opens'.stands.1.trans opens.stands.1.symm
    have notes : state'.notes = state.notes := opens'.notes.trans opens.notes.symm
    obtain ⟨typed, faulty, flags, -, -⟩ := alike
    cases state
    cases state'
    simp_all [State.onto, State.stand]
  refine ⟨same, ⟨0, rfl, rfl⟩, ?_, .inr ⟨sound.lastStop_le, sound'.lastStop_le⟩, ?_, ?_, ?_, Nat.le_refl _, small,
    small', opens.rest_le, opens.rest_lt⟩
  · exact ⟨(firstReading text).size, opens.stop, opens'.stop⟩
  · exact fun less => (Nat.lt_irrefl _ less).elim
  · change List.Forall₂ _ state.pending state'.pending
    rw [alike.pending.1, alike.pending.2]
    exact .nil
  · change List.Forall₂ _ state.commas state'.commas
    rw [alike.commas.1, alike.commas.2]
    exact .nil

/-- A parser mirrors itself with other rounds. -/
theorem mirrors_of_budget
    {budget : Nat}
    (opens : state.OpensAt text)
    (small : state.size < state.budget)
    (small' : state.size < budget) :
    Mirrors ⟨0, 0, state.size⟩ state { state.stand with budget } := by
  have itself (place : Nat) : Shift.Places ⟨0, 0, state.size⟩ place place :=
    ⟨place, (Nat.zero_add _).symm, (Nat.zero_add _).symm⟩
  have all (places : List Nat) : List.Forall₂ (Shift.Places ⟨0, 0, state.size⟩) places places :=
    List.forall₂_same.mpr fun place _ => itself place
  exact ⟨itself _, itself _, .inl (itself _), fun _ => rfl, all _, all _, Nat.le_refl _, small, small', opens.rest_le,
    opens.rest_lt⟩

end Parser

end LiveComponent
