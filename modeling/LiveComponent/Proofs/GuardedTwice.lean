import LiveComponent.Proofs.DisjointEdits
import LiveComponent.Proofs.GuardReading

namespace LiveComponent

/-!
# Guarding a source twice

A second run leaves a source as the first one has made it if every teardown call that it reaches stands under its own
test, or in a `try` statement if it is a disposal.  What stands in the body of such a guard is left alone.  But a
guard repeats operands in its test, and nothing guards the calls in them.
-/

namespace Teardown

variable
  {source text : Text}
  {around inner : Surroundings}
  {tree node expression : Tree}

/-! ## What surrounds a call -/

/-- The test under which a call is put, as a text. -/
def Call.testText? (source : Text) : Call → Option Text
  | removal parent child => some (childTest (textOf source parent) (textOf source child))
  | unlistening owner => some (elementTest (textOf source owner))
  | disposal => none

/-- Whether what surrounds the call guards it. -/
def Call.isGuarded (source : Text) (around : Surroundings) (call : Call) : Bool :=
  match call.testText? source with
  | some test => around.isTested test
  | none => around.handled

/-- A teardown call gets a guard unless what surrounds it guards it. -/
theorem guarded?_of_call?
    {call : Call}
    (isCall : call? expression = some call) :
    guarded? source around expression =
      if call.isGuarded source around then none else some (call.text source expression) := by
  unfold call? at isCall
  split at isCall
  next object name _ _ _ arguments =>
    split at isCall
    next removes =>
      split at isCall
      next child =>
        obtain rfl := Option.some.inj isCall
        rw [guarded?, if_pos removes]
        rfl
      next => cases isCall
    next keeps =>
      split at isCall
      next unlistens =>
        obtain ⟨owner, owned, rfl⟩ := Option.map_eq_some_iff.mp isCall
        unfold guarded?
        dsimp only
        rw [if_neg keeps, if_pos unlistens, owned]
        rfl
      next listens =>
        split at isCall
        next disposes =>
          obtain rfl := Option.some.inj isCall
          unfold guarded?
          dsimp only
          rw [if_neg keeps, if_neg listens, if_pos disposes.1, disposes.2, Call.isGuarded]
          cases around.handled <;> rfl
        next => cases isCall
  next => cases isCall

/-- A run over the source comes to the call, which is a statement with the span. -/
structure Meets
    (source : Text)
    (tree : Tree)
    (around : Surroundings)
    (span : Span)
    (expression : Tree)
    (call : Call) :
    Prop where
  reached : Reaches source .top tree around (.node .expressionStatement span [expression])
  isCall : call? expression = some call

/-- A run makes the edits of the calls that it comes to and that nothing guards. -/
theorem mem_edits_iff
    {edit : Edit} :
    edit ∈ edits source tree ↔
      ∃ around span expression call,
        Meets source tree around span expression call ∧ call.isGuarded source around = false ∧
          edit = ⟨span.start, span.stop, call.text source expression⟩ := by
  constructor
  · intro member
    obtain ⟨around, statement, reached, guarded⟩ := mem_editsWithin_iff.mp member
    unfold edit? at guarded
    split at guarded
    next span expression =>
      obtain ⟨text, made, rfl⟩ := Option.map_eq_some_iff.mp guarded
      obtain ⟨call, isCall, rfl⟩ := call?_of_guarded? made
      rw [guarded?_of_call? isCall] at made
      split at made
      next => cases made
      next unguarded =>
        exact ⟨around, span, expression, call, ⟨reached, isCall⟩, Bool.eq_false_iff.mpr unguarded, rfl⟩
    next => cases guarded
  · rintro ⟨around, span, expression, call, ⟨reached, isCall⟩, unguarded, rfl⟩
    refine mem_editsWithin_iff.mpr ⟨around, _, reached, ?_⟩
    rw [edit?, guarded?_of_call? isCall, unguarded]
    rfl

/-- On the way into a tree, what surrounds a node grows. -/
structure Surroundings.Grows (outer inner : Surroundings) : Prop where
  tests : ∀ test, outer.isTested test = true → inner.isTested test = true
  handled : outer.handled = true → inner.handled = true

theorem Surroundings.grows_inside
    (around : Surroundings)
    (source : Text)
    (tree : Tree)
    (place : Nat) :
    around.Grows (around.inside source tree place) := by
  unfold Surroundings.inside
  split
  · refine ⟨fun test tested => ?_, id⟩
    rw [Surroundings.isTested, List.contains_cons, Bool.or_eq_true]
    exact .inr tested
  · exact ⟨fun _ => id, fun _ => rfl⟩
  · exact ⟨fun _ => id, id⟩

theorem Reaches.grows
    (reaches : Reaches source around tree inner node) :
    around.Grows inner := by
  induction reaches with
  | here => exact ⟨fun _ => id, id⟩
  | @child around inner tree child node place kept found further inductionHypothesis =>
      have first := around.grows_inside source tree place
      exact ⟨fun test tested => inductionHypothesis.tests test (first.tests test tested),
        fun handled => inductionHypothesis.handled (first.handled handled)⟩

/-- A call that is reached in the body of a test is guarded if the test is its own, up to blanks. -/
theorem isGuarded_of_test
    {span : Span}
    {test consequent : Tree}
    {rest : List Tree}
    {call : Call}
    (reached : Reaches source (around.inside source (.node .conditionalStatement span (test :: consequent :: rest)) 1)
      consequent inner node)
    (own : (call.testText? source).map Text.squash = some (Text.squash (textOf source test))) :
    call.isGuarded source inner = true := by
  obtain ⟨text, given, same⟩ := Option.map_eq_some_iff.mp own
  rw [Call.isGuarded, given]
  refine reached.grows.tests text ?_
  simp [Surroundings.inside, Surroundings.isTested, same]

/-- A disposal that is reached in the block of a `try` statement is guarded. -/
theorem isGuarded_of_try
    {span : Span}
    {block : Tree}
    {rest : List Tree}
    (reached : Reaches source (around.inside source (.node .tryStatement span (block :: rest)) 0) block inner node) :
    Call.isGuarded source inner .disposal = true :=
  reached.grows.handled rfl

/-! ## The second run -/

/-- A run finds nothing to do if every call that it comes to is guarded. -/
theorem guard_eq_self_iff
    (parsed : parse? (isTyped source) source = some tree) :
    guard source = (source, []) ↔
      ∀ around span expression call,
        Meets source tree around span expression call → call.isGuarded source around = true := by
  have warned := warnings_guard parsed
  have none : guard source = (source, []) ↔ edits source tree = [] := by
    constructor
    · intro same
      rw [same, warningsFor] at warned
      split at warned
      next count => exact List.eq_nil_of_length_eq_zero count
      next => cases warned
    · intro none
      rw [none] at warned
      exact Prod.ext (by rw [guard_eq_splice parsed, none, Text.splice_nil]) warned
  rw [none, List.eq_nil_iff_forall_not_mem]
  constructor
  · intro none around span expression call met
    cases guarded : call.isGuarded source around with
    | true => rfl
    | false => exact absurd (mem_edits_iff.mpr ⟨around, span, expression, call, met, guarded, rfl⟩) (none _)
  · intro all edit member
    obtain ⟨around, span, expression, call, met, unguarded, -⟩ := mem_edits_iff.mp member
    rw [all around span expression call met] at unguarded
    cases unguarded

/-- The text that a first run gives is kept by a second run if it is no module.  Otherwise the second run finds
nothing to do exactly if every call that it comes to is guarded, and puts guards over the others, each in its place.
A call in the body of a test that is its own is guarded, and so is a disposal in the block of a `try` statement. -/
theorem guarded_again
    {source once : Text}
    (guarded : (guard source).1 = once) :
    (parse? (isTyped once) once = none → (guard (guard source).1).1 = once) ∧
    ∀ tree, parse? (isTyped once) once = some tree →
      (guard (guard source).1 = (once, []) ↔
        ∀ around span expression call,
          Meets once tree around span expression call → call.isGuarded once around = true) ∧
      (Text.Rewritten (edits once tree) once (guard (guard source).1).1 ∧
        ∀ edit, edit ∈ edits once tree ↔
          ∃ around span expression call,
            Meets once tree around span expression call ∧ call.isGuarded once around = false ∧
              edit = ⟨span.start, span.stop, call.text once expression⟩) ∧
      (∀ (around inner : Surroundings) span test consequent rest node (call : Call),
        Reaches once (around.inside once (.node .conditionalStatement span (test :: consequent :: rest)) 1)
          consequent inner node →
        (call.testText? once).map Text.squash = some (Text.squash (textOf once test)) →
          call.isGuarded once inner = true) ∧
      ∀ (around inner : Surroundings) span block rest node,
        Reaches once (around.inside once (.node .tryStatement span (block :: rest)) 0) block inner node →
          Call.isGuarded once inner .disposal = true := by
  rw [guarded]
  refine ⟨fun broken => ?_, fun tree parsed => ⟨guard_eq_self_iff parsed,
    ⟨rewritten_guard parsed, fun edit => mem_edits_iff⟩,
    fun around inner span test consequent rest node call reached own => isGuarded_of_test reached own,
    fun around inner span block rest node reached => isGuarded_of_try reached⟩⟩
  rw [guard, broken]

/-- The removal of a function that disposes: its copies in the test are guarded in the second run. -/
theorem guarded_again_of_function :
    ∃ source once tree,
      (guard source).1 = once ∧ parse? (isTyped once) once = some tree ∧
        (edits once tree).length = 3 ∧
        Text.Rewritten (edits once tree) once (guard once).1 ∧
        guard once ≠ (once, []) := by
  obtain ⟨source, found⟩ : ∃ source, (parse? (isTyped (guard source).1) (guard source).1).any (fun tree =>
      (edits (guard source).1 tree).length == 3) = true :=
    ⟨"p.removeChild(function () \x7b q.dispose(); \x7d);".toList, by decide +kernel⟩
  obtain ⟨tree, parsed, counted⟩ := (Option.any_eq_true ..).mp found
  obtain ⟨-, again⟩ := guarded_again (rfl : (guard source).1 = _)
  obtain ⟨unchanged, ⟨rewritten, reasons⟩, -⟩ := again tree parsed
  refine ⟨source, _, tree, rfl, parsed, eq_of_beq counted, rewritten, fun same => ?_⟩
  obtain ⟨edit, among⟩ := List.exists_mem_of_length_pos (l := edits (guard source).1 tree) (by
    rw [eq_of_beq counted]
    decide)
  obtain ⟨around, span, expression, call, met, unguarded, -⟩ := (reasons edit).mp among
  rw [unchanged.mp same around span expression call met] at unguarded
  cases unguarded

/-- A statement in a function that the guard repeats is guarded in the second run. -/
theorem guard_not_idempotent :
    ¬∀ source, (guard (guard source).1).1 = (guard source).1 := by
  intro kept
  obtain ⟨source, differs⟩ : ∃ source, ((guard (guard source).1).1 != (guard source).1) = true :=
    ⟨"p.removeChild(function () \x7b q.dispose(); \x7d);".toList, by decide +kernel⟩
  rw [bne_iff_ne] at differs
  exact differs (kept source)

end Teardown

end LiveComponent
