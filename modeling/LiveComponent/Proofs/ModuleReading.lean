import LiveComponent.Proofs.StatementChains
import LiveComponent.Proofs.TextPlaces

namespace LiveComponent

/-!
# How sources are read as modules

A source is a module if its statements are read in a row up to its end.  From a text on that two sources have in common,
they have the same statements, and these export the same names.
-/

namespace Parser

open Lexer

/-! ## Places of a source -/

/-- The source does not name an interpreter. -/
def namesNoInterpreter (source : Text) : Bool :=
  !"#!".toList.isPrefixOf source

/-- What is allowed outside of all functions. -/
def outerFlags : Flags :=
  ⟨true, true, false, false, false, false, false⟩

/-- The parser of a source has come to a text without a fault, apart from one of the text's first token. -/
structure Reached (typed : Bool) (source : Text) (state : State) (text : Text) : Prop where
  opens : state.OpensAt text
  sound : state.Sound source.length
  faulty : state.faulty = !isSound text
  budget : state.budget = source.length + 2
  types : state.typed = typed
  flags : state.flags = outerFlags
  pending : state.pending = []
  commas : state.commas = []

variable
  {typed : Bool}
  {source source' text rest : Text}
  {state state' after : State}
  {tokens : List Token}
  {tree : Tree}
  {trees : List Tree}

theorem skipHashbang_eq
    (plain : namesNoInterpreter source = true) :
    skipHashbang source = (source, 0) := by
  unfold skipHashbang
  split
  next => cases plain
  next => rfl

theorem reached_initial
    (typed : Bool)
    (plain : namesNoInterpreter source = true) :
    Reached typed source (State.initial typed source) source := by
  have sound := sound_initial typed source
  unfold State.initial at sound ⊢
  rw [skipHashbang_eq plain] at sound ⊢
  let empty : State := ⟨typed, source.length + 2, .bad, 0, 0, false, .none, source, source, 0, false, outerFlags, [], []⟩
  obtain ⟨stands, here, notes, stop⟩ := opensAt_next empty
  have faulty := (passes_next empty).faulty
  rw [Bool.false_or] at faulty
  exact ⟨⟨stands, here, notes, stop⟩, sound, faulty, rfl, rfl, rfl, rfl, rfl⟩

namespace Reached

theorem size_le
    (reached : Reached typed source state text) :
    state.size ≤ source.length := by
  have length := reached.sound.here_length
  unfold State.size
  omega

/-- Blanks in front of a text do not matter. -/
theorem blanks
    {blanks : Text}
    (reached : Reached typed source state (blanks ++ text))
    (blank : ∀ c ∈ blanks, isGap c = true) :
    Reached typed source state text :=
  { reached with
    opens := opensAt_of_blanks blank reached.opens
    faulty := reached.faulty.trans (congrArg not (isSound_blanks blank text)) }

/-- The parser goes over the tokens that the text spells. -/
theorem runs
    (reached : Reached typed source state text)
    (spells : Spells tokens text rest)
    (filled : tokens ≠ []) :
    ∃ after, Runs tokens state after ∧ Reached typed source after rest := by
  obtain ⟨after, runs, passes⟩ := runs_of_spells spells filled reached.opens.stands
  have sound : isSound text = true := by
    cases tokens with
    | nil => exact absurd rfl filled
    | cons => exact spells.2.1
  have places : after.Sound source.length := by
    have sound := reached.sound
    clear * - sound runs
    induction tokens generalizing state with
    | nil =>
        obtain rfl := runs
        exact sound
    | cons token tokens inductionHypothesis => exact inductionHypothesis runs.2 (leads_next sound).sound
  refine ⟨after, runs, opensAt_of_runs spells filled reached.opens.stands runs, places, ?_,
    passes.budget.trans reached.budget, passes.typed.trans reached.types, passes.flags.trans reached.flags,
    passes.pending.trans reached.pending, passes.commas.trans reached.commas⟩
  rw [passes.faulty, reached.faulty, sound, Bool.not_true, Bool.false_or]

/-- Where the same text is left of two sources, they have the same statements from there on. -/
theorem chain
    (reached : Reached typed source state text)
    (reached' : Reached typed source' state' text)
    (chain : Chain (depthBound source) state trees after) :
    ∃ (shift : Shift) (others : List Tree) (stand : Stand),
      Chain (depthBound source') state' others (after.onto stand) ∧ shift.Trees trees others ∧
        (after.pending = [] → stand.pending = []) ∧ trees.length ≤ source.length ∧ others.length ≤ source'.length := by
  have small := reached.size_le
  have small' := reached'.size_le
  have sizes : state.size = state'.size :=
    congrArg List.length (reached.opens.here.trans reached'.opens.here.symm)
  have alike : state.Peers state' :=
    ⟨reached'.types.trans reached.types.symm, reached'.faulty.trans reached.faulty.symm,
      reached'.flags.trans reached.flags.symm, ⟨reached.pending, reached'.pending⟩, ⟨reached.commas, reached'.commas⟩⟩
  obtain ⟨same, mirrors⟩ := mirrors_of_opensAt reached.opens reached'.opens alike reached.sound reached'.sound
    (by rw [reached.budget]; omega) (by rw [reached'.budget]; omega)
  obtain ⟨others, stand, chain', trees, mirrors', fewer⟩ := chain.mirrored mirrors
    (show _ < depthBound source by unfold depthBound; omega) (show _ < depthBound source' by unfold depthBound; omega)
  rw [← same] at chain'
  have length := trees.length_eq
  refine ⟨_, others, stand, chain', trees, fun none => ?_, by omega, by omega⟩
  have pending := mirrors'.pending
  rw [none] at pending
  exact List.forall₂_nil_left_iff.mp pending

/-- A parser at a text mirrors itself. -/
theorem mirrors
    (reached : Reached typed source state text) :
    ∃ (shift : Shift) (stand : Stand), Mirrors shift state stand := by
  have small := reached.size_le
  have alike : state.Peers state :=
    ⟨rfl, rfl, rfl, ⟨reached.pending, reached.pending⟩, ⟨reached.commas, reached.commas⟩⟩
  have enough : state.size < state.budget := by
    rw [reached.budget]
    omega
  exact ⟨_, _, (mirrors_of_opensAt reached.opens reached.opens alike reached.sound reached.sound enough enough).2⟩

/-- At the end of a source nothing is left to read. -/
theorem ends
    (reached : Reached typed source state []) :
    state.token = .eof ∧ state.faulty = false ∧ state.pending = [] :=
  ⟨reached.opens.stands.1, reached.faulty, reached.pending⟩

end Reached

/-- What is read within some depth and rounds is read within all that suffice for the text. -/
theorem Reads.of_enough
    {goal : Goal}
    {depth depth' budget : Nat}
    (reads : Reads depth' goal { state with budget } after tree)
    (opens : state.OpensAt text)
    (small : state.size < state.budget)
    (small' : state.size < budget)
    (deep : 16 * state.size + goal.rank < depth)
    (deep' : 16 * state.size + goal.rank < depth') :
    ∃ last stand, after = last.onto stand ∧ last.pending = after.pending ∧ Reads depth goal state last tree := by
  obtain ⟨found, read, bare⟩ := reads
  have meets := agree_reach (Nat.succ_le_of_lt deep) (Nat.succ_le_of_lt deep') (mirrors_of_budget opens small small')
    (Nat.lt_succ_self _)
  have same : state.onto { state.stand with budget } = { state with budget } := rfl
  rw [same, read] at meets
  generalize reached : reach depth goal state = result at meets
  cases meets with
  | @some other _ last stand values mirrors _ =>
      have places : last.pending = stand.pending :=
        List.forall₂_eq_eq_eq ▸ mirrors.pending.imp fun _ _ ⟨_, first, second⟩ => first.trans second.symm
      have bares : [other].map Tree.bare = [found].map Tree.bare := Shift.Trees.fold_eq (fun _ => rfl) values.parts
      exact ⟨last, stand, rfl, places, other, reached, (List.cons.inj bares).1.trans bare⟩

/-! ## Sources as modules -/

/-- A source is a module if it is read to its end without a fault and exports no name twice. -/
theorem parse?_eq_some :
    parse? typed source = some tree ↔
      ∃ trees after, directivesAndStatements atEnd (want (.statement false)) (reach (depthBound source))
          (State.initial typed source) = some (trees, after) ∧
        after.faulty = false ∧ after.pending = [] ∧ (typed || allDistinct (trees.flatMap exportedNames)) = true ∧
        tree = .node .program ⟨0, after.stop⟩ trees := by
  unfold parse? parseWith? program
  constructor
  · intro parsed
    split at parsed
    next found after ran =>
      obtain ⟨trees, _, listed, ran⟩ := exists_of_bind ran
      cases ran
      split at parsed
      next => cases parsed
      next good =>
        split at parsed
        next => cases parsed
        next distinct =>
          cases parsed
          rw [Bool.not_eq_true, Bool.or_eq_false_iff, Bool.not_eq_false', List.isEmpty_iff] at good
          refine ⟨trees, after, listed, good.1, good.2, ?_, rfl⟩
          cases typed
          · simpa [Tree.children] using distinct
          · rfl
    next => cases parsed
  · rintro ⟨trees, after, listed, sound, settled, distinct, rfl⟩
    rw [bind_of_some listed]
    change (if (after.faulty || !after.pending.isEmpty) = true then none
      else if (!typed && !allDistinct (trees.flatMap exportedNames)) = true then none else _) = _
    rw [sound, settled, ← Bool.not_or, distinct]
    rfl

/-- Where no string stands at the head, a source is a module if its statements are read in a row. -/
theorem parse?_iff_chain
    (plain : namesNoInterpreter source = true)
    (noString : (State.initial typed source).token.isString = false) :
    parse? typed source = some tree ↔
      ∃ trees after, Chain (depthBound source) (State.initial typed source) trees after ∧ after.token = .eof ∧
        after.faulty = false ∧ after.pending = [] ∧ (typed || allDistinct (trees.flatMap exportedNames)) = true ∧
        tree = .node .program ⟨0, after.stop⟩ trees := by
  have start := reached_initial typed plain
  have listed {trees : List Tree} {after : State}
      (chain : Chain (depthBound source) (State.initial typed source) trees after)
      (ends : after.token = .eof) :
      directivesAndStatements atEnd (want (.statement false)) (reach (depthBound source)) (State.initial typed source) =
        some (trees, after) := by
    obtain ⟨-, -, -, -, -, -, short, -⟩ := start.chain start chain
    exact directivesAndStatements_of_chain noString chain ends (by rw [start.budget]; omega)
  rw [parse?_eq_some]
  constructor
  · rintro ⟨trees, after, ran, facts⟩
    obtain ⟨read, chain, ends, -⟩ := chain_of_directivesAndStatements ran
    obtain ⟨rfl, -⟩ := Prod.mk.inj (Option.some.inj ((listed chain ends).symm.trans ran))
    exact ⟨read, after, chain, ends, facts⟩
  · rintro ⟨trees, after, chain, ends, facts⟩
    exact ⟨trees, after, listed chain ends, facts⟩

/-- A directive exports what the statement exports for which it stands. -/
theorem exportedNames_of_stands
    {statement : Tree}
    (stands : Stands statement tree) :
    exportedNames tree = exportedNames statement := by
  rcases stands with rfl | ⟨raw, found⟩
  · rfl
  · unfold directive? at found
    split at found
    next =>
      split at found <;> cases found
      rfl
    next => cases found

/-- What a directive has in common with its statement, the directives and statements of a source have too. -/
theorem flatMap_of_stands
    {α : Type}
    {find : Tree → List α}
    (each : ∀ {statement tree}, Stands statement tree → find tree = find statement)
    {statements : List Tree}
    (stands : List.Forall₂ Stands statements trees) :
    trees.flatMap find = statements.flatMap find := by
  induction stands with
  | nil => rfl
  | cons first _ rest => rw [List.flatMap_cons, List.flatMap_cons, each first, rest]

section

variable {shift : Shift} {tree' : Tree}

theorem boundNames_eq
    (same : shift.Parts tree tree') :
    boundNames tree = boundNames tree' := by
  have folded : [tree].map boundNames = [tree'].map boundNames :=
    Shift.Trees.fold_eq (fun {kind _ _ _ _} _ => by cases kind <;> rfl) same
  exact (List.cons.inj folded).1

theorem exportedText_eq
    (same : shift.Parts tree tree') :
    exportedText tree = exportedText tree' := by
  cases same with
  | absent => rfl
  | @node kind => cases kind <;> rfl

theorem declaredExports_eq
    (same : shift.Parts tree tree') :
    declaredExports tree = declaredExports tree' := by
  have first {trees others : List Tree} (same : shift.Trees trees others) :
      (trees.take 1).flatMap boundNames = (others.take 1).flatMap boundNames := by
    cases trees with
    | nil => rw [same.of_nil_left]
    | cons =>
        obtain ⟨_, _, rfl, head, -⟩ := same.of_cons_left
        exact congrArg (· ++ []) (boundNames_eq head)
  cases same with
  | absent => rfl
  | @node kind _ _ _ _ _ _ _ inner _ =>
    cases kind with
    | bindings => exact inner.flatMap_eq fun same => first same.children
    | function =>
        cases inner with
        | nil => rfl
        | absent => rfl
        | node spans inner => exact boundNames_eq (.node spans inner .nil)
    | classLike =>
        cases inner with
        | nil => rfl
        | absent later | node _ _ later =>
            cases later with
            | nil => rfl
            | absent => rfl
            | node spans inner => exact boundNames_eq (.node spans inner .nil)
    | _ => rfl

/-- What a statement exports does not depend on its place. -/
theorem exportedNames_eq
    (same : shift.Parts tree tree') :
    exportedNames tree = exportedNames tree' := by
  have second {tree tree' : Tree} (same : shift.Parts tree tree') :
      (tree.children.drop 1).flatMap exportedText = (tree'.children.drop 1).flatMap exportedText := by
    have parts := same.children
    cases children : tree.children with
    | nil =>
        rw [children] at parts
        rw [parts.of_nil_left]
    | cons =>
        rw [children] at parts
        obtain ⟨_, _, more, -, later⟩ := parts.of_cons_left
        rw [more]
        exact later.flatMap_eq exportedText_eq
  cases same with
  | absent => rfl
  | @node kind _ _ _ _ _ _ _ inner _ =>
    cases kind with
    | exportDeclaration =>
        cases inner with
        | nil => rfl
        | absent later =>
            cases later <;> rfl
        | node spans inner later =>
            cases later with
            | nil => exact declaredExports_eq (.node spans inner .nil)
            | absent | node => rfl
    | exportNames =>
        cases inner with
        | nil => rfl
        | absent later | node _ _ later => exact later.flatMap_eq second
    | exportAll =>
        cases inner with
        | nil => rfl
        | absent later | node _ _ later =>
            cases later with
            | nil => rfl
            | absent later | node _ _ later =>
                cases later with
                | nil => first | rfl | exact exportedText_eq (.node ‹_› ‹_› .nil)
                | absent | node => rfl
    | _ => rfl

end

end Parser

end LiveComponent
