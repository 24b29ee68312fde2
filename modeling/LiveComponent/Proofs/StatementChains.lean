import LiveComponent.Proofs.ShiftModules
import LiveComponent.Proofs.TokenRuns

namespace LiveComponent

/-!
# Statements in a row

A source is read statement by statement.  Strings at its head are read as statements too and then kept as directives.
From a place on from which two sources are alike, they have the same statements.
-/

namespace Parser

/-- Reading statements in a row leads from one state to another one. -/
inductive Chain (depth : Nat) : State → List Tree → State → Prop where
  | nil
      (state : State) :
      Chain depth state [] state
  | cons
      {state middle after : State}
      {tree : Tree}
      {trees : List Tree}
      (more : state.token ≠ .eof)
      (read : reach depth (.statement false) state = some (tree, middle))
      (later : Chain depth middle trees after) :
      Chain depth state (tree :: trees) after

/-- One more statement, unless the source ends. -/
def collect (items : List Tree) : P (Turn (List Tree) (List Tree)) := do
  if ← atEnd then
    return .done items.reverse
  else
    return .again ((← want (.statement false)) :: items)

/-- One more directive, unless the source ends or there are no more directives. -/
def collectDirective (done : List Tree × Bool) : P (Turn (List Tree × Bool) (List Tree)) := do
  if !done.2 || (← atEnd) || !(← get).token.isString then
    return .done done.1
  else
    let raw := (← get).here
    let statement ← want (.statement false)
    match directive? raw statement with
    | some tree => return .again (tree :: done.1, true)
    | none => return .again (statement :: done.1, false)

/-- The tree is the statement, or the directive that the statement stands for. -/
def Stands (statement tree : Tree) : Prop :=
  tree = statement ∨ ∃ raw, directive? raw statement = some tree

variable
  {depth : Nat}
  {state middle after : State}
  {tree : Tree}
  {trees more directives statements : List Tree}

theorem directivesAndStatements_eq :
    directivesAndStatements atEnd (want (.statement false)) =
      (do
        let directives ← rounds collectDirective ([], true)
        let statements ← rounds collect []
        return directives.reverse ++ statements) := rfl

/-- Without an end, statements are read. -/
theorem collect_eq
    {items : List Tree}
    (more : state.token ≠ .eof)
    (read : reach depth (.statement false) state = some (tree, middle)) :
    collect items (reach depth) state = some (.again (tree :: items), middle) := by
  have wanted : want (.statement false) (reach depth) state = some (tree, middle) := read
  have isNone : (state.token == .eof) = false := beq_eq_false_iff_ne.mpr more
  change (if state.token == .eof then _ else _ : P _) _ _ = _
  rw [isNone]
  change (want (.statement false) >>= _) _ _ = _
  rw [bind_of_some wanted]
  rfl

/-- The directives end where no string stands. -/
theorem collectDirective_done
    {done : List Tree × Bool}
    (noString : state.token.isString = false) :
    collectDirective done (reach depth) state = some (.done done.1, state) := by
  change (if !done.2 || (state.token == .eof) || !state.token.isString then _ else _ : P _) _ _ = _
  rw [noString, Bool.not_false, Bool.or_true, if_pos rfl]
  rfl

/-- A string is read as a statement, and is the last one that is asked for directives if it stands for none. -/
theorem collectDirective_string
    {done : List Tree}
    {statement : Tree}
    (isString : state.token.isString = true)
    (read : reach depth (.statement false) state = some (statement, middle)) :
    collectDirective (done, true) (reach depth) state =
      some (.again (match directive? state.here statement with
        | some tree => (tree :: done, true)
        | none => (statement :: done, false)), middle) := by
  have wanted : want (.statement false) (reach depth) state = some (statement, middle) := read
  have isNone : (state.token == .eof) = false := by
    apply beq_eq_false_iff_ne.mpr
    intro isEnd
    rw [isEnd] at isString
    cases isString
  change (if !true || (state.token == .eof) || !state.token.isString then _ else _ : P _) _ _ = _
  rw [isString, isNone]
  change (want (.statement false) >>= _) _ _ = _
  rw [bind_of_some wanted]
  cases directive? state.here statement <;> rfl

/-- A string is read as a statement and kept as the directive for which it stands. -/
theorem collectDirective_again
    {done : List Tree}
    {statement : Tree}
    (isString : state.token.isString = true)
    (read : reach depth (.statement false) state = some (statement, middle))
    (directive : directive? state.here statement = some tree) :
    collectDirective (done, true) (reach depth) state = some (.again (tree :: done, true), middle) := by
  rw [collectDirective_string isString read, directive]

/-- A string that is no directive is a statement, and the last one that is asked for directives. -/
theorem collectDirective_last
    {done : List Tree}
    {statement : Tree}
    (isString : state.token.isString = true)
    (read : reach depth (.statement false) state = some (statement, middle))
    (noDirective : directive? state.here statement = none) :
    collectDirective (done, true) (reach depth) state = some (.again (statement :: done, false), middle) := by
  rw [collectDirective_string isString read, noDirective]

namespace Chain

theorem append
    (first : Chain depth state trees middle)
    (second : Chain depth middle more after) :
    Chain depth state (trees ++ more) after := by
  induction first with
  | nil => exact second
  | cons more read _ inductionHypothesis => exact .cons more read (inductionHypothesis second)

/-- What is read in a row up to the end goes on from any state that statements lead to. -/
theorem split
    (first : Chain depth state trees middle)
    (whole : Chain depth state more after)
    (ends : after.token = .eof) :
    ∃ later, more = trees ++ later ∧ Chain depth middle later after := by
  induction first generalizing more with
  | nil => exact ⟨more, rfl, whole⟩
  | cons onward read _ inductionHypothesis =>
      cases whole with
      | nil => exact absurd ends onward
      | cons _ read' further =>
          rw [read] at read'
          obtain ⟨rfl, rfl⟩ := Prod.mk.inj (Option.some.inj read')
          obtain ⟨later, rfl, chain⟩ := inductionHypothesis further
          exact ⟨later, rfl, chain⟩

end Chain

/-! ## What was read -/

/-- Statements up to the end were read in a row. -/
theorem chain_of_collect
    {items : List Tree}
    {count : Nat}
    (ran : roundTrips collect count items (reach depth) state = some (trees, after)) :
    ∃ read, trees = items.reverse ++ read ∧ Chain depth state read after ∧ after.token = .eof := by
  -- by induction on the rounds; the trees found before them are kept in reverse order
  induction count generalizing items state with
  | zero => cases ran
  | succ count inductionHypothesis =>
      obtain ⟨turn, middle, turned, ran⟩ := exists_of_bind ran
      obtain ⟨ends, _, tested, turned⟩ := exists_of_bind turned
      cases tested
      split at turned
      next isEnd =>
        cases turned
        cases ran
        exact ⟨[], (List.append_nil _).symm, .nil _, eq_of_beq isEnd⟩
      next isNone =>
        obtain ⟨tree, middle, read, turned⟩ := exists_of_bind turned
        cases turned
        obtain ⟨read', rfl, chain, ends⟩ := inductionHypothesis ran
        refine ⟨tree :: read', by simp, .cons (fun isEnd => isNone ?_) read chain, ends⟩
        rw [isEnd]
        rfl

/-- Directives were read as statements in a row. -/
theorem chain_of_collectDirective
    {done : List Tree × Bool}
    {count : Nat}
    (ran : roundTrips collectDirective count done (reach depth) state = some (trees, after)) :
    ∃ read kept, trees = kept.reverse ++ done.1 ∧ Chain depth state read after ∧ List.Forall₂ Stands read kept := by
  -- by induction on the rounds; the trees found before them are kept in reverse order
  induction count generalizing done state with
  | zero => cases ran
  | succ count inductionHypothesis =>
      obtain ⟨turn, between, turned, ran⟩ := exists_of_bind ran
      obtain ⟨ends, _, tested, turned⟩ := exists_of_bind turned
      cases tested
      obtain ⟨_, _, looked, turned⟩ := exists_of_bind turned
      cases looked
      split at turned
      next =>
        cases turned
        cases ran
        exact ⟨[], [], rfl, .nil _, .nil⟩
      next isString =>
        obtain ⟨_, _, looked, turned⟩ := exists_of_bind turned
        cases looked
        obtain ⟨statement, between, read, turned⟩ := exists_of_bind turned
        have more : state.token ≠ .eof := by
          intro isEnd
          simp [isEnd] at isString
        cases found : directive? state.here statement with
        | some tree =>
            rw [found] at turned
            cases turned
            obtain ⟨read', kept, rfl, chain, same⟩ := inductionHypothesis ran
            exact ⟨statement :: read', tree :: kept, by simp, .cons more read chain, .cons (.inr ⟨_, found⟩) same⟩
        | none =>
            rw [found] at turned
            cases turned
            obtain ⟨read', kept, rfl, chain, same⟩ := inductionHypothesis ran
            exact ⟨statement :: read', statement :: kept, by simp, .cons more read chain, .cons (.inl rfl) same⟩

/-- The directives and statements of a source were read as statements in a row. -/
theorem chain_of_directivesAndStatements
    (ran : directivesAndStatements atEnd (want (.statement false)) (reach depth) state = some (trees, after)) :
    ∃ read, Chain depth state read after ∧ after.token = .eof ∧ List.Forall₂ Stands read trees := by
  rw [directivesAndStatements_eq] at ran
  obtain ⟨directives, middle, headed, ran⟩ := exists_of_bind ran
  obtain ⟨statements, _, listed, ran⟩ := exists_of_bind ran
  cases ran
  obtain ⟨read, kept, rfl, first, same⟩ := chain_of_collectDirective headed
  obtain ⟨_, rfl, later, ends⟩ := chain_of_collect listed
  refine ⟨read ++ _, first.append later, ends, ?_⟩
  rw [List.append_nil, List.reverse_reverse]
  exact List.rel_append same (List.forall₂_same.mpr fun _ _ => .inl rfl)

/-- Behind a directive at the head, the other directives and statements were read as statements in a row. -/
theorem chain_of_directive
    {statement : Tree}
    (isString : state.token.isString = true)
    (read : reach depth (.statement false) state = some (statement, middle))
    (directive : directive? state.here statement = some tree)
    (ran : directivesAndStatements atEnd (want (.statement false)) (reach depth) state = some (trees, after)) :
    ∃ read later, trees = tree :: later ∧ Chain depth middle read after ∧ after.token = .eof ∧
      List.Forall₂ Stands read later := by
  rw [directivesAndStatements_eq] at ran
  obtain ⟨directives, between, headed, ran⟩ := exists_of_bind ran
  obtain ⟨statements, _, listed, ran⟩ := exists_of_bind ran
  cases ran
  rw [rounds_eq] at headed
  cases budget : state.budget with
  | zero =>
      rw [budget] at headed
      cases headed
  | succ count =>
      rw [budget, roundTrips_again (collectDirective_again isString read directive)] at headed
      obtain ⟨read, kept, rfl, first, same⟩ := chain_of_collectDirective headed
      obtain ⟨more, same', later, ends⟩ := chain_of_collect listed
      rw [List.reverse_nil, List.nil_append] at same'
      subst same'
      refine ⟨read ++ statements, kept ++ statements, by simp, first.append later, ends, ?_⟩
      exact List.rel_append same (List.forall₂_same.mpr fun _ _ => .inl rfl)

/-! ## What is read -/

/-- Statements in a row are read up to the end, if there are rounds enough. -/
theorem rounds_of_chain
    (chain : Chain depth state trees after)
    (ends : after.token = .eof)
    (enough : trees.length < state.budget) :
    rounds collect [] (reach depth) state = some (trees, after) := by
  have trips {items : List Tree} {count : Nat} (enough : trees.length < count) :
      roundTrips collect count items (reach depth) state = some (items.reverse ++ trees, after) := by
    clear * - chain ends enough
    induction chain generalizing items count with
    | nil state =>
        obtain ⟨count, rfl⟩ := Nat.exists_eq_succ_of_ne_zero (Nat.ne_zero_of_lt enough)
        rw [List.append_nil]
        refine roundTrips_done ?_ count
        change (if state.token == .eof then _ else _ : P _) _ _ = _
        rw [ends]
        rfl
    | @cons state middle after tree trees more read later inductionHypothesis =>
        rw [List.length_cons] at enough
        obtain ⟨count, rfl⟩ := Nat.exists_eq_succ_of_ne_zero (Nat.ne_zero_of_lt enough)
        have fewer : trees.length < count := Nat.lt_of_succ_lt_succ enough
        rw [roundTrips_again (collect_eq more read), inductionHypothesis ends fewer, List.reverse_cons,
          List.append_assoc]
        rfl
  exact trips enough

/-- Where no string stands at the head, there are no directives. -/
theorem directivesAndStatements_of_chain
    (noString : state.token.isString = false)
    (chain : Chain depth state trees after)
    (ends : after.token = .eof)
    (enough : trees.length < state.budget) :
    directivesAndStatements atEnd (want (.statement false)) (reach depth) state = some (trees, after) := by
  obtain ⟨count, budget⟩ := Nat.exists_eq_succ_of_ne_zero (Nat.ne_zero_of_lt enough)
  have headed : rounds collectDirective ([], true) (reach depth) state = some ([], state) := by
    rw [rounds_eq, budget]
    exact roundTrips_done (collectDirective_done noString) count
  rw [directivesAndStatements_eq, bind_of_some headed, bind_of_some (rounds_of_chain chain ends enough)]
  rfl

/-- A directive at the head is kept as such if no string follows it. -/
theorem directivesAndStatements_of_directive
    {statement : Tree}
    (isString : state.token.isString = true)
    (read : reach depth (.statement false) state = some (statement, middle))
    (directive : directive? state.here statement = some tree)
    (noString : middle.token.isString = false)
    (chain : Chain depth middle trees after)
    (ends : after.token = .eof)
    (enough : 1 < state.budget)
    (enough' : trees.length < middle.budget) :
    directivesAndStatements atEnd (want (.statement false)) (reach depth) state = some (tree :: trees, after) := by
  obtain ⟨count, budget⟩ : ∃ count, state.budget = count + 1 + 1 := ⟨state.budget - 2, by omega⟩
  have headed : rounds collectDirective ([], true) (reach depth) state = some ([tree], middle) := by
    rw [rounds_eq, budget, roundTrips_again (collectDirective_again isString read directive)]
    exact roundTrips_done (collectDirective_done noString) count
  rw [directivesAndStatements_eq, bind_of_some headed, bind_of_some (rounds_of_chain chain ends enough')]
  rfl

/-! ## Alike sources -/

/-- From a place on from which two sources are alike, they have the same statements. -/
theorem Chain.mirrored
    {shift : Shift}
    {stand : Stand}
    {depth' : Nat}
    (chain : Chain depth state trees after)
    (mirrors : Mirrors shift state stand)
    (deep : 16 * state.size + 8 < depth)
    (deep' : 16 * state.size + 8 < depth') :
    ∃ others stand', Chain depth' (state.onto stand) others (after.onto stand') ∧ shift.Trees trees others ∧
      Mirrors shift after stand' ∧ after.size + trees.length ≤ state.size := by
  induction chain generalizing stand with
  | nil state => exact ⟨[], stand, .nil _, .nil, mirrors, Nat.le_refl _⟩
  | @cons state middle after tree trees more read later inductionHypothesis =>
      have meets := agree_reach (Nat.succ_le_of_lt deep) (Nat.succ_le_of_lt deep') mirrors
        (Nat.lt_succ_self (16 * state.size + (Goal.statement false).rank))
      rw [read] at meets
      generalize reached : reach depth' (.statement false) (state.onto stand) = result at meets
      cases meets with
      | @some _ other _ stand' same mirrors' less =>
          have less : middle.size + 1 ≤ state.size := less
          obtain ⟨others, stand'', chain, trees, mirrors'', fewer⟩ :=
            inductionHypothesis mirrors' (by omega) (by omega)
          refine ⟨other :: others, stand'', .cons more reached chain, same.parts.cons trees, mirrors'', ?_⟩
          rw [List.length_cons]
          omega

/-- Statements in a row up to the end are the statements of a module, which keeps strings at its head as directives. -/
theorem exists_of_chain
    {shift : Shift}
    {stand : Stand}
    (chain : Chain depth state statements after)
    (mirrors : Mirrors shift state stand)
    (deep : 16 * state.size + 8 < depth)
    (ends : after.token = .eof) :
    ∃ trees, directivesAndStatements atEnd (want (.statement false)) (reach depth) state = some (trees, after) ∧
      List.Forall₂ Stands statements trees := by
  have rounded {state : State} {statements : List Tree} {stand : Stand} (chain : Chain depth state statements after)
      (mirrors : Mirrors shift state stand) (deep : 16 * state.size + 8 < depth) :
      rounds collect [] (reach depth) state = some (statements, after) := by
    obtain ⟨_, _, _, _, _, fewer⟩ := chain.mirrored mirrors deep deep
    have small := mirrors.size_lt
    exact rounds_of_chain chain ends (by omega)
  have headed {count : Nat} {done : List Tree} (enough : statements.length < count) :
      ∃ heads kept later middle, statements = heads ++ later ∧ List.Forall₂ Stands heads kept ∧
        roundTrips collectDirective count (done, true) (reach depth) state = some (kept.reverse ++ done, middle) ∧
        rounds collect [] (reach depth) middle = some (later, after) := by
    -- by induction on the statements, each of which is a directive or leaves the others as they are
    induction chain generalizing count done stand with
    | nil state =>
        obtain ⟨count, rfl⟩ := Nat.exists_eq_succ_of_ne_zero (Nat.ne_zero_of_lt enough)
        refine ⟨[], [], [], state, rfl, .nil, ?_, rounded (.nil state) mirrors deep⟩
        exact roundTrips_done (collectDirective_done (by rw [ends]; rfl)) count
    | @cons state next after tree trees more read later inductionHypothesis =>
        rw [List.length_cons] at enough
        obtain ⟨count, rfl⟩ := Nat.exists_eq_succ_of_ne_zero (Nat.ne_zero_of_lt enough)
        have meets := agree_reach (Nat.succ_le_of_lt deep) (Nat.succ_le_of_lt deep) mirrors
          (Nat.lt_succ_self (16 * state.size + (Goal.statement false).rank))
        rw [read] at meets
        generalize reached : reach depth (.statement false) (state.onto stand) = result at meets
        cases meets with
        | @some _ _ _ stand' _ mirrors' less =>
        have less : next.size + 1 ≤ state.size := less
        cases isString : state.token.isString with
        | false =>
            refine ⟨[], [], tree :: trees, state, rfl, .nil, ?_, rounded (.cons more read later) mirrors deep⟩
            exact roundTrips_done (collectDirective_done isString) count
        | true =>
            cases found : directive? state.here tree with
            | none =>
                obtain ⟨count, rfl⟩ : ∃ fewer, count = fewer + 1 := ⟨count - 1, by omega⟩
                refine ⟨[tree], [tree], trees, next, rfl, .cons (.inl rfl) .nil, ?_,
                  rounded later mirrors' (by omega)⟩
                rw [roundTrips_again (collectDirective_last isString read found)]
                exact roundTrips_done rfl count
            | some directive =>
                obtain ⟨heads, kept, others, middle, rfl, stands, ran, listed⟩ :=
                  @inductionHypothesis _ mirrors' (by omega) ends rounded count (directive :: done)
                    (Nat.lt_of_succ_lt_succ enough)
                refine ⟨tree :: heads, directive :: kept, others, middle, rfl, .cons (.inr ⟨_, found⟩) stands, ?_,
                  listed⟩
                rw [roundTrips_again (collectDirective_again isString read found), ran, List.reverse_cons,
                  List.append_assoc]
                rfl
  obtain ⟨_, _, _, _, _, fewer⟩ := chain.mirrored mirrors deep deep
  have small := mirrors.size_lt
  obtain ⟨heads, kept, later, middle, rfl, stands, ran, listed⟩ := @headed state.budget [] (by omega)
  rw [List.append_nil] at ran
  have first : rounds collectDirective ([], true) (reach depth) state = some (kept.reverse, middle) := by
    rw [rounds_eq]
    exact ran
  refine ⟨kept ++ later, ?_, List.rel_append stands (List.forall₂_same.mpr fun _ _ => .inl rfl)⟩
  rw [directivesAndStatements_eq, bind_of_some first, bind_of_some listed, List.reverse_reverse]
  rfl

end Parser

end LiveComponent
