import LiveComponent.Proofs.ExpressionStart
import LiveComponent.Teardown

namespace LiveComponent

/-!
# Which statements are guarded

An edit stands for a teardown call in an expression statement that is reached from the top: on the way
there is no other such statement, and neither a test nor a `try` statement guards the call.  The guard is a
statement itself.  So a source keeps its form only where the grammar has a statement, too: the value of an
arrow function without braces is an expression, and no expression starts like a guard.
-/

namespace Teardown

/-! ## Reaching a statement -/

/-- The edit that guards the call of an expression statement, if the call needs one. -/
def edit? (source : Text) (around : Surroundings) : Tree → Option Edit
  | .node .expressionStatement span [expression] =>
    (guarded? source around expression).map fun text => ⟨span.start, span.stop, text⟩
  | _ => none

/-- What surrounds the child at a place, if the node itself is surrounded by `around`. -/
def Surroundings.inside
    (around : Surroundings)
    (source : Text)
    (tree : Tree)
    (place : Nat) :
    Surroundings :=
  match tree, place with
  | .node .conditionalStatement _ (test :: _), 1 =>
    { around with tests := Text.squash (textOf source test) :: around.tests }
  | .node .tryStatement _ _, 0 => { around with handled := true }
  | _, _ => around

/-- A node is reached from another one if no node on the way, except for itself, is replaced as a whole. -/
inductive Reaches (source : Text) : Surroundings → Tree → Surroundings → Tree → Prop where
  | here (around : Surroundings) (tree : Tree) :
      Reaches source around tree around tree
  | child
      {around inner : Surroundings}
      {tree child node : Tree}
      {place : Nat}
      (kept : edit? source around tree = none)
      (found : tree.children[place]? = some child)
      (further : Reaches source (around.inside source tree place) child inner node) :
      Reaches source around tree inner node

/-- The edits in a tree that is surrounded by `around`. -/
def editsWithin (source : Text) (tree : Tree) (around : Surroundings) : List Edit :=
  tree.fold (editsOfNode source) around

/-- The edits of children that are all surrounded like their parent. -/
theorem flatMap_zipIdx_eq
    {source : Text}
    {around : Surroundings}
    {tree : Tree}
    {children : List Tree}
    {start : Nat}
    (same : ∀ place, start ≤ place → place < start + children.length →
      around.inside source tree place = around) :
    ((children.zipIdx start).flatMap fun child =>
        editsWithin source child.1 (around.inside source tree child.2)) =
      (children.map (Tree.fold (editsOfNode source))).flatMap fun part => part around := by
  induction children generalizing start with
  | nil =>
      rfl
  | cons child children inductionHypothesis =>
      have first : around.inside source tree start = around :=
        same start (Nat.le_refl start) (by simp)
      have later := @inductionHypothesis (start + 1) fun place above below =>
        same place (Nat.le_of_succ_le above) (by simp only [List.length_cons]; omega)
      rw [List.zipIdx_cons, List.flatMap_cons, later, first]
      rfl

/-- A node is replaced as a whole, or it has the edits of its children. -/
theorem editsWithin_eq
    (source : Text)
    (tree : Tree)
    (around : Surroundings) :
    editsWithin source tree around =
      match edit? source around tree with
      | some edit => [edit]
      | none => tree.children.zipIdx.flatMap fun child =>
          editsWithin source child.1 (around.inside source tree child.2) := by
  obtain ⟨kind, span, children⟩ := tree
  rw [editsWithin, Tree.fold_node]
  have plain
      (same : ∀ place, place < children.length →
        around.inside source (.node kind span children) place = around) :
      (children.map (Tree.fold (editsOfNode source))).flatMap (fun part => part around) =
        children.zipIdx.flatMap fun child =>
          editsWithin source child.1 (around.inside source (.node kind span children) child.2) :=
    (flatMap_zipIdx_eq fun place _ below => same place (by rwa [Nat.zero_add] at below)).symm
  cases kind with
  | conditionalStatement =>
      rcases children with _ | ⟨test, _ | ⟨consequent, rest⟩⟩
      · rfl
      · exact plain fun place below => by
          obtain rfl : place = 0 := Nat.lt_one_iff.mp below
          rfl
      · change _ ++ _ ++ _ = _ ++ (_ ++ List.flatMap _ _)
        rw [flatMap_zipIdx_eq fun place above _ => ?_, List.append_assoc]
        · rfl
        · obtain ⟨further, rfl⟩ := Nat.exists_eq_add_of_le' above
          rfl
  | tryStatement =>
      rcases children with _ | ⟨block, rest⟩
      · rfl
      · change _ ++ _ = _ ++ List.flatMap _ _
        rw [flatMap_zipIdx_eq fun place above _ => ?_]
        · rfl
        · obtain ⟨further, rfl⟩ := Nat.exists_eq_add_of_le' above
          rfl
  | expressionStatement =>
      rcases children with _ | ⟨expression, _ | ⟨other, rest⟩⟩
      · rfl
      · have called : edit? source around (.node .expressionStatement span [expression]) =
            (guarded? source around expression).map fun text => ⟨span.start, span.stop, text⟩ := rfl
        rw [called]
        cases guarded : guarded? source around expression with
        | none =>
            simp only [editsOfNode, guarded, Option.map_none]
            exact plain fun _ _ => rfl
        | some text =>
            simp only [editsOfNode, guarded, Option.map_some]
      · exact plain fun _ _ => rfl
  | _ => exact plain fun _ _ => rfl

/-- The edits in a tree are those of the statements that are reached in it and need a guard. -/
theorem mem_editsWithin_iff
    {source : Text}
    {tree : Tree}
    {around : Surroundings}
    {edit : Edit} :
    edit ∈ editsWithin source tree around ↔
      ∃ inner node, Reaches source around tree inner node ∧ edit? source inner node = some edit := by
  constructor
  · intro member
    induction tree generalizing around with
    | node kind span children inductionHypothesis =>
        rw [editsWithin_eq] at member
        cases replaced : edit? source around (.node kind span children) with
        | some whole =>
            rw [replaced] at member
            obtain rfl := List.mem_singleton.mp member
            exact ⟨around, _, .here around _, replaced⟩
        | none =>
            rw [replaced] at member
            obtain ⟨child, place, inChild⟩ := List.mem_flatMap.mp member
            have found := List.mem_zipIdx_iff_getElem?.mp place
            obtain ⟨inner, node, reached, guarded⟩ :=
              inductionHypothesis child.1 (List.mem_of_getElem? found) inChild
            exact ⟨inner, node, .child replaced found reached, guarded⟩
  · rintro ⟨inner, node, reached, guarded⟩
    induction reached with
    | here around tree =>
        rw [editsWithin_eq, guarded]
        exact List.mem_singleton_self edit
    | @child around inner tree child node place kept found further inductionHypothesis =>
        rw [editsWithin_eq, kept]
        exact List.mem_flatMap.mpr
          ⟨(child, place), List.mem_zipIdx_iff_getElem?.mpr found, inductionHypothesis guarded⟩

/-! ## Guards as texts -/

/-- A guard is a test or a `try` statement. -/
theorem guarded?_cases
    {source text : Text}
    {around : Surroundings}
    {expression : Tree}
    (guarded : guarded? source around expression = some text) :
    (∃ test call, text = underTest test call) ∨ ∃ call, text = reported call := by
  unfold guarded? at guarded
  split at guarded
  · split at guarded
    · split at guarded
      · dsimp only at guarded
        split at guarded
        · cases guarded
        · exact .inl ⟨_, _, (Option.some.inj guarded).symm⟩
      · cases guarded
    · split at guarded
      · split at guarded
        · dsimp only at guarded
          split at guarded
          · cases guarded
          · exact .inl ⟨_, _, (Option.some.inj guarded).symm⟩
        · cases guarded
      · split at guarded
        · split at guarded
          · exact .inr ⟨_, (Option.some.inj guarded).symm⟩
          · cases guarded
        · cases guarded
  · cases guarded

/-- No expression starts with the first word of a guard. -/
theorem opensNothing_of_edit?
    {source : Text}
    {around : Surroundings}
    {statement : Tree}
    {edit : Edit}
    (guarded : edit? source around statement = some edit)
    (rest : Text) :
    (Lexer.read (edit.text ++ rest)).token.opensNothing = true := by
  unfold edit? at guarded
  split at guarded
  next span expression =>
    obtain ⟨text, made, rfl⟩ := Option.map_eq_some_iff.mp guarded
    rcases guarded?_cases made with ⟨test, call, rfl⟩ | ⟨call, rfl⟩
    · change (Token.word "if".toList false).opensNothing = true
      decide
    · change (Token.word "try".toList false).opensNothing = true
      decide
  next =>
    cases guarded

/-! ## Guarding a source -/

/-- A source that parses is guarded by its edits. -/
theorem guard_eq_splice
    {source : Text}
    {tree : Tree}
    (parsed : parse? (isTyped source) source = some tree) :
    (guard source).1 = Text.splice (edits source tree) source := by
  unfold guard
  rw [parsed]
  cases found : edits source tree with
  | nil =>
      rw [Text.splice_nil]
      simp only [found]
  | cons edit edits =>
      simp only [found]

/-- The edits of a source that parses guard exactly the unguarded teardown calls that are reached from the
top, and all else is kept; so a source without such calls stays a module.  But an edit is no expression:
where it stands for the value of an arrow function without braces, there is no body to read. -/
theorem statements_guarded
    {source : Text}
    {tree : Tree}
    (parsed : parse? (isTyped source) source = some tree) :
    (guard source).1 = Text.splice (edits source tree) source ∧
      (∀ edit, edit ∈ edits source tree ↔
        ∃ around statement,
          Reaches source .top tree around statement ∧ edit? source around statement = some edit) ∧
      ((∀ around statement,
          Reaches source .top tree around statement → edit? source around statement = none) →
        parse? (isTyped (guard source).1) (guard source).1 = some tree) ∧
      ∀ edit ∈ edits source tree, ∀ rest state,
        state.token = (Lexer.read (edit.text ++ rest)).token →
          ∀ depth head resultType,
            Parser.arrowBody head resultType (Parser.reach depth) state = none := by
  have spliced := guard_eq_splice parsed
  have reaches (edit : Edit) :
      edit ∈ edits source tree ↔
        ∃ around statement,
          Reaches source .top tree around statement ∧ edit? source around statement = some edit :=
    mem_editsWithin_iff
  refine ⟨spliced, reaches, fun guardedAll => ?_, fun edit member rest state token => ?_⟩
  · have unchanged : edits source tree = [] := by
      apply List.eq_nil_iff_forall_not_mem.mpr
      intro edit member
      obtain ⟨around, statement, reached, guarded⟩ := (reaches edit).mp member
      rw [guardedAll around statement reached] at guarded
      cases guarded
    rw [spliced, unchanged, Text.splice_nil]
    exact parsed
  · obtain ⟨around, statement, -, guarded⟩ := (reaches edit).mp member
    exact Parser.arrowBody_eq_none (token ▸ opensNothing_of_edit? guarded rest)

/-- The value of an arrow function is replaced by a `try` statement, and the module parses no more. -/
theorem statements_guarded_of_arrow :
    ∃ source tree,
      parse? (isTyped source) source = some tree ∧
        (guard source).1 = Text.splice (edits source tree) source ∧
        ∀ typed, parse? typed (guard source).1 = none := by
  obtain ⟨source, parses, broken⟩ :
      ∃ source : Text,
        (parse? (isTyped source) source).isSome = true ∧
          ∀ typed, (parse? typed (guard source).1).isNone = true :=
    ⟨"export default () => view.dispose();".toList, by decide +kernel, by decide +kernel⟩
  obtain ⟨tree, parsed⟩ := Option.isSome_iff_exists.mp parses
  obtain ⟨spliced, -⟩ := statements_guarded parsed
  exact ⟨source, tree, parsed, spliced, fun typed => Option.isNone_iff_eq_none.mp (broken typed)⟩

/-- A spread argument becomes an operand of the test, which no operand can be. -/
theorem module_broken_by_guard :
    ¬∀ source,
      (parse? (isTyped source) source).isSome = true →
        ∃ typed, (parse? typed (guard source).1).isSome = true := by
  intro kept
  have parses :
      (parse? (isTyped "list.removeChild(...items);".toList) "list.removeChild(...items);".toList).isSome =
        true := by
    decide +kernel
  have broken :
      ¬∃ typed, (parse? typed (guard "list.removeChild(...items);".toList).1).isSome = true := by
    decide +kernel
  exact broken (kept _ parses)

end Teardown

end LiveComponent
