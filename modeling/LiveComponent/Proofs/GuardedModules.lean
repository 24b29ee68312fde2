import LiveComponent.Proofs.GuardedReleases

namespace LiveComponent

/-!
# Guarded modules

In a module of calls between operands, guards take the place of the teardown calls, and the module stays one.  A second
run finds nothing to do.
-/

namespace Parser

open Lexer

/-- The parser of a source has come to a text with which the source ends. -/
structure InModule (typed : Bool) (source : Text) (state : State) (text : Text) : Prop where
  reached : Reached typed source state text
  isEnd : text <:+ source

namespace InModule

variable {typed : Bool} {source text rest : Text} {state after : State}

theorem onText
    (inModule : InModule typed source state text) :
    OnText source state text :=
  inModule.reached.onText inModule.isEnd

/-- The parser goes over the tokens that the text spells. -/
theorem passed
    (inModule : InModule typed source state text)
    (crosses : Crosses text rest state after) :
    InModule typed source after rest := by
  obtain ⟨tokens, filled, spells, runs⟩ := crosses
  obtain ⟨_, other, reached⟩ := inModule.reached.runs spells filled
  rw [runs.unique other]
  exact ⟨reached, spells.suffix.trans inModule.isEnd⟩

/-- Blanks in front of a text do not matter. -/
theorem blanks
    {blanks : Text}
    (inModule : InModule typed source state (blanks ++ text))
    (blank : ∀ c ∈ blanks, isGap c = true) :
    InModule typed source state text :=
  ⟨inModule.reached.blanks blank, (List.suffix_append blanks text).trans inModule.isEnd⟩

end InModule

end Parser

namespace Teardown

open Lexer Parser

variable {source text rest : Text} {around : Surroundings} {tree : Tree} {state after : State} {depth : Nat}

/-! ## Trees with guards -/

/-- A tree that is surrounded by `around`, in which guards have taken the place of the teardown calls. -/
def guardedWithin (source : Text) (around : Surroundings) (tree : Tree) : Tree :=
  tree.fold
    (fun tree parts around =>
      (guard? source around tree).getD
        (.bareNode tree.kind (parts.mapIdx fun place part => part (around.inside source tree place))))
    around

theorem guardedTree_eq
    (source : Text)
    (tree : Tree) :
    guardedTree source tree = guardedWithin source .top tree := rfl

theorem guardedWithin_node
    (source : Text)
    (around : Surroundings)
    (tree : Tree) :
    guardedWithin source around tree =
      (guard? source around tree).getD
        (.bareNode tree.kind (tree.children.mapIdx fun place child =>
          guardedWithin source (around.inside source tree place) child)) := by
  obtain ⟨kind, span, children⟩ := tree
  have same (combine : Nat → (Surroundings → Tree) → Tree) (part : Tree → Surroundings → Tree) :
      (children.map part).mapIdx combine = children.mapIdx fun place child => combine place (part child) := by
    simp [List.mapIdx_eq_iff, Function.comp_def]
  rw [guardedWithin, Tree.fold_node, same]
  rfl

/-- Where nothing is guarded, the tree is kept. -/
theorem guardedWithin_eq_bare
    (none : editsWithin source tree around = []) :
    guardedWithin source around tree = tree.bare := by
  induction tree generalizing around with
  | node kind span children inductionHypothesis =>
      rw [editsWithin_eq] at none
      cases kept : edit? source around (.node kind span children) with
      | some edit =>
          rw [kept] at none
          cases none
      | none =>
          rw [kept] at none
          have unguarded : guard? source around (.node kind span children) = Option.none := by
            rw [guard?, kept]
            rfl
          rw [guardedWithin_node, unguarded, Tree.bare_node]
          refine congrArg (Tree.bareNode kind) (List.mapIdx_eq_iff.mpr fun place => ?_)
          rw [List.getElem?_map]
          change Option.map _ children[place]? = Option.map _ children[place]?
          cases found : children[place]? with
          | none => rfl
          | some child =>
              have member := List.mem_of_getElem? found
              have kept := List.flatMap_eq_nil_iff.mp none (child, place) (List.mem_zipIdx_iff_getElem?.mpr found)
              exact congrArg some (inductionHypothesis child member kept).symm

section

variable {span : Span} {expression : Tree} {call : Call}

/-- A teardown call that is a statement is replaced by its guard. -/
theorem edit?_of_call?
    (isCall : call? expression = some call)
    (unguarded : call.isGuarded source around = false) :
    edit? source around (.node .expressionStatement span [expression]) =
      some ⟨span.start, span.stop, call.text source expression⟩ := by
  rw [edit?, guarded?_of_call? isCall, unguarded]
  rfl

theorem guard?_of_call?
    (isCall : call? expression = some call)
    (unguarded : call.isGuarded source around = false) :
    guard? source around (.node .expressionStatement span [expression]) = some (call.guard expression) := by
  rw [guard?, edit?_of_call? isCall unguarded]
  change (call? expression >>= fun call => some (call.guard expression)) = _
  rw [isCall]
  rfl

end

/-! ## Statements of modules -/

/-- Wherever a statement of a module is wanted and the text stands, a statement is read that exports nothing.  A run
puts the new text in its place, if there is one, and `meant` is the statement with its guard. -/
def IsStatement (text : Text) (new : Option Text) (meant : Tree) : Prop :=
  ∀ {typed source state rest depth},
    InModule typed source state (text ++ rest) → 4 * text.length + 14 ≤ depth →
      ∃ after, Crosses (text ++ rest) rest state after ∧
        (after.token.isWord "else" = false → after.token.isWord "finally" = false →
          ∃ statement, reach depth (.statement false) state = some (statement, after) ∧
            editsWithin source statement .top =
              new.toList.map (fun text' => ⟨state.start, state.start + text.length, text'⟩) ∧
            guardedWithin source .top statement = meant ∧ exportedNames statement = [])

/-- Nothing guards a call at the top. -/
theorem isGuarded_top
    (source : Text)
    (call : Call) :
    call.isGuarded source .top = false := by
  unfold Call.isGuarded
  cases call.testText? source <;> rfl

/-- The semicolon behind an operand ends a statement that covers both. -/
theorem crosses_semicolon
    {middle : State}
    (operand : OperandText)
    (onText : OnText source state (operand.text ++ [';'] ++ rest))
    (runs : Runs operand.tokens state middle) :
    middle.token = .mark ";" ∧ Crosses (operand.text ++ [';'] ++ rest) rest state middle.next ∧
      middle.next.lastStop = state.start + (operand.text ++ [';']).length := by
  have starts := startsToken_append (startsToken_append operand.starts [';']) rest
  have start := onText.start_add_eq starts
  rw [List.length_append] at start
  have spells := spells_append (operand.spelling _ ⟨';', rest, rfl, by decide⟩) (spells_bracket ';' (by decide) rest)
  have text : operand.text ++ [';'] ++ rest = operand.text ++ ';' :: rest := List.append_assoc ..
  rw [← text] at spells
  have filled : operand.tokens ++ [Token.mark ";"] ≠ [] := List.append_ne_nil_of_left_ne_nil operand.filled _
  obtain ⟨after, whole, -⟩ := onText.passed spells filled
  obtain ⟨_, first, semicolon, rfl⟩ := runs_append.mp whole
  obtain rfl := first.unique runs
  have stop := onText.lastStop_add_eq spells filled whole
  exact ⟨semicolon, ⟨_, filled, spells, whole⟩, by omega⟩

/-- A plain teardown call is a statement that gets its guard. -/
theorem Release.isStatement_call
    (release : Release) :
    IsStatement (release.call.text ++ [';']) (some release.guardText) release.guardTree := by
  intro typed source state rest depth inModule deep
  rw [List.length_append] at deep
  obtain ⟨shallow, rfl⟩ : ∃ shallow, depth = shallow + 11 := ⟨depth - 11, by omega⟩
  have text : release.call.text ++ [';'] ++ rest = release.call.text ++ ';' :: rest := List.append_assoc ..
  obtain ⟨middle, found, call, read, isRead, runs, -⟩ := release.exists_expression (text ▸ inModule.onText)
    (show 4 * release.call.text.length ≤ shallow by omega)
  obtain ⟨semicolon, crosses, stop⟩ := crosses_semicolon release.call inModule.onText runs
  obtain ⟨kind, atom⟩ := release.call.operand.chained.atom_of_runs runs
  obtain ⟨parts, isCall⟩ := release.exists_parts
  have statement := callStatement_eq atom read (isRead.bare.trans isCall) semicolon false
  rw [stop] at statement
  refine ⟨middle.next, crosses, fun _ _ => ⟨_, statement, ?_, ?_, rfl⟩⟩
  · rw [editsWithin_eq, edit?_of_call? isRead.isCall (isGuarded_top ..), isRead.guardText_eq]
    rfl
  · rw [guardedWithin_node, guard?_of_call? isRead.isCall (isGuarded_top ..), isRead.guardTree_eq]
    rfl

/-- Any other call of an operand is a statement that is left alone. -/
theorem isStatement_call
    (operand : OperandText)
    {parts : List Tree}
    (isCall : operand.tree = .made (.call false false) parts)
    (other : call? operand.tree = none) :
    IsStatement (operand.text ++ [';']) none (.made .expressionStatement [operand.tree]) := by
  intro typed source state rest depth inModule deep
  rw [List.length_append] at deep
  obtain ⟨shallow, rfl⟩ : ∃ shallow, depth = shallow + 6 := ⟨depth - 6, by omega⟩
  have text : operand.text ++ [';'] ++ rest = operand.text ++ ';' :: rest := List.append_assoc ..
  obtain ⟨middle, found, taken, -⟩ := operand.exists_taken (text ▸ inModule.onText) ⟨';', rest, rfl, by decide⟩
    (show 4 * operand.text.length ≤ shallow by omega)
  obtain ⟨semicolon, crosses, -⟩ := crosses_semicolon operand inModule.onText taken.runs
  obtain ⟨kind, atom⟩ := operand.operand.chained.atom_of_runs taken.runs
  have short := operand.length_le
  have budget := inModule.onText.budget
  have within := inModule.isEnd.length_le
  rw [List.length_append, List.length_append] at within
  have read := taken.expression_eq (by omega) (by rw [semicolon]; decide) (by rw [semicolon]; rfl)
  have bare : (state.noted found).bare = operand.tree := (bare_noted ..).trans taken.bare
  have statement := callStatement_eq atom read (bare.trans isCall) semicolon false
  have whole : (Tree.node .expressionStatement ⟨state.start, middle.next.lastStop⟩ [state.noted found]).bare =
      .made .expressionStatement [operand.tree] := by
    rw [Tree.bare_node, List.map_singleton, bare]
    rfl
  have free : holdsTeardown (.made .expressionStatement [operand.tree]) = false := by
    rw [Tree.made, holdsTeardown_node, isTeardown, other, List.any_cons, holdsTeardown_of_operand operand.operand]
    rfl
  have kept := @editsWithin_eq_nil source .top _ (whole ▸ free)
  exact ⟨middle.next, crosses, fun _ _ => ⟨_, statement, kept, (guardedWithin_eq_bare kept).trans whole, rfl⟩⟩

/-- The guard of a plain teardown call is a statement that is left alone. -/
theorem Release.isStatement_guard
    (release : Release) :
    IsStatement release.guardText none release.guardTree := by
  intro typed source state rest depth inModule deep
  obtain ⟨shallow, rfl⟩ : ∃ shallow, depth = shallow + 14 := ⟨depth - 14, by omega⟩
  obtain ⟨after, crosses, guard⟩ := release.exists_guard inModule.onText
    (show 4 * release.guardText.length ≤ shallow by omega)
  refine ⟨after, crosses, fun noElse noFinally => ?_⟩
  obtain ⟨statement, read, isGuard⟩ := guard noElse noFinally
  exact ⟨statement, read, isGuard.kept, (guardedWithin_eq_bare isGuard.kept).trans isGuard.bare,
    isGuard.exportsNothing⟩

/-! ## Lines -/

/-- Whether a statement that is no directive may start with the token, and nothing goes on with it. -/
def opensStatement (token : Token) : Bool :=
  token != .eof && !token.isString && !token.isWord "else" && !token.isWord "finally"

theorem opensStatement_iff
    {token : Token} :
    opensStatement token = true ↔
      token ≠ .eof ∧ token.isString = false ∧ token.isWord "else" = false ∧ token.isWord "finally" = false := by
  simp only [opensStatement, Bool.and_eq_true, bne_iff_ne, Bool.not_eq_true', and_assoc]

/-- A statement with the blanks in front of it, and what a run makes of it. -/
structure Line where
  gap : Text
  text : Text
  new : Option Text
  meant : Tree
  blank : ∀ c ∈ gap, isGap c = true
  starts : startsToken text = true
  opens : ∀ rest, opensStatement (firstReading (text ++ rest)).token = true
  isStatement : IsStatement text new meant

/-- The text of a line after a run. -/
def Line.result (line : Line) : Text :=
  line.new.getD line.text

/-- Lines as a source, which may end in blanks. -/
def sourceOf (lines : List Line) (tail : Text) : Text :=
  lines.flatMap (fun line => line.gap ++ line.text) ++ tail

/-- What a run makes of the source. -/
def resultOf (lines : List Line) (tail : Text) : Text :=
  lines.flatMap (fun line => line.gap ++ line.result) ++ tail

/-- The edits of a run, if the lines start at the offset. -/
def changesFrom (offset : Nat) : List Line → List Edit
  | [] => []
  | line :: lines =>
    let start := offset + line.gap.length
    line.new.toList.map (fun text => ⟨start, start + line.text.length, text⟩) ++
      changesFrom (start + line.text.length) lines

variable {typed : Bool} {line : Line} {lines : List Line} {tail : Text} {offset : Nat}

theorem sourceOf_cons
    (line : Line)
    (lines : List Line)
    (tail : Text) :
    sourceOf (line :: lines) tail = line.gap ++ (line.text ++ sourceOf lines tail) := by
  simp only [sourceOf, List.flatMap_cons, List.append_assoc]

theorem resultOf_cons
    (line : Line)
    (lines : List Line)
    (tail : Text) :
    resultOf (line :: lines) tail = line.gap ++ (line.result ++ resultOf lines tail) := by
  simp only [resultOf, List.flatMap_cons, List.append_assoc]

/-- The edits make the result from the source. -/
theorem replaced_changesFrom
    (offset : Nat)
    (lines : List Line)
    (tail : Text) :
    Text.Replaced offset (changesFrom offset lines) (sourceOf lines tail) (resultOf lines tail) := by
  induction lines generalizing offset with
  | nil => exact .rest offset tail
  | cons line lines inductionHypothesis =>
      rw [sourceOf_cons, resultOf_cons, changesFrom, Line.result]
      have later := inductionHypothesis (offset + line.gap.length + line.text.length)
      cases line.new with
      | none =>
          have passed := later.behind line.text
          exact passed.behind line.gap
      | some new => exact .edit rfl rfl later

/-- Whether the text is at its end, or a statement starts there. -/
def opensTail (text : Text) : Bool :=
  (firstReading text).token == .eof || opensStatement (firstReading text).token

/-- At blanks a text is at its end. -/
theorem opensTail_of_blank
    (blank : ∀ c ∈ tail, isGap c = true) :
    opensTail tail = true := by
  induction tail with
  | nil => rfl
  | cons c tail inductionHypothesis =>
      rw [List.forall_mem_cons] at blank
      have same : firstReading (c :: tail) = firstReading tail := by
        rw [firstReading, (startOf_blank blank.1 tail).1, firstReading]
      rw [opensTail, same]
      exact inductionHypothesis blank.2

/-- Where lines stand, the source ends or a statement starts. -/
theorem opens_of_lines
    (inModule : InModule typed source state (sourceOf lines tail))
    (opens : opensTail tail = true) :
    state.token = .eof ∨ opensStatement state.token = true := by
  cases lines with
  | nil =>
      rw [inModule.reached.opens.stands.1]
      rwa [opensTail, Bool.or_eq_true, beq_iff_eq] at opens
  | cons line lines =>
      rw [sourceOf_cons] at inModule
      have stands := (inModule.blanks line.blank).reached.opens.stands.1
      exact .inr (stands ▸ line.opens _)

/-- Lines are read one by one. -/
theorem chain_of_lines
    (inModule : InModule typed source state (sourceOf lines tail))
    (opens : opensTail tail = true)
    (deep : 4 * (sourceOf lines tail).length + 14 ≤ depth)
    (place : offset + (sourceOf lines tail).length = source.length) :
    ∃ trees after,
      Chain depth state trees after ∧ InModule typed source after tail ∧ trees.length = lines.length ∧
        trees.flatMap (fun tree => editsWithin source tree .top) = changesFrom offset lines ∧
        trees.map (guardedWithin source .top) = lines.map Line.meant ∧ trees.flatMap exportedNames = [] := by
  induction lines generalizing state offset with
  | nil => exact ⟨[], state, .nil state, inModule, rfl, rfl, rfl, rfl⟩
  | cons line lines inductionHypothesis =>
      rw [sourceOf_cons] at inModule deep place
      simp only [List.length_append] at deep place
      have onLine := inModule.blanks line.blank
      obtain ⟨middle, crosses, read⟩ := line.isStatement onLine (show 4 * line.text.length + 14 ≤ depth by omega)
      have onRest := onLine.passed crosses
      obtain ⟨noElse, noFinally⟩ : middle.token.isWord "else" = false ∧ middle.token.isWord "finally" = false := by
        rcases opens_of_lines onRest opens with ends | starts
        · rw [ends]
          exact ⟨rfl, rfl⟩
        · exact (opensStatement_iff.mp starts).2.2
      obtain ⟨statement, reads, changes, meant, exportsNothing⟩ := read noElse noFinally
      have start := onLine.onText.start_add_eq (startsToken_append line.starts _)
      rw [List.length_append] at start
      obtain ⟨trees, after, chain, last, count, further, meanings, none⟩ :=
        @inductionHypothesis middle (offset + line.gap.length + line.text.length) onRest (by omega) (by omega)
      have more : state.token ≠ .eof := by
        rw [onLine.reached.opens.stands.1]
        exact (opensStatement_iff.mp (line.opens _)).1
      refine ⟨statement :: trees, after, .cons more reads chain, last, congrArg (· + 1) count, ?_, ?_, ?_⟩
      · have place : state.start = offset + line.gap.length := by omega
        rw [List.flatMap_cons, further, changes, place]
        rfl
      · rw [List.map_cons, meanings, meant]
        rfl
      · rw [List.flatMap_cons, exportsNothing, none]
        rfl

/-- Neither a blank nor the start of a statement names an interpreter. -/
theorem namesNoInterpreter_cons
    {c : Char}
    (other : c ≠ '#')
    (text : Text) :
    namesNoInterpreter (c :: text) = true := by
  have differs : ('#' == c) = false := beq_eq_false_iff_ne.mpr other.symm
  change (!('#' == c && _)) = true
  rw [differs]
  rfl

theorem namesNoInterpreter_of_blank
    (blank : ∀ c ∈ tail, isGap c = true) :
    namesNoInterpreter tail = true := by
  cases tail with
  | nil => rfl
  | cons c tail =>
      rw [List.forall_mem_cons] at blank
      refine namesNoInterpreter_cons ?_ tail
      rintro rfl
      cases blank.1

theorem namesNoInterpreter_of_line
    (line : Line)
    (lines : List Line)
    (tail : Text) :
    namesNoInterpreter (sourceOf (line :: lines) tail) = true := by
  rw [sourceOf_cons]
  have blank := line.blank
  have starts := line.starts
  cases gap : line.gap with
  | cons c gap =>
      rw [gap] at blank
      rw [List.cons_append]
      refine namesNoInterpreter_cons ?_ _
      rintro rfl
      cases blank _ List.mem_cons_self
  | nil =>
      cases text : line.text with
      | nil =>
          rw [text] at starts
          cases starts
      | cons c text =>
          rw [text, startsToken, List.head?_cons, Option.any_some, Bool.and_eq_true, bne_iff_ne] at starts
          exact namesNoInterpreter_cons starts.2 _

theorem edits_program
    (source : Text)
    (span : Span)
    (trees : List Tree) :
    edits source (.node .program span trees) = trees.flatMap fun tree => editsWithin source tree .top := by
  rw [edits, Tree.fold_node]
  change (trees.map (Tree.fold (editsOfNode source))).flatMap (fun part => part .top) = _
  rw [List.flatMap_map]
  rfl

theorem guardedTree_program
    (source : Text)
    (span : Span)
    (trees : List Tree) :
    guardedTree source (.node .program span trees) = .made .program (trees.map (guardedWithin source .top)) := by
  have same (part : Tree → Tree) : (trees.mapIdx fun _ child => part child) = trees.map part := by
    simp [List.mapIdx_eq_iff]
  rw [guardedTree_eq, guardedWithin_node, ← same]
  rfl

/-- Lines at the head of a source are read one by one. -/
theorem exists_chain_of_lines
    (typed : Bool)
    (opens : opensTail tail = true)
    (plain : namesNoInterpreter (sourceOf lines tail) = true) :
    let source := sourceOf lines tail
    ∃ trees after,
      (State.initial typed source).token.isString = false ∧
        Chain (depthBound source) (State.initial typed source) trees after ∧ Reached typed source after tail ∧
        trees.length = lines.length ∧
        trees.flatMap (fun tree => editsWithin source tree .top) = changesFrom 0 lines ∧
        trees.map (guardedWithin source .top) = lines.map Line.meant ∧ trees.flatMap exportedNames = [] := by
  have inModule : InModule typed _ _ (sourceOf lines tail) := ⟨reached_initial typed plain, List.suffix_refl _⟩
  have noString : (State.initial typed (sourceOf lines tail)).token.isString = false := by
    rcases opens_of_lines inModule opens with ends | opens
    · rw [ends]
      rfl
    · exact (opensStatement_iff.mp opens).2.1
  obtain ⟨trees, after, chain, last, found⟩ :=
    chain_of_lines inModule opens (show _ ≤ depthBound (sourceOf lines tail) by unfold depthBound; omega)
      (Nat.zero_add _)
  exact ⟨trees, after, noString, chain, last.reached, found⟩

/-- Lines are a module, whose edits and guards are those of the lines. -/
theorem parse?_of_lines
    (typed : Bool)
    (lines : List Line)
    (blank : ∀ c ∈ tail, isGap c = true) :
    ∃ tree, parse? typed (sourceOf lines tail) = some tree ∧
      edits (sourceOf lines tail) tree = changesFrom 0 lines ∧
      guardedTree (sourceOf lines tail) tree = .made .program (lines.map Line.meant) := by
  have plain : namesNoInterpreter (sourceOf lines tail) = true := by
    cases lines with
    | nil => exact namesNoInterpreter_of_blank blank
    | cons line lines => exact namesNoInterpreter_of_line line lines tail
  obtain ⟨trees, after, noString, chain, last, -, changes, meant, exportsNothing⟩ :=
    exists_chain_of_lines typed (opensTail_of_blank blank) plain
  obtain ⟨ends, sound, settled⟩ := (((List.append_nil tail).symm ▸ last).blanks blank).ends
  refine ⟨_, (parse?_iff_chain plain noString).mpr ⟨trees, after, chain, ends, sound, settled, ?_, rfl⟩, ?_, ?_⟩
  · rw [exportsNothing]
    exact Bool.or_true typed
  · rw [edits_program, changes]
  · rw [guardedTree_program, meant]

/-- A run puts guards in the places of the teardown calls. -/
theorem guard_of_lines
    (lines : List Line)
    (blank : ∀ c ∈ tail, isGap c = true) :
    (Teardown.guard (sourceOf lines tail)).1 = resultOf lines tail := by
  obtain ⟨tree, parsed, changes, -⟩ := parse?_of_lines (isTyped (sourceOf lines tail)) lines blank
  rw [guard_eq_splice parsed, changes]
  exact (replaced_changesFrom 0 lines tail).spliceFrom_eq

/-- Where no line gets a new text, a run finds nothing to do. -/
theorem changesFrom_eq_nil
    (kept : ∀ line ∈ lines, line.new = none)
    (offset : Nat) :
    changesFrom offset lines = [] := by
  induction lines generalizing offset with
  | nil => rfl
  | cons line lines inductionHypothesis =>
      rw [List.forall_mem_cons] at kept
      rw [changesFrom, kept.1, inductionHypothesis kept.2]
      rfl

theorem guard_of_kept
    (parsed : parse? (isTyped source) source = some tree)
    (kept : edits source tree = []) :
    guard source = (source, []) := by
  rw [guard, parsed]
  simp only [kept]

/-! ## Modules of calls -/

/-- A call between operands: one that gets a guard, or any other one. -/
inductive PlainCall where
  | teardown (release : Release)
  | other (callee : OperandText) (arguments : List OperandText) (free : call? (callee.call arguments).tree = none)

/-- The call itself. -/
def PlainCall.call : PlainCall → OperandText
  | teardown release => release.call
  | other callee arguments _ => callee.call arguments

namespace PlainCall

/-- The call as a statement. -/
def statement (plain : PlainCall) : Text :=
  plain.call.text ++ [';']

/-- The guard of the call, if it gets one. -/
def guardText? : PlainCall → Option Text
  | teardown release => some release.guardText
  | other .. => none

/-- The statement that is meant: the guard, or the call. -/
def meant : PlainCall → Tree
  | teardown release => release.guardTree
  | other callee arguments _ => .made .expressionStatement [(callee.call arguments).tree]

theorem isStatement_written
    (plain : PlainCall) :
    IsStatement plain.statement plain.guardText? plain.meant := by
  cases plain with
  | teardown release => exact release.isStatement_call
  | other callee arguments free => exact isStatement_call (callee.call arguments) rfl free

theorem isStatement_guarded
    (plain : PlainCall) :
    IsStatement (plain.guardText?.getD plain.statement) none plain.meant := by
  cases plain with
  | teardown release => exact release.isStatement_guard
  | other callee arguments free => exact isStatement_call (callee.call arguments) rfl free

theorem startsToken_guarded
    (plain : PlainCall) :
    startsToken (plain.guardText?.getD plain.statement) = true := by
  cases plain with
  | teardown release => cases release <;> rfl
  | other callee arguments free => exact startsToken_append (callee.call arguments).starts _

/-- A statement starts with the call, if this starts with no string. -/
theorem opens_written
    (plain : PlainCall)
    (named : ∀ token ∈ plain.call.tokens.head?, token.isString = false)
    (rest : Text) :
    opensStatement (firstReading (plain.statement ++ rest)).token = true := by
  obtain ⟨token, kind, more, tokens, atom⟩ := plain.call.operand.opens
  have named := named token (by rw [tokens]; rfl)
  have spells := plain.call.spelling (';' :: rest) ⟨';', rest, rfl, by decide⟩
  rw [tokens] at spells
  rw [statement, List.append_assoc]
  refine opensStatement_iff.mpr ?_
  rw [show (firstReading (plain.call.text ++ ([';'] ++ rest))).token = token from spells.1]
  refine ⟨?_, named, Token.isWord_of_atom? atom (by decide), Token.isWord_of_atom? atom (by decide)⟩
  rintro rfl
  cases atom

/-- A statement starts with the guard. -/
theorem opens_guarded
    (plain : PlainCall)
    (named : ∀ token ∈ plain.call.tokens.head?, token.isString = false)
    (rest : Text) :
    opensStatement (firstReading (plain.guardText?.getD plain.statement ++ rest)).token = true := by
  have word {name : Text} (isName : isIdentifierName name = true)
      (starts : opensStatement (.word name false) = true) (more : Text) :
      opensStatement (firstReading (name ++ ' ' :: more)).token = true := by
    rw [(spelling_name isName (' ' :: more) ⟨' ', more, rfl, by decide⟩).1]
    exact starts
  have choice (test call : Text) : opensStatement (firstReading (underTest test call ++ rest)).token = true := by
    rw [underTest_append]
    exact @word "if".toList (by decide) (by decide) _
  have handler (call : Text) : opensStatement (firstReading (reported call ++ rest)).token = true := by
    rw [reported_append]
    exact @word "try".toList (by decide) (by decide) _
  cases plain with
  | teardown release =>
      cases release with
      | removal | unlistening => exact choice _ _
      | disposal => exact handler _
  | other callee arguments free => exact opens_written (.other callee arguments free) named rest

end PlainCall

/-- A call that is a statement, with the blanks in front of it.  It does not start with a string. -/
structure CallLine where
  gap : Text
  plain : PlainCall
  blank : ∀ c ∈ gap, isGap c = true
  named : ∀ token ∈ plain.call.tokens.head?, token.isString = false

namespace CallLine

/-- The line as it is written. -/
def written (line : CallLine) : Line where
  gap := line.gap
  text := line.plain.statement
  new := line.plain.guardText?
  meant := line.plain.meant
  blank := line.blank
  starts := startsToken_append line.plain.call.starts _
  opens := line.plain.opens_written line.named
  isStatement := line.plain.isStatement_written

/-- The line with its guard. -/
def guarded (line : CallLine) : Line where
  gap := line.gap
  text := line.plain.guardText?.getD line.plain.statement
  new := none
  meant := line.plain.meant
  blank := line.blank
  starts := line.plain.startsToken_guarded
  opens := line.plain.opens_guarded line.named
  isStatement := line.plain.isStatement_guarded

end CallLine

/-- A run writes the guards. -/
theorem resultOf_written
    (lines : List CallLine)
    (tail : Text) :
    resultOf (lines.map CallLine.written) tail = sourceOf (lines.map CallLine.guarded) tail := by
  simp only [resultOf, sourceOf, List.flatMap_map]
  rfl

theorem meant_guarded
    (lines : List CallLine) :
    (lines.map CallLine.guarded).map Line.meant = (lines.map CallLine.written).map Line.meant := by
  rw [List.map_map, List.map_map]
  rfl

theorem kept_guarded
    (lines : List CallLine) :
    ∀ line ∈ lines.map CallLine.guarded, line.new = none :=
  List.forall_mem_map.mpr fun _ _ => rfl

/-- In a module of calls between operands, guards take the places of the teardown calls.  The result is a module again,
and the one that is meant: it is the tree of the source with the guards in their places.  A second run recognises all
guards and leaves the module as it is. -/
theorem calls_guarded
    (lines : List CallLine)
    (blank : ∀ c ∈ tail, isGap c = true) :
    ∃ source once tree tree',
      source = sourceOf (lines.map CallLine.written) tail ∧ once = sourceOf (lines.map CallLine.guarded) tail ∧
        parse? (isTyped source) source = some tree ∧ (guard source).1 = once ∧
        parse? (isTyped once) once = some tree' ∧ tree'.bare = guardedTree source tree ∧
        guard once = (once, []) := by
  obtain ⟨tree, parsed, -, meant⟩ := parse?_of_lines (isTyped (sourceOf (lines.map CallLine.written) tail))
    (lines.map CallLine.written) blank
  obtain ⟨tree', parsed', changes, meant'⟩ := parse?_of_lines (isTyped (sourceOf (lines.map CallLine.guarded) tail))
    (lines.map CallLine.guarded) blank
  rw [changesFrom_eq_nil (kept_guarded lines)] at changes
  refine ⟨_, _, tree, tree', rfl, rfl, parsed, (guard_of_lines _ blank).trans (resultOf_written ..),
    parsed', ?_, ?_⟩
  · calc tree'.bare
        = guardedTree _ tree' := (guardedWithin_eq_bare changes).symm
      _ = .made .program ((lines.map CallLine.guarded).map Line.meant) := meant'
      _ = .made .program ((lines.map CallLine.written).map Line.meant) := by rw [meant_guarded]
      _ = guardedTree _ tree := meant.symm
  · exact guard_of_kept parsed' changes

example :
    ∃ once, (guard "p.removeChild(c);".toList).1 = once ∧ guard once = (once, []) := by
  let release := Release.removal (.ofName "p".toList (by decide) (by decide)) (.ofName "c".toList (by decide) (by decide))
  let line : CallLine := ⟨[], .teardown release, nofun, by decide⟩
  obtain ⟨_, once, _, _, rfl, -, -, guarded, -, -, again⟩ := @calls_guarded [] [line] nofun
  exact ⟨once, guarded, again⟩

/-! ## Calls in front of a module -/

/-- A tree without its places is the same in two sources. -/
theorem map_bare_eq
    {shift : Shift}
    {trees others : List Tree}
    (same : shift.Trees trees others) :
    trees.map Tree.bare = others.map Tree.bare :=
  Shift.Trees.fold_eq (fun _ => rfl) same

/-- Trees without teardown calls are left alone. -/
theorem flatMap_editsWithin_eq_nil
    {trees : List Tree}
    (free : ∀ statement ∈ trees.map Tree.bare, holdsTeardown statement = false) :
    (trees.flatMap fun tree => editsWithin source tree .top) = [] ∧
      trees.map (guardedWithin source .top) = trees.map Tree.bare := by
  rw [List.forall_mem_map] at free
  exact ⟨List.flatMap_eq_nil_iff.mpr fun tree member => editsWithin_eq_nil (free tree member),
    List.map_congr_left fun tree member => guardedWithin_eq_bare (editsWithin_eq_nil (free tree member))⟩

/-- Guards take the places of the teardown calls at the head of a module, whatever follows, as long as it holds no
teardown call itself.  The result is a module again, and the one that is meant. -/
theorem calls_guarded_in_front
    {line : CallLine}
    {lines : List CallLine}
    {source once : Text}
    {tree : Tree}
    (isSource : source = sourceOf ((line :: lines).map CallLine.written) tail)
    (isResult : once = sourceOf ((line :: lines).map CallLine.guarded) tail)
    (opens : opensTail tail = true)
    (parsed : parse? (isTyped source) source = some tree)
    (free : ∀ statement ∈ tree.children.drop (line :: lines).length, holdsTeardown statement.bare = false) :
    (guard source).1 = once ∧
      ∃ tree', parse? (isTyped source) once = some tree' ∧ tree'.bare = guardedTree source tree ∧
        (isTyped once = isTyped source → guard once = (once, [])) := by
  subst isSource isResult
  let written := (line :: lines).map CallLine.written
  let guarded := (line :: lines).map CallLine.guarded
  let typed := isTyped (sourceOf written tail)
  have plain : namesNoInterpreter (sourceOf written tail) = true := namesNoInterpreter_of_line ..
  have plain' : namesNoInterpreter (sourceOf guarded tail) = true := namesNoInterpreter_of_line ..
  obtain ⟨front, middle, noString, head, reached, count, changes, meant, exportsNothing⟩ :=
    exists_chain_of_lines typed opens plain
  obtain ⟨front', middle', noString', head', reached', -, changes', meant', exportsNothing'⟩ :=
    exists_chain_of_lines typed opens plain'
  obtain ⟨trees, after, chain, ends, sound, settled, distinct, rfl⟩ := (parse?_iff_chain plain noString).mp parsed
  -- from the tail on both sources have the same statements
  obtain ⟨later, rfl, further⟩ := head.split chain ends
  obtain ⟨shift, others, stand, further', same, settled', -⟩ := reached.chain reached' further
  have free : ∀ statement ∈ later.map Tree.bare, holdsTeardown statement = false := by
    have place : (line :: lines).length = front.length := by rw [count, List.length_map]
    change ∀ statement ∈ (front ++ later).drop _, _ at free
    rw [place, List.drop_left] at free
    exact List.forall_mem_map.mpr free
  have free' : ∀ statement ∈ others.map Tree.bare, holdsTeardown statement = false := map_bare_eq same ▸ free
  obtain ⟨kept, laterMeant⟩ := @flatMap_editsWithin_eq_nil (sourceOf written tail) later free
  obtain ⟨kept', othersMeant⟩ := @flatMap_editsWithin_eq_nil (sourceOf guarded tail) others free'
  have distinct' : (typed || allDistinct ((front' ++ others).flatMap exportedNames)) = true := by
    rw [List.flatMap_append, exportsNothing] at distinct
    rw [List.flatMap_append, exportsNothing', ← same.flatMap_eq exportedNames_eq]
    exact distinct
  have parsed' := (parse?_iff_chain plain' noString').mpr
    ⟨front' ++ others, after.onto stand, head'.append further', ends, sound, settled' settled, distinct', rfl⟩
  have unchanged : edits (sourceOf guarded tail) (.node .program ⟨0, (after.onto stand).stop⟩ (front' ++ others)) = [] := by
    rw [edits_program, List.flatMap_append, changes', kept', changesFrom_eq_nil (kept_guarded _)]
    rfl
  refine ⟨?_, _, parsed', ?_, fun types => ?_⟩
  · rw [guard_eq_splice parsed, edits_program, List.flatMap_append, changes, kept, List.append_nil]
    exact (replaced_changesFrom 0 written tail).spliceFrom_eq.trans (resultOf_written ..)
  · rw [← guardedWithin_eq_bare unchanged, ← guardedTree_eq, guardedTree_program, guardedTree_program,
      List.map_append, List.map_append, meant, meant', meant_guarded, laterMeant, othersMeant, map_bare_eq same]
  · exact guard_of_kept (types.symm ▸ parsed') unchanged

end Teardown

end LiveComponent
