import LiveComponent.Proofs.GuardedTwice
import LiveComponent.Proofs.OperandTexts

namespace LiveComponent

/-!
# The guards of plain teardown calls

The operands of a plain teardown call are given with their texts.  So the guard is read back with all its parts, and a
run over it finds the call guarded.
-/

namespace Teardown

open Lexer Parser

variable {source rest : Text} {around inner : Surroundings} {tree node found : Tree} {tokens : List Token}

/-! ## Trees without teardown calls -/

/-- Whether the tree is a statement that is a teardown call. -/
def isTeardown : Tree → Bool
  | .node .expressionStatement _ [expression] => (call? expression).isSome
  | _ => false

/-- Whether some statement in the tree is a teardown call. -/
def holdsTeardown : Tree → Bool :=
  Tree.fold fun tree parts => isTeardown tree || parts.any id

theorem holdsTeardown_node
    (kind : Kind)
    (span : Span)
    (children : List Tree) :
    holdsTeardown (.node kind span children) =
      (isTeardown (.node kind span children) || children.any holdsTeardown) := by
  rw [holdsTeardown, Tree.fold_node, List.any_map]
  rfl

/-- A teardown call is one without its places and parentheses, too. -/
theorem isSome_call?_bare
    (isCall : (call? tree).isSome = true) :
    (call? tree.bare).isSome = true := by
  unfold call? at isCall
  split at isCall
  next object name _ _ _ arguments =>
    simp only [Tree.bare_node, List.map_cons, List.map_nil]
    change (if name = "removeChild".toList then _ else
      if name = "removeEventListener".toList then (elementOwner? object.bare).map _ else
      if name = "dispose".toList ∧ arguments.map Tree.bare = [] then some _ else none : Option Call).isSome = true
    split at isCall
    next removes =>
      split at isCall
      next => rw [if_pos removes]; rfl
      next => cases isCall
    next keeps =>
      rw [if_neg keeps]
      split at isCall
      next unlistens =>
        rw [if_pos unlistens]
        rw [Option.isSome_map] at isCall ⊢
        unfold elementOwner? at isCall
        split at isCall
        next owner name _ _ =>
          simp only [Tree.bare_node, List.map_cons, List.map_nil]
          change (if name = "domElement".toList then some owner.bare else none).isSome = true
          split at isCall
          next isElement => rw [if_pos isElement]; rfl
          next => cases isCall
        next => cases isCall
      next listens =>
        rw [if_neg listens]
        split at isCall
        next disposes =>
          rw [disposes.2]
          rw [if_pos ⟨disposes.1, rfl⟩]
          rfl
        next => cases isCall
  next => cases isCall

/-- What holds a teardown call holds it without its places, too. -/
theorem holdsTeardown_bare
    (holds : holdsTeardown tree = true) :
    holdsTeardown tree.bare = true := by
  induction tree with
  | node kind span children inductionHypothesis =>
      have within {parts : List Tree} (among : parts.any holdsTeardown = true) :
          holdsTeardown (Tree.bareNode kind parts) = true := by
        unfold Tree.bareNode
        split
        next => simpa using among
        next => rw [Tree.made, holdsTeardown_node, among, Bool.or_true]
      rw [holdsTeardown_node, Bool.or_eq_true] at holds
      rw [Tree.bare_node]
      rcases holds with isCall | among
      · unfold isTeardown at isCall
        split at isCall
        next span expression same =>
          obtain ⟨rfl, rfl, rfl⟩ := Tree.node.inj same
          change holdsTeardown (.made .expressionStatement [expression.bare]) = true
          rw [Tree.made, holdsTeardown_node, isTeardown, isSome_call?_bare isCall]
          rfl
        next => cases isCall
      · obtain ⟨child, member, holds⟩ := List.any_eq_true.mp among
        exact within (List.any_eq_true.mpr
          ⟨child.bare, List.mem_map_of_mem member, inductionHypothesis child member holds⟩)

/-- A call that a run comes to is a teardown call in the tree. -/
theorem holdsTeardown_of_reaches
    {edit : Edit}
    (reaches : Reaches source around tree inner node)
    (guarded : edit? source inner node = some edit) :
    holdsTeardown tree = true := by
  induction reaches with
  | here around tree =>
      obtain ⟨kind, span, children⟩ := tree
      rw [holdsTeardown_node, Bool.or_eq_true]
      left
      unfold edit? at guarded
      split at guarded
      next span expression same =>
        obtain ⟨text, made, -⟩ := Option.map_eq_some_iff.mp guarded
        obtain ⟨call, isCall, -⟩ := call?_of_guarded? made
        rw [same, isTeardown, isCall]
        rfl
      next => cases guarded
  | @child around inner tree child node place kept among further inductionHypothesis =>
      obtain ⟨kind, span, children⟩ := tree
      rw [holdsTeardown_node, Bool.or_eq_true, List.any_eq_true]
      exact .inr ⟨child, List.mem_of_getElem? among, inductionHypothesis guarded⟩

/-- A tree without teardown calls is left alone. -/
theorem editsWithin_eq_nil
    (free : holdsTeardown tree.bare = false) :
    editsWithin source tree around = [] := by
  apply List.eq_nil_iff_forall_not_mem.mpr
  intro edit member
  obtain ⟨inner, node, reached, guarded⟩ := mem_editsWithin_iff.mp member
  rw [holdsTeardown_bare (holdsTeardown_of_reaches reached guarded)] at free
  cases free

/-- No statement stands in an operand. -/
theorem holdsTeardown_of_operand
    (operand : Operand tokens tree) :
    holdsTeardown tree = false := by
  induction operand with
  | @atom token kind atom =>
      rcases Token.kind_of_atom? atom with
        rfl | rfl | ⟨text, rfl⟩ | ⟨value, rfl⟩ | ⟨value, escaped, rfl⟩ <;> rfl
  | member object name inductionHypothesis =>
      rw [Tree.made, holdsTeardown_node, List.any_cons, inductionHypothesis]
      rfl
  | @call tokens tree arguments callee each inductionHypothesis inductionHypotheses =>
      have none : (arguments.map Prod.snd).any holdsTeardown = false :=
        List.any_eq_false.mpr (List.forall_mem_map.mpr fun argument member =>
          Bool.eq_false_iff.mp (inductionHypotheses argument member))
      rw [Tree.made, holdsTeardown_node, List.any_cons, inductionHypothesis, List.any_cons, none]
      rfl

theorem holdsTeardown_of_conjunction
    {first : Tree}
    {more : List (List Token × Tree)}
    (free : holdsTeardown first = false)
    (each : ∀ other ∈ more, Operand other.1 other.2) :
    holdsTeardown (conjunction first more) = false := by
  induction more generalizing first with
  | nil => exact free
  | cons other more inductionHypothesis =>
      rw [List.forall_mem_cons] at each
      refine inductionHypothesis ?_ each.2
      change holdsTeardown (.node _ _ [first, other.2]) = false
      rw [holdsTeardown_node, List.any_cons, free, List.any_cons, holdsTeardown_of_operand each.1]
      rfl

/-! ## Plain teardown calls -/

/-- A teardown call between operands. -/
inductive Release where
  | removal (parent child : OperandText)
  | unlistening (owner : OperandText) (arguments : List OperandText)
  | disposal (object : OperandText)

namespace Release

/-- The call itself. -/
def call : Release → OperandText
  | removal parent child => (parent.member "removeChild".toList (by decide)).call [child]
  | unlistening owner arguments =>
    ((owner.member "domElement".toList (by decide)).member "removeEventListener".toList (by decide)).call arguments
  | disposal object => (object.member "dispose".toList (by decide)).call []

/-- The test under which the call is put, as a text. -/
def testText? : Release → Option Text
  | removal parent child => some (childTest parent.text child.text)
  | unlistening owner _ => some (elementTest owner.text)
  | disposal _ => none

/-- The test under which the call is put. -/
def test? : Release → Option Tree
  | removal parent child =>
    some (conjunction parent.tree [(child.tokens, child.tree),
      (((parent.member "contains".toList (by decide)).call [child]).tokens,
        ((parent.member "contains".toList (by decide)).call [child]).tree)])
  | unlistening owner _ =>
    some (conjunction owner.tree [((owner.member "domElement".toList (by decide)).tokens,
      (owner.member "domElement".toList (by decide)).tree)])
  | disposal _ => none

/-- The block with the call. -/
def body (release : Release) : Tree :=
  .made .block [.made .expressionStatement [release.call.tree]]

/-- The guard of the call, as a text. -/
def guardText (release : Release) : Text :=
  match release.testText? with
  | some test => underTest test release.call.text
  | none => reported release.call.text

/-- The guard of the call. -/
def guardTree (release : Release) : Tree :=
  match release.test? with
  | some test => .made .conditionalStatement [test, release.body, .absent]
  | none => .made .tryStatement [release.body, handler, .absent]

/-- The expression is the call, and a run guards it as such. -/
structure IsReadFrom (release : Release) (source : Text) (found : Tree) (call : Call) : Prop where
  bare : found.bare = release.call.tree
  covers : textOf source found = release.call.text
  isCall : call? found = some call
  testText : call.testText? source = release.testText?
  test : call.test? = release.test?

end Release

theorem Call.text_eq
    (call : Call) :
    call.text source found =
      match call.testText? source with
      | some test => underTest test (textOf source found)
      | none => reported (textOf source found) := by
  cases call <;> rfl

namespace Release

variable {release : Release} {call : Call} {state : State} {depth : Nat}

theorem IsReadFrom.guardText_eq
    (isRead : release.IsReadFrom source found call) :
    call.text source found = release.guardText := by
  rw [Call.text_eq, isRead.testText, isRead.covers, guardText]

theorem IsReadFrom.guardTree_eq
    (isRead : release.IsReadFrom source found call) :
    call.guard found = release.guardTree := by
  rw [Call.guard, isRead.test, Call.body, isRead.bare]
  rfl

/-- The call is read from its text, with all operands that its guard repeats. -/
theorem exists_isReadFrom
    (release : Release)
    (onText : OnText source state (release.call.text ++ rest))
    (closes : Closes rest)
    (deep : 4 * release.call.text.length ≤ depth) :
    ∃ after span parts,
      Taken source (depth + 5) release.call state after (.node (.call false false) span parts) ∧
        OnText source after rest ∧
        ∀ pure, ∃ call, release.IsReadFrom source (.node (.call false pure) span parts) call := by
  have deeper {length : Nat} (short : length ≤ release.call.text.length) : 4 * length ≤ depth + 5 :=
    Nat.le_add_right_of_le (Nat.le_trans (Nat.mul_le_mul_left 4 short) deep)
  cases release with
  | removal parent child =>
      have short := @OperandText.length_le_call parent "removeChild".toList (by decide) [child]
      obtain ⟨more, onObject⟩ := Taken.onText_object onText
      obtain ⟨_, object, taken, -⟩ := parent.exists_taken onObject ⟨'.', more, rfl, by decide⟩ (deeper short)
      obtain ⟨after, span, _, _, all, whole, onRest, bare, covers⟩ := taken.method (by decide) [child] onText closes deep
      obtain ⟨argument, rfl, covered⟩ := List.map_eq_singleton_iff.mp (covers child rfl)
      refine ⟨after, span, _, whole, onRest, fun pure => ⟨.removal object argument, whole.bare, whole.covers, rfl, ?_, ?_⟩⟩
      · exact congrArg₂ (fun parent child => some (childTest parent child)) taken.covers covered
      · rw [Call.test?, taken.bare, (List.cons.inj bare).1]
        rfl
  | unlistening owner arguments =>
      let element := owner.member "domElement".toList (by decide)
      have short := @OperandText.length_le_call element "removeEventListener".toList (by decide) arguments
      have shorter : owner.text.length ≤ element.text.length := (List.prefix_append owner.text _).length_le
      obtain ⟨more, onElement⟩ := Taken.onText_object onText
      obtain ⟨_, object, taken, -⟩ := owner.exists_taken (OperandText.text_member_append .. ▸ onElement)
        ⟨'.', _, rfl, by decide⟩ (deeper (Nat.le_trans shorter short))
      obtain ⟨_, _, _, member, -⟩ := taken.member (by decide) onElement ⟨'.', more, rfl, by decide⟩
      obtain ⟨after, span, _, _, all, whole, onRest, -⟩ := member.method (by decide) arguments onText closes deep
      refine ⟨after, span, _, whole, onRest, fun pure => ⟨.unlistening object, whole.bare, whole.covers, rfl, ?_, ?_⟩⟩
      · exact congrArg (fun owner => some (elementTest owner)) taken.covers
      · rw [Call.test?, taken.bare]
        rfl
  | disposal object =>
      have short := @OperandText.length_le_call object "dispose".toList (by decide) []
      obtain ⟨more, onObject⟩ := Taken.onText_object onText
      obtain ⟨_, _, taken, -⟩ := object.exists_taken onObject ⟨'.', more, rfl, by decide⟩ (deeper short)
      obtain ⟨after, span, _, _, all, whole, onRest, bare, -⟩ := taken.method (by decide) [] onText closes deep
      obtain rfl := List.map_eq_nil_iff.mp bare
      exact ⟨after, span, _, whole, onRest, fun pure => ⟨.disposal, whole.bare, whole.covers, rfl, rfl, rfl⟩⟩

/-! ## Reading guards -/

/-- The call is a call. -/
theorem exists_parts
    (release : Release) :
    ∃ parts, release.call.tree = .made (.call false false) parts := by
  cases release <;> exact ⟨_, rfl⟩

/-- In front of a semicolon the call is an expression. -/
theorem exists_expression
    (release : Release)
    (onText : OnText source state (release.call.text ++ ';' :: rest))
    (deep : 4 * release.call.text.length ≤ depth) :
    ∃ after found call,
      reach (depth + 10) .expression state = some (found, after) ∧ release.IsReadFrom source found call ∧
        Runs release.call.tokens state after ∧ OnText source after (';' :: rest) := by
  obtain ⟨after, span, parts, taken, onRest, isRead⟩ := release.exists_isReadFrom onText ⟨';', rest, rfl, by decide⟩ deep
  obtain ⟨_, ⟨semicolon, -⟩, -⟩ := onRest.passed (spells_bracket ';' (by decide) rest) (List.cons_ne_nil _ _)
  have short := release.call.length_le
  have budget := onText.budget
  have within := onText.isEnd.length_le
  rw [List.length_append] at within
  have read := taken.expression_eq (by omega) (by rw [semicolon]; decide) (by rw [semicolon]; rfl)
  obtain ⟨pure, noted⟩ := noted_call state false span parts
  obtain ⟨call, isRead⟩ := isRead pure
  exact ⟨after, _, call, noted ▸ read, isRead, taken.runs, onRest⟩

/-- In braces and with its semicolon the call is a block. -/
theorem exists_block
    (release : Release)
    (onText : OnText source state ("\x7b ".toList ++ (release.call.text ++ ("; \x7d".toList ++ rest))))
    (deep : 4 * release.call.text.length ≤ depth) :
    ∃ after span place found call,
      reach (depth + 12) .block state = some (.node .block span [.node .expressionStatement place [found]], after) ∧
        release.IsReadFrom source found call ∧
        Runs (.mark "\x7b" :: (release.call.tokens ++ [Token.mark ";", .mark "\x7d"])) state after ∧
        OnText source after rest := by
  have spells := spells_bracket '\x7b' (by decide) (' ' :: (release.call.text ++ ("; \x7d".toList ++ rest)))
  obtain ⟨_, ⟨opens, rfl⟩, onBlank⟩ := onText.passed spells (List.cons_ne_nil _ _)
  obtain ⟨middle, found, call, read, isRead, runs, onEnd⟩ := release.exists_expression onBlank.blank deep
  obtain ⟨_, ⟨semicolon, rfl⟩, onBrace⟩ := onEnd.passed (spells_bracket ';' (by decide) _) (List.cons_ne_nil _ _)
  obtain ⟨after, ⟨brace, rfl⟩, onRest⟩ := onBrace.blank.passed (spells_bracket '\x7d' (by decide) rest) (List.cons_ne_nil _ _)
  obtain ⟨parts, isCall⟩ := release.exists_parts
  obtain ⟨kind, atom⟩ := release.call.operand.chained.atom_of_runs runs
  have budget := onText.budget
  have within := onText.isEnd.length_le
  rw [List.length_append] at within
  have two : "\x7b ".toList.length = 2 := rfl
  have block := body_eq opens atom read (isRead.bare.trans isCall) ⟨semicolon, brace, rfl⟩ (by omega)
  exact ⟨_, _, _, found, call, block, isRead, ⟨opens, runs_append.mpr ⟨middle, runs, semicolon, brace, rfl⟩⟩, onRest⟩

/-- The statement is a guard, and a run finds nothing to do in it. -/
structure IsGuard (source : Text) (statement guard : Tree) : Prop where
  bare : statement.bare = guard
  kept : editsWithin source statement .top = []
  exportsNothing : exportedNames statement = []

/-- The block of a guard is left alone where what surrounds it guards the call. -/
theorem IsReadFrom.kept_block
    (isRead : release.IsReadFrom source found call)
    (guarded : call.isGuarded source around = true)
    (span inner : Span) :
    editsWithin source (.node .block span [.node .expressionStatement inner [found]]) around = [] := by
  have free : holdsTeardown found.bare = false := isRead.bare ▸ holdsTeardown_of_operand release.call.operand
  have unguarded : edit? source around (.node .expressionStatement inner [found]) = none := by
    rw [edit?, guarded?_of_call? isRead.isCall, if_pos guarded]
    rfl
  have statement : editsWithin source (.node .expressionStatement inner [found]) around = [] := by
    rw [editsWithin_eq, unguarded]
    change editsWithin source found around ++ [] = []
    rw [editsWithin_eq_nil free]
    rfl
  rw [editsWithin_eq]
  change editsWithin source (.node .expressionStatement inner [found]) around ++ [] = []
  rw [statement]
  rfl

theorem length_le_underTest
    (test call : Text) :
    call.length ≤ (underTest test call).length := by
  have length := congrArg List.length (underTest_append test call [])
  simp only [List.append_nil, List.length_append] at length
  omega

theorem length_le_reported
    (call : Text) :
    call.length ≤ (reported call).length := by
  have length := congrArg List.length (reported_append call [])
  simp only [List.append_nil, List.length_append] at length
  omega

/-- The test of a guard with the block behind it is a choice, if no other choice follows. -/
theorem exists_underTest
    {test : Text}
    {testTokens : List Token}
    {first : Tree}
    {more : List (List Token × Tree)}
    (release : Release)
    (isTest : release.testText? = some test)
    (tested : Spelling test (testTokens ++ conjuncts more))
    (starts : startsToken test = true)
    (firstOperand : Operand testTokens first)
    (each : ∀ other ∈ more, Operand other.1 other.2)
    (onText : OnText source state (underTest test release.call.text ++ rest))
    (deep : 4 * (underTest test release.call.text).length ≤ depth) :
    ∃ after, Crosses (underTest test release.call.text ++ rest) rest state after ∧
      (after.token.isWord "else" = false →
        ∃ statement, reach (depth + 14) (.statement false) state = some (statement, after) ∧
          IsGuard source statement
            (.made .conditionalStatement [conjunction first more, release.body, .absent])) := by
  have text : underTest test release.call.text ++ rest =
      "if".toList ++ ' ' :: '(' ::
        (test ++ ')' :: ' ' :: ("\x7b ".toList ++ (release.call.text ++ ("; \x7d".toList ++ rest)))) := by
    rw [underTest_append]
    rfl
  obtain ⟨parts, isCall⟩ := release.exists_parts
  have short := length_underTest tested firstOperand each release.call.spelling (isCall ▸ release.call.operand)
  have inside := length_le_underTest test release.call.text
  have budget := onText.budget
  have within := onText.isEnd.length_le
  rw [List.length_append] at within
  obtain ⟨_, ⟨word, rfl⟩, onOpening⟩ := (text ▸ onText).passed (@spelling_name "if".toList (by decide) _ ⟨' ', _, rfl, by decide⟩)
    (List.cons_ne_nil _ _)
  obtain ⟨_, ⟨opens, rfl⟩, onTest⟩ := onOpening.blank.passed (spells_bracket '(' (by decide) _) (List.cons_ne_nil _ _)
  have spells := tested (')' :: ' ' :: ("\x7b ".toList ++ (release.call.text ++ ("; \x7d".toList ++ rest))))
    ⟨')', _, rfl, by decide⟩
  have filled : testTokens ++ conjuncts more ≠ [] := List.append_ne_nil_of_left_ne_nil firstOperand.filled _
  obtain ⟨middle, runs, onClosing⟩ := onTest.passed spells filled
  obtain ⟨_, ⟨closes, rfl⟩, onBody⟩ := onClosing.passed (spells_bracket ')' (by decide) _) (List.cons_ne_nil _ _)
  obtain ⟨after, block, inner, found, call, read, isRead, braces, -⟩ := release.exists_block onBody.blank
    (show 4 * release.call.text.length ≤ depth by omega)
  obtain ⟨condition, conditionRead, bare, span⟩ := firstOperand.chained.expression_eq
    (fun other member => (each other member).chained) (depth + 7) (by omega)
    (by change _ < state.budget; omega) runs (by rw [closes]; decide) (by rw [closes]; rfl)
  have body := blockStatement_eq braces.1 read true
  obtain ⟨alone, -⟩ := conditionalStatement_eq word opens conditionRead closes body false
  have covers : textOf source condition = test := by
    rw [textOf, span]
    exact onTest.slice_eq starts spells filled runs
  refine ⟨after, ⟨_, List.cons_ne_nil _ _, spells_underTest tested release.call.spelling release.call.filled rest,
    word, opens, runs_append.mpr ⟨middle, runs, closes, braces⟩⟩, fun noElse => ⟨_, alone noElse, ?_, ?_, rfl⟩⟩
  · simp only [Tree.bare_node, List.map_cons, List.map_nil, bare, isRead.bare, Tree.bare_absent]
    rfl
  · have free : holdsTeardown condition.bare = false :=
      bare ▸ holdsTeardown_of_conjunction (holdsTeardown_of_operand firstOperand) each
    have guarded : call.isGuarded source ⟨[Text.squash (textOf source condition)], false⟩ = true := by
      rw [Call.isGuarded, isRead.testText, isTest, covers]
      exact List.contains_iff_mem.mpr List.mem_cons_self
    rw [editsWithin_eq]
    change editsWithin source condition .top ++
      (editsWithin source (.node .block block [.node .expressionStatement inner [found]])
        ⟨[Text.squash (textOf source condition)], false⟩ ++ []) = []
    rw [editsWithin_eq_nil free, isRead.kept_block guarded]
    rfl

/-- The block with a handler behind it is a `try` statement. -/
theorem exists_reported
    (release : Release)
    (isFree : release.testText? = none)
    (onText : OnText source state (reported release.call.text ++ rest))
    (deep : 4 * (reported release.call.text).length ≤ depth) :
    ∃ after, Crosses (reported release.call.text ++ rest) rest state after ∧
      (after.token.isWord "finally" = false →
        ∃ statement, reach (depth + 14) (.statement false) state = some (statement, after) ∧
          IsGuard source statement (.made .tryStatement [release.body, handler, .absent])) := by
  have text : reported release.call.text ++ rest =
      "try".toList ++ ' ' :: ("\x7b ".toList ++ (release.call.text ++ ("; \x7d".toList ++ ' ' ::
        ("catch (disposeError) ".toList ++ ("\x7b ".toList ++
          ("console.warn(\"dispose failed\", disposeError)".toList ++ ("; \x7d".toList ++ rest))))))) :=
    reported_append ..
  obtain ⟨parts, isCall⟩ := release.exists_parts
  have short := length_reported release.call.spelling (isCall ▸ release.call.operand)
  have inside := length_le_reported release.call.text
  have budget := onText.budget
  have within := onText.isEnd.length_le
  rw [List.length_append] at within
  obtain ⟨_, ⟨word, rfl⟩, onBody⟩ := (text ▸ onText).passed (@spelling_name "try".toList (by decide) _ ⟨' ', _, rfl, by decide⟩)
    (List.cons_ne_nil _ _)
  obtain ⟨middle, block, inner, found, call, read, isRead, braces, onHandler⟩ := release.exists_block onBody.blank
    (show 4 * release.call.text.length ≤ depth + 1 by omega)
  obtain ⟨after, handled, -⟩ := onHandler.blank.passed (spells_handling rest) (List.cons_ne_nil _ _)
  obtain ⟨last, head, caught⟩ := runs_append.mp (show
    Runs ([Token.word "catch".toList false, .mark "(", .word "disposeError".toList false, .mark ")"] ++
      Token.mark "\x7b" :: (warning ++ [Token.mark ";", .mark "\x7d"])) _ _ from handled)
  have warned := onHandler.budget
  have kept : last.budget = middle.budget := head.kept.2.1
  obtain ⟨place, report, handlerBlock, meant⟩ := reads_body operand_warning (depth + 5) (by omega) (by omega) caught
  refine ⟨after, ⟨_, List.cons_ne_nil _ _, spells_reported release.call.spelling release.call.filled rest,
    word, runs_append.mpr ⟨middle, braces, handled⟩⟩, fun noFinally => ?_⟩
  obtain ⟨clause, statement, clauseBare⟩ := tryStatement_eq word read head (by decide) handlerBlock noFinally false
  rw [meant] at clauseBare
  refine ⟨_, statement, ?_, ?_, rfl⟩
  · simp only [Tree.bare_node, List.map_cons, List.map_nil, isRead.bare, clauseBare, Tree.bare_absent]
    rfl
  · have free : holdsTeardown clause.bare = false := by
      rw [clauseBare]
      decide +kernel
    have guarded : call.isGuarded source ⟨[], true⟩ = true := by
      rw [Call.isGuarded, isRead.testText, isFree]
    rw [editsWithin_eq]
    change editsWithin source (.node .block block [.node .expressionStatement inner [found]]) ⟨[], true⟩ ++
      (editsWithin source clause .top ++ []) = []
    rw [isRead.kept_block guarded, editsWithin_eq_nil free]
    rfl

/-- The guard is read back as the guard that it is meant to be, and a run finds nothing to do in it. -/
theorem exists_guard
    (release : Release)
    (onText : OnText source state (release.guardText ++ rest))
    (deep : 4 * release.guardText.length ≤ depth) :
    ∃ after, Crosses (release.guardText ++ rest) rest state after ∧
      (after.token.isWord "else" = false → after.token.isWord "finally" = false →
        ∃ statement, reach (depth + 14) (.statement false) state = some (statement, after) ∧
          IsGuard source statement release.guardTree) := by
  cases release with
  | removal parent child =>
      let contains := (parent.member "contains".toList (by decide)).call [child]
      have starts : startsToken (childTest parent.text child.text) = true := by
        rw [childTest_eq]
        exact startsToken_append parent.starts _
      obtain ⟨after, crosses, guard⟩ := exists_underTest (.removal parent child) rfl
        (spelling_childTest parent.spelling child.spelling child.filled child.tree contains.tree) starts parent.operand
        (List.forall_mem_cons.mpr ⟨child.operand, List.forall_mem_cons.mpr ⟨contains.operand, nofun⟩⟩) onText deep
      exact ⟨after, crosses, fun noElse _ => guard noElse⟩
  | unlistening owner arguments =>
      let element := owner.member "domElement".toList (by decide)
      have starts : startsToken (elementTest owner.text) = true := by
        rw [elementTest_eq]
        exact startsToken_append owner.starts _
      obtain ⟨after, crosses, guard⟩ := exists_underTest (.unlistening owner arguments) rfl
        (spelling_elementTest owner.spelling element.tree) starts owner.operand
        (List.forall_mem_cons.mpr ⟨element.operand, nofun⟩) onText deep
      exact ⟨after, crosses, fun noElse _ => guard noElse⟩
  | disposal object =>
      obtain ⟨after, crosses, guard⟩ := exists_reported (.disposal object) rfl onText deep
      exact ⟨after, crosses, fun _ noFinally => guard noFinally⟩

end Release

end Teardown

end LiveComponent
