import LiveComponent.Proofs.GuardedStatements
import LiveComponent.Proofs.LayoutModules
import LiveComponent.Proofs.MarkupLowering
import Mathlib.Data.List.Nodup

namespace LiveComponent

/-!
# Edits in disjoint places

The statements that are guarded and the markup that is lowered lie in disjoint parts of a source, since its tree
is laid out.  So the result is the source in which all of these parts are replaced at once, and everything
between them is kept.
-/

/-! ## Replaced parts of a text -/

namespace Text

/-- From an offset on, a text becomes another one: each edited part is replaced, and what lies before, between
and behind these parts is kept. -/
inductive Replaced : Nat → List Edit → Text → Text → Prop where
  | rest
      (offset : Nat)
      (text : Text) :
      Replaced offset [] text text
  | edit
      {offset : Nat}
      {edit : Edit}
      {edits : List Edit}
      {gap old text result : Text}
      (begins : edit.start = offset + gap.length)
      (ends : edit.stop = edit.start + old.length)
      (further : Replaced edit.stop edits text result) :
      Replaced offset (edit :: edits) (gap ++ (old ++ text)) (gap ++ (edit.text ++ result))

/-- The edited parts of a text are disjoint, and the result is the text with all of them replaced. -/
structure Rewritten (edits : List Edit) (text result : Text) : Prop where
  disjoint : edits.Pairwise fun first second => first.stop ≤ second.start
  inside : ∀ edit ∈ edits, edit.start ≤ edit.stop ∧ edit.stop ≤ text.length
  replaced : Replaced 0 edits text result

variable
  {low between high offset : Nat}
  {edits others : List Edit}
  {text : Text}

theorem Ascending.lower
    (ascending : Ascending between edits)
    (down : low ≤ between) :
    Ascending low edits := by
  cases edits with
  | nil => trivial
  | cons edit edits => exact ⟨Nat.le_trans down ascending.1, ascending.2⟩

/-- Edits in one part of a text and edits behind it ascend together. -/
theorem Ascending.append
    (first : Ascending low edits)
    (bounded : ∀ edit ∈ edits, edit.stop ≤ between)
    (second : Ascending between others)
    (ordered : low ≤ between) :
    Ascending low (edits ++ others) := by
  induction edits generalizing low with
  | nil => exact second.lower ordered
  | cons edit edits inductionHypothesis =>
      obtain ⟨begins, ends, further⟩ := first
      exact ⟨begins, ends, inductionHypothesis further (fun other among => bounded other (by simp [among]))
        (bounded edit (by simp))⟩

theorem Ascending.le_start
    (ascending : Ascending low edits) :
    ∀ edit ∈ edits, low ≤ edit.start ∧ edit.start ≤ edit.stop := by
  induction edits generalizing low with
  | nil => simp
  | cons edit edits inductionHypothesis =>
      obtain ⟨begins, ends, further⟩ := ascending
      intro other among
      rcases List.mem_cons.mp among with rfl | among
      · exact ⟨begins, ends⟩
      · have later := inductionHypothesis further other among
        exact ⟨by omega, later.2⟩

theorem Ascending.disjoint
    (ascending : Ascending low edits) :
    edits.Pairwise fun first second => first.stop ≤ second.start := by
  induction edits generalizing low with
  | nil => exact .nil
  | cons edit edits inductionHypothesis =>
      obtain ⟨begins, ends, further⟩ := ascending
      exact .cons (fun other among => (further.le_start other among).1) (inductionHypothesis further)

/-- Text in front of all edits is kept. -/
theorem Replaced.behind
    {result : Text}
    (front : Text)
    (replaced : Replaced (offset + front.length) edits text result) :
    Replaced offset edits (front ++ text) (front ++ result) := by
  cases replaced with
  | rest => exact .rest offset _
  | @edit _ edit edits gap old text result begins ends further =>
      have begins : edit.start = offset + (front ++ gap).length := by
        rw [begins, List.length_append, Nat.add_assoc]
      have whole := @Replaced.edit offset edit edits (front ++ gap) old text result begins ends further
      rwa [List.append_assoc, List.append_assoc] at whole

/-- What replaces the edited parts of a text is spliced in. -/
theorem Replaced.spliceFrom_eq
    {result : Text}
    (replaced : Replaced offset edits text result) :
    spliceFrom offset edits text = result := by
  induction replaced with
  | rest => rfl
  | @edit offset edit edits gap old text result begins ends further inductionHypothesis =>
      have front : edit.start - offset = gap.length := by omega
      have back : edit.stop - offset = (gap ++ old).length := by
        rw [List.length_append]
        omega
      rw [spliceFrom, front, List.take_left, back, ← List.append_assoc gap, List.drop_left, inductionHypothesis,
        List.append_assoc]

/-- Splicing replaces edited parts that ascend. -/
theorem replaced_spliceFrom
    (ascending : Ascending offset edits)
    (inside : ∀ edit ∈ edits, edit.stop ≤ offset + text.length) :
    Replaced offset edits text (spliceFrom offset edits text) := by
  induction edits generalizing offset text with
  | nil => exact .rest offset text
  | cons edit edits inductionHypothesis =>
      obtain ⟨begins, ends, further⟩ := ascending
      have fits := inside edit (by simp)
      have later : Replaced edit.stop edits (text.drop (edit.stop - offset))
          (spliceFrom edit.stop edits (text.drop (edit.stop - offset))) := by
        refine inductionHypothesis further fun other among => ?_
        have otherFits := inside other (by simp [among])
        rw [List.length_drop]
        omega
      let gap := text.take (edit.start - offset)
      let old := (text.drop (edit.start - offset)).take (edit.stop - edit.start)
      have parts : gap ++ (old ++ text.drop (edit.stop - offset)) = text := by
        have behind : text.drop (edit.stop - offset) =
            (text.drop (edit.start - offset)).drop (edit.stop - edit.start) := by
          rw [List.drop_drop]
          congr 1
          omega
        rw [behind, List.take_append_drop, List.take_append_drop]
      have begins' : edit.start = offset + gap.length := by
        simp only [gap, List.length_take]
        omega
      have ends' : edit.stop = edit.start + old.length := by
        simp only [old, List.length_take, List.length_drop]
        omega
      have replaced := Replaced.edit begins' ends' later
      rw [parts] at replaced
      rwa [spliceFrom, List.append_assoc]

theorem rewritten_splice
    (ascending : Ascending 0 edits)
    (inside : ∀ edit ∈ edits, edit.stop ≤ text.length) :
    Rewritten edits text (splice edits text) where
  disjoint := ascending.disjoint
  inside edit among := ⟨(ascending.le_start edit among).2, inside edit among⟩
  replaced := replaced_spliceFrom ascending (by simpa using inside)

/-- Put the text of an edit in the place of its part, and leave the other parts as they are. -/
def replacePart (edit : Edit) (text : Text) : Text :=
  text.take edit.start ++ edit.text ++ text.drop edit.stop

/-- Apply edits one after the other, the last part first. -/
def spliceBackwards (edits : List Edit) (text : Text) : Text :=
  (edits.mergeSort fun first second => second.start ≤ first.start).foldl (fun text edit => replacePart edit text) text

/-- Parts that are replaced from the last one on are replaced in their places, since what stands before them has not
changed yet. -/
theorem foldr_replacePart
    (ascending : Ascending offset edits)
    {before : Text}
    (length : before.length = offset)
    (inside : ∀ edit ∈ edits, edit.stop ≤ offset + text.length) :
    edits.foldr replacePart (before ++ text) = before ++ spliceFrom offset edits text := by
  induction edits generalizing offset before text with
  | nil => rfl
  | cons edit edits inductionHypothesis =>
      obtain ⟨begins, ends, further⟩ := ascending
      have fits := inside edit (by simp)
      let part := text.take (edit.stop - offset)
      have reaches : (before ++ part).length = edit.stop := by
        simp only [part, List.length_append, List.length_take]
        omega
      have later : edits.foldr replacePart (before ++ part ++ text.drop (edit.stop - offset)) =
          before ++ part ++ spliceFrom edit.stop edits (text.drop (edit.stop - offset)) := by
        refine inductionHypothesis further reaches fun other among => ?_
        have otherFits := inside other (by simp [among])
        rw [List.length_drop]
        omega
      rw [List.append_assoc, List.take_append_drop] at later
      have front : (before ++ part).take edit.start = before ++ text.take (edit.start - offset) := by
        rw [List.take_append, List.take_of_length_le (by omega), length, List.take_take,
          Nat.min_eq_left (by omega)]
      rw [List.foldr_cons, later, replacePart, spliceFrom, List.take_append_of_le_length (by omega), front,
        ← reaches, List.drop_left]
      simp only [List.append_assoc]

/-- Replacing the parts one after the other from the last one on replaces all of them at once. -/
theorem spliceBackwards_eq_splice
    (ascending : Ascending 0 edits)
    (distinct : edits.Pairwise fun first second => first.start < second.start)
    (inside : ∀ edit ∈ edits, edit.stop ≤ text.length) :
    spliceBackwards edits text = splice edits text := by
  have starts : (edits.map Edit.start).Nodup := List.pairwise_map.mpr (distinct.imp Nat.ne_of_lt)
  have backwards : edits.reverse.Pairwise fun first second => decide (second.start ≤ first.start) = true :=
    List.pairwise_reverse.mpr (distinct.imp fun before => decide_eq_true (Nat.le_of_lt before))
  have sorted : edits.mergeSort (fun first second => second.start ≤ first.start) = edits.reverse := by
    refine ((List.mergeSort_perm _ _).trans (List.reverse_perm edits).symm).eq_of_pairwise ?_
      (List.pairwise_mergeSort ?_ ?_ _) backwards
    · intro first second among among' down up
      simp only [decide_eq_true_eq] at down up
      exact List.inj_on_of_nodup_map starts (List.mem_mergeSort.mp among) (List.mem_reverse.mp among')
        (Nat.le_antisymm up down)
    · simp only [decide_eq_true_eq]
      omega
    · simp only [Bool.or_eq_true, decide_eq_true_eq]
      omega
  rw [spliceBackwards, sorted, List.foldl_reverse]
  have none : ([] : Text).length = 0 := rfl
  exact foldr_replacePart ascending none (by simpa using inside)

end Text

/-! ## Edits in a tree -/

namespace Tree

/-- Whether the node may be replaced as a whole: an expression as a statement, or markup. -/
def isReplaceable (tree : Tree) : Bool :=
  match tree.kind with
  | .expressionStatement | .element _ | .fragment => true
  | _ => false

/-- The edits are found in trees from left to right: a node is replaced as a whole, or its children are searched. -/
inductive Finds : List Tree → List Edit → Prop where
  | nil :
      Finds [] []
  | enter
      {kind : Kind}
      {span : Span}
      {children trees : List Tree}
      {edits others : List Edit}
      (inner : Finds children edits)
      (later : Finds trees others) :
      Finds (.node kind span children :: trees) (edits ++ others)
  | replace
      {tree : Tree}
      {trees : List Tree}
      {others : List Edit}
      {text : Text}
      (replaceable : tree.isReplaceable = true)
      (later : Finds trees others) :
      Finds (tree :: trees) (⟨tree.span.start, tree.span.stop, text⟩ :: others)

variable
  {low high : Nat}
  {tree : Tree}
  {trees others : List Tree}
  {edits later : List Edit}

/-- A node that may be replaced covers a part of its place. -/
theorem Laid.replaceable
    (laid : Laid low [tree] high)
    (replaceable : tree.isReplaceable = true) :
    tree.span.Within low high := by
  obtain ⟨kind, span, children⟩ := tree
  have fits := laid.fits_node
  cases kind
  case expressionStatement => exact fits
  case element count => exact fits.1
  case fragment => exact fits.1
  all_goals cases replaceable

/-- The edits in trees that are laid out ascend. -/
theorem Finds.ascending
    (finds : Finds trees edits)
    (laid : Laid low trees high) :
    Text.Ascending low edits ∧ ∀ edit ∈ edits, edit.stop ≤ high := by
  induction finds generalizing low high with
  | nil => exact ⟨trivial, by simp⟩
  | enter inner later innerHypothesis laterHypothesis =>
      obtain ⟨between, first, second⟩ := laid.uncons
      obtain ⟨ascends, bounded⟩ := innerHypothesis first.children_node
      obtain ⟨ascendsLater, boundedLater⟩ := laterHypothesis second
      refine ⟨ascends.append bounded ascendsLater first.le, fun edit among => ?_⟩
      rcases List.mem_append.mp among with among | among
      · exact Nat.le_trans (bounded edit among) second.le
      · exact boundedLater edit among
  | replace replaceable later inductionHypothesis =>
      obtain ⟨between, first, second⟩ := laid.uncons
      obtain ⟨begins, ordered, ends⟩ := first.replaceable replaceable
      obtain ⟨ascends, bounded⟩ := inductionHypothesis second
      refine ⟨⟨begins, ordered, ascends.lower ends⟩, ?_⟩
      intro edit among
      rcases List.mem_cons.mp among with rfl | among
      · exact Nat.le_trans ends second.le
      · exact bounded edit among

theorem Finds.append
    (first : Finds trees edits)
    (second : Finds others later) :
    Finds (trees ++ others) (edits ++ later) := by
  induction first with
  | nil => exact second
  | enter inner _ _ inductionHypothesis =>
      rw [List.append_assoc]
      exact .enter inner inductionHypothesis
  | replace replaceable _ inductionHypothesis => exact .replace replaceable inductionHypothesis

/-- The edits in the children of a node are edits in the node. -/
theorem Finds.parent
    {kind : Kind}
    {span : Span}
    (inner : Finds trees edits) :
    Finds [.node kind span trees] edits := by
  rw [← List.append_nil edits]
  exact .enter inner .nil

end Tree

namespace Teardown

open Tree (Finds)

/-- The teardown calls in a tree are searched from left to right. -/
theorem finds_editsWithin
    (source : Text)
    (tree : Tree)
    (around : Surroundings) :
    Finds [tree] (editsWithin source tree around) := by
  induction tree generalizing around with
  | node kind span children inductionHypothesis =>
      rw [editsWithin_eq]
      split
      next edit replaced =>
        unfold edit? at replaced
        split at replaced
        next span expression same =>
          cases same
          obtain ⟨text, -, rfl⟩ := Option.map_eq_some_iff.mp replaced
          exact .replace rfl .nil
        next => cases replaced
      next =>
        have parts (start : Nat) (trees : List Tree) (some : trees ⊆ children) :
            Finds trees ((trees.zipIdx start).flatMap fun child =>
              editsWithin source child.1 (around.inside source (.node kind span children) child.2)) := by
          induction trees generalizing start with
          | nil => exact .nil
          | cons child trees partsHypothesis =>
              obtain ⟨among, others⟩ := List.cons_subset.mp some
              rw [List.zipIdx_cons, List.flatMap_cons]
              exact .append (inductionHypothesis child among _) (partsHypothesis (start + 1) others)
        exact .parent (parts 0 children (List.Subset.refl _))

end Teardown

namespace Markup

open Tree (Finds)

/-- The markup in a tree is searched from left to right. -/
theorem finds_outermost
    (paths : Paths)
    (tree : Tree) :
    Finds [tree] ((outermost tree).map (loweringEdit paths)) := by
  induction tree with
  | node kind span children inductionHypothesis =>
      rw [outermost_node]
      split
      next isMarkup =>
        refine .replace ?_ .nil
        cases kind <;> first | rfl | cases isMarkup
      next =>
        have parts (trees : List Tree) (some : trees ⊆ children) :
            Finds trees ((trees.flatMap outermost).map (loweringEdit paths)) := by
          induction trees with
          | nil => exact .nil
          | cons child trees partsHypothesis =>
              obtain ⟨among, others⟩ := List.cons_subset.mp some
              rw [List.flatMap_cons, List.map_append]
              exact .append (inductionHypothesis child among) (partsHypothesis others)
        exact .parent (parts children (List.Subset.refl _))

/-- The node is the tree itself, or it lies in the tree, but in no markup besides itself. -/
inductive Exposes : Tree → Tree → Prop where
  | here (tree : Tree) :
      Exposes tree tree
  | child
      {tree child node : Tree}
      (other : isMarkup tree = false)
      (among : child ∈ tree.children)
      (further : Exposes child node) :
      Exposes tree node

/-- The outermost markup of a tree is the markup that lies in no other markup. -/
theorem mem_outermost_iff
    {tree node : Tree} :
    node ∈ outermost tree ↔ Exposes tree node ∧ isMarkup node = true := by
  constructor
  · intro among
    induction tree with
    | node kind span children inductionHypothesis =>
        rw [outermost_node] at among
        split at among
        next same =>
          obtain rfl := List.mem_singleton.mp among
          exact ⟨.here _, same⟩
        next other =>
          obtain ⟨child, found, inChild⟩ := List.mem_flatMap.mp among
          obtain ⟨exposed, same⟩ := inductionHypothesis child found inChild
          exact ⟨.child (Bool.eq_false_iff.mpr other) found exposed, same⟩
  · rintro ⟨exposed, same⟩
    induction exposed with
    | here tree =>
        obtain ⟨kind, span, children⟩ := tree
        rw [outermost_node, if_pos same]
        exact List.mem_singleton_self _
    | @child tree child node other among further inductionHypothesis =>
        obtain ⟨kind, span, children⟩ := tree
        rw [outermost_node, other]
        exact List.mem_flatMap.mpr ⟨child, among, inductionHypothesis same⟩

/-- The code is the text, or the text with the line put into it. -/
def MayInsert (line text code : Text) : Prop :=
  code = text ∨ ∃ front back, text = front ++ back ∧ code = front ++ line ++ back

theorem mayInsert_insertLine
    (line text : Text) :
    MayInsert line text (insertLine line text) := by
  unfold insertLine
  split
  next found _ => exact .inr ⟨_, _, (List.take_append_drop found.whole.stop text).symm, rfl⟩
  next => exact .inr ⟨[], text, rfl, rfl⟩

theorem mayInsert_bindFactory
    (options : Options)
    (text : Text) :
    MayInsert (importLine options) text (bindFactory options text).1 := by
  unfold bindFactory
  dsimp only
  split
  · exact .inl rfl
  · exact mayInsert_insertLine _ _

end Markup

/-! ## Edited sources -/

/-- What guarding a source says about the number of its edits. -/
def Teardown.warningsFor (count : Nat) : List Text :=
  if count = 0 then []
  else ["guarded ".toList ++ Text.ofNat count ++ " unsafe teardown call(s)".toList]

/-- The edits that lower the markup of a tree. -/
def Markup.loweringEditsOf (options : Options) (tree : Tree) : List Edit :=
  (outermost tree).map (loweringEdit ⟨options.factory, options.fragment⟩)

section

variable
  {source : Text}
  {tree : Tree}

theorem Teardown.rewritten_guard
    (parsed : parse? (isTyped source) source = some tree) :
    Text.Rewritten (edits source tree) source (guard source).1 := by
  obtain ⟨ascending, inside⟩ := (finds_editsWithin source tree .top).ascending (Parser.laid_parse parsed)
  rw [guard_eq_splice parsed]
  exact Text.rewritten_splice ascending inside

theorem Teardown.warnings_guard
    (parsed : parse? (isTyped source) source = some tree) :
    (guard source).2 = warningsFor (edits source tree).length := by
  unfold guard
  rw [parsed]
  cases found : edits source tree with
  | nil => simp only [found]; rfl
  | cons edit others =>
      simp only [found]
      rfl

theorem Markup.rewritten_lowered
    {options : Options}
    {typed : Bool}
    (parsed : parse? typed source = some tree) :
    Text.Rewritten (loweringEditsOf options tree) source
      (Text.splice (loweringEditsOf options tree) source) := by
  obtain ⟨ascending, inside⟩ :=
    (finds_outermost ⟨options.factory, options.fragment⟩ tree).ascending (Parser.laid_parse parsed)
  exact Text.rewritten_splice ascending inside

/-- The code that a transpilation gives, if it gives any. -/
theorem Markup.code_transpile
    {options : Options}
    (parsed : parse? (options.typed.getD (isTyped source)) source = some tree) :
    (transpile options source).code =
      if loweringEditsOf options tree = [] then some source
      else if isModule (Text.splice (loweringEditsOf options tree) source) then
        some (bindFactory options (Text.splice (loweringEditsOf options tree) source)).1
      else none := by
  unfold transpile
  rw [parsed]
  unfold loweringEditsOf
  dsimp only
  cases outermost tree with
  | nil => rfl
  | cons node others =>
      rw [List.map_cons, if_neg (List.cons_ne_nil _ _), List.isEmpty_cons, if_neg Bool.false_ne_true]
      split <;> rfl

end

/-- A source that parses is guarded in disjoint places, which are those of the outermost statements that need a
guard, and its markup is lowered in disjoint places, which are those of the outermost markup.  Each result is
the source in which all these places are replaced at once; to lowered code at most the line that imports the
factory is added.  Where there is nothing to edit, the source stays as it is, and the warning of a guarded
source counts its edits. -/
theorem edited_in_place
    (options : Markup.Options)
    (source : Text) :
    (∀ tree, parse? (isTyped source) source = some tree →
      Text.Rewritten (Teardown.edits source tree) source (Teardown.guard source).1 ∧
        (∀ edit, edit ∈ Teardown.edits source tree ↔ ∃ around statement,
          Teardown.Reaches source .top tree around statement ∧
            Teardown.edit? source around statement = some edit) ∧
        (Teardown.edits source tree = [] → (Teardown.guard source).1 = source) ∧
        (Teardown.guard source).2 = Teardown.warningsFor (Teardown.edits source tree).length) ∧
    ∀ tree, parse? (options.typed.getD (isTyped source)) source = some tree →
      ∃ lowered, Text.Rewritten (Markup.loweringEditsOf options tree) source lowered ∧
        (∀ edit, edit ∈ Markup.loweringEditsOf options tree ↔ ∃ node,
          Markup.Exposes tree node ∧ Markup.isMarkup node = true ∧
            edit = Markup.loweringEdit ⟨options.factory, options.fragment⟩ node) ∧
        (Markup.loweringEditsOf options tree = [] → (Markup.transpile options source).code = some source) ∧
        (Markup.loweringEditsOf options tree ≠ [] →
          if isModule lowered then
            ∃ code, (Markup.transpile options source).code = some code ∧
              Markup.MayInsert (Markup.importLine options) lowered code
          else (Markup.transpile options source).code = none) := by
  refine ⟨fun tree parsed => ⟨Teardown.rewritten_guard parsed, fun _ => Teardown.mem_editsWithin_iff, fun none => ?_,
    Teardown.warnings_guard parsed⟩, fun tree parsed => ⟨_, Markup.rewritten_lowered parsed, fun edit => ?_, fun none => ?_,
      fun some => ?_⟩⟩
  · rw [Teardown.guard_eq_splice parsed, none, Text.splice_nil]
  · rw [Markup.loweringEditsOf, List.mem_map]
    constructor
    · rintro ⟨node, among, rfl⟩
      obtain ⟨exposed, isMarkup⟩ := Markup.mem_outermost_iff.mp among
      exact ⟨node, exposed, isMarkup, rfl⟩
    · rintro ⟨node, exposed, isMarkup, rfl⟩
      exact ⟨node, Markup.mem_outermost_iff.mpr ⟨exposed, isMarkup⟩, rfl⟩
  · rw [Markup.code_transpile parsed, if_pos none]
  · rw [Markup.code_transpile parsed, if_neg some]
    split
    · exact ⟨_, rfl, Markup.mayInsert_bindFactory _ _⟩
    · rfl

/-- A module with a call that is guarded and an element that is lowered. -/
theorem edited_in_place_of_module :
    ∃ source tree lowered,
      (Teardown.edits source tree).length = 1 ∧
        Text.Rewritten (Teardown.edits source tree) source (Teardown.guard source).1 ∧
        (Markup.loweringEditsOf (.ofFramework {}) tree).length = 1 ∧
          Text.Rewritten (Markup.loweringEditsOf (.ofFramework {}) tree) source lowered := by
  obtain ⟨source, counted⟩ : ∃ source, (parse? (isTyped source) source).map (fun tree =>
      ((Teardown.edits source tree).length, (Markup.loweringEditsOf (.ofFramework {}) tree).length)) =
        some (1, 1) :=
    ⟨"view.dispose();\nexport default () => <div/>;".toList, by decide +kernel⟩
  obtain ⟨tree, parsed, counts⟩ := Option.map_eq_some_iff.mp counted
  obtain ⟨guards, lowers⟩ := edited_in_place (.ofFramework {}) source
  obtain ⟨guarded, -⟩ := guards tree parsed
  obtain ⟨lowered, replaced, -⟩ := lowers tree parsed
  exact ⟨source, tree, lowered, congrArg Prod.fst counts, guarded, congrArg Prod.snd counts, replaced⟩

end LiveComponent
