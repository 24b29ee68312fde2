import LiveComponent.Script.Parse
import Mathlib.Data.List.Forall2

namespace LiveComponent

/-!
# Trees of sources that are alike from a place on

Two sources that are alike from a place of each on have the same trees there, apart from the places.  All that is
decided by the look of a tree is then decided in the same way.
-/

/-- A place of one source and a place of another one from which both are alike, and the size of what is left at the
first token behind them. -/
structure Shift where
  first : Nat
  second : Nat
  size : Nat

namespace Shift

/-- Two places are equally far behind where the sources become alike. -/
def Places (shift : Shift) (place other : Nat) : Prop :=
  ∃ distance, place = shift.first + distance ∧ other = shift.second + distance

/-- Two ends are equally far behind where the sources become alike, or none of them is behind it. -/
def Ends (shift : Shift) (place other : Nat) : Prop :=
  shift.Places place other ∨ place ≤ shift.first ∧ other ≤ shift.second

/-- The parts of the sources are at the same place. -/
structure Spans (shift : Shift) (span other : Span) : Prop where
  start : shift.Places span.start other.start
  stop : shift.Ends span.stop other.stop

/-- The trees are the same apart from their places. -/
inductive Trees (shift : Shift) : List Tree → List Tree → Prop where
  | nil :
      Trees shift [] []
  | absent
      {trees others : List Tree}
      (later : Trees shift trees others) :
      Trees shift (.absent :: trees) (.absent :: others)
  | node
      {kind : Kind}
      {span other : Span}
      {children parts trees others : List Tree}
      (spans : shift.Spans span other)
      (inner : Trees shift children parts)
      (later : Trees shift trees others) :
      Trees shift (.node kind span children :: trees) (.node kind other parts :: others)

/-- The trees are the same apart from their places, or both are missing. -/
abbrev Parts (shift : Shift) (tree other : Tree) : Prop :=
  Trees shift [tree] [other]

/-- The trees are the same apart from their places, and cover parts of the sources. -/
structure Wholes (shift : Shift) (tree other : Tree) : Prop where
  parts : shift.Parts tree other
  spans : shift.Spans tree.span other.span

variable
  {shift : Shift}
  {place place' other other' : Nat}
  {tree tree' : Tree}
  {trees trees' more more' : List Tree}

/-! ## Places -/

theorem Places.ends
    (places : shift.Places place other) :
    shift.Ends place other :=
  .inl places

theorem Places.eq_iff
    (places : shift.Places place other)
    (places' : shift.Places place' other') :
    place = place' ↔ other = other' := by
  obtain ⟨distance, rfl, rfl⟩ := places
  obtain ⟨distance', rfl, rfl⟩ := places'
  omega

theorem Places.add
    (places : shift.Places place other)
    (size : Nat) :
    shift.Places (place + size) (other + size) := by
  obtain ⟨distance, rfl, rfl⟩ := places
  exact ⟨distance + size, Nat.add_assoc .., Nat.add_assoc ..⟩

/-- The parts of the sources are of the same length. -/
theorem Ends.sub_eq
    (ends : shift.Ends place other)
    (places : shift.Places place' other') :
    place - place' = other - other' := by
  obtain ⟨distance, rfl, rfl⟩ := places
  rcases ends with ⟨distance', rfl, rfl⟩ | ⟨first, second⟩ <;> omega

theorem contains_eq
    {places others : List Nat}
    (same : List.Forall₂ shift.Places places others)
    (at_place : shift.Places place other) :
    places.contains place = others.contains other := by
  induction same with
  | nil => rfl
  | cons first _ rest =>
      rw [List.contains_cons, List.contains_cons, rest]
      congr 1
      exact Bool.eq_iff_iff.mpr (by simpa only [beq_iff_eq] using at_place.eq_iff first)

/-! ## Lists of trees -/

namespace Trees

theorem append
    (first : Trees shift trees trees')
    (second : Trees shift more more') :
    Trees shift (trees ++ more) (trees' ++ more') := by
  induction first with
  | nil => exact second
  | absent _ rest => exact .absent rest
  | node spans inner _ _ rest => exact .node spans inner rest

theorem cons
    (first : shift.Parts tree tree')
    (later : Trees shift trees trees') :
    Trees shift (tree :: trees) (tree' :: trees') :=
  first.append later

theorem of_nil_left
    (same : Trees shift [] trees) :
    trees = [] := by
  cases same
  rfl

theorem of_nil_right
    (same : Trees shift trees []) :
    trees = [] := by
  cases same
  rfl

/-- Where a list has a first tree, the other one has the same first tree. -/
theorem of_cons_left
    (same : Trees shift (tree :: trees) more) :
    ∃ other others, more = other :: others ∧ shift.Parts tree other ∧ Trees shift trees others := by
  cases same with
  | absent later => exact ⟨_, _, rfl, .absent .nil, later⟩
  | node spans inner later => exact ⟨_, _, rfl, .node spans inner .nil, later⟩

theorem of_cons_right
    (same : Trees shift more (tree :: trees)) :
    ∃ other others, more = other :: others ∧ shift.Parts other tree ∧ Trees shift others trees := by
  cases same with
  | absent later => exact ⟨_, _, rfl, .absent .nil, later⟩
  | node spans inner later => exact ⟨_, _, rfl, .node spans inner .nil, later⟩

theorem of_one_left
    (same : Trees shift [tree] more) :
    ∃ other, more = [other] ∧ shift.Parts tree other := by
  obtain ⟨other, _, rfl, first, last⟩ := same.of_cons_left
  obtain rfl := last.of_nil_left
  exact ⟨other, rfl, first⟩

theorem of_one_right
    (same : Trees shift more [tree]) :
    ∃ other, more = [other] ∧ shift.Parts other tree := by
  obtain ⟨other, _, rfl, first, last⟩ := same.of_cons_right
  obtain rfl := last.of_nil_right
  exact ⟨other, rfl, first⟩

theorem of_two_left
    {second : Tree}
    (same : Trees shift [tree, second] more) :
    ∃ other other', more = [other, other'] ∧ shift.Parts tree other ∧ shift.Parts second other' := by
  obtain ⟨other, _, rfl, first, later⟩ := same.of_cons_left
  obtain ⟨other', rfl, last⟩ := later.of_one_left
  exact ⟨other, other', rfl, first, last⟩

theorem of_two_right
    {second : Tree}
    (same : Trees shift more [tree, second]) :
    ∃ other other', more = [other, other'] ∧ shift.Parts other tree ∧ shift.Parts other' second := by
  obtain ⟨other, _, rfl, first, later⟩ := same.of_cons_right
  obtain ⟨other', rfl, last⟩ := later.of_one_right
  exact ⟨other, other', rfl, first, last⟩

theorem of_three_left
    {second third : Tree}
    (same : Trees shift [tree, second, third] more) :
    ∃ other other' other'', more = [other, other', other''] ∧ shift.Parts tree other ∧ shift.Parts second other' ∧
      shift.Parts third other'' := by
  obtain ⟨other, _, rfl, first, later⟩ := same.of_cons_left
  obtain ⟨other', other'', rfl, middle, last⟩ := later.of_two_left
  exact ⟨other, other', other'', rfl, first, middle, last⟩

theorem of_three_right
    {second third : Tree}
    (same : Trees shift more [tree, second, third]) :
    ∃ other other' other'', more = [other, other', other''] ∧ shift.Parts other tree ∧ shift.Parts other' second ∧
      shift.Parts other'' third := by
  obtain ⟨other, _, rfl, first, later⟩ := same.of_cons_right
  obtain ⟨other', other'', rfl, middle, last⟩ := later.of_two_right
  exact ⟨other, other', other'', rfl, first, middle, last⟩

theorem length_eq
    (same : Trees shift trees trees') :
    trees.length = trees'.length := by
  induction same with
  | nil => rfl
  | absent _ rest => exact congrArg (· + 1) rest
  | node _ _ _ _ rest => exact congrArg (· + 1) rest

theorem reverse
    (same : Trees shift trees trees') :
    Trees shift trees.reverse trees'.reverse := by
  induction same with
  | nil => exact .nil
  | absent _ rest =>
      rw [List.reverse_cons, List.reverse_cons]
      exact rest.append (.absent .nil)
  | node spans inner _ _ rest =>
      rw [List.reverse_cons, List.reverse_cons]
      exact rest.append (.node spans inner .nil)

theorem isEmpty_eq
    (same : Trees shift trees trees') :
    trees.isEmpty = trees'.isEmpty := by
  cases same <;> rfl

/-- What is decided in the same way of each tree alone is decided in the same way of all. -/
theorem any_eq
    {test : Tree → Bool}
    (each : ∀ {tree tree'}, shift.Parts tree tree' → test tree = test tree')
    (same : Trees shift trees trees') :
    trees.any test = trees'.any test := by
  induction same with
  | nil => rfl
  | absent _ rest => rw [List.any_cons, List.any_cons, rest]
  | node spans inner _ _ rest =>
      rw [List.any_cons, List.any_cons, rest, each (.node spans inner .nil)]

/-- The same trees pass a test that is decided in the same way of each. -/
theorem filter
    (test : Tree → Bool)
    (each : ∀ {tree tree'}, shift.Parts tree tree' → test tree = test tree')
    (same : Trees shift trees trees') :
    Trees shift (trees.filter test) (trees'.filter test) := by
  induction same with
  | nil => exact .nil
  | absent _ rest =>
      rw [List.filter_cons, List.filter_cons]
      split
      · exact .absent rest
      · exact rest
  | node spans inner _ _ rest =>
      rw [List.filter_cons, List.filter_cons, each (.node spans inner .nil)]
      split
      · exact .node spans inner rest
      · exact rest

theorem all_eq
    {test : Tree → Bool}
    (each : ∀ {tree tree'}, shift.Parts tree tree' → test tree = test tree')
    (same : Trees shift trees trees') :
    trees.all test = trees'.all test := by
  induction same with
  | nil => rfl
  | absent _ rest => rw [List.all_cons, List.all_cons, rest]
  | node spans inner _ _ rest =>
      rw [List.all_cons, List.all_cons, rest, each (.node spans inner .nil)]

theorem filterMap_eq
    {α : Type}
    {find : Tree → Option α}
    (each : ∀ {tree tree'}, shift.Parts tree tree' → find tree = find tree')
    (same : Trees shift trees trees') :
    trees.filterMap find = trees'.filterMap find := by
  induction same with
  | nil => rfl
  | absent _ rest => rw [List.filterMap_cons, List.filterMap_cons, rest]
  | node spans inner _ _ rest =>
      rw [List.filterMap_cons, List.filterMap_cons, rest, each (.node spans inner .nil)]

theorem flatMap_eq
    {α : Type}
    {find : Tree → List α}
    (each : ∀ {tree tree'}, shift.Parts tree tree' → find tree = find tree')
    (same : Trees shift trees trees') :
    trees.flatMap find = trees'.flatMap find := by
  induction same with
  | nil => rfl
  | absent _ rest => rw [List.flatMap_cons, List.flatMap_cons, rest]
  | node spans inner _ _ rest =>
      rw [List.flatMap_cons, List.flatMap_cons, rest, each (.node spans inner .nil)]

end Trees

/-! ## Single trees -/

namespace Parts

theorem kind_eq
    (same : shift.Parts tree tree') :
    tree.kind = tree'.kind := by
  cases same <;> rfl

/-- Where a tree has a kind, the other one has it too. -/
theorem of_node_left
    {kind : Kind}
    {span : Span}
    {children : List Tree}
    (same : shift.Parts (.node kind span children) tree) :
    ∃ span' children', tree = .node kind span' children' ∧ Trees shift children children' := by
  cases same with
  | absent => exact ⟨_, _, rfl, .nil⟩
  | node _ inner => exact ⟨_, _, rfl, inner⟩

theorem of_node_right
    {kind : Kind}
    {span : Span}
    {children : List Tree}
    (same : shift.Parts tree (.node kind span children)) :
    ∃ span' children', tree = .node kind span' children' ∧ Trees shift children' children := by
  cases same with
  | absent => exact ⟨_, _, rfl, .nil⟩
  | node _ inner => exact ⟨_, _, rfl, inner⟩

theorem isAbsent_eq
    (same : shift.Parts tree tree') :
    tree.isAbsent = tree'.isAbsent := by
  obtain ⟨kind, span, children⟩ := tree
  cases same with
  | absent => rfl
  | node => cases kind <;> rfl

theorem children
    (same : shift.Parts tree tree') :
    Trees shift tree.children tree'.children := by
  cases same with
  | absent => exact .nil
  | node _ inner => exact inner

/-- A tree that is there covers a part of its source. -/
theorem wholes
    (same : shift.Parts tree tree')
    (present : tree.isAbsent = false) :
    shift.Wholes tree tree' := by
  cases same with
  | absent => cases present
  | node spans inner later => exact ⟨.node spans inner later, spans⟩

end Parts

/-- Trees are combined from their leaves up in the same way, if nothing but the kind of a node counts. -/
theorem Trees.fold_eq
    {α : Type}
    {combine : Tree → List α → α}
    (blind : ∀ {kind span span' children children'} (parts : List α),
      combine (.node kind span children) parts = combine (.node kind span' children') parts)
    (same : Trees shift trees trees') :
    trees.map (Tree.fold combine) = trees'.map (Tree.fold combine) := by
  induction same with
  | nil => rfl
  | absent _ rest => rw [List.map_cons, List.map_cons, rest]
  | node _ _ _ inner rest =>
      rw [List.map_cons, List.map_cons, rest, Tree.fold_node, Tree.fold_node, inner, blind]

/-- Trees that cover parts of the sources are the same apart from their places. -/
theorem Trees.of_wholes
    (same : List.Forall₂ shift.Wholes trees trees') :
    Trees shift trees trees' := by
  induction same with
  | nil => exact .nil
  | cons first _ rest => exact first.parts.cons rest

namespace Wholes

theorem node
    {kind : Kind}
    {span other : Span}
    {children parts : List Tree}
    (spans : shift.Spans span other)
    (inner : Trees shift children parts) :
    shift.Wholes (.node kind span children) (.node kind other parts) :=
  ⟨.node spans inner .nil, spans⟩

end Wholes

end Shift

end LiveComponent
