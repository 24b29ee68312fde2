import LiveComponent.Script.Parse

namespace LiveComponent

/-!
# The layout of trees

The parts of a tree by which a source is edited are the expression statements and the markup.  A tree is laid
out between two places of the source if its children take up places one after the other, and the span of each
such part lies in the place that the part takes up.  In the same tree markup has the shape of its grammar.
-/

/-- The span is a part of the source between two places. -/
def Span.Within (span : Span) (low high : Nat) : Prop :=
  low ≤ span.start ∧ span.start ≤ span.stop ∧ span.stop ≤ high

namespace Tree

/-! ## Shapes -/

/-- Whether the tree is the name of an element. -/
def isElementName (tree : Tree) : Bool :=
  match tree.kind with
  | .tagName _ | .tagReference _ | .this | .tagMember | .tagNamespace => true
  | _ => false

/-- Whether the tree is a dotted path of names in a tag, or the variable at its start. -/
def isPathName (tree : Tree) : Bool :=
  match tree.kind with
  | .tagReference _ | .this | .tagMember => true
  | _ => false

/-- Whether the tree is a single name in a tag. -/
def isTagName (tree : Tree) : Bool :=
  match tree.kind with
  | .tagName _ => true
  | _ => false

/-- Whether the tree is the name of an attribute. -/
def isAttributeName (tree : Tree) : Bool :=
  match tree.kind with
  | .tagName _ | .tagNamespace => true
  | _ => false

/-- Whether the tree is a name that refers to no variable. -/
def isName (tree : Tree) : Bool :=
  match tree.kind with
  | .name _ => true
  | _ => false

/-- Whether the tree is a string. -/
def isString (tree : Tree) : Bool :=
  match tree.kind with
  | .stringLiteral .. => true
  | _ => false

/-- Whether the tree is an attribute of an element. -/
def isAttribute (tree : Tree) : Bool :=
  match tree.kind with
  | .tagProperty | .attributeSpread => true
  | _ => false

/-- Whether the tree is the value of an attribute. -/
def isAttributeValue (tree : Tree) : Bool :=
  match tree.kind with
  | .absent | .stringLiteral .. | .container | .element _ | .fragment => true
  | _ => false

/-- Whether the tree is a child of an element or fragment. -/
def isMarkupChild (tree : Tree) : Bool :=
  match tree.kind with
  | .markupText _ | .container | .childSpread | .element _ | .fragment => true
  | _ => false

/-- The children of an element: its name, its type arguments, its attributes, the name of its closing tag, and
what stands between the tags. -/
def IsElementParts (count : Nat) (parts : List Tree) : Prop :=
  ∃ name arguments attributes closing inner,
    parts = [name, arguments] ++ attributes ++ [closing] ++ inner ∧ attributes.length = count ∧
      name.isElementName = true ∧ (∀ given ∈ attributes, given.isAttribute = true) ∧
        ∀ child ∈ inner, child.isMarkupChild = true

/-- What is known of a node by its kind, if the node takes up the place from `low` to `high`. -/
def Fits (low high : Nat) (span : Span) (children : List Tree) : Kind → Prop
  | .expressionStatement => span.Within low high
  | .element count => span.Within low high ∧ IsElementParts count children
  | .fragment => span.Within low high ∧ ∀ child ∈ children, child.isMarkupChild = true
  | .tagMember => ∃ object name, children = [object, name] ∧ object.isPathName = true ∧ name.isName = true
  | .tagNamespace =>
    ∃ first second, children = [first, second] ∧ first.isTagName = true ∧ second.isTagName = true
  | .tagProperty =>
    ∃ name value, children = [name, value] ∧ name.isAttributeName = true ∧ value.isAttributeValue = true
  | .attributeSpread | .container | .childSpread => ∃ expression, children = [expression]
  | .property _ _ true _ => ∃ key rest, children = key :: rest ∧ key.isName = true
  | .name _ | .stringLiteral .. | .tagName _ | .tagReference _ | .this | .markupText _ => children = []
  | _ => True

/-- The trees take up places one after the other, from `low` to `high`, and so do the children of each. -/
inductive Laid : Nat → List Tree → Nat → Prop where
  | nil
      {low high : Nat}
      (ordered : low ≤ high) :
      Laid low [] high
  | cons
      {low between high : Nat}
      {kind : Kind}
      {span : Span}
      {children trees : List Tree}
      (fits : Fits low between span children kind)
      (inner : Laid low children between)
      (later : Laid between trees high) :
      Laid low (.node kind span children :: trees) high

/-- The expression as a statement of its own. -/
def asStatement (expression : Tree) : Tree :=
  .node .expressionStatement expression.span [expression]

variable
  {low between high : Nat}
  {kind : Kind}
  {span : Span}
  {tree : Tree}
  {children trees others : List Tree}

theorem isElementName_of_isPathName
    (isPath : tree.isPathName = true) :
    tree.isElementName = true := by
  obtain ⟨kind, span, children⟩ := tree
  cases kind <;> first | rfl | cases isPath

theorem isElementName_of_isTagName
    (isTag : tree.isTagName = true) :
    tree.isElementName = true := by
  obtain ⟨kind, span, children⟩ := tree
  cases kind <;> first | rfl | cases isTag

theorem Fits.mono
    (fits : Fits low high span children kind)
    {below above : Nat}
    (down : below ≤ low)
    (up : high ≤ above) :
    Fits below above span children kind := by
  unfold Fits at fits ⊢
  split at fits
  · exact ⟨Nat.le_trans down fits.1, fits.2.1, Nat.le_trans fits.2.2 up⟩
  · exact ⟨⟨Nat.le_trans down fits.1.1, fits.1.2.1, Nat.le_trans fits.1.2.2 up⟩, fits.2⟩
  · exact ⟨⟨Nat.le_trans down fits.1.1, fits.1.2.1, Nat.le_trans fits.1.2.2 up⟩, fits.2⟩
  all_goals exact fits

namespace Laid

theorem le
    (laid : Laid low trees high) :
    low ≤ high := by
  induction laid with
  | nil ordered => exact ordered
  | cons _ _ _ first rest => exact Nat.le_trans first rest

/-- The first tree may begin earlier. -/
theorem lower
    (laid : Laid low trees high)
    {below : Nat}
    (down : below ≤ low) :
    Laid below trees high := by
  induction laid generalizing below with
  | nil ordered => exact .nil (Nat.le_trans down ordered)
  | cons fits inner later first _ => exact .cons (fits.mono down (Nat.le_refl _)) (first down) later

/-- The last tree may end later. -/
theorem raise
    (laid : Laid low trees high)
    {above : Nat}
    (up : high ≤ above) :
    Laid low trees above := by
  induction laid with
  | nil ordered => exact .nil (Nat.le_trans ordered up)
  | cons fits inner _ _ rest => exact .cons fits inner (rest up)

theorem append
    (first : Laid low trees between)
    (second : Laid between others high) :
    Laid low (trees ++ others) high := by
  induction first with
  | nil ordered => exact second.lower ordered
  | cons fits inner _ _ rest => exact .cons fits inner (rest second)

theorem split
    (laid : Laid low (trees ++ others) high) :
    ∃ between, Laid low trees between ∧ Laid between others high := by
  induction trees generalizing low with
  | nil => exact ⟨low, .nil (Nat.le_refl _), laid⟩
  | cons tree trees inductionHypothesis =>
      cases laid with
      | cons fits inner later =>
          obtain ⟨between, first, second⟩ := inductionHypothesis later
          exact ⟨between, .cons fits inner first, second⟩

/-- The first tree and those after it. -/
theorem uncons
    (laid : Laid low (tree :: trees) high) :
    ∃ between, Laid low [tree] between ∧ Laid between trees high :=
  split (show Laid low ([tree] ++ trees) high from laid)

/-- The trees before others are laid out without them. -/
theorem left
    (laid : Laid low (trees ++ others) high) :
    Laid low trees high := by
  obtain ⟨between, first, second⟩ := laid.split
  exact first.raise second.le

/-- The trees behind others are laid out without them. -/
theorem right
    (trees : List Tree)
    (laid : Laid low (trees ++ others) high) :
    Laid low others high := by
  obtain ⟨between, first, second⟩ := laid.split
  exact second.lower first.le

/-- The last of some trees may lie where others lie. -/
theorem last
    (trees : List Tree)
    (laid : Laid low (trees ++ others) high)
    {changed : List Tree}
    (same : ∀ {low}, Laid low others high → Laid low changed high) :
    Laid low (trees ++ changed) high := by
  obtain ⟨between, first, second⟩ := laid.split
  exact first.append (same second)

/-- A node is laid out if its children are, and what its kind demands holds. -/
theorem node
    (inner : Laid low children high)
    (fits : Fits low high span children kind) :
    Laid low [.node kind span children] high :=
  .cons fits inner (.nil (Nat.le_refl _))

/-- The children of a node take up its place. -/
theorem children_node
    (laid : Laid low [.node kind span children] high) :
    Laid low children high := by
  cases laid with
  | cons fits inner later => exact inner.raise later.le

/-- What the kind of a node demands holds. -/
theorem fits_node
    (laid : Laid low [.node kind span children] high) :
    Fits low high span children kind := by
  cases laid with
  | cons fits inner later => exact fits.mono (Nat.le_refl _) later.le

/-- A missing part takes up no place. -/
theorem absent
    (ordered : low ≤ high) :
    Laid low [.absent] high :=
  node (.nil ordered) trivial

/-- A leaf may be put between trees. -/
theorem insert
    (trees others : List Tree)
    (fits : ∀ {low high}, Fits low high span [] kind)
    (laid : Laid low (trees ++ others) high) :
    Laid low (trees ++ .node kind span [] :: others) high := by
  obtain ⟨between, first, second⟩ := laid.split
  exact first.append (.cons fits (.nil (Nat.le_refl _)) second)

theorem insertAbsent
    (trees others : List Tree)
    (laid : Laid low (trees ++ others) high) :
    Laid low (trees ++ .absent :: others) high :=
  insert trees others trivial laid

/-- The name of a property and a string stand in any place. -/
theorem anywhere
    (laid : Laid low [tree] high)
    (isWord : tree.isName = true ∨ tree.isString = true)
    {below above : Nat}
    (ordered : below ≤ above) :
    Laid below [tree] above := by
  obtain ⟨kind, span, children⟩ := tree
  have fits := laid.fits_node
  rcases isWord with named | quoted
  · unfold Tree.isName at named
    split at named
    next text same =>
      obtain rfl : kind = .name text := same
      obtain rfl : children = [] := fits
      exact node (.nil ordered) rfl
    next => cases named
  · unfold Tree.isString at quoted
    split at quoted
    next text escaped same =>
      obtain rfl : kind = .stringLiteral text escaped := same
      obtain rfl : children = [] := fits
      exact node (.nil ordered) rfl
    next => cases quoted

/-- The name of an element stands in any place. -/
theorem elementName
    (laid : Laid low [tree] high)
    (isElement : tree.isElementName = true)
    {below above : Nat}
    (ordered : below ≤ above) :
    Laid below [tree] above := by
  induction tree generalizing low high below above with
  | node kind span children inductionHypothesis =>
      have fits := laid.fits_node
      have inner := laid.children_node
      unfold Tree.isElementName at isElement
      split at isElement
      next text same =>
        obtain rfl : kind = .tagName text := same
        obtain rfl : children = [] := fits
        exact node (.nil ordered) rfl
      next text same =>
        obtain rfl : kind = .tagReference text := same
        obtain rfl : children = [] := fits
        exact node (.nil ordered) rfl
      next same =>
        obtain rfl : kind = .this := same
        obtain rfl : children = [] := fits
        exact node (.nil ordered) rfl
      next same =>
        obtain rfl : kind = .tagMember := same
        obtain ⟨object, name, rfl, isPath, isName⟩ := fits
        obtain ⟨between, first, second⟩ := inner.uncons
        have front := inductionHypothesis object (by simp) first (isElementName_of_isPathName isPath) ordered
        exact node (front.append (second.anywhere (.inl isName) (Nat.le_refl _))) ⟨_, _, rfl, isPath, isName⟩
      next same =>
        obtain rfl : kind = .tagNamespace := same
        obtain ⟨space, name, rfl, isSpace, isName⟩ := fits
        obtain ⟨between, first, second⟩ := inner.uncons
        have front := inductionHypothesis space (by simp) first (isElementName_of_isTagName isSpace) ordered
        have last := inductionHypothesis name (by simp) second (isElementName_of_isTagName isName) (Nat.le_refl above)
        exact node (front.append last) ⟨_, _, rfl, isSpace, isName⟩
      next => cases isElement

/-- A part of which the span lies in its place is laid out like a statement. -/
theorem statement
    (laid : Laid low [tree] high)
    (within : tree.span.Within low high) :
    Laid low [tree.asStatement] high :=
  node laid within

theorem of_statement
    (laid : Laid low [tree.asStatement] high) :
    Laid low [tree] high :=
  laid.children_node

theorem of_statements
    (laid : Laid low (trees.map asStatement) high) :
    Laid low trees high := by
  induction trees generalizing low with
  | nil => exact laid
  | cons tree trees inductionHypothesis =>
      obtain ⟨between, first, later⟩ := uncons (show Laid low (tree.asStatement :: trees.map asStatement) high from laid)
      exact first.of_statement.append (inductionHypothesis later)

theorem within
    (laid : Laid low [tree.asStatement] high) :
    tree.span.Within low high :=
  laid.fits_node

end Laid

end Tree

end LiveComponent
