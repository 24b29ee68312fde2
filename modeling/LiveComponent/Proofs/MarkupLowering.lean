import LiveComponent.Pipeline

namespace LiveComponent

/-!
# Lowering leaves no markup

In a lowered tree there is no element and no fragment at any depth.  So whatever is put in the place of
the markup of a source is free of it.  The pipeline lowers all markup that its detection lets through to
the parser, and none that it does not.
-/

namespace Markup

/-- No element and no fragment occurs in the tree. -/
def IsPlain (tree : Tree) : Prop :=
  outermost tree = []

/-- An element or a fragment is its own outermost markup; that of another node lies in its children. -/
theorem outermost_node
    (kind : Kind)
    (span : Span)
    (children : List Tree) :
    outermost (.node kind span children) =
      if isMarkup (.node kind span children) then [.node kind span children]
      else children.flatMap outermost := by
  rw [outermost, Tree.fold_node]
  rfl

/-- A plain node is no markup and has plain children only. -/
theorem isPlain_node
    {kind : Kind}
    {span : Span}
    {children : List Tree} :
    IsPlain (.node kind span children) ↔
      isMarkup (.node kind span children) = false ∧ ∀ child ∈ children, IsPlain child := by
  rw [IsPlain, outermost_node]
  cases isMarkup (.node kind span children) with
  | true =>
      simp
  | false =>
      simp [List.flatMap_eq_nil_iff, IsPlain]

/-- A made node is plain if it is no markup and its children are plain. -/
theorem isPlain_made
    {kind : Kind}
    {children : List Tree}
    (other : isMarkup (.made kind children) = false)
    (plain : ∀ child ∈ children, IsPlain child) :
    IsPlain (.made kind children) :=
  isPlain_node.mpr ⟨other, plain⟩

/-! ## The parts of a factory call -/

@[simp]
theorem isPlain_absent :
    IsPlain .absent := rfl

@[simp]
theorem isPlain_reference (name : Text) :
    IsPlain (reference name) := rfl

@[simp]
theorem isPlain_string (value : Text) :
    IsPlain (string value) := rfl

/-- A path is plain: each of its members is one of a plain object. -/
@[simp]
theorem isPlain_path (text : Text) :
    IsPlain (path text) := by
  have members (names : List Text) (object : Tree) (plain : IsPlain object) :
      IsPlain (names.foldl
        (fun object name => .made (.member false) [object, .made (.name name) []]) object) := by
    induction names generalizing object with
    | nil =>
        exact plain
    | cons name names inductionHypothesis =>
        refine inductionHypothesis _ (isPlain_made rfl fun child member => ?_)
        simp only [List.mem_cons, List.not_mem_nil, or_false] at member
        rcases member with rfl | rfl
        · exact plain
        · rfl
  unfold path
  split
  · rfl
  · exact members _ _ rfl

/-- Whatever the name of an element is, its type is plain. -/
@[simp]
theorem isPlain_elementType (name : Tree) :
    IsPlain (elementType name) := by
  unfold elementType
  split
  · rfl
  · rfl
  · exact isPlain_path _
  · rfl

/-- The value of a plain attribute is plain. -/
theorem isPlain_attributeValue
    {value : Tree}
    (plain : IsPlain value) :
    IsPlain (attributeValue value) := by
  unfold attributeValue
  split
  · rfl
  · split
    · rfl
    · exact (isPlain_node.mp plain).2 _ (List.mem_singleton_self _)
  · exact plain

/-- The property of a plain attribute is plain. -/
theorem isPlain_property
    {given : Tree}
    (plain : IsPlain given) :
    IsPlain (property given) := by
  unfold property
  split
  next name value =>
    have plainValue : IsPlain value := (isPlain_node.mp plain).2 value (by simp)
    refine isPlain_made rfl fun child member => ?_
    simp only [List.mem_cons, List.not_mem_nil, or_false] at member
    rcases member with rfl | rfl
    · unfold propertyKey
      split <;> rfl
    · exact isPlain_attributeValue plainValue
  next expression =>
    refine isPlain_made rfl fun child member => ?_
    obtain rfl := List.mem_singleton.mp member
    exact (isPlain_node.mp plain).2 child (List.mem_singleton_self child)
  · exact plain

/-- The properties of plain attributes are plain. -/
theorem isPlain_properties
    {attributes : List Tree}
    (plain : ∀ given ∈ attributes, IsPlain given) :
    IsPlain (properties attributes) := by
  unfold properties
  split
  · rfl
  · refine isPlain_made rfl fun child member => ?_
    obtain ⟨given, found, rfl⟩ := List.mem_map.mp member
    exact isPlain_property (plain given found)

/-- The arguments that a plain child stands for are plain. -/
theorem isPlain_childArguments
    {child : Tree}
    (plain : IsPlain child) :
    ∀ argument ∈ childArguments child, IsPlain argument := by
  intro argument member
  unfold childArguments at member
  split at member
  next raw =>
    obtain ⟨value, -, rfl⟩ := List.mem_map.mp member
    exact isPlain_string value
  next expression =>
    split at member
    · cases member
    · obtain rfl := List.mem_singleton.mp member
      exact (isPlain_node.mp plain).2 argument (List.mem_singleton_self argument)
  next expression =>
    obtain rfl := List.mem_singleton.mp member
    exact isPlain_made rfl (isPlain_node.mp plain).2
  · obtain rfl := List.mem_singleton.mp member
    exact plain

/-- A call of the factory with plain arguments is plain. -/
theorem isPlain_factoryCall
    {paths : Paths}
    {arguments : List Tree}
    (plain : ∀ argument ∈ arguments, IsPlain argument) :
    IsPlain (factoryCall paths arguments) := by
  refine isPlain_made rfl fun child member => ?_
  rcases List.mem_cons.mp member with rfl | member
  · exact isPlain_path _
  · rcases List.mem_cons.mp member with rfl | member
    · exact isPlain_absent
    · exact plain child member

/-! ## Lowered trees -/

/-- A node is plain when it is lowered after its children. -/
theorem isPlain_lowerNode
    (paths : Paths)
    (tree : Tree)
    {children : List Tree}
    (plain : ∀ child ∈ children, IsPlain child) :
    IsPlain (lowerNode paths tree children) := by
  have inner (parts : List Tree) (some : parts ⊆ children) :
      ∀ argument ∈ parts.flatMap childArguments, IsPlain argument := by
    intro argument member
    obtain ⟨child, found, stands⟩ := List.mem_flatMap.mp member
    exact isPlain_childArguments (plain child (some found)) argument stands
  unfold lowerNode
  split
  next count _ =>
    let parts := children.drop 2
    have someParts : parts ⊆ children := List.drop_subset 2 children
    have attributes : ∀ given ∈ parts.take count, IsPlain given := fun given member =>
      plain given (someParts (List.mem_of_mem_take member))
    refine isPlain_factoryCall fun argument member => ?_
    rcases List.mem_cons.mp member with rfl | member
    · exact isPlain_elementType _
    · rcases List.mem_cons.mp member with rfl | member
      · exact isPlain_properties attributes
      · exact inner _ (fun _ dropped => someParts (List.drop_subset _ _ dropped)) argument member
  · refine isPlain_factoryCall fun argument member => ?_
    rcases List.mem_cons.mp member with rfl | member
    · exact isPlain_path _
    · rcases List.mem_cons.mp member with rfl | member
      · rfl
      · exact inner children (List.Subset.refl children) argument member
  next kind notElement notFragment =>
    refine isPlain_node.mpr ⟨?_, plain⟩
    unfold isMarkup
    split
    next count same =>
      exact absurd same (notElement count)
    next same =>
      exact absurd same notFragment
    · rfl

/-- A lowered tree is plain. -/
theorem isPlain_lower
    (paths : Paths)
    (tree : Tree) :
    IsPlain (lower paths tree) := by
  induction tree with
  | node kind span children inductionHypothesis =>
      rw [lower, Tree.fold_node]
      refine isPlain_lowerNode paths _ fun child member => ?_
      obtain ⟨original, found, rfl⟩ := List.mem_map.mp member
      exact inductionHypothesis original found

/-! ## Transpiled code -/

/-- The elements and fragments of a source that lie in no other one; none if it is no module. -/
def outermostOf (code : Text) : List Tree :=
  ((parse? (isTyped code) code).map outermost).getD []

/-- The edit puts the text of a plain expression in the place of a node. -/
def Replaces (edit : Edit) (node : Tree) : Prop :=
  edit.start = node.span.start ∧ edit.stop = node.span.stop ∧
    ∃ plain, IsPlain plain ∧ edit.text = plain.expressionText

/-- The source after some edits; if there are any, the factory is bound. -/
def edited (options : Options) (edits : List Edit) (code : Text) : Text :=
  if edits.isEmpty then code else (bindFactory options (Text.splice edits code)).1

/-- A node is replaced by the text of its lowered form. -/
theorem replaces_loweringEdit
    (paths : Paths)
    (node : Tree) :
    Replaces (loweringEdit paths node) node :=
  ⟨rfl, rfl, lower paths node, isPlain_lower paths node, rfl⟩

/-- A transpilation that succeeds replaces all markup of the source. -/
theorem transpile_eq_ok
    {options : Options}
    {code compiledCode : Text}
    {warnings : List Text}
    (sniffs : options.typed = none)
    (transpiled : (transpile options code).result = .ok (compiledCode, warnings)) :
    compiledCode =
      edited options ((outermostOf code).map (loweringEdit ⟨options.factory, options.fragment⟩))
        code := by
  unfold transpile at transpiled
  rw [sniffs, Option.getD_none] at transpiled
  split at transpiled
  next =>
    cases transpiled
  next tree parsed =>
    have found : outermostOf code = outermost tree := by
      simp [outermostOf, parsed]
    unfold edited
    rw [found, List.isEmpty_map]
    dsimp only at transpiled
    split at transpiled
    next none =>
      cases transpiled
      rw [if_pos none]
    next some =>
      split at transpiled
      · cases transpiled
        rw [if_neg some]
      · cases transpiled

end Markup

namespace Pipeline

/-- The text of a source as a module with normalized imports. -/
def Normalizes
    (config : Config)
    (request : SourceModule)
    (source normalized : Text) :
    Prop :=
  ∃ module warnings,
    moduleText request source = .ok module ∧
      (Normalization.ofText config.framework module).result = .ok (normalized, warnings)

/-- The edits that the pipeline makes to a module: one for each outermost element or fragment, if markup
is detected. -/
def loweringEdits (config : Config) (code : Text) : List Edit :=
  if containsMarkup code then
    (Markup.outermostOf code).map
      (Markup.loweringEdit ⟨config.framework.factory, config.framework.fragment⟩)
  else
    []

/-- Each edit replaces an outermost element or fragment. -/
theorem replaces_of_mem_loweringEdits
    {config : Config}
    {code : Text}
    {edit : Edit}
    (member : edit ∈ loweringEdits config code) :
    ∃ node ∈ Markup.outermostOf code, Markup.Replaces edit node := by
  unfold loweringEdits at member
  split at member
  · obtain ⟨node, found, rfl⟩ := List.mem_map.mp member
    exact ⟨node, found, Markup.replaces_loweringEdit _ node⟩
  · cases member

/-- All markup is replaced exactly if it is detected or there is none. -/
theorem all_replaced_iff
    (config : Config)
    (code : Text) :
    (∀ node ∈ Markup.outermostOf code, ∃ edit ∈ loweringEdits config code,
        Markup.Replaces edit node) ↔
      (Markup.outermostOf code ≠ [] → containsMarkup code = true) := by
  unfold loweringEdits
  cases containsMarkup code with
  | false =>
      simp [List.eq_nil_iff_forall_not_mem]
  | true =>
      refine ⟨fun _ _ => rfl, fun _ node member => ?_⟩
      exact ⟨_, List.mem_map_of_mem member, Markup.replaces_loweringEdit _ node⟩

/-- A module is lowered by its edits. -/
theorem lowered_eq_ok
    {config : Config}
    {code compiledCode : Text}
    (succeeded : (lowered config code).2 = .ok compiledCode) :
    compiledCode =
      Markup.edited (.ofFramework config.framework) (loweringEdits config code) code := by
  unfold lowered at succeeded
  unfold loweringEdits
  cases detected : containsMarkup code with
  | false =>
      rw [if_neg (by simp [detected])] at succeeded
      cases succeeded
      rfl
  | true =>
      rw [if_pos detected] at succeeded
      cases transpiled : (Markup.transpile (.ofFramework config.framework) code).result with
      | error failure =>
          rw [transpiled] at succeeded
          cases succeeded
      | ok result =>
          rw [transpiled] at succeeded
          cases succeeded
          exact Markup.transpile_eq_ok rfl transpiled

/-- Compiled code is a normalized module that was lowered. -/
theorem compile_eq_ok
    {config : Config}
    {request : SourceModule}
    {source compiledCode : Text}
    (compiled : (compile config request source).2 = .ok compiledCode) :
    ∃ normalized, Normalizes config request source normalized ∧
      compiledCode =
        Markup.edited (.ofFramework config.framework) (loweringEdits config normalized)
          normalized := by
  unfold compile at compiled
  split at compiled
  · cases compiled
  next module made =>
    split at compiled
    · cases compiled
    next normalized warnings result =>
      exact ⟨normalized, ⟨module, warnings, made, result⟩, lowered_eq_ok compiled⟩

end Pipeline

end LiveComponent
