import LiveComponent.Proofs.DisjointEdits

namespace LiveComponent

/-!
# What markup means

The calls that markup stands for are given by a table that follows the grammar of markup, without regard to how
they are made.  Markup of a source that parses has the shape of the grammar, at any depth, and lowering it gives
what the table says and nothing else.
-/

/-- The node is the tree or lies in it. -/
inductive Tree.Contains : Tree → Tree → Prop where
  | here (tree : Tree) :
      Contains tree tree
  | child
      {tree child node : Tree}
      (among : child ∈ tree.children)
      (further : Contains child node) :
      Contains tree node

/-- The tree is laid out somewhere. -/
def Tree.IsLaid (tree : Tree) : Prop :=
  ∃ low high, Laid low [tree] high

theorem Tree.Laid.isLaid
    {low high : Nat}
    {trees : List Tree}
    (laid : Laid low trees high) :
    ∀ tree ∈ trees, tree.IsLaid := by
  induction trees generalizing low with
  | nil => simp
  | cons tree trees inductionHypothesis =>
      obtain ⟨between, first, later⟩ := laid.uncons
      intro other among
      rcases List.mem_cons.mp among with rfl | among
      · exact ⟨low, between, first⟩
      · exact inductionHypothesis later other among

/-- What lies in a tree that is laid out is laid out. -/
theorem Tree.Contains.isLaid
    {tree node : Tree}
    (contains : Contains tree node)
    (laid : tree.IsLaid) :
    node.IsLaid := by
  induction contains with
  | here tree => exact laid
  | @child tree child node among further inductionHypothesis =>
      obtain ⟨low, high, placed⟩ := laid
      obtain ⟨kind, span, children⟩ := tree
      exact inductionHypothesis (placed.children_node.isLaid child among)

namespace Markup

open Tree (Contains Laid)

theorem Exposes.contains
    {tree node : Tree}
    (exposed : Exposes tree node) :
    Contains tree node := by
  induction exposed with
  | here tree => exact .here tree
  | child _ among _ inner => exact .child among inner

/-! ## The table -/

/-- The name of a plain tag or of an attribute, which may stand in a namespace. -/
inductive Named : Tree → Text → Prop where
  | plain
      (text : Text)
      (span : Span) :
      Named (.node (.tagName text) span []) text
  | spaced
      (space text : Text)
      (span first second : Span) :
      Named (.node .tagNamespace span [.node (.tagName space) first [], .node (.tagName text) second []])
        (space ++ [':'] ++ text)

/-- The names of a dotted path in a tag, with points between. -/
inductive Dotted : Tree → Text → Prop where
  | root
      (text : Text)
      (span : Span) :
      Dotted (.node (.tagReference text) span []) text
  | this (span : Span) :
      Dotted (.node .this span []) "this".toList
  | member
      {object : Tree}
      {path : Text}
      (name : Text)
      (span place : Span)
      (front : Dotted object path) :
      Dotted (.node .tagMember span [object, .node (.name name) place []]) (path ++ ['.'] ++ name)

/-- The type of an element: a string for a plain tag, and a reference for a component or a path. -/
inductive TypeOf : Tree → Tree → Prop where
  | plain
      {name : Tree}
      {text : Text}
      (named : Named name text) :
      TypeOf name (string text)
  | component
      (text : Text)
      (span : Span) :
      TypeOf (.node (.tagReference text) span []) (reference text)
  | this (span : Span) :
      TypeOf (.node .this span []) (.made .this [])
  | path
      {span : Span}
      {parts : List Tree}
      {text : Text}
      (dotted : Dotted (.node .tagMember span parts) text) :
      TypeOf (.node .tagMember span parts) (path text)

/-- The properties of an element: an object of what its attributes stand for, or null without attributes. -/
def objectOf (given : List Tree) : Tree :=
  if given.isEmpty then .made .nullLiteral [] else .made .object given

/-- What a tree is to what is around it. -/
inductive Role where
  /-- Code, in which there may be markup at any depth. -/
  | code
  /-- An attribute of an element. -/
  | attr
  /-- The value of an attribute. -/
  | value
  /-- A child of an element or fragment. -/
  | child
deriving DecidableEq

/-- What trees stand for, one after the other, in their role.  All that is no markup stays as it is, with the
markup in it lowered. -/
inductive Lowers (paths : Paths) : Role → List Tree → List Tree → Prop where
  | nil (role : Role) :
      Lowers paths role [] []
  | cons
      {role : Role}
      {tree : Tree}
      {trees first later : List Tree}
      (one : Lowers paths role [tree] first)
      (others : Lowers paths role trees later) :
      Lowers paths role (tree :: trees) (first ++ later)
  | other
      {kind : Kind}
      {span : Span}
      {children parts : List Tree}
      (noMarkup : isMarkup (.node kind span children) = false)
      (inner : Lowers paths .code children parts) :
      Lowers paths .code [.node kind span children] [.node kind span parts]
  | element
      {span : Span}
      {name arguments closing type : Tree}
      {attributes children given inner : List Tree}
      (typed : TypeOf name type)
      (props : Lowers paths .attr attributes given)
      (between : Lowers paths .child children inner) :
      Lowers paths .code
        [.node (.element attributes.length) span ([name, arguments] ++ attributes ++ [closing] ++ children)]
        [factoryCall paths (type :: objectOf given :: inner)]
  | fragment
      {span : Span}
      {children inner : List Tree}
      (between : Lowers paths .child children inner) :
      Lowers paths .code [.node .fragment span children]
        [factoryCall paths (path paths.fragment :: .made .nullLiteral [] :: inner)]
  | property
      {span : Span}
      {name value result : Tree}
      {text : Text}
      (named : Named name text)
      (given : Lowers paths .value [value] [result]) :
      Lowers paths .attr [.node .tagProperty span [name, value]]
        [.made (.property .plain false false false) [propertyKey text, result]]
  | spreadProperties
      {span : Span}
      {expression result : Tree}
      (inner : Lowers paths .code [expression] [result]) :
      Lowers paths .attr [.node .attributeSpread span [expression]] [.made .spread [result]]
  | missing
      (span : Span)
      (parts : List Tree) :
      Lowers paths .value [.node .absent span parts] [.made (.boolLiteral true) []]
  | text
      (text : Text)
      (escaped : Bool)
      (span : Span) :
      Lowers paths .value [.node (.stringLiteral text escaped) span []] [.node (.stringLiteral text escaped) span []]
  | emptyValue
      {span : Span}
      {expression : Tree}
      (empty : expression.isAbsent = true) :
      Lowers paths .value [.node .container span [expression]] [reference "undefined".toList]
  | givenValue
      {span : Span}
      {expression result : Tree}
      (filled : expression.isAbsent = false)
      (inner : Lowers paths .code [expression] [result]) :
      Lowers paths .value [.node .container span [expression]] [result]
  | markupValue
      {tree result : Tree}
      (nested : isMarkup tree = true)
      (inner : Lowers paths .code [tree] [result]) :
      Lowers paths .value [tree] [result]
  | blank
      {raw : Text}
      {span : Span}
      (blank : childText? raw = none) :
      Lowers paths .child [.node (.markupText raw) span []] []
  | words
      {raw words : Text}
      {span : Span}
      (cleaned : childText? raw = some words) :
      Lowers paths .child [.node (.markupText raw) span []] [string words]
  | emptyChild
      {span : Span}
      {expression : Tree}
      (empty : expression.isAbsent = true) :
      Lowers paths .child [.node .container span [expression]] []
  | givenChild
      {span : Span}
      {expression result : Tree}
      (filled : expression.isAbsent = false)
      (inner : Lowers paths .code [expression] [result]) :
      Lowers paths .child [.node .container span [expression]] [result]
  | spreadChildren
      {span : Span}
      {expression result : Tree}
      (inner : Lowers paths .code [expression] [result]) :
      Lowers paths .child [.node .childSpread span [expression]] [.made .spread [result]]
  | markupChild
      {tree result : Tree}
      (nested : isMarkup tree = true)
      (inner : Lowers paths .code [tree] [result]) :
      Lowers paths .child [tree] [result]

variable
  {paths : Paths}
  {tree : Tree}
  {trees : List Tree}

/-! ## Lowered nodes -/

theorem lower_node
    (paths : Paths)
    (kind : Kind)
    (span : Span)
    (children : List Tree) :
    lower paths (.node kind span children) =
      lowerNode paths (.node kind span children) (children.map (lower paths)) :=
  Tree.fold_node ..

/-- A node that is no markup stays as it is, with its children lowered. -/
theorem lower_of_isMarkup_eq_false
    {kind : Kind}
    {span : Span}
    {children : List Tree}
    (other : isMarkup (.node kind span children) = false) :
    lower paths (.node kind span children) = .node kind span (children.map (lower paths)) := by
  rw [lower_node]
  unfold lowerNode
  split
  next count isElement =>
    rw [isMarkup, isElement] at other
    cases other
  next isFragment =>
    rw [isMarkup, isFragment] at other
    cases other
  next => rfl

/-- Without markup there is nothing to lower. -/
theorem lower_of_isPlain
    (plain : IsPlain tree) :
    lower paths tree = tree := by
  induction tree with
  | node kind span children inductionHypothesis =>
      obtain ⟨other, plainChildren⟩ := isPlain_node.mp plain
      have same : children.map (lower paths) = children.map id :=
        List.map_congr_left fun child member => inductionHypothesis child member (plainChildren child member)
      rw [lower_of_isMarkup_eq_false other, same, List.map_id]

/-- Markup becomes a call of the factory. -/
theorem lower_eq_factoryCall
    (markup : isMarkup tree = true) :
    ∃ arguments, lower paths tree = factoryCall paths arguments := by
  obtain ⟨kind, span, children⟩ := tree
  unfold isMarkup at markup
  split at markup
  next count isElement =>
    obtain rfl : kind = .element count := isElement
    exact ⟨_, lower_node ..⟩
  next isFragment =>
    obtain rfl : kind = .fragment := isFragment
    exact ⟨_, lower_node ..⟩
  next => cases markup

theorem isAbsent_lower
    (tree : Tree) :
    (lower paths tree).isAbsent = tree.isAbsent := by
  cases tree with
  | node kind span children =>
      cases markup : isMarkup (.node kind span children) with
      | true =>
          obtain ⟨arguments, call⟩ := lower_eq_factoryCall markup
          rw [call]
          cases kind <;> first | rfl | cases markup
      | false =>
          rw [lower_of_isMarkup_eq_false markup]
          cases kind <;> rfl

/-- The call of an element is made of its type, its attributes and its children. -/
theorem lower_element
    {span : Span}
    {name arguments closing : Tree}
    {attributes children : List Tree} :
    lower paths
        (.node (.element attributes.length) span ([name, arguments] ++ attributes ++ [closing] ++ children)) =
      factoryCall paths
        (elementType (lower paths name) :: properties (attributes.map (lower paths)) ::
          (children.map (lower paths)).flatMap childArguments) := by
  have front : ((attributes ++ [closing] ++ children).map (lower paths)).take attributes.length =
      attributes.map (lower paths) := by
    simp
  have back : ((attributes ++ [closing] ++ children).map (lower paths)).drop (attributes.length + 1) =
      children.map (lower paths) := by
    rw [← List.map_drop]
    congr 1
    exact List.drop_left' (by simp)
  rw [lower_node]
  change factoryCall paths
    (elementType (lower paths name) ::
      properties (((attributes ++ [closing] ++ children).map (lower paths)).take attributes.length) ::
        (((attributes ++ [closing] ++ children).map (lower paths)).drop (attributes.length + 1)).flatMap
          childArguments) = _
  rw [front, back]

/-! ## Lowering follows the table -/

/-- What lowering makes of a tree in its role. -/
def becomes (paths : Paths) (role : Role) (tree : Tree) : List Tree :=
  match role with
  | .code => [lower paths tree]
  | .attr => [property (lower paths tree)]
  | .value => [attributeValue (lower paths tree)]
  | .child => childArguments (lower paths tree)

theorem flatMap_becomes_code :
    trees.flatMap (becomes paths .code) = trees.map (lower paths) := by
  induction trees with
  | nil => rfl
  | cons tree trees inductionHypothesis =>
      rw [List.flatMap_cons, inductionHypothesis]
      rfl

theorem properties_eq_objectOf :
    properties (trees.map (lower paths)) = objectOf (trees.flatMap (becomes paths .attr)) := by
  have same : trees.flatMap (becomes paths .attr) = (trees.map (lower paths)).map property := by
    induction trees with
    | nil => rfl
    | cons tree trees inductionHypothesis =>
        rw [List.flatMap_cons, inductionHypothesis]
        rfl
  rw [same, properties, objectOf, List.isEmpty_map, List.isEmpty_map, List.isEmpty_map]

theorem flatMap_childArguments :
    (trees.map (lower paths)).flatMap childArguments = trees.flatMap (becomes paths .child) :=
  List.flatMap_map ..

theorem Named.nameText_lower
    {text : Text}
    (named : Named tree text) :
    nameText (lower paths tree) = text := by
  cases named with
  | plain => rfl
  | spaced => rfl

theorem Dotted.nameText_lower
    {text : Text}
    (dotted : Dotted tree text) :
    nameText (lower paths tree) = text := by
  induction dotted with
  | root => rfl
  | this => rfl
  | @member object path name span place front inductionHypothesis =>
      rw [lower_of_isMarkup_eq_false rfl]
      change nameText (lower paths object) ++ ['.'] ++ name = _
      rw [inductionHypothesis]

theorem TypeOf.elementType_lower
    {type : Tree}
    (typed : TypeOf tree type) :
    elementType (lower paths tree) = type := by
  cases typed with
  | @plain name text named =>
      have same : elementType (lower paths tree) = string (nameText (lower paths tree)) := by
        cases named <;> rfl
      rw [same, named.nameText_lower]
  | component => rfl
  | this => rfl
  | @path span parts text dotted =>
      have isPath : elementType (lower paths (.node .tagMember span parts)) =
          Markup.path (nameText (lower paths (.node .tagMember span parts))) := by
        rw [lower_of_isMarkup_eq_false rfl]
        rfl
      rw [isPath, dotted.nameText_lower]

/-- Whatever the table says is what lowering makes. -/
theorem Lowers.eq_flatMap
    {role : Role}
    {results : List Tree}
    (lowers : Lowers paths role trees results) :
    results = trees.flatMap (becomes paths role) := by
  have one {role : Role} {tree : Tree} : [tree].flatMap (becomes paths role) = becomes paths role tree :=
    List.flatMap_singleton ..
  have braces {kind : Kind} {span : Span} {expression : Tree}
      (noMarkup : isMarkup (.node kind span [expression]) = false) :
      lower paths (.node kind span [expression]) = .node kind span [lower paths expression] :=
    lower_of_isMarkup_eq_false noMarkup
  induction lowers with
  | nil => rfl
  | @cons role tree trees first later _ _ firstIs laterAre =>
      rw [firstIs, laterAre, one, List.flatMap_cons]
  | other noMarkup inner innerIs =>
      rw [one, becomes, lower_of_isMarkup_eq_false noMarkup, innerIs, flatMap_becomes_code]
  | element typed props between propsAre innerIs =>
      rw [one, becomes, lower_element, typed.elementType_lower, properties_eq_objectOf, flatMap_childArguments, propsAre,
        innerIs]
  | @fragment span children inner between innerIs =>
      have lowered : lower paths (.node .fragment span children) =
          factoryCall paths
            (path paths.fragment :: .made .nullLiteral [] :: (children.map (lower paths)).flatMap childArguments) :=
        lower_node ..
      rw [one, becomes, lowered, flatMap_childArguments, innerIs]
  | @property span name value result text named given givenIs =>
      have lowered : lower paths (.node .tagProperty span [name, value]) =
          .node .tagProperty span [lower paths name, lower paths value] := lower_of_isMarkup_eq_false rfl
      rw [one, becomes] at givenIs
      rw [one, becomes, lowered, (List.cons.inj givenIs).1]
      change [Tree.made _ [propertyKey text, _]] = [Tree.made _ [propertyKey (nameText _), _]]
      rw [named.nameText_lower]
  | spreadProperties inner innerIs =>
      rw [one, becomes] at innerIs
      rw [one, becomes, braces rfl, (List.cons.inj innerIs).1]
      rfl
  | missing span parts =>
      rw [one, becomes, lower_of_isMarkup_eq_false rfl]
      rfl
  | text => rfl
  | @emptyValue span expression empty =>
      rw [one, becomes, braces rfl, attributeValue, isAbsent_lower, empty, if_pos rfl]
  | givenValue filled inner innerIs =>
      rw [one, becomes] at innerIs
      rw [one, becomes, braces rfl, attributeValue, isAbsent_lower, filled, if_neg Bool.false_ne_true, innerIs]
  | markupValue nested inner innerIs =>
      rw [one, becomes] at innerIs
      obtain ⟨arguments, call⟩ := lower_eq_factoryCall nested
      rw [one, becomes, innerIs, call]
      rfl
  | @blank raw span blank =>
      have same : lower paths (.node (.markupText raw) span []) = .node (.markupText raw) span [] := rfl
      rw [one, becomes, same, childArguments, blank]
      rfl
  | @words raw words span cleaned =>
      have same : lower paths (.node (.markupText raw) span []) = .node (.markupText raw) span [] := rfl
      rw [one, becomes, same, childArguments, cleaned]
      rfl
  | emptyChild empty =>
      rw [one, becomes, braces rfl, childArguments, isAbsent_lower, empty, if_pos rfl]
  | givenChild filled inner innerIs =>
      rw [one, becomes] at innerIs
      rw [one, becomes, braces rfl, childArguments, isAbsent_lower, filled, if_neg Bool.false_ne_true, innerIs]
  | spreadChildren inner innerIs =>
      rw [one, becomes] at innerIs
      rw [one, becomes, braces rfl, (List.cons.inj innerIs).1]
      rfl
  | markupChild nested inner innerIs =>
      rw [one, becomes] at innerIs
      obtain ⟨arguments, call⟩ := lower_eq_factoryCall nested
      rw [one, becomes, innerIs, call]
      rfl

/-! ## The table covers all markup -/

/-- A single name of a tag has no parts. -/
theorem eq_tagName
    (laid : tree.IsLaid)
    (isTag : tree.isTagName = true) :
    ∃ text span, tree = .node (.tagName text) span [] := by
  obtain ⟨low, high, placed⟩ := laid
  obtain ⟨kind, span, children⟩ := tree
  have fits := placed.fits_node
  unfold Tree.isTagName at isTag
  split at isTag
  next text same =>
    obtain rfl : kind = .tagName text := same
    obtain rfl : children = [] := fits
    exact ⟨text, span, rfl⟩
  next => cases isTag

theorem eq_name
    (laid : tree.IsLaid)
    (isName : tree.isName = true) :
    ∃ text span, tree = .node (.name text) span [] := by
  obtain ⟨low, high, placed⟩ := laid
  obtain ⟨kind, span, children⟩ := tree
  have fits := placed.fits_node
  unfold Tree.isName at isName
  split at isName
  next text same =>
    obtain rfl : kind = .name text := same
    obtain rfl : children = [] := fits
    exact ⟨text, span, rfl⟩
  next => cases isName

theorem named_tagNamespace
    {span : Span}
    {children : List Tree}
    (laid : Tree.IsLaid (.node .tagNamespace span children)) :
    ∃ text, Named (.node .tagNamespace span children) text := by
  obtain ⟨low, high, placed⟩ := laid
  obtain ⟨space, name, rfl, isSpace, isName⟩ := placed.fits_node
  have parts := placed.children_node.isLaid
  obtain ⟨first, place, rfl⟩ := eq_tagName (parts space (by simp)) isSpace
  obtain ⟨second, behind, rfl⟩ := eq_tagName (parts name (by simp)) isName
  exact ⟨_, .spaced first second span place behind⟩

/-- The name of an attribute has a text. -/
theorem exists_named
    (laid : tree.IsLaid)
    (isName : tree.isAttributeName = true) :
    ∃ text, Named tree text := by
  obtain ⟨kind, span, children⟩ := tree
  cases kind
  case tagName text =>
    obtain ⟨text, place, same⟩ := eq_tagName laid rfl
    rw [same]
    exact ⟨text, .plain text place⟩
  case tagNamespace => exact named_tagNamespace laid
  all_goals cases isName

/-- A dotted path has a text. -/
theorem exists_dotted
    (laid : tree.IsLaid)
    (isPath : tree.isPathName = true) :
    ∃ text, Dotted tree text := by
  induction tree with
  | node kind span children inductionHypothesis =>
      obtain ⟨low, high, placed⟩ := laid
      have fits := placed.fits_node
      cases kind
      case tagReference text =>
        obtain rfl : children = [] := fits
        exact ⟨text, .root text span⟩
      case this =>
        obtain rfl : children = [] := fits
        exact ⟨_, .this span⟩
      case tagMember =>
        obtain ⟨object, name, rfl, isObject, isName⟩ := fits
        have parts := placed.children_node.isLaid
        obtain ⟨path, front⟩ := inductionHypothesis object (by simp) (parts object (by simp)) isObject
        obtain ⟨text, place, rfl⟩ := eq_name (parts name (by simp)) isName
        exact ⟨_, .member text span place front⟩
      all_goals cases isPath

/-- Each element has a type. -/
theorem exists_typeOf
    (laid : tree.IsLaid)
    (isElement : tree.isElementName = true) :
    ∃ type, TypeOf tree type := by
  obtain ⟨kind, span, children⟩ := tree
  cases kind
  case tagName text =>
    obtain ⟨text, named⟩ := exists_named laid rfl
    exact ⟨_, .plain named⟩
  case tagNamespace =>
    obtain ⟨text, named⟩ := named_tagNamespace laid
    exact ⟨_, .plain named⟩
  case tagReference text =>
    obtain ⟨low, high, placed⟩ := laid
    obtain rfl : children = [] := placed.fits_node
    exact ⟨_, .component text span⟩
  case this =>
    obtain ⟨low, high, placed⟩ := laid
    obtain rfl : children = [] := placed.fits_node
    exact ⟨_, .this span⟩
  case tagMember =>
    obtain ⟨text, dotted⟩ := exists_dotted laid rfl
    exact ⟨_, .path dotted⟩
  all_goals cases isElement

/-- Whether a tree may have the role. -/
def Role.admits (role : Role) (tree : Tree) : Bool :=
  match role with
  | .code => true
  | .attr => tree.isAttribute
  | .value => tree.isAttributeValue
  | .child => tree.isMarkupChild

/-- If the table has an entry for a tree, the entry is what lowering makes of the tree. -/
theorem Lowers.exact
    {role : Role}
    {results : List Tree}
    (lowers : Lowers paths role [tree] results) :
    Lowers paths role [tree] (becomes paths role tree) := by
  have same := lowers.eq_flatMap
  rw [List.flatMap_singleton] at same
  rwa [← same]

/-- The table has entries for all trees if it has one for each of them. -/
theorem Lowers.all
    {role : Role}
    (each : ∀ tree ∈ trees, Lowers paths role [tree] (becomes paths role tree)) :
    Lowers paths role trees (trees.flatMap (becomes paths role)) := by
  induction trees with
  | nil => exact .nil role
  | cons tree trees inductionHypothesis =>
      rw [List.flatMap_cons]
      exact .cons (each tree (by simp)) (inductionHypothesis fun other among => each other (by simp [among]))

/-- The table has an entry for each tree that is laid out, in each role that the tree may have. -/
theorem lowers_becomes
    (laid : tree.IsLaid)
    (role : Role)
    (admitted : role.admits tree = true) :
    Lowers paths role [tree] (becomes paths role tree) := by
  induction tree generalizing role with
  | node kind span children inductionHypothesis =>
      obtain ⟨low, high, placed⟩ := laid
      have fits := placed.fits_node
      have parts := placed.children_node.isLaid
      have among {role : Role} {trees : List Tree} (some : trees ⊆ children)
          (admitted : ∀ tree ∈ trees, role.admits tree = true) :
          Lowers paths role trees (trees.flatMap (becomes paths role)) :=
        .all fun tree member =>
          inductionHypothesis tree (some member) (parts tree (some member)) role (admitted tree member)
      have code : Lowers paths .code [.node kind span children] (becomes paths .code (.node kind span children)) := by
        cases markup : isMarkup (.node kind span children) with
        | false => exact .exact (.other markup (among (List.Subset.refl _) fun _ _ => rfl))
        | true =>
            cases kind
            case element count =>
              obtain ⟨-, name, arguments, attributes, closing, inner, rfl, rfl, isElement, areAttributes, areChildren⟩ :=
                fits
              obtain ⟨type, typed⟩ := exists_typeOf (parts name (by simp)) isElement
              exact .exact (.element typed (among (fun given member => by simp [member]) areAttributes)
                (among (fun child member => by simp [member]) areChildren))
            case fragment => exact .exact (.fragment (among (List.Subset.refl _) fits.2))
            all_goals cases markup
      cases role with
      | code => exact code
      | attr =>
          cases kind
          case tagProperty =>
            obtain ⟨name, value, rfl, isName, isValue⟩ := fits
            obtain ⟨text, named⟩ := exists_named (parts name (by simp)) isName
            exact .exact (.property named (inductionHypothesis value (by simp) (parts value (by simp)) .value isValue))
          case attributeSpread =>
            obtain ⟨expression, rfl⟩ := fits
            exact .exact (.spreadProperties (inductionHypothesis expression (by simp) (parts expression (by simp)) .code rfl))
          all_goals cases admitted
      | value =>
          cases kind
          case absent => exact .exact (.missing span children)
          case stringLiteral text escaped =>
            obtain rfl : children = [] := fits
            exact .exact (.text text escaped span)
          case container =>
            obtain ⟨expression, rfl⟩ := fits
            cases empty : expression.isAbsent with
            | true => exact .exact (.emptyValue empty)
            | false =>
                exact .exact (.givenValue empty
                  (inductionHypothesis expression (by simp) (parts expression (by simp)) .code rfl))
          case element count => exact .exact (.markupValue rfl code)
          case fragment => exact .exact (.markupValue rfl code)
          all_goals cases admitted
      | child =>
          cases kind
          case markupText raw =>
            obtain rfl : children = [] := fits
            cases cleaned : childText? raw with
            | none => exact .exact (.blank cleaned)
            | some words => exact .exact (.words cleaned)
          case container =>
            obtain ⟨expression, rfl⟩ := fits
            cases empty : expression.isAbsent with
            | true => exact .exact (.emptyChild empty)
            | false =>
                exact .exact (.givenChild empty
                  (inductionHypothesis expression (by simp) (parts expression (by simp)) .code rfl))
          case childSpread =>
            obtain ⟨expression, rfl⟩ := fits
            exact .exact (.spreadChildren (inductionHypothesis expression (by simp) (parts expression (by simp)) .code rfl))
          case element count => exact .exact (.markupChild rfl code)
          case fragment => exact .exact (.markupChild rfl code)
          all_goals cases admitted

/-- In a source that parses, what the table says of an element or fragment at any depth is what lowering makes of
it.  No markup is left in the result, and where there is no markup, nothing changes. -/
theorem lower_eq_reference
    {typed : Bool}
    {source : Text}
    {module node : Tree}
    (parsed : parse? typed source = some module)
    (inside : Contains module node)
    (paths : Paths) :
    (∀ result, Lowers paths .code [node] [result] ↔ result = lower paths node) ∧
      (isMarkup node = true → ∃ arguments, lower paths node = factoryCall paths arguments) ∧
      IsPlain (lower paths node) ∧
      (IsPlain node → lower paths node = node) := by
  refine ⟨fun result => ⟨fun lowers => ?_, fun same => ?_⟩, lower_eq_factoryCall, isPlain_lower paths node, lower_of_isPlain⟩
  · exact (List.cons.inj (lowers.eq_flatMap.trans (List.flatMap_singleton ..))).1
  · subst same
    exact lowers_becomes (inside.isLaid ⟨0, source.length, Parser.laid_parse parsed⟩) .code rfl

/-- An element with another one as the value of an attribute. -/
theorem lower_eq_reference_of_element :
    ∃ source module node,
      parse? (isTyped source) source = some module ∧ Contains module node ∧ isMarkup node = true ∧
        Lowers ⟨"h".toList, "Group".toList⟩ .code [node] [lower ⟨"h".toList, "Group".toList⟩ node] := by
  obtain ⟨source, found⟩ : ∃ source,
      (parse? (isTyped source) source).map (fun module => (outermost module).isEmpty) = some false :=
    ⟨"export default () => <a b={<i/>}>{c} d</a>;".toList, by decide +kernel⟩
  obtain ⟨module, parsed, filled⟩ := Option.map_eq_some_iff.mp found
  obtain ⟨node, among⟩ := List.isEmpty_eq_false_iff_exists_mem.mp filled
  obtain ⟨exposed, markup⟩ := mem_outermost_iff.mp among
  obtain ⟨follows, -⟩ := lower_eq_reference parsed exposed.contains ⟨"h".toList, "Group".toList⟩
  exact ⟨source, module, node, parsed, exposed.contains, markup, (follows _).mpr rfl⟩

end Markup

end LiveComponent
