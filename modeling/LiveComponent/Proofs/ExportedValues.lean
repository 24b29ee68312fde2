import LiveComponent.Exports
import Mathlib.Data.List.Induction
import Mathlib.Data.List.Nodup

namespace LiveComponent

/-!
# The values of exported names

The exports of a module are read off in three passes: functions are bound first, then classes and
variables in their order, then the names of the exports are looked up.  Here the passes meet one
description without them: a name leads along the values of variables to a function of the module, to a
class or variable above it, and in the end to a function, a class or some other expression.  This needs
that no name is declared twice.
-/

namespace Table

variable {α : Type}

/-- Put values under names, one after the other. -/
def ofPairs (pairs : List (Text × α)) : Table α :=
  pairs.foldl (fun table pair => table.put pair.1 pair.2) []

/-- Another value comes last or takes the place of the one of its name. -/
theorem ofPairs_concat (pairs : List (Text × α)) (pair : Text × α) :
    ofPairs (pairs ++ [pair]) = (ofPairs pairs).put pair.1 pair.2 := by
  simp [ofPairs]

/-- A new name comes last. -/
theorem names_put (table : Table α) (name : Text) (value : α) :
    (table.put name value).names =
      if name ∈ table.names then table.names else table.names ++ [name] := by
  induction table with
  | nil =>
      rfl
  | cons entry rest inductionHypothesis =>
      by_cases same : entry.1 = name
      · simp [put, names, same]
      · have others : name ∈ names (entry :: rest) ↔ name ∈ names rest := by
          simp [names, Ne.symm same]
        have step : names (put (entry :: rest) name value) = entry.1 :: names (put rest name value) := by
          simp [put, names, same]
        rw [step, inductionHypothesis, if_congr others rfl rfl]
        split <;> rfl

/-- The names stand in the order in which they came first. -/
theorem names_ofPairs (pairs : List (Text × α)) :
    (ofPairs pairs).names = (pairs.map Prod.fst).eraseDups := by
  induction pairs using List.reverseRecOn with
  | nil =>
      rfl
  | append_singleton pairs pair inductionHypothesis =>
      rw [ofPairs_concat, names_put, inductionHypothesis, List.map_append, List.eraseDups_append]
      by_cases known : pair.1 ∈ pairs.map Prod.fst
      · rw [if_pos (List.mem_eraseDups.mpr known)]
        simp [List.removeAll, known]
      · rw [if_neg (mt List.mem_eraseDups.mp known)]
        simp [List.removeAll, known, List.eraseDups_cons]

/-- The value that came last under a name is found. -/
theorem get?_ofPairs (pairs : List (Text × α)) (name : Text) :
    (ofPairs pairs).get? name = pairs.reverse.lookup name := by
  induction pairs using List.reverseRecOn with
  | nil =>
      rfl
  | append_singleton pairs pair inductionHypothesis =>
      rw [ofPairs_concat, get?_put, inductionHypothesis, List.reverse_concat]
      exact (get?_cons pair pairs.reverse name).symm

end Table

/-- How a name at the top of a module is declared. -/
inductive Declared where
  | function
  | classLike
  /-- A variable with its first value, which may be absent. -/
  | initialized (value : Tree)

/-- The names that are declared at the top of a module, in their order.  A default export declares none. -/
abbrev Scope := List (Text × Declared)

namespace Scope

open ExportValue

/-- The variable of a declarator. -/
def ofDeclarator : Tree → Scope
  | .node (.declarator _) _ [.node (.binding name) _ _, _, value] => [(name, .initialized value)]
  | _ => []

/-- The names that a declaration declares. -/
def ofDeclaration : Tree → Scope
  | .node (.function ..) _ children => (nameOf? children).toList.map fun name => (name, .function)
  | .node (.classLike ..) _ (_ :: children) => (nameOf? children).toList.map fun name => (name, .classLike)
  | .node (.bindings ..) _ declarators => declarators.flatMap ofDeclarator
  | _ => []

/-- The names that a module declares. -/
def ofTree (tree : Tree) : Scope :=
  (tree.children.map Exports.declarationOf).flatMap ofDeclaration

/-- The expression whose value a tree has by its form: of parentheses and of types that are ascribed the
expression in them, of a property its value. -/
def unwrapped? : Tree → Option Tree
  | .node .parenthesized _ (inner :: _) => some inner
  | .node .asType _ (inner :: _) => some inner
  | .node .satisfiesType _ (inner :: _) => some inner
  | .node (.property ..) _ [_, value] => some value
  | _ => none

/-- The property of an object that is named in the source. -/
def propertyOf : Tree → List (Text × Tree)
  | .node (.property role isMethod shorthand computed) span (key :: rest) =>
    (staticKey? key).toList.map fun name =>
      (name, .node (.property role isMethod shorthand computed) span (key :: rest))
  | _ => []

/-- The properties of an object that are named in the source. -/
def propertiesOf (children : List Tree) : List (Text × Tree) :=
  children.flatMap propertyOf

/-- Where an expression leads. -/
inductive Target where
  | function
  | classLike
  /-- An expression below the declarations of the scope. -/
  | expression (scope : Scope) (tree : Tree)

namespace Target

/-- Whether a function was reached. -/
def isFunction : Target → Bool
  | function => true
  | classLike => false
  | expression _ tree =>
    match tree.kind with
    | .arrow .. => true
    | .function .. => true
    | _ => false

/-- Whether a class was reached. -/
def isClass : Target → Bool
  | function => false
  | classLike => true
  | expression _ tree =>
    match tree.kind with
    | .classLike .. => true
    | _ => false

end Target

/-- An expression below the declarations of a scope leads to a target.  A name leads to a function of the whole
module, to a class of the scope, or to where the value of a variable of the scope leads from there. -/
inductive Leads (all : Scope) : Scope → Tree → Target → Prop where
  | wrapped {scope : Scope} {tree inner : Tree} {target : Target} :
      unwrapped? tree = some inner → Leads all scope inner target → Leads all scope tree target
  | function {scope : Scope} {name : Text} {span : Span} {children : List Tree} :
      (name, .function) ∈ all → Leads all scope (.node (.identifier name) span children) .function
  | classLike {scope : Scope} {name : Text} {span : Span} {children : List Tree} :
      (name, .classLike) ∈ scope → Leads all scope (.node (.identifier name) span children) .classLike
  | initialized {scope before later : Scope} {name : Text} {span : Span} {children : List Tree} {value : Tree}
      {target : Target} :
      scope = before ++ (name, .initialized value) :: later → Leads all before value target →
        Leads all scope (.node (.identifier name) span children) target
  | expression {scope : Scope} {tree : Tree} :
      unwrapped? tree = none → (∀ name, tree.kind ≠ .identifier name) → Leads all scope tree (.expression scope tree)

end Scope

namespace ExportValue

/-- Whether the value is a function. -/
def isFunction : ExportValue → Bool
  | function _ => true
  | _ => false

/-- Whether the value is a class. -/
def isClass : ExportValue → Bool
  | classLike _ => true
  | _ => false

end ExportValue

namespace Scope

open ExportValue

/-- The entries of an object: each name once, at its first place, with the value of its last property. -/
def Collects (properties : List (Text × Tree)) (value : Tree → ExportValue) (entries : Table ExportValue) : Prop :=
  entries.map Prod.fst = (properties.map Prod.fst).eraseDups ∧
    ∀ name, entries.lookup name = (properties.reverse.lookup name).map value

/-- A report of the values of expressions, each below the declarations of a scope. -/
structure IsReport (all : Scope) (report : Scope → Tree → ExportValue) : Prop where
  isFunction_iff : ∀ scope tree, scope <+: all →
    ((report scope tree).isFunction = true ↔
      ∃ target, Leads all scope tree target ∧ target.isFunction = true)
  isClass_iff : ∀ scope tree, scope <+: all →
    ((report scope tree).isClass = true ↔
      ∃ target, Leads all scope tree target ∧ target.isClass = true)
  object : ∀ scope tree earlier span properties, scope <+: all →
    Leads all scope tree (.expression earlier (.node .object span properties)) →
      ∃ entries, report scope tree = .object entries ∧
        Collects (propertiesOf properties) (report earlier) entries
  leads_of_object : ∀ scope tree entries, scope <+: all → report scope tree = .object entries →
    ∃ earlier span properties, Leads all scope tree (.expression earlier (.node .object span properties))

/-! ## The passes over a scope -/

/-- A function is bound before the module runs. -/
def bindFunction (bindings : Bindings) : Text × Declared → Bindings
  | (name, .function) => (name, .function (some name)) :: bindings
  | _ => bindings

/-- A class or variable is bound when its declaration runs. -/
def bindRun (bindings : Bindings) : Text × Declared → Bindings
  | (_, .function) => bindings
  | (name, .classLike) => (name, .classLike (some name)) :: bindings
  | (name, .initialized value) =>
    (name, if value.isAbsent then .primitive "undefined".toList else ExportValue.ofTree bindings value) :: bindings

/-- What is bound after the declarations of a scope, where the module declares more. -/
def bindings (all scope : Scope) : Bindings :=
  scope.foldl bindRun (all.foldl bindFunction [])

/-- The value of an expression below the declarations of a scope. -/
def report (all scope : Scope) (tree : Tree) : ExportValue :=
  ExportValue.ofTree (bindings all scope) tree

/-- A variable is no function. -/
theorem foldl_bindFunction_declarator (bindings : Bindings) (declarator : Tree) :
    (ofDeclarator declarator).foldl bindFunction bindings = bindings := by
  unfold ofDeclarator
  split <;> rfl

/-- A variable is bound by what its declarator declares. -/
theorem bindDeclarator_eq (bindings : Bindings) (declarator : Tree) :
    Exports.bindDeclarator bindings declarator = (ofDeclarator declarator).foldl bindRun bindings := by
  unfold ofDeclarator
  split
  · rfl
  · rename_i unnamed
    unfold Exports.bindDeclarator
    split
    · exact (unnamed _ _ _ _ _ _ _ rfl).elim
    · rfl

/-- A function declaration is bound by what it declares. -/
theorem hoisted_eq (bindings : Bindings) (declaration : Tree) :
    Exports.hoisted bindings declaration = (ofDeclaration declaration).foldl bindFunction bindings := by
  unfold ofDeclaration
  split
  · rename_i children
    cases named : nameOf? children <;> simp [Exports.hoisted, named, bindFunction]
  · rename_i children
    cases nameOf? children <;> rfl
  · simp only [List.foldl_flatMap, foldl_bindFunction_declarator, List.foldl_fixed]
    rfl
  · rename_i noFunction _ _
    unfold Exports.hoisted
    split
    · exact (noFunction _ _ _ _ _ _ _ rfl).elim
    · rfl

/-- Another declaration is bound by what it declares. -/
theorem bindDeclaration_eq (bindings : Bindings) (declaration : Tree) :
    Exports.bindDeclaration bindings declaration = (ofDeclaration declaration).foldl bindRun bindings := by
  unfold ofDeclaration
  split
  · rename_i children
    cases nameOf? children <;> rfl
  · rename_i children
    cases named : nameOf? children <;> simp [Exports.bindDeclaration, named, bindRun]
  · simp only [List.foldl_flatMap, ← bindDeclarator_eq]
    rfl
  · rename_i noClass noVariables
    unfold Exports.bindDeclaration
    split
    · exact (noClass _ _ _ _ _ _ rfl).elim
    · exact (noVariables _ _ _ _ rfl).elim
    · rfl

/-- The two passes bind what the module declares. -/
theorem bindings_ofTree (tree : Tree) :
    (tree.children.map Exports.declarationOf).foldl Exports.bindDeclaration
        ((tree.children.map Exports.declarationOf).foldl Exports.hoisted []) =
      bindings (ofTree tree) (ofTree tree) := by
  have functions : Exports.hoisted = fun bound declaration => (ofDeclaration declaration).foldl bindFunction bound := by
    funext bound declaration
    exact hoisted_eq bound declaration
  have others :
      Exports.bindDeclaration = fun bound declaration => (ofDeclaration declaration).foldl bindRun bound := by
    funext bound declaration
    exact bindDeclaration_eq bound declaration
  simp only [bindings, ofTree, List.foldl_flatMap, functions, others]

/-! ## What a name is bound to -/

section Resolution

variable {all scope before later : Scope} {name : Text} {declared : Declared}

/-- A name that no class or variable of the scope has keeps what is bound to it. -/
theorem lookup_foldl_bindRun
    (bound : Bindings)
    (others : ∀ declared, (name, declared) ∈ scope → declared = .function) :
    (scope.foldl bindRun bound).lookup name = bound.lookup name := by
  induction scope generalizing bound with
  | nil =>
      rfl
  | cons entry rest inductionHypothesis =>
      rw [List.foldl_cons, inductionHypothesis _ fun declared member => others declared (List.mem_cons_of_mem _ member)]
      obtain ⟨other, declared⟩ := entry
      by_cases same : name = other
      · subst same
        rw [others declared List.mem_cons_self]
        rfl
      · cases declared with
        | function => rfl
        | classLike => exact (Table.get?_cons _ bound name).trans (if_neg (Ne.symm same))
        | initialized value => exact (Table.get?_cons _ bound name).trans (if_neg (Ne.symm same))

/-- The names of functions are bound to functions of those names. -/
theorem lookup_foldl_bindFunction {value : ExportValue} :
    (all.foldl bindFunction []).lookup name = some value ↔
      (name, .function) ∈ all ∧ value = .function (some name) := by
  induction all using List.reverseRecOn with
  | nil =>
      simp
  | append_singleton all entry inductionHypothesis =>
      obtain ⟨other, declared⟩ := entry
      rw [List.foldl_concat]
      cases declared with
      | function =>
          by_cases same : name = other
          · subst same
            simp [bindFunction, eq_comm]
          · have different : (name == other) = false := beq_eq_false_iff_ne.mpr same
            simp [bindFunction, List.lookup_cons, same, different, inductionHypothesis]
      | classLike =>
          simp [bindFunction, inductionHypothesis]
      | initialized _ =>
          simp [bindFunction, inductionHypothesis]

/-- The name of a function is bound to it from the start. -/
theorem lookup_bindings_function
    (unique : (all.map Prod.fst).Nodup)
    (inner : scope <+: all)
    (member : (name, .function) ∈ all) :
    (bindings all scope).lookup name = some (.function (some name)) := by
  unfold bindings
  rw [lookup_foldl_bindRun]
  · exact lookup_foldl_bindFunction.mpr ⟨member, rfl⟩
  · intro declared found
    have same := List.inj_on_of_nodup_map unique (inner.mem found) member rfl
    exact (Prod.mk.inj same).2

/-- What its declaration binds to a name is bound to it from there on. -/
theorem lookup_bindings_declared
    (unique : (all.map Prod.fst).Nodup)
    (inner : before ++ (name, declared) :: later <+: all) :
    (bindings all (before ++ (name, declared) :: later)).lookup name =
      (bindRun (bindings all before) (name, declared)).lookup name := by
  have step : bindings all (before ++ (name, declared) :: later) =
      later.foldl bindRun (bindRun (bindings all before) (name, declared)) := by
    simp [bindings]
  have once := (inner.sublist.map Prod.fst).nodup unique
  rw [List.map_append, List.map_cons] at once
  have fresh : name ∉ later.map Prod.fst := (List.nodup_cons.mp (List.nodup_append.mp once).2.1).1
  rw [step, lookup_foldl_bindRun]
  intro declared member
  exact absurd (List.mem_map_of_mem member) fresh

/-- A name that neither a function of the module nor another declaration of the scope has is not bound. -/
theorem lookup_bindings_missing
    (noFunction : (name, .function) ∉ all)
    (others : ∀ declared, (name, declared) ∈ scope → declared = .function) :
    (bindings all scope).lookup name = none := by
  unfold bindings
  rw [lookup_foldl_bindRun _ others]
  apply Option.eq_none_iff_forall_ne_some.mpr
  intro value found
  exact noFunction (lookup_foldl_bindFunction.mp found).1

end Resolution

/-! ## Where expressions lead -/

section Values

variable {all scope : Scope} {tree inner : Tree} {target : Target}

/-- A name has the value that is bound to it. -/
theorem report_identifier (all scope : Scope) (name : Text) (span : Span) (children : List Tree) :
    report all scope (.node (.identifier name) span children) =
      ((bindings all scope).lookup name).getD .unknown := by
  simp [report, ExportValue.ofTree, Tree.fold_node, ofNode, Tree.kind, ofName]

/-- The name of a variable has the value that it was given. -/
theorem report_initialized
    {before later : Scope}
    {name : Text}
    {value : Tree}
    (unique : (all.map Prod.fst).Nodup)
    (inner : before ++ (name, .initialized value) :: later <+: all)
    (span : Span)
    (children : List Tree) :
    report all (before ++ (name, .initialized value) :: later) (.node (.identifier name) span children) =
      if value.isAbsent then .primitive "undefined".toList else report all before value := by
  rw [report_identifier, lookup_bindings_declared unique inner]
  simp only [bindRun, List.lookup_cons_self, Option.getD_some]
  rfl

/-- A wrapped expression has the value of the one inside. -/
theorem report_of_unwrapped (found : unwrapped? tree = some inner) :
    report all scope tree = report all scope inner := by
  unfold unwrapped? at found
  split at found
  all_goals
    cases found
    try simp [report, ExportValue.ofTree, Tree.fold_node, ofNode, Tree.kind]

/-- A property with a name is put under it, and others are left out. -/
theorem addProperty_eq (value : Tree → ExportValue) (entries : Table ExportValue) (child : Tree) :
    addProperty entries (child, value child) =
      (propertyOf child).foldl (fun table property => table.put property.1 (value property.2)) entries := by
  unfold propertyOf
  split
  · rename_i key _
    cases named : staticKey? key <;> simp [addProperty, named]
  · rename_i other
    unfold addProperty
    split
    · rename_i same
      cases same
      exact (other _ _ _ _ _ _ _ rfl).elim
    · rfl

/-- What is wrapped is a part of the expression. -/
theorem mem_of_unwrapped
    {kind : Kind}
    {span : Span}
    {children : List Tree}
    (found : unwrapped? (.node kind span children) = some inner) :
    inner ∈ children := by
  unfold unwrapped? at found
  split at found
  all_goals
    cases found
    try simp_all

/-- The properties of an object are put under their names, one after the other. -/
theorem foldl_addProperty (value : Tree → ExportValue) (children : List Tree) :
    (children.zip (children.map value)).foldl addProperty [] =
      Table.ofPairs ((propertiesOf children).map fun property => (property.1, value property.2)) := by
  rw [← List.map_prod_left_eq_zip, List.foldl_map, Table.ofPairs, List.foldl_map, propertiesOf, List.foldl_flatMap]
  simp only [addProperty_eq]

/-- Objects collect their properties. -/
theorem collects_foldl (value : Tree → ExportValue) (children : List Tree) :
    Collects (propertiesOf children) value ((children.zip (children.map value)).foldl addProperty []) := by
  have lookup_map (pairs : List (Text × Tree)) (name : Text) :
      (pairs.map fun pair => (pair.1, value pair.2)).lookup name = (pairs.lookup name).map value := by
    induction pairs with
    | nil => rfl
    | cons pair rest inductionHypothesis =>
        obtain ⟨key, part⟩ := pair
        simp only [List.map_cons, List.lookup_cons, inductionHypothesis]
        cases name == key <;> rfl
  rw [foldl_addProperty]
  constructor
  · refine (Table.names_ofPairs _).trans ?_
    rw [List.map_map]
    rfl
  · intro name
    refine (Table.get?_ofPairs _ name).trans ?_
    rw [← List.map_reverse, lookup_map]

/-- A value tells of a target what is to be reported. -/
structure Target.Describes (all : Scope) (target : Target) (value : ExportValue) : Prop where
  isFunction : value.isFunction = target.isFunction
  isClass : value.isClass = target.isClass
  object : ∀ earlier span properties, target = .expression earlier (.node .object span properties) →
    ∃ entries, value = .object entries ∧ Collects (propertiesOf properties) (report all earlier) entries
  isObject : ∀ entries, value = .object entries →
    ∃ earlier span properties, target = .expression earlier (.node .object span properties)

/-- An expression that leads nowhere else describes itself. -/
theorem describes_expression
    (bare : unwrapped? tree = none)
    (anonymous : ∀ name, tree.kind ≠ .identifier name) :
    Target.Describes all (.expression scope tree) (report all scope tree) := by
  obtain ⟨kind, span, children⟩ := tree
  unfold report ExportValue.ofTree
  rw [Tree.fold_node]
  generalize shape : children.map (Tree.fold (ofNode (bindings all scope))) = parts
  unfold ofNode
  simp only [Tree.kind] at anonymous ⊢
  split
  -- an object
  case h_4 =>
    refine ⟨rfl, rfl, fun earlier span properties same => ?_, fun entries _ => ⟨_, _, _, rfl⟩⟩
    cases same
    subst shape
    exact ⟨_, rfl, collects_foldl _ _⟩
  -- a wrapped expression
  case h_5 =>
    obtain ⟨_, _, rfl, -, rest⟩ := List.map_eq_cons_iff.mp shape
    obtain ⟨_, _, rfl, -, rest⟩ := List.map_eq_cons_iff.mp rest
    cases List.map_eq_nil_iff.mp rest
    cases bare
  case h_11 | h_12 | h_13 =>
    obtain ⟨_, _, rfl, -⟩ := List.map_eq_cons_iff.mp shape
    cases bare
  case h_6 => exact (anonymous _ rfl).elim
  -- any other one that is not known
  case h_14 noObject _ _ _ _ _ _ _ _ _ =>
    refine ⟨?_, ?_, fun _ _ _ same => ?_, (fun _ same => nomatch same)⟩
    · simp only [Target.isFunction, Tree.kind]
      rfl
    · simp only [Target.isClass, Tree.kind]
      rfl
    · cases same
      exact (noObject rfl).elim
  all_goals exact ⟨rfl, rfl, (fun _ _ _ same => nomatch same), (fun _ same => nomatch same)⟩

/-- A missing expression is a node of the kind for it. -/
theorem eq_of_isAbsent (absent : tree.isAbsent = true) : ∃ span children, tree = .node .absent span children := by
  unfold Tree.isAbsent at absent
  split at absent
  · exact ⟨_, _, rfl⟩
  · cases absent

/-- A missing expression leads nowhere else. -/
theorem leads_of_absent (absent : tree.isAbsent = true) : Leads all scope tree (.expression scope tree) := by
  obtain ⟨span, children, rfl⟩ := eq_of_isAbsent absent
  exact .expression rfl fun _ same => nomatch same

/-- A variable without a first value has one that is no function, class or object. -/
theorem describes_absent
    (absent : tree.isAbsent = true)
    (leads : Leads all scope tree target) :
    target.Describes all (.primitive "undefined".toList) := by
  obtain ⟨span, children, rfl⟩ := eq_of_isAbsent absent
  cases leads with
  | wrapped inside => cases inside
  | expression => exact ⟨rfl, rfl, (fun _ _ _ same => nomatch same), (fun _ same => nomatch same)⟩

/-- The value of an expression tells of the target that it leads to. -/
theorem Leads.describes
    (unique : (all.map Prod.fst).Nodup)
    (leads : Leads all scope tree target)
    (inner : scope <+: all) :
    target.Describes all (report all scope tree) := by
  induction leads with
  | wrapped inside _ inductionHypothesis =>
      rw [report_of_unwrapped inside]
      exact inductionHypothesis inner
  | function member =>
      rw [report_identifier, lookup_bindings_function unique inner member]
      exact ⟨rfl, rfl, (fun _ _ _ same => nomatch same), (fun _ same => nomatch same)⟩
  | classLike member =>
      obtain ⟨before, later, rfl⟩ := List.mem_iff_append.mp member
      rw [report_identifier, lookup_bindings_declared unique inner]
      simp only [bindRun, List.lookup_cons_self, Option.getD_some]
      exact ⟨rfl, rfl, (fun _ _ _ same => nomatch same), (fun _ same => nomatch same)⟩
  | @initialized scope before later name span children value target shape leads inductionHypothesis =>
      subst shape
      rw [report_initialized unique inner]
      cases absent : value.isAbsent with
      | true =>
          rw [if_pos rfl]
          exact describes_absent absent leads
      | false =>
          rw [if_neg Bool.false_ne_true]
          exact inductionHypothesis ((List.prefix_append before _).trans inner)
  | expression bare anonymous =>
      exact describes_expression bare anonymous

/-- An expression leads to a target, or nothing is known of its value. -/
theorem leads_or_unknown
    (unique : (all.map Prod.fst).Nodup)
    (inner : scope <+: all)
    (tree : Tree) :
    (∃ target, Leads all scope tree target) ∨ report all scope tree = .unknown := by
  -- along the values of variables the scope gets shorter, inside an expression the tree gets smaller
  induction size : scope.length using Nat.strongRecOn generalizing scope tree with
  | ind size shorter =>
    subst size
    induction tree with
    | node kind span children smaller =>
      cases wrapped : unwrapped? (.node kind span children) with
      | some part =>
          rw [report_of_unwrapped wrapped]
          refine (smaller part (mem_of_unwrapped wrapped)).imp_left ?_
          exact fun ⟨target, leads⟩ => ⟨target, .wrapped wrapped leads⟩
      | none =>
          by_cases anonymous : ∀ name, kind ≠ .identifier name
          · exact .inl ⟨_, .expression wrapped anonymous⟩
          · obtain ⟨name, rfl⟩ := not_forall_not.mp anonymous
            by_cases function : (name, .function) ∈ all
            · exact .inl ⟨_, .function function⟩
            by_cases classLike : (name, .classLike) ∈ scope
            · exact .inl ⟨_, .classLike classLike⟩
            by_cases initialized : ∃ value, (name, .initialized value) ∈ scope
            · obtain ⟨value, member⟩ := initialized
              obtain ⟨before, later, rfl⟩ := List.mem_iff_append.mp member
              have earlier : before <+: all := (List.prefix_append before _).trans inner
              have short : before.length < (before ++ (name, Declared.initialized value) :: later).length := by
                simp
              cases shorter before.length short earlier value rfl with
              | inl found =>
                  obtain ⟨target, leads⟩ := found
                  exact .inl ⟨target, .initialized rfl leads⟩
              | inr unknown =>
                  rw [report_initialized unique inner]
                  cases absent : value.isAbsent with
                  | true => exact .inl ⟨_, .initialized rfl (leads_of_absent absent)⟩
                  | false => exact .inr unknown
            · have others (declared : Declared) (member : (name, declared) ∈ scope) : declared = .function := by
                cases declared with
                | function => rfl
                | classLike => exact absurd member classLike
                | initialized value => exact absurd ⟨value, member⟩ initialized
              rw [report_identifier, lookup_bindings_missing function others]
              exact .inr rfl

/-- The values after the passes are a report. -/
theorem isReport_report (unique : (all.map Prod.fst).Nodup) : IsReport all (report all) where
  isFunction_iff scope tree inner := by
    constructor
    · intro isFunction
      rcases leads_or_unknown unique inner tree with ⟨target, leads⟩ | unknown
      · exact ⟨target, leads, (leads.describes unique inner).isFunction ▸ isFunction⟩
      · rw [unknown] at isFunction
        cases isFunction
    · rintro ⟨target, leads, isFunction⟩
      exact (leads.describes unique inner).isFunction.trans isFunction
  isClass_iff scope tree inner := by
    constructor
    · intro isClass
      rcases leads_or_unknown unique inner tree with ⟨target, leads⟩ | unknown
      · exact ⟨target, leads, (leads.describes unique inner).isClass ▸ isClass⟩
      · rw [unknown] at isClass
        cases isClass
    · rintro ⟨target, leads, isClass⟩
      exact (leads.describes unique inner).isClass.trans isClass
  object scope tree earlier span properties inner leads :=
    (leads.describes unique inner).object earlier span properties rfl
  leads_of_object scope tree entries inner isObject := by
    rcases leads_or_unknown unique inner tree with ⟨target, leads⟩ | unknown
    · obtain ⟨earlier, span, properties, rfl⟩ := (leads.describes unique inner).isObject entries isObject
      exact ⟨earlier, span, properties, leads⟩
    · rw [unknown] at isObject
      cases isObject

end Values

end Scope

/-! ## The exports of a module -/

namespace Exports

open ExportValue

/-- The name of a declaration, as an expression. -/
def reference (name : Text) : Tree :=
  Tree.made (.identifier name) []

/-- What a statement exports under which names: expressions below all declarations, if they are of this module. -/
def exportedBy : Tree → List (Text × Option Tree)
  | .node .exportDeclaration _ [declaration] => (namesOf declaration).map fun name => (name, some (reference name))
  | .node (.exportNames _) _ (source :: entries) =>
    entries.filterMap fun entry =>
      match entry.children with
      | [declared, exported] =>
        some (entryText exported, if source.isAbsent then some (reference (entryText declared)) else none)
      | _ => none
  | .node .exportDefault _ [value] => [("default".toList, some value)]
  | _ => []

/-- The exports with the values of a report. -/
def reported (report : Tree → ExportValue) (exported : List (Text × Option Tree)) : Exports :=
  exported.map fun entry => (entry.1, (entry.2.map report).getD .unknown)

/-- The properties of the first default export. -/
def defaultEntries (exports : Exports) : Table ExportValue :=
  match exports.lookup "default".toList with
  | some (.object entries) => entries
  | _ => []

/-- The paths of all exports that could be the component, the better ones first. -/
def candidates (exports : Exports) : List Text :=
  ["default".toList, "Component".toList].filter exports.isCallable ++
    (exports.filter isComponent).map Prod.fst ++
      (exports.defaultEntries.filter isComponent).map fun entry => "default.".toList ++ entry.1

/-- The component is the first candidate. -/
theorem component_eq_head (exports : Exports) :
    exports.component = exports.candidates.head?.elim (.error .noComponentFound) .ok := by
  unfold component candidates
  rw [List.filter_cons, List.filter_cons, List.filter_nil]
  split
  case isTrue callable =>
    rfl
  case isFalse =>
    split
    case isTrue callable =>
      rfl
    case isFalse =>
      rw [List.nil_append, List.head?_append, List.head?_map, List.head?_filter, List.head?_map, List.head?_filter]
      split
      case h_1 entry found =>
        rw [found]
        rfl
      case h_2 missing =>
        rw [missing, Option.map_none, Option.none_or, defaultEntries]
        cases exports.lookup "default".toList with
        | none =>
            rfl
        | some value =>
            cases value with
            | object entries =>
                dsimp only
                cases entries.find? isComponent <;> rfl
            | _ =>
                rfl

/-- A statement exports the values that are reported below all declarations. -/
theorem ofStatement_eq (bindings : Bindings) (statement : Tree) :
    ofStatement bindings statement = reported (ExportValue.ofTree bindings) (exportedBy statement) := by
  have value (name : Text) : ExportValue.ofTree bindings (reference name) = ofName bindings name := by
    simp [reference, Tree.made, ExportValue.ofTree, Tree.fold_node, ofNode, Tree.kind]
  unfold exportedBy reported
  split
  · rw [List.map_map]
    simp [ofStatement, Function.comp_def, value]
  · rename_i source entries
    rw [List.map_filterMap]
    unfold ofStatement
    refine congrArg (fun f => entries.filterMap f) (funext fun entry => ?_)
    rcases entry.children with _ | ⟨declared, _ | ⟨exported, _ | _⟩⟩
    case cons.cons.nil => cases source.isAbsent <;> simp [value]
    all_goals rfl
  · rfl
  · rename_i noDeclaration noNames noDefault
    unfold ofStatement
    split
    · exact (noDeclaration _ _ rfl).elim
    · exact (noNames _ _ _ _ rfl).elim
    · exact (noDefault _ _ rfl).elim
    · rfl

/-- Whether a statement throws. -/
def throws : Tree → Bool
  | .node .throwStatement _ _ => true
  | _ => false

/-- A module without statements that throw exports what its statements export below all declarations. -/
theorem ofTree_of_calm
    {tree : Tree}
    (source : Text)
    (calm : tree.children.any throws = false) :
    ofTree source tree = .ok
      (reported (Scope.report (Scope.ofTree tree) (Scope.ofTree tree)) (tree.children.flatMap exportedBy)) := by
  have noThrow : tree.children.findSome? thrown? = none := by
    rw [List.findSome?_eq_none_iff]
    intro statement member
    have none := List.any_eq_false.mp calm statement member
    unfold thrown?
    split
    · exact (none rfl).elim
    · rfl
  unfold ofTree
  rw [noThrow]
  simp only [Scope.bindings_ofTree]
  rw [reported, List.map_flatMap]
  exact congrArg (fun f => Except.ok (tree.children.flatMap f)) (funext fun statement => ofStatement_eq _ statement)

/-- A module whose functions, classes and variables have names of their own and which does not throw exports what
its statements export, and the reported values are found by following names: along the values of variables, up
to a function of the module or a class or variable above.  The component is the first of the candidates among
these exports, and there is none exactly if there is no candidate. -/
theorem component_leads
    {source : Text}
    {tree : Tree}
    (parsed : parse? (isTyped source) source = some tree)
    (calm : tree.children.any throws = false)
    (unique : ((Scope.ofTree tree).map Prod.fst).Nodup) :
    ∃ report exports,
      Scope.IsReport (Scope.ofTree tree) report ∧
        exports = reported (report (Scope.ofTree tree)) (tree.children.flatMap exportedBy) ∧
        ofText source = .ok exports ∧
        exports.component = exports.candidates.head?.elim (.error .noComponentFound) .ok := by
  refine ⟨Scope.report (Scope.ofTree tree), _, Scope.isReport_report unique, rfl, ?_, component_eq_head _⟩
  rw [ofText, parsed]
  exact ofTree_of_calm source calm

/-- An exported name leads along two variables to a function that is declared below them.  It comes before the property
of the default object, which leads there with its last value. -/
theorem component_leads_of_chain :
    ∃ source tree report exports,
      parse? (isTyped source) source = some tree ∧
        (Scope.ofTree tree).map Prod.fst = ["A".toList, "B".toList, "f".toList] ∧
        Scope.IsReport (Scope.ofTree tree) report ∧
        exports = reported (report (Scope.ofTree tree)) (tree.children.flatMap exportedBy) ∧
        ofText source = .ok exports ∧
        exports.component = .ok "C".toList := by
  let source : Text :=
    "const A = (f), B = A; export \x7bB as C\x7d; export default \x7bA: 1, A\x7d; function f() \x7b\x7d".toList
  have checked : ((parse? (isTyped source) source).any fun tree =>
      !tree.children.any throws &&
        decide ((Scope.ofTree tree).map Prod.fst = ["A".toList, "B".toList, "f".toList]) &&
        (ofTree source tree).toOption.any fun exports => exports.component.toOption == some "C".toList) = true := by
    decide +kernel
  obtain ⟨tree, parsed, facts⟩ := Option.any_eq_true _ _ |>.mp checked
  simp only [Bool.and_eq_true, Bool.not_eq_true', decide_eq_true_eq] at facts
  obtain ⟨⟨calm, names⟩, found⟩ := facts
  have unique : ((Scope.ofTree tree).map Prod.fst).Nodup := by
    rw [names]
    decide
  obtain ⟨report, exports, isReport, reports, evaluated, -⟩ := component_leads parsed calm unique
  refine ⟨source, tree, report, exports, parsed, names, isReport, reports, evaluated, ?_⟩
  rw [ofText, parsed] at evaluated
  dsimp only at evaluated
  rw [evaluated] at found
  have chosen : exports.component.toOption = some "C".toList := eq_of_beq found
  cases answer : exports.component with
  | ok path =>
      rw [answer] at chosen
      exact congrArg Except.ok (Option.some.inj chosen)
  | error failure =>
      rw [answer] at chosen
      cases chosen

end Exports

end LiveComponent
