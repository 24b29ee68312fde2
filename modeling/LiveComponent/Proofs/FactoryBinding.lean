import LiveComponent.Proofs.DirectivePrologue

namespace LiveComponent

/-!
# Bindings of the factory

Two text patterns decide whether the factory is bound, and thus whether it is imported.  The import adds one binding of
the factory to those at the top of the module and changes nothing else about them.
-/

namespace Parser

/-! ## Names at the top of a module -/

/-- The values that a tree binds. -/
structure Bound where
  /-- As a pattern, or as a part of an import. -/
  pattern : List Text := []
  /-- As a statement, in the scope in which it stands. -/
  scope : List Text := []
  /-- In the function or module around it, by the keyword `var`. -/
  hoisted : List Text := []
  /-- Whether nothing of it is left when the program runs. -/
  erased : Bool := false
  /-- Whether nothing is left of its parts. -/
  hollow : Bool := false

/-- What a node binds, from what its children bind.  Types, and declarations without a value, bind none; a namespace
binds its name if a statement in it is left when the program runs. -/
def boundBy (kind : Kind) (parts : List Bound) : Bound :=
  let patterns := parts.flatMap Bound.pattern
  let first := (parts.take 1).flatMap Bound.pattern
  let second := ((parts.drop 1).take 1).flatMap Bound.pattern
  let empty := (parts.drop 1).all Bound.hollow
  match kind with
  | .binding text => { pattern := [text] }
  | .objectPattern | .arrayPattern | .restElement | .importDefault | .importNamespace => { pattern := patterns }
  | .defaultPattern | .declarator _ => { pattern := first }
  | .patternProperty .. => { pattern := second }
  | .importNamed typeOnly => { pattern := if typeOnly then [] else second }
  | .importDeclaration typeOnly specifiers =>
    { scope := if typeOnly then [] else (parts.take (specifiers.getD 0)).flatMap Bound.pattern }
  | .importEquals typeOnly => { scope := if typeOnly then [] else first, erased := typeOnly }
  | .bindings keyword declared =>
    if declared then { erased := true }
    else if keyword == "var".toList then { hoisted := patterns }
    else { scope := patterns, hoisted := parts.flatMap Bound.hoisted }
  | .function form _ _ declared _ =>
    { scope := if form == .declaration && !declared then first else [], erased := declared }
  | .classLike form _ declared =>
    { scope := if form == .declaration && !declared then second else [], erased := declared }
  | .enum constant declared => { scope := if declared then [] else first, erased := constant || declared }
  | .typeAlias _ | .interface _ => { erased := true }
  | .qualifiedName => { pattern := first }
  | .namespaceLike _ declared => { scope := if declared || empty then [] else first, erased := declared || empty }
  | .absent => { hollow := true }
  | .block => { hoisted := parts.flatMap Bound.hoisted, hollow := parts.all Bound.erased }
  | .exportDeclaration | .exportDefault =>
    { scope := parts.flatMap Bound.scope, hoisted := parts.flatMap Bound.hoisted, erased := parts.all Bound.erased }
  | .arrow .. | .staticBlock | .stringLiteral .. | .directive _ => {}
  | _ => { hoisted := parts.flatMap Bound.hoisted }

/-- What a tree binds. -/
def bound : Tree → Bound :=
  Tree.fold fun tree parts => boundBy tree.kind parts

/-- The names that a statement at the top of a module binds there. -/
def topNames (tree : Tree) : List Text :=
  (bound tree).scope ++ (bound tree).hoisted

/-- The names that are bound at the top of a module, each as often as it is bound. -/
def moduleNames (trees : List Tree) : List Text :=
  trees.flatMap topNames

-- a namespace of types alone binds nothing
example :
    (parse? true "namespace A.B { export const a = 1 } namespace C { type D = A }".toList).map
      (fun tree => moduleNames tree.children) = some ["A".toList] := by
  decide +kernel

variable
  {name path : Text}
  {front : List Text}
  {tree tree' : Tree}
  {trees trees' : List Tree}

/-- What a tree binds does not depend on its place. -/
theorem topNames_eq
    {shift : Shift}
    (same : shift.Parts tree tree') :
    topNames tree = topNames tree' := by
  have folded : [tree].map bound = [tree'].map bound := Shift.Trees.fold_eq (fun _ => rfl) same
  rw [topNames, topNames, (List.cons.inj folded).1]

/-- A string binds nothing, be it a directive or not. -/
theorem topNames_of_stands
    {statement : Tree}
    (stands : Stands statement tree) :
    topNames tree = topNames statement := by
  rcases stands with rfl | ⟨raw, found⟩
  · rfl
  · unfold directive? at found
    split at found
    next =>
      split at found <;> cases found
      rfl
    next => cases found

/-- The import of a name binds this name and no other one. -/
theorem topNames_of_import
    {line : Tree}
    (imports : IsImportOf name path line) :
    topNames line = [name] := by
  obtain ⟨_, _, _, rfl⟩ := imports
  rfl

/-- The import of a name adds this name to those bound in a module. -/
theorem HasImport.moduleNames_eq
    (imported : HasImport (IsImportOf name path) front trees trees') :
    moduleNames trees' = name :: moduleNames trees := by
  obtain ⟨line, -, imports, same⟩ := imported.flatMap_eq (fun _ _ _ => rfl) topNames_of_stands topNames_eq
  rw [topNames_of_import imports] at same
  exact same

end Parser

namespace Markup

open Lexer LiveComponent.Parser

variable
  {options : Options}
  {typed : Bool}
  {source code : Text}
  {tree : Tree}

/-- Transpiled code with lowered markup binds the root of the factory once more than the lowered code if the patterns
find no binding in it, and as often otherwise.  So if the source binds it at most once, and lowering the markup left
the bindings alone, then the result binds it exactly once if and only if the patterns find the binding that there is
and no other one. -/
theorem factory_bound_once_iff
    (factory : isPath options.factory = true)
    (free : Token.isFree (rootOf options.factory) = true)
    (letters : options.frameworkModule.all isLetter = true)
    (parsed : parse? (options.typed.getD (isTyped source)) source = some tree)
    (once : (moduleNames tree.children).count (rootOf options.factory) ≤ 1)
    (lowers : loweringEditsOf options tree ≠ [])
    (transpiled : (transpile options source).code = some code)
    {lowered : Tree}
    (loweredParsed : parse? typed (Text.splice (loweringEditsOf options tree) source) = some lowered)
    (same : (moduleNames lowered.children).count (rootOf options.factory) =
      (moduleNames tree.children).count (rootOf options.factory))
    (plain : namesNoInterpreter (Text.splice (loweringEditsOf options tree) source) = true)
    (headed : hasDirectiveLine (Text.splice (loweringEditsOf options tree) source) = true →
      (State.initial typed (Text.splice (loweringEditsOf options tree) source)).onDirective = true) :
    ∃ result, parse? typed code = some result ∧
      (code = Text.splice (loweringEditsOf options tree) source ↔
        bindsName (Text.splice (loweringEditsOf options tree) source) (rootOf options.factory) = true) ∧
      ((moduleNames result.children).count (rootOf options.factory) = 1 ↔
        (bindsName (Text.splice (loweringEditsOf options tree) source) (rootOf options.factory) = true ↔
          (moduleNames tree.children).count (rootOf options.factory) = 1)) := by
  rw [code_transpile parsed, if_neg lowers] at transpiled
  generalize Text.splice (loweringEditsOf options tree) source = text at *
  obtain rfl : (bindFactory options text).1 = code := by
    split at transpiled
    · exact Option.some.inj transpiled
    · cases transpiled
  unfold bindFactory
  dsimp only
  split
  next binds =>
    refine ⟨lowered, loweredParsed, by simp [binds], ?_⟩
    rw [same, binds]
    exact ⟨fun one => ⟨fun _ => one, fun _ => rfl⟩, fun agree => agree.mp rfl⟩
  next noBinding =>
    obtain ⟨result, front, parsed', imported, -⟩ := parse?_insertLine factory free letters loweredParsed plain headed
    have more := imported.moduleNames_eq
    refine ⟨result, parsed', ⟨fun unchanged => ?_, fun binds => absurd binds noBinding⟩, ?_⟩
    · -- the same code would bind the same names
      dsimp only at unchanged
      rw [unchanged, loweredParsed] at parsed'
      rw [Option.some.inj parsed'] at more
      exact absurd more.symm (List.cons_ne_self _ _)
    rw [more, List.count_cons_self, same]
    constructor
    · intro one
      refine ⟨fun binds => absurd binds noBinding, fun bound => ?_⟩
      omega
    · intro agree
      have unbound := mt agree.mpr noBinding
      omega

/-- A factory that a module imports by its name is imported again. -/
theorem factory_bound_twice :
    ∃ source tree code result,
      parse? false source = some tree ∧ (moduleNames tree.children).count "React".toList = 1 ∧
        (transpile (.ofFramework {}) source).code = some code ∧
          parse? false code = some result ∧ (moduleNames result.children).count "React".toList ≠ 1 := by
  obtain ⟨source, text, untyped, shape, bound, transpiled, plain, noLine, noBinding⟩ :
      ∃ source text : Text, isTyped source = false ∧
        (parse? false source).map (fun tree =>
          (Text.splice (loweringEditsOf (.ofFramework {}) tree) source, (loweringEditsOf (.ofFramework {}) tree).length,
            (moduleNames tree.children).count "React".toList)) = some (text, 1, 1) ∧
        (parse? false text).map (fun tree => (moduleNames tree.children).count "React".toList) = some 1 ∧
        (transpile (.ofFramework {}) source).code.isSome = true ∧ namesNoInterpreter text = true ∧
        hasDirectiveLine text = false ∧ bindsName text "React".toList = false :=
    ⟨"import { React } from 'a';\nexport default <p/>".toList,
      "import { React } from 'a';\nexport default React.createElement(\"p\", null)".toList, by decide +kernel⟩
  obtain ⟨tree, parsed, shape⟩ := Option.map_eq_some_iff.mp shape
  obtain ⟨lowered, loweredParsed, bound'⟩ := Option.map_eq_some_iff.mp bound
  obtain ⟨code, transpiled⟩ := Option.isSome_iff_exists.mp transpiled
  obtain ⟨edited, shape⟩ := Prod.mk.inj shape
  obtain ⟨edits, bound⟩ := Prod.mk.inj shape
  obtain ⟨result, parsed', -, boundOnce⟩ := @factory_bound_once_iff (.ofFramework {}) false source code tree (by decide)
    (by decide) (by decide) (by rw [untyped]; exact parsed) (Nat.le_of_eq bound)
    (List.ne_nil_of_length_pos (edits ▸ Nat.one_pos)) transpiled lowered (edited ▸ loweredParsed)
    (bound'.trans bound.symm) (edited ▸ plain) (fun hasLine => by rw [edited, noLine] at hasLine; cases hasLine)
  refine ⟨source, tree, code, result, parsed, bound, transpiled, parsed', fun one => ?_⟩
  have binds := (boundOnce.mp one).mpr bound
  rw [edited] at binds
  exact absurd (noBinding.symm.trans binds) Bool.false_ne_true

end Markup

end LiveComponent
