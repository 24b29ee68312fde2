import LiveComponent.Proofs.LayoutTypes

namespace LiveComponent

/-!
# The layout of functions and classes
-/

namespace Parser

open Tree (Fits Laid)

variable
  {size low start : Nat}
  {moved : Bool}
  {form : FunctionForm}
  {name decorated key : Tree}

/-! ## Functions -/

theorem extends_functionRest
    {isAsync isGenerator needsBody : Bool} :
    Extends size low start moved [name] (functionRest start form isAsync isGenerator needsBody name) true
      wholeTree := by
  have signed {next : Tree → Tree → Tree → P (List Tree)}
      (lays : ∀ low start generics all result, Extends size low start true [generics, all, result]
        (next generics all result) true id) :
      Lays size true
        (do
          let generics ← typeParameters
          let all ← parameterList
          let result ← resultAnnotation
          next generics all result) id :=
    .of_extends fun _ _ => .bind lays_typeParameters fun generics => .bind lays_parameterList fun all =>
      .bind lays_resultAnnotation fun result => lays _ _ generics all result
  refine .step lays_get fun state => .bind (Lays.withFlags (signed fun _ _ generics all result => ?_)) fun parts => ?_
  · refine .step (lays_atMark "\x7b") fun hasBody => .ite ?_ (.ite .fail ?_)
    · exact .bind (lays_want .functionBody) fun body => .pure rfl
    · exact .replace [generics, all, result, .absent] (.insert [generics, all, result] [] trivial) (.pure rfl)
  · exact .sometimes lays_endStatement fun _ => .step (lays_faultIf _) fun _ => .step (lays_faultIf _) fun _ =>
      .whole rfl fun _ _ => trivial

theorem extends_functionLike
    {isAsync needsName : Bool} :
    Extends size low start moved [] (functionLike start form isAsync needsName) true wholeTree := by
  refine .step (lays_expectWord "function") fun _ => .step (lays_eat "*") fun isGenerator =>
    .step lays_get fun state => .ite ?_ (.ite .fail ?_)
  · exact .step lays_takeWord fun text => .step (lays_checkName _ _) fun _ =>
      .andThen (.nodeAfter [] rfl trivial) fun name => extends_functionRest
  · exact .replace [.absent] (.insert [] [] trivial) extends_functionRest

theorem lays_atAsyncFunction :
    Lays size false atAsyncFunction noTrees :=
  .of_extends fun _ _ => .step (lays_atWord "async") fun _ => .ite (.lastly (lays_ahead _)) (.pure rfl)

theorem lays_methodFunction
    {role : MethodRole}
    {isAsync isGenerator needsBody : Bool} :
    Lays size true (methodFunction role isAsync isGenerator needsBody) oneTree :=
  .of_extends fun _ _ => .here fun _ => .replace [.absent] (.insert [] [] trivial)
    (.andThen (Extends.tree extends_functionRest) fun _ => .step (lays_faultIf _) fun _ => .pure rfl)

/-! ## Classes -/

theorem lays_memberKey
    (found : List Modifier) :
    Lays size true (memberKey found) fun key => [key.1] := by
  refine .of_extends fun _ _ => .bind lays_propertyKey fun named => ?_
  obtain ⟨key, computed⟩ := named
  exact .step (lays_faultIf _) fun _ => .step lays_get fun state => .step (lays_faultIf _) fun _ => .pure rfl

/-- The parts of an expression with type arguments lie where the expression lies. -/
theorem laid_splitArguments
    {high : Nat}
    {tree : Tree}
    (laid : Laid low [tree] high) :
    Laid low [(splitArguments tree).1, (splitArguments tree).2] high := by
  unfold splitArguments
  split
  · exact laid.children_node
  · exact laid.insert [_] [] trivial

theorem extends_fieldRest
    {place : Nat}
    {found : List Modifier}
    {computed isOptional : Bool} :
    Extends size low start moved [decorated, key] (fieldRest place decorated found key computed isOptional) false
      oneTree :=
  .step lays_get fun _ => .choice (lays_eat "!") (lays_pure false) fun _ =>
    .bind lays_typeAnnotation fun _ => .step (lays_eat "=") fun _ =>
      .choice (lays_want _).withFlags lays_absent fun _ => .step lays_endStatement fun _ =>
        .step (lays_faultIf _) fun _ => .node rfl trivial

theorem lays_classMember :
    Lays size false classMember oneTree := by
  refine .of_extends fun _ _ => .step lays_here fun _ => .bind lays_decorators fun decorated =>
    .step lays_modifiers fun found => .step lays_get fun state => .step (lays_faultIf _) fun _ =>
      .step (lays_ahead _) fun opensBlock => .ite ?_ ?_
  · refine .step lays_advance fun _ => .step (lays_faultIf _) fun _ =>
      .bind (lays_want .block).withFlags fun block => ?_
    obtain ⟨kind, span, children⟩ := block
    exact .replace children (fun laid => (laid.right [decorated]).children_node) (.node rfl trivial)
  refine .step lays_accessorRole? fun role? => ?_
  split
  · refine .bind (lays_memberKey found) fun named => ?_
    obtain ⟨key, computed⟩ := named
    exact .step (lays_faultIf _) fun _ => .step (lays_faultIf _) fun _ =>
      .bind lays_methodFunction fun function => .node rfl trivial
  refine .step lays_opensIndexSignature fun indexes => .ite ?_ ?_
  · exact .step (lays_faultIf _) fun _ => .drop (.lastly (lays_indexSignature _ _))
  refine .step (lays_eat "*") fun isGenerator => .bind (lays_memberKey found) fun named => ?_
  obtain ⟨key, computed⟩ := named
  refine .choice (lays_eat "?") (lays_pure false) fun isOptional => .step (lays_atOneOf _) fun isMethod => .ite ?_ ?_
  · exact .step (lays_faultIf _) fun _ => .bind lays_methodFunction fun function => .node rfl trivial
  · exact .step (lays_faultIf _) fun _ => extends_fieldRest

theorem lays_classBody :
    Lays size true classBody oneTree := by
  refine .of_extends fun _ _ => .step lays_here fun _ => .step (lays_expect "\x7b") fun _ =>
    .bind (.of_extends fun _ _ => .rounds List.reverse rfl fun members => ?_) fun members =>
      .step (lays_expect "\x7d") fun _ => .node rfl trivial
  exact .step (lays_eat ";") fun _ => .ite (.pure rfl)
    (.step (lays_atMark "\x7d") fun _ => .ite (.pure rfl) (.bind lays_classMember fun member => .pure (by simp)))

theorem lays_implementedTypes :
    Lays size false implementedTypes id := by
  refine .of_extends fun _ _ => .step (lays_eatWord "implements") fun _ => .ite ?_ (.pure rfl)
  refine .lastly (lays_separated (show Lays size true _ _ from .of_extends fun _ _ => ?_))
  exact .step lays_here fun _ => .bind lays_typeName fun name => .bind lays_typeArguments fun arguments =>
    .node rfl trivial

theorem extends_classLike
    {abstracted needsName : Bool} :
    Extends size low start moved [decorated] (classLike decorated start form abstracted needsName) true wholeTree := by
  refine .step (lays_expectWord "class") fun _ => .step lays_get fun state =>
    .bind (lays_optionalPart _ lays_bindingName) fun name => .step (lays_faultIf _) fun _ =>
      .bind lays_typeParameters fun generics => .step (lays_eatWord "extends") fun derives => ?_
  extract_lets rest
  have goesOn (parts : Tree × Tree) :
      Extends size low start true [decorated, name, generics, parts.1, parts.2] (rest parts) true wholeTree := by
    obtain ⟨superclass, arguments⟩ := parts
    exact .bind lays_implementedTypes fun implemented => .step (lays_faultIf _) fun _ =>
      .bind lays_classBody.withFlags fun body => .whole rfl fun _ _ => trivial
  clear_value rest
  refine .ite (.bind (lays_want .leftHand) fun tree => ?_) ?_
  · refine .replace [decorated, name, generics, (splitArguments tree).1, (splitArguments tree).2]
      (fun laid => laid.last [decorated, name, generics] laid_splitArguments) ?_
    generalize splitArguments tree = parts
    obtain ⟨superclass, arguments⟩ := parts
    refine .ite (.bind lays_typeArguments fun given => ?_) (.passing (.passing (goesOn (superclass, arguments))))
    exact .replace [decorated, name, generics, superclass, given]
      (fun laid => laid.last [decorated, name, generics, superclass] (.right [arguments]))
      (.passing (goesOn (superclass, given)))
  · exact .passing (.replace [decorated, name, generics, .absent, .absent]
      (fun laid => (laid.insertAbsent [decorated, name, generics] []).insertAbsent [decorated, name, generics, .absent] [])
      (goesOn (.absent, .absent)))

end Parser

end LiveComponent
