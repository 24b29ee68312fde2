import LiveComponent.Proofs.DisjointEdits
import LiveComponent.Proofs.ExportReading
import LiveComponent.Proofs.FactoryBinding

namespace LiveComponent

/-!
# Modules whose markup is lowered

A module imports names and exports a function that gives markup.  With the factory call in the place of the markup, it
is a module again: the one that is meant, with the same names at its top.
-/

namespace Parser

open Lexer

/-! ## Imports and a function -/

/-- A name that is imported, with the module it comes from. -/
structure NamedImport where
  name : Text
  path : Text
  isName : isIdentifierName name = true
  free : Token.isFree name = true
  letters : path.all isLetter = true

/-- The lines that import the names. -/
def importLines (imports : List NamedImport) : Text :=
  imports.flatMap fun line => namedImport line.name line.path

/-- The lines that import the names, and the export of a function that gives the value. -/
def functionSource (imports : List NamedImport) (value tail : Text) : Text :=
  importLines imports ++ ("export default () => ".toList ++ (value ++ ';' :: tail))

/-- What stands in front of the value of the function. -/
def functionHead (imports : List NamedImport) : Text :=
  importLines imports ++ "export default () => ".toList

/-- The tree is the default export of a function without parameters that gives the value. -/
def IsFunctionOf (value tree : Tree) : Prop :=
  ∃ harmless span inner place body, tree = .node .exportDefault span
    [.node (.arrow false true harmless) inner
      [.absent, .node .parameters place [], .absent,
        .node .body body [.node .expressionStatement body [value]]]]

/-- The trees are the imports of the names. -/
def AreImports (imports : List NamedImport) (trees : List Tree) : Prop :=
  List.Forall₂ (fun line tree => IsImportOf line.name line.path tree) imports trees

variable
  {typed : Bool}
  {source text value tail : Text}
  {imports : List NamedImport}
  {state after : State}
  {tree : Tree}
  {trees lines : List Tree}

theorem functionSource_eq
    (imports : List NamedImport)
    (value tail : Text) :
    functionSource imports value tail = functionHead imports ++ (value ++ ';' :: tail) :=
  (List.append_assoc (importLines imports) ..).symm

theorem importLines_cons
    (line : NamedImport)
    (imports : List NamedImport) :
    importLines (line :: imports) = namedImport line.name line.path ++ importLines imports :=
  List.flatMap_cons

/-- The lines are read as imports. -/
theorem chain_of_importLines
    (reached : Reached typed source state (importLines imports ++ text)) :
    ∃ lines middle, Chain (depthBound source) state lines middle ∧ Reached typed source middle text ∧
      AreImports imports lines := by
  induction imports generalizing state with
  | nil => exact ⟨[], state, .nil state, reached, .nil⟩
  | cons line imports inductionHypothesis =>
      rw [importLines_cons, List.append_assoc] at reached
      have spells := spells_namedImport line.isName line.letters (importLines imports ++ text)
      obtain ⟨last, runs, behindLine⟩ := reached.runs spells (List.cons_ne_nil _ _)
      have feed : ∀ c ∈ ['\n'], isGap c = true := List.forall_mem_singleton.mpr rfl
      obtain ⟨lines, middle, chain, onText, areImports⟩ := inductionHypothesis (@Reached.blanks _ _ _ _ ['\n'] behindLine feed)
      obtain ⟨tree, read, isImport⟩ := @statement_import (reach (16 * source.length + 63)) state last _ _ runs line.free false
      have more : state.token ≠ .eof := by
        rw [runs.1]
        exact nofun
      exact ⟨tree :: lines, middle, .cons more read chain, onText, .cons isImport areImports⟩

/-- The parser goes over what stands in front of the value of the function.  From the value the export is read. -/
theorem exists_function
    (reached : Reached typed source state ("export default () => ".toList ++ text)) :
    ∃ middle, state.token = .word "export".toList false ∧ Reached typed source middle text ∧
      ∀ {depth : Nat} {value : Tree} {after : State}, middle.token.isMark "\x7b" = false → after.flags = middle.flags →
        reach depth (.assignment true) (middle.flagged (arrowFlags middle.flags)) =
          some (value, after.flagged (arrowFlags middle.flags)) →
        after.token = .mark ";" →
          ∃ tree, reach (depth + 2) (.statement false) state = some (tree, after.next) ∧ IsFunctionOf value tree := by
  let arrowText : Text := ' ' :: '=' :: '>' :: ' ' :: text
  have opened := spells_append (@spelling_name "default".toList (by decide) _ ⟨' ', _, rfl, by decide⟩)
    (spells_space (spells_bracket '(' (by decide) (')' :: arrowText)) (List.cons_ne_nil _ _))
  have front : Spells [.word "export".toList false, .word "default".toList false, .mark "("]
      ("export default () => ".toList ++ text) (')' :: arrowText) :=
    spells_append (@spelling_name "export".toList (by decide) _ ⟨' ', _, rfl, by decide⟩)
      (spells_space opened (List.cons_ne_nil _ _))
  have arrow : Spells [.mark "=>"] arrowText (' ' :: text) :=
    spells_space (@spells_of_read _ '=' ['>'] (' ' :: text) (by decide) rfl) (List.cons_ne_nil _ _)
  have back : Spells [.mark ")", .mark "=>"] (')' :: arrowText) (' ' :: text) :=
    spells_append (spells_bracket ')' (by decide) arrowText) arrow
  obtain ⟨closing, runs, onClosing⟩ := reached.runs front (List.cons_ne_nil _ _)
  obtain ⟨middle, runs', onText⟩ := onClosing.runs back (List.cons_ne_nil _ _)
  have space : ∀ c ∈ [' '], isGap c = true := List.forall_mem_singleton.mpr rfl
  obtain ⟨isExport, isDefault, opens, rfl⟩ := runs
  have left : state.next.next.next.rest = arrowText :=
    onClosing.opens.stands.2.trans (spells_bracket ')' (by decide) arrowText).2.2.symm
  have sameLine : state.next.next.next.next.newline = false := by
    change (Lexer.skip .blank state.next.next.next.stop false .none state.next.next.next.rest).newline = false
    rw [left]
    rfl
  have arrowRuns : Runs arrowTokens state.next.next middle := ⟨opens, runs'⟩
  have filled : 0 < state.next.next.budget := by
    change 0 < state.budget
    rw [reached.budget]
    exact Nat.succ_pos _
  have starts : exportsExpression state.next.next.token = true := by
    rw [opens]
    decide
  refine ⟨middle, isExport, @Reached.blanks _ _ _ _ [' '] onText space, fun noBrace kept read semicolon => ?_⟩
  have value := arrow_eq arrowRuns sameLine filled noBrace kept read
  exact ⟨_, statement_exportDefault isExport isDefault starts value semicolon, _, _, _, _, _, rfl⟩

/-- The source starts with a word. -/
theorem isString_functionSource
    (imports : List NamedImport)
    (value tail : Text) :
    (firstReading (functionSource imports value tail)).token.isString = false := by
  cases imports with
  | nil =>
      have spells := @spelling_name "export".toList (by decide) _
        ⟨' ', "default () => ".toList ++ (value ++ ';' :: tail), rfl, by decide⟩
      have first : (firstReading (functionSource [] value tail)).token = _ := spells.1
      rw [first]
      rfl
  | cons line imports =>
      rw [functionSource, importLines_cons, List.append_assoc, (spells_namedImport line.isName line.letters _).1]
      rfl

/-- The source starts with imports, which are read one by one. -/
theorem exists_front
    (typed : Bool)
    (imports : List NamedImport)
    (value tail : Text) :
    let source := functionSource imports value tail
    namesNoInterpreter source = true ∧ (State.initial typed source).token.isString = false ∧
      ∃ lines state, Chain (depthBound source) (State.initial typed source) lines state ∧ AreImports imports lines ∧
        Reached typed source state ("export default () => ".toList ++ (value ++ ';' :: tail)) := by
  have plain : namesNoInterpreter (functionSource imports value tail) = true := by
    cases imports <;> rfl
  have start := reached_initial typed plain
  obtain ⟨lines, state, chain, reached, areImports⟩ := chain_of_importLines start
  refine ⟨plain, ?_, lines, state, chain, areImports, reached⟩
  rw [start.opens.stands.1]
  exact isString_functionSource imports value tail

/-- Behind a semicolon and blanks the source ends. -/
theorem ends_of_semicolon
    (blank : ∀ c ∈ tail, isGap c = true)
    (stands : state.StandsAt (';' :: tail)) :
    state.token = .mark ";" ∧ state.next.token = .eof ∧ state.next.faulty = state.faulty := by
  have semicolon := spells_bracket ';' (by decide) tail
  have left : state.rest = tail ++ [] := (stands.2.trans semicolon.2.2.symm).trans (List.append_nil tail).symm
  refine ⟨stands.1.trans semicolon.1, (opensAt_of_blanks blank (left ▸ opensAt_next state)).stands.1, ?_⟩
  rw [(passes_next state).faulty, left, isSound_blanks blank]
  exact Bool.or_false _

/-! ## Trees of imports and a function -/

namespace AreImports

variable {α : Type}

/-- What is the same of all imports of a name is the same of the lines of two sources. -/
theorem map_eq
    {find : Tree → α}
    {others : List Tree}
    (areImports : AreImports imports lines)
    (areImports' : AreImports imports others)
    (each : ∀ {name path tree tree'}, IsImportOf name path tree → IsImportOf name path tree' → find tree = find tree') :
    lines.map find = others.map find := by
  induction areImports generalizing others with
  | nil =>
      cases areImports'
      rfl
  | cons isImport _ inductionHypothesis =>
      cases areImports' with
      | cons isImport' areImports' =>
          rw [List.map_cons, List.map_cons, each isImport isImport', inductionHypothesis areImports']

theorem isImportOf_of_mem
    (areImports : AreImports imports lines)
    (among : tree ∈ lines) :
    ∃ name path, IsImportOf name path tree := by
  induction areImports with
  | nil => cases among
  | cons isImport _ inductionHypothesis =>
      rcases List.mem_cons.mp among with rfl | among
      · exact ⟨_, _, isImport⟩
      · exact inductionHypothesis among

end AreImports

section

variable {value' tree' exported exported' : Tree} {value tree : Tree} {span span' : Span} {others : List Tree}

/-- What the functions are meant to be is told by what they give. -/
theorem IsFunctionOf.sense_eq
    (isFunction : IsFunctionOf value tree)
    (isFunction' : IsFunctionOf value' tree')
    (same : value.sense = value'.sense) :
    tree.sense = tree'.sense := by
  obtain ⟨_, _, _, _, _, rfl⟩ := isFunction
  obtain ⟨_, _, _, _, _, rfl⟩ := isFunction'
  simp [Tree.sense_node, Kind.bare, Kind.longhand, same]

/-- Modules of the same imports and of functions that are meant to be the same are meant to be the same. -/
theorem sense_program_eq
    (areImports : AreImports imports lines)
    (areImports' : AreImports imports others)
    (same : exported.sense = exported'.sense) :
    (Tree.node .program span (lines ++ [exported])).sense = (Tree.node .program span' (others ++ [exported'])).sense := by
  have each {name path : Text} {tree tree' : Tree} (isImport : IsImportOf name path tree)
      (isImport' : IsImportOf name path tree') : tree.sense = tree'.sense := by
    obtain ⟨_, _, _, rfl⟩ := isImport
    obtain ⟨_, _, _, rfl⟩ := isImport'
    simp [Tree.sense_node]
  rw [Tree.sense_node _ (by simp), Tree.sense_node _ (by simp), List.map_append, List.map_append,
    areImports.map_eq areImports' each, List.map_singleton, List.map_singleton, same]

/-- The names at the top of a module of imports and a function are the imported ones. -/
theorem moduleNames_imports
    (areImports : AreImports imports lines)
    (isFunction : IsFunctionOf value exported) :
    moduleNames (lines ++ [exported]) = imports.map NamedImport.name := by
  obtain ⟨_, _, _, _, _, rfl⟩ := isFunction
  induction areImports with
  | nil => rfl
  | cons isImport _ inductionHypothesis =>
      rw [List.cons_append, moduleNames, List.flatMap_cons, topNames_of_import isImport, List.map_cons]
      exact congrArg (_ :: ·) inductionHypothesis

/-- A module of imports and a function has one export. -/
theorem exportedNames_imports
    (areImports : AreImports imports lines)
    (isFunction : IsFunctionOf value exported) :
    (lines ++ [exported]).flatMap exportedNames = ["default".toList] := by
  obtain ⟨_, _, _, _, _, rfl⟩ := isFunction
  have nothing : ∀ line ∈ lines, exportedNames line = [] := by
    intro line among
    obtain ⟨_, _, _, _, _, rfl⟩ := areImports.isImportOf_of_mem among
    rfl
  rw [List.flatMap_append, List.flatMap_eq_nil_iff.mpr nothing]
  rfl

/-- A module of imports and a function has no directives. -/
theorem prologue_imports
    (areImports : AreImports imports lines)
    (isFunction : IsFunctionOf value exported) :
    prologue (lines ++ [exported]) = [] := by
  cases areImports with
  | nil =>
      obtain ⟨_, _, _, _, _, rfl⟩ := isFunction
      rfl
  | cons isImport _ =>
      obtain ⟨_, _, _, rfl⟩ := isImport
      rfl

end

end Parser

namespace Markup

open Lexer LiveComponent.Parser LiveComponent.Printer

section

variable {paths : Paths} {name path : Text} {value tree : Tree}

/-- Lowering what a function gives is lowering the function. -/
theorem isFunctionOf_lower
    (isFunction : IsFunctionOf value tree) :
    IsFunctionOf (lower paths value) (lower paths tree) := by
  obtain ⟨_, _, _, _, _, rfl⟩ := isFunction
  exact ⟨_, _, _, _, _, rfl⟩

/-- The outermost markup of the function is that of what it gives. -/
theorem outermost_of_isFunctionOf
    (isFunction : IsFunctionOf value tree) :
    outermost tree = outermost value := by
  obtain ⟨_, _, _, _, _, rfl⟩ := isFunction
  simp [outermost_node, isMarkup, Tree.kind, Tree.absent]

variable {imports : List NamedImport} {lines : List Tree} {span : Span} {exported : Tree}

/-- In a module of imports and a function, the function is lowered. -/
theorem lower_program
    (areImports : AreImports imports lines) :
    lower paths (.node .program span (lines ++ [exported])) = .node .program span (lines ++ [lower paths exported]) := by
  have same : lines.map (lower paths) = lines.map id := by
    refine List.map_congr_left fun line among => ?_
    obtain ⟨_, _, _, _, _, rfl⟩ := areImports.isImportOf_of_mem among
    rfl
  rw [lower_of_isMarkup_eq_false rfl, List.map_append, same, List.map_id, List.map_singleton]

/-- The outermost markup of a module of imports and a function is that of what the function gives. -/
theorem outermost_program
    (areImports : AreImports imports lines)
    (isFunction : IsFunctionOf value exported) :
    outermost (.node .program span (lines ++ [exported])) = outermost value := by
  have nothing : ∀ line ∈ lines, outermost line = [] := by
    intro line among
    obtain ⟨_, _, _, _, _, rfl⟩ := areImports.isImportOf_of_mem among
    rfl
  rw [outermost_node, if_neg (by simp [isMarkup, Tree.kind]), List.flatMap_append,
    List.flatMap_eq_nil_iff.mpr nothing, List.flatMap_singleton, outermost_of_isFunctionOf isFunction]
  rfl

end

/-! ## Lowered modules -/

variable
  {options : Options}
  {paths : Paths}
  {typed typed' : Bool}
  {imports : List NamedImport}
  {arguments : List Tree}
  {source markup tail : Text}
  {tree node exported : Tree}

/-- With a factory call as the value of the function, the source is a module. -/
theorem exists_module_of_call
    (factory : isPath paths.factory = true)
    (each : ∀ item ∈ arguments, IsArgument typed (arrowFlags outerFlags) item)
    (blank : ∀ c ∈ tail, isGap c = true)
    (imports : List NamedImport) :
    ∃ span lines value exported,
      parse? typed (functionSource imports (factoryCall paths arguments).expressionText tail) =
        some (.node .program span (lines ++ [exported])) ∧
      AreImports imports lines ∧ IsFunctionOf value exported ∧ value.sense = (factoryCall paths arguments).sense := by
  obtain ⟨plain, noString, lines, state, chain, areImports, reached⟩ :=
    exists_front typed imports (factoryCall paths arguments).expressionText tail
  obtain ⟨middle, isExport, onCall, further⟩ := exists_function reached
  obtain ⟨names, inside, tokens, parts, -, -, operand, -, -, spells⟩ := expressionText_factoryCall factory each
  obtain ⟨token, kind, more, rfl, atom⟩ := operand.opens
  have semicolon := spells_bracket ';' (by decide) tail
  have isFirst : middle.token = token := onCall.opens.stands.1.trans (spells _).1
  have sound : middle.faulty = false := onCall.faulty.trans (congrArg not (spells _).2.1)
  -- the call is read where the function wants its value
  have small := onCall.size_le
  obtain ⟨after, read, stands, faulty, flags, pending, ⟨value, found, bare⟩, meant⟩ :=
    (isReadAs_factoryCall factory each).within
      (16 * (functionSource imports (factoryCall paths arguments).expressionText tail).length + 62)
      (middle.flagged (arrowFlags middle.flags)) (';' :: tail) (.assignment true)
      (by change 16 * middle.size + 6 < _; omega) (by change middle.size < middle.budget; rw [onCall.budget]; omega)
      onCall.types (by rw [← onCall.flags]; rfl)
      ⟨onCall.opens.stands, onCall.opens.here, onCall.opens.notes, onCall.opens.stop⟩ (semicolon.1 ▸ by decide)
  let last := after.flagged middle.flags
  have flagged : last.flagged (arrowFlags middle.flags) = after := by
    change { after with flags := (middle.flagged (arrowFlags middle.flags)).flags } = after
    rw [← flags]
  have noBrace : middle.token.isMark "\x7b" = false := by
    rw [isFirst]
    exact Token.isMark_of_atom? atom "\x7b"
  obtain ⟨isSemicolon, ends, valid⟩ := @ends_of_semicolon _ last blank stands
  obtain ⟨exported, read, isFunction⟩ := @further _ value last noBrace rfl (flagged ▸ found) isSemicolon
  have onward : state.token ≠ .eof := by
    rw [isExport]
    exact nofun
  refine ⟨_, lines, value, exported, (parse?_iff_chain plain noString).mpr
    ⟨_, last.next, chain.append (.cons onward read (.nil _)), ends, ?_, pending.trans onCall.pending, ?_, rfl⟩,
    areImports, isFunction, ?_⟩
  · rw [valid]
    change after.faulty = false
    rw [faulty, semicolon.2.1, Bool.not_true, Bool.or_false]
    exact sound
  · rw [exportedNames_imports areImports isFunction]
    exact Bool.or_true typed
  · rw [Tree.sense, bare, meant]

/-- With the factory call in the place of the markup that its function gives, a module of imports and this function is a
module again.  It is the one that is meant: the tree of the source with the markup lowered.  It binds the same names and
has the same directives. -/
theorem call_stands_for_given_markup
    (factory : isPath options.factory = true)
    (fragment : isPath options.fragment = true)
    (isSource : source = functionSource imports markup tail)
    (blank : ∀ c ∈ tail, isGap c = true)
    (parsed : parse? typed source = some tree)
    (exports : tree.children.drop imports.length = [exported])
    (isFunction : IsFunctionOf node exported)
    (isMarkup : isMarkup node = true)
    (place : node.span = ⟨(functionHead imports).length, (functionHead imports).length + markup.length⟩)
    (readBack : ∀ expression, Embeds ⟨options.factory, options.fragment⟩ .code node expression →
      IsReadBack typed' (arrowFlags outerFlags) expression) :
    ∃ module, parse? typed' (Text.splice (loweringEditsOf options tree) source) = some module ∧
      module.sense = (lower ⟨options.factory, options.fragment⟩ tree).sense ∧
        moduleNames module.children = moduleNames tree.children ∧
          prologue module.children = prologue tree.children := by
  subst isSource
  obtain ⟨plain, noString, lines, state, chain, areImports, -⟩ := exists_front typed imports markup tail
  have laid : tree.IsLaid := ⟨0, _, laid_parse parsed⟩
  obtain ⟨trees, after, whole, ends, -, -, -, rfl⟩ := (parse?_iff_chain plain noString).mp parsed
  obtain ⟨later, rfl, -⟩ := chain.split whole ends
  obtain rfl : later = [exported] := by
    change (lines ++ later).drop imports.length = [exported] at exports
    rwa [areImports.length_eq, List.drop_left] at exports
  generalize module : Tree.node .program ⟨0, after.stop⟩ (lines ++ [exported]) = tree at *
  have outer : outermost tree = [node] := by
    rw [← module, outermost_program areImports isFunction]
    obtain ⟨kind, span, children⟩ := node
    rw [outermost_node, if_pos isMarkup]
  obtain ⟨exposed, -⟩ := mem_outermost_iff.mp (outer ▸ List.mem_singleton_self node)
  obtain ⟨arguments, call, each⟩ := exists_arguments factory fragment (exposed.contains.isLaid laid) isMarkup readBack
  let text := (factoryCall ⟨options.factory, options.fragment⟩ arguments).expressionText
  let edit : Edit := ⟨node.span.start, node.span.stop, text⟩
  have edits : loweringEditsOf options tree = [edit] := by
    rw [loweringEditsOf, outer, List.map_singleton, loweringEdit, call]
  have replaced : Text.Replaced 0 [edit] (functionHead imports ++ (markup ++ ';' :: tail))
      (functionHead imports ++ (edit.text ++ ';' :: tail)) :=
    .edit (by simp only [edit, place, Nat.zero_add]) (by simp only [edit, place]) (.rest _ _)
  have spliced : Text.splice (loweringEditsOf options tree) (functionSource imports markup tail) =
      functionSource imports text tail := by
    rw [edits, functionSource_eq, functionSource_eq]
    exact replaced.spliceFrom_eq
  obtain ⟨span, lines', value, exported', parsed', areImports', isFunction', same⟩ :=
    @exists_module_of_call ⟨_, options.fragment⟩ typed' arguments tail factory each blank imports
  rw [spliced, ← module]
  refine ⟨_, parsed', ?_, ?_, ?_⟩
  · rw [lower_program areImports]
    exact sense_program_eq areImports' areImports
      (isFunction'.sense_eq (isFunctionOf_lower isFunction) (same.trans (congrArg Tree.sense call).symm))
  · exact (moduleNames_imports areImports' isFunction').trans (moduleNames_imports areImports isFunction).symm
  · exact (prologue_imports areImports' isFunction').trans (prologue_imports areImports isFunction).symm

example :
    ∃ source tree module, parse? false source = some tree ∧
      parse? false (Text.splice (loweringEditsOf (.ofFramework {}) tree) source) = some module ∧
        module.sense = (lower ⟨"React.createElement".toList, "React.Fragment".toList⟩ tree).sense := by
  let react : NamedImport := ⟨"React".toList, "react".toList, by decide, by decide, by decide⟩
  let node := Tree.node (.element 0) ⟨48, 53⟩ [.node (.tagName "br".toList) ⟨49, 51⟩ [], .absent, .absent]
  let exported := Tree.node .exportDefault ⟨27, 54⟩
    [.node (.arrow false true false) ⟨42, 53⟩
      [.absent, .node .parameters ⟨42, 44⟩ [], .absent,
        .node .body ⟨48, 53⟩ [.node .expressionStatement ⟨48, 53⟩ [node]]]]
  have found : (parse? false (functionSource [react] "<br/>".toList [])).any (fun tree =>
      tree.children.drop 1 == [exported]) = true := by
    decide +kernel
  obtain ⟨tree, parsed, exports⟩ := (Option.any_eq_true ..).mp found
  obtain ⟨module, parsed', meant, -⟩ := @call_stands_for_given_markup (.ofFramework {}) false false [react] _
    "<br/>".toList [] tree node exported (by decide) (by decide) rfl nofun parsed (eq_of_beq exports)
    ⟨_, _, _, _, _, rfl⟩ rfl rfl fun expression embeds => by
      obtain ⟨text, rfl⟩ := embeds.exists_string
      exact isReadBack_string text _
  exact ⟨_, tree, module, parsed, parsed', meant⟩

end Markup

end LiveComponent
