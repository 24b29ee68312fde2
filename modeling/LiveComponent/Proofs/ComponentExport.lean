import LiveComponent.Classification
import LiveComponent.Proofs.ExportReading
import LiveComponent.Proofs.InsertedImport
import LiveComponent.Proofs.PatternMatches

namespace LiveComponent

/-!
# The export of a component

A legacy script is made a module by a line at its end, which exports the component that a text pattern finds last.  The
line is read as the only export.  It exports the component that is meant exactly if the pattern agrees with the
declarations at the top of the script.
-/

namespace Parser

open Lexer

variable
  {depth : Nat}
  {state after : State}
  {name : Text}

/-- The tokens of the default export of a variable. -/
def exportTokens (name : Text) : List Token :=
  [.word "export".toList false, .word "default".toList false, .word name false, .mark ";"]

/-- The tree is the default export of a variable. -/
def IsExportOf (name : Text) (tree : Tree) : Prop :=
  ∃ span place, tree = .node .exportDefault span [.node (.identifier name) place []]

/-- A free name is an expression on its own. -/
theorem atom?_of_isFree
    (free : Token.isFree name = true) :
    (Token.word name false).atom? = some (.identifier name) := by
  have other (word : String) (taken : Token.isFree word.toList = false) : (name == word.toList) = false := by
    apply beq_eq_false_iff_ne.mpr
    rintro rfl
    exact Bool.false_ne_true (taken.symm.trans free)
  simp only [Token.atom?, other "this" (by decide), other "null" (by decide), free, Bool.false_eq_true, if_false,
    if_true]

/-! ## The default export of a variable -/

/-- The default export of a variable is read as a statement. -/
theorem statement_exportOf
    (runs : Runs (exportTokens name) state after)
    (free : Token.isFree name = true)
    (filled : 0 < state.budget) :
    ∃ tree, reach (depth + 5) (.statement false) state = some (tree, after) ∧ IsExportOf name tree := by
  obtain ⟨isExport, isDefault, named, semicolon, rfl⟩ := runs
  have atom : state.next.next.token.atom? = some (.identifier name) := by
    rw [named]
    exact atom?_of_isFree free
  have other (word : String) (taken : (Token.word word.toList false).atom?.isNone = true) :
      state.next.next.token.isWord word = false := Token.isWord_of_atom? atom taken
  have starts : exportsExpression state.next.next.token = true := by
    simp only [exportsExpression, List.any_cons, List.any_nil, Token.isMark_of_atom? atom "@", other "function" (by decide),
      other "async" (by decide), other "class" (by decide), other "abstract" (by decide),
      other "interface" (by decide)]
    rfl
  have ends : endsAssignment state.next.next.next.token = true := by
    rw [semicolon]
    decide
  have read := @assignment_atom state.next.next _ depth atom filled ends
  exact ⟨_, statement_exportDefault isExport isDefault starts read semicolon, _, _, rfl⟩

/-! ## The only export of a module -/

/-- The variable that a statement exports by default. -/
def exportedVariable : Tree → List Text
  | .node .exportDefault _ [.node (.identifier name) _ _] => [name]
  | _ => []

/-- Nothing is exported but the variable, and this by default. -/
def ExportsOnly (name : Text) (trees : List Tree) : Prop :=
  trees.flatMap exportedNames = ["default".toList] ∧ trees.flatMap exportedVariable = [name]

/-- Whether the parser of a source of this length stands at the text, without a fault and outside of all functions. -/
def State.isAt (state : State) (typed : Bool) (length : Nat) (text : Text) : Bool :=
  decide
    (state.token = (firstReading text).token ∧ state.rest = behind text ∧ state.here = (startOf text).rest ∧
      state.notes.call = (startOf text).notes.call ∧ state.notes.function = (startOf text).notes.function ∧
      state.stop = state.start + (firstReading text).size ∧ state.faulty = !isSound text ∧
      state.budget = length + 2 ∧ state.typed = typed ∧ state.flags = outerFlags ∧ state.pending = [] ∧
      state.commas = [])

theorem reached_of_isAt
    {typed : Bool}
    {source text : Text}
    (sound : state.Sound source.length)
    (stands : state.isAt typed source.length text = true) :
    Reached typed source state text := by
  obtain ⟨token, rest, here, call, function, stop, faulty, budget, typed, flags, pending, commas⟩ :=
    of_decide_eq_true stands
  have notes : state.notes = (startOf text).notes := by
    rw [Notes.mk.injEq]
    exact ⟨call, function⟩
  exact ⟨⟨⟨token, rest⟩, here, notes, stop⟩, sound, faulty, budget, typed, flags, pending, commas⟩

/-- The text is read as the statements in front of what follows it.  An attempt at an arrow function or at type arguments
may look past the end of the text, so this is asked of the text together with what follows. -/
def ReadsBefore (typed : Bool) (text rest : Text) (trees : List Tree) : Prop :=
  ∃ statements middle,
    Chain (depthBound (text ++ rest)) (State.initial typed (text ++ rest)) statements middle ∧
      Reached typed (text ++ rest) middle rest ∧ List.Forall₂ Stands statements trees

section

variable
  {typed : Bool}
  {source text rest gaps : Text}
  {front : List Text}
  {form : Tree → Prop}
  {tree : Tree}
  {trees trees' : List Tree}

theorem exportedVariable_of_stands
    {statement : Tree}
    (stands : Stands statement tree) :
    exportedVariable tree = exportedVariable statement := by
  rcases stands with rfl | ⟨raw, found⟩
  · rfl
  · unfold directive? at found
    split at found
    next =>
      split at found <;> cases found
      rfl
    next => cases found

/-- Which variable a statement exports does not depend on its place. -/
theorem exportedVariable_eq
    {shift : Shift}
    {tree' : Tree}
    (same : shift.Parts tree tree') :
    exportedVariable tree = exportedVariable tree' := by
  cases same with
  | absent => rfl
  | @node kind _ _ _ _ _ _ _ inner _ =>
    cases kind with
    | exportDefault =>
        cases inner with
        | nil => rfl
        | absent later => cases later <;> rfl
        | @node kind _ _ _ _ _ _ _ _ later =>
            cases later with
            | nil => cases kind <;> rfl
            | absent | node => cases kind <;> rfl
    | _ => rfl

/-- The import of a name exports nothing. -/
theorem HasImport.exportsOnly
    (imported : HasImport form front trees trees')
    (exported : ExportsOnly name trees) :
    ExportsOnly name trees' := by
  obtain ⟨line, ⟨_, _, _, _, rfl⟩, -, same⟩ :=
    imported.flatMap_eq (fun _ _ _ => rfl) exportedVariable_of_stands exportedVariable_eq
  exact ⟨imported.exportedNames_eq.trans exported.1, same.trans exported.2⟩

/-- Behind statements that export nothing, the export of a variable makes a module that exports nothing else. -/
theorem parse?_exported
    (plain : namesNoInterpreter (text ++ rest) = true)
    (reads : ReadsBefore typed text rest trees)
    (exportsNothing : trees.flatMap exportedNames = [])
    (spells : Spells (exportTokens name) rest gaps)
    (gap : ∀ c ∈ gaps, isGap c = true)
    (free : Token.isFree name = true) :
    ∃ tree, parse? typed (text ++ rest) = some tree ∧ ExportsOnly name tree.children := by
  obtain ⟨statements, middle, chain, reached, stands⟩ := reads
  have start := reached_initial typed plain
  obtain ⟨after, runs, reached'⟩ := reached.runs spells (List.cons_ne_nil _ _)
  rw [← List.append_nil gaps] at reached'
  obtain ⟨ends, sound, settled⟩ := (reached'.blanks gap).ends
  obtain ⟨depth, deep⟩ : ∃ depth, depthBound (text ++ rest) = depth + 5 :=
    ⟨depthBound (text ++ rest) - 5, by unfold depthBound; omega⟩
  obtain ⟨line, read, span, place, rfl⟩ := @statement_exportOf depth middle after name runs free
    (by rw [reached.budget]; exact Nat.succ_pos _)
  rw [← deep] at read
  have more : middle.token ≠ .eof := by
    rw [runs.1]
    intro isEnd
    cases isEnd
  have whole := chain.append (.cons more read (.nil after))
  obtain ⟨shift, stand, mirrors⟩ := start.mirrors
  have small := start.size_le
  obtain ⟨all, listed, stands'⟩ := exists_of_chain whole mirrors (by unfold depthBound; omega) ends
  -- the statements before the export have no exports, whether strings among them are directives or not
  have nothing : statements.flatMap exportedNames = [] :=
    (flatMap_of_stands exportedNames_of_stands stands).symm.trans exportsNothing
  have nothing' : statements.flatMap exportedVariable = [] := by
    rw [List.flatMap_eq_nil_iff] at nothing ⊢
    intro tree among
    have none := nothing tree among
    unfold exportedVariable
    split
    next => cases none
    next => rfl
  have names : all.flatMap exportedNames = ["default".toList] := by
    rw [flatMap_of_stands exportedNames_of_stands stands', List.flatMap_append, nothing]
    rfl
  have exported : all.flatMap exportedVariable = [name] := by
    rw [flatMap_of_stands exportedVariable_of_stands stands', List.flatMap_append, nothing']
    rfl
  refine ⟨_, parse?_eq_some.mpr ⟨all, after, listed, sound, settled, ?_, rfl⟩, names, exported⟩
  rw [names]
  exact Bool.or_true _

end

end Parser

open Classification Lexer LiveComponent.Parser LiveComponent.Pattern

/-! ## Components at the top of a script -/

/-- The capitalized name that a statement declares alone, as a function, a class or a variable. -/
def declaredComponent? (tree : Tree) : Option Text :=
  let name : Tree :=
    match tree with
    | .node (.function .declaration ..) _ (name :: _) => name
    | .node (.classLike .declaration ..) _ (_ :: name :: _) => name
    | .node (.bindings ..) _ [.node (.declarator _) _ (name :: _)] => name
    | _ => .absent
  match name with
  | .node (.binding (c :: rest)) _ _ => if isCapital c then some (c :: rest) else none
  | _ => none

/-- Whether only blanks stand before the tree on its line. -/
def startsLine (source : Text) (tree : Tree) : Bool :=
  let before := (source.take tree.span.start).reverse.dropWhile fun c => c == ' ' || c == '\t'
  before.head?.all (· == '\n')

/-- The last component that is declared at the top of a script, at the start of a line. -/
def topComponent? (source : Text) (trees : List Tree) : Option Text :=
  ((trees.filter (startsLine source)).filterMap declaredComponent?).getLast?

/-- The line that exports a component, with the line before it. -/
def exportLine (name : Text) : Text :=
  "\n\nexport default ".toList ++ name ++ ";\n".toList

/-- If there is a component, then the script is made a module that exports nothing else; otherwise it is refused. -/
def ExportsComponent (typed : Bool) (source : Text) : Option Text → Prop
  | none => ∃ message, modularizeLegacy source = .error (.unsupportedFormat message)
  | some name => ∃ output tree, modularizeLegacy source = .ok output ∧ parse? typed output = some tree ∧
      ExportsOnly name tree.children

variable
  {typed : Bool}
  {source name : Text}
  {tree : Tree}

/-- The name of a component starts with a capital letter. -/
theorem capital_of_lastCapitalized?
    (last : lastCapitalized? source = some name) :
    ∃ c rest, name = c :: rest ∧ isCapital c = true := by
  obtain ⟨found, among, named⟩ := List.mem_filterMap.mp (List.mem_of_getLast? last)
  obtain ⟨inner, remembered, fits⟩ := fits_of_text? among named
  have capitalized : ∀ entry ∈ capitalizedDeclaration.remembered, entry.2 = seq (one isCapital) (many isNamePart) :=
    List.forall_mem_cons.mpr ⟨rfl, List.forall_mem_cons.mpr ⟨rfl, List.forall_mem_singleton.mpr rfl⟩⟩
  obtain rfl := capitalized _ remembered
  obtain ⟨_, rest, rfl, ⟨c, rfl, capital⟩, -⟩ := fits
  exact ⟨c, rest, rfl, capital⟩

/-- No reserved or opening word is capitalized. -/
theorem isFree_of_isCapital
    {c : Char}
    {rest : Text}
    (capital : isCapital c = true) :
    Token.isFree (c :: rest) = true := by
  have small : ∀ word ∈ Token.reservedWords ++ Token.openingWords, word.head?.any isCapital = false :=
    List.all_iff_forall_prop.mp (by decide)
  have absent : c :: rest ∉ Token.reservedWords ++ Token.openingWords := by
    intro among
    have lost := small _ among
    rw [List.head?_cons, Option.any_some, capital] at lost
    cases lost
  rw [List.mem_append, not_or] at absent
  simp [Token.isFree, Token.isReserved, absent.1, absent.2]

theorem namesNoInterpreter_exportLine
    (plain : namesNoInterpreter source = true)
    (name : Text) :
    namesNoInterpreter (Text.trimEnd source ++ exportLine name) = true := by
  obtain ⟨blanks, whole⟩ : Text.trimEnd source <+: source := by
    have suffix := List.reverse_prefix.mpr (List.dropWhile_suffix (l := source.reverse) isBlank)
    rwa [List.reverse_reverse] at suffix
  generalize Text.trimEnd source = text at whole ⊢
  subst whole
  -- the first two characters are those of the script, or the line break of the export is among them
  rcases text with _ | ⟨c, _ | ⟨d, text⟩⟩
  · rfl
  · exact congrArg not (Bool.and_false ('#' == c))
  · exact plain

/-- The line that exports a component spells its tokens. -/
theorem spells_exportLine
    (isName : isIdentifierName name = true) :
    Spells (exportTokens name) (exportLine name) ['\n'] := by
  have semicolon := spells_bracket ';' (by decide) ['\n']
  have named := spells_append (spelling_name isName _ ⟨';', _, rfl, by decide⟩) semicolon
  have byDefault := spells_append (@spelling_name "default".toList (by decide) _ ⟨' ', _, rfl, by decide⟩)
    (spells_space named (List.cons_ne_nil _ _))
  have whole := spells_append (@spelling_name "export".toList (by decide) _ ⟨' ', _, rfl, by decide⟩)
    (spells_space byDefault (List.cons_ne_nil _ _))
  have blank : ∀ c ∈ ['\n', '\n'], isGap c = true := List.forall_mem_cons.mpr ⟨rfl, List.forall_mem_singleton.mpr rfl⟩
  have line : Spells (exportTokens name)
      (['\n', '\n'] ++ ("export".toList ++ ' ' :: ("default".toList ++ ' ' :: (name ++ [';', '\n'])))) ['\n'] :=
    spells_blanks blank whole (List.cons_ne_nil _ _)
  have text : exportLine name =
      ['\n', '\n'] ++ ("export".toList ++ ' ' :: ("default".toList ++ ' ' :: (name ++ [';', '\n']))) :=
    List.append_assoc "\n\nexport default ".toList name ";\n".toList
  rw [text]
  exact line

/-- The import of the framework is put in front of a module. -/
theorem parse?_withFramework
    (parsed : parse? typed source = some tree)
    (plain : namesNoInterpreter source = true) :
    ∃ tree' form, parse? typed ("import React from \"react\";\n".toList ++ source) = some tree' ∧
      HasImport form [] tree.children tree'.children := by
  have spells : Spells (importTokens "React".toList "react".toList)
      ("import React from \"react\";\n".toList ++ source) ('\n' :: source) :=
    @Markup.spells_importLine (.ofFramework {}) (by decide) (by decide) source
  obtain ⟨tree', parsed', imported⟩ := @parse?_inserted_first _ _ _ _ _ _ ['\n'] parsed plain rfl spells
    (List.forall_mem_singleton.mpr rfl) (readsImport_importTokens (by decide) _ _)
  exact ⟨tree', _, parsed', imported⟩

theorem modularizeLegacy_of_none
    (last : lastCapitalized? source = none) :
    modularizeLegacy source =
      .error (.unsupportedFormat "legacy script declares no capitalized component to export") := by
  unfold modularizeLegacy
  rw [last]

theorem modularizeLegacy_of_last
    (last : lastCapitalized? source = some name) :
    modularizeLegacy source = .ok ((if frameworkBinding.occurs source then [] else
      "import React from \"react\";\n".toList) ++ (Text.trimEnd source ++ exportLine name)) := by
  unfold modularizeLegacy exportLine
  simp only [last]
  rw [List.append_assoc, List.append_assoc, List.append_assoc]
  rfl

/-- If the script is a module without exports whose statements are read in front of the export, then it is made a module
that exports its last component and nothing else, or refused if it has none, exactly if the last capitalized name that
the pattern finds is that of the last component. -/
theorem component_exported_iff
    (_parsed : parse? typed source = some tree)
    (exportsNothing : tree.children.flatMap exportedNames = [])
    (plain : namesNoInterpreter source = true)
    (isName : ∀ name ∈ lastCapitalized? source, isIdentifierName name = true)
    (reads : ∀ name ∈ lastCapitalized? source,
      ReadsBefore typed (Text.trimEnd source) (exportLine name) tree.children) :
    ExportsComponent typed source (topComponent? source tree.children) ↔
      lastCapitalized? source = topComponent? source tree.children := by
  -- what the pattern finds is exported in any case
  have exported : ∀ found, lastCapitalized? source = found → ExportsComponent typed source found := by
    intro found last
    cases found with
    | none =>
        exact ⟨_, modularizeLegacy_of_none last⟩
    | some name =>
        obtain ⟨c, rest, rfl, capital⟩ := capital_of_lastCapitalized? last
        have plain' := namesNoInterpreter_exportLine plain (c :: rest)
        obtain ⟨result, parsed', only⟩ := parse?_exported plain' (reads _ last) exportsNothing
          (spells_exportLine (isName _ last)) (List.forall_mem_singleton.mpr rfl) (isFree_of_isCapital capital)
        have modularized := modularizeLegacy_of_last last
        split at modularized
        next => exact ⟨_, result, modularized, parsed', only⟩
        next =>
          obtain ⟨result', _, parsed'', imported⟩ := parse?_withFramework parsed' plain'
          exact ⟨_, result', modularized, parsed'', imported.exportsOnly only⟩
  constructor
  · -- two different components cannot both be all that one module exports
    intro right
    have found := exported _ rfl
    cases last : lastCapitalized? source with
    | none =>
        rw [last] at found
        obtain ⟨_, refused⟩ := found
        cases top : topComponent? source tree.children with
        | none => rfl
        | some =>
            rw [top] at right
            obtain ⟨_, _, modularized, -⟩ := right
            cases refused.symm.trans modularized
    | some name =>
        rw [last] at found
        obtain ⟨output, result, modularized, parsed', -, only⟩ := found
        cases top : topComponent? source tree.children with
        | none =>
            rw [top] at right
            obtain ⟨_, refused⟩ := right
            cases refused.symm.trans modularized
        | some other =>
            rw [top] at right
            obtain ⟨_, _, modularized', parsed'', -, only'⟩ := right
            cases modularized.symm.trans modularized'
            cases parsed'.symm.trans parsed''
            exact congrArg List.head? (only.symm.trans only')
  · exact fun same => exported _ same

/-- Of a function and one within it, which is declared on a line of its own, the inner one is exported. -/
theorem nested_exported :
    ∃ source tree, parse? false source = some tree ∧ tree.children.flatMap exportedNames = [] ∧
      topComponent? source tree.children = some "App".toList ∧ ¬ ExportsComponent false source (some "App".toList) := by
  let inner : Text := "B".toList
  obtain ⟨source, whole, last, plain, starts, joined, shape, same, stands⟩ :
      ∃ source whole : Text, lastCapitalized? source = some inner ∧ namesNoInterpreter source = true ∧
        (State.initial false whole).token ≠ .eof ∧ Text.trimEnd source ++ exportLine inner = whole ∧
        (parse? false source).map (fun tree =>
          (tree.children.flatMap exportedNames, topComponent? source tree.children)) = some ([], some "App".toList) ∧
        (parse? false source).map Tree.children =
          (reach (depthBound whole) (.statement false) (State.initial false whole)).map (fun read => [read.1]) ∧
        (reach (depthBound whole) (.statement false) (State.initial false whole)).map (fun read =>
          read.2.isAt false whole.length (exportLine inner)) = some true :=
    ⟨"function App() \x7b\nfunction B() \x7b\x7d\n\x7d".toList,
      "function App() \x7b\nfunction B() \x7b\x7d\n\x7d\n\nexport default B;\n".toList, by decide +kernel⟩
  obtain ⟨tree, parsed, shape⟩ := Option.map_eq_some_iff.mp shape
  obtain ⟨exportsNothing, top⟩ := Prod.mk.inj shape
  obtain ⟨⟨statement, middle⟩, read, stands⟩ := Option.map_eq_some_iff.mp stands
  rw [parsed, read] at same
  have children : tree.children = [statement] := Option.some.inj same
  have start := reached_initial false (joined ▸ namesNoInterpreter_exportLine plain inner)
  have reached := reached_of_isAt ((lawful_reach _).leads start.sound read).sound stands
  have reads : ReadsBefore false (Text.trimEnd source) (exportLine inner) tree.children := by
    rw [ReadsBefore, joined, children]
    exact ⟨[statement], middle, .cons starts read (.nil middle), reached, .cons (.inl rfl) .nil⟩
  refine ⟨source, tree, parsed, exportsNothing, top, fun right => ?_⟩
  rw [← top] at right
  have found := (component_exported_iff parsed exportsNothing plain
    (fun name found => by rw [last] at found; cases found; decide)
    (fun name found => by rw [last] at found; cases found; exact reads)).mp right
  rw [last, top] at found
  have differs : "B".toList ≠ "App".toList := by decide
  exact differs (Option.some.inj found)

end LiveComponent
