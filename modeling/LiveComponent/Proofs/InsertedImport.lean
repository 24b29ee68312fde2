import LiveComponent.Proofs.DirectiveReading
import LiveComponent.Proofs.ImportLines
import LiveComponent.Proofs.ModuleReading

namespace LiveComponent

/-!
# Imports among the statements of a source

A line that imports a name is put in front of a source, or behind a directive at its head.  The source is then still a
module, with the import among its statements, and all other statements are those of the source.
-/

namespace Parser

open Lexer

variable
  {typed : Bool}
  {source source' text rest : Text}
  {state after : State}
  {tree : Tree}
  {trees : List Tree}

/-! ## A directive at the head -/

/-- A character of a string in any quotes that stands for itself. -/
def isPlain (c : Char) : Bool :=
  isLetter c && c != '\''

/-- A string of plain characters is read between its quotes. -/
theorem read_plainString
    {quote : Char}
    {body : Text}
    (quotes : quote = '"' ∨ quote = '\'')
    (plain : body.all isPlain = true)
    (rest : Text) :
    Lexer.read (quote :: (body ++ quote :: rest)) = ⟨.string body false, body.length + 2, true⟩ := by
  have inside {count : Nat} (enough : body.length < count) :
      readStringBody quote count (body ++ quote :: rest) = some (body.map Char.toNat, body.length) := by
    induction body generalizing count with
    | nil =>
        obtain ⟨count, rfl⟩ := Nat.exists_eq_succ_of_ne_zero (Nat.ne_zero_of_lt enough)
        rcases quotes with rfl | rfl <;> rfl
    | cons c body inductionHypothesis =>
        obtain ⟨count, rfl⟩ := Nat.exists_eq_succ_of_ne_zero (Nat.ne_zero_of_lt enough)
        rw [List.all_cons, Bool.and_eq_true] at plain
        have further := inductionHypothesis plain.2 (Nat.lt_of_succ_lt_succ enough)
        simp only [isPlain, isLetter, Bool.and_eq_true, bne_iff_ne] at plain
        obtain ⟨⟨⟨⟨⟨double, backslash⟩, feed⟩, carriage⟩, single⟩, -⟩ := plain
        rw [List.cons_append, readStringBody]
        · rcases quotes with rfl | rfl <;> simp [double, single, feed, carriage, further]
        · exact backslash
  have string : readString quote (body ++ quote :: rest) = ⟨.string body false, body.length + 2, true⟩ := by
    rw [readString, inside (by rw [List.length_append]; omega)]
    simp only [textOfPoints_toNat]
  rcases quotes with rfl | rfl <;> exact string

/-- A visible character starts a token. -/
theorem startOf_visible
    {c : Char}
    (visible : isVisible c = true)
    (text : Text) :
    startOf (c :: text) = ⟨c :: text, 0, false, .none, true⟩ := by
  simp only [isVisible, Bool.and_eq_true, Bool.not_eq_true', bne_iff_ne] at visible
  have slash : (c == '/') = false := beq_eq_false_iff_ne.mpr visible.2
  simp [startOf, skip, visible.1.1, visible.1.2, slash]

/-- A line at the head of a text that holds a directive: blanks, the quoted text, perhaps a semicolon, and blanks up
to the end of the line. -/
structure HeadLine where
  blanks : Text
  quote : Char
  body : Text
  semicolon : Bool
  gaps : Text
  blank : ∀ c ∈ blanks, isGap c = true
  quotes : quote = '"' ∨ quote = '\''
  plain : body.all isPlain = true
  gap : ∀ c ∈ gaps, isGap c = true
  ends : '\n' ∈ gaps

namespace HeadLine

/-- The directive with the text behind it. -/
def directiveText (line : HeadLine) (rest : Text) : Text :=
  line.quote :: (line.body ++ line.quote :: ((if line.semicolon then [';'] else []) ++ (line.gaps ++ rest)))

/-- The line with the text behind it. -/
def inFront (line : HeadLine) (rest : Text) : Text :=
  line.blanks ++ line.directiveText rest

/-- The tokens of the line. -/
def spelled (line : HeadLine) : List Token :=
  .string line.body false :: if line.semicolon then [.mark ";"] else []

variable {line : HeadLine}

theorem isVisible_quote :
    isVisible line.quote = true := by
  rcases line.quotes with quote | quote <;> rw [quote] <;> decide

theorem firstReading_directiveText
    (rest : Text) :
    firstReading (line.directiveText rest) = ⟨.string line.body false, line.body.length + 2, true⟩ := by
  rw [firstReading, directiveText, startOf_visible isVisible_quote]
  exact read_plainString line.quotes line.plain _

theorem spells_directiveText
    (rest : Text) :
    Spells line.spelled (line.directiveText rest) (line.gaps ++ rest) := by
  have reading := line.firstReading_directiveText rest
  have sound : isSound (line.directiveText rest) = true := by
    rw [isSound, reading, directiveText, startOf_visible isVisible_quote]
    rfl
  have later : behind (line.directiveText rest) =
      (if line.semicolon then [';'] else []) ++ (line.gaps ++ rest) := by
    rw [behind, reading, directiveText, startOf_visible isVisible_quote, List.drop_succ_cons, ← List.singleton_append,
      ← List.append_assoc]
    exact List.drop_left' (by rw [List.length_append, List.length_singleton])
  refine ⟨congrArg Reading.token reading, sound, ?_⟩
  rw [later]
  cases line.semicolon with
  | false => exact rfl
  | true => exact spells_bracket ';' (by decide) _

end HeadLine

/-- A directive stands at the state, and no semicolon on another line belongs to it. -/
def State.onDirective (state : State) : Bool :=
  state.token.isString && state.next.endsStatement && !(state.next.newline && state.next.token.isMark ";")

/-- The directive of a line at the head of a text is read, and the parser goes on behind the line. -/
theorem reads_headLine
    {line : HeadLine}
    (reached : Reached typed source state (line.directiveText rest))
    (ends : line.semicolon = false → state.next.endsStatement = true ∧ state.next.token.isMark ";" = false)
    (depth : Nat) :
    ∃ statement middle span, state.token.isString = true ∧
      reach (depth + 6) (.statement false) state = some (statement, middle) ∧
      directive? state.here statement = some (.node (.directive line.body) span []) ∧
      Reached typed source middle rest := by
  have reading := line.firstReading_directiveText rest
  have token : state.token = .string line.body false := reached.opens.stands.1.trans (congrArg Reading.token reading)
  have filled : 0 < state.budget := by
    rw [reached.budget]
    exact Nat.succ_pos _
  have named : (state.here.drop 1).take (state.stop - state.start - 2) = line.body := by
    rw [reached.opens.here, reached.opens.stop, reading, Nat.add_sub_cancel_left, HeadLine.directiveText,
      startOf_visible HeadLine.isVisible_quote]
    exact List.take_left' rfl
  have string : state.token.isString = true := by
    rw [token]
    rfl
  obtain ⟨after, runs, reached'⟩ := reached.runs (line.spells_directiveText rest) (List.cons_ne_nil _ _)
  obtain ⟨closed, last⟩ : state.next.endsStatement = true ∧ state.next.ended = after := by
    obtain ⟨-, runs⟩ := runs
    cases semicolon : line.semicolon with
    | false =>
        rw [semicolon] at runs
        obtain rfl := runs
        obtain ⟨ends, noMark⟩ := ends semicolon
        exact ⟨ends, by rw [State.ended, noMark]; rfl⟩
    | true =>
        rw [semicolon] at runs
        obtain ⟨mark, rfl⟩ := runs
        refine ⟨?_, by rw [State.ended, mark]; rfl⟩
        have ends : endsAssignment (.mark ";") = true := by decide
        rw [State.endsStatement, mark, ends]
        cases state.next.newline <;> rfl
  have read := @statement_string _ _ _ depth token filled closed false
  rw [last] at read
  refine ⟨_, after, ⟨state.start, after.lastStop⟩, string, read, ?_, reached'.blanks line.gap⟩
  rw [directive?_string]
  exact congrArg (fun text => some (Tree.node (.directive text) _ [])) named

/-- Without a semicolon, what follows the directive is the rest of its line. -/
theorem rest_of_headLine
    {line : HeadLine}
    (reached : Reached typed source state (line.directiveText rest))
    (unended : line.semicolon = false) :
    state.rest = line.gaps ++ rest := by
  obtain ⟨-, -, left⟩ := line.spells_directiveText rest
  rw [unended] at left
  exact reached.opens.stands.2.trans left.symm

/-- The line ends before the token behind the directive, if no semicolon stands between them. -/
theorem newline_of_headLine
    {line : HeadLine}
    (reached : Reached typed source state (line.directiveText rest))
    (unended : line.semicolon = false) :
    state.next.newline = true := by
  change (Lexer.skip .blank state.stop false .none state.rest).newline = true
  rw [rest_of_headLine reached unended]
  exact skip_newline_of_blanks line.gap line.ends _ _ _ _

/-- In front of the word `import` on another line, the directive ends. -/
theorem endsStatement_of_headLine
    {line : HeadLine}
    {tokens : List Token}
    (reached : Reached typed source state (line.directiveText rest))
    (unended : line.semicolon = false)
    (spells : Spells (.word "import".toList false :: tokens) rest text) :
    state.next.endsStatement = true ∧ state.next.token.isMark ";" = false := by
  have token := (passes_next state).stands.1
  rw [rest_of_headLine reached unended, (spells_blanks line.gap spells (List.cons_ne_nil _ _)).1] at token
  have ends : endsAssignment (.word "import".toList false) = true := by decide
  rw [State.endsStatement, token, newline_of_headLine reached unended, ends]
  exact ⟨rfl, rfl⟩

/-! ## The import among the statements -/

/-- The statements are the same apart from their places; strings may be directives in the first list only. -/
def AreSame (trees others : List Tree) : Prop :=
  ∃ (shift : Shift) (statements : List Tree), List.Forall₂ Stands statements trees ∧ shift.Trees statements others

/-- The tree is an import. -/
def IsImport (tree : Tree) : Prop :=
  ∃ typeOnly specifiers span children, tree = .node (.importDeclaration typeOnly specifiers) span children

/-- Behind the directives `front`, the second module has an import of the given form; its other statements are those of
the first one. -/
def HasImport (form : Tree → Prop) (front : List Text) (trees trees' : List Tree) : Prop :=
  ∃ heads heads' line later others,
    trees = heads ++ later ∧ trees' = heads' ++ line :: others ∧
      heads.map Tree.kind = front.map Kind.directive ∧ heads'.map Tree.kind = front.map Kind.directive ∧
        IsImport line ∧ form line ∧ AreSame later others

/-- The texts of the directives at the head of a module. -/
def prologue : List Tree → List Text
  | .node (.directive text) _ _ :: trees => text :: prologue trees
  | _ => []

section

variable {output : Text} {tokens : List Token} {form : Tree → Prop} {front : List Text} {heads later trees' : List Tree}

theorem prologue_append
    (directives : heads.map Tree.kind = front.map Kind.directive) :
    prologue (heads ++ later) = front ++ prologue later := by
  induction front generalizing heads with
  | nil => rw [List.map_eq_nil_iff.mp directives]; rfl
  | cons text front inductionHypothesis =>
      obtain ⟨⟨kind, span, children⟩, heads, rfl, first, others⟩ := List.map_eq_cons_iff.mp directives
      obtain rfl : kind = .directive text := first
      exact congrArg (text :: ·) (inductionHypothesis others)

/-- What no directive has, a list of directives has neither. -/
theorem flatMap_of_directives
    {α : Type}
    {find : Tree → List α}
    (nothing : ∀ text span children, find (.node (.directive text) span children) = [])
    (directives : heads.map Tree.kind = front.map Kind.directive) :
    heads.flatMap find = [] := by
  induction front generalizing heads with
  | nil => rw [List.map_eq_nil_iff.mp directives]; rfl
  | cons text front inductionHypothesis =>
      obtain ⟨⟨kind, span, children⟩, heads, rfl, first, others⟩ := List.map_eq_cons_iff.mp directives
      obtain rfl : kind = .directive text := first
      rw [List.flatMap_cons, nothing, inductionHypothesis others]
      rfl

/-- The import exports nothing. -/
theorem exportedNames_of_import
    {line : Tree}
    (imports : IsImport line) :
    exportedNames line = [] := by
  obtain ⟨_, _, _, _, rfl⟩ := imports
  rfl

namespace HasImport

/-- The directives before the import are those of the module, and the other ones are none any more. -/
theorem prologue_eq
    (imported : HasImport form front trees trees') :
    prologue trees' = front ∧ front <+: prologue trees := by
  obtain ⟨heads, heads', line, later, others, rfl, rfl, directives, directives', ⟨_, _, _, _, rfl⟩, -⟩ :=
    imported
  rw [prologue_append directives, prologue_append directives']
  exact ⟨List.append_nil _, List.prefix_append _ _⟩

/-- What directives do not have and statements have in any place, the module with the import has as often as the module
and the import together. -/
theorem flatMap_eq
    {α : Type}
    {find : Tree → List α}
    (nothing : ∀ text span children, find (.node (.directive text) span children) = [])
    (each : ∀ {statement tree}, Stands statement tree → find tree = find statement)
    (anywhere : ∀ {shift : Shift} {tree tree'}, shift.Parts tree tree' → find tree = find tree')
    (imported : HasImport form front trees trees') :
    ∃ line, IsImport line ∧ form line ∧ trees'.flatMap find = find line ++ trees.flatMap find := by
  obtain ⟨heads, heads', line, later, others, rfl, rfl, directives, directives', imports, formed, _, _, stands, same⟩ :=
    imported
  refine ⟨line, imports, formed, ?_⟩
  rw [List.flatMap_append, List.flatMap_append, List.flatMap_cons, flatMap_of_directives nothing directives,
    flatMap_of_directives nothing directives', flatMap_of_stands each stands, same.flatMap_eq anywhere]
  rfl

/-- A module exports the same names with the import. -/
theorem exportedNames_eq
    (imported : HasImport form front trees trees') :
    trees'.flatMap exportedNames = trees.flatMap exportedNames := by
  obtain ⟨line, imports, -, same⟩ :=
    imported.flatMap_eq (fun _ _ _ => rfl) exportedNames_of_stands Parser.exportedNames_eq
  rw [same, exportedNames_of_import imports]
  rfl

end HasImport

/-- A module with an import put among its statements is a module. -/
theorem parse?_of_hasImport
    {stand : Stand}
    (imported : HasImport form front trees trees')
    (listed : directivesAndStatements atEnd (want (.statement false)) (reach (depthBound output))
      (State.initial typed output) = some (trees', after.onto stand))
    (sound : after.faulty = false)
    (settled : stand.pending = [])
    (distinct : (typed || allDistinct (trees.flatMap exportedNames)) = true) :
    parse? typed output = some (.node .program ⟨0, stand.stop⟩ trees') := by
  refine parse?_eq_some.mpr ⟨trees', _, listed, sound, settled, ?_, rfl⟩
  rw [imported.exportedNames_eq]
  exact distinct

/-- Where the source goes on with the tokens, an import of the given form is read from them. -/
def ReadsImport (form : Tree → Prop) (output : Text) (tokens : List Token) : Prop :=
  ∀ {goals : Goal → Step Tree} {state after : State}, state.budget = output.length + 2 →
    Runs (.word "import".toList false :: tokens) state after →
      ∃ line, statement false goals state = some (line, after) ∧ IsImport line ∧ form line

/-- A line that imports a name is read as its import. -/
theorem readsImport_importTokens
    {name : Text}
    (free : Token.isFree name = true)
    (path output : Text) :
    ReadsImport (IsImportOf name path) output (importTokens name path).tail := by
  intro goals state after _ runs
  obtain ⟨line, read, imports⟩ := @statement_import goals state after _ _ runs free false
  refine ⟨line, read, ?_, imports⟩
  obtain ⟨span, place, place', rfl⟩ := imports
  exact ⟨_, _, _, _, rfl⟩

/-- From an import on, the statements are the import and those of what follows. -/
theorem chain_of_import
    {gaps : Text}
    {middle : State}
    (start : Reached typed output state text)
    (spells : Spells (.word "import".toList false :: tokens) text (gaps ++ rest))
    (gap : ∀ c ∈ gaps, isGap c = true)
    (reads : ReadsImport form output tokens)
    (reached : Reached typed source middle rest)
    (chain : Chain (depthBound source) middle trees after) :
    state.token.isString = false ∧ ∃ line others stand,
      Chain (depthBound output) state (line :: others) (after.onto stand) ∧ IsImport line ∧ form line ∧
        (∃ shift : Shift, shift.Trees trees others) ∧ (after.pending = [] → stand.pending = []) ∧
          others.length ≤ output.length := by
  have token := start.opens.stands.1.trans spells.1
  have noEnd : state.token ≠ .eof := by
    rw [token]
    exact nofun
  obtain ⟨behindLine, runs, reached'⟩ := start.runs spells (List.cons_ne_nil _ _)
  obtain ⟨shift, others, stand, chain', same, settled, -, short⟩ := reached.chain (reached'.blanks gap) chain
  obtain ⟨depth, deep⟩ : ∃ depth, depthBound output = depth + 1 := ⟨depthBound output - 1, by unfold depthBound; omega⟩
  obtain ⟨line, read, imports, formed⟩ := @reads (reach depth) _ _ start.budget runs
  have wanted : reach (depthBound output) (.statement false) state = some (line, behindLine) := by
    rw [deep]
    exact read
  refine ⟨by rw [token]; rfl, line, others, stand, .cons noEnd wanted chain', imports, formed, ⟨shift, same⟩, settled, short⟩

/-- An import is put in front of a source. -/
theorem parse?_inserted_first
    {gaps : Text}
    (parsed : parse? typed source = some tree)
    (plain : namesNoInterpreter source = true)
    (plain' : namesNoInterpreter output = true)
    (spells : Spells (.word "import".toList false :: tokens) output (gaps ++ source))
    (gap : ∀ c ∈ gaps, isGap c = true)
    (reads : ReadsImport form output tokens) :
    ∃ tree', parse? typed output = some tree' ∧ HasImport form [] tree.children tree'.children := by
  obtain ⟨trees, last, listed, sound, settled, distinct, rfl⟩ := parse?_eq_some.mp parsed
  obtain ⟨read, chain, ends, stands⟩ := chain_of_directivesAndStatements listed
  have start := reached_initial typed plain'
  obtain ⟨noString, line, others, stand, whole, imports, formed, ⟨shift, same⟩, settled', short⟩ :=
    chain_of_import start spells gap reads (reached_initial typed plain) chain
  have listed' := directivesAndStatements_of_chain noString whole ends (by
    rw [start.budget, List.length_cons]
    omega)
  have imported : HasImport form [] trees (line :: others) :=
    ⟨[], [], line, trees, others, rfl, rfl, rfl, rfl, imports, formed, shift, read, stands, same⟩
  exact ⟨_, parse?_of_hasImport imported listed' sound (settled' settled) distinct, imported⟩

/-- An import is put behind a directive at the head of a source. -/
theorem parse?_inserted_second
    {line : HeadLine}
    {more gaps : Text}
    (parsed : parse? typed (line.inFront rest) = some tree)
    (plain : namesNoInterpreter (line.inFront rest) = true)
    (plain' : namesNoInterpreter (line.inFront more) = true)
    (onDirective : (State.initial typed (line.inFront rest)).onDirective = true)
    (spells : Spells (.word "import".toList false :: tokens) more (gaps ++ rest))
    (gap : ∀ c ∈ gaps, isGap c = true)
    (reads : ReadsImport form (line.inFront more) tokens) :
    ∃ tree', parse? typed (line.inFront more) = some tree' ∧
      HasImport form [line.body] tree.children tree'.children := by
  obtain ⟨trees, last, listed, sound, settled, distinct, rfl⟩ := parse?_eq_some.mp parsed
  have begins := (reached_initial typed plain).blanks line.blank
  have begins' := (reached_initial typed plain').blanks line.blank
  obtain ⟨depth, deep⟩ : ∃ depth, depthBound (line.inFront rest) = depth + 6 :=
    ⟨depthBound (line.inFront rest) - 6, by unfold depthBound; omega⟩
  obtain ⟨depth', deep'⟩ : ∃ depth, depthBound (line.inFront more) = depth + 6 :=
    ⟨depthBound (line.inFront more) - 6, by unfold depthBound; omega⟩
  -- the directive is read in both sources
  obtain ⟨statement, middle, span, isString, read, directive, reached⟩ := reads_headLine begins (fun unended => by
    rw [State.onDirective, newline_of_headLine begins unended, Bool.true_and, Bool.and_eq_true, Bool.and_eq_true,
      Bool.not_eq_true'] at onDirective
    exact ⟨onDirective.1.2, onDirective.2⟩) depth
  obtain ⟨statement', middle', span', isString', read', directive', reached'⟩ := reads_headLine begins'
    (fun unended => endsStatement_of_headLine begins' unended spells) depth'
  rw [← deep] at read
  rw [← deep'] at read'
  obtain ⟨others, later, rfl, chain, ends, stands⟩ := chain_of_directive isString read directive listed
  obtain ⟨noString, importing, others', stand, whole, imports, formed, ⟨shift, same⟩, settled', short⟩ :=
    chain_of_import reached' spells gap reads reached chain
  have listed' := directivesAndStatements_of_directive isString' read' directive' noString whole ends
    (by rw [begins'.budget]; omega) (by rw [reached'.budget, List.length_cons]; omega)
  have imported : HasImport form [line.body] (.node (.directive line.body) span [] :: later)
      (.node (.directive line.body) span' [] :: importing :: others') :=
    ⟨[_], [_], importing, later, others', rfl, rfl, rfl, rfl, imports, formed, shift, others, stands, same⟩
  exact ⟨_, parse?_of_hasImport imported listed' sound (settled' settled) distinct, imported⟩

end

end Parser

end LiveComponent
