import LiveComponent.Normalization
import LiveComponent.Proofs.FactoryBinding
import LiveComponent.Proofs.TextParts

namespace LiveComponent

/-!
# Import clauses

A clause that lists plain names, some of them renamed, is written so that it is read as an import that binds exactly
the names after renaming.
-/

namespace Parser

open Lexer

/-! ## Entries -/

/-- The entry is a name, or a name and, behind `as`, another one. -/
def isPlainEntry (entry : Text) : Bool :=
  match Text.splitAt ' ' entry with
  | [name] => isIdentifierName name && Token.isFree name
  | [name, between, renamed] =>
    isIdentifierName name && name != "type".toList && between == "as".toList && isIdentifierName renamed &&
      Token.isFree renamed
  | _ => false

/-- The name that an entry binds: its last word. -/
def entryName (entry : Text) : Text :=
  (Text.splitAt ' ' entry).getLastD []

/-- The words of an entry. -/
def entryTokens (entry : Text) : List Token :=
  (Text.splitAt ' ' entry).map fun word => .word word false

variable
  {goals : Goal → Step Tree}
  {state after : State}
  {entry rest path : Text}
  {entries : List Text}

/-- The two forms of an entry. -/
theorem exists_of_isPlainEntry
    (plain : isPlainEntry entry = true) :
    (isIdentifierName entry = true ∧ Token.isFree entry = true ∧ entryName entry = entry ∧
        Text.splitAt ' ' entry = [entry] ∧ entryTokens entry = [.word entry false]) ∨
      ∃ name renamed, entry = name ++ ' ' :: ("as".toList ++ ' ' :: renamed) ∧ isIdentifierName name = true ∧
        name ≠ "type".toList ∧ isIdentifierName renamed = true ∧ Token.isFree renamed = true ∧
          entryName entry = renamed ∧ Text.splitAt ' ' entry = [name, "as".toList, renamed] ∧
            entryTokens entry = [.word name false, .word "as".toList false, .word renamed false] := by
  have joined := Text.joinWith_splitAt ' ' entry
  unfold isPlainEntry at plain
  unfold entryName entryTokens
  split at plain
  next name parts =>
    rw [parts] at joined ⊢
    obtain rfl : name = entry := joined
    rw [Bool.and_eq_true] at plain
    exact .inl ⟨plain.1, plain.2, rfl, rfl, rfl⟩
  next name between renamed parts =>
    rw [parts] at joined ⊢
    simp only [Bool.and_eq_true, bne_iff_ne, beq_iff_eq] at plain
    obtain ⟨⟨⟨⟨isName, noType⟩, rfl⟩, isName'⟩, free⟩ := plain
    refine .inr ⟨name, renamed, ?_, isName, noType, isName', free, rfl, rfl, rfl⟩
    rw [← joined]
    simp [Text.joinWith]
  next => cases plain

/-- The words of an entry are spelled by its text. -/
theorem spelling_entry
    (plain : isPlainEntry entry = true) :
    Spelling entry (entryTokens entry) := by
  rcases exists_of_isPlainEntry plain with ⟨isName, -, -, -, tokens⟩ |
    ⟨name, renamed, text, isName, -, isName', -, -, -, tokens⟩
  · rw [tokens]
    exact spelling_name isName
  · intro rest closes
    have last := spells_space (spelling_name isName' rest closes) (List.cons_ne_nil _ _)
    have middle := spells_append (@spelling_name "as".toList (by decide) _ ⟨' ', _, rfl, by decide⟩) last
    have whole := spells_append (spelling_name isName _ ⟨' ', _, rfl, by decide⟩)
      (spells_space middle (List.cons_ne_nil _ _))
    rw [tokens, text]
    simp only [List.append_assoc, List.cons_append, List.nil_append] at whole ⊢
    exact whole

theorem takeWord_eq
    {text : Text}
    {escaped : Bool}
    (token : state.token = .word text escaped) :
    takeWord goals state = some (text, state.next) := by
  rw [takeWord, get_bind]
  refine of_choice fun choice chosen => ?_
  rw [token] at chosen
  subst chosen
  rfl

/-- A word names something in another module. -/
theorem moduleName_eq
    {text : Text}
    (token : state.token = .word text false) :
    moduleName goals state = some (.node (.name text) ⟨state.start, state.next.lastStop⟩ [], state.next) := by
  have noString : state.token.isString = false := by
    rw [token]
    rfl
  rw [moduleName, get_bind, noString]
  change propertyWord goals state = _
  rw [propertyWord, here_bind, bind_of_some (takeWord_eq token)]
  rfl

theorem declaredName_eq
    {text : Text}
    {span : Span}
    (token : ∃ before, state = State.next before ∧ before.token = .word text false)
    (free : Token.isFree text = true) :
    declaredName (.node (.name text) span []) goals state = some (.node (.binding text) span [], state) := by
  obtain ⟨before, rfl, token⟩ := token
  obtain ⟨bindable, -, checked⟩ := @takes_name goals before text token free
  have unreserved : Token.isReserved text = false := by
    rw [token] at bindable
    simpa [Token.isBindable] using bindable
  unfold declaredName
  dsimp only
  rw [unreserved]
  change (get >>= _) goals before.next = _
  rw [get_bind, next_flags, bind_of_some checked]
  rfl

/-- The tree without its places. -/
def unplaced : Tree → Tree :=
  Tree.fold fun tree parts => .made tree.kind parts

/-- What an entry is read as, apart from its places. -/
def entryTree (entry : Text) : Tree :=
  .made (.importNamed false)
    [.made (.name ((Text.splitAt ' ' entry).headD [])) [], .made (.binding (entryName entry)) []]

/-- An entry is read as an import of the name that it binds. -/
theorem importNamed_eq
    (plain : isPlainEntry entry = true)
    (runs : Runs (entryTokens entry) state after)
    (ends : after.token = .mark "," ∨ after.token = .mark "\x7d") :
    state.token.isMark "\x7d" = false ∧
      ∃ tree, importNamed goals state = some (tree, after) ∧ unplaced tree = entryTree entry := by
  have noWord (text : String) : after.token.isWord text = false := by
    rcases ends with mark | mark <;> rw [mark] <;> rfl
  have noName : (after.token.isAnyWord || after.token.isString) = false := by
    rcases ends with mark | mark <;> rw [mark] <;> rfl
  have named : atModuleName goals after = some (false, after) := by
    rw [atModuleName, get_bind, noName]
    rfl
  unfold entryTree
  rcases exists_of_isPlainEntry plain with ⟨isName, free, name, parts, tokens⟩ |
    ⟨first, renamed, text, isName, noType, isName', free, name, parts, tokens⟩
  · rw [tokens] at runs
    obtain ⟨token, rfl⟩ := runs
    let place : Span := ⟨state.start, state.next.lastStop⟩
    have read : Parser.entry goals state =
        some (⟨false, .node (.name entry) place [], .absent⟩, state.next) := by
      unfold Parser.entry
      rw [bind_of_some (moduleName_eq token), bind_of_some named, Bool.and_false, if_neg Bool.false_ne_true,
        bind_of_some (eatWord_eq_false (noWord "as"))]
      rfl
    refine ⟨by rw [token]; rfl, .node (.importNamed false) place
      [.node (.name entry) place [], .node (.binding entry) place []], ?_, by rw [name, parts]; rfl⟩
    rw [importNamed, here_bind, bind_of_some read]
    rw [get_bind]
    change (declaredName (.node (.name entry) place []) >>= _) goals state.next = _
    rw [bind_of_some (declaredName_eq ⟨state, rfl, token⟩ free)]
    rfl
  · rw [tokens] at runs
    obtain ⟨token, between, last, rfl⟩ := runs
    let place : Span := ⟨state.start, state.next.lastStop⟩
    let place' : Span := ⟨state.next.next.start, state.next.next.next.lastStop⟩
    have otherName : (first == "type".toList) = false := beq_eq_false_iff_ne.mpr noType
    have read : Parser.entry goals state =
        some (⟨false, .node (.name first) place [], .node (.name renamed) place' []⟩, state.next.next.next) := by
      have isName : atModuleName goals state.next = some (true, state.next) := by
        rw [atModuleName, get_bind, between]
        rfl
      unfold Parser.entry
      rw [bind_of_some (moduleName_eq token), bind_of_some isName]
      simp only [Tree.kind, otherName, Bool.false_and, Bool.false_eq_true, if_false]
      rw [bind_of_some (eatWord_eq_true between)]
      change (moduleName >>= _) goals state.next.next = _
      rw [bind_of_some (moduleName_eq last)]
      rfl
    refine ⟨by rw [token]; rfl, .node (.importNamed false) ⟨state.start, state.next.next.next.lastStop⟩
      [.node (.name first) place [], .node (.binding renamed) place' []], ?_, by rw [name, parts]; rfl⟩
    rw [importNamed, here_bind, bind_of_some read]
    rw [get_bind]
    change (declaredName (.node (.name renamed) place' []) >>= _) goals state.next.next.next = _
    rw [bind_of_some (declaredName_eq ⟨state.next.next, rfl, last⟩ free)]
    rfl

/-! ## Lists of entries -/

/-- The entries of a list in braces are read one by one. -/
theorem importList_eq
    (plain : ∀ entry ∈ entries, isPlainEntry entry = true)
    (large : entries.length ≤ state.budget)
    (runs : Runs (.mark "\x7b" :: (commas (entries.map entryTokens) ++ [Token.mark "\x7d"])) state after) :
    ∃ all, importList goals state = some (all, after) ∧ all.map unplaced = entries.map entryTree := by
  obtain ⟨opens, inside⟩ := runs
  obtain ⟨middle, inner, closes, rfl⟩ := runs_append.mp inside
  have noStar : state.token.isMark "*" = false := by
    rw [opens]
    rfl
  have opening : state.token.isMark "\x7b" = true := by
    rw [opens]
    rfl
  have closing : middle.token.isMark "\x7d" = true := by
    rw [closes]
    rfl
  let parts : List (List Token × Tree) := entries.map fun entry => (entryTokens entry, entryTree entry)
  have tokens : parts.map Prod.fst = entries.map entryTokens := List.map_map ..
  have trees : parts.map Prod.snd = entries.map entryTree := List.map_map ..
  have each : ∀ part ∈ parts, ∀ {start behind : State}, state.next.Alike start → Runs part.1 start behind →
      (behind.token = .mark "," ∨ behind.token = .mark "\x7d") →
        start.token.isMark "\x7d" = false ∧
          ∃ found, importNamed goals start = some (found, behind) ∧ unplaced found = part.2 := by
    intro part among start behind _ runs ends
    obtain ⟨entry, member, rfl⟩ := List.mem_map.mp among
    exact importNamed_eq (plain entry member) runs ends
  have large : parts.length ≤ state.next.budget := by
    rw [List.length_map]
    exact large
  obtain ⟨all, listed, same⟩ := commaList_eq rfl each large (tokens ▸ inner) closes
  refine ⟨all, ?_, same.trans trees⟩
  rw [importList, atMark_bind, noStar, if_neg Bool.false_ne_true, bind_of_some (expect_eq opening),
    bind_of_some listed]
  change (expect "\x7d" >>= _) goals middle = _
  rw [bind_of_some (expect_eq closing)]
  rfl

/-- What a tree binds does not depend on its place. -/
theorem bound_unplaced (tree : Tree) :
    bound (unplaced tree) = bound tree := by
  induction tree with
  | node kind span children inductionHypothesis =>
      rw [unplaced, Tree.fold_node, ← unplaced, Tree.made, bound, Tree.fold_node, Tree.fold_node, ← bound, List.map_map]
      exact congrArg (boundBy kind) (List.map_congr_left inductionHypothesis)

/-- The specifiers bind the names of their entries. -/
theorem patterns_of_entries
    {all : List Tree}
    (same : all.map unplaced = entries.map entryTree) :
    all.flatMap (fun tree => (bound tree).pattern) = entries.map entryName := by
  have bounds : all.map bound = entries.map fun entry => { pattern := [entryName entry] } := by
    have patterns : (all.map unplaced).map bound = (entries.map entryTree).map bound := congrArg _ same
    rw [List.map_map, List.map_map] at patterns
    refine (List.map_congr_left fun tree _ => (bound_unplaced tree).symm).trans (patterns.trans ?_)
    exact List.map_congr_left fun entry _ => rfl
  have single := (List.flatMap_map bound Bound.pattern all).symm
  rw [bounds, List.flatMap_map] at single
  exact single.trans List.map_eq_flatMap.symm

/-! ## Imports of names -/

/-- The tree is an import of the names from a module. -/
def IsImportOfNames (names : List Text) (path : Text) (tree : Tree) : Prop :=
  ∃ specifiers span place,
    tree = .node (.importDeclaration false (some (List.length specifiers))) span
      (specifiers ++ [Tree.node (.stringLiteral path false) place []]) ∧
        specifiers.flatMap (fun tree => (bound tree).pattern) = names

/-- The tokens of an import with a list in braces, perhaps behind a name. -/
def clauseTokens (default : Option Text) (entries : List Text) (path : Text) : List Token :=
  .word "import".toList false ::
    ((match default with
      | some name => [.word name false, .mark ","]
      | none => ([] : List Token)) ++
      Token.mark "\x7b" :: (commas (entries.map entryTokens) ++ [Token.mark "\x7d"]) ++
        [Token.word "from".toList false, .string path false, .mark ";"])

/-- Behind the list, the rest of an import is read to its end. -/
theorem importRest_entries
    {start : Nat}
    {all : List Tree}
    {middle : State}
    (listed : importList goals state = some (all, middle))
    (word : middle.token = .word "from".toList false)
    (string : middle.next.token = .string path false)
    (semicolon : middle.next.next.token = .mark ";") :
    ∃ span place, importRest start false .absent goals state = some (.node (.importDeclaration false (some all.length))
      span (all ++ [Tree.node (.stringLiteral path false) place []]), middle.next.next.next) := by
  refine ⟨⟨start, middle.next.next.next.lastStop⟩, ⟨middle.next.start, middle.next.next.lastStop⟩, ?_⟩
  unfold importRest
  change (importList >>= _) goals state = _
  rw [bind_of_some listed]
  rw [bind_of_some (expectWord_eq word), bind_of_some (stringLiteral_eq string),
    bind_of_some (importAttributes_eq semicolon), bind_of_some (endStatement_eq semicolon)]
  rw [List.append_nil]
  rfl

/-- Behind a name and the list, the rest of an import is read to its end. -/
theorem importRest_named
    {start : Nat}
    {all : List Tree}
    {middle : State}
    {name : Text}
    {span : Span}
    (comma : state.token = .mark ",")
    (listed : importList goals state.next = some (all, middle))
    (word : middle.token = .word "from".toList false)
    (string : middle.next.token = .string path false)
    (semicolon : middle.next.next.token = .mark ";") :
    ∃ span' place, importRest start false (.node (.binding name) span []) goals state =
      some (.node (.importDeclaration false
        (some (.node .importDefault span [.node (.binding name) span []] :: all).length)) span'
          (Tree.node .importDefault span [.node (.binding name) span []] :: all ++
            [Tree.node (.stringLiteral path false) place []]), middle.next.next.next) := by
  have isComma : state.token.isMark "," = true := by
    rw [comma]
    rfl
  refine ⟨⟨start, middle.next.next.next.lastStop⟩, ⟨middle.next.start, middle.next.next.lastStop⟩, ?_⟩
  unfold importRest
  change (eat "," >>= _) goals state = _
  rw [bind_of_some (eat_eq_true isComma)]
  change (importList >>= _) goals state.next = _
  rw [bind_of_some listed]
  change (expectWord "from" >>= _) goals middle = _
  rw [bind_of_some (expectWord_eq word), bind_of_some (stringLiteral_eq string),
    bind_of_some (importAttributes_eq semicolon), bind_of_some (endStatement_eq semicolon)]
  rw [List.append_nil]
  rfl

/-- In front of a comma, the name `type` is imported itself. -/
theorem importsTypes_comma
    (comma : state.token = .mark ",") :
    importsTypes goals state = some (false, state) := by
  rw [importsTypes, get_bind, comma]
  rfl

/-- In front of a comma, the name is imported itself and no phase of loading. -/
theorem importsInPhase_comma
    {name : Text}
    {span : Span}
    (comma : state.token = .mark ",") :
    importsInPhase (.node (.binding name) span []) goals state = some (false, state) := by
  have noStar : state.token.isMark "*" = false := by
    rw [comma]
    rfl
  have noFrom : state.token.isWord "from" = false := by
    rw [comma]
    rfl
  have noName : state.token.isBindable = false := by
    rw [comma]
    rfl
  unfold importsInPhase
  change (if (name == "defer".toList) = true then _ else _ : P _) goals state = _
  split
  · exact atMark_eq noStar
  · split
    · rw [get_bind, noFrom, noName]
      rfl
    · rfl

/-- An import with a list of plain entries is read as an import of the names that they bind. -/
theorem importDeclaration_entries
    {default : Option Text}
    (named : ∀ name ∈ default, Token.isFree name = true)
    (plain : ∀ entry ∈ entries, isPlainEntry entry = true)
    (large : entries.length ≤ state.budget)
    (runs : Runs (clauseTokens default entries path) state after) :
    ∃ tree, importDeclaration goals state = some (tree, after) ∧
      IsImportOfNames (default.toList ++ entries.map entryName) path tree := by
  obtain ⟨isImport, runs⟩ := runs
  have disguised := isDisguised_of_word isImport
  cases default with
  | none =>
      obtain ⟨middle, list, word, string, semicolon, rfl⟩ := runs_append.mp runs
      obtain ⟨all, listed, same⟩ := @importList_eq goals state.next middle entries plain large list
      obtain ⟨span, place, read⟩ := @importRest_entries goals state.next path state.start all middle listed word string
        semicolon
      have opens := list.1
      have noString : state.next.token.isString = false := by
        rw [opens]
        rfl
      have noName : state.next.token.isBindable = false := by
        rw [opens]
        rfl
      refine ⟨_, ?_, all, span, place, rfl, patterns_of_entries same⟩
      rw [importDeclaration, here_bind, bind_of_some (advance_eq disguised), get_bind, noString, noName]
      exact read
  | some name =>
      obtain ⟨middle, ⟨isName, comma, list⟩, word, string, semicolon, rfl⟩ := runs_append.mp runs
      have free := named name rfl
      obtain ⟨all, listed, same⟩ := @importList_eq goals state.next.next.next middle entries plain large list
      obtain ⟨span, place, read⟩ := @importRest_named goals state.next.next path state.start all middle name
        ⟨state.next.start, state.next.next.lastStop⟩ comma listed word string semicolon
      have noString : state.next.token.isString = false := by
        rw [isName]
        rfl
      have noEqual : state.next.next.token.isMark "=" = false := by
        rw [comma]
        rfl
      obtain ⟨bindable, -⟩ := @takes_name goals state.next name isName free
      let inFront : Span := ⟨state.next.start, state.next.next.lastStop⟩
      refine ⟨_, ?_, .node .importDefault inFront [.node (.binding name) inFront []] :: all, span, place, rfl,
        congrArg (name :: ·) (patterns_of_entries same)⟩
      rw [importDeclaration, here_bind, bind_of_some (advance_eq disguised), get_bind, noString]
      change (if state.next.token.isBindable = true then _ else _ : P _) goals state.next = _
      rw [if_pos bindable, bind_of_some (bindingName_eq isName free), bind_of_some (importsTypes_comma comma),
        Bool.and_false]
      change (get >>= _) goals state.next.next = _
      rw [get_bind, atMark_bind, noEqual, Bool.and_false]
      change (importsInPhase _ >>= _) goals state.next.next = _
      rw [bind_of_some (importsInPhase_comma comma)]
      exact read

/-- An import with a list of plain entries is a statement. -/
theorem statement_entries
    {default : Option Text}
    (named : ∀ name ∈ default, Token.isFree name = true)
    (plain : ∀ entry ∈ entries, isPlainEntry entry = true)
    (large : entries.length ≤ state.budget)
    (runs : Runs (clauseTokens default entries path) state after)
    (single : Bool) :
    ∃ tree, statement single goals state = some (tree, after) ∧
      IsImportOfNames (default.toList ++ entries.map entryName) path tree := by
  obtain ⟨tree, read, imports⟩ := @importDeclaration_entries goals state after path entries default named plain large runs
  have noCall : ["(", "."].any state.next.token.isMark = false := by
    cases default with
    | none => rw [runs.2.1]; rfl
    | some name => rw [runs.2.1]; rfl
  refine ⟨tree, ?_, imports⟩
  obtain ⟨specifiers, span, place, rfl, -⟩ := imports
  exact statement_of_importDeclaration runs.1 noCall read single

/-! ## Texts of clauses -/

/-- A string of plain characters is spelled between its quotes. -/
theorem spells_plainString
    {quote : Char}
    {body : Text}
    (quotes : quote = '"' ∨ quote = '\'')
    (plain : body.all isPlain = true)
    (rest : Text) :
    Spells [.string body false] (quote :: (body ++ quote :: rest)) rest := by
  have visible : isVisible quote = true := by
    rcases quotes with rfl | rfl <;> decide
  have reading := read_plainString quotes plain rest
  have text : body ++ quote :: rest = (body ++ [quote]) ++ rest := (List.append_assoc body [quote] rest).symm
  rw [text] at reading ⊢
  refine spells_of_read visible (reading.trans ?_)
  rw [List.length_append]
  rfl

/-- A list with an entry has a token. -/
theorem commas_entries_ne_nil
    (entry : Text)
    (more : List Text) :
    commas ((entry :: more).map entryTokens) ≠ [] := by
  have some : entryTokens entry ≠ [] := fun none =>
    Text.splitAt_ne_nil ' ' entry (List.map_eq_nil_iff.mp none)
  cases more with
  | nil => exact some
  | cons next more => exact fun none => some (List.append_eq_nil_iff.mp none).1

/-- Entries with commas between are spelled by their texts. -/
theorem spelling_entries
    (plain : ∀ entry ∈ entries, isPlainEntry entry = true)
    (filled : entries ≠ []) :
    Spelling (Text.joinWith ", ".toList entries) (commas (entries.map entryTokens)) := by
  induction entries with
  | nil => exact absurd rfl filled
  | cons entry more inductionHypothesis =>
      rw [List.forall_mem_cons] at plain
      cases more with
      | nil => exact spelling_entry plain.1
      | cons next more =>
          intro rest closes
          have further := inductionHypothesis plain.2 (List.cons_ne_nil _ _) rest closes
          have behind := spells_append (spells_bracket ',' (by decide) _)
            (spells_space further (commas_entries_ne_nil next more))
          have whole := spells_append (spelling_entry plain.1 _ ⟨',', _, rfl, by decide⟩) behind
          have text : Text.joinWith ", ".toList (entry :: next :: more) ++ rest =
              entry ++ (',' :: ' ' :: (Text.joinWith ", ".toList (next :: more) ++ rest)) := by
            change entry ++ [',', ' '] ++ Text.joinWith ", ".toList (next :: more) ++ rest = _
            rw [List.append_assoc, List.append_assoc]
            rfl
          rw [text]
          exact whole

/-- The text of an import with a list in braces, perhaps behind a name. -/
def clauseText (default : Option Text) (entries : List Text) (quote : Char) (path : Text) : Text :=
  let list := "\x7b ".toList ++ Text.joinWith ", ".toList entries ++ " \x7d".toList
  let head :=
    match default with
    | some name => name ++ ", ".toList ++ list
    | none => list
  "import ".toList ++ head ++ " from ".toList ++ [quote] ++ path ++ [quote] ++ ";".toList

/-- The text of an import spells its tokens. -/
theorem spells_clauseText
    {default : Option Text}
    {quote : Char}
    (named : ∀ name ∈ default, isIdentifierName name = true)
    (plain : ∀ entry ∈ entries, isPlainEntry entry = true)
    (filled : entries ≠ [])
    (quotes : quote = '"' ∨ quote = '\'')
    (plainPath : path.all isPlain = true)
    (rest : Text) :
    Spells (clauseTokens default entries path) (clauseText default entries quote path ++ rest) rest := by
  have semicolon := spells_bracket ';' (by decide) rest
  have string := spells_append (spells_plainString quotes plainPath _) semicolon
  have source := spells_append (@spelling_name "from".toList (by decide) _ ⟨' ', _, rfl, by decide⟩)
    (spells_space string (List.cons_ne_nil _ _))
  have closing := spells_append (spells_bracket '\x7d' (by decide) _) (spells_space source (List.cons_ne_nil _ _))
  have listed := spells_append (spelling_entries plain filled _ ⟨' ', _, rfl, by decide⟩)
    (spells_space closing (List.cons_ne_nil _ _))
  have opening := spells_append (spells_bracket '\x7b' (by decide) _)
    (spells_space listed (List.append_ne_nil_of_right_ne_nil _ (List.cons_ne_nil _ _)))
  have tokens (first last source file closing : Token) (listed : List Token) :
      first :: (listed ++ [last]) ++ [source, file, closing] =
        [first] ++ (listed ++ ([last] ++ ([source] ++ ([file] ++ [closing])))) := by
    rw [List.cons_append, List.append_assoc]
    rfl
  cases default with
  | none =>
      have whole := spells_append (@spelling_name "import".toList (by decide) _ ⟨' ', _, rfl, by decide⟩)
        (spells_space opening (List.cons_ne_nil _ _))
      have assoc (a b c d e f g h i : Text) :
          a ++ (b ++ c ++ d) ++ e ++ f ++ g ++ f ++ h ++ i = a ++ (b ++ (c ++ (d ++ (e ++ (f ++ (g ++ (f ++ (h ++ i)))))))) := by
        simp only [List.append_assoc]
      have text : clauseText none entries quote path ++ rest = _ :=
        assoc "import ".toList "\x7b ".toList (Text.joinWith ", ".toList entries) " \x7d".toList " from ".toList [quote] path
          ";".toList rest
      rw [text, clauseTokens, List.nil_append, tokens]
      exact whole
  | some name =>
      have comma := spells_append (spells_bracket ',' (by decide) _) (spells_space opening (List.cons_ne_nil _ _))
      have first := spells_append (spelling_name (named name rfl) _ ⟨',', _, rfl, by decide⟩) comma
      have whole := spells_append (@spelling_name "import".toList (by decide) _ ⟨' ', _, rfl, by decide⟩)
        (spells_space first (List.cons_ne_nil _ _))
      have assoc (a b c d e f g h i j k : Text) :
          a ++ (b ++ c ++ (d ++ e ++ f)) ++ g ++ h ++ i ++ h ++ j ++ k =
            a ++ (b ++ (c ++ (d ++ (e ++ (f ++ (g ++ (h ++ (i ++ (h ++ (j ++ k)))))))))) := by
        simp only [List.append_assoc]
      have text : clauseText (some name) entries quote path ++ rest = _ :=
        assoc "import ".toList name ", ".toList "\x7b ".toList (Text.joinWith ", ".toList entries) " \x7d".toList
          " from ".toList [quote] path ";".toList rest
      rw [text, clauseTokens, List.append_assoc, tokens]
      exact whole

end Parser

end LiveComponent
