import LiveComponent.Proofs.MarkupSplicing

namespace LiveComponent

/-!
# Lines that import a name

The line that imports the root of a factory is read, wherever a statement is wanted, as an import that binds this
name and nothing else, and the parser goes on behind it as before.
-/

namespace Parser

open Lexer

variable
  {goals : Goal → Step Tree}
  {state after : State}
  {name source : Text}

/-- The tokens of a line that imports a name. -/
def importTokens (name source : Text) : List Token :=
  [.word "import".toList false, .word name false, .word "from".toList false, .string source false, .mark ";"]

/-- The tree is the import of a name. -/
def IsImportOf (name source : Text) (tree : Tree) : Prop :=
  ∃ span place place', tree = .node (.importDeclaration false (some 1)) span
    [.node .importDefault place [.node (.binding name) place []], .node (.stringLiteral source false) place' []]

theorem ahead_eq
    {test : P Bool}
    {answer : Bool}
    (ran : test goals state = some (answer, after)) :
    ahead test goals state = some (answer, state) := by
  simp only [ahead, probe, ran]

theorem atMark_eq
    {mark : String}
    {answer : Bool}
    (isMark : state.token.isMark mark = answer) :
    atMark mark goals state = some (answer, state) := by
  rw [← isMark]
  rfl

theorem atWord_eq
    {word : String}
    {answer : Bool}
    (isWord : state.token.isWord word = answer) :
    atWord word goals state = some (answer, state) := by
  rw [← isWord]
  rfl

theorem stringLiteral_eq
    {escaped : Bool}
    (string : state.token = .string source escaped) :
    stringLiteral goals state =
      some (.node (.stringLiteral source escaped) ⟨state.start, state.next.lastStop⟩ [], state.next) := by
  have clear : state.isDisguised = false := by rw [State.isDisguised, string]
  rw [stringLiteral, get_bind]
  refine of_choice fun choice chosen => ?_
  rw [string] at chosen
  subst chosen
  change (advance >>= _) goals state = _
  rw [bind_of_some (advance_eq clear)]
  rfl

theorem expectWord_eq
    {word : String}
    (token : state.token = .word word.toList false) :
    expectWord word goals state = some ((), state.next) := by
  have isWord : state.token.isWord word = true := by
    rw [token]
    exact beq_self_eq_true _
  rw [expectWord, atWord_bind, isWord, if_pos rfl, advance_eq (isDisguised_of_word token)]

/-- A semicolon ends a statement. -/
theorem endStatement_eq
    (semicolon : state.token = .mark ";") :
    endStatement goals state = some ((), state.next) := by
  have isMark : state.token.isMark ";" = true := by
    rw [semicolon]
    rfl
  have canEnd : canEndStatement goals state = some (true, state) := by
    rw [canEndStatement, get_bind, isMark, Bool.or_true, Bool.true_or]
    rfl
  rw [endStatement, bind_of_some canEnd, if_pos rfl, bind_of_some (eat_eq_true isMark)]
  rfl

/-- Where a semicolon follows, an import has no attributes. -/
theorem importAttributes_eq
    (semicolon : state.token = .mark ";") :
    importAttributes goals state = some ([], state) := by
  have noWith : state.token.isWord "with" = false := by
    rw [semicolon]
    rfl
  have noAssert : state.token.isWord "assert" = false := by
    rw [semicolon]
    rfl
  rw [importAttributes, get_bind, noWith, noAssert]
  rfl

/-! ## Imports of a name -/

/-- Where the word `from` and a string follow, the name `type` is imported itself. -/
theorem importsTypes_eq
    (word : state.token = .word "from".toList false)
    (string : state.next.token = .string source false) :
    importsTypes goals state = some (false, state) := by
  have isFrom : state.token.isWord "from" = true := by
    rw [word]
    rfl
  rw [importsTypes, get_bind, if_pos isFrom]
  refine @ahead_eq _ _ state.next _ _ ?_
  rw [bind_of_some (advance_eq (isDisguised_of_word word)), get_bind, string]
  rfl

/-- Where the word `from` and a string follow, the name is imported itself and no phase of loading. -/
theorem importsInPhase_eq
    {span : Span}
    (word : state.token = .word "from".toList false)
    (string : state.next.token = .string source false) :
    importsInPhase (.node (.binding name) span []) goals state = some (false, state) := by
  have noStar : state.token.isMark "*" = false := by
    rw [word]
    rfl
  have isFrom : state.token.isWord "from" = true := by
    rw [word]
    rfl
  unfold importsInPhase
  change (if (name == "defer".toList) = true then _ else _ : P _) goals state = _
  split
  · exact atMark_eq noStar
  · split
    · rw [get_bind, if_pos isFrom]
      refine @ahead_eq _ _ state.next _ _ ?_
      rw [bind_of_some (advance_eq (isDisguised_of_word word))]
      refine atWord_eq ?_
      rw [string]
      rfl
    · rfl

/-- From the word `from` on, the import of a name is read to its end. -/
theorem importRest_eq
    {start : Nat}
    {span : Span}
    (word : state.token = .word "from".toList false)
    (string : state.next.token = .string source false)
    (semicolon : state.next.next.token = .mark ";") :
    ∃ tree, importRest start false (.node (.binding name) span []) goals state =
        some (tree, state.next.next.next) ∧ IsImportOf name source tree := by
  have noComma : state.token.isMark "," = false := by
    rw [word]
    rfl
  refine ⟨_, ?_, ⟨start, state.next.next.next.lastStop⟩, span, ⟨state.next.start, state.next.next.lastStop⟩, rfl⟩
  unfold importRest
  change (eat "," >>= _) goals state = _
  rw [bind_of_some (eat_eq_false noComma)]
  change (expectWord "from" >>= _) goals state = _
  rw [bind_of_some (expectWord_eq word), bind_of_some (stringLiteral_eq string),
    bind_of_some (importAttributes_eq semicolon), bind_of_some (endStatement_eq semicolon)]
  rfl

/-- The import of a name is read as such. -/
theorem importDeclaration_eq
    (runs : Runs (importTokens name source) state after)
    (free : Token.isFree name = true) :
    ∃ tree, importDeclaration goals state = some (tree, after) ∧ IsImportOf name source tree := by
  obtain ⟨isImport, named, isFrom, string, semicolon, rfl⟩ := runs
  obtain ⟨bindable, -⟩ := @takes_name goals state.next name named free
  have noString : state.next.token.isString = false := by
    rw [named]
    rfl
  have noEqual : state.next.next.token.isMark "=" = false := by
    rw [isFrom]
    rfl
  obtain ⟨tree, read, imports⟩ := @importRest_eq goals state.next.next name source state.start
    ⟨state.next.start, state.next.next.lastStop⟩ isFrom string semicolon
  refine ⟨tree, ?_, imports⟩
  rw [importDeclaration, here_bind, bind_of_some (advance_eq (isDisguised_of_word isImport)), get_bind, noString]
  change (if state.next.token.isBindable = true then _ else _ : P _) goals state.next = _
  rw [if_pos bindable, bind_of_some (bindingName_eq named free)]
  -- the name is neither the word for types nor that for a phase of loading, because `from` and a string follow
  rw [bind_of_some (importsTypes_eq isFrom string), Bool.and_false]
  change (get >>= _) goals state.next.next = _
  rw [get_bind, atMark_bind, noEqual, Bool.and_false]
  change (importsInPhase _ >>= _) goals state.next.next = _
  rw [bind_of_some (importsInPhase_eq isFrom string)]
  exact read

/-- An import is read as a statement where neither a call nor a property of its keyword follows. -/
theorem statement_of_importDeclaration
    {span : Span}
    {typeOnly : Bool}
    {specifiers : Option Nat}
    {children : List Tree}
    (isImport : state.token = .word "import".toList false)
    (noCall : ["(", "."].any state.next.token.isMark = false)
    (read : importDeclaration goals state = some (.node (.importDeclaration typeOnly specifiers) span children, after))
    (single : Bool) :
    statement single goals state = some (.node (.importDeclaration typeOnly specifiers) span children, after) := by
  have word : state.token.isWord "import" = true := by
    rw [isImport]
    rfl
  have noExpression : ahead (do advance; atOneOf ["(", "."]) goals state = some (false, state) := by
    refine @ahead_eq _ _ state.next _ _ ?_
    rw [bind_of_some (advance_eq (isDisguised_of_word isImport)), ← noCall]
    rfl
  have declared : importStatement goals state =
      some (.node (.importDeclaration typeOnly specifiers) span children, after) := by
    rw [importStatement, bind_of_some noExpression]
    exact read
  rw [statement, get_bind, if_pos word, bind_of_some declared]
  exact congrArg (fun tree => some (tree, after)) (ite_self _)

theorem statement_import
    (runs : Runs (importTokens name source) state after)
    (free : Token.isFree name = true)
    (single : Bool) :
    ∃ tree, statement single goals state = some (tree, after) ∧ IsImportOf name source tree := by
  obtain ⟨tree, read, imports⟩ := @importDeclaration_eq goals state after name source runs free
  obtain ⟨isImport, named, -⟩ := runs
  have noCall : ["(", "."].any state.next.token.isMark = false := by
    rw [named]
    rfl
  refine ⟨tree, ?_, imports⟩
  obtain ⟨span, place, place', rfl⟩ := imports
  exact statement_of_importDeclaration isImport noCall read single

/-- A line that imports a name. -/
def namedImport (name source : Text) : Text :=
  "import ".toList ++ name ++ " from \"".toList ++ source ++ "\";\n".toList

/-- A line that imports a name spells its tokens. -/
theorem spells_namedImport
    (isName : isIdentifierName name = true)
    (letters : source.all isLetter = true)
    (rest : Text) :
    Spells (importTokens name source) (namedImport name source ++ rest) ('\n' :: rest) := by
  have semicolon := spells_bracket ';' (by decide) ('\n' :: rest)
  have quoted := spells_append (spells_string letters _) semicolon
  have behind := spells_append (@spelling_name "from".toList (by decide) _ ⟨' ', _, rfl, by decide⟩)
    (spells_space quoted (List.cons_ne_nil _ _))
  have named := spells_append (spelling_name isName _ ⟨' ', _, rfl, by decide⟩)
    (spells_space behind (List.cons_ne_nil _ _))
  have whole := spells_append (@spelling_name "import".toList (by decide) _ ⟨' ', _, rfl, by decide⟩)
    (spells_space named (List.cons_ne_nil _ _))
  have assoc (a b c d e f : Text) : a ++ b ++ c ++ d ++ e ++ f = a ++ (b ++ (c ++ (d ++ (e ++ f)))) := by
    simp only [List.append_assoc]
  have text : namedImport name source ++ rest = _ :=
    assoc "import ".toList name " from \"".toList source "\";\n".toList rest
  rw [List.append_assoc] at whole
  rw [text]
  exact whole

end Parser

namespace Markup

open Lexer Parser

variable {options : Options}

/-- The line that imports the root of the factory spells its tokens. -/
theorem spells_importLine
    (factory : isPath options.factory = true)
    (letters : options.frameworkModule.all isLetter = true)
    (rest : Text) :
    Spells (importTokens (rootOf options.factory) options.frameworkModule) (importLine options ++ rest)
      ('\n' :: rest) :=
  spells_namedImport (isIdentifierName_rootOf factory) letters rest

end Markup

end LiveComponent
