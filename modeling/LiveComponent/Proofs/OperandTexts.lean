import LiveComponent.Proofs.ModuleReading
import LiveComponent.Proofs.OperandReading

namespace LiveComponent

/-!
# The texts of operands

An operand is given with the text that spells it.  Wherever the text stands in a source, the operand is read, and its
span covers the text.
-/

namespace Lexer

variable {tokens : List Token} {text rest : Text}

/-- Whether the text starts with a token that names no interpreter, and not with a blank or a comment. -/
def startsToken (text : Text) : Bool :=
  text.head?.any fun c => isVisible c && c != '#'

theorem startsToken_append
    (starts : startsToken text = true)
    (rest : Text) :
    startsToken (text ++ rest) = true := by
  cases text with
  | nil => cases starts
  | cons => exact starts

/-- Nothing is skipped in front of a text that starts with a token. -/
theorem startOf_of_startsToken
    (starts : startsToken text = true) :
    (startOf text).rest = text := by
  cases text with
  | nil => cases starts
  | cons c text =>
      simp only [startsToken, List.head?_cons, Option.any_some, isVisible, Bool.and_eq_true, Bool.not_eq_true',
        bne_iff_ne] at starts
      obtain ⟨⟨⟨noEnd, noSpace⟩, noSlash⟩, -⟩ := starts
      simp [startOf, skip, noEnd, noSpace, noSlash]

/-- What is left behind the skipped characters is the end of the text. -/
theorem skip_suffix
    (text : Text)
    (gap : Gap)
    (offset : Nat)
    (newline : Bool)
    (notes : Notes) :
    (skip gap offset newline notes text).rest <:+ text := by
  fun_induction skip gap offset newline notes text <;>
    first
      | exact List.suffix_refl _
      | exact List.suffix_cons_iff.mpr (.inr ‹_›)

/-- Behind the tokens the end of the text is left. -/
theorem Spells.suffix
    (spells : Spells tokens text rest) :
    rest <:+ text := by
  induction tokens generalizing text with
  | nil =>
      obtain rfl := spells
      exact List.suffix_refl _
  | cons token tokens inductionHypothesis =>
      exact ((inductionHypothesis spells.2.2).trans (List.drop_suffix _ _)).trans (skip_suffix ..)

/-- Each token takes some of the text. -/
theorem Spells.length_le
    (spells : Spells tokens text rest)
    (some : ∀ token ∈ tokens, token ≠ .eof) :
    tokens.length + rest.length ≤ text.length := by
  induction tokens generalizing text with
  | nil =>
      obtain rfl := spells
      exact Nat.le_of_eq (Nat.zero_add _)
  | cons token tokens inductionHypothesis =>
      obtain ⟨first, -, further⟩ := spells
      rw [List.forall_mem_cons] at some
      have later := inductionHypothesis further some.2
      obtain ⟨positive, filled⟩ := read_some (show (firstReading text).token ≠ .eof from first ▸ some.1)
      have skipped := (skip_length .blank 0 false .none text).2
      have length := List.length_pos_iff.mpr filled
      change _ ≤ ((startOf text).rest.drop (firstReading text).size).length at later
      rw [List.length_drop] at later
      change 0 < (firstReading text).size at positive
      change _ + (startOf text).rest.length = _ at skipped
      rw [List.length_cons]
      omega

end Lexer

namespace Parser

open Lexer

variable
  {source text rest : Text}
  {typed : Bool}
  {tokens : List Token}
  {tree : Tree}
  {state after : State}

/-! ## Parsers at texts -/

/-- The tokens lead to one state only. -/
theorem Runs.unique
    {other : State}
    (runs : Runs tokens state after)
    (runs' : Runs tokens state other) :
    after = other := by
  induction tokens generalizing state with
  | nil => exact runs.trans runs'.symm
  | cons _ _ inductionHypothesis => exact inductionHypothesis runs.2 runs'.2

/-- From a text to what is left of it, the parser goes over the tokens that the text spells. -/
def Crosses (text rest : Text) (state after : State) : Prop :=
  ∃ tokens, tokens ≠ [] ∧ Spells tokens text rest ∧ Runs tokens state after

/-- The parser of a source stands at a text with which the source ends, and has rounds left for all of it. -/
structure OnText (source : Text) (state : State) (text : Text) : Prop where
  opens : state.OpensAt text
  sound : state.Sound source.length
  budget : source.length < state.budget
  isEnd : text <:+ source

theorem Reached.onText
    (reached : Reached typed source state text)
    (isEnd : text <:+ source) :
    OnText source state text :=
  ⟨reached.opens, reached.sound, by rw [reached.budget]; omega, isEnd⟩

namespace OnText

/-- The parser goes over the tokens that the text spells. -/
theorem passed
    (onText : OnText source state text)
    (spells : Spells tokens text rest)
    (filled : tokens ≠ []) :
    ∃ after, Runs tokens state after ∧ OnText source after rest := by
  obtain ⟨after, runs, passes⟩ := runs_of_spells spells filled onText.opens.stands
  have sound : after.Sound source.length := by
    have sound := onText.sound
    clear * - sound runs
    induction tokens generalizing state with
    | nil =>
        obtain rfl := runs
        exact sound
    | cons token tokens inductionHypothesis => exact inductionHypothesis runs.2 (leads_next sound).sound
  exact ⟨after, runs, opensAt_of_runs spells filled onText.opens.stands runs, sound,
    passes.budget.symm ▸ onText.budget, spells.suffix.trans onText.isEnd⟩

/-- A blank in front of a text does not matter. -/
theorem blank
    (onText : OnText source state (' ' :: text)) :
    OnText source state text :=
  { onText with
    opens := opensAt_of_blank rfl onText.opens
    isEnd := (List.suffix_cons ' ' text).trans onText.isEnd }

/-- The flags do not matter. -/
theorem flagged
    (onText : OnText source state text)
    (flags : Flags) :
    OnText source (state.flagged flags) text :=
  ⟨⟨onText.opens.stands, onText.opens.here, onText.opens.notes, onText.opens.stop⟩,
    { onText.sound with }, onText.budget, onText.isEnd⟩

/-- A text that starts with a token begins where its token begins. -/
theorem start_add_eq
    (onText : OnText source state text)
    (starts : startsToken text = true) :
    state.start + text.length = source.length := by
  have length := onText.sound.here_length
  rwa [onText.opens.here, startOf_of_startsToken starts] at length

/-- Behind tokens that a text spells, the last of them ends in front of the rest. -/
theorem lastStop_add_eq
    (onText : OnText source state text)
    (spells : Spells tokens text rest)
    (filled : tokens ≠ [])
    (runs : Runs tokens state after) :
    after.lastStop + rest.length = source.length := by
  induction tokens generalizing state text with
  | nil => exact absurd rfl filled
  | cons token tokens inductionHypothesis =>
      obtain ⟨_, ⟨-, rfl⟩, onNext⟩ := @passed _ _ _ [token] _ onText ⟨spells.1, spells.2.1, rfl⟩
        (List.cons_ne_nil _ _)
      cases tokens with
      | nil =>
          obtain rfl := runs.2
          obtain rfl := spells.2.2
          have length := onText.sound.rest_length
          rw [onText.opens.stands.2] at length
          exact length
      | cons => exact inductionHypothesis onNext spells.2.2 (List.cons_ne_nil _ _) runs.2

/-- The span from a text's first token to its last one covers the text. -/
theorem slice_eq
    (onText : OnText source state (text ++ rest))
    (starts : startsToken text = true)
    (spells : Spells tokens (text ++ rest) rest)
    (filled : tokens ≠ [])
    (runs : Runs tokens state after) :
    Text.slice source state.start after.lastStop = text := by
  have start := onText.start_add_eq (startsToken_append starts rest)
  have stop := onText.lastStop_add_eq spells filled runs
  obtain ⟨front, whole⟩ := onText.isEnd
  rw [← whole, List.length_append, List.length_append] at start stop
  have place : state.start = front.length := by
    rw [List.length_append] at start
    omega
  have size : after.lastStop - state.start = text.length := by omega
  rw [Text.slice, size, place, ← whole, List.drop_left, List.take_left]

end OnText

/-! ## Operands with their texts -/

/-- Commas between parts that do not end the source do not end it. -/
theorem ne_eof_of_commas
    {parts : List (List Token)}
    (each : ∀ part ∈ parts, ∀ token ∈ part, token ≠ Token.eof) :
    ∀ token ∈ commas parts, token ≠ .eof := by
  fun_induction commas parts with
  | case1 => exact List.forall_mem_nil _
  | case2 part => exact List.forall_mem_singleton.mp each
  | case3 part more filled inductionHypothesis =>
      rw [List.forall_mem_cons] at each
      rw [List.forall_mem_append, List.forall_mem_cons]
      exact ⟨each.1, nofun, inductionHypothesis each.2⟩

/-- No token of an operand is the end of the source. -/
theorem Operand.ne_eof
    (operand : Operand tokens tree) :
    ∀ token ∈ tokens, token ≠ .eof := by
  induction operand with
  | @atom token kind atom =>
      refine List.forall_mem_singleton.mpr ?_
      rintro rfl
      cases atom
  | member object name inductionHypothesis =>
      rw [List.forall_mem_append, List.forall_mem_cons, List.forall_mem_singleton]
      exact ⟨inductionHypothesis, nofun, nofun⟩
  | call callee each inductionHypothesis inductionHypotheses =>
      rw [List.forall_mem_append, List.forall_mem_cons, List.forall_mem_append, List.forall_mem_singleton]
      exact ⟨inductionHypothesis, nofun, ne_eof_of_commas (List.forall_mem_map.mpr inductionHypotheses), nofun⟩

/-- An operand with the text that spells it from its first token on. -/
structure OperandText where
  text : Text
  tokens : List Token
  tree : Tree
  operand : Operand tokens tree
  spelling : Spelling text tokens
  starts : startsToken text = true

namespace OperandText

variable {depth : Nat}

theorem filled
    (operand : OperandText) :
    operand.tokens ≠ [] :=
  operand.operand.filled

theorem length_le
    (operand : OperandText) :
    operand.tokens.length ≤ operand.text.length := by
  have length := (operand.spelling [' '] ⟨' ', [], rfl, by decide⟩).length_le operand.operand.ne_eof
  rw [List.length_append] at length
  exact Nat.le_of_add_le_add_right length

/-- A name that is free wherever an expression may start. -/
def ofName (name : Text) (isName : isIdentifierName name = true) (isFree : Token.isFree name = true) : OperandText where
  text := name
  tokens := [.word name false]
  tree := .made (.identifier name) []
  operand := by
    have other (word : Text) (taken : Token.isFree word = false) : (name == word) = false := by
      apply beq_eq_false_iff_ne.mpr
      rintro rfl
      rw [isFree] at taken
      cases taken
    refine .atom ?_
    rw [Token.atom?, other "this".toList (by decide), other "null".toList (by decide), isFree]
    rfl
  spelling := spelling_name isName
  starts := by
    cases name with
    | nil => cases isName
    | cons c name =>
        rw [isIdentifierName, Bool.and_eq_true] at isName
        have other : c ≠ '#' := by
          rintro rfl
          exact absurd isName.1 (by decide)
        rw [startsToken, List.head?_cons, Option.any_some, isVisible_of_isIdStart isName.1, Bool.true_and, bne_iff_ne]
        exact other

/-- A property of what an operand stands for. -/
def member (object : OperandText) (name : Text) (isName : isIdentifierName name = true) : OperandText where
  text := object.text ++ '.' :: name
  tokens := object.tokens ++ [Token.mark ".", .word name false]
  tree := .made (.member false) [object.tree, .made (.name name) []]
  operand := object.operand.member name
  spelling := spelling_member object.spelling isName
  starts := startsToken_append object.starts _

theorem text_member_append
    (object : OperandText)
    {name : Text}
    (isName : isIdentifierName name = true)
    (rest : Text) :
    (object.member name isName).text ++ rest = object.text ++ '.' :: (name ++ rest) :=
  List.append_assoc object.text ('.' :: name) rest

/-- Operands with commas between are spelled in front of a closing parenthesis. -/
theorem spells_commas
    (arguments : List OperandText)
    (rest : Text) :
    Spells (commas (arguments.map OperandText.tokens)) (Text.joinWith ", ".toList (arguments.map OperandText.text) ++ ')' :: rest)
      (')' :: rest) := by
  induction arguments with
  | nil => exact rfl
  | cons first more inductionHypothesis =>
      cases more with
      | nil => exact first.spelling _ ⟨')', rest, rfl, by decide⟩
      | cons next more =>
          have filled : commas ((next :: more).map OperandText.tokens) ≠ [] := by
            cases more with
            | nil => exact next.filled
            | cons => exact List.append_ne_nil_of_left_ne_nil next.filled _
          have behind := spells_append (spells_bracket ',' (by decide) _) (spells_space inductionHypothesis filled)
          have whole := spells_append (first.spelling _ ⟨',', _, rfl, by decide⟩) behind
          have text :
              Text.joinWith ", ".toList ((first :: next :: more).map OperandText.text) ++ ')' :: rest =
                first.text ++ ',' :: ' ' :: (Text.joinWith ", ".toList ((next :: more).map OperandText.text) ++
                  ')' :: rest) := by
            change first.text ++ [',', ' '] ++ Text.joinWith _ _ ++ _ = _
            simp
          rw [text]
          exact whole

/-- The arguments of a call in their parentheses. -/
def argumentsText (arguments : List OperandText) : Text :=
  '(' :: (Text.joinWith ", ".toList (arguments.map OperandText.text) ++ [')'])

theorem spells_arguments
    (arguments : List OperandText)
    (rest : Text) :
    Spells (Token.mark "(" :: (commas (arguments.map OperandText.tokens) ++ [Token.mark ")"])) (argumentsText arguments ++ rest)
      rest := by
  have closed := spells_append (spells_commas arguments rest) (spells_bracket ')' (by decide) rest)
  have whole := spells_append (spells_bracket '(' (by decide) _) closed
  have text : argumentsText arguments ++ rest =
      '(' :: (Text.joinWith ", ".toList (arguments.map OperandText.text) ++ ')' :: rest) := by
    simp [argumentsText]
  rw [text]
  exact whole

/-- The call of what an operand stands for. -/
def call (callee : OperandText) (arguments : List OperandText) : OperandText where
  text := callee.text ++ argumentsText arguments
  tokens := callee.tokens ++ Token.mark "(" :: (commas (arguments.map OperandText.tokens) ++ [Token.mark ")"])
  tree := .made (.call false false) (callee.tree :: .absent :: arguments.map OperandText.tree)
  operand := by
    have each : ∀ argument ∈ arguments.map fun argument => (argument.tokens, argument.tree),
        Operand argument.1 argument.2 :=
      List.forall_mem_map.mpr fun argument _ => argument.operand
    have called := callee.operand.call each
    rw [List.map_map, List.map_map] at called
    exact called
  spelling := fun rest closes => by
    rw [List.append_assoc]
    exact spells_append (callee.spelling _ ⟨'(', _, rfl, by decide⟩) (spells_arguments arguments rest)
  starts := startsToken_append callee.starts _

theorem length_le_call
    (object : OperandText)
    {name : Text}
    (isName : isIdentifierName name = true)
    (arguments : List OperandText) :
    object.text.length ≤ ((object.member name isName).call arguments).text.length := by
  change _ ≤ ((object.text ++ _) ++ _).length
  rw [List.length_append, List.length_append]
  omega

theorem text_call_append
    (callee : OperandText)
    (arguments : List OperandText)
    (rest : Text) :
    (callee.call arguments).text ++ rest = callee.text ++ (argumentsText arguments ++ rest) :=
  List.append_assoc ..

end OperandText

/-! ## Reading operands from their texts -/

/-- The parser goes over an operand to another state, and the tree is its chain and covers its text. -/
structure Taken
    (source : Text)
    (depth : Nat)
    (operand : OperandText)
    (state after : State)
    (found : Tree) :
    Prop where
  runs : Runs operand.tokens state after
  chain : ChainAt depth operand.tokens.length state after operand.tree
  linked : Linked state.start depth operand.tokens.length state after found
  bare : found.bare = operand.tree
  covers : Text.slice source found.span.start found.span.stop = operand.text

variable {depth : Nat} {middle : State} {found : Tree} {object callee : OperandText}

/-- Wherever the text of an operand stands, its tokens are read as a chain. -/
theorem OperandText.exists_taken
    (operand : OperandText)
    (onText : OnText source state (operand.text ++ rest))
    (closes : Closes rest)
    (deep : 4 * operand.text.length ≤ depth) :
    ∃ after found, Taken source depth operand state after found ∧ OnText source after rest := by
  have spells := operand.spelling rest closes
  obtain ⟨after, runs, onRest⟩ := onText.passed spells operand.filled
  have short := operand.length_le
  have large : operand.tokens.length < state.budget := by
    have budget := onText.budget
    have inside := onText.isEnd.length_le
    rw [List.length_append] at inside
    omega
  have chain := operand.operand.chained.chain depth (by omega) large runs
  obtain ⟨found, linked, bare⟩ := chain.links state.start
  refine ⟨after, found, ⟨runs, chain, linked, bare, ?_⟩, onRest⟩
  rw [linked.span rfl]
  exact onText.slice_eq operand.starts spells operand.filled runs

namespace OperandText

/-- Operands in parentheses are read as arguments. -/
theorem exists_argumentList
    (arguments : List OperandText)
    (onText : OnText source state (argumentsText arguments ++ rest))
    (deep : 4 * (argumentsText arguments).length ≤ depth) :
    ∃ after all,
      argumentList (reach (depth + 5)) state = some (all, after) ∧
        Runs (Token.mark "(" :: (commas (arguments.map OperandText.tokens) ++ [Token.mark ")"])) state after ∧
        all.map Tree.bare = arguments.map OperandText.tree ∧ OnText source after rest := by
  have spells := spells_arguments arguments rest
  obtain ⟨after, runs, onRest⟩ := onText.passed spells (List.cons_ne_nil _ _)
  have chained : ∀ part ∈ arguments.map fun argument => (argument.tokens, argument.tree),
      Chained part.1 part.2 :=
    List.forall_mem_map.mpr fun argument _ => argument.operand.chained
  have short : (commas (arguments.map OperandText.tokens)).length ≤ (argumentsText arguments).length := by
    have noEnd : ∀ token ∈ commas (arguments.map OperandText.tokens), token ≠ .eof :=
      ne_eof_of_commas (List.forall_mem_map.mpr fun argument _ => argument.operand.ne_eof)
    have length := spells.length_le (by
      rw [List.forall_mem_cons, List.forall_mem_append, List.forall_mem_singleton]
      exact ⟨nofun, noEnd, nofun⟩)
    simp only [List.length_cons, List.length_append] at length
    omega
  have budget := onText.budget
  have inside := onText.isEnd.length_le
  rw [List.length_append] at inside
  have firsts : (arguments.map fun argument => (argument.tokens, argument.tree)).map Prod.fst =
      arguments.map OperandText.tokens := List.map_map
  have seconds : (arguments.map fun argument => (argument.tokens, argument.tree)).map Prod.snd =
      arguments.map OperandText.tree := List.map_map
  obtain ⟨all, listed, bare⟩ := @argumentList_of_chained state after _ chained depth
    (by rw [firsts]; omega) (by rw [firsts]; omega) (by rw [firsts]; exact runs)
  exact ⟨after, all, listed, runs, bare.trans seconds, onRest⟩

/-- A single argument covers its text. -/
theorem exists_argumentList_single
    (operand : OperandText)
    (onText : OnText source state (argumentsText [operand] ++ rest))
    (deep : 4 * (argumentsText [operand]).length ≤ depth) :
    ∃ after found,
      argumentList (reach (depth + 5)) state = some ([found], after) ∧
        Runs (Token.mark "(" :: (commas [operand.tokens] ++ [Token.mark ")"])) state after ∧
        found.bare = operand.tree ∧ Text.slice source found.span.start found.span.stop = operand.text ∧
        OnText source after rest := by
  obtain ⟨after, runs, onRest⟩ := onText.passed (spells_arguments [operand] rest) (List.cons_ne_nil _ _)
  obtain ⟨opens, inside⟩ := runs
  obtain ⟨middle, inner, closes, rfl⟩ := runs_append.mp inside
  have text : argumentsText [operand] ++ rest = '(' :: (operand.text ++ ')' :: rest) := by
    simp [argumentsText, Text.joinWith]
  have length : (argumentsText [operand]).length = operand.text.length + 2 := by
    simp [argumentsText, Text.joinWith]
  obtain ⟨_, ⟨-, rfl⟩, onNext⟩ := (text ▸ onText).passed (spells_bracket '(' (by decide) _) (List.cons_ne_nil _ _)
  let flags := bracketed state.next.flags
  have onOperand := onNext.flagged flags
  have flagged : Runs operand.tokens (state.next.flagged flags) (middle.flagged flags) := inner.flagged flags
  have short := operand.length_le
  have budget := onText.budget
  have within := onText.isEnd.length_le
  rw [List.length_append] at within
  have large : operand.tokens.length < (state.next.flagged flags).budget := by
    change _ < state.budget
    omega
  have closing : (middle.flagged flags).token = .mark ")" := closes
  obtain ⟨found, read, bare, span⟩ := operand.operand.chained.argument_eq depth (by omega) large flagged
    (by rw [closing]; decide)
  obtain ⟨step, list, done, -⟩ := commaList_rounds ")" argument
  have listed : commaList ")" argument (reach (depth + 5)) (state.next.flagged flags) =
      some (([found], false), middle.flagged flags) := by
    obtain ⟨kind, atom⟩ := operand.operand.chained.atom_of_runs flagged
    obtain ⟨rounds, total⟩ : ∃ rounds, state.budget = rounds + 1 := ⟨state.budget - 1, by omega⟩
    have closed : (middle.flagged flags).token.isMark ")" = true := by
      rw [closing]
      rfl
    rw [list, atMark_bind, Token.isMark_of_atom? atom, if_neg Bool.false_ne_true, rounds_eq]
    change roundTrips step state.budget _ _ _ = _
    rw [total]
    exact roundTrips_done (done [] found read closed) rounds
  refine ⟨_, found, argumentList_of_commaList opens listed inner.kept.1 closes, ⟨opens, inside⟩, bare, ?_, onRest⟩
  rw [span]
  exact onOperand.slice_eq operand.starts (operand.spelling _ ⟨')', rest, rfl, by decide⟩) operand.filled flagged

end OperandText

namespace Taken

open OperandText

/-- A property of what is read already. -/
theorem member
    (taken : Taken source depth object state middle found)
    {name : Text}
    (isName : isIdentifierName name = true)
    (onText : OnText source state ((object.member name isName).text ++ rest))
    (closes : Closes rest) :
    ∃ after span place,
      Taken source depth (object.member name isName) state after
          (.node (.member false) span [found, .node (.name name) place []]) ∧
        OnText source after rest := by
  have spells := (object.member name isName).spelling rest closes
  obtain ⟨after, runs, onRest⟩ := onText.passed spells (object.member name isName).filled
  obtain ⟨other, first, point, word, rfl⟩ := runs_append.mp runs
  obtain rfl := first.unique taken.runs
  have length : object.tokens.length + 1 ≤ (object.member name isName).tokens.length := by
    change _ ≤ (object.tokens ++ _).length
    rw [List.length_append, List.length_cons]
    omega
  have linked := (taken.linked.member point word).longer length
  have chain := (taken.chain.member point word).longer length
  refine ⟨_, _, _, ⟨runs, chain, linked, ?_, ?_⟩, onRest⟩
  · simp only [Tree.bare_node, List.map_cons, List.map_nil, taken.bare]
    rfl
  · exact onText.slice_eq (object.member name isName).starts spells (object.member name isName).filled runs

/-- The call of what is read already. -/
theorem call
    {arguments : List OperandText}
    {all : List Tree}
    (taken : Taken source depth callee state middle found)
    (onText : OnText source state ((callee.call arguments).text ++ rest))
    (closes : Closes rest)
    (listed : argumentList (reach depth) middle = some (all, after))
    (runs : Runs (Token.mark "(" :: (commas (arguments.map OperandText.tokens) ++ [Token.mark ")"])) middle after)
    (bare : all.map Tree.bare = arguments.map OperandText.tree) :
    ∃ span, Taken source depth (callee.call arguments) state after
      (.node (.call false false) span (found :: .absent :: all)) := by
  have spells := (callee.call arguments).spelling rest closes
  have whole : Runs (callee.call arguments).tokens state after := runs_append.mpr ⟨middle, taken.runs, runs⟩
  have length : callee.tokens.length + 1 ≤ (callee.call arguments).tokens.length := by
    change _ ≤ (callee.tokens ++ _).length
    rw [List.length_append, List.length_cons]
    omega
  have linked := (taken.linked.call runs.1 listed).longer length
  have chain := (taken.chain.call runs.1 listed runs.kept.2.1).longer length
  rw [bare] at chain
  refine ⟨_, whole, chain, linked, ?_, ?_⟩
  · simp only [Tree.bare_node, List.map_cons, taken.bare, bare, Tree.bare_absent]
    rfl
  · exact onText.slice_eq (callee.call arguments).starts spells (callee.call arguments).filled whole

/-- A method call starts with its object. -/
theorem onText_object
    {name : Text}
    {isName : isIdentifierName name = true}
    {arguments : List OperandText}
    (onText : OnText source state (((object.member name isName).call arguments).text ++ rest)) :
    ∃ more, OnText source state (object.text ++ '.' :: more) := by
  rw [text_call_append, text_member_append] at onText
  exact ⟨_, onText⟩

/-- The call of a method of what is read already.  A single argument covers its text. -/
theorem method
    {name : Text}
    (taken : Taken source (depth + 5) object state middle found)
    (isName : isIdentifierName name = true)
    (arguments : List OperandText)
    (onText : OnText source state (((object.member name isName).call arguments).text ++ rest))
    (closes : Closes rest)
    (deep : 4 * ((object.member name isName).call arguments).text.length ≤ depth) :
    ∃ after span inner place all,
      Taken source (depth + 5) ((object.member name isName).call arguments) state after
          (.node (.call false false) span
            (.node (.member false) inner [found, .node (.name name) place []] :: .absent :: all)) ∧
        OnText source after rest ∧ all.map Tree.bare = arguments.map OperandText.tree ∧
        ∀ argument, arguments = [argument] →
          all.map (fun tree => Text.slice source tree.span.start tree.span.stop) = [argument.text] := by
  have length := congrArg List.length (text_call_append (object.member name isName) arguments [])
  simp only [List.length_append, List.length_nil] at length
  have onMember := text_call_append .. ▸ onText
  obtain ⟨_, inner, place, member, onArguments⟩ := taken.member isName onMember ⟨'(', _, rfl, by decide⟩
  have short : 4 * (argumentsText arguments).length ≤ depth := by omega
  have whole {after : State} {all : List Tree}
      (listed : argumentList (reach (depth + 5)) _ = some (all, after))
      (runs : Runs (Token.mark "(" :: (commas (arguments.map OperandText.tokens) ++ [Token.mark ")"])) _ after)
      (bare : all.map Tree.bare = arguments.map OperandText.tree) :=
    member.call onText closes listed runs bare
  by_cases single : ∃ argument, arguments = [argument]
  · obtain ⟨argument, rfl⟩ := single
    obtain ⟨after, found, listed, runs, bare, covers, onRest⟩ := argument.exists_argumentList_single onArguments short
    have bare : [found].map Tree.bare = [argument].map OperandText.tree := congrArg (fun tree => [tree]) bare
    obtain ⟨span, taken⟩ := whole listed runs bare
    refine ⟨after, span, inner, place, _, taken, onRest, bare, ?_⟩
    rintro _ same
    obtain ⟨rfl, -⟩ := List.cons.inj same
    exact congrArg (fun text => [text]) covers
  · obtain ⟨after, all, listed, runs, bare, onRest⟩ := exists_argumentList arguments onArguments short
    obtain ⟨span, taken⟩ := whole listed runs bare
    exact ⟨after, span, inner, place, all, taken, onRest, bare, fun argument same => absurd ⟨argument, same⟩ single⟩

/-- What is read is an expression, if it ends there. -/
theorem expression_eq
    {operand : OperandText}
    (taken : Taken source depth operand state after found)
    (large : operand.tokens.length ≤ state.budget)
    (ends : endsAssignment after.token = true)
    (comma : after.token.isMark "," = false) :
    reach (depth + 5) .expression state = some (state.noted found, after) := by
  have filled := List.length_pos_iff.mpr operand.filled
  have assignment := taken.chain.assignment_eq taken.linked large (by omega) ends true
  exact Parser.expression_eq assignment (by omega) comma

end Taken

end Parser

end LiveComponent
