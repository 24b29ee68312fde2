import LiveComponent.Proofs.InsertedImport
import LiveComponent.Proofs.PatternMatches

namespace LiveComponent

/-!
# Directives of transpiled sources

The import of the factory goes behind the first line of a source if this line is a directive for a framework, and to
the head of the source otherwise.  Further directives come to stand behind the import and are none any more.
-/

namespace Pattern

/-- The pattern of a text matches nothing else. -/
theorem eq_of_fits_text
    {word taken : Text}
    (fits : (text word).Fits taken) :
    taken = word := by
  unfold text at fits
  induction word generalizing taken with
  | nil => exact fits
  | cons c word inductionHypothesis =>
      cases word with
      | nil =>
          obtain ⟨d, rfl, same⟩ := fits
          exact congrArg ([·]) (eq_of_beq same)
      | cons d word =>
          obtain ⟨_, back, rfl, ⟨e, rfl, same⟩, fits⟩ := fits
          rw [eq_of_beq same, inductionHypothesis fits]
          rfl

/-- The pattern of a character matches nothing else. -/
theorem eq_of_fits_char
    {c : Char}
    {taken : Text}
    (fits : (char c).Fits taken) :
    taken = [c] :=
  eq_of_fits_text fits

end Pattern

namespace Markup

open Lexer LiveComponent.Parser

/-! ## The line of a directive -/

/-- Blank characters stand between tokens. -/
theorem isGap_of_isBlank
    {c : Char}
    (blank : isBlank c = true) :
    isGap c = true := by
  rw [isGap, Bool.or_eq_true]
  by_cases feed : c.toNat = 10
  · exact .inl (by rw [← Char.ofNat_toNat c, feed]; rfl)
  by_cases carriage : c.toNat = 13
  · exact .inl (by rw [← Char.ofNat_toNat c, carriage]; rfl)
  simp only [isBlank, Bool.or_eq_true, Bool.and_eq_true, beq_iff_eq, decide_eq_true_eq] at blank
  simp only [isLineEnd, isSpace, Bool.or_eq_true, Bool.and_eq_true, beq_iff_eq, decide_eq_true_eq]
  omega

/-- Word characters and spaces stand for themselves in a string. -/
theorem isPlain_of_isWordChar
    {c : Char}
    (fits : (isWordChar c || c == ' ') = true) :
    isPlain c = true := by
  have none : ∀ d ∈ ['"', '\\', '\n', '\r', '\''], (!(isWordChar d || d == ' ')) = true :=
    List.all_eq_true.mp (by decide)
  have other (d : Char) (among : d ∈ ['"', '\\', '\n', '\r', '\'']) : c ≠ d := by
    rintro rfl
    have closed := none c among
    rw [fits] at closed
    cases closed
  simp only [isPlain, isLetter, Bool.and_eq_true, bne_iff_ne]
  exact ⟨⟨⟨⟨other _ (by simp), other _ (by simp)⟩, other _ (by simp)⟩, other _ (by simp)⟩, other _ (by simp)⟩

/-- The text has the line of a directive for a framework at its head. -/
def hasDirectiveLine (text : Text) : Bool :=
  (directiveLine.find? text).isSome

/-- What the pattern matches is the line of a directive. -/
theorem exists_headLine
    {front : Text}
    (fits : directiveLine.Fits front) :
    ∃ line : HeadLine, ∀ rest, front ++ rest = line.inFront rest := by
  obtain ⟨_, _, rfl, rfl, blanks, _, rfl, blank, quoted, _, rfl, quotes, semi, _, rfl, semicolon, spaces, _, rfl, spaced,
    carriage, feed, rfl, carried, fed⟩ := fits
  obtain rfl := Pattern.eq_of_fits_char fed
  obtain ⟨quote, body, rfl, isQuote, plain⟩ :
      ∃ quote body, quoted = quote :: (body ++ [quote]) ∧ (quote = '"' ∨ quote = '\'') ∧ body.all isPlain = true := by
    have inside (quote : Char)
        (fits : (Pattern.sequence [.char quote, .seq (.text "use ".toList)
          (.some1 fun c => isWordChar c || c == ' '), .char quote]).Fits quoted) :
        ∃ body, quoted = quote :: (body ++ [quote]) ∧ body.all isPlain = true := by
      obtain ⟨opening, _, rfl, opened, body, closing, rfl, ⟨use, words, rfl, used, first, others, rfl, ⟨c, rfl, fits⟩, all⟩,
        closed⟩ := fits
      obtain rfl := Pattern.eq_of_fits_char opened
      obtain rfl := Pattern.eq_of_fits_char closed
      obtain rfl := Pattern.eq_of_fits_text used
      refine ⟨_, rfl, ?_⟩
      rw [List.all_append, List.all_append]
      have plainOthers : others.all isPlain = true := by
        rw [List.all_eq_true]
        exact fun d among => isPlain_of_isWordChar (List.all_eq_true.mp all d among)
      rw [plainOthers, List.all_cons, isPlain_of_isWordChar fits]
      decide
    rcases quotes with fits | fits
    · obtain ⟨body, same, plain⟩ := inside '"' fits
      exact ⟨_, body, same, .inl rfl, plain⟩
    · obtain ⟨body, same, plain⟩ := inside '\'' fits
      exact ⟨_, body, same, .inr rfl, plain⟩
  have gap : ∀ c ∈ spaces ++ (carriage ++ ['\n']), isGap c = true := by
    intro c among
    rcases List.mem_append.mp among with among | among
    · have space := List.all_eq_true.mp spaced c among
      rw [Bool.or_eq_true, beq_iff_eq, beq_iff_eq] at space
      rcases space with rfl | rfl <;> rfl
    rcases List.mem_append.mp among with among | among
    · rcases carried with carried | rfl
      · rw [Pattern.eq_of_fits_char carried, List.mem_singleton] at among
        subst among
        rfl
      · cases among
    · rw [List.mem_singleton] at among
      subst among
      rfl
  let line (semicolon : Bool) : HeadLine :=
    ⟨blanks, quote, body, semicolon, spaces ++ (carriage ++ ['\n']),
      fun c among => isGap_of_isBlank (List.all_eq_true.mp blank c among), isQuote, plain, gap, by simp⟩
  rcases semicolon with semicolon | rfl
  · refine ⟨line true, fun rest => ?_⟩
    rw [Pattern.eq_of_fits_char semicolon]
    simp [line, HeadLine.inFront, HeadLine.directiveText]
  · refine ⟨line false, fun rest => ?_⟩
    simp [line, HeadLine.inFront, HeadLine.directiveText]

/-- A line is inserted behind the line of a directive, or at the head of the text. -/
theorem insertLine_cases
    (line text : Text) :
    hasDirectiveLine text = false ∧ insertLine line text = line ++ text ∨
      ∃ (head : HeadLine) (rest : Text), hasDirectiveLine text = true ∧ text = head.inFront rest ∧
        insertLine line text = head.inFront (line ++ rest) := by
  have anchored (place : Pattern.Place) (inside : place.before ≠ none) : directiveLine.matchAt place = none := by
    obtain ⟨before, index, rest⟩ := place
    cases before with
    | none => exact absurd rfl inside
    | some c => rfl
  unfold hasDirectiveLine insertLine
  rw [Pattern.find?_eq_matchAt anchored]
  cases matched : directiveLine.matchAt ⟨none, 0, text⟩ with
  | none => exact .inl ⟨rfl, rfl⟩
  | some found =>
      obtain ⟨taken, rest, same, fits, -, stop⟩ := Pattern.exists_of_matchAt matched
      obtain ⟨head, inFront⟩ := exists_headLine fits
      obtain rfl : text = taken ++ rest := same
      refine .inr ⟨head, rest, rfl, inFront rest, ?_⟩
      dsimp only
      rw [stop, Nat.zero_add, List.take_left, List.drop_left, List.append_assoc]
      exact inFront _

/-- The line of a directive names no interpreter. -/
theorem namesNoInterpreter_inFront
    (line : HeadLine)
    (rest : Text) :
    namesNoInterpreter (line.inFront rest) = true := by
  have starts (c : Char) (text : Text) (other : c ≠ '#') : namesNoInterpreter (c :: text) = true := by
    have differs : ('#' == c) = false := beq_eq_false_iff_ne.mpr other.symm
    change (!(('#' == c) && ['!'].isPrefixOf text)) = true
    rw [differs]
    rfl
  obtain ⟨blanks, quote, body, semicolon, gaps, blank, quotes, -⟩ := line
  cases blanks with
  | nil =>
      refine starts quote _ ?_
      rcases quotes with rfl | rfl <;> decide
  | cons c blanks =>
      refine starts c _ ?_
      rintro rfl
      exact absurd (blank '#' List.mem_cons_self) (by decide)

/-! ## The import of the factory -/

variable
  {options : Options}
  {typed : Bool}
  {text source code : Text}
  {tree tree' : Tree}

section

variable
  (factory : isPath options.factory = true)
  (free : Token.isFree (rootOf options.factory) = true)
  (letters : options.frameworkModule.all isLetter = true)

include factory free letters

/-- A module into which the import of the factory is inserted is a module with this import, which stands behind the
directive whose line the pattern finds. -/
theorem parse?_insertLine
    (parsed : parse? typed text = some tree)
    (plain : namesNoInterpreter text = true)
    (headed : hasDirectiveLine text = true → (State.initial typed text).onDirective = true) :
    ∃ tree' front, parse? typed (insertLine (importLine options) text) = some tree' ∧
      HasImport (IsImportOf (rootOf options.factory) options.frameworkModule) front tree.children tree'.children ∧
        front.length = (hasDirectiveLine text).toNat := by
  have reads := @readsImport_importTokens (rootOf options.factory) free options.frameworkModule
  have gap : ∀ c ∈ ['\n'], isGap c = true := List.forall_mem_singleton.mpr rfl
  rcases insertLine_cases (importLine options) text with ⟨noLine, inserted⟩ | ⟨head, rest, hasLine, rfl, inserted⟩
  · rw [inserted, noLine]
    obtain ⟨tree', parsed', imported⟩ :=
      @parse?_inserted_first _ _ _ _ _ _ ['\n'] parsed plain rfl (spells_importLine factory letters text) gap (reads _)
    exact ⟨tree', [], parsed', imported, rfl⟩
  · rw [inserted, hasLine]
    obtain ⟨tree', parsed', imported⟩ := @parse?_inserted_second _ _ _ _ _ head _ ['\n'] parsed plain
      (namesNoInterpreter_inFront head _) (headed hasLine) (spells_importLine factory letters rest) gap (reads _)
    exact ⟨tree', [head.body], parsed', imported, rfl⟩

/-- The transpiled code parses where the lowered code does, and if lowering the markup left the directives alone,
transpiling keeps them exactly if no import was inserted or the pattern finds the lines of all of them: of at most one.
The other ones stand behind the import. -/
theorem directives_kept_iff
    (parsed : parse? (options.typed.getD (isTyped source)) source = some tree)
    (transpiled : (transpile options source).code = some code)
    {lowered : Tree}
    (loweredParsed : parse? typed (Text.splice (loweringEditsOf options tree) source) = some lowered)
    (same : prologue lowered.children = prologue tree.children)
    (plain : namesNoInterpreter (Text.splice (loweringEditsOf options tree) source) = true)
    (headed : hasDirectiveLine (Text.splice (loweringEditsOf options tree) source) = true →
      (State.initial typed (Text.splice (loweringEditsOf options tree) source)).onDirective = true) :
    ∃ result, parse? typed code = some result ∧ prologue result.children <+: prologue tree.children ∧
      (prologue result.children = prologue tree.children ↔
        code = Text.splice (loweringEditsOf options tree) source ∨
          (prologue tree.children).length ≤
            (hasDirectiveLine (Text.splice (loweringEditsOf options tree) source)).toNat) := by
  generalize edited : Text.splice (loweringEditsOf options tree) source = text at *
  by_cases unchanged : code = text
  · subst unchanged
    exact ⟨lowered, loweredParsed, same ▸ List.prefix_rfl, by simp [same]⟩
  obtain rfl : code = insertLine (importLine options) text := by
    rw [code_transpile parsed, edited] at transpiled
    split at transpiled
    next none =>
      rw [none, Text.splice_nil] at edited
      exact absurd ((Option.some.inj transpiled).symm.trans edited) unchanged
    split at transpiled
    next =>
      have bound := (Option.some.inj transpiled).symm
      unfold bindFactory at bound
      dsimp only at bound
      split at bound
      · exact absurd bound unchanged
      · exact bound
    next => cases transpiled
  obtain ⟨result, front, parsed', imported, length⟩ := parse?_insertLine factory free letters loweredParsed plain headed
  obtain ⟨kept, first⟩ := imported.prologue_eq
  rw [same] at first
  refine ⟨result, parsed', kept ▸ first, ?_⟩
  rw [kept, ← length]
  constructor
  · intro all
    exact .inr (Nat.le_of_eq (congrArg List.length all).symm)
  · rintro (none | fits)
    · exact absurd none unchanged
    · exact first.eq_of_length_le fits

end

/-- The second of two directives comes to stand behind the import of the factory. -/
theorem directive_left_behind :
    ∃ source tree code result,
      parse? false source = some tree ∧ (prologue tree.children).length = 2 ∧
        (transpile (.ofFramework {}) source).code = some code ∧
          parse? false code = some result ∧ prologue result.children ≠ prologue tree.children := by
  obtain ⟨source, text, code, untyped, shape, shape', transpiled, differs, plain, hasLine, onDirective⟩ :
      ∃ source text code : Text, isTyped source = false ∧
        (parse? false source).map (fun tree =>
          (Text.splice (loweringEditsOf (.ofFramework {}) tree) source, prologue tree.children)) =
            some (text, ["use client".toList, "use strict".toList]) ∧
        (parse? false text).map (fun tree => prologue tree.children) =
          some ["use client".toList, "use strict".toList] ∧
        (transpile (.ofFramework {}) source).code = some code ∧ code ≠ text ∧ namesNoInterpreter text = true ∧
        hasDirectiveLine text = true ∧ (State.initial false text).onDirective = true :=
    ⟨"\"use client\";\n\"use strict\";\nexport default () => <p/>;".toList,
      "\"use client\";\n\"use strict\";\nexport default () => React.createElement(\"p\", null);".toList,
      ("\"use client\";\nimport React from \"react\";\n\"use strict\";\n" ++
        "export default () => React.createElement(\"p\", null);").toList, by decide +kernel⟩
  obtain ⟨tree, parsed, shape⟩ := Option.map_eq_some_iff.mp shape
  obtain ⟨lowered, loweredParsed, directives'⟩ := Option.map_eq_some_iff.mp shape'
  obtain ⟨edited, directives⟩ := Prod.mk.inj shape
  obtain ⟨result, parsed', -, kept⟩ := @directives_kept_iff (.ofFramework {}) false source code tree (by decide) (by decide)
    (by decide) (by rw [untyped]; exact parsed) transpiled lowered (edited ▸ loweredParsed)
    (directives'.trans directives.symm) (edited ▸ plain) (fun _ => edited ▸ onDirective)
  refine ⟨source, tree, code, result, parsed, by rw [directives]; rfl, transpiled, parsed', ?_⟩
  rw [Ne, kept, edited, hasLine, directives, not_or]
  exact ⟨differs, by decide⟩

end Markup

end LiveComponent
