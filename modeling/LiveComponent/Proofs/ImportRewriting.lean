import LiveComponent.Proofs.ImportMatch
import Mathlib.Data.Bool.AllAny

namespace LiveComponent

/-!
# Rewriting the specifiers of a text

An address in the place of a specifier is a specifier again, so the matches of the rewritten text stand
in a row with those of the text: rewriting neither makes, breaks nor moves one.  Addresses stay as they
are, so the rewritten text is rewritten no more.
-/

namespace Text

/-- Edits that start behind a text leave it as it is. -/
theorem spliceFrom_append
    {offset : Nat}
    {skipped : Text}
    {edits : List Edit}
    (later : Ascending (offset + skipped.length) edits)
    (rest : Text) :
    spliceFrom offset edits (skipped ++ rest) =
      skipped ++ spliceFrom (offset + skipped.length) edits rest := by
  cases edits with
  | nil =>
      rfl
  | cons edit edits =>
      obtain ⟨starts, ordered, -⟩ := later
      have start : edit.start - offset = skipped.length + (edit.start - (offset + skipped.length)) := by
        omega
      have stop : edit.stop - offset = skipped.length + (edit.stop - (offset + skipped.length)) := by
        omega
      rw [spliceFrom, spliceFrom, start, stop, List.take_length_add_append, List.drop_length_add_append,
        List.append_assoc, List.append_assoc, List.append_assoc]

end Text

namespace Specifier

/-! ## Distinct texts -/

/-- A text behind the distinct ones, unless it is among them. -/
def withText (seen : List Text) (text : Text) : List Text :=
  if seen.contains text then seen else seen ++ [text]

theorem distinct_eq
    (texts : List Text) :
    distinct texts = texts.foldl withText [] := rfl

theorem mem_withText
    {seen : List Text}
    {text other : Text} :
    other ∈ withText seen text ↔ other ∈ seen ∨ other = text := by
  unfold withText
  split
  next present =>
    rw [List.contains_iff_mem] at present
    exact ⟨.inl, fun either => either.elim id fun same => same ▸ present⟩
  next =>
    simp

theorem mem_foldl_withText
    {texts seen : List Text}
    {other : Text} :
    other ∈ texts.foldl withText seen ↔ other ∈ seen ∨ other ∈ texts := by
  induction texts generalizing seen with
  | nil =>
      simp
  | cons text texts inductionHypothesis =>
      rw [List.foldl_cons, inductionHypothesis, mem_withText, List.mem_cons, or_assoc]

/-- The distinct images of distinct texts are the distinct images. -/
theorem distinct_map_distinct
    (change : Text → Text)
    (texts : List Text) :
    distinct ((distinct texts).map change) = distinct (texts.map change) := by
  have seenFirst (texts seen : List Text) :
      distinct ((texts.foldl withText seen).map change) =
        (texts.map change).foldl withText (distinct (seen.map change)) := by
    induction texts generalizing seen with
    | nil =>
        rfl
    | cons text texts inductionHypothesis =>
        rw [List.foldl_cons, inductionHypothesis, List.map_cons, List.foldl_cons]
        congr 1
        cases present : seen.contains text with
        | true =>
            have image : (distinct (seen.map change)).contains (change text) = true := by
              rw [List.contains_iff_mem, distinct_eq, mem_foldl_withText]
              exact .inr (List.mem_map_of_mem (List.contains_iff_mem.mp present))
            rw [withText, if_pos present, withText, if_pos image]
        | false =>
            rw [withText, if_neg (Bool.not_eq_true _ ▸ present), List.map_append, distinct_eq,
              List.foldl_append]
            rfl
  exact seenFirst texts []

/-! ## Texts with the same imports -/

/-- Two texts that differ at most in a specifier between its quotes and in what follows it. -/
inductive Alike : Text → Text → Prop where
  | same (text : Text) :
      Alike text text
  | changed
      {opening closing : Char}
      {specifier other : Text}
      (opens : isQuote opening = true)
      (closes : isQuote closing = true)
      (filled : specifier ≠ [])
      (plain : specifier.all isPlain = true)
      (otherFilled : other ≠ [])
      (otherPlain : other.all isPlain = true)
      (lead rest more : Text) :
      Alike (lead ++ opening :: (specifier ++ closing :: rest)) (lead ++ opening :: (other ++ closing :: more))

theorem Alike.symm
    {text other : Text}
    (alike : Alike text other) :
    Alike other text := by
  cases alike with
  | same =>
      exact .same _
  | changed opens closes filled plain otherFilled otherPlain lead rest more =>
      exact .changed opens closes otherFilled otherPlain filled plain lead more rest

theorem Alike.cons
    {text other : Text}
    (alike : Alike text other)
    (c : Char) :
    Alike (c :: text) (c :: other) := by
  cases alike with
  | same =>
      exact .same _
  | changed opens closes filled plain otherFilled otherPlain lead rest more =>
      exact .changed opens closes filled plain otherFilled otherPlain (c :: lead) rest more

theorem not_isQuote_of_blank
    {gap : Text}
    (blank : gap.all isBlank = true) :
    ∀ c ∈ gap, isQuote c = false := by
  intro c member
  apply Bool.eq_false_iff.mpr
  intro quote
  have isBlank := List.all_eq_true.mp blank c member
  rw [not_isBlank_of_isQuote quote] at isBlank
  cases isBlank

/-- A specifier holds no quote. -/
theorem not_isQuote_of_plain
    {specifier : Text}
    (plain : specifier.all isPlain = true) :
    ∀ c ∈ specifier, isQuote c = false := by
  intro c member
  apply Bool.eq_false_iff.mpr
  intro quote
  have isPlain := List.all_eq_true.mp plain c member
  rw [not_isPlain_of_isQuote quote] at isPlain
  cases isPlain

/-- A lead holds no quote. -/
theorem not_isQuote_of_leads
    {lead : Text}
    (leads : Leads lead) :
    ∀ c ∈ lead, isQuote c = false := by
  have words : ∀ c ∈ "from".toList ++ "import(".toList, isQuote c = false :=
    List.all_iff_forall_prop.mp (by decide)
  intro c member
  cases leads with
  | source blank =>
      rcases List.mem_append.mp member with inWord | inGap
      · exact words c (List.mem_append_left _ inWord)
      · exact not_isQuote_of_blank blank c inGap
  | call blank blankInside =>
      rcases List.mem_append.mp member with inWord | behind
      · exact words c (List.mem_append_right _ (List.mem_append_left ['('] inWord))
      · rcases List.mem_append.mp behind with inGap | inside
        · exact not_isQuote_of_blank blank c inGap
        · rcases List.mem_cons.mp inside with rfl | inGap
          · rfl
          · exact not_isQuote_of_blank blankInside c inGap
  | module blank =>
      rcases List.mem_append.mp member with inWord | inGap
      · exact words c (List.mem_append_right _ (List.mem_append_left ['('] inWord))
      · exact not_isQuote_of_blank blank c inGap

/-- The first quote of a text is at its place or in front of any other quote. -/
theorem split_at_quote
    {first front rest more : Text}
    {quote other : Char}
    (free : ∀ c ∈ first, isQuote c = false)
    (isQuote : isQuote other = true)
    (same : first ++ quote :: rest = front ++ other :: more) :
    (front = first ∧ other = quote ∧ more = rest) ∨
      ∃ between, front = first ++ quote :: between ∧ rest = between ++ other :: more := by
  induction first generalizing front with
  | nil =>
      cases front with
      | nil =>
          obtain ⟨rfl, rfl⟩ := List.cons.inj same
          exact .inl ⟨rfl, rfl, rfl⟩
      | cons c front =>
          obtain ⟨rfl, rfl⟩ := List.cons.inj same
          exact .inr ⟨front, rfl, rfl⟩
  | cons c first inductionHypothesis =>
      cases front with
      | nil =>
          obtain ⟨rfl, -⟩ := List.cons.inj same
          rw [free _ List.mem_cons_self] at isQuote
          cases isQuote
      | cons d front =>
          rw [List.cons_append, List.cons_append, List.cons.injEq] at same
          obtain ⟨rfl, same⟩ := same
          rcases inductionHypothesis (fun c member => free c (List.mem_cons_of_mem _ member)) same with
            ⟨rfl, rfl, rfl⟩ | ⟨between, rfl, rfl⟩
          · exact .inl ⟨rfl, rfl, rfl⟩
          · exact .inr ⟨between, rfl, rfl⟩

theorem Import.text_append
    (first : Import)
    (rest : Text) :
    first.text ++ rest = first.lead ++ first.opening :: (first.specifier ++ first.closing :: rest) := by
  simp [text]

/-- Where an import starts in one of two such texts, one starts in the other. -/
theorem begins_of_alike
    {before : Option Char}
    {text other : Text}
    (alike : Alike text other)
    (begins : Begins before text) :
    Begins before other := by
  cases alike with
  | same =>
      exact begins
  | @changed opening closing specifier other opens closes _ _ otherFilled otherPlain lead rest more =>
      obtain ⟨edge, first, behind, starts⟩ := begins
      refine ⟨edge, ?_⟩
      rw [first.text_append] at starts
      -- The first two quotes of both texts are the quotes of the import.
      rcases split_at_quote (not_isQuote_of_leads first.leads) opens starts.symm with
        ⟨rfl, rfl, -⟩ | ⟨between, rfl, inside⟩
      · let changed : Import :=
          { first with specifier := _, closing := closing, filled := otherFilled, plain := otherPlain, closes := closes }
        exact ⟨changed, more, (changed.text_append more).symm⟩
      · rcases split_at_quote (not_isQuote_of_plain first.plain) opens inside with
          ⟨rfl, rfl, -⟩ | ⟨further, rfl, -⟩
        · refine ⟨first, other ++ closing :: more, ?_⟩
          rw [first.text_append, List.append_assoc, List.cons_append]
        · refine ⟨first, further ++ opening :: (other ++ closing :: more), ?_⟩
          simp only [first.text_append, List.append_assoc, List.cons_append]

/-! ## Rewriting -/

/-- The edit that puts the changed text in the place of a part. -/
def editOf (change : Text → Text) (part : Pattern.Part) : Edit :=
  ⟨part.start, part.stop, change part.text⟩

/-- The text with its specifiers changed; the text starts at a place. -/
def changedFrom (change : Text → Text) (before : Option Char) (index : Nat) (text : Text) : Text :=
  Text.spliceFrom index ((occurrencesFrom before index text).map (editOf change)) text

/-- The specifiers are found in order. -/
theorem ascending_occurrencesFrom
    (change : Text → Text)
    (before : Option Char)
    (index : Nat)
    (text : Text) :
    Text.Ascending index ((occurrencesFrom before index text).map (editOf change)) := by
  have earlier
      {index other : Nat}
      {edits : List Edit}
      (le : index ≤ other)
      (ascending : Text.Ascending other edits) :
      Text.Ascending index edits := by
    cases edits with
    | nil =>
        exact ascending
    | cons edit edits =>
        exact ⟨Nat.le_trans le ascending.1, ascending.2⟩
  induction before, text using importInduction generalizing index with
  | nil before =>
      rw [occurrencesFrom_nil]
      trivial
  | pass before c rest free inductionHypothesis =>
      rw [occurrencesFrom_cons free]
      exact earlier (Nat.le_succ index) (inductionHypothesis (index + 1))
  | found before first rest edge inductionHypothesis =>
      rw [occurrencesFrom_append edge]
      refine ⟨?_, Nat.le_add_right _ _, earlier ?_ (inductionHypothesis (index + first.text.length))⟩
      · exact Nat.le_trans (Nat.le_add_right index _) (Nat.le_succ _)
      · change index + first.lead.length + 1 + first.specifier.length ≤ _
        rw [first.length_text]
        omega

@[simp]
theorem changedFrom_nil
    (change : Text → Text)
    (before : Option Char)
    (index : Nat) :
    changedFrom change before index [] = [] := by
  rw [changedFrom, occurrencesFrom_nil]
  rfl

theorem changedFrom_cons
    {before : Option Char}
    {c : Char}
    {rest : Text}
    (free : ¬Begins before (c :: rest))
    (change : Text → Text)
    (index : Nat) :
    changedFrom change before index (c :: rest) =
      c :: changedFrom change (some c) (index + 1) rest := by
  rw [changedFrom, occurrencesFrom_cons free]
  exact @Text.spliceFrom_append index [c] _ (ascending_occurrencesFrom change (some c) (index + 1) rest) rest

theorem changedFrom_append
    {before : Option Char}
    (edge : Pattern.wordAt before = false)
    (change : Text → Text)
    (index : Nat)
    (first : Import)
    (rest : Text) :
    changedFrom change before index (first.text ++ rest) =
      first.lead ++ first.opening :: (change first.specifier ++
        first.closing :: changedFrom change (some first.closing) (index + first.text.length) rest) := by
  let start := index + first.lead.length + 1
  let stop := start + first.specifier.length
  have last : stop + 1 = index + first.text.length := by
    rw [first.length_text]
    omega
  have text : first.text ++ rest =
      (first.lead ++ [first.opening]) ++ (first.specifier ++ first.closing :: rest) := by
    simp [Import.text]
  have taken : start - index = (first.lead ++ [first.opening]).length := by
    simp only [start, List.length_append, List.length_cons, List.length_nil]
    omega
  have dropped : stop - index =
      (first.lead ++ [first.opening]).length + first.specifier.length := by
    rw [← taken]
    omega
  have later : Text.Ascending (stop + 1)
      ((occurrencesFrom (some first.closing) (index + first.text.length) rest).map (editOf change)) := by
    rw [last]
    exact ascending_occurrencesFrom change _ _ rest
  rw [changedFrom, occurrencesFrom_append edge, List.map_cons]
  change (first.text ++ rest).take (start - index) ++ change first.specifier ++
    Text.spliceFrom stop _ ((first.text ++ rest).drop (stop - index)) = _
  rw [text, taken, List.take_left, dropped, List.drop_length_add_append, List.drop_left]
  change _ ++ Text.spliceFrom stop _ ([first.closing] ++ rest) = _
  rw [@Text.spliceFrom_append stop [first.closing] _ later rest, List.length_singleton, last, changedFrom]
  simp only [List.append_assoc, List.cons_append, List.nil_append]

/-! ## The imports of a changed text -/

variable {change : Text → Text}

/-- A text and what it is changed to have their imports at the same places. -/
theorem alike_changedFrom
    (fits : ∀ specifier, specifier ≠ [] → specifier.all isPlain = true →
      change specifier ≠ [] ∧ (change specifier).all isPlain = true)
    (before : Option Char)
    (index : Nat)
    (text : Text) :
    Alike text (changedFrom change before index text) := by
  induction before, text using importInduction generalizing index with
  | nil before =>
      rw [changedFrom_nil]
      exact .same []
  | pass before c rest free inductionHypothesis =>
      rw [changedFrom_cons free]
      exact (inductionHypothesis (index + 1)).cons c
  | found before first rest edge inductionHypothesis =>
      obtain ⟨filled, plain⟩ := fits first.specifier first.filled first.plain
      rw [changedFrom_append edge, first.text_append]
      exact .changed first.opens first.closes first.filled first.plain filled plain ..

/-- The specifiers of a changed text are the changed specifiers. -/
theorem specifiers_changedFrom
    (fits : ∀ specifier, specifier ≠ [] → specifier.all isPlain = true →
      change specifier ≠ [] ∧ (change specifier).all isPlain = true)
    (before : Option Char)
    (index start : Nat)
    (text : Text) :
    (occurrencesFrom before start (changedFrom change before index text)).map Pattern.Part.text =
      (occurrencesFrom before index text).map (fun part => change part.text) := by
  induction before, text using importInduction generalizing index start with
  | nil before =>
      simp
  | pass before c rest free inductionHypothesis =>
      -- An import that started here in the changed text would start here in the text.
      have stillFree : ¬Begins before (c :: changedFrom change (some c) (index + 1) rest) :=
        fun begins => free (begins_of_alike ((alike_changedFrom fits _ _ rest).cons c).symm begins)
      rw [changedFrom_cons free, occurrencesFrom_cons stillFree, occurrencesFrom_cons free,
        inductionHypothesis]
  | found before first rest edge inductionHypothesis =>
      obtain ⟨filled, plain⟩ := fits first.specifier first.filled first.plain
      let changed : Import := { first with specifier := change first.specifier, filled, plain }
      have again := changed.text_append
        (changedFrom change (some first.closing) (index + first.text.length) rest)
      rw [changedFrom_append edge]
      change (occurrencesFrom before start (changed.lead ++ changed.opening ::
        (changed.specifier ++ changed.closing :: _))).map Pattern.Part.text = _
      rw [← again, occurrencesFrom_append edge, occurrencesFrom_append edge, List.map_cons, List.map_cons]
      exact congrArg (change first.specifier :: ·) (inductionHypothesis _ _)

/-- A text of whose specifiers none changes stays as it is. -/
theorem changedFrom_eq_self
    {before : Option Char}
    {index : Nat}
    {text : Text}
    (fixed : ∀ part ∈ occurrencesFrom before index text, change part.text = part.text) :
    changedFrom change before index text = text := by
  induction before, text using importInduction generalizing index with
  | nil before =>
      exact changedFrom_nil change before index
  | pass before c rest free inductionHypothesis =>
      rw [occurrencesFrom_cons free] at fixed
      rw [changedFrom_cons free, inductionHypothesis fixed]
  | found before first rest edge inductionHypothesis =>
      rw [occurrencesFrom_append edge, List.forall_mem_cons] at fixed
      have same : change first.specifier = first.specifier := fixed.1
      rw [changedFrom_append edge, inductionHypothesis fixed.2, same, first.text_append]

/-- Specifiers are not empty. -/
theorem filled_of_mem_occurrencesFrom
    {before : Option Char}
    {index : Nat}
    {text : Text}
    {part : Pattern.Part}
    (member : part ∈ occurrencesFrom before index text) :
    part.text ≠ [] ∧ part.text.all isPlain = true := by
  induction before, text using importInduction generalizing index with
  | nil before =>
      simp at member
  | pass before c rest free inductionHypothesis =>
      rw [occurrencesFrom_cons free] at member
      exact inductionHypothesis member
  | found before first rest edge inductionHypothesis =>
      rw [occurrencesFrom_append edge, List.mem_cons] at member
      rcases member with rfl | member
      · exact ⟨first.filled, first.plain⟩
      · exact inductionHypothesis member

/-! ## Rewriting to addresses -/

/-- The reason for which a specifier is refused. -/
def refusal (specifier : Text) : Failure :=
  .moduleResolution specifier "specifier contains whitespace"

variable {config : Config}

/-- Specifiers without blanks have addresses. -/
theorem rewrites_eq_ok
    {parts : List Pattern.Part}
    (filled : ∀ part ∈ parts, part.text ≠ [])
    (solid : ∀ part ∈ parts, part.text.any isBlank = false) :
    rewrites config parts = .ok (parts.map (editOf (resolve config))) := by
  induction parts with
  | nil =>
      rfl
  | cons part parts inductionHypothesis =>
      rw [List.forall_mem_cons] at filled solid
      have found : tryResolve config part.text = .ok (resolve config part.text) := by
        rw [tryResolve, if_neg (by simpa using filled.1), if_neg (by simp [solid.1])]
      rw [rewrites, found, inductionHypothesis filled.2 solid.2]
      rfl

/-- The first specifier with a blank is refused. -/
theorem rewrites_eq_error
    {earlier later : List Pattern.Part}
    {part : Pattern.Part}
    (filled : ∀ other ∈ earlier ++ part :: later, other.text ≠ [])
    (solid : ∀ other ∈ earlier, other.text.any isBlank = false)
    (blank : part.text.any isBlank = true) :
    rewrites config (earlier ++ part :: later) = .error (refusal part.text) := by
  induction earlier with
  | nil =>
      have refused : tryResolve config part.text = .error (refusal part.text) := by
        rw [tryResolve, if_neg (by simpa using filled part (by simp)), if_pos blank]
        rfl
      rw [List.nil_append, rewrites, refused]
  | cons other earlier inductionHypothesis =>
      rw [List.cons_append, List.forall_mem_cons] at filled
      rw [List.forall_mem_cons] at solid
      have found : tryResolve config other.text = .ok (resolve config other.text) := by
        rw [tryResolve, if_neg (by simpa using filled.1), if_neg (by simp [solid.1])]
      rw [List.cons_append, rewrites, found, inductionHypothesis filled.2 solid.2]
      rfl

/-- A character that neither stands around a specifier nor is blank. -/
def isSolid (c : Char) : Bool :=
  !isQuote c && !isBlank c

/-- The texts of which addresses are made hold neither quotes nor blanks, and the local ones are addresses. -/
structure Addressable (config : Config) : Prop where
  host : ∀ c ∈ config.mirrorHost, isSolid c = true
  name : ∀ c ∈ config.framework.name, isSolid c = true
  domBinding : ∀ c ∈ config.framework.domBinding, isSolid c = true
  shims : ∀ shim ∈ config.framework.shims, ∀ c ∈ shim.2, isSolid c = true
  addresses : ∀ shim ∈ config.framework.shims, isAddress shim.2 = true

theorem isPlain_of_isSolid
    {c : Char}
    (solid : isSolid c = true) :
    isPlain c = true := by
  simp only [isSolid, Bool.and_eq_true, Bool.not_eq_true'] at solid
  have other (d : Char) (differs : isSolid d = false) : (c != d) = true := by
    apply bne_iff_ne.mpr
    rintro rfl
    simp [isSolid, solid] at differs
  simp only [isPlain, other '\'' (by decide), other '"' (by decide), other '\r' (by decide),
    other '\n' (by decide), Bool.and_self]

/-- A text that starts with a secure scheme is an address. -/
theorem isAddress_of_scheme
    (rest : Text) :
    isAddress ("https:".toList ++ rest) = true := by
  have matched :
      (schemePattern.matchAt ⟨none, 0, 'h' :: ("ttps:".toList ++ rest)⟩).isSome = true := by
    simp [schemePattern, Pattern.matchAt, Pattern.sequence, Pattern.run, Pattern.runMany, Pattern.char]
  have occurs : schemePattern.occurs ('h' :: ("ttps:".toList ++ rest)) = true := by
    rw [Pattern.occurs, Pattern.occursFrom, matched, Bool.true_or]
  change isAddress ('h' :: ("ttps:".toList ++ rest)) = true
  simp only [isAddress, occurs, Bool.true_or]

theorem isAddress_mirrored
    (config : Config)
    (specifier : Text) :
    isAddress (mirrored config specifier) = true := by
  have split : "https://".toList = "https:".toList ++ "//".toList := by decide
  unfold mirrored
  rw [split]
  repeat rw [List.append_assoc]
  exact isAddress_of_scheme _

/-- What a specifier is resolved to is the specifier, a local address or an address at the mirror. -/
theorem resolve_cases
    (config : Config)
    (specifier : Text) :
    resolve config specifier = specifier ∧ isAddress specifier = true ∨
      (∃ shim ∈ config.framework.shims, resolve config specifier = shim.2) ∨
      resolve config specifier = mirrored config specifier := by
  unfold resolve
  split
  next address =>
    exact .inl ⟨rfl, address⟩
  next =>
    split
    next shim found =>
      obtain ⟨before, after, shims, -⟩ := List.lookup_eq_some_iff.mp found
      exact .inr (.inl ⟨(specifier, shim), by simp [shims], rfl⟩)
    next =>
      exact .inr (.inr rfl)

/-- Every resolution is an address. -/
theorem isAddress_resolve
    (addressable : Addressable config)
    (specifier : Text) :
    isAddress (resolve config specifier) = true := by
  rcases resolve_cases config specifier with ⟨same, address⟩ | ⟨shim, member, same⟩ | same
  · rwa [same]
  · rw [same]
    exact addressable.addresses shim member
  · rw [same]
    exact isAddress_mirrored config specifier

/-- An address is its own resolution. -/
theorem resolve_resolve
    (addressable : Addressable config)
    (specifier : Text) :
    resolve config (resolve config specifier) = resolve config specifier := by
  rw [resolve, if_pos (isAddress_resolve addressable specifier)]

theorem resolve_ne_nil
    (addressable : Addressable config)
    (specifier : Text) :
    resolve config specifier ≠ [] := by
  intro empty
  have address := isAddress_resolve addressable specifier
  rw [empty] at address
  exact absurd address (by decide)

/-- The marks between the parts of an address at the mirror. -/
def addressMarks : Text :=
  "https://&?external=,"

/-- A resolution is made of its specifier, the texts of the configuration and a few marks. -/
theorem mem_resolve
    {accepts : Char → Prop}
    (host : ∀ c ∈ config.mirrorHost, accepts c)
    (name : ∀ c ∈ config.framework.name, accepts c)
    (domBinding : ∀ c ∈ config.framework.domBinding, accepts c)
    (shims : ∀ shim ∈ config.framework.shims, ∀ c ∈ shim.2, accepts c)
    (marks : ∀ c ∈ addressMarks, accepts c)
    {specifier : Text}
    (all : ∀ c ∈ specifier, accepts c) :
    ∀ c ∈ resolve config specifier, accepts c := by
  have scheme : ∀ c ∈ "https://".toList, c ∈ addressMarks := List.all_iff_forall_prop.mp (by decide)
  have slash : ∀ c ∈ ['/'], c ∈ addressMarks := List.all_iff_forall_prop.mp (by decide)
  have separator : ∀ c ∈ if specifier.contains '?' then ['&'] else ['?'], c ∈ addressMarks := by
    split <;> exact List.all_iff_forall_prop.mp (by decide)
  have parameter : ∀ c ∈ "external=".toList, c ∈ addressMarks := List.all_iff_forall_prop.mp (by decide)
  have comma : ∀ c ∈ [','], c ∈ addressMarks := List.all_iff_forall_prop.mp (by decide)
  intro c member
  rcases resolve_cases config specifier with ⟨same, -⟩ | ⟨shim, isShim, same⟩ | same
  · exact all c (same ▸ member)
  · exact shims shim isShim c (same ▸ member)
  · rw [same] at member
    unfold mirrored external at member
    repeat rw [List.mem_append] at member
    rcases member with (((((inScheme | inHost) | inSlash) | inSpecifier) | inSeparator) | inParameter) |
      (inName | inComma) | inBinding
    · exact marks c (scheme c inScheme)
    · exact host c inHost
    · exact marks c (slash c inSlash)
    · exact all c inSpecifier
    · exact marks c (separator c inSeparator)
    · exact marks c (parameter c inParameter)
    · exact name c inName
    · exact marks c (comma c inComma)
    · exact domBinding c inBinding

/-- The resolution of a specifier can stand in its place. -/
theorem plain_resolve
    (addressable : Addressable config)
    (specifier : Text)
    (_filled : specifier ≠ [])
    (plain : specifier.all isPlain = true) :
    resolve config specifier ≠ [] ∧ (resolve config specifier).all isPlain = true := by
  refine ⟨resolve_ne_nil addressable specifier, List.all_eq_true.mpr (mem_resolve ?_ ?_ ?_ ?_ ?_ ?_)⟩
  · exact fun c member => isPlain_of_isSolid (addressable.host c member)
  · exact fun c member => isPlain_of_isSolid (addressable.name c member)
  · exact fun c member => isPlain_of_isSolid (addressable.domBinding c member)
  · exact fun shim isShim c member => isPlain_of_isSolid (addressable.shims shim isShim c member)
  · exact List.all_eq_true.mp (by decide)
  · exact List.all_eq_true.mp plain

/-- The resolution of a specifier without blanks holds none. -/
theorem solid_resolve
    (addressable : Addressable config)
    {specifier : Text}
    (solid : specifier.any isBlank = false) :
    (resolve config specifier).any isBlank = false := by
  have visible {c : Char} (isSolid : isSolid c = true) : ¬isBlank c = true := by
    simp only [Specifier.isSolid, Bool.and_eq_true, Bool.not_eq_true'] at isSolid
    exact Bool.eq_false_iff.mp isSolid.2
  refine List.any_eq_false.mpr (mem_resolve ?_ ?_ ?_ ?_ ?_ ?_)
  · exact fun c member => visible (addressable.host c member)
  · exact fun c member => visible (addressable.name c member)
  · exact fun c member => visible (addressable.domBinding c member)
  · exact fun shim isShim c member => visible (addressable.shims shim isShim c member)
  · exact List.any_eq_false.mp (by decide)
  · exact List.any_eq_false.mp solid

theorem filled_of_mem_occurrences
    {code : Text} :
    ∀ part ∈ occurrences code, part.text ≠ [] :=
  fun _ member => (filled_of_mem_occurrencesFrom (occurrences_eq code ▸ member)).1

/-- A text is rewritten if none of its specifiers holds a blank. -/
theorem rewriteImports_eq_ok
    {code : Text}
    (solid : ∀ part ∈ occurrences code, part.text.any isBlank = false) :
    rewriteImports config code = .ok (changedFrom (resolve config) none 0 code) := by
  rw [rewriteImports, rewrites_eq_ok filled_of_mem_occurrences solid]
  rfl

/-- A text has a first specifier with a blank, or none of its specifiers holds one. -/
theorem solid_or_split
    (parts : List Pattern.Part) :
    (∀ part ∈ parts, part.text.any isBlank = false) ∨
      ∃ earlier part later,
        parts = earlier ++ part :: later ∧
          (∀ other ∈ earlier, other.text.any isBlank = false) ∧ part.text.any isBlank = true := by
  cases first : parts.find? fun part => part.text.any isBlank with
  | none =>
      exact .inl fun part member => Bool.eq_false_iff.mpr (List.find?_eq_none.mp first part member)
  | some part =>
      obtain ⟨blank, earlier, later, split, solid⟩ := List.find?_eq_some_iff_append.mp first
      exact .inr ⟨earlier, part, later, split, fun other member => by simpa using solid other member, blank⟩

/-- A text is refused for its first specifier with a blank. -/
theorem rewriteImports_eq_error
    {code : Text}
    {earlier later : List Pattern.Part}
    {part : Pattern.Part}
    (split : occurrences code = earlier ++ part :: later)
    (solid : ∀ other ∈ earlier, other.text.any isBlank = false)
    (blank : part.text.any isBlank = true) :
    rewriteImports config code = .error (refusal part.text) := by
  have filled := @filled_of_mem_occurrences code
  rw [split] at filled
  rw [rewriteImports, split, rewrites_eq_error filled solid blank]
  rfl

/-- Rewriting a text resolves its specifiers: those of the rewritten text are the resolved ones, which stay as
they are.  A text is refused exactly for a specifier with a blank, and for the first one. -/
theorem rewritten_imports_resolved
    {config : Config}
    (addressable : Addressable config)
    (code : Text) :
    (∀ out, rewriteImports config code = .ok out →
      collect out = distinct ((collect code).map (resolve config)) ∧
        rewriteImports config out = .ok out) ∧
      ((∃ failure, rewriteImports config code = .error failure) ↔
        ∃ part ∈ occurrences code, part.text.any isBlank = true) ∧
      ∀ failure, rewriteImports config code = .error failure →
        ∃ earlier part later,
          occurrences code = earlier ++ part :: later ∧
            (∀ other ∈ earlier, other.text.any isBlank = false) ∧
            part.text.any isBlank = true ∧
            failure = .moduleResolution part.text "specifier contains whitespace" := by
  have fits := plain_resolve addressable
  rcases solid_or_split (occurrences code) with solid | ⟨earlier, part, later, split, solid, blank⟩
  · have rewritten := @rewriteImports_eq_ok config code solid
    refine ⟨fun out success => ?_, ?_, fun failure failed => ?_⟩
    · obtain rfl := Except.ok.inj (rewritten.symm.trans success)
      have specifiers := specifiers_changedFrom fits none 0 0 code
      rw [← occurrences_eq, ← occurrences_eq] at specifiers
      have resolved : ∀ text ∈ (occurrences (changedFrom (resolve config) none 0 code)).map Pattern.Part.text,
          text.any isBlank = false ∧ resolve config text = text := by
        rw [specifiers]
        intro text member
        obtain ⟨part, isPart, rfl⟩ := List.mem_map.mp member
        exact ⟨solid_resolve addressable (solid part isPart), resolve_resolve addressable part.text⟩
      have again := fun part member => resolved (Pattern.Part.text part) (List.mem_map_of_mem member)
      constructor
      · rw [collect, specifiers, collect, distinct_map_distinct, List.map_map]
        rfl
      · rw [rewriteImports_eq_ok fun part member => (again part member).1]
        exact congrArg Except.ok (changedFrom_eq_self fun part member => (again part member).2)
    · constructor
      · rintro ⟨failure, failed⟩
        rw [rewritten] at failed
        cases failed
      · rintro ⟨part, member, blank⟩
        rw [solid part member] at blank
        cases blank
    · rw [rewritten] at failed
      cases failed
  · have refused := @rewriteImports_eq_error config code earlier later part split solid blank
    refine ⟨fun out success => ?_, ?_, fun failure failed => ?_⟩
    · rw [refused] at success
      cases success
    · exact ⟨fun _ => ⟨part, by simp [split], blank⟩, fun _ => ⟨_, refused⟩⟩
    · rw [refused] at failed
      exact ⟨earlier, part, later, split, solid, blank, (Except.error.inj failed).symm⟩

/-- Two packages, one of them imported twice, get their addresses at the mirror and at home. -/
theorem rewritten_imports_resolved_of_packages :
    ∃ code out,
      Addressable {} ∧ rewriteImports {} code = .ok out ∧ out ≠ code ∧
        collect code = ["lodash".toList, "react".toList] ∧
        collect out = distinct ((collect code).map (resolve {})) ∧
        rewriteImports {} out = .ok out := by
  have shimsSolid : ∀ shim ∈ ({} : Config).framework.shims, shim.2.all isSolid = true := by
    decide +kernel
  have addressable : Addressable {} :=
    { host := List.all_eq_true.mp (by decide)
      name := List.all_eq_true.mp (by decide)
      domBinding := List.all_eq_true.mp (by decide)
      shims := fun shim isShim => List.all_eq_true.mp (shimsSolid shim isShim)
      addresses := by decide +kernel }
  let code : Text :=
    "import a from 'lodash';\nexport * from \"react\";\nimport('lodash');".toList
  have collected : collect code = ["lodash".toList, "react".toList] := by
    decide +kernel
  have solid : ∀ part ∈ occurrences code, part.text.any isBlank = false := by
    decide +kernel
  have differs : changedFrom (resolve {}) none 0 code ≠ code := by
    decide +kernel
  have rewritten := @rewriteImports_eq_ok {} code solid
  obtain ⟨resolved, stable⟩ := (rewritten_imports_resolved addressable code).1 _ rewritten
  exact ⟨code, _, addressable, rewritten, differs, collected, resolved, stable⟩

end Specifier

end LiveComponent
