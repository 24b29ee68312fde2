import LiveComponent.Specifier

namespace LiveComponent

/-!
# What the import pattern matches

A match is a lead (`from`, `import` or `import(` with blanks), a quote, a specifier and a quote.  Neither
the lead nor the specifier holds a quote, so there is at most one match at a place.
-/

namespace Pattern

/-- The character before the place at the end of a text. -/
def lastOf (before : Option Char) (text : Text) : Option Char :=
  text.getLast?.or before

theorem lastOf_cons
    (before : Option Char)
    (c : Char)
    (text : Text) :
    lastOf before (c :: text) = lastOf (some c) text := by
  cases text with
  | nil =>
      rfl
  | cons d text =>
      rw [lastOf, List.getLast?_cons_cons, lastOf]
      cases found : (d :: text).getLast? with
      | none =>
          simp at found
      | some last =>
          rfl

theorem lastOf_append
    (before : Option Char)
    (text more : Text) :
    lastOf before (text ++ more) = lastOf (lastOf before text) more := by
  rw [lastOf, List.getLast?_append, Option.or_assoc, lastOf, lastOf]

/-! ## Single patterns -/

variable {α : Type} {next : Place → Groups → Option α} {groups : Groups} {place : Place} {found : α}

theorem run_seq
    (first second : Pattern) :
    (seq first second).run place groups next =
      first.run place groups fun middle groups => second.run middle groups next := rfl

theorem run_one
    {accepts : Char → Bool} :
    (one accepts).run place groups next = some found ↔
      ∃ c rest,
        place.rest = c :: rest ∧ accepts c = true ∧
          next ⟨some c, place.index + 1, rest⟩ groups = some found := by
  obtain ⟨before, index, text⟩ := place
  cases text with
  | nil =>
      simp [run]
  | cons c rest =>
      simp only [run, Option.ite_none_right_eq_some, List.cons.injEq]
      constructor
      · rintro ⟨fits, reached⟩
        exact ⟨c, rest, ⟨rfl, rfl⟩, fits, reached⟩
      · rintro ⟨_, _, ⟨rfl, rfl⟩, fits, reached⟩
        exact ⟨fits, reached⟩

theorem run_boundary :
    boundary.run place groups next = some found ↔
      wordAt place.before ≠ wordAt place.rest.head? ∧ next place groups = some found := by
  simp [run]

/-- A word is matched where the text starts with it. -/
theorem run_text
    {word : Text} :
    (text word).run place groups next = some found ↔
      ∃ rest,
        place.rest = word ++ rest ∧
          next ⟨lastOf place.before word, place.index + word.length, rest⟩ groups = some found := by
  induction word generalizing place with
  | nil =>
      obtain ⟨before, index, rest⟩ := place
      simp [text, sequence, run, lastOf]
  | cons c word inductionHypothesis =>
      have split :
          (text (c :: word)).run place groups next =
            (char c).run place groups fun middle groups => (text word).run middle groups next := by
        cases word <;> rfl
      rw [split, char, run_one]
      simp only [inductionHypothesis, lastOf_cons place.before, List.length_cons, beq_iff_eq]
      constructor
      · rintro ⟨d, -, starts, rfl, rest, rfl, reached⟩
        exact ⟨rest, starts, by rwa [Nat.add_assoc, Nat.add_comm 1] at reached⟩
      · rintro ⟨rest, starts, reached⟩
        exact ⟨c, word ++ rest, starts, rfl, rest, rfl, by rwa [Nat.add_assoc, Nat.add_comm 1]⟩

/-- A repetition takes all it can if what follows does not start with one of its characters. -/
theorem runMany_eq
    {accepts : Char → Bool}
    {go : Place → Option α}
    (closed : ∀ before index c rest, accepts c = true → go ⟨before, index, c :: rest⟩ = none)
    (before : Option Char)
    (index : Nat)
    (rest : Text) :
    runMany accepts go before index rest =
      go ⟨lastOf before (rest.takeWhile accepts), index + (rest.takeWhile accepts).length,
        rest.dropWhile accepts⟩ := by
  induction rest generalizing before index with
  | nil =>
      rfl
  | cons c rest inductionHypothesis =>
      cases fits : accepts c with
      | false =>
          simp [runMany, fits, lastOf]
      | true =>
          have count (n : Nat) : index + 1 + n = index + (n + 1) := by omega
          rw [runMany, if_pos fits, inductionHypothesis, List.takeWhile_cons_of_pos fits,
            List.dropWhile_cons_of_pos fits, lastOf_cons, List.length_cons, count]
          split
          next found reached =>
            exact reached.symm
          next reached =>
            rw [reached, closed before index c rest fits]

/-- A repetition is matched where what follows it is. -/
theorem run_many
    {accepts : Char → Bool}
    (closed : ∀ before index c rest, accepts c = true → next ⟨before, index, c :: rest⟩ groups = none) :
    (many accepts).run place groups next = some found ↔
      ∃ taken rest,
        place.rest = taken ++ rest ∧ taken.all accepts = true ∧
          next ⟨lastOf place.before taken, place.index + taken.length, rest⟩ groups = some found := by
  obtain ⟨before, index, text⟩ := place
  rw [run, runMany_eq closed]
  constructor
  · intro reached
    exact ⟨text.takeWhile accepts, text.dropWhile accepts, List.takeWhile_append_dropWhile.symm,
      List.all_takeWhile, reached⟩
  · rintro ⟨taken, rest, rfl, all, reached⟩
    have ends : ∀ c ∈ rest.head?, ¬accepts c = true := by
      intro c first fits
      cases rest with
      | nil =>
          cases first
      | cons d rest =>
          obtain rfl := Option.some.inj first
          rw [closed _ _ _ _ fits] at reached
          cases reached
    have taken_eq : (taken ++ rest).takeWhile accepts = taken := by
      rw [List.takeWhile_append_of_pos (List.all_eq_true.mp all)]
      cases rest with
      | nil =>
          simp
      | cons d rest =>
          rw [List.takeWhile_cons_of_neg (ends d rfl), List.append_nil]
    have rest_eq : (taken ++ rest).dropWhile accepts = rest := by
      rw [List.dropWhile_append_of_pos (List.all_eq_true.mp all)]
      cases rest with
      | nil =>
          rfl
      | cons d rest =>
          exact List.dropWhile_cons_of_neg (ends d rfl)
    rw [taken_eq, rest_eq]
    exact reached

theorem run_some1
    {accepts : Char → Bool}
    (closed : ∀ before index c rest, accepts c = true → next ⟨before, index, c :: rest⟩ groups = none) :
    (some1 accepts).run place groups next = some found ↔
      ∃ taken rest,
        place.rest = taken ++ rest ∧ taken ≠ [] ∧ taken.all accepts = true ∧
          next ⟨lastOf place.before taken, place.index + taken.length, rest⟩ groups = some found := by
  have count (n : Nat) : place.index + 1 + n = place.index + (n + 1) := by omega
  rw [some1, run_seq, run_one]
  constructor
  · rintro ⟨c, _, starts, fits, reached⟩
    obtain ⟨taken, rest, rfl, all, reached⟩ := (run_many closed).mp reached
    rw [count, ← lastOf_cons place.before] at reached
    exact ⟨c :: taken, rest, starts, List.cons_ne_nil c taken, by simp [fits, all], reached⟩
  · rintro ⟨taken, rest, starts, filled, all, reached⟩
    obtain ⟨c, taken, rfl⟩ := List.exists_cons_of_ne_nil filled
    rw [List.all_cons, Bool.and_eq_true] at all
    rw [lastOf_cons, List.length_cons, ← count] at reached
    exact ⟨c, taken ++ rest, starts, all.1, (run_many closed).mpr ⟨taken, rest, rfl, all.2, reached⟩⟩

/-- A group is matched with its inside and remembered. -/
theorem run_group
    (name : String)
    (inner : Pattern) :
    (group name inner).run place groups next =
      inner.run place groups fun stop groups => next stop ((name, place.upTo stop) :: groups) := rfl

theorem run_alt
    (first second : Pattern) :
    (alt first second).run place groups next = some found ↔
      first.run place groups next = some found ∨
        first.run place groups next = none ∧ second.run place groups next = some found := by
  rw [run]
  split
  next reached =>
    simp [reached]
  next reached =>
    simp [reached]

end Pattern

namespace Specifier

open Pattern

/-! ## Quotes and leads -/

/-- A mark around a specifier. -/
def isQuote (c : Char) : Bool :=
  "'\"".toList.contains c

/-- A character of a specifier. -/
def isPlain (c : Char) : Bool :=
  c != '\'' && c != '"' && c != '\r' && c != '\n'

theorem isQuote_iff
    {c : Char} :
    isQuote c = true ↔ c = '\'' ∨ c = '"' := by
  simp [isQuote]

theorem not_isPlain_of_isQuote
    {c : Char}
    (quote : isQuote c = true) :
    isPlain c = false := by
  rcases isQuote_iff.mp quote with rfl | rfl <;> rfl

theorem not_isBlank_of_isQuote
    {c : Char}
    (quote : isQuote c = true) :
    isBlank c = false := by
  rcases isQuote_iff.mp quote with rfl | rfl <;> decide

/-- A text behind which a specifier may stand. -/
inductive Leads : Text → Prop where
  | source {gap : Text} (blank : gap.all isBlank = true) :
      Leads ("from".toList ++ gap)
  | call {gap inner : Text} (blank : gap.all isBlank = true) (blankInside : inner.all isBlank = true) :
      Leads ("import".toList ++ (gap ++ '(' :: inner))
  | module {gap : Text} (blank : gap.all isBlank = true) :
      Leads ("import".toList ++ gap)

/-- A specifier in its quotes behind a lead. -/
structure Import where
  lead : Text
  opening : Char
  specifier : Text
  closing : Char
  leads : Leads lead
  opens : isQuote opening = true
  filled : specifier ≠ []
  plain : specifier.all isPlain = true
  closes : isQuote closing = true

namespace Import

/-- The text of an import. -/
def text (found : Import) : Text :=
  found.lead ++ found.opening :: (found.specifier ++ [found.closing])

/-- The specifier of an import that starts at `index`. -/
def part (found : Import) (index : Nat) : Part :=
  let start := index + found.lead.length + 1
  ⟨start, start + found.specifier.length, found.specifier⟩

end Import

/-! ## The two parts of the pattern -/

/-- The part of the pattern up to the first quote. -/
def leadPattern : Pattern :=
  choice
    [
      sequence [boundary, Pattern.text "from", blanks],
      sequence [boundary, Pattern.text "import", blanks, char '(', blanks],
      sequence [boundary, Pattern.text "import", blanks]
    ]

/-- The part of the pattern from the first quote on. -/
def quotedPattern : Pattern :=
  sequence [one isQuote, group "specifier" (some1 isPlain), one isQuote]

theorem importPattern_eq :
    importPattern = seq leadPattern quotedPattern := rfl

variable {α : Type} {next : Place → Groups → Option α} {groups : Groups} {place : Place} {found : α}

/-- The part from the start of a specifier to its end. -/
theorem upTo_append
    {before last : Option Char}
    {index : Nat}
    {specifier rest : Text} :
    Place.upTo ⟨before, index, specifier ++ rest⟩ ⟨last, index + specifier.length, rest⟩ =
      ⟨index, index + specifier.length, specifier⟩ := by
  simp [Place.upTo]

/-- What is matched from the first quote on. -/
theorem run_quotedPattern :
    quotedPattern.run place groups next = some found ↔
      ∃ opening specifier closing rest,
        place.rest = opening :: (specifier ++ closing :: rest) ∧
          isQuote opening = true ∧ specifier ≠ [] ∧ specifier.all isPlain = true ∧
          isQuote closing = true ∧
          next ⟨some closing, place.index + 1 + specifier.length + 1, rest⟩
            (("specifier", ⟨place.index + 1, place.index + 1 + specifier.length, specifier⟩) ::
              groups) = some found := by
  -- No quote is plain, so the repetition ends where the specifier does.
  have closed
      (start : Place)
      (before : Option Char)
      (index : Nat)
      (c : Char)
      (rest : Text)
      (plain : isPlain c = true) :
      (one isQuote).run ⟨before, index, c :: rest⟩
        (("specifier", start.upTo ⟨before, index, c :: rest⟩) :: groups) next = none := by
    have noQuote : isQuote c = false := by
      apply Bool.eq_false_iff.mpr
      intro quote
      rw [not_isPlain_of_isQuote quote] at plain
      cases plain
    simp [run, noQuote]
  obtain ⟨before, index, text⟩ := place
  change (one isQuote).run _ _ (fun middle groups => (some1 isPlain).run middle groups
    fun stop groups => (one isQuote).run stop (("specifier", middle.upTo stop) :: groups) next) = _ ↔ _
  rw [run_one]
  constructor
  · rintro ⟨opening, _, rfl, opens, matched⟩
    obtain ⟨specifier, _, rfl, filled, plain, matched⟩ := (run_some1 (closed _)).mp matched
    obtain ⟨closing, rest, rfl, closes, reached⟩ := run_one.mp matched
    rw [upTo_append] at reached
    exact ⟨opening, specifier, closing, rest, rfl, opens, filled, plain, closes, reached⟩
  · rintro ⟨opening, specifier, closing, rest, rfl, opens, filled, plain, closes, reached⟩
    refine ⟨opening, _, rfl, opens, (run_some1 (closed _)).mpr ⟨specifier, _, rfl, filled, plain, ?_⟩⟩
    refine run_one.mpr ⟨closing, rest, rfl, closes, ?_⟩
    rw [upTo_append]
    exact reached

/-- Blanks end at the first other character. -/
theorem eq_of_gap_append
    {gap other rest more : Text}
    {c d : Char}
    (same : gap ++ c :: rest = other ++ d :: more)
    (blank : gap.all isBlank = true)
    (otherBlank : other.all isBlank = true)
    (visible : isBlank c = false)
    (otherVisible : isBlank d = false) :
    c = d := by
  have dropped := congrArg (List.dropWhile isBlank) same
  rw [List.dropWhile_append_of_pos (List.all_eq_true.mp blank),
    List.dropWhile_append_of_pos (List.all_eq_true.mp otherBlank),
    List.dropWhile_cons_of_neg (Bool.not_eq_true _ ▸ visible),
    List.dropWhile_cons_of_neg (Bool.not_eq_true _ ▸ otherVisible)] at dropped
  exact (List.cons.inj dropped).1

section

variable (quoted : ∀ place groups, (∀ c ∈ place.rest.head?, isQuote c = false) → next place groups = none)

include quoted

/-- What follows the lead starts with a quote. -/
theorem starts_of_reached
    (reached : next place groups = some found) :
    ∃ quote rest, place.rest = quote :: rest ∧ isQuote quote = true := by
  obtain ⟨before, index, text⟩ := place
  cases text with
  | nil =>
      have closed := quoted ⟨before, index, []⟩ groups (by simp)
      rw [closed] at reached
      cases reached
  | cons c rest =>
      cases quote : isQuote c with
      | true =>
          exact ⟨c, rest, rfl, quote⟩
      | false =>
          have closed := quoted ⟨before, index, c :: rest⟩ groups (by simpa using quote)
          rw [closed] at reached
          cases reached

theorem run_blanks :
    blanks.run place groups next = some found ↔
      ∃ gap rest,
        place.rest = gap ++ rest ∧ gap.all isBlank = true ∧
          next ⟨lastOf place.before gap, place.index + gap.length, rest⟩ groups = some found := by
  refine run_many fun before index c rest blank => quoted _ _ fun d first => ?_
  obtain rfl := Option.some.inj first
  apply Bool.eq_false_iff.mpr
  intro quote
  rw [not_isBlank_of_isQuote quote] at blank
  cases blank

theorem run_parenthesis :
    (sequence [blanks, char '(', blanks]).run place groups next = some found ↔
      ∃ gap inner rest,
        place.rest = gap ++ '(' :: (inner ++ rest) ∧ gap.all isBlank = true ∧
          inner.all isBlank = true ∧
          next ⟨lastOf place.before (gap ++ '(' :: inner),
            place.index + (gap ++ '(' :: inner).length, rest⟩ groups = some found := by
  change (seq blanks (seq (char '(') blanks)).run place groups next = _ ↔ _
  have length (gap inner : Text) :
      place.index + gap.length + 1 + inner.length = place.index + (gap ++ '(' :: inner).length := by
    simp only [List.length_append, List.length_cons]
    omega
  rw [run_seq, blanks, run_many]
  · constructor
    · rintro ⟨gap, _, starts, blank, matched⟩
      rw [run_seq, char, run_one] at matched
      obtain ⟨_, _, rfl, parenthesis, matched⟩ := matched
      obtain rfl := eq_of_beq parenthesis
      obtain ⟨inner, rest, rfl, blankInside, reached⟩ := (run_blanks quoted).mp matched
      rw [length, ← lastOf_cons (lastOf place.before gap), ← lastOf_append] at reached
      exact ⟨gap, inner, rest, starts, blank, blankInside, reached⟩
    · rintro ⟨gap, inner, rest, starts, blank, blankInside, reached⟩
      refine ⟨gap, '(' :: (inner ++ rest), starts, blank, ?_⟩
      rw [run_seq, char, run_one]
      refine ⟨'(', inner ++ rest, rfl, rfl, (run_blanks quoted).mpr ⟨inner, rest, rfl, blankInside, ?_⟩⟩
      rw [length, ← lastOf_cons (lastOf place.before gap), ← lastOf_append]
      exact reached
  · intro before index c rest blank
    have other : (c == '(') = false := by
      apply beq_eq_false_iff_ne.mpr
      rintro rfl
      cases blank
    simp [char, run, other]

/-- What is matched in front of the first quote. -/
theorem run_leadPattern :
    leadPattern.run place groups next = some found ↔
      wordAt place.before = false ∧
        ∃ lead rest,
          Leads lead ∧ place.rest = lead ++ rest ∧
            next ⟨lastOf place.before lead, place.index + lead.length, rest⟩ groups = some found := by
  have afterWord
      (c : Char)
      (word : Text)
      (inner : Pattern)
      (found : α)
      (wordStart : isWordChar c = true) :
      (seq boundary (seq (Pattern.text (c :: word)) inner)).run place groups next = some found ↔
        wordAt place.before = false ∧
          ∃ rest, place.rest = c :: word ++ rest ∧
            inner.run ⟨lastOf place.before (c :: word), place.index + (c :: word).length, rest⟩ groups
              next = some found := by
    rw [run_seq, run_boundary, run_seq, run_text]
    refine ⟨fun ⟨edge, rest, starts, matched⟩ => ⟨?_, rest, starts, matched⟩,
      fun ⟨edge, rest, starts, matched⟩ => ⟨?_, rest, starts, matched⟩⟩
    · rw [starts] at edge
      change wordAt place.before ≠ isWordChar c at edge
      rw [wordStart] at edge
      exact Bool.eq_false_iff.mpr edge
    · rw [starts, edge]
      change false ≠ isWordChar c
      rw [wordStart]
      exact Bool.false_ne_true
  have length (word rest : Text) :
      place.index + word.length + rest.length = place.index + (word ++ rest).length := by
    rw [List.length_append, Nat.add_assoc]
  change (alt (seq boundary (seq (Pattern.text ('f' :: "rom".toList)) blanks))
    (alt (seq boundary (seq (Pattern.text ('i' :: "mport".toList)) (sequence [blanks, char '(', blanks])))
      (seq boundary (seq (Pattern.text ('i' :: "mport".toList)) blanks)))).run place groups next = _ ↔ _
  rw [run_alt, run_alt, afterWord _ _ _ _ rfl, afterWord _ _ _ _ rfl, afterWord _ _ _ _ rfl]
  simp only [run_blanks quoted, run_parenthesis quoted, ← lastOf_append, length]
  constructor
  · rintro (⟨edge, _, starts, gap, rest, rfl, blank, reached⟩ |
      ⟨-, ⟨edge, _, starts, gap, inner, rest, rfl, blank, blankInside, reached⟩ |
        ⟨-, edge, _, starts, gap, rest, rfl, blank, reached⟩⟩)
    · exact ⟨edge, _, rest, .source blank, by rw [starts]; exact (List.append_assoc ..).symm, reached⟩
    · exact ⟨edge, _, rest, .call blank blankInside, by rw [starts]; simp, reached⟩
    · exact ⟨edge, _, rest, .module blank, by rw [starts]; exact (List.append_assoc ..).symm, reached⟩
  · rintro ⟨edge, lead, rest, leads, starts, reached⟩
    have noSource
        (other : place.rest.head? = some 'i') :
        (seq boundary (seq (Pattern.text ('f' :: "rom".toList)) blanks)).run place groups next = none := by
      apply Option.eq_none_iff_forall_ne_some.mpr
      intro found matched
      obtain ⟨-, rest, starts, -⟩ := (afterWord _ _ _ _ rfl).mp matched
      rw [starts] at other
      cases other
    cases leads with
    | @source gap blank =>
        exact .inl ⟨edge, gap ++ rest, by rw [starts]; exact List.append_assoc .., gap, rest, rfl, blank, reached⟩
    | @call gap inner blank blankInside =>
        exact .inr ⟨noSource (by rw [starts]; rfl),
          .inl ⟨edge, gap ++ '(' :: (inner ++ rest), by rw [starts]; simp, gap, inner, rest, rfl, blank, blankInside,
            reached⟩⟩
    | @module gap blank =>
        refine .inr ⟨noSource (by rw [starts]; rfl), .inr ⟨?_, edge, gap ++ rest, by rw [starts]; exact List.append_assoc ..,
          gap, rest, rfl, blank, reached⟩⟩
        apply Option.eq_none_iff_forall_ne_some.mpr
        intro found matched
        obtain ⟨-, _, again, matched⟩ := (afterWord _ _ _ _ rfl).mp matched
        obtain ⟨other, inner, more, rfl, otherBlank, -⟩ := (run_parenthesis quoted).mp matched
        obtain ⟨quote, tail, rfl, isQuote⟩ := starts_of_reached quoted reached
        rw [starts, List.append_assoc] at again
        have same : quote = '(' :=
          eq_of_gap_append (List.append_cancel_left again) blank otherBlank
            (not_isBlank_of_isQuote isQuote) (by decide)
        rw [same] at isQuote
        cases isQuote

end

/-! ## Matches from left to right -/

/-- The match of an import that starts at `index`. -/
def Import.matched (first : Import) (index : Nat) : Found :=
  ⟨⟨index, index + first.text.length, first.text⟩, [("specifier", first.part index)]⟩

theorem Import.length_text
    (first : Import) :
    first.text.length = first.lead.length + 1 + first.specifier.length + 1 := by
  simp only [text, List.length_append, List.length_cons, List.length_nil]
  omega

/-- The match at a place is an import that the text starts with. -/
theorem matchAt_eq_some
    {found : Found} :
    importPattern.matchAt place = some found ↔
      wordAt place.before = false ∧
        ∃ (first : Import) (rest : Text),
          place.rest = first.text ++ rest ∧ first.matched place.index = found := by
  obtain ⟨before, index, text⟩ := place
  have quoted
      (start : Place)
      (groups : Groups)
      (closed : ∀ c ∈ start.rest.head?, isQuote c = false) :
      quotedPattern.run start groups
        (fun stop groups => some (⟨Place.upTo ⟨before, index, text⟩ stop, groups⟩ : Found)) = none := by
    apply Option.eq_none_iff_forall_ne_some.mpr
    intro found matched
    obtain ⟨opening, _, _, _, starts, opens, -⟩ := run_quotedPattern.mp matched
    rw [starts] at closed
    rw [closed opening rfl] at opens
    cases opens
  have whole (first : Import) (rest : Text) (last : Option Char) :
      Place.upTo ⟨before, index, first.text ++ rest⟩
          ⟨last, index + first.lead.length + 1 + first.specifier.length + 1, rest⟩ =
        ⟨index, index + first.text.length, first.text⟩ := by
    have stop :
        index + first.lead.length + 1 + first.specifier.length + 1 = index + first.text.length := by
      rw [first.length_text]
      omega
    rw [stop, upTo_append]
  rw [matchAt, importPattern_eq, run_seq, run_leadPattern quoted]
  refine and_congr_right fun _ => ?_
  constructor
  · rintro ⟨lead, _, leads, starts, matched⟩
    obtain ⟨opening, specifier, closing, rest, rfl, opens, filled, plain, closes, reached⟩ :=
      run_quotedPattern.mp matched
    let first : Import := ⟨lead, opening, specifier, closing, leads, opens, filled, plain, closes⟩
    have again : text = first.text ++ rest := by
      change text = _ at starts
      rw [starts]
      simp [first, Import.text]
    refine ⟨first, rest, again, ?_⟩
    rw [again] at reached
    exact (congrArg (Found.mk · _) (whole first rest _)).symm.trans (Option.some.inj reached)
  · rintro ⟨first, rest, rfl, rfl⟩
    refine ⟨first.lead, first.opening :: (first.specifier ++ first.closing :: rest), first.leads,
      by simp [Import.text], run_quotedPattern.mpr ⟨first.opening, first.specifier, first.closing, rest,
        rfl, first.opens, first.filled, first.plain, first.closes, ?_⟩⟩
    exact congrArg some (congrArg (Found.mk · _) (whole first rest _))

/-- An import starts at the place in front of the text. -/
def Begins (before : Option Char) (text : Text) : Prop :=
  wordAt before = false ∧ ∃ (first : Import) (rest : Text), text = first.text ++ rest

theorem matchAt_eq_none
    {before : Option Char}
    {text : Text}
    (index : Nat)
    (free : ¬Begins before text) :
    importPattern.matchAt ⟨before, index, text⟩ = none := by
  apply Option.eq_none_iff_forall_ne_some.mpr
  intro found matched
  obtain ⟨edge, first, rest, starts, -⟩ := matchAt_eq_some.mp matched
  exact free ⟨edge, first, rest, starts⟩

/-- The rest of a match is skipped. -/
theorem findFrom_skip
    (pattern : Pattern)
    (before : Option Char)
    (index : Nat)
    (skipped rest : Text) :
    findFrom pattern skipped.length before index (skipped ++ rest) =
      findFrom pattern 0 (lastOf before skipped) (index + skipped.length) rest := by
  induction skipped generalizing before index with
  | nil =>
      rfl
  | cons c skipped inductionHypothesis =>
      have count : index + 1 + skipped.length = index + (skipped.length + 1) := by omega
      rw [List.cons_append, List.length_cons, findFrom, inductionHypothesis, lastOf_cons, count]

/-- The matches in a text that starts at a place. -/
def matchesFrom (before : Option Char) (index : Nat) (text : Text) : List Found :=
  findFrom importPattern 0 before index text

/-- The specifiers of the imports of a text that starts at a place. -/
def occurrencesFrom (before : Option Char) (index : Nat) (text : Text) : List Part :=
  (matchesFrom before index text).filterMap fun found => found.part? "specifier"

theorem occurrences_eq
    (code : Text) :
    occurrences code = occurrencesFrom none 0 code := rfl

theorem not_begins_nil
    (before : Option Char) :
    ¬Begins before [] := by
  rintro ⟨-, first, rest, starts⟩
  have length := congrArg List.length starts
  rw [List.length_append, first.length_text, List.length_nil] at length
  omega

@[simp]
theorem matchesFrom_nil
    (before : Option Char)
    (index : Nat) :
    matchesFrom before index [] = [] := by
  rw [matchesFrom, findFrom, matchAt_eq_none index (not_begins_nil before)]
  rfl

/-- A character at which no import starts is passed. -/
theorem matchesFrom_cons
    {before : Option Char}
    {c : Char}
    {rest : Text}
    (free : ¬Begins before (c :: rest))
    (index : Nat) :
    matchesFrom before index (c :: rest) = matchesFrom (some c) (index + 1) rest := by
  rw [matchesFrom, findFrom, matchAt_eq_none index free]
  rfl

theorem Import.lastOf_text
    (before : Option Char)
    (first : Import) :
    lastOf before first.text = some first.closing := by
  have parts : first.text = (first.lead ++ first.opening :: first.specifier) ++ [first.closing] := by
    simp [Import.text]
  rw [parts, lastOf_append]
  rfl

/-- After an import the search goes on behind it. -/
theorem matchesFrom_append
    {before : Option Char}
    (edge : wordAt before = false)
    (index : Nat)
    (first : Import)
    (rest : Text) :
    matchesFrom before index (first.text ++ rest) =
      first.matched index :: matchesFrom (some first.closing) (index + first.text.length) rest := by
  obtain ⟨c, more, text⟩ : ∃ c more, first.text = c :: more :=
    List.exists_cons_of_length_pos (by rw [first.length_text]; omega)
  have last : lastOf (some c) more = some first.closing := by
    rw [← lastOf_cons none, ← text, first.lastOf_text]
  have matched :
      importPattern.matchAt ⟨before, index, c :: (more ++ rest)⟩ = some (first.matched index) :=
    matchAt_eq_some.mpr ⟨edge, first, rest, by rw [text]; rfl, rfl⟩
  have skipped : (first.matched index).whole.text.length - 1 = more.length := by
    change first.text.length - 1 = _
    rw [text]
    rfl
  have count : index + 1 + more.length = index + first.text.length := by
    rw [text, List.length_cons]
    omega
  rw [text, List.cons_append, matchesFrom, findFrom, matched]
  dsimp only
  rw [skipped, findFrom_skip, last, count, ← text]
  rfl

@[simp]
theorem occurrencesFrom_nil
    (before : Option Char)
    (index : Nat) :
    occurrencesFrom before index [] = [] := by
  rw [occurrencesFrom, matchesFrom_nil]
  rfl

theorem occurrencesFrom_cons
    {before : Option Char}
    {c : Char}
    {rest : Text}
    (free : ¬Begins before (c :: rest))
    (index : Nat) :
    occurrencesFrom before index (c :: rest) = occurrencesFrom (some c) (index + 1) rest := by
  rw [occurrencesFrom, matchesFrom_cons free]
  rfl

theorem occurrencesFrom_append
    {before : Option Char}
    (edge : wordAt before = false)
    (index : Nat)
    (first : Import)
    (rest : Text) :
    occurrencesFrom before index (first.text ++ rest) =
      first.part index ::
        occurrencesFrom (some first.closing) (index + first.text.length) rest := by
  rw [occurrencesFrom, matchesFrom_append edge]
  rfl

/-- What holds of the empty text, and goes on over a character at which no import starts and over an
import, holds of every text. -/
@[elab_as_elim]
theorem importInduction
    {motive : Option Char → Text → Prop}
    (nil : ∀ before, motive before [])
    (pass : ∀ before c rest,
      ¬Begins before (c :: rest) → motive (some c) rest → motive before (c :: rest))
    (found : ∀ before (first : Import) rest,
      wordAt before = false → motive (some first.closing) rest → motive before (first.text ++ rest)) :
    ∀ before text, motive before text := by
  intro before text
  induction length : text.length using Nat.strongRecOn generalizing before text with
  | ind n inductionHypothesis =>
      subst length
      by_cases begins : Begins before text
      · obtain ⟨edge, first, rest, rfl⟩ := begins
        refine found before first rest edge (inductionHypothesis rest.length ?_ _ rest rfl)
        rw [List.length_append, first.length_text]
        omega
      · cases text with
        | nil =>
            exact nil before
        | cons c rest =>
            exact pass before c rest begins
              (inductionHypothesis rest.length (Nat.lt_succ_self _) _ rest rfl)

end Specifier

end LiveComponent
