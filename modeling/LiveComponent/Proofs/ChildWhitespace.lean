import LiveComponent.Proofs.ChildLines

namespace LiveComponent

/-!
# White space of texts between tags

`childText?` follows the usual rules on a text exactly if it does so on each run of blanks.  On a run with a line
feed both lose spaces, tabs and line breaks, and `childText?` loses all other blanks, too.  On a run without a
line feed `childText?` keeps carriage returns, except for those at the end of the text.

Texts that differ can mean the same once their entities are decoded, so different texts are told apart by how
often they hold a blank: entities are decoded within words, and both readings of a text have the same words.
-/

namespace Text

/-- Blanks end a word. -/
theorem wordsFrom_append
    {run : Text}
    (blank : ∀ c ∈ run, isBlank c = true)
    (word text : Text) :
    wordsFrom word (run ++ text) =
      if run.isEmpty then wordsFrom word text
      else (if word.isEmpty then [] else [word.reverse]) ++ wordsFrom [] text := by
  induction run generalizing word with
  | nil =>
      rfl
  | cons c run inductionHypothesis =>
      have rest := inductionHypothesis (fun other member => blank other (List.mem_cons_of_mem _ member)) []
      rw [List.cons_append, wordsFrom, if_pos (blank c List.mem_cons_self), rest]
      cases run <;> cases word <;> rfl

/-- Words go on alike after a run of blanks. -/
theorem wordsFrom_append_congr
    {run first second : Text}
    (blank : ∀ c ∈ run, isBlank c = true)
    (same : ∀ word, wordsFrom word first = wordsFrom word second)
    (word : Text) :
    wordsFrom word (run ++ first) = wordsFrom word (run ++ second) := by
  rw [wordsFrom_append blank, wordsFrom_append blank, same, same]

/-- Blanks at the end of a text make no word. -/
theorem wordsFrom_of_blank
    {run : Text}
    (blank : ∀ c ∈ run, isBlank c = true)
    (word : Text) :
    wordsFrom word run = wordsFrom word [] := by
  have ended := wordsFrom_append blank word []
  rw [List.append_nil] at ended
  rw [ended]
  cases run <;> cases word <;> rfl

/-- Words go on alike after the same character. -/
theorem wordsFrom_cons_congr
    {first second : Text}
    (same : ∀ word, wordsFrom word first = wordsFrom word second)
    (c : Char)
    (word : Text) :
    wordsFrom word (c :: first) = wordsFrom word (c :: second) := by
  rw [wordsFrom, wordsFrom, same, same]

/-- A part without a character does not reach over it. -/
theorem isPrefixOf_append_cons
    {part : Text}
    {c : Char}
    (free : c ∉ part)
    (text rest : Text) :
    part.isPrefixOf (text ++ c :: rest) = part.isPrefixOf text := by
  induction part generalizing text with
  | nil =>
      simp
  | cons a part inductionHypothesis =>
      obtain ⟨different, free⟩ := not_or.mp (mt List.mem_cons.mpr free)
      cases text with
      | nil => simp [List.isPrefixOf, Ne.symm different]
      | cons b text => simp [List.isPrefixOf, inductionHypothesis free]

/-- Occurrences are replaced on both sides of a character that none of them holds. -/
theorem replaceFrom_append_cons
    {part : Text}
    {c : Char}
    (nonempty : part ≠ [])
    (free : c ∉ part)
    (new first second : Text)
    {skip : Nat}
    (short : skip ≤ first.length) :
    replaceFrom part new skip (first ++ c :: second) =
      replaceFrom part new skip first ++ c :: replaceFrom part new 0 second := by
  induction first generalizing skip with
  | nil =>
      obtain rfl : skip = 0 := Nat.le_zero.mp short
      have noPrefix : part.isPrefixOf (c :: second) = false := by
        have none := isPrefixOf_append_cons free [] second
        rw [List.nil_append] at none
        rw [none]
        cases part with
        | nil => exact absurd rfl nonempty
        | cons => rfl
      conv_lhs => rw [List.nil_append, replaceFrom, if_neg (by simp [noPrefix])]
      rfl
  | cons d first inductionHypothesis =>
      cases skip with
      | succ skip =>
          exact inductionHypothesis (Nat.le_of_succ_le_succ short)
      | zero =>
          rw [List.cons_append, replaceFrom, replaceFrom, ← List.cons_append, isPrefixOf_append_cons free]
          split
          · rename_i occurs
            have fits : part.length - 1 ≤ first.length := by
              have length := (List.isPrefixOf_iff_prefix.mp occurs).length_le
              rw [List.length_cons] at length
              omega
            rw [inductionHypothesis fits, List.append_assoc]
          · rw [inductionHypothesis (Nat.zero_le _), List.cons_append]

end Text

namespace Markup

/-! ## What a scan keeps -/

namespace Rules

variable {rules : Rules}

/-- A run of white space is pending until it ends. -/
theorem scan_append
    {more : Text}
    (space : ∀ c ∈ more, rules.isSpace c = true)
    (started : Bool)
    (run rest : Text) :
    rules.scan started run (more ++ rest) = rules.scan started (run ++ more) rest := by
  induction more generalizing run with
  | nil =>
      simp
  | cons c more inductionHypothesis =>
      rw [List.cons_append, scan, if_pos (space c List.mem_cons_self),
        inductionHypothesis fun other member => space other (List.mem_cons_of_mem _ member)]
      simp

/-- A text of white space is one run. -/
theorem scan_of_space
    {run : Text}
    (space : ∀ c ∈ run, rules.isSpace c = true)
    (started : Bool) :
    rules.scan started [] run = if run.any rules.isBreak then [] else run.rdropWhile rules.isFinal := by
  have pending := scan_append space started [] []
  rw [List.append_nil, List.nil_append] at pending
  rw [pending, scan]

/-- What is left after another character does not depend on what precedes it. -/
theorem scan_append_cons
    {c : Char}
    (other : rules.isSpace c = false)
    (started : Bool)
    (run text rest : Text) :
    rules.scan started run (text ++ c :: rest) =
      rules.scan started run (text ++ [c]) ++ rules.scan true [] rest := by
  induction text generalizing started run with
  | nil =>
      simp [scan, other]
  | cons d text inductionHypothesis =>
      rw [List.cons_append, List.cons_append, scan, scan]
      split
      · exact inductionHypothesis ..
      · rw [inductionHypothesis]
        simp

/-- A text is read in two parts at the end of a word. -/
theorem collapsed_append
    {front : Text}
    (last : ∀ c ∈ front.getLast?, rules.isSpace c = false)
    (rest : Text) :
    rules.collapsed (front ++ rest) = rules.collapsed front ++ rules.scan (!front.isEmpty) [] rest := by
  rcases List.eq_nil_or_concat front with rfl | ⟨front, c, rfl⟩
  · rfl
  · rw [List.concat_eq_append] at last ⊢
    have step := scan_append_cons (last c (by simp)) false [] front rest
    have started : (front ++ [c]).isEmpty = false := by simp
    rw [started, List.append_assoc]
    exact step

/-- A run without a line break is kept. -/
theorem between_of_unbroken
    (started : Bool)
    {run : Text}
    (unbroken : ∀ c ∈ run, rules.isBreak c = false) :
    rules.between started run = run := by
  rw [between, if_neg]
  simpa using unbroken

/-- Without line breaks everything up to another character is kept. -/
theorem scan_append_cons_of_unbroken
    {c : Char}
    (other : rules.isSpace c = false)
    (started : Bool)
    {run text : Text}
    (unbroken : ∀ c ∈ run ++ text, rules.isBreak c = false)
    (rest : Text) :
    rules.scan started run (text ++ c :: rest) = run ++ text ++ c :: rules.scan true [] rest := by
  induction text generalizing started run with
  | nil =>
      rw [List.append_nil] at unbroken ⊢
      rw [List.nil_append, scan, if_neg (by simp [other]), between_of_unbroken started unbroken]
  | cons d text inductionHypothesis =>
      rw [List.cons_append, scan]
      split
      · rw [inductionHypothesis started fun c member => unbroken c (by simpa using member)]
        simp
      · rw [between_of_unbroken started fun c member => unbroken c (List.mem_append_left _ member),
          inductionHypothesis true fun c member => unbroken c (by simp_all)]
        simp

/-- Without line breaks a text that is not stripped at its end is kept. -/
theorem scan_of_unbroken
    (never : ∀ c, rules.isFinal c = false)
    (started : Bool)
    {run text : Text}
    (unbroken : ∀ c ∈ run ++ text, rules.isBreak c = false) :
    rules.scan started run text = run ++ text := by
  induction text generalizing started run with
  | nil =>
      rw [List.append_nil] at unbroken ⊢
      rw [scan, if_neg (by simpa using unbroken), rdropWhile_eq_self fun c _ => never c]
  | cons d text inductionHypothesis =>
      rw [scan]
      split
      · rw [inductionHypothesis started fun c member => unbroken c (by simpa using member)]
        simp
      · rw [between_of_unbroken started fun c member => unbroken c (List.mem_append_left _ member),
          inductionHypothesis true fun c member => unbroken c (by simp_all)]
        simp

section Counts

variable {p : Char → Bool}

/-- White space that is lost is not replaced by characters other than spaces. -/
theorem countP_between_le (rules : Rules) (noSpace : p ' ' = false) (started : Bool) (run : Text) :
    (rules.between started run).countP p ≤ run.countP p := by
  unfold between
  split
  · cases started <;> simp [noSpace]
  · exact Nat.le_refl _

/-- A scan adds spaces only. -/
theorem countP_scan_le (rules : Rules) (noSpace : p ' ' = false) (started : Bool) (run text : Text) :
    (rules.scan started run text).countP p ≤ run.countP p + text.countP p := by
  induction text generalizing started run with
  | nil =>
      rw [scan]
      split
      · exact Nat.zero_le _
      · exact (List.rdropWhile_prefix _ _).sublist.countP_le
  | cons c text inductionHypothesis =>
      rw [scan]
      split
      · have bound := inductionHypothesis started (run ++ [c])
        rw [List.countP_append] at bound
        rw [List.countP_cons]
        simp only [List.countP_cons, List.countP_nil] at bound
        omega
      · have bound := inductionHypothesis true []
        have lead := countP_between_le rules noSpace started run
        rw [List.countP_append, List.countP_cons, List.countP_cons]
        simp only [List.countP_nil] at bound
        omega

/-- What is no white space is kept. -/
theorem countP_scan
    (noSpace : p ' ' = false)
    (others : ∀ c, rules.isSpace c = true → p c = false)
    (started : Bool)
    {run : Text}
    (space : ∀ c ∈ run, rules.isSpace c = true)
    (text : Text) :
    (rules.scan started run text).countP p = text.countP p := by
  have lost {run : Text} (space : ∀ c ∈ run, rules.isSpace c = true) : run.countP p = 0 :=
    List.countP_eq_zero.mpr fun c member => by simp [others c (space c member)]
  induction text generalizing started run with
  | nil =>
      have bound := countP_scan_le rules noSpace started run []
      rw [lost space] at bound
      exact Nat.le_zero.mp bound
  | cons c text inductionHypothesis =>
      rw [scan]
      cases isSpace : rules.isSpace c with
      | true =>
          have longer : ∀ other ∈ run ++ [c], rules.isSpace other = true := by
            simpa [or_imp, forall_and, isSpace] using space
          rw [if_pos rfl, inductionHypothesis started longer, List.countP_cons, others c isSpace]
          rfl
      | false =>
          have lead := countP_between_le rules noSpace started run
          rw [lost space] at lead
          rw [if_neg Bool.false_ne_true, List.countP_append, Nat.le_zero.mp lead, Nat.zero_add, List.countP_cons,
            List.countP_cons, inductionHypothesis true (by simp)]

/-- Nothing is left of a run with a line break but a space. -/
theorem countP_scan_break_le
    (noSpace : p ' ' = false)
    (started : Bool)
    {run rest : Text}
    (broken : run.any rules.isBreak = true)
    (next : ∀ c ∈ rest.head?, rules.isSpace c = false) :
    (rules.scan started run rest).countP p ≤ rest.countP p := by
  cases rest with
  | nil =>
      rw [scan, if_pos broken]
  | cons c rest =>
      have space : (if started then [' '] else []).countP p = 0 := by
        cases started <;> simp [noSpace]
      have bound := countP_scan_le rules noSpace true [] rest
      rw [scan, if_neg (by simp [next c rfl]), between, if_pos broken, List.countP_append, space, Nat.zero_add,
        List.countP_cons, List.countP_cons]
      simp only [List.countP_nil] at bound
      omega

/-- A run with a line break is lost at the end of a text. -/
theorem countP_scan_trailing_le
    (started : Bool)
    (run text : Text)
    {tail : Text}
    (unbroken : ∀ c ∈ run ++ text, rules.isBreak c = false)
    (space : ∀ c ∈ tail, rules.isSpace c = true)
    (broken : tail.any rules.isBreak = true) :
    (rules.scan started run (text ++ tail)).countP p ≤ run.countP p + text.countP p := by
  induction text generalizing started run with
  | nil =>
      have ended : (run ++ tail).any rules.isBreak = true := by simp [broken]
      rw [List.nil_append, ← List.append_nil tail, scan_append (by simpa using space), scan, if_pos (by simpa using ended)]
      exact Nat.zero_le _
  | cons c text inductionHypothesis =>
      rw [List.cons_append, scan]
      split
      · have bound := inductionHypothesis started (run ++ [c]) fun c member => unbroken c (by simpa using member)
        rw [List.countP_append] at bound
        rw [List.countP_cons]
        simp only [List.countP_cons, List.countP_nil] at bound
        omega
      · have bound := inductionHypothesis true [] fun c member => unbroken c (by simp_all)
        rw [between_of_unbroken started fun c member => unbroken c (List.mem_append_left _ member), List.countP_append,
          List.countP_cons, List.countP_cons]
        simp only [List.countP_nil] at bound
        omega

end Counts

/-- No line break is left. -/
theorem isBreak_of_mem_scan
    (rules : Rules)
    (noBreak : rules.isBreak ' ' = false)
    (started : Bool)
    (run text : Text) :
    ∀ c ∈ rules.scan started run text, rules.isBreak c = false := by
  have lead (started : Bool) (run : Text) : ∀ c ∈ rules.between started run, rules.isBreak c = false := by
    unfold between
    split
    · cases started <;> simp [noBreak]
    · rename_i unbroken
      simpa using unbroken
  induction text generalizing started run with
  | nil =>
      rw [scan]
      split
      · simp
      · rename_i unbroken
        intro c member
        have inRun := (List.rdropWhile_prefix _ _).subset member
        exact (by simpa using unbroken : ∀ c ∈ run, rules.isBreak c = false) c inRun
  | cons c text inductionHypothesis =>
      rw [scan]
      split
      · exact inductionHypothesis started (run ++ [c])
      · rename_i other
        have noBreak : rules.isBreak c = false := by
          rw [isSpace, Bool.not_eq_true, Bool.or_eq_false_iff] at other
          exact other.2
        simpa [or_imp, forall_and, noBreak] using ⟨lead started run, inductionHypothesis true []⟩

/-- A scan keeps the words of a text. -/
theorem wordsFrom_scan
    (blank : ∀ c, rules.isSpace c = true → isBlank c = true)
    (started : Bool)
    (word : Text)
    {run : Text}
    (begun : started = false → word = [])
    (space : ∀ c ∈ run, rules.isSpace c = true)
    (text : Text) :
    Text.wordsFrom word (rules.scan started run text) = Text.wordsFrom word (run ++ text) := by
  have blanks {run : Text} (space : ∀ c ∈ run, rules.isSpace c = true) : ∀ c ∈ run, isBlank c = true :=
    fun c member => blank c (space c member)
  induction text generalizing started word run with
  | nil =>
      have shorter : ∀ c ∈ run.rdropWhile rules.isFinal, isBlank c = true :=
        fun c member => blanks space c ((List.rdropWhile_prefix _ _).subset member)
      rw [List.append_nil, Text.wordsFrom_of_blank (blanks space), scan]
      split
      · rfl
      · exact Text.wordsFrom_of_blank shorter word
  | cons c text inductionHypothesis =>
      rw [scan]
      cases isSpace : rules.isSpace c with
      | true =>
          have longer : ∀ other ∈ run ++ [c], rules.isSpace other = true := by
            simpa [or_imp, forall_and, isSpace] using space
          rw [if_pos rfl, inductionHypothesis started word begun longer, List.append_assoc]
          rfl
      | false =>
          have rest (word : Text) : Text.wordsFrom word (c :: rules.scan true [] text) = Text.wordsFrom word (c :: text) :=
            Text.wordsFrom_cons_congr (fun word => inductionHypothesis true word (fun off => absurd off (by decide)) (by simp)) c word
          rw [if_neg Bool.false_ne_true]
          cases broken : run.any rules.isBreak with
          | false =>
              rw [between_of_unbroken started (by simpa using broken)]
              exact Text.wordsFrom_append_congr (blanks space) rest word
          | true =>
              have some : run.isEmpty = false := by
                cases run with
                | nil => cases broken
                | cons => rfl
              rw [between, if_pos broken, Text.wordsFrom_append (blanks space), some]
              cases started with
              | true =>
                  rw [if_pos rfl, Text.wordsFrom_append (List.all_eq_true.mp (by decide)), rest, rest]
                  rfl
              | false =>
                  rw [begun rfl, if_neg Bool.false_ne_true, List.nil_append, rest]
                  rfl

/-- Nothing but blanks is lost. -/
theorem words_collapsed
    (blank : ∀ c, rules.isSpace c = true → isBlank c = true)
    (text : Text) :
    Text.words (rules.collapsed text) = Text.words text :=
  wordsFrom_scan blank false [] (fun _ => rfl) (by simp) text

end Rules

/-! ## Decoded texts -/

/-- No entity holds a blank. -/
theorem free_of_mem_entities
    {c : Char}
    (blank : isBlank c = true) :
    ∀ entity ∈ entities, entity.1 ≠ [] ∧ c ∉ entity.1 := by
  have solid : entities.all (fun entity => !entity.1.isEmpty && entity.1.all fun d => !isBlank d) = true := by decide
  intro entity member
  obtain ⟨nonempty, free⟩ := Bool.and_eq_true_iff.mp (List.all_eq_true.mp solid entity member)
  refine ⟨by simpa using nonempty, fun inEntity => ?_⟩
  have noBlank := List.all_eq_true.mp free c inEntity
  rw [blank] at noBlank
  cases noBlank

/-- Entities are decoded on both sides of a blank. -/
theorem decodeEntities_append_cons
    {c : Char}
    (blank : isBlank c = true)
    (first second : Text) :
    decodeEntities (first ++ c :: second) = decodeEntities first ++ c :: decodeEntities second := by
  have free := free_of_mem_entities blank
  unfold decodeEntities
  generalize entities = table at free
  induction table generalizing first second with
  | nil =>
      rfl
  | cons entity table inductionHypothesis =>
      obtain ⟨nonempty, noEntity⟩ := free entity List.mem_cons_self
      have step : Text.replaceAll entity.1 entity.2 (first ++ c :: second) =
          Text.replaceAll entity.1 entity.2 first ++ c :: Text.replaceAll entity.1 entity.2 second :=
        Text.replaceFrom_append_cons nonempty noEntity entity.2 first second (Nat.zero_le _)
      simp only [List.foldl_cons]
      rw [step]
      exact inductionHypothesis _ _ fun entity member => free entity (List.mem_cons_of_mem _ member)

section Counts

variable {p : Char → Bool}

/-- How often a blank is in a decoded text depends on how often it is in the text, and on the words. -/
theorem countP_decodeEntities
    (blanks : ∀ c, p c = true → isBlank c = true)
    (word text : Text) :
    (decodeEntities (word.reverse ++ text)).countP p =
      text.countP p + ((Text.wordsFrom word text).flatMap decodeEntities).countP p := by
  induction text generalizing word with
  | nil =>
      rw [List.append_nil, Text.wordsFrom]
      cases word with
      | nil => rfl
      | cons => simp
  | cons c text inductionHypothesis =>
      rw [Text.wordsFrom]
      cases blank : isBlank c with
      | true =>
          have rest := inductionHypothesis []
          rw [List.reverse_nil, List.nil_append] at rest
          rw [decodeEntities_append_cons blank, List.countP_append, List.countP_cons, rest, List.countP_cons, if_pos rfl]
          cases word with
          | nil => simp [decodeEntities, entities, Text.replaceAll, Text.replaceFrom]; omega
          | cons => simp; omega
      | false =>
          have never : p c = false := by
            cases holds : p c with
            | false => rfl
            | true => rw [blanks c holds] at blank; cases blank
          have longer := inductionHypothesis (c :: word)
          rw [List.reverse_cons, List.append_assoc] at longer
          rw [if_neg Bool.false_ne_true, List.countP_cons, never]
          exact longer

/-- A tab is as blank as a space. -/
theorem wordsFrom_spaced (word text : Text) :
    Text.wordsFrom word (spaced text) = Text.wordsFrom word text := by
  induction text generalizing word with
  | nil =>
      rfl
  | cons c text inductionHypothesis =>
      by_cases tab : c = '\t'
      · subst tab
        change Text.wordsFrom word (' ' :: spaced text) = _
        rw [Text.wordsFrom, Text.wordsFrom, inductionHypothesis]
        rfl
      · have same : spaced (c :: text) = c :: spaced text := by simp [spaced, tab]
        rw [same]
        exact Text.wordsFrom_cons_congr inductionHypothesis c word

/-- Texts with the same words that mean the same hold each blank equally often. -/
theorem countP_of_shown
    {first second : Text}
    (words : Text.words first = Text.words second)
    (same : shown first = shown second)
    (blanks : ∀ c, p c = true → isBlank c = true) :
    (spaced first).countP p = (spaced second).countP p := by
  have decoded : decodeEntities (spaced first) = decodeEntities (spaced second) := by
    unfold shown at same
    split at same <;> split at same <;> simp_all
  have counted (text : Text) : (decodeEntities (spaced text)).countP p =
      (spaced text).countP p + ((Text.words text).flatMap decodeEntities).countP p := by
    have count := countP_decodeEntities blanks [] (spaced text)
    rw [wordsFrom_spaced] at count
    exact count
  have counts := (counted first).symm.trans ((congrArg (List.countP p) decoded).trans (counted second))
  rw [words] at counts
  exact Nat.add_right_cancel counts

end Counts

/-! ## Runs of blanks -/

/-- The text has a run of blanks at this place, and the run is as long as it can be. -/
structure IsRun (text front run back : Text) : Prop where
  split : text = front ++ run ++ back
  nonempty : run ≠ []
  blank : ∀ c ∈ run, isBlank c = true
  before : ∀ c ∈ front.getLast?, isBlank c = false
  after : ∀ c ∈ back.head?, isBlank c = false

/-- A run of blanks that both readings treat alike: with a line feed it holds only spaces, tabs and line breaks;
without one it holds a carriage return only at the end of the text, where all but the carriage returns is kept. -/
def TreatedAlike (run back : Text) : Prop :=
  ('\n' ∈ run → ∀ c ∈ run, c ∈ [' ', '\t', '\n', '\r']) ∧
    ('\n' ∉ run → '\r' ∈ run → back = [] ∧ ∃ lead returns, run = lead ++ returns ∧
      (∀ c ∈ returns, c = '\r') ∧ '\r' ∉ lead ∧ ∀ c ∈ lead.getLast?, c ≠ ' ' ∧ c ≠ '\t')

namespace Rules

/-- For `childText?` every blank is white space. -/
theorem isSpace_feeds (c : Char) : feeds.isSpace c = isBlank c := by
  by_cases feed : c = '\n'
  · subst feed
    rfl
  · simp [isSpace, feeds, feed]

/-- By the usual rules spaces, tabs and line breaks are white space. -/
theorem isSpace_usual (c : Char) : usual.isSpace c = true ↔ c ∈ [' ', '\t', '\n', '\r'] := by
  simp [isSpace, usual, or_assoc]

/-- White space by the usual rules is blank. -/
theorem isBlank_of_isSpace_usual (c : Char) (space : usual.isSpace c = true) : isBlank c = true := by
  have blank : [' ', '\t', '\n', '\r'].all isBlank = true := by decide
  exact List.all_eq_true.mp blank c ((isSpace_usual c).mp space)

/-- What is not blank is no white space. -/
theorem isSpace_usual_eq_false {c : Char} (solid : isBlank c = false) : usual.isSpace c = false := by
  cases space : usual.isSpace c with
  | false => rfl
  | true => rw [isBlank_of_isSpace_usual c space] at solid; cases solid

/-- Without line feeds and carriage returns there is no line break by the usual rules. -/
theorem isBreak_usual_eq_false
    {text : Text}
    (noFeed : '\n' ∉ text)
    (noReturn : '\r' ∉ text) :
    ∀ c ∈ text, usual.isBreak c = false := by
  intro c member
  simp only [usual, Bool.or_eq_false_iff, beq_eq_false_iff_ne]
  exact ⟨fun same => noFeed (same ▸ member), fun same => noReturn (same ▸ member)⟩

end Rules

namespace IsRun

variable {text front run back : Text}

/-- A run is one of a longer text, too, if it is separate from what precedes. -/
theorem prepend
    (isRun : IsRun text front run back)
    (lead : Text)
    (last : ∀ c ∈ lead.getLast?, isBlank c = false) :
    IsRun (lead ++ text) (lead ++ front) run back where
  split := by simp [isRun.split]
  nonempty := isRun.nonempty
  blank := isRun.blank
  before := by
    rcases List.eq_nil_or_concat front with none | ⟨front, c, shape⟩
    · simpa [none] using last
    · simpa [shape] using isRun.before
  after := isRun.after

/-- A run of a text that does not end in it is one of a longer text. -/
theorem append
    (isRun : IsRun text front run back)
    (last : ∀ c ∈ text.getLast?, isBlank c = false)
    (more : Text) :
    back ≠ [] ∧ IsRun (text ++ more) front run (back ++ more) := by
  have inside : back ≠ [] := by
    rintro rfl
    rcases List.eq_nil_or_concat run with none | ⟨run, c, rfl⟩
    · exact isRun.nonempty none
    · have blank := isRun.blank c (by simp)
      rw [last c (by simp [isRun.split])] at blank
      cases blank
  refine ⟨inside, by simp [isRun.split], isRun.nonempty, isRun.blank, isRun.before, ?_⟩
  cases back with
  | nil => exact absurd rfl inside
  | cons c back => exact isRun.after

/-- A text that begins with a blank begins with a run. -/
theorem exists_of_isBlank
    {c : Char}
    (blank : isBlank c = true)
    (rest : Text) :
    ∃ run back, IsRun (c :: rest) [] run back := by
  refine ⟨(c :: rest).takeWhile isBlank, (c :: rest).dropWhile isBlank, by simp, ?_, ?_, by simp, ?_⟩
  · simp [blank]
  · exact fun c member => List.mem_takeWhile_imp member
  · intro next found
    have stops := List.head?_dropWhile_not isBlank (c :: rest)
    rw [found] at stops
    exact stops

end IsRun

/-- A run before another character is treated alike. -/
theorem scan_run_cons
    {run back : Text}
    {c : Char}
    (blank : ∀ c ∈ run, isBlank c = true)
    (other : isBlank c = false)
    (alike : TreatedAlike run (c :: back))
    (started : Bool) :
    ∃ between,
      Rules.feeds.scan started [] (run ++ c :: back) = between ++ c :: Rules.feeds.scan true [] back ∧
        Rules.usual.scan started [] (run ++ c :: back) = between ++ c :: Rules.usual.scan true [] back := by
  have space : ∀ c ∈ run, Rules.feeds.isSpace c = true := fun c member =>
    (Rules.isSpace_feeds c).trans (blank c member)
  have stop := Rules.isSpace_usual_eq_false other
  refine ⟨Rules.feeds.between started run, ?_, ?_⟩
  · rw [Rules.scan_append space, Rules.scan, if_neg (by simp [Rules.isSpace_feeds, other]), List.nil_append]
  · by_cases feed : '\n' ∈ run
    · have broken : run.any Rules.feeds.isBreak = true := List.any_eq_true.mpr ⟨_, feed, rfl⟩
      have brokenUsual : run.any Rules.usual.isBreak = true := List.any_eq_true.mpr ⟨_, feed, rfl⟩
      rw [Rules.scan_append fun c member => (Rules.isSpace_usual c).mpr (alike.1 feed c member), Rules.scan,
        if_neg (by simp [stop]), List.nil_append, Rules.between, Rules.between, if_pos broken, if_pos brokenUsual]
    · have noReturn : '\r' ∉ run := fun member => List.cons_ne_nil c back (alike.2 feed member).1
      have unbroken := Rules.isBreak_usual_eq_false feed noReturn
      have kept : ∀ c ∈ run, Rules.feeds.isBreak c = false := fun c member =>
        (Bool.or_eq_false_iff.mp (unbroken c member)).1
      rw [Rules.scan_append_cons_of_unbroken stop started (by simpa using unbroken),
        Rules.between_of_unbroken started kept]
      rfl

/-- By the usual rules carriage returns at the end of a text are lost, and so would be spaces and tabs before them. -/
theorem scan_append_returns
    {lead returns : Text}
    (noFeed : '\n' ∉ lead)
    (noReturn : '\r' ∉ lead)
    (last : ∀ c ∈ lead.getLast?, c ≠ ' ' ∧ c ≠ '\t')
    (isReturn : ∀ c ∈ returns, c = '\r')
    (started : Bool) :
    Rules.usual.scan started [] (lead ++ returns) = lead := by
  have lost (started : Bool) : Rules.usual.scan started [] returns = [] := by
    have space : ∀ c ∈ returns, Rules.usual.isSpace c = true := fun c member => by
      rw [isReturn c member]
      rfl
    rw [Rules.scan_of_space space]
    cases returns with
    | nil => rfl
    | cons c returns => simp [isReturn c List.mem_cons_self, Rules.usual]
  rcases List.eq_nil_or_concat lead with rfl | ⟨lead, c, rfl⟩
  · exact lost started
  · rw [List.concat_eq_append] at *
    have solid : Rules.usual.isSpace c = false := by
      obtain ⟨noSpace, noTab⟩ := last c (by simp)
      have noBreak := Rules.isBreak_usual_eq_false noFeed noReturn c (by simp)
      rw [Rules.isSpace, noBreak]
      simp [Rules.usual, noSpace, noTab]
    have unbroken : ∀ d ∈ [] ++ lead, Rules.usual.isBreak d = false := fun d member =>
      Rules.isBreak_usual_eq_false noFeed noReturn d (by simp_all)
    rw [List.append_assoc, List.singleton_append, Rules.scan_append_cons_of_unbroken solid started unbroken, lost]
    rfl

/-- A run at the end of a text is treated alike. -/
theorem scan_run
    {run : Text}
    (blank : ∀ c ∈ run, isBlank c = true)
    (alike : TreatedAlike run [])
    (started : Bool) :
    Rules.feeds.scan started [] run = Rules.usual.scan started [] run := by
  have space : ∀ c ∈ run, Rules.feeds.isSpace c = true := fun c member =>
    (Rules.isSpace_feeds c).trans (blank c member)
  rw [Rules.scan_of_space space]
  by_cases feed : '\n' ∈ run
  · have usualSpace : ∀ c ∈ run, Rules.usual.isSpace c = true := fun c member =>
      (Rules.isSpace_usual c).mpr (alike.1 feed c member)
    rw [Rules.scan_of_space usualSpace, if_pos (List.any_eq_true.mpr ⟨_, feed, rfl⟩),
      if_pos (List.any_eq_true.mpr ⟨_, feed, rfl⟩)]
  · have kept : ¬run.any Rules.feeds.isBreak = true := by
      simpa [Rules.feeds] using feed
    rw [if_neg kept]
    by_cases isReturned : '\r' ∈ run
    · obtain ⟨-, lead, returns, rfl, isReturn, noReturn, last⟩ := alike.2 feed isReturned
      have noFeed : '\n' ∉ lead := fun member => feed (List.mem_append_left _ member)
      have dropped : returns.rdropWhile Rules.feeds.isFinal = [] :=
        rdropWhile_eq_nil fun c member => by rw [isReturn c member]; rfl
      have stays : lead.rdropWhile Rules.feeds.isFinal = lead :=
        rdropWhile_eq_self fun c isLast =>
          beq_eq_false_iff_ne.mpr fun same => noReturn (same ▸ List.mem_of_getLast? isLast)
      rw [scan_append_returns noFeed noReturn last isReturn, rdropWhile_append, dropped]
      exact stays
    · rw [Rules.scan_of_unbroken (fun _ => rfl) started (Rules.isBreak_usual_eq_false feed isReturned)]
      exact rdropWhile_eq_self fun c isLast =>
        beq_eq_false_iff_ne.mpr fun same => isReturned (same ▸ List.mem_of_getLast? isLast)

/-- Both readings leave the same of a text whose runs they treat alike. -/
theorem scan_eq_of_treatedAlike
    (started : Bool)
    (text : Text)
    (alike : ∀ front run back, IsRun text front run back → TreatedAlike run back) :
    Rules.feeds.scan started [] text = Rules.usual.scan started [] text := by
  induction size : text.length using Nat.strongRecOn generalizing started text with
  | ind size shorter =>
    subst size
    cases text with
    | nil =>
        rfl
    | cons c rest =>
        cases blank : isBlank c with
        | false =>
            have later := shorter rest.length (by simp) true rest
              (fun front run back isRun => alike _ run back (isRun.prepend [c] (by simpa using blank))) rfl
            simp [Rules.scan, Rules.isSpace_feeds, Rules.isSpace_usual_eq_false blank, blank, Rules.between, later]
        | true =>
            obtain ⟨run, back, isRun⟩ := IsRun.exists_of_isBlank blank rest
            have treated := alike [] run back isRun
            have split := isRun.split
            rw [List.nil_append] at split
            rw [split] at alike shorter ⊢
            cases back with
            | nil =>
                rw [List.append_nil]
                exact scan_run isRun.blank treated started
            | cons d back =>
                have other := isRun.after d rfl
                obtain ⟨between, feeds, usual⟩ := scan_run_cons isRun.blank other treated started
                have later := shorter back.length (by simp; omega) true back ?_ rfl
                · rw [feeds, usual, later]
                · intro front run' back' inner
                  have outer := inner.prepend (run ++ [d]) (by simpa using other)
                  rw [List.append_assoc, List.singleton_append] at outer
                  exact alike _ run' back' outer

/-! ## Texts that mean the same -/

section Same

variable {raw front run back : Text}

/-- What `childText?` leaves of a text with a run. -/
theorem IsRun.collapsed_feeds (isRun : IsRun raw front run back) :
    Rules.feeds.collapsed raw =
      Rules.feeds.collapsed front ++ Rules.feeds.scan (!front.isEmpty) run back := by
  have space : ∀ c ∈ run, Rules.feeds.isSpace c = true := fun c member =>
    (Rules.isSpace_feeds c).trans (isRun.blank c member)
  rw [isRun.split, List.append_assoc,
    Rules.collapsed_append fun c member => (Rules.isSpace_feeds c).trans (isRun.before c member),
    Rules.scan_append space]
  rfl

/-- What is left of a text by the usual rules holds each blank equally often. -/
theorem countP_of_same
    {p : Char → Bool}
    (same : childText? raw = usualText? raw)
    (blanks : ∀ c, p c = true → isBlank c = true) :
    (Rules.feeds.collapsed raw).countP (fun c => p (if c == '\t' then ' ' else c)) =
      (Rules.usual.collapsed raw).countP fun c => p (if c == '\t' then ' ' else c) := by
  rw [childText?_eq, usualText?_eq] at same
  have words := (Rules.words_collapsed (fun c space => Rules.isSpace_feeds c ▸ space) raw).trans
    (Rules.words_collapsed Rules.isBlank_of_isSpace_usual raw).symm
  have counts := countP_of_shown words same blanks
  unfold spaced at counts
  rwa [List.countP_map, List.countP_map] at counts

/-- A run with a line feed holds no other blanks. -/
theorem IsRun.simple_of_feed
    (isRun : IsRun raw front run back)
    (same : childText? raw = usualText? raw)
    (feed : '\n' ∈ run) :
    ∀ c ∈ run, c ∈ [' ', '\t', '\n', '\r'] := by
  -- the usual rules keep all other blanks, and `childText?` loses those of the run
  let isOther (c : Char) : Bool := isBlank c && !Rules.usual.isSpace c
  have counts := countP_of_same (p := isOther) same fun c other => (Bool.and_eq_true_iff.mp other).1
  generalize shape : (fun c => isOther (if c == '\t' then ' ' else c)) = counted at counts
  have noSpace : counted ' ' = false := by
    rw [← shape]
    decide
  have others (c : Char) (space : Rules.usual.isSpace c = true) : counted c = false := by
    have simple : [' ', '\t', '\n', '\r'].all (fun c => !isOther (if c == '\t' then ' ' else c)) = true := by decide
    rw [← shape]
    simpa using List.all_eq_true.mp simple c ((Rules.isSpace_usual c).mp space)
  have broken : run.any Rules.feeds.isBreak = true := List.any_eq_true.mpr ⟨_, feed, rfl⟩
  have usual : (Rules.usual.collapsed raw).countP counted = raw.countP counted :=
    Rules.countP_scan noSpace others false (by simp) raw
  have lead := Rules.countP_scan_le Rules.feeds noSpace false [] front
  have trail := Rules.countP_scan_break_le noSpace (!front.isEmpty) broken
    fun c next => (Rules.isSpace_feeds c).trans (isRun.after c next)
  rw [usual, isRun.collapsed_feeds, List.countP_append, isRun.split, List.countP_append, List.countP_append] at counts
  rw [List.countP_nil, Nat.zero_add] at lead
  have none : run.countP counted = 0 := by
    unfold Rules.collapsed at counts
    omega
  intro c member
  have uncounted : counted c = false := by simpa using List.countP_eq_zero.mp none c member
  rw [← shape] at uncounted
  by_cases tab : c = '\t'
  · simp [tab]
  · apply (Rules.isSpace_usual c).mp
    simpa [isOther, tab, isRun.blank c member] using uncounted

/-- A run without a line feed holds no carriage return but at the end of the text. -/
theorem IsRun.back_eq_nil_of_return
    (isRun : IsRun raw front run back)
    (same : childText? raw = usualText? raw)
    (noFeed : '\n' ∉ run)
    (isReturned : '\r' ∈ run) :
    back = [] ∧ '\r' ∉ run.rdropWhile Rules.feeds.isFinal := by
  have noReturn : '\r' ∉ Rules.feeds.collapsed raw := by
    have counts := countP_of_same (p := fun c => c == '\r') same fun c isReturn => by
      rw [eq_of_beq isReturn]
      rfl
    have usual : (Rules.usual.collapsed raw).countP (fun c => (if c == '\t' then ' ' else c) == '\r') = 0 := by
      refine List.countP_eq_zero.mpr fun c member => ?_
      have unbroken := Rules.isBreak_of_mem_scan Rules.usual (by decide) false [] raw c member
      by_cases tab : c = '\t'
      · simp [tab]
      · simp_all [Rules.usual]
    rw [usual] at counts
    intro member
    exact List.countP_eq_zero.mp counts _ member rfl
  have kept : ¬run.any Rules.feeds.isBreak = true := by
    simpa [Rules.feeds] using noFeed
  rw [isRun.collapsed_feeds] at noReturn
  cases back with
  | nil =>
      rw [Rules.scan, if_neg kept] at noReturn
      exact ⟨rfl, fun member => noReturn (List.mem_append_right _ member)⟩
  | cons c back =>
      have solid : Rules.feeds.isSpace c = false := (Rules.isSpace_feeds c).trans (isRun.after c rfl)
      rw [Rules.scan, if_neg (by simp [solid]), Rules.between, if_neg kept] at noReturn
      exact (noReturn (by simp [isReturned])).elim

/-- A text before a run is read alike if the whole is. -/
theorem IsRun.collapsed_front
    (isRun : IsRun raw front run back)
    (same : childText? raw = usualText? raw) :
    Rules.feeds.collapsed front = Rules.usual.collapsed front := by
  refine scan_eq_of_treatedAlike false front fun _ _ _ inner => ?_
  obtain ⟨inside, outer⟩ := inner.append isRun.before (run ++ back)
  rw [← List.append_assoc, ← isRun.split] at outer
  refine ⟨outer.simple_of_feed same, fun noFeed isReturned => ?_⟩
  have ended := (outer.back_eq_nil_of_return same noFeed isReturned).1
  exact absurd (List.append_eq_nil_iff.mp ended).1 inside

/-- Before carriage returns at the end of the text there is no space or tab. -/
theorem IsRun.last_of_return
    (isRun : IsRun raw front run [])
    (same : childText? raw = usualText? raw)
    (noFeed : '\n' ∉ run)
    (isReturned : '\r' ∈ run) :
    ∀ c ∈ (run.rdropWhile Rules.feeds.isFinal).getLast?, c ≠ ' ' ∧ c ≠ '\t' := by
  intro c isLast
  by_contra isStripped
  -- both readings agree up to the run, then the usual rules lose a space that `childText?` keeps
  obtain ⟨lead, shape⟩ : ∃ lead, run.rdropWhile Rules.feeds.isFinal = lead ++ [c] :=
    ⟨_, (List.dropLast_append_getLast? c isLast).symm⟩
  have noReturn := (isRun.back_eq_nil_of_return same noFeed isReturned).2
  obtain ⟨returns, whole, isReturn⟩ : ∃ returns, run = lead ++ c :: returns ∧ ∀ d ∈ returns, d = '\r' := by
    refine ⟨run.rtakeWhile Rules.feeds.isFinal, ?_, fun d member => ?_⟩
    · rw [List.append_cons, ← shape, List.rdropWhile_append_rtakeWhile]
    · have final : Rules.feeds.isFinal d = true := List.mem_rtakeWhile_imp member
      exact eq_of_beq final
  have isSpace : c = ' ' ∨ c = '\t' := by
    simpa [or_iff_not_imp_left] using isStripped
  have unbroken : ∀ d ∈ [] ++ lead, Rules.usual.isBreak d = false :=
    Rules.isBreak_usual_eq_false (fun member => noFeed (by simp_all)) fun member => noReturn (by simp_all)
  have space : ∀ d ∈ c :: returns, Rules.usual.isSpace d = true := by
    intro d member
    rcases List.mem_cons.mp member with rfl | member
    · rcases isSpace with rfl | rfl <;> rfl
    · rw [isReturn d member]
      rfl
  have broken : (c :: returns).any Rules.usual.isBreak = true := by
    refine List.any_eq_true.mpr ⟨'\r', ?_, rfl⟩
    rw [shape] at noReturn
    simp_all
  have counts := countP_of_same (p := (· == ' ')) same fun d space => by
    rw [eq_of_beq space]
    rfl
  rw [isStripped_usual] at counts
  have feeds : Rules.feeds.collapsed raw = Rules.feeds.collapsed front ++ (lead ++ [c]) := by
    rw [isRun.collapsed_feeds, Rules.scan, if_neg (by simpa [Rules.feeds] using noFeed), shape]
  have usual : Rules.usual.collapsed raw =
      Rules.usual.collapsed front ++ Rules.usual.scan (!front.isEmpty) [] (lead ++ c :: returns) := by
    rw [isRun.split, List.append_nil, whole]
    exact Rules.collapsed_append (fun d member => Rules.isSpace_usual_eq_false (isRun.before d member)) _
  have bound := Rules.countP_scan_trailing_le (p := Rules.usual.isStripped) (!front.isEmpty) [] lead unbroken space broken
  have last : [c].countP Rules.usual.isStripped = 1 := by
    rcases isSpace with rfl | rfl <;> rfl
  rw [feeds, usual, isRun.collapsed_front same, List.countP_append, List.countP_append, List.countP_append, last] at counts
  rw [List.countP_nil] at bound
  omega

end Same

/-- `childText?` follows the usual rules exactly on the texts of which both treat every run of blanks alike: where a
line feed is, there are no blanks but spaces, tabs and line breaks, and a carriage return without a line feed is
at the end of the text, after no space or tab. -/
theorem usual_rules_followed_iff (raw : Text) :
    childText? raw = usualText? raw ↔
      ∀ front run back, IsRun raw front run back → TreatedAlike run back := by
  constructor
  · intro same front run back isRun
    refine ⟨isRun.simple_of_feed same, fun noFeed isReturned => ?_⟩
    obtain ⟨rfl, noReturn⟩ := isRun.back_eq_nil_of_return same noFeed isReturned
    refine ⟨rfl, run.rdropWhile Rules.feeds.isFinal, run.rtakeWhile Rules.feeds.isFinal,
      List.rdropWhile_append_rtakeWhile.symm, fun c member => ?_, noReturn, isRun.last_of_return same noFeed isReturned⟩
    have isReturn : Rules.feeds.isFinal c = true := List.mem_rtakeWhile_imp member
    exact eq_of_beq isReturn
  · intro alike
    rw [childText?_eq, usualText?_eq, Rules.collapsed, Rules.collapsed, scan_eq_of_treatedAlike false raw alike]

/-- An ideographic space beside a line feed and a lone carriage return are not treated alike. -/
example :
    childText? "a\u3000\nb".toList = some "a b".toList ∧ usualText? "a\u3000\nb".toList = some "a\u3000 b".toList ∧
      childText? "a\rb".toList = some "a\rb".toList ∧ usualText? "a\rb".toList = some "a b".toList := by
  decide +kernel

end Markup

end LiveComponent
