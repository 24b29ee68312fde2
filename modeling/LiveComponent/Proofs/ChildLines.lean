import LiveComponent.Markup.ChildText
import LiveComponent.Proofs.TextParts
import Mathlib.Data.List.DropRight

namespace LiveComponent

/-!
# Lines of texts between tags

By the usual rules a text between tags is split at its line breaks, its lines lose the spaces around the breaks,
and what is left of them is joined with single spaces.  The lines of `childText?` end at line feeds only and lose
every blank character.  Both are one scan over the text, which keeps a pending run of white space and decides
about it where the run ends.
-/

namespace Markup

/-! ## The usual rules -/

/-- The lines of a text.  A line feed, a carriage return or both in this order end a line. -/
def linesOf : Text → List Text
  | [] => [[]]
  | '\r' :: '\n' :: rest => [] :: linesOf rest
  | c :: rest =>
    if c = '\n' ∨ c = '\r' then
      [] :: linesOf rest
    else
      match linesOf rest with
      | [] => [[c]]
      | line :: lines => (c :: line) :: lines

/-- The line with spaces for tabs. -/
def spaced (line : Text) : Text :=
  line.map fun c => if c == '\t' then ' ' else c

/-- The lines without leading spaces in all but the first one and without trailing spaces in all but the last one. -/
def strippedLines : Bool → List Text → List Text
  | _, [] => []
  | isFirst, [line] => [if isFirst then line else line.dropWhile (· == ' ')]
  | isFirst, line :: lines =>
    let kept := line.rdropWhile (· == ' ')
    (if isFirst then kept else kept.dropWhile (· == ' ')) :: strippedLines false lines

/-- The text that a raw text between tags stands for by the usual rules; none if nothing is left of it. -/
def usualText? (raw : Text) : Option Text :=
  let parts := (strippedLines true ((linesOf raw).map spaced)).filter fun part => !part.isEmpty
  if parts.isEmpty then none else some (decodeEntities (Text.joinWith [' '] parts))

/-! ## Ends of lists -/

section Ends

variable {α : Type} {p : α → Bool}

/-- What is dropped at the end of two lists is dropped from the second one, or from the first one as well. -/
theorem rdropWhile_append (first second : List α) :
    (first ++ second).rdropWhile p =
      if (second.rdropWhile p).isEmpty then first.rdropWhile p else first ++ second.rdropWhile p := by
  unfold List.rdropWhile
  rw [List.reverse_append, List.dropWhile_append, List.isEmpty_reverse]
  split <;> simp

/-- Nothing is dropped from a list that ends otherwise. -/
theorem rdropWhile_eq_self
    {items : List α}
    (last : ∀ item ∈ items.getLast?, p item = false) :
    items.rdropWhile p = items := by
  rw [List.rdropWhile_eq_self_iff]
  intro nonempty
  simp [last _ (List.getLast?_eq_some_getLast nonempty)]

/-- All of a list is dropped. -/
theorem rdropWhile_eq_nil
    {items : List α}
    (dropped : ∀ item ∈ items, p item = true) :
    items.rdropWhile p = [] :=
  List.rdropWhile_eq_nil_iff.mpr dropped

/-- What is dropped first is dropped with the rest. -/
theorem rdropWhile_rdropWhile
    {q : α → Bool}
    (more : ∀ item, p item = true → q item = true)
    (items : List α) :
    (items.rdropWhile p).rdropWhile q = items.rdropWhile q := by
  have tail : (items.rtakeWhile p).rdropWhile q = [] :=
    rdropWhile_eq_nil fun item member => more item (List.mem_rtakeWhile_imp member)
  calc (items.rdropWhile p).rdropWhile q
      = (items.rdropWhile p ++ items.rtakeWhile p).rdropWhile q := by
        rw [rdropWhile_append, tail]
        rfl
    _ = items.rdropWhile q := by rw [List.rdropWhile_append_rtakeWhile]

end Ends

/-! ## Rules for white space -/

/-- Which characters end lines, which are stripped around the ends of lines, and which are stripped at the end of the
last line. -/
structure Rules where
  isBreak : Char → Bool
  isStripped : Char → Bool
  isFinal : Char → Bool

namespace Rules

/-- A line feed ends a line, every blank is stripped, and carriage returns at the end. -/
def feeds : Rules where
  isBreak c := c == '\n'
  isStripped := isBlank
  isFinal c := c == '\r'

/-- A line feed and a carriage return end a line, and spaces and tabs are stripped. -/
def usual : Rules where
  isBreak c := c == '\n' || c == '\r'
  isStripped c := c == ' ' || c == '\t'
  isFinal _ := false

variable (rules : Rules)

/-- Whether a character can be lost. -/
def isSpace (c : Char) : Bool :=
  rules.isStripped c || rules.isBreak c

/-- What is left of lines. -/
def kept : Bool → List Text → List Text
  | _, [] => []
  | isFirst, [line] =>
    let left := line.rdropWhile rules.isFinal
    [if isFirst then left else left.dropWhile rules.isStripped]
  | isFirst, line :: lines =>
    let left := line.rdropWhile rules.isStripped
    (if isFirst then left else left.dropWhile rules.isStripped) :: kept false lines

/-- The lines of a text of which something is left. -/
def parts (isFirst : Bool) (text : Text) : List Text :=
  (rules.kept isFirst (text.splitOnP rules.isBreak)).filter fun part => !part.isEmpty

/-- What a run of white space before another character becomes. -/
def between (started : Bool) (run : Text) : Text :=
  if run.any rules.isBreak then (if started then [' '] else []) else run

/-- Read a text with a pending run of white space, after other characters or at the start. -/
def scan : Bool → Text → Text → Text
  | _, run, [] => if run.any rules.isBreak then [] else run.rdropWhile rules.isFinal
  | started, run, c :: rest =>
    if rules.isSpace c then
      scan started (run ++ [c]) rest
    else
      rules.between started run ++ c :: scan true [] rest

/-- Rules by which the end of a text is stripped less than other lines. -/
def Lawful : Prop :=
  ∀ c, rules.isFinal c = true → rules.isStripped c = true

/-- A text is read from its start. -/
def collapsed (text : Text) : Text :=
  rules.scan false [] text

variable {rules : Rules}

theorem lawful_feeds : feeds.Lawful := by
  intro c final
  cases eq_of_beq final
  rfl

theorem lawful_usual : usual.Lawful :=
  fun _ final => nomatch final

/-! ## Lines and the scan -/

/-- A character that is not stripped at the end of a line stays at the end of the last one, too. -/
theorem isFinal_eq_false
    (lawful : rules.Lawful)
    {c : Char}
    (other : rules.isStripped c = false) :
    rules.isFinal c = false := by
  cases final : rules.isFinal c with
  | false => rfl
  | true => rw [lawful c final] at other; cases other

theorem kept_cons
    (isFirst : Bool)
    (line : Text)
    {lines : List Text}
    (more : lines ≠ []) :
    rules.kept isFirst (line :: lines) =
      (if isFirst then line.rdropWhile rules.isStripped
        else (line.rdropWhile rules.isStripped).dropWhile rules.isStripped) :: rules.kept false lines := by
  cases lines with
  | nil => exact absurd rfl more
  | cons => rfl

/-- A stripped character at the start of a line after the first one is lost. -/
theorem dropWhile_rdropWhile_cons
    {c : Char}
    (stripped : rules.isStripped c = true)
    (p : Char → Bool)
    (line : Text) :
    ((c :: line).rdropWhile p).dropWhile rules.isStripped = (line.rdropWhile p).dropWhile rules.isStripped := by
  rw [← List.singleton_append, rdropWhile_append]
  split
  · rename_i none
    rw [List.isEmpty_iff.mp none, List.rdropWhile_singleton]
    split <;> simp [stripped]
  · simp [stripped]

/-- Another character at the start of a line stays. -/
theorem dropWhile_rdropWhile_eq
    {c : Char}
    (other : rules.isStripped c = false)
    {p : Char → Bool}
    (stays : p c = false)
    (line : Text) :
    ((c :: line).rdropWhile p).dropWhile rules.isStripped = (c :: line).rdropWhile p := by
  rw [← List.singleton_append, rdropWhile_append]
  split
  · rw [List.rdropWhile_singleton, stays]
    simp [other]
  · simp [other]

/-- The first line and the other ones differ at their start only. -/
theorem kept_cons_cons
    (lawful : rules.Lawful)
    {c : Char}
    (other : rules.isStripped c = false)
    (isFirst : Bool)
    (line : Text)
    (lines : List Text) :
    rules.kept isFirst ((c :: line) :: lines) = rules.kept true ((c :: line) :: lines) := by
  have stays := isFinal_eq_false lawful other
  cases isFirst with
  | true =>
      rfl
  | false =>
      cases lines with
      | nil => simp [kept, dropWhile_rdropWhile_eq other stays]
      | cons => simp [kept, dropWhile_rdropWhile_eq other other]

/-- A stripped character at the start of a line after the first one changes nothing. -/
theorem kept_false_cons
    {c : Char}
    (stripped : rules.isStripped c = true)
    (line : Text)
    (lines : List Text) :
    rules.kept false ((c :: line) :: lines) = rules.kept false (line :: lines) := by
  cases lines with
  | nil => simp [kept, dropWhile_rdropWhile_cons stripped]
  | cons => simp [kept, dropWhile_rdropWhile_cons stripped]

/-- There is a first line. -/
theorem exists_splitOnP (rules : Rules) (text : Text) :
    ∃ line lines, text.splitOnP rules.isBreak = line :: lines :=
  List.exists_cons_of_ne_nil (List.splitOnP_ne_nil rules.isBreak text)

/-- White space after a line break is lost. -/
theorem parts_false_append
    (lawful : rules.Lawful)
    {run rest : Text}
    (space : ∀ c ∈ run, rules.isSpace c = true)
    (next : ∀ c ∈ rest.head?, rules.isSpace c = false) :
    rules.parts false (run ++ rest) = rules.parts true rest := by
  induction run with
  | nil =>
      cases rest with
      | nil =>
          simp [parts, kept, rdropWhile_eq_nil]
      | cons c rest =>
          obtain ⟨noStrip, noBreak⟩ := Bool.or_eq_false_iff.mp (next c rfl)
          obtain ⟨line, lines, shape⟩ := exists_splitOnP rules rest
          rw [List.nil_append, parts, parts, List.splitOnP_cons_eq_if_modifyHead, if_neg (by simp [noBreak]), shape]
          exact congrArg _ (kept_cons_cons lawful noStrip false line lines)
  | cons c run inductionHypothesis =>
      rw [← inductionHypothesis fun c member => space c (List.mem_cons_of_mem _ member)]
      obtain ⟨line, lines, shape⟩ := exists_splitOnP rules (run ++ rest)
      rw [List.cons_append, parts, parts, List.splitOnP_cons_eq_if_modifyHead, shape]
      cases isBreak : rules.isBreak c with
      | true =>
          rw [if_pos rfl, kept_cons false [] (List.cons_ne_nil line lines)]
          rfl
      | false =>
          have stripped : rules.isStripped c = true := by
            simpa [isSpace, isBreak] using space c List.mem_cons_self
          rw [if_neg Bool.false_ne_true]
          exact congrArg _ (kept_false_cons stripped line lines)

/-- The lines around a run of white space with a line break. -/
theorem parts_append_break
    (lawful : rules.Lawful)
    {line run rest : Text}
    (noBreak : ∀ c ∈ line, rules.isBreak c = false)
    (last : ∀ c ∈ line.getLast?, rules.isStripped c = false)
    (space : ∀ c ∈ run, rules.isSpace c = true)
    (broken : run.any rules.isBreak = true)
    (next : ∀ c ∈ rest.head?, rules.isSpace c = false) :
    rules.parts true (line ++ run ++ rest) = (if line.isEmpty then [] else [line]) ++ rules.parts true rest := by
  obtain ⟨c, member, isBreak⟩ := List.any_eq_true.mp broken
  obtain ⟨mark, found⟩ := Option.isSome_iff_exists.mp (List.find?_isSome.mpr ⟨c, member, isBreak⟩)
  obtain ⟨isBreak, lead, trail, rfl, unbroken⟩ := List.find?_eq_some_iff_append.mp found
  have stripped : (line ++ lead).rdropWhile rules.isStripped = line := by
    rw [rdropWhile_append, rdropWhile_eq_nil fun c member => ?_]
    · exact rdropWhile_eq_self last
    · have noBreak : rules.isBreak c = false := by simpa using unbroken c member
      simpa [isSpace, noBreak] using space c (List.mem_append_left _ member)
  have unbrokenLine : ∀ c ∈ line ++ lead, rules.isBreak c = false := by
    intro c member
    rcases List.mem_append.mp member with member | member
    · exact noBreak c member
    · simpa using unbroken c member
  have shape : line ++ (lead ++ mark :: trail) ++ rest = (line ++ lead) ++ mark :: (trail ++ rest) := by
    simp
  have later : rules.parts false (trail ++ rest) = rules.parts true rest :=
    parts_false_append lawful (fun c member => space c (by simp [member])) next
  rw [← later, shape, parts, List.splitOnP_append_cons_of_forall_mem unbrokenLine _ isBreak,
    kept_cons true _ (List.splitOnP_ne_nil _ _), if_pos rfl, stripped, List.filter_cons]
  cases line <;> rfl

/-- Without a line break there is one line. -/
theorem parts_of_unbroken
    {text : Text}
    (unbroken : ∀ c ∈ text, rules.isBreak c = false) :
    rules.parts true text = [text.rdropWhile rules.isFinal].filter fun part => !part.isEmpty := by
  rw [parts, List.splitOnP_eq_singleton unbroken]
  rfl

/-- Joined parts begin with the first one. -/
theorem joinWith_parts (line : Text) (parts : List Text) :
    Text.joinWith [' '] ((if line.isEmpty then [] else [line]) ++ parts) =
      line ++ (if !line.isEmpty && !parts.isEmpty then [' '] else []) ++ Text.joinWith [' '] parts := by
  cases line with
  | nil => rfl
  | cons c line => cases parts <;> simp [Text.joinWith]

/-- At the end of the text a run without a line break follows the last line. -/
theorem joinWith_parts_of_unbroken
    (lawful : rules.Lawful)
    {line run : Text}
    (noBreak : ∀ c ∈ line, rules.isBreak c = false)
    (last : ∀ c ∈ line.getLast?, rules.isStripped c = false)
    (unbroken : ∀ c ∈ run, rules.isBreak c = false) :
    Text.joinWith [' '] (rules.parts true (line ++ run)) = line ++ run.rdropWhile rules.isFinal := by
  have whole : (line ++ run).rdropWhile rules.isFinal = line ++ run.rdropWhile rules.isFinal := by
    rw [rdropWhile_append]
    split
    · rename_i dropped
      rw [rdropWhile_eq_self fun c member => isFinal_eq_false lawful (last c member), List.isEmpty_iff.mp dropped,
        List.append_nil]
    · rfl
  have unbrokenLine : ∀ c ∈ line ++ run, rules.isBreak c = false := by
    intro c member
    rcases List.mem_append.mp member with member | member
    · exact noBreak c member
    · exact unbroken c member
  rw [parts_of_unbroken unbrokenLine, whole]
  cases line ++ run.rdropWhile rules.isFinal <;> rfl

/-- The joined lines of a text are what the scan leaves of it. -/
theorem joinWith_parts_eq
    (lawful : rules.Lawful)
    (text line run : Text)
    (noBreak : ∀ c ∈ line, rules.isBreak c = false)
    (last : ∀ c ∈ line.getLast?, rules.isStripped c = false)
    (space : ∀ c ∈ run, rules.isSpace c = true) :
    Text.joinWith [' '] (rules.parts true (line ++ run ++ text)) = line ++ rules.scan (!line.isEmpty) run text := by
  -- the line is what was read since the last line break, up to its last character that is no white space
  induction text generalizing line run with
  | nil =>
      cases broken : run.any rules.isBreak with
      | true =>
          rw [parts_append_break lawful noBreak last space broken (by simp), joinWith_parts]
          simp [parts_of_unbroken, scan, broken, Text.joinWith]
      | false =>
          rw [List.append_nil, joinWith_parts_of_unbroken lawful noBreak last (by simpa using broken), scan, broken]
          rfl
  | cons c text inductionHypothesis =>
      cases isSpace : rules.isSpace c with
      | true =>
          have longer : ∀ other ∈ run ++ [c], rules.isSpace other = true := by
            simpa [or_imp, forall_and, isSpace] using space
          rw [scan, if_pos isSpace, ← inductionHypothesis line (run ++ [c]) noBreak last longer]
          simp
      | false =>
          obtain ⟨noStrip, unbroken⟩ := Bool.or_eq_false_iff.mp isSpace
          rw [scan, if_neg (by simp [isSpace]), between]
          cases broken : run.any rules.isBreak with
          | true =>
              have later := inductionHypothesis [c] [] (by simpa using unbroken) (by simpa using noStrip) (by simp)
              have more : (rules.parts true (c :: text)).isEmpty = false := by
                cases none : rules.parts true (c :: text) with
                | nil => simp [none, Text.joinWith] at later
                | cons => rfl
              rw [parts_append_break lawful noBreak last space broken (by simpa using isSpace), joinWith_parts, more]
              simp only [List.singleton_append, List.append_nil, List.isEmpty_cons, Bool.not_false] at later
              simp [later]
          | false =>
              have whole : ∀ other ∈ line ++ run ++ [c], rules.isBreak other = false := by
                have unbrokenRun : ∀ other ∈ run, rules.isBreak other = false := by simpa using broken
                simpa [or_imp, forall_and, unbroken] using ⟨noBreak, unbrokenRun⟩
              have later := inductionHypothesis (line ++ run ++ [c]) [] whole (by simpa using noStrip) (by simp)
              have started : (line ++ run ++ [c]).isEmpty = false := by simp
              rw [started] at later
              simpa using later

/-- Nothing is left of a text exactly if nothing is left of its lines. -/
theorem parts_isEmpty
    (lawful : rules.Lawful)
    (text : Text) :
    (rules.parts true text).isEmpty = (rules.collapsed text).isEmpty := by
  have joined : Text.joinWith [' '] (rules.parts true text) = rules.collapsed text :=
    joinWith_parts_eq lawful text [] [] (by simp) (by simp) (by simp)
  rw [← joined]
  cases shape : rules.parts true text with
  | nil =>
      rfl
  | cons part more =>
      have member : part ∈ rules.parts true text := by simp [shape]
      have nonempty : part ≠ [] := by simpa using (List.mem_filter.mp member).2
      cases more <;> simp [Text.joinWith, nonempty]

end Rules

/-! ## Both readings are scans -/

/-- The text that is made of what a scan leaves. -/
def shown (left : Text) : Option Text :=
  if left.isEmpty then none else some (decodeEntities (spaced left))

/-- Texts are joined before or after their tabs are replaced. -/
theorem joinWith_spaced (parts : List Text) :
    Text.joinWith [' '] (parts.map spaced) = spaced (Text.joinWith [' '] parts) := by
  induction parts with
  | nil => rfl
  | cons part more inductionHypothesis =>
      cases more with
      | nil => rfl
      | cons => simp_all [Text.joinWith, spaced]

/-- Tabs are replaced before or after a text is stripped at its start. -/
theorem dropWhile_spaced (p : Char → Bool) (text : Text) :
    (spaced text).dropWhile p = spaced (text.dropWhile fun c => p (if c == '\t' then ' ' else c)) :=
  List.dropWhile_map

/-- Tabs are replaced before or after a text is stripped at its end. -/
theorem rdropWhile_spaced (p : Char → Bool) (text : Text) :
    (spaced text).rdropWhile p = spaced (text.rdropWhile fun c => p (if c == '\t' then ' ' else c)) := by
  unfold List.rdropWhile spaced
  rw [← List.map_reverse, List.dropWhile_map, List.map_reverse]
  rfl

/-- A space for a tab is as blank. -/
theorem isBlank_spaced : (fun c => isBlank (if c == '\t' then ' ' else c)) = isBlank := by
  funext c
  by_cases tab : c = '\t'
  · subst tab
    rfl
  · simp [tab]

/-- The usual rules strip what is a space in the end. -/
theorem isStripped_usual : (fun c => (if c == '\t' then ' ' else c) == ' ') = Rules.usual.isStripped := by
  funext c
  by_cases tab : c = '\t'
  · subst tab
    rfl
  · simp [Rules.usual, tab]

/-- The lines of `childText?` are those of its rules. -/
theorem trimmedLines_eq (isFirst : Bool) (lines : List Text) :
    trimmedLines isFirst lines = (Rules.feeds.kept isFirst lines).map spaced := by
  have plain (line : Text) : plainLine line = spaced (line.rdropWhile Rules.feeds.isFinal) := rfl
  have start (line : Text) : Text.trimStart (spaced line) = spaced (line.dropWhile Rules.feeds.isStripped) := by
    rw [Text.trimStart, dropWhile_spaced, isBlank_spaced]
    rfl
  have stop (line : Text) : Text.trimEnd (plainLine line) = spaced (line.rdropWhile Rules.feeds.isStripped) := by
    rw [plain, ← rdropWhile_rdropWhile Rules.lawful_feeds]
    change (spaced _).rdropWhile isBlank = _
    rw [rdropWhile_spaced, isBlank_spaced]
    rfl
  induction lines generalizing isFirst with
  | nil =>
      rfl
  | cons line more inductionHypothesis =>
      cases more with
      | nil =>
          cases isFirst <;> simp [trimmedLines, Rules.kept, plain, start]
      | cons =>
          rw [trimmedLines, inductionHypothesis, Rules.kept_cons _ _ (List.cons_ne_nil _ _)]
          · cases isFirst <;> simp [stop, start]
          · exact nofun

/-- The lines by the usual rules are those of the rules. -/
theorem strippedLines_eq (isFirst : Bool) (lines : List Text) :
    strippedLines isFirst (lines.map spaced) = (Rules.usual.kept isFirst lines).map spaced := by
  have all (line : Text) : line.rdropWhile Rules.usual.isFinal = line := rdropWhile_eq_self fun _ _ => rfl
  have start (line : Text) : (spaced line).dropWhile (· == ' ') = spaced (line.dropWhile Rules.usual.isStripped) := by
    rw [dropWhile_spaced, isStripped_usual]
  have stop (line : Text) : (spaced line).rdropWhile (· == ' ') = spaced (line.rdropWhile Rules.usual.isStripped) := by
    rw [rdropWhile_spaced, isStripped_usual]
  induction lines generalizing isFirst with
  | nil =>
      rfl
  | cons line more inductionHypothesis =>
      cases more with
      | nil =>
          cases isFirst <;> simp [strippedLines, Rules.kept, all, start]
      | cons =>
          rw [List.map_cons, List.map_cons, strippedLines, ← List.map_cons, inductionHypothesis,
            Rules.kept_cons _ _ (List.cons_ne_nil _ _)]
          · cases isFirst <;> simp [stop, start]
          · exact nofun

/-- The same is left of two lists of later lines. -/
def Alike (first second : List Text) : Prop :=
  (first = [] ↔ second = []) ∧
    (Rules.usual.kept false first).filter (fun part => !part.isEmpty) =
      (Rules.usual.kept false second).filter fun part => !part.isEmpty

/-- The same is left of them after another line. -/
theorem Alike.cons
    {first second : List Text}
    (alike : Alike first second)
    (isFirst : Bool)
    (line : Text) :
    (Rules.usual.kept isFirst (line :: first)).filter (fun part => !part.isEmpty) =
      (Rules.usual.kept isFirst (line :: second)).filter fun part => !part.isEmpty := by
  by_cases none : first = []
  · rw [none, alike.1.mp none]
  · rw [Rules.kept_cons _ _ none, Rules.kept_cons _ _ (mt alike.1.mpr none), List.filter_cons, List.filter_cons, alike.2]

/-- A carriage return and a line feed end one line, or two of which the second one is empty. -/
theorem linesOf_alike (text : Text) :
    ∃ line first second,
      linesOf text = line :: first ∧ text.splitOnP Rules.usual.isBreak = line :: second ∧ Alike first second := by
  induction text using linesOf.induct with
  | case1 =>
      exact ⟨[], [], [], rfl, rfl, Iff.rfl, rfl⟩
  | case2 rest inductionHypothesis =>
      obtain ⟨line, first, second, shape, split, alike⟩ := inductionHypothesis
      refine ⟨[], line :: first, [] :: line :: second, by rw [linesOf, shape], ?_, by simp, ?_⟩
      · rw [List.splitOnP_cons_eq_if_modifyHead, List.splitOnP_cons_eq_if_modifyHead, split]
        rfl
      · rw [Rules.kept_cons _ _ (List.cons_ne_nil _ _)]
        exact alike.cons false line
  | case3 c rest noPair isBreak inductionHypothesis =>
      obtain ⟨line, first, second, shape, split, alike⟩ := inductionHypothesis
      refine ⟨[], line :: first, line :: second, by rw [linesOf, if_pos isBreak, shape]; exact noPair, ?_, by simp, ?_⟩
      · rw [List.splitOnP_cons_eq_if_modifyHead, if_pos (by simpa [Rules.usual] using isBreak), split]
      · exact alike.cons false line
  | case4 c rest noPair unbroken none inductionHypothesis =>
      obtain ⟨line, first, second, shape, -⟩ := inductionHypothesis
      rw [none] at shape
      cases shape
  | case5 c rest noPair unbroken line lines found inductionHypothesis =>
      obtain ⟨line, first, second, shape, split, alike⟩ := inductionHypothesis
      refine ⟨c :: line, first, second, by rw [linesOf, if_neg unbroken, shape]; exact noPair, ?_, alike⟩
      rw [List.splitOnP_cons_eq_if_modifyHead, if_neg (by simpa [Rules.usual] using unbroken), split]
      rfl

/-- What is left of the lines is left by the usual rules. -/
theorem kept_linesOf (text : Text) :
    (Rules.usual.kept true (linesOf text)).filter (fun part => !part.isEmpty) = Rules.usual.parts true text := by
  obtain ⟨line, first, second, shape, split, alike⟩ := linesOf_alike text
  rw [shape, Rules.parts, split]
  exact alike.cons true line

/-- The text that is made of lines is made of the scanned text. -/
theorem shown_collapsed
    {rules : Rules}
    (lawful : rules.Lawful)
    (text : Text) :
    (let parts := (rules.parts true text).map spaced
      if parts.isEmpty then none else some (decodeEntities (Text.joinWith [' '] parts))) =
      shown (rules.collapsed text) := by
  have joined : Text.joinWith [' '] (rules.parts true text) = rules.collapsed text :=
    Rules.joinWith_parts_eq lawful text [] [] (by simp) (by simp) (by simp)
  simp only [shown, List.isEmpty_map, joinWith_spaced, joined, Rules.parts_isEmpty lawful]

/-- Parts are empty before and after tabs are replaced. -/
theorem filter_spaced (lines : List Text) :
    (lines.map spaced).filter (fun part => !part.isEmpty) =
      (lines.filter fun part => !part.isEmpty).map spaced := by
  rw [List.filter_map]
  congr 2
  funext line
  simp [spaced]

theorem childText?_eq (raw : Text) : childText? raw = shown (Rules.feeds.collapsed raw) := by
  rw [← shown_collapsed Rules.lawful_feeds, childText?, Text.splitAt_eq_splitOnP, trimmedLines_eq, filter_spaced]
  rfl

theorem usualText?_eq (raw : Text) : usualText? raw = shown (Rules.usual.collapsed raw) := by
  rw [← shown_collapsed Rules.lawful_usual, usualText?, strippedLines_eq, filter_spaced, kept_linesOf]

end Markup

end LiveComponent
