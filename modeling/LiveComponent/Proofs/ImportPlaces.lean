import LiveComponent.Proofs.ImportRewriting
import LiveComponent.Script.Parse

namespace LiveComponent

/-!
# Which specifiers are rewritten

Imports are found by their looks.  A text that looks like an import is rewritten wherever it stands, unless an
earlier match reaches into it, and nothing else is.  So the specifiers of a module are what is rewritten if
all of them are quoted right behind their words and nothing else of the module looks like them; a string
or a comment that does is rewritten as well, and a comment between the word and the quote hides a specifier.
-/

namespace Specifier

open Pattern

/-! ## The literals of a module -/

/-- The child that names the module, if the node names one. -/
def sourceChild? : Kind → Option Nat
  | .importDeclaration _ specifiers => some (specifiers.getD 0)
  | .exportNames _ => some 0
  | .exportAll _ => some 1
  | .importCall _ => some 0
  | _ => none

/-- Where a string stands, if the tree is one. -/
def literalSpan? : Tree → Option Span
  | .node (.stringLiteral ..) span _ => some span
  | _ => none

/-- Where the strings stand that name modules in a tree. -/
def literals : Tree → List Span :=
  Tree.fold fun tree below =>
    (((sourceChild? tree.kind).bind fun place => tree.children[place]?).bind literalSpan?).toList ++
      below.flatten

/-- What stands between the quotes of a string. -/
def contents (code : Text) (span : Span) : Part :=
  ⟨span.start + 1, span.stop - 1, Text.slice code (span.start + 1) (span.stop - 1)⟩

/-- The specifiers of a module as its tree has them. -/
def written (code : Text) (tree : Tree) : List Part :=
  (literals tree).map (contents code)

/-- The output is the text in which each of the parts, and nothing else, is changed. -/
def Changed (change : Text → Text) (parts : List Part) (code out : Text) : Prop :=
  ∃ edits,
    Text.Ascending 0 edits ∧ (∀ edit, edit ∈ edits ↔ ∃ part ∈ parts, editOf change part = edit) ∧
      out = Text.splice edits code

/-- Rewriting refuses a module exactly for an empty specifier or one with a blank, and otherwise it resolves
all specifiers of the module and changes nothing else. -/
def Faithful (config : Config) (code : Text) (tree : Tree) : Prop :=
  ((∃ out, rewriteImports config code = .ok out) ↔
      ∀ part ∈ written code tree, part.text ≠ [] ∧ part.text.any isBlank = false) ∧
    ∀ out, rewriteImports config code = .ok out → Changed (resolve config) (written code tree) code out

/-! ## The places of matches -/

/-- The import stands at a place of the text that no word reaches. -/
def Import.StandsAt (first : Import) (code : Text) (index : Nat) : Prop :=
  ∃ front behind,
    code = front ++ (first.text ++ behind) ∧ front.length = index ∧ wordAt (lastOf none front) = false

/-- There is at most one import at a place. -/
theorem Import.eq_of_text_append
    {first other : Import}
    {rest more : Text}
    (same : first.text ++ rest = other.text ++ more) :
    first = other := by
  rw [first.text_append, other.text_append] at same
  have inLead (found : Import) {between tail : Text} {quote : Char} (isQuote : isQuote quote = true) :
      found.lead ≠ between ++ quote :: tail := by
    intro lead
    have free := not_isQuote_of_leads found.leads quote (by simp [lead])
    rw [free] at isQuote
    cases isQuote
  rcases split_at_quote (not_isQuote_of_leads first.leads) other.opens same with
    ⟨lead, opening, behind⟩ | ⟨between, lead, -⟩
  · rcases split_at_quote (not_isQuote_of_plain first.plain) other.closes behind.symm with
      ⟨specifier, closing, -⟩ | ⟨between, specifier, -⟩
    · cases first
      cases other
      cases lead
      cases opening
      cases specifier
      cases closing
      rfl
    · have free := not_isQuote_of_plain other.plain first.closing (by simp [specifier])
      rw [first.closes] at free
      cases free
  · exact absurd lead (inLead other first.opens)

/-- A match is an import that stands where no earlier match reaches. -/
theorem stands_of_mem_matchesFrom
    {before : Option Char}
    {index : Nat}
    {text : Text}
    {found : Found}
    (member : found ∈ matchesFrom before index text) :
    ∃ (first : Import) (front behind : Text),
      text = front ++ (first.text ++ behind) ∧ wordAt (lastOf before front) = false ∧
        found = first.matched (index + front.length) ∧
        ∀ earlier ∈ matchesFrom before index text,
          earlier.whole.start < found.whole.start → earlier.whole.stop ≤ found.whole.start := by
  induction before, text using importInduction generalizing index found with
  | nil before =>
      rw [matchesFrom_nil] at member
      cases member
  | pass before c rest free inductionHypothesis =>
      rw [matchesFrom_cons free] at member ⊢
      obtain ⟨first, front, behind, rfl, edge, rfl, apart⟩ := inductionHypothesis member
      have count : index + 1 + front.length = index + (c :: front).length := by
        rw [List.length_cons]
        omega
      rw [← lastOf_cons before] at edge
      exact ⟨first, c :: front, behind, rfl, edge, by rw [count], apart⟩
  | found before head rest edge inductionHypothesis =>
      have starts {later : Found}
          (member : later ∈ matchesFrom (some head.closing) (index + head.text.length) rest) :
          index + head.text.length ≤ later.whole.start := by
        obtain ⟨first, front, -, -, -, rfl, -⟩ := inductionHypothesis member
        exact Nat.le_add_right _ _
      rw [matchesFrom_append edge] at member ⊢
      rcases List.mem_cons.mp member with rfl | inRest
      · refine ⟨head, [], rest, rfl, edge, rfl, fun earlier among precedes => ?_⟩
        rcases List.mem_cons.mp among with rfl | later
        · exact absurd precedes (Nat.lt_irrefl _)
        · have reached := starts later
          change earlier.whole.start < index at precedes
          omega
      · obtain ⟨first, front, behind, rfl, edge, rfl, apart⟩ := inductionHypothesis inRest
        have count : index + head.text.length + front.length = index + (head.text ++ front).length := by
          rw [List.length_append]
          omega
        refine ⟨first, head.text ++ front, behind, (List.append_assoc ..).symm, ?_, by rw [count],
          fun earlier among precedes => ?_⟩
        · rw [lastOf_append, head.lastOf_text]
          exact edge
        · rcases List.mem_cons.mp among with rfl | later
          · exact Nat.le_add_right _ _
          · exact apart earlier later precedes

/-- An import that stands where no earlier match reaches is matched. -/
theorem mem_matchesFrom
    {before : Option Char}
    {index : Nat}
    {front behind : Text}
    {first : Import}
    (edge : wordAt (lastOf before front) = false)
    (apart : ∀ earlier ∈ matchesFrom before index (front ++ (first.text ++ behind)),
      earlier.whole.start < index + front.length → earlier.whole.stop ≤ index + front.length) :
    first.matched (index + front.length) ∈ matchesFrom before index (front ++ (first.text ++ behind)) := by
  generalize code : front ++ (first.text ++ behind) = text at apart ⊢
  induction before, text using importInduction generalizing index front with
  | nil before =>
      have length := congrArg List.length code
      rw [List.length_append, List.length_append, first.length_text, List.length_nil] at length
      omega
  | pass before c rest free inductionHypothesis =>
      rw [matchesFrom_cons free] at apart ⊢
      cases front with
      | nil =>
          exact absurd ⟨edge, first, behind, code.symm⟩ free
      | cons d front =>
          obtain ⟨rfl, rfl⟩ := List.cons.inj code
          have count : index + 1 + front.length = index + (d :: front).length := by
            rw [List.length_cons]
            omega
          rw [lastOf_cons] at edge
          rw [← count] at apart ⊢
          exact inductionHypothesis edge rfl apart
  | found before head rest headEdge inductionHypothesis =>
      rw [matchesFrom_append headEdge] at apart ⊢
      cases front with
      | nil =>
          obtain rfl := Import.eq_of_text_append code
          exact List.mem_cons_self
      | cons c front =>
          -- The import starts behind the match at this place, which does not reach into it.
          have behindHead : head.text.length ≤ (c :: front).length := by
            have stop := apart (head.matched index) List.mem_cons_self
              (by simp [Import.matched])
            change index + head.text.length ≤ _ at stop
            omega
          have prefixes : head.text <+: c :: front :=
            List.prefix_of_prefix_length_le ⟨rest, code.symm⟩ ⟨_, rfl⟩ behindHead
          obtain ⟨later, split⟩ := prefixes
          rw [← split, lastOf_append, head.lastOf_text] at edge
          rw [← split, List.append_assoc] at code
          have count : index + head.text.length + later.length = index + (c :: front).length := by
            rw [← split, List.length_append]
            omega
          rw [← count] at apart ⊢
          exact List.mem_cons_of_mem _ (inductionHypothesis edge (List.append_cancel_left code)
            fun earlier among => apart earlier (List.mem_cons_of_mem _ among))

/-- The specifiers that are found are those of the imports that stand where no earlier match reaches. -/
theorem mem_occurrences_iff
    {code : Text}
    {part : Part} :
    part ∈ occurrences code ↔
      ∃ (first : Import) (index : Nat),
        first.StandsAt code index ∧ first.part index = part ∧
          ∀ earlier ∈ importPattern.findAll code,
            earlier.whole.start < index → earlier.whole.stop ≤ index := by
  rw [occurrences, List.mem_filterMap]
  constructor
  · rintro ⟨found, member, named⟩
    obtain ⟨first, front, behind, rfl, edge, rfl, apart⟩ := stands_of_mem_matchesFrom member
    rw [Nat.zero_add] at named apart
    exact ⟨first, front.length, ⟨front, behind, rfl, rfl, edge⟩, Option.some.inj named, apart⟩
  · rintro ⟨first, _, ⟨front, behind, rfl, rfl, edge⟩, rfl, apart⟩
    refine ⟨first.matched (0 + front.length), mem_matchesFrom edge ?_, by rw [Nat.zero_add]; rfl⟩
    rw [Nat.zero_add]
    exact apart

/-! ## What is rewritten -/

/-- The specifiers of a module are quoted right behind their words, nothing else of the module looks like
them, and no two such texts overlap. -/
structure Plain (code : Text) (tree : Tree) : Prop where
  quoted : ∀ part ∈ written code tree, ∃ (first : Import) (index : Nat),
    first.StandsAt code index ∧ first.part index = part
  alone : ∀ (first : Import) (index : Nat), first.StandsAt code index → first.part index ∈ written code tree
  apart : ∀ (first other : Import) (index start : Nat), first.StandsAt code index →
    other.StandsAt code start → index < start → index + first.text.length ≤ start

/-- The specifiers of such a module are what is found in it. -/
theorem Plain.mem_occurrences_iff
    {code : Text}
    {tree : Tree}
    (plain : Plain code tree)
    {part : Part} :
    part ∈ occurrences code ↔ part ∈ written code tree := by
  rw [Specifier.mem_occurrences_iff]
  constructor
  · rintro ⟨first, index, stands, rfl, -⟩
    exact plain.alone first index stands
  · intro member
    obtain ⟨first, index, stands, rfl⟩ := plain.quoted part member
    refine ⟨first, index, stands, rfl, fun earlier among precedes => ?_⟩
    obtain ⟨other, front, behind, text, edge, rfl, -⟩ := stands_of_mem_matchesFrom among
    rw [Nat.zero_add] at precedes ⊢
    exact plain.apart other first front.length index ⟨front, behind, text, rfl, edge⟩ stands precedes

/-- The texts that look like imports, one match for each place. -/
def lookalikes (code : Text) : List Found :=
  (List.range code.length).filterMap fun index =>
    importPattern.matchAt ⟨lastOf none (code.take index), index, code.drop index⟩

theorem mem_lookalikes_iff
    {code : Text}
    {found : Found} :
    found ∈ lookalikes code ↔
      ∃ (first : Import) (index : Nat), first.StandsAt code index ∧ first.matched index = found := by
  rw [lookalikes, List.mem_filterMap]
  constructor
  · rintro ⟨index, inside, matched⟩
    obtain ⟨edge, first, behind, starts, rfl⟩ := matchAt_eq_some.mp matched
    have front : (code.take index).length = index :=
      List.length_take_of_le (Nat.le_of_lt (List.mem_range.mp inside))
    exact ⟨first, index, ⟨code.take index, behind, by rw [← starts, List.take_append_drop], front, edge⟩, rfl⟩
  · rintro ⟨first, _, ⟨front, behind, rfl, rfl, edge⟩, rfl⟩
    refine ⟨front.length, List.mem_range.mpr ?_, matchAt_eq_some.mpr ?_⟩
    · rw [List.length_append, List.length_append, first.length_text]
      omega
    · rw [List.take_left, List.drop_left]
      exact ⟨edge, first, behind, rfl, rfl⟩

/-- Whether a module holds nothing like an import but its imports can be computed. -/
instance (code : Text) (tree : Tree) : Decidable (Plain code tree) :=
  decidable_of_iff
    ((∀ part ∈ written code tree, ∃ found ∈ lookalikes code, found.part? "specifier" = some part) ∧
      (∀ found ∈ lookalikes code, ∀ part ∈ found.part? "specifier", part ∈ written code tree) ∧
      ∀ found ∈ lookalikes code, ∀ later ∈ lookalikes code,
        found.whole.start < later.whole.start → found.whole.stop ≤ later.whole.start)
    (by
      simp only [mem_lookalikes_iff]
      constructor
      · rintro ⟨quoted, alone, apart⟩
        refine ⟨fun part member => ?_, fun first index stands => ?_, fun first other index start stands later => ?_⟩
        · obtain ⟨_, ⟨first, index, stands, rfl⟩, named⟩ := quoted part member
          exact ⟨first, index, stands, Option.some.inj named⟩
        · exact alone _ ⟨first, index, stands, rfl⟩ _ rfl
        · exact apart _ ⟨first, index, stands, rfl⟩ _ ⟨other, start, later, rfl⟩
      · rintro ⟨quoted, alone, apart⟩
        refine ⟨fun part member => ?_, ?_, ?_⟩
        · obtain ⟨first, index, stands, rfl⟩ := quoted part member
          exact ⟨_, ⟨first, index, stands, rfl⟩, rfl⟩
        · rintro _ ⟨first, index, stands, rfl⟩ part named
          obtain rfl := Option.some.inj named
          exact alone first index stands
        · rintro _ ⟨first, index, stands, rfl⟩ _ ⟨other, start, later, rfl⟩
          exact apart first other index start stands later)

/-- The edits that change parts are the edits of the parts. -/
theorem changed_changedFrom
    (change : Text → Text)
    (code : Text) :
    Changed change (occurrences code) code (changedFrom change none 0 code) :=
  ⟨_, ascending_occurrencesFrom change none 0 code, fun _ => List.mem_map, rfl⟩

/-- A module is rewritten exactly if none of the specifiers found in it holds a blank. -/
theorem rewriteImports_isOk_iff
    {config : Config}
    {code : Text} :
    (∃ out, rewriteImports config code = .ok out) ↔
      ∀ part ∈ occurrences code, part.text.any isBlank = false := by
  constructor
  · rintro ⟨out, rewritten⟩
    rcases solid_or_split (occurrences code) with solid | ⟨earlier, part, later, split, solid, blank⟩
    · exact solid
    · rw [rewriteImports_eq_error split solid blank] at rewritten
      cases rewritten
  · exact fun solid => ⟨_, rewriteImports_eq_ok solid⟩

/-- What is rewritten is what is found. -/
theorem changed_of_rewriteImports
    {config : Config}
    {code out : Text}
    (rewritten : rewriteImports config code = .ok out) :
    Changed (resolve config) (occurrences code) code out := by
  rw [rewriteImports_eq_ok (rewriteImports_isOk_iff.mp ⟨out, rewritten⟩)] at rewritten
  obtain rfl := Except.ok.inj rewritten
  exact changed_changedFrom (resolve config) code

/-- Rewriting is faithful to a module whose specifiers are what is found in it. -/
theorem faithful_of_plain
    {config : Config}
    {code : Text}
    {tree : Tree}
    (plain : Plain code tree) :
    Faithful config code tree := by
  constructor
  · rw [rewriteImports_isOk_iff]
    refine ⟨fun solid part member => ?_, fun sound part member => ?_⟩
    · have found := plain.mem_occurrences_iff.mpr member
      exact ⟨filled_of_mem_occurrences part found, solid part found⟩
    · exact (sound part (plain.mem_occurrences_iff.mp member)).2
  · intro out rewritten
    obtain ⟨edits, ascending, members, spliced⟩ := changed_of_rewriteImports rewritten
    refine ⟨edits, ascending, fun edit => ?_, spliced⟩
    simp only [members, plain.mem_occurrences_iff]

/-- Rewriting changes exactly the texts that look like imports and stand where no earlier match reaches, and it
fails exactly if one of them holds a blank.  So it is faithful to the modules that hold nothing like an import
but their imports. -/
theorem specifiers_rewritten_by_looks
    (config : Config)
    (code : Text) :
    (∀ part, part ∈ occurrences code ↔
      ∃ (first : Import) (index : Nat),
        first.StandsAt code index ∧ first.part index = part ∧
          ∀ earlier ∈ importPattern.findAll code,
            earlier.whole.start < index → earlier.whole.stop ≤ index) ∧
      ((∃ out, rewriteImports config code = .ok out) ↔
        ∀ part ∈ occurrences code, part.text.any isBlank = false) ∧
      (∀ out, rewriteImports config code = .ok out →
        Changed (resolve config) (occurrences code) code out) ∧
      ∀ typed tree, parse? typed code = some tree → Plain code tree → Faithful config code tree :=
  ⟨fun _ => mem_occurrences_iff, rewriteImports_isOk_iff, fun _ => changed_of_rewriteImports,
    fun _ _ _ => faithful_of_plain⟩

/-- Rewriting is faithful to a module with an import, an export from elsewhere and a dynamic import. -/
theorem specifiers_rewritten_by_looks_of_module :
    ∃ code tree,
      parse? false code = some tree ∧ (written code tree).length = 3 ∧ Faithful {} code tree := by
  let code : Text :=
    "import a from 'b'; export * from './c'; import('d')".toList
  have parses :
      ((parse? false code).any fun tree => (written code tree).length == 3 && decide (Plain code tree)) = true := by
    decide +kernel
  obtain ⟨tree, parsed, checked⟩ := Option.any_eq_true _ _ |>.mp parses
  obtain ⟨three, plain⟩ := Bool.and_eq_true_iff.mp checked
  obtain ⟨-, -, -, faithful⟩ := specifiers_rewritten_by_looks {} code
  exact ⟨code, tree, parsed, eq_of_beq three, faithful false tree parsed (of_decide_eq_true plain)⟩

/-- A comment that looks like an import is rewritten, though the module has no specifiers. -/
theorem comment_rewritten :
    ¬∀ code tree, parse? false code = some tree → Faithful {} code tree := by
  intro faithful
  let code : Text := "// from 'a'".toList
  have parses : ((parse? false code).any fun tree => (written code tree).isEmpty) = true := by
    decide +kernel
  have solid : ∀ part ∈ occurrences code, part.text.any isBlank = false := by
    decide +kernel
  have differs : changedFrom (resolve {}) none 0 code ≠ code := by
    decide +kernel
  obtain ⟨tree, parsed, none⟩ := Option.any_eq_true _ _ |>.mp parses
  obtain ⟨edits, -, members, spliced⟩ := (faithful code tree parsed).2 _ (rewriteImports_eq_ok solid)
  have noEdits : edits = [] := by
    apply List.eq_nil_iff_forall_not_mem.mpr
    intro edit member
    obtain ⟨part, isPart, -⟩ := (members edit).mp member
    rw [List.isEmpty_iff.mp none] at isPart
    cases isPart
  rw [noEdits, Text.splice_nil] at spliced
  exact differs spliced

end Specifier

end LiveComponent
