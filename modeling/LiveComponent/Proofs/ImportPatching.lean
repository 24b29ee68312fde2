import LiveComponent.Proofs.ImportClauses
import Mathlib.Data.List.Nodup

namespace LiveComponent

/-!
# Patched imports

Missing primitives are added to the clause of an import at the head of a module.  The module is then still one, and
what its clause bound and the added primitives are bound by the import.  An added primitive can have been bound before
only by the clause itself, under an alias.
-/

namespace Text

/-! ## Sorted sets of texts -/

variable {text other : Text} {texts : List Text}

theorem not_before_self (text : Text) :
    before text text = false := by
  induction text with
  | nil => rfl
  | cons c text inductionHypothesis => simp [before, inductionHypothesis]

theorem before_trans
    {first second third : Text}
    (lower : before first second = true)
    (upper : before second third = true) :
    before first third = true := by
  induction first generalizing second third with
  | nil =>
      cases third with
      | nil => cases second <;> cases upper
      | cons => rfl
  | cons a first inductionHypothesis =>
      cases second with
      | nil => cases lower
      | cons b second =>
          cases third with
          | nil => cases upper
          | cons c third =>
              simp only [before, Bool.or_eq_true, Bool.and_eq_true, decide_eq_true_eq] at lower upper ⊢
              rcases lower with lower | ⟨rfl, lower⟩
              · rcases upper with upper | ⟨rfl, -⟩
                · exact .inl (Nat.lt_trans lower upper)
                · exact .inl lower
              · rcases upper with upper | ⟨rfl, upper⟩
                · exact .inl upper
                · exact .inr ⟨rfl, inductionHypothesis lower upper⟩

/-- Of two different texts one comes before the other. -/
theorem before_of_not_before
    (differ : text ≠ other)
    (behind : before text other = false) :
    before other text = true := by
  induction text generalizing other with
  | nil =>
      cases other with
      | nil => exact absurd rfl differ
      | cons => cases behind
  | cons a text inductionHypothesis =>
      cases other with
      | nil => rfl
      | cons b other =>
          simp only [before, Bool.or_eq_false_iff, Bool.and_eq_false_iff, decide_eq_false_iff_not, Nat.not_lt] at behind
          simp only [before, Bool.or_eq_true, Bool.and_eq_true, decide_eq_true_eq]
          rcases Nat.lt_or_eq_of_le behind.1 with lower | same
          · exact .inl lower
          · obtain rfl : b = a := Char.toNat_inj.mp same
            refine .inr ⟨rfl, inductionHypothesis (fun equal => differ (congrArg _ equal)) ?_⟩
            exact behind.2.resolve_left (fun differs => differs rfl)

theorem mem_insertSorted :
    other ∈ insertSorted text texts ↔ other = text ∨ other ∈ texts := by
  induction texts with
  | nil => simp [insertSorted]
  | cons first texts inductionHypothesis =>
      rw [insertSorted]
      split
      next same => simp [same]
      next =>
        split
        · simp
        · simp [inductionHypothesis, or_left_comm]

theorem sorted_insertSorted
    (sorted : texts.Pairwise fun first second => before first second = true) :
    (insertSorted text texts).Pairwise fun first second => before first second = true := by
  induction texts with
  | nil => exact List.pairwise_singleton _ _
  | cons first texts inductionHypothesis =>
      rw [List.pairwise_cons] at sorted
      rw [insertSorted]
      split
      next => exact List.pairwise_cons.mpr sorted
      next differ =>
        split
        next lower =>
          refine List.pairwise_cons.mpr ⟨?_, List.pairwise_cons.mpr sorted⟩
          rintro other among
          rcases List.mem_cons.mp among with rfl | among
          · exact lower
          · exact before_trans lower (sorted.1 other among)
        next upper =>
          refine List.pairwise_cons.mpr ⟨?_, inductionHypothesis sorted.2⟩
          intro other among
          rcases mem_insertSorted.mp among with rfl | among
          · exact before_of_not_before differ (Bool.eq_false_iff.mpr upper)
          · exact sorted.1 other among

/-- A sorted set has the members of the list, each once. -/
theorem sortedSet_spec (texts : List Text) :
    (sortedSet texts).Nodup ∧ ∀ text, text ∈ sortedSet texts ↔ text ∈ texts := by
  have folded (done : List Text) (sorted : done.Pairwise fun first second => before first second = true) :
      (texts.foldl (fun done text => insertSorted text done) done).Pairwise
          (fun first second => before first second = true) ∧
        ∀ text, text ∈ texts.foldl (fun done text => insertSorted text done) done ↔ text ∈ texts ∨ text ∈ done := by
    induction texts generalizing done with
    | nil => exact ⟨sorted, fun _ => by simp⟩
    | cons first texts inductionHypothesis =>
        obtain ⟨sorted', members⟩ := inductionHypothesis (insertSorted first done) (sorted_insertSorted sorted)
        refine ⟨sorted', fun text => ?_⟩
        rw [List.foldl_cons, members, mem_insertSorted, List.mem_cons, or_left_comm, or_assoc]
  obtain ⟨sorted, members⟩ := folded [] .nil
  refine ⟨sorted.imp ?_, fun text => (members text).trans (by simp)⟩
  rintro first second lower rfl
  rw [not_before_self] at lower
  cases lower

end Text

namespace Normalization

open Lexer LiveComponent.Parser

/-! ## Clauses -/

/-- The entries of the found clause. -/
def clauseEntries (found : Pattern.Found) : List Text :=
  ((found.text? "named").map entries).getD []

/-- The names that the found clause binds. -/
def clauseNames (found : Pattern.Found) : List Text :=
  (found.text? "default").toList ++ (clauseEntries found).map entryName

/-- The clause consists of plain names, some of them renamed, and the module's name is a plain text in quotes. -/
def isPlainClause (found : Pattern.Found) : Bool :=
  ((found.text? "default").toList.all fun name => isIdentifierName name && Token.isFree name) &&
    (clauseEntries found).all isPlainEntry && ((found.text? "indent").getD []).all isGap &&
      (found.text? "quote" == some ['"'] || found.text? "quote" == some ['\'']) && (writtenModule found).all isPlain

variable
  {found : Pattern.Found}
  {code name : Text}
  {list : List Text}

/-- The primitives are plain names. -/
theorem plain_of_mem_primitives
    (among : name ∈ primitives.map String.toList) :
    isPlainEntry name = true ∧ entryName name = name ∧ importedName name = name := by
  have each : ∀ name ∈ primitives.map String.toList,
      isPlainEntry name = true ∧ entryName name = name ∧ importedName name = name := by
    decide +kernel
  exact each name among

/-- The rebuilt import spells its clause. -/
theorem spells_rebuilt
    (plain : isPlainClause found = true)
    (entriesPlain : ∀ entry ∈ list, isPlainEntry entry = true)
    (filled : list ≠ [])
    (rest : Text) :
    Spells (clauseTokens (found.text? "default") list (writtenModule found)) (rebuilt found list ++ rest) rest := by
  simp only [isPlainClause, Bool.and_eq_true, Bool.or_eq_true, List.all_eq_true, beq_iff_eq] at plain
  obtain ⟨⟨⟨⟨named, -⟩, indented⟩, quoted⟩, plainPath⟩ := plain
  obtain ⟨quote, isQuote, quotes⟩ : ∃ quote, found.text? "quote" = some [quote] ∧ (quote = '"' ∨ quote = '\'') := by
    rcases quoted with quoted | quoted
    · exact ⟨_, quoted, .inl rfl⟩
    · exact ⟨_, quoted, .inr rfl⟩
  have names : ∀ name ∈ found.text? "default", isIdentifierName name = true := fun name among =>
    (named name (Option.mem_toList.mpr among)).1
  have clause := spells_clauseText names entriesPlain filled quotes (List.all_eq_true.mpr plainPath) rest
  have text : rebuilt found list ++ rest = ((found.text? "indent").getD []) ++
      (clauseText (found.text? "default") list quote (writtenModule found) ++ rest) := by
    unfold rebuilt clauseText
    rw [isQuote]
    cases found.text? "default" <;> simp only [Option.getD_some, List.append_assoc]
  rw [text]
  exact spells_blanks indented clause (List.cons_ne_nil _ _)

/-! ## Declared names -/

/-- The names that a tree declares anywhere. -/
def declaredAnywhere : Tree → List Text :=
  Tree.fold fun tree names =>
    match tree.kind with
    | .binding name => [name]
    | _ => names.flatten

theorem declaredNames?_eq :
    declaredNames? code = (parse? (isTyped code) code).map declaredAnywhere := rfl

/-- What is bound is among the names. -/
structure Within (bound : Bound) (names : List Text) : Prop where
  pattern : bound.pattern ⊆ names
  scope : bound.scope ⊆ names
  hoisted : bound.hoisted ⊆ names

/-- What a node binds is declared in it. -/
theorem within_boundBy
    {kind : Kind}
    {parts : List Bound}
    {names : List Text}
    (each : ∀ part ∈ parts, Within part names)
    (name : ∀ text, kind = .binding text → text ∈ names) :
    Within (boundBy kind parts) names := by
  have inside {find : Bound → List Text} (some : List Bound) (each : ∀ part ∈ some, find part ⊆ names) :
      some.flatMap find ⊆ names := by
    intro text member
    obtain ⟨part, among, found⟩ := List.mem_flatMap.mp member
    exact each part among found
  have all {some : List Bound} (among : some ⊆ parts) : some.flatMap Bound.pattern ⊆ names :=
    inside some fun part member => (each part (among member)).pattern
  have patterns := all (List.Subset.refl parts)
  have first := all (List.take_subset 1 parts)
  have second := all (List.Subset.trans (List.take_subset 1 _) (List.drop_subset 1 parts))
  have taken (count : Nat) := all (List.take_subset count parts)
  have scopes := inside parts fun part member => (each part member).scope
  have hoisted := inside parts fun part member => (each part member).hoisted
  have nothing : ([] : List Text) ⊆ names := List.nil_subset names
  unfold boundBy
  extract_lets
  split
  next text => exact ⟨List.cons_subset.mpr ⟨name text rfl, nothing⟩, nothing, nothing⟩
  -- all other nodes take over what their children bind
  all_goals repeat' split
  all_goals
    constructor <;> first | exact nothing | exact patterns | exact first | exact second | exact taken _ | exact scopes | exact hoisted

/-- What a tree binds is declared in it. -/
theorem within_declaredAnywhere (tree : Tree) :
    Within (bound tree) (declaredAnywhere tree) := by
  induction tree with
  | node kind span children inductionHypothesis =>
      have node : declaredAnywhere (.node kind span children) =
          match kind with
          | .binding name => [name]
          | _ => (children.map declaredAnywhere).flatten := by
        rw [declaredAnywhere, Tree.fold_node]
        rfl
      rw [bound, Tree.fold_node, node]
      have below : ∀ part ∈ children.map bound, Within part (children.map declaredAnywhere).flatten := by
        intro part among
        obtain ⟨child, member, rfl⟩ := List.mem_map.mp among
        have subset : declaredAnywhere child ⊆ (children.map declaredAnywhere).flatten := fun text found =>
          List.mem_flatten.mpr ⟨_, List.mem_map_of_mem member, found⟩
        have within := inductionHypothesis child member
        exact ⟨List.Subset.trans within.pattern subset, List.Subset.trans within.scope subset,
          List.Subset.trans within.hoisted subset⟩
      change Within (boundBy kind (children.map bound)) _
      split
      next name => exact ⟨List.Subset.refl _, List.nil_subset _, List.nil_subset _⟩
      next noBinding => exact within_boundBy below fun text same => absurd same (noBinding text)

/-- What is bound at the top of a module is declared in it. -/
theorem moduleNames_subset
    (span : Span)
    (trees : List Tree) :
    moduleNames trees ⊆ declaredAnywhere (.node .program span trees) := by
  intro text among
  obtain ⟨child, member, found⟩ := List.mem_flatMap.mp among
  have within := within_declaredAnywhere child
  rw [declaredAnywhere, Tree.fold_node]
  refine List.mem_flatten.mpr ⟨_, List.mem_map_of_mem member, ?_⟩
  rcases List.mem_append.mp found with inScope | hoisted
  · exact within.scope inScope
  · exact within.hoisted hoisted

/-! ## Added primitives -/

/-- The code behind the found import. -/
def bodyOf (found : Pattern.Found) (code : Text) : Text :=
  code.drop found.whole.stop

/-- The primitives that are missing in the code behind the found import. -/
def addedTo (found : Pattern.Found) (code : Text) : List Text :=
  missing ((clauseEntries found).map importedName) (bodyOf found code)

/-- An import at the head of the code is rebuilt with the missing primitives. -/
theorem complete_eq
    (opens : found.whole.start = 0) :
    complete found code =
      if (addedTo found code).isEmpty then (code, [])
      else (rebuilt found (Text.sortedSet (clauseEntries found ++ addedTo found code)) ++ bodyOf found code,
        addedTo found code) := by
  unfold complete addedTo clauseEntries bodyOf
  rw [opens, List.take_zero, List.nil_append]
  extract_lets current body added statement
  split
  · rfl
  · simp only [Text.splice, Text.spliceFrom, Nat.sub_self, List.take_zero, List.nil_append, Nat.sub_zero]
    rfl

theorem added_eq
    {framework : Framework}
    {others : List Pattern.Found}
    (first : ((importOf framework.name).findAll code).filter bindsValues = found :: others)
    (opens : found.whole.start = 0) :
    (ofText framework code).added = addedTo found code := by
  unfold ofText
  rw [first]
  dsimp only
  rw [complete_eq opens]
  split
  next none => exact (List.isEmpty_iff.mp none).symm
  next => rfl

theorem mem_missing
    {imported : List Text}
    (among : name ∈ missing imported code) :
    name ∈ primitives.map String.toList ∧ name ∉ imported ∧
      ∀ declared, declaredNames? code = some declared → name ∉ declared := by
  unfold missing at among
  rw [List.mem_filter] at among
  simp only [Bool.and_eq_true, Bool.not_eq_true', List.contains_eq_mem, decide_eq_false_iff_not] at among
  refine ⟨among.1, among.2.1.1, fun declared known => ?_⟩
  have undeclared := among.2.2
  rw [known, isDeclared] at undeclared
  simpa using undeclared

/-- The entries of the rebuilt import are plain. -/
theorem plain_entries
    (plain : isPlainClause found = true) :
    ∀ entry ∈ Text.sortedSet (clauseEntries found ++ addedTo found code), isPlainEntry entry = true := by
  simp only [isPlainClause, Bool.and_eq_true] at plain
  intro entry among
  rcases List.mem_append.mp (((Text.sortedSet_spec _).2 entry).mp among) with old | new
  · exact List.all_eq_true.mp plain.1.1.1.2 entry old
  · exact (plain_of_mem_primitives (mem_missing new).1).1

/-- The rebuilt import binds the names of the clause and the added ones. -/
theorem mem_names_iff :
    name ∈ (found.text? "default").toList ++
        (Text.sortedSet (clauseEntries found ++ addedTo found code)).map entryName ↔
      name ∈ clauseNames found ∨ name ∈ addedTo found code := by
  have members := (Text.sortedSet_spec (clauseEntries found ++ addedTo found code)).2
  have own {added : Text} (among : added ∈ addedTo found code) : entryName added = added :=
    (plain_of_mem_primitives (mem_missing among).1).2.1
  simp only [clauseNames, List.mem_append, List.mem_map, members, or_and_right, exists_or, or_assoc]
  have same : (∃ entry ∈ addedTo found code, entryName entry = name) ↔ name ∈ addedTo found code := by
    constructor
    · rintro ⟨entry, among, rfl⟩
      rwa [own among]
    · exact fun among => ⟨name, among, own among⟩
  rw [same]

/-- The rebuilt import binds an added name exactly once, unless the clause bound it already. -/
theorem count_names_iff
    (among : name ∈ addedTo found code) :
    ((found.text? "default").toList ++
        (Text.sortedSet (clauseEntries found ++ addedTo found code)).map entryName).count name = 1 ↔
      name ∉ clauseNames found := by
  obtain ⟨nodup, members⟩ := Text.sortedSet_spec (clauseEntries found ++ addedTo found code)
  generalize Text.sortedSet (clauseEntries found ++ addedTo found code) = all at nodup members
  obtain ⟨-, own, whole⟩ := plain_of_mem_primitives (mem_missing among).1
  have present : name ∈ all := (members name).mpr (List.mem_append.mpr (.inr among))
  have fresh : name ∉ (clauseEntries found).map importedName := (mem_missing among).2.1
  have itself : all.filter (· == name) = [name] := by
    rw [List.filter_beq, List.count_eq_one_of_mem nodup present]
    rfl
  -- the entries that bind the name are the name itself and those of the clause that rename something to it
  have counted : (all.map entryName).count name = 1 + (all.filter (· != name)).countP (entryName · == name) := by
    rw [List.count, List.countP_map]
    refine (List.countP_eq_countP_filter_add all _ (· == name)).trans ?_
    rw [itself, List.countP_singleton, Function.comp_apply, own, beq_self_eq_true]
    rfl
  have renames : (∃ entry ∈ all.filter (· != name), entryName entry = name) ↔
      ∃ entry ∈ clauseEntries found, entryName entry = name := by
    constructor
    · rintro ⟨entry, kept, binds⟩
      obtain ⟨member, other⟩ := List.mem_filter.mp kept
      rcases List.mem_append.mp ((members entry).mp member) with old | new
      · exact ⟨entry, old, binds⟩
      · rw [(plain_of_mem_primitives (mem_missing new).1).2.1] at binds
        simp [binds] at other
    · rintro ⟨entry, old, binds⟩
      refine ⟨entry, List.mem_filter.mpr ⟨(members entry).mpr (List.mem_append.mpr (.inl old)), ?_⟩, binds⟩
      have other : entry ≠ name := by
        rintro rfl
        exact fresh (List.mem_map.mpr ⟨entry, old, whole⟩)
      simp [other]
  rw [List.count_append, counted, clauseNames, List.mem_append, List.mem_map, not_or, ← renames]
  constructor
  · intro once
    constructor
    · exact List.count_eq_zero.mp (by omega)
    · rintro ⟨entry, kept, binds⟩
      have none : (all.filter (· != name)).countP (entryName · == name) = 0 := by omega
      exact List.countP_eq_zero.mp none entry kept (beq_iff_eq.mpr binds)
  · rintro ⟨noDefault, noEntry⟩
    have first : (found.text? "default").toList.count name = 0 := List.count_eq_zero.mpr noDefault
    have none : (all.filter (· != name)).countP (entryName · == name) = 0 :=
      List.countP_eq_zero.mpr fun entry kept binds => noEntry ⟨entry, kept, beq_iff_eq.mp binds⟩
    omega

/-! ## The patched module -/

/-- A text that starts with a word names no interpreter. -/
theorem namesNoInterpreter_of_spells
    {word text rest : Text}
    {escaped : Bool}
    {tokens : List Token}
    (spells : Spells (.word word escaped :: tokens) text rest) :
    namesNoInterpreter text = true := by
  obtain ⟨token, -⟩ := spells
  unfold namesNoInterpreter
  cases starts : "#!".toList.isPrefixOf text with
  | false => rfl
  | true =>
      obtain ⟨more, rfl⟩ := List.isPrefixOf_iff_prefix.mp starts
      have start : startOf ('#' :: '!' :: more) = ⟨'#' :: '!' :: more, 0, false, .none, true⟩ :=
        startOf_visible (by decide) _
      change (read (startOf ('#' :: '!' :: more)).rest).token = _ at token
      rw [start] at token
      cases token

/-- A list is no longer than its text. -/
theorem length_le_rebuilt :
    list.length ≤ (rebuilt found list).length + 1 := by
  have joined (texts : List Text) : texts.length ≤ (Text.joinWith ", ".toList texts).length + 1 := by
    induction texts with
    | nil => exact Nat.zero_le _
    | cons first texts inductionHypothesis =>
        cases texts with
        | nil => simp
        | cons next texts =>
            change _ ≤ (first ++ [',', ' '] ++ Text.joinWith ", ".toList (next :: texts)).length + 1
            rw [List.length_append, List.length_append, List.length_cons]
            have two : [',', ' '].length = 2 := rfl
            omega
  have inside := joined list
  unfold rebuilt
  dsimp only
  split <;> simp only [List.length_append] <;> omega

/-- An import of names binds them. -/
theorem topNames_of_importOfNames
    {names : List Text}
    {path : Text}
    {line : Tree}
    (imports : IsImportOfNames names path line) :
    topNames line = names := by
  obtain ⟨specifiers, span, place, rfl, binds⟩ := imports
  have taken : ((specifiers ++ [Tree.node (.stringLiteral path false) place []]).map bound).take specifiers.length =
      specifiers.map bound := by
    rw [List.map_append]
    exact List.take_left' (List.length_map ..)
  rw [topNames, bound, Tree.fold_node, ← bound]
  change (((specifiers ++ [Tree.node (.stringLiteral path false) place []]).map bound).take specifiers.length).flatMap
    Bound.pattern ++ [] = names
  rw [taken, List.append_nil, List.flatMap_map]
  exact binds

/-- The module with the rebuilt import at its head has the statements of what followed the import. -/
theorem exists_patched
    {body : Tree}
    (plain : isPlainClause found = true)
    (parsed : parse? (isTyped (bodyOf found code)) (bodyOf found code) = some body)
    (noInterpreter : namesNoInterpreter (bodyOf found code) = true)
    (adds : addedTo found code ≠ []) :
    ∃ tree line later,
      parse? (isTyped (bodyOf found code))
          (rebuilt found (Text.sortedSet (clauseEntries found ++ addedTo found code)) ++ bodyOf found code) = some tree ∧
        tree.children = line :: later ∧ IsImport line ∧ AreSame body.children later ∧
        topNames line = (found.text? "default").toList ++
          (Text.sortedSet (clauseEntries found ++ addedTo found code)).map entryName ∧
        moduleNames tree.children = topNames line ++ moduleNames body.children := by
  have plainList := @plain_entries found code plain
  have filled : Text.sortedSet (clauseEntries found ++ addedTo found code) ≠ [] := by
    obtain ⟨name, more, same⟩ := List.exists_cons_of_ne_nil adds
    have present : name ∈ Text.sortedSet (clauseEntries found ++ addedTo found code) := by
      rw [(Text.sortedSet_spec _).2, same]
      simp
    exact List.ne_nil_of_mem present
  generalize Text.sortedSet (clauseEntries found ++ addedTo found code) = list at plainList filled
  have named : ∀ name ∈ found.text? "default", Token.isFree name = true := by
    simp only [isPlainClause, Bool.and_eq_true, List.all_eq_true] at plain
    exact fun name among => (plain.1.1.1.1 name (Option.mem_toList.mpr among)).2
  have spells := spells_rebuilt plain plainList filled (bodyOf found code)
  have reads : ReadsImport (IsImportOfNames ((found.text? "default").toList ++ list.map entryName) (writtenModule found))
      (rebuilt found list ++ bodyOf found code)
        (clauseTokens (found.text? "default") list (writtenModule found)).tail := by
    intro goals state after budget runs
    have large : list.length ≤ state.budget := by
      have short := @length_le_rebuilt found list
      rw [budget, List.length_append]
      omega
    obtain ⟨line, read, imports⟩ := @statement_entries goals state after _ list _ named plainList large runs false
    refine ⟨line, read, ?_, imports⟩
    obtain ⟨_, _, _, rfl, -⟩ := imports
    exact ⟨_, _, _, _, rfl⟩
  obtain ⟨tree, parsed', imported⟩ := @parse?_inserted_first _ _ _ _ _ _ [] parsed noInterpreter
    (namesNoInterpreter_of_spells spells) spells nofun reads
  obtain ⟨line', -, imports', bound⟩ := imported.flatMap_eq (fun _ _ _ => rfl) topNames_of_stands topNames_eq
  obtain ⟨heads, heads', line, later, rest, kept, children, noHeads, noHeads', isImport, imports, same⟩ := imported
  obtain rfl := List.map_eq_nil_iff.mp noHeads
  obtain rfl := List.map_eq_nil_iff.mp noHeads'
  obtain rfl : body.children = later := kept
  have names := topNames_of_importOfNames imports
  refine ⟨tree, line, rest, parsed', children, isImport, same, names, ?_⟩
  rw [names, ← topNames_of_importOfNames imports']
  exact bound

/-- Primitives are added to an import at the head of a module whose clause is plain, if the rest of the module is a
module too.  The patched code is then the module with this import: it binds what the clause bound and exactly the added
primitives, and all other statements stay as they are.  No added primitive is declared in the rest of the module; so it
is bound exactly once, unless the clause itself renames something to it. -/
theorem added_symbols_bound
    {framework : Framework}
    {others : List Pattern.Found}
    {body : Tree}
    (first : ((importOf framework.name).findAll code).filter bindsValues = found :: others)
    (opens : found.whole.start = 0)
    (plain : isPlainClause found = true)
    (parsed : parse? (isTyped (bodyOf found code)) (bodyOf found code) = some body)
    (noInterpreter : namesNoInterpreter (bodyOf found code) = true)
    (adds : (ofText framework code).added ≠ []) :
    ∃ tree line later,
      parse? (isTyped (bodyOf found code)) (complete found code).1 = some tree ∧ tree.children = line :: later ∧
        IsImport line ∧ AreSame body.children later ∧
        (∀ name, name ∈ topNames line ↔ name ∈ clauseNames found ∨ name ∈ (ofText framework code).added) ∧
        moduleNames tree.children = topNames line ++ moduleNames body.children ∧
        ∀ name ∈ (ofText framework code).added, name ∉ declaredAnywhere body ∧
          ((moduleNames tree.children).count name = 1 ↔ name ∉ clauseNames found) := by
  have added := added_eq first opens
  rw [added] at adds ⊢
  rw [complete_eq opens, if_neg (by rwa [List.isEmpty_iff])]
  obtain ⟨tree, line, later, parsed', children, isImport, same, names, together⟩ :=
    exists_patched plain parsed noInterpreter adds
  refine ⟨tree, line, later, parsed', children, isImport, same, fun name => ?_, together, fun name among => ?_⟩
  · rw [names]
    exact mem_names_iff
  · have undeclared : name ∉ declaredAnywhere body :=
      (mem_missing among).2.2 _ (by rw [declaredNames?_eq, parsed]; rfl)
    refine ⟨undeclared, ?_⟩
    have absent : (moduleNames body.children).count name = 0 := by
      obtain ⟨trees, last, -, -, -, -, rfl⟩ := parse?_eq_some.mp parsed
      exact List.count_eq_zero.mpr fun member => undeclared (moduleNames_subset _ trees member)
    rw [together, List.count_append, absent, Nat.add_zero, names]
    exact count_names_iff among

/-- A name that the clause gives to another primitive is added to it. -/
theorem symbol_added_twice :
    ∃ code found others tree name,
      ((importOf (Framework.name {})).findAll code).filter bindsValues = found :: others ∧
        name ∈ (ofText {} code).added ∧
          parse? (isTyped (bodyOf found code)) (complete found code).1 = some tree ∧
            (moduleNames tree.children).count name ≠ 1 := by
  obtain ⟨code, name, facts⟩ : ∃ code name : Text,
      (match ((importOf (Framework.name {})).findAll code).filter bindsValues with
        | found :: _ =>
          found.whole.start == 0 && isPlainClause found && namesNoInterpreter (bodyOf found code) &&
            (parse? (isTyped (bodyOf found code)) (bodyOf found code)).isSome &&
              (ofText {} code).added.contains name && (clauseNames found).contains name
        | [] => false) = true :=
    ⟨"import { useMemo as useState } from 'react';\nexport default () => useState(0);".toList, "useState".toList,
      by decide +kernel⟩
  cases first : ((importOf (Framework.name {})).findAll code).filter bindsValues with
  | nil =>
      rw [first] at facts
      cases facts
  | cons found others =>
      rw [first] at facts
      simp only [Bool.and_eq_true, beq_iff_eq, List.contains_eq_mem, decide_eq_true_eq] at facts
      obtain ⟨⟨⟨⟨⟨opens, plain⟩, noInterpreter⟩, parsed⟩, among⟩, bound⟩ := facts
      obtain ⟨body, parsed⟩ := Option.isSome_iff_exists.mp parsed
      obtain ⟨tree, -, -, parsed', -, -, -, -, -, each⟩ :=
        added_symbols_bound first opens plain parsed noInterpreter (List.ne_nil_of_mem among)
      exact ⟨code, found, others, tree, name, first, among, parsed', fun once => (each name among).2.mp once bound⟩

/-- Under the same conditions, and where no teardown call is guarded, the import of the normalized code binds a primitive
that nothing bound before exactly if the text pattern finds a call of it and the clause does not import it under another
name. -/
theorem primitive_bound_iff
    {framework : Framework}
    {others : List Pattern.Found}
    {body original : Tree}
    (first : ((importOf framework.name).findAll code).filter bindsValues = found :: others)
    (opens : found.whole.start = 0)
    (plain : isPlainClause found = true)
    (parsed : parse? (isTyped (bodyOf found code)) (bodyOf found code) = some body)
    (noInterpreter : namesNoInterpreter (bodyOf found code) = true)
    (unguarded : (Teardown.guard (complete found code).1).1 = (complete found code).1)
    (whole : parse? (isTyped (bodyOf found code)) code = some original)
    (primitive : name ∈ primitives.map String.toList)
    (unbound : name ∉ moduleNames original.children)
    (unnamed : name ∉ clauseNames found)
    (undeclared : name ∉ declaredAnywhere body) :
    ∃ tree, parse? (isTyped (bodyOf found code)) (ofText framework code).code = some tree ∧
      (name ∈ (tree.children.take 1).flatMap topNames ↔
        (callOf name).occurs (bodyOf found code) = true ∧ name ∉ (clauseEntries found).map importedName) := by
  have completed := @complete_eq found code opens
  have normalized : (ofText framework code).code = (complete found code).1 := by
    unfold ofText
    rw [first]
    exact unguarded
  have missed : name ∈ addedTo found code ↔
      (callOf name).occurs (bodyOf found code) = true ∧ name ∉ (clauseEntries found).map importedName := by
    have known : declaredNames? (bodyOf found code) = some (declaredAnywhere body) := by
      rw [declaredNames?_eq, parsed]
      rfl
    unfold addedTo missing
    rw [List.mem_filter, known]
    simp [primitive, isDeclared, undeclared, and_comm]
  rw [normalized]
  by_cases none : (addedTo found code).isEmpty = true
  · rw [if_pos none] at completed
    rw [completed]
    refine ⟨original, whole, ?_⟩
    rw [← missed, List.isEmpty_iff.mp none]
    refine ⟨fun among => absurd ?_ unbound, nofun⟩
    obtain ⟨statement, member, found⟩ := List.mem_flatMap.mp among
    exact List.mem_flatMap.mpr ⟨statement, List.mem_of_mem_take member, found⟩
  · rw [if_neg none] at completed
    rw [completed]
    obtain ⟨tree, line, later, parsed', children, -, -, names, -⟩ :=
      exists_patched plain parsed noInterpreter (fun nothing => none (List.isEmpty_iff.mpr nothing))
    refine ⟨tree, parsed', ?_⟩
    rw [children, List.take_succ_cons, List.take_zero, List.flatMap_singleton, names, mem_names_iff, ← missed]
    exact or_iff_right unnamed

/-- A call with type arguments is not found. -/
theorem primitive_missed :
    ∃ code found others tree name,
      ((importOf (Framework.name {})).findAll code).filter bindsValues = found :: others ∧
        name ∈ primitives.map String.toList ∧
          parse? (isTyped (bodyOf found code)) (ofText {} code).code = some tree ∧
            name ∉ (tree.children.take 1).flatMap topNames := by
  obtain ⟨code, name, facts⟩ : ∃ code name : Text,
      (match ((importOf (Framework.name {})).findAll code).filter bindsValues with
        | found :: _ =>
          found.whole.start == 0 && isPlainClause found && namesNoInterpreter (bodyOf found code) &&
            (parse? (isTyped (bodyOf found code)) (bodyOf found code)).any
              (fun body => !(declaredAnywhere body).contains name) &&
            (parse? (isTyped (bodyOf found code)) code).any (fun original => !(moduleNames original.children).contains name) &&
            (Teardown.guard (complete found code).1).1 == (complete found code).1 &&
            (primitives.map String.toList).contains name && !(clauseNames found).contains name &&
            !(callOf name).occurs (bodyOf found code)
        | [] => false) = true :=
    ⟨"import { useMemo } from 'react';\nexport default () => useState<number>(0);".toList, "useState".toList,
      by decide +kernel⟩
  cases first : ((importOf (Framework.name {})).findAll code).filter bindsValues with
  | nil =>
      rw [first] at facts
      cases facts
  | cons found others =>
      rw [first] at facts
      simp only [Bool.and_eq_true, beq_iff_eq, List.contains_eq_mem, decide_eq_true_eq, Bool.not_eq_true',
        decide_eq_false_iff_not, Option.any_eq_true] at facts
      obtain ⟨⟨⟨⟨⟨⟨⟨⟨opens, plain⟩, noInterpreter⟩, body, parsed, undeclared⟩, original, whole, unbound⟩, unguarded⟩,
        primitive⟩, unnamed⟩, uncalled⟩ := facts
      obtain ⟨tree, parsed', binds⟩ := primitive_bound_iff first opens plain parsed noInterpreter unguarded whole primitive
        unbound unnamed undeclared
      refine ⟨code, found, others, tree, name, first, primitive, parsed', fun among => ?_⟩
      rw [binds, uncalled] at among
      exact Bool.false_ne_true among.1

end Normalization

end LiveComponent
