import LiveComponent.Proofs.ChildWhitespace

namespace LiveComponent

/-!
# Entities are decoded once

The entities are decoded one kind after the other, each in the whole text.  An entity starts with an ampersand and
holds no other one, no entity is the start of another one, and what an entity stands for occurs behind the start of
none.  So a replacement neither makes nor takes away an entity that is decoded later, as long as the ampersand comes
last, and the result is that of a single pass from left to right.
-/

/-! ## Replacing occurrences -/

namespace Text

/-- An occurrence is skipped to its end. -/
theorem replaceFrom_length
    (part new first rest : Text) :
    replaceFrom part new first.length (first ++ rest) = replaceAll part new rest := by
  induction first with
  | nil =>
      rfl
  | cons c first inductionHypothesis =>
      exact inductionHypothesis

/-- An occurrence at the start of a text is replaced. -/
theorem replaceAll_append
    {part : Text}
    (nonempty : part ≠ [])
    (new rest : Text) :
    replaceAll part new (part ++ rest) = new ++ replaceAll part new rest := by
  cases part with
  | nil =>
      exact absurd rfl nonempty
  | cons c part =>
      have occurs : (c :: part).isPrefixOf (c :: (part ++ rest)) = true :=
        List.isPrefixOf_iff_prefix.mpr (List.prefix_append (c :: part) rest)
      rw [replaceAll, List.cons_append, replaceFrom, if_pos occurs, List.length_cons, Nat.add_sub_cancel,
        replaceFrom_length]

/-- A character at which no occurrence starts is copied. -/
theorem replaceAll_cons
    {part rest : Text}
    {c : Char}
    (absent : ¬part <+: c :: rest)
    (new : Text) :
    replaceAll part new (c :: rest) = c :: replaceAll part new rest := by
  have noPrefix : ¬part.isPrefixOf (c :: rest) = true := mt List.isPrefixOf_iff_prefix.mp absent
  rw [replaceAll, replaceFrom, if_neg noPrefix]
  rfl

variable
  {mark m : Char}
  {part body : Text}

/-- A text without the character that occurrences start with is copied. -/
theorem replaceAll_append_of_free
    (free : mark ∉ body)
    (new rest : Text) :
    replaceAll (mark :: part) new (body ++ rest) = body ++ replaceAll (mark :: part) new rest := by
  induction body with
  | nil =>
      rfl
  | cons c body inductionHypothesis =>
      obtain ⟨different, free⟩ := not_or.mp (mt List.mem_cons.mpr free)
      have absent : ¬mark :: part <+: c :: (body ++ rest) := fun occurs =>
        different (List.cons_prefix_cons.mp occurs).1
      rw [List.cons_append, replaceAll_cons absent, inductionHypothesis free, List.cons_append]

/-- A text that holds neither the start of an occurrence nor what takes its place starts a text after the replacement
exactly if it did before. -/
theorem prefix_replaceAll_iff
    (free : mark ∉ body)
    (fresh : m ∉ body)
    (rest : Text) :
    body <+: replaceAll (mark :: part) [m] rest ↔ body <+: rest := by
  induction body generalizing rest with
  | nil =>
      simp
  | cons b body inductionHypothesis =>
      obtain ⟨noMark, free⟩ := not_or.mp (mt List.mem_cons.mpr free)
      obtain ⟨noMeaning, fresh⟩ := not_or.mp (mt List.mem_cons.mpr fresh)
      cases rest with
      | nil =>
          exact Iff.rfl
      | cons c rest =>
          by_cases occurs : mark :: part <+: c :: rest
          · -- Here stands an occurrence, and both its start and what replaces it differ from the first character.
            obtain ⟨after, same⟩ := occurs
            rw [← same, replaceAll_append (List.cons_ne_nil mark part)]
            refine iff_of_false (fun leads => ?_) (fun leads => ?_)
            · exact noMeaning (List.cons_prefix_cons.mp leads).1.symm
            · exact noMark (List.cons_prefix_cons.mp leads).1.symm
          · rw [replaceAll_cons occurs, List.cons_prefix_cons, List.cons_prefix_cons, inductionHypothesis free fresh]

end Text

namespace Markup

/-! ## The table of entities -/

/-- An entity is an ampersand and a text behind it, and it stands for one character.  In the texts behind the ampersands
of all entities there are no ampersands and no such characters. -/
structure IsEntity (entity : Text × Text) (body : Text) (m : Char) : Prop where
  spelled :
    entity.1 = '&' :: body
  means :
    entity.2 = [m]
  free :
    ∀ other ∈ entities, '&' ∉ other.1.tail ∧ m ∉ other.1.tail

theorem exists_isEntity
    {entity : Text × Text}
    (member : entity ∈ entities) :
    ∃ body m, IsEntity entity body m := by
  have shapes : ∀ entity ∈ entities,
      entity.1 = '&' :: entity.1.tail ∧ entity.2 = [entity.2.headD '&'] ∧
        ∀ other ∈ entities, '&' ∉ other.1.tail ∧ entity.2.headD '&' ∉ other.1.tail := by
    decide
  obtain ⟨spelled, means, free⟩ := shapes entity member
  exact ⟨_, _, spelled, means, free⟩

/-- At one place of a text there is at most one entity. -/
theorem entity_unique
    {first second : Text × Text}
    {rest : Text}
    (member : first ∈ entities)
    (otherMember : second ∈ entities)
    (occurs : first.1 <+: second.1 ++ rest) :
    first = second := by
  have apart : ∀ first ∈ entities, ∀ second ∈ entities, first.1 <+: second.1 → first = second := by
    decide
  rcases List.prefix_or_prefix_of_prefix occurs (List.prefix_append second.1 rest) with leads | leads
  · exact apart first member second otherMember leads
  · exact (apart second otherMember first member leads).symm

/-! ## Replacing the entities of a table -/

/-- The text in which the entities of a table are replaced, one after the other. -/
def replaceEach (table : List (Text × Text)) (text : Text) : Text :=
  table.foldl (fun text (entity, meaning) => Text.replaceAll entity meaning text) text

theorem replaceEach_cons
    (entity : Text × Text)
    (table : List (Text × Text))
    (text : Text) :
    replaceEach (entity :: table) text = replaceEach table (Text.replaceAll entity.1 entity.2 text) := rfl

theorem replaceEach_nil
    (table : List (Text × Text)) :
    replaceEach table [] = [] := by
  induction table with
  | nil =>
      rfl
  | cons entity table inductionHypothesis =>
      exact inductionHypothesis

variable {table : List (Text × Text)}

/-- Entities are found where they were, whatever entities were replaced behind. -/
theorem prefix_cons_replaceAll_iff
    {entity other : Text × Text}
    (member : entity ∈ entities)
    (otherMember : other ∈ entities)
    (c : Char)
    (rest : Text) :
    other.1 <+: c :: Text.replaceAll entity.1 entity.2 rest ↔ other.1 <+: c :: rest := by
  obtain ⟨body, m, isEntity⟩ := exists_isEntity member
  obtain ⟨otherBody, _, isOther⟩ := exists_isEntity otherMember
  have free := isEntity.free other otherMember
  rw [isOther.spelled, List.tail_cons] at free
  rw [isOther.spelled, isEntity.spelled, isEntity.means, List.cons_prefix_cons, List.cons_prefix_cons,
    Text.prefix_replaceAll_iff free.1 free.2]

/-- A character at which no entity starts is copied. -/
theorem replaceEach_copied
    (known : table ⊆ entities)
    {c : Char}
    {rest : Text}
    (absent : ∀ entity ∈ table, ¬entity.1 <+: c :: rest) :
    replaceEach table (c :: rest) = c :: replaceEach table rest := by
  induction table generalizing rest with
  | nil =>
      rfl
  | cons entity table inductionHypothesis =>
      obtain ⟨here, later⟩ := List.forall_mem_cons.mp absent
      obtain ⟨member, known⟩ := List.cons_subset.mp known
      have stillAbsent : ∀ other ∈ table, ¬other.1 <+: c :: Text.replaceAll entity.1 entity.2 rest :=
        fun other inside => (prefix_cons_replaceAll_iff member (known inside) c rest).not.mpr (later other inside)
      rw [replaceEach_cons, Text.replaceAll_cons here, inductionHypothesis known stillAbsent, replaceEach_cons]

/-- Replacing an entity leaves another one in front as it is. -/
theorem replaceAll_other
    {entity other : Text × Text}
    (member : entity ∈ entities)
    (otherMember : other ∈ entities)
    (different : entity ≠ other)
    (rest : Text) :
    Text.replaceAll entity.1 entity.2 (other.1 ++ rest) =
      other.1 ++ Text.replaceAll entity.1 entity.2 rest := by
  have absent : ¬entity.1 <+: other.1 ++ rest := fun occurs =>
    different (entity_unique member otherMember occurs)
  obtain ⟨body, m, isEntity⟩ := exists_isEntity member
  obtain ⟨otherBody, _, isOther⟩ := exists_isEntity otherMember
  have free : '&' ∉ otherBody := by
    have tail := (isEntity.free other otherMember).1
    rwa [isOther.spelled] at tail
  rw [isOther.spelled, List.cons_append] at absent ⊢
  rw [Text.replaceAll_cons absent, isEntity.spelled, Text.replaceAll_append_of_free free]
  rfl

/-- An entity of a table is replaced by what it stands for, unless this starts an entity that comes later. -/
theorem replaceEach_entity
    (known : table ⊆ entities)
    (inert : table.Pairwise fun first second => first.2.head? ≠ second.1.head?)
    {entity : Text × Text}
    (member : entity ∈ table)
    (rest : Text) :
    replaceEach table (entity.1 ++ rest) = entity.2 ++ replaceEach table rest := by
  induction table generalizing rest with
  | nil =>
      cases member
  | cons first table inductionHypothesis =>
      obtain ⟨firstInert, inert⟩ := List.pairwise_cons.mp inert
      obtain ⟨firstKnown, known⟩ := List.cons_subset.mp known
      rw [replaceEach_cons, replaceEach_cons]
      by_cases same : first = entity
      · subst same
        obtain ⟨body, m, isEntity⟩ := exists_isEntity firstKnown
        have nonempty : first.1 ≠ [] := by
          rw [isEntity.spelled]
          exact List.cons_ne_nil _ _
        rw [Text.replaceAll_append nonempty, isEntity.means]
        refine replaceEach_copied known fun other inside occurs => ?_
        obtain ⟨otherBody, _, isOther⟩ := exists_isEntity (known inside)
        have apart := firstInert other inside
        rw [isOther.spelled] at occurs apart
        rw [isEntity.means] at apart
        exact apart (congrArg some (List.cons_prefix_cons.mp occurs).1.symm)
      · have later : entity ∈ table := (List.mem_cons.mp member).resolve_left (Ne.symm same)
        rw [replaceAll_other firstKnown (known later) same]
        exact inductionHypothesis known inert later _

/-! ## Decoding -/

/-- What a single pass from left to right makes of a text: an entity is replaced by what it stands for, and a character
at which no entity starts is copied. -/
inductive DecodedOnce : Text → Text → Prop where
  | nil :
      DecodedOnce [] []
  | entity
      {entity meaning rest decoded : Text}
      (known : (entity, meaning) ∈ entities)
      (decodes : DecodedOnce rest decoded) :
      DecodedOnce (entity ++ rest) (meaning ++ decoded)
  | copied
      {c : Char}
      {rest decoded : Text}
      (absent : ∀ entity ∈ entities, ¬entity.1 <+: c :: rest)
      (decodes : DecodedOnce rest decoded) :
      DecodedOnce (c :: rest) (c :: decoded)

/-- The text in which the characters that entities stand for are written as these entities. -/
def escaped (text : Text) : Text :=
  text.flatMap fun c =>
    if c = '&' then "&amp;".toList
    else if c = '<' then "&lt;".toList
    else if c = '>' then "&gt;".toList
    else if c = '"' then "&quot;".toList
    else if c = '\'' then "&#39;".toList
    else if c = Char.ofNat 0xA0 then "&nbsp;".toList
    else [c]

/-- An entity at the start of a text is decoded, and the rest on its own. -/
theorem decodeEntities_entity
    {entity : Text × Text}
    (member : entity ∈ entities)
    (rest : Text) :
    decodeEntities (entity.1 ++ rest) = entity.2 ++ decodeEntities rest :=
  replaceEach_entity (List.Subset.refl entities) (by decide) member rest

/-- A character at which no entity starts stays, and the rest is decoded on its own. -/
theorem decodeEntities_copied
    {c : Char}
    {rest : Text}
    (absent : ∀ entity ∈ entities, ¬entity.1 <+: c :: rest) :
    decodeEntities (c :: rest) = c :: decodeEntities rest :=
  replaceEach_copied (List.Subset.refl entities) absent

theorem decodeEntities_nil :
    decodeEntities [] = [] :=
  replaceEach_nil entities

/-- Whatever a single pass makes of a text is its decoded form. -/
theorem DecodedOnce.decodeEntities_eq
    {text decoded : Text}
    (decodes : DecodedOnce text decoded) :
    decodeEntities text = decoded := by
  induction decodes with
  | nil =>
      exact decodeEntities_nil
  | @entity entity meaning rest decoded known _ inductionHypothesis =>
      rw [decodeEntities_entity known rest, inductionHypothesis]
  | copied absent _ inductionHypothesis =>
      rw [decodeEntities_copied absent, inductionHypothesis]

/-- A single pass comes to the end of every text. -/
theorem exists_decodedOnce
    (text : Text) :
    ∃ decoded, DecodedOnce text decoded := by
  induction size : text.length using Nat.strong_induction_on generalizing text with
  | _ length inductionHypothesis =>
      by_cases occurs : ∃ entity ∈ entities, entity.1 <+: text
      · obtain ⟨entity, member, rest, rfl⟩ := occurs
        obtain ⟨body, _, isEntity⟩ := exists_isEntity member
        have shorter : rest.length < length := by
          rw [← size, isEntity.spelled, List.length_append, List.length_cons]
          omega
        obtain ⟨decoded, decodes⟩ := inductionHypothesis rest.length shorter rest rfl
        exact ⟨entity.2 ++ decoded, .entity member decodes⟩
      · push Not at occurs
        cases text with
        | nil =>
            exact ⟨[], .nil⟩
        | cons c rest =>
            have shorter : rest.length < length := size ▸ Nat.lt_succ_self rest.length
            obtain ⟨decoded, decodes⟩ := inductionHypothesis rest.length shorter rest rfl
            exact ⟨c :: decoded, .copied occurs decodes⟩

/-- No entity that starts in front of an ampersand reaches over it. -/
theorem decodeEntities_append_ampersand
    (before rest : Text) :
    decodeEntities (before ++ '&' :: rest) = decodeEntities before ++ decodeEntities ('&' :: rest) := by
  obtain ⟨decoded, decodes⟩ := exists_decodedOnce before
  rw [decodes.decodeEntities_eq]
  induction decodes with
  | nil =>
      rfl
  | @entity entity meaning before decoded known _ inductionHypothesis =>
      rw [List.append_assoc, decodeEntities_entity known, inductionHypothesis, List.append_assoc]
  | @copied c before decoded absent _ inductionHypothesis =>
      have stillAbsent : ∀ entity ∈ entities, ¬entity.1 <+: c :: (before ++ '&' :: rest) := by
        intro entity member occurs
        obtain ⟨body, m, isEntity⟩ := exists_isEntity member
        have free : '&' ∉ body := by
          have tail := (isEntity.free entity member).1
          rwa [isEntity.spelled] at tail
        rw [isEntity.spelled, List.cons_prefix_cons] at occurs
        have inside := Text.isPrefixOf_append_cons free before rest
        rw [List.isPrefixOf_iff_prefix.mpr occurs.2] at inside
        refine absent entity member ?_
        rw [isEntity.spelled, List.cons_prefix_cons]
        exact ⟨occurs.1, List.isPrefixOf_iff_prefix.mp inside.symm⟩
      rw [List.cons_append, decodeEntities_copied stillAbsent, inductionHypothesis, List.cons_append]

/-- An escaped text is decoded to itself. -/
theorem decodeEntities_escaped
    (text : Text) :
    decodeEntities (escaped text) = text := by
  induction text with
  | nil =>
      exact decodeEntities_nil
  | cons c text inductionHypothesis =>
      have known {entity : Text} (member : (entity, [c]) ∈ entities) :
          decodeEntities (entity ++ escaped text) = c :: text := by
        rw [decodeEntities_entity member, inductionHypothesis]
        rfl
      unfold escaped at known ⊢
      rw [List.flatMap_cons]
      split_ifs with ampersand less greater quote apostrophe blank
      · exact known (by subst ampersand; decide)
      · exact known (by subst less; decide)
      · exact known (by subst greater; decide)
      · exact known (by subst quote; decide)
      · exact known (by subst apostrophe; decide)
      · exact known (by subst blank; decide)
      · have absent : ∀ entity ∈ entities, ¬entity.1 <+: c :: escaped text := by
          intro entity member occurs
          obtain ⟨body, _, isEntity⟩ := exists_isEntity member
          rw [isEntity.spelled, List.cons_prefix_cons] at occurs
          exact ampersand occurs.1.symm
        have copied := decodeEntities_copied absent
        rw [inductionHypothesis] at copied
        exact copied

/-- Entities are decoded exactly once.  The decoded form of a text is what a single pass from left to right makes of it.
Wherever an entity stands, what is before it and what is behind it are decoded on their own, so that no decoded
ampersand starts an entity with what follows it.  A text whose special characters were written as entities is decoded
to itself. -/
theorem entities_decoded_once :
    (∀ text decoded, DecodedOnce text decoded ↔ decodeEntities text = decoded) ∧
      (∀ entity ∈ entities, ∀ before behind,
        decodeEntities (before ++ entity.1 ++ behind) =
          decodeEntities before ++ entity.2 ++ decodeEntities behind) ∧
      ∀ text, decodeEntities (escaped text) = text := by
  refine ⟨fun text decoded => ⟨DecodedOnce.decodeEntities_eq, fun same => ?_⟩,
    fun entity member before behind => ?_, decodeEntities_escaped⟩
  · obtain ⟨result, decodes⟩ := exists_decodedOnce text
    rw [decodes.decodeEntities_eq] at same
    exact same ▸ decodes
  · obtain ⟨body, _, isEntity⟩ := exists_isEntity member
    have here := decodeEntities_entity member behind
    rw [isEntity.spelled, List.cons_append] at here
    rw [isEntity.spelled, List.append_assoc, List.cons_append, decodeEntities_append_ampersand, here,
      List.append_assoc]

/-- An ampersand that was decoded does not become part of an entity. -/
theorem entities_decoded_once_of_ampersand :
    ("&amp;".toList, ['&']) ∈ entities ∧
      decodeEntities "a&amp;lt;&amp;amp;b".toList = "a&lt;&amp;b".toList := by
  have ampersand : ("&amp;".toList, ['&']) ∈ entities := by decide
  have once := entities_decoded_once.2.1 _ ampersand
  refine ⟨ampersand, (once "a".toList "lt;&amp;amp;b".toList).trans ?_⟩
  have again : decodeEntities "lt;&amp;amp;b".toList = _ := once "lt;".toList "amp;b".toList
  rw [again]
  decide +kernel

end Markup

end LiveComponent
