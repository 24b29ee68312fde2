import LiveComponent.Cache.Entry
import LiveComponent.Json.Record
import LiveComponent.Proofs.InstantText
import LiveComponent.Proofs.JsonText

namespace LiveComponent

/-!
# Stored documents are read back

A document of a cache is given back by its text if its numbers have 64 bits and its instants lie in
known years.
-/

namespace Json

open Fields

/-! ## Fields -/

/-- Members of distinct names are the fields of a record. -/
theorem fields?_ofMembers
    {members : List (String × Json)}
    {names : List String}
    (named : members.map Prod.fst = names)
    (distinct : names.Nodup) :
    (ofMembers members).fields? names =
      some ⟨false, members.map fun member => (member.1.toList, member.2)⟩ := by
  have texts : (names.map String.toList).Nodup :=
    List.pairwise_map.mpr (distinct.imp fun differ same => differ (String.toList_inj.mp same))
  have once : namesOnce (names.map String.toList)
      (members.map fun member => (member.1.toList, member.2)) = true := by
    refine List.all_eq_true.mpr fun name _ => decide_eq_true ?_
    have counted := List.nodup_iff_count_le_one.mp texts name
    rw [← named, List.map_map, List.count_eq_countP, List.countP_map] at counted
    rw [← List.countP_eq_length_filter, List.countP_map]
    exact counted
  simp only [ofMembers, fields?, once, if_true]

/-- A member is looked up by its name. -/
theorem lookup_members
    (members : List (String × Json))
    (name : String) :
    (members.map fun member => (member.1.toList, member.2)).lookup name.toList =
      members.lookup name := by
  induction members with
  | nil =>
      rfl
  | cons member members inductionHypothesis =>
      have same : (name.toList == member.1.toList) = (name == member.1) := by
        rw [Bool.eq_iff_iff, beq_iff_eq, beq_iff_eq, String.toList_inj]
      rw [List.map_cons, List.lookup_cons, List.lookup_cons, same, inductionHypothesis]

/-- A list is given back if each of its items is. -/
theorem mapM_map
    {α : Type}
    {encode : α → Json}
    {decode : Json → Option α}
    {items : List α}
    (inverse : ∀ item ∈ items, decode (encode item) = some item) :
    (items.map encode).mapM decode = some items := by
  induction items with
  | nil =>
      rfl
  | cons item items inductionHypothesis =>
      have later := inductionHypothesis fun other member =>
        inverse other (List.mem_cons_of_mem item member)
      simp [inverse item List.mem_cons_self, later]

theorem nullable_ofText?
    (value : Option Text) :
    nullable asText? (ofText? value) = some value := by
  cases value <;> rfl

/-- A member that may be null is given back if it is null or the member without it is. -/
theorem nullable_map_getD
    {α : Type}
    {encode : α → Json}
    {decode : Json → Option α}
    (inverse : ∀ value, decode (encode value) = some value)
    (written : ∀ value, encode value ≠ null)
    (value : Option α) :
    nullable decode ((value.map encode).getD null) = some value := by
  cases value with
  | none =>
      rfl
  | some value =>
      change nullable decode (encode value) = _
      unfold nullable
      split
      next same => exact absurd same (written value)
      next => rw [inverse, Option.map_some]

theorem asTexts?_ofTexts
    (texts : List Text) :
    (ofTexts texts).asTexts? = some texts := by
  have each : (texts.map text).mapM asText? = some texts := mapM_map fun _ _ => rfl
  simp [asTexts?, ofTexts, asList?, each]

theorem plain_ofText?
    (value : Option Text) :
    Plain (ofText? value) := by
  cases value with
  | none => exact .null
  | some value => exact .text value

theorem plain_ofTexts
    (texts : List Text) :
    Plain (ofTexts texts) := by
  refine .list _ fun item member => ?_
  obtain ⟨value, -, rfl⟩ := List.mem_map.mp member
  exact .text value

theorem plain_ofMembers
    {members : List (String × Json)}
    (plain : ∀ member ∈ members, Plain member.2) :
    Plain (ofMembers members) := by
  refine .object _ fun item member => ?_
  obtain ⟨value, valueMember, rfl⟩ := List.mem_map.mp member
  exact plain value valueMember

end Json

open Json

namespace ComponentMetadata

theorem ofJson?_toJson
    (metadata : ComponentMetadata) :
    ofJson? metadata.toJson = some metadata := by
  rw [ofJson?, toJson, fields?_ofMembers]
  · simp only [Option.bind_eq_bind, Option.bind_some, Option.pure_def, Fields.orNull, Fields.required,
      lookup_members, List.lookup_cons, String.reduceBEq, nullable_ofText?, asTexts?_ofTexts]
  · rfl
  · decide

theorem plain_toJson
    (metadata : ComponentMetadata) :
    Plain metadata.toJson := by
  refine plain_ofMembers ?_
  simp [plain_ofText?, plain_ofTexts]

end ComponentMetadata

/-! ## Artifacts -/

namespace Artifact

/-- An artifact that can be stored. -/
structure IsStorable (artifact : Artifact) : Prop where
  compiledAt : artifact.compiledAt.IsKnown
  byteSize : artifact.byteSize < UInt64.size

theorem ofJson?_toJson
    {artifact : Artifact}
    (storable : artifact.IsStorable) :
    ofJson? artifact.toJson = some artifact := by
  have metadata := nullable_map_getD ComponentMetadata.ofJson?_toJson
    (fun metadata => Json.noConfusion) artifact.metadata
  rw [ofJson?, toJson, fields?_ofMembers]
  · simp only [Option.bind_eq_bind, Option.bind_some, Option.pure_def, Fields.orNull, Fields.required,
      Fields.maybe, Fields.withDefault, lookup_members, List.lookup_cons, String.reduceBEq,
      nullable_ofText?, asTexts?_ofTexts, asText?, instantOf?,
      Instant.ofText?_toText storable.compiledAt, asWord?_ofNat storable.byteSize, metadata]
  · rfl
  · decide

theorem plain_toJson
    (artifact : Artifact) :
    Plain artifact.toJson := by
  have metadata : Plain ((artifact.metadata.map ComponentMetadata.toJson).getD null) := by
    cases artifact.metadata with
    | none => exact .null
    | some metadata => exact metadata.plain_toJson
  refine plain_ofMembers ?_
  simp [plain_ofText?, plain_ofTexts, Plain.text, Plain.number, metadata]

end Artifact

/-! ## Entries and documents -/

namespace CacheEntry

/-- An entry that can be stored: its numbers have 64 bits, and its instants lie in known years. -/
structure IsStorable (entry : CacheEntry) : Prop where
  artifact : entry.artifact.IsStorable
  createdAt : entry.createdAt.IsKnown
  lastAccessAt : entry.lastAccessAt.IsKnown
  hitCount : entry.hitCount < UInt64.size
  byteSize : entry.byteSize < UInt64.size
  seq : entry.seq < UInt64.size

theorem ofJson?_toJson
    {entry : CacheEntry}
    (storable : entry.IsStorable) :
    ofJson? entry.toJson = some entry := by
  rw [ofJson?, toJson, fields?_ofMembers]
  · simp only [Option.bind_eq_bind, Option.bind_some, Option.pure_def, Fields.required,
      Fields.withDefault, lookup_members, List.lookup_cons, String.reduceBEq, asText?,
      Artifact.instantOf?, Artifact.ofJson?_toJson storable.artifact,
      Instant.ofText?_toText storable.createdAt, Instant.ofText?_toText storable.lastAccessAt,
      asWord?_ofNat storable.hitCount, asWord?_ofNat storable.byteSize, asWord?_ofNat storable.seq]
  · rfl
  · decide

theorem plain_toJson
    (entry : CacheEntry) :
    Plain entry.toJson := by
  refine plain_ofMembers ?_
  simp [Artifact.plain_toJson, Plain.text, Plain.number]

end CacheEntry

namespace CacheDocument

/-- A document whose entries can be stored is given back by its text. -/
theorem ofText?_toText
    {document : CacheDocument}
    (storable : ∀ entry ∈ document.entries, entry.IsStorable) :
    ofText? document.toText = some document := by
  have plain : Plain document.toJson := by
    refine plain_ofMembers ?_
    simp only [List.forall_mem_cons, List.not_mem_nil, false_imp_iff, implies_true, and_true]
    refine ⟨.text _, .list _ fun item member => ?_⟩
    obtain ⟨entry, -, rfl⟩ := List.mem_map.mp member
    exact entry.plain_toJson
  have entries : (document.entries.map CacheEntry.toJson).mapM CacheEntry.ofJson? =
      some document.entries :=
    mapM_map fun entry member => CacheEntry.ofJson?_toJson (storable entry member)
  have members : ofJson? document.toJson = some document := by
    rw [ofJson?, toJson, fields?_ofMembers]
    · simp only [Option.bind_eq_bind, Option.bind_some, Option.pure_def, Fields.required,
        lookup_members, List.lookup_cons, String.reduceBEq, asText?, asList?, entries]
    · rfl
    · decide
  rw [ofText?, toText, read?_print plain, Option.bind_some, members]

end CacheDocument

end LiveComponent
