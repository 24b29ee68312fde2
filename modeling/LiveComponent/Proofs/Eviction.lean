import LiveComponent.Proofs.WriteThrough

namespace LiveComponent

/-!
# Which entries are evicted

An eviction is described by what it takes away and what it leaves: how many entries go, that the protected one
stays, and that those go first which are worth least and came first.  This leaves no choice, so the order in
which the entries are enumerated does not matter.  Places in the order of entries are never given twice, however
often the cache is restored.
-/

/-! ## The order of texts -/

namespace Text

/-- No text comes both before and after another one. -/
theorem before_asymm
    {first second : Text}
    (earlier : before first second = true) :
    before second first = false := by
  induction first generalizing second with
  | nil =>
      cases second <;> simp_all [before]
  | cons a first inductionHypothesis =>
      cases second with
      | nil => simp [before] at earlier
      | cons b second =>
          simp only [before, Bool.or_eq_true, Bool.and_eq_true, decide_eq_true_eq] at earlier
          rcases earlier with less | ⟨rfl, further⟩
          · have differs : ¬b = a := by
              rintro rfl
              exact Nat.lt_irrefl _ less
            simp [before, differs, Nat.le_of_lt less]
          · simp [before, inductionHypothesis further]

/-- Whatever lies between two texts is apart from one of them. -/
theorem before_or_before
    {first last : Text}
    (earlier : before first last = true)
    (middle : Text) :
    before first middle = true ∨ before middle last = true := by
  induction first generalizing middle last with
  | nil =>
      cases last with
      | nil => simp [before] at earlier
      | cons c last => cases middle <;> simp [before]
  | cons a first inductionHypothesis =>
      cases last with
      | nil => simp [before] at earlier
      | cons c last =>
          cases middle with
          | nil => simp [before]
          | cons b middle =>
              simp only [before, Bool.or_eq_true, Bool.and_eq_true, decide_eq_true_eq] at earlier ⊢
              by_cases lower : a.toNat < b.toNat
              · exact .inl (.inl lower)
              by_cases upper : b.toNat < c.toNat
              · exact .inr (.inl upper)
              rcases earlier with less | ⟨rfl, further⟩
              · omega
              · obtain rfl : a = b := Char.toNat_inj.mp (by omega)
                exact (inductionHypothesis further middle).imp
                  (fun found => .inr ⟨rfl, found⟩) (fun found => .inr ⟨rfl, found⟩)

end Text

/-! ## What entries are worth -/

namespace CacheEntry

/-- How much the entry is worth, as an exact number. -/
def worth (entry : CacheEntry) : Int :=
  entry.lastAccessAt.millis + 10 ^ 6 * entry.hitCount

/-- The worth of the entry has 64 bits. -/
def IsScored (entry : CacheEntry) : Prop :=
  -2 ^ 63 ≤ entry.worth ∧ entry.worth < 2 ^ 63

/-- The entry is worth less than another one, or as much, and came before it. -/
def GoesFirst (first second : CacheEntry) : Prop :=
  first.worth < second.worth ∨ first.worth = second.worth ∧ first.seq < second.seq

/-- Of two entries at most one goes first. -/
theorem GoesFirst.asymm
    {first second : CacheEntry}
    (goes : first.GoesFirst second) :
    ¬second.GoesFirst first := by
  unfold GoesFirst at *
  omega

/-- A worth of 64 bits is computed exactly. -/
theorem IsScored.score_eq
    {entry : CacheEntry}
    (scored : entry.IsScored) :
    entry.score = entry.worth := by
  have same : entry.lastAccessAt.millis + entry.hitCount * hitWeight = entry.worth := by
    rw [worth, hitWeight, Int.mul_comm (10 ^ 6)]
    rfl
  obtain ⟨lower, upper⟩ := scored
  rw [score, same]
  have size : UInt64.size = 2 ^ 64 := rfl
  exact Int.bmod_eq_of_le (by omega) (by omega)

end CacheEntry

namespace Cache

/-! ## Ranking -/

/-- The order of eviction is transitive. -/
theorem isEvictedFirst_trans
    (first second third : CacheEntry)
    (earlier : isEvictedFirst first second = true)
    (later : isEvictedFirst second third = true) :
    isEvictedFirst first third = true := by
  simp only [isEvictedFirst, Bool.or_eq_true, Bool.and_eq_true, decide_eq_true_eq, Bool.not_eq_true']
    at earlier later ⊢
  rcases earlier with less | ⟨scores, less | ⟨places, keys⟩⟩
  · left
    omega
  · omega
  · rcases later with less | ⟨scores', less | ⟨places', keys'⟩⟩
    · left
      omega
    · omega
    · refine .inr ⟨scores.trans scores', .inr ⟨places.trans places', ?_⟩⟩
      apply Bool.eq_false_iff.mpr
      intro between
      rcases Text.before_or_before between second.key with one | other
      · rw [one] at keys'
        cases keys'
      · rw [other] at keys
        cases keys

/-- Of two entries one is evicted first. -/
theorem isEvictedFirst_total
    (first second : CacheEntry) :
    (isEvictedFirst first second || isEvictedFirst second first) = true := by
  simp only [isEvictedFirst, Bool.or_eq_true, Bool.and_eq_true, decide_eq_true_eq, Bool.not_eq_true']
  cases ordered : Text.before second.key first.key with
  | false =>
      simp only [and_true]
      omega
  | true =>
      simp only [Text.before_asymm ordered, and_true]
      omega

/-- Between entries of different places the order of eviction is that of their worth and places. -/
theorem goesFirst_of_isEvictedFirst
    {first second : CacheEntry}
    (scored : first.IsScored)
    (otherScored : second.IsScored)
    (apart : first.seq ≠ second.seq)
    (earlier : isEvictedFirst first second = true) :
    first.GoesFirst second := by
  simp only [isEvictedFirst, Bool.or_eq_true, Bool.and_eq_true, decide_eq_true_eq, Bool.not_eq_true',
    scored.score_eq, otherScored.score_eq] at earlier
  unfold CacheEntry.GoesFirst
  omega

/-! ## Evictions -/

/-- What an eviction takes away from some entries and what it leaves. -/
structure IsEviction
    (capacity : Nat)
    (protectedKey : Option Text)
    (entries gone kept : List CacheEntry) :
    Prop where
  parts :
    (gone ++ kept).Perm entries
  number :
    gone.length =
      if entries.length ≤ capacity then 0 else max (entries.length / 4) (entries.length - capacity)
  unprotected :
    ∀ entry ∈ gone, some entry.key ≠ protectedKey
  least :
    ∀ entry ∈ gone, ∀ other ∈ kept, some other.key ≠ protectedKey → entry.GoesFirst other
  spared :
    ∀ entry ∈ entries, some entry.key = protectedKey → entry ∈ kept
  fits :
    kept.length ≤ capacity

/-- An eviction leaves no choice: it takes the same entries away, in whatever order they are enumerated. -/
theorem IsEviction.perm
    {capacity : Nat}
    {protectedKey : Option Text}
    {entries others gone kept otherGone otherKept : List CacheEntry}
    (eviction : IsEviction capacity protectedKey entries gone kept)
    (other : IsEviction capacity protectedKey others otherGone otherKept)
    (reordered : others.Perm entries)
    (nodup : entries.Nodup) :
    otherGone.Perm gone ∧ otherKept.Perm kept := by
  have nodupAll : (gone ++ kept).Nodup := eviction.parts.nodup_iff.mpr nodup
  have nodupOthers : (otherGone ++ otherKept).Nodup :=
    other.parts.nodup_iff.mpr (reordered.nodup_iff.mpr nodup)
  have all : (otherGone ++ otherKept).Perm (gone ++ kept) :=
    (other.parts.trans reordered).trans eviction.parts.symm
  have length : otherGone.length = gone.length := by
    rw [other.number, eviction.number, reordered.length_eq]
  -- If some entry stays in one case only, then some other one does in the other case only.
  have subset : otherGone ⊆ gone := by
    intro entry member
    by_contra stays
    have stayed : entry ∈ kept :=
      (List.mem_append.mp (all.mem_iff.mp (List.mem_append_left _ member))).resolve_left stays
    obtain ⟨victim, found, left⟩ : ∃ victim ∈ gone, victim ∉ otherGone := by
      by_contra none
      push Not at none
      have same := (List.subperm_of_subset nodupAll.of_append_left none).perm_of_length_le length.le
      exact stays (same.mem_iff.mpr member)
    have victimStays : victim ∈ otherKept :=
      (List.mem_append.mp (all.mem_iff.mpr (List.mem_append_left _ found))).resolve_left left
    exact (eviction.least victim found entry stayed (other.unprotected entry member)).asymm
      (other.least entry member victim victimStays (eviction.unprotected victim found))
  have same : otherGone.Perm gone :=
    (List.subperm_of_subset nodupOthers.of_append_left subset).perm_of_length_le length.ge
  exact ⟨same, (List.perm_append_left_iff gone).mp ((same.symm.append_right otherKept).trans all)⟩

/-- The entries have keys and places of their own, and there is room for one of them. -/
structure IsIndexed (cache : Cache) : Prop where
  roomy :
    0 < cache.capacity
  distinct :
    (cache.entries.map CacheEntry.key).Nodup
  placed :
    (cache.entries.map CacheEntry.seq).Nodup
  early :
    ∀ entry ∈ cache.entries, entry.seq < cache.nextSeq

variable {cache : Cache}

/-- There are as many entries that can be evicted as have to be. -/
theorem quota_le
    (indexed : cache.IsIndexed)
    (protectedKey : Option Text) :
    cache.quota ≤ (cache.entries.filter fun entry => some entry.key ≠ protectedKey).length := by
  have roomy := indexed.roomy
  have others : cache.entries.length ≤
      (cache.entries.filter fun entry => some entry.key ≠ protectedKey).length + 1 := by
    have parts := (List.filter_append_perm (fun entry => decide (some entry.key ≠ protectedKey))
      cache.entries).length_eq
    rw [List.length_append] at parts
    have alone : (cache.entries.filter fun entry =>
        !decide (some entry.key ≠ protectedKey)).length ≤ 1 := by
      cases protectedKey with
      | none => simp
      | some key =>
          have same : (cache.entries.filter fun entry => !decide (some entry.key ≠ some key)) =
              (cache.entries.find? fun entry => entry.key = key).toList := by
            rw [← filter_key_eq indexed.distinct key]
            simp
          rw [same]
          cases cache.entries.find? fun entry => entry.key = key <;> simp
    omega
  unfold quota
  dsimp only
  split
  · exact Nat.zero_le _
  · omega

/-- There are as many victims as entries have to be evicted. -/
theorem length_victims
    (indexed : cache.IsIndexed)
    (protectedKey : Option Text) :
    (cache.victims protectedKey).length = cache.quota := by
  have quota := quota_le indexed protectedKey
  rw [victims, List.length_take, List.length_mergeSort]
  omega

/-- At most as many entries stay as fit. -/
theorem length_evicted_le
    (indexed : cache.IsIndexed)
    (protectedKey : Option Text) :
    (cache.evicted protectedKey).cache.entries.length ≤ cache.capacity := by
  have total := (perm_victims indexed.distinct protectedKey).length_eq
  rw [List.length_append, length_victims indexed protectedKey] at total
  unfold Cache.quota at total
  dsimp only at total
  split at total <;> omega

/-- Victims are not protected. -/
theorem unprotected_of_mem_victims
    {protectedKey : Option Text}
    {entry : CacheEntry}
    (member : entry ∈ cache.victims protectedKey) :
    some entry.key ≠ protectedKey := by
  have candidate := (List.mergeSort_perm _ _).subset (List.mem_of_mem_take member)
  simpa using (List.mem_filter.mp candidate).2

/-- A victim comes before every entry that stays though it is not protected. -/
theorem isEvictedFirst_of_mem_victims
    (indexed : cache.IsIndexed)
    {protectedKey : Option Text}
    {entry other : CacheEntry}
    (member : entry ∈ cache.victims protectedKey)
    (stays : other ∈ (cache.evicted protectedKey).cache.entries)
    (free : some other.key ≠ protectedKey) :
    isEvictedFirst entry other = true ∧ entry.seq ≠ other.seq := by
  have parts := perm_victims indexed.distinct protectedKey
  have nodup : (cache.victims protectedKey ++ (cache.evicted protectedKey).cache.entries).Nodup :=
    parts.nodup_iff.mpr indexed.distinct.of_map
  have inside : other ∈ cache.entries := List.mem_of_mem_filter stays
  refine ⟨?_, fun same => ?_⟩
  · have ranked := List.pairwise_mergeSort isEvictedFirst_trans isEvictedFirst_total
      (cache.entries.filter fun entry => some entry.key ≠ protectedKey)
    have candidate : other ∈ (cache.entries.filter fun entry =>
        some entry.key ≠ protectedKey).mergeSort isEvictedFirst :=
      (List.mergeSort_perm _ _).symm.subset (List.mem_filter.mpr ⟨inside, by simpa using free⟩)
    rw [← List.take_append_drop cache.quota (List.mergeSort _ _)] at ranked candidate
    have later := (List.mem_append.mp candidate).resolve_left fun taken =>
      (List.nodup_append.mp nodup).2.2 other taken other stays rfl
    exact (List.pairwise_append.mp ranked).2.2 entry member other later
  · exact (List.nodup_append.mp nodup).2.2 entry member other stays
      (List.inj_on_of_nodup_map indexed.placed (mem_of_mem_victims member) inside same)

/-- The victims are the entries that an eviction takes away. -/
theorem isEviction_evicted
    (indexed : cache.IsIndexed)
    (scored : ∀ entry ∈ cache.entries, entry.IsScored)
    (protectedKey : Option Text) :
    IsEviction cache.capacity protectedKey cache.entries (cache.victims protectedKey)
      (cache.evicted protectedKey).cache.entries := by
  have parts := perm_victims indexed.distinct protectedKey
  refine ⟨parts, length_victims indexed protectedKey, fun entry => unprotected_of_mem_victims,
    fun entry member other stays free => ?_, fun entry member guarded => ?_, length_evicted_le indexed protectedKey⟩
  · obtain ⟨first, apart⟩ := isEvictedFirst_of_mem_victims indexed member stays free
    exact goesFirst_of_isEvictedFirst (scored entry (mem_of_mem_victims member))
      (scored other (List.mem_of_mem_filter stays)) apart first
  · exact (List.mem_append.mp (parts.symm.subset member)).resolve_left fun gone =>
      unprotected_of_mem_victims gone guarded

/-- An eviction may enumerate what it leaves in any order. -/
theorem IsEviction.reordered
    {capacity : Nat}
    {protectedKey : Option Text}
    {entries gone kept left : List CacheEntry}
    (eviction : IsEviction capacity protectedKey entries gone kept)
    (same : left.Perm kept) :
    IsEviction capacity protectedKey entries gone left where
  parts := (same.append_left gone).trans eviction.parts
  number := eviction.number
  unprotected := eviction.unprotected
  least entry member other stays := eviction.least entry member other (same.subset stays)
  spared entry member guarded := same.symm.subset (eviction.spared entry member guarded)
  fits := same.length_eq ▸ eviction.fits

/-! ## Indexed caches -/

/-- Fewer entries are still indexed. -/
theorem IsIndexed.sublist
    {entries : List CacheEntry}
    (indexed : cache.IsIndexed)
    (fewer : entries.Sublist cache.entries) :
    (cache.withEntries entries).IsIndexed where
  roomy := indexed.roomy
  distinct := indexed.distinct.sublist (fewer.map _)
  placed := indexed.placed.sublist (fewer.map _)
  early entry member := indexed.early entry (fewer.subset member)

/-- With the entries in another order the cache is still indexed. -/
theorem IsIndexed.reorder
    {order : List CacheEntry}
    (indexed : cache.IsIndexed)
    (reordered : order.Perm cache.entries) :
    (cache.withEntries order).IsIndexed where
  roomy := indexed.roomy
  distinct := (reordered.map CacheEntry.key).nodup_iff.mpr indexed.distinct
  placed := (reordered.map CacheEntry.seq).nodup_iff.mpr indexed.placed
  early entry member := indexed.early entry (reordered.subset member)

/-- An entry that is inserted as the latest one has a key and a place of its own. -/
theorem IsIndexed.insert
    {entry : CacheEntry}
    (indexed : cache.IsIndexed)
    (latest : entry.seq = cache.nextSeq) :
    IsIndexed { cache.insert entry with nextSeq := cache.nextSeq + 1 } where
  roomy := indexed.roomy
  distinct := distinct_insert indexed.distinct entry
  placed := by
    simp only [Cache.insert, List.map_append, List.map_cons, List.map_nil]
    refine List.nodup_append.mpr
      ⟨indexed.placed.sublist (List.filter_sublist.map _), List.nodup_singleton _, ?_⟩
    intro place member last isLast same
    obtain ⟨other, inside, rfl⟩ := List.mem_map.mp member
    have earlier := indexed.early other (List.mem_of_mem_filter inside)
    rw [List.mem_singleton] at isLast
    omega
  early other member := by
    rcases List.mem_append.mp member with old | new
    · exact Nat.lt_succ_of_lt (indexed.early other (List.mem_of_mem_filter old))
    · rw [List.mem_singleton.mp new, latest]
      exact Nat.lt_succ_self _

/-- A hit changes no key and no place. -/
theorem IsIndexed.countHit
    (indexed : cache.IsIndexed)
    (key : Text)
    (now : Instant) :
    (cache.countHit key now).IsIndexed := by
  have place (entry : CacheEntry) :
      (if entry.key = key then entry.hit now else entry).seq = entry.seq := by
    split <;> rfl
  refine ⟨indexed.roomy, ?_, ?_, fun entry member => ?_⟩
  · rw [keys_eq_of_content (content_countHit cache key now)]
    exact indexed.distinct
  · have same : (cache.countHit key now).entries.map CacheEntry.seq = cache.entries.map CacheEntry.seq := by
      rw [Cache.countHit, List.map_map]
      exact List.map_congr_left fun entry _ => place entry
    rw [same]
    exact indexed.placed
  · obtain ⟨old, inside, rfl⟩ := List.mem_map.mp member
    rw [place]
    exact indexed.early old inside

/-- After a call of the store the cache has the same entries or none. -/
theorem IsIndexed.settled
    (indexed : cache.IsIndexed)
    (outcome : Store × Except StoreFailure Unit) :
    (cache.settled outcome).cache.IsIndexed := by
  have none : (cache.withEntries []).IsIndexed := indexed.sublist (List.nil_sublist _)
  unfold Cache.settled
  split
  · exact { indexed with }
  · exact { none with }

theorem IsIndexed.persisted
    (indexed : cache.IsIndexed) :
    cache.persisted.cache.IsIndexed := by
  unfold Cache.persisted
  split
  · exact indexed.settled _
  · exact indexed

theorem IsIndexed.forgotten
    (indexed : cache.IsIndexed) :
    cache.forgotten.cache.IsIndexed := by
  unfold Cache.forgotten
  split
  · exact indexed.settled _
  · exact indexed

/-- Whatever a step of a call does to the cache, it is indexed afterwards. -/
theorem IsIndexed.use
    {next : Cache}
    (indexed : cache.IsIndexed)
    (used : cache.Use next) :
    next.IsIndexed := by
  cases used with
  | handles registry =>
      exact { indexed with }
  | lookUp now key =>
      unfold lookedUp
      split
      · exact indexed
      · split
        · exact indexed
        · split
          · exact (indexed.sublist List.filter_sublist).persisted
          · exact (indexed.countHit key now).persisted
  | take now key artifact =>
      unfold taken
      split
      · exact indexed
      · have held : (cache.replaced now key artifact).cache.IsIndexed := indexed.insert rfl
        exact (held.sublist List.filter_sublist).persisted
  | prune =>
      unfold pruned
      split
      · exact indexed
      · exact (indexed.sublist List.filter_sublist).persisted
  | clear =>
      have none : (cache.withEntries []).IsIndexed := indexed.sublist (List.nil_sublist _)
      simp only [cleared, CacheChange.andThen]
      split
      · exact none.forgotten
      · exact none

/-- A cache is indexed from the start, whatever lies in its store. -/
theorem isIndexed_ofStore
    (config : Config)
    (store : Option Store)
    (registry : Registry) :
    (ofStore config store registry).IsIndexed := by
  have empty : (empty config store registry).IsIndexed :=
    ⟨Nat.le_max_right _ _, List.nodup_nil, List.nodup_nil, List.forall_mem_nil _⟩
  have carried {change : CacheChange} (indexed : change.cache.IsIndexed) : change.carryOut.IsIndexed :=
    { indexed with }
  have restores (entries : List CacheEntry) {start : Cache} (indexed : start.IsIndexed) :
      (entries.foldl restoreEntry start).IsIndexed := by
    induction entries generalizing start with
    | nil => exact indexed
    | cons entry rest inductionHypothesis => exact inductionHypothesis (indexed.insert rfl)
  unfold ofStore
  split
  · exact empty
  next store =>
    dsimp only
    split
    · exact carried { empty.sublist (List.nil_sublist _) with }
    · exact empty
    · split
      · exact carried empty.forgotten
      · split
        · unfold restore
          dsimp only
          split
          · exact carried (restores _ empty).persisted
          · exact restores _ empty
        · exact carried empty.forgotten

/-! ## Other orders of enumeration -/

/-- The document does not depend on the order of enumeration. -/
theorem document_of_perm
    {entries : List CacheEntry}
    (indexed : cache.IsIndexed)
    (reordered : entries.Perm cache.entries) :
    (cache.withEntries entries).document = cache.document :=
  congrArg (CacheDocument.mk cache.version) (mergeSort_of_perm indexed.placed reordered)

/-- The victims and their order do not depend on the order of enumeration. -/
theorem victims_of_perm
    {entries : List CacheEntry}
    (indexed : cache.IsIndexed)
    (reordered : entries.Perm cache.entries)
    (protectedKey : Option Text) :
    (cache.withEntries entries).victims protectedKey = cache.victims protectedKey := by
  have quota : (cache.withEntries entries).quota = cache.quota := by
    simp only [Cache.quota, withEntries, reordered.length_eq]
  have sorted := (List.mergeSort_perm (entries.filter fun entry => some entry.key ≠ protectedKey)
    isEvictedFirst).trans ((reordered.filter fun entry => some entry.key ≠ protectedKey).trans
      (List.mergeSort_perm (cache.entries.filter fun entry => some entry.key ≠ protectedKey)
        isEvictedFirst).symm)
  have same := sorted.eq_of_pairwise
    (fun first second inside other (one : isEvictedFirst first second = true)
        (two : isEvictedFirst second first = true) => by
      have firstMember := reordered.subset (List.mem_of_mem_filter ((List.mergeSort_perm _ _).subset inside))
      have secondMember := List.mem_of_mem_filter ((List.mergeSort_perm _ _).subset other)
      refine List.inj_on_of_nodup_map indexed.placed firstMember secondMember ?_
      simp only [isEvictedFirst, Bool.or_eq_true, Bool.and_eq_true, decide_eq_true_eq] at one two
      omega)
    (List.pairwise_mergeSort isEvictedFirst_trans isEvictedFirst_total _)
    (List.pairwise_mergeSort isEvictedFirst_trans isEvictedFirst_total _)
  rw [victims, victims, quota]
  exact congrArg (List.take cache.quota) same

/-- What is evicted does not depend on the order of enumeration. -/
theorem evicted_of_perm
    {entries : List CacheEntry}
    (indexed : cache.IsIndexed)
    (reordered : entries.Perm cache.entries)
    (protectedKey : Option Text) :
    ∃ kept, kept.Perm (cache.evicted protectedKey).cache.entries ∧
      (cache.withEntries entries).evicted protectedKey =
        { cache := cache.withEntries kept, released := addresses (cache.victims protectedKey) } := by
  refine ⟨_, reordered.filter _, ?_⟩
  rw [evicted, victims_of_perm indexed reordered]
  rfl

/-- A write that the store takes over leaves the cache as it is, in whatever order its entries are
enumerated. -/
theorem persisted_of_works
    (works : cache.persisted.refused = false) :
    ∃ store, ∀ entries, (cache.withEntries entries).document = cache.document →
      (cache.withEntries entries).persisted =
        { cache := { cache.withEntries entries with store } } := by
  have unwritten (entries : List CacheEntry) (never : cache.enabled = false ∨ cache.store = none) :
      (cache.withEntries entries).persisted = { cache := cache.withEntries entries } := by
    have same : (cache.withEntries entries).enabled = cache.enabled := rfl
    have sameStore : (cache.withEntries entries).store = cache.store := rfl
    rcases never with off | missing
    · rw [persisted, same, off]
    · rw [persisted, same, sameStore, missing]
      cases cache.enabled <;> rfl
  cases on : cache.enabled with
  | false => exact ⟨cache.store, fun entries _ => unwritten entries (.inl on)⟩
  | true =>
      cases present : cache.store with
      | none =>
          refine ⟨cache.store, fun entries _ => ?_⟩
          exact unwritten entries (.inr present)
      | some store =>
          have written (entries : List CacheEntry) : (cache.withEntries entries).persisted =
              (cache.withEntries entries).settled
                (store.set cache.persistenceKey (cache.withEntries entries).document.toText) := by
            have same : (cache.withEntries entries).enabled = true := on
            have sameStore : (cache.withEntries entries).store = some store := present
            rw [persisted, same, sameStore]
            rfl
          have self : cache.persisted = (cache.withEntries cache.entries).persisted := rfl
          have document : (cache.withEntries cache.entries).document = cache.document := rfl
          rw [self, written, document] at works
          rcases set : store.set cache.persistenceKey cache.document.toText with ⟨next, failure | done⟩
          · rw [set] at works
            cases works
          · refine ⟨some next, fun entries same => ?_⟩
            rw [written, same, set]
            rfl

/-- With an artifact put into it the cache is the same up to the order of enumeration. -/
theorem replaced_of_perm
    {entries : List CacheEntry}
    (indexed : cache.IsIndexed)
    (reordered : entries.Perm cache.entries)
    (now : Instant)
    (key : Text)
    (artifact : Artifact) :
    ∃ held, held.Perm (cache.replaced now key artifact).cache.entries ∧
      (cache.withEntries entries).replaced now key artifact =
        { cache := (cache.replaced now key artifact).cache.withEntries held
          released := (cache.replaced now key artifact).released } := by
  have distinct : (entries.map CacheEntry.key).Nodup :=
    (reordered.map CacheEntry.key).nodup_iff.mpr indexed.distinct
  have previous : (cache.withEntries entries).find? key = cache.find? key := by
    have same := reordered.filter fun entry => entry.key = key
    rw [filter_key_eq distinct, filter_key_eq indexed.distinct] at same
    unfold find? withEntries
    cases one : entries.find? fun entry => entry.key = key with
    | none =>
        rw [one] at same
        exact (Option.toList_eq_nil_iff.mp same.nil_eq.symm).symm
    | some entry =>
        rw [one] at same
        exact (Option.toList_eq_singleton_iff.mp (List.perm_singleton.mp same.symm)).symm
  refine ⟨_, (reordered.filter _).append_right _, ?_⟩
  rw [Cache.replaced, previous]
  rfl

/-! ## Putting and pruning -/

/-- What comes of an artifact that is put over a working store, in whatever order the entries are
enumerated. -/
theorem put_of_perm
    {now : Instant}
    {key : Text}
    {artifact : Artifact}
    (indexed : cache.IsIndexed)
    (on : cache.enabled = true)
    (works : (cache.taken now key artifact).1.refused = false) :
    let held := (cache.replaced now key artifact).cache
    ∃ store, ∀ entries, entries.Perm cache.entries →
      ∃ kept, kept.Perm (held.evicted (some key)).cache.entries ∧
        (cache.withEntries entries).put now key artifact =
          ({ held.withEntries kept with
              store
              registry := cache.registry.releaseAll
                ((cache.replaced now key artifact).released ++ addresses (held.victims (some key))) },
            true) := by
  intro held
  have working : (held.evicted (some key)).cache.persisted.refused = false := by
    rw [taken, if_neg (by simp [on])] at works
    dsimp only [CacheChange.andThen] at works
    exact (Bool.or_eq_false_iff.mp works).2
  obtain ⟨store, persists⟩ := persisted_of_works working
  refine ⟨store, fun entries reordered => ?_⟩
  have indexedHeld : held.IsIndexed := indexed.insert rfl
  obtain ⟨items, sameHeld, replaced⟩ := replaced_of_perm indexed reordered now key artifact
  obtain ⟨kept, sameKept, evicted⟩ := evicted_of_perm indexedHeld sameHeld (some key)
  refine ⟨kept, sameKept, ?_⟩
  have persisted : (held.withEntries kept).persisted =
      { cache := { held.withEntries kept with store } } :=
    have indexedLeft : (held.evicted (some key)).cache.IsIndexed :=
      indexedHeld.sublist List.filter_sublist
    persists kept (document_of_perm indexedLeft sameKept)
  have enabled : (cache.withEntries entries).enabled = true := on
  have enabledHeld : held.enabled = true := on
  unfold put taken
  rw [if_neg (by simp [enabled])]
  dsimp only [CacheChange.andThen]
  rw [replaced]
  dsimp only
  rw [evicted]
  dsimp only
  rw [persisted]
  simp only [CacheChange.carryOut, List.append_nil, Prod.mk.injEq]
  exact ⟨rfl, enabledHeld⟩

/-- What comes of pruning over a working store, in whatever order the entries are enumerated. -/
theorem prune_of_perm
    (indexed : cache.IsIndexed)
    (works : cache.pruned.refused = false) :
    ∃ store, ∀ entries, entries.Perm cache.entries →
      ∃ kept, kept.Perm (cache.evicted none).cache.entries ∧
        (cache.withEntries entries).prune =
          { cache.withEntries kept with
            store
            registry := cache.registry.releaseAll (addresses (cache.victims none)) } := by
  unfold pruned at works
  split at works
  next spared =>
    refine ⟨cache.store, fun entries reordered => ⟨entries, ?_, ?_⟩⟩
    · simpa [evicted, List.isEmpty_iff.mp spared] using reordered
    · rw [prune, pruned, victims_of_perm indexed reordered, if_pos spared, List.isEmpty_iff.mp spared]
      rfl
  next some =>
    have working : (cache.evicted none).cache.persisted.refused = false := by
      dsimp only [CacheChange.andThen] at works
      exact (Bool.or_eq_false_iff.mp works).2
    obtain ⟨store, persists⟩ := persisted_of_works working
    refine ⟨store, fun entries reordered => ?_⟩
    obtain ⟨kept, sameKept, evicted⟩ := evicted_of_perm indexed reordered none
    have indexedLeft : (cache.evicted none).cache.IsIndexed := indexed.sublist List.filter_sublist
    have persisted : (cache.withEntries kept).persisted = { cache := { cache.withEntries kept with store } } :=
      persists kept (document_of_perm indexedLeft sameKept)
    refine ⟨kept, sameKept, ?_⟩
    rw [prune, pruned, victims_of_perm indexed reordered, if_neg some]
    dsimp only [CacheChange.andThen]
    rw [evicted]
    dsimp only
    rw [persisted]
    simp only [CacheChange.carryOut, List.append_nil]
    rfl

/-- An operation on the cache makes an eviction from the entries and releases some handles and those of what is
evicted.  On the same entries in any other order it does the same. -/
structure Evicts
    (cache : Cache)
    (operate : Cache → Cache)
    (protectedKey : Option Text)
    (entries : List CacheEntry)
    (others : List Text)
    (gone : List CacheEntry) :
    Prop where
  eviction :
    IsEviction cache.capacity protectedKey entries gone (operate cache).entries
  released :
    (operate cache).registry = cache.registry.releaseAll (others ++ addresses gone)
  reordered :
    ∀ order, order.Perm cache.entries →
      ∃ kept, kept.Perm (operate cache).entries ∧
        operate (cache.withEntries order) = (operate cache).withEntries kept

/-- An artifact that is put over a working store makes an eviction that spares it. -/
theorem evicts_put
    {now : Instant}
    {key : Text}
    {artifact : Artifact}
    (indexed : cache.IsIndexed)
    (on : cache.enabled = true)
    (scored : ∀ entry ∈ (cache.replaced now key artifact).cache.entries, entry.IsScored)
    (works : (cache.taken now key artifact).1.refused = false) :
    ∃ gone, cache.Evicts (fun cache => (cache.put now key artifact).1) (some key)
      (cache.replaced now key artifact).cache.entries (cache.replaced now key artifact).released gone := by
  have eviction := isEviction_evicted (indexed.insert rfl : (cache.replaced now key artifact).cache.IsIndexed)
    scored (some key)
  obtain ⟨store, outcomes⟩ := put_of_perm indexed on works
  obtain ⟨kept, same, outcome⟩ := outcomes cache.entries (List.Perm.refl _)
  have result : (cache.put now key artifact).1 = _ := congrArg Prod.fst outcome
  refine ⟨(cache.replaced now key artifact).cache.victims (some key), ?_, ?_, fun order reordered => ?_⟩
  · rw [result]
    exact eviction.reordered same
  · rw [result]
  · obtain ⟨left, sameLeft, other⟩ := outcomes order reordered
    refine ⟨left, ?_, ?_⟩
    · rw [result]
      exact sameLeft.trans same.symm
    · rw [result, other]
      rfl

/-- Pruning over a working store makes an eviction. -/
theorem evicts_prune
    (indexed : cache.IsIndexed)
    (scored : ∀ entry ∈ cache.entries, entry.IsScored)
    (works : cache.pruned.refused = false) :
    ∃ gone, cache.Evicts prune none cache.entries [] gone := by
  have eviction := isEviction_evicted indexed scored none
  obtain ⟨store, outcomes⟩ := prune_of_perm indexed works
  obtain ⟨kept, same, outcome⟩ := outcomes cache.entries (List.Perm.refl _)
  have result : cache.prune = _ := outcome
  refine ⟨cache.victims none, ?_, ?_, fun order reordered => ?_⟩
  · rw [result]
    exact eviction.reordered same
  · rw [result]
    rfl
  · obtain ⟨left, sameLeft, other⟩ := outcomes order reordered
    refine ⟨left, ?_, ?_⟩
    · rw [result]
      exact sameLeft.trans same.symm
    · rw [result, other]
      rfl

end Cache

namespace Traffic

/-- In every run the entries of the cache keep keys and places of their own. -/
theorem isIndexed_run
    {initial state : Traffic}
    {events : List Event}
    (start : initial.session.cache.IsIndexed)
    (run : Run initial events state) :
    state.session.cache.IsIndexed := by
  induction run with
  | nil =>
      exact start
  | snoc _ step inductionHypothesis =>
      have indexed := inductionHypothesis
      cases step with
      | call | leave | pass | tick =>
          exact indexed
      | work before after stage rest session events place stepped =>
          exact indexed.use (Session.use_step stepped)
      | storeChanges | loaderChanges =>
          exact { indexed with }
      | reorder order same =>
          exact indexed.reorder same

/-- Eviction is exact.  In every state of a session the entries have keys and places of their own, and all places
were given before.  In any such cache, however full, a put over a working store evicts from the entries that it
leads to, and pruning from those that there are: nothing up to the capacity, and otherwise exactly the larger of
a quarter of them and what is too much, of those that are not protected those of the least worth and place.  The
handles of the evicted entries are released once each, at most as many entries as the capacity stay, and the order
in which the entries are enumerated makes no difference. -/
theorem evictions_exact
    {config : Config}
    {fetcher : Option Fetcher}
    {loader : Loader}
    {store : Option Store}
    {moment : Moment}
    {session : Session}
    {events : List Event}
    {state : Traffic}
    (opened : Session.ofConfig config fetcher loader store moment = .ok session)
    (run : Run { session } events state) :
    state.session.cache.IsIndexed ∧
      ∀ cache : Cache, cache.IsIndexed →
        (∀ now key artifact,
          cache.enabled = true →
          (∀ entry ∈ (cache.replaced now key artifact).cache.entries, entry.IsScored) →
          (cache.taken now key artifact).1.refused = false →
            ∃ gone, cache.Evicts (fun cache => (cache.put now key artifact).1) (some key)
              (cache.replaced now key artifact).cache.entries
              (cache.replaced now key artifact).released gone) ∧
        ((∀ entry ∈ cache.entries, entry.IsScored) →
          cache.pruned.refused = false →
            ∃ gone, cache.Evicts Cache.prune none cache.entries [] gone) := by
  have start : session.cache.IsIndexed := by
    obtain ⟨-, rfl⟩ := Session.ofConfig_eq_ok.mp opened
    exact Cache.isIndexed_ofStore config store { loader }
  exact ⟨isIndexed_run start run, fun cache indexed =>
    ⟨fun now key artifact on scored works => Cache.evicts_put indexed on scored works,
      fun scored works => Cache.evicts_prune indexed scored works⟩⟩

/-- Of five entries that are as recent, one more than fit, a put takes away the first one without a hit. -/
theorem evictions_exact_of_ties :
    ∃ session cache now key artifact gone,
      Session.ofConfig {} none {} (some .empty) ⟨0, ⟨0, 0⟩⟩ = .ok session ∧
        session.cache.IsIndexed ∧
        Cache.Evicts cache (fun cache => (cache.put now key artifact).1) (some key)
          (cache.replaced now key artifact).cache.entries (cache.replaced now key artifact).released gone ∧
        cache.entries.map CacheEntry.key = ["a".toList, "b".toList, "c".toList, "d".toList] ∧
        gone.map CacheEntry.key = ["b".toList] := by
  let artifact : Artifact :=
    ⟨"export default 1;".toList, [], [], ⟨0, 0⟩, [], none, 17, [], none, none⟩
  let entry (key : Text) (hits seq : Nat) : CacheEntry :=
    ⟨key, artifact, ⟨0, 0⟩, ⟨0, 0⟩, hits, 17, seq⟩
  let entries := [entry ['a'] 1 0, entry ['b'] 0 1, entry ['c'] 0 2, entry ['d'] 0 3]
  let cache : Cache := ⟨4, [], "cache".toList, {}, some .empty, entries, true, 4⟩
  obtain ⟨session, opened⟩ :
      ∃ session : Session, Session.ofConfig {} none {} (some .empty) ⟨0, ⟨0, 0⟩⟩ = .ok session :=
    ⟨_, Session.ofConfig_eq_ok.mpr ⟨by decide +kernel, rfl⟩⟩
  have indexed : cache.IsIndexed := ⟨by decide, by decide +kernel, by decide +kernel, by decide +kernel⟩
  have scored : ∀ entry ∈ (cache.replaced ⟨0, 0⟩ ['e'] artifact).cache.entries, entry.IsScored := by
    have bounds : ∀ entry ∈ (cache.replaced ⟨0, 0⟩ ['e'] artifact).cache.entries,
        -2 ^ 63 ≤ entry.worth ∧ entry.worth < 2 ^ 63 := by
      decide +kernel
    exact bounds
  obtain ⟨reached, exact⟩ := evictions_exact opened (.nil _)
  obtain ⟨gone, evicts⟩ := (exact cache indexed).1 ⟨0, 0⟩ ['e'] artifact rfl scored (by decide +kernel)
  have only : Cache.IsEviction 4 (some ['e']) (cache.replaced ⟨0, 0⟩ ['e'] artifact).cache.entries
      [entry ['b'] 0 1] [entry ['a'] 1 0, entry ['c'] 0 2, entry ['d'] 0 3, entry ['e'] 0 4] := by
    refine ⟨by decide +kernel, by decide +kernel, by decide +kernel, ?_, by decide +kernel, by decide⟩
    simp only [CacheEntry.GoesFirst]
    decide +kernel
  have same := (only.perm evicts.eviction (.refl _) (indexed.insert rfl).distinct.of_map).1
  rw [List.perm_singleton.mp same] at evicts
  exact ⟨session, cache, _, _, _, _, opened, reached, evicts, by decide +kernel, rfl⟩

end Traffic

end LiveComponent
