import LiveComponent.Proofs.CacheSettings
import LiveComponent.Proofs.Eviction
import LiveComponent.Proofs.Validation

namespace LiveComponent

/-!
# How many entries a cache has

Whatever uses a cache leaves at most as many entries as fit or as there were before, and whatever can add an entry
makes room for it.  Only a new cache takes over all lasting entries of a stored document, however many there are.  So
the capacity is a ceiling for a session exactly if it is one for the document that the session starts with.
-/

/-! ## Stored documents -/

/-- The keys of the entries of a document that outlive their session, each of them once. -/
def CacheDocument.durableKeys (document : CacheDocument) : List Text :=
  ((document.entries.filter Cache.isDurable).map CacheEntry.key).dedup

namespace Store

/-- The store has a readable document of the compiler of a configuration. -/
def Offers (store : Store) (config : Config) (document : CacheDocument) : Prop :=
  ∃ text,
    store.get config.persistenceKey = .ok (some text) ∧
      CacheDocument.ofText? text = some document ∧
      document.version = config.compilerTag

/-- A store has at most one document. -/
theorem Offers.unique
    {store : Store}
    {config : Config}
    {document other : CacheDocument}
    (offers : store.Offers config document)
    (otherOffers : store.Offers config other) :
    document = other := by
  obtain ⟨text, found, read, -⟩ := offers
  obtain ⟨otherText, otherFound, otherRead, -⟩ := otherOffers
  obtain rfl : text = otherText := Option.some.inj (Except.ok.inj (found.symm.trans otherFound))
  exact Option.some.inj (read.symm.trans otherRead)

/-- The document that the store has makes more entries than fit. -/
def Overfills (store : Store) (config : Config) : Prop :=
  ∃ document, store.Offers config document ∧ config.cacheCapacity < document.durableKeys.length

end Store

namespace Cache

variable
  {config : Config}
  {cache : Cache}

/-! ## Restoring -/

/-- The keys of a cache after entries were restored are those before and those of the entries. -/
theorem mem_keys_foldl_restoreEntry
    (cache : Cache)
    (entries : List CacheEntry)
    (key : Text) :
    key ∈ (entries.foldl restoreEntry cache).entries.map CacheEntry.key ↔
      key ∈ cache.entries.map CacheEntry.key ∨ key ∈ entries.map CacheEntry.key := by
  induction entries generalizing cache with
  | nil =>
      simp
  | cons entry rest inductionHypothesis =>
      rw [List.foldl_cons, inductionHypothesis]
      by_cases same : entry.key = key
      · simp [restoreEntry, insert, same]
      · have other : key ≠ entry.key := Ne.symm same
        simp only [restoreEntry, insert, List.map_append, List.map_cons, List.map_nil, List.mem_append, List.mem_cons,
          List.not_mem_nil, or_false, other, false_or, List.mem_map, List.mem_filter, decide_eq_true_eq]
        constructor
        · rintro (⟨old, ⟨member, -⟩, rfl⟩ | later)
          · exact .inl ⟨old, member, rfl⟩
          · exact .inr later
        · rintro (⟨old, member, rfl⟩ | later)
          · exact .inl ⟨old, ⟨member, other⟩, rfl⟩
          · exact .inr later

/-- Of the lasting entries of a document as many are restored as they have keys. -/
theorem length_restored
    (config : Config)
    (store : Option Store)
    (registry : Registry)
    (document : CacheDocument) :
    ((document.entries.filter isDurable).foldl restoreEntry (empty config store registry)).entries.length =
      document.durableKeys.length := by
  have ordered := (isOrdered_empty config store registry).foldl_restoreEntry (document.entries.filter isDurable)
  rw [← List.length_map (f := CacheEntry.key)]
  refine List.Perm.length_eq ((List.perm_ext_iff_of_nodup ordered.distinct (List.nodup_dedup _)).mpr fun key => ?_)
  rw [mem_keys_foldl_restoreEntry, List.mem_dedup]
  simp [empty]

/-- Restoring entries neither switches a cache nor uses its store. -/
theorem store_foldl_restoreEntry
    (cache : Cache)
    (entries : List CacheEntry) :
    (entries.foldl restoreEntry cache).enabled = cache.enabled ∧
      (entries.foldl restoreEntry cache).store = cache.store := by
  induction entries generalizing cache with
  | nil =>
      exact ⟨rfl, rfl⟩
  | cons entry rest inductionHypothesis =>
      exact inductionHypothesis (cache.restoreEntry entry)

/-- A document whose entries all last and have keys of their own leaves a new cache on and its store as it is. -/
theorem ofStore_of_all
    {store : Store}
    {document : CacheDocument}
    (offers : store.Offers config document)
    (all : document.entries.length ≤ document.durableKeys.length)
    (registry : Registry) :
    (ofStore config (some store) registry).enabled = true ∧
      (ofStore config (some store) registry).store = some store := by
  obtain ⟨text, found, read, version⟩ := offers
  rw [ofStore_eq_restore found read version]
  unfold restore
  dsimp only
  rw [length_restored, if_neg (Nat.not_lt_of_le all)]
  exact store_foldl_restoreEntry (empty config (some store) registry) _

/-- A new cache that is on has one entry for each lasting key of the document in its store. -/
theorem length_ofStore
    {store : Store}
    {document : CacheDocument}
    (offers : store.Offers config document)
    (registry : Registry)
    (on : (ofStore config (some store) registry).enabled = true) :
    (ofStore config (some store) registry).entries.length = document.durableKeys.length := by
  obtain ⟨text, found, read, version⟩ := offers
  rw [ofStore_eq_restore found read version] at on ⊢
  unfold restore at on ⊢
  dsimp only at on ⊢
  split at on
  next dropped =>
    rw [if_pos dropped]
    exact (congrArg List.length (entries_persisted on)).trans (length_restored ..)
  next kept =>
    rw [if_neg kept]
    exact length_restored ..

/-- An empty cache whose document is removed stays empty. -/
theorem entries_forgotten
    (empty : cache.entries = []) :
    cache.forgotten.cache.entries = [] := by
  unfold forgotten
  split
  · unfold settled
    split
    · exact empty
    · rfl
  · exact empty

/-- Without a document of its compiler a new cache is empty. -/
theorem entries_ofStore_of_not_offers
    {store : Store}
    (none : ∀ document, ¬store.Offers config document)
    (registry : Registry) :
    (ofStore config (some store) registry).entries = [] := by
  have forgotten : (empty config (some store) registry).forgotten.carryOut.entries = [] := entries_forgotten rfl
  unfold ofStore
  dsimp only
  split
  · rfl
  · rfl
  next text found =>
    split
    · exact forgotten
    next document read =>
      split
      next version => exact absurd ⟨text, found, read, version⟩ (none document)
      · exact forgotten

/-- What is said of the number of entries of a new cache holds exactly if it does for the lasting keys of the document
in the store, unless the store has switched the cache off. -/
theorem length_ofStore_iff
    (holds : Nat → Prop)
    (none : holds 0)
    (store : Store)
    (registry : Registry) :
    holds (ofStore config (some store) registry).entries.length ↔
      (ofStore config (some store) registry).enabled = false ∨
        ∀ document, store.Offers config document → holds document.durableKeys.length := by
  cases on : (ofStore config (some store) registry).enabled with
  | false =>
      rw [(isOf_ofStore config (some store) registry).off on]
      exact iff_of_true none (.inl rfl)
  | true =>
      by_cases offered : ∃ document, store.Offers config document
      · obtain ⟨document, offers⟩ := offered
        rw [length_ofStore offers registry on]
        constructor
        · exact fun here => .inr fun other otherOffers => offers.unique otherOffers ▸ here
        · rintro (off | all)
          · cases off
          · exact all document offers
      · have nothing := not_exists.mp offered
        rw [entries_ofStore_of_not_offers nothing registry]
        exact iff_of_true none (.inr fun document offers => absurd offers (nothing document))

/-- A new cache has no more entries than fit exactly if its store does not overfill it, or has switched it off. -/
theorem length_ofStore_le_iff
    (store : Store)
    (registry : Registry) :
    (ofStore config (some store) registry).entries.length ≤ config.cacheCapacity ↔
      (ofStore config (some store) registry).enabled = false ∨ ¬store.Overfills config := by
  refine (length_ofStore_iff (· ≤ config.cacheCapacity) (Nat.zero_le _) store registry).trans ?_
  simp [Store.Overfills]

/-! ## Using a cache -/

/-- Writing adds no entry. -/
theorem length_persisted_le
    (cache : Cache) :
    cache.persisted.cache.entries.length ≤ cache.entries.length := by
  unfold persisted
  split
  · unfold settled
    split
    · exact Nat.le_refl _
    · exact Nat.zero_le _
  · exact Nat.le_refl _

theorem length_countHit
    (cache : Cache)
    (key : Text)
    (now : Instant) :
    (cache.countHit key now).entries.length = cache.entries.length :=
  List.length_map _

/-- Where an artifact is taken over there is room for it. -/
theorem length_taken_le
    (indexed : cache.IsIndexed)
    (empty : cache.enabled = false → cache.entries = [])
    (now : Instant)
    (key : Text)
    (artifact : Artifact) :
    (cache.taken now key artifact).1.cache.entries.length ≤ cache.capacity := by
  cases on : cache.enabled with
  | false =>
      simp [taken, on, empty on]
  | true =>
      have held : (cache.replaced now key artifact).cache.IsIndexed := indexed.insert rfl
      rw [taken_of_enabled on]
      exact (length_persisted_le _).trans (length_evicted_le held (some key))

/-- Pruning leaves no more entries than fit. -/
theorem length_pruned_le
    (indexed : cache.IsIndexed) :
    cache.pruned.cache.entries.length ≤ cache.capacity := by
  have evicted := length_evicted_le indexed none
  unfold pruned
  split
  next spared =>
    have same : (cache.evicted none).cache.entries = cache.entries := by
      simp [Cache.evicted, List.isEmpty_iff.mp spared]
    rwa [same] at evicted
  next =>
    exact (length_persisted_le _).trans evicted

/-- A cleared cache is empty. -/
theorem entries_cleared
    (cache : Cache) :
    cache.cleared.cache.entries = [] := by
  simp only [cleared, CacheChange.andThen]
  split
  · exact entries_forgotten rfl
  · rfl

/-- Whatever a step of a call does to the cache, it has at most as many entries as fit or as it had. -/
theorem Use.length_le
    {next : Cache}
    (used : cache.Use next)
    (indexed : cache.IsIndexed)
    (empty : cache.enabled = false → cache.entries = []) :
    next.entries.length ≤ max cache.capacity cache.entries.length := by
  cases used with
  | handles registry =>
      exact Nat.le_max_right _ _
  | lookUp now key =>
      refine Nat.le_trans ?_ (Nat.le_max_right _ _)
      unfold lookedUp
      split
      · exact Nat.le_refl _
      · split
        · exact Nat.le_refl _
        · split
          · exact (length_persisted_le _).trans (List.length_filter_le _ _)
          · exact (length_persisted_le _).trans (length_countHit cache key now).le
  | take now key artifact =>
      exact (length_taken_le indexed empty now key artifact).trans (Nat.le_max_left _ _)
  | prune =>
      exact (length_pruned_le indexed).trans (Nat.le_max_left _ _)
  | clear =>
      rw [entries_cleared]
      exact Nat.zero_le _

end Cache

/-! ## Sessions -/

namespace Traffic

/-- The cache of a configuration with entries of their own keys and places. -/
structure IsKept (config : Config) (stored : Bool) (state : Traffic) : Prop where
  isOf :
    state.session.cache.IsOf config stored
  indexed :
    state.session.cache.IsIndexed

variable
  {config : Config}
  {stored : Bool}
  {state next final : Traffic}
  {events : List Event}

/-- The cache of a new session has the settings of its configuration. -/
theorem isKept_ofConfig
    {fetcher : Option Fetcher}
    {loader : Loader}
    {store : Option Store}
    {moment : Moment}
    {session : Session}
    (opened : Session.ofConfig config fetcher loader store moment = .ok session) :
    IsKept config store.isSome { session } := by
  obtain ⟨-, rfl⟩ := Session.ofConfig_eq_ok.mp opened
  exact ⟨Cache.isOf_ofStore config store { loader }, Cache.isIndexed_ofStore config store { loader }⟩

theorem IsKept.run
    (kept : IsKept config stored state)
    (run : Run state events final) :
    IsKept config stored final :=
  ⟨isOf_run kept.isOf run, isIndexed_run kept.indexed run⟩

/-- Whatever happens, the cache has at most as many entries as fit or as it had. -/
theorem IsKept.length_step_le
    (kept : IsKept config stored state)
    (step : Step state events next) :
    next.session.cache.entries.length ≤
      max state.session.cache.capacity state.session.cache.entries.length := by
  cases step with
  | work before after stage rest session events place stepped =>
      exact (Session.use_step stepped).length_le kept.indexed kept.isOf.off
  | reorder order same =>
      exact same.length_eq.le.trans (Nat.le_max_right _ _)
  | _ =>
      exact Nat.le_max_right _ _

/-- In every run the cache has at most as many entries as fit or as it had. -/
theorem IsKept.length_run_le
    (kept : IsKept config stored state)
    (run : Run state events final) :
    final.session.cache.entries.length ≤
      max (max config.cacheCapacity 1) state.session.cache.entries.length := by
  induction run with
  | nil =>
      exact Nat.le_max_right _ _
  | snoc run step inductionHypothesis =>
      have middle := kept.run run
      have last := middle.length_step_le step
      rw [middle.isOf.capacity] at last
      omega

/-- The capacity is a ceiling in every state of a session exactly if the session starts without a cache or its store
has no document with more lasting keys than fit.  In any case the cache never has more entries than fit or than it
started with, a put or pruning leaves at most as many as fit, and from then on there are never more. -/
theorem ceiling_kept_iff
    {fetcher : Option Fetcher}
    {loader : Loader}
    {store : Option Store}
    {moment : Moment}
    {session : Session}
    (opened : Session.ofConfig config fetcher loader store moment = .ok session) :
    ((∀ events state, Run { session } events state →
        state.session.cache.entries.length ≤ config.cacheCapacity) ↔
      session.cache.enabled = false ∨ ∀ given ∈ store, ¬given.Overfills config) ∧
    ∀ events state, Run { session } events state →
      state.session.cache.entries.length ≤ max config.cacheCapacity session.cache.entries.length ∧
        (∀ now key artifact,
          (state.session.cache.put now key artifact).1.entries.length ≤ config.cacheCapacity) ∧
        state.session.cache.prune.entries.length ≤ config.cacheCapacity ∧
        (state.session.cache.entries.length ≤ config.cacheCapacity →
          ∀ later final, Run state later final →
            final.session.cache.entries.length ≤ config.cacheCapacity) := by
  have start := isKept_ofConfig opened
  obtain ⟨valid, isOpen⟩ := Session.ofConfig_eq_ok.mp opened
  have roomy : max config.cacheCapacity 1 = config.cacheCapacity := by
    have positive : config.cacheCapacity ≠ 0 := by
      intro none
      simp [Config.validate, none] at valid
    omega
  have bounded {state final : Traffic} {events : List Event} (kept : IsKept config store.isSome state)
      (run : Run state events final) :
      final.session.cache.entries.length ≤ max config.cacheCapacity state.session.cache.entries.length := by
    have bound := kept.length_run_le run
    rwa [roomy] at bound
  have first : session.cache.entries.length ≤ config.cacheCapacity ↔
      session.cache.enabled = false ∨ ∀ given ∈ store, ¬given.Overfills config := by
    subst isOpen
    cases store with
    | none =>
        exact ⟨fun _ => .inl rfl, fun _ => Nat.zero_le _⟩
    | some given =>
        simp only [Option.mem_def, Option.some.injEq, forall_eq']
        exact Cache.length_ofStore_le_iff given { loader }
  refine ⟨?_, fun events state run => ?_⟩
  · rw [← first]
    refine ⟨fun all => all [] _ (.nil _), fun fits events state run => ?_⟩
    exact (bounded start run).trans (max_le (Nat.le_refl _) fits)
  · have kept := start.run run
    have capacity : state.session.cache.capacity = config.cacheCapacity := kept.isOf.capacity.trans roomy
    refine ⟨bounded start run, fun now key artifact => ?_, ?_, fun fits later final rest => ?_⟩
    · exact capacity ▸ Cache.length_taken_le kept.indexed kept.isOf.off now key artifact
    · exact capacity ▸ Cache.length_pruned_le kept.indexed
    · exact (bounded kept rest).trans (max_le (Nat.le_refl _) fits)

/-- A document of two lasting entries, written where two fitted, overfills a cache of one, until this is pruned. -/
theorem ceiling_broken_by_document :
    ∃ config document session,
      Session.ofConfig config none {} (some ⟨.memory [(config.persistenceKey, CacheDocument.toText document)], []⟩)
          ⟨0, ⟨0, 0⟩⟩ = .ok session ∧
        config.cacheCapacity = 1 ∧
        document.entries.map CacheEntry.key = ["a".toList, "b".toList] ∧
        ¬(∀ events state, Run { session } events state →
          state.session.cache.entries.length ≤ config.cacheCapacity) ∧
        session.cache.prune.entries.length ≤ 1 := by
  let config : Config := { cacheCapacity := 1 }
  obtain ⟨document, version, keys, all, many, storable⟩ : ∃ document : CacheDocument,
      document.version = config.compilerTag ∧
        document.entries.map CacheEntry.key = ["a".toList, "b".toList] ∧
        document.entries.length ≤ document.durableKeys.length ∧ 1 < document.durableKeys.length ∧
        ∀ entry ∈ document.entries, entry.IsStorable := by
    let artifact : Artifact := ⟨"export default 1;".toList, [], [], ⟨0, 0⟩, [], none, 17, [], none, none⟩
    let entry (key : Text) (seq : Nat) : CacheEntry := ⟨key, artifact, ⟨0, 0⟩, ⟨0, 0⟩, 0, 17, seq⟩
    have known : Instant.IsKnown ⟨0, 0⟩ := ⟨by decide +kernel, .inl (by decide)⟩
    have size : 17 < UInt64.size := by decide
    have none : 0 < UInt64.size := by decide
    refine ⟨⟨_, [entry ['a'] 0, entry ['b'] 1]⟩, rfl, rfl, by decide +kernel, by decide +kernel, fun other member => ?_⟩
    rcases List.mem_cons.mp member with rfl | member
    · exact ⟨⟨known, size⟩, known, known, none, size, none⟩
    · rw [List.mem_singleton.mp member]
      exact ⟨⟨known, size⟩, known, known, none, size, by decide⟩
  have offers : Store.Offers ⟨.memory [(config.persistenceKey, document.toText)], []⟩ config document :=
    ⟨_, by simp [Store.get, Shelf.get, Table.get?], CacheDocument.ofText?_toText storable, version⟩
  obtain ⟨session, opened, on⟩ : ∃ session : Session,
      Session.ofConfig config none {} (some ⟨.memory [(config.persistenceKey, document.toText)], []⟩)
          ⟨0, ⟨0, 0⟩⟩ = .ok session ∧
        session.cache.enabled = true :=
    ⟨_, Session.ofConfig_eq_ok.mpr ⟨by decide +kernel, rfl⟩, (Cache.ofStore_of_all offers all {}).1⟩
  obtain ⟨always, each⟩ := ceiling_kept_iff opened
  refine ⟨config, document, session, opened, rfl, keys, fun bounded => ?_, (each [] _ (.nil _)).2.2.1⟩
  rcases always.mp bounded with off | fits
  · rw [on] at off
    cases off
  · exact fits _ rfl ⟨document, offers, many⟩

end Traffic

end LiveComponent
