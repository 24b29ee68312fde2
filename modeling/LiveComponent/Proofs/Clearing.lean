import LiveComponent.Proofs.Capacity

namespace LiveComponent

/-!
# What clearing leaves

A cleared cache is empty and holds no handle.  While it is on, its document is removed as well, so a new cache over the
store is empty too.  A cache that is off leaves its store alone: whatever the store still remembers when it refuses a
call comes back with the next session.
-/

/-- Releasing handles takes as many references away from each as it occurs, if there are so many. -/
theorem Registry.refCount_releaseAll
    {registry : Registry}
    (sound : Sound registry)
    (urls : List Text)
    (other : Text) :
    (registry.releaseAll urls).refCount other = registry.refCount other - urls.count other := by
  induction urls generalizing registry with
  | nil =>
      rfl
  | cons url urls inductionHypothesis =>
      have one := refCount_release sound url other
      have rest := inductionHypothesis (sound.release url)
      have parts : (url :: urls).count other = [url].count other + urls.count other := by
        rw [← List.count_append, List.singleton_append]
      change ((registry.release url).releaseAll urls).refCount other = _
      rw [rest, one, parts, Nat.sub_sub]

/-- The store has a document with an entry that a new cache takes over. -/
def Store.Remembers (store : Store) (config : Config) : Prop :=
  ∃ document, store.Offers config document ∧ document.durableKeys ≠ []

namespace Cache

variable
  {config : Config}
  {cache : Cache}

/-- A new cache is empty exactly if its store has nothing to be taken over, or has switched it off. -/
theorem entries_ofStore_eq_nil_iff
    (store : Store)
    (registry : Registry) :
    (ofStore config (some store) registry).entries = [] ↔
      (ofStore config (some store) registry).enabled = false ∨ ¬store.Remembers config := by
  refine List.length_eq_zero_iff.symm.trans ((length_ofStore_iff (· = 0) rfl store registry).trans ?_)
  simp [Store.Remembers]

/-! ## Clearing -/

/-- A cache that is off gives back its handles and leaves the store alone. -/
theorem clear_of_off
    (off : cache.enabled = false) :
    cache.clear =
      { cache with
        entries := []
        registry := cache.registry.releaseAll (addresses cache.entries) } := by
  simp [clear, cleared, drained, CacheChange.andThen, CacheChange.carryOut, off]

/-- A cache that is on gives back its handles and removes its document. -/
theorem clear_of_on
    {store left : Store}
    (on : cache.enabled = true)
    (present : cache.store = some store)
    (removed : store.remove cache.persistenceKey = (left, .ok ())) :
    cache.clear =
      { cache with
        entries := []
        store := some left
        registry := cache.registry.releaseAll (addresses cache.entries) } := by
  simp [clear, cleared, drained, forgotten, settled, CacheChange.andThen, CacheChange.carryOut, on, present, removed]

/-- A store that has just removed the document of a cache leaves nothing to a new one. -/
theorem entries_ofStore_of_removed
    {store left : Store}
    (removed : store.remove config.persistenceKey = (left, .ok ()))
    (broken : List StoreCall)
    (registry : Registry) :
    (ofStore config (some ⟨left.shelf, broken⟩) registry).entries = [] := by
  have nothing := Shelf.remove_eq_ok (Store.remove_eq_ok removed)
  refine entries_ofStore (fun given same document found => ?_) registry
  obtain rfl := Option.some.inj same
  have other := Store.get_eq_ok found
  rw [nothing] at other
  cases other

/-- A put that the store refuses switches a cache off. -/
theorem taken_of_refused
    {store : Store}
    (on : cache.enabled = true)
    (present : cache.store = some store)
    (refuses : store.broken.contains .set = true)
    (now : Instant)
    (key : Text)
    (artifact : Artifact) :
    (cache.taken now key artifact).1.cache.enabled = false ∧
      (cache.taken now key artifact).1.cache.store = some store := by
  have held : ((cache.replaced now key artifact).cache.evicted (some key)).cache.enabled = true := on
  have same : ((cache.replaced now key artifact).cache.evicted (some key)).cache.store = some store := present
  rw [taken_of_enabled on]
  simp only [CacheChange.andThen, persisted, held, same, Store.set, refuses, if_true]
  exact ⟨rfl, rfl⟩

end Cache

/-! ## Sessions -/

namespace Traffic

/-- In every state of a session over a store that removes what it is told to remove, whoever else writes to it, a
cleared cache is empty and has given back exactly the handles that its entries held.  A new cache over the same store
starts empty exactly if the cache was on when it was cleared, or the store remembers no entry that a session takes
over, or it switches the new cache off.  A cache that was off has left the store as it was. -/
theorem clear_lasts_iff
    {config : Config}
    {fetcher : Option Fetcher}
    {loader : Loader}
    {given : Store}
    {moment : Moment}
    {session : Session}
    {events : List Event}
    {state : Traffic}
    (fresh : loader.modules = [])
    (opened : Session.ofConfig config fetcher loader (some given) moment = .ok session)
    (run : Run { session } events state)
    (works : ∀ store ∈ state.session.cache.store, (store.remove config.persistenceKey).2 = .ok ()) :
    let cache := state.session.cache
    ∃ store left, cache.store = some store ∧ cache.clear.store = some left ∧
      cache.clear.entries = [] ∧
      (∀ url, Handle.isEphemeral url = true →
        cache.clear.registry.refCount url + (Cache.addresses cache.entries).count url =
          cache.registry.refCount url) ∧
      (cache.enabled = true → left.shelf.get config.persistenceKey = .ok none) ∧
      (cache.enabled = false → left = store) ∧
      ∀ broken registry,
        let reopened := Cache.ofStore config (some ⟨left.shelf, broken⟩) registry
        reopened.entries = [] ↔
          cache.enabled = true ∨ reopened.enabled = false ∨ ¬Store.Remembers ⟨store.shelf, broken⟩ config := by
  intro cache
  have kept := (isKept_ofConfig opened).run run
  have balanced := balanced_run (balanced_ofConfig fresh opened) run
  obtain ⟨store, present⟩ := Option.isSome_iff_exists.mp kept.isOf.store
  have released (url : Text) (ephemeral : Handle.isEphemeral url = true) :
      (cache.registry.releaseAll (Cache.addresses cache.entries)).refCount url +
          (Cache.addresses cache.entries).count url = cache.registry.refCount url := by
    have counted : cache.registry.refCount url = references state url := balanced.counted url ephemeral
    have held : (Cache.addresses cache.entries).count url ≤ references state url :=
      (Nat.le_add_right _ _).trans (Nat.le_add_right _ _)
    rw [Registry.refCount_releaseAll balanced.registry]
    exact Nat.sub_add_cancel (counted ▸ held)
  cases on : cache.enabled with
  | true =>
      obtain ⟨left, removed⟩ : ∃ left, store.remove config.persistenceKey = (left, .ok ()) :=
        ⟨_, Prod.ext rfl (works store present)⟩
      have cleared := Cache.clear_of_on on present (kept.isOf.key.symm ▸ removed)
      rw [cleared]
      refine ⟨store, left, present, rfl, rfl, released, fun _ => ?_, (fun off => nomatch off), fun broken registry => ?_⟩
      · exact Shelf.remove_eq_ok (Store.remove_eq_ok removed)
      · exact iff_of_true (Cache.entries_ofStore_of_removed removed broken registry) (.inl rfl)
  | false =>
      rw [Cache.clear_of_off on]
      refine ⟨store, store, present, present, rfl, released, (fun on => nomatch on), fun _ => rfl,
        fun broken registry => ?_⟩
      simpa using Cache.entries_ofStore_eq_nil_iff ⟨store.shelf, broken⟩ registry

/-- A lasting entry of the session before comes back after a put that the store refuses and a clear. -/
theorem clear_undone_after_refusal :
    ∃ session events state store left,
      Session.ofConfig {} none {} (some store) ⟨0, ⟨0, 0⟩⟩ = .ok session ∧
        Run { session } events state ∧
        (∀ given ∈ state.session.cache.store, (given.remove ({} : Config).persistenceKey).2 = .ok ()) ∧
        state.session.cache.enabled = false ∧
        state.session.cache.clear.entries = [] ∧
        state.session.cache.clear.store = some left ∧
        (Cache.ofStore {} (some ⟨left.shelf, []⟩) {}).entries ≠ [] := by
  let artifact : Artifact := ⟨"export default 1;".toList, [], [], ⟨0, 0⟩, [], none, 17, [], none, none⟩
  obtain ⟨document, version, all, many, storable⟩ : ∃ document : CacheDocument,
      document.version = ({} : Config).compilerTag ∧
        document.entries.length ≤ document.durableKeys.length ∧ document.durableKeys ≠ [] ∧
        ∀ entry ∈ document.entries, entry.IsStorable := by
    have known : Instant.IsKnown ⟨0, 0⟩ := ⟨by decide +kernel, .inl (by decide)⟩
    have size : 17 < UInt64.size := by decide
    have none : 0 < UInt64.size := by decide
    refine ⟨⟨_, [⟨['a'], artifact, ⟨0, 0⟩, ⟨0, 0⟩, 0, 17, 0⟩]⟩, rfl, by decide +kernel, by decide +kernel,
      fun other member => ?_⟩
    rw [List.mem_singleton.mp member]
    exact ⟨⟨known, size⟩, known, known, none, size, none⟩
  let shelf : Shelf := .memory [(({} : Config).persistenceKey, document.toText)]
  let store : Store := ⟨shelf, [.set]⟩
  have offers (broken : List StoreCall) (answers : .get ∉ broken) :
      Store.Offers ⟨shelf, broken⟩ {} document :=
    ⟨_, by simp [Store.get, shelf, Shelf.get, Table.get?, answers], CacheDocument.ofText?_toText storable, version⟩
  obtain ⟨session, opened, isOpen⟩ : ∃ session : Session,
      Session.ofConfig {} none {} (some store) ⟨0, ⟨0, 0⟩⟩ = .ok session ∧
        session.cache = Cache.ofStore {} (some store) {} :=
    ⟨_, Session.ofConfig_eq_ok.mpr ⟨by decide +kernel, rfl⟩, rfl⟩
  have ready := Cache.ofStore_of_all (offers [.set] (by simp)) all {}
  rw [← isOpen] at ready
  have refused := Cache.taken_of_refused ready.1 ready.2 rfl session.moment.clock ['b'] artifact
  obtain ⟨events, state, run, off, kept⟩ : ∃ events state, Run { session } events state ∧
      state.session.cache.enabled = false ∧ state.session.cache.store = some store :=
    ⟨_, _, (run_first (.put ['b'] artifact) (fun url given => by cases given) rfl (fun same => by cases same)).toRun,
      refused⟩
  have works : ∀ given ∈ state.session.cache.store, (given.remove ({} : Config).persistenceKey).2 = .ok () := by
    intro given present
    obtain rfl : store = given := Option.some.inj (kept.symm.trans present)
    rfl
  obtain ⟨before, left, present, leaves, empty, -, -, untouched, reopens⟩ := clear_lasts_iff rfl opened run works
  obtain rfl : store = before := Option.some.inj (kept.symm.trans present)
  obtain rfl := untouched off
  refine ⟨session, events, state, store, store, opened, run, works, off, empty, leaves, fun none => ?_⟩
  rcases (reopens [] {}).mp none with on | switched | forgets
  · rw [off] at on
    cases on
  · rw [(Cache.ofStore_of_all (offers [] (by simp)) all {}).1] at switched
    cases switched
  · exact forgets ⟨document, offers [] (by simp), many⟩

end Traffic

end LiveComponent
