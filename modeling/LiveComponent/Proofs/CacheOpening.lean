import LiveComponent.Proofs.CacheChange
import LiveComponent.Proofs.Registry

namespace LiveComponent

/-!
# The cache at the start of a session

Over any store a new cache is in order, holds no handle that ends with a session, and leaves the empty
registry as it is.
-/

/-- A registry without references has none to drop. -/
theorem Registry.releaseAll_of_refs_nil
    {registry : Registry}
    (empty : registry.refs = [])
    (urls : List Text) :
    registry.releaseAll urls = registry := by
  induction urls with
  | nil =>
      rfl
  | cons url rest inductionHypothesis =>
      have same : registry.release url = registry := by
        simp [Registry.release, empty]
      simpa [Registry.releaseAll, same] using inductionHypothesis

namespace Cache

/-- A cache as it is when a session starts. -/
structure Opened (registry : Registry) (cache : Cache) : Prop where
  sound : cache.Sound
  registry : cache.registry = registry
  durable : ∀ entry ∈ cache.entries, isDurable entry = true

/-- A durable entry holds no handle that ends with the session. -/
theorem not_mem_addresses_of_durable
    {entries : List CacheEntry}
    (durable : ∀ entry ∈ entries, isDurable entry = true)
    {url : Text}
    (ephemeral : Handle.isEphemeral url = true) :
    url ∉ addresses entries := by
  intro member
  obtain ⟨entry, entryMember, holds⟩ := List.mem_filterMap.mp member
  have lasting := durable entry entryMember
  simp [isDurable, holds, ephemeral] at lasting

namespace Opened

variable
  {registry : Registry}
  {cache : Cache}

/-- Carrying out a change with nothing new leaves a new cache a new cache. -/
theorem carryOut
    (opened : Opened registry cache)
    (empty : registry.refs = [])
    {change : CacheChange}
    (sound : CacheChange.Sound cache [] change) :
    Opened registry change.carryOut where
  sound := sound.cache.withRegistry _
  registry := by
    have same : change.cache.registry = registry := sound.registry.trans opened.registry
    simp [CacheChange.carryOut, same, Registry.releaseAll_of_refs_nil empty]
  durable entry member := by
    have origin := sound.origin entry member
    rw [List.append_nil] at origin
    obtain ⟨old, oldMember, same⟩ := List.mem_map.mp origin
    have sameArtifact : old.artifact = entry.artifact := congrArg Prod.snd same
    have lasting := opened.durable old oldMember
    simpa [isDurable, sameArtifact] using lasting

/-- Restoring a durable entry leaves a new cache a new cache that is still on. -/
theorem restoreEntry
    (opened : Opened registry cache)
    (on : cache.enabled = true)
    {entry : CacheEntry}
    (durable : isDurable entry = true) :
    Opened registry (cache.restoreEntry entry) where
  sound :=
    { distinct := distinct_insert opened.sound.distinct _
      off := fun off => by
        simp [Cache.restoreEntry, insert, on] at off }
  registry := opened.registry
  durable other member := by
    simp only [Cache.restoreEntry, insert, List.mem_append, List.mem_singleton] at member
    rcases member with old | rfl
    · exact opened.durable other (List.mem_of_mem_filter old)
    · exact durable

/-- Restoring durable entries leaves a new cache a new cache. -/
theorem foldl_restoreEntry
    (opened : Opened registry cache)
    (on : cache.enabled = true)
    {entries : List CacheEntry}
    (durable : ∀ entry ∈ entries, isDurable entry = true) :
    Opened registry (entries.foldl Cache.restoreEntry cache) := by
  induction entries generalizing cache with
  | nil =>
      exact opened
  | cons entry rest inductionHypothesis =>
      have next := opened.restoreEntry on (durable entry List.mem_cons_self)
      exact inductionHypothesis next on fun other member =>
        durable other (List.mem_cons_of_mem entry member)

end Opened

/-- A cache without entries is a new one. -/
theorem opened_empty
    (config : Config)
    (store : Option Store)
    (registry : Registry) :
    Opened registry (empty config store registry) where
  sound := ⟨List.nodup_nil, fun _ => rfl⟩
  registry := rfl
  durable _ member := by cases member

/-- Whatever the store holds and refuses, the cache over it is a new one. -/
theorem opened_ofStore
    (config : Config)
    (store : Option Store)
    {registry : Registry}
    (empty : registry.refs = []) :
    Opened registry (ofStore config store registry) := by
  have opened := opened_empty config store registry
  unfold ofStore
  split
  · exact opened
  next store =>
    dsimp only
    split
    · exact opened.carryOut empty (sound_disabled _)
    · exact opened
    · split
      · exact opened.carryOut empty (sound_forgotten opened.sound)
      next document _ =>
        split
        · have durable : ∀ entry ∈ document.entries.filter isDurable, isDurable entry = true :=
            fun entry member => (List.mem_filter.mp member).2
          have restored := opened.foldl_restoreEntry rfl durable
          unfold restore
          dsimp only
          split
          · exact restored.carryOut empty (sound_persisted restored.sound)
          · exact restored
        · exact opened.carryOut empty (sound_forgotten opened.sound)

/-- A store without a document leaves the cache over it without entries, even if it refuses calls. -/
theorem entries_ofStore
    {config : Config}
    {store : Option Store}
    (noDocument :
      ∀ given ∈ store, ∀ document, given.get config.persistenceKey ≠ .ok (some document))
    (registry : Registry) :
    (ofStore config store registry).entries = [] := by
  unfold ofStore
  split
  · rfl
  next given =>
    dsimp only
    split
    · rfl
    · rfl
    next document found =>
      exact absurd found (noDocument given rfl document)

/-- A store that refuses to be read switches the cache over it off. -/
theorem enabled_ofStore
    {config : Config}
    {store : Store}
    {failure : StoreFailure}
    (refused : store.get config.persistenceKey = .error failure)
    (registry : Registry) :
    (ofStore config (some store) registry).enabled = false := by
  have reading : store.get (empty config (some store) registry).persistenceKey =
      .error failure := refused
  simp only [ofStore, reading]
  rfl

end Cache

end LiveComponent
