import LiveComponent.Proofs.WriteThrough

namespace LiveComponent

/-!
# What a cache keeps for a session

A cache has the settings of its configuration for the whole session, and it has a store for the whole session or
never.  Whenever it is off, it is empty.
-/

namespace Cache

/-- A cache with the settings of a configuration, with or without a store, and empty when it is off. -/
structure IsOf (config : Config) (stored : Bool) (cache : Cache) : Prop where
  capacity :
    cache.capacity = max config.cacheCapacity 1
  version :
    cache.version = config.compilerTag
  key :
    cache.persistenceKey = config.persistenceKey
  store :
    cache.store.isSome = stored
  off :
    cache.enabled = false → cache.entries = []

namespace IsOf

variable
  {config : Config}
  {stored : Bool}
  {cache : Cache}

/-- A cache that is on may have any entries. -/
theorem withEntries
    (isOf : cache.IsOf config stored)
    (on : cache.enabled = true)
    (entries : List CacheEntry) :
    IsOf config stored { cache with entries := entries } :=
  { isOf with off := fun off => by simp [on] at off }

theorem drained
    (isOf : cache.IsOf config stored) :
    cache.drained.cache.IsOf config stored :=
  { isOf with off := fun _ => rfl }

/-- After a call of the store the cache is as it was, or off and empty. -/
theorem settled
    (isOf : cache.IsOf config true)
    (outcome : Store × Except StoreFailure Unit) :
    (cache.settled outcome).cache.IsOf config true := by
  unfold Cache.settled
  split
  · exact { isOf with store := rfl }
  · exact { isOf with store := rfl, off := fun _ => rfl }

theorem persisted
    (isOf : cache.IsOf config stored) :
    cache.persisted.cache.IsOf config stored := by
  unfold Cache.persisted
  split
  next store _ present =>
    obtain rfl : true = stored := by simpa [present] using isOf.store
    exact isOf.settled _
  next =>
    exact isOf

theorem forgotten
    (isOf : cache.IsOf config stored) :
    cache.forgotten.cache.IsOf config stored := by
  unfold Cache.forgotten
  split
  next store present =>
    obtain rfl : true = stored := by simpa [present] using isOf.store
    exact isOf.settled _
  next =>
    exact isOf

/-- Whatever a step of a call does to the cache, its settings stay. -/
theorem use
    {next : Cache}
    (isOf : cache.IsOf config stored)
    (used : cache.Use next) :
    next.IsOf config stored := by
  cases used with
  | handles registry =>
      exact { isOf with }
  | lookUp now key =>
      unfold lookedUp
      split
      · exact isOf
      next switched =>
        have on : cache.enabled = true := by simpa using switched
        split
        · exact isOf
        · split
          · exact (isOf.withEntries on _).persisted
          · exact (isOf.withEntries on _).persisted
  | take now key artifact =>
      unfold taken
      split
      · exact isOf
      next switched =>
        have on : cache.enabled = true := by simpa using switched
        have held : (cache.replaced now key artifact).cache.IsOf config stored :=
          { isOf.withEntries on _ with }
        exact (held.withEntries on _).persisted
  | prune =>
      unfold pruned
      split
      · exact isOf
      · have evicted : (cache.evicted none).cache.IsOf config stored :=
          { isOf with off := fun off => by simp [Cache.evicted, isOf.off off] }
        exact evicted.persisted
  | clear =>
      simp only [cleared, CacheChange.andThen]
      split
      · exact isOf.drained.forgotten
      · exact isOf.drained

/-- Restoring entries into a cache that is on changes no settings. -/
theorem foldl_restoreEntry
    (isOf : cache.IsOf config stored)
    (on : cache.enabled = true)
    (entries : List CacheEntry) :
    (entries.foldl restoreEntry cache).IsOf config stored := by
  induction entries generalizing cache with
  | nil =>
      exact isOf
  | cons entry rest inductionHypothesis =>
      have next : (cache.restoreEntry entry).IsOf config stored := { isOf.withEntries on _ with }
      exact inductionHypothesis next on

end IsOf

/-- A new cache has the settings of its configuration, whatever its store does. -/
theorem isOf_ofStore
    (config : Config)
    (store : Option Store)
    (registry : Registry) :
    (ofStore config store registry).IsOf config store.isSome := by
  have isOf : (empty config store registry).IsOf config store.isSome :=
    ⟨rfl, rfl, rfl, rfl, fun _ => rfl⟩
  have carried {change : CacheChange} (changed : change.cache.IsOf config store.isSome) :
      change.carryOut.IsOf config store.isSome := { changed with }
  unfold ofStore
  split
  · exact isOf
  next store =>
    dsimp only
    split
    · exact carried { isOf with off := fun _ => rfl }
    · exact isOf
    · split
      · exact carried isOf.forgotten
      next document _ =>
        split
        · have restored := isOf.foldl_restoreEntry rfl (document.entries.filter isDurable)
          unfold restore
          dsimp only
          split
          · exact carried restored.persisted
          · exact restored
        · exact carried isOf.forgotten

end Cache

/-- In every run the cache keeps its settings. -/
theorem Traffic.isOf_run
    {config : Config}
    {stored : Bool}
    {initial state : Traffic}
    {events : List Event}
    (start : initial.session.cache.IsOf config stored)
    (run : Run initial events state) :
    state.session.cache.IsOf config stored := by
  induction run with
  | nil =>
      exact start
  | snoc _ step inductionHypothesis =>
      have isOf := inductionHypothesis
      cases step with
      | call | leave | pass | tick =>
          exact isOf
      | work before after stage rest session events place stepped =>
          exact isOf.use (Session.use_step stepped)
      | storeChanges store present =>
          exact { isOf with store := isOf.store ▸ present.symm }
      | loaderChanges =>
          exact { isOf with }
      | reorder order same =>
          have off (disabled : _) : order = [] := (isOf.off disabled ▸ same).eq_nil
          exact { isOf with off }

end LiveComponent
