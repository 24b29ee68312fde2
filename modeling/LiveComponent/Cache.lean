import LiveComponent.Cache.Entry
import LiveComponent.Config
import LiveComponent.Handle.Registry
import LiveComponent.Store

namespace LiveComponent

/-!
# The cache

Artifacts are kept under keys that name the channel and the content of their source.  The cache holds a
reference to the handle of each artifact, and writes every change through to a store as one document.
When the store fails, the cache gives back all handles and stays off for the rest of the session.
-/

/-- A cache with the registry of its handles and the store it writes to. -/
structure Cache where
  /-- The highest number of entries. -/
  capacity : Nat
  /-- The tag of the compiler. -/
  version : Text
  /-- The key of the stored document. -/
  persistenceKey : Text
  registry : Registry
  store : Option Store
  /-- The entries, in the order in which they are searched. -/
  entries : List CacheEntry
  enabled : Bool
  /-- The place of the next entry in the order of entries. -/
  nextSeq : Nat
deriving DecidableEq, Repr

namespace Cache

/-- The key of a source by its channel and the hash of its content. -/
def keyFor (provenance : Provenance) (inputHash : Text) : Text :=
  sha256Hex (provenance.name ++ [':'] ++ inputHash)

/-- The entry under a key. -/
def find? (cache : Cache) (key : Text) : Option CacheEntry :=
  cache.entries.find? fun entry => entry.key = key

/-- The cache with other entries. -/
def withEntries (cache : Cache) (entries : List CacheEntry) : Cache :=
  { cache with entries }

/-- Whether there is an entry under the key. -/
def contains (cache : Cache) (key : Text) : Bool :=
  (cache.find? key).isSome

end Cache

/-- A changed cache.  It still holds the handles that it no longer needs; they are released one after the
other when the change is carried out, and other callers may use the registry in between. -/
structure CacheChange where
  cache : Cache
  /-- The addresses of the handles to release, in order. -/
  released : List Text := []
  /-- Whether the store refused a call. -/
  refused : Bool := false
deriving DecidableEq, Repr

namespace CacheChange

/-- Release the handles that the changed cache no longer needs. -/
def carryOut (change : CacheChange) : Cache :=
  { change.cache with registry := change.cache.registry.releaseAll change.released }

/-- Nothing is left to do when no handle is to be released. -/
@[simp]
theorem carryOut_mk (cache : Cache) (refused : Bool) :
    carryOut ⟨cache, [], refused⟩ = cache := rfl

/-- A change followed by another one. -/
def andThen (change : CacheChange) (next : Cache → CacheChange) : CacheChange :=
  let last := next change.cache
  ⟨last.cache, change.released ++ last.released, change.refused || last.refused⟩

end CacheChange

namespace Cache

/-- The addresses of the handles that the entries hold. -/
def addresses (entries : List CacheEntry) : List Text :=
  entries.filterMap fun entry => entry.artifact.loadUrl

/-! ## Giving up -/

/-- Drop all entries and give back their handles. -/
def drained (cache : Cache) : CacheChange :=
  { cache := { cache with entries := [] }, released := addresses cache.entries }

/-- Switch the cache off, because the store refused a call. -/
def disabled (cache : Cache) : CacheChange :=
  { { cache with enabled := false }.drained with refused := true }

/-- Go on with the outcome of a call of the store; a failure switches the cache off. -/
def settled (cache : Cache) (outcome : Store × Except StoreFailure Unit) : CacheChange :=
  let cache := { cache with store := some outcome.1 }
  match outcome.2 with
  | .ok () => { cache }
  | .error _ => cache.disabled

/-! ## Writing through -/

/-- Whether one entry came before another one or at the same time. -/
def isEarlier (first second : CacheEntry) : Bool :=
  first.seq ≤ second.seq

/-- The stored form of the cache. -/
def document (cache : Cache) : CacheDocument :=
  ⟨cache.version, cache.entries.mergeSort isEarlier⟩

/-- Write the cache to its store. -/
def persisted (cache : Cache) : CacheChange :=
  match cache.enabled, cache.store with
  | true, some store => cache.settled (store.set cache.persistenceKey cache.document.toText)
  | _, _ => { cache }

/-- Remove the document of the cache from its store. -/
def forgotten (cache : Cache) : CacheChange :=
  match cache.store with
  | some store => cache.settled (store.remove cache.persistenceKey)
  | none => { cache }

/-! ## Looking up -/

/-- Remove the entry under a key and keep its handle as it is. -/
def dropEntry (cache : Cache) (key : Text) : Cache :=
  { cache with entries := cache.entries.filter fun entry => entry.key ≠ key }

/-- Count a hit of the entry under a key. -/
def countHit (cache : Cache) (key : Text) (now : Instant) : Cache :=
  { cache with
    entries := cache.entries.map fun entry => if entry.key = key then entry.hit now else entry }

/-- Whether the handle of the entry is gone. -/
def isStale (cache : Cache) (entry : CacheEntry) : Bool :=
  entry.artifact.loadUrl.any fun url => !cache.registry.isLive url

/-- Look up a key and count a hit.  An entry whose handle is gone is dropped. -/
def lookedUp (cache : Cache) (now : Instant) (key : Text) : CacheChange × Option CacheEntry :=
  if !cache.enabled then
    ({ cache }, none)
  else
    match cache.find? key with
    | none => ({ cache }, none)
    | some entry =>
      if cache.isStale entry then
        ((cache.dropEntry key).persisted, none)
      else
        let hit := (cache.countHit key now).persisted
        (hit, if hit.cache.enabled then some (entry.hit now) else none)

/-- Look up the first entry whose compiled code has the given hash. -/
def lookedUpByOutputHash (cache : Cache) (now : Instant) (hash : Text) :
    CacheChange × Option CacheEntry :=
  match cache.entries.find? fun entry => entry.artifact.outputHash = hash with
  | some entry => cache.lookedUp now entry.key
  | none => ({ cache }, none)

/-- Look up a key and count a hit.  An entry whose handle is gone is dropped. -/
def get (cache : Cache) (now : Instant) (key : Text) : Cache × Option CacheEntry :=
  let (change, found) := cache.lookedUp now key
  (change.carryOut, found)

/-- Look up the first entry whose compiled code has the given hash. -/
def getByOutputHash (cache : Cache) (now : Instant) (hash : Text) : Cache × Option CacheEntry :=
  let (change, found) := cache.lookedUpByOutputHash now hash
  (change.carryOut, found)

/-! ## Eviction -/

/-- Whether one entry is evicted before another one: that of the lower score, then the earlier one. -/
def isEvictedFirst (first second : CacheEntry) : Bool :=
  first.score < second.score ||
    (first.score = second.score &&
      (first.seq < second.seq ||
        (first.seq = second.seq && !Text.before second.key first.key)))

/-- How many entries are evicted: none up to the capacity, else a quarter or what is too much. -/
def quota (cache : Cache) : Nat :=
  let count := cache.entries.length
  if count ≤ cache.capacity then 0 else max (count / 4) (count - cache.capacity)

/-- The entries that are evicted; the entry under a protected key is not. -/
def victims (cache : Cache) (protectedKey : Option Text) : List CacheEntry :=
  ((cache.entries.filter fun entry => some entry.key ≠ protectedKey).mergeSort isEvictedFirst).take
    cache.quota

/-- Evict entries if there are too many, and give back their handles. -/
def evicted (cache : Cache) (protectedKey : Option Text) : CacheChange :=
  let gone := cache.victims protectedKey
  { cache := { cache with
      entries := cache.entries.filter fun entry => !gone.any fun other => other.key = entry.key }
    released := addresses gone }

/-- Evict entries if there are too many, and write the cache if there were some. -/
def pruned (cache : Cache) : CacheChange :=
  if (cache.victims none).isEmpty then { cache } else (cache.evicted none).andThen persisted

/-- Evict entries if there are too many, and write the cache if there were some. -/
def prune (cache : Cache) : Cache :=
  cache.pruned.carryOut

/-! ## Changing -/

/-- Put an entry in the place of that under the same key. -/
def insert (cache : Cache) (entry : CacheEntry) : Cache :=
  { cache with
    entries := cache.entries.filter (fun other => other.key ≠ entry.key) ++ [entry] }

/-- Put an artifact in the place of that under the same key, and give back the handle of the latter. -/
def replaced (cache : Cache) (now : Instant) (key : Text) (artifact : Artifact) : CacheChange :=
  let previous := cache.find? key
  let entry : CacheEntry := ⟨key, artifact, now, now, 0, artifact.byteSize, cache.nextSeq⟩
  { cache := { cache.insert entry with nextSeq := cache.nextSeq + 1 }
    released := (previous.bind fun entry => entry.artifact.loadUrl).toList }

/-- Take over an artifact with its handle.  The second part tells whether the cache holds it now; if
not, its handle is given back. -/
def taken (cache : Cache) (now : Instant) (key : Text) (artifact : Artifact) : CacheChange × Bool :=
  if !cache.enabled then
    ({ cache, released := artifact.loadUrl.toList }, false)
  else
    let change := ((cache.replaced now key artifact).andThen fun cache =>
      cache.evicted (some key)).andThen persisted
    (change, change.cache.enabled)

/-- Take over an artifact with its handle.  The second part tells whether the cache holds it now; if
not, its handle is given back. -/
def put (cache : Cache) (now : Instant) (key : Text) (artifact : Artifact) : Cache × Bool :=
  let (change, held) := cache.taken now key artifact
  (change.carryOut, held)

/-- Drop all entries and the stored document. -/
def cleared (cache : Cache) : CacheChange :=
  cache.drained.andThen fun cache => if cache.enabled then cache.forgotten else { cache }

/-- Drop all entries and the stored document. -/
def clear (cache : Cache) : Cache :=
  cache.cleared.carryOut

/-! ## Opening -/

/-- Whether the entry outlives the session in which it was made. -/
def isDurable (entry : CacheEntry) : Bool :=
  !entry.artifact.loadUrl.any Handle.isEphemeral

/-- Take over a stored entry as the latest one. -/
def restoreEntry (cache : Cache) (entry : CacheEntry) : Cache :=
  { cache.insert { entry with seq := cache.nextSeq } with nextSeq := cache.nextSeq + 1 }

/-- Take over the durable entries of a stored document. -/
def restore (cache : Cache) (document : CacheDocument) : Cache :=
  let restored := (document.entries.filter isDurable).foldl restoreEntry cache
  if restored.entries.length < document.entries.length then restored.persisted.carryOut
  else restored

/-- An empty cache. -/
def empty (config : Config) (store : Option Store) (registry : Registry) : Cache :=
  ⟨max config.cacheCapacity 1, config.compilerTag, config.persistenceKey, registry, store, [],
    store.isSome, 0⟩

/-- The cache over a store.  A document that cannot be read or is of another compiler is removed. -/
def ofStore (config : Config) (store : Option Store) (registry : Registry) : Cache :=
  let cache := empty config store registry
  match store with
  | none => cache
  | some store =>
    match store.get cache.persistenceKey with
    | .error _ => cache.disabled.carryOut
    | .ok none => cache
    | .ok (some raw) =>
      match CacheDocument.ofText? raw with
      | none => cache.forgotten.carryOut
      | some document =>
        if document.version = cache.version then cache.restore document
        else cache.forgotten.carryOut

end Cache

end LiveComponent
