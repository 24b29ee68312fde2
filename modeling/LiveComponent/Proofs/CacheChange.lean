import LiveComponent.Cache
import Mathlib.Data.List.Nodup

namespace LiveComponent

/-!
# Changes of the cache

What every change of a cache has in common, whatever the store does: no entry appears that was neither
there nor put, and each handle that the cache held or was given is either still held or given back.
-/

namespace CacheEntry

/-- What an entry holds, apart from its use. -/
def content (entry : CacheEntry) : Text × Artifact :=
  (entry.key, entry.artifact)

end CacheEntry

namespace Cache

/-- A cache in order: no key occurs twice, and a cache that is off is empty. -/
structure Sound (cache : Cache) : Prop where
  distinct :
    (cache.entries.map CacheEntry.key).Nodup
  off :
    cache.enabled = false → cache.entries = []

/-- The handles of all entries can be used. -/
def Backed (cache : Cache) : Prop :=
  ∀ url ∈ addresses cache.entries, cache.registry.isLive url = true

/-- A cache with another store is in the same order. -/
theorem Sound.withStore
    {cache : Cache}
    (sound : Sound cache)
    (store : Option Store) :
    Sound { cache with store := store } :=
  ⟨sound.distinct, sound.off⟩

/-- A cache with another registry is in the same order. -/
theorem Sound.withRegistry
    {cache : Cache}
    (sound : Sound cache)
    (registry : Registry) :
    Sound { cache with registry := registry } :=
  ⟨sound.distinct, sound.off⟩

/-! ## Addresses of entries -/

/-- The addresses depend on the contents only. -/
theorem addresses_eq_of_content
    {first second : List CacheEntry}
    (same : first.map CacheEntry.content = second.map CacheEntry.content) :
    addresses first = addresses second := by
  have shape (entries : List CacheEntry) :
      addresses entries =
        (entries.map CacheEntry.content).filterMap fun content => content.2.loadUrl := by
    simp [addresses, List.filterMap_map, Function.comp_def, CacheEntry.content]
  rw [shape first, shape second, same]

/-- An entry with a handle contributes its address. -/
theorem mem_addresses
    {entries : List CacheEntry}
    {entry : CacheEntry}
    {url : Text}
    (member : entry ∈ entries)
    (holds : entry.artifact.loadUrl = some url) :
    url ∈ addresses entries :=
  List.mem_filterMap.mpr ⟨entry, member, holds⟩

/-- How often an address occurs is the number of entries with it. -/
theorem count_addresses
    (entries : List CacheEntry)
    (url : Text) :
    (addresses entries).count url =
      entries.countP fun entry => entry.artifact.loadUrl = some url := by
  induction entries with
  | nil =>
      rfl
  | cons entry rest inductionHypothesis =>
      unfold addresses at inductionHypothesis ⊢
      cases holds : entry.artifact.loadUrl with
      | none =>
          simp [holds, inductionHypothesis]
      | some other =>
          by_cases same : other = url <;>
            simp [holds, inductionHypothesis, same]

/-- The addresses of entries are those of two parts of them. -/
theorem count_addresses_of_perm
    {entries first second : List CacheEntry}
    (parts : (first ++ second).Perm entries)
    (url : Text) :
    (addresses first).count url + (addresses second).count url =
      (addresses entries).count url := by
  have joined : (addresses first ++ addresses second).Perm (addresses entries) := by
    simpa [addresses, List.filterMap_append] using
      parts.filterMap fun entry => entry.artifact.loadUrl
  rw [← joined.count_eq url, List.count_append]

/-- Counting a hit changes no content. -/
theorem content_countHit
    (cache : Cache)
    (key : Text)
    (now : Instant) :
    (cache.countHit key now).entries.map CacheEntry.content =
      cache.entries.map CacheEntry.content := by
  simp only [countHit, List.map_map]
  refine List.map_congr_left fun entry _ => ?_
  simp only [Function.comp_apply]
  split <;> rfl

/-- Equal contents have equal keys. -/
theorem keys_eq_of_content
    {first second : List CacheEntry}
    (same : first.map CacheEntry.content = second.map CacheEntry.content) :
    first.map CacheEntry.key = second.map CacheEntry.key := by
  have shape (entries : List CacheEntry) :
      entries.map CacheEntry.key = (entries.map CacheEntry.content).map Prod.fst := by
    simp [Function.comp_def, CacheEntry.content]
  rw [shape first, shape second, same]

/-- Reordered entries have the same addresses. -/
theorem count_addresses_reordered
    {entries order : List CacheEntry}
    (reordered : order.Perm entries)
    (url : Text) :
    (addresses order).count url = (addresses entries).count url :=
  (reordered.filterMap _).count_eq url

/-- A cache stays in order if its entries are searched in another order. -/
theorem Sound.reorder
    {cache : Cache}
    {order : List CacheEntry}
    (sound : Sound cache)
    (reordered : order.Perm cache.entries) :
    (cache.withEntries order).Sound where
  distinct := (reordered.map CacheEntry.key).nodup_iff.mpr sound.distinct
  off off := (sound.off off ▸ reordered).eq_nil

/-- With distinct keys the entries under a key are the one that is found. -/
theorem filter_key_eq
    {entries : List CacheEntry}
    (distinct : (entries.map CacheEntry.key).Nodup)
    (key : Text) :
    (entries.filter fun entry => entry.key = key) =
      (entries.find? fun entry => entry.key = key).toList := by
  induction entries with
  | nil =>
      rfl
  | cons entry rest inductionHypothesis =>
      obtain ⟨fresh, restDistinct⟩ := List.nodup_cons.mp distinct
      by_cases same : entry.key = key
      · have others : (rest.filter fun other => other.key = key) = [] := by
          rw [List.filter_eq_nil_iff]
          intro other member
          have differs : other.key ≠ key := by
            rintro rfl
            exact fresh (List.mem_map.mpr ⟨other, member, same.symm⟩)
          simpa using differs
        simp [same, others]
      · simp [same, inductionHypothesis restDistinct]

/-- The entry that is found is one of the entries. -/
theorem mem_of_find?
    {cache : Cache}
    {key : Text}
    {entry : CacheEntry}
    (found : cache.find? key = some entry) :
    entry ∈ cache.entries ∧ entry.key = key :=
  ⟨List.mem_of_find?_eq_some found, by simpa using List.find?_some found⟩

end Cache

namespace CacheChange

/-- What every change does to a sound cache that was given the contents `fresh`. -/
structure Sound
    (before : Cache)
    (fresh : List (Text × Artifact))
    (change : CacheChange) :
    Prop where
  cache :
    change.cache.Sound
  registry :
    change.cache.registry = before.registry
  config :
    change.cache.store.isSome = before.store.isSome
  origin :
    ∀ entry ∈ change.cache.entries,
      entry.content ∈ before.entries.map CacheEntry.content ++ fresh
  balance :
    ∀ url,
      (Cache.addresses change.cache.entries).count url + change.released.count url =
        (Cache.addresses before.entries).count url +
          (fresh.filterMap fun content => content.2.loadUrl).count url
  stays_off :
    before.enabled = false → change.cache.enabled = false
  refused :
    change.refused = true → change.cache.enabled = false

namespace Sound

variable
  {before : Cache}
  {fresh : List (Text × Artifact)}
  {change : CacheChange}

/-- A change of the entries that leaves their contents as they are. -/
theorem of_content
    {after : Cache}
    (sound : before.Sound)
    (same : after.entries.map CacheEntry.content = before.entries.map CacheEntry.content)
    (registry : after.registry = before.registry)
    (store : after.store.isSome = before.store.isSome)
    (enabled : after.enabled = before.enabled) :
    Sound before [] { cache := after } where
  cache :=
    { distinct := by
        rw [Cache.keys_eq_of_content same]
        exact sound.distinct
      off := fun off => by
        have empty := sound.off (enabled ▸ off)
        rw [empty] at same
        simpa using same }
  registry := registry
  config := store
  origin entry member := by
    rw [List.append_nil, ← same]
    exact List.mem_map_of_mem member
  balance url := by
    simp [Cache.addresses_eq_of_content same]
  stays_off off := enabled.trans off
  refused refused := by
    cases refused

/-- A cache that stays as it is. -/
theorem refl
    (sound : before.Sound) :
    Sound before [] { cache := before } :=
  of_content sound rfl rfl rfl rfl

/-- What all contents have that a cache held or was given, those have that it holds after a change. -/
theorem forall_content
    {holds : Text × Artifact → Prop}
    (sound : Sound before fresh change)
    (held : ∀ entry ∈ before.entries, holds entry.content)
    (given : ∀ content ∈ fresh, holds content) :
    ∀ entry ∈ change.cache.entries, holds entry.content := by
  intro entry member
  rcases List.mem_append.mp (sound.origin entry member) with old | new
  · obtain ⟨origin, originMember, same⟩ := List.mem_map.mp old
    exact same ▸ held origin originMember
  · exact given _ new

/-- A change followed by another one. -/
theorem andThen
    {next : Cache → CacheChange}
    (first : Sound before fresh change)
    (second : Sound change.cache [] (next change.cache)) :
    Sound before fresh (change.andThen next) where
  cache := second.cache
  registry := second.registry.trans first.registry
  config := second.config.trans first.config
  origin entry member := by
    have earlier := second.origin entry member
    rw [List.append_nil] at earlier
    obtain ⟨old, oldMember, same⟩ := List.mem_map.mp earlier
    exact same ▸ first.origin old oldMember
  balance url := by
    have firstBalance := first.balance url
    have secondBalance := second.balance url
    simp only [List.filterMap_nil, List.count_nil, Nat.add_zero] at secondBalance
    simp only [CacheChange.andThen, List.count_append]
    omega
  stays_off off := second.stays_off (first.stays_off off)
  refused refused := by
    rcases Bool.or_eq_true_iff.mp refused with early | late
    · exact second.stays_off (first.refused early)
    · exact second.refused late

end Sound

end CacheChange

namespace Cache

open CacheChange (Sound)

variable {cache : Cache}

/-! ## Giving up -/

/-- Draining gives back every handle. -/
theorem sound_drained
    (cache : Cache) :
    CacheChange.Sound cache [] cache.drained where
  cache := ⟨List.nodup_nil, fun _ => rfl⟩
  registry := rfl
  config := rfl
  origin entry member := by
    cases member
  balance url := by
    simp [drained, addresses]
  stays_off off := off
  refused refused := by
    cases refused

/-- Switching off gives back every handle. -/
theorem sound_disabled
    (cache : Cache) :
    CacheChange.Sound cache [] cache.disabled :=
  { sound_drained cache with
    cache := ⟨List.nodup_nil, fun _ => rfl⟩
    stays_off := fun _ => rfl
    refused := fun _ => rfl }

/-- After a call of the store the cache is the same apart from the store, or off. -/
theorem sound_settled
    (sound : cache.Sound)
    (present : cache.store.isSome = true)
    (outcome : Store × Except StoreFailure Unit) :
    CacheChange.Sound cache [] (cache.settled outcome) := by
  obtain ⟨store, result⟩ := outcome
  have stored : CacheChange.Sound cache [] { cache := { cache with store := some store } } :=
    .of_content sound rfl rfl (by simp [present]) rfl
  cases result with
  | ok =>
      exact stored
  | error =>
      have off := sound_disabled { cache with store := some store }
      exact ⟨off.cache, off.registry, off.config.trans stored.config, off.origin, off.balance,
        off.stays_off, off.refused⟩

/-- Writing the cache keeps it in order. -/
theorem sound_persisted
    (sound : cache.Sound) :
    CacheChange.Sound cache [] cache.persisted := by
  unfold persisted
  split
  next store _ present =>
    exact sound_settled sound (by simp [present]) _
  next =>
    exact .refl sound

/-- Removing the document keeps the cache in order. -/
theorem sound_forgotten
    (sound : cache.Sound) :
    CacheChange.Sound cache [] cache.forgotten := by
  unfold forgotten
  split
  next store present =>
    exact sound_settled sound (by simp [present]) _
  next =>
    exact .refl sound

/-! ## Looking up -/

/-- An entry of a backed cache is not stale. -/
theorem not_isStale
    (backed : cache.Backed)
    {entry : CacheEntry}
    (member : entry ∈ cache.entries) :
    cache.isStale entry = false := by
  unfold isStale
  cases holds : entry.artifact.loadUrl with
  | none =>
      rfl
  | some url =>
      simp [backed url (mem_addresses member holds)]

/-- Looking up a key of a backed cache finds the entry under the key, if the cache is still on after the
hit is written, and changes no content. -/
theorem lookedUp_eq
    (backed : cache.Backed)
    (now : Instant)
    (key : Text) :
    (cache.lookedUp now key = ({ cache }, none) ∧
        (cache.enabled = true → cache.find? key = none)) ∨
      ∃ entry, cache.enabled = true ∧ cache.find? key = some entry ∧
        cache.lookedUp now key =
          ((cache.countHit key now).persisted,
            if (cache.countHit key now).persisted.cache.enabled then some (entry.hit now)
            else none) := by
  unfold lookedUp
  cases on : cache.enabled with
  | false =>
      simp
  | true =>
      cases found : cache.find? key with
      | none =>
          simp
      | some entry =>
          simp [not_isStale backed (mem_of_find? found).1]

/-- Looking up a key keeps the cache in order. -/
theorem sound_lookedUp
    (sound : cache.Sound)
    (backed : cache.Backed)
    (now : Instant)
    (key : Text) :
    CacheChange.Sound cache [] (cache.lookedUp now key).1 := by
  obtain ⟨same, -⟩ | ⟨entry, -, -, hit⟩ := lookedUp_eq backed now key
  · rw [same]
    exact .refl sound
  · rw [hit]
    have counted : CacheChange.Sound cache [] { cache := cache.countHit key now } :=
      .of_content sound (content_countHit cache key now) rfl rfl rfl
    simpa [CacheChange.andThen] using counted.andThen (sound_persisted counted.cache)

/-- What is found under a key is the entry under this key after its hit, and the cache is still on. -/
theorem lookedUp_eq_some
    {now : Instant}
    {key : Text}
    {entry : CacheEntry}
    (found : (cache.lookedUp now key).2 = some entry) :
    ∃ old, cache.find? key = some old ∧
      (cache.countHit key now).persisted.cache.enabled = true ∧
      (cache.lookedUp now key).1 = (cache.countHit key now).persisted ∧ entry = old.hit now := by
  unfold lookedUp at found ⊢
  split at found
  · cases found
  next on =>
    split at found
    · cases found
    next old present =>
      split at found
      · cases found
      next fresh =>
        dsimp only at found
        split at found
        next still =>
          cases found
          exact ⟨old, present, still, by simp [on, fresh], rfl⟩
        · cases found

/-- What is found under a key is an entry under this key. -/
theorem mem_of_lookedUp
    {now : Instant}
    {key : Text}
    {entry : CacheEntry}
    (found : (cache.lookedUp now key).2 = some entry) :
    ∃ old ∈ cache.entries, old.key = key ∧ entry = old.hit now := by
  obtain ⟨old, present, -, -, same⟩ := lookedUp_eq_some found
  exact ⟨old, (mem_of_find? present).1, (mem_of_find? present).2, same⟩

/-- Looking up a hash looks up the key of an entry with this hash, if there is one. -/
theorem lookedUpByOutputHash_eq
    (cache : Cache)
    (now : Instant)
    (hash : Text) :
    (cache.lookedUpByOutputHash now hash = ({ cache }, none) ∧
        ∀ entry ∈ cache.entries, entry.artifact.outputHash ≠ hash) ∨
      ∃ entry ∈ cache.entries, entry.artifact.outputHash = hash ∧
        cache.lookedUpByOutputHash now hash = cache.lookedUp now entry.key := by
  unfold lookedUpByOutputHash
  split
  next entry found =>
    exact .inr ⟨entry, List.mem_of_find?_eq_some found, by simpa using List.find?_some found, rfl⟩
  next missing =>
    exact .inl ⟨rfl, by simpa using missing⟩

/-- Looking up a hash keeps the cache in order. -/
theorem sound_lookedUpByOutputHash
    (sound : cache.Sound)
    (backed : cache.Backed)
    (now : Instant)
    (hash : Text) :
    CacheChange.Sound cache [] (cache.lookedUpByOutputHash now hash).1 := by
  obtain ⟨same, -⟩ | ⟨entry, -, -, lookup⟩ := lookedUpByOutputHash_eq cache now hash
  · rw [same]
    exact .refl sound
  · rw [lookup]
    exact sound_lookedUp sound backed now entry.key

/-- What is found by a hash is an entry with this hash. -/
theorem mem_of_lookedUpByOutputHash
    (sound : cache.Sound)
    {now : Instant}
    {hash : Text}
    {entry : CacheEntry}
    (found : (cache.lookedUpByOutputHash now hash).2 = some entry) :
    ∃ old ∈ cache.entries, old.artifact.outputHash = hash ∧ entry = old.hit now := by
  obtain ⟨same, -⟩ | ⟨first, member, hashed, lookup⟩ := lookedUpByOutputHash_eq cache now hash
  · rw [same] at found
    cases found
  · rw [lookup] at found
    obtain ⟨old, oldMember, sameKey, rfl⟩ := mem_of_lookedUp found
    have same : old = first :=
      List.inj_on_of_nodup_map sound.distinct oldMember member sameKey
    exact ⟨old, oldMember, same ▸ hashed, rfl⟩

/-! ## Evicting -/

/-- Every victim is an entry. -/
theorem mem_of_mem_victims
    {protectedKey : Option Text}
    {entry : CacheEntry}
    (member : entry ∈ cache.victims protectedKey) :
    entry ∈ cache.entries := by
  have sorted := (List.mergeSort_perm _ _).subset (List.mem_of_mem_take member)
  exact List.mem_of_mem_filter sorted

/-- No entry is a victim twice. -/
theorem nodup_victims
    (nodup : cache.entries.Nodup)
    (protectedKey : Option Text) :
    (cache.victims protectedKey).Nodup := by
  have sorted := (List.mergeSort_perm (cache.entries.filter fun entry =>
    some entry.key ≠ protectedKey) isEvictedFirst).nodup_iff.mpr (nodup.filter _)
  exact sorted.sublist (List.take_sublist _ _)

/-- The victims and the entries that stay are all entries. -/
theorem perm_victims
    (distinct : (cache.entries.map CacheEntry.key).Nodup)
    (protectedKey : Option Text) :
    (cache.victims protectedKey ++ (cache.evicted protectedKey).cache.entries).Perm
      cache.entries := by
  have nodup : cache.entries.Nodup := distinct.of_map
  have gone :
      (cache.victims protectedKey).Perm
        (cache.entries.filter fun entry =>
          (cache.victims protectedKey).any fun other => other.key = entry.key) := by
    rw [List.perm_ext_iff_of_nodup (nodup_victims nodup _) (nodup.filter _)]
    intro entry
    simp only [List.mem_filter, List.any_eq_true, decide_eq_true_eq]
    constructor
    · intro member
      exact ⟨mem_of_mem_victims member, entry, member, rfl⟩
    · rintro ⟨member, other, otherMember, sameKey⟩
      have equal : other = entry :=
        List.inj_on_of_nodup_map distinct (mem_of_mem_victims otherMember) member sameKey
      exact equal ▸ otherMember
  exact (gone.append_right _).trans (List.filter_append_perm _ _)

/-- Evicting gives back the handles of the victims. -/
theorem sound_evicted
    (sound : cache.Sound)
    (protectedKey : Option Text) :
    CacheChange.Sound cache [] (cache.evicted protectedKey) where
  cache :=
    { distinct := List.Nodup.sublist (List.filter_sublist.map _) sound.distinct
      off := fun off => by
        simp [evicted, sound.off off] }
  registry := rfl
  config := rfl
  origin entry member := by
    rw [List.append_nil]
    exact List.mem_map_of_mem (List.mem_of_mem_filter member)
  balance url := by
    have parts := count_addresses_of_perm (perm_victims sound.distinct protectedKey) url
    simp only [List.filterMap_nil, List.count_nil, Nat.add_zero]
    rw [← parts, Nat.add_comm]
    rfl
  stays_off off := off
  refused refused := by
    cases refused

/-- Pruning keeps the cache in order. -/
theorem sound_pruned
    (sound : cache.Sound) :
    CacheChange.Sound cache [] cache.pruned := by
  unfold pruned
  split
  · exact .refl sound
  · have evicted := sound_evicted sound none
    exact evicted.andThen (sound_persisted evicted.cache)

/-! ## Changing -/

/-- An inserted entry takes the place of that under the same key. -/
theorem distinct_insert
    (distinct : (cache.entries.map CacheEntry.key).Nodup)
    (entry : CacheEntry) :
    ((cache.insert entry).entries.map CacheEntry.key).Nodup := by
  have rest : ((cache.entries.filter fun other => other.key ≠ entry.key).map
      CacheEntry.key).Nodup :=
    List.Nodup.sublist (List.filter_sublist.map _) distinct
  simp only [insert, List.map_append, List.map_cons, List.map_nil]
  rw [List.nodup_append]
  refine ⟨rest, List.nodup_singleton _, ?_⟩
  intro key member last lastMember same
  rw [List.mem_singleton] at lastMember
  obtain ⟨other, otherMember, rfl⟩ := List.mem_map.mp member
  have differs := (List.mem_filter.mp otherMember).2
  simp [same.trans lastMember] at differs

/-- Putting an artifact gives back the handle of the one before. -/
theorem sound_replaced
    (sound : cache.Sound)
    (on : cache.enabled = true)
    (now : Instant)
    (key : Text)
    (artifact : Artifact) :
    CacheChange.Sound cache [(key, artifact)] (cache.replaced now key artifact) where
  cache :=
    { distinct := distinct_insert sound.distinct _
      off := fun off => by
        simp [replaced, insert, on] at off }
  registry := rfl
  config := rfl
  origin entry member := by
    simp only [replaced, insert, List.mem_append, List.mem_singleton] at member
    rcases member with old | rfl
    · exact List.mem_append_left _ (List.mem_map_of_mem (List.mem_of_mem_filter old))
    · simp [CacheEntry.content]
  balance url := by
    have parts :
        ((cache.find? key).toList ++ cache.entries.filter fun other => other.key ≠ key).Perm
          cache.entries := by
      rw [find?, ← filter_key_eq sound.distinct key]
      simpa using List.filter_append_perm (fun entry => decide (entry.key = key)) cache.entries
    have counted := count_addresses_of_perm parts url
    have previous :
        addresses (cache.find? key).toList =
          ((cache.find? key).bind fun entry => entry.artifact.loadUrl).toList := by
      cases cache.find? key with
      | none =>
          rfl
      | some entry =>
          cases holds : entry.artifact.loadUrl <;> simp [addresses, holds]
    rw [previous] at counted
    rw [← counted]
    simp only [replaced, insert, addresses, List.filterMap_append, List.count_append,
      List.filterMap_cons, List.filterMap_nil]
    omega
  stays_off off := by
    rw [on] at off
    cases off
  refused refused := by
    cases refused

/-- Taking over an artifact keeps the cache in order. -/
theorem sound_taken
    (sound : cache.Sound)
    (now : Instant)
    (key : Text)
    (artifact : Artifact) :
    CacheChange.Sound cache [(key, artifact)] (cache.taken now key artifact).1 := by
  unfold taken
  cases on : cache.enabled with
  | false =>
      refine ⟨sound, rfl, rfl, fun entry member => ?_, fun url => ?_, fun _ => on, ?_⟩
      · exact List.mem_append_left _ (List.mem_map_of_mem member)
      · cases holds : artifact.loadUrl <;> simp [holds]
      · intro refused
        cases refused
  | true =>
      have replaced := sound_replaced sound on now key artifact
      have evicted :
          CacheChange.Sound cache [(key, artifact)]
            ((cache.replaced now key artifact).andThen fun cache => cache.evicted (some key)) :=
        replaced.andThen (sound_evicted replaced.cache (some key))
      exact evicted.andThen (sound_persisted evicted.cache)

/-- Clearing keeps the cache in order. -/
theorem sound_cleared
    (cache : Cache) :
    CacheChange.Sound cache [] cache.cleared := by
  have drained := sound_drained cache
  refine drained.andThen ?_
  split
  · exact sound_forgotten drained.cache
  · exact .refl drained.cache

end Cache

end LiveComponent
