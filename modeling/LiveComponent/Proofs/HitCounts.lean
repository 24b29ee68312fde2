import LiveComponent.Proofs.Capacity
import LiveComponent.Proofs.DocumentReading
import LiveComponent.Proofs.OutputLookup

namespace LiveComponent

/-!
# How exactly hits are counted

An entry has the hits that its stored document tells of, and one more for each lookup that found it.  The cache keeps
this number and the score that it leads to in 64 bits each, so both are exact exactly as long as they fit.  They do for
longer than any cache is used, unless a stored document starts with a number that is too large; then the entry with
more hits may be evicted first.
-/

namespace CacheEntry

/-- What the entry would be worth with some hits, as an exact number. -/
def worthWith (entry : CacheEntry) (hits : Nat) : Int :=
  worth { entry with hitCount := hits }

theorem worthWith_eq
    (entry : CacheEntry)
    (hits : Nat) :
    entry.worthWith hits = entry.lastAccessAt.millis + 10 ^ 6 * hits := rfl

/-- The entry counts one more hit than it had, and its score is what it is worth with them. -/
structure IsExactFor (entry : CacheEntry) (hits : Nat) : Prop where
  counts :
    ∀ now, (entry.hit now).hitCount = hits + 1
  scores :
    entry.score = entry.worthWith hits

variable
  {entry : CacheEntry}
  {hits : Nat}

/-- A score leaves out what does not fit into 64 bits, however many hits there were. -/
theorem score_eq_bmod
    (counted : entry.hitCount = hits % UInt64.size) :
    entry.score = (entry.worthWith hits).bmod UInt64.size := by
  have size : UInt64.size = 2 ^ 64 := rfl
  rw [score, counted, worthWith_eq, hitWeight, Int.bmod_eq_bmod_iff_bmod_sub_eq_zero, ← Int.dvd_iff_bmod_eq_zero, size]
  omega

/-- An entry that leaves out what does not fit into 64 bits is exact exactly if nothing is left out. -/
theorem isExactFor_iff
    (counted : entry.hitCount = hits % UInt64.size) :
    entry.IsExactFor hits ↔
      hits + 1 < 2 ^ 64 ∧ -2 ^ 63 ≤ entry.worthWith hits ∧ entry.worthWith hits < 2 ^ 63 := by
  have size : UInt64.size = 2 ^ 64 := rfl
  have next (now : Instant) : (entry.hit now).hitCount = (hits + 1) % 2 ^ 64 := by
    simp [hit, counted, size]
  have scores : entry.score = entry.worthWith hits ↔
      -2 ^ 63 ≤ entry.worthWith hits ∧ entry.worthWith hits < 2 ^ 63 := by
    rw [score_eq_bmod counted, size, Int.bmod_eq_iff (by decide)]
    omega
  constructor
  · intro exact
    have fits := exact.counts entry.lastAccessAt
    rw [next] at fits
    exact ⟨by omega, scores.mp exact.scores⟩
  · rintro ⟨fits, scored⟩
    exact ⟨fun now => (next now).trans (Nat.mod_eq_of_lt fits), scores.mpr scored⟩

/-- In known years an entry is exact for nine million million hits. -/
theorem isExactFor_of_le
    (counted : entry.hitCount = hits % UInt64.size)
    (known : entry.lastAccessAt.IsKnown)
    (few : hits ≤ 9 * 10 ^ 12) :
    entry.IsExactFor hits := by
  have near := abs_lt.mp known.abs_millis_lt
  refine (isExactFor_iff counted).mpr ?_
  rw [worthWith_eq]
  omega

end CacheEntry

namespace Cache

/-! ## Operations -/

/-- A call of the cache, or what others do to its handles or its store between two calls. -/
inductive Operation where
  | get (now : Instant) (key : Text)
  | getByOutputHash (now : Instant) (hash : Text)
  | put (now : Instant) (key : Text) (artifact : Artifact)
  | prune
  | clear
  | handlesChange (registry : Registry)
  | storeChanges (store : Option Store)

/-- The time at which a call reads the clock. -/
def Operation.now? : Operation → Option Instant
  | .get now _ => some now
  | .getByOutputHash now _ => some now
  | .put now _ _ => some now
  | _ => none

/-- The cache after an operation, with the entry that was found. -/
def operated (cache : Cache) : Operation → Cache × Option CacheEntry
  | .get now key => cache.get now key
  | .getByOutputHash now hash => cache.getByOutputHash now hash
  | .put now key artifact => ((cache.put now key artifact).1, none)
  | .prune => (cache.prune, none)
  | .clear => (cache.clear, none)
  | .handlesChange registry => ({ cache with registry }, none)
  | .storeChanges store => ({ cache with store }, none)

/-- The cache after some operations. -/
def after (cache : Cache) : List Operation → Cache
  | [] => cache
  | operation :: rest => (cache.operated operation).1.after rest

/-- The hits of the entry of a place at the start. -/
def startingHits (cache : Cache) (place : Nat) : Nat :=
  ((cache.entries.find? fun entry => entry.seq = place).map CacheEntry.hitCount).getD 0

/-- How many of some operations found the entry of a place. -/
def finds (cache : Cache) (place : Nat) : List Operation → Nat
  | [] => 0
  | operation :: rest =>
    let (next, found) := cache.operated operation
    (if found.any fun entry => entry.seq = place then 1 else 0) + next.finds place rest

/-- All hits of the entry of a place after some operations. -/
def hitsAfter (cache : Cache) (operations : List Operation) (place : Nat) : Nat :=
  cache.startingHits place + cache.finds place operations

variable {cache next : Cache}

/-! ## What an operation does to the entries -/

/-- A cache has some of the entries of another one, and the same place is the next one. -/
structure Shrinks (cache next : Cache) : Prop where
  entries :
    next.entries ⊆ cache.entries
  nextSeq :
    next.nextSeq = cache.nextSeq

theorem Shrinks.refl
    (cache : Cache) :
    cache.Shrinks cache :=
  ⟨List.Subset.refl _, rfl⟩

/-- A cache shrinks further when the store is called. -/
theorem Shrinks.settled
    (shrinks : cache.Shrinks next)
    (outcome : Store × Except StoreFailure Unit) :
    cache.Shrinks (next.settled outcome).cache := by
  unfold Cache.settled
  split
  · exact ⟨shrinks.entries, shrinks.nextSeq⟩
  · exact ⟨List.nil_subset _, shrinks.nextSeq⟩

theorem Shrinks.persisted
    (shrinks : cache.Shrinks next) :
    cache.Shrinks next.persisted.cache := by
  unfold Cache.persisted
  split
  · exact shrinks.settled _
  · exact shrinks

theorem Shrinks.forgotten
    (shrinks : cache.Shrinks next) :
    cache.Shrinks next.forgotten.cache := by
  unfold Cache.forgotten
  split
  · exact shrinks.settled _
  · exact shrinks

/-- An eviction adds no entry. -/
theorem shrinks_evicted
    (cache : Cache)
    (protectedKey : Option Text) :
    cache.Shrinks (cache.evicted protectedKey).cache :=
  ⟨List.filter_subset_self _, rfl⟩

/-- The ways in which an operation at some time ends. -/
inductive Outcome (cache : Cache) (now? : Option Instant) (next : Cache) : Option CacheEntry → Prop where
  /-- Nothing was found, and no entry is new. -/
  | less
      (shrinks : cache.Shrinks next) :
      Outcome cache now? next none
  /-- An entry was found, and a hit of it counted. -/
  | hit
      (now : Instant)
      (entry : CacheEntry)
      (clock : now? = some now)
      (member : entry ∈ cache.entries)
      (shrinks : (cache.countHit entry.key now).Shrinks next) :
      Outcome cache now? next (some (entry.hit now))
  /-- An artifact was taken over. -/
  | put
      (now : Instant)
      (key : Text)
      (artifact : Artifact)
      (clock : now? = some now)
      (shrinks : (cache.replaced now key artifact).cache.Shrinks next) :
      Outcome cache now? next none

/-- Carrying out a change does nothing more to the entries. -/
theorem Outcome.carryOut
    {now? : Option Instant}
    {change : CacheChange}
    {found : Option CacheEntry}
    (outcome : cache.Outcome now? change.cache found) :
    cache.Outcome now? change.carryOut found := by
  cases outcome with
  | less shrinks =>
      exact .less ⟨shrinks.entries, shrinks.nextSeq⟩
  | hit now entry clock member shrinks =>
      exact .hit now entry clock member ⟨shrinks.entries, shrinks.nextSeq⟩
  | put now key artifact clock shrinks =>
      exact .put now key artifact clock ⟨shrinks.entries, shrinks.nextSeq⟩

/-- A cache that is written keeps its entries, or it is switched off and has none left. -/
theorem persisted_keeps_or_off
    (cache : Cache) :
    cache.persisted.cache.enabled = cache.enabled ∧ cache.persisted.cache.entries = cache.entries ∨
      cache.persisted.cache.enabled = false ∧ cache.persisted.cache.entries = [] := by
  unfold persisted
  split
  · unfold settled
    split
    · exact .inl ⟨rfl, rfl⟩
    · exact .inr ⟨rfl, rfl⟩
  · exact .inl ⟨rfl, rfl⟩

/-- A lookup finds nothing, or it counts a hit. -/
theorem outcome_lookedUp
    (cache : Cache)
    (now : Instant)
    (key : Text) :
    cache.Outcome (some now) (cache.lookedUp now key).1.cache (cache.lookedUp now key).2 := by
  unfold lookedUp
  split
  · exact .less (.refl cache)
  next switched =>
    have on : cache.enabled = true := by simpa using switched
    split
    · exact .less (.refl cache)
    next entry found =>
      obtain ⟨member, rfl⟩ := mem_of_find? found
      split
      · have dropped : cache.Shrinks (cache.dropEntry entry.key) := ⟨List.filter_subset_self _, rfl⟩
        exact .less dropped.persisted
      · have shrinks := (Shrinks.refl (cache.countHit entry.key now)).persisted
        dsimp only
        split
        · exact .hit now entry rfl member shrinks
        next off =>
          refine .less ⟨?_, shrinks.nextSeq⟩
          obtain ⟨same, -⟩ | ⟨-, none⟩ := persisted_keeps_or_off (cache.countHit entry.key now)
          · exact absurd (same.trans on) off
          · rw [none]
            exact List.nil_subset _

/-- Every operation ends in one of these ways. -/
theorem outcome_operated
    (cache : Cache)
    (operation : Operation) :
    cache.Outcome operation.now? (cache.operated operation).1 (cache.operated operation).2 := by
  cases operation with
  | get now key =>
      exact (outcome_lookedUp cache now key).carryOut
  | getByOutputHash now hash =>
      simp only [operated, getByOutputHash]
      obtain ⟨same, -⟩ | ⟨entry, -, -, lookup⟩ := lookedUpByOutputHash_eq cache now hash
      · rw [same]
        exact .less (.refl cache)
      · rw [lookup]
        exact (outcome_lookedUp cache now entry.key).carryOut
  | put now key artifact =>
      simp only [operated, put]
      refine Outcome.carryOut ?_
      cases on : cache.enabled with
      | false =>
          simp only [taken, on]
          exact .less (.refl cache)
      | true =>
          rw [taken_of_enabled on]
          exact .put now key artifact rfl (shrinks_evicted _ _).persisted
  | prune =>
      simp only [operated, prune]
      refine Outcome.carryOut ?_
      unfold pruned
      split
      · exact .less (.refl cache)
      · exact .less (shrinks_evicted cache none).persisted
  | clear =>
      simp only [operated, clear]
      refine Outcome.carryOut ?_
      have drained : cache.Shrinks cache.drained.cache := ⟨List.nil_subset _, rfl⟩
      simp only [cleared, CacheChange.andThen]
      split
      · exact .less drained.forgotten
      · exact .less drained
  | handlesChange registry =>
      exact .less ⟨List.Subset.refl _, rfl⟩
  | storeChanges store =>
      exact .less ⟨List.Subset.refl _, rfl⟩

/-- Operations leave the cache indexed. -/
theorem IsIndexed.operated
    (indexed : cache.IsIndexed)
    (operation : Operation) :
    (cache.operated operation).1.IsIndexed := by
  cases operation with
  | get now key =>
      exact { indexed.use (.lookUp now key) with }
  | getByOutputHash now hash =>
      obtain ⟨same, -⟩ | ⟨entry, -, -, lookup⟩ := lookedUpByOutputHash_eq cache now hash
      · rw [Cache.operated, getByOutputHash, same]
        exact indexed
      · rw [Cache.operated, getByOutputHash, lookup]
        exact { indexed.use (.lookUp now entry.key) with }
  | put now key artifact =>
      exact { indexed.use (.take now key artifact) with }
  | prune =>
      exact { indexed.use .prune with }
  | clear =>
      exact { indexed.use .clear with }
  | handlesChange registry =>
      exact { indexed with }
  | storeChanges store =>
      exact { indexed with }

/-! ## Counting -/

/-- The entries keep the hits of their places up to what does not fit into 64 bits, and the places that are still to
come have none. -/
structure Counts (cache : Cache) (hits : Nat → Nat) : Prop where
  indexed :
    cache.IsIndexed
  counted :
    ∀ entry ∈ cache.entries, entry.hitCount = hits entry.seq % UInt64.size
  fresh :
    ∀ place, cache.nextSeq ≤ place → hits place = 0

variable {hits : Nat → Nat}

/-- The hits of all places after an operation that found some entry. -/
def hitsWith (hits : Nat → Nat) (found : Option CacheEntry) (place : Nat) : Nat :=
  (if found.any fun entry => entry.seq = place then 1 else 0) + hits place

@[simp]
theorem hitsWith_none
    (hits : Nat → Nat) :
    hitsWith hits none = hits := by
  funext place
  simp [hitsWith]

/-- An operation counts a hit of the entry that it finds and of no other one. -/
theorem Counts.outcome
    {now? : Option Instant}
    {found : Option CacheEntry}
    (counts : cache.Counts hits)
    (outcome : cache.Outcome now? next found)
    (indexed : next.IsIndexed) :
    next.Counts (hitsWith hits found) := by
  cases outcome with
  | less shrinks =>
      rw [hitsWith_none]
      exact ⟨indexed, fun entry member => counts.counted entry (shrinks.entries member),
        fun place late => counts.fresh place (shrinks.nextSeq ▸ late)⟩
  | hit now entry clock member shrinks =>
      have place (other : CacheEntry) : (other.hit now).seq = other.seq := rfl
      refine ⟨indexed, fun other inside => ?_, fun place late => ?_⟩
      · obtain ⟨old, oldMember, rfl⟩ := List.mem_map.mp (shrinks.entries inside)
        split
        next same =>
          obtain rfl : old = entry := List.inj_on_of_nodup_map counts.indexed.distinct oldMember member same
          simp [hitsWith, CacheEntry.hit, counts.counted old member, Nat.add_comm]
        next apart =>
          have elsewhere : entry.seq ≠ old.seq := fun same =>
            apart (List.inj_on_of_nodup_map counts.indexed.placed member oldMember same ▸ rfl)
          simp [hitsWith, place, elsewhere, counts.counted old oldMember]
      · have early := counts.indexed.early entry member
        have late : cache.nextSeq ≤ place := shrinks.nextSeq ▸ late
        have elsewhere : entry.seq ≠ place := by omega
        simp [hitsWith, CacheEntry.hit, elsewhere, counts.fresh place late]
  | put now key artifact clock shrinks =>
      rw [hitsWith_none]
      refine ⟨indexed, fun entry member => ?_, fun place late => ?_⟩
      · rcases List.mem_append.mp (shrinks.entries member) with old | new
        · exact counts.counted entry (List.mem_of_mem_filter old)
        · rw [List.mem_singleton.mp new]
          simp [counts.fresh]
      · have later : next.nextSeq = cache.nextSeq + 1 := shrinks.nextSeq
        exact counts.fresh place (by omega)

/-- Whatever operations follow, the hits of all entries are counted. -/
theorem Counts.after
    (counts : cache.Counts hits)
    (operations : List Operation) :
    (cache.after operations).Counts fun place => hits place + cache.finds place operations := by
  induction operations generalizing cache hits with
  | nil =>
      exact counts
  | cons operation rest inductionHypothesis =>
      have step := counts.outcome (outcome_operated cache operation) (counts.indexed.operated operation)
      have later := inductionHypothesis step
      have same (place : Nat) : hitsWith hits (cache.operated operation).2 place +
          (cache.operated operation).1.finds place rest =
            hits place + cache.finds place (operation :: rest) := by
        simp only [hitsWith, finds]
        omega
      simp only [same] at later
      exact later

/-- No more operations find an entry than there are. -/
theorem finds_le
    (cache : Cache)
    (place : Nat)
    (operations : List Operation) :
    cache.finds place operations ≤ operations.length := by
  induction operations generalizing cache with
  | nil =>
      exact Nat.le_refl _
  | cons operation rest inductionHypothesis =>
      have later := inductionHypothesis (cache.operated operation).1
      simp only [finds, List.length_cons]
      split <;> omega

/-- Where the clock shows known years, all entries go on to be used in known years. -/
theorem known_after
    (operations : List Operation)
    (known : ∀ entry ∈ cache.entries, entry.lastAccessAt.IsKnown)
    (clock : ∀ operation ∈ operations, ∀ now ∈ operation.now?, now.IsKnown) :
    ∀ entry ∈ (cache.after operations).entries, entry.lastAccessAt.IsKnown := by
  induction operations generalizing cache with
  | nil =>
      exact known
  | cons operation rest inductionHypothesis =>
      refine inductionHypothesis (fun entry member => ?_) fun other inside =>
        clock other (List.mem_cons_of_mem operation inside)
      have shown := clock operation List.mem_cons_self
      have outcome := outcome_operated cache operation
      generalize (cache.operated operation).1 = next at member outcome
      generalize (cache.operated operation).2 = found at outcome
      cases outcome with
      | less shrinks =>
          exact known entry (shrinks.entries member)
      | hit now used isNow _ shrinks =>
          obtain ⟨old, inside, rfl⟩ := List.mem_map.mp (shrinks.entries member)
          split
          · exact shown now isNow
          · exact known old inside
      | put now key artifact isNow shrinks =>
          rcases List.mem_append.mp (shrinks.entries member) with old | new
          · exact known entry (List.mem_of_mem_filter old)
          · rw [List.mem_singleton.mp new]
            exact shown now isNow

/-! ## The start -/

/-- Restoring entries adds no others, up to their places. -/
theorem mem_foldl_restoreEntry
    {entries : List CacheEntry}
    {entry : CacheEntry}
    (member : entry ∈ (entries.foldl restoreEntry cache).entries) :
    entry ∈ cache.entries ∨ ∃ stored ∈ entries, ∃ place, entry = { stored with seq := place } := by
  induction entries generalizing cache with
  | nil =>
      exact .inl member
  | cons first rest inductionHypothesis =>
      rcases inductionHypothesis member with here | ⟨stored, later, placed⟩
      · rcases List.mem_append.mp here with old | new
        · exact .inl (List.mem_of_mem_filter old)
        · rw [List.mem_singleton.mp new]
          exact .inr ⟨first, List.mem_cons_self, _, rfl⟩
      · exact .inr ⟨stored, List.mem_cons_of_mem first later, placed⟩

/-- The entries of a new cache are those of the document in its store, up to their places. -/
theorem exists_stored_of_mem
    {config : Config}
    {store : Option Store}
    {registry : Registry}
    {entry : CacheEntry}
    (member : entry ∈ (ofStore config store registry).entries) :
    ∃ given ∈ store, ∃ document, given.Offers config document ∧
      ∃ stored ∈ document.entries, ∃ place, entry = { stored with seq := place } := by
  cases store with
  | none =>
      cases member
  | some given =>
      by_cases offered : ∃ document, given.Offers config document
      · obtain ⟨document, offers⟩ := offered
        obtain ⟨text, found, read, version⟩ := offers
        rw [ofStore_eq_restore found read version] at member
        unfold restore at member
        have restored : entry ∈ ((document.entries.filter isDurable).foldl restoreEntry
            (empty config (some given) registry)).entries := by
          dsimp only at member
          split at member
          · exact (Shrinks.refl _).persisted.entries member
          · exact member
        obtain nothing | ⟨stored, inside, placed⟩ := mem_foldl_restoreEntry restored
        · cases nothing
        · exact ⟨given, rfl, document, ⟨text, found, read, version⟩, stored, List.mem_of_mem_filter inside, placed⟩
      · rw [entries_ofStore_of_not_offers (not_exists.mp offered)] at member
        cases member

theorem startingHits_le
    {bound : Nat}
    (bounded : ∀ entry ∈ cache.entries, entry.hitCount ≤ bound)
    (place : Nat) :
    cache.startingHits place ≤ bound := by
  unfold startingHits
  cases found : cache.entries.find? fun entry => entry.seq = place with
  | none => exact Nat.zero_le _
  | some entry => exact bounded entry (List.mem_of_find?_eq_some found)

/-- An indexed cache whose numbers have 64 bits counts the hits that its entries start with. -/
theorem counts_startingHits
    (indexed : cache.IsIndexed)
    (words : ∀ entry ∈ cache.entries, entry.hitCount < UInt64.size) :
    cache.Counts cache.startingHits := by
  refine ⟨indexed, fun entry member => ?_, fun place late => ?_⟩
  · rw [startingHits, find?_of_nodup_map indexed.placed member, Option.map_some, Option.getD_some,
      Nat.mod_eq_of_lt (words entry member)]
  · have none : cache.entries.find? (fun entry => entry.seq = place) = none := by
      refine List.find?_eq_none.mpr fun entry member => ?_
      have early := indexed.early entry member
      simp only [decide_eq_true_eq]
      omega
    rw [startingHits, none]
    rfl

/-! ## Evictions -/

/-- An eviction that leaves an entry leaves every entry of a higher score as well, unless the former is protected. -/
theorem mem_evicted_of_score_lt
    (indexed : cache.IsIndexed)
    {protectedKey : Option Text}
    {more fewer : CacheEntry}
    (member : more ∈ cache.entries)
    (less : fewer.score < more.score)
    (unprotected : some fewer.key ≠ protectedKey)
    (stays : fewer ∈ (cache.evicted protectedKey).cache.entries) :
    more ∈ (cache.evicted protectedKey).cache.entries := by
  have parts := perm_victims indexed.distinct protectedKey
  refine (List.mem_append.mp (parts.symm.subset member)).resolve_left fun gone => ?_
  obtain ⟨first, -⟩ := isEvictedFirst_of_mem_victims indexed gone stays unprotected
  simp only [isEvictedFirst, Bool.or_eq_true, Bool.and_eq_true, decide_eq_true_eq] at first
  omega

/-- What stays when the cache is written, stays together. -/
theorem mem_persisted_of_mem
    {entry other : CacheEntry}
    (member : entry ∈ cache.entries)
    (stays : other ∈ cache.persisted.cache.entries) :
    entry ∈ cache.persisted.cache.entries := by
  obtain ⟨-, same⟩ | ⟨-, none⟩ := persisted_keeps_or_off cache
  · rwa [same]
  · rw [none] at stays
    cases stays

/-- Pruning that leaves an entry leaves every entry of a higher score as well. -/
theorem mem_prune_of_score_lt
    (indexed : cache.IsIndexed)
    {more fewer : CacheEntry}
    (member : more ∈ cache.entries)
    (less : fewer.score < more.score)
    (stays : fewer ∈ cache.prune.entries) :
    more ∈ cache.prune.entries := by
  unfold prune pruned at stays ⊢
  split
  · exact member
  next some =>
    rw [if_neg some] at stays
    have left := (Shrinks.refl _).persisted.entries stays
    exact mem_persisted_of_mem (mem_evicted_of_score_lt indexed member less (by simp) left) stays

/-- A put under another key that leaves an entry leaves every entry of a higher score as well. -/
theorem mem_put_of_score_lt
    (indexed : cache.IsIndexed)
    {now : Instant}
    {key : Text}
    {artifact : Artifact}
    {more fewer : CacheEntry}
    (member : more ∈ cache.entries)
    (less : fewer.score < more.score)
    (moreKey : more.key ≠ key)
    (fewerKey : fewer.key ≠ key)
    (stays : fewer ∈ (cache.put now key artifact).1.entries) :
    more ∈ (cache.put now key artifact).1.entries := by
  unfold put at stays ⊢
  cases on : cache.enabled with
  | false =>
      simp only [taken, on] at stays ⊢
      exact member
  | true =>
      have held : (cache.replaced now key artifact).cache.IsIndexed := indexed.insert rfl
      have inside : more ∈ (cache.replaced now key artifact).cache.entries :=
        List.mem_append_left _ (List.mem_filter.mpr ⟨member, by simpa using moreKey⟩)
      simp only [taken_of_enabled on] at stays ⊢
      have left := (Shrinks.refl _).persisted.entries stays
      exact mem_persisted_of_mem
        (mem_evicted_of_score_lt held inside less (by simpa using fewerKey) left) stays

/-- What an entry is worth grows with its hits. -/
theorem score_lt_of_hits
    {more fewer : CacheEntry}
    {moreHits fewerHits : Nat}
    (moreExact : more.IsExactFor moreHits)
    (fewerExact : fewer.IsExactFor fewerHits)
    (sameAccess : more.lastAccessAt.millis = fewer.lastAccessAt.millis)
    (less : fewerHits < moreHits) :
    fewer.score < more.score := by
  rw [fewerExact.scores, moreExact.scores, CacheEntry.worthWith_eq, CacheEntry.worthWith_eq, sameAccess]
  omega

/-- Hits are exact as long as they fit.  After any operations on a cache over any store, the count of an entry is the
number of its hits, those of the stored document included, up to what does not fit into 64 bits; one more hit is
counted and the score is exact, exactly if both fit.  They do if the stored counts and the operations together make at
most nine million million and all calls are made in known years.  Of two entries that were used at the same time and
are exact, neither pruning nor a put under another key evicts the one with more hits and leaves the other one. -/
theorem hits_exact_iff
    (config : Config)
    (store : Option Store)
    (registry : Registry)
    (operations : List Operation) :
    let opened := ofStore config store registry
    let cache := opened.after operations
    let hits := fun entry : CacheEntry => opened.hitsAfter operations entry.seq
    (∀ entry ∈ cache.entries,
      entry.hitCount = hits entry % 2 ^ 64 ∧
        (entry.IsExactFor (hits entry) ↔
          hits entry + 1 < 2 ^ 64 ∧
            -2 ^ 63 ≤ entry.worthWith (hits entry) ∧ entry.worthWith (hits entry) < 2 ^ 63)) ∧
    (∀ bound,
      (∀ given ∈ store, ∀ document, given.Offers config document →
        ∀ stored ∈ document.entries, stored.hitCount ≤ bound) →
      (∀ operation ∈ operations, ∀ now ∈ operation.now?, now.IsKnown) →
      bound + operations.length ≤ 9 * 10 ^ 12 →
        ∀ entry ∈ cache.entries, entry.IsExactFor (hits entry)) ∧
    ∀ more ∈ cache.entries, ∀ fewer ∈ cache.entries,
      more.IsExactFor (hits more) → fewer.IsExactFor (hits fewer) →
      more.lastAccessAt.millis = fewer.lastAccessAt.millis → hits fewer < hits more →
        (fewer ∈ cache.prune.entries → more ∈ cache.prune.entries) ∧
          ∀ now key artifact, more.key ≠ key → fewer.key ≠ key →
            fewer ∈ (cache.put now key artifact).1.entries → more ∈ (cache.put now key artifact).1.entries := by
  intro opened cache hits
  have storable : ∀ entry ∈ opened.entries, entry.hitCount < UInt64.size ∧ entry.lastAccessAt.IsKnown := by
    intro entry member
    obtain ⟨given, -, document, ⟨text, -, read, -⟩, stored, inside, place, rfl⟩ := exists_stored_of_mem member
    have storable := CacheDocument.isStorable_of_ofText? read stored inside
    exact ⟨storable.hitCount, storable.lastAccessAt⟩
  have counts : cache.Counts fun place => opened.startingHits place + opened.finds place operations :=
    (counts_startingHits (isIndexed_ofStore config store registry) fun entry member =>
      (storable entry member).1).after operations
  refine ⟨fun entry member => ?_, fun bound bounded clock few entry member => ?_,
    fun more moreMember fewer fewerMember moreExact fewerExact sameAccess less => ⟨fun stays => ?_,
      fun now key artifact moreKey fewerKey stays => ?_⟩⟩
  · exact ⟨counts.counted entry member, CacheEntry.isExactFor_iff (counts.counted entry member)⟩
  · have known := known_after operations (fun entry member => (storable entry member).2) clock entry member
    refine CacheEntry.isExactFor_of_le (counts.counted entry member) known ?_
    have start : opened.startingHits entry.seq ≤ bound := by
      refine startingHits_le (fun other inside => ?_) entry.seq
      obtain ⟨given, present, document, offers, stored, listed, place, rfl⟩ := exists_stored_of_mem inside
      exact bounded given present document offers stored listed
    have found := finds_le opened entry.seq operations
    exact (Nat.add_le_add start found).trans few
  · exact mem_prune_of_score_lt counts.indexed moreMember
      (score_lt_of_hits moreExact fewerExact sameAccess less) stays
  · exact mem_put_of_score_lt counts.indexed moreMember
      (score_lt_of_hits moreExact fewerExact sameAccess less) moreKey fewerKey stays

/-- Over a store that takes all documents, pruning leaves what an eviction leaves. -/
theorem IsWorking.entries_prune
    (working : cache.IsWorking) :
    cache.prune.entries = (cache.evicted none).cache.entries := by
  unfold prune pruned
  split
  next spared =>
    simp [evicted, List.isEmpty_iff.mp spared, CacheChange.carryOut]
  next =>
    have evicted : (cache.evicted none).cache.IsWorking := ⟨working.enabled, working.store⟩
    obtain ⟨documents, persisted⟩ := evicted.persisted_eq
    simp [CacheChange.andThen, persisted, CacheChange.carryOut]

/-- An entry that is stored with the highest count there is counts as one with less than no hits, and is evicted
before one without any. -/
theorem hits_lost_in_score :
    ∃ config store opened,
      opened = ofStore config (some store) {} ∧
        opened.entries.map CacheEntry.key = ["a".toList, "b".toList] ∧
        opened.entries.map CacheEntry.hitCount = [2 ^ 64 - 1, 0] ∧
        opened.entries.map CacheEntry.lastAccessAt = [⟨0, 0⟩, ⟨0, 0⟩] ∧
        (∀ entry ∈ opened.entries, entry.IsExactFor (opened.hitsAfter [] entry.seq) → entry.key ≠ "a".toList) ∧
        opened.prune.entries.map CacheEntry.key = ["b".toList] := by
  let artifact : Artifact := ⟨"export default 1;".toList, [], [], ⟨0, 0⟩, [], none, 17, [], none, none⟩
  let entry (key : Text) (hits seq : Nat) : CacheEntry := ⟨key, artifact, ⟨0, 0⟩, ⟨0, 0⟩, hits, 17, seq⟩
  let entries := [entry ['a'] (2 ^ 64 - 1) 0, entry ['b'] 0 1]
  let config : Config := { cacheCapacity := 1 }
  let document : CacheDocument := ⟨config.compilerTag, entries⟩
  let store : Store := ⟨.memory [(config.persistenceKey, document.toText)], []⟩
  have storable : ∀ entry ∈ entries, entry.IsStorable := by
    have known : Instant.IsKnown ⟨0, 0⟩ := ⟨by decide +kernel, .inl (by decide)⟩
    have size : 17 < UInt64.size := by decide
    intro other member
    rcases List.mem_cons.mp member with rfl | member
    · exact ⟨⟨known, size⟩, known, known, by decide, size, by decide⟩
    · rw [List.mem_singleton.mp member]
      exact ⟨⟨known, size⟩, known, known, by decide, size, by decide⟩
  have found : store.get config.persistenceKey = .ok (some document.toText) := by
    simp [store, Store.get, Shelf.get, Table.get?]
  have offers : store.Offers config document := ⟨_, found, CacheDocument.ofText?_toText storable, rfl⟩
  have all : document.entries.length ≤ document.durableKeys.length := by decide +kernel
  obtain ⟨on, kept⟩ := ofStore_of_all offers all {}
  have working : (ofStore config (some store) {}).IsWorking := ⟨on, _, kept⟩
  have capacity : (ofStore config (some store) {}).capacity = 1 := (isOf_ofStore config (some store) {}).capacity
  have restored : (ofStore config (some store) {}).entries = entries := by
    rw [ofStore_eq_restore found (CacheDocument.ofText?_toText storable) rfl]
    exact (restore_distinct config store.shelf document (by decide) (fun fewer => absurd fewer (by decide)) {}).2
  have pruned := working.entries_prune
  have counted := (hits_exact_iff config (some store) {} []).1
  generalize fresh : ofStore config (some store) {} = opened at *
  refine ⟨config, store, opened, fresh.symm, by rw [restored]; rfl, by rw [restored]; rfl, by rw [restored]; rfl,
    fun other member exact isFirst => ?_, ?_⟩
  · obtain ⟨count, exactly⟩ := counted other member
    have fits := (exactly.mp exact).1
    rw [restored] at member
    rcases List.mem_cons.mp member with rfl | member
    · have most : (entry ['a'] (2 ^ 64 - 1) 0).hitCount = 2 ^ 64 - 1 := rfl
      omega
    · rw [List.mem_singleton.mp member] at isFirst
      exact absurd isFirst (by decide)
  · have candidates : (entries.filter fun entry => some entry.key ≠ none) = entries := by decide +kernel
    have ranked : entries.mergeSort isEvictedFirst = entries :=
      List.mergeSort_of_pairwise (by decide +kernel)
    have one : opened.quota = 1 := by
      rw [quota, restored, capacity]
      decide +kernel
    have gone : opened.victims none = [entry ['a'] (2 ^ 64 - 1) 0] := by
      rw [victims, one, restored, candidates, ranked]
      rfl
    rw [pruned, evicted, gone, restored]
    rfl

end Cache

end LiveComponent
