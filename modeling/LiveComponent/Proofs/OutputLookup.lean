import LiveComponent.Proofs.Eviction
import LiveComponent.Proofs.Repetition

namespace LiveComponent

/-!
# Looking up an output

Several keys may lead to the same compiled code, and the handles of some of their entries may be gone.  A lookup by
the hash of the code looks no further than the first entry of that hash.  So it depends on the order in which the
entries are enumerated whether an entry that can be used is found, unless all entries of the hash are alike in this.
-/

namespace Cache

variable
  {cache : Cache}
  {now : Instant}
  {hash : Text}

/-- The first entry of a hash in the order of enumeration. -/
def firstOf (cache : Cache) (hash : Text) : Option CacheEntry :=
  cache.entries.find? fun entry => entry.artifact.outputHash = hash

/-- Whether an entry of the hash can be used. -/
def HasUsable (cache : Cache) (hash : Text) : Prop :=
  ∃ entry ∈ cache.entries, entry.artifact.outputHash = hash ∧ cache.isStale entry = false

/-- A lookup by output finds an entry that can be used if there is one, and then counts a hit of this entry and of no
other one; otherwise it finds nothing and counts no hit. -/
structure FindsUsable (cache : Cache) (now : Instant) (hash : Text) : Prop where
  found :
    cache.HasUsable hash →
      ∃ entry ∈ cache.entries, entry.artifact.outputHash = hash ∧ cache.isStale entry = false ∧
        (cache.getByOutputHash now hash).2 = some (entry.hit now) ∧
        (cache.getByOutputHash now hash).1.entries =
          cache.entries.map fun other => if other.key = entry.key then other.hit now else other
  missing :
    ¬cache.HasUsable hash →
      (cache.getByOutputHash now hash).2 = none ∧
        (cache.getByOutputHash now hash).1.entries.Sublist cache.entries

/-- The ways in which a lookup by output ends over a working store. -/
inductive OutputLookup (cache : Cache) (now : Instant) (hash : Text) : Cache × Option CacheEntry → Prop where
  | missing
      (missing : cache.firstOf hash = none) :
      OutputLookup cache now hash (cache, none)
  | dropped
      (entry : CacheEntry)
      (store : Option Store)
      (first : cache.firstOf hash = some entry)
      (gone : cache.isStale entry = true) :
      OutputLookup cache now hash ({ cache.dropEntry entry.key with store }, none)
  | hit
      (entry : CacheEntry)
      (store : Option Store)
      (first : cache.firstOf hash = some entry)
      (live : cache.isStale entry = false) :
      OutputLookup cache now hash ({ cache.countHit entry.key now with store }, some (entry.hit now))

/-- A write that the store takes over changes nothing but the store. -/
theorem persisted_eq_of_works
    (works : cache.persisted.refused = false) :
    ∃ store, cache.persisted = { cache := { cache with store } } := by
  obtain ⟨store, persists⟩ := persisted_of_works works
  exact ⟨store, persists cache.entries rfl⟩

/-- Where all entries differ in some part, an entry is the first one with its part. -/
theorem find?_of_nodup_map
    {α : Type}
    [DecidableEq α]
    {part : CacheEntry → α}
    {entries : List CacheEntry}
    {entry : CacheEntry}
    (nodup : (entries.map part).Nodup)
    (member : entry ∈ entries) :
    (entries.find? fun other => part other = part entry) = some entry := by
  cases found : entries.find? fun other => part other = part entry with
  | none =>
      have absent := List.find?_eq_none.mp found entry member
      simp at absent
  | some other =>
      have same : part other = part entry := by simpa using List.find?_some found
      rw [List.inj_on_of_nodup_map nodup (List.mem_of_find?_eq_some found) member same]

/-- An entry is the one under its key. -/
theorem IsIndexed.find?_key
    (indexed : cache.IsIndexed)
    {entry : CacheEntry}
    (member : entry ∈ cache.entries) :
    cache.find? entry.key = some entry :=
  find?_of_nodup_map indexed.distinct member

/-- The first entry of a hash is an entry with this hash. -/
theorem mem_of_firstOf
    {entry : CacheEntry}
    (first : cache.firstOf hash = some entry) :
    entry ∈ cache.entries ∧ entry.artifact.outputHash = hash :=
  ⟨List.mem_of_find?_eq_some first, by simpa using List.find?_some first⟩

/-- Over a working store a lookup by output ends in one of these ways. -/
theorem outputLookup_getByOutputHash
    (indexed : cache.IsIndexed)
    (on : cache.enabled = true)
    (works : (cache.lookedUpByOutputHash now hash).1.refused = false) :
    cache.OutputLookup now hash (cache.getByOutputHash now hash) := by
  unfold getByOutputHash
  cases first : cache.firstOf hash with
  | none =>
      have looked : cache.lookedUpByOutputHash now hash = ({ cache }, none) := by
        rw [lookedUpByOutputHash, ← firstOf, first]
      rw [looked]
      exact .missing first
  | some entry =>
      have found := indexed.find?_key (mem_of_firstOf first).1
      have looked : cache.lookedUpByOutputHash now hash = cache.lookedUp now entry.key := by
        rw [lookedUpByOutputHash, ← firstOf, first]
      rw [looked] at works ⊢
      cases stale : cache.isStale entry with
      | true =>
          have dropped : cache.lookedUp now entry.key = ((cache.dropEntry entry.key).persisted, none) := by
            simp [lookedUp, on, found, stale]
          rw [dropped] at works ⊢
          obtain ⟨store, persisted⟩ := persisted_eq_of_works works
          rw [persisted]
          exact .dropped entry store first stale
      | false =>
          have counted : cache.lookedUp now entry.key =
              ((cache.countHit entry.key now).persisted,
                if (cache.countHit entry.key now).persisted.cache.enabled then some (entry.hit now) else none) := by
            simp [lookedUp, on, found, stale]
          rw [counted] at works ⊢
          obtain ⟨store, persisted⟩ := persisted_eq_of_works works
          have enabled : (cache.countHit entry.key now).enabled = true := on
          rw [persisted]
          dsimp only
          rw [if_pos enabled]
          exact .hit entry store first stale

/-- A store that takes all documents refuses no lookup by output. -/
theorem IsWorking.lookedUpByOutputHash
    (working : cache.IsWorking)
    (now : Instant)
    (hash : Text) :
    (cache.lookedUpByOutputHash now hash).1.refused = false := by
  have written {other : Cache} (works : other.IsWorking) : other.persisted.refused = false := by
    obtain ⟨documents, persisted⟩ := works.persisted_eq
    rw [persisted]
  unfold Cache.lookedUpByOutputHash lookedUp
  split
  next entry _ =>
    rw [if_neg (by simp [working.enabled])]
    split
    · rfl
    · split
      · exact written ⟨working.enabled, working.store⟩
      · exact written ⟨working.enabled, working.store⟩
  · rfl

/-- A store that takes all documents goes on to do so when an artifact is put. -/
theorem IsWorking.taken
    (working : cache.IsWorking)
    (now : Instant)
    (key : Text)
    (artifact : Artifact) :
    (cache.taken now key artifact).1.cache.IsWorking := by
  have evicted : ((cache.replaced now key artifact).cache.evicted (some key)).cache.IsWorking :=
    ⟨working.enabled, working.store⟩
  obtain ⟨documents, persisted⟩ := evicted.persisted_eq
  unfold Cache.taken
  rw [if_neg (by simp [working.enabled])]
  dsimp only [CacheChange.andThen]
  rw [persisted]
  exact ⟨working.enabled, documents, rfl⟩

/-- Over a working store a lookup by output answers as it should, exactly if the first entry of the hash can be used
or no entry of the hash can. -/
theorem findsUsable_iff
    (indexed : cache.IsIndexed)
    (on : cache.enabled = true)
    (works : (cache.lookedUpByOutputHash now hash).1.refused = false) :
    cache.FindsUsable now hash ↔
      ∀ entry, cache.firstOf hash = some entry → cache.HasUsable hash → cache.isStale entry = false := by
  have lookup := outputLookup_getByOutputHash indexed on works
  generalize result : cache.getByOutputHash now hash = answer at lookup
  cases lookup with
  | missing none =>
      refine iff_of_true ⟨fun ⟨entry, member, same, _⟩ => ?_, fun _ => ?_⟩ fun entry first => ?_
      · have other := List.find?_eq_none.mp none entry member
        simp [same] at other
      · rw [result]
        exact ⟨rfl, List.Sublist.refl _⟩
      · rw [none] at first
        cases first
  | dropped entry store first gone =>
      constructor
      · intro finds other isFirst usable
        obtain ⟨_, _, _, _, answered, _⟩ := finds.found usable
        rw [result] at answered
        cases answered
      · intro alike
        refine ⟨fun usable => ?_, fun _ => ?_⟩
        · rw [alike entry first usable] at gone
          cases gone
        · rw [result]
          exact ⟨rfl, List.filter_sublist⟩
  | hit entry store first live =>
      obtain ⟨member, same⟩ := mem_of_firstOf first
      refine iff_of_true ⟨fun _ => ⟨entry, member, same, live, ?_, ?_⟩, fun none => ?_⟩ fun other isFirst _ => ?_
      · rw [result]
      · rw [result]
        rfl
      · exact (none ⟨entry, member, same, live⟩).elim
      · rw [first] at isFirst
        cases isFirst
        exact live

/-- A lookup by output that misses an entry which can be used drops an entry of the hash that cannot be used. -/
theorem dropped_of_not_findsUsable
    (indexed : cache.IsIndexed)
    (on : cache.enabled = true)
    (works : (cache.lookedUpByOutputHash now hash).1.refused = false)
    (misses : ¬cache.FindsUsable now hash) :
    ∃ entry, cache.firstOf hash = some entry ∧ cache.isStale entry = true ∧
      (cache.getByOutputHash now hash).2 = none ∧
      (cache.getByOutputHash now hash).1.entries = cache.entries.filter fun other => other.key ≠ entry.key := by
  have lookup := outputLookup_getByOutputHash indexed on works
  rw [findsUsable_iff indexed on works] at misses
  push Not at misses
  obtain ⟨first, isFirst, -, stale⟩ := misses
  rw [Bool.ne_false_iff] at stale
  generalize result : cache.getByOutputHash now hash = answer at lookup
  cases lookup with
  | missing none =>
      rw [none] at isFirst
      cases isFirst
  | dropped entry store found gone =>
      exact ⟨entry, found, gone, rfl, rfl⟩
  | hit entry store found live =>
      rw [found] at isFirst
      cases isFirst
      rw [stale] at live
      cases live

/-- A cache that is used in whatever way stays indexed. -/
theorem isIndexed_of_uses
    {config : Config}
    {store : Option Store}
    {registry : Registry}
    (used : Relation.ReflTransGen Use (ofStore config store registry) cache) :
    cache.IsIndexed := by
  induction used with
  | refl => exact isIndexed_ofStore config store registry
  | tail _ use indexed => exact indexed.use use

/-- What can be used does not depend on the order of enumeration. -/
theorem hasUsable_of_perm
    {order : List CacheEntry}
    (reordered : order.Perm cache.entries) :
    (cache.withEntries order).HasUsable hash ↔ cache.HasUsable hash := by
  constructor
  · rintro ⟨entry, member, same⟩
    exact ⟨entry, reordered.subset member, same⟩
  · rintro ⟨entry, member, same⟩
    exact ⟨entry, reordered.symm.subset member, same⟩

/-- What a lookup by output finds.  However a cache was used before, while others acquired and released handles: if it
is on and its store works, a lookup in some order of enumeration answers with an entry that can be used, where there
is one, exactly if the first entry of the hash can be used.  If it misses one, it has dropped the first entry instead
and counted no hit.  It misses none in any order exactly if all entries of the hash can be used or none can. -/
theorem output_lookups_exact
    {config : Config}
    {store : Option Store}
    {registry : Registry}
    (used : Relation.ReflTransGen Use (ofStore config store registry) cache)
    (on : cache.enabled = true)
    (now : Instant)
    (hash : Text)
    (works : ∀ order, order.Perm cache.entries →
      ((cache.withEntries order).lookedUpByOutputHash now hash).1.refused = false) :
    (∀ order, order.Perm cache.entries →
      ((cache.withEntries order).FindsUsable now hash ↔
        ∀ entry, (cache.withEntries order).firstOf hash = some entry → cache.HasUsable hash →
          cache.isStale entry = false) ∧
      (¬(cache.withEntries order).FindsUsable now hash →
        ∃ entry, (cache.withEntries order).firstOf hash = some entry ∧ cache.isStale entry = true ∧
          ((cache.withEntries order).getByOutputHash now hash).2 = none ∧
          ((cache.withEntries order).getByOutputHash now hash).1.entries =
            order.filter fun other => other.key ≠ entry.key)) ∧
    ((∀ order, order.Perm cache.entries → (cache.withEntries order).FindsUsable now hash) ↔
      ∀ entry ∈ cache.entries, entry.artifact.outputHash = hash → cache.HasUsable hash →
        cache.isStale entry = false) := by
  have indexed := isIndexed_of_uses used
  have each {order : List CacheEntry} (reordered : order.Perm cache.entries) :
      (cache.withEntries order).FindsUsable now hash ↔
        ∀ entry, (cache.withEntries order).firstOf hash = some entry → cache.HasUsable hash →
          cache.isStale entry = false := by
    rw [findsUsable_iff (indexed.reorder reordered) on (works order reordered), hasUsable_of_perm reordered]
    rfl
  refine ⟨fun order reordered => ⟨each reordered, fun misses => ?_⟩, ?_⟩
  · exact dropped_of_not_findsUsable (indexed.reorder reordered) on (works order reordered) misses
  constructor
  · intro all entry member same usable
    -- In an order that starts with the entry it is the first one of the hash.
    have reordered : (entry :: cache.entries.erase entry).Perm cache.entries :=
      (List.perm_cons_erase member).symm
    refine (each reordered).mp (all _ reordered) entry ?_ usable
    exact List.find?_cons_of_pos (by simpa using same)
  · intro alike order reordered
    rw [each reordered]
    intro entry first usable
    obtain ⟨member, same⟩ := mem_of_firstOf first
    exact alike entry (reordered.subset member) same usable

/-- Of two entries with the same compiled code the first has lost its handle, so the second one is not found. -/
theorem output_lookups_exact_of_lost_handle :
    ∃ cache now hash,
      Relation.ReflTransGen Use (ofStore {} (some .empty) {}) cache ∧
        cache.enabled = true ∧
        cache.entries.map CacheEntry.key = ["a".toList, "b".toList] ∧
        cache.HasUsable hash ∧ ¬cache.FindsUsable now hash := by
  let artifact (url : Option Text) : Artifact :=
    ⟨"export default 1;".toList, [], "hash".toList, ⟨0, 0⟩, [], url, 17, [], none, none⟩
  let first : CacheEntry := ⟨['a'], artifact (some "blob:canvas/lost".toList), ⟨0, 0⟩, ⟨0, 0⟩, 0, 17, 0⟩
  let second : CacheEntry := ⟨['b'], artifact none, ⟨0, 0⟩, ⟨0, 0⟩, 0, 17, 1⟩
  obtain ⟨cache, used, working, entries, gone⟩ :
      ∃ cache, Relation.ReflTransGen Use (ofStore {} (some .empty) {}) cache ∧ cache.IsWorking ∧
        cache.entries = [first, second] ∧ cache.isStale first = true := by
    have opened : (ofStore {} (some .empty) {}).IsWorking := ⟨by decide +kernel, [], by decide +kernel⟩
    refine ⟨_, (Relation.ReflTransGen.single (.take ⟨0, 0⟩ ['a'] first.artifact)).tail
      (.take ⟨0, 0⟩ ['b'] second.artifact), (opened.taken _ _ _).taken _ _ _, ?_, ?_⟩
    · decide +kernel
    · decide +kernel
  have usable : cache.HasUsable "hash".toList := ⟨second, by simp [entries], rfl, rfl⟩
  have works (order : List CacheEntry) :
      ((cache.withEntries order).lookedUpByOutputHash ⟨0, 0⟩ "hash".toList).1.refused = false :=
    have reordered : (cache.withEntries order).IsWorking := ⟨working.enabled, working.store⟩
    reordered.lookedUpByOutputHash _ _
  obtain ⟨orders, -⟩ := output_lookups_exact used working.enabled ⟨0, 0⟩ "hash".toList fun order _ => works order
  refine ⟨cache, ⟨0, 0⟩, "hash".toList, used, working.enabled, by rw [entries]; rfl, usable, fun finds => ?_⟩
  have isFirst : (cache.withEntries cache.entries).firstOf "hash".toList = some first := by
    rw [firstOf, withEntries, entries]
    rfl
  have live := (orders cache.entries (.refl _)).1.mp finds first isFirst usable
  rw [gone] at live
  cases live

end Cache

end LiveComponent
