import LiveComponent.Proofs.CacheOpening
import LiveComponent.Proofs.DocumentSize
import LiveComponent.Proofs.DocumentText

namespace LiveComponent

/-!
# The stored form of a cache

While a cache is on, its document lies in the store under its key, or the cache is empty and there is no
document.  Whatever uses the cache either writes it afterwards or leaves its entries as they are.
-/

/-! ## What a store takes over -/

/-- What a directory took over is found there, and it takes any shorter text in this place as well. -/
theorem FileStore.set_eq_ok
    {limit : Nat}
    {directory next : Directory}
    {key text : Text}
    (written : set limit directory key text = (next, .ok ())) :
    get next key = .ok (some text) ∧
      ∀ other, Text.byteSize other ≤ Text.byteSize text → (set limit next key other).2 = .ok () := by
  unfold set at written
  dsimp only at written
  split at written
  · cases written
  next fits =>
    split at written
    · cases written
    · split at written
      · cases written
      next free =>
        cases written
        simp only [Bool.or_eq_true, decide_eq_true_eq, not_or, Bool.not_eq_true] at free
        refine ⟨by simp [get, Directory.put, free.1, Table.get?_put], fun other shorter => ?_⟩
        have room : ¬limit < Text.byteSize other := by omega
        simp [set, Directory.put, Directory.files, room, free.1, Table.get?_put]

/-- What a directory removed is not found there. -/
theorem FileStore.remove_eq_ok
    {directory next : Directory}
    {key : Text}
    (removed : remove directory key = (next, .ok ())) :
    get next key = .ok none := by
  cases directory with
  | missing =>
      cases removed
      rfl
  | blocked =>
      cases removed
  | present files =>
      unfold remove at removed
      dsimp only at removed
      split at removed
      · cases removed
      next free =>
        cases removed
        simp only [Bool.or_eq_true, decide_eq_true_eq, not_or, Bool.not_eq_true] at free
        simp [get, free.1, Table.get?_erase]

/-- What a shelf took over is found there, and it takes any shorter text in this place as well. -/
theorem Shelf.set_eq_ok
    {shelf next : Shelf}
    {key text : Text}
    (written : shelf.set key text = (next, .ok ())) :
    next.get key = .ok (some text) ∧
      ∀ other, Text.byteSize other ≤ Text.byteSize text → (next.set key other).2 = .ok () := by
  cases shelf with
  | memory documents =>
      cases written
      exact ⟨by simp [get, Table.get?_put], fun _ _ => rfl⟩
  | files limit directory =>
      cases set : FileStore.set limit directory key text with
      | mk after result =>
          simp only [Shelf.set, set] at written
          cases written
          exact FileStore.set_eq_ok set

/-- What a shelf removed is not found there. -/
theorem Shelf.remove_eq_ok
    {shelf next : Shelf}
    {key : Text}
    (removed : shelf.remove key = (next, .ok ())) :
    next.get key = .ok none := by
  cases shelf with
  | memory documents =>
      cases removed
      simp [get, Table.get?_erase]
  | files limit directory =>
      cases remove : FileStore.remove directory key with
      | mk after result =>
          simp only [Shelf.remove, remove] at removed
          cases removed
          exact FileStore.remove_eq_ok remove

namespace Store

/-- A store that answers tells what lies on its shelf. -/
theorem get_eq_ok
    {store : Store}
    {key : Text}
    {found : Option Text}
    (answered : store.get key = .ok found) :
    store.shelf.get key = .ok found := by
  unfold get at answered
  split at answered
  · cases answered
  · exact answered

/-- A store that took over a document has put it on its shelf. -/
theorem set_eq_ok
    {store next : Store}
    {key text : Text}
    (written : store.set key text = (next, .ok ())) :
    store.shelf.set key text = (next.shelf, .ok ()) := by
  unfold set at written
  split at written
  · cases written
  · obtain ⟨rfl, result⟩ := Prod.mk.inj written
    exact Prod.ext rfl result

/-- A store that removed a document has removed it from its shelf. -/
theorem remove_eq_ok
    {store next : Store}
    {key : Text}
    (removed : store.remove key = (next, .ok ())) :
    store.shelf.remove key = (next.shelf, .ok ()) := by
  unfold remove at removed
  split at removed
  · cases removed
  · obtain ⟨rfl, result⟩ := Prod.mk.inj removed
    exact Prod.ext rfl result

/-- A store that refuses nothing takes over what its shelf takes over. -/
theorem exists_set_eq_ok
    {shelf : Shelf}
    {key text : Text}
    (taken : (shelf.set key text).2 = .ok ()) :
    ∃ next, set ⟨shelf, []⟩ key text = (next, .ok ()) :=
  ⟨⟨(shelf.set key text).1, []⟩, Prod.ext rfl taken⟩

end Store

/-! ## Entries and their order -/

namespace CacheEntry

/-- The entry apart from its place in the order of entries. -/
def unplaced (entry : CacheEntry) : CacheEntry :=
  { entry with seq := 0 }

end CacheEntry

/-- How a document lies on a shelf. -/
inductive Shelf.Keeps (shelf : Shelf) (key : Text) (document : CacheDocument) : Prop where
  /-- There is none, since it has no entries. -/
  | absent
      (nothing : shelf.get key = .ok none)
      (empty : document.entries = [])
  /-- It has been written, and the shelf takes any shorter text as well. -/
  | written
      (found : shelf.get key = .ok (some document.toText))
      (takes :
        ∀ text, Text.byteSize text ≤ Text.byteSize document.toText →
          (shelf.set key text).2 = .ok ())
  /-- It has been read, and no entry of it was dropped. -/
  | restored
      (text : Text)
      (origin : CacheDocument)
      (found : shelf.get key = .ok (some text))
      (read : CacheDocument.ofText? text = some origin)
      (version : origin.version = document.version)
      (entries :
        origin.entries.map CacheEntry.unplaced = document.entries.map CacheEntry.unplaced)
      (durable : ∀ entry ∈ document.entries, Cache.isDurable entry = true)

namespace Cache

/-! ## The order of the places -/

variable {entries order : List CacheEntry}

theorem isEarlier_trans
    (first second third : CacheEntry) :
    isEarlier first second = true → isEarlier second third = true → isEarlier first third = true := by
  simp only [isEarlier, decide_eq_true_eq]
  exact Nat.le_trans

theorem isEarlier_total
    (first second : CacheEntry) :
    (isEarlier first second || isEarlier second first) = true := by
  simp only [isEarlier, Bool.or_eq_true, decide_eq_true_eq]
  exact Nat.le_total _ _

/-- Entries in the order of their places are sorted as they are. -/
theorem mergeSort_of_ordered
    (ordered : entries.Pairwise fun first second => first.seq < second.seq) :
    entries.mergeSort isEarlier = entries :=
  List.mergeSort_of_pairwise (ordered.imp fun earlier => by
    simpa [isEarlier] using Nat.le_of_lt earlier)

/-- Sorted entries with places of their own are in the order of their places. -/
theorem ordered_mergeSort
    (placed : (entries.map CacheEntry.seq).Nodup) :
    (entries.mergeSort isEarlier).Pairwise fun first second => first.seq < second.seq := by
  have sorted := List.pairwise_mergeSort isEarlier_trans isEarlier_total entries
  have apart : (entries.mergeSort isEarlier).Pairwise fun first second => first.seq ≠ second.seq :=
    List.pairwise_map.mp (((List.mergeSort_perm entries isEarlier).map CacheEntry.seq).nodup_iff.mpr placed)
  refine (sorted.and apart).imp fun ⟨earlier, differ⟩ => ?_
  simp only [isEarlier, decide_eq_true_eq] at earlier
  exact Nat.lt_of_le_of_ne earlier differ

/-- Entries with places of their own are sorted alike in every order. -/
theorem mergeSort_of_perm
    (placed : (entries.map CacheEntry.seq).Nodup)
    (reordered : order.Perm entries) :
    order.mergeSort isEarlier = entries.mergeSort isEarlier := by
  have sorted : (order.mergeSort isEarlier).Perm (entries.mergeSort isEarlier) :=
    (List.mergeSort_perm _ _).trans (reordered.trans (List.mergeSort_perm _ _).symm)
  refine sorted.eq_of_pairwise (fun first second inside other one two => ?_)
    (List.pairwise_mergeSort isEarlier_trans isEarlier_total _)
    (List.pairwise_mergeSort isEarlier_trans isEarlier_total _)
  simp only [isEarlier, decide_eq_true_eq] at one two
  exact List.inj_on_of_nodup_map placed (reordered.subset (List.mem_mergeSort.mp inside))
    (List.mem_mergeSort.mp other) (Nat.le_antisymm one two)

/-- Of entries with places of their own, some are sorted as they stand among all of them. -/
theorem mergeSort_filter
    (placed : (entries.map CacheEntry.seq).Nodup)
    (keep : CacheEntry → Bool) :
    (entries.filter keep).mergeSort isEarlier = (entries.mergeSort isEarlier).filter keep := by
  have ordered := (ordered_mergeSort placed).sublist (List.filter_sublist (p := keep))
  have fewer : ((entries.filter keep).map CacheEntry.seq).Nodup :=
    placed.sublist (List.filter_sublist.map _)
  rw [← mergeSort_of_perm fewer ((List.mergeSort_perm entries isEarlier).filter keep), mergeSort_of_ordered ordered]

/-! ## Caches in order -/

/-- A cache of a configuration whose entries have keys and places of their own. -/
structure IsOrdered (config : Config) (cache : Cache) : Prop where
  version :
    cache.version = config.compilerTag
  key :
    cache.persistenceKey = config.persistenceKey
  present :
    cache.enabled = true → cache.store.isSome = true
  distinct :
    (cache.entries.map CacheEntry.key).Nodup
  placed :
    (cache.entries.map CacheEntry.seq).Nodup
  early :
    ∀ entry ∈ cache.entries, entry.seq < cache.nextSeq

/-- A cache whose document lies in the store while the cache is on. -/
structure IsWrittenThrough (config : Config) (cache : Cache) : Prop extends
    IsOrdered config cache where
  stored :
    cache.enabled = true →
      ∀ store ∈ cache.store, store.shelf.Keeps cache.persistenceKey cache.document

variable
  {config : Config}
  {cache : Cache}

/-- Entries in the order of their places are written as they are. -/
theorem document_of_ordered
    (ordered : cache.entries.Pairwise fun first second => first.seq < second.seq) :
    cache.document = ⟨cache.version, cache.entries⟩ := by
  rw [document, mergeSort_of_ordered ordered]

/-- The entries may be searched in any order. -/
theorem IsWrittenThrough.reorder
    {order : List CacheEntry}
    (written : cache.IsWrittenThrough config)
    (reordered : order.Perm cache.entries) :
    (cache.withEntries order).IsWrittenThrough config where
  version := written.version
  key := written.key
  present := written.present
  distinct := (reordered.map CacheEntry.key).nodup_iff.mpr written.distinct
  placed := (reordered.map CacheEntry.seq).nodup_iff.mpr written.placed
  early entry member := written.early entry (reordered.subset member)
  stored on store present := by
    have same : (cache.withEntries order).document = cache.document :=
      congrArg (CacheDocument.mk cache.version) (mergeSort_of_perm written.placed reordered)
    rw [same]
    exact written.stored on store present

/-- Fewer entries still have places of their own. -/
theorem IsOrdered.sublist
    {entries : List CacheEntry}
    (ordered : cache.IsOrdered config)
    (fewer : entries.Sublist cache.entries) :
    IsOrdered config { cache with entries := entries } where
  version := ordered.version
  key := ordered.key
  present := ordered.present
  distinct := ordered.distinct.sublist (fewer.map _)
  placed := ordered.placed.sublist (fewer.map _)
  early entry member := ordered.early entry (fewer.subset member)

/-- An entry that is inserted as the latest one has a place of its own. -/
theorem IsOrdered.insert
    {entry : CacheEntry}
    (ordered : cache.IsOrdered config)
    (latest : entry.seq = cache.nextSeq) :
    IsOrdered config { cache.insert entry with nextSeq := cache.nextSeq + 1 } where
  version := ordered.version
  key := ordered.key
  present := ordered.present
  distinct := distinct_insert ordered.distinct entry
  placed := by
    have before : ((cache.entries.filter fun other => other.key ≠ entry.key).map CacheEntry.seq).Nodup :=
      ordered.placed.sublist (List.filter_sublist.map _)
    have fresh : entry.seq ∉ (cache.entries.filter fun other => other.key ≠ entry.key).map CacheEntry.seq := by
      intro member
      obtain ⟨other, inside, same⟩ := List.mem_map.mp member
      have earlier := ordered.early other (List.mem_of_mem_filter inside)
      omega
    rw [Cache.insert, List.map_append, List.map_singleton]
    exact List.nodup_append.mpr ⟨before, List.nodup_singleton _, fun seq member other single => by
      rw [List.mem_singleton.mp single]
      exact ne_of_mem_of_not_mem member fresh⟩
  early other member := by
    rcases List.mem_append.mp member with old | new
    · exact Nat.lt_succ_of_lt (ordered.early other (List.mem_of_mem_filter old))
    · rw [List.mem_singleton.mp new, latest]
      exact Nat.lt_succ_self _

/-- A hit changes no place in the order. -/
theorem IsOrdered.countHit
    (ordered : cache.IsOrdered config)
    (key : Text)
    (now : Instant) :
    IsOrdered config (cache.countHit key now) := by
  have place (entry : CacheEntry) :
      (if entry.key = key then entry.hit now else entry).seq = entry.seq := by
    split <;> rfl
  refine { ordered with distinct := ?_, placed := ?_, early := fun entry member => ?_ }
  · rw [keys_eq_of_content (content_countHit cache key now)]
    exact ordered.distinct
  · have same : (cache.countHit key now).entries.map CacheEntry.seq = cache.entries.map CacheEntry.seq := by
      rw [Cache.countHit, List.map_map]
      exact List.map_congr_left fun entry _ => place entry
    rw [same]
    exact ordered.placed
  · obtain ⟨old, oldMember, rfl⟩ := List.mem_map.mp member
    rw [place]
    exact ordered.early old oldMember

/-! ## Writing -/

/-- A cache that is off is written through. -/
theorem IsWrittenThrough.of_off
    (ordered : cache.IsOrdered config)
    (off : cache.enabled = false) :
    cache.IsWrittenThrough config :=
  { ordered with stored := fun on => by rw [off] at on; cases on }

/-- A cache that gave up is off. -/
theorem IsOrdered.disabled
    (ordered : cache.IsOrdered config) :
    cache.disabled.cache.IsWrittenThrough config :=
  .of_off
    { version := ordered.version
      key := ordered.key
      present := fun on => by cases on
      distinct := List.nodup_nil
      placed := List.nodup_nil
      early := List.forall_mem_nil _ }
    rfl

/-- After a call of the store the cache is off, or the call succeeded. -/
theorem IsOrdered.settled
    {outcome : Store × Except StoreFailure Unit}
    (ordered : cache.IsOrdered config)
    (stored : outcome.2 = .ok () → outcome.1.shelf.Keeps cache.persistenceKey cache.document) :
    (cache.settled outcome).cache.IsWrittenThrough config := by
  obtain ⟨store, result⟩ := outcome
  have kept : IsOrdered config { cache with store := some store } :=
    { ordered with present := fun _ => rfl }
  cases result with
  | error failure =>
      exact kept.disabled
  | ok =>
      refine { kept with stored := fun _ given same => ?_ }
      obtain rfl := Option.some.inj same
      exact stored rfl

/-- A cache that its store takes over stays as it is. -/
theorem persisted_of_set
    {store next : Store}
    (on : cache.enabled = true)
    (present : cache.store = some store)
    (set : store.set cache.persistenceKey cache.document.toText = (next, .ok ())) :
    cache.persisted = { cache := { cache with store := some next } } := by
  simp [Cache.persisted, on, present, set, Cache.settled]

/-- A cache that was just written is written through. -/
theorem IsOrdered.persisted
    (ordered : cache.IsOrdered config) :
    cache.persisted.cache.IsWrittenThrough config := by
  unfold Cache.persisted
  split
  next store on present =>
    refine ordered.settled fun succeeded => ?_
    obtain ⟨found, takes⟩ := Shelf.set_eq_ok (Store.set_eq_ok (Prod.ext rfl succeeded))
    exact .written found takes
  next never =>
    refine .of_off ordered (Bool.eq_false_iff.mpr fun on => ?_)
    obtain ⟨store, present⟩ := Option.isSome_iff_exists.mp (ordered.present on)
    exact never store on present

/-- An empty cache whose document was removed is written through. -/
theorem IsOrdered.forgotten
    (ordered : cache.IsOrdered config)
    (on : cache.enabled = true)
    (empty : cache.entries = []) :
    cache.forgotten.cache.IsWrittenThrough config := by
  obtain ⟨store, present⟩ := Option.isSome_iff_exists.mp (ordered.present on)
  simp only [Cache.forgotten, present]
  refine ordered.settled fun succeeded => ?_
  refine .absent (Shelf.remove_eq_ok (Store.remove_eq_ok (Prod.ext rfl succeeded))) ?_
  rw [document_of_ordered (empty ▸ List.Pairwise.nil), empty]

/-! ## Using the cache -/

/-- What a step of a call can do to a cache. -/
inductive Use (cache : Cache) : Cache → Prop where
  | handles
      (registry : Registry) :
      Use cache { cache with registry := registry }
  | lookUp
      (now : Instant)
      (key : Text) :
      Use cache (cache.lookedUp now key).1.cache
  | take
      (now : Instant)
      (key : Text)
      (artifact : Artifact) :
      Use cache (cache.taken now key artifact).1.cache
  | prune :
      Use cache cache.pruned.cache
  | clear :
      Use cache cache.cleared.cache

namespace IsWrittenThrough

/-- The handles are not written. -/
theorem withRegistry
    (written : cache.IsWrittenThrough config)
    (registry : Registry) :
    IsWrittenThrough config { cache with registry := registry } :=
  { written with }

/-- Looking up an entry writes the hit or the loss of a stale entry. -/
theorem lookedUp
    (written : cache.IsWrittenThrough config)
    (now : Instant)
    (key : Text) :
    (cache.lookedUp now key).1.cache.IsWrittenThrough config := by
  unfold Cache.lookedUp
  split
  · exact written
  · split
    · exact written
    · split
      · exact (written.sublist List.filter_sublist).persisted
      · exact (written.countHit key now).persisted

/-- Taking over an artifact writes the cache. -/
theorem taken
    (written : cache.IsWrittenThrough config)
    (now : Instant)
    (key : Text)
    (artifact : Artifact) :
    (cache.taken now key artifact).1.cache.IsWrittenThrough config := by
  unfold Cache.taken
  split
  · exact written
  · have replaced : (cache.replaced now key artifact).cache.IsOrdered config :=
      written.insert rfl
    have evicted : ((cache.replaced now key artifact).cache.evicted (some key)).cache.IsOrdered
        config :=
      replaced.sublist List.filter_sublist
    exact evicted.persisted

/-- Whatever a step of a call does to the cache, it is written through afterwards. -/
theorem use
    {next : Cache}
    (written : cache.IsWrittenThrough config)
    (used : cache.Use next) :
    next.IsWrittenThrough config := by
  cases used with
  | handles registry =>
      exact written.withRegistry registry
  | lookUp now key =>
      exact written.lookedUp now key
  | take now key artifact =>
      exact written.taken now key artifact
  | prune =>
      unfold pruned
      split
      · exact written
      · exact (written.sublist List.filter_sublist : (cache.evicted none).cache.IsOrdered config).persisted
  | clear =>
      have drained : cache.drained.cache.IsOrdered config :=
        written.sublist (List.nil_sublist cache.entries)
      simp only [cleared, CacheChange.andThen]
      split
      next on =>
        exact drained.forgotten on rfl
      next off =>
        exact .of_off drained (Bool.eq_false_iff.mpr off)

end IsWrittenThrough

/-! ## Restoring -/

/-- An entry under a new key is restored behind the others. -/
theorem entries_restoreEntry
    {entry : CacheEntry}
    (fresh : ∀ other ∈ cache.entries, other.key ≠ entry.key) :
    (cache.restoreEntry entry).entries =
      cache.entries ++ [{ entry with seq := cache.nextSeq }] := by
  have stays : cache.entries.filter (fun other => other.key ≠ entry.key) = cache.entries :=
    List.filter_eq_self.mpr fun other member => by simpa using fresh other member
  simp only [restoreEntry, insert, stays]

/-- Entries under new keys are restored in their order behind the others. -/
theorem foldl_restoreEntry_eq
    (cache : Cache)
    (entries : List CacheEntry)
    (distinct : ((cache.entries ++ entries).map CacheEntry.key).Nodup) :
    entries.foldl restoreEntry cache =
      { cache with
        entries := cache.entries ++ CacheEntry.renumbered cache.nextSeq entries
        nextSeq := cache.nextSeq + entries.length } := by
  induction entries generalizing cache with
  | nil =>
      simp [CacheEntry.renumbered]
  | cons entry rest inductionHypothesis =>
      have fresh : ∀ other ∈ cache.entries, other.key ≠ entry.key := by
        intro other member
        rw [List.map_append, List.nodup_append] at distinct
        exact distinct.2.2 _ (List.mem_map_of_mem member) _
          (List.mem_map_of_mem List.mem_cons_self)
      have restored := entries_restoreEntry fresh
      have later := inductionHypothesis (cache.restoreEntry entry) (by
        rw [restored]
        simpa using distinct)
      rw [List.foldl_cons, later, restored]
      simp [restoreEntry, insert, CacheEntry.renumbered, Nat.add_comm, Nat.add_left_comm]

theorem length_restoreEntry
    (cache : Cache)
    (entry : CacheEntry) :
    (cache.restoreEntry entry).entries.length =
      (cache.entries.filter fun other => other.key ≠ entry.key).length + 1 := by
  simp [restoreEntry, insert]

/-- No more entries are restored than there are. -/
theorem length_foldl_restoreEntry_le
    (cache : Cache)
    (entries : List CacheEntry) :
    (entries.foldl restoreEntry cache).entries.length ≤ cache.entries.length + entries.length := by
  induction entries generalizing cache with
  | nil =>
      exact Nat.le_refl _
  | cons entry rest inductionHypothesis =>
      have later := inductionHypothesis (cache.restoreEntry entry)
      have fewer := List.length_filter_le (fun other => decide (other.key ≠ entry.key)) cache.entries
      rw [length_restoreEntry] at later
      rw [List.foldl_cons, List.length_cons]
      omega

/-- If as many entries are restored as there are, their keys are distinct and new. -/
theorem distinct_of_length_foldl
    (cache : Cache)
    (entries : List CacheEntry)
    (distinct : (cache.entries.map CacheEntry.key).Nodup)
    (all :
      cache.entries.length + entries.length ≤ (entries.foldl restoreEntry cache).entries.length) :
    ((cache.entries ++ entries).map CacheEntry.key).Nodup := by
  induction entries generalizing cache with
  | nil =>
      simpa using distinct
  | cons entry rest inductionHypothesis =>
      have bound := length_foldl_restoreEntry_le (cache.restoreEntry entry) rest
      have stays : cache.entries.length ≤
          (cache.entries.filter fun other => other.key ≠ entry.key).length := by
        rw [length_restoreEntry] at bound
        rw [List.foldl_cons, List.length_cons] at all
        omega
      have fresh : ∀ other ∈ cache.entries, other.key ≠ entry.key := by
        have whole := List.length_filter_eq_length_iff.mp
          (Nat.le_antisymm (List.length_filter_le _ _) stays)
        exact fun other member => by simpa using whole other member
      have restored := entries_restoreEntry fresh
      have later := inductionHypothesis (cache.restoreEntry entry)
        (distinct_insert distinct _) (by
          rw [restored]
          simpa [Nat.add_comm, Nat.add_left_comm] using all)
      rw [restored] at later
      simpa using later

/-- Restoring entries keeps their order. -/
theorem IsOrdered.foldl_restoreEntry
    (ordered : cache.IsOrdered config)
    (entries : List CacheEntry) :
    (entries.foldl restoreEntry cache).IsOrdered config := by
  induction entries generalizing cache with
  | nil =>
      exact ordered
  | cons entry rest inductionHypothesis =>
      exact inductionHypothesis (ordered.insert rfl)

/-- A new cache is in order. -/
theorem isOrdered_empty
    (config : Config)
    (store : Option Store)
    (registry : Registry) :
    (empty config store registry).IsOrdered config where
  version := rfl
  key := rfl
  present on := on
  distinct := List.nodup_nil
  placed := List.nodup_nil
  early := List.forall_mem_nil _

end Cache

namespace CacheEntry

theorem length_renumbered
    (start : Nat)
    (entries : List CacheEntry) :
    (renumbered start entries).length = entries.length := by
  induction entries generalizing start with
  | nil =>
      rfl
  | cons entry rest inductionHypothesis =>
      rw [renumbered, List.length_cons, List.length_cons, inductionHypothesis]

/-- Entries that are counted anew are at their start or later. -/
theorem le_seq_of_mem_renumbered
    (start : Nat)
    (entries : List CacheEntry) :
    ∀ entry ∈ renumbered start entries, start ≤ entry.seq := by
  induction entries generalizing start with
  | nil =>
      exact List.forall_mem_nil _
  | cons entry rest inductionHypothesis =>
      refine List.forall_mem_cons.mpr ⟨Nat.le_refl _, fun other member => ?_⟩
      exact Nat.le_of_succ_le (inductionHypothesis (start + 1) other member)

/-- Entries that are counted anew are in the order of their places. -/
theorem ordered_renumbered
    (start : Nat)
    (entries : List CacheEntry) :
    (renumbered start entries).Pairwise fun first second => first.seq < second.seq := by
  induction entries generalizing start with
  | nil =>
      exact List.Pairwise.nil
  | cons entry rest inductionHypothesis =>
      exact List.pairwise_cons.mpr
        ⟨le_seq_of_mem_renumbered (start + 1) rest, inductionHypothesis (start + 1)⟩

/-- Counting entries anew changes nothing but their places. -/
theorem unplaced_renumbered
    (start : Nat)
    (entries : List CacheEntry) :
    (renumbered start entries).map unplaced = entries.map unplaced := by
  induction entries generalizing start with
  | nil =>
      rfl
  | cons entry rest inductionHypothesis =>
      rw [renumbered, List.map_cons, List.map_cons, inductionHypothesis]
      rfl

/-- Which entries are durable does not depend on their places. -/
theorem unplaced_filter_durable
    (entries : List CacheEntry) :
    (entries.filter Cache.isDurable).map unplaced = (entries.map unplaced).filter Cache.isDurable := by
  rw [List.filter_map]
  rfl

/-- Entries that differ in their places only have the same keys. -/
theorem keys_eq_of_unplaced
    {first second : List CacheEntry}
    (same : first.map unplaced = second.map unplaced) :
    second.map key = first.map key := by
  have keys (entries : List CacheEntry) : entries.map key = (entries.map unplaced).map key := by
    rw [List.map_map]
    rfl
  rw [keys first, keys second, same]

end CacheEntry

namespace Cache

variable {config : Config}

/-- A restored cache is written through: it is written if an entry was dropped. -/
theorem isWrittenThrough_restore
    {store : Store}
    {text : Text}
    {document : CacheDocument}
    (found : store.get config.persistenceKey = .ok (some text))
    (read : CacheDocument.ofText? text = some document)
    (version : document.version = config.compilerTag)
    (registry : Registry) :
    ((empty config (some store) registry).restore document).IsWrittenThrough config := by
  have ordered := (isOrdered_empty config (some store) registry).foldl_restoreEntry
    (document.entries.filter isDurable)
  unfold restore
  dsimp only
  split
  · exact ordered.persisted.withRegistry _
  next all =>
    have total := length_foldl_restoreEntry_le (empty config (some store) registry)
      (document.entries.filter isDurable)
    have fewer := List.length_filter_le isDurable document.entries
    have none : (empty config (some store) registry).entries.length = 0 := rfl
    have durable : ∀ entry ∈ document.entries, isDurable entry = true :=
      List.length_filter_eq_length_iff.mp (by omega)
    have lasting := ((opened_empty config (some store) registry).foldl_restoreEntry rfl durable).durable
    rw [List.filter_eq_self.mpr durable] at all ordered ⊢
    have distinct := distinct_of_length_foldl (empty config (some store) registry) document.entries
      List.nodup_nil (by rw [none, Nat.zero_add]; exact Nat.le_of_not_lt all)
    have shape := foldl_restoreEntry_eq _ _ distinct
    rw [shape] at ordered lasting ⊢
    refine { ordered with stored := fun _ given same => ?_ }
    obtain rfl := Option.some.inj same
    rw [document_of_ordered (CacheEntry.ordered_renumbered 0 document.entries)]
    exact .restored text document (Store.get_eq_ok found) read version
      (CacheEntry.unplaced_renumbered 0 document.entries).symm lasting

/-- Over every store a new cache is written through from the start. -/
theorem isWrittenThrough_ofStore
    (config : Config)
    (store : Option Store)
    (registry : Registry) :
    (ofStore config store registry).IsWrittenThrough config := by
  have ordered := isOrdered_empty config store registry
  unfold ofStore
  split
  · exact .of_off ordered rfl
  next store =>
    dsimp only
    split
    · exact ordered.disabled.withRegistry _
    next nothing =>
      refine { ordered with stored := fun _ given same => ?_ }
      obtain rfl := Option.some.inj same
      exact .absent (Store.get_eq_ok nothing) (congrArg CacheDocument.entries (document_of_ordered .nil))
    next text found =>
      split
      · exact (ordered.forgotten rfl rfl).withRegistry _
      next document read =>
        split
        next version =>
          exact isWrittenThrough_restore found read version registry
        · exact (ordered.forgotten rfl rfl).withRegistry _

/-! ## Opening a cache again -/

/-- A store with a document of the same compiler leads to a restored cache. -/
theorem ofStore_eq_restore
    {store : Store}
    {text : Text}
    {document : CacheDocument}
    (found : store.get config.persistenceKey = .ok (some text))
    (read : CacheDocument.ofText? text = some document)
    (version : document.version = config.compilerTag)
    (registry : Registry) :
    ofStore config (some store) registry =
      (empty config (some store) registry).restore document := by
  have key : (empty config (some store) registry).persistenceKey = config.persistenceKey := rfl
  have tag : (empty config (some store) registry).version = config.compilerTag := rfl
  simp [ofStore, key, tag, found, read, version]

/-- A document with distinct keys is restored up to the entries that are not durable, if the shelf takes
what is left when some are dropped. -/
theorem restore_distinct
    (config : Config)
    (shelf : Shelf)
    (document : CacheDocument)
    (distinct : (document.entries.map CacheEntry.key).Nodup)
    (takes :
      let kept := CacheEntry.renumbered 0 (document.entries.filter isDurable)
      kept.length < document.entries.length →
        (shelf.set config.persistenceKey (CacheDocument.toText ⟨config.compilerTag, kept⟩)).2 =
          .ok ())
    (registry : Registry) :
    let reopened := (empty config (some ⟨shelf, []⟩) registry).restore document
    reopened.enabled = true ∧
      reopened.entries = CacheEntry.renumbered 0 (document.entries.filter isDurable) := by
  have shape := foldl_restoreEntry_eq (empty config (some ⟨shelf, []⟩) registry)
    (document.entries.filter isDurable) (distinct.sublist (List.filter_sublist.map _))
  unfold restore
  dsimp only
  rw [shape]
  split
  next dropped =>
    obtain ⟨next, set⟩ := Store.exists_set_eq_ok (takes dropped)
    rw [persisted_of_set rfl rfl (by
      rw [document_of_ordered (CacheEntry.ordered_renumbered 0 (document.entries.filter isDurable))]
      exact set)]
    exact ⟨rfl, rfl⟩
  next =>
    exact ⟨rfl, rfl⟩

/-- The document in the store stands for the entries of a cache that is written through, in the order of their
places; without entries there may be none. -/
theorem IsWrittenThrough.mirrored
    {cache : Cache}
    {store : Store}
    (written : cache.IsWrittenThrough config)
    (on : cache.enabled = true)
    (storable : ∀ entry ∈ cache.entries, entry.IsStorable)
    (present : cache.store = some store) :
    store.shelf.get config.persistenceKey = .ok none ∧ cache.entries = [] ∨
      ∃ text document,
        store.shelf.get config.persistenceKey = .ok (some text) ∧
          CacheDocument.ofText? text = some document ∧
          document.version = config.compilerTag ∧
          document.entries.map CacheEntry.unplaced =
            (cache.entries.mergeSort isEarlier).map CacheEntry.unplaced := by
  have keeps := written.stored on store present
  rw [document, written.version, written.key] at keeps
  cases keeps with
  | absent nothing empty =>
      have none : cache.entries.Perm [] := empty ▸ (List.mergeSort_perm cache.entries isEarlier).symm
      exact .inl ⟨nothing, none.eq_nil⟩
  | written found takes =>
      have sorted : ∀ entry ∈ cache.entries.mergeSort isEarlier, entry.IsStorable :=
        fun entry member => storable entry (List.mem_mergeSort.mp member)
      exact .inr ⟨_, _, found, CacheDocument.ofText?_toText sorted, rfl, rfl⟩
  | restored text document found read version entries durable =>
      exact .inr ⟨text, document, found, read, version, entries⟩

/-- A cache that is written through can be opened again: over the store as it is, a new cache has exactly
the durable entries, in the order of their places. -/
theorem IsWrittenThrough.reopen
    {cache : Cache}
    {store : Store}
    (written : cache.IsWrittenThrough config)
    (on : cache.enabled = true)
    (storable : ∀ entry ∈ cache.entries, entry.IsStorable)
    (present : cache.store = some store)
    (registry : Registry) :
    let reopened := ofStore config (some ⟨store.shelf, []⟩) registry
    reopened.enabled = true ∧
      reopened.entries.Pairwise (fun first second => first.seq < second.seq) ∧
      reopened.entries.map CacheEntry.unplaced =
        ((cache.entries.mergeSort isEarlier).filter isDurable).map CacheEntry.unplaced := by
  have keeps := written.stored on store present
  have sorted := List.mergeSort_perm cache.entries isEarlier
  rw [document, written.version, written.key] at keeps
  cases keeps with
  | absent nothing empty =>
      have reading : (⟨store.shelf, []⟩ : Store).get config.persistenceKey = .ok none := nothing
      have entries : cache.entries.mergeSort isEarlier = [] := empty
      have key : (Cache.empty config (some ⟨store.shelf, []⟩) registry).persistenceKey =
          config.persistenceKey := rfl
      simp only [ofStore, key, reading, entries]
      exact ⟨rfl, .nil, rfl⟩
  | written found takes =>
      have reading : (⟨store.shelf, []⟩ : Store).get config.persistenceKey = .ok (some _) := found
      rw [ofStore_eq_restore reading
        (CacheDocument.ofText?_toText fun entry member => storable entry (sorted.subset member)) rfl]
      have smaller := CacheEntry.sum_writtenSize_renumbered_le 0 (ordered_mergeSort written.placed)
        (fun entry _ => Nat.zero_le _) isDurable
      have reopened := restore_distinct config store.shelf
        ⟨config.compilerTag, cache.entries.mergeSort isEarlier⟩
        ((sorted.map CacheEntry.key).nodup_iff.mpr written.distinct)
        (fun _ => takes _ (CacheDocument.byteSize_toText_le smaller)) registry
      refine ⟨reopened.1, ?_, ?_⟩
      · rw [reopened.2]
        exact CacheEntry.ordered_renumbered 0 _
      · rw [reopened.2, CacheEntry.unplaced_renumbered]
  | restored text document found read version entries durable =>
      have reading : (⟨store.shelf, []⟩ : Store).get config.persistenceKey = .ok (some text) := found
      rw [ofStore_eq_restore reading read version]
      have distinct : (document.entries.map CacheEntry.key).Nodup :=
        CacheEntry.keys_eq_of_unplaced entries ▸ (sorted.map CacheEntry.key).nodup_iff.mpr written.distinct
      have all : document.entries.filter isDurable = document.entries :=
        List.filter_eq_self.mpr fun entry member => by
          have image := List.mem_map_of_mem (f := CacheEntry.unplaced) member
          rw [entries] at image
          obtain ⟨old, oldMember, same⟩ := List.mem_map.mp image
          have sameArtifact : old.artifact = entry.artifact :=
            (congrArg CacheEntry.artifact same : old.unplaced.artifact = entry.unplaced.artifact)
          have lasting := durable old oldMember
          rwa [isDurable, sameArtifact] at lasting
      have reopened := restore_distinct config store.shelf document distinct
        (fun dropped => by
          rw [all, CacheEntry.length_renumbered] at dropped
          exact absurd dropped (Nat.lt_irrefl _))
        registry
      refine ⟨reopened.1, ?_, ?_⟩
      · rw [reopened.2]
        exact CacheEntry.ordered_renumbered 0 _
      · rw [reopened.2, CacheEntry.unplaced_renumbered, CacheEntry.unplaced_filter_durable, entries,
          ← CacheEntry.unplaced_filter_durable]

end Cache

end LiveComponent
