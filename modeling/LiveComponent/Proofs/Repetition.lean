import LiveComponent.Proofs.FreshSession

namespace LiveComponent

/-!
# Two requests in a row

What a successful request leaves in the cache is the answer to the next request under the same key, even
if that one asks for another form of the source.
-/

namespace Cache

/-- A cache that is on and whose store takes all documents. -/
structure IsWorking (cache : Cache) : Prop where
  enabled :
    cache.enabled = true
  store :
    ∃ documents, cache.store = some ⟨.memory documents, []⟩

/-- A cache that has an artifact under a key and can hand out its handle. -/
structure Offers (cache : Cache) (key : Text) (artifact : Artifact) : Prop where
  working :
    cache.IsWorking
  entry :
    ∃ entry, cache.find? key = some entry ∧ entry.artifact = artifact ∧ cache.isStale entry = false

variable {cache : Cache}

/-- Writing a cache changes nothing but its store, which goes on to take all documents. -/
theorem IsWorking.persisted_eq
    (working : cache.IsWorking) :
    ∃ documents,
      cache.persisted = { cache := { cache with store := some ⟨.memory documents, []⟩ } } := by
  obtain ⟨documents, store⟩ := working.store
  refine ⟨documents.put cache.persistenceKey cache.document.toText, ?_⟩
  simp [persisted, working.enabled, store, Store.set, Shelf.set, settled]

/-- A cache whose only entry holds an artifact that it has just taken over. -/
def holdingOnly (cache : Cache) (now : Instant) (key : Text) (artifact : Artifact) : Cache :=
  { cache with
    entries := [⟨key, artifact, now, now, 0, artifact.byteSize, cache.nextSeq⟩]
    nextSeq := cache.nextSeq + 1 }

/-- A working cache without entries takes over an artifact and evicts nothing. -/
theorem IsWorking.taken_eq
    (working : cache.IsWorking)
    (none : cache.entries = [])
    (now : Instant)
    (key : Text)
    (artifact : Artifact) :
    ∃ documents,
      cache.taken now key artifact =
        ({ cache := { cache.holdingOnly now key artifact with
            store := some ⟨.memory documents, []⟩ } }, true) := by
  have replaced : cache.replaced now key artifact =
      { cache := cache.holdingOnly now key artifact } := by
    simp [Cache.replaced, insert, find?, none, holdingOnly]
  have evicted : (cache.holdingOnly now key artifact).evicted (some key) =
      { cache := cache.holdingOnly now key artifact } := by
    simp [Cache.evicted, victims, addresses, holdingOnly]
  have holding : (cache.holdingOnly now key artifact).IsWorking := ⟨working.enabled, working.store⟩
  obtain ⟨documents, persisted⟩ := holding.persisted_eq
  refine ⟨documents, ?_⟩
  simp [Cache.taken, working.enabled, replaced, CacheChange.andThen, evicted, persisted,
    holding.enabled]

/-- A working cache without entries offers an artifact with a live handle once it has taken it over. -/
theorem IsWorking.offers_taken
    (working : cache.IsWorking)
    (none : cache.entries = [])
    (now : Instant)
    (key : Text)
    {artifact : Artifact}
    (live : ∀ url ∈ artifact.loadUrl, cache.registry.isLive url = true) :
    (cache.taken now key artifact).1.carryOut.Offers key artifact ∧
      (cache.taken now key artifact).2 = true := by
  obtain ⟨documents, taken⟩ := working.taken_eq none now key artifact
  rw [taken]
  have fresh : cache.isStale ⟨key, artifact, now, now, 0, artifact.byteSize, cache.nextSeq⟩ =
      false := by
    cases address : artifact.loadUrl with
    | none =>
        simp [isStale, address]
    | some url =>
        simpa [isStale, address] using live url address
  exact ⟨⟨⟨working.enabled, documents, rfl⟩, _, by simp [find?, holdingOnly], rfl, fresh⟩, rfl⟩

/-- An artifact that is offered is found, and the cache stays on. -/
theorem Offers.get_eq
    {key : Text}
    {artifact : Artifact}
    (offers : cache.Offers key artifact)
    (now : Instant) :
    ∃ after entry,
      cache.get now key = (after, some entry) ∧ entry.artifact = artifact ∧ after.enabled = true := by
  obtain ⟨entry, found, same, live⟩ := offers.entry
  have counted : (cache.countHit key now).IsWorking := ⟨offers.working.enabled, offers.working.store⟩
  obtain ⟨documents, persisted⟩ := counted.persisted_eq
  refine ⟨{ cache.countHit key now with store := some ⟨.memory documents, []⟩ }, entry.hit now, ?_,
    same, counted.enabled⟩
  simp [get, lookedUp, offers.working.enabled, found, live, persisted, counted.enabled]

end Cache

namespace Session

/-- A request is answered with the artifact that the cache offers under its key, with the metadata of
this artifact if it brings none itself. -/
theorem run_of_offers
    {session : Session}
    {request : SourceModule}
    {source : Text}
    {artifact : Artifact}
    (reads : Pipeline.readsCache request = true)
    (found : Pipeline.sourceOf session.pipeline.fetcher request = .ok source)
    (solid : Text.isBlankText source = false)
    (offers :
      session.cache.Offers (Cache.keyFor request.provenance (sha256Hex source)) artifact) :
    ∃ after answer,
      session.run [.process request] = (after, [.answered answer]) ∧
        answer.gist = .ofSuccess artifact.essence ∧
        answer.artifact =
          some { artifact with metadata := Pipeline.metadataOf request <|> artifact.metadata } ∧
        after.cache.enabled = true := by
  obtain ⟨cache, entry, hit, same, enabled⟩ := offers.get_eq session.moment.clock
  have hit : session.pipeline.cache.get session.moment.clock
      (Cache.keyFor request.provenance (sha256Hex source)) = (cache, some entry) := hit
  let answer := Pipeline.hitAnswer request entry
  let pipeline := { session.pipeline with
    cache := cache
    stats := session.pipeline.stats.record answer }
  have started : session.startTask (.process request) =
      ({ session with pipeline := pipeline }, .done (.answered answer)) := by
    simp [startTask, Pipeline.start, Pipeline.sourceText, found, solid, reads, hit, Pipeline.answer,
      pipeline, answer]
  refine ⟨_, answer, run_of_done started, ?_, ?_, enabled⟩ <;>
    rw [← same] <;>
    rfl

/-- With a working cache a fresh session offers the artifact of a successful request, and is fresh again
after a failed one. -/
theorem IsFresh.run_keeping
    {config : Config}
    {fetcher : Option Fetcher}
    {session : Session}
    {request : SourceModule}
    (fresh : session.IsFresh config fetcher)
    (working : session.cache.IsWorking)
    (keeps : request.wantsCache = true) :
    ∃ after answer,
      session.run [.process request] = (after, [.answered answer]) ∧
        answer.gist = Pipeline.verdict config fetcher request ∧
        (answer.success = false ∧ after.IsFresh config fetcher ∧ after.cache.IsWorking ∨
          answer.success = true ∧ ∃ source artifact,
            Pipeline.sourceOf fetcher request = .ok source ∧
              Text.isBlankText source = false ∧
              after.pipeline.fetcher = fetcher ∧
              after.cache.Offers (Cache.keyFor request.provenance (sha256Hex source)) artifact ∧
              answer.gist = .ofSuccess artifact.essence ∧ answer.artifact = some artifact) := by
  obtain ⟨after, answer, ran, gist, left⟩ := fresh.run_process request
  refine ⟨after, answer, ran, gist, ?_⟩
  rcases left with ⟨failed, again, enabled, store⟩ |
    ⟨succeeded, source, resolvedCode, artifact, found, solid, hash, url, -, sameFetcher, kept, told⟩
  · exact .inl ⟨failed, again, enabled ▸ working.enabled, store ▸ working.store⟩
  · have loaded : (loading session resolvedCode).pipeline.cache.IsWorking :=
      ⟨working.enabled, working.store⟩
    have live : ∀ url ∈ artifact.loadUrl,
        (loading session resolvedCode).pipeline.cache.registry.isLive url = true := by
      rw [url]
      rintro _ ⟨⟩
      simp [loading, loadingRegistry, Registry.isLive, Table.get?_cons]
    obtain ⟨offers, held⟩ := loaded.offers_taken fresh.entries session.moment.clock
      (Cache.keyFor request.provenance artifact.inputHash) live
    simp only [Pipeline.kept, keeps, if_true, held] at kept told
    refine .inr ⟨succeeded, source, artifact, found, solid, sameFetcher, ?_, ?_, told⟩
    · rw [kept, ← hash]
      exact offers
    · have verdictSucceeds : (Pipeline.verdict config fetcher request).success = true := by
        rw [← gist]
        exact succeeded
      obtain ⟨essence, same⟩ := Pipeline.verdict_of_success verdictSucceeds
      have told : answer.gist.artifact = some artifact.essence := congrArg (Option.map _) told
      rw [gist, same] at told ⊢
      exact congrArg Gist.ofSuccess (Option.some.inj told)

/-- Two requests with the same key in a row: a success of the first one is also the answer to the second
one, whatever form this declares and apart from the metadata that this brings; after a failure of the
first one the second one is compiled. -/
theorem IsFresh.run_twice
    {config : Config}
    {fetcher : Option Fetcher}
    {session : Session}
    {first second : SourceModule}
    (fresh : session.IsFresh config fetcher)
    (working : session.cache.IsWorking)
    (keeps : first.wantsCache = true)
    (reads : Pipeline.readsCache second = true)
    (channel : first.provenance = second.provenance)
    (source : Pipeline.sourceOf fetcher first = Pipeline.sourceOf fetcher second) :
    ∃ middle after early late,
      session.run [.process first] = (middle, [.answered early]) ∧
        middle.run [.process second] = (after, [.answered late]) ∧
        early.gist = Pipeline.verdict config fetcher first ∧
        late.gist =
          (if (Pipeline.verdict config fetcher first).success then
            Pipeline.verdict config fetcher first
          else
            Pipeline.verdict config fetcher second) ∧
        ((Pipeline.verdict config fetcher first).success = true →
          late.artifact = early.artifact.map fun artifact =>
            { artifact with metadata := Pipeline.metadataOf second <|> artifact.metadata }) ∧
        after.cache.enabled = true := by
  have keepsSecond : second.wantsCache = true := (Bool.and_eq_true_iff.mp reads).1
  obtain ⟨middle, early, ran, gist, left⟩ := fresh.run_keeping working keeps
  have success : (Pipeline.verdict config fetcher first).success = early.success :=
    (congrArg Gist.success gist).symm
  rcases left with ⟨failed, again, stillWorking⟩ |
    ⟨succeeded, code, artifact, found, solid, sameFetcher, offers, told, given⟩
  · obtain ⟨after, late, ranAgain, gistAgain, leftAgain⟩ := again.run_keeping stillWorking keepsSecond
    refine ⟨middle, after, early, late, ran, ranAgain, gist, ?_, ?_, ?_⟩
    · simp [success, failed, gistAgain]
    · simp [success, failed]
    · rcases leftAgain with ⟨-, -, after⟩ | ⟨-, _, _, -, -, -, after, -⟩
      · exact after.enabled
      · exact after.working.enabled
  · rw [channel] at offers
    rw [source, ← sameFetcher] at found
    obtain ⟨after, late, ranAgain, gistAgain, givenAgain, enabled⟩ :=
      run_of_offers reads found solid offers
    refine ⟨middle, after, early, late, ran, ranAgain, gist, ?_, fun _ => ?_, enabled⟩
    · rw [gistAgain, success, succeeded, if_pos rfl, ← told, gist]
    · rw [givenAgain, given]
      rfl

end Session

end LiveComponent
