import LiveComponent.Proofs.LoneCalls
import LiveComponent.Proofs.Validation

namespace LiveComponent

/-!
# The course of a request that is alone

What a request that is alone has done by each of its stages, as long as the store refuses nothing: which
lookups it has made and what they found, and which handle it holds.  A request that fails gives back what it
took, and so only the hit of an entry that could not be used may be left of it.
-/

/-! ## Registries with the same books -/

/-- The same handles have references, equally many, and the same modules are loadable. -/
structure Registry.Agrees (first second : Registry) : Prop where
  refs :
    second.refs = first.refs
  modules :
    second.loader.modules = first.loader.modules

namespace Registry

variable {first second third : Registry}

namespace Agrees

theorem refl
    (registry : Registry) :
    registry.Agrees registry :=
  ⟨rfl, rfl⟩

theorem trans
    (agrees : first.Agrees second)
    (more : second.Agrees third) :
    first.Agrees third :=
  ⟨more.refs.trans agrees.refs, more.modules.trans agrees.modules⟩

/-- A release changes books that agree alike. -/
theorem release
    (agrees : first.Agrees second)
    (url : Text) :
    (first.release url).Agrees (second.release url) := by
  obtain ⟨refs, modules⟩ := agrees
  unfold Registry.release
  rw [refs]
  split
  · exact ⟨refs, modules⟩
  · split
    · exact ⟨rfl, modules⟩
    · exact ⟨rfl, congrArg (Table.erase · url) modules⟩

/-- Releases change books that agree alike. -/
theorem releaseAll
    (agrees : first.Agrees second)
    (urls : List Text) :
    (first.releaseAll urls).Agrees (second.releaseAll urls) := by
  induction urls generalizing first second with
  | nil =>
      exact agrees
  | cons url urls inductionHypothesis =>
      exact inductionHypothesis (agrees.release url)

end Agrees

/-- A handle that is acquired and released leaves the books as they were. -/
theorem agrees_release_acquire
    {registry after : Registry}
    {code : Text}
    {handle : Handle}
    (sound : registry.Sound)
    (acquired : registry.acquire code = .ok (after, handle)) :
    registry.Agrees (after.release handle.url) := by
  obtain ⟨made, counted⟩ := acquire_eq_ok acquired
  obtain ⟨-, loader⟩ := Loader.materialize_eq_ok made
  have modules := congrArg Loader.modules loader
  have taken : after.refCount handle.url = registry.refCount handle.url + 1 := by
    simpa using refCount_acquire acquired handle.url
  cases found : registry.refs.get? handle.url with
  | some count =>
      have held : registry.refCount handle.url = count := refCount_of_get? found
      have positive := sound.positive _ _ found
      have resident : (registry.loader.modules.get? handle.url).isSome = true := by
        simpa [Loader.isResident, found] using sound.resident handle.url
      rw [if_pos resident] at modules
      rw [release_of_many (by omega)]
      refine ⟨?_, modules⟩
      dsimp only
      rw [counted, taken, Table.put_put, Nat.add_sub_cancel, held, Table.put_of_get? found]
  | none =>
      have held : registry.refCount handle.url = 0 := refCount_of_get?_none found
      have absent : registry.loader.modules.get? handle.url = none := by
        simpa [Loader.isResident, found] using sound.resident handle.url
      rw [if_neg (by simp [absent])] at modules
      rw [release_of_one (by omega)]
      refine ⟨?_, ?_⟩
      · dsimp only
        rw [counted, Table.erase_put_of_get?_none found]
      · exact (congrArg (Table.erase · handle.url) modules).trans (Table.erase_put_of_get?_none absent)

end Registry

/-! ## Sessions that match -/

/-- The second session differs from the first one only in its history, its loads, its time and the ways of its
loader. -/
structure Session.Matches (first second : Session) : Prop where
  config :
    second.pipeline.config = first.pipeline.config
  fetcher :
    second.pipeline.fetcher = first.pipeline.fetcher
  cache :
    second.cache = { first.cache with registry := second.cache.registry }
  registry :
    first.cache.registry.Agrees second.cache.registry

namespace Session

variable {first second third : Session}

namespace Matches

/-- A session with the same work matches. -/
theorem of_cache
    (config : second.pipeline.config = first.pipeline.config)
    (fetcher : second.pipeline.fetcher = first.pipeline.fetcher)
    (cache : second.cache = first.cache) :
    first.Matches second := by
  refine ⟨config, fetcher, ?_, ?_⟩
  · rw [cache]
  · rw [cache]
    exact .refl _

theorem refl
    (session : Session) :
    session.Matches session :=
  of_cache rfl rfl rfl

theorem trans
    (isLike : first.Matches second)
    (more : second.Matches third) :
    first.Matches third where
  config := more.config.trans isLike.config
  fetcher := more.fetcher.trans isLike.fetcher
  cache := by
    rw [more.cache, isLike.cache]
  registry := isLike.registry.trans more.registry

/-- The entries of sessions that match are the same. -/
theorem entries
    (isLike : first.Matches second) :
    second.cache.entries = first.cache.entries := by
  rw [isLike.cache]

/-- The stores of sessions that match are the same. -/
theorem store
    (isLike : first.Matches second) :
    second.cache.store = first.cache.store := by
  rw [isLike.cache]

/-- A request has the same source in sessions that match. -/
theorem sourceText
    (isLike : first.Matches second)
    (request : SourceModule) :
    second.pipeline.sourceText request = first.pipeline.sourceText request := by
  rw [Pipeline.sourceText, Pipeline.sourceText, isLike.fetcher]

/-- Releases keep sessions alike. -/
theorem releaseAll
    (isLike : first.Matches second)
    (urls : List Text) :
    (first.withRegistry (first.registry.releaseAll urls)).Matches
      (second.withRegistry (second.registry.releaseAll urls)) where
  config := isLike.config
  fetcher := isLike.fetcher
  cache := congrArg
    (fun cache : Cache => { cache with registry := second.registry.releaseAll urls }) isLike.cache
  registry := isLike.registry.releaseAll urls

/-- Another registry with the same books. -/
theorem withRegistry
    {registry : Registry}
    (isLike : first.Matches second)
    (agrees : second.cache.registry.Agrees registry) :
    first.Matches (second.withRegistry registry) :=
  isLike.trans ⟨rfl, rfl, rfl, agrees⟩

/-- An answer changes the history only. -/
theorem answer
    (isLike : first.Matches second)
    (request : SourceModule)
    (answer : Answer) :
    first.Matches (second.answer request answer).1 :=
  isLike.trans (of_cache rfl rfl rfl)

end Matches

/-- Whatever else happens, a session stays as it was. -/
theorem Idles.matches
    {events : List Event}
    (idles : first.Idles events second) :
    first.Matches second := by
  cases idles <;> exact ⟨rfl, rfl, rfl, rfl, rfl⟩

end Session

/-! ## Lookups while the store works -/

namespace Cache

variable {cache : Cache}

/-- A cache that is written without being refused gives nothing back. -/
theorem persisted_of_quiet
    (quiet : cache.persisted.refused = false) :
    cache.persisted = { cache := cache.persisted.cache } ∧
      cache.persisted.cache.enabled = cache.enabled := by
  unfold persisted settled at quiet ⊢
  split
  next store on present =>
    simp only [on, present] at quiet
    split at quiet
    next =>
      exact ⟨rfl, rfl⟩
    next =>
      cases quiet
  next =>
    exact ⟨rfl, rfl⟩

/-- A lookup that the store does not refuse finds nothing, or counts a hit. -/
theorem lookedUp_of_quiet
    {now : Instant}
    {key : Text}
    (sound : cache.Sound)
    (backed : cache.Backed)
    (quiet : (cache.lookedUp now key).1.refused = false) :
    (cache.lookedUp now key = ({ cache }, none) ∧ cache.find? key = none) ∨
      ∃ entry, cache.find? key = some entry ∧
        (cache.countHit key now).persisted.cache.entries = (cache.countHit key now).entries ∧
        cache.lookedUp now key =
          ({ cache := (cache.countHit key now).persisted.cache }, some (entry.hit now)) := by
  obtain ⟨missed, unknown⟩ | ⟨entry, on, found, hit⟩ := lookedUp_eq backed now key
  · refine .inl ⟨missed, ?_⟩
    cases on : cache.enabled with
    | true =>
        exact unknown on
    | false =>
        simp [find?, sound.off on]
  · rw [hit] at quiet
    obtain ⟨same, stays⟩ := persisted_of_quiet quiet
    refine .inr ⟨entry, found, entries_persisted (stays.trans on), ?_⟩
    rw [hit, if_pos (stays.trans on)]
    exact congrArg (·, _) same

/-- The first entry whose compiled code has a hash. -/
def withHash? (cache : Cache) (hash : Text) : Option CacheEntry :=
  cache.entries.find? fun entry => entry.artifact.outputHash = hash

/-- The entry with a hash is among the entries. -/
theorem mem_of_withHash?
    {hash : Text}
    {entry : CacheEntry}
    (found : cache.withHash? hash = some entry) :
    entry ∈ cache.entries ∧ entry.artifact.outputHash = hash :=
  ⟨List.mem_of_find?_eq_some found, by simpa using List.find?_some found⟩

/-- A lookup of a hash that the store does not refuse finds nothing, or counts a hit of the first entry with
it. -/
theorem lookedUpByOutputHash_of_quiet
    {now : Instant}
    {hash : Text}
    (sound : cache.Sound)
    (backed : cache.Backed)
    (quiet : (cache.lookedUpByOutputHash now hash).1.refused = false) :
    (cache.lookedUpByOutputHash now hash = ({ cache }, none) ∧ cache.withHash? hash = none) ∨
      ∃ entry, cache.withHash? hash = some entry ∧
        (cache.countHit entry.key now).persisted.cache.entries = (cache.countHit entry.key now).entries ∧
        cache.lookedUpByOutputHash now hash =
          ({ cache := (cache.countHit entry.key now).persisted.cache }, some (entry.hit now)) := by
  unfold lookedUpByOutputHash at quiet ⊢
  split at quiet
  next entry found =>
    have member := List.mem_of_find?_eq_some found
    obtain ⟨-, unknown⟩ | ⟨other, known, counted, hit⟩ := lookedUp_of_quiet sound backed quiet
    · exact absurd (decide_eq_true rfl) (List.find?_eq_none.mp unknown entry member)
    · obtain ⟨otherMember, sameKey⟩ := mem_of_find? known
      obtain rfl : other = entry :=
        List.inj_on_of_nodup_map sound.distinct otherMember member sameKey
      exact .inr ⟨other, found, counted, hit⟩
  next unknown =>
    exact .inl ⟨rfl, unknown⟩

/-- A call of the store settles a cache as it would with another registry. -/
theorem settled_withRegistry
    (cache : Cache)
    (registry : Registry)
    (outcome : Store × Except StoreFailure Unit) :
    (settled { cache with registry := registry } outcome).cache =
      { (cache.settled outcome).cache with registry := registry } := by
  obtain ⟨store, result⟩ := outcome
  cases result <;> rfl

/-- A cache is written as it would be with another registry. -/
theorem persisted_withRegistry
    (cache : Cache)
    (registry : Registry) :
    (persisted { cache with registry := registry }).cache =
      { cache.persisted.cache with registry := registry } := by
  obtain ⟨capacity, version, key, old, store, entries, enabled, seq⟩ := cache
  cases enabled with
  | false =>
      rfl
  | true =>
      cases store with
      | none =>
          rfl
      | some store =>
          exact settled_withRegistry ⟨capacity, version, key, old, some store, entries, true, seq⟩ registry _

/-- Writing a cache changes no handle. -/
theorem registry_persisted
    (cache : Cache) :
    cache.persisted.cache.registry = cache.registry := by
  have same : cache.persisted.cache = { cache.persisted.cache with registry := cache.registry } :=
    persisted_withRegistry cache cache.registry
  rw [same]

end Cache

/-! ## Modules of entries -/

/-- The module of an entry can be used instead of a load: it has a handle, and its code can be resolved. -/
def CacheEntry.IsAdoptable (config : Config) (entry : CacheEntry) : Prop :=
  entry.artifact.loadUrl.isSome = true ∧
    (Specifier.rewriteImports config entry.artifact.compiledCode).isOk = true

/-- An adoptable entry whose handle is live is adopted. -/
theorem Executor.adopt_of_isAdoptable
    {config : Config}
    {entry : CacheEntry}
    (adoptable : entry.IsAdoptable config)
    (registry : Registry)
    (live : ∀ url ∈ entry.artifact.loadUrl, registry.isLive url = true) :
    ∃ executed,
      (adopt config entry registry).2 = some executed ∧ executed.cached.isSome = true := by
  obtain ⟨holds, resolves⟩ := adoptable
  obtain ⟨url, address⟩ := Option.isSome_iff_exists.mp holds
  cases resolved : Specifier.rewriteImports config entry.artifact.compiledCode with
  | error failure =>
      rw [resolved] at resolves
      cases resolves
  | ok resolvedCode =>
      have kept : (registry.retain url).2 = true := by
        have live := live url address
        unfold Registry.isLive at live
        unfold Registry.retain
        cases found : registry.refs.get? url with
        | some count => rfl
        | none => simpa [found] using live
      simp [adopt, address, resolved, kept]

/-- An entry that is not adoptable is left alone. -/
theorem Executor.adopt_of_not_isAdoptable
    {config : Config}
    {entry : CacheEntry}
    (unusable : ¬entry.IsAdoptable config)
    (registry : Registry) :
    adopt config entry registry = (registry, none) := by
  obtain same | ⟨url, resolvedCode, -, -, address, resolved, -⟩ := adopt_cases config entry registry
  · exact same
  · exact absurd ⟨by simp [address], by simp [resolved, Except.isOk, Except.toBool]⟩ unusable

/-- A module that was executed after a load is not that of an entry. -/
theorem Executor.cached_resultOf
    {execution : Execution}
    {outcome : Option (Except Failure Exports)}
    {executed : Executed}
    (succeeded : resultOf execution outcome = .ok executed) :
    executed.cached = none := by
  unfold resultOf at succeeded
  split at succeeded
  · cases succeeded
  · cases succeeded
  · split at succeeded
    · cases succeeded
    · cases succeeded
      rfl

/-- What a failed execution is answered with depends on the configuration only. -/
theorem Pipeline.answer_conclude_error
    {first second : Pipeline}
    (same : first.config = second.config)
    (clock : Instant)
    (request : SourceModule)
    (inputHash compiledCode : Text)
    (warnings : List Text)
    (failed : ExecutionFailure) :
    (first.conclude clock request inputHash compiledCode warnings (.error failed)).2 =
      (second.conclude clock request inputHash compiledCode warnings (.error failed)).2 := by
  unfold conclude artifactOf
  dsimp only
  rw [same]
  split <;> rfl

/-! ## The course of a request -/

namespace Session

/-- A session after a hit under a key was counted and written. -/
def afterHit (session : Session) (key : Text) (clock : Instant) : Session :=
  session.withCache (session.cache.countHit key clock).persisted.cache

/-- The second session matches the first one after a hit under a key was counted and written. -/
structure HasHit (before : Session) (key : Text) (clock : Instant) (session : Session) : Prop where
  counted :
    (before.afterHit key clock).cache.entries = (before.cache.countHit key clock).entries
  same :
    (before.afterHit key clock).Matches session

/-- A request has a source that is not blank, and no entry under its key that it may be answered with. -/
structure Misses (before : Session) (request : SourceModule) (source : Text) : Prop where
  found :
    before.pipeline.sourceText request = .ok source
  solid :
    Text.isBlankText source = false
  uncached :
    Pipeline.readsCache request = true →
      before.cache.find? (Cache.keyFor request.provenance (sha256Hex source)) = none

/-- A client wants the given code for a request that misses the cache. -/
def Asks (before : Session) (request : SourceModule) (client : Client) (code : Text) : Prop :=
  ∃ source warnings,
    before.Misses request source ∧
      Pipeline.compile before.pipeline.config request source = (warnings, .ok code) ∧
      client = .request request (sha256Hex source) warnings

/-- The entry that a request finds for its code. -/
structure Knows (before : Session) (request : SourceModule) (code : Text) (entry : CacheEntry) : Prop where
  reads :
    Pipeline.readsCache request = true
  found :
    before.cache.withHash? (sha256Hex code) = some entry

/-- No entry was used for some code: none was looked for, none was found, or that which was found has no usable
module, and its hit is all that has changed. -/
inductive Sought (before : Session) (request : SourceModule) (code : Text) (session : Session) : Prop where
  | unread
      (ignores : Pipeline.readsCache request = false)
      (same : before.Matches session)
  | unknown
      (unknown : before.cache.withHash? (sha256Hex code) = none)
      (same : before.Matches session)
  | wasted
      (entry : CacheEntry)
      (clock : Instant)
      (knows : before.Knows request code entry)
      (unusable : ¬entry.IsAdoptable before.pipeline.config)
      (hasHit : before.HasHit entry.key clock session)

/-- A handle was acquired for the code of a request, and nothing else has changed since no entry was used. -/
def Took
    (before : Session)
    (request : SourceModule)
    (code : Text)
    (handle : Handle)
    (session : Session) :
    Prop :=
  ∃ middle registry resolvedCode,
    before.Sought request code middle ∧
      middle.cache.registry.Sound ∧
      middle.cache.registry.acquire resolvedCode = .ok (registry, handle) ∧
      (middle.withRegistry registry).Matches session

/-- The entry that a request finds for its code, if any, has no usable module. -/
def Unserved (before : Session) (request : SourceModule) (code : Text) : Prop :=
  ∀ entry, before.Knows request code entry → ¬entry.IsAdoptable before.pipeline.config

/-- How a request is answered.  A failure leaves no more behind than an entry that was not used. -/
inductive Concludes (before : Session) (request : SourceModule) (session : Session) : Answer → Prop where
  | sourceless
      (failure : Failure)
      (missing :
        ∀ source, before.pipeline.sourceText request = .ok source → Text.isBlankText source = true)
      (same : before.Matches session) :
      Concludes before request session (.ofFailure failure [] none)
  | uncompiled
      (source : Text)
      (warnings : List Text)
      (failure : Failure)
      (misses : before.Misses request source)
      (compiled : Pipeline.compile before.pipeline.config request source = (warnings, .error failure))
      (same : before.Matches session) :
      Concludes before request session (.ofFailure failure warnings none)
  | served
      (source : Text)
      (entry : CacheEntry)
      (clock : Instant)
      (found : before.pipeline.sourceText request = .ok source)
      (solid : Text.isBlankText source = false)
      (reads : Pipeline.readsCache request = true)
      (hit : before.cache.find? (Cache.keyFor request.provenance (sha256Hex source)) = some entry) :
      Concludes before request session (Pipeline.hitAnswer request (entry.hit clock))
  | reused
      (client : Client)
      (code : Text)
      (entry : CacheEntry)
      (artifact : Artifact)
      (warnings : List Text)
      (asks : before.Asks request client code)
      (knows : before.Knows request code entry) :
      Concludes before request session (.ofArtifact artifact warnings true)
  | loaded
      (client : Client)
      (code : Text)
      (artifact : Artifact)
      (warnings : List Text)
      (asks : before.Asks request client code)
      (unserved : before.Unserved request code) :
      Concludes before request session (.ofArtifact artifact warnings false)
  | failed
      (inputHash code : Text)
      (warnings : List Text)
      (clock : Instant)
      (failed : ExecutionFailure)
      (asks : before.Asks request (.request request inputHash warnings) code)
      (sought : before.Sought request code session) :
      Concludes before request session
        (before.pipeline.conclude clock request inputHash code warnings (.error failed)).2

end Session

/-- What a request that is alone has done by each of its stages. -/
def Stage.Course (before : Session) (request : SourceModule) : Stage → Session → Prop
  | fresh call, session =>
    call = .process request ∧ before.Matches session
  | compile asked source, session =>
    asked = request ∧ before.Misses request source ∧ before.Matches session
  | seek client options code, session =>
    before.Asks request client code ∧
      options = Pipeline.executeOptions before.pipeline.config request ∧ before.Matches session
  | adopt client _ code found, session =>
    before.Asks request client code ∧
      ∃ entry clock,
        before.Knows request code entry ∧ found = entry.hit clock ∧ before.HasHit entry.key clock session
  | enter client _ code, session =>
    before.Asks request client code ∧ before.Sought request code session
  | join client _ code _ handle, session =>
    before.Asks request client code ∧ before.Took request code handle session
  | wait client code execution, session =>
    before.Asks request client code ∧ before.Took request code execution.handle session
  | conclude client code (.ok executed), _ =>
    before.Asks request client code ∧
      if executed.cached.isSome then ∃ entry, before.Knows request code entry
      else before.Unserved request code
  | conclude client code (.error _), session =>
    before.Asks request client code ∧ before.Sought request code session
  | release urls rest, session =>
    rest.Course before request (session.withRegistry (session.registry.releaseAll urls)) ∧
      ∀ asked answer, rest = .done (.answered asked answer) → answer.success = true
  | done (.answered asked answer), session =>
    asked = request ∧ before.Concludes request session answer
  | done _, _ =>
    False

namespace Session

variable
  {before session after : Session}
  {request : SourceModule}
  {code : Text}

/-! ### Whatever else happens -/

theorem Sought.of_matches
    (sought : before.Sought request code session)
    (same : session.Matches after) :
    before.Sought request code after := by
  cases sought with
  | unread ignores earlier =>
      exact .unread ignores (earlier.trans same)
  | unknown unknown earlier =>
      exact .unknown unknown (earlier.trans same)
  | wasted entry clock knows unusable hasHit =>
      exact .wasted entry clock knows unusable ⟨hasHit.counted, hasHit.same.trans same⟩

theorem Took.of_matches
    {handle : Handle}
    (took : before.Took request code handle session)
    (same : session.Matches after) :
    before.Took request code handle after := by
  obtain ⟨middle, registry, resolvedCode, sought, sound, acquired, earlier⟩ := took
  exact ⟨middle, registry, resolvedCode, sought, sound, acquired, earlier.trans same⟩

theorem Concludes.of_matches
    {answer : Answer}
    (concludes : before.Concludes request session answer)
    (same : session.Matches after) :
    before.Concludes request after answer := by
  cases concludes with
  | sourceless failure missing earlier =>
      exact .sourceless failure missing (earlier.trans same)
  | uncompiled source warnings failure misses compiled earlier =>
      exact .uncompiled source warnings failure misses compiled (earlier.trans same)
  | served source entry clock found solid reads hit =>
      exact .served source entry clock found solid reads hit
  | reused client code entry artifact warnings asks knows =>
      exact .reused client code entry artifact warnings asks knows
  | loaded client code artifact warnings asks unserved =>
      exact .loaded client code artifact warnings asks unserved
  | failed inputHash code warnings clock failed asks sought =>
      exact .failed inputHash code warnings clock failed asks (sought.of_matches same)

/-- A hit is counted alike in sessions that match. -/
theorem Matches.afterHit
    (same : session.Matches after)
    (key : Text)
    (clock : Instant) :
    (session.afterHit key clock).Matches (after.afterHit key clock) := by
  have counted : (after.afterHit key clock).cache =
      { (session.afterHit key clock).cache with registry := after.cache.registry } :=
    calc
      (after.cache.countHit key clock).persisted.cache =
          (Cache.countHit { session.cache with registry := after.cache.registry } key clock).persisted.cache :=
        congrArg (fun cache : Cache => (cache.countHit key clock).persisted.cache) same.cache
      _ = _ := Cache.persisted_withRegistry (session.cache.countHit key clock) after.cache.registry
  refine ⟨same.config, same.fetcher, ?_, ?_⟩
  · rw [counted]
  · rw [counted]
    have before : (session.afterHit key clock).cache.registry = session.cache.registry :=
      Cache.registry_persisted _
    rw [before]
    exact same.registry

/-- A hit that is counted in a session that matches is one of this session. -/
theorem Matches.hasHit
    {key : Text}
    {clock : Instant}
    (same : session.Matches after)
    (counted : (after.afterHit key clock).cache.entries = (after.cache.countHit key clock).entries) :
    session.HasHit key clock (after.afterHit key clock) where
  counted := by
    rw [← (same.afterHit key clock).entries, counted, Cache.countHit, Cache.countHit, same.entries]
  same := same.afterHit key clock

/-- An entry whose hit was counted is among the entries. -/
theorem HasHit.mem
    {entry : CacheEntry}
    {clock : Instant}
    (hasHit : before.HasHit entry.key clock session)
    (member : entry ∈ before.cache.entries) :
    entry.hit clock ∈ session.cache.entries := by
  rw [hasHit.same.entries, hasHit.counted]
  exact List.mem_map.mpr ⟨entry, member, if_pos rfl⟩

/-- Looking for an entry leaves the configuration as it is. -/
theorem Sought.config
    (sought : before.Sought request code session) :
    session.pipeline.config = before.pipeline.config := by
  cases sought with
  | unread _ same => exact same.config
  | unknown _ same => exact same.config
  | wasted _ _ _ _ hasHit => exact hasHit.same.config

/-- A session in which no entry was used serves no entry. -/
theorem Sought.unserved
    (sought : before.Sought request code session) :
    before.Unserved request code := by
  intro entry knows
  cases sought with
  | unread ignores =>
      rw [knows.reads] at ignores
      cases ignores
  | unknown unknown =>
      rw [knows.found] at unknown
      cases unknown
  | wasted other clock known unusable =>
      obtain rfl : other = entry := Option.some.inj (known.found.symm.trans knows.found)
      exact unusable

/-- A handle that is given back leaves a session in which no entry was used. -/
theorem Took.release
    {handle : Handle}
    (took : before.Took request code handle session) :
    before.Sought request code (session.withRegistry (session.registry.release handle.url)) := by
  obtain ⟨middle, registry, resolvedCode, sought, sound, acquired, same⟩ := took
  have returned : middle.Matches (middle.withRegistry (registry.release handle.url)) :=
    (Matches.refl middle).withRegistry (Registry.agrees_release_acquire sound acquired)
  exact (sought.of_matches returned).of_matches (same.releaseAll [handle.url])

end Session

namespace Stage.Course

variable
  {before session after : Session}
  {request : SourceModule}
  {stage : Stage}

/-- The course of a request does not depend on what the session does besides. -/
theorem of_matches
    (course : stage.Course before request session)
    (same : session.Matches after) :
    stage.Course before request after := by
  induction stage generalizing session after with
  | fresh call =>
      exact ⟨course.1, course.2.trans same⟩
  | compile asked source =>
      exact ⟨course.1, course.2.1, course.2.2.trans same⟩
  | seek client options code =>
      exact ⟨course.1, course.2.1, course.2.2.trans same⟩
  | adopt client timeout code found =>
      obtain ⟨asks, entry, clock, knows, hit, hasHit⟩ := course
      exact ⟨asks, entry, clock, knows, hit, hasHit.counted, hasHit.same.trans same⟩
  | enter client timeout code =>
      exact ⟨course.1, course.2.of_matches same⟩
  | join client timeout code resolvedCode handle =>
      exact ⟨course.1, course.2.of_matches same⟩
  | wait client code execution =>
      exact ⟨course.1, course.2.of_matches same⟩
  | conclude client code result =>
      cases result with
      | ok executed =>
          exact course
      | error failed =>
          exact ⟨course.1, course.2.of_matches same⟩
  | release urls rest inductionHypothesis =>
      exact ⟨inductionHypothesis course.1 (same.releaseAll urls), course.2⟩
  | done result =>
      cases result with
      | answered asked answer =>
          exact ⟨course.1, course.2.of_matches same⟩
      | executed | found | held | acquired | retained | finished =>
          cases course

end Stage.Course

/-! ## Steps of a request -/

namespace Session

variable
  {before session : Session}
  {request : SourceModule}

/-- A changed cache that tells nothing was not refused. -/
theorem quiet_of_goOn
    {change : CacheChange}
    {rest : Stage}
    (quiet : .refused ∉ (session.goOn change rest).2.2) :
    change.refused = false := by
  cases refused : change.refused with
  | false =>
      rfl
  | true =>
      exact absurd (by simp [goOn, refused]) quiet

/-- Going on with a cache that gives nothing back. -/
theorem course_goOn
    {cache : Cache}
    {rest : Stage}
    (course : rest.Course before request (session.withCache cache))
    (succeeds : ∀ asked answer, rest = .done (.answered asked answer) → answer.success = true) :
    let outcome := session.goOn { cache := cache } rest
    outcome.2.1.Course before request outcome.1 :=
  ⟨course, succeeds⟩

/-- Beginning a request. -/
theorem course_begins
    {outcome : Session × Stage × List Event}
    (backs : session.Backs [])
    (same : before.Matches session)
    (begins : session.Begins request outcome)
    (quiet : .refused ∉ outcome.2.2) :
    outcome.2.1.Course before request outcome.1 := by
  have lookup (source : Text) :
      session.cache.find? (Cache.keyFor request.provenance (sha256Hex source)) =
        before.cache.find? (Cache.keyFor request.provenance (sha256Hex source)) := by
    rw [Cache.find?, Cache.find?, same.entries]
  cases begins with
  | sourceless failure missing =>
      rw [same.sourceText] at missing
      refine ⟨rfl, .sourceless failure (fun source found => ?_) (same.answer request _)⟩
      rw [missing] at found
      cases found
  | blank source found blank =>
      rw [same.sourceText] at found
      refine ⟨rfl, .sourceless .missingSource (fun other known => ?_) (same.answer request _)⟩
      rw [found] at known
      exact Except.ok.inj known ▸ blank
  | uncached source found solid ignores =>
      refine ⟨rfl, ⟨same.sourceText request ▸ found, solid, fun reads => ?_⟩, same⟩
      rw [ignores] at reads
      cases reads
  | missed source change found solid reads missed =>
      have quiet := quiet_of_goOn quiet
      have looked := Cache.lookedUp_of_quiet backs.cache backs.backed (by rw [missed]; exact quiet)
      rw [missed] at looked
      obtain ⟨unchanged, unknown⟩ | ⟨entry, -, -, hit⟩ := looked
      · obtain rfl : change = { cache := session.cache } := congrArg Prod.fst unchanged
        rw [same.sourceText] at found
        rw [lookup] at unknown
        have course : (Stage.compile request source).Course before request session :=
          ⟨rfl, ⟨found, solid, fun _ => unknown⟩, same⟩
        exact course_goOn course (fun _ _ other => by cases other)
      · cases congrArg Prod.snd hit
  | hit source change entry found solid reads looked =>
      have quiet := quiet_of_goOn quiet
      have hits := Cache.lookedUp_of_quiet backs.cache backs.backed (by rw [looked]; exact quiet)
      rw [looked] at hits
      obtain ⟨missed, -⟩ | ⟨old, known, -, hit⟩ := hits
      · cases congrArg Prod.snd missed
      · obtain rfl : entry = old.hit session.moment.clock := Option.some.inj (congrArg Prod.snd hit)
        obtain rfl : change = { cache := _ } := congrArg Prod.fst hit
        rw [same.sourceText] at found
        rw [lookup] at known
        refine course_goOn ⟨rfl, .served source old session.moment.clock found solid reads known⟩ ?_
        rintro asked answer ⟨⟩
        rfl

/-- Compiling the source of a request. -/
theorem course_compileRequest
    {source : Text}
    (misses : before.Misses request source)
    (same : before.Matches session) :
    let outcome := session.compileRequest request source
    outcome.2.1.Course before request outcome.1 := by
  unfold compileRequest
  rw [same.config]
  split
  next warnings failure compiled =>
    exact ⟨rfl, .uncompiled source warnings failure misses compiled (same.answer request _)⟩
  next warnings code compiled =>
    exact ⟨⟨source, warnings, misses, compiled, rfl⟩, rfl, same⟩

/-- Looking for an entry with the same code. -/
theorem course_seek
    {client : Client}
    {options : ExecuteOptions}
    {code : Text}
    (backs : session.Backs [])
    (asks : before.Asks request client code)
    (wanted : options = Pipeline.executeOptions before.pipeline.config request)
    (same : before.Matches session)
    (quiet : .refused ∉ (session.seek client options code).2.2) :
    let outcome := session.seek client options code
    outcome.2.1.Course before request outcome.1 := by
  have reading : options.useCache = Pipeline.readsCache request := wanted ▸ rfl
  have lookup : session.cache.withHash? (sha256Hex code) = before.cache.withHash? (sha256Hex code) := by
    rw [Cache.withHash?, Cache.withHash?, same.entries]
  unfold seek at quiet ⊢
  split
  next reads =>
    rw [if_pos reads] at quiet
    have quiet := quiet_of_goOn quiet
    obtain ⟨missed, unknown⟩ | ⟨entry, found, counted, hit⟩ :=
      Cache.lookedUpByOutputHash_of_quiet backs.cache backs.backed quiet
    · rw [missed]
      rw [lookup] at unknown
      have course : (Stage.enter client options.timeout code).Course before request session :=
        ⟨asks, .unknown unknown same⟩
      exact course_goOn course (fun _ _ other => by cases other)
    · rw [hit]
      rw [lookup] at found
      have course :
          (Stage.adopt client options.timeout code (entry.hit session.moment.clock)).Course before request
            (session.afterHit entry.key session.moment.clock) :=
        ⟨asks, entry, session.moment.clock, ⟨reading ▸ reads, found⟩, rfl, same.hasHit counted⟩
      exact course_goOn course (fun _ _ other => by cases other)
  next ignores =>
    exact ⟨asks, .unread (reading ▸ Bool.eq_false_iff.mpr ignores) same⟩

/-- Taking another reference to the handle of an entry. -/
theorem course_adopt
    {client : Client}
    {code : Text}
    {found : CacheEntry}
    (backs : session.Backs [])
    (timeout : Nat)
    (course : (Stage.adopt client timeout code found).Course before request session) :
    let outcome := session.adopt client timeout code found
    outcome.2.1.Course before request outcome.1 := by
  obtain ⟨asks, entry, clock, knows, rfl, hasHit⟩ := course
  have configured : session.pipeline.config = before.pipeline.config := hasHit.same.config
  have member := hasHit.mem (Cache.mem_of_withHash? knows.found).1
  unfold adopt
  by_cases adoptable : (entry.hit clock).IsAdoptable session.pipeline.config
  · obtain ⟨executed, adopted, cached⟩ := Executor.adopt_of_isAdoptable adoptable session.cache.registry
      fun url address => backs.backed url (Cache.mem_addresses member address)
    dsimp only
    rw [adopted]
    exact ⟨asks, by rw [if_pos cached]; exact ⟨entry, knows⟩⟩
  · rw [Executor.adopt_of_not_isAdoptable adoptable]
    exact ⟨asks, .wasted entry clock knows (configured ▸ adoptable) hasHit⟩

/-- Making code loadable. -/
theorem course_enter
    {client : Client}
    {code : Text}
    (backs : session.Backs [])
    (asks : before.Asks request client code)
    (sought : before.Sought request code session)
    (timeout : Nat) :
    let outcome := session.enter client timeout code
    outcome.2.1.Course before request outcome.1 := by
  unfold enter
  split
  · exact ⟨asks, sought⟩
  next resolvedCode resolved =>
    split
    · exact ⟨asks, sought⟩
    next registry handle acquired =>
      exact ⟨asks, session, registry, resolvedCode, sought, backs.registry, acquired, .refl _⟩

/-- Joining a load or starting one. -/
theorem course_join
    {client : Client}
    {code : Text}
    {handle : Handle}
    (asks : before.Asks request client code)
    (took : before.Took request code handle session)
    (timeout : Nat)
    (resolvedCode : Text) :
    let outcome := session.join client timeout code resolvedCode handle
    outcome.2.1.Course before request outcome.1 := by
  have same : session.Matches (session.join client timeout code resolvedCode handle).1 := by
    obtain ⟨place, -, joined⟩ | ⟨-, started⟩ :=
      Executor.await_cases timeout session.moment.elapsed resolvedCode handle session.cache.registry
        (session.executorOf client)
    · unfold join
      rw [joined]
      cases client <;> exact ⟨rfl, rfl, rfl, rfl, rfl⟩
    · unfold join
      rw [started]
      cases client <;> exact ⟨rfl, rfl, rfl, rfl, rfl⟩
  exact ⟨asks, took.of_matches same⟩

/-- Going on after a load; a failed execution has still to give back its handle. -/
theorem course_resume
    {client : Client}
    {code : Text}
    {execution : Execution}
    {outcome : Session × Stage × List Event}
    (asks : before.Asks request client code)
    (took : before.Took request code execution.handle session)
    (resumed : session.resume client code execution = some outcome) :
    outcome.2.1.Course before request outcome.1 := by
  obtain rfl := resume_eq_some resumed
  dsimp only
  split
  next executed succeeded =>
    have loaded : executed.cached = none := Executor.cached_resultOf succeeded
    obtain ⟨_, _, _, sought, _⟩ := took
    rw [succeeded]
    refine ⟨asks, ?_⟩
    rw [loaded]
    exact sought.unserved
  next failure failed =>
    rw [failed]
    exact ⟨⟨asks, took.release⟩, fun _ _ other => by cases other⟩

/-- Reporting the result of an execution. -/
theorem course_conclude
    {client : Client}
    {code : Text}
    {result : ExecutionResult}
    (course : (Stage.conclude client code result).Course before request session) :
    let outcome := session.conclude client code result
    outcome.2.1.Course before request outcome.1 := by
  cases result with
  | ok executed =>
      obtain ⟨⟨source, warnings, misses, compiled, rfl⟩, served⟩ := course
      have asks : before.Asks request (.request request (sha256Hex source) warnings) code :=
        ⟨source, warnings, misses, compiled, rfl⟩
      refine ⟨⟨rfl, ?_⟩, fun asked answer told => ?_⟩
      · cases cached : executed.cached with
        | some entry =>
            rw [cached] at served
            obtain ⟨known, knows⟩ := served
            exact .reused _ code known _ warnings asks knows
        | none =>
            rw [cached] at served
            exact .loaded _ code _ warnings asks served
      · cases told
        rfl
  | error failed =>
      obtain ⟨⟨source, warnings, misses, compiled, rfl⟩, sought⟩ := course
      have asks : before.Asks request (.request request (sha256Hex source) warnings) code :=
        ⟨source, warnings, misses, compiled, rfl⟩
      have work := session.pipeline.sameWork_conclude_error session.moment.clock request
        (sha256Hex source) code warnings failed
      have told := Pipeline.answer_conclude_error sought.config session.moment.clock request
        (sha256Hex source) code warnings failed
      have same : session.Matches (session.conclude (.request request (sha256Hex source) warnings) code
          (.error failed)).1 :=
        .of_cache work.config work.fetcher work.cache
      have concludes := Concludes.failed (sha256Hex source) code warnings session.moment.clock failed asks
        (sought.of_matches same)
      rw [← told] at concludes
      exact ⟨rfl, concludes⟩

end Session

namespace Stage.Course

variable
  {before session : Session}
  {request : SourceModule}

/-- A request that is not refused by the store stays on its course. -/
theorem afterStep
    {stage : Stage}
    {outcome : Session × Stage × List Event}
    (course : stage.Course before request session)
    (backs : session.Backs stage.held)
    (stepped : stage.step session = some outcome)
    (quiet : .refused ∉ outcome.2.2) :
    outcome.2.1.Course before request outcome.1 := by
  cases stage with
  | fresh call =>
      obtain ⟨rfl, same⟩ := course
      cases stepped
      exact Session.course_begins backs same (session.begins_beginRequest request) quiet
  | compile asked source =>
      obtain ⟨rfl, misses, same⟩ := course
      cases stepped
      exact Session.course_compileRequest misses same
  | seek client options code =>
      obtain ⟨asks, wanted, same⟩ := course
      cases stepped
      exact Session.course_seek backs asks wanted same quiet
  | adopt client timeout code entry =>
      cases stepped
      exact Session.course_adopt backs timeout course
  | enter client timeout code =>
      obtain ⟨asks, sought⟩ := course
      cases stepped
      exact Session.course_enter backs asks sought timeout
  | join client timeout code resolvedCode handle =>
      obtain ⟨asks, took⟩ := course
      cases stepped
      exact Session.course_join asks took timeout resolvedCode
  | wait client code execution =>
      obtain ⟨asks, took⟩ := course
      exact Session.course_resume asks took stepped
  | conclude client code result =>
      cases stepped
      exact Session.course_conclude course
  | release urls rest =>
      cases urls with
      | nil =>
          cases stepped
          exact course.1
      | cons url urls =>
          cases stepped
          exact course
  | done result =>
      cases stepped

end Stage.Course

namespace Stage.Alone

variable
  {before session : Session}
  {call : Call}
  {stage : Stage}
  {events : List Event}

/-- The books stay right when a call without references comes in. -/
theorem balanced_call
    (balanced : Traffic.Balanced { session := before })
    (ungiven : call.given = none) :
    Traffic.Balanced ⟨before, [.fresh call], []⟩ := by
  have step := Traffic.Step.call ⟨before, [], []⟩ call (by simp [ungiven])
  rw [ungiven] at step
  exact (Traffic.balanced_step balanced step).1

/-- A call that is alone in a session whose books are right has its references covered. -/
theorem backs
    (balanced : Traffic.Balanced { session := before })
    (ungiven : call.given = none)
    (alone : Alone before (.fresh call) events session stage) :
    session.Backs stage.held :=
  (Traffic.balanced_run (balanced_call balanced ungiven) (alone.toRun [])).backs (List.nil_append _).symm

/-- A call that is alone was not refused by the store if the cache is still on. -/
theorem quiet_of_enabled
    (balanced : Traffic.Balanced { session := before })
    (ungiven : call.given = none)
    (alone : Alone before (.fresh call) events session stage)
    (on : session.cache.enabled = true) :
    .refused ∉ events := by
  intro refused
  have off := Traffic.off_run (balanced_call balanced ungiven) (alone.toRun []) (.inr refused)
  rw [on] at off
  cases off

/-- A request that is alone and not refused by the store has a course. -/
theorem course
    {request : SourceModule}
    (balanced : Traffic.Balanced { session := before })
    (alone : Alone before (.fresh (.process request)) events session stage)
    (quiet : .refused ∉ events) :
    stage.Course before request session := by
  have told : ∀ event ∈ events, event ≠ .refused := by
    rintro event member rfl
    exact quiet member
  refine alone.keeps (fun _ session stage => stage.Course before request session) ?_ ?_ ?_ told
  · exact ⟨rfl, .refl before⟩
  · intro session after stage next earlier told alone course stepped admitted
    exact course.afterStep (alone.backs balanced rfl) stepped fun refused => admitted _ refused rfl
  · intro session after stage earlier told course idles _
    exact course.of_matches idles.matches

end Stage.Alone

end LiveComponent
