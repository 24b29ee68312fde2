import LiveComponent.Proofs.HandleAccounting
import LiveComponent.Proofs.Workload

namespace LiveComponent.Workload

/-!
# Knowledge is kept

Every step of a call for a request of the workload stores and tells only what agrees with the verdict on
one of the requests.
-/

variable
  {work : Workload}
  {session : Session}
  {held : List Text}

/-! ## What a session knows -/

namespace KnowsSession

/-- A changed cache holds what it held before and what it was given. -/
theorem withCache
    {change : CacheChange}
    {fresh : List (Text × Artifact)}
    (knows : work.KnowsSession session)
    (sound : CacheChange.Sound session.cache fresh change)
    (given : ∀ content ∈ fresh, work.KnowsContent content) :
    work.KnowsSession (session.withCache change.cache) where
  config := knows.config
  fetcher := knows.fetcher
  entries := sound.forall_content knows.entries given
  loader := by
    rw [Session.cache_withCache, sound.registry]
    exact knows.loader
  executor := knows.executor

/-- A registry over a known loader is known. -/
theorem withRegistry
    {registry : Registry}
    (knows : work.KnowsSession session)
    (loader : work.KnowsLoader registry.loader) :
    work.KnowsSession (session.withRegistry registry) :=
  ⟨knows.config, knows.fetcher, knows.entries, loader, knows.executor⟩

/-- Counting an answer stores nothing else. -/
theorem answer
    (knows : work.KnowsSession session)
    (request : SourceModule)
    (answer : Answer) :
    work.KnowsSession (session.answer request answer).1 :=
  ⟨knows.config, knows.fetcher, knows.entries, knows.loader, knows.executor⟩

/-- A session whose pipeline only told something knows what it knew. -/
theorem withPipeline
    {pipeline : Pipeline}
    (knows : work.KnowsSession session)
    (same : session.pipeline.SameWork pipeline) :
    work.KnowsSession { session with pipeline := pipeline } where
  config := same.config.trans knows.config
  fetcher := same.fetcher.trans knows.fetcher
  entries := by
    simp only [Session.cache, same.cache]
    exact knows.entries
  loader := by
    simp only [Session.cache, same.cache]
    exact knows.loader
  executor := by
    simp only [same.executor]
    exact knows.executor

end KnowsSession

namespace KnowsLoader

variable {loader : Loader}

/-- A loader without a module is known as well. -/
theorem release
    (knows : work.KnowsLoader loader)
    (url : Text) :
    work.KnowsLoader (loader.release url) where
  online := knows.online
  steady := knows.steady
  modules other code found := by
    simp only [Loader.release, Table.get?_erase] at found
    split at found
    · cases found
    · exact knows.modules other code found

/-- A loader with another known module is known. -/
theorem materialize
    {after : Loader}
    {code : Text}
    {handle : Handle}
    (knows : work.KnowsLoader loader)
    (member : code ∈ work.hashed)
    (made : loader.materialize code = .ok (after, handle)) :
    work.KnowsLoader after := by
  obtain ⟨rfl, rfl⟩ := Loader.materialize_eq_ok made
  refine ⟨knows.online, knows.steady, fun url other found => ?_⟩
  dsimp only at found
  split at found
  · exact knows.modules url other found
  · rw [Table.get?_put] at found
    split at found
    next same =>
      cases found
      exact ⟨member, same.symm⟩
    · exact knows.modules url other found

/-- Retaining a handle keeps the loader. -/
theorem retain
    {registry after : Registry}
    {url : Text}
    {kept : Bool}
    (knows : work.KnowsLoader registry.loader)
    (retained : registry.retain url = (after, kept)) :
    work.KnowsLoader after.loader := by
  unfold Registry.retain at retained
  split at retained
  · cases retained
    exact knows
  · cases retained
    exact knows

/-- Releasing a handle forgets at most its module. -/
theorem releaseRegistry
    {registry : Registry}
    (knows : work.KnowsLoader registry.loader)
    (url : Text) :
    work.KnowsLoader (registry.release url).loader := by
  unfold Registry.release
  split
  · exact knows
  · split
    · exact knows
    · exact knows.release url

/-- A loader that has started more loads is known. -/
theorem withLoads
    (knows : work.KnowsLoader loader)
    (loads : Nat) :
    work.KnowsLoader { loader with loads := loads } :=
  ⟨knows.online, knows.steady, knows.modules⟩

end KnowsLoader

/-! ## Steps of a call -/

/-- A step of a call that stores and tells only what is known.  The load that it starts, if any, is
awaited. -/
structure Proceeds
    (work : Workload)
    (session : Session)
    (outcome : Session × Stage × List Event) :
    Prop where
  known :
    work.KnowsSession outcome.1
  stage :
    work.KnowsStage outcome.1.pipeline.executor.loads outcome.2.1
  grown :
    session.pipeline.executor.loads <+: outcome.1.pipeline.executor.loads
  awaited :
    ∀ place, session.pipeline.executor.loads.length ≤ place →
      place < outcome.1.pipeline.executor.loads.length →
      outcome.2.1.awaited? = some place

/-- A step that starts no load. -/
theorem Proceeds.of_executor_eq
    {outcome : Session × Stage × List Event}
    (knows : work.KnowsSession outcome.1)
    (stage : work.KnowsStage session.pipeline.executor.loads outcome.2.1)
    (same : outcome.1.pipeline.executor = session.pipeline.executor) :
    Proceeds work session outcome where
  known := knows
  stage := by
    rw [same]
    exact stage
  grown := by simp [same]
  awaited place high low := by
    rw [same] at low
    omega

/-- Going on with a changed cache. -/
theorem proceeds_goOn
    {change : CacheChange}
    {fresh : List (Text × Artifact)}
    {rest : Stage}
    (knows : work.KnowsSession session)
    (sound : CacheChange.Sound session.cache fresh change)
    (given : ∀ content ∈ fresh, work.KnowsContent content)
    (stage : work.KnowsStage session.pipeline.executor.loads rest) :
    Proceeds work session (session.goOn change rest) :=
  .of_executor_eq (knows.withCache sound given) stage rfl

/-- Giving an answer that is known. -/
theorem proceeds_answer
    {request : SourceModule}
    {answer : Answer}
    (knows : work.KnowsSession session)
    (right : work.KnowsAnswer request answer) :
    Proceeds work session (session.answer request answer) :=
  .of_executor_eq (knows.answer request answer) right rfl

/-- A failure before the code of a request is executed is its verdict. -/
theorem knowsAnswer_ofFailure
    {request : SourceModule}
    {failure : Failure}
    (asked : request ∈ work.requests)
    (verdict : work.verdict request = .ofFailure failure none)
    (warnings : List Text) :
    work.KnowsAnswer request (.ofFailure failure warnings none) :=
  ⟨asked, .inl (by rw [verdict]; rfl)⟩

/-- An entry under the key of a request answers it with the verdict on a request with the same channel
and source. -/
theorem knowsAnswer_hit
    {request : SourceModule}
    {source : Text}
    {entry : CacheEntry}
    (collisionFree : work.CollisionFree)
    (provides : work.Provides request source)
    (reads : Pipeline.readsCache request = true)
    (content : work.KnowsContent entry.content)
    (key : entry.key = Cache.keyFor request.provenance (sha256Hex source)) :
    work.KnowsAnswer request (Pipeline.hitAnswer request entry) := by
  obtain ⟨other, otherSource, resolvedCode, component, compiles, leads, otherKey, essence, -⟩ :=
    content
  have sameHash : sha256Hex (Pipeline.keyText request.provenance source) =
      sha256Hex (Pipeline.keyText other.provenance otherSource) := key.symm.trans otherKey
  have sameKey :=
    collisionFree _ provides.key_mem _ compiles.provides.key_mem sameHash
  obtain ⟨channel, sourceHash⟩ := Pipeline.keyText_inj sameKey
  have sameSource : source = otherSource :=
    collisionFree _ provides.source_mem _ compiles.provides.source_mem sourceHash
  subst sameSource
  have verdict : work.verdict other =
      .ofSuccess (Pipeline.executedEssence source entry.artifact.compiledCode resolvedCode
        component) := by
    have leads : Pipeline.examined work.config entry.artifact.compiledCode =
        .ok (resolvedCode, component) := leads
    rw [compiles.verdict_eq]
    simp [CacheEntry.content, Pipeline.judged, leads]
  refine ⟨provides.asked,
    .inr ⟨reads, other, source, provides, compiles.provides, channel.symm, ?_, ?_⟩⟩
  · rw [verdict]
    rfl
  · have essence : entry.artifact.essence =
        Pipeline.executedEssence source entry.artifact.compiledCode resolvedCode component := essence
    rw [verdict, ← essence]
    rfl

/-- Beginning a request of the workload. -/
theorem proceeds_begins
    {request : SourceModule}
    {outcome : Session × Stage × List Event}
    (collisionFree : work.CollisionFree)
    (backs : session.Backs held)
    (knows : work.KnowsSession session)
    (asked : request ∈ work.requests)
    (begins : session.Begins request outcome) :
    Proceeds work session outcome := by
  have looked (source : Text) := Cache.sound_lookedUp backs.cache backs.backed session.moment.clock
    (Cache.keyFor request.provenance (sha256Hex source))
  have same : session.pipeline.sourceText request = Pipeline.sourceOf work.fetcher request := by
    rw [Pipeline.sourceText, knows.fetcher]
  cases begins with
  | sourceless failure missing =>
      refine proceeds_answer knows (knowsAnswer_ofFailure asked ?_ [])
      simp [verdict, Pipeline.verdict, same ▸ missing]
  | blank source found blank =>
      refine proceeds_answer knows (knowsAnswer_ofFailure asked ?_ [])
      simp [verdict, Pipeline.verdict, same ▸ found, blank]
  | uncached source found solid ignores =>
      have provides : work.Provides request source := ⟨asked, same ▸ found, solid⟩
      exact .of_executor_eq knows provides rfl
  | missed source change found solid reads missed =>
      have sound := looked source
      rw [missed] at sound
      have provides : work.Provides request source := ⟨asked, same ▸ found, solid⟩
      exact proceeds_goOn knows sound (List.forall_mem_nil _) provides
  | hit source change entry found solid reads hit =>
      have sound := looked source
      rw [hit] at sound
      have provides : work.Provides request source := ⟨asked, same ▸ found, solid⟩
      obtain ⟨old, member, key, rfl⟩ := Cache.mem_of_lookedUp (congrArg Prod.snd hit)
      have content : work.KnowsContent (old.hit session.moment.clock).content :=
        knows.entries old member
      have answer := knowsAnswer_hit collisionFree provides reads content key
      have counted := knows.answer request
        (Pipeline.hitAnswer request (old.hit session.moment.clock))
      exact .of_executor_eq (counted.withCache sound (List.forall_mem_nil _)) answer rfl

/-- Compiling the source of a request. -/
theorem proceeds_compileRequest
    {request : SourceModule}
    {source : Text}
    (knows : work.KnowsSession session)
    (provides : work.Provides request source) :
    Proceeds work session (session.compileRequest request source) := by
  unfold Session.compileRequest
  rw [knows.config]
  split
  next warnings failure compiled =>
    refine proceeds_answer knows (knowsAnswer_ofFailure provides.asked ?_ warnings)
    simp [verdict, Pipeline.verdict, provides.found, provides.solid, compiled]
  next warnings compiledCode compiled =>
    have compiles : work.Compiles request source compiledCode := ⟨provides, by rw [compiled]⟩
    exact .of_executor_eq knows ⟨source, compiles, rfl⟩ rfl

/-- Looking for an entry with the same code. -/
theorem proceeds_seek
    {client : Client}
    {compiledCode : Text}
    (backs : session.Backs held)
    (knows : work.KnowsSession session)
    (knowsClient : work.KnowsClient compiledCode client)
    (options : ExecuteOptions) :
    Proceeds work session (session.seek client options compiledCode) := by
  unfold Session.seek
  split
  · have sound := Cache.sound_lookedUpByOutputHash backs.cache backs.backed session.moment.clock
      (sha256Hex compiledCode)
    refine proceeds_goOn knows sound (fun _ member => by cases member) ?_
    split
    · exact knowsClient
    next entry found =>
      obtain ⟨old, member, hash, rfl⟩ := Cache.mem_of_lookedUpByOutputHash backs.cache found
      exact ⟨knowsClient, knows.entries old member, hash⟩
  · exact .of_executor_eq knows knowsClient rfl

/-- An adopted module agrees with the verdict on the code for which it was adopted. -/
theorem agrees_adopt
    {compiledCode url resolvedCode : Text}
    {client : Client}
    {entry : CacheEntry}
    (collisionFree : work.CollisionFree)
    (knowsClient : work.KnowsClient compiledCode client)
    (content : work.KnowsContent entry.content)
    (hash : entry.artifact.outputHash = sha256Hex compiledCode)
    (holds : entry.artifact.loadUrl = some url)
    (resolved :
      Specifier.rewriteImports work.config entry.artifact.compiledCode = .ok resolvedCode) :
    Pipeline.Agrees work.config compiledCode
      (.ok
        { resolvedCode
          loadUrl := url
          componentExport := entry.artifact.componentExport.getD "default"
          byteSize := entry.artifact.byteSize
          dependencies := entry.artifact.dependencies
          cached := some entry }) := by
  obtain ⟨request, source, found, component, compiles, leads, -, essence, handle⟩ := content
  simp only [CacheEntry.content] at compiles leads essence handle
  have hashed : entry.artifact.outputHash = sha256Hex entry.artifact.compiledCode :=
    congrArg Essence.outputHash essence
  have sameCode : entry.artifact.compiledCode = compiledCode := by
    cases client with
    | caller =>
        cases knowsClient
    | request request inputHash warnings =>
        obtain ⟨source, own, -⟩ := knowsClient
        exact collisionFree _ compiles.code_mem _ own.code_mem (hashed.symm.trans hash)
  have sameResolved : found = resolvedCode := by
    unfold Pipeline.examined at leads
    rw [resolved] at leads
    dsimp only at leads
    split at leads
    · cases leads
    · split at leads
      · cases leads
      · cases leads
        rfl
  subst sameResolved
  have named : entry.artifact.componentExport = some component :=
    congrArg Essence.componentExport essence
  have size : entry.artifact.byteSize = Text.byteSize found := congrArg Essence.byteSize essence
  have dependencies : entry.artifact.dependencies = Specifier.collect found :=
    congrArg Essence.dependencies essence
  have address : url = (Handle.ofCode found).url := Option.some.inj (holds.symm.trans handle)
  refine ⟨?_, address, size, dependencies⟩
  rw [← sameCode, leads, named]
  rfl

/-- Taking another reference to the handle of an entry. -/
theorem proceeds_adopt
    {client : Client}
    {compiledCode : Text}
    {entry : CacheEntry}
    (collisionFree : work.CollisionFree)
    (knows : work.KnowsSession session)
    (knowsClient : work.KnowsClient compiledCode client)
    (content : work.KnowsContent entry.content)
    (hash : entry.artifact.outputHash = sha256Hex compiledCode)
    (timeout : Nat) :
    Proceeds work session (session.adopt client timeout compiledCode entry) := by
  unfold Session.adopt
  rw [knows.config]
  obtain same | ⟨url, resolvedCode, registry, kept, holds, resolved, retained, adopted⟩ :=
    Executor.adopt_cases work.config entry session.cache.registry
  · rw [same]
    exact .of_executor_eq (knows.withRegistry knows.loader) knowsClient rfl
  · rw [adopted]
    refine .of_executor_eq (knows.withRegistry (knows.loader.retain retained)) ?_ rfl
    cases kept with
    | true =>
        exact ⟨knowsClient,
          agrees_adopt collisionFree knowsClient content hash holds resolved⟩
    | false =>
        exact knowsClient

/-- Making code loadable. -/
theorem proceeds_enter
    {client : Client}
    {compiledCode : Text}
    (knows : work.KnowsSession session)
    (knowsClient : work.KnowsClient compiledCode client)
    (timeout : Nat) :
    Proceeds work session (session.enter client timeout compiledCode) := by
  unfold Session.enter
  rw [knows.config]
  split
  next failure unresolved =>
    have agrees : Pipeline.Agrees work.config compiledCode (.error ⟨failure, none⟩) := by
      simp [Pipeline.Agrees, Pipeline.examined, unresolved]
    exact .of_executor_eq knows ⟨knowsClient, agrees⟩ rfl
  next resolvedCode resolved =>
    split
    next failure failed =>
      simp [Registry.acquire, Loader.materialize, knows.loader.online] at failed
    next registry handle acquired =>
      obtain ⟨made, -⟩ := Registry.acquire_eq_ok acquired
      obtain ⟨sameHandle, -⟩ := Loader.materialize_eq_ok made
      have member := knowsClient.resolved_mem resolved
      refine .of_executor_eq (knows.withRegistry (knows.loader.materialize member made)) ?_ rfl
      exact ⟨knowsClient, resolved, sameHandle⟩

/-- An executor that has started the load of a known module is known. -/
theorem KnowsExecutor.start
    {executor : Executor}
    {code : Text}
    (knows : work.KnowsExecutor executor)
    (member : code ∈ work.hashed)
    (due : Nat) :
    work.KnowsExecutor
      ⟨executor.loads ++ [⟨(Handle.ofCode code).url, due, none⟩],
        executor.pending.put (Handle.ofCode code).url executor.loads.length⟩ where
  loads load loadMember := by
    rcases List.mem_append.mp loadMember with old | new
    · exact knows.loads load old
    · obtain rfl := List.mem_singleton.mp new
      exact ⟨code, member, rfl, fun outcome ended => by cases ended⟩
  pending url place found := by
    rw [Table.get?_put] at found
    split at found
    next same =>
      cases found
      exact ⟨_, List.getElem?_concat_length, same⟩
    · obtain ⟨load, placed, same⟩ := knows.pending url place found
      have within : place < executor.loads.length := (List.getElem?_eq_some_iff.mp placed).1
      exact ⟨load, by rw [List.getElem?_append_left within, placed], same⟩

/-- An executor whose loads end is known if the modules of these are loadable. -/
theorem KnowsExecutor.endLoads
    {executor : Executor}
    {loader : Loader}
    (collisionFree : work.CollisionFree)
    (knows : work.KnowsExecutor executor)
    (knowsLoader : work.KnowsLoader loader)
    (resident :
      ∀ load ∈ executor.loads, load.outcome = none → loader.isResident load.url = true)
    (now : Nat) :
    work.KnowsExecutor (executor.endLoads loader now) where
  loads load member := by
    obtain ⟨original, originalMember, rfl⟩ := List.mem_map.mp member
    obtain ⟨code, codeMember, address, exported⟩ := knows.loads original originalMember
    refine ⟨code, codeMember, ?_, fun outcome ended => ?_⟩
    · unfold Executor.endLoad
      split <;> exact address
    · unfold Executor.endLoad at ended
      split at ended
      next ends =>
        have isOpen : original.outcome = none := by
          simp only [Executor.Load.endsBy, Bool.and_eq_true, Option.isNone_iff_eq_none] at ends
          exact ends.1
        obtain ⟨module, found⟩ :=
          Option.isSome_iff_exists.mp (resident original originalMember isOpen)
        obtain ⟨moduleMember, moduleAddress⟩ := knowsLoader.modules _ module found
        have same : module = code :=
          collisionFree _ moduleMember _ codeMember
            (Handle.hash_of_url_eq (moduleAddress.symm.trans address))
        simp only [knowsLoader.steady, Loader.load, found, same] at ended
        exact (Option.some.inj ended).symm
      · exact exported outcome ended
  pending url place found := by
    have kept : executor.pending.get? url = some place := by
      let ended := if loader.breaks then []
        else (executor.loads.filter fun load => Executor.Load.endsBy load now).map Load.url
      have filtered := Table.get?_filter executor.pending (fun name => !ended.contains name) url
      have kept := filtered.symm.trans found
      split at kept
      · exact kept
      · cases kept
    obtain ⟨load, placed, same⟩ := knows.pending url place kept
    refine ⟨Executor.endLoad loader now load, ?_, ?_⟩
    · simp [Executor.endLoads, placed]
    · unfold Executor.endLoad
      split <;> exact same

/-- Joining a load or starting one. -/
theorem proceeds_join
    {client : Client}
    {compiledCode resolvedCode : Text}
    (knows : work.KnowsSession session)
    (knowsClient : work.KnowsClient compiledCode client)
    (resolved : Specifier.rewriteImports work.config compiledCode = .ok resolvedCode)
    (timeout : Nat) :
    Proceeds work session
      (session.join client timeout compiledCode resolvedCode (Handle.ofCode resolvedCode)) := by
  have member := knowsClient.resolved_mem resolved
  cases client with
  | caller =>
      cases knowsClient
  | request request inputHash warnings =>
      unfold Session.join
      obtain ⟨place, present, joined⟩ | ⟨missing, started⟩ :=
        Executor.await_cases timeout session.moment.elapsed resolvedCode
          (Handle.ofCode resolvedCode) session.cache.registry session.pipeline.executor
      · dsimp only [Session.executorOf]
        rw [joined]
        obtain ⟨load, placed, same⟩ := knows.executor.pending _ place present
        exact .of_executor_eq ⟨knows.config, knows.fetcher, knows.entries, knows.loader,
          knows.executor⟩ ⟨knowsClient, resolved, rfl, load, placed, same⟩ rfl
      · dsimp only [Session.executorOf]
        rw [started]
        refine ⟨⟨knows.config, knows.fetcher, knows.entries, knows.loader.withLoads _,
          knows.executor.start member _⟩, ⟨knowsClient, resolved, rfl, ?_⟩, List.prefix_append _ _, ?_⟩
        · exact ⟨_, List.getElem?_concat_length, rfl⟩
        · intro place high low
          simp only [Session.withExecutor, List.length_append, List.length_singleton] at low
          have same : place = session.pipeline.executor.loads.length := by omega
          rw [same]
          rfl

/-- The outcome of the load that an execution waits for is that of its own module. -/
theorem KnowsExecutor.outcome_eq
    {executor : Executor}
    {execution : Execution}
    {load : Load}
    {outcome : Except Failure Exports}
    (collisionFree : work.CollisionFree)
    (knows : work.KnowsExecutor executor)
    (member : execution.resolvedCode ∈ work.hashed)
    (handle : execution.handle = Handle.ofCode execution.resolvedCode)
    (placed : executor.loads[execution.load]? = some load)
    (same : load.url = execution.handle.url)
    (ended : executor.outcome? execution.load = some outcome) :
    outcome = Exports.ofText execution.resolvedCode := by
  obtain ⟨code, codeMember, address, exported⟩ :=
    knows.loads load (List.mem_of_getElem? placed)
  have sameAddress : (Handle.ofCode code).url = (Handle.ofCode execution.resolvedCode).url := by
    rw [← address, same, handle]
  have sameCode : code = execution.resolvedCode :=
    collisionFree _ codeMember _ member (Handle.hash_of_url_eq sameAddress)
  subst sameCode
  apply exported
  simpa [Executor.outcome?, placed] using ended

/-- Going on after a load that has ended in time. -/
theorem proceeds_resume
    {client : Client}
    {compiledCode : Text}
    {execution : Execution}
    {outcome : Session × Stage × List Event}
    (collisionFree : work.CollisionFree)
    (knows : work.KnowsSession session)
    (stage : work.KnowsStage session.pipeline.executor.loads (.wait client compiledCode execution))
    (resumed : session.resume client compiledCode execution = some outcome)
    (inTime : .timedOut ∉ outcome.2.2) :
    Proceeds work session outcome := by
  obtain ⟨knowsClient, resolved, handle, load, placed, same⟩ := stage
  have own : session.executorOf client = session.pipeline.executor := by
    cases client with
    | caller =>
        cases knowsClient
    | request request inputHash warnings =>
        rfl
  obtain rfl := Session.resume_eq_some resumed
  rw [own] at inTime ⊢
  cases ended : session.pipeline.executor.outcome? execution.load with
  | none =>
      simp [ended] at inTime
  | some found =>
      have exported := knows.executor.outcome_eq collisionFree
        (knowsClient.resolved_mem resolved) handle placed same ended
      have agrees : Pipeline.Agrees work.config compiledCode
          (Executor.resultOf execution (some found)) := by
        rw [exported]
        exact Pipeline.agrees_resultOf resolved handle
      refine .of_executor_eq knows ?_ rfl
      dsimp only
      split <;> exact ⟨knowsClient, agrees⟩

/-- Reporting the result of an execution. -/
theorem proceeds_conclude
    {client : Client}
    {compiledCode : Text}
    {result : ExecutionResult}
    (backs : session.Backs held)
    (knows : work.KnowsSession session)
    (knowsClient : work.KnowsClient compiledCode client)
    (agrees : Pipeline.Agrees work.config compiledCode result) :
    Proceeds work session (session.conclude client compiledCode result) := by
  cases client with
  | caller =>
      cases knowsClient
  | request request inputHash warnings =>
      obtain ⟨source, compiles, rfl⟩ := knowsClient
      have gist := Pipeline.gist_conclude agrees source session.pipeline
        session.moment.clock request warnings
      cases result with
      | error failed =>
          have same := session.pipeline.sameWork_conclude_error session.moment.clock request
            (sha256Hex source) compiledCode warnings failed
          refine .of_executor_eq (knows.withPipeline same) ?_ same.executor
          exact ⟨compiles.provides.asked, .inl (gist.trans compiles.verdict_eq.symm)⟩
      | ok executed =>
          let artifact := session.pipeline.executedArtifact session.moment.clock request
            (sha256Hex source) compiledCode executed
          have sound := Pipeline.sound_kept session.pipeline backs.cache session.moment.clock
            request artifact
          have essence := Pipeline.essence_executedArtifact source agrees session.pipeline
            session.moment.clock request
          obtain ⟨leads, address, -, -⟩ := agrees
          have content : work.KnowsContent
              (Cache.keyFor request.provenance artifact.inputHash, artifact) :=
            ⟨request, source, executed.resolvedCode, executed.componentExport, compiles, leads, rfl,
              essence, congrArg some address⟩
          have given : ∀ fresh ∈ [(Cache.keyFor request.provenance artifact.inputHash, artifact)],
              work.KnowsContent fresh := by
            intro fresh member
            obtain rfl := List.mem_singleton.mp member
            exact content
          refine .of_executor_eq ((knows.answer request _).withCache sound given) ?_ rfl
          exact ⟨compiles.provides.asked, .inl (gist.trans compiles.verdict_eq.symm)⟩

/-- Every step of a call of the workload that does not run out of time. -/
theorem proceeds_step
    {stage : Stage}
    {outcome : Session × Stage × List Event}
    (collisionFree : work.CollisionFree)
    (backs : session.Backs stage.held)
    (knows : work.KnowsSession session)
    (knowsStage : work.KnowsStage session.pipeline.executor.loads stage)
    (stepped : stage.step session = some outcome)
    (inTime : .timedOut ∉ outcome.2.2) :
    Proceeds work session outcome := by
  cases stage with
  | fresh call =>
      cases stepped
      cases call with
      | process request =>
          exact proceeds_begins collisionFree backs knows knowsStage
            (session.begins_beginRequest request)
      | prune =>
          exact proceeds_goOn knows (Cache.sound_pruned backs.cache)
            (fun _ member => by cases member) trivial
      | clear =>
          exact proceeds_goOn knows (Cache.sound_cleared session.cache)
            (fun _ member => by cases member) trivial
      | execute | get | getByOutputHash | put | acquire | retain | release =>
          cases knowsStage
  | compile request source =>
      cases stepped
      exact proceeds_compileRequest knows knowsStage
  | seek client options compiledCode =>
      cases stepped
      exact proceeds_seek backs knows knowsStage options
  | adopt client timeout compiledCode entry =>
      cases stepped
      obtain ⟨knowsClient, content, hash⟩ := knowsStage
      exact proceeds_adopt collisionFree knows knowsClient content hash timeout
  | enter client timeout compiledCode =>
      cases stepped
      exact proceeds_enter knows knowsStage timeout
  | join client timeout compiledCode resolvedCode handle =>
      cases stepped
      obtain ⟨knowsClient, resolved, rfl⟩ := knowsStage
      exact proceeds_join knows knowsClient resolved timeout
  | wait client compiledCode execution =>
      exact proceeds_resume collisionFree knows knowsStage stepped inTime
  | conclude client compiledCode result =>
      cases stepped
      obtain ⟨knowsClient, agrees⟩ := knowsStage
      exact proceeds_conclude backs knows knowsClient agrees
  | release urls rest =>
      cases urls with
      | nil =>
          cases stepped
          exact .of_executor_eq knows knowsStage rfl
      | cons url urls =>
          cases stepped
          exact .of_executor_eq (knows.withRegistry (knows.loader.releaseRegistry url))
            knowsStage rfl
  | done result =>
      cases stepped

end LiveComponent.Workload
