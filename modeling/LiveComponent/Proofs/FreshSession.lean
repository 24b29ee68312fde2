import LiveComponent.Proofs.CacheOpening
import LiveComponent.Proofs.Verdict

namespace LiveComponent

/-!
# Fresh sessions

A session without cache entries and modules, whose loads have ended and whose loader works at once,
answers a request with the verdict on it.  If it could not execute the source, it is fresh again.
-/

namespace Cache

variable {cache : Cache}

/-- Nothing is found in a cache without entries. -/
theorem get_of_entries_nil
    (none : cache.entries = [])
    (now : Instant)
    (key : Text) :
    cache.get now key = (cache, .none) := by
  have missing : cache.find? key = .none := by
    simp [find?, none]
  cases on : cache.enabled <;>
    simp [get, lookedUp, on, missing]

/-- Nothing is found in a cache without entries. -/
theorem getByOutputHash_of_entries_nil
    (none : cache.entries = [])
    (now : Instant)
    (hash : Text) :
    cache.getByOutputHash now hash = (cache, .none) := by
  simp [getByOutputHash, lookedUpByOutputHash, none]

end Cache

namespace Session

/-! ## Running a single task -/

/-- A task that is done at once is all that a session runs. -/
theorem run_of_done
    {session after : Session}
    {task : Task}
    {result : TaskResult}
    (started : session.startTask task = (after, .done result)) :
    session.run [task] = (after.endLoads, [result]) := by
  simp [run, startTasks, started, wait, resumeTasks, resumeTask, List.filterMap_cons, deadline?,
    result?]

/-- A task whose load ends at once is finished with the outcome of this load. -/
theorem run_of_waiting
    {session after : Session}
    {task : Task}
    {rest : WaitingTask}
    {outcome : Except Failure Exports}
    (started : session.startTask task = (after, .waiting rest))
    (ended : after.endLoads.outcome? rest = some outcome) :
    let finished := after.endLoads.finishTask rest (some outcome)
    session.run [task] = (finished.1, [finished.2]) := by
  simp [run, startTasks, started, wait, resumeTasks, resumeTask, ended, List.filterMap_cons,
    deadline?, result?]

/-! ## Fresh sessions -/

/-- A session without entries, references and modules, whose loads have ended and whose loader works at
once. -/
structure IsFresh
    (config : Config)
    (fetcher : Option Fetcher)
    (session : Session) :
    Prop where
  config :
    session.pipeline.config = config
  fetcher :
    session.pipeline.fetcher = fetcher
  entries :
    session.pipeline.cache.entries = []
  refs :
    session.pipeline.cache.registry.refs = []
  modules :
    session.pipeline.cache.registry.loader.modules = []
  pending :
    session.pipeline.executor.pending = []
  delay :
    session.pipeline.cache.registry.loader.delay = 0
  online :
    session.pipeline.cache.registry.loader.offline = false
  steady :
    session.pipeline.cache.registry.loader.breaks = false

/-- A new session over a new loader is fresh if it took over no entry from its store. -/
theorem isFresh_ofConfig
    {config : Config}
    {fetcher : Option Fetcher}
    {store : Option Store}
    {moment : Moment}
    {session : Session}
    (opened : ofConfig config fetcher {} store moment = .ok session)
    (empty : session.cache.entries = []) :
    session.IsFresh config fetcher := by
  obtain ⟨-, rfl⟩ := ofConfig_eq_ok.mp opened
  have registry : (Cache.ofStore config store {}).registry = {} :=
    (Cache.opened_ofStore config store rfl).registry
  refine ⟨rfl, rfl, empty, ?_, ?_, rfl, ?_, ?_, ?_⟩ <;>
    simp only [registry]

namespace IsFresh

variable
  {config : Config}
  {fetcher : Option Fetcher}
  {session : Session}

/-- A fresh session whose pipeline only told something is fresh. -/
theorem withPipeline
    (fresh : session.IsFresh config fetcher)
    {pipeline : Pipeline}
    (same : session.pipeline.SameWork pipeline) :
    IsFresh config fetcher { session with pipeline := pipeline } where
  config := same.config.trans fresh.config
  fetcher := same.fetcher.trans fresh.fetcher
  entries := (congrArg Cache.entries same.cache).trans fresh.entries
  refs := (congrArg (fun cache => cache.registry.refs) same.cache).trans fresh.refs
  modules := (congrArg (fun cache => cache.registry.loader.modules) same.cache).trans fresh.modules
  pending := (congrArg Executor.pending same.executor).trans fresh.pending
  delay := (congrArg (fun cache => cache.registry.loader.delay) same.cache).trans fresh.delay
  online := (congrArg (fun cache => cache.registry.loader.offline) same.cache).trans fresh.online
  steady := (congrArg (fun cache => cache.registry.loader.breaks) same.cache).trans fresh.steady

/-- A fresh session stays fresh when loads end. -/
theorem endLoads
    (fresh : session.IsFresh config fetcher) :
    session.endLoads.IsFresh config fetcher where
  config := fresh.config
  fetcher := fresh.fetcher
  entries := fresh.entries
  refs := fresh.refs
  modules := fresh.modules
  pending := by simp [Session.endLoads, Executor.endLoads, fresh.pending]
  delay := fresh.delay
  online := fresh.online
  steady := fresh.steady

/-! ### Loading -/

/-- The execution that a fresh session starts for a request. -/
def loadingExecution
    (session : Session)
    (request : SourceModule)
    (resolvedCode : Text) :
    Execution :=
  let options := Pipeline.executeOptions session.pipeline.config request
  ⟨resolvedCode, Handle.ofCode resolvedCode, session.pipeline.executor.loads.length, options.timeout,
    session.moment.elapsed + options.timeout⟩

/-- The handles of a fresh session when the load of a module has started. -/
def loadingRegistry (session : Session) (resolvedCode : Text) : Registry :=
  let handle := Handle.ofCode resolvedCode
  let loader := session.pipeline.cache.registry.loader
  { loader := { loader with
      modules := [(handle.url, resolvedCode)]
      loads := loader.loads + 1 }
    refs := [(handle.url, 1)] }

/-- The loads of a fresh session when the load of a module has started. -/
def loadingExecutor (session : Session) (resolvedCode : Text) : Executor :=
  let url := (Handle.ofCode resolvedCode).url
  let loads := session.pipeline.executor.loads
  ⟨loads ++ [⟨url, session.moment.elapsed, none⟩], [(url, loads.length)]⟩

/-- A fresh session when the load of a module has started. -/
def loading (session : Session) (resolvedCode : Text) : Session :=
  { session with
    pipeline := { session.pipeline with
      cache := { session.pipeline.cache with registry := loadingRegistry session resolvedCode }
      executor := loadingExecutor session resolvedCode } }

/-- A fresh session looks for no module in its cache. -/
theorem start_eq_enter
    (fresh : session.IsFresh config fetcher)
    (options : ExecuteOptions)
    (compiledCode : Text) :
    Executor.start session.pipeline.config options session.moment compiledCode
        session.pipeline.cache session.pipeline.executor =
      Executor.enter session.pipeline.config options.timeout session.moment.elapsed compiledCode
        session.pipeline.cache session.pipeline.executor := by
  have missing (hash : Text) :
      session.pipeline.cache.getByOutputHash session.moment.clock hash =
        (session.pipeline.cache, none) :=
    Cache.getByOutputHash_of_entries_nil fresh.entries _ _
  cases uses : options.useCache <;>
    simp [Executor.start, uses, Executor.cached, missing]

/-- A fresh session starts a load for compiled code. -/
theorem enter_eq
    (fresh : session.IsFresh config fetcher)
    {compiledCode resolvedCode : Text}
    (request : SourceModule)
    (resolved : Specifier.rewriteImports session.pipeline.config compiledCode =
      .ok resolvedCode) :
    Executor.enter session.pipeline.config
        (Pipeline.executeOptions session.pipeline.config request).timeout
        session.moment.elapsed compiledCode session.pipeline.cache session.pipeline.executor =
      ((loading session resolvedCode).pipeline.cache,
        (loading session resolvedCode).pipeline.executor,
        .waiting (loadingExecution session request resolvedCode)) := by
  simp [Executor.enter, resolved, Registry.acquire, Loader.materialize, Registry.refCount,
    Executor.await, Executor.join, fresh.online, fresh.modules, fresh.refs, fresh.delay,
    fresh.pending, Table.put, loading, loadingRegistry, loadingExecutor, loadingExecution]

/-- The load that a fresh session has started ends at once with the exports of the module. -/
theorem outcome_eq
    (fresh : session.IsFresh config fetcher)
    (resolvedCode : Text) :
    (loading session resolvedCode).endLoads.pipeline.executor.outcome?
        session.pipeline.executor.loads.length =
      some (Exports.ofText resolvedCode) := by
  simp [loading, Session.endLoads, Executor.outcome?, Executor.endLoads, loadingExecutor,
    Executor.endLoad, Executor.Load.endsBy, Session.loader, Session.registry, loadingRegistry,
    fresh.steady, Loader.load, Table.get?_cons]

/-- No load is left to join when that of a fresh session has ended. -/
theorem pending_endLoads
    (fresh : session.IsFresh config fetcher)
    (resolvedCode : Text) :
    (loading session resolvedCode).endLoads.pipeline.executor.pending = [] := by
  simp [loading, Session.endLoads, Executor.endLoads, loadingExecutor, Executor.Load.endsBy,
    Session.loader, Session.registry, loadingRegistry, fresh.steady]

/-- With its only reference the module of a load is gone. -/
theorem release_loadingRegistry
    (session : Session)
    (resolvedCode : Text) :
    let url := (Handle.ofCode resolvedCode).url
    let loader := session.pipeline.cache.registry.loader
    (loadingRegistry session resolvedCode).release url =
      ⟨{ loader with
          modules := []
          loads := loader.loads + 1
          released := url :: loader.released }, []⟩ := by
  simp [loadingRegistry, Registry.release, Table.get?_cons, Table.erase, Loader.release]

/-- A fresh session is fresh again when it has loaded a module and given back its handle. -/
theorem released
    (fresh : session.IsFresh config fetcher)
    (resolvedCode : Text) :
    let loaded := (loading session resolvedCode).endLoads
    IsFresh config fetcher
      (loaded.withRegistry (loaded.registry.release (Handle.ofCode resolvedCode).url)) := by
  intro loaded
  have gone : loaded.registry.release (Handle.ofCode resolvedCode).url = _ :=
    release_loadingRegistry session resolvedCode
  rw [gone]
  exact ⟨fresh.config, fresh.fetcher, fresh.entries, rfl, rfl, fresh.pending_endLoads resolvedCode,
    fresh.delay, fresh.online, fresh.steady⟩

end IsFresh

/-! ## Requests to fresh sessions -/

/-- A request is answered at once, and apart from its history the pipeline stays as it is. -/
def TellsAtOnce (session : Session) (request : SourceModule) (gist : Gist) : Prop :=
  ∃ pipeline answer,
    session.pipeline.SameWork pipeline ∧
      session.startTask (.process request) =
        ({ session with pipeline := pipeline }, .done (.answered answer)) ∧
      answer.gist = gist

/-- A failure that precedes the load of a module is told at once. -/
theorem tellsAtOnce_refuse
    {session : Session}
    {request : SourceModule}
    {failure : Failure}
    {warnings : List Text}
    (started :
      session.pipeline.start session.moment request = session.pipeline.refuse failure warnings) :
    session.TellsAtOnce request (.ofFailure failure none) := by
  let told := session.pipeline.answer (.ofFailure failure warnings none)
  refine ⟨told.1, told.2, ⟨rfl, rfl, rfl, rfl⟩, ?_, rfl⟩
  simp only [startTask, started, Pipeline.refuse]
  rfl

namespace IsFresh

variable
  {config : Config}
  {fetcher : Option Fetcher}
  {session : Session}

/-- A fresh session tells at once that a request has no source, and compiles all others. -/
theorem start_source
    (fresh : session.IsFresh config fetcher)
    (request : SourceModule) :
    (session.TellsAtOnce request (Pipeline.verdict config fetcher request) ∧
      (Pipeline.verdict config fetcher request).success = false) ∨
    ∃ source,
      Pipeline.sourceOf fetcher request = .ok source ∧
        Text.isBlankText source = false ∧
        session.pipeline.start session.moment request =
          session.pipeline.recompile session.moment request source := by
  obtain rfl := fresh.fetcher
  cases found : Pipeline.sourceOf session.pipeline.fetcher request with
  | error failure =>
      have verdict : Pipeline.verdict config session.pipeline.fetcher request =
          .ofFailure failure none := by
        simp [Pipeline.verdict, found]
      have refused : session.pipeline.start session.moment request =
          session.pipeline.refuse failure [] := by
        simp [Pipeline.start, Pipeline.sourceText, found]
      rw [verdict]
      exact .inl ⟨tellsAtOnce_refuse refused, rfl⟩
  | ok source =>
      by_cases blank : Text.isBlankText source
      · have verdict : Pipeline.verdict config session.pipeline.fetcher request =
            .ofFailure .missingSource none := by
          simp [Pipeline.verdict, found, blank]
        have refused : session.pipeline.start session.moment request =
            session.pipeline.refuse .missingSource [] := by
          simp [Pipeline.start, Pipeline.sourceText, found, blank]
        rw [verdict]
        exact .inl ⟨tellsAtOnce_refuse refused, rfl⟩
      · have missing (key : Text) :
            session.pipeline.cache.get session.moment.clock key = (session.pipeline.cache, none) :=
          Cache.get_of_entries_nil fresh.entries _ _
        refine .inr ⟨source, rfl, by simpa using blank, ?_⟩
        simp only [Pipeline.start, Pipeline.sourceText, found, if_neg blank, missing, ite_self]

/-- A fresh session tells at once why a request leads to no load, or starts the load of a module. -/
theorem start_cases
    (fresh : session.IsFresh config fetcher)
    (request : SourceModule) :
    (session.TellsAtOnce request (Pipeline.verdict config fetcher request) ∧
      (Pipeline.verdict config fetcher request).success = false) ∨
    ∃ source warnings compiledCode resolvedCode,
      Pipeline.sourceOf fetcher request = .ok source ∧
        Text.isBlankText source = false ∧
        Pipeline.verdict config fetcher request = Pipeline.judged config source compiledCode ∧
        Specifier.rewriteImports config compiledCode = .ok resolvedCode ∧
        session.startTask (.process request) =
          (loading session resolvedCode,
            .waiting (.processing ⟨request, sha256Hex source, compiledCode, warnings,
              loadingExecution session request resolvedCode⟩)) := by
  rcases fresh.start_source request with told | ⟨source, found, solid, started⟩
  · exact .inl told
  obtain rfl := fresh.config
  cases compiled : Pipeline.compile session.pipeline.config request source with
  | mk warnings result =>
      cases result with
      | error failure =>
          have verdict : Pipeline.verdict session.pipeline.config fetcher request =
              .ofFailure failure none := by
            simp [Pipeline.verdict, found, solid, compiled]
          have refused : session.pipeline.start session.moment request =
              session.pipeline.refuse failure warnings := by
            rw [started, Pipeline.recompile, compiled]
          rw [verdict]
          exact .inl ⟨tellsAtOnce_refuse refused, rfl⟩
      | ok compiledCode =>
          have verdict : Pipeline.verdict session.pipeline.config fetcher request =
              Pipeline.judged session.pipeline.config source compiledCode := by
            simp [Pipeline.verdict, found, solid, compiled]
          have executed : session.pipeline.start session.moment request =
              session.pipeline.execute session.moment request (sha256Hex source) compiledCode
                warnings := by
            rw [started, Pipeline.recompile, compiled]
          cases resolved : Specifier.rewriteImports session.pipeline.config compiledCode with
          | error failure =>
              have agrees : Pipeline.Agrees session.pipeline.config compiledCode
                  (.error ⟨failure, none⟩) := by
                simp [Pipeline.Agrees, Pipeline.examined, resolved]
              have unloaded : (Pipeline.judged session.pipeline.config source
                  compiledCode).success = false := by
                simp [Pipeline.judged, Pipeline.examined, resolved, Gist.ofFailure]
              rw [verdict]
              let told := session.pipeline.conclude session.moment.clock request (sha256Hex source)
                compiledCode warnings (.error ⟨failure, none⟩)
              refine .inl ⟨⟨told.1, told.2, session.pipeline.sameWork_conclude_error _ _ _ _ _ _, ?_,
                Pipeline.gist_conclude agrees source _ _ _ _⟩, unloaded⟩
              simp only [startTask, executed, Pipeline.execute, fresh.start_eq_enter,
                Executor.enter, resolved]
              rfl
          | ok resolvedCode =>
              refine .inr ⟨source, warnings, compiledCode, resolvedCode, found, solid, verdict, resolved,
                ?_⟩
              simp only [startTask, executed, Pipeline.execute, fresh.start_eq_enter,
                fresh.enter_eq request resolved]
              rfl

/-- A fresh session answers a request with the verdict on it.  After a failure it is fresh again; after
a success it has loaded the module of an artifact and handed this over to the cache. -/
theorem run_process
    (fresh : session.IsFresh config fetcher)
    (request : SourceModule) :
    ∃ after answer,
      session.run [.process request] = (after, [.answered answer]) ∧
        answer.gist = Pipeline.verdict config fetcher request ∧
        (answer.success = false ∧ after.IsFresh config fetcher ∧
            after.cache.enabled = session.cache.enabled ∧ after.cache.store = session.cache.store ∨
          answer.success = true ∧ ∃ source resolvedCode artifact,
            Pipeline.sourceOf fetcher request = .ok source ∧
              Text.isBlankText source = false ∧
              artifact.inputHash = sha256Hex source ∧
              artifact.loadUrl = some (Handle.ofCode resolvedCode).url ∧
              after.pipeline.config = config ∧ after.pipeline.fetcher = fetcher ∧
              let kept := (loading session resolvedCode).pipeline.kept session.moment.clock request
                artifact
              after.cache = kept.1.carryOut ∧ answer.artifact = some kept.2) := by
  rcases fresh.start_cases request with
    ⟨⟨pipeline, answer, same, started, gist⟩, failed⟩ |
    ⟨source, warnings, compiledCode, resolvedCode, found, solid, verdict, resolved, started⟩
  · refine ⟨_, answer, run_of_done started, gist,
      .inl ⟨?_, (fresh.withPipeline same).endLoads, ?_, ?_⟩⟩
    · exact (congrArg Gist.success gist).trans failed
    · exact congrArg Cache.enabled same.cache
    · exact congrArg Cache.store same.cache
  · obtain rfl := fresh.config
    obtain rfl := fresh.fetcher
    let execution := loadingExecution session request resolvedCode
    have agrees : Pipeline.Agrees session.pipeline.config compiledCode
        (Executor.resultOf execution (some (Exports.ofText resolvedCode))) :=
      Pipeline.agrees_resultOf resolved rfl
    let loaded := (loading session resolvedCode).endLoads
    let finished := loaded.pipeline.finish session.moment.clock
      ⟨request, sha256Hex source, compiledCode, warnings, execution⟩
      (some (Exports.ofText resolvedCode))
    have ran : session.run [.process request] =
        ({ loaded with pipeline := finished.1 }, [.answered finished.2]) :=
      run_of_waiting started (fresh.outcome_eq resolvedCode)
    refine ⟨_, _, ran, verdict ▸ Pipeline.gist_finish agrees _ _ _ _, ?_⟩
    cases result : Executor.resultOf execution (some (Exports.ofText resolvedCode)) with
    | error failed =>
        have ended := loaded.pipeline.finish_error session.moment.clock request (sha256Hex source)
          compiledCode warnings result
        let released := loaded.withRegistry (loaded.registry.release execution.handle.url)
        have same : released.pipeline.SameWork finished.1 := by
          rw [show finished = _ from ended]
          exact released.pipeline.sameWork_conclude_error _ _ _ _ _ _
        have enabled : finished.1.cache.enabled = released.pipeline.cache.enabled :=
          congrArg Cache.enabled same.cache
        have store : finished.1.cache.store = released.pipeline.cache.store :=
          congrArg Cache.store same.cache
        refine .inl ⟨?_, (fresh.released resolvedCode).withPipeline same, enabled, store⟩
        rw [show finished = _ from ended]
        exact Pipeline.success_conclude_error _ _ _ _ _ _ _
    | ok executed =>
        have ended := loaded.pipeline.finish_ok session.moment.clock request (sha256Hex source)
          compiledCode warnings result
        let artifact := loaded.pipeline.executedArtifact session.moment.clock request
          (sha256Hex source) compiledCode executed
        have kept : artifact.loadUrl = some (Handle.ofCode resolvedCode).url :=
          congrArg some (Executor.loadUrl_resultOf result)
        refine .inr ⟨?_, source, resolvedCode, artifact, found, solid, rfl, kept, ?_⟩
        · rw [show finished = _ from ended]
          rfl
        · rw [show finished = _ from ended]
          exact ⟨rfl, rfl, rfl, rfl⟩

end IsFresh

end Session

end LiveComponent
