import LiveComponent.Proofs.Loading

namespace LiveComponent

/-!
# Loading under traffic

Every step of a call keeps the loader and the executors genuine, and no load that was started gets lost.
So this is kept however calls interleave, as long as the texts that are hashed for them are among those
of the run.
-/

variable
  {config : Config}
  {fetcher : Option Fetcher}
  {texts : List Text}
  {session : Session}
  {held : List Text}

/-! ## Steps of a call -/

namespace Session

/-- A step of a call after which the session and the call are genuine and no load is lost. -/
structure LeavesGenuine
    (config : Config)
    (fetcher : Option Fetcher)
    (texts : List Text)
    (session : Session)
    (outcome : Session × Stage × List Event) :
    Prop where
  grown :
    ∀ client, session.loadsOf client <+: outcome.1.loadsOf client
  stage :
    outcome.2.1.Genuine config fetcher texts outcome.1.loadsOf
  session :
    outcome.1.Genuine config fetcher texts

/-- A step that starts no load. -/
theorem LeavesGenuine.of_executors
    {outcome : Session × Stage × List Event}
    (genuine : outcome.1.Genuine config fetcher texts)
    (stage : outcome.2.1.Genuine config fetcher texts session.loadsOf)
    (same : ∀ client, outcome.1.executorOf client = session.executorOf client) :
    LeavesGenuine config fetcher texts session outcome := by
  have loads (client : Client) : outcome.1.loadsOf client = session.loadsOf client :=
    congrArg Executor.loads (same client)
  refine ⟨fun client => (loads client).symm ▸ List.prefix_rfl, ?_, genuine⟩
  rw [funext loads]
  exact stage

/-- Going on with a changed cache. -/
theorem leavesGenuine_goOn
    {change : CacheChange}
    {rest : Stage}
    (genuine : session.Genuine config fetcher texts)
    (same : change.cache.registry = session.cache.registry)
    (stage : rest.Genuine config fetcher texts session.loadsOf) :
    LeavesGenuine config fetcher texts session (session.goOn change rest) :=
  .of_executors (genuine.withCache same) stage fun client => executorOf_withCache session _ client

/-- Using the registry. -/
theorem leavesGenuine_registry
    {registry : Registry}
    {next : Stage}
    {events : List Event}
    (genuine : session.Genuine config fetcher texts)
    (loader : registry.loader.Genuine texts)
    (stage : next.Genuine config fetcher texts session.loadsOf) :
    LeavesGenuine config fetcher texts session (session.withRegistry registry, next, events) :=
  .of_executors (genuine.withRegistry loader) stage fun client =>
    executorOf_withCache session _ client

/-- Giving an answer. -/
theorem leavesGenuine_answer
    (genuine : session.Genuine config fetcher texts)
    (request : SourceModule)
    (answer : Answer) :
    LeavesGenuine config fetcher texts session (session.answer request answer) :=
  .of_executors (genuine.withPipeline ⟨rfl, rfl, rfl, rfl⟩) trivial fun client => by
    cases client <;> rfl

/-- Giving an answer while the cache changes. -/
theorem leavesGenuine_answered
    {change : CacheChange}
    (genuine : session.Genuine config fetcher texts)
    (same : change.cache.registry = session.cache.registry)
    (request : SourceModule)
    (answer : Answer) :
    LeavesGenuine config fetcher texts session
      ((session.answer request answer).1.goOn change (session.answer request answer).2.1) :=
  .of_executors
    ((leavesGenuine_answer genuine request answer).session.withCache same) trivial fun client => by
      cases client <;> rfl

/-- Beginning a request. -/
theorem leavesGenuine_begins
    {request : SourceModule}
    {outcome : Session × Stage × List Event}
    (backs : session.Backs held)
    (genuine : session.Genuine config fetcher texts)
    (known : Pipeline.hashedTexts config fetcher request ⊆ texts)
    (begins : session.Begins request outcome) :
    LeavesGenuine config fetcher texts session outcome := by
  have looked (source : Text) := Cache.sound_lookedUp backs.cache backs.backed session.moment.clock
    (Cache.keyFor request.provenance (sha256Hex source))
  have provided {source : Text} (found : session.pipeline.sourceText request = .ok source) :
      Pipeline.sourceOf fetcher request = .ok source := by
    rw [← genuine.fetches]
    exact found
  cases begins with
  | sourceless | blank =>
      exact leavesGenuine_answer genuine request _
  | uncached source found solid ignores =>
      exact .of_executors genuine ⟨provided found, known⟩ fun client => rfl
  | missed source change found solid reads missed =>
      have sound := looked source
      rw [missed] at sound
      exact leavesGenuine_goOn genuine sound.registry ⟨provided found, known⟩
  | hit source change entry found solid reads hit =>
      have sound := looked source
      rw [hit] at sound
      exact leavesGenuine_answered genuine sound.registry request _

/-- Compiling the source of a request. -/
theorem leavesGenuine_compileRequest
    {request : SourceModule}
    {source : Text}
    (genuine : session.Genuine config fetcher texts)
    (found : Pipeline.sourceOf fetcher request = .ok source)
    (known : Pipeline.hashedTexts config fetcher request ⊆ texts) :
    LeavesGenuine config fetcher texts session (session.compileRequest request source) := by
  unfold compileRequest
  rw [genuine.configured]
  split
  · exact leavesGenuine_answer genuine request _
  next warnings compiledCode compiled =>
    have compiled := congrArg Prod.snd compiled
    exact .of_executors genuine
      ⟨Pipeline.loadable_of_compile found compiled known, source, found, rfl, compiled⟩
      fun client => rfl

/-- Looking for an entry with the same code. -/
theorem leavesGenuine_seek
    {client : Client}
    {code : Text}
    (backs : session.Backs held)
    (genuine : session.Genuine config fetcher texts)
    (loadable : code.Loadable config texts)
    (compiles : client.Compiles config fetcher code)
    (options : ExecuteOptions) :
    LeavesGenuine config fetcher texts session (session.seek client options code) := by
  unfold seek
  split
  · have sound := Cache.sound_lookedUpByOutputHash backs.cache backs.backed session.moment.clock
      (sha256Hex code)
    refine leavesGenuine_goOn genuine sound.registry ?_
    split <;> exact ⟨loadable, compiles⟩
  · exact .of_executors genuine ⟨loadable, compiles⟩ fun client => rfl

/-- Taking another reference to the handle of an entry. -/
theorem leavesGenuine_adopt
    {client : Client}
    {code : Text}
    (genuine : session.Genuine config fetcher texts)
    (loadable : code.Loadable config texts)
    (compiles : client.Compiles config fetcher code)
    (timeout : Nat)
    (entry : CacheEntry) :
    LeavesGenuine config fetcher texts session (session.adopt client timeout code entry) := by
  unfold adopt
  obtain same | ⟨url, resolvedCode, registry, kept, -, -, retained, adopted⟩ :=
    Executor.adopt_cases session.pipeline.config entry session.cache.registry
  · rw [same]
    exact leavesGenuine_registry genuine genuine.loader ⟨loadable, compiles⟩
  · rw [adopted]
    refine leavesGenuine_registry genuine (genuine.loader.retain retained) ?_
    cases kept <;> exact ⟨loadable, compiles⟩

/-- Making code loadable. -/
theorem leavesGenuine_enter
    {client : Client}
    {code : Text}
    (genuine : session.Genuine config fetcher texts)
    (loadable : code.Loadable config texts)
    (compiles : client.Compiles config fetcher code)
    (timeout : Nat) :
    LeavesGenuine config fetcher texts session (session.enter client timeout code) := by
  unfold enter
  rw [genuine.configured]
  split
  · exact .of_executors genuine ⟨loadable, compiles⟩ fun client => rfl
  next resolvedCode resolved =>
    split
    · exact .of_executors genuine ⟨loadable, compiles⟩ fun client => rfl
    next registry handle acquired =>
      have made := (Registry.acquire_eq_ok acquired).1
      exact leavesGenuine_registry genuine
        (genuine.loader.materialize (loadable.resolved resolvedCode resolved) made)
        ⟨loadable, compiles, resolved, (Loader.materialize_eq_ok made).1⟩

/-- Joining a load or starting one. -/
theorem leavesGenuine_join
    {client : Client}
    {code resolvedCode : Text}
    (genuine : session.Genuine config fetcher texts)
    (loadable : code.Loadable config texts)
    (compiles : client.Compiles config fetcher code)
    (resolved : Specifier.rewriteImports config code = .ok resolvedCode)
    (timeout : Nat) :
    LeavesGenuine config fetcher texts session
      (session.join client timeout code resolvedCode (Handle.ofCode resolvedCode)) := by
  have genuineExecutor := genuine.executors client
  unfold join
  obtain ⟨place, joined, same⟩ | ⟨-, started⟩ :=
    Executor.await_cases timeout session.moment.elapsed resolvedCode (Handle.ofCode resolvedCode)
      session.cache.registry (session.executorOf client)
  · obtain ⟨load, placed, address⟩ := genuineExecutor.pending _ place joined
    have unchanged : (session.withRegistry session.cache.registry).withExecutor
        (session.executorOf client) client = session := by
      cases client <;> rfl
    rw [same]
    dsimp only
    rw [unchanged]
    exact .of_executors genuine ⟨loadable, compiles, resolved, rfl, load, placed, address⟩
      fun client => rfl
  · rw [started]
    have grown := genuineExecutor.start (loadable.resolved resolvedCode resolved)
      (session.moment.elapsed + session.cache.registry.loader.delay)
    refine ⟨fun other => ?_, ⟨loadable, compiles, resolved, rfl, ?_⟩,
      (genuine.withRegistry ?_).withExecutor grown client⟩
    · cases client <;> cases other <;> first | exact List.prefix_append _ _ | exact List.prefix_rfl
    · cases client <;> exact ⟨_, List.getElem?_concat_length, rfl⟩
    · exact genuine.loader

/-- Going on after a load. -/
theorem leavesGenuine_resume
    {client : Client}
    {code : Text}
    {execution : Execution}
    {outcome : Session × Stage × List Event}
    (genuine : session.Genuine config fetcher texts)
    (loadable : code.Loadable config texts)
    (compiles : client.Compiles config fetcher code)
    (resumed : session.resume client code execution = some outcome) :
    LeavesGenuine config fetcher texts session outcome := by
  obtain rfl := resume_eq_some resumed
  refine .of_executors genuine ?_ fun client => rfl
  dsimp only
  split <;> exact ⟨loadable, compiles⟩

/-- Reporting the result of an execution. -/
theorem leavesGenuine_conclude
    (backs : session.Backs held)
    (genuine : session.Genuine config fetcher texts)
    (client : Client)
    (code : Text)
    (result : ExecutionResult) :
    LeavesGenuine config fetcher texts session (session.conclude client code result) := by
  cases client with
  | caller =>
      exact .of_executors genuine trivial fun client => rfl
  | request request inputHash warnings =>
      cases result with
      | error failed =>
          have same := session.pipeline.sameWork_conclude_error session.moment.clock request
            inputHash code warnings failed
          refine .of_executors (genuine.withPipeline same) trivial fun client => ?_
          cases client with
          | request => exact same.executor
          | caller => rfl
      | ok executed =>
          exact leavesGenuine_answered genuine
            (session.pipeline.sound_kept backs.cache _ request _).registry request _

/-- Beginning a call. -/
theorem leavesGenuine_begin
    {call : Call}
    (backs : session.Backs held)
    (genuine : session.Genuine config fetcher texts)
    (known : call.hashedTexts config fetcher ⊆ texts) :
    LeavesGenuine config fetcher texts session (session.begin call) := by
  cases call with
  | process request =>
      exact leavesGenuine_begins backs genuine known (session.begins_beginRequest request)
  | execute code options =>
      exact .of_executors genuine ⟨Call.loadable_execute known, trivial⟩ fun client => rfl
  | get key =>
      exact leavesGenuine_goOn genuine
        (Cache.sound_lookedUp backs.cache backs.backed _ key).registry trivial
  | getByOutputHash hash =>
      exact leavesGenuine_goOn genuine
        (Cache.sound_lookedUpByOutputHash backs.cache backs.backed _ hash).registry trivial
  | put key artifact =>
      exact leavesGenuine_goOn genuine
        (Cache.sound_taken backs.cache _ key artifact).registry trivial
  | prune =>
      exact leavesGenuine_goOn genuine (Cache.sound_pruned backs.cache).registry trivial
  | clear =>
      exact leavesGenuine_goOn genuine (Cache.sound_cleared session.cache).registry trivial
  | acquire code =>
      dsimp only [begin]
      split
      · exact .of_executors genuine trivial fun client => rfl
      next registry handle acquired =>
        have made := (Registry.acquire_eq_ok acquired).1
        exact leavesGenuine_registry genuine
          (genuine.loader.materialize (known (List.mem_singleton_self _)) made) trivial
  | retain url =>
      exact leavesGenuine_registry genuine (genuine.loader.retain rfl) trivial
  | release url =>
      exact leavesGenuine_registry genuine (genuine.loader.releaseRegistry url) trivial

/-- Every step of a call. -/
theorem leavesGenuine_step
    {stage : Stage}
    {outcome : Session × Stage × List Event}
    (backs : session.Backs stage.held)
    (genuine : session.Genuine config fetcher texts)
    (genuineStage : stage.Genuine config fetcher texts session.loadsOf)
    (stepped : stage.step session = some outcome) :
    LeavesGenuine config fetcher texts session outcome := by
  cases stage with
  | fresh call =>
      cases stepped
      exact leavesGenuine_begin backs genuine genuineStage
  | compile request source =>
      cases stepped
      exact leavesGenuine_compileRequest genuine genuineStage.1 genuineStage.2
  | seek client options code =>
      cases stepped
      exact leavesGenuine_seek backs genuine genuineStage.1 genuineStage.2 options
  | adopt client timeout code entry =>
      cases stepped
      exact leavesGenuine_adopt genuine genuineStage.1 genuineStage.2 timeout entry
  | enter client timeout code =>
      cases stepped
      exact leavesGenuine_enter genuine genuineStage.1 genuineStage.2 timeout
  | join client timeout code resolvedCode handle =>
      cases stepped
      obtain ⟨loadable, compiles, resolved, rfl⟩ := genuineStage
      exact leavesGenuine_join genuine loadable compiles resolved timeout
  | wait client code execution =>
      exact leavesGenuine_resume genuine genuineStage.1 genuineStage.2.1 stepped
  | conclude client code result =>
      cases stepped
      exact leavesGenuine_conclude backs genuine client code result
  | release urls rest =>
      cases urls with
      | nil =>
          cases stepped
          exact .of_executors genuine genuineStage fun client => rfl
      | cons url urls =>
          cases stepped
          exact leavesGenuine_registry genuine (genuine.loader.releaseRegistry url) genuineStage
  | done result =>
      cases stepped

/-- Loads that end when time passes leave a genuine session genuine. -/
theorem Genuine.passTo
    (genuine : session.Genuine config fetcher texts)
    (elapsed : Nat) :
    (session.passTo elapsed).Genuine config fetcher texts where
  configured := genuine.configured
  fetches := genuine.fetches
  loader := genuine.loader
  executors client := by
    have ended := (genuine.executors client).endLoads genuine.loader elapsed
    cases client <;> exact ended

end Session

/-! ## Runs -/

namespace Traffic

/-- The books are right, and the session and all calls on their way are genuine. -/
structure Genuine
    (config : Config)
    (fetcher : Option Fetcher)
    (texts : List Text)
    (state : Traffic) :
    Prop where
  balanced :
    state.Balanced
  session :
    state.session.Genuine config fetcher texts
  stages :
    ∀ stage ∈ state.calls, stage.Genuine config fetcher texts state.session.loadsOf

/-- What is hashed for calls that come in is among the texts. -/
def Hashes
    (config : Config)
    (fetcher : Option Fetcher)
    (texts : List Text)
    (events : List Event) :
    Prop :=
  ∀ event ∈ events, event.hashedTexts config fetcher ⊆ texts

/-- Whatever happens, everything stays genuine. -/
theorem Genuine.afterStep
    {state next : Traffic}
    {events : List Event}
    (genuine : Genuine config fetcher texts state)
    (step : Step state events next)
    (hashes : Hashes config fetcher texts events) :
    Genuine config fetcher texts next := by
  have balanced := (balanced_step genuine.balanced step).1
  cases step with
  | call call entitled =>
      have called : (Stage.fresh call).Genuine config fetcher texts state.session.loadsOf :=
        hashes _ (List.mem_singleton_self _)
      exact ⟨balanced, genuine.session,
        List.forall_mem_append.mpr ⟨genuine.stages, List.forall_mem_singleton.mpr called⟩⟩
  | work before after stage stageAfter session events place stepped =>
      have leaves := Session.leavesGenuine_step (genuine.balanced.backs place) genuine.session
        (genuine.stages stage (mem_calls_of_place place)) stepped
      refine ⟨balanced, leaves.session, forall_calls_replaced place (fun other member => ?_)
        leaves.stage⟩
      refine (genuine.stages other member).mono fun client index load placed => ⟨load, ?_, rfl⟩
      have within := (List.getElem?_eq_some_iff.mp placed).1
      obtain ⟨started, grown⟩ := leaves.grown client
      rw [← grown, List.getElem?_append_left within, placed]
  | leave before after result place =>
      exact ⟨balanced, genuine.session, forall_calls_left place genuine.stages⟩
  | pass elapsed later =>
      refine ⟨balanced, genuine.session.passTo elapsed, fun stage member => ?_⟩
      refine (genuine.stages stage member).mono fun client index load placed => ?_
      refine ⟨Executor.endLoad state.session.loader elapsed load, ?_,
        Executor.Genuine.url_endLoad _ _ _⟩
      cases client <;> exact (List.getElem?_map ..).trans (congrArg (Option.map _) placed)
  | tick clock =>
      refine ⟨balanced, ⟨genuine.session.configured, genuine.session.fetches,
        genuine.session.loader, fun client => ?_⟩, fun stage member => ?_⟩
      · have executor := genuine.session.executors client
        cases client <;> exact executor
      · refine (genuine.stages stage member).mono fun client index load placed => ⟨load, ?_, rfl⟩
        cases client <;> exact placed
  | storeChanges store present =>
      refine ⟨balanced, genuine.session.withCache rfl, fun stage member => ?_⟩
      refine (genuine.stages stage member).mono fun client index load placed => ⟨load, ?_, rfl⟩
      cases client <;> exact placed
  | loaderChanges delay offline breaks =>
      refine ⟨balanced, genuine.session.withRegistry genuine.session.loader, fun stage member => ?_⟩
      refine (genuine.stages stage member).mono fun client index load placed => ⟨load, ?_, rfl⟩
      cases client <;> exact placed
  | reorder order same =>
      refine ⟨balanced, genuine.session.withCache rfl, fun stage member => ?_⟩
      refine (genuine.stages stage member).mono fun client index load placed => ⟨load, ?_, rfl⟩
      cases client <;> exact placed

/-- A new session over a loader without modules is genuine. -/
theorem genuine_ofConfig
    {loader : Loader}
    {store : Option Store}
    {moment : Moment}
    {session : Session}
    (fresh : loader.modules = [])
    (opened : Session.ofConfig config fetcher loader store moment = .ok session) :
    Genuine config fetcher texts { session } := by
  have balanced := balanced_ofConfig fresh opened
  obtain ⟨-, rfl⟩ := Session.ofConfig_eq_ok.mp opened
  have cache : Cache.Opened { loader } (Cache.ofStore config store { loader }) :=
    Cache.opened_ofStore config store rfl
  refine ⟨balanced, ⟨rfl, rfl, fun url code found => ?_, fun client => ⟨?_, ?_⟩⟩, ?_⟩
  · simp only [Session.cache, cache.registry, fresh] at found
    cases found
  · intro load member
    cases client <;> cases member
  · intro url place found
    cases client <;> cases found
  · exact List.forall_mem_nil _

end Traffic

end LiveComponent
