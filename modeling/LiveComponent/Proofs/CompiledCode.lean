import LiveComponent.Proofs.HandleTraffic
import LiveComponent.Proofs.Verdict

namespace LiveComponent

/-!
# Only compiled code is told

However calls interleave and whatever fails on the way: as long as nothing else is put into the cache, it
holds only code to which a source was compiled, and every answer tells only such code.
-/

/-- A request has a source with the given hash that is compiled to the given code. -/
def Pipeline.CompilesTo
    (config : Config)
    (fetcher : Option Fetcher)
    (request : SourceModule)
    (inputHash compiledCode : Text) :
    Prop :=
  ∃ source,
    sourceOf fetcher request = .ok source ∧
      inputHash = sha256Hex source ∧
      (compile config request source).2 = .ok compiledCode

/-- The artifact holds what a source with its hash is compiled to in some form. -/
def Artifact.IsCompiled (config : Config) (artifact : Artifact) : Prop :=
  ∃ request source,
    artifact.inputHash = sha256Hex source ∧
      (Pipeline.compile config request source).2 = .ok artifact.compiledCode

/-- A success has an artifact.  The artifact of any answer is compiled, and unless it comes from the
cache, from the source of the request. -/
structure Answer.TellsCompiled
    (config : Config)
    (fetcher : Option Fetcher)
    (request : SourceModule)
    (answer : Answer) :
    Prop where
  complete :
    answer.success = true → answer.artifact.isSome = true
  compiled :
    ∀ artifact ∈ answer.artifact, artifact.IsCompiled config
  own :
    answer.fromCache = false → ∀ artifact ∈ answer.artifact,
      Pipeline.CompilesTo config fetcher request artifact.inputHash artifact.compiledCode

/-- The code is executed for a request that is compiled to it, or for a caller. -/
def Client.Compiles
    (config : Config)
    (fetcher : Option Fetcher)
    (compiledCode : Text) :
    Client → Prop
  | .request asked inputHash _ =>
    Pipeline.CompilesTo config fetcher asked inputHash compiledCode
  | .caller => True

/-- The call puts only a compiled artifact into the cache, if any. -/
def Call.PutsCompiled (config : Config) : Call → Prop
  | .put _ artifact => artifact.IsCompiled config
  | _ => True

/-- The answer that a call leads to, if any, tells only compiled code. -/
def CallResult.TellsCompiled
    (config : Config)
    (fetcher : Option Fetcher) :
    CallResult → Prop
  | .answered request answer => answer.TellsCompiled config fetcher request
  | _ => True

/-- A call puts and tells only compiled code. -/
def Stage.IsCompiled
    (config : Config)
    (fetcher : Option Fetcher) :
    Stage → Prop
  | fresh call => call.PutsCompiled config
  | compile request source => Pipeline.sourceOf fetcher request = .ok source
  | seek client _ compiledCode
  | adopt client _ compiledCode _
  | enter client _ compiledCode
  | join client _ compiledCode _ _
  | wait client compiledCode _
  | conclude client compiledCode _ => client.Compiles config fetcher compiledCode
  | release _ rest => rest.IsCompiled config fetcher
  | done result => result.TellsCompiled config fetcher

/-- The cache of a session holds only compiled artifacts. -/
structure Session.HoldsCompiled
    (config : Config)
    (fetcher : Option Fetcher)
    (session : Session) :
    Prop where
  configured :
    session.pipeline.config = config
  fetches :
    session.pipeline.fetcher = fetcher
  entries :
    ∀ entry ∈ session.cache.entries, entry.artifact.IsCompiled config

variable
  {config : Config}
  {fetcher : Option Fetcher}
  {session : Session}
  {held : List Text}

/-! ## Answers -/

/-- A failure before the code is executed tells no code. -/
theorem Answer.tellsCompiled_ofFailure
    (request : SourceModule)
    (failure : Failure)
    (warnings : List Text) :
    TellsCompiled config fetcher request (.ofFailure failure warnings none) where
  complete success := by cases success
  compiled artifact member := by cases member
  own _ artifact member := by cases member

/-- An answer from a compiled entry tells compiled code. -/
theorem Answer.tellsCompiled_hit
    (request : SourceModule)
    {entry : CacheEntry}
    (compiled : entry.artifact.IsCompiled config) :
    TellsCompiled config fetcher request (Pipeline.hitAnswer request entry) where
  complete _ := rfl
  compiled artifact member := by
    cases member
    exact compiled
  own foreign := by cases foreign

/-- An answer whose artifact, if any, holds the compiled code of its request tells compiled code. -/
theorem Answer.tellsCompiled_of_essence
    {request : SourceModule}
    {inputHash compiledCode : Text}
    {answer : Answer}
    (compiles : Pipeline.CompilesTo config fetcher request inputHash compiledCode)
    (complete : answer.success = true → answer.artifact.isSome = true)
    (same : ∀ artifact ∈ answer.artifact,
      artifact.inputHash = inputHash ∧ artifact.compiledCode = compiledCode) :
    TellsCompiled config fetcher request answer := by
  obtain ⟨source, found, hash, compiled⟩ := compiles
  refine ⟨complete, fun artifact member => ?_, fun _ artifact member => ?_⟩
  · obtain ⟨sameHash, sameCode⟩ := same artifact member
    exact ⟨request, source, sameHash.trans hash, sameCode ▸ compiled⟩
  · obtain ⟨sameHash, sameCode⟩ := same artifact member
    exact ⟨source, found, sameHash.trans hash, sameCode ▸ compiled⟩

/-- The answer after an execution tells the executed code. -/
theorem Answer.tellsCompiled_conclude
    {request : SourceModule}
    {inputHash compiledCode : Text}
    (compiles : Pipeline.CompilesTo config fetcher request inputHash compiledCode)
    (pipeline : Pipeline)
    (clock : Instant)
    (warnings : List Text)
    (result : ExecutionResult) :
    TellsCompiled config fetcher request
      (pipeline.conclude clock request inputHash compiledCode warnings result).2 := by
  cases result with
  | ok executed =>
      let executedArtifact := pipeline.executedArtifact clock request inputHash compiledCode executed
      let kept := (pipeline.kept clock request executedArtifact).2
      have told : (pipeline.conclude clock request inputHash compiledCode warnings
          (.ok executed)).2.artifact = some kept := rfl
      have essence : kept.essence = executedArtifact.essence := Pipeline.essence_kept _ _ _ _
      refine tellsCompiled_of_essence compiles (fun _ => rfl) fun artifact member => ?_
      obtain rfl : kept = artifact := Option.some.inj (told.symm.trans member)
      exact ⟨congrArg Essence.inputHash essence, congrArg Essence.compiledCode essence⟩
  | error failed =>
      unfold Pipeline.conclude
      dsimp only
      split
      · refine tellsCompiled_of_essence compiles (fun success => (by cases success))
          fun artifact member => ?_
        cases member
        exact ⟨rfl, rfl⟩
      · exact Answer.tellsCompiled_ofFailure request _ _

/-! ## Sessions -/

namespace Session.HoldsCompiled

/-- A changed cache holds what it held before and what it was given. -/
theorem withCache
    {change : CacheChange}
    {fresh : List (Text × Artifact)}
    (holds : session.HoldsCompiled config fetcher)
    (sound : CacheChange.Sound session.cache fresh change)
    (given : ∀ content ∈ fresh, content.2.IsCompiled config) :
    (session.withCache change.cache).HoldsCompiled config fetcher where
  configured := holds.configured
  fetches := holds.fetches
  entries := sound.forall_content holds.entries given

/-- What a pipeline only tells changes nothing of its cache. -/
theorem withPipeline
    {pipeline : Pipeline}
    (holds : session.HoldsCompiled config fetcher)
    (same : session.pipeline.SameWork pipeline) :
    HoldsCompiled config fetcher { session with pipeline := pipeline } where
  configured := same.config.trans holds.configured
  fetches := same.fetcher.trans holds.fetches
  entries := by
    simp only [Session.cache, same.cache]
    exact holds.entries

/-- Other references leave the entries as they are. -/
theorem withRegistry
    (holds : session.HoldsCompiled config fetcher)
    (registry : Registry) :
    (session.withRegistry registry).HoldsCompiled config fetcher :=
  ⟨holds.configured, holds.fetches, holds.entries⟩

/-- Other loads leave the entries as they are. -/
theorem withExecutor
    (holds : session.HoldsCompiled config fetcher)
    (executor : Executor)
    (client : Client) :
    (session.withExecutor executor client).HoldsCompiled config fetcher := by
  cases client with
  | request request inputHash warnings =>
      exact ⟨holds.configured, holds.fetches, holds.entries⟩
  | caller =>
      exact ⟨holds.configured, holds.fetches, holds.entries⟩

end Session.HoldsCompiled

/-! ## Steps of a call -/

namespace Session

/-- A session and a call on its way hold and tell only compiled code after a step. -/
def LeavesCompiled
    (config : Config)
    (fetcher : Option Fetcher)
    (outcome : Session × Stage × List Event) :
    Prop :=
  outcome.1.HoldsCompiled config fetcher ∧ outcome.2.1.IsCompiled config fetcher

/-- Beginning a request. -/
theorem leavesCompiled_begins
    {request : SourceModule}
    {outcome : Session × Stage × List Event}
    (backs : session.Backs held)
    (holds : session.HoldsCompiled config fetcher)
    (begins : session.Begins request outcome) :
    LeavesCompiled config fetcher outcome := by
  have looked (source : Text) := Cache.sound_lookedUp backs.cache backs.backed session.moment.clock
    (Cache.keyFor request.provenance (sha256Hex source))
  have provided {source : Text} (found : session.pipeline.sourceText request = .ok source) :
      Pipeline.sourceOf fetcher request = .ok source := by
    rw [← holds.fetches]
    exact found
  cases begins with
  | sourceless | blank =>
      exact ⟨holds.withPipeline ⟨rfl, rfl, rfl, rfl⟩, Answer.tellsCompiled_ofFailure request _ []⟩
  | uncached source found solid ignores =>
      exact ⟨holds, provided found⟩
  | missed source change found solid reads missed =>
      have sound := looked source
      rw [missed] at sound
      exact ⟨holds.withCache sound (List.forall_mem_nil _), provided found⟩
  | hit source change entry found solid reads hit =>
      have sound := looked source
      rw [hit] at sound
      obtain ⟨old, member, -, rfl⟩ := Cache.mem_of_lookedUp (congrArg Prod.snd hit)
      have counted := holds.withCache sound (List.forall_mem_nil _)
      exact ⟨⟨counted.configured, counted.fetches, counted.entries⟩,
        Answer.tellsCompiled_hit request (holds.entries old member)⟩

/-- Compiling the source of a request. -/
theorem leavesCompiled_compileRequest
    {request : SourceModule}
    {source : Text}
    (holds : session.HoldsCompiled config fetcher)
    (found : Pipeline.sourceOf fetcher request = .ok source) :
    LeavesCompiled config fetcher (session.compileRequest request source) := by
  unfold compileRequest
  rw [holds.configured]
  split
  next warnings failure _ =>
    exact ⟨holds.withPipeline ⟨rfl, rfl, rfl, rfl⟩,
      Answer.tellsCompiled_ofFailure request failure warnings⟩
  next warnings compiledCode compiled =>
    exact ⟨holds, source, found, rfl, congrArg Prod.snd compiled⟩

/-- Looking for an entry with the same code. -/
theorem leavesCompiled_seek
    {client : Client}
    {compiledCode : Text}
    (backs : session.Backs held)
    (holds : session.HoldsCompiled config fetcher)
    (compiles : client.Compiles config fetcher compiledCode)
    (options : ExecuteOptions) :
    LeavesCompiled config fetcher (session.seek client options compiledCode) := by
  unfold seek
  split
  · have sound := Cache.sound_lookedUpByOutputHash backs.cache backs.backed session.moment.clock
      (sha256Hex compiledCode)
    refine ⟨holds.withCache sound (List.forall_mem_nil _), ?_⟩
    dsimp only [goOn, Stage.IsCompiled]
    split <;> exact compiles
  · exact ⟨holds, compiles⟩

/-- Reporting the result of an execution. -/
theorem leavesCompiled_conclude
    {client : Client}
    {compiledCode : Text}
    (backs : session.Backs held)
    (holds : session.HoldsCompiled config fetcher)
    (compiles : client.Compiles config fetcher compiledCode)
    (result : ExecutionResult) :
    LeavesCompiled config fetcher (session.conclude client compiledCode result) := by
  cases client with
  | caller =>
      exact ⟨holds, trivial⟩
  | request request inputHash warnings =>
      have tells := Answer.tellsCompiled_conclude compiles session.pipeline session.moment.clock
        warnings result
      cases result with
      | error failed =>
          exact ⟨holds.withPipeline (session.pipeline.sameWork_conclude_error _ _ _ _ _ _), tells⟩
      | ok executed =>
          let artifact := session.pipeline.executedArtifact session.moment.clock request inputHash
            compiledCode executed
          have sound := session.pipeline.sound_kept backs.cache session.moment.clock request artifact
          have given : ∀ fresh ∈ [(Cache.keyFor request.provenance artifact.inputHash, artifact)],
              fresh.2.IsCompiled config := by
            intro fresh member
            obtain rfl := List.mem_singleton.mp member
            obtain ⟨source, -, hash, compiled⟩ := compiles
            exact ⟨request, source, hash, compiled⟩
          have counted := holds.withCache sound given
          exact ⟨⟨counted.configured, counted.fetches, counted.entries⟩, tells⟩

/-- Beginning a call. -/
theorem leavesCompiled_begin
    {call : Call}
    (backs : session.Backs held)
    (holds : session.HoldsCompiled config fetcher)
    (puts : call.PutsCompiled config) :
    LeavesCompiled config fetcher (session.begin call) := by
  cases call with
  | process request =>
      exact leavesCompiled_begins backs holds (session.begins_beginRequest request)
  | execute code options =>
      exact ⟨holds, trivial⟩
  | get key =>
      exact ⟨holds.withCache (Cache.sound_lookedUp backs.cache backs.backed _ key)
        (List.forall_mem_nil _), trivial⟩
  | getByOutputHash hash =>
      exact ⟨holds.withCache (Cache.sound_lookedUpByOutputHash backs.cache backs.backed _ hash)
        (List.forall_mem_nil _), trivial⟩
  | put key artifact =>
      have given : ∀ fresh ∈ [(key, artifact)], fresh.2.IsCompiled config := by
        intro fresh member
        obtain rfl := List.mem_singleton.mp member
        exact puts
      exact ⟨holds.withCache (Cache.sound_taken backs.cache _ key artifact) given, trivial⟩
  | prune =>
      exact ⟨holds.withCache (Cache.sound_pruned backs.cache) (List.forall_mem_nil _), trivial⟩
  | clear =>
      exact ⟨holds.withCache (Cache.sound_cleared session.cache) (List.forall_mem_nil _), trivial⟩
  | acquire code =>
      dsimp only [begin]
      split
      · exact ⟨holds, trivial⟩
      · exact ⟨holds.withRegistry _, trivial⟩
  | retain url =>
      exact ⟨holds.withRegistry _, trivial⟩
  | release url =>
      exact ⟨holds.withRegistry _, trivial⟩

/-- Every step of a call. -/
theorem leavesCompiled_step
    {stage : Stage}
    {outcome : Session × Stage × List Event}
    (backs : session.Backs stage.held)
    (holds : session.HoldsCompiled config fetcher)
    (compiled : stage.IsCompiled config fetcher)
    (stepped : stage.step session = some outcome) :
    LeavesCompiled config fetcher outcome := by
  cases stage with
  | fresh call =>
      cases stepped
      exact leavesCompiled_begin backs holds compiled
  | compile request source =>
      cases stepped
      exact leavesCompiled_compileRequest holds compiled
  | seek client options compiledCode =>
      cases stepped
      exact leavesCompiled_seek backs holds compiled options
  | adopt client timeout compiledCode entry =>
      cases stepped
      unfold adopt
      dsimp only
      refine ⟨holds.withRegistry _, ?_⟩
      dsimp only
      split <;> exact compiled
  | enter client timeout compiledCode =>
      cases stepped
      unfold enter
      split
      · exact ⟨holds, compiled⟩
      · split
        · exact ⟨holds, compiled⟩
        · exact ⟨holds.withRegistry _, compiled⟩
  | join client timeout compiledCode resolvedCode handle =>
      cases stepped
      exact ⟨(holds.withRegistry _).withExecutor _ client, compiled⟩
  | wait client compiledCode execution =>
      obtain rfl := resume_eq_some stepped
      refine ⟨holds, ?_⟩
      dsimp only
      split <;> exact compiled
  | conclude client compiledCode result =>
      cases stepped
      exact leavesCompiled_conclude backs holds compiled result
  | release urls rest =>
      cases urls with
      | nil =>
          cases stepped
          exact ⟨holds, compiled⟩
      | cons url urls =>
          cases stepped
          exact ⟨holds.withRegistry _, compiled⟩
  | done result =>
      cases stepped

end Session

/-! ## Runs -/

namespace Traffic

/-- The cache and all calls on their way hold and tell only compiled code. -/
structure HoldsCompiled
    (config : Config)
    (fetcher : Option Fetcher)
    (state : Traffic) :
    Prop where
  balanced :
    state.Balanced
  session :
    state.session.HoldsCompiled config fetcher
  stages :
    ∀ stage ∈ state.calls, stage.IsCompiled config fetcher

/-- What may not happen for the cache to hold only compiled code: a call that puts something else. -/
def Keeps (config : Config) (events : List Event) : Prop :=
  ∀ call, .called call ∈ events → call.PutsCompiled config

/-- Whatever happens, only compiled code is held and told. -/
theorem HoldsCompiled.afterStep
    {state next : Traffic}
    {events : List Event}
    (holds : HoldsCompiled config fetcher state)
    (step : Step state events next)
    (keeps : Keeps config events) :
    HoldsCompiled config fetcher next ∧
      ∀ result, .returned result ∈ events → result.TellsCompiled config fetcher := by
  have balanced := (balanced_step holds.balanced step).1
  cases step with
  | call call entitled =>
      have called : (Stage.fresh call).IsCompiled config fetcher :=
        keeps call (List.mem_singleton_self _)
      refine ⟨⟨balanced, holds.session, ?_⟩, fun result member => ?_⟩
      · exact List.forall_mem_append.mpr ⟨holds.stages, List.forall_mem_singleton.mpr called⟩
      · cases List.mem_singleton.mp member
  | work before after stage stageAfter session events place stepped =>
      obtain ⟨session, compiled⟩ := Session.leavesCompiled_step (holds.balanced.backs place)
        holds.session (holds.stages stage (mem_calls_of_place place)) stepped
      exact ⟨⟨balanced, session, forall_calls_replaced place holds.stages compiled⟩,
        holds.balanced.not_returned place stepped⟩
  | leave before after result place =>
      refine ⟨⟨balanced, holds.session, forall_calls_left place holds.stages⟩,
        fun told member => ?_⟩
      cases List.mem_singleton.mp member
      exact holds.stages (.done result) (mem_calls_of_place place)
  | pass elapsed later =>
      exact ⟨⟨balanced, ⟨holds.session.configured, holds.session.fetches, holds.session.entries⟩, holds.stages⟩,
        fun result member => by cases member⟩
  | tick clock =>
      exact ⟨⟨balanced, ⟨holds.session.configured, holds.session.fetches, holds.session.entries⟩, holds.stages⟩,
        fun result member => by cases member⟩
  | storeChanges store present =>
      exact ⟨⟨balanced, ⟨holds.session.configured, holds.session.fetches, holds.session.entries⟩, holds.stages⟩,
        fun result member => by cases member⟩
  | loaderChanges delay offline breaks =>
      exact ⟨⟨balanced, ⟨holds.session.configured, holds.session.fetches, holds.session.entries⟩, holds.stages⟩,
        fun result member => by simp at member⟩
  | reorder order same =>
      have entries := fun entry member => holds.session.entries entry (same.subset member)
      exact ⟨⟨balanced, ⟨holds.session.configured, holds.session.fetches, entries⟩, holds.stages⟩,
        fun result member => by cases member⟩

/-- However much happens, only compiled code is held and told. -/
theorem HoldsCompiled.afterRun
    {initial state : Traffic}
    {events : List Event}
    (holds : HoldsCompiled config fetcher initial)
    (run : Run initial events state)
    (keeps : Keeps config events) :
    HoldsCompiled config fetcher state ∧
      ∀ result, .returned result ∈ events → result.TellsCompiled config fetcher := by
  refine run.keeps (fun events last both => ?_) (fun middle => middle.afterStep) holds keeps
  exact ⟨fun call member => both call (List.mem_append_left _ member),
    fun call member => both call (List.mem_append_right _ member)⟩

/-- A new session over compiled entries holds only compiled code. -/
theorem holdsCompiled_ofConfig
    {fetcher : Option Fetcher}
    {loader : Loader}
    {store : Option Store}
    {moment : Moment}
    {session : Session}
    (fresh : loader.modules = [])
    (opened : Session.ofConfig config fetcher loader store moment = .ok session)
    (stored : ∀ entry ∈ session.cache.entries, entry.artifact.IsCompiled config) :
    HoldsCompiled config fetcher { session } where
  balanced := balanced_ofConfig fresh opened
  session :=
    { configured := by
        obtain ⟨-, rfl⟩ := Session.ofConfig_eq_ok.mp opened
        rfl
      fetches := by
        obtain ⟨-, rfl⟩ := Session.ofConfig_eq_ok.mp opened
        rfl
      entries := stored }
  stages := List.forall_mem_nil _

end Traffic

end LiveComponent
