import LiveComponent.Proofs.FormatDependence

namespace LiveComponent

/-!
# Whose metadata is told

The artifact of an answer bears the metadata of the origin of its request.  A key does not name the
origin, and an entry keeps the metadata of the request that made it.  So a request without an origin may
be told metadata that an earlier one brought, but only in an answer from the cache.
-/

/-- The artifact of an answer, if any, has the metadata that the request brings. -/
def Answer.BearsOrigin (request : SourceModule) (answer : Answer) : Prop :=
  ∀ artifact ∈ answer.artifact, artifact.metadata = Pipeline.metadataOf request

/-- The request brings no metadata, and its answer comes from the cache. -/
def Answer.LacksOrigin (request : SourceModule) (answer : Answer) : Prop :=
  request.origin = none ∧ Pipeline.readsCache request = true ∧ answer.fromCache = true

/-- The answer that a call leads to, if any, has the metadata of its request, or may have that of an
earlier one. -/
def CallResult.BearsOrigin : CallResult → Prop
  | answered request answer => answer.BearsOrigin request ∨ answer.LacksOrigin request
  | _ => True

/-- What a call has found out so far bears the metadata of its request. -/
def Stage.BearsOrigin : Stage → Prop
  | release _ rest => rest.BearsOrigin
  | done result => result.BearsOrigin
  | _ => True

/-! ## Answers -/

/-- A failure before the code is executed has no artifact. -/
theorem Answer.bearsOrigin_ofFailure
    (request : SourceModule)
    (failure : Failure)
    (warnings : List Text) :
    (ofFailure failure warnings none).BearsOrigin request := by
  intro artifact member
  cases member

/-- An entry lends its metadata only to a request that brings none. -/
theorem Answer.bearsOrigin_hit
    {request : SourceModule}
    (reads : Pipeline.readsCache request = true)
    (entry : CacheEntry) :
    let answer := Pipeline.hitAnswer request entry
    answer.BearsOrigin request ∨ answer.LacksOrigin request := by
  intro answer
  cases origin : request.origin with
  | none =>
      exact .inr ⟨origin, reads, rfl⟩
  | some own =>
      refine .inl fun artifact member => ?_
      cases member
      simp [Pipeline.metadataOf, origin]

/-- An artifact is handed over to the cache with the metadata that it has. -/
theorem Pipeline.metadata_kept
    (pipeline : Pipeline)
    (clock : Instant)
    (request : SourceModule)
    (artifact : Artifact) :
    (pipeline.kept clock request artifact).2.metadata = artifact.metadata := by
  unfold kept
  dsimp only
  split
  · split <;> rfl
  · rfl

/-- The answer after an execution has the metadata of its request, even if the module was loaded for
another one. -/
theorem Answer.bearsOrigin_conclude
    (pipeline : Pipeline)
    (clock : Instant)
    (request : SourceModule)
    (inputHash compiledCode : Text)
    (warnings : List Text)
    (result : ExecutionResult) :
    (pipeline.conclude clock request inputHash compiledCode warnings result).2.BearsOrigin
      request := by
  intro artifact member
  cases result with
  | ok executed =>
      cases member
      exact pipeline.metadata_kept _ _ _
  | error failed =>
      unfold Pipeline.conclude at member
      dsimp only at member
      split at member
      · cases member
        rfl
      · cases member

/-! ## Steps of a call -/

namespace Session

/-- Beginning a request. -/
theorem bearsOrigin_begins
    {session : Session}
    {request : SourceModule}
    {outcome : Session × Stage × List Event}
    (begins : session.Begins request outcome) :
    outcome.2.1.BearsOrigin := by
  cases begins with
  | sourceless | blank =>
      exact .inl (Answer.bearsOrigin_ofFailure request _ [])
  | uncached | missed =>
      trivial
  | hit source change entry found solid reads looked =>
      exact Answer.bearsOrigin_hit reads entry

/-- Beginning a call. -/
theorem bearsOrigin_begin
    (session : Session)
    (call : Call) :
    (session.begin call).2.1.BearsOrigin := by
  cases call with
  | process request =>
      exact bearsOrigin_begins (session.begins_beginRequest request)
  | execute | get | getByOutputHash | put | prune | clear | retain | release =>
      trivial
  | acquire code =>
      dsimp only [begin]
      split <;> trivial

/-- Compiling the source of a request. -/
theorem bearsOrigin_compileRequest
    (session : Session)
    (request : SourceModule)
    (source : Text) :
    (session.compileRequest request source).2.1.BearsOrigin := by
  unfold compileRequest
  split
  next warnings failure _ =>
    exact .inl (Answer.bearsOrigin_ofFailure request failure warnings)
  next =>
    trivial

/-- Reporting the result of an execution. -/
theorem bearsOrigin_conclude
    (session : Session)
    (client : Client)
    (compiledCode : Text)
    (result : ExecutionResult) :
    (session.conclude client compiledCode result).2.1.BearsOrigin := by
  cases client with
  | caller =>
      trivial
  | request request inputHash warnings =>
      have bears := Answer.bearsOrigin_conclude session.pipeline session.moment.clock request inputHash
        compiledCode warnings result
      cases result with
      | ok executed | error failed =>
          exact .inl bears

/-- Every step of a call. -/
theorem bearsOrigin_step
    {session : Session}
    {stage : Stage}
    {outcome : Session × Stage × List Event}
    (bears : stage.BearsOrigin)
    (stepped : stage.step session = some outcome) :
    outcome.2.1.BearsOrigin := by
  cases stage with
  | fresh call =>
      cases stepped
      exact session.bearsOrigin_begin call
  | compile request source =>
      cases stepped
      exact session.bearsOrigin_compileRequest request source
  | seek client options compiledCode =>
      cases stepped
      unfold seek
      split
      · dsimp only [goOn, Stage.BearsOrigin]
        split <;> trivial
      · trivial
  | adopt client timeout compiledCode entry =>
      cases stepped
      unfold adopt
      dsimp only
      split <;> trivial
  | enter client timeout compiledCode =>
      cases stepped
      unfold enter
      split
      · trivial
      · split <;> trivial
  | join =>
      cases stepped
      trivial
  | wait client compiledCode execution =>
      obtain rfl := resume_eq_some stepped
      dsimp only
      split <;> trivial
  | conclude client compiledCode result =>
      cases stepped
      exact session.bearsOrigin_conclude client compiledCode result
  | release urls rest =>
      cases urls <;>
        cases stepped <;>
        exact bears
  | done result =>
      cases stepped

end Session

/-! ## Runs -/

namespace Traffic

/-- All calls on their way bear the metadata of their requests. -/
structure BearsOrigin (state : Traffic) : Prop where
  balanced :
    state.Balanced
  stages :
    ∀ stage ∈ state.calls, stage.BearsOrigin

/-- Whatever happens, an answer has the metadata of its request, or comes from the cache for one that
brings none. -/
theorem BearsOrigin.afterStep
    {state next : Traffic}
    {events : List Event}
    (bears : BearsOrigin state)
    (step : Step state events next) :
    BearsOrigin next ∧ ∀ result, .returned result ∈ events → result.BearsOrigin := by
  have balanced := (balanced_step bears.balanced step).1
  cases step with
  | call call entitled =>
      refine ⟨⟨balanced, ?_⟩, fun result member => ?_⟩
      · exact List.forall_mem_append.mpr ⟨bears.stages, List.forall_mem_singleton.mpr trivial⟩
      · cases List.mem_singleton.mp member
  | work before after stage stageAfter session events place stepped =>
      have after := Session.bearsOrigin_step (bears.stages stage (mem_calls_of_place place)) stepped
      exact ⟨⟨balanced, forall_calls_replaced place bears.stages after⟩,
        bears.balanced.not_returned place stepped⟩
  | leave before after result place =>
      refine ⟨⟨balanced, forall_calls_left place bears.stages⟩, fun told member => ?_⟩
      cases List.mem_singleton.mp member
      exact bears.stages (.done result) (mem_calls_of_place place)
  | pass | tick | storeChanges | reorder =>
      exact ⟨⟨balanced, bears.stages⟩, fun result member => by cases member⟩
  | loaderChanges delay offline breaks =>
      exact ⟨⟨balanced, bears.stages⟩, fun result member => by simp at member⟩

/-- However much happens, an answer has the metadata of its request, or comes from the cache for one that
brings none. -/
theorem BearsOrigin.afterRun
    {initial state : Traffic}
    {events : List Event}
    (bears : BearsOrigin initial)
    (run : Run initial events state) :
    ∀ result, .returned result ∈ events → result.BearsOrigin := by
  have kept := @Run.keeps initial state events BearsOrigin (fun _ => True) CallResult.BearsOrigin run
    (fun _ _ _ => ⟨trivial, trivial⟩) (fun middle step _ => middle.afterStep step) bears trivial
  exact kept.2

/-- After any history, the artifacts of the answers to a request have its own metadata. -/
def OriginsSeparated
    (config : Config)
    (fetcher : Option Fetcher)
    (request : SourceModule) :
    Prop :=
  ∀ loader store moment session, loader.modules = [] ∧ loader.offline = false ∧ loader.breaks = false →
    Session.ofConfig config fetcher loader store moment = .ok session → session.cache.entries = [] →
    ∀ history, (Workload.mk config fetcher (history ++ [request])).CollisionFree →
      ∀ answer, Serves session history request answer → answer.success = true →
        answer.BearsOrigin request

end Traffic

/-! ## Requests without an origin -/

/-- The request with another origin. -/
def SourceModule.withOrigin (request : SourceModule) (origin : Origin) : SourceModule :=
  { request with origin := some origin }

/-- A request that has a source without an origin has the same one with an origin. -/
theorem Pipeline.sourceOf_withOrigin
    {fetcher : Option Fetcher}
    {request : SourceModule}
    {source : Text}
    (plain : request.origin = none)
    (found : sourceOf fetcher request = .ok source)
    (origin : Origin) :
    sourceOf fetcher (request.withOrigin origin) = .ok source := by
  unfold sourceOf at found ⊢
  split at found
  next given => exact (if_pos given).trans found
  next => simp [plain] at found

/-- Requests with the same source, channel and form lead to the same hashed texts. -/
theorem Pipeline.hashedTexts_congr
    {config : Config}
    {fetcher : Option Fetcher}
    {first second : SourceModule}
    (source : sourceOf fetcher first = sourceOf fetcher second)
    (channel : first.provenance = second.provenance)
    (form : first.declaredFormat = second.declaredFormat) :
    hashedTexts config fetcher first = hashedTexts config fetcher second := by
  simp only [hashedTexts, source, channel, compile, moduleText, form]

/-- A success has a source. -/
theorem Pipeline.sourceOf_of_success
    {config : Config}
    {fetcher : Option Fetcher}
    {request : SourceModule}
    (succeeds : (verdict config fetcher request).success = true) :
    ∃ source, sourceOf fetcher request = .ok source := by
  cases found : sourceOf fetcher request with
  | error failure => simp [verdict, found, Gist.ofFailure] at succeeds
  | ok source => exact ⟨source, rfl⟩

/-! ## The exact condition -/

/-- The answers to a request have its own metadata after any history, exactly if it brings some, is not
answered from the cache, or fails in all its forms. -/
theorem Traffic.origins_separated_iff
    {config : Config}
    {fetcher : Option Fetcher}
    {request : SourceModule}
    (valid : config.validate = .ok ())
    (collisionFree : (Workload.mk config fetcher request.forms).CollisionFree) :
    OriginsSeparated config fetcher request ↔
      (request.origin = none → Pipeline.readsCache request = true → ∀ form,
        (Pipeline.verdict config fetcher (request.inForm form)).success = false) := by
  constructor
  · intro separated plain reads form
    by_contra succeeds
    rw [Bool.not_eq_false] at succeeds
    -- The request in this form, but with an origin, leaves its metadata in the cache.
    let first := (request.inForm form).withOrigin {}
    obtain ⟨source, found⟩ := Pipeline.sourceOf_of_success succeeds
    have foundFirst : Pipeline.sourceOf fetcher first = .ok source :=
      Pipeline.sourceOf_withOrigin plain found {}
    have sameSource : Pipeline.sourceOf fetcher first = Pipeline.sourceOf fetcher request :=
      foundFirst.trans found.symm
    have verdict : Pipeline.verdict config fetcher first =
        Pipeline.verdict config fetcher (request.inForm form) :=
      @Workload.verdict_congr ⟨config, fetcher, []⟩ first (request.inForm form) sameSource rfl
    obtain ⟨session, opened⟩ :
        ∃ session, Session.ofConfig config fetcher {} (some .empty) ⟨0, ⟨0, 0⟩⟩ = .ok session :=
      ⟨_, Session.ofConfig_eq_ok.mpr ⟨valid, rfl⟩⟩
    have empty : session.cache.entries = [] := by
      obtain ⟨-, rfl⟩ := Session.ofConfig_eq_ok.mp opened
      rfl
    have working : session.cache.IsWorking := by
      obtain ⟨-, rfl⟩ := Session.ofConfig_eq_ok.mp opened
      exact ⟨rfl, [], rfl⟩
    have balanced := balanced_ofConfig rfl opened
    have keeps : first.wantsCache = true := (Bool.and_eq_true_iff.mp reads).1
    obtain ⟨middle, early, answer, run, serves, gistEarly, gist, given⟩ :=
      serves_after (Session.isFresh_ofConfig opened empty) balanced working keeps reads rfl sameSource
    rw [verdict] at gistEarly gist given
    have free : (Workload.mk config fetcher ([first] ++ [request])).CollisionFree := by
      refine Text.CollisionFree.mono collisionFree fun text member => ?_
      have hashed : Pipeline.hashedTexts config fetcher first =
          Pipeline.hashedTexts config fetcher (request.inForm form) :=
        Pipeline.hashedTexts_congr sameSource rfl rfl
      obtain ⟨asked, requested, among⟩ := List.mem_flatMap.mp member
      simp only [List.cons_append, List.nil_append, List.mem_cons, List.not_mem_nil, or_false]
        at requested
      rcases requested with rfl | rfl
      · exact List.mem_flatMap.mpr ⟨_, request.inForm_mem_forms form, hashed ▸ among⟩
      · exact List.mem_flatMap.mpr ⟨_, asked.inForm_mem_forms asked.declaredFormat, among⟩
    rw [if_pos succeeds] at gist
    have success : answer.success = true := (congrArg Gist.success gist).trans succeeds
    have own := separated {} _ _ session ⟨rfl, rfl, rfl⟩ opened empty _ free answer serves success
    -- The first answer has an artifact, since it is a success, with the metadata of the origin.
    obtain ⟨essence, told⟩ := Pipeline.verdict_of_success succeeds
    have kept : early.gist.artifact = some essence := by
      rw [gistEarly, told]
      rfl
    obtain ⟨artifact, held, -⟩ := Option.map_eq_some_iff.mp kept
    have bears := BearsOrigin.afterRun ⟨balanced, List.forall_mem_nil _⟩ run
      (.answered first early) (by simp)
    have origin : artifact.metadata = Pipeline.metadataOf first := by
      rcases bears with bears | ⟨none, -⟩
      · exact bears artifact held
      · cases none
    have lent := own _ (by rw [given succeeds, held]; rfl)
    simp [Pipeline.metadataOf, plain, origin, first, SourceModule.withOrigin] at lent
  · intro fails loader store moment session fresh opened empty history free answer serves success
    have verdicts := serves.gist_cases fresh opened empty free
    obtain ⟨earlier, middle, later, final, runEarlier, -, -, runLater, -, returned, -⟩ := serves
    have bears := BearsOrigin.afterRun ⟨balanced_ofConfig fresh.1 opened, List.forall_mem_nil _⟩
      (runEarlier.trans runLater) _ (List.mem_append_right earlier returned)
    rcases bears with own | ⟨plain, reads, -⟩
    · exact own
    · have refused := fails plain reads
      rcases verdicts with own | ⟨-, form, succeeds, -⟩
      · have failed := refused request.declaredFormat
        have success : (Pipeline.verdict config fetcher request).success = true := by
          rw [← own]
          exact success
        exact Bool.noConfusion (success.symm.trans failed)
      · exact Bool.noConfusion (succeeds.symm.trans (refused form))

/-- A component of a library is told metadata of an earlier request if it has no origin itself. -/
theorem Traffic.origins_not_separated_of_library :
    ∃ request : SourceModule,
      ({} : Config).validate = .ok () ∧
        (Workload.mk {} none request.forms).CollisionFree ∧
        ¬ OriginsSeparated {} none request := by
  let request : SourceModule :=
    { code := "export default () => 1"
      provenance := .library }
  have valid : ({} : Config).validate = .ok () := by decide +kernel
  have collisionFree : (Workload.mk {} none request.forms).CollisionFree := by decide +kernel
  refine ⟨request, valid, collisionFree, ?_⟩
  rw [origins_separated_iff valid collisionFree]
  intro fails
  have succeeds : (Pipeline.verdict {} none (request.inForm none)).success = true := by
    decide +kernel
  exact Bool.noConfusion (succeeds.symm.trans (fails rfl rfl none))

end LiveComponent
