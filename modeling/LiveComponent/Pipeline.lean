import LiveComponent.Executor
import LiveComponent.Markup.Transpile
import LiveComponent.Normalization

namespace LiveComponent

/-!
# The pipeline

A request is answered from the cache, or its source is made a module, normalized, lowered and executed.
Whatever happens, there is an answer; executions that fail are remembered for a while.
-/

/-- A failed execution as it is remembered. -/
structure FailureRecord where
  time : Instant
  inputHash : Text
  failure : Failure
  compiledCode : Text
deriving DecidableEq, Repr

/-- How many requests came and how they ended. -/
structure Stats where
  processed : Nat := 0
  succeeded : Nat := 0
  failed : Nat := 0
  cacheHits : Nat := 0
deriving DecidableEq, Repr

/-- Count an answer. -/
def Stats.record (stats : Stats) (answer : Answer) : Stats :=
  { processed := stats.processed + 1
    succeeded := stats.succeeded + if answer.success then 1 else 0
    failed := stats.failed + if answer.success then 0 else 1
    cacheHits := stats.cacheHits + if answer.fromCache then 1 else 0 }

/-- A way to fetch the source at an address. -/
abbrev Fetcher := Text → Except Failure Text

/-- A pipeline with its cache and the history of its requests. -/
structure Pipeline where
  config : Config
  cache : Cache
  executor : Executor := {}
  fetcher : Option Fetcher
  stats : Stats := {}
  /-- The latest failed executions, oldest first. -/
  failures : List FailureRecord := []

/-- A request that waits for a load. -/
structure Processing where
  request : SourceModule
  inputHash : Text
  compiledCode : Text
  warnings : List Text
  execution : Execution
deriving DecidableEq, Repr

namespace Pipeline

/-- A pipeline over a store, if the configuration is usable. -/
def ofConfig
    (config : Config)
    (fetcher : Option Fetcher)
    (loader : Loader)
    (store : Option Store) :
    Except Failure Pipeline :=
  config.validate.map fun _ =>
    { config, fetcher, cache := Cache.ofStore config store { loader := loader } }

/-! ## Sources -/

/-- The source of a request: its code, or what is found at its origin if that may be remote. -/
def sourceOf (fetcher : Option Fetcher) (request : SourceModule) : Except Failure Text :=
  if !Text.isBlankText request.code || !request.provenance.isRemote then
    .ok request.code
  else
    match request.origin.bind Origin.url, fetcher with
    | none, _ => .error .missingSource
    | some url, none => .error (.fetch url "no source fetcher configured")
    | some url, some fetch => fetch url

/-- The source of a request for the fetcher of the pipeline. -/
def sourceText (pipeline : Pipeline) (request : SourceModule) : Except Failure Text :=
  sourceOf pipeline.fetcher request

/-! ## Compiling -/

/-- The module of a source in its declared or guessed form. -/
def moduleText (request : SourceModule) (code : Text) : Except Failure Text :=
  match request.declaredFormat.getD (SourceFormat.ofText code) with
  | .module => .ok code
  | .legacyScript => modularizeLegacy code

/-- Lower the markup of a normalized module, if it seems to have some. -/
def lowered (config : Config) (code : Text) : List Text × Except Failure Text :=
  if containsMarkup code then
    match (Markup.transpile (.ofFramework config.framework) code).result with
    | .ok (lowered, warnings) => (warnings, .ok lowered)
    | .error failure => (failure.warnings, .error failure)
  else
    ([], .ok code)

/-- The code that is executed for a source, with the warnings on the way. -/
def compile (config : Config) (request : SourceModule) (code : Text) :
    List Text × Except Failure Text :=
  match moduleText request code with
  | .error failure => ([], .error failure)
  | .ok module =>
    match (Normalization.ofText config.framework module).result with
    | .error failure => ([], .error failure)
    | .ok (normalized, warnings) =>
      let (more, result) := lowered config normalized
      (warnings ++ more, result)

/-! ## Answers -/

/-- The metadata that a request brings. -/
def metadataOf (request : SourceModule) : Option ComponentMetadata :=
  request.origin.map ComponentMetadata.ofOrigin

/-- The artifact of code that is not loaded. -/
def artifactOf
    (pipeline : Pipeline)
    (clock : Instant)
    (request : SourceModule)
    (inputHash compiledCode : Text) :
    Artifact :=
  { compiledCode, inputHash
    outputHash := sha256Hex compiledCode
    compiledAt := clock
    compilerTag := pipeline.config.compilerTag
    loadUrl := none
    byteSize := Text.byteSize compiledCode
    dependencies := Specifier.collect compiledCode
    componentExport := none
    metadata := metadataOf request }

/-- Count an answer and give it. -/
def answer (pipeline : Pipeline) (answer : Answer) : Pipeline × Answer :=
  ({ pipeline with stats := pipeline.stats.record answer }, answer)

/-- Remember a failed execution, and forget the oldest ones beyond the capacity. -/
def remember (pipeline : Pipeline) (record : FailureRecord) : Pipeline :=
  let all := pipeline.failures ++ [record]
  { pipeline with failures := all.drop (all.length - pipeline.config.failureLogCapacity) }

/-- Hand an artifact over to the cache, or give back its handle.  The second part is the artifact of the
answer. -/
def kept
    (pipeline : Pipeline)
    (clock : Instant)
    (request : SourceModule)
    (artifact : Artifact) :
    CacheChange × Artifact :=
  if request.wantsCache then
    let key := Cache.keyFor request.provenance artifact.inputHash
    let (change, held) := pipeline.cache.taken clock key artifact
    (change, if held then artifact else { artifact with loadUrl := none })
  else
    ({ cache := pipeline.cache, released := artifact.loadUrl.toList },
      { artifact with loadUrl := none })

/-- Hand an artifact over to the cache, or give back its handle. -/
def keep
    (pipeline : Pipeline)
    (clock : Instant)
    (request : SourceModule)
    (artifact : Artifact) :
    Pipeline × Artifact :=
  let (change, artifact) := pipeline.kept clock request artifact
  ({ pipeline with cache := change.carryOut }, artifact)

/-- The artifact of executed code. -/
def executedArtifact
    (pipeline : Pipeline)
    (clock : Instant)
    (request : SourceModule)
    (inputHash compiledCode : Text)
    (executed : Executed) :
    Artifact :=
  { pipeline.artifactOf clock request inputHash compiledCode with
    loadUrl := some executed.loadUrl
    componentExport := some executed.componentExport
    byteSize := executed.byteSize
    dependencies := executed.dependencies }

/-- Answer a request whose code was executed. -/
def conclude
    (pipeline : Pipeline)
    (clock : Instant)
    (request : SourceModule)
    (inputHash compiledCode : Text)
    (warnings : List Text)
    (result : ExecutionResult) :
    Pipeline × Answer :=
  match result with
  | .ok executed =>
    let (pipeline, artifact) := pipeline.keep clock request
      (pipeline.executedArtifact clock request inputHash compiledCode executed)
    pipeline.answer (.ofArtifact artifact warnings executed.cached.isSome)
  | .error ⟨failure, _⟩ =>
    if failure.isExecutionStage then
      (pipeline.remember ⟨clock, inputHash, failure, compiledCode⟩).answer
        (.ofFailure failure warnings
          (some (pipeline.artifactOf clock request inputHash compiledCode)))
    else
      pipeline.answer (.ofFailure failure warnings none)

/-! ## Requests -/

/-- Whether a request may be answered from the cache. -/
def readsCache (request : SourceModule) : Bool :=
  request.wantsCache && !request.options.forceRecompile

/-- How to execute the code of a request. -/
def executeOptions (config : Config) (request : SourceModule) : ExecuteOptions :=
  ⟨readsCache request, request.options.timeout.getD config.defaultTimeout⟩

/-- Execute the compiled code of a request. -/
def execute
    (pipeline : Pipeline)
    (moment : Moment)
    (request : SourceModule)
    (inputHash compiledCode : Text)
    (warnings : List Text) :
    Pipeline × Progress Answer Processing :=
  let options := executeOptions pipeline.config request
  let (cache, executor, progress) :=
    Executor.start pipeline.config options moment compiledCode pipeline.cache pipeline.executor
  let pipeline := { pipeline with cache := cache, executor := executor }
  match progress with
  | .waiting execution =>
    (pipeline, .waiting ⟨request, inputHash, compiledCode, warnings, execution⟩)
  | .done result =>
    let (pipeline, answer) :=
      pipeline.conclude moment.clock request inputHash compiledCode warnings result
    (pipeline, .done answer)

/-- Answer a request with a failure before its code is executed. -/
def refuse (pipeline : Pipeline) (failure : Failure) (warnings : List Text) :
    Pipeline × Progress Answer Processing :=
  let (pipeline, answer) := pipeline.answer (.ofFailure failure warnings none)
  (pipeline, .done answer)

/-- Compile and execute the source of a request. -/
def recompile
    (pipeline : Pipeline)
    (moment : Moment)
    (request : SourceModule)
    (code : Text) :
    Pipeline × Progress Answer Processing :=
  match compile pipeline.config request code with
  | (warnings, .error failure) => pipeline.refuse failure warnings
  | (warnings, .ok compiledCode) =>
    pipeline.execute moment request (sha256Hex code) compiledCode warnings

/-- The answer of a request that is served from the cache, with the metadata that the request brings. -/
def hitAnswer (request : SourceModule) (entry : CacheEntry) : Answer :=
  let metadata := metadataOf request <|> entry.artifact.metadata
  .ofArtifact { entry.artifact with metadata := metadata } [] true

/-- Start a request: answer it from the cache or at once, or wait for a load. -/
def start (pipeline : Pipeline) (moment : Moment) (request : SourceModule) :
    Pipeline × Progress Answer Processing :=
  match pipeline.sourceText request with
  | .error failure => pipeline.refuse failure []
  | .ok code =>
    if Text.isBlankText code then
      pipeline.refuse .missingSource []
    else
      let key := Cache.keyFor request.provenance (sha256Hex code)
      let (cache, found) :=
        if readsCache request then pipeline.cache.get moment.clock key
        else (pipeline.cache, none)
      let pipeline := { pipeline with cache := cache }
      match found with
      | some entry =>
        let (pipeline, answer) := pipeline.answer (hitAnswer request entry)
        (pipeline, .done answer)
      | none => pipeline.recompile moment request code

/-- End a request whose load has the given outcome; without one the time is over. -/
def finish
    (pipeline : Pipeline)
    (clock : Instant)
    (processing : Processing)
    (outcome : Option (Except Failure Exports)) :
    Pipeline × Answer :=
  let (cache, result) := Executor.finish processing.execution outcome pipeline.cache
  { pipeline with cache := cache }.conclude clock processing.request processing.inputHash
    processing.compiledCode processing.warnings result

end Pipeline

end LiveComponent
