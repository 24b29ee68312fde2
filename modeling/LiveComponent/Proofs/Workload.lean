import LiveComponent.Proofs.CacheChange
import LiveComponent.Proofs.Verdict
import Mathlib.Data.List.Dedup

namespace LiveComponent

/-!
# What a run knows

A workload is what the callers of a run ask for.  Whatever the session stores on the way, in its cache,
in its loader, in its executor or in a call, is knowledge about the sources of these requests: it agrees
with the verdict on one of them.
-/

/-- The requests of a run, with the configuration and the fetcher that they meet. -/
structure Workload where
  config : Config
  fetcher : Option Fetcher
  requests : List SourceModule

/-- The place of the load that a call waits for. -/
def Stage.awaited? : Stage → Option Nat
  | .wait _ _ execution => some execution.load
  | _ => none

/-- The name of a channel and its first two characters determine each other. -/
theorem Provenance.eq_of_take
    {first second : Provenance}
    (same : first.name.take 2 = second.name.take 2) :
    first = second := by
  revert same
  cases first <;> cases second <;> decide

/-- The text of a key tells its channel and the hash of its source. -/
theorem Pipeline.keyText_inj
    {first second : Provenance}
    {source other : Text}
    (same : keyText first source = keyText second other) :
    first = second ∧ sha256Hex source = sha256Hex other := by
  have long (provenance : Provenance) : 2 ≤ provenance.name.length := by
    cases provenance <;> decide
  have start (provenance : Provenance) (code : Text) :
      (keyText provenance code).take 2 = provenance.name.take 2 := by
    rw [keyText, List.append_assoc, List.take_append_of_le_length (long provenance)]
  have channel : first = second := by
    apply Provenance.eq_of_take
    rw [← start first source, ← start second other, same]
  subst channel
  exact ⟨rfl, List.append_cancel_left same⟩

/-! ## Hashes -/

namespace Text

/-- Different texts have different hashes. -/
def CollisionFree (texts : List Text) : Prop :=
  ∀ first ∈ texts, ∀ second ∈ texts, sha256Hex first = sha256Hex second → first = second

/-- Texts do not collide if no hash occurs twice among those of the distinct ones. -/
theorem nodup_hashes_iff
    (texts : List Text) :
    (texts.dedup.map sha256Hex).Nodup ↔ CollisionFree texts := by
  rw [List.nodup_map_iff_inj_on texts.nodup_dedup]
  simp only [List.mem_dedup]
  rfl

instance (texts : List Text) : Decidable (CollisionFree texts) :=
  decidable_of_iff _ (nodup_hashes_iff texts)

/-- Fewer texts collide less. -/
theorem CollisionFree.mono
    {texts fewer : List Text}
    (collisionFree : CollisionFree texts)
    (subset : fewer ⊆ texts) :
    CollisionFree fewer :=
  fun first firstMember second secondMember =>
    collisionFree first (subset firstMember) second (subset secondMember)

end Text

namespace Workload

variable (work : Workload)

/-- The verdict on a request. -/
def verdict (request : SourceModule) : Gist :=
  Pipeline.verdict work.config work.fetcher request

/-- The texts that are hashed for the requests. -/
def hashed : List Text :=
  work.requests.flatMap (Pipeline.hashedTexts work.config work.fetcher)

/-- Different texts that are hashed for the requests have different hashes. -/
def CollisionFree : Prop :=
  ∀ first ∈ work.hashed, ∀ second ∈ work.hashed, sha256Hex first = sha256Hex second → first = second

instance : Decidable work.CollisionFree :=
  inferInstanceAs (Decidable (Text.CollisionFree work.hashed))

/-- Fewer requests collide less. -/
theorem CollisionFree.mono
    {work : Workload}
    {requests : List SourceModule}
    (collisionFree : work.CollisionFree)
    (fewer : requests ⊆ work.requests) :
    CollisionFree { work with requests := requests } := by
  refine Text.CollisionFree.mono collisionFree fun text member => ?_
  obtain ⟨request, requested, found⟩ := List.mem_flatMap.mp member
  exact List.mem_flatMap.mpr ⟨request, fewer requested, found⟩

/-- A request has a source that is not blank. -/
structure Provides (request : SourceModule) (source : Text) : Prop where
  asked :
    request ∈ work.requests
  found :
    Pipeline.sourceOf work.fetcher request = .ok source
  solid :
    Text.isBlankText source = false

/-- A request has a source that is compiled to the given code. -/
structure Compiles (request : SourceModule) (source compiledCode : Text) : Prop where
  provides :
    work.Provides request source
  compiled :
    (Pipeline.compile work.config request source).2 = .ok compiledCode

/-! ## Knowledge -/

/-- A key with an artifact is knowledge about a source. -/
def KnowsContent (content : Text × Artifact) : Prop :=
  ∃ request source resolvedCode component,
    work.Compiles request source content.2.compiledCode ∧
      Pipeline.examined work.config content.2.compiledCode = .ok (resolvedCode, component) ∧
      content.1 = sha256Hex (Pipeline.keyText request.provenance source) ∧
      content.2.essence =
        Pipeline.executedEssence source content.2.compiledCode resolvedCode component ∧
      content.2.loadUrl = some (Handle.ofCode resolvedCode).url

/-- The client of an execution waits for the answer to a request with the given code. -/
def KnowsClient (compiledCode : Text) : Client → Prop
  | .request request inputHash _ =>
    ∃ source, work.Compiles request source compiledCode ∧ inputHash = sha256Hex source
  | .caller => False

/-- An answer says what the verdict says, either on this request or, if it may be answered from the
cache, on a successful one with the same channel and source. -/
def KnowsAnswer (request : SourceModule) (answer : Answer) : Prop :=
  request ∈ work.requests ∧
    (answer.gist = work.verdict request ∨
      Pipeline.readsCache request = true ∧
        ∃ other source, work.Provides request source ∧ work.Provides other source ∧
          other.provenance = request.provenance ∧ (work.verdict other).success = true ∧
          answer.gist = work.verdict other)

/-- A call is for a request of the workload, or drops entries. -/
def KnowsCall : Call → Prop
  | .process request => request ∈ work.requests
  | .prune | .clear => True
  | _ => False

/-- The answer that a call leads to, if any, is known. -/
def KnowsResult : CallResult → Prop
  | .answered request answer => work.KnowsAnswer request answer
  | _ => True

/-- A call knows what it has found out so far. -/
def KnowsStage (loads : List Load) : Stage → Prop
  | .fresh call => work.KnowsCall call
  | .compile request source => work.Provides request source
  | .seek client _ compiledCode => work.KnowsClient compiledCode client
  | .adopt client _ compiledCode entry =>
    work.KnowsClient compiledCode client ∧ work.KnowsContent entry.content ∧
      entry.artifact.outputHash = sha256Hex compiledCode
  | .enter client _ compiledCode => work.KnowsClient compiledCode client
  | .join client _ compiledCode resolvedCode handle =>
    work.KnowsClient compiledCode client ∧
      Specifier.rewriteImports work.config compiledCode = .ok resolvedCode ∧
      handle = Handle.ofCode resolvedCode
  | .wait client compiledCode execution =>
    work.KnowsClient compiledCode client ∧
      Specifier.rewriteImports work.config compiledCode = .ok execution.resolvedCode ∧
      execution.handle = Handle.ofCode execution.resolvedCode ∧
      ∃ load, loads[execution.load]? = some load ∧ load.url = execution.handle.url
  | .conclude client compiledCode result =>
    work.KnowsClient compiledCode client ∧ Pipeline.Agrees work.config compiledCode result
  | .release _ rest => KnowsStage loads rest
  | .done result => work.KnowsResult result

/-- A loader makes code loadable, never breaks down, and has only modules that are known under their
own addresses. -/
structure KnowsLoader (loader : Loader) : Prop where
  online :
    loader.offline = false
  steady :
    loader.breaks = false
  modules :
    ∀ url code, loader.modules.get? url = some code →
      code ∈ work.hashed ∧ url = (Handle.ofCode code).url

/-- The loads of an executor lead to the exports of known modules, and are joined under the addresses
of these. -/
structure KnowsExecutor (executor : Executor) : Prop where
  loads :
    ∀ load ∈ executor.loads, ∃ code ∈ work.hashed, load.url = (Handle.ofCode code).url ∧
      ∀ outcome, load.outcome = some outcome → outcome = Exports.ofText code
  pending :
    ∀ url place, executor.pending.get? url = some place →
      ∃ load, executor.loads[place]? = some load ∧ load.url = url

/-- All that a session stores is known. -/
structure KnowsSession (session : Session) : Prop where
  config :
    session.pipeline.config = work.config
  fetcher :
    session.pipeline.fetcher = work.fetcher
  entries :
    ∀ entry ∈ session.cache.entries, work.KnowsContent entry.content
  loader :
    work.KnowsLoader session.cache.registry.loader
  executor :
    work.KnowsExecutor session.pipeline.executor

variable {work}

/-! ## Hashed texts -/

/-- The source of a request is hashed. -/
theorem Provides.source_mem
    {request : SourceModule}
    {source : Text}
    (provides : work.Provides request source) :
    source ∈ work.hashed := by
  refine List.mem_flatMap.mpr ⟨request, provides.asked, ?_⟩
  unfold Pipeline.hashedTexts
  rw [provides.found]
  dsimp only
  split <;> simp

/-- The text of the key of a request is hashed. -/
theorem Provides.key_mem
    {request : SourceModule}
    {source : Text}
    (provides : work.Provides request source) :
    Pipeline.keyText request.provenance source ∈ work.hashed := by
  refine List.mem_flatMap.mpr ⟨request, provides.asked, ?_⟩
  unfold Pipeline.hashedTexts
  rw [provides.found]
  dsimp only
  split <;> simp

namespace Compiles

variable
  {request : SourceModule}
  {source compiledCode : Text}

/-- The compiled code of a request is hashed. -/
theorem code_mem
    (compiles : work.Compiles request source compiledCode) :
    compiledCode ∈ work.hashed := by
  refine List.mem_flatMap.mpr ⟨request, compiles.provides.asked, ?_⟩
  simp [Pipeline.hashedTexts, compiles.provides.found, compiles.compiled]

/-- The code that is loaded for a request is hashed. -/
theorem resolved_mem
    {resolvedCode : Text}
    (compiles : work.Compiles request source compiledCode)
    (resolved : Specifier.rewriteImports work.config compiledCode = .ok resolvedCode) :
    resolvedCode ∈ work.hashed := by
  refine List.mem_flatMap.mpr ⟨request, compiles.provides.asked, ?_⟩
  simp [Pipeline.hashedTexts, compiles.provides.found, compiles.compiled, resolved, Except.toOption]

/-- The verdict on a request is that on its compiled code. -/
theorem verdict_eq
    (compiles : work.Compiles request source compiledCode) :
    work.verdict request = Pipeline.judged work.config source compiledCode := by
  simp [verdict, Pipeline.verdict, compiles.provides.found, compiles.provides.solid, compiles.compiled]

end Compiles

/-- The code that is loaded for a client is hashed. -/
theorem KnowsClient.resolved_mem
    {compiledCode resolvedCode : Text}
    {client : Client}
    (knows : work.KnowsClient compiledCode client)
    (resolved : Specifier.rewriteImports work.config compiledCode = .ok resolvedCode) :
    resolvedCode ∈ work.hashed := by
  cases client with
  | caller =>
      cases knows
  | request request inputHash warnings =>
      obtain ⟨source, compiles, -⟩ := knows
      exact compiles.resolved_mem resolved

end Workload

end LiveComponent
