import LiveComponent.Proofs.Execution
import LiveComponent.Traffic

namespace LiveComponent

/-!
# Verdicts

What an answer says about a source depends on nothing but the source and the way in which it is made a
module.  The verdict on a request is what it is told when its source is compiled and executed without a
cache, in time and without a breakdown.
-/

/-- The part of an artifact that depends on nothing but its source. -/
structure Essence where
  compiledCode : Text
  inputHash : Text
  outputHash : Text
  componentExport : Option Text
  dependencies : List Text
  byteSize : Nat
deriving DecidableEq, Repr

/-- The part of an artifact that depends on nothing but its source. -/
def Artifact.essence (artifact : Artifact) : Essence where
  compiledCode := artifact.compiledCode
  inputHash := artifact.inputHash
  outputHash := artifact.outputHash
  componentExport := artifact.componentExport
  dependencies := artifact.dependencies
  byteSize := artifact.byteSize

/-- What an answer says about a source. -/
structure Gist where
  success : Bool
  error : Option Text
  errorKind : Option FailureKind
  artifact : Option Essence
deriving DecidableEq, Repr

/-- What an answer says about a source. -/
def Answer.gist (answer : Answer) : Gist :=
  ⟨answer.success, answer.error, answer.errorKind, answer.artifact.map Artifact.essence⟩

/-- The gist of a success. -/
def Gist.ofSuccess (essence : Essence) : Gist :=
  ⟨true, none, none, some essence⟩

/-- The gist of a failure. -/
def Gist.ofFailure (failure : Failure) (essence : Option Essence) : Gist :=
  ⟨false, some failure.message, some failure.kind, essence⟩

namespace Pipeline

/-- What compiled code leads to: its code with addresses in the place of specifiers and the path of its
component. -/
def examined (config : Config) (compiledCode : Text) : Except Failure (Text × Text) :=
  match Specifier.rewriteImports config compiledCode with
  | .error failure => .error failure
  | .ok resolvedCode =>
    match Exports.ofText resolvedCode with
    | .error failure => .error failure
    | .ok found =>
      match found.component with
      | .error failure => .error failure
      | .ok component => .ok (resolvedCode, component)

/-- The essence of code that was executed. -/
def executedEssence (source compiledCode resolvedCode component : Text) : Essence :=
  ⟨compiledCode, sha256Hex source, sha256Hex compiledCode, some component,
    Specifier.collect resolvedCode, Text.byteSize resolvedCode⟩

/-- The essence of code that could not be executed. -/
def failedEssence (source compiledCode : Text) : Essence :=
  ⟨compiledCode, sha256Hex source, sha256Hex compiledCode, none,
    Specifier.collect compiledCode, Text.byteSize compiledCode⟩

/-- The verdict on the compiled code of a source. -/
def judged (config : Config) (source compiledCode : Text) : Gist :=
  match examined config compiledCode with
  | .ok (resolvedCode, component) =>
    .ofSuccess (executedEssence source compiledCode resolvedCode component)
  | .error failure =>
    .ofFailure failure
      (if failure.isExecutionStage then some (failedEssence source compiledCode) else none)

/-- The verdict on a request. -/
def verdict (config : Config) (fetcher : Option Fetcher) (request : SourceModule) : Gist :=
  match sourceOf fetcher request with
  | .error failure => .ofFailure failure none
  | .ok source =>
    if Text.isBlankText source then
      .ofFailure .missingSource none
    else
      match (compile config request source).2 with
      | .error failure => .ofFailure failure none
      | .ok compiledCode => judged config source compiledCode

/-! ## Failures that are no timeouts -/

/-- A specifier without an address fails as such. -/
theorem kind_tryResolve
    {config : Config}
    {specifier : Text}
    {failure : Failure}
    (failed : Specifier.tryResolve config specifier = .error failure) :
    failure.kind = .moduleResolution := by
  unfold Specifier.tryResolve at failed
  split at failed
  · cases failed
    rfl
  · split at failed
    · cases failed
      rfl
    · cases failed

/-- Specifiers of which one has no address fail as such. -/
theorem kind_rewrites
    {config : Config}
    {parts : List Pattern.Part}
    {failure : Failure}
    (failed : Specifier.rewrites config parts = .error failure) :
    failure.kind = .moduleResolution := by
  induction parts with
  | nil =>
      cases failed
  | cons part parts inductionHypothesis =>
      unfold Specifier.rewrites at failed
      split at failed
      next unresolved =>
        cases failed
        exact kind_tryResolve unresolved
      · cases rest : Specifier.rewrites config parts with
        | error other =>
            rw [rest] at failed
            cases failed
            exact inductionHypothesis rest
        | ok edits =>
            rw [rest] at failed
            cases failed

/-- Code with a specifier without an address fails as such. -/
theorem kind_rewriteImports
    {config : Config}
    {code : Text}
    {failure : Failure}
    (failed : Specifier.rewriteImports config code = .error failure) :
    failure.kind = .moduleResolution := by
  unfold Specifier.rewriteImports at failed
  cases parts : Specifier.rewrites config (Specifier.occurrences code) with
  | error other =>
      rw [parts] at failed
      cases failed
      exact kind_rewrites parts
  | ok edits =>
      rw [parts] at failed
      cases failed

/-- A module that cannot be evaluated fails as such. -/
theorem kind_ofText
    {code : Text}
    {failure : Failure}
    (failed : Exports.ofText code = .error failure) :
    failure.kind = .executionValidation := by
  unfold Exports.ofText at failed
  split at failed
  · unfold Exports.ofTree at failed
    split at failed
    · cases failed
      rfl
    · cases failed
  · cases failed
    rfl

/-- A module without a component fails as such. -/
theorem kind_component
    {found : Exports}
    {failure : Failure}
    (failed : found.component = .error failure) :
    failure.kind = .noComponentFound := by
  unfold Exports.component at failed
  repeat' split at failed
  all_goals cases failed
  all_goals rfl

/-- Code that is executed in time does not time out. -/
theorem kind_examined
    {config : Config}
    {compiledCode : Text}
    {failure : Failure}
    (failed : examined config compiledCode = .error failure) :
    failure.kind ≠ .loadTimeout := by
  unfold examined at failed
  split at failed
  next unresolved =>
    cases failed
    simp [kind_rewriteImports unresolved]
  · split at failed
    next unloaded =>
      cases failed
      simp [kind_ofText unloaded]
    · split at failed
      next unchosen =>
        cases failed
        simp [kind_component unchosen]
      · cases failed

/-- A verdict is a failure without more to say, or one on some compiled code. -/
theorem verdict_cases
    (config : Config)
    (fetcher : Option Fetcher)
    (request : SourceModule) :
    (∃ failure, verdict config fetcher request = .ofFailure failure none) ∨
      ∃ source compiledCode, verdict config fetcher request = judged config source compiledCode := by
  unfold verdict
  split
  next failure _ =>
    exact .inl ⟨failure, rfl⟩
  next source _ =>
    split
    · exact .inl ⟨_, rfl⟩
    · split
      next failure _ =>
        exact .inl ⟨failure, rfl⟩
      next compiledCode _ =>
        exact .inr ⟨source, compiledCode, rfl⟩

/-- Only a source that was not compiled, since it could not be fetched, may have taken too long. -/
theorem artifact_of_timeout
    {config : Config}
    {fetcher : Option Fetcher}
    {request : SourceModule}
    (timeout : (verdict config fetcher request).errorKind = some .loadTimeout) :
    (verdict config fetcher request).artifact = none := by
  rcases verdict_cases config fetcher request with ⟨failure, same⟩ | ⟨source, compiledCode, same⟩
  · rw [same]
    rfl
  · rw [same] at timeout
    unfold judged at timeout
    split at timeout
    · cases timeout
    next failure failed =>
      exact absurd (Option.some.inj timeout) (kind_examined failed)

/-- A successful verdict has nothing to say but an essence. -/
theorem verdict_of_success
    {config : Config}
    {fetcher : Option Fetcher}
    {request : SourceModule}
    (succeeds : (verdict config fetcher request).success = true) :
    ∃ essence, verdict config fetcher request = .ofSuccess essence := by
  rcases verdict_cases config fetcher request with ⟨failure, same⟩ | ⟨source, compiledCode, same⟩
  · rw [same] at succeeds
    cases succeeds
  · rw [same] at succeeds ⊢
    unfold judged at succeeds ⊢
    split
    · exact ⟨_, rfl⟩
    next failed =>
      rw [failed] at succeeds
      cases succeeds

/-- The text from which the key of a source is made. -/
def keyText (provenance : Provenance) (source : Text) : Text :=
  provenance.name ++ [':'] ++ sha256Hex source

/-- The texts that are hashed on the way to the verdict on a request. -/
def hashedTexts
    (config : Config)
    (fetcher : Option Fetcher)
    (request : SourceModule) :
    List Text :=
  match sourceOf fetcher request with
  | .error _ => []
  | .ok source =>
    match (compile config request source).2 with
    | .error _ => [source, keyText request.provenance source]
    | .ok compiledCode =>
      [source, keyText request.provenance source, compiledCode] ++
        (Specifier.rewriteImports config compiledCode).toOption.toList

/-! ## Results that agree with the verdict -/

/-- The result of an execution agrees with what its code leads to. -/
def Agrees (config : Config) (compiledCode : Text) : ExecutionResult → Prop
  | .error failed => examined config compiledCode = .error failed.failure
  | .ok executed =>
    examined config compiledCode = .ok (executed.resolvedCode, executed.componentExport) ∧
      executed.loadUrl = (Handle.ofCode executed.resolvedCode).url ∧
      executed.byteSize = Text.byteSize executed.resolvedCode ∧
      executed.dependencies = Specifier.collect executed.resolvedCode

/-- The result of a load of the right code agrees with the verdict. -/
theorem agrees_resultOf
    {config : Config}
    {compiledCode : Text}
    {execution : Execution}
    (resolved :
      Specifier.rewriteImports config compiledCode = .ok execution.resolvedCode)
    (handle : execution.handle = Handle.ofCode execution.resolvedCode) :
    Agrees config compiledCode
      (Executor.resultOf execution (some (Exports.ofText execution.resolvedCode))) := by
  unfold Executor.resultOf
  cases loaded : Exports.ofText execution.resolvedCode with
  | error failure =>
      simp [Agrees, examined, resolved, loaded]
  | ok found =>
      cases chosen : found.component with
      | error failure =>
          simp [Agrees, examined, resolved, loaded, chosen]
      | ok component =>
          simp [Agrees, examined, resolved, loaded, chosen, handle]

/-- The artifact of a result that agrees with the verdict has the right essence. -/
theorem essence_executedArtifact
    {config : Config}
    {compiledCode : Text}
    (source : Text)
    {executed : Executed}
    (agrees : Agrees config compiledCode (.ok executed))
    (pipeline : Pipeline)
    (clock : Instant)
    (request : SourceModule) :
    (pipeline.executedArtifact clock request (sha256Hex source) compiledCode executed).essence =
      executedEssence source compiledCode executed.resolvedCode executed.componentExport := by
  obtain ⟨-, -, size, dependencies⟩ := agrees
  simp [executedArtifact, artifactOf, Artifact.essence, executedEssence, size, dependencies]

/-- Handing an artifact over to the cache does not change its essence. -/
theorem essence_kept
    (pipeline : Pipeline)
    (clock : Instant)
    (request : SourceModule)
    (artifact : Artifact) :
    (pipeline.kept clock request artifact).2.essence = artifact.essence := by
  unfold kept
  split
  · dsimp only
    split <;> rfl
  · rfl

/-- An answer to a result that agrees with the verdict says what the verdict says. -/
theorem gist_conclude
    {config : Config}
    {compiledCode : Text}
    {result : ExecutionResult}
    (agrees : Agrees config compiledCode result)
    (source : Text)
    (pipeline : Pipeline)
    (clock : Instant)
    (request : SourceModule)
    (warnings : List Text) :
    (pipeline.conclude clock request (sha256Hex source) compiledCode warnings result).2.gist =
      judged config source compiledCode := by
  cases result with
  | ok executed =>
      have essence := essence_executedArtifact source agrees pipeline clock request
      have kept := essence_kept pipeline clock request
        (pipeline.executedArtifact clock request (sha256Hex source) compiledCode executed)
      obtain ⟨leads, -⟩ := agrees
      simp [conclude, answer, keep, Answer.ofArtifact, Answer.gist, judged, leads, Gist.ofSuccess,
        kept, essence]
  | error failed =>
      obtain ⟨failure, resolvedCode⟩ := failed
      have leads : examined config compiledCode = .error failure := agrees
      unfold conclude
      by_cases stage : failure.isExecutionStage
      · simp [stage, answer, Answer.ofFailure, Answer.gist, judged, leads, Gist.ofFailure,
          remember, artifactOf, Artifact.essence, failedEssence]
      · simp [stage, answer, Answer.ofFailure, Answer.gist, judged, leads, Gist.ofFailure]

/-- An answer after a load that agrees with the verdict says what the verdict says. -/
theorem gist_finish
    {config : Config}
    {source compiledCode : Text}
    {execution : Execution}
    {outcome : Option (Except Failure Exports)}
    (agrees : Agrees config compiledCode (Executor.resultOf execution outcome))
    (pipeline : Pipeline)
    (clock : Instant)
    (request : SourceModule)
    (warnings : List Text) :
    (pipeline.finish clock ⟨request, sha256Hex source, compiledCode, warnings, execution⟩
      outcome).2.gist = judged config source compiledCode := by
  rw [← Executor.finish_result execution outcome pipeline.cache] at agrees
  exact gist_conclude agrees source _ clock request warnings

end Pipeline

end LiveComponent
