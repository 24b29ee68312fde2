import LiveComponent.Pipeline

namespace LiveComponent

/-!
# What a step of an execution can do

Each function of an executor that does one of several things is described once by all of them.  A failed
execution leaves nothing but a trace in the history of the pipeline.
-/

namespace Executor

/-- An entry is adopted by retaining its handle, if it has one and its code can be resolved. -/
theorem adopt_cases
    (config : Config)
    (entry : CacheEntry)
    (registry : Registry) :
    adopt config entry registry = (registry, none) ∨
      ∃ url resolvedCode retained kept,
        entry.artifact.loadUrl = some url ∧
        Specifier.rewriteImports config entry.artifact.compiledCode = .ok resolvedCode ∧
        registry.retain url = (retained, kept) ∧
        adopt config entry registry =
          (retained,
            if kept then
              some
                { resolvedCode
                  loadUrl := url
                  componentExport := entry.artifact.componentExport.getD "default"
                  byteSize := entry.artifact.byteSize
                  dependencies := entry.artifact.dependencies
                  cached := some entry }
            else
              none) := by
  unfold adopt
  split
  next url resolvedCode holds resolved =>
    exact .inr ⟨url, resolvedCode, _, _, holds, resolved, rfl, rfl⟩
  next =>
    exact .inl rfl

/-- An execution joins the load of its address if there is one, and starts a load otherwise. -/
theorem await_cases
    (timeout now : Nat)
    (resolvedCode : Text)
    (handle : Handle)
    (registry : Registry)
    (executor : Executor) :
    (∃ place, executor.pending.get? handle.url = some place ∧
        await timeout now resolvedCode handle registry executor =
          (registry, executor, ⟨resolvedCode, handle, place, timeout, now + timeout⟩)) ∨
      (executor.pending.get? handle.url = none ∧
        await timeout now resolvedCode handle registry executor =
          ({ registry with
              loader := { registry.loader with loads := registry.loader.loads + 1 } },
            ⟨executor.loads ++ [⟨handle.url, now + registry.loader.delay, none⟩],
              executor.pending.put handle.url executor.loads.length⟩,
            ⟨resolvedCode, handle, executor.loads.length, timeout, now + timeout⟩)) := by
  cases present : executor.pending.get? handle.url with
  | some place =>
      exact .inl ⟨place, rfl, by simp [await, join, present]⟩
  | none =>
      exact .inr ⟨rfl, by simp [await, join, present]⟩

/-- Waiting for a load changes nothing of the registry but the number of its loads. -/
theorem await_registry
    (timeout now : Nat)
    (resolvedCode : Text)
    (handle : Handle)
    (registry : Registry)
    (executor : Executor) :
    ∃ loads,
      (await timeout now resolvedCode handle registry executor).1 =
        { registry with loader := { registry.loader with loads := loads } } := by
  obtain ⟨place, -, joined⟩ | ⟨-, started⟩ :=
    await_cases timeout now resolvedCode handle registry executor
  · rw [joined]
    exact ⟨registry.loader.loads, rfl⟩
  · rw [started]
    exact ⟨registry.loader.loads + 1, rfl⟩

/-- A module that was executed stays loadable under the handle of its execution. -/
theorem loadUrl_resultOf
    {execution : Execution}
    {outcome : Option (Except Failure Exports)}
    {executed : Executed}
    (succeeded : resultOf execution outcome = .ok executed) :
    executed.loadUrl = execution.handle.url := by
  unfold resultOf at succeeded
  split at succeeded
  · cases succeeded
  · cases succeeded
  · split at succeeded
    · cases succeeded
    · cases succeeded
      rfl

/-- The result of a finished execution is that of its load. -/
theorem finish_result
    (execution : Execution)
    (outcome : Option (Except Failure Exports))
    (cache : Cache) :
    (finish execution outcome cache).2 = resultOf execution outcome := by
  unfold finish
  split
  next succeeded =>
    exact succeeded.symm
  next failed =>
    exact failed.symm

end Executor

/-! ## What a pipeline makes of an execution -/

namespace Pipeline

/-- Apart from its history, a pipeline is as it was. -/
structure SameWork (before after : Pipeline) : Prop where
  config :
    after.config = before.config
  fetcher :
    after.fetcher = before.fetcher
  cache :
    after.cache = before.cache
  executor :
    after.executor = before.executor

/-- A failed execution changes only the history. -/
theorem sameWork_conclude_error
    (pipeline : Pipeline)
    (clock : Instant)
    (request : SourceModule)
    (inputHash compiledCode : Text)
    (warnings : List Text)
    (failed : ExecutionFailure) :
    pipeline.SameWork
      (pipeline.conclude clock request inputHash compiledCode warnings (.error failed)).1 := by
  unfold conclude
  dsimp only
  split
  · exact ⟨rfl, rfl, rfl, rfl⟩
  · exact ⟨rfl, rfl, rfl, rfl⟩

/-- A failed execution is answered with a failure. -/
theorem success_conclude_error
    (pipeline : Pipeline)
    (clock : Instant)
    (request : SourceModule)
    (inputHash compiledCode : Text)
    (warnings : List Text)
    (failed : ExecutionFailure) :
    (pipeline.conclude clock request inputHash compiledCode warnings
      (.error failed)).2.success = false := by
  unfold conclude
  dsimp only
  split <;> rfl

section Finish

variable
  {execution : Execution}
  {outcome : Option (Except Failure Exports)}
  (pipeline : Pipeline)
  (clock : Instant)
  (request : SourceModule)
  (inputHash compiledCode : Text)
  (warnings : List Text)

/-- An execution that succeeded keeps its handle. -/
theorem finish_ok
    {executed : Executed}
    (result : Executor.resultOf execution outcome = .ok executed) :
    pipeline.finish clock ⟨request, inputHash, compiledCode, warnings, execution⟩ outcome =
      pipeline.conclude clock request inputHash compiledCode warnings (.ok executed) := by
  simp [finish, Executor.finish, result]

/-- An execution that failed gives back its handle. -/
theorem finish_error
    {failed : ExecutionFailure}
    (result : Executor.resultOf execution outcome = .error failed) :
    let released := pipeline.cache.registry.release execution.handle.url
    pipeline.finish clock ⟨request, inputHash, compiledCode, warnings, execution⟩ outcome =
      conclude { pipeline with cache := { pipeline.cache with registry := released } } clock request
        inputHash compiledCode warnings (.error failed) := by
  simp [finish, Executor.finish, result]

end Finish

end Pipeline

end LiveComponent
