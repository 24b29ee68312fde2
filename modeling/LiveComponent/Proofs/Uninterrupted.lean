import LiveComponent.Traffic

namespace LiveComponent

/-!
# Uninterrupted calls

When nobody interrupts a call, its steps add up to what the cache, the executor and the pipeline do as a
whole.  So everything that a session runs is traffic.
-/

namespace Traffic.Run

variable
  {initial middle final : Traffic}
  {events last : List Event}

/-- A run followed by another one. -/
theorem trans
    (run : Run initial events middle)
    (rest : Run middle last final) :
    Run initial (events ++ last) final := by
  induction rest with
  | nil =>
      rwa [List.append_nil]
  | snoc _ step inductionHypothesis =>
      rw [← List.append_assoc]
      exact snoc inductionHypothesis step

end Traffic.Run

/-- A call takes steps without interruption; only some events happen meanwhile. -/
inductive Stage.Runs (allowed : Event → Prop) : Session → Stage → Session → Stage → Prop where
  | refl
      (session : Session)
      (stage : Stage) :
      Runs allowed session stage session stage
  | head
      {session middle final : Session}
      {stage next last : Stage}
      {events : List Event}
      (stepped : stage.step session = some (middle, next, events))
      (permitted : ∀ event ∈ events, allowed event)
      (rest : Runs allowed middle next final last) :
      Runs allowed session stage final last

namespace Stage.Runs

variable
  {allowed : Event → Prop}
  {session middle final : Session}
  {stage next last : Stage}

/-- A silent step followed by more steps. -/
theorem silently
    (stepped : stage.step session = some (middle, next, []))
    (rest : Runs allowed middle next final last) :
    Runs allowed session stage final last :=
  head stepped (fun _ member => (by cases member)) rest

/-- Steps followed by more steps. -/
theorem trans
    (run : Runs allowed session stage middle next)
    (rest : Runs allowed middle next final last) :
    Runs allowed session stage final last := by
  induction run with
  | refl =>
      exact rest
  | head stepped permitted _ inductionHypothesis =>
      exact head stepped permitted (inductionHypothesis rest)

/-- Steps with fewer events. -/
theorem weaken
    {wider : Event → Prop}
    (run : Runs allowed session stage final last)
    (implied : ∀ event, allowed event → wider event) :
    Runs wider session stage final last := by
  induction run with
  | refl =>
      exact refl _ _
  | head stepped permitted _ inductionHypothesis =>
      exact head stepped (fun event member => implied event (permitted event member))
        inductionHypothesis

end Stage.Runs

namespace Session

variable (session : Session)

/-! ## Releasing -/

/-- Handles that wait to be released are released one after the other. -/
theorem runs_release
    {allowed : Event → Prop}
    (urls : List Text)
    (rest : Stage) :
    Stage.Runs allowed session (.release urls rest)
      (session.withRegistry (session.registry.releaseAll urls)) rest := by
  induction urls generalizing session with
  | nil =>
      exact .silently rfl (.refl _ _)
  | cons url urls inductionHypothesis =>
      exact .silently rfl
        (inductionHypothesis (session.withRegistry (session.registry.release url)))

/-- A step that changes the cache, with the releases after it, carries out the change. -/
theorem runs_goOn
    {session after : Session}
    {change : CacheChange}
    {stage rest : Stage}
    (stepped : stage.step session = some (after.goOn change rest)) :
    Stage.Runs (· = .refused) session stage (after.withCache change.carryOut) rest := by
  refine .head stepped (fun event member => ?_)
    (runs_release (after.withCache change.cache) change.released rest)
  split at member
  · exact List.mem_singleton.mp member
  · cases member

/-! ## Executions -/

/-- Where a call stands once its execution was started. -/
def executionStage
    (client : Client)
    (code : Text) :
    Progress ExecutionResult Execution → Stage
  | .done result => .conclude client code result
  | .waiting execution => .wait client code execution

/-- The session after an execution was started. -/
def afterStart
    (client : Client)
    (started : Cache × Executor × Progress ExecutionResult Execution) :
    Session :=
  (session.withCache started.1).withExecutor started.2.1 client

/-- Making code loadable and joining its load takes two steps. -/
theorem runs_enter
    (client : Client)
    (timeout : Nat)
    (code : Text) :
    let entered := Executor.enter session.pipeline.config timeout session.moment.elapsed code
      session.cache (session.executorOf client)
    Stage.Runs (· = .refused) session (.enter client timeout code)
      (session.afterStart client entered) (executionStage client code entered.2.2) := by
  have unchanged : (session.withCache session.cache).withExecutor (session.executorOf client) client =
      session := by
    cases client <;> rfl
  unfold Executor.enter
  split
  next failure failed =>
    dsimp only [afterStart]
    rw [unchanged]
    exact .silently (by simp [Stage.step, enter, failed, executionStage]) (.refl _ _)
  next resolvedCode resolved =>
    split
    next failure failed =>
      dsimp only [afterStart]
      rw [unchanged]
      exact .silently (by simp [Stage.step, enter, resolved, failed, executionStage]) (.refl _ _)
    next registry handle acquired =>
      have entered : (Stage.enter client timeout code).step session =
          some (session.withRegistry registry,
            .join client timeout code resolvedCode handle, []) := by
        simp [Stage.step, enter, resolved, acquired]
      refine .silently entered (.silently rfl ?_)
      cases client <;> exact .refl _ _

@[simp]
theorem afterStart_withCache
    (cache : Cache)
    (client : Client)
    (started : Cache × Executor × Progress ExecutionResult Execution) :
    (session.withCache cache).afterStart client started = session.afterStart client started := by
  cases client <;> rfl

@[simp]
theorem afterStart_done
    (cache : Cache)
    (client : Client)
    (result : ExecutionResult) :
    session.afterStart client (cache, session.executorOf client, .done result) =
      session.withCache cache := by
  cases client <;> rfl

/-- Starting an execution takes up to four steps, and those that release handles. -/
theorem runs_start
    (client : Client)
    (options : ExecuteOptions)
    (code : Text) :
    let started := Executor.start session.pipeline.config options session.moment code
      session.cache (session.executorOf client)
    Stage.Runs (· = .refused) session (.seek client options code)
      (session.afterStart client started) (executionStage client code started.2.2) := by
  cases uses : options.useCache with
  | false =>
      have sought : (Stage.seek client options code).step session =
          some (session, .enter client options.timeout code, []) := by
        simp [Stage.step, seek, uses]
      have entered := session.runs_enter client options.timeout code
      simpa [Executor.start, uses] using Stage.Runs.silently sought entered
  | true =>
      cases looked : session.cache.lookedUpByOutputHash session.moment.clock (sha256Hex code) with
      | mk change found =>
          cases found with
          | none =>
              have sought : (Stage.seek client options code).step session =
                  some (session.goOn change (.enter client options.timeout code)) := by
                simp [Stage.step, seek, uses, looked]
              have entered := (session.withCache change.carryOut).runs_enter client
                options.timeout code
              simp only [executorOf_withCache, afterStart_withCache] at entered
              have started := (runs_goOn sought).trans entered
              simpa [Executor.start, Executor.cached, Cache.getByOutputHash, uses, looked]
                using started
          | some entry =>
              have sought : (Stage.seek client options code).step session =
                  some (session.goOn change (.adopt client options.timeout code entry)) := by
                simp [Stage.step, seek, uses, looked]
              have released := runs_goOn sought
              cases adopted : Executor.adopt session.pipeline.config entry
                change.carryOut.registry with
              | mk registry executed =>
                  let middle := session.withCache change.carryOut
                  let after := middle.withCache { change.carryOut with registry := registry }
                  cases executed with
                  | some executed =>
                      have taken :
                          (Stage.adopt client options.timeout code entry).step middle =
                            some (after, .conclude client code (.ok executed), []) := by
                        simp [Stage.step, adopt, middle, adopted]
                        rfl
                      have started := released.trans (.silently taken (.refl _ _))
                      simpa [Executor.start, Executor.cached, Cache.getByOutputHash, uses, looked,
                        adopted, executionStage, after, middle] using started
                  | none =>
                      have taken :
                          (Stage.adopt client options.timeout code entry).step middle =
                            some (after, .enter client options.timeout code, []) := by
                        simp [Stage.step, adopt, middle, adopted]
                        rfl
                      have entered := after.runs_enter client options.timeout code
                      have started := released.trans (.silently taken entered)
                      simpa [Executor.start, Executor.cached, Cache.getByOutputHash, uses, looked,
                        adopted, after, middle] using started

/-- Reporting the result of an execution to a request answers it. -/
theorem runs_conclude
    (request : SourceModule)
    (inputHash : Text)
    (warnings : List Text)
    (code : Text)
    (result : ExecutionResult) :
    let concluded := session.pipeline.conclude session.moment.clock request inputHash code warnings
      result
    Stage.Runs (· = .refused) session (.conclude (.request request inputHash warnings) code result)
      { session with pipeline := concluded.1 } (.done (.answered request concluded.2)) := by
  cases result with
  | error failure =>
      exact .silently rfl (.refl _ _)
  | ok executed =>
      let artifact := session.pipeline.executedArtifact session.moment.clock request inputHash code
        executed
      let kept := session.pipeline.kept session.moment.clock request artifact
      let answered := session.answer request
        (.ofArtifact kept.2 warnings executed.cached.isSome)
      have concluded :
          (Stage.conclude (.request request inputHash warnings) code (.ok executed)).step session =
            some (answered.1.goOn kept.1 answered.2.1) := rfl
      exact runs_goOn concluded

/-! ## Requests -/

/-- Where a request stands once it was started. -/
def requestStage
    (request : SourceModule) :
    Progress Answer Processing → Stage
  | .done answer => .done (.answered request answer)
  | .waiting rest =>
    .wait (.request rest.request rest.inputHash rest.warnings) rest.compiledCode rest.execution

/-- Compiling a source and starting its execution takes steps without interruption. -/
theorem runs_recompile
    (request : SourceModule)
    (code : Text) :
    let recompiled := session.pipeline.recompile session.moment request code
    Stage.Runs (· = .refused) session (.compile request code)
      { session with pipeline := recompiled.1 } (requestStage request recompiled.2) := by
  cases compiled : Pipeline.compile session.pipeline.config request code with
  | mk warnings result =>
      cases result with
      | error failure =>
          have compiling : (Stage.compile request code).step session =
              some (session.answer request (.ofFailure failure warnings none)) := by
            simp [Stage.step, compileRequest, compiled]
          simp only [Pipeline.recompile, compiled]
          exact .silently compiling (.refl _ _)
      | ok compiledCode =>
          let client : Client := .request request (sha256Hex code) warnings
          let options := Pipeline.executeOptions session.pipeline.config request
          have compiling : (Stage.compile request code).step session =
              some (session, .seek client options compiledCode, []) := by
            simp [Stage.step, compileRequest, compiled, client, options]
          cases begun : Executor.start session.pipeline.config options session.moment compiledCode
            session.pipeline.cache session.pipeline.executor with
          | mk cache rest =>
              obtain ⟨executor, progress⟩ := rest
              have run := session.runs_start client options compiledCode
              have same : Executor.start session.pipeline.config options session.moment
                  compiledCode session.cache (session.executorOf client) =
                    (cache, executor, progress) := begun
              rw [same] at run
              have started := Stage.Runs.silently compiling run
              simp only [Pipeline.recompile, compiled, Pipeline.execute]
              simp only [options] at begun
              rw [begun]
              cases progress with
              | waiting execution =>
                  exact started
              | done result =>
                  exact started.trans (runs_conclude _ request (sha256Hex code) warnings
                    compiledCode result)

/-- Starting a request takes steps without interruption. -/
theorem runs_process
    (request : SourceModule) :
    let started := session.pipeline.start session.moment request
    Stage.Runs (· = .refused) session (.fresh (.process request))
      { session with pipeline := started.1 } (requestStage request started.2) := by
  cases found : session.pipeline.sourceText request with
  | error failure =>
      have begun : (Stage.fresh (.process request)).step session =
          some (session.answer request (.ofFailure failure [] none)) := by
        simp [Stage.step, begin, beginRequest, found]
      simp only [Pipeline.start, found]
      exact .silently begun (.refl _ _)
  | ok code =>
      by_cases blank : Text.isBlankText code
      · have begun : (Stage.fresh (.process request)).step session =
            some (session.answer request (.ofFailure .missingSource [] none)) := by
          simp [Stage.step, begin, beginRequest, found, blank]
        simp only [Pipeline.start, found, if_pos blank]
        exact .silently begun (.refl _ _)
      · by_cases reads : Pipeline.readsCache request
        · let key := Cache.keyFor request.provenance (sha256Hex code)
          cases looked : session.cache.lookedUp session.moment.clock key with
          | mk change entry =>
              have got : session.pipeline.cache.get session.moment.clock key =
                  (change.carryOut, entry) := by
                unfold Cache.get
                rw [show session.pipeline.cache = session.cache from rfl, looked]
              simp only [Pipeline.start, found, if_neg blank, if_pos reads]
              simp only [key] at got looked
              rw [got]
              cases entry with
              | none =>
                  have begun : (Stage.fresh (.process request)).step session =
                      some (session.goOn change (.compile request code)) := by
                    simp [Stage.step, begin, beginRequest, found, blank, reads, looked]
                  exact (runs_goOn begun).trans (runs_recompile _ request code)
              | some entry =>
                  let answered := session.answer request (Pipeline.hitAnswer request entry)
                  have begun : (Stage.fresh (.process request)).step session =
                      some (answered.1.goOn change answered.2.1) := by
                    simp [Stage.step, begin, beginRequest, found, blank, reads, looked, answered]
                  exact runs_goOn begun
        · have begun : (Stage.fresh (.process request)).step session =
              some (session, .compile request code, []) := by
            simp [Stage.step, begin, beginRequest, found, blank, reads]
          simp only [Pipeline.start, found, if_neg blank, if_neg reads]
          exact .silently begun (session.runs_recompile request code)

end Session

end LiveComponent
