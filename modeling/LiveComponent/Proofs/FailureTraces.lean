import LiveComponent.Proofs.LoneRequests

namespace LiveComponent

/-!
# What a failed request leaves behind

A request that fails gives back every handle and leaves no module, but the hit of an entry that it found for
its code and could not use stays in the cache and in the store.  An artifact is attached exactly if its code
was executed and failed there, and the history of failures holds the latest of these.
-/

/-! ## The history of failures -/

/-- What is told of a failed execution. -/
structure FailureReport where
  time : Instant
  inputHash : Text
  kind : FailureKind
  message : Text
  compiledCode : Text
deriving DecidableEq, Repr

/-- What a record tells of a failed execution. -/
def FailureRecord.report (record : FailureRecord) : FailureReport :=
  ⟨record.time, record.inputHash, record.failure.kind, record.failure.message, record.compiledCode⟩

/-- What an answer tells of a failed execution. -/
def Answer.report? (answer : Answer) : Option FailureReport :=
  match answer.success, answer.artifact, answer.errorKind, answer.error with
  | false, some artifact, some kind, some message =>
    some ⟨artifact.compiledAt, artifact.inputHash, kind, message, artifact.compiledCode⟩
  | _, _, _, _ => none

/-- What the result of a call tells of a failed execution. -/
def CallResult.report? : CallResult → Option FailureReport
  | answered _ answer => answer.report?
  | _ => none

/-- What a call that is settled will tell of a failed execution. -/
def Stage.report? : Stage → Option FailureReport
  | release _ rest => rest.report?
  | done result => result.report?
  | _ => none

/-- The last members of a list, up to a number of them. -/
def latest {α : Type} (capacity : Nat) (members : List α) : List α :=
  members.drop (members.length - capacity)

/-- One more member makes the first of the latest ones leave, whatever left before. -/
theorem latest_latest_append
    {α : Type}
    (capacity : Nat)
    (members more : List α) :
    latest capacity (latest capacity members ++ more) = latest capacity (members ++ more) := by
  unfold latest
  rcases Nat.le_total members.length capacity with few | many
  · rw [Nat.sub_eq_zero_of_le few, List.drop_zero]
  · have kept : (members.drop (members.length - capacity)).length = capacity := by
      rw [List.length_drop]
      omega
    have gone : (members ++ more).drop (members.length - capacity) =
        members.drop (members.length - capacity) ++ more :=
      List.drop_append_of_le_length (by omega)
    rw [← gone, List.drop_drop, List.length_drop, List.length_append]
    congr 1
    omega

namespace Session

variable {session : Session}

/-- A step of a call leaves the history as it is, or it ends a failed execution and is remembered. -/
inductive Recorded (session : Session) (stage : Stage) (outcome : Session × Stage × List Event) : Prop where
  | unchanged
      (configured : outcome.1.pipeline.config = session.pipeline.config)
      (same : outcome.1.pipeline.failures = session.pipeline.failures)
      (sameReport : outcome.2.1.report? = stage.report?)
  | remembered
      (record : FailureRecord)
      (configured : outcome.1.pipeline.config = session.pipeline.config)
      (unsettled : stage.report? = none)
      (grown :
        outcome.1.pipeline.failures =
          latest session.pipeline.config.failureLogCapacity (session.pipeline.failures ++ [record]))
      (reported : outcome.2.1.report? = some record.report)

/-- The history after a step of a call. -/
theorem recorded_step
    {stage : Stage}
    {outcome : Session × Stage × List Event}
    (stepped : stage.step session = some outcome) :
    Recorded session stage outcome := by
  cases stage with
  | fresh call =>
      cases stepped
      cases call with
      | process request =>
          have begins := session.begins_beginRequest request
          change Recorded session _ (session.beginRequest request)
          generalize session.beginRequest request = outcome at begins
          cases begins <;> exact .unchanged rfl rfl rfl
      | acquire code =>
          dsimp only [Stage.step, begin]
          split <;> exact .unchanged rfl rfl rfl
      | execute | get | getByOutputHash | put | prune | clear | retain | release =>
          exact .unchanged rfl rfl rfl
  | compile request code =>
      cases stepped
      unfold compileRequest
      split <;> exact .unchanged rfl rfl rfl
  | seek client options code =>
      cases stepped
      unfold seek
      split
      · refine .unchanged rfl rfl ?_
        dsimp only [goOn, Stage.report?]
        split <;> rfl
      · exact .unchanged rfl rfl rfl
  | adopt client timeout code entry =>
      cases stepped
      refine .unchanged rfl rfl ?_
      dsimp only [adopt]
      split <;> rfl
  | enter client timeout code =>
      cases stepped
      unfold enter
      split
      · exact .unchanged rfl rfl rfl
      · split <;> exact .unchanged rfl rfl rfl
  | join client timeout code resolvedCode handle =>
      cases stepped
      cases client <;> exact .unchanged rfl rfl rfl
  | wait client code execution =>
      obtain rfl := resume_eq_some stepped
      refine .unchanged rfl rfl ?_
      dsimp only
      split <;> rfl
  | conclude client code result =>
      cases stepped
      cases client with
      | caller =>
          exact .unchanged rfl rfl rfl
      | request request inputHash warnings =>
          cases result with
          | ok executed =>
              exact .unchanged rfl rfl rfl
          | error failed =>
              dsimp only [conclude, Pipeline.conclude]
              split
              · exact .remembered ⟨session.moment.clock, inputHash, failed.failure, code⟩ rfl rfl rfl rfl
              · exact .unchanged rfl rfl rfl
  | release urls rest =>
      cases urls <;> cases stepped <;> exact .unchanged rfl rfl rfl
  | done result =>
      cases stepped

end Session

/-- The history of a session holds the latest of some reports. -/
structure Session.Remembers (session : Session) (capacity : Nat) (reports : List FailureReport) : Prop where
  configured :
    session.pipeline.config.failureLogCapacity = capacity
  history :
    session.pipeline.failures.map FailureRecord.report = latest capacity reports

namespace Session.Remembers

variable
  {session after : Session}
  {capacity : Nat}
  {reports : List FailureReport}

/-- The history after a step of a call. -/
theorem afterStep
    {stage : Stage}
    {outcome : Session × Stage × List Event}
    (remembers : session.Remembers capacity (reports ++ stage.report?.toList))
    (stepped : stage.step session = some outcome) :
    outcome.1.Remembers capacity (reports ++ outcome.2.1.report?.toList) := by
  cases recorded_step stepped with
  | unchanged configured same sameReport =>
      refine ⟨configured ▸ remembers.configured, ?_⟩
      rw [same, sameReport]
      exact remembers.history
  | remembered record configured unsettled grown reported =>
      refine ⟨configured ▸ remembers.configured, ?_⟩
      have before := remembers.history
      rw [unsettled, Option.toList_none, List.append_nil] at before
      have mapped (capacity : Nat) (records : List FailureRecord) :
          (latest capacity records).map FailureRecord.report =
            latest capacity (records.map FailureRecord.report) := by
        simp [latest]
      rw [grown, reported, mapped, List.map_append, before, remembers.configured, latest_latest_append]
      rfl

/-- The history does not depend on what the session does besides. -/
theorem afterIdle
    {events : List Event}
    (remembers : session.Remembers capacity reports)
    (idles : session.Idles events after) :
    after.Remembers capacity reports := by
  cases idles <;> exact ⟨remembers.configured, remembers.history⟩

/-- The history after some steps of a call that is alone. -/
theorem afterAlone
    {first last : Stage}
    {events : List Event}
    (remembers : session.Remembers capacity (reports ++ first.report?.toList))
    (alone : Stage.Alone session first events after last) :
    after.Remembers capacity (reports ++ last.report?.toList) := by
  induction alone with
  | start =>
      exact remembers
  | work _ stepped inductionHypothesis =>
      exact inductionHypothesis.afterStep stepped
  | idle _ idles inductionHypothesis =>
      exact inductionHypothesis.afterIdle idles

/-- The history after calls one after the other. -/
theorem afterSerial
    {turns : List Turn}
    (remembers : session.Remembers capacity reports)
    (serial : session.Serial turns after) :
    after.Remembers capacity (reports ++ turns.filterMap fun turn => turn.result.report?) := by
  induction serial with
  | nil =>
      rw [List.filterMap_nil, List.append_nil]
      exact remembers
  | snoc turn _ _ alone inductionHypothesis =>
      have called : (Stage.fresh turn.call).report? = none := rfl
      rw [← List.append_nil (reports ++ _)] at inductionHypothesis
      have remembered := afterAlone inductionHypothesis alone
      rw [List.append_assoc] at remembered
      rw [List.filterMap_append]
      cases told : turn.result.report? <;> simpa [Stage.report?, told] using remembered

end Session.Remembers

/-! ## What is left in the cache -/

namespace Session

variable
  {before after : Session}
  {request : SourceModule}

/-- A hit of the entry is wasted on a request, which finds it for its code and cannot use it. -/
def Wastes (before : Session) (request : SourceModule) (entry : CacheEntry) : Prop :=
  ∃ client code,
    before.Asks request client code ∧ before.Knows request code entry ∧
      ¬entry.IsAdoptable before.pipeline.config

/-- A request wants only one code. -/
theorem Asks.code_eq
    {first second : Client}
    {code other : Text}
    (asks : before.Asks request first code)
    (also : before.Asks request second other) :
    code = other := by
  obtain ⟨source, warnings, misses, compiled, -⟩ := asks
  obtain ⟨same, more, missesAlso, compiledAlso, -⟩ := also
  obtain rfl : source = same := Except.ok.inj (misses.found.symm.trans missesAlso.found)
  exact Except.ok.inj (congrArg Prod.snd (compiled.symm.trans compiledAlso))

/-- A failed request leaves a session as it was, apart from a hit that was wasted on it. -/
theorem Concludes.leaves
    {answer : Answer}
    (concludes : before.Concludes request after answer)
    (failed : answer.success = false) :
    (∀ entry, ¬before.Wastes request entry) ∧ before.Matches after ∨
      ∃ entry clock, before.Wastes request entry ∧ before.HasHit entry.key clock after := by
  cases concludes with
  | sourceless failure missing same =>
      refine .inl ⟨?_, same⟩
      rintro entry ⟨client, code, ⟨source, warnings, misses, -⟩, -⟩
      have blank := missing source misses.found
      rw [misses.solid] at blank
      cases blank
  | uncompiled source warnings failure misses compiled same =>
      refine .inl ⟨?_, same⟩
      rintro entry ⟨client, code, ⟨other, more, missesAlso, compiledAlso, -⟩, -⟩
      obtain rfl : source = other := Except.ok.inj (misses.found.symm.trans missesAlso.found)
      rw [compiled] at compiledAlso
      cases compiledAlso
  | served | reused | loaded =>
      cases failed
  | failed inputHash code warnings clock failure asks sought =>
      cases sought with
      | unread ignores same =>
          refine .inl ⟨?_, same⟩
          rintro entry ⟨client, other, -, knows, -⟩
          have reads := knows.reads
          rw [ignores] at reads
          cases reads
      | unknown unknown same =>
          refine .inl ⟨?_, same⟩
          rintro entry ⟨client, other, also, knows, -⟩
          have found := knows.found
          rw [← asks.code_eq also, unknown] at found
          cases found
      | wasted entry clock knows unusable hasHit =>
          exact .inr ⟨entry, clock, ⟨_, code, asks, knows, unusable⟩, hasHit⟩

/-- Only one hit is wasted on a request. -/
theorem Wastes.entry_eq
    {entry other : CacheEntry}
    (wastes : before.Wastes request entry)
    (also : before.Wastes request other) :
    entry = other := by
  obtain ⟨client, code, asks, knows, -⟩ := wastes
  obtain ⟨client, code, asksAlso, knowsAlso, -⟩ := also
  obtain rfl := asks.code_eq asksAlso
  exact Option.some.inj (knows.found.symm.trans knowsAlso.found)

/-- A session with one more hit has the same handles and modules. -/
theorem HasHit.agrees
    {key : Text}
    {clock : Instant}
    (hasHit : before.HasHit key clock after) :
    before.registry.Agrees after.registry := by
  have same : (before.afterHit key clock).registry = before.registry := Cache.registry_persisted _
  have agrees : (before.afterHit key clock).registry.Agrees after.registry := hasHit.same.registry
  rwa [same] at agrees

/-- One more hit changes the entries. -/
theorem HasHit.entries_ne
    {entry : CacheEntry}
    {clock : Instant}
    (hasHit : before.HasHit entry.key clock after)
    (member : entry ∈ before.cache.entries) :
    after.cache.entries ≠ before.cache.entries := by
  intro unchanged
  have changes : entry.hit clock ≠ entry := by
    intro same
    have counts : (entry.hitCount + 1) % UInt64.size = entry.hitCount := congrArg CacheEntry.hitCount same
    have below := Nat.mod_lt (entry.hitCount + 1) (show 0 < UInt64.size by decide)
    rcases Nat.lt_or_ge (entry.hitCount + 1) UInt64.size with small | large
    · rw [Nat.mod_eq_of_lt small] at counts
      omega
    · have full : entry.hitCount + 1 = UInt64.size := by omega
      rw [full, Nat.mod_self] at counts
      rw [← counts] at full
      exact absurd full (by decide)
  obtain ⟨place, placed⟩ := List.getElem?_of_mem member
  rw [hasHit.same.entries, hasHit.counted, Cache.countHit] at unchanged
  have mapped := congrArg (fun entries : List CacheEntry => entries[place]?) unchanged
  simp only [List.getElem?_map, placed, Option.map_some, if_true] at mapped
  exact changes (Option.some.inj mapped)

end Session

/-! ## Executions that fail -/

/-- The code of a request is executed and fails, before the result of the call is given. -/
def Session.FailsToExecute
    (before : Session)
    (request : SourceModule)
    (events : List Event)
    (after : Session)
    (result : CallResult)
    (code : Text)
    (failure : Failure) :
    Prop :=
  ∃ middle earlier later inputHash warnings resolvedCode,
    let concluding :=
      Stage.conclude (.request request inputHash warnings) code (.error ⟨failure, resolvedCode⟩)
    events = earlier ++ later ∧
      Stage.Alone before (.fresh (.process request)) earlier middle concluding ∧
      Stage.Alone middle concluding later after (.done result)

/-- The failures that arise when a module is resolved, loaded or examined. -/
def FailureKind.ofExecution : List FailureKind :=
  [.moduleResolution, .loadTimeout, .executionValidation, .noComponentFound]

/-- The failures of the execution stage are those of an execution. -/
theorem Failure.isExecutionStage_iff
    (failure : Failure) :
    failure.isExecutionStage = true ↔ failure.kind ∈ FailureKind.ofExecution := by
  unfold isExecutionStage FailureKind.ofExecution
  cases failure.kind <;> decide

/-- How a failed execution is answered. -/
theorem Pipeline.conclude_error
    (pipeline : Pipeline)
    (clock : Instant)
    (request : SourceModule)
    (inputHash compiledCode : Text)
    (warnings : List Text)
    (failed : ExecutionFailure) :
    (pipeline.conclude clock request inputHash compiledCode warnings (.error failed)).2 =
      .ofFailure failed.failure warnings
        (if failed.failure.isExecutionStage then
          some (pipeline.artifactOf clock request inputHash compiledCode)
        else
          none) := by
  unfold conclude
  dsimp only
  split <;> rfl

namespace Stage.Alone

variable
  {before after : Session}
  {request : SourceModule}
  {events : List Event}

/-- A failed execution is reported to its request. -/
theorem reported
    {inputHash code : Text}
    {warnings : List Text}
    {failed : ExecutionFailure}
    {stage : Stage}
    (alone :
      Alone before (.conclude (.request request inputHash warnings) code (.error failed)) events after
        stage) :
    stage = .conclude (.request request inputHash warnings) code (.error failed) ∨
      ∃ pipeline clock,
        stage =
          .done (.answered request
            (Pipeline.conclude pipeline clock request inputHash code warnings (.error failed)).2) := by
  induction alone with
  | start =>
      exact .inl rfl
  | @work session after stage next events told alone stepped inductionHypothesis =>
      obtain rfl | ⟨pipeline, clock, rfl⟩ := inductionHypothesis
      · cases stepped
        exact .inr ⟨session.pipeline, session.moment.clock, rfl⟩
      · cases stepped
  | idle _ _ inductionHypothesis =>
      exact inductionHypothesis

/-- A request that fails with an artifact had its code executed. -/
theorem failsToExecute
    {answer : Answer}
    (balanced : Traffic.Balanced { session := before })
    (alone : Alone before (.fresh (.process request)) events after (.done (.answered request answer)))
    (quiet : .refused ∉ events)
    (failed : answer.success = false)
    (holds : answer.artifact.isSome = true) :
    ∃ code failure, before.FailsToExecute request events after (.answered request answer) code failure := by
  obtain ⟨earlier, later, middle, stage, outcome, rfl, begun, stepped, settled, rest⟩ :=
    alone.last_step nofun
  have course := begun.course balanced fun refused => quiet (List.mem_append_left later refused)
  cases stage with
  | fresh call =>
      obtain ⟨rfl, -⟩ := course
      cases stepped
      have begins := middle.begins_beginRequest request
      change (middle.beginRequest request).2.1 = _ at settled
      generalize middle.beginRequest request = outcome at begins settled
      cases begins <;> cases settled <;> cases holds
  | compile asked code =>
      cases stepped
      unfold Session.compileRequest at settled
      split at settled <;> cases settled
      cases holds
  | seek client options code =>
      cases stepped
      unfold Session.seek at settled
      split at settled <;> cases settled
  | adopt client timeout code entry =>
      cases stepped
      dsimp only [Session.adopt] at settled
      split at settled <;> cases settled
  | enter client timeout code =>
      cases stepped
      unfold Session.enter at settled
      split at settled
      · cases settled
      · split at settled <;> cases settled
  | join client timeout code resolvedCode handle =>
      cases stepped
      cases settled
  | wait client code execution =>
      obtain rfl := Session.resume_eq_some stepped
      dsimp only at settled
      split at settled <;> cases settled
  | conclude client code result =>
      cases result with
      | ok executed =>
          obtain ⟨⟨source, warnings, -, -, rfl⟩, -⟩ := course
          cases stepped
          cases settled
      | error failure =>
          obtain ⟨⟨source, warnings, -, -, rfl⟩, -⟩ := course
          exact ⟨code, failure.failure, middle, earlier, later, _, _, failure.resolvedCode, rfl, begun, rest⟩
  | release urls rest =>
      cases urls with
      | nil =>
          cases stepped
          have succeeded := course.2 request answer settled
          rw [failed] at succeeded
          cases succeeded
      | cons url urls =>
          cases stepped
          cases settled
  | done result =>
      cases stepped

end Stage.Alone

namespace Session

variable
  {before after : Session}
  {request : SourceModule}
  {events : List Event}
  {answer : Answer}
  {code : Text}
  {failure : Failure}

/-- How a request is answered whose code was executed and failed. -/
theorem FailsToExecute.answer_eq
    (balanced : Traffic.Balanced { session := before })
    (fails : before.FailsToExecute request events after (.answered request answer) code failure)
    (quiet : .refused ∉ events) :
    ∃ inputHash warnings pipeline clock,
      answer =
          .ofFailure failure warnings
            (if failure.isExecutionStage then
              some (Pipeline.artifactOf pipeline clock request inputHash code)
            else
              none) ∧
        Pipeline.CompilesTo before.pipeline.config before.pipeline.fetcher request inputHash code := by
  obtain ⟨middle, earlier, later, inputHash, warnings, resolvedCode, rfl, begun, rest⟩ := fails
  have course := begun.course balanced fun refused => quiet (List.mem_append_left later refused)
  obtain ⟨⟨source, more, misses, compiled, client⟩, -⟩ := course
  obtain ⟨-, hashed, rfl⟩ := Client.request.inj client
  obtain other | ⟨pipeline, clock, told⟩ := rest.reported
  · cases other
  · refine ⟨inputHash, warnings, pipeline, clock, ?_, source, misses.found, hashed,
      congrArg Prod.snd compiled⟩
    rw [← Pipeline.conclude_error pipeline clock request inputHash code warnings ⟨failure, resolvedCode⟩]
    cases told
    rfl

/-- A new session remembers no failure. -/
theorem remembers_ofConfig
    {config : Config}
    {fetcher : Option Fetcher}
    {loader : Loader}
    {store : Option Store}
    {moment : Moment}
    {session : Session}
    (opened : Session.ofConfig config fetcher loader store moment = .ok session) :
    session.Remembers config.failureLogCapacity [] := by
  obtain ⟨-, rfl⟩ := ofConfig_eq_ok.mp opened
  exact ⟨rfl, List.drop_nil.symm⟩

/-- A request that fails in a session that is used for one call after the other, while the store works, leaves
every count of references and every loadable module as it was.  If it found an entry for its code and could not
use it, the hit of this entry has been counted and written; otherwise the entries and the store are as they were.
The answer holds an artifact exactly if the code was executed and failed when it was resolved, loaded or
examined.  The artifact holds this code, has no handle and names no component.  The history of failures holds the
latest of the executions that failed so. -/
theorem failed_request_leaves_hit
    {config : Config}
    {fetcher : Option Fetcher}
    {loader : Loader}
    {store : Option Store}
    {moment : Moment}
    {session : Session}
    {turns : List Turn}
    (fresh : loader.modules = [])
    (opened : Session.ofConfig config fetcher loader store moment = .ok session)
    (serial : session.Serial turns before)
    (alone : Stage.Alone before (.fresh (.process request)) events after (.done (.answered request answer)))
    (quiet : .refused ∉ events)
    (failed : answer.success = false) :
    after.registry.refs = before.registry.refs ∧
    after.loader.modules = before.loader.modules ∧
    ((∀ entry, ¬before.Wastes request entry) →
      after.cache.entries = before.cache.entries ∧ after.cache.store = before.cache.store) ∧
    (∀ entry, before.Wastes request entry →
      after.cache.entries ≠ before.cache.entries ∧
        ∃ clock,
          after.cache.entries = (before.cache.countHit entry.key clock).entries ∧
            after.cache.store = (before.cache.countHit entry.key clock).persisted.cache.store) ∧
    (answer.artifact.isSome = true ↔
      ∃ code failure,
        before.FailsToExecute request events after (.answered request answer) code failure ∧
          failure.kind ∈ FailureKind.ofExecution) ∧
    (∀ artifact ∈ answer.artifact,
      artifact.loadUrl = none ∧ artifact.componentExport = none ∧
        Pipeline.CompilesTo before.pipeline.config before.pipeline.fetcher request artifact.inputHash
          artifact.compiledCode ∧
        ∃ failure,
          before.FailsToExecute request events after (.answered request answer) artifact.compiledCode
              failure ∧
            answer.errorKind = some failure.kind) ∧
    before.pipeline.failures.map FailureRecord.report =
      latest config.failureLogCapacity (turns.filterMap fun turn => turn.result.report?) := by
  have balanced : Traffic.Balanced { session := before } :=
    Traffic.balanced_run (Traffic.balanced_ofConfig fresh opened) serial.toRun
  have concludes : before.Concludes request after answer := (alone.course balanced quiet).2
  have executed (holds : answer.artifact.isSome = true) := alone.failsToExecute balanced quiet failed holds
  have left := concludes.leaves failed
  have agrees : before.registry.Agrees after.registry := by
    obtain ⟨-, same⟩ | ⟨entry, clock, -, hasHit⟩ := left
    · exact same.registry
    · exact hasHit.agrees
  refine ⟨agrees.refs, agrees.modules, fun unwasted => ?_, fun entry wastes => ?_, ⟨fun holds => ?_, ?_⟩,
    fun artifact told => ?_, ?_⟩
  · obtain ⟨-, same⟩ | ⟨entry, clock, wastes, -⟩ := left
    · exact ⟨same.entries, same.store⟩
    · exact absurd wastes (unwasted entry)
  · obtain ⟨unwasted, -⟩ | ⟨other, clock, also, hasHit⟩ := left
    · exact absurd wastes (unwasted entry)
    · obtain rfl := wastes.entry_eq also
      obtain ⟨client, code, -, knows, -⟩ := wastes
      exact ⟨hasHit.entries_ne (Cache.mem_of_withHash? knows.found).1, clock,
        hasHit.same.entries.trans hasHit.counted, hasHit.same.store⟩
  · obtain ⟨code, failure, fails⟩ := executed holds
    obtain ⟨inputHash, warnings, pipeline, clock, rfl, -⟩ := fails.answer_eq balanced quiet
    refine ⟨code, failure, fails, (failure.isExecutionStage_iff).mp ?_⟩
    by_contra other
    simp [Answer.ofFailure, other] at holds
  · rintro ⟨code, failure, fails, kind⟩
    obtain ⟨inputHash, warnings, pipeline, clock, rfl, -⟩ := fails.answer_eq balanced quiet
    simp [Answer.ofFailure, (failure.isExecutionStage_iff).mpr kind]
  · obtain ⟨code, failure, fails⟩ := executed (Option.isSome_of_mem told)
    obtain ⟨inputHash, warnings, pipeline, clock, rfl, compiles⟩ := fails.answer_eq balanced quiet
    dsimp only [Answer.ofFailure] at told
    split at told
    · obtain rfl := Option.some.inj told
      exact ⟨rfl, rfl, compiles, failure, fails, rfl⟩
    · cases told
  · have remembers := (remembers_ofConfig opened).afterSerial serial
    exact remembers.history

/-- Whether a request that is answered succeeds. -/
def success? : TaskProgress → Option Bool
  | .done (.answered answer) => some answer.success
  | _ => none

/-- A request that times out leaves a hit of the entry that it found without a handle. -/
theorem failed_request_leaves_hit_of_timeout :
    ∃ document request session after events answer entry,
      Session.ofConfig {} none { delay := 5 }
          (some ⟨.memory [(({} : Config).persistenceKey, CacheDocument.toText document)], []⟩)
          ⟨0, ⟨0, 0⟩⟩ = .ok session ∧
        session.Serial [] session ∧
        Stage.Alone session (.fresh (.process request)) events after (.done (.answered request answer)) ∧
        .refused ∉ events ∧ answer.success = false ∧
        after.registry.refs = session.registry.refs ∧
        session.Wastes request entry ∧ after.cache.entries ≠ session.cache.entries := by
  -- The document and the session are hidden, so that only this step evaluates them.
  obtain ⟨document, request, session, opened, failed, before, counted, on⟩ :
      ∃ (document : CacheDocument) (request : SourceModule) (session : Session),
        Session.ofConfig {} none { delay := 5 }
            (some ⟨.memory [(({} : Config).persistenceKey, document.toText)], []⟩) ⟨0, ⟨0, 0⟩⟩ =
          .ok session ∧
          success? (session.serve (.process request)).2 = some false ∧
          session.cache.entries.map CacheEntry.hitCount = [0] ∧
          (session.serve (.process request)).1.cache.entries.map CacheEntry.hitCount = [1] ∧
          (session.serve (.process request)).1.cache.enabled = true := by
    let code : Text := "export default () => 1"
    let artifact : Artifact :=
      { compiledCode := code, inputHash := "input", outputHash := sha256Hex code, compiledAt := ⟨0, 0⟩,
        compilerTag := ({} : Config).compilerTag, loadUrl := none, byteSize := Text.byteSize code,
        dependencies := [], componentExport := some "default", metadata := none }
    refine
      ⟨⟨({} : Config).compilerTag, [⟨"page", artifact, ⟨0, 0⟩, ⟨0, 0⟩, 0, Text.byteSize code, 0⟩]⟩,
        { code, provenance := .generated, options := { timeout := some 1 } },
        _, Session.ofConfig_eq_ok.mpr ⟨by decide +kernel, rfl⟩, ?_⟩
    decide +kernel
  obtain ⟨result, stage, events, served, reaches, -, alone⟩ := session.alone_serve (.process request)
  cases reaches with
  | answered _ answer =>
      rw [served] at failed
      have failed : answer.success = false := Option.some.inj failed
      have quiet := alone.quiet_of_enabled (Traffic.balanced_ofConfig rfl opened) rfl on
      obtain ⟨refs, -, unwasted, -⟩ := failed_request_leaves_hit rfl opened .nil alone quiet failed
      have changed : (session.serve (.process request)).1.cache.entries ≠ session.cache.entries := by
        intro same
        rw [same, before] at counted
        cases counted
      obtain ⟨entry, wastes⟩ : ∃ entry, session.Wastes request entry := by
        by_contra none
        exact changed (unwasted fun entry wastes => none ⟨entry, wastes⟩).1
      exact ⟨document, request, session, _, events, answer, entry, opened, .nil, alone, quiet, failed, refs,
        wastes, changed⟩

end Session

end LiveComponent
