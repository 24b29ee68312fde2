import LiveComponent.Proofs.Punctuality

namespace LiveComponent

/-!
# Tasks are traffic

Tasks that a session runs together are calls that come in together.  Each of them takes its steps
without interruption until it waits, and goes on in the same way when its load has ended or its time is
over.  Nobody is late in this traffic.
-/

/-- The call that a task makes. -/
def Task.call : Task → Call
  | process request => .process request
  | execute code options => .execute code options

/-- Whether a task failed because its time was over.  A source that could not be fetched in time was not
compiled. -/
def TaskResult.isTimeout : TaskResult → Bool
  | answered answer => answer.errorKind = some .loadTimeout && answer.artifact.isSome
  | executed (.error failed) => failed.failure.kind = .loadTimeout
  | executed (.ok _) => false

/-- What a call may meet on its way to some results. -/
def TaskResult.allows (results : List TaskResult) (event : Event) : Prop :=
  event = .refused ∨ event = .timedOut ∧ ∃ result ∈ results, result.isTimeout = true

/-- Where the call of a task stands. -/
inductive Task.Reaches : Task → TaskProgress → Stage → Prop where
  | answered
      (request : SourceModule)
      (answer : Answer) :
      Reaches (.process request) (.done (.answered answer)) (.done (.answered request answer))
  | processing
      (request : SourceModule)
      (rest : Processing)
      (same : rest.request = request) :
      Reaches (.process request) (.waiting (.processing rest))
        (.wait (.request request rest.inputHash rest.warnings) rest.compiledCode rest.execution)
  | executed
      (code : Text)
      (options : ExecuteOptions)
      (result : ExecutionResult) :
      Reaches (.execute code options) (.done (.executed result)) (.done (.executed result))
  | executing
      (code : Text)
      (options : ExecuteOptions)
      (rest : Execution) :
      Reaches (.execute code options) (.waiting (.executing rest)) (.wait .caller code rest)

/-- Where the calls of tasks stand. -/
inductive Task.ReachAll : List Task → List TaskProgress → List Stage → Prop where
  | nil :
      ReachAll [] [] []
  | cons
      {task : Task}
      {tasks : List Task}
      {progress : TaskProgress}
      {others : List TaskProgress}
      {stage : Stage}
      {stages : List Stage}
      (reaches : task.Reaches progress stage)
      (rest : ReachAll tasks others stages) :
      ReachAll (task :: tasks) (progress :: others) (stage :: stages)

/-- The call of a task waits as long as the task. -/
theorem Task.Reaches.deadline
    {task : Task}
    {progress : TaskProgress}
    {stage : Stage}
    (reaches : task.Reaches progress stage) :
    stage.deadline? = Session.deadline? progress := by
  cases reaches <;> rfl

/-- The call of a task that was started starts no load any more. -/
theorem Task.Reaches.isFinishing
    {task : Task}
    {progress : TaskProgress}
    {stage : Stage}
    (reaches : task.Reaches progress stage) :
    stage.IsFinishing := by
  cases reaches <;> trivial

/-- The calls of tasks wait as long as the tasks. -/
theorem Task.ReachAll.deadlines
    {tasks : List Task}
    {progress : List TaskProgress}
    {stages : List Stage}
    (reachAll : ReachAll tasks progress stages) :
    stages.filterMap Stage.deadline? = progress.filterMap Session.deadline? := by
  induction reachAll with
  | nil =>
      rfl
  | cons reaches _ inductionHypothesis =>
      rw [List.filterMap_cons, List.filterMap_cons, reaches.deadline, inductionHypothesis]

/-- More results allow more events. -/
theorem TaskResult.allows_of_subset
    {results more : List TaskResult}
    {event : Event}
    (subset : results ⊆ more)
    (allowed : allows results event) :
    allows more event := by
  rcases allowed with refused | ⟨timedOut, result, member, timeout⟩
  · exact .inl refused
  · exact .inr ⟨timedOut, result, subset member, timeout⟩

/-- A request that waits is the one that was started. -/
theorem Pipeline.request_of_start
    {pipeline after : Pipeline}
    {moment : Moment}
    {request : SourceModule}
    {rest : Processing}
    (started : pipeline.start moment request = (after, .waiting rest)) :
    rest.request = request := by
  unfold start at started
  split at started
  · cases started
  · split at started
    · cases started
    · dsimp only at started
      split at started
      · cases started
      · unfold recompile at started
        split at started
        · cases started
        · unfold execute at started
          dsimp only at started
          split at started
          · cases started
            rfl
          · cases started

/-- Answering a request whose code was executed starts no load. -/
theorem Pipeline.executor_conclude
    (pipeline : Pipeline)
    (clock : Instant)
    (request : SourceModule)
    (inputHash compiledCode : Text)
    (warnings : List Text)
    (result : ExecutionResult) :
    (pipeline.conclude clock request inputHash compiledCode warnings result).1.executor =
      pipeline.executor := by
  unfold conclude
  split
  · rfl
  · split <;> rfl

/-- Once all loads that are over have ended, the next one ends later. -/
theorem Executor.lt_nextEnd
    {loader : Loader}
    {now due : Nat}
    {executor : Executor}
    (next : (executor.endLoads loader now).nextEnd? = some due) :
    now < due := by
  have member := List.min?_mem next
  simp only [endLoads, List.mem_map, List.mem_filter] at member
  obtain ⟨load, ⟨⟨original, -, rfl⟩, isOpen⟩, rfl⟩ := member
  unfold endLoad at isOpen ⊢
  split at isOpen
  · cases isOpen
  next early =>
    rw [if_neg early]
    simp only [Load.endsBy, isOpen, Bool.true_and, decide_eq_true_eq, Nat.not_le] at early
    exact early

namespace Session

variable (session : Session)

/-- Starting a task takes steps without interruption. -/
theorem runs_startTask
    (task : Task) :
    ∃ stage, task.Reaches (session.startTask task).2 stage ∧
      Stage.Runs (· = .refused) session (.fresh task.call) (session.startTask task).1 stage := by
  cases task with
  | process request =>
      have run := session.runs_process request
      cases started : session.pipeline.start session.moment request with
      | mk pipeline progress =>
          simp only [started] at run
          simp only [startTask, started]
          cases progress with
          | done answer =>
              exact ⟨_, .answered request answer, run⟩
          | waiting rest =>
              have same := Pipeline.request_of_start started
              simp only [requestStage, same] at run
              exact ⟨_, .processing request rest same, run⟩
  | execute code options =>
      have begun : (Stage.fresh (.execute code options)).step session =
          some (session, .seek .caller options code, []) := rfl
      have run := Stage.Runs.silently begun (session.runs_start .caller options code)
      cases started : Executor.start session.pipeline.config options session.moment code
        session.pipeline.cache session.executor with
      | mk cache rest =>
          obtain ⟨executor, progress⟩ := rest
          have same : Executor.start session.pipeline.config options session.moment code
              session.cache (session.executorOf .caller) = (cache, executor, progress) := started
          rw [same] at run
          simp only [startTask, started]
          cases progress with
          | done result =>
              have concluded : ∀ after : Session,
                  (Stage.conclude .caller code result).step after =
                    some (after, .done (.executed result), []) := fun _ => rfl
              exact ⟨_, .executed code options result,
                run.trans (.silently (concluded _) (.refl _ _))⟩
          | waiting rest =>
              exact ⟨_, .executing code options rest, run⟩

/-- An execution whose load has ended, or whose time is over, takes its result and gives back the handle
of a failed one. -/
theorem runs_finish
    {client : Client}
    (code : Text)
    {execution : Execution}
    {outcome : Option (Except Failure Exports)}
    (found : (session.executorOf client).outcome? execution.load = outcome)
    (ready : (outcome.isSome || execution.deadline ≤ session.moment.elapsed) = true) :
    let finished := Executor.finish execution outcome session.cache
    Stage.Runs (fun event => event = .timedOut ∧ outcome = none) session
      (.wait client code execution) (session.withCache finished.1)
      (.conclude client code finished.2) := by
  have permitted :
      ∀ event ∈ (if outcome.isSome then [] else [.timedOut] : List Event),
        event = .timedOut ∧ outcome = none := by
    intro event member
    cases outcome with
    | none =>
        exact ⟨List.mem_singleton.mp member, rfl⟩
    | some outcome =>
        cases member
  unfold Executor.finish
  cases result : Executor.resultOf execution outcome with
  | ok executed =>
      have resumed : (Stage.wait client code execution).step session =
          some (session, .conclude client code (.ok executed),
            if outcome.isSome then [] else [.timedOut]) := by
        simp only [Stage.step, resume, found, result]
        exact if_pos ready
      exact .head resumed permitted (.refl _ _)
  | error failure =>
      have resumed : (Stage.wait client code execution).step session =
          some (session,
            .release [execution.handle.url] (.conclude client code (.error failure)),
            if outcome.isSome then [] else [.timedOut]) := by
        simp only [Stage.step, resume, found, result]
        exact if_pos ready
      exact .head resumed permitted (runs_release session [execution.handle.url] _)

/-- Going on with a task takes steps without interruption. -/
theorem runs_resumeTask
    {task : Task}
    {progress : TaskProgress}
    {stage : Stage}
    (reaches : task.Reaches progress stage) :
    ∃ next, task.Reaches (session.resumeTask progress).2 next ∧
      Stage.Runs (TaskResult.allows (result? (session.resumeTask progress).2).toList) session stage
        (session.resumeTask progress).1 next := by
  cases reaches with
  | answered request answer =>
      exact ⟨_, .answered request answer, .refl _ _⟩
  | executed code options result =>
      exact ⟨_, .executed code options result, .refl _ _⟩
  | processing request rest same =>
      subst same
      unfold resumeTask
      dsimp only
      split
      next ready =>
        let client : Client := .request rest.request rest.inputHash rest.warnings
        let outcome := session.pipeline.executor.outcome? rest.execution.load
        have found : (session.executorOf client).outcome? rest.execution.load = outcome := rfl
        have finished := session.runs_finish rest.compiledCode found ready
        have concluded := runs_conclude
          (session.withCache (Executor.finish rest.execution outcome session.cache).1)
          rest.request rest.inputHash rest.warnings rest.compiledCode
          (Executor.finish rest.execution outcome session.cache).2
        refine ⟨_, .answered rest.request _, (finished.weaken ?_).trans (concluded.weaken ?_)⟩
        · rintro event ⟨timedOut, ended⟩
          have ended : session.outcome? (.processing rest) = none := ended
          refine .inr ⟨timedOut, _, List.mem_singleton_self _, ?_⟩
          rw [ended]
          rfl
        · exact fun event refused => .inl refused
      · exact ⟨_, .processing rest.request rest rfl, .refl _ _⟩
  | executing code options rest =>
      unfold resumeTask
      dsimp only
      split
      next ready =>
        let outcome := session.executor.outcome? rest.load
        have found : (session.executorOf .caller).outcome? rest.load = outcome := rfl
        have finished := session.runs_finish code found ready
        have concluded :
            ∀ (after : Session) (result : ExecutionResult),
              (Stage.conclude .caller code result).step after =
                some (after, .done (.executed result), []) := fun _ _ => rfl
        refine ⟨_, .executed code options _,
          (finished.weaken ?_).trans (.silently (concluded _ _) (.refl _ _))⟩
        rintro event ⟨timedOut, ended⟩
        have ended : session.outcome? (.executing rest) = none := ended
        refine .inr ⟨timedOut, _, List.mem_singleton_self _, ?_⟩
        rw [ended]
        rfl
      · exact ⟨_, .executing code options rest, .refl _ _⟩

/-- Going on with a task takes no time. -/
theorem moment_resumeTask
    (progress : TaskProgress) :
    (session.resumeTask progress).1.moment = session.moment := by
  unfold resumeTask
  split
  · rfl
  next task =>
    dsimp only
    split
    · cases task <;> rfl
    · rfl

/-- Going on with a task starts no load. -/
theorem executors_resumeTask
    (progress : TaskProgress) :
    (session.resumeTask progress).1.pipeline.executor = session.pipeline.executor ∧
      (session.resumeTask progress).1.executor = session.executor := by
  unfold resumeTask
  split
  · exact ⟨rfl, rfl⟩
  next task =>
    dsimp only
    split
    · cases task with
      | processing rest =>
          exact ⟨Pipeline.executor_conclude _ _ _ _ _ _ _, rfl⟩
      | executing rest =>
          exact ⟨rfl, rfl⟩
    · exact ⟨rfl, rfl⟩

/-- When going on with a task, all loads that are over have still ended. -/
theorem isCurrent_resumeTask
    (current : session.IsCurrent)
    (progress : TaskProgress) :
    (session.resumeTask progress).1.IsCurrent := by
  obtain ⟨own, second⟩ := session.executors_resumeTask progress
  intro client load member isOpen
  have same : (session.resumeTask progress).1.loadsOf client = session.loadsOf client := by
    cases client with
    | request => exact congrArg Executor.loads own
    | caller => exact congrArg Executor.loads second
  rw [same] at member
  rw [moment_resumeTask]
  exact current client load member isOpen

/-! ## Several tasks -/

/-- Starting tasks in their order is punctual traffic. -/
theorem run_startTasks
    (tasks : List Task)
    (before : List Stage)
    (owned : List Text) :
    ∃ stages events, Task.ReachAll tasks (session.startTasks tasks).2 stages ∧
      (∀ event ∈ events, event = .refused) ∧
      Traffic.RunUnder Traffic.Punctual
        ⟨session, before ++ tasks.map fun task => Stage.fresh task.call, owned⟩ events
        ⟨(session.startTasks tasks).1, before ++ stages, owned⟩ := by
  induction tasks generalizing session before with
  | nil =>
      exact ⟨[], [], .nil, fun event member => (by cases member), .nil _⟩
  | cons task tasks inductionHypothesis =>
      obtain ⟨stage, reaches, steps⟩ := session.runs_startTask task
      obtain ⟨first, refused, run⟩ :=
        steps.toPunctual (.inl (by simp)) before (tasks.map fun task => Stage.fresh task.call) owned
      obtain ⟨stages, events, reachAll, others, rest⟩ :=
        inductionHypothesis (session.startTask task).1 (before ++ [stage])
      rw [List.append_assoc, List.append_assoc] at rest
      refine ⟨stage :: stages, first ++ events, .cons reaches reachAll, fun event member => ?_,
        run.trans rest⟩
      rcases List.mem_append.mp member with early | late
      · exact refused event early
      · exact others event late

/-- Going on with tasks in their order is punctual traffic if all loads that are over have ended. -/
theorem run_resumeTasks
    {tasks : List Task}
    {progress : List TaskProgress}
    {stages : List Stage}
    (reachAll : Task.ReachAll tasks progress stages)
    (current : session.IsCurrent)
    (before : List Stage)
    (owned : List Text) :
    ∃ next events, Task.ReachAll tasks (session.resumeTasks progress).2 next ∧
      (∀ event ∈ events,
        TaskResult.allows ((session.resumeTasks progress).2.filterMap result?) event) ∧
      Traffic.RunUnder Traffic.Punctual ⟨session, before ++ stages, owned⟩ events
        ⟨(session.resumeTasks progress).1, before ++ next, owned⟩ := by
  induction reachAll generalizing session before with
  | nil =>
      exact ⟨[], [], .nil, fun event member => (by cases member), .nil _⟩
  | @cons task tasks progress others stage stages reaches _ inductionHypothesis =>
      obtain ⟨next, reached, steps⟩ := session.runs_resumeTask reaches
      obtain ⟨first, allowed, run⟩ :=
        steps.toPunctual (.inr ⟨reaches.isFinishing, current⟩) before stages owned
      obtain ⟨nexts, events, reachedAll, permitted, rest⟩ :=
        inductionHypothesis (session.resumeTask progress).1 (session.isCurrent_resumeTask current _)
          (before ++ [next])
      rw [List.append_assoc, List.append_assoc] at rest
      refine ⟨next :: nexts, first ++ events, .cons reached reachedAll, fun event member => ?_,
        run.trans rest⟩
      simp only [resumeTasks, List.filterMap_cons]
      rcases List.mem_append.mp member with early | late
      · refine TaskResult.allows_of_subset (fun result found => ?_) (allowed event early)
        rw [Option.mem_toList.mp found]
        exact List.mem_cons_self
      · refine TaskResult.allows_of_subset (fun result found => ?_) (permitted event late)
        split
        · exact found
        · exact List.mem_cons_of_mem _ found

/-! ## Waiting -/

/-- A task that still waits has time left. -/
theorem lt_deadline_resumeTask
    {progress : TaskProgress}
    {limit : Nat}
    (waits : deadline? (session.resumeTask progress).2 = some limit) :
    session.moment.elapsed < limit := by
  unfold resumeTask at waits
  split at waits
  · cases waits
  next task =>
    dsimp only at waits
    split at waits
    · cases waits
    next early =>
      simp only [deadline?, Option.some.injEq] at waits
      simp only [Bool.or_eq_true, decide_eq_true_eq, not_or, Nat.not_le] at early
      omega

/-- Tasks that still wait have time left, and going on with them took none. -/
theorem lt_deadline_resumeTasks
    (progress : List TaskProgress) :
    (session.resumeTasks progress).1.moment = session.moment ∧
      ∀ limit ∈ (session.resumeTasks progress).2.filterMap deadline?,
        session.moment.elapsed < limit := by
  induction progress generalizing session with
  | nil =>
      exact ⟨rfl, fun limit member => (by cases member)⟩
  | cons task progress inductionHypothesis =>
      have same := session.moment_resumeTask task
      obtain ⟨sameRest, later⟩ := inductionHypothesis (session.resumeTask task).1
      rw [same] at sameRest later
      refine ⟨sameRest, fun limit member => ?_⟩
      simp only [resumeTasks, List.mem_filterMap, List.mem_cons] at member
      obtain ⟨other, rfl | member, waits⟩ := member
      · exact session.lt_deadline_resumeTask waits
      · exact later limit (List.mem_filterMap.mpr ⟨other, member, waits⟩)

/-- Going on with tasks changes no load. -/
theorem nextEnd_resumeTasks
    (progress : List TaskProgress) :
    (session.resumeTasks progress).1.nextEnd? = session.nextEnd? := by
  induction progress generalizing session with
  | nil =>
      rfl
  | cons task progress inductionHypothesis =>
      have same := session.executors_resumeTask task
      rw [resumeTasks]
      exact (inductionHypothesis _).trans (by simp only [nextEnd?, same])

/-- Once all loads that are over have ended, the next one ends later. -/
theorem lt_nextEnd
    {due : Nat}
    (next : session.endLoads.nextEnd? = some due) :
    session.moment.elapsed < due := by
  have member := List.min?_mem next
  rcases List.mem_append.mp member with own | second
  · exact Executor.lt_nextEnd (Option.mem_toList.mp own)
  · exact Executor.lt_nextEnd (Option.mem_toList.mp second)

/-- Results stay when time passes. -/
theorem results_resumeTasks
    (progress : List TaskProgress) :
    progress.filterMap result? ⊆ (session.resumeTasks progress).2.filterMap result? := by
  induction progress generalizing session with
  | nil =>
      exact fun _ member => member
  | cons task progress inductionHypothesis =>
      intro result member
      have rest := inductionHypothesis (session.resumeTask task).1
      cases task with
      | done own =>
          rcases List.mem_cons.mp member with rfl | later
          · exact List.mem_cons_self
          · exact List.mem_cons_of_mem _ (rest later)
      | waiting task =>
          simp only [resumeTasks, List.filterMap_cons]
          split
          · exact rest member
          · exact List.mem_cons_of_mem _ (rest member)

/-- Results stay until all tasks are done. -/
theorem results_wait
    (count : Nat)
    (progress : List TaskProgress) :
    progress.filterMap result? ⊆ (wait count session progress).2.filterMap result? := by
  induction count generalizing session progress with
  | zero =>
      exact fun _ member => member
  | succ count inductionHypothesis =>
      have stay := session.endLoads.results_resumeTasks progress
      rw [wait]
      dsimp only
      split
      · exact stay
      · exact fun result member => inductionHypothesis _ _ (stay member)

/-- Waiting for tasks is punctual traffic. -/
theorem run_wait
    (count : Nat)
    {tasks : List Task}
    {progress : List TaskProgress}
    {stages : List Stage}
    (reachAll : Task.ReachAll tasks progress stages)
    (owned : List Text) :
    ∃ next events, Task.ReachAll tasks (wait count session progress).2 next ∧
      (∀ event ∈ events,
        TaskResult.allows ((wait count session progress).2.filterMap result?) event) ∧
      Traffic.RunUnder Traffic.Punctual ⟨session, stages, owned⟩ events
        ⟨(wait count session progress).1, next, owned⟩ := by
  induction count generalizing session progress stages with
  | zero =>
      exact ⟨stages, [], reachAll, fun event member => (by cases member), .nil _⟩
  | succ count inductionHypothesis =>
      have ended : Traffic.RunUnder Traffic.Punctual ⟨session, stages, owned⟩ []
          ⟨session.endLoads, stages, owned⟩ :=
        .single (.pass _ session.moment.elapsed (Nat.le_refl _))
          ⟨fun later => absurd later (Nat.lt_irrefl _), fun gaveUp => by cases gaveUp⟩
      have current : session.endLoads.IsCurrent := session.isCurrent_passTo session.moment.elapsed
      obtain ⟨middle, first, reached, allowed, resumed⟩ :=
        session.endLoads.run_resumeTasks reachAll current [] owned
      have run := ended.trans resumed
      obtain ⟨same, later⟩ := session.endLoads.lt_deadline_resumeTasks progress
      rw [wait]
      dsimp only
      split
      · exact ⟨middle, first, reached, allowed, run⟩
      next limit soonest =>
        let after := (session.endLoads.resumeTasks progress).1
        let next := (after.nextEnd?.map fun due => min due limit).getD limit
        have forward : after.moment.elapsed ≤ next := by
          have beforeLimit := later limit (List.min?_mem soonest)
          have unchanged : after.nextEnd? = session.endLoads.nextEnd? :=
            session.endLoads.nextEnd_resumeTasks progress
          simp only [after, next, unchanged, same]
          cases soon : session.endLoads.nextEnd? with
          | none =>
              exact Nat.le_of_lt beforeLimit
          | some due =>
              have beforeEnd : session.endLoads.moment.elapsed < due := session.lt_nextEnd soon
              simp only [Option.map_some, Option.getD_some]
              omega
        obtain ⟨last, events, reachedAll, permitted, rest⟩ :=
          inductionHypothesis (after.passTo next) reached
        have limits : ∀ stage ∈ middle, ∀ bound ∈ stage.deadline?, next ≤ bound := by
          intro stage member bound bounds
          have counted : bound ∈ middle.filterMap Stage.deadline? :=
            List.mem_filterMap.mpr ⟨stage, member, bounds⟩
          rw [reached.deadlines] at counted
          have least := (List.min?_eq_some_iff.mp soonest).2 bound counted
          refine Nat.le_trans ?_ least
          dsimp only [next]
          cases after.nextEnd? with
          | none => exact Nat.le_refl _
          | some due => exact Nat.min_le_right due limit
        have passed : Traffic.RunUnder Traffic.Punctual ⟨after, middle, owned⟩ []
            ⟨after.passTo next, middle, owned⟩ :=
          .single (.pass _ next forward) ⟨fun _ => limits, fun gaveUp => by cases gaveUp⟩
        refine ⟨last, first ++ events, reachedAll, fun event member => ?_,
          run.trans (passed.trans rest)⟩
        rcases List.mem_append.mp member with early | late
        · exact TaskResult.allows_of_subset (results_wait _ _ _) (allowed event early)
        · exact permitted event late

end Session

/-! ## Running -/

/-- The calls of tasks come in together. -/
theorem Traffic.run_calls
    (session : Session)
    (tasks : List Task)
    (before : List Stage)
    (owned : List Text) :
    RunUnder Punctual ⟨session, before, owned⟩ (tasks.map fun task => .called task.call)
      ⟨session, before ++ tasks.map fun task => Stage.fresh task.call, owned⟩ := by
  induction tasks generalizing before with
  | nil =>
      rw [List.map_nil, List.map_nil, List.append_nil]
      exact .nil _
  | cons task tasks inductionHypothesis =>
      have entitled : ∀ url ∈ task.call.given, Handle.isEphemeral url → url ∈ owned := by
        cases task <;> exact fun url member => (by cases member)
      have called : Step ⟨session, before, owned⟩ [.called task.call]
          ⟨session, before ++ [Stage.fresh task.call], owned⟩ := by
        cases task <;> exact .call ⟨session, before, owned⟩ _ entitled
      have punctual : Punctual ⟨session, before, owned⟩ [.called task.call]
          ⟨session, before ++ [Stage.fresh task.call], owned⟩ :=
        ⟨fun later => absurd later (Nat.lt_irrefl _), fun gaveUp => by simp at gaveUp⟩
      have rest := inductionHypothesis (before ++ [Stage.fresh task.call])
      rw [List.append_assoc] at rest
      exact (RunUnder.single called punctual).trans rest

/-- Whatever a session runs is punctual traffic. -/
theorem Traffic.run_tasks
    (session : Session)
    (tasks : List Task)
    (owned : List Text) :
    ∃ progress stages events,
      (session.run tasks).2 = progress.filterMap Session.result? ∧
      Task.ReachAll tasks progress stages ∧
      (∀ event ∈ events, TaskResult.allows (session.run tasks).2 event) ∧
      RunUnder Punctual ⟨session, [], owned⟩
        ((tasks.map fun task => Event.called task.call) ++ events)
        ⟨(session.run tasks).1, stages, owned⟩ := by
  have called := run_calls session tasks [] owned
  obtain ⟨stages, first, reached, refused, started⟩ := session.run_startTasks tasks [] owned
  let count := (session.startTasks tasks).1.openLoads + tasks.length + 1
  obtain ⟨last, events, reachedAll, allowed, waited⟩ :=
    (session.startTasks tasks).1.run_wait count reached owned
  refine ⟨_, last, first ++ events, rfl, reachedAll, fun event member => ?_,
    called.trans (started.trans waited)⟩
  rcases List.mem_append.mp member with early | late
  · exact .inl (refused event early)
  · exact allowed event late

/-- The result of a request that runs alone is its answer, and its call is done. -/
theorem Task.answered_of_reachAll
    {request : SourceModule}
    {progress : List TaskProgress}
    {stages : List Stage}
    {result : TaskResult}
    (reached : ReachAll [.process request] progress stages)
    (results : [result] = progress.filterMap Session.result?) :
    ∃ answer, result = .answered answer ∧ stages = [.done (.answered request answer)] := by
  cases reached with
  | cons reaches rest =>
      cases rest
      cases reaches with
      | processing rest same =>
          cases results
      | answered _ answer =>
          exact ⟨answer, List.singleton_inj.mp results, rfl⟩

/-- A request that is answered in time is a call that comes in and returns. -/
theorem Traffic.run_process
    {session : Session}
    {request : SourceModule}
    {answer : Answer}
    (ran : (session.run [.process request]).2 = [.answered answer])
    (inTime : (TaskResult.answered answer).isTimeout = false) :
    ∃ events, (∀ event ∈ events, event = .refused) ∧
      Run ⟨session, [], []⟩
        (Event.called (.process request) :: events ++ [Event.returned (.answered request answer)])
        ⟨(session.run [.process request]).1, [], []⟩ := by
  obtain ⟨progress, stages, events, results, reached, allowed, run⟩ :=
    run_tasks session [.process request] []
  rw [ran] at results allowed
  obtain ⟨found, same, rfl⟩ := Task.answered_of_reachAll reached results
  cases same
  let after := (session.run [.process request]).1
  have left : Step ⟨after, [.done (.answered request answer)], []⟩
      [.returned (.answered request answer)] ⟨after, [], []⟩ :=
    .leave _ [] [] (.answered request answer) rfl
  refine ⟨events, fun event member => ?_, .snoc run.toRun left⟩
  rcases allowed event member with refused | ⟨-, result, found, timeout⟩
  · exact refused
  · obtain rfl := List.mem_singleton.mp found
    rw [inTime] at timeout
    cases timeout

end LiveComponent
