import LiveComponent.Pipeline

namespace LiveComponent

/-!
# Sessions

A session runs requests and executions over time.  All that are started together run until they wait;
then time passes to the next end of a load or time limit.  At one point in time loads end before time
limits are reached, and whoever waits goes on in the order of the start.
-/

/-- A pipeline with a second executor on its handles, at a point in time. -/
structure Session where
  pipeline : Pipeline
  executor : Executor := {}
  moment : Moment

/-- Something that a session runs. -/
inductive Task where
  | process (request : SourceModule)
  /-- An execution on the second executor. -/
  | execute (code : Text) (options : ExecuteOptions)

/-- What a task led to. -/
inductive TaskResult where
  | answered (answer : Answer)
  | executed (result : ExecutionResult)

/-- A task that waits. -/
inductive WaitingTask where
  | processing (rest : Processing)
  | executing (rest : Execution)

/-- A task on its way. -/
abbrev TaskProgress := Progress TaskResult WaitingTask

namespace Session

/-- The handles of a session. -/
def registry (session : Session) : Registry :=
  session.pipeline.cache.registry

/-- The loader of a session. -/
def loader (session : Session) : Loader :=
  session.registry.loader

/-- Change the cache of a session. -/
def withCache (session : Session) (cache : Cache) : Session :=
  { session with pipeline := { session.pipeline with cache := cache } }

/-- Change the handles of a session. -/
def withRegistry (session : Session) (registry : Registry) : Session :=
  session.withCache { session.pipeline.cache with registry := registry }

/-- Change the loader of a session. -/
def withLoader (session : Session) (loader : Loader) : Session :=
  session.withRegistry { session.registry with loader := loader }

/-- Change the store of a session. -/
def withStore (session : Session) (store : Store) : Session :=
  session.withCache { session.pipeline.cache with store := some store }

/-! ## Time -/

/-- Let the clock go on by a millisecond. -/
def tick (session : Session) : Session :=
  { session with moment := { session.moment with clock := session.moment.clock.addMillis 1 } }

/-- End all loads that are over. -/
def endLoads (session : Session) : Session :=
  let now := session.moment.elapsed
  { session with
    pipeline := { session.pipeline with
      executor := session.pipeline.executor.endLoads session.loader now }
    executor := session.executor.endLoads session.loader now }

/-- Let time pass up to a point; loads end on the way. -/
def passTo (session : Session) (elapsed : Nat) : Session :=
  { session with moment := { session.moment with elapsed := elapsed } }.endLoads

/-- Let a number of milliseconds pass. -/
def advance (session : Session) (count : Nat) : Session :=
  session.passTo (session.moment.elapsed + count)

/-! ## Tasks -/

/-- Start a task. -/
def startTask (session : Session) (task : Task) : Session × TaskProgress :=
  match task with
  | .process request =>
    let (pipeline, progress) := session.pipeline.start session.moment request
    ({ session with pipeline := pipeline },
      match progress with
      | .done answer => .done (.answered answer)
      | .waiting rest => .waiting (.processing rest))
  | .execute code options =>
    let (cache, executor, progress) := Executor.start session.pipeline.config options
      session.moment code session.pipeline.cache session.executor
    ({ session with executor := executor }.withCache cache,
      match progress with
      | .done result => .done (.executed result)
      | .waiting rest => .waiting (.executing rest))

/-- Start tasks in their order. -/
def startTasks (session : Session) : List Task → Session × List TaskProgress
  | [] => (session, [])
  | task :: tasks =>
    let (session, progress) := session.startTask task
    let (session, others) := session.startTasks tasks
    (session, progress :: others)

/-- The outcome of the load that a task waits for, once it has ended. -/
def outcome? (session : Session) : WaitingTask → Option (Except Failure Exports)
  | .processing rest => session.pipeline.executor.outcome? rest.execution.load
  | .executing rest => session.executor.outcome? rest.load

/-- When the time limit of a task is reached. -/
def deadline : WaitingTask → Nat
  | .processing rest => rest.execution.deadline
  | .executing rest => rest.deadline

/-- End a task whose load has the given outcome; without one the time is over. -/
def finishTask
    (session : Session)
    (task : WaitingTask)
    (outcome : Option (Except Failure Exports)) :
    Session × TaskResult :=
  match task with
  | .processing rest =>
    let (pipeline, answer) := session.pipeline.finish session.moment.clock rest outcome
    ({ session with pipeline := pipeline }, .answered answer)
  | .executing rest =>
    let (cache, result) := Executor.finish rest outcome session.pipeline.cache
    (session.withCache cache, .executed result)

/-- Go on with a task if its load has ended or its time is over. -/
def resumeTask (session : Session) (progress : TaskProgress) : Session × TaskProgress :=
  match progress with
  | .done result => (session, .done result)
  | .waiting task =>
    let outcome := session.outcome? task
    if outcome.isSome || deadline task ≤ session.moment.elapsed then
      let (session, result) := session.finishTask task outcome
      (session, .done result)
    else
      (session, .waiting task)

/-- Go on with tasks in their order. -/
def resumeTasks (session : Session) : List TaskProgress → Session × List TaskProgress
  | [] => (session, [])
  | progress :: rest =>
    let (session, progress) := session.resumeTask progress
    let (session, others) := session.resumeTasks rest
    (session, progress :: others)

/-- The time limit of a task that waits. -/
def deadline? : TaskProgress → Option Nat
  | .done _ => none
  | .waiting task => some (deadline task)

/-- The result of a task that is done. -/
def result? : TaskProgress → Option TaskResult
  | .done result => some result
  | .waiting _ => none

/-- When the next load ends. -/
def nextEnd? (session : Session) : Option Nat :=
  (session.pipeline.executor.nextEnd?.toList ++ session.executor.nextEnd?.toList).min?

/-- Let time pass until all tasks are done.  The first argument bounds the number of points in time at
which something happens. -/
def wait : Nat → Session → List TaskProgress → Session × List TaskProgress
  | 0, session, tasks => (session, tasks)
  | count + 1, session, tasks =>
    let (session, tasks) := session.endLoads.resumeTasks tasks
    match (tasks.filterMap deadline?).min? with
    | none => (session, tasks)
    | some limit =>
      let next := (session.nextEnd?.map fun due => min due limit).getD limit
      wait count (session.passTo next) tasks

/-- The number of loads that have not ended. -/
def openLoads (session : Session) : Nat :=
  ((session.pipeline.executor.loads ++ session.executor.loads).filter fun load =>
    load.outcome.isNone).length

/-- Run tasks that are started together until all are done. -/
def run (session : Session) (tasks : List Task) : Session × List TaskResult :=
  let (session, progress) := session.startTasks tasks
  let (session, progress) := wait (session.openLoads + tasks.length + 1) session progress
  (session, progress.filterMap result?)

/-- Load the module of an address without the executors. -/
def load (session : Session) (url : Text) : Session × Except Failure Exports :=
  let loader := session.loader
  let session := (session.withLoader { loader with loads := loader.loads + 1 }).advance loader.delay
  (session, session.loader.load url)

/-! ## Opening -/

/-- A session over a store, if the configuration is usable. -/
def ofConfig
    (config : Config)
    (fetcher : Option Fetcher)
    (loader : Loader)
    (store : Option Store)
    (moment : Moment) :
    Except Failure Session :=
  (Pipeline.ofConfig config fetcher loader store).map fun pipeline => { pipeline, moment }

/-- A session is opened exactly if the configuration is usable. -/
theorem ofConfig_eq_ok
    {config : Config}
    {fetcher : Option Fetcher}
    {loader : Loader}
    {store : Option Store}
    {moment : Moment}
    {session : Session} :
    ofConfig config fetcher loader store moment = .ok session ↔
      config.validate = .ok () ∧
        session = {
          pipeline := { config, fetcher, cache := Cache.ofStore config store { loader } }
          moment } := by
  unfold ofConfig Pipeline.ofConfig
  cases config.validate with
  | error failure =>
    exact ⟨fun opened => (by cases opened), fun opened => (by cases opened.1)⟩
  | ok =>
    exact ⟨fun opened => ⟨rfl, (Except.ok.inj opened).symm⟩, fun opened => by rw [opened.2]; rfl⟩

/-- Open a new pipeline over the same store. -/
def reopen (session : Session) (config : Config) (fetcher : Option Fetcher) :
    Except Failure Session :=
  ofConfig config fetcher {} session.pipeline.cache.store session.moment

end Session

end LiveComponent
