import LiveComponent.Cache
import LiveComponent.Specifier

namespace LiveComponent

/-!
# Executing modules

An execution puts addresses in the place of import specifiers, makes the code loadable and waits for its
load up to a time limit.  Executions of the same code share one load, which runs to its end even if
nobody waits for it any more.  An execution that waits is a value of its own, so that others can start
and end meanwhile.
-/

/-- A point in a session. -/
structure Moment where
  /-- The milliseconds since the session started. -/
  elapsed : Nat
  /-- The time on the clock. -/
  clock : Instant
deriving DecidableEq, Repr

/-- A load that executions wait for. -/
structure Load where
  url : Text
  /-- When the load ends. -/
  due : Nat
  /-- What the load led to, once it has ended. -/
  outcome : Option (Except Failure Exports)

/-- The loads of an executor. -/
structure Executor where
  /-- All loads in the order of their start. -/
  loads : List Load := []
  /-- The places of the loads that new executions of an address join. -/
  pending : Table Nat := []

/-- How to execute a module. -/
structure ExecuteOptions where
  /-- Whether to look for an entry with the same code in the cache. -/
  useCache : Bool
  /-- The time limit in milliseconds. -/
  timeout : Nat
deriving DecidableEq, Repr

/-- An executed module; one reference to its handle belongs to the caller. -/
structure Executed where
  /-- The code with addresses in the place of specifiers. -/
  resolvedCode : Text
  loadUrl : Text
  /-- The path of the component among the exports. -/
  componentExport : Text
  byteSize : Nat
  dependencies : List Text
  /-- The cache entry from which the module was taken without a load. -/
  cached : Option CacheEntry
deriving DecidableEq, Repr

/-- A failed execution. -/
structure ExecutionFailure where
  failure : Failure
  /-- The code with addresses in the place of specifiers, if there was one. -/
  resolvedCode : Option Text
deriving DecidableEq, Repr

/-- The result of an execution. -/
abbrev ExecutionResult := Except ExecutionFailure Executed

/-- An execution that waits for a load. -/
structure Execution where
  resolvedCode : Text
  handle : Handle
  /-- The place of the load. -/
  load : Nat
  /-- The time limit in milliseconds. -/
  timeout : Nat
  /-- When the time limit is reached. -/
  deadline : Nat
deriving DecidableEq, Repr

/-- Something that is done or waits. -/
inductive Progress (α β : Type) where
  | done (result : α)
  | waiting (rest : β)

namespace Executor

/-- The number of loads that new executions would join. -/
def pendingCount (executor : Executor) : Nat :=
  executor.pending.length

/-- The outcome of a load that has ended. -/
def outcome? (executor : Executor) (load : Nat) : Option (Except Failure Exports) :=
  executor.loads[load]?.bind Load.outcome

/-! ## Loads -/

/-- Join the load of an address, or start one. -/
def join (executor : Executor) (loader : Loader) (now : Nat) (url : Text) :
    Executor × Loader × Nat :=
  match executor.pending.get? url with
  | some place => (executor, loader, place)
  | none =>
    let place := executor.loads.length
    (⟨executor.loads ++ [⟨url, now + loader.delay, none⟩], executor.pending.put url place⟩,
      { loader with loads := loader.loads + 1 }, place)

/-- What a load that breaks down leads to. -/
def breakdown : Failure :=
  .executionValidation "module load task failed: the load broke down"

/-- Whether the load is over by then, and not yet known to be. -/
def Load.endsBy (load : Load) (now : Nat) : Bool :=
  load.outcome.isNone && load.due ≤ now

/-- End a load if it is over by then. -/
def endLoad (loader : Loader) (now : Nat) (load : Load) : Load :=
  if Load.endsBy load now then
    { load with
      outcome := some (if loader.breaks then .error breakdown else loader.load load.url) }
  else
    load

/-- End all loads that are over by then.  A load that broke down can still be joined. -/
def endLoads (loader : Loader) (now : Nat) (executor : Executor) : Executor :=
  let ended := if loader.breaks then []
    else (executor.loads.filter fun load => Load.endsBy load now).map Load.url
  ⟨executor.loads.map (endLoad loader now),
    executor.pending.filter fun entry => !ended.contains entry.1⟩

/-- When the next load ends. -/
def nextEnd? (executor : Executor) : Option Nat :=
  ((executor.loads.filter fun load => load.outcome.isNone).map Load.due).min?

/-! ## Executions -/

/-- The module of a cache entry, with a new reference to its handle. -/
def adopt (config : Config) (entry : CacheEntry) (registry : Registry) :
    Registry × Option Executed :=
  match entry.artifact.loadUrl, Specifier.rewriteImports config entry.artifact.compiledCode with
  | some url, .ok resolvedCode =>
    let (registry, kept) := registry.retain url
    (registry,
      if kept then
        some
          { resolvedCode
            loadUrl := url
            componentExport := entry.artifact.componentExport.getD "default"
            byteSize := entry.artifact.byteSize
            dependencies := entry.artifact.dependencies
            cached := some entry }
      else
        none)
  | _, _ => (registry, none)

/-- The module of a cache entry with the same code, with a new reference to its handle. -/
def cached (config : Config) (clock : Instant) (code : Text) (cache : Cache) :
    Cache × Option Executed :=
  match cache.getByOutputHash clock (sha256Hex code) with
  | (cache, none) => (cache, none)
  | (cache, some entry) =>
    let (registry, executed) := adopt config entry cache.registry
    ({ cache with registry := registry }, executed)

/-- Wait for the load of a handle. -/
def await
    (timeout now : Nat)
    (resolvedCode : Text)
    (handle : Handle)
    (registry : Registry)
    (executor : Executor) :
    Registry × Executor × Execution :=
  let (executor, loader, load) := executor.join registry.loader now handle.url
  ({ registry with loader := loader }, executor,
    { resolvedCode, handle, load, timeout, deadline := now + timeout })

/-- Make code loadable and wait for its load. -/
def enter
    (config : Config)
    (timeout now : Nat)
    (code : Text)
    (cache : Cache)
    (executor : Executor) :
    Cache × Executor × Progress ExecutionResult Execution :=
  match Specifier.rewriteImports config code with
  | .error failure => (cache, executor, .done (.error ⟨failure, none⟩))
  | .ok resolvedCode =>
    match cache.registry.acquire resolvedCode with
    | .error failure => (cache, executor, .done (.error ⟨failure, some resolvedCode⟩))
    | .ok (registry, handle) =>
      let (registry, executor, execution) :=
        await timeout now resolvedCode handle registry executor
      ({ cache with registry := registry }, executor, .waiting execution)

/-- Start an execution: take the module from the cache, or wait for a load. -/
def start
    (config : Config)
    (options : ExecuteOptions)
    (moment : Moment)
    (code : Text)
    (cache : Cache)
    (executor : Executor) :
    Cache × Executor × Progress ExecutionResult Execution :=
  let (cache, found) :=
    if options.useCache then cached config moment.clock code cache else (cache, none)
  match found with
  | some executed => (cache, executor, .done (.ok executed))
  | none => enter config options.timeout moment.elapsed code cache executor

/-- The result of an execution whose load has the given outcome; without one the time is over. -/
def resultOf
    (execution : Execution)
    (outcome : Option (Except Failure Exports)) :
    ExecutionResult :=
  let fail (failure : Failure) : ExecutionResult := .error ⟨failure, some execution.resolvedCode⟩
  match outcome with
  | none => fail (.loadTimeout execution.timeout)
  | some (.error failure) => fail failure
  | some (.ok found) =>
    match found.component with
    | .error failure => fail failure
    | .ok componentExport =>
      .ok {
        resolvedCode := execution.resolvedCode
        loadUrl := execution.handle.url
        componentExport
        byteSize := execution.handle.byteSize
        dependencies := Specifier.collect execution.resolvedCode
        cached := none }

/-- End an execution; a failed one gives back its handle. -/
def finish
    (execution : Execution)
    (outcome : Option (Except Failure Exports))
    (cache : Cache) :
    Cache × ExecutionResult :=
  match resultOf execution outcome with
  | .ok executed => (cache, .ok executed)
  | .error failure =>
    ({ cache with registry := cache.registry.release execution.handle.url }, .error failure)

end Executor

end LiveComponent
