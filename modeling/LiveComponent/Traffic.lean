import LiveComponent.Session

namespace LiveComponent

/-!
# Traffic

Many callers use one session at the same time.  A call is a sequence of steps.  Each of them uses the
cache, the registry or an executor once and is not interrupted, but between two steps of a call other
callers may do anything.  A change of the cache is one step; the handles that the cache gives back are
released one after the other in later steps.  The entries of the cache are kept in no particular order: it
may change at any time.
-/

/-- A call from outside. -/
inductive Call where
  | process (request : SourceModule)
  /-- Execute a module on the second executor. -/
  | execute (code : Text) (options : ExecuteOptions)
  | get (key : Text)
  | getByOutputHash (hash : Text)
  | put (key : Text) (artifact : Artifact)
  | prune
  | clear
  | acquire (code : Text)
  | retain (url : Text)
  | release (url : Text)
deriving DecidableEq, Repr

/-- What a call led to. -/
inductive CallResult where
  | answered (request : SourceModule) (answer : Answer)
  | executed (result : ExecutionResult)
  | found (entry : Option CacheEntry)
  /-- Whether the cache holds what was put. -/
  | held (held : Bool)
  | acquired (result : Except Failure Handle)
  /-- Whether a reference to the handle was taken. -/
  | retained (url : Text) (kept : Bool)
  | finished

/-- For whom a module is executed. -/
inductive Client where
  /-- For the answer to a request whose source was compiled with some warnings. -/
  | request (request : SourceModule) (inputHash : Text) (warnings : List Text)
  | caller
deriving DecidableEq, Repr

/-- What a call has still to do. -/
inductive Stage where
  /-- Nothing is done yet. -/
  | fresh (call : Call)
  /-- Compile the source of a request. -/
  | compile (request : SourceModule) (code : Text)
  /-- Look for a cache entry with the same code. -/
  | seek (client : Client) (options : ExecuteOptions) (code : Text)
  /-- Take another reference to the handle of the entry that was found. -/
  | adopt (client : Client) (timeout : Nat) (code : Text) (entry : CacheEntry)
  /-- Make the code loadable. -/
  | enter (client : Client) (timeout : Nat) (code : Text)
  /-- Join the load of a handle or start one. -/
  | join (client : Client) (timeout : Nat) (code resolvedCode : Text) (handle : Handle)
  /-- Wait for the load. -/
  | wait (client : Client) (code : Text) (execution : Execution)
  /-- Report the result of the execution. -/
  | conclude (client : Client) (code : Text) (result : ExecutionResult)
  /-- Release handles one after the other, and go on. -/
  | release (urls : List Text) (rest : Stage)
  | done (result : CallResult)

/-- Something that happens in a session. -/
inductive Event where
  /-- A call comes in. -/
  | called (call : Call)
  /-- The store refuses a call of the cache. -/
  | refused
  /-- An execution does not wait any longer for its load. -/
  | timedOut
  /-- A call is over. -/
  | returned (result : CallResult)
  /-- The loader changes its ways. -/
  | loaderChanged (delay : Nat) (offline breaks : Bool)

namespace Session

/-- The cache of a session. -/
def cache (session : Session) : Cache :=
  session.pipeline.cache

/-- Set the clock of a session. -/
def withClock (session : Session) (clock : Instant) : Session :=
  { session with moment := { session.moment with clock := clock } }

/-- Change the ways of the loader of a session. -/
def changeLoader (session : Session) (delay : Nat) (offline breaks : Bool) : Session :=
  session.withLoader
    { session.loader with delay := delay, offline := offline, breaks := breaks }

/-- Go on with a changed cache; the handles that it gave back are released first. -/
def goOn (session : Session) (change : CacheChange) (rest : Stage) :
    Session × Stage × List Event :=
  (session.withCache change.cache, .release change.released rest,
    if change.refused then [.refused] else [])

/-- Count the answer to a request and give it. -/
def answer (session : Session) (request : SourceModule) (answer : Answer) :
    Session × Stage × List Event :=
  let (pipeline, answer) := session.pipeline.answer answer
  ({ session with pipeline := pipeline }, .done (.answered request answer), [])

/-- The executor that works for a client. -/
def executorOf (session : Session) : Client → Executor
  | .request .. => session.pipeline.executor
  | .caller => session.executor

/-- Change the executor that works for a client. -/
def withExecutor (session : Session) (executor : Executor) : Client → Session
  | .request .. => { session with pipeline := { session.pipeline with executor := executor } }
  | .caller => { session with executor := executor }

/-! ### What the parts of a step change -/

section Parts

variable (session : Session)

@[simp]
theorem registry_eq :
    session.registry = session.cache.registry := rfl

@[simp]
theorem cache_withCache (cache : Cache) :
    (session.withCache cache).cache = cache := rfl

@[simp]
theorem withCache_withCache (first last : Cache) :
    (session.withCache first).withCache last = session.withCache last := rfl

@[simp]
theorem config_withCache (cache : Cache) :
    (session.withCache cache).pipeline.config = session.pipeline.config := rfl

@[simp]
theorem moment_withCache (cache : Cache) :
    (session.withCache cache).moment = session.moment := rfl

@[simp]
theorem executorOf_withCache (cache : Cache) (client : Client) :
    (session.withCache cache).executorOf client = session.executorOf client := by
  cases client <;> rfl

@[simp]
theorem cache_withRegistry (registry : Registry) :
    (session.withRegistry registry).cache = { session.cache with registry := registry } := rfl

@[simp]
theorem cache_withExecutor (executor : Executor) (client : Client) :
    (session.withExecutor executor client).cache = session.cache := by
  cases client <;> rfl

end Parts

/-- Begin a request: look for its key in the cache if it may be answered from there. -/
def beginRequest (session : Session) (request : SourceModule) : Session × Stage × List Event :=
  match session.pipeline.sourceText request with
  | .error failure => session.answer request (.ofFailure failure [] none)
  | .ok code =>
    if Text.isBlankText code then
      session.answer request (.ofFailure .missingSource [] none)
    else if Pipeline.readsCache request then
      let key := Cache.keyFor request.provenance (sha256Hex code)
      let (change, found) := session.cache.lookedUp session.moment.clock key
      match found with
      | none => session.goOn change (.compile request code)
      | some entry =>
        let (session, rest, _) := session.answer request (Pipeline.hitAnswer request entry)
        session.goOn change rest
    else
      (session, .compile request code, [])

/-- Compile the source of a request. -/
def compileRequest (session : Session) (request : SourceModule) (code : Text) :
    Session × Stage × List Event :=
  match Pipeline.compile session.pipeline.config request code with
  | (warnings, .error failure) => session.answer request (.ofFailure failure warnings none)
  | (warnings, .ok compiledCode) =>
    let options := Pipeline.executeOptions session.pipeline.config request
    (session, .seek (.request request (sha256Hex code) warnings) options compiledCode, [])

/-- Look for a cache entry with the same code. -/
def seek (session : Session) (client : Client) (options : ExecuteOptions) (code : Text) :
    Session × Stage × List Event :=
  if options.useCache then
    let (change, found) :=
      session.cache.lookedUpByOutputHash session.moment.clock (sha256Hex code)
    session.goOn change
      (match found with
      | none => .enter client options.timeout code
      | some entry => .adopt client options.timeout code entry)
  else
    (session, .enter client options.timeout code, [])

/-- Take another reference to the handle of an entry; without one the code is loaded. -/
def adopt
    (session : Session)
    (client : Client)
    (timeout : Nat)
    (code : Text)
    (entry : CacheEntry) :
    Session × Stage × List Event :=
  let (registry, executed) :=
    Executor.adopt session.pipeline.config entry session.cache.registry
  (session.withRegistry registry,
    match executed with
    | some executed => .conclude client code (.ok executed)
    | none => .enter client timeout code, [])

/-- Put addresses in the place of specifiers and make the code loadable. -/
def enter (session : Session) (client : Client) (timeout : Nat) (code : Text) :
    Session × Stage × List Event :=
  match Specifier.rewriteImports session.pipeline.config code with
  | .error failure => (session, .conclude client code (.error ⟨failure, none⟩), [])
  | .ok resolvedCode =>
    match session.cache.registry.acquire resolvedCode with
    | .error failure =>
      (session, .conclude client code (.error ⟨failure, some resolvedCode⟩), [])
    | .ok (registry, handle) =>
      (session.withRegistry registry, .join client timeout code resolvedCode handle, [])

/-- Join the load of a handle or start one. -/
def join
    (session : Session)
    (client : Client)
    (timeout : Nat)
    (code resolvedCode : Text)
    (handle : Handle) :
    Session × Stage × List Event :=
  let (registry, executor, execution) :=
    Executor.await timeout session.moment.elapsed resolvedCode handle session.cache.registry
      (session.executorOf client)
  ((session.withRegistry registry).withExecutor executor client, .wait client code execution, [])

/-- Go on after a load; a failed execution gives back its handle first. -/
def resume (session : Session) (client : Client) (code : Text) (execution : Execution) :
    Option (Session × Stage × List Event) :=
  let outcome := (session.executorOf client).outcome? execution.load
  if outcome.isSome || execution.deadline ≤ session.moment.elapsed then
    let result := Executor.resultOf execution outcome
    some (session,
      match result with
      | .ok _ => .conclude client code result
      | .error _ => .release [execution.handle.url] (.conclude client code result),
      if outcome.isSome then [] else [.timedOut])
  else
    none

/-- Report the result of an execution to its client. -/
def conclude (session : Session) (client : Client) (code : Text) (result : ExecutionResult) :
    Session × Stage × List Event :=
  let clock := session.moment.clock
  match client, result with
  | .caller, _ => (session, .done (.executed result), [])
  | .request request inputHash warnings, .ok executed =>
    let artifact := session.pipeline.executedArtifact clock request inputHash code executed
    let (change, artifact) := session.pipeline.kept clock request artifact
    let (session, rest, _) :=
      session.answer request (.ofArtifact artifact warnings executed.cached.isSome)
    session.goOn change rest
  | .request request inputHash warnings, .error _ =>
    let (pipeline, answer) :=
      session.pipeline.conclude clock request inputHash code warnings result
    ({ session with pipeline := pipeline }, .done (.answered request answer), [])

/-- Begin a call. -/
def begin (session : Session) (call : Call) : Session × Stage × List Event :=
  let clock := session.moment.clock
  match call with
  | .process request => session.beginRequest request
  | .execute code options => (session, .seek .caller options code, [])
  | .get key =>
    let (change, found) := session.cache.lookedUp clock key
    session.goOn change (.done (.found found))
  | .getByOutputHash hash =>
    let (change, found) := session.cache.lookedUpByOutputHash clock hash
    session.goOn change (.done (.found found))
  | .put key artifact =>
    let (change, held) := session.cache.taken clock key artifact
    session.goOn change (.done (.held held))
  | .prune => session.goOn session.cache.pruned (.done .finished)
  | .clear => session.goOn session.cache.cleared (.done .finished)
  | .acquire code =>
    match session.registry.acquire code with
    | .error failure => (session, .done (.acquired (.error failure)), [])
    | .ok (registry, handle) => (session.withRegistry registry, .done (.acquired (.ok handle)), [])
  | .retain url =>
    let (registry, kept) := session.registry.retain url
    (session.withRegistry registry, .done (.retained url kept), [])
  | .release url => (session.withRegistry (session.registry.release url), .done .finished, [])

end Session

/-- The next step of a call; none if it waits or is done. -/
def Stage.step (session : Session) : Stage → Option (Session × Stage × List Event)
  | fresh call => some (session.begin call)
  | compile request code => some (session.compileRequest request code)
  | seek client options code => some (session.seek client options code)
  | adopt client timeout code entry => some (session.adopt client timeout code entry)
  | enter client timeout code => some (session.enter client timeout code)
  | join client timeout code resolvedCode handle =>
    some (session.join client timeout code resolvedCode handle)
  | wait client code execution => session.resume client code execution
  | conclude client code result => some (session.conclude client code result)
  | release [] rest => some (session, rest, [])
  | release (url :: urls) rest =>
    some (session.withRegistry (session.registry.release url), .release urls rest, [])
  | done _ => none

/-! ## References -/

/-- The reference that a caller hands over with a call. -/
def Call.given : Call → Option Text
  | put _ artifact => artifact.loadUrl
  | release url => some url
  | _ => none

/-- The references that a caller gets from a call. -/
def CallResult.gained : CallResult → List Text
  | executed (.ok module) => [module.loadUrl]
  | acquired (.ok handle) => [handle.url]
  | retained url true => [url]
  | _ => []

/-- The references that a call holds. -/
def Stage.held : Stage → List Text
  | fresh call => call.given.toList
  | join _ _ _ _ handle => [handle.url]
  | wait _ _ execution => [execution.handle.url]
  | conclude _ _ (.ok module) => [module.loadUrl]
  | release urls rest => urls ++ rest.held
  | done result => result.gained
  | _ => []

/-! ## Runs -/

/-- A session with the calls on their way. -/
structure Traffic where
  session : Session
  calls : List Stage := []
  /-- The references that outside callers own. -/
  owned : List Text := []

namespace Traffic

/-- Something happens.  Outside callers hand over only references that they own. -/
inductive Step : Traffic → List Event → Traffic → Prop where
  /-- A call comes in. -/
  | call
      (state : Traffic)
      (call : Call)
      (entitled : ∀ url ∈ call.given, Handle.isEphemeral url → url ∈ state.owned) :
      Step state [.called call]
        { state with
          calls := state.calls ++ [.fresh call]
          owned := call.given.elim state.owned state.owned.erase }
  /-- A call takes its next step. -/
  | work
      (state : Traffic)
      (before after : List Stage)
      (stage next : Stage)
      (session : Session)
      (events : List Event)
      (place : state.calls = before ++ stage :: after)
      (stepped : stage.step state.session = some (session, next, events)) :
      Step state events { state with session := session, calls := before ++ next :: after }
  /-- A call is over; its caller owns what it gained. -/
  | leave
      (state : Traffic)
      (before after : List Stage)
      (result : CallResult)
      (place : state.calls = before ++ .done result :: after) :
      Step state [.returned result]
        { state with calls := before ++ after, owned := result.gained ++ state.owned }
  /-- Time passes, and loads end on the way. -/
  | pass
      (state : Traffic)
      (elapsed : Nat)
      (later : state.session.moment.elapsed ≤ elapsed) :
      Step state [] { state with session := state.session.passTo elapsed }
  /-- The clock shows another time. -/
  | tick
      (state : Traffic)
      (clock : Instant) :
      Step state [] { state with session := state.session.withClock clock }
  /-- The store changes its content or the calls that it refuses. -/
  | storeChanges
      (state : Traffic)
      (store : Store)
      (present : state.session.cache.store.isSome) :
      Step state [] { state with session := state.session.withStore store }
  /-- The loader changes its ways. -/
  | loaderChanges
      (state : Traffic)
      (delay : Nat)
      (offline breaks : Bool) :
      Step state [.loaderChanged delay offline breaks]
        { state with session := state.session.changeLoader delay offline breaks }
  /-- The entries of the cache are searched in another order from now on. -/
  | reorder
      (state : Traffic)
      (order : List CacheEntry)
      (same : order.Perm state.session.cache.entries) :
      Step state [] { state with session := state.session.withCache (state.session.cache.withEntries order) }

/-- Things happen one after the other. -/
inductive Run : Traffic → List Event → Traffic → Prop where
  | nil
      (state : Traffic) :
      Run state [] state
  | snoc
      {initial middle final : Traffic}
      {events last : List Event}
      (run : Run initial events middle)
      (step : Step middle last final) :
      Run initial (events ++ last) final

end Traffic

end LiveComponent
