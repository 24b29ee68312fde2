import LiveComponent.Proofs.Execution
import LiveComponent.Traffic

namespace LiveComponent.Session

/-!
# What a step of a call can do

The steps that lead to several stages are described once by all of these, with what is known there.
Whatever a step is to preserve is then shown for each of them.
-/

variable {session : Session}

/-- The ways in which a request begins. -/
inductive Begins (session : Session) (request : SourceModule) :
    Session × Stage × List Event → Prop where
  | sourceless
      (failure : Failure)
      (missing : session.pipeline.sourceText request = .error failure) :
      Begins session request (session.answer request (.ofFailure failure [] none))
  | blank
      (source : Text)
      (found : session.pipeline.sourceText request = .ok source)
      (blank : Text.isBlankText source = true) :
      Begins session request (session.answer request (.ofFailure .missingSource [] none))
  | uncached
      (source : Text)
      (found : session.pipeline.sourceText request = .ok source)
      (solid : Text.isBlankText source = false)
      (ignores : Pipeline.readsCache request = false) :
      Begins session request (session, .compile request source, [])
  | missed
      (source : Text)
      (change : CacheChange)
      (found : session.pipeline.sourceText request = .ok source)
      (solid : Text.isBlankText source = false)
      (reads : Pipeline.readsCache request = true)
      (looked :
        session.cache.lookedUp session.moment.clock
          (Cache.keyFor request.provenance (sha256Hex source)) = (change, none)) :
      Begins session request (session.goOn change (.compile request source))
  | hit
      (source : Text)
      (change : CacheChange)
      (entry : CacheEntry)
      (found : session.pipeline.sourceText request = .ok source)
      (solid : Text.isBlankText source = false)
      (reads : Pipeline.readsCache request = true)
      (looked :
        session.cache.lookedUp session.moment.clock
          (Cache.keyFor request.provenance (sha256Hex source)) = (change, some entry)) :
      Begins session request
        (let answered := session.answer request (Pipeline.hitAnswer request entry)
        answered.1.goOn change answered.2.1)

/-- A request begins in one of these ways. -/
theorem begins_beginRequest
    (session : Session)
    (request : SourceModule) :
    session.Begins request (session.beginRequest request) := by
  unfold beginRequest
  cases found : session.pipeline.sourceText request with
  | error failure =>
      exact .sourceless failure found
  | ok source =>
      dsimp only
      split
      next blank =>
        exact .blank source found blank
      next solid =>
        have solid : Text.isBlankText source = false := Bool.eq_false_iff.mpr solid
        split
        next reads =>
          cases looked : session.cache.lookedUp session.moment.clock
            (Cache.keyFor request.provenance (sha256Hex source)) with
          | mk change entry =>
              cases entry with
              | none =>
                  exact .missed source change found solid reads looked
              | some entry =>
                  exact .hit source change entry found solid reads looked
        next ignores =>
          exact .uncached source found solid (Bool.eq_false_iff.mpr ignores)

/-- An execution goes on with the result of its load, or with a timeout if the load has not ended.  If
it failed, it gives back its handle first. -/
theorem resume_eq_some
    {client : Client}
    {code : Text}
    {execution : Execution}
    {outcome : Session × Stage × List Event}
    (resumed : session.resume client code execution = some outcome) :
    let ended := (session.executorOf client).outcome? execution.load
    let result := Executor.resultOf execution ended
    outcome =
      (session,
        match result with
        | .ok _ => .conclude client code result
        | .error _ => .release [execution.handle.url] (.conclude client code result),
        if ended.isSome then [] else [.timedOut]) := by
  unfold resume at resumed
  dsimp only at resumed
  split at resumed
  · exact (Option.some.inj resumed).symm
  · cases resumed

end LiveComponent.Session
