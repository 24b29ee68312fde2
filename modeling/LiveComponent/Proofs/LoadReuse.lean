import LiveComponent.Proofs.LingeringLoads
import LiveComponent.Proofs.LoneRequests

namespace LiveComponent

/-!
# Cached components are not loaded again

In a session that is used for one call after the other, and in which no load was given up or broke down, no
load is on its way between two calls.  So a request that is not served by the cache starts one load, and since
all entries have a usable module, one that finds an entry for its key or for its code starts none.
-/

/-! ## Loads that are started -/

/-- How a step of a call uses the registry, apart from joining a load. -/
inductive Registry.Uses (before after : Registry) : Prop where
  | unused
      (same : after = before)
  | acquired
      (code : Text)
      (handle : Handle)
      (acquired : before.acquire code = .ok (after, handle))
  | retained
      (url : Text)
      (kept : Bool)
      (retained : before.retain url = (after, kept))
  | released
      (url : Text)
      (same : after = before.release url)

/-- Handles come and go without loads. -/
theorem Registry.Uses.loads
    {before after : Registry}
    (uses : before.Uses after) :
    after.loader.loads = before.loader.loads := by
  cases uses with
  | unused same =>
      rw [same]
  | acquired code handle acquired =>
      obtain ⟨made, -⟩ := acquire_eq_ok acquired
      rw [(Loader.materialize_eq_ok made).2]
  | retained url kept retained =>
      obtain ⟨count, -, rfl, -⟩ | ⟨-, rfl, -⟩ := retain_eq retained <;> rfl
  | released url same =>
      rw [same]
      unfold release
      split
      · rfl
      · split <;> rfl

/-- Whether a call is about to join a load. -/
def Stage.isJoining : Stage → Bool
  | join .. => true
  | _ => false

namespace Session

variable {session : Session}

/-- A changed cache does not use the registry. -/
theorem uses_of_change
    {after : Session}
    {change : CacheChange}
    {fresh : List (Text × Artifact)}
    (sound : CacheChange.Sound session.cache fresh change)
    (same : after.cache = change.cache) :
    session.registry.Uses after.registry :=
  .unused ((congrArg Cache.registry same).trans sound.registry)

/-- Beginning a request does not use the registry. -/
theorem uses_begins
    {request : SourceModule}
    {outcome : Session × Stage × List Event}
    (backs : session.Backs [])
    (begins : session.Begins request outcome) :
    session.registry.Uses outcome.1.registry := by
  have looked (source : Text) := Cache.sound_lookedUp backs.cache backs.backed session.moment.clock
    (Cache.keyFor request.provenance (sha256Hex source))
  cases begins with
  | sourceless | blank | uncached =>
      exact .unused rfl
  | missed source change found solid reads missed =>
      have sound := looked source
      rw [missed] at sound
      exact uses_of_change sound rfl
  | hit source change entry found solid reads hit =>
      have sound := looked source
      rw [hit] at sound
      exact uses_of_change sound rfl

/-- Beginning a call uses the registry once at most. -/
theorem uses_begin
    {call : Call}
    (backs : session.Backs call.given.toList) :
    session.registry.Uses (session.begin call).1.registry := by
  cases call with
  | process request =>
      exact uses_begins backs (session.begins_beginRequest request)
  | execute code options =>
      exact .unused rfl
  | get key =>
      exact uses_of_change (Cache.sound_lookedUp backs.cache backs.backed session.moment.clock key) rfl
  | getByOutputHash hash =>
      exact uses_of_change
        (Cache.sound_lookedUpByOutputHash backs.cache backs.backed session.moment.clock hash) rfl
  | put key artifact =>
      exact uses_of_change (Cache.sound_taken backs.cache session.moment.clock key artifact) rfl
  | prune =>
      exact uses_of_change (Cache.sound_pruned backs.cache) rfl
  | clear =>
      exact uses_of_change (Cache.sound_cleared session.cache) rfl
  | acquire code =>
      unfold begin
      dsimp only
      split
      · exact .unused rfl
      next acquired =>
        exact .acquired code _ acquired
  | retain url =>
      exact .retained url _ rfl
  | release url =>
      exact .released url rfl

/-- A step of a call uses the registry once at most, unless it joins a load. -/
theorem uses_step
    {stage : Stage}
    {outcome : Session × Stage × List Event}
    (backs : session.Backs stage.held)
    (stepped : stage.step session = some outcome)
    (other : stage.isJoining = false) :
    session.registry.Uses outcome.1.registry := by
  cases stage with
  | join client timeout code resolvedCode handle =>
      cases other
  | fresh call =>
      cases stepped
      exact uses_begin backs
  | compile request code =>
      cases stepped
      unfold compileRequest
      split <;> exact .unused rfl
  | seek client options code =>
      cases stepped
      unfold seek
      split
      · exact uses_of_change
          (Cache.sound_lookedUpByOutputHash backs.cache backs.backed session.moment.clock _) rfl
      · exact .unused rfl
  | adopt client timeout code entry =>
      cases stepped
      unfold adopt
      obtain same | ⟨url, resolvedCode, registry, kept, -, -, retained, adopted⟩ :=
        Executor.adopt_cases session.pipeline.config entry session.cache.registry
      · rw [same]
        exact .unused rfl
      · rw [adopted]
        exact .retained url kept retained
  | enter client timeout code =>
      cases stepped
      unfold enter
      split
      · exact .unused rfl
      · split
        · exact .unused rfl
        next acquired =>
          exact .acquired _ _ acquired
  | wait client code execution =>
      obtain rfl := resume_eq_some stepped
      exact .unused rfl
  | conclude client code result =>
      cases stepped
      cases client with
      | caller =>
          exact .unused rfl
      | request request inputHash warnings =>
          cases result with
          | ok executed =>
              exact uses_of_change
                (session.pipeline.sound_kept backs.cache session.moment.clock request _) rfl
          | error failed =>
              have same := session.pipeline.sameWork_conclude_error session.moment.clock request
                inputHash code warnings failed
              exact .unused (congrArg Cache.registry same.cache)
  | release urls rest =>
      cases urls with
      | nil =>
          cases stepped
          exact .unused rfl
      | cons url urls =>
          cases stepped
          exact .released url rfl
  | done result =>
      cases stepped

end Session

/-! ## Loads of one call -/

/-- No load of the pipeline is on its way or broke down. -/
def Session.Rests (session : Session) : Prop :=
  ∀ load ∈ session.pipeline.executor.loads, ¬load.Lingers

/-- Whether the pipeline has started a load since; it has ended unless an execution gave it up. -/
inductive Session.Loaded (before : Session) (events : List Event) (session : Session) : Bool → Prop where
  | none
      (loads : session.pipeline.executor.loads = before.pipeline.executor.loads)
      (count : session.loader.loads = before.loader.loads) :
      Loaded before events session false
  | one
      (load : Load)
      (loads : session.pipeline.executor.loads = before.pipeline.executor.loads ++ [load])
      (count : session.loader.loads = before.loader.loads + 1)
      (ended : .timedOut ∉ events → load.outcome ≠ none) :
      Loaded before events session true

/-- How many loads a call has started by each of its stages. -/
def Stage.Loading (before : Session) (events : List Event) (session : Session) : Stage → Prop
  | wait _ _ execution =>
    execution.load = before.pipeline.executor.loads.length ∧
      ∃ load, session.pipeline.executor.loads = before.pipeline.executor.loads ++ [load] ∧
        session.loader.loads = before.loader.loads + 1
  | conclude _ _ (.ok executed) => before.Loaded events session executed.cached.isNone
  | conclude _ _ (.error _) => ∃ loaded, before.Loaded events session loaded
  | release _ rest => rest.Loading before events session
  | done (.answered _ answer) =>
    ∃ loaded, before.Loaded events session loaded ∧ (answer.success = true → answer.fromCache = !loaded)
  | _ => before.Loaded events session false

/-- Whether a call has neither joined a load nor been answered. -/
def Stage.isPlain : Stage → Bool
  | wait .. | conclude .. | done (.answered ..) => false
  | release _ rest => rest.isPlain
  | _ => true

namespace Session

variable
  {before session after : Session}
  {events told : List Event}

/-- No load is started, and loads that have ended stay as they are. -/
def StartsNone (session after : Session) : Prop :=
  ∃ change : Load → Load,
    (∀ load, load.outcome ≠ none → change load = load) ∧
      after.pipeline.executor.loads = session.pipeline.executor.loads.map change ∧
      after.loader.loads = session.loader.loads

/-- Whatever else happens starts no load. -/
theorem Idles.startsNone
    (idles : session.Idles told after) :
    session.StartsNone after := by
  cases idles with
  | pass elapsed later =>
      refine ⟨Executor.endLoad session.loader elapsed, fun load ended => ?_, rfl, rfl⟩
      have early : Executor.Load.endsBy load elapsed = false := by
        simp [Executor.Load.endsBy, ended]
      simp [Executor.endLoad, early]
  | tick | loaderChanges =>
      exact ⟨id, fun _ _ => rfl, (List.map_id _).symm, rfl⟩

/-- The loads of a session at rest stay as they are. -/
theorem Rests.map_eq
    {change : Load → Load}
    (rests : before.Rests)
    (fixes : ∀ load, load.outcome ≠ none → change load = load) :
    before.pipeline.executor.loads.map change = before.pipeline.executor.loads := by
  conv_rhs => rw [← List.map_id before.pipeline.executor.loads]
  exact List.map_congr_left fun load member => fixes load fun isOpen => rests load member (.inl isOpen)

/-- What was started is known as before when no load is started. -/
theorem Loaded.of_startsNone
    {loaded : Bool}
    (rests : before.Rests)
    (started : before.Loaded events session loaded)
    (startsNone : session.StartsNone after)
    (told : List Event) :
    before.Loaded (events ++ told) after loaded := by
  obtain ⟨change, fixes, loads, count⟩ := startsNone
  cases started with
  | none same unchanged =>
      rw [same, rests.map_eq fixes] at loads
      exact .none loads (count.trans unchanged)
  | one load grown counted ended =>
      rw [grown, List.map_append, rests.map_eq fixes, List.map_singleton] at loads
      refine .one (change load) loads (count.trans counted) fun timely => ?_
      have settled := ended fun early => timely (List.mem_append_left _ early)
      rw [fixes load settled]
      exact settled

end Session

namespace Stage.Loading

variable
  {before session after : Session}
  {events : List Event}
  {stage : Stage}

/-- What a call has started is known as before when no load is started. -/
theorem of_startsNone
    (rests : before.Rests)
    (loading : stage.Loading before events session)
    (startsNone : session.StartsNone after)
    (told : List Event) :
    stage.Loading before (events ++ told) after := by
  induction stage with
  | wait client code execution =>
      obtain ⟨place, load, loads, count⟩ := loading
      obtain ⟨change, fixes, changed, unchanged⟩ := startsNone
      rw [loads, List.map_append, rests.map_eq fixes, List.map_singleton] at changed
      exact ⟨place, change load, changed, unchanged.trans count⟩
  | conclude client code result =>
      cases result with
      | ok executed =>
          exact Session.Loaded.of_startsNone rests loading startsNone told
      | error failed =>
          obtain ⟨loaded, started⟩ := loading
          exact ⟨loaded, started.of_startsNone rests startsNone told⟩
  | release urls rest inductionHypothesis =>
      exact inductionHypothesis loading
  | done result =>
      cases result with
      | answered asked answer =>
          obtain ⟨loaded, started, origin⟩ := loading
          exact ⟨loaded, started.of_startsNone rests startsNone told, origin⟩
      | executed | found | held | acquired | retained | finished =>
          exact Session.Loaded.of_startsNone rests loading startsNone told
  | fresh | compile | seek | adopt | enter | join =>
      exact Session.Loaded.of_startsNone rests loading startsNone told

/-- A call that has neither joined a load nor been answered has started none. -/
theorem of_plain
    (plain : stage.isPlain = true)
    (started : before.Loaded events session false) :
    stage.Loading before events session := by
  induction stage with
  | wait | conclude =>
      cases plain
  | release urls rest inductionHypothesis =>
      exact inductionHypothesis plain
  | done result =>
      cases result with
      | answered =>
          cases plain
      | executed | found | held | acquired | retained | finished =>
          exact started
  | fresh | compile | seek | adopt | enter | join =>
      exact started

/-- Reporting the result of an execution for a request. -/
theorem conclude_eq
    {client : Client}
    {code : Text}
    {result : ExecutionResult}
    (requested : client ≠ .caller)
    (loading : (Stage.conclude client code result).Loading before events after) :
    (session.conclude client code result).2.1.Loading before events after := by
  cases client with
  | caller =>
      exact absurd rfl requested
  | request request inputHash warnings =>
      cases result with
      | ok executed =>
          refine ⟨executed.cached.isNone, loading, fun _ => ?_⟩
          cases executed.cached <;> rfl
      | error failed =>
          obtain ⟨loaded, started⟩ := loading
          have fails := session.pipeline.success_conclude_error session.moment.clock request inputHash code
            warnings failed
          exact ⟨loaded, started, fun succeeds => absurd (fails.symm.trans succeeds) Bool.false_ne_true⟩

end Stage.Loading

namespace Session

variable
  {before session : Session}
  {events : List Event}

/-- A step of a call starts no load, unless it joins one. -/
theorem startsNone_step
    {stage : Stage}
    {outcome : Session × Stage × List Event}
    (backs : session.Backs stage.held)
    (stepped : stage.step session = some outcome)
    (other : stage.isJoining = false) :
    session.StartsNone outcome.1 := by
  let client : Client := .request { code := [], provenance := .generated } [] []
  refine ⟨id, fun _ _ => rfl, ?_, (uses_step backs stepped other).loads⟩
  rw [List.map_id]
  obtain same | ⟨joining, timeout, code, resolvedCode, handle, rfl, -⟩ := executorOf_step stepped client
  · exact congrArg Executor.loads same
  · cases other

/-- A call that joins a load in a session that was at rest starts one. -/
theorem loading_join
    {client : Client}
    {handle : Handle}
    (rests : before.Rests)
    (joins : session.JoinsLingering)
    (requested : client ≠ .caller)
    (started : before.Loaded events session false)
    (timeout : Nat)
    (code resolvedCode : Text) :
    let outcome := session.join client timeout code resolvedCode handle
    outcome.2.1.Loading before (events ++ outcome.2.2) outcome.1 := by
  cases client with
  | caller =>
      exact absurd rfl requested
  | request request inputHash warnings =>
      cases started with
      | none loads count =>
          obtain ⟨place, joined, -⟩ | ⟨-, starts⟩ :=
            Executor.await_cases timeout session.moment.elapsed resolvedCode handle session.cache.registry
              session.pipeline.executor
          · obtain ⟨load, placed, -, lingers⟩ :=
              (joins (.request request inputHash warnings)).lingering handle.url place joined
            have member : load ∈ session.pipeline.executor.loads := List.mem_of_getElem? placed
            rw [loads] at member
            exact absurd lingers (rests load member)
          · unfold join
            dsimp only [executorOf]
            rw [starts]
            refine ⟨congrArg List.length loads,
              ⟨handle.url, session.moment.elapsed + session.loader.delay, none⟩, ?_, ?_⟩
            · exact congrArg (· ++ _) loads
            · exact congrArg (· + 1) count

/-- A call that goes on after its load has started one, which has ended unless the call gave it up. -/
theorem loading_resume
    {client : Client}
    {code : Text}
    {execution : Execution}
    {outcome : Session × Stage × List Event}
    (requested : client ≠ .caller)
    (loading : (Stage.wait client code execution).Loading before events session)
    (resumed : session.resume client code execution = some outcome) :
    outcome.2.1.Loading before (events ++ outcome.2.2) outcome.1 := by
  obtain ⟨place, load, loads, count⟩ := loading
  have ended : (session.executorOf client).outcome? execution.load = load.outcome := by
    cases client with
    | caller =>
        exact absurd rfl requested
    | request =>
        simp [executorOf, Executor.outcome?, loads, place]
  obtain rfl := resume_eq_some resumed
  rw [ended]
  have started : before.Loaded (events ++ if load.outcome.isSome then [] else [Event.timedOut]) session true := by
    refine .one load loads count fun timely isOpen => timely ?_
    simp [isOpen]
  dsimp only
  generalize (if load.outcome.isSome then [] else [Event.timedOut]) = told at started
  cases result : Executor.resultOf execution load.outcome with
  | ok executed =>
      change before.Loaded _ session executed.cached.isNone
      rw [Executor.cached_resultOf result]
      exact started
  | error failure =>
      exact ⟨true, started⟩

/-- Beginning a request starts no load. -/
theorem loading_begins
    {request : SourceModule}
    {outcome : Session × Stage × List Event}
    (begins : session.Begins request outcome)
    (started : before.Loaded events outcome.1 false) :
    outcome.2.1.Loading before events outcome.1 := by
  cases begins with
  | sourceless | blank =>
      exact ⟨false, started, nofun⟩
  | hit =>
      exact ⟨false, started, fun _ => rfl⟩
  | uncached | missed =>
      exact started

/-- A step of a routine call in a session that was at rest. -/
theorem loading_step
    {stage : Stage}
    {outcome : Session × Stage × List Event}
    (rests : before.Rests)
    (joins : session.JoinsLingering)
    (backs : session.Backs stage.held)
    (routine : stage.IsRoutine)
    (loading : stage.Loading before events session)
    (stepped : stage.step session = some outcome) :
    outcome.2.1.Loading before (events ++ outcome.2.2) outcome.1 := by
  have keeps {loaded : Bool}
      (other : stage.isJoining = false)
      (started : before.Loaded events session loaded) :
      before.Loaded (events ++ outcome.2.2) outcome.1 loaded :=
    started.of_startsNone rests (startsNone_step backs stepped other) _
  cases stage with
  | fresh call =>
      have started := keeps rfl loading
      cases stepped
      cases call with
      | process request =>
          exact loading_begins (session.begins_beginRequest request) started
      | prune | clear =>
          exact started
      | execute | get | getByOutputHash | put | acquire | retain | release =>
          cases routine
  | compile request code =>
      have started := keeps rfl loading
      cases stepped
      unfold compileRequest at started ⊢
      split at started
      · exact ⟨false, started, nofun⟩
      · exact started
  | seek client options code =>
      have started := keeps rfl loading
      cases stepped
      refine .of_plain ?_ started
      unfold seek
      split
      · dsimp only [goOn, Stage.isPlain]
        split <;> rfl
      · rfl
  | adopt client timeout code entry =>
      have started := keeps rfl loading
      cases stepped
      change (session.adopt client timeout code entry).2.1.Loading before _ _
      obtain same | ⟨url, resolvedCode, registry, kept, -, -, -, adopted⟩ :=
        Executor.adopt_cases session.pipeline.config entry session.cache.registry
      · have next : (session.adopt client timeout code entry).2.1 = .enter client timeout code := by
          simp [adopt, same]
        rw [next]
        exact started
      · cases kept with
        | true =>
            have next : ∃ executed, executed.cached = some entry ∧
                (session.adopt client timeout code entry).2.1 = .conclude client code (.ok executed) := by
              simp [adopt, adopted]
            obtain ⟨executed, cached, next⟩ := next
            rw [next]
            change before.Loaded _ _ executed.cached.isNone
            rw [cached]
            exact started
        | false =>
            have next : (session.adopt client timeout code entry).2.1 = .enter client timeout code := by
              simp [adopt, adopted]
            rw [next]
            exact started
  | enter client timeout code =>
      have started := keeps rfl loading
      cases stepped
      unfold enter at started ⊢
      split at started
      · exact ⟨false, started⟩
      · split at started
        · exact ⟨false, started⟩
        · exact started
  | join client timeout code resolvedCode handle =>
      cases stepped
      exact loading_join rests joins routine loading timeout code resolvedCode
  | wait client code execution =>
      exact loading_resume routine loading stepped
  | conclude client code result =>
      have kept := loading.of_startsNone rests (startsNone_step backs stepped rfl) outcome.2.2
      cases stepped
      exact Stage.Loading.conclude_eq routine kept
  | release urls rest =>
      have kept := loading.of_startsNone rests (startsNone_step backs stepped rfl) outcome.2.2
      cases urls <;> cases stepped <;> exact kept
  | done result =>
      cases stepped

end Session

/-! ## Calls one after the other -/

namespace Stage.Alone

variable
  {before session : Session}
  {call : Call}
  {events : List Event}
  {stage : Stage}

/-- How many loads a routine call has started in a session that was at rest. -/
theorem loading
    (balanced : Traffic.Balanced { session := before })
    (joins : before.JoinsLingering)
    (rests : before.Rests)
    (routine : call.IsRoutine)
    (alone : Alone before (.fresh call) events session stage) :
    stage.Loading before events session := by
  refine alone.keeps (fun events session stage => stage.Loading before events session) ?_ ?_ ?_
    fun _ _ => trivial
  · exact .none rfl rfl
  · intro session after stage next earlier told alone loading stepped _
    have joining : session.JoinsLingering := Traffic.joinsLingering_run joins (alone.toRun [])
    have routineStage : stage.IsRoutine :=
      (show (Stage.fresh call).IsRoutine from routine).afterAlone alone
    exact Session.loading_step rests joining (alone.backs balanced routine.given_eq) routineStage loading
      stepped
  · intro session after stage earlier told loading idles _
    exact loading.of_startsNone rests idles.startsNone told

/-- No other call comes in while a routine call is alone. -/
theorem not_called
    (balanced : Traffic.Balanced { session := before })
    (routine : call.IsRoutine)
    (alone : Alone before (.fresh call) events session stage)
    (other : Call) :
    .called other ∉ events := by
  refine alone.keeps (fun events _ _ => .called other ∉ events) List.not_mem_nil ?_ ?_
    fun _ _ => trivial
  · intro session after stage next earlier told alone quiet stepped _ called
    rcases List.mem_append.mp called with early | late
    · exact quiet early
    · have conserves := Session.conserves_step (alone.backs balanced routine.given_eq) stepped
      rcases conserves.events _ late with same | same <;> cases same
  · intro session after stage earlier told quiet idles _ called
    rcases List.mem_append.mp called with early | late
    · exact quiet early
    · cases idles with
      | pass | tick =>
          cases late
      | loaderChanges =>
          cases List.mem_singleton.mp late

end Stage.Alone

namespace Session

variable {before session after : Session}

/-- No load of the pipeline broke down. -/
def Intact (session : Session) : Prop :=
  ∀ load ∈ session.pipeline.executor.loads, load.outcome ≠ some (.error Executor.breakdown)

/-- A session in which no load broke down had none that did before. -/
theorem Intact.of_alone
    {first last : Stage}
    {events : List Event}
    (intact : after.Intact)
    (alone : Stage.Alone before first events after last) :
    before.Intact := by
  let client : Client := .request { code := [], provenance := .generated } [] []
  intro load member broke
  obtain ⟨place, placed⟩ := List.getElem?_of_mem member
  have here : (before.loadsOf client)[place]? = some load := placed
  have ended : load.outcome ≠ none := by
    rw [broke]
    exact Option.some_ne_none _
  have stays := Traffic.loadsOf_run here ended (alone.toRun [])
  exact intact load (List.mem_of_getElem? stays) broke

/-- A session in which a call has started no load that is still on its way is at rest. -/
theorem Loaded.rests
    {events : List Event}
    {loaded : Bool}
    (started : before.Loaded events after loaded)
    (rests : before.Rests)
    (timely : .timedOut ∉ events)
    (intact : after.Intact) :
    after.Rests := by
  cases started with
  | none loads =>
      intro load member
      rw [loads] at member
      exact rests load member
  | one load loads _ ended =>
      intro other member lingers
      have unbroken := intact other member
      rw [loads, List.mem_append, List.mem_singleton] at member
      rcases member with old | rfl
      · exact rests other old lingers
      · exact lingers.elim (ended timely) unbroken

namespace Serial

variable
  {config : Config}
  {fetcher : Option Fetcher}
  {loader : Loader}
  {store : Option Store}
  {moment : Moment}
  {turns : List Turn}

/-- The books are right between two calls. -/
theorem balanced
    (fresh : loader.modules = [])
    (opened : Session.ofConfig config fetcher loader store moment = .ok session)
    (serial : session.Serial turns before) :
    Traffic.Balanced { session := before } :=
  Traffic.balanced_run (Traffic.balanced_ofConfig fresh opened) serial.toRun

/-- Exactly the loads that linger are joined between two calls. -/
theorem joinsLingering
    (opened : Session.ofConfig config fetcher loader store moment = .ok session)
    (serial : session.Serial turns before) :
    before.JoinsLingering :=
  Traffic.joinsLingering_run (Traffic.joinsLingering_ofConfig opened) serial.toRun

/-- A session is at rest between two calls if no load was given up or broke down. -/
theorem rests
    (fresh : loader.modules = [])
    (opened : Session.ofConfig config fetcher loader store moment = .ok session)
    (serial : session.Serial turns before)
    (timely : ∀ turn ∈ turns, .timedOut ∉ turn.events)
    (intact : before.Intact) :
    before.Rests := by
  induction serial with
  | nil =>
      obtain ⟨-, rfl⟩ := ofConfig_eq_ok.mp opened
      exact List.forall_mem_nil _
  | @snoc turns middle final turn earlier routine alone inductionHypothesis =>
      rw [List.forall_mem_append, List.forall_mem_singleton] at timely
      have rests := inductionHypothesis timely.1 (intact.of_alone alone)
      have loading := alone.loading (earlier.balanced fresh opened) (earlier.joinsLingering opened) rests routine
      obtain ⟨loaded, started⟩ : ∃ loaded, middle.Loaded turn.events final loaded := by
        cases told : turn.result with
        | answered asked answer =>
            rw [told] at loading
            obtain ⟨loaded, started, -⟩ := loading
            exact ⟨loaded, started⟩
        | executed | found | held | acquired | retained | finished =>
            rw [told] at loading
            exact ⟨false, loading⟩
      exact started.rests rests timely.2 intact

/-- Routine calls put nothing into the cache. -/
theorem putsNothing
    (fresh : loader.modules = [])
    (opened : Session.ofConfig config fetcher loader store moment = .ok session)
    (serial : session.Serial turns before) :
    Traffic.PutsNothing (turns.flatMap Turn.told) := by
  intro key artifact put
  induction serial with
  | nil =>
      cases put
  | @snoc turns middle final turn earlier routine alone inductionHypothesis =>
      rw [List.flatMap_append, List.mem_append] at put
      rcases put with early | late
      · exact inductionHypothesis early
      · simp only [List.flatMap_singleton, Turn.told, List.cons_append, List.mem_cons, List.mem_append,
          List.not_mem_nil, or_false] at late
        rcases late with called | meanwhile | returned
        · obtain same := Event.called.inj called
          rw [← same] at routine
          cases routine
        · exact alone.not_called (earlier.balanced fresh opened) routine _ meanwhile
        · cases returned

/-- Every entry has a usable module in a session that started without entries. -/
theorem adoptable
    (fresh : loader.modules = [])
    (noDocument :
      ∀ given ∈ store, ∀ document, given.get config.persistenceKey ≠ .ok (some document))
    (opened : Session.ofConfig config fetcher loader store moment = .ok session)
    (serial : session.Serial turns before)
    (collisionFree :
      Text.CollisionFree ((turns.flatMap Turn.told).flatMap (Event.hashedTexts config fetcher))) :
    ∀ entry ∈ before.cache.entries, entry.IsAdoptable before.pipeline.config := by
  have hashes : Traffic.Hashes config fetcher
      ((turns.flatMap Turn.told).flatMap (Event.hashedTexts config fetcher)) (turns.flatMap Turn.told) :=
    fun event member text textMember => List.mem_flatMap.mpr ⟨event, member, textMember⟩
  have validated := Traffic.validated_run collisionFree (Traffic.validated_ofConfig fresh noDocument opened)
    serial.toRun hashes (serial.putsNothing fresh opened)
  intro entry member
  rw [validated.genuine.session.configured]
  obtain ⟨⟨resolvedCode, component, leads, -, address, -⟩, -⟩ := validated.holds entry member
  obtain ⟨found, resolved, -, -⟩ := Pipeline.examined_eq_ok.mp leads
  exact ⟨by rw [address]; rfl, by rw [resolved]; rfl⟩

end Serial

/-- A request may be answered from the cache, and there is an entry under its key, or one with the hash of the
code to which its source is compiled. -/
def CanServe (session : Session) (request : SourceModule) : Prop :=
  Pipeline.readsCache request = true ∧
    ∃ source,
      session.pipeline.sourceText request = .ok source ∧ Text.isBlankText source = false ∧
        (session.cache.contains (Cache.keyFor request.provenance (sha256Hex source)) = true ∨
          ∃ code,
            (Pipeline.compile session.pipeline.config request source).2 = .ok code ∧
              ∃ entry ∈ session.cache.entries, entry.artifact.outputHash = sha256Hex code)

variable
  {request : SourceModule}
  {source code : Text}
  {client : Client}

/-- A request that misses the cache can only be served with its code. -/
theorem CanServe.compiled
    (canServe : before.CanServe request)
    (misses : before.Misses request source) :
    ∃ code,
      (Pipeline.compile before.pipeline.config request source).2 = .ok code ∧
        ∃ entry ∈ before.cache.entries, entry.artifact.outputHash = sha256Hex code := by
  obtain ⟨reads, same, found, -, cached⟩ := canServe
  obtain rfl : source = same := Except.ok.inj (misses.found.symm.trans found)
  refine cached.resolve_left fun contained => ?_
  rw [Cache.contains, misses.uncached reads] at contained
  cases contained

/-- A request for whose code no entry was used cannot be served, if all entries have a usable module. -/
theorem Unserved.not_canServe
    (adoptable : ∀ entry ∈ before.cache.entries, entry.IsAdoptable before.pipeline.config)
    (unserved : before.Unserved request code)
    (asks : before.Asks request client code) :
    ¬before.CanServe request := by
  intro canServe
  obtain ⟨source, warnings, misses, compiled, -⟩ := asks
  obtain ⟨other, same, entry, member, hashed⟩ := canServe.compiled misses
  rw [compiled] at same
  obtain rfl : code = other := Except.ok.inj same
  obtain ⟨first, found⟩ : ∃ first, before.cache.withHash? (sha256Hex code) = some first :=
    Option.isSome_iff_exists.mp (List.find?_isSome.mpr ⟨entry, member, decide_eq_true hashed⟩)
  exact unserved first ⟨canServe.1, found⟩ (adoptable first (Cache.mem_of_withHash? found).1)

/-- Exactly the requests that can be served succeed from the cache, if all entries have a usable module. -/
theorem Concludes.canServe_iff
    {answer : Answer}
    (adoptable : ∀ entry ∈ before.cache.entries, entry.IsAdoptable before.pipeline.config)
    (concludes : before.Concludes request after answer) :
    before.CanServe request ↔ answer.success = true ∧ answer.fromCache = true := by
  cases concludes with
  | sourceless failure missing =>
      refine ⟨fun canServe => ?_, fun served => by cases served.1⟩
      obtain ⟨-, source, found, solid, -⟩ := canServe
      rw [missing source found] at solid
      cases solid
  | uncompiled source warnings failure misses compiled =>
      refine ⟨fun canServe => ?_, fun served => by cases served.1⟩
      obtain ⟨code, same, -⟩ := canServe.compiled misses
      rw [compiled] at same
      cases same
  | served source entry clock found solid reads hit =>
      refine ⟨fun _ => ⟨rfl, rfl⟩, fun _ => ⟨reads, source, found, solid, .inl ?_⟩⟩
      rw [Cache.contains, hit]
      rfl
  | reused client code entry artifact warnings asks knows =>
      obtain ⟨source, more, misses, compiled, -⟩ := asks
      refine ⟨fun _ => ⟨rfl, rfl⟩, fun _ => ⟨knows.reads, source, misses.found, misses.solid, .inr ?_⟩⟩
      exact ⟨code, congrArg Prod.snd compiled, entry, Cache.mem_of_withHash? knows.found⟩
  | loaded client code artifact warnings asks unserved =>
      exact ⟨fun canServe => absurd canServe (unserved.not_canServe adoptable asks),
        fun served => by cases served.2⟩
  | failed inputHash code warnings clock failed asks sought =>
      refine ⟨fun canServe => absurd canServe (sought.unserved.not_canServe adoptable asks), fun served => ?_⟩
      have fails := before.pipeline.success_conclude_error clock request inputHash code warnings failed
      rw [fails] at served
      cases served.1

/-- In a session that starts without entries and is used for one call after the other, in which no load was given
up or broke down, every request is answered when it is left alone.  If the store works, a request that may be
answered from the cache, and finds its key or the hash of its code there, succeeds from the cache without a
load.  Every other request that succeeds does not, and starts one load. -/
theorem cached_component_not_reloaded
    {config : Config}
    {fetcher : Option Fetcher}
    {loader : Loader}
    {store : Option Store}
    {moment : Moment}
    {session : Session}
    {turns : List Turn}
    (fresh : loader.modules = [])
    (noDocument :
      ∀ given ∈ store, ∀ document, given.get config.persistenceKey ≠ .ok (some document))
    (opened : Session.ofConfig config fetcher loader store moment = .ok session)
    (serial : session.Serial turns before)
    (timely : ∀ turn ∈ turns, .timedOut ∉ turn.events)
    (intact : before.Intact)
    (collisionFree :
      Text.CollisionFree ((turns.flatMap Turn.told).flatMap (Event.hashedTexts config fetcher)))
    (request : SourceModule) :
    (∃ events after answer,
      Stage.Alone before (.fresh (.process request)) events after (.done (.answered request answer))) ∧
    ∀ events after answer,
      Stage.Alone before (.fresh (.process request)) events after (.done (.answered request answer)) →
        .refused ∉ events →
        (before.CanServe request →
          answer.success = true ∧ answer.fromCache = true ∧ after.loader.loads = before.loader.loads) ∧
        (¬before.CanServe request → answer.success = true →
          answer.fromCache = false ∧ after.loader.loads = before.loader.loads + 1) := by
  have balanced := serial.balanced fresh opened
  have adoptable := serial.adoptable fresh noDocument opened collisionFree
  refine ⟨before.exists_alone_answer request, fun events after answer alone quiet => ?_⟩
  have served := (alone.course balanced quiet).2.canServe_iff adoptable
  have routine : (Call.process request).IsRoutine := trivial
  obtain ⟨loaded, started, origin⟩ := alone.loading balanced (serial.joinsLingering opened)
    (serial.rests fresh opened timely intact) routine
  constructor
  · intro canServe
    obtain ⟨success, fromCache⟩ := served.mp canServe
    have none := origin success
    rw [fromCache] at none
    cases started with
    | none _ count =>
        exact ⟨success, fromCache, count⟩
    | one =>
        cases none
  · intro unserved success
    have fromCache : answer.fromCache = false :=
      Bool.eq_false_iff.mpr fun cached => unserved (served.mpr ⟨success, cached⟩)
    have one := origin success
    rw [fromCache] at one
    cases started with
    | none =>
        cases one
    | one load _ count _ =>
        exact ⟨fromCache, count⟩

/-- Code that was loaded for one channel is not loaded again for another one. -/
theorem cached_component_not_reloaded_of_channels :
    ∃ session turns before request events after answer,
      Session.ofConfig {} none {} (some .empty) ⟨0, ⟨0, 0⟩⟩ = .ok session ∧
        session.Serial turns before ∧ (∀ turn ∈ turns, .timedOut ∉ turn.events) ∧ before.Intact ∧
        Text.CollisionFree ((turns.flatMap Turn.told).flatMap (Event.hashedTexts {} none)) ∧
        before.loader.loads = 1 ∧ before.CanServe request ∧
        Stage.Alone before (.fresh (.process request)) events after (.done (.answered request answer)) ∧
        .refused ∉ events ∧ answer.success = true ∧ answer.fromCache = true ∧ after.loader.loads = 1 := by
  let code : Text := "export default () => 1"
  let first : SourceModule := { code, provenance := .generated }
  let request : SourceModule := { code, provenance := .library }
  -- The session is hidden, so that only this step evaluates it.
  obtain ⟨session, opened, inTime, sound, once, hashes, compiled, on⟩ :
      ∃ session : Session,
        Session.ofConfig {} none {} (some .empty) ⟨0, ⟨0, 0⟩⟩ = .ok session ∧
          (result? (session.serve (.process first)).2).map TaskResult.isTimeout = some false ∧
          (session.serve (.process first)).1.pipeline.executor.loads.map Traffic.failureOf = [none] ∧
          (session.serve (.process first)).1.loader.loads = 1 ∧
          (session.serve (.process first)).1.cache.entries.map (fun entry => entry.artifact.outputHash) =
            [sha256Hex code] ∧
          (Pipeline.compile (session.serve (.process first)).1.pipeline.config request code).2 = .ok code ∧
          ((session.serve (.process first)).1.serve (.process request)).1.cache.enabled = true :=
    ⟨_, Session.ofConfig_eq_ok.mpr ⟨by decide +kernel, rfl⟩, by decide +kernel⟩
  have collisionFree : Text.CollisionFree (Pipeline.hashedTexts {} none first) := by
    decide +kernel
  obtain ⟨result, stage, events, served, reaches, allowed, alone⟩ := session.alone_serve (.process first)
  cases reaches with
  | answered _ answer =>
      rw [served] at inTime
      let before := (session.serve (.process first)).1
      let turn : Turn := ⟨.process first, events, .answered first answer⟩
      have serial : session.Serial [turn] before := Serial.nil.snoc turn trivial alone
      have timely : ∀ other ∈ [turn], .timedOut ∉ other.events := by
        rw [List.forall_mem_singleton]
        intro late
        obtain refused | ⟨-, outcome, only, timeout⟩ := allowed _ late
        · cases refused
        · rw [List.mem_singleton.mp only, Option.some.inj inTime] at timeout
          cases timeout
      have intact : before.Intact := by
        intro load member broke
        have failed := List.mem_map_of_mem (f := Traffic.failureOf) member
        rw [sound, List.mem_singleton, Traffic.failureOf, broke] at failed
        cases failed
      have fewer : ([turn].flatMap Turn.told).flatMap (Event.hashedTexts {} none) ⊆
          Pipeline.hashedTexts {} none first := by
        intro text member
        obtain ⟨event, told, hashed⟩ := List.mem_flatMap.mp member
        simp only [List.flatMap_singleton, Turn.told, List.cons_append, List.mem_cons, List.mem_append,
          List.not_mem_nil, or_false] at told
        rcases told with rfl | meanwhile | rfl
        · exact hashed
        · obtain rfl | ⟨rfl, -⟩ := allowed event meanwhile <;> cases hashed
        · cases hashed
      have noDocument : ∀ given ∈ some Store.empty, ∀ document,
          given.get ({} : Config).persistenceKey ≠ .ok (some document) := by
        rintro given ⟨⟩ document found
        cases found
      obtain ⟨entry, only, hash⟩ := List.map_eq_singleton_iff.mp hashes
      have canServe : before.CanServe request :=
        ⟨rfl, code, rfl, by decide, .inr ⟨code, compiled, entry, only ▸ List.mem_singleton_self entry, hash⟩⟩
      obtain ⟨outcome, last, more, -, reachesLast, -, aloneLast⟩ := before.alone_serve (.process request)
      cases reachesLast with
      | answered _ second =>
          have quiet := aloneLast.quiet_of_enabled (serial.balanced rfl opened) rfl on
          obtain ⟨success, fromCache, loads⟩ :=
            ((cached_component_not_reloaded rfl noDocument opened serial timely intact (collisionFree.mono fewer)
              request).2 more _ second aloneLast quiet).1 canServe
          exact ⟨session, [turn], before, request, more, _, second, opened, serial, timely, intact,
            collisionFree.mono fewer, once, canServe, aloneLast, quiet, success, fromCache, loads.trans once⟩

end Session

end LiveComponent
