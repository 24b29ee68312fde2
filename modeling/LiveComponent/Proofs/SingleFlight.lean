import LiveComponent.Proofs.LoadingTraffic

namespace LiveComponent

/-!
# Single flight

All executions of the same code that overlap wait for one load, whoever started it and whether or not
the starter still waits.  While an execution waits it holds the handle of its code, so its module is
loadable when the load ends, and the load leads to what this code exports.
-/

/-- Exactly the loads that have not ended are joined, each under its own address. -/
structure Executor.SingleFlight (executor : Executor) : Prop where
  joined :
    ∀ place load, executor.loads[place]? = some load → load.outcome = none →
      executor.pending.get? load.url = some place
  unended :
    ∀ url place, executor.pending.get? url = some place →
      ∃ load, executor.loads[place]? = some load ∧ load.url = url ∧ load.outcome = none

/-- A call that waits has not missed its time limit.  Its load has not ended, or it has led in time to
what the code of the call exports. -/
def Stage.InFlight (loads : Client → List Load) (elapsed : Nat) : Stage → Prop
  | wait client _ execution =>
    elapsed ≤ execution.deadline ∧
      ∃ load, (loads client)[execution.load]? = some load ∧ load.url = execution.handle.url ∧
        ∀ outcome, load.outcome = some outcome →
          outcome = Exports.ofText execution.resolvedCode ∧ load.due ≤ execution.deadline
  | release _ rest => rest.deadline? = none ∧ rest.InFlight loads elapsed
  | _ => True

variable
  {config : Config}
  {fetcher : Option Fetcher}
  {texts : List Text}
  {session : Session}
  {held : List Text}

/-! ## Executors -/

namespace Executor

namespace SingleFlight

variable {executor : Executor}

/-- Of the loads that have not ended no two have the same address. -/
theorem nodup
    (single : executor.SingleFlight) :
    ((executor.loads.filter fun load => load.outcome.isNone).map Load.url).Nodup := by
  rw [List.Nodup, List.pairwise_map, List.pairwise_filter, List.pairwise_iff_getElem]
  intro first second firstWithin secondWithin before firstOpen secondOpen same
  have place (index : Nat) (within : index < executor.loads.length)
      (isOpen : executor.loads[index].outcome.isNone = true) :
      executor.pending.get? executor.loads[index].url = some index :=
    single.joined index _ (List.getElem?_eq_getElem within) (Option.isNone_iff_eq_none.mp isOpen)
  have firstPlace := place first firstWithin firstOpen
  have secondPlace := place second secondWithin secondOpen
  rw [same, secondPlace] at firstPlace
  cases firstPlace
  exact Nat.lt_irrefl _ before

/-- A load is started under an address that no load can be joined under. -/
theorem start
    {url : Text}
    (single : executor.SingleFlight)
    (unjoined : executor.pending.get? url = none)
    (due : Nat) :
    SingleFlight
      ⟨executor.loads ++ [⟨url, due, none⟩], executor.pending.put url executor.loads.length⟩ where
  joined place load placed isOpen := by
    rw [Table.get?_put]
    rcases Nat.lt_or_ge place executor.loads.length with old | new
    · rw [List.getElem?_append_left old] at placed
      have before := single.joined place load placed isOpen
      split
      next same =>
        rw [← same, unjoined] at before
        cases before
      · exact before
    · have within := (List.getElem?_eq_some_iff.mp placed).1
      rw [List.length_append, List.length_singleton] at within
      obtain rfl : place = executor.loads.length := by omega
      rw [List.getElem?_concat_length] at placed
      cases placed
      exact if_pos rfl
  unended other place found := by
    rw [Table.get?_put] at found
    split at found
    next same =>
      cases found
      exact ⟨_, List.getElem?_concat_length, same, rfl⟩
    · obtain ⟨load, placed, same, isOpen⟩ := single.unended other place found
      have within : place < executor.loads.length := (List.getElem?_eq_some_iff.mp placed).1
      exact ⟨load, by rw [List.getElem?_append_left within, placed], same, isOpen⟩

/-- When loads have ended, the others are still joined. -/
theorem get?_pending_endLoads
    {loader : Loader}
    (steady : loader.breaks = false)
    {now place : Nat}
    {url : Text} :
    (executor.endLoads loader now).pending.get? url = some place ↔
      executor.pending.get? url = some place ∧
        ∀ load ∈ executor.loads, load.url = url → Load.endsBy load now = false := by
  let ended := (executor.loads.filter fun load => Load.endsBy load now).map Load.url
  have filtered : (executor.endLoads loader now).pending.get? url =
      if !ended.contains url then executor.pending.get? url else none := by
    rw [← Table.get?_filter executor.pending (fun name => !ended.contains name) url]
    simp [Executor.endLoads, steady, ended]
  have absent : ended.contains url = false ↔
      ∀ load ∈ executor.loads, load.url = url → Load.endsBy load now = false := by
    simp only [ended, List.contains_eq_mem, decide_eq_false_iff_not, List.mem_map, List.mem_filter,
      not_exists, not_and, and_imp]
    exact ⟨fun none load member same => by
      by_contra overdue
      exact none load member (by simpa using overdue) same,
      fun none load member overdue same => by
        rw [none load member same] at overdue
        cases overdue⟩
  rw [filtered, ← absent]
  cases ended.contains url <;> simp

/-- Loads that end are no longer joined. -/
theorem endLoads
    {loader : Loader}
    (single : executor.SingleFlight)
    (steady : loader.breaks = false)
    (now : Nat) :
    (executor.endLoads loader now).SingleFlight where
  joined place load placed isOpen := by
    have mapped : (executor.loads.map (endLoad loader now))[place]? = some load := placed
    rw [List.getElem?_map] at mapped
    obtain ⟨original, placedBefore, rfl⟩ := Option.map_eq_some_iff.mp mapped
    obtain ⟨openBefore, early⟩ := outcome_endLoad_eq_none.mp isOpen
    rw [Executor.Genuine.url_endLoad]
    have here := single.joined place original placedBefore openBefore
    refine (get?_pending_endLoads steady).mpr ⟨here, fun other member same => ?_⟩
    by_contra overdue
    -- A load that is overdue and has the same address would be joined in the same place.
    simp only [Load.endsBy, Bool.not_eq_false, Bool.and_eq_true, Option.isNone_iff_eq_none,
      decide_eq_true_eq] at overdue
    obtain ⟨index, placedOther⟩ := List.getElem?_of_mem member
    have there := single.joined index other placedOther overdue.1
    rw [same, here] at there
    cases there
    rw [placedBefore] at placedOther
    cases placedOther
    exact Nat.not_le_of_lt early overdue.2
  unended url place found := by
    obtain ⟨before, still⟩ := (get?_pending_endLoads steady).mp found
    obtain ⟨load, placed, same, isOpen⟩ := single.unended url place before
    have early := still load (List.mem_of_getElem? placed) same
    simp only [Load.endsBy, isOpen, Option.isNone_none, Bool.true_and, decide_eq_false_iff_not,
      Nat.not_le] at early
    refine ⟨endLoad loader now load, ?_, (Executor.Genuine.url_endLoad _ _ _).trans same,
      outcome_endLoad_eq_none.mpr ⟨isOpen, early⟩⟩
    exact (List.getElem?_map ..).trans (congrArg (Option.map _) placed)

end SingleFlight

end Executor

/-! ## Calls -/

/-- What a waiting call knows of its load stays when other loads are added. -/
theorem Stage.InFlight.mono
    {loads more : Client → List Load}
    {elapsed : Nat}
    {stage : Stage}
    (inFlight : stage.InFlight loads elapsed)
    (grown : ∀ client, loads client <+: more client) :
    stage.InFlight more elapsed := by
  induction stage with
  | wait client code execution =>
      obtain ⟨early, load, placed, address, led⟩ := inFlight
      refine ⟨early, load, ?_, address, led⟩
      obtain ⟨added, same⟩ := grown client
      rw [← same, List.getElem?_append_left (List.getElem?_eq_some_iff.mp placed).1, placed]
  | release urls rest inductionHypothesis =>
      exact ⟨inFlight.1, inductionHypothesis inFlight.2⟩
  | fresh | compile | seek | adopt | enter | join | conclude | done =>
      trivial

/-- A call that does not wait is in time at any time. -/
theorem Stage.InFlight.anytime
    {loads more : Client → List Load}
    {elapsed later : Nat}
    {stage : Stage}
    (inFlight : stage.InFlight loads elapsed)
    (quiet : stage.deadline? = none) :
    stage.InFlight more later := by
  induction stage with
  | wait client code execution =>
      cases quiet
  | release urls rest inductionHypothesis =>
      exact ⟨inFlight.1, inductionHypothesis inFlight.2 inFlight.1⟩
  | fresh | compile | seek | adopt | enter | join | conclude | done =>
      trivial

/-! ## Steps of a call -/

/-- No use of a registry changes whether loads break down. -/
theorem Registry.breaks_acquire
    {registry after : Registry}
    {code : Text}
    {handle : Handle}
    (acquired : registry.acquire code = .ok (after, handle)) :
    after.loader.breaks = registry.loader.breaks := by
  rw [(Loader.materialize_eq_ok (acquire_eq_ok acquired).1).2]

/-- No use of a registry changes whether loads break down. -/
theorem Registry.breaks_retain
    {registry after : Registry}
    {url : Text}
    {kept : Bool}
    (retained : registry.retain url = (after, kept)) :
    after.loader.breaks = registry.loader.breaks := by
  obtain ⟨count, -, rfl, -⟩ | ⟨-, rfl, -⟩ := retain_eq retained <;> rfl

/-- No use of a registry changes whether loads break down. -/
theorem Registry.breaks_release
    (registry : Registry)
    (url : Text) :
    (registry.release url).loader.breaks = registry.loader.breaks := by
  unfold Registry.release
  split
  · rfl
  · split <;> rfl

namespace Session

/-- A step of a call after which loads are still joined and the call is still in time.  It takes no time
and does not change whether loads break down. -/
structure LeavesInFlight
    (session : Session)
    (outcome : Session × Stage × List Event) :
    Prop where
  executors :
    ∀ client, (outcome.1.executorOf client).SingleFlight
  moment :
    outcome.1.moment = session.moment
  breaks :
    outcome.1.cache.registry.loader.breaks = session.cache.registry.loader.breaks
  stage :
    outcome.2.1.InFlight outcome.1.loadsOf outcome.1.moment.elapsed

/-- All loads of a session that have not ended can be joined. -/
def SingleFlight (session : Session) : Prop :=
  ∀ client, (session.executorOf client).SingleFlight

/-- A step that changes at most the cache, the registry and the statistics. -/
theorem LeavesInFlight.of_executors
    {outcome : Session × Stage × List Event}
    (single : session.SingleFlight)
    (same : ∀ client, outcome.1.executorOf client = session.executorOf client)
    (moment : outcome.1.moment = session.moment)
    (breaks : outcome.1.cache.registry.loader.breaks = session.cache.registry.loader.breaks)
    (stage : ∀ loads elapsed, outcome.2.1.InFlight loads elapsed) :
    LeavesInFlight session outcome where
  executors client := by
    rw [same]
    exact single client
  moment := moment
  breaks := breaks
  stage := stage _ _

/-- Going on with a changed cache. -/
theorem leavesInFlight_goOn
    {change : CacheChange}
    {rest : Stage}
    (single : session.SingleFlight)
    (same : change.cache.registry = session.cache.registry)
    (stage : ∀ loads elapsed, rest.deadline? = none ∧ rest.InFlight loads elapsed) :
    LeavesInFlight session (session.goOn change rest) :=
  .of_executors single (fun client => executorOf_withCache session _ client) rfl
    (congrArg (fun registry => registry.loader.breaks) same) stage

/-- Giving an answer while the cache changes. -/
theorem leavesInFlight_answered
    {change : CacheChange}
    (single : session.SingleFlight)
    (same : change.cache.registry = session.cache.registry)
    (request : SourceModule)
    (answer : Answer) :
    LeavesInFlight session
      ((session.answer request answer).1.goOn change (session.answer request answer).2.1) :=
  .of_executors single (fun client => by cases client <;> rfl) rfl
    (congrArg (fun registry => registry.loader.breaks) same) fun _ _ => ⟨rfl, trivial⟩

/-- Giving an answer. -/
theorem leavesInFlight_answer
    (single : session.SingleFlight)
    (request : SourceModule)
    (answer : Answer) :
    LeavesInFlight session (session.answer request answer) :=
  .of_executors single (fun client => by cases client <;> rfl) rfl rfl fun _ _ => trivial

/-- Using the registry. -/
theorem leavesInFlight_registry
    {registry : Registry}
    {next : Stage}
    {events : List Event}
    (single : session.SingleFlight)
    (breaks : registry.loader.breaks = session.cache.registry.loader.breaks)
    (stage : ∀ loads elapsed, next.InFlight loads elapsed) :
    LeavesInFlight session (session.withRegistry registry, next, events) :=
  .of_executors single (fun client => executorOf_withCache session _ client) rfl breaks stage

/-- Beginning a request. -/
theorem leavesInFlight_begins
    {request : SourceModule}
    {outcome : Session × Stage × List Event}
    (backs : session.Backs held)
    (single : session.SingleFlight)
    (begins : session.Begins request outcome) :
    LeavesInFlight session outcome := by
  have looked (source : Text) := Cache.sound_lookedUp backs.cache backs.backed session.moment.clock
    (Cache.keyFor request.provenance (sha256Hex source))
  cases begins with
  | sourceless | blank =>
      exact leavesInFlight_answer single request _
  | uncached =>
      exact .of_executors single (fun _ => rfl) rfl rfl fun _ _ => trivial
  | missed source change found solid reads missed =>
      have sound := looked source
      rw [missed] at sound
      exact leavesInFlight_goOn single sound.registry fun _ _ => ⟨rfl, trivial⟩
  | hit source change entry found solid reads hit =>
      have sound := looked source
      rw [hit] at sound
      exact leavesInFlight_answered single sound.registry request _

/-- Beginning a call. -/
theorem leavesInFlight_begin
    (backs : session.Backs held)
    (single : session.SingleFlight)
    (call : Call) :
    LeavesInFlight session (session.begin call) := by
  cases call with
  | process request =>
      exact leavesInFlight_begins backs single (session.begins_beginRequest request)
  | execute code options =>
      exact .of_executors single (fun _ => rfl) rfl rfl fun _ _ => trivial
  | get key =>
      exact leavesInFlight_goOn single
        (Cache.sound_lookedUp backs.cache backs.backed _ key).registry fun _ _ => ⟨rfl, trivial⟩
  | getByOutputHash hash =>
      exact leavesInFlight_goOn single
        (Cache.sound_lookedUpByOutputHash backs.cache backs.backed _ hash).registry
        fun _ _ => ⟨rfl, trivial⟩
  | put key artifact =>
      exact leavesInFlight_goOn single
        (Cache.sound_taken backs.cache _ key artifact).registry fun _ _ => ⟨rfl, trivial⟩
  | prune =>
      exact leavesInFlight_goOn single (Cache.sound_pruned backs.cache).registry
        fun _ _ => ⟨rfl, trivial⟩
  | clear =>
      exact leavesInFlight_goOn single (Cache.sound_cleared session.cache).registry
        fun _ _ => ⟨rfl, trivial⟩
  | acquire code =>
      dsimp only [begin]
      split
      · exact .of_executors single (fun _ => rfl) rfl rfl fun _ _ => trivial
      next acquired =>
        exact leavesInFlight_registry single (Registry.breaks_acquire acquired) fun _ _ => trivial
  | retain url =>
      exact leavesInFlight_registry single (Registry.breaks_retain rfl) fun _ _ => trivial
  | release url =>
      exact leavesInFlight_registry single (Registry.breaks_release _ url) fun _ _ => trivial

/-- Looking for an entry with the same code. -/
theorem leavesInFlight_seek
    (backs : session.Backs held)
    (single : session.SingleFlight)
    (client : Client)
    (options : ExecuteOptions)
    (code : Text) :
    LeavesInFlight session (session.seek client options code) := by
  unfold seek
  split
  · refine leavesInFlight_goOn single
      (Cache.sound_lookedUpByOutputHash backs.cache backs.backed session.moment.clock
        (sha256Hex code)).registry fun _ _ => ?_
    split <;> exact ⟨rfl, trivial⟩
  · exact .of_executors single (fun _ => rfl) rfl rfl fun _ _ => trivial

/-- Taking another reference to the handle of an entry. -/
theorem leavesInFlight_adopt
    (single : session.SingleFlight)
    (client : Client)
    (timeout : Nat)
    (code : Text)
    (entry : CacheEntry) :
    LeavesInFlight session (session.adopt client timeout code entry) := by
  unfold adopt
  obtain same | ⟨url, resolvedCode, registry, kept, -, -, retained, adopted⟩ :=
    Executor.adopt_cases session.pipeline.config entry session.cache.registry
  · rw [same]
    exact leavesInFlight_registry single rfl fun _ _ => trivial
  · rw [adopted]
    refine leavesInFlight_registry single (Registry.breaks_retain retained) fun _ _ => ?_
    cases kept <;> trivial

/-- Making code loadable. -/
theorem leavesInFlight_enter
    (single : session.SingleFlight)
    (client : Client)
    (timeout : Nat)
    (code : Text) :
    LeavesInFlight session (session.enter client timeout code) := by
  unfold enter
  split
  · exact .of_executors single (fun _ => rfl) rfl rfl fun _ _ => trivial
  · split
    · exact .of_executors single (fun _ => rfl) rfl rfl fun _ _ => trivial
    next acquired =>
      exact leavesInFlight_registry single (Registry.breaks_acquire acquired) fun _ _ => trivial

/-- A call that joins the load of its address, or starts one, waits for a load with this address that has
not ended. -/
theorem join_eq_wait
    (single : session.SingleFlight)
    (client : Client)
    (timeout : Nat)
    (code resolvedCode : Text)
    (handle : Handle) :
    ∃ place load,
      (session.join client timeout code resolvedCode handle).2.1 =
          .wait client code
            ⟨resolvedCode, handle, place, timeout, session.moment.elapsed + timeout⟩ ∧
        ((session.join client timeout code resolvedCode handle).1.loadsOf client)[place]? =
          some load ∧
        load.url = handle.url ∧ load.outcome = none := by
  unfold join
  obtain ⟨place, joined, same⟩ | ⟨-, started⟩ :=
    Executor.await_cases timeout session.moment.elapsed resolvedCode handle
      session.cache.registry (session.executorOf client)
  · obtain ⟨load, placed, address, isOpen⟩ := (single client).unended _ place joined
    rw [same]
    refine ⟨place, load, rfl, ?_, address, isOpen⟩
    cases client <;> exact placed
  · rw [started]
    refine ⟨_, ⟨handle.url, session.moment.elapsed + session.cache.registry.loader.delay, none⟩, rfl,
      ?_, rfl, rfl⟩
    cases client <;> exact List.getElem?_concat_length

/-- Joining a load or starting one. -/
theorem leavesInFlight_join
    (single : session.SingleFlight)
    (client : Client)
    (timeout : Nat)
    (code resolvedCode : Text)
    (handle : Handle) :
    LeavesInFlight session (session.join client timeout code resolvedCode handle) := by
  obtain ⟨place, load, waits, placed, address, isOpen⟩ :=
    join_eq_wait single client timeout code resolvedCode handle
  have moment : (session.join client timeout code resolvedCode handle).1.moment =
      session.moment := by
    cases client <;> rfl
  refine ⟨fun other => ?_, moment, ?_, ?_⟩
  · unfold join
    obtain ⟨place, -, same⟩ | ⟨unjoined, started⟩ :=
      Executor.await_cases timeout session.moment.elapsed resolvedCode handle
        session.cache.registry (session.executorOf client)
    · have old := single other
      rw [same]
      cases client <;> cases other <;> exact old
    · have old := single other
      have fresh := (single client).start unjoined
        (session.moment.elapsed + session.cache.registry.loader.delay)
      rw [started]
      cases client <;> cases other <;> first | exact fresh | exact old
  · obtain ⟨loads, same⟩ := Executor.await_registry timeout session.moment.elapsed resolvedCode handle
      session.cache.registry (session.executorOf client)
    unfold join
    dsimp only
    rw [same, cache_withExecutor]
    rfl
  · rw [waits, moment]
    refine ⟨Nat.le_add_right _ _, load, placed, address, fun outcome ended => ?_⟩
    rw [isOpen] at ended
    cases ended

/-- Reporting the result of an execution. -/
theorem leavesInFlight_conclude
    (backs : session.Backs held)
    (single : session.SingleFlight)
    (client : Client)
    (code : Text)
    (result : ExecutionResult) :
    LeavesInFlight session (session.conclude client code result) := by
  cases client with
  | caller =>
      exact .of_executors single (fun _ => rfl) rfl rfl fun _ _ => trivial
  | request request inputHash warnings =>
      cases result with
      | error failed =>
          have same := session.pipeline.sameWork_conclude_error session.moment.clock request
            inputHash code warnings failed
          refine .of_executors single (fun client => ?_) rfl ?_ fun _ _ => trivial
          · cases client with
            | request => exact same.executor
            | caller => rfl
          · exact congrArg (fun cache => cache.registry.loader.breaks) same.cache
      | ok executed =>
          exact leavesInFlight_answered single
            (session.pipeline.sound_kept backs.cache _ request _).registry request _

/-- Every step of a call. -/
theorem leavesInFlight_step
    {stage : Stage}
    {outcome : Session × Stage × List Event}
    (backs : session.Backs stage.held)
    (single : session.SingleFlight)
    (inFlight : stage.InFlight session.loadsOf session.moment.elapsed)
    (stepped : stage.step session = some outcome) :
    LeavesInFlight session outcome := by
  cases stage with
  | fresh call =>
      cases stepped
      exact leavesInFlight_begin backs single call
  | compile request source =>
      cases stepped
      unfold compileRequest
      split
      · exact leavesInFlight_answer single request _
      · exact .of_executors single (fun _ => rfl) rfl rfl fun _ _ => trivial
  | seek client options code =>
      cases stepped
      exact leavesInFlight_seek backs single client options code
  | adopt client timeout code entry =>
      cases stepped
      exact leavesInFlight_adopt single client timeout code entry
  | enter client timeout code =>
      cases stepped
      exact leavesInFlight_enter single client timeout code
  | join client timeout code resolvedCode handle =>
      cases stepped
      exact leavesInFlight_join single client timeout code resolvedCode handle
  | wait client code execution =>
      obtain rfl := resume_eq_some stepped
      refine .of_executors single (fun _ => rfl) rfl rfl fun _ _ => ?_
      dsimp only
      split
      · trivial
      · exact ⟨rfl, trivial⟩
  | conclude client code result =>
      cases stepped
      exact leavesInFlight_conclude backs single client code result
  | release urls rest =>
      cases urls with
      | nil =>
          cases stepped
          exact ⟨single, rfl, rfl, inFlight.2⟩
      | cons url urls =>
          cases stepped
          refine ⟨fun client => ?_, rfl, Registry.breaks_release _ url, inFlight.1, ?_⟩
          · rw [withRegistry, executorOf_withCache]
            exact single client
          · exact inFlight.2.mono fun client => by
              cases client <;> exact List.prefix_rfl
  | done result =>
      cases stepped

end Session

/-! ## Runs -/

namespace Traffic

/-- Everything is genuine, loads that have not ended can be joined and do not break down, and all calls
that wait are in time. -/
structure InFlight
    (config : Config)
    (fetcher : Option Fetcher)
    (texts : List Text)
    (state : Traffic) :
    Prop where
  genuine :
    state.Genuine config fetcher texts
  steady :
    state.session.cache.registry.loader.breaks = false
  single :
    state.session.SingleFlight
  stages :
    ∀ stage ∈ state.calls,
      stage.InFlight state.session.loadsOf state.session.moment.elapsed

namespace InFlight

variable {state next : Traffic}

/-- The loader has the code of a call that waits under the address for which it waits. -/
theorem module_of_wait
    {client : Client}
    {code : Text}
    {execution : Execution}
    (collisionFree : Text.CollisionFree texts)
    (inFlight : InFlight config fetcher texts state)
    (member : .wait client code execution ∈ state.calls) :
    state.session.cache.registry.loader.modules.get? execution.handle.url =
      some execution.resolvedCode := by
  obtain ⟨loadable, -, resolved, handle, -⟩ := inFlight.genuine.stages _ member
  have resident : state.session.cache.registry.loader.isResident execution.handle.url = true := by
    refine inFlight.genuine.balanced.resident member (List.mem_singleton_self _) ?_
    rw [handle]
    exact Registry.isEphemeral_ofCode _
  obtain ⟨module, found⟩ := Option.isSome_iff_exists.mp resident
  obtain ⟨moduleMember, address⟩ := inFlight.genuine.session.loader _ module found
  have same : module = execution.resolvedCode := by
    refine collisionFree.eq_of_url moduleMember (loadable.resolved _ resolved) ?_
    rw [← address, handle]
  rw [found, same]

/-- Time that passes no limit of a call leaves all calls in time. -/
theorem afterPass
    {elapsed : Nat}
    (collisionFree : Text.CollisionFree texts)
    (inFlight : InFlight config fetcher texts state)
    (later : state.session.moment.elapsed ≤ elapsed)
    (limits : ∀ stage ∈ state.calls, ∀ limit ∈ stage.deadline?, elapsed ≤ limit) :
    InFlight config fetcher texts { state with session := state.session.passTo elapsed } where
  genuine := inFlight.genuine.afterStep (.pass state elapsed later)
    fun event member => by cases member
  steady := inFlight.steady
  single client := by
    have ended := (inFlight.single client).endLoads inFlight.steady elapsed
    cases client <;> exact ended
  stages stage member := by
    have before := inFlight.stages stage member
    cases stage with
    | wait client code execution =>
        obtain ⟨-, load, placed, address, led⟩ := before
        have limit := limits _ member _ rfl
        refine ⟨limit, Executor.endLoad state.session.loader elapsed load, ?_,
          (Executor.Genuine.url_endLoad _ _ _).trans address, fun outcome ended => ?_⟩
        · cases client <;> exact (List.getElem?_map ..).trans (congrArg (Option.map _) placed)
        · rw [Executor.due_endLoad]
          by_cases overdue : Executor.Load.endsBy load elapsed = true
          · have module := inFlight.module_of_wait collisionFree member
            have own : (Executor.endLoad state.session.loader elapsed load).outcome =
                some (Exports.ofText execution.resolvedCode) := by
              have steady : state.session.loader.breaks = false := inFlight.steady
              have found : state.session.loader.modules.get? load.url =
                  some execution.resolvedCode := address ▸ module
              simp [Executor.endLoad, overdue, steady, Loader.load, found]
            simp only [Executor.Load.endsBy, Bool.and_eq_true, decide_eq_true_eq] at overdue
            exact ⟨Option.some.inj (ended.symm.trans own), Nat.le_trans overdue.2 limit⟩
          · rw [Executor.endLoad, if_neg overdue] at ended
            exact led outcome ended
    | release urls rest =>
        exact ⟨before.1, before.2.anytime before.1⟩
    | fresh | compile | seek | adopt | enter | join | conclude | done =>
        trivial

/-- Whatever happens, nothing gets late. -/
theorem afterStep
    {events : List Event}
    (collisionFree : Text.CollisionFree texts)
    (inFlight : InFlight config fetcher texts state)
    (step : Step state events next)
    (punctual : Punctual state events next)
    (hashes : Hashes config fetcher texts events)
    (calm : ∀ delay offline breaks, .loaderChanged delay offline breaks ∈ events → breaks = false) :
    InFlight config fetcher texts next := by
  have genuine := inFlight.genuine.afterStep step hashes
  cases step with
  | call call entitled =>
      exact ⟨genuine, inFlight.steady, inFlight.single,
        List.forall_mem_append.mpr ⟨inFlight.stages, List.forall_mem_singleton.mpr trivial⟩⟩
  | work before after stage stageAfter session events place stepped =>
      have backs := inFlight.genuine.balanced.backs place
      have here := mem_calls_of_place place
      have leaves := Session.leavesInFlight_step backs inFlight.single (inFlight.stages stage here)
        stepped
      have grown := (Session.leavesGenuine_step backs inFlight.genuine.session
        (inFlight.genuine.stages stage here) stepped).grown
      refine ⟨genuine, leaves.breaks.trans inFlight.steady, leaves.executors,
        forall_calls_replaced place (fun other member => ?_) leaves.stage⟩
      have elapsed := congrArg Moment.elapsed leaves.moment
      dsimp only at elapsed ⊢
      rw [elapsed]
      exact (inFlight.stages other member).mono grown
  | leave before after result place =>
      exact ⟨genuine, inFlight.steady, inFlight.single, forall_calls_left place inFlight.stages⟩
  | pass elapsed later =>
      refine inFlight.afterPass collisionFree later fun stage member limit waits => ?_
      rcases Nat.lt_or_eq_of_le later with passes | stays
      · exact punctual.limits passes stage member limit waits
      · cases stage with
        | wait client code execution =>
            cases waits
            rw [← stays]
            exact (inFlight.stages _ member).1
        | fresh | compile | seek | adopt | enter | join | conclude | release | done =>
            cases waits
  | tick clock =>
      refine ⟨genuine, inFlight.steady, fun client => ?_, fun stage member => ?_⟩
      · have old := inFlight.single client
        cases client <;> exact old
      · exact (inFlight.stages stage member).mono fun client => by
          cases client <;> exact List.prefix_rfl
  | storeChanges store present =>
      refine ⟨genuine, inFlight.steady, fun client => ?_, fun stage member => ?_⟩
      · have old := inFlight.single client
        cases client <;> exact old
      · exact (inFlight.stages stage member).mono fun client => by
          cases client <;> exact List.prefix_rfl
  | reorder order same =>
      refine ⟨genuine, inFlight.steady, fun client => ?_, fun stage member => ?_⟩
      · have old := inFlight.single client
        cases client <;> exact old
      · exact (inFlight.stages stage member).mono fun client => by
          cases client <;> exact List.prefix_rfl
  | loaderChanges delay offline breaks =>
      refine ⟨genuine, calm delay offline breaks (List.mem_singleton_self _), fun client => ?_,
        fun stage member => ?_⟩
      · have old := inFlight.single client
        cases client <;> exact old
      · exact (inFlight.stages stage member).mono fun client => by
          cases client <;> exact List.prefix_rfl

end InFlight

end Traffic

/-! ## Results -/

/-- The result of an execution whose load ends at some point in time: a timeout if this is later than the
limit, and otherwise that to which its own code leads. -/
def Execution.resultBy (execution : Execution) (due : Nat) : ExecutionResult :=
  Executor.resultOf execution
    (if execution.deadline < due then none else some (Exports.ofText execution.resolvedCode))

/-- Where a call stands after its execution has a result; after a failure it gives back its handle. -/
def Execution.afterResult
    (execution : Execution)
    (client : Client)
    (code : Text) :
    ExecutionResult → Stage
  | .ok module => .conclude client code (.ok module)
  | .error failed => .release [execution.handle.url] (.conclude client code (.error failed))

/-- Code that cannot be evaluated does not fail as a released module does. -/
theorem Exports.ofText_ne_released
    {code url : Text} :
    ofText code ≠
      .error (.executionValidation ("module handle ".toList ++ url ++ " was released".toList)) := by
  intro released
  unfold ofText at released
  split at released
  · unfold ofTree at released
    split at released
    · have same := congrArg (List.take 8) (Failure.executionValidation.inj (Except.error.inj released))
      simp at same
    · cases released
  · have same := congrArg (List.take 8) (Failure.executionValidation.inj (Except.error.inj released))
    simp at same

namespace Execution

variable
  {execution : Execution}
  {code : Text}
  {due : Nat}

/-- An execution whose load ends too late times out. -/
theorem resultBy_late
    (late : execution.deadline < due) :
    execution.resultBy due =
      .error ⟨.loadTimeout execution.timeout, some execution.resolvedCode⟩ := by
  simp [resultBy, late, Executor.resultOf]

/-- An execution whose load ends in time has the result to which its code leads. -/
theorem resultBy_inTime
    (resolved : Specifier.rewriteImports config code = .ok execution.resolvedCode)
    (handle : execution.handle = Handle.ofCode execution.resolvedCode)
    (inTime : due ≤ execution.deadline) :
    Pipeline.Agrees config code (execution.resultBy due) := by
  rw [resultBy, if_neg (Nat.not_lt_of_le inTime)]
  exact Pipeline.agrees_resultOf resolved handle

/-- An execution times out exactly if its load ends too late. -/
theorem resultBy_timeout_iff
    (resolved : Specifier.rewriteImports config code = .ok execution.resolvedCode)
    (handle : execution.handle = Handle.ofCode execution.resolvedCode) :
    (∃ failed, execution.resultBy due = .error failed ∧ failed.failure.kind = .loadTimeout) ↔
      execution.deadline < due := by
  constructor
  · rintro ⟨failed, result, timeout⟩
    by_contra inTime
    have agrees := resultBy_inTime resolved handle (Nat.le_of_not_lt inTime)
    rw [result] at agrees
    exact Pipeline.kind_examined agrees timeout
  · intro late
    exact ⟨_, resultBy_late late, rfl⟩

/-- No execution fails because its module was released. -/
theorem resultBy_ne_released
    {failed : ExecutionFailure}
    (result : execution.resultBy due = .error failed)
    (url : Text) :
    failed.failure ≠
      .executionValidation ("module handle ".toList ++ url ++ " was released".toList) := by
  intro released
  unfold resultBy Executor.resultOf at result
  split at result
  · cases result
    cases released
  next failure ended =>
    cases result
    split at ended
    · cases ended
    · exact Exports.ofText_ne_released ((Option.some.inj ended).trans (congrArg _ released))
  next found ended =>
    split at result
    next failure chosen =>
      cases result
      have released : failure = _ := released
      have kind := Pipeline.kind_component chosen
      rw [released] at kind
      cases kind
    · cases result

end Execution

namespace Traffic

namespace InFlight

variable {state next : Traffic}

/-- A call that waits and goes on has the result of a timeout if its load ends later than its limit, and
otherwise that to which its own code leads. -/
theorem resume_eq
    {client : Client}
    {code : Text}
    {execution : Execution}
    {outcome : Session × Stage × List Event}
    {load : Load}
    (inFlight : InFlight config fetcher texts state)
    (member : .wait client code execution ∈ state.calls)
    (placed : (state.session.loadsOf client)[execution.load]? = some load)
    (resumed : state.session.resume client code execution = some outcome)
    (prompt : .timedOut ∈ outcome.2.2 → state.session.IsCurrent) :
    outcome.1 = state.session ∧
      outcome.2.1 = execution.afterResult client code (execution.resultBy load.due) := by
  obtain ⟨early, other, placedOther, -, led⟩ := inFlight.stages _ member
  obtain rfl : load = other := Option.some.inj (placed.symm.trans placedOther)
  have outcomeOf : (state.session.executorOf client).outcome? execution.load = load.outcome := by
    have loads : (state.session.executorOf client).loads[execution.load]? = some load := placed
    simp [Executor.outcome?, loads]
  have same := Session.resume_eq_some resumed
  simp only [outcomeOf] at same
  have expected : (if execution.deadline < load.due then none
      else some (Exports.ofText execution.resolvedCode)) = load.outcome := by
    cases ended : load.outcome with
    | some led' =>
        obtain ⟨own, inTime⟩ := led led' ended
        rw [if_neg (Nat.not_lt_of_le inTime), own]
    | none =>
        have overdue : execution.deadline ≤ state.session.moment.elapsed := by
          by_contra before
          unfold Session.resume at resumed
          simp [outcomeOf, ended, before] at resumed
        have late := prompt (by simp [same, ended]) client load
          (List.mem_of_getElem? placed) ended
        exact if_pos (Nat.lt_of_le_of_lt overdue late)
  rw [same, Execution.resultBy, expected]
  refine ⟨rfl, ?_⟩
  dsimp only
  cases Executor.resultOf execution load.outcome <;> rfl

/-! ## Every call that waits goes on -/

/-- After an execution has a result, its handle is given back if it failed, and the result is reported. -/
theorem runs_afterResult
    (session : Session)
    (client : Client)
    (code : Text)
    (execution : Execution)
    (result : ExecutionResult) :
    ∃ final, Stage.Runs (· = .refused) session (execution.afterResult client code result) final
      (.conclude client code result) := by
  cases result with
  | ok module =>
      exact ⟨session, .refl _ _⟩
  | error failed =>
      exact ⟨_, session.runs_release [execution.handle.url] _⟩

/-- If time passes to the first limit of the calls that wait, a call with this limit can go on. -/
theorem exists_first
    {limit : Nat}
    (collisionFree : Text.CollisionFree texts)
    (inFlight : InFlight config fetcher texts state)
    (first : (state.calls.filterMap Stage.deadline?).min? = some limit) :
    ∃ before after client code execution load events next,
      state.calls = before ++ Stage.wait client code execution :: after ∧
        (state.session.loadsOf client)[execution.load]? = some load ∧
        RunUnder Punctual state events next ∧ InFlight config fetcher texts next ∧
        next.session = state.session.passTo limit ∧
        next.calls =
          before ++ execution.afterResult client code (execution.resultBy load.due) :: after := by
  obtain ⟨member, least⟩ := List.min?_eq_some_iff.mp first
  obtain ⟨stage, stageMember, waits⟩ := List.mem_filterMap.mp member
  cases stage with
  | fresh | compile | seek | adopt | enter | join | conclude | release | done =>
      cases waits
  | wait client code execution =>
      have deadline : execution.deadline = limit := Option.some.inj waits
      obtain ⟨early, load, placed, -, -⟩ := inFlight.stages _ stageMember
      have later : state.session.moment.elapsed ≤ limit := deadline ▸ early
      let passed : Traffic := { state with session := state.session.passTo limit }
      have limits : ∀ other ∈ state.calls, ∀ bound ∈ other.deadline?, limit ≤ bound :=
        fun other otherMember bound bounds =>
          least bound (List.mem_filterMap.mpr ⟨other, otherMember, bounds⟩)
      have passes : RunUnder Punctual state [] passed :=
        .single (.pass state limit later)
          ⟨fun _ => limits, fun gaveUp => absurd gaveUp List.not_mem_nil⟩
      have inTime : InFlight config fetcher texts passed := inFlight.afterPass collisionFree later limits
      have ended : passed.session.IsCurrent := state.session.isCurrent_passTo limit
      have placedAfter : (passed.session.loadsOf client)[execution.load]? =
          some (Executor.endLoad state.session.loader limit load) := by
        cases client <;> exact (List.getElem?_map ..).trans (congrArg (Option.map _) placed)
      obtain ⟨outcome, resumed⟩ : ∃ outcome,
          passed.session.resume client code execution = some outcome := by
        have overdue : execution.deadline ≤ passed.session.moment.elapsed := Nat.le_of_eq deadline
        simp [Session.resume, overdue]
      obtain ⟨sameSession, sameStage⟩ :=
        inTime.resume_eq stageMember placedAfter resumed fun _ => ended
      rw [Executor.due_endLoad] at sameStage
      let concluded := execution.afterResult client code (execution.resultBy load.due)
      obtain ⟨before, after, place⟩ := List.append_of_mem stageMember
      obtain ⟨session, stage, events⟩ := outcome
      dsimp only at sameSession sameStage
      subst sameSession sameStage
      let next : Traffic := { passed with calls := before ++ concluded :: after }
      have stepped : (Stage.wait client code execution).step passed.session =
          some (passed.session, concluded, events) := resumed
      have step : Step passed events next :=
        .work passed before after _ concluded passed.session events place stepped
      have punctual : Punctual passed events next := punctual_work stepped rfl fun _ => ended
      have quiet (event : Event) (told : event ∈ events) : event = .refused ∨ event = .timedOut :=
        (Session.conserves_step (inTime.genuine.balanced.backs place) resumed).events event told
      have hashes : Hashes config fetcher texts events := by
        intro event told
        rcases quiet event told with rfl | rfl <;> exact List.nil_subset _
      have calm (delay : Nat) (offline breaks : Bool)
          (told : .loaderChanged delay offline breaks ∈ events) : breaks = false := by
        rcases quiet _ told with other | other <;> cases other
      exact ⟨before, after, client, code, execution, load, _, next, place, placed,
        passes.snoc step punctual, inTime.afterStep collisionFree step punctual hashes calm, rfl, rfl⟩

/-- A call that waits goes on at some time, with the result that the end of its load determines. -/
theorem exists_concluded
    {place : Nat}
    {client : Client}
    {code : Text}
    {execution : Execution}
    {load : Load}
    (collisionFree : Text.CollisionFree texts)
    (inFlight : InFlight config fetcher texts state)
    (waits : state.calls[place]? = some (.wait client code execution))
    (placed : (state.session.loadsOf client)[execution.load]? = some load) :
    ∃ events final, RunUnder Punctual state events final ∧
      final.calls[place]? = some (.conclude client code (execution.resultBy load.due)) := by
  -- The calls that wait become fewer, since the first limit is that of one of them.
  induction size : (state.calls.filterMap Stage.deadline?).length using Nat.strongRecOn
    generalizing state load with
  | ind count inductionHypothesis =>
      have limited : execution.deadline ∈ state.calls.filterMap Stage.deadline? :=
        List.mem_filterMap.mpr ⟨_, List.mem_of_getElem? waits, rfl⟩
      obtain ⟨limit, first⟩ : ∃ limit, (state.calls.filterMap Stage.deadline?).min? = some limit := by
        cases least : (state.calls.filterMap Stage.deadline?).min? with
        | none =>
            rw [List.min?_eq_none_iff.mp least] at limited
            cases limited
        | some limit =>
            exact ⟨limit, rfl⟩
      obtain ⟨before, after, other, otherCode, otherExecution, otherLoad, events, next, split,
        otherPlaced, run, inFlightNext, sameSession, calls⟩ := inFlight.exists_first collisionFree first
      by_cases here : place = before.length
      · subst here
        rw [split, List.getElem?_append_right (Nat.le_refl _), Nat.sub_self] at waits
        cases waits
        cases Option.some.inj (placed.symm.trans otherPlaced)
        obtain ⟨final, runs⟩ := runs_afterResult next.session client code execution
          (execution.resultBy load.due)
        obtain ⟨later, -, rest⟩ := runs.toPunctual (.inl (by simp)) before after next.owned
        rw [← calls] at rest
        refine ⟨_, _, run.trans rest, ?_⟩
        dsimp only
        rw [List.getElem?_append_right (Nat.le_refl _), Nat.sub_self]
        rfl
      · have elsewhere (stage replaced : Stage) :
            (before ++ stage :: after)[place]? = (before ++ replaced :: after)[place]? := by
          rcases Nat.lt_or_gt_of_ne here with early | late
          · rw [List.getElem?_append_left early, List.getElem?_append_left early]
          · have index : place - before.length = place - before.length - 1 + 1 := by omega
            rw [List.getElem?_append_right (Nat.le_of_lt late),
              List.getElem?_append_right (Nat.le_of_lt late), index, List.getElem?_cons_succ,
              List.getElem?_cons_succ]
        have fewer : (next.calls.filterMap Stage.deadline?).length < count := by
          have quiet : (otherExecution.afterResult other otherCode
              (otherExecution.resultBy otherLoad.due)).deadline? = none := by
            cases otherExecution.resultBy otherLoad.due <;> rfl
          have waited : (Stage.wait other otherCode otherExecution).deadline? =
              some otherExecution.deadline := rfl
          rw [← size, calls, split, List.filterMap_append, List.filterMap_append,
            List.filterMap_cons_none quiet, List.filterMap_cons_some waited]
          simp
        have waitsNext : next.calls[place]? = some (.wait client code execution) := by
          rw [calls, elsewhere _ (.wait other otherCode otherExecution), ← split]
          exact waits
        have placedNext : (next.session.loadsOf client)[execution.load]? =
            some (Executor.endLoad state.session.loader limit load) := by
          rw [sameSession]
          cases client <;> exact (List.getElem?_map ..).trans (congrArg (Option.map _) placed)
        obtain ⟨later, final, rest, concluded⟩ :=
          inductionHypothesis _ fewer inFlightNext waitsNext placedNext rfl
        rw [Executor.due_endLoad] at concluded
        exact ⟨_, final, run.trans rest, concluded⟩

end InFlight

/-- A new session over a loader without modules has no load on its way. -/
theorem inFlight_ofConfig
    {loader : Loader}
    {store : Option Store}
    {moment : Moment}
    {session : Session}
    (fresh : loader.modules = [])
    (steady : loader.breaks = false)
    (opened : Session.ofConfig config fetcher loader store moment = .ok session) :
    InFlight config fetcher texts { session } := by
  have genuine : Genuine config fetcher texts { session } := genuine_ofConfig fresh opened
  obtain ⟨-, rfl⟩ := Session.ofConfig_eq_ok.mp opened
  have cache : Cache.Opened { loader } (Cache.ofStore config store { loader }) :=
    Cache.opened_ofStore config store rfl
  refine ⟨genuine, ?_, fun client => ⟨?_, ?_⟩, List.forall_mem_nil _⟩
  · simp only [Session.cache, cache.registry, steady]
  · intro place load placed
    cases client <;> cases placed
  · intro url place found
    cases client <;> cases found

/-- Single flight: however calls interleave, if no load breaks down and nobody is late, no executor has
two loads of one address on their way.  A call that has made its resolved code loadable waits for a load
of its own address that has not ended, and goes on at some time.  It times out exactly if this load ends
after the limit of the call; otherwise it has the result to which its own code leads, and it never fails
because its module was released. -/
theorem single_flight
    {loader : Loader}
    {store : Option Store}
    {moment : Moment}
    {session : Session}
    {events : List Event}
    {state : Traffic}
    (fresh : loader.modules = [] ∧ loader.breaks = false)
    (opened : Session.ofConfig config fetcher loader store moment = .ok session)
    (run : RunUnder Punctual { session } events state)
    (calm : ∀ delay offline breaks, .loaderChanged delay offline breaks ∈ events → breaks = false)
    (collisionFree : Text.CollisionFree (events.flatMap (Event.hashedTexts config fetcher))) :
    (∀ client,
      (((state.session.loadsOf client).filter fun load => load.outcome.isNone).map Load.url).Nodup) ∧
    (∀ client timeout code resolvedCode handle,
      .join client timeout code resolvedCode handle ∈ state.calls →
        Specifier.rewriteImports config code = .ok resolvedCode ∧
          handle = Handle.ofCode resolvedCode ∧
          ∃ after place load,
            (Stage.join client timeout code resolvedCode handle).step state.session =
                some (after, .wait client code ⟨resolvedCode, handle, place, timeout,
                  state.session.moment.elapsed + timeout⟩, []) ∧
              (after.loadsOf client)[place]? = some load ∧
              load.url = handle.url ∧ load.outcome = none) ∧
    (∀ place client code execution,
      state.calls[place]? = some (.wait client code execution) →
        ∃ load result,
          (state.session.loadsOf client)[execution.load]? = some load ∧
            load.url = execution.handle.url ∧
            (∀ after next told,
              (Stage.wait client code execution).step state.session = some (after, next, told) →
                Punctual state told
                  { state with session := after, calls := state.calls.set place next } →
                next = execution.afterResult client code result) ∧
            (∃ later final, RunUnder Punctual state later final ∧
              final.calls[place]? = some (.conclude client code result)) ∧
            ((∃ failed, result = .error failed ∧ failed.failure.kind = .loadTimeout) ↔
              execution.deadline < load.due) ∧
            (load.due ≤ execution.deadline →
              Pipeline.Agrees config code result ∧
                result = Executor.resultOf execution
                  (some (Exports.ofText execution.resolvedCode))) ∧
            ∀ failed url, result = .error failed →
              failed.failure ≠
                .executionValidation
                  ("module handle ".toList ++ url ++ " was released".toList)) := by
  have hashes : Hashes config fetcher (events.flatMap (Event.hashedTexts config fetcher)) events :=
    fun event member text textMember => List.mem_flatMap.mpr ⟨event, member, textMember⟩
  have inFlight : InFlight config fetcher (events.flatMap (Event.hashedTexts config fetcher)) state := by
    have start : InFlight config fetcher (events.flatMap (Event.hashedTexts config fetcher))
        { session } := inFlight_ofConfig fresh.1 fresh.2 opened
    refine run.keeps (fun middle step punctual admitted => middle.afterStep collisionFree step punctual
      (fun event member => hashes event (admitted event member))
      (fun delay offline breaks member => calm delay offline breaks (admitted _ member))) start
      fun event member => member
  refine ⟨fun client => (inFlight.single client).nodup, fun client timeout code resolvedCode handle
    member => ?_, fun place client code execution waits => ?_⟩
  · obtain ⟨-, -, resolved, own⟩ := inFlight.genuine.stages _ member
    obtain ⟨place, load, waits, placed, address, isOpen⟩ := Session.join_eq_wait inFlight.single client
      timeout code resolvedCode handle
    refine ⟨resolved, own, _, place, load, ?_, placed, address, isOpen⟩
    rw [← waits]
    rfl
  · have member := List.mem_of_getElem? waits
    obtain ⟨-, -, resolved, own, -⟩ := inFlight.genuine.stages _ member
    obtain ⟨-, load, placed, address, -⟩ := inFlight.stages _ member
    refine ⟨load, execution.resultBy load.due, placed, address, fun after next told stepped punctual =>
        ?_, inFlight.exists_concluded collisionFree waits placed,
      Execution.resultBy_timeout_iff resolved own, fun inTime => ⟨?_, ?_⟩, fun failed url result =>
        Execution.resultBy_ne_released result url⟩
    · exact (inFlight.resume_eq member placed stepped punctual.loads).2
    · exact Execution.resultBy_inTime resolved own inTime
    · rw [Execution.resultBy, if_neg (Nat.not_lt_of_le inTime)]

/-- An execution that joins a load whose starter has timed out, and so has given back the handle, loads
its module. -/
theorem single_flight_of_joined :
    ∃ session events state code execution load,
      Session.ofConfig {} none { delay := 50 } none ⟨0, ⟨0, 0⟩⟩ = .ok session ∧
        RunUnder Punctual { session } events state ∧
        (session.run [.execute code ⟨false, 10⟩]).2.map TaskResult.isTimeout = [true] ∧
        state.session = ((session.run [.execute code ⟨false, 10⟩]).1.startTasks
          [.execute code ⟨false, 100⟩]).1 ∧
        state.calls = [.wait .caller code execution] ∧
        state.session.loadsOf .caller = [load] ∧ load.due = 50 ∧ execution.deadline = 110 ∧
        ∃ later final module, RunUnder Punctual state later final ∧
          final.calls[0]? = some (.conclude .caller code (.ok module)) := by
  let code : Text := "export default () => 1"
  let early : Task := .execute code ⟨false, 10⟩
  let late : Task := .execute code ⟨false, 100⟩
  -- The session is hidden, so that only this step evaluates it.
  obtain ⟨session, opened, timedOut, limits, loads⟩ :
      ∃ session : Session,
        Session.ofConfig {} none { delay := 50 } none ⟨0, ⟨0, 0⟩⟩ = .ok session ∧
          (session.run [early]).2.map TaskResult.isTimeout = [true] ∧
          ((session.run [early]).1.startTasks [late]).2.map Session.deadline? = [some 110] ∧
          ((session.run [early]).1.startTasks [late]).1.executor.loads.map Load.due = [50] :=
    ⟨_, Session.ofConfig_eq_ok.mpr ⟨by decide +kernel, rfl⟩, by decide +kernel⟩
  have collisionFree : Text.CollisionFree ((Call.execute code ⟨false, 10⟩).hashedTexts {} none) := by
    decide +kernel
  have leads : (Pipeline.examined {} code).isOk = true := by
    decide +kernel
  obtain ⟨progress, stages, others, results, reached, allowed, ran⟩ := run_tasks session [early] []
  obtain ⟨result, rfl⟩ : ∃ result, stages = [.done (.executed result)] := by
    have reached : Task.ReachAll [.execute code ⟨false, 10⟩] progress stages := reached
    have timedOut : (progress.filterMap Session.result?).map TaskResult.isTimeout = [true] :=
      results ▸ timedOut
    cases reached with
    | cons reaches rest =>
        cases rest
        cases reaches with
        | executed _ _ result => exact ⟨result, rfl⟩
        | executing => cases timedOut
  let middle := (session.run [early]).1
  let owned := CallResult.gained (.executed result) ++ []
  have left : Step ⟨middle, [.done (.executed result)], []⟩ [.returned (.executed result)]
      ⟨middle, [], owned⟩ :=
    .leave ⟨middle, _, []⟩ [] [] (.executed result) rfl
  have leftInTime : Punctual ⟨middle, [.done (.executed result)], []⟩ [.returned (.executed result)]
      ⟨middle, [], owned⟩ :=
    ⟨fun later => absurd later (Nat.lt_irrefl _), fun gaveUp => by simp at gaveUp⟩
  have called := run_calls middle [late] [] owned
  obtain ⟨waiting, started, reachedLate, refused, startedRun⟩ := middle.run_startTasks [late] [] owned
  obtain ⟨execution, rfl, deadline⟩ : ∃ execution, waiting = [.wait .caller code execution] ∧
      execution.deadline = 110 := by
    have reached : Task.ReachAll [.execute code ⟨false, 100⟩] (middle.startTasks [late]).2 waiting :=
      reachedLate
    have limits : (middle.startTasks [late]).2.map Session.deadline? = [some 110] := limits
    generalize (middle.startTasks [late]).2 = lateProgress at reached limits
    cases reached with
    | cons reaches rest =>
        cases rest
        cases reaches with
        | executed => cases limits
        | executing _ _ execution =>
            exact ⟨execution, rfl, Option.some.inj (List.singleton_inj.mp limits)⟩
  let state : Traffic := ⟨(middle.startTasks [late]).1, [.wait .caller code execution], owned⟩
  obtain ⟨events, run, kinds⟩ :
      ∃ events, RunUnder Punctual { session } events state ∧
        ∀ event ∈ events, (∃ options, event = .called (.execute code options)) ∨
          event = .refused ∨ event = .timedOut ∨ ∃ result, event = .returned result := by
    refine ⟨_, ((ran.snoc left leftInTime).trans called).trans startedRun, fun event member => ?_⟩
    simp only [List.map_cons, List.map_nil, List.mem_append, List.mem_singleton] at member
    rcases member with (((rfl | other) | rfl) | rfl) | other
    · exact .inl ⟨_, rfl⟩
    · rcases allowed event other with rfl | ⟨rfl, -⟩
      · exact .inr (.inl rfl)
      · exact .inr (.inr (.inl rfl))
    · exact .inr (.inr (.inr ⟨_, rfl⟩))
    · exact .inl ⟨_, rfl⟩
    · exact .inr (.inl (refused event other))
  have calm (delay : Nat) (offline breaks : Bool)
      (member : .loaderChanged delay offline breaks ∈ events) : breaks = false := by
    rcases kinds _ member with ⟨_, other⟩ | other | other | ⟨_, other⟩ <;> cases other
  have fewer : events.flatMap (Event.hashedTexts {} none) ⊆
      (Call.execute code ⟨false, 10⟩).hashedTexts {} none := by
    intro text member
    obtain ⟨event, eventMember, hashed⟩ := List.mem_flatMap.mp member
    rcases kinds event eventMember with ⟨options, rfl⟩ | rfl | rfl | ⟨returned, rfl⟩
    · exact hashed
    · cases hashed
    · cases hashed
    · cases hashed
  obtain ⟨-, -, waits⟩ := single_flight ⟨rfl, rfl⟩ opened run calm (collisionFree.mono fewer)
  obtain ⟨load, result, placed, -, -, goesOn, -, inTime, -⟩ := waits 0 .caller code execution rfl
  obtain ⟨only, sameLoads, due⟩ : ∃ only, state.session.loadsOf .caller = [only] ∧ only.due = 50 :=
    List.map_eq_singleton_iff.mp loads
  obtain rfl : load = only := by
    rw [sameLoads] at placed
    exact List.mem_singleton.mp (List.mem_of_getElem? placed)
  obtain ⟨agrees, -⟩ := inTime (by omega)
  obtain ⟨later, final, runLater, concluded⟩ := goesOn
  cases result with
  | error failed =>
      have fails : Pipeline.examined {} code = .error failed.failure := agrees
      rw [fails] at leads
      cases leads
  | ok module =>
      exact ⟨session, events, state, code, execution, load, opened, run, timedOut, rfl, rfl, sameLoads,
        due, deadline, later, final, module, runLater, concluded⟩

end Traffic

end LiveComponent
