import LiveComponent.Proofs.HandleTraffic
import LiveComponent.Proofs.Knowledge

namespace LiveComponent

/-!
# Runs keep what they know

Whatever happens in a session whose loads are not disturbed, all that it stores stays knowledge about
the requests, and so is every answer.
-/

/-- The request that comes in with an event. -/
def Event.request? : Event → Option SourceModule
  | .called (.process request) => some request
  | _ => none

namespace Workload

variable {work : Workload}

/-- The requests of a run. -/
def ofEvents (config : Config) (fetcher : Option Fetcher) (events : List Event) : Workload :=
  ⟨config, fetcher, events.filterMap Event.request?⟩

/-- Only requests of the workload and calls that drop entries come in, no load takes too long, and the
loader neither goes offline nor breaks down. -/
structure Admits (work : Workload) (events : List Event) : Prop where
  calls :
    ∀ call, .called call ∈ events → work.KnowsCall call
  inTime :
    .timedOut ∉ events
  calm :
    ∀ delay offline breaks, .loaderChanged delay offline breaks ∈ events →
      offline = false ∧ breaks = false

/-- All that a session and the calls on their way store is known, and every load that has not ended is
awaited. -/
structure KnowsTraffic (work : Workload) (state : Traffic) : Prop where
  balanced :
    state.Balanced
  session :
    work.KnowsSession state.session
  stages :
    ∀ stage ∈ state.calls, work.KnowsStage state.session.pipeline.executor.loads stage
  awaited :
    ∀ place load, state.session.pipeline.executor.loads[place]? = some load →
      load.outcome = none → ∃ stage ∈ state.calls, stage.awaited? = some place

/-- What a call knows does not depend on loads that are added or end. -/
theorem KnowsStage.mono
    {loads more : List Load}
    {stage : Stage}
    (knows : work.KnowsStage loads stage)
    (kept :
      ∀ (place : Nat) (load : Load), loads[place]? = some load →
        ∃ later : Load, more[place]? = some later ∧ later.url = load.url) :
    work.KnowsStage more stage := by
  induction stage with
  | wait client compiledCode execution =>
      obtain ⟨knowsClient, resolved, handle, load, placed, same⟩ := knows
      obtain ⟨later, placedLater, sameLater⟩ := kept _ load placed
      exact ⟨knowsClient, resolved, handle, later, placedLater, sameLater.trans same⟩
  | release urls rest inductionHypothesis =>
      exact inductionHypothesis knows
  | fresh | compile | seek | adopt | enter | join | conclude | done =>
      exact knows

/-- A call that waits and goes on in time has awaited a load that has ended. -/
theorem ended_of_step
    {session : Session}
    {stage : Stage}
    {outcome : Session × Stage × List Event}
    {place : Nat}
    {load : Load}
    (knows : work.KnowsStage session.pipeline.executor.loads stage)
    (stepped : stage.step session = some outcome)
    (inTime : .timedOut ∉ outcome.2.2)
    (awaits : stage.awaited? = some place)
    (placed : session.pipeline.executor.loads[place]? = some load) :
    load.outcome ≠ none := by
  intro isOpen
  cases stage with
  | wait client compiledCode execution =>
      cases awaits
      have own : session.executorOf client = session.pipeline.executor := by
        cases client with
        | caller =>
            cases knows.1
        | request request inputHash warnings =>
            rfl
      have waiting : session.pipeline.executor.outcome? execution.load = none := by
        simp [Executor.outcome?, placed, isOpen]
      obtain rfl := Session.resume_eq_some stepped
      simp [own, waiting] at inTime
  | fresh | compile | seek | adopt | enter | join | conclude | release | done =>
      cases awaits

/-- A call that takes a step leaves all knowledge as it is. -/
theorem KnowsTraffic.afterWork
    {state : Traffic}
    {before after : List Stage}
    {stage next : Stage}
    {session : Session}
    {events : List Event}
    (collisionFree : work.CollisionFree)
    (knows : KnowsTraffic work state)
    (place : state.calls = before ++ stage :: after)
    (stepped : stage.step state.session = some (session, next, events))
    (inTime : .timedOut ∉ events) :
    KnowsTraffic work { state with session := session, calls := before ++ next :: after } := by
  have here := Traffic.mem_calls_of_place place
  have proceeds := proceeds_step collisionFree (knows.balanced.backs place) knows.session
    (knows.stages stage here) stepped inTime
  obtain ⟨started, grown⟩ := proceeds.grown
  have kept (index : Nat) (load : Load)
      (placed : state.session.pipeline.executor.loads[index]? = some load) :
      session.pipeline.executor.loads[index]? = some load := by
    have within := (List.getElem?_eq_some_iff.mp placed).1
    rw [← grown, List.getElem?_append_left within, placed]
  refine ⟨(Traffic.balanced_step knows.balanced
    (.work state before after stage next session events place stepped)).1, proceeds.known,
    ?_, fun index load placed isOpen => ?_⟩
  · refine Traffic.forall_calls_replaced place (fun other member => ?_) proceeds.stage
    exact (knows.stages other member).mono fun index load placed =>
      ⟨load, kept index load placed, rfl⟩
  · by_cases old : index < state.session.pipeline.executor.loads.length
    · dsimp only at placed
      have placedBefore : state.session.pipeline.executor.loads[index]? = some load := by
        rw [← placed, ← grown, List.getElem?_append_left old]
      obtain ⟨waiting, member, awaits⟩ := knows.awaited index load placedBefore isOpen
      rw [place] at member
      rcases List.mem_append.mp member with early | late
      · exact ⟨waiting, List.mem_append_left _ early, awaits⟩
      · rcases List.mem_cons.mp late with rfl | late
        · exact absurd isOpen
            (ended_of_step (knows.stages _ here) stepped inTime awaits placedBefore)
        · exact ⟨waiting, List.mem_append_right _ (List.mem_cons_of_mem _ late), awaits⟩
    · have within : index < session.pipeline.executor.loads.length :=
        (List.getElem?_eq_some_iff.mp placed).1
      exact ⟨next, by simp, proceeds.awaited index (Nat.le_of_not_lt old) within⟩

/-- The module of a load that has not ended is loadable, since a call that awaits it holds its handle. -/
theorem KnowsTraffic.resident
    {state : Traffic}
    (knows : KnowsTraffic work state)
    {load : Load}
    (member : load ∈ state.session.pipeline.executor.loads)
    (isOpen : load.outcome = none) :
    state.session.cache.registry.loader.isResident load.url = true := by
  obtain ⟨place, placed⟩ := List.getElem?_of_mem member
  obtain ⟨stage, stageMember, awaits⟩ := knows.awaited place load placed isOpen
  have knowsStage := knows.stages stage stageMember
  cases stage with
  | wait client compiledCode execution =>
      cases awaits
      obtain ⟨-, -, handle, other, placedOther, same⟩ := knowsStage
      have sameLoad : load = other := Option.some.inj (placed.symm.trans placedOther)
      have ephemeral : Handle.isEphemeral load.url = true := by
        rw [sameLoad, same, handle]
        exact Registry.isEphemeral_ofCode _
      refine knows.balanced.resident stageMember ?_ ephemeral
      rw [sameLoad, same]
      exact List.mem_singleton_self _
  | fresh | compile | seek | adopt | enter | join | conclude | release | done =>
      cases awaits

/-- Time that passes leaves all knowledge as it is. -/
theorem KnowsTraffic.afterPass
    {state : Traffic}
    {elapsed : Nat}
    (collisionFree : work.CollisionFree)
    (knows : KnowsTraffic work state)
    (later : state.session.moment.elapsed ≤ elapsed) :
    KnowsTraffic work { state with session := state.session.passTo elapsed } := by
  let loader := state.session.cache.registry.loader
  have executor := knows.session.executor.endLoads collisionFree knows.session.loader
    (fun load member isOpen => knows.resident member isOpen) elapsed
  refine ⟨(Traffic.balanced_step knows.balanced (.pass state elapsed later)).1,
    ⟨knows.session.config, knows.session.fetcher, knows.session.entries, knows.session.loader,
      executor⟩, fun stage member => ?_, fun place load placed isOpen => ?_⟩
  · refine (knows.stages stage member).mono fun place load placed =>
      ⟨Executor.endLoad loader elapsed load, ?_, ?_⟩
    · exact (List.getElem?_map ..).trans (by rw [placed]; rfl)
    · unfold Executor.endLoad
      split <;> rfl
  · obtain ⟨original, placedBefore, rfl⟩ :
        ∃ original, state.session.pipeline.executor.loads[place]? = some original ∧
          Executor.endLoad loader elapsed original = load := by
      have mapped : (state.session.pipeline.executor.loads.map
          (Executor.endLoad loader elapsed))[place]? = some load := placed
      rw [List.getElem?_map] at mapped
      exact Option.map_eq_some_iff.mp mapped
    refine knows.awaited place original placedBefore ?_
    unfold Executor.endLoad at isOpen
    split at isOpen
    · cases isOpen
    · exact isOpen

/-- Whatever happens to the workload, all knowledge stays, and every answer that is given is known. -/
theorem KnowsTraffic.afterStep
    {state next : Traffic}
    {events : List Event}
    (collisionFree : work.CollisionFree)
    (admits : work.Admits events)
    (knows : KnowsTraffic work state)
    (step : Traffic.Step state events next) :
    KnowsTraffic work next ∧
      ∀ result, .returned result ∈ events → work.KnowsResult result := by
  have balanced := (Traffic.balanced_step knows.balanced step).1
  cases step with
  | call call entitled =>
      have called : work.KnowsStage state.session.pipeline.executor.loads (.fresh call) :=
        admits.calls call (List.mem_singleton_self _)
      refine ⟨⟨balanced, knows.session, ?_, fun place load placed isOpen => ?_⟩,
        fun result member => ?_⟩
      · exact List.forall_mem_append.mpr ⟨knows.stages, List.forall_mem_singleton.mpr called⟩
      · obtain ⟨stage, member, awaits⟩ := knows.awaited place load placed isOpen
        exact ⟨stage, List.mem_append_left _ member, awaits⟩
      · simp at member
  | work before after stage stageAfter session events place stepped =>
      exact ⟨knows.afterWork collisionFree place stepped admits.inTime,
        knows.balanced.not_returned place stepped⟩
  | leave before after result place =>
      refine ⟨⟨balanced, knows.session, Traffic.forall_calls_left place knows.stages,
        fun index load placed isOpen => ?_⟩, fun other member => ?_⟩
      · obtain ⟨stage, member, awaits⟩ := knows.awaited index load placed isOpen
        rw [place] at member
        rcases List.mem_append.mp member with early | late
        · exact ⟨stage, List.mem_append_left _ early, awaits⟩
        · rcases List.mem_cons.mp late with rfl | late
          · cases awaits
          · exact ⟨stage, List.mem_append_right _ late, awaits⟩
      · cases List.mem_singleton.mp member
        exact knows.stages (.done result) (Traffic.mem_calls_of_place place)
  | pass elapsed later =>
      exact ⟨knows.afterPass collisionFree later, fun result member => by cases member⟩
  | tick clock =>
      exact ⟨⟨balanced, ⟨knows.session.config, knows.session.fetcher, knows.session.entries,
        knows.session.loader, knows.session.executor⟩, knows.stages, knows.awaited⟩,
        fun result member => by cases member⟩
  | storeChanges store present =>
      exact ⟨⟨balanced, ⟨knows.session.config, knows.session.fetcher, knows.session.entries,
        knows.session.loader, knows.session.executor⟩, knows.stages, knows.awaited⟩,
        fun result member => by cases member⟩
  | reorder order same =>
      have entries := fun entry member => knows.session.entries entry (same.subset member)
      exact ⟨⟨balanced, ⟨knows.session.config, knows.session.fetcher, entries,
        knows.session.loader, knows.session.executor⟩, knows.stages, knows.awaited⟩,
        fun result member => by cases member⟩
  | loaderChanges delay offline breaks =>
      obtain ⟨rfl, rfl⟩ := admits.calm delay offline breaks (List.mem_singleton_self _)
      exact ⟨⟨balanced, ⟨knows.session.config, knows.session.fetcher, knows.session.entries,
        ⟨rfl, rfl, knows.session.loader.modules⟩, knows.session.executor⟩, knows.stages,
        knows.awaited⟩, fun result member => by simp at member⟩

/-- A workload that admits events admits those before them. -/
theorem Admits.left
    {events last : List Event}
    (admits : work.Admits (events ++ last)) :
    work.Admits events where
  calls call member := admits.calls call (List.mem_append_left _ member)
  inTime member := admits.inTime (List.mem_append_left _ member)
  calm delay offline breaks member :=
    admits.calm delay offline breaks (List.mem_append_left _ member)

/-- A workload that admits events admits the last of them. -/
theorem Admits.right
    {events last : List Event}
    (admits : work.Admits (events ++ last)) :
    work.Admits last where
  calls call member := admits.calls call (List.mem_append_right _ member)
  inTime member := admits.inTime (List.mem_append_right _ member)
  calm delay offline breaks member :=
    admits.calm delay offline breaks (List.mem_append_right _ member)

/-- In every run of the workload all knowledge stays, and every answer is known. -/
theorem KnowsTraffic.afterRun
    {initial state : Traffic}
    {events : List Event}
    (collisionFree : work.CollisionFree)
    (knows : KnowsTraffic work initial)
    (run : Traffic.Run initial events state)
    (admits : work.Admits events) :
    KnowsTraffic work state ∧
      ∀ result, .returned result ∈ events → work.KnowsResult result := by
  exact run.keeps (fun events last both => ⟨both.left, both.right⟩)
    (fun middle step admitted => middle.afterStep collisionFree admitted step) knows admits

/-- A new session that took over no entry from its store knows nothing that it should not. -/
theorem knowsTraffic_ofConfig
    {config : Config}
    {fetcher : Option Fetcher}
    {loader : Loader}
    {store : Option Store}
    {moment : Moment}
    {session : Session}
    (fresh : loader.modules = [])
    (online : loader.offline = false)
    (steady : loader.breaks = false)
    (opened : Session.ofConfig config fetcher loader store moment = .ok session)
    (empty : session.cache.entries = [])
    (requests : List SourceModule) :
    KnowsTraffic ⟨config, fetcher, requests⟩ { session } := by
  have balanced := Traffic.balanced_ofConfig fresh opened
  obtain ⟨-, rfl⟩ := Session.ofConfig_eq_ok.mp opened
  have cache : Cache.Opened { loader } (Cache.ofStore config store { loader }) :=
    Cache.opened_ofStore config store rfl
  refine ⟨balanced, ⟨rfl, rfl, fun entry member => ?_, ?_, ⟨?_, ?_⟩⟩, ?_, ?_⟩
  · rw [empty] at member
    cases member
  · have same : (Cache.ofStore config store { loader }).registry.loader = loader := by
      rw [cache.registry]
    refine ⟨?_, ?_, fun url code found => ?_⟩
    · exact (congrArg Loader.offline same).trans online
    · exact (congrArg Loader.breaks same).trans steady
    · have found : (Cache.ofStore config store { loader }).registry.loader.modules.get? url =
          some code := found
      rw [same, fresh] at found
      cases found
  · exact List.forall_mem_nil _
  · intro url place found
    cases found
  · exact List.forall_mem_nil _
  · intro place load placed
    cases placed

/-- Requests with the same source in the same form have the same verdict. -/
theorem verdict_congr
    {first second : SourceModule}
    (source :
      Pipeline.sourceOf work.fetcher first = Pipeline.sourceOf work.fetcher second)
    (form : first.declaredFormat = second.declaredFormat) :
    work.verdict first = work.verdict second := by
  simp only [verdict, Pipeline.verdict, source, Pipeline.compile, Pipeline.moduleText, form]

end Workload

end LiveComponent
