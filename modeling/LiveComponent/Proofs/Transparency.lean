import LiveComponent.Proofs.FreshSession
import LiveComponent.Proofs.KnowledgeTraffic

namespace LiveComponent

/-!
# Caching is transparent

In a session whose loads are not disturbed every answer is what a session without a store would have
told.
-/

/-- Caching is transparent: however requests interleave with each other, with calls that drop entries and
with a store that starts without a document and fails at any time, every answer says what a session
without a store says about the same request, if one source comes in one form only, no load takes too
long or breaks down, and the hashed texts do not collide.  Every request is answered, and once the store
has failed, the cache is off and empty. -/
theorem Traffic.caching_transparent
    {config : Config}
    {fetcher : Option Fetcher}
    {loader : Loader}
    {store : Option Store}
    {moment : Moment}
    {session : Session}
    {events : List Event}
    {state : Traffic}
    (fresh : loader.modules = [] ∧ loader.offline = false ∧ loader.breaks = false)
    (noDocument :
      ∀ given ∈ store, ∀ document, given.get config.persistenceKey ≠ .ok (some document))
    (opened : Session.ofConfig config fetcher loader store moment = .ok session)
    (run : Run { session } events state)
    (calls :
      ∀ call, .called call ∈ events →
        (∃ request, call = .process request) ∨ call = .prune ∨ call = .clear)
    (inTime : .timedOut ∉ events)
    (calm :
      ∀ delay offline breaks, .loaderChanged delay offline breaks ∈ events →
        offline = false ∧ breaks = false)
    (oneForm :
      ∀ first second source,
        .called (.process first) ∈ events → .called (.process second) ∈ events →
        first.provenance = second.provenance →
        Pipeline.sourceOf fetcher first = .ok source →
        Pipeline.sourceOf fetcher second = .ok source →
        first.declaredFormat = second.declaredFormat)
    (collisionFree : (Workload.ofEvents config fetcher events).CollisionFree) :
    (∀ request answer, .returned (.answered request answer) ∈ events → ∀ start,
      ∃ alone reference, Session.ofConfig config fetcher {} none start = .ok alone ∧
        (alone.run [.process request]).2 = [.answered reference] ∧
        answer.gist = reference.gist) ∧
    (∀ request, ∃ answer, (state.session.run [.process request]).2 = [.answered answer]) ∧
    (.refused ∈ events ∨ (∃ given failure, store = some given ∧
        given.get config.persistenceKey = .error failure) →
      state.session.cache.enabled = false ∧ state.session.cache.entries = []) := by
  let work := Workload.ofEvents config fetcher events
  have asked (request : SourceModule) :
      request ∈ work.requests ↔ .called (.process request) ∈ events := by
    refine List.mem_filterMap.trans ⟨fun ⟨event, member, same⟩ => ?_, fun member => ?_⟩
    · cases event with
      | called call =>
          cases call with
          | process other =>
              cases same
              exact member
          | execute | get | getByOutputHash | put | prune | clear | acquire | retain | release =>
              cases same
      | refused | timedOut | returned | loaderChanged =>
          cases same
    · exact ⟨_, member, rfl⟩
  have admits : work.Admits events := by
    refine ⟨fun call member => ?_, inTime, calm⟩
    rcases calls call member with ⟨request, rfl⟩ | rfl | rfl
    · exact (asked request).mpr member
    · trivial
    · trivial
  have empty : session.cache.entries = [] := by
    obtain ⟨-, rfl⟩ := Session.ofConfig_eq_ok.mp opened
    exact Cache.entries_ofStore noDocument { loader }
  have known : Workload.KnowsTraffic work { session } :=
    Workload.knowsTraffic_ofConfig fresh.1 fresh.2.1 fresh.2.2 opened empty _
  obtain ⟨final, answered⟩ := known.afterRun collisionFree run admits
  refine ⟨?_, state.session.exists_answer, ?_⟩
  · intro request answer returned start
    obtain ⟨requested, knows⟩ := answered _ returned
    have verdict : answer.gist = work.verdict request := by
      rcases knows with own | ⟨-, other, source, provides, providesOther, channel, -, same⟩
      · exact own
      · have form := oneForm request other source ((asked request).mp requested)
          ((asked other).mp providesOther.asked) channel.symm provides.found providesOther.found
        rw [same]
        exact Workload.verdict_congr (providesOther.found.trans provides.found.symm) form.symm
    have valid := (Session.ofConfig_eq_ok.mp opened).1
    obtain ⟨alone, openedAlone⟩ : ∃ alone, Session.ofConfig config fetcher {} none start = .ok alone :=
      ⟨_, Session.ofConfig_eq_ok.mpr ⟨valid, rfl⟩⟩
    have empty : alone.cache.entries = [] := by
      obtain ⟨-, rfl⟩ := Session.ofConfig_eq_ok.mp openedAlone
      rfl
    obtain ⟨after, reference, ran, gist, -⟩ :=
      (Session.isFresh_ofConfig openedAlone empty).run_process request
    exact ⟨alone, reference, openedAlone, congrArg Prod.snd ran, verdict.trans gist.symm⟩
  · intro failed
    have balanced := balanced_ofConfig fresh.1 opened
    have off : state.session.cache.enabled = false := by
      rcases failed with refused | ⟨given, failure, rfl, refused⟩
      · exact off_run balanced run (.inr refused)
      · obtain ⟨-, rfl⟩ := Session.ofConfig_eq_ok.mp opened
        exact off_run balanced run (.inl (Cache.enabled_ofStore refused _))
    exact ⟨off, final.balanced.cache.off off⟩

/-- A request that is repeated is answered from the cache with what a session without a store says. -/
theorem Traffic.caching_transparent_of_hit :
    ∃ session events state request answer,
      Session.ofConfig {} none {} (some .empty) ⟨0, ⟨0, 0⟩⟩ = .ok session ∧
        Run { session } events state ∧
        .returned (.answered request answer) ∈ events ∧
        answer.fromCache = true ∧
        ∃ alone reference,
          Session.ofConfig {} none {} none ⟨0, ⟨0, 0⟩⟩ = .ok alone ∧
            (alone.run [.process request]).2 = [.answered reference] ∧
            answer.gist = reference.gist := by
  let code : Text := "export default () => 1"
  let request : SourceModule := { code, provenance := .generated }
  let told (result : TaskResult) : Bool × Bool :=
    (result.isTimeout,
      match result with
      | .answered answer => answer.fromCache
      | .executed _ => false)
  -- The session is hidden, so that only this step evaluates it.
  obtain ⟨session, opened, firstTold, secondTold⟩ :
      ∃ session : Session, Session.ofConfig {} none {} (some .empty) ⟨0, ⟨0, 0⟩⟩ = .ok session ∧
        (session.run [.process request]).2.map told = [(false, false)] ∧
        ((session.run [.process request]).1.run [.process request]).2.map told =
          [(false, true)] :=
    ⟨_, Session.ofConfig_eq_ok.mpr ⟨by decide +kernel, rfl⟩, by decide +kernel⟩
  have collisionFree : (Workload.mk {} none [request]).CollisionFree := by
    decide +kernel
  obtain ⟨first, firstRan⟩ := session.exists_answer request
  obtain ⟨second, secondRan⟩ := (session.run [.process request]).1.exists_answer request
  have inTimeFirst : (TaskResult.answered first).isTimeout = false := by
    rw [firstRan] at firstTold
    exact congrArg Prod.fst (List.singleton_inj.mp firstTold)
  rw [secondRan] at secondTold
  have inTimeSecond : (TaskResult.answered second).isTimeout = false :=
    congrArg Prod.fst (List.singleton_inj.mp secondTold)
  have hit : second.fromCache = true := congrArg Prod.snd (List.singleton_inj.mp secondTold)
  obtain ⟨earlier, refusedFirst, runFirst⟩ := run_process firstRan inTimeFirst
  obtain ⟨later, refusedSecond, runSecond⟩ := run_process secondRan inTimeSecond
  obtain ⟨events, run, returned, kinds⟩ :
      ∃ events, Run { session } events
          ⟨((session.run [.process request]).1.run [.process request]).1, [], []⟩ ∧
        .returned (.answered request second) ∈ events ∧
        ∀ event ∈ events, event = .called (.process request) ∨ event = .refused ∨
          ∃ answer, event = .returned (.answered request answer) := by
    refine ⟨_, runFirst.trans runSecond, by simp, fun event member => ?_⟩
    simp only [List.mem_append, List.mem_cons, List.not_mem_nil, or_false] at member
    rcases member with ((rfl | early) | rfl) | (rfl | late) | rfl
    · exact .inl rfl
    · exact .inr (.inl (refusedFirst event early))
    · exact .inr (.inr ⟨first, rfl⟩)
    · exact .inl rfl
    · exact .inr (.inl (refusedSecond event late))
    · exact .inr (.inr ⟨second, rfl⟩)
  have onlyRequest (call : Call) (member : .called call ∈ events) : call = .process request := by
    rcases kinds _ member with same | other | ⟨answer, other⟩
    · exact Event.called.inj same
    · cases other
    · cases other
  have noDocument : ∀ given ∈ some Store.empty, ∀ document,
      given.get ({} : Config).persistenceKey ≠ .ok (some document) := by
    rintro given ⟨⟩ document found
    cases found
  have inTime : .timedOut ∉ events := by
    intro member
    rcases kinds _ member with other | other | ⟨answer, other⟩ <;> cases other
  have calm : ∀ delay offline breaks, .loaderChanged delay offline breaks ∈ events →
      offline = false ∧ breaks = false := by
    intro delay offline breaks member
    rcases kinds _ member with other | other | ⟨answer, other⟩ <;> cases other
  have fewer : events.filterMap Event.request? ⊆ [request] := by
    intro other member
    obtain ⟨event, eventMember, asked⟩ := List.mem_filterMap.mp member
    rcases kinds _ eventMember with rfl | rfl | ⟨answer, rfl⟩
    · cases asked
      exact List.mem_singleton_self _
    · cases asked
    · cases asked
  obtain ⟨transparent, -, -⟩ := caching_transparent ⟨rfl, rfl, rfl⟩ noDocument opened run
    (fun call member => .inl ⟨request, onlyRequest call member⟩) inTime calm
    (fun first second source firstMember secondMember _ _ _ => by
      cases onlyRequest _ firstMember
      cases onlyRequest _ secondMember
      rfl)
    (collisionFree.mono fewer)
  exact ⟨session, events, _, request, second, opened, run, returned, hit,
    transparent request second returned ⟨0, ⟨0, 0⟩⟩⟩

end LiveComponent
