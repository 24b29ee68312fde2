import LiveComponent.Proofs.Completion
import LiveComponent.Proofs.HandleAccounting

namespace LiveComponent.Traffic

/-!
# Handles under traffic

A new session has no references.  Everything that happens keeps the number of references that the
registry counts for a handle equal to the number of those that have an owner, so this holds whenever
and in whatever order the calls take their steps.
-/

/-! ## Calls on their way -/

section Calls

variable
  {calls before after : List Stage}
  {stage next : Stage}
  {holds : Stage → Prop}

/-- A call with its place among the calls is one of them. -/
theorem mem_calls_of_place
    (place : calls = before ++ stage :: after) :
    stage ∈ calls := by
  rw [place]
  exact List.mem_append_right _ List.mem_cons_self

/-- What holds of all calls still does when one of them has gone on to where it holds. -/
theorem forall_calls_replaced
    (place : calls = before ++ stage :: after)
    (all : ∀ other ∈ calls, holds other)
    (new : holds next) :
    ∀ other ∈ before ++ next :: after, holds other := by
  rw [place, List.forall_mem_append, List.forall_mem_cons] at all
  exact List.forall_mem_append.mpr ⟨all.1, List.forall_mem_cons.mpr ⟨new, all.2.2⟩⟩

/-- What holds of all calls still does when one of them has left. -/
theorem forall_calls_left
    (place : calls = before ++ stage :: after)
    (all : ∀ other ∈ calls, holds other) :
    ∀ other ∈ before ++ after, holds other := by
  rw [place, List.forall_mem_append, List.forall_mem_cons] at all
  exact List.forall_mem_append.mpr ⟨all.1, all.2.2⟩

end Calls

/-- What every step with permitted events keeps and tells, a whole run with permitted events keeps and
tells. -/
theorem Run.keeps
    {initial final : Traffic}
    {events : List Event}
    {invariant : Traffic → Prop}
    {permits : List Event → Prop}
    {told : CallResult → Prop}
    (run : Run initial events final)
    (parts : ∀ events last, permits (events ++ last) → permits events ∧ permits last)
    (kept :
      ∀ {state next : Traffic} {last : List Event},
        invariant state → Step state last next → permits last →
          invariant next ∧ ∀ result, .returned result ∈ last → told result)
    (start : invariant initial)
    (permitted : permits events) :
    invariant final ∧ ∀ result, .returned result ∈ events → told result := by
  induction run with
  | nil =>
      exact ⟨start, fun result member => by cases member⟩
  | snoc _ step inductionHypothesis =>
      obtain ⟨early, late⟩ := parts _ _ permitted
      obtain ⟨middle, toldBefore⟩ := inductionHypothesis early
      obtain ⟨final, toldLast⟩ := kept middle step late
      refine ⟨final, fun result member => ?_⟩
      rcases List.mem_append.mp member with before | last
      · exact toldBefore result before
      · exact toldLast result last

/-! ## Books -/

/-- The number of references to an address that have an owner: a cache entry, a call on its way or an
outside caller. -/
def references (state : Traffic) (url : Text) : Nat :=
  (Cache.addresses state.session.cache.entries).count url +
    (state.calls.flatMap Stage.held).count url + state.owned.count url

/-- The books are right: the registry counts exactly the references that have an owner. -/
structure Balanced (state : Traffic) : Prop where
  registry :
    state.session.cache.registry.Sound
  cache :
    state.session.cache.Sound
  counted :
    ∀ url, Handle.isEphemeral url = true →
      state.session.cache.registry.refCount url = state.references url

/-- What one step does to the handles: no count falls by more than one, and the loader forgets a handle
exactly when its last reference goes.  A cache that is off stays off, and a refusing store switches it
off. -/
structure Releases (state : Traffic) (events : List Event) (next : Traffic) : Prop where
  gradual :
    ∀ url,
      state.session.cache.registry.refCount url ≤ next.session.cache.registry.refCount url + 1
  released :
    ∀ url,
      next.session.cache.registry.loader.released.count url =
        state.session.cache.registry.loader.released.count url +
          if state.session.cache.registry.refCount url = 1 ∧
            next.session.cache.registry.refCount url = 0 then 1 else 0
  off :
    state.session.cache.enabled = false ∨ .refused ∈ events →
      next.session.cache.enabled = false

/-- A step that leaves the cache as it is releases nothing. -/
theorem releases_of_eq
    {state next : Traffic}
    {events : List Event}
    (sameCounts : next.session.cache.registry.refs = state.session.cache.registry.refs)
    (sameReleased :
      next.session.cache.registry.loader.released =
        state.session.cache.registry.loader.released)
    (sameEnabled : next.session.cache.enabled = state.session.cache.enabled)
    (quiet : .refused ∉ events) :
    Releases state events next := by
  have counts (url : Text) :
      next.session.cache.registry.refCount url = state.session.cache.registry.refCount url := by
    rw [Registry.refCount, Registry.refCount, sameCounts]
  refine ⟨fun url => ?_, fun url => ?_, fun reason => ?_⟩
  · rw [counts]
    exact Nat.le_succ _
  · rw [sameReleased, counts, if_neg (by omega), Nat.add_zero]
  · rw [sameEnabled]
    exact reason.resolve_right quiet

/-- Right books cover what a call on its way holds. -/
theorem Balanced.backs
    {state : Traffic}
    {before after : List Stage}
    {stage : Stage}
    (balanced : Balanced state)
    (place : state.calls = before ++ stage :: after) :
    state.session.Backs stage.held where
  registry := balanced.registry
  cache := balanced.cache
  enough url ephemeral := by
    have counted := balanced.counted url ephemeral
    simp only [references, place, List.flatMap_append, List.flatMap_cons, List.count_append]
      at counted
    omega

/-- Right books cover what the cache entries hold. -/
theorem Balanced.backed
    {state : Traffic}
    (balanced : Balanced state) :
    state.session.cache.Backed := by
  have backs : state.session.Backs [] := by
    refine ⟨balanced.registry, balanced.cache, fun url ephemeral => ?_⟩
    have counted := balanced.counted url ephemeral
    unfold references at counted
    simp only [List.count_nil]
    omega
  exact backs.backed

/-- The module of a handle that a call holds is loadable. -/
theorem Balanced.resident
    {state : Traffic}
    {stage : Stage}
    {url : Text}
    (balanced : Balanced state)
    (member : stage ∈ state.calls)
    (holds : url ∈ stage.held)
    (ephemeral : Handle.isEphemeral url = true) :
    state.session.cache.registry.loader.isResident url = true := by
  have counted := balanced.counted url ephemeral
  have positive : 0 < (state.calls.flatMap Stage.held).count url :=
    List.count_pos_iff.mpr (List.mem_flatMap.mpr ⟨stage, member, holds⟩)
  refine (balanced.registry.isResident_iff url).mpr ?_
  unfold references at counted
  omega

/-- A step of a call answers nobody. -/
theorem Balanced.not_returned
    {state : Traffic}
    {before after : List Stage}
    {stage : Stage}
    {outcome : Session × Stage × List Event}
    {told : CallResult → Prop}
    (balanced : Balanced state)
    (place : state.calls = before ++ stage :: after)
    (stepped : stage.step state.session = some outcome)
    (result : CallResult)
    (member : .returned result ∈ outcome.2.2) :
    told result := by
  rcases (Session.conserves_step (balanced.backs place) stepped).events _ member with other | other
  · cases other
  · cases other

/-- A call that comes in holds what its caller hands over. -/
theorem references_call
    (state : Traffic)
    {call : Call}
    (entitled : ∀ url ∈ call.given, Handle.isEphemeral url → url ∈ state.owned)
    {url : Text}
    (ephemeral : Handle.isEphemeral url = true) :
    references
        { state with
          calls := state.calls ++ [.fresh call]
          owned := call.given.elim state.owned state.owned.erase } url =
      references state url := by
  cases given : call.given with
  | none =>
      simp [references, Stage.held, given]
  | some handed =>
      by_cases same : handed = url
      · subst same
        have owned : handed ∈ state.owned := entitled handed given ephemeral
        have positive : 0 < state.owned.count handed := List.count_pos_iff.mpr owned
        simp [references, Stage.held, given]
        omega
      · simp [references, Stage.held, given, same, List.count_erase_of_ne (Ne.symm same)]

/-- Whatever happens, the books stay right. -/
theorem balanced_step
    {state next : Traffic}
    {events : List Event}
    (balanced : Balanced state)
    (step : Step state events next) :
    Balanced next ∧ Releases state events next := by
  cases step with
  | call call entitled =>
      refine ⟨⟨balanced.registry, balanced.cache, fun url ephemeral => ?_⟩,
        releases_of_eq rfl rfl rfl (by simp)⟩
      rw [references_call state entitled ephemeral]
      exact balanced.counted url ephemeral
  | work before after stage stageAfter session events place stepped =>
      have conserves := Session.conserves_step (balanced.backs place) stepped
      refine ⟨⟨conserves.registry, conserves.cache, fun url ephemeral => ?_⟩,
        ⟨conserves.gradual, conserves.released, conserves.off⟩⟩
      have counted := balanced.counted url ephemeral
      have balance := conserves.balance url ephemeral
      dsimp only at balance
      simp only [references, place, List.flatMap_append, List.flatMap_cons, List.count_append]
        at counted ⊢
      omega
  | leave before after result place =>
      refine ⟨⟨balanced.registry, balanced.cache, fun url ephemeral => ?_⟩,
        releases_of_eq rfl rfl rfl (by simp)⟩
      have counted := balanced.counted url ephemeral
      simp only [references, place, List.flatMap_append, List.flatMap_cons, List.count_append,
        Stage.held] at counted ⊢
      omega
  | pass elapsed later =>
      exact ⟨⟨balanced.registry, balanced.cache, balanced.counted⟩, releases_of_eq rfl rfl rfl (by simp)⟩
  | tick clock =>
      exact ⟨⟨balanced.registry, balanced.cache, balanced.counted⟩, releases_of_eq rfl rfl rfl (by simp)⟩
  | storeChanges store present =>
      exact ⟨⟨balanced.registry, balanced.cache.withStore _, balanced.counted⟩,
        releases_of_eq rfl rfl rfl (by simp)⟩
  | loaderChanges delay offline breaks =>
      exact ⟨⟨balanced.registry.withLoader rfl, balanced.cache.withRegistry _,
        balanced.counted⟩, releases_of_eq rfl rfl rfl (by simp)⟩
  | reorder order same =>
      refine ⟨⟨balanced.registry, balanced.cache.reorder same, fun url ephemeral => ?_⟩,
        releases_of_eq rfl rfl rfl (by simp)⟩
      have counted := balanced.counted url ephemeral
      unfold references at counted
      rwa [← Cache.count_addresses_reordered same] at counted

/-- However much happens, the books stay right. -/
theorem balanced_run
    {initial state : Traffic}
    {events : List Event}
    (balanced : Balanced initial)
    (run : Run initial events state) :
    Balanced state := by
  induction run with
  | nil =>
      exact balanced
  | snoc _ step inductionHypothesis =>
      exact (balanced_step inductionHypothesis step).1

/-- A cache that is off or whose store refused a call is off for the rest of the run. -/
theorem off_run
    {initial state : Traffic}
    {events : List Event}
    (balanced : Balanced initial)
    (run : Run initial events state)
    (reason : initial.session.cache.enabled = false ∨ .refused ∈ events) :
    state.session.cache.enabled = false := by
  induction run with
  | nil =>
      exact reason.resolve_right List.not_mem_nil
  | snoc run step inductionHypothesis =>
      have releases := (balanced_step (balanced_run balanced run) step).2
      rcases reason with before | refused
      · exact releases.off (.inl (inductionHypothesis (.inl before)))
      · rcases List.mem_append.mp refused with earlier | now
        · exact releases.off (.inl (inductionHypothesis (.inr earlier)))
        · exact releases.off (.inr now)

/-- A new session over a loader without modules has right books. -/
theorem balanced_ofConfig
    {config : Config}
    {fetcher : Option Fetcher}
    {loader : Loader}
    {store : Option Store}
    {moment : Moment}
    {session : Session}
    (fresh : loader.modules = [])
    (opened : Session.ofConfig config fetcher loader store moment = .ok session) :
    Balanced { session } := by
  obtain ⟨-, rfl⟩ := Session.ofConfig_eq_ok.mp opened
  have cache : Cache.Opened { loader } (Cache.ofStore config store { loader }) :=
    Cache.opened_ofStore config store rfl
  refine ⟨?_, cache.sound, fun url ephemeral => ?_⟩
  · simp only [Session.cache, cache.registry]
    exact Registry.sound_empty fresh
  · have absent := Cache.not_mem_addresses_of_durable cache.durable ephemeral
    simp [references, Session.cache, cache.registry, Registry.refCount,
      List.count_eq_zero_of_not_mem absent, Table.get?]

/-- However calls interleave and whatever fails on the way, the references to a handle are those of the
cache entries, of the calls on their way and of the outside callers.  Exactly the handles with references
are loadable, and the loader forgets one exactly when its last reference goes.  At rest, when no outside
caller owns a reference, the live handles are those of the cache entries. -/
theorem handles_accounted
    {config : Config}
    {fetcher : Option Fetcher}
    {loader : Loader}
    {store : Option Store}
    {moment : Moment}
    {session : Session}
    {events : List Event}
    {state : Traffic}
    (fresh : loader.modules = [])
    (opened : Session.ofConfig config fetcher loader store moment = .ok session)
    (run : Run { session } events state)
    (url : Text)
    (ephemeral : Handle.isEphemeral url = true) :
    state.session.registry.refCount url =
        state.session.cache.entries.countP (fun entry => entry.artifact.loadUrl = some url) +
          (state.calls.flatMap Stage.held).count url + state.owned.count url ∧
      (state.session.loader.isResident url = true ↔ 1 ≤ state.session.registry.refCount url) ∧
      (∀ last next, Step state last next →
        state.session.registry.refCount url ≤ next.session.registry.refCount url + 1 ∧
          next.session.loader.released.count url =
            state.session.loader.released.count url +
              if state.session.registry.refCount url = 1 ∧
                next.session.registry.refCount url = 0 then 1 else 0) ∧
      (state.calls = [] → state.owned = [] →
        (state.session.registry.isLive url = true ↔
          ∃ entry ∈ state.session.cache.entries, entry.artifact.loadUrl = some url)) := by
  have balanced := balanced_run (balanced_ofConfig fresh opened) run
  have counted := balanced.counted url ephemeral
  refine ⟨?_, balanced.registry.isResident_iff url, fun last next step => ?_,
    fun idle unowned => ?_⟩
  · rw [← Cache.count_addresses]
    exact counted
  · have releases := (balanced_step balanced step).2
    exact ⟨releases.gradual url, releases.released url⟩
  · have held : state.session.cache.registry.refCount url =
        (Cache.addresses state.session.cache.entries).count url := by
      simpa [references, idle, unowned] using counted
    rw [Session.registry_eq, Registry.isLive, ephemeral, Bool.not_true, Bool.false_or,
      balanced.registry.isSome_iff, held, List.count_pos_iff]
    exact List.mem_filterMap

/-- After a request whose artifact is cached, its handle is live with one reference. -/
theorem handles_accounted_after_request :
    ∃ session events state url,
      Session.ofConfig {} none {} (some .empty) ⟨0, ⟨0, 0⟩⟩ = .ok session ∧
        Run { session } events state ∧
        Handle.isEphemeral url = true ∧
        state.session.registry.refCount url = 1 ∧
        state.session.registry.isLive url = true := by
  let code : Text := "export default () => 1"
  let request : SourceModule := { code, provenance := .generated }
  -- The session and the address are hidden, so that only this step evaluates them.
  obtain ⟨session, url, opened, ephemeral, answered, entries⟩ :
      ∃ session url,
        Session.ofConfig {} none {} (some .empty) ⟨0, ⟨0, 0⟩⟩ = .ok session ∧
          Handle.isEphemeral url = true ∧
          (session.run [.process request]).2.map TaskResult.isTimeout = [false] ∧
          (session.run [.process request]).1.cache.entries.countP
            (fun entry => entry.artifact.loadUrl = some url) = 1 :=
    ⟨_, (Handle.ofCode code).url, Session.ofConfig_eq_ok.mpr ⟨by decide +kernel, rfl⟩,
      by decide +kernel⟩
  obtain ⟨answer, alone⟩ := session.exists_answer request
  have inTime : (TaskResult.answered answer).isTimeout = false := by
    simpa [alone] using answered
  obtain ⟨events, -, run⟩ := run_process alone inTime
  obtain ⟨counted, -, -, atRest⟩ := handles_accounted rfl opened run url ephemeral
  have positive : 0 < (session.run [.process request]).1.cache.entries.countP
      (fun entry => entry.artifact.loadUrl = some url) := entries.symm ▸ Nat.one_pos
  obtain ⟨entry, member, holds⟩ := List.countP_pos_iff.mp positive
  exact ⟨session, _, _, url, opened, run, ephemeral, counted.trans entries,
    (atRest rfl rfl).mpr ⟨entry, member, of_decide_eq_true holds⟩⟩

end LiveComponent.Traffic
