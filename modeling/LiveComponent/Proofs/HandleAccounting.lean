import LiveComponent.Proofs.CacheOpening
import LiveComponent.Proofs.CallSteps

namespace LiveComponent

/-!
# Every reference has an owner

However calls interleave, the references that the registry counts for a handle are those of the cache
entries with this handle, of the calls on their way and of the outside callers.  Every step of a call
moves references from one owner to another one, and the registry counts along.
-/

/-- An artifact is taken over by the cache, or its handle is given back. -/
theorem Pipeline.sound_kept
    (pipeline : Pipeline)
    (sound : pipeline.cache.Sound)
    (clock : Instant)
    (request : SourceModule)
    (artifact : Artifact) :
    CacheChange.Sound pipeline.cache
      [(Cache.keyFor request.provenance artifact.inputHash, artifact)]
      (pipeline.kept clock request artifact).1 := by
  unfold kept
  split
  · exact Cache.sound_taken sound clock _ artifact
  · refine ⟨sound, rfl, rfl, fun entry member => ?_, fun url => ?_, fun off => off, ?_⟩
    · exact List.mem_append_left _ (List.mem_map_of_mem member)
    · cases holds : artifact.loadUrl <;> simp [holds]
    · intro refused
      cases refused

namespace Session

variable {session : Session}

/-! ## Moving references -/

/-- The registry and the cache are in order, and every handle has at least the references of the cache
entries and of a call. -/
structure Backs (session : Session) (held : List Text) : Prop where
  registry :
    session.cache.registry.Sound
  cache :
    session.cache.Sound
  enough :
    ∀ url, Handle.isEphemeral url = true →
      (Cache.addresses session.cache.entries).count url + held.count url ≤
        session.cache.registry.refCount url

/-- The cache of a session that backs a call is backed itself. -/
theorem Backs.backed
    {held : List Text}
    (backs : session.Backs held) :
    session.cache.Backed := by
  intro url member
  cases ephemeral : Handle.isEphemeral url with
  | false =>
      simp [Registry.isLive, ephemeral]
  | true =>
      have enough := backs.enough url ephemeral
      have counted : 0 < (Cache.addresses session.cache.entries).count url :=
        List.count_pos_iff.mpr member
      exact backs.registry.isLive_of_pos (by omega)

/-- A step of a call that keeps the books: what the call and the cache hold afterwards is what they
held before, apart from references that the registry counts more or less.  A cache that is off stays off,
and a refusing store switches it off. -/
structure Conserves
    (session : Session)
    (held : List Text)
    (outcome : Session × Stage × List Event) :
    Prop where
  registry :
    outcome.1.cache.registry.Sound
  cache :
    outcome.1.cache.Sound
  balance :
    ∀ url, Handle.isEphemeral url = true →
      outcome.1.cache.registry.refCount url +
          ((Cache.addresses session.cache.entries).count url + held.count url) =
        session.cache.registry.refCount url +
          ((Cache.addresses outcome.1.cache.entries).count url + outcome.2.1.held.count url)
  gradual :
    ∀ url, session.cache.registry.refCount url ≤ outcome.1.cache.registry.refCount url + 1
  released :
    ∀ url,
      outcome.1.cache.registry.loader.released.count url =
        session.cache.registry.loader.released.count url +
          if session.cache.registry.refCount url = 1 ∧
            outcome.1.cache.registry.refCount url = 0 then 1 else 0
  off :
    session.cache.enabled = false ∨ .refused ∈ outcome.2.2 → outcome.1.cache.enabled = false
  events :
    ∀ event ∈ outcome.2.2, event = .refused ∨ event = .timedOut

namespace Conserves

variable
  {held : List Text}
  {outcome : Session × Stage × List Event}

/-- A step that touches neither the cache nor the registry. -/
theorem of_cache_eq
    (backs : session.Backs held)
    (sameCache : outcome.1.cache = session.cache)
    (sameHeld : ∀ url, outcome.2.1.held.count url = held.count url)
    (quiet : ∀ event ∈ outcome.2.2, event = .timedOut) :
    Conserves session held outcome where
  registry := sameCache ▸ backs.registry
  cache := sameCache ▸ backs.cache
  balance url _ := by
    simp [sameCache, sameHeld]
  gradual url := by
    rw [sameCache]
    omega
  released url := by
    rw [sameCache]
    simp
    omega
  off reason := by
    rw [sameCache]
    exact reason.resolve_right fun refused => by cases quiet _ refused
  events event member := .inr (quiet event member)

/-- A step that changes the cache: the call holds what the cache gives back. -/
theorem of_change
    {change : CacheChange}
    {fresh : List (Text × Artifact)}
    (backs : session.Backs held)
    (sound : CacheChange.Sound session.cache fresh change)
    (sameCache : outcome.1.cache = change.cache)
    (given :
      ∀ url, held.count url =
        (fresh.filterMap fun content => content.2.loadUrl).count url)
    (taken : ∀ url, outcome.2.1.held.count url = change.released.count url)
    (told : ∀ event ∈ outcome.2.2, event = .refused ∧ change.refused = true) :
    Conserves session held outcome where
  registry := by
    rw [sameCache, sound.registry]
    exact backs.registry
  cache := sameCache ▸ sound.cache
  balance url _ := by
    have balance := sound.balance url
    rw [sameCache, sound.registry, given, taken]
    omega
  gradual url := by
    rw [sameCache, sound.registry]
    omega
  released url := by
    rw [sameCache, sound.registry]
    simp
    omega
  off reason := by
    rw [sameCache]
    rcases reason with before | refused
    · exact sound.stays_off before
    · exact sound.refused (told _ refused).2
  events event member := .inl (told event member).1

/-- A step that uses the registry once. -/
theorem of_registry
    {registry : Registry}
    (backs : session.Backs held)
    (sound : registry.Sound)
    (sameCache : outcome.1.cache = { session.cache with registry := registry })
    (counted :
      ∀ url, Handle.isEphemeral url = true →
        registry.refCount url + held.count url =
          session.cache.registry.refCount url + outcome.2.1.held.count url)
    (gradual : ∀ url, session.cache.registry.refCount url ≤ registry.refCount url + 1)
    (released :
      ∀ url,
        registry.loader.released.count url =
          session.cache.registry.loader.released.count url +
            if session.cache.registry.refCount url = 1 ∧ registry.refCount url = 0 then 1
            else 0)
    (quiet : ∀ event ∈ outcome.2.2, event = .timedOut) :
    Conserves session held outcome where
  registry := by
    rw [sameCache]
    exact sound
  cache := by
    rw [sameCache]
    exact backs.cache.withRegistry registry
  balance url ephemeral := by
    have counted := counted url ephemeral
    rw [sameCache]
    simp only
    omega
  gradual url := by
    rw [sameCache]
    exact gradual url
  released url := by
    rw [sameCache]
    exact released url
  off reason := by
    rw [sameCache]
    exact reason.resolve_right fun refused => by cases quiet _ refused
  events event member := .inr (quiet event member)

end Conserves

/-! ## Steps of a call -/

section Steps

variable {held : List Text}

/-- A changed cache tells that the store refused only if it did. -/
theorem refused_goOn
    {change : CacheChange}
    {rest : Stage}
    (event : Event)
    (member : event ∈ (session.goOn change rest).2.2) :
    event = .refused ∧ change.refused = true := by
  unfold goOn at member
  dsimp only at member
  split at member
  next told =>
    exact ⟨List.mem_singleton.mp member, told⟩
  · cases member

/-- Going on with a changed cache keeps the books. -/
theorem conserves_goOn
    {change : CacheChange}
    {fresh : List (Text × Artifact)}
    {rest : Stage}
    (backs : session.Backs held)
    (sound : CacheChange.Sound session.cache fresh change)
    (given :
      ∀ url, held.count url =
        (fresh.filterMap fun content => content.2.loadUrl).count url)
    (nothing : rest.held = []) :
    Conserves session held (session.goOn change rest) :=
  .of_change backs sound rfl given (by simp [goOn, Stage.held, nothing]) refused_goOn

/-- An answered request changes no reference. -/
theorem conserves_answer
    (backs : session.Backs [])
    (request : SourceModule)
    (answer : Answer) :
    Conserves session [] (session.answer request answer) :=
  .of_cache_eq backs rfl (fun _ => rfl) (List.forall_mem_nil _)

/-- Acquiring a handle keeps the books if the call holds it afterwards. -/
theorem conserves_acquire
    {registry : Registry}
    {code : Text}
    {handle : Handle}
    {next : Stage}
    (backs : session.Backs [])
    (acquired : session.cache.registry.acquire code = .ok (registry, handle))
    (holds : next.held = [handle.url]) :
    Conserves session [] (session.withRegistry registry, next, []) := by
  have counted := Registry.refCount_acquire acquired
  refine .of_registry backs (backs.registry.acquire acquired) rfl (fun url _ => ?_)
    (fun url => ?_) (fun url => ?_) (List.forall_mem_nil _)
  · rw [counted, holds]
    rfl
  · rw [counted]
    omega
  · rw [Registry.released_acquire acquired, counted, if_neg (by omega), Nat.add_zero]

/-- Retaining a handle keeps the books if the call holds it afterwards. -/
theorem conserves_retain
    {registry : Registry}
    {url : Text}
    {kept : Bool}
    {next : Stage}
    (backs : session.Backs [])
    (retained : session.cache.registry.retain url = (registry, kept))
    (holds : next.held = if kept then [url] else []) :
    Conserves session [] (session.withRegistry registry, next, []) := by
  have grows (other : Text) :
      session.cache.registry.refCount other ≤ registry.refCount other := by
    cases ephemeral : Handle.isEphemeral other with
    | true =>
        rw [Registry.refCount_retain retained ephemeral]
        omega
    | false =>
        by_contra fewer
        have positive : 0 < session.cache.registry.refCount other := by omega
        have held := backs.registry.isEphemeral_of_pos positive
        rw [ephemeral] at held
        cases held
  refine .of_registry backs (backs.registry.retain retained) rfl (fun other ephemeral => ?_)
    (fun other => ?_) (fun other => ?_) (List.forall_mem_nil _)
  · rw [Registry.refCount_retain retained ephemeral, holds]
    rfl
  · have grows := grows other
    omega
  · have grows := grows other
    rw [Registry.released_retain retained, if_neg (by omega), Nat.add_zero]

/-- Releasing a handle that the call holds keeps the books. -/
theorem conserves_release
    {url : Text}
    (next : Stage)
    (backs : session.Backs (url :: next.held)) :
    Conserves session (url :: next.held)
      (session.withRegistry (session.cache.registry.release url), next, []) := by
  have counted := Registry.refCount_release backs.registry url
  refine .of_registry backs (backs.registry.release url) rfl (fun other ephemeral => ?_)
    (fun other => ?_) (fun other => ?_) (List.forall_mem_nil _)
  · have enough := backs.enough other ephemeral
    rw [counted]
    by_cases same : url = other
    · subst same
      simp at enough ⊢
      omega
    · simp [same]
  · have once : ([url] : List Text).count other ≤ 1 := List.count_le_length
    rw [counted]
    omega
  · rw [Registry.released_release backs.registry, counted, List.count_append]
    by_cases same : url = other
    · subst same
      by_cases one : session.cache.registry.refCount url = 1
      · simp [one]
        omega
      · simp [one]
    · have differs : ([url] : List Text).count other = 0 := by
        simp [same]
      have unchanged :
          (if session.cache.registry.refCount url = 1 then [url] else []).count other = 0 := by
        split
        · exact differs
        · rfl
      rw [unchanged, differs, if_neg (by omega)]
      omega

/-- Beginning a request moves references from the cache to the call. -/
theorem conserves_begins
    {request : SourceModule}
    {outcome : Session × Stage × List Event}
    (backs : session.Backs [])
    (begins : session.Begins request outcome) :
    Conserves session [] outcome := by
  have looked (source : Text) := Cache.sound_lookedUp backs.cache backs.backed session.moment.clock
    (Cache.keyFor request.provenance (sha256Hex source))
  cases begins with
  | sourceless | blank =>
      exact conserves_answer backs request _
  | uncached =>
      exact .of_cache_eq backs rfl (fun _ => rfl) (List.forall_mem_nil _)
  | missed source change found solid reads missed =>
      have sound := looked source
      rw [missed] at sound
      exact conserves_goOn backs sound (fun _ => rfl) rfl
  | hit source change entry found solid reads hit =>
      have sound := looked source
      rw [hit] at sound
      exact .of_change backs sound rfl (fun _ => rfl)
        (by simp [goOn, answer, Stage.held, CallResult.gained]) refused_goOn

/-- Compiling a request changes no reference. -/
theorem conserves_compileRequest
    (backs : session.Backs [])
    (request : SourceModule)
    (code : Text) :
    Conserves session [] (session.compileRequest request code) := by
  unfold compileRequest
  split
  · exact conserves_answer backs request _
  · exact .of_cache_eq backs rfl (fun _ => rfl) (List.forall_mem_nil _)

/-- Looking for an entry with the same code moves references from the cache to the call. -/
theorem conserves_seek
    (backs : session.Backs [])
    (client : Client)
    (options : ExecuteOptions)
    (code : Text) :
    Conserves session [] (session.seek client options code) := by
  unfold seek
  split
  · have sound := Cache.sound_lookedUpByOutputHash backs.cache backs.backed session.moment.clock
      (sha256Hex code)
    refine conserves_goOn backs sound (fun _ => rfl) ?_
    split <;> rfl
  · exact .of_cache_eq backs rfl (fun _ => rfl) (List.forall_mem_nil _)

/-- The reference of an adopted module belongs to the call. -/
theorem conserves_adopt
    (backs : session.Backs [])
    (client : Client)
    (timeout : Nat)
    (code : Text)
    (entry : CacheEntry) :
    Conserves session [] (session.adopt client timeout code entry) := by
  unfold adopt
  obtain same | ⟨url, resolvedCode, registry, kept, -, -, retained, adopted⟩ :=
    Executor.adopt_cases session.pipeline.config entry session.cache.registry
  · rw [same]
    exact .of_cache_eq backs rfl (fun _ => rfl) (List.forall_mem_nil _)
  · rw [adopted]
    refine conserves_retain backs retained ?_
    cases kept <;> rfl

/-- The reference of an acquired handle belongs to the call. -/
theorem conserves_enter
    (backs : session.Backs [])
    (client : Client)
    (timeout : Nat)
    (code : Text) :
    Conserves session [] (session.enter client timeout code) := by
  unfold enter
  split
  · exact .of_cache_eq backs rfl (fun _ => rfl) (List.forall_mem_nil _)
  · split
    · exact .of_cache_eq backs rfl (fun _ => rfl) (List.forall_mem_nil _)
    next acquired =>
      exact conserves_acquire backs acquired rfl

/-- Joining a load leaves the handle with the call. -/
theorem conserves_join
    {client : Client}
    {timeout : Nat}
    {code resolvedCode : Text}
    {handle : Handle}
    (backs : session.Backs [handle.url]) :
    Conserves session [handle.url] (session.join client timeout code resolvedCode handle) := by
  obtain ⟨loads, counted⟩ := Executor.await_registry timeout session.moment.elapsed resolvedCode
    handle session.cache.registry (session.executorOf client)
  have sound : Registry.Sound
      { session.cache.registry with
        loader := { session.cache.registry.loader with loads := loads } } :=
    backs.registry.withLoader rfl
  refine .of_registry backs sound ?_ (fun _ _ => rfl) (fun url => Nat.le_succ _) (fun url => ?_)
    (List.forall_mem_nil _)
  · simp [join, counted]
  · have unchanged : ¬ (session.cache.registry.refCount url = 1 ∧
        session.cache.registry.refCount url = 0) := by
      omega
    exact (if_neg unchanged ▸ rfl)

/-- A call that goes on after a load keeps its handle until it is released. -/
theorem conserves_resume
    {client : Client}
    {code : Text}
    {execution : Execution}
    {outcome : Session × Stage × List Event}
    (backs : session.Backs [execution.handle.url])
    (resumed : session.resume client code execution = some outcome) :
    Conserves session [execution.handle.url] outcome := by
  obtain rfl := resume_eq_some resumed
  refine .of_cache_eq backs rfl (fun url => ?_) ?_
  · dsimp only
    split
    next executed succeeded =>
      rw [succeeded]
      simp [Stage.held, Executor.loadUrl_resultOf succeeded]
    next failure failed =>
      rw [failed]
      simp [Stage.held]
  · dsimp only
    split
    · exact List.forall_mem_nil _
    · exact fun event member => List.mem_singleton.mp member

/-- A concluded execution leaves its handle to the cache, to its caller, or to be released. -/
theorem conserves_conclude
    {client : Client}
    {code : Text}
    {result : ExecutionResult}
    (backs : session.Backs (Stage.conclude client code result).held) :
    Conserves session (Stage.conclude client code result).held
      (session.conclude client code result) := by
  cases client with
  | caller =>
      refine .of_cache_eq backs rfl (fun url => ?_) (List.forall_mem_nil _)
      cases result <;> rfl
  | request request inputHash warnings =>
      cases result with
      | ok executed =>
          have sound := Pipeline.sound_kept session.pipeline backs.cache session.moment.clock
            request
            (session.pipeline.executedArtifact session.moment.clock request inputHash code
              executed)
          refine .of_change backs sound rfl (fun url => rfl) (fun url => ?_) refused_goOn
          simp [conclude, goOn, answer, Stage.held, CallResult.gained]
      | error failure =>
          refine .of_cache_eq backs ?_ (fun url => rfl) (List.forall_mem_nil _)
          exact (session.pipeline.sameWork_conclude_error session.moment.clock request inputHash
            code warnings failure).cache

/-- Beginning a call moves references from the cache and the caller to the call. -/
theorem conserves_begin
    {call : Call}
    (backs : session.Backs call.given.toList) :
    Conserves session call.given.toList (session.begin call) := by
  cases call with
  | process request =>
      exact conserves_begins backs (session.begins_beginRequest request)
  | execute code options =>
      exact .of_cache_eq backs rfl (fun _ => rfl) (List.forall_mem_nil _)
  | get key =>
      exact conserves_goOn backs
        (Cache.sound_lookedUp backs.cache backs.backed session.moment.clock key)
        (fun _ => rfl) rfl
  | getByOutputHash hash =>
      exact conserves_goOn backs
        (Cache.sound_lookedUpByOutputHash backs.cache backs.backed session.moment.clock hash)
        (fun _ => rfl) rfl
  | put key artifact =>
      refine conserves_goOn backs
        (Cache.sound_taken backs.cache session.moment.clock key artifact) (fun url => ?_) rfl
      cases holds : artifact.loadUrl <;> simp [Call.given, holds]
  | prune =>
      exact conserves_goOn backs (Cache.sound_pruned backs.cache) (fun _ => rfl) rfl
  | clear =>
      exact conserves_goOn backs (Cache.sound_cleared session.cache) (fun _ => rfl) rfl
  | acquire code =>
      unfold begin
      dsimp only
      split
      · exact .of_cache_eq backs rfl (fun _ => rfl) (List.forall_mem_nil _)
      next acquired =>
        exact conserves_acquire backs acquired rfl
  | retain url =>
      cases retained : session.cache.registry.retain url with
      | mk registry kept =>
          simp only [begin, registry_eq, retained]
          refine conserves_retain backs retained ?_
          cases kept <;> rfl
  | release url =>
      exact conserves_release (.done .finished) backs

/-- Every step of a call keeps the books. -/
theorem conserves_step
    {stage : Stage}
    {outcome : Session × Stage × List Event}
    (backs : session.Backs stage.held)
    (stepped : stage.step session = some outcome) :
    Conserves session stage.held outcome := by
  cases stage with
  | fresh call =>
      cases stepped
      exact conserves_begin backs
  | compile request code =>
      cases stepped
      exact conserves_compileRequest backs request code
  | seek client options code =>
      cases stepped
      exact conserves_seek backs client options code
  | adopt client timeout code entry =>
      cases stepped
      exact conserves_adopt backs client timeout code entry
  | enter client timeout code =>
      cases stepped
      exact conserves_enter backs client timeout code
  | join client timeout code resolvedCode handle =>
      cases stepped
      exact conserves_join backs
  | wait client code execution =>
      exact conserves_resume backs stepped
  | conclude client code result =>
      cases stepped
      exact conserves_conclude backs
  | release urls rest =>
      cases urls with
      | nil =>
          cases stepped
          exact .of_cache_eq backs rfl (fun _ => rfl) (List.forall_mem_nil _)
      | cons url urls =>
          cases stepped
          exact conserves_release (.release urls rest) backs
  | done result =>
      cases stepped

end Steps

end Session

end LiveComponent
