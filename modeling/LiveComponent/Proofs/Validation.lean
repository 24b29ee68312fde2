import LiveComponent.Proofs.LoadingTraffic

namespace LiveComponent

/-!
# Only validated modules are cached

As long as nobody puts anything else into the cache, every entry was stored for a request that succeeds,
and says about its module what the loaded code exports, even if it was made of another entry with the
same code.  The handle that a success tells is live when the request returns, unless others come between
the step that settles the answer and the return.
-/

/-! ## Validated artifacts -/

/-- The code of the artifact was loaded, and the artifact says about its module what this code yields. -/
def Artifact.IsValidated (config : Config) (artifact : Artifact) : Prop :=
  ∃ resolvedCode component,
    Pipeline.examined config artifact.compiledCode = .ok (resolvedCode, component) ∧
      artifact.outputHash = sha256Hex artifact.compiledCode ∧
      artifact.loadUrl = some (Handle.ofCode resolvedCode).url ∧
      artifact.byteSize = Text.byteSize resolvedCode ∧
      artifact.dependencies = Specifier.collect resolvedCode ∧
      artifact.componentExport = some component

/-- A successful answer to a request tells an artifact that stands under the key of the request. -/
structure Answer.Yields
    (config : Config)
    (fetcher : Option Fetcher)
    (request : SourceModule)
    (answer : Answer)
    (content : Text × Artifact) :
    Prop where
  success :
    answer.success = true
  artifact :
    answer.artifact = some content.2
  key :
    content.1 = Cache.keyFor request.provenance content.2.inputHash
  compiled :
    Pipeline.CompilesTo config fetcher request content.2.inputHash content.2.compiledCode

/-- The answer to a request that a call will return, once this is settled. -/
def Stage.answer? : Stage → Option (SourceModule × Answer)
  | release _ rest => rest.answer?
  | done (.answered request answer) => some (request, answer)
  | _ => none

/-- A request has been answered, or its answer is settled. -/
def Traffic.Settled
    (events : List Event)
    (state : Traffic)
    (request : SourceModule)
    (answer : Answer) :
    Prop :=
  .returned (.answered request answer) ∈ events ∨
    ∃ stage ∈ state.calls, stage.answer? = some (request, answer)

/-- A call puts nothing into the cache from outside, has found only validated entries, and has executed
its code with the result to which it leads. -/
def Stage.Validated (config : Config) (texts : List Text) : Stage → Prop
  | fresh call => ∀ key artifact, call ≠ .put key artifact
  | adopt _ _ code entry =>
    entry.artifact.IsValidated config ∧ entry.artifact.compiledCode ∈ texts ∧
      entry.artifact.outputHash = sha256Hex code
  | conclude _ code (.ok executed) => Pipeline.Agrees config code (.ok executed)
  | release _ rest => rest.Validated config texts
  | _ => True

/-- The cache has only validated entries. -/
def Session.HoldsValidated
    (config : Config)
    (texts : List Text)
    (session : Session) :
    Prop :=
  ∀ entry ∈ session.cache.entries,
    entry.artifact.IsValidated config ∧ entry.artifact.compiledCode ∈ texts

variable
  {config : Config}
  {fetcher : Option Fetcher}
  {texts : List Text}
  {session : Session}
  {held : List Text}

/-! ## What examined code leads to -/

namespace Pipeline

/-- Code leads to a component if its resolved code exports one. -/
theorem examined_eq_ok
    {compiledCode resolvedCode component : Text} :
    examined config compiledCode = .ok (resolvedCode, component) ↔
      ∃ found,
        Specifier.rewriteImports config compiledCode = .ok resolvedCode ∧
          Exports.ofText resolvedCode = .ok found ∧ found.component = .ok component := by
  unfold examined
  constructor
  · intro leads
    split at leads
    · cases leads
    · split at leads
      · cases leads
      · split at leads
        · cases leads
        · cases leads
          exact ⟨_, ‹_›, ‹_›, ‹_›⟩
  · rintro ⟨found, resolved, evaluated, chosen⟩
    simp [resolved, evaluated, chosen]

/-- The artifact of code that was executed with the right result is validated. -/
theorem isValidated_executedArtifact
    {compiledCode : Text}
    {executed : Executed}
    (agrees : Agrees config compiledCode (.ok executed))
    (pipeline : Pipeline)
    (clock : Instant)
    (request : SourceModule)
    (inputHash : Text) :
    (pipeline.executedArtifact clock request inputHash compiledCode executed).IsValidated config := by
  obtain ⟨leads, address, size, dependencies⟩ := agrees
  exact ⟨_, _, leads, rfl, congrArg some address, size, dependencies, rfl⟩

/-- The module of a validated artifact is the right result for its code. -/
theorem agrees_adopted
    {compiledCode url resolvedCode : Text}
    {entry : CacheEntry}
    (validated : entry.artifact.IsValidated config)
    (sameCode : entry.artifact.compiledCode = compiledCode)
    (holds : entry.artifact.loadUrl = some url)
    (resolved : Specifier.rewriteImports config entry.artifact.compiledCode = .ok resolvedCode) :
    Agrees config compiledCode
      (.ok
        { resolvedCode
          loadUrl := url
          componentExport := entry.artifact.componentExport.getD "default"
          byteSize := entry.artifact.byteSize
          dependencies := entry.artifact.dependencies
          cached := some entry }) := by
  obtain ⟨code, component, leads, -, address, size, dependencies, named⟩ := validated
  obtain ⟨found, resolvedBefore, -, -⟩ := examined_eq_ok.mp leads
  obtain rfl : code = resolvedCode := Except.ok.inj (resolvedBefore.symm.trans resolved)
  refine ⟨?_, Option.some.inj (holds.symm.trans address), size, dependencies⟩
  rw [← sameCode, leads, named]
  rfl

end Pipeline

/-! ## What the cache takes over -/

namespace Cache

variable {cache : Cache}

/-- A cache that is on after a call of the store has the entries that it had. -/
theorem entries_settled
    {outcome : Store × Except StoreFailure Unit}
    (on : (cache.settled outcome).cache.enabled = true) :
    (cache.settled outcome).cache.entries = cache.entries := by
  obtain ⟨store, result⟩ := outcome
  cases result with
  | ok =>
      rfl
  | error failure =>
      cases on

/-- A cache that is still on after it was written has the entries that it had. -/
theorem entries_persisted
    (on : cache.persisted.cache.enabled = true) :
    cache.persisted.cache.entries = cache.entries := by
  cases enabled : cache.enabled with
  | false =>
      simp [persisted, enabled]
  | true =>
      cases present : cache.store with
      | none =>
          simp [persisted, present]
      | some store =>
          have written : cache.persisted =
              cache.settled (store.set cache.persistenceKey cache.document.toText) := by
            simp [persisted, enabled, present]
          rw [written] at on ⊢
          exact entries_settled on

/-- A cache that is on takes over an artifact, evicts others and is written. -/
theorem taken_of_enabled
    (on : cache.enabled = true)
    (now : Instant)
    (key : Text)
    (artifact : Artifact) :
    (cache.taken now key artifact).1 =
      ((cache.replaced now key artifact).andThen fun cache =>
        cache.evicted (some key)).andThen persisted := by
  simp [taken, on]

/-- The cache holds what it took over exactly if it is still on. -/
theorem held_taken
    (now : Instant)
    (key : Text)
    (artifact : Artifact) :
    (cache.taken now key artifact).2 = (cache.taken now key artifact).1.cache.enabled := by
  unfold taken
  cases on : cache.enabled <;> simp [on]

/-- A cache that is still on has what it took over among its entries. -/
theorem mem_taken
    {now : Instant}
    {key : Text}
    {artifact : Artifact}
    (on : (cache.taken now key artifact).1.cache.enabled = true) :
    ∃ entry ∈ (cache.taken now key artifact).1.cache.entries, entry.content = (key, artifact) := by
  have before : cache.enabled = true := by
    by_contra off
    rw [Bool.not_eq_true] at off
    simp [taken, off] at on
  rw [taken_of_enabled before] at on ⊢
  refine ⟨⟨key, artifact, now, now, 0, artifact.byteSize, cache.nextSeq⟩, ?_, rfl⟩
  have stays : ((cache.replaced now key artifact).cache.evicted (some key)).cache.persisted.cache.entries =
      ((cache.replaced now key artifact).cache.evicted (some key)).cache.entries := entries_persisted on
  refine stays ▸ List.mem_filter.mpr ⟨by simp [replaced, insert], ?_⟩
  -- The entry is not evicted, since its key is protected.
  simp only [Bool.not_eq_true', List.any_eq_false, decide_eq_true_eq]
  intro victim member
  have sorted := (List.mergeSort_perm _ _).subset (List.mem_of_mem_take member)
  simpa using (List.mem_filter.mp sorted).2

/-- An entry that is found under a key is among the entries afterwards. -/
theorem mem_lookedUp
    {now : Instant}
    {key : Text}
    {entry : CacheEntry}
    (found : (cache.lookedUp now key).2 = some entry) :
    entry ∈ (cache.lookedUp now key).1.cache.entries := by
  obtain ⟨old, present, on, hit, rfl⟩ := lookedUp_eq_some found
  obtain ⟨member, same⟩ := mem_of_find? present
  rw [hit, entries_persisted on]
  exact List.mem_map.mpr ⟨old, member, if_pos same⟩

end Cache

/-- A pipeline that keeps an artifact for a request tells it as it is, or the cache afterwards has no
entry that it had not before. -/
theorem Pipeline.kept_cases
    {pipeline : Pipeline}
    (sound : pipeline.cache.Sound)
    (clock : Instant)
    (request : SourceModule)
    (artifact : Artifact) :
    (∃ entry ∈ (pipeline.kept clock request artifact).1.cache.entries,
        entry.content = (Cache.keyFor request.provenance artifact.inputHash, artifact)) ∧
        (pipeline.kept clock request artifact).2 = artifact ∨
      (∀ entry ∈ (pipeline.kept clock request artifact).1.cache.entries,
          entry ∈ pipeline.cache.entries) ∧
        (pipeline.kept clock request artifact).2 = { artifact with loadUrl := none } := by
  unfold kept
  split
  · let key := Cache.keyFor request.provenance artifact.inputHash
    have taken := Cache.sound_taken sound clock key artifact
    dsimp only
    rw [Cache.held_taken]
    cases on : (pipeline.cache.taken clock key artifact).1.cache.enabled with
    | true =>
        exact .inl ⟨Cache.mem_taken on, if_pos rfl⟩
    | false =>
        refine .inr ⟨fun entry member => ?_, if_neg (by simp)⟩
        rw [taken.cache.off on] at member
        cases member
  · exact .inr ⟨fun entry member => member, rfl⟩

/-! ## Steps of a call -/

namespace Session

/-- A step of a call after which the cache has only validated entries, each of them an old one or one
that the answer of the call tells. -/
structure LeavesValidated
    (config : Config)
    (fetcher : Option Fetcher)
    (texts : List Text)
    (session : Session)
    (outcome : Session × Stage × List Event) :
    Prop where
  holds :
    outcome.1.HoldsValidated config texts
  origin :
    ∀ entry ∈ outcome.1.cache.entries,
      entry.content ∈ session.cache.entries.map CacheEntry.content ∨
        ∃ request answer, outcome.2.1.answer? = some (request, answer) ∧
          answer.Yields config fetcher request entry.content
  stage :
    outcome.2.1.Validated config texts

/-- A changed cache with no new content has only validated entries. -/
theorem HoldsValidated.withChange
    {change : CacheChange}
    {after : Session}
    (holds : session.HoldsValidated config texts)
    (sound : CacheChange.Sound session.cache [] change)
    (same : after.cache = change.cache) :
    after.HoldsValidated config texts := by
  have given : ∀ content ∈ ([] : List (Text × Artifact)),
      content.2.IsValidated config ∧ content.2.compiledCode ∈ texts := List.forall_mem_nil _
  unfold HoldsValidated
  rw [same]
  refine sound.forall_content ?_ given
  exact holds

/-- A step that changes the cache and gives it nothing. -/
theorem LeavesValidated.of_change
    {change : CacheChange}
    {outcome : Session × Stage × List Event}
    (holds : session.HoldsValidated config texts)
    (sound : CacheChange.Sound session.cache [] change)
    (same : outcome.1.cache = change.cache)
    (stage : outcome.2.1.Validated config texts) :
    LeavesValidated config fetcher texts session outcome where
  holds := holds.withChange sound same
  origin entry member := by
    rw [same] at member
    have before := sound.origin entry member
    rw [List.append_nil] at before
    exact .inl before
  stage := stage

/-- A step that leaves the entries as they are. -/
theorem LeavesValidated.of_entries
    {outcome : Session × Stage × List Event}
    (holds : session.HoldsValidated config texts)
    (same : outcome.1.cache.entries = session.cache.entries)
    (stage : outcome.2.1.Validated config texts) :
    LeavesValidated config fetcher texts session outcome where
  holds := by
    unfold HoldsValidated
    rw [same]
    exact holds
  origin entry member := by
    rw [same] at member
    exact .inl (List.mem_map_of_mem member)
  stage := stage

/-- Beginning a request. -/
theorem leavesValidated_begins
    {request : SourceModule}
    {outcome : Session × Stage × List Event}
    (backs : session.Backs held)
    (holds : session.HoldsValidated config texts)
    (begins : session.Begins request outcome) :
    LeavesValidated config fetcher texts session outcome := by
  have looked (source : Text) := Cache.sound_lookedUp backs.cache backs.backed session.moment.clock
    (Cache.keyFor request.provenance (sha256Hex source))
  cases begins with
  | sourceless | blank | uncached =>
      exact .of_entries holds rfl trivial
  | missed source change found solid reads missed =>
      have sound := looked source
      rw [missed] at sound
      exact .of_change holds sound rfl trivial
  | hit source change entry found solid reads hit =>
      have sound := looked source
      rw [hit] at sound
      exact .of_change holds sound rfl trivial

/-- Looking for an entry with the same code. -/
theorem leavesValidated_seek
    (backs : session.Backs held)
    (holds : session.HoldsValidated config texts)
    (client : Client)
    (options : ExecuteOptions)
    (code : Text) :
    LeavesValidated config fetcher texts session (session.seek client options code) := by
  unfold seek
  split
  · refine .of_change holds (Cache.sound_lookedUpByOutputHash backs.cache backs.backed
      session.moment.clock (sha256Hex code)) rfl ?_
    dsimp only [goOn, Stage.Validated]
    split
    · trivial
    next entry found =>
      obtain ⟨old, member, hash, rfl⟩ := Cache.mem_of_lookedUpByOutputHash backs.cache found
      obtain ⟨validated, known⟩ := holds old member
      exact ⟨validated, known, hash⟩
  · exact .of_entries holds rfl trivial

/-- Taking another reference to the handle of an entry, whose code is the code of the call. -/
theorem leavesValidated_adopt
    {code : Text}
    {entry : CacheEntry}
    (collisionFree : Text.CollisionFree texts)
    (configured : session.pipeline.config = config)
    (holds : session.HoldsValidated config texts)
    (member : code ∈ texts)
    (validated : entry.artifact.IsValidated config)
    (known : entry.artifact.compiledCode ∈ texts)
    (hash : entry.artifact.outputHash = sha256Hex code)
    (client : Client)
    (timeout : Nat) :
    LeavesValidated config fetcher texts session (session.adopt client timeout code entry) := by
  have sameCode : entry.artifact.compiledCode = code := by
    obtain ⟨-, -, -, hashed, -⟩ := validated
    exact collisionFree _ known _ member (hashed.symm.trans hash)
  unfold adopt
  rw [configured]
  obtain same | ⟨url, resolvedCode, registry, kept, holdsUrl, resolved, retained, adopted⟩ :=
    Executor.adopt_cases config entry session.cache.registry
  · rw [same]
    exact .of_entries holds rfl trivial
  · rw [adopted]
    refine .of_entries holds rfl ?_
    cases kept with
    | true => exact Pipeline.agrees_adopted validated sameCode holdsUrl resolved
    | false => trivial

/-- Going on after a load whose outcome, if it found exports, are those of the resolved code. -/
theorem leavesValidated_resume
    {client : Client}
    {code : Text}
    {execution : Execution}
    {outcome : Session × Stage × List Event}
    (holds : session.HoldsValidated config texts)
    (resolved : Specifier.rewriteImports config code = .ok execution.resolvedCode)
    (handle : execution.handle = Handle.ofCode execution.resolvedCode)
    (exported :
      ∀ found, (session.executorOf client).outcome? execution.load = some (.ok found) →
        Exports.ofText execution.resolvedCode = .ok found)
    (resumed : session.resume client code execution = some outcome) :
    LeavesValidated config fetcher texts session outcome := by
  obtain rfl := resume_eq_some resumed
  refine .of_entries holds rfl ?_
  cases ended : (session.executorOf client).outcome? execution.load with
  | none =>
      trivial
  | some loaded =>
      cases loaded with
      | error failure =>
          trivial
      | ok found =>
          have agrees := Pipeline.agrees_resultOf resolved handle
          rw [exported found ended] at agrees
          dsimp only
          split
          next executed succeeded =>
            rw [succeeded] at agrees ⊢
            exact agrees
          next failed =>
            rw [failed]
            trivial

/-- Reporting the result of an execution. -/
theorem leavesValidated_conclude
    {client : Client}
    {code : Text}
    {result : ExecutionResult}
    (backs : session.Backs held)
    (holds : session.HoldsValidated config texts)
    (member : code ∈ texts)
    (compiles : client.Compiles config fetcher code)
    (agrees : (Stage.conclude client code result).Validated config texts) :
    LeavesValidated config fetcher texts session (session.conclude client code result) := by
  cases client with
  | caller =>
      exact .of_entries holds rfl trivial
  | request request inputHash warnings =>
      cases result with
      | error failed =>
          have same := session.pipeline.sameWork_conclude_error session.moment.clock request
            inputHash code warnings failed
          exact .of_entries holds (congrArg Cache.entries same.cache) trivial
      | ok executed =>
          let clock := session.moment.clock
          let artifact := session.pipeline.executedArtifact clock request inputHash code executed
          let kept := session.pipeline.kept clock request artifact
          have sound := session.pipeline.sound_kept backs.cache clock request artifact
          have validated : artifact.IsValidated config :=
            Pipeline.isValidated_executedArtifact agrees session.pipeline clock request inputHash
          have given : ∀ content ∈ [(Cache.keyFor request.provenance artifact.inputHash, artifact)],
              content.2.IsValidated config ∧ content.2.compiledCode ∈ texts := by
            intro content contentMember
            obtain rfl := List.mem_singleton.mp contentMember
            exact ⟨validated, member⟩
          refine ⟨sound.forall_content ?_ given, fun entry entryMember => ?_, trivial⟩
          · exact holds
          · rcases Pipeline.kept_cases backs.cache clock request artifact with
              ⟨-, told⟩ | ⟨old, -⟩
            · rcases List.mem_append.mp (sound.origin entry entryMember) with before | fresh
              · exact .inl before
              · have content := List.mem_singleton.mp fresh
                refine .inr ⟨request, .ofArtifact kept.2 warnings executed.cached.isSome, rfl, ?_⟩
                rw [content]
                exact ⟨rfl, congrArg some told, rfl, compiles⟩
            · exact .inl (List.mem_map_of_mem (old entry entryMember))

/-- Every step of a call. -/
theorem leavesValidated_step
    {stage : Stage}
    {outcome : Session × Stage × List Event}
    (collisionFree : Text.CollisionFree texts)
    (backs : session.Backs stage.held)
    (genuine : session.Genuine config fetcher texts)
    (genuineStage : stage.Genuine config fetcher texts session.loadsOf)
    (holds : session.HoldsValidated config texts)
    (validated : stage.Validated config texts)
    (stepped : stage.step session = some outcome) :
    LeavesValidated config fetcher texts session outcome := by
  cases stage with
  | fresh call =>
      cases stepped
      cases call with
      | process request =>
          exact leavesValidated_begins backs holds (session.begins_beginRequest request)
      | get key =>
          exact .of_change holds (Cache.sound_lookedUp backs.cache backs.backed _ key) rfl trivial
      | getByOutputHash hash =>
          exact .of_change holds (Cache.sound_lookedUpByOutputHash backs.cache backs.backed _ hash)
            rfl trivial
      | put key artifact =>
          exact absurd rfl (validated key artifact)
      | prune =>
          exact .of_change holds (Cache.sound_pruned backs.cache) rfl trivial
      | clear =>
          exact .of_change holds (Cache.sound_cleared session.cache) rfl trivial
      | acquire code =>
          dsimp only [begin]
          split <;> exact .of_entries holds rfl trivial
      | execute | retain | release =>
          exact .of_entries holds rfl trivial
  | compile request source =>
      cases stepped
      unfold compileRequest
      split <;> exact .of_entries holds rfl trivial
  | seek client options code =>
      cases stepped
      exact leavesValidated_seek backs holds client options code
  | adopt client timeout code entry =>
      cases stepped
      obtain ⟨valid, known, hash⟩ := validated
      exact leavesValidated_adopt collisionFree genuine.configured holds genuineStage.1.member valid
        known hash client timeout
  | enter client timeout code =>
      cases stepped
      unfold enter
      split
      · exact .of_entries holds rfl trivial
      · split <;> exact .of_entries holds rfl trivial
  | join client timeout code resolvedCode handle =>
      cases stepped
      refine .of_entries holds ?_ trivial
      unfold join
      simp
  | wait client code execution =>
      obtain ⟨loadable, -, resolved, handle, load, placed, address⟩ := genuineStage
      refine leavesValidated_resume holds resolved handle (fun found ended => ?_) stepped
      have outcome : load.outcome = some (.ok found) := by
        have loads : (session.executorOf client).loads[execution.load]? = some load := placed
        simpa [Executor.outcome?, loads] using ended
      exact (genuine.executors client).ofText_of_outcome collisionFree
        (loadable.resolved _ resolved) placed (address.trans (congrArg Handle.url handle)) outcome
  | conclude client code result =>
      cases stepped
      exact leavesValidated_conclude backs holds genuineStage.1.member genuineStage.2 validated
  | release urls rest =>
      cases urls with
      | nil =>
          cases stepped
          exact .of_entries holds rfl validated
      | cons url urls =>
          cases stepped
          exact .of_entries holds rfl validated
  | done result =>
      cases stepped

end Session

/-! ## Settled answers -/

/-- The module of a success that is settled is that of an entry. -/
def Session.Serves (session : Session) (stage : Stage) : Prop :=
  ∀ request answer, stage.answer? = some (request, answer) → answer.success = true →
    ∀ artifact ∈ answer.artifact, ∀ url ∈ artifact.loadUrl,
      url ∈ Cache.addresses session.cache.entries

namespace Session

/-- A request that is answered from the cache is served with an entry. -/
theorem serves_begins
    {request : SourceModule}
    {outcome : Session × Stage × List Event}
    (begins : session.Begins request outcome) :
    outcome.1.Serves outcome.2.1 := by
  cases begins with
  | sourceless | blank =>
      rintro asked answer ⟨⟩ success
      cases success
  | uncached | missed =>
      rintro asked answer ⟨⟩
  | hit source change entry found solid reads hit =>
      rintro asked answer ⟨⟩ success artifact ⟨⟩ url told
      have member := Cache.mem_lookedUp (congrArg Prod.snd hit)
      rw [hit] at member
      exact Cache.mem_addresses member told

/-- A request whose code was executed is served with the entry that keeps it, or with no handle. -/
theorem serves_conclude
    (backs : session.Backs held)
    (client : Client)
    (code : Text)
    (result : ExecutionResult) :
    (session.conclude client code result).1.Serves (session.conclude client code result).2.1 := by
  cases client with
  | caller =>
      rintro asked answer ⟨⟩
  | request request inputHash warnings =>
      cases result with
      | error failed =>
          let concluded := session.pipeline.conclude session.moment.clock request inputHash code
            warnings (.error failed)
          have failure : concluded.2.success = false := session.pipeline.success_conclude_error ..
          intro asked answer settled success
          have told : some (request, concluded.2) = some (asked, answer) := settled
          obtain ⟨-, rfl⟩ := Prod.mk.inj (Option.some.inj told)
          rw [failure] at success
          cases success
      | ok executed =>
          let clock := session.moment.clock
          let artifact := session.pipeline.executedArtifact clock request inputHash code executed
          let kept := session.pipeline.kept clock request artifact
          intro asked answer settled success told toldMember url address
          have answered : some (request, Answer.ofArtifact kept.2 warnings executed.cached.isSome) =
              some (asked, answer) := settled
          obtain ⟨-, rfl⟩ := Prod.mk.inj (Option.some.inj answered)
          obtain rfl : kept.2 = told := Option.some.inj toldMember
          rcases Pipeline.kept_cases backs.cache clock request artifact with
            ⟨⟨entry, member, content⟩, same⟩ | ⟨-, same⟩
          · have own : entry.artifact = kept.2 := (congrArg Prod.snd content).trans same.symm
            exact Cache.mem_addresses member (own ▸ address)
          · have none : kept.2.loadUrl = none := congrArg Artifact.loadUrl same
            rw [none] at address
            cases address

/-- The module of a success stays that of an entry until the request returns. -/
theorem serves_step
    {stage : Stage}
    {outcome : Session × Stage × List Event}
    (backs : session.Backs stage.held)
    (serves : session.Serves stage)
    (stepped : stage.step session = some outcome) :
    outcome.1.Serves outcome.2.1 := by
  cases stage with
  | fresh call =>
      cases stepped
      cases call with
      | process request =>
          exact serves_begins (session.begins_beginRequest request)
      | acquire code =>
          dsimp only [begin]
          split <;> rintro asked answer ⟨⟩
      | execute | get | getByOutputHash | put | prune | clear | retain | release =>
          rintro asked answer ⟨⟩
  | compile request source =>
      cases stepped
      unfold compileRequest
      split
      · rintro asked answer ⟨⟩ success
        cases success
      · rintro asked answer ⟨⟩
  | seek client options code =>
      cases stepped
      unfold seek
      split
      · dsimp only [goOn]
        split <;> rintro asked answer ⟨⟩
      · rintro asked answer ⟨⟩
  | adopt client timeout code entry =>
      cases stepped
      unfold adopt
      dsimp only
      split <;> rintro asked answer ⟨⟩
  | enter client timeout code =>
      cases stepped
      unfold enter
      split
      · rintro asked answer ⟨⟩
      · split <;> rintro asked answer ⟨⟩
  | join client timeout code resolvedCode handle =>
      cases stepped
      rintro asked answer ⟨⟩
  | wait client code execution =>
      obtain rfl := resume_eq_some stepped
      dsimp only
      split <;> rintro asked answer ⟨⟩
  | conclude client code result =>
      cases stepped
      exact serves_conclude backs client code result
  | release urls rest =>
      cases urls with
      | nil =>
          cases stepped
          exact serves
      | cons url urls =>
          cases stepped
          exact serves
  | done result =>
      cases stepped

end Session

/-! ## Runs -/

namespace Traffic

/-- Everything is genuine, and the cache and all calls on their way have only validated entries, each of
them for an answer that is settled. -/
structure Validated
    (config : Config)
    (fetcher : Option Fetcher)
    (texts : List Text)
    (events : List Event)
    (state : Traffic) :
    Prop where
  genuine :
    state.Genuine config fetcher texts
  holds :
    state.session.HoldsValidated config texts
  settled :
    ∀ entry ∈ state.session.cache.entries, ∃ request answer,
      state.Settled events request answer ∧ answer.Yields config fetcher request entry.content
  stages :
    ∀ stage ∈ state.calls, stage.Validated config texts

/-- An answer that is settled stays so until it is returned. -/
theorem Settled.afterStep
    {state next : Traffic}
    {events last : List Event}
    {request : SourceModule}
    {answer : Answer}
    (settled : state.Settled events request answer)
    (step : Step state last next) :
    next.Settled (events ++ last) request answer := by
  rcases settled with returned | ⟨stage, member, told⟩
  · exact .inl (List.mem_append_left _ returned)
  · cases step with
    | call call entitled =>
        exact .inr ⟨stage, List.mem_append_left _ member, told⟩
    | work before after worked stageAfter session events place stepped =>
        rw [place] at member
        rcases List.mem_append.mp member with early | late
        · exact .inr ⟨stage, List.mem_append_left _ early, told⟩
        · rcases List.mem_cons.mp late with rfl | late
          · refine .inr ⟨stageAfter, List.mem_append_right _ List.mem_cons_self, ?_⟩
            cases stage with
            | release urls rest =>
                cases urls <;> cases stepped <;> exact told
            | done result =>
                cases stepped
            | fresh | compile | seek | adopt | enter | join | wait | conclude =>
                cases told
          · exact .inr ⟨stage, List.mem_append_right _ (List.mem_cons_of_mem _ late), told⟩
    | leave before after result place =>
        rw [place] at member
        rcases List.mem_append.mp member with early | late
        · exact .inr ⟨stage, List.mem_append_left _ early, told⟩
        · rcases List.mem_cons.mp late with rfl | late
          · cases result with
            | answered asked given =>
                cases told
                exact .inl (List.mem_append_right _ (List.mem_singleton_self _))
            | executed | found | held | acquired | retained | finished =>
                cases told
          · exact .inr ⟨stage, List.mem_append_right _ late, told⟩
    | pass | tick | storeChanges | loaderChanges | reorder =>
        exact .inr ⟨stage, member, told⟩

/-- No caller puts anything into the cache. -/
def PutsNothing (events : List Event) : Prop :=
  ∀ key artifact, .called (.put key artifact) ∉ events

/-- Whatever happens, only validated entries are held. -/
theorem Validated.afterStep
    {state next : Traffic}
    {events last : List Event}
    (collisionFree : Text.CollisionFree texts)
    (validated : Validated config fetcher texts events state)
    (step : Step state last next)
    (hashes : Hashes config fetcher texts last)
    (putsNothing : PutsNothing last) :
    Validated config fetcher texts (events ++ last) next := by
  have genuine := validated.genuine.afterStep step hashes
  have settled : ∀ entry ∈ state.session.cache.entries, ∃ request answer,
      next.Settled (events ++ last) request answer ∧
        answer.Yields config fetcher request entry.content := by
    intro entry member
    obtain ⟨request, answer, before, yields⟩ := validated.settled entry member
    exact ⟨request, answer, before.afterStep step, yields⟩
  cases step with
  | call call entitled =>
      have called : (Stage.fresh call).Validated config texts := by
        rintro key artifact rfl
        exact putsNothing key artifact (List.mem_singleton_self _)
      exact ⟨genuine, validated.holds, settled,
        List.forall_mem_append.mpr ⟨validated.stages, List.forall_mem_singleton.mpr called⟩⟩
  | work before after stage stageAfter session events place stepped =>
      have here := mem_calls_of_place place
      have leaves := Session.leavesValidated_step collisionFree
        (validated.genuine.balanced.backs place) validated.genuine.session
        (validated.genuine.stages stage here) validated.holds (validated.stages stage here) stepped
      refine ⟨genuine, leaves.holds, fun entry member => ?_,
        forall_calls_replaced place validated.stages leaves.stage⟩
      rcases leaves.origin entry member with old | ⟨request, answer, told, yields⟩
      · obtain ⟨origin, originMember, same⟩ := List.mem_map.mp old
        rw [← same]
        exact settled origin originMember
      · exact ⟨request, answer,
          .inr ⟨stageAfter, List.mem_append_right _ List.mem_cons_self, told⟩, yields⟩
  | leave before after result place =>
      exact ⟨genuine, validated.holds, settled, forall_calls_left place validated.stages⟩
  | pass | tick | storeChanges | loaderChanges =>
      exact ⟨genuine, validated.holds, settled, validated.stages⟩
  | reorder order same =>
      exact ⟨genuine, fun entry member => validated.holds entry (same.subset member),
        fun entry member => settled entry (same.subset member), validated.stages⟩

/-- However much happens, only validated entries are held. -/
theorem validated_run
    {initial state : Traffic}
    {events : List Event}
    (collisionFree : Text.CollisionFree texts)
    (start : Validated config fetcher texts [] initial)
    (run : Run initial events state)
    (hashes : Hashes config fetcher texts events)
    (putsNothing : PutsNothing events) :
    Validated config fetcher texts events state := by
  induction run with
  | nil =>
      exact start
  | snoc _ step inductionHypothesis =>
      have middle := inductionHypothesis
        (fun event member => hashes event (List.mem_append_left _ member))
        (fun key artifact member => putsNothing key artifact (List.mem_append_left _ member))
      exact middle.afterStep collisionFree step
        (fun event member => hashes event (List.mem_append_right _ member))
        (fun key artifact member => putsNothing key artifact (List.mem_append_right _ member))

/-- While a call goes on without interruption, the books stay right and its success stays served. -/
theorem Balanced.serves_runs
    {allowed : Event → Prop}
    {before after : List Stage}
    {stage last : Stage}
    {session final : Session}
    {owned : List Text}
    (balanced : Balanced ⟨session, before ++ stage :: after, owned⟩)
    (serves : session.Serves stage)
    (runs : Stage.Runs allowed session stage final last) :
    Balanced ⟨final, before ++ last :: after, owned⟩ ∧ final.Serves last := by
  induction runs with
  | refl =>
      exact ⟨balanced, serves⟩
  | head stepped permitted rest inductionHypothesis =>
      have step : Step _ _ _ := .work ⟨_, _, owned⟩ before after _ _ _ _ rfl stepped
      exact inductionHypothesis (balanced_step balanced step).1
        (Session.serves_step (balanced.backs rfl) serves stepped)

/-- When a call whose answer was not settled goes on without interruption until it returns a success, the
handle that the success tells, if any, is live. -/
theorem Balanced.isLive_of_runs
    {allowed : Event → Prop}
    {state : Traffic}
    {before after : List Stage}
    {stage : Stage}
    {final : Session}
    {request : SourceModule}
    {answer : Answer}
    (balanced : Balanced state)
    (place : state.calls = before ++ stage :: after)
    (unsettled : stage.answer? = none)
    (runs : Stage.Runs allowed state.session stage final (.done (.answered request answer)))
    (success : answer.success = true) :
    ∀ artifact ∈ answer.artifact, ∀ url ∈ artifact.loadUrl, final.registry.isLive url = true := by
  have start : state.session.Serves stage := by
    intro asked told settled
    rw [unsettled] at settled
    cases settled
  obtain ⟨session, calls, owned⟩ := state
  subst place
  obtain ⟨balancedAfter, serves⟩ := balanced.serves_runs start runs
  intro artifact member url address
  exact balancedAfter.backed url (serves request answer rfl success artifact member url address)

/-- A new session over a loader without modules and a store without a document has only validated
entries. -/
theorem validated_ofConfig
    {loader : Loader}
    {store : Option Store}
    {moment : Moment}
    {session : Session}
    (fresh : loader.modules = [])
    (noDocument :
      ∀ given ∈ store, ∀ document, given.get config.persistenceKey ≠ .ok (some document))
    (opened : Session.ofConfig config fetcher loader store moment = .ok session) :
    Validated config fetcher texts [] { session } := by
  have genuine : Genuine config fetcher texts { session } := genuine_ofConfig fresh opened
  have empty : session.cache.entries = [] := by
    obtain ⟨-, rfl⟩ := Session.ofConfig_eq_ok.mp opened
    exact Cache.entries_ofStore noDocument { loader }
  refine ⟨genuine, fun entry member => ?_, fun entry member => ?_, List.forall_mem_nil _⟩
  · rw [empty] at member
    cases member
  · rw [empty] at member
    cases member

/-- Only validated modules are cached: whatever happens in a session that starts without entries, except
that callers put something else into the cache, each entry stems from a request that succeeds and stands
under its key.  It has the hash of its code, and it has the live address, the size, the specifiers and the
component of the module to which its code is resolved.  When a request returns a success and nobody comes
between the step that settled its answer and the return, the handle that this tells, if any, is live. -/
theorem validated_modules_cached
    {loader : Loader}
    {store : Option Store}
    {moment : Moment}
    {session : Session}
    {events : List Event}
    {state : Traffic}
    (fresh : loader.modules = [])
    (noDocument :
      ∀ given ∈ store, ∀ document, given.get config.persistenceKey ≠ .ok (some document))
    (opened : Session.ofConfig config fetcher loader store moment = .ok session)
    (run : Run { session } events state)
    (putsNothing : ∀ key artifact, .called (.put key artifact) ∉ events)
    (collisionFree : Text.CollisionFree (events.flatMap (Event.hashedTexts config fetcher))) :
    (∀ entry ∈ state.session.cache.entries,
      (∃ request answer,
        state.Settled events request answer ∧ answer.success = true ∧
          answer.artifact = some entry.artifact ∧
          entry.key = Cache.keyFor request.provenance entry.artifact.inputHash ∧
          Pipeline.CompilesTo config fetcher request entry.artifact.inputHash
            entry.artifact.compiledCode) ∧
      entry.artifact.outputHash = sha256Hex entry.artifact.compiledCode ∧
      ∃ resolvedCode found component,
        Specifier.rewriteImports config entry.artifact.compiledCode = .ok resolvedCode ∧
          Exports.ofText resolvedCode = .ok found ∧ found.component = .ok component ∧
          entry.artifact.loadUrl = some (Handle.ofCode resolvedCode).url ∧
          state.session.registry.isLive (Handle.ofCode resolvedCode).url = true ∧
          entry.artifact.byteSize = Text.byteSize resolvedCode ∧
          entry.artifact.dependencies = Specifier.collect resolvedCode ∧
          entry.artifact.componentExport = some component) ∧
    (∀ before after stage final request answer,
      state.calls = before ++ stage :: after → stage.answer? = none →
        Stage.Runs (fun _ => True) state.session stage final (.done (.answered request answer)) →
        answer.success = true →
        ∀ artifact ∈ answer.artifact, ∀ url ∈ artifact.loadUrl,
          final.registry.isLive url = true) := by
  have hashes : Hashes config fetcher (events.flatMap (Event.hashedTexts config fetcher)) events :=
    fun event member text textMember => List.mem_flatMap.mpr ⟨event, member, textMember⟩
  have validated := validated_run collisionFree (validated_ofConfig fresh noDocument opened) run
    hashes putsNothing
  have balanced := validated.genuine.balanced
  refine ⟨fun entry member => ?_, fun before after stage final request answer place unsettled runs
    success => balanced.isLive_of_runs place unsettled runs success⟩
  obtain ⟨⟨resolvedCode, component, leads, hash, address, size, dependencies, named⟩, -⟩ :=
    validated.holds entry member
  obtain ⟨found, resolved, evaluated, chosen⟩ := Pipeline.examined_eq_ok.mp leads
  obtain ⟨request, answer, settled, yields⟩ := validated.settled entry member
  have live : state.session.registry.isLive (Handle.ofCode resolvedCode).url = true :=
    balanced.backed _ (Cache.mem_addresses member address)
  exact ⟨⟨request, answer, settled, yields.success, yields.artifact, yields.key, yields.compiled⟩,
    hash, resolvedCode, found, component, resolved, evaluated, chosen, address, live, size,
    dependencies, named⟩

/-- A request that is repeated finds a validated entry, and the handle that it tells is live. -/
theorem validated_modules_cached_of_hit :
    ∃ session events state entry final request answer artifact url,
      Session.ofConfig {} none {} (some .empty) ⟨0, ⟨0, 0⟩⟩ = .ok session ∧
        Run { session } events state ∧
        entry ∈ state.session.cache.entries ∧
        entry.artifact.outputHash = sha256Hex entry.artifact.compiledCode ∧
        state.calls = [.fresh (.process request)] ∧
        Stage.Runs (fun _ => True) state.session (.fresh (.process request)) final
          (.done (.answered request answer)) ∧
        answer.success = true ∧ answer.artifact = some artifact ∧ artifact.loadUrl = some url ∧
        final.registry.isLive url = true := by
  let code : Text := "export default () => 1"
  let request : SourceModule := { code, provenance := .generated }
  let told (progress : Progress Answer Processing) : Option (Bool × Bool) :=
    (Session.requestStage request progress).answer?.map fun settled =>
      (settled.2.success, (settled.2.artifact.bind Artifact.loadUrl).isSome)
  -- The session is hidden, so that only this step evaluates it.
  obtain ⟨session, opened, answered, cached, hit⟩ :
      ∃ session : Session, Session.ofConfig {} none {} (some .empty) ⟨0, ⟨0, 0⟩⟩ = .ok session ∧
        (session.run [.process request]).2.map TaskResult.isTimeout = [false] ∧
        (session.run [.process request]).1.cache.entries.length = 1 ∧
        told ((session.run [.process request]).1.pipeline.start
          (session.run [.process request]).1.moment request).2 = some (true, true) :=
    ⟨_, Session.ofConfig_eq_ok.mpr ⟨by decide +kernel, rfl⟩, by decide +kernel⟩
  have collisionFree : Text.CollisionFree (Pipeline.hashedTexts {} none request) := by
    decide +kernel
  obtain ⟨first, alone⟩ := session.exists_answer request
  have inTime : (TaskResult.answered first).isTimeout = false := by
    simpa [alone] using answered
  obtain ⟨refusals, refused, run⟩ := run_process alone inTime
  let after := (session.run [.process request]).1
  have again : Step ⟨after, [], []⟩ [.called (.process request)]
      ⟨after, [.fresh (.process request)], []⟩ :=
    .call ⟨after, [], []⟩ (.process request) (fun url given => by cases given)
  obtain ⟨events, whole, kinds⟩ :
      ∃ events, Run { session } events ⟨after, [.fresh (.process request)], []⟩ ∧
        ∀ event ∈ events, event = .called (.process request) ∨ event = .refused ∨
          event = .returned (.answered request first) := by
    refine ⟨_, run.snoc again, fun event member => ?_⟩
    simp only [List.mem_append, List.mem_cons, List.not_mem_nil, or_false] at member
    rcases member with ((rfl | early) | rfl) | rfl
    · exact .inl rfl
    · exact .inr (.inl (refused event early))
    · exact .inr (.inr rfl)
    · exact .inl rfl
  have putsNothing (key : Text) (artifact : Artifact) : .called (.put key artifact) ∉ events := by
    intro member
    rcases kinds _ member with other | other | other <;> cases other
  have fewer : events.flatMap (Event.hashedTexts {} none) ⊆
      Pipeline.hashedTexts {} none request := by
    intro text member
    obtain ⟨event, eventMember, hashed⟩ := List.mem_flatMap.mp member
    rcases kinds event eventMember with rfl | rfl | rfl
    · exact hashed
    · cases hashed
    · cases hashed
  have noDocument : ∀ given ∈ some Store.empty, ∀ document,
      given.get ({} : Config).persistenceKey ≠ .ok (some document) := by
    rintro given ⟨⟩ document found
    cases found
  obtain ⟨entries, returns⟩ := validated_modules_cached rfl noDocument opened whole putsNothing
    (collisionFree.mono fewer)
  have runs : Stage.Runs (fun _ => True) after (.fresh (.process request)) _ _ :=
    (after.runs_process request).weaken fun _ _ => trivial
  obtain ⟨entry, member⟩ := List.exists_mem_of_length_pos (cached.symm ▸ Nat.one_pos :
    0 < after.cache.entries.length)
  cases started : (after.pipeline.start after.moment request).2 with
  | waiting rest =>
      rw [started] at hit
      cases hit
  | done answer =>
      rw [started] at hit runs
      have success : answer.success = true := congrArg Prod.fst (Option.some.inj hit)
      have holds : (answer.artifact.bind Artifact.loadUrl).isSome = true :=
        congrArg Prod.snd (Option.some.inj hit)
      obtain ⟨url, address⟩ := Option.isSome_iff_exists.mp holds
      obtain ⟨artifact, given, address⟩ := Option.bind_eq_some_iff.mp address
      exact ⟨session, _, _, entry, _, request, answer, artifact, url, opened, whole, member,
        (entries entry member).2.1, rfl, runs, success, given, address,
        returns [] [] _ _ request answer rfl rfl runs success artifact given url address⟩

end Traffic

/-! ## Interrupted returns -/

/-- A success that tells a handle which is not live in a session. -/
def TaskResult.tellsGone (session : Session) : TaskResult → Bool
  | answered answer =>
    answer.success && answer.artifact.any fun artifact =>
      artifact.loadUrl.any fun url => !session.registry.isLive url
  | executed _ => false

namespace Traffic

/-- A request returns a success that tells a handle, which is live no longer. -/
def LosesHandle (initial : Traffic) (events : List Event) : Prop :=
  ∃ state last request answer artifact url,
    Run initial events state ∧ Step state [.returned (.answered request answer)] last ∧
      answer.success = true ∧ answer.artifact = some artifact ∧ artifact.loadUrl = some url ∧
      last.session.registry.isLive url = false

/-- An answered task is a call that is over. -/
theorem exists_done
    {tasks : List Task}
    {progress : List TaskProgress}
    {stages : List Stage}
    {answer : Answer}
    (reached : Task.ReachAll tasks progress stages)
    (answered : .answered answer ∈ progress.filterMap Session.result?) :
    ∃ before request after, stages = before ++ .done (.answered request answer) :: after := by
  induction reached with
  | nil =>
      cases answered
  | @cons _ _ _ _ stage stages reaches _ inductionHypothesis =>
      have later
          (found : ∃ before request after,
            stages = before ++ .done (.answered request answer) :: after) :
          ∃ before request after,
            stage :: stages = before ++ .done (.answered request answer) :: after := by
        obtain ⟨before, request, after, rfl⟩ := found
        exact ⟨stage :: before, request, after, rfl⟩
      cases reaches with
      | answered request told =>
          rcases List.mem_cons.mp answered with same | rest
          · cases same
            exact ⟨[], request, stages, rfl⟩
          · exact later (inductionHypothesis rest)
      | executed _ _ result =>
          rcases List.mem_cons.mp answered with same | rest
          · cases same
          · exact later (inductionHypothesis rest)
      | processing | executing =>
          exact later (inductionHypothesis answered)

/-- What tasks were told while they ran can be wrong when they return: others went on meanwhile. -/
theorem losesHandle_of_tellsGone
    {initial : Traffic}
    {events : List Event}
    {session : Session}
    {tasks : List Task}
    {progress : List TaskProgress}
    {stages others : List Stage}
    {owned : List Text}
    {result : TaskResult}
    (run : Run initial events ⟨session, stages ++ others, owned⟩)
    (reached : Task.ReachAll tasks progress stages)
    (member : result ∈ progress.filterMap Session.result?)
    (gone : result.tellsGone session = true) :
    LosesHandle initial events := by
  cases result with
  | executed =>
      cases gone
  | answered answer =>
      obtain ⟨before, request, after, rfl⟩ := exists_done reached member
      rw [TaskResult.tellsGone, Bool.and_eq_true, Option.any_eq_true] at gone
      obtain ⟨success, artifact, given, gone⟩ := gone
      obtain ⟨url, address, gone⟩ := (Option.any_eq_true ..).mp gone
      have left := Step.leave ⟨session, (before ++ .done (.answered request answer) :: after) ++ others, owned⟩
        before (after ++ others) (.answered request answer) (by rw [List.append_assoc, List.cons_append])
      exact ⟨_, _, request, answer, artifact, url, run, left, success, given, address, by simpa using gone⟩

/-- A call that comes in while some tasks run is the call of one of them. -/
theorem called_of_allows
    {tasks : List Task}
    {results : List TaskResult}
    {events : List Event}
    {call : Call}
    (allowed : ∀ event ∈ events, TaskResult.allows results event)
    (member : .called call ∈ (tasks.map fun task => Event.called task.call) ++ events) :
    ∃ task ∈ tasks, task.call = call := by
  rcases List.mem_append.mp member with came | later
  · obtain ⟨task, taskMember, same⟩ := List.mem_map.mp came
    exact ⟨task, taskMember, Event.called.inj same⟩
  · rcases allowed _ later with refused | ⟨gaveUp, -⟩
    · cases refused
    · cases gaveUp

/-- If other calls come in between the step that settles an answer and the return, the handle that the
answer tells can be gone at the return: the cache is cleared, or a request that was started together with
one that finds its answer in the cache evicts the entry. -/
theorem handle_gone_at_return :
    ∃ session,
      Session.ofConfig { cacheCapacity := 1 } none {} (some .empty) ⟨0, ⟨0, 0⟩⟩ = .ok session ∧
        (∃ events, .called .clear ∈ events ∧
          (∀ call, .called call ∈ events → call = .clear ∨ ∃ request, call = .process request) ∧
          LosesHandle { session } events) ∧
        ∃ events, (∀ call, .called call ∈ events → ∃ request, call = .process request) ∧
          LosesHandle { session } events := by
  let first : SourceModule := { code := "export default () => 1".toList, provenance := .generated }
  let second : SourceModule := { code := "export default () => 2".toList, provenance := .generated }
  -- The session is hidden, so that only this step evaluates it.
  obtain ⟨session, opened, cleared, answered, evicted⟩ :
      ∃ session : Session,
        Session.ofConfig { cacheCapacity := 1 } none {} (some .empty) ⟨0, ⟨0, 0⟩⟩ = .ok session ∧
          ((session.run [.process first]).2.any fun result =>
            result.tellsGone ((session.run [.process first]).1.withCache
              (session.run [.process first]).1.cache.cleared.carryOut)) = true ∧
          (session.run [.process first]).2.map TaskResult.isTimeout = [false] ∧
          (((session.run [.process first]).1.run [.process first, .process second]).2.any fun result =>
            result.tellsGone
              ((session.run [.process first]).1.run [.process first, .process second]).1) = true :=
    ⟨_, Session.ofConfig_eq_ok.mpr ⟨by decide +kernel, rfl⟩, by decide +kernel⟩
  refine ⟨session, opened, ?_, ?_⟩
  · obtain ⟨progress, stages, events, results, reached, allowed, run⟩ :=
      run_tasks session [.process first] []
    let after := (session.run [.process first]).1
    have called : Step ⟨after, stages, []⟩ [.called .clear] ⟨after, stages ++ [.fresh .clear], []⟩ :=
      .call ⟨after, stages, []⟩ .clear (fun url given => by cases given)
    have begun : (Stage.fresh .clear).step after =
        some (after.goOn after.cache.cleared (.done .finished)) := rfl
    obtain ⟨refusals, refused, steps⟩ :=
      (Session.runs_goOn begun).toPunctual (.inl (by simp)) stages [] []
    obtain ⟨result, member, gone⟩ := List.any_eq_true.mp cleared
    rw [results] at member
    refine ⟨_, ?_, fun call came => ?_,
      losesHandle_of_tellsGone ((run.toRun.snoc called).trans steps.toRun) reached member gone⟩
    · exact List.mem_append_left _ (List.mem_append_right _ (List.mem_singleton_self _))
    · rcases List.mem_append.mp came with early | late
      · rcases List.mem_append.mp early with started | same
        · obtain ⟨task, taskMember, rfl⟩ := called_of_allows allowed started
          obtain rfl := List.mem_singleton.mp taskMember
          exact .inr ⟨first, rfl⟩
        · exact .inl (Event.called.inj (List.mem_singleton.mp same))
      · cases refused _ late
  · obtain ⟨told, alone⟩ := session.exists_answer first
    have inTime : (TaskResult.answered told).isTimeout = false := by
      simpa [alone] using answered
    obtain ⟨refusals, refused, before⟩ := run_process alone inTime
    obtain ⟨progress, stages, events, results, reached, allowed, run⟩ :=
      run_tasks (session.run [.process first]).1 [.process first, .process second] []
    obtain ⟨result, member, gone⟩ := List.any_eq_true.mp evicted
    rw [results] at member
    rw [← List.append_nil stages] at run
    refine ⟨_, fun call came => ?_, losesHandle_of_tellsGone (before.trans run.toRun) reached member gone⟩
    rcases List.mem_append.mp came with early | late
    · simp only [List.mem_append, List.mem_cons, List.not_mem_nil, or_false] at early
      rcases early with (same | member) | other
      · exact ⟨first, Event.called.inj same⟩
      · cases refused _ member
      · cases other
    · obtain ⟨task, taskMember, rfl⟩ := called_of_allows allowed late
      rcases List.mem_pair.mp taskMember with rfl | rfl
      · exact ⟨first, rfl⟩
      · exact ⟨second, rfl⟩

end Traffic
end LiveComponent
