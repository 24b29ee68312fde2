import LiveComponent.Proofs.CompiledCode
import LiveComponent.Proofs.Workload

namespace LiveComponent

/-!
# Modules under their own addresses

A module is loaded under an address that is made of the hash of its code.  Whatever callers ask for, the
loader has every module under the address of its own code, every load that was started has the address of
such a code, and what a load leads to is what some code with its address exports.
-/

/-! ## Hashed texts -/

/-- The texts that are hashed for a call. -/
def Call.hashedTexts
    (config : Config)
    (fetcher : Option Fetcher) :
    Call → List Text
  | process request => Pipeline.hashedTexts config fetcher request
  | execute code _ => code :: (Specifier.rewriteImports config code).toOption.toList
  | acquire code => [code]
  | _ => []

/-- The texts that are hashed for the call that comes in with an event. -/
def Event.hashedTexts
    (config : Config)
    (fetcher : Option Fetcher) :
    Event → List Text
  | .called call => call.hashedTexts config fetcher
  | _ => []

/-- Code that may be executed is one of the texts, and so is the code that is loaded for it. -/
structure Text.Loadable (config : Config) (texts : List Text) (code : Text) : Prop where
  member :
    code ∈ texts
  resolved :
    ∀ resolvedCode, Specifier.rewriteImports config code = .ok resolvedCode → resolvedCode ∈ texts

/-! ## What is genuine -/

/-- Every module is one of the texts, under its own address. -/
def Loader.Genuine (texts : List Text) (loader : Loader) : Prop :=
  ∀ url code, loader.modules.get? url = some code → code ∈ texts ∧ url = (Handle.ofCode code).url

/-- Every load has the address of one of the texts and finds nothing but what this exports, and it is
joined under its own address. -/
structure Executor.Genuine (texts : List Text) (executor : Executor) : Prop where
  loads :
    ∀ load ∈ executor.loads, ∃ code ∈ texts, load.url = (Handle.ofCode code).url ∧
      ∀ found, load.outcome = some (.ok found) → Exports.ofText code = .ok found
  pending :
    ∀ url place, executor.pending.get? url = some place →
      ∃ load, executor.loads[place]? = some load ∧ load.url = url

/-- A call knows the texts that it works with, and waits for a load with the address of its own code. -/
def Stage.Genuine
    (config : Config)
    (fetcher : Option Fetcher)
    (texts : List Text)
    (loads : Client → List Load) :
    Stage → Prop
  | fresh call => call.hashedTexts config fetcher ⊆ texts
  | compile request source =>
    Pipeline.sourceOf fetcher request = .ok source ∧
      Pipeline.hashedTexts config fetcher request ⊆ texts
  | seek client _ code
  | adopt client _ code _
  | enter client _ code
  | conclude client code _ => code.Loadable config texts ∧ client.Compiles config fetcher code
  | join client _ code resolvedCode handle =>
    code.Loadable config texts ∧ client.Compiles config fetcher code ∧
      Specifier.rewriteImports config code = .ok resolvedCode ∧ handle = Handle.ofCode resolvedCode
  | wait client code execution =>
    code.Loadable config texts ∧ client.Compiles config fetcher code ∧
      Specifier.rewriteImports config code = .ok execution.resolvedCode ∧
      execution.handle = Handle.ofCode execution.resolvedCode ∧
      ∃ load, (loads client)[execution.load]? = some load ∧ load.url = execution.handle.url
  | release _ rest => rest.Genuine config fetcher texts loads
  | done _ => True

/-- The loader and the executors of a session are genuine. -/
structure Session.Genuine
    (config : Config)
    (fetcher : Option Fetcher)
    (texts : List Text)
    (session : Session) :
    Prop where
  configured :
    session.pipeline.config = config
  fetches :
    session.pipeline.fetcher = fetcher
  loader :
    session.cache.registry.loader.Genuine texts
  executors :
    ∀ client, (session.executorOf client).Genuine texts

variable
  {config : Config}
  {fetcher : Option Fetcher}
  {texts : List Text}
  {session : Session}

/-! ## Texts of calls -/

/-- With few texts nothing but equal texts have equal addresses. -/
theorem Text.CollisionFree.eq_of_url
    (collisionFree : Text.CollisionFree texts)
    {first second : Text}
    (firstMember : first ∈ texts)
    (secondMember : second ∈ texts)
    (same : (Handle.ofCode first).url = (Handle.ofCode second).url) :
    first = second := by
  apply collisionFree first firstMember second secondMember
  exact Handle.hash_of_url_eq same

/-- The code to which the source of a request is compiled may be executed. -/
theorem Pipeline.loadable_of_compile
    {request : SourceModule}
    {source compiledCode : Text}
    (found : sourceOf fetcher request = .ok source)
    (compiled : (compile config request source).2 = .ok compiledCode)
    (known : hashedTexts config fetcher request ⊆ texts) :
    compiledCode.Loadable config texts := by
  refine ⟨known ?_, fun resolvedCode resolved => known ?_⟩
  · simp [hashedTexts, found, compiled]
  · simp [hashedTexts, found, compiled, resolved, Except.toOption]

/-- The code that a caller asks to be executed may be executed. -/
theorem Call.loadable_execute
    {code : Text}
    {options : ExecuteOptions}
    (known : (Call.execute code options).hashedTexts config fetcher ⊆ texts) :
    code.Loadable config texts := by
  refine ⟨known ?_, fun resolvedCode resolved => known ?_⟩
  · simp [hashedTexts]
  · simp [hashedTexts, resolved, Except.toOption]

/-! ## Loaders -/

namespace Loader.Genuine

variable {loader after : Loader}

/-- A loader that forgets a module. -/
theorem release
    (genuine : loader.Genuine texts)
    (url : Text) :
    (loader.release url).Genuine texts := by
  intro other code found
  simp only [Loader.release, Table.get?_erase] at found
  split at found
  · cases found
  · exact genuine other code found

/-- A loader that is given another one of the texts. -/
theorem materialize
    {code : Text}
    {handle : Handle}
    (genuine : loader.Genuine texts)
    (member : code ∈ texts)
    (made : loader.materialize code = .ok (after, handle)) :
    after.Genuine texts := by
  obtain ⟨rfl, rfl⟩ := Loader.materialize_eq_ok made
  intro url other found
  dsimp only at found
  split at found
  · exact genuine url other found
  · rw [Table.get?_put] at found
    split at found
    next same =>
      cases found
      exact ⟨member, same.symm⟩
    · exact genuine url other found

/-- A registry that retains a handle keeps its modules. -/
theorem retain
    {registry retained : Registry}
    {url : Text}
    {kept : Bool}
    (genuine : registry.loader.Genuine texts)
    (same : registry.retain url = (retained, kept)) :
    retained.loader.Genuine texts := by
  obtain ⟨count, -, rfl, -⟩ | ⟨-, rfl, -⟩ := Registry.retain_eq same
  · exact genuine
  · exact genuine

/-- A registry that releases a handle forgets at most its module. -/
theorem releaseRegistry
    {registry : Registry}
    (genuine : registry.loader.Genuine texts)
    (url : Text) :
    (registry.release url).loader.Genuine texts := by
  unfold Registry.release
  split
  · exact genuine
  · split
    · exact genuine
    · exact genuine.release url

end Loader.Genuine

/-! ## Executors -/

namespace Executor.Genuine

variable {executor : Executor}

/-- An executor that starts the load of one of the texts. -/
theorem start
    {code : Text}
    (genuine : executor.Genuine texts)
    (member : code ∈ texts)
    (due : Nat) :
    Genuine texts
      ⟨executor.loads ++ [⟨(Handle.ofCode code).url, due, none⟩],
        executor.pending.put (Handle.ofCode code).url executor.loads.length⟩ where
  loads load loadMember := by
    rcases List.mem_append.mp loadMember with old | new
    · exact genuine.loads load old
    · obtain rfl := List.mem_singleton.mp new
      exact ⟨code, member, rfl, fun found ended => by cases ended⟩
  pending url place found := by
    rw [Table.get?_put] at found
    split at found
    next same =>
      cases found
      exact ⟨_, List.getElem?_concat_length, same⟩
    · obtain ⟨load, placed, same⟩ := genuine.pending url place found
      have within : place < executor.loads.length := (List.getElem?_eq_some_iff.mp placed).1
      exact ⟨load, by rw [List.getElem?_append_left within, placed], same⟩

/-- A load keeps its address when it ends. -/
theorem url_endLoad
    (loader : Loader)
    (now : Nat)
    (load : Load) :
    (endLoad loader now load).url = load.url := by
  unfold endLoad
  split <;> rfl

/-- Loads that are still joined when others have ended were joined before. -/
theorem get?_pending_endLoads
    {loader : Loader}
    {now place : Nat}
    {url : Text}
    (found : (executor.endLoads loader now).pending.get? url = some place) :
    executor.pending.get? url = some place := by
  let ended := if loader.breaks then []
    else (executor.loads.filter fun load => Load.endsBy load now).map Load.url
  have filtered := Table.get?_filter executor.pending (fun name => !ended.contains name) url
  have kept := filtered.symm.trans found
  split at kept
  · exact kept
  · cases kept

/-- Loads that end find the exports of the modules that the loader has. -/
theorem endLoads
    {loader : Loader}
    (genuine : executor.Genuine texts)
    (genuineLoader : loader.Genuine texts)
    (now : Nat) :
    (executor.endLoads loader now).Genuine texts where
  loads load member := by
    obtain ⟨original, originalMember, rfl⟩ := List.mem_map.mp member
    obtain ⟨code, codeMember, address, exported⟩ := genuine.loads original originalMember
    rw [url_endLoad]
    unfold endLoad
    split
    · cases found : loader.modules.get? original.url with
      | none =>
          refine ⟨code, codeMember, address, fun exports ended => ?_⟩
          simp only [Loader.load, found, Option.some.injEq] at ended
          split at ended <;> cases ended
      | some module =>
          obtain ⟨moduleMember, moduleAddress⟩ := genuineLoader _ module found
          refine ⟨module, moduleMember, moduleAddress, fun exports ended => ?_⟩
          simp only [Loader.load, found, Option.some.injEq] at ended
          split at ended
          · cases ended
          · exact ended
    · exact ⟨code, codeMember, address, exported⟩
  pending url place found := by
    obtain ⟨load, placed, same⟩ := genuine.pending url place (get?_pending_endLoads found)
    refine ⟨endLoad loader now load, ?_, (url_endLoad loader now load).trans same⟩
    simp [Executor.endLoads, placed]

/-- A load that found exports found those of the code whose address it has. -/
theorem ofText_of_outcome
    {code : Text}
    {place : Nat}
    {load : Load}
    {found : Exports}
    (collisionFree : Text.CollisionFree texts)
    (genuine : executor.Genuine texts)
    (member : code ∈ texts)
    (placed : executor.loads[place]? = some load)
    (address : load.url = (Handle.ofCode code).url)
    (ended : load.outcome = some (.ok found)) :
    Exports.ofText code = .ok found := by
  obtain ⟨other, otherMember, otherAddress, exported⟩ :=
    genuine.loads load (List.mem_of_getElem? placed)
  have same : other = code :=
    collisionFree.eq_of_url otherMember member (otherAddress.symm.trans address)
  rw [← same]
  exact exported found ended

end Executor.Genuine

/-! ## Stages and sessions -/

/-- What a call knows does not depend on loads that are added or end. -/
theorem Stage.Genuine.mono
    {loads more : Client → List Load}
    {stage : Stage}
    (genuine : stage.Genuine config fetcher texts loads)
    (kept :
      ∀ (client : Client) (place : Nat) (load : Load), (loads client)[place]? = some load →
        ∃ later : Load, (more client)[place]? = some later ∧ later.url = load.url) :
    stage.Genuine config fetcher texts more := by
  induction stage with
  | wait client code execution =>
      obtain ⟨loadable, compiles, resolved, handle, load, placed, same⟩ := genuine
      obtain ⟨later, placedLater, sameLater⟩ := kept client _ load placed
      exact ⟨loadable, compiles, resolved, handle, later, placedLater, sameLater.trans same⟩
  | release urls rest inductionHypothesis =>
      exact inductionHypothesis genuine
  | fresh | compile | seek | adopt | enter | join | conclude | done =>
      exact genuine

namespace Session.Genuine

/-- A changed cache with the same registry. -/
theorem withCache
    {cache : Cache}
    (genuine : session.Genuine config fetcher texts)
    (same : cache.registry = session.cache.registry) :
    (session.withCache cache).Genuine config fetcher texts where
  configured := genuine.configured
  fetches := genuine.fetches
  loader := by
    rw [cache_withCache, same]
    exact genuine.loader
  executors client := by
    rw [executorOf_withCache]
    exact genuine.executors client

/-- A registry over a genuine loader. -/
theorem withRegistry
    {registry : Registry}
    (genuine : session.Genuine config fetcher texts)
    (loader : registry.loader.Genuine texts) :
    (session.withRegistry registry).Genuine config fetcher texts where
  configured := genuine.configured
  fetches := genuine.fetches
  loader := loader
  executors client := by
    rw [Session.withRegistry, executorOf_withCache]
    exact genuine.executors client

/-- Another executor for a client. -/
theorem withExecutor
    {executor : Executor}
    (genuine : session.Genuine config fetcher texts)
    (genuineExecutor : executor.Genuine texts)
    (client : Client) :
    (session.withExecutor executor client).Genuine config fetcher texts where
  configured := by
    cases client <;> exact genuine.configured
  fetches := by
    cases client <;> exact genuine.fetches
  loader := by
    rw [cache_withExecutor]
    exact genuine.loader
  executors other := by
    have old := genuine.executors other
    cases client <;> cases other <;> first | exact genuineExecutor | exact old

/-- A pipeline that only told something. -/
theorem withPipeline
    {pipeline : Pipeline}
    (genuine : session.Genuine config fetcher texts)
    (same : session.pipeline.SameWork pipeline) :
    Genuine config fetcher texts { session with pipeline := pipeline } where
  configured := same.config.trans genuine.configured
  fetches := same.fetcher.trans genuine.fetches
  loader := by
    simp only [Session.cache, same.cache]
    exact genuine.loader
  executors client := by
    have old := genuine.executors client
    cases client with
    | request =>
        simp only [executorOf, same.executor]
        exact old
    | caller =>
        exact old

end Session.Genuine

end LiveComponent
