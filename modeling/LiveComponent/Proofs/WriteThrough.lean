import LiveComponent.Proofs.CacheStorage
import LiveComponent.Proofs.Punctuality

namespace LiveComponent

/-!
# Write-through

In a session that alone writes to its store, every step of a call leaves the cache written through.  So a
new cache over the store, opened at any point, has the durable entries of the session.
-/

/-! ## Steps of a call -/

namespace Session

variable {session : Session}

/-- A request begins with at most one lookup. -/
theorem use_begins
    {request : SourceModule}
    {outcome : Session × Stage × List Event}
    (begins : session.Begins request outcome) :
    session.cache.Use outcome.1.cache := by
  cases begins with
  | sourceless | blank | uncached =>
      exact .handles session.cache.registry
  | missed source change found solid reads missed =>
      have used : session.cache.Use _ := .lookUp session.moment.clock
        (Cache.keyFor request.provenance (sha256Hex source))
      rwa [missed] at used
  | hit source change entry found solid reads hit =>
      have used : session.cache.Use _ := .lookUp session.moment.clock
        (Cache.keyFor request.provenance (sha256Hex source))
      rwa [hit] at used

/-- Looking up a hash is at most one lookup of a key. -/
theorem use_lookedUpByOutputHash
    (cache : Cache)
    (now : Instant)
    (hash : Text) :
    cache.Use (cache.lookedUpByOutputHash now hash).1.cache := by
  obtain ⟨same, -⟩ | ⟨entry, -, -, lookup⟩ := Cache.lookedUpByOutputHash_eq cache now hash
  · rw [same]
    exact .handles cache.registry
  · rw [lookup]
    exact .lookUp now entry.key

/-- Reporting a result hands at most one artifact over. -/
theorem use_conclude
    (session : Session)
    (client : Client)
    (code : Text)
    (result : ExecutionResult) :
    session.cache.Use (session.conclude client code result).1.cache := by
  have unused : session.cache.Use session.cache := .handles session.cache.registry
  cases client with
  | caller =>
      exact unused
  | request request inputHash warnings =>
      cases result with
      | error failed =>
          have same := session.pipeline.sameWork_conclude_error session.moment.clock request
            inputHash code warnings failed
          have kept : (session.conclude (.request request inputHash warnings) code
              (.error failed)).1.cache = session.cache := same.cache
          rw [kept]
          exact unused
      | ok executed =>
          dsimp only [conclude, goOn, cache_withCache, Pipeline.kept]
          split
          · exact .take _ _ _
          · exact unused

/-- Every step of a call uses the cache at most once. -/
theorem use_step
    {stage : Stage}
    {outcome : Session × Stage × List Event}
    (stepped : stage.step session = some outcome) :
    session.cache.Use outcome.1.cache := by
  have unused : session.cache.Use session.cache := .handles session.cache.registry
  cases stage with
  | fresh call =>
      cases stepped
      cases call with
      | process request =>
          exact use_begins (session.begins_beginRequest request)
      | execute code options =>
          exact unused
      | get key =>
          exact .lookUp session.moment.clock key
      | getByOutputHash hash =>
          exact use_lookedUpByOutputHash session.cache session.moment.clock hash
      | put key artifact =>
          exact .take session.moment.clock key artifact
      | prune =>
          exact .prune
      | clear =>
          exact .clear
      | acquire code =>
          dsimp only [begin]
          split
          · exact unused
          · exact .handles _
      | retain url =>
          exact .handles _
      | release url =>
          exact .handles _
  | compile request code =>
      cases stepped
      unfold compileRequest
      split <;> exact unused
  | seek client options code =>
      cases stepped
      unfold seek
      split
      · exact use_lookedUpByOutputHash session.cache session.moment.clock (sha256Hex code)
      · exact unused
  | adopt client timeout code entry =>
      cases stepped
      exact .handles _
  | enter client timeout code =>
      cases stepped
      unfold enter
      split
      · exact unused
      · split
        · exact unused
        · exact .handles _
  | join client timeout code resolvedCode handle =>
      cases stepped
      unfold join
      rw [cache_withExecutor]
      exact .handles _
  | wait client code execution =>
      obtain rfl := resume_eq_some stepped
      exact unused
  | conclude client code result =>
      cases stepped
      exact use_conclude session client code result
  | release urls rest =>
      cases urls with
      | nil =>
          cases stepped
          exact unused
      | cons url urls =>
          cases stepped
          exact .handles _
  | done result =>
      cases stepped

end Session

/-! ## Runs -/

namespace Traffic

/-- Nobody else writes to the store: unless a call goes on, what lies on its shelf stays as it is. -/
def Exclusive (state : Traffic) (_ : List Event) (next : Traffic) : Prop :=
  state.calls = next.calls →
    next.session.cache.store.map Store.shelf = state.session.cache.store.map Store.shelf

/-- Whatever happens, the cache stays written through if nobody else writes to the store. -/
theorem isWrittenThrough_step
    {config : Config}
    {state next : Traffic}
    {events : List Event}
    (written : state.session.cache.IsWrittenThrough config)
    (step : Step state events next)
    (exclusive : Exclusive state events next) :
    next.session.cache.IsWrittenThrough config := by
  cases step with
  | call call entitled =>
      exact written
  | work before after stage rest session events place stepped =>
      exact written.use (Session.use_step stepped)
  | leave before after result place =>
      exact written
  | pass elapsed later =>
      exact written
  | tick clock =>
      exact written
  | storeChanges store present =>
      refine { written with present := fun _ => rfl, stored := fun on given same => ?_ }
      obtain rfl := Option.some.inj same
      obtain ⟨old, held⟩ := Option.isSome_iff_exists.mp present
      have shelves := exclusive rfl
      rw [held] at shelves
      have sameShelf : store.shelf = old.shelf := Option.some.inj shelves
      rw [sameShelf]
      exact written.stored on old held
  | loaderChanges delay offline breaks =>
      exact written.withRegistry _
  | reorder order same =>
      exact written.reorder same

/-- A cache that is written through stays so in every run in which nobody else writes to its store. -/
theorem isWrittenThrough_run
    {config : Config}
    {initial state : Traffic}
    {events : List Event}
    (start : initial.session.cache.IsWrittenThrough config)
    (run : RunUnder Exclusive initial events state) :
    state.session.cache.IsWrittenThrough config := by
  induction run with
  | nil =>
      exact start
  | snoc _ step exclusive inductionHypothesis =>
      exact isWrittenThrough_step inductionHypothesis step exclusive

/-- A call comes in and takes its first step. -/
theorem run_first
    {state : Traffic}
    (call : Call)
    {session : Session}
    {rest : Stage}
    {events : List Event}
    (entitled : ∀ url ∈ call.given, Handle.isEphemeral url → url ∈ state.owned)
    (stepped : (Stage.fresh call).step state.session = some (session, rest, events))
    (moves : Stage.fresh call ≠ rest) :
    RunUnder Exclusive state ([Event.called call] ++ events)
      ⟨session, state.calls ++ [rest], call.given.elim state.owned state.owned.erase⟩ := by
  have called : RunUnder Exclusive state _ _ := .single (.call state call entitled) fun _ => rfl
  refine called.trans (.single (.work _ state.calls [] (.fresh call) rest session events rfl stepped) ?_)
  intro same
  have last := List.append_cancel_left same
  exact absurd (List.cons.inj last).1 moves

/-- Write-through and reopening: in every state of a session that alone writes to its store, as long as
caching is on, the store has no document and the cache is empty, or its document decodes to the version of
the compiler and to the entries in their order, alike in everything but their places.  A new cache over
what then lies in the store, with the same configuration, has exactly the durable entries, in the same
order and alike in everything but their places, if the store refuses nothing.  The numbers of entries
have 64 bits, and their instants lie in known years. -/
theorem entries_written_through
    {config : Config}
    {fetcher : Option Fetcher}
    {loader : Loader}
    {store : Option Store}
    {moment : Moment}
    {session : Session}
    {events : List Event}
    {state : Traffic}
    (opened : Session.ofConfig config fetcher loader store moment = .ok session)
    (run : RunUnder Exclusive { session } events state)
    (on : state.session.cache.enabled = true)
    (storable : ∀ entry ∈ state.session.cache.entries, entry.IsStorable) :
    ∃ kept, state.session.cache.store = some kept ∧
      (kept.shelf.get config.persistenceKey = .ok none ∧ state.session.cache.entries = [] ∨
        ∃ text document,
          kept.shelf.get config.persistenceKey = .ok (some text) ∧
            CacheDocument.ofText? text = some document ∧
            document.version = config.compilerTag ∧
            document.entries.map CacheEntry.unplaced =
              (state.session.cache.entries.mergeSort Cache.isEarlier).map CacheEntry.unplaced) ∧
      ∀ registry,
        let reopened := Cache.ofStore config (some ⟨kept.shelf, []⟩) registry
        reopened.enabled = true ∧
          (reopened.entries.mergeSort Cache.isEarlier).map CacheEntry.unplaced =
            ((state.session.cache.entries.filter Cache.isDurable).mergeSort
              Cache.isEarlier).map CacheEntry.unplaced := by
  have start : session.cache.IsWrittenThrough config := by
    obtain ⟨-, rfl⟩ := Session.ofConfig_eq_ok.mp opened
    exact Cache.isWrittenThrough_ofStore config store { loader }
  have written : state.session.cache.IsWrittenThrough config :=
    isWrittenThrough_run start run
  obtain ⟨kept, present⟩ := Option.isSome_iff_exists.mp (written.present on)
  refine ⟨kept, present, written.mirrored on storable present, fun registry => ?_⟩
  obtain ⟨enabled, ordered, entries⟩ := written.reopen on storable present registry
  refine ⟨enabled, ?_⟩
  rw [Cache.mergeSort_of_ordered ordered, Cache.mergeSort_filter written.placed]
  exact entries

/-- Of two artifacts that were put, one with the handle of a module and one with a lasting address, the
store holds both, and a new cache over it has the second one. -/
theorem entries_written_through_of_puts :
    ∃ session events state kept document,
      Session.ofConfig {} none {} (some .empty) ⟨0, ⟨0, 0⟩⟩ = .ok session ∧
        RunUnder Exclusive { session } events state ∧
        state.session.cache.store = some kept ∧
        (∃ text,
          kept.shelf.get ({} : Config).persistenceKey = .ok (some text) ∧
            CacheDocument.ofText? text = some document) ∧
        document.entries.map CacheEntry.key = ["bound".toList, "lasting".toList] ∧
        ((Cache.ofStore {} (some ⟨kept.shelf, []⟩) {}).entries.mergeSort Cache.isEarlier).map
          CacheEntry.key = ["lasting".toList] := by
  let code : Text := "export default 1;"
  let artifact (url : Text) : Artifact :=
    ⟨code, [], [], ⟨0, 0⟩, [], some url, 17, [], none, none⟩
  let entry (key url : Text) (seq : Nat) : CacheEntry :=
    ⟨key, artifact url, ⟨0, 0⟩, ⟨0, 0⟩, 0, 17, seq⟩
  let bound : Text := (Handle.ofCode code).url
  let lasting : Text := "https://esm.sh/durable-widget"
  -- The session is hidden, so that only this step evaluates it.
  obtain ⟨session, registry, opened, acquired, on, entries⟩ :
      ∃ (session : Session) (registry : Registry),
        Session.ofConfig {} none {} (some .empty) ⟨0, ⟨0, 0⟩⟩ = .ok session ∧
          session.registry.acquire code = .ok (registry, Handle.ofCode code) ∧
          (let first := ({ session.cache with registry := registry }.taken session.moment.clock
            "bound" (artifact bound)).1.cache
          let last := (first.taken session.moment.clock "lasting" (artifact lasting)).1.cache
          last.enabled = true ∧ last.entries = [entry "bound" bound 0, entry "lasting" lasting 1]) :=
    ⟨_, _, Session.ofConfig_eq_ok.mpr ⟨by decide +kernel, rfl⟩, rfl, by decide +kernel⟩
  let held := session.withRegistry registry
  let handle := Handle.ofCode code
  have acquires : RunUnder Exclusive { session } _ ⟨held, [.done (.acquired (.ok handle))], []⟩ :=
    run_first (.acquire code) (fun url given => by cases given)
      (by simp only [Stage.step, Session.begin, acquired]; rfl) (fun same => by cases same)
  have leaves : RunUnder Exclusive ⟨held, [.done (.acquired (.ok handle))], []⟩ _
      ⟨held, [], [bound]⟩ :=
    .single (.leave _ [] [] (.acquired (.ok handle)) rfl) fun _ => rfl
  have puts : RunUnder Exclusive ⟨held, [], [bound]⟩ _ _ :=
    run_first (.put "bound" (artifact bound))
      (fun url given _ => by cases given; exact List.mem_cons_self) rfl (fun same => by cases same)
  have putsAgain := puts.trans
    (run_first (.put "lasting" (artifact lasting))
      (fun url given ephemeral => by cases given; exact absurd ephemeral (by decide +kernel)) rfl
      (fun same => by cases same))
  obtain ⟨events, state, run, on, entries⟩ :
      ∃ events state, RunUnder Exclusive { session } events state ∧
        state.session.cache.enabled = true ∧
        state.session.cache.entries = [entry "bound" bound 0, entry "lasting" lasting 1] :=
    ⟨_, _, (acquires.trans leaves).trans putsAgain, on, entries⟩
  have storable : ∀ entry ∈ state.session.cache.entries, entry.IsStorable := by
    have known : Instant.IsKnown ⟨0, 0⟩ := ⟨by decide +kernel, .inl (by decide)⟩
    have size : 17 < UInt64.size := by decide
    have none : 0 < UInt64.size := by decide
    rw [entries]
    intro other member
    rcases List.mem_cons.mp member with rfl | member
    · exact ⟨⟨known, size⟩, known, known, none, size, none⟩
    · rw [List.mem_singleton.mp member]
      exact ⟨⟨known, size⟩, known, known, none, size, by decide⟩
  obtain ⟨kept, present, stored, reopen⟩ := entries_written_through opened run on storable
  have sorted : state.session.cache.entries.mergeSort Cache.isEarlier =
      state.session.cache.entries := by
    rw [entries]
    exact List.mergeSort_of_pairwise (List.pairwise_pair.mpr rfl)
  have durable : state.session.cache.entries.filter Cache.isDurable =
      [entry "lasting" lasting 1] := by
    rw [entries]
    decide +kernel
  have keys {first second : List CacheEntry}
      (same : first.map CacheEntry.unplaced = second.map CacheEntry.unplaced) :
      first.map CacheEntry.key = second.map CacheEntry.key :=
    (CacheEntry.keys_eq_of_unplaced same).symm
  rcases stored with ⟨-, empty⟩ | ⟨text, document, found, read, -, same⟩
  · rw [entries] at empty
    cases empty
  · refine ⟨session, events, state, kept, document, opened, run, present, ⟨text, found, read⟩, ?_, ?_⟩
    · rw [keys same, sorted, entries]
      rfl
    · rw [keys (reopen {}).2, durable, List.mergeSort_singleton]
      rfl

end Traffic

end LiveComponent
