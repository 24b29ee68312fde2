import LiveComponent.Proofs.SingleFlight

namespace LiveComponent

/-!
# Loads that linger

A load that ends can no longer be joined, and the next execution of its code starts another one, unless it
broke down.  A load that broke down is joined for the rest of the run, so all later executions of its code
fail as it did.
-/

/-- A load that has not ended, or that broke down. -/
def Load.Lingers (load : Load) : Prop :=
  load.outcome = none ∨ load.outcome = some (.error Executor.breakdown)

/-- Exactly the loads that linger are joined, each under its own address. -/
structure Executor.JoinsLingering (executor : Executor) : Prop where
  joined :
    ∀ place load, executor.loads[place]? = some load → load.Lingers →
      executor.pending.get? load.url = some place
  lingering :
    ∀ url place, executor.pending.get? url = some place →
      ∃ load, executor.loads[place]? = some load ∧ load.url = url ∧ load.Lingers

/-- Both executors of a session join exactly the loads that linger. -/
def Session.JoinsLingering (session : Session) : Prop :=
  ∀ client, (session.executorOf client).JoinsLingering

/-! ## Loads that end -/

/-- No module leads to what a load that broke down leads to. -/
theorem Loader.load_ne_breakdown
    (loader : Loader)
    (url : Text) :
    loader.load url ≠ .error Executor.breakdown := by
  have wording {reason : Text} (same : Failure.executionValidation reason = Executor.breakdown) :
      reason.take 8 = "module l".toList := by
    rw [Failure.executionValidation.inj same]
    rfl
  intro broke
  unfold load at broke
  split at broke
  · unfold Exports.ofText at broke
    split at broke
    · unfold Exports.ofTree at broke
      split at broke
      · have same := wording (Except.error.inj broke)
        simp at same
      · cases broke
    · have same := wording (Except.error.inj broke)
      simp at same
  · have same := wording (Except.error.inj broke)
    simp at same

namespace Executor

variable
  {loader : Loader}
  {now : Nat}
  {executor : Executor}

/-- A load lingers after a while if it did before, and did not end meanwhile without breaking down. -/
theorem lingers_endLoad
    {load : Load} :
    (endLoad loader now load).Lingers ↔
      load.Lingers ∧ (loader.breaks = false → Load.endsBy load now = false) := by
  unfold endLoad
  cases ends : Load.endsBy load now with
  | false =>
      simp
  | true =>
      have isOpen : load.outcome = none := by
        simp only [Load.endsBy, Bool.and_eq_true, Option.isNone_iff_eq_none] at ends
        exact ends.1
      cases loader.breaks with
      | false =>
          simp [LiveComponent.Load.Lingers, loader.load_ne_breakdown]
      | true =>
          simp [LiveComponent.Load.Lingers, isOpen]

/-- After a while loads are joined as before, unless they ended without breaking down. -/
theorem get?_pending_endLoads
    {place : Nat}
    {url : Text} :
    (executor.endLoads loader now).pending.get? url = some place ↔
      executor.pending.get? url = some place ∧
        (loader.breaks = false →
          ∀ load ∈ executor.loads, load.url = url → Load.endsBy load now = false) := by
  cases steady : loader.breaks with
  | false =>
      simpa using SingleFlight.get?_pending_endLoads steady
  | true =>
      have unchanged : (executor.endLoads loader now).pending = executor.pending := by
        simp [endLoads, steady]
      simp [unchanged]

namespace JoinsLingering

/-- A load is started under an address that no load can be joined under. -/
theorem start
    {url : Text}
    (joins : executor.JoinsLingering)
    (unjoined : executor.pending.get? url = none)
    (due : Nat) :
    JoinsLingering
      ⟨executor.loads ++ [⟨url, due, none⟩], executor.pending.put url executor.loads.length⟩ where
  joined place load placed lingers := by
    rw [Table.get?_put]
    rcases Nat.lt_or_ge place executor.loads.length with old | new
    · rw [List.getElem?_append_left old] at placed
      have before := joins.joined place load placed lingers
      split
      next same =>
        rw [← same, unjoined] at before
        cases before
      · exact before
    · have within := (List.getElem?_eq_some_iff.mp placed).1
      rw [List.length_append, List.length_singleton] at within
      obtain rfl : place = executor.loads.length := by omega
      rw [List.getElem?_concat_length] at placed
      cases placed
      exact if_pos rfl
  lingering other place found := by
    rw [Table.get?_put] at found
    split at found
    next same =>
      cases found
      exact ⟨_, List.getElem?_concat_length, same, .inl rfl⟩
    · obtain ⟨load, placed, same, lingers⟩ := joins.lingering other place found
      have within : place < executor.loads.length := (List.getElem?_eq_some_iff.mp placed).1
      exact ⟨load, by rw [List.getElem?_append_left within, placed], same, lingers⟩

/-- Loads that end are no longer joined, unless they break down. -/
theorem endLoads
    (joins : executor.JoinsLingering)
    (loader : Loader)
    (now : Nat) :
    (executor.endLoads loader now).JoinsLingering where
  joined place load placed lingers := by
    have mapped : (executor.loads.map (endLoad loader now))[place]? = some load := placed
    rw [List.getElem?_map] at mapped
    obtain ⟨original, placedBefore, rfl⟩ := Option.map_eq_some_iff.mp mapped
    obtain ⟨lingered, early⟩ := lingers_endLoad.mp lingers
    rw [Genuine.url_endLoad]
    have here := joins.joined place original placedBefore lingered
    refine Executor.get?_pending_endLoads.mpr ⟨here, fun steady other member same => ?_⟩
    by_contra overdue
    -- A load that is overdue and has the same address would be joined in the same place.
    have isOpen : other.outcome = none := by
      simp only [Load.endsBy, Bool.not_eq_false, Bool.and_eq_true, Option.isNone_iff_eq_none] at overdue
      exact overdue.1
    obtain ⟨index, placedOther⟩ := List.getElem?_of_mem member
    have there := joins.joined index other placedOther (.inl isOpen)
    rw [same, here] at there
    cases there
    rw [placedBefore] at placedOther
    cases placedOther
    exact overdue (early steady)
  lingering url place found := by
    obtain ⟨before, still⟩ := Executor.get?_pending_endLoads.mp found
    obtain ⟨load, placed, same, lingers⟩ := joins.lingering url place before
    refine ⟨endLoad loader now load, ?_, (Genuine.url_endLoad _ _ _).trans same,
      lingers_endLoad.mpr ⟨lingers, fun steady => still steady load (List.mem_of_getElem? placed) same⟩⟩
    exact (List.getElem?_map ..).trans (congrArg (Option.map _) placed)

/-- An address can be joined exactly if one of its loads lingers. -/
theorem get?_pending_iff
    (joins : executor.JoinsLingering)
    (url : Text) :
    executor.pending.get? url ≠ none ↔ ∃ load ∈ executor.loads, load.url = url ∧ load.Lingers := by
  constructor
  · intro found
    obtain ⟨place, found⟩ := Option.ne_none_iff_exists'.mp found
    obtain ⟨load, placed, address, lingers⟩ := joins.lingering url place found
    exact ⟨load, List.mem_of_getElem? placed, address, lingers⟩
  · rintro ⟨load, member, rfl, lingers⟩
    obtain ⟨place, placed⟩ := List.getElem?_of_mem member
    rw [joins.joined place load placed lingers]
    exact Option.some_ne_none place

/-- All loads that can be joined are on their way exactly if no load broke down. -/
theorem unended_iff
    (joins : executor.JoinsLingering) :
    (∀ url, executor.pending.get? url ≠ none →
        ∃ load ∈ executor.loads, load.url = url ∧ load.outcome = none) ↔
      ∀ load ∈ executor.loads, load.outcome ≠ some (.error breakdown) := by
  constructor
  · intro unended load member broke
    obtain ⟨place, placed⟩ := List.getElem?_of_mem member
    have here := joins.joined place load placed (.inr broke)
    obtain ⟨other, otherMember, same, isOpen⟩ := unended load.url (by simp [here])
    obtain ⟨index, placedOther⟩ := List.getElem?_of_mem otherMember
    have there := joins.joined index other placedOther (.inl isOpen)
    rw [same, here] at there
    cases there
    rw [placed] at placedOther
    cases placedOther
    rw [isOpen] at broke
    cases broke
  · intro sound url found
    obtain ⟨load, member, address, lingers⟩ := (joins.get?_pending_iff url).mp found
    exact ⟨load, member, address, lingers.resolve_right (sound load member)⟩

end JoinsLingering

end Executor

/-! ## Steps -/

namespace Session

variable {session : Session}

/-- Beginning a request changes no executor. -/
theorem executorOf_begins
    {request : SourceModule}
    {outcome : Session × Stage × List Event}
    (begins : session.Begins request outcome)
    (client : Client) :
    outcome.1.executorOf client = session.executorOf client := by
  cases begins <;> cases client <;> rfl

/-- Only a call that joins a load changes an executor. -/
theorem executorOf_step
    {stage : Stage}
    {outcome : Session × Stage × List Event}
    (stepped : stage.step session = some outcome)
    (client : Client) :
    outcome.1.executorOf client = session.executorOf client ∨
      ∃ joining timeout code resolvedCode handle,
        stage = .join joining timeout code resolvedCode handle ∧
          outcome = session.join joining timeout code resolvedCode handle := by
  cases stage with
  | join joining timeout code resolvedCode handle =>
      cases stepped
      exact .inr ⟨joining, timeout, code, resolvedCode, handle, rfl, rfl⟩
  | fresh call =>
      cases stepped
      refine .inl ?_
      cases call with
      | process request =>
          exact executorOf_begins (session.begins_beginRequest request) client
      | acquire code =>
          dsimp only [Stage.step, begin]
          split
          · rfl
          · exact executorOf_withCache session _ client
      | execute | get | getByOutputHash | put | prune | clear | retain | release =>
          cases client <;> rfl
  | compile request code =>
      cases stepped
      unfold compileRequest
      split
      · cases client <;> exact .inl rfl
      · exact .inl rfl
  | seek seeking options code =>
      cases stepped
      unfold seek
      split <;> cases client <;> exact .inl rfl
  | adopt =>
      cases stepped
      cases client <;> exact .inl rfl
  | enter entering timeout code =>
      cases stepped
      unfold enter
      split
      · exact .inl rfl
      · split
        · exact .inl rfl
        · exact .inl (executorOf_withCache session _ client)
  | wait waiting code execution =>
      obtain rfl := resume_eq_some stepped
      exact .inl rfl
  | conclude concluding code result =>
      cases stepped
      refine .inl ?_
      cases concluding with
      | caller =>
          rfl
      | request request inputHash warnings =>
          cases result with
          | ok executed =>
              cases client <;> rfl
          | error failed =>
              have same := session.pipeline.sameWork_conclude_error session.moment.clock request
                inputHash code warnings failed
              cases client with
              | request => exact same.executor
              | caller => rfl
  | release urls rest =>
      cases urls with
      | nil =>
          cases stepped
          exact .inl rfl
      | cons url urls =>
          cases stepped
          exact .inl (executorOf_withCache session _ client)
  | done result =>
      cases stepped

/-- A call joins the load of its address if one can be joined, and starts one otherwise. -/
theorem join_cases
    (session : Session)
    (client : Client)
    (timeout : Nat)
    (code resolvedCode : Text)
    (handle : Handle) :
    (∃ place, (session.executorOf client).pending.get? handle.url = some place ∧
        session.join client timeout code resolvedCode handle =
          (session,
            .wait client code
              ⟨resolvedCode, handle, place, timeout, session.moment.elapsed + timeout⟩, [])) ∨
      ((session.executorOf client).pending.get? handle.url = none ∧
        (session.join client timeout code resolvedCode handle).1.executorOf client =
          ⟨session.loadsOf client ++
              [⟨handle.url, session.moment.elapsed + session.loader.delay, none⟩],
            (session.executorOf client).pending.put handle.url (session.loadsOf client).length⟩) := by
  unfold join
  obtain ⟨place, joined, same⟩ | ⟨unjoined, started⟩ :=
    Executor.await_cases timeout session.moment.elapsed resolvedCode handle
      session.cache.registry (session.executorOf client)
  · rw [same]
    refine .inl ⟨place, joined, ?_⟩
    cases client <;> rfl
  · rw [started]
    refine .inr ⟨unjoined, ?_⟩
    cases client <;> rfl

/-- A call that joins a load leaves the other executor as it is. -/
theorem executorOf_join_cases
    (session : Session)
    (joining : Client)
    (timeout : Nat)
    (code resolvedCode : Text)
    (handle : Handle)
    (client : Client) :
    let after := (session.join joining timeout code resolvedCode handle).1
    after.executorOf client = session.executorOf client ∨
      after.executorOf client = after.executorOf joining ∧
        session.executorOf client = session.executorOf joining := by
  unfold join
  cases joining <;> cases client <;> first | exact .inl rfl | exact .inr ⟨rfl, rfl⟩

/-- No step of a call lets a load linger that cannot be joined, or the other way round. -/
theorem JoinsLingering.afterStep
    {stage : Stage}
    {outcome : Session × Stage × List Event}
    (joins : session.JoinsLingering)
    (stepped : stage.step session = some outcome) :
    outcome.1.JoinsLingering := by
  intro client
  obtain same | ⟨joining, timeout, code, resolvedCode, handle, rfl, rfl⟩ := executorOf_step stepped client
  · rw [same]
    exact joins client
  · obtain other | ⟨own, -⟩ :=
      session.executorOf_join_cases joining timeout code resolvedCode handle client
    · rw [other]
      exact joins client
    · rw [own]
      obtain ⟨place, -, joined⟩ | ⟨unjoined, started⟩ :=
        session.join_cases joining timeout code resolvedCode handle
      · rw [joined]
        exact joins joining
      · rw [started]
        exact (joins joining).start unjoined _

/-- A load that has ended stays in its place during a step of a call. -/
theorem loadsOf_step
    {stage : Stage}
    {outcome : Session × Stage × List Event}
    {client : Client}
    {place : Nat}
    {load : Load}
    (stepped : stage.step session = some outcome)
    (placed : (session.loadsOf client)[place]? = some load) :
    (outcome.1.loadsOf client)[place]? = some load := by
  obtain same | ⟨joining, timeout, code, resolvedCode, handle, rfl, rfl⟩ := executorOf_step stepped client
  · rw [loadsOf, same]
    exact placed
  · obtain other | ⟨own, before⟩ :=
      session.executorOf_join_cases joining timeout code resolvedCode handle client
    · rw [loadsOf, other]
      exact placed
    · rw [loadsOf, before] at placed
      rw [loadsOf, own]
      obtain ⟨index, -, joined⟩ | ⟨-, started⟩ :=
        session.join_cases joining timeout code resolvedCode handle
      · rw [joined]
        exact placed
      · rw [started]
        exact (List.getElem?_append_left (List.getElem?_eq_some_iff.mp placed).1).trans placed

end Session

namespace Traffic

variable {state next : Traffic}

/-- Whatever happens, exactly the loads that linger can be joined. -/
theorem joinsLingering_step
    {events : List Event}
    (joins : state.session.JoinsLingering)
    (step : Step state events next) :
    next.session.JoinsLingering := by
  cases step with
  | call | leave =>
      exact joins
  | work before after stage stageAfter session events place stepped =>
      exact joins.afterStep stepped
  | pass elapsed later =>
      intro client
      have ended := (joins client).endLoads state.session.loader elapsed
      cases client <;> exact ended
  | tick | storeChanges | loaderChanges | reorder =>
      intro client
      have same := joins client
      cases client <;> exact same

/-- A load that has ended stays as it is. -/
theorem loadsOf_step
    {events : List Event}
    {client : Client}
    {place : Nat}
    {load : Load}
    (placed : (state.session.loadsOf client)[place]? = some load)
    (ended : load.outcome ≠ none)
    (step : Step state events next) :
    (next.session.loadsOf client)[place]? = some load := by
  cases step with
  | call | leave =>
      exact placed
  | work before after stage stageAfter session events split stepped =>
      exact Session.loadsOf_step stepped placed
  | pass elapsed later =>
      have kept : Executor.endLoad state.session.loader elapsed load = load := by
        unfold Executor.endLoad
        rw [if_neg]
        simp [Executor.Load.endsBy, ended]
      have mapped : ((state.session.loadsOf client).map
          (Executor.endLoad state.session.loader elapsed))[place]? = some load := by
        rw [List.getElem?_map, placed, Option.map_some, kept]
      cases client <;> exact mapped
  | tick | storeChanges | loaderChanges | reorder =>
      cases client <;> exact placed

/-- However much happens, exactly the loads that linger can be joined. -/
theorem joinsLingering_run
    {initial : Traffic}
    {events : List Event}
    (joins : initial.session.JoinsLingering)
    (run : Run initial events state) :
    state.session.JoinsLingering := by
  induction run with
  | nil =>
      exact joins
  | snoc _ step inductionHypothesis =>
      exact joinsLingering_step inductionHypothesis step

/-- A load that has ended stays as it is, however much happens. -/
theorem loadsOf_run
    {initial : Traffic}
    {events : List Event}
    {client : Client}
    {place : Nat}
    {load : Load}
    (placed : (initial.session.loadsOf client)[place]? = some load)
    (ended : load.outcome ≠ none)
    (run : Run initial events state) :
    (state.session.loadsOf client)[place]? = some load := by
  induction run with
  | nil =>
      exact placed
  | snoc _ step inductionHypothesis =>
      exact loadsOf_step inductionHypothesis ended step

/-- A new session has no loads. -/
theorem joinsLingering_ofConfig
    {config : Config}
    {fetcher : Option Fetcher}
    {loader : Loader}
    {store : Option Store}
    {moment : Moment}
    {session : Session}
    (opened : Session.ofConfig config fetcher loader store moment = .ok session) :
    session.JoinsLingering := by
  obtain ⟨-, rfl⟩ := Session.ofConfig_eq_ok.mp opened
  refine fun client => ⟨fun place load placed => ?_, fun url place found => ?_⟩
  · cases client <;> cases placed
  · cases client <;> cases found

/-- An execution that waits for a load that broke down fails as the load did. -/
theorem resume_of_breakdown
    {session : Session}
    {client : Client}
    {code : Text}
    {execution : Execution}
    {load : Load}
    (placed : (session.loadsOf client)[execution.load]? = some load)
    (broke : load.outcome = some (.error Executor.breakdown)) :
    session.resume client code execution =
      some (session,
        .release [execution.handle.url]
          (.conclude client code (.error ⟨Executor.breakdown, some execution.resolvedCode⟩)), []) := by
  have outcome : (session.executorOf client).outcome? execution.load =
      some (.error Executor.breakdown) := by
    have loads : (session.executorOf client).loads[execution.load]? = some load := placed
    simp [Executor.outcome?, loads, broke]
  simp [Session.resume, outcome, Executor.resultOf]

/-- However calls interleave and whatever loads lead to, an address can be joined exactly if one of its loads
has not ended or broke down.  So only loads on their way are joined exactly if no load broke down, an execution
starts a load exactly if none of its address lingers, and once a load has broken down, all later executions of
its address join it and fail as it did. -/
theorem broken_loads_linger
    {config : Config}
    {fetcher : Option Fetcher}
    {loader : Loader}
    {store : Option Store}
    {moment : Moment}
    {session : Session}
    {events : List Event}
    {state : Traffic}
    (opened : Session.ofConfig config fetcher loader store moment = .ok session)
    (run : Run { session } events state)
    (client : Client) :
    (∀ url, (state.session.executorOf client).pending.get? url ≠ none ↔
      ∃ load ∈ state.session.loadsOf client, load.url = url ∧ load.Lingers) ∧
    ((∀ url, (state.session.executorOf client).pending.get? url ≠ none →
        ∃ load ∈ state.session.loadsOf client, load.url = url ∧ load.outcome = none) ↔
      ∀ load ∈ state.session.loadsOf client, load.outcome ≠ some (.error Executor.breakdown)) ∧
    (∀ timeout code resolvedCode handle,
      (state.session.join client timeout code resolvedCode handle).1.loadsOf client =
          state.session.loadsOf client ++
            [⟨handle.url, state.session.moment.elapsed + state.session.loader.delay, none⟩] ↔
        ∀ load ∈ state.session.loadsOf client, load.url = handle.url → ¬load.Lingers) ∧
    ∀ load ∈ state.session.loadsOf client, load.outcome = some (.error Executor.breakdown) →
      ∀ later final, Run state later final →
        ∀ timeout code resolvedCode handle, handle.url = load.url →
          ∃ execution,
            (Stage.join client timeout code resolvedCode handle).step final.session =
                some (final.session, .wait client code execution, []) ∧
              (Stage.wait client code execution).step final.session =
                some (final.session,
                  .release [handle.url]
                    (.conclude client code (.error ⟨Executor.breakdown, some resolvedCode⟩)), []) := by
  have joins := joinsLingering_run (joinsLingering_ofConfig opened) run
  refine ⟨(joins client).get?_pending_iff, (joins client).unended_iff,
    fun timeout code resolvedCode handle => ?_, fun load member broke later final rest timeout code
      resolvedCode handle address => ?_⟩
  · have joinable := (joins client).get?_pending_iff handle.url
    obtain ⟨place, joined, same⟩ | ⟨unjoined, started⟩ :=
      state.session.join_cases client timeout code resolvedCode handle
    · rw [same]
      refine ⟨fun grown => absurd grown (by simp), fun unlingering => ?_⟩
      obtain ⟨load, member, own, lingers⟩ := joinable.mp (by simp [joined])
      exact absurd lingers (unlingering load member own)
    · refine ⟨fun _ load member own lingers => joinable.mpr ⟨load, member, own, lingers⟩ unjoined,
        fun _ => congrArg Executor.loads started⟩
  · obtain ⟨place, placed⟩ := List.getElem?_of_mem member
    have placedLater := loadsOf_run placed (by simp [broke]) rest
    have joined := (joinsLingering_run joins rest client).joined place load placedLater (.inr broke)
    obtain ⟨index, found, same⟩ | ⟨unjoined, -⟩ :=
      final.session.join_cases client timeout code resolvedCode handle
    · rw [address, joined] at found
      cases found
      exact ⟨_, congrArg some same, resume_of_breakdown placedLater broke⟩
    · rw [address, joined] at unjoined
      cases unjoined

/-- What a load failed with. -/
def failureOf (load : Load) : Option Failure :=
  load.outcome.bind fun
    | .error failure => some failure
    | .ok _ => none

/-- A load that broke down when nothing else happened: its address can still be joined, though no load of it
is on its way. -/
theorem broken_loads_linger_of_panic :
    ∃ session events state url,
      Session.ofConfig {} none { breaks := true } none ⟨0, ⟨0, 0⟩⟩ = .ok session ∧
        Run { session } events state ∧
        (state.session.executorOf .caller).pending.get? url ≠ none ∧
        ∀ load ∈ state.session.loadsOf .caller, load.outcome ≠ none := by
  let code : Text := "export default () => 1"
  let task : Task := .execute code ⟨false, 10⟩
  -- The session is hidden, so that only this step evaluates it.
  obtain ⟨session, opened, broke⟩ :
      ∃ session : Session,
        Session.ofConfig {} none { breaks := true } none ⟨0, ⟨0, 0⟩⟩ = .ok session ∧
          ((session.run [task]).1.loadsOf .caller).map failureOf = [some Executor.breakdown] :=
    ⟨_, Session.ofConfig_eq_ok.mpr ⟨by decide +kernel, rfl⟩, by decide +kernel⟩
  obtain ⟨-, stages, events, -, -, -, ran⟩ := run_tasks session [task] []
  obtain ⟨load, only, failed⟩ := List.map_eq_singleton_iff.mp broke
  have outcome : load.outcome = some (.error Executor.breakdown) := by
    unfold failureOf at failed
    obtain ⟨result, ended, same⟩ := Option.bind_eq_some_iff.mp failed
    cases result with
    | error failure =>
        rw [ended, Option.some.inj same]
    | ok =>
        cases same
  obtain ⟨joinable, -⟩ := broken_loads_linger opened ran.toRun .caller
  refine ⟨session, _, _, load.url, opened, ran.toRun, (joinable load.url).mpr ⟨load, ?_, rfl, .inr outcome⟩, ?_⟩
  · rw [only]
    exact List.mem_singleton_self load
  · rw [only, List.forall_mem_singleton, outcome]
    exact Option.some_ne_none _

end Traffic

end LiveComponent
