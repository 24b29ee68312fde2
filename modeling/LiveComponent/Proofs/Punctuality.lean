import LiveComponent.Proofs.CallSteps
import LiveComponent.Proofs.Uninterrupted

namespace LiveComponent

/-!
# Runs under a condition

Some facts hold only as long as time or the world around a session behave.  A condition on the single
steps says how, and a run under it is one of which every step meets it.  In a punctual run nobody is
late.  Only time that passes can be: the steps of the calls take no time.
-/

namespace Traffic

/-- Things happen one after the other, each of them as permitted. -/
inductive RunUnder (permits : Traffic → List Event → Traffic → Prop) :
    Traffic → List Event → Traffic → Prop where
  | nil
      (state : Traffic) :
      RunUnder permits state [] state
  | snoc
      {initial middle final : Traffic}
      {events last : List Event}
      (run : RunUnder permits initial events middle)
      (step : Step middle last final)
      (permitted : permits middle last final) :
      RunUnder permits initial (events ++ last) final

namespace RunUnder

variable
  {permits : Traffic → List Event → Traffic → Prop}
  {initial middle final : Traffic}
  {events last : List Event}

/-- A run under a condition is a run. -/
theorem toRun
    (run : RunUnder permits initial events final) :
    Run initial events final := by
  induction run with
  | nil =>
      exact .nil _
  | snoc _ step _ inductionHypothesis =>
      exact .snoc inductionHypothesis step

/-- A single permitted event. -/
theorem single
    (step : Step initial events middle)
    (permitted : permits initial events middle) :
    RunUnder permits initial events middle := by
  have run := snoc (nil initial) step permitted
  rwa [List.nil_append] at run

/-- A run followed by another one. -/
theorem trans
    (run : RunUnder permits initial events middle)
    (rest : RunUnder permits middle last final) :
    RunUnder permits initial (events ++ last) final := by
  induction rest with
  | nil =>
      rwa [List.append_nil]
  | snoc _ step permitted inductionHypothesis =>
      rw [← List.append_assoc]
      exact snoc inductionHypothesis step permitted

/-- What every permitted step with some events keeps, a run with such events keeps. -/
theorem keeps
    {invariant : Traffic → Prop}
    {admits : Event → Prop}
    (run : RunUnder permits initial events final)
    (kept :
      ∀ {state next : Traffic} {last : List Event},
        invariant state → Step state last next → permits state last next →
          (∀ event ∈ last, admits event) → invariant next)
    (start : invariant initial)
    (admitted : ∀ event ∈ events, admits event) :
    invariant final := by
  induction run with
  | nil =>
      exact start
  | snoc _ step permitted inductionHypothesis =>
      have middle := inductionHypothesis fun event member =>
        admitted event (List.mem_append_left _ member)
      exact kept middle step permitted fun event member =>
        admitted event (List.mem_append_right _ member)

end RunUnder

end Traffic

/-! ## Punctuality -/

/-- When a call that waits gives up. -/
def Stage.deadline? : Stage → Option Nat
  | wait _ _ execution => some execution.deadline
  | _ => none

/-- The loads of the executor that works for a client. -/
def Session.loadsOf (session : Session) (client : Client) : List Load :=
  (session.executorOf client).loads

/-- All loads that are over have ended. -/
def Session.IsCurrent (session : Session) : Prop :=
  ∀ client, ∀ load ∈ session.loadsOf client,
    load.outcome = none → session.moment.elapsed < load.due

/-- Nobody is late: time does not pass the limit of a call before this has gone on, and no call gives up
before the loads that are over have ended. -/
structure Traffic.Punctual (state : Traffic) (events : List Event) (next : Traffic) : Prop where
  limits :
    state.session.moment.elapsed < next.session.moment.elapsed →
      ∀ stage ∈ state.calls, ∀ limit ∈ stage.deadline?, next.session.moment.elapsed ≤ limit
  loads :
    .timedOut ∈ events → state.session.IsCurrent

/-! ## Loads -/

namespace Executor

/-- A load has not ended by a point in time if it had not ended before and is not over by then. -/
theorem outcome_endLoad_eq_none
    {loader : Loader}
    {now : Nat}
    {load : Load} :
    (endLoad loader now load).outcome = none ↔ load.outcome = none ∧ now < load.due := by
  unfold endLoad
  split
  next overdue =>
    simp only [Load.endsBy, Bool.and_eq_true, decide_eq_true_eq] at overdue
    simp only [reduceCtorEq, false_iff, not_and, Nat.not_lt]
    exact fun _ => overdue.2
  next early =>
    constructor
    · intro isOpen
      simp only [Load.endsBy, isOpen, Option.isNone_none, Bool.true_and, decide_eq_true_eq,
        Nat.not_le] at early
      exact ⟨isOpen, early⟩
    · exact And.left

/-- A load ends when it was to end. -/
theorem due_endLoad
    (loader : Loader)
    (now : Nat)
    (load : Load) :
    (endLoad loader now load).due = load.due := by
  unfold endLoad
  split <;> rfl

end Executor

namespace Session

variable {session : Session}

/-- When time has passed, all loads that are over have ended. -/
theorem isCurrent_passTo
    (session : Session)
    (elapsed : Nat) :
    (session.passTo elapsed).IsCurrent := by
  intro client load member isOpen
  obtain ⟨original, -, rfl⟩ :
      ∃ original ∈ session.loadsOf client,
        Executor.endLoad session.loader elapsed original = load := by
    cases client <;> exact List.mem_map.mp member
  rw [Executor.due_endLoad]
  exact (Executor.outcome_endLoad_eq_none.mp isOpen).2

/-! ## Steps of a call -/

/-- Beginning a request takes no time. -/
theorem moment_begins
    {request : SourceModule}
    {outcome : Session × Stage × List Event}
    (begins : session.Begins request outcome) :
    outcome.1.moment = session.moment := by
  cases begins <;> rfl

/-- A step of a call takes no time. -/
theorem moment_step
    {stage : Stage}
    {outcome : Session × Stage × List Event}
    (stepped : stage.step session = some outcome) :
    outcome.1.moment = session.moment := by
  cases stage with
  | fresh call =>
      cases stepped
      cases call with
      | process request =>
          exact moment_begins (session.begins_beginRequest request)
      | acquire code =>
          dsimp only [begin]
          split <;> rfl
      | execute | get | getByOutputHash | put | prune | clear | retain | release =>
          rfl
  | compile request code =>
      cases stepped
      unfold compileRequest
      split <;> rfl
  | seek client options code =>
      cases stepped
      unfold seek
      split <;> rfl
  | adopt =>
      cases stepped
      rfl
  | enter client timeout code =>
      cases stepped
      unfold enter
      split
      · rfl
      · split <;> rfl
  | join client timeout code resolvedCode handle =>
      cases stepped
      cases client <;> rfl
  | wait client code execution =>
      obtain rfl := resume_eq_some stepped
      rfl
  | conclude client code result =>
      cases stepped
      cases client <;> cases result <;> rfl
  | release urls rest =>
      cases urls <;> cases stepped <;> rfl
  | done =>
      cases stepped

end Session

/-- A step of a call is punctual unless the call gives up too early. -/
theorem Traffic.punctual_work
    {state next : Traffic}
    {stage after : Stage}
    {session : Session}
    {events : List Event}
    (stepped : stage.step state.session = some (session, after, events))
    (same : next.session = session)
    (loads : .timedOut ∈ events → state.session.IsCurrent) :
    Punctual state events next where
  limits later := by
    rw [same, Session.moment_step stepped] at later
    exact absurd later (Nat.lt_irrefl _)
  loads := loads

/-- A call that starts no load any more. -/
def Stage.IsFinishing : Stage → Prop
  | wait .. | conclude .. | done _ => True
  | release _ rest => rest.IsFinishing
  | _ => False

/-- A call that starts no load goes on without one, and leaves the loads as they are. -/
theorem Stage.IsFinishing.afterStep
    {session : Session}
    {stage : Stage}
    {outcome : Session × Stage × List Event}
    (finishing : stage.IsFinishing)
    (stepped : stage.step session = some outcome) :
    outcome.2.1.IsFinishing ∧ ∀ client, outcome.1.executorOf client = session.executorOf client := by
  cases stage with
  | wait client code execution =>
      obtain rfl := Session.resume_eq_some stepped
      refine ⟨?_, fun _ => rfl⟩
      dsimp only
      split <;> trivial
  | conclude client code result =>
      cases stepped
      cases client with
      | caller =>
          exact ⟨trivial, fun _ => rfl⟩
      | request request inputHash warnings =>
          cases result with
          | error failed =>
              refine ⟨trivial, fun client => ?_⟩
              cases client with
              | request => exact (session.pipeline.sameWork_conclude_error ..).executor
              | caller => rfl
          | ok executed =>
              refine ⟨trivial, fun client => ?_⟩
              cases client <;> rfl
  | release urls rest =>
      cases urls with
      | nil =>
          cases stepped
          exact ⟨finishing, fun _ => rfl⟩
      | cons url urls =>
          cases stepped
          refine ⟨finishing, fun client => ?_⟩
          cases client <;> rfl
  | done result =>
      cases stepped
  | fresh | compile | seek | adopt | enter | join =>
      cases finishing

/-- Steps of a call are a punctual run of the traffic around it if nobody gives up, or if all loads that
are over have ended and the call starts none. -/
theorem Stage.Runs.toPunctual
    {allowed : Event → Prop}
    {session final : Session}
    {stage last : Stage}
    (run : Runs allowed session stage final last)
    (prompt : ¬allowed .timedOut ∨ stage.IsFinishing ∧ session.IsCurrent)
    (before after : List Stage)
    (owned : List Text) :
    ∃ events, (∀ event ∈ events, allowed event) ∧
      Traffic.RunUnder Traffic.Punctual ⟨session, before ++ stage :: after, owned⟩ events
        ⟨final, before ++ last :: after, owned⟩ := by
  induction run with
  | refl =>
      exact ⟨[], fun event member => (by cases member), .nil _⟩
  | @head session middle _ stage next _ first stepped permitted _ inductionHypothesis =>
      have loads (gaveUp : .timedOut ∈ first) : session.IsCurrent :=
        (prompt.resolve_left fun never => never (permitted _ gaveUp)).2
      have promptNext : ¬allowed .timedOut ∨ next.IsFinishing ∧ middle.IsCurrent := by
        refine prompt.imp_right fun ⟨finishing, current⟩ => ?_
        obtain ⟨finishingNext, same⟩ := finishing.afterStep stepped
        refine ⟨finishingNext, fun client load member isOpen => ?_⟩
        have before : load ∈ session.loadsOf client := by
          rw [Session.loadsOf, ← same client]
          exact member
        rw [Session.moment_step stepped]
        exact current client load before isOpen
      obtain ⟨events, others, run⟩ := inductionHypothesis promptNext
      have step := Traffic.Step.work ⟨session, _, owned⟩ before after stage next middle _ rfl stepped
      have punctual : Traffic.Punctual ⟨session, before ++ stage :: after, owned⟩ first
          ⟨middle, before ++ next :: after, owned⟩ := Traffic.punctual_work stepped rfl loads
      exact ⟨first ++ events, List.forall_mem_append.mpr ⟨permitted, others⟩,
        (Traffic.RunUnder.single step punctual).trans run⟩

end LiveComponent
