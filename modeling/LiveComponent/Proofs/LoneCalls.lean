import LiveComponent.Proofs.TaskTraffic

namespace LiveComponent

/-!
# Calls one after the other

A call is alone if nobody else uses the session until it returns: it takes its steps while time passes, the
clock is set and the loader changes its ways.  A session is used by one caller if each call starts after
the one before has returned.  Calls that are alone return, whatever happened before.
-/

/-! ## One call -/

/-- Something happens in a session that nobody uses. -/
inductive Session.Idles : Session → List Event → Session → Prop where
  | pass
      (session : Session)
      (elapsed : Nat)
      (later : session.moment.elapsed ≤ elapsed) :
      Idles session [] (session.passTo elapsed)
  | tick
      (session : Session)
      (clock : Instant) :
      Idles session [] (session.withClock clock)
  | loaderChanges
      (session : Session)
      (delay : Nat)
      (offline breaks : Bool) :
      Idles session [.loaderChanged delay offline breaks] (session.changeLoader delay offline breaks)

/-- A call that is alone goes on. -/
inductive Stage.Alone (initial : Session) (first : Stage) : List Event → Session → Stage → Prop where
  | start :
      Alone initial first [] initial first
  | work
      {session after : Session}
      {stage next : Stage}
      {events told : List Event}
      (alone : Alone initial first events session stage)
      (stepped : stage.step session = some (after, next, told)) :
      Alone initial first (events ++ told) after next
  | idle
      {session after : Session}
      {stage : Stage}
      {events told : List Event}
      (alone : Alone initial first events session stage)
      (idles : session.Idles told after) :
      Alone initial first (events ++ told) after stage

namespace Stage.Alone

variable
  {initial middle final : Session}
  {first next last : Stage}
  {events told : List Event}

/-- A call that is alone twice in a row. -/
theorem trans
    (alone : Alone initial first events middle next)
    (rest : Alone middle next told final last) :
    Alone initial first (events ++ told) final last := by
  induction rest with
  | start =>
      rwa [List.append_nil]
  | work _ stepped inductionHypothesis =>
      rw [← List.append_assoc]
      exact inductionHypothesis.work stepped
  | idle _ idles inductionHypothesis =>
      rw [← List.append_assoc]
      exact inductionHypothesis.idle idles

/-- A call that is alone is traffic. -/
theorem toRun
    (alone : Alone initial first events final last)
    (owned : List Text) :
    Traffic.Run ⟨initial, [first], owned⟩ events ⟨final, [last], owned⟩ := by
  induction alone with
  | start =>
      exact .nil _
  | work _ stepped inductionHypothesis =>
      exact inductionHypothesis.snoc (.work _ [] [] _ _ _ _ rfl stepped)
  | idle _ idles inductionHypothesis =>
      refine inductionHypothesis.snoc ?_
      cases idles with
      | pass elapsed later => exact .pass _ elapsed later
      | tick clock => exact .tick _ clock
      | loaderChanges delay offline breaks => exact .loaderChanges _ delay offline breaks

/-- What holds at first and is kept by the steps of the call and by whatever else happens, holds at last. -/
theorem keeps
    {admits : Event → Prop}
    (alone : Alone initial first events final last)
    (invariant : List Event → Session → Stage → Prop)
    (start : invariant [] initial first)
    (steps :
      ∀ {session after : Session} {stage next : Stage} {earlier told : List Event},
        Alone initial first earlier session stage → invariant earlier session stage →
          stage.step session = some (after, next, told) → (∀ event ∈ told, admits event) →
            invariant (earlier ++ told) after next)
    (idles :
      ∀ {session after : Session} {stage : Stage} {earlier told : List Event},
        invariant earlier session stage → session.Idles told after →
          (∀ event ∈ told, admits event) → invariant (earlier ++ told) after stage)
    (admitted : ∀ event ∈ events, admits event) :
    invariant events final last := by
  induction alone with
  | start =>
      exact start
  | work alone stepped inductionHypothesis =>
      rw [List.forall_mem_append] at admitted
      exact steps alone (inductionHypothesis admitted.1) stepped admitted.2
  | idle _ happens inductionHypothesis =>
      rw [List.forall_mem_append] at admitted
      exact idles (inductionHypothesis admitted.1) happens admitted.2

/-- A call that returns has a last step. -/
theorem last_step
    {result : CallResult}
    (alone : Alone initial first events final (.done result))
    (unfinished : first ≠ .done result) :
    ∃ earlier later middle stage outcome,
      events = earlier ++ later ∧ Alone initial first earlier middle stage ∧
        stage.step middle = some outcome ∧ outcome.2.1 = .done result ∧
        Alone middle stage later final (.done result) := by
  generalize finished : Stage.done result = last at alone
  induction alone with
  | start =>
      exact absurd finished.symm unfinished
  | @work session after stage next events told alone stepped _ =>
      subst finished
      exact ⟨events, told, session, stage, _, rfl, alone, stepped, rfl, Alone.start.work stepped⟩
  | @idle session after stage events told _ idles inductionHypothesis =>
      obtain ⟨earlier, later, middle, stage, outcome, rfl, begun, stepped, settled, rest⟩ :=
        inductionHypothesis finished
      exact ⟨earlier, later ++ told, middle, stage, outcome, List.append_assoc .., begun, stepped, settled,
        rest.idle idles⟩

end Stage.Alone

/-- A call that is not interrupted is alone. -/
theorem Stage.Runs.toAlone
    {allowed : Event → Prop}
    {initial final : Session}
    {first last : Stage}
    (runs : Runs allowed initial first final last) :
    ∃ events, (∀ event ∈ events, allowed event) ∧ Alone initial first events final last := by
  induction runs with
  | refl =>
      exact ⟨[], List.forall_mem_nil _, .start⟩
  | head stepped permitted _ inductionHypothesis =>
      obtain ⟨events, others, rest⟩ := inductionHypothesis
      exact ⟨_, List.forall_mem_append.mpr ⟨permitted, others⟩, (Alone.start.work stepped).trans rest⟩

/-! ## Calls that return -/

namespace Session

/-- Start a task and leave it alone until it is done or its time limit is reached. -/
def serve (session : Session) (task : Task) : Session × TaskProgress :=
  let (started, progress) := session.startTask task
  let limit := (deadline? progress).getD started.moment.elapsed
  (started.passTo (max started.moment.elapsed limit)).resumeTask progress

/-- A task that is left alone until its time limit is a call that returns. -/
theorem alone_serve
    (session : Session)
    (task : Task) :
    ∃ result stage events,
      (session.serve task).2 = .done result ∧
        task.Reaches (.done result) stage ∧
        (∀ event ∈ events, TaskResult.allows [result] event) ∧
        Stage.Alone session (.fresh task.call) events (session.serve task).1 stage := by
  obtain ⟨stage, reaches, runs⟩ := session.runs_startTask task
  obtain ⟨events, refused, started⟩ := runs.toAlone
  let after := (session.startTask task).1
  let progress := (session.startTask task).2
  let limit := (deadline? progress).getD after.moment.elapsed
  let passed := after.passTo (max after.moment.elapsed limit)
  obtain ⟨last, reached, rest⟩ := passed.runs_resumeTask reaches
  obtain ⟨told, allowed, resumed⟩ := rest.toAlone
  have waited : Stage.Alone session (.fresh task.call) (events ++ []) passed stage :=
    started.idle (.pass after _ (Nat.le_max_left _ _))
  obtain ⟨result, done⟩ : ∃ result, (passed.resumeTask progress).2 = .done result := by
    cases waiting : progress with
    | done result =>
        exact ⟨result, rfl⟩
    | waiting rest =>
        have overdue : deadline rest ≤ passed.moment.elapsed := by
          have same : limit = deadline rest := by
            simp only [limit, waiting]
            rfl
          rw [← same]
          exact Nat.le_max_right _ _
        simp [resumeTask, overdue]
  have served : (session.serve task).2 = .done result := done
  rw [show (session.startTask task).2 = progress from rfl, done] at reached allowed
  refine ⟨result, last, _, served, reached, List.forall_mem_append.mpr ⟨?_, allowed⟩, waited.trans resumed⟩
  rw [List.append_nil]
  exact fun event member => .inl (refused event member)

/-- A request that is alone is answered, whatever happened before. -/
theorem exists_alone_answer
    (session : Session)
    (request : SourceModule) :
    ∃ events final answer,
      Stage.Alone session (.fresh (.process request)) events final (.done (.answered request answer)) := by
  obtain ⟨result, stage, events, -, reaches, -, alone⟩ := session.alone_serve (.process request)
  cases reaches with
  | answered _ answer =>
      exact ⟨events, _, answer, alone⟩

end Session

/-! ## Calls one after the other -/

/-- A call that has returned, with everything that happened meanwhile. -/
structure Turn where
  call : Call
  events : List Event
  result : CallResult

namespace Turn

/-- Everything that happened in a turn, from the call to its return. -/
def told (turn : Turn) : List Event :=
  .called turn.call :: turn.events ++ [.returned turn.result]

end Turn

/-- A call that neither takes nor gives references to handles. -/
def Call.IsRoutine : Call → Prop
  | process _ | prune | clear => True
  | _ => False

/-- A routine call hands nothing over. -/
theorem Call.IsRoutine.given_eq
    {call : Call}
    (routine : call.IsRoutine) :
    call.given = none := by
  cases call <;> first | rfl | cases routine

/-- A session that is used for routine calls, one after the other. -/
inductive Session.Serial (initial : Session) : List Turn → Session → Prop where
  | nil :
      Serial initial [] initial
  | snoc
      {turns : List Turn}
      {middle final : Session}
      (turn : Turn)
      (earlier : Serial initial turns middle)
      (routine : turn.call.IsRoutine)
      (alone : Stage.Alone middle (.fresh turn.call) turn.events final (.done turn.result)) :
      Serial initial (turns ++ [turn]) final

/-- A stage of a routine call. -/
def Stage.IsRoutine : Stage → Prop
  | fresh call => call.IsRoutine
  | compile .. => True
  | seek client .. | adopt client .. | enter client .. | join client .. | wait client .. | conclude client .. =>
    client ≠ .caller
  | release _ rest => rest.IsRoutine
  | done result => result.gained = []

/-- The steps of a routine call are routine. -/
theorem Stage.IsRoutine.afterStep
    {session : Session}
    {stage : Stage}
    {outcome : Session × Stage × List Event}
    (routine : stage.IsRoutine)
    (stepped : stage.step session = some outcome) :
    outcome.2.1.IsRoutine := by
  cases stage with
  | fresh call =>
      cases stepped
      cases call with
      | process request =>
          have begins := session.begins_beginRequest request
          change (session.beginRequest request).2.1.IsRoutine
          generalize session.beginRequest request = outcome at begins
          cases begins <;> first | rfl | trivial
      | prune | clear =>
          exact rfl
      | execute | get | getByOutputHash | put | acquire | retain | release =>
          cases routine
  | compile request code =>
      cases stepped
      unfold Session.compileRequest
      split
      · exact rfl
      · exact nofun
  | seek client options code =>
      cases stepped
      unfold Session.seek
      split
      · dsimp only [Session.goOn, IsRoutine]
        split <;> exact routine
      · exact routine
  | adopt client timeout code entry =>
      cases stepped
      unfold Session.adopt
      dsimp only
      split <;> exact routine
  | enter client timeout code =>
      cases stepped
      unfold Session.enter
      split
      · exact routine
      · split <;> exact routine
  | join client timeout code resolvedCode handle =>
      cases stepped
      exact routine
  | wait client code execution =>
      obtain rfl := Session.resume_eq_some stepped
      dsimp only
      split <;> exact routine
  | conclude client code result =>
      cases stepped
      cases client with
      | caller =>
          exact absurd rfl routine
      | request =>
          cases result <;> exact rfl
  | release urls rest =>
      cases urls <;> cases stepped <;> exact routine
  | done result =>
      cases stepped

/-- A routine call stays so while it is alone. -/
theorem Stage.IsRoutine.afterAlone
    {initial final : Session}
    {first last : Stage}
    {events : List Event}
    (routine : first.IsRoutine)
    (alone : Stage.Alone initial first events final last) :
    last.IsRoutine := by
  induction alone with
  | start =>
      exact routine
  | work _ stepped inductionHypothesis =>
      exact inductionHypothesis.afterStep stepped
  | idle _ _ inductionHypothesis =>
      exact inductionHypothesis

namespace Session.Serial

variable
  {initial final : Session}
  {turns : List Turn}

/-- Calls one after the other are traffic in which outside callers own nothing. -/
theorem toRun
    (serial : Serial initial turns final) :
    Traffic.Run { session := initial } (turns.flatMap Turn.told) { session := final } := by
  induction serial with
  | nil =>
      exact .nil _
  | @snoc turns middle final turn _ routine alone inductionHypothesis =>
      have given : turn.call.given = none := routine.given_eq
      have gained : turn.result.gained = [] :=
        (show (Stage.fresh turn.call).IsRoutine from routine).afterAlone alone
      have comes : Traffic.Step ⟨middle, [], []⟩ [.called turn.call] ⟨middle, [.fresh turn.call], []⟩ := by
        have step := Traffic.Step.call ⟨middle, [], []⟩ turn.call (by simp [given])
        simpa [given] using step
      have leaves : Traffic.Step ⟨final, [.done turn.result], []⟩ [.returned turn.result] ⟨final, [], []⟩ := by
        have step := Traffic.Step.leave ⟨final, [.done turn.result], []⟩ [] [] turn.result rfl
        simpa [gained] using step
      have run := ((inductionHypothesis.snoc comes).trans (alone.toRun [])).snoc leaves
      simpa [Turn.told, List.flatMap_append] using run

end Session.Serial

end LiveComponent
