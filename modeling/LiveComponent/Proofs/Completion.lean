import LiveComponent.Proofs.TaskTraffic

namespace LiveComponent

/-!
# Every request is answered

A task that waits is done after at most as many points in time as there are loads on their way, and one
more for its time limit.
-/

namespace Executor

/-- The number of loads that have not ended. -/
def openLoads (executor : Executor) : Nat :=
  executor.loads.countP fun load => load.outcome.isNone

/-- A load that has not ended after a while had not ended before. -/
theorem isOpen_of_endLoad
    {loader : Loader}
    {now : Nat}
    {load : Load}
    (isOpen : (endLoad loader now load).outcome.isNone = true) :
    load.outcome.isNone = true := by
  unfold endLoad at isOpen
  split at isOpen
  · cases isOpen
  · exact isOpen

/-- Of some loads no more are open after a while than before. -/
theorem countP_endLoad_le
    (loader : Loader)
    (now : Nat)
    (loads : List Load) :
    (loads.map (endLoad loader now)).countP (fun load => load.outcome.isNone) ≤
      loads.countP fun load => load.outcome.isNone := by
  rw [List.countP_map]
  exact List.countP_mono_left fun load _ isOpen => isOpen_of_endLoad isOpen

/-- When time passes, no load of an executor comes on its way. -/
theorem openLoads_endLoads
    (loader : Loader)
    (now : Nat)
    (executor : Executor) :
    (executor.endLoads loader now).openLoads ≤ executor.openLoads :=
  countP_endLoad_le loader now executor.loads

/-- When the next load ends, less loads are on their way. -/
theorem openLoads_lt
    {loader : Loader}
    {now : Nat}
    {executor : Executor}
    (next : executor.nextEnd? = some now) :
    (executor.endLoads loader now).openLoads < executor.openLoads := by
  have member := List.min?_mem next
  simp only [List.mem_map, List.mem_filter] at member
  obtain ⟨load, ⟨member, isOpen⟩, due⟩ := member
  obtain ⟨before, after, split⟩ := List.append_of_mem member
  have ended : (endLoad loader now load).outcome.isNone = false := by
    simp [endLoad, Load.endsBy, isOpen, due]
  have early := countP_endLoad_le loader now before
  have late := countP_endLoad_le loader now after
  simp only [openLoads, endLoads, split, List.map_append, List.map_cons, List.countP_append,
    List.countP_cons, ended, isOpen]
  simp only [Bool.false_eq_true, if_false, if_true]
  omega

end Executor

namespace Session

variable (session : Session)

/-- The loads on their way are those of both executors. -/
theorem openLoads_eq :
    session.openLoads = session.pipeline.executor.openLoads + session.executor.openLoads := by
  simp [openLoads, Executor.openLoads, List.countP_eq_length_filter]

/-- When time passes, no load comes on its way. -/
theorem openLoads_passTo
    (elapsed : Nat) :
    (session.passTo elapsed).openLoads ≤ session.openLoads := by
  rw [openLoads_eq, openLoads_eq]
  exact Nat.add_le_add (Executor.openLoads_endLoads _ _ _) (Executor.openLoads_endLoads _ _ _)

/-- When the next load ends, less loads are on their way. -/
theorem openLoads_passTo_lt
    {due : Nat}
    (next : session.nextEnd? = some due) :
    (session.passTo due).openLoads < session.openLoads := by
  rw [openLoads_eq, openLoads_eq]
  rcases List.mem_append.mp (List.min?_mem next) with own | second
  · exact Nat.add_lt_add_of_lt_of_le (Executor.openLoads_lt (Option.mem_toList.mp own))
      (Executor.openLoads_endLoads _ _ _)
  · exact Nat.add_lt_add_of_le_of_lt (Executor.openLoads_endLoads _ _ _)
      (Executor.openLoads_lt (Option.mem_toList.mp second))

/-- A task that waits is done when time has passed often enough. -/
theorem wait_done
    (count : Nat)
    (rest : WaitingTask)
    (enough :
      session.openLoads + 1 < count ∨
        session.openLoads < count ∧ deadline rest ≤ session.moment.elapsed) :
    ∃ result, (wait count session [.waiting rest]).2 = [.done result] := by
  induction count generalizing session with
  | zero =>
      omega
  | succ count inductionHypothesis =>
      rw [wait]
      by_cases ready : ((session.endLoads.outcome? rest).isSome ||
          deadline rest ≤ session.moment.elapsed) = true
      · have resumed : session.endLoads.resumeTask (.waiting rest) =
            ((session.endLoads.finishTask rest (session.endLoads.outcome? rest)).1,
              .done (session.endLoads.finishTask rest (session.endLoads.outcome? rest)).2) := by
          simp only [resumeTask]
          exact if_pos ready
        simp [resumeTasks, resumed, List.filterMap_cons, deadline?]
      · have resumed : session.endLoads.resumeTask (.waiting rest) =
            (session.endLoads, .waiting rest) := by
          simp only [resumeTask]
          exact if_neg ready
        have early : session.moment.elapsed < deadline rest := by
          simp only [Bool.or_eq_true, decide_eq_true_eq, not_or, Nat.not_le] at ready
          exact ready.2
        have fewer : session.endLoads.openLoads ≤ session.openLoads :=
          session.openLoads_passTo session.moment.elapsed
        simp only [resumeTasks, resumed, List.filterMap_cons, deadline?, List.filterMap_nil,
          List.min?_singleton]
        apply inductionHypothesis
        cases soon : session.endLoads.nextEnd? with
        | none =>
            have passed := session.endLoads.openLoads_passTo (deadline rest)
            exact .inr ⟨by simp only [Option.map_none, Option.getD_none]; omega, Nat.le_refl _⟩
        | some due =>
            simp only [Option.map_some, Option.getD_some]
            rcases Nat.lt_or_ge due (deadline rest) with first | last
            · have passed := session.endLoads.openLoads_passTo_lt soon
              rw [Nat.min_eq_left (Nat.le_of_lt first)]
              exact .inl (by omega)
            · have passed := session.endLoads.openLoads_passTo (deadline rest)
              rw [Nat.min_eq_right last]
              exact .inr ⟨by omega, Nat.le_refl _⟩

/-- A task that runs alone has a result, whatever happened before. -/
theorem exists_result
    (task : Task) :
    ∃ result, (session.run [task]).2 = [result] := by
  cases started : session.startTask task with
  | mk after progress =>
      cases progress with
      | done result =>
          exact ⟨result, by simp [run, startTasks, started, wait, resumeTasks, resumeTask,
            List.filterMap_cons, deadline?, result?]⟩
      | waiting rest =>
          have enough : after.openLoads + 1 < after.openLoads + 1 + 1 := Nat.lt_succ_self _
          obtain ⟨result, done⟩ := after.wait_done (after.openLoads + 1 + 1) rest (.inl enough)
          exact ⟨result, by simp [run, startTasks, started, done, result?]⟩

/-- A request that runs alone is answered, whatever happened before. -/
theorem exists_answer
    (request : SourceModule) :
    ∃ answer, (session.run [.process request]).2 = [.answered answer] := by
  obtain ⟨result, alone⟩ := session.exists_result (.process request)
  obtain ⟨progress, stages, -, results, reached, -⟩ :=
    Traffic.run_tasks session [.process request] []
  rw [alone] at results
  obtain ⟨answer, rfl, -⟩ := Task.answered_of_reachAll reached results
  exact ⟨answer, alone⟩

end Session

end LiveComponent
