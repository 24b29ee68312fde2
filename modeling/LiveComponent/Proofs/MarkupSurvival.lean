import LiveComponent.Proofs.CompiledCode
import LiveComponent.Proofs.MarkupLowering

namespace LiveComponent

/-!
# Which markup survives

The code of a successful answer is a normalized module in which the markup is replaced by plain
expressions, exactly if it was detected.  Undetected markup is told as it stands in the source.
-/

/-- However calls interleave, the code of a successful answer is a normalized module after some edits,
each of which puts a plain expression in the place of an outermost element or fragment.  All of these are
replaced exactly if the markup of the module, if any, is detected; otherwise the code has all of it. -/
theorem Traffic.markup_replaced_iff_detected
    {config : Config}
    {fetcher : Option Fetcher}
    {loader : Loader}
    {store : Option Store}
    {moment : Moment}
    {session : Session}
    {events : List Event}
    {state : Traffic}
    {request : SourceModule}
    {answer : Answer}
    (fresh : loader.modules = [])
    (opened : Session.ofConfig config fetcher loader store moment = .ok session)
    (stored : ∀ entry ∈ session.cache.entries, entry.artifact.IsCompiled config)
    (run : Run { session } events state)
    (keeps : Keeps config events)
    (returned : .returned (.answered request answer) ∈ events)
    (succeeded : answer.success = true) :
    ∃ artifact origin source normalized,
      answer.artifact = some artifact ∧
        (answer.fromCache = false →
          origin = request ∧ Pipeline.sourceOf fetcher request = .ok source) ∧
        artifact.inputHash = sha256Hex source ∧
        Pipeline.Normalizes config origin source normalized ∧
        artifact.compiledCode =
          Markup.edited (.ofFramework config.framework) (Pipeline.loweringEdits config normalized)
            normalized ∧
        (∀ edit ∈ Pipeline.loweringEdits config normalized,
          ∃ node ∈ Markup.outermostOf normalized, Markup.Replaces edit node) ∧
        ((∀ node ∈ Markup.outermostOf normalized,
            ∃ edit ∈ Pipeline.loweringEdits config normalized, Markup.Replaces edit node) ↔
          (Markup.outermostOf normalized ≠ [] → containsMarkup normalized = true)) ∧
        (containsMarkup normalized = false ∨ Markup.outermostOf normalized = [] →
          Markup.outermostOf artifact.compiledCode = Markup.outermostOf normalized) := by
  have holds := holdsCompiled_ofConfig fresh opened stored
  obtain ⟨-, told⟩ := holds.afterRun run keeps
  have tells : answer.TellsCompiled config fetcher request := told _ returned
  obtain ⟨artifact, attached⟩ := Option.isSome_iff_exists.mp (tells.complete succeeded)
  -- An answer that does not come from the cache is about the source of its own request.
  obtain ⟨origin, source, own, hash, compiled⟩ :
      ∃ origin source,
        (answer.fromCache = false →
          origin = request ∧ Pipeline.sourceOf fetcher request = .ok source) ∧
        artifact.inputHash = sha256Hex source ∧
        (Pipeline.compile config origin source).2 = .ok artifact.compiledCode := by
    cases cached : answer.fromCache with
    | false =>
        obtain ⟨source, found, hash, compiled⟩ := tells.own cached artifact attached
        exact ⟨request, source, fun _ => ⟨rfl, found⟩, hash, compiled⟩
    | true =>
        obtain ⟨origin, source, hash, compiled⟩ := tells.compiled artifact attached
        exact ⟨origin, source, fun other => (by cases other), hash, compiled⟩
  obtain ⟨normalized, normalizes, code⟩ := Pipeline.compile_eq_ok compiled
  refine ⟨artifact, origin, source, normalized, attached, own, hash, normalizes, code,
    fun _ => Pipeline.replaces_of_mem_loweringEdits, Pipeline.all_replaced_iff config normalized,
    fun untouched => ?_⟩
  have noEdits : Pipeline.loweringEdits config normalized = [] := by
    rcases untouched with undetected | unmarked
    · simp [Pipeline.loweringEdits, undetected]
    · simp [Pipeline.loweringEdits, unmarked]
  rw [code, noEdits]
  rfl

/-- A tag that closes itself is not detected, and stands in the code of a successful answer. -/
theorem Traffic.markup_survives_undetected :
    ∃ session events state request answer artifact,
      Session.ofConfig {} none {} (some .empty) ⟨0, ⟨0, 0⟩⟩ = .ok session ∧
        Run { session } events state ∧
        .returned (.answered request answer) ∈ events ∧
        answer.success = true ∧
        answer.artifact = some artifact ∧
        Markup.outermostOf artifact.compiledCode ≠ [] := by
  let code : Text := "export default () => <br/>"
  let request : SourceModule := { code, provenance := .generated }
  let told (result : TaskResult) : Bool × Bool × Bool :=
    (result.isTimeout,
      match result with
      | .answered answer => (answer.success, answer.fromCache)
      | .executed _ => (false, false))
  -- The session is hidden, so that only this step evaluates it.
  obtain ⟨session, opened, empty, ranTold⟩ :
      ∃ session : Session, Session.ofConfig {} none {} (some .empty) ⟨0, ⟨0, 0⟩⟩ = .ok session ∧
        session.cache.entries = [] ∧
        (session.run [.process request]).2.map told = [(false, true, false)] :=
    ⟨_, Session.ofConfig_eq_ok.mpr ⟨by decide +kernel, rfl⟩, rfl, by decide +kernel⟩
  have undetected : containsMarkup code = false := by decide +kernel
  have marked : (Markup.outermostOf code).isEmpty = false := by decide +kernel
  have unchanged : (Normalization.ofText ({} : Config).framework code).result.toOption.map Prod.fst =
      some code := by
    decide +kernel
  have sourced : Pipeline.sourceOf none request = .ok code := by decide +kernel
  have asModule : Pipeline.moduleText request code = .ok code := by decide +kernel
  obtain ⟨answer, ran⟩ := session.exists_answer request
  rw [ran] at ranTold
  have toldAnswer := List.singleton_inj.mp ranTold
  have inTime : (TaskResult.answered answer).isTimeout = false := congrArg Prod.fst toldAnswer
  have succeeded : answer.success = true := congrArg (fun told => told.2.1) toldAnswer
  have uncached : answer.fromCache = false := congrArg (fun told => told.2.2) toldAnswer
  obtain ⟨refusals, refused, run⟩ := run_process ran inTime
  let events : List Event :=
    .called (.process request) :: refusals ++ [Event.returned (.answered request answer)]
  have returned : .returned (.answered request answer) ∈ events :=
    List.mem_append_right _ (List.mem_singleton_self _)
  have keeps : Keeps {} events := by
    intro call member
    rcases List.mem_append.mp member with before | other
    · rcases List.mem_cons.mp before with same | refusal
      · cases same
        trivial
      · cases refused _ refusal
    · cases List.mem_singleton.mp other
  obtain ⟨artifact, origin, source, normalized, attached, own, -, normalizes, -, -, -, left⟩ :=
    markup_replaced_iff_detected rfl opened (by simp [empty]) run keeps returned succeeded
  obtain ⟨rfl, found⟩ := own uncached
  obtain rfl : code = source := Except.ok.inj (sourced.symm.trans found)
  obtain ⟨module, warnings, made, result⟩ := normalizes
  rw [asModule] at made
  cases made
  rw [result] at unchanged
  obtain rfl : normalized = code := Option.some.inj unchanged
  refine ⟨session, events, _, _, answer, artifact, opened, run, returned, succeeded, attached, ?_⟩
  rw [left (.inl undetected)]
  intro none
  rw [none] at marked
  cases marked

end LiveComponent
