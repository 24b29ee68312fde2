import LiveComponent.Proofs.KnowledgeTraffic
import LiveComponent.Proofs.Repetition

namespace LiveComponent

/-!
# What a key leaves out

A key names the channel and the source of a request, but not the form that it declares.  So an answer
from the cache may belong to another form.  Answers are free of the history exactly for those requests
whose source compiles alike in all forms in which it compiles at all.
-/

/-- What a caller sees of a compilation: whether it succeeded, why it failed, and its code. -/
structure Outcome where
  success : Bool
  errorKind : Option FailureKind
  compiledCode : Option Text
deriving DecidableEq, Repr

/-- What a caller sees of the compilation that an answer reports. -/
def Gist.outcome (gist : Gist) : Outcome :=
  ⟨gist.success, gist.errorKind, gist.artifact.map Essence.compiledCode⟩

/-- The outcome of a compilation succeeds with its answer. -/
theorem Gist.success_outcome (gist : Gist) : gist.outcome.success = gist.success := rfl

/-- The request with another declared form. -/
def SourceModule.inForm (request : SourceModule) (form : Option SourceFormat) : SourceModule :=
  { request with declaredFormat := form }

/-- The request with each declared form. -/
def SourceModule.forms (request : SourceModule) : List SourceModule :=
  [none, some .module, some .legacyScript].map request.inForm

/-- Every form of a request is among its forms. -/
theorem SourceModule.inForm_mem_forms
    (request : SourceModule)
    (form : Option SourceFormat) :
    request.inForm form ∈ request.forms := by
  apply List.mem_map_of_mem
  rcases form with none | module | legacyScript <;> simp

/-- Something that happens when requests are served without disturbance. -/
def Event.IsUndisturbed : Event → Prop
  | .called (.process _) | .returned _ => True
  | .loaderChanged _ offline breaks => offline = false ∧ breaks = false
  | _ => False

namespace Traffic

/-- In a new session with nothing to start from, undisturbed requests are all answered before another
request comes in, which then gets an answer. -/
def Serves
    (session : Session)
    (history : List SourceModule)
    (request : SourceModule)
    (answer : Answer) :
    Prop :=
  ∃ earlier middle later final,
    Run { session } earlier middle ∧
      middle.calls = [] ∧
      earlier.filterMap Event.request? = history ∧
      Run middle later final ∧
      later.filterMap Event.request? = [request] ∧
      .returned (.answered request answer) ∈ later ∧
      ∀ event ∈ earlier ++ later, event.IsUndisturbed

/-- Two earlier requests are the same, or have the channel and the source of a later request and differ
in the declared form only. -/
def DiffersInForm
    (fetcher : Option Fetcher)
    (request earlier other : SourceModule) :
    Prop :=
  earlier = other ∨
    earlier.provenance = request.provenance ∧
      Pipeline.sourceOf fetcher earlier = Pipeline.sourceOf fetcher request ∧
      ∃ form, other = earlier.inForm form

/-- The forms that earlier requests with the same channel and source declared make no difference to
the answer to a request. -/
def FormatsSeparated
    (config : Config)
    (fetcher : Option Fetcher)
    (request : SourceModule) :
    Prop :=
  ∀ loader store moment session, loader.modules = [] ∧ loader.offline = false ∧ loader.breaks = false →
    Session.ofConfig config fetcher loader store moment = .ok session → session.cache.entries = [] →
    ∀ first second, List.Forall₂ (DiffersInForm fetcher request) first second →
      (Workload.mk config fetcher (first ++ second ++ [request])).CollisionFree →
      ∀ answer other, Serves session first request answer → Serves session second request other →
        answer.gist.outcome = other.gist.outcome

end Traffic

/-! ## Answers after a history -/

/-- The events of undisturbed requests are admitted by a workload with these requests. -/
theorem Workload.admits_of_undisturbed
    {work : Workload}
    {events : List Event}
    (undisturbed : ∀ event ∈ events, event.IsUndisturbed)
    (asked : events.filterMap Event.request? ⊆ work.requests) :
    work.Admits events where
  calls call member := by
    have calm := undisturbed _ member
    cases call with
    | process request =>
        exact asked (List.mem_filterMap.mpr ⟨_, member, rfl⟩)
    | execute | get | getByOutputHash | put | prune | clear | acquire | retain | release =>
        cases calm
  inTime member := undisturbed _ member
  calm delay offline breaks member := undisturbed _ member

/-- After any history the answer to a request is the verdict on it, or it comes from the cache and is a
successful verdict on another form of the request. -/
theorem Traffic.Serves.gist_cases
    {config : Config}
    {fetcher : Option Fetcher}
    {loader : Loader}
    {store : Option Store}
    {moment : Moment}
    {session : Session}
    {history : List SourceModule}
    {request : SourceModule}
    {answer : Answer}
    (serves : Serves session history request answer)
    (fresh : loader.modules = [] ∧ loader.offline = false ∧ loader.breaks = false)
    (opened : Session.ofConfig config fetcher loader store moment = .ok session)
    (empty : session.cache.entries = [])
    (collisionFree : (Workload.mk config fetcher (history ++ [request])).CollisionFree) :
    answer.gist = Pipeline.verdict config fetcher request ∨
      Pipeline.readsCache request = true ∧
        ∃ form, (Pipeline.verdict config fetcher (request.inForm form)).success = true ∧
          answer.gist = Pipeline.verdict config fetcher (request.inForm form) := by
  obtain ⟨earlier, middle, later, final, runEarlier, -, past, runLater, present, returned,
    undisturbed⟩ := serves
  let work : Workload := ⟨config, fetcher, history ++ [request]⟩
  have admits : work.Admits (earlier ++ later) := by
    refine Workload.admits_of_undisturbed undisturbed ?_
    rw [List.filterMap_append, past, present]
    exact List.Subset.refl _
  have known : work.KnowsTraffic { session } :=
    Workload.knowsTraffic_ofConfig fresh.1 fresh.2.1 fresh.2.2 opened empty _
  obtain ⟨-, answered⟩ := known.afterRun collisionFree (runEarlier.trans runLater) admits
  rcases answered _ (List.mem_append_right earlier returned) with
    ⟨-, own | ⟨reads, other, source, provides, providesOther, -, succeeds, same⟩⟩
  · exact .inl own
  · have form : work.verdict other = work.verdict (request.inForm other.declaredFormat) :=
      Workload.verdict_congr (providesOther.found.trans provides.found.symm) rfl
    refine .inr ⟨reads, other.declaredFormat, ?_, same.trans form⟩
    rw [form] at succeeds
    exact succeeds

/-! ## Histories that make a difference -/

/-- An answer that says what the verdict says was given in time. -/
theorem TaskResult.inTime_of_gist
    {config : Config}
    {fetcher : Option Fetcher}
    {request : SourceModule}
    {answer : Answer}
    (gist : answer.gist = Pipeline.verdict config fetcher request) :
    (TaskResult.answered answer).isTimeout = false := by
  by_contra timeout
  simp only [isTimeout, Bool.not_eq_false, Bool.and_eq_true, decide_eq_true_eq] at timeout
  obtain ⟨kind, compiled⟩ := timeout
  have failed : (Pipeline.verdict config fetcher request).errorKind = some .loadTimeout := by
    rw [← gist]
    exact kind
  have uncompiled : answer.artifact.map Artifact.essence = none :=
    (congrArg Gist.artifact gist).trans (Pipeline.artifact_of_timeout failed)
  simp [Option.map_eq_none_iff.mp uncompiled] at compiled

/-- In a fresh session with a working cache a request is served after another one with the same channel
and source.  If that one succeeds, its artifact is the answer, with its metadata if the request brings
none itself. -/
theorem Traffic.serves_after
    {config : Config}
    {fetcher : Option Fetcher}
    {session : Session}
    {first request : SourceModule}
    (fresh : session.IsFresh config fetcher)
    (balanced : Balanced { session })
    (working : session.cache.IsWorking)
    (keeps : first.wantsCache = true)
    (reads : Pipeline.readsCache request = true)
    (channel : first.provenance = request.provenance)
    (source : Pipeline.sourceOf fetcher first = Pipeline.sourceOf fetcher request) :
    let verdict := Pipeline.verdict config fetcher
    ∃ middle early answer,
      Run { session } [.called (.process first), .returned (.answered first early)] middle ∧
        Serves session [first] request answer ∧
        early.gist = verdict first ∧
        answer.gist = (if (verdict first).success then verdict first else verdict request) ∧
        ((verdict first).success = true →
          answer.artifact = early.artifact.map fun artifact =>
            { artifact with metadata := Pipeline.metadataOf request <|> artifact.metadata }) := by
  intro verdict
  obtain ⟨middle, after, early, late, ranEarly, ranLate, gistEarly, gistLate, given, enabled⟩ :=
    fresh.run_twice working keeps reads channel source
  have inTimeLate : (TaskResult.answered late).isTimeout = false := by
    split at gistLate
    · exact TaskResult.inTime_of_gist gistLate
    · exact TaskResult.inTime_of_gist gistLate
  obtain ⟨started, refusedFirst, runFirst⟩ :=
    run_process (congrArg Prod.snd ranEarly) (TaskResult.inTime_of_gist gistEarly)
  obtain ⟨last, refusedLast, runLast⟩ := run_process (congrArg Prod.snd ranLate) inTimeLate
  rw [ranEarly] at runFirst
  rw [ranLate] at runLast
  -- Had the store refused a call, the cache would be off by now.
  have calm : .refused ∉ started ++ last := by
    intro refused
    have off := off_run balanced (runFirst.trans runLast) (.inr (by
      rcases List.mem_append.mp refused with early | late <;> simp [*]))
    exact Bool.noConfusion (enabled.symm.trans off)
  have noneFirst : started = [] := by
    refine List.eq_nil_iff_forall_not_mem.mpr fun event member => calm ?_
    rw [← refusedFirst event member]
    exact List.mem_append_left last member
  have noneLast : last = [] := by
    refine List.eq_nil_iff_forall_not_mem.mpr fun event member => calm ?_
    rw [← refusedLast event member]
    exact List.mem_append_right started member
  subst noneFirst noneLast
  refine ⟨_, early, late, runFirst, ⟨_, _, _, _, runFirst, rfl, rfl, runLast, rfl, by simp, ?_⟩,
    gistEarly, gistLate, given⟩
  intro event member
  simp only [List.cons_append, List.nil_append, List.mem_cons, List.not_mem_nil, or_false] at member
  rcases member with rfl | rfl | rfl | rfl <;> trivial

/-- In a fresh session with a working cache a request is served after itself in another form.  If that
form succeeds, its artifact is the answer. -/
theorem Traffic.serves_after_form
    {config : Config}
    {fetcher : Option Fetcher}
    {session : Session}
    {request : SourceModule}
    (fresh : session.IsFresh config fetcher)
    (balanced : Balanced { session })
    (working : session.cache.IsWorking)
    (reads : Pipeline.readsCache request = true)
    (form : Option SourceFormat) :
    let verdict := Pipeline.verdict config fetcher
    ∃ answer, Serves session [request.inForm form] request answer ∧
      answer.gist =
        if (verdict (request.inForm form)).success then verdict (request.inForm form)
        else verdict request := by
  have keeps : (request.inForm form).wantsCache = true := (Bool.and_eq_true_iff.mp reads).1
  obtain ⟨-, -, answer, -, serves, -, gist, -⟩ :=
    serves_after fresh balanced working keeps reads rfl rfl
  exact ⟨answer, serves, gist⟩

/-! ## The exact condition -/

/-- The form that earlier requests with the same channel and source declared makes no difference to the
answer to a request, exactly if the request is not answered from the cache or its source leads to the
same outcome in all forms in which it compiles. -/
theorem Traffic.formats_separated_iff
    {config : Config}
    {fetcher : Option Fetcher}
    {request : SourceModule}
    (valid : config.validate = .ok ())
    (collisionFree : (Workload.mk config fetcher request.forms).CollisionFree) :
    FormatsSeparated config fetcher request ↔
      (Pipeline.readsCache request = true → ∀ form,
        (Pipeline.verdict config fetcher (request.inForm form)).success = true →
        (Pipeline.verdict config fetcher (request.inForm form)).outcome =
          (Pipeline.verdict config fetcher request).outcome) := by
  constructor
  · intro separated reads form succeeds
    obtain ⟨session, opened⟩ :
        ∃ session, Session.ofConfig config fetcher {} (some .empty) ⟨0, ⟨0, 0⟩⟩ = .ok session :=
      ⟨_, Session.ofConfig_eq_ok.mpr ⟨valid, rfl⟩⟩
    have empty : session.cache.entries = [] := by
      obtain ⟨-, rfl⟩ := Session.ofConfig_eq_ok.mp opened
      rfl
    have working : session.cache.IsWorking := by
      obtain ⟨-, rfl⟩ := Session.ofConfig_eq_ok.mp opened
      exact ⟨rfl, [], rfl⟩
    have fresh := Session.isFresh_ofConfig opened empty
    have balanced := balanced_ofConfig rfl opened
    obtain ⟨answer, serves, gist⟩ := serves_after_form fresh balanced working reads form
    obtain ⟨other, servesOwn, gistOwn⟩ :=
      serves_after_form fresh balanced working reads request.declaredFormat
    have own : request.inForm request.declaredFormat = request := rfl
    have ownMember : request ∈ request.forms := request.inForm_mem_forms request.declaredFormat
    rw [own, ite_self] at gistOwn
    rw [if_pos succeeds] at gist
    have related : List.Forall₂ (DiffersInForm fetcher request) [request.inForm form] [request] :=
      .cons (.inr ⟨rfl, rfl, request.declaredFormat, rfl⟩) .nil
    have fewer : [request.inForm form] ++ [request] ++ [request] ⊆ request.forms := by
      simp [request.inForm_mem_forms form, ownMember]
    have same := separated {} _ _ session ⟨rfl, rfl, rfl⟩ opened empty _ _ related
      (collisionFree.mono fewer) answer other serves servesOwn
    rw [gist, gistOwn] at same
    exact same
  · intro alike loader store moment session fresh opened empty first second related free answer other
      serves servesOther
    have outcome {history : List SourceModule} {answer : Answer}
        (serves : Serves session history request answer)
        (part : history ++ [request] ⊆ first ++ second ++ [request]) :
        answer.gist.outcome = (Pipeline.verdict config fetcher request).outcome := by
      rcases serves.gist_cases fresh opened empty (free.mono part) with
        own | ⟨reads, form, succeeds, same⟩
      · rw [own]
      · rw [same]
        exact alike reads form succeeds
    rw [outcome serves (by simp), outcome servesOther (by simp)]

/-- A module that is declared a script is refused, but not if an earlier request declared what it is. -/
theorem Traffic.formats_not_separated_of_script :
    ∃ request : SourceModule,
      ({} : Config).validate = .ok () ∧
        (Workload.mk {} none request.forms).CollisionFree ∧
        ¬ FormatsSeparated {} none request := by
  let request : SourceModule :=
    { code := "export default class{}"
      provenance := .generated
      declaredFormat := some .legacyScript }
  have valid : ({} : Config).validate = .ok () := by decide +kernel
  have collisionFree : (Workload.mk {} none request.forms).CollisionFree := by decide +kernel
  refine ⟨request, valid, collisionFree, ?_⟩
  rw [formats_separated_iff valid collisionFree]
  intro alike
  have own : (Pipeline.verdict {} none request).success = false := by decide +kernel
  have module : (Pipeline.verdict {} none (request.inForm (some .module))).success = true := by
    decide +kernel
  have reads : Pipeline.readsCache request = true := by decide +kernel
  have same := congrArg Outcome.success (alike reads (some .module) module)
  rw [Gist.success_outcome, Gist.success_outcome, module, own] at same
  cases same

end LiveComponent
