import LiveComponent.Proofs.ShiftRules

namespace LiveComponent

/-!
# Steps of parsers on sources that are alike from a place on

The tokens that are read in a way of their own, and lists.
-/

namespace Parser

variable
  {α β γ δ : Type}
  {shift : Shift}
  {on : State → Prop}
  {rank : Nat}
  {moved moves : Bool}
  {state : State}
  {stand : Stand}

/-! ## Where rounds lead -/

/-- Rounds end where a turn ends them. -/
theorem of_rounds
    (condition : State → Prop)
    {σ : Type}
    {turn : σ → P (Turn σ α)}
    {value : σ}
    {goals : Goal → Step Tree}
    (ends : ∀ {value state found after}, turn value goals state = some (.done found, after) → condition after)
    {found : α}
    {after : State}
    (ran : rounds turn value goals state = some (found, after)) :
    condition after := by
  have trips (count : Nat) : ∀ {value state}, roundTrips turn count value goals state = some (found, after) →
      condition after := by
    induction count with
    | zero => exact nofun
    | succ count inductionHypothesis =>
        intro value state ran
        simp only [roundTrips, Bind.bind] at ran
        split at ran
        next turned =>
          split at ran
          · exact inductionHypothesis ran
          · cases ran
            exact ends turned
        next => cases ran
  exact trips _ ran

/-- A list with commas ends at its closing mark. -/
theorem commaList_leads
    {close : String}
    {item : P Tree}
    {goals : Goal → Step Tree}
    {found : List Tree × Bool}
    {after : State}
    (ran : commaList close item goals state = some (found, after)) :
    after.token.isMark close = true := by
  unfold commaList at ran
  obtain ⟨closes, _, tested, ran⟩ := exists_of_bind ran
  cases tested
  split at ran
  next isMark =>
    cases ran
    exact isMark
  refine of_rounds (fun state => state.token.isMark close = true) (fun {items state found after} turned => ?_) ran
  obtain ⟨tree, state, _, turned⟩ := exists_of_bind turned
  obtain ⟨closes, _, tested, turned⟩ := exists_of_bind turned
  cases tested
  split at turned
  next isMark =>
    cases turned
    exact isMark
  obtain ⟨_, state, _, turned⟩ := exists_of_bind turned
  obtain ⟨closes, _, tested, turned⟩ := exists_of_bind turned
  cases tested
  split at turned
  next isMark =>
    cases turned
    exact isMark
  next => cases turned

/-- A closing angle bracket stays one when it is joined with what follows it. -/
theorem present_of_rereadAngle
    {goals : Goal → Step Tree}
    {value : Unit}
    {after : State}
    (isMark : state.token.isMark ">" = true)
    (ran : rereadAngle goals state = some (value, after)) :
    Present after := by
  unfold rereadAngle at ran
  obtain ⟨_, _, looked, ran⟩ := exists_of_bind ran
  cases looked
  rw [if_pos isMark] at ran
  cases ran
  change (Lexer.readAngle state.here).token ≠ .eof
  unfold Lexer.readAngle
  split <;> exact nofun

/-- A test that runs ahead leaves the state as it was. -/
theorem of_ahead
    {test : P Bool}
    {goals : Goal → Step Tree}
    {answer : Bool}
    {after : State}
    (ran : ahead test goals state = some (answer, after)) :
    after = state := by
  unfold ahead probe at ran
  split at ran <;> cases ran <;> rfl

/-! ## Tokens of their own -/

/-- The same token is read again in both states. -/
theorem Mirrors.reread
    (mirrors : Mirrors shift state stand)
    (some : Present state)
    {reading : Lexer.Reading}
    (positive : 0 < reading.size)
    (faulty : Bool) :
    Mirrors shift
      { state with
        token := reading.token
        stop := state.start + reading.size
        rest := state.here.drop reading.size
        faulty }
      { stand with stop := stand.start + reading.size } :=
  { mirrors with
    stop := mirrors.start.add _
    rest_le := by
      rw [List.length_drop]
      exact Nat.sub_le _ _
    rest_lt := by
      intro _
      have length := mirrors.rest_lt some
      unfold State.size at length
      change (state.here.drop reading.size).length < state.here.length
      rw [List.length_drop]
      omega }

namespace Alike

variable
  {next : Unit → P γ}
  {next' : Unit → P δ}
  {claim : α → Bool}
  {claim' : γ → Bool}
  {results : γ → δ → Prop}

theorem advanceMarkup :
    Alike shift on rank moved Parser.advanceMarkup Parser.advanceMarkup (fun _ => moved) Eq :=
  modify false fun mirrors _ =>
    have ⟨stand, same, mirrors'⟩ := mirrors.load ⟨_, _, false, .none, true⟩ mirrors.stop (Nat.le_refl _)
      Lexer.readMarkup_some
    ⟨stand, same, mirrors', mirrors.rest_le⟩

theorem advanceMarkupAt
    (some : state.token ≠ .eof) :
    Alike shift (· = state) rank moved Parser.advanceMarkup Parser.advanceMarkup (fun _ => true) Eq :=
  modify true fun mirrors same =>
    have ⟨stand, same', mirrors'⟩ := mirrors.load ⟨_, _, false, .none, true⟩ mirrors.stop (Nat.le_refl _)
      Lexer.readMarkup_some
    ⟨stand, same', mirrors', mirrors.rest_lt (same ▸ some)⟩

theorem advanceToValue :
    Alike shift on rank moved Parser.advanceToValue Parser.advanceToValue (fun _ => moved) Eq :=
  modify false fun {state stand} mirrors _ => by
    obtain ⟨offset, same, places⟩ := skip_places mirrors.stop .blank false .none state.rest
    have length := next_length_le state
    have size_le : (state.next).size ≤ state.size := Nat.le_trans length mirrors.rest_le
    dsimp only [State.onto]
    rw [same]
    dsimp only
    have some : (Lexer.skip .blank state.stop false .none state.rest).rest ≠ [] → ∀ {reading : Lexer.Reading}, 0 < reading.size →
      reading.token ≠ .eof → 0 < reading.size ∧ (Lexer.skip .blank state.stop false .none state.rest).rest ≠ [] :=
        fun some _ positive _ => ⟨positive, some⟩
    split
    next rest quoted =>
      obtain ⟨stand', same', mirrors'⟩ := mirrors.load _ places length
        (some (quoted ▸ List.cons_ne_nil _ _) (Lexer.readQuotedValue_pos '"' rest))
      exact ⟨stand', same', mirrors', size_le⟩
    next rest quoted =>
      obtain ⟨stand', same', mirrors'⟩ := mirrors.load _ places length
        (some (quoted ▸ List.cons_ne_nil _ _) (Lexer.readQuotedValue_pos '\'' rest))
      exact ⟨stand', same', mirrors', size_le⟩
    next =>
      obtain ⟨stand', same', mirrors'⟩ := mirrors.load _ places length Lexer.read_some
      exact ⟨stand', same', mirrors', size_le⟩

theorem reread
    {reading : Lexer.Reading}
    (positive : 0 < reading.size) :
    Alike shift Present rank moved (Parser.reread reading) (Parser.reread reading) (fun _ => moved) Eq :=
  modify false fun {_ stand} mirrors some =>
    ⟨{ stand with stop := stand.start + reading.size }, rfl, mirrors.reread some positive _, Nat.le_refl _⟩

/-- A token that is read again is one. -/
theorem rereadThen
    {reading : Lexer.Reading}
    (positive : 0 < reading.size)
    (some : reading.token ≠ .eof)
    (rest : Alike shift Present rank moved (next ()) (next' ()) claim' results) :
    Alike shift Present rank moved (Parser.reread reading >>= next) (Parser.reread reading >>= next') claim'
      results :=
  bindAt (fun _ => Present) (reread positive) (fun _ ran => by cases ran; exact some) fun _ _ _ => rest

/-- Joining marks takes no text. -/
theorem rereadAngleThen
    (rest : Alike shift (Behind shift) rank moved (next ()) (next' ()) claim' results) :
    Alike shift (Behind shift) rank moved (Parser.rereadAngle >>= next) (Parser.rereadAngle >>= next') claim'
      results where
  run {_} small {_ _} agree {state stand} mirrors behind size_le := by
    simp only [Bind.bind, Parser.rereadAngle, Parser.get]
    by_cases isMark : state.token.isMark ">" = true
    · rw [if_pos isMark, if_pos (show (state.onto stand).token.isMark ">" = true from isMark)]
      exact rest.run small agree
        (mirrors.reread (Token.ne_eof_of_isMark isMark) (Lexer.readAngle_pos state.here) _) behind size_le
    · rw [if_neg isMark, if_neg (show ¬(state.onto stand).token.isMark ">" = true from isMark)]
      exact rest.run small agree mirrors behind size_le

theorem rereadAngle :
    Alike shift on rank moved Parser.rereadAngle Parser.rereadAngle (fun _ => moved) Eq := by
  unfold Parser.rereadAngle
  exact get fun _ _ => ite
    (fun isMark => (reread (Lexer.readAngle_pos _)).given fun same => same ▸ Token.ne_eof_of_isMark isMark) fun _ =>
      pure rfl

theorem rereadOpenAngle :
    Alike shift on rank moved Parser.rereadOpenAngle Parser.rereadOpenAngle (fun _ => moved) Eq := by
  unfold Parser.rereadOpenAngle
  refine get fun {state _} _ _ => ite (fun isMark => (reread Nat.one_pos).given ?_) fun _ => pure rfl
  rintro _ rfl
  simp only [Bool.or_eq_true, or_assoc] at isMark
  rcases isMark with isMark | isMark | isMark <;> exact Token.ne_eof_of_isMark isMark

/-- Behind a substitution the template is read on. -/
theorem closing
    (rest : ∀ value, Alike shift (fun _ => True) rank moved (next value) (next' value) claim' results) :
    Alike shift on rank moved
      (do
        let closes ← Parser.atMark "\x7d"
        if closes = true then do
          let state ← Parser.get
          let value ← Parser.reread (Lexer.readTemplate (state.here.drop 1))
          next value
        else Parser.fail)
      (do
        let closes ← Parser.atMark "\x7d"
        if closes = true then do
          let state ← Parser.get
          let value ← Parser.reread (Lexer.readTemplate (state.here.drop 1))
          next' value
        else Parser.fail)
      claim' results :=
  atMark fun _ => ite
    (fun isMark => get fun _ same => step
      ((reread (Lexer.readTemplate_pos _)).given fun same' => same' ▸ same ▸ Token.ne_eof_of_isMark isMark) rest)
    fun _ => fail

/-! ## Lists -/

variable
  {close mark : String}
  {stop : P Bool}
  {item item' rest rest' : P Tree}

theorem manyUntil
    (test : Alike shift (fun _ => True) (roundRank moved rank) false stop stop (fun _ => false) Eq)
    (each : Alike shift (fun _ => True) (roundRank moved rank) false item item' (fun _ => true) shift.Parts) :
    Alike shift on rank moved (Parser.manyUntil stop item) (Parser.manyUntil stop item') (fun _ => moved)
      shift.Trees :=
  rounds (fun _ => false) shift.Trees .nil fun _ _ held => anywhere <| step test fun _ => ite (fun _ => done held.reverse) fun _ =>
    bind each fun _ _ same => again (same.cons held)

/-- Lists are the same, and so is whether they end in a comma. -/
abbrev ListsSame (shift : Shift) (found found' : List Tree × Bool) : Prop :=
  shift.Trees found.1 found'.1 ∧ found.2 = found'.2

theorem commaList
    (each : Alike shift (fun _ => True) 16 false item item' (fun _ => false) shift.Parts) :
    Alike shift on rank true (Parser.commaList close item) (Parser.commaList close item') (fun _ => true)
      (ListsSame shift) := by
  unfold Parser.commaList
  refine atMark fun _ => ite (fun _ => pure ⟨.nil, rfl⟩) fun _ => anywhere ?_
  refine roundsBehind shift.Trees .nil fun items items' held => anywhere <| bind each fun tree tree' same => ?_
  have more := same.cons held
  refine atMark fun _ => ite (fun _ => done ⟨more.reverse, rfl⟩) fun _ => anywhere ?_
  exact step (expect ",") fun _ => atMark fun _ => ite (fun _ => done ⟨more.reverse, rfl⟩) fun _ => again more

theorem restList
    (each : Alike shift (fun _ => True) 16 false item item' (fun _ => false) shift.Parts)
    (last : Alike shift (fun _ => True) 16 false rest rest' (fun _ => false) shift.Parts) :
    Alike shift on rank true (Parser.restList close item rest) (Parser.restList close item' rest') (fun _ => true)
      shift.Trees := by
  refine roundsBehind (ListsSame shift) ⟨.nil, rfl⟩ fun ⟨items, sawRest⟩ ⟨items', _⟩ ⟨held, same⟩ => anywhere ?_
  obtain rfl : sawRest = _ := same
  refine atMark fun _ => ite (fun _ => done held.reverse) fun _ => step (faultIf rfl) fun _ => atMark fun _ => ?_
  refine choice false (fun _ => last.anywhere) (fun _ => each.anywhere) fun tree tree' same => ?_
  have more := same.cons held
  refine atMark fun _ => ite (fun _ => done more.reverse) fun _ => step (expect ",") fun _ => ?_
  exact get fun _ _ => step (faultIf rfl) fun _ => again ⟨more, rfl⟩

theorem separated
    (each : Alike shift (fun _ => True) (roundRank moved rank) false item item' (fun _ => true) shift.Wholes) :
    Alike shift on rank moved (Parser.separated mark item) (Parser.separated mark item') (fun _ => true)
      (List.Forall₂ shift.Wholes) := by
  refine rounds (fun _ => true) (List.Forall₂ shift.Wholes) .nil fun _ _ held => anywhere <| bind each fun _ _ same => ?_
  exact ifEat (again (.cons same held)) (done (List.rel_reverse (.cons same held)))

end Alike

end Parser

end LiveComponent
