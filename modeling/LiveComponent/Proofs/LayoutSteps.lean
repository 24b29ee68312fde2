import LiveComponent.Markup.Lowering
import LiveComponent.Proofs.Layout
import LiveComponent.Proofs.TokenSizes

namespace LiveComponent

/-!
# Parsers that lay out trees

What a parser reads lies between the token before it and the last token it has read.  So the trees that it has
collected are laid out in the order in which they were read, whatever it does in between.  The rules here follow
the steps of a parser: each step adds its trees to those before it.
-/

namespace Parser

open Tree (Fits Laid)

/-! ## States and goals -/

/-- The places of a state fit each other and a source of `size` characters. -/
structure State.Sound (size : Nat) (state : State) : Prop where
  lastStop_le : state.lastStop ≤ state.start
  start_le : state.start ≤ state.stop
  here_length : state.start + state.here.length = size
  rest_length : state.stop + state.rest.length = size
  here_ne_nil : ∀ text, state.token = .mark text → state.here ≠ []

/-- The state `last` comes after `state` in a source of `size` characters, and the trees lie between the last
tokens of both; with `moves`, a token was read. -/
structure Leads (size : Nat) (moves : Bool) (trees : List Tree) (state last : State) : Prop where
  sound : last.Sound size
  start_le : state.start ≤ last.start
  moved : moves = true → state.start ≤ last.lastStop
  laid : Laid state.lastStop trees last.lastStop

/-- Whether the goal is an expression. -/
def Goal.isExpression : Goal → Bool
  | .expression | .assignment _ | .operation _ | .unary | .simpleUnary | .leftHand | .constructed
  | .markup _ => true
  | _ => false

/-- What is laid out when a goal is reached: the span of an expression lies in its place. -/
def Goal.parts (goal : Goal) (tree : Tree) : List Tree :=
  if goal.isExpression then [tree.asStatement] else [tree]

/-- The goals lay out their trees, and the goal of markup is markup. -/
structure Lawful (size : Nat) (goals : Goal → Step Tree) : Prop where
  leads : ∀ {goal state tree last}, state.Sound size → goals goal state = some (tree, last) →
    Leads size goal.isExpression (goal.parts tree) state last
  markup : ∀ {inChildren state tree last}, goals (.markup inChildren) state = some (tree, last) →
    Markup.isMarkup tree = true

/-- The parser lays out the trees of its result. -/
structure Lays {α : Type} (size : Nat) (moves : Bool) (parser : P α) (trees : α → List Tree) : Prop where
  leads : ∀ {goals}, Lawful size goals → ∀ {state}, state.Sound size →
    ∀ {value last}, parser goals state = some (value, last) →
      Leads size moves (trees value) state last

/-- The trees lie between a place and the last token of the state; `start` is a place of a token, which was read
if `moved`. -/
structure Past (size low start : Nat) (moved : Bool) (trees : List Tree) (state : State) : Prop where
  sound : state.Sound size
  laid : Laid low trees state.lastStop
  low_le : low ≤ start
  start_le : start ≤ if moved then state.lastStop else state.start

/-- Behind some trees, the parser lays out the trees of its result. -/
structure Extends
    {α : Type}
    (size low start : Nat)
    (moved : Bool)
    (before : List Tree)
    (parser : P α)
    (moves : Bool)
    (trees : α → List Tree) :
    Prop where
  past : ∀ {goals}, Lawful size goals → ∀ {state}, Past size low start moved before state →
    ∀ {value last}, parser goals state = some (value, last) →
      Past size low start moves (trees value) last

/-- What the parser finds has the property. -/
structure Gives {α : Type} (size : Nat) (parser : P α) (property : α → Prop) : Prop where
  holds : ∀ {goals}, Lawful size goals → ∀ {state value last}, parser goals state = some (value, last) →
    property value

/-- The value that a turn goes on with has one property, and a result has the other. -/
def Turn.Keeps {σ α : Type} (kept : σ → Prop) (property : α → Prop) : Turn σ α → Prop
  | .again value => kept value
  | .done value => property value

/-- The smaller claim on whether a token is read follows from the larger one. -/
class Fewer (small large : Bool) : Prop where
  less : (small && large) = small

instance Fewer.none (large : Bool) : Fewer false large :=
  ⟨rfl⟩

instance Fewer.all (small : Bool) : Fewer small true :=
  ⟨Bool.and_true small⟩

instance Fewer.same (small : Bool) : Fewer small small :=
  ⟨Bool.and_self small⟩

/-- An expression is read by at least one token. -/
instance Fewer.expression (small resultType : Bool) : Fewer small (Goal.assignment resultType).isExpression :=
  .all small

instance Fewer.markup (small nested : Bool) : Fewer small (Goal.markup nested).isExpression :=
  .all small

instance Fewer.leftHand (small : Bool) : Fewer small Goal.leftHand.isExpression :=
  .all small

instance Fewer.first {small large : Bool} [fewer : Fewer small large] (other : Bool) : Fewer small (large || other) :=
  ⟨by rw [Bool.and_or_distrib_left, fewer.less, Bool.or_eq_left_iff_imp.mpr fun both =>
    (Bool.and_eq_true_iff.mp both).1]⟩

instance Fewer.second {small large : Bool} (other : Bool) [fewer : Fewer small large] : Fewer small (other || large) :=
  ⟨by rw [Bool.or_comm]; exact (Fewer.first other).less⟩

/-- The trees of a result that has none. -/
abbrev noTrees {α : Type} : α → List Tree :=
  fun _ => []

/-- The trees of a result that is one tree. -/
abbrev oneTree : Tree → List Tree :=
  fun tree => [tree]

/-- The trees of a result of which the whole span was read. -/
abbrev wholeTree : Tree → List Tree :=
  fun tree => [tree.asStatement]

variable
  {α β σ : Type}
  {size low start place : Nat}
  {moved moves moves' : Bool}
  {before middle : List Tree}
  {state other : State}
  {parser : P α}
  {next : α → P β}
  {trees : α → List Tree}
  {results : β → List Tree}

theorem State.Sound.of_same
    (sound : state.Sound size)
    (token : other.token = state.token)
    (start : other.start = state.start)
    (stop : other.stop = state.stop)
    (here : other.here = state.here)
    (rest : other.rest = state.rest)
    (lastStop : other.lastStop = state.lastStop) :
    other.Sound size := by
  constructor
  · rw [lastStop, start]
    exact sound.lastStop_le
  · rw [start, stop]
    exact sound.start_le
  · rw [start, here]
    exact sound.here_length
  · rw [stop, rest]
    exact sound.rest_length
  · rw [token, here]
    exact sound.here_ne_nil

theorem Past.le_start
    (past : Past size low start moved before state) :
    start ≤ state.start := by
  have reached := past.start_le
  split at reached
  · exact Nat.le_trans reached past.sound.lastStop_le
  · exact reached

/-- A place that was read is a place in front of the token. -/
theorem Past.weaken
    (past : Past size low start moved before state)
    (less : (moves && moved) = moves) :
    Past size low start moves before state := by
  refine ⟨past.sound, past.laid, past.low_le, ?_⟩
  cases moves with
  | true =>
      obtain rfl : moved = true := less
      exact past.start_le
  | false => exact past.le_start

/-- In front of a token nothing is laid out behind the last one. -/
theorem Past.begin
    (sound : state.Sound size) :
    Past size state.lastStop state.start false [] state :=
  ⟨sound, .nil (Nat.le_refl _), sound.lastStop_le, Nat.le_refl _⟩

/-- What was laid out since a state leads on from it. -/
theorem Past.led
    (past : Past size other.lastStop other.start moved before state) :
    Leads size moved before other state := by
  refine ⟨past.sound, past.le_start, ?_, past.laid⟩
  intro isTrue
  simpa only [isTrue, if_true] using past.start_le

/-- A step leads on from all that was laid out before it. -/
theorem Past.leads
    (past : Past size low start moved before state)
    {last : State}
    (leads : Leads size moves middle state last) :
    Past size low start (moves || moved) (before ++ middle) last := by
  refine ⟨leads.sound, past.laid.append leads.laid, past.low_le, ?_⟩
  have reached := past.start_le
  cases moves with
  | true => exact Nat.le_trans past.le_start (leads.moved rfl)
  | false =>
      cases moved with
      | true => exact Nat.le_trans reached leads.laid.le
      | false => exact Nat.le_trans reached leads.start_le

/-- What follows a step of several steps follows its last one. -/
theorem bind_bind
    {γ : Type}
    {rest : β → P γ} :
    (parser >>= next) >>= rest = parser >>= fun value => next value >>= rest := by
  funext goals state
  simp only [Bind.bind]
  cases parser goals state <;> rfl

/-- Two steps are taken one after the other. -/
theorem exists_of_bind
    {goals : Goal → Step Tree}
    {result : β}
    {last : State}
    (ran : (parser >>= next) goals state = some (result, last)) :
    ∃ value after, parser goals state = some (value, after) ∧ next value goals after = some (result, last) := by
  simp only [Bind.bind] at ran
  split at ran
  next value after stepped => exact ⟨value, after, stepped, ran⟩
  next => cases ran

/-! ## The rules -/

/-- A parser that goes on from nothing lays out its trees. -/
theorem Lays.of_extends
    (goesOn : ∀ low start, Extends size low start false [] parser moves trees) :
    Lays size moves parser trees where
  leads {goals} lawful {state} sound {value last} ran := by
    exact ((goesOn state.lastStop state.start).past lawful (.begin sound) ran).led

/-- A parser that leaves the state as it is lays out nothing. -/
theorem Lays.still
    (same : ∀ {goals state value last}, parser goals state = some (value, last) → last = state) :
    Lays size false parser noTrees where
  leads {goals} lawful {state} sound {value last} ran := by
    obtain rfl := same ran
    exact ⟨sound, Nat.le_refl _, by simp, .nil (Nat.le_refl _)⟩

/-- A parser that lays out trees may lay out less. -/
theorem Lays.mono
    (lays : Lays size moves parser trees)
    {others : α → List Tree}
    (less : ∀ value {low high}, Laid low (trees value) high → Laid low (others value) high)
    [fewer : Fewer moves' moves] :
    Lays size moves' parser others where
  leads {goals} lawful {state} sound {value last} ran := by
    have leads := lays.leads lawful sound ran
    refine ⟨leads.sound, leads.start_le, fun isTrue => leads.moved ?_, less value leads.laid⟩
    subst isTrue
    exact fewer.less

namespace Extends

/-- A step that goes on with the trees before it. -/
theorem andThen
    (first : Extends size low start moved before parser moves trees)
    (rest : ∀ value, Extends size low start moves (trees value) (next value) moves' results) :
    Extends size low start moved before (parser >>= next) moves' results where
  past {goals} lawful {state} past {value last} ran := by
    obtain ⟨found, after, stepped, goesOn⟩ := exists_of_bind ran
    exact (rest found).past lawful (first.past lawful past stepped) goesOn

/-- A parser that lays out its trees adds them to those before it. -/
theorem of_lays
    (lays : Lays size moves parser trees)
    (fewer : (moves' && (moves || moved)) = moves') :
    Extends size low start moved before parser moves' fun value => before ++ trees value where
  past {_} lawful {_} past {_ _} ran := (past.leads (lays.leads lawful past.sound ran)).weaken fewer

/-- A step adds its trees, of which something is known. -/
theorem bindWith
    {property : α → Prop}
    (given : Gives size parser property)
    (first : Lays size moves parser trees)
    (rest : ∀ value, property value →
      Extends size low start (moves || moved) (before ++ trees value) (next value) moves' results) :
    Extends size low start moved before (parser >>= next) moves' results where
  past {goals} lawful {state} past {value last} ran := by
    obtain ⟨found, after, stepped, goesOn⟩ := exists_of_bind ran
    exact (rest found (given.holds lawful stepped)).past lawful
      (past.leads (first.leads lawful past.sound stepped)) goesOn

/-- A step adds its trees. -/
theorem bind
    (first : Lays size moves parser trees)
    (rest : ∀ value,
      Extends size low start (moves || moved) (before ++ trees value) (next value) moves' results) :
    Extends size low start moved before (parser >>= next) moves' results :=
  andThen (of_lays first (Bool.and_self _)) rest

/-- A step without trees. -/
theorem step
    (first : Lays size moves parser noTrees)
    (rest : ∀ value, Extends size low start (moves || moved) before (next value) moves' results) :
    Extends size low start moved before (parser >>= next) moves' results :=
  bind first fun value => by
    rw [List.append_nil]
    exact rest value

/-- Nothing is lost if more was read. -/
theorem more
    (goesOn : Extends size low start moved before parser moves trees)
    {taken : Bool} :
    Extends size low start (taken || moved) before parser moves trees where
  past {_} lawful {_} past {_ _} ran :=
    goesOn.past lawful (past.weaken (by cases moved <;> simp)) ran

/-- A value is passed on. -/
theorem passing
    {value : α}
    (rest : Extends size low start moved before (next value) moves' results) :
    Extends size low start moved before (Pure.pure value >>= next) moves' results where
  past {_} lawful {_} past {_ _} ran := rest.past lawful past ran

theorem ite
    {condition : Prop}
    [Decidable condition]
    {other : P α}
    (first : Extends size low start moved before parser moves trees)
    (second : Extends size low start moved before other moves trees) :
    Extends size low start moved before (if condition then parser else other) moves trees := by
  split
  · exact first
  · exact second

/-- A choice of two steps, after which both go on in the same way. -/
theorem choice
    {condition : Prop}
    [Decidable condition]
    {other : P α}
    (first : Lays size moves parser trees)
    (second : Lays size moves' other trees)
    {result : Bool}
    (rest : ∀ value, Extends size low start moved (before ++ trees value) (next value) result results) :
    Extends size low start moved before (if condition then parser >>= next else other >>= next) result
      results := by
  split
  · exact bind first fun value => (rest value).more
  · exact bind second fun value => (rest value).more

/-- A step without trees that is taken on a condition. -/
theorem sometimes
    {condition : Prop}
    [Decidable condition]
    {parser : P Unit}
    {next : Unit → P β}
    (first : Lays size moves parser noTrees)
    {result : Bool}
    (rest : ∀ value, Extends size low start moved before (next value) result results) :
    Extends size low start moved before (if condition then parser >>= next else next ()) result results := by
  split
  · exact step first fun value => (rest value).more
  · exact rest ()

/-- With nothing before it, the last step of a parser lays out the result. -/
theorem lastly
    (lays : Lays size moves parser trees)
    [fewer : Fewer moves' (moves || moved)] :
    Extends size low start moved [] parser moves' trees :=
  of_lays lays fewer.less

theorem pure
    {value : α}
    (same : trees value = before)
    [fewer : Fewer moves moved] :
    Extends size low start moved before (Pure.pure value) moves trees where
  past {goals} lawful {state} past {value' last} ran := by
    cases ran
    rw [same]
    exact past.weaken fewer.less

theorem fail :
    Extends size low start moved before (Parser.fail : P α) moves trees where
  past {_} _ {_} _ {_ _} ran := by cases ran

/-- Instead of trees others may be laid out, if they lie in the same place. -/
theorem replace
    (middle : List Tree)
    (same : ∀ {low high}, Laid low before high → Laid low middle high)
    (rest : Extends size low start moved middle parser moves trees) :
    Extends size low start moved before parser moves trees where
  past {_} lawful {_} past {_ _} ran :=
    rest.past lawful ⟨past.sound, same past.laid, past.low_le, past.start_le⟩ ran

/-- Trees that are not used later are left out. -/
theorem drop
    (rest : Extends size low start moved [] parser moves trees) :
    Extends size low start moved before parser moves trees :=
  replace [] (fun laid => .nil laid.le) rest

/-- A tree of which the span lies in its place is laid out. -/
theorem tree
    {parser : P Tree}
    (whole : Extends size low start moved before parser moves wholeTree) :
    Extends size low start moved before parser moves oneTree where
  past {_} lawful {_} past {_ _} ran :=
    have further := whole.past lawful past ran
    ⟨further.sound, further.laid.of_statement, further.low_le, further.start_le⟩

/-- The whole state, with the start of the current token, is kept in mind. -/
theorem get
    {next : State → P α}
    (rest : ∀ state : State, Extends size low state.start false before (next state) true trees) :
    Extends size low start moved before (Parser.get >>= next) moves trees where
  past {goals} lawful {state} past {value last} ran := by
    have further := (rest state).past lawful
      ⟨past.sound, past.laid, Nat.le_trans past.laid.le past.sound.lastStop_le, Nat.le_refl _⟩ ran
    have reached : start ≤ last.lastStop := Nat.le_trans past.le_start further.start_le
    have read : Past size low start true (trees value) last :=
      ⟨further.sound, further.laid, past.low_le, reached⟩
    exact read.weaken (Bool.and_true _)

/-- What reads a token may be taken for what reads none. -/
theorem idle
    (goesOn : Extends size low start moved before parser moves trees) :
    Extends size low start moved before parser false trees where
  past {_} lawful {_} past {_ _} ran := (goesOn.past lawful past ran).weaken rfl

/-- The whole state is kept in mind by a parser that may read nothing. -/
theorem getIdle
    {next : State → P α}
    (rest : ∀ state : State, Extends size low state.start false before (next state) false trees) :
    Extends size low start moved before (Parser.get >>= next) false trees where
  past {goals} lawful {state} past {value last} ran := by
    have further := (rest state).past lawful
      ⟨past.sound, past.laid, Nat.le_trans past.laid.le past.sound.lastStop_le, Nat.le_refl _⟩ ran
    exact ⟨further.sound, further.laid, past.low_le, Nat.le_trans past.le_start further.start_le⟩

/-- The start of the current token is kept in mind. -/
theorem here
    {next : Nat → P α}
    (rest : ∀ place, Extends size low place false before (next place) true trees) :
    Extends size low start moved before (Parser.here >>= next) moves trees where
  past {_} lawful {_} past {_ _} ran :=
    (get fun state => rest state.start).past lawful past ran

/-- A node takes the place of its children behind other trees. -/
theorem nodeAfter
    {kind : Kind}
    {children : List Tree}
    (front : List Tree)
    (same : before = front ++ children)
    (fits : ∀ {low high}, Fits low high ⟨place, high⟩ children kind) :
    Extends size low start moved before (Parser.node place kind children) moved fun tree =>
      front ++ [tree] where
  past {goals} lawful {state} past {value last} ran := by
    subst same
    cases ran
    obtain ⟨between, first, second⟩ := past.laid.split
    exact ⟨past.sound, first.append (.node second fits), past.low_le, past.start_le⟩

/-- A node is laid out where its children are. -/
theorem node
    {kind : Kind}
    {children : List Tree}
    (same : before = children)
    (fits : ∀ {high}, Fits low high ⟨place, high⟩ children kind)
    [fewer : Fewer moves moved] :
    Extends size low start moved before (Parser.node place kind children) moves oneTree where
  past {goals} lawful {state} past {value last} ran := by
    subst same
    cases ran
    exact (Past.weaken ⟨past.sound, .node past.laid fits, past.low_le, past.start_le⟩) fewer.less

/-- From the place of its first token on, a node covers what was read. -/
theorem whole
    {kind : Kind}
    {children : List Tree}
    (same : before = children)
    (fits : ∀ {high}, start ≤ high → low ≤ start → Fits low high ⟨start, high⟩ children kind) :
    Extends size low start true before (Parser.node start kind children) true wholeTree where
  past {goals} lawful {state} past {value last} ran := by
    subst same
    cases ran
    have reached : start ≤ state.lastStop := past.start_le
    exact ⟨past.sound,
      .statement (.node past.laid (fits reached past.low_le)) ⟨past.low_le, reached, Nat.le_refl _⟩,
      past.low_le, past.start_le⟩

theorem withFlags
    {change : Flags → Flags}
    (inner : Extends size low start moved before parser moves trees) :
    Extends size low start moved before (Parser.withFlags change parser) moves trees where
  past {goals} lawful {state} past {value last} ran := by
    unfold Parser.withFlags at ran
    split at ran
    next found after innerRan =>
      cases ran
      have changed : Past size low start moved before { state with flags := change state.flags } :=
        ⟨past.sound.of_same rfl rfl rfl rfl rfl rfl, past.laid, past.low_le, past.start_le⟩
      have further := inner.past lawful changed innerRan
      exact ⟨further.sound.of_same rfl rfl rfl rfl rfl rfl, further.laid, further.low_le, further.start_le⟩
    next => cases ran

/-- The trees of a turn. -/
abbrev turnTrees (held : σ → List Tree) (trees : α → List Tree) : Turn σ α → List Tree
  | .again value => held value
  | .done value => trees value

/-- What one round keeps, all rounds keep; each of them may read a token, and each begins with a value of which
something is known. -/
theorem roundsKeeping
    {step : σ → P (Turn σ α)}
    {first : σ}
    (held : σ → List Tree)
    (same : held first = before)
    (kept : σ → Prop)
    (keeps : ∀ value, kept value → Gives size (step value) (Turn.Keeps kept fun _ => True))
    (each : ∀ value, kept value →
      Extends size low start moved (held value) (step value) moves (turnTrees held trees))
    (begins : kept first)
    (fewer : (moved && moves) = moved) :
    Extends size low start moved before (Parser.rounds step first) moves trees where
  past {goals} lawful {state} past {value last} ran := by
    subst same
    have trips (count : Nat) (value : σ) (begins : kept value) :
        Extends size low start moved (held value) (roundTrips step count value) moves trees := by
      induction count generalizing value with
      | zero => exact fail
      | succ count inductionHypothesis =>
          constructor
          intro goals lawful state past result last ran
          obtain ⟨turn, after, stepped, goesOn⟩ := exists_of_bind ran
          have further := (each value begins).past lawful past stepped
          have turnKept := (keeps value begins).holds lawful stepped
          cases turn with
          | again value => exact (inductionHypothesis value turnKept).past lawful (further.weaken fewer) goesOn
          | done result =>
              cases goesOn
              exact further
    exact (trips state.budget first begins).past lawful past ran

/-- What one round keeps, all rounds keep; each of them may read a token. -/
theorem roundsWith
    {step : σ → P (Turn σ α)}
    {first : σ}
    (held : σ → List Tree)
    (same : held first = before)
    (each : ∀ value,
      Extends size low start moved (held value) (step value) moves (turnTrees held trees))
    (fewer : (moved && moves) = moved) :
    Extends size low start moved before (Parser.rounds step first) moves trees :=
  have keeps (value : σ) : Gives size (step value) (Turn.Keeps (fun _ => True) fun _ => True) :=
    ⟨fun {_} _ {_ turn _} _ => by cases turn <;> trivial⟩
  roundsKeeping held same (fun _ => True) (fun value _ => keeps value) (fun value _ => each value) trivial fewer

/-- What one round keeps, all rounds keep. -/
theorem rounds
    {step : σ → P (Turn σ α)}
    {first : σ}
    (held : σ → List Tree)
    (same : held first = before)
    (each : ∀ value,
      Extends size low start moved (held value) (step value) moved (turnTrees held trees)) :
    Extends size low start moved before (Parser.rounds step first) moved trees :=
  roundsWith held same each (Bool.and_self _)

end Extends

theorem Lays.withFlags
    {change : Flags → Flags}
    (lays : Lays size moves parser trees) :
    Lays size moves (Parser.withFlags change parser) trees :=
  .of_extends fun _ _ => .withFlags (.lastly lays)

namespace Gives

variable {property : α → Prop} {property' : β → Prop}

theorem bindWith
    (first : Gives size parser property)
    (rest : ∀ value, property value → Gives size (next value) property') :
    Gives size (parser >>= next) property' where
  holds {goals} lawful {state value last} ran := by
    obtain ⟨found, after, stepped, goesOn⟩ := exists_of_bind ran
    exact (rest found (first.holds lawful stepped)).holds lawful goesOn

theorem bind
    (rest : ∀ value, Gives size (next value) property') :
    Gives size (parser >>= next) property' :=
  have always : Gives size parser fun _ => True := ⟨fun {_} _ {_ _ _} _ => trivial⟩
  bindWith always fun value _ => rest value

theorem pure
    {value : α}
    (given : property value) :
    Gives size (Pure.pure value) property where
  holds {_} _ {_ _ _} ran := by
    cases ran
    exact given

theorem fail :
    Gives size (Parser.fail : P α) property where
  holds {_} _ {_ _ _} ran := by cases ran

theorem node
    {kind : Kind}
    {children : List Tree}
    {property : Tree → Prop}
    (given : ∀ span, property (.node kind span children)) :
    Gives size (Parser.node start kind children) property where
  holds {_} _ {_ _ _} ran := by
    cases ran
    exact given _

theorem ite
    {condition : Prop}
    [Decidable condition]
    {other : P α}
    (first : Gives size parser property)
    (second : Gives size other property) :
    Gives size (if condition then parser else other) property := by
  split
  · exact first
  · exact second

/-- What one round keeps, all rounds keep. -/
theorem rounds
    {step : σ → P (Turn σ α)}
    {first : σ}
    (held : σ → Prop)
    (each : ∀ value, held value → Gives size (step value) (Turn.Keeps held property))
    (begins : held first) :
    Gives size (Parser.rounds step first) property where
  holds {goals} lawful {state value last} ran := by
    have trips (count : Nat) (value : σ) (holds : held value) :
        Gives size (roundTrips step count value) property := by
      induction count generalizing value with
      | zero => exact fail
      | succ count inductionHypothesis =>
          refine bindWith (each value holds) fun turn after => ?_
          cases turn with
          | again value => exact inductionHypothesis value after
          | done result => exact pure after
    exact (trips state.budget first begins).holds lawful ran

end Gives

/-! ## Tokens -/

/-- The next token is read behind the current one. -/
theorem Leads.of_load
    (sound : state.Sound size)
    {start : Lexer.Start}
    {reading : Lexer.Reading}
    (behind : state.stop ≤ start.offset)
    (length : start.offset + start.rest.length = size)
    (fits : reading.size ≤ start.rest.length)
    (some : ∀ text, reading.token = .mark text → start.rest ≠ []) :
    Leads size true [] state (state.load start reading) where
  sound := by
    refine ⟨behind, Nat.le_add_right _ _, length, ?_, some⟩
    simp only [State.load, List.length_drop]
    omega
  start_le := Nat.le_trans sound.start_le behind
  moved _ := sound.start_le
  laid := .nil (Nat.le_trans sound.lastStop_le sound.start_le)

/-- A mark takes a character. -/
theorem ne_nil_of_read
    {text : Text}
    {mark : String}
    (isMark : (Lexer.read text).token = .mark mark) :
    text ≠ [] := by
  rintro rfl
  cases isMark

theorem leads_next
    (sound : state.Sound size) :
    Leads size true [] state state.next := by
  obtain ⟨behind, counted⟩ := Lexer.skip_length .blank state.stop false .none state.rest
  exact .of_load sound behind (counted.trans sound.rest_length) (Lexer.read_size _) fun _ => ne_nil_of_read

theorem lays_advanceName :
    Lays size true advanceName noTrees where
  leads {_} _ {_} sound {_ _} ran := by
    cases ran
    exact leads_next sound

theorem lays_advance :
    Lays size true advance noTrees where
  leads {_} _ {_} sound {_ _} ran := by
    cases ran
    have leads := leads_next sound
    exact ⟨leads.sound.of_same rfl rfl rfl rfl rfl rfl, leads.start_le, leads.moved, leads.laid⟩

theorem lays_advanceMarkup :
    Lays size true advanceMarkup noTrees where
  leads {_} _ {state} sound {_ _} ran := by
    cases ran
    refine .of_load sound (Nat.le_refl _) sound.rest_length (Lexer.readMarkup_size _) fun text isMark none => ?_
    change state.rest = [] at none
    rw [none] at isMark
    cases isMark

theorem lays_advanceToValue :
    Lays size true advanceToValue noTrees where
  leads {_} _ {state} sound {_ last} ran := by
    obtain ⟨behind, counted⟩ := Lexer.skip_length .blank state.stop false .none state.rest
    obtain rfl := congrArg Prod.snd (Option.some.inj ran)
    have length := counted.trans sound.rest_length
    dsimp only
    split
    next rest quoted =>
      refine .of_load sound behind length ?_ fun _ _ => ?_
      · rw [quoted]
        exact Lexer.readQuotedValue_size _ rest
      · rw [quoted]
        exact List.cons_ne_nil _ _
    next rest quoted =>
      refine .of_load sound behind length ?_ fun _ _ => ?_
      · rw [quoted]
        exact Lexer.readQuotedValue_size _ rest
      · rw [quoted]
        exact List.cons_ne_nil _ _
    next =>
      exact .of_load sound behind length (Lexer.read_size _) fun _ => ne_nil_of_read

/-- A token that is read again stays in its place. -/
theorem leads_reread
    (sound : state.Sound size)
    (reading : Lexer.Reading)
    (faulty : Bool)
    (fits : reading.size ≤ state.here.length)
    (some : ∀ text, reading.token = .mark text → state.here ≠ []) :
    Leads size false [] state
      { state with
        token := reading.token
        stop := state.start + reading.size
        rest := state.here.drop reading.size
        faulty } where
  sound := by
    refine ⟨sound.lastStop_le, Nat.le_add_right _ _, sound.here_length, ?_, some⟩
    have length := sound.here_length
    simp only [List.length_drop]
    omega
  start_le := Nat.le_refl _
  moved isTrue := by cases isTrue
  laid := .nil (Nat.le_refl _)

theorem token_of_isMark
    {token : Token}
    {text : String}
    (isMark : token.isMark text = true) :
    token = .mark text := by
  cases token with
  | mark got => exact congrArg Token.mark (eq_of_beq isMark)
  | _ => cases isMark

theorem lays_rereadAngle :
    Lays size false rereadAngle noTrees where
  leads {_} _ {state} sound {_ _} ran := by
    unfold rereadAngle at ran
    simp only [Bind.bind, get] at ran
    split at ran
    next isMark =>
      cases ran
      have some := sound.here_ne_nil _ (token_of_isMark isMark)
      exact leads_reread sound _ _ (Lexer.readAngle_size some) fun _ _ => some
    next =>
      cases ran
      exact ⟨sound, Nat.le_refl _, by simp, .nil (Nat.le_refl _)⟩

theorem lays_rereadOpenAngle :
    Lays size false rereadOpenAngle noTrees where
  leads {_} _ {state} sound {_ _} ran := by
    unfold rereadOpenAngle at ran
    simp only [Bind.bind, get] at ran
    split at ran
    next isMark =>
      cases ran
      have some : state.here ≠ [] := by
        simp only [Bool.or_eq_true, or_assoc] at isMark
        rcases isMark with isMark | isMark | isMark <;>
          exact sound.here_ne_nil _ (token_of_isMark isMark)
      exact leads_reread sound ⟨.mark "<", 1, true⟩ _ (List.length_pos_iff.mpr some) fun _ _ => some
    next =>
      cases ran
      exact ⟨sound, Nat.le_refl _, by simp, .nil (Nat.le_refl _)⟩

/-- Behind a substitution the template is read on. -/
theorem Extends.closing
    {next : Unit → P β}
    {moves : Bool}
    (rest : ∀ value, Extends size low start moved before (next value) moves results) :
    Extends size low start moved before
      (do
        let closes ← atMark "\x7d"
        if closes = true then do
          let state ← Parser.get
          let value ← reread (Lexer.readTemplate (state.here.drop 1))
          next value
        else Parser.fail)
      moves results where
  past {goals} lawful {state} past {value last} ran := by
    change (if state.token.isMark "\x7d" = true then _ else _ : P β) goals state = _ at ran
    split at ran
    next isMark =>
      have some := past.sound.here_ne_nil _ (token_of_isMark isMark)
      have positive := List.length_pos_iff.mpr some
      have fits := Lexer.readTemplate_size (state.here.drop 1)
      rw [List.length_drop, Nat.sub_add_cancel positive] at fits
      let reading := Lexer.readTemplate (state.here.drop 1)
      have further := past.leads
        (leads_reread past.sound reading (state.faulty || !reading.valid) fits fun _ _ => some)
      rw [List.append_nil] at further
      exact (rest ()).past lawful further ran
    next => cases ran

/-! ## Tests -/

theorem lays_get :
    Lays size false get noTrees :=
  .still fun ran => by
    cases ran
    rfl

theorem lays_here :
    Lays size false here noTrees :=
  .still fun ran => by
    cases ran
    rfl

theorem lays_atMark (text : String) :
    Lays size false (atMark text) noTrees :=
  .still fun ran => by
    cases ran
    rfl

theorem lays_atOneOf (texts : List String) :
    Lays size false (atOneOf texts) noTrees :=
  .still fun ran => by
    cases ran
    rfl

theorem lays_atWord (text : String) :
    Lays size false (atWord text) noTrees :=
  .still fun ran => by
    cases ran
    rfl

theorem lays_canEndStatement :
    Lays size false canEndStatement noTrees :=
  .still fun ran => by
    cases ran
    rfl

/-- What is only tried leaves the state as it was. -/
theorem lays_probe
    (answer : α)
    (parser : P α) :
    Lays size false (probe answer parser) noTrees :=
  .still fun ran => by
    unfold probe at ran
    split at ran <;> cases ran <;> rfl

theorem lays_ahead (test : P Bool) :
    Lays size false (ahead test) noTrees :=
  lays_probe false test

/-- A change that leaves all places as they are. -/
theorem lays_modify
    {change : State → State}
    (token : ∀ state, (change state).token = state.token)
    (start : ∀ state, (change state).start = state.start)
    (stop : ∀ state, (change state).stop = state.stop)
    (here : ∀ state, (change state).here = state.here)
    (rest : ∀ state, (change state).rest = state.rest)
    (lastStop : ∀ state, (change state).lastStop = state.lastStop) :
    Lays size false (modify change) noTrees where
  leads {_} _ {state} sound {_ _} ran := by
    cases ran
    exact ⟨sound.of_same (token _) (start _) (stop _) (here _) (rest _) (lastStop _),
      Nat.le_of_eq (start _).symm, by simp, .nil (Nat.le_of_eq (lastStop _).symm)⟩

theorem lays_fault :
    Lays size false fault noTrees :=
  lays_modify (fun _ => rfl) (fun _ => rfl) (fun _ => rfl) (fun _ => rfl) (fun _ => rfl) fun _ => rfl

theorem lays_faultIf (condition : Bool) :
    Lays size false (faultIf condition) noTrees := by
  cases condition with
  | true => exact lays_fault
  | false => exact .of_extends fun _ _ => .pure rfl

/-! ## Marks and words -/

theorem lays_expect (text : String) :
    Lays size true (expect text) noTrees := by
  refine .of_extends fun _ _ => ?_
  unfold expect
  refine .step (lays_atMark text) fun found => ?_
  split
  · exact .lastly lays_advance
  · exact .fail

theorem lays_expectWord (text : String) :
    Lays size true (expectWord text) noTrees := by
  refine .of_extends fun _ _ => ?_
  unfold expectWord
  refine .step (lays_atWord text) fun found => ?_
  split
  · exact .lastly lays_advance
  · exact .fail

theorem lays_eat (text : String) :
    Lays size false (eat text) noTrees := by
  refine .of_extends fun _ _ => ?_
  unfold eat
  refine .step (lays_atMark text) fun found => ?_
  split
  · exact .step lays_advance fun _ => .pure rfl
  · exact .pure rfl

theorem lays_eatWord (text : String) :
    Lays size false (eatWord text) noTrees := by
  refine .of_extends fun _ _ => ?_
  unfold eatWord
  refine .step (lays_atWord text) fun found => ?_
  split
  · exact .step lays_advance fun _ => .pure rfl
  · exact .pure rfl

theorem lays_endStatement :
    Lays size false endStatement noTrees := by
  refine .of_extends fun _ _ => ?_
  unfold endStatement
  refine .step lays_canEndStatement fun found => ?_
  split
  · exact .step (lays_eat ";") fun _ => .pure rfl
  · exact .fail

/-! ## Parts -/

theorem lays_pure (value : α) :
    Lays size false (Pure.pure value : P α) noTrees :=
  .of_extends fun _ _ => .pure rfl

/-- What was tried and failed was not read. -/
theorem lays_attempt
    (lays : Lays size moves parser trees) :
    Lays size false (attempt parser) fun found => found.elim [] trees where
  leads {_} lawful {_} sound {_ _} ran := by
    unfold attempt at ran
    split at ran
    next found after stepped =>
      cases ran
      have leads := lays.leads lawful sound stepped
      exact ⟨leads.sound, leads.start_le, by simp, leads.laid⟩
    next =>
      cases ran
      exact ⟨sound, Nat.le_refl _, by simp, .nil (Nat.le_refl _)⟩

theorem lays_attemptOption
    {parser : P (Option α)}
    (trees : α → List Tree)
    (lays : Lays size false parser fun found => found.elim [] trees) :
    Lays size false (attemptOption parser) fun found => found.elim [] trees where
  leads {_} lawful {_} sound {_ _} ran := by
    unfold attemptOption at ran
    split at ran
    next found after stepped =>
      cases ran
      have leads := lays.leads lawful sound stepped
      exact ⟨leads.sound, leads.start_le, by simp, leads.laid⟩
    next =>
      cases ran
      exact ⟨sound, Nat.le_refl _, by simp, .nil (Nat.le_refl _)⟩

/-- A part may be missing. -/
theorem lays_absent :
    Lays size false (Pure.pure Tree.absent : P Tree) oneTree where
  leads {_} _ {_} sound {_ _} ran := by
    cases ran
    exact ⟨sound, Nat.le_refl _, by simp, .absent (Nat.le_refl _)⟩

theorem lays_optionalPart
    {parser : P Tree}
    (condition : Bool)
    (lays : Lays size moves parser oneTree) :
    Lays size false (optionalPart condition parser) oneTree := by
  cases condition with
  | true => exact lays.mono fun _ {_ _} => id
  | false => exact lays_absent

/-- The span of an expression that is wanted lies in its place. -/
theorem lays_whole
    {goal : Goal}
    (isExpression : goal.isExpression = true) :
    Lays size true (want goal) wholeTree where
  leads {_} lawful {_} sound {_ _} ran := by
    have leads := lawful.leads sound ran
    rwa [Goal.parts, isExpression, if_pos rfl] at leads

/-- What is wanted is laid out. -/
theorem lays_want (goal : Goal) :
    Lays size goal.isExpression (want goal) oneTree where
  leads {_} lawful {_} sound {_ _} ran := by
    have leads := lawful.leads sound ran
    refine ⟨leads.sound, leads.start_le, leads.moved, ?_⟩
    have laid := leads.laid
    unfold Goal.parts at laid
    split at laid
    · exact laid.of_statement
    · exact laid

/-! ## Lists -/

theorem lays_manyUntil
    {stop : P Bool}
    {item : P Tree}
    (test : Lays size false stop noTrees)
    (lays : Lays size moves item oneTree) :
    Lays size false (manyUntil stop item) id := by
  refine .of_extends fun _ _ => .rounds List.reverse rfl fun items => ?_
  refine .step test fun stops => ?_
  split
  · exact .pure rfl
  · exact .bind lays fun tree => .pure (by simp)

theorem lays_commaList
    {close : String}
    {item : P Tree}
    (lays : Lays size moves item oneTree) :
    Lays size false (commaList close item) Prod.fst := by
  refine .of_extends fun _ _ => ?_
  unfold commaList
  refine .step (lays_atMark close) fun closes => ?_
  split
  · exact .pure rfl
  refine .rounds List.reverse rfl fun items => ?_
  refine .bind lays fun tree => .step (lays_atMark close) fun closes => ?_
  split
  · exact .pure (by simp)
  refine .step (lays_expect ",") fun _ => .step (lays_atMark close) fun closes => ?_
  split
  · exact .pure (by simp)
  · exact .pure (by simp)

theorem lays_restList
    {close : String}
    {item rest : P Tree}
    (lays : Lays size moves item oneTree)
    (laysRest : Lays size moves' rest oneTree) :
    Lays size false (restList close item rest) id := by
  refine .of_extends fun _ _ => .rounds (fun held => held.1.reverse) rfl fun held => ?_
  refine .step (lays_atMark close) fun closes => ?_
  split
  · exact .pure rfl
  refine .step (lays_faultIf _) fun _ => .step (lays_atMark "...") fun isRest => ?_
  refine .choice laysRest lays fun tree => .step (lays_atMark close) fun closes => ?_
  split
  · exact .pure (by simp)
  · exact .step (lays_expect ",") fun _ => .step lays_get fun state => .step (lays_faultIf _) fun _ =>
      .pure (by simp)

/-- Each of the items that are found is laid out in the shape in which it was read. -/
theorem lays_separatedIn
    {mark : String}
    {item : P Tree}
    (shape : Tree → Tree)
    (lays : Lays size moves item fun tree => [shape tree]) :
    Lays size moves (separated mark item) (List.map shape) := by
  refine .of_extends fun _ _ => .roundsWith (fun items => items.reverse.map shape) rfl (fun items => ?_) rfl
  refine .bind lays fun tree => .step (lays_eat mark) fun more => ?_
  split
  · exact .pure (by simp)
  · exact .pure (by simp)

theorem lays_separated
    {mark : String}
    {item : P Tree}
    (lays : Lays size moves item oneTree) :
    Lays size false (separated mark item) id :=
  (lays_separatedIn id lays).mono fun items {_ _} laid => by rwa [List.map_id] at laid

/-- Each of the items that are found has the property of an item. -/
theorem gives_manyUntil
    {stop : P Bool}
    {item : P Tree}
    {property : Tree → Prop}
    (given : Gives size item property) :
    Gives size (manyUntil stop item) fun items => ∀ tree ∈ items, property tree := by
  refine .rounds (fun items => ∀ tree ∈ items, property tree) (fun items before => ?_) (by simp)
  refine .bind fun stops => .ite (.pure ?_) (.bindWith given fun tree holds => .pure ?_)
  · intro tree among
    exact before tree (List.mem_reverse.mp among)
  · intro other among
    rcases List.mem_cons.mp among with rfl | among
    · exact holds
    · exact before other among

end Parser

end LiveComponent
