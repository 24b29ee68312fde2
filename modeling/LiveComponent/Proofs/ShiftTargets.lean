import LiveComponent.Proofs.ShiftFunctions
import LiveComponent.Script.Parser.Target

namespace LiveComponent

/-!
# Assignment targets on sources that are alike from a place on

Whether an expression stands for a target is decided by its look, except that a list must not end in a comma
behind a rest element; the commas are found at the same places.
-/

namespace Parser

variable
  {shift : Shift}
  {on : State → Prop}
  {rank : Nat}
  {moved : Bool}
  {tree tree' : Tree}
  {trees trees' : List Tree}
  {places places' commas commas' : List Nat}

/-! ## Lists of places -/

theorem filter_places
    (same : List.Forall₂ shift.Places places places')
    (others : List.Forall₂ shift.Places commas commas') :
    List.Forall₂ shift.Places (places.filter fun start => !commas.contains start)
      (places'.filter fun start => !commas'.contains start) := by
  induction same with
  | nil => exact .nil
  | cons first _ rest =>
      rw [List.filter_cons, List.filter_cons, Shift.contains_eq others first]
      split
      · exact .cons first rest
      · exact rest

/-! ## Simple targets -/

theorem inner_same
    (same : shift.Parts tree tree') :
    shift.Parts (inner tree) (inner tree') := by
  induction tree generalizing tree' with
  | node kind span children inductionHypothesis =>
      obtain ⟨span', children', rfl, parts⟩ := same.of_node_left
      unfold inner
      split
      next expression found =>
        cases found
        obtain ⟨_, rfl, first⟩ := parts.of_one_left
        exact inductionHypothesis expression (by simp) first
      next expression _ found =>
        cases found
        obtain ⟨_, _, rfl, first, _⟩ := parts.of_two_left
        exact inductionHypothesis expression (by simp) first
      next expression _ found =>
        cases found
        obtain ⟨_, _, rfl, first, _⟩ := parts.of_two_left
        exact inductionHypothesis expression (by simp) first
      next expression found =>
        cases found
        obtain ⟨_, rfl, first⟩ := parts.of_one_left
        exact inductionHypothesis expression (by simp) first
      next none₁ none₂ none₃ none₄ =>
        split
        next found =>
          cases found
          obtain ⟨_, rfl, _⟩ := parts.of_one_right
          exact (none₁ _ _ rfl).elim
        next found =>
          cases found
          obtain ⟨_, _, rfl, _⟩ := parts.of_two_right
          exact (none₂ _ _ _ rfl).elim
        next found =>
          cases found
          obtain ⟨_, _, rfl, _⟩ := parts.of_two_right
          exact (none₃ _ _ _ rfl).elim
        next found =>
          cases found
          obtain ⟨_, rfl, _⟩ := parts.of_one_right
          exact (none₄ _ _ rfl).elim
        next => exact same

theorem isReference_eq
    (same : shift.Parts tree tree') :
    isReference tree = isReference tree' := by
  unfold isReference
  rw [same.kind_eq]

theorem simpleTarget?_same
    (same : shift.Parts tree tree') :
    Option.Rel shift.Parts (simpleTarget? tree) (simpleTarget? tree') := by
  induction tree generalizing tree' with
  | node kind span children inductionHypothesis =>
      obtain ⟨span', children', rfl, parts⟩ := same.of_node_left
      by_cases parenthesized : ∃ expression, kind = .parenthesized ∧ children = [expression]
      · obtain ⟨expression, rfl, rfl⟩ := parenthesized
        obtain ⟨_, rfl, first⟩ := parts.of_one_left
        rw [simpleTarget?, simpleTarget?]
        exact inductionHypothesis expression (by simp) first
      · have other : ¬∃ expression, kind = .parenthesized ∧ children' = [expression] := by
          rintro ⟨_, rfl, rfl⟩
          obtain ⟨expression, rfl, _⟩ := parts.of_one_right
          exact parenthesized ⟨expression, rfl, rfl⟩
        rw [simpleTarget?.eq_2 _ (by rintro _ _ ⟨⟩; exact parenthesized ⟨_, rfl, rfl⟩),
          simpleTarget?.eq_2 _ (by rintro _ _ ⟨⟩; exact other ⟨_, rfl, rfl⟩), isReference_eq (inner_same same)]
        dsimp only [Tree.kind]
        repeat' split
        all_goals first | exact .some same | exact .none

/-! ## Targets -/

/-- The targets are the same, settle the properties at the same places, and have the same faults. -/
structure CoveredSame (shift : Shift) (covered covered' : Covered) : Prop where
  target : shift.Parts covered.target covered'.target
  settled : List.Forall₂ shift.Places covered.settled covered'.settled
  faulty : covered.faulty = covered'.faulty

/-- The targets of lists are the same, settle the properties at the same places, and have the same faults. -/
structure CoversSame (shift : Shift) (covered covered' : List Tree × List Nat × Bool) : Prop where
  targets : shift.Trees covered.1 covered'.1
  settled : List.Forall₂ shift.Places covered.2.1 covered'.2.1
  faulty : covered.2.2 = covered'.2.2

theorem rel_map
    {α β γ δ : Type}
    {related : α → β → Prop}
    {results : γ → δ → Prop}
    {found : Option α}
    {found' : Option β}
    {make : α → γ}
    {make' : β → δ}
    (same : Option.Rel related found found')
    (makes : ∀ {value value'}, related value value' → results (make value) (make' value')) :
    Option.Rel results (found.map make) (found'.map make') := by
  cases same with
  | some values => exact .some (makes values)
  | none => exact .none

/-- If each element stands for the same target in both sources, then so do all elements. -/
theorem elementTargets?_same
    {trailing trailing' : Bool}
    (ends : trailing = trailing')
    (each : ∀ tree ∈ trees, ∀ {tree'}, shift.Parts tree tree' →
      Option.Rel (CoveredSame shift) (target? commas tree) (target? commas' tree'))
    (same : shift.Trees trees trees') :
    Option.Rel (CoversSame shift) (elementTargets? commas trailing trees)
      (elementTargets? commas' trailing' trees') := by
  subst ends
  induction trees generalizing trees' with
  | nil =>
      obtain rfl := same.of_nil_left
      rw [elementTargets?, elementTargets?]
      exact .some ⟨.nil, .nil, rfl⟩
  | cons tree trees inductionHypothesis =>
      obtain ⟨tree', trees', rfl, first, later⟩ := same.of_cons_left
      have covered := each tree List.mem_cons_self first
      have others := inductionHypothesis (fun other among => each other (List.mem_cons_of_mem _ among)) later
      rw [elementTargets?, elementTargets?]
      generalize target? commas tree = found at covered ⊢
      generalize target? commas' tree' = found' at covered ⊢
      generalize elementTargets? commas trailing trees = rest at others ⊢
      generalize elementTargets? commas' trailing trees' = rest' at others ⊢
      cases covered with
      | none => exact .none
      | @some found found' covered =>
          cases others with
          | none => exact .none
          | @some rest rest' others =>
              dsimp only
              rw [← covered.target.kind_eq, later.isEmpty_eq, covered.faulty, others.faulty]
              split
              · split
                · exact .some ⟨covered.target, List.rel_append covered.settled others.settled, rfl⟩
                · exact .none
              · exact .some ⟨covered.target.cons others.targets, List.rel_append covered.settled others.settled, rfl⟩

theorem target?_same
    (ended : List.Forall₂ shift.Places commas commas')
    (same : shift.Parts tree tree') :
    Option.Rel (CoveredSame shift) (target? commas tree) (target? commas' tree') := by
  induction tree generalizing tree' with
  | node kind span children inductionHypothesis =>
      cases same with
      | absent => exact .none
      | @node _ _ span' _ children' _ _ spans parts =>
      have same : shift.Parts (.node kind span children) (.node kind span' children') := .node spans parts .nil
      unfold target?
      split
      next found =>
        cases found
        exact rel_map (elementTargets?_same (Shift.contains_eq ended spans.start) inductionHypothesis parts) fun all =>
          ⟨.node spans all.targets .nil, all.settled, all.faulty⟩
      next found =>
        cases found
        exact rel_map (elementTargets?_same rfl inductionHypothesis parts) fun all =>
          ⟨.node spans all.targets .nil, all.settled, all.faulty⟩
      next found =>
        cases found
        obtain ⟨_, _, rfl, _⟩ := parts.of_two_left
        dsimp only
        split
        · exact .some ⟨.node spans parts .nil, .nil, rfl⟩
        · exact .none
      next found =>
        cases found
        split
        next =>
          obtain ⟨_, _, rfl, key, _⟩ := parts.of_two_left
          exact .some ⟨.node spans (key.cons key) .nil, .nil, rfl⟩
        next =>
          obtain ⟨_, _, _, rfl, key, value, default⟩ := parts.of_three_left
          exact .some ⟨.node spans (key.cons (.node spans (value.cons default) .nil)) .nil,
            .cons spans.start .nil, rfl⟩
        next short long =>
          dsimp only
          split
          next =>
            obtain ⟨_, _, rfl, _⟩ := parts.of_two_right
            exact (short _ _ rfl rfl rfl).elim
          next =>
            obtain ⟨_, _, _, rfl, _⟩ := parts.of_three_right
            exact (long _ _ _ rfl rfl rfl).elim
          next => exact .none
      next found =>
        cases found
        obtain ⟨_, _, rfl, key, value⟩ := parts.of_two_left
        dsimp only
        split
        · exact rel_map (inductionHypothesis _ (by simp) value) fun covered =>
            ⟨.node spans (key.cons covered.target) .nil, covered.settled, covered.faulty⟩
        · exact .none
      next found =>
        cases found
        obtain ⟨_, rfl, expression⟩ := parts.of_one_left
        dsimp only
        rw [← expression.kind_eq]
        split
        · exact .none
        · exact rel_map (inductionHypothesis _ (by simp) expression) fun covered =>
            ⟨.node spans covered.target .nil, covered.settled, covered.faulty⟩
      next found =>
        cases found
        exact .some ⟨same, .nil, rfl⟩
      next none₁ none₂ none₃ none₄ none₅ none₆ none₇ =>
        split
        next found =>
          cases found
          exact (none₁ _ _ rfl).elim
        next found =>
          cases found
          exact (none₂ _ _ rfl).elim
        next found =>
          cases found
          obtain ⟨_, _, rfl, _⟩ := parts.of_two_right
          exact (none₃ _ _ _ _ rfl).elim
        next found =>
          cases found
          exact (none₄ _ _ _ _ _ rfl).elim
        next found =>
          cases found
          obtain ⟨_, _, rfl, _⟩ := parts.of_two_right
          exact (none₅ _ _ _ _ _ _ rfl).elim
        next found =>
          cases found
          obtain ⟨_, rfl, _⟩ := parts.of_one_right
          exact (none₆ _ _ rfl).elim
        next found =>
          cases found
          exact (none₇ _ _ rfl).elim
        next => exact rel_map (simpleTarget?_same same) fun target => ⟨target, .nil, rfl⟩

theorem alike_assignmentTarget
    (isPattern : Bool)
    (same : shift.Parts tree tree') :
    Alike shift on rank moved (assignmentTarget isPattern tree) (assignmentTarget isPattern tree') (fun _ => moved)
      shift.Parts := by
  refine .get fun {state stand} mirrors _ => ?_
  dsimp only
  rw [← same.kind_eq]
  refine .ite (fun _ => .fail) fun _ => .ite (fun _ => ?_) fun _ => ?_
  · have covered := target?_same mirrors.commas same
    dsimp only [State.onto]
    generalize target? state.commas tree = found at covered ⊢
    generalize target? stand.commas tree' = found' at covered ⊢
    cases covered with
    | none => exact .fail
    | @some found found' covered =>
        refine .step (.faultIf covered.faulty) fun _ => .step (.modify false fun {_ stand} mirrors _ => ?_) fun _ =>
          .pure covered.target
        exact ⟨{ stand with pending := stand.pending.filter fun start => !found'.settled.contains start }, rfl,
          { mirrors with pending := filter_places mirrors.pending covered.settled }, Nat.le_refl _⟩
  · have target := simpleTarget?_same same
    generalize simpleTarget? tree = found at target ⊢
    generalize simpleTarget? tree' = found' at target ⊢
    cases target with
    | none => exact .fail
    | some target => exact .pure target

end Parser

end LiveComponent
