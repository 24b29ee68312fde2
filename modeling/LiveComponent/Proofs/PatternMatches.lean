import LiveComponent.Proofs.ImportMatch

namespace LiveComponent

/-!
# What patterns match

Wherever a pattern is matched, the text that it takes has its form.  A pattern for the start of the text is matched
there or nowhere.
-/

namespace Pattern

/-- The text has the form of the pattern, apart from what stands around it. -/
def Fits : Pattern → Text → Prop
  | empty, text | textStart, text | lineStart, text | boundary, text => text = []
  | one accepts, text => ∃ c, text = [c] ∧ accepts c = true
  | many accepts, text => text.all accepts = true
  | seq first second, text => ∃ front back, text = front ++ back ∧ first.Fits front ∧ second.Fits back
  | alt first second, text => first.Fits text ∨ second.Fits text
  | group _ inner, text => inner.Fits text

/-- The parts of a pattern whose texts are remembered, with their names. -/
def remembered : Pattern → List (String × Pattern)
  | empty | one _ | many _ | textStart | lineStart | boundary => []
  | seq first second | alt first second => first.remembered ++ second.remembered
  | group name inner => (name, inner) :: inner.remembered

/-- What is remembered has the form of a part of the pattern with this name. -/
def Remembers (pattern : Pattern) (entry : String × Part) : Prop :=
  ∃ inner, (entry.1, inner) ∈ pattern.remembered ∧ inner.Fits entry.2.text

/-- The place behind a text. -/
def Place.behind (place : Place) (taken rest : Text) : Place :=
  ⟨lastOf place.before taken, place.index + taken.length, rest⟩

variable {α : Type} {pattern : Pattern} {place : Place} {groups : Groups} {found : α}

theorem behind_nil
    (place : Place) :
    place.behind [] place.rest = place := by
  obtain ⟨before, index, rest⟩ := place
  cases before <;> rfl

theorem behind_append
    (place : Place)
    (front back middle rest : Text) :
    (place.behind front middle).behind back rest = place.behind (front ++ back) rest := by
  simp only [Place.behind, lastOf_append, List.length_append, Nat.add_assoc]

theorem text_upTo
    {taken rest : Text}
    (starts : place.rest = taken ++ rest) :
    (place.upTo (place.behind taken rest)).text = taken := by
  simp [Place.upTo, Place.behind, starts]

theorem Remembers.mono
    {other : Pattern}
    {entry : String × Part}
    (fewer : pattern.remembered ⊆ other.remembered)
    (remembers : pattern.Remembers entry) :
    other.Remembers entry := by
  obtain ⟨inner, among, fits⟩ := remembers
  exact ⟨inner, fewer among, fits⟩

/-- A repetition goes on behind some of its characters. -/
theorem exists_of_runMany
    {accepts : Char → Bool}
    {go : Place → Option α}
    {before : Option Char}
    {index : Nat}
    {rest : Text}
    (reached : runMany accepts go before index rest = some found) :
    ∃ taken later, rest = taken ++ later ∧ taken.all accepts = true ∧
      go (Place.behind ⟨before, index, rest⟩ taken later) = some found := by
  induction rest generalizing before index with
  | nil =>
      refine ⟨[], [], rfl, rfl, ?_⟩
      rw [behind_nil ⟨before, index, []⟩]
      exact reached
  | cons c rest inductionHypothesis =>
      have here : go ⟨before, index, c :: rest⟩ = some found →
          ∃ taken later, c :: rest = taken ++ later ∧ taken.all accepts = true ∧
            go (Place.behind ⟨before, index, c :: rest⟩ taken later) = some found := by
        intro reached
        refine ⟨[], c :: rest, rfl, rfl, ?_⟩
        rw [behind_nil ⟨before, index, c :: rest⟩]
        exact reached
      rw [runMany] at reached
      split at reached
      next fits =>
        split at reached
        next further =>
          rw [reached] at further
          obtain ⟨taken, later, rfl, all, reached⟩ := inductionHypothesis further
          refine ⟨c :: taken, later, rfl, by rw [List.all_cons, fits, all]; rfl, ?_⟩
          have moved := behind_append ⟨before, index, c :: (taken ++ later)⟩ [c] taken (taken ++ later) later
          rw [show c :: taken = [c] ++ taken from rfl, ← moved]
          exact reached
        next => exact here reached
      next => exact here reached

/-- A match takes a text of the form of the pattern and goes on behind it, and what it remembers has the form of a part
of the pattern. -/
theorem exists_of_run
    (reached : pattern.run place groups next = some found) :
    ∃ taken rest groups', place.rest = taken ++ rest ∧ pattern.Fits taken ∧
      (∀ entry ∈ groups', entry ∈ groups ∨ pattern.Remembers entry) ∧
        next (place.behind taken rest) groups' = some found := by
  have kept (groups : Groups) (pattern : Pattern) : ∀ entry ∈ groups, entry ∈ groups ∨ pattern.Remembers entry :=
    fun _ among => .inl among
  induction pattern generalizing place groups next with
  | empty =>
      refine ⟨[], place.rest, groups, rfl, rfl, kept _ _, ?_⟩
      rw [behind_nil]
      exact reached
  | one accepts =>
      obtain ⟨c, rest, starts, fits, reached⟩ := run_one.mp reached
      exact ⟨[c], rest, groups, starts, ⟨c, rfl, fits⟩, kept _ _, reached⟩
  | many accepts =>
      obtain ⟨taken, rest, starts, all, reached⟩ := exists_of_runMany reached
      exact ⟨taken, rest, groups, starts, all, kept _ _, reached⟩
  | seq first second firstHypothesis secondHypothesis =>
      obtain ⟨front, middle, between, starts, fits, entries, reached⟩ := firstHypothesis reached
      obtain ⟨back, rest, groups', further, fits', entries', reached⟩ := secondHypothesis reached
      rw [behind_append] at reached
      refine ⟨front ++ back, rest, groups', ?_, ⟨front, back, rfl, fits, fits'⟩, fun entry among => ?_, reached⟩
      · rw [starts, show middle = back ++ rest from further, List.append_assoc]
      · rcases entries' entry among with among | remembers
        · exact (entries entry among).imp_right (Remembers.mono (List.subset_append_left _ _))
        · exact .inr (remembers.mono (List.subset_append_right _ _))
  | alt first second firstHypothesis secondHypothesis =>
      rcases (run_alt first second).mp reached with reached | ⟨-, reached⟩
      · obtain ⟨taken, rest, groups', starts, fits, entries, reached⟩ := firstHypothesis reached
        exact ⟨taken, rest, groups', starts, .inl fits,
          fun entry among => (entries entry among).imp_right (Remembers.mono (List.subset_append_left _ _)), reached⟩
      · obtain ⟨taken, rest, groups', starts, fits, entries, reached⟩ := secondHypothesis reached
        exact ⟨taken, rest, groups', starts, .inr fits,
          fun entry among => (entries entry among).imp_right (Remembers.mono (List.subset_append_right _ _)), reached⟩
  | group name inner inductionHypothesis =>
      rw [run_group] at reached
      obtain ⟨taken, rest, groups', starts, fits, entries, reached⟩ := inductionHypothesis reached
      refine ⟨taken, rest, _, starts, fits, fun entry among => ?_, reached⟩
      rcases List.mem_cons.mp among with rfl | among
      · exact .inr ⟨inner, List.mem_cons_self, (text_upTo starts).symm ▸ fits⟩
      · exact (entries entry among).imp_right (Remembers.mono (List.subset_cons_self _ _))
  | textStart =>
      refine ⟨[], place.rest, groups, rfl, rfl, kept _ _, ?_⟩
      rw [behind_nil]
      rw [run] at reached
      split at reached
      next => exact reached
      next => cases reached
  | lineStart =>
      refine ⟨[], place.rest, groups, rfl, rfl, kept _ _, ?_⟩
      rw [behind_nil]
      rw [run] at reached
      split at reached
      next => exact reached
      next =>
        split at reached
        next => exact reached
        next => cases reached
  | boundary =>
      refine ⟨[], place.rest, groups, rfl, rfl, kept _ _, ?_⟩
      rw [behind_nil]
      exact (run_boundary.mp reached).2

/-- What is matched at a place has the form of the pattern. -/
theorem exists_of_matchAt
    {found : Found}
    (matched : pattern.matchAt place = some found) :
    ∃ taken rest, place.rest = taken ++ rest ∧ pattern.Fits taken ∧ found.whole.start = place.index ∧
      found.whole.stop = place.index + taken.length := by
  obtain ⟨taken, rest, _, starts, fits, -, reached⟩ := exists_of_run matched
  cases reached
  exact ⟨taken, rest, starts, fits, rfl, rfl⟩

/-- What a match remembers has the form of a part of the pattern. -/
theorem remembers_of_matchAt
    {found : Found}
    (matched : pattern.matchAt place = some found) :
    ∀ entry ∈ found.groups, pattern.Remembers entry := by
  obtain ⟨_, _, _, -, -, entries, reached⟩ := exists_of_run matched
  cases reached
  exact fun entry among => (entries entry among).resolve_left List.not_mem_nil

/-- Each match in a text is one at some place. -/
theorem matchAt_of_mem_findFrom
    {found : Found}
    {skip index : Nat}
    {before : Option Char}
    {text : Text}
    (among : found ∈ findFrom pattern skip before index text) :
    ∃ place, pattern.matchAt place = some found := by
  fun_induction findFrom pattern skip before index text with
  | case1 => exact ⟨_, Option.mem_toList.mp among⟩
  | case2 => cases among
  | case3 _ _ _ _ _ inductionHypothesis => exact inductionHypothesis among
  | case4 _ _ _ _ first matched inductionHypothesis =>
      rcases List.mem_cons.mp among with rfl | later
      · exact ⟨_, matched⟩
      · exact inductionHypothesis later
  | case5 _ _ _ _ _ inductionHypothesis => exact inductionHypothesis among

/-- The text that a match remembers under a name has the form of a part of the pattern with this name. -/
theorem fits_of_text?
    {found : Found}
    {name : String}
    {text taken : Text}
    (among : found ∈ pattern.findAll text)
    (named : found.text? name = some taken) :
    ∃ inner, (name, inner) ∈ pattern.remembered ∧ inner.Fits taken := by
  obtain ⟨place, matched⟩ := matchAt_of_mem_findFrom among
  obtain ⟨part, looked, rfl⟩ := Option.map_eq_some_iff.mp named
  obtain ⟨before, after, groups, -⟩ := List.lookup_eq_some_iff.mp looked
  exact remembers_of_matchAt matched (name, part) (groups ▸ List.mem_append_right _ List.mem_cons_self)

/-- A pattern that is matched only at the start of a text is found there or nowhere. -/
theorem find?_eq_matchAt
    (anchored : ∀ place : Place, place.before ≠ none → pattern.matchAt place = none)
    (text : Text) :
    pattern.find? text = pattern.matchAt ⟨none, 0, text⟩ := by
  have nowhere (c : Char) (index : Nat) (text : Text) : findFrom pattern 0 (some c) index text = [] := by
    induction text generalizing c index with
    | nil => rw [findFrom, anchored _ (Option.some_ne_none c), Option.toList]
    | cons d text inductionHypothesis => rw [findFrom, anchored _ (Option.some_ne_none c), inductionHypothesis]
  unfold find? findAll
  cases text with
  | nil =>
      rw [findFrom]
      cases pattern.matchAt ⟨none, 0, []⟩ <;> rfl
  | cons c text =>
      rw [findFrom]
      split
      next found matched => rw [matched]; rfl
      next missed => rw [missed, nowhere]; rfl

end Pattern

end LiveComponent
