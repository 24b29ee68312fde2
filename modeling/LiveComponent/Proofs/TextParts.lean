import LiveComponent.Text.Basic

namespace LiveComponent

/-!
# Parts of a text

Cutting a text at a mark gives the texts between the marks: there is at least one, none of them holds the mark, and
joined with the mark they give back the text.
-/

namespace Text

/-- The parts are those of the library's function. -/
theorem splitAt_eq_splitOnP
    (mark : Char)
    (text : Text) :
    splitAt mark text = text.splitOnP (· == mark) := by
  induction text with
  | nil =>
      rfl
  | cons c rest inductionHypothesis =>
      rw [splitAt, inductionHypothesis, List.splitOnP_cons_eq_if_modifyHead]
      obtain ⟨part, parts, shape⟩ := List.exists_cons_of_ne_nil (List.splitOnP_ne_nil (· == mark) rest)
      rw [shape]
      by_cases same : c = mark <;> simp [same]

theorem splitAt_ne_nil
    (mark : Char)
    (text : Text) :
    splitAt mark text ≠ [] := by
  rw [splitAt_eq_splitOnP]
  exact List.splitOnP_ne_nil _ text

/-- A mark between two texts separates their parts. -/
theorem splitAt_append_cons
    (mark : Char)
    (first second : Text) :
    splitAt mark (first ++ mark :: second) = splitAt mark first ++ splitAt mark second := by
  simp only [splitAt_eq_splitOnP]
  exact List.splitOnP_append_cons first second (beq_self_eq_true mark)

/-- A text without the mark is its only part. -/
theorem splitAt_of_free
    {mark : Char}
    {text : Text}
    (free : mark ∉ text) :
    splitAt mark text = [text] := by
  rw [splitAt_eq_splitOnP, List.splitOnP_eq_singleton]
  intro c member
  have different : c ≠ mark := fun same => free (same ▸ member)
  simpa using different

/-- Joining what lies between the marks gives back the text. -/
theorem joinWith_splitAt
    (mark : Char)
    (text : Text) :
    joinWith [mark] (splitAt mark text) = text := by
  induction text with
  | nil => rfl
  | cons c text inductionHypothesis =>
      rw [splitAt]
      cases parts : splitAt mark text with
      | nil => exact absurd parts (splitAt_ne_nil mark text)
      | cons part others =>
          rw [parts] at inductionHypothesis
          dsimp only
          split
          next isMark =>
            rw [isMark]
            change [] ++ [mark] ++ joinWith [mark] (part :: others) = _
            rw [inductionHypothesis]
            rfl
          next =>
            cases others with
            | nil => exact congrArg (c :: ·) inductionHypothesis
            | cons next others => exact congrArg (c :: ·) inductionHypothesis

/-- A part holds characters of the text only, and not the mark. -/
theorem of_mem_splitAt
    {mark : Char}
    {text part : Text}
    (member : part ∈ splitAt mark text) :
    mark ∉ part ∧ part ⊆ text := by
  induction text generalizing part with
  | nil =>
      obtain rfl := List.mem_singleton.mp member
      simp
  | cons c text inductionHypothesis =>
      rw [splitAt] at member
      cases parts : splitAt mark text with
      | nil => exact absurd parts (splitAt_ne_nil mark text)
      | cons first others =>
          rw [parts] at member inductionHypothesis
          have later {other : Text} (inside : other ∈ first :: others) : mark ∉ other ∧ other ⊆ c :: text :=
            (inductionHypothesis inside).imp_right fun within => List.subset_cons_of_subset c within
          dsimp only at member
          split at member
          next =>
            rcases List.mem_cons.mp member with rfl | inside
            · exact ⟨List.not_mem_nil, List.nil_subset _⟩
            · exact later inside
          next other =>
            rcases List.mem_cons.mp member with rfl | inside
            · obtain ⟨free, within⟩ := later List.mem_cons_self
              refine ⟨fun inside => ?_, List.cons_subset.mpr ⟨List.mem_cons_self, ?_⟩⟩
              · rcases List.mem_cons.mp inside with same | inside
                · exact other same.symm
                · exact free inside
              · exact within
            · exact later (List.mem_cons_of_mem first inside)

end Text

end LiveComponent
