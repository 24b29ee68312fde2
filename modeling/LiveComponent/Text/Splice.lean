import LiveComponent.Text.Basic

namespace LiveComponent

/-!
# Replacing parts of a text

Edits name disjoint parts of a text in ascending order; all of them are applied at once.
-/

/-- Put `text` in the place of the characters from offset `start` up to offset `stop`. -/
structure Edit where
  start : Nat
  stop : Nat
  text : Text
deriving DecidableEq, Repr

namespace Text

/-- Apply edits to the part of a text that starts at offset `offset`. -/
def spliceFrom (offset : Nat) : List Edit → Text → Text
  | [], rest => rest
  | edit :: edits, rest =>
    rest.take (edit.start - offset) ++ edit.text ++
      spliceFrom edit.stop edits (rest.drop (edit.stop - offset))

/-- Apply all edits at once. -/
def splice (edits : List Edit) (text : Text) : Text :=
  spliceFrom 0 edits text

/-- The ends of the edits ascend from `offset` on. -/
def Ascending (offset : Nat) : List Edit → Prop
  | [] => True
  | edit :: edits => offset ≤ edit.start ∧ edit.start ≤ edit.stop ∧ Ascending edit.stop edits

/-- Without edits the text stays as it is. -/
@[simp]
theorem splice_nil (text : Text) : splice [] text = text := rfl

end Text

end LiveComponent
