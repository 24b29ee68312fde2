import LiveComponent.Script.Tree

namespace LiveComponent

/-!
# Comparing trees

Whether two trees are the same can be computed.
-/

deriving instance DecidableEq for Kind

namespace Tree

mutual

/-- Two trees are the same or not. -/
def decEq : (tree other : Tree) → Decidable (tree = other)
  | node kind span children, node kind' span' children' =>
    if same : kind = kind' ∧ span = span' then
      match decEqAll children children' with
      | isTrue all => isTrue (by rw [same.1, same.2, all])
      | isFalse differ => isFalse fun equal => differ (node.inj equal).2.2
    else
      isFalse fun equal => same ⟨(node.inj equal).1, (node.inj equal).2.1⟩

/-- Two lists of trees are the same or not. -/
def decEqAll : (trees others : List Tree) → Decidable (trees = others)
  | [], [] => isTrue rfl
  | [], _ :: _ => isFalse fun equal => nomatch equal
  | _ :: _, [] => isFalse fun equal => nomatch equal
  | tree :: trees, other :: others =>
    match decEq tree other, decEqAll trees others with
    | isTrue first, isTrue rest => isTrue (by rw [first, rest])
    | isFalse differ, _ => isFalse fun equal => differ (List.cons.inj equal).1
    | isTrue _, isFalse differ => isFalse fun equal => differ (List.cons.inj equal).2

end

instance : DecidableEq Tree :=
  decEq

end Tree

end LiveComponent
