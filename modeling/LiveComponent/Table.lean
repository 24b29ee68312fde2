import LiveComponent.Text.Basic

namespace LiveComponent

/-!
# Tables

A table holds values under names.  A value that is put under a known name takes the place of the old
one; a new name comes last.
-/

/-- Values under names, in the order in which the names came. -/
abbrev Table (α : Type) := List (Text × α)

namespace Table

variable {α : Type}

/-- The value under a name. -/
def get? (table : Table α) (name : Text) : Option α :=
  table.lookup name

/-- Put a value under a name. -/
def put (table : Table α) (name : Text) (value : α) : Table α :=
  match table with
  | [] => [(name, value)]
  | entry :: rest =>
    if entry.1 = name then (name, value) :: rest else entry :: put rest name value

/-- Remove what is under a name. -/
def erase (table : Table α) (name : Text) : Table α :=
  List.filter (fun entry => entry.1 ≠ name) table

/-- The names of a table. -/
def names (table : Table α) : List Text :=
  table.map Prod.fst

/-- An empty table holds nothing. -/
@[simp]
theorem get?_nil (name : Text) : get? ([] : Table α) name = none := rfl

/-- The first entry of a name counts. -/
theorem get?_cons (entry : Text × α) (table : Table α) (name : Text) :
    get? (entry :: table) name = if entry.1 = name then some entry.2 else get? table name := by
  obtain ⟨key, value⟩ := entry
  unfold get?
  rw [List.lookup_cons]
  by_cases same : key = name
  · simp [same]
  · have different : (name == key) = false := by simpa using Ne.symm same
    simp [same, different]

/-- What was put under a name is found there, and nothing else has changed. -/
theorem get?_put (table : Table α) (name other : Text) (value : α) :
    get? (put table name value) other = if name = other then some value else get? table other := by
  induction table with
  | nil => simp [put, get?_cons]
  | cons entry rest ih =>
    by_cases same : entry.1 = name
    · by_cases here : name = other <;> simp [put, same, get?_cons, here]
    · simp only [put, same, if_false, get?_cons, ih]
      by_cases here : entry.1 = other
      · have : name ≠ other := fun equal => same (here.trans equal.symm)
        simp [here, this]
      · simp [here]

/-- Nothing is found under a removed name, and nothing else has changed. -/
theorem get?_erase (table : Table α) (name other : Text) :
    get? (erase table name) other = if name = other then none else get? table other := by
  induction table with
  | nil => simp [erase]
  | cons entry rest ih =>
    have step : erase (entry :: rest) name =
        if entry.1 ≠ name then entry :: erase rest name else erase rest name := by
      simp [erase, List.filter_cons]
    by_cases same : entry.1 = name
    · rw [step, if_neg (by simpa using same), ih, get?_cons]
      by_cases here : name = other
      · simp [here]
      · simp [here, same]
    · rw [step, if_pos same, get?_cons, get?_cons, ih]
      by_cases here : entry.1 = other
      · have : name ≠ other := fun equal => same (here.trans equal.symm)
        simp [here, this]
      · simp [here]

/-- Only names that are kept are found, and nothing else has changed. -/
theorem get?_filter (table : Table α) (keep : Text → Bool) (name : Text) :
    get? (List.filter (fun entry => keep entry.1) table) name =
      if keep name then get? table name else none := by
  induction table with
  | nil => simp
  | cons entry rest ih =>
    by_cases same : entry.1 = name
    · cases kept : keep name <;> simp [get?_cons, same, kept, ih]
    · cases kept : keep entry.1 <;> simp [get?_cons, same, kept, ih]

/-- Of two values that are put under a name the second one counts. -/
theorem put_put (table : Table α) (name : Text) (first second : α) :
    put (put table name first) name second = put table name second := by
  induction table with
  | nil => simp [put]
  | cons entry rest ih =>
    by_cases same : entry.1 = name
    · simp [put, same]
    · simp [put, same, ih]

/-- A value that is put where it is already changes nothing. -/
theorem put_of_get? {table : Table α} {name : Text} {value : α}
    (found : table.get? name = some value) :
    put table name value = table := by
  induction table with
  | nil => cases found
  | cons entry rest ih =>
    rw [get?_cons] at found
    by_cases same : entry.1 = name
    · rw [if_pos same] at found
      cases found
      simp [put, ← same]
    · rw [if_neg same] at found
      simp [put, same, ih found]

/-- A value that is put under a new name and removed changes nothing. -/
theorem erase_put_of_get?_none {table : Table α} {name : Text} {value : α}
    (missing : table.get? name = none) :
    erase (put table name value) name = table := by
  induction table with
  | nil => simp [put, erase]
  | cons entry rest ih =>
    rw [get?_cons] at missing
    by_cases same : entry.1 = name
    · rw [if_pos same] at missing
      cases missing
    · rw [if_neg same] at missing
      have unchanged := ih missing
      unfold erase at unchanged ⊢
      rw [put, if_neg same, List.filter_cons, if_pos (by simpa using same), unchanged]

end Table

end LiveComponent
