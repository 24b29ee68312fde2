import LiveComponent.Json.Basic

namespace LiveComponent

namespace Json

/-!
# Records

A record is written as an object with named members or as a list of its fields in their order.  An
object may leave fields out and hold members of other names, but it names no field twice; a list may
only stop early.
-/

/-- The fields of a record that are written. -/
structure Fields where
  /-- Whether the record is written as a list. -/
  positional : Bool
  found : List (Text × Json)

/-- Whether no name occurs twice among the members. -/
def namesOnce (names : List Text) (members : List (Text × Json)) : Bool :=
  names.all fun name => (members.filter fun member => member.1 == name).length ≤ 1

/-- The fields of the given names. -/
def fields? (names : List String) : Json → Option Fields
  | list items =>
    if items.length ≤ names.length then some ⟨true, (names.map String.toList).zip items⟩ else none
  | object members =>
    if namesOnce (names.map String.toList) members then some ⟨false, members⟩ else none
  | _ => none

namespace Fields

/-- A field that has to be there. -/
def required {α : Type} (fields : Fields) (name : String) (decode : Json → Option α) : Option α :=
  (fields.found.lookup name.toList).bind decode

/-- A field with a default. -/
def withDefault
    {α : Type}
    (fields : Fields)
    (name : String)
    (default : α)
    (decode : Json → Option α) :
    Option α :=
  match fields.found.lookup name.toList with
  | some json => decode json
  | none => some default

/-- A value that may be null. -/
def nullable {α : Type} (decode : Json → Option α) : Json → Option (Option α)
  | null => some none
  | json => (decode json).map some

/-- A field that may be null; in an object it may also be left out. -/
def orNull
    {α : Type}
    (fields : Fields)
    (name : String)
    (decode : Json → Option α) :
    Option (Option α) :=
  match fields.found.lookup name.toList with
  | some json => nullable decode json
  | none => if fields.positional then none else some none

/-- A field that may be null or left out. -/
def maybe
    {α : Type}
    (fields : Fields)
    (name : String)
    (decode : Json → Option α) :
    Option (Option α) :=
  fields.withDefault name none (nullable decode)

end Fields

/-- One of a few words, alone or as the only member of an object with a null value. -/
def word? {α : Type} (words : List (String × α)) : Json → Option α
  | text value => (words.find? fun word => word.1.toList == value).map Prod.snd
  | object [(name, null)] => (words.find? fun word => word.1.toList == name).map Prod.snd
  | _ => none

/-- A record of texts by names, in ascending order of names; of equal names the last one counts. -/
def textMap? : Json → Option (List (Text × Text))
  | object members => do
    let pairs ← members.mapM fun (name, value) => value.asText?.map fun text => (name, text)
    return (Text.sortedSet (pairs.map Prod.fst)).filterMap fun name =>
      (pairs.reverse.lookup name).map fun text => (name, text)
  | _ => none

end Json

end LiveComponent
