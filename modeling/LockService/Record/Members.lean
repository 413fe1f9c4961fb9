import LockService.Json.Value

/-!
# Reading the members of a record

A record arrives as a JSON object or, without the names, as an array.  In an object every name has
to be a text, but only the members that the record knows are looked at; a known member may go by
any of its names and may be there at most once.
-/

namespace LockService.Json

/-- The members of an object by the texts of their names, if every name is a text. -/
def named? (members : Members) : Option (List (String × Value)) :=
  members.mapM fun (name, value) => (text? name).map (·, value)

/-- The values of all members that go by one of some names. -/
def valuesOf (names : List String) (members : List (String × Value)) : List Value :=
  members.filterMap fun (name, value) => if name ∈ names then some value else none

/-- The value of the one member that goes by one of some names. -/
def required? (names : List String) (members : List (String × Value)) : Option Value :=
  match valuesOf names members with
  | [value] => some value
  | _ => none

/-- The value of the member that goes by one of some names, `absent` when there is none. -/
def optional? (names : List String) (absent : Value) (members : List (String × Value)) :
    Option Value :=
  match valuesOf names members with
  | [] => some absent
  | [value] => some value
  | _ => none

namespace Value

/-- A value that has to be a text. -/
def asText? : Value → Option String
  | .text pieces => text? pieces
  | _ => none

/-- A value that has to be a text, or null for none. -/
def asOptionalText? : Value → Option (Option String)
  | .null => some none
  | .text pieces => (text? pieces).map some
  | _ => none

end Value

end LockService.Json
