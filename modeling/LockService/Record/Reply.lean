import LockService.Counter
import LockService.Json.Writer
import LockService.Record.Members
import LockService.Record.Refusal

/-!
# Replies

A reply says whether a request succeeded and, depending on that, carries a value or the text of a
refusal.  In an object the members are `status`, `error` and `value`, of which only the first has
to be there; in an array they stand in that order.
-/

namespace LockService

/-- Whether a request succeeded. -/
inductive Status
  | ok
  | ko
deriving DecidableEq, Repr, Inhabited

namespace Status

/-- The name that replies carry. -/
def name : Status → String
  | .ok => "OK"
  | .ko => "KO"

/-- The status with a name. -/
def parse? (name : String) : Option Status :=
  [ok, ko].find? (·.name = name)

/-- A status is read from its name or from an object with one member of that name which is
null. -/
def ofJson? : Json.Value → Option Status
  | .text pieces => (Json.text? pieces).bind parse?
  | .object [(name, .null)] => (Json.text? name).bind parse?
  | _ => none

end Status

/-- What a client is told. -/
structure Reply where
  status : Status
  error : Option String := none
  value : Option String := none
deriving DecidableEq, Repr, Inhabited

namespace Reply

/-- Success without a value. -/
def ok : Reply := ⟨.ok, none, none⟩

/-- Success with the value of a counter. -/
def ofCounter (c : Counter) : Reply := ⟨.ok, none, some c.text⟩

/-- Failure. -/
def ofRefusal (r : Refusal) : Reply := ⟨.ko, some r.message, none⟩

/-- The reply from the values of its members. -/
def ofValues? (status error value : Json.Value) : Option Reply :=
  match Status.ofJson? status, error.asOptionalText?, value.asOptionalText? with
  | some status, some error, some value => some ⟨status, error, value⟩
  | _, _, _ => none

/-- The reply from the members of an object. -/
def ofMembers? (members : List (String × Json.Value)) : Option Reply :=
  match Json.required? ["status"] members, Json.optional? ["error"] .null members,
    Json.optional? ["value"] .null members with
  | some status, some error, some value => ofValues? status error value
  | _, _, _ => none

/-- The reply that a JSON value is. -/
def ofJson? : Json.Value → Option Reply
  | .object members => (Json.named? members).bind ofMembers?
  | .array [status] => ofValues? status .null .null
  | .array [status, error] => ofValues? status error .null
  | .array [status, error, value] => ofValues? status error value
  | _ => none

/-- The members that are written: error and value only if there is one. -/
def members (r : Reply) : List (String × String) :=
  ("status", r.status.name) :: ((r.error.map ("error", ·)).toList ++ (r.value.map ("value", ·)).toList)

/-- The record that a reply is written as, without the line feed. -/
def json (r : Reply) : String :=
  String.ofList (Json.writeObject r.members)

/-- How a reply is shown to a user: the status, and behind it the value of a success or the text of
a failure. -/
def render (r : Reply) : String :=
  match r.status, r.error, r.value with
  | .ok, _, some value => "OK " ++ value
  | .ok, _, none => "OK"
  | .ko, some error, _ => "KO " ++ error
  | .ko, none, _ => "KO"

end Reply

end LockService
