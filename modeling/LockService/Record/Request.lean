import LockService.Json.Writer
import LockService.Record.Members
import LockService.Record.Operation

/-!
# Requests

A request names an operation, the key or counter it is about, and possibly an argument.  The
operation is kept as the text that came, since an unknown one is only refused when the request is
handled.

In an object the members are `op`, `target` and `arg`, each also by its capitalised name; only the
first has to be there.  In an array they stand in that order.
-/

namespace LockService

/-- What a client asks for. -/
structure Request where
  op : String
  target : String := ""
  arg : Option String := none
deriving DecidableEq, Repr, Inhabited

namespace Request

/-- A request for a known operation. -/
def ofOperation (op : Operation) (target : String) (arg : Option String) : Request :=
  ⟨op.name, target, arg⟩

/-- The request from the values of its members. -/
def ofValues? (op target arg : Json.Value) : Option Request :=
  match op.asText?, target.asText?, arg.asOptionalText? with
  | some op, some target, some arg => some ⟨op, target, arg⟩
  | _, _, _ => none

/-- The value that stands for a target that was left out: the empty text. -/
def noTarget : Json.Value := .text []

/-- The request from the members of an object. -/
def ofMembers? (members : List (String × Json.Value)) : Option Request :=
  match Json.required? ["op", "Op"] members,
    Json.optional? ["target", "Target"] noTarget members,
    Json.optional? ["arg", "Arg"] .null members with
  | some op, some target, some arg => ofValues? op target arg
  | _, _, _ => none

/-- The request that a JSON value is. -/
def ofJson? : Json.Value → Option Request
  | .object members => (Json.named? members).bind ofMembers?
  | .array [op] => ofValues? op noTarget .null
  | .array [op, target] => ofValues? op target .null
  | .array [op, target, arg] => ofValues? op target arg
  | _ => none

/-- The members that are written: an argument only if there is one. -/
def members (r : Request) : List (String × String) :=
  ("op", r.op) :: ("target", r.target) :: (r.arg.map ("arg", ·)).toList

/-- The record that a request is written as, without the line feed. -/
def json (r : Request) : String :=
  String.ofList (Json.writeObject r.members)

end Request

end LockService
