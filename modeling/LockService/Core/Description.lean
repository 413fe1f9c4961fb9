import LockService.Core.Envelope
import LockService.Text.Quoted

/-!
# Commands in diagnostics

How a command of a connection is shown to whoever runs the service.
-/

namespace LockService

/-- How a text that may be missing is shown. -/
def describeOptional : Option String → String
  | none => "None"
  | some text => "Some(" ++ Text.quoted text ++ ")"

/-- How a request is shown. -/
def Request.describe (r : Request) : String :=
  "Request \x7b op: " ++ Text.quoted r.op ++ ", target: " ++ Text.quoted r.target ++ ", arg: " ++
    describeOptional r.arg ++ " \x7d"

/-- How a command is shown. -/
def Command.describe {ρ : Type} : Command ρ → String
  | .opening _ => "Open"
  | .closing => "Close"
  | .request r => "Request(" ++ r.describe ++ ")"
  | .malformed => "Malformed"

end LockService
