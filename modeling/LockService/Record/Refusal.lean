/-!
# Refusals

Why the service refuses what one client asked for.  A refusal goes back to that client only, as
the text of a failed reply; nothing changes for anybody else.
-/

namespace LockService

/-- Why a request failed: the client gives up a key that it does not hold, the argument is not a
number, the sum leaves the range of counters, the operation has no meaning, or the record could
not be read at all. -/
inductive Refusal
  | noSuchLock
  | invalidNumber
  | overflow
  | unknownOperation
  | malformed
deriving DecidableEq, Repr

/-- The text that the client is told. -/
def Refusal.message : Refusal → String
  | .noSuchLock => "no such lock held"
  | .invalidNumber => "invalid number"
  | .overflow => "integer overflow"
  | .unknownOperation => "unknown operation"
  | .malformed => "malformed request"

end LockService
