/-!
# Turns

Everything shares one processor.  Whoever has a turn on it goes on until it has to wait for
somebody else, or until it has passed on `turnLimit` messages and pieces; then others have theirs.
-/

namespace LockService

/-- How many messages and pieces are passed on in one turn. -/
def turnLimit : Nat := 128

end LockService
