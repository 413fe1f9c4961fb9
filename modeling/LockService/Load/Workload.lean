import LockService.Record.Request
import LockService.Text.Decimal

/-!
# Workloads

What the connections of a measurement ask for.  Requests come in pairs of which the second undoes
the first, so a measurement leaves no lock behind and never waits for one.
-/

namespace LockService

/-- Which requests a measurement consists of: a lock of one's own that is taken and given back, or
a counter shared by all that is added to and reset. -/
inductive Workload
  | lock
  | counter
deriving DecidableEq, Repr, Inhabited

namespace Workload

/-- The key that the connection at a position has for itself. -/
def ownKey (position : Nat) : String :=
  "bench-" ++ String.ofList (Decimal.write position)

/-- The key of the counter that all connections share. -/
def sharedCounter : String := "counter"

/-- The pair of requests that the connection at a position sends again and again. -/
def pair (w : Workload) (position : Nat) : List Request :=
  match w with
  | .lock =>
    [.ofOperation .lock (ownKey position) none, .ofOperation .unlock (ownKey position) none]
  | .counter =>
    [.ofOperation .incr sharedCounter (some "1"), .ofOperation .set sharedCounter (some "0")]

theorem length_pair (w : Workload) (position : Nat) : (w.pair position).length = 2 := by
  cases w <;> rfl

end Workload

end LockService
