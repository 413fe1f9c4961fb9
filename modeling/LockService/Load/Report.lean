import LockService.Load.Client

/-!
# What a measurement shows

The replies of all connections together, how many connections failed, and from the time that passed
the replies per second.
-/

namespace LockService

/-- The sums over all connections of a measurement. -/
structure LoadReport where
  replies : UInt64 := 0
  failures : UInt64 := 0
deriving DecidableEq, Repr, Inhabited

/-- A span of time: whole seconds, and nanoseconds of the next one. -/
structure Elapsed where
  seconds : UInt64
  nanos : UInt32
deriving DecidableEq, Repr, Inhabited

/-- A span of time in seconds. -/
def Elapsed.toSeconds (e : Elapsed) : Float :=
  e.seconds.toFloat + e.nanos.toFloat / 1e9

/-- The text of a span of time: in the largest unit of which at least one has passed, without
trailing zeros. -/
def Elapsed.text (e : Elapsed) : String :=
  let total := e.seconds.toNat * 1000000000 + e.nanos.toNat
  let (unit, digits, name) :=
    if 1000000000 ≤ total then (1000000000, 9, "s")
    else if 1000000 ≤ total then (1000000, 6, "ms")
    else if 1000 ≤ total then (1000, 3, "µs")
    else (1, 0, "ns")
  let rest := Nat.toDigits 10 (total % unit)
  let fraction := List.replicate (digits - rest.length) '0' ++ rest
  let kept := (fraction.reverse.dropWhile (· = '0')).reverse
  String.ofList (Decimal.write (total / unit) ++ (if kept.isEmpty then [] else '.' :: kept)) ++ name

namespace LoadReport

/-- The report with one more connection in it. -/
def add (r : LoadReport) : LoadOutcome → LoadReport
  | .counted replies => { r with replies := r.replies + replies }
  | .failed => { r with failures := r.failures + 1 }

/-- The report over some connections. -/
def ofOutcomes (outcomes : List LoadOutcome) : LoadReport :=
  outcomes.foldl add {}

/-- Replies per second, or none if no time has passed. -/
def throughput (r : LoadReport) (elapsed : Elapsed) : Float :=
  if elapsed.toSeconds > 0 then r.replies.toFloat / elapsed.toSeconds else 0

/-- The summary that is printed behind a measurement. -/
def summary (r : LoadReport) (elapsed : Elapsed) : List String :=
  let number (n : Nat) := String.ofList (Decimal.write n)
  ["Result: " ++ number r.replies.toNat ++ " replies in " ++ elapsed.text ++ " (" ++
      number r.failures.toNat ++ " failed connections)",
    "Throughput: " ++ number (r.throughput elapsed).round.toUInt64.toNat ++ " replies/s"]

end LoadReport

end LockService
