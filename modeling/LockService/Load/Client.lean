import LockService.Load.Workload
import LockService.Record.Reply

/-!
# The client of a measurement

Each connection of a measurement sends its pair of requests in batches: it writes some pairs, waits
until every request of the batch is answered, and goes on until it has sent as many requests as it
was told to.  Only whole pairs are written, so it may send one more than that.

A reply counts whatever it says.  A stream that ends early ends the connection with the replies
counted so far; a failure to connect, to read or to write counts as a failed connection.
-/

namespace LockService

/-- What has come of a connection: the number of replies, or nothing. -/
inductive LoadOutcome
  | counted (replies : UInt64)
  | failed
deriving DecidableEq, Repr

/-- Where a connection stands.

* `planning` — it is about to begin a batch, if there is something left to send.
* `writing` — it has written some requests of a batch.
* `awaiting` — it waits for some replies of a batch.
* `ended` — it is done. -/
inductive LoadPhase
  | planning
  | writing (written : Nat)
  | awaiting (left : Nat)
  | ended (outcome : LoadOutcome)
deriving DecidableEq, Repr

/-- A connection of a measurement: the pair that it sends, how many requests it is to send, how many
pairs make a batch, how many requests it has sent and how many replies it has counted. -/
structure LoadClient where
  pair : List Request
  iterations : UInt64
  pipeline : UInt32
  sent : UInt64 := 0
  received : UInt64 := 0
  phase : LoadPhase := .planning
deriving DecidableEq, Repr

/-- A move of a connection.

* `plan` — it begins a batch, or ends.
* `write` — it writes a pair.
* `await` — it sends off the batch and begins to wait for the replies.
* `hear` — it reads a reply, or goes on when none is left to read.
* `hearEnd` — it finds the end of the stream instead of a reply.
* `fail` — reading or writing fails. -/
inductive LoadMove
  | plan
  | write
  | await
  | hear
  | hearEnd
  | fail
deriving DecidableEq, Repr

namespace LoadClient

/-- The connection at a position. -/
def start (workload : Workload) (position : Nat) (iterations : UInt64) (pipeline : UInt32) :
    LoadClient :=
  { pair := workload.pair position, iterations, pipeline }

/-- The most requests in a batch. -/
def batchLimit (c : LoadClient) : Nat :=
  c.pipeline.toNat * c.pair.length

/-- Whether the batch with some requests written takes one more pair. -/
def takesPair (c : LoadClient) (written : Nat) : Bool :=
  c.sent < c.iterations ∧ written < c.batchLimit

/-- How many requests are written and not answered yet. -/
def unanswered (c : LoadClient) : Nat :=
  match c.phase with
  | .writing written => written
  | .awaiting left => left
  | .planning | .ended _ => 0

/-- The connection with one more pair written. -/
def writePair (c : LoadClient) (written : Nat) : LoadClient :=
  { c with
    sent := c.sent + UInt64.ofNat c.pair.length
    phase := .writing (written + c.pair.length) }

/-- The connection after a move, if it can make it now, with the requests that it writes. -/
def step? (c : LoadClient) : LoadMove → Option (List Request × LoadClient)
  | .plan =>
    match c.phase with
    | .planning =>
      let phase := if c.sent < c.iterations then .writing 0 else .ended (.counted c.received)
      some ([], { c with phase })
    | _ => none
  | .write =>
    match c.phase with
    | .writing written => if c.takesPair written then some (c.pair, c.writePair written) else none
    | _ => none
  | .await =>
    match c.phase with
    | .writing written =>
      if c.takesPair written then none else some ([], { c with phase := .awaiting written })
    | _ => none
  | .hear =>
    match c.phase with
    | .awaiting 0 => some ([], { c with phase := .planning })
    | .awaiting (left + 1) =>
      some ([], { c with received := c.received + 1, phase := .awaiting left })
    | _ => none
  | .hearEnd =>
    match c.phase with
    | .awaiting (_ + 1) => some ([], { c with phase := .ended (.counted c.received) })
    | _ => none
  | .fail =>
    match c.phase with
    | .writing _ | .awaiting _ => some ([], { c with phase := .ended .failed })
    | _ => none

end LoadClient

end LockService
