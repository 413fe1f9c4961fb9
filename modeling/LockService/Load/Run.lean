import LockService.Core.Basic
import LockService.Load.Report

/-!
# A measurement as a whole

The connections of a measurement and the core that answers them.  Between a connection and the core
stand the requests that were written and not handled, and the replies that were delivered and not
read; both keep their order, and nothing is lost.  Who moves when is left open: a run is any
sequence of moves.
-/

namespace LockService

/-- What the core knows of a connection: nothing yet, that it is open, or that it has closed. -/
inductive LoadStage
  | unknown
  | isOpen
  | isClosed
deriving DecidableEq, Repr

/-- A connection of a measurement with what is under way in both directions, and what the core knows
of it. -/
structure LoadLink where
  client : LoadClient
  stage : LoadStage := .unknown
  requests : List Request := []
  replies : List Reply := []
deriving DecidableEq, Repr

/-- The core and the connections.  The core answers through the position of a connection, and the
number of a connection is one more than its position. -/
structure LoadRun where
  core : Core Nat := .empty
  links : List LoadLink

namespace LoadRun

/-- A move in a measurement: a connection goes on, or the core handles the opening, the next request
or the closing of a connection. -/
inductive Move
  | client (position : Nat) (move : LoadMove)
  | opening (position : Nat)
  | request (position : Nat)
  | closing (position : Nat)
deriving DecidableEq, Repr

/-- A measurement that is about to begin. -/
def start (workload : Workload) (connections : Nat) (iterations : UInt64) (pipeline : UInt32) :
    LoadRun where
  links := (List.range connections).map fun position =>
    { client := .start workload position iterations pipeline }

/-- The number of the connection at a position. -/
def idAt (position : Nat) : ConnectionId :=
  ⟨UInt64.ofNat (position + 1)⟩

/-- A connection after a message from the core. -/
def receive (message : Outbound) (link : LoadLink) : LoadLink :=
  match message with
  | .reply reply => { link with replies := link.replies ++ [reply] }
  | .closed => link

/-- The measurement after the core has handled a command of the connection at a position. -/
def handle (r : LoadRun) (position : Nat) (command : Command Nat) : LoadRun :=
  let (sent, core) := r.core.handle ⟨idAt position, command⟩
  { core
    links := sent.foldl (fun links d => links.modify d.replier (receive d.message)) r.links }

/-- The measurement with the connection at a position replaced. -/
def setLink (r : LoadRun) (position : Nat) (link : LoadLink) : LoadRun :=
  { r with links := r.links.set position link }

/-- A connection after a move of its own, if it can make it now.  A reply is read only if one is
there, and the stream does not end while the connection is in use. -/
def stepClient? (link : LoadLink) (move : LoadMove) : Option LoadLink :=
  match move, link.client.phase, link.replies with
  | .hear, .awaiting (_ + 1), [] => none
  | .hear, .awaiting (_ + 1), _ :: replies =>
    (link.client.step? .hear).map fun (_, client) => { link with client, replies }
  | .hearEnd, _, _ | .fail, _, _ => none
  | move, _, _ =>
    (link.client.step? move).map fun (requests, client) =>
      { link with client, requests := link.requests ++ requests }

/-- What has come of a connection, once it is done. -/
def outcome? (link : LoadLink) : Option LoadOutcome :=
  match link.client.phase with
  | .ended outcome => some outcome
  | _ => none

/-- The measurement after a move, if the move can be made. -/
def step? (r : LoadRun) : Move → Option LoadRun
  | .client position move =>
    r.links[position]?.bind fun link => (stepClient? link move).map (r.setLink position)
  | .opening position =>
    r.links[position]?.bind fun link =>
      if link.stage = .unknown then
        some ((r.setLink position { link with stage := .isOpen }).handle position (.opening position))
      else none
  | .request position =>
    r.links[position]?.bind fun link =>
      match link.stage, link.requests with
      | .isOpen, request :: requests =>
        some ((r.setLink position { link with requests }).handle position (.request request))
      | _, _ => none
  | .closing position =>
    r.links[position]?.bind fun link =>
      if link.stage = .isOpen ∧ link.requests.isEmpty ∧ (outcome? link).isSome then
        some ((r.setLink position { link with stage := .isClosed }).handle position .closing)
      else none

/-- The measurement after moves one after the other, if all of them can be made. -/
def run? (r : LoadRun) (moves : List Move) : Option LoadRun :=
  moves.foldlM step? r

/-- What the measurement shows, once every connection is done. -/
def report? (r : LoadRun) : Option LoadReport :=
  (r.links.mapM outcome?).map LoadReport.ofOutcomes

end LoadRun

end LockService
