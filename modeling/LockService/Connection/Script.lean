import LockService.Connection.Schedule

/-!
# Scripts

A script opens connections to a fresh service, lets their peers act one at a time, and after each
step reports what every peer has read since.  After a step everything runs until nobody can move, so
what a peer could not send at once waits in its backlog and not in the script.

Connections go by the numbers under which they were opened.  A number may be used again; the
connection that went by it before is then dropped.
-/

namespace LockService

open Std (TreeMap)

/-- A step of a script.

* `connect` — opens a connection with bounds on its replies and a stream of so many bytes.
* `send` — the peer sends bytes.
* `finish` — the peer closes its half behind all that it has sent.
* `drop` — the peer closes both directions at once.
* `stall`, `resume` — the peer stops reading, and reads again.
* `pause` — nothing. -/
inductive ScriptStep
  | connect (id : ConnectionId) (limits : ReplyLimits) (buffer : Nat)
  | send (id : ConnectionId) (bytes : List UInt8)
  | finish (id : ConnectionId)
  | drop (id : ConnectionId)
  | stall (id : ConnectionId)
  | resume (id : ConnectionId)
  | pause
deriving DecidableEq, Repr

/-- Where the connection stands that goes by a number, and whether the end of its stream was
reported. -/
structure Socket where
  position : Nat
  endReported : Bool := false
deriving DecidableEq, Repr

/-- What the peers have noticed in a step: the bytes read by each that read some, and who found the
end of its stream, by ascending numbers. -/
structure ScriptReport where
  received : List (ConnectionId × List UInt8) := []
  ended : List ConnectionId := []
deriving DecidableEq, Repr

/-- A script under way. -/
structure Script where
  course : Course
  sockets : TreeMap ConnectionId Socket := ∅

namespace Script

/-- A script that has not made a step, if there can be an inbox of the size asked for. -/
def start? (inboundCapacity : Nat) : Option Script :=
  (Scenario.start? inboundCapacity).map fun scenario => { course := { scenario } }

/-- The service and the peers of all connections. -/
def scenario (s : Script) : Scenario :=
  s.course.scenario

/-- Changes the peer of the connection that goes by a number. -/
def modifyPeer (s : Script) (id : ConnectionId) (change : Peer → Peer) : Script :=
  match s.sockets[id]? with
  | none => s
  | some socket =>
    { s with course.scenario := s.scenario.modifyPeer socket.position change }

/-- Drops the connection that goes by a number. -/
def drop (s : Script) (id : ConnectionId) : Script :=
  match s.sockets[id]? with
  | none => s
  | some socket =>
    { s with
      course := (s.course.movePeer? socket.position .vanish).getD s.course
      sockets := s.sockets.erase id }

/-- Opens a connection, if there can be a queue for its replies.  Its tasks are called before those
of the connection that it takes the number from. -/
def connect? (s : Script) (id : ConnectionId) (limits : ReplyLimits) (buffer : Nat) :
    Option Script :=
  (Link.make? id limits buffer).map fun link =>
    let position := s.scenario.nextPosition
    let s := { s with course := s.course.connect link }.drop id
    { s with sockets := s.sockets.insert id { position } }

/-- What a step does before everything runs. -/
def act? (s : Script) : ScriptStep → Option Script
  | .connect id limits buffer => s.connect? id limits buffer
  | .send id bytes => some (s.modifyPeer id fun p => { p with backlog := p.backlog ++ bytes })
  | .finish id => some (s.modifyPeer id ({ · with finishing := true }))
  | .drop id => some (s.drop id)
  | .stall id => some (s.modifyPeer id ({ · with stalled := true }))
  | .resume id => some (s.modifyPeer id ({ · with stalled := false }))
  | .pause => some s

/-- The peer at a position. -/
def peer (s : Script) (position : Nat) : Peer :=
  (s.scenario.peers[position]?).getD {}

/-- What is to be reported now. -/
def report (s : Script) : ScriptReport where
  received := s.sockets.toList.filterMap fun (id, socket) =>
    let bytes := (s.peer socket.position).received
    if bytes.isEmpty then none else some (id, bytes)
  ended := s.sockets.toList.filterMap fun (id, socket) =>
    if (s.peer socket.position).sawEnd && !socket.endReported then some id else none

/-- The script after a report: nothing is reported twice. -/
def reported (s : Script) : Script where
  course.scenario.service := s.scenario.service
  course.scenario.peers := s.scenario.peers.map ({ · with heard := [] })
  course.agenda := s.course.agenda
  sockets := s.sockets.map fun _ socket =>
    { socket with endReported := (s.peer socket.position).sawEnd }

/-- Makes a step, lets everything run, and reports. -/
def step? (s : Script) (step : ScriptStep) : Option (ScriptReport × Script) :=
  (s.act? step).map fun s =>
    let s := { s with course := s.course.settle }
    (s.report, s.reported)

/-- How many envelopes the core has handled. -/
def processed (s : Script) : Nat :=
  s.scenario.service.core.processed.toNat

end Script

end LockService
