import LockService.Connection.Peer
import LockService.Connection.Service

/-!
# Scenarios

A service together with the peers of all its connections, the peer of a link at the position of the
link.  `Scenario.step?` is a move of either side, and a run is any sequence of moves
(`Scenario.run?`): nothing is said here about who moves when.
-/

namespace LockService

/-- A service and its peers. -/
structure Scenario where
  service : Service
  peers : List Peer := []

namespace Scenario

/-- A move of the service or of a peer. -/
inductive Move
  | service (move : Service.Move)
  | peer (position : Nat) (move : PeerMove)
deriving DecidableEq, Repr

/-- A scenario without connections. -/
def start? (inboundCapacity : Nat) : Option Scenario :=
  (Service.start? inboundCapacity).map fun service => { service }

/-- The position that the next connection will get. -/
def nextPosition (w : Scenario) : Nat :=
  w.service.links.length

/-- The scenario with one more connection. -/
def connect (w : Scenario) (link : Link) : Scenario :=
  { w with service := w.service.accept link, peers := w.peers ++ [{}] }

/-- The scenario with the state of a peer changed from outside. -/
def modifyPeer (w : Scenario) (position : Nat) (change : Peer → Peer) : Scenario :=
  { w with peers := w.peers.modify position change }

/-- The scenario after a move of the peer at a position, if the peer can make it. -/
def stepPeer? (w : Scenario) (position : Nat) (move : PeerMove) : Option Scenario :=
  match w.peers[position]?, w.service.links[position]? with
  | some peer, some link =>
    (peer.step? link move).map fun (peer, link) =>
      { w with service := w.service.setLink position link, peers := w.peers.set position peer }
  | _, _ => none

/-- The scenario after a move, if the move can be made. -/
def step? (w : Scenario) : Move → Option Scenario
  | .service move => (w.service.step? move).map ({ w with service := · })
  | .peer position move => w.stepPeer? position move

/-- The scenario after moves one after the other, if all of them can be made. -/
def run? (w : Scenario) (moves : List Move) : Option Scenario :=
  moves.foldlM step? w

end Scenario

end LockService
