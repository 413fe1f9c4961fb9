import LockService.Config
import LockService.Connection.Schedule

/-!
# Servers

A server is a service with a configuration.  It gives every connection that it accepts the next
number, starting from one, and the bounds that were configured.

The world outside reaches a server through the peers of its connections: what has come in for a
connection is put into the backlog of its peer, and what its peer has read is to be sent out.
-/

namespace LockService

/-- Why a server does not start: its configuration is refused, or there can be no inbox of the size
asked for. -/
inductive StartError
  | config (error : ConfigError)
  | inboxTooLarge
deriving DecidableEq, Repr

/-- A service with its connections, the bounds that each of them gets, and the number of the next
one. -/
structure Server where
  scenario : Scenario
  limits : ReplyLimits
  nextId : UInt64 := 1

namespace Server

/-- A server that has not accepted a connection, if there can be an inbox of the size asked for. -/
def make? (config : Config) : Option Server :=
  (Scenario.start? config.inboundCapacity.toNat).map fun scenario =>
    { scenario, limits := config.replyLimits }

/-- A server that has not accepted a connection, if its configuration is one to start with. -/
def start (config : Config) : Except StartError Server :=
  match config.check with
  | .error error => .error (.config error)
  | .ok () =>
    match make? config with
    | none => .error .inboxTooLarge
    | some server => .ok server

theorem start_eq_ok_iff {config : Config} {server : Server} :
    start config = .ok server ↔ config.check = .ok () ∧ make? config = some server := by
  unfold start
  cases config.check with
  | error error => simp
  | ok => cases make? config <;> simp

theorem isSome_make?_iff {config : Config} :
    (make? config).isSome = true ↔
      0 < config.inboundCapacity.toNat ∧ config.inboundCapacity.toNat ≤ Queue.maxCapacity := by
  rw [make?, Option.isSome_map, Scenario.start?, Option.isSome_map, Service.start?, Option.isSome_map]
  exact Queue.isSome_make?_iff

/-- Accepts a connection over a stream that holds some number of bytes each way, if there can be a
queue for its replies. -/
def accept? (s : Server) (buffer : Nat) : Option Server :=
  (Link.make? ⟨s.nextId⟩ s.limits buffer).map fun link =>
    { s with scenario := s.scenario.connect link, nextId := s.nextId + 1 }

theorem isSome_accept?_iff {s : Server} {buffer : Nat} :
    (s.accept? buffer).isSome = true ↔
      0 < s.limits.capacity ∧ s.limits.capacity ≤ Queue.maxCapacity := by
  rw [accept?, Option.isSome_map, Link.make?, Option.isSome_map]
  exact Queue.isSome_make?_iff

/-- What happens to a server: it accepts a connection, or something moves among those that it
has. -/
inductive Move
  | accept (buffer : Nat)
  | inside (move : Scenario.Move)
deriving DecidableEq, Repr

/-- The server after a move, if the move can be made. -/
def step? (s : Server) : Move → Option Server
  | .accept buffer => s.accept? buffer
  | .inside move => (s.scenario.step? move).map ({ s with scenario := · })

/-- The server after moves one after the other, if all of them can be made. -/
def run? (s : Server) (moves : List Move) : Option Server :=
  moves.foldlM step? s

/-- How many envelopes the core of the server has handled. -/
def processed (s : Server) : UInt64 :=
  s.scenario.service.core.processed

/-! ## The world outside -/

/-- The server after everybody has moved as far as possible. -/
def settle (s : Server) : Server :=
  { s with scenario := s.scenario.settle }

/-- Changes the peer at a position. -/
def modifyPeer (s : Server) (position : Nat) (change : Peer → Peer) : Server :=
  { s with scenario := s.scenario.modifyPeer position change }

/-- Bytes have come in. -/
def arrive (s : Server) (position : Nat) (bytes : List UInt8) : Server :=
  s.modifyPeer position fun peer => { peer with backlog := peer.backlog ++ bytes }

/-- No more bytes will come in. -/
def arriveEnd (s : Server) (position : Nat) : Server :=
  s.modifyPeer position ({ · with finishing := true })

/-- The connection is lost. -/
def lose (s : Server) (position : Nat) : Server :=
  { s with scenario := (s.scenario.stepPeer? position .vanish).getD s.scenario }

/-- Whether all that has come in was taken, so that more may be read. -/
def hasTaken (s : Server) (position : Nat) : Bool :=
  s.scenario.peers[position]?.all (·.backlog.isEmpty)

/-- What is to be sent out now, if there is something: some bytes, or none if the stream has ended.
Until it was sent the peer reads nothing more. -/
def collect? (s : Server) (position : Nat) : Option (List UInt8 × Server) :=
  match s.scenario.peers[position]? with
  | none => none
  | some peer =>
    if peer.heard.isEmpty then if peer.sawEnd || peer.gone then some ([], s) else none
    else some (peer.received,
      s.modifyPeer position ({ · with heard := [], stalled := true }))

/-- What was to be sent out is sent. -/
def sentOut (s : Server) (position : Nat) : Server :=
  s.modifyPeer position ({ · with stalled := false })

end Server

end LockService
