import LockService.Connection.Inbound
import LockService.Connection.Outbound
import LockService.Core.Basic

/-!
# The service

The core, its inbox, and the links of all connections that were ever accepted.  A link is known to
the core by its position, which never changes; two links may carry the same connection number.

`Service.step?` cuts everything that happens inside the service into moves.  The core's part has
two: it takes an envelope, which settles at once what will be delivered and in which order, and it
delivers one message.  In between, the tasks of the links may make moves of their own.
-/

namespace LockService

/-- The core and the links.  `pending` are the messages of the envelope taken last that are still to
be delivered. -/
structure Service where
  inbox : Queue (Envelope Nat)
  core : Core Nat := .empty
  pending : List (Delivery Nat) := []
  links : List Link := []

namespace Service

/-- A move inside the service.

* `take` — the core takes an envelope out of its inbox and works out what to deliver.
* `deliver` — the core delivers the next message.
* `submit` — the inbound task of a link passes what it has to the inbox.
* `inbound`, `outbound` — a task of a link makes a move that concerns its link only.
* `desert` — the outbound task of a link finds that nobody is left who could send it messages. -/
inductive Move
  | take
  | deliver
  | submit (link : Nat)
  | inbound (link : Nat) (move : InboundMove)
  | outbound (link : Nat) (move : OutboundMove)
  | desert (link : Nat)
deriving DecidableEq, Repr

/-- A service with no connection yet and some number of places in its inbox, if there can be such
an inbox. -/
def start? (inboundCapacity : Nat) : Option Service :=
  (Queue.make? inboundCapacity).map fun inbox => { inbox }

/-- The service with one more link, which gets the next position. -/
def accept (s : Service) (link : Link) : Service :=
  { s with links := s.links ++ [link] }

/-- The service with a link replaced. -/
def setLink (s : Service) (position : Nat) (link : Link) : Service :=
  { s with links := s.links.set position link }

/-- The service after a move of one of its links, if the link can make it. -/
def onLink (s : Service) (position : Nat) (move? : Link → Option Link) : Option Service :=
  s.links[position]?.bind fun link => (move? link).map (s.setLink position)

/-- Whether somebody is left who may send a link messages: its own inbound task, the core, or an
envelope or a message on its way. -/
def canReach (s : Service) (position : Nat) : Bool :=
  s.links[position]?.any (! ·.inbound.isEnded) ||
  s.core.repliers.values.contains position ||
  s.inbox.items.any (fun envelope =>
    match envelope.command with
    | .opening replier => replier == position
    | _ => false) ||
  s.pending.any (·.replier == position)

/-- The core takes an envelope, once everything is delivered that the last one caused. -/
def take (s : Service) : Option Service :=
  match s.pending with
  | _ :: _ => none
  | [] =>
    s.inbox.pop?.map fun (envelope, inbox) =>
      let (pending, core) := s.core.handle envelope
      { s with inbox, core, pending }

/-- The core delivers the next message. -/
def deliver (s : Service) : Option Service :=
  match s.pending with
  | [] => none
  | delivery :: pending =>
    some { s with
      pending
      links := s.links.modify delivery.replier (·.receive delivery.message) }

/-- The inbound task of a link passes what it has to the inbox, if there is a place. -/
def submit (s : Service) (position : Nat) : Option Service :=
  match s.links[position]?.bind (·.submission? position) with
  | none => none
  | some (envelope, link) =>
    (s.inbox.push? envelope).map fun inbox => { s.setLink position link with inbox }

/-- The service after a move, if the move can be made. -/
def step? (s : Service) : Move → Option Service
  | .take => s.take
  | .deliver => s.deliver
  | .submit position => s.submit position
  | .inbound position move => s.onLink position (·.inboundStep? move)
  | .outbound position move => s.onLink position (·.outboundStep? move)
  | .desert position => if s.canReach position then none else s.onLink position (·.desert?)

end Service

end LockService
