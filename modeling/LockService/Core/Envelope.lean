import LockService.Core.ConnectionId
import LockService.Record.Reply
import LockService.Record.Request

/-!
# What goes into the core and what comes out

Connections put envelopes into one queue, and the core answers each with deliveries.  The first
envelope of a connection brings a replier, the only thing through which the core can reach the
connection; what a replier is, `ρ`, is left to whoever uses the core.
-/

namespace LockService

/-- What a connection tells the core: that it is open and how it can be answered, that it has
closed, a request, or that it received something that is no request. -/
inductive Command (ρ : Type)
  | opening (replier : ρ)
  | closing
  | request (request : Request)
  | malformed
deriving DecidableEq, Repr

/-- A command and the connection that gives it. -/
structure Envelope (ρ : Type) where
  sender : ConnectionId
  command : Command ρ
deriving DecidableEq, Repr

/-- What the core tells a connection: a reply, or that its closing was noted and nothing will
follow. -/
inductive Outbound
  | reply (reply : Reply)
  | closed
deriving DecidableEq, Repr

/-- A message on its way to a connection through the replier that it is registered with. -/
structure Delivery (ρ : Type) where
  receiver : ConnectionId
  replier : ρ
  message : Outbound
deriving DecidableEq, Repr

end LockService
