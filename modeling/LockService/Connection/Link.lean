import LockService.Config
import LockService.Connection.Pipe
import LockService.Core.Envelope
import LockService.Queue
import LockService.Stream.Decoder

/-!
# Links

A link is the service's side of one connection.  Two tasks serve it.  The *inbound* task reads
requests and puts them into the inbox of the core; the *outbound* task takes replies out of the
queue that the core puts them into, and writes them.

They share three things.

* The queue of replies.  From `window` queued replies on the inbound task reads nothing more, so a
  client that sends faster than it reads is slowed down.
* A permit by which the outbound task tells the inbound task that a reply was taken.  Nobody needs
  to be waiting for it; there is never more than one.
* The hang-up flag.  It is raised when a reply finds the queue full or cannot be written, and both
  tasks give up when they see it.

This module holds the state of a link and what the core does to it; `LockService.Connection.Inbound`
and `LockService.Connection.Outbound` hold the moves of the tasks.
-/

namespace LockService

/-- Where the inbound task stands.

* `opening` — it has to tell the core that the connection is open.
* `checking` — it is about to look at the reply window.
* `throttled` — it found the window full and is about to wait.
* `parked` — it waits, or was woken and has not gone on yet.
* `reading` — it found room and reads a record.
* `holding` — it has a record, or the failure of one, to pass to the core.
* `closing` — it has to tell the core that the connection has closed.
* `ended` — it is gone. -/
inductive InboundPhase
  | opening
  | checking
  | throttled
  | parked (woken : Bool)
  | reading
  | holding (record : Except DecodeError Request)
  | closing
  | ended

/-- Where the outbound task stands.

* `taking` — it waits for the next message.
* `took` — it has taken a message and not yet said so to the inbound task.
* `writing` — some bytes of a reply are left to write.
* `clearing` — the buffer has no place for them, so it sends off what is there first.
* `wrote` — a reply is written, and it is about to look whether more are queued.
* `flushing` — none were, so it sends off what it has buffered.
* `shutting` — the last message was taken, so it sends off the rest and closes the stream.
* `ended` — it is gone. -/
inductive OutboundPhase
  | taking
  | took (message : Outbound)
  | writing (left : List UInt8)
  | clearing (left : List UInt8)
  | wrote
  | flushing
  | shutting
  | ended

/-- The service's side of a connection: its number and reply window, the stream in both
directions, the two tasks, and what they share.

Of the inbound task, `unread` are bytes that came off the stream and were not looked at yet, and
`line` is the beginning of a record.  Of the outbound task, `awake` says that it has seen the
hang-up flag down and has not waited since, and `unsent` are the bytes in its buffer of
`bufferSize` bytes. -/
structure Link where
  id : ConnectionId
  window : Nat
  fromPeer : Pipe
  toPeer : Pipe
  replies : Queue Outbound
  permit : Bool := false
  hungUp : Bool := false
  inbound : InboundPhase := .opening
  unread : List UInt8 := []
  line : Partial := .empty
  outbound : OutboundPhase := .taking
  awake : Bool := false
  bufferSize : Nat := 8192
  unsent : List UInt8 := []

namespace InboundPhase

/-- Whether the task looks at the hang-up flag here: everywhere but while it has something for the
core. -/
def heedsHangUp : InboundPhase → Bool
  | checking | throttled | parked _ | reading => true
  | opening | holding _ | closing | ended => false

/-- Whether the task is gone. -/
def isEnded : InboundPhase → Bool
  | ended => true
  | _ => false

end InboundPhase

/-- Whether the task is gone. -/
def OutboundPhase.isEnded : OutboundPhase → Bool
  | ended => true
  | _ => false

namespace Link

/-- A fresh link over a stream that can hold some number of bytes in each direction, if there can
be a queue of replies with the capacity asked for. -/
def make? (id : ConnectionId) (limits : ReplyLimits) (buffer : Nat) : Option Link :=
  (Queue.make? limits.capacity).map fun replies =>
    { id, window := limits.window, replies,
      fromPeer := { room := buffer }, toPeer := { room := buffer } }

/-- Whether both tasks are gone, and with them the service's end of the stream. -/
def isOver (l : Link) : Bool :=
  l.inbound.isEnded && l.outbound.isEnded

/-- Whether the peer, having read everything, finds the end of the stream. -/
def isClosedToPeer (l : Link) : Bool :=
  l.toPeer.closed || l.isOver

/-- A message from the core.  If the outbound task is gone it is dropped; if the queue is full it is
dropped too, and the connection is hung up. -/
def receive (l : Link) (message : Outbound) : Link :=
  if l.outbound.isEnded then l
  else
    match l.replies.push? message with
    | some replies => { l with replies }
    | none => { l with hungUp := true }

/-- The outbound task gives up: what it had not sent is lost, and nothing is queued any more. -/
def endOutbound (l : Link) : Link :=
  { l with outbound := .ended, awake := false, unsent := [], replies := l.replies.clear }

/-- The outbound task has taken a message: it wakes the inbound task if that waits, or else leaves
a permit. -/
def notify (l : Link) : Link :=
  match l.inbound with
  | .parked false => { l with inbound := .parked true }
  | _ => { l with permit := true }

end Link

end LockService
