import LockService.Connection.Link

/-!
# The outbound task

What the outbound task of a link does, cut into moves between which the core may put further
messages into the queue.

Each time that the task is resumed it looks at the hang-up flag once (`look`); it may then take,
write and flush as long as nothing makes it wait.  Replies go through a buffer, which is sent off
as a whole when it has no place for the next one and when no further reply is queued, so replies to
a pipelining client share the writes.  Once the last message is taken the flag counts no more.
-/

namespace LockService

/-- A move of the outbound task.

* `look` — resumed, it looks at the hang-up flag and gives up if it is raised.
* `suspend` — it waits, for a message or for room on the stream.
* `take` — it takes a message out of the queue.
* `notify` — it lets the inbound task know.
* `buffer` — it puts what is left of a reply into its buffer.
* `clear` — it begins to send off its buffer, which has no place for what is left of a reply.
* `spill` — it writes some bytes to the stream.
* `test` — it looks whether the queue is empty.
* `flushed` — everything is sent off, and it goes on with the reply at hand or to the next message.
* `finish` — everything is sent off, and it closes the stream.
* `fail` — a write fails. -/
inductive OutboundMove
  | look
  | suspend
  | take
  | notify
  | buffer
  | clear
  | spill (count : Nat)
  | test
  | flushed
  | finish
  | fail
deriving DecidableEq, Repr

namespace OutboundPhase

/-- Whether the task still watches the hang-up flag: until it closes the stream. -/
def heedsHangUp : OutboundPhase → Bool
  | shutting | ended => false
  | _ => true

/-- Whether the task may wait here. -/
def mayWait : OutboundPhase → Bool
  | taking | writing _ | clearing _ | flushing | shutting => true
  | took _ | wrote | ended => false

/-- Where the task stands that has taken a message and said so. -/
def ofMessage : Outbound → OutboundPhase
  | .reply reply => writing (Record.bytes reply)
  | .closed => shutting

end OutboundPhase

namespace Link

/-- Whether the buffer can take some bytes as they are. -/
def fits (l : Link) (bytes : List UInt8) : Bool :=
  bytes.length < l.bufferSize ∧ l.unsent.length + bytes.length ≤ l.bufferSize

/-- Writes some of the buffered bytes to the stream. -/
def spillBuffer (l : Link) (count : Nat) : Option Link :=
  if l.toPeer.takes count ∧ count ≤ l.unsent.length then
    some { l with toPeer := l.toPeer.write (l.unsent.take count), unsent := l.unsent.drop count }
  else none

/-- Writes some bytes of a reply to the stream that is larger than the buffer. -/
def spillReply (l : Link) (left : List UInt8) (count : Nat) : Option Link :=
  if l.toPeer.takes count ∧ count ≤ left.length then
    let rest := left.drop count
    some { l with
      toPeer := l.toPeer.write (left.take count)
      outbound := if rest.isEmpty then .wrote else .writing rest }
  else none

/-- Writes some bytes to the stream: from the buffer, or directly those of a large reply if the
buffer is empty. -/
def spill (l : Link) (count : Nat) : Option Link :=
  match l.outbound with
  | .writing left =>
    if l.unsent.isEmpty && !l.fits left then l.spillReply left count else none
  | .clearing _ | .flushing | .shutting => l.spillBuffer count
  | .taking | .took _ | .wrote | .ended => none

/-- The link after a failed write.  While it still wrote replies the task raises the hang-up flag;
when it was closing anyway it just ends. -/
def failWrite (l : Link) : Option Link :=
  match l.outbound with
  | .writing _ | .clearing _ | .flushing => some { l.endOutbound with hungUp := true }
  | .shutting => some l.endOutbound
  | .taking | .took _ | .wrote | .ended => none

/-- The link after a move of its outbound task that has looked at the flag. -/
def outboundStepAwake? (l : Link) : OutboundMove → Option Link
  | .look => none
  | .suspend => if l.outbound.mayWait then some { l with awake := false } else none
  | .take =>
    match l.outbound with
    | .taking =>
      l.replies.pop?.map fun (message, replies) => { l with replies, outbound := .took message }
    | _ => none
  | .notify =>
    match l.outbound with
    | .took message => some { l.notify with outbound := .ofMessage message }
    | _ => none
  | .buffer =>
    match l.outbound with
    | .writing left =>
      if l.fits left then some { l with unsent := l.unsent ++ left, outbound := .wrote } else none
    | _ => none
  | .clear =>
    match l.outbound with
    | .writing left =>
      if l.unsent.isEmpty || l.fits left then none else some { l with outbound := .clearing left }
    | _ => none
  | .spill count => l.spill count
  | .test =>
    match l.outbound with
    | .wrote => some { l with outbound := if l.replies.isEmpty then .flushing else .taking }
    | _ => none
  | .flushed =>
    match l.outbound with
    | .clearing left =>
      if l.unsent.isEmpty then some { l with outbound := .writing left } else none
    | .flushing => if l.unsent.isEmpty then some { l with outbound := .taking } else none
    | _ => none
  | .finish =>
    match l.outbound with
    | .shutting =>
      if l.unsent.isEmpty then some { l.endOutbound with toPeer := l.toPeer.close } else none
    | _ => none
  | .fail => l.failWrite

/-- The link after a move of its outbound task, if the task can make it now. -/
def outboundStep? (l : Link) (move : OutboundMove) : Option Link :=
  if l.awake then l.outboundStepAwake? move
  else
    match move with
    | .look =>
      if l.outbound.isEnded then none
      else if l.hungUp && l.outbound.heedsHangUp then some l.endOutbound
      else some { l with awake := true }
    | _ => none

/-- The link after everybody who could send it messages is gone: the outbound task closes the
stream, as it would after the last message. -/
def desert? (l : Link) : Option Link :=
  match l.outbound with
  | .taking => if l.replies.isEmpty then some { l with outbound := .shutting } else none
  | _ => none

end Link

end LockService
