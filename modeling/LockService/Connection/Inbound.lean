import LockService.Connection.Link

/-!
# The inbound task

What the inbound task of a link does, cut into moves between which anything else may happen.  For
every record it goes through the same round: it checks the reply window, waits while that is
full, reads, and passes the record on.

Passing something on takes a place in the inbox of the core; `Link.submission?` says what that is
and where the task stands afterwards.
-/

namespace LockService

/-- A move of the inbound task.

* `quit` — it sees the hang-up flag and stops reading.
* `check` — it looks at the reply window.
* `wait` — it takes the permit if there is one, and waits otherwise.
* `wake` — woken, it is about to check again.
* `fetch` — it takes some bytes off the stream.
* `decode` — it looks for a record in the bytes that it has.
* `endOfInput` — it finds the end of the stream.
* `fail` — reading fails. -/
inductive InboundMove
  | quit
  | check
  | wait
  | wake
  | fetch (count : Nat)
  | decode
  | endOfInput
  | fail
deriving DecidableEq, Repr

namespace Link

/-- Whether the reply window has room. -/
def hasRoom (l : Link) : Bool :=
  l.replies.size < l.window

/-- Takes the result of a record, if there is one; otherwise the stream has ended. -/
def conclude (l : Link) : Option (Except DecodeError Request) → Link
  | some record => { l with inbound := .holding record, line := .empty }
  | none => { l with inbound := .closing, line := .empty }

/-- Looks for a record in the bytes that came off the stream. -/
def decode (l : Link) : Link :=
  match Decoder.next l.line l.unread with
  | .unfinished line => { l with line, unread := [] }
  | .result record rest => { l with inbound := .holding record, line := .empty, unread := rest }

/-- The link after a move of its inbound task, if the task can make it now. -/
def inboundStep? (l : Link) : InboundMove → Option Link
  | .quit => if l.hungUp && l.inbound.heedsHangUp then some { l with inbound := .closing } else none
  | .check =>
    match l.inbound with
    | .checking => some { l with inbound := if l.hasRoom then .reading else .throttled }
    | _ => none
  | .wait =>
    match l.inbound with
    | .throttled =>
      if l.permit then some { l with inbound := .checking, permit := false }
      else some { l with inbound := .parked false }
    | _ => none
  | .wake =>
    match l.inbound with
    | .parked true => some { l with inbound := .checking }
    | _ => none
  | .fetch count =>
    match l.inbound with
    | .reading =>
      if l.unread.isEmpty && l.fromPeer.gives count then
        some { l with unread := l.fromPeer.front count, fromPeer := l.fromPeer.read count }
      else none
    | _ => none
  | .decode =>
    match l.inbound with
    | .reading => if l.unread.isEmpty then none else some l.decode
    | _ => none
  | .endOfInput =>
    match l.inbound with
    | .reading =>
      if l.unread.isEmpty && l.fromPeer.isAtEnd then some (l.conclude (Decoder.atEnd l.line))
      else none
    | _ => none
  | .fail =>
    match l.inbound with
    | .reading => some { l with inbound := .closing }
    | _ => none

/-- What the inbound task has for the core, and the link after the core's inbox has taken it.  The
core will answer through `replier`. -/
def submission? {ρ : Type} (l : Link) (replier : ρ) : Option (Envelope ρ × Link) :=
  match l.inbound with
  | .opening => some (⟨l.id, .opening replier⟩, { l with inbound := .checking })
  | .holding (.ok request) => some (⟨l.id, .request request⟩, { l with inbound := .checking })
  | .holding (.error _) => some (⟨l.id, .malformed⟩, { l with inbound := .closing })
  | .closing => some (⟨l.id, .closing⟩, { l with inbound := .ended })
  | .checking | .throttled | .parked _ | .reading | .ended => none

end Link

end LockService
