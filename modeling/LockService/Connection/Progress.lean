import LockService.Connection.Scenario

/-!
# Progress

What each of those who move in a scenario does next if it goes as far as it can: the two tasks of a
link, which read, take and write as much as there is, and a peer, which writes what the stream takes
and reads whatever has come unless it was told not to.

There is at most one such move for each of them.  Whether and when it is made is not decided here.
-/

namespace LockService

namespace Link

/-- The most bytes that the inbound task takes off the stream at once. -/
def fetchSize : Nat := 8192

/-- The next move of the inbound task in a phase in which it has nothing for the core, if it can
make one. -/
def inboundMove? (l : Link) : Option InboundMove :=
  if l.hungUp && l.inbound.heedsHangUp then some .quit
  else
    match l.inbound with
    | .checking => some .check
    | .throttled => some .wait
    | .parked woken => if woken then some .wake else none
    | .reading =>
      if !l.unread.isEmpty then some .decode
      else if !l.fromPeer.bytes.isEmpty then some (.fetch (l.fromPeer.front fetchSize).length)
      else if l.fromPeer.closed then some .endOfInput
      else none
    | .opening | .holding _ | .closing | .ended => none

/-- Whether the inbound task is about to try something that counts in its turn, or to begin with the
next record. -/
def inboundCounts (l : Link) : Bool :=
  match l.inbound with
  | .opening | .checking | .holding _ | .closing => true
  | .reading => l.unread.isEmpty
  | .throttled | .parked _ | .ended => false

/-- Whether the outbound task could do something if it were resumed, other than give up. -/
def canProceed (l : Link) : Bool :=
  match l.outbound with
  | .taking => !l.replies.isEmpty
  | .took _ | .wrote => true
  | .writing left =>
    l.fits left || !l.unsent.isEmpty || l.toPeer.abandoned || 0 < l.toPeer.room
  | .clearing _ | .flushing | .shutting =>
    l.unsent.isEmpty || l.toPeer.abandoned || 0 < l.toPeer.room
  | .ended => false

/-- The move that writes as much of some bytes as the stream takes. -/
def spillMove (l : Link) (bytes : List UInt8) : OutboundMove :=
  if l.toPeer.abandoned then .fail else .spill (min bytes.length l.toPeer.room)

/-- What the outbound task does next, given that it can proceed. -/
def nextOutbound (l : Link) : OutboundMove :=
  match l.outbound with
  | .taking => .take
  | .took _ => .notify
  | .writing left =>
    if l.fits left then .buffer
    else if l.unsent.isEmpty then l.spillMove left
    else .clear
  | .wrote => .test
  | .clearing _ | .flushing => if l.unsent.isEmpty then .flushed else l.spillMove l.unsent
  | .shutting | .ended => if l.unsent.isEmpty then .finish else l.spillMove l.unsent

/-- Whether the outbound task is about to try something that counts in its turn. -/
def outboundCounts (l : Link) : Bool :=
  match l.outbound with
  | .taking => true
  | .writing left => l.unsent.isEmpty && !l.fits left
  | .clearing _ | .flushing | .shutting => !l.unsent.isEmpty
  | .took _ | .wrote | .ended => false

end Link

namespace Peer

/-- How many bytes the peer has to write that the stream takes now. -/
def nextFeed (p : Peer) (l : Link) : Nat :=
  (p.backlog.take l.fromPeer.room).length

/-- What a peer does next without being told to. -/
def next? (p : Peer) (l : Link) : Option PeerMove :=
  if p.canWrite l ∧ 0 < p.nextFeed l then some (.feed (p.nextFeed l))
  else if p.canWrite l && p.finishing && p.backlog.isEmpty then some .halfClose
  else if p.isReading && !l.toPeer.bytes.isEmpty then some (.drink l.toPeer.bytes.length)
  else if p.isReading && !p.sawEnd && l.isClosedToPeer then some .seeEnd
  else none

end Peer

/-- The next move of the peer at a position. -/
def Scenario.nextPeer? (w : Scenario) (position : Nat) : Option PeerMove :=
  match w.peers[position]?, w.service.links[position]? with
  | some peer, some link => peer.next? link
  | _, _ => none

end LockService
