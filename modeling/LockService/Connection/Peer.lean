import LockService.Connection.Link

/-!
# Peers

The other side of a connection, as far as the service can notice it: bytes arrive in pieces, may
end, and are read off the stream at any pace or not at all.

A peer is described by what it still wants to do.  Bytes that find no room on the stream wait in
its backlog; it closes its half of the stream when it was told to and the backlog is empty.
-/

namespace LockService

/-- A peer: the bytes that it has still to write, whether it will close its half behind them or has
done so, whether it has stopped reading, the bytes that it has read, latest first, whether it has
found the end of the stream, and whether it is gone. -/
structure Peer where
  backlog : List UInt8 := []
  finishing : Bool := false
  stalled : Bool := false
  heard : List UInt8 := []
  sawEnd : Bool := false
  gone : Bool := false
deriving DecidableEq, Repr, Inhabited

/-- A move of a peer.

* `feed` — it writes some bytes of its backlog.
* `halfClose` — it closes its half of the stream.
* `drink` — it reads some bytes.
* `seeEnd` — having read everything, it finds the end of the stream.
* `vanish` — it closes the stream in both directions. -/
inductive PeerMove
  | feed (count : Nat)
  | halfClose
  | drink (count : Nat)
  | seeEnd
  | vanish
deriving DecidableEq, Repr

namespace Peer

/-- Whether the peer can still write. -/
def canWrite (p : Peer) (l : Link) : Bool :=
  !p.gone && !l.fromPeer.closed && !l.isOver

/-- The bytes that the peer has read, in the order in which they came. -/
def received (p : Peer) : List UInt8 :=
  p.heard.reverse

/-- Whether the peer is there and reads. -/
def isReading (p : Peer) : Bool :=
  !p.gone && !p.stalled

/-- A peer and the link that it is connected to after a move of the peer, if it can make it now. -/
def step? (p : Peer) (l : Link) : PeerMove → Option (Peer × Link)
  | .feed count =>
    let piece := p.backlog.take count
    if p.canWrite l ∧ l.fromPeer.takes count ∧ piece.length = count then
      some ({ p with backlog := p.backlog.drop count },
        { l with fromPeer := l.fromPeer.write piece })
    else none
  | .halfClose =>
    if p.canWrite l && p.finishing && p.backlog.isEmpty then
      some (p, { l with fromPeer := l.fromPeer.close })
    else none
  | .drink count =>
    if p.isReading && l.toPeer.gives count then
      some ({ p with heard := (l.toPeer.front count).reverse ++ p.heard },
        { l with toPeer := l.toPeer.read count })
    else none
  | .seeEnd =>
    if p.isReading && !p.sawEnd && l.isClosedToPeer && l.toPeer.bytes.isEmpty then
      some ({ p with sawEnd := true }, l)
    else none
  | .vanish =>
    if p.gone then none
    else
      some ({ p with gone := true, backlog := [] },
        { l with fromPeer := l.fromPeer.close, toPeer := l.toPeer.abandon })

end Peer

end LockService
