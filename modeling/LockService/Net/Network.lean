import LockService.Net.Address
import LockService.Net.Fault

/-!
# Networks

What the operating system tells a program that wants to listen on an address or to connect to one.
Only its refusals are described: who answers at an address, and what, is not said here.

* `Network.offline` — a machine of which no interface is up, as a program without privileges finds
  it.  Nothing can be connected to, but most addresses of version 4 can be listened on: no routes
  are known that could tell them from the machine's own.
-/

namespace LockService.Net

/-- Which addresses cannot be listened on or connected to, and what is the fault. -/
structure Network where
  listenFault? : SocketAddress → Option Fault
  connectFault? : SocketAddress → Option Fault

/-- Whether only programs with privileges may listen on a port.  Port zero asks for any free one. -/
def isReservedPort (port : UInt16) : Bool :=
  0 < port ∧ port < 1024

/-- The zone of the interface that leads back to the machine itself, the only one that is there
when no other is. -/
def loopbackZone : UInt32 := 1

namespace Offline

/-- What keeps a version 6 address from being listened on, apart from its port.  Those that stand
for none or for one of version 4 are not looked for among the addresses of the machine, which are
none.  One that is local to a link needs to name a link that is there. -/
def localFault? (ip : Ipv6) (zone : UInt32) : Option Fault :=
  if ip.isUnspecified ∨ ip.isMapped then none
  else if ip.isLinkLocal ∧ zone = 0 then some .invalidArgument
  else if ip.isLinkLocal ∧ zone ≠ loopbackZone then some .noSuchDevice
  else some .addressNotAvailable

/-- What keeps an address from being listened on.  Groups are refused before the port is looked at,
everything else afterwards. -/
def listenFault? : SocketAddress → Option Fault
  | .v4 _ port => if isReservedPort port then some .permissionDenied else none
  | .v6 ip zone port =>
    if ip.isMulticast then some .invalidArgument
    else if isReservedPort port then some .permissionDenied
    else localFault? ip zone

/-- What keeps an address from being connected to.  No route leads to a version 4 address or to a
group; for other addresses the machine has none of its own to connect from. -/
def connectFault : SocketAddress → Fault
  | .v4 _ _ => .networkUnreachable
  | .v6 ip zone _ =>
    if ip.isMulticast ∨ ip.isMapped then .networkUnreachable
    else if ip.isLinkLocal ∧ zone = 0 then .invalidArgument
    else .addressNotAvailable

end Offline

namespace Network

/-- The network of a machine of which no interface is up. -/
def offline : Network where
  listenFault? := Offline.listenFault?
  connectFault? := fun address => some (Offline.connectFault address)

end Network

end LockService.Net
