import LockService.Text.Decimal
import LockService.Text.Digit

/-!
# Socket addresses

Where a service listens and where a client connects to: an address of the Internet Protocol,
version 4 or 6, and a port.  Addresses are read from the command line and written into messages.

Reading accepts the usual texts and nothing around them: `127.0.0.1:4002`, `[::1]:4002`.

* A part of a version 4 address has at most three digits and no leading zero.
* A part of a version 6 address has at most four hexadecimal digits.  One run of parts may be left
  out with `::`, the last two may be written as a version 4 address, and a numeric zone may follow
  behind a percent sign.
* A port may have leading zeros.

Writing leaves out the longest run of at least two zero parts, the first of several.
-/

namespace LockService.Net

/-- A version 4 address: four octets. -/
structure Ipv4 where
  a : UInt8
  b : UInt8
  c : UInt8
  d : UInt8
deriving DecidableEq, Repr, Inhabited

/-- A version 6 address: eight parts. -/
structure Ipv6 where
  parts : List UInt16
  length_eq : parts.length = 8
deriving DecidableEq, Repr

/-- An address with a port, and for version 6 a zone (zero for none). -/
inductive SocketAddress
  | v4 (ip : Ipv4) (port : UInt16)
  | v6 (ip : Ipv6) (zone : UInt32) (port : UInt16)
deriving DecidableEq, Repr

instance : Inhabited SocketAddress := ⟨.v4 default 0⟩

/-! ## Kinds of addresses -/

namespace Ipv6

/-- Whether an address is the one that stands for none in particular, `::`. -/
def isUnspecified (ip : Ipv6) : Bool :=
  ip.parts.all (· = 0)

/-- Whether an address stands for a group of machines: it begins with eight ones. -/
def isMulticast (ip : Ipv6) : Bool :=
  ip.parts.head?.any (· / 0x100 = 0xFF)

/-- Whether an address has a meaning on one link only: it begins with the ten bits of `fe80`. -/
def isLinkLocal (ip : Ipv6) : Bool :=
  ip.parts.head?.any (· / 0x40 = 0xFE80 / 0x40)

/-- Whether an address stands for one of version 4: that follows behind `::ffff:`. -/
def isMapped (ip : Ipv6) : Bool :=
  ip.parts.take 6 = [0, 0, 0, 0, 0, 0xFFFF]

end Ipv6

/-! ## Reading

Every reader takes characters off the front of a text and gives what they mean and the rest.
-/

/-- The digits at the front of a text. -/
def takeDigits (base : Nat) : List Char → List Nat × List Char
  | [] => ([], [])
  | c :: cs =>
    match Text.digit? base c with
    | none => ([], c :: cs)
    | some digit =>
      let (digits, rest) := takeDigits base cs
      (digit :: digits, rest)

/-- Reads a number below a bound.  All digits at the front are taken; there must be at least one
and, where a limit is given, no more than that. -/
def number? (base bound : Nat) (most : Option Nat) (cs : List Char) : Option (Nat × List Char) :=
  let (digits, rest) := takeDigits base cs
  let value := digits.foldl (fun value digit => value * base + digit) 0
  if digits.isEmpty ∨ most.any (· < digits.length) ∨ bound ≤ value then none
  else some (value, rest)

/-- Reads one given character. -/
def exactly? (expected : Char) : List Char → Option (List Char)
  | c :: cs => if c = expected then some cs else none
  | [] => none

/-- Reads a part of a version 4 address. -/
def octet? (cs : List Char) : Option (UInt8 × List Char) :=
  match number? 10 256 (some 3) cs with
  | none => none
  | some (value, rest) =>
    if cs.head? = some '0' ∧ rest.length + 1 < cs.length then none
    else some (UInt8.ofNat value, rest)

/-- Reads a version 4 address. -/
def ipv4? (cs : List Char) : Option (Ipv4 × List Char) := do
  let (a, cs) ← octet? cs
  let (b, cs) ← octet? (← exactly? '.' cs)
  let (c, cs) ← octet? (← exactly? '.' cs)
  let (d, cs) ← octet? (← exactly? '.' cs)
  return (⟨a, b, c, d⟩, cs)

/-- Reads a part of a version 6 address. -/
def part? (cs : List Char) : Option (UInt16 × List Char) :=
  (number? 16 0x10000 (some 4) cs).map fun (value, rest) => (UInt16.ofNat value, rest)

/-- Reads something behind a colon, or without one in front of the first part. -/
def behindColon? {α : Type} (first : Bool) (read? : List Char → Option α) (cs : List Char) :
    Option α :=
  if first then read? cs else (exactly? ':' cs).bind read?

/-- The two version 6 parts that a version 4 address makes. -/
def Ipv4.parts (ip : Ipv4) : List UInt16 :=
  [ip.a.toUInt16 * 256 + ip.b.toUInt16, ip.c.toUInt16 * 256 + ip.d.toUInt16]

/-- Reads at most `room` parts with colons between them.  Where two parts still fit a version 4
address may stand for them, and it is the last thing read; the answer tells whether one was. -/
def parts : Nat → Bool → List Char → List UInt16 × Bool × List Char
  | 0, _, cs => ([], false, cs)
  | room + 1, first, cs =>
    match if 1 ≤ room then behindColon? first ipv4? cs else none with
    | some (ip, rest) => (ip.parts, true, rest)
    | none =>
      match behindColon? first part? cs with
      | none => ([], false, cs)
      | some (part, rest) =>
        let (more, embedded, rest) := parts room false rest
        (part :: more, embedded, rest)

/-- Reads a version 6 address: eight parts, or fewer around one `::`. -/
def ipv6? (cs : List Char) : Option (Ipv6 × List Char) :=
  match parts 8 true cs with
  | (head, embedded, rest) =>
    if h : head.length = 8 then some (⟨head, h⟩, rest)
    else if embedded then none
    else do
      let rest ← exactly? ':' (← exactly? ':' rest)
      let (tail, _, rest) := parts (7 - head.length) true rest
      let all := head ++ List.replicate (8 - head.length - tail.length) 0 ++ tail
      if h : all.length = 8 then return (⟨all, h⟩, rest) else none

/-- Reads a port behind a colon. -/
def port? (cs : List Char) : Option (UInt16 × List Char) := do
  let (port, rest) ← number? 10 0x10000 none (← exactly? ':' cs)
  return (UInt16.ofNat port, rest)

/-- Reads a zone behind a percent sign. -/
def zone? (cs : List Char) : Option (UInt32 × List Char) := do
  let (zone, rest) ← number? 10 0x100000000 none (← exactly? '%' cs)
  return (UInt32.ofNat zone, rest)

/-- Reads a version 4 address and a port. -/
def socketV4? (cs : List Char) : Option (SocketAddress × List Char) := do
  let (ip, cs) ← ipv4? cs
  let (port, cs) ← port? cs
  return (.v4 ip port, cs)

/-- Reads a version 6 address in brackets, possibly with a zone, and a port. -/
def socketV6? (cs : List Char) : Option (SocketAddress × List Char) := do
  let (ip, cs) ← ipv6? (← exactly? '[' cs)
  let (zone, cs) := (zone? cs).getD (0, cs)
  let (port, cs) ← port? (← exactly? ']' cs)
  return (.v6 ip zone port, cs)

/-! ## Writing -/

/-- The number of zero parts at the front. -/
def leadingZeros (parts : List UInt16) : Nat :=
  (parts.takeWhile (· = 0)).length

/-- The first longest run of zero parts: where it starts and how long it is. -/
def longestZeros : Nat → List UInt16 → Nat × Nat
  | _, [] => (0, 0)
  | start, part :: rest =>
    let here := leadingZeros (part :: rest)
    let later := longestZeros (start + 1) rest
    if later.2 ≤ here ∧ here ≠ 0 then (start, here) else later

/-- Parts in hexadecimal with colons between them. -/
def writeParts (parts : List UInt16) : List Char :=
  [':'].intercalate (parts.map fun part => Nat.toDigits 16 part.toNat)

/-- The text of a version 4 address. -/
def Ipv4.write (ip : Ipv4) : List Char :=
  ['.'].intercalate ([ip.a, ip.b, ip.c, ip.d].map fun octet => Decimal.write octet.toNat)

/-- The text of a version 6 address.  One that embeds a version 4 address behind `::ffff:` shows
it as such. -/
def Ipv6.write (ip : Ipv6) : List Char :=
  match ip.parts with
  | [0, 0, 0, 0, 0, 0xFFFF, high, low] =>
    "::ffff:".toList ++
      Ipv4.write ⟨(high / 256).toUInt8, high.toUInt8, (low / 256).toUInt8, low.toUInt8⟩
  | parts =>
    let (start, length) := longestZeros 0 parts
    if 1 < length then
      writeParts (parts.take start) ++ ':' :: ':' :: writeParts (parts.drop (start + length))
    else writeParts parts

namespace SocketAddress

/-- The address that a text is, with nothing before or behind it. -/
def parse? (text : String) : Option SocketAddress :=
  let whole : Option (SocketAddress × List Char) → Option SocketAddress
    | some (address, []) => some address
    | _ => none
  match whole (socketV4? text.toList) with
  | some address => some address
  | none => whole (socketV6? text.toList)

/-- The text of an address. -/
def write : SocketAddress → List Char
  | .v4 ip port => ip.write ++ ':' :: Decimal.write port.toNat
  | .v6 ip zone port =>
    let zone := if zone = 0 then [] else '%' :: Decimal.write zone.toNat
    '[' :: (ip.write ++ zone ++ ']' :: ':' :: Decimal.write port.toNat)

/-- The text of an address. -/
def text (address : SocketAddress) : String :=
  String.ofList address.write

/-- The address of this machine that the service listens on by default. -/
def standard : SocketAddress :=
  .v4 ⟨127, 0, 0, 1⟩ 4002

end SocketAddress

end LockService.Net
