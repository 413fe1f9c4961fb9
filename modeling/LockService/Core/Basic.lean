import LockService.Core.Envelope
import LockService.Table.Basic

/-!
# The core

The core owns the lock table and the counters, and handles one envelope after the other.
`Core.handle` is the whole of it: a function from a core and an envelope to the messages that are
delivered, in their order, and the core afterwards.

A connection that sends requests without having opened takes part like any other, except that
nobody can tell it anything: messages without a replier are dropped.  Opening a second time
replaces the replier and leaves locks and waits as they are.
-/

namespace LockService

open Std (TreeMap)

/-- The counters that were set or added to, by name. -/
abbrev Counters := TreeMap String Counter

/-- The state of the service: the lock table, the counters, how each open connection is answered,
and how many envelopes were handled. -/
structure Core (ρ : Type) where
  table : Table ConnectionId String := .empty
  counters : Counters := ∅
  repliers : TreeMap ConnectionId ρ := ∅
  processed : UInt64 := 0

namespace Counters

/-- The number in an argument.  A missing argument reads as the empty text. -/
def argument? (arg : Option String) : Except Refusal Counter :=
  match Counter.parse? (arg.getD "") with
  | some n => .ok n
  | none => .error .invalidNumber

/-- The value of a counter, zero if it was never set. -/
def value (counters : Counters) (name : String) : Counter :=
  counters.getD name .zero

/-- Sets a counter to the number in an argument. -/
def set (counters : Counters) (name : String) (arg : Option String) : Except Refusal Counters :=
  match argument? arg with
  | .error refusal => .error refusal
  | .ok n => .ok (counters.insert name n)

/-- Adds the number in an argument to a counter, and gives the sum. -/
def incr (counters : Counters) (name : String) (arg : Option String) :
    Except Refusal (Counter × Counters) :=
  match argument? arg with
  | .error refusal => .error refusal
  | .ok n =>
    match (counters.value name).add? n with
    | none => .error .overflow
    | some sum => .ok (sum, counters.insert name sum)

end Counters

namespace Core

variable {ρ : Type}

/-- The core of a service that has just started. -/
def empty : Core ρ := {}

instance : Inhabited (Core ρ) := ⟨empty⟩

/-- The value of a counter that was set or added to. -/
def counter? (core : Core ρ) (name : String) : Option Counter :=
  core.counters[name]?

/-- A message to a connection, if it can be reached. -/
def send (core : Core ρ) (receiver : ConnectionId) (message : Outbound) : List (Delivery ρ) :=
  match core.repliers[receiver]? with
  | none => []
  | some replier => [⟨receiver, replier, message⟩]

/-- A reply to a connection, if it can be reached. -/
def reply (core : Core ρ) (receiver : ConnectionId) (reply : Reply) : List (Delivery ρ) :=
  core.send receiver (.reply reply)

/-- A refusal to a connection, if it can be reached. -/
def refuse (core : Core ρ) (receiver : ConnectionId) (refusal : Refusal) : List (Delivery ρ) :=
  core.reply receiver (.ofRefusal refusal)

/-! ## The commands

Each command gives the messages it causes and the core afterwards.
-/

/-- A connection opens: it is registered, and answered through its replier from now on. -/
def opening (core : Core ρ) (sender : ConnectionId) (replier : ρ) : List (Delivery ρ) × Core ρ :=
  ([], { core with
    table := core.table.register sender
    repliers := core.repliers.insert sender replier })

/-- A connection closes.  It is told so as the last thing it ever hears, and everyone who is
promoted by its leaving is granted the key. -/
def closing (core : Core ρ) (sender : ConnectionId) : List (Delivery ρ) × Core ρ :=
  let (promoted, table) := core.table.remove sender
  let after := { core with table, repliers := core.repliers.erase sender }
  (core.send sender .closed ++ promoted.flatMap (after.reply · .ok), after)

/-- A lock is asked for.  Who has to wait hears nothing. -/
def lock (core : Core ρ) (sender : ConnectionId) (key : String) : List (Delivery ρ) × Core ρ :=
  let (granted, table) := core.table.acquire sender key
  (if granted then core.reply sender .ok else [], { core with table })

/-- A lock is given up, and the next in line is granted it. -/
def unlock (core : Core ρ) (sender : ConnectionId) (key : String) : List (Delivery ρ) × Core ρ :=
  let (outcome, table) := core.table.release sender key
  let after := { core with table }
  match outcome with
  | .notHeld => (core.refuse sender .noSuchLock, after)
  | .vacated => (core.reply sender .ok, after)
  | .promoted next => (core.reply sender .ok ++ core.reply next .ok, after)

/-- Performs a known operation. -/
def perform (core : Core ρ) (sender : ConnectionId) (target : String) (arg : Option String) :
    Operation → List (Delivery ρ) × Core ρ
  | .lock => core.lock sender target
  | .unlock => core.unlock sender target
  | .get => (core.reply sender (.ofCounter (core.counters.value target)), core)
  | .set =>
    match core.counters.set target arg with
    | .error refusal => (core.refuse sender refusal, core)
    | .ok counters => (core.reply sender .ok, { core with counters })
  | .incr =>
    match core.counters.incr target arg with
    | .error refusal => (core.refuse sender refusal, core)
    | .ok (sum, counters) => (core.reply sender (.ofCounter sum), { core with counters })

/-- Carries out a request. -/
def request (core : Core ρ) (sender : ConnectionId) (r : Request) : List (Delivery ρ) × Core ρ :=
  match Operation.parse? r.op with
  | none => (core.refuse sender .unknownOperation, core)
  | some op => core.perform sender r.target r.arg op

/-- Carries out a command. -/
def execute (core : Core ρ) (sender : ConnectionId) : Command ρ → List (Delivery ρ) × Core ρ
  | .opening replier => core.opening sender replier
  | .closing => core.closing sender
  | .request r => core.request sender r
  | .malformed => (core.refuse sender .malformed, core)

/-- Handles an envelope: the messages it causes, in the order in which they are delivered, and the
core afterwards. -/
def handle (core : Core ρ) (envelope : Envelope ρ) : List (Delivery ρ) × Core ρ :=
  let (sent, after) := core.execute envelope.sender envelope.command
  (sent, { after with processed := after.processed + 1 })

/-- Handles envelopes one after the other: the messages caused by all of them and the core
afterwards. -/
def handleAll : List (Envelope ρ) → Core ρ → List (Delivery ρ) × Core ρ
  | [], core => ([], core)
  | envelope :: rest, core =>
    let (sent, after) := core.handle envelope
    let (more, last) := handleAll rest after
    (sent ++ more, last)

end Core

end LockService
