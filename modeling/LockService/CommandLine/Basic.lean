import LockService.CommandLine.Settings
import LockService.Config
import LockService.Load.Workload

/-!
# The command line

The program is called with one of three commands: `serve` runs a service, `client` talks to one
from a terminal, `bench` measures one.  `CommandLine.parse` reads the arguments into a `Command`,
or says why it stops.
-/

namespace LockService

open Net (SocketAddress)

namespace CommandLine

/-! ## What can be asked for -/

/-- The arguments of `serve`. -/
structure ServeArgs where
  listen : SocketAddress := .standard
  replyWindow : UInt64 := 16
  replyCapacity : Option UInt64 := none
  inboundCapacity : UInt64 := 2048
  statsIntervalSecs : Option UInt64 := none
deriving DecidableEq, Repr, Inhabited

/-- The configuration that the arguments of `serve` stand for.  A reply capacity that was not
given is the usual one, or as large as the other sizes need it. -/
def ServeArgs.config (args : ServeArgs) : Config where
  listen := args.listen
  inboundCapacity := args.inboundCapacity
  replyWindow := args.replyWindow
  replyCapacity :=
    args.replyCapacity.getD (max 4096 (minReplyCapacity args.replyWindow args.inboundCapacity))
  statsInterval := args.statsIntervalSecs.map (·.toNat * 1000000000)

/-- The arguments of `bench`. -/
structure BenchArgs where
  target : SocketAddress := .standard
  connections : UInt64 := 50
  iterations : UInt64 := 10000
  pipeline : UInt32 := 1
  workload : Workload := .lock
deriving DecidableEq, Repr, Inhabited

/-- A command. -/
inductive Command
  | serve (args : ServeArgs)
  | client (server : SocketAddress)
  | bench (args : BenchArgs)
deriving DecidableEq, Repr, Inhabited

/-! ## Values -/

/-- Reads a socket address. -/
def address (value : String) : Except Stop SocketAddress :=
  match SocketAddress.parse? value with
  | some address => .ok address
  | none => .error .invalidValue

/-- Reads a 64-bit size: decimal digits behind at most one plus sign. -/
def size (value : String) : Except Stop UInt64 :=
  match Decimal.unsigned? value.toList with
  | some n => if n < UInt64.size then .ok (UInt64.ofNat n) else .error .invalidValue
  | none => .error .invalidValue

/-- Reads the depth of a pipeline: a positive 32-bit number, behind at most one sign. -/
def depth (value : String) : Except Stop UInt32 :=
  match Decimal.signed? value.toList with
  | some n =>
    if 1 ≤ n ∧ n < UInt32.size then .ok (UInt32.ofNat n.toNat) else .error .invalidValue
  | none => .error .invalidValue

/-- Reads the name of a workload. -/
def workload (value : String) : Except Stop Workload :=
  if value = "lock" then .ok .lock
  else if value = "counter" then .ok .counter
  else .error .unknownWord

/-! ## Settings -/

/-- The settings of `serve`. -/
def serveSettings : List (Setting ServeArgs) :=
  [⟨"listen", some 's', fun v args => (address v).map fun listen => { args with listen }⟩,
    ⟨"reply-window", none, fun v args => (size v).map fun n => { args with replyWindow := n }⟩,
    ⟨"reply-capacity", none,
      fun v args => (size v).map fun n => { args with replyCapacity := some n }⟩,
    ⟨"inbound-capacity", none,
      fun v args => (size v).map fun n => { args with inboundCapacity := n }⟩,
    ⟨"stats-interval-secs", none,
      fun v args => (size v).map fun n => { args with statsIntervalSecs := some n }⟩]

/-- The settings of `client`. -/
def clientSettings : List (Setting SocketAddress) :=
  [⟨"server", none, fun v _ => address v⟩]

/-- The settings of `bench`. -/
def benchSettings : List (Setting BenchArgs) :=
  [⟨"target", some 't', fun v args => (address v).map fun target => { args with target }⟩,
    ⟨"connections", some 'c',
      fun v args => (size v).map fun n => { args with connections := n }⟩,
    ⟨"iterations", some 'n', fun v args => (size v).map fun n => { args with iterations := n }⟩,
    ⟨"pipeline", some 'p', fun v args => (depth v).map fun n => { args with pipeline := n }⟩,
    ⟨"workload", none, fun v args => (workload v).map fun workload => { args with workload }⟩]

/-! ## Commands -/

/-- The names that may stand first: the commands, and `help` for reading about them. -/
def commandNames : List String :=
  ["serve", "client", "bench", "help"]

/-- Reads what follows `help`: at most the name of one command. -/
def helpTopic : List String → Stop
  | [] => .help
  | [name] => if name ∈ commandNames then .help else .unknownCommand
  | _ => .unknownCommand

/-- What an argument stops at that stands where a command should.  Only help and the version can
be asked for without a command. -/
def stray (arg : String) : Stop :=
  match arg.toList with
  | '-' :: '-' :: body =>
    let name := String.ofList (body.takeWhile (· ≠ '='))
    if name = "help" ∨ name = "version" then
      if '=' ∈ body then .unwantedValue else if name = "help" then .help else .version
    else .unknownArgument
  | '-' :: letter :: _ =>
    if letter = 'h' then .help else if letter = 'V' then .version else .unknownArgument
  | _ => .unknownCommand

/-- Reads the arguments of the program. -/
def parse : List String → Except Stop Command
  | [] => .error .noCommand
  | "serve" :: args => (readSettings serveSettings {} args).map .serve
  | "client" :: args => (readSettings clientSettings .standard args).map .client
  | "bench" :: args => (readSettings benchSettings {} args).map .bench
  | "help" :: args => .error (helpTopic args)
  | ["--"] => .error .noCommand
  | "--" :: arg :: _ =>
    .error (if arg ∈ commandNames then .unknownArgument else .unknownCommand)
  | arg :: _ => .error (stray arg)

end CommandLine

end LockService
