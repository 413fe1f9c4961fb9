import LockService.CommandLine.Notice
import LockService.Load.Report
import LockService.Net.Network
import LockService.Server
import LockService.Terminal.Session

/-!
# The program

What the program does with its arguments, short of doing it: `Program.prepare` either finds what
there is to do, or how the program ends at once.  `Program.exit?` goes one step further: it tells
how the program ends because of what the network refuses.
-/

namespace LockService

open Net (SocketAddress Network)

/-- A failure of the whole program and what caused it, if that is known. -/
structure Failure where
  message : String
  cause : Option String := none
deriving DecidableEq, Repr

namespace Failure

/-- What is written about a failure when the program ends with it. -/
def report (f : Failure) : String :=
  match f.cause with
  | none => "Error: " ++ f.message ++ "\n"
  | some cause => "Error: " ++ f.message ++ "\n\nCaused by:\n    " ++ cause ++ "\n"

/-- The configuration is refused. -/
def ofConfig (error : ConfigError) : Failure :=
  { message := error.message }

/-- No connection can be made. -/
def ofConnect (address : SocketAddress) (cause : String) : Failure :=
  { message := "failed to connect to " ++ address.text, cause := some cause }

/-- An address cannot be listened on. -/
def ofListen (address : SocketAddress) (cause : String) : Failure :=
  { message := "failed to bind " ++ address.text, cause := some cause }

end Failure

/-- How the program ends: its exit code, the failure that it reports, and what else it has to tell
the user. -/
structure Exit where
  code : Nat
  failure : Option Failure := none
  notice : List String := []
deriving DecidableEq, Repr

namespace Exit

/-- The program has done what it was asked for. -/
def success : Exit := { code := 0 }

/-- The program ends with a failure. -/
def ofFailure (failure : Failure) : Exit := { code := 1, failure := some failure }

/-- The program is stopped by its command line. -/
def ofStop (stop : CommandLine.Stop) : Exit := { code := stop.exitCode, notice := stop.notice }

/-- The program breaks off. -/
def abort : Exit := { code := 101 }

end Exit

/-- How the program ends with a session. -/
def Exit.ofSession (ending : Terminal.SessionEnd) : Exit :=
  match ending.failure? with
  | none => .success
  | some message => .ofFailure { message }

/-- What there is to do: run a server with a configuration that was checked, hold a session with
one, or measure one. -/
inductive Job
  | serve (config : Config)
  | client (address : SocketAddress)
  | bench (args : CommandLine.BenchArgs)
deriving Repr

namespace Job

/-- How a job ends on a network, if it gets no further than to listen or to connect.

* A server listens before it makes its inbox, so an address that is refused is reported even if the
  inbox would be too large.
* A session cannot be held without a connection.
* A measurement counts the connections that fail; with none to make it is done at once. -/
def exit? (network : Network) : Job → Option Exit
  | .serve config =>
    match network.listenFault? config.listen with
    | some fault => some (.ofFailure (.ofListen config.listen fault.message))
    | none => if (Server.make? config).isSome then none else some .abort
  | .client address =>
    (network.connectFault? address).map fun fault =>
      .ofFailure (.ofConnect address fault.message)
  | .bench args =>
    if args.connections = 0 ∨ (network.connectFault? args.target).isSome then some .success
    else none

end Job

namespace Program

/-- What there is to do for a command. -/
def ofCommand : CommandLine.Command → Except Exit Job
  | .serve args =>
    match args.config.check with
    | .ok () => .ok (.serve args.config)
    | .error error => .error (.ofFailure (.ofConfig error))
  | .client address => .ok (.client address)
  | .bench args => .ok (.bench args)

/-- What there is to do for the arguments of the program, or how it ends at once. -/
def prepare (args : List String) : Except Exit Job :=
  match CommandLine.parse args with
  | .error stop => .error (.ofStop stop)
  | .ok command => ofCommand command

/-- How the program ends with its arguments on a network, if it gets no further than to listen or
to connect. -/
def exit? (network : Network) (args : List String) : Option Exit :=
  match prepare args with
  | .error exit => some exit
  | .ok job => job.exit? network

/-- What a measurement shows if no connection can be made. -/
def reportOnFault (connections : UInt64) : LoadReport :=
  .ofOutcomes (List.replicate connections.toNat .failed)

end Program

end LockService
