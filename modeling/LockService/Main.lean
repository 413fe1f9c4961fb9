import LockService.Program
import Std.Async.TCP
import Std.Sync.Mutex

/-!
# The program at work

Sockets, threads and the terminal.  Everything that is decided is decided elsewhere; this module
only carries bytes between the operating system and a `Server`, a `Terminal.Session` or a
`LoadClient`.
-/

namespace LockService.Main

open Std.Async (TCP.Socket.Client TCP.Socket.Server)
open Terminal (Session SessionMove)

/-! ## Errors and addresses -/

/-- The number of an error of the operating system, and its words. -/
def codeAndWords : IO.Error → Option (UInt32 × String)
  | .otherError code words | .resourceBusy code words | .resourceVanished code words
  | .unsupportedOperation code words | .hardwareFault code words
  | .unsatisfiedConstraints code words | .illegalOperation code words
  | .protocolError code words | .timeExpired code words => some (code, words)
  | .interrupted _ code words | .noFileOrDirectory _ code words => some (code, words)
  | .alreadyExists _ code words | .invalidArgument _ code words
  | .permissionDenied _ code words | .resourceExhausted _ code words
  | .inappropriateType _ code words | .noSuchThing _ code words => some (code, words)
  | .unexpectedEof | .userError _ => none

/-- What is said about an error of the operating system.  Numbers of errors are negative. -/
def cause (error : IO.Error) : String :=
  match codeAndWords error with
  | none => toString error
  | some (code, words) => ((Net.Fault.ofCode? (0 - code).toNat).map (·.message)).getD words

/-- An address as the operating system takes it. -/
def toSystem : Net.SocketAddress → Std.Net.SocketAddress
  | .v4 ip port => .v4 ⟨.ofParts ip.a ip.b ip.c ip.d, port⟩
  | .v6 ip _ port => .v6 ⟨⟨⟨ip.parts.toArray, by simp [ip.length_eq]⟩⟩, port⟩

/-- Runs an action in a thread of its own. -/
def spawn {α : Type} (action : IO α) : IO (Task (Except IO.Error α)) :=
  IO.asTask action Task.Priority.dedicated

/-- State that several threads share, and a way to wait for it to change. -/
structure Shared (α : Type) where
  state : Std.Mutex α
  changed : Std.Condvar

namespace Shared

variable {α β : Type}

/-- Begins to share some state. -/
def new (state : α) : IO (Shared α) :=
  return ⟨← Std.Mutex.new state, ← Std.Condvar.new⟩

/-- Changes the state. -/
def update (shared : Shared α) (change : α → IO (β × α)) : IO β := do
  let result ← shared.state.atomically do
    let (result, state) ← change (← get)
    set state
    return result
  shared.changed.notifyAll
  return result

/-- Waits until something can be taken out of the state, and takes it. -/
def await (shared : Shared α) (take? : α → Option (β × α)) : IO (Option β) :=
  shared.state.atomicallyOnce shared.changed
    (return (take? (← get)).isSome)
    (do
      match take? (← get) with
      | none => return none
      | some (result, state) =>
        set state
        return some result)

end Shared

/-! ## Serving -/

/-- The bytes that a connection holds in each direction between the sockets and the service. -/
def streamBuffer : Nat := 65536

/-- Changes a server and lets everybody move. -/
def advance (server : Shared Server) (change : Server → Server) : IO Unit :=
  server.update fun s => return ((), (change s).settle)

/-- Carries what comes in on a socket to its connection. -/
partial def carryIn (server : Shared Server) (socket : TCP.Socket.Client) (position : Nat) :
    IO Unit := do
  discard (server.await fun s => if s.hasTaken position then some ((), s) else none)
  match ← (socket.recv? 8192).block.toBaseIO with
  | .error _ => advance server (·.lose position)
  | .ok none => advance server (·.arriveEnd position)
  | .ok (some bytes) =>
    advance server (·.arrive position bytes.data.toList)
    carryIn server socket position

/-- Carries what a connection has to send to its socket. -/
partial def carryOut (server : Shared Server) (socket : TCP.Socket.Client) (position : Nat) :
    IO Unit := do
  match ← server.await (·.collect? position) with
  | none | some [] => socket.shutdown.block
  | some bytes =>
    match ← (socket.send ⟨bytes.toArray⟩).block.toBaseIO with
    | .error _ => advance server (·.lose position)
    | .ok () =>
      advance server (·.sentOut position)
      carryOut server socket position

/-- Accepts a connection of a server: its position, if there can be one. -/
def accept (s : Server) : Option Nat × Server :=
  match s.accept? streamBuffer with
  | none => (none, s)
  | some after => (some s.scenario.nextPosition, after.settle)

/-- Accepts connections as long as that is possible. -/
partial def acceptAll (server : Shared Server) (listener : TCP.Socket.Server) : IO Exit := do
  match ← listener.accept.block.toBaseIO with
  | .error _ => acceptAll server listener
  | .ok socket =>
    discard socket.noDelay.toBaseIO
    match ← server.update fun s => return accept s with
    | none => return .abort
    | some position =>
      discard (spawn (carryIn server socket position))
      discard (spawn (carryOut server socket position))
      acceptAll server listener

/-- Runs a server. -/
def serve (config : Config) : IO Exit := do
  let listener ← TCP.Socket.Server.mk
  let listening ← (listener.bind (toSystem config.listen) *> listener.listen 1024).toBaseIO
  match listening with
  | .error error => return .ofFailure (.ofListen config.listen (cause error))
  | .ok () =>
    match Server.make? config with
    | none => return .abort
    | some server => acceptAll (← Shared.new server) listener

/-! ## A session -/

/-- Gives the user and the service what a session has for them. -/
def handOver (socket : TCP.Socket.Client) (s : Session) : IO Session := do
  for request in s.sent do
    (socket.send ⟨(Record.bytes request).toArray⟩).block
  for line in s.shown do
    IO.println line
  for line in s.complaints do
    IO.eprintln line
  (← IO.getStdout).flush
  return { s with sent := [], shown := [], complaints := [] }

/-- Makes a move again and again, as long as the session can make it. -/
partial def repeatMove (socket : TCP.Socket.Client) (move : SessionMove) (s : Session) :
    IO Session := do
  match s.step? move with
  | none => return s
  | some s => repeatMove socket move (← handOver socket s)

/-- Lets a session go on after something has happened. -/
def follow (session : Shared Session) (socket : TCP.Socket.Client) (event move : SessionMove) :
    IO Unit :=
  session.update fun s => do
    return ((), ← repeatMove socket move ((s.step? event).getD s))

/-- Carries what the service sends to a session. -/
partial def carryReplies (session : Shared Session) (socket : TCP.Socket.Client) : IO Unit := do
  match ← (socket.recv? 8192).block.toBaseIO with
  | .error _ | .ok none => follow session socket .arriveEnd .hear
  | .ok (some bytes) =>
    follow session socket (.arrive bytes.data.toList) .hear
    carryReplies session socket

/-- What was typed and not handed to a session yet, latest first, and whether no more will come. -/
structure Typing where
  bytes : List UInt8 := []
  ended : Bool := false

/-- The next piece of what is typed: the lines that are complete, or else all there is of one once
nothing has come since there were `before` bytes of it.  Answers with the number of bytes instead if
some have come, and not at all if nothing was typed. -/
def Typing.nextPiece? (t : Typing) (before : Nat) : Option ((Nat ⊕ List UInt8) × Typing) :=
  match t.bytes.span (· ≠ 0x0A) with
  | (begun, lines@(_ :: _)) => some (.inr lines.reverse, { t with bytes := begun })
  | (begun, []) =>
    if t.ended ∨ 0 < before ∧ begun.length = before then
      some (.inr begun.reverse, { t with bytes := [] })
    else if begun.isEmpty then none
    else some (.inl begun.length, t)

/-- Gathers what is typed.  The terminal does not tell how much there is, so that is read a byte at a
time. -/
partial def gather (typing : Shared Typing) (input : IO.FS.Stream) : IO Unit := do
  let bytes := (← input.read 1).data.toList
  typing.update fun t => return ((), { bytes := bytes ++ t.bytes, ended := bytes.isEmpty })
  unless bytes.isEmpty do
    gather typing input

/-- The milliseconds after which a line is taken to be typed in several pieces. -/
def hesitation : UInt32 := 5

/-- Carries what the user types to a session, piece by piece. -/
partial def carryTyped (session : Shared Session) (socket : TCP.Socket.Client)
    (typing : Shared Typing) (before : Nat) : IO Unit := do
  match ← typing.await (·.nextPiece? before) with
  | none | some (.inr []) => follow session socket .typeEnd .heed
  | some (.inr bytes) =>
    follow session socket (.type bytes) .heed
    carryTyped session socket typing 0
  | some (.inl count) =>
    IO.sleep hesitation
    carryTyped session socket typing count

/-- Connects to an address. -/
def connect (address : Net.SocketAddress) : IO (Except Failure TCP.Socket.Client) := do
  let socket ← TCP.Socket.Client.mk
  match ← (socket.connect (toSystem address)).block.toBaseIO with
  | .error error => return .error (.ofConnect address (cause error))
  | .ok () => return .ok socket

/-- Holds a session with a server.  The service answers the end of what it is sent by closing the
connection, which ends the thread that reads replies. -/
def converse (address : Net.SocketAddress) : IO Exit := do
  match ← connect address with
  | .error failure => return .ofFailure failure
  | .ok socket =>
    let session ← Shared.new ({} : Session)
    let typing ← Shared.new ({} : Typing)
    let replies ← spawn (carryReplies session socket)
    discard (spawn (do gather typing (← IO.getStdin)))
    discard (spawn (carryTyped session socket typing 0))
    let ending ← session.await fun s => s.ending.map (·, s)
    discard socket.shutdown.block.toBaseIO
    discard (IO.wait replies)
    return (ending.map Exit.ofSession).getD .success

/-! ## A measurement -/

/-- The next move of a connection that waits for no reply. -/
def nextMove? (c : LoadClient) : Option LoadMove :=
  match c.phase with
  | .planning => some .plan
  | .writing written => some (if c.takesPair written then .write else .await)
  | .awaiting 0 => some .hear
  | .awaiting _ | .ended _ => none

/-- Moves a connection on until it needs a reply or is done, and gathers what it writes. -/
partial def writeOn (c : LoadClient) (bytes : List UInt8) : LoadClient × List UInt8 :=
  match (nextMove? c).bind c.step? with
  | none => (c, bytes)
  | some (requests, c) => writeOn c (bytes ++ requests.flatMap Record.bytes)

/-- Reads up to the next reply, if one comes. -/
partial def readReply (socket : TCP.Socket.Client) (line : Partial) (unread : List UInt8) :
    IO (Option (Except DecodeError Reply) × List UInt8) := do
  match Decoder.next line unread with
  | .result record rest => return (some record, rest)
  | .unfinished line =>
    match ← (socket.recv? 8192).block with
    | some bytes => readReply socket line bytes.data.toList
    | none => return (Decoder.atEnd line, [])

/-- Runs a connection of a measurement to its end. -/
partial def measureOn (socket : TCP.Socket.Client) (c : LoadClient) (unread : List UInt8) :
    IO LoadOutcome := do
  let (c, bytes) := writeOn c []
  unless bytes.isEmpty do
    (socket.send ⟨bytes.toArray⟩).block
  match c.phase with
  | .ended outcome =>
    socket.shutdown.block
    return outcome
  | _ =>
    let (record, unread) ← readReply socket .empty unread
    let move : LoadMove :=
      match record with
      | some (.ok _) => .hear
      | some (.error _) => .fail
      | none => .hearEnd
    measureOn socket (((c.step? move).map (·.2)).getD c) unread

/-- One connection of a measurement. -/
def measureOne (args : CommandLine.BenchArgs) (position : Nat) : IO LoadOutcome := do
  match ← connect args.target with
  | .error _ => return .failed
  | .ok socket =>
    let client := LoadClient.start args.workload position args.iterations args.pipeline
    match ← (measureOn socket client []).toBaseIO with
    | .error _ => return .failed
    | .ok outcome => return outcome

/-- Measures a server. -/
def measure (args : CommandLine.BenchArgs) : IO Exit := do
  let started ← IO.monoNanosNow
  let tasks ← (List.range args.connections.toNat).mapM fun position =>
    spawn (measureOne args position)
  let outcomes ← tasks.mapM fun task => do
    match ← IO.wait task with
    | .ok outcome => return outcome
    | .error _ => return .failed
  let nanos := (← IO.monoNanosNow) - started
  let elapsed : Elapsed := ⟨(nanos / 1000000000).toUInt64, (nanos % 1000000000).toUInt32⟩
  for line in (LoadReport.ofOutcomes outcomes).summary elapsed do
    IO.println line
  return .success

/-- Does what there is to do. -/
def perform : Job → IO Exit
  | .serve config => serve config
  | .client address => converse address
  | .bench args => measure args

end LockService.Main

/-- The program: what it ends with is its exit code, and a failure is reported. -/
def main (args : List String) : IO UInt32 := do
  let exit ← match LockService.Program.prepare args with
    | .error exit => pure exit
    | .ok job => LockService.Main.perform job
  for line in exit.notice do
    if exit.code = 0 then IO.println line else IO.eprintln line
  if let some failure := exit.failure then
    IO.eprint failure.report
  return exit.code.toUInt32
