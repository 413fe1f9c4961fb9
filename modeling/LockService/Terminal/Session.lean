import LockService.Record.Basic
import LockService.Stream.Decoder
import LockService.Terminal.Input

/-!
# Sessions at a terminal

A user types lines, a service sends replies, and the program stands between the two.  It listens to
both at once: whichever completes first, a typed line or a reply, is acted upon, and then it
listens to both anew.

What was read so far of the *other* one is given up at that moment.  Bytes that have arrived and
were not read stay; so whether something is lost depends on how the bytes arrive.
-/

namespace LockService.Terminal

/-- Why a session ended: the user left, the service closed the connection, there is no more input,
a reply could not be read, or a typed line is not text. -/
inductive SessionEnd
  | quit
  | closedByService
  | endOfInput
  | badReply (error : DecodeError)
  | badInput
deriving DecidableEq, Repr

/-- What is said about a session that failed. -/
def SessionEnd.failure? : SessionEnd → Option String
  | .quit | .closedByService | .endOfInput => none
  | .badReply error => some (error.message?.getD "unreadable reply")
  | .badInput => some "unreadable input"

/-- What the user is told who leaves. -/
def farewell : String := "*** bye"

/-- What the user is told when the service closes the connection. -/
def closedNotice : String := "*** server closed the connection"

/-- What the user is told about a line that asks for nothing that is known. -/
def complaint (error : InputError) : String :=
  "!!! " ++ error.message ++ "; " ++ usage

/-- A session.  From the service, `arrived` are bytes that were not read yet, `arrivedAll` tells
whether no more will come, and `reply` is the beginning of a reply that was read; `typed`,
`typedAll` and `line` are the same for the user.  `sent`, `shown` and `complaints` are what the
service and the user were given so far. -/
structure Session where
  arrived : List UInt8 := []
  arrivedAll : Bool := false
  reply : Partial := .empty
  typed : List UInt8 := []
  typedAll : Bool := false
  line : List UInt8 := []
  sent : List Request := []
  shown : List String := []
  complaints : List String := []
  ending : Option SessionEnd := none

/-- What happens in a session: bytes arrive or are typed, either may end, and the program reads what
there is from the service (`hear`) or from the user (`heed`). -/
inductive SessionMove
  | arrive (bytes : List UInt8)
  | arriveEnd
  | type (bytes : List UInt8)
  | typeEnd
  | hear
  | heed
deriving DecidableEq, Repr

namespace Session

/-- The session after its end. -/
def finish (s : Session) (ending : SessionEnd) : Session :=
  { s with ending := some ending }

/-- Shows the user a line. -/
def display (s : Session) (text : String) : Session :=
  { s with shown := s.shown ++ [text] }

/-- Acts on a reply or on its failure.  What was read of a typed line is given up. -/
def onReply (s : Session) (rest : List UInt8) : Except DecodeError Reply → Session
  | .ok reply => { s.display reply.render with arrived := rest, reply := .empty, line := [] }
  | .error error => s.finish (.badReply error)

/-- Reads from the service: up to the first reply, or all that has arrived. -/
def hear (s : Session) : Session :=
  match Decoder.next s.reply s.arrived with
  | .result record rest => s.onReply rest record
  | .unfinished reply =>
    if s.arrivedAll then
      match Decoder.atEnd reply with
      | some record => { s with reply := .empty }.onReply [] record
      | none => (s.display closedNotice).finish .closedByService
    else { s with reply, arrived := [] }

/-- Acts on what a typed line asks for. -/
def act (s : Session) : Except InputError Input → Session
  | .ok (.send request) => { s with sent := s.sent ++ [request] }
  | .ok .quit => (s.display farewell).finish .quit
  | .ok .empty => s
  | .error error => { s with complaints := s.complaints ++ [complaint error] }

/-- Acts on a typed line.  What was read of a reply is given up. -/
def onLine (s : Session) (bytes rest : List UInt8) : Session :=
  let s := { s with typed := rest, line := [], reply := .empty }
  match Utf8.decode? bytes with
  | some text => s.act (parse text)
  | none => s.finish .badInput

/-- Reads from the user: up to the end of the first line, or all that was typed. -/
def heed (s : Session) : Session :=
  match s.typed.span (· ≠ 0x0A) with
  | (bytes, feed :: rest) => s.onLine (s.line ++ bytes ++ [feed]) rest
  | (bytes, []) =>
    let line := s.line ++ bytes
    if !s.typedAll then { s with line, typed := [] }
    else if line.isEmpty then s.finish .endOfInput
    else s.onLine line []

/-- The session after something has happened, if that can happen: nothing does behind the end of
what it belongs to, and there has to be something to read. -/
def step? (s : Session) : SessionMove → Option Session
  | .arrive bytes => if s.arrivedAll then none else some { s with arrived := s.arrived ++ bytes }
  | .arriveEnd => if s.arrivedAll then none else some { s with arrivedAll := true }
  | .type bytes => if s.typedAll then none else some { s with typed := s.typed ++ bytes }
  | .typeEnd => if s.typedAll then none else some { s with typedAll := true }
  | .hear =>
    if s.ending.isSome || (s.arrived.isEmpty && !s.arrivedAll) then none else some s.hear
  | .heed => if s.ending.isSome || (s.typed.isEmpty && !s.typedAll) then none else some s.heed

/-- The session after several things have happened. -/
def run? (s : Session) (moves : List SessionMove) : Option Session :=
  moves.foldlM step? s

end Session

end LockService.Terminal
