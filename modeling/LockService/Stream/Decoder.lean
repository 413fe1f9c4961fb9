import LockService.Record.Basic
import LockService.Text.Blank

/-!
# Reading records from a stream

A stream carries one record to a line.  It arrives in pieces of any size, so what is kept between
two pieces is the beginning of a line (`Partial`), and `Decoder.next` goes on from there: it reads
to the first record, or to the end of the piece.

A line ends behind its line feed, at the end of the stream, or when it has grown to one byte more
than the longest line allowed.  In the last case what follows is a new line: a record that is too
long spoils as many bytes as were read of it and no more.  A line may fail in three ways, judged
in this order: its bytes are not text, it is too long, it is not a record.  A line of white space
is skipped.
-/

namespace LockService

/-- The most bytes that a line may have, its line feed included. -/
def maxLineBytes : Nat := 65536

/-- Why a line is no record. -/
inductive DecodeError
  | notText
  | tooLong
  | notRecord
deriving DecidableEq, Repr

namespace DecodeError

/-- What is said about a line that is too long.  The other failures are described by whatever
found them. -/
def message? : DecodeError → Option String
  | .tooLong => some s!"record longer than {maxLineBytes} bytes"
  | .notText | .notRecord => none

end DecodeError

/-- The beginning of a line: its bytes, latest first, and how many they are. -/
structure Partial where
  bytes : List UInt8 := []
  size : Nat := 0
  size_eq : size = bytes.length := by rfl
deriving DecidableEq, Repr

namespace Partial

/-- A line with nothing read of it yet. -/
def empty : Partial := {}

/-- One more byte of the line. -/
def push (p : Partial) (byte : UInt8) : Partial :=
  ⟨byte :: p.bytes, p.size + 1, by rw [p.size_eq, List.length_cons]⟩

/-- The bytes of the line in the order in which they came. -/
def toList (p : Partial) : List UInt8 :=
  p.bytes.reverse

/-- Whether one more byte would complete the line. -/
def endsWith (p : Partial) (byte : UInt8) : Bool :=
  byte = 0x0A ∨ maxLineBytes ≤ p.size

end Partial

/-- What the next bytes of a stream give: a line that is still unfinished, or the result of a line
and the bytes behind it. -/
inductive Decoded (α : Type)
  | unfinished (line : Partial)
  | result (record : Except DecodeError α) (rest : List UInt8)
deriving Repr

namespace Decoder

variable {α : Type} [Record α]

/-- What a complete line gives: nothing if it is white space, else a record or the reason why it
is none. -/
def line? (bytes : List UInt8) : Option (Except DecodeError α) :=
  match Utf8.decode? bytes with
  | none => some (.error .notText)
  | some text =>
    if maxLineBytes < bytes.length then some (.error .tooLong)
    else if text.toList.all Text.isBlank then none
    else
      match (Json.Value.parse? text).bind Record.ofJson? with
      | some record => some (.ok record)
      | none => some (.error .notRecord)

/-- Reads on from the beginning of a line, up to the first line that is not white space. -/
def next : Partial → List UInt8 → Decoded α
  | line, [] => .unfinished line
  | line, byte :: rest =>
    if line.endsWith byte then
      match line? (line.push byte).toList with
      | some record => .result record rest
      | none => next .empty rest
    else next (line.push byte) rest

/-- What the beginning of a line gives when the stream ends with it. -/
def atEnd (line : Partial) : Option (Except DecodeError α) :=
  if line.bytes.isEmpty then none else line? line.toList

/-- Everything that a stream gives which goes on from the beginning of a line and then ends. -/
def allFrom : Partial → List UInt8 → List (Except DecodeError α)
  | line, [] => (atEnd line).toList
  | line, byte :: rest =>
    if line.endsWith byte then
      match line? (line.push byte).toList with
      | some record => record :: allFrom .empty rest
      | none => allFrom .empty rest
    else allFrom (line.push byte) rest

/-- Everything that a stream gives. -/
def all (bytes : List UInt8) : List (Except DecodeError α) :=
  allFrom .empty bytes

end Decoder

end LockService
