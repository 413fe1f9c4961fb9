/-!
# Pipes

One direction of a byte stream between two parties.  A pipe holds a bounded number of bytes that
were written and not yet read.  The writer may close it, after which the reader finds its end
behind the last byte; the reader may abandon it, after which writing fails.
-/

namespace LockService

/-- The bytes under way in one direction of a stream, how many more there is room for, and what has
become of its two ends. -/
structure Pipe where
  room : Nat
  bytes : List UInt8 := []
  closed : Bool := false
  abandoned : Bool := false
deriving DecidableEq, Repr, Inhabited

namespace Pipe

/-- Whether some positive number of bytes can be written now. -/
def takes (p : Pipe) (count : Nat) : Bool :=
  0 < count ∧ count ≤ p.room ∧ ¬p.abandoned

/-- Writes bytes behind those under way. -/
def write (p : Pipe) (bytes : List UInt8) : Pipe :=
  { p with room := p.room - bytes.length, bytes := p.bytes ++ bytes }

/-- The bytes at the front, at most some number of them. -/
def front (p : Pipe) (count : Nat) : List UInt8 :=
  p.bytes.take count

/-- Reads some number of bytes off the front. -/
def read (p : Pipe) (count : Nat) : Pipe :=
  { p with room := p.room + (p.front count).length, bytes := p.bytes.drop count }

/-- Whether some positive number of bytes can be read now. -/
def gives (p : Pipe) (count : Nat) : Bool :=
  0 < count ∧ (p.front count).length = count

/-- Whether the reader has come to the end of the stream. -/
def isAtEnd (p : Pipe) : Bool :=
  p.closed && p.bytes.isEmpty

/-- The pipe after its writer has left. -/
def close (p : Pipe) : Pipe :=
  { p with closed := true }

/-- The pipe after its reader has left. -/
def abandon (p : Pipe) : Pipe :=
  { p with abandoned := true }

theorem front_append_bytes_read (p : Pipe) (count : Nat) :
    p.front count ++ (p.read count).bytes = p.bytes :=
  List.take_append_drop count p.bytes

theorem room_add_length_read (p : Pipe) (count : Nat) :
    (p.read count).room + (p.read count).bytes.length = p.room + p.bytes.length := by
  simp only [read, front, List.length_take, List.length_drop]
  omega

theorem room_add_length_write {p : Pipe} {bytes : List UInt8} (h : bytes.length ≤ p.room) :
    (p.write bytes).room + (p.write bytes).bytes.length = p.room + p.bytes.length := by
  simp only [write, List.length_append]
  omega

end Pipe

end LockService
