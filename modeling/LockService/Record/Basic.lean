import LockService.Record.Reply
import LockService.Record.Request
import LockService.Text.Utf8

/-!
# Records

Requests and replies travel in the same way, one JSON value to a line.  `Record` is what the two
have in common: how a value is understood and how it is written.
-/

namespace LockService

/-- What can be sent as a record. -/
class Record (α : Type) where
  ofJson? : Json.Value → Option α
  json : α → String

instance : Record Request := ⟨Request.ofJson?, Request.json⟩

instance : Record Reply := ⟨Reply.ofJson?, Reply.json⟩

/-- A record as it is sent: its JSON text and a line feed. -/
def Record.line {α : Type} [Record α] (record : α) : String :=
  Record.json record ++ "\n"

/-- The bytes of a record as it is sent. -/
def Record.bytes {α : Type} [Record α] (record : α) : List UInt8 :=
  Utf8.encode (Record.line record)

end LockService
