import LockService.Record.Request
import LockService.Text.Blank

/-!
# Typed lines

A user types one command to a line: an operation, its key and, for the operations that take one, a
number.  Words are separated by any white space; the operation may be in either case; a line
without words asks for nothing, and `/quit` leaves, whatever else the line says.

Nothing is judged about keys and numbers except that they are there: whether a number is one is
for the service to say.
-/

namespace LockService.Terminal

/-- What a typed line asks for. -/
inductive Input
  | send (request : Request)
  | quit
  | empty
deriving DecidableEq, Repr

/-- Why a typed line asks for nothing that is known. -/
inductive InputError
  | unknownCommand (word : String)
  | missingKey (op : Operation)
  | missingNumber (op : Operation)
  | tooManyArguments
deriving DecidableEq, Repr

/-- What the user is told about such a line. -/
def InputError.message : InputError → String
  | .unknownCommand word => "unknown command '" ++ word ++ "'"
  | .missingKey op => "'" ++ op.name ++ "' needs a key"
  | .missingNumber op => "'" ++ op.name ++ "' needs a number"
  | .tooManyArguments => "too many arguments"

/-- The usage that is shown behind an error. -/
def usage : String :=
  "usage: lock K | unlock K | get K | set K N | incr K N | /quit"

/-- A word with its ASCII letters in lower case. -/
def lowerCase (word : String) : String :=
  String.ofList (word.toList.map Char.toLower)

/-- What the words behind an operation make of it. -/
def ofArguments (op : Operation) : List String → Except InputError Input
  | [] => .error (.missingKey op)
  | [key] =>
    if op.takesNumber then .error (.missingNumber op) else .ok (.send (.ofOperation op key none))
  | [key, number] =>
    if op.takesNumber then .ok (.send (.ofOperation op key (some number)))
    else .error .tooManyArguments
  | _ => .error .tooManyArguments

/-- What the words of a line ask for. -/
def ofWords : List String → Except InputError Input
  | [] => .ok .empty
  | word :: arguments =>
    if lowerCase word = "/quit" then .ok .quit
    else
      match Operation.parse? (lowerCase word) with
      | none => .error (.unknownCommand word)
      | some op => ofArguments op arguments

/-- What a line asks for. -/
def parse (line : String) : Except InputError Input :=
  ofWords (Text.words line)

end LockService.Terminal
