/-!
# Operations

The five things that a client may ask for, by the names that requests carry.  The names are exact:
`Operation.parse?` knows no other spelling.
-/

namespace LockService

/-- What a request asks for: to get or to give up a lock, or to read, to set or to add to a
counter. -/
inductive Operation
  | lock
  | unlock
  | get
  | set
  | incr
deriving DecidableEq, Repr

namespace Operation

/-- The name that requests carry. -/
def name : Operation → String
  | .lock => "lock"
  | .unlock => "unlock"
  | .get => "get"
  | .set => "set"
  | .incr => "incr"

/-- Every operation. -/
def all : List Operation :=
  [.lock, .unlock, .get, .set, .incr]

/-- The operation with a name. -/
def parse? (name : String) : Option Operation :=
  all.find? (·.name = name)

/-- Whether the operation needs a number besides its key. -/
def takesNumber : Operation → Bool
  | .set | .incr => true
  | .lock | .unlock | .get => false

theorem parse?_name (op : Operation) : parse? op.name = some op := by
  cases op <;> decide

theorem name_of_parse? {name : String} {op : Operation} (h : parse? name = some op) :
    op.name = name := by
  simpa using List.find?_some h

end Operation

end LockService
