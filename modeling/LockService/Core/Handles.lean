import LockService.Core.Task

/-!
# Handles on a core

A core at work and everybody who can reach it.  A handle is used for one envelope at a time: a call of
`enqueue` ends at once, or it waits until the inbox has a place, the core has stopped, or whoever made
the call gives it up.  Handles are cloned and dropped at any time.

`SharedCore.step?` cuts what happens into moves, and a run is any sequence of moves
(`SharedCore.run?`): nothing is said here about who moves when, nor which of the calls that wait gets
the next place.  What the core does with one envelope is one move.  The holders of handles share nothing
with it but the inbox, so whatever they do in the meantime might as well be done after it.  A core that
is stopped while it is busy may handle a few more envelopes before it notices: a stop stands where it is
noticed.

From outside two things can be seen, messages that are delivered and calls that end
(`SharedCore.Event`).
-/

namespace LockService

/-- A handle on a core: whether somebody still has it, and the envelope whose call waits for a place. -/
structure Handle (ρ : Type) where
  held : Bool := true
  waiting : Option (Envelope ρ) := none
deriving DecidableEq, Repr, Inhabited

/-- How a call of `enqueue` ends: the inbox has the envelope, the core has stopped, or whoever made the
call did not wait any longer. -/
inductive CallEnd
  | accepted
  | stopped
  | abandoned
deriving DecidableEq, Repr

/-- A core at work and all handles that there ever were on it. -/
structure SharedCore (ρ : Type) where
  task : CoreTask ρ
  handles : List (Handle ρ) := [{}]

namespace SharedCore

variable {ρ : Type}

/-- Something that can be seen from outside: a message is delivered, or a call on the handle at a
position ends. -/
inductive Event (ρ : Type)
  | delivered (delivery : Delivery ρ)
  | ended (position : Nat) (envelope : Envelope ρ) (how : CallEnd)
deriving DecidableEq, Repr

/-- A move of a core or of the holder of a handle.

* `work` — the core does what it does next.
* `enqueue` — a call begins.
* `retry` — a call that waits tries again.
* `abandon` — a call that waits is given up.
* `clone`, `drop` — there is one more handle, or one less.
* `stop` — the core is told to stop. -/
inductive Move (ρ : Type)
  | work
  | enqueue (position : Nat) (envelope : Envelope ρ)
  | retry (position : Nat)
  | abandon (position : Nat)
  | clone (position : Nat)
  | drop (position : Nat)
  | stop
deriving DecidableEq, Repr

/-- A fresh core with one handle on it, and some number of places in its inbox. -/
def fresh (capacity : Nat) : SharedCore ρ :=
  { task := { inbox := { capacity } } }

/-- A fresh core with one handle on it and some number of places in its inbox, if there can be such an
inbox. -/
def start? (capacity : Nat) : Option (SharedCore ρ) :=
  (CoreTask.start? capacity).map fun task => { task }

/-- The envelope that waits on a handle, if one does. -/
def waitingOn (s : SharedCore ρ) (position : Nat) : Option (Envelope ρ) :=
  s.handles[position]?.bind (·.waiting)

/-- The core with a handle replaced. -/
def setHandle (s : SharedCore ρ) (position : Nat) (handle : Handle ρ) : SharedCore ρ :=
  { s with handles := s.handles.set position handle }

/-- Puts an envelope into the inbox for the holder of a handle, or lets the call wait. -/
def offer (s : SharedCore ρ) (position : Nat) (envelope : Envelope ρ) :
    List (Event ρ) × SharedCore ρ :=
  match s.task.enqueue envelope with
  | .accepted task => ([.ended position envelope .accepted], { s.setHandle position {} with task })
  | .stopped => ([.ended position envelope .stopped], s.setHandle position {})
  | .full => ([], s.setHandle position { waiting := some envelope })

/-- What can be seen of a move and the core after it, if the move can be made. -/
def step? (s : SharedCore ρ) : Move ρ → Option (List (Event ρ) × SharedCore ρ)
  | .work => s.task.step?.map fun (sent, task) => (sent.map .delivered, { s with task })
  | .enqueue position envelope =>
    match s.handles[position]? with
    | some ⟨true, none⟩ => some (s.offer position envelope)
    | _ => none
  | .retry position =>
    match s.handles[position]? with
    | some ⟨true, some envelope⟩ => some (s.offer position envelope)
    | _ => none
  | .abandon position =>
    match s.handles[position]? with
    | some ⟨true, some envelope⟩ =>
      some ([.ended position envelope .abandoned], s.setHandle position {})
    | _ => none
  | .clone position =>
    match s.handles[position]? with
    | some ⟨true, _⟩ =>
      some ([], { task := s.task.cloneHandle, handles := s.handles ++ [{}] })
    | _ => none
  | .drop position =>
    match s.handles[position]? with
    | some ⟨true, waiting⟩ =>
      some (waiting.toList.map (.ended position · .abandoned),
        { s.setHandle position { held := false } with task := s.task.dropHandle })
    | _ => none
  | .stop => some ([], { s with task := s.task.stop })

/-- What can be seen of moves one after the other and the core after them, if all can be made. -/
def run? : List (Move ρ) → SharedCore ρ → Option (List (Event ρ) × SharedCore ρ)
  | [], s => some ([], s)
  | move :: rest, s =>
    match s.step? move with
    | none => none
    | some (now, next) => (run? rest next).map fun (later, last) => (now ++ later, last)

/-! ## What can be seen -/

/-- The messages that are delivered. -/
def delivered (events : List (Event ρ)) : List (Delivery ρ) :=
  events.filterMap fun
    | .delivered delivery => some delivery
    | .ended _ _ _ => none

/-- The calls that end, each with the position of its handle. -/
def calls (events : List (Event ρ)) : List (Nat × Envelope ρ × CallEnd) :=
  events.filterMap fun
    | .delivered _ => none
    | .ended position envelope how => some (position, envelope, how)

/-- The calls on one handle that end: the envelope of each and how it ends. -/
def callsOn (position : Nat) (events : List (Event ρ)) : List (Envelope ρ × CallEnd) :=
  ((calls events).filter (·.1 = position)).map (·.2)

/-- The envelopes that are accepted, in the order in which they are, each with the position of the
handle. -/
def accepted (events : List (Event ρ)) : List (Nat × Envelope ρ) :=
  ((calls events).filter (·.2.2 = .accepted)).map fun call => (call.1, call.2.1)

/-- The envelopes that some moves begin to enqueue on one handle. -/
def called (position : Nat) (moves : List (Move ρ)) : List (Envelope ρ) :=
  moves.filterMap fun
    | .enqueue other envelope => if other = position then some envelope else none
    | .work | .retry _ | .abandon _ | .clone _ | .drop _ | .stop => none

end SharedCore

end LockService
