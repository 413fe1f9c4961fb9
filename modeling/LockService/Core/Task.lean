import LockService.Core.Basic
import LockService.Queue

/-!
# The core at work

A core runs beside whoever uses it and takes envelopes out of a bounded inbox.  Producers hold
handles on it.  An envelope that finds the inbox full waits; one that finds the core stopped is
given back.

The task ends in one of two ways.  It *finishes* when the last handle was dropped and the inbox is
empty.  It is *cancelled* when somebody asked for that, the next time that it would do something;
what is in the inbox by then is lost.

`CoreTask.step?` is everything that the task does in one go.  The operations of producers —
`enqueue`, `stop`, `dropHandle` — may stand between any two steps.
-/

namespace LockService

/-- How the task of a core ended: nobody was left who could reach it, or somebody cancelled it. -/
inductive Ending
  | finished
  | cancelled
deriving DecidableEq, Repr

/-- A core with its inbox, the number of handles on it, whether it was asked to stop, and how it
ended if it did. -/
structure CoreTask (ρ : Type) where
  inbox : Queue (Envelope ρ)
  core : Core ρ := .empty
  handles : Nat := 1
  stopping : Bool := false
  ending : Option Ending := none

/-- What comes of putting an envelope into the inbox of a core. -/
inductive Enqueued (ρ : Type)
  | accepted (task : CoreTask ρ)
  | full
  | stopped

namespace CoreTask

variable {ρ : Type}

/-- What a producer is told whose envelope finds the core stopped. -/
def stoppedMessage : String := "lock core has stopped"

/-- A fresh core with one handle on it and some number of places in its inbox, if there can be such
an inbox. -/
def start? (capacity : Nat) : Option (CoreTask ρ) :=
  (Queue.make? capacity).map fun inbox => { inbox }

/-! ## What producers do -/

/-- Puts an envelope into the inbox. -/
def enqueue (task : CoreTask ρ) (envelope : Envelope ρ) : Enqueued ρ :=
  if task.ending.isSome then .stopped
  else
    match task.inbox.push? envelope with
    | none => .full
    | some inbox => .accepted { task with inbox }

/-- One more handle. -/
def cloneHandle (task : CoreTask ρ) : CoreTask ρ :=
  { task with handles := task.handles + 1 }

/-- One handle less. -/
def dropHandle (task : CoreTask ρ) : CoreTask ρ :=
  { task with handles := task.handles - 1 }

/-- Asks the task to stop. -/
def stop (task : CoreTask ρ) : CoreTask ρ :=
  { task with stopping := true }

/-! ## What the task does -/

/-- The next thing that the task does, with the messages delivered by it; nothing while it waits
for an envelope and after it ended. -/
def step? (task : CoreTask ρ) : Option (List (Delivery ρ) × CoreTask ρ) :=
  if task.ending.isSome then none
  else if task.stopping then
    some ([], { task with ending := some .cancelled, inbox := task.inbox.clear })
  else
    match task.inbox.pop? with
    | some (envelope, inbox) =>
      let (sent, core) := task.core.handle envelope
      some (sent, { task with core, inbox })
    | none => if task.handles = 0 then some ([], { task with ending := some .finished }) else none

/-- At most some number of steps, and all messages delivered by them. -/
def runFor : Nat → CoreTask ρ → List (Delivery ρ) × CoreTask ρ
  | 0, task => ([], task)
  | steps + 1, task =>
    match task.step? with
    | none => ([], task)
    | some (sent, task) =>
      let (more, task) := runFor steps task
      (sent ++ more, task)

/-- All that the task can do for now: a step for every envelope in the inbox, and one to end. -/
def run (task : CoreTask ρ) : List (Delivery ρ) × CoreTask ρ :=
  runFor (task.inbox.size + 1) task

end CoreTask

end LockService
