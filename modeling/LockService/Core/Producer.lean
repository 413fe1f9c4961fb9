import LockService.Core.Task
import LockService.Turn

/-!
# Producers

A producer of envelopes that shares one processor with the core.  In its turn it puts as many
envelopes into the inbox as it may and as find a place; then the core has a turn, handles all of
them, and the producer begins anew.

A turn of the core never ends early: there are no more envelopes in the inbox than the producer
could put there in one turn.
-/

namespace LockService

/-- The core at work, and how many more envelopes its producer may pass on in this turn. -/
structure Producer (ρ : Type) where
  task : CoreTask ρ
  allowance : Nat := turnLimit

namespace Producer

variable {ρ : Type}

/-- The core has a turn.  Answers with the messages that it delivers. -/
def yield (p : Producer ρ) : List (Delivery ρ) × Producer ρ :=
  let (sent, task) := p.task.run
  (sent, { task })

/-- Whether the core must have a turn before a further envelope is passed on. -/
def mustYield (p : Producer ρ) : Bool :=
  p.allowance = 0 || p.task.inbox.isFull

/-- Passes an envelope on, after a turn of the core if there must be one.  Answers with the messages
delivered meanwhile, whether the envelope was accepted, and the producer afterwards. -/
def submit (p : Producer ρ) (envelope : Envelope ρ) : List (Delivery ρ) × Bool × Producer ρ :=
  let (sent, p) := if p.mustYield then p.yield else ([], p)
  match p.task.enqueue envelope with
  | .accepted task => (sent, true, { task, allowance := p.allowance - 1 })
  | .stopped | .full => (sent, false, { p with allowance := p.allowance - 1 })

end Producer

end LockService
