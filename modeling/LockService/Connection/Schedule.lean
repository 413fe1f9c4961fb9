import LockService.Connection.Agenda
import LockService.Connection.Progress
import LockService.Turn

/-!
# A schedule

One of the many orders in which a scenario may go on, the one of a single processor.  It proceeds in
rounds.  In a round every peer moves as far as it can; then at most `turnsPerRound` turns are given
to those who are called, in the order in which they were called.

* Whoever has a turn makes one move after the other until nothing more is possible or `turnLimit`
  messages and pieces were passed on.  In the first case it waits and is called when somebody else
  does what it waits for; in the second it rests until the round is over.
* Being hung up is noticed at once: a resting task that looks at the flag is called before the round
  is over.  An inbound task that rests before it has begun with the next record does not look.

Nothing is decided here but the order: the scenario only ever changes by `Scenario.step?`, so that
settling is a run (`Scenario.exists_run_settle`).
-/

namespace LockService

/-- How many moves a turn has at most.  A task makes fewer than eight for each message. -/
def movesPerTurn : Nat := 8 * turnLimit

/-- How many turns are given between two moments at which the peers move. -/
def turnsPerRound : Nat := 61

/-- Rounds after which settling gives up.  A scenario needs about as many as there are bytes under
way. -/
def roundLimit : Nat := 1 <<< 48

/-! ## Moves in a turn -/

namespace Service

/-- What a move counts in a turn. -/
def Move.cost : Move → Nat
  | .take | .submit _ | .desert _ => 1
  | .inbound _ .quit | .inbound _ (.fetch _) | .inbound _ .endOfInput => 1
  | .outbound _ .take | .outbound _ (.spill _) | .outbound _ .fail => 1
  | .deliver | .inbound _ _ | .outbound _ _ => 0

/-- Who may have waited for a move of a task, those called first in front. -/
def Move.concerns : Move → List Actor
  | .submit position => [.core, .outbound position]
  | .outbound position _ => [.inbound position]
  | .take | .deliver | .inbound _ _ | .desert _ => []

/-- Whether the outbound task of a link can find that nobody is left who could send it messages. -/
def isDeserted (s : Service) (position : Nat) : Bool :=
  s.links[position]?.any (·.desert?.isSome) && !s.canReach position

/-- The positions of all links, in the order of their connection numbers. -/
def positions (s : Service) : List Nat :=
  (s.links.zipIdx.mergeSort fun a b => a.1.id.val ≤ b.1.id.val).map (·.2)

end Service

/-! ## Courses -/

/-- A scenario and who is to have a turn in it. -/
structure Course where
  scenario : Scenario
  agenda : Agenda := {}

/-- How somebody goes on in its turn: by a move, or by ending the turn, to rest, to wait for a place
in the inbox, or to wait for something else. -/
inductive Intent
  | move (move : Service.Move)
  | rest
  | queue
  | wait
deriving DecidableEq, Repr

namespace Course

/-- A scenario in which everybody is called. -/
def ofScenario (scenario : Scenario) : Course where
  scenario
  agenda.ready := .core :: scenario.service.positions.flatMap fun position =>
    [.inbound position, .outbound position]

/-- The course with one more connection, both tasks of which are called. -/
def connect (c : Course) (link : Link) : Course where
  scenario := c.scenario.connect link
  agenda :=
    let position := c.scenario.nextPosition
    (c.agenda.call (.inbound position)).call (.outbound position)

/-- The service of the scenario. -/
def service (c : Course) : Service :=
  c.scenario.service

/-- The link at a position. -/
def link? (c : Course) (position : Nat) : Option Link :=
  c.service.links[position]?

/-- The course with its agenda changed. -/
def arrange (c : Course) (change : Agenda → Agenda) : Course :=
  { c with agenda := change c.agenda }

/-! ### Calling -/

/-- Whether somebody who waits has something to go on with. -/
def canGoOn (c : Course) : Actor → Bool
  | .core => !c.service.inbox.isEmpty
  | .inbound position =>
    c.agenda.promised.contains position || (c.link? position).any (·.inboundMove?.isSome)
  | .outbound position =>
    (c.link? position).any (fun l => l.canProceed || (l.hungUp && l.outbound.heedsHangUp)) ||
    c.service.isDeserted position

/-- Whether somebody who rests notices that the connection was hung up. -/
def noticesHangUp (c : Course) : Actor → Bool
  | .core => false
  | .inbound position =>
    (c.link? position).any fun l =>
      l.hungUp && l.inbound.heedsHangUp && !(l.inbound matches .checking)
  | .outbound position => (c.link? position).any fun l => l.hungUp && l.outbound.heedsHangUp

/-- Calls somebody if there is a reason for it. -/
def call (c : Course) (actor : Actor) : Course :=
  if c.agenda.resting.contains actor then
    if c.noticesHangUp actor then c.arrange (·.rouse actor) else c
  else if c.canGoOn actor then c.arrange (·.call actor)
  else c

/-- Calls both tasks of a link, if there is a reason for it. -/
def callTasks (c : Course) (position : Nat) : Course :=
  (c.call (.inbound position)).call (.outbound position)

/-- Gives a place in the inbox that has become free to the task that has waited longest. -/
def promise (c : Course) : Course :=
  match c.agenda.queueing with
  | [] => c
  | position :: _ => (c.arrange (·.promise)).call (.inbound position)

/-! ### Turns of the core -/

/-- Delivers so many of the pending messages. -/
def deliverAll : Nat → Course → Course
  | 0, c => c
  | count + 1, c =>
    match c.service.pending, c.service.deliver with
    | delivery :: _, some service =>
      deliverAll count
        ({ c with scenario := { c.scenario with service } }.callTasks delivery.replier)
    | _, _ => c

/-- The core takes the next envelope and delivers all that it causes.  A link whose replier was
replaced may then have lost the last one who could send it messages. -/
def handleNext? (c : Course) : Option Course :=
  match c.service.inbox.items, c.service.take with
  | envelope :: _, some service =>
    let replaced := c.service.core.repliers[envelope.sender]?
    let c := { c with scenario := { c.scenario with service } }.promise
    let c := deliverAll service.pending.length c
    some (replaced.elim c fun position => c.call (.outbound position))
  | _, _ => none

/-- A turn of the core: so many envelopes.  If the turn is used up the core rests, even if there is
no further envelope. -/
def coreTurn : Nat → Course → Course
  | 0, c => c.arrange (·.rest .core)
  | count + 1, c =>
    match c.handleNext? with
    | none => c
    | some c => coreTurn count c

/-! ### Turns of the tasks -/

/-- Whether an inbound task that has something for the core may put it into the inbox: if a place
was promised to it, or if there is one that was promised to nobody. -/
def hasPlace (c : Course) (position : Nat) : Bool :=
  c.agenda.promised.contains position ||
  c.service.inbox.size + c.agenda.promised.length < c.service.inbox.capacity

/-- How an inbound task goes on that may pass on so many more messages and pieces. -/
def inboundIntent (c : Course) (position allowance : Nat) : Intent :=
  match c.link? position with
  | none => .wait
  | some l =>
    if allowance = 0 ∧ l.inboundCounts then .rest
    else
      match l.inboundMove? with
      | some move => .move (.inbound position move)
      | none =>
        if (l.submission? position).isNone then .wait
        else if c.hasPlace position then .move (.submit position)
        else .queue

/-- How an outbound task goes on that may pass on so many more messages and pieces. -/
def outboundIntent (c : Course) (position allowance : Nat) : Intent :=
  match c.link? position with
  | none => .wait
  | some l =>
    if l.outbound.isEnded then .wait
    else if !l.awake then .move (.outbound position .look)
    else if allowance = 0 ∧ l.outboundCounts then .rest
    else if l.canProceed then .move (.outbound position l.nextOutbound)
    else if c.service.isDeserted position then .move (.desert position)
    else .wait

/-- The agenda after a move of a task. -/
def agendaAfter (c : Course) : Service.Move → Agenda
  | .submit position => c.agenda.redeem position
  | _ => c.agenda

/-- The course after a move of a task, if it can be made.  Everybody is called that has waited for
it. -/
def move? (c : Course) (move : Service.Move) : Option Course :=
  (c.service.step? move).map fun service =>
    move.concerns.foldl call ⟨{ c.scenario with service }, c.agendaAfter move⟩

/-- A turn of a task that goes on as `intent` says: at most so many moves, and among them as many as
the allowance pays for.  Answers also how the turn ended. -/
def turn (intent : Course → Nat → Intent) : Nat → Nat → Course → Intent × Course
  | 0, _, c => (.rest, c)
  | moves + 1, allowance, c =>
    match intent c allowance with
    | .move move =>
      match c.move? move with
      | none => (.wait, c)
      | some c => turn intent moves (allowance - move.cost) c
    | ending => (ending, c)

/-- A turn of an inbound task. -/
def inboundTurn (c : Course) (position : Nat) : Course :=
  match turn (fun c => c.inboundIntent position) movesPerTurn turnLimit c with
  | (.rest, c) => c.arrange (·.rest (.inbound position))
  | (.queue, c) => c.arrange (·.queue position)
  | (_, c) => c

/-- A turn of an outbound task, which looks at the hang-up flag again when it has its next one. -/
def outboundTurn (c : Course) (position : Nat) : Course :=
  let (ending, c) := turn (fun c => c.outboundIntent position) movesPerTurn turnLimit c
  let c := (c.move? (.outbound position .suspend)).getD c
  match ending with
  | .rest => c.arrange (·.rest (.outbound position))
  | _ => c

/-! ### Rounds -/

/-- A turn of somebody. -/
def takeTurn (c : Course) : Actor → Course
  | .core => coreTurn turnLimit c
  | .inbound position => c.inboundTurn position
  | .outbound position => c.outboundTurn position

/-- So many turns, or fewer if nobody is called. -/
def takeTurns : Nat → Course → Course
  | 0, c => c
  | count + 1, c =>
    match c.agenda.next? with
    | none => c
    | some (actor, agenda) => takeTurns count ({ c with agenda }.takeTurn actor)

/-- The course after a move of a peer, if it can be made. -/
def movePeer? (c : Course) (position : Nat) (move : PeerMove) : Option Course :=
  (c.scenario.stepPeer? position move).map fun scenario =>
    { c with scenario }.callTasks position

/-- A peer moves: so many moves. -/
def peerTurn : Nat → Nat → Course → Course
  | 0, _, c => c
  | moves + 1, position, c =>
    match c.scenario.nextPeer? position with
    | none => c
    | some move => peerTurn moves position ((c.movePeer? position move).getD c)

/-- Every peer moves, by ascending connection numbers.  A peer makes each of its moves at most
once. -/
def peerTurns (c : Course) : Course :=
  c.service.positions.foldl (fun c position => peerTurn 4 position c) c

/-- A round. -/
def round (c : Course) : Course :=
  (takeTurns turnsPerRound c.peerTurns).arrange (·.refresh)

/-- Whether nobody can move. -/
def isQuiet (c : Course) : Bool :=
  c.agenda.isEmpty &&
  c.service.positions.all fun position => (c.scenario.nextPeer? position).isNone

/-- So many rounds, or fewer if nobody can move before. -/
def settleWithin : Nat → Course → Course
  | 0, c => c
  | rounds + 1, c => if c.isQuiet then c else settleWithin rounds c.round

/-- The course after everybody has moved as far as possible. -/
def settle (c : Course) : Course :=
  settleWithin roundLimit c

end Course

/-- The scenario after everybody has moved as far as possible. -/
def Scenario.settle (w : Scenario) : Scenario :=
  (Course.ofScenario w).settle.scenario

end LockService
