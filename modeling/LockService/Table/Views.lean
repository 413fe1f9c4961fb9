import Std.Data.TreeMap

/-!
# The two views of who holds what

A lock service answers two questions about the same relation between clients and keys.  When a
key is asked for or given up it needs the key's *queue*: who holds it and who waits, in the order
they came.  When a client leaves it needs the client's *stakes*: the keys it holds or waits for,
so that it can be taken out of every queue it stands in without looking at the others.  `Views`
keeps both answers.

* `Views.queues` — per key, the clients in arrival order.  The front one holds the key.
* `Views.stakes` — per registered client, what it has at stake on each of its keys.

Every operation edits the two at different moments, so nothing in the type says that they agree,
and passing a key on checks it: `Views.passOn` answers with a `Disagreement` when the client that
is said to hold a key is not in front of its queue.  `LockService.Table.Coherence` shows that no
operation ever gets that answer, and `LockService.Table.Basic` bundles the views with their
agreement.
-/

namespace LockService

open Std (TreeMap)

/-- What a client has at stake on a key: it is in front of the key's queue and owns the key, or it
is queued behind the holder. -/
inductive Stake
  | holding
  | waiting
deriving DecidableEq, Repr, Inhabited

/-- How a request to give a key up ended: the client did not hold it, nobody was waiting and the
key is free again, or the next client in line holds it now. -/
inductive Release (ι : Type)
  | notHeld
  | vacated
  | promoted (next : ι)
deriving DecidableEq, Repr

/-- How the two views can contradict each other when `client`, which holds `key` by its own
stakes, is about to pass it on: the key has no queue, or the queue has another front. -/
inductive Disagreement (ι κ : Type)
  | noQueue (client : ι) (key : κ)
  | notInFront (client : ι) (key : κ) (front : Option ι)
deriving DecidableEq, Repr

/-- Both views of the relation between the clients `ι` and the keys `κ`. -/
structure Views (ι κ : Type) [Ord ι] [Ord κ] where
  queues : TreeMap κ (List ι) := ∅
  stakes : TreeMap ι (TreeMap κ Stake) := ∅

namespace Views

variable {ι κ : Type} [Ord ι] [Ord κ]

/-! ## Looking -/

/-- The queue of a key, empty when the key is free. -/
def queue (v : Views ι κ) (key : κ) : List ι :=
  v.queues.getD key []

/-- The client that holds a key. -/
def holder (v : Views ι κ) (key : κ) : Option ι :=
  (v.queue key).head?

/-- The clients queued behind the holder, in the order in which they will be granted the key. -/
def waiters (v : Views ι κ) (key : κ) : List ι :=
  (v.queue key).tail

/-- Holder and waiters together. -/
def queueLength (v : Views ι κ) (key : κ) : Nat :=
  (v.queue key).length

/-- What a client has at stake on a key. -/
def stake (v : Views ι κ) (client : ι) (key : κ) : Option Stake :=
  v.stakes[client]?.bind (·[key]?)

/-- Whether a client is known, with or without a stake. -/
def isRegistered (v : Views ι κ) (client : ι) : Bool :=
  v.stakes.contains client

/-- How many keys are held. -/
def keyCount (v : Views ι κ) : Nat :=
  v.queues.size

/-- How many clients are known. -/
def clientCount (v : Views ι κ) : Nat :=
  v.stakes.size

/-! ## Editing one stake -/

/-- Records a stake, registering the client if need be. -/
def setStake (v : Views ι κ) (client : ι) (key : κ) (stake : Stake) : Views ι κ :=
  { v with stakes := v.stakes.insert client ((v.stakes.getD client ∅).insert key stake) }

/-- Forgets a stake.  The client stays registered. -/
def dropStake (v : Views ι κ) (client : ι) (key : κ) : Views ι κ :=
  match v.stakes[client]? with
  | none => v
  | some mine => { v with stakes := v.stakes.insert client (mine.erase key) }

/-! ## The operations -/

/-- Makes a client known.  A client that is known already keeps its stakes. -/
def register (v : Views ι κ) (client : ι) : Views ι κ :=
  { v with stakes := v.stakes.insertIfNew client ∅ }

variable [DecidableEq ι]

/-- Asks for a key and tells whether the client holds it afterwards.  A free key is granted, the
holder is told again that it holds, a newcomer joins the queue at its end, and a waiter that asks
again keeps its place. -/
def acquire (v : Views ι κ) (client : ι) (key : κ) : Bool × Views ι κ :=
  let v := v.register client
  match v.queues[key]? with
  | none => (true, { v with queues := v.queues.insert key [client] }.setStake client key .holding)
  | some queue =>
    if queue.head? = some client then (true, v)
    else
      match v.stake client key with
      | some _ => (false, v)
      | none =>
        (false,
          { v with queues := v.queues.insert key (queue ++ [client]) }.setStake client key .waiting)

/-- Takes the holder off the front of a key's queue and hands the key to the next in line, or
frees it when there is none. -/
def passOn (v : Views ι κ) (client : ι) (key : κ) :
    Except (Disagreement ι κ) (Option ι × Views ι κ) :=
  match v.queues[key]? with
  | none => .error (.noQueue client key)
  | some [] => .error (.notInFront client key none)
  | some (front :: rest) =>
    if front = client then
      match rest with
      | [] => .ok (none, { v with queues := v.queues.erase key })
      | next :: _ =>
        .ok (some next, { v with queues := v.queues.insert key rest }.setStake next key .holding)
    else .error (.notInFront client key (some front))

/-- Gives a key up.  Nothing changes unless the client holds it. -/
def release (v : Views ι κ) (client : ι) (key : κ) :
    Except (Disagreement ι κ) (Release ι × Views ι κ) :=
  if v.queues.contains key ∧ v.stake client key = some .holding then
    match (v.dropStake client key).passOn client key with
    | .error fault => .error fault
    | .ok (none, v) => .ok (.vacated, v)
    | .ok (some next, v) => .ok (.promoted next, v)
  else .ok (.notHeld, v)

/-- Takes a waiting client out of a key's queue. -/
def withdraw (v : Views ι κ) (client : ι) (key : κ) : Views ι κ :=
  match v.queues[key]? with
  | none => v
  | some queue =>
    match queue.filter (· ≠ client) with
    | [] => { v with queues := v.queues.erase key }
    | rest => { v with queues := v.queues.insert key rest }

/-- Walks through what a leaving client had at stake: what it held is passed on, and where it
waited it is struck out.  Answers with the clients that were promoted, in the order of the walk. -/
def settleStakes (client : ι) :
    List (κ × Stake) → Views ι κ → Except (Disagreement ι κ) (List ι × Views ι κ)
  | [], v => .ok ([], v)
  | (key, .waiting) :: rest, v => settleStakes client rest (v.withdraw client key)
  | (key, .holding) :: rest, v =>
    match v.passOn client key with
    | .error fault => .error fault
    | .ok (next, v) =>
      match settleStakes client rest v with
      | .error fault => .error fault
      | .ok (promoted, v) => .ok (next.toList ++ promoted, v)

/-- Forgets a client: what it holds is passed on and it leaves every queue it waits in.  Answers
with the clients promoted by that, by ascending key; one client may appear several times. -/
def remove (v : Views ι κ) (client : ι) : Except (Disagreement ι κ) (List ι × Views ι κ) :=
  match v.stakes[client]? with
  | none => .ok ([], v)
  | some mine => settleStakes client mine.toList { v with stakes := v.stakes.erase client }

end Views

end LockService
