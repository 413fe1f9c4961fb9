/-!
# Agendas

Who is to have a turn next, when the core and the tasks of all links share one processor.  Those
who have something to do stand in a queue and have their turns in its order.  Whoever has used up a
turn rests, and joins the queue when the round is over.

An agenda also keeps the order in which inbound tasks wait for a place in the inbox of the core.  A
place that becomes free is promised to the one that has waited longest, and nobody else takes it.
-/

namespace LockService

/-- Somebody who has turns: the core, or one of the two tasks of the link at some position. -/
inductive Actor
  | core
  | inbound (position : Nat)
  | outbound (position : Nat)
deriving DecidableEq, Repr

/-- Who is to have a turn, next one first; who rests, latest first; the positions of the links whose
inbound tasks wait for a place in the inbox, longest first; and of those that were promised one. -/
structure Agenda where
  ready : List Actor := []
  resting : List Actor := []
  queueing : List Nat := []
  promised : List Nat := []
deriving DecidableEq, Repr

namespace Agenda

/-- Calls somebody for a turn, behind all others.  Nobody stands there twice. -/
def call (a : Agenda) (actor : Actor) : Agenda :=
  if actor ∈ a.ready then a else { a with ready := a.ready ++ [actor] }

/-- The one whose turn it is. -/
def next? (a : Agenda) : Option (Actor × Agenda) :=
  match a.ready with
  | [] => none
  | actor :: ready => some (actor, { a with ready })

/-- Somebody rests. -/
def rest (a : Agenda) (actor : Actor) : Agenda :=
  { a with resting := actor :: a.resting }

/-- Somebody who rests is called before the round is over. -/
def rouse (a : Agenda) (actor : Actor) : Agenda :=
  { a with resting := a.resting.erase actor }.call actor

/-- The round is over: all who rest are called, latest first. -/
def refresh (a : Agenda) : Agenda :=
  a.resting.foldl call { a with resting := [] }

/-- An inbound task waits for a place. -/
def queue (a : Agenda) (position : Nat) : Agenda :=
  if position ∈ a.queueing then a else { a with queueing := a.queueing ++ [position] }

/-- A place has become free. -/
def promise (a : Agenda) : Agenda :=
  match a.queueing with
  | [] => a
  | position :: queueing => { a with queueing, promised := position :: a.promised }

/-- An inbound task has taken a place. -/
def redeem (a : Agenda) (position : Nat) : Agenda :=
  { a with promised := a.promised.erase position }

/-- Whether nobody is to have a turn. -/
def isEmpty (a : Agenda) : Bool :=
  a.ready.isEmpty && a.resting.isEmpty

/-! ## Nobody stands in the queue twice -/

section

variable {a b : Agenda}

@[simp] theorem ready_rest (a : Agenda) (actor : Actor) : (a.rest actor).ready = a.ready := rfl

@[simp] theorem ready_redeem (a : Agenda) (position : Nat) : (a.redeem position).ready = a.ready :=
  rfl

@[simp] theorem ready_queue (a : Agenda) (position : Nat) : (a.queue position).ready = a.ready := by
  unfold queue
  split <;> rfl

@[simp] theorem ready_promise (a : Agenda) : a.promise.ready = a.ready := by
  unfold promise
  split <;> rfl

theorem ready_call (a : Agenda) (actor : Actor) :
    (a.call actor).ready = if actor ∈ a.ready then a.ready else a.ready ++ [actor] := by
  unfold call
  split <;> rfl

theorem nodup_ready_call (h : a.ready.Nodup) (actor : Actor) : (a.call actor).ready.Nodup := by
  rw [ready_call]
  split
  · exact h
  · next hn => exact List.nodup_append.2 ⟨h, by simp, fun x hx y hy e => by simp_all⟩

theorem nodup_ready_rouse (h : a.ready.Nodup) (actor : Actor) : (a.rouse actor).ready.Nodup :=
  nodup_ready_call (a := { a with resting := a.resting.erase actor }) h actor

theorem nodup_ready_foldl_call (h : a.ready.Nodup) (actors : List Actor) :
    (actors.foldl call a).ready.Nodup := by
  induction actors generalizing a with
  | nil => exact h
  | cons actor actors ih => exact ih (nodup_ready_call h actor)

theorem nodup_ready_refresh (h : a.ready.Nodup) : a.refresh.ready.Nodup :=
  nodup_ready_foldl_call (a := { a with resting := [] }) h a.resting

theorem nodup_ready_next? (h : a.ready.Nodup) {actor : Actor} (hnext : a.next? = some (actor, b)) :
    b.ready.Nodup := by
  unfold next? at hnext
  split at hnext
  · cases hnext
  · next hready =>
    cases hnext
    rw [hready] at h
    exact (List.nodup_cons.1 h).2

end

end Agenda

end LockService
