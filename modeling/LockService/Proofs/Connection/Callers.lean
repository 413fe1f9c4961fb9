import Mathlib.Data.List.Forall2
import LockService.Connection.Scenario
import LockService.Proofs.Core.Repliers

/-!
# Callers

What a run of the service is compared with.  Callers are peers that send some bytes and then close
their half of the stream; `Scenario.spawn?` connects any number of them to a service that has just
started.

* `Caller.envelopes` — everything that a caller has to tell the core: that it is open, the requests
  in its bytes up to the first thing that is no request, and that it has closed.
* `Scenario.handled` — the envelopes that the core takes in a run, in the order of taking.
* `Interleaves` — a list is made of parts that each keep their order.
* `replyBytes` — the bytes of all replies that the core sends to one connection.
* `Scenario.AtRest` — nobody has anything left to do.
-/

namespace LockService

/-! ## Interleavings -/

/-- Those items of a list of tagged items that carry some tag. -/
def part {α : Type} (tag : Nat) (tagged : List (Nat × α)) : List α :=
  tagged.filterMap fun item => if item.1 = tag then some item.2 else none

/-- Whether a list is made of the given parts, each in its own order: every item can be tagged with
the part that it belongs to. -/
def Interleaves {α : Type} (parts : Nat → List α) (whole : List α) : Prop :=
  ∃ tagged : List (Nat × α), tagged.map Prod.snd = whole ∧ ∀ tag, part tag tagged = parts tag

section Part

variable {α : Type}

@[simp] theorem part_nil (tag : Nat) : part tag ([] : List (Nat × α)) = [] := rfl

@[simp] theorem part_append (tag : Nat) (tagged more : List (Nat × α)) :
    part tag (tagged ++ more) = part tag tagged ++ part tag more := by
  simp [part]

theorem part_cons (tag : Nat) (item : Nat × α) (tagged : List (Nat × α)) :
    part tag (item :: tagged)
      = if item.1 = tag then item.2 :: part tag tagged else part tag tagged := by
  unfold part
  rw [List.filterMap_cons]
  split <;> split at * <;> simp_all

theorem mem_part_iff {tag : Nat} {x : α} {tagged : List (Nat × α)} :
    x ∈ part tag tagged ↔ (tag, x) ∈ tagged := by
  simp only [part, List.mem_filterMap, Option.ite_none_right_eq_some, Option.some.injEq]
  constructor
  · rintro ⟨⟨t, y⟩, hmem, rfl, rfl⟩
    exact hmem
  · exact fun hmem => ⟨_, hmem, rfl, rfl⟩

end Part

/-! ## Replies -/

/-- The bytes that a message is written as. -/
def Outbound.bytes : Outbound → List UInt8
  | .reply r => Record.bytes r
  | .closed => []

/-- The bytes of the replies that the core sends to the link at a position when it handles some
envelopes, in the order of sending. -/
def replyBytes (history : List (Envelope Nat)) (position : Nat) : List UInt8 :=
  (Core.through position (Core.handleAll history .empty).1).flatMap Outbound.bytes

/-! ## Callers -/

/-- A peer that sends some bytes and then closes its half of the stream, with the number and the
bounds that its connection gets, and how many bytes the stream holds in each direction. -/
structure Caller where
  id : ConnectionId
  limits : ReplyLimits
  buffer : Nat
  bytes : List UInt8
  window_pos : 0 < limits.window
  buffer_pos : 0 < buffer

/-- What the core is told of some records of a stream: the requests in front of the first failure,
that there was one, and that the connection has closed. -/
def Command.ofRecords {ρ : Type} : List (Except DecodeError Request) → List (Command ρ)
  | [] => [.closing]
  | .ok r :: rest => .request r :: ofRecords rest
  | .error _ :: _ => [.malformed, .closing]

namespace Caller

/-- Everything that a caller at some position has to tell the core. -/
def envelopes (c : Caller) (position : Nat) : List (Envelope Nat) :=
  (.opening position :: Command.ofRecords (Decoder.all c.bytes)).map (⟨c.id, ·⟩)

/-- The service's side of the connection of a caller. -/
def link? (c : Caller) : Option Link :=
  Link.make? c.id c.limits c.buffer

/-- The caller as a peer that has not moved. -/
def peer (c : Caller) : Peer where
  backlog := c.bytes
  finishing := true

end Caller

namespace Scenario

/-- The scenario with a caller connected. -/
def welcome? (w : Scenario) (c : Caller) : Option Scenario :=
  c.link?.map fun link =>
    (w.connect link).modifyPeer w.nextPosition
      ({ · with backlog := c.bytes, finishing := true })

/-- A service that has just started, with callers connected that have not moved. -/
def spawn? (inboundCapacity : Nat) (callers : List Caller) : Option Scenario :=
  (start? inboundCapacity).bind fun w => callers.foldlM welcome? w

/-- What the caller at a position has to tell the core, if there is one. -/
def expected (callers : List Caller) (position : Nat) : List (Envelope Nat) :=
  match callers[position]? with
  | some c => c.envelopes position
  | none => []

/-! ## Runs -/

namespace Move

/-- Whether a move is no failure: reading and writing succeed, and no peer vanishes. -/
def isCalm : Move → Bool
  | .service (.inbound _ .fail) | .service (.outbound _ .fail) | .peer _ .vanish => false
  | _ => true

/-- Whether a move does nothing: a task only looks at its flag or waits, or a peer only finds the
end of its stream. -/
def isIdle : Move → Bool
  | .service (.outbound _ .look) | .service (.outbound _ .suspend) | .peer _ .seeEnd => true
  | _ => false

end Move

/-- The envelope that the core takes with a move. -/
def taken? (w : Scenario) : Move → Option (Envelope Nat)
  | .service .take => w.service.inbox.items.head?
  | _ => none

/-- The envelopes that the core takes in a run, in their order. -/
def handled (w : Scenario) : List Move → List (Envelope Nat)
  | [] => []
  | move :: rest =>
    match w.step? move with
    | none => []
    | some next => (w.taken? move).toList ++ next.handled rest

/-- Whether nobody has anything left to do: whatever can still be done without a failure is idle,
now and after any number of idle moves.  In particular all peers have read everything. -/
def AtRest (w : Scenario) : Prop :=
  ∀ moves w', (∀ move ∈ moves, move.isCalm) → w.run? moves = some w' → ∀ move ∈ moves, move.isIdle

/-- Whether no queue of replies has overflowed and no write has failed: no hang-up flag is raised,
and none is ever lowered. -/
def Unbroken (w : Scenario) : Prop :=
  ∀ l ∈ w.service.links, l.hungUp = false

/-! ## The start -/

/-- The scenario before anybody has moved. -/
structure Fresh (callers : List Caller) (w : Scenario) : Prop where
  core_eq : w.service.core = .empty
  pending_eq : w.service.pending = []
  inbox_eq : w.service.inbox.items = []
  capacity_pos : 0 < w.service.inbox.capacity
  links : List.Forall₂ (fun c l => c.link? = some l) callers w.service.links
  peers : w.peers = callers.map Caller.peer

theorem fresh_start {inboundCapacity : Nat} {w : Scenario} (h : start? inboundCapacity = some w) :
    Fresh [] w := by
  simp only [start?, Service.start?, Queue.make?, Option.map_map, Option.map_eq_some_iff] at h
  obtain ⟨inbox, hinbox, rfl⟩ := h
  split at hinbox
  · next hcapacity =>
    cases hinbox
    exact ⟨rfl, rfl, rfl, hcapacity.1, .nil, rfl⟩
  · cases hinbox

theorem Fresh.welcome {callers : List Caller} {w w' : Scenario} (hw : Fresh callers w)
    {c : Caller} (h : w.welcome? c = some w') : Fresh (callers ++ [c]) w' := by
  simp only [welcome?, Option.map_eq_some_iff] at h
  obtain ⟨link, hlink, rfl⟩ := h
  have hlength : w.nextPosition = w.peers.length := by
    rw [nextPosition, ← hw.links.length_eq, hw.peers, List.length_map]
  constructor
  case core_eq => exact hw.core_eq
  case pending_eq => exact hw.pending_eq
  case inbox_eq => exact hw.inbox_eq
  case capacity_pos => exact hw.capacity_pos
  case links => exact List.rel_append hw.links (.cons hlink .nil)
  case peers =>
    show (w.peers ++ [_]).modify w.nextPosition _ = _
    rw [hlength, List.modify_eq_take_cons_drop (by simp), hw.peers]
    simp [Caller.peer]

theorem Fresh.welcomeAll {before callers : List Caller} {w w' : Scenario} (hw : Fresh before w)
    (h : callers.foldlM welcome? w = some w') : Fresh (before ++ callers) w' := by
  induction callers generalizing before w with
  | nil =>
      cases h
      rw [List.append_nil]
      exact hw
  | cons c rest ih =>
      rw [List.foldlM_cons] at h
      obtain ⟨next, hnext, hrest⟩ := Option.bind_eq_some_iff.mp h
      have hmore := ih (hw.welcome hnext) hrest
      rw [List.append_assoc] at hmore
      exact hmore

/-- Spawning gives every caller its link and its peer, and starts with an empty core and inbox. -/
theorem fresh_of_spawn {inboundCapacity : Nat} {callers : List Caller} {w : Scenario}
    (h : spawn? inboundCapacity callers = some w) : Fresh callers w := by
  obtain ⟨start, hstart, hrun⟩ := Option.bind_eq_some_iff.mp h
  exact (fresh_start hstart).welcomeAll hrun

end Scenario

end LockService
