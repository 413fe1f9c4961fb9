import LockService.Connection.Progress
import LockService.Proofs.Connection.Reachable

/-!
# Hang-ups end in a cleanup

A connection is hung up when a message finds its queue of replies full or a write fails.  Nobody
cleans up after it at that moment: its inbound task, wherever it stands, has to see the flag, say
that the connection has closed, and find a place in the inbox for that; and the core, handling it,
passes keys on to others, whose queues may be full in turn.

A service is *drained* when all of that is over: neither the core nor any inbound task can make a
move, be it that they are gone or that they wait for a peer (`Service.Drained`,
`Service.drained_of_idle`).  **`Scenario.cleaned_of_drained`** is the result: then the core has
handled the closing of every connection that was hung up, and has forgotten it
(`Core.HasForgotten`), so whoever holds or awaits a key is not hung up.  The outbound tasks do not
come into it: they may have stopped anywhere.
-/

namespace LockService

/-! ## Drained services -/

namespace Service

/-- Whether a move is one of the core or of an inbound task.  That reading may fail is no move of
the task. -/
def Move.isInward : Move → Bool
  | .take | .deliver | .submit _ => true
  | .inbound _ move => move ≠ .fail
  | .outbound .. | .desert _ => false

/-- Whether neither the core nor any inbound task can make a move. -/
def Drained (s : Service) : Prop :=
  ∀ move : Move, move.isInward = true → s.step? move = none

end Service

namespace Link

/-- Whether the inbound task has nothing to do: it is gone, or it waits for a place in the window or
for its peer. -/
def isIdle (l : Link) : Bool :=
  match l.inbound with
  | .ended => true
  | .parked woken => !woken && !l.hungUp
  | .reading => !l.hungUp && l.unread.isEmpty && l.fromPeer.bytes.isEmpty && !l.fromPeer.closed
  | .opening | .checking | .throttled | .holding _ | .closing => false

theorem submission_of_isIdle {l : Link} (h : l.isIdle = true) (position : Nat) :
    l.submission? position = none := by
  unfold isIdle at h
  unfold submission?
  split at h <;> simp_all

/-- A task that has nothing to do makes no move, unless reading fails. -/
theorem inboundStep_of_isIdle {l : Link} (h : l.isIdle = true) {move : InboundMove}
    (hmove : move ≠ .fail) : l.inboundStep? move = none := by
  rw [Option.eq_none_iff_forall_ne_some]
  intro l' hstep
  have hpeer : l.inbound = .reading →
      l.unread = [] ∧ l.fromPeer.bytes = [] ∧ l.fromPeer.closed = false := by
    intro hat
    simp only [isIdle, hat, Bool.and_eq_true, Bool.not_eq_true', List.isEmpty_iff] at h
    exact ⟨h.1.1.2, h.1.2, h.2⟩
  cases InboundStep.of_eq hstep with
  | quit hhung hheeds =>
      cases hat : l.inbound <;> simp_all [isIdle, InboundPhase.heedsHangUp]
  | enter hat => rw [isIdle, hat] at h; cases h
  | throttle hat => rw [isIdle, hat] at h; cases h
  | redeem hat => rw [isIdle, hat] at h; cases h
  | park hat => rw [isIdle, hat] at h; cases h
  | wake hat => rw [isIdle, hat] at h; cases h
  | fetch hat _ hgives => simp [Pipe.gives, Pipe.front, (hpeer hat).2.1] at hgives; omega
  | lengthen hat hunread => exact hunread (hpeer hat).1
  | find hat hunread => exact hunread (hpeer hat).1
  | last hat _ hend => simp [Pipe.isAtEnd, (hpeer hat).2.2] at hend
  | finish hat _ hend => simp [Pipe.isAtEnd, (hpeer hat).2.2] at hend
  | fail => exact hmove rfl

end Link

namespace Service

/-- A service is drained if the core has nothing to do and no inbound task has. -/
theorem drained_of_idle {s : Service} (hpending : s.pending = []) (hinbox : s.inbox.items = [])
    (hlinks : ∀ l ∈ s.links, l.isIdle = true) : s.Drained := by
  intro move hmove
  cases move with
  | take => simp [step?, take, hpending, Queue.pop?, hinbox]
  | deliver => simp [step?, deliver, hpending]
  | submit position =>
      cases hl : s.links[position]? with
      | none => simp [step?, submit, hl]
      | some l =>
          have hnothing := Link.submission_of_isIdle (hlinks l (List.mem_of_getElem? hl)) position
          simp [step?, submit, hl, hnothing]
  | inbound position move =>
      cases hl : s.links[position]? with
      | none => simp [step?, onLink, hl]
      | some l =>
          have hidle := hlinks l (List.mem_of_getElem? hl)
          have hstay := Link.inboundStep_of_isIdle hidle (of_decide_eq_true hmove)
          simp [step?, onLink, hl, hstay]
  | outbound => cases hmove
  | desert => cases hmove

section

variable {s : Service}

theorem Drained.pending_eq (h : s.Drained) : s.pending = [] := by
  have hdeliver := h .deliver rfl
  simp only [step?, deliver] at hdeliver
  split at hdeliver
  · assumption
  · cases hdeliver

theorem Drained.inbox_eq (h : s.Drained) : s.inbox.items = [] := by
  have htake := h .take rfl
  simp only [step?, take, h.pending_eq, Option.map_eq_none_iff] at htake
  exact Queue.pop?_eq_none_iff.mp htake

/-- The inbox has a place, so nobody has anything left to tell the core. -/
theorem Drained.submission_eq (h : s.Drained) (hcapacity : 0 < s.inbox.capacity) {position : Nat}
    {l : Link} (hl : s.links[position]? = some l) : l.submission? position = none := by
  have hsubmit := h (.submit position) rfl
  simp only [step?, submit, hl, Option.bind_some] at hsubmit
  split at hsubmit
  · assumption
  · rw [Option.map_eq_none_iff, Queue.push?_eq_none_iff, Queue.size, h.inbox_eq] at hsubmit
    exact absurd hcapacity (Nat.not_lt.mpr hsubmit)

/-- **Wherever it stood**, the inbound task of a connection that was hung up is gone. -/
theorem Drained.ended_of_hungUp (h : s.Drained) (hcapacity : 0 < s.inbox.capacity) {position : Nat}
    {l : Link} (hl : s.links[position]? = some l) (hhung : l.hungUp = true) :
    l.inbound = .ended := by
  have hquit := h (.inbound position .quit) rfl
  have hheeds : l.inbound.heedsHangUp = false := by
    simpa [step?, onLink, hl, Link.inboundStep?, hhung] using hquit
  have hsubmission := h.submission_eq hcapacity hl
  cases hat : l.inbound with
  | ended => rfl
  | opening => simp [Link.submission?, hat] at hsubmission
  | closing => simp [Link.submission?, hat] at hsubmission
  | holding record => cases record <;> simp [Link.submission?, hat] at hsubmission
  | _ => simp [InboundPhase.heedsHangUp, hat] at hheeds

end

end Service

/-! ## Forgotten connections -/

/-- Nobody who has said all of a conversation is open. -/
theorem Command.IsConversation.foldl_leavesOpen {ρ : Type} {replier : ρ}
    {commands : List (Command ρ)} (h : Command.IsConversation replier commands) (was : Bool) :
    commands.foldl Command.leavesOpen was = false := by
  obtain ⟨middle, rfl, -⟩ := h.exists_middle
  rw [← List.cons_append, List.foldl_append]
  rfl

/-- Whether a core has nothing left of a connection: it is not registered, stands in no queue, and
has no replier. -/
structure Core.HasForgotten {ρ : Type} (core : Core ρ) (c : ConnectionId) : Prop where
  unregistered : core.table.views.isRegistered c = false
  unqueued : ∀ key, c ∉ core.table.views.queue key
  unreachable : core.repliers[c]? = none

/-- Who is not open after an orderly history is forgotten. -/
theorem Core.Orderly.hasForgotten {ρ : Type} {history : List (Envelope ρ)}
    (h : Core.Orderly history) {c : ConnectionId} (hclosed : Core.isOpen c history = false) :
    (Core.handleAll history .empty).2.HasForgotten c where
  unregistered := (h.isRegistered_eq c).trans hclosed
  unqueued key hc := by
    have hreach := h.canReach_of_mem_queue hc
    rw [Core.canReach_handleAll, hclosed] at hreach
    cases hreach
  unreachable := by
    have hreach := Core.canReach_handleAll history c
    rw [hclosed, Core.canReach, Std.TreeMap.contains_eq_isSome_getElem?] at hreach
    exact Option.isNone_iff_eq_none.mp (Option.isSome_eq_false_iff.mp hreach)

namespace Service

/-- Whether a service has cleaned up after all hang-ups.  The core has handled one closing of each
connection that was hung up, after which it has nothing left of it; so the connections that hold or
await a key are not hung up, and no key is left without a holder. -/
structure Cleaned (history : List (Envelope Nat)) (s : Service) : Prop where
  ended : ∀ l ∈ s.links, l.hungUp = true → l.inbound = .ended
  closing_once : ∀ l ∈ s.links, l.hungUp = true → (Core.told l.id history).count .closing = 1
  forgotten : ∀ l ∈ s.links, l.hungUp = true → s.core.HasForgotten l.id
  queued : ∀ key, ∀ c ∈ s.core.table.views.queue key, ∃ l ∈ s.links, l.id = c ∧ l.hungUp = false
  held : ∀ key, s.core.table.views.queues.contains key = true →
    ∃ l ∈ s.links, s.core.table.views.holder key = some l.id ∧ l.hungUp = false

/-- What is left to show of a service whose hung-up connections are forgotten: everybody in a queue
is registered, so has spoken, so is a connection, and not a forgotten one. -/
theorem Heard.exists_of_mem_queue {history : List (Envelope Nat)} {s : Service}
    (h : s.Heard history) (hfew : s.links.length < UInt64.size)
    (hforgotten : ∀ l ∈ s.links, l.hungUp = true → s.core.HasForgotten l.id)
    {key : String} {c : ConnectionId} (hc : c ∈ s.core.table.views.queue key) :
    ∃ l ∈ s.links, l.id = c ∧ l.hungUp = false := by
  have hopen : Core.isOpen c history = true := by
    rw [← Core.canReach_handleAll]
    exact (h.orderly hfew).canReach_of_mem_queue (h.core_eq ▸ hc)
  obtain ⟨command, hcommand⟩ : ∃ command, command ∈ Core.told c history := by
    refine List.exists_mem_of_ne_nil _ fun hnil => ?_
    rw [Core.isOpen, hnil] at hopen
    cases hopen
  obtain ⟨position, hposition, hsender⟩ :=
    h.sender _ (List.mem_append_left _ (Core.mem_told_iff.mp hcommand))
  have hl := List.getElem?_eq_getElem hposition
  have hid : s.links[position].id = c := (h.id_eq hl).trans hsender.symm
  refine ⟨_, List.getElem_mem hposition, hid, ?_⟩
  by_contra hhung
  rw [Bool.not_eq_false] at hhung
  exact (hforgotten _ (List.getElem_mem hposition) hhung).unqueued key (hid.symm ▸ hc)

/-- **A drained service has cleaned up.** -/
theorem Heard.cleaned {history : List (Envelope Nat)} {s : Service} (h : s.Heard history)
    (hfew : s.links.length < UInt64.size) (hcapacity : 0 < s.inbox.capacity)
    (hdrained : s.Drained) : s.Cleaned history := by
  have hended : ∀ l ∈ s.links, l.hungUp = true →
      l.inbound = .ended ∧ ∃ position, Command.IsConversation position (Core.told l.id history) := by
    intro l hmem hhung
    obtain ⟨position, hl⟩ := List.getElem?_of_mem hmem
    have hat := hdrained.ended_of_hungUp hcapacity hl hhung
    have htalks := h.talks hfew hl
    rw [received, hdrained.inbox_eq, List.append_nil, Link.Talks, hat] at htalks
    exact ⟨hat, position, htalks⟩
  have hforgotten : ∀ l ∈ s.links, l.hungUp = true → s.core.HasForgotten l.id := by
    intro l hmem hhung
    obtain ⟨-, position, hwhole⟩ := hended l hmem hhung
    rw [h.core_eq]
    exact (h.orderly hfew).hasForgotten (hwhole.foldl_leavesOpen false)
  constructor
  case ended => exact fun l hmem hhung => (hended l hmem hhung).1
  case closing_once =>
    intro l hmem hhung
    obtain ⟨-, position, hwhole⟩ := hended l hmem hhung
    exact hwhole.count_closing
  case forgotten => exact hforgotten
  case queued => exact fun key c hc => h.exists_of_mem_queue hfew hforgotten hc
  case held =>
    intro key hkey
    rw [Std.TreeMap.contains_eq_isSome_getElem?] at hkey
    obtain ⟨queue, hqueue⟩ := Option.isSome_iff_exists.mp hkey
    have heq : s.core.table.views.queue key = queue := by
      rw [Views.queue_eq, hqueue, Option.getD_some]
    cases queue with
    | nil => exact absurd hqueue (s.core.table.coherent.ne_nil key)
    | cons front rest =>
        have hfront : front ∈ s.core.table.views.queue key := heq ▸ List.mem_cons_self
        obtain ⟨l, hmem, hid, hup⟩ := h.exists_of_mem_queue hfew hforgotten hfront
        refine ⟨l, hmem, ?_, hup⟩
        rw [Views.holder, heq, hid, List.head?_cons]

end Service

/-- **Hang-ups end in a cleanup.**  Whenever neither the core nor any inbound task can make a move,
whatever was sent, read, written or lost before and whoever has moved when, the service has cleaned
up after all connections that were hung up.

Fewer than 2⁶⁴ connections were accepted so far (`hfew`).  Numbers have 64 bits and come again after
that many, and by opening a later connection registers the number of one that was hung up again. -/
theorem Scenario.cleaned_of_drained {inboundCapacity : Nat} {start w : Scenario}
    {history : List (Envelope Nat)} (hstart : start? inboundCapacity = some start)
    (h : start.Reaches history w) (hfew : w.service.links.length < UInt64.size)
    (hdrained : w.service.Drained) : w.service.Cleaned history := by
  obtain ⟨hcapacity, hpos⟩ := h.inbox_capacity hstart
  exact (h.heard hstart).cleaned hfew (hcapacity ▸ hpos) hdrained

/-- For instance one hang-up causes the next.  The first of four connections holds two keys, all
others wait for both, and the second and the third have a queue for one reply only.  When the first
one is lost, its keys are granted to the second, whose queue the second grant finds full; so the
keys pass on to the third, to which the same happens, and then to the last one, which can be told of
both.  No outbound task has moved. -/
theorem Scenario.cleaned_of_drained_cascade :
    let records := "[\"lock\",\"a\"]\n[\"lock\",\"b\"]\n".toUTF8.toList
    let reading (position : Nat) : List Move :=
      [.service (.inbound position .check), .service (.inbound position .decode),
        .service (.submit position), .service .take]
    let asking (position : Nat) : List Move :=
      [.service (.submit position), .service .take, .peer position (.feed 26),
        .service (.inbound position .check), .service (.inbound position (.fetch 26)),
        .service (.inbound position .decode), .service (.submit position), .service .take]
    let closing (position : Nat) : List Move :=
      [.service (.submit position), .service .take, .service .deliver, .service .deliver,
        .service .deliver]
    let moves : List Move :=
      asking 0 ++ [.service .deliver] ++ reading 0 ++ [.service .deliver] ++
      [1, 2, 3].flatMap (fun position => asking position ++ reading position) ++
      [.peer 0 .vanish, .service (.inbound 0 .check), .service (.inbound 0 .endOfInput)] ++
      closing 0 ++
      [.service (.inbound 1 .check), .service (.inbound 1 .quit)] ++ closing 1 ++
      [.service (.inbound 2 .quit)] ++ closing 2 ++ [.service (.inbound 3 .check)]
    let welcome (w : Scenario) (capacity : Nat) : Option Scenario :=
      (Link.make? (.ofPosition w.nextPosition) ⟨4, capacity⟩ 64).map fun link =>
        (w.connect link).modifyPeer w.nextPosition ({ · with backlog := records })
    ∃ start opened w history, start? 1 = some start ∧
      [8, 1, 1, 8].foldlM welcome start = some opened ∧ opened.run? moves = some w ∧
      start.Reaches history w ∧ w.service.links.length = 4 ∧ w.service.Drained ∧
      w.service.Cleaned history ∧
      w.service.links.map (·.hungUp) = [false, true, true, false] ∧
      w.service.core.table.views.holder "a" = some (.ofPosition 3) ∧
      w.service.core.table.views.holder "b" = some (.ofPosition 3) := by
  intro records reading asking closing moves welcome
  have hend : (start? 1).any (fun start => ([8, 1, 1, 8].foldlM welcome start).any fun opened =>
      (opened.run? moves).any fun w =>
        w.service.links.length = 4 ∧ w.service.pending = [] ∧ w.service.inbox.items = [] ∧
        (∀ l ∈ w.service.links, l.isIdle = true) ∧
        w.service.links.map (·.hungUp) = [false, true, true, false] ∧
        w.service.core.table.views.holder "a" = some (.ofPosition 3) ∧
        w.service.core.table.views.holder "b" = some (.ofPosition 3)) = true := by
    decide +kernel
  obtain ⟨start, hstart, hend⟩ := (Option.any_eq_true _ _).mp hend
  obtain ⟨opened, hopened, hend⟩ := (Option.any_eq_true _ _).mp hend
  obtain ⟨w, hrun, hend⟩ := (Option.any_eq_true _ _).mp hend
  obtain ⟨hlinks, hpending, hinbox, hidle, hhung, ha, hb⟩ := of_decide_eq_true hend
  have hwelcome : ∀ {w w' capacity}, start.Reaches [] w → welcome w capacity = some w' →
      start.Reaches [] w' := by
    intro w w' capacity h hw'
    obtain ⟨link, hlink, rfl⟩ := Option.map_eq_some_iff.mp hw'
    exact (h.connect hlink).outside _ _
  have hreaches : start.Reaches [] opened := by
    simp only [List.foldlM_cons, List.foldlM_nil, Option.bind_eq_bind, Option.bind_eq_some_iff]
      at hopened
    obtain ⟨w₁, h₁, w₂, h₂, w₃, h₃, w₄, h₄, heq⟩ := hopened
    cases heq
    exact hwelcome (hwelcome (hwelcome (hwelcome .start h₁) h₂) h₃) h₄
  have hdrained := Service.drained_of_idle hpending hinbox hidle
  have hcleaned :=
    cleaned_of_drained hstart (hreaches.run hrun) (by rw [hlinks]; decide) hdrained
  exact ⟨start, opened, w, _, hstart, hopened, hrun, hreaches.run hrun, hlinks, hdrained, hcleaned,
    hhung, ha, hb⟩

end LockService
