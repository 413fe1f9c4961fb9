import LockService.Proofs.Connection.Account

/-!
# Runs are linearizable

Every run of the service, whoever moves when, is a run of the core on one sequence of envelopes.
The sequence is made of what the callers have to tell, each in its own order, and every caller reads
what the core answers to it in that sequence.

That so far is the account of a run.  What remains is that nothing stays on the way: where nobody
has anything left to do, everything is over (`Account.isOver_of_atRest`).  The argument goes along
the stream.  Nothing is pending and nothing waits in the inbox, or the core could move.  An outbound
task is gone or waits on an empty queue, so no inbound task waits for it; so the inbound tasks are
all gone, and have submitted everything.  Then every connection has closed, nobody is registered,
and an outbound task that still waits finds that nobody can reach it.

* **`Scenario.run_linearizable`** — what holds in every state of every run, and where it rests.
-/

namespace LockService

namespace Scenario

/-- Whether everybody is gone and has left nothing behind. -/
def isOver (w : Scenario) : Bool :=
  w.service.pending.isEmpty && w.service.inbox.isEmpty &&
    w.service.links.all fun l => l.isOver && l.toPeer.bytes.isEmpty

theorem isOver_iff {w : Scenario} :
    w.isOver = true ↔ w.service.pending = [] ∧ w.service.inbox.items = [] ∧
      ∀ l ∈ w.service.links, l.inbound = .ended ∧ l.outbound = .ended ∧ l.toPeer.bytes = [] := by
  have hinbound : ∀ phase : InboundPhase, phase.isEnded = true ↔ phase = .ended := by
    intro phase
    cases phase <;> simp [InboundPhase.isEnded]
  have houtbound : ∀ phase : OutboundPhase, phase.isEnded = true ↔ phase = .ended := by
    intro phase
    cases phase <;> simp [OutboundPhase.isEnded]
  simp only [isOver, Link.isOver, Queue.isEmpty, Bool.and_eq_true, List.isEmpty_iff,
    List.all_eq_true, hinbound, houtbound, and_assoc]

/-! ## Being at rest -/

section

variable {w v w' : Scenario} {move move' : Move}

theorem AtRest.isIdle (h : w.AtRest) (hstep : w.Step move w') (hcalm : move.isCalm = true) :
    move.isIdle = true := by
  have hrun : w.run? [move] = some w' := run?_cons.mpr ⟨w', hstep.step?_eq, rfl⟩
  exact h [move] w' (by simpa using hcalm) hrun move List.mem_cons_self

theorem AtRest.isIdle_second (h : w.AtRest) (hstep : w.Step move v) (hcalm : move.isCalm = true)
    (hstep' : v.Step move' w') (hcalm' : move'.isCalm = true) : move'.isIdle = true := by
  have hrun : w.run? [move, move'] = some w' :=
    run?_cons.mpr ⟨v, hstep.step?_eq, run?_cons.mpr ⟨w', hstep'.step?_eq, rfl⟩⟩
  exact h [move, move'] w' (by simpa using ⟨hcalm, hcalm'⟩) hrun move' (by simp)

/-- What is over stays over, and only idle moves are left. -/
theorem isOver_step (h : w.isOver = true) (hstep : w.Step move w') (hcalm : move.isCalm = true) :
    w'.isOver = true ∧ move.isIdle = true := by
  obtain ⟨hpending, hinbox, hlinks⟩ := isOver_iff.mp h
  have hlink : ∀ {q : Nat} {l : Link}, w.service.links[q]? = some l →
      l.inbound = .ended ∧ l.outbound = .ended ∧ l.toPeer.bytes = [] :=
    fun hl => hlinks _ (List.mem_of_getElem? hl)
  cases hstep with
  | take _ hitems => rw [hinbox] at hitems; cases hitems
  | deliver hcons => rw [hpending] at hcons; cases hcons
  | submit hl hsubmission =>
      rw [Link.submission?, (hlink hl).1] at hsubmission
      cases hsubmission
  | inbound hl hstep =>
      have hended := (hlink hl).1
      cases hstep with
      | quit _ hheeds => rw [hended] at hheeds; cases hheeds
      | _ => simp_all
  | outbound hl hstep =>
      have hended := (hlink hl).2.1
      cases hstep with
      | giveUp _ _ _ hat => rw [hended] at hat; cases hat
      | rouse _ hat => rw [hended] at hat; cases hat
      | awake _ hstep =>
          cases hstep with
          | suspend hat => rw [hended] at hat; cases hat
          | spillBuffered hat => rw [hended] at hat; cases hat
          | fail => cases hcalm
          | _ => simp_all
  | desert hl _ hdesert =>
      have hat := (Link.desert?_eq_some_iff.mp hdesert).1
      rw [(hlink hl).2.1] at hat
      cases hat
  | @peer q _ p p' l l' hp hl hstep =>
      obtain ⟨hin, hout, hbytes⟩ := hlink hl
      have hover : l.isOver = true := by
        rw [Link.isOver, hin, hout]
        rfl
      cases hstep with
      | feed hcan => simp [Peer.canWrite, hover] at hcan
      | halfClose hcan => simp [Peer.canWrite, hover] at hcan
      | drink _ hgives =>
          simp only [Pipe.gives, Pipe.front, hbytes, List.take_nil, List.length_nil,
            decide_eq_true_eq] at hgives
          omega
      | seeEnd =>
          refine ⟨isOver_iff.mpr ⟨hpending, hinbox, fun m hm => ?_⟩, rfl⟩
          rcases List.mem_or_eq_of_mem_set hm with hm | rfl
          · exact hlinks m hm
          · exact hlink hl
      | vanish => cases hcalm

/-- Where everything is over nobody has anything left to do. -/
theorem atRest_of_isOver (h : w.isOver = true) : w.AtRest := by
  intro moves
  induction moves generalizing w with
  | nil => exact fun _ _ _ _ hmem => absurd hmem List.not_mem_nil
  | cons move moves ih =>
      intro w' hcalm hrun move' hmem
      obtain ⟨v, hstep, hrest⟩ := run?_cons.mp hrun
      obtain ⟨hover, hidle⟩ := isOver_step h (.of_eq hstep) (hcalm move List.mem_cons_self)
      rcases List.mem_cons.mp hmem with rfl | hmem
      · exact hidle
      · exact ih hover w' (fun m hm => hcalm m (List.mem_cons_of_mem _ hm)) hrest move' hmem

end

/-! ## Nothing stays on the way -/

namespace Account

variable {callers : List Caller} {w : Scenario} {done waiting : List (Nat × Envelope Nat)}
  {position : Nat} {l : Link} {p : Peer}

/-- A peer at rest has read everything. -/
theorem bytes_of_atRest (h : Account callers w done waiting) (hrest : w.AtRest)
    (hl : w.service.links[position]? = some l) (hp : w.peers[position]? = some p) :
    l.toPeer.bytes = [] := by
  have hintact := (h.faithful position l p hl hp).intact
  by_contra hbytes
  have hgives : l.toPeer.gives 1 = true := by
    have hpos := List.length_pos_iff.mpr hbytes
    simp only [Pipe.gives, Pipe.front, List.length_take, decide_eq_true_eq]
    omega
  have hreads : p.isReading = true := by simp [Peer.isReading, hintact.there, hintact.reads]
  cases hrest.isIdle (.peer hp hl (.drink hreads hgives)) rfl

theorem pending_of_atRest (hrest : w.AtRest) : w.service.pending = [] := by
  cases hpending : w.service.pending with
  | nil => rfl
  | cons d rest => cases hrest.isIdle (.deliver hpending) rfl

theorem inbox_of_atRest (hrest : w.AtRest) : w.service.inbox.items = [] := by
  cases hitems : w.service.inbox.items with
  | nil => rfl
  | cons e rest => cases hrest.isIdle (.take (pending_of_atRest hrest) hitems) rfl

/-- An outbound task at rest is gone, or waits on an empty queue. -/
theorem outbound_of_atRest (h : Account callers w done waiting) (hw : w.Unbroken) (hrest : w.AtRest)
    (hl : w.service.links[position]? = some l) (hp : w.peers[position]? = some p) :
    l.outbound = .ended ∨ l.outbound = .taking ∧ l.replies.items = [] := by
  have hintact := (h.faithful position l p hl hp).intact
  have hread := h.bytes_of_atRest hrest hl hp
  by_contra hbusy
  rw [not_or, not_and] at hbusy
  -- the task may have to be resumed before it can move
  have hresumed : ({ l with awake := true } : Link).Intact p :=
    { hintact with roused := hintact.roused.mono rfl rfl fun hwait => hwait }
  obtain ⟨move, l', hsuspend, hfail, hstep⟩ :=
    hresumed.exists_awakeStep hread hbusy.1 fun hat => hbusy.2 hat
  have hcalm : (Move.service (.outbound position move)).isCalm = true := by
    cases move <;> first | rfl | exact absurd rfl hfail
  have hidle : (Move.service (.outbound position move)).isIdle = true := by
    cases hawake : l.awake with
    | true =>
        have heq : ({ l with awake := true } : Link) = l := by rw [← hawake]
        rw [heq] at hstep
        exact hrest.isIdle (.outbound hl (.awake hawake hstep)) hcalm
    | false =>
        have hended : l.outbound.isEnded = false := by
          cases hat : l.outbound with
          | ended => exact absurd hat hbusy.1
          | _ => rfl
        have hdown : (l.hungUp && l.outbound.heedsHangUp) = false := by
          rw [hw l (List.mem_of_getElem? hl)]
          rfl
        have hlt := (List.getElem?_eq_some_iff.mp hl).1
        exact hrest.isIdle_second (.outbound hl (.rouse hawake hended hdown)) rfl
          (.outbound (List.getElem?_set_self hlt) (.awake rfl hstep)) hcalm
  cases hstep with
  | suspend => exact hsuspend rfl
  | _ => cases hidle

/-- An inbound task at rest is gone. -/
theorem inbound_of_atRest (h : Account callers w done waiting) (hw : w.Unbroken) (hrest : w.AtRest)
    (hl : w.service.links[position]? = some l) (hp : w.peers[position]? = some p) :
    l.inbound = .ended := by
  have hintact := (h.faithful position l p hl hp).intact
  by_contra hthere
  have hawake : l.inbound ≠ .parked false := by
    intro hparked
    have hpos := hintact.window_pos
    rcases hintact.roused.parked hparked with hfull | ⟨message, htook⟩ | hup
    · have hitems : l.replies.items = [] := by
        rcases h.outbound_of_atRest hw hrest hl hp with hended | htaking
        · exact (hintact.ended hended).2
        · exact htaking.2
      rw [Queue.size, hitems, List.length_nil] at hfull
      omega
    · rcases h.outbound_of_atRest hw hrest hl hp with hended | ⟨htaking, -⟩
      · rw [hended] at htook; cases htook
      · rw [htaking] at htook; cases htook
    · rw [hw l (List.mem_of_getElem? hl)] at hup
      cases hup
  have hroom : w.service.inbox.size < w.service.inbox.capacity := by
    rw [Queue.size, inbox_of_atRest hrest]
    exact h.capacity_pos
  rcases hintact.exists_inbound position hthere hawake with
    ⟨e, l', hsubmission⟩ | ⟨move, l', hfail, hstep⟩ | ⟨move, p', l', hvanish, hend, hstep⟩
  · cases hrest.isIdle (.submit hl hsubmission hroom) rfl
  · have hcalm : (Move.service (.inbound position move)).isCalm = true := by
      cases move <;> first | rfl | exact absurd rfl hfail
    cases hrest.isIdle (.inbound hl hstep) hcalm
  · have hcalm : (Move.peer position move).isCalm = true := by
      cases move <;> first | rfl | exact absurd rfl hvanish
    have hidle := hrest.isIdle (.peer hp hl hstep) hcalm
    cases move with
    | seeEnd => exact hend rfl
    | _ => cases hidle

/-- At rest every caller has told everything. -/
theorem parts_of_atRest (h : Account callers w done waiting) (hw : w.Unbroken) (hrest : w.AtRest)
    (position : Nat) : part position done = expected callers position := by
  have hwaiting : waiting = [] := by
    have hinbox := h.inbox_eq
    rw [inbox_of_atRest hrest] at hinbox
    exact List.map_eq_nil_iff.mp hinbox.symm
  have hcome : w.toCome position = [] := by
    cases hl : w.service.links[position]? with
    | none => rw [toCome, hl]
    | some l =>
        obtain ⟨p, hp⟩ := h.exists_peer hl
        have hended := h.inbound_of_atRest hw hrest hl hp
        rw [toCome_of_some hl hp]
        simp only [Link.toCome, Link.commandsToCome, hended, List.map_nil]
  have hparts := h.parts_eq position
  rw [hwaiting, hcome, part_nil, List.append_nil, List.append_nil] at hparts
  exact hparts

/-- At rest nobody is registered: everybody who opened has closed. -/
theorem unregistered_of_atRest (h : Account callers w done waiting) (hw : w.Unbroken)
    (hrest : w.AtRest) (c : ConnectionId) (q : Nat) :
    (Core.handleAll (done.map Prod.snd) .empty).2.repliers[c]? ≠ some q := by
  intro hreplier
  obtain ⟨before, after, hdone, hafter⟩ := Core.opened_of_replier hreplier
  obtain ⟨earlier, rest, rfl, -, hrest'⟩ := List.map_eq_append_iff.mp hdone
  obtain ⟨⟨tag, e⟩, later, rfl, rfl, rfl⟩ := List.map_eq_cons_iff.mp hrest'
  have hmem : (tag, ⟨c, .opening q⟩) ∈ earlier ++ (tag, ⟨c, .opening q⟩) :: later ++ waiting :=
    List.mem_append_left _ (List.mem_append_right _ List.mem_cons_self)
  obtain ⟨rfl, -⟩ := h.opening_of_mem hmem rfl
  have hparts := h.parts_of_atRest hw hrest q
  rw [part_append, part_cons, if_pos rfl] at hparts
  exact hafter (List.mem_map.mpr ⟨_, mem_part_iff.mp (closing_mem_rest hparts.symm), rfl⟩)

/-- **Where nobody has anything left to do, everything is over.** -/
theorem isOver_of_atRest (h : Account callers w done waiting) (hw : w.Unbroken)
    (hrest : w.AtRest) : w.isOver = true := by
  refine isOver_iff.mpr ⟨pending_of_atRest hrest, inbox_of_atRest hrest, fun l hmem => ?_⟩
  obtain ⟨position, hl⟩ := List.mem_iff_getElem?.mp hmem
  obtain ⟨p, hp⟩ := h.exists_peer hl
  have hended := h.inbound_of_atRest hw hrest hl hp
  refine ⟨hended, ?_, h.bytes_of_atRest hrest hl hp⟩
  rcases h.outbound_of_atRest hw hrest hl hp with hgone | ⟨htaking, hitems⟩
  · exact hgone
  · have hvalues : position ∉ w.service.core.repliers.values := by
      rw [Core.mem_values_repliers_iff, h.core_eq]
      rintro ⟨c, hc⟩
      exact h.unregistered_of_atRest hw hrest c position hc
    have halone : w.service.canReach position = false := by
      simp [Service.canReach, hl, hended, InboundPhase.isEnded, hvalues, inbox_of_atRest hrest,
        pending_of_atRest hrest]
    have hdesert : l.desert? = some { l with outbound := .shutting } :=
      Link.desert?_eq_some_iff.mpr ⟨htaking, hitems, rfl⟩
    cases hrest.isIdle (.desert hl halone hdesert) rfl

/-- The bytes that a peer has read are the first of those that the core has sent to it. -/
theorem received_prefix (h : Account callers w done waiting) (hp : w.peers[position]? = some p) :
    p.received <+: replyBytes (done.map Prod.snd) position := by
  have hlt := (List.getElem?_eq_some_iff.mp hp).1
  rw [h.peers_length, ← h.links_length] at hlt
  rw [← (h.faithful position _ p (List.getElem?_eq_getElem hlt) hp).bytes_eq, List.append_assoc]
  exact List.prefix_append _ _

/-- Once everything is over it has read them all. -/
theorem received_of_isOver (h : Account callers w done waiting) (hover : w.isOver = true)
    (hl : w.service.links[position]? = some l) (hp : w.peers[position]? = some p) :
    p.received = replyBytes (done.map Prod.snd) position := by
  obtain ⟨hpending, -, hlinks⟩ := isOver_iff.mp hover
  obtain ⟨-, hended, hbytes⟩ := hlinks l (List.mem_of_getElem? hl)
  have hf := h.faithful position l p hl hp
  obtain ⟨hunsent, hitems⟩ := hf.intact.ended hended
  have hnone : l.underway = [] := by
    simp [Link.underway, Link.inHand, hended, hbytes, hunsent, hitems]
  have heq := hf.bytes_eq
  rw [hnone, hpending, Core.through_nil, List.flatMap_nil, List.append_nil, List.append_nil] at heq
  exact heq

end Account

/-- **Runs are linearizable.**  Let any number of callers be connected to a service that has just
started, and let everybody move in any order, without a failure and without a queue of replies
overflowing.  Then the core is where handling the envelopes of the run one after the other leads it.
They are an interleaving of what the callers have to tell, as far as each of them has come, and
every peer has read the first bytes of what the core, handling just these envelopes, has sent to it.
Where nobody has anything left to do, the core has handled everything that every caller has to tell,
and every peer has read all that was sent to it and finds the end of its stream behind it. -/
theorem run_linearizable {inboundCapacity : Nat} {callers : List Caller} {start w : Scenario}
    {moves : List Move} (hspawn : spawn? inboundCapacity callers = some start)
    (hcalm : ∀ move ∈ moves, move.isCalm = true) (hrun : start.run? moves = some w)
    (hunbroken : w.Unbroken) :
    w.service.links.length = callers.length ∧ w.peers.length = callers.length ∧
    w.service.core = (Core.handleAll (start.handled moves) .empty).2 ∧
    ∃ parts : Nat → List (Envelope Nat),
      Interleaves parts (start.handled moves) ∧
      (∀ position, parts position <+: expected callers position) ∧
      (∀ (position : Nat) (p : Peer), w.peers[position]? = some p →
        p.received <+: replyBytes (start.handled moves) position) ∧
      (w.AtRest → (∀ position, parts position = expected callers position) ∧
        ∀ (position : Nat) (l : Link) (p : Peer), w.service.links[position]? = some l →
          w.peers[position]? = some p →
          p.received = replyBytes (start.handled moves) position ∧
          l.isClosedToPeer = true ∧ l.toPeer.bytes = []) := by
  obtain ⟨done, waiting, haccount, hdone⟩ :=
    (account_of_fresh (fresh_of_spawn hspawn)).run hcalm hrun hunbroken
  rw [List.map_nil, List.nil_append] at hdone
  refine ⟨haccount.links_length, haccount.peers_length, by rw [← hdone, haccount.core_eq],
    fun position => part position done, ⟨done, hdone, fun _ => rfl⟩, fun position => ?_,
    fun position p hp => ?_, fun hrest => ?_⟩
  · show part position done <+: _
    rw [← haccount.parts_eq position, List.append_assoc]
    exact List.prefix_append _ _
  · rw [← hdone]
    exact haccount.received_prefix hp
  · have hover := haccount.isOver_of_atRest hunbroken hrest
    refine ⟨haccount.parts_of_atRest hunbroken hrest, fun position l p hl hp => ?_⟩
    obtain ⟨hin, hout, hbytes⟩ := (isOver_iff.mp hover).2.2 l (List.mem_of_getElem? hl)
    refine ⟨?_, ?_, hbytes⟩
    · rw [← hdone]
      exact haccount.received_of_isOver hover hl hp
    · rw [Link.isClosedToPeer, Link.isOver, hin, hout]
      exact Bool.or_true _

/-- For instance two callers ask for the same key.  The second one's request is submitted first, so the
first one is granted the key when the second one closes. -/
theorem run_linearizable_contending :
    let caller (id : UInt64) : Caller :=
      ⟨⟨id⟩, ⟨1, 4⟩, 64, "[\"lock\",\"a\"]\n".toUTF8.toList, by decide, by decide⟩
    let callers := [caller 1, caller 2]
    let lock : Command Nat := .request ⟨"lock", "a", none⟩
    let inbound (position : Nat) (move : InboundMove) : Move := .service (.inbound position move)
    let outbound (position : Nat) (move : OutboundMove) : Move := .service (.outbound position move)
    let asking (position : Nat) : List Move :=
      [.service (.submit position), .service .take, .peer position (.feed 13),
        .peer position .halfClose, inbound position .check, inbound position (.fetch 13),
        inbound position .decode]
    let hearing (position : Nat) : List Move :=
      [outbound position .look, outbound position .take, outbound position .notify,
        outbound position .buffer, outbound position .test, outbound position (.spill 16),
        outbound position .flushed, .peer position (.drink 16)]
    let closing (position : Nat) : List Move :=
      [inbound position .check, inbound position .endOfInput, .service (.submit position),
        .service .take, .service .deliver]
    let ending (position : Nat) : List Move :=
      [outbound position .take, outbound position .notify, outbound position .finish]
    let moves : List Move :=
      asking 0 ++ asking 1 ++
      [.service (.submit 1), .service (.submit 0), .service .take, .service .deliver,
        .service .take] ++
      hearing 1 ++ closing 1 ++ [.service .deliver] ++ hearing 0 ++ closing 0 ++ ending 0 ++ ending 1
    ∃ start w parts, spawn? 2 callers = some start ∧ (∀ move ∈ moves, move.isCalm = true) ∧
      start.run? moves = some w ∧ w.Unbroken ∧ w.AtRest ∧
      start.handled moves = [⟨⟨1⟩, .opening 0⟩, ⟨⟨2⟩, .opening 1⟩, ⟨⟨2⟩, lock⟩, ⟨⟨1⟩, lock⟩,
        ⟨⟨2⟩, .closing⟩, ⟨⟨1⟩, .closing⟩] ∧
      Interleaves parts (start.handled moves) ∧
      (∀ position, parts position = expected callers position) ∧
      ∀ position < 2, ∃ l p, w.service.links[position]? = some l ∧ w.peers[position]? = some p ∧
        p.received = replyBytes (start.handled moves) position ∧ p.received.length = 16 ∧
        l.isClosedToPeer = true ∧ l.toPeer.bytes = [] := by
  intro caller callers lock inbound outbound asking hearing closing ending moves
  have hcalm : ∀ move ∈ moves, move.isCalm = true := by decide
  have hend : (spawn? 2 callers).any (fun start => (start.run? moves).any fun w =>
      w.isOver ∧ (∀ l ∈ w.service.links, l.hungUp = false) ∧
      (∀ p ∈ w.peers, p.received.length = 16) ∧
      start.handled moves = [⟨⟨1⟩, .opening 0⟩, ⟨⟨2⟩, .opening 1⟩, ⟨⟨2⟩, lock⟩, ⟨⟨1⟩, lock⟩,
        ⟨⟨2⟩, .closing⟩, ⟨⟨1⟩, .closing⟩]) = true := by decide +kernel
  obtain ⟨start, hspawn, hend⟩ := (Option.any_eq_true _ _).mp hend
  obtain ⟨w, hrun, hend⟩ := (Option.any_eq_true _ _).mp hend
  obtain ⟨hover, hunbroken, hread, hhandled⟩ := of_decide_eq_true hend
  have hrest := atRest_of_isOver hover
  obtain ⟨hlinks, hpeers, -, parts, hparts, -, -, hfinal⟩ :=
    run_linearizable hspawn hcalm hrun hunbroken
  obtain ⟨htold, hheard⟩ := hfinal hrest
  refine ⟨start, w, parts, hspawn, hcalm, hrun, hunbroken, hrest, hhandled, hparts, htold, ?_⟩
  intro position hposition
  have hl := List.getElem?_eq_getElem (hlinks.symm ▸ hposition : position < w.service.links.length)
  have hp := List.getElem?_eq_getElem (hpeers.symm ▸ hposition : position < w.peers.length)
  obtain ⟨hreceived, hclosed, hbytes⟩ := hheard position _ _ hl hp
  exact ⟨_, _, hl, hp, hreceived, hread _ (List.mem_of_getElem? hp), hclosed, hbytes⟩

end Scenario

end LockService
