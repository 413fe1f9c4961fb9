import LockService.Proofs.Connection.Reachable
import LockService.Proofs.Connection.Room

/-!
# Nobody is hung up for sending much at once

What is due to a connection that never waits stays within the bounds of `Service.Spacious` in every
state that a scenario can reach: no move, whoever makes it, takes the room
(`Scenario.Reaches.spacious_step`), and a new connection has it all.

**`Server.room_of_neverWaits`** says what follows for a server whose configuration was checked.
Every reply finds a place; so does the last message, that the closing was noted, unless the
connection has sent something that is no request and the reply capacity is the smallest one allowed.
That exception is real: `Server.exists_overflow`.
-/

namespace LockService

/-! ## Every reachable scenario -/

namespace Service

/-- A replier is brought by the connection at its position. -/
theorem Heard.sender_of_opening {history : List (Envelope Nat)} {s : Service}
    (h : s.Heard history) (hfew : s.links.length < UInt64.size) {c : ConnectionId} {position : Nat}
    (hopening : ⟨c, .opening position⟩ ∈ s.received history) :
    c = .ofPosition position ∧ position < s.links.length := by
  obtain ⟨q, hq, rfl⟩ := h.sender _ hopening
  have hl := List.getElem?_eq_getElem hq
  obtain ⟨whole, hwhole, hsaid, -⟩ := (h.talks hfew hl).exists_conversation
  obtain ⟨middle, rfl, hmiddle, -⟩ := hwhole.exists_middle
  have hmem := hsaid.subset (Core.mem_told_iff.mpr ((h.id_eq hl).symm ▸ hopening))
  rcases List.mem_cons.mp hmem with heq | hmem
  · cases heq
    exact ⟨rfl, hq⟩
  · rcases List.mem_append.mp hmem with hmem | hmem
    · exact absurd hmem (hmiddle _)
    · exact absurd (List.mem_singleton.mp hmem) nofun

/-- Whoever the core is about to hear from has not closed. -/
theorem Heard.closing_not_mem {history : List (Envelope Nat)} {s : Service} (h : s.Heard history)
    (hfew : s.links.length < UInt64.size) {e : Envelope Nat} {rest : List (Envelope Nat)}
    (hitems : s.inbox.items = e :: rest) : .closing ∉ Core.told e.sender history := by
  intro hclosing
  obtain ⟨before, after, rfl⟩ := List.append_of_mem (Core.mem_told_iff.mp hclosing)
  have hconversational := h.conversational hfew
  rw [received, hitems, List.append_assoc, List.cons_append] at hconversational
  exact hconversational.sender_ne_of_closing rfl e (by simp) rfl

/-- A link is the one that was replaced, or was there before. -/
theorem links_setLink_cases {s : Service} {q position : Nat} {m m' l' : Link}
    (hm : s.links[q]? = some m) (h : (s.setLink q m').links[position]? = some l') :
    q = position ∧ l' = m' ∨ q ≠ position ∧ s.links[position]? = some l' := by
  replace h : (s.links.set q m')[position]? = some l' := h
  rw [Scenario.getElem?_set_of_some hm] at h
  split at h
  · next hq => exact .inl ⟨hq, (Option.some.inj h).symm⟩
  · next hq => exact .inr ⟨hq, h⟩

end Service

namespace Scenario

/-- A link keeps its number and its bounds. -/
theorem exists_frame {w w' : Scenario} {move : Move} (h : w.Step move w') {position : Nat}
    {l' : Link} (hl' : w'.service.links[position]? = some l') :
    ∃ l, w.service.links[position]? = some l ∧ l'.id = l.id ∧ l'.window = l.window ∧
      l'.replies.capacity = l.replies.capacity := by
  have hset : ∀ {q : Nat} {m m' : Link}, w.service.links[q]? = some m →
      (w.service.setLink q m').links[position]? = some l' →
      (m'.id = m.id ∧ m'.window = m.window ∧ m'.replies.capacity = m.replies.capacity) →
      ∃ l, w.service.links[position]? = some l ∧ l'.id = l.id ∧ l'.window = l.window ∧
        l'.replies.capacity = l.replies.capacity := by
    intro q m m' hm hl' hframe
    rcases Service.links_setLink_cases hm hl' with ⟨rfl, rfl⟩ | ⟨-, hl⟩
    · exact ⟨m, hm, hframe⟩
    · exact ⟨l', hl, rfl, rfl, rfl⟩
  have hdrains : ∀ {m m' : Link}, m.Drains m' →
      m'.id = m.id ∧ m'.window = m.window ∧ m'.replies.capacity = m.replies.capacity :=
    fun h => ⟨h.id_eq, h.window_eq, h.capacity_eq⟩
  cases h with
  | take => exact ⟨l', hl', rfl, rfl, rfl⟩
  | @deliver d rest hpending =>
      replace hl' : (w.service.links.modify d.replier (·.receive d.message))[position]? = some l' :=
        hl'
      rw [List.getElem?_modify] at hl'
      obtain ⟨l, hl, rfl⟩ := Option.map_eq_some_iff.mp hl'
      refine ⟨l, hl, ?_⟩
      split
      · exact l.receive_frame d.message
      · exact ⟨rfl, rfl, rfl⟩
  | submit hm hsubmission =>
      obtain ⟨inbound, rfl, -⟩ := Link.exists_of_submission hsubmission
      exact hset hm hl' ⟨rfl, rfl, rfl⟩
  | inbound hm hmove =>
      obtain ⟨hid, hwindow, hreplies, -⟩ := Link.inboundStep_frame hmove
      exact hset hm hl' ⟨hid, hwindow, congrArg _ hreplies⟩
  | outbound hm hmove => exact hset hm hl' (hdrains (Link.drains_outboundStep hmove))
  | desert hm _ hdesert => exact hset hm hl' (hdrains (Link.drains_desert hdesert))
  | peer _ hm hmove => exact hset hm hl' (hdrains (Link.drains_peerStep hmove))

section

variable {inboundCapacity : Nat} {start w : Scenario} {history : List (Envelope Nat)}

/-- The inbox holds no more than it has places. -/
theorem Reaches.inbox_size (hstart : start? inboundCapacity = some start)
    (h : start.Reaches history w) : w.service.inbox.size ≤ w.service.inbox.capacity := by
  induction h with
  | start =>
      have hempty := (fresh_start hstart).inbox_eq
      rw [Queue.size, hempty]
      exact Nat.zero_le _
  | connect _ _ ih => exact ih
  | @move _ w _ _ _ hstep ih =>
      cases Step.of_eq hstep with
      | take _ hitems =>
          rw [Queue.size, hitems] at ih
          exact (Nat.le_succ _).trans ih
      | submit _ _ hroom =>
          show (w.service.inbox.items ++ [_]).length ≤ _
          rw [List.length_append]
          exact hroom
      | _ => exact ih
  | outside _ _ _ ih => exact ih

/-- What is on its way to somebody goes through the replier that it has opened with. -/
theorem Reaches.opening_of_pending (hstart : start? inboundCapacity = some start)
    (h : start.Reaches history w) {d : Delivery Nat} (hd : d ∈ w.service.pending) :
    ⟨d.receiver, .opening d.replier⟩ ∈ history := by
  induction h with
  | start =>
      rw [(fresh_start hstart).pending_eq] at hd
      cases hd
  | connect _ _ ih => exact ih hd
  | @move history w _ _ h hstep ih =>
      cases Step.of_eq hstep with
      | take hpending hitems =>
          have hreplier := Core.replier_of_mem_handle hd
          rw [(h.heard hstart).core_eq] at hreplier
          obtain ⟨before, after, rfl, -⟩ := Core.opened_of_replier hreplier
          simp
      | deliver hpending =>
          exact List.mem_append_left _ (ih (hpending ▸ List.mem_cons_of_mem _ hd))
      | _ => exact List.mem_append_left _ (ih hd)
  | outside _ _ _ ih => exact ih hd

/-- A connection that was just made has all its room: nobody speaks for it yet. -/
theorem Reaches.spacious_of_make? (hstart : start? inboundCapacity = some start)
    (h : start.Reaches history w) (hfew : w.service.links.length < UInt64.size)
    {limits : ReplyLimits} {buffer : Nat} {l : Link}
    (hlink : Link.make? (.ofPosition w.nextPosition) limits buffer = some l) :
    w.service.Spacious history w.service.links.length l := by
  have hheard := h.heard hstart
  obtain ⟨replies, hreplies, rfl⟩ := Option.map_eq_some_iff.mp hlink
  obtain ⟨-, rfl⟩ := Queue.eq_of_make? hreplies
  refine Service.spacious_of_fresh rfl rfl rfl (fun d hd heq => ?_) ?_
  · have hopening := List.mem_append_left w.service.inbox.items (h.opening_of_pending hstart hd)
    exact absurd heq (hheard.sender_of_opening hfew hopening).2.ne
  · rw [List.eq_nil_iff_forall_not_mem]
    intro command hcommand
    obtain ⟨q, hq, hsender⟩ :=
      hheard.sender _ (List.mem_append_right _ (Core.mem_told_iff.mp hcommand))
    exact absurd (ConnectionId.ofPosition_inj hfew (hq.trans hfew) hsender) hq.ne'

/-- No move, whoever makes it, takes the room of a connection that never waits. -/
theorem Reaches.spacious_step (hstart : start? inboundCapacity = some start)
    (h : start.Reaches history w) (hfew : w.service.links.length < UInt64.size) {w' : Scenario}
    {move : Move} (hstep : w.Step move w') {position : Nat} {m l : Link}
    (hm : w.service.links[position]? = some m) (hl : w'.service.links[position]? = some l)
    (hcapacity : m.window + w.service.inbox.capacity + 1 ≤ m.replies.capacity)
    (hwaits : Core.NeverWaits m.id (history ++ (w.taken? move).toList))
    (hbefore : w.service.Spacious history position m) :
    w'.service.Spacious (history ++ (w.taken? move).toList) position l := by
  have hheard := h.heard hstart
  -- whoever replaces the link at `q` alone leaves all others their room
  have hset : ∀ {q : Nat} {k k' : Link}, w.service.links[q]? = some k →
      (w.service.setLink q k').links[position]? = some l →
      (k = m → w.service.Spacious history position k') →
      (w.service.setLink q k').Spacious history position l := by
    intro q k k' hk hl hown
    rcases Service.links_setLink_cases hk hl with ⟨rfl, rfl⟩ | ⟨-, hl⟩
    · exact (hown (Option.some.inj (hk.symm.trans hm))).congr rfl rfl
    · obtain rfl := Option.some.inj (hm.symm.trans hl)
      exact hbefore.congr rfl rfl
  cases hstep with
  | @take e rest hpending hitems =>
      obtain rfl := Option.some.inj (hm.symm.trans hl)
      rw [show w.taken? (.service .take) = some e by simp [taken?, hitems],
        Option.toList_some] at hwaits ⊢
      refine hbefore.take hpending hitems ?_ ?_ ?_
      · intro c hc
        rw [hheard.core_eq] at hc
        obtain ⟨before, after, heq, -⟩ := Core.opened_of_replier hc
        rw [hheard.id_eq hm]
        refine (hheard.sender_of_opening hfew (List.mem_append_left _ ?_)).1
        rw [heq]
        simp
      · rw [hheard.core_eq]
        exact hwaits history (List.prefix_append ..)
      · exact fun hsender => hsender ▸ hheard.closing_not_mem hfew hitems
  | @deliver d rest hpending =>
      simp only [taken?, Option.toList_none, List.append_nil]
      replace hl : (w.service.links.modify d.replier (·.receive d.message))[position]? = some l :=
        hl
      rw [List.getElem?_modify, hm] at hl
      rw [← Option.some.inj hl]
      exact hbefore.deliver (hheard.talks hfew hm) hcapacity hpending _
  | @submit q k k' e hk hsubmission =>
      simp only [taken?, Option.toList_none, List.append_nil]
      rcases Service.links_setLink_cases hk hl with ⟨rfl, rfl⟩ | ⟨hq, hl⟩
      · obtain rfl := Option.some.inj (hm.symm.trans hk)
        exact hbefore.submit hsubmission
      · obtain rfl := Option.some.inj (hm.symm.trans hl)
        refine hbefore.submit_other fun heq => hq ?_
        have hsender := (Link.sender_of_submission hsubmission).1
        exact hheard.position_eq hfew hk hl (hsender.symm.trans heq)
  | inbound hk hmove =>
      simp only [taken?, Option.toList_none, List.append_nil]
      refine hset hk hl ?_
      rintro rfl
      exact hbefore.inboundStep (hheard.talks hfew hm) (h.inbox_size hstart) hmove
  | outbound hk hmove =>
      simp only [taken?, Option.toList_none, List.append_nil]
      refine hset hk hl ?_
      rintro rfl
      exact hbefore.drains (Link.drains_outboundStep hmove)
  | desert hk _ hdesert =>
      simp only [taken?, Option.toList_none, List.append_nil]
      refine hset hk hl ?_
      rintro rfl
      exact hbefore.drains (Link.drains_desert hdesert)
  | peer _ hk hmove =>
      simp only [taken?, Option.toList_none, List.append_nil]
      refine hset hk hl ?_
      rintro rfl
      exact hbefore.drains (Link.drains_peerStep hmove)

/-- **What is due to a connection that never waits stays within bounds**, whatever everybody
does. -/
theorem Reaches.spacious (hstart : start? inboundCapacity = some start)
    (h : start.Reaches history w) (hfew : w.service.links.length < UInt64.size) {position : Nat}
    {l : Link} (hl : w.service.links[position]? = some l)
    (hcapacity : l.window + w.service.inbox.capacity + 1 ≤ l.replies.capacity)
    (hwaits : Core.NeverWaits l.id history) : w.service.Spacious history position l := by
  induction h generalizing position l with
  | start =>
      have hfresh := fresh_start hstart
      rw [List.forall₂_nil_left_iff.mp hfresh.links] at hl
      cases hl
  | @connect history w limits buffer link h hlink ih =>
      replace hfew : (w.service.links ++ [_]).length < UInt64.size := hfew
      rw [List.length_append, List.length_singleton] at hfew
      replace hl : (w.service.links ++ [_])[position]? = some l := hl
      rw [List.getElem?_append] at hl
      split at hl
      · exact (ih (Nat.lt_of_succ_lt hfew) hl hcapacity hwaits).congr rfl rfl
      · next hposition =>
        obtain ⟨hlast, rfl⟩ := List.getElem?_eq_some_iff.mp hl
        rw [List.length_singleton] at hlast
        obtain rfl : position = w.service.links.length := by omega
        rw [List.getElem_singleton]
        exact (h.spacious_of_make? hstart (Nat.lt_of_succ_lt hfew) hlink).congr rfl rfl
  | @move history w w' move h hstep ih =>
      replace hstep := Step.of_eq hstep
      rw [(heard_step (h.heard hstart) hstep).2] at hfew
      obtain ⟨m, hm, hid, hwindow, hreplies⟩ := exists_frame hstep hl
      rw [hwindow, hreplies, inbox_capacity_step hstep] at hcapacity
      rw [hid] at hwaits
      have hbefore := ih hfew hm hcapacity hwaits.of_append
      exact h.spacious_step hstart hfew hstep hm hl hcapacity hwaits hbefore
  | outside _ _ _ ih => exact ih hfew hl hcapacity hwaits

end

end Scenario

/-! ## Servers -/

namespace Server

/-- Every link of a server has the bounds that were configured. -/
theorem Reaches.bounds {config : Config} {start s : Server} {history : List (Envelope Nat)}
    (hstart : make? config = some start) (h : start.Reaches history s) :
    s.limits = config.replyLimits ∧ ∀ l ∈ s.scenario.service.links,
      l.window = config.replyWindow.toNat ∧ l.replies.capacity = config.replyCapacity.toNat := by
  induction h with
  | start =>
      obtain ⟨scenario, hscenario, rfl⟩ := Option.map_eq_some_iff.mp hstart
      refine ⟨rfl, fun l hl => ?_⟩
      replace hl : l ∈ scenario.service.links := hl
      rw [List.forall₂_nil_left_iff.mp (Scenario.fresh_start hscenario).links] at hl
      cases hl
  | accept _ haccept ih =>
      obtain ⟨hlimits, hlinks⟩ := ih
      obtain ⟨link, hlink, rfl⟩ := Option.map_eq_some_iff.mp haccept
      refine ⟨hlimits, fun l hl => ?_⟩
      rcases List.mem_append.mp hl with hl | hl
      · exact hlinks l hl
      · obtain rfl := List.mem_singleton.mp hl
        obtain ⟨replies, hreplies, rfl⟩ := Option.map_eq_some_iff.mp hlink
        rw [hlimits] at hreplies ⊢
        obtain ⟨-, rfl⟩ := Queue.eq_of_make? hreplies
        exact ⟨rfl, rfl⟩
  | inside _ hstep ih =>
      obtain ⟨hlimits, hlinks⟩ := ih
      refine ⟨hlimits, fun l' hl' => ?_⟩
      obtain ⟨position, hl'⟩ := List.getElem?_of_mem hl'
      obtain ⟨l, hl, -, hwindow, hcapacity⟩ := Scenario.exists_frame (.of_eq hstep) hl'
      rw [hwindow, hcapacity]
      exact hlinks l (List.mem_of_getElem? hl)
  | outside _ _ _ ih => exact ih

/-- What a configuration that was accepted says about its sizes, if their sum is one. -/
theorem minimum_of_start {config : Config} {start : Server} (h : Server.start config = .ok start)
    (hwords : config.replyWindow.toNat + config.inboundCapacity.toNat + 1 < UInt64.size) :
    make? config = some start ∧
      config.minimum.toNat = config.replyWindow.toNat + config.inboundCapacity.toNat + 1 ∧
      config.minimum ≤ config.replyCapacity := by
  obtain ⟨hcheck, hmake⟩ := start_eq_ok_iff.mp h
  obtain ⟨-, -, hminimum, -⟩ := Config.check_eq_ok_iff.mp hcheck
  refine ⟨hmake, ?_, UInt64.le_iff_toNat_le.mpr hminimum⟩
  rw [Config.toNat_minimum]
  omega

/-- **Nobody is hung up for sending much at once.**  Take any state of a server whose configuration
was accepted, its three sizes being such that their sum is a size, and a connection that was never
left waiting for a key — whatever else it has sent, whether it reads or not, whatever all others do
and whoever has moved when.  A message that is on its way to it finds a place in its queue, unless
that is the last one, the connection has sent something that is no request, and the reply capacity
is the smallest that is allowed.  And it is not hung up, unless its replies cannot be written or
there was nothing left to read from it.

Fewer than 2⁶⁴ connections were accepted so far (`hfew`).  Numbers have 64 bits and come again after
that many, and the core, which goes by the numbers, sends a later connection the replies of the earlier
one with its number, too. -/
theorem room_of_neverWaits {config : Config} {start s : Server} {history : List (Envelope Nat)}
    (hstart : Server.start config = .ok start)
    (hwords : config.replyWindow.toNat + config.inboundCapacity.toNat + 1 < UInt64.size)
    (h : start.Reaches history s) (hfew : s.scenario.service.links.length < UInt64.size)
    {position : Nat} {l : Link} (hl : s.scenario.service.links[position]? = some l)
    (hwaits : Core.NeverWaits l.id history) :
    (∀ d ∈ s.scenario.service.pending, d.replier = position → l.outbound.isEnded = false →
      (d.message = .closed → .malformed ∈ Core.told l.id history →
        config.minimum < config.replyCapacity) →
      l.replies.isFull = false) ∧
    (l.hungUp = true → l.outbound.isEnded = true ∨ l.inbound = .ended) := by
  obtain ⟨hmake, hminimum, hcapacity⟩ := minimum_of_start hstart hwords
  obtain ⟨hwindow, hreplies⟩ := (h.bounds hmake).2 l (List.mem_of_getElem? hl)
  obtain ⟨scenario, hscenario, rfl⟩ := Option.map_eq_some_iff.mp hmake
  have hreaches := h.reaches hmake
  have hinbox := (hreaches.inbox_capacity hscenario).1
  rw [UInt64.le_iff_toNat_le, hminimum] at hcapacity
  have hspacious := hreaches.spacious hscenario hfew hl (by omega) hwaits
  refine ⟨fun d hd hreplier hthere hlast => ?_, hspacious.hungUp⟩
  have htalks := (hreaches.heard hscenario).talks hfew hl
  obtain ⟨hsize, hreply⟩ := hspacious.size_le htalks hthere
    (Core.mem_through_iff.mpr ⟨d, hd, hreplier, rfl⟩)
  rw [Queue.isFull, decide_eq_false_iff_not, Nat.not_le]
  by_cases hclosed : d.message = .closed
  · by_cases hmalformed : .malformed ∈ Core.told l.id history
    · have hmore := hlast hclosed hmalformed
      rw [UInt64.lt_iff_toNat_lt, hminimum] at hmore
      rw [if_pos hmalformed] at hsize
      omega
    · rw [if_neg hmalformed] at hsize
      omega
  · have hroom := hreply hclosed
    omega

theorem start_of_toOption {config : Config} {start : Server}
    (h : (Server.start config).toOption = some start) : Server.start config = .ok start := by
  cases hok : Server.start config with
  | error => rw [hok] at h; cases h
  | ok server => rw [hok] at h; cases h; rfl

theorem eq_singleton_of_head? {links : List Link} {l : Link} (hone : links.length = 1)
    (h : links.head? = some l) : links = [l] := by
  obtain ⟨only, rfl⟩ := List.length_eq_one_iff.mp hone
  cases h
  rfl

/-- For instance the smallest configuration there is, and a client that asks for a key and for a
counter and stops there.  When its inbound task looks at the window last, both answers are still to
come; nothing is taken out of the queue meanwhile.  The last message finds the last place. -/
theorem room_of_neverWaits_closing :
    let config : Config := { inboundCapacity := 1, replyWindow := 1, replyCapacity := 3 }
    let records := "[\"lock\",\"a\"]\n[\"get\",\"n\"]\n".toUTF8.toList
    let inbound (move : InboundMove) : Scenario.Move := .service (.inbound 0 move)
    let opening : List Move := [.accept 64, .inside (.service (.submit 0)), .inside (.service .take)]
    let moves : List Scenario.Move :=
      [.peer 0 (.feed 25), .peer 0 .halfClose,
        inbound .check, inbound (.fetch 25), inbound .decode, .service (.submit 0), .service .take,
        inbound .check, inbound .decode, .service (.submit 0), inbound .check, inbound .endOfInput,
        .service .deliver, .service .take, .service (.submit 0), .service .deliver, .service .take]
    ∃ start opened s history l, Server.start config = .ok start ∧
      config.replyWindow.toNat + config.inboundCapacity.toNat + 1 < UInt64.size ∧
      start.run? opening = some opened ∧
      ((opened.arrive 0 records).arriveEnd 0).run? (moves.map .inside) = some s ∧
      start.Reaches history s ∧ s.scenario.service.links = [l] ∧ Core.NeverWaits l.id history ∧
      l.outbound.isEnded = false ∧ config.minimum = config.replyCapacity ∧
      s.scenario.service.pending = [⟨⟨1⟩, 0, .closed⟩] ∧
      l.replies.items = [.reply .ok, .reply (.ofCounter Counter.zero)] ∧
      l.replies.isFull = false := by
  intro config records inbound opening moves
  have hend : (Server.start config).toOption.any (fun start =>
      (start.run? opening).any fun opened =>
        let waiting := (opened.arrive 0 records).arriveEnd 0
        (waiting.run? (moves.map .inside)).any fun s => s.scenario.service.links.head?.any fun l =>
          let history := start.handled opening ++ waiting.handled (moves.map .inside)
          s.scenario.service.links.length = 1 ∧ Core.NeverWaits l.id history ∧
          .malformed ∉ Core.told l.id history ∧ l.outbound.isEnded = false ∧
          s.scenario.service.pending = [⟨⟨1⟩, 0, .closed⟩] ∧
          l.replies.items = [.reply .ok, .reply (.ofCounter Counter.zero)]) = true := by
    decide +kernel
  obtain ⟨start, hstart, hend⟩ := (Option.any_eq_true _ _).mp hend
  obtain ⟨opened, hopened, hend⟩ := (Option.any_eq_true _ _).mp hend
  obtain ⟨s, hs, hend⟩ := (Option.any_eq_true _ _).mp hend
  obtain ⟨l, hl, hend⟩ := (Option.any_eq_true _ _).mp hend
  replace hstart := start_of_toOption hstart
  obtain ⟨hone, hwaits, hrequests, hthere, hpending, hitems⟩ := of_decide_eq_true hend
  have hreaches : start.Reaches
      (start.handled opening
        ++ ((opened.arrive 0 records).arriveEnd 0).handled (moves.map .inside)) s :=
    (((Reaches.start.run hopened).outside 0 _).outside 0 _).run hs
  have hlinks := eq_singleton_of_head? hone hl
  have hlink : s.scenario.service.links[0]? = some l := by rw [hlinks]; rfl
  have hroom :=
    room_of_neverWaits hstart (by decide) hreaches (by rw [hone]; decide) hlink hwaits
  refine ⟨start, opened, s, _, l, hstart, by decide, hopened, hs, hreaches, hlinks, hwaits, hthere,
    by decide, hpending, hitems, hroom.1 _ (hpending ▸ List.mem_cons_self) rfl hthere ?_⟩
  exact fun _ hmalformed => absurd hmalformed hrequests

/-- **The smallest reply capacity can be exceeded.**  The same configuration, and a client that asks
for a counter twice and then sends something that is no request; it reads, but nothing has been
taken out of its queue yet.  When its inbound task looks at the window last, one answer is on its
way, one request is in the inbox, and the task goes on to submit two things more: the refusal and
the closing.  So the last message finds the queue full, the connection is hung up, its outbound task
gives up, and none of its three replies is ever written. -/
theorem exists_overflow :
    let config : Config := { inboundCapacity := 1, replyWindow := 1, replyCapacity := 3 }
    let records := "[\"get\",\"n\"]\n[\"get\",\"n\"]\n[]\n".toUTF8.toList
    let value : Outbound := .reply (.ofCounter Counter.zero)
    let inbound (move : InboundMove) : Scenario.Move := .service (.inbound 0 move)
    let pass : List Scenario.Move := [.service .deliver, .service .take, .service (.submit 0)]
    let opening : List Move := [.accept 64, .inside (.service (.submit 0)), .inside (.service .take)]
    let moves : List Scenario.Move :=
      [.peer 0 (.feed 27),
        inbound .check, inbound (.fetch 27), inbound .decode, .service (.submit 0), .service .take,
        inbound .check, inbound .decode, .service (.submit 0), inbound .check, inbound .decode]
      ++ pass ++ pass ++ [.service .deliver, .service .take]
    ∃ start opened s history l s' l', Server.start config = .ok start ∧
      config.replyWindow.toNat + config.inboundCapacity.toNat + 1 < UInt64.size ∧
      start.run? opening = some opened ∧
      (opened.arrive 0 records).run? (moves.map .inside) = some s ∧
      start.Reaches history s ∧ s.scenario.service.links = [l] ∧ Core.NeverWaits l.id history ∧
      l.outbound.isEnded = false ∧ l.hungUp = false ∧
      s.scenario.service.pending = [⟨⟨1⟩, 0, .closed⟩] ∧
      l.replies.items = [value, value, .reply (.ofRefusal .malformed)] ∧ l.replies.isFull = true ∧
      s.run? [.inside (.service .deliver), .inside (.service (.outbound 0 .look))] = some s' ∧
      s'.scenario.service.links = [l'] ∧ l'.hungUp = true ∧ l'.outbound.isEnded = true ∧
      l'.toPeer.bytes = [] ∧ s'.scenario.peers.map (·.heard) = [[]] := by
  intro config records value inbound pass opening moves
  have hend : (Server.start config).toOption.any (fun start =>
      (start.run? opening).any fun opened =>
        let waiting := opened.arrive 0 records
        (waiting.run? (moves.map .inside)).any fun s => s.scenario.service.links.head?.any fun l =>
          (s.run? [.inside (.service .deliver), .inside (.service (.outbound 0 .look))]).any fun s' =>
            s'.scenario.service.links.head?.any fun l' =>
              s.scenario.service.links.length = 1 ∧
              Core.NeverWaits l.id
                (start.handled opening ++ waiting.handled (moves.map .inside)) ∧
              l.outbound.isEnded = false ∧ l.hungUp = false ∧
              s.scenario.service.pending = [⟨⟨1⟩, 0, .closed⟩] ∧
              l.replies.items = [value, value, .reply (.ofRefusal .malformed)] ∧
              l.replies.isFull = true ∧ s'.scenario.service.links.length = 1 ∧
              l'.hungUp = true ∧ l'.outbound.isEnded = true ∧ l'.toPeer.bytes = [] ∧
              s'.scenario.peers.map (·.heard) = [[]]) = true := by
    decide +kernel
  obtain ⟨start, hstart, hend⟩ := (Option.any_eq_true _ _).mp hend
  obtain ⟨opened, hopened, hend⟩ := (Option.any_eq_true _ _).mp hend
  obtain ⟨s, hs, hend⟩ := (Option.any_eq_true _ _).mp hend
  obtain ⟨l, hl, hend⟩ := (Option.any_eq_true _ _).mp hend
  obtain ⟨s', hs', hend⟩ := (Option.any_eq_true _ _).mp hend
  obtain ⟨l', hl', hend⟩ := (Option.any_eq_true _ _).mp hend
  obtain ⟨hone, hwaits, hthere, hdown, hpending, hitems, hfull, hone', hlost⟩ :=
    of_decide_eq_true hend
  have hreaches : start.Reaches
      (start.handled opening ++ (opened.arrive 0 records).handled (moves.map .inside)) s :=
    ((Reaches.start.run hopened).outside 0 _).run hs
  exact ⟨start, opened, s, _, l, s', l', start_of_toOption hstart, by decide, hopened, hs, hreaches,
    eq_singleton_of_head? hone hl, hwaits, hthere, hdown, hpending, hitems, hfull, hs',
    eq_singleton_of_head? hone' hl', hlost⟩

end Server

end LockService
