import LockService.Proofs.Connection.Gaps

/-!
# Replies written in batches

The outbound task does not send off every reply by itself.  It flushes its buffer when it finds the queue
empty, a queue that the core goes on filling while it looks.  And it does not flush behind the last reply
if `closed` is queued already, but leaves that to the end of the stream.  No reply gets stuck by this,
none is written twice, and nothing is written behind `closed`.

* `Link.Batching` — what was delivered is what was taken and what is queued, until `closed` was taken; the
  replies that were taken are on the stream, in the buffer or in hand; and a task that waits for a message
  has nothing in its buffer unless a message is queued.
* `Batching.awakeStep`, `Batching.receive` — the moves of the task and the deliveries of the core keep
  that, as long as nothing fails and the connection is not hung up.
* **`Exchange.batches_complete`** — what follows in a whole run for the bytes on the stream.
-/

namespace LockService

/-- Whether the outbound task has taken the last message. -/
def OutboundPhase.hasClosed : OutboundPhase → Bool
  | took .closed | shutting | ended => true
  | taking | took (.reply _) | writing _ | clearing _ | wrote | flushing => false

namespace Link

/-- What holds of a link of which the peer has read some bytes, when the core has delivered some messages
and the outbound task has taken some of them that are replies. -/
structure Batching (l : Link) (received : List UInt8) (messages : List Outbound)
    (taken : List Reply) : Prop where
  committed : received ++ l.committed = taken.flatMap Record.bytes
  queued : l.outbound.hasClosed = false → messages = taken.map .reply ++ l.replies.items
  closed : l.outbound.hasClosed = true →
    ∃ behind, messages = taken.map .reply ++ .closed :: behind
  flushed : l.outbound = .taking → l.unsent = [] ∨ l.replies.items ≠ []
  spent : l.outbound = .ended → l.unsent = []

section

variable {l l' : Link} {received : List UInt8} {messages : List Outbound} {taken : List Reply}

/-- A link that has the same messages before it and the same bytes behind it. -/
theorem Batching.congr (h : l.Batching received messages taken)
    (hcommitted : l'.committed = l.committed)
    (hclosed : l'.outbound.hasClosed = l.outbound.hasClosed)
    (hitems : l'.replies.items = l.replies.items)
    (hflushed : l'.outbound = .taking → l'.unsent = [] ∨ l'.replies.items ≠ [])
    (hspent : l'.outbound = .ended → l'.unsent = []) : l'.Batching received messages taken where
  committed := by rw [hcommitted, h.committed]
  queued hopen := by rw [hitems]; exact h.queued (hclosed ▸ hopen)
  closed hlast := h.closed (hclosed ▸ hlast)
  flushed := hflushed
  spent := hspent

/-- The same on the way from one message to the next. -/
theorem Batching.onward (h : l.Batching received messages taken)
    (hcommitted : l'.committed = l.committed)
    (hclosed : l'.outbound.hasClosed = l.outbound.hasClosed)
    (hitems : l'.replies.items = l.replies.items) (htaking : l'.outbound ≠ .taking)
    (hended : l'.outbound ≠ .ended) : l'.Batching received messages taken :=
  h.congr hcommitted hclosed hitems (fun hat => absurd hat htaking) fun hat => absurd hat hended

/-- What touches neither the outbound task nor its queue and its buffer. -/
theorem Batching.aside (h : l.Batching received messages taken)
    (houtbound : l'.outbound = l.outbound) (htoPeer : l'.toPeer = l.toPeer)
    (hunsent : l'.unsent = l.unsent) (hreplies : l'.replies = l.replies) :
    l'.Batching received messages taken := by
  refine h.congr ?_ (by rw [houtbound]) (by rw [hreplies]) ?_ ?_
  · simp only [Link.committed, inHand, houtbound, htoPeer, hunsent]
  · rw [houtbound, hunsent, hreplies]
    exact h.flushed
  · rw [houtbound, hunsent]
    exact h.spent

/-- The task takes a message: a reply is in hand then, and `closed` is the last one. -/
theorem Batching.take (h : l.Batching received messages taken) {message : Outbound}
    {rest : List Outbound} (hat : l.outbound = .taking) (hitems : l.replies.items = message :: rest) :
    ∃ more, ({ l with
        replies := { l.replies with items := rest }
        outbound := .took message } : Link).Batching received messages (taken ++ more) := by
  have hmessages := h.queued (by rw [hat]; rfl)
  have hcommitted := h.committed
  simp only [Link.committed, inHand, hat, List.append_nil] at hcommitted
  rw [hitems] at hmessages
  cases message with
  | reply r =>
      refine ⟨[r], ?_, fun _ => ?_, by simp [OutboundPhase.hasClosed], by simp, by simp⟩
      · simp only [Link.committed, inHand, Outbound.bytes, List.flatMap_append, ← hcommitted]
        simp
      · rw [hmessages]
        simp
  | closed =>
      refine ⟨[], ?_, by simp [OutboundPhase.hasClosed], fun _ => ⟨rest, ?_⟩, by simp, by simp⟩
      · simp [Link.committed, inHand, Outbound.bytes, ← hcommitted]
      · rw [hmessages, List.append_nil]

/-- **One move of the task.** -/
theorem Batching.awakeStep (h : l.Batching received messages taken) {move : OutboundMove}
    (hstep : l.AwakeStep move l') (hmove : move ≠ .fail) :
    ∃ more, l'.Batching received messages (taken ++ more) := by
  have hsame : l'.Batching received messages taken →
      ∃ more, l'.Batching received messages (taken ++ more) := fun h' =>
    ⟨[], by rw [List.append_nil]; exact h'⟩
  cases hstep with
  | suspend => exact hsame (h.aside rfl rfl rfl rfl)
  | take hat hitems => exact h.take hat hitems
  | @notify message hat =>
      obtain ⟨inbound, permit, hnotify⟩ := l.notify_eq
      rw [hnotify] at hsame ⊢
      refine hsame ?_
      cases message with
      | reply | closed =>
          exact h.onward (by simp [Link.committed, inHand, hat, OutboundPhase.ofMessage, Outbound.bytes])
            (by rw [hat]; rfl) rfl (by simp [OutboundPhase.ofMessage]) (by simp [OutboundPhase.ofMessage])
  | buffer hat | clear hat | drain hat | resume hat =>
      exact hsame (h.onward (by simp [Link.committed, inHand, hat]) (by rw [hat]; rfl) rfl (by simp)
        (by simp))
  | spillPart hat hunsent | spillRest hat hunsent =>
      exact hsame (h.onward (by simp [Link.committed, inHand, hat, hunsent, Pipe.write])
        (by rw [hat]; rfl) rfl (by simp) (by simp))
  | spillBuffered hat =>
      refine hsame (h.onward (by simp [Link.committed, inHand, Pipe.write]) rfl rfl ?_ ?_)
      · intro htaking
        rw [show l.outbound = .taking from htaking] at hat
        cases hat
      · intro hended
        rw [show l.outbound = .ended from hended] at hat
        cases hat
  | proceed hat hitems =>
      -- the buffer may be full, but there is a message to go on with
      exact hsame (h.congr (by simp [Link.committed, inHand, hat]) (by rw [hat]; rfl) rfl
        (fun _ => .inr hitems) (by simp))
  | flushed hat hunsent =>
      exact hsame (h.congr (by simp [Link.committed, inHand, hat]) (by rw [hat]; rfl) rfl
        (fun _ => .inl hunsent) (by simp))
  | finish hat hunsent =>
      -- what is queued behind `closed` is thrown away
      have hcommitted := h.committed
      refine hsame ⟨?_, by simp [endOutbound, OutboundPhase.hasClosed],
        fun _ => h.closed (by rw [hat]; rfl), by simp [endOutbound], fun _ => rfl⟩
      rw [← hcommitted]
      simp [Link.committed, inHand, hat, hunsent, endOutbound, Pipe.close]
  | fail => exact absurd rfl hmove

/-- **One message from the core.** -/
theorem Batching.receive (h : l.Batching received messages taken) {message : Outbound}
    (hdown : (l.receive message).hungUp = false) :
    (l.receive message).Batching received (messages ++ [message]) taken := by
  have hbehind : l.outbound.hasClosed = true →
      ∃ behind, messages ++ [message] = taken.map .reply ++ .closed :: behind := by
    intro hlast
    obtain ⟨behind, hmessages⟩ := h.closed hlast
    exact ⟨behind ++ [message], by rw [hmessages]; simp⟩
  cases hthere : l.outbound.isEnded with
  | true =>
      have hlast : l.outbound.hasClosed = true := by
        cases hat : l.outbound <;> simp_all [OutboundPhase.isEnded, OutboundPhase.hasClosed]
      have heq : l.receive message = l := by simp [Link.receive, hthere]
      rw [heq]
      exact ⟨h.committed, fun hopen => absurd (hopen.symm.trans hlast) Bool.false_ne_true, hbehind, h.flushed,
        h.spent⟩
  | false =>
      rw [receive_eq hthere hdown]
      refine ⟨h.committed, fun hopen => ?_, hbehind, fun _ => .inr (by simp), h.spent⟩
      rw [h.queued hopen, List.append_assoc]

end

end Link

namespace Exchange

/-- The messages that the core delivers in a run, dropped or not. -/
def messages (events : List Event) : List Outbound :=
  events.filterMap fun
    | .deliver message => some message
    | .inbound _ | .outbound _ | .submit | .desert | .peer _ => none

/-- Whether an event is no failed write, and leaves somebody who can send messages. -/
def Event.isCalm : Event → Bool
  | .outbound .fail | .desert => false
  | _ => true

section

variable {x x' : Exchange} {event : Event} {said : List Outbound} {taken : List Reply}

theorem messages_cons (event : Event) (rest : List Event) :
    messages (event :: rest) = messages [event] ++ messages rest := by
  rw [messages, messages, messages, ← List.filterMap_append]
  rfl

/-- A hang-up is for good. -/
theorem hungUp_step (h : x.step? event = some x') (hup : x.link.hungUp = true) :
    x'.link.hungUp = true := by
  cases event with
  | deliver message =>
      cases h
      exact Link.hungUp_receive message hup
  | inbound move =>
      obtain ⟨l', hl', rfl⟩ := Option.map_eq_some_iff.mp h
      exact (Link.hungUp_inboundStep (.of_eq hl')).trans hup
  | outbound move =>
      obtain ⟨l', hl', rfl⟩ := Option.map_eq_some_iff.mp h
      exact Link.hungUp_outboundStep (.of_eq hl') hup
  | submit =>
      obtain ⟨⟨e, l'⟩, hl', rfl⟩ := Option.map_eq_some_iff.mp h
      exact (Link.hungUp_submission hl').trans hup
  | desert =>
      obtain ⟨l', hl', rfl⟩ := Option.map_eq_some_iff.mp h
      exact (Link.hungUp_desert hl').trans hup
  | peer move =>
      obtain ⟨⟨p', l'⟩, hl', rfl⟩ := Option.map_eq_some_iff.mp h
      exact (Link.hungUp_peerStep (Peer.step?_eq_some_iff.mp hl')).trans hup

theorem hungUp_run {events : List Event} (h : x.run? events = some x')
    (hdown : x'.link.hungUp = false) : x.link.hungUp = false := by
  induction events generalizing x with
  | nil =>
      cases h
      exact hdown
  | cons event rest ih =>
      rw [run?, List.foldlM_cons] at h
      obtain ⟨next, hnext, hrest⟩ := Option.bind_eq_some_iff.mp h
      have hdown' := ih hrest
      cases hup : x.link.hungUp with
      | false => rfl
      | true => exact absurd (hdown'.symm.trans (hungUp_step hnext hup)) Bool.false_ne_true

/-- **One event.** -/
theorem batching_step (h : x.link.Batching x.peer.received said taken)
    (hstep : x.step? event = some x') (hcalm : event.isCalm = true)
    (hdown : x'.link.hungUp = false) :
    ∃ more, x'.link.Batching x'.peer.received (said ++ messages [event]) (taken ++ more) := by
  have hsame : ∀ {x' : Exchange}, x'.link.Batching x'.peer.received said taken →
      ∃ more, x'.link.Batching x'.peer.received (said ++ []) (taken ++ more) := fun h' =>
    ⟨[], by rw [List.append_nil, List.append_nil]; exact h'⟩
  cases event with
  | deliver message =>
      cases hstep
      exact ⟨[], by rw [List.append_nil]; exact h.receive hdown⟩
  | inbound move =>
      obtain ⟨l', hl', rfl⟩ := Option.map_eq_some_iff.mp hstep
      cases Link.InboundStep.of_eq hl' <;> exact hsame (h.aside rfl rfl rfl rfl)
  | outbound move =>
      obtain ⟨l', hl', rfl⟩ := Option.map_eq_some_iff.mp hstep
      have hmove : move ≠ .fail := by
        rintro rfl
        cases hcalm
      cases Link.OutboundStep.of_eq hl' with
      | giveUp _ hhung => exact absurd (hdown.symm.trans hhung) Bool.false_ne_true
      | rouse => exact hsame (h.aside rfl rfl rfl rfl)
      | awake _ hawake =>
          obtain ⟨more, hmore⟩ := h.awakeStep hawake hmove
          exact ⟨more, by rw [messages, List.filterMap_cons_none rfl, List.filterMap_nil,
            List.append_nil]; exact hmore⟩
  | submit =>
      obtain ⟨⟨e, l'⟩, hl', rfl⟩ := Option.map_eq_some_iff.mp hstep
      obtain ⟨inbound, rfl, -⟩ := Link.exists_of_submission hl'
      exact hsame (h.aside rfl rfl rfl rfl)
  | desert => cases hcalm
  | peer move =>
      obtain ⟨⟨p', l'⟩, hl', rfl⟩ := Option.map_eq_some_iff.mp hstep
      have hpeer := Peer.step?_eq_some_iff.mp hl'
      have hcommitted := Link.received_append_committed_peerStep hpeer
      refine hsame ?_
      cases hpeer <;> exact { h with committed := hcommitted.trans h.committed }

/-- A whole run. -/
theorem batching_run {events : List Event} (h : x.link.Batching x.peer.received said taken)
    (hrun : x.run? events = some x') (hcalm : ∀ event ∈ events, event.isCalm = true)
    (hdown : x'.link.hungUp = false) :
    ∃ more, x'.link.Batching x'.peer.received (said ++ messages events) (taken ++ more) := by
  induction events generalizing x said taken with
  | nil =>
      cases hrun
      exact ⟨[], by rw [messages, List.filterMap_nil, List.append_nil, List.append_nil]; exact h⟩
  | cons event rest ih =>
      rw [run?, List.foldlM_cons] at hrun
      obtain ⟨next, hnext, hrest⟩ := Option.bind_eq_some_iff.mp hrun
      obtain ⟨more, hmore⟩ := batching_step h hnext (hcalm event List.mem_cons_self)
        (hungUp_run hrest hdown)
      obtain ⟨yet, hyet⟩ := ih hmore hrest fun e he => hcalm e (List.mem_cons_of_mem _ he)
      refine ⟨more ++ yet, ?_⟩
      rw [messages_cons, ← List.append_assoc, ← List.append_assoc]
      exact hyet

end

/-! ## What follows for the stream -/

section

variable {taken replies : List Reply} {behind more : List Outbound}

/-- Replies that come before a `closed` come before the first one. -/
theorem isPrefix_of_map_reply (h : taken.map .reply <+: replies.map .reply ++ .closed :: behind) :
    taken <+: replies := by
  induction taken generalizing replies with
  | nil => exact List.nil_prefix
  | cons r taken ih =>
      cases replies with
      | nil => simp at h
      | cons s replies =>
          rw [List.map_cons, List.map_cons, List.cons_append, List.cons_prefix_cons] at h
          obtain ⟨heq, h⟩ := h
          cases heq
          exact List.cons_prefix_cons.mpr ⟨rfl, ih h⟩

theorem eq_of_map_reply (h : taken.map Outbound.reply ++ .closed :: more
    <+: replies.map .reply ++ .closed :: behind) : taken = replies := by
  induction taken generalizing replies with
  | nil =>
      cases replies with
      | nil => rfl
      | cons s replies => simp at h
  | cons r taken ih =>
      cases replies with
      | nil => simp at h
      | cons s replies =>
          rw [List.map_cons, List.map_cons, List.cons_append, List.cons_append,
            List.cons_prefix_cons] at h
          obtain ⟨heq, h⟩ := h
          cases heq
          rw [ih h]

end

/-- **Batches lose and delay nothing.**  Some replies, then `closed`, and possibly more behind it are
delivered to a link with a buffer of any size, in a run in which no write fails, the link is not hung up
and whoever can send messages does not go away before; all events come in any order.

* What was written is at any time the beginning of the replies, so nothing is written from behind
  `closed`.
* Whenever the outbound task waits on an empty queue, all replies that were delivered by then are on the
  stream, and nothing is left in the buffer.
* When the task has ended, exactly the replies are on the stream, in the order in which they were
  delivered. -/
theorem batches_complete {id : ConnectionId} {limits : ReplyLimits} {buffer : Nat} {link : Link}
    (hlink : Link.make? id limits buffer = some link) (size : Nat) {peer : Peer}
    (hpeer : peer.heard = []) {replies : List Reply} {behind : List Outbound} {events : List Event}
    (hmessages : messages events <+: replies.map .reply ++ .closed :: behind) {x : Exchange}
    (hrun : run? ⟨{ link with bufferSize := size }, peer⟩ events = some x)
    (hcalm : ∀ event ∈ events, event.isCalm = true) (hdown : x.link.hungUp = false) :
    x.written <+: replies.flatMap Record.bytes ∧
    (x.link.outbound = .taking → x.link.replies.items = [] →
      ∃ told, told <+: replies ∧ messages events = told.map .reply ∧ x.link.unsent = [] ∧
        x.written = told.flatMap Record.bytes) ∧
    (x.link.outbound = .ended → x.written = replies.flatMap Record.bytes) := by
  have hstart : ({ link with bufferSize := size } : Link).Batching peer.received [] [] := by
    obtain ⟨queue, hqueue, rfl⟩ := Option.map_eq_some_iff.mp hlink
    obtain ⟨-, rfl⟩ := Queue.eq_of_make? hqueue
    exact ⟨by simp [Peer.received, hpeer, Link.committed, Link.inHand], fun _ => rfl, nofun,
      fun _ => .inl rfl, nofun⟩
  obtain ⟨taken, h⟩ := batching_run hstart hrun hcalm hdown
  rw [List.nil_append, List.nil_append] at h
  have htold : taken.map .reply <+: messages events := by
    cases hlast : x.link.outbound.hasClosed with
    | false =>
        rw [h.queued hlast]
        exact List.prefix_append _ _
    | true =>
        obtain ⟨more, hmore⟩ := h.closed hlast
        rw [hmore]
        exact List.prefix_append _ _
  have htaken : taken <+: replies := isPrefix_of_map_reply (htold.trans hmessages)
  refine ⟨?_, fun hat hitems => ?_, fun hat => ?_⟩
  · have hcommitted : x.written <+: taken.flatMap Record.bytes := by
      rw [← h.committed, Link.committed, List.append_assoc, ← List.append_assoc]
      exact List.prefix_append _ _
    obtain ⟨rest, rfl⟩ := htaken
    rw [List.flatMap_append]
    exact hcommitted.trans (List.prefix_append _ _)
  · have hunsent : x.link.unsent = [] := (h.flushed hat).resolve_right fun hne => hne hitems
    refine ⟨taken, htaken, ?_, hunsent, ?_⟩
    · rw [h.queued (by rw [hat]; rfl), hitems, List.append_nil]
    · rw [← h.committed, written, Link.committed, Link.inHand, hat, hunsent, List.append_nil,
        List.append_nil]
  · obtain ⟨more, hmore⟩ := h.closed (by rw [hat]; rfl)
    rw [hmore] at hmessages
    rw [← eq_of_map_reply hmessages, ← h.committed, written, Link.committed, Link.inHand, hat,
      h.spent hat, List.append_nil, List.append_nil]

/-- For instance a value, a success and `closed` are queued, and a success behind it, in front of a buffer
that has no place for two replies.  The second one is written when the stream is closed. -/
theorem batches_complete_closing :
    let replies : List Reply := [.ofCounter Counter.zero, .ok]
    let events : List Event :=
      [.deliver (.reply (.ofCounter Counter.zero)), .outbound .look, .deliver (.reply .ok),
        .outbound .take, .deliver .closed, .outbound .notify, .outbound .buffer, .outbound .test,
        .deliver (.reply .ok), .outbound .take, .outbound .notify, .outbound .clear,
        .outbound (.spill 28), .outbound .flushed, .peer (.drink 20), .outbound .buffer,
        .outbound .test, .outbound .take, .outbound .notify, .outbound (.spill 16),
        .outbound .finish]
    ∃ link x, Link.make? ⟨1⟩ ⟨1, 4⟩ 64 = some link ∧
      messages events <+: replies.map .reply ++ .closed :: [.reply .ok] ∧
      run? ⟨{ link with bufferSize := 32 }, {}⟩ events = some x ∧
      (∀ event ∈ events, event.isCalm = true) ∧ x.link.hungUp = false ∧ x.link.outbound = .ended ∧
      x.written = replies.flatMap Record.bytes := by
  intro replies events
  have hend : (Link.make? ⟨1⟩ ⟨1, 4⟩ 64).any (fun link =>
      (run? ⟨{ link with bufferSize := 32 }, {}⟩ events).any fun x =>
        !x.link.hungUp && x.link.outbound.isEnded) = true := by
    decide +kernel
  obtain ⟨link, hlink, hend⟩ := (Option.any_eq_true _ _).mp hend
  obtain ⟨x, hx, hend⟩ := (Option.any_eq_true _ _).mp hend
  rw [Bool.and_eq_true, Bool.not_eq_true'] at hend
  obtain ⟨hdown, hended⟩ := hend
  have hat : x.link.outbound = .ended := by
    cases hat : x.link.outbound <;> simp_all [OutboundPhase.isEnded]
  have hmessages : messages events <+: replies.map .reply ++ .closed :: [.reply .ok] :=
    List.prefix_rfl
  have hcalm : ∀ event ∈ events, event.isCalm = true := by decide
  exact ⟨link, x, hlink, hmessages, hx, hcalm, hdown, hat,
    (batches_complete hlink 32 rfl hmessages hx hcalm hdown).2.2 hat⟩

end Exchange

end LockService
