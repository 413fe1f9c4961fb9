import LockService.Proofs.Connection.Conversations
import LockService.Proofs.Connection.Flow

/-!
# Gaps in the replies of a connection

Replies carry no number, so a client that misses one and hears the next takes it for the answer to
another request.  A reply that finds the queue of its link full is dropped and the link is hung up,
and the hang-up is there to keep every later reply from being written.

Whether it does is a matter of time.  The outbound task looks at the flag when it is resumed, and not
again before it has to wait.  If a reply is dropped while the task waits then the task will find the
flag up and write nothing more.  If it is dropped while the task is at work, the task may go on to take
a message, which makes room, and a later reply that is queued then is written, too.

* `Exchange` — a link and its peer, with everything that can happen to them, in any order.
* `Exchange.timely` — no reply is dropped while the outbound task is at work.
* **`Exchange.written_isPrefix`** — in a timely run the bytes on the stream are the beginning of the
  bytes of the replies that were delivered.
* **`Server.exists_gap`** — a server whose configuration is accepted can get to where a reply is
  missing in front of another one.
-/

namespace LockService

/-- A link and its peer. -/
structure Exchange where
  link : Link
  peer : Peer

namespace Exchange

/-- What can happen to a link and its peer.

* `deliver` — the core delivers a message.
* `inbound`, `outbound` — a task makes a move.
* `submit` — the inbound task passes on what it has for the core.
* `desert` — the outbound task finds that nobody is left who could send it messages.
* `peer` — the peer makes a move. -/
inductive Event
  | deliver (message : Outbound)
  | inbound (move : InboundMove)
  | outbound (move : OutboundMove)
  | submit
  | desert
  | peer (move : PeerMove)
deriving DecidableEq, Repr

/-- A link and its peer after something happened to them, if it can happen now. -/
def step? (x : Exchange) : Event → Option Exchange
  | .deliver message => some { x with link := x.link.receive message }
  | .inbound move => (x.link.inboundStep? move).map ({ x with link := · })
  | .outbound move => (x.link.outboundStep? move).map ({ x with link := · })
  | .submit => (x.link.submission? ()).map fun (_, link) => { x with link }
  | .desert => x.link.desert?.map ({ x with link := · })
  | .peer move => (x.peer.step? x.link move).map fun (peer, link) => { link, peer }

/-- A link and its peer after some events one after the other, if all of them can happen. -/
def run? (x : Exchange) (events : List Event) : Option Exchange :=
  events.foldlM step? x

/-- The bytes that were ever written to the stream: those that the peer has read, and those under
way. -/
def written (x : Exchange) : List UInt8 :=
  x.peer.received ++ x.link.toPeer.bytes

/-- The bytes of the replies that the core delivers in a run, dropped or not. -/
def delivered (events : List Event) : List UInt8 :=
  events.flatMap fun
    | .deliver message => message.bytes
    | .inbound _ | .outbound _ | .submit | .desert | .peer _ => []

/-- Whether an event is no message that finds the queue full while the outbound task is at work and
would have to look at the flag. -/
def isTimely (x : Exchange) : Event → Bool
  | .deliver _ => !(x.link.awake && x.link.outbound.heedsHangUp && x.link.replies.isFull)
  | .inbound _ | .outbound _ | .submit | .desert | .peer _ => true

/-- Whether no message finds the queue full while the outbound task is at work. -/
def timely (x : Exchange) : List Event → Bool
  | [] => true
  | event :: rest =>
    x.isTimely event &&
      match x.step? event with
      | none => true
      | some next => next.timely rest

end Exchange

namespace Link

/-- The bytes that the outbound task has taken and not lost: those on the stream, in the buffer, and
of the reply at hand. -/
def committed (l : Link) : List UInt8 :=
  l.toPeer.bytes ++ l.unsent ++ l.inHand

/-- Whether the outbound task takes nothing more: it closes the stream or is gone, or it waits and
will find the flag up. -/
def hasStopped (l : Link) : Bool :=
  !l.outbound.heedsHangUp || (!l.awake && l.hungUp)

section

variable {l l' : Link}

theorem underway_eq (l : Link) :
    l.underway = l.committed ++ l.replies.items.flatMap Outbound.bytes := rfl

theorem hasStopped_iff : l.hasStopped = true
    ↔ l.outbound.heedsHangUp = false ∨ l.awake = false ∧ l.hungUp = true := by
  simp [hasStopped]

/-- Giving up loses what was not on the stream yet. -/
theorem committed_endOutbound (l : Link) : l.endOutbound.committed <+: l.committed := by
  rw [committed, committed, List.append_assoc]
  simp [endOutbound, inHand]

theorem hasStopped_endOutbound (l : Link) : l.endOutbound.hasStopped = true := rfl

theorem committed_failWrite (h : l.failWrite = some l') : l'.committed <+: l.committed := by
  rcases failWrite_cases h with rfl | ⟨-, rfl⟩
  · exact l.committed_endOutbound
  · exact l.committed_endOutbound

theorem hasStopped_failWrite (h : l.failWrite = some l') : l'.hasStopped = true := by
  rcases failWrite_cases h with rfl | ⟨-, rfl⟩ <;> rfl

/-- A task that has stopped and is at work is closing the stream: it only sends off what it has. -/
theorem stopped_awakeStep {move : OutboundMove} (h : l.AwakeStep move l') (hawake : l.awake = true)
    (hstopped : l.hasStopped = true) : l'.hasStopped = true ∧ l'.committed <+: l.committed := by
  have hclosing : l.outbound.heedsHangUp = false := by
    rcases hasStopped_iff.mp hstopped with hclosing | ⟨hasleep, -⟩
    · exact hclosing
    · exact absurd (hawake.symm.trans hasleep) nofun
  have hbusy : l.outbound.heedsHangUp ≠ true := by rw [hclosing]; exact Bool.false_ne_true
  cases h with
  | suspend => exact ⟨hasStopped_iff.mpr (.inl hclosing), List.prefix_rfl⟩
  | take hat => exact absurd (by rw [hat]; rfl) hbusy
  | notify hat => exact absurd (by rw [hat]; rfl) hbusy
  | buffer hat => exact absurd (by rw [hat]; rfl) hbusy
  | clear hat => exact absurd (by rw [hat]; rfl) hbusy
  | spillPart hat => exact absurd (by rw [hat]; rfl) hbusy
  | spillRest hat => exact absurd (by rw [hat]; rfl) hbusy
  | spillBuffered =>
      refine ⟨hasStopped_iff.mpr (.inl hclosing), ?_⟩
      simp [committed, inHand, Pipe.write]
  | drain hat => exact absurd (by rw [hat]; rfl) hbusy
  | proceed hat => exact absurd (by rw [hat]; rfl) hbusy
  | resume hat => exact absurd (by rw [hat]; rfl) hbusy
  | flushed hat => exact absurd (by rw [hat]; rfl) hbusy
  | finish => exact ⟨rfl, l.committed_endOutbound⟩
  | fail hfail => exact ⟨hasStopped_failWrite hfail, committed_failWrite hfail⟩

/-- Nothing is taken when a message is delivered. -/
theorem committed_receive (l : Link) (message : Outbound) :
    (l.receive message).committed = l.committed := by
  rcases l.receive_cases message with ⟨-, heq⟩ | ⟨-, heq⟩ | heq <;> rw [heq] <;> rfl

theorem hasStopped_receive (message : Outbound) (h : l.hasStopped = true) :
    (l.receive message).hasStopped = true := by
  rcases l.receive_cases message with ⟨-, heq⟩ | ⟨-, heq⟩ | heq <;> rw [heq]
  · exact h
  · exact h
  · rw [hasStopped_iff] at h ⊢
    exact h.imp_right fun h => ⟨h.1, rfl⟩

theorem receive_of_isFull (hthere : l.outbound.isEnded = false) (hfull : l.replies.isFull = true)
    (message : Outbound) : l.receive message = { l with hungUp := true } := by
  simp [receive, hthere, Queue.push?, hfull]

theorem receive_of_room (hthere : l.outbound.isEnded = false) (hroom : l.replies.isFull = false)
    (message : Outbound) : l.receive message
      = { l with replies := { l.replies with items := l.replies.items ++ [message] } } := by
  simp [receive, hthere, Queue.push?, hroom]

/-- Reading changes nothing about what was taken. -/
theorem received_append_committed_peerStep {p p' : Peer} {move : PeerMove}
    (h : p.Step l move p' l') : p'.received ++ l'.committed = p.received ++ l.committed := by
  cases h with
  | @drink count =>
      have hfront := l.toPeer.front_append_bytes_read count
      simp only [Peer.received, List.reverse_append, List.reverse_reverse, List.append_assoc,
        committed]
      rw [← hfront]
      simp [inHand]
  | feed => rfl
  | halfClose => rfl
  | seeEnd => rfl
  | vanish => rfl

end

end Link

namespace Exchange

/-- What holds of an exchange in which no gap has come up and none can, when the core has delivered
replies of some bytes: what was taken is the beginning of them, and unless the task takes nothing
more it is still going to write all of them. -/
structure Seamless (x : Exchange) (bytes : List UInt8) : Prop where
  committed : x.peer.received ++ x.link.committed <+: bytes
  complete : x.link.hasStopped = true ∨ x.peer.received ++ x.link.underway = bytes

section

variable {x : Exchange} {bytes : List UInt8}

theorem seamless_of_complete (h : x.peer.received ++ x.link.underway = bytes) :
    x.Seamless bytes where
  committed := ⟨x.link.replies.items.flatMap Outbound.bytes, by
    rw [List.append_assoc, ← Link.underway_eq, h]⟩
  complete := .inr h

theorem Seamless.of_stopped {x' : Exchange} (h : x.Seamless bytes)
    (hstopped : x'.link.hasStopped = true)
    (hcommitted : x'.peer.received ++ x'.link.committed <+: x.peer.received ++ x.link.committed) :
    x'.Seamless bytes :=
  ⟨hcommitted.trans h.committed, .inl hstopped⟩

/-- A message that is dropped stops the task, if that is not at work. -/
theorem Seamless.deliver (h : x.Seamless bytes) {message : Outbound}
    (htimely : x.isTimely (.deliver message) = true) :
    ({ x with link := x.link.receive message } : Exchange).Seamless (bytes ++ message.bytes) where
  committed := by
    rw [Link.committed_receive]
    exact h.committed.trans (List.prefix_append ..)
  complete := by
    rcases h.complete with hstopped | hcomplete
    · exact .inl (Link.hasStopped_receive message hstopped)
    cases hended : x.link.outbound.isEnded with
    | true =>
        refine .inl (Link.hasStopped_receive message (Link.hasStopped_iff.mpr (.inl ?_)))
        cases hat : x.link.outbound <;> simp_all [OutboundPhase.isEnded, OutboundPhase.heedsHangUp]
    | false =>
        cases hfull : x.link.replies.isFull with
        | true =>
            rw [isTimely, hfull, Bool.and_true, Bool.not_eq_true', Bool.and_eq_false_iff] at htimely
            rw [Link.receive_of_isFull hended hfull]
            exact .inl (Link.hasStopped_iff.mpr (htimely.symm.imp_right fun h => ⟨h, rfl⟩))
        | false =>
            rw [Link.receive_of_room hended hfull, ← hcomplete]
            exact .inr (by simp [Link.underway, Link.inHand])

theorem Seamless.outbound (h : x.Seamless bytes) {move : OutboundMove} {l' : Link}
    (hstep : x.link.OutboundStep move l') :
    ({ x with link := l' } : Exchange).Seamless bytes := by
  have hstops : l'.hasStopped = true → l'.committed <+: x.link.committed →
      ({ x with link := l' } : Exchange).Seamless bytes := fun hstopped hcommitted =>
    h.of_stopped hstopped ((List.prefix_append_right_inj _).mpr hcommitted)
  cases hstep with
  | giveUp => exact hstops x.link.hasStopped_endOutbound x.link.committed_endOutbound
  | rouse _ _ hdown =>
      rcases h.complete with hstopped | hcomplete
      · refine hstops (Link.hasStopped_iff.mpr (.inl ?_)) List.prefix_rfl
        rcases Link.hasStopped_iff.mp hstopped with hclosing | ⟨-, hhung⟩
        · exact hclosing
        · rw [hhung, Bool.true_and] at hdown
          exact hdown
      · exact seamless_of_complete hcomplete
  | awake hawake hstep =>
      rcases h.complete with hstopped | hcomplete
      · obtain ⟨hstopped, hcommitted⟩ := Link.stopped_awakeStep hstep hawake hstopped
        exact hstops hstopped hcommitted
      by_cases hmove : move = .fail
      · subst hmove
        cases hstep with
        | fail hfail => exact hstops (Link.hasStopped_failWrite hfail) (Link.committed_failWrite hfail)
      by_cases hshutting : x.link.outbound = .shutting
      · have hstopped : x.link.hasStopped = true :=
          Link.hasStopped_iff.mpr (.inl (by rw [hshutting]; rfl))
        obtain ⟨hstopped, hcommitted⟩ := Link.stopped_awakeStep hstep hawake hstopped
        exact hstops hstopped hcommitted
      · refine seamless_of_complete ?_
        show x.peer.received ++ l'.underway = bytes
        rw [Link.underway_awakeStep hstep hmove fun hat => absurd hat hshutting, hcomplete]

/-- What neither takes nor loses a reply. -/
theorem Seamless.aside (h : x.Seamless bytes) {x' : Exchange}
    (hstopped : x.link.hasStopped = true → x'.link.hasStopped = true)
    (hcommitted : x'.peer.received ++ x'.link.committed = x.peer.received ++ x.link.committed)
    (hitems : x'.link.replies.items = x.link.replies.items) : x'.Seamless bytes where
  committed := by
    rw [hcommitted]
    exact h.committed
  complete := by
    refine h.complete.imp hstopped fun hcomplete => ?_
    rw [Link.underway_eq, ← List.append_assoc, hcommitted, hitems, List.append_assoc,
      ← Link.underway_eq, hcomplete]

/-- **One event.** -/
theorem Seamless.step (h : x.Seamless bytes) {event : Event} {x' : Exchange}
    (hstep : x.step? event = some x') (htimely : x.isTimely event = true) :
    x'.Seamless (bytes ++ delivered [event]) := by
  cases event with
  | deliver message =>
      cases hstep
      simpa [delivered] using h.deliver htimely
  | inbound move =>
      obtain ⟨l', hl', rfl⟩ := Option.map_eq_some_iff.mp hstep
      rw [delivered, List.flatMap_singleton, List.append_nil]
      cases Link.InboundStep.of_eq hl' <;> exact h.aside id rfl rfl
  | outbound move =>
      obtain ⟨l', hl', rfl⟩ := Option.map_eq_some_iff.mp hstep
      rw [delivered, List.flatMap_singleton, List.append_nil]
      exact h.outbound (.of_eq hl')
  | submit =>
      obtain ⟨⟨e, l'⟩, hl', rfl⟩ := Option.map_eq_some_iff.mp hstep
      rw [delivered, List.flatMap_singleton, List.append_nil]
      obtain ⟨inbound, rfl, -⟩ := Link.exists_of_submission hl'
      exact h.aside id rfl rfl
  | desert =>
      obtain ⟨l', hl', rfl⟩ := Option.map_eq_some_iff.mp hstep
      rw [delivered, List.flatMap_singleton, List.append_nil]
      obtain ⟨hat, -, rfl⟩ := Link.desert?_eq_some_iff.mp hl'
      refine h.of_stopped rfl ?_
      simp [Link.committed, Link.inHand, hat]
  | peer move =>
      obtain ⟨⟨p', l'⟩, hl', rfl⟩ := Option.map_eq_some_iff.mp hstep
      rw [delivered, List.flatMap_singleton, List.append_nil]
      have hpeer := Peer.step?_eq_some_iff.mp hl'
      have hcommitted := Link.received_append_committed_peerStep hpeer
      cases hpeer <;> exact h.aside id hcommitted rfl

/-- A whole run. -/
theorem Seamless.run {events : List Event} (h : x.Seamless bytes) {x' : Exchange}
    (hrun : x.run? events = some x') (htimely : x.timely events = true) :
    x'.Seamless (bytes ++ delivered events) := by
  induction events generalizing x bytes with
  | nil =>
      cases hrun
      rw [delivered, List.flatMap_nil, List.append_nil]
      exact h
  | cons event rest ih =>
      rw [run?, List.foldlM_cons] at hrun
      obtain ⟨next, hnext, hrest⟩ := Option.bind_eq_some_iff.mp hrun
      rw [timely, hnext, Bool.and_eq_true] at htimely
      have hmore := ih (h.step hnext htimely.1) hrest htimely.2
      rw [List.append_assoc, delivered, delivered, ← List.flatMap_append] at hmore
      exact hmore

end

/-- **No gaps in a timely run.**  If no message finds the queue of a link full while its outbound task
is at work, then whatever else happens in whichever order, what was written to the stream is the
beginning of what the core delivered. -/
theorem written_isPrefix {id : ConnectionId} {limits : ReplyLimits} {buffer : Nat} {link : Link}
    (hlink : Link.make? id limits buffer = some link) {peer : Peer} (hpeer : peer.heard = [])
    {events : List Event} {x : Exchange} (hrun : run? ⟨link, peer⟩ events = some x)
    (htimely : timely ⟨link, peer⟩ events = true) : x.written <+: delivered events := by
  have hstart : (⟨link, peer⟩ : Exchange).Seamless [] := by
    obtain ⟨replies, hreplies, rfl⟩ := Option.map_eq_some_iff.mp hlink
    unfold Queue.make? at hreplies
    split at hreplies
    · cases hreplies
      refine seamless_of_complete ?_
      simp [Peer.received, hpeer, Link.underway, Link.inHand]
    · cases hreplies
  have hend := (hstart.run hrun htimely).committed
  rw [List.nil_append, Link.committed, List.append_assoc, ← List.append_assoc] at hend
  exact (List.prefix_append ..).trans hend

/-- For instance the task has written a reply and waits again when two more are delivered to a queue
with one place: the last one is dropped, and the one before it is not written either. -/
theorem written_isPrefix_overrun :
    let value : Reply := .ofCounter Counter.zero
    let events : List Event :=
      [.deliver (.reply value), .outbound .look, .outbound .take, .outbound .notify,
        .outbound .buffer, .outbound .test, .outbound (.spill 28), .outbound .flushed,
        .outbound .suspend, .deliver (.reply value), .deliver (.reply .ok), .outbound .look,
        .peer (.drink 28)]
    ∃ link x, Link.make? ⟨1⟩ ⟨1, 1⟩ 64 = some link ∧ run? ⟨link, {}⟩ events = some x ∧
      timely ⟨link, {}⟩ events = true ∧ x.link.hungUp = true ∧ x.written = Record.bytes value ∧
      delivered events = [value, value, .ok].flatMap Record.bytes ∧
      x.written <+: delivered events := by
  intro value events
  have hend : (Link.make? ⟨1⟩ ⟨1, 1⟩ 64).any (fun link => (run? ⟨link, {}⟩ events).any fun x =>
      timely ⟨link, {}⟩ events = true ∧ x.link.hungUp = true ∧ x.written = Record.bytes value)
      = true := by
    decide +kernel
  obtain ⟨link, hlink, hend⟩ := (Option.any_eq_true _ _).mp hend
  obtain ⟨x, hx, hend⟩ := (Option.any_eq_true _ _).mp hend
  obtain ⟨htimely, hhung, hwritten⟩ := of_decide_eq_true hend
  exact ⟨link, x, hlink, hx, htimely, hhung, hwritten, by decide +kernel,
    written_isPrefix hlink rfl hx htimely⟩

end Exchange

/-- **Gaps can come up.**  The first of two connections holds two keys.  The second one asks for both
and for the value of a counter three times; two values fill its queue but for one place when the first
connection is lost.  Its outbound task has just been resumed.  The grant of the first key fills the
queue, that of the second is dropped, then the task takes a value, and so the third value is queued.
The task has not had to wait: it writes all four replies, and the client, who is owed five, cannot
tell which is missing. -/
theorem Server.exists_gap :
    let config : Config := { inboundCapacity := 1, replyWindow := 1, replyCapacity := 3 }
    let locks := "[\"lock\",\"a\"]\n[\"lock\",\"b\"]\n".toUTF8.toList
    let gets := "[\"get\",\"n\"]\n[\"get\",\"n\"]\n[\"get\",\"n\"]\n".toUTF8.toList
    let value : Reply := .ofCounter Counter.zero
    let pass (position : Nat) : List Scenario.Move := [.service (.submit position), .service .take]
    let read (position : Nat) : List Scenario.Move :=
      [.service (.inbound position .check), .service (.inbound position .decode)]
    let fetch (position count : Nat) : List Scenario.Move :=
      [.peer position (.feed count), .service (.inbound position .check),
        .service (.inbound position (.fetch count)), .service (.inbound position .decode)]
    let outbound (move : OutboundMove) : Scenario.Move := .service (.outbound 1 move)
    let opening : List Move :=
      .accept 128 :: .accept 128 :: [pass 0, pass 1].flatten.map .inside
    let holding : List Scenario.Move := List.flatten
      [fetch 0 26, pass 0, read 0,
        [.service (.submit 0), .service (.inbound 0 .check), .service .deliver, .service .take,
          .service .deliver]]
    let asking : List Scenario.Move := List.flatten
      [fetch 1 62, pass 1, read 1, pass 1, read 1, pass 1, read 1, [.service (.submit 1)], read 1,
        [.service .deliver, .service .take, .service .deliver]]
    let losing : List Scenario.Move := List.flatten
      [[.peer 0 .vanish, .service (.inbound 0 .endOfInput)], pass 0,
        [outbound .look, .service .deliver, .service .deliver, .service .deliver, outbound .take],
        pass 1, [.service .deliver]]
    let writing : List Scenario.Move :=
      [outbound .notify, outbound .buffer, outbound .test,
        outbound .take, outbound .notify, outbound .buffer, outbound .test,
        outbound .take, outbound .notify, outbound .buffer, outbound .test,
        outbound .take, outbound .notify, outbound .buffer, outbound .test,
        outbound (.spill 100), .peer 1 (.drink 100)]
    let moves := [holding, asking, losing, writing].flatten
    ∃ start opened s history p, Server.start config = .ok start ∧
      start.run? opening = some opened ∧
      ((opened.arrive 0 locks).arrive 1 (locks ++ gets)).run? (moves.map .inside) = some s ∧
      start.Reaches history s ∧ s.scenario.peers[1]? = some p ∧
      p.received = [value, value, .ok, value].flatMap Record.bytes ∧
      replyBytes history 1
        = [value, value, .ok, .ok, value].flatMap Record.bytes ∧
      ¬ p.received <+: replyBytes history 1 := by
  intro config locks gets value pass read fetch outbound opening holding asking losing writing moves
  have hend : (Server.start config).toOption.any (fun start =>
      (start.run? opening).any fun opened =>
        let waiting := (opened.arrive 0 locks).arrive 1 (locks ++ gets)
        (waiting.run? (moves.map .inside)).any fun s => s.scenario.peers[1]?.any fun p =>
          p.received = [value, value, .ok, value].flatMap Record.bytes ∧
          replyBytes (start.handled opening ++ waiting.handled (moves.map .inside)) 1
            = [value, value, .ok, .ok, value].flatMap Record.bytes)
      = true := by
    decide +kernel
  obtain ⟨start, hstart, hend⟩ := (Option.any_eq_true _ _).mp hend
  obtain ⟨opened, hopened, hend⟩ := (Option.any_eq_true _ _).mp hend
  obtain ⟨s, hs, hend⟩ := (Option.any_eq_true _ _).mp hend
  obtain ⟨p, hp, hend⟩ := (Option.any_eq_true _ _).mp hend
  obtain ⟨hreceived, hsent⟩ := of_decide_eq_true hend
  have hreaches : start.Reaches
      (start.handled opening
        ++ ((opened.arrive 0 locks).arrive 1 (locks ++ gets)).handled (moves.map .inside)) s :=
    (((Reaches.start.run hopened).outside 0 _).outside 1 _).run hs
  refine ⟨start, opened, s, _, p, ?_, hopened, hs, hreaches, hp, hreceived, hsent, ?_⟩
  · cases hok : Server.start config with
    | error => rw [hok] at hstart; cases hstart
    | ok server => rw [hok] at hstart; cases hstart; rfl
  · rw [hreceived, hsent]
    decide +kernel

end LockService
