import LockService.Proofs.Connection.Gaps
import LockService.Proofs.Core.Waiting

/-!
# Room for replies

The inbound task of a link looks at the reply window before each record, and then goes on to read
and submit without looking again.  So at the moment at which it finds room, its connection may have
a reply on its way from the core and something in every place of the inbox, and one record more is
going to be read; how many replies can be queued before it looks again is what the reply capacity
has to allow for.

`Service.due` counts them: the queued messages, those on their way, the envelopes in the inbox, and
what the task will submit before it looks again (`Link.unsubmitted`).  As long as the connection is
never left waiting for a key, nothing else will be told to it, and no move makes the count exceed
`window + inbox + 1` (`Service.Spacious`) — except that one record may stand for two messages: one
that is no request is refused, and then the connection closes, without another look at the window.
`Service.Spacious.size_le` is what that means for a message that is on its way.
-/

namespace LockService

/-! ## What is due to a link -/

namespace Link

/-- How many envelopes the inbound task will submit, at most, before it looks at the reply window
again.  A record that is no request is followed by the closing at once. -/
def unsubmitted (l : Link) : Nat :=
  match l.inbound with
  | .reading | .holding (.ok _) | .closing => 1
  | .holding (.error _) => 2
  | .opening | .checking | .throttled | .parked _ | .ended => 0

/-- How many records that are no requests a link has found, if one knows what it has said. -/
def refusals (l : Link) (said : List (Command Nat)) : Nat :=
  match l.inbound with
  | .holding (.error _) => 1
  | _ => if .malformed ∈ said then 1 else 0

theorem refusals_le (l : Link) (said : List (Command Nat)) : l.refusals said ≤ 1 := by
  unfold refusals
  split
  · exact le_rfl
  · split <;> omega

/-- A task that still reads requests has found none but requests. -/
theorem Talks.malformed_not_mem {l : Link} {position : Nat} {said : List (Command Nat)}
    (h : l.Talks position said) (hserving : l.inbound.isServing = true) : .malformed ∉ said := by
  obtain ⟨requests, rfl⟩ := (talks_iff_of_isServing hserving).mp h
  simp

/-- Who has said that it closes is gone. -/
theorem Talks.ended_of_closing_mem {l : Link} {position : Nat} {said : List (Command Nat)}
    (h : l.Talks position said) (hclosing : .closing ∈ said) : l.inbound = .ended := by
  obtain ⟨_, -, -, hcount, -⟩ := h.exists_conversation
  have hpos := List.count_pos_iff.mpr hclosing
  cases hat : l.inbound with
  | ended => rfl
  | _ => simp [hcount, hat, InboundPhase.isEnded] at hpos

/-- Who is gone has said that it closes. -/
theorem Talks.closing_mem_of_ended {l : Link} {position : Nat} {said : List (Command Nat)}
    (h : l.Talks position said) (hended : l.inbound = .ended) : .closing ∈ said := by
  obtain ⟨_, -, -, hcount, -⟩ := h.exists_conversation
  rw [hended] at hcount
  exact List.count_pos_iff.mp (hcount ▸ Nat.one_pos)

/-- What the moves of the inbound task leave as it is.  A task that is gone makes none. -/
theorem inboundStep_frame {l l' : Link} {move : InboundMove} (h : l.InboundStep move l') :
    l'.id = l.id ∧ l'.window = l.window ∧ l'.replies = l.replies ∧ l'.outbound = l.outbound ∧
      l'.hungUp = l.hungUp ∧ l.inbound ≠ .ended := by
  cases h with
  | quit _ hheeds => exact ⟨rfl, rfl, rfl, rfl, rfl, fun hat => by rw [hat] at hheeds; cases hheeds⟩
  | _ => exact ⟨rfl, rfl, rfl, rfl, rfl, by simp_all⟩

/-- And what a message leaves as it is. -/
theorem receive_frame (l : Link) (message : Outbound) :
    (l.receive message).id = l.id ∧ (l.receive message).window = l.window ∧
      (l.receive message).replies.capacity = l.replies.capacity := by
  rcases l.receive_cases message with ⟨-, heq⟩ | ⟨-, heq⟩ | heq <;>
    (rw [heq]; exact ⟨rfl, rfl, rfl⟩)

/-- What everybody but the core and the inbound task leaves of a link as it is, unless the outbound
task ends.  Nothing is queued, and the inbound task may be woken. -/
structure Drains (l l' : Link) : Prop where
  id_eq : l'.id = l.id
  window_eq : l'.window = l.window
  capacity_eq : l'.replies.capacity = l.replies.capacity
  inbound : l'.inbound = l.inbound ∨ l.inbound = .parked false ∧ l'.inbound = .parked true
  outbound : l'.outbound.isEnded = false →
    l.outbound.isEnded = false ∧ l'.hungUp = l.hungUp ∧ l'.replies.size ≤ l.replies.size

theorem drains_outboundStep {l l' : Link} {move : OutboundMove} (h : l.OutboundStep move l') :
    l.Drains l' := by
  cases h with
  | giveUp => exact ⟨rfl, rfl, rfl, .inl rfl, nofun⟩
  | rouse => exact ⟨rfl, rfl, rfl, .inl rfl, fun hthere => ⟨hthere, rfl, le_rfl⟩⟩
  | awake _ hstep =>
      cases hstep with
      | suspend => exact ⟨rfl, rfl, rfl, .inl rfl, fun hthere => ⟨hthere, rfl, le_rfl⟩⟩
      | take hat hitems =>
          refine ⟨rfl, rfl, rfl, .inl rfl, fun _ => ⟨by rw [hat]; rfl, rfl, ?_⟩⟩
          rw [Queue.size, Queue.size, hitems]
          exact Nat.le_succ _
      | notify hat =>
          have hthere : l.outbound.isEnded = false := by rw [hat]; rfl
          unfold notify
          split
          · next hparked =>
            exact ⟨rfl, rfl, rfl, .inr ⟨hparked, rfl⟩, fun _ => ⟨hthere, rfl, le_rfl⟩⟩
          · exact ⟨rfl, rfl, rfl, .inl rfl, fun _ => ⟨hthere, rfl, le_rfl⟩⟩
      | spillBuffered => exact ⟨rfl, rfl, rfl, .inl rfl, fun hthere => ⟨hthere, rfl, le_rfl⟩⟩
      | finish => exact ⟨rfl, rfl, rfl, .inl rfl, nofun⟩
      | fail hfail =>
          rcases failWrite_cases hfail with rfl | ⟨-, rfl⟩ <;>
            exact ⟨rfl, rfl, rfl, .inl rfl, nofun⟩
      | _ hat => exact ⟨rfl, rfl, rfl, .inl rfl, fun _ => ⟨by rw [hat]; rfl, rfl, le_rfl⟩⟩

theorem drains_desert {l l' : Link} (h : l.desert? = some l') : l.Drains l' := by
  obtain ⟨hat, -, rfl⟩ := desert?_eq_some_iff.mp h
  exact ⟨rfl, rfl, rfl, .inl rfl, fun _ => ⟨by rw [hat]; rfl, rfl, le_rfl⟩⟩

theorem drains_peerStep {p p' : Peer} {l l' : Link} {move : PeerMove} (h : p.Step l move p' l') :
    l.Drains l' := by
  cases h <;> exact ⟨rfl, rfl, rfl, .inl rfl, fun hthere => ⟨hthere, rfl, le_rfl⟩⟩

/-- Submitting something moves one of the envelopes that a task was going to submit. -/
theorem unsubmitted_of_submission {l l' : Link} {position : Nat} {e : Envelope Nat}
    (h : l.submission? position = some (e, l')) (said : List (Command Nat)) :
    l'.unsubmitted + (if e.command.isAnswered then 1 else 0) = l.unsubmitted ∧
      l.refusals said ≤ l'.refusals (said ++ [e.command]) := by
  unfold submission? at h
  split at h
  all_goals cases h
  all_goals next hat => simp [unsubmitted, refusals, hat, Command.isAnswered]

end Link

namespace Service

/-- How many messages can still be put into the queue of a link, counted with those that are in it
already, before its inbound task looks at the window again. -/
def due (s : Service) (position : Nat) (l : Link) : Nat :=
  l.replies.size + (Core.through position s.pending).length
    + (Core.told l.id s.inbox.items).countP Command.isAnswered + l.unsubmitted

/-- What is kept for a link whose connection never waits, if its capacity is large enough.  One
message at most is on its way to it, which is `closed` exactly if the core has handled the closing;
it is not hung up unless its outbound task is gone or its inbound task has done everything; and what
is due to it exceeds the bound by one at most, if it has found a record that is no request. -/
structure Spacious (history : List (Envelope Nat)) (s : Service) (position : Nat) (l : Link) :
    Prop where
  pending : Core.through position s.pending = [] ∨
    ∃ message, Core.through position s.pending = [message] ∧
      (message = .closed ↔ .closing ∈ Core.told l.id history)
  hungUp : l.hungUp = true → l.outbound.isEnded = true ∨ l.inbound = .ended
  due_le : l.outbound.isEnded = false → s.due position l
    ≤ l.window + s.inbox.capacity + 1 + l.refusals (Core.told l.id (s.received history))

section

variable {history : List (Envelope Nat)} {s : Service} {position : Nat} {l l' : Link}

/-- Only what is on its way and what is in the inbox matter beside the link. -/
theorem Spacious.congr {s' : Service} (h : s.Spacious history position l)
    (hpending : s'.pending = s.pending) (hinbox : s'.inbox = s.inbox) :
    s'.Spacious history position l where
  pending := by
    rw [hpending]
    exact h.pending
  hungUp := h.hungUp
  due_le := by
    rw [due, received, hpending, hinbox]
    exact h.due_le

theorem Spacious.length_pending_le (h : s.Spacious history position l) :
    (Core.through position s.pending).length ≤ 1 := by
  rcases h.pending with hnone | ⟨_, hone, -⟩
  · rw [hnone]
    exact Nat.zero_le 1
  · rw [hone]
    exact le_rfl

/-- A record that is no request was found last, so something is still to come behind its refusal
unless the core has handled the closing. -/
theorem refusals_le_of_talks (htalks : l.Talks position (Core.told l.id (s.received history)))
    (hopen : .closing ∉ Core.told l.id history) :
    l.refusals (Core.told l.id (s.received history))
      ≤ (Core.told l.id s.inbox.items).countP Command.isAnswered + l.unsubmitted := by
  by_cases hserving : l.inbound.isServing = true
  · have hnone := htalks.malformed_not_mem hserving
    unfold Link.refusals Link.unsubmitted
    cases hat : l.inbound with
    | holding record => cases record <;> simp [hnone]
    | _ => simp [hnone]
  · cases hat : l.inbound with
    | opening =>
        rw [Link.Talks, hat] at htalks
        simp [Link.refusals, hat, htalks]
    | closing =>
        have hle := l.refusals_le (Core.told l.id (s.received history))
        simp only [Link.unsubmitted, hat]
        omega
    | ended =>
        have hclosing := htalks.closing_mem_of_ended hat
        rw [received, Core.told_append, List.mem_append, or_iff_right hopen] at hclosing
        have hpos : 0 < (Core.told l.id s.inbox.items).countP Command.isAnswered :=
          List.countP_pos_iff.mpr ⟨_, hclosing, rfl⟩
        have hle := l.refusals_le (Core.told l.id (s.received history))
        omega
    | _ => exact absurd (by rw [hat]; rfl) hserving

/-- **A place for every message.**  While a message is on its way to a link, the queue holds no more
than the window and the inbox together; it may hold one message more if that is the last message
and the connection has sent something that is no request. -/
theorem Spacious.size_le (h : s.Spacious history position l)
    (htalks : l.Talks position (Core.told l.id (s.received history)))
    (hthere : l.outbound.isEnded = false) {message : Outbound}
    (hmessage : message ∈ Core.through position s.pending) :
    l.replies.size ≤ l.window + s.inbox.capacity
        + (if .malformed ∈ Core.told l.id history then 1 else 0) ∧
      (message ≠ .closed → l.replies.size ≤ l.window + s.inbox.capacity) := by
  have hdue := h.due_le hthere
  rw [due] at hdue
  have hone : 0 < (Core.through position s.pending).length := List.length_pos_of_mem hmessage
  obtain ⟨only, honly, hclosed⟩ := h.pending.resolve_left (List.ne_nil_of_mem hmessage)
  rw [honly] at hmessage
  obtain rfl := List.mem_singleton.mp hmessage
  by_cases hopen : .closing ∈ Core.told l.id history
  · refine ⟨?_, fun hreply => absurd (hclosed.mpr hopen) hreply⟩
    have hended := htalks.ended_of_closing_mem
      (by rw [received, Core.told_append]; exact List.mem_append_left _ hopen)
    have hwhole : Core.told l.id (s.received history) = Core.told l.id history := by
      obtain ⟨before, after, hsaid⟩ := List.append_of_mem hopen
      rw [Link.Talks, hended, received, Core.told_append, hsaid, List.append_assoc,
        List.cons_append] at htalks
      rw [received, Core.told_append, (List.append_eq_nil_iff.mp htalks.eq_nil_of_closing).2,
        List.append_nil]
    rw [Link.refusals, hended, hwhole] at hdue
    dsimp only at hdue
    omega
  · have hrefusals := refusals_le_of_talks htalks hopen
    refine ⟨?_, fun _ => ?_⟩ <;> omega

/-! ## One move -/

/-- Of the places of the inbox a connection takes no more than there are. -/
theorem countP_told_le (s : Service) (c : ConnectionId) :
    (Core.told c s.inbox.items).countP Command.isAnswered ≤ s.inbox.size := by
  refine List.countP_le_length.trans ?_
  rw [Core.told, List.length_map]
  exact List.length_filter_le _ _

/-- A move of the inbound task.  The bound is what holds when the task finds room in its window. -/
theorem Spacious.inboundStep (hs : s.Spacious history position l)
    (htalks : l.Talks position (Core.told l.id (s.received history)))
    (hinbox : s.inbox.size ≤ s.inbox.capacity) {move : InboundMove} (h : l.InboundStep move l') :
    s.Spacious history position l' := by
  obtain ⟨hid, hwindow, hreplies, houtbound, hhung, hthere⟩ := Link.inboundStep_frame h
  refine ⟨hid ▸ hs.pending, ?_, ?_⟩
  · rw [hhung, houtbound]
    exact fun hup => .inl ((hs.hungUp hup).resolve_right hthere)
  rw [due, hid, hwindow, hreplies, houtbound]
  intro hrunning
  have hdue := hs.due_le hrunning
  rw [due] at hdue
  have hup : l.hungUp = false := by
    by_contra hup
    rcases hs.hungUp (Bool.not_eq_false _ ▸ hup) with hended | hended
    · rw [hended] at hrunning
      cases hrunning
    · exact hthere hended
  have hnone : l.inbound = .reading → .malformed ∉ Core.told l.id (s.received history) :=
    fun hat => htalks.malformed_not_mem (by rw [hat]; rfl)
  cases h with
  | quit hraised => exact absurd (hup.symm.trans hraised) Bool.false_ne_true
  | enter hat hroom =>
      have hpending := hs.length_pending_le
      have hown := s.countP_told_le l.id
      dsimp only [Link.unsubmitted]
      omega
  | throttle hat => simpa [Link.unsubmitted, Link.refusals, hat] using hdue
  | redeem hat => simpa [Link.unsubmitted, Link.refusals, hat] using hdue
  | park hat => simpa [Link.unsubmitted, Link.refusals, hat] using hdue
  | wake hat => simpa [Link.unsubmitted, Link.refusals, hat] using hdue
  | fetch hat => simpa [Link.unsubmitted, Link.refusals, hat] using hdue
  | lengthen hat => simpa [Link.unsubmitted, Link.refusals, hat] using hdue
  | @find record rest hat =>
      cases record <;> simpa [Link.unsubmitted, Link.refusals, hat, hnone hat] using hdue
  | @last record hat =>
      cases record <;> simpa [Link.unsubmitted, Link.refusals, hat, hnone hat] using hdue
  | finish hat => simpa [Link.unsubmitted, Link.refusals, hat] using hdue
  | fail hat => simpa [Link.unsubmitted, Link.refusals, hat] using hdue

/-- A move of the outbound task or of the peer. -/
theorem Spacious.drains (hs : s.Spacious history position l) (h : l.Drains l') :
    s.Spacious history position l' := by
  have hinbound : l'.unsubmitted = l.unsubmitted ∧
      ∀ said, l'.refusals said = l.refusals said := by
    unfold Link.unsubmitted Link.refusals
    rcases h.inbound with heq | ⟨hat, hat'⟩
    · rw [heq]
      exact ⟨rfl, fun _ => rfl⟩
    · rw [hat, hat']
      exact ⟨rfl, fun _ => rfl⟩
  constructor
  case pending => exact h.id_eq ▸ hs.pending
  case hungUp =>
    intro hup
    cases hended : l'.outbound.isEnded with
    | true => exact .inl rfl
    | false =>
        obtain ⟨hrunning, hhung, -⟩ := h.outbound hended
        rcases hs.hungUp (hhung ▸ hup) with hgone | hgone
        · rw [hgone] at hrunning
          cases hrunning
        · refine .inr ?_
          rcases h.inbound with heq | ⟨hat, -⟩
          · rw [heq, hgone]
          · rw [hgone] at hat
            cases hat
  case due_le =>
    intro hrunning
    obtain ⟨hrunning, -, hsize⟩ := h.outbound hrunning
    have hdue := hs.due_le hrunning
    rw [due] at hdue ⊢
    rw [h.id_eq, h.window_eq, hinbound.1, hinbound.2]
    omega

/-- A move of its own to the inbox. -/
theorem Spacious.submit (hs : s.Spacious history position l) {e : Envelope Nat}
    (h : l.submission? position = some (e, l')) :
    ({ s.setLink position l' with
      inbox := { s.inbox with items := s.inbox.items ++ [e] } } : Service).Spacious history
        position l' := by
  obtain ⟨hsender, hid⟩ := Link.sender_of_submission h
  obtain ⟨inbound, rfl, -⟩ := Link.exists_of_submission h
  refine ⟨hs.pending, fun hup => ?_, fun hrunning => ?_⟩
  · refine .inl ((hs.hungUp hup).resolve_right fun hended => ?_)
    simp [Link.submission?, hended] at h
  · have htold : Core.told l.id [e] = [e.command] := by
      rw [Core.told_cons, if_pos hsender, Core.told_nil]
    obtain ⟨hunsubmitted, hrefusals⟩ :=
      Link.unsubmitted_of_submission h (Core.told l.id (s.received history))
    have hdue := hs.due_le hrunning
    rw [due] at hdue ⊢
    show l.replies.size + (Core.through position s.pending).length
      + (Core.told l.id (s.inbox.items ++ [e])).countP Command.isAnswered + _
        ≤ l.window + s.inbox.capacity + 1
          + Link.refusals _ (Core.told l.id (history ++ (s.inbox.items ++ [e])))
    rw [← List.append_assoc, Core.told_append, Core.told_append, htold, List.countP_append,
      List.countP_singleton]
    rw [received] at hrefusals hdue
    omega

/-- What somebody else puts into the inbox is nothing to a link. -/
theorem Spacious.submit_other (hs : s.Spacious history position l) {e : Envelope Nat} {q : Nat}
    {m : Link} (h : e.sender ≠ l.id) :
    ({ s.setLink q m with
      inbox := { s.inbox with items := s.inbox.items ++ [e] } } : Service).Spacious history
        position l := by
  have htold : Core.told l.id [e] = [] := by
    rw [Core.told_cons, if_neg h, Core.told_nil]
  refine ⟨hs.pending, hs.hungUp, fun hrunning => ?_⟩
  have hdue := hs.due_le hrunning
  rw [due] at hdue ⊢
  show l.replies.size + (Core.through position s.pending).length
    + (Core.told l.id (s.inbox.items ++ [e])).countP Command.isAnswered + _
      ≤ l.window + s.inbox.capacity + 1
        + l.refusals (Core.told l.id (history ++ (s.inbox.items ++ [e])))
  rw [← List.append_assoc, Core.told_append, Core.told_append, htold, List.append_nil,
    List.append_nil]
  exact hdue

/-- The core takes an envelope.  It tells a connection that never waits only what it is due. -/
theorem Spacious.take (hs : s.Spacious history position l) {e : Envelope Nat}
    {rest : List (Envelope Nat)} (hpending : s.pending = []) (hitems : s.inbox.items = e :: rest)
    (howner : ∀ c : ConnectionId, s.core.repliers[c]? = some position → c = l.id)
    (hwaits : s.core.awaited l.id = ∅)
    (hopen : e.sender = l.id → .closing ∉ Core.told l.id history) :
    ({ s with
      inbox := { s.inbox with items := rest }
      core := (s.core.handle e).2
      pending := (s.core.handle e).1 } : Service).Spacious (history ++ [e]) position l := by
  have hcases := Core.through_handle_cases howner hwaits e
  refine ⟨?_, hs.hungUp, fun hrunning => ?_⟩
  · refine hcases.imp_right ?_
    rintro ⟨hsender, -, message, hmessage, hclosed⟩
    refine ⟨message, hmessage, hclosed.trans ?_⟩
    rw [Core.told_append, Core.told_cons, if_pos hsender, Core.told_nil, List.mem_append,
      or_iff_right (hopen hsender), List.mem_singleton, eq_comm]
  · have hdue := hs.due_le hrunning
    rw [due, hpending, hitems, Core.told_cons] at hdue
    rw [received, hitems] at hdue
    show l.replies.size + (Core.through position (s.core.handle e).1).length
      + (Core.told l.id rest).countP Command.isAnswered + l.unsubmitted
        ≤ l.window + s.inbox.capacity + 1 + l.refusals (Core.told l.id ((history ++ [e]) ++ rest))
    rw [List.append_assoc, List.singleton_append]
    rcases hcases with hnone | ⟨hsender, hanswered, message, hmessage, -⟩
    · rw [hnone]
      refine le_trans ?_ hdue
      split
      · rw [List.countP_cons]
        simp only [Core.through_nil, List.length_nil]
        omega
      · exact le_rfl
    · rw [if_pos hsender, List.countP_cons, hanswered, Core.through_nil, List.length_nil,
        if_pos rfl] at hdue
      rw [hmessage, List.length_singleton]
      omega

/-- The core delivers a message.  There is a place for it, if it is not the last. -/
theorem Spacious.deliver (hs : s.Spacious history position l)
    (htalks : l.Talks position (Core.told l.id (s.received history)))
    (hcapacity : l.window + s.inbox.capacity + 1 ≤ l.replies.capacity) {d : Delivery Nat}
    {rest : List (Delivery Nat)} (hpending : s.pending = d :: rest) (links : List Link) :
    ({ s with pending := rest, links } : Service).Spacious history position
      (if d.replier = position then l.receive d.message else l) := by
  split
  case isFalse hother =>
    have hsame : Core.through position s.pending = Core.through position rest := by
      rw [hpending, Core.through_cons, if_neg hother]
    refine ⟨hsame ▸ hs.pending, hs.hungUp, fun hrunning => ?_⟩
    have hdue := hs.due_le hrunning
    rw [due, hsame] at hdue
    exact hdue
  case isTrue hmine =>
    have hthrough : Core.through position s.pending = d.message :: Core.through position rest := by
      rw [hpending, Core.through_cons, if_pos hmine]
    have hrest : Core.through position rest = [] := by
      have hlength := hs.length_pending_le
      rw [hthrough, List.length_cons] at hlength
      exact List.length_eq_zero_iff.mp (by omega)
    cases hrunning : l.outbound.isEnded with
    | true =>
        rw [Link.receive, if_pos hrunning]
        refine ⟨.inl hrest, hs.hungUp, fun h => ?_⟩
        exact absurd (h.symm.trans hrunning) Bool.false_ne_true
    | false =>
        have hdue := hs.due_le hrunning
        rw [due, hthrough, hrest, List.length_singleton] at hdue
        cases hfull : l.replies.isFull with
        | false =>
            rw [Link.receive_of_room hrunning hfull]
            refine ⟨.inl hrest, hs.hungUp, fun _ => ?_⟩
            show (l.replies.items ++ [d.message]).length + (Core.through position rest).length
              + (Core.told l.id s.inbox.items).countP Command.isAnswered + l.unsubmitted ≤ _
            rw [hrest, List.length_append, List.length_singleton, List.length_nil]
            rw [Queue.size] at hdue
            exact le_trans (by omega) hdue
        | true =>
            rw [Link.receive_of_isFull hrunning hfull]
            refine ⟨.inl hrest, fun _ => .inr ?_, fun _ => ?_⟩
            · have hmem : d.message ∈ Core.through position s.pending :=
                hthrough ▸ List.mem_cons_self
              have hsize := (hs.size_le htalks hrunning hmem).2
              have hclosed : d.message = .closed := by
                by_contra hreply
                have hle := hsize hreply
                rw [Queue.isFull, decide_eq_true_eq] at hfull
                omega
              obtain ⟨message, hmessage, hiff⟩ :=
                hs.pending.resolve_left (List.ne_nil_of_mem hmem)
              rw [hthrough, hrest] at hmessage
              obtain rfl := List.singleton_inj.mp hmessage
              refine htalks.ended_of_closing_mem ?_
              rw [received, Core.told_append]
              exact List.mem_append_left _ (hiff.mp hclosed)
            · show l.replies.size + (Core.through position rest).length
                + (Core.told l.id s.inbox.items).countP Command.isAnswered + l.unsubmitted ≤ _
              rw [hrest, List.length_nil]
              exact le_trans (by omega) hdue

/-- A new link has all its room. -/
theorem spacious_of_fresh (hreplies : l.replies.items = []) (hhung : l.hungUp = false)
    (hat : l.inbound = .opening) (hpending : ∀ d ∈ s.pending, d.replier ≠ position)
    (htold : Core.told l.id s.inbox.items = []) : s.Spacious history position l := by
  have hnone : Core.through position s.pending = [] := by
    rw [List.eq_nil_iff_forall_not_mem]
    intro message hmessage
    obtain ⟨d, hd, hreplier, -⟩ := Core.mem_through_iff.mp hmessage
    exact hpending d hd hreplier
  refine ⟨.inl hnone, fun hup => absurd (hhung.symm.trans hup) nofun, fun _ => ?_⟩
  rw [due, hnone, htold, Queue.size, hreplies]
  simp [Link.unsubmitted, hat]

end

end Service

end LockService
