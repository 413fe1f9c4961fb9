import LockService.Proofs.Connection.Waking

/-!
# Links that nothing has happened to

As long as no peer vanishes and nothing fails, both directions of a stream stay usable and the peer
goes on writing, reading and closing.  `Link.Intact` collects what that means for a link and its
peer; every move that is no failure keeps it.

It is what progress rests on.  If the peer has read everything, an outbound task that is not gone
can move unless it waits on an empty queue (`Intact.exists_awakeStep`), and while the inbound task
is there and not waiting, it or the peer can move (`Intact.exists_inbound`).
-/

namespace LockService

namespace Link

/-- A link and its peer, as long as nothing has failed. -/
structure Intact (l : Link) (p : Peer) : Prop where
  there : p.gone = false
  reads : p.stalled = false
  finishing : p.finishing = true
  drained : l.fromPeer.closed = true → p.backlog = []
  fromPeer_pos : 0 < l.fromPeer.room + l.fromPeer.bytes.length
  toPeer_pos : 0 < l.toPeer.room + l.toPeer.bytes.length
  fromPeer_kept : l.fromPeer.abandoned = false
  toPeer_kept : l.toPeer.abandoned = false
  buffer_pos : 0 < l.bufferSize
  window_pos : 0 < l.window
  ended : l.outbound = .ended → l.unsent = [] ∧ l.replies.items = []
  roused : l.Roused

section

variable {l l' : Link} {p p' : Peer}

/-- A direction of the stream keeps its size when something is written. -/
theorem write_pos {q : Pipe} {bytes : List UInt8} {count : Nat} (hcount : bytes.length = count)
    (htakes : q.takes count = true) (hpos : 0 < q.room + q.bytes.length) :
    0 < (q.write bytes).room + (q.write bytes).bytes.length := by
  subst hcount
  simp only [Pipe.takes, decide_eq_true_eq] at htakes
  rw [Pipe.room_add_length_write htakes.2.1]
  exact hpos

/-- And when something is read. -/
theorem read_pos {q : Pipe} (count : Nat) (hpos : 0 < q.room + q.bytes.length) :
    0 < (q.read count).room + (q.read count).bytes.length := by
  rw [q.room_add_length_read count]
  exact hpos

theorem intact_inboundStep {move : InboundMove} (h : l.InboundStep move l') (hl : l.Intact p) :
    l'.Intact p := by
  have hroused := roused_inboundStep h hl.roused
  cases h with
  | @fetch count =>
      exact { hl with fromPeer_pos := read_pos count hl.fromPeer_pos, roused := hroused }
  | _ => exact { hl with roused := hroused }

theorem intact_notify {message : Outbound} (hl : l.Intact p)
    (hroused : ({ l.notify with outbound := .ofMessage message } : Link).Roused) :
    ({ l.notify with outbound := .ofMessage message } : Link).Intact p := by
  have hthere : OutboundPhase.ofMessage message ≠ .ended := by cases message <;> exact nofun
  obtain ⟨inbound, permit, hnotify⟩ := l.notify_eq
  rw [hnotify] at hroused ⊢
  exact { hl with ended := fun h => absurd h hthere, roused := hroused }

theorem intact_awakeStep {move : OutboundMove} (h : l.AwakeStep move l') (hmove : move ≠ .fail)
    (hlast : l.outbound = .shutting → l.replies.items = []) (hl : l.Intact p) : l'.Intact p := by
  have hroused := roused_awakeStep h hl.roused hl.window_pos hlast
  cases h with
  | suspend => exact { hl with roused := hroused }
  | take => exact { hl with ended := nofun, roused := hroused }
  | notify => exact intact_notify hl hroused
  | buffer => exact { hl with ended := nofun, roused := hroused }
  | clear => exact { hl with ended := nofun, roused := hroused }
  | @spillPart left count _ _ _ htakes hcount =>
      have hlength : (left.take count).length = count := List.length_take_of_le (Nat.le_of_lt hcount)
      have hpos := write_pos hlength htakes hl.toPeer_pos
      exact { hl with toPeer_pos := hpos, ended := nofun, roused := hroused }
  | @spillRest left _ _ _ htakes =>
      have hpos := write_pos rfl htakes hl.toPeer_pos
      exact { hl with toPeer_pos := hpos, ended := nofun, roused := hroused }
  | @spillBuffered count hat htakes hcount =>
      have hlength : (l.unsent.take count).length = count := List.length_take_of_le hcount
      have hpos := write_pos hlength htakes hl.toPeer_pos
      refine { hl with toPeer_pos := hpos, ended := fun hended => ?_, roused := hroused }
      rw [show l.outbound = .ended from hended] at hat
      cases hat
  | drain => exact { hl with ended := nofun, roused := hroused }
  | proceed => exact { hl with ended := nofun, roused := hroused }
  | resume => exact { hl with ended := nofun, roused := hroused }
  | flushed => exact { hl with ended := nofun, roused := hroused }
  | finish => exact { hl with ended := fun _ => ⟨rfl, rfl⟩, roused := hroused }
  | fail => exact absurd rfl hmove

theorem intact_outboundStep {move : OutboundMove} (h : l.OutboundStep move l')
    (hmove : move ≠ .fail) (hlast : l.outbound = .shutting → l.replies.items = [])
    (hl : l.Intact p) : l'.Intact p := by
  have hroused := roused_outboundStep h hl.roused hl.window_pos hlast
  cases h with
  | giveUp => exact { hl with ended := fun _ => ⟨rfl, rfl⟩, roused := hroused }
  | rouse => exact { hl with roused := hroused }
  | awake _ hstep => exact intact_awakeStep hstep hmove hlast hl

theorem intact_receive (message : Outbound) (hl : l.Intact p) : (l.receive message).Intact p := by
  have hroused := roused_receive hl.roused message
  rcases l.receive_cases message with ⟨-, heq⟩ | ⟨hthere, heq⟩ | heq
  · rw [heq]
    exact hl
  · rw [heq] at hroused ⊢
    refine { hl with ended := fun hended => ?_, roused := hroused }
    rw [show l.outbound = .ended from hended] at hthere
    cases hthere
  · rw [heq] at hroused ⊢
    exact { hl with roused := hroused }

theorem intact_submission {ρ : Type} {replier : ρ} {e : Envelope ρ}
    (h : l.submission? replier = some (e, l')) (hl : l.Intact p) : l'.Intact p := by
  have hroused := roused_submission h
  obtain ⟨inbound, rfl, -⟩ := exists_of_submission h
  exact { hl with roused := hroused }

theorem intact_desert (h : l.desert? = some l') (hl : l.Intact p) : l'.Intact p := by
  have hroused := roused_desert h hl.roused
  obtain ⟨-, -, rfl⟩ := desert?_eq_some_iff.mp h
  exact { hl with ended := nofun, roused := hroused }

theorem intact_peerStep {move : PeerMove} (h : p.Step l move p' l') (hmove : move ≠ .vanish)
    (hl : l.Intact p) : l'.Intact p' := by
  have hroused := roused_peerStep h hl.roused
  cases h with
  | @feed count hcan htakes hcount =>
      have hopen : l.fromPeer.closed = false := by
        simp only [Peer.canWrite, Bool.and_eq_true, Bool.not_eq_true'] at hcan
        exact hcan.1.2
      have hpos := write_pos hcount htakes hl.fromPeer_pos
      refine { hl with drained := fun h => ?_, fromPeer_pos := hpos, roused := hroused }
      rw [show l.fromPeer.closed = true from h] at hopen
      cases hopen
  | halfClose _ _ hbacklog => exact { hl with drained := fun _ => hbacklog, roused := hroused }
  | @drink count => exact { hl with toPeer_pos := read_pos count hl.toPeer_pos, roused := hroused }
  | seeEnd => exact { hl with }
  | vanish => exact absurd rfl hmove

end

/-! ## Progress -/

section

variable {l : Link} {p : Peer}

theorem takes_one {q : Pipe} (hpos : 0 < q.room + q.bytes.length) (hread : q.bytes = [])
    (hkept : q.abandoned = false) : q.takes 1 = true := by
  rw [hread, List.length_nil, Nat.add_zero] at hpos
  simp only [Pipe.takes, hkept, decide_eq_true_eq]
  exact ⟨Nat.one_pos, hpos, nofun⟩

/-- Sends off the buffer, if there is something in it. -/
theorem exists_spillBuffered (htakes : l.toPeer.takes 1 = true) (hat : l.outbound.isSending = true)
    (hunsent : l.unsent ≠ []) : ∃ l', l.AwakeStep (.spill 1) l' :=
  ⟨_, .spillBuffered hat htakes (List.length_pos_iff.mpr hunsent)⟩

/-- Writes some of a reply that is larger than the buffer. -/
theorem exists_spillReply {left : List UInt8} (htakes : l.toPeer.takes 1 = true)
    (hat : l.outbound = .writing left) (hunsent : l.unsent = []) (hfits : l.fits left = false)
    (hbuffer : 0 < l.bufferSize) : ∃ l', l.AwakeStep (.spill 1) l' := by
  have hlong : 1 ≤ left.length := by
    simp only [fits, hunsent, List.length_nil, Nat.zero_add, decide_eq_false_iff_not,
      not_and, Nat.not_le] at hfits
    omega
  rcases Nat.lt_or_eq_of_le hlong with hmore | hone
  · exact ⟨_, .spillPart hat hunsent hfits htakes hmore⟩
  · rw [hone] at htakes ⊢
    exact ⟨_, .spillRest hat hunsent hfits htakes⟩

/-- An outbound task that is not gone can move, unless it waits on an empty queue. -/
theorem Intact.exists_awakeStep (hl : l.Intact p) (hread : l.toPeer.bytes = [])
    (hthere : l.outbound ≠ .ended) (hbusy : l.outbound = .taking → l.replies.items ≠ []) :
    ∃ move l', move ≠ .suspend ∧ move ≠ .fail ∧ l.AwakeStep move l' := by
  have htakes := takes_one hl.toPeer_pos hread hl.toPeer_kept
  cases hat : l.outbound with
  | taking =>
      obtain ⟨message, rest, hitems⟩ := List.exists_cons_of_ne_nil (hbusy hat)
      exact ⟨.take, _, nofun, nofun, .take hat hitems⟩
  | took message => exact ⟨.notify, _, nofun, nofun, .notify hat⟩
  | writing left =>
      by_cases hfits : l.fits left = true
      · exact ⟨.buffer, _, nofun, nofun, .buffer hat hfits⟩
      · rw [Bool.not_eq_true] at hfits
        by_cases hunsent : l.unsent = []
        · obtain ⟨l', h⟩ := exists_spillReply htakes hat hunsent hfits hl.buffer_pos
          exact ⟨.spill 1, l', nofun, nofun, h⟩
        · exact ⟨.clear, _, nofun, nofun, .clear hat hunsent hfits⟩
  | clearing left =>
      by_cases hunsent : l.unsent = []
      · exact ⟨.flushed, _, nofun, nofun, .resume hat hunsent⟩
      · obtain ⟨l', h⟩ := exists_spillBuffered htakes (by rw [hat]; rfl) hunsent
        exact ⟨.spill 1, l', nofun, nofun, h⟩
  | wrote =>
      by_cases hitems : l.replies.items = []
      · exact ⟨.test, _, nofun, nofun, .drain hat hitems⟩
      · exact ⟨.test, _, nofun, nofun, .proceed hat hitems⟩
  | flushing =>
      by_cases hunsent : l.unsent = []
      · exact ⟨.flushed, _, nofun, nofun, .flushed hat hunsent⟩
      · obtain ⟨l', h⟩ := exists_spillBuffered htakes (by rw [hat]; rfl) hunsent
        exact ⟨.spill 1, l', nofun, nofun, h⟩
  | shutting =>
      by_cases hunsent : l.unsent = []
      · exact ⟨.finish, _, nofun, nofun, .finish hat hunsent⟩
      · obtain ⟨l', h⟩ := exists_spillBuffered htakes (by rw [hat]; rfl) hunsent
        exact ⟨.spill 1, l', nofun, nofun, h⟩
  | ended => exact absurd hat hthere

/-- Whether the inbound task has something for the core. -/
theorem submission_isSome {ρ : Type} (replier : ρ) (hat : l.inbound = .opening
    ∨ (∃ record, l.inbound = .holding record) ∨ l.inbound = .closing) :
    ∃ e l', l.submission? replier = some (e, l') := by
  rcases hat with hat | ⟨record, hat⟩ | hat
  · exact ⟨_, _, by rw [submission?, hat]⟩
  · cases record with
    | error => exact ⟨_, _, by rw [submission?, hat]⟩
    | ok r => exact ⟨_, _, by rw [submission?, hat]⟩
  · exact ⟨_, _, by rw [submission?, hat]⟩

/-- A task that reads can go on, or its peer can. -/
theorem Intact.exists_reading (hl : l.Intact p) (hat : l.inbound = .reading) :
    (∃ move l', move ≠ .fail ∧ l.InboundStep move l') ∨
    (∃ move p' l', move ≠ .vanish ∧ move ≠ .seeEnd ∧ p.Step l move p' l') := by
  by_cases hunread : l.unread = []
  · by_cases hbytes : l.fromPeer.bytes = []
    · by_cases hclosed : l.fromPeer.closed = true
      · have hend : l.fromPeer.isAtEnd = true := by simp [Pipe.isAtEnd, hclosed, hbytes]
        cases hrecord : (Decoder.atEnd l.line : Option (Except DecodeError Request)) with
        | none => exact .inl ⟨.endOfInput, _, by simp, .finish hat hunread hend hrecord⟩
        | some record => exact .inl ⟨.endOfInput, _, by simp, .last hat hunread hend hrecord⟩
      · have hcan : p.canWrite l = true := by
          rw [Bool.not_eq_true] at hclosed
          simp [Peer.canWrite, hl.there, hclosed, isOver, hat, InboundPhase.isEnded]
        by_cases hbacklog : p.backlog = []
        · exact .inr ⟨.halfClose, _, _, by simp, by simp, .halfClose hcan hl.finishing hbacklog⟩
        · have hone : (p.backlog.take 1).length = 1 := by
            have hpos := List.length_pos_iff.mpr hbacklog
            rw [List.length_take]
            omega
          have htakes := takes_one hl.fromPeer_pos hbytes hl.fromPeer_kept
          exact .inr ⟨.feed 1, _, _, by simp, by simp, .feed hcan htakes hone⟩
    · have hgives : l.fromPeer.gives 1 = true := by
        have hpos := List.length_pos_iff.mpr hbytes
        simp only [Pipe.gives, Pipe.front, List.length_take, decide_eq_true_eq]
        omega
      exact .inl ⟨.fetch 1, _, by simp, .fetch hat hunread hgives⟩
  · cases hnext : (Decoder.next l.line l.unread : Decoded Request) with
    | unfinished line => exact .inl ⟨.decode, _, by simp, .lengthen hat hunread hnext⟩
    | result record rest => exact .inl ⟨.decode, _, by simp, .find hat hunread hnext⟩

/-- While the inbound task is there and not waiting, it can move, or it has something for the core,
or its peer can move. -/
theorem Intact.exists_inbound {ρ : Type} (replier : ρ) (hl : l.Intact p)
    (hthere : l.inbound ≠ .ended) (hawake : l.inbound ≠ .parked false) :
    (∃ e l', l.submission? replier = some (e, l')) ∨
    (∃ move l', move ≠ .fail ∧ l.InboundStep move l') ∨
    (∃ move p' l', move ≠ .vanish ∧ move ≠ .seeEnd ∧ p.Step l move p' l') := by
  cases hat : l.inbound with
  | opening => exact .inl (submission_isSome replier (.inl hat))
  | checking =>
      by_cases hroom : l.replies.size < l.window
      · exact .inr (.inl ⟨.check, _, nofun, .enter hat hroom⟩)
      · exact .inr (.inl ⟨.check, _, nofun, .throttle hat (Nat.le_of_not_lt hroom)⟩)
  | throttled =>
      cases hpermit : l.permit with
      | true => exact .inr (.inl ⟨.wait, _, nofun, .redeem hat hpermit⟩)
      | false => exact .inr (.inl ⟨.wait, _, nofun, .park hat hpermit⟩)
  | parked woken =>
      cases woken with
      | true => exact .inr (.inl ⟨.wake, _, nofun, .wake hat⟩)
      | false => exact absurd hat hawake
  | reading => exact .inr (hl.exists_reading hat)
  | holding record => exact .inl (submission_isSome replier (.inr (.inl ⟨record, hat⟩)))
  | closing => exact .inl (submission_isSome replier (.inr (.inr hat)))
  | ended => exact absurd hat hthere

end

end Link

end LockService
