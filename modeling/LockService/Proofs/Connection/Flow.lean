import LockService.Proofs.Connection.Callers
import LockService.Proofs.Connection.Steps
import LockService.Proofs.Stream.Pieces

/-!
# What flows through a link

A link turns bytes into envelopes and replies into bytes.  For both directions there is a quantity
that no move of its tasks or of its peer changes, as long as nothing fails.

* `Link.toCome` — the envelopes that the inbound task has still to pass on: those in the bytes under
  way, in the bytes that it has read and not looked at, in the line at hand, and what it holds.
  Passing one on takes off the first (`toCome_submission`).
* `Link.underway` — the bytes that the peer has still to read: those on the stream, in the buffer,
  of the reply at hand, and of the replies queued.  Reading takes off the first
  (`received_append_underway_peerStep`), and a message from the core is added at the end
  (`underway_receive`).
-/

namespace LockService

namespace Link

/-! ## Towards the core -/

/-- What the stream gives from here on, if its peer still sends `backlog`. -/
def recordsToCome (l : Link) (backlog : List UInt8) : List (Except DecodeError Request) :=
  Decoder.allFrom l.line (l.unread ++ l.fromPeer.bytes ++ backlog)

def commandsToCome (l : Link) (position : Nat) (backlog : List UInt8) : List (Command Nat) :=
  match l.inbound with
  | .opening => .opening position :: Command.ofRecords (l.recordsToCome backlog)
  | .checking | .throttled | .parked _ | .reading => Command.ofRecords (l.recordsToCome backlog)
  | .holding record => Command.ofRecords (record :: l.recordsToCome backlog)
  | .closing => [.closing]
  | .ended => []

/-- The envelopes that the link at a position has still to pass on, if its peer still sends
`backlog`. -/
def toCome (l : Link) (position : Nat) (backlog : List UInt8) : List (Envelope Nat) :=
  (l.commandsToCome position backlog).map (⟨l.id, ·⟩)

section

variable {l l' : Link} {position : Nat} {backlog : List UInt8}

theorem toCome_congr (hid : l'.id = l.id) (hinbound : l'.inbound = l.inbound)
    (hrecords : l'.recordsToCome backlog = l.recordsToCome backlog) :
    l'.toCome position backlog = l.toCome position backlog := by
  simp only [toCome, commandsToCome, hid, hinbound, hrecords]

theorem recordsToCome_of_end (hunread : l.unread = []) (hend : l.fromPeer.isAtEnd = true)
    (hdrained : l.fromPeer.closed = true → backlog = []) :
    l.recordsToCome backlog = (Decoder.atEnd l.line).toList := by
  simp only [Pipe.isAtEnd, Bool.and_eq_true, List.isEmpty_iff] at hend
  rw [recordsToCome, hunread, hend.2, hdrained hend.1]
  exact Decoder.allFrom_nil l.line

/-- The moves of the inbound task turn bytes into what the core is told, and lose nothing. -/
theorem toCome_inboundStep {move : InboundMove} (h : l.InboundStep move l') (hmove : move ≠ .fail)
    (hdown : l.hungUp = false) (hdrained : l.fromPeer.closed = true → backlog = []) :
    l'.toCome position backlog = l.toCome position backlog := by
  cases h with
  | quit hhung => rw [hdown] at hhung; cases hhung
  | enter hat => simp only [toCome, commandsToCome, hat, recordsToCome]
  | throttle hat => simp only [toCome, commandsToCome, hat, recordsToCome]
  | redeem hat => simp only [toCome, commandsToCome, hat, recordsToCome]
  | park hat => simp only [toCome, commandsToCome, hat, recordsToCome]
  | wake hat => simp only [toCome, commandsToCome, hat, recordsToCome]
  | @fetch count hat hunread =>
      refine toCome_congr rfl rfl ?_
      simp only [recordsToCome]
      rw [l.fromPeer.front_append_bytes_read count, hunread, List.nil_append]
  | lengthen hat _ hnext =>
      refine toCome_congr rfl rfl ?_
      simp only [recordsToCome, List.nil_append, List.append_assoc]
      rw [Decoder.allFrom_append_of_unfinished hnext]
  | find hat _ hnext =>
      simp only [toCome, commandsToCome, hat, recordsToCome, List.append_assoc]
      rw [Decoder.allFrom_append_of_result hnext]
  | @last record hat hunread hend hrecord =>
      have hlast : l.recordsToCome backlog = [record] := by
        rw [recordsToCome_of_end hunread hend hdrained, hrecord]
        rfl
      have hnone : { l with inbound := .holding record, line := .empty }.recordsToCome backlog
          = [] :=
        recordsToCome_of_end (l := { l with inbound := .holding record, line := .empty })
          hunread hend hdrained
      simp only [toCome, commandsToCome, hat, hlast, hnone]
  | finish hat hunread hend hrecord =>
      have hnone : l.recordsToCome backlog = [] := by
        rw [recordsToCome_of_end hunread hend hdrained, hrecord]
        rfl
      simp only [toCome, commandsToCome, hat, hnone, Command.ofRecords]
  | fail => exact absurd rfl hmove

theorem toCome_notify (outbound : OutboundPhase) :
    ({ l.notify with outbound } : Link).toCome position backlog = l.toCome position backlog := by
  unfold notify
  split
  · next hat => simp only [toCome, commandsToCome, hat, recordsToCome]
  · exact toCome_congr rfl rfl rfl

/-- What the outbound task does is nothing to the other direction. -/
theorem toCome_outboundStep {move : OutboundMove} (h : l.OutboundStep move l') :
    l'.toCome position backlog = l.toCome position backlog := by
  cases h with
  | giveUp => exact toCome_congr rfl rfl rfl
  | rouse => exact toCome_congr rfl rfl rfl
  | awake _ hstep =>
      cases hstep with
      | notify => exact toCome_notify _
      | fail hfail =>
          rcases failWrite_cases hfail with rfl | ⟨-, rfl⟩
          · exact toCome_congr rfl rfl rfl
          · exact toCome_congr rfl rfl rfl
      | _ => exact toCome_congr rfl rfl rfl

theorem toCome_desert (h : l.desert? = some l') :
    l'.toCome position backlog = l.toCome position backlog := by
  obtain ⟨-, -, rfl⟩ := desert?_eq_some_iff.mp h
  exact toCome_congr rfl rfl rfl

theorem toCome_receive (message : Outbound) :
    (l.receive message).toCome position backlog = l.toCome position backlog := by
  rcases l.receive_cases message with ⟨-, heq⟩ | ⟨-, heq⟩ | heq
  · rw [heq]
  · rw [heq]
    exact toCome_congr rfl rfl rfl
  · rw [heq]
    exact toCome_congr rfl rfl rfl

/-- What a peer writes was still to come. -/
theorem toCome_peerStep {p p' : Peer} {move : PeerMove} (h : p.Step l move p' l')
    (hmove : move ≠ .vanish) :
    l'.toCome position p'.backlog = l.toCome position p.backlog := by
  cases h with
  | @feed count =>
      have hrecords : { l with fromPeer := l.fromPeer.write (p.backlog.take count) }.recordsToCome
          (p.backlog.drop count) = l.recordsToCome p.backlog := by
        simp only [recordsToCome, Pipe.write, List.append_assoc, List.take_append_drop]
      simp only [toCome, commandsToCome, hrecords]
  | halfClose => exact toCome_congr rfl rfl rfl
  | drink => exact toCome_congr rfl rfl rfl
  | seeEnd => rfl
  | vanish => exact absurd rfl hmove

/-- Passing something on takes it off what is still to come. -/
theorem toCome_submission {e : Envelope Nat} (h : l.submission? position = some (e, l')) :
    l.toCome position backlog = e :: l'.toCome position backlog := by
  unfold submission? at h
  split at h
  all_goals cases h
  all_goals next hat =>
    simp only [toCome, commandsToCome, hat, Command.ofRecords, recordsToCome, List.map_cons,
      List.map_nil]

end

/-! ## Towards the peer -/

/-- What the outbound task is at and has not finished with; once it closes the stream, that is the
last message. -/
def current (l : Link) : List Outbound :=
  match l.outbound with
  | .took message => [message]
  | .shutting | .ended => [.closed]
  | .taking | .writing _ | .clearing _ | .wrote | .flushing => []

/-- The messages that the outbound task has still to finish with. -/
def unfinished (l : Link) : List Outbound :=
  l.current ++ l.replies.items

/-- The bytes of the reply at hand. -/
def inHand (l : Link) : List UInt8 :=
  match l.outbound with
  | .took message => message.bytes
  | .writing left | .clearing left => left
  | .taking | .wrote | .flushing | .shutting | .ended => []

/-- The bytes that the peer has still to read. -/
def underway (l : Link) : List UInt8 :=
  l.toPeer.bytes ++ l.unsent ++ l.inHand ++ l.replies.items.flatMap Outbound.bytes

section

variable {l l' : Link}

theorem underway_inboundStep {move : InboundMove} (h : l.InboundStep move l') :
    l'.underway = l.underway := by
  cases h <;> rfl

theorem unfinished_inboundStep {move : InboundMove} (h : l.InboundStep move l') :
    l'.unfinished = l.unfinished := by
  cases h <;> rfl

theorem underway_submission {ρ : Type} {replier : ρ} {e : Envelope ρ}
    (h : l.submission? replier = some (e, l')) : l'.underway = l.underway := by
  obtain ⟨inbound, rfl, -⟩ := exists_of_submission h
  rfl

theorem unfinished_submission {ρ : Type} {replier : ρ} {e : Envelope ρ}
    (h : l.submission? replier = some (e, l')) : l'.unfinished = l.unfinished := by
  obtain ⟨inbound, rfl, -⟩ := exists_of_submission h
  rfl

/-- The moves of the outbound task turn replies into bytes on the stream, and lose nothing. -/
theorem underway_awakeStep {move : OutboundMove} (h : l.AwakeStep move l') (hmove : move ≠ .fail)
    (hlast : l.outbound = .shutting → l.replies.items = []) : l'.underway = l.underway := by
  cases h with
  | suspend => rfl
  | take hat hitems => simp [underway, inHand, hat, hitems]
  | @notify message hat =>
      obtain ⟨inbound, permit, hnotify⟩ := l.notify_eq
      rw [hnotify]
      cases message <;>
        simp [underway, inHand, hat, OutboundPhase.ofMessage, Outbound.bytes]
  | buffer hat => simp [underway, inHand, hat]
  | clear hat => simp [underway, inHand, hat]
  | spillPart hat hunsent => simp [underway, inHand, hat, hunsent, Pipe.write]
  | spillRest hat hunsent => simp [underway, inHand, hat, hunsent, Pipe.write]
  | spillBuffered => simp [underway, inHand, Pipe.write]
  | drain hat => simp [underway, inHand, hat]
  | proceed hat => simp [underway, inHand, hat]
  | resume hat => simp [underway, inHand, hat]
  | flushed hat => simp [underway, inHand, hat]
  | finish hat hunsent =>
      simp [underway, inHand, hat, hunsent, hlast hat, endOutbound, Queue.clear, Pipe.close]
  | fail => exact absurd rfl hmove

theorem underway_outboundStep {move : OutboundMove} (h : l.OutboundStep move l')
    (hmove : move ≠ .fail) (hdown : l.hungUp = false)
    (hlast : l.outbound = .shutting → l.replies.items = []) : l'.underway = l.underway := by
  cases h with
  | giveUp _ hhung => rw [hdown] at hhung; cases hhung
  | rouse => rfl
  | awake _ hstep => exact underway_awakeStep hstep hmove hlast

/-- The outbound task finishes with its messages in their order. -/
theorem unfinished_awakeStep {move : OutboundMove} (h : l.AwakeStep move l') (hmove : move ≠ .fail)
    (hlast : l.outbound = .shutting → l.replies.items = []) : l'.unfinished <:+ l.unfinished := by
  cases h with
  | suspend => exact List.suffix_rfl
  | take hat hitems => simp [unfinished, current, hat, hitems]
  | @notify message hat =>
      obtain ⟨inbound, permit, hnotify⟩ := l.notify_eq
      rw [hnotify]
      cases message with
      | reply r => simp [unfinished, current, OutboundPhase.ofMessage]
      | closed => simp [unfinished, current, hat, OutboundPhase.ofMessage]
  | buffer hat => simp [unfinished, current, hat]
  | clear hat => simp [unfinished, current, hat]
  | spillPart hat => simp [unfinished, current, hat]
  | spillRest hat => simp [unfinished, current, hat]
  | spillBuffered => exact List.suffix_rfl
  | drain hat => simp [unfinished, current, hat]
  | proceed hat => simp [unfinished, current, hat]
  | resume hat => simp [unfinished, current, hat]
  | flushed hat => simp [unfinished, current, hat]
  | finish hat => simp [unfinished, current, hat, hlast hat, endOutbound, Queue.clear]
  | fail => exact absurd rfl hmove

theorem unfinished_outboundStep {move : OutboundMove} (h : l.OutboundStep move l')
    (hmove : move ≠ .fail) (hdown : l.hungUp = false)
    (hlast : l.outbound = .shutting → l.replies.items = []) : l'.unfinished <:+ l.unfinished := by
  cases h with
  | giveUp _ hhung => rw [hdown] at hhung; cases hhung
  | rouse => exact List.suffix_rfl
  | awake _ hstep => exact unfinished_awakeStep hstep hmove hlast

/-- What a peer reads was under way. -/
theorem received_append_underway_peerStep {p p' : Peer} {move : PeerMove}
    (h : p.Step l move p' l') : p'.received ++ l'.underway = p.received ++ l.underway := by
  cases h with
  | @drink count =>
      have hfront := l.toPeer.front_append_bytes_read count
      simp only [Peer.received, List.reverse_append, List.reverse_reverse, List.append_assoc,
        underway]
      rw [← hfront]
      simp [inHand]
  | feed => rfl
  | halfClose => rfl
  | seeEnd => rfl
  | vanish => rfl

theorem unfinished_peerStep {p p' : Peer} {move : PeerMove} (h : p.Step l move p' l') :
    l'.unfinished = l.unfinished := by
  cases h <;> rfl

/-- A message that finds the outbound task there and does not hang the connection up is queued. -/
theorem receive_eq {message : Outbound} (hat : l.outbound.isEnded = false)
    (hdown : (l.receive message).hungUp = false) :
    l.receive message
      = { l with replies := { l.replies with items := l.replies.items ++ [message] } } := by
  rcases l.receive_cases message with ⟨hended, -⟩ | ⟨-, heq⟩ | heq
  · rw [hat] at hended
    cases hended
  · exact heq
  · rw [heq] at hdown
    cases hdown

theorem underway_receive {message : Outbound} (hat : l.outbound.isEnded = false)
    (hdown : (l.receive message).hungUp = false) :
    (l.receive message).underway = l.underway ++ message.bytes := by
  rw [receive_eq hat hdown]
  simp [underway, inHand]

theorem unfinished_receive {message : Outbound} (hat : l.outbound.isEnded = false)
    (hdown : (l.receive message).hungUp = false) :
    (l.receive message).unfinished = l.unfinished ++ [message] := by
  rw [receive_eq hat hdown]
  simp [unfinished, current]

end

end Link

end LockService
