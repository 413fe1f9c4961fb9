import LockService.Connection.Scenario

/-!
# Moves as relations

Everything that the tasks of a link, a peer and a whole scenario can do, with one constructor for
each way in which a move can turn out.  The relations say the same as the functions that make the
moves — `of_eq` leads from a function to its relation and `step?_eq` back, and for a peer
`Peer.step?_eq_some_iff` says both at once — so a proof about moves takes their cases from here, and
a proof that somebody can move names the constructor.

A link also changes when a message is delivered, something is submitted, a write fails or its
replier is dropped; what each of these can do is said once, too (`Link.receive_cases` and those
around it).  What holds of every move alike stands at the end: a hang-up flag is never lowered.
-/

namespace LockService

namespace Link

/-- What a move of the inbound task can do. -/
inductive InboundStep (l : Link) : InboundMove → Link → Prop
  | quit (hhung : l.hungUp = true) (hheeds : l.inbound.heedsHangUp = true) :
      InboundStep l .quit { l with inbound := .closing }
  | enter (hat : l.inbound = .checking) (hroom : l.replies.size < l.window) :
      InboundStep l .check { l with inbound := .reading }
  | throttle (hat : l.inbound = .checking) (hfull : l.window ≤ l.replies.size) :
      InboundStep l .check { l with inbound := .throttled }
  | redeem (hat : l.inbound = .throttled) (hpermit : l.permit = true) :
      InboundStep l .wait { l with inbound := .checking, permit := false }
  | park (hat : l.inbound = .throttled) (hpermit : l.permit = false) :
      InboundStep l .wait { l with inbound := .parked false }
  | wake (hat : l.inbound = .parked true) :
      InboundStep l .wake { l with inbound := .checking }
  | fetch {count : Nat} (hat : l.inbound = .reading) (hunread : l.unread = [])
      (hgives : l.fromPeer.gives count = true) :
      InboundStep l (.fetch count)
        { l with unread := l.fromPeer.front count, fromPeer := l.fromPeer.read count }
  | lengthen {line : Partial} (hat : l.inbound = .reading) (hunread : l.unread ≠ [])
      (hnext : (Decoder.next l.line l.unread : Decoded Request) = .unfinished line) :
      InboundStep l .decode { l with line, unread := [] }
  | find {record : Except DecodeError Request} {rest : List UInt8} (hat : l.inbound = .reading)
      (hunread : l.unread ≠ []) (hnext : Decoder.next l.line l.unread = .result record rest) :
      InboundStep l .decode { l with inbound := .holding record, line := .empty, unread := rest }
  | last {record : Except DecodeError Request} (hat : l.inbound = .reading)
      (hunread : l.unread = []) (hend : l.fromPeer.isAtEnd = true)
      (hrecord : Decoder.atEnd l.line = some record) :
      InboundStep l .endOfInput { l with inbound := .holding record, line := .empty }
  | finish (hat : l.inbound = .reading) (hunread : l.unread = [])
      (hend : l.fromPeer.isAtEnd = true)
      (hrecord : (Decoder.atEnd l.line : Option (Except DecodeError Request)) = none) :
      InboundStep l .endOfInput { l with inbound := .closing, line := .empty }
  | fail (hat : l.inbound = .reading) : InboundStep l .fail { l with inbound := .closing }

theorem InboundStep.of_eq {l l' : Link} {move : InboundMove} (h : l.inboundStep? move = some l') :
    l.InboundStep move l' := by
  cases move with
  | quit =>
      simp only [inboundStep?, Bool.and_eq_true] at h
      split at h
      · next hquit => cases h; exact .quit hquit.1 hquit.2
      · cases h
  | check =>
      simp only [inboundStep?] at h
      split at h
      · next hat =>
        cases h
        by_cases hroom : l.replies.size < l.window
        · have heq : l.hasRoom = true := by simpa [hasRoom] using hroom
          rw [heq]
          exact .enter hat hroom
        · have heq : l.hasRoom = false := by simpa [hasRoom] using hroom
          rw [heq]
          exact .throttle hat (Nat.le_of_not_lt hroom)
      · cases h
  | wait =>
      simp only [inboundStep?] at h
      split at h
      · next hat =>
        split at h
        · next hpermit => cases h; exact .redeem hat hpermit
        · next hpermit => cases h; exact .park hat (Bool.not_eq_true _ ▸ hpermit)
      · cases h
  | wake =>
      simp only [inboundStep?] at h
      split at h
      · next hat => cases h; exact .wake hat
      · cases h
  | fetch count =>
      simp only [inboundStep?, Bool.and_eq_true, List.isEmpty_iff] at h
      split at h
      · next hat =>
        split at h
        · next hfetch => cases h; exact .fetch hat hfetch.1 hfetch.2
        · cases h
      · cases h
  | decode =>
      simp only [inboundStep?, List.isEmpty_iff] at h
      split at h
      · next hat =>
        split at h
        · cases h
        · next hunread =>
          cases h
          unfold decode
          split
          · next line hnext => exact .lengthen hat hunread hnext
          · next record rest hnext => exact .find hat hunread hnext
      · cases h
  | endOfInput =>
      simp only [inboundStep?, Bool.and_eq_true, List.isEmpty_iff] at h
      split at h
      · next hat =>
        split at h
        · next hend =>
          cases h
          cases hrecord : (Decoder.atEnd l.line : Option (Except DecodeError Request)) with
          | none => exact .finish hat hend.1 hend.2 hrecord
          | some record => exact .last hat hend.1 hend.2 hrecord
        · cases h
      · cases h
  | fail =>
      simp only [inboundStep?] at h
      split at h
      · next hat => cases h; exact .fail hat
      · cases h

theorem InboundStep.step?_eq {l l' : Link} {move : InboundMove} (h : l.InboundStep move l') :
    l.inboundStep? move = some l' := by
  cases h with
  | quit hhung hheeds => simp [inboundStep?, hhung, hheeds]
  | enter hat hroom => simp [inboundStep?, hat, hasRoom, hroom]
  | throttle hat hfull => simp [inboundStep?, hat, hasRoom, Nat.not_lt.mpr hfull]
  | redeem hat hpermit => simp [inboundStep?, hat, hpermit]
  | park hat hpermit => simp [inboundStep?, hat, hpermit]
  | wake hat => simp [inboundStep?, hat]
  | fetch hat hunread hgives => simp [inboundStep?, hat, hunread, hgives]
  | lengthen hat hunread hnext => simp [inboundStep?, hat, hunread, decode, hnext]
  | find hat hunread hnext => simp [inboundStep?, hat, hunread, decode, hnext]
  | last hat hunread hend hrecord => simp [inboundStep?, hat, hunread, hend, hrecord, conclude]
  | finish hat hunread hend hrecord => simp [inboundStep?, hat, hunread, hend, hrecord, conclude]
  | fail hat => simp [inboundStep?, hat]

end Link

/-- Whether the outbound task sends off its buffer here. -/
def OutboundPhase.isSending : OutboundPhase → Bool
  | .clearing _ | .flushing | .shutting => true
  | .taking | .took _ | .writing _ | .wrote | .ended => false

namespace Link

/-- What a move of an outbound task can do that has looked at the flag. -/
inductive AwakeStep (l : Link) : OutboundMove → Link → Prop
  | suspend (hat : l.outbound.mayWait = true) : AwakeStep l .suspend { l with awake := false }
  | take {message : Outbound} {rest : List Outbound} (hat : l.outbound = .taking)
      (hitems : l.replies.items = message :: rest) :
      AwakeStep l .take
        { l with replies := { l.replies with items := rest }, outbound := .took message }
  | notify {message : Outbound} (hat : l.outbound = .took message) :
      AwakeStep l .notify { l.notify with outbound := .ofMessage message }
  | buffer {left : List UInt8} (hat : l.outbound = .writing left) (hfits : l.fits left = true) :
      AwakeStep l .buffer { l with unsent := l.unsent ++ left, outbound := .wrote }
  | clear {left : List UInt8} (hat : l.outbound = .writing left) (hunsent : l.unsent ≠ [])
      (hfits : l.fits left = false) : AwakeStep l .clear { l with outbound := .clearing left }
  | spillPart {left : List UInt8} {count : Nat} (hat : l.outbound = .writing left)
      (hunsent : l.unsent = []) (hfits : l.fits left = false)
      (htakes : l.toPeer.takes count = true) (hcount : count < left.length) :
      AwakeStep l (.spill count)
        { l with
          toPeer := l.toPeer.write (left.take count), outbound := .writing (left.drop count) }
  | spillRest {left : List UInt8} (hat : l.outbound = .writing left)
      (hunsent : l.unsent = []) (hfits : l.fits left = false)
      (htakes : l.toPeer.takes left.length = true) :
      AwakeStep l (.spill left.length)
        { l with toPeer := l.toPeer.write left, outbound := .wrote }
  | spillBuffered {count : Nat} (hat : l.outbound.isSending = true)
      (htakes : l.toPeer.takes count = true) (hcount : count ≤ l.unsent.length) :
      AwakeStep l (.spill count)
        { l with
          toPeer := l.toPeer.write (l.unsent.take count), unsent := l.unsent.drop count }
  | drain (hat : l.outbound = .wrote) (hitems : l.replies.items = []) :
      AwakeStep l .test { l with outbound := .flushing }
  | proceed (hat : l.outbound = .wrote) (hitems : l.replies.items ≠ []) :
      AwakeStep l .test { l with outbound := .taking }
  | resume {left : List UInt8} (hat : l.outbound = .clearing left) (hunsent : l.unsent = []) :
      AwakeStep l .flushed { l with outbound := .writing left }
  | flushed (hat : l.outbound = .flushing) (hunsent : l.unsent = []) :
      AwakeStep l .flushed { l with outbound := .taking }
  | finish (hat : l.outbound = .shutting) (hunsent : l.unsent = []) :
      AwakeStep l .finish { l.endOutbound with toPeer := l.toPeer.close }
  | fail {l' : Link} (hfail : l.failWrite = some l') : AwakeStep l .fail l'

theorem AwakeStep.of_eq {l l' : Link} {move : OutboundMove}
    (h : l.outboundStepAwake? move = some l') : l.AwakeStep move l' := by
  cases move with
  | look => cases h
  | suspend =>
      simp only [outboundStepAwake?] at h
      split at h
      · next hat => cases h; exact .suspend hat
      · cases h
  | take =>
      simp only [outboundStepAwake?] at h
      split at h
      · next hat =>
        obtain ⟨⟨message, replies⟩, hpop, rfl⟩ := Option.map_eq_some_iff.mp h
        unfold Queue.pop? at hpop
        split at hpop
        · cases hpop
        · next hitems => cases hpop; exact .take hat hitems
      · cases h
  | notify =>
      simp only [outboundStepAwake?] at h
      split at h
      · next hat => cases h; exact .notify hat
      · cases h
  | buffer =>
      simp only [outboundStepAwake?] at h
      split at h
      · next hat =>
        split at h
        · next hfits => cases h; exact .buffer hat hfits
        · cases h
      · cases h
  | clear =>
      simp only [outboundStepAwake?] at h
      split at h
      · next hat =>
        split at h
        · cases h
        · next hclear =>
          rw [Bool.or_eq_true, not_or, List.isEmpty_iff, Bool.not_eq_true] at hclear
          cases h
          exact .clear hat hclear.1 hclear.2
      · cases h
  | spill count =>
      simp only [outboundStepAwake?, spill] at h
      split at h
      · next hat =>
        simp only [Bool.and_eq_true, Bool.not_eq_true', spillReply] at h
        split at h
        · next hdirect =>
          have hunsent := List.isEmpty_iff.mp hdirect.1
          split at h
          · next hspill =>
            rcases Nat.lt_or_eq_of_le hspill.2 with hcount | rfl
            · rw [if_neg (by simpa using hcount)] at h
              cases h
              exact .spillPart hat hunsent hdirect.2 hspill.1 hcount
            · rw [if_pos (by simp), List.take_length] at h
              cases h
              exact .spillRest hat hunsent hdirect.2 hspill.1
          · cases h
        · cases h
      all_goals try cases h
      all_goals
        next hat =>
        unfold spillBuffer at h
        split at h
        · next hspill =>
          cases h
          exact .spillBuffered (by rw [hat]; rfl) hspill.1 hspill.2
        · cases h
  | test =>
      simp only [outboundStepAwake?, Queue.isEmpty, List.isEmpty_iff] at h
      split at h
      · next hat =>
        cases h
        split
        · next hitems => exact .drain hat hitems
        · next hitems => exact .proceed hat hitems
      · cases h
  | flushed =>
      simp only [outboundStepAwake?, List.isEmpty_iff] at h
      split at h
      · next hat =>
        split at h
        · next hunsent => cases h; exact .resume hat hunsent
        · cases h
      · next hat =>
        split at h
        · next hunsent => cases h; exact .flushed hat hunsent
        · cases h
      · cases h
  | finish =>
      simp only [outboundStepAwake?, List.isEmpty_iff] at h
      split at h
      · next hat =>
        split at h
        · next hunsent => cases h; exact .finish hat hunsent
        · cases h
      · cases h
  | fail => exact .fail h

theorem AwakeStep.step?_eq {l l' : Link} {move : OutboundMove} (h : l.AwakeStep move l') :
    l.outboundStepAwake? move = some l' := by
  cases h with
  | suspend hat => simp [outboundStepAwake?, hat]
  | take hat hitems => simp [outboundStepAwake?, hat, Queue.pop?, hitems]
  | notify hat => simp [outboundStepAwake?, hat]
  | buffer hat hfits => simp [outboundStepAwake?, hat, hfits]
  | clear hat hunsent hfits => simp [outboundStepAwake?, hat, hunsent, hfits]
  | spillPart hat hunsent hfits htakes hcount =>
      simp [outboundStepAwake?, spill, spillReply, hat, hunsent, hfits, htakes,
        Nat.le_of_lt hcount, Nat.not_le.mpr hcount]
  | spillRest hat hunsent hfits htakes =>
      simp [outboundStepAwake?, spill, spillReply, hat, hunsent, hfits, htakes]
  | spillBuffered hat htakes hcount =>
      simp only [outboundStepAwake?, spill]
      cases hphase : l.outbound <;> simp [hphase, OutboundPhase.isSending] at hat <;>
        simp [spillBuffer, htakes, hcount, hphase]
  | drain hat hitems => simp [outboundStepAwake?, hat, Queue.isEmpty, hitems]
  | proceed hat hitems => simp [outboundStepAwake?, hat, Queue.isEmpty, hitems]
  | resume hat hunsent => simp [outboundStepAwake?, hat, hunsent]
  | flushed hat hunsent => simp [outboundStepAwake?, hat, hunsent]
  | finish hat hunsent => simp [outboundStepAwake?, hat, hunsent]
  | fail hfail => exact hfail

/-- What a move of the outbound task can do. -/
inductive OutboundStep (l : Link) : OutboundMove → Link → Prop
  | giveUp (hasleep : l.awake = false) (hhung : l.hungUp = true)
      (hheeds : l.outbound.heedsHangUp = true) (hat : l.outbound.isEnded = false) :
      OutboundStep l .look l.endOutbound
  | rouse (hasleep : l.awake = false) (hat : l.outbound.isEnded = false)
      (hdown : (l.hungUp && l.outbound.heedsHangUp) = false) :
      OutboundStep l .look { l with awake := true }
  | awake {move : OutboundMove} {l' : Link} (hawake : l.awake = true)
      (hstep : l.AwakeStep move l') : OutboundStep l move l'

theorem OutboundStep.of_eq {l l' : Link} {move : OutboundMove}
    (h : l.outboundStep? move = some l') : l.OutboundStep move l' := by
  unfold outboundStep? at h
  split at h
  · next hawake => exact .awake hawake (.of_eq h)
  · next hasleep =>
    rw [Bool.not_eq_true] at hasleep
    cases move with
    | look =>
        simp only at h
        split at h
        · cases h
        · next hat =>
          rw [Bool.not_eq_true] at hat
          split at h
          · next hhung =>
            rw [Bool.and_eq_true] at hhung
            cases h
            exact .giveUp hasleep hhung.1 hhung.2 hat
          · next hdown =>
            cases h
            exact .rouse hasleep hat (Bool.not_eq_true _ ▸ hdown)
    | _ => cases h

theorem OutboundStep.step?_eq {l l' : Link} {move : OutboundMove} (h : l.OutboundStep move l') :
    l.outboundStep? move = some l' := by
  cases h with
  | giveUp hasleep hhung hheeds hat => simp [outboundStep?, hasleep, hhung, hheeds, hat]
  | rouse hasleep hat hdown =>
      unfold outboundStep?
      rw [hasleep, if_neg Bool.false_ne_true]
      simp only [hat, hdown, Bool.false_eq_true, if_false]
  | awake hawake hstep =>
      unfold outboundStep?
      rw [hawake, if_pos rfl]
      exact hstep.step?_eq

end Link

namespace Peer

/-- What a move of a peer can do. -/
inductive Step (p : Peer) (l : Link) : PeerMove → Peer → Link → Prop
  | feed {count : Nat} (hcan : p.canWrite l = true) (htakes : l.fromPeer.takes count = true)
      (hcount : (p.backlog.take count).length = count) :
      Step p l (.feed count) { p with backlog := p.backlog.drop count }
        { l with fromPeer := l.fromPeer.write (p.backlog.take count) }
  | halfClose (hcan : p.canWrite l = true) (hfinishing : p.finishing = true)
      (hbacklog : p.backlog = []) :
      Step p l .halfClose p { l with fromPeer := l.fromPeer.close }
  | drink {count : Nat} (hreads : p.isReading = true) (hgives : l.toPeer.gives count = true) :
      Step p l (.drink count) { p with heard := (l.toPeer.front count).reverse ++ p.heard }
        { l with toPeer := l.toPeer.read count }
  | seeEnd (hreads : p.isReading = true) (hunseen : p.sawEnd = false)
      (hclosed : l.isClosedToPeer = true) (hempty : l.toPeer.bytes = []) :
      Step p l .seeEnd { p with sawEnd := true } l
  | vanish (hthere : p.gone = false) :
      Step p l .vanish { p with gone := true, backlog := [] }
        { l with fromPeer := l.fromPeer.close, toPeer := l.toPeer.abandon }

/-- The relation and the function make the same moves of a peer. -/
theorem step?_eq_some_iff {p p' : Peer} {l l' : Link} {move : PeerMove} :
    p.step? l move = some (p', l') ↔ p.Step l move p' l' := by
  constructor
  · intro h
    cases move with
    | feed count =>
        simp only [step?] at h
        split at h
        · next hfeed => cases h; exact .feed hfeed.1 hfeed.2.1 hfeed.2.2
        · cases h
    | halfClose =>
        simp only [step?, Bool.and_eq_true, List.isEmpty_iff] at h
        split at h
        · next hclose => cases h; exact .halfClose hclose.1.1 hclose.1.2 hclose.2
        · cases h
    | drink count =>
        simp only [step?, Bool.and_eq_true] at h
        split at h
        · next hdrink => cases h; exact .drink hdrink.1 hdrink.2
        · cases h
    | seeEnd =>
        simp only [step?, Bool.and_eq_true, Bool.not_eq_true', List.isEmpty_iff] at h
        split at h
        · next hsee => cases h; exact .seeEnd hsee.1.1.1 hsee.1.1.2 hsee.1.2 hsee.2
        · cases h
    | vanish =>
        simp only [step?] at h
        split at h
        · cases h
        · next hthere => cases h; exact .vanish (Bool.not_eq_true _ ▸ hthere)
  · intro h
    cases h with
    | feed hcan htakes hcount =>
        simp only [step?]
        rw [if_pos ⟨hcan, htakes, hcount⟩]
    | halfClose hcan hfinishing hbacklog => simp [step?, hcan, hfinishing, hbacklog]
    | drink hreads hgives => simp [step?, hreads, hgives]
    | seeEnd hreads hunseen hclosed hempty => simp [step?, hreads, hunseen, hclosed, hempty]
    | vanish hthere => simp [step?, hthere]

end Peer

namespace Scenario

/-- What a move of a scenario can do. -/
inductive Step (w : Scenario) : Move → Scenario → Prop
  | take {e : Envelope Nat} {rest : List (Envelope Nat)} (hpending : w.service.pending = [])
      (hitems : w.service.inbox.items = e :: rest) :
      Step w (.service .take)
        { w with service := { w.service with
            inbox := { w.service.inbox with items := rest }
            core := (w.service.core.handle e).2
            pending := (w.service.core.handle e).1 } }
  | deliver {d : Delivery Nat} {rest : List (Delivery Nat)}
      (hpending : w.service.pending = d :: rest) :
      Step w (.service .deliver)
        { w with service := { w.service with
            pending := rest
            links := w.service.links.modify d.replier (·.receive d.message) } }
  | submit {position : Nat} {l l' : Link} {e : Envelope Nat}
      (hlink : w.service.links[position]? = some l)
      (hsubmission : l.submission? position = some (e, l'))
      (hroom : w.service.inbox.size < w.service.inbox.capacity) :
      Step w (.service (.submit position))
        { w with service := { w.service.setLink position l' with
            inbox := { w.service.inbox with items := w.service.inbox.items ++ [e] } } }
  | inbound {position : Nat} {move : InboundMove} {l l' : Link}
      (hlink : w.service.links[position]? = some l) (hstep : l.InboundStep move l') :
      Step w (.service (.inbound position move)) { w with service := w.service.setLink position l' }
  | outbound {position : Nat} {move : OutboundMove} {l l' : Link}
      (hlink : w.service.links[position]? = some l) (hstep : l.OutboundStep move l') :
      Step w (.service (.outbound position move))
        { w with service := w.service.setLink position l' }
  | desert {position : Nat} {l l' : Link} (hlink : w.service.links[position]? = some l)
      (halone : w.service.canReach position = false) (hdesert : l.desert? = some l') :
      Step w (.service (.desert position)) { w with service := w.service.setLink position l' }
  | peer {position : Nat} {move : PeerMove} {p p' : Peer} {l l' : Link}
      (hpeer : w.peers[position]? = some p) (hlink : w.service.links[position]? = some l)
      (hstep : p.Step l move p' l') :
      Step w (.peer position move)
        { w with service := w.service.setLink position l', peers := w.peers.set position p' }

theorem exists_of_onLink {s s' : Service} {position : Nat} {move? : Link → Option Link}
    (h : s.onLink position move? = some s') :
    ∃ l l', s.links[position]? = some l ∧ move? l = some l' ∧ s' = s.setLink position l' := by
  obtain ⟨l, hlink, hmove⟩ := Option.bind_eq_some_iff.mp h
  obtain ⟨l', hstep, rfl⟩ := Option.map_eq_some_iff.mp hmove
  exact ⟨l, l', hlink, hstep, rfl⟩

theorem Step.of_eq {w w' : Scenario} {move : Move} (h : w.step? move = some w') :
    w.Step move w' := by
  cases move with
  | service move =>
      obtain ⟨s', hs, rfl⟩ := Option.map_eq_some_iff.mp h
      cases move with
      | take =>
          simp only [Service.step?, Service.take] at hs
          split at hs
          · cases hs
          · next hpending =>
            obtain ⟨⟨e, inbox⟩, hpop, rfl⟩ := Option.map_eq_some_iff.mp hs
            unfold Queue.pop? at hpop
            split at hpop
            · cases hpop
            · next hitems => cases hpop; exact .take hpending hitems
      | deliver =>
          simp only [Service.step?, Service.deliver] at hs
          split at hs
          · cases hs
          · next hpending => cases hs; exact .deliver hpending
      | submit position =>
          simp only [Service.step?, Service.submit] at hs
          split at hs
          · cases hs
          · next e l' hsubmission =>
            obtain ⟨l, hlink, hsubmission⟩ := Option.bind_eq_some_iff.mp hsubmission
            obtain ⟨inbox, hpush, rfl⟩ := Option.map_eq_some_iff.mp hs
            simp only [Queue.push?, Queue.isFull, decide_eq_true_eq] at hpush
            split at hpush
            · cases hpush
            · next hroom =>
              cases hpush
              exact .submit hlink hsubmission (Nat.lt_of_not_le hroom)
      | inbound position move =>
          obtain ⟨l, l', hlink, hmove, rfl⟩ := exists_of_onLink hs
          exact .inbound hlink (.of_eq hmove)
      | outbound position move =>
          obtain ⟨l, l', hlink, hmove, rfl⟩ := exists_of_onLink hs
          exact .outbound hlink (.of_eq hmove)
      | desert position =>
          simp only [Service.step?] at hs
          split at hs
          · cases hs
          · next halone =>
            obtain ⟨l, l', hlink, hmove, rfl⟩ := exists_of_onLink hs
            exact .desert hlink (Bool.not_eq_true _ ▸ halone) hmove
  | peer position move =>
      simp only [step?, stepPeer?] at h
      split at h
      · next p l hpeer hlink =>
        obtain ⟨⟨p', l'⟩, hstep, rfl⟩ := Option.map_eq_some_iff.mp h
        exact .peer hpeer hlink (Peer.step?_eq_some_iff.mp hstep)
      · cases h

theorem Step.step?_eq {w w' : Scenario} {move : Move} (h : w.Step move w') :
    w.step? move = some w' := by
  cases h with
  | take hpending hitems => simp [step?, Service.step?, Service.take, hpending, Queue.pop?, hitems]
  | deliver hpending => simp [step?, Service.step?, Service.deliver, hpending]
  | submit hlink hsubmission hroom =>
      simp [step?, Service.step?, Service.submit, hlink, hsubmission, Queue.push?, Queue.isFull,
        Nat.not_le.mpr hroom]
  | inbound hlink hstep => simp [step?, Service.step?, Service.onLink, hlink, hstep.step?_eq]
  | outbound hlink hstep => simp [step?, Service.step?, Service.onLink, hlink, hstep.step?_eq]
  | desert hlink halone hdesert =>
      simp [step?, Service.step?, halone, Service.onLink, hlink, hdesert]
  | peer hpeer hlink hstep =>
      simp [step?, stepPeer?, hpeer, hlink, Peer.step?_eq_some_iff.mpr hstep]

end Scenario

/-! ## What happens to a link beside the moves of its tasks -/

namespace Link

section

variable {l l' : Link}

/-- A failed write ends the outbound task.  Unless it was closing the stream anyway, that hangs the
connection up. -/
theorem failWrite_cases (h : l.failWrite = some l') :
    l' = { l.endOutbound with hungUp := true } ∨ l.outbound = .shutting ∧ l' = l.endOutbound := by
  unfold failWrite at h
  split at h
  all_goals cases h
  · exact .inl rfl
  · exact .inl rfl
  · exact .inl rfl
  · next hat => exact .inr ⟨hat, rfl⟩

/-- Announcing that a message was taken touches nothing but the inbound task and its permit. -/
theorem notify_eq (l : Link) :
    ∃ inbound permit, l.notify = { l with inbound := inbound, permit := permit } := by
  unfold notify
  split
  · exact ⟨.parked true, l.permit, rfl⟩
  · exact ⟨l.inbound, true, rfl⟩

/-- A message is ignored by an outbound task that is gone, and otherwise queued if there is room;
if there is none, the connection is hung up. -/
theorem receive_cases (l : Link) (message : Outbound) :
    l.outbound.isEnded = true ∧ l.receive message = l ∨
    l.outbound.isEnded = false ∧
      l.receive message
        = { l with replies := { l.replies with items := l.replies.items ++ [message] } } ∨
    l.receive message = { l with hungUp := true } := by
  unfold receive
  split
  · next hended => exact .inl ⟨hended, rfl⟩
  · next hthere =>
    rw [Bool.not_eq_true] at hthere
    unfold Queue.push?
    split
    · next hpush =>
      split at hpush
      · cases hpush
      · cases hpush
        exact .inr (.inl ⟨hthere, rfl⟩)
    · exact .inr (.inr rfl)

/-- Submitting something touches nothing but the inbound task, which is not waiting then. -/
theorem exists_of_submission {ρ : Type} {replier : ρ} {e : Envelope ρ}
    (h : l.submission? replier = some (e, l')) :
    ∃ inbound, l' = { l with inbound := inbound } ∧ inbound ≠ .throttled ∧
      inbound ≠ .parked false := by
  unfold submission? at h
  split at h
  all_goals cases h
  · exact ⟨.checking, rfl, nofun, nofun⟩
  · exact ⟨.checking, rfl, nofun, nofun⟩
  · exact ⟨.closing, rfl, nofun, nofun⟩
  · exact ⟨.ended, rfl, nofun, nofun⟩

/-- Only an outbound task that waits on an empty queue finds itself deserted. -/
theorem desert?_eq_some_iff : l.desert? = some l'
    ↔ l.outbound = .taking ∧ l.replies.items = [] ∧ l' = { l with outbound := .shutting } := by
  simp only [desert?, Queue.isEmpty, List.isEmpty_iff]
  constructor
  · intro h
    split at h
    · next hat =>
      split at h
      · next hitems => cases h; exact ⟨hat, hitems, rfl⟩
      · cases h
    · cases h
  · rintro ⟨hat, hitems, rfl⟩
    rw [hat, if_pos hitems]

end

end Link

/-! ## The hang-up flag -/

namespace Link

theorem hungUp_inboundStep {l l' : Link} {move : InboundMove} (h : l.InboundStep move l') :
    l'.hungUp = l.hungUp := by
  cases h <;> rfl

theorem hungUp_outboundStep {l l' : Link} {move : OutboundMove} (h : l.OutboundStep move l')
    (hup : l.hungUp = true) : l'.hungUp = true := by
  cases h with
  | giveUp => exact hup
  | rouse => exact hup
  | awake _ hstep =>
      cases hstep with
      | notify =>
          obtain ⟨inbound, permit, hnotify⟩ := l.notify_eq
          rw [hnotify]
          exact hup
      | fail hfail =>
          rcases failWrite_cases hfail with rfl | ⟨-, rfl⟩
          · rfl
          · exact hup
      | _ => exact hup

theorem hungUp_receive {l : Link} (message : Outbound) (hup : l.hungUp = true) :
    (l.receive message).hungUp = true := by
  rcases l.receive_cases message with ⟨-, heq⟩ | ⟨-, heq⟩ | heq
  · rw [heq, hup]
  · rw [heq, hup]
  · rw [heq]

theorem hungUp_submission {ρ : Type} {l l' : Link} {replier : ρ} {e : Envelope ρ}
    (h : l.submission? replier = some (e, l')) : l'.hungUp = l.hungUp := by
  obtain ⟨inbound, rfl, -⟩ := exists_of_submission h
  rfl

theorem hungUp_desert {l l' : Link} (h : l.desert? = some l') : l'.hungUp = l.hungUp := by
  obtain ⟨-, -, rfl⟩ := desert?_eq_some_iff.mp h
  rfl

theorem hungUp_peerStep {p p' : Peer} {l l' : Link} {move : PeerMove} (h : p.Step l move p' l') :
    l'.hungUp = l.hungUp := by
  cases h <;> rfl

end Link

namespace Scenario

/-- A list after one item was replaced that is there. -/
theorem getElem?_set_of_some {α : Type} {xs : List α} {i : Nat} {x : α} (hx : xs[i]? = some x)
    (y : α) (j : Nat) : (xs.set i y)[j]? = if i = j then some y else xs[j]? := by
  have hlt : i < xs.length := (List.getElem?_eq_some_iff.mp hx).1
  rw [List.getElem?_set]
  simp [hlt]

theorem hungUp_setLink {s : Service} {position q : Nat} {l l' m : Link}
    (hlink : s.links[position]? = some l) (hmono : l.hungUp = true → l'.hungUp = true)
    (hm : s.links[q]? = some m) (hup : m.hungUp = true) :
    ∃ m', (s.setLink position l').links[q]? = some m' ∧ m'.hungUp = true := by
  show ∃ m', (s.links.set position l')[q]? = some m' ∧ _
  rw [getElem?_set_of_some hlink]
  by_cases hq : position = q
  · subst hq
    rw [hlink] at hm
    cases hm
    exact ⟨l', if_pos rfl, hmono hup⟩
  · exact ⟨m, by rw [if_neg hq, hm], hup⟩

/-- **Hang-ups are for good.**  No move lowers the flag of a link. -/
theorem hungUp_step {w w' : Scenario} {move : Move} (h : w.Step move w') {q : Nat} {m : Link}
    (hm : w.service.links[q]? = some m) (hup : m.hungUp = true) :
    ∃ m', w'.service.links[q]? = some m' ∧ m'.hungUp = true := by
  cases h with
  | take => exact ⟨m, hm, hup⟩
  | @deliver d rest =>
      show ∃ m', (w.service.links.modify d.replier _)[q]? = some m' ∧ _
      rw [List.getElem?_modify, hm]
      split
      · exact ⟨_, rfl, Link.hungUp_receive _ hup⟩
      · exact ⟨m, rfl, hup⟩
  | submit hlink hsubmission =>
      exact hungUp_setLink hlink (fun h => (Link.hungUp_submission hsubmission).trans h) hm hup
  | inbound hlink hstep =>
      exact hungUp_setLink hlink (fun h => (Link.hungUp_inboundStep hstep).trans h) hm hup
  | outbound hlink hstep => exact hungUp_setLink hlink (Link.hungUp_outboundStep hstep) hm hup
  | desert hlink _ hdesert =>
      exact hungUp_setLink hlink (fun h => (Link.hungUp_desert hdesert).trans h) hm hup
  | peer _ hlink hstep =>
      exact hungUp_setLink hlink (fun h => (Link.hungUp_peerStep hstep).trans h) hm hup

end Scenario

end LockService
