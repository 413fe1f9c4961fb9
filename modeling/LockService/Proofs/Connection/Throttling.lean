import LockService.Proofs.Connection.Headroom
import LockService.Proofs.Connection.Waking
import Mathlib.Logic.Relation

/-!
# No wake-up is missed

The inbound task of a link looks at the reply window, and goes to wait in a later move if that is full.
The outbound task takes a reply, and says so in a later move: it wakes the inbound task if that waits
then, and leaves a permit otherwise, of which there is never more than one.  In between everybody else may
move.  `Link.Roused` is what keeps the inbound task from waiting for what is over; here it is shown of
every link in every state that a scenario can get into.

* `Link.Attentive` — the inbound task does not wait in vain, a reply that was taken will be announced
  before the outbound task does anything else, and the last message comes when the inbound task is gone.
  The last part is what a link does not know by itself: it comes from the conversations.
* `Scenario.Reaches.attentive` — every link that is reached is attentive.
* `Scenario.ReadsFrom` — from one state to another, the inbound task of a link was busy with one record.
* **`Scenario.throttled_of_reaches`** — when the inbound task waits there is a reason or a wake-up on its
  way, and every record is read after a look at the window that found room.
-/

namespace LockService

/-- Whether the task has found room and is busy with a record: it reads one or holds it. -/
def InboundPhase.isReading : InboundPhase → Bool
  | reading | holding _ => true
  | opening | checking | throttled | parked _ | closing | ended => false

/-- Whether the task waits and was not woken can be computed. -/
instance InboundPhase.decidableEqParked (phase : InboundPhase) : Decidable (phase = .parked false) :=
  match phase with
  | parked false => isTrue rfl
  | parked true | opening | checking | throttled | reading | holding _ | closing | ended =>
    isFalse (by simp)

namespace Link

/-- Whether the last message is queued, or the outbound task is at it. -/
def HasLast (l : Link) : Prop :=
  .closed ∈ l.replies.items ∨ l.outbound = .took .closed ∨ l.outbound = .shutting

/-- What is kept of a link: the last message does not come before the inbound task is gone, an outbound
task that has taken a message has not waited since, and the inbound task does not wait in vain. -/
structure Attentive (l : Link) : Prop where
  last : l.HasLast → l.inbound = .ended
  took : ∀ message, l.outbound = .took message → l.awake = true
  roused : l.Roused

section

variable {l l' : Link}

theorem attentive_inboundStep {move : InboundMove} (h : l.InboundStep move l')
    (hl : l.Attentive) : l'.Attentive := by
  obtain ⟨-, -, hreplies, houtbound, -, hthere⟩ := inboundStep_frame h
  have hawake : l'.awake = l.awake := by cases h <;> rfl
  refine ⟨fun hlast => ?_, fun message hat => ?_, roused_inboundStep h hl.roused⟩
  · rw [HasLast, hreplies, houtbound] at hlast
    exact absurd (hl.last hlast) hthere
  · rw [hawake]
    exact hl.took message (houtbound ▸ hat)

/-- The outbound task comes to the last message only by taking it. -/
theorem HasLast.of_outboundStep {move : OutboundMove} (h : l.OutboundStep move l')
    (hlast : l'.HasLast) : l.HasLast := by
  have hgone : ∀ {l' : Link}, l'.replies.items = [] → l'.outbound = .ended → ¬ l'.HasLast := by
    intro l' hitems hended hlast
    simp [HasLast, hitems, hended] at hlast
  cases h with
  | giveUp => exact absurd hlast (hgone rfl rfl)
  | rouse => exact hlast
  | awake _ hstep =>
      cases hstep with
      | suspend => exact hlast
      | @take message rest hat hitems =>
          refine .inl ?_
          rw [hitems]
          rcases hlast with hqueued | htook | hshutting
          · exact List.mem_cons_of_mem _ hqueued
          · cases htook
            exact List.mem_cons_self
          · cases hshutting
      | @notify message hat =>
          obtain ⟨inbound, permit, hnotify⟩ := l.notify_eq
          rw [hnotify] at hlast
          cases message with
          | reply r => exact hlast.imp_right (Or.rec nofun nofun)
          | closed => exact .inr (.inl hat)
      | spillBuffered => exact hlast
      | finish => exact absurd hlast (hgone rfl rfl)
      | fail hfail =>
          rcases failWrite_cases hfail with rfl | ⟨-, rfl⟩ <;> exact absurd hlast (hgone rfl rfl)
      | _ => exact .inl (hlast.resolve_right (Or.rec nofun nofun))

/-- A task that has taken a message is at work, and does not wait before it has said so. -/
theorem awake_of_took {move : OutboundMove} (h : l.OutboundStep move l') {message : Outbound}
    (hat : l'.outbound = .took message) : l'.awake = true := by
  cases h with
  | giveUp => cases hat
  | rouse => rfl
  | awake hawake hstep =>
      cases hstep with
      | suspend hwait =>
          rw [show l.outbound = .took message from hat] at hwait
          cases hwait
      | take => exact hawake
      | @notify taken => cases taken <;> cases hat
      | spillBuffered => exact hawake
      | fail hfail => rcases failWrite_cases hfail with rfl | ⟨-, rfl⟩ <;> cases hat
      | _ => cases hat

/-- Nobody brings back an inbound task that is gone. -/
theorem Drains.ended (h : l.Drains l') (hended : l.inbound = .ended) : l'.inbound = .ended := by
  rcases h.inbound with heq | ⟨hparked, -⟩
  · rw [heq, hended]
  · rw [hended] at hparked
    cases hparked

/-- With a window of no size there is always a reason to wait, and a task that closes the stream keeps
nobody waiting. -/
theorem Roused.outboundStep (hroused : l.Roused) {move : OutboundMove} (h : l.OutboundStep move l')
    (hlast : l.outbound = .shutting → l.inbound = .ended) : l'.Roused := by
  have hdrains := drains_outboundStep h
  rcases Nat.eq_zero_or_pos l.window with hnone | hwindow
  · have hwait : l'.MayWait := .inl (by rw [hdrains.window_eq, hnone]; exact Nat.zero_le _)
    exact ⟨fun _ => .inr hwait, fun _ => hwait⟩
  by_cases hshutting : l.outbound = .shutting
  · have hended := hdrains.ended (hlast hshutting)
    exact roused_of_ne (by rw [hended]; exact nofun) (by rw [hended]; exact nofun)
  · exact roused_outboundStep h hroused hwindow fun hat => absurd hat hshutting

theorem attentive_outboundStep {move : OutboundMove} (h : l.OutboundStep move l')
    (hl : l.Attentive) : l'.Attentive where
  last hlast := (drains_outboundStep h).ended (hl.last (hlast.of_outboundStep h))
  took _ hat := awake_of_took h hat
  roused := hl.roused.outboundStep h fun hat => hl.last (.inr (.inr hat))

theorem inbound_receive (l : Link) (message : Outbound) :
    (l.receive message).inbound = l.inbound := by
  rcases l.receive_cases message with ⟨-, heq⟩ | ⟨-, heq⟩ | heq <;> rw [heq]

theorem attentive_receive {message : Outbound} (hl : l.Attentive)
    (hlast : message = .closed → l.inbound = .ended) : (l.receive message).Attentive := by
  have hroused := roused_receive hl.roused message
  rcases l.receive_cases message with ⟨-, heq⟩ | ⟨-, heq⟩ | heq
  · rw [heq]
    exact hl
  · rw [heq] at hroused ⊢
    refine ⟨fun h => ?_, hl.took, hroused⟩
    rcases h with hqueued | htaken
    · rcases List.mem_append.mp hqueued with hqueued | hnew
      · exact hl.last (.inl hqueued)
      · exact hlast (List.mem_singleton.mp hnew).symm
    · exact hl.last (.inr htaken)
  · rw [heq] at hroused ⊢
    exact ⟨hl.last, hl.took, hroused⟩

theorem attentive_submission {ρ : Type} {replier : ρ} {e : Envelope ρ}
    (h : l.submission? replier = some (e, l')) (hl : l.Attentive) : l'.Attentive := by
  have hroused := roused_submission h
  obtain ⟨inbound, rfl, -⟩ := exists_of_submission h
  refine ⟨fun hlast => ?_, hl.took, hroused⟩
  simp [submission?, hl.last hlast] at h

theorem attentive_desert (h : l.desert? = some l') (hended : l.inbound = .ended)
    (hl : l.Attentive) : l'.Attentive := by
  have hroused := roused_desert h hl.roused
  obtain ⟨-, -, rfl⟩ := desert?_eq_some_iff.mp h
  exact ⟨fun _ => hended, nofun, hroused⟩

theorem attentive_peerStep {p p' : Peer} {move : PeerMove} (h : p.Step l move p' l')
    (hl : l.Attentive) : l'.Attentive := by
  have hroused := roused_peerStep h hl.roused
  cases h <;> exact ⟨hl.last, hl.took, hroused⟩

/-- A new link has no message and no task that waits. -/
theorem attentive_of_make? {id : ConnectionId} {limits : ReplyLimits} {buffer : Nat}
    (h : make? id limits buffer = some l) : l.Attentive := by
  obtain ⟨replies, hreplies, rfl⟩ := Option.map_eq_some_iff.mp h
  obtain ⟨-, rfl⟩ := Queue.eq_of_make? hreplies
  refine ⟨fun hlast => ?_, nofun, roused_of_ne nofun nofun⟩
  simp [HasLast] at hlast

/-- An outbound task that has taken a message can announce it, and can do nothing else before. -/
theorem Attentive.notify_of_took (hl : l.Attentive) {message : Outbound}
    (hat : l.outbound = .took message) (hparked : l.inbound = .parked false) :
    (l.outboundStep? .notify).isSome = true ∧
      ∀ move l', l.outboundStep? move = some l' → move = .notify ∧ l'.inbound = .parked true := by
  have hawake := hl.took message hat
  have hnotify : l.outboundStep? .notify = some { l.notify with outbound := .ofMessage message } :=
    OutboundStep.step?_eq (.awake hawake (.notify hat))
  refine ⟨by rw [hnotify]; rfl, fun move l' hstep => ?_⟩
  cases OutboundStep.of_eq hstep with
  | giveUp hasleep => exact absurd (hawake.symm.trans hasleep) nofun
  | rouse hasleep => exact absurd (hawake.symm.trans hasleep) nofun
  | awake _ hmove =>
      cases hmove with
      | suspend hwait => rw [hat] at hwait; cases hwait
      | notify => exact ⟨rfl, by simp [notify, hparked]⟩
      | spillBuffered hsending => rw [hat] at hsending; cases hsending
      | fail hfail => simp [failWrite, hat] at hfail
      | _ hother => rw [hat] at hother; cases hother

/-- A task that found the window full goes on only to look at it again, unless it is hung up. -/
theorem InboundStep.rechecks {move : InboundMove} (h : l.InboundStep move l')
    (hat : l.inbound = .throttled ∨ ∃ woken, l.inbound = .parked woken) :
    l'.inbound = .checking ∨ l'.inbound = .parked false ∧ l.permit = false ∨
      l.hungUp = true ∧ l'.inbound = .closing := by
  have hnot : ∀ {phase : InboundPhase}, l.inbound = phase → phase ≠ .throttled →
      (∀ woken, phase ≠ .parked woken) → False := by
    rintro _ rfl hthrottled hparked
    rcases hat with hat | ⟨woken, hat⟩
    · exact hthrottled hat
    · exact hparked woken hat
  cases h with
  | quit hhung => exact .inr (.inr ⟨hhung, rfl⟩)
  | redeem => exact .inl rfl
  | park _ hpermit => exact .inr (.inl ⟨rfl, hpermit⟩)
  | wake => exact .inl rfl
  | enter hat | throttle hat | fetch hat | lengthen hat | find hat | last hat | finish hat | fail hat =>
      exact (hnot hat nofun nofun).elim

/-- A permit is used up for another look at the window, and for nothing else. -/
theorem InboundStep.permit_cases {move : InboundMove} (h : l.InboundStep move l') :
    l'.permit = l.permit ∨
      l.permit = true ∧ l' = { l with inbound := .checking, permit := false } := by
  cases h with
  | redeem _ hpermit => exact .inr ⟨hpermit, rfl⟩
  | _ => exact .inl rfl

/-- The inbound task comes to a record by a look at the window that found room. -/
theorem InboundStep.isReading_cases {move : InboundMove} (h : l.InboundStep move l')
    (hreads : l'.inbound.isReading = true) : l.inbound.isReading = true ∨
      move = .check ∧ l.inbound = .checking ∧ l.replies.size < l.window := by
  cases h with
  | enter hat hroom => exact .inr ⟨rfl, hat, hroom⟩
  | fetch => exact .inl hreads
  | lengthen => exact .inl hreads
  | find hat => exact .inl (by rw [hat]; rfl)
  | last hat => exact .inl (by rw [hat]; rfl)
  | _ => cases hreads

/-- And it has none after it has submitted something. -/
theorem isReading_submission {ρ : Type} {replier : ρ} {e : Envelope ρ}
    (h : l.submission? replier = some (e, l')) : l'.inbound.isReading = false := by
  unfold submission? at h
  split at h
  all_goals cases h
  all_goals rfl

theorem Drains.isReading (h : l.Drains l') (hreads : l'.inbound.isReading = true) :
    l.inbound.isReading = true := by
  rcases h.inbound with heq | ⟨-, hwoken⟩
  · exact heq ▸ hreads
  · rw [hwoken] at hreads
    cases hreads

end

end Link

namespace Scenario

/-- What can happen to a scenario, whoever makes it happen: one step of `Scenario.Reaches`. -/
inductive Goes (w : Scenario) : Scenario → Prop
  | connect {limits : ReplyLimits} {buffer : Nat} {link : Link}
      (hlink : Link.make? (.ofPosition w.nextPosition) limits buffer = some link) :
      Goes w (w.connect link)
  | move {w' : Scenario} {move : Move} (hstep : w.step? move = some w') : Goes w w'
  | outside (position : Nat) (change : Peer → Peer) : Goes w (w.modifyPeer position change)

/-- Whether the inbound task of the link at a position was busy with a record all the way from one state
to another. -/
def ReadsFrom (position : Nat) : Scenario → Scenario → Prop :=
  Relation.ReflTransGen fun v w =>
    v.Goes w ∧ ∃ l, w.service.links[position]? = some l ∧ l.inbound.isReading = true

section

variable {inboundCapacity : Nat} {start w : Scenario} {history : List (Envelope Nat)}

/-- The core tells a link that the connection has closed when its inbound task is gone. -/
theorem Reaches.ended_of_closed (hstart : start? inboundCapacity = some start)
    (h : start.Reaches history w) (hfew : w.service.links.length < UInt64.size) {e : Envelope Nat}
    {rest : List (Envelope Nat)} (hitems : w.service.inbox.items = e :: rest) {position : Nat} {l : Link}
    (hl : w.service.links[position]? = some l)
    (hclosed : .closed ∈ Core.through position (w.service.core.handle e).1) : l.inbound = .ended := by
  have hheard := h.heard hstart
  obtain ⟨d, hd, hreplier, hmessage⟩ := Core.mem_through_iff.mp hclosed
  obtain ⟨hcommand, hreceiver⟩ := Core.sender_of_closed hd hmessage
  have hregistered := Core.replier_of_mem_handle hd
  rw [hreplier, hreceiver, hheard.core_eq] at hregistered
  obtain ⟨before, after, heq, -⟩ := Core.opened_of_replier hregistered
  have hsender : e.sender = .ofPosition position :=
    (hheard.sender_of_opening hfew (List.mem_append_left _ (by rw [heq]; simp))).1
  refine (hheard.talks hfew hl).ended_of_closing_mem (Core.mem_told_iff.mpr ?_)
  rw [hheard.id_eq hl, ← hsender, ← hcommand]
  exact List.mem_append_right _ (by rw [hitems]; exact List.mem_cons_self)

/-- A link that nobody can reach has no inbound task. -/
theorem ended_of_canReach {s : Service} {position : Nat} {l : Link}
    (hl : s.links[position]? = some l) (halone : s.canReach position = false) :
    l.inbound = .ended := by
  simp only [Service.canReach, hl, Option.any_some, Bool.or_eq_false_iff,
    Bool.not_eq_false'] at halone
  have hended := halone.1.1.1
  cases hat : l.inbound <;> simp_all [InboundPhase.isEnded]

/-- **Every link is attentive**, whatever everybody does, and no last message is on its way to it before
its inbound task is gone. -/
theorem Reaches.attentive (hstart : start? inboundCapacity = some start)
    (h : start.Reaches history w) (hfew : w.service.links.length < UInt64.size) {position : Nat}
    {l : Link} (hl : w.service.links[position]? = some l) :
    l.Attentive ∧ (.closed ∈ Core.through position w.service.pending → l.inbound = .ended) := by
  induction h generalizing position l with
  | start =>
      rw [List.forall₂_nil_left_iff.mp (fresh_start hstart).links] at hl
      cases hl
  | @connect history w limits buffer link h hlink ih =>
      replace hfew : (w.service.links ++ [_]).length < UInt64.size := hfew
      rw [List.length_append, List.length_singleton] at hfew
      replace hl : (w.service.links ++ [link])[position]? = some l := hl
      rw [List.getElem?_append] at hl
      split at hl
      · exact ih (Nat.lt_of_succ_lt hfew) hl
      · next hposition =>
        obtain rfl := List.mem_singleton.mp (List.mem_of_getElem? hl)
        refine ⟨Link.attentive_of_make? hlink, fun hclosed => ?_⟩
        obtain ⟨d, hd, hreplier, -⟩ := Core.mem_through_iff.mp hclosed
        have hopening := h.opening_of_pending hstart hd
        have hlt := ((h.heard hstart).sender_of_opening (Nat.lt_of_succ_lt hfew)
          (List.mem_append_left _ hopening)).2
        exact absurd (hreplier ▸ hlt) hposition
  | @move history w w' move h hstep ih =>
      replace hstep := Step.of_eq hstep
      rw [(heard_step (h.heard hstart) hstep).2] at hfew
      -- whoever replaces the link at `q` alone delivers nothing
      have hset : ∀ {q : Nat} {k k' : Link}, w.service.links[q]? = some k →
          (w.service.setLink q k').links[position]? = some l →
          (k.Attentive → k'.Attentive) → (k.inbound = .ended → k'.inbound = .ended) →
          l.Attentive ∧
            (.closed ∈ Core.through position w.service.pending → l.inbound = .ended) := by
        intro q k k' hk hl hattentive hended
        rcases Service.links_setLink_cases hk hl with ⟨rfl, rfl⟩ | ⟨-, hl⟩
        · exact ⟨hattentive (ih hfew hk).1, fun hclosed => hended ((ih hfew hk).2 hclosed)⟩
        · exact ih hfew hl
      cases hstep with
      | take hpending hitems =>
          exact ⟨(ih hfew hl).1, h.ended_of_closed hstart hfew hitems hl⟩
      | @deliver d rest hpending =>
          replace hl : (w.service.links.modify d.replier (·.receive d.message))[position]? = some l :=
            hl
          rw [List.getElem?_modify] at hl
          obtain ⟨k, hk, rfl⟩ := Option.map_eq_some_iff.mp hl
          obtain ⟨hattentive, hended⟩ := ih hfew hk
          rw [hpending, Core.through_cons] at hended
          split
          · next hmine =>
            rw [if_pos hmine, List.mem_cons] at hended
            refine ⟨Link.attentive_receive hattentive fun hclosed => hended (.inl hclosed.symm),
              fun hclosed => ?_⟩
            rw [k.inbound_receive]
            exact hended (.inr hclosed)
          · next hother =>
            rw [if_neg hother] at hended
            exact ⟨hattentive, hended⟩
      | submit hk hsubmission =>
          refine hset hk hl (Link.attentive_submission hsubmission) fun hended => ?_
          simp [Link.submission?, hended] at hsubmission
      | inbound hk hmove =>
          obtain ⟨-, -, -, -, -, hthere⟩ := Link.inboundStep_frame hmove
          exact hset hk hl (Link.attentive_inboundStep hmove) fun hended => absurd hended hthere
      | outbound hk hmove =>
          exact hset hk hl (Link.attentive_outboundStep hmove) (Link.drains_outboundStep hmove).ended
      | desert hk halone hdesert =>
          exact hset hk hl (Link.attentive_desert hdesert (ended_of_canReach hk halone))
            (Link.drains_desert hdesert).ended
      | peer _ hk hmove =>
          exact hset hk hl (Link.attentive_peerStep hmove) (Link.drains_peerStep hmove).ended
  | outside _ _ _ ih => exact ih hfew hl

/-- A link is busy with a record because it was before, or because it has just found room. -/
theorem isReading_step {w' : Scenario} {move : Move} (h : w.Step move w') {position : Nat} {l' : Link}
    (hl' : w'.service.links[position]? = some l') (hreads : l'.inbound.isReading = true) :
    ∃ l, w.service.links[position]? = some l ∧ (l.inbound.isReading = true ∨
      move = .service (.inbound position .check) ∧ l.inbound = .checking ∧
        l.replies.size < l.window) := by
  have hset : ∀ {q : Nat} {m m' : Link}, w.service.links[q]? = some m →
      (w.service.setLink q m').links[position]? = some l' →
      (m'.inbound.isReading = true → m.inbound.isReading = true) →
      ∃ l, w.service.links[position]? = some l ∧ (l.inbound.isReading = true ∨
        move = .service (.inbound position .check) ∧ l.inbound = .checking ∧
          l.replies.size < l.window) := by
    intro q m m' hm hl' hback
    rcases Service.links_setLink_cases hm hl' with ⟨rfl, rfl⟩ | ⟨-, hl⟩
    · exact ⟨m, hm, .inl (hback hreads)⟩
    · exact ⟨l', hl, .inl hreads⟩
  cases h with
  | take => exact ⟨l', hl', .inl hreads⟩
  | @deliver d rest hpending =>
      replace hl' : (w.service.links.modify d.replier (·.receive d.message))[position]? = some l' :=
        hl'
      rw [List.getElem?_modify] at hl'
      obtain ⟨l, hl, rfl⟩ := Option.map_eq_some_iff.mp hl'
      refine ⟨l, hl, .inl ?_⟩
      split at hreads
      · rw [← l.inbound_receive d.message]
        exact hreads
      · exact hreads
  | submit hm hsubmission =>
      refine hset hm hl' fun hreads => ?_
      rw [Link.isReading_submission hsubmission] at hreads
      cases hreads
  | inbound hm hmove =>
      rcases Service.links_setLink_cases hm hl' with ⟨rfl, rfl⟩ | ⟨-, hl⟩
      · rcases hmove.isReading_cases hreads with hbefore | ⟨rfl, hat, hroom⟩
        · exact ⟨_, hm, .inl hbefore⟩
        · exact ⟨_, hm, .inr ⟨rfl, hat, hroom⟩⟩
      · exact ⟨l', hl, .inl hreads⟩
  | outbound hm hmove => exact hset hm hl' (Link.drains_outboundStep hmove).isReading
  | desert hm _ hdesert => exact hset hm hl' (Link.drains_desert hdesert).isReading
  | peer _ hm hmove => exact hset hm hl' (Link.drains_peerStep hmove).isReading

/-- **Every record is read after a look at the window that found room**, and since then the inbound task
has been busy with that record only. -/
theorem Reaches.exists_check (hstart : start? inboundCapacity = some start)
    (h : start.Reaches history w) {position : Nat} {l : Link}
    (hl : w.service.links[position]? = some l) (hreads : l.inbound.isReading = true) :
    ∃ before v v' k, start.Reaches before v ∧ v.service.links[position]? = some k ∧
      k.inbound = .checking ∧ k.replies.size < k.window ∧
      v.step? (.service (.inbound position .check)) = some v' ∧ ReadsFrom position v' w := by
  induction h generalizing l with
  | start =>
      rw [List.forall₂_nil_left_iff.mp (fresh_start hstart).links] at hl
      cases hl
  | @connect history w limits buffer link h hlink ih =>
      have hbusy : w.Goes (w.connect link) ∧
          ∃ l, (w.connect link).service.links[position]? = some l ∧ l.inbound.isReading = true :=
        ⟨.connect hlink, l, hl, hreads⟩
      replace hl : (w.service.links ++ [link])[position]? = some l := hl
      rw [List.getElem?_append] at hl
      split at hl
      · obtain ⟨before, v, v', k, hv, hk, hat, hroom, hcheck, hpath⟩ := ih hl hreads
        exact ⟨before, v, v', k, hv, hk, hat, hroom, hcheck, hpath.tail hbusy⟩
      · obtain rfl := List.mem_singleton.mp (List.mem_of_getElem? hl)
        obtain ⟨replies, -, rfl⟩ := Option.map_eq_some_iff.mp hlink
        cases hreads
  | @move history w w' move h hstep ih =>
      obtain ⟨m, hm, hbefore | ⟨rfl, hat, hroom⟩⟩ := isReading_step (.of_eq hstep) hl hreads
      · obtain ⟨before, v, v', k, hv, hk, hat, hroom, hcheck, hpath⟩ := ih hm hbefore
        exact ⟨before, v, v', k, hv, hk, hat, hroom, hcheck, hpath.tail ⟨.move hstep, l, hl, hreads⟩⟩
      · exact ⟨history, w, w', m, h, hm, hat, hroom, hstep, .refl⟩
  | @outside history w h q change ih =>
      obtain ⟨before, v, v', k, hv, hk, hat, hroom, hcheck, hpath⟩ := ih hl hreads
      exact ⟨before, v, v', k, hv, hk, hat, hroom, hcheck,
        hpath.tail ⟨.outside q change, l, hl, hreads⟩⟩

/-- **No wake-up is missed.**  Take any link, with whatever window and capacity, in any state that can be
reached, whoever has moved when.

* If its inbound task waits and was not woken then the window is full, or a reply was taken and the
  outbound task has still to say so, or the connection is hung up.
* So if the queue is empty then, for all that the window has a size, the outbound task can wake it, and
  does so before it does anything else — unless the connection is hung up, which the inbound task can
  see where it is.
* A task that found the window full goes on to look at it again, and does nothing else until it has
  found room; a permit that is left from before is used up for such a look.
* If it is busy with a record then it has looked at the window before it began to read that, and there
  were fewer replies queued than the window allows.

Fewer than 2⁶⁴ connections were accepted so far (`hfew`).  Numbers have 64 bits and come again after
that many.  Then the closing of one connection makes the core send the last message to a later one with
its number, whose outbound task takes it and ends, although its inbound task may still have to wait. -/
theorem throttled_of_reaches (hstart : start? inboundCapacity = some start)
    (h : start.Reaches history w) (hfew : w.service.links.length < UInt64.size) {position : Nat}
    {l : Link} (hl : w.service.links[position]? = some l) :
    (l.inbound = .parked false → l.window ≤ l.replies.size ∨
      (∃ message, l.outbound = .took message) ∨ l.hungUp = true) ∧
    (l.inbound = .parked false → 0 < l.window → l.replies.items = [] →
      ((l.outboundStep? .notify).isSome = true ∧
        ∀ move l', l.outboundStep? move = some l' → move = .notify ∧ l'.inbound = .parked true) ∨
      l.hungUp = true ∧ l.inboundStep? .quit = some { l with inbound := .closing }) ∧
    (∀ move l', l.inboundStep? move = some l' →
      (l.inbound = .throttled ∨ (∃ woken, l.inbound = .parked woken) →
        l'.inbound = .checking ∨ l'.inbound = .parked false ∧ l.permit = false ∨
          l.hungUp = true ∧ l'.inbound = .closing) ∧
      (l'.permit = l.permit ∨
        l.permit = true ∧ l' = { l with inbound := .checking, permit := false })) ∧
    (l.inbound.isReading = true → ∃ before v v' k, start.Reaches before v ∧
      v.service.links[position]? = some k ∧ k.inbound = .checking ∧ k.replies.size < k.window ∧
      v.step? (.service (.inbound position .check)) = some v' ∧ ReadsFrom position v' w) := by
  obtain ⟨hattentive, -⟩ := h.attentive hstart hfew hl
  refine ⟨hattentive.roused.parked, fun hparked hwindow hitems => ?_, fun move l' hmove => ?_,
    h.exists_check hstart hl⟩
  · rcases hattentive.roused.parked hparked with hfull | ⟨message, htook⟩ | hhung
    · rw [Queue.size, hitems] at hfull
      exact absurd hwindow (Nat.not_lt.mpr hfull)
    · exact .inl (hattentive.notify_of_took htook hparked)
    · refine .inr ⟨hhung, ?_⟩
      simp [Link.inboundStep?, hhung, hparked, InboundPhase.heedsHangUp]
  · have hstep := Link.InboundStep.of_eq hmove
    exact ⟨hstep.rechecks, hstep.permit_cases⟩

end

/-- For instance a window for one reply, and a client that has asked for a counter.  The inbound task
finds the answer queued and goes to wait; then the outbound task takes it.  Nothing is queued and the
inbound task waits, but it is going to be woken. -/
theorem throttled_of_reaches_taken :
    let inbound (move : InboundMove) : Move := .service (.inbound 0 move)
    let moves : List Move :=
      [.service (.submit 0), .service .take, .peer 0 (.feed 12),
        inbound .check, inbound (.fetch 12), inbound .decode, .service (.submit 0), .service .take,
        .service .deliver, inbound .check, inbound .wait,
        .service (.outbound 0 .look), .service (.outbound 0 .take)]
    ∃ start link w history l, start? 1 = some start ∧
      Link.make? (.ofPosition start.nextPosition) ⟨1, 3⟩ 64 = some link ∧
      ((start.connect link).modifyPeer 0
        ({ · with backlog := "[\"get\",\"n\"]\n".toUTF8.toList })).run? moves = some w ∧
      start.Reaches history w ∧ w.service.links = [l] ∧ l.inbound = .parked false ∧
      l.replies.items = [] ∧ l.hungUp = false ∧
      ∃ l', l.outboundStep? .notify = some l' ∧ l'.inbound = .parked true := by
  intro inbound moves
  have hend : (start? 1).any (fun start =>
      (Link.make? (.ofPosition start.nextPosition) ⟨1, 3⟩ 64).any fun link =>
        (((start.connect link).modifyPeer 0
          ({ · with backlog := "[\"get\",\"n\"]\n".toUTF8.toList })).run? moves).any fun w =>
          w.service.links.head?.any fun l =>
            w.service.links.length = 1 ∧ l.inbound = .parked false ∧ l.window = 1 ∧
            l.replies.items = [] ∧ l.hungUp = false) = true := by
    decide +kernel
  obtain ⟨start, hstart, hend⟩ := (Option.any_eq_true _ _).mp hend
  obtain ⟨link, hlink, hend⟩ := (Option.any_eq_true _ _).mp hend
  obtain ⟨w, hrun, hend⟩ := (Option.any_eq_true _ _).mp hend
  obtain ⟨l, hl, hend⟩ := (Option.any_eq_true _ _).mp hend
  obtain ⟨hone, hparked, hwindow, hitems, hdown⟩ := of_decide_eq_true hend
  have hreaches : start.Reaches _ w := ((Reaches.start.connect hlink).outside 0 _).run hrun
  have hlinks := Server.eq_singleton_of_head? hone hl
  have hthere : w.service.links[0]? = some l := by rw [hlinks]; rfl
  obtain ⟨-, hwoken, -⟩ := throttled_of_reaches hstart hreaches (by rw [hone]; decide) hthere
  rcases hwoken hparked (by rw [hwindow]; decide) hitems with ⟨hnotify, hnext⟩ | ⟨hup, -⟩
  · obtain ⟨l', hl'⟩ := Option.isSome_iff_exists.mp hnotify
    exact ⟨start, link, w, _, l, hstart, hlink, hrun, hreaches, hlinks, hparked, hitems, hdown, l',
      hl', (hnext _ _ hl').2⟩
  · exact absurd (hdown.symm.trans hup) Bool.false_ne_true

end Scenario

end LockService
