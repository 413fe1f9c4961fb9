import LockService.Proofs.Connection.Steps

/-!
# Nobody waits in vain

The inbound task goes to wait after it found the reply window full, and not in the same breath: in
between, the outbound task may take replies.  So it could come to wait for an event that is already
over.  `Link.Roused` says that this does not happen: while it waits, or is about to and has no
permit, there is still a reason to wait or a sign that it will be woken.  Every move of a link
keeps that (`roused_inboundStep`, `roused_outboundStep`, `roused_receive` and so on).

The outbound task throws its queue away when it ends.  That it may do so is the one thing that is
not seen from the link alone: after the last message nothing may be queued.
-/

namespace LockService

namespace Link

/-- A reason to wait: the reply window is full; a reply was taken, and the outbound task has still
to say so; or the connection is hung up. -/
def MayWait (l : Link) : Prop :=
  l.window ≤ l.replies.size ∨ (∃ message, l.outbound = .took message) ∨ l.hungUp = true

/-- The inbound task does not wait in vain. -/
structure Roused (l : Link) : Prop where
  throttled : l.inbound = .throttled → l.permit = true ∨ l.MayWait
  parked : l.inbound = .parked false → l.MayWait

/-- A task that is neither waiting nor about to is not waiting in vain. -/
theorem roused_of_ne {l : Link} (hthrottled : l.inbound ≠ .throttled)
    (hparked : l.inbound ≠ .parked false) : l.Roused :=
  ⟨fun h => absurd h hthrottled, fun h => absurd h hparked⟩

theorem Roused.mono {l l' : Link} (h : l.Roused) (hinbound : l'.inbound = l.inbound)
    (hpermit : l'.permit = l.permit) (hwait : l.MayWait → l'.MayWait) : l'.Roused where
  throttled hat := (h.throttled (hinbound ▸ hat)).imp (fun hp => hpermit ▸ hp) hwait
  parked hat := hwait (h.parked (hinbound ▸ hat))

theorem roused_inboundStep {l l' : Link} {move : InboundMove} (h : l.InboundStep move l')
    (hl : l.Roused) : l'.Roused := by
  cases h with
  | quit => exact roused_of_ne nofun nofun
  | enter => exact roused_of_ne nofun nofun
  | throttle hat hfull => exact ⟨fun _ => .inr (.inl hfull), nofun⟩
  | redeem => exact roused_of_ne nofun nofun
  | park hat hpermit =>
      -- the permit was looked at a moment ago, so the reason to wait still stands
      refine ⟨nofun, fun _ => ?_⟩
      rcases hl.throttled hat with hp | hwait
      · rw [hpermit] at hp
        cases hp
      · exact hwait
  | wake => exact roused_of_ne nofun nofun
  | fetch => exact hl.mono rfl rfl fun hwait => hwait
  | lengthen => exact hl.mono rfl rfl fun hwait => hwait
  | find => exact roused_of_ne nofun nofun
  | last => exact roused_of_ne nofun nofun
  | finish => exact roused_of_ne nofun nofun
  | fail => exact roused_of_ne nofun nofun

/-- A change of the outbound task that leaves the queue alone. -/
theorem MayWait.of_outbound {l l' : Link} (h : l.MayWait)
    (hat : ∀ message, l.outbound ≠ .took message) (hwindow : l'.window = l.window)
    (hreplies : l'.replies = l.replies) (hhung : l'.hungUp = l.hungUp) : l'.MayWait := by
  rcases h with hfull | ⟨message, htook⟩ | hraised
  · exact .inl (by rw [hwindow, hreplies]; exact hfull)
  · exact absurd htook (hat message)
  · exact .inr (.inr (by rw [hhung]; exact hraised))

/-- When the last message was taken and nothing is queued, only a hang-up is a reason to wait. -/
theorem MayWait.hungUp_of_shutting {l : Link} (h : l.MayWait) (hat : l.outbound = .shutting)
    (hitems : l.replies.items = []) (hwindow : 0 < l.window) : l.hungUp = true := by
  rcases h with hfull | ⟨message, htook⟩ | hraised
  · rw [Queue.size, hitems] at hfull
    exact absurd hfull (Nat.not_le.mpr hwindow)
  · rw [hat] at htook
    cases htook
  · exact hraised

theorem roused_notify (l : Link) (outbound : OutboundPhase) :
    ({ l.notify with outbound } : Link).Roused := by
  unfold notify
  split
  · exact roused_of_ne nofun nofun
  · next hat =>
    exact ⟨fun _ => .inl rfl, fun hparked => absurd hparked hat⟩

theorem roused_awakeStep {l l' : Link} {move : OutboundMove} (h : l.AwakeStep move l')
    (hl : l.Roused) (hwindow : 0 < l.window)
    (hlast : l.outbound = .shutting → l.replies.items = []) : l'.Roused := by
  have hquiet : ∀ {phase : OutboundPhase}, l.outbound = phase → (∀ m, phase ≠ .took m) →
      ∀ m, l.outbound ≠ .took m := fun hat hne m => hat ▸ hne m
  cases h with
  | suspend => exact hl.mono rfl rfl fun hwait => hwait
  | take => exact hl.mono rfl rfl fun _ => .inr (.inl ⟨_, rfl⟩)
  | notify => exact roused_notify l _
  | buffer hat => exact hl.mono rfl rfl (·.of_outbound (hquiet hat nofun) rfl rfl rfl)
  | clear hat => exact hl.mono rfl rfl (·.of_outbound (hquiet hat nofun) rfl rfl rfl)
  | spillPart hat => exact hl.mono rfl rfl (·.of_outbound (hquiet hat nofun) rfl rfl rfl)
  | spillRest hat => exact hl.mono rfl rfl (·.of_outbound (hquiet hat nofun) rfl rfl rfl)
  | spillBuffered => exact hl.mono rfl rfl fun hwait => hwait
  | drain hat => exact hl.mono rfl rfl (·.of_outbound (hquiet hat nofun) rfl rfl rfl)
  | proceed hat => exact hl.mono rfl rfl (·.of_outbound (hquiet hat nofun) rfl rfl rfl)
  | resume hat => exact hl.mono rfl rfl (·.of_outbound (hquiet hat nofun) rfl rfl rfl)
  | flushed hat => exact hl.mono rfl rfl (·.of_outbound (hquiet hat nofun) rfl rfl rfl)
  | finish hat =>
      exact hl.mono rfl rfl fun h => .inr (.inr (h.hungUp_of_shutting hat (hlast hat) hwindow))
  | fail hfail =>
      rcases failWrite_cases hfail with rfl | ⟨hat, rfl⟩
      · exact hl.mono rfl rfl fun _ => .inr (.inr rfl)
      · exact hl.mono rfl rfl fun h => .inr (.inr (h.hungUp_of_shutting hat (hlast hat) hwindow))

theorem roused_outboundStep {l l' : Link} {move : OutboundMove} (h : l.OutboundStep move l')
    (hl : l.Roused) (hwindow : 0 < l.window)
    (hlast : l.outbound = .shutting → l.replies.items = []) : l'.Roused := by
  cases h with
  | giveUp _ hhung => exact hl.mono rfl rfl fun _ => .inr (.inr hhung)
  | rouse => exact hl.mono rfl rfl fun hwait => hwait
  | awake _ hstep => exact roused_awakeStep hstep hl hwindow hlast

theorem roused_receive {l : Link} (hl : l.Roused) (message : Outbound) :
    (l.receive message).Roused := by
  rcases l.receive_cases message with ⟨-, heq⟩ | ⟨-, heq⟩ | heq
  · rw [heq]
    exact hl
  · rw [heq]
    refine hl.mono rfl rfl fun hwait => ?_
    rcases hwait with hfull | htook | hraised
    · refine .inl (Nat.le_trans hfull ?_)
      simp [Queue.size]
    · exact .inr (.inl htook)
    · exact .inr (.inr hraised)
  · rw [heq]
    exact hl.mono rfl rfl fun _ => .inr (.inr rfl)

theorem roused_submission {ρ : Type} {l l' : Link} {replier : ρ} {e : Envelope ρ}
    (h : l.submission? replier = some (e, l')) : l'.Roused := by
  obtain ⟨inbound, rfl, hthrottled, hparked⟩ := exists_of_submission h
  exact roused_of_ne hthrottled hparked

theorem roused_desert {l l' : Link} (h : l.desert? = some l') (hl : l.Roused) : l'.Roused := by
  obtain ⟨hat, -, rfl⟩ := desert?_eq_some_iff.mp h
  refine hl.mono rfl rfl (·.of_outbound (fun m => ?_) rfl rfl rfl)
  rw [hat]
  exact nofun

theorem roused_peerStep {p p' : Peer} {l l' : Link} {move : PeerMove} (h : p.Step l move p' l')
    (hl : l.Roused) : l'.Roused := by
  cases h with
  | feed => exact hl.mono rfl rfl fun hwait => hwait
  | halfClose => exact hl.mono rfl rfl fun hwait => hwait
  | drink => exact hl.mono rfl rfl fun hwait => hwait
  | seeEnd => exact hl
  | vanish => exact hl.mono rfl rfl fun hwait => hwait

end Link

end LockService
