import LockService.Proofs.Connection.Callers
import LockService.Proofs.Connection.Steps
import LockService.Proofs.Core.Conversations
import LockService.Server

/-!
# Connections hold conversations

However a connection ends — its peer stops or vanishes, what it sends is no request, reading fails,
or it is hung up at any moment — its inbound task tells the core that it has closed, once, and after
that nothing.  What the task has said so far can be read off where it stands (`Link.Talks`), and only
submitting something adds to it; every other move of anybody keeps it (`Link.Quiet`).

A server numbers its connections, so no two of them share a number until the numbers wrap, and what
the core is told under one number is one conversation.  `Server.Reaches` are the states that a server
can get into, each with the envelopes that its core has taken on the way, whatever the peers do and
whoever moves when.  **`Server.ordered_of_reaches`** is the result.
-/

namespace LockService

open Command (IsConversation)

/-- Whether the task reads requests and passes them on: it has opened, and has not found a reason to
stop. -/
def InboundPhase.isServing : InboundPhase → Bool
  | checking | throttled | parked _ | reading | holding _ => true
  | opening | closing | ended => false

namespace Link

/-- What the inbound task has told the core so far, by where it stands. -/
def Talks (l : Link) (position : Nat) (said : List (Command Nat)) : Prop :=
  match l.inbound with
  | .opening => said = []
  | .checking | .throttled | .parked _ | .reading | .holding _ =>
    ∃ requests : List Request, said = .opening position :: requests.map .request
  | .closing => IsConversation position (said ++ [.closing])
  | .ended => IsConversation position said

/-- Whether a link, after something happened to it, has told the core no more than before. -/
structure Quiet (l l' : Link) : Prop where
  id_eq : l'.id = l.id
  talks : ∀ position said, l.Talks position said → l'.Talks position said

theorem talks_iff_of_isServing {l : Link} (h : l.inbound.isServing = true) {position : Nat}
    {said : List (Command Nat)} : l.Talks position said
      ↔ ∃ requests : List Request, said = .opening position :: requests.map .request := by
  unfold Talks
  cases hat : l.inbound <;> simp_all [InboundPhase.isServing]

theorem quiet_of_inbound_eq {l l' : Link} (hid : l'.id = l.id) (h : l'.inbound = l.inbound) :
    l.Quiet l' where
  id_eq := hid
  talks _ _ htalks := by
    rw [Talks, h]
    exact htalks

theorem quiet_of_isServing {l l' : Link} (hid : l'.id = l.id) (h : l.inbound.isServing = true)
    (h' : l'.inbound.isServing = true ∨ l'.inbound = .closing) : l.Quiet l' where
  id_eq := hid
  talks position said htalks := by
    obtain ⟨requests, rfl⟩ := (talks_iff_of_isServing h).mp htalks
    rcases h' with h' | h'
    · exact (talks_iff_of_isServing h').mpr ⟨requests, rfl⟩
    · rw [Talks, h']
      exact ⟨requests, false, by simp⟩

/-- The moves of the inbound task are between reading requests and finding a reason to stop. -/
theorem quiet_inboundStep {l l' : Link} {move : InboundMove} (h : l.InboundStep move l') :
    l.Quiet l' := by
  cases h with
  | quit _ hheeds =>
      refine quiet_of_isServing rfl ?_ (.inr rfl)
      cases hat : l.inbound <;> simp_all [InboundPhase.heedsHangUp, InboundPhase.isServing]
  | enter hat => exact quiet_of_isServing rfl (by rw [hat]; rfl) (.inl rfl)
  | throttle hat => exact quiet_of_isServing rfl (by rw [hat]; rfl) (.inl rfl)
  | redeem hat => exact quiet_of_isServing rfl (by rw [hat]; rfl) (.inl rfl)
  | park hat => exact quiet_of_isServing rfl (by rw [hat]; rfl) (.inl rfl)
  | wake hat => exact quiet_of_isServing rfl (by rw [hat]; rfl) (.inl rfl)
  | fetch => exact quiet_of_inbound_eq rfl rfl
  | lengthen => exact quiet_of_inbound_eq rfl rfl
  | find hat => exact quiet_of_isServing rfl (by rw [hat]; rfl) (.inl rfl)
  | last hat => exact quiet_of_isServing rfl (by rw [hat]; rfl) (.inl rfl)
  | finish hat => exact quiet_of_isServing rfl (by rw [hat]; rfl) (.inr rfl)
  | fail hat => exact quiet_of_isServing rfl (by rw [hat]; rfl) (.inr rfl)

theorem quiet_notify (l : Link) (outbound : OutboundPhase) :
    l.Quiet { l.notify with outbound } := by
  unfold notify
  split
  · next hat => exact quiet_of_isServing rfl (by rw [hat]; rfl) (.inl rfl)
  · exact quiet_of_inbound_eq rfl rfl

theorem quiet_outboundStep {l l' : Link} {move : OutboundMove} (h : l.OutboundStep move l') :
    l.Quiet l' := by
  cases h with
  | giveUp => exact quiet_of_inbound_eq rfl rfl
  | rouse => exact quiet_of_inbound_eq rfl rfl
  | awake _ hstep =>
      cases hstep with
      | notify => exact l.quiet_notify _
      | fail hfail => rcases failWrite_cases hfail with rfl | ⟨-, rfl⟩ <;>
          exact quiet_of_inbound_eq rfl rfl
      | _ => exact quiet_of_inbound_eq rfl rfl

theorem quiet_receive (l : Link) (message : Outbound) : l.Quiet (l.receive message) := by
  rcases l.receive_cases message with ⟨-, heq⟩ | ⟨-, heq⟩ | heq <;> rw [heq] <;>
    exact quiet_of_inbound_eq rfl rfl

theorem quiet_desert {l l' : Link} (h : l.desert? = some l') : l.Quiet l' := by
  obtain ⟨-, -, rfl⟩ := desert?_eq_some_iff.mp h
  exact quiet_of_inbound_eq rfl rfl

theorem quiet_peerStep {p p' : Peer} {l l' : Link} {move : PeerMove} (h : p.Step l move p' l') :
    l.Quiet l' := by
  cases h <;> exact quiet_of_inbound_eq rfl rfl

/-- What a link submits comes under its number. -/
theorem sender_of_submission {l l' : Link} {position : Nat} {e : Envelope Nat}
    (h : l.submission? position = some (e, l')) : e.sender = l.id ∧ l'.id = l.id := by
  unfold submission? at h
  split at h
  all_goals cases h
  all_goals exact ⟨rfl, rfl⟩

/-- **What a task submits continues what it has said.** -/
theorem Talks.submission {l l' : Link} {position : Nat} {e : Envelope Nat}
    {said : List (Command Nat)} (h : l.Talks position said)
    (hsubmission : l.submission? position = some (e, l')) :
    l'.Talks position (said ++ [e.command]) := by
  unfold submission? at hsubmission
  split at hsubmission
  · next hat =>
    cases hsubmission
    rw [Talks, hat] at h
    subst h
    exact ⟨[], rfl⟩
  · next request hat =>
    cases hsubmission
    rw [Talks, hat] at h
    obtain ⟨requests, rfl⟩ := h
    exact ⟨requests ++ [request], by simp⟩
  · next hat =>
    cases hsubmission
    rw [Talks, hat] at h
    obtain ⟨requests, rfl⟩ := h
    exact ⟨requests, true, by simp⟩
  · next hat =>
    cases hsubmission
    rw [Talks, hat] at h
    exact h
  all_goals cases hsubmission

/-- What a task has said is the beginning of a conversation, with the closing only if the task is
gone, and all of the conversation then. -/
theorem Talks.exists_conversation {l : Link} {position : Nat} {said : List (Command Nat)}
    (h : l.Talks position said) :
    ∃ whole, IsConversation position whole ∧ said <+: whole ∧
      said.count .closing = (if l.inbound.isEnded then 1 else 0) ∧
      (l.inbound.isEnded = true → said = whole) := by
  by_cases hserving : l.inbound.isServing = true
  · obtain ⟨requests, rfl⟩ := (talks_iff_of_isServing hserving).mp h
    have hthere : l.inbound.isEnded = false := by
      cases hat : l.inbound <;> simp_all [InboundPhase.isEnded, InboundPhase.isServing]
    refine ⟨_, ⟨requests, false, rfl⟩, by simp, ?_, ?_⟩
    · rw [hthere]
      simp [List.count_eq_zero]
    · rw [hthere]
      exact nofun
  · cases hat : l.inbound with
    | opening =>
        rw [Talks, hat] at h
        subst h
        exact ⟨_, ⟨[], false, rfl⟩, List.nil_prefix, rfl, nofun⟩
    | closing =>
        rw [Talks, hat] at h
        refine ⟨_, h, List.prefix_append .., ?_, nofun⟩
        have hcount := h.count_closing
        rw [List.count_append, List.count_singleton_self] at hcount
        exact Nat.succ_injective hcount
    | ended =>
        rw [Talks, hat] at h
        exact ⟨said, h, List.prefix_refl _, h.count_closing, fun _ => rfl⟩
    | _ => exact absurd (by rw [hat]; rfl) hserving

end Link

/-! ## All links of a service -/

/-- The number of the connection at a position. -/
def ConnectionId.ofPosition (position : Nat) : ConnectionId :=
  ⟨UInt64.ofNat (position + 1)⟩

theorem ConnectionId.ofPosition_zero : ofPosition 0 = ⟨1⟩ := rfl

theorem ConnectionId.ofPosition_succ (position : Nat) :
    ofPosition (position + 1) = ⟨(ofPosition position).val + 1⟩ := by
  rw [ofPosition, ofPosition, UInt64.ofNat_add (position + 1) 1]
  rfl

/-- Until the numbers wrap they tell all connections apart. -/
theorem ConnectionId.ofPosition_inj {p q : Nat} (hp : p < UInt64.size) (hq : q < UInt64.size)
    (h : ofPosition p = ofPosition q) : p = q := by
  have hval : UInt64.ofNat (p + 1) = UInt64.ofNat (q + 1) := congrArg ConnectionId.val h
  have hmod := congrArg UInt64.toNat hval
  simp only [UInt64.toNat_ofNat'] at hmod
  simp only [UInt64.size] at hp hq
  omega

namespace Service

/-- What the core has been told: the envelopes that it has taken, and those that wait for it. -/
def received (s : Service) (history : List (Envelope Nat)) : List (Envelope Nat) :=
  history ++ s.inbox.items

/-- What is true of a service whose core has taken some envelopes: the core is as these envelopes
left it, the connections are numbered, nobody else has told the core anything, and each connection
has told it what it was about to. -/
structure Heard (history : List (Envelope Nat)) (s : Service) : Prop where
  core_eq : s.core = (Core.handleAll history .empty).2
  id_eq : ∀ {position : Nat} {l : Link}, s.links[position]? = some l → l.id = .ofPosition position
  sender : ∀ e ∈ s.received history, ∃ position < s.links.length, e.sender = .ofPosition position
  talks : s.links.length < UInt64.size → ∀ {position : Nat} {l : Link},
    s.links[position]? = some l → l.Talks position (Core.told l.id (s.received history))

/-- A service that has just started has heard nothing. -/
theorem heard_start {inboundCapacity : Nat} {s : Service} (h : start? inboundCapacity = some s) :
    s.Heard [] ∧ s.links = [] := by
  obtain ⟨inbox, hinbox, rfl⟩ := Option.map_eq_some_iff.mp h
  obtain ⟨-, rfl⟩ := Queue.eq_of_make? hinbox
  refine ⟨⟨rfl, ?_, ?_, ?_⟩, rfl⟩
  · intro position l hl
    cases hl
  · intro e he
    cases he
  · intro _ position l hl
    cases hl

/-- Nothing changes while all links are quiet. -/
theorem Heard.of_quiet {history : List (Envelope Nat)} {s s' : Service} (h : s.Heard history)
    (hcore : s'.core = s.core) (hinbox : s'.inbox.items = s.inbox.items)
    (hlength : s'.links.length = s.links.length)
    (hquiet : ∀ {position : Nat} {l' : Link}, s'.links[position]? = some l' →
      ∃ l, s.links[position]? = some l ∧ l.Quiet l') : s'.Heard history where
  core_eq := hcore.trans h.core_eq
  id_eq hl' := by
    obtain ⟨l, hl, hq⟩ := hquiet hl'
    rw [hq.id_eq, h.id_eq hl]
  sender := by
    rw [received, hinbox, hlength]
    exact h.sender
  talks hfew := fun {position l'} hl' => by
    obtain ⟨l, hl, hq⟩ := hquiet hl'
    rw [received, hinbox, hq.id_eq]
    exact hq.talks _ _ (h.talks (hlength ▸ hfew) hl)

theorem Heard.setLink {history : List (Envelope Nat)} {s : Service} (h : s.Heard history)
    {position : Nat} {l l' : Link} (hl : s.links[position]? = some l) (hquiet : l.Quiet l') :
    (s.setLink position l').Heard history := by
  refine h.of_quiet rfl rfl (List.length_set ..) fun {q m'} hm' => ?_
  replace hm' : (s.links.set position l')[q]? = some m' := hm'
  rw [Scenario.getElem?_set_of_some hl] at hm'
  split at hm'
  · next hq =>
    cases hm'
    exact ⟨l, hq ▸ hl, hquiet⟩
  · exact ⟨m', hm', Link.quiet_of_inbound_eq rfl rfl⟩

/-- What a link submits is the next thing that its connection has to say, and nobody else says
anything. -/
theorem Heard.submit {history : List (Envelope Nat)} {s : Service} (h : s.Heard history)
    {position : Nat} {l l' : Link} {e : Envelope Nat} (hl : s.links[position]? = some l)
    (hsubmission : l.submission? position = some (e, l')) :
    ({ s.setLink position l' with
      inbox := { s.inbox with items := s.inbox.items ++ [e] } } : Service).Heard history := by
  have hposition : position < s.links.length := (List.getElem?_eq_some_iff.mp hl).1
  obtain ⟨hsender, hid⟩ := Link.sender_of_submission hsubmission
  have hlinks : ∀ {q m'}, (s.links.set position l')[q]? = some m' →
      q = position ∧ m' = l' ∨ q ≠ position ∧ s.links[q]? = some m' := by
    intro q m' hm'
    rw [Scenario.getElem?_set_of_some hl] at hm'
    split at hm'
    · next hq => exact .inl ⟨hq.symm, (Option.some.inj hm').symm⟩
    · next hq => exact .inr ⟨Ne.symm hq, hm'⟩
  constructor
  case core_eq => exact h.core_eq
  case id_eq =>
    intro q m' hm'
    rcases hlinks hm' with ⟨rfl, rfl⟩ | ⟨-, hm⟩
    · rw [hid, h.id_eq hl]
    · exact h.id_eq hm
  case sender =>
    intro f hf
    show ∃ p < (s.links.set position l').length, _
    rw [List.length_set]
    replace hf : f ∈ history ++ (s.inbox.items ++ [e]) := hf
    rw [← List.append_assoc, List.mem_append, List.mem_singleton] at hf
    rcases hf with hf | rfl
    · exact h.sender f hf
    · exact ⟨position, hposition, hsender.trans (h.id_eq hl)⟩
  case talks =>
    intro hfew q m' hm'
    replace hfew : (s.links.set position l').length < UInt64.size := hfew
    rw [List.length_set] at hfew
    show m'.Talks q (Core.told m'.id (history ++ (s.inbox.items ++ [e])))
    rw [← List.append_assoc, Core.told_append, Core.told_cons, Core.told_nil]
    rcases hlinks hm' with ⟨rfl, rfl⟩ | ⟨hne, hm⟩
    · rw [if_pos (hsender.trans hid.symm), hid]
      exact (h.talks hfew hl).submission hsubmission
    · have hq : q < s.links.length := (List.getElem?_eq_some_iff.mp hm).1
      have hother : e.sender ≠ m'.id := by
        rw [hsender, h.id_eq hl, h.id_eq hm]
        intro heq
        exact hne (ConnectionId.ofPosition_inj (hposition.trans hfew) (hq.trans hfew) heq).symm
      rw [if_neg hother, List.append_nil]
      exact h.talks hfew hm

/-- A new link has said nothing. -/
theorem Heard.accept {history : List (Envelope Nat)} {s : Service} (h : s.Heard history) {l : Link}
    (hid : l.id = .ofPosition s.links.length) (hat : l.inbound = .opening) :
    (s.accept l).Heard history := by
  have hlinks : ∀ {q m}, (s.links ++ [l])[q]? = some m →
      s.links[q]? = some m ∨ q = s.links.length ∧ m = l := by
    intro q m hm
    rw [List.getElem?_append] at hm
    split at hm
    · exact .inl hm
    · obtain ⟨hq, rfl⟩ := List.getElem?_eq_some_iff.mp hm
      rw [List.length_singleton] at hq
      exact .inr ⟨by omega, List.getElem_singleton ..⟩
  constructor
  case core_eq => exact h.core_eq
  case id_eq =>
    intro q m hm
    rcases hlinks hm with hm | ⟨rfl, rfl⟩
    · exact h.id_eq hm
    · exact hid
  case sender =>
    intro e he
    obtain ⟨p, hp, hsender⟩ := h.sender e he
    refine ⟨p, ?_, hsender⟩
    show p < (s.links ++ [l]).length
    rw [List.length_append]
    exact Nat.lt_add_right _ hp
  case talks =>
    intro hfew q m hm
    replace hfew : (s.links ++ [l]).length < UInt64.size := hfew
    rw [List.length_append, List.length_singleton] at hfew
    rcases hlinks hm with hm | ⟨rfl, rfl⟩
    · exact h.talks (Nat.lt_of_succ_lt hfew) hm
    · have hnothing : Core.told m.id (s.received history) = [] := by
        rw [List.eq_nil_iff_forall_not_mem]
        intro command hcommand
        obtain ⟨p, hp, hsender⟩ := h.sender _ (Core.mem_told_iff.mp hcommand)
        refine absurd (ConnectionId.ofPosition_inj ?_ ?_ (hsender.symm.trans hid)) hp.ne
        · exact hp.trans (Nat.lt_of_succ_lt hfew)
        · exact Nat.lt_of_succ_lt hfew
      show m.Talks _ (Core.told m.id (s.received history))
      rw [Link.Talks, hat]
      exact hnothing

end Service

/-- **One move.** -/
theorem Scenario.heard_step {history : List (Envelope Nat)} {w w' : Scenario} {move : Move}
    (h : w.service.Heard history) (hstep : w.Step move w') :
    w'.service.Heard (history ++ (w.taken? move).toList) ∧
      w'.service.links.length = w.service.links.length := by
  cases hstep with
  | @take e rest hpending hitems =>
      have hreceived : (history ++ [e]) ++ rest = w.service.received history := by
        rw [Service.received, hitems, List.append_assoc, List.singleton_append]
      rw [show w.taken? (.service .take) = some e by simp [taken?, hitems], Option.toList_some]
      refine ⟨⟨?_, h.id_eq, ?_, ?_⟩, rfl⟩
      · show (w.service.core.handle e).2 = _
        rw [Core.handleAll_concat, h.core_eq]
      · show ∀ f ∈ (history ++ [e]) ++ rest, _
        rw [hreceived]
        exact h.sender
      · intro hfew position l hl
        show l.Talks position (Core.told l.id ((history ++ [e]) ++ rest))
        rw [hreceived]
        exact h.talks hfew hl
  | @deliver d rest hpending =>
      simp only [taken?, Option.toList_none, List.append_nil]
      refine ⟨h.of_quiet rfl rfl (List.length_modify ..) fun {q m'} hm' => ?_,
        List.length_modify ..⟩
      replace hm' : (w.service.links.modify d.replier (·.receive d.message))[q]? = some m' := hm'
      rw [List.getElem?_modify] at hm'
      obtain ⟨l, hl, rfl⟩ := Option.map_eq_some_iff.mp hm'
      refine ⟨l, hl, ?_⟩
      split
      · exact l.quiet_receive d.message
      · exact Link.quiet_of_inbound_eq rfl rfl
  | submit hl hsubmission =>
      simp only [taken?, Option.toList_none, List.append_nil]
      exact ⟨h.submit hl hsubmission, List.length_set ..⟩
  | inbound hl hstep =>
      simp only [taken?, Option.toList_none, List.append_nil]
      exact ⟨h.setLink hl (Link.quiet_inboundStep hstep), List.length_set ..⟩
  | outbound hl hstep =>
      simp only [taken?, Option.toList_none, List.append_nil]
      exact ⟨h.setLink hl (Link.quiet_outboundStep hstep), List.length_set ..⟩
  | desert hl _ hdesert =>
      simp only [taken?, Option.toList_none, List.append_nil]
      exact ⟨h.setLink hl (Link.quiet_desert hdesert), List.length_set ..⟩
  | peer _ hl hstep =>
      simp only [taken?, Option.toList_none, List.append_nil]
      exact ⟨h.setLink hl (Link.quiet_peerStep hstep), List.length_set ..⟩

/-! ## Servers -/

namespace Server

/-- The states that a server can get into from a start, each with the envelopes that its core has
taken on the way, in the order of taking.  The world outside may do anything with the peers at any
time. -/
inductive Reaches (start : Server) : List (Envelope Nat) → Server → Prop
  | start : Reaches start [] start
  | accept {history : List (Envelope Nat)} {s s' : Server} {buffer : Nat}
      (h : Reaches start history s) (haccept : s.accept? buffer = some s') :
      Reaches start history s'
  | inside {history : List (Envelope Nat)} {s : Server} {move : Scenario.Move} {w : Scenario}
      (h : Reaches start history s) (hstep : s.scenario.step? move = some w) :
      Reaches start (history ++ (s.scenario.taken? move).toList) { s with scenario := w }
  | outside {history : List (Envelope Nat)} {s : Server} (h : Reaches start history s)
      (position : Nat) (change : Peer → Peer) : Reaches start history (s.modifyPeer position change)

/-- The envelopes that the core of a server takes in a run, in their order. -/
def handled (s : Server) : List Move → List (Envelope Nat)
  | [] => []
  | .accept buffer :: rest =>
    match s.accept? buffer with
    | none => []
    | some next => next.handled rest
  | .inside move :: rest =>
    match s.scenario.step? move with
    | none => []
    | some w => (s.scenario.taken? move).toList ++ handled { s with scenario := w } rest

theorem Reaches.run {start s s' : Server} {history : List (Envelope Nat)} {moves : List Move}
    (h : start.Reaches history s) (hrun : s.run? moves = some s') :
    start.Reaches (history ++ s.handled moves) s' := by
  induction moves generalizing history s with
  | nil =>
      cases hrun
      rw [handled, List.append_nil]
      exact h
  | cons move rest ih =>
      rw [run?, List.foldlM_cons] at hrun
      obtain ⟨next, hnext, hrest⟩ := Option.bind_eq_some_iff.mp hrun
      cases move with
      | accept buffer =>
          have haccept : s.accept? buffer = some next := hnext
          rw [handled, haccept]
          exact ih (h.accept haccept) hrest
      | inside move =>
          obtain ⟨w, hstep, rfl⟩ := Option.map_eq_some_iff.mp hnext
          rw [handled, hstep, ← List.append_assoc]
          exact ih (h.inside hstep) hrest

/-- **What a server's core has been told is true of its service**, and the next number is the one
that is due. -/
theorem Reaches.heard {config : Config} {start s : Server} {history : List (Envelope Nat)}
    (hstart : make? config = some start) (h : start.Reaches history s) :
    s.scenario.service.Heard history ∧
      (⟨s.nextId⟩ : ConnectionId) = .ofPosition s.scenario.service.links.length := by
  induction h with
  | start =>
      obtain ⟨scenario, hscenario, rfl⟩ := Option.map_eq_some_iff.mp hstart
      obtain ⟨service, hservice, rfl⟩ := Option.map_eq_some_iff.mp hscenario
      obtain ⟨hheard, hlinks⟩ := Service.heard_start hservice
      refine ⟨hheard, ?_⟩
      show (⟨1⟩ : ConnectionId) = .ofPosition service.links.length
      rw [hlinks]
      exact ConnectionId.ofPosition_zero.symm
  | accept _ haccept ih =>
      obtain ⟨hheard, hnext⟩ := ih
      obtain ⟨link, hlink, rfl⟩ := Option.map_eq_some_iff.mp haccept
      obtain ⟨replies, -, rfl⟩ := Option.map_eq_some_iff.mp hlink
      refine ⟨hheard.accept hnext rfl, ?_⟩
      show _ = ConnectionId.ofPosition (_ ++ [_]).length
      rw [List.length_append, List.length_singleton, ConnectionId.ofPosition_succ, ← hnext]
  | inside _ hstep ih =>
      obtain ⟨hheard, hnext⟩ := ih
      obtain ⟨hafter, hlength⟩ := Scenario.heard_step hheard (.of_eq hstep)
      refine ⟨hafter, ?_⟩
      rw [hlength]
      exact hnext
  | outside _ _ _ ih => exact ih

/-- What a server owes to its connections, whatever has happened.  No two connections share a number.
The core has been told nothing but what connections have to say: under the number of each, the
beginning of its conversation, with its closing if and only if its inbound task is gone, and then the
whole.  So in the core exactly those are registered who can be reached, whoever holds or awaits a key
can be, and everybody whom the core has had a reply for was replied to. -/
structure Ordered (history : List (Envelope Nat)) (s : Server) : Prop where
  ids_nodup : (s.scenario.service.links.map (·.id)).Nodup
  sender_mem : ∀ e ∈ s.scenario.service.received history,
    ∃ l ∈ s.scenario.service.links, l.id = e.sender
  conversation : ∀ position l, s.scenario.service.links[position]? = some l →
    ∃ whole, IsConversation position whole ∧
      Core.told l.id (s.scenario.service.received history) <+: whole ∧
      (Core.told l.id (s.scenario.service.received history)).count .closing
        = (if l.inbound.isEnded then 1 else 0) ∧
      (l.inbound.isEnded = true → Core.told l.id (s.scenario.service.received history) = whole)
  closing_last : ∀ before e after, s.scenario.service.received history = before ++ e :: after →
    e.command = .closing → ∀ f ∈ after, f.sender ≠ e.sender
  core_eq : s.scenario.service.core = (Core.handleAll history .empty).2
  isRegistered_eq : ∀ c, s.scenario.service.core.table.views.isRegistered c
    = s.scenario.service.core.canReach c
  canReach_of_mem_queue : ∀ key, ∀ c ∈ s.scenario.service.core.table.views.queue key,
    s.scenario.service.core.canReach c = true
  repliedTo_eq : ∀ before e after, s.scenario.service.received history = before ++ e :: after →
    Core.repliedTo ((Core.handleAll before .empty).2.handle e).1
      = (Core.handleAll before .empty).2.audience e

/-- **Servers are in order**, as long as fewer than 2⁶⁴ connections were accepted: numbers have 64 bits
and come again after that many. -/
theorem ordered_of_reaches {config : Config} {start s : Server} {history : List (Envelope Nat)}
    (hstart : make? config = some start) (h : start.Reaches history s)
    (hfew : s.scenario.service.links.length < UInt64.size) : s.Ordered history := by
  obtain ⟨hheard, -⟩ := h.heard hstart
  have hsender : ∀ e ∈ s.scenario.service.received history,
      ∃ (position : Nat) (l : Link), s.scenario.service.links[position]? = some l ∧
        l.id = e.sender := by
    intro e he
    obtain ⟨position, hposition, heq⟩ := hheard.sender e he
    have hl := List.getElem?_eq_getElem hposition
    exact ⟨position, _, hl, (hheard.id_eq hl).trans heq.symm⟩
  have hconversational : Core.Conversational (s.scenario.service.received history) := by
    intro e he
    obtain ⟨position, l, hl, hid⟩ := hsender e he
    obtain ⟨whole, hwhole, hsaid, -⟩ := (hheard.talks hfew hl).exists_conversation
    exact ⟨position, whole, hwhole, hid ▸ hsaid⟩
  have horderly : Core.Orderly history := hconversational.of_append.orderly
  constructor
  case ids_nodup =>
    have hids : s.scenario.service.links.map (·.id)
        = (List.range s.scenario.service.links.length).map .ofPosition := by
      refine List.ext_getElem (by simp) fun position hposition _ => ?_
      rw [List.getElem_map, List.getElem_map, List.getElem_range]
      exact hheard.id_eq (List.getElem?_eq_getElem (by simpa using hposition))
    rw [hids]
    refine List.nodup_range.map_on fun p hp q hq => ?_
    exact ConnectionId.ofPosition_inj ((List.mem_range.mp hp).trans hfew)
      ((List.mem_range.mp hq).trans hfew)
  case sender_mem =>
    intro e he
    obtain ⟨position, l, hl, hid⟩ := hsender e he
    exact ⟨l, List.mem_of_getElem? hl, hid⟩
  case conversation => exact fun position l hl => (hheard.talks hfew hl).exists_conversation
  case closing_last =>
    intro before e after heq
    rw [heq] at hconversational
    exact hconversational.sender_ne_of_closing
  case core_eq => exact hheard.core_eq
  case isRegistered_eq =>
    intro c
    rw [hheard.core_eq, horderly.isRegistered_eq, Core.canReach_handleAll]
  case canReach_of_mem_queue =>
    intro key c hc
    rw [hheard.core_eq] at hc ⊢
    exact horderly.canReach_of_mem_queue hc
  case repliedTo_eq =>
    intro before e after heq
    rw [heq] at hconversational
    exact hconversational.repliedTo_eq

/-- For instance the second of two connections waits for a key that the first one holds, the first
one is lost and its reply cannot be written, so it is hung up and has just said that it closes.  All
that it has said is a conversation, and what the core will do next is tell the second connection. -/
theorem ordered_of_reaches_hangUp :
    let config : Config := { inboundCapacity := 1 }
    let record := "[\"lock\",\"a\"]\n".toUTF8.toList
    let lock : Command Nat := .request ⟨"lock", "a", none⟩
    let opening : List Move :=
      [.accept 64, .accept 64] ++
        [.service (.submit 0), .service .take, .service (.submit 1), .service .take].map .inside
    let locking (position : Nat) : List Scenario.Move :=
      [.peer position (.feed 13), .service (.inbound position .check),
        .service (.inbound position (.fetch 13)), .service (.inbound position .decode),
        .service (.submit position), .service .take]
    let losing : List Scenario.Move :=
      [.service (.outbound 0 .look), .service (.outbound 0 .take), .service (.outbound 0 .notify),
        .service (.outbound 0 .buffer), .service (.outbound 0 .test), .peer 0 .vanish,
        .service (.outbound 0 .fail), .service (.inbound 0 .quit), .service (.submit 0)]
    let moves := locking 0 ++ [.service .deliver] ++ locking 1 ++ losing
    ∃ start opened s, make? config = some start ∧ start.run? opening = some opened ∧
      ((opened.arrive 0 record).arrive 1 record).run? (moves.map .inside) = some s ∧
      s.scenario.service.links.length = 2 ∧ s.scenario.service.inbox.items = [⟨⟨1⟩, .closing⟩] ∧
      ∃ history, start.Reaches history s ∧
        history = [⟨⟨1⟩, .opening 0⟩, ⟨⟨2⟩, .opening 1⟩, ⟨⟨1⟩, lock⟩, ⟨⟨2⟩, lock⟩] ∧
        s.Ordered history ∧
        Core.repliedTo ((Core.handleAll history .empty).2.handle ⟨⟨1⟩, .closing⟩).1 = [⟨2⟩] := by
  intro config record lock opening locking losing moves
  have hend : (make? config).any (fun start => (start.run? opening).any fun opened =>
      let waiting := (opened.arrive 0 record).arrive 1 record
      (waiting.run? (moves.map .inside)).any fun s =>
        s.scenario.service.links.length = 2 ∧ s.scenario.service.inbox.items = [⟨⟨1⟩, .closing⟩] ∧
        start.handled opening ++ waiting.handled (moves.map .inside)
          = [⟨⟨1⟩, .opening 0⟩, ⟨⟨2⟩, .opening 1⟩, ⟨⟨1⟩, lock⟩, ⟨⟨2⟩, lock⟩]) = true := by
    decide +kernel
  obtain ⟨start, hstart, hend⟩ := (Option.any_eq_true _ _).mp hend
  obtain ⟨opened, hopened, hend⟩ := (Option.any_eq_true _ _).mp hend
  obtain ⟨s, hs, hend⟩ := (Option.any_eq_true _ _).mp hend
  obtain ⟨hlinks, hinbox, hhistory⟩ := of_decide_eq_true hend
  have hbefore := Reaches.start.run hopened
  have hreaches : start.Reaches
      (start.handled opening
        ++ ((opened.arrive 0 record).arrive 1 record).handled (moves.map .inside)) s :=
    ((hbefore.outside 0 _).outside 1 _).run hs
  rw [hhistory] at hreaches
  have hordered := ordered_of_reaches hstart hreaches (by rw [hlinks]; decide)
  refine ⟨start, opened, s, hstart, hopened, hs, hlinks, hinbox, _, hreaches, rfl, hordered, ?_⟩
  rw [hordered.repliedTo_eq _ _ [] (by rw [Service.received, hinbox])]
  decide +kernel

end Server

end LockService
