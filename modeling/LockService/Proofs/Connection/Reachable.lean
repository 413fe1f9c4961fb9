import LockService.Proofs.Connection.Conversations

/-!
# Reachable scenarios

`Server.Reaches` follows a server, which gives the same bounds to all of its connections.  The
relation here, `Scenario.Reaches`, leaves the bounds of every connection open; connections come at
any time and are numbered as a server numbers them, and each state goes with the envelopes that the
core has taken on the way to it.

What is said of a link, of the inbox or of the core in every reachable state is proved here along
that relation: what the core has been told is true (`Reaches.heard`), the inbox keeps its size
(`Reaches.inbox_capacity`), and so everybody has said the beginning of a conversation
(`Service.Heard.conversational`).  `Server.Reaches.reaches` takes it back to servers.
-/

namespace LockService

namespace Service

variable {history : List (Envelope Nat)} {s : Service}

/-- Everybody has said the beginning of a conversation. -/
theorem Heard.conversational (h : s.Heard history) (hfew : s.links.length < UInt64.size) :
    Core.Conversational (s.received history) := by
  intro e he
  obtain ⟨position, hposition, hsender⟩ := h.sender e he
  have hl := List.getElem?_eq_getElem hposition
  obtain ⟨whole, hwhole, hsaid, -⟩ := (h.talks hfew hl).exists_conversation
  exact ⟨position, whole, hwhole, hsender ▸ h.id_eq hl ▸ hsaid⟩

/-- So what the core has taken is in order. -/
theorem Heard.orderly (h : s.Heard history) (hfew : s.links.length < UInt64.size) :
    Core.Orderly history :=
  (h.conversational hfew).of_append.orderly

/-- Links are told apart by their numbers. -/
theorem Heard.position_eq (h : s.Heard history) (hfew : s.links.length < UInt64.size) {p q : Nat}
    {l m : Link} (hl : s.links[p]? = some l) (hm : s.links[q]? = some m) (hid : l.id = m.id) :
    p = q := by
  rw [h.id_eq hl, h.id_eq hm] at hid
  have hp : p < s.links.length := (List.getElem?_eq_some_iff.mp hl).1
  have hq : q < s.links.length := (List.getElem?_eq_some_iff.mp hm).1
  exact ConnectionId.ofPosition_inj (hp.trans hfew) (hq.trans hfew) hid

end Service

namespace Scenario

/-- The states that a scenario can get into from a start, each with the envelopes that its core has
taken on the way, in the order of taking.  Every connection has its own bounds, and the world
outside may do anything with the peers at any time. -/
inductive Reaches (start : Scenario) : List (Envelope Nat) → Scenario → Prop
  | start : Reaches start [] start
  | connect {history : List (Envelope Nat)} {w : Scenario} {limits : ReplyLimits} {buffer : Nat}
      {link : Link} (h : Reaches start history w)
      (hlink : Link.make? (.ofPosition w.nextPosition) limits buffer = some link) :
      Reaches start history (w.connect link)
  | move {history : List (Envelope Nat)} {w w' : Scenario} {move : Move}
      (h : Reaches start history w) (hstep : w.step? move = some w') :
      Reaches start (history ++ (w.taken? move).toList) w'
  | outside {history : List (Envelope Nat)} {w : Scenario} (h : Reaches start history w)
      (position : Nat) (change : Peer → Peer) : Reaches start history (w.modifyPeer position change)

theorem Reaches.run {start w w' : Scenario} {history : List (Envelope Nat)} {moves : List Move}
    (h : start.Reaches history w) (hrun : w.run? moves = some w') :
    start.Reaches (history ++ w.handled moves) w' := by
  induction moves generalizing history w with
  | nil =>
      cases hrun
      rw [handled, List.append_nil]
      exact h
  | cons move rest ih =>
      rw [run?, List.foldlM_cons] at hrun
      obtain ⟨next, hnext, hrest⟩ := Option.bind_eq_some_iff.mp hrun
      rw [handled, hnext, ← List.append_assoc]
      exact ih (h.move hnext) hrest

section

variable {inboundCapacity : Nat} {start w : Scenario} {history : List (Envelope Nat)}

/-- What a core has been told is true of its service. -/
theorem Reaches.heard (hstart : start? inboundCapacity = some start)
    (h : start.Reaches history w) : w.service.Heard history := by
  induction h with
  | start =>
      obtain ⟨service, hservice, rfl⟩ := Option.map_eq_some_iff.mp hstart
      exact (Service.heard_start hservice).1
  | connect _ hlink ih =>
      obtain ⟨replies, -, rfl⟩ := Option.map_eq_some_iff.mp hlink
      exact ih.accept rfl rfl
  | move _ hstep ih => exact (heard_step ih (.of_eq hstep)).1
  | outside _ _ _ ih => exact ih

/-- The inbox keeps its size. -/
theorem inbox_capacity_step {w' : Scenario} {move : Move} (h : w.Step move w') :
    w'.service.inbox.capacity = w.service.inbox.capacity := by
  cases h <;> rfl

theorem Reaches.inbox_capacity (hstart : start? inboundCapacity = some start)
    (h : start.Reaches history w) :
    w.service.inbox.capacity = inboundCapacity ∧ 0 < inboundCapacity := by
  induction h with
  | start =>
      obtain ⟨service, hservice, rfl⟩ := Option.map_eq_some_iff.mp hstart
      obtain ⟨inbox, hinbox, rfl⟩ := Option.map_eq_some_iff.mp hservice
      obtain ⟨hcapacity, rfl⟩ := Queue.eq_of_make? hinbox
      exact ⟨rfl, hcapacity⟩
  | connect _ _ ih => exact ih
  | move _ hstep ih =>
      rw [inbox_capacity_step (.of_eq hstep)]
      exact ih
  | outside _ _ _ ih => exact ih

end

end Scenario

/-- What a server can get into its scenario can. -/
theorem Server.Reaches.reaches {config : Config} {start s : Server}
    {history : List (Envelope Nat)} (hstart : make? config = some start)
    (h : start.Reaches history s) : start.scenario.Reaches history s.scenario := by
  induction h with
  | start => exact .start
  | @accept _ s _ buffer h haccept ih =>
      obtain ⟨link, hlink, rfl⟩ := Option.map_eq_some_iff.mp haccept
      rw [(h.heard hstart).2] at hlink
      exact ih.connect hlink
  | inside _ hstep ih => exact ih.move hstep
  | outside _ position change ih => exact ih.outside position change

end LockService
