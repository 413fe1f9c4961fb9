import LockService.Proofs.Connection.Faithful

/-!
# Keeping account of a run

`Scenario.Account` is the invariant of runs of callers.  It splits the envelopes that were submitted
into those that the core has handled and those that wait in its inbox, each tagged with the position
of the link that submitted it, and says:

* what a link has submitted and what it has still to submit is exactly what its caller has to tell;
* the core is the one that handling the first kind of envelopes leads to;
* every link is faithful to that run of the core.

Every move that is no failure keeps it, as long as no connection is hung up (`Account.step`), and so
does every run (`Account.run`).
-/

namespace LockService

/-! ## What callers have to tell -/

section Expected

variable {ρ : Type}

theorem closing_mem_ofRecords (records : List (Except DecodeError Request)) :
    (.closing : Command ρ) ∈ Command.ofRecords records := by
  induction records with
  | nil => exact List.mem_cons_self
  | cons record rest ih =>
      cases record with
      | ok r => exact List.mem_cons_of_mem _ ih
      | error => simp [Command.ofRecords]

theorem opening_not_mem_ofRecords (records : List (Except DecodeError Request)) (replier : ρ) :
    .opening replier ∉ Command.ofRecords records := by
  induction records with
  | nil => simp [Command.ofRecords]
  | cons record rest ih =>
      cases record with
      | ok r => simpa [Command.ofRecords] using ih
      | error => simp [Command.ofRecords]

end Expected

namespace Scenario

variable {callers : List Caller} {position : Nat}

theorem expected_of_some {c : Caller} (hc : callers[position]? = some c) :
    expected callers position = c.envelopes position := by
  rw [expected, hc]

/-- A caller opens with its own position, under its own number. -/
theorem opening_of_mem_expected {e : Envelope Nat} {q : Nat} (he : e ∈ expected callers position)
    (hopening : e.command = .opening q) :
    q = position ∧ ∃ c, callers[position]? = some c ∧ e.sender = c.id := by
  cases hc : callers[position]? with
  | none => rw [expected, hc] at he; cases he
  | some c =>
      rw [expected_of_some hc, Caller.envelopes] at he
      obtain ⟨command, hcommand, rfl⟩ := List.mem_map.mp he
      rcases List.mem_cons.mp hcommand with rfl | hmem
      · cases hopening
        exact ⟨rfl, c, rfl, rfl⟩
      · rw [show command = .opening q from hopening] at hmem
        exact absurd hmem (opening_not_mem_ofRecords _ _)

/-- **A caller opens once**, before anything else. -/
theorem opening_not_mem_rest {before after : List (Envelope Nat)} {e : Envelope Nat}
    (h : expected callers position = before ++ after) (he : e ∈ before) {f : Envelope Nat}
    (hf : f ∈ after) (q : Nat) : f.command ≠ .opening q := by
  cases hc : callers[position]? with
  | none =>
      rw [expected, hc] at h
      have hnil := (List.append_eq_nil_iff.mp h.symm).1
      rw [hnil] at he
      cases he
  | some c =>
      cases before with
      | nil => cases he
      | cons first before =>
          rw [expected_of_some hc, Caller.envelopes, List.map_cons, List.cons_append] at h
          have hmem : f ∈ (Command.ofRecords (Decoder.all c.bytes)).map
              (⟨c.id, ·⟩ : _ → Envelope Nat) := by
            rw [(List.cons.inj h).2]
            exact List.mem_append_right _ hf
          obtain ⟨command, hcommand, rfl⟩ := List.mem_map.mp hmem
          intro hopening
          rw [show command = .opening q from hopening] at hcommand
          exact opening_not_mem_ofRecords _ _ hcommand

/-- After its opening a caller comes to closing. -/
theorem closing_mem_rest {before after : List (Envelope Nat)} {id : ConnectionId}
    (h : expected callers position = before ++ ⟨id, .opening position⟩ :: after) :
    ⟨id, .closing⟩ ∈ after := by
  have hmem : (⟨id, .opening position⟩ : Envelope Nat) ∈ expected callers position := by
    rw [h]
    exact List.mem_append_right _ List.mem_cons_self
  obtain ⟨-, c, hc, rfl⟩ := opening_of_mem_expected hmem rfl
  cases before with
  | cons first before =>
      exact absurd rfl (opening_not_mem_rest h List.mem_cons_self List.mem_cons_self position)
  | nil =>
      rw [expected_of_some hc, Caller.envelopes, List.map_cons, List.nil_append] at h
      rw [← (List.cons.inj h).2]
      exact List.mem_map.mpr ⟨_, closing_mem_ofRecords _, rfl⟩

/-! ## Links and peers by position -/

/-- What the link at a position has still to submit. -/
def toCome (w : Scenario) (position : Nat) : List (Envelope Nat) :=
  match w.service.links[position]?, w.peers[position]? with
  | some l, some p => l.toCome position p.backlog
  | _, _ => []

theorem toCome_of_some {w : Scenario} {l : Link} {p : Peer}
    (hl : w.service.links[position]? = some l) (hp : w.peers[position]? = some p) :
    w.toCome position = l.toCome position p.backlog := by
  rw [toCome, hl, hp]

/-- The scenario after the link and the peer at one position were replaced. -/
structure Replaces (w w' : Scenario) (position : Nat) (l l' : Link) (p p' : Peer) : Prop where
  link : w.service.links[position]? = some l
  peer : w.peers[position]? = some p
  links : w'.service.links = w.service.links.set position l'
  peers : w'.peers = w.peers.set position p'

namespace Replaces

variable {w w' : Scenario} {l l' : Link} {p p' : Peer}

theorem links_getElem? (h : Replaces w w' position l l' p p') (q : Nat) :
    w'.service.links[q]? = if position = q then some l' else w.service.links[q]? := by
  rw [h.links, getElem?_set_of_some h.link]

theorem peers_getElem? (h : Replaces w w' position l l' p p') (q : Nat) :
    w'.peers[q]? = if position = q then some p' else w.peers[q]? := by
  rw [h.peers, getElem?_set_of_some h.peer]

theorem toCome_eq (h : Replaces w w' position l l' p p') (q : Nat) :
    w'.toCome q = if position = q then l'.toCome position p'.backlog else w.toCome q := by
  unfold toCome
  rw [h.links_getElem?, h.peers_getElem?]
  by_cases hq : position = q
  · subst hq
    simp only [if_true]
  · simp only [if_neg hq]

/-- What is true at every position stays true if it is true of the new link and peer. -/
theorem everywhere {F G : Nat → Link → Peer → Prop} (h : Replaces w w' position l l' p p')
    (hbefore : ∀ q m r, w.service.links[q]? = some m → w.peers[q]? = some r → F q m r)
    (hsame : ∀ q m r, F q m r → G q m r) (hnew : F position l p → G position l' p') :
    ∀ q m r, w'.service.links[q]? = some m → w'.peers[q]? = some r → G q m r := by
  intro q m r hm hr
  rw [h.links_getElem?] at hm
  rw [h.peers_getElem?] at hr
  by_cases hq : position = q
  · rw [if_pos hq] at hm hr
    cases hm
    cases hr
    subst hq
    exact hnew (hbefore position l p h.link h.peer)
  · rw [if_neg hq] at hm hr
    exact hsame q m r (hbefore q m r hm hr)

end Replaces

/-! ## The invariant -/

/-- The account of a run: the envelopes that the core has handled and those that wait in its inbox,
each with the position of the link that it came from. -/
structure Account (callers : List Caller) (w : Scenario) (done waiting : List (Nat × Envelope Nat)) :
    Prop where
  links_length : w.service.links.length = callers.length
  peers_length : w.peers.length = callers.length
  capacity_pos : 0 < w.service.inbox.capacity
  inbox_eq : w.service.inbox.items = waiting.map Prod.snd
  core_eq : w.service.core = (Core.handleAll (done.map Prod.snd) .empty).2
  parts_eq : ∀ position,
    part position done ++ part position waiting ++ w.toCome position = expected callers position
  faithful : ∀ (position : Nat) (l : Link) (p : Peer), w.service.links[position]? = some l →
    w.peers[position]? = some p →
    l.Faithful position p w.service.pending (done.map Prod.snd)

namespace Account

variable {w w' : Scenario} {done waiting : List (Nat × Envelope Nat)}

theorem exists_peer (h : Account callers w done waiting) {l : Link}
    (hl : w.service.links[position]? = some l) : ∃ p, w.peers[position]? = some p := by
  have hlt := (List.getElem?_eq_some_iff.mp hl).1
  rw [h.links_length, ← h.peers_length] at hlt
  exact ⟨_, List.getElem?_eq_getElem hlt⟩

/-- An opening that was submitted came from the link that it is for. -/
theorem opening_of_mem (h : Account callers w done waiting) {tag q : Nat} {e : Envelope Nat}
    (he : (tag, e) ∈ done ++ waiting) (hopening : e.command = .opening q) :
    q = tag ∧ ∃ c, callers[tag]? = some c ∧ e.sender = c.id := by
  refine opening_of_mem_expected ?_ hopening
  rw [← h.parts_eq tag, ← part_append]
  exact List.mem_append_left _ (mem_part_iff.mpr he)

/-- What is registered has opened: the link's own opening was handled, under its own number. -/
theorem opened (h : Account callers w done waiting) {id : ConnectionId}
    (hreplier : (Core.handleAll (done.map Prod.snd) .empty).2.repliers[id]? = some position) :
    (∃ e, e ∈ part position done ∧ e.command = .opening position) ∧
      ∃ c, callers[position]? = some c ∧ id = c.id := by
  obtain ⟨before, after, hdone, -⟩ := Core.opened_of_replier hreplier
  have hmem : (⟨id, .opening position⟩ : Envelope Nat) ∈ done.map Prod.snd := by
    rw [hdone]
    exact List.mem_append_right _ List.mem_cons_self
  obtain ⟨⟨tag, e⟩, htagged, rfl⟩ := List.mem_map.mp hmem
  obtain ⟨rfl, c, hc, hid⟩ := h.opening_of_mem (List.mem_append_left _ htagged) rfl
  exact ⟨⟨_, mem_part_iff.mpr htagged, rfl⟩, c, hc, hid⟩

/-- A link that was opened is not opened again. -/
theorem opening_not_waiting (h : Account callers w done waiting) {id : ConnectionId}
    (hopened : (⟨id, .opening position⟩ : Envelope Nat) ∈ done.map Prod.snd) {tag : Nat}
    {e : Envelope Nat} (he : (tag, e) ∈ waiting) : e.command ≠ .opening position := by
  intro hopening
  obtain ⟨rfl, -⟩ := h.opening_of_mem (List.mem_append_right _ he) hopening
  obtain ⟨⟨tag, f⟩, hf, rfl⟩ := List.mem_map.mp hopened
  obtain ⟨rfl, -⟩ := h.opening_of_mem (List.mem_append_left _ hf) rfl
  have hparts := h.parts_eq position
  rw [List.append_assoc] at hparts
  exact opening_not_mem_rest hparts.symm (mem_part_iff.mpr hf)
    (List.mem_append_left _ (mem_part_iff.mpr he)) position hopening

/-! ## Steps -/

/-- A move that changes one link and its peer, keeps what the link has to say, and keeps it
faithful. -/
theorem replace {q : Nat} {l l' : Link} {p p' : Peer} (h : Account callers w done waiting)
    (hreplaces : Replaces w w' q l l' p p') (hinbox : w'.service.inbox = w.service.inbox)
    (hcore : w'.service.core = w.service.core) (hpending : w'.service.pending = w.service.pending)
    (hcome : l'.toCome q p'.backlog = l.toCome q p.backlog)
    (hfaithful : l.Faithful q p w.service.pending (done.map Prod.snd) →
      l'.Faithful q p' w.service.pending (done.map Prod.snd)) :
    Account callers w' done waiting := by
  constructor
  case links_length => rw [hreplaces.links, List.length_set, h.links_length]
  case peers_length => rw [hreplaces.peers, List.length_set, h.peers_length]
  case capacity_pos => rw [hinbox]; exact h.capacity_pos
  case inbox_eq => rw [hinbox, h.inbox_eq]
  case core_eq => rw [hcore, h.core_eq]
  case parts_eq =>
    intro position
    rw [hreplaces.toCome_eq, ← h.parts_eq position]
    split
    · next hq =>
      subst hq
      rw [hcome, toCome_of_some hreplaces.link hreplaces.peer]
    · rfl
  case faithful =>
    rw [hpending]
    exact hreplaces.everywhere h.faithful (fun _ _ _ hm => hm) hfaithful

theorem replaces_of_links {q : Nat} {l l' : Link} {p : Peer}
    (hl : w.service.links[q]? = some l) (hp : w.peers[q]? = some p)
    (hlinks : w'.service.links = w.service.links.set q l') (hpeers : w'.peers = w.peers) :
    Replaces w w' q l l' p p where
  link := hl
  peer := hp
  links := hlinks
  peers := by
    obtain ⟨hlt, rfl⟩ := List.getElem?_eq_some_iff.mp hp
    rw [hpeers, List.set_getElem_self hlt]

theorem inbound (h : Account callers w done waiting) (hw : w.Unbroken) {q : Nat} {l l' : Link}
    {move : InboundMove} (hl : w.service.links[q]? = some l) (hstep : l.InboundStep move l')
    (hmove : move ≠ .fail) :
    Account callers { w with service := w.service.setLink q l' } done waiting := by
  obtain ⟨p, hp⟩ := h.exists_peer hl
  have hdown := hw l (List.mem_of_getElem? hl)
  refine h.replace (replaces_of_links hl hp rfl rfl) rfl rfl rfl ?_ fun hf => ?_
  · exact Link.toCome_inboundStep hstep hmove hdown (h.faithful q l p hl hp).intact.drained
  · exact hf.pass (Link.intact_inboundStep hstep hf.intact)
      (by rw [Link.underway_inboundStep hstep])
      (by rw [Link.unfinished_inboundStep hstep])

theorem outbound (h : Account callers w done waiting) (hw : w.Unbroken) {q : Nat} {l l' : Link}
    {move : OutboundMove} (hl : w.service.links[q]? = some l) (hstep : l.OutboundStep move l')
    (hmove : move ≠ .fail) :
    Account callers { w with service := w.service.setLink q l' } done waiting := by
  obtain ⟨p, hp⟩ := h.exists_peer hl
  have hdown := hw l (List.mem_of_getElem? hl)
  refine h.replace (replaces_of_links hl hp rfl rfl) rfl rfl rfl (Link.toCome_outboundStep hstep)
    fun hf => ?_
  exact hf.pass (Link.intact_outboundStep hstep hmove hf.items_of_shutting hf.intact)
    (by rw [Link.underway_outboundStep hstep hmove hdown hf.items_of_shutting])
    (Link.unfinished_outboundStep hstep hmove hdown hf.items_of_shutting)

theorem peer (h : Account callers w done waiting) {q : Nat} {l l' : Link} {p p' : Peer}
    {move : PeerMove} (hp : w.peers[q]? = some p) (hl : w.service.links[q]? = some l)
    (hstep : p.Step l move p' l') (hmove : move ≠ .vanish) :
    Account callers
      { w with service := w.service.setLink q l', peers := w.peers.set q p' } done waiting := by
  have hreplaces : Replaces w
      { w with service := w.service.setLink q l', peers := w.peers.set q p' } q l l' p p' :=
    ⟨hl, hp, rfl, rfl⟩
  refine h.replace hreplaces rfl rfl rfl (Link.toCome_peerStep hstep hmove) fun hf => ?_
  exact hf.pass (Link.intact_peerStep hstep hmove hf.intact)
    (Link.received_append_underway_peerStep hstep)
    (by rw [Link.unfinished_peerStep hstep])

/-- If nobody can reach a link whose outbound task waits for messages, its replier was registered
and is not any more. -/
theorem retired_of_alone (h : Account callers w done waiting) {l : Link}
    (hl : w.service.links[position]? = some l) (halone : w.service.canReach position = false) :
    Core.Retired (done.map Prod.snd) position ∧ Core.through position w.service.pending = [] := by
  obtain ⟨p, hp⟩ := h.exists_peer hl
  simp only [Service.canReach, hl, Option.any_some, Bool.or_eq_false_iff, Bool.not_eq_false',
    List.any_eq_false, List.contains_eq_mem, decide_eq_false_iff_not, beq_iff_eq] at halone
  obtain ⟨⟨⟨hended, hvalues⟩, hinbox⟩, hpending⟩ := halone
  refine ⟨⟨?_, fun c hc => hvalues ?_⟩, ?_⟩
  · -- the opening was submitted, since nothing is to come, and it does not wait
    obtain ⟨c, hc⟩ : ∃ c, callers[position]? = some c := by
      have hlt := (List.getElem?_eq_some_iff.mp hl).1
      exact ⟨_, List.getElem?_eq_getElem (h.links_length ▸ hlt)⟩
    have hnone : l.toCome position p.backlog = [] := by
      cases hat : l.inbound with
      | ended => simp only [Link.toCome, Link.commandsToCome, hat, List.map_nil]
      | _ => rw [hat] at hended; cases hended
    have hparts := h.parts_eq position
    rw [toCome_of_some hl hp, hnone, List.append_nil, expected_of_some hc] at hparts
    have hopening : (⟨c.id, .opening position⟩ : Envelope Nat)
        ∈ part position done ++ part position waiting := by
      rw [hparts]
      exact List.mem_cons_self
    refine ⟨c.id, ?_⟩
    rcases List.mem_append.mp hopening with hdone | hwaiting
    · exact List.mem_map.mpr ⟨_, mem_part_iff.mp hdone, rfl⟩
    · have hmem : (⟨c.id, .opening position⟩ : Envelope Nat) ∈ w.service.inbox.items := by
        rw [h.inbox_eq]
        exact List.mem_map.mpr ⟨_, mem_part_iff.mp hwaiting, rfl⟩
      exact absurd (beq_self_eq_true position) (hinbox _ hmem)
  · rw [h.core_eq]
    exact Core.mem_values_repliers_iff.mpr ⟨c, hc⟩
  · rw [List.eq_nil_iff_forall_not_mem]
    intro message hmessage
    obtain ⟨d, hd, hreplier, -⟩ := Core.mem_through_iff.mp hmessage
    exact hpending d hd hreplier

theorem desert (h : Account callers w done waiting) {q : Nat} {l l' : Link}
    (hl : w.service.links[q]? = some l) (halone : w.service.canReach q = false)
    (hdesert : l.desert? = some l') :
    Account callers { w with service := w.service.setLink q l' } done waiting := by
  obtain ⟨p, hp⟩ := h.exists_peer hl
  obtain ⟨hretired, hpending⟩ := h.retired_of_alone hl halone
  exact h.replace (replaces_of_links hl hp rfl rfl) rfl rfl rfl (Link.toCome_desert hdesert)
    fun hf => hf.desert hdesert hpending hretired

/-- The inbox passes on what a link submits in the order of submission. -/
theorem submit (h : Account callers w done waiting) {q : Nat} {l l' : Link} {e : Envelope Nat}
    (hl : w.service.links[q]? = some l) (hsubmission : l.submission? q = some (e, l')) :
    Account callers
      { w with service := { w.service.setLink q l' with
          inbox := { w.service.inbox with items := w.service.inbox.items ++ [e] } } }
      done (waiting ++ [(q, e)]) := by
  obtain ⟨p, hp⟩ := h.exists_peer hl
  have hreplaces : Replaces w { w with service := { w.service.setLink q l' with
      inbox := { w.service.inbox with items := w.service.inbox.items ++ [e] } } } q l l' p p :=
    replaces_of_links hl hp rfl rfl
  constructor
  case links_length => rw [← h.links_length]; exact List.length_set
  case peers_length => exact h.peers_length
  case capacity_pos => exact h.capacity_pos
  case inbox_eq => rw [List.map_append, ← h.inbox_eq]; rfl
  case core_eq => exact h.core_eq
  case parts_eq =>
    intro position
    rw [← h.parts_eq position, part_append, part_cons, part_nil]
    rw [hreplaces.toCome_eq position]
    by_cases hq : q = position
    · subst hq
      rw [if_pos rfl, if_pos rfl, toCome_of_some hl hp, Link.toCome_submission hsubmission]
      simp only [List.append_assoc, List.singleton_append]
    · rw [if_neg hq, if_neg hq, List.append_nil]
  case faithful =>
    refine hreplaces.everywhere h.faithful (fun _ _ _ hm => hm) fun hf => ?_
    exact hf.pass (Link.intact_submission hsubmission hf.intact)
      (by rw [Link.underway_submission hsubmission])
      (by rw [Link.unfinished_submission hsubmission])

/-- The core handles the envelope that has waited longest. -/
theorem take (h : Account callers w done waiting) {e : Envelope Nat} {rest : List (Envelope Nat)}
    (hpending : w.service.pending = []) (hitems : w.service.inbox.items = e :: rest) :
    ∃ tag waiting', waiting = (tag, e) :: waiting' ∧
      Account callers
        { w with service := { w.service with
            inbox := { w.service.inbox with items := rest }
            core := (w.service.core.handle e).2
            pending := (w.service.core.handle e).1 } }
        (done ++ [(tag, e)]) waiting' := by
  obtain ⟨tag, waiting', rfl, rfl⟩ : ∃ tag waiting', waiting = (tag, e) :: waiting' ∧
      waiting'.map Prod.snd = rest := by
    have hmap := h.inbox_eq.symm.trans hitems
    obtain ⟨⟨tag, f⟩, waiting', rfl, rfl, hrest⟩ := List.map_eq_cons_iff.mp hmap
    exact ⟨tag, waiting', rfl, hrest⟩
  have hdone : (done ++ [(tag, e)]).map Prod.snd = done.map Prod.snd ++ [e] := List.map_append
  refine ⟨tag, waiting', rfl, ?_⟩
  constructor
  case links_length => exact h.links_length
  case peers_length => exact h.peers_length
  case capacity_pos => exact h.capacity_pos
  case inbox_eq => rfl
  case core_eq => rw [hdone, Core.handleAll_concat, h.core_eq]
  case parts_eq =>
    intro position
    rw [← h.parts_eq position, part_append, part_cons, part_cons, part_nil]
    show _ = part position done ++ _ ++ w.toCome position
    split
    · simp only [List.append_assoc, List.singleton_append]
      rfl
    · rw [List.append_nil]
      rfl
  case faithful =>
    intro position l p hl hp
    rw [hdone, h.core_eq]
    have hf := h.faithful position l p hl hp
    rw [hpending] at hf
    obtain ⟨c, hc⟩ : ∃ c, callers[position]? = some c := by
      have hlt := (List.getElem?_eq_some_iff.mp hl).1
      exact ⟨_, List.getElem?_eq_getElem (h.links_length ▸ hlt)⟩
    have howner : ∀ id : ConnectionId,
        (Core.handleAll (done.map Prod.snd) .empty).2.repliers[id]? = some position → id = c.id := by
      intro id hid
      obtain ⟨-, c', hc', rfl⟩ := h.opened hid
      rw [Option.some.inj (hc.symm.trans hc')]
    refine hf.handle (fun hretired => ?_) howner
    obtain ⟨⟨id, hopened⟩, -⟩ := hretired
    exact h.opening_not_waiting hopened List.mem_cons_self

/-- The core delivers a message, and the queue takes it. -/
theorem deliver (h : Account callers w done waiting) {d : Delivery Nat} {rest : List (Delivery Nat)}
    (hpending : w.service.pending = d :: rest)
    (hdown : ∀ l, w.service.links[d.replier]? = some l → (l.receive d.message).hungUp = false) :
    Account callers
      { w with service := { w.service with
          pending := rest
          links := w.service.links.modify d.replier (·.receive d.message) } } done waiting := by
  constructor
  case links_length => rw [← h.links_length]; exact List.length_modify _ _ _
  case peers_length => exact h.peers_length
  case capacity_pos => exact h.capacity_pos
  case inbox_eq => exact h.inbox_eq
  case core_eq => exact h.core_eq
  case parts_eq =>
    intro position
    rw [← h.parts_eq position]
    congr 1
    simp only [toCome, List.getElem?_modify]
    cases w.service.links[position]? with
    | none => rfl
    | some l =>
        cases w.peers[position]? with
        | none => rfl
        | some p =>
            by_cases hq : d.replier = position
            · simp only [if_pos hq]
              exact Link.toCome_receive d.message
            · simp only [if_neg hq]
              rfl
  case faithful =>
    intro position l p hl hp
    rw [List.getElem?_modify] at hl
    obtain ⟨m, hm, rfl⟩ := Option.map_eq_some_iff.mp hl
    have hf := h.faithful position m p hm hp
    rw [hpending] at hf
    obtain ⟨receiver, replier, message⟩ := d
    by_cases hq : replier = position
    · subst hq
      rw [if_pos rfl]
      exact hf.deliver (hdown m hm)
    · rw [if_neg hq]
      exact hf.deliver_other hq

/-! ## Runs -/

/-- **Every move keeps the account**, if it is no failure and no connection is hung up. -/
theorem step (h : Account callers w done waiting) {move : Move} (hstep : w.Step move w')
    (hcalm : move.isCalm = true) (hw : w.Unbroken) (hw' : w'.Unbroken) :
    ∃ done' waiting', Account callers w' done' waiting' ∧
      done'.map Prod.snd = done.map Prod.snd ++ (w.taken? move).toList := by
  have hkeep : ∀ {v}, Account callers v done waiting → w.taken? move = none →
      ∃ done' waiting', Account callers v done' waiting' ∧
        done'.map Prod.snd = done.map Prod.snd ++ (w.taken? move).toList := by
    intro v hv hnone
    refine ⟨done, waiting, hv, ?_⟩
    rw [hnone]
    exact (List.append_nil _).symm
  cases hstep with
  | take hpending hitems =>
      obtain ⟨tag, waiting', rfl, haccount⟩ := h.take hpending hitems
      refine ⟨_, waiting', haccount, ?_⟩
      simp [taken?, hitems]
  | @deliver d rest hpending =>
      refine hkeep (h.deliver hpending fun l hl => hw' _ (List.mem_of_getElem? (i := d.replier) ?_))
        rfl
      show (w.service.links.modify d.replier (·.receive d.message))[d.replier]? = _
      rw [List.getElem?_modify_eq, hl]
      rfl
  | submit hlink hsubmission => exact ⟨_, _, h.submit hlink hsubmission, by simp [taken?]⟩
  | inbound hlink hstep =>
      refine hkeep (h.inbound hw hlink hstep ?_) rfl
      rintro rfl
      cases hcalm
  | outbound hlink hstep =>
      refine hkeep (h.outbound hw hlink hstep ?_) rfl
      rintro rfl
      cases hcalm
  | desert hlink halone hdesert => exact hkeep (h.desert hlink halone hdesert) rfl
  | peer hpeer hlink hstep =>
      refine hkeep (h.peer hpeer hlink hstep ?_) rfl
      rintro rfl
      cases hcalm

end Account

theorem unbroken_of_step {w w' : Scenario} {move : Move} (h : w.Step move w')
    (hw' : w'.Unbroken) : w.Unbroken := by
  intro l hl
  obtain ⟨q, hq⟩ := List.mem_iff_getElem?.mp hl
  by_contra hup
  rw [Bool.not_eq_false] at hup
  obtain ⟨l', hl', hup'⟩ := hungUp_step h hq hup
  rw [hw' l' (List.mem_of_getElem? hl')] at hup'
  cases hup'

theorem run?_cons {w w' : Scenario} {move : Move} {moves : List Move} :
    w.run? (move :: moves) = some w' ↔ ∃ v, w.step? move = some v ∧ v.run? moves = some w' := by
  rw [run?, List.foldlM_cons]
  exact Option.bind_eq_some_iff

theorem unbroken_of_run {w w' : Scenario} {moves : List Move} (h : w.run? moves = some w')
    (hw' : w'.Unbroken) : w.Unbroken := by
  induction moves generalizing w with
  | nil => cases h; exact hw'
  | cons move moves ih =>
      obtain ⟨v, hstep, hrun⟩ := run?_cons.mp h
      exact unbroken_of_step (.of_eq hstep) (ih hrun)

/-- **Every run keeps the account.** -/
theorem Account.run {w w' : Scenario} {done waiting : List (Nat × Envelope Nat)}
    (h : Account callers w done waiting) {moves : List Move}
    (hcalm : ∀ move ∈ moves, move.isCalm = true) (hrun : w.run? moves = some w')
    (hw' : w'.Unbroken) :
    ∃ done' waiting', Account callers w' done' waiting' ∧
      done'.map Prod.snd = done.map Prod.snd ++ w.handled moves := by
  induction moves generalizing w done waiting with
  | nil =>
      cases hrun
      exact ⟨done, waiting, h, (List.append_nil _).symm⟩
  | cons move moves ih =>
      obtain ⟨v, hstep, hrest⟩ := run?_cons.mp hrun
      have hv := unbroken_of_run hrest hw'
      obtain ⟨middle, later, haccount, hmiddle⟩ := h.step (.of_eq hstep)
        (hcalm move List.mem_cons_self) (unbroken_of_step (.of_eq hstep) hv) hv
      obtain ⟨done', waiting', hfinal, hdone⟩ :=
        ih haccount (fun m hm => hcalm m (List.mem_cons_of_mem _ hm)) hrest
      refine ⟨done', waiting', hfinal, ?_⟩
      rw [hdone, hmiddle, List.append_assoc, handled, hstep]

/-! ## The start -/

theorem Fresh.exists_caller {w : Scenario} (h : Fresh callers w) {l : Link} {p : Peer}
    (hl : w.service.links[position]? = some l) (hp : w.peers[position]? = some p) :
    ∃ c, callers[position]? = some c ∧ c.link? = some l ∧ p = c.peer := by
  have hlt := (List.getElem?_eq_some_iff.mp hl).1
  have hc := List.getElem?_eq_getElem (h.links.length_eq ▸ hlt : position < callers.length)
  refine ⟨_, hc, ?_, ?_⟩
  · obtain ⟨_, rfl⟩ := List.getElem?_eq_some_iff.mp hl
    exact h.links.get _ _
  · rw [h.peers, List.getElem?_map, hc] at hp
    exact (Option.some.inj hp).symm

theorem toCome_of_link {c : Caller} {l : Link} (h : c.link? = some l) :
    l.toCome position c.peer.backlog = c.envelopes position := by
  obtain ⟨replies, -, rfl⟩ := Option.map_eq_some_iff.mp h
  rfl

theorem intact_of_link {c : Caller} {l : Link} (h : c.link? = some l) : l.Intact c.peer := by
  obtain ⟨replies, hreplies, rfl⟩ := Option.map_eq_some_iff.mp h
  constructor
  case there => rfl
  case reads => rfl
  case finishing => rfl
  case drained => exact nofun
  case fromPeer_pos => exact c.buffer_pos
  case toPeer_pos => exact c.buffer_pos
  case fromPeer_kept => rfl
  case toPeer_kept => rfl
  case buffer_pos => exact Nat.zero_lt_succ _
  case window_pos => exact c.window_pos
  case ended => exact nofun
  case roused => exact Link.roused_of_ne nofun nofun

theorem faithful_of_link {c : Caller} {l : Link} (h : c.link? = some l) :
    l.Faithful position c.peer [] [] := by
  have hintact := intact_of_link h
  obtain ⟨replies, hreplies, rfl⟩ := Option.map_eq_some_iff.mp h
  obtain ⟨-, rfl⟩ := Queue.eq_of_make? hreplies
  refine ⟨hintact, ?_, fun hclosed => ?_⟩
  · simp [Link.underway, Link.inHand, Peer.received, Caller.peer, replyBytes, Core.handleAll]
  · simp [Link.unfinished, Link.current] at hclosed

theorem account_of_fresh {w : Scenario} (h : Fresh callers w) : Account callers w [] [] := by
  have hlinks := h.links.length_eq
  have hpeers : w.peers.length = callers.length := by rw [h.peers, List.length_map]
  constructor
  case links_length => exact hlinks.symm
  case peers_length => exact hpeers
  case capacity_pos => exact h.capacity_pos
  case inbox_eq => exact h.inbox_eq
  case core_eq => exact h.core_eq
  case parts_eq =>
    intro position
    rw [part_nil, List.nil_append, List.nil_append]
    cases hl : w.service.links[position]? with
    | none =>
        have hle := List.getElem?_eq_none_iff.mp hl
        rw [toCome, hl, expected, List.getElem?_eq_none (hlinks.trans_le hle)]
    | some l =>
        have hlt := (List.getElem?_eq_some_iff.mp hl).1
        have hp := List.getElem?_eq_getElem (hpeers ▸ hlinks ▸ hlt : position < w.peers.length)
        obtain ⟨c, hc, hlink, heq⟩ := h.exists_caller hl hp
        rw [toCome_of_some hl hp, heq, toCome_of_link hlink, expected_of_some hc]
  case faithful =>
    intro position l p hl hp
    obtain ⟨c, -, hlink, rfl⟩ := h.exists_caller hl hp
    rw [h.pending_eq]
    exact faithful_of_link hlink

end Scenario

end LockService
