import LockService.Connection.Script
import LockService.Proofs.Connection.Linearization
import LockService.Proofs.Connection.Reachable

/-!
# What is scheduled is a run

A schedule gives turns, lets peers move and keeps an agenda.  Whatever it does to a scenario it does
by moves, so what holds of every run holds of everything that is scheduled.

* `Scenario.LeadsTo` — moves lead from one scenario to another.  They are no failures unless some
  peer has vanished: a scheduled task fails to write only where nobody is left to read.
* `Course.LeadsTo` — the same of courses, whose agendas call nobody twice.  There is one lemma for
  each part of the schedule, from a single call to settling.
* **`Scenario.exists_run_settle`** — settling a scenario is a run.
* **`Scenario.exists_calm_run_of_spawn`** — settling a service that has just started with callers is
  a run without a failure, which is what linearizability asks for.
* **`Script.Follows.reaches`**, **`Server.Serves.reaches`** — whatever a script or the program does
  leads to reachable states.
-/

namespace LockService

/-! ## Nobody fails without a reason -/

namespace Link

variable {l l' : Link}

/-- An inbound task does not fail to read. -/
theorem inboundMove?_ne_fail (l : Link) : l.inboundMove? ≠ some .fail := by
  unfold inboundMove?
  split
  · simp
  · cases l.inbound with
    | parked woken => cases woken <;> simp
    | reading =>
        dsimp only
        split
        · simp
        · split
          · simp
          · split <;> simp
    | _ => simp

theorem spillMove_ne_fail (hkept : l.toPeer.abandoned = false) (bytes : List UInt8) :
    l.spillMove bytes ≠ .fail := by
  simp [spillMove, hkept]

/-- An outbound task does not fail to write as long as the peer is there. -/
theorem nextOutbound_ne_fail (hkept : l.toPeer.abandoned = false) : l.nextOutbound ≠ .fail := by
  have hspill := spillMove_ne_fail hkept
  unfold nextOutbound
  cases l.outbound with
  | writing left =>
      dsimp only
      split
      · simp
      · split
        · exact hspill _
        · simp
  | taking | took | wrote => simp
  | clearing | flushing | shutting | ended =>
      dsimp only
      split
      · simp
      · exact hspill _

theorem abandoned_inboundStep {move : InboundMove} (h : l.InboundStep move l') :
    l'.toPeer.abandoned = l.toPeer.abandoned := by
  cases h <;> rfl

theorem abandoned_outboundStep {move : OutboundMove} (h : l.OutboundStep move l') :
    l'.toPeer.abandoned = l.toPeer.abandoned := by
  cases h with
  | giveUp => rfl
  | rouse => rfl
  | awake _ hstep =>
      cases hstep with
      | notify =>
          obtain ⟨inbound, permit, hnotify⟩ := l.notify_eq
          rw [hnotify]
      | fail hfail => rcases failWrite_cases hfail with rfl | ⟨-, rfl⟩ <;> rfl
      | _ => rfl

theorem abandoned_peerStep {p p' : Peer} {move : PeerMove} (h : p.Step l move p' l')
    (hmove : move ≠ .vanish) : l'.toPeer.abandoned = l.toPeer.abandoned := by
  cases h with
  | vanish => exact absurd rfl hmove
  | _ => rfl

theorem abandoned_receive (l : Link) (message : Outbound) :
    (l.receive message).toPeer.abandoned = l.toPeer.abandoned := by
  rcases l.receive_cases message with ⟨-, heq⟩ | ⟨-, heq⟩ | heq <;> rw [heq]

end Link

/-- A peer does not vanish without being told to. -/
theorem Peer.next?_ne_vanish (p : Peer) (l : Link) : p.next? l ≠ some .vanish := by
  unfold next?
  repeat' split
  all_goals simp

namespace Scenario

variable {w w' w'' : Scenario} {move : Move} {moves later : List Move}

/-- Whether every peer is there: none has closed both directions of its stream at once. -/
def Attended (w : Scenario) : Prop :=
  ∀ l ∈ w.service.links, l.toPeer.abandoned = false

theorem abandoned_setLink {s : Service} (hs : ∀ m ∈ s.links, m.toPeer.abandoned = false)
    {position : Nat} {l l' : Link} (hl : s.links[position]? = some l)
    (heq : l'.toPeer.abandoned = l.toPeer.abandoned) :
    ∀ m ∈ (s.setLink position l').links, m.toPeer.abandoned = false := by
  intro m hm
  rcases List.mem_or_eq_of_mem_set hm with hm | rfl
  · exact hs m hm
  · rw [heq]
    exact hs l (List.mem_of_getElem? hl)

/-- Peers stay as long as nobody fails. -/
theorem Attended.step (hw : w.Attended) (h : w.Step move w') (hcalm : move.isCalm = true) :
    w'.Attended := by
  cases h with
  | take => exact hw
  | @deliver d rest =>
      intro m hm
      obtain ⟨q, hq⟩ := List.mem_iff_getElem?.mp hm
      change (w.service.links.modify d.replier _)[q]? = some m at hq
      rw [List.getElem?_modify] at hq
      obtain ⟨l, hl, rfl⟩ := Option.map_eq_some_iff.mp hq
      have hkept := hw l (List.mem_of_getElem? hl)
      split
      · rw [Link.abandoned_receive, hkept]
      · exact hkept
  | submit hl hsubmission =>
      obtain ⟨inbound, rfl, -⟩ := Link.exists_of_submission hsubmission
      exact abandoned_setLink hw hl rfl
  | inbound hl hstep => exact abandoned_setLink hw hl (Link.abandoned_inboundStep hstep)
  | outbound hl hstep => exact abandoned_setLink hw hl (Link.abandoned_outboundStep hstep)
  | desert hl _ hdesert =>
      obtain ⟨-, -, rfl⟩ := Link.desert?_eq_some_iff.mp hdesert
      exact abandoned_setLink hw hl rfl
  | peer _ hl hstep =>
      refine abandoned_setLink hw hl (Link.abandoned_peerStep hstep ?_)
      rintro rfl
      cases hcalm

theorem Attended.run (hw : w.Attended) (hcalm : ∀ move ∈ moves, move.isCalm = true)
    (hrun : w.run? moves = some w') : w'.Attended := by
  induction moves generalizing w with
  | nil =>
      cases hrun
      exact hw
  | cons move moves ih =>
      obtain ⟨v, hstep, hrest⟩ := run?_cons.mp hrun
      exact ih (hw.step (.of_eq hstep) (hcalm move List.mem_cons_self))
        (fun m hm => hcalm m (List.mem_cons_of_mem _ hm)) hrest

theorem run?_append (hrun : w.run? moves = some w') (hlater : w'.run? later = some w'') :
    w.run? (moves ++ later) = some w'' := by
  rw [run?, List.foldlM_append]
  exact Option.bind_eq_some_iff.mpr ⟨w', hrun, hlater⟩

/-! ## Moves from one scenario to another -/

/-- Whether moves lead from one scenario to another.  As long as all peers are there none of them is
a failure. -/
def LeadsTo (w w' : Scenario) : Prop :=
  ∃ moves, w.run? moves = some w' ∧ (w.Attended → ∀ move ∈ moves, move.isCalm = true)

theorem LeadsTo.refl (w : Scenario) : w.LeadsTo w :=
  ⟨[], rfl, fun _ _ hmem => absurd hmem List.not_mem_nil⟩

theorem LeadsTo.trans (h : w.LeadsTo w') (h' : w'.LeadsTo w'') : w.LeadsTo w'' := by
  obtain ⟨moves, hrun, hcalm⟩ := h
  obtain ⟨later, hlater, hcalm'⟩ := h'
  refine ⟨moves ++ later, run?_append hrun hlater, fun hw move hmem => ?_⟩
  rcases List.mem_append.mp hmem with hmem | hmem
  · exact hcalm hw move hmem
  · exact hcalm' (hw.run (hcalm hw) hrun) move hmem

theorem LeadsTo.of_step (hstep : w.step? move = some w')
    (hcalm : w.Attended → move.isCalm = true) : w.LeadsTo w' := by
  refine ⟨[move], run?_cons.mpr ⟨w', hstep, rfl⟩, fun hw m hmem => ?_⟩
  rw [List.mem_singleton.mp hmem]
  exact hcalm hw

end Scenario

/-! ## The parts of a schedule -/

namespace Course

variable {c d e : Course}

/-- Whether one course comes from another by moves of the scenario, and nobody is called twice in the
one unless somebody was in the other. -/
structure LeadsTo (c d : Course) : Prop where
  scenario : c.scenario.LeadsTo d.scenario
  nodup_ready : c.agenda.ready.Nodup → d.agenda.ready.Nodup

theorem LeadsTo.refl (c : Course) : c.LeadsTo c :=
  ⟨.refl _, id⟩

theorem LeadsTo.trans (h : c.LeadsTo d) (h' : d.LeadsTo e) : c.LeadsTo e :=
  ⟨h.scenario.trans h'.scenario, h'.nodup_ready ∘ h.nodup_ready⟩

/-- Only the agenda changes. -/
theorem leadsTo_arrange (c : Course) {change : Agenda → Agenda}
    (h : c.agenda.ready.Nodup → (change c.agenda).ready.Nodup) : c.LeadsTo (c.arrange change) :=
  ⟨.refl _, h⟩

/-- Only the scenario changes, by a move of the service. -/
theorem leadsTo_of_step (c : Course) {move : Service.Move} {service : Service}
    (hstep : c.service.step? move = some service)
    (hcalm : c.scenario.Attended → (Scenario.Move.service move).isCalm = true) :
    c.LeadsTo { c with scenario := { c.scenario with service } } := by
  have hmove : c.scenario.step? (.service move) = some { c.scenario with service } :=
    Option.map_eq_some_iff.mpr ⟨service, hstep, rfl⟩
  exact ⟨.of_step hmove hcalm, id⟩

/-! ### Calling -/

theorem leadsTo_call (c : Course) (actor : Actor) : c.LeadsTo (c.call actor) := by
  unfold call
  split
  · split
    · exact c.leadsTo_arrange fun h => Agenda.nodup_ready_rouse h actor
    · exact .refl c
  · split
    · exact c.leadsTo_arrange fun h => Agenda.nodup_ready_call h actor
    · exact .refl c

theorem leadsTo_callTasks (c : Course) (position : Nat) : c.LeadsTo (c.callTasks position) :=
  (c.leadsTo_call _).trans (leadsTo_call _ _)

theorem leadsTo_foldl_call (c : Course) (actors : List Actor) :
    c.LeadsTo (actors.foldl call c) := by
  induction actors generalizing c with
  | nil => exact .refl c
  | cons actor actors ih => exact (c.leadsTo_call actor).trans (ih _)

theorem leadsTo_promise (c : Course) : c.LeadsTo c.promise := by
  unfold promise
  split
  · exact .refl c
  · exact (c.leadsTo_arrange fun h => by rwa [Agenda.ready_promise]).trans (leadsTo_call _ _)

/-! ### Turns of the core -/

theorem leadsTo_deliverAll (count : Nat) (c : Course) : c.LeadsTo (deliverAll count c) := by
  induction count generalizing c with
  | zero => exact .refl c
  | succ count ih =>
      unfold deliverAll
      split
      · next delivery _ service _ hdeliver =>
        have hstep : c.service.step? .deliver = some service := hdeliver
        exact (c.leadsTo_of_step hstep fun _ => rfl).trans
          ((leadsTo_callTasks _ _).trans (ih _))
      · exact .refl c

theorem leadsTo_handleNext? (h : c.handleNext? = some d) : c.LeadsTo d := by
  unfold handleNext? at h
  split at h
  · next envelope _ service _ htake =>
    cases h
    have hstep : c.service.step? .take = some service := htake
    refine LeadsTo.trans (c.leadsTo_of_step hstep fun _ => rfl) ?_
    refine LeadsTo.trans (leadsTo_promise _) ?_
    refine LeadsTo.trans (leadsTo_deliverAll service.pending.length _) ?_
    cases c.service.core.repliers[envelope.sender]? with
    | none => exact .refl _
    | some position => exact leadsTo_call _ _
  · cases h

theorem leadsTo_coreTurn (count : Nat) (c : Course) : c.LeadsTo (coreTurn count c) := by
  induction count generalizing c with
  | zero => exact c.leadsTo_arrange fun h => by rwa [Agenda.ready_rest]
  | succ count ih =>
      unfold coreTurn
      split
      · exact .refl c
      · next hnext => exact (leadsTo_handleNext? hnext).trans (ih _)

/-! ### Turns of the tasks -/

theorem ready_agendaAfter (c : Course) (move : Service.Move) :
    (c.agendaAfter move).ready = c.agenda.ready := by
  cases move <;> simp [agendaAfter]

theorem leadsTo_move? {move : Service.Move} (h : c.move? move = some d)
    (hcalm : c.scenario.Attended → (Scenario.Move.service move).isCalm = true) : c.LeadsTo d := by
  obtain ⟨service, hstep, rfl⟩ := Option.map_eq_some_iff.mp h
  have hmoved : c.LeadsTo ⟨{ c.scenario with service }, c.agendaAfter move⟩ :=
    ⟨(c.leadsTo_of_step hstep hcalm).scenario, fun h => by rwa [ready_agendaAfter]⟩
  exact hmoved.trans (leadsTo_foldl_call _ move.concerns)

/-- A task goes on without a failure unless its peer has vanished. -/
theorem leadsTo_turn (intent : Course → Nat → Intent)
    (hintent : ∀ (c : Course) allowance move, intent c allowance = .move move →
      c.scenario.Attended → (Scenario.Move.service move).isCalm = true)
    (moves allowance : Nat) (c : Course) : c.LeadsTo (turn intent moves allowance c).2 := by
  induction moves generalizing allowance c with
  | zero => exact .refl c
  | succ moves ih =>
      unfold turn
      split
      · next move hmove =>
        split
        · exact .refl c
        · next d hd => exact (leadsTo_move? hd (hintent c allowance move hmove)).trans (ih _ _)
      · exact .refl c

theorem isCalm_of_inboundIntent {position allowance : Nat} {move : Service.Move}
    (h : c.inboundIntent position allowance = .move move) :
    (Scenario.Move.service move).isCalm = true := by
  unfold inboundIntent at h
  split at h
  · cases h
  · next l _ =>
    split at h
    · cases h
    · split at h
      · next inbound hinbound =>
        cases h
        cases inbound with
        | fail => exact absurd hinbound l.inboundMove?_ne_fail
        | _ => rfl
      · split at h
        · cases h
        · split at h <;> cases h
          rfl

theorem isCalm_of_outboundIntent {position allowance : Nat} {move : Service.Move}
    (h : c.outboundIntent position allowance = .move move) (hc : c.scenario.Attended) :
    (Scenario.Move.service move).isCalm = true := by
  unfold outboundIntent at h
  split at h
  · cases h
  · next l hl =>
    have hfail := Link.nextOutbound_ne_fail (hc l (List.mem_of_getElem? hl))
    split at h
    · cases h
    · split at h
      · cases h
        rfl
      · split at h
        · cases h
        · split at h
          · cases h
            cases hnext : l.nextOutbound with
            | fail => exact absurd hnext hfail
            | _ => rfl
          · split at h <;> cases h
            rfl

theorem leadsTo_inboundTurn (c : Course) (position : Nat) : c.LeadsTo (c.inboundTurn position) := by
  have hturn := leadsTo_turn (fun c => c.inboundIntent position)
    (fun _ _ _ h _ => isCalm_of_inboundIntent h) movesPerTurn turnLimit c
  unfold inboundTurn
  split
  · next heq =>
    rw [heq] at hturn
    exact hturn.trans (leadsTo_arrange _ fun h => by rwa [Agenda.ready_rest])
  · next heq =>
    rw [heq] at hturn
    exact hturn.trans (leadsTo_arrange _ fun h => by rwa [Agenda.ready_queue])
  · next heq =>
    rw [heq] at hturn
    exact hturn

theorem leadsTo_outboundTurn (c : Course) (position : Nat) :
    c.LeadsTo (c.outboundTurn position) := by
  have hturn := leadsTo_turn (fun c => c.outboundIntent position)
    (fun _ _ _ h => isCalm_of_outboundIntent h) movesPerTurn turnLimit c
  unfold outboundTurn
  generalize turn (fun c => c.outboundIntent position) movesPerTurn turnLimit c = result at hturn
  obtain ⟨ending, d⟩ := result
  -- the turn is over, and the task waits unless it is gone
  have hsuspend : d.LeadsTo ((d.move? (.outbound position .suspend)).getD d) := by
    cases hmove : d.move? (.outbound position .suspend) with
    | none => exact .refl d
    | some _ => exact leadsTo_move? hmove fun _ => rfl
  dsimp only at hturn ⊢
  split
  · exact (hturn.trans hsuspend).trans (leadsTo_arrange _ fun h => by rwa [Agenda.ready_rest])
  · exact hturn.trans hsuspend

/-! ### Rounds -/

theorem leadsTo_takeTurn (c : Course) (actor : Actor) : c.LeadsTo (c.takeTurn actor) := by
  cases actor with
  | core => exact leadsTo_coreTurn _ _
  | inbound position => exact leadsTo_inboundTurn _ _
  | outbound position => exact leadsTo_outboundTurn _ _

theorem leadsTo_takeTurns (count : Nat) (c : Course) : c.LeadsTo (takeTurns count c) := by
  induction count generalizing c with
  | zero => exact .refl c
  | succ count ih =>
      unfold takeTurns
      split
      · exact .refl c
      · next actor agenda hnext =>
        have hcalled : c.LeadsTo { c with agenda } :=
          ⟨.refl _, fun h => Agenda.nodup_ready_next? h hnext⟩
        exact hcalled.trans ((leadsTo_takeTurn _ actor).trans (ih _))

theorem leadsTo_movePeer? {position : Nat} {move : PeerMove} (h : c.movePeer? position move = some d)
    (hmove : move ≠ .vanish) : c.LeadsTo d := by
  obtain ⟨scenario, hstep, rfl⟩ := Option.map_eq_some_iff.mp h
  have hcalm : (Scenario.Move.peer position move).isCalm = true := by
    cases move <;> first | rfl | exact absurd rfl hmove
  have hpeer : c.scenario.step? (.peer position move) = some scenario := hstep
  have hmoved : c.LeadsTo { c with scenario } := ⟨.of_step hpeer fun _ => hcalm, id⟩
  exact hmoved.trans (leadsTo_callTasks _ _)

theorem leadsTo_peerTurn (moves position : Nat) (c : Course) :
    c.LeadsTo (peerTurn moves position c) := by
  induction moves generalizing c with
  | zero => exact .refl c
  | succ moves ih =>
      unfold peerTurn
      split
      · exact .refl c
      · next move hnext =>
        refine LeadsTo.trans ?_ (ih _)
        cases hmove : c.movePeer? position move with
        | none => exact .refl c
        | some d =>
            refine leadsTo_movePeer? hmove ?_
            rintro rfl
            unfold Scenario.nextPeer? at hnext
            split at hnext
            · exact Peer.next?_ne_vanish _ _ hnext
            · cases hnext

theorem leadsTo_peerTurns (c : Course) : c.LeadsTo c.peerTurns := by
  unfold peerTurns
  generalize c.service.positions = positions
  induction positions generalizing c with
  | nil => exact .refl c
  | cons position positions ih => exact (leadsTo_peerTurn 4 position c).trans (ih _)

theorem leadsTo_round (c : Course) : c.LeadsTo c.round :=
  (leadsTo_peerTurns c).trans ((leadsTo_takeTurns _ _).trans
    (leadsTo_arrange _ Agenda.nodup_ready_refresh))

theorem leadsTo_settleWithin (rounds : Nat) (c : Course) : c.LeadsTo (settleWithin rounds c) := by
  induction rounds generalizing c with
  | zero => exact .refl c
  | succ rounds ih =>
      unfold settleWithin
      split
      · exact .refl c
      · exact (leadsTo_round c).trans (ih _)

theorem leadsTo_settle (c : Course) : c.LeadsTo c.settle :=
  leadsTo_settleWithin roundLimit c

/-! ### Nobody is called twice -/

theorem nodup_positions (s : Service) : s.positions.Nodup := by
  have hperm := (s.links.zipIdx.mergeSort_perm fun a b => a.1.id.val ≤ b.1.id.val).map (·.2)
  refine hperm.nodup_iff.mpr ?_
  rw [List.zipIdx_map_snd]
  exact List.nodup_range'

theorem nodup_ready_ofScenario (w : Scenario) : (ofScenario w).agenda.ready.Nodup := by
  refine List.nodup_cons.mpr ⟨by simp, List.nodup_flatMap.mpr ⟨fun _ _ => by simp, ?_⟩⟩
  refine (nodup_positions w.service).imp fun {p q} hne => ?_
  simp [Function.onFun, Ne.symm hne]

/-- **Nobody is ever called twice**, from the start of a schedule to its end. -/
theorem nodup_ready_settle (w : Scenario) : (ofScenario w).settle.agenda.ready.Nodup :=
  (leadsTo_settle _).nodup_ready (nodup_ready_ofScenario w)

end Course

/-! ## Everything scheduled is a run -/

namespace Scenario

variable {w w' : Scenario} {history : List (Envelope Nat)}

/-- **Settling is a run**, and one without a failure as long as all peers are there. -/
theorem exists_run_settle (w : Scenario) :
    ∃ moves, w.run? moves = some w.settle ∧ (w.Attended → ∀ move ∈ moves, move.isCalm = true) :=
  (Course.ofScenario w).leadsTo_settle.scenario

theorem Fresh.attended {callers : List Caller} (h : Fresh callers w) : w.Attended := by
  intro l hl
  obtain ⟨q, hq, rfl⟩ := List.mem_iff_getElem.mp hl
  have hlink := (List.forall₂_iff_get.mp h.links).2 q (h.links.length_eq ▸ hq) hq
  obtain ⟨replies, -, heq⟩ := Option.map_eq_some_iff.mp hlink
  show (w.service.links.get ⟨q, hq⟩).toPeer.abandoned = false
  rw [← heq]

/-- **Callers that are connected to a service that has just started settle in a run without a
failure.** -/
theorem exists_calm_run_of_spawn {inboundCapacity : Nat} {callers : List Caller} {start : Scenario}
    (hspawn : spawn? inboundCapacity callers = some start) :
    ∃ moves, start.run? moves = some start.settle ∧ ∀ move ∈ moves, move.isCalm = true := by
  obtain ⟨moves, hrun, hcalm⟩ := start.exists_run_settle
  exact ⟨moves, hrun, hcalm (fresh_of_spawn hspawn).attended⟩

theorem Reaches.leadsTo {start : Scenario} (h : start.Reaches history w) (hleads : w.LeadsTo w') :
    ∃ more, start.Reaches (history ++ more) w' := by
  obtain ⟨moves, hrun, -⟩ := hleads
  exact ⟨w.handled moves, h.run hrun⟩

/-- The world outside may do the same to all peers at once. -/
theorem Reaches.mapPeers {start : Scenario} (h : start.Reaches history w) (change : Peer → Peer) :
    start.Reaches history { w with peers := w.peers.map change } := by
  have hrest : ∀ (rest done : List Peer), start.Reaches history { w with peers := done ++ rest } →
      start.Reaches history { w with peers := done ++ rest.map change } := by
    intro rest
    induction rest with
    | nil => exact fun _ h => h
    | cons p rest ih =>
        intro done h
        have hnext := h.outside done.length change
        have hmodify : (done ++ p :: rest).modify done.length change
            = (done ++ [change p]) ++ rest := by
          rw [List.modify_eq_take_cons_drop (by simp)]
          simp
        rw [modifyPeer, hmodify] at hnext
        simpa using ih _ hnext
  exact hrest w.peers [] h

end Scenario

/-! ## Scripts -/

namespace Script

/-- The scripts that one becomes step by step.  A connection gets the number that a server would give
it. -/
inductive Follows (start : Script) : Script → Prop
  | start : Follows start start
  | step {s s' : Script} {step : ScriptStep} {report : ScriptReport} (h : Follows start s)
      (hnumber : ∀ id limits buffer, step = .connect id limits buffer →
        id = .ofPosition s.scenario.nextPosition)
      (hstep : s.step? step = some (report, s')) : Follows start s'

section

variable {start : Scenario} {s s' : Script} {history : List (Envelope Nat)}

theorem reaches_modifyPeer (h : start.Reaches history s.scenario) (id : ConnectionId)
    (change : Peer → Peer) : start.Reaches history (s.modifyPeer id change).scenario := by
  unfold modifyPeer
  split
  · exact h
  · exact h.outside _ change

theorem reaches_drop (h : start.Reaches history s.scenario) (id : ConnectionId) :
    ∃ more, start.Reaches (history ++ more) (s.drop id).scenario := by
  unfold drop
  split
  · exact ⟨[], by rwa [List.append_nil]⟩
  · next socket _ =>
    cases hmove : s.course.movePeer? socket.position .vanish with
    | none => exact ⟨[], by rwa [List.append_nil]⟩
    | some d =>
        obtain ⟨w, hstep, rfl⟩ := Option.map_eq_some_iff.mp hmove
        have hvanish : s.scenario.step? (.peer socket.position .vanish) = some w := hstep
        have hmoved := h.move hvanish
        have hcalled := Course.leadsTo_callTasks { s.course with scenario := w } socket.position
        obtain ⟨more, hmore⟩ := hmoved.leadsTo hcalled.scenario
        rw [List.append_assoc] at hmore
        exact ⟨_, hmore⟩

theorem reaches_act? {step : ScriptStep} (h : start.Reaches history s.scenario)
    (hnumber : ∀ id limits buffer, step = .connect id limits buffer →
      id = .ofPosition s.scenario.nextPosition) (hact : s.act? step = some s') :
    ∃ more, start.Reaches (history ++ more) s'.scenario := by
  have hsame {v : Script} (hv : start.Reaches history v.scenario) :
      ∃ more, start.Reaches (history ++ more) v.scenario := ⟨[], by rwa [List.append_nil]⟩
  cases step with
  | connect id limits buffer =>
      obtain ⟨link, hlink, rfl⟩ := Option.map_eq_some_iff.mp hact
      rw [hnumber id limits buffer rfl] at hlink
      have hconnected : start.Reaches history
          ({ s with course := s.course.connect link } : Script).scenario := h.connect hlink
      exact reaches_drop hconnected id
  | drop id => cases hact; exact reaches_drop h id
  | pause => cases hact; exact hsame h
  | send id bytes => cases hact; exact hsame (reaches_modifyPeer h id _)
  | finish id => cases hact; exact hsame (reaches_modifyPeer h id _)
  | stall id => cases hact; exact hsame (reaches_modifyPeer h id _)
  | resume id => cases hact; exact hsame (reaches_modifyPeer h id _)

end

/-- **Scripts stay within what can be reached.**  Whatever a script does, between steps its service and
peers are in a state that some run leads to, with connections and changes of the peers in between. -/
theorem Follows.reaches {start s : Script} (h : start.Follows s) :
    ∃ history, start.scenario.Reaches history s.scenario := by
  induction h with
  | start => exact ⟨[], .start⟩
  | step _ hnumber hstep ih =>
      obtain ⟨history, hreaches⟩ := ih
      obtain ⟨acted, hact, heq⟩ := Option.map_eq_some_iff.mp hstep
      cases heq
      obtain ⟨more, hacted⟩ := reaches_act? hreaches hnumber hact
      obtain ⟨later, hsettled⟩ := hacted.leadsTo acted.course.leadsTo_settle.scenario
      exact ⟨_, hsettled.mapPeers _⟩

end Script

/-! ## Servers -/

namespace Server

/-- The states that the program brings a server into.  It accepts connections, hands over what has come
in and what else is known of a connection, and takes what is to be sent out; after each of these but the
last everybody moves. -/
inductive Serves (start : Server) : Server → Prop
  | start : Serves start start
  | accept {s s' : Server} {buffer : Nat} (h : Serves start s)
      (haccept : s.accept? buffer = some s') : Serves start s'.settle
  | arrive {s : Server} (h : Serves start s) (position : Nat) (bytes : List UInt8) :
      Serves start (s.arrive position bytes).settle
  | arriveEnd {s : Server} (h : Serves start s) (position : Nat) :
      Serves start (s.arriveEnd position).settle
  | lose {s : Server} (h : Serves start s) (position : Nat) : Serves start (s.lose position).settle
  | sentOut {s : Server} (h : Serves start s) (position : Nat) :
      Serves start (s.sentOut position).settle
  | collect {s s' : Server} {position : Nat} {bytes : List UInt8} (h : Serves start s)
      (hcollect : s.collect? position = some (bytes, s')) : Serves start s'

section

variable {start s : Server} {history : List (Envelope Nat)}

/-- What runs inside a server is a run of the server. -/
theorem run?_map_inside {moves : List Scenario.Move} {w : Scenario}
    (hrun : s.scenario.run? moves = some w) :
    s.run? (moves.map .inside) = some { s with scenario := w } := by
  induction moves generalizing s with
  | nil =>
      cases hrun
      rfl
  | cons move moves ih =>
      obtain ⟨v, hstep, hrest⟩ := Scenario.run?_cons.mp hrun
      have hinside : s.step? (.inside move) = some { s with scenario := v } :=
        Option.map_eq_some_iff.mpr ⟨v, hstep, rfl⟩
      rw [List.map_cons, run?, List.foldlM_cons, hinside]
      exact ih hrest

theorem Reaches.leadsTo {w : Scenario} (h : start.Reaches history s)
    (hleads : s.scenario.LeadsTo w) :
    ∃ more, start.Reaches (history ++ more) { s with scenario := w } := by
  obtain ⟨moves, hrun, -⟩ := hleads
  exact ⟨s.handled (moves.map .inside), h.run (run?_map_inside hrun)⟩

theorem Reaches.settle (h : start.Reaches history s) : ∃ more, start.Reaches more s.settle := by
  obtain ⟨more, hmore⟩ := h.leadsTo s.scenario.exists_run_settle
  exact ⟨_, hmore⟩

theorem Reaches.lose (h : start.Reaches history s) (position : Nat) :
    ∃ more, start.Reaches more (s.lose position) := by
  unfold Server.lose
  cases hstep : s.scenario.stepPeer? position .vanish with
  | none => exact ⟨history, h⟩
  | some w =>
      have hvanish : s.scenario.step? (.peer position .vanish) = some w := hstep
      exact ⟨_, h.inside hvanish⟩

end

/-- **Whatever the program does with a server leads to a reachable state**, so what holds of every server
that can be reached holds of the one at work. -/
theorem Serves.reaches {start s : Server} (h : start.Serves s) :
    ∃ history, start.Reaches history s := by
  induction h with
  | start => exact ⟨[], .start⟩
  | accept _ haccept ih =>
      obtain ⟨history, hreaches⟩ := ih
      exact (hreaches.accept haccept).settle
  | arrive _ position bytes ih =>
      obtain ⟨history, hreaches⟩ := ih
      exact (hreaches.outside position _).settle
  | arriveEnd _ position ih =>
      obtain ⟨history, hreaches⟩ := ih
      exact (hreaches.outside position _).settle
  | lose _ position ih =>
      obtain ⟨history, hreaches⟩ := ih
      obtain ⟨more, hlost⟩ := hreaches.lose position
      exact hlost.settle
  | sentOut _ position ih =>
      obtain ⟨history, hreaches⟩ := ih
      exact (hreaches.outside position _).settle
  | collect _ hcollect ih =>
      obtain ⟨history, hreaches⟩ := ih
      unfold collect? at hcollect
      split at hcollect
      · cases hcollect
      · split at hcollect
        · split at hcollect <;> cases hcollect
          exact ⟨history, hreaches⟩
        · cases hcollect
          exact ⟨history, hreaches.outside _ _⟩

end Server

end LockService
