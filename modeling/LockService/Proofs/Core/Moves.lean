import LockService.Core.Handles
import LockService.Core.Producer

/-!
# Moves of a core and of those who have handles on it

What a move can do, as relations with one constructor for each way in which it can turn out, and how runs
are put together out of moves.

* `CoreTask.Worked` — what the core does next.
* `SharedCore.Offered` — what comes of a call that is made, or made again.
* `SharedCore.Step` — what any move does.
* `SharedCore.run?_cons`, `SharedCore.run?_append` — runs, move by move and one after the other.
* `Producer.exists_moves_yield`, `Producer.exists_moves_submit` — a producer that takes turns with the
  core makes such a run, on one handle.
-/

namespace LockService

/-! ## Moves as relations -/

/-- What a core does next. -/
inductive CoreTask.Worked {ρ : Type} (task : CoreTask ρ) : List (Delivery ρ) → CoreTask ρ → Prop
  | cancel (hrunning : task.ending = none) (hstopping : task.stopping = true) :
    Worked task [] { task with ending := some .cancelled, inbox := task.inbox.clear }
  | handle {envelope : Envelope ρ} {inbox : Queue (Envelope ρ)} (hrunning : task.ending = none)
    (hpop : task.inbox.pop? = some (envelope, inbox)) :
    Worked task (task.core.handle envelope).1
      { task with core := (task.core.handle envelope).2, inbox }
  | finish (hrunning : task.ending = none) (hempty : task.inbox.items = [])
    (hnobody : task.handles = 0) : Worked task [] { task with ending := some .finished }

theorem CoreTask.Worked.of_eq {ρ : Type} {task next : CoreTask ρ} {sent : List (Delivery ρ)}
    (h : task.step? = some (sent, next)) : task.Worked sent next := by
  unfold CoreTask.step? at h
  split at h
  · cases h
  · next hended =>
    have hrunning : task.ending = none := by simpa using hended
    split at h
    · next hstopping =>
      cases h
      exact .cancel hrunning hstopping
    · split at h
      · next hpop =>
        cases h
        exact .handle hrunning hpop
      · next hpop =>
        split at h
        · next hnobody =>
          cases h
          exact .finish hrunning (Queue.pop?_eq_none_iff.mp hpop) hnobody
        · cases h

/-- A core that nobody has stopped and that nobody can reach does something until it has ended. -/
theorem CoreTask.isSome_ending_of_step? {ρ : Type} {task : CoreTask ρ} (h : task.step? = none)
    (hnobody : task.handles = 0) : task.ending.isSome = true := by
  unfold CoreTask.step? at h
  split at h
  · assumption
  · split at h
    · cases h
    · split at h
      · cases h
      · cases h

namespace SharedCore

variable {ρ : Type}

/-- What comes of putting an envelope into the inbox for the holder of a handle. -/
inductive Offered (s : SharedCore ρ) (position : Nat) (envelope : Envelope ρ) :
    List (Event ρ) → SharedCore ρ → Prop
  | accepted {inbox : Queue (Envelope ρ)} (hrunning : s.task.ending = none)
    (hpush : s.task.inbox.push? envelope = some inbox) :
    Offered s position envelope [.ended position envelope .accepted]
      { s.setHandle position {} with task := { s.task with inbox } }
  | stopped (hended : s.task.ending.isSome = true) :
    Offered s position envelope [.ended position envelope .stopped] (s.setHandle position {})
  | full (hrunning : s.task.ending = none) :
    Offered s position envelope [] (s.setHandle position { waiting := some envelope })

theorem offered (s : SharedCore ρ) (position : Nat) (envelope : Envelope ρ) :
    s.Offered position envelope (s.offer position envelope).1 (s.offer position envelope).2 := by
  unfold offer CoreTask.enqueue
  by_cases hended : s.task.ending.isSome = true
  · rw [if_pos hended]
    exact .stopped hended
  · have hrunning : s.task.ending = none := by simpa using hended
    rw [if_neg hended]
    cases hpush : s.task.inbox.push? envelope with
    | none => exact .full hrunning
    | some inbox => exact .accepted hrunning hpush

/-- What a move can do. -/
inductive Step (s : SharedCore ρ) : Move ρ → List (Event ρ) → SharedCore ρ → Prop
  | work {sent : List (Delivery ρ)} {task : CoreTask ρ} (h : s.task.Worked sent task) :
    Step s .work (sent.map .delivered) { s with task }
  | enqueue {position : Nat} {envelope : Envelope ρ} {events : List (Event ρ)} {next : SharedCore ρ}
    (hidle : s.handles[position]? = some {}) (h : s.Offered position envelope events next) :
    Step s (.enqueue position envelope) events next
  | retry {position : Nat} {envelope : Envelope ρ} {events : List (Event ρ)} {next : SharedCore ρ}
    (hwaits : s.handles[position]? = some { waiting := some envelope })
    (h : s.Offered position envelope events next) : Step s (.retry position) events next
  | abandon {position : Nat} {envelope : Envelope ρ}
    (hwaits : s.handles[position]? = some { waiting := some envelope }) :
    Step s (.abandon position) [.ended position envelope .abandoned] (s.setHandle position {})
  | clone {position : Nat} {waiting : Option (Envelope ρ)}
    (hheld : s.handles[position]? = some { waiting }) :
    Step s (.clone position) [] { task := s.task.cloneHandle, handles := s.handles ++ [{}] }
  | drop {position : Nat} {waiting : Option (Envelope ρ)}
    (hheld : s.handles[position]? = some { waiting }) :
    Step s (.drop position) (waiting.toList.map (.ended position · .abandoned))
      { s.setHandle position { held := false } with task := s.task.dropHandle }
  | stop : Step s .stop [] { s with task := s.task.stop }

theorem Step.of_eq {s next : SharedCore ρ} {move : Move ρ} {events : List (Event ρ)}
    (h : s.step? move = some (events, next)) : s.Step move events next := by
  cases move with
  | work =>
      obtain ⟨⟨sent, task⟩, hstep, heq⟩ := Option.map_eq_some_iff.mp h
      cases heq
      exact .work (.of_eq hstep)
  | enqueue position envelope =>
      simp only [step?] at h
      split at h
      · next hidle =>
        have hoffered := s.offered position envelope
        rw [Option.some.inj h] at hoffered
        exact .enqueue hidle hoffered
      · cases h
  | retry position =>
      simp only [step?] at h
      split at h
      · next envelope hwaits =>
        have hoffered := s.offered position envelope
        rw [Option.some.inj h] at hoffered
        exact .retry hwaits hoffered
      · cases h
  | abandon position =>
      simp only [step?] at h
      split at h
      · next hwaits =>
        cases h
        exact .abandon hwaits
      · cases h
  | clone position =>
      simp only [step?] at h
      split at h
      · next hheld =>
        cases h
        exact .clone hheld
      · cases h
  | drop position =>
      simp only [step?] at h
      split at h
      · next hheld =>
        cases h
        exact .drop hheld
      · cases h
  | stop =>
      cases h
      exact .stop

/-! ## What can be seen -/

section

variable (events more : List (Event ρ))

@[simp] theorem delivered_append : delivered (events ++ more) = delivered events ++ delivered more :=
  List.filterMap_append

@[simp] theorem calls_append : calls (events ++ more) = calls events ++ calls more :=
  List.filterMap_append

@[simp] theorem accepted_append : accepted (events ++ more) = accepted events ++ accepted more := by
  simp [accepted]

@[simp] theorem called_append (position : Nat) (moves later : List (Move ρ)) :
    called position (moves ++ later) = called position moves ++ called position later :=
  List.filterMap_append

end

@[simp] theorem delivered_map_delivered (sent : List (Delivery ρ)) :
    delivered (sent.map .delivered) = sent := by
  rw [delivered, List.filterMap_map]
  exact List.filterMap_some

@[simp] theorem calls_map_delivered (sent : List (Delivery ρ)) :
    calls (sent.map .delivered) = [] := by
  simp [calls, List.filterMap_map]

@[simp] theorem accepted_map_delivered (sent : List (Delivery ρ)) :
    accepted (sent.map .delivered) = [] := by
  simp [accepted]

@[simp] theorem callsOn_append (position : Nat) (events more : List (Event ρ)) :
    callsOn position (events ++ more) = callsOn position events ++ callsOn position more := by
  simp [callsOn]

@[simp] theorem callsOn_ended (position other : Nat) (envelope : Envelope ρ) (how : CallEnd) :
    callsOn position [.ended other envelope how]
      = if other = position then [(envelope, how)] else [] := by
  by_cases h : other = position <;> simp [callsOn, calls, h]

theorem waitingOn_setHandle {s : SharedCore ρ} {position : Nat} {handle : Handle ρ}
    (h : s.handles[position]? = some handle) (new : Handle ρ) (other : Nat) :
    (s.setHandle position new).waitingOn other
      = if position = other then new.waiting else s.waitingOn other := by
  obtain ⟨hlt, -⟩ := List.getElem?_eq_some_iff.mp h
  rw [waitingOn, waitingOn, setHandle, List.getElem?_set]
  by_cases hother : position = other
  · subst hother
    simp [hlt]
  · simp [hother]

theorem accepted_filter (events : List (Event ρ)) (position : Nat) :
    ((accepted events).filter (·.1 = position)).map (·.2)
      = ((callsOn position events).filter (·.2 = .accepted)).map (·.1) := by
  simp only [accepted, callsOn, List.filter_map, List.map_map, List.filter_filter]
  congr 1
  refine List.filter_congr fun call _ => ?_
  simp [Bool.and_comm]

/-! ## Runs -/

section

variable {s next last : SharedCore ρ} {move : Move ρ} {moves later : List (Move ρ)}
  {events more : List (Event ρ)}

theorem run?_cons : run? (move :: moves) s = some (events, last)
    ↔ ∃ now next more, s.step? move = some (now, next) ∧ run? moves next = some (more, last) ∧
      events = now ++ more := by
  rw [run?]
  cases hstep : s.step? move with
  | none => simp
  | some result =>
      simp only [Option.map_eq_some_iff, Prod.mk.injEq]
      constructor
      · rintro ⟨⟨more, final⟩, hrun, rfl, rfl⟩
        exact ⟨result.1, result.2, more, rfl, hrun, rfl⟩
      · rintro ⟨now, next, more, hresult, hrun, rfl⟩
        obtain rfl := Option.some.inj hresult
        exact ⟨(more, last), hrun, rfl, rfl⟩

theorem run?_append (hrun : run? moves s = some (events, next))
    (hlater : run? later next = some (more, last)) :
    run? (moves ++ later) s = some (events ++ more, last) := by
  induction moves generalizing s events with
  | nil =>
      cases hrun
      exact hlater
  | cons move moves ih =>
      obtain ⟨now, first, rest, hstep, hrest, rfl⟩ := run?_cons.mp hrun
      exact run?_cons.mpr ⟨now, first, rest ++ more, hstep, ih hrest, List.append_assoc _ _ _⟩

end

end SharedCore

/-! ## Producers -/

section

variable {ρ : Type}

open SharedCore

/-- The steps of a core are moves. -/
theorem CoreTask.exists_moves_runFor (steps : Nat) (task : CoreTask ρ) (handles : List (Handle ρ)) :
    ∃ moves, run? moves { task, handles }
      = some ((task.runFor steps).1.map .delivered, { task := (task.runFor steps).2, handles }) := by
  induction steps generalizing task with
  | zero => exact ⟨[], rfl⟩
  | succ steps ih =>
      rw [CoreTask.runFor]
      cases hstep : task.step? with
      | none => exact ⟨[], rfl⟩
      | some result =>
          obtain ⟨sent, next⟩ := result
          obtain ⟨moves, hrun⟩ := ih next
          refine ⟨.work :: moves, run?_cons.mpr ⟨sent.map .delivered, _, _, ?_, hrun, ?_⟩⟩
          · rw [SharedCore.step?, hstep]
            rfl
          · exact List.map_append

/-- A turn of the core is a run. -/
theorem Producer.exists_moves_yield (p : Producer ρ) : ∃ moves, run? moves { task := p.task }
    = some (p.yield.1.map .delivered, { task := p.yield.2.task }) :=
  p.task.exists_moves_runFor (p.task.inbox.size + 1) [{}]

/-- **A producer that passes on an envelope makes a run**, in which the same messages are delivered, and
the envelope is accepted if the producer is told so. -/
theorem Producer.exists_moves_submit (p : Producer ρ) (envelope : Envelope ρ) :
    ∃ moves events s, run? moves { task := p.task } = some (events, s) ∧
      s.task = (p.submit envelope).2.2.task ∧ delivered events = (p.submit envelope).1 ∧
      accepted events = bif (p.submit envelope).2.1 then [(0, envelope)] else [] := by
  -- first a turn of the core, if there must be one
  obtain ⟨moves, hrun⟩ : ∃ moves, run? moves { task := p.task }
      = some ((if p.mustYield then p.yield else ([], p)).1.map .delivered,
        { task := (if p.mustYield then p.yield else ([], p)).2.task }) := by
    split
    · exact p.exists_moves_yield
    · exact ⟨[], rfl⟩
  rw [Producer.submit]
  generalize (if p.mustYield then p.yield else ([], p)) = turn at hrun
  obtain ⟨sent, p⟩ := turn
  -- and then one call
  have hcall : run? [.enqueue 0 envelope] { task := p.task }
      = some (offer { task := p.task } 0 envelope) := by
    simp [run?, step?]
  have hafter {ended : List (Event ρ)} {s : SharedCore ρ}
      (hoffer : offer { task := p.task } 0 envelope = (ended, s)) :
      run? (moves ++ [.enqueue 0 envelope]) _ = some (sent.map .delivered ++ ended, s) :=
    run?_append hrun (hcall.trans (congrArg some hoffer))
  have hdelivered {ended : List (Event ρ)} (hnone : delivered ended = []) :
      delivered (sent.map .delivered ++ ended) = sent := by
    rw [delivered_append, delivered_map_delivered, hnone, List.append_nil]
  have haccepted (ended : List (Event ρ)) :
      accepted (sent.map .delivered ++ ended) = accepted ended := by
    rw [accepted_append, accepted_map_delivered, List.nil_append]
  dsimp only
  cases henqueue : p.task.enqueue envelope with
  | accepted task =>
      exact ⟨_, _, _, hafter (by rw [offer, henqueue]), rfl, hdelivered rfl, haccepted _⟩
  | stopped =>
      exact ⟨_, _, _, hafter (by rw [offer, henqueue]), rfl, hdelivered rfl, haccepted _⟩
  | full =>
      exact ⟨_, _, _, hafter (by rw [offer, henqueue]), rfl, hdelivered rfl, haccepted _⟩

end

end LockService
