import LockService.Proofs.Core.Moves
import LockService.Proofs.Core.Repliers

/-!
# A core at work handles what it accepts, in order

A core runs beside those who send it envelopes, behind an inbox that may be full, and it may be stopped
between any two envelopes.  None of this shows in what it does: the messages that it has delivered and
the number of envelopes that it has counted are those of `Core.handleAll` on the beginning of what it has
accepted, and unless it was stopped it gets to the end.

* `SharedCore.Account` — what was accepted is what was handled and then what is in the inbox.
* `SharedCore.Tracks` — all that a run keeps: the account, who holds a handle, whether somebody stopped
  the core, and how the calls on each handle ended.  `Tracks.step` keeps it in a move and `Tracks.run` in
  a run.
* `SharedCore.Idles` — a core that has ended does nothing more, and tells so whoever calls.
* **`SharedCore.run_folds`** — what follows (`SharedCore.Folds`) for every run and every number of
  places.
-/

namespace LockService

/-! ## The count of envelopes -/

namespace Core

variable {ρ : Type}

/-- Every envelope counts, whatever is in it. -/
theorem processed_handle (core : Core ρ) (e : Envelope ρ) :
    (core.handle e).2.processed = core.processed + 1 := by
  obtain ⟨sender, command⟩ := e
  cases command with
  | opening replier => rfl
  | closing => rfl
  | malformed => rfl
  | request r =>
      show (core.request sender r).2.processed + 1 = _
      unfold request
      split
      · rfl
      · rw [perform_snd_eq]

theorem processed_handleAll (es : List (Envelope ρ)) :
    (handleAll es .empty).2.processed = .ofNat es.length := by
  induction es using List.reverseRecOn with
  | nil => rfl
  | append_singleton es e ih =>
      rw [handleAll_concat, processed_handle, ih, List.length_append, UInt64.ofNat_add]
      rfl

end Core

namespace SharedCore

variable {ρ : Type}

/-! ## The account -/

/-- What was accepted is what was handled, and then what is in the inbox as long as the core runs.
Whether anything is left over when it has ended depends on how it did. -/
def Account (events : List (Event ρ)) (s : SharedCore ρ) : Prop :=
  ∃ handled rest, accepted events = handled ++ rest ∧
    (delivered events, s.task.core) = Core.handleAll (handled.map (·.2)) .empty ∧
    (s.task.ending = none → s.task.inbox.items = rest.map (·.2)) ∧
    (s.task.ending = some .finished → rest = [])

section

variable {events now : List (Event ρ)} {s next : SharedCore ρ} {move : Move ρ} {position : Nat}
  {envelope : Envelope ρ}

/-- What neither is seen of the core nor changes it keeps the account. -/
theorem Account.aside (h : Account events s) (hdelivered : delivered now = [])
    (haccepted : accepted now = []) (hcore : next.task.core = s.task.core)
    (hinbox : next.task.inbox = s.task.inbox) (hending : next.task.ending = s.task.ending) :
    Account (events ++ now) next := by
  rw [Account, delivered_append, accepted_append, hdelivered, haccepted, hcore, hinbox, hending,
    List.append_nil, List.append_nil]
  exact h

theorem Account.work (h : Account events s) {sent : List (Delivery ρ)} {task : CoreTask ρ}
    (hwork : s.task.Worked sent task) :
    Account (events ++ sent.map .delivered) { s with task } := by
  obtain ⟨handled, rest, haccepted, hfold, hinbox, -⟩ := h
  have haccepted' : accepted (events ++ sent.map .delivered) = handled ++ rest := by
    simpa using haccepted
  cases hwork with
  | cancel hrunning hstopping =>
      exact ⟨handled, rest, haccepted', by simpa using hfold, nofun, nofun⟩
  | handle hrunning hpop =>
      -- the first of those in the inbox is the next one that was accepted
      rw [Queue.items_of_pop? hpop] at hinbox
      cases rest with
      | nil => exact absurd (hinbox hrunning) (List.cons_ne_nil _ _)
      | cons first rest =>
          obtain ⟨rfl, hitems⟩ := List.cons.inj (hinbox hrunning)
          refine ⟨handled ++ [first], rest, by simpa using haccepted', ?_, fun _ => hitems, ?_⟩
          · rw [List.map_append, List.map_singleton, Core.handleAll_concat, ← hfold]
            simp
          · intro hfinished
            exact absurd (hrunning.symm.trans hfinished) nofun
  | finish hrunning hempty hnobody =>
      have hnone : rest = [] := List.map_eq_nil_iff.mp ((hinbox hrunning).symm.trans hempty)
      exact ⟨handled, rest, haccepted', by simpa using hfold, nofun, fun _ => hnone⟩

theorem Account.offer (h : Account events s) (hoffered : s.Offered position envelope now next) :
    Account (events ++ now) next := by
  cases hoffered with
  | stopped hended => exact h.aside rfl rfl rfl rfl rfl
  | full hrunning => exact h.aside rfl rfl rfl rfl rfl
  | accepted hrunning hpush =>
      obtain ⟨handled, rest, haccepted, hfold, hinbox, -⟩ := h
      refine ⟨handled, rest ++ [(position, envelope)], ?_, ?_, fun _ => ?_, fun hfinished => ?_⟩
      · rw [accepted_append, haccepted, List.append_assoc]
        rfl
      · rw [delivered_append]
        show (delivered events ++ [], s.task.core) = _
        rw [List.append_nil, hfold]
      · rw [List.map_append, ← hinbox hrunning]
        exact Queue.items_of_push? hpush
      · exact absurd (hrunning.symm.trans hfinished) nofun

theorem Account.step (h : Account events s) (hstep : s.Step move now next) :
    Account (events ++ now) next := by
  cases hstep with
  | work hwork => exact h.work hwork
  | enqueue hidle hoffered => exact h.offer hoffered
  | retry hwaits hoffered => exact h.offer hoffered
  | abandon hwaits => exact h.aside rfl rfl rfl rfl rfl
  | clone hheld => exact h.aside rfl rfl rfl rfl rfl
  | @drop _ waiting hheld =>
      cases waiting with
      | none => exact h.aside rfl rfl rfl rfl rfl
      | some envelope => exact h.aside rfl rfl rfl rfl rfl
  | stop => exact h.aside rfl rfl rfl rfl rfl

/-! ## Who can reach the core -/

/-- The core counts the handles that are held, and it has not finished while there are any. -/
def Attended (s : SharedCore ρ) : Prop :=
  s.task.handles = s.handles.countP (·.held) ∧ (s.task.ending = some .finished → s.task.handles = 0)

theorem countP_setHandle {handle : Handle ρ} (h : s.handles[position]? = some handle)
    (hheld : handle.held = true) (new : Handle ρ) :
    (s.setHandle position new).handles.countP (·.held)
      = s.handles.countP (·.held) - 1 + if new.held then 1 else 0 := by
  obtain ⟨hlt, hget⟩ := List.getElem?_eq_some_iff.mp h
  rw [setHandle, List.countP_set hlt, hget, hheld]
  rfl

theorem countP_held_pos {handle : Handle ρ} (h : s.handles[position]? = some handle)
    (hheld : handle.held = true) : 0 < s.handles.countP (·.held) :=
  List.countP_pos_iff.mpr ⟨handle, List.mem_of_getElem? h, hheld⟩

/-- Whatever the holder of a handle does with it, it still holds it. -/
theorem Attended.setHandle (h : Attended s) {handle : Handle ρ}
    (hhandle : s.handles[position]? = some handle) (hheld : handle.held = true)
    (waiting : Option (Envelope ρ)) : Attended (s.setHandle position { waiting }) := by
  have hpos := countP_held_pos hhandle hheld
  refine ⟨?_, h.2⟩
  rw [countP_setHandle hhandle hheld]
  show s.task.handles = _
  rw [h.1]
  simp
  omega

theorem Attended.offer (h : Attended s) {handle : Handle ρ}
    (hhandle : s.handles[position]? = some handle) (hheld : handle.held = true)
    (hoffered : s.Offered position envelope now next) : Attended next := by
  cases hoffered with
  | accepted hrunning hpush => exact h.setHandle hhandle hheld none
  | stopped hended => exact h.setHandle hhandle hheld none
  | full hrunning => exact h.setHandle hhandle hheld (some envelope)

theorem Attended.step (h : Attended s) (hstep : s.Step move now next) : Attended next := by
  cases hstep with
  | work hwork =>
      cases hwork with
      | cancel hrunning hstopping => exact ⟨h.1, nofun⟩
      | handle hrunning hpop => exact h
      | finish hrunning hempty hnobody => exact ⟨h.1, fun _ => hnobody⟩
  | enqueue hidle hoffered => exact h.offer hidle rfl hoffered
  | retry hwaits hoffered => exact h.offer hwaits rfl hoffered
  | abandon hwaits => exact h.setHandle hwaits rfl none
  | clone hheld =>
      have hpos := countP_held_pos hheld rfl
      refine ⟨?_, fun hfinished => ?_⟩
      · rw [List.countP_append]
        exact congrArg (· + 1) h.1
      · have hzero := h.2 hfinished
        rw [h.1] at hzero
        omega
  | drop hheld =>
      refine ⟨?_, fun hfinished => ?_⟩
      · show s.task.handles - 1 = (s.setHandle _ _).handles.countP (·.held)
        rw [countP_setHandle hheld rfl, h.1]
        rfl
      · show s.task.handles - 1 = 0
        rw [h.2 hfinished]
  | stop => exact h

/-! ## What a run keeps -/

/-- What the moves of a run, what was seen of them and the core after them have to do with each other:
the account, the handles, who has stopped the core if it is stopped, and that all calls that began on a
handle have ended, in their order, but for the one that waits. -/
structure Tracks (moves : List (Move ρ)) (events : List (Event ρ)) (s : SharedCore ρ) : Prop where
  account : Account events s
  attended : Attended s
  stopped : s.task.stopping = true ∨ s.task.ending = some .cancelled → .stop ∈ moves
  calls : ∀ position, called position moves
    = (callsOn position events).map (·.1) ++ (s.waitingOn position).toList

variable {moves : List (Move ρ)}

/-- Only somebody who stops the core stops it. -/
theorem stopped_step (h : s.task.stopping = true ∨ s.task.ending = some .cancelled → .stop ∈ moves)
    (hstep : s.Step move now next)
    (hnext : next.task.stopping = true ∨ next.task.ending = some .cancelled) :
    .stop ∈ moves ++ [move] := by
  cases hstep with
  | stop => simp
  | work hwork =>
      refine List.mem_append_left _ (h ?_)
      cases hwork with
      | cancel hrunning hstopping => exact .inl hstopping
      | handle hrunning hpop => exact hnext
      | finish hrunning hempty hnobody => exact hnext.imp id nofun
  | enqueue hidle hoffered =>
      refine List.mem_append_left _ (h ?_)
      cases hoffered <;> exact hnext
  | retry hwaits hoffered =>
      refine List.mem_append_left _ (h ?_)
      cases hoffered <;> exact hnext
  | abandon hwaits => exact List.mem_append_left _ (h hnext)
  | clone hheld => exact List.mem_append_left _ (h hnext)
  | drop hheld => exact List.mem_append_left _ (h hnext)

/-- A call that is made, or made again, has ended or waits. -/
theorem callsOn_offer {handle : Handle ρ} (hhandle : s.handles[position]? = some handle)
    (hoffered : s.Offered position envelope now next) (other : Nat) :
    (callsOn other now).map (·.1) ++ (next.waitingOn other).toList
      = if position = other then [envelope] else (s.waitingOn other).toList := by
  cases hoffered with
  | accepted hrunning hpush =>
      show _ ++ ((s.setHandle position {}).waitingOn other).toList = _
      rw [callsOn_ended, waitingOn_setHandle hhandle]
      by_cases hother : position = other <;> simp [hother]
  | stopped hended =>
      rw [callsOn_ended, waitingOn_setHandle hhandle]
      by_cases hother : position = other <;> simp [hother]
  | full hrunning =>
      rw [waitingOn_setHandle hhandle]
      by_cases hother : position = other <;> simp [hother, callsOn, calls]

/-- What waits on a handle before a move, and what the move begins there, has ended or waits after it. -/
theorem callsOn_step (hstep : s.Step move now next) (other : Nat) :
    (s.waitingOn other).toList ++ called other [move]
      = (callsOn other now).map (·.1) ++ (next.waitingOn other).toList := by
  have hwaiting : ∀ {position : Nat} {waiting : Option (Envelope ρ)},
      s.handles[position]? = some { waiting } → position = other → s.waitingOn other = waiting := by
    rintro position waiting hhandle rfl
    rw [waitingOn, hhandle]
    rfl
  cases hstep with
  | work hwork => simp [called, callsOn, waitingOn]
  | @enqueue position envelope _ _ hidle hoffered =>
      rw [callsOn_offer hidle hoffered]
      by_cases hother : position = other
      · simp [called, hother, hwaiting hidle hother]
      · simp [called, hother]
  | @retry position envelope _ _ hwaits hoffered =>
      rw [callsOn_offer hwaits hoffered]
      by_cases hother : position = other
      · simp [called, hother, hwaiting hwaits hother]
      · simp [called, hother]
  | @abandon position envelope hwaits =>
      rw [callsOn_ended, waitingOn_setHandle hwaits]
      by_cases hother : position = other
      · simp [called, hother, hwaiting hwaits hother]
      · simp [called, hother]
  | clone hheld =>
      show _ ++ [] = ((s.handles ++ [({} : Handle ρ)])[other]?.bind (·.waiting)).toList
      rw [waitingOn, List.append_nil, List.getElem?_append]
      split
      · rfl
      · next hnew =>
        rw [List.getElem?_eq_none (Nat.le_of_not_lt hnew), List.getElem?_singleton]
        split <;> rfl
  | @drop position waiting hheld =>
      show _ ++ [] = _ ++ ((s.setHandle position { held := false }).waitingOn other).toList
      rw [waitingOn_setHandle hheld]
      by_cases hother : position = other
      · rw [hwaiting hheld hother]
        cases waiting <;> simp [callsOn, calls, hother]
      · cases waiting <;> simp [callsOn, calls, hother]
  | stop => simp [called, callsOn, waitingOn, calls]

theorem Tracks.step (h : Tracks moves events s) (hstep : s.Step move now next) :
    Tracks (moves ++ [move]) (events ++ now) next where
  account := h.account.step hstep
  attended := h.attended.step hstep
  stopped := stopped_step h.stopped hstep
  calls position := by
    rw [called_append, callsOn_append, List.map_append, h.calls position, List.append_assoc,
      List.append_assoc, callsOn_step hstep]

theorem Tracks.run {last : SharedCore ρ} {later : List (Move ρ)} (h : Tracks moves events s)
    (hrun : s.run? later = some (now, last)) : Tracks (moves ++ later) (events ++ now) last := by
  induction later generalizing moves events s now with
  | nil =>
      cases hrun
      simpa using h
  | cons move later ih =>
      obtain ⟨first, next, rest, hstep, hrest, rfl⟩ := run?_cons.mp hrun
      have htracks := ih (h.step (.of_eq hstep)) hrest
      rwa [List.append_assoc, List.append_assoc] at htracks

theorem tracks_fresh (capacity : Nat) : Tracks [] [] (fresh capacity : SharedCore ρ) where
  account := ⟨[], [], rfl, rfl, fun _ => rfl, nofun⟩
  attended := ⟨rfl, nofun⟩
  stopped := nofun
  calls position := by cases position <;> rfl

/-! ## Cores that have ended -/

/-- Whether nothing is accepted and nothing is delivered in a run from one core to another, and the core
itself stays the same. -/
def Idles (events : List (Event ρ)) (s last : SharedCore ρ) : Prop :=
  accepted events = [] ∧ delivered events = [] ∧ last.task.core = s.task.core ∧
    last.task.ending = s.task.ending

theorem idles_offer (hended : s.task.ending.isSome = true)
    (hoffered : s.Offered position envelope now next) : Idles now s next := by
  have hnever : s.task.ending ≠ none := Option.isSome_iff_ne_none.mp hended
  cases hoffered with
  | stopped hended => exact ⟨rfl, rfl, rfl, rfl⟩
  | accepted hrunning hpush => exact absurd hrunning hnever
  | full hrunning => exact absurd hrunning hnever

theorem idles_step (hended : s.task.ending.isSome = true) (hstep : s.Step move now next) :
    Idles now s next := by
  have hnever : s.task.ending ≠ none := Option.isSome_iff_ne_none.mp hended
  cases hstep with
  | work hwork =>
      cases hwork with
      | cancel hrunning hstopping => exact absurd hrunning hnever
      | handle hrunning hpop => exact absurd hrunning hnever
      | finish hrunning hempty hnobody => exact absurd hrunning hnever
  | enqueue hidle hoffered => exact idles_offer hended hoffered
  | retry hwaits hoffered => exact idles_offer hended hoffered
  | abandon hwaits => exact ⟨rfl, rfl, rfl, rfl⟩
  | clone hheld => exact ⟨rfl, rfl, rfl, rfl⟩
  | @drop _ waiting hheld => cases waiting <;> exact ⟨rfl, rfl, rfl, rfl⟩
  | stop => exact ⟨rfl, rfl, rfl, rfl⟩

/-- **A core that has ended does nothing more**, whatever is done with the handles. -/
theorem idles_run {last : SharedCore ρ} (hended : s.task.ending.isSome = true)
    (hrun : s.run? moves = some (events, last)) : Idles events s last := by
  induction moves generalizing s events with
  | nil =>
      cases hrun
      exact ⟨rfl, rfl, rfl, rfl⟩
  | cons move moves ih =>
      obtain ⟨now, next, later, hstep, hlater, rfl⟩ := run?_cons.mp hrun
      obtain ⟨haccepted, hdelivered, hcore, hending⟩ := idles_step hended (.of_eq hstep)
      obtain ⟨haccepted', hdelivered', hcore', hending'⟩ := ih (hending ▸ hended) hlater
      refine ⟨?_, ?_, hcore'.trans hcore, hending'.trans hending⟩
      · rw [accepted_append, haccepted, haccepted']
        rfl
      · rw [delivered_append, hdelivered, hdelivered']
        rfl

/-- Whoever calls then is told at once that the core has stopped. -/
theorem offer_of_ended (hended : s.task.ending.isSome = true) (position : Nat)
    (envelope : Envelope ρ) : s.offer position envelope
      = ([.ended position envelope .stopped], s.setHandle position {}) := by
  rw [offer, CoreTask.enqueue, if_pos hended]

end

/-! ## Every sequence of envelopes gets through -/

/-- One handle whose envelopes are handled one by one: an inbox with a single place is enough. -/
theorem run?_alternate {capacity : Nat} (hpos : 0 < capacity) (envelopes : List (Envelope ρ))
    (core : Core ρ) : ∃ events s,
      run? (envelopes.flatMap fun envelope => [.enqueue 0 envelope, .work])
        { task := { inbox := { capacity }, core } } = some (events, s) ∧
      (accepted events).map (·.2) = envelopes ∧
      delivered events = (Core.handleAll envelopes core).1 := by
  induction envelopes generalizing core with
  | nil => exact ⟨[], _, rfl, rfl, rfl⟩
  | cons envelope envelopes ih =>
      obtain ⟨events, s, hrun, haccepted, hdelivered⟩ := ih (core.handle envelope).2
      have henqueue : step? { task := { inbox := { capacity }, core } } (.enqueue 0 envelope)
          = some ([.ended 0 envelope .accepted],
              { task := { inbox := { capacity, items := [envelope] }, core } }) := by
        simp [step?, offer, setHandle, CoreTask.enqueue, Queue.push?, Queue.isFull, Queue.size,
          hpos.ne']
      have hwork : step? { task := { inbox := { capacity, items := [envelope] }, core } } .work
          = some ((core.handle envelope).1.map .delivered,
              { task := { inbox := { capacity }, core := (core.handle envelope).2 } }) := rfl
      refine ⟨_, s, run?_cons.mpr ⟨_, _, _, henqueue, run?_cons.mpr ⟨_, _, _, hwork, hrun, rfl⟩, rfl⟩,
        ?_, ?_⟩
      · rw [accepted_append, accepted_append, accepted_map_delivered, List.map_append,
          List.nil_append, haccepted]
        rfl
      · rw [delivered_append, delivered_append, delivered_map_delivered, hdelivered]
        rfl

/-! ## The main result -/

/-- What follows for the moves of a run, what was seen of them and the core after them.

* `handled` — the messages delivered and the state of the core, the number of envelopes in it included,
  are those of `Core.handleAll` on a beginning of what was accepted; if nobody stopped the core then all
  of it was handled when the core has ended.
* `calls` — the calls that began on a handle have ended in the order in which they began, but for the
  last one if it waits, and what was accepted from a handle are the envelopes of those that ended so.
* `gone` — unless somebody stopped it, the core ends only when nobody has a handle.
* `finishes` — when nobody has a handle, the core has something to do until it has ended.
* `stopped` — every call on a core that has ended is told so, and nothing else is seen from then on. -/
structure Folds (moves : List (Move ρ)) (events : List (Event ρ)) (s : SharedCore ρ) : Prop where
  handled : ∃ handled rest, accepted events = handled ++ rest ∧
    delivered events = (Core.handleAll (handled.map (·.2)) .empty).1 ∧
    s.task.core = (Core.handleAll (handled.map (·.2)) .empty).2 ∧
    s.task.core.processed.toNat = handled.length % 2 ^ 64 ∧
    (.stop ∉ moves → s.task.ending.isSome = true → rest = [])
  calls : ∀ position,
    called position moves = (callsOn position events).map (·.1) ++ (s.waitingOn position).toList ∧
    ((accepted events).filter (·.1 = position)).map (·.2)
      = ((callsOn position events).filter (·.2 = .accepted)).map (·.1)
  gone : .stop ∉ moves → s.task.ending.isSome = true → ∀ handle ∈ s.handles, handle.held = false
  finishes : (∀ handle ∈ s.handles, handle.held = false) → s.step? .work = none →
    s.task.ending.isSome = true
  stopped : s.task.ending.isSome = true →
    (∀ position envelope, s.handles[position]? = some {} →
      s.step? (.enqueue position envelope)
        = some ([.ended position envelope .stopped], s.setHandle position {})) ∧
    (∀ position envelope, s.handles[position]? = some { waiting := some envelope } →
      s.step? (.retry position)
        = some ([.ended position envelope .stopped], s.setHandle position {})) ∧
    ∀ later more last, s.run? later = some (more, last) → Idles more s last

section

variable {moves : List (Move ρ)} {events : List (Event ρ)} {s : SharedCore ρ}

/-- A core that nobody stopped has ended because nobody was left who could reach it. -/
theorem Tracks.finished (h : Tracks moves events s) (hstop : .stop ∉ moves)
    (hended : s.task.ending.isSome = true) : s.task.ending = some .finished := by
  obtain ⟨ending, hending⟩ := Option.isSome_iff_exists.mp hended
  cases ending with
  | finished => exact hending
  | cancelled => exact absurd (h.stopped (.inr hending)) hstop

theorem Attended.handles_eq_zero_iff (h : Attended s) :
    s.task.handles = 0 ↔ ∀ handle ∈ s.handles, handle.held = false := by
  rw [h.1, List.countP_eq_zero]
  simp

theorem Tracks.folds (h : Tracks moves events s) : Folds moves events s where
  handled := by
    obtain ⟨handled, rest, haccepted, hfold, -, hfinished⟩ := h.account
    have hcore : s.task.core = _ := congrArg Prod.snd hfold
    refine ⟨handled, rest, haccepted, congrArg Prod.fst hfold, hcore, ?_,
      fun hstop hended => hfinished (h.finished hstop hended)⟩
    rw [hcore, Core.processed_handleAll, List.length_map, UInt64.toNat_ofNat']
  calls position := ⟨h.calls position, accepted_filter events position⟩
  gone hstop hended :=
    h.attended.handles_eq_zero_iff.mp (h.attended.2 (h.finished hstop hended))
  finishes hnobody hstep :=
    CoreTask.isSome_ending_of_step? (Option.map_eq_none_iff.mp hstep)
      (h.attended.handles_eq_zero_iff.mpr hnobody)
  stopped hended := by
    refine ⟨fun position envelope hidle => ?_, fun position envelope hwaits => ?_,
      fun later more last hrun => idles_run hended hrun⟩
    · simp only [step?, hidle, offer_of_ended hended]
    · simp only [step?, hwaits, offer_of_ended hended]

end

/-- **A core at work folds `Core.handle` over what it accepts.**  For every number of places in its
inbox, in every run and at every moment of it, `Folds` holds, in which that number does not occur; and it
keeps nothing out, as all sequences of envelopes can be accepted and handled. -/
theorem run_folds {capacity : Nat} (hpos : 0 < capacity) :
    (capacity ≤ Queue.maxCapacity → start? capacity = some (fresh capacity : SharedCore ρ)) ∧
    (∀ (moves : List (Move ρ)) events s,
      run? moves (fresh capacity) = some (events, s) → Folds moves events s) ∧
    ∀ envelopes : List (Envelope ρ), ∃ moves events s,
      run? moves (fresh capacity) = some (events, s) ∧ (accepted events).map (·.2) = envelopes ∧
      delivered events = (Core.handleAll envelopes .empty).1 := by
  refine ⟨fun hmax => ?_, fun moves events s hrun => ?_, fun envelopes => ?_⟩
  · simp only [start?, CoreTask.start?, Queue.make?, if_pos (And.intro hpos hmax), Option.map_some]
    rfl
  · exact ((tracks_fresh capacity).run hrun).folds
  · obtain ⟨events, s, hrun⟩ := run?_alternate hpos envelopes .empty
    exact ⟨_, events, s, hrun⟩

/-- Two handles on a core with one place in its inbox: both wait for it once, and all three envelopes
are handled in the end. -/
theorem run_folds_one_place :
    let lock : Envelope Nat := ⟨⟨1⟩, .request ⟨"lock", "a", none⟩⟩
    let moves : List (Move Nat) :=
      [.clone 0, .enqueue 0 ⟨⟨1⟩, .opening 10⟩, .enqueue 1 ⟨⟨2⟩, .opening 20⟩, .work, .retry 1,
        .enqueue 0 lock, .work, .retry 0, .drop 1, .work, .drop 0, .work]
    0 < 1 ∧ ∃ events s, run? moves (fresh 1) = some (events, s) ∧
      (s.task.ending.isSome = true ∧ (accepted events).map (·.1) = [0, 1, 0] ∧
        delivered events = [⟨⟨1⟩, 10, .reply .ok⟩]) ∧ Folds moves events s := by
  intro lock moves
  have hseen : (run? moves (fresh 1)).map (fun (events, s) =>
      (s.task.ending.isSome, (accepted events).map (·.1), delivered events))
        = some (true, [0, 1, 0], [⟨⟨1⟩, 10, .reply .ok⟩]) := by
    decide +kernel
  obtain ⟨⟨events, s⟩, hrun, heq⟩ := Option.map_eq_some_iff.mp hseen
  have hpos : 0 < 1 := Nat.one_pos
  exact ⟨hpos, events, s, hrun, by simpa using heq, (run_folds hpos).2.1 moves events s hrun⟩

end SharedCore

end LockService
