import LockService.Proofs.Core.Orderly

/-!
# What an envelope does to the parts of the core

Two runs of the core are compared part by part: the queue of one key, who is registered, the
counters.  Each part after an envelope depends on nothing but the same part before it, and this file
says how.

* `Core.queue_handle`, `Core.isRegistered_handle_iff`, `Core.counters_handle` — the parts afterwards.
* `Core.tableAnswer` — what the table answers to an envelope, by which the messages of a step are
  settled, up to who can be reached (`Core.lock_fst_congr`, `Core.unlock_fst_congr`,
  `Core.closing_fst_congr`).
-/

namespace LockService

namespace Command

variable {ρ : Type}

/-- The queue of a key after a command, if one knows the queue before it. -/
def queueAfter (key : String) (sender : ConnectionId) (queue : List ConnectionId) :
    Command ρ → List ConnectionId
  | .opening _ | .malformed => queue
  | .closing => queue.filter (· ≠ sender)
  | .request r =>
    if r.target = key then
      match Operation.parse? r.op with
      | some .lock => joined queue sender
      | some .unlock => if queue.head? = some sender then queue.tail else queue
      | some .get | some .set | some .incr | none => queue
    else queue

/-- The counters after a command.  One that is refused leaves them as they were. -/
def countersAfter (counters : Counters) : Command ρ → Counters
  | .opening _ | .closing | .malformed => counters
  | .request r =>
    match Operation.parse? r.op with
    | some .set => (counters.set r.target r.arg).toOption.getD counters
    | some .incr => ((counters.incr r.target r.arg).toOption.map (·.2)).getD counters
    | some .lock | some .unlock | some .get | none => counters

end Command

namespace Core

variable {ρ : Type}

/-! ## The parts afterwards -/

theorem queue_handle (core : Core ρ) (e : Envelope ρ) (key : String) :
    (core.handle e).2.table.views.queue key
      = e.command.queueAfter key e.sender (core.table.views.queue key) := by
  obtain ⟨sender, command⟩ := e
  cases command with
  | opening replier => rfl
  | malformed => rfl
  | closing => exact core.table.queue_remove sender key
  | request r =>
      show (core.request sender r).2.table.views.queue key = _
      rw [table_request, Command.queueAfter]
      by_cases hkey : r.target = key
      · subst hkey
        rw [if_pos rfl]
        cases Operation.parse? r.op with
        | none => rfl
        | some op =>
            cases op with
            | lock => exact (core.table.queue_acquire sender r.target r.target).trans (if_pos rfl)
            | unlock =>
                refine (core.table.queue_release sender r.target r.target).trans ?_
                simp
            | get | set | incr => rfl
      · rw [if_neg hkey]
        cases Operation.parse? r.op with
        | none => rfl
        | some op =>
            cases op with
            | lock => exact (core.table.queue_acquire sender r.target key).trans (if_neg hkey)
            | unlock =>
                exact (core.table.queue_release sender r.target key).trans
                  (if_neg fun h => hkey h.1)
            | get | set | incr => rfl

theorem isRegistered_handle_iff (core : Core ρ) (e : Envelope ρ) (c : ConnectionId) :
    (core.handle e).2.table.views.isRegistered c = true
      ↔ match e.command with
        | .opening _ => e.sender = c ∨ core.table.views.isRegistered c = true
        | .closing => e.sender ≠ c ∧ core.table.views.isRegistered c = true
        | .malformed => core.table.views.isRegistered c = true
        | .request r => Operation.parse? r.op = some .lock ∧ e.sender = c
            ∨ core.table.views.isRegistered c = true := by
  obtain ⟨sender, command⟩ := e
  cases command with
  | opening replier => exact Views.isRegistered_register
  | closing => exact core.table.isRegistered_remove sender c
  | malformed => exact Iff.rfl
  | request r =>
      show (core.request sender r).2.table.views.isRegistered c = true ↔ _
      rw [table_request]
      split
      · next hop =>
        rw [Table.isRegistered_acquire]
        simp [hop]
      · next hop =>
        rw [Table.isRegistered_release]
        simp [hop]
      all_goals simp [*]

theorem counters_handle (core : Core ρ) (e : Envelope ρ) :
    (core.handle e).2.counters = e.command.countersAfter core.counters := by
  obtain ⟨sender, command⟩ := e
  cases command with
  | opening replier => rfl
  | closing => rfl
  | malformed => rfl
  | request r =>
      show (core.request sender r).2.counters = _
      rw [request, Command.countersAfter]
      cases Operation.parse? r.op with
      | none => rfl
      | some op =>
          cases op with
          | lock => rfl
          | get => rfl
          | unlock =>
              show (core.unlock sender r.target).2.counters = _
              rw [unlock_snd]
          | set =>
              simp only [perform]
              cases core.counters.set r.target r.arg <;> rfl
          | incr =>
              simp only [perform]
              cases core.counters.incr r.target r.arg <;> rfl

/-! ## Answers of the table -/

/-- What the table answers to an envelope, if it is asked. -/
def tableAnswer (core : Core ρ) (e : Envelope ρ) : Option (TableAnswer ConnectionId) :=
  match e.command with
  | .opening _ => some .registered
  | .closing => some (.removed (core.table.remove e.sender).1)
  | .malformed => none
  | .request r =>
    match Operation.parse? r.op with
    | some .lock => some (.acquired (core.table.acquire e.sender r.target).1)
    | some .unlock => some (.released (core.table.release e.sender r.target).1)
    | some .get | some .set | some .incr | none => none

section

variable {core core' : Core ρ} {sender : ConnectionId} {key : String}

theorem send_congr (h : core.repliers[sender]? = core'.repliers[sender]?) (message : Outbound) :
    core.send sender message = core'.send sender message := by
  rw [send, send, h]

theorem lock_fst_congr
    (hgranted : (core.table.acquire sender key).1 = (core'.table.acquire sender key).1)
    (hsender : core.repliers[sender]? = core'.repliers[sender]?) :
    (core.lock sender key).1 = (core'.lock sender key).1 := by
  show (if (core.table.acquire sender key).1 then core.reply sender .ok else []) = _
  rw [hgranted, reply, send_congr hsender]
  rfl

theorem unlock_fst_congr
    (houtcome : (core.table.release sender key).1 = (core'.table.release sender key).1)
    (hsender : core.repliers[sender]? = core'.repliers[sender]?)
    (hnext : ∀ next, (core.table.release sender key).1 = .promoted next →
      core.repliers[next]? = core'.repliers[next]?) :
    (core.unlock sender key).1 = (core'.unlock sender key).1 := by
  simp only [unlock, ← houtcome]
  split
  · exact send_congr hsender _
  · exact send_congr hsender _
  · next next hpromoted =>
    exact congrArg₂ _ (send_congr hsender _) (send_congr (hnext next hpromoted) _)

theorem closing_fst_congr
    (hpromoted : (core.table.remove sender).1 = (core'.table.remove sender).1)
    (hsender : core.repliers[sender]? = core'.repliers[sender]?)
    (hnext : ∀ next ∈ (core.table.remove sender).1,
      (core.closing sender).2.repliers[next]? = (core'.closing sender).2.repliers[next]?) :
    (core.closing sender).1 = (core'.closing sender).1 := by
  have hgrants : (core.table.remove sender).1.flatMap ((core.closing sender).2.reply · .ok)
      = (core.table.remove sender).1.flatMap ((core'.closing sender).2.reply · .ok) :=
    List.flatMap_congr fun next hmem => send_congr (hnext next hmem) _
  show core.send sender .closed
    ++ (core.table.remove sender).1.flatMap ((core.closing sender).2.reply · .ok) = _
  rw [send_congr hsender, hgrants, hpromoted]
  rfl

end

end Core

end LockService
