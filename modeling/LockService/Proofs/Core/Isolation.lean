import LockService.Proofs.Core.Effects

/-!
# Keys are isolated

One core looks after all keys and all counters, and a connection that closes gives up many keys in
one step.  Still each key might have a core of its own: who holds it and who waits for it follows
from the envelopes that concern it, which are the requests to lock and to unlock it, and openings
and closings.

* `Command.concerns` — whether a command concerns a key.
* `Core.Alone` — a core and the core that only hears what concerns one key.  They agree on the queue
  of this key and on who can be reached, and in the second one all other keys are free.
* **`Core.keys_isolated`** — what follows for every step of every run.
-/

namespace LockService

/-- Whether a command concerns a key. -/
def Command.concerns {ρ : Type} (key : String) : Command ρ → Bool
  | .opening _ | .closing => true
  | .malformed => false
  | .request r => (r.op = Operation.lock.name ∨ r.op = Operation.unlock.name) ∧ r.target = key

namespace Core

variable {ρ : Type}

theorem parse?_of_concerns {key : String} {r : Request}
    (h : (Command.request r : Command ρ).concerns key = true) :
    (Operation.parse? r.op = some .lock ∨ Operation.parse? r.op = some .unlock) ∧
      r.target = key := by
  obtain ⟨hop, htarget⟩ := of_decide_eq_true h
  refine ⟨hop.imp ?_ ?_, htarget⟩
  · intro hop
    rw [hop, Operation.parse?_name]
  · intro hop
    rw [hop, Operation.parse?_name]

/-- What does not concern a key leaves its queue as it is. -/
theorem queueAfter_of_not_concerns {key : String} {command : Command ρ}
    (h : command.concerns key = false) (sender : ConnectionId) (queue : List ConnectionId) :
    command.queueAfter key sender queue = queue := by
  cases command with
  | opening replier => cases h
  | closing => cases h
  | malformed => rfl
  | request r =>
      rw [Command.queueAfter]
      split
      · next hkey =>
        cases hop : Operation.parse? r.op with
        | none => rfl
        | some op =>
            have hname := Operation.name_of_parse? hop
            cases op with
            | lock => exact absurd h (by simp [Command.concerns, ← hname, hkey])
            | unlock => exact absurd h (by simp [Command.concerns, ← hname, hkey])
            | get | set | incr => rfl
      · rfl

/-- What concerns a key leaves every other key free. -/
theorem queueAfter_of_ne {key k : String} (hk : k ≠ key) {command : Command ρ}
    (h : command.concerns key = true) (sender : ConnectionId) :
    command.queueAfter k sender [] = [] := by
  cases command with
  | opening replier => rfl
  | closing => rfl
  | malformed => cases h
  | request r =>
      refine if_neg fun heq => hk ?_
      rw [← heq, (parse?_of_concerns h).2]

/-- Two cores, the second of which looks after one key only. -/
structure Alone (key : String) (core alone : Core ρ) : Prop where
  queue_eq : alone.table.views.queue key = core.table.views.queue key
  free : ∀ k, k ≠ key → alone.table.views.queue k = []
  repliers_eq : ∀ c : ConnectionId, alone.repliers[c]? = core.repliers[c]?

namespace Alone

variable {key : String} {core alone : Core ρ}

theorem holder_eq (h : Alone key core alone) : alone.holder key = core.holder key :=
  congrArg List.head? h.queue_eq

theorem waiters_eq (h : Alone key core alone) :
    alone.table.views.waiters key = core.table.views.waiters key :=
  congrArg List.tail h.queue_eq

/-- An envelope that concerns the key, handled by both. -/
theorem handle (h : Alone key core alone) {e : Envelope ρ} (he : e.command.concerns key = true) :
    Alone key (core.handle e).2 (alone.handle e).2 where
  queue_eq := by rw [queue_handle, queue_handle, h.queue_eq]
  free k hk := by rw [queue_handle, h.free k hk, queueAfter_of_ne hk he]
  repliers_eq c := by
    rw [repliers_handle, repliers_handle, h.repliers_eq]

/-- An envelope that does not concern the key, handled by the first core only. -/
theorem skip (h : Alone key core alone) {e : Envelope ρ} (he : e.command.concerns key = false) :
    Alone key (core.handle e).2 alone where
  queue_eq := by rw [queue_handle, queueAfter_of_not_concerns he, h.queue_eq]
  free := h.free
  repliers_eq c := by
    rw [repliers_handle, h.repliers_eq]
    split
    · next hcommand => rw [hcommand] at he; cases he
    · next hcommand => rw [hcommand] at he; cases he
    · rfl
    · rfl

/-- The heirs of a connection on the one key are its heirs on all keys, but for those on others. -/
theorem heirs_eq (h : Alone key core alone) (c : ConnectionId) :
    alone.table.views.heirs c = (core.table.views.heirs c).filter (·.1 = key) := by
  refine Views.eq_of_ascending (Views.pairwise_heirs _ _) ((Views.pairwise_heirs _ _).filter _) ?_
  rintro ⟨k, next⟩
  rw [List.mem_filter, alone.table.coherent.mem_heirs_iff, core.table.coherent.mem_heirs_iff,
    decide_eq_true_eq]
  by_cases hk : k = key
  · rw [hk, h.queue_eq, and_iff_left rfl]
  · rw [h.free k hk]
    simp [hk]

/-- A request for the key is answered in the same way, to its sender and to whoever is promoted. -/
theorem request_eq (h : Alone key core alone) {sender : ConnectionId} {r : Request}
    (he : (Command.request r : Command ρ).concerns key = true) :
    alone.tableAnswer ⟨sender, .request r⟩ = core.tableAnswer ⟨sender, .request r⟩ ∧
      (alone.handle ⟨sender, .request r⟩).1 = (core.handle ⟨sender, .request r⟩).1 := by
  obtain ⟨hop, rfl⟩ := parse?_of_concerns he
  rw [tableAnswer, tableAnswer]
  show _ ∧ (alone.request sender r).1 = (core.request sender r).1
  rw [request, request]
  rcases hop with hop | hop
  · have hgranted : (alone.table.acquire sender r.target).1
        = (core.table.acquire sender r.target).1 := by
      rw [Bool.eq_iff_iff, Table.acquire_fst, Table.acquire_fst, h.queue_eq]
    simp only [hop, hgranted, true_and]
    exact lock_fst_congr hgranted (h.repliers_eq sender)
  · have houtcome : (alone.table.release sender r.target).1
        = (core.table.release sender r.target).1 := by
      rw [Table.release_fst, Table.release_fst, h.queue_eq]
    simp only [hop, houtcome, true_and]
    exact unlock_fst_congr houtcome (h.repliers_eq sender) fun next _ => h.repliers_eq next

end Alone

/-- A run, and the run of what concerns one key in it. -/
theorem alone_handleAll (key : String) (history : List (Envelope ρ)) :
    Alone key (handleAll history .empty).2
      (handleAll (history.filter (·.command.concerns key)) .empty).2 := by
  induction history using List.reverseRecOn with
  | nil =>
      have hfree : ∀ k, (handleAll [] (empty : Core ρ)).2.table.views.queue k = [] := by
        intro k
        simp [handleAll, empty, Table.empty, Views.queue]
      exact ⟨rfl, fun k _ => hfree k, fun _ => rfl⟩
  | append_singleton history e ih =>
      rw [handleAll_concat, List.filter_append, List.filter_singleton]
      cases he : e.command.concerns key with
      | true =>
          rw [cond_true, handleAll_concat]
          exact ih.handle he
      | false =>
          rw [cond_false, List.append_nil]
          exact ih.skip he

/-- **Keys are isolated** from each other and from the counters.  Let one core handle a whole history
and another one only what concerns a key.  Then at every point of the history

* the key has the same holder and the same waiters in both;
* if the next envelope concerns the key, this is so afterwards, too; if it does not, it leaves the
  holder and the waiters of the key as they are;
* a request to lock or to unlock the key gets the same answer, and the same messages are delivered;
* a connection that closes passes the key on to the same connection, if to any. -/
theorem keys_isolated (key : String) (history : List (Envelope ρ)) (e : Envelope ρ) :
    let core := (handleAll history .empty).2
    let alone := (handleAll (history.filter (·.command.concerns key)) .empty).2
    (alone.holder key = core.holder key ∧
      alone.table.views.waiters key = core.table.views.waiters key) ∧
    (e.command.concerns key = true →
      (alone.handle e).2.holder key = (core.handle e).2.holder key ∧
      (alone.handle e).2.table.views.waiters key = (core.handle e).2.table.views.waiters key) ∧
    (e.command.concerns key = false →
      (core.handle e).2.holder key = core.holder key ∧
      (core.handle e).2.table.views.waiters key = core.table.views.waiters key) ∧
    (∀ r, e.command = .request r → e.command.concerns key = true →
      alone.tableAnswer e = core.tableAnswer e ∧ (alone.handle e).1 = (core.handle e).1) ∧
    (e.command = .closing → ∃ heirs : List (String × ConnectionId),
      heirs.Pairwise (fun a b => Utf8.encode a.1 < Utf8.encode b.1) ∧
      (∀ k next, (k, next) ∈ heirs
        ↔ core.holder k = some e.sender ∧ (core.table.views.waiters k).head? = some next) ∧
      core.tableAnswer e = some (.removed (heirs.map (·.2))) ∧
      alone.tableAnswer e = some (.removed ((heirs.filter (·.1 = key)).map (·.2)))) := by
  intro core alone
  have halone : Alone key core alone := alone_handleAll key history
  refine ⟨⟨halone.holder_eq, halone.waiters_eq⟩, fun he => ?_, fun he => ?_, ?_, ?_⟩
  · exact ⟨(halone.handle he).holder_eq, (halone.handle he).waiters_eq⟩
  · rw [← halone.holder_eq, ← halone.waiters_eq]
    exact ⟨(halone.skip he).holder_eq.symm, (halone.skip he).waiters_eq.symm⟩
  · obtain ⟨sender, command⟩ := e
    rintro r rfl he
    exact halone.request_eq he
  · obtain ⟨sender, command⟩ := e
    rintro rfl
    refine ⟨core.table.views.heirs sender,
      (Views.pairwise_heirs _ _).imp Utf8.encode_lt_encode_of_compare,
      fun _ _ => core.table.coherent.mem_heirs_iff_holder, ?_, ?_⟩
    · rw [tableAnswer, Table.remove_fst]
    · rw [tableAnswer, Table.remove_fst, halone.heirs_eq]

end Core

end LockService
