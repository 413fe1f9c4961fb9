import LockService.Table.Basic

/-!
# The two views agree after every run

`Views.Coherent` compares the recorded stakes with `standing`, a function of the queue.  This file
says what that means for somebody who only looks: `Views.Agreement` puts it in terms of fronts,
members and registered clients, and **`Views.agreement_of_run`** proves it after any sequence of
calls, starting from the empty table.

* `TableCall` — the four things that can be asked of a table, by anybody and for any key.
* `Views.run` — calls one after the other.  It stops with a `Disagreement` where a call does.
* `Views.exists_run` — on coherent views no run stops, and it ends coherent.

Nothing is assumed about who calls: clients need not be registered, may ask again while they wait,
give up what they do not hold, and leave as often as they like.
-/

namespace LockService

open Std (TreeMap TransOrd LawfulEqOrd)

/-- What can be asked of a table. -/
inductive TableCall (ι κ : Type)
  | register (client : ι)
  | acquire (client : ι) (key : κ)
  | release (client : ι) (key : κ)
  | remove (client : ι)
deriving DecidableEq, Repr

/-- What a call is answered with: nothing, whether the client holds the key now, how giving it up
ended, or who was promoted by a client's leaving. -/
inductive TableAnswer (ι : Type)
  | registered
  | acquired (holds : Bool)
  | released (outcome : Release ι)
  | removed (promoted : List ι)
deriving DecidableEq, Repr

namespace Views

variable {ι κ : Type} [Ord ι] [Ord κ]

/-! ## Agreement, for somebody who looks -/

/-- Both views tell the same about who holds, who waits and who does neither. -/
structure Agreement (v : Views ι κ) : Prop where
  ne_nil : ∀ (key : κ) queue, v.queues[key]? = some queue → queue ≠ []
  nodup : ∀ (key : κ) queue, v.queues[key]? = some queue → queue.Nodup
  holding_iff : ∀ client key, v.stake client key = some .holding ↔ (v.queue key).head? = some client
  waiting_iff : ∀ client key, v.stake client key = some .waiting ↔ client ∈ (v.queue key).tail
  none_iff : ∀ client key, v.stake client key = none ↔ client ∉ v.queue key
  registered : ∀ client key, client ∈ v.queue key → v.isRegistered client

section Looking

variable [TransOrd ι]

/-- Whoever has a stake is registered. -/
theorem isRegistered_of_stake {v : Views ι κ} {client : ι} {key : κ}
    (h : v.stake client key ≠ none) : v.isRegistered client := by
  rw [stake] at h
  rw [isRegistered, Std.TreeMap.contains_eq_isSome_getElem?]
  cases hmine : v.stakes[client]? with
  | none => simp [hmine] at h
  | some mine => rfl

variable [DecidableEq ι]

/-- Whoever is queued for a key is registered. -/
theorem Coherent.isRegistered {v : Views ι κ} (hv : v.Coherent) {client : ι} {key : κ}
    (h : client ∈ v.queue key) : v.isRegistered client := by
  have hstake : v.stake client key ≠ none := by
    rw [hv.stake_eq]
    exact fun hnone => standing_eq_none_iff.mp hnone h
  exact isRegistered_of_stake hstake

theorem Coherent.agreement [TransOrd κ] {v : Views ι κ} (hv : v.Coherent) : v.Agreement where
  ne_nil key queue h := by
    rintro rfl
    exact hv.ne_nil key h
  nodup key queue h := by
    have hnd := hv.nodup key
    rwa [queue_eq, h] at hnd
  holding_iff client key := by rw [hv.stake_eq, standing_eq_holding_iff]
  waiting_iff client key := by rw [hv.stake_eq, standing_eq_waiting_iff (hv.nodup key)]
  none_iff client key := by rw [hv.stake_eq, standing_eq_none_iff]
  registered _ _ h := hv.isRegistered h

end Looking

/-! ## Runs -/

variable [TransOrd ι] [TransOrd κ] [LawfulEqOrd ι] [LawfulEqOrd κ] [DecidableEq ι] [DecidableEq κ]

/-- The views after a call, with its answer. -/
def perform (v : Views ι κ) : TableCall ι κ → Except (Disagreement ι κ) (TableAnswer ι × Views ι κ)
  | .register client => .ok (.registered, v.register client)
  | .acquire client key => .ok (.acquired (v.acquire client key).1, (v.acquire client key).2)
  | .release client key =>
    match v.release client key with
    | .error fault => .error fault
    | .ok (outcome, v) => .ok (.released outcome, v)
  | .remove client =>
    match v.remove client with
    | .error fault => .error fault
    | .ok (promoted, v) => .ok (.removed promoted, v)

/-- The views after calls one after the other, with all answers. -/
def run : Views ι κ → List (TableCall ι κ) →
    Except (Disagreement ι κ) (List (TableAnswer ι) × Views ι κ)
  | v, [] => .ok ([], v)
  | v, call :: calls =>
    match v.perform call with
    | .error fault => .error fault
    | .ok (answer, v) =>
      match v.run calls with
      | .error fault => .error fault
      | .ok (answers, v) => .ok (answer :: answers, v)

theorem exists_perform {v : Views ι κ} (hv : v.Coherent) (call : TableCall ι κ) :
    ∃ answer w, v.perform call = .ok (answer, w) ∧ w.Coherent := by
  cases call with
  | register client => exact ⟨_, _, rfl, coherent_register hv client⟩
  | acquire client key => exact ⟨_, _, rfl, coherent_acquire hv client key⟩
  | release client key =>
      obtain ⟨outcome, w, h, hw⟩ := exists_release hv client key
      exact ⟨.released outcome, w, by simp only [perform, h], hw⟩
  | remove client =>
      obtain ⟨promoted, w, h, hw⟩ := exists_remove hv client
      exact ⟨.removed promoted, w, by simp only [perform, h], hw⟩

theorem exists_run {v : Views ι κ} (hv : v.Coherent) (calls : List (TableCall ι κ)) :
    ∃ answers w, v.run calls = .ok (answers, w) ∧ w.Coherent := by
  induction calls generalizing v with
  | nil => exact ⟨[], v, rfl, hv⟩
  | cons call calls ih =>
      obtain ⟨answer, w, hcall, hw⟩ := exists_perform hv call
      obtain ⟨answers, u, hcalls, hu⟩ := ih hw
      exact ⟨answer :: answers, u, by simp only [run, hcall, hcalls], hu⟩

/-- **The views agree after every run from the empty table**, and no run meets a disagreement.

The last part looks into the middle of a removal, where the leaving client's stakes are gone
already: wherever the walk through them has come, it has met no disagreement, and what the views
disagree about is the leaving client and the keys still ahead. -/
theorem agreement_of_run (calls : List (TableCall ι κ)) :
    ∃ answers v, ({} : Views ι κ).run calls = .ok (answers, v) ∧ v.Agreement ∧
      ∀ client mine settled ahead, v.stakes[client]? = some mine → mine.toList = settled ++ ahead →
        ∃ promoted w,
          settleStakes client settled { v with stakes := v.stakes.erase client } = .ok (promoted, w) ∧
            CoherentBut client ahead w := by
  obtain ⟨answers, v, hrun, hv⟩ := exists_run coherent_empty calls
  refine ⟨answers, v, hrun, hv.agreement, ?_⟩
  intro client mine settled ahead hmine hsplit
  have hbut := hv.coherentBut_erase hmine
  rw [hsplit] at hbut
  exact hbut.exists_settleStakes

/-- For instance when a client leaves for which another one waits on two keys. -/
theorem agreement_of_run_remove :
    ∃ answers v, ({} : Views Nat String).run [.acquire 1 "x", .acquire 1 "y", .acquire 2 "y",
      .acquire 2 "x", .acquire 2 "x", .remove 1] = .ok (answers, v) ∧ v.Agreement := by
  obtain ⟨answers, v, hrun, hv, -⟩ := agreement_of_run (ι := Nat) (κ := String)
    [.acquire 1 "x", .acquire 1 "y", .acquire 2 "y", .acquire 2 "x", .acquire 2 "x", .remove 1]
  exact ⟨answers, v, hrun, hv⟩

end Views

end LockService
