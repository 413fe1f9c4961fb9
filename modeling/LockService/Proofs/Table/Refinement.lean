import LockService.Proofs.Table.Effects
import LockService.Proofs.Table.Roll
import LockService.Proofs.Text.ByteOrder

/-!
# Tables cannot be told from rolls

`Views.roll` forgets the stakes and keeps, of the rest, what a roll has.  One operation on views
that agree is then the operation of the same name on rolls (`Views.Coherent.step`), and so whole
runs are (`Views.Coherent.steps`).  **`Views.steps_of_run`** is the result for runs from the empty
table, together with everything that can be seen of the views at the end.

The operation that differs is leaving: the views are repaired key by key along the client's own
stakes, the roll is filtered everywhere.  That both come to the same is
`Views.Coherent.remove_effect`; here only the order of the promotions is added, which the views
have by comparing texts and the roll by comparing bytes.
-/

namespace LockService

open Std (TreeMap TransOrd LawfulEqOrd)

namespace Roll

variable {ι κ : Type}

/-- Two rolls are equal if they list the same clients everywhere. -/
theorem eq_of_listed {r s : Roll ι κ}
    (hregistered : ∀ client, client ∈ r.registered ↔ client ∈ s.registered)
    (hqueue : ∀ key, r.queue key = s.queue key) : r = s := by
  obtain ⟨registered, queue⟩ := r
  obtain ⟨registered', queue'⟩ := s
  obtain rfl : registered = registered' := Set.ext hregistered
  obtain rfl : queue = queue' := funext hqueue
  rfl

/-! ## Rolls, operation by operation -/

variable [DecidableEq κ]

theorem queue_setQueue (r : Roll ι κ) (key k : κ) (queue : List ι) :
    (r.setQueue key queue).queue k = if key = k then queue else r.queue k := by
  simp only [setQueue, Function.update_apply, eq_comm]

variable [DecidableEq ι]

theorem acquire_fst (r : Roll ι κ) (client : ι) (key : κ) :
    (r.acquire client key).1 = true ↔ r.queue key = [] ∨ (r.queue key).head? = some client := by
  simp only [acquire, register]
  cases r.queue key with
  | nil => simp
  | cons front rest =>
      simp only [List.head?_cons, Option.some.injEq]
      grind

theorem queue_acquire (r : Roll ι κ) (client : ι) (key k : κ) :
    (r.acquire client key).2.queue k
      = if key = k then joined (r.queue key) client else r.queue k := by
  have hkeep (h : client ∈ r.queue key) := (joined_of_mem r.queue h k).symm
  simp only [acquire, register]
  cases hq : r.queue key with
  | nil => rw [queue_setQueue]; rfl
  | cons front rest =>
      rw [hq] at hkeep
      dsimp only
      split
      · next hfront => exact hkeep (hfront ▸ List.mem_cons_self)
      · next hfront =>
          split
          · next hrest => exact hkeep (List.mem_cons_of_mem _ hrest)
          · next hrest =>
              have hnot : client ∉ front :: rest := by simp [hfront, hrest]
              rw [queue_setQueue, joined, if_neg hnot]

theorem registered_acquire (r : Roll ι κ) (client : ι) (key : κ) :
    (r.acquire client key).2.registered = insert client r.registered := by
  simp only [acquire]
  split
  · rfl
  · split
    · rfl
    · split <;> rfl

theorem release_fst (r : Roll ι κ) (client : ι) (key : κ) :
    (r.release client key).1
      = if (r.queue key).head? = some client then .ofWaiters (r.queue key).tail else .notHeld := by
  simp only [release]
  cases r.queue key with
  | nil => simp
  | cons front rest =>
      simp only [List.head?_cons, Option.some.injEq, List.tail_cons, eq_comm]
      split
      · cases rest <;> rfl
      · rfl

theorem queue_release (r : Roll ι κ) (client : ι) (key k : κ) :
    (r.release client key).2.queue k
      = if key = k ∧ (r.queue key).head? = some client then (r.queue key).tail else r.queue k := by
  simp only [release]
  cases hq : r.queue key with
  | nil => simp
  | cons front rest =>
      simp only [List.head?_cons, Option.some.injEq, List.tail_cons]
      by_cases hfront : client = front
      · subst hfront
        cases rest <;> simp [queue_setQueue]
      · simp [hfront, Ne.symm hfront]

theorem registered_release (r : Roll ι κ) (client : ι) (key : κ) :
    (r.release client key).2.registered = r.registered := by
  simp only [release]
  split
  · rfl
  · split
    · split <;> rfl
    · rfl

end Roll

namespace Views

variable {ι κ : Type} [Ord ι] [Ord κ]

/-! ## Views as rolls -/

/-- The roll that views stand for. -/
def roll (v : Views ι κ) : Roll ι κ where
  registered := {client | v.isRegistered client}
  queue := v.queue

/-- The roll of the empty views is the empty roll. -/
theorem roll_empty [TransOrd κ] : ({} : Views ι κ).roll = {} :=
  Roll.eq_of_listed (fun c => by simp [roll, isRegistered]) (fun k => by simp [roll, queue])

theorem roll_register [TransOrd ι] [LawfulEqOrd ι] (v : Views ι κ) (client : ι) :
    (v.register client).roll = v.roll.register client := by
  refine Roll.eq_of_listed (fun c => ?_) (fun key => rfl)
  show (v.register client).isRegistered c ↔ c = client ∨ v.isRegistered c
  rw [isRegistered_register, eq_comm]

/-! ## What can be seen -/

theorem encard_keys {α β : Type} [Ord α] [TransOrd α] [LawfulEqOrd α] (m : TreeMap α β) :
    {a | a ∈ m}.encard = m.size := by
  classical
  have hkeys : {a | a ∈ m} = (m.keys.toFinset : Set α) := by
    ext a
    simp
  rw [hkeys, Set.encard_coe_eq_coe_finsetCard, List.toFinset_card_of_nodup Std.TreeMap.nodup_keys,
    Std.TreeMap.length_keys]

variable [TransOrd ι] [TransOrd κ] [LawfulEqOrd ι] [LawfulEqOrd κ] [DecidableEq ι]

theorem Coherent.shows {v : Views ι κ} (hv : v.Coherent) : v.Shows v.roll where
  holder _ := rfl
  waiters _ := rfl
  queueLength _ := rfl
  holding_iff := hv.agreement.holding_iff
  waiting_iff := hv.agreement.waiting_iff
  isRegistered_iff _ := Iff.rfl
  keyCount := by
    have hkeys : {key | v.roll.queue key ≠ []} = {key | key ∈ v.queues} := by
      ext key
      show v.queue key ≠ [] ↔ key ∈ v.queues
      rw [ne_eq, queue_eq_nil_iff hv.ne_nil, Std.TreeMap.mem_iff_isSome_getElem?,
        Option.isSome_iff_ne_none]
    rw [hkeys, encard_keys]
    rfl
  clientCount := (encard_keys v.stakes).symm

/-! ## Calls on views and on rolls -/

variable [DecidableEq κ]

theorem Coherent.roll_acquire {v : Views ι κ} (hv : v.Coherent) (client : ι) (key : κ) :
    (v.acquire client key).1 = (v.roll.acquire client key).1 ∧
    (v.acquire client key).2.roll = (v.roll.acquire client key).2 := by
  obtain ⟨hgranted, hqueue, hreg⟩ := hv.acquire_effect client key
  refine ⟨?_, Roll.eq_of_listed (fun c => ?_) (fun k => ?_)⟩
  · rw [Bool.eq_iff_iff, hgranted, Roll.acquire_fst]
    rfl
  · rw [Roll.registered_acquire]
    show (v.acquire client key).2.isRegistered c ↔ c = client ∨ v.isRegistered c
    rw [hreg, eq_comm]
  · rw [Roll.queue_acquire]
    exact hqueue k

theorem Coherent.roll_release {v w : Views ι κ} (hv : v.Coherent) {client : ι} {key : κ}
    {outcome : Release ι} (h : v.release client key = .ok (outcome, w)) :
    outcome = (v.roll.release client key).1 ∧ w.roll = (v.roll.release client key).2 := by
  obtain ⟨houtcome, hqueue, hreg⟩ := hv.release_effect h
  refine ⟨?_, Roll.eq_of_listed (fun c => ?_) (fun k => ?_)⟩
  · rw [Roll.release_fst]
    exact houtcome
  · rw [Roll.registered_release]
    exact hreg c
  · rw [Roll.queue_release]
    exact hqueue k

theorem Coherent.roll_remove {v w : Views ι κ} (hv : v.Coherent) {client : ι} {promoted : List ι}
    (h : v.remove client = .ok (promoted, w)) : w.roll = v.roll.remove client := by
  obtain ⟨-, hqueue, hreg⟩ := hv.remove_effect h
  refine Roll.eq_of_listed (fun c => ?_) hqueue
  show w.isRegistered c ↔ v.isRegistered c ∧ c ≠ client
  rw [hreg, and_comm, ne_comm]

theorem Coherent.promotes {v w : Views ι String} (hv : v.Coherent) {client : ι}
    {promoted : List ι} (h : v.remove client = .ok (promoted, w)) :
    v.roll.Promotes client promoted :=
  ⟨v.heirs client, (pairwise_heirs v client).imp Utf8.encode_lt_encode_of_compare,
    fun _ _ => hv.mem_heirs_iff, (hv.remove_effect h).1⟩

/-- One call on the views is the same call on their roll. -/
theorem Coherent.step {v w : Views ι String} (hv : v.Coherent) {call : TableCall ι String}
    {answer : TableAnswer ι} (h : v.perform call = .ok (answer, w)) :
    Roll.Step v.roll call answer w.roll := by
  cases call with
  | register client =>
      cases h
      rw [roll_register]
      exact .register _ _
  | acquire client key =>
      cases h
      obtain ⟨hgranted, hroll⟩ := hv.roll_acquire client key
      rw [hgranted, hroll]
      exact .acquire _ _ _
  | release client key =>
      simp only [perform] at h
      split at h
      · cases h
      · next outcome u hrelease =>
          cases h
          obtain ⟨houtcome, hroll⟩ := hv.roll_release hrelease
          rw [houtcome, hroll]
          exact .release _ _ _
  | remove client =>
      simp only [perform] at h
      split at h
      · cases h
      · next promoted u hremove =>
          cases h
          rw [hv.roll_remove hremove]
          exact .remove _ _ _ (hv.promotes hremove)

/-- Calls on the views are the same calls on their roll. -/
theorem Coherent.steps {v w : Views ι String} (hv : v.Coherent) {calls : List (TableCall ι String)}
    {answers : List (TableAnswer ι)} (h : v.run calls = .ok (answers, w)) :
    Roll.Steps v.roll calls answers w.roll := by
  induction calls generalizing v answers with
  | nil =>
      cases h
      exact .nil _
  | cons call calls ih =>
      obtain ⟨answer, u, hcall, hu⟩ := exists_perform hv call
      simp only [run, hcall] at h
      split at h
      · cases h
      · next more x hmore =>
          cases h
          exact .cons (hv.step hcall) (ih hu hmore)

/-- **Tables cannot be told from rolls.**  Whatever is called, from the empty table on, every answer
is the one the roll gives, and what is seen of the views afterwards is what the roll says. -/
theorem steps_of_run (calls : List (TableCall ι String)) :
    ∃ answers v r, ({} : Views ι String).run calls = .ok (answers, v) ∧
      Roll.Steps {} calls answers r ∧ v.Shows r := by
  obtain ⟨answers, v, hrun, hv⟩ := exists_run coherent_empty calls
  have hsteps := Coherent.steps coherent_empty hrun
  rw [roll_empty] at hsteps
  exact ⟨answers, v, v.roll, hrun, hsteps, hv.shows⟩

/-- For instance one client is promoted on two keys when another one leaves, and told so twice. -/
theorem steps_of_run_remove :
    ∃ v r, ({} : Views Nat String).run [.acquire 1 "y", .acquire 1 "x", .acquire 2 "y",
        .acquire 2 "x", .remove 1]
      = .ok ([.acquired true, .acquired true, .acquired false, .acquired false, .removed [2, 2]], v) ∧
      Roll.Steps {} [.acquire 1 "y", .acquire 1 "x", .acquire 2 "y", .acquire 2 "x", .remove 1]
        [.acquired true, .acquired true, .acquired false, .acquired false, .removed [2, 2]] r ∧
      v.Shows r := by
  obtain ⟨answers, v, r, hrun, hsteps, hshows⟩ := steps_of_run (ι := Nat)
    [.acquire 1 "y", .acquire 1 "x", .acquire 2 "y", .acquire 2 "x", .remove 1]
  have hanswers : (({} : Views Nat String).run
      [.acquire 1 "y", .acquire 1 "x", .acquire 2 "y", .acquire 2 "x", .remove 1]).map (·.1)
      = .ok [.acquired true, .acquired true, .acquired false, .acquired false,
        .removed [2, 2]] := by
    decide +kernel
  rw [hrun] at hanswers
  cases hanswers
  exact ⟨v, r, hrun, hsteps, hshows⟩

end Views

end LockService
