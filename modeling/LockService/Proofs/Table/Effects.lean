import LockService.Proofs.Table.Agreement
import Mathlib.Data.List.Sort
import Mathlib.Data.Set.Card

/-!
# What each operation of a table does

The operations walk through queues and stakes; what comes of them can be said on the queues alone.
This file says it once for each operation, for views that agree, and then for `Table`, so that
nothing later has to look at an operation again.

* asking — `Table.acquire_fst`, `Table.queue_acquire`: a client that is not yet in the queue joins
  it at its end.
* giving up — `Table.release_fst`, `Table.queue_release`: the front leaves if it is the caller.
* leaving — `Table.queue_remove`: the client is struck out of *every* queue, although the operation
  only goes through the client's own stakes.
* `Views.heirs` — who is promoted by a client's leaving, and on which key, by ascending key.
* `Table.holder_acquire`, `Table.holder_release`, `Table.holder_remove` — who holds a key afterwards.
-/

namespace LockService

open Std (TreeMap TransOrd LawfulEqOrd)

/-- A queue after a client has asked for its key. -/
def joined {ι : Type} [DecidableEq ι] (queue : List ι) (client : ι) : List ι :=
  if client ∈ queue then queue else queue ++ [client]

/-- How it ends when the front of a queue gives its key up, by those behind it. -/
def Release.ofWaiters {ι : Type} : List ι → Release ι
  | [] => .vacated
  | next :: _ => .promoted next

/-- Asking again changes no queue. -/
theorem joined_of_mem {ι κ : Type} [DecidableEq ι] [DecidableEq κ] (queue : κ → List ι) {client : ι}
    {key : κ} (h : client ∈ queue key) (k : κ) :
    (if key = k then joined (queue key) client else queue k) = queue k := by
  rw [joined, if_pos h]
  split
  · next hk => rw [hk]
  · rfl

/-- Striking out somebody who is not there changes nothing. -/
theorem filter_ne_of_not_mem {ι : Type} [DecidableEq ι] {queue : List ι} {client : ι}
    (h : client ∉ queue) : queue.filter (· ≠ client) = queue := by
  refine List.filter_eq_self.mpr fun c hc => ?_
  have hne : c ≠ client := by
    rintro rfl
    exact h hc
  simpa using hne

/-- A client at the front of a queue that lists nobody twice leaves just the others. -/
theorem filter_cons_of_nodup {ι : Type} [DecidableEq ι] {front : ι} {rest : List ι}
    (hnd : (front :: rest).Nodup) : (front :: rest).filter (· ≠ front) = rest := by
  rw [List.filter_cons_of_neg (by simp), filter_ne_of_not_mem (List.nodup_cons.mp hnd).1]

namespace Views

variable {ι κ : Type} [Ord ι] [Ord κ]

/-! ## Who is registered -/

section Registered

variable [TransOrd ι] [LawfulEqOrd ι]

theorem isRegistered_register {v : Views ι κ} {client c : ι} :
    (v.register client).isRegistered c ↔ client = c ∨ v.isRegistered c := by
  simp only [isRegistered, register, Std.TreeMap.contains_insertIfNew, Bool.or_eq_true, beq_iff_eq,
    Std.LawfulEqCmp.compare_eq_iff_eq]

theorem isRegistered_setStake {v : Views ι κ} {client c : ι} {key : κ} {s : Stake} :
    (v.setStake client key s).isRegistered c ↔ client = c ∨ v.isRegistered c := by
  simp only [isRegistered, setStake, Std.TreeMap.contains_insert, Bool.or_eq_true, beq_iff_eq,
    Std.LawfulEqCmp.compare_eq_iff_eq]

theorem isRegistered_dropStake {v : Views ι κ} {client c : ι} {key : κ} :
    (v.dropStake client key).isRegistered c ↔ v.isRegistered c := by
  unfold dropStake
  split
  · exact Iff.rfl
  · next mine h =>
      simp only [isRegistered, Std.TreeMap.contains_insert, Bool.or_eq_true, beq_iff_eq,
        Std.LawfulEqCmp.compare_eq_iff_eq, or_iff_right_iff_imp]
      rintro rfl
      rw [Std.TreeMap.contains_eq_isSome_getElem?, h, Option.isSome_some]

theorem isRegistered_eraseClient {v : Views ι κ} {client c : ι} :
    ({ v with stakes := v.stakes.erase client } : Views ι κ).isRegistered c
      ↔ client ≠ c ∧ v.isRegistered c := by
  simp only [isRegistered, Std.TreeMap.contains_erase, Bool.and_eq_true, bne_iff_ne, ne_eq,
    Std.LawfulEqCmp.compare_eq_iff_eq]

end Registered

theorem isRegistered_withdraw [DecidableEq ι] {v : Views ι κ} {client c : ι} {key : κ} :
    (v.withdraw client key).isRegistered c ↔ v.isRegistered c := by
  unfold withdraw
  split
  · exact Iff.rfl
  · split <;> exact Iff.rfl

/-- Whoever but the leaving client is queued is registered, also in the middle of its leaving. -/
theorem CoherentBut.isRegistered [TransOrd ι] [DecidableEq ι] [DecidableEq κ] {client : ι}
    {ahead : List (κ × Stake)} {v : Views ι κ} (hv : CoherentBut client ahead v) {c : ι} {key : κ}
    (hc : c ≠ client) (h : c ∈ v.queue key) : v.isRegistered c := by
  have hstake : v.stake c key ≠ none := by
    rw [hv.others c hc]
    exact fun hnone => standing_eq_none_iff.mp hnone h
  exact isRegistered_of_stake hstake

/-! ## The queues after one edit -/

@[simp]
theorem queue_register (v : Views ι κ) (client : ι) (key : κ) :
    (v.register client).queue key = v.queue key := rfl

section Queues

variable [TransOrd κ] [LawfulEqOrd κ] [DecidableEq κ]

theorem queue_insert (v : Views ι κ) (k key : κ) (queue : List ι) :
    ({ v with queues := v.queues.insert k queue } : Views ι κ).queue key
      = if k = key then queue else v.queue key := by
  simp only [Views.queue, Std.TreeMap.getD_insert, Std.LawfulEqCmp.compare_eq_iff_eq]

theorem queue_erase (v : Views ι κ) (k key : κ) :
    ({ v with queues := v.queues.erase k } : Views ι κ).queue key
      = if k = key then [] else v.queue key := by
  simp only [Views.queue, Std.TreeMap.getD_erase, Std.LawfulEqCmp.compare_eq_iff_eq]

theorem queue_withdraw [DecidableEq ι] (v : Views ι κ) (client : ι) (key k : κ) :
    (v.withdraw client key).queue k
      = if key = k then (v.queue key).filter (· ≠ client) else v.queue k := by
  unfold Views.withdraw
  split
  · next h =>
      have hq : v.queue key = [] := by rw [queue_eq, h]; rfl
      rw [hq]
      split
      · next hk => rw [← hk, hq]; rfl
      · rfl
  · next queue h =>
      have hq : v.queue key = queue := by rw [queue_eq, h]; rfl
      rw [hq]
      split
      · next hnil => rw [queue_erase, hnil]
      · next rest => rw [queue_insert]

end Queues

/-! ## Who is promoted -/

/-- What a leaving client passes on with one of its stakes: the key and the next in line. -/
def heir? (v : Views ι κ) (entry : κ × Stake) : Option (κ × ι) :=
  if entry.2 = .holding then (v.waiters entry.1).head?.map (entry.1, ·) else none

/-- The keys that pass on when a client leaves, each with its next holder, by ascending key. -/
def heirs (v : Views ι κ) (client : ι) : List (κ × ι) :=
  (v.stakes.getD client ∅).toList.filterMap v.heir?

theorem heir?_eq_some_iff {v : Views ι κ} {entry : κ × Stake} {key : κ} {next : ι} :
    v.heir? entry = some (key, next)
      ↔ entry = (key, .holding) ∧ (v.waiters key).head? = some next := by
  obtain ⟨k, s⟩ := entry
  simp only [heir?]
  constructor
  · intro h
    split at h
    · next hs =>
        obtain ⟨n, hn, heq⟩ := Option.map_eq_some_iff.mp h
        cases heq
        exact ⟨by rw [← hs], hn⟩
    · cases h
  · rintro ⟨heq, hn⟩
    cases heq
    rw [if_pos rfl, hn]
    rfl

/-- After one round of the walk the other keys look as before, so the rest of it is the same. -/
theorem walk_of_struck [DecidableEq ι] [DecidableEq κ] {client : ι} {key : κ}
    {ahead : List (κ × Stake)} {v u : Views ι κ} (hkey : key ∉ ahead.map (·.1))
    (hu : ∀ k, u.queue k
      = if key = k then (v.queue key).filter (· ≠ client) else v.queue k) :
    ahead.filterMap u.heir? = ahead.filterMap v.heir? ∧
    ∀ k, (if k ∈ ahead.map (·.1) then (u.queue k).filter (· ≠ client) else u.queue k)
      = if k ∈ key :: ahead.map (·.1) then (v.queue k).filter (· ≠ client) else v.queue k := by
  constructor
  · refine List.filterMap_congr ?_
    intro other hother
    have hne : key ≠ other.1 := by
      rintro rfl
      exact hkey (List.mem_map_of_mem hother)
    rw [heir?, heir?, waiters, waiters, hu, if_neg hne]
  · intro k
    by_cases hk : key = k
    · subst hk
      rw [if_neg hkey, if_pos List.mem_cons_self, hu, if_pos rfl]
    · rw [hu, if_neg hk]
      simp only [List.mem_cons, Ne.symm hk, false_or]

section Heirs

variable [TransOrd κ]

/-- The keys that pass on come in ascending order. -/
theorem pairwise_heirs (v : Views ι κ) (client : ι) :
    (v.heirs client).Pairwise (compare ·.1 ·.1 = .lt) := by
  rw [heirs]
  refine List.Pairwise.filterMap _ ?_ Std.TreeMap.ordered_keys_toList
  rintro ⟨k, s⟩ ⟨k', s'⟩ hlt ⟨j, n⟩ hj ⟨j', n'⟩ hj'
  cases (heir?_eq_some_iff.mp hj).1
  cases (heir?_eq_some_iff.mp hj').1
  exact hlt

variable [LawfulEqOrd κ]

/-- Two lists in ascending order of their keys are the same if they have the same entries. -/
theorem eq_of_ascending {α : Type} {l l' : List (κ × α)} (h : l.Pairwise (compare ·.1 ·.1 = .lt))
    (h' : l'.Pairwise (compare ·.1 ·.1 = .lt)) (hmem : ∀ entry, entry ∈ l ↔ entry ∈ l') : l = l' := by
  have hirrefl : Std.Irrefl fun a b : κ × α => compare a.1 b.1 = .lt :=
    ⟨fun a hlt => by rw [Std.ReflOrd.compare_self] at hlt; cases hlt⟩
  have hantisymm : Std.Antisymm fun a b : κ × α => compare a.1 b.1 = .lt :=
    ⟨fun a b hab hba => absurd hab (by rw [Std.OrientedOrd.eq_swap, hba]; decide)⟩
  exact h.eq_of_mem_iff h' hmem

variable [TransOrd ι]

/-- A client's stakes, one after the other. -/
theorem mem_toList_stakes_iff {v : Views ι κ} {client : ι} {key : κ} {s : Stake} :
    (key, s) ∈ (v.stakes.getD client ∅).toList ↔ v.stake client key = some s := by
  rw [Std.TreeMap.mem_toList_iff_getElem?_eq_some, stake, Std.TreeMap.getD_eq_getD_getElem?]
  cases v.stakes[client]? <;> simp

variable [DecidableEq ι]

/-- That a client has no stake of some kind can be found out by going through its stakes. -/
theorem Coherent.any_stake_eq_false_iff {v : Views ι κ} (hv : v.Coherent) {client : ι} {s : Stake} :
    (v.stakes.getD client ∅).toList.any (·.2 = s) = false
      ↔ ∀ key, standing (v.queue key) client ≠ some s := by
  rw [List.any_eq_false]
  constructor
  · intro h key hkey
    rw [← hv.stake_eq, ← mem_toList_stakes_iff] at hkey
    exact h _ hkey (decide_eq_true rfl)
  · rintro h ⟨key, stake⟩ hmem hstake
    obtain rfl : stake = s := of_decide_eq_true hstake
    exact h key (by rwa [← hv.stake_eq, ← mem_toList_stakes_iff])

/-- Exactly the keys that the client holds and another one waits for are passed on. -/
theorem Coherent.mem_heirs_iff {v : Views ι κ} (hv : v.Coherent) {client next : ι} {key : κ} :
    (key, next) ∈ v.heirs client ↔ ∃ rest, v.queue key = client :: next :: rest := by
  rw [heirs, List.mem_filterMap]
  constructor
  · rintro ⟨entry, hentry, hheir⟩
    obtain ⟨rfl, hnext⟩ := heir?_eq_some_iff.mp hheir
    rw [mem_toList_stakes_iff, hv.stake_eq, standing_eq_holding_iff] at hentry
    rw [waiters] at hnext
    obtain ⟨rest, hqueue⟩ := List.head?_eq_some_iff.mp hentry
    rw [hqueue, List.tail_cons] at hnext
    obtain ⟨rest', rfl⟩ := List.head?_eq_some_iff.mp hnext
    exact ⟨rest', hqueue⟩
  · rintro ⟨rest, hqueue⟩
    refine ⟨(key, .holding), ?_, heir?_eq_some_iff.mpr ⟨rfl, by rw [waiters, hqueue]; rfl⟩⟩
    rw [mem_toList_stakes_iff, hv.stake_eq, standing_eq_holding_iff, hqueue]
    rfl

theorem Coherent.mem_heirs_iff_holder {v : Views ι κ} (hv : v.Coherent) {client next : ι} {key : κ} :
    (key, next) ∈ v.heirs client
      ↔ v.holder key = some client ∧ (v.waiters key).head? = some next := by
  rw [hv.mem_heirs_iff, holder, waiters]
  constructor
  · rintro ⟨rest, hqueue⟩
    rw [hqueue]
    exact ⟨rfl, rfl⟩
  · rintro ⟨hhead, hnext⟩
    obtain ⟨rest, hqueue⟩ := List.head?_eq_some_iff.mp hhead
    rw [hqueue, List.tail_cons] at hnext
    obtain ⟨rest', rfl⟩ := List.head?_eq_some_iff.mp hnext
    exact ⟨rest', hqueue⟩

end Heirs

variable [TransOrd ι] [TransOrd κ] [LawfulEqOrd ι] [LawfulEqOrd κ] [DecidableEq ι] [DecidableEq κ]

/-! ## Asking -/

/-- **Asking for a key.**  It is granted to whoever finds it free or holds it already, and whoever
is not in the queue joins it. -/
theorem Coherent.acquire_effect {v : Views ι κ} (hv : v.Coherent) (client : ι) (key : κ) :
    ((v.acquire client key).1 = true ↔ v.queue key = [] ∨ (v.queue key).head? = some client) ∧
    (∀ k, (v.acquire client key).2.queue k
      = if key = k then joined (v.queue key) client else v.queue k) ∧
    (∀ c, (v.acquire client key).2.isRegistered c ↔ client = c ∨ v.isRegistered c) := by
  have hr := coherent_register hv client
  have hreg : ∀ c, (v.register client).isRegistered c ↔ client = c ∨ v.isRegistered c :=
    fun c => isRegistered_register
  simp only [acquire]
  split
  · next h =>
      have hq : v.queue key = [] := by rw [← queue_register v client, queue_eq, h]; rfl
      refine ⟨by simp [hq], ?_, ?_⟩
      · intro k
        rw [queue_setStake, queue_insert, queue_register, hq]
        rfl
      · intro c
        rw [isRegistered_setStake]
        show client = c ∨ (v.register client).isRegistered c ↔ _
        rw [hreg, or_self_left]
  · next queue h =>
      have hq : v.queue key = queue := by rw [← queue_register v client, queue_eq, h]; rfl
      have hne : queue ≠ [] := fun h' => hr.ne_nil key (h' ▸ h)
      split
      · next hfront =>
          have hmem : client ∈ queue := List.mem_of_head? hfront
          exact ⟨by simp [hq, hfront], fun k => (joined_of_mem v.queue (hq ▸ hmem) k).symm, hreg⟩
      · next hfront =>
          split
          · next hstake =>
              have hmem : client ∈ queue := by
                rw [hr.stake_eq, queue_register, hq] at hstake
                by_contra hnot
                simp [standing_eq_none_iff.mpr hnot] at hstake
              exact ⟨by simp [hq, hne, hfront],
                fun k => (joined_of_mem v.queue (hq ▸ hmem) k).symm, hreg⟩
          · next hstake =>
              have hnot : client ∉ queue := by
                rwa [hr.stake_eq, queue_register, hq, standing_eq_none_iff] at hstake
              refine ⟨by simp [hq, hne, hfront], ?_, ?_⟩
              · intro k
                rw [queue_setStake, queue_insert, queue_register, hq, joined, if_neg hnot]
              · intro c
                rw [isRegistered_setStake]
                show client = c ∨ (v.register client).isRegistered c ↔ _
                rw [hreg, or_self_left]

/-! ## Giving up -/

/-- Passing a key on takes the front off its queue and registers nobody but the next in line. -/
theorem passOn_effect {v w : Views ι κ} {client : ι} {key : κ} {next : Option ι}
    (h : v.passOn client key = .ok (next, w)) :
    (∃ rest, v.queue key = client :: rest ∧ next = rest.head? ∧
      ∀ k, w.queue k = if key = k then rest else v.queue k) ∧
    ∀ c, w.isRegistered c ↔ next = some c ∨ v.isRegistered c := by
  unfold passOn at h
  split at h
  · cases h
  · cases h
  · next front rest hq =>
      split at h
      · next hfront =>
          have hqueue : v.queue key = client :: rest := by rw [queue_eq, hq, hfront]; rfl
          split at h
          · cases h
            refine ⟨⟨[], hqueue, rfl, fun k => queue_erase v key k⟩, fun c => ?_⟩
            simp [isRegistered]
          · next heir rest =>
              cases h
              refine ⟨⟨heir :: rest, hqueue, rfl, fun k => ?_⟩, fun c => ?_⟩
              · rw [queue_setStake, queue_insert]
              · rw [isRegistered_setStake, Option.some.injEq, eq_comm]
                rfl
      · cases h

/-- **Giving a key up.**  If the caller is in front it leaves the queue; otherwise nothing changes. -/
theorem Coherent.release_effect {v w : Views ι κ} (hv : v.Coherent) {client : ι} {key : κ}
    {outcome : Release ι} (h : v.release client key = .ok (outcome, w)) :
    (outcome = if (v.queue key).head? = some client then .ofWaiters (v.queue key).tail
      else .notHeld) ∧
    (∀ k, w.queue k = if key = k ∧ (v.queue key).head? = some client then (v.queue key).tail
      else v.queue k) ∧
    (∀ c, w.isRegistered c ↔ v.isRegistered c) := by
  have hheld : v.queues.contains key ∧ v.stake client key = some .holding
      ↔ (v.queue key).head? = some client := by
    rw [hv.stake_eq, standing_eq_holding_iff, and_iff_right_iff_imp]
    intro hfront
    rw [Std.TreeMap.contains_eq_isSome_getElem?]
    by_contra hnone
    rw [Option.not_isSome_iff_eq_none] at hnone
    rw [queue_eq, hnone] at hfront
    cases hfront
  unfold release at h
  split at h
  · next hcond =>
      have hfront := hheld.mp hcond
      have hstep : ∃ next u, (v.dropStake client key).passOn client key = .ok (next, u) ∧
          w = u ∧ outcome = next.elim .vacated .promoted := by
        split at h
        · cases h
        · next hpass => cases h; exact ⟨_, _, hpass, rfl, rfl⟩
        · next hpass => cases h; exact ⟨_, _, hpass, rfl, rfl⟩
      obtain ⟨next, u, hpass, rfl, rfl⟩ := hstep
      obtain ⟨⟨rest, hqueue, rfl, hafter⟩, hreg⟩ := passOn_effect hpass
      rw [queue_dropStake] at hqueue
      refine ⟨?_, ?_, ?_⟩
      · rw [hqueue]
        cases rest <;> simp [Release.ofWaiters]
      · intro k
        rw [hafter, hqueue, queue_dropStake]
        simp
      · intro c
        rw [hreg, isRegistered_dropStake, or_iff_right_iff_imp]
        intro hc
        exact hv.isRegistered (hqueue ▸ List.mem_cons_of_mem _ (List.mem_of_head? hc))
  · next hcond =>
      cases h
      have hfront : (v.queue key).head? ≠ some client := fun h' => hcond (hheld.mpr h')
      refine ⟨by rw [if_neg hfront], fun k => ?_, fun c => Iff.rfl⟩
      rw [if_neg (fun h' => hfront h'.2)]

/-! ## Leaving -/

/-- **The walk through a leaving client's stakes.**  It strikes the client out of the queues it
comes by and promotes the next in line of each that the client held. -/
theorem CoherentBut.settleStakes_effect {client : ι} {ahead : List (κ × Stake)} {v w : Views ι κ}
    {promoted : List ι} (hv : CoherentBut client ahead v)
    (h : settleStakes client ahead v = .ok (promoted, w)) :
    promoted = (ahead.filterMap v.heir?).map (·.2) ∧
    (∀ k, w.queue k = if k ∈ ahead.map (·.1) then (v.queue k).filter (· ≠ client) else v.queue k) ∧
    (∀ c, w.isRegistered c ↔ v.isRegistered c) := by
  induction ahead generalizing v promoted with
  | nil =>
      cases h
      simp
  | cons entry ahead ih =>
      obtain ⟨key, stake⟩ := entry
      have hkey : key ∉ ahead.map (·.1) := (List.nodup_cons.mp hv.distinct).1
      cases stake with
      | waiting =>
          obtain ⟨hpromoted, hqueue, hreg⟩ := ih hv.withdraw h
          obtain ⟨hheirs, hqueues⟩ := walk_of_struck hkey (queue_withdraw v client key)
          refine ⟨?_, ?_, ?_⟩
          · rw [hpromoted, hheirs]
            rfl
          · intro k
            rw [hqueue, hqueues]
            rfl
          · intro c
            rw [hreg, isRegistered_withdraw]
      | holding =>
          obtain ⟨u, hpass, hu⟩ := hv.exists_passOn
          obtain ⟨⟨rest, hfront, hnext, hafter⟩, hmore⟩ := passOn_effect hpass
          have hnd : (client :: rest).Nodup := hfront ▸ hv.nodup key
          have hstruck : (v.queue key).filter (· ≠ client) = rest := by
            rw [hfront, filter_cons_of_nodup hnd]
          simp only [settleStakes, hpass] at h
          split at h
          · cases h
          · next others x hsettle =>
              cases h
              obtain ⟨hpromoted, hqueue, hreg⟩ := ih hu hsettle
              obtain ⟨hheirs, hqueues⟩ := walk_of_struck hkey (hstruck ▸ hafter)
              refine ⟨?_, ?_, ?_⟩
              · rw [hpromoted, hheirs, List.filterMap_cons, heir?, if_pos rfl]
                cases (v.waiters key).head? <;> rfl
              · intro k
                rw [hqueue, hqueues]
                rfl
              · intro c
                rw [hreg, hmore, or_iff_right_iff_imp, hnext]
                intro hc
                have hmem : c ∈ rest := List.mem_of_head? hc
                have hne : c ≠ client := by
                  rintro rfl
                  exact (List.nodup_cons.mp hnd).1 hmem
                exact hv.isRegistered hne (hfront ▸ List.mem_cons_of_mem _ hmem)

/-- **Leaving.**  The client is struck out of every queue and forgotten, and the next in line of
each key that it held is promoted. -/
theorem Coherent.remove_effect {v w : Views ι κ} (hv : v.Coherent) {client : ι} {promoted : List ι}
    (h : v.remove client = .ok (promoted, w)) :
    promoted = (v.heirs client).map (·.2) ∧
    (∀ k, w.queue k = (v.queue k).filter (· ≠ client)) ∧
    (∀ c, w.isRegistered c ↔ client ≠ c ∧ v.isRegistered c) := by
  unfold remove at h
  split at h
  · next hnone =>
      cases h
      have hout : ∀ k, client ∉ v.queue k := by
        intro k
        rw [← standing_eq_none_iff, ← hv.stake_eq, stake, hnone]
        rfl
      refine ⟨?_, ?_, ?_⟩
      · rw [heirs, Std.TreeMap.getD_eq_getD_getElem?, hnone]
        rfl
      · intro k
        rw [filter_ne_of_not_mem (hout k)]
      · intro c
        have hgone : v.isRegistered client = false := by
          rw [Views.isRegistered, Std.TreeMap.contains_eq_isSome_getElem?, hnone]
          rfl
        rw [iff_and_self]
        rintro hc rfl
        exact Bool.noConfusion (hgone.symm.trans hc)
  · next mine hmine =>
      have hbut := hv.coherentBut_erase hmine
      obtain ⟨hpromoted, hqueue, hreg⟩ := hbut.settleStakes_effect h
      refine ⟨?_, ?_, ?_⟩
      · rw [hpromoted, heirs, Std.TreeMap.getD_eq_getD_getElem?, hmine]
        rfl
      · intro k
        rw [hqueue]
        split
        · rfl
        · next hk =>
            have hown := hbut.own k
            rw [if_neg hk, stake_eraseClient, if_pos rfl, eq_comm, standing_eq_none_iff] at hown
            exact (filter_ne_of_not_mem hown).symm
      · intro c
        rw [hreg, isRegistered_eraseClient]

end Views

/-! ## Tables

On a table the two views always agree, so the effects need no assumption.
-/

namespace Table

variable {ι κ : Type} [Ord ι] [Ord κ] [DecidableEq ι]

/-- The next in line is not the holder. -/
theorem next_ne_holder {t : Table ι κ} {key : κ} {holder next : ι}
    (hholder : t.views.holder key = some holder)
    (hnext : (t.views.waiters key).head? = some next) : next ≠ holder := by
  rw [Views.holder] at hholder
  obtain ⟨rest, hqueue⟩ := List.head?_eq_some_iff.mp hholder
  rw [Views.waiters, hqueue, List.tail_cons] at hnext
  have hnd : (holder :: rest).Nodup := hqueue ▸ t.coherent.nodup key
  rintro rfl
  exact (List.nodup_cons.mp hnd).1 (List.mem_of_head? hnext)

variable [TransOrd ι] [TransOrd κ] [LawfulEqOrd ι] [LawfulEqOrd κ] [DecidableEq κ]
variable (t : Table ι κ) (client : ι) (key : κ)

theorem acquire_fst : (t.acquire client key).1 = true
    ↔ t.views.queue key = [] ∨ (t.views.queue key).head? = some client :=
  (t.coherent.acquire_effect client key).1

theorem queue_acquire (k : κ) : (t.acquire client key).2.views.queue k
    = if key = k then joined (t.views.queue key) client else t.views.queue k :=
  (t.coherent.acquire_effect client key).2.1 k

theorem isRegistered_acquire (c : ι) : (t.acquire client key).2.views.isRegistered c
    ↔ client = c ∨ t.views.isRegistered c :=
  (t.coherent.acquire_effect client key).2.2 c

theorem release_fst : (t.release client key).1
    = if (t.views.queue key).head? = some client then .ofWaiters (t.views.queue key).tail
      else .notHeld :=
  (t.coherent.release_effect (t.views_release client key)).1

theorem queue_release (k : κ) : (t.release client key).2.views.queue k
    = if key = k ∧ (t.views.queue key).head? = some client then (t.views.queue key).tail
      else t.views.queue k :=
  (t.coherent.release_effect (t.views_release client key)).2.1 k

theorem isRegistered_release (c : ι) : (t.release client key).2.views.isRegistered c
    ↔ t.views.isRegistered c :=
  (t.coherent.release_effect (t.views_release client key)).2.2 c

theorem remove_fst : (t.remove client).1 = (t.views.heirs client).map (·.2) :=
  (t.coherent.remove_effect (t.views_remove client)).1

theorem queue_remove (k : κ) :
    (t.remove client).2.views.queue k = (t.views.queue k).filter (· ≠ client) :=
  (t.coherent.remove_effect (t.views_remove client)).2.1 k

theorem isRegistered_remove (c : ι) : (t.remove client).2.views.isRegistered c
    ↔ client ≠ c ∧ t.views.isRegistered c :=
  (t.coherent.remove_effect (t.views_remove client)).2.2 c

/-! ## Who holds a key afterwards -/

/-- Asking gives a key to nobody but the caller, and only if it was free. -/
theorem holder_acquire (k : κ) : (t.acquire client key).2.views.holder k
    = if key = k ∧ t.views.queue key = [] then some client else t.views.holder k := by
  rw [Views.holder, queue_acquire, Views.holder]
  by_cases hk : key = k
  · subst hk
    rw [if_pos rfl, joined]
    cases hqueue : t.views.queue key with
    | nil => simp
    | cons front rest => split <;> simp
  · rw [if_neg hk, if_neg (fun h => hk h.1)]

/-- Giving up hands a key that the caller holds to the next in line. -/
theorem holder_release (k : κ) : (t.release client key).2.views.holder k
    = if key = k ∧ t.views.holder key = some client then (t.views.waiters key).head?
      else t.views.holder k := by
  simp only [Views.holder, Views.waiters, queue_release]
  exact apply_ite List.head? _ _ _

/-- Leaving hands every key that the client holds to the next in line. -/
theorem holder_remove (k : κ) : (t.remove client).2.views.holder k
    = if t.views.holder k = some client then (t.views.waiters k).head?
      else t.views.holder k := by
  rw [Views.holder, queue_remove, Views.waiters, Views.holder]
  cases hqueue : t.views.queue k with
  | nil => rfl
  | cons front rest =>
      have hnd : (front :: rest).Nodup := hqueue ▸ t.coherent.nodup k
      by_cases hfront : front = client
      · subst hfront
        rw [filter_cons_of_nodup hnd]
        simp
      · simp [hfront]

end Table

end LockService
