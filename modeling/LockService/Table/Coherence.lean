import LockService.Table.Views

/-!
# The two views agree

A queue alone determines what every client has at stake on its key: the front holds, the others
wait, and nobody else has a stake (`standing`).  The views agree — `Views.Coherent` — when the
recorded stakes are exactly these, no stored queue is empty and none lists a client twice.

* `Views.coherent_register`, `Views.coherent_acquire` — the two operations that cannot fail keep
  the agreement.
* `Views.exists_release`, `Views.exists_remove` — on coherent views the operations that check the
  agreement find nothing wrong, and what they leave is coherent again.

The loop of `Views.remove` is the hard case.  It starts by dropping all that the leaving client
has recorded and then repairs one queue after the other, so between two rounds the views *do*
disagree, but only about the leaving client and only on the keys still ahead: that is
`Views.CoherentBut`, which every round keeps and which is plain coherence when nothing is left.

`LockService.Table.Basic` bundles coherent views as `Table`, on which all operations are total.
-/

namespace LockService

open Std (TreeMap TransOrd LawfulEqOrd)

section Standing

variable {ι : Type} [DecidableEq ι]

/-- What a queue gives a client: the front holds, everybody behind waits. -/
def standing : List ι → ι → Option Stake
  | [], _ => none
  | front :: rest, client =>
    if client = front then some .holding else if client ∈ rest then some .waiting else none

/-- Exactly the clients in the queue have a stake. -/
theorem standing_eq_none_iff {queue : List ι} {client : ι} :
    standing queue client = none ↔ client ∉ queue := by
  cases queue with
  | nil => simp [standing]
  | cons front rest => simp only [standing, List.mem_cons]; split <;> simp_all

/-- Exactly the front holds. -/
theorem standing_eq_holding_iff {queue : List ι} {client : ι} :
    standing queue client = some .holding ↔ queue.head? = some client := by
  cases queue with
  | nil => simp [standing]
  | cons front rest => simp only [standing, List.head?_cons]; split <;> simp_all [eq_comm]

/-- Exactly those behind the front wait, if nobody is there twice. -/
theorem standing_eq_waiting_iff {queue : List ι} {client : ι} (hnd : queue.Nodup) :
    standing queue client = some .waiting ↔ client ∈ queue.tail := by
  cases queue with
  | nil => simp [standing]
  | cons front rest =>
    have hfront : front ∉ rest := (List.nodup_cons.mp hnd).1
    simp only [standing, List.tail_cons]
    split
    · next h => subst h; simp [hfront]
    · split <;> simp_all

/-- Joining a queue that is not empty is waiting, and changes nobody else's standing. -/
theorem standing_append {queue : List ι} {newcomer client : ι} (hne : queue ≠ [])
    (hnew : newcomer ∉ queue) :
    standing (queue ++ [newcomer]) client
      = if client = newcomer then some .waiting else standing queue client := by
  cases queue with
  | nil => exact absurd rfl hne
  | cons front rest =>
    simp only [List.mem_cons, not_or] at hnew
    simp only [List.cons_append, standing, List.mem_append, List.mem_singleton]
    grind

/-- When the holder goes, the next in line holds and everybody else keeps their standing. -/
theorem standing_tail {front next client : ι} {rest : List ι} (hc : client ≠ front) :
    standing (next :: rest) client
      = if client = next then some .holding else standing (front :: next :: rest) client := by
  simp only [standing, List.mem_cons]
  grind

/-- When a waiter goes, everybody else keeps their standing. -/
theorem standing_filter {queue : List ι} {gone client : ι}
    (hgone : standing queue gone = some .waiting) (hc : client ≠ gone) :
    standing (queue.filter (· ≠ gone)) client = standing queue client := by
  cases queue with
  | nil => rfl
  | cons front rest =>
    have hfront : front ≠ gone := by
      rintro rfl
      simp [standing] at hgone
    simp [standing, hfront, List.mem_filter, hc]

end Standing

namespace Views

variable {ι κ : Type} [Ord ι] [Ord κ]

/-! ## The views after one edit -/

@[simp]
theorem queue_setStake (v : Views ι κ) (client : ι) (k key : κ) (s : Stake) :
    (v.setStake client k s).queue key = v.queue key := rfl

@[simp]
theorem queues_setStake (v : Views ι κ) (client : ι) (k : κ) (s : Stake) :
    (v.setStake client k s).queues = v.queues := rfl

@[simp]
theorem queues_dropStake (v : Views ι κ) (client : ι) (k : κ) :
    (v.dropStake client k).queues = v.queues := by
  unfold dropStake
  split <;> rfl

@[simp]
theorem queue_dropStake (v : Views ι κ) (client : ι) (k key : κ) :
    (v.dropStake client k).queue key = v.queue key := by
  simp [queue]

theorem queue_eq [TransOrd κ] (v : Views ι κ) (key : κ) :
    v.queue key = (v.queues[key]?).getD [] := by
  rw [Views.queue, Std.TreeMap.getD_eq_getD_getElem?]

/-- A key without a queue is free. -/
theorem queue_eq_nil_iff [TransOrd κ] {v : Views ι κ}
    (hv : ∀ key : κ, v.queues[key]? ≠ some []) {key : κ} :
    v.queue key = [] ↔ v.queues[key]? = none := by
  rw [queue_eq]
  cases h : v.queues[key]? with
  | none => simp
  | some queue =>
    have := hv key
    simp_all

/-! ## Agreement -/

variable [DecidableEq ι]

/-- The views agree: every stored queue has a holder and lists nobody twice, and the recorded
stakes are the ones the queues give. -/
structure Coherent (v : Views ι κ) : Prop where
  ne_nil : ∀ key : κ, v.queues[key]? ≠ some []
  nodup : ∀ key : κ, (v.queue key).Nodup
  stake_eq : ∀ client key, v.stake client key = standing (v.queue key) client

theorem coherent_empty [TransOrd ι] [TransOrd κ] : ({} : Views ι κ).Coherent where
  ne_nil key := by simp
  nodup key := by simp [queue]
  stake_eq client key := by simp [stake, queue, standing]

/-! ## Agreement but for one client

Releasing and removing first drop what a client has recorded and then repair the queues.  In between
the views disagree, but only about that client and only on the keys `ahead` of the repair.
-/

section Repair

variable [DecidableEq κ]

/-- The views agree except about `client` on the keys of `ahead`: nothing is recorded there, while
the queues still give the client the listed stakes. -/
structure CoherentBut (client : ι) (ahead : List (κ × Stake)) (v : Views ι κ) : Prop where
  ne_nil : ∀ key : κ, v.queues[key]? ≠ some []
  nodup : ∀ key : κ, (v.queue key).Nodup
  others : ∀ c, c ≠ client → ∀ key, v.stake c key = standing (v.queue key) c
  own : ∀ key, v.stake client key
    = if key ∈ ahead.map (·.1) then none else standing (v.queue key) client
  listed : ∀ entry ∈ ahead, standing (v.queue entry.1) client = some entry.2
  distinct : (ahead.map (·.1)).Nodup

/-- With nothing ahead the views agree. -/
theorem CoherentBut.coherent {client : ι} {v : Views ι κ} (hv : CoherentBut client [] v) :
    v.Coherent where
  ne_nil := hv.ne_nil
  nodup := hv.nodup
  stake_eq c key := by
    by_cases hc : c = client
    · subst hc; simpa using hv.own key
    · exact hv.others c hc key

variable [TransOrd κ]

/-- Storing one queue is coherent when the stakes recorded for its key follow it and all others
stay. -/
theorem Coherent.of_queue {v w : Views ι κ} (hv : v.Coherent) (k : κ) (queue : List ι)
    (hqueues : ∀ key : κ, w.queues[key]? = if k = key then some queue else v.queues[key]?)
    (hne : queue ≠ []) (hnd : queue.Nodup)
    (hstake : ∀ client key, w.stake client key
      = if k = key then standing queue client else v.stake client key) : w.Coherent where
  ne_nil key := by
    rw [hqueues]
    split
    · simpa using hne
    · exact hv.ne_nil key
  nodup key := by
    rw [queue_eq, hqueues]
    split
    · exact hnd
    · rw [← queue_eq]; exact hv.nodup key
  stake_eq client key := by
    rw [hstake, queue_eq, hqueues]
    split
    · rfl
    · rw [← queue_eq]; exact hv.stake_eq client key

/-- **One repair.**  Storing a queue without the client for the first key ahead, with the others'
stakes on that key following it, leaves one disagreement fewer. -/
theorem CoherentBut.repair {client : ι} {key : κ} {stake : Stake} {ahead : List (κ × Stake)}
    {v w : Views ι κ} (hv : CoherentBut client ((key, stake) :: ahead) v)
    (queue : Option (List ι))
    (hqueues : ∀ k : κ, w.queues[k]? = if key = k then queue else v.queues[k]?)
    (hne : queue ≠ some []) (hnd : (queue.getD []).Nodup) (hgone : client ∉ queue.getD [])
    (hstakes : ∀ c k, w.stake c k
      = if c ≠ client ∧ key = k then standing (queue.getD []) c else v.stake c k) :
    CoherentBut client ahead w := by
  have hdist := List.nodup_cons.mp hv.distinct
  have hqueue : ∀ k, w.queue k = if key = k then queue.getD [] else v.queue k := by
    intro k
    rw [queue_eq, hqueues, queue_eq]
    split <;> rfl
  constructor
  case ne_nil =>
    intro k
    rw [hqueues]
    split
    · exact hne
    · exact hv.ne_nil k
  case nodup =>
    intro k
    rw [hqueue]
    split
    · exact hnd
    · exact hv.nodup k
  case others =>
    intro c hc k
    rw [hqueue, hstakes, hv.others c hc]
    by_cases hk : key = k <;> simp [hc, hk]
  case own =>
    intro k
    rw [hqueue, hstakes, hv.own]
    by_cases hk : key = k
    · subst hk; simp [standing_eq_none_iff.mpr hgone]
    · simp only [hk, if_false, and_false, List.map_cons, List.mem_cons, Ne.symm hk, false_or]
  case listed =>
    intro entry hentry
    have hk : key ≠ entry.1 := by
      rintro rfl
      exact hdist.1 (List.mem_map_of_mem (f := (·.1)) hentry)
    rw [hqueue, if_neg hk]
    exact hv.listed entry (List.mem_cons_of_mem _ hentry)
  case distinct => exact hdist.2

variable [LawfulEqOrd κ]

/-- Striking a waiter out of a queue repairs the awaited key in front. -/
theorem CoherentBut.withdraw {client : ι} {key : κ} {ahead : List (κ × Stake)}
    {v : Views ι κ} (hv : CoherentBut client ((key, .waiting) :: ahead) v) :
    CoherentBut client ahead (v.withdraw client key) := by
  have hwait : standing (v.queue key) client = some .waiting := hv.listed _ List.mem_cons_self
  obtain ⟨queue, hq⟩ : ∃ queue, v.queues[key]? = some queue := by
    cases h : v.queues[key]? with
    | none => rw [queue_eq, h] at hwait; simp [standing] at hwait
    | some queue => exact ⟨queue, rfl⟩
  have hqueue : v.queue key = queue := by rw [queue_eq, hq]; rfl
  rw [hqueue] at hwait
  have hrest : queue.filter (· ≠ client) ≠ [] := by
    intro h
    cases queue with
    | nil => simp [standing] at hwait
    | cons front rest =>
      have hfront : front = client := by simpa using List.filter_eq_nil_iff.mp h front
      simp [standing, ← hfront] at hwait
  have hw : v.withdraw client key
      = { v with queues := v.queues.insert key (queue.filter (· ≠ client)) } := by
    simp only [Views.withdraw, hq]
  rw [hw]
  refine hv.repair (some (queue.filter (· ≠ client))) ?_ (by simpa using hrest)
    ((hqueue ▸ hv.nodup key).filter _) (by simp) ?_
  · intro k
    simp only [Std.TreeMap.getElem?_insert, Std.LawfulEqCmp.compare_eq_iff_eq]
  · intro c k
    show v.stake c k = _
    split
    · next h =>
      obtain ⟨hc, rfl⟩ := h
      rw [hv.others c hc, hqueue, Option.getD_some, standing_filter hwait hc]
    · rfl

end Repair

/-! ## Forgetting a client, and making one known -/

variable [TransOrd ι] [LawfulEqOrd ι]

/-- Dropping a client's whole entry drops each of its stakes and nobody else's. -/
theorem stake_eraseClient (v : Views ι κ) (c client : ι) (key : κ) :
    ({ v with stakes := v.stakes.erase c } : Views ι κ).stake client key
      = if c = client then none else v.stake client key := by
  simp only [stake, Std.TreeMap.getElem?_erase, Std.LawfulEqCmp.compare_eq_iff_eq]
  split <;> rfl

variable [TransOrd κ]

@[simp]
theorem stake_register (v : Views ι κ) (c client : ι) (key : κ) :
    (v.register c).stake client key = v.stake client key := by
  simp only [stake, register, Std.TreeMap.getElem?_insertIfNew, Std.LawfulEqCmp.compare_eq_iff_eq]
  split
  · next h =>
    obtain ⟨rfl, h⟩ := h
    simp [Std.TreeMap.getElem?_eq_none h]
  · rfl

theorem coherent_register {v : Views ι κ} (hv : v.Coherent) (client : ι) :
    (v.register client).Coherent where
  ne_nil key := hv.ne_nil key
  nodup key := hv.nodup key
  stake_eq c key := by
    rw [stake_register]
    exact hv.stake_eq c key

/-! ## Recording and dropping a stake -/

variable [LawfulEqOrd κ] [DecidableEq κ]

theorem stake_setStake (v : Views ι κ) (c client : ι) (k key : κ) (s : Stake) :
    (v.setStake c k s).stake client key
      = if c = client ∧ k = key then some s else v.stake client key := by
  simp only [stake, setStake, Std.TreeMap.getElem?_insert, Std.LawfulEqCmp.compare_eq_iff_eq]
  by_cases hc : c = client
  · subst hc
    simp only [if_true, Option.bind_some, Std.TreeMap.getElem?_insert,
      Std.LawfulEqCmp.compare_eq_iff_eq, true_and, Std.TreeMap.getD_eq_getD_getElem?]
    split
    · rfl
    · cases v.stakes[c]? <;> simp
  · simp [hc]

theorem stake_dropStake (v : Views ι κ) (c client : ι) (k key : κ) :
    (v.dropStake c k).stake client key
      = if c = client ∧ k = key then none else v.stake client key := by
  unfold dropStake
  split
  · next h =>
    by_cases hc : c = client
    · subst hc; simp [stake, h]
    · simp [hc]
  · next mine h =>
    simp only [stake, Std.TreeMap.getElem?_insert, Std.LawfulEqCmp.compare_eq_iff_eq]
    by_cases hc : c = client
    · subst hc
      simp only [if_true, Option.bind_some, Std.TreeMap.getElem?_erase,
        Std.LawfulEqCmp.compare_eq_iff_eq, true_and, h]
    · simp [hc]

/-! ## Acquiring -/

theorem coherent_acquire {v : Views ι κ} (hv : v.Coherent) (client : ι) (key : κ) :
    (v.acquire client key).2.Coherent := by
  have hr := coherent_register hv client
  simp only [acquire]
  split
  · next h =>
    have hq : (v.register client).queue key = [] := by rw [queue_eq, h]; rfl
    refine hr.of_queue key [client] ?_ (by simp) (by simp) ?_
    · intro k
      simp [setStake, Std.TreeMap.getElem?_insert]
    · intro c k
      simp only [stake_setStake]
      show (if client = c ∧ key = k then _ else (v.register client).stake c k) = _
      by_cases hk : key = k
      · subst hk
        simp only [and_true, if_true, hr.stake_eq, hq, standing, List.not_mem_nil, if_false]
        simp only [eq_comm]
      · simp [hk]
  · next queue h =>
    have hq : (v.register client).queue key = queue := by rw [queue_eq, h]; rfl
    split
    · exact hr
    · split
      · exact hr
      · next hnone =>
        rw [hr.stake_eq, hq, standing_eq_none_iff] at hnone
        have hne : queue ≠ [] := fun h' => hr.ne_nil key (h' ▸ h)
        refine hr.of_queue key (queue ++ [client]) ?_ (by simp) ?_ ?_
        · intro k
          simp [setStake, Std.TreeMap.getElem?_insert]
        · have := hr.nodup key
          rw [hq] at this
          grind
        · intro c k
          simp only [stake_setStake]
          show (if client = c ∧ key = k then _ else (v.register client).stake c k) = _
          by_cases hk : key = k
          · subst hk
            simp only [and_true, if_true, hr.stake_eq, hq, standing_append hne hnone]
            simp only [eq_comm]
          · simp [hk]

/-! ## Releasing and removing -/

/-- Giving a key up starts by dropping one held stake. -/
theorem Coherent.coherentBut_dropStake {v : Views ι κ} (hv : v.Coherent) {client : ι} {key : κ}
    (hheld : v.stake client key = some .holding) :
    CoherentBut client [(key, .holding)] (v.dropStake client key) where
  ne_nil k := by simpa using hv.ne_nil k
  nodup k := by simpa using hv.nodup k
  others c hc k := by
    rw [stake_dropStake, if_neg (fun h => hc h.1.symm), queue_dropStake, hv.stake_eq]
  own k := by
    rw [stake_dropStake, queue_dropStake, ← hv.stake_eq]
    simp [eq_comm]
  listed entry hentry := by
    obtain rfl := List.mem_singleton.mp hentry
    simpa [hv.stake_eq] using hheld
  distinct := by simp

/-- Leaving starts by dropping everything the client has recorded. -/
theorem Coherent.coherentBut_erase {v : Views ι κ} (hv : v.Coherent) {client : ι}
    {mine : TreeMap κ Stake} (hmine : v.stakes[client]? = some mine) :
    CoherentBut client mine.toList { v with stakes := v.stakes.erase client } where
  ne_nil := hv.ne_nil
  nodup := hv.nodup
  others c hc key := by
    rw [stake_eraseClient, if_neg (Ne.symm hc), hv.stake_eq]
    rfl
  own key := by
    rw [stake_eraseClient, if_pos rfl]
    split
    · rfl
    · next hkey =>
      have : mine[key]? = none := by
        refine Std.TreeMap.getElem?_eq_none ?_
        simpa [Std.TreeMap.map_fst_toList_eq_keys] using hkey
      show none = standing (v.queue key) client
      rw [← hv.stake_eq, stake, hmine, Option.bind_some, this]
  listed entry hentry := by
    have := Std.TreeMap.mem_toList_iff_getElem?_eq_some.mp hentry
    show standing (v.queue entry.1) client = _
    rw [← hv.stake_eq, stake, hmine, Option.bind_some, this]
  distinct := by
    rw [Std.TreeMap.map_fst_toList_eq_keys]
    exact Std.TreeMap.nodup_keys

/-- Taking the holder off a queue repairs the held key in front. -/
theorem CoherentBut.exists_passOn {client : ι} {key : κ} {ahead : List (κ × Stake)}
    {v : Views ι κ} (hv : CoherentBut client ((key, .holding) :: ahead) v) :
    ∃ w, v.passOn client key = .ok ((v.waiters key).head?, w) ∧ CoherentBut client ahead w := by
  have hfront := standing_eq_holding_iff.mp (hv.listed _ List.mem_cons_self)
  have hown : v.stake client key = none := by rw [hv.own, if_pos (by simp)]
  obtain ⟨rest, hq⟩ : ∃ rest, v.queues[key]? = some (client :: rest) := by
    rw [queue_eq] at hfront
    cases h : v.queues[key]? with
    | none => simp [h] at hfront
    | some queue =>
      cases queue with
      | nil => simp [h] at hfront
      | cons front rest =>
        simp only [h, Option.getD_some, List.head?_cons, Option.some.injEq] at hfront
        exact ⟨rest, by rw [hfront]⟩
  have hqueue : v.queue key = client :: rest := by rw [queue_eq, hq]; rfl
  have hnd : (client :: rest).Nodup := hqueue ▸ hv.nodup key
  cases rest with
  | nil =>
    refine ⟨{ v with queues := v.queues.erase key }, by simp [passOn, hq, waiters, hqueue], ?_⟩
    refine hv.repair none ?_ (by simp) (by simp) (by simp) ?_
    · intro k
      simp only [Std.TreeMap.getElem?_erase, Std.LawfulEqCmp.compare_eq_iff_eq]
    · intro c k
      show v.stake c k = _
      split
      · next h =>
        obtain ⟨hc, rfl⟩ := h
        rw [hv.others c hc, hqueue]
        simp [standing, hc]
      · rfl
  | cons next rest =>
    refine ⟨{ v with queues := v.queues.insert key (next :: rest) }.setStake next key .holding,
      by simp [passOn, hq, waiters, hqueue], ?_⟩
    have hnext : next ≠ client := by
      rintro rfl
      simp at hnd
    refine hv.repair (some (next :: rest)) ?_ (by simp) (List.nodup_cons.mp hnd).2
      (List.nodup_cons.mp hnd).1 ?_
    · intro k
      simp only [queues_setStake, Std.TreeMap.getElem?_insert, Std.LawfulEqCmp.compare_eq_iff_eq]
    · intro c k
      rw [stake_setStake]
      show (if next = c ∧ key = k then some Stake.holding else v.stake c k) = _
      by_cases hk : key = k
      · subst hk
        by_cases hc : c = client
        · subst hc; simp [hnext]
        · simp only [ne_eq, hc, not_false_eq_true, and_self, and_true, if_true]
          rw [Option.getD_some, standing_tail hc, hv.others c hc, hqueue]
          simp only [eq_comm]
      · simp [hk]

/-- The walk through a leaving client's stakes never finds a disagreement, however far it has come:
what is left to disagree about are the stakes still ahead. -/
theorem CoherentBut.exists_settleStakes {client : ι} {settled ahead : List (κ × Stake)}
    {v : Views ι κ} (hv : CoherentBut client (settled ++ ahead) v) :
    ∃ promoted w, settleStakes client settled v = .ok (promoted, w) ∧ CoherentBut client ahead w := by
  induction settled generalizing v with
  | nil => exact ⟨[], v, rfl, hv⟩
  | cons entry settled ih =>
    obtain ⟨key, stake⟩ := entry
    cases stake with
    | holding =>
      obtain ⟨w, hpass, hw⟩ := hv.exists_passOn
      obtain ⟨promoted, u, hsettle, hu⟩ := ih hw
      exact ⟨(v.waiters key).head?.toList ++ promoted, u,
        by simp only [settleStakes, hpass, hsettle], hu⟩
    | waiting => exact ih hv.withdraw

theorem exists_release {v : Views ι κ} (hv : v.Coherent) (client : ι) (key : κ) :
    ∃ outcome w, v.release client key = .ok (outcome, w) ∧ w.Coherent := by
  unfold release
  split
  · next h =>
    obtain ⟨w, hpass, hw⟩ := (hv.coherentBut_dropStake h.2).exists_passOn
    rw [hpass]
    cases ((v.dropStake client key).waiters key).head? with
    | none => exact ⟨_, w, rfl, hw.coherent⟩
    | some next => exact ⟨_, w, rfl, hw.coherent⟩
  · exact ⟨_, v, rfl, hv⟩

theorem exists_remove {v : Views ι κ} (hv : v.Coherent) (client : ι) :
    ∃ promoted w, v.remove client = .ok (promoted, w) ∧ w.Coherent := by
  unfold remove
  split
  · exact ⟨_, v, rfl, hv⟩
  · next mine hmine =>
    have hbut := hv.coherentBut_erase hmine
    rw [← List.append_nil mine.toList] at hbut
    obtain ⟨promoted, w, hsettle, hw⟩ := hbut.exists_settleStakes
    exact ⟨promoted, w, hsettle, hw.coherent⟩

end Views

end LockService
