import Mathlib.Tactic.Ring
import LockService.Proofs.Core.Orderly

/-!
# Replies balance requests

A client that sends many requests at once has nothing but the number of replies to tell which is
answered.  Most requests are answered in the step that handles them.  A lock request that has to wait
is answered in a step of somebody else, and one that repeats a request still waiting is not answered
at all.  So for an open connection, at any time,

  replies + keys awaited + repetitions = requests,

counted from its opening (`Core.replies_balance`).

* `Core.awaited` — the keys that a connection waits for.
* `Core.repetitions` — how many lock requests of a connection found it waiting for the same key.
* `Core.balance_handle_of_ne` — one step of somebody else: every key that ceases to be awaited is
  announced.
* `Core.balance_handle_self` — one step of its own: the request is answered, or awaited, or repeated.
-/

namespace LockService

open Std (TreeMap)

/-- Whether a command is something that a reply is due for: a request, or a record that is none. -/
def Command.wantsReply {ρ : Type} : Command ρ → Bool
  | .request _ | .malformed => true
  | .opening _ | .closing => false

namespace Core

variable {ρ : Type}

/-- The keys that a connection waits for. -/
def awaited (core : Core ρ) (c : ConnectionId) : Set String :=
  {key | c ∈ core.table.views.waiters key}

/-- Whether an envelope asks for a key that its sender is waiting for already. -/
def isRepetition (core : Core ρ) (e : Envelope ρ) : Bool :=
  match e.command with
  | .request r => r.op = Operation.lock.name ∧ e.sender ∈ core.table.views.waiters r.target
  | .opening _ | .closing | .malformed => false

/-- How many envelopes of a connection ask for a key that it is waiting for already, if all are
handled one after the other. -/
def repetitions (c : ConnectionId) : List (Envelope ρ) → Core ρ → Nat
  | [], _ => 0
  | e :: rest, core =>
    (if e.sender = c ∧ core.isRepetition e then 1 else 0) + repetitions c rest (core.handle e).2

/-- How many requests a connection has sent, those counted that are none. -/
def requests (c : ConnectionId) (history : List (Envelope ρ)) : Nat :=
  (told c history).countP Command.wantsReply

/-! ## Waiting -/

/-- A connection waits for a key if it is queued and does not hold it. -/
theorem mem_awaited_iff {core : Core ρ} {c : ConnectionId} {key : String} :
    key ∈ core.awaited c ↔ c ∈ core.table.views.queue key ∧ core.holder key ≠ some c := by
  show c ∈ (core.table.views.queue key).tail ↔ _ ∧ (core.table.views.queue key).head? ≠ some c
  have hnd := core.table.coherent.nodup key
  cases hqueue : core.table.views.queue key with
  | nil => simp
  | cons front rest =>
      rw [hqueue] at hnd
      have hfront := (List.nodup_cons.mp hnd).1
      simp only [List.tail_cons, List.mem_cons, List.head?_cons, ne_eq, Option.some.injEq]
      constructor
      · intro hc
        refine ⟨.inr hc, ?_⟩
        rintro rfl
        exact hfront hc
      · rintro ⟨hc | hc, hne⟩
        · exact absurd hc.symm hne
        · exact hc

/-- Who holds a key is queued for it. -/
theorem mem_queue_of_holder {core : Core ρ} {c : ConnectionId} {key : String}
    (h : core.holder key = some c) : c ∈ core.table.views.queue key :=
  List.mem_of_head? h

theorem awaited_congr {core after : Core ρ} (h : after.table = core.table) (c : ConnectionId) :
    after.awaited c = core.awaited c := by
  rw [awaited, awaited, h]

/-- Nobody but its sender joins or leaves a queue with an envelope. -/
theorem mem_queue_handle_of_ne {core : Core ρ} {e : Envelope ρ} {c : ConnectionId}
    (hc : e.sender ≠ c) (key : String) :
    c ∈ (core.handle e).2.table.views.queue key ↔ c ∈ core.table.views.queue key := by
  obtain ⟨sender, command⟩ := e
  replace hc : sender ≠ c := hc
  cases command with
  | opening replier => exact Iff.rfl
  | malformed => exact Iff.rfl
  | closing =>
      show c ∈ (core.table.remove sender).2.views.queue key ↔ _
      rw [Table.queue_remove, List.mem_filter]
      simp [Ne.symm hc]
  | request r =>
      show c ∈ (core.request sender r).2.table.views.queue key ↔ _
      rw [table_request]
      split
      · rw [Table.queue_acquire, joined]
        by_cases hk : r.target = key
        · subst hk
          rw [if_pos rfl]
          split
          · exact Iff.rfl
          · simp [Ne.symm hc]
        · rw [if_neg hk]
      · rw [Table.queue_release]
        split
        · next hheld =>
          obtain ⟨rfl, hheld⟩ := hheld
          obtain ⟨rest, hqueue⟩ := List.head?_eq_some_iff.mp hheld
          rw [hqueue, List.tail_cons, List.mem_cons, or_iff_right (Ne.symm hc)]
        · exact Iff.rfl
      all_goals exact Iff.rfl

/-! ## A step of somebody else -/

theorem count_repliedTo (sent : List (Delivery ρ)) (c : ConnectionId) :
    (repliedTo sent).count c
      = ((sent.filter (·.receiver = c)).filter (·.message ≠ .closed)).length := by
  rw [repliedTo, List.count, List.countP_map, List.countP_filter, List.filter_filter,
    ← List.countP_eq_length_filter]
  refine List.countP_congr fun d _ => ?_
  simp [and_comm]

/-- **One step of somebody else.**  Every key that a connection ceases to wait for is announced to
it, and nothing else. -/
theorem balance_handle_of_ne {core : Core ρ} {e : Envelope ρ} {c : ConnectionId} {replier : ρ}
    (hc : e.sender ≠ c) (hreplier : core.repliers[c]? = some replier) :
    ((repliedTo (core.handle e).1).count c : ℕ∞) + ((core.handle e).2.awaited c).encard
      = (core.awaited c).encard := by
  obtain ⟨own, heirs, h⟩ := handover_handle core e
  obtain ⟨gained, hnd, hgained, hsent⟩ := h.exists_gained (Ne.symm hc) hreplier
  have hcount : (repliedTo (core.handle e).1).count c = gained.length := by
    rw [count_repliedTo, hsent]
    simp
  have hsplit : core.awaited c = {key | key ∈ gained} ∪ (core.handle e).2.awaited c := by
    ext key
    rw [Set.mem_union, Set.mem_ofPred_eq, hgained, mem_awaited_iff, mem_awaited_iff,
      mem_queue_handle_of_ne hc]
    constructor
    · rintro ⟨hqueued, hwaits⟩
      by_cases hheld : (core.handle e).2.holder key = some c
      · exact .inl ⟨hheld, hwaits⟩
      · exact .inr ⟨hqueued, hheld⟩
    · rintro (⟨hheld, hwaits⟩ | ⟨hqueued, hwaits⟩)
      · exact ⟨(mem_queue_handle_of_ne hc key).mp (mem_queue_of_holder hheld), hwaits⟩
      · exact ⟨hqueued, fun hheld =>
          (h.kept key c hheld).elim hwaits fun hgives => hc hgives.1⟩
  have hdisjoint : Disjoint {key | key ∈ gained} ((core.handle e).2.awaited c) := by
    rw [Set.disjoint_left]
    intro key hkey hwaits
    exact (mem_awaited_iff.mp hwaits).2 ((hgained key).mp hkey).1
  have hlength : {key | key ∈ gained}.encard = gained.length := by
    rw [show {key | key ∈ gained} = (gained.toFinset : Set String) by ext; simp,
      Set.encard_coe_eq_coe_finsetCard, List.toFinset_card_of_nodup hnd]
  rw [hsplit, Set.encard_union_eq hdisjoint, hlength, hcount]

/-! ## A step of its own -/

/-- Whoever is open and sends requests only stays open. -/
theorem repliers_handle_of_wantsReply {core : Core ρ} {e : Envelope ρ} {c : ConnectionId}
    (hown : e.sender = c → e.command.wantsReply = true) :
    (core.handle e).2.repliers[c]? = core.repliers[c]? := by
  rw [repliers_handle]
  split
  · next hcommand => exact if_neg fun hc => absurd (hown hc) (by rw [hcommand]; exact nofun)
  · next hcommand => exact if_neg fun hc => absurd (hown hc) (by rw [hcommand]; exact nofun)
  · rfl
  · rfl

theorem isRepetition_request_of_parse? {core : Core ρ} {c : ConnectionId} {r : Request}
    (h : Operation.parse? r.op ≠ some .lock) : core.isRepetition ⟨c, .request r⟩ = false := by
  have hop : r.op ≠ Operation.lock.name := fun hop => h (by rw [hop, Operation.parse?_name])
  simp [isRepetition, hop]

/-- A lock request is answered, or awaited from now on, or was awaited already. -/
theorem balance_lock (core : Core ρ) (c : ConnectionId) (key : String) :
    (((if (core.table.acquire c key).1 then [c] else []).count c : Nat) : ℕ∞)
        + ((core.lock c key).2.awaited c).encard
        + ((if c ∈ core.table.views.waiters key then 1 else 0 : Nat) : ℕ∞)
      = (core.awaited c).encard + 1 := by
  have hmem : ∀ k, k ∈ (core.lock c key).2.awaited c
      ↔ (key = k ∨ c ∈ core.table.views.queue k) ∧
        (if key = k ∧ core.table.views.queue key = [] then some c else core.holder k) ≠ some c := by
    intro k
    rw [mem_awaited_iff, holder_lock]
    show c ∈ (core.table.acquire c key).2.views.queue k ∧ _ ↔ _
    rw [Table.queue_acquire, joined]
    by_cases hk : key = k
    · subst hk
      rw [if_pos rfl]
      split <;> simp_all
    · simp [hk]
  have hgranted := core.table.acquire_fst c key
  have hwaits : c ∈ core.table.views.waiters key
      ↔ c ∈ core.table.views.queue key ∧ core.holder key ≠ some c := mem_awaited_iff
  by_cases hfree : core.table.views.queue key = [] ∨ core.holder key = some c
  · -- granted at once, and not awaited before or after
    have hsame : (core.lock c key).2.awaited c = core.awaited c := by
      ext k
      rw [hmem, mem_awaited_iff]
      by_cases hk : key = k
      · subst hk
        rcases hfree with hnil | hheld
        · simp [hnil]
        · simp [hheld]
      · simp [hk]
    have hnot : c ∉ core.table.views.waiters key := by
      rw [hwaits]
      rcases hfree with hnil | hheld
      · simp [hnil]
      · simp [hheld]
    rw [if_pos (hgranted.mpr hfree), hsame, if_neg hnot]
    simp [add_comm]
  · have hheld : core.holder key ≠ some c := fun h => hfree (.inr h)
    have hbusy : core.table.views.queue key ≠ [] := fun h => hfree (.inl h)
    rw [if_neg (fun h => hfree (hgranted.mp h))]
    by_cases hqueued : c ∈ core.table.views.queue key
    · have hsame : (core.lock c key).2.awaited c = core.awaited c := by
        ext k
        rw [hmem, mem_awaited_iff]
        by_cases hk : key = k
        · subst hk
          simp [hbusy, hqueued]
        · simp [hk]
      rw [hsame, if_pos (hwaits.mpr ⟨hqueued, hheld⟩)]
      simp
    · have hnew : (core.lock c key).2.awaited c = insert key (core.awaited c) := by
        ext k
        rw [hmem, Set.mem_insert_iff, mem_awaited_iff]
        by_cases hk : key = k
        · subst hk
          simp [hbusy, hheld]
        · simp [hk, Ne.symm hk]
      have hnot : key ∉ core.awaited c := fun h => hqueued (mem_awaited_iff.mp h).1
      rw [hnew, Set.encard_insert_of_notMem hnot, if_neg (fun h => hqueued (hwaits.mp h).1)]
      simp

/-- Giving a key up does not change what the caller waits for. -/
theorem awaited_of_release {core after : Core ρ} {c : ConnectionId} {key : String}
    (h : after.table = (core.table.release c key).2) : after.awaited c = core.awaited c := by
  ext k
  show c ∈ (after.table.views.queue k).tail ↔ c ∈ (core.table.views.queue k).tail
  rw [h, Table.queue_release]
  split
  · next hheld =>
    obtain ⟨rfl, hheld⟩ := hheld
    obtain ⟨rest, hqueue⟩ := List.head?_eq_some_iff.mp hheld
    have hnd : (c :: rest).Nodup := hqueue ▸ core.table.coherent.nodup key
    have hnot := (List.nodup_cons.mp hnd).1
    rw [hqueue, List.tail_cons]
    exact ⟨fun h => absurd (List.mem_of_mem_tail h) hnot, fun h => absurd h hnot⟩
  · exact Iff.rfl

/-- Whoever gives a key up is answered once. -/
theorem count_audience_unlock (core : Core ρ) (c : ConnectionId) (key : String) :
    (c :: (core.table.release c key).1.next?.toList).count c = 1 := by
  have hnot : c ∉ (core.table.release c key).1.next?.toList := by
    rw [Option.mem_toList, Table.release_fst]
    split
    · next hheld =>
      obtain ⟨rest, hqueue⟩ := List.head?_eq_some_iff.mp hheld
      have hnd : (c :: rest).Nodup := hqueue ▸ core.table.coherent.nodup key
      rw [hqueue, List.tail_cons]
      cases rest with
      | nil => exact nofun
      | cons next rest =>
          rintro h
          obtain rfl := Option.some.inj h
          simp at hnd
    · exact nofun
  rw [List.count_cons_self, List.count_eq_zero.mpr hnot]

/-- A request other than for a lock, if it is answered once and changes nothing about what is
awaited. -/
theorem balance_of_answered {core : Core ρ} {c : ConnectionId} {r : Request}
    (hop : Operation.parse? r.op ≠ some .lock)
    (hcount : (core.audience ⟨c, .request r⟩).count c = 1)
    (hawaited : (core.request c r).2.awaited c = core.awaited c) :
    (((core.audience ⟨c, .request r⟩).count c : Nat) : ℕ∞)
        + ((core.request c r).2.awaited c).encard
        + ((if core.isRepetition ⟨c, .request r⟩ then 1 else 0 : Nat) : ℕ∞)
      = (core.awaited c).encard + 1 := by
  rw [isRepetition_request_of_parse? hop, hcount, hawaited]
  simp [add_comm]

/-- A request is answered, or awaited from now on, or was awaited already. -/
theorem balance_request (core : Core ρ) (c : ConnectionId) (r : Request) :
    (((core.audience ⟨c, .request r⟩).count c : Nat) : ℕ∞)
        + ((core.request c r).2.awaited c).encard
        + ((if core.isRepetition ⟨c, .request r⟩ then 1 else 0 : Nat) : ℕ∞)
      = (core.awaited c).encard + 1 := by
  have htable := core.table_request c r
  cases hop : Operation.parse? r.op with
  | none =>
      rw [hop] at htable
      exact balance_of_answered (by simp [hop]) (by simp [audience, hop]) (awaited_congr htable c)
  | some op =>
      rw [hop] at htable
      cases op with
      | lock =>
          have hname : r.op = Operation.lock.name := (Operation.name_of_parse? hop).symm
          have hrepeats : (core.isRepetition ⟨c, .request r⟩ = true)
              = (c ∈ core.table.views.waiters r.target) := by
            simp [isRepetition, hname]
          have hafter : (core.request c r).2.table = (core.lock c r.target).2.table := htable
          simp only [hrepeats, audience, hop]
          rw [awaited_congr hafter]
          exact balance_lock core c r.target
      | unlock =>
          refine balance_of_answered (by simp [hop]) ?_ (awaited_of_release htable)
          simp only [audience, hop]
          exact count_audience_unlock core c r.target
      | get => exact balance_of_answered (by simp [hop]) (by simp [audience, hop]) (awaited_congr htable c)
      | set => exact balance_of_answered (by simp [hop]) (by simp [audience, hop]) (awaited_congr htable c)
      | incr => exact balance_of_answered (by simp [hop]) (by simp [audience, hop]) (awaited_congr htable c)

/-- **One step of its own.**  What a connection asks is answered, or awaited from now on, or was
awaited already. -/
theorem balance_handle_self {core : Core ρ} {e : Envelope ρ} (hwants : e.command.wantsReply = true)
    (hreach : core.canReach e.sender = true) :
    ((repliedTo (core.handle e).1).count e.sender : ℕ∞)
        + ((core.handle e).2.awaited e.sender).encard
        + ((if core.isRepetition e then 1 else 0 : Nat) : ℕ∞)
      = (core.awaited e.sender).encard + 1 := by
  have hafter : (core.handle e).2.canReach e.sender = true := by
    rw [canReach_iff] at hreach ⊢
    rwa [repliers_handle_of_wantsReply fun _ => hwants]
  rw [repliedTo_handle, List.count_filter hafter]
  obtain ⟨c, command⟩ := e
  cases command with
  | opening => cases hwants
  | closing => cases hwants
  | malformed =>
      show (([c].count c : Nat) : ℕ∞) + (core.awaited c).encard + ((0 : Nat) : ℕ∞) = _
      simp [add_comm]
  | request r => exact balance_request core c r

/-! ## Runs -/

theorem requests_cons (c : ConnectionId) (e : Envelope ρ) (history : List (Envelope ρ)) :
    requests c (e :: history)
      = (if e.sender = c ∧ e.command.wantsReply then 1 else 0) + requests c history := by
  rw [requests, told_cons, requests]
  by_cases hsender : e.sender = c
  · rw [if_pos hsender, List.countP_cons, Nat.add_comm]
    simp [hsender]
  · simp [hsender]

/-- Whoever is open and sends requests only hears replies only, through its replier. -/
theorem message_ne_closed_of_wantsReply {core : Core ρ} {e : Envelope ρ} {c : ConnectionId}
    (hown : e.sender = c → e.command.wantsReply = true) {d : Delivery ρ}
    (hd : d ∈ (core.handle e).1) (hc : d.receiver = c) : d.message ≠ .closed := by
  by_cases he : e.command = .closing
  · obtain ⟨grants, hsent, hgrants, -⟩ := core.handle_closing he
    rw [hsent] at hd
    rcases List.mem_append.mp hd with hd | hd
    · obtain ⟨hreceiver, -⟩ := mem_send_iff.mp hd
      exact absurd (hown (hreceiver.symm.trans hc)) (by rw [he]; exact nofun)
    · exact (hgrants d hd).2
  · exact (core.allReplies_handle he d hd).2

/-- **One step**, whoever's it is. -/
theorem balance_handle {core : Core ρ} {e : Envelope ρ} {c : ConnectionId} {replier : ρ}
    (hown : e.sender = c → e.command.wantsReply = true)
    (hreplier : core.repliers[c]? = some replier) :
    ((repliedTo (core.handle e).1).count c : ℕ∞) + ((core.handle e).2.awaited c).encard
        + ((if e.sender = c ∧ core.isRepetition e then 1 else 0 : Nat) : ℕ∞)
      = (core.awaited c).encard
        + ((if e.sender = c ∧ e.command.wantsReply then 1 else 0 : Nat) : ℕ∞) := by
  by_cases hc : e.sender = c
  · subst hc
    simpa [hown rfl] using balance_handle_self (hown rfl) (canReach_iff.mpr ⟨replier, hreplier⟩)
  · simpa [hc] using balance_handle_of_ne hc hreplier

/-- A run during which a connection stays open. -/
theorem balance_handleAll {c : ConnectionId} {replier : ρ} {after : List (Envelope ρ)}
    {core : Core ρ} (hown : ∀ e ∈ after, e.sender = c → e.command.wantsReply = true)
    (hreplier : core.repliers[c]? = some replier) :
    (∀ d ∈ (handleAll after core).1, d.receiver = c →
        d.replier = replier ∧ d.message ≠ .closed) ∧
      ((repliedTo (handleAll after core).1).count c : ℕ∞)
          + ((handleAll after core).2.awaited c).encard + (repetitions c after core : ℕ∞)
        = (core.awaited c).encard + (requests c after : ℕ∞) := by
  induction after generalizing core with
  | nil => exact ⟨fun _ h => absurd h List.not_mem_nil, by simp [handleAll, repetitions, requests]⟩
  | cons e after ih =>
      have he := hown e List.mem_cons_self
      have hkept := (repliers_handle_of_wantsReply he).trans hreplier
      obtain ⟨hheard, hbalance⟩ := ih (fun f hf => hown f (List.mem_cons_of_mem _ hf)) hkept
      refine ⟨fun d hd hc => ?_, ?_⟩
      · rcases List.mem_append.mp hd with hd | hd
        · refine ⟨?_, message_ne_closed_of_wantsReply he hd hc⟩
          rw [← hc, replier_of_mem_handle hd] at hreplier
          exact Option.some.inj hreplier
        · exact hheard d hd hc
      · have hstep := balance_handle he hreplier
        show ((repliedTo ((core.handle e).1 ++ (handleAll after (core.handle e).2).1)).count c : ℕ∞)
          + ((handleAll after (core.handle e).2).2.awaited c).encard + _ = _
        rw [repliedTo_append, List.count_append, repetitions, requests_cons]
        push_cast at hstep hbalance ⊢
        calc _ = ((repliedTo (core.handle e).1).count c : ℕ∞)
              + (if e.sender = c ∧ core.isRepetition e = true then 1 else 0)
              + (((repliedTo (handleAll after (core.handle e).2).1).count c : ℕ∞)
                + ((handleAll after (core.handle e).2).2.awaited c).encard
                + (repetitions c after (core.handle e).2 : ℕ∞)) := by ring
          _ = ((repliedTo (core.handle e).1).count c : ℕ∞)
              + ((core.handle e).2.awaited c).encard
              + (if e.sender = c ∧ core.isRepetition e = true then 1 else 0)
              + (requests c after : ℕ∞) := by rw [hbalance]; ring
          _ = _ := by rw [hstep]; ring

/-- Nobody who is just opening waits for anything. -/
theorem awaited_opening {before : List (Envelope ρ)} {c : ConnectionId} {replier : ρ}
    (h : InOrder before ⟨c, .opening replier⟩) :
    ((handleAll before .empty).2.handle ⟨c, .opening replier⟩).2.awaited c = ∅ := by
  rw [Set.eq_empty_iff_forall_notMem]
  intro key hkey
  have hqueued := (handleAll before .empty).2.table.coherent.isRegistered
    (List.mem_of_mem_tail (l := (handleAll before .empty).2.table.views.queue key) hkey)
  exact absurd (hqueued.symm.trans h) nofun

/-- Whoever opened and has not closed since is open. -/
theorem isOpen_of_opening {before after : List (Envelope ρ)} {c : ConnectionId} {replier : ρ}
    (h : ⟨c, .closing⟩ ∉ after) : isOpen c (before ++ ⟨c, .opening replier⟩ :: after) = true := by
  rw [isOpen, told_append, told_cons, if_pos rfl, List.foldl_append, List.foldl_cons]
  exact Command.foldl_leavesOpen fun hmem => h (mem_told_iff.mp hmem)

/-- In an orderly history a connection that is open sends requests only, until it closes. -/
theorem Orderly.wantsReply_of_opening {before after : List (Envelope ρ)} {c : ConnectionId}
    {replier : ρ} (h : Orderly (before ++ ⟨c, .opening replier⟩ :: after))
    (hopen : ⟨c, .closing⟩ ∉ after) {e : Envelope ρ} (he : e ∈ after) (hc : e.sender = c) :
    e.command.wantsReply = true := by
  obtain ⟨earlier, later, rfl⟩ := List.append_of_mem he
  obtain ⟨sender, command⟩ := e
  obtain rfl : sender = c := hc
  rw [← List.cons_append, ← List.append_assoc] at h
  cases command with
  | request => rfl
  | malformed => rfl
  | closing => exact absurd he hopen
  | opening again =>
      have hregistered := h.of_append.isRegistered_eq sender
      have hagain := h _ _ _ rfl
      have hbefore : ⟨sender, .closing⟩ ∉ earlier :=
        fun hmem => hopen (List.mem_append_left _ hmem)
      rw [isOpen_of_opening hbefore] at hregistered
      exact absurd (hregistered.symm.trans hagain) nofun

/-- **Replies balance requests.**  In an orderly history a connection that opened and has not closed
since hears nothing but replies, through the replier that it opened with, and with what it awaits and
what it has repeated they make up what it has sent.  So one that awaits nothing and has repeated
nothing has heard exactly one reply to each request. -/
theorem replies_balance {before after : List (Envelope ρ)} {c : ConnectionId} {replier : ρ}
    (h : Orderly (before ++ ⟨c, .opening replier⟩ :: after)) (hopen : ⟨c, .closing⟩ ∉ after) :
    let opened := (handleAll (before ++ [⟨c, .opening replier⟩]) .empty).2
    let sent := (handleAll after opened).1
    let core := (handleAll after opened).2
    (∀ d ∈ sent, d.receiver = c → d.replier = replier ∧ d.message ≠ .closed) ∧
      ((sent.countP (·.receiver = c) : Nat) : ℕ∞) + (core.awaited c).encard
          + (repetitions c after opened : ℕ∞) = (requests c after : ℕ∞) ∧
      (core.awaited c = ∅ → repetitions c after opened = 0 →
        sent.countP (·.receiver = c) = requests c after) := by
  intro opened sent core
  have hopened : opened = ((handleAll before .empty).2.handle ⟨c, .opening replier⟩).2 := by
    show (handleAll (before ++ [⟨c, .opening replier⟩]) .empty).2 = _
    rw [handleAll_concat]
  have hreplier : opened.repliers[c]? = some replier := by
    rw [hopened, repliers_handle]
    exact if_pos rfl
  obtain ⟨hheard, hbalance⟩ :=
    balance_handleAll (fun e he hc => h.wantsReply_of_opening hopen he hc) hreplier
  rw [hopened, awaited_opening (h _ _ _ rfl), Set.encard_empty, zero_add, ← hopened] at hbalance
  have hcount : sent.countP (·.receiver = c) = (repliedTo sent).count c := by
    rw [repliedTo, List.count, List.countP_map, List.countP_filter]
    refine List.countP_congr fun d hd => ?_
    simp only [Function.comp_apply, beq_iff_eq, decide_eq_true_eq, Bool.and_eq_true]
    exact ⟨fun hc => ⟨hc, (hheard d hd hc).2⟩, And.left⟩
  rw [hcount]
  refine ⟨hheard, hbalance, fun hnone hrepeated => ?_⟩
  rw [show (handleAll after opened).2.awaited c = ∅ from hnone, hrepeated,
    Set.encard_empty] at hbalance
  exact_mod_cast hbalance

/-- For instance the second connection asks for two keys that the first one holds, for one of them
twice, and sends something that is no request.  When it has been given one of the keys it has heard
two replies, it awaits the other key, and it has sent four requests. -/
theorem replies_balance_two_keys :
    let ask (op key : String) : Command Nat := .request ⟨op, key, none⟩
    let before : List (Envelope Nat) :=
      [⟨⟨1⟩, .opening 10⟩, ⟨⟨1⟩, ask "lock" "a"⟩, ⟨⟨1⟩, ask "lock" "b"⟩]
    let after : List (Envelope Nat) :=
      [⟨⟨2⟩, ask "lock" "a"⟩, ⟨⟨2⟩, ask "lock" "a"⟩, ⟨⟨2⟩, ask "lock" "b"⟩, ⟨⟨1⟩, ask "unlock" "a"⟩,
        ⟨⟨2⟩, .malformed⟩]
    let opened := (handleAll (before ++ [⟨⟨2⟩, .opening 20⟩]) .empty).2
    let sent := (handleAll after opened).1
    let core := (handleAll after opened).2
    Orderly (before ++ ⟨⟨2⟩, .opening 20⟩ :: after) ∧ ⟨⟨2⟩, .closing⟩ ∉ after ∧
      sent.countP (·.receiver = ⟨2⟩) = 2 ∧ repetitions ⟨2⟩ after opened = 1 ∧
      requests ⟨2⟩ after = 4 ∧ (core.awaited ⟨2⟩).encard = 1 := by
  have hone : ∀ awaited : ℕ∞, (2 : Nat) + awaited + (1 : Nat) = (4 : Nat) → awaited = 1 := by
    intro awaited h
    cases awaited with
    | top => exact absurd h nofun
    | coe n =>
        norm_cast at h ⊢
        omega
  intro ask before after opened sent core
  have horderly : Orderly (before ++ ⟨⟨2⟩, .opening 20⟩ :: after) := by decide +kernel
  have hopen : ⟨⟨2⟩, .closing⟩ ∉ after := by decide +kernel
  have hsent : sent.countP (·.receiver = ⟨2⟩) = 2 := by decide +kernel
  have hrepeated : repetitions ⟨2⟩ after opened = 1 := by decide +kernel
  have hrequests : requests ⟨2⟩ after = 4 := by decide +kernel
  have hbalance : ((sent.countP (·.receiver = ⟨2⟩) : Nat) : ℕ∞) + (core.awaited ⟨2⟩).encard
      + (repetitions ⟨2⟩ after opened : ℕ∞) = (requests ⟨2⟩ after : ℕ∞) :=
    (replies_balance horderly hopen).2.1
  rw [hsent, hrepeated, hrequests] at hbalance
  exact ⟨horderly, hopen, hsent, hrepeated, hrequests, hone _ hbalance⟩

end Core

end LockService
