import LockService.Proofs.Core.Effects
import LockService.Proofs.Text.Numerals

/-!
# Refusals leave everything as it was

A request is refused for one of four reasons: its operation has no meaning, it gives up a key that its
sender does not hold, its argument is not a number that a counter can hold, or the exact sum is not.
`Core.Deserves` says when, in terms of who holds which key and of what the counters read; records that
are no requests are refused in any case.

* `Table.release_of_not_holder` — a key that is not held cannot be given up: the table stays the very
  same, both views of it.  The table decides by the stakes of the caller; that these say the same as the
  queue is the agreement of the views.
* `Counters.set_eq_error_iff`, `Counters.incr_eq_error_iff` — when a counter cannot be set or added to.
* `Counters.incrInPlace` — adding as it is done in place, with an entry for the counter made before the
  sum is known.  No entry is left over (`Counters.incrInPlace_eq`): a sum that leaves the range is
  not the sum of zero and a number in range, so there was an entry already.
* **`Core.refused_atomically`** — a request is refused exactly if it deserves to be, and then nothing
  changes and only its sender hears of it.
-/

namespace LockService

open Std (TreeMap)

theorem Operation.eq_name_iff {name : String} {op : Operation} :
    name = op.name ↔ parse? name = some op := by
  refine ⟨fun h => ?_, fun h => (name_of_parse? h).symm⟩
  rw [h, parse?_name]

/-! ## Keys that are not held -/

/-- Whoever does not hold a key leaves the table as it is. -/
theorem Table.release_of_not_holder {ι κ : Type} [Ord ι] [Ord κ] [Std.TransOrd ι] [Std.TransOrd κ]
    [Std.LawfulEqOrd ι] [Std.LawfulEqOrd κ] [DecidableEq ι] [DecidableEq κ] {t : Table ι κ}
    {client : ι} {key : κ} (h : t.views.holder key ≠ some client) :
    t.release client key = (.notHeld, t) := by
  have houtcome : (t.release client key).1 = .notHeld := by
    rw [Table.release_fst]
    exact if_neg h
  have hviews := t.views_release client key
  rw [houtcome] at hviews
  have hsame : (t.release client key).2.views = t.views := by
    unfold Views.release at hviews
    split at hviews
    · split at hviews <;> cases hviews
    · exact (congrArg Prod.snd (Except.ok.inj hviews)).symm
  refine Prod.ext houtcome ?_
  cases hafter : (t.release client key).2 with
  | mk views coherent =>
      rw [hafter] at hsame
      subst hsame
      rfl

/-- The refusal that an answer is, if it is one. -/
def Refusal.of? {α : Type} : Except Refusal α → Option Refusal
  | .error refusal => some refusal
  | .ok _ => none

theorem Refusal.of?_eq_some_iff {α : Type} {answer : Except Refusal α} {refusal : Refusal} :
    Refusal.of? answer = some refusal ↔ answer = .error refusal := by
  cases answer <;> simp [Refusal.of?]

theorem Refusal.of?_eq_none_iff {α : Type} {answer : Except Refusal α} :
    Refusal.of? answer = none ↔ ∃ a, answer = .ok a := by
  cases answer <;> simp [Refusal.of?]

/-! ## Numbers that are refused -/

namespace Counters

variable {counters after : Counters} {name : String} {arg : Option String} {sum : Counter}
  {refusal : Refusal}

theorem set_eq_error_iff :
    counters.set name arg = .error refusal ↔ refusal = .invalidNumber ∧ ∀ n, ¬ Says arg n := by
  rw [← argument?_eq_error_iff]
  unfold set
  split <;> simp_all

theorem set_eq_ok_iff :
    counters.set name arg = .ok after ↔ ∃ n, Says arg n ∧ after = counters.insert name n := by
  simp only [← argument?_eq_ok_iff, set]
  cases argument? arg with
  | error refusal => simp
  | ok n => simp [eq_comm]

theorem incr_eq_ok_iff :
    counters.incr name arg = .ok (sum, after)
      ↔ ∃ n, Says arg n ∧ sum.val = (counters.value name).val + n.val
        ∧ after = counters.insert name sum := by
  simp only [← argument?_eq_ok_iff, incr]
  cases argument? arg with
  | error refusal => simp
  | ok n =>
      simp only [Except.ok.injEq, exists_eq_left', Counter.add?]
      cases hsum : Counter.ofInt? ((counters.value name).val + n.val) with
      | none =>
          simp only [reduceCtorEq, false_iff, not_and]
          intro heq
          rw [← heq, Counter.ofInt?_val] at hsum
          cases hsum
      | some total =>
          have htotal := Counter.val_of_ofInt? hsum
          simp only [Except.ok.injEq, Prod.mk.injEq]
          constructor
          · rintro ⟨rfl, rfl⟩
            exact ⟨htotal, rfl⟩
          · rintro ⟨heq, rfl⟩
            rw [← heq, Counter.ofInt?_val] at hsum
            cases hsum
            exact ⟨rfl, rfl⟩

/-- A counter cannot be added to if there is no number to add, or if the exact sum is out of range. -/
theorem incr_eq_error_iff :
    counters.incr name arg = .error refusal
      ↔ refusal = .invalidNumber ∧ (∀ n, ¬ Says arg n) ∨
        refusal = .overflow ∧ ∃ n, Says arg n ∧
          ¬ (-2 ^ 63 ≤ (counters.value name).val + n.val
            ∧ (counters.value name).val + n.val ≤ 2 ^ 63 - 1) := by
  rw [← argument?_eq_error_iff]
  simp only [← argument?_eq_ok_iff, ← Counter.ofInt?_eq_none_iff, incr]
  cases argument? arg with
  | error found => simp
  | ok n =>
      simp only [Except.ok.injEq, exists_eq_left', Counter.add?]
      cases Counter.ofInt? ((counters.value name).val + n.val) <;> simp [eq_comm]

/-- Adds in place: there is an entry for the counter first, then the sum is stored in it, unless it is
out of range. -/
def incrInPlace (counters : Counters) (name : String) (arg : Option String) :
    Except Refusal Counter × Counters :=
  match argument? arg with
  | .error refusal => (.error refusal, counters)
  | .ok n =>
    let entered := counters.insertIfNew name .zero
    match (value entered name).add? n with
    | none => (.error .overflow, entered)
    | some sum => (.ok sum, entered.insert name sum)

theorem value_insertIfNew (counters : Counters) (name : String) :
    value (counters.insertIfNew name .zero) name = counters.value name := by
  rw [value, value, TreeMap.getD_insertIfNew]
  split
  · next h => rw [TreeMap.getD_eq_fallback h.2]
  · rfl

/-- Only a counter that was set or added to can leave the range. -/
theorem mem_of_add?_eq_none {n : Counter} (h : (counters.value name).add? n = none) :
    name ∈ counters := by
  by_contra hnot
  have hzero : counters.value name = .zero := TreeMap.getD_eq_fallback hnot
  rw [Counter.add?, hzero, Counter.zero, Int.zero_add, Counter.ofInt?_val] at h
  cases h

/-- **Adding in place** comes to the same, and leaves no entry behind when it fails. -/
theorem incrInPlace_eq (counters : Counters) (name : String) (arg : Option String) :
    (counters.incrInPlace name arg).1 = (counters.incr name arg).map (·.1) ∧
      ∀ k : String, (counters.incrInPlace name arg).2[k]?
        = (((counters.incr name arg).toOption.map (·.2)).getD counters)[k]? := by
  unfold incrInPlace incr
  cases argument? arg with
  | error refusal => exact ⟨rfl, fun _ => rfl⟩
  | ok n =>
      simp only [value_insertIfNew]
      cases hsum : (counters.value name).add? n with
      | none =>
          refine ⟨rfl, fun k => ?_⟩
          show (counters.insertIfNew name .zero)[k]? = counters[k]?
          rw [TreeMap.getElem?_insertIfNew, if_neg fun h => h.2 (mem_of_add?_eq_none hsum)]
      | some sum =>
          refine ⟨rfl, fun k => ?_⟩
          show ((counters.insertIfNew name .zero).insert name sum)[k]? = (counters.insert name sum)[k]?
          rw [TreeMap.getElem?_insert, TreeMap.getElem?_insert, TreeMap.getElem?_insertIfNew]
          split
          · rfl
          · next hne => rw [if_neg fun h => hne h.1]

end Counters

namespace Core

variable {ρ : Type}

/-! ## Who is refused -/

/-- Why an operation is refused, if it is, by the answers of the table and of the counters. -/
def operationRefusal? (core : Core ρ) (sender : ConnectionId) (target : String)
    (arg : Option String) : Operation → Option Refusal
  | .lock | .get => none
  | .unlock =>
    if (core.table.release sender target).1 = .notHeld then some .noSuchLock else none
  | .set => Refusal.of? (core.counters.set target arg)
  | .incr => Refusal.of? (core.counters.incr target arg)

/-- Why an envelope is refused, if it is. -/
def refusal? (core : Core ρ) (e : Envelope ρ) : Option Refusal :=
  match e.command with
  | .opening _ | .closing => none
  | .malformed => some .malformed
  | .request r =>
    match Operation.parse? r.op with
    | none => some .unknownOperation
    | some op => core.operationRefusal? e.sender r.target r.arg op

theorem refusal?_request (core : Core ρ) (sender : ConnectionId) (r : Request) :
    core.refusal? ⟨sender, .request r⟩
      = match Operation.parse? r.op with
        | none => some .unknownOperation
        | some op => core.operationRefusal? sender r.target r.arg op := rfl

/-- Whether a request deserves a refusal: its operation is none of the known ones, it gives up a key
that somebody else or nobody holds, it sets or adds something that is not a number of 64 bits with its
sign, or it adds a number and the exact sum is out of range. -/
def Deserves (core : Core ρ) (sender : ConnectionId) (r : Request) : Refusal → Prop
  | .unknownOperation => ∀ op : Operation, r.op ≠ op.name
  | .noSuchLock => r.op = Operation.unlock.name ∧ core.holder r.target ≠ some sender
  | .invalidNumber =>
    (r.op = Operation.set.name ∨ r.op = Operation.incr.name) ∧ ∀ n, ¬ Counters.Says r.arg n
  | .overflow =>
    r.op = Operation.incr.name ∧ ∃ n, Counters.Says r.arg n ∧
      ¬ (-2 ^ 63 ≤ (core.counters.value r.target).val + n.val
        ∧ (core.counters.value r.target).val + n.val ≤ 2 ^ 63 - 1)
  | .malformed => False

theorem release_eq_notHeld_iff {core : Core ρ} {sender : ConnectionId} {key : String} :
    (core.table.release sender key).1 = .notHeld ↔ core.holder key ≠ some sender := by
  constructor
  · intro h hheld
    replace hheld : (core.table.views.queue key).head? = some sender := hheld
    rw [Table.release_fst, if_pos hheld] at h
    cases hwaiters : (core.table.views.queue key).tail <;> rw [hwaiters] at h <;> cases h
  · intro h
    rw [Table.release_of_not_holder h]

/-- **A request is refused exactly if it deserves it.** -/
theorem refusal?_eq_some_iff {core : Core ρ} {sender : ConnectionId} {r : Request}
    {refusal : Refusal} :
    core.refusal? ⟨sender, .request r⟩ = some refusal ↔ core.Deserves sender r refusal := by
  have hname : ∀ op, r.op = Operation.name op ↔ Operation.parse? r.op = some op :=
    fun op => Operation.eq_name_iff
  rw [refusal?_request]
  cases hop : Operation.parse? r.op with
  | none => cases refusal <;> simp [Deserves, hname, hop]
  | some op =>
      show core.operationRefusal? sender r.target r.arg op = some refusal ↔ _
      cases op with
      | lock => cases refusal <;> simp [operationRefusal?, Deserves, hname, hop]
      | get => cases refusal <;> simp [operationRefusal?, Deserves, hname, hop]
      | unlock =>
          simp only [operationRefusal?, release_eq_notHeld_iff]
          cases refusal <;> simp [Deserves, hname, hop]
      | set =>
          rw [operationRefusal?, Refusal.of?_eq_some_iff, Counters.set_eq_error_iff]
          cases refusal <;> simp [Deserves, hname, hop]
      | incr =>
          rw [operationRefusal?, Refusal.of?_eq_some_iff, Counters.incr_eq_error_iff]
          cases refusal <;> simp [Deserves, hname, hop]

/-! ## What a refusal does -/

/-- An operation that is refused changes nothing, and its sender is told. -/
theorem perform_of_refusal {core : Core ρ} {sender : ConnectionId} {target : String}
    {arg : Option String} {op : Operation} {refusal : Refusal}
    (h : core.operationRefusal? sender target arg op = some refusal) :
    core.perform sender target arg op = (core.refuse sender refusal, core) := by
  cases op with
  | lock => cases h
  | get => cases h
  | unlock =>
      simp only [operationRefusal?, release_eq_notHeld_iff] at h
      split at h
      · next hnot =>
        cases h
        show core.unlock sender target = _
        rw [unlock, Table.release_of_not_holder hnot]
      · cases h
  | set =>
      rw [operationRefusal?, Refusal.of?_eq_some_iff] at h
      rw [perform, h]
  | incr =>
      rw [operationRefusal?, Refusal.of?_eq_some_iff] at h
      rw [perform, h]

/-- **What is refused changes nothing but the number of envelopes**, and its sender is told. -/
theorem handle_of_refusal {core : Core ρ} {e : Envelope ρ} {refusal : Refusal}
    (h : core.refusal? e = some refusal) :
    core.handle e
      = (core.refuse e.sender refusal, { core with processed := core.processed + 1 }) := by
  obtain ⟨sender, command⟩ := e
  have hexecute : core.execute sender command = (core.refuse sender refusal, core) := by
    cases command with
    | opening replier => cases h
    | closing => cases h
    | malformed =>
        cases h
        rfl
    | request r =>
        show core.request sender r = _
        rw [refusal?_request] at h
        rw [request]
        cases hop : Operation.parse? r.op with
        | none =>
            rw [hop] at h
            cases h
            rfl
        | some op =>
            rw [hop] at h
            exact perform_of_refusal h
  rw [handle, hexecute]

/-- Whether all replies among some messages say that a request succeeded. -/
def AllOk (sent : List (Delivery ρ)) : Prop :=
  ∀ d ∈ sent, ∀ reply, d.message = .reply reply → reply.status = .ok

theorem allOk_reply (core : Core ρ) (receiver : ConnectionId) {reply : Reply}
    (h : reply.status = .ok) : AllOk (core.reply receiver reply) := by
  intro d hd found hfound
  obtain ⟨-, -, hmessage⟩ := mem_send_iff.mp hd
  cases hmessage.symm.trans hfound
  exact h

theorem allOk_append {sent more : List (Delivery ρ)} (h : AllOk sent) (h' : AllOk more) :
    AllOk (sent ++ more) :=
  fun d hd => (List.mem_append.mp hd).elim (h d) (h' d)

theorem allOk_nil : AllOk ([] : List (Delivery ρ)) :=
  fun _ hd => absurd hd List.not_mem_nil

theorem allOk_flatMap_reply (core : Core ρ) (cs : List ConnectionId) :
    AllOk (cs.flatMap (core.reply · .ok)) := by
  intro d hd
  obtain ⟨c, -, hc⟩ := List.mem_flatMap.mp hd
  exact core.allOk_reply c rfl d hc

theorem allOk_perform {core : Core ρ} {sender : ConnectionId} {target : String}
    {arg : Option String} {op : Operation}
    (h : core.operationRefusal? sender target arg op = none) :
    AllOk (core.perform sender target arg op).1 := by
  cases op with
  | lock =>
      show AllOk (core.lock sender target).1
      rw [lock_fst]
      split
      · exact allOk_reply _ _ rfl
      · exact allOk_nil
  | unlock =>
      have hheld : core.holder target = some sender := by
        simpa [operationRefusal?, release_eq_notHeld_iff] using h
      show AllOk (core.unlock sender target).1
      rw [unlock_fst, if_pos hheld]
      exact allOk_append (allOk_reply _ _ rfl) (allOk_flatMap_reply _ _)
  | get => exact allOk_reply _ _ rfl
  | set =>
      rw [operationRefusal?, Refusal.of?_eq_none_iff] at h
      obtain ⟨counters, hok⟩ := h
      rw [perform, hok]
      exact allOk_reply _ _ rfl
  | incr =>
      rw [operationRefusal?, Refusal.of?_eq_none_iff] at h
      obtain ⟨⟨sum, counters⟩, hok⟩ := h
      rw [perform, hok]
      exact allOk_reply _ _ rfl

/-- Nothing that is not refused causes a refusal. -/
theorem allOk_of_refusal? {core : Core ρ} {e : Envelope ρ} (h : core.refusal? e = none) :
    AllOk (core.handle e).1 := by
  obtain ⟨sender, command⟩ := e
  cases command with
  | opening replier => exact allOk_nil
  | closing =>
      refine allOk_append (fun d hd reply hreply => ?_) (allOk_flatMap_reply _ _)
      obtain ⟨-, -, hmessage⟩ := mem_send_iff.mp hd
      cases hmessage.symm.trans hreply
  | malformed => cases h
  | request r =>
      show AllOk (core.request sender r).1
      rw [refusal?_request] at h
      rw [request]
      cases hop : Operation.parse? r.op with
      | none =>
          rw [hop] at h
          cases h
      | some op =>
          rw [hop] at h
          exact allOk_perform h

theorem refuse_eq (core : Core ρ) (receiver : ConnectionId) (refusal : Refusal) :
    core.refuse receiver refusal = core.repliers[receiver]?.toList.map fun replier =>
      ⟨receiver, replier, .reply ⟨.ko, some refusal.message, none⟩⟩ := by
  rw [refuse, reply_eq]
  cases core.repliers[receiver]? <;> rfl

/-- **Refusals are atomic.**  Let a connection send a request to a core in any state.

* The request is refused exactly if it deserves it, and for the reason for which it does.
* Then the table, the counters and the repliers are as before, and nobody hears anything but the sender,
  who is told the reason once if it can be reached.
* A request that does not deserve a refusal causes none.
* A record that is no request is refused in the same way.
* If a counter is added to in place, with an entry made for it before the sum is known, then the answer
  and the counters are the same, so no entry is left behind by a sum that is refused. -/
theorem refused_atomically (core : Core ρ) (sender : ConnectionId) (r : Request) :
    (∀ refusal, core.refusal? ⟨sender, .request r⟩ = some refusal ↔ core.Deserves sender r refusal) ∧
    (∀ refusal, core.Deserves sender r refusal → core.handle ⟨sender, .request r⟩
      = (core.repliers[sender]?.toList.map fun replier =>
          ⟨sender, replier, .reply ⟨.ko, some refusal.message, none⟩⟩,
        { core with processed := core.processed + 1 })) ∧
    ((∀ refusal, ¬ core.Deserves sender r refusal) →
      ∀ d ∈ (core.handle ⟨sender, .request r⟩).1, ∀ reply, d.message = .reply reply →
        reply.status = .ok) ∧
    core.handle ⟨sender, .malformed⟩
      = (core.repliers[sender]?.toList.map fun replier =>
          ⟨sender, replier, .reply ⟨.ko, some Refusal.malformed.message, none⟩⟩,
        { core with processed := core.processed + 1 }) ∧
    (core.counters.incrInPlace r.target r.arg).1 = (core.counters.incr r.target r.arg).map (·.1) ∧
    ∀ name : String, (core.counters.incrInPlace r.target r.arg).2[name]?
      = (((core.counters.incr r.target r.arg).toOption.map (·.2)).getD core.counters)[name]? := by
  refine ⟨fun refusal => refusal?_eq_some_iff, fun refusal h => ?_, fun h => ?_, ?_,
    core.counters.incrInPlace_eq r.target r.arg⟩
  · rw [← refuse_eq]
    exact handle_of_refusal (refusal?_eq_some_iff.mpr h)
  · have hnone : core.refusal? ⟨sender, .request r⟩ = none := by
      rw [Option.eq_none_iff_forall_ne_some]
      exact fun refusal hrefusal => h refusal (refusal?_eq_some_iff.mp hrefusal)
    exact allOk_of_refusal? hnone
  · rw [← refuse_eq]
    exact handle_of_refusal (e := ⟨sender, .malformed⟩) rfl

end Core

end LockService
