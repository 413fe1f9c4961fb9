import Mathlib.Data.List.DropRight
import Mathlib.Algebra.BigOperators.Group.List.Basic
import LockService.Proofs.Core.Refusals

/-!
# Counters are exact

A counter has 64 bits, and whoever adds to it should not have to think of that.  Its value is what exact
integers would give: the number that it was set to last, and what was added since.  Nothing that was
refused counts, and which additions are refused depends on the value at that time, so the value of the
whole and the success of each step are followed together along a history.

* `Change` — what a request did to a counter; `Change.total` is what some changes come to, over unbounded
  integers.
* `Core.changes` — what the requests of a history did to one counter.
* `Core.map_counter?_handle` — one step: a counter is changed by what a request did to it and by nothing
  else.
* **`Core.counters_exact`** — every counter is the total of its changes, and so is every number that is
  told.
-/

namespace LockService

open Std (TreeMap)

/-- A change of a counter: it was set to a number, or a number was added to it. -/
inductive Change
  | set (n : Int)
  | add (n : Int)
deriving DecidableEq, Repr

namespace Change

/-- The number of a change. -/
def amount : Change → Int
  | set n | add n => n

/-- Whether a number was added. -/
def isAddition : Change → Bool
  | set _ => false
  | add _ => true

/-- The number that was set last, zero if none was. -/
def lastSet (changes : List Change) : Int :=
  ((changes.rdropWhile isAddition).getLast?.map amount).getD 0

/-- The numbers that were added since a number was set. -/
def addedSince (changes : List Change) : List Int :=
  (changes.rtakeWhile isAddition).map amount

/-- What some changes come to, one after the other: the number that was set last and the sum of those
that were added since. -/
def total (changes : List Change) : Int :=
  lastSet changes + (addedSince changes).sum

@[simp] theorem total_nil : total [] = 0 := rfl

@[simp] theorem total_concat_set (changes : List Change) (n : Int) :
    total (changes ++ [.set n]) = n := by
  rw [total, lastSet, addedSince, List.rdropWhile_concat, List.rtakeWhile_concat]
  simp [isAddition, amount]

@[simp] theorem total_concat_add (changes : List Change) (n : Int) :
    total (changes ++ [.add n]) = total changes + n := by
  rw [total, total, lastSet, lastSet, addedSince, addedSince, List.rdropWhile_concat,
    List.rtakeWhile_concat]
  simp [isAddition, amount, Int.add_assoc]

end Change

/-- What a request does to the counter that it is about, unless it is refused. -/
def Request.change? (r : Request) : Option Change :=
  match Operation.parse? r.op, Counters.argument? r.arg with
  | some .set, .ok n => some (.set n.val)
  | some .incr, .ok n => some (.add n.val)
  | _, _ => none

theorem Request.change?_eq_some_iff {r : Request} {change : Change} :
    r.change? = some change ↔ ∃ n, Counters.Says r.arg n ∧
      (r.op = Operation.set.name ∧ change = .set n.val ∨
        r.op = Operation.incr.name ∧ change = .add n.val) := by
  have hname : ∀ op, r.op = Operation.name op ↔ Operation.parse? r.op = some op :=
    fun op => Operation.eq_name_iff
  simp only [hname, ← Counters.argument?_eq_ok_iff, Request.change?]
  cases Operation.parse? r.op with
  | none => simp
  | some op => cases op <;> cases Counters.argument? r.arg <;> simp [eq_comm]

namespace Core

variable {ρ : Type}

/-- What an envelope does to a counter, if it does something to it. -/
def change? (core : Core ρ) (name : String) (e : Envelope ρ) : Option Change :=
  match e.command with
  | .request r => if r.target = name ∧ core.refusal? e = none then r.change? else none
  | .opening _ | .closing | .malformed => none

/-- What was done to a counter, if some envelopes are handled one after the other. -/
def changes (name : String) : List (Envelope ρ) → Core ρ → List Change
  | [], _ => []
  | e :: rest, core => (core.change? name e).toList ++ changes name rest (core.handle e).2

theorem changes_concat (name : String) (es : List (Envelope ρ)) (e : Envelope ρ) (core : Core ρ) :
    changes name (es ++ [e]) core
      = changes name es core ++ ((handleAll es core).2.change? name e).toList := by
  induction es generalizing core with
  | nil => exact List.append_nil _
  | cons f es ih =>
      simp only [List.cons_append, changes, handleAll, ih, List.append_assoc]

theorem change?_request (core : Core ρ) (name : String) (sender : ConnectionId) (r : Request) :
    core.change? name ⟨sender, .request r⟩
      = if r.target = name ∧ core.refusal? ⟨sender, .request r⟩ = none then r.change? else none := rfl

/-- **What changes a counter**: a request to set it or to add to it that is not refused. -/
theorem change?_eq_some_iff {core : Core ρ} {name : String} {e : Envelope ρ} {change : Change} :
    core.change? name e = some change
      ↔ ∃ r, e.command = .request r ∧ r.target = name ∧ core.refusal? e = none ∧
        ∃ n, Counters.Says r.arg n ∧
          (r.op = Operation.set.name ∧ change = .set n.val ∨
            r.op = Operation.incr.name ∧ change = .add n.val) := by
  simp only [← Request.change?_eq_some_iff]
  obtain ⟨sender, command⟩ := e
  cases command with
  | opening replier => simp [change?]
  | closing => simp [change?]
  | malformed => simp [change?]
  | request r =>
      rw [change?_request]
      split
      · next h => simp [h.1, h.2]
      · next h => simpa using fun htarget hrefusal => absurd ⟨htarget, hrefusal⟩ h

/-! ## One step -/

/-- What a counter reads, as an integer. -/
theorem val_value (core : Core ρ) (name : String) :
    (core.counters.value name).val = ((core.counter? name).map (·.val)).getD 0 := by
  rw [Counters.value, TreeMap.getD_eq_getD_getElem?, counter?]
  cases core.counters[name]? <;> rfl

theorem map_counter?_handle (core : Core ρ) (name : String) (e : Envelope ρ) :
    ((core.handle e).2.counter? name).map (·.val)
      = match core.change? name e with
        | none => (core.counter? name).map (·.val)
        | some (.set n) => some n
        | some (.add n) => some ((core.counters.value name).val + n) := by
  rw [counter?, counters_handle]
  obtain ⟨sender, command⟩ := e
  cases command with
  | opening replier => rfl
  | closing => rfl
  | malformed => rfl
  | request r =>
      rw [change?_request, refusal?_request, Request.change?, Command.countersAfter, counter?]
      cases hop : Operation.parse? r.op with
      | none => simp
      | some op =>
          cases op with
          | lock => simp
          | unlock => simp
          | get => simp
          | set =>
              cases hset : core.counters.set r.target r.arg with
              | error refusal => simp [operationRefusal?, hset, Refusal.of?, Except.toOption]
              | ok after =>
                  obtain ⟨n, hsays, rfl⟩ := Counters.set_eq_ok_iff.mp hset
                  rw [Counters.argument?_eq_ok_iff.mpr hsays]
                  by_cases hname : r.target = name
                  · subst hname
                    simp [operationRefusal?, hset, Refusal.of?, Except.toOption]
                  · simp [Except.toOption, hname, TreeMap.getElem?_insert]
          | incr =>
              cases hincr : core.counters.incr r.target r.arg with
              | error refusal => simp [operationRefusal?, hincr, Refusal.of?, Except.toOption]
              | ok result =>
                  obtain ⟨sum, after⟩ := result
                  obtain ⟨n, hsays, hsum, rfl⟩ := Counters.incr_eq_ok_iff.mp hincr
                  rw [Counters.argument?_eq_ok_iff.mpr hsays]
                  by_cases hname : r.target = name
                  · subst hname
                    simp [operationRefusal?, hincr, Refusal.of?, Except.toOption, hsum]
                  · simp [Except.toOption, hname, TreeMap.getElem?_insert]

/-! ## Histories -/

/-- A counter that is the total of some changes, and absent if there are none, reads as their total. -/
theorem val_value_of_total {core : Core ρ} {name : String} {changes : List Change}
    (h : (core.counter? name).map (·.val)
      = if changes = [] then none else some (Change.total changes)) :
    (core.counters.value name).val = Change.total changes := by
  rw [val_value, h]
  split
  · next hnone => rw [hnone]; rfl
  · rfl

/-- **A counter is the total of its changes**, and there is one if there was a change. -/
theorem map_counter?_handleAll (history : List (Envelope ρ)) (name : String) :
    ((handleAll history .empty).2.counter? name).map (·.val)
      = if changes name history .empty = [] then none
        else some (Change.total (changes name history .empty)) := by
  induction history using List.reverseRecOn with
  | nil => simp [handleAll, changes, counter?, empty]
  | append_singleton history e ih =>
      rw [handleAll_concat, map_counter?_handle, changes_concat, ih, val_value_of_total ih]
      cases (handleAll history .empty).2.change? name e with
      | none => simp
      | some change => cases change <;> simp

/-- What a counter reads is the total of its changes, also if there was none. -/
theorem val_value_handleAll (history : List (Envelope ρ)) (name : String) :
    ((handleAll history .empty).2.counters.value name).val
      = Change.total (changes name history .empty) :=
  val_value_of_total (map_counter?_handleAll history name)

/-! ## What is told -/

/-- The reply that tells an integer. -/
theorem reply_ofCounter_eq (core : Core ρ) (receiver : ConnectionId) (c : Counter) :
    core.reply receiver (.ofCounter c) = core.repliers[receiver]?.toList.map fun replier =>
      ⟨receiver, replier, .reply ⟨.ok, none, some (toString c.val)⟩⟩ := by
  rw [reply_eq, Reply.ofCounter, Counter.text_eq_toString]
  cases core.repliers[receiver]? <;> rfl

theorem handle_fst_of_get (core : Core ρ) {e : Envelope ρ} {r : Request}
    (he : e.command = .request r) (hop : r.op = Operation.get.name) :
    (core.handle e).1 = core.reply e.sender (.ofCounter (core.counters.value r.target)) := by
  show (core.execute e.sender e.command).1 = _
  rw [he, execute, request, Operation.eq_name_iff.mp hop]
  rfl

/-- Whoever adds to a counter is told what it reads then. -/
theorem handle_fst_of_incr (core : Core ρ) {e : Envelope ρ} {r : Request}
    (he : e.command = .request r) (hop : r.op = Operation.incr.name) (hok : core.refusal? e = none) :
    (core.handle e).1
      = core.reply e.sender (.ofCounter ((core.handle e).2.counters.value r.target)) := by
  obtain ⟨sender, command⟩ := e
  obtain rfl : command = .request r := he
  have hparse := Operation.eq_name_iff.mp hop
  rw [refusal?_request, hparse] at hok
  obtain ⟨⟨sum, after⟩, hincr⟩ := Refusal.of?_eq_none_iff.mp hok
  obtain ⟨n, -, -, rfl⟩ := Counters.incr_eq_ok_iff.mp hincr
  have hrequest : core.request sender r = (core.reply sender (.ofCounter sum),
      { core with counters := core.counters.insert r.target sum }) := by
    rw [request, hparse]
    simp only [perform, hincr]
  show (core.request sender r).1
    = core.reply sender (.ofCounter ((core.request sender r).2.counters.value r.target))
  rw [hrequest]
  simp [Counters.value]

/-- **Counters are exact**, and independent of everything else.  After any history, let `changes` be what
the requests of the history that were not refused did to a counter.

* The counter is absent if there are none.
* Otherwise it is the number that it was set to last, zero if it never was, and the sum of what was added
  since, which is in the range of 64 bits.
* Whoever asks for it is told the decimal text of this integer, zero if it is absent.
* Whoever adds to it, if that is not refused, is told the decimal text of the integer afterwards.
* No envelope changes it but requests to set it and to add to it that are not refused. -/
theorem counters_exact (history : List (Envelope ρ)) (name : String) :
    let core := (handleAll history .empty).2
    let changes := changes name history .empty
    (core.counter? name = none ↔ changes = []) ∧
    (∀ value, core.counter? name = some value →
      value.val = Change.lastSet changes + (Change.addedSince changes).sum ∧
        -2 ^ 63 ≤ value.val ∧ value.val ≤ 2 ^ 63 - 1) ∧
    (∀ e r, e.command = .request r → r.target = name → r.op = Operation.get.name →
      (core.handle e).1 = core.repliers[e.sender]?.toList.map fun replier =>
        ⟨e.sender, replier, .reply ⟨.ok, none, some (toString (Change.total changes))⟩⟩) ∧
    (∀ e r, e.command = .request r → r.target = name → r.op = Operation.incr.name →
      core.refusal? e = none →
      (core.handle e).1 = core.repliers[e.sender]?.toList.map fun replier =>
        ⟨e.sender, replier, .reply ⟨.ok, none,
          some (toString (Change.total (Core.changes name (history ++ [e]) .empty)))⟩⟩) ∧
    (∀ e, (∀ r, e.command = .request r → r.target = name → core.refusal? e = none →
        r.op ≠ Operation.set.name ∧ r.op ≠ Operation.incr.name) →
      (core.handle e).2.counter? name = core.counter? name) := by
  intro core changes
  have hcounter : (core.counter? name).map (·.val)
      = if changes = [] then none else some (Change.total changes) :=
    map_counter?_handleAll history name
  refine ⟨?_, fun value hvalue => ?_, ?_, ?_, fun e he => ?_⟩
  · rw [← Option.map_eq_none_iff (f := (·.val)), hcounter]
    split <;> simp_all
  · rw [hvalue] at hcounter
    have hrange := value.isInRange
    refine ⟨?_, by omega, by omega⟩
    split at hcounter
    · cases hcounter
    · exact Option.some.inj hcounter
  · rintro e r he rfl hop
    rw [handle_fst_of_get core he hop, reply_ofCounter_eq, val_value_handleAll]
  · rintro e r he rfl hop hok
    have hafter : (core.handle e).2 = (handleAll (history ++ [e]) .empty).2 := by
      rw [handleAll_concat]
    rw [handle_fst_of_incr core he hop hok, reply_ofCounter_eq, hafter, val_value_handleAll]
  · have hnone : core.change? name e = none := by
      rw [Option.eq_none_iff_forall_ne_some]
      intro change hchange
      obtain ⟨r, hr, htarget, hok, n, -, hop⟩ := change?_eq_some_iff.mp hchange
      obtain ⟨hset, hincr⟩ := he r hr htarget hok
      exact hop.elim (fun h => hset h.1) fun h => hincr h.1
    have hval := map_counter?_handle core name e
    rw [hnone] at hval
    refine Option.map_injective (fun a b hab => ?_) hval
    cases a
    cases b
    simpa using hab

end Core

end LockService
