import LockService.Proofs.Connection.Conversations
import LockService.Proofs.Core.Numbers
import LockService.Proofs.Load.Clients

/-!
# What the requests of a measurement are answered

The first request of a pair is undone by the second.  So whoever asks for its own key finds it free, and
gives it back as its only holder; whoever adds one to the counter is told one more than it was, unless the
counter can hold no more, and resets it then.

* `Core.handle_fst_of_lock`, `Core.handle_fst_of_unlock`, `Core.handle_of_incr`,
  `Core.handle_fst_of_set` — one request.
* `Workload.Answers` — the four ways in which a request of a workload can be answered.
* **`Workload.exists_answer`** — every request of every workload is answered to its sender at once, and
  changes no key but the sender's own.
-/

namespace LockService

/-- Connections have keys of their own. -/
theorem Workload.ownKey_injective : Function.Injective ownKey := by
  intro p q h
  have htail : String.ofList (Decimal.write p) = String.ofList (Decimal.write q) :=
    (String.append_right_inj _).mp h
  exact Int.ofNat.inj (Decimal.write_injective (String.ofList_injective htail))

namespace Core

variable {ρ : Type} {core : Core ρ} {sender : ConnectionId} {key : String} {arg : Option String}

/-- A free key is granted. -/
theorem handle_fst_of_lock (hfree : core.table.views.queue key = []) :
    (core.handle ⟨sender, .request (.ofOperation .lock key arg)⟩).1 = core.reply sender .ok := by
  have hgranted : (core.table.acquire sender key).1 = true :=
    (core.table.acquire_fst sender key).mpr (.inl hfree)
  show (core.request sender (.ofOperation .lock key arg)).1 = _
  simp [request, Request.ofOperation, Operation.parse?_name, perform, lock, hgranted]

/-- Giving a key back for which nobody waits is acknowledged, and told to nobody else. -/
theorem handle_fst_of_unlock (hheld : core.table.views.queue key = [sender]) :
    (core.handle ⟨sender, .request (.ofOperation .unlock key arg)⟩).1 = core.reply sender .ok := by
  have hvacated : (core.table.release sender key).1 = .vacated := by
    rw [Table.release_fst, hheld]
    simp [Release.ofWaiters]
  show (core.request sender (.ofOperation .unlock key arg)).1 = _
  simp [request, Request.ofOperation, Operation.parse?_name, perform, unlock, hvacated]

/-- Requests that need a number change no queue. -/
theorem queue_handle_of_takesNumber (core : Core ρ) (sender : ConnectionId) {op : Operation}
    (hop : op.takesNumber = true) (k : String) :
    (core.handle ⟨sender, .request (.ofOperation op key arg)⟩).2.table.views.queue k
      = core.table.views.queue k := by
  rw [queue_handle, Command.queueAfter]
  split
  · simp only [Request.ofOperation, Operation.parse?_name]
    cases op <;> first | rfl | cases hop
  · rfl

/-- Setting a counter is acknowledged. -/
theorem handle_fst_of_set {n : Counter} (harg : Counters.argument? arg = .ok n) :
    (core.handle ⟨sender, .request (.ofOperation .set key arg)⟩).1 = core.reply sender .ok := by
  show (core.request sender (.ofOperation .set key arg)).1 = _
  simp [request, Request.ofOperation, Operation.parse?_name, perform, Counters.set, harg]

/-- Adding to a counter tells the sum, unless that is out of range. -/
theorem handle_of_incr (core : Core ρ) (sender : ConnectionId) (key : String) {n : Counter}
    (harg : Counters.argument? arg = .ok n) :
    (∃ sum : Counter, sum.val = (core.counters.value key).val + n.val ∧
      (core.handle ⟨sender, .request (.ofOperation .incr key arg)⟩).1
        = core.reply sender (.ofCounter sum) ∧
      (core.handle ⟨sender, .request (.ofOperation .incr key arg)⟩).2.counters.value key = sum) ∨
    (¬ (-2 ^ 63 ≤ (core.counters.value key).val + n.val ∧
        (core.counters.value key).val + n.val ≤ 2 ^ 63 - 1) ∧
      (core.handle ⟨sender, .request (.ofOperation .incr key arg)⟩).1
        = core.refuse sender .overflow ∧
      (core.handle ⟨sender, .request (.ofOperation .incr key arg)⟩).2.counters = core.counters) := by
  have hrequest : core.request sender (.ofOperation .incr key arg)
      = core.perform sender key arg .incr := by
    simp only [request, Request.ofOperation, Operation.parse?_name]
  have hfst : (core.handle ⟨sender, .request (.ofOperation .incr key arg)⟩).1
      = (core.perform sender key arg .incr).1 := by
    rw [← hrequest]
    rfl
  have hsnd : (core.handle ⟨sender, .request (.ofOperation .incr key arg)⟩).2.counters
      = (core.perform sender key arg .incr).2.counters := by
    rw [← hrequest]
    rfl
  rw [hfst, hsnd]
  cases hincr : core.counters.incr key arg with
  | ok result =>
      obtain ⟨sum, after⟩ := result
      obtain ⟨m, hm, hsum, rfl⟩ := Counters.incr_eq_ok_iff.mp hincr
      rw [← Counters.argument?_eq_ok_iff, harg, Except.ok.injEq] at hm
      refine .inl ⟨sum, hm ▸ hsum, ?_, ?_⟩
      · simp only [perform, hincr]
      · simp [perform, hincr, Counters.value]
  | error refusal =>
      refine .inr ?_
      rcases Counters.incr_eq_error_iff.mp hincr with ⟨-, hnone⟩ | ⟨rfl, m, hm, hrange⟩
      · exact absurd (Counters.argument?_eq_ok_iff.mp harg) (hnone n)
      · rw [← Counters.argument?_eq_ok_iff, harg, Except.ok.injEq] at hm
        exact ⟨hm ▸ hrange, by simp only [perform, hincr], by simp only [perform, hincr]⟩

/-- While nobody waits for a key, nobody but who closes hears of a closing. -/
theorem handle_fst_of_closing (hqueue : ∀ key, (core.table.views.queue key).length ≤ 1) :
    (core.handle ⟨sender, .closing⟩).1 = core.send sender .closed := by
  have hnobody : (core.table.remove sender).1 = [] := by
    rw [List.eq_nil_iff_forall_not_mem]
    intro next hnext
    rw [Table.remove_fst] at hnext
    obtain ⟨⟨key, c⟩, hheir, rfl⟩ := List.mem_map.mp hnext
    obtain ⟨rest, htwo⟩ := core.table.coherent.mem_heirs_iff.mp hheir
    have hlength := hqueue key
    rw [htwo] at hlength
    simp at hlength
  show core.send sender .closed ++ (core.table.remove sender).1.flatMap _ = _
  rw [hnobody, List.flatMap_nil, List.append_nil]

end Core

namespace Workload

/-- How a request of a workload can be answered to a connection that has been answered some number of
requests before, by what the shared counter reads before and after. -/
inductive Answers (w : Workload) (answered : Nat) (before after : Int) : Reply → Prop
  | own (hw : w = .lock) : Answers w answered before after .ok
  | added {sum : Counter} (hw : w = .counter) (hfirst : answered % 2 = 0) (hsum : sum.val = before + 1)
      (hafter : after = sum.val) : Answers w answered before after (.ofCounter sum)
  | full (hw : w = .counter) (hfirst : answered % 2 = 0) (hbefore : before = 2 ^ 63 - 1)
      (hafter : after = before) : Answers w answered before after (.ofRefusal .overflow)
  | reset (hw : w = .counter) (hsecond : answered % 2 = 1) (hafter : after = 0) :
      Answers w answered before after .ok

/-- Who is in the queue of the key that a connection has for itself: the connection, between the two
requests of a pair. -/
def ownQueue (w : Workload) (position answered : Nat) : List ConnectionId :=
  if w = .lock ∧ answered % 2 = 1 then [LoadRun.idAt position] else []

section

variable {core : Core Nat} {position answered : Nat} {e : Envelope Nat}

/-- The first request of a pair finds the key free and takes it, the second one gives it back. -/
theorem answer_lock (he : e = ⟨LoadRun.idAt position, .request (requestAt .lock position answered)⟩)
    (hqueue : core.table.views.queue (ownKey position) = ownQueue .lock position answered) :
    (core.handle e).1 = core.reply (LoadRun.idAt position) .ok ∧
      ∀ key, (core.handle e).2.table.views.queue key
        = if ownKey position = key then ownQueue .lock position (answered + 1)
          else core.table.views.queue key := by
  have hafter := core.queue_handle e
  subst he
  rcases Nat.mod_two_eq_zero_or_one answered with hfirst | hsecond
  · have hfree : core.table.views.queue (ownKey position) = [] := by
      simp [hqueue, ownQueue, hfirst]
    have hnext : (answered + 1) % 2 = 1 := by omega
    rw [requestAt_lock, if_pos hfirst] at hafter ⊢
    refine ⟨Core.handle_fst_of_lock hfree, fun key => ?_⟩
    rw [hafter, Command.queueAfter]
    by_cases hkey : ownKey position = key
    · subst hkey
      simp [Request.ofOperation, Operation.parse?_name, hfree, joined, ownQueue, hnext]
    · simp [Request.ofOperation, hkey]
  · have hheld : core.table.views.queue (ownKey position) = [LoadRun.idAt position] := by
      simp [hqueue, ownQueue, hsecond]
    have hnext : (answered + 1) % 2 = 0 := by omega
    rw [requestAt_lock, if_neg (by omega)] at hafter ⊢
    refine ⟨Core.handle_fst_of_unlock hheld, fun key => ?_⟩
    rw [hafter, Command.queueAfter]
    by_cases hkey : ownKey position = key
    · subst hkey
      simp [Request.ofOperation, Operation.parse?_name, hheld, ownQueue, hnext]
    · simp [Request.ofOperation, hkey]

/-- The first request of a pair adds one to the counter, the second one resets it. -/
theorem exists_answer_counter
    (he : e = ⟨LoadRun.idAt position, .request (requestAt .counter position answered)⟩) :
    ∃ reply, (core.handle e).1 = core.reply (LoadRun.idAt position) reply ∧
      Answers .counter answered (core.counters.value sharedCounter).val
        ((core.handle e).2.counters.value sharedCounter).val reply ∧
      ∀ key, (core.handle e).2.table.views.queue key = core.table.views.queue key := by
  subst he
  rcases Nat.mod_two_eq_zero_or_one answered with hfirst | hsecond
  · have hone : Counters.argument? (some "1") = .ok ⟨1, by decide⟩ := by decide
    rw [requestAt_counter, if_pos hfirst]
    rcases core.handle_of_incr (LoadRun.idAt position) sharedCounter hone with
      ⟨sum, hsum, htold, hvalue⟩ | ⟨hrange, htold, hcounters⟩
    · exact ⟨_, htold, .added rfl hfirst hsum (by rw [hvalue]), core.queue_handle_of_takesNumber _ rfl⟩
    · have hbounds := (core.counters.value sharedCounter).isInRange
      refine ⟨_, htold, .full rfl hfirst ?_ (by rw [hcounters]),
        core.queue_handle_of_takesNumber _ rfl⟩
      dsimp only at hrange
      omega
  · have hzero : Counters.argument? (some "0") = .ok .zero := by decide
    rw [requestAt_counter, if_neg (by omega)]
    have hvalue := (core.handle_of_set (LoadRun.idAt position) sharedCounter hzero).1
    exact ⟨_, Core.handle_fst_of_set hzero, .reset rfl hsecond (by rw [hvalue]; rfl),
      core.queue_handle_of_takesNumber _ rfl⟩

/-- **Every request is answered at once**, and changes no key but the sender's own. -/
theorem exists_answer {w : Workload}
    (he : e = ⟨LoadRun.idAt position, .request (w.requestAt position answered)⟩)
    (hqueue : core.table.views.queue (ownKey position) = w.ownQueue position answered) :
    ∃ reply, (core.handle e).1 = core.reply (LoadRun.idAt position) reply ∧
      w.Answers answered (core.counters.value sharedCounter).val
        ((core.handle e).2.counters.value sharedCounter).val reply ∧
      ∀ key, (core.handle e).2.table.views.queue key
        = if ownKey position = key then w.ownQueue position (answered + 1)
          else core.table.views.queue key := by
  cases w with
  | lock =>
      obtain ⟨htold, hafter⟩ := answer_lock he hqueue
      exact ⟨.ok, htold, .own rfl, hafter⟩
  | counter =>
      obtain ⟨reply, htold, hanswers, hafter⟩ := exists_answer_counter he
      refine ⟨reply, htold, hanswers, fun key => ?_⟩
      rw [hafter]
      split
      · next hkey => rw [← hkey, hqueue]; rfl
      · rfl

end

end Workload

end LockService
