import LockService.Proofs.Core.Effects

/-!
# Who never holds a key leaves no trace

A connection that waits stands in queues between others, and what happens to it there must not
matter to them.  As long as it is never granted anything, and sets no counter, the others might as
well be alone: take all its envelopes away, wherever they are, and the others hear the same, each
step of theirs ends the same way, and who is in front of whom is the same.

* `Core.NeverHolds` — whether a connection was never granted anything.
* `Core.Without` — a core, and the core that never heard of one connection.  In the second one the
  connection is struck out of every queue.
* `Core.Without.handle`, `Core.Without.skip` — a step of somebody else, taken by both, and a step of
  the connection itself, which only the first one takes.
* **`Core.unaffected_by_bystander`** — what follows for runs.
-/

namespace LockService

/-- Whether a command asks for a counter to be changed. -/
def Command.setsCounter {ρ : Type} : Command ρ → Bool
  | .request r => r.op = Operation.set.name ∨ r.op = Operation.incr.name
  | .opening _ | .closing | .malformed => false

/-! ## Queues without somebody -/

section

variable {ι : Type} [DecidableEq ι] {queue : List ι} {c : ι}

theorem head?_filter_ne (h : queue.head? ≠ some c) :
    (queue.filter (· ≠ c)).head? = queue.head? := by
  cases queue with
  | nil => rfl
  | cons front rest =>
      have hfront : front ≠ c := fun heq => h (congrArg some heq)
      simp [hfront]

theorem tail_filter_ne (h : queue.head? ≠ some c) :
    (queue.filter (· ≠ c)).tail = queue.tail.filter (· ≠ c) := by
  cases queue with
  | nil => rfl
  | cons front rest =>
      have hfront : front ≠ c := fun heq => h (congrArg some heq)
      simp [hfront]

theorem filter_ne_eq_nil_iff (h : queue.head? ≠ some c) :
    queue.filter (· ≠ c) = [] ↔ queue = [] := by
  rw [← List.head?_eq_none_iff, head?_filter_ne h, List.head?_eq_none_iff]

/-- Joining a queue behind somebody or without them is the same to the others. -/
theorem filter_joined {client : ι} (h : client ≠ c) :
    (joined queue client).filter (· ≠ c) = joined (queue.filter (· ≠ c)) client := by
  have hmem : client ∈ queue.filter (· ≠ c) ↔ client ∈ queue := by simp [h]
  simp only [joined, hmem]
  split
  · rfl
  · simp [h]

theorem filter_joined_self : (joined queue c).filter (· ≠ c) = queue.filter (· ≠ c) := by
  rw [joined]
  split
  · rfl
  · simp

/-- How it ends when the front gives its key up does not depend on who is further behind. -/
theorem Release.ofWaiters_filter_ne (h : queue.head? ≠ some c) :
    Release.ofWaiters (queue.filter (· ≠ c)) = Release.ofWaiters queue := by
  have hhead := head?_filter_ne h
  cases queue with
  | nil => rfl
  | cons front rest =>
      cases hfilter : (front :: rest).filter (· ≠ c) with
      | nil => rw [hfilter] at hhead; cases hhead
      | cons front' rest' =>
          rw [hfilter] at hhead
          rw [Release.ofWaiters, Release.ofWaiters, Option.some.inj hhead]

end

namespace Core

variable {ρ : Type}

/-- Somebody else's command does to a queue without a waiter what it does to the queue. -/
theorem filter_queueAfter {c sender : ConnectionId} (hsender : sender ≠ c)
    {queue : List ConnectionId} (hqueue : queue.head? ≠ some c) (command : Command ρ)
    (key : String) :
    (command.queueAfter key sender queue).filter (· ≠ c)
      = command.queueAfter key sender (queue.filter (· ≠ c)) := by
  cases command with
  | opening replier => rfl
  | malformed => rfl
  | closing =>
      show (queue.filter (· ≠ sender)).filter (· ≠ c) = (queue.filter (· ≠ c)).filter (· ≠ sender)
      rw [List.filter_filter, List.filter_filter]
      exact List.filter_congr fun _ _ => Bool.and_comm _ _
  | request r =>
      rw [Command.queueAfter, Command.queueAfter]
      split
      · cases Operation.parse? r.op with
        | none => rfl
        | some op =>
            cases op with
            | lock => exact filter_joined hsender
            | unlock =>
                simp only [head?_filter_ne hqueue, tail_filter_ne hqueue]
                split <;> rfl
            | get | set | incr => rfl
      · rfl

/-- A waiter's own command does nothing to the queue without it. -/
theorem filter_queueAfter_self {c : ConnectionId} {queue : List ConnectionId}
    (hqueue : queue.head? ≠ some c) (command : Command ρ) (key : String) :
    (command.queueAfter key c queue).filter (· ≠ c) = queue.filter (· ≠ c) := by
  cases command with
  | opening replier => rfl
  | malformed => rfl
  | closing =>
      show (queue.filter (· ≠ c)).filter (· ≠ c) = _
      rw [List.filter_filter]
      exact List.filter_congr fun _ _ => Bool.and_self _
  | request r =>
      rw [Command.queueAfter]
      by_cases hkey : r.target = key
      · rw [if_pos hkey]
        cases Operation.parse? r.op with
        | none => rfl
        | some op =>
            cases op with
            | lock => exact filter_joined_self
            | unlock => exact congrArg (List.filter (· ≠ c)) (if_neg hqueue)
            | get | set | incr => rfl
      · rw [if_neg hkey]

/-! ## Two cores -/

/-- A core, and a core that has never heard of one connection. -/
structure Without (c : ConnectionId) (core without : Core ρ) : Prop where
  queue_eq : ∀ key, without.table.views.queue key
    = (core.table.views.queue key).filter (· ≠ c)
  repliers_eq : ∀ d, d ≠ c → without.repliers[d]? = core.repliers[d]?
  unknown : without.repliers[c]? = none
  registered_iff : ∀ d, d ≠ c →
    (without.table.views.isRegistered d = true ↔ core.table.views.isRegistered d = true)
  counters_eq : without.counters = core.counters

namespace Without

variable {c : ConnectionId} {core without : Core ρ}

theorem holder_eq (h : Without c core without) {key : String} (hkey : core.holder key ≠ some c) :
    without.holder key = core.holder key := by
  rw [holder, Views.holder, h.queue_eq]
  exact head?_filter_ne hkey

theorem waiters_eq (h : Without c core without) {key : String} (hkey : core.holder key ≠ some c) :
    without.table.views.waiters key = (core.table.views.waiters key).filter (· ≠ c) := by
  rw [Views.waiters, h.queue_eq]
  exact tail_filter_ne hkey

/-! ### A step of the connection itself -/

/-- The counters are as they were, unless the command asks for something else. -/
theorem countersAfter_eq {command : Command ρ} (h : command.setsCounter = false)
    (counters : Counters) : command.countersAfter counters = counters := by
  cases command with
  | opening replier => rfl
  | closing => rfl
  | malformed => rfl
  | request r =>
      rw [Command.countersAfter]
      cases hop : Operation.parse? r.op with
      | none => rfl
      | some op =>
          have hname := Operation.name_of_parse? hop
          cases op with
          | set => exact absurd h (by simp [Command.setsCounter, ← hname])
          | incr => exact absurd h (by simp [Command.setsCounter, ← hname])
          | lock | unlock | get => rfl

theorem skip (h : Without c core without) {e : Envelope ρ} (he : e.sender = c)
    (hcounters : e.command.setsCounter = false) (hholds : ∀ key, core.holder key ≠ some c) :
    Without c (core.handle e).2 without where
  queue_eq key := by
    rw [queue_handle, he, filter_queueAfter_self (hholds key), h.queue_eq]
  repliers_eq d hd := by
    rw [repliers_handle, h.repliers_eq d hd, he]
    simp only [if_neg (Ne.symm hd)]
    cases e.command <;> rfl
  unknown := h.unknown
  registered_iff d hd := by
    rw [isRegistered_handle_iff, h.registered_iff d hd, he]
    cases e.command <;> simp [Ne.symm hd]
  counters_eq := by rw [counters_handle, countersAfter_eq hcounters, h.counters_eq]

/-- Of a step of the connection only itself is told, if it holds nothing, before or after. -/
theorem receiver_eq (h : Without c core without) {e : Envelope ρ} (he : e.sender = c)
    (hcounters : e.command.setsCounter = false) (hholds : ∀ key, core.holder key ≠ some c)
    (hafter : ∀ key, (core.handle e).2.holder key ≠ some c) {d : Delivery ρ}
    (hd : d ∈ (core.handle e).1) : d.receiver = c := by
  have hsame : ∀ key, (core.handle e).2.holder key = core.holder key := fun key =>
    ((h.skip he hcounters hholds).holder_eq (hafter key)).symm.trans (h.holder_eq (hholds key))
  obtain ⟨own, heirs, hhandover⟩ := handover_handle core e
  have hnone : heirs = [] := by
    rw [List.eq_nil_iff_forall_not_mem]
    rintro ⟨key, next⟩ hheir
    obtain ⟨-, hgained, hbefore⟩ := (hhandover.mem_heirs key next).mp hheir
    exact hbefore ((hsame key).symm.trans hgained)
  rw [hhandover.sent, hnone, List.flatMap_nil, List.append_nil] at hd
  rw [hhandover.own_receiver d hd, he]

/-! ### A step of somebody else -/

theorem handle (h : Without c core without) {e : Envelope ρ} (he : e.sender ≠ c)
    (hholds : ∀ key, core.holder key ≠ some c) :
    Without c (core.handle e).2 (without.handle e).2 where
  queue_eq key := by
    rw [queue_handle, queue_handle, h.queue_eq, filter_queueAfter he (hholds key)]
  repliers_eq d hd := by
    rw [repliers_handle, repliers_handle, h.repliers_eq d hd]
  unknown := by
    rw [repliers_handle, h.unknown]
    simp only [if_neg he]
    cases e.command <;> rfl
  registered_iff d hd := by
    rw [isRegistered_handle_iff, isRegistered_handle_iff]
    cases e.command <;> simp only [h.registered_iff d hd]
  counters_eq := by rw [counters_handle, counters_handle, h.counters_eq]

theorem acquire_eq (h : Without c core without) {key : String} (hholds : core.holder key ≠ some c)
    (sender : ConnectionId) :
    (without.table.acquire sender key).1 = (core.table.acquire sender key).1 := by
  rw [Bool.eq_iff_iff, Table.acquire_fst, Table.acquire_fst, h.queue_eq,
    filter_ne_eq_nil_iff hholds, head?_filter_ne hholds]

/-- A key is given up in the same way if it does not come to the connection. -/
theorem release_eq (h : Without c core without) {key : String} (hholds : core.holder key ≠ some c)
    {sender : ConnectionId}
    (hafter : (core.table.release sender key).2.views.holder key ≠ some c) :
    (without.table.release sender key).1 = (core.table.release sender key).1 := by
  rw [Table.holder_release] at hafter
  rw [Table.release_fst, Table.release_fst, h.queue_eq, head?_filter_ne hholds,
    tail_filter_ne hholds]
  split
  · next hheld =>
    rw [if_pos ⟨rfl, hheld⟩] at hafter
    exact Release.ofWaiters_filter_ne hafter
  · rfl

/-- The same keys go to the same heirs if none of them comes to the connection. -/
theorem heirs_eq (h : Without c core without) (hholds : ∀ key, core.holder key ≠ some c)
    {sender : ConnectionId}
    (hafter : ∀ key, (core.table.remove sender).2.views.holder key ≠ some c) :
    without.table.views.heirs sender = core.table.views.heirs sender := by
  refine Views.eq_of_ascending (Views.pairwise_heirs _ _) (Views.pairwise_heirs _ _) ?_
  rintro ⟨key, next⟩
  rw [without.table.coherent.mem_heirs_iff_holder, core.table.coherent.mem_heirs_iff_holder]
  show without.holder key = some sender ∧ _ ↔ core.holder key = some sender ∧ _
  rw [h.holder_eq (hholds key), h.waiters_eq (hholds key)]
  refine and_congr_right fun hheld => ?_
  have hnext := hafter key
  rw [Table.holder_remove] at hnext
  rw [head?_filter_ne fun heq => hnext ((if_pos hheld).trans heq)]

/-- The table answers somebody else's envelope in the same way. -/
theorem tableAnswer_eq (h : Without c core without) {e : Envelope ρ}
    (hholds : ∀ key, core.holder key ≠ some c)
    (hafter : ∀ key, (core.handle e).2.holder key ≠ some c) :
    without.tableAnswer e = core.tableAnswer e := by
  obtain ⟨sender, command⟩ := e
  cases command with
  | opening replier => rfl
  | malformed => rfl
  | closing => rw [tableAnswer, tableAnswer, Table.remove_fst, Table.remove_fst,
      h.heirs_eq hholds hafter]
  | request r =>
      replace hafter : ∀ key, (core.request sender r).2.table.views.holder key ≠ some c := hafter
      rw [table_request] at hafter
      simp only [tableAnswer]
      cases hop : Operation.parse? r.op with
      | none => rfl
      | some op =>
          rw [hop] at hafter
          cases op with
          | lock =>
              dsimp only
              rw [h.acquire_eq (hholds r.target) sender]
          | unlock =>
              dsimp only
              rw [h.release_eq (hholds r.target) (hafter r.target)]
          | get | set | incr => rfl

/-- Who is promoted by a step that does not promote the connection is somebody else. -/
theorem ne_of_promoted {sender next : ConnectionId} {key : String}
    (hafter : (core.table.release sender key).2.views.holder key ≠ some c)
    (hnext : (core.table.release sender key).1 = .promoted next) : next ≠ c := by
  rw [Table.release_fst] at hnext
  rw [Table.holder_release] at hafter
  split at hnext
  · next hheld =>
    rw [if_pos ⟨rfl, hheld⟩, Views.waiters] at hafter
    cases hwaiters : (core.table.views.queue key).tail with
    | nil => rw [hwaiters] at hnext; cases hnext
    | cons first rest =>
        rw [hwaiters] at hnext hafter
        cases hnext
        exact fun heq => hafter (congrArg some heq)
  · cases hnext

theorem ne_of_mem_remove {sender next : ConnectionId}
    (hafter : ∀ key, (core.table.remove sender).2.views.holder key ≠ some c)
    (hnext : next ∈ (core.table.remove sender).1) : next ≠ c := by
  rw [Table.remove_fst] at hnext
  obtain ⟨⟨key, next⟩, hheir, rfl⟩ := List.mem_map.mp hnext
  obtain ⟨hheld, hwaits⟩ := core.table.coherent.mem_heirs_iff_holder.mp hheir
  have hholder := hafter key
  rw [Table.holder_remove, if_pos hheld, hwaits] at hholder
  exact fun heq => hholder (congrArg some heq)

/-- A request of somebody else causes the same messages. -/
theorem request_fst_eq (h : Without c core without) {sender : ConnectionId} (hsender : sender ≠ c)
    {r : Request} (hholds : ∀ key, core.holder key ≠ some c)
    (hafter : ∀ key, (core.request sender r).2.holder key ≠ some c) :
    (without.request sender r).1 = (core.request sender r).1 := by
  have hreach := h.repliers_eq sender hsender
  replace hafter : ∀ key, (core.request sender r).2.table.views.holder key ≠ some c := hafter
  rw [table_request] at hafter
  rw [request, request]
  cases hop : Operation.parse? r.op with
  | none => exact send_congr hreach _
  | some op =>
      rw [hop] at hafter
      cases op with
      | lock => exact lock_fst_congr (h.acquire_eq (hholds _) sender) hreach
      | unlock =>
          have houtcome := h.release_eq (hholds r.target) (hafter r.target)
          refine unlock_fst_congr houtcome hreach fun next hnext => h.repliers_eq next ?_
          exact ne_of_promoted (hafter r.target) (houtcome.symm.trans hnext)
      | get =>
          show without.reply sender (.ofCounter (without.counters.value r.target)) = _
          rw [h.counters_eq]
          exact send_congr hreach _
      | set =>
          simp only [perform, h.counters_eq]
          split <;> exact send_congr hreach _
      | incr =>
          simp only [perform, h.counters_eq]
          split <;> exact send_congr hreach _

/-- **A step of somebody else** causes the same messages, and none to the connection. -/
theorem handle_fst_eq (h : Without c core without) {e : Envelope ρ} (he : e.sender ≠ c)
    (hholds : ∀ key, core.holder key ≠ some c)
    (hafter : ∀ key, (core.handle e).2.holder key ≠ some c) :
    (without.handle e).1 = (core.handle e).1 := by
  have hanswer := h.tableAnswer_eq hholds hafter
  obtain ⟨sender, command⟩ := e
  cases command with
  | opening replier => rfl
  | malformed => exact send_congr (h.repliers_eq sender he) _
  | request r => exact h.request_fst_eq he hholds hafter
  | closing =>
      have hpromoted : (without.table.remove sender).1 = (core.table.remove sender).1 := by
        simpa [tableAnswer] using hanswer
      refine closing_fst_congr hpromoted (h.repliers_eq sender he) fun next hnext => ?_
      have hne : next ≠ c := ne_of_mem_remove hafter (hpromoted ▸ hnext)
      exact (h.handle he hholds).repliers_eq next hne

/-- A core tells nothing to somebody whom it has never heard of. -/
theorem receiver_ne (h : Without c core without) {e : Envelope ρ} {d : Delivery ρ}
    (hd : d ∈ (without.handle e).1) : d.receiver ≠ c := by
  rintro rfl
  have hreplier := replier_of_mem_handle hd
  rw [h.unknown] at hreplier
  cases hreplier

end Without

/-! ## Runs -/

/-- Whether a connection holds no key, whatever part of a history one looks at. -/
def NeverHolds (c : ConnectionId) (history : List (Envelope ρ)) : Prop :=
  ∀ before, before <+: history → ∀ key, (handleAll before .empty).2.holder key ≠ some c

theorem NeverHolds.of_append {c : ConnectionId} {history more : List (Envelope ρ)}
    (h : NeverHolds c (history ++ more)) : NeverHolds c history :=
  fun before hbefore => h before (hbefore.trans (List.prefix_append ..))

/-- Whether a connection holds some key now. -/
def isHolding (core : Core ρ) (c : ConnectionId) : Bool :=
  (core.table.views.stakes.getD c ∅).toList.any (·.2 = .holding)

theorem isHolding_eq_false_iff {core : Core ρ} {c : ConnectionId} :
    core.isHolding c = false ↔ ∀ key, core.holder key ≠ some c := by
  rw [isHolding, core.table.coherent.any_stake_eq_false_iff]
  exact forall_congr' fun key => not_congr standing_eq_holding_iff

/-- Whether a connection ever held a key can be found out by going through the history. -/
instance (c : ConnectionId) (history : List (Envelope ρ)) : Decidable (NeverHolds c history) :=
  decidable_of_iff (∀ before ∈ history.inits, (handleAll before .empty).2.isHolding c = false) <| by
    simp only [List.mem_inits, isHolding_eq_false_iff, NeverHolds]

/-- What everybody but one connection has sent. -/
def others (c : ConnectionId) (history : List (Envelope ρ)) : List (Envelope ρ) :=
  history.filter (·.sender ≠ c)

/-- **A run with a connection that is never granted anything**, and the run without it. -/
theorem without_handleAll {c : ConnectionId} {history : List (Envelope ρ)}
    (hholds : NeverHolds c history)
    (hcounters : ∀ e ∈ history, e.sender = c → e.command.setsCounter = false) :
    Without c (handleAll history .empty).2 (handleAll (others c history) .empty).2 ∧
      (handleAll (others c history) .empty).1
        = (handleAll history .empty).1.filter (·.receiver ≠ c) := by
  induction history using List.reverseRecOn with
  | nil =>
      refine ⟨⟨fun key => ?_, fun d _ => rfl, ?_, fun d _ => Iff.rfl, rfl⟩, rfl⟩
      · simp [others, handleAll, empty, Table.empty, Views.queue]
      · simp [others, handleAll, empty]
  | append_singleton history e ih =>
      obtain ⟨h, hsent⟩ := ih hholds.of_append fun f hf => hcounters f (List.mem_append_left _ hf)
      have hbefore := hholds history (List.prefix_append ..)
      have hafter := hholds (history ++ [e]) (List.prefix_refl _)
      rw [handleAll_concat] at hafter
      rw [others, List.filter_append, ← others, handleAll_concat, List.filter_append, ← hsent]
      by_cases he : e.sender = c
      · have hown : (((handleAll history .empty).2.handle e).1.filter (·.receiver ≠ c)) = [] := by
          rw [List.filter_eq_nil_iff]
          intro d hd
          simpa using h.receiver_eq he (hcounters e (by simp) he) hbefore hafter hd
        rw [List.filter_singleton, hown]
        simp only [he, ne_eq, not_true_eq_false, decide_false, cond_false, List.append_nil]
        exact ⟨h.skip he (hcounters e (by simp) he) hbefore, trivial⟩
      · have hothers : (((handleAll history .empty).2.handle e).1.filter (·.receiver ≠ c))
            = ((handleAll (others c history) .empty).2.handle e).1 := by
          rw [← h.handle_fst_eq he hbefore hafter, List.filter_eq_self]
          exact fun d hd => decide_eq_true (h.receiver_ne hd)
        rw [List.filter_singleton, hothers]
        simp only [he, ne_eq, not_false_eq_true, decide_true, cond_true]
        rw [handleAll_concat]
        exact ⟨h.handle he hbefore, rfl⟩

/-- **Who never holds a key leaves no trace.**  Let a connection of some history never hold a key,
and never set a counter or add to one.  In the history without its envelopes

* the others are delivered the same messages in the same order;
* each envelope of theirs is answered by the table in the same way and causes the same messages;
* at every point each key has the same holder and the same waiters, but for the connection itself,
  the same others are registered, and all counters are the same. -/
theorem unaffected_by_bystander {c : ConnectionId} {history : List (Envelope ρ)}
    (hholds : NeverHolds c history)
    (hcounters : ∀ e ∈ history, e.sender = c → e.command.setsCounter = false) :
    (handleAll (others c history) .empty).1
        = (handleAll history .empty).1.filter (·.receiver ≠ c) ∧
      (∀ before e after, history = before ++ e :: after → e.sender ≠ c →
        let core := (handleAll before .empty).2
        let without := (handleAll (others c before) .empty).2
        without.tableAnswer e = core.tableAnswer e ∧
          (without.handle e).1 = (core.handle e).1) ∧
      ∀ before, before <+: history →
        let core := (handleAll before .empty).2
        let without := (handleAll (others c before) .empty).2
        (∀ key, without.holder key = core.holder key ∧
          without.table.views.waiters key = (core.table.views.waiters key).filter (· ≠ c)) ∧
        (∀ d, d ≠ c → without.table.views.isRegistered d = core.table.views.isRegistered d) ∧
        ∀ name, without.counter? name = core.counter? name := by
  have hpart : ∀ before, before <+: history →
      Without c (handleAll before .empty).2 (handleAll (others c before) .empty).2 := by
    rintro before ⟨more, rfl⟩
    exact (without_handleAll hholds.of_append fun e he =>
      hcounters e (List.mem_append_left _ he)).1
  refine ⟨(without_handleAll hholds hcounters).2, ?_, ?_⟩
  · intro before e after hsplit he core without
    have hnext : before ++ [e] <+: history := ⟨after, by rw [hsplit]; simp⟩
    have h := hpart before ((List.prefix_append _ _).trans hnext)
    have hbefore := hholds before ((List.prefix_append _ _).trans hnext)
    have hafter := hholds _ hnext
    rw [handleAll_concat] at hafter
    exact ⟨h.tableAnswer_eq hbefore hafter, h.handle_fst_eq he hbefore hafter⟩
  · intro before hbefore core without
    have h := hpart before hbefore
    have hnone := hholds before hbefore
    refine ⟨fun key => ⟨h.holder_eq (hnone key), h.waiters_eq (hnone key)⟩, fun d hd => ?_,
      fun name => ?_⟩
    · exact Bool.eq_iff_iff.mpr (h.registered_iff d hd)
    · rw [counter?, counter?, h.counters_eq]

/-- For instance a connection that waits between two others for a key, asks again, sends something
that is no request, is refused an unlock, and is gone when the key is passed on. -/
theorem unaffected_by_bystander_departed :
    let ask (op : String) : Command Nat := .request ⟨op, "a", none⟩
    let history : List (Envelope Nat) :=
      [⟨⟨1⟩, .opening 10⟩, ⟨⟨2⟩, .opening 20⟩, ⟨⟨3⟩, .opening 30⟩, ⟨⟨1⟩, ask "lock"⟩,
        ⟨⟨2⟩, ask "lock"⟩, ⟨⟨2⟩, ask "lock"⟩, ⟨⟨3⟩, ask "lock"⟩, ⟨⟨2⟩, .malformed⟩,
        ⟨⟨2⟩, ask "unlock"⟩, ⟨⟨2⟩, .closing⟩, ⟨⟨1⟩, ask "unlock"⟩]
    NeverHolds ⟨2⟩ history ∧
      (∀ e ∈ history, e.sender = ⟨2⟩ → e.command.setsCounter = false) ∧
      ((handleAll history .empty).1.filter (·.receiver ≠ ⟨2⟩)).map (·.receiver) = [⟨1⟩, ⟨1⟩, ⟨3⟩] ∧
      (handleAll (others ⟨2⟩ history) .empty).1
        = (handleAll history .empty).1.filter (·.receiver ≠ ⟨2⟩) := by
  intro ask history
  have hholds : NeverHolds ⟨2⟩ history := by decide +kernel
  have hcounters : ∀ e ∈ history, e.sender = ⟨2⟩ → e.command.setsCounter = false := by
    decide +kernel
  exact ⟨hholds, hcounters, by decide +kernel, (unaffected_by_bystander hholds hcounters).1⟩

end Core

end LockService
