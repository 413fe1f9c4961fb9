import LockService.Proofs.Core.Audience

/-!
# Orderly histories

The core handles envelopes in any order.  A connection that asks for a key before it opens, or after
it has closed, takes part like any other, but nobody can tell it anything, and what it holds nobody
else will get.  A history is *orderly* if that does not happen: connections open only while they are
not registered, and send requests only while they are open.

* `Core.told` — what one connection has told the core.
* `Core.isOpen` — whether it has opened and not closed since.  Who is open has a replier, whatever
  the history (`canReach_handleAll`).
* `Core.Orderly` — the discipline.
* **`Core.Orderly.isRegistered_eq`** — in an orderly history exactly the open connections are
  registered.  So whoever holds or awaits a key can be reached, and so can everybody whom the core has
  a reply for (`Orderly.canReach_of_mem_queue`, `Orderly.canReach_audience`).
-/

namespace LockService

open Std (TreeMap)

/-- Whether a connection is open after a command, if one knows whether it was before. -/
def Command.leavesOpen {ρ : Type} (was : Bool) : Command ρ → Bool
  | .opening _ => true
  | .closing => false
  | .request _ | .malformed => was

/-- Who is open stays open until it closes. -/
theorem Command.foldl_leavesOpen {ρ : Type} {commands : List (Command ρ)} (h : .closing ∉ commands) :
    commands.foldl leavesOpen true = true := by
  induction commands with
  | nil => rfl
  | cons command commands ih =>
      rw [List.mem_cons, not_or] at h
      cases command with
      | closing => exact absurd rfl h.1
      | opening => exact ih h.2
      | request => exact ih h.2
      | malformed => exact ih h.2

namespace Core

variable {ρ : Type}

/-- What a connection has told the core. -/
def told (c : ConnectionId) (history : List (Envelope ρ)) : List (Command ρ) :=
  (history.filter (·.sender = c)).map (·.command)

/-- Whether a connection has opened and not closed since. -/
def isOpen (c : ConnectionId) (history : List (Envelope ρ)) : Bool :=
  (told c history).foldl Command.leavesOpen false

@[simp] theorem told_nil (c : ConnectionId) : told c ([] : List (Envelope ρ)) = [] := rfl

@[simp] theorem told_append (c : ConnectionId) (history more : List (Envelope ρ)) :
    told c (history ++ more) = told c history ++ told c more := by
  simp [told]

theorem told_cons (c : ConnectionId) (e : Envelope ρ) (history : List (Envelope ρ)) :
    told c (e :: history)
      = if e.sender = c then e.command :: told c history else told c history := by
  unfold told
  rw [List.filter_cons]
  split <;> simp_all

theorem mem_told_iff {c : ConnectionId} {command : Command ρ} {history : List (Envelope ρ)} :
    command ∈ told c history ↔ ⟨c, command⟩ ∈ history := by
  simp only [told, List.mem_map, List.mem_filter, decide_eq_true_eq]
  constructor
  · rintro ⟨e, ⟨he, rfl⟩, rfl⟩
    exact he
  · exact fun h => ⟨_, ⟨h, rfl⟩, rfl⟩

theorem isOpen_concat (c : ConnectionId) (history : List (Envelope ρ)) (e : Envelope ρ) :
    isOpen c (history ++ [e])
      = if e.sender = c then e.command.leavesOpen (isOpen c history) else isOpen c history := by
  rw [isOpen, told_append, told_cons, told_nil, List.foldl_append]
  split <;> rfl

/-! ## Who can be reached -/

/-- **Exactly the open connections can be reached**, whatever else was sent. -/
theorem canReach_handleAll (history : List (Envelope ρ)) (c : ConnectionId) :
    (handleAll history .empty).2.canReach c = isOpen c history := by
  induction history using List.reverseRecOn with
  | nil => simp [handleAll, empty, canReach, isOpen]
  | append_singleton history e ih =>
      rw [canReach, TreeMap.contains_eq_isSome_getElem?] at ih ⊢
      rw [handleAll_concat, repliers_handle, isOpen_concat, ← ih]
      obtain ⟨sender, command⟩ := e
      by_cases hsender : sender = c
      · cases command <;> simp [hsender, Command.leavesOpen]
      · cases command <;> simp [hsender]

/-! ## Who is registered -/

/-- What a request does to the table: only locking and unlocking change it. -/
theorem table_request (core : Core ρ) (sender : ConnectionId) (r : Request) :
    (core.request sender r).2.table
      = match Operation.parse? r.op with
        | some .lock => (core.table.acquire sender r.target).2
        | some .unlock => (core.table.release sender r.target).2
        | some .get | some .set | some .incr | none => core.table := by
  unfold request
  cases Operation.parse? r.op with
  | none => rfl
  | some op =>
      cases op with
      | lock => rfl
      | unlock =>
          show (core.unlock sender r.target).2.table = _
          rw [unlock_snd]
      | get => rfl
      | set =>
          simp only [perform]
          split <;> rfl
      | incr =>
          simp only [perform]
          split <;> rfl

/-- A request registers nobody but its sender. -/
theorem isRegistered_request {core : Core ρ} {sender : ConnectionId} (r : Request)
    (hsender : core.table.views.isRegistered sender = true) (c : ConnectionId) :
    (core.request sender r).2.table.views.isRegistered c = true
      ↔ core.table.views.isRegistered c = true := by
  rw [table_request]
  split
  · rw [Table.isRegistered_acquire, or_iff_right_iff_imp]
    rintro rfl
    exact hsender
  · exact core.table.isRegistered_release sender r.target c
  all_goals exact Iff.rfl

/-- Who is registered after an envelope, if requests come from registered connections. -/
theorem isRegistered_handle {core : Core ρ} {e : Envelope ρ}
    (hrequest : ∀ r, e.command = .request r → core.table.views.isRegistered e.sender = true)
    (c : ConnectionId) :
    (core.handle e).2.table.views.isRegistered c
      = if e.sender = c then e.command.leavesOpen (core.table.views.isRegistered c)
        else core.table.views.isRegistered c := by
  obtain ⟨sender, command⟩ := e
  rw [Bool.eq_iff_iff]
  cases command with
  | opening replier =>
      show (core.table.views.register sender).isRegistered c = true ↔ _
      rw [Views.isRegistered_register]
      by_cases hsender : sender = c <;> simp [hsender, Command.leavesOpen]
  | closing =>
      show (core.table.remove sender).2.views.isRegistered c = true ↔ _
      rw [Table.isRegistered_remove]
      by_cases hsender : sender = c <;> simp [hsender, Command.leavesOpen]
  | malformed =>
      show core.table.views.isRegistered c = true ↔ _
      simp [Command.leavesOpen]
  | request r =>
      refine (isRegistered_request r (hrequest r rfl) c).trans ?_
      simp [Command.leavesOpen]

/-! ## The discipline -/

/-- Whether an envelope is in order after a history: a connection opens only while it is not
registered, and sends a request only while it is open. -/
def InOrder (history : List (Envelope ρ)) (e : Envelope ρ) : Prop :=
  match e.command with
  | .opening _ => (handleAll history .empty).2.table.views.isRegistered e.sender = false
  | .request _ => isOpen e.sender history = true
  | .closing | .malformed => True

/-- Whether every envelope of a history is in order. -/
def Orderly (history : List (Envelope ρ)) : Prop :=
  ∀ before e after, history = before ++ e :: after → InOrder before e

instance (history : List (Envelope ρ)) : (e : Envelope ρ) → Decidable (InOrder history e)
  | ⟨_, .opening _⟩ | ⟨_, .request _⟩ => inferInstanceAs (Decidable (_ = _))
  | ⟨_, .closing⟩ | ⟨_, .malformed⟩ => inferInstanceAs (Decidable True)

/-- Every envelope by its place. -/
theorem orderly_iff_forall_fin {history : List (Envelope ρ)} :
    (∀ i : Fin history.length, InOrder (history.take i) history[i]) ↔ Orderly history := by
  constructor
  · rintro h before e after rfl
    simpa using h ⟨before.length, by simp⟩
  · exact fun h i => h _ _ (history.drop (i + 1)) (by simp)

instance (history : List (Envelope ρ)) : Decidable (Orderly history) :=
  decidable_of_iff _ orderly_iff_forall_fin

theorem orderly_nil : Orderly ([] : List (Envelope ρ)) :=
  fun before e after h => absurd h (by simp)

theorem orderly_concat_iff {history : List (Envelope ρ)} {e : Envelope ρ} :
    Orderly (history ++ [e]) ↔ Orderly history ∧ InOrder history e := by
  constructor
  · intro h
    refine ⟨fun before f after heq => h before f (after ++ [e]) ?_, h history e [] rfl⟩
    rw [heq, List.append_assoc, List.cons_append]
  · rintro ⟨h, he⟩ before f after heq
    cases after using List.reverseRecOn with
    | nil =>
        obtain ⟨rfl, hlast⟩ := List.append_inj' heq rfl
        obtain rfl := List.singleton_inj.mp hlast
        exact he
    | append_singleton after g =>
        rw [← List.cons_append, ← List.append_assoc] at heq
        exact h before f after (List.append_inj' heq rfl).1

theorem Orderly.of_append {history more : List (Envelope ρ)} (h : Orderly (history ++ more)) :
    Orderly history := fun before e after heq => by
  refine h before e (after ++ more) ?_
  rw [heq, List.append_assoc, List.cons_append]

/-- **In an orderly history exactly the open connections are registered.** -/
theorem Orderly.isRegistered_eq {history : List (Envelope ρ)} (h : Orderly history)
    (c : ConnectionId) :
    (handleAll history .empty).2.table.views.isRegistered c = isOpen c history := by
  induction history using List.reverseRecOn generalizing c with
  | nil => simp [handleAll, empty, Table.empty, Views.isRegistered, isOpen]
  | append_singleton history e ih =>
      obtain ⟨hbefore, he⟩ := orderly_concat_iff.mp h
      have hrequest : ∀ r, e.command = .request r →
          (handleAll history .empty).2.table.views.isRegistered e.sender = true := by
        intro r hr
        rw [InOrder, hr] at he
        rw [ih hbefore, he]
      rw [handleAll_concat, isRegistered_handle hrequest, isOpen_concat, ih hbefore]

/-- Whoever holds or awaits a key is registered, and so can be reached. -/
theorem Orderly.canReach_of_mem_queue {history : List (Envelope ρ)} (h : Orderly history)
    {c : ConnectionId} {key : String}
    (hc : c ∈ (handleAll history .empty).2.table.views.queue key) :
    (handleAll history .empty).2.canReach c = true := by
  rw [canReach_handleAll, ← h.isRegistered_eq]
  exact (handleAll history .empty).2.table.coherent.isRegistered hc

/-- Who is promoted was waiting, and is not the one who gave the key up. -/
theorem next?_release {core : Core ρ} {sender next : ConnectionId} {key : String}
    (h : (core.table.release sender key).1.next? = some next) :
    next ∈ core.table.views.queue key := by
  rw [Table.release_fst] at h
  split at h
  · cases hwaiters : (core.table.views.queue key).tail with
    | nil => rw [hwaiters] at h; cases h
    | cons first rest =>
        rw [hwaiters] at h
        obtain rfl := Option.some.inj h
        exact List.mem_of_mem_tail (hwaiters ▸ List.mem_cons_self)
  · cases h

theorem mem_remove {core : Core ρ} {sender next : ConnectionId}
    (h : next ∈ (core.table.remove sender).1) :
    next ≠ sender ∧ ∃ key, next ∈ core.table.views.queue key := by
  rw [Table.remove_fst] at h
  obtain ⟨⟨key, c⟩, hheir, rfl⟩ := List.mem_map.mp h
  obtain ⟨rest, hqueue⟩ := core.table.coherent.mem_heirs_iff.mp hheir
  have hnd := core.table.coherent.nodup key
  rw [hqueue] at hnd
  refine ⟨?_, key, by rw [hqueue]; simp⟩
  rintro rfl
  simp at hnd

/-- **Everybody whom the core has a reply for can be reached**, if the senders of records that are
no requests are open, too. -/
theorem Orderly.canReach_audience {history : List (Envelope ρ)} (h : Orderly history)
    {e : Envelope ρ} (he : InOrder history e)
    (hmalformed : e.command = .malformed → isOpen e.sender history = true) {c : ConnectionId}
    (hc : c ∈ (handleAll history .empty).2.audience e) :
    ((handleAll history .empty).2.handle e).2.canReach c = true := by
  generalize hcore : (handleAll history .empty).2 = core at hc ⊢
  have hqueued : ∀ {d key}, d ∈ core.table.views.queue key → core.canReach d = true :=
    fun hd => hcore ▸ h.canReach_of_mem_queue (hcore ▸ hd)
  have hopen : isOpen e.sender history = true → core.canReach e.sender = true :=
    fun hs => by rw [← hcore, canReach_handleAll, hs]
  obtain ⟨sender, command⟩ := e
  cases command with
  | opening replier => cases hc
  | closing =>
      obtain ⟨hne, key, hkey⟩ := mem_remove hc
      have hreach := hqueued hkey
      rw [canReach_iff] at hreach ⊢
      rwa [repliers_handle, if_neg (Ne.symm hne)]
  | malformed =>
      obtain rfl := List.mem_singleton.mp hc
      exact hopen (hmalformed rfl)
  | request r =>
      rw [show ((core.handle ⟨sender, .request r⟩).2.canReach c) = core.canReach c from
        canReach_congr (repliers_request core sender r) c]
      have hsender : c ∈ [sender] → core.canReach c = true := by
        intro hmem
        obtain rfl := List.mem_singleton.mp hmem
        exact hopen he
      simp only [audience] at hc
      split at hc
      · split at hc
        · exact hsender hc
        · cases hc
      · rcases List.mem_cons.mp hc with hs | hnext
        · exact hsender (List.mem_singleton.mpr hs)
        · exact hqueued (next?_release (Option.mem_toList.mp hnext))
      all_goals exact hsender hc

end Core

end LockService
