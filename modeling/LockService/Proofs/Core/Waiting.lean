import LockService.Proofs.Core.Balance

/-!
# Connections that never wait

A connection that waits for no key is told something by the core only in answer to an envelope of
its own, and then only one thing (`Core.through_handle_cases`): nobody can hand it a key.  So if a
connection was never left waiting (`Core.NeverWaits`), what it is told can be counted by what it has
sent.
-/

namespace LockService

/-- Whether a command makes the core tell its sender something, now or later. -/
def Command.isAnswered {ρ : Type} : Command ρ → Bool
  | .opening _ => false
  | .closing | .request _ | .malformed => true

namespace Core

variable {ρ : Type}

/-- Whether a connection was never left waiting for a key, whatever part of a history one looks
at. -/
def NeverWaits (c : ConnectionId) (history : List (Envelope ρ)) : Prop :=
  ∀ before, before <+: history → (handleAll before .empty).2.awaited c = ∅

theorem NeverWaits.of_append {c : ConnectionId} {history more : List (Envelope ρ)}
    (h : NeverWaits c (history ++ more)) : NeverWaits c history :=
  fun before hbefore => h before (hbefore.trans (List.prefix_append ..))

/-- Whether a connection is waiting for some key now. -/
def isWaiting (core : Core ρ) (c : ConnectionId) : Bool :=
  (core.table.views.stakes.getD c ∅).toList.any (·.2 = .waiting)

theorem isWaiting_eq_false_iff {core : Core ρ} {c : ConnectionId} :
    core.isWaiting c = false ↔ core.awaited c = ∅ := by
  rw [isWaiting, core.table.coherent.any_stake_eq_false_iff, Set.eq_empty_iff_forall_notMem]
  exact forall_congr' fun key =>
    not_congr (standing_eq_waiting_iff (core.table.coherent.nodup key))

/-- Whether a connection was ever left waiting can be found out by going through the history. -/
instance (c : ConnectionId) (history : List (Envelope ρ)) : Decidable (NeverWaits c history) :=
  decidable_of_iff (∀ before ∈ history.inits, (handleAll before .empty).2.isWaiting c = false) <| by
    simp only [List.mem_inits, isWaiting_eq_false_iff, NeverWaits]

/-- An envelope of somebody else tells nothing to a connection that waits for no key. -/
theorem receiver_ne_of_awaited {core : Core ρ} {e : Envelope ρ} {c : ConnectionId}
    (hwaits : core.awaited c = ∅) (hc : e.sender ≠ c) {d : Delivery ρ}
    (hd : d ∈ (core.handle e).1) : d.receiver ≠ c := by
  rintro rfl
  obtain ⟨own, heirs, h⟩ := handover_handle core e
  obtain ⟨gained, -, hgained, hsent⟩ := h.exists_gained (Ne.symm hc) (replier_of_mem_handle hd)
  have hmem : d ∈ (core.handle e).1.filter (·.receiver = d.receiver) := by simpa using hd
  rw [hsent] at hmem
  obtain ⟨key, hkey, -⟩ := List.mem_map.mp hmem
  obtain ⟨hheld, hwaited⟩ := (hgained key).mp hkey
  have hqueued := (mem_queue_handle_of_ne hc key).mp (mem_queue_of_holder hheld)
  have hkey : key ∈ core.awaited d.receiver := mem_awaited_iff.mpr ⟨hqueued, hwaited⟩
  rw [hwaits] at hkey
  exact hkey

/-- An envelope of its own tells a connection one thing at most. -/
theorem length_filter_receiver_le (core : Core ρ) (e : Envelope ρ) :
    ((core.handle e).1.filter (·.receiver = e.sender)).length ≤ 1 := by
  obtain ⟨own, heirs, h⟩ := handover_handle core e
  have hothers : (heirs.flatMap fun heir => (core.handle e).2.reply heir.2 .ok).filter
      (·.receiver = e.sender) = [] := by
    rw [List.filter_eq_nil_iff]
    intro d hd
    obtain ⟨⟨key, next⟩, hheir, hd⟩ := List.mem_flatMap.mp hd
    simpa [receiver_of_mem_send hd] using ((h.mem_heirs key next).mp hheir).1
  rw [h.sent, List.filter_append, hothers, List.append_nil]
  exact (List.length_filter_le _ _).trans h.own_length

section

variable [DecidableEq ρ] {core : Core ρ} {replier : ρ} {owner : ConnectionId}

/-- So what goes through the replier of a connection that waits for no key is nothing, or the one
answer to an envelope of its own; and that is `closed` exactly if the envelope is the closing. -/
theorem through_handle_cases
    (howner : ∀ c : ConnectionId, core.repliers[c]? = some replier → c = owner)
    (hwaits : core.awaited owner = ∅) (e : Envelope ρ) :
    through replier (core.handle e).1 = [] ∨
      e.sender = owner ∧ e.command.isAnswered = true ∧
        ∃ message, through replier (core.handle e).1 = [message] ∧
          (message = .closed ↔ e.command = .closing) := by
  by_cases hnone : through replier (core.handle e).1 = []
  · exact .inl hnone
  have hreceiver : ∀ d ∈ (core.handle e).1, d.replier = replier → d.receiver = owner :=
    fun d hd hreplier => howner _ (hreplier ▸ replier_of_mem_handle hd)
  obtain ⟨message, hmessage⟩ := List.exists_mem_of_ne_nil _ hnone
  obtain ⟨d, hd, hreplier, rfl⟩ := mem_through_iff.mp hmessage
  have hsender : e.sender = owner := by
    by_contra hc
    exact receiver_ne_of_awaited hwaits hc hd (hreceiver d hd hreplier)
  have hlength : (through replier (core.handle e).1).length ≤ 1 := by
    rw [through, List.length_map]
    refine le_trans ?_ (core.length_filter_receiver_le e)
    rw [← List.countP_eq_length_filter, ← List.countP_eq_length_filter]
    refine List.countP_mono_left fun d hd hreplier => ?_
    simpa [hsender] using hreceiver d hd (by simpa using hreplier)
  have hsingle : through replier (core.handle e).1 = [d.message] := by
    obtain ⟨only, honly⟩ :=
      List.length_eq_one_iff.mp (le_antisymm hlength (List.length_pos_of_mem hmessage))
    rw [honly] at hmessage ⊢
    rw [List.mem_singleton.mp hmessage]
  refine .inr ⟨hsender, ?_, d.message, hsingle, ?_⟩
  · obtain ⟨sender, command⟩ := e
    cases command with
    | opening => cases hd
    | _ => rfl
  · by_cases he : e.command = .closing
    · obtain ⟨grants, hsent, -, hgrants⟩ := core.handle_closing he
      rw [hsent] at hd
      rcases List.mem_append.mp hd with hd | hd
      · exact iff_of_true (mem_send_iff.mp hd).2.2 he
      · exact absurd (hreceiver d (hsent ▸ List.mem_append_right _ hd) hreplier)
          (hsender ▸ hgrants d hd)
    · exact iff_of_false (core.allReplies_handle he d hd).2 he

end

end Core

end LockService
