import LockService.Core.Basic
import LockService.Proofs.Core.Grants

/-!
# Repliers

What a connection hears goes through the replier that it opened with.  This file follows one replier
through a run of the core, whoever it belongs to.

A replier is registered by an opening and by nothing else, and it is gone with the closing of the
connection that it is registered for (`repliers_handle`, `opened_of_replier`).  Messages go through
repliers that are registered when their envelope is handled (`replier_of_mem_handle`), so one that
is not registered hears nothing.  `closed` is the one message that ends a conversation: if a replier
is registered for one connection only, it hears `closed` alone in the step that unregisters it
(`through_of_closed`).

`through` picks what goes through one replier out of the messages of all.
-/

namespace LockService

open Std (TreeMap)

namespace Core

variable {ρ : Type}

/-! ## Runs -/

theorem handleAll_append (es fs : List (Envelope ρ)) (core : Core ρ) :
    handleAll (es ++ fs) core
      = ((handleAll es core).1 ++ (handleAll fs (handleAll es core).2).1,
          (handleAll fs (handleAll es core).2).2) := by
  induction es generalizing core with
  | nil => rfl
  | cons e es ih =>
      simp only [List.cons_append, handleAll, ih, List.append_assoc]

theorem handleAll_concat (es : List (Envelope ρ)) (e : Envelope ρ) (core : Core ρ) :
    handleAll (es ++ [e]) core
      = ((handleAll es core).1 ++ ((handleAll es core).2.handle e).1,
          ((handleAll es core).2.handle e).2) := by
  rw [handleAll_append]
  simp [handleAll]

/-! ## Who is registered -/

/-- An operation changes the table or a counter, and nothing else. -/
theorem perform_snd_eq (core : Core ρ) (sender : ConnectionId) (target : String)
    (arg : Option String) (op : Operation) :
    (core.perform sender target arg op).2 =
      { core with
        table := (core.perform sender target arg op).2.table
        counters := (core.perform sender target arg op).2.counters } := by
  cases op with
  | lock => rfl
  | unlock =>
      show (core.unlock sender target).2 = { core with
        table := (core.unlock sender target).2.table
        counters := (core.unlock sender target).2.counters }
      rw [unlock_snd]
  | get => rfl
  | set =>
      simp only [perform]
      split <;> rfl
  | incr =>
      simp only [perform]
      split <;> rfl

theorem repliers_perform (core : Core ρ) (sender : ConnectionId) (target : String)
    (arg : Option String) (op : Operation) :
    (core.perform sender target arg op).2.repliers = core.repliers := by
  rw [perform_snd_eq]

theorem repliers_request (core : Core ρ) (sender : ConnectionId) (r : Request) :
    (core.request sender r).2.repliers = core.repliers := by
  unfold request
  split
  · rfl
  · exact repliers_perform core sender r.target r.arg _

/-- The repliers after an envelope: only opening and closing change them. -/
theorem repliers_handle (core : Core ρ) (e : Envelope ρ) (c : ConnectionId) :
    (core.handle e).2.repliers[c]?
      = match e.command with
        | .opening replier => if e.sender = c then some replier else core.repliers[c]?
        | .closing => if e.sender = c then none else core.repliers[c]?
        | .request _ | .malformed => core.repliers[c]? := by
  obtain ⟨sender, command⟩ := e
  cases command with
  | opening replier =>
      show (core.repliers.insert sender replier)[c]? = _
      rw [TreeMap.getElem?_insert]
      simp only [Std.LawfulEqCmp.compare_eq_iff_eq]
  | closing =>
      show (core.repliers.erase sender)[c]? = _
      rw [TreeMap.getElem?_erase]
      simp only [Std.LawfulEqCmp.compare_eq_iff_eq]
  | malformed => rfl
  | request r =>
      show (core.request sender r).2.repliers[c]? = _
      rw [repliers_request]

/-- Nothing but an opening registers a replier. -/
theorem repliers_handle_ne {core : Core ρ} {replier : ρ}
    (h : ∀ c : ConnectionId, core.repliers[c]? ≠ some replier) {e : Envelope ρ}
    (he : e.command ≠ .opening replier) (c : ConnectionId) :
    (core.handle e).2.repliers[c]? ≠ some replier := by
  rw [repliers_handle]
  split
  · next other hother =>
    split
    · intro heq
      rw [hother, Option.some.inj heq] at he
      exact he rfl
    · exact h c
  · split
    · exact nofun
    · exact h c
  · exact h c
  · exact h c

/-- **Whoever is registered has opened and not closed since.** -/
theorem opened_of_replier {es : List (Envelope ρ)} {c : ConnectionId} {replier : ρ}
    (h : (handleAll es .empty).2.repliers[c]? = some replier) :
    ∃ before after, es = before ++ ⟨c, .opening replier⟩ :: after ∧ ⟨c, .closing⟩ ∉ after := by
  induction es using List.reverseRecOn with
  | nil =>
      have hnone : ((∅ : TreeMap ConnectionId ρ)[c]?) = none := by simp
      exact absurd (hnone.symm.trans h) nofun
  | append_singleton es e ih =>
      rw [handleAll_concat, repliers_handle] at h
      have hkept : (handleAll es .empty).2.repliers[c]? = some replier → e ≠ ⟨c, .closing⟩ →
          ∃ before after, es ++ [e] = before ++ ⟨c, .opening replier⟩ :: after
            ∧ ⟨c, .closing⟩ ∉ after := by
        intro hbefore he
        obtain ⟨before, after, rfl, hafter⟩ := ih hbefore
        refine ⟨before, after ++ [e], by simp, ?_⟩
        rw [List.mem_append, List.mem_singleton]
        rintro (hmem | heq)
        · exact hafter hmem
        · exact he heq.symm
      obtain ⟨sender, command⟩ := e
      cases command with
      | opening other =>
          dsimp only at h
          by_cases hsender : sender = c
          · rw [if_pos hsender] at h
            rw [hsender, Option.some.inj h]
            exact ⟨es, [], rfl, List.not_mem_nil⟩
          · rw [if_neg hsender] at h
            exact hkept h nofun
      | closing =>
          dsimp only at h
          by_cases hsender : sender = c
          · rw [if_pos hsender] at h
            exact absurd h nofun
          · rw [if_neg hsender] at h
            refine hkept h fun heq => hsender ?_
            rw [Envelope.mk.injEq] at heq
            exact heq.1
      | request r => exact hkept h nofun
      | malformed => exact hkept h nofun

theorem mem_values_repliers_iff {core : Core ρ} {replier : ρ} :
    replier ∈ core.repliers.values ↔ ∃ c : ConnectionId, core.repliers[c]? = some replier := by
  have hvalues : core.repliers.values = core.repliers.toList.map Prod.snd := by
    show core.repliers.foldr (fun _ v vs => v :: vs) [] = _
    rw [TreeMap.foldr_eq_foldr_toList]
    simp
  rw [hvalues, List.mem_map]
  constructor
  · rintro ⟨⟨c, r⟩, hmem, rfl⟩
    exact ⟨c, TreeMap.mem_toList_iff_getElem?_eq_some.mp hmem⟩
  · rintro ⟨c, hc⟩
    exact ⟨(c, replier), TreeMap.mem_toList_iff_getElem?_eq_some.mpr hc, rfl⟩

/-- Whether a replier was registered in a run and is not any more. -/
def Retired (es : List (Envelope ρ)) (replier : ρ) : Prop :=
  (∃ c, ⟨c, .opening replier⟩ ∈ es) ∧
    ∀ c : ConnectionId, (handleAll es .empty).2.repliers[c]? ≠ some replier

theorem Retired.concat {es : List (Envelope ρ)} {replier : ρ} (h : Retired es replier)
    {e : Envelope ρ} (he : e.command ≠ .opening replier) : Retired (es ++ [e]) replier := by
  obtain ⟨⟨c, hopening⟩, hnone⟩ := h
  refine ⟨⟨c, List.mem_append_left _ hopening⟩, fun c' => ?_⟩
  rw [handleAll_concat]
  exact repliers_handle_ne hnone he c'

/-! ## Who hears -/

theorem mem_send_iff {core : Core ρ} {receiver : ConnectionId} {message : Outbound}
    {d : Delivery ρ} :
    d ∈ core.send receiver message
      ↔ d.receiver = receiver ∧ core.repliers[receiver]? = some d.replier ∧ d.message = message := by
  obtain ⟨r, replier, m⟩ := d
  unfold send
  split
  · next hnone => simp [hnone]
  · next found hfound =>
    rw [hfound, List.mem_singleton, Delivery.mk.injEq, Option.some.injEq]
    exact ⟨fun ⟨h₁, h₂, h₃⟩ => ⟨h₁, h₂.symm, h₃⟩, fun ⟨h₁, h₂, h₃⟩ => ⟨h₁, h₂.symm, h₃⟩⟩

/-- Whether some messages are replies to connections that are registered. -/
def AllReplies (core : Core ρ) (sent : List (Delivery ρ)) : Prop :=
  ∀ d ∈ sent, core.repliers[d.receiver]? = some d.replier ∧ d.message ≠ .closed

theorem allReplies_reply (core : Core ρ) (receiver : ConnectionId) (reply : Reply) :
    core.AllReplies (core.reply receiver reply) := by
  intro d hd
  obtain ⟨rfl, hreplier, hmessage⟩ := mem_send_iff.mp hd
  exact ⟨hreplier, by rw [hmessage]; exact nofun⟩

theorem allReplies_append {core : Core ρ} {sent more : List (Delivery ρ)}
    (h : core.AllReplies sent) (h' : core.AllReplies more) : core.AllReplies (sent ++ more) :=
  fun d hd => (List.mem_append.mp hd).elim (h d) (h' d)

theorem allReplies_perform (core : Core ρ) (sender : ConnectionId) (target : String)
    (arg : Option String) (op : Operation) :
    core.AllReplies (core.perform sender target arg op).1 := by
  cases op with
  | lock =>
      show core.AllReplies (core.lock sender target).1
      rw [lock_fst]
      split
      · exact allReplies_reply _ _ _
      · exact fun _ h => absurd h List.not_mem_nil
  | unlock =>
      show core.AllReplies (core.unlock sender target).1
      rw [unlock_fst]
      split
      · refine allReplies_append (allReplies_reply _ _ _) fun d hd => ?_
        obtain ⟨next, -, hnext⟩ := List.mem_flatMap.mp hd
        exact allReplies_reply _ _ _ d hnext
      · exact allReplies_reply _ _ _
  | get => exact allReplies_reply _ _ _
  | set =>
      simp only [perform]
      split <;> exact allReplies_reply _ _ _
  | incr =>
      simp only [perform]
      split <;> exact allReplies_reply _ _ _

/-- Every command but a closing causes replies only. -/
theorem allReplies_handle (core : Core ρ) {e : Envelope ρ} (he : e.command ≠ .closing) :
    core.AllReplies (core.handle e).1 := by
  obtain ⟨sender, command⟩ := e
  cases command with
  | opening replier => exact fun _ h => absurd h List.not_mem_nil
  | closing => exact absurd rfl he
  | malformed => exact allReplies_reply _ _ _
  | request r =>
      show core.AllReplies (core.request sender r).1
      unfold request
      split
      · exact allReplies_reply _ _ _
      · exact allReplies_perform _ _ _ _ _

/-- A closing tells its sender so, and causes replies to others. -/
theorem handle_closing (core : Core ρ) {e : Envelope ρ} (he : e.command = .closing) :
    ∃ grants, (core.handle e).1 = core.send e.sender .closed ++ grants ∧
      core.AllReplies grants ∧ ∀ d ∈ grants, d.receiver ≠ e.sender := by
  obtain ⟨sender, command⟩ := e
  subst he
  refine ⟨_, rfl, ?_⟩
  have hgrant : ∀ d ∈ (core.table.remove sender).1.flatMap ((core.closing sender).2.reply · .ok),
      (core.repliers[d.receiver]? = some d.replier ∧ d.message ≠ .closed) ∧ d.receiver ≠ sender := by
    intro d hd
    obtain ⟨c, -, hc⟩ := List.mem_flatMap.mp hd
    have hreply := allReplies_reply _ _ _ d hc
    have hafter : (core.closing sender).2.repliers[d.receiver]?
        = if sender = d.receiver then none else core.repliers[d.receiver]? :=
      core.repliers_handle ⟨sender, .closing⟩ d.receiver
    rw [hafter] at hreply
    split at hreply
    · exact absurd hreply.1 nofun
    · next hne => exact ⟨hreply, fun heq => hne heq.symm⟩
  exact ⟨fun d hd => (hgrant d hd).1, fun d hd => (hgrant d hd).2⟩

/-- Messages go through repliers that are registered. -/
theorem replier_of_mem_handle {core : Core ρ} {e : Envelope ρ} {d : Delivery ρ}
    (hd : d ∈ (core.handle e).1) : core.repliers[d.receiver]? = some d.replier := by
  by_cases he : e.command = .closing
  · obtain ⟨grants, hsent, hgrants, -⟩ := core.handle_closing he
    rw [hsent] at hd
    rcases List.mem_append.mp hd with hd | hd
    · obtain ⟨hreceiver, hreplier, -⟩ := mem_send_iff.mp hd
      rw [hreceiver]
      exact hreplier
    · exact (hgrants d hd).1
  · exact (core.allReplies_handle he d hd).1

/-- The core says `closed` to nobody but who closes. -/
theorem sender_of_closed {core : Core ρ} {e : Envelope ρ} {d : Delivery ρ}
    (hd : d ∈ (core.handle e).1) (hmessage : d.message = .closed) :
    e.command = .closing ∧ d.receiver = e.sender := by
  have he : e.command = .closing := by
    by_contra he
    exact (core.allReplies_handle he d hd).2 hmessage
  obtain ⟨grants, hsent, hgrants, -⟩ := core.handle_closing he
  rw [hsent] at hd
  rcases List.mem_append.mp hd with hd | hd
  · exact ⟨he, (mem_send_iff.mp hd).1⟩
  · exact absurd hmessage (hgrants d hd).2

/-! ## One replier -/

variable [DecidableEq ρ]

/-- What goes through one replier. -/
def through (replier : ρ) (sent : List (Delivery ρ)) : List Outbound :=
  (sent.filter (·.replier = replier)).map (·.message)

@[simp] theorem through_nil (replier : ρ) : through replier [] = [] := rfl

@[simp] theorem through_append (replier : ρ) (sent more : List (Delivery ρ)) :
    through replier (sent ++ more) = through replier sent ++ through replier more := by
  simp [through]

theorem through_cons (replier : ρ) (d : Delivery ρ) (sent : List (Delivery ρ)) :
    through replier (d :: sent)
      = if d.replier = replier then d.message :: through replier sent
        else through replier sent := by
  unfold through
  rw [List.filter_cons]
  split <;> simp_all

theorem mem_through_iff {replier : ρ} {sent : List (Delivery ρ)} {message : Outbound} :
    message ∈ through replier sent
      ↔ ∃ d ∈ sent, d.replier = replier ∧ d.message = message := by
  simp [through, and_assoc]

/-- A replier that is not registered hears nothing. -/
theorem through_handle_eq_nil {core : Core ρ} {replier : ρ}
    (h : ∀ c : ConnectionId, core.repliers[c]? ≠ some replier) (e : Envelope ρ) :
    through replier (core.handle e).1 = [] := by
  rw [List.eq_nil_iff_forall_not_mem]
  intro message hmessage
  obtain ⟨d, hd, rfl, -⟩ := mem_through_iff.mp hmessage
  exact h _ (replier_of_mem_handle hd)

/-- **The last message.**  A replier of one connection only that hears `closed` hears nothing else
in that step, and is registered no more. -/
theorem through_of_closed {core : Core ρ} {replier : ρ} {owner : ConnectionId}
    (howner : ∀ c : ConnectionId, core.repliers[c]? = some replier → c = owner) {e : Envelope ρ}
    (h : .closed ∈ through replier (core.handle e).1) :
    through replier (core.handle e).1 = [.closed] ∧ core.repliers[owner]? = some replier ∧
      ∀ c : ConnectionId, (core.handle e).2.repliers[c]? ≠ some replier := by
  obtain ⟨d, hd, hreplier, hmessage⟩ := mem_through_iff.mp h
  obtain ⟨he, hlast⟩ := sender_of_closed hd hmessage
  obtain ⟨grants, hsent, hgrants, hothers⟩ := core.handle_closing he
  have hregistered : core.repliers[d.receiver]? = some replier := by
    rw [← hreplier]
    exact replier_of_mem_handle hd
  have hsender : e.sender = owner := by
    rw [← hlast]
    exact howner _ hregistered
  rw [hlast, hsender] at hregistered
  have hnone : through replier grants = [] := by
    rw [List.eq_nil_iff_forall_not_mem]
    intro message hmem
    obtain ⟨g, hg, hgreplier, -⟩ := mem_through_iff.mp hmem
    have hgowner := howner _ (hgreplier ▸ (hgrants g hg).1)
    exact hothers g hg (hgowner.trans hsender.symm)
  refine ⟨?_, hregistered, fun c => ?_⟩
  · rw [hsent, through_append, hnone, hsender, send, hregistered]
    simp [through]
  · rw [repliers_handle, he]
    dsimp only
    intro hc
    split at hc
    · exact absurd hc nofun
    · next hne => exact hne (hsender.trans (howner c hc).symm)

end Core

end LockService
