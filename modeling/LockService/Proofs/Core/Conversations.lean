import LockService.Proofs.Core.Orderly

/-!
# Conversations

What one connection has to tell the core is a *conversation*: that it is open, its requests, perhaps
that it received something that is no request, and that it has closed
(`Command.IsConversation`).  In the history of the core the conversations of many connections are
mixed, and the last ones are cut short.

If nobody says anything else (`Core.Conversational`) then the history is orderly
(`Core.Conversational.orderly`), and no reply is dropped because its receiver cannot be reached
(`Core.Conversational.repliedTo_eq`).
-/

namespace LockService

namespace Command

variable {ρ : Type}

/-- Whether commands are all that one connection has to say, from its opening to its closing. -/
def IsConversation (replier : ρ) (commands : List (Command ρ)) : Prop :=
  ∃ (requests : List Request) (broken : Bool),
    commands = .opening replier :: requests.map .request
      ++ (if broken then [.malformed] else []) ++ [.closing]

/-- A conversation is an opening, things that want a reply, and a closing. -/
theorem IsConversation.exists_middle {replier : ρ} {commands : List (Command ρ)}
    (h : IsConversation replier commands) :
    ∃ middle : List (Command ρ), commands = .opening replier :: (middle ++ [.closing]) ∧
      (∀ r, .opening r ∉ middle) ∧ .closing ∉ middle := by
  obtain ⟨requests, broken, rfl⟩ := h
  refine ⟨requests.map .request ++ if broken then [.malformed] else [], by simp, ?_, ?_⟩
  · cases broken <;> simp
  · cases broken <;> simp

/-- **Where a command of a conversation stands.**  It opens the conversation, or it is no opening
and comes while the connection is open. -/
theorem IsConversation.cases_of_split {replier : ρ} {said later : List (Command ρ)}
    {command : Command ρ} (h : IsConversation replier (said ++ command :: later)) :
    said = [] ∧ command = .opening replier ∨
      said.foldl leavesOpen false = true ∧ ∀ r, command ≠ .opening r := by
  obtain ⟨middle, hwhole, hopening, hclosing⟩ := h.exists_middle
  cases said with
  | nil => exact .inl ⟨rfl, (List.cons.inj hwhole).1⟩
  | cons first said =>
      obtain ⟨rfl, hrest⟩ := List.cons.inj (List.cons_append ▸ hwhole)
      refine .inr ⟨?_, fun r => ?_⟩
      · have hsaid : said <+: middle := by
          refine ⟨(command :: later).dropLast, ?_⟩
          rw [← List.dropLast_append_of_ne_nil (List.cons_ne_nil command later), hrest,
            List.dropLast_concat]
        exact foldl_leavesOpen fun hmem => hclosing (hsaid.subset hmem)
      · rintro rfl
        have hmem : .opening r ∈ middle ++ [.closing] := by
          rw [← hrest]
          simp
        rcases List.mem_append.mp hmem with hmem | hmem
        · exact hopening r hmem
        · exact absurd (List.mem_singleton.mp hmem) nofun

/-- Nothing follows a closing. -/
theorem IsConversation.eq_nil_of_closing {replier : ρ} {said later : List (Command ρ)}
    (h : IsConversation replier (said ++ .closing :: later)) : later = [] := by
  obtain ⟨middle, hwhole, -, hclosing⟩ := h.exists_middle
  cases later using List.reverseRecOn with
  | nil => rfl
  | append_singleton later last =>
      have hmem : .closing ∈ .opening replier :: middle := by
        have hall : (said ++ .closing :: later) ++ [last]
            = (.opening replier :: middle) ++ [.closing] := by
          rw [List.append_assoc, List.cons_append, hwhole, List.cons_append]
        rw [← (List.append_inj' hall rfl).1]
        simp
      rcases List.mem_cons.mp hmem with heq | hmem
      · exact absurd heq nofun
      · exact absurd hmem hclosing

/-- A conversation has one closing. -/
theorem IsConversation.count_closing [DecidableEq ρ] {replier : ρ} {commands : List (Command ρ)}
    (h : IsConversation replier commands) : commands.count .closing = 1 := by
  obtain ⟨middle, rfl, -, hclosing⟩ := h.exists_middle
  rw [List.count_cons_of_ne (by simp), List.count_append, List.count_eq_zero.mpr hclosing]
  rfl

end Command

namespace Core

variable {ρ : Type}

/-- Whether everybody in a history has said the beginning of a conversation. -/
def Conversational (history : List (Envelope ρ)) : Prop :=
  ∀ e ∈ history, ∃ replier whole, Command.IsConversation replier whole ∧
    told e.sender history <+: whole

theorem Conversational.of_append {history more : List (Envelope ρ)}
    (h : Conversational (history ++ more)) : Conversational history := by
  intro e he
  obtain ⟨replier, whole, hwhole, hsaid⟩ := h e (List.mem_append_left _ he)
  rw [told_append] at hsaid
  exact ⟨replier, whole, hwhole, (List.prefix_append ..).trans hsaid⟩

theorem Conversational.cases_of_split {before after : List (Envelope ρ)} {e : Envelope ρ}
    (h : Conversational (before ++ e :: after)) :
    told e.sender before = [] ∧ (∃ replier, e.command = .opening replier) ∨
      isOpen e.sender before = true ∧ ∀ replier, e.command ≠ .opening replier := by
  obtain ⟨replier, _, hwhole, later, rfl⟩ := h e (by simp)
  rw [told_append, told_cons, if_pos rfl, List.append_assoc, List.cons_append] at hwhole
  rcases hwhole.cases_of_split with ⟨hnil, hopening⟩ | hopen
  · exact .inl ⟨hnil, replier, hopening⟩
  · exact .inr hopen

/-- Whoever has closed says nothing more. -/
theorem Conversational.sender_ne_of_closing {before after : List (Envelope ρ)} {e : Envelope ρ}
    (h : Conversational (before ++ e :: after)) (hclosing : e.command = .closing) :
    ∀ f ∈ after, f.sender ≠ e.sender := by
  obtain ⟨replier, _, hwhole, later, rfl⟩ := h e (by simp)
  rw [told_append, told_cons, if_pos rfl, hclosing, List.append_assoc, List.cons_append] at hwhole
  have hnothing := (List.append_eq_nil_iff.mp hwhole.eq_nil_of_closing).1
  intro f hf hsender
  have hsaid : f.command ∈ told e.sender after := mem_told_iff.mpr (hsender ▸ hf)
  rw [hnothing] at hsaid
  cases hsaid

/-- **Conversations are orderly**, however they are mixed. -/
theorem Conversational.orderly {history : List (Envelope ρ)} (h : Conversational history) :
    Orderly history := by
  induction history using List.reverseRecOn with
  | nil => exact orderly_nil
  | append_singleton history e ih =>
      have hbefore := ih h.of_append
      refine orderly_concat_iff.mpr ⟨hbefore, ?_⟩
      obtain ⟨sender, command⟩ := e
      rcases h.cases_of_split with ⟨hnil, replier, hopening⟩ | ⟨hopen, hother⟩
      · obtain rfl : command = .opening replier := hopening
        show (handleAll history .empty).2.table.views.isRegistered sender = false
        rw [hbefore.isRegistered_eq, isOpen, hnil]
        rfl
      · cases command with
        | opening replier => exact absurd rfl (hother replier)
        | closing => trivial
        | request r => exact hopen
        | malformed => trivial

/-- **No reply is dropped**: whoever the core has a reply for is replied to. -/
theorem Conversational.repliedTo_eq {before after : List (Envelope ρ)} {e : Envelope ρ}
    (h : Conversational (before ++ e :: after)) :
    repliedTo ((handleAll before .empty).2.handle e).1 = (handleAll before .empty).2.audience e := by
  refine repliedTo_eq_audience fun c hc => ?_
  refine h.orderly.of_append.canReach_audience (h.orderly before e after rfl) ?_ hc
  intro hmalformed
  rcases h.cases_of_split with ⟨-, replier, hopening⟩ | ⟨hopen, -⟩
  · exact absurd (hmalformed.symm.trans hopening) nofun
  · exact hopen

end Core

end LockService
