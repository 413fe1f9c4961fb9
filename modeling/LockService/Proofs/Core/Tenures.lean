import Mathlib.Data.List.TakeWhile
import LockService.Proofs.Core.Balance

/-!
# The tenure of a replier

A replier is handed over with one opening, and whoever listens at its other end has nothing but the
messages that come through it.  The listener ends with the message `closed`, so that message must
come, must come once, and nothing may come after it; but the messages of a replier are caused by
envelopes of all connections, in histories in which connections open twice, ask before they open, or
close again and again.

The *tenure* of a replier are the envelopes from its opening to the next opening or closing of the same
connection.

* `Core.Serves` — a replier that is registered for one connection and for no other.  It stays so for
  its tenure (`Serves.handleAll`) and hears replies only (`Serves.reply_of_mem_through`).
* `Core.Unregistered` — a replier that is registered for nobody.  It stays so and hears nothing
  (`Unregistered.handleAll`).
* **`Core.stream_of_replier`** — so a replier hears replies in its tenure and nothing outside of it; if
  a closing ends the tenure then it hears `closed`, as the first message of that step and the last one
  of its own, and if an opening does then it hears no more while the connection keeps its place in
  every queue.
-/

namespace LockService

open Std (TreeMap)

namespace Core

variable {ρ : Type}

/-! ## Registered for nobody -/

/-- Whether a replier is registered for nobody. -/
def Unregistered (core : Core ρ) (replier : ρ) : Prop :=
  ∀ c : ConnectionId, core.repliers[c]? ≠ some replier

theorem unregistered_empty (replier : ρ) : (empty : Core ρ).Unregistered replier := by
  intro c
  simp [empty]

theorem command_ne_of_not_mem {replier : ρ} {e : Envelope ρ} {es : List (Envelope ρ)}
    (h : ∀ c, ⟨c, .opening replier⟩ ∉ e :: es) : e.command ≠ .opening replier := by
  intro heq
  refine h e.sender ?_
  rw [← heq]
  exact List.mem_cons_self

/-- A replier that is registered for nobody hears nothing, as long as nobody opens with it. -/
theorem Unregistered.handleAll [DecidableEq ρ] {core : Core ρ} {replier : ρ}
    (h : core.Unregistered replier) {es : List (Envelope ρ)} (hes : ∀ c, ⟨c, .opening replier⟩ ∉ es) :
    through replier (handleAll es core).1 = [] ∧ (handleAll es core).2.Unregistered replier := by
  induction es generalizing core with
  | nil => exact ⟨rfl, h⟩
  | cons e es ih =>
      have he := command_ne_of_not_mem hes
      have hrest : ∀ c, ⟨c, .opening replier⟩ ∉ es :=
        fun c hmem => hes c (List.mem_cons_of_mem _ hmem)
      have hnext : (core.handle e).2.Unregistered replier := repliers_handle_ne h he
      obtain ⟨hsilent, hafter⟩ := ih hnext hrest
      refine ⟨?_, hafter⟩
      simp only [Core.handleAll, through_append, through_handle_eq_nil h e, hsilent,
        List.append_nil]

/-! ## Registered for one connection -/

/-- Whether a replier is registered for a connection and for no other. -/
def Serves (core : Core ρ) (replier : ρ) (c : ConnectionId) : Prop :=
  ∀ d : ConnectionId, core.repliers[d]? = some replier ↔ d = c

section

variable {core : Core ρ} {replier : ρ} {c : ConnectionId} {e : Envelope ρ}

/-- A replier that was registered for nobody serves whoever opens with it. -/
theorem Unregistered.serves_opening (h : core.Unregistered replier) (c : ConnectionId) :
    (core.handle ⟨c, .opening replier⟩).2.Serves replier c := by
  intro d
  rw [repliers_handle]
  dsimp only
  by_cases hd : c = d
  · simp [hd]
  · rw [if_neg hd]
    exact ⟨fun hregistered => absurd hregistered (h d), fun heq => absurd heq.symm hd⟩

/-- A replier serves its connection until that opens again or closes. -/
theorem Serves.handle (h : core.Serves replier c) (hown : e.sender = c → e.command.wantsReply = true)
    (he : e.command ≠ .opening replier) : (core.handle e).2.Serves replier c := by
  intro d
  by_cases hd : d = c
  · subst hd
    rw [repliers_handle_of_wantsReply hown, h d]
  · refine iff_of_false ?_ hd
    rw [repliers_handle]
    split
    · next other hother =>
      split
      · intro heq
        rw [hother, Option.some.inj heq] at he
        exact he rfl
      · exact fun hregistered => hd ((h d).mp hregistered)
    · split
      · exact nofun
      · exact fun hregistered => hd ((h d).mp hregistered)
    · exact fun hregistered => hd ((h d).mp hregistered)
    · exact fun hregistered => hd ((h d).mp hregistered)

variable [DecidableEq ρ]

/-- While it serves its connection, a replier hears replies only. -/
theorem Serves.reply_of_mem_through (h : core.Serves replier c)
    (hown : e.sender = c → e.command.wantsReply = true) (he : e.command ≠ .opening replier)
    {message : Outbound} (hmessage : message ∈ through replier (core.handle e).1) :
    ∃ reply, message = .reply reply := by
  cases message with
  | reply reply => exact ⟨reply, rfl⟩
  | closed =>
      -- a replier that hears `closed` is registered for nobody afterwards
      obtain ⟨-, -, hgone⟩ := through_of_closed (fun d hd => (h d).mp hd) hmessage
      exact absurd ((h.handle hown he c).mpr rfl) (hgone c)

/-- A closing says so to the replier of its connection before anything else, and dismisses it. -/
theorem Serves.closing (h : core.Serves replier c) :
    (core.handle ⟨c, .closing⟩).1.head? = some ⟨c, replier, .closed⟩ ∧
      through replier (core.handle ⟨c, .closing⟩).1 = [.closed] ∧
      (core.handle ⟨c, .closing⟩).2.Unregistered replier := by
  obtain ⟨grants, hsent, -, -⟩ := core.handle_closing (e := ⟨c, .closing⟩) rfl
  have hown : core.send c .closed = [⟨c, replier, .closed⟩] := by
    rw [send, (h c).mpr rfl]
  rw [hown, List.singleton_append] at hsent
  have hheard : .closed ∈ through replier (core.handle ⟨c, .closing⟩).1 := by
    rw [hsent, through_cons, if_pos rfl]
    exact List.mem_cons_self
  obtain ⟨hlast, -, hgone⟩ := through_of_closed (fun d hd => (h d).mp hd) hheard
  exact ⟨by rw [hsent]; rfl, hlast, hgone⟩

/-- An opening dismisses the replier that its connection had, without a word. -/
theorem Serves.opening (h : core.Serves replier c) {other : ρ} (hother : other ≠ replier) :
    through replier (core.handle ⟨c, .opening other⟩).1 = [] ∧
      (core.handle ⟨c, .opening other⟩).2.Unregistered replier := by
  refine ⟨rfl, fun d => ?_⟩
  rw [repliers_handle]
  dsimp only
  split
  · exact fun heq => hother (Option.some.inj heq)
  · next hd => exact fun hregistered => hd ((h d).mp hregistered).symm

/-- What a replier hears while it serves its connection. -/
theorem Serves.handleAll (h : core.Serves replier c) {es : List (Envelope ρ)}
    (hown : ∀ e ∈ es, e.sender = c → e.command.wantsReply = true)
    (hes : ∀ d, ⟨d, .opening replier⟩ ∉ es) :
    (∀ message ∈ through replier (Core.handleAll es core).1, ∃ reply, message = .reply reply) ∧
      (Core.handleAll es core).2.Serves replier c := by
  induction es generalizing core with
  | nil => exact ⟨fun _ hmem => absurd hmem List.not_mem_nil, h⟩
  | cons e es ih =>
      have he := command_ne_of_not_mem hes
      have hfirst := hown e List.mem_cons_self
      obtain ⟨hreplies, hafter⟩ := ih (h.handle hfirst he)
        (fun f hf => hown f (List.mem_cons_of_mem _ hf))
        (fun d hmem => hes d (List.mem_cons_of_mem _ hmem))
      refine ⟨fun message hmessage => ?_, hafter⟩
      simp only [Core.handleAll, through_append, List.mem_append] at hmessage
      rcases hmessage with hnow | hlater
      · exact h.reply_of_mem_through hfirst he hnow
      · exact hreplies message hlater

end

/-! ## Tenures -/

/-- Whether an envelope leaves a connection the replier that it has. -/
def keepsReplier (c : ConnectionId) (e : Envelope ρ) : Bool :=
  e.sender ≠ c || e.command.wantsReply

/-- What is handled while a connection has the replier that it opened with, out of everything that
follows the opening. -/
def tenure (c : ConnectionId) (after : List (Envelope ρ)) : List (Envelope ρ) :=
  after.takeWhile (keepsReplier c)

/-- What follows from the next opening or closing of a connection on. -/
def afterTenure (c : ConnectionId) (after : List (Envelope ρ)) : List (Envelope ρ) :=
  after.dropWhile (keepsReplier c)

theorem tenure_append_afterTenure (c : ConnectionId) (after : List (Envelope ρ)) :
    tenure c after ++ afterTenure c after = after :=
  List.takeWhile_append_dropWhile

theorem wantsReply_of_mem_tenure {c : ConnectionId} {after : List (Envelope ρ)} {e : Envelope ρ}
    (h : e ∈ tenure c after) (hsender : e.sender = c) : e.command.wantsReply = true := by
  have hkeeps := List.mem_takeWhile_imp h
  simpa [keepsReplier, hsender] using hkeeps

/-- A tenure goes on for ever, or ends with a closing, or with another opening. -/
theorem afterTenure_cases (c : ConnectionId) (after : List (Envelope ρ)) :
    afterTenure c after = [] ∨
      (∃ later, afterTenure c after = ⟨c, .closing⟩ :: later) ∨
      ∃ other later, afterTenure c after = ⟨c, .opening other⟩ :: later := by
  induction after with
  | nil => exact .inl rfl
  | cons e after ih =>
      rw [afterTenure, List.dropWhile_cons]
      split
      · exact ih
      · next hends =>
        obtain ⟨sender, command⟩ := e
        obtain ⟨rfl, hcommand⟩ : sender = c ∧ command.wantsReply = false := by
          simpa [keepsReplier] using hends
        cases command with
        | opening other => exact .inr (.inr ⟨other, after, rfl⟩)
        | closing => exact .inr (.inl ⟨after, rfl⟩)
        | request r => cases hcommand
        | malformed => cases hcommand

variable [DecidableEq ρ]

/-- **The messages of a replier.**  Let a connection open, anywhere in any history, with a replier that
nobody else opens with.  Then the replier

* hears nothing before and when it is registered;
* hears replies only until the connection closes or opens again;
* if the connection closes then, hears `closed` before anybody else hears of this step, nothing else in
  this step, and nothing ever after;
* if the connection opens again instead, hears nothing from then on, while the connection keeps what it
  holds and waits for, and everybody their place. -/
theorem stream_of_replier {c : ConnectionId} {replier : ρ} {before after : List (Envelope ρ)}
    (hfresh : ∀ d, ⟨d, .opening replier⟩ ∉ before ++ after) :
    let start := handleAll (before ++ [⟨c, .opening replier⟩]) .empty
    let during := handleAll (tenure c after) start.2
    through replier start.1 = [] ∧
    (∀ message ∈ through replier during.1, ∃ reply, message = .reply reply) ∧
    (afterTenure c after = [] ∨
      (∃ later, afterTenure c after = ⟨c, .closing⟩ :: later ∧
        let last := during.2.handle ⟨c, .closing⟩
        last.1.head? = some ⟨c, replier, .closed⟩ ∧ through replier last.1 = [.closed] ∧
          through replier (handleAll later last.2).1 = []) ∨
      ∃ other later, afterTenure c after = ⟨c, .opening other⟩ :: later ∧
        through replier (handleAll (afterTenure c after) during.2).1 = [] ∧
        ∀ key, (during.2.handle ⟨c, .opening other⟩).2.table.views.queue key
            = during.2.table.views.queue key ∧
          ∀ d, (during.2.handle ⟨c, .opening other⟩).2.table.views.stake d key
            = during.2.table.views.stake d key) := by
  intro start during
  have hbefore : ∀ d, ⟨d, .opening replier⟩ ∉ before :=
    fun d hmem => hfresh d (List.mem_append_left _ hmem)
  have hafter : ∀ d, ⟨d, .opening replier⟩ ∉ after :=
    fun d hmem => hfresh d (List.mem_append_right _ hmem)
  have hsplit := tenure_append_afterTenure c after
  have htenure : ∀ d, ⟨d, .opening replier⟩ ∉ tenure c after := by
    intro d hmem
    refine hafter d ?_
    rw [← hsplit]
    exact List.mem_append_left _ hmem
  have hrest : ∀ d, ⟨d, .opening replier⟩ ∉ afterTenure c after := by
    intro d hmem
    refine hafter d ?_
    rw [← hsplit]
    exact List.mem_append_right _ hmem
  obtain ⟨hsilent, hunregistered⟩ := (unregistered_empty replier).handleAll hbefore
  have hstart : start = ((handleAll before .empty).1
      ++ ((handleAll before .empty).2.handle ⟨c, .opening replier⟩).1,
        ((handleAll before .empty).2.handle ⟨c, .opening replier⟩).2) := handleAll_concat _ _ _
  have hserves : start.2.Serves replier c := by
    rw [hstart]
    exact hunregistered.serves_opening c
  obtain ⟨hreplies, hduring⟩ := hserves.handleAll
    (fun e he => wantsReply_of_mem_tenure he) htenure
  refine ⟨?_, hreplies, ?_⟩
  · rw [hstart, through_append, hsilent]
    rfl
  · rcases afterTenure_cases c after with hnil | ⟨later, hlater⟩ | ⟨other, later, hlater⟩
    · exact .inl hnil
    · obtain ⟨hhead, hlast, hgone⟩ := Serves.closing hduring
      rw [hlater] at hrest
      have hnone := hgone.handleAll fun d hmem => hrest d (List.mem_cons_of_mem _ hmem)
      exact .inr (.inl ⟨later, hlater, hhead, hlast, hnone.1⟩)
    · rw [hlater] at hrest
      have hother : other ≠ replier := by
        rintro rfl
        exact hrest c List.mem_cons_self
      obtain ⟨hnow, hgone⟩ := Serves.opening hduring hother
      have hnone := hgone.handleAll fun d hmem => hrest d (List.mem_cons_of_mem _ hmem)
      refine .inr (.inr ⟨other, later, hlater, ?_, fun key => ⟨rfl, fun d => ?_⟩⟩)
      · rw [hlater]
        show through replier ((during.2.handle ⟨c, .opening other⟩).1
          ++ (handleAll later (during.2.handle ⟨c, .opening other⟩).2).1) = []
        rw [through_append, hnow, hnone.1]
        rfl
      · exact Views.stake_register _ _ _ _

/-- For instance a connection that asks for a key before it opens, waits for another one until that is
passed on to it, then closes, closes once more, asks for a counter and opens anew. -/
theorem stream_of_replier_closed :
    let ask (op target : String) : Command Nat := .request ⟨op, target, none⟩
    let before : List (Envelope Nat) :=
      [⟨⟨1⟩, ask "lock" "b"⟩, ⟨⟨2⟩, .opening 20⟩, ⟨⟨2⟩, ask "lock" "a"⟩]
    let after : List (Envelope Nat) :=
      [⟨⟨1⟩, ask "lock" "a"⟩, ⟨⟨2⟩, ask "lock" "b"⟩, ⟨⟨2⟩, ask "unlock" "a"⟩, ⟨⟨1⟩, .closing⟩,
        ⟨⟨1⟩, .closing⟩, ⟨⟨1⟩, ask "get" "n"⟩, ⟨⟨1⟩, .opening 11⟩, ⟨⟨1⟩, .closing⟩]
    let start := handleAll (before ++ [⟨⟨1⟩, .opening 10⟩]) .empty
    let during := handleAll (tenure ⟨1⟩ after) start.2
    (∀ d, ⟨d, .opening 10⟩ ∉ before ++ after) ∧
      through 10 during.1 = [.reply .ok] ∧
      ∃ later, afterTenure ⟨1⟩ after = ⟨⟨1⟩, .closing⟩ :: later ∧ later.length = 4 ∧
        let last := during.2.handle ⟨⟨1⟩, .closing⟩
        last.1.map (·.receiver) = [⟨1⟩, ⟨2⟩] ∧ through 10 last.1 = [.closed] ∧
          through 10 (handleAll later last.2).1 = [] := by
  intro ask before after start during
  have hfresh : ∀ d, ⟨d, .opening 10⟩ ∉ before ++ after := by
    intro d
    simp [before, after, ask]
  obtain ⟨-, -, hend⟩ := stream_of_replier (c := ⟨1⟩) hfresh
  have hafter : afterTenure ⟨1⟩ after = ⟨⟨1⟩, .closing⟩ :: after.drop 4 := by decide +kernel
  refine ⟨hfresh, by decide +kernel, after.drop 4, hafter, rfl, by decide +kernel, ?_⟩
  rcases hend with hnil | ⟨later, hlater, -, hlast, hnone⟩ | ⟨other, later, hlater, -⟩
  · cases hafter.symm.trans hnil
  · cases hafter.symm.trans hlater
    exact ⟨hlast, hnone⟩
  · cases hafter.symm.trans hlater

end Core

end LockService
