import LockService.Proofs.Connection.Flow
import LockService.Proofs.Connection.Intact
import LockService.Proofs.Core.Repliers

/-!
# Faithful links

A link is faithful to a run of the core if the bytes that its peer has read, those under way, and
those of the messages still to be delivered are together the bytes of all that the core has sent
through the link (`Link.Faithful`).

For this to be kept, nothing may be sent to a link whose outbound task is gone, and nothing may be
queued when the task throws its queue away.  Both hold because `closed` is the last message: once it
is among those that the task has not finished with, nothing stands behind it and the core cannot
reach the link any more.  `Outbound.ClosesLast` and `Core.Retired` say so, and are part of being
faithful.
-/

namespace LockService

namespace Outbound

/-- Whether nothing comes after `closed`. -/
def ClosesLast (messages : List Outbound) : Prop :=
  .closed ∉ messages.dropLast

theorem ClosesLast.of_suffix {messages more : List Outbound} (h : ClosesLast more)
    (hsuffix : messages <:+ more) : ClosesLast messages := by
  obtain ⟨before, rfl⟩ := hsuffix
  by_cases hnil : messages = []
  · subst hnil
    exact List.not_mem_nil
  · rw [ClosesLast, List.dropLast_append_of_ne_nil hnil] at h
    exact fun hmem => h (List.mem_append_right _ hmem)

theorem closesLast_concat {messages : List Outbound} (h : .closed ∉ messages)
    (message : Outbound) : ClosesLast (messages ++ [message]) := by
  rw [ClosesLast, List.dropLast_concat]
  exact h

theorem ClosesLast.eq_nil {rest : List Outbound} (h : ClosesLast (.closed :: rest)) :
    rest = [] := by
  cases rest with
  | nil => rfl
  | cons message rest =>
      rw [ClosesLast, List.dropLast_cons_cons] at h
      exact absurd List.mem_cons_self h

end Outbound

namespace Link

open Outbound (ClosesLast)

/-- Whether a link and its peer are faithful to a run of the core in which `history` was handled,
and of which the messages `pending` are still to be delivered. -/
structure Faithful (position : Nat) (l : Link) (p : Peer) (pending : List (Delivery Nat))
    (history : List (Envelope Nat)) : Prop where
  intact : l.Intact p
  bytes_eq : p.received ++ l.underway ++ (Core.through position pending).flatMap Outbound.bytes
    = replyBytes history position
  closing : .closed ∈ l.unfinished ++ Core.through position pending →
    ClosesLast (l.unfinished ++ Core.through position pending) ∧ Core.Retired history position

namespace Faithful

variable {position : Nat} {l l' : Link} {p p' : Peer} {pending : List (Delivery Nat)}
  {history : List (Envelope Nat)}

/-- An outbound task that is closing the stream has nothing left to take, now or later. -/
theorem of_closing (h : Faithful position l p pending history) (hat : l.current = [.closed]) :
    l.replies.items = [] ∧ Core.through position pending = [] ∧ Core.Retired history position := by
  have heq : l.unfinished ++ Core.through position pending
      = .closed :: (l.replies.items ++ Core.through position pending) := by
    rw [unfinished, hat]
    rfl
  have hclosing := h.closing
  rw [heq] at hclosing
  obtain ⟨hlast, hretired⟩ := hclosing List.mem_cons_self
  have hnil := List.append_eq_nil_iff.mp hlast.eq_nil
  exact ⟨hnil.1, hnil.2, hretired⟩

theorem items_of_shutting (h : Faithful position l p pending history)
    (hat : l.outbound = .shutting) : l.replies.items = [] :=
  (h.of_closing (by rw [current, hat])).1

/-- A move of a task or of the peer that loses nothing. -/
theorem pass (h : Faithful position l p pending history) (hintact : l'.Intact p')
    (hbytes : p'.received ++ l'.underway = p.received ++ l.underway)
    (hrest : l'.unfinished <:+ l.unfinished) : Faithful position l' p' pending history where
  intact := hintact
  bytes_eq := by rw [hbytes]; exact h.bytes_eq
  closing hclosed := by
    have hsuffix : l'.unfinished ++ Core.through position pending
        <:+ l.unfinished ++ Core.through position pending := by
      obtain ⟨before, hbefore⟩ := hrest
      exact ⟨before, by rw [← List.append_assoc, hbefore]⟩
    obtain ⟨hlast, hretired⟩ := h.closing (hsuffix.subset hclosed)
    exact ⟨hlast.of_suffix hsuffix, hretired⟩

/-- The core handles an envelope: its messages are pending now, and the one that closes the link is
the last of them. -/
theorem handle (h : Faithful position l p [] history) {e : Envelope Nat} {owner : ConnectionId}
    (hopening : Core.Retired history position → e.command ≠ .opening position)
    (howner : ∀ c : ConnectionId,
      (Core.handleAll history .empty).2.repliers[c]? = some position → c = owner) :
    Faithful position l p ((Core.handleAll history .empty).2.handle e).1 (history ++ [e]) where
  intact := h.intact
  bytes_eq := by
    have hbytes := h.bytes_eq
    rw [Core.through_nil, List.flatMap_nil, List.append_nil] at hbytes
    rw [replyBytes, Core.handleAll_concat, Core.through_append, List.flatMap_append, hbytes,
      replyBytes]
  closing hclosed := by
    have hclosing := h.closing
    rw [Core.through_nil, List.append_nil] at hclosing
    by_cases hbefore : .closed ∈ l.unfinished
    · obtain ⟨hlast, hretired⟩ := hclosing hbefore
      have hnone := Core.through_handle_eq_nil hretired.2 e
      rw [hnone, List.append_nil]
      exact ⟨hlast, hretired.concat (hopening hretired)⟩
    · have hsent := (List.mem_append.mp hclosed).resolve_left hbefore
      obtain ⟨heq, hheld, hgone⟩ := Core.through_of_closed howner hsent
      rw [heq]
      refine ⟨Outbound.closesLast_concat hbefore _, ?_, ?_⟩
      · obtain ⟨before, after, hhistory, -⟩ := Core.opened_of_replier hheld
        refine ⟨owner, List.mem_append_left _ ?_⟩
        rw [hhistory]
        exact List.mem_append_right _ List.mem_cons_self
      · rw [Core.handleAll_concat]
        exact hgone

/-- The core delivers a message through the link. -/
theorem deliver {message : Outbound} {receiver : ConnectionId}
    (h : Faithful position l p (⟨receiver, position, message⟩ :: pending) history)
    (hdown : (l.receive message).hungUp = false) :
    Faithful position (l.receive message) p pending history := by
  have hthrough : Core.through position (⟨receiver, position, message⟩ :: pending)
      = message :: Core.through position pending := by
    rw [Core.through_cons, if_pos rfl]
  have hthere : l.outbound.isEnded = false := by
    cases hat : l.outbound with
    | ended =>
        have hnone := (h.of_closing (by rw [current, hat])).2.1
        rw [hthrough] at hnone
        cases hnone
    | _ => rfl
  have hbytes := h.bytes_eq
  have hclosing := h.closing
  rw [hthrough] at hbytes hclosing
  constructor
  case intact => exact intact_receive message h.intact
  case bytes_eq =>
    rw [underway_receive hthere hdown, ← hbytes, List.flatMap_cons]
    simp only [List.append_assoc]
  case closing =>
    rw [unfinished_receive hthere hdown, List.append_assoc]
    exact hclosing

/-- The core delivers a message through another link. -/
theorem deliver_other {d : Delivery Nat} (h : Faithful position l p (d :: pending) history)
    (hother : d.replier ≠ position) : Faithful position l p pending history := by
  have hthrough : Core.through position (d :: pending) = Core.through position pending := by
    rw [Core.through_cons, if_neg hother]
  constructor
  case intact => exact h.intact
  case bytes_eq =>
    rw [← hthrough]
    exact h.bytes_eq
  case closing =>
    rw [← hthrough]
    exact h.closing

/-- Nobody is left who could send the link anything. -/
theorem desert (h : Faithful position l p pending history) (hdesert : l.desert? = some l')
    (hpending : Core.through position pending = []) (hretired : Core.Retired history position) :
    Faithful position l' p pending history := by
  have hintact := intact_desert hdesert h.intact
  have hbytes := h.bytes_eq
  obtain ⟨hat, hitems, rfl⟩ := desert?_eq_some_iff.mp hdesert
  refine ⟨hintact, ?_, fun _ => ⟨?_, hretired⟩⟩
  · rw [← hbytes]
    simp [underway, inHand, hat]
  · rw [hpending, unfinished, hitems]
    show ClosesLast [.closed]
    exact List.not_mem_nil

end Faithful

end Link

end LockService
