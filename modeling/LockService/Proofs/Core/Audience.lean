import LockService.Proofs.Core.Repliers

/-!
# Whom the core replies to

A reply to a connection that cannot be reached is dropped, and afterwards nothing shows that there
was one.  `Core.audience` says whom the core has a reply for when it handles an envelope, reachable or
not, in the order of the replies: the sender of a request, unless it has to wait, and whoever is
promoted.  Of these exactly the reachable ones are replied to (`Core.repliedTo_handle`), so no reply
is dropped where the whole audience is reachable.
-/

namespace LockService

open Std (TreeMap)

/-- Who holds a key after somebody gave it up. -/
def Release.next? {ι : Type} : Release ι → Option ι
  | .notHeld | .vacated => none
  | .promoted next => some next

namespace Core

variable {ρ : Type}

/-- Whom the core has a reply for when it handles an envelope, in the order of the replies. -/
def audience (core : Core ρ) (e : Envelope ρ) : List ConnectionId :=
  match e.command with
  | .opening _ => []
  | .closing => (core.table.remove e.sender).1
  | .malformed => [e.sender]
  | .request r =>
    match Operation.parse? r.op with
    | some .lock => if (core.table.acquire e.sender r.target).1 then [e.sender] else []
    | some .unlock => e.sender :: (core.table.release e.sender r.target).1.next?.toList
    | some .get | some .set | some .incr | none => [e.sender]

/-- Whether a connection can be reached. -/
def canReach (core : Core ρ) (c : ConnectionId) : Bool :=
  core.repliers.contains c

/-- The receivers of those messages that are replies. -/
def repliedTo (sent : List (Delivery ρ)) : List ConnectionId :=
  (sent.filter (·.message ≠ .closed)).map (·.receiver)

@[simp] theorem repliedTo_nil : repliedTo ([] : List (Delivery ρ)) = [] := rfl

@[simp] theorem repliedTo_append (sent more : List (Delivery ρ)) :
    repliedTo (sent ++ more) = repliedTo sent ++ repliedTo more := by
  simp [repliedTo]

theorem canReach_iff {core : Core ρ} {c : ConnectionId} :
    core.canReach c = true ↔ ∃ replier, core.repliers[c]? = some replier := by
  rw [canReach, TreeMap.contains_eq_isSome_getElem?, Option.isSome_iff_exists]

theorem canReach_congr {core after : Core ρ} (h : after.repliers = core.repliers)
    (c : ConnectionId) : after.canReach c = core.canReach c := by
  rw [canReach, canReach, h]

theorem repliedTo_reply (core : Core ρ) (c : ConnectionId) (reply : Reply) :
    repliedTo (core.reply c reply) = [c].filter core.canReach := by
  rw [reply_eq, List.filter_singleton, canReach, TreeMap.contains_eq_isSome_getElem?]
  cases core.repliers[c]? with
  | none => rfl
  | some replier => simp [repliedTo]

theorem repliedTo_flatMap_reply (core : Core ρ) (cs : List ConnectionId) (reply : Reply) :
    repliedTo (cs.flatMap (core.reply · reply)) = cs.filter core.canReach := by
  induction cs with
  | nil => rfl
  | cons c cs ih =>
      rw [List.flatMap_cons, repliedTo_append, repliedTo_reply, ih, ← List.filter_append]
      rfl

/-- That a closing was noted is no reply. -/
theorem repliedTo_send_closed (core : Core ρ) (c : ConnectionId) :
    repliedTo (core.send c .closed) = [] := by
  unfold send
  split <;> simp [repliedTo]

theorem repliedTo_lock (core : Core ρ) (sender : ConnectionId) (key : String) :
    repliedTo (core.lock sender key).1
      = (if (core.table.acquire sender key).1 then [sender] else []).filter core.canReach := by
  simp only [lock]
  split
  · exact repliedTo_reply core sender .ok
  · rfl

theorem repliedTo_unlock (core : Core ρ) (sender : ConnectionId) (key : String) :
    repliedTo (core.unlock sender key).1
      = (sender :: (core.table.release sender key).1.next?.toList).filter core.canReach := by
  simp only [unlock]
  split
  · next houtcome =>
    rw [houtcome]
    exact repliedTo_reply core sender _
  · next houtcome =>
    rw [houtcome]
    exact repliedTo_reply core sender _
  · next next houtcome =>
    rw [houtcome, repliedTo_append, repliedTo_reply, repliedTo_reply, ← List.filter_append]
    rfl

theorem repliedTo_request (core : Core ρ) (sender : ConnectionId) (r : Request) :
    repliedTo (core.request sender r).1
      = (core.audience ⟨sender, .request r⟩).filter core.canReach := by
  simp only [request, audience]
  cases Operation.parse? r.op with
  | none => exact repliedTo_reply core sender _
  | some op =>
      cases op with
      | lock => exact repliedTo_lock core sender r.target
      | unlock => exact repliedTo_unlock core sender r.target
      | get => exact repliedTo_reply core sender _
      | set =>
          simp only [perform]
          split <;> exact repliedTo_reply core sender _
      | incr =>
          simp only [perform]
          split <;> exact repliedTo_reply core sender _

/-- **Who is replied to.**  Of those whom the core has a reply for, in their order, the ones that it
can reach. -/
theorem repliedTo_handle (core : Core ρ) (e : Envelope ρ) :
    repliedTo (core.handle e).1 = (core.audience e).filter (core.handle e).2.canReach := by
  obtain ⟨sender, command⟩ := e
  cases command with
  | opening replier => rfl
  | closing =>
      show repliedTo (core.send sender .closed ++ (core.table.remove sender).1.flatMap
        ((core.closing sender).2.reply · .ok)) = _
      rw [repliedTo_append, repliedTo_send_closed, List.nil_append]
      exact repliedTo_flatMap_reply _ _ _
  | malformed => exact repliedTo_reply core sender _
  | request r =>
      have hreach : (core.handle ⟨sender, .request r⟩).2.canReach = core.canReach :=
        funext (canReach_congr (repliers_request core sender r))
      rw [hreach]
      exact repliedTo_request core sender r

/-- If the whole audience can be reached then no reply is dropped. -/
theorem repliedTo_eq_audience {core : Core ρ} {e : Envelope ρ}
    (h : ∀ c ∈ core.audience e, (core.handle e).2.canReach c = true) :
    repliedTo (core.handle e).1 = core.audience e := by
  rw [repliedTo_handle, List.filter_eq_self]
  exact h

end Core

end LockService
