import LockService.Table.Coherence

/-!
# The lock table

`Table` is a pair of views that agree.  Agreement is what makes passing a key on safe, so every
operation of a table is total: the `views_…` lemmas say that each one is the operation of the same
name on the views, in the case without a `Disagreement`, which by `Views.exists_release` and
`Views.exists_remove` is the only case there is.

Clients and keys are any ordered types.  The service uses connections and texts; where the order
of the keys shows, in the promotions caused by a client that leaves, it is the order of the texts.
-/

namespace LockService

open Std (TransOrd LawfulEqOrd)

/-- Who holds and who waits for which key, kept as two views that agree. -/
structure Table (ι κ : Type) [Ord ι] [Ord κ] [DecidableEq ι] where
  views : Views ι κ
  coherent : views.Coherent

namespace Table

variable {ι κ : Type} [Ord ι] [Ord κ] [TransOrd ι] [TransOrd κ] [LawfulEqOrd ι] [LawfulEqOrd κ]
variable [DecidableEq ι] [DecidableEq κ]

/-- The table of a service that has just started. -/
def empty : Table ι κ :=
  ⟨{}, Views.coherent_empty⟩

instance : Inhabited (Table ι κ) := ⟨empty⟩

/-- Makes a client known; a client that is known already keeps its stakes. -/
def register (t : Table ι κ) (client : ι) : Table ι κ :=
  ⟨t.views.register client, Views.coherent_register t.coherent client⟩

/-- Asks for a key and tells whether the client holds it afterwards. -/
def acquire (t : Table ι κ) (client : ι) (key : κ) : Bool × Table ι κ :=
  ((t.views.acquire client key).1,
    ⟨(t.views.acquire client key).2, Views.coherent_acquire t.coherent client key⟩)

/-- Gives a key up. -/
def release (t : Table ι κ) (client : ι) (key : κ) : Release ι × Table ι κ :=
  match h : t.views.release client key with
  | .ok (outcome, views) =>
    (outcome, ⟨views, by
      obtain ⟨_, _, h', hw⟩ := Views.exists_release t.coherent client key
      cases h.symm.trans h'
      exact hw⟩)
  | .error _ =>
    absurd h (by
      obtain ⟨_, _, h', _⟩ := Views.exists_release t.coherent client key
      simp [h'])

/-- Forgets a client and answers with the clients promoted by that, by ascending key. -/
def remove (t : Table ι κ) (client : ι) : List ι × Table ι κ :=
  match h : t.views.remove client with
  | .ok (promoted, views) =>
    (promoted, ⟨views, by
      obtain ⟨_, _, h', hw⟩ := Views.exists_remove t.coherent client
      cases h.symm.trans h'
      exact hw⟩)
  | .error _ =>
    absurd h (by
      obtain ⟨_, _, h', _⟩ := Views.exists_remove t.coherent client
      simp [h'])

/-! ## Each operation is the one on the views -/

theorem views_release (t : Table ι κ) (client : ι) (key : κ) :
    t.views.release client key = .ok ((t.release client key).1, (t.release client key).2.views) := by
  unfold release
  split
  · next h => exact h
  · next h =>
    obtain ⟨_, _, h', _⟩ := Views.exists_release t.coherent client key
    simp [h'] at h

theorem views_remove (t : Table ι κ) (client : ι) :
    t.views.remove client = .ok ((t.remove client).1, (t.remove client).2.views) := by
  unfold remove
  split
  · next h => exact h
  · next h =>
    obtain ⟨_, _, h', _⟩ := Views.exists_remove t.coherent client
    simp [h'] at h

end Table

end LockService
