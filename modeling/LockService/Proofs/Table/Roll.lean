import LockService.Proofs.Table.Agreement
import LockService.Text.Utf8
import Mathlib.Data.Set.Card
import Mathlib.Logic.Function.Basic

/-!
# Rolls: the lock table as it is explained

To explain the service nobody needs two views.  A *roll* is a set of registered clients and, for
every key, the list of those who want it, the first of whom has it.  Each operation edits that list
in the obvious way, and there is nothing to be kept in agreement.

* `Roll.acquire`, `Roll.release`, `Roll.remove` — the operations.  Leaving strikes the client out of
  the list of *every* key there is, which no program could do this way.
* `Roll.Promotes` — what leaving is answered with, by ascending key, where keys are compared by
  their bytes.
* `Roll.Steps` — calls one after the other, with their answers.
* `Views.Shows` — views that are looked at tell exactly what the roll says.

`LockService.Proofs.Table.Refinement` shows that tables cannot be told from rolls.
-/

namespace LockService

/-- Who is registered, and for every key who wants it, the holder first. -/
structure Roll (ι κ : Type) where
  registered : Set ι := ∅
  queue : κ → List ι := fun _ => []

namespace Roll

variable {ι κ : Type} [DecidableEq ι] [DecidableEq κ]

/-- The roll with the list of one key replaced. -/
def setQueue (r : Roll ι κ) (key : κ) (queue : List ι) : Roll ι κ :=
  { r with queue := Function.update r.queue key queue }

/-- A client is entered. -/
def register (r : Roll ι κ) (client : ι) : Roll ι κ :=
  { r with registered := insert client r.registered }

/-- A client, entered if need be, wants a key: it gets a free one, and otherwise goes to the end of
the list unless it is there already.  The answer is whether it is the first now. -/
def acquire (r : Roll ι κ) (client : ι) (key : κ) : Bool × Roll ι κ :=
  let r := r.register client
  match r.queue key with
  | [] => (true, r.setQueue key [client])
  | front :: rest =>
    if client = front then (true, r)
    else if client ∈ rest then (false, r)
    else (false, r.setQueue key (front :: rest ++ [client]))

/-- The first of a key's list leaves it, and the second, if there is one, is promoted. -/
def release (r : Roll ι κ) (client : ι) (key : κ) : Release ι × Roll ι κ :=
  match r.queue key with
  | [] => (.notHeld, r)
  | front :: rest =>
    if client = front then
      match rest with
      | [] => (.vacated, r.setQueue key [])
      | next :: _ => (.promoted next, r.setQueue key rest)
    else (.notHeld, r)

/-- A client is struck out everywhere, and the others keep their order. -/
def remove (r : Roll ι κ) (client : ι) : Roll ι κ where
  registered := r.registered \ {client}
  queue key := (r.queue key).filter (· ≠ client)

/-- Who is promoted when a client leaves: on each key that it has and another one wants, the second
of the list, in the order of the bytes of the keys.  Who is promoted on several keys is there
several times. -/
def Promotes (r : Roll ι String) (client : ι) (promoted : List ι) : Prop :=
  ∃ heirs : List (String × ι),
    heirs.Pairwise (fun a b => Utf8.encode a.1 < Utf8.encode b.1) ∧
    (∀ key next, (key, next) ∈ heirs ↔ ∃ rest, r.queue key = client :: next :: rest) ∧
    promoted = heirs.map (·.2)

/-- A call, what it is answered with, and the roll afterwards. -/
inductive Step : Roll ι String → TableCall ι String → TableAnswer ι → Roll ι String → Prop
  | register (r client) : Step r (.register client) .registered (r.register client)
  | acquire (r client key) :
      Step r (.acquire client key) (.acquired (r.acquire client key).1) (r.acquire client key).2
  | release (r client key) :
      Step r (.release client key) (.released (r.release client key).1) (r.release client key).2
  | remove (r client promoted) (h : r.Promotes client promoted) :
      Step r (.remove client) (.removed promoted) (r.remove client)

/-- Calls one after the other. -/
inductive Steps :
    Roll ι String → List (TableCall ι String) → List (TableAnswer ι) → Roll ι String → Prop
  | nil (r) : Steps r [] [] r
  | cons {r s u call answer calls answers} (h : Step r call answer s)
      (more : Steps s calls answers u) : Steps r (call :: calls) (answer :: answers) u

end Roll

variable {ι κ : Type} [Ord ι] [Ord κ]

/-- Whoever looks at the views is told what the roll says. -/
structure Views.Shows (v : Views ι κ) (r : Roll ι κ) : Prop where
  holder : ∀ key, v.holder key = (r.queue key).head?
  waiters : ∀ key, v.waiters key = (r.queue key).tail
  queueLength : ∀ key, v.queueLength key = (r.queue key).length
  holding_iff : ∀ client key,
    v.stake client key = some .holding ↔ (r.queue key).head? = some client
  waiting_iff : ∀ client key,
    v.stake client key = some .waiting ↔ client ∈ (r.queue key).tail
  isRegistered_iff : ∀ client, v.isRegistered client ↔ client ∈ r.registered
  keyCount : (v.keyCount : ℕ∞) = {key | r.queue key ≠ []}.encard
  clientCount : (v.clientCount : ℕ∞) = r.registered.encard

end LockService
