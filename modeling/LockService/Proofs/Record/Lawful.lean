import LockService.Proofs.Json.Writing
import LockService.Proofs.Text.Cuts
import LockService.Record.Basic

/-!
# Records come back as they were written

A record is written by its type's own list of members and understood through the names that its
type knows, two definitions that have to agree.  `LawfulRecord` says that they do, and both kinds
of records are lawful.  Nothing else about their members matters to a stream.
-/

namespace LockService

namespace Json

/-- The names of a written object are the names that were written. -/
theorem named?_textMembers (members : List (String × String)) :
    named? (Value.textMembers members)
      = some (members.map fun (name, value) => (name, .text (piecesOf value))) := by
  rw [named?, Value.textMembers, List.mapM_map]
  induction members with
  | nil => rfl
  | cons member members ih => simp [List.mapM_cons, ih]

@[simp] theorem Value.asText?_piecesOf (text : String) :
    asText? (.text (piecesOf text)) = some text :=
  text?_piecesOf text

@[simp] theorem Value.asOptionalText?_piecesOf (text : String) :
    asOptionalText? (.text (piecesOf text)) = some (some text) := by
  simp [asOptionalText?]

end Json

open Json

/-- What can be sent as a record and comes back as it was: it is written as an object of texts, and
that object is understood as the record. -/
class LawfulRecord (α : Type) [Record α] : Prop where
  exists_members (record : α) : ∃ members : List (String × String),
    Record.json record = String.ofList (writeObject members) ∧
    Record.ofJson? (Value.ofTexts members) = some record

theorem Request.ofJson?_members (r : Request) :
    Request.ofJson? (Value.ofTexts r.members) = some r := by
  show (named? (Value.textMembers r.members)).bind Request.ofMembers? = some r
  rw [named?_textMembers]
  obtain ⟨op, target, arg⟩ := r
  cases arg with
  | none =>
      simp [members, Request.ofMembers?, required?, optional?, valuesOf, ofValues?,
        Value.asOptionalText?]
  | some arg => simp [members, Request.ofMembers?, required?, optional?, valuesOf, ofValues?]

instance : LawfulRecord Request where
  exists_members r := ⟨r.members, rfl, r.ofJson?_members⟩

theorem Status.parse?_name (status : Status) : parse? status.name = some status := by
  cases status <;> decide

theorem Reply.ofJson?_members (r : Reply) : Reply.ofJson? (Value.ofTexts r.members) = some r := by
  show (named? (Value.textMembers r.members)).bind Reply.ofMembers? = some r
  rw [named?_textMembers]
  obtain ⟨status, error, value⟩ := r
  have hstatus : Status.ofJson? (.text (piecesOf status.name)) = some status := by
    simp [Status.ofJson?, Status.parse?_name]
  cases error <;> cases value <;>
    simp [members, Reply.ofMembers?, required?, optional?, valuesOf, ofValues?, hstatus,
      Value.asOptionalText?]

instance : LawfulRecord Reply where
  exists_members r := ⟨r.members, rfl, r.ofJson?_members⟩

end LockService
