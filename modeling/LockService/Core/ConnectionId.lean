import Std.Data.TreeMap
import LockService.Text.Decimal

/-!
# Connection numbers

Connections are told apart by 64-bit numbers, ordered as numbers.
-/

namespace LockService

open Std (TransOrd LawfulEqOrd TransCmp LawfulEqCmp)

/-- The number of a connection. -/
structure ConnectionId where
  val : UInt64
deriving DecidableEq, Repr, Inhabited

namespace ConnectionId

instance : Ord ConnectionId := ⟨fun a b => compare a.val b.val⟩

theorem compare_def (a b : ConnectionId) : compare a b = compare a.val b.val := rfl

instance : TransOrd ConnectionId where
  eq_swap {a b} := by simp only [compare_def]; exact Std.OrientedCmp.eq_swap
  isLE_trans {a b c} := by simp only [compare_def]; exact Std.TransCmp.isLE_trans

instance : LawfulEqOrd ConnectionId where
  compare_self {a} := by simp only [compare_def]; exact Std.ReflCmp.compare_self
  eq_of_compare {a b} h := by
    rw [compare_def] at h
    cases a; cases b
    exact congrArg _ (Std.LawfulEqCmp.eq_of_compare h)

/-- How a connection is named to people. -/
def text (c : ConnectionId) : String :=
  String.ofList ('#' :: Decimal.write c.val.toNat)

end ConnectionId

end LockService
