import LockService.Text.Decimal

/-!
# Counters

A counter holds a signed 64-bit integer, written and read in decimal.  The range is part of the
type: `Counter.ofInt?` is the only way into it, so an addition that would leave it has no result
instead of a wrong one.
-/

namespace LockService

/-- A signed 64-bit integer. -/
structure Counter where
  val : Int
  isInRange : -0x8000000000000000 ≤ val ∧ val < 0x8000000000000000
deriving DecidableEq, Repr

namespace Counter

/-- What a counter that was never set reads as. -/
def zero : Counter :=
  ⟨0, by decide⟩

instance : Inhabited Counter := ⟨zero⟩

/-- The counter with a value, if the value is in range. -/
def ofInt? (n : Int) : Option Counter :=
  if h : -0x8000000000000000 ≤ n ∧ n < 0x8000000000000000 then some ⟨n, h⟩ else none

/-- The exact sum, if it is in range. -/
def add? (a b : Counter) : Option Counter :=
  ofInt? (a.val + b.val)

/-- Reads an optional sign and one or more decimal digits. -/
def parse? (text : String) : Option Counter :=
  (Decimal.signed? text.toList).bind ofInt?

/-- The decimal text of a counter. -/
def text (c : Counter) : String :=
  String.ofList (Decimal.write c.val)

theorem val_of_ofInt? {n : Int} {c : Counter} (h : ofInt? n = some c) : c.val = n := by
  unfold ofInt? at h
  split at h
  · cases h; rfl
  · exact absurd h (by simp)

theorem ofInt?_val (c : Counter) : ofInt? c.val = some c :=
  dif_pos c.isInRange

end Counter

end LockService
