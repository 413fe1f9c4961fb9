/-!
# Decimal numbers in text

Numbers reach the service in three places: the argument of a counter request, the options of the
command line and the parts of a socket address.  All three read runs of the ten ASCII digits, with
any number of leading zeros, and differ only in the signs they allow and in the range they accept.
This file holds what they share; the ranges are with the types that have them.

* `Decimal.digits?` — a non-empty run of digits and nothing else.
* `Decimal.unsigned?` — the same behind at most one plus sign.
* `Decimal.signed?` — the same behind at most one sign.
* `Decimal.write` — the shortest text of an integer, a minus sign in front of a negative one.
-/

namespace LockService.Decimal

/-- The value of a non-empty run of ASCII digits. -/
def digits? (cs : List Char) : Option Nat :=
  if cs ≠ [] ∧ cs.all Char.isDigit then some (Nat.ofDigitChars 10 cs 0) else none

/-- The value of a run of digits behind at most one plus sign. -/
def unsigned? : List Char → Option Nat
  | '+' :: cs => digits? cs
  | cs => digits? cs

/-- The value of a run of digits behind at most one sign. -/
def signed? : List Char → Option Int
  | '+' :: cs => (digits? cs).map Int.ofNat
  | '-' :: cs => (digits? cs).map fun n => -Int.ofNat n
  | cs => (digits? cs).map Int.ofNat

/-- The shortest text of an integer. -/
def write : Int → List Char
  | .ofNat n => Nat.toDigits 10 n
  | .negSucc n => '-' :: Nat.toDigits 10 (n + 1)

end LockService.Decimal
