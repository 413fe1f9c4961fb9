import Mathlib.Algebra.Ring.Int.Defs
import LockService.Core.Basic

/-!
# Numerals

What a text says that is read as a signed number, without a reader: one decimal digit or more, in their
positional value, behind at most one sign (`Decimal.Denotes`).  Leading zeros say nothing, and no two
numbers are said by one text, because reading finds the number (`Decimal.signed?_eq_some_iff`).

The range of counters is a second matter.  `Counter.parse?_eq_some_iff` and
`Counters.argument?_eq_ok_iff` put the two together.
-/

namespace LockService

namespace Decimal

/-- The numbers that numerals denote: digits, possibly behind a sign. -/
inductive Denotes : List Char → Int → Prop
  | bare {digits : List Char} (hne : digits ≠ []) (hdigits : ∀ c ∈ digits, c.isDigit = true) :
    Denotes digits (Nat.ofDigitChars 10 digits 0)
  | plus {digits : List Char} (hne : digits ≠ []) (hdigits : ∀ c ∈ digits, c.isDigit = true) :
    Denotes ('+' :: digits) (Nat.ofDigitChars 10 digits 0)
  | minus {digits : List Char} (hne : digits ≠ []) (hdigits : ∀ c ∈ digits, c.isDigit = true) :
    Denotes ('-' :: digits) (-Nat.ofDigitChars 10 digits 0)

theorem Denotes.ne_nil {cs : List Char} {n : Int} (h : Denotes cs n) : cs ≠ [] := by
  cases h with
  | bare hne _ => exact hne
  | plus _ _ => exact List.cons_ne_nil _ _
  | minus _ _ => exact List.cons_ne_nil _ _

theorem digits?_eq_some_iff {cs : List Char} {n : Nat} :
    digits? cs = some n
      ↔ cs ≠ [] ∧ (∀ c ∈ cs, c.isDigit = true) ∧ n = Nat.ofDigitChars 10 cs 0 := by
  unfold digits?
  split
  · next h =>
    rw [Option.some.injEq]
    exact ⟨fun hn => ⟨h.1, List.all_eq_true.mp h.2, hn.symm⟩, fun hn => hn.2.2.symm⟩
  · next h =>
    exact iff_of_false nofun fun hn => h ⟨hn.1, List.all_eq_true.mpr hn.2.1⟩

/-- **Reading a numeral** finds the number that it denotes, and reads nothing else. -/
theorem signed?_eq_some_iff {cs : List Char} {n : Int} : signed? cs = some n ↔ Denotes cs n := by
  constructor
  · intro h
    unfold signed? at h
    split at h
    · obtain ⟨m, hm, rfl⟩ := Option.map_eq_some_iff.mp h
      obtain ⟨hne, hdigits, rfl⟩ := digits?_eq_some_iff.mp hm
      exact .plus hne hdigits
    · obtain ⟨m, hm, rfl⟩ := Option.map_eq_some_iff.mp h
      obtain ⟨hne, hdigits, rfl⟩ := digits?_eq_some_iff.mp hm
      exact .minus hne hdigits
    · obtain ⟨m, hm, rfl⟩ := Option.map_eq_some_iff.mp h
      obtain ⟨hne, hdigits, rfl⟩ := digits?_eq_some_iff.mp hm
      exact .bare hne hdigits
  · intro h
    cases h with
    | bare hne hdigits =>
        -- a sign is no digit
        unfold signed?
        split
        · exact absurd (hdigits '+' List.mem_cons_self) (by decide)
        · exact absurd (hdigits '-' List.mem_cons_self) (by decide)
        · rw [digits?_eq_some_iff.mpr ⟨hne, hdigits, rfl⟩]
          rfl
    | plus hne hdigits =>
        rw [signed?, digits?_eq_some_iff.mpr ⟨hne, hdigits, rfl⟩]
        rfl
    | minus hne hdigits =>
        rw [signed?, digits?_eq_some_iff.mpr ⟨hne, hdigits, rfl⟩]
        rfl

end Decimal

namespace Counter

theorem ofInt?_eq_some_iff {n : Int} {c : Counter} : ofInt? n = some c ↔ n = c.val := by
  constructor
  · exact fun h => (val_of_ofInt? h).symm
  · rintro rfl
    exact ofInt?_val c

theorem ofInt?_eq_none_iff {n : Int} : ofInt? n = none ↔ ¬ (-2 ^ 63 ≤ n ∧ n ≤ 2 ^ 63 - 1) := by
  unfold ofInt?
  split
  · next h => simpa using ⟨by omega, by omega⟩
  · next h => simpa using fun hlow => by omega

theorem parse?_eq_some_iff {text : String} {c : Counter} :
    parse? text = some c ↔ Decimal.Denotes text.toList c.val := by
  rw [parse?, Option.bind_eq_some_iff]
  simp only [ofInt?_eq_some_iff, Decimal.signed?_eq_some_iff, exists_eq_right]

/-- A counter is written as integers are. -/
theorem text_eq_toString (c : Counter) : c.text = toString c.val := by
  rw [text]
  cases c.val with
  | ofNat n => rfl
  | negSucc n => exact String.ofList_cons

end Counter

/-- Whether an argument is there and says a number that a counter can hold. -/
def Counters.Says (arg : Option String) (n : Counter) : Prop :=
  ∃ text, arg = some text ∧ Decimal.Denotes text.toList n.val

namespace Counters

variable {arg : Option String} {n : Counter} {refusal : Refusal}

/-- The empty text, which a missing argument reads as, is no numeral. -/
theorem argument?_eq_ok_iff : argument? arg = .ok n ↔ Says arg n := by
  have hread : argument? arg = .ok n ↔ Counter.parse? (arg.getD "") = some n := by
    unfold argument?
    split <;> simp_all
  rw [hread, Counter.parse?_eq_some_iff]
  cases arg with
  | none => exact iff_of_false (fun h => h.ne_nil rfl) fun ⟨_, h, _⟩ => nomatch h
  | some text => simp [Says]

theorem argument?_eq_error_iff :
    argument? arg = .error refusal ↔ refusal = .invalidNumber ∧ ∀ n, ¬ Says arg n := by
  simp only [← argument?_eq_ok_iff]
  unfold argument?
  split <;> simp [eq_comm]

end Counters

end LockService
