import Mathlib.Data.List.Basic
import Mathlib.Data.List.Induction
import Mathlib.Data.Nat.Digits.Defs
import LockService.Proofs.Text.Numerals

/-!
# Canonical numerals

Numbers are read more freely than they are written: a plus sign and leading zeros are allowed in front of
what is read, and a written number has neither.  So every number has many numerals, and one of them is
canonical.

* `Decimal.positional` — the value of digits by their places, and `Decimal.denotes_iff` — what a numeral
  is in these terms: at most one sign, and digits whose value by their places is meant.
* `Decimal.IsCanonical` — no plus sign, no leading zero, and no minus sign in front of zero.
* **`Decimal.canonical_iff`** — what is written of a number is its one canonical numeral.
-/

namespace LockService

namespace Decimal

/-! ## Digits by their places -/

/-- The value of digits by their places: the last one counts once, the one in front of it ten times, and
so on. -/
def positional (digits : List Char) : Nat :=
  Nat.ofDigits 10 (digits.reverse.map fun c => c.toNat - '0'.toNat)

/-- One more digit behind the others. -/
theorem ofDigitChars_concat (digits : List Char) (c : Char) :
    Nat.ofDigitChars 10 (digits ++ [c]) 0
      = 10 * Nat.ofDigitChars 10 digits 0 + (c.toNat - '0'.toNat) := by
  simp only [Nat.ofDigitChars_eq_foldl, List.foldl_append, List.foldl_cons, List.foldl_nil]

/-- Reading the digits from the left gives the value by their places. -/
theorem ofDigitChars_eq_positional (digits : List Char) :
    Nat.ofDigitChars 10 digits 0 = positional digits := by
  induction digits using List.reverseRecOn with
  | nil => rfl
  | append_singleton digits c ih =>
      rw [ofDigitChars_concat, ih, positional, positional, List.reverse_append,
        List.reverse_singleton, List.singleton_append, List.map_cons, Nat.ofDigits_cons]
      exact Nat.add_comm _ _

/-- What may stand in front of digits, and the factor that it means. -/
def signs : List (List Char × Int) :=
  [([], 1), (['+'], 1), (['-'], -1)]

/-- **What numerals denote**: behind at most one sign stand digits, at least one, and their value by
their places is meant. -/
theorem denotes_iff {cs : List Char} {n : Int} : Denotes cs n ↔
    ∃ sign ∈ signs, ∃ digits, cs = sign.1 ++ digits ∧ digits ≠ [] ∧
      (∀ c ∈ digits, '0' ≤ c ∧ c ≤ '9') ∧ n = sign.2 * positional digits := by
  have hisDigit : ∀ c : Char, '0' ≤ c ∧ c ≤ '9' ↔ c.isDigit = true := fun c =>
    Char.isDigit_iff_toNat.symm
  simp only [hisDigit, ← ofDigitChars_eq_positional]
  constructor
  · intro h
    cases h with
    | bare hne hdigits =>
        exact ⟨([], 1), by simp [signs], cs, rfl, hne, hdigits, (Int.one_mul _).symm⟩
    | @plus digits hne hdigits =>
        exact ⟨(['+'], 1), by simp [signs], digits, rfl, hne, hdigits, (Int.one_mul _).symm⟩
    | @minus digits hne hdigits =>
        exact ⟨(['-'], -1), by simp [signs], digits, rfl, hne, hdigits, (Int.neg_one_mul _).symm⟩
  · rintro ⟨sign, hsign, digits, rfl, hne, hdigits, rfl⟩
    simp only [signs, List.mem_cons, List.not_mem_nil, or_false] at hsign
    rcases hsign with rfl | rfl | rfl
    · rw [Int.one_mul]
      exact .bare hne hdigits
    · rw [Int.one_mul]
      exact .plus hne hdigits
    · rw [Int.neg_one_mul]
      exact .minus hne hdigits

/-! ## What is written -/

/-- Digits without a leading zero. -/
structure IsPlain (cs : List Char) : Prop where
  ne_nil : cs ≠ []
  isDigit : ∀ c ∈ cs, c.isDigit = true
  head_ne : cs.head? ≠ some '0'

/-- The numerals without a plus sign, without leading zeros, and without a minus sign in front of
zero. -/
inductive IsCanonical : List Char → Prop
  | zero : IsCanonical ['0']
  | positive {digits : List Char} (h : IsPlain digits) : IsCanonical digits
  | negative {digits : List Char} (h : IsPlain digits) : IsCanonical ('-' :: digits)

/-- Dividing off the last digit leaves the first one as it is, and at last it is the number. -/
theorem head?_toDigits_ne {n : Nat} (h : 0 < n) : (Nat.toDigits 10 n).head? ≠ some '0' := by
  induction n using Nat.strongRecOn with
  | ind n ih =>
      by_cases hsmall : n < 10
      · rw [Nat.toDigits_of_lt_base hsmall]
        simpa using Nat.ne_of_gt h
      · rw [Nat.toDigits_of_base_le (by decide) (Nat.le_of_not_lt hsmall),
          List.head?_append_of_ne_nil _ Nat.toDigits_ne_nil]
        exact ih (n / 10) (by omega) (by omega)

theorem isPlain_toDigits {n : Nat} (h : 0 < n) : IsPlain (Nat.toDigits 10 n) where
  ne_nil := Nat.toDigits_ne_nil
  isDigit _ hc := Nat.isDigit_of_mem_toDigits (by decide) (by decide) hc
  head_ne := head?_toDigits_ne h

theorem isCanonical_write (n : Int) : IsCanonical (write n) := by
  match n with
  | .ofNat 0 => exact .zero
  | .ofNat (n + 1) => exact .positive (isPlain_toDigits (Nat.succ_pos n))
  | .negSucc n => exact .negative (isPlain_toDigits (Nat.succ_pos n))

/-- What is written is read back. -/
theorem denotes_write (n : Int) : Denotes (write n) n := by
  have hdigits : ∀ m c, c ∈ Nat.toDigits 10 m → c.isDigit = true := fun m c hc =>
    Nat.isDigit_of_mem_toDigits (by decide) (by decide) hc
  have hvalue : ∀ m, Nat.ofDigitChars 10 (Nat.toDigits 10 m) 0 = m := fun m =>
    Nat.ofDigitChars_toDigits (by decide) (by decide)
  cases n with
  | ofNat m =>
      have h := Denotes.bare Nat.toDigits_ne_nil (hdigits m)
      rw [hvalue] at h
      exact h
  | negSucc m =>
      have h := Denotes.minus Nat.toDigits_ne_nil (hdigits (m + 1))
      rw [hvalue] at h
      exact h

/-- No two integers have the same text. -/
theorem write_injective : Function.Injective write := by
  intro m n h
  have hread := signed?_eq_some_iff.mpr (denotes_write m)
  rw [h, signed?_eq_some_iff.mpr (denotes_write n)] at hread
  exact (Option.some.inj hread).symm

/-! ## Nothing else is canonical -/

theorem digitChar_of_isDigit {c : Char} (h : c.isDigit = true) :
    c.toNat - '0'.toNat < 10 ∧ Nat.digitChar (c.toNat - '0'.toNat) = c := by
  have hrange : 48 ≤ c.toNat ∧ c.toNat ≤ 57 := Char.isDigit_iff_toNat.mp h
  have hzero : '0'.toNat = 48 := rfl
  have hlt : c.toNat - '0'.toNat < 10 := by omega
  refine ⟨hlt, Char.toNat_inj.mp ?_⟩
  rw [Nat.toNat_digitChar_of_lt_ten hlt]
  omega

/-- Digits without a leading zero are those of their value, which is not zero: each further digit is the
last one of the greater value. -/
theorem IsPlain.toDigits_eq {cs : List Char} (h : IsPlain cs) :
    0 < Nat.ofDigitChars 10 cs 0 ∧ Nat.toDigits 10 (Nat.ofDigitChars 10 cs 0) = cs := by
  induction cs using List.reverseRecOn with
  | nil => exact absurd rfl h.ne_nil
  | append_singleton cs c ih =>
      obtain ⟨hlt, hchar⟩ := digitChar_of_isDigit (h.isDigit c (by simp))
      rw [ofDigitChars_concat]
      by_cases hnil : cs = []
      · subst hnil
        have hne : c ≠ '0' := by simpa using h.head_ne
        have hpos : c.toNat - '0'.toNat ≠ 0 := fun hzero =>
          hne (by rw [← hchar, hzero]; rfl)
        rw [Nat.ofDigitChars_nil, Nat.mul_zero, Nat.zero_add, Nat.toDigits_of_lt_base hlt, hchar]
        exact ⟨Nat.pos_of_ne_zero hpos, rfl⟩
      · have hplain : IsPlain cs := by
          refine ⟨hnil, fun d hd => h.isDigit d (List.mem_append_left _ hd), ?_⟩
          have hhead : (cs ++ [c]).head? = cs.head? := List.head?_append_of_ne_nil cs hnil
          rw [← hhead]
          exact h.head_ne
        obtain ⟨hpos, heq⟩ := ih hplain
        rw [← Nat.toDigits_append_toDigits (by decide) hpos hlt, heq, Nat.toDigits_of_lt_base hlt,
          hchar]
        exact ⟨by omega, rfl⟩

/-- **Canonical numerals.**  What is written of a number is a canonical numeral of it, and there is no
other. -/
theorem canonical_iff {cs : List Char} {n : Int} :
    IsCanonical cs ∧ Denotes cs n ↔ cs = write n := by
  constructor
  · rintro ⟨hcanonical, hdenotes⟩
    have hread := signed?_eq_some_iff.mpr hdenotes
    cases hcanonical with
    | zero =>
        cases hread
        rfl
    | positive h =>
        have hsaid : signed? cs = some (Int.ofNat (Nat.ofDigitChars 10 cs 0)) :=
          signed?_eq_some_iff.mpr (.bare h.ne_nil h.isDigit)
        cases hread.symm.trans hsaid
        exact h.toDigits_eq.2.symm
    | @negative digits h =>
        have hsaid : signed? ('-' :: digits) = some (-Int.ofNat (Nat.ofDigitChars 10 digits 0)) :=
          signed?_eq_some_iff.mpr (.minus h.ne_nil h.isDigit)
        cases hread.symm.trans hsaid
        obtain ⟨hpos, heq⟩ := h.toDigits_eq
        obtain ⟨m, hm⟩ := Nat.exists_eq_succ_of_ne_zero (Nat.ne_of_gt hpos)
        rw [hm] at heq ⊢
        exact congrArg _ heq.symm
  · rintro rfl
    exact ⟨isCanonical_write n, denotes_write n⟩

end Decimal

end LockService
