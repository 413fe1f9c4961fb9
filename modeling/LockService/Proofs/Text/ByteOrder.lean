import LockService.Text.Utf8

/-!
# The order of texts is the order of their bytes

Keys are ordered as texts, character by character.  What other programs see of a key is its bytes,
so wherever the order of keys shows it should be an order that can be told from the bytes alone.
`Utf8.encode_lt_encode` says that it is: UTF-8 gives the larger character the larger bytes, and
never lets one character's bytes be the beginning of another's.
-/

namespace LockService.Utf8

theorem encode_eq_flatMap (s : String) : encode s = s.toList.flatMap String.utf8EncodeChar := by
  rw [encode, ← String.utf8Encode_toList, List.utf8Encode]
  simp

/-- Comparing lists of bytes that are given as numbers, one byte further. -/
theorem ofNat_cons_lt_ofNat_cons {m n : Nat} {x y : List UInt8} (hm : m < 256) (hn : n < 256) :
    UInt8.ofNat m :: x < UInt8.ofNat n :: y ↔ m < n ∨ m = n ∧ x < y := by
  rw [List.cons_lt_cons_iff, UInt8.lt_iff_toNat_lt, ← UInt8.toNat_inj, UInt8.toNat_ofNat',
    UInt8.toNat_ofNat', Nat.mod_eq_of_lt hm, Nat.mod_eq_of_lt hn]

/-- The smaller character has the smaller bytes, whatever follows. -/
theorem utf8EncodeChar_append_lt {c d : Char} (h : c < d) (x y : List UInt8) :
    String.utf8EncodeChar c ++ x < String.utf8EncodeChar d ++ y := by
  have hlt : c.val.toNat < d.val.toNat := h
  have hd : d.val.toNat < 0x110000 := by
    rcases d.valid with hd | hd
    · exact Nat.lt_trans hd (by decide)
    · exact hd.2
  simp only [String.utf8EncodeChar]
  clear h
  generalize c.val.toNat = m at *
  generalize d.val.toNat = n at *
  -- digits to the base 64, each taken from the one before, so that the cases stay linear
  rw [show m / 262144 = m / 64 / 64 / 64 by omega, show n / 262144 = n / 64 / 64 / 64 by omega,
    show m / 4096 = m / 64 / 64 by omega, show n / 4096 = n / 64 / 64 by omega]
  repeat' split
  all_goals
    simp (disch := omega) only [List.cons_append, List.nil_append, ofNat_cons_lt_ofNat_cons]
    omega

/-- **Texts are ordered as their bytes are.** -/
theorem encode_lt_encode {a b : String} (h : a < b) : encode a < encode b := by
  rw [encode_eq_flatMap, encode_eq_flatMap]
  replace h : a.toList < b.toList := h
  generalize a.toList = s at h ⊢
  generalize b.toList = t at h ⊢
  induction h with
  | @nil c t =>
      obtain ⟨byte, bytes, hc⟩ := List.exists_cons_of_ne_nil (String.utf8EncodeChar_ne_nil (c := c))
      simp [hc]
  | rel hcd => exact utf8EncodeChar_append_lt hcd _ _
  | cons _ ih => exact List.append_left_lt ih

/-- A text that compares as smaller has the smaller bytes. -/
theorem encode_lt_encode_of_compare {a b : String} (h : compare a b = .lt) : encode a < encode b :=
  encode_lt_encode (compareOfLessAndEq_eq_lt.mp h)

end LockService.Utf8
