import LockService.Proofs.Text.ByteOrder

/-!
# Texts cut at a byte

A stream is cut at any byte, also inside a character.  Three things are known of the pieces all the
same: a line feed in the bytes of a text is a line feed of the text, so lines can be found before
anything is decoded (`Utf8.feed_mem_encode_iff`); the whole decodes to the text
(`Utf8.decode?_encode`); and whatever a beginning of the bytes decodes to is a beginning of the text
(`Utf8.isPrefix_of_decode?`).
-/

namespace LockService.Utf8

@[simp] theorem encode_append (s t : String) : encode (s ++ t) = encode s ++ encode t := by
  simp [encode_eq_flatMap]

@[simp] theorem encode_join (texts : List String) :
    encode (String.join texts) = texts.flatMap encode := by
  show _ = texts.flatMap fun text => encode text
  simp only [encode_eq_flatMap, String.toList_join, List.flatMap_assoc]

theorem encode_eq_nil_iff {s : String} : encode s = [] ↔ s = "" := by
  rw [encode_eq_flatMap, List.flatMap_eq_nil_iff]
  constructor
  · intro h
    cases hs : s.toList with
    | nil => simpa using hs
    | cons c rest => exact absurd (h c (hs ▸ List.mem_cons_self)) String.utf8EncodeChar_ne_nil
  · rintro rfl
    exact nofun

/-- The bytes of other characters are no line feeds. -/
theorem feed_mem_utf8EncodeChar_iff {c : Char} : 0x0A ∈ String.utf8EncodeChar c ↔ c = '\n' := by
  constructor
  · intro h
    have hc : c.val.toNat < 0x110000 := by
      rcases c.valid with hc | hc
      · exact Nat.lt_trans hc (by decide)
      · exact hc.2
    suffices hval : c.val.toNat = 0x0A from Char.ext (UInt32.toNat_inj.mp hval)
    simp only [String.utf8EncodeChar] at h
    generalize c.val.toNat = n at *
    have hbyte : ∀ m < 256, (0x0A : UInt8) = UInt8.ofNat m → m = 0x0A := by
      intro m hm heq
      have hnat := congrArg UInt8.toNat heq
      rw [UInt8.toNat_ofNat', Nat.mod_eq_of_lt hm] at hnat
      exact hnat.symm
    repeat' split at h
    all_goals simp only [List.mem_cons, List.not_mem_nil, or_false] at h
    · exact hbyte n (by omega) h
    -- every byte of a longer encoding is at least 128
    · rcases h with h | h
      all_goals have heq := hbyte _ (by omega) h; omega
    · rcases h with h | h | h
      all_goals have heq := hbyte _ (by omega) h; omega
    · rcases h with h | h | h | h
      all_goals have heq := hbyte _ (by omega) h; omega
  · rintro rfl
    decide

theorem feed_mem_encode_iff {s : String} : 0x0A ∈ encode s ↔ '\n' ∈ s.toList := by
  rw [encode_eq_flatMap, List.mem_flatMap]
  simp only [feed_mem_utf8EncodeChar_iff, exists_eq_right]

@[simp] theorem toByteArray_encode (s : String) : (encode s).toByteArray = s.toByteArray :=
  ByteArray.ext (by simp [encode])

/-- Bytes that decode to a text are its bytes. -/
theorem decode?_eq_some_iff {bytes : List UInt8} {s : String} :
    decode? bytes = some s ↔ bytes = encode s := by
  unfold decode? String.fromUTF8?
  constructor
  · intro h
    split at h
    · obtain rfl := Option.some.inj h
      rw [encode, String.fromUTF8, List.toList_data_toByteArray]
    · cases h
  · rintro rfl
    simp [toByteArray_encode, String.fromUTF8, s.isValidUTF8]

@[simp] theorem decode?_encode (s : String) : decode? (encode s) = some s :=
  decode?_eq_some_iff.mpr rfl

theorem encode_inj {s t : String} (h : encode s = encode t) : s = t := by
  have hdecode := decode?_encode s
  rw [h, decode?_encode] at hdecode
  exact (Option.some.inj hdecode).symm

/-- What a beginning of the bytes of a text decodes to is a beginning of the text. -/
theorem isPrefix_of_decode? {bytes : List UInt8} {s t : String} (hbytes : bytes <+: encode s)
    (h : decode? bytes = some t) : t.toList <+: s.toList := by
  obtain rfl := decode?_eq_some_iff.mp h
  obtain ⟨more, hmore⟩ := hbytes
  refine List.isPrefix_of_utf8Encode_append_eq_utf8Encode more.toByteArray ?_
  rw [String.utf8Encode_toList, String.utf8Encode_toList, ← toByteArray_encode t,
    ← List.toByteArray_append, hmore, toByteArray_encode]

end LockService.Utf8
