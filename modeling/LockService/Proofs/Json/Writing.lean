import LockService.Json.Writer
import LockService.Proofs.Json.Scanning

/-!
# Written texts are read back

What `writeObject` writes is scanned as the lexemes of one value, `Value.ofTexts`.  A text in it
does not come back as it was written, character by character: a control character without a letter
is written by its code, and comes back as a unit (`spells_writeChar`).  `text?_piecesOf` says that
the text is the same.

A written object is not complete before its last character.  Scanning never takes a lexeme back
(`Scan.isSuffix_steps`), so what is scanned from a beginning of the text is a beginning of the
object's lexemes, and without the last brace it is not all of them
(`parse?_of_isPrefix`).
-/

namespace LockService.Json

/-! ## The pieces of a text -/

/-- The piece that a written character is read as. -/
def pieceOf (c : Char) : Piece :=
  if c.toNat < 0x20 ∧ c ∉ ['\x08', '\x0c', '\n', '\r', '\t'] then .unit c.toNat else .char c

/-- The pieces that a written text is read as. -/
def piecesOf (text : String) : List Piece :=
  text.toList.map pieceOf

theorem writes_pieceOf (c : Char) {pieces : List Piece} {cs : List Char}
    (h : Writes pieces cs) : Writes (pieceOf c :: pieces) (c :: cs) := by
  unfold pieceOf
  split
  · next hcontrol =>
    have hhigh : isHighSurrogate c.toNat = false := by
      simp only [isHighSurrogate, decide_eq_false_iff_not]
      omega
    have hlow : isLowSurrogate c.toNat = false := by
      simp only [isLowSurrogate, decide_eq_false_iff_not]
      omega
    have hunit := Writes.unit hhigh hlow h
    rwa [Char.ofNat_toNat] at hunit
  · exact .char c h

theorem writes_map_pieceOf (cs : List Char) : Writes (cs.map pieceOf) cs := by
  induction cs with
  | nil => exact .nil
  | cons c cs ih => exact writes_pieceOf c ih

/-- A written text is the text. -/
@[simp] theorem text?_piecesOf (text : String) : text? (piecesOf text) = some text :=
  text?_eq_some_iff.mpr (writes_map_pieceOf text.toList)

/-! ## Scanning what is written -/

theorem digit?_digitChar : ∀ n < 16, Text.digit? 16 (Nat.digitChar n) = some n := by
  decide

/-- A written character spells its piece. -/
theorem spells_writeChar (c : Char) : (pieceOf c).Spells (writeChar c) := by
  unfold writeChar
  split
  · next h => subst h; exact .letter rfl
  split
  · next h => subst h; exact .letter rfl
  split
  · next h => subst h; exact .letter rfl
  split
  · next h => subst h; exact .letter rfl
  split
  · next h => subst h; exact .letter rfl
  split
  · next h => subst h; exact .letter rfl
  split
  · next h => subst h; exact .letter rfl
  next hquote hbackslash hb hf hn hr ht =>
  split
  · next hcontrol =>
    have hhigh := digit?_digitChar (c.toNat / 16) (by omega)
    have hlow := digit?_digitChar (c.toNat % 16) (by omega)
    have hvalue : c.toNat / 16 * 16 + c.toNat % 16 = c.toNat := by omega
    have hzero : Text.digit? 16 '0' = some 0 := by decide
    rw [pieceOf, if_pos (by simp [*])]
    refine .code rfl ?_
    simp [hexValue?, controlCode, hzero, hhigh, hlow, hvalue]
  · next hcontrol =>
    rw [pieceOf, if_neg (by simp [hcontrol])]
    exact .plain hquote hbackslash hcontrol

theorem spells_flatMap_writeChar (cs : List Char) :
    Joined Piece.Spells (cs.map pieceOf) (cs.flatMap writeChar) := by
  induction cs with
  | nil => exact .nil
  | cons c cs ih => exact .cons (spells_writeChar c) ih

theorem steps_writeText (text : String) (found : List Token) :
    (writeText text).foldlM Scan.step ⟨found, .between⟩
      = some ⟨.text (piecesOf text) :: found, .between⟩ := by
  show List.foldlM Scan.step ⟨found, .quoted []⟩ (text.toList.flatMap writeChar ++ ['"']) = _
  rw [List.foldlM_append, Scan.steps_pieces (spells_flatMap_writeChar _)]
  simp [Scan.step, piecesOf]

namespace Value

/-- The members that texts are read as. -/
def textMembers (members : List (String × String)) : Members :=
  members.map fun (name, value) => (piecesOf name, .text (piecesOf value))

/-- The value that an object of texts is read as. -/
def ofTexts (members : List (String × String)) : Value :=
  .object (textMembers members)

end Value

open Value

theorem steps_writeMembers (members : List (String × String)) (found : List Token) :
    (writeMembers members).foldlM Scan.step ⟨found, .between⟩
      = some ⟨(memberTokens (textMembers members)).reverse ++ found, .between⟩ := by
  have hcolon : ∀ found, Scan.step ⟨found, .between⟩ ':' = some ⟨.colon :: found, .between⟩ :=
    fun _ => rfl
  have hcomma : ∀ found, Scan.step ⟨found, .between⟩ ',' = some ⟨.comma :: found, .between⟩ :=
    fun _ => rfl
  induction members generalizing found with
  | nil => rfl
  | cons member members ih =>
      obtain ⟨name, value⟩ := member
      cases members with
      | nil =>
          simp [writeMembers, textMembers, memberTokens, tokens, steps_writeText, hcolon]
      | cons next members =>
          have hrest := ih
            (.comma :: .text (piecesOf value) :: .colon :: .text (piecesOf name) :: found)
          simp only [writeMembers, List.foldlM_append, List.foldlM_cons, steps_writeText, hcolon,
            hcomma, Option.bind_eq_bind, Option.bind_some, hrest]
          simp [textMembers, memberTokens, tokens]

theorem steps_writeObject (members : List (String × String)) :
    (writeObject members).foldlM Scan.step {}
      = some ⟨(ofTexts members).tokens.reverse, .between⟩ := by
  show (writeMembers members ++ ['}']).foldlM Scan.step ⟨[.openBrace], .between⟩ = _
  rw [List.foldlM_append, steps_writeMembers, ofTexts, tokens]
  simp [Scan.step, Scan.begin?, isBlank]

/-- **What is written is read back**, also with a line feed behind it. -/
theorem parse?_writeObject (members : List (String × String)) {feed : List Char}
    (hfeed : feed = [] ∨ feed = ['\n']) :
    parse? (String.ofList (writeObject members ++ feed)) = some (ofTexts members) := by
  have htokens : tokens? (writeObject members ++ feed) = some (ofTexts members).tokens := by
    rw [tokens?, List.foldlM_append, steps_writeObject]
    rcases hfeed with rfl | rfl
    all_goals simp [Scan.step, Scan.begin?, isBlank, Scan.finish]
  rw [parse?, String.toList_ofList, htokens, Option.bind_some, ofTokens?_tokens]

/-! ## One line -/

theorem le_toNat_digitChar : ∀ n < 16, 0x20 ≤ (Nat.digitChar n).toNat := by
  decide

theorem le_toNat_of_mem_controlCode {c d : Char} (hcontrol : c.toNat < 0x20)
    (h : d ∈ controlCode c) : 0x20 ≤ d.toNat := by
  simp only [controlCode, List.mem_cons, List.not_mem_nil, or_false] at h
  rcases h with rfl | rfl
  · exact le_toNat_digitChar _ (by omega)
  · exact le_toNat_digitChar _ (by omega)

/-- A written character stands for itself or is escaped, by a letter or by its code. -/
theorem writeChar_cases (c : Char) :
    (∃ letter : Char, 0x20 ≤ letter.toNat ∧ writeChar c = ['\\', letter]) ∨
      (c.toNat < 0x20 ∧ writeChar c = '\\' :: 'u' :: '0' :: '0' :: controlCode c) ∨
      (0x20 ≤ c.toNat ∧ writeChar c = [c]) := by
  unfold writeChar
  repeat' split
  · exact .inl ⟨_, by decide, rfl⟩
  · exact .inl ⟨_, by decide, rfl⟩
  · exact .inl ⟨_, by decide, rfl⟩
  · exact .inl ⟨_, by decide, rfl⟩
  · exact .inl ⟨_, by decide, rfl⟩
  · exact .inl ⟨_, by decide, rfl⟩
  · exact .inl ⟨_, by decide, rfl⟩
  · next hcontrol => exact .inr (.inl ⟨hcontrol, rfl⟩)
  · next hcontrol => exact .inr (.inr ⟨Nat.le_of_not_lt hcontrol, rfl⟩)

/-- What is written holds no control characters. -/
theorem le_toNat_of_mem_writeChar {c d : Char} (h : d ∈ writeChar c) : 0x20 ≤ d.toNat := by
  obtain ⟨letter, hle, heq⟩ | ⟨hcontrol, heq⟩ | ⟨hle, heq⟩ := writeChar_cases c
  · rw [heq] at h
    simp only [List.mem_cons, List.not_mem_nil, or_false] at h
    rcases h with rfl | rfl
    · decide
    · exact hle
  · rw [heq] at h
    simp only [List.mem_cons] at h
    rcases h with rfl | rfl | rfl | rfl | hd
    · decide
    · decide
    · decide
    · decide
    · exact le_toNat_of_mem_controlCode hcontrol hd
  · rw [heq] at h
    rw [List.mem_singleton.mp h]
    exact hle

theorem le_toNat_of_mem_writeText {text : String} {d : Char} (h : d ∈ writeText text) :
    0x20 ≤ d.toNat := by
  simp only [writeText, List.mem_cons, List.mem_append, List.mem_flatMap, List.not_mem_nil,
    or_false] at h
  rcases h with rfl | ⟨c, -, hd⟩ | rfl
  · decide
  · exact le_toNat_of_mem_writeChar hd
  · decide

theorem le_toNat_of_mem_writeMembers {members : List (String × String)} {d : Char}
    (h : d ∈ writeMembers members) : 0x20 ≤ d.toNat := by
  induction members with
  | nil => cases h
  | cons member members ih =>
      obtain ⟨name, value⟩ := member
      cases members with
      | nil =>
          simp only [writeMembers, List.mem_append, List.mem_cons] at h
          rcases h with hd | rfl | hd
          · exact le_toNat_of_mem_writeText hd
          · decide
          · exact le_toNat_of_mem_writeText hd
      | cons next members =>
          simp only [writeMembers, List.mem_append, List.mem_cons] at h ih
          rcases h with hd | rfl | hd | rfl | hd
          · exact le_toNat_of_mem_writeText hd
          · decide
          · exact le_toNat_of_mem_writeText hd
          · decide
          · exact ih hd

/-- What is written is one line. -/
theorem feed_not_mem_writeObject (members : List (String × String)) :
    '\n' ∉ writeObject members := by
  intro h
  simp only [writeObject, List.mem_cons, List.mem_append, List.not_mem_nil, or_false] at h
  rcases h with h | h | h
  · exact absurd h (by decide)
  · exact absurd (le_toNat_of_mem_writeMembers h) (by decide)
  · exact absurd h (by decide)

/-! ## Beginnings of what is written -/

/-- **Nothing shorter is read.** -/
theorem parse?_of_isPrefix {members : List (String × String)} {part : List Char}
    (hpart : part <+: '{' :: writeMembers members) : parse? (String.ofList part) = none := by
  rw [parse?, String.toList_ofList, Option.eq_none_iff_forall_ne_some]
  intro v hv
  obtain ⟨found, htokens, hv⟩ := Option.bind_eq_some_iff.mp hv
  obtain ⟨s, hs, hfinish⟩ := Option.bind_eq_some_iff.mp htokens
  obtain ⟨more, hmore⟩ := hpart
  have hwhole : ('{' :: writeMembers members).foldlM Scan.step {}
      = some ⟨(.openBrace :: memberTokens (textMembers members)).reverse, .between⟩ := by
    show (writeMembers members).foldlM Scan.step ⟨[.openBrace], .between⟩ = _
    rw [steps_writeMembers, List.reverse_cons]
  rw [← hmore, List.foldlM_append, hs] at hwhole
  have hreached := Scan.isSuffix_steps hwhole
  obtain rfl := Scan.finish_eq_some hfinish
  -- the last brace is missing in what was found, so it is not all of the object's lexemes
  have hbegin : s.reached.reverse <+: .openBrace :: memberTokens (textMembers members) := by
    rw [← List.reverse_suffix, List.reverse_reverse]
    exact hreached
  have hall : (ofTexts members).tokens
      = .openBrace :: memberTokens (textMembers members) ++ [.closeBrace] := rfl
  have heq := eq_of_isPrefix (hbegin.trans (hall ▸ List.prefix_append ..)) (by rw [hv]; rfl)
    (by rw [ofTokens?_tokens (ofTexts members)]; rfl)
  have hlength := hbegin.length_le
  rw [heq, hall, List.length_append, List.length_singleton] at hlength
  omega

end LockService.Json
