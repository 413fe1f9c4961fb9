import LockService.Proofs.Json.Grammar
import LockService.Proofs.Json.Reading
import Mathlib.Tactic.SplitIfs

/-!
# What is scanned is spelled

From the lexemes that a scan has found and the one in progress it can be told how the characters so
far are made up (`Scan.Read`).  Every character goes on from there, so that a text with some
lexemes is a spelling of them (`spelled_of_tokens?`).  The text of some pieces is what they write
(`text?_eq_some_iff`).
-/

namespace LockService.Json

/-! ## The characters of pieces -/

/-- A unit that is no half of a surrogate pair is a character. -/
theorem textFrom_unit {code : Nat} (hhigh : isHighSurrogate code = false)
    (hlow : isLowSurrogate code = false) (found : List Char) (rest : List Piece) :
    textFrom found (.unit code :: rest) = textFrom (Char.ofNat code :: found) rest := by
  rcases rest with _ | ⟨_ | _, rest⟩
  all_goals simp [textFrom, hhigh, hlow]

theorem textFrom_of_writes {pieces : List Piece} {cs : List Char} (h : Writes pieces cs)
    (found : List Char) : textFrom found pieces = some (found.reverse ++ cs) := by
  induction h generalizing found with
  | nil => simp [textFrom]
  | char c _ ih => simp [textFrom, ih]
  | unit hhigh hlow _ ih => simp [textFrom_unit hhigh hlow, ih]
  | pair hhigh hlow _ ih => simp [textFrom, hhigh, hlow, ih]

theorem writes_of_textFrom {pieces : List Piece} {found cs : List Char}
    (h : textFrom found pieces = some cs) :
    ∃ more, Writes pieces more ∧ cs = found.reverse ++ more := by
  fun_induction textFrom found pieces with
  | case1 found =>
      cases h
      exact ⟨[], .nil, by simp⟩
  | case2 found c rest ih =>
      obtain ⟨more, hmore, rfl⟩ := ih h
      exact ⟨c :: more, .char c hmore, by simp⟩
  | case3 found high low rest hhigh hlow ih =>
      obtain ⟨more, hmore, rfl⟩ := ih h
      exact ⟨_, .pair hhigh hlow hmore, by simp⟩
  | case4 => cases h
  | case5 => cases h
  | case6 found high low rest hhigh hlow ih =>
      obtain ⟨more, hmore, rfl⟩ := ih h
      exact ⟨_, .unit (by simpa using hhigh) (by simpa using hlow) hmore, by simp⟩
  | case7 => cases h
  | case8 found code rest _ hcode ih =>
      obtain ⟨more, hmore, rfl⟩ := ih h
      exact ⟨_, .unit (by simp_all) (by simp_all) hmore, by simp⟩

/-- **The text of some pieces is what they write.** -/
theorem text?_eq_some_iff {pieces : List Piece} {text : String} :
    text? pieces = some text ↔ Writes pieces text.toList := by
  constructor
  · intro h
    obtain ⟨cs, hcs, rfl⟩ := Option.map_eq_some_iff.mp h
    obtain ⟨more, hmore, rfl⟩ := writes_of_textFrom hcs
    simpa using hmore
  · intro h
    rw [text?, textFrom_of_writes h]
    simp

/-! ## Numbers -/

namespace NumberStage

/-- What has been read of a number at a stage. -/
def Read : NumberStage → List Char → Prop
  | .minus, cs => cs = ['-']
  | .zero, cs => ∃ sign, sign ∈ [[], ['-']] ∧ cs = sign ++ ['0']
  | .whole, cs => ∃ sign digits, sign ∈ [[], ['-']] ∧ IsDigits digits ∧
      digits.head? ≠ some '0' ∧ cs = sign ++ digits
  | .point, cs => ∃ integer, IsInteger integer ∧ cs = integer ++ ['.']
  | .fraction, cs => ∃ integer digits, IsInteger integer ∧ IsDigits digits ∧
      cs = integer ++ '.' :: digits
  | .mark, cs => ∃ decimal mark, IsDecimal decimal ∧ mark ∈ ['e', 'E'] ∧ cs = decimal ++ [mark]
  | .sign, cs => ∃ decimal mark sign, IsDecimal decimal ∧ mark ∈ ['e', 'E'] ∧
      sign ∈ [['+'], ['-']] ∧ cs = decimal ++ mark :: sign
  | .exponent, cs => ∃ decimal mark sign digits, IsDecimal decimal ∧ mark ∈ ['e', 'E'] ∧
      sign ∈ [[], ['+'], ['-']] ∧ IsDigits digits ∧ cs = decimal ++ mark :: (sign ++ digits)

end NumberStage

theorem IsDigits.singleton {c : Char} (h : c.isDigit = true) : IsDigits [c] :=
  ⟨List.cons_ne_nil _ _, by simpa using h⟩

theorem IsDigits.concat {cs : List Char} {c : Char} (hcs : IsDigits cs) (hc : c.isDigit = true) :
    IsDigits (cs ++ [c]) := by
  refine ⟨by simp, fun d hd => ?_⟩
  rcases List.mem_append.mp hd with hd | hd
  · exact hcs.2 d hd
  · rw [List.mem_singleton.mp hd]
    exact hc

namespace NumberStage

theorem isInteger_of_read_zero {cs : List Char} (h : Read .zero cs) : IsInteger cs := by
  obtain ⟨sign, hsign, rfl⟩ := h
  exact ⟨sign, ['0'], hsign, .inl rfl, rfl⟩

theorem isInteger_of_read_whole {cs : List Char} (h : Read .whole cs) : IsInteger cs := by
  obtain ⟨sign, digits, hsign, hdigits, hfirst, rfl⟩ := h
  exact ⟨sign, digits, hsign, .inr ⟨hdigits, hfirst⟩, rfl⟩

theorem isDecimal_of_read_fraction {cs : List Char} (h : Read .fraction cs) : IsDecimal cs :=
  .inr h

/-- What has been read where a number may end is a number. -/
theorem isNumber_of_read {stage : NumberStage} {cs : List Char} (h : stage.Read cs)
    (hcomplete : stage.isComplete = true) : IsNumber cs := by
  cases stage with
  | zero => exact .inl (.inl (isInteger_of_read_zero h))
  | whole => exact .inl (.inl (isInteger_of_read_whole h))
  | fraction => exact .inl (isDecimal_of_read_fraction h)
  | exponent => exact .inr h
  | minus | point | mark | sign => cases hcomplete

theorem read_mark {cs : List Char} {c : Char} (h : IsDecimal cs) (hc : c = 'e' ∨ c = 'E') :
    Read .mark (cs ++ [c]) :=
  ⟨cs, c, h, by simpa using hc, rfl⟩

/-- One more character of a number. -/
theorem next?_read {stage next : NumberStage} {cs : List Char} {c : Char} (h : stage.Read cs)
    (hnext : stage.next? c = some next) : next.Read (cs ++ [c]) := by
  unfold next? at hnext
  cases stage with
  | minus =>
      cases h
      dsimp only at hnext
      split_ifs at hnext with hzero hdigit
      · cases hnext
        exact ⟨['-'], by simp, by simp [hzero]⟩
      · cases hnext
        exact ⟨['-'], [c], by simp, .singleton hdigit, by simpa using hzero, rfl⟩
  | zero =>
      have hinteger := isInteger_of_read_zero h
      dsimp only at hnext
      split_ifs at hnext with hpoint hmark
      · cases hnext
        exact ⟨cs, hinteger, by rw [hpoint]⟩
      · cases hnext
        exact read_mark (.inl hinteger) hmark
  | whole =>
      have hinteger := isInteger_of_read_whole h
      dsimp only at hnext
      split_ifs at hnext with hdigit hpoint hmark
      · cases hnext
        obtain ⟨sign, digits, hsign, hdigits, hfirst, rfl⟩ := h
        refine ⟨sign, digits ++ [c], hsign, hdigits.concat hdigit, ?_, List.append_assoc ..⟩
        rwa [List.head?_append, Option.or_of_isSome (by simp [hdigits.1])]
      · cases hnext
        exact ⟨cs, hinteger, by rw [hpoint]⟩
      · cases hnext
        exact read_mark (.inl hinteger) hmark
  | point =>
      dsimp only at hnext
      split_ifs at hnext with hdigit
      cases hnext
      obtain ⟨integer, hinteger, rfl⟩ := h
      exact ⟨integer, [c], hinteger, .singleton hdigit, by simp⟩
  | fraction =>
      have hdecimal := isDecimal_of_read_fraction h
      dsimp only at hnext
      split_ifs at hnext with hdigit hmark
      · cases hnext
        obtain ⟨integer, digits, hinteger, hdigits, rfl⟩ := h
        exact ⟨integer, digits ++ [c], hinteger, hdigits.concat hdigit, by simp⟩
      · cases hnext
        exact read_mark hdecimal hmark
  | mark =>
      obtain ⟨decimal, mark, hdecimal, hmark, rfl⟩ := h
      dsimp only at hnext
      split_ifs at hnext with hdigit hsign
      · cases hnext
        exact ⟨decimal, mark, [], [c], hdecimal, hmark, by simp, .singleton hdigit, by simp⟩
      · cases hnext
        exact ⟨decimal, mark, [c], hdecimal, hmark, by simpa using hsign, by simp⟩
  | sign =>
      obtain ⟨decimal, mark, sign, hdecimal, hmark, hsign, rfl⟩ := h
      dsimp only at hnext
      split_ifs at hnext with hdigit
      cases hnext
      exact ⟨decimal, mark, sign, [c], hdecimal, hmark, List.mem_cons_of_mem _ hsign,
        .singleton hdigit, by simp⟩
  | exponent =>
      obtain ⟨decimal, mark, sign, digits, hdecimal, hmark, hsign, hdigits, rfl⟩ := h
      dsimp only at hnext
      split_ifs at hnext with hdigit
      cases hnext
      exact ⟨decimal, mark, sign, digits ++ [c], hdecimal, hmark, hsign, hdigits.concat hdigit,
        by simp⟩

end NumberStage

/-! ## What has been scanned -/

theorem hexValue?_concat {digits : List Char} {value digit : Nat} {c : Char}
    (hvalue : hexValue? digits = some value) (hdigit : Text.digit? 16 c = some digit) :
    hexValue? (digits ++ [c]) = some (value * 16 + digit) := by
  rw [hexValue?, List.foldlM_append, ← hexValue?, hvalue]
  simp [hdigit]

/-- What has been read of the lexeme in progress. -/
def Mode.Read : Mode → List Char → Prop
  | .between, cs => cs = []
  | .word rest token, cs => token.Spells (cs ++ rest)
  | .quoted pieces, cs => ∃ inner, Joined Piece.Spells pieces.reverse inner ∧ cs = '"' :: inner
  | .escape pieces, cs => ∃ inner, Joined Piece.Spells pieces.reverse inner ∧
      cs = '"' :: (inner ++ ['\\'])
  | .code pieces digits value, cs => ∃ inner read, Joined Piece.Spells pieces.reverse inner ∧
      0 < digits ∧ read.length + digits = 4 ∧ hexValue? read = some value ∧
      cs = '"' :: (inner ++ '\\' :: 'u' :: read)
  | .number stage, cs => stage.Read cs

namespace Scan

/-- The characters that a scan has read: the lexemes found, each behind blanks, and then blanks
and what there is of the lexeme in progress. -/
def Read (s : Scan) (cs : List Char) : Prop :=
  ∃ front blanks back, Joined Token.SpellsBehindBlanks s.found.reverse front ∧
    AreBlank blanks ∧ s.mode.Read back ∧ cs = front ++ (blanks ++ back)

theorem joined_found {found : List Token} {token : Token} {front blanks spelling : List Char}
    (hfront : Joined Token.SpellsBehindBlanks found.reverse front) (hblanks : AreBlank blanks)
    (htoken : token.Spells spelling) :
    Joined Token.SpellsBehindBlanks (token :: found).reverse (front ++ (blanks ++ spelling)) := by
  rw [List.reverse_cons]
  exact hfront.concat ⟨blanks, spelling, hblanks, htoken, rfl⟩

/-- A lexeme is over where a scan is between lexemes. -/
theorem read_between {found : List Token} {token : Token} {front blanks spelling : List Char}
    (hfront : Joined Token.SpellsBehindBlanks found.reverse front) (hblanks : AreBlank blanks)
    (htoken : token.Spells spelling) :
    Read ⟨token :: found, .between⟩ (front ++ (blanks ++ spelling)) :=
  ⟨_, [], [], joined_found hfront hblanks htoken, areBlank_nil, rfl, by simp⟩

theorem begin?_read {found : List Token} {front blanks : List Char} {c : Char} {s : Scan}
    (hfront : Joined Token.SpellsBehindBlanks found.reverse front) (hblanks : AreBlank blanks)
    (h : begin? found c = some s) : s.Read (front ++ (blanks ++ [c])) := by
  unfold begin? at h
  split at h
  · next hblank =>
    cases h
    refine ⟨front, blanks ++ [c], [], hfront, fun d hd => ?_, rfl, by simp⟩
    rcases List.mem_append.mp hd with hd | hd
    · exact hblanks d hd
    · rw [List.mem_singleton.mp hd]
      exact hblank
  split at h
  · cases h; exact read_between hfront hblanks .openBrace
  · cases h; exact read_between hfront hblanks .closeBrace
  · cases h; exact read_between hfront hblanks .openBracket
  · cases h; exact read_between hfront hblanks .closeBracket
  · cases h; exact read_between hfront hblanks .comma
  · cases h; exact read_between hfront hblanks .colon
  · cases h; exact ⟨front, blanks, ['"'], hfront, hblanks, ⟨[], .nil, rfl⟩, rfl⟩
  · cases h; exact ⟨front, blanks, ['n'], hfront, hblanks, .null, rfl⟩
  · cases h; exact ⟨front, blanks, ['t'], hfront, hblanks, .true, rfl⟩
  · cases h; exact ⟨front, blanks, ['f'], hfront, hblanks, .false, rfl⟩
  · cases h; exact ⟨front, blanks, ['-'], hfront, hblanks, rfl, rfl⟩
  · cases h; exact ⟨front, blanks, ['0'], hfront, hblanks, ⟨[], by simp, rfl⟩, rfl⟩
  · next hzero =>
    split at h
    · next hdigit =>
      cases h
      refine ⟨front, blanks, [c], hfront, hblanks, ⟨[], [c], by simp, .singleton hdigit, ?_, rfl⟩,
        rfl⟩
      simpa using hzero
    · cases h

/-- One more character is read. -/
theorem step_read {s s' : Scan} {cs : List Char} {c : Char} (hs : s.Read cs)
    (h : s.step c = some s') : s'.Read (cs ++ [c]) := by
  obtain ⟨found, mode⟩ := s
  obtain ⟨front, blanks, back, hfront, hblanks, hback, rfl⟩ := hs
  dsimp only at hfront hback
  unfold step at h
  cases mode with
  | between =>
      cases hback
      simpa using begin?_read hfront hblanks h
  | word rest token =>
      cases rest with
      | nil =>
          rw [Mode.Read, List.append_nil] at hback
          simpa using begin?_read (joined_found hfront hblanks hback) areBlank_nil h
      | cons expected rest =>
          dsimp only at h
          split_ifs at h with hc
          cases h
          refine ⟨front, blanks, back ++ [c], hfront, hblanks, ?_, by simp⟩
          simpa [Mode.Read, hc] using hback
  | quoted pieces =>
      obtain ⟨inner, hinner, rfl⟩ := hback
      dsimp only at h
      split_ifs at h with hquote hbackslash hcontrol
      · cases h
        have htoken := read_between hfront hblanks (.text hinner)
        simpa [hquote] using htoken
      · cases h
        exact ⟨front, blanks, _, hfront, hblanks, ⟨inner, hinner, rfl⟩, by simp [hbackslash]⟩
      · cases h
        refine ⟨front, blanks, _, hfront, hblanks, ⟨inner ++ [c], ?_, rfl⟩, by simp⟩
        rw [List.reverse_cons]
        exact hinner.concat (.plain hquote hbackslash hcontrol)
  | escape pieces =>
      obtain ⟨inner, hinner, rfl⟩ := hback
      dsimp only at h
      split_ifs at h with hcode
      · cases h
        refine ⟨front, blanks, '"' :: (inner ++ ['\\', 'u']), hfront, hblanks,
          ⟨inner, [], hinner, by decide, rfl, rfl, rfl⟩, by simp [hcode]⟩
      · obtain ⟨escaped, hletter, rfl⟩ := Option.map_eq_some_iff.mp h
        refine ⟨front, blanks, _, hfront, hblanks, ⟨inner ++ ['\\', c], ?_, rfl⟩, by simp⟩
        rw [List.reverse_cons]
        exact hinner.concat (.letter hletter)
  | code pieces digits value =>
      obtain ⟨inner, read, hinner, hdigits, hlength, hvalue, rfl⟩ := hback
      obtain ⟨digit, hdigit, rfl⟩ := Option.map_eq_some_iff.mp h
      have hread := hexValue?_concat hvalue hdigit
      dsimp only
      split_ifs with hlast
      · have hfour : (read ++ [c]).length = 4 := by simp; omega
        refine ⟨front, blanks, _, hfront, hblanks,
          ⟨inner ++ '\\' :: 'u' :: (read ++ [c]), ?_, rfl⟩, by simp⟩
        rw [List.reverse_cons]
        exact hinner.concat (.code hfour hread)
      · refine ⟨front, blanks, _, hfront, hblanks,
          ⟨inner, read ++ [c], hinner, by omega, ?_, hread, rfl⟩, by simp⟩
        rw [List.length_append, List.length_singleton]
        omega
  | number stage =>
      dsimp only at h
      split at h
      · next next hnext =>
        cases h
        exact ⟨front, blanks, back ++ [c], hfront, hblanks, NumberStage.next?_read hback hnext,
          by simp⟩
      · next hnext =>
        split_ifs at h with hcomplete
        have hnumber := joined_found hfront hblanks
          (.number (NumberStage.isNumber_of_read hback hcomplete))
        simpa using begin?_read hnumber areBlank_nil h

/-- What has been read where a text may end spells the lexemes. -/
theorem spelled_of_finish {s : Scan} {cs : List Char} {tokens : List Token} (hs : s.Read cs)
    (h : s.finish = some tokens) : Spelled tokens cs := by
  obtain ⟨found, mode⟩ := s
  obtain ⟨front, blanks, back, hfront, hblanks, hback, rfl⟩ := hs
  dsimp only at hfront hback
  unfold finish at h
  dsimp only at h
  split at h
  · cases hback
    cases h
    exact ⟨front, blanks, hfront, hblanks, by simp⟩
  · cases h
    rw [Mode.Read, List.append_nil] at hback
    exact ⟨_, [], joined_found hfront hblanks hback, areBlank_nil, by simp⟩
  · split_ifs at h with hcomplete
    cases h
    exact ⟨_, [], joined_found hfront hblanks
      (.number (NumberStage.isNumber_of_read hback hcomplete)), areBlank_nil, by simp⟩
  · cases h

end Scan

/-- What is scanned is spelled. -/
theorem spelled_of_tokens? {cs : List Char} {tokens : List Token}
    (h : tokens? cs = some tokens) : Spelled tokens cs := by
  obtain ⟨s, hs, hfinish⟩ := Option.bind_eq_some_iff.mp h
  have hstart : Scan.Read {} [] := ⟨[], [], [], .nil, areBlank_nil, rfl, rfl⟩
  have hread : s.Read ([] ++ cs) :=
    foldlM_preserves (motive := fun read s => s.Read read) Scan.step_read [] hstart hs
  exact Scan.spelled_of_finish hread hfinish

end LockService.Json
