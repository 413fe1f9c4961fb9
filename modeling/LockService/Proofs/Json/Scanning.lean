import LockService.Proofs.Json.Spelling

/-!
# What is spelled is scanned

The characters of a lexeme lead a scan from in front of the lexeme to behind it.  A scan behind a
lexeme may still have to find out that the lexeme is over (`Scan.Behind`).  A number is only over
at a character that it cannot go on with, so two numbers without a blank between them would be
scanned as one.  No value has lexemes like that (`Value.numbersApart_tokens`).

Together with the other direction this says what a text is read as:
`Value.parse?_eq_some_iff`.
-/

namespace LockService.Json

/-! ## Numbers -/

/-- A number may have been read, with or without its sign, up to one of some stages. -/
def LeadsTo (stages : List NumberStage) (cs : List Char) : Prop :=
  ∃ sign unsigned stage, sign ∈ [[], ['-']] ∧ stage ∈ stages ∧
    unsigned.foldlM NumberStage.next? .minus = some stage ∧ cs = sign ++ unsigned

theorem LeadsTo.append {stages stages' : List NumberStage} {cs more : List Char}
    (h : LeadsTo stages cs)
    (hmore : ∀ stage ∈ stages, ∃ stage' ∈ stages',
      more.foldlM NumberStage.next? stage = some stage') : LeadsTo stages' (cs ++ more) := by
  obtain ⟨sign, unsigned, stage, hsign, hstage, hsteps, rfl⟩ := h
  obtain ⟨stage', hstage', hrest⟩ := hmore stage hstage
  refine ⟨sign, unsigned ++ more, stage', hsign, hstage', ?_, List.append_assoc ..⟩
  rw [List.foldlM_append, hsteps]
  exact hrest

theorem LeadsTo.mono {stages stages' : List NumberStage} {cs : List Char} (h : LeadsTo stages cs)
    (hsubset : stages ⊆ stages') : LeadsTo stages' cs := by
  obtain ⟨sign, unsigned, stage, hsign, hstage, hsteps, rfl⟩ := h
  exact ⟨sign, unsigned, stage, hsign, hsubset hstage, hsteps, rfl⟩

/-- Digits lead to a stage and stay there. -/
theorem steps_digits {start stage : NumberStage} {digits : List Char}
    (hdigits : ∀ c ∈ digits, c.isDigit = true) (hstart : start = stage ∨ digits ≠ [])
    (hfirst : ∀ c, c.isDigit = true → start.next? c = some stage)
    (hstay : ∀ c, c.isDigit = true → stage.next? c = some stage) :
    digits.foldlM NumberStage.next? start = some stage := by
  induction digits generalizing start with
  | nil =>
      rcases hstart with rfl | hempty
      · rfl
      · exact absurd rfl hempty
  | cons c digits ih =>
      rw [List.foldlM_cons, hfirst c (hdigits c List.mem_cons_self)]
      exact ih (fun d hd => hdigits d (List.mem_cons_of_mem _ hd)) (.inl rfl) hstay

theorem IsWhole.steps {cs : List Char} (h : IsWhole cs) :
    ∃ stage ∈ [NumberStage.zero, .whole], cs.foldlM NumberStage.next? .minus = some stage := by
  obtain rfl | ⟨⟨hne, hdigits⟩, hfirst⟩ := h
  · exact ⟨.zero, by simp, rfl⟩
  obtain ⟨c, digits, rfl⟩ := List.exists_cons_of_ne_nil hne
  have hc : NumberStage.minus.next? c = some .whole := by
    have hzero : c ≠ '0' := by simpa using hfirst
    simp [NumberStage.next?, hzero, hdigits c List.mem_cons_self]
  have hrest : digits.foldlM NumberStage.next? .whole = some .whole :=
    steps_digits (fun d hd => hdigits d (List.mem_cons_of_mem _ hd)) (.inl rfl)
      (fun d hd => by simp [NumberStage.next?, hd]) (fun d hd => by simp [NumberStage.next?, hd])
  refine ⟨.whole, by simp, ?_⟩
  rw [List.foldlM_cons, hc]
  exact hrest

theorem IsInteger.leadsTo {cs : List Char} (h : IsInteger cs) : LeadsTo [.zero, .whole] cs := by
  obtain ⟨sign, whole, hsign, hwhole, rfl⟩ := h
  obtain ⟨stage, hstage, hsteps⟩ := hwhole.steps
  exact ⟨sign, whole, stage, hsign, hstage, hsteps, rfl⟩

theorem IsDecimal.leadsTo {cs : List Char} (h : IsDecimal cs) :
    LeadsTo [.zero, .whole, .fraction] cs := by
  obtain hinteger | ⟨integer, digits, hinteger, ⟨hne, hdigits⟩, rfl⟩ := h
  · exact hinteger.leadsTo.mono (by simp)
  have hfraction : digits.foldlM NumberStage.next? .point = some .fraction :=
    steps_digits hdigits (.inr hne) (fun c hc => by simp [NumberStage.next?, hc])
      (fun c hc => by simp [NumberStage.next?, hc])
  refine hinteger.leadsTo.append fun stage hstage => ⟨.fraction, by simp, ?_⟩
  have hpoint : stage.next? '.' = some .point := by
    simp only [List.mem_cons, List.not_mem_nil, or_false] at hstage
    rcases hstage with rfl | rfl <;> rfl
  rw [List.foldlM_cons, hpoint]
  exact hfraction

theorem IsNumber.leadsTo {cs : List Char} (h : IsNumber cs) :
    LeadsTo [.zero, .whole, .fraction, .exponent] cs := by
  obtain hdecimal | ⟨decimal, mark, sign, digits, hdecimal, hmark, hsign, ⟨hne, hdigits⟩, rfl⟩ := h
  · exact hdecimal.leadsTo.mono (by simp)
  have hexponent : ∀ start, (∀ c, c.isDigit = true → NumberStage.next? start c = some .exponent) →
      digits.foldlM NumberStage.next? start = some .exponent := fun start hstart =>
    steps_digits hdigits (.inr hne) hstart (fun c hc => by simp [NumberStage.next?, hc])
  have hsigned : (sign ++ digits).foldlM NumberStage.next? .mark = some .exponent := by
    simp only [List.mem_cons, List.not_mem_nil, or_false] at hsign
    rcases hsign with rfl | rfl | rfl
    · exact hexponent .mark fun c hc => by simp [NumberStage.next?, hc]
    · exact hexponent .sign fun c hc => by simp [NumberStage.next?, hc]
    · exact hexponent .sign fun c hc => by simp [NumberStage.next?, hc]
  refine hdecimal.leadsTo.append fun stage hstage => ⟨.exponent, by simp, ?_⟩
  have hnext : stage.next? mark = some .mark := by
    simp only [List.mem_cons, List.not_mem_nil, or_false] at hstage hmark
    rcases hstage with rfl | rfl | rfl <;> rcases hmark with rfl | rfl <;> rfl
  rw [List.foldlM_cons, hnext]
  exact hsigned

namespace Scan

/-- A number begins with a character that could follow its sign. -/
theorem begin?_of_minus {c : Char} {stage : NumberStage}
    (h : NumberStage.minus.next? c = some stage) (found : List Token) :
    begin? found c = some ⟨found, .number stage⟩ := by
  unfold NumberStage.next? at h
  dsimp only at h
  split_ifs at h with hzero hdigit
  · cases h
    rw [hzero]
    rfl
  · cases h
    have hblank : ¬ isBlank c = true := by
      simp only [isBlank, decide_eq_true_eq]
      rintro (rfl | rfl | rfl | rfl) <;> exact absurd hdigit (by decide)
    unfold begin?
    rw [if_neg hblank]
    split
    all_goals first
      | exact absurd hdigit (by decide)
      | exact absurd rfl hzero
      | exact if_pos hdigit

theorem steps_number {stage stage' : NumberStage} {cs : List Char}
    (h : cs.foldlM NumberStage.next? stage = some stage') (found : List Token) :
    cs.foldlM step ⟨found, .number stage⟩ = some ⟨found, .number stage'⟩ := by
  induction cs generalizing stage with
  | nil =>
      cases h
      rfl
  | cons c cs ih =>
      rw [List.foldlM_cons] at h
      obtain ⟨next, hnext, hrest⟩ := Option.bind_eq_some_iff.mp h
      have hstep : step ⟨found, .number stage⟩ c = some ⟨found, .number next⟩ := by
        simp [step, hnext]
      rw [List.foldlM_cons, hstep]
      exact ih hrest

theorem steps_isNumber {cs : List Char} (h : IsNumber cs) (found : List Token) :
    ∃ stage : NumberStage, stage.isComplete = true ∧
      cs.foldlM step ⟨found, .between⟩ = some ⟨found, .number stage⟩ := by
  obtain ⟨sign, unsigned, stage, hsign, hstage, hsteps, rfl⟩ := h.leadsTo
  have hcomplete : stage.isComplete = true := by
    simp only [List.mem_cons, List.not_mem_nil, or_false] at hstage
    rcases hstage with rfl | rfl | rfl | rfl <;> rfl
  refine ⟨stage, hcomplete, ?_⟩
  simp only [List.mem_cons, List.not_mem_nil, or_false] at hsign
  rcases hsign with rfl | rfl
  · cases unsigned with
    | nil =>
        cases hsteps
        cases hcomplete
    | cons c unsigned =>
        rw [List.foldlM_cons] at hsteps
        obtain ⟨first, hfirst, hrest⟩ := Option.bind_eq_some_iff.mp hsteps
        rw [List.nil_append, List.foldlM_cons, show step ⟨found, .between⟩ c = begin? found c from
          rfl, begin?_of_minus hfirst]
        exact steps_number hrest found
  · exact steps_number hsteps found

/-! ## Quoted texts -/

theorem steps_hexDigits {digits : List Char} {count value code : Nat} (found : List Token)
    (pieces : List Piece) (hlength : digits.length = count + 1)
    (hcode : digits.foldlM (fun value c => (Text.digit? 16 c).map (value * 16 + ·)) value
      = some code) :
    digits.foldlM step ⟨found, .code pieces (count + 1) value⟩
      = some ⟨found, .quoted (.unit code :: pieces)⟩ := by
  induction digits generalizing count value with
  | nil => cases hlength
  | cons c digits ih =>
      rw [List.foldlM_cons] at hcode
      obtain ⟨next, hnext, hrest⟩ := Option.bind_eq_some_iff.mp hcode
      obtain ⟨digit, hdigit, rfl⟩ := Option.map_eq_some_iff.mp hnext
      rw [List.length_cons, Nat.add_right_cancel_iff] at hlength
      cases count with
      | zero =>
          obtain rfl := List.eq_nil_of_length_eq_zero hlength
          cases hrest
          simp [step, hdigit]
      | succ count =>
          have hstep : step ⟨found, .code pieces (count + 1 + 1) value⟩ c
              = some ⟨found, .code pieces (count + 1) (value * 16 + digit)⟩ := by
            simp [step, hdigit]
          rw [List.foldlM_cons, hstep]
          exact ih hlength hrest

/-- The characters of a piece are scanned as the piece. -/
theorem steps_piece {piece : Piece} {cs : List Char} (h : piece.Spells cs) (found : List Token)
    (pieces : List Piece) :
    cs.foldlM step ⟨found, .quoted pieces⟩ = some ⟨found, .quoted (piece :: pieces)⟩ := by
  cases h with
  | plain hquote hbackslash hcontrol => simp [step, hquote, hbackslash, hcontrol]
  | letter hletter =>
      have hcode : ∀ letter c, escaped? letter = some c → letter ≠ 'u' := by
        rintro letter c h rfl
        cases h
      simp [step, hcode _ _ hletter, hletter]
  | code hlength hcode => exact steps_hexDigits found pieces hlength hcode

theorem steps_pieces {pieces : List Piece} {cs : List Char} (h : Joined Piece.Spells pieces cs)
    (found : List Token) (before : List Piece) :
    cs.foldlM step ⟨found, .quoted before⟩ = some ⟨found, .quoted (pieces.reverse ++ before)⟩ := by
  induction h generalizing before with
  | nil => rfl
  | cons hpiece _ ih =>
      rw [List.foldlM_append, steps_piece hpiece, Option.bind_eq_bind, Option.bind_some, ih]
      simp

/-! ## Lexemes -/

/-- A scan that has read some lexemes and no more, although it may still have to find out that the
last one is over. -/
inductive Behind : List Token → Scan → Prop
  | between {found : List Token} : Behind found ⟨found, .between⟩
  | word {found : List Token} {token : Token} : Behind (token :: found) ⟨found, .word [] token⟩
  | number {found : List Token} {stage : NumberStage} (h : stage.isComplete = true) :
    Behind (.number :: found) ⟨found, .number stage⟩

/-- A character that no number goes on with. -/
def EndsNumber (c : Char) : Prop :=
  ∀ stage : NumberStage, stage.isComplete = true → stage.next? c = none

theorem Behind.step_eq {found : List Token} {s : Scan} {c : Char} (h : Behind found s)
    (hc : found.head? = some .number → EndsNumber c) : s.step c = begin? found c := by
  cases h with
  | between | word => rfl
  | number hcomplete => simp [step, hc rfl _ hcomplete, hcomplete]

theorem Behind.finish_eq {found : List Token} {s : Scan} (h : Behind found s) :
    s.finish = some found.reverse := by
  cases h with
  | between | word => rfl
  | number hcomplete => simp [finish, hcomplete]

/-- The characters of a lexeme lead from in front of it to behind it. -/
theorem steps_token {token : Token} {cs : List Char} (h : token.Spells cs) (found : List Token) :
    ∃ s, cs.foldlM step ⟨found, .between⟩ = some s ∧ Behind (token :: found) s := by
  cases h with
  | openBrace | closeBrace | openBracket | closeBracket | comma | colon =>
      exact ⟨_, rfl, .between⟩
  | null | true | false => exact ⟨_, rfl, .word⟩
  | number hnumber =>
      obtain ⟨stage, hcomplete, hsteps⟩ := steps_isNumber hnumber found
      exact ⟨_, hsteps, .number hcomplete⟩
  | @text pieces inner hpieces =>
      refine ⟨_, ?_, .between⟩
      show (inner ++ ['"']).foldlM step ⟨found, .quoted []⟩ = _
      rw [List.foldlM_append, steps_pieces hpieces]
      simp [step]

theorem endsNumber_of_isBlank {c : Char} (h : isBlank c = true) : EndsNumber c := by
  simp only [isBlank, decide_eq_true_eq] at h
  intro stage hcomplete
  rcases h with rfl | rfl | rfl | rfl <;> cases stage <;> rfl

/-- Only a number begins with a character that a number goes on with. -/
theorem exists_cons_of_spells {token : Token} {cs : List Char} (h : token.Spells cs) :
    ∃ c rest, cs = c :: rest ∧ (token ≠ .number → EndsNumber c) := by
  cases h with
  | number hnumber =>
      obtain ⟨stage, hcomplete, hsteps⟩ := steps_isNumber hnumber []
      cases cs with
      | nil => cases hsteps
      | cons c rest => exact ⟨c, rest, rfl, fun h => absurd rfl h⟩
  | _ =>
      refine ⟨_, _, rfl, fun _ stage hcomplete => ?_⟩
      cases stage <;> rfl

theorem steps_blanks {blanks : List Char} (h : AreBlank blanks) (found : List Token) :
    blanks.foldlM step ⟨found, .between⟩ = some ⟨found, .between⟩ := by
  induction blanks with
  | nil => rfl
  | cons c blanks ih =>
      have hstep : step ⟨found, .between⟩ c = some ⟨found, .between⟩ :=
        if_pos (h c List.mem_cons_self)
      rw [List.foldlM_cons, hstep]
      exact ih fun d hd => h d (List.mem_cons_of_mem _ hd)

/-- A scan behind some lexemes goes on with a character as if the last lexeme were known to be
over, unless a number may go on with it. -/
theorem Behind.steps_eq {found : List Token} {s : Scan} {c : Char} (h : Behind found s)
    (hc : found.head? = some .number → EndsNumber c) (cs : List Char) :
    (c :: cs).foldlM step s = (c :: cs).foldlM step ⟨found, .between⟩ := by
  rw [List.foldlM_cons, List.foldlM_cons, h.step_eq hc]
  rfl

theorem Behind.steps_token {found : List Token} {s : Scan} {token : Token} {cs : List Char}
    (h : Behind found s) (htoken : token.SpellsBehindBlanks cs)
    (hnumbers : found.head? = some .number → token ≠ .number) :
    ∃ s', cs.foldlM step s = some s' ∧ Behind (token :: found) s' := by
  obtain ⟨blanks, spelling, hblanks, hspelling, rfl⟩ := htoken
  obtain ⟨s', hsteps, hbehind⟩ := Scan.steps_token hspelling found
  refine ⟨s', ?_, hbehind⟩
  have hbetween : (blanks ++ spelling).foldlM step ⟨found, .between⟩ = some s' := by
    rw [List.foldlM_append, steps_blanks hblanks]
    exact hsteps
  rw [← hbetween]
  cases blanks with
  | nil =>
      obtain ⟨c, rest, rfl, hends⟩ := exists_cons_of_spells hspelling
      exact h.steps_eq (fun hlast => hends (hnumbers hlast)) rest
  | cons c blanks =>
      exact h.steps_eq (fun _ => endsNumber_of_isBlank (hblanks c List.mem_cons_self)) _

/-- No number follows another. -/
def NumbersApart (tokens : List Token) : Prop :=
  ∀ front back, tokens ≠ front ++ .number :: .number :: back

theorem NumbersApart.of_append {front back : List Token} (h : NumbersApart (front ++ back)) :
    NumbersApart back := by
  rintro front' back' rfl
  exact h (front ++ front') back' (List.append_assoc ..).symm

theorem Behind.steps_tokens {found tokens : List Token} {s : Scan} {cs : List Char}
    (h : Behind found s) (htokens : Joined Token.SpellsBehindBlanks tokens cs)
    (hnumbers : NumbersApart (found.head?.toList ++ tokens)) :
    ∃ s', cs.foldlM step s = some s' ∧ Behind (tokens.reverse ++ found) s' := by
  induction htokens generalizing found s with
  | nil => exact ⟨s, rfl, h⟩
  | @cons token tokens front back hfront _ ih =>
      have hnext : found.head? = some .number → token ≠ .number := by
        rintro hlast rfl
        exact hnumbers [] tokens (by rw [hlast]; rfl)
      obtain ⟨next, hsteps, hbehind⟩ := h.steps_token hfront hnext
      obtain ⟨s', hmore, hbehind'⟩ := ih hbehind hnumbers.of_append
      refine ⟨s', ?_, by simpa using hbehind'⟩
      rw [List.foldlM_append, hsteps]
      exact hmore

/-! ## Lexemes reached -/

/-- The lexemes that a scan has come to: those found, and the one in progress if it is clear which
it will be. -/
def reached (s : Scan) : List Token :=
  match s.mode with
  | .word _ token => token :: s.found
  | .number _ => .number :: s.found
  | .between | .quoted _ | .escape _ | .code .. => s.found

theorem isSuffix_begin? {found : List Token} {c : Char} {s : Scan} (h : begin? found c = some s) :
    found <:+ s.reached := by
  unfold begin? at h
  repeat' split at h
  all_goals cases h
  all_goals simp [reached]

theorem isSuffix_step {s s' : Scan} {c : Char} (h : s.step c = some s') :
    s.reached <:+ s'.reached := by
  unfold step at h
  split at h
  · next hmode =>
    rw [reached, hmode]
    exact isSuffix_begin? h
  · next hmode =>
    rw [reached, hmode]
    exact isSuffix_begin? h
  · next hmode =>
    split at h <;> cases h
    simp [reached, hmode]
  · next hmode =>
    repeat' split at h
    all_goals cases h
    all_goals simp [reached, hmode]
  · next hmode =>
    split at h
    · cases h
      simp [reached, hmode]
    · obtain ⟨c, -, rfl⟩ := Option.map_eq_some_iff.mp h
      simp [reached, hmode]
  · next hmode =>
    obtain ⟨digit, -, rfl⟩ := Option.map_eq_some_iff.mp h
    dsimp only
    rw [apply_ite reached]
    simp [reached, hmode]
  · next hmode =>
    repeat' split at h
    · cases h
      simp [reached, hmode]
    · rw [reached, hmode]
      exact isSuffix_begin? h
    · cases h

/-- Scanning on takes no lexeme back. -/
theorem isSuffix_steps {s s' : Scan} {cs : List Char} (h : cs.foldlM step s = some s') :
    s.reached <:+ s'.reached :=
  foldlM_preserves (motive := fun _ s' => s.reached <:+ s'.reached)
    (fun hsuffix hstep => hsuffix.trans (isSuffix_step hstep)) [] (List.suffix_refl _) h

theorem finish_eq_some {s : Scan} {tokens : List Token} (h : s.finish = some tokens) :
    tokens = s.reached.reverse := by
  unfold finish at h
  split at h
  · next hmode => cases h; rw [reached, hmode]
  · next hmode => cases h; rw [reached, hmode]
  · next hmode =>
    split at h
    · cases h; rw [reached, hmode]
    · cases h
  · cases h

end Scan

open Scan

/-- What is spelled is scanned, if no number follows another. -/
theorem tokens?_of_spelled {tokens : List Token} {cs : List Char} (h : Spelled tokens cs)
    (hnumbers : NumbersApart tokens) : tokens? cs = some tokens := by
  obtain ⟨front, blanks, hfront, hblanks, rfl⟩ := h
  have hstart : Behind [] {} := .between
  obtain ⟨s, hsteps, hbehind⟩ := hstart.steps_tokens hfront hnumbers
  rw [List.append_nil] at hbehind
  rw [tokens?, List.foldlM_append, hsteps, Option.bind_eq_bind, Option.bind_some]
  cases blanks with
  | nil => simp [hbehind.finish_eq]
  | cons c blanks =>
      rw [hbehind.steps_eq (fun _ => Scan.endsNumber_of_isBlank (hblanks c List.mem_cons_self)),
        Scan.steps_blanks hblanks]
      simp [Scan.finish]

namespace Value

/-! ## Values -/

/-- Behind a number no other may follow. -/
theorem step_after_number {r next : Reading} (h : r.step .number = some next) :
    next.step .number = none := by
  have hafter : ∃ outer, next = ⟨.after .number, outer⟩ := by
    unfold Reading.step at h
    split at h
    all_goals first
      | exact ⟨_, (Option.some.inj h).symm⟩
      | contradiction
  obtain ⟨outer, rfl⟩ := hafter
  rcases outer with _ | ⟨_ | _, outer⟩ <;> rfl

/-- Among the lexemes of a value no number follows another. -/
theorem numbersApart_tokens (v : Value) : NumbersApart v.tokens := by
  intro front back htokens
  have hread := ofTokens?_tokens v
  obtain ⟨r, hsteps, -⟩ := Option.bind_eq_some_iff.mp hread
  rw [htokens, List.foldlM_append] at hsteps
  obtain ⟨before, -, hsteps⟩ := Option.bind_eq_some_iff.mp hsteps
  rw [List.foldlM_cons] at hsteps
  obtain ⟨first, hfirst, hsteps⟩ := Option.bind_eq_some_iff.mp hsteps
  rw [List.foldlM_cons] at hsteps
  obtain ⟨second, hsecond, -⟩ := Option.bind_eq_some_iff.mp hsteps
  rw [step_after_number hfirst] at hsecond
  cases hsecond

/-- **The texts that spell a value, and no others, are read as the value.** -/
theorem parse?_eq_some_iff {text : String} {v : Value} :
    parse? text = some v ↔ v.Spells text := by
  constructor
  · intro h
    obtain ⟨tokens, htokens, hv⟩ := Option.bind_eq_some_iff.mp h
    obtain rfl := ofTokens?_eq_some_iff.mp hv
    exact spelled_of_tokens? htokens
  · intro h
    rw [parse?, tokens?_of_spelled h v.numbersApart_tokens]
    exact ofTokens?_tokens v

/-- What begins with a brace is an object. -/
theorem exists_members_of_spells {v : Value} {text : String} {blanks rest : List Char}
    (h : v.Spells text) (hblanks : AreBlank blanks) (htext : text.toList = blanks ++ '{' :: rest) :
    ∃ members, v = .object members := by
  obtain ⟨s, hs, hfinish⟩ := Option.bind_eq_some_iff.mp
    (tokens?_of_spelled h v.numbersApart_tokens)
  have hbrace : rest.foldlM step ⟨[.openBrace], .between⟩ = some s := by
    rw [htext, List.foldlM_append, steps_blanks hblanks] at hs
    exact hs
  have hfirst : [Token.openBrace] <+: v.tokens := by
    rw [finish_eq_some hfinish, ← List.reverse_suffix, List.reverse_reverse]
    exact isSuffix_steps hbrace
  cases v with
  | object members => exact ⟨members, rfl⟩
  | _ => simp [tokens] at hfirst

end Value

end LockService.Json
