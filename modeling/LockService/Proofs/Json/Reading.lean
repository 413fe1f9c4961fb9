import LockService.Json.Value

/-!
# Values from their lexemes

`Value.tokens` writes a value as lexemes and `Value.ofTokens?` reads it back.  Reading keeps no
stack of its own calls, so the induction over the value carries the frames that are open around the
place: `steps_tokens` says that the lexemes of a value lead from where a value may come to behind
that value, whatever is open outside.

No value's lexemes are the beginning of another's.  Behind a complete value nothing may follow
(`Value.step_complete`), so of a sequence that reads as a value no longer one does.

Nothing else is read.  A reading can tell which lexemes it has read, from its frames and from what
it expects (`Reading.written`), and a step adds the lexeme that it reads, so what reads as a value
are the value's lexemes (`ofTokens?_eq_some_iff`).
-/

namespace LockService.Json

/-- What every step preserves, with the items read so far, is preserved by reading on. -/
theorem foldlM_preserves {σ α : Type} {step : σ → α → Option σ} {motive : List α → σ → Prop}
    (hstep : ∀ {read s item s'}, motive read s → step s item = some s' → motive (read ++ [item]) s')
    (read : List α) {items : List α} {s s' : σ} (h : motive read s)
    (hsteps : items.foldlM step s = some s') : motive (read ++ items) s' := by
  induction items generalizing read s with
  | nil =>
      cases hsteps
      rwa [List.append_nil]
  | cons item items ih =>
      rw [List.foldlM_cons] at hsteps
      obtain ⟨next, hnext, hrest⟩ := Option.bind_eq_some_iff.mp hsteps
      have hmore := ih _ (hstep h hnext) hrest
      rwa [List.append_assoc] at hmore

namespace Value

open Reading

/-! ## Reading back -/

/-- Where the first item of an array may come, a value may. -/
theorem step_firstItem {token : Token} (h : token ≠ .closeBracket) (outer : List Frame) :
    step ⟨.firstItem, outer⟩ token = step ⟨.value, outer⟩ token := by
  unfold step
  split
  all_goals simp_all

theorem tokens_eq_cons (v : Value) : ∃ token rest, v.tokens = token :: rest ∧
    token ≠ .closeBracket := by
  cases v with
  | null => exact ⟨_, _, rfl, by decide⟩
  | bool value => exact ⟨_, _, rfl, nofun⟩
  | number => exact ⟨_, _, rfl, by decide⟩
  | text pieces => exact ⟨_, _, rfl, nofun⟩
  | array items => exact ⟨_, _, rfl, by decide⟩
  | object members => exact ⟨_, _, rfl, by decide⟩

theorem steps_firstItem (item : Value) (items : List Value) (outer : List Frame)
    (more : List Token) :
    (itemTokens (item :: items) ++ more).foldlM step ⟨.firstItem, outer⟩
      = (itemTokens (item :: items) ++ more).foldlM step ⟨.value, outer⟩ := by
  obtain ⟨token, rest, htokens, hfirst⟩ := tokens_eq_cons item
  have hitems : ∃ rest, itemTokens (item :: items) = token :: rest := by
    cases items with
    | nil => exact ⟨rest, htokens⟩
    | cons next items => exact ⟨rest ++ .comma :: itemTokens (next :: items), by
        simp [itemTokens, htokens]⟩
  obtain ⟨rest, hitems⟩ := hitems
  rw [hitems, List.cons_append, List.foldlM_cons, List.foldlM_cons, step_firstItem hfirst]

mutual

/-- The lexemes of a value are read as the value. -/
theorem steps_tokens : ∀ (v : Value) (outer : List Frame),
    v.tokens.foldlM step ⟨.value, outer⟩ = some ⟨.after v, outer⟩
  | .null, _ => rfl
  | .bool _, _ => rfl
  | .number, _ => rfl
  | .text _, _ => rfl
  | .array [], _ => rfl
  | .array (item :: items), outer => by
      show (itemTokens (item :: items) ++ [Token.closeBracket]).foldlM step
        ⟨.firstItem, .array [] :: outer⟩ = _
      rw [steps_firstItem]
      exact steps_itemTokens (item :: items) (List.cons_ne_nil _ _) [] outer
  | .object [], _ => rfl
  | .object (member :: members), outer => by
      refine Eq.trans ?_ (steps_memberTokens (member :: members) (List.cons_ne_nil _ _) [] outer)
      cases members <;> rfl

/-- The lexemes of the last items of an array are read as these items. -/
theorem steps_itemTokens : ∀ (items : List Value), items ≠ [] → ∀ (done : List Value)
    (outer : List Frame),
    (itemTokens items ++ [Token.closeBracket]).foldlM step ⟨.value, .array done :: outer⟩
      = some ⟨.after (.array (done.reverse ++ items)), outer⟩
  | [], hitems, _, _ => absurd rfl hitems
  | [item], _, done, outer => by
      have hitem := steps_tokens item (.array done :: outer)
      rw [itemTokens, List.foldlM_append, hitem]
      simp [step]
  | item :: next :: items, _, done, outer => by
      have hitem := steps_tokens item (.array done :: outer)
      have hrest := steps_itemTokens (next :: items) (List.cons_ne_nil _ _) (item :: done) outer
      rw [List.reverse_cons, List.append_assoc, List.singleton_append] at hrest
      rw [itemTokens, List.append_assoc, List.foldlM_append, hitem, ← hrest]
      · rfl
      · exact List.cons_ne_nil _ _

/-- The lexemes of the last members of an object are read as these members. -/
theorem steps_memberTokens : ∀ (members : List (List Piece × Value)), members ≠ [] →
    ∀ (done : Members) (outer : List Frame),
    (memberTokens members ++ [Token.closeBrace]).foldlM step ⟨.name done, outer⟩
      = some ⟨.after (.object (done.reverse ++ members)), outer⟩
  | [], hmembers, _, _ => absurd rfl hmembers
  | [(name, value)], _, done, outer => by
      have hvalue := steps_tokens value (.object done name :: outer)
      show (value.tokens ++ [Token.closeBrace]).foldlM step ⟨.value, .object done name :: outer⟩ = _
      rw [List.foldlM_append, hvalue]
      simp [step]
  | (name, value) :: next :: members, _, done, outer => by
      have hvalue := steps_tokens value (.object done name :: outer)
      have hrest := steps_memberTokens (next :: members) (List.cons_ne_nil _ _)
        ((name, value) :: done) outer
      rw [List.reverse_cons, List.append_assoc, List.singleton_append] at hrest
      rw [memberTokens, List.cons_append, List.cons_append, List.append_assoc, ← hrest]
      · show (value.tokens ++ _).foldlM step ⟨.value, .object done name :: outer⟩ = _
        rw [List.foldlM_append, hvalue]
        rfl
      · exact List.cons_ne_nil _ _

end

/-- **A value is read back from its lexemes.** -/
theorem ofTokens?_tokens (v : Value) : ofTokens? v.tokens = some v := by
  rw [ofTokens?, steps_tokens v []]
  rfl

/-! ## Ends -/

/-- Behind a complete value nothing may follow. -/
theorem step_complete (v : Value) (token : Token) : step ⟨.after v, []⟩ token = none := by
  cases token <;> rfl

/-- What begins the lexemes of a value and is a value is all of them. -/
theorem eq_of_isPrefix {tokens whole : List Token} (hbegins : tokens <+: whole)
    (htokens : (ofTokens? tokens).isSome = true) (hwhole : (ofTokens? whole).isSome = true) :
    tokens = whole := by
  obtain ⟨more, rfl⟩ := hbegins
  cases more with
  | nil => rw [List.append_nil]
  | cons token more =>
      obtain ⟨v, hv⟩ := Option.isSome_iff_exists.mp htokens
      obtain ⟨⟨expect, outer⟩, hsteps, hfinish⟩ := Option.bind_eq_some_iff.mp hv
      have hcomplete : expect = .after v ∧ outer = [] := by
        unfold finish at hfinish
        split at hfinish <;> simp_all
      obtain ⟨rfl, rfl⟩ := hcomplete
      rw [ofTokens?, List.foldlM_append, hsteps] at hwhole
      simp [step_complete] at hwhole

/-! ## What has been read -/

/-- The lexemes of items that further items follow. -/
def itemTokensBefore (items : List Value) : List Token :=
  items.flatMap fun item => item.tokens ++ [.comma]

/-- The lexemes of members that further members follow. -/
def memberTokensBefore (members : Members) : List Token :=
  members.flatMap fun (name, value) => .text name :: .colon :: (value.tokens ++ [.comma])

theorem itemTokens_concat (items : List Value) (item : Value) :
    itemTokens (items ++ [item]) = itemTokensBefore items ++ item.tokens := by
  induction items with
  | nil => rfl
  | cons first items ih =>
      obtain ⟨next, rest, hrest⟩ := List.exists_cons_of_ne_nil
        (List.append_ne_nil_of_right_ne_nil items (List.cons_ne_nil item []))
      rw [List.cons_append, hrest, itemTokens, ← hrest, ih]
      · simp [itemTokensBefore]
      · exact List.cons_ne_nil _ _

theorem memberTokens_concat (members : Members) (name : List Piece) (value : Value) :
    memberTokens (members ++ [(name, value)])
      = memberTokensBefore members ++ .text name :: .colon :: value.tokens := by
  induction members with
  | nil => rfl
  | cons first members ih =>
      obtain ⟨next, rest, hrest⟩ := List.exists_cons_of_ne_nil
        (List.append_ne_nil_of_right_ne_nil members (List.cons_ne_nil (name, value) []))
      rw [List.cons_append, hrest, memberTokens, ← hrest, ih]
      · simp [memberTokensBefore]
      · exact List.cons_ne_nil _ _

/-- The lexemes of an unfinished array or object that have been read. -/
def Frame.written : Frame → List Token
  | .array items => .openBracket :: itemTokensBefore items.reverse
  | .object members name => .openBrace :: (memberTokensBefore members.reverse
      ++ [.text name, .colon])

/-- The lexemes that have been read inside the innermost unfinished array or object. -/
def Expectation.written : Expectation → List Token
  | .value | .firstItem => []
  | .firstMember => [.openBrace]
  | .name members => .openBrace :: memberTokensBefore members.reverse
  | .colon members called => .openBrace :: (memberTokensBefore members.reverse ++ [.text called])
  | .after complete => complete.tokens

namespace Reading

/-- The lexemes that a reading has read. -/
def written (r : Reading) : List Token :=
  r.outer.reverse.flatMap Frame.written ++ r.expect.written

/-- The first item of an array is expected in an array without items. -/
def IsRegular (r : Reading) : Prop :=
  r.expect = .firstItem → ∃ outer, r.outer = .array [] :: outer

theorem begin?_written {outer : List Frame} {token : Token} {r : Reading}
    (h : begin? outer token = some r) :
    r.IsRegular ∧ r.written = outer.reverse.flatMap Frame.written ++ [token] := by
  cases token <;> cases h
  all_goals simp [IsRegular, written, Expectation.written, Frame.written, tokens, itemTokensBefore]

/-- A step adds the lexeme that it reads. -/
theorem step_written {r r' : Reading} {token : Token} (hr : r.IsRegular)
    (h : r.step token = some r') : r'.IsRegular ∧ r'.written = r.written ++ [token] := by
  unfold step at h
  split at h
  · next hexpect =>
    simpa [written, Expectation.written, hexpect] using begin?_written h
  · next hexpect houter =>
    cases h
    obtain ⟨outer, hempty⟩ := hr hexpect
    rw [houter] at hempty
    cases hempty
    simp [IsRegular, written, Expectation.written, Frame.written, tokens, itemTokens,
      itemTokensBefore, hexpect, houter]
  · next hexpect hnot =>
    simpa [written, Expectation.written, hexpect] using begin?_written h
  · next hexpect =>
    cases h
    simp [IsRegular, written, Expectation.written, tokens, memberTokens, hexpect]
  · next hexpect =>
    cases h
    simp [IsRegular, written, Expectation.written, memberTokensBefore, hexpect]
  · next hexpect =>
    cases h
    simp [IsRegular, written, Expectation.written, hexpect]
  · next hexpect =>
    cases h
    simp [IsRegular, written, Expectation.written, Frame.written, hexpect]
  · next hexpect houter =>
    cases h
    simp [IsRegular, written, Expectation.written, Frame.written, itemTokensBefore, hexpect,
      houter]
  · next hexpect houter =>
    cases h
    simp [IsRegular, written, Expectation.written, Frame.written, tokens, itemTokens_concat,
      hexpect, houter]
  · next hexpect houter =>
    cases h
    simp [IsRegular, written, Expectation.written, Frame.written, memberTokensBefore, hexpect,
      houter]
  · next hexpect houter =>
    cases h
    simp [IsRegular, written, Expectation.written, Frame.written, tokens, memberTokens_concat,
      hexpect, houter]
  · cases h

theorem steps_written {r r' : Reading} {tokens : List Token} (hr : r.IsRegular)
    (h : tokens.foldlM step r = some r') : r'.written = r.written ++ tokens := by
  have hread : r'.IsRegular ∧ r'.written = r.written ++ tokens := by
    refine foldlM_preserves (motive := fun read s => s.IsRegular ∧ s.written = read) ?_ r.written
      ⟨hr, rfl⟩ h
    rintro read s token s' ⟨hregular, rfl⟩ hstep
    exact step_written hregular hstep
  exact hread.2

theorem finish_written {r : Reading} {v : Value} (h : r.finish = some v) :
    r.written = v.tokens := by
  unfold finish at h
  split at h
  · next hexpect houter =>
    cases h
    simp [written, Expectation.written, hexpect, houter]
  · cases h

end Reading

/-- **The lexemes of a value, and no others, are read as the value.** -/
theorem ofTokens?_eq_some_iff {tokens : List Token} {v : Value} :
    ofTokens? tokens = some v ↔ tokens = v.tokens := by
  constructor
  · intro h
    obtain ⟨r, hsteps, hfinish⟩ := Option.bind_eq_some_iff.mp h
    rw [← finish_written hfinish, steps_written (by simp [Reading.IsRegular]) hsteps]
    rfl
  · rintro rfl
    exact ofTokens?_tokens v

end Value

end LockService.Json
