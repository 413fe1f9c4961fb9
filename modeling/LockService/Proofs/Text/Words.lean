import LockService.Text.Blank

/-!
# Words of a text

The words of a text are its maximal runs of characters that are not white space.  `Text.words` finds
them in one pass, with the run that is in progress at hand; here they are said without a pass.  A
text is white space and nothing else, or white space, a word that does not go on behind it, and a
text with the other words (`Text.Runs`).

**`Text.words_eq_iff`** — what is found are the words, and a text has no others.  That it has some is
shown along the pass, whatever run is in progress (`Text.runs_wordsFrom`); that it has no others is
shown along the words (`Text.Runs.wordsFrom_eq`).
-/

namespace LockService.Text

/-- White space and nothing else, possibly nothing at all. -/
def IsGap (cs : List Char) : Prop :=
  ∀ c ∈ cs, isBlank c = true

/-- At least one character, and none that is white space. -/
def IsWord (cs : List Char) : Prop :=
  cs ≠ [] ∧ ∀ c ∈ cs, isBlank c = false

/-- Whether a word before these characters does not go on with them: they begin with white space, or
there are none. -/
def EndsWord (cs : List Char) : Prop :=
  ∀ c ∈ cs.head?, isBlank c = true

instance (cs : List Char) : Decidable (IsGap cs) :=
  decidable_of_iff (cs.all isBlank = true) List.all_eq_true

instance (cs : List Char) : Decidable (IsWord cs) :=
  decidable_of_iff (cs ≠ [] ∧ cs.all (! isBlank ·) = true) (by simp [IsWord])

/-- **The maximal runs** of characters that are not white space, in their order. -/
inductive Runs : List (List Char) → List Char → Prop
  | gap {gap : List Char} (hgap : IsGap gap) : Runs [] gap
  | word {gap word rest : List Char} {words : List (List Char)} (hgap : IsGap gap)
    (hword : IsWord word) (hends : EndsWord rest) (hrest : Runs words rest) :
    Runs (word :: words) (gap ++ (word ++ rest))

/-- The words of a text, in their order. -/
def AreWords (words : List String) (text : String) : Prop :=
  Runs (words.map String.toList) text.toList

theorem isGap_nil : IsGap [] :=
  nofun

theorem IsGap.endsWord {gap : List Char} (h : IsGap gap) : EndsWord gap :=
  fun c hc => h c (List.mem_of_mem_head? hc)

theorem IsGap.endsWord_append {gap : List Char} (h : IsGap gap) (hne : gap ≠ []) (rest : List Char) :
    EndsWord (gap ++ rest) := by
  cases gap with
  | nil => exact absurd rfl hne
  | cons c gap => exact fun d hd => Option.some.inj hd ▸ h c List.mem_cons_self

theorem Runs.isWord {words : List (List Char)} {cs : List Char} (h : Runs words cs) :
    ∀ word ∈ words, IsWord word := by
  induction h with
  | gap _ => exact nofun
  | word _ hword _ _ ih => exact List.forall_mem_cons.mpr ⟨hword, ih⟩

/-- White space in front of a text changes nothing. -/
theorem Runs.behind_gap {words : List (List Char)} {gap cs : List Char} (hgap : IsGap gap)
    (h : Runs words cs) : Runs words (gap ++ cs) := by
  cases h with
  | gap hcs => exact .gap (List.forall_mem_append.mpr ⟨hgap, hcs⟩)
  | word hfront hword hends hrest =>
      rw [← List.append_assoc]
      exact .word (List.forall_mem_append.mpr ⟨hgap, hfront⟩) hword hends hrest

/-! ## Every text has words -/

/-- A run in progress is kept with its latest character first. -/
theorem isWord_reverse {run : List Char} (hrun : ∀ c ∈ run, isBlank c = false) (hne : run ≠ []) :
    IsWord run.reverse :=
  ⟨mt List.reverse_eq_nil_iff.mp hne, fun c hc => hrun c (List.mem_reverse.mp hc)⟩

/-- Whatever run is in progress, the pass finds that run with what is left of it, and then the words of
what is behind it. -/
theorem runs_wordsFrom {run : List Char} (hrun : ∀ c ∈ run, isBlank c = false) (cs : List Char) :
    Runs (wordsFrom run cs) (run.reverse ++ cs) := by
  induction cs generalizing run with
  | nil =>
      rw [wordsFrom]
      split
      · next hempty =>
        rw [List.isEmpty_iff.mp hempty]
        exact .gap isGap_nil
      · next hempty =>
        have hword := isWord_reverse hrun (mt List.isEmpty_iff.mpr hempty)
        exact .word isGap_nil hword isGap_nil.endsWord (.gap isGap_nil)
  | cons c cs ih =>
      rw [wordsFrom]
      split
      · next hblank =>
        -- the run ends here, if there is one
        have hgap : IsGap [c] := List.forall_mem_singleton.mpr hblank
        have hrest : Runs (wordsFrom [] cs) (c :: cs) :=
          (ih (List.forall_mem_nil _)).behind_gap hgap
        split
        · next hempty =>
          rw [List.isEmpty_iff.mp hempty]
          exact hrest
        · next hempty =>
          have hword := isWord_reverse hrun (mt List.isEmpty_iff.mpr hempty)
          exact .word isGap_nil hword (hgap.endsWord_append nofun cs) hrest
      · next hblank =>
        have hmore : ∀ d ∈ c :: run, isBlank d = false :=
          List.forall_mem_cons.mpr ⟨Bool.eq_false_iff.mpr hblank, hrun⟩
        have hruns := ih hmore
        rw [List.reverse_cons, List.append_assoc, List.singleton_append] at hruns
        exact hruns

/-! ## It has no others -/

theorem wordsFrom_gap {gap : List Char} (hgap : IsGap gap) (cs : List Char) :
    wordsFrom [] (gap ++ cs) = wordsFrom [] cs := by
  induction gap with
  | nil => rfl
  | cons c gap ih =>
      obtain ⟨hblank, hrest⟩ := List.forall_mem_cons.mp hgap
      rw [List.cons_append, wordsFrom, if_pos hblank]
      exact ih hrest

theorem wordsFrom_word {word : List Char} (hword : ∀ c ∈ word, isBlank c = false)
    (run cs : List Char) : wordsFrom run (word ++ cs) = wordsFrom (word.reverse ++ run) cs := by
  induction word generalizing run with
  | nil => rfl
  | cons c word ih =>
      obtain ⟨hnot, hrest⟩ := List.forall_mem_cons.mp hword
      rw [List.cons_append, wordsFrom, if_neg (Bool.eq_false_iff.mp hnot), ih hrest,
        List.reverse_cons, List.append_assoc, List.singleton_append]

theorem wordsFrom_of_endsWord {run : List Char} (hne : run ≠ []) {cs : List Char}
    (hends : EndsWord cs) : wordsFrom run cs = run.reverse :: wordsFrom [] cs := by
  have hempty : ¬ run.isEmpty = true := mt List.isEmpty_iff.mp hne
  cases cs with
  | nil => rw [wordsFrom, if_neg hempty]; rfl
  | cons c cs =>
      have hblank : isBlank c = true := hends c rfl
      rw [wordsFrom, if_pos hblank, if_neg hempty, wordsFrom, if_pos hblank]
      rfl

theorem Runs.wordsFrom_eq {words : List (List Char)} {cs : List Char} (h : Runs words cs) :
    wordsFrom [] cs = words := by
  induction h with
  | @gap gap hgap =>
      have hfound := wordsFrom_gap hgap []
      rw [List.append_nil] at hfound
      exact hfound
  | @word gap word rest words hgap hword hends _ ih =>
      have hne : word.reverse ≠ [] := mt List.reverse_eq_nil_iff.mp hword.1
      rw [wordsFrom_gap hgap, wordsFrom_word hword.2, List.append_nil,
        wordsFrom_of_endsWord hne hends, List.reverse_reverse, ih]

/-- **The words of a text** are those that are found, and no others. -/
theorem words_eq_iff {text : String} {ws : List String} : words text = ws ↔ AreWords ws text := by
  constructor
  · rintro rfl
    have hsame : (words text).map String.toList = wordsFrom [] text.toList := by
      simp [words, Function.comp_def]
    rw [AreWords, hsame]
    exact runs_wordsFrom (List.forall_mem_nil _) text.toList
  · intro h
    rw [words, h.wordsFrom_eq, List.map_map]
    simp [Function.comp_def]

end LockService.Text
