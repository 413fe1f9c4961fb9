import Mathlib.Data.List.Forall2
import LockService.Core.Basic
import LockService.Proofs.Text.Words
import LockService.Terminal.Input

/-!
# The language of typed lines

What a typed line asks for, by its words (`Text.AreWords`) and without a reader.

* `SameWord` — words that differ at most in the case of ASCII letters.  No other letters have two cases
  here: the Kelvin sign is no `k`.
* `InputError.IsFault` — what may be wrong with the words of a line, each fault by itself.  A line can
  have several, and `InputError.rank` is the order in which they count.
* `Means` — what each sequence of words asks for, one rule for each kind of line; `ofWords` goes by
  these rules (`means_ofWords`), and everything about a line is read off the one that applies.
* `Understood` — all that `parse` may make of a line, as conditions on its words.

**`typed_lines_understood`** says that every line is understood by its words; that each request that can
be typed at all (`IsTypable`) has its lines, with any white space before, between and behind the words
(`Spacing.line`); and that no other request is ever sent, so the service knows every operation that
comes from a user.
-/

namespace LockService.Terminal

open Text (IsGap IsWord AreWords Runs)

/-! ## Words in either case -/

/-- Whether two characters are the same, or one ASCII letter in its two cases. -/
def SameLetter (c d : Char) : Prop :=
  c = d ∨ c.isUpper = true ∧ d.toNat = c.toNat + 32 ∨ d.isUpper = true ∧ c.toNat = d.toNat + 32

/-- Whether two words are equal up to the case of ASCII letters. -/
def SameWord (v w : String) : Prop :=
  List.Forall₂ SameLetter v.toList w.toList

theorem toNat_toLower (c : Char) :
    c.toLower.toNat = if c.isUpper = true then c.toNat + 32 else c.toNat := by
  have hupper : c.isUpper = true ↔ c.val ≥ 'A'.val ∧ c.val ≤ 'Z'.val := decide_eq_true_iff
  delta Char.toLower
  split
  · next h =>
    rw [if_pos (hupper.mpr h)]
    have hle : c.val.toNat ≤ 90 := UInt32.le_iff_toNat_le.mp h.2
    have hlt : c.val.toNat + 32 < 2 ^ 32 := by omega
    exact (UInt32.toNat_add c.val 32).trans (Nat.mod_eq_of_lt hlt)
  · next h => rw [if_neg (mt hupper.mp h)]

theorem toLower_eq_iff {c d : Char} (hd : d.isUpper = false) : c.toLower = d ↔ SameLetter c d := by
  rw [← Char.toNat_inj, toNat_toLower, SameLetter, hd]
  split
  · next hc =>
    have hne : c ≠ d := fun heq => by rw [heq, hd] at hc; cases hc
    simp [hc, hne, eq_comm]
  · next hc => simp [hc, Char.toNat_inj]

/-- A word without capital letters is the lower case of all that are equal to it up to case. -/
theorem lowerCase_eq_iff {v w : String} (hw : w.toList.any Char.isUpper = false) :
    lowerCase v = w ↔ SameWord v w := by
  have hmap : lowerCase v = w ↔ v.toList.map Char.toLower = w.toList := by
    rw [lowerCase, ← String.toList_inj, String.toList_ofList]
  rw [hmap, SameWord, ← List.forall₂_eq_eq_eq, List.forall₂_map_left_iff]
  constructor
  all_goals
    intro h
    refine List.forall₂_iff_zip.mpr ⟨h.length_eq, fun {c d} hmem => ?_⟩
    have hd : d.isUpper = false :=
      Bool.eq_false_iff.mpr (List.any_eq_false.mp hw d (List.of_mem_zip hmem).2)
    have hlower : c.toLower = d ↔ SameLetter c d := toLower_eq_iff hd
    have hcd := (List.forall₂_iff_zip.mp h).2 hmem
  · exact hlower.mp hcd
  · exact hlower.mpr hcd

theorem lowerCase_eq_quit_iff {word : String} :
    lowerCase word = "/quit" ↔ SameWord word "/quit" :=
  lowerCase_eq_iff (by decide)

theorem lowerCase_eq_name_iff {word : String} {op : Operation} :
    lowerCase word = op.name ↔ SameWord word op.name := by
  refine lowerCase_eq_iff ?_
  cases op <;> decide

example : lowerCase "loCK" = "lock" ∧ lowerCase "loc\u212A" ≠ "lock" := by decide

/-- A word is the name of one operation at most. -/
theorem SameWord.op_eq {word : String} {op op' : Operation} (h : SameWord word op.name)
    (h' : SameWord word op'.name) : op = op' := by
  have hname : op.name = op'.name :=
    (lowerCase_eq_name_iff.mpr h).symm.trans (lowerCase_eq_name_iff.mpr h')
  have hparse := Operation.parse?_name op
  rw [hname, Operation.parse?_name] at hparse
  exact (Option.some.inj hparse).symm

/-- The word for leaving is the name of no operation. -/
theorem SameWord.not_quit {word : String} {op : Operation} (h : SameWord word op.name) :
    ¬ SameWord word "/quit" := by
  intro hquit
  have hname : op.name = "/quit" :=
    (lowerCase_eq_name_iff.mpr h).symm.trans (lowerCase_eq_quit_iff.mpr hquit)
  cases op <;> exact absurd hname (by decide)

/-! ## What words mean -/

/-- How many words a line has that asks for an operation. -/
def wordCount : Operation → Nat
  | .lock | .unlock | .get => 2
  | .set | .incr => 3

theorem takesNumber_iff {op : Operation} : op.takesNumber = true ↔ op = .set ∨ op = .incr := by
  cases op <;> simp [Operation.takesNumber]

theorem wordCount_eq (op : Operation) : wordCount op = if op.takesNumber = true then 3 else 2 := by
  cases op <;> rfl

/-- What the words of a line ask for. -/
inductive Means : List String → Except InputError Input → Prop
  | nothing : Means [] (.ok .empty)
  | quit {word : String} {more : List String} (hquit : SameWord word "/quit") :
    Means (word :: more) (.ok .quit)
  | unknown {word : String} {more : List String} (hquit : ¬ SameWord word "/quit")
    (hop : ∀ op : Operation, ¬ SameWord word op.name) :
    Means (word :: more) (.error (.unknownCommand word))
  | noKey {word : String} {op : Operation} (hop : SameWord word op.name) :
    Means [word] (.error (.missingKey op))
  | noNumber {word key : String} {op : Operation} (hop : SameWord word op.name)
    (htakes : op.takesNumber = true) : Means [word, key] (.error (.missingNumber op))
  | plain {word key : String} {op : Operation} (hop : SameWord word op.name)
    (htakes : op.takesNumber = false) :
    Means [word, key] (.ok (.send ⟨op.name, key, none⟩))
  | numbered {word key number : String} {op : Operation} (hop : SameWord word op.name)
    (htakes : op.takesNumber = true) :
    Means [word, key, number] (.ok (.send ⟨op.name, key, some number⟩))
  | tooMany {word : String} {more : List String} {op : Operation} (hop : SameWord word op.name)
    (hmany : wordCount op < more.length + 1) : Means (word :: more) (.error .tooManyArguments)

theorem means_ofArguments {word : String} {op : Operation} (hop : SameWord word op.name)
    (arguments : List String) : Means (word :: arguments) (ofArguments op arguments) := by
  unfold ofArguments
  split
  · exact .noKey hop
  · split
    · next htakes => exact .noNumber hop htakes
    · next htakes => exact .plain hop (Bool.eq_false_iff.mpr htakes)
  · split
    · next htakes => exact .numbered hop htakes
    · next htakes =>
      refine .tooMany hop ?_
      rw [wordCount_eq, if_neg htakes]
      exact Nat.lt_succ_self 2
  · next hnone hone htwo =>
    -- there are three words or more behind the operation
    refine .tooMany hop ?_
    have hcount : wordCount op ≤ 3 := by cases op <;> decide
    match arguments with
    | [] => exact absurd rfl hnone
    | [key] => exact absurd rfl (hone key)
    | [key, number] => exact absurd rfl (htwo key number)
    | _ :: _ :: _ :: _ => simp only [List.length_cons]; omega

/-- **Words are read by the rules.** -/
theorem means_ofWords (ws : List String) : Means ws (ofWords ws) := by
  unfold ofWords
  split
  · exact .nothing
  · split
    · next hquit => exact .quit (lowerCase_eq_quit_iff.mp hquit)
    · next word arguments hquit =>
      split
      · next hnone =>
        refine .unknown (mt lowerCase_eq_quit_iff.mpr hquit) fun op hop => ?_
        rw [lowerCase_eq_name_iff.mpr hop, Operation.parse?_name] at hnone
        cases hnone
      · next op hsome =>
        have hname := (Operation.name_of_parse? hsome).symm
        exact means_ofArguments (lowerCase_eq_name_iff.mp hname) arguments

theorem ofWords_of_quit {word : String} (h : SameWord word "/quit") (more : List String) :
    ofWords (word :: more) = .ok .quit :=
  if_pos (lowerCase_eq_quit_iff.mpr h)

theorem ofWords_of_name {word : String} {op : Operation} (h : SameWord word op.name)
    (arguments : List String) : ofWords (word :: arguments) = ofArguments op arguments := by
  rw [ofWords, if_neg (mt lowerCase_eq_quit_iff.mp h.not_quit), lowerCase_eq_name_iff.mpr h,
    Operation.parse?_name]

/-! ## Faults -/

/-- Whether the first of some words is the name of an operation, in whatever case. -/
def Names (ws : List String) (op : Operation) : Prop :=
  ∃ word more, ws = word :: more ∧ SameWord word op.name

theorem names_cons_iff {word : String} {more : List String} {op : Operation} :
    Names (word :: more) op ↔ SameWord word op.name := by
  constructor
  · rintro ⟨_, _, heq, h⟩
    cases heq
    exact h
  · exact fun h => ⟨word, more, rfl, h⟩

/-- Whether something is wrong with the words of a line, whatever else may be wrong with them. -/
def InputError.IsFault (ws : List String) : InputError → Prop
  | .unknownCommand word =>
    ws.head? = some word ∧ ¬ SameWord word "/quit" ∧ ∀ op : Operation, ¬ SameWord word op.name
  | .missingKey op => Names ws op ∧ ws.length < 2
  | .missingNumber op => Names ws op ∧ (op = .set ∨ op = .incr) ∧ ws.length < 3
  | .tooManyArguments => ∃ op, Names ws op ∧ wordCount op < ws.length

/-- The order in which faults count. -/
def InputError.rank : InputError → Nat
  | .unknownCommand _ => 0
  | .missingKey _ => 1
  | .missingNumber _ => 2
  | .tooManyArguments => 3

namespace InputError

/-- What may be wrong behind the name of an operation. -/
theorem isFault_iff_of_name {word : String} {op : Operation} (hop : SameWord word op.name)
    (more : List String) (e : InputError) :
    e.IsFault (word :: more) ↔
      e = .missingKey op ∧ more.length < 1 ∨
      e = .missingNumber op ∧ op.takesNumber = true ∧ more.length < 2 ∨
      e = .tooManyArguments ∧ wordCount op < more.length + 1 := by
  have hnames : ∀ op', Names (word :: more) op' ↔ op' = op := fun op' =>
    names_cons_iff.trans ⟨fun h => h.op_eq hop, fun h => h ▸ hop⟩
  cases e with
  | unknownCommand other =>
      simp only [IsFault, List.head?_cons, Option.some.injEq, reduceCtorEq, false_and, or_false,
        iff_false]
      rintro ⟨rfl, -, hnot⟩
      exact hnot op hop
  | missingKey op' =>
      simp only [IsFault, hnames, List.length_cons, missingKey.injEq]
      constructor
      · rintro ⟨rfl, hlength⟩
        exact .inl ⟨rfl, Nat.lt_of_succ_lt_succ hlength⟩
      · rintro (⟨rfl, hlength⟩ | ⟨h, -⟩ | ⟨h, -⟩)
        · exact ⟨rfl, Nat.succ_lt_succ hlength⟩
        · cases h
        · cases h
  | missingNumber op' =>
      simp only [IsFault, hnames, takesNumber_iff, List.length_cons, missingNumber.injEq]
      constructor
      · rintro ⟨rfl, hop', hlength⟩
        exact .inr (.inl ⟨rfl, hop', Nat.lt_of_succ_lt_succ hlength⟩)
      · rintro (⟨h, -⟩ | ⟨rfl, hop', hlength⟩ | ⟨h, -⟩)
        · cases h
        · exact ⟨rfl, hop', Nat.succ_lt_succ hlength⟩
        · cases h
  | tooManyArguments => simp [IsFault, hnames]

/-- Words that ask for something have no fault. -/
theorem not_isFault_of_ok {ws : List String} {input : Input} (h : Means ws (.ok input))
    (e : InputError) : ¬ e.IsFault ws := by
  cases h with
  | nothing => cases e <;> simp [IsFault, Names]
  | @quit word more hquit =>
      have hnames : ∀ op, ¬ Names (word :: more) op := fun op hop =>
        (names_cons_iff.mp hop).not_quit hquit
      cases e <;> simp [IsFault, hnames]
      rintro rfl hnot
      exact absurd hquit hnot
  | plain hop htakes =>
      rw [isFault_iff_of_name hop, wordCount_eq, htakes]
      simp
  | numbered hop htakes =>
      rw [isFault_iff_of_name hop, wordCount_eq, htakes]
      simp

/-- What is said to be wrong is wrong, and nothing that counts before it is. -/
theorem isFault_of_error {ws : List String} {e : InputError} (h : Means ws (.error e)) :
    e.IsFault ws ∧ ∀ other : InputError, other.IsFault ws → e.rank ≤ other.rank := by
  cases h with
  | unknown hquit hop => exact ⟨⟨rfl, hquit, hop⟩, fun _ _ => Nat.zero_le _⟩
  | noKey hop =>
      refine ⟨(isFault_iff_of_name hop [] _).mpr (.inl ⟨rfl, Nat.one_pos⟩), fun other hother => ?_⟩
      rcases (isFault_iff_of_name hop [] other).mp hother with ⟨rfl, -⟩ | ⟨rfl, -⟩ | ⟨rfl, -⟩
      · exact Nat.le_refl 1
      · exact Nat.le_succ 1
      · exact Nat.le_add_right 1 2
  | @noNumber word key op hop htakes =>
      refine ⟨(isFault_iff_of_name hop [key] _).mpr (.inr (.inl ⟨rfl, htakes, Nat.one_lt_two⟩)),
        fun other hother => ?_⟩
      rcases (isFault_iff_of_name hop [key] other).mp hother with ⟨-, hlength⟩ | ⟨rfl, -⟩ | ⟨rfl, -⟩
      · exact absurd hlength (Nat.lt_irrefl 1)
      · exact Nat.le_refl 2
      · exact Nat.le_succ 2
  | @tooMany word more op hop hmany =>
      refine ⟨(isFault_iff_of_name hop more _).mpr (.inr (.inr ⟨rfl, hmany⟩)), fun other hother => ?_⟩
      rw [wordCount_eq] at hmany
      rcases (isFault_iff_of_name hop more other).mp hother with
        ⟨-, hlength⟩ | ⟨-, htakes, hlength⟩ | ⟨rfl, -⟩
      · split at hmany <;> omega
      · rw [if_pos htakes] at hmany
        omega
      · exact Nat.le_refl 3

/-- No two faults of a line count the same. -/
theorem IsFault.eq_of_rank_eq {ws : List String} {e other : InputError} (h : e.IsFault ws)
    (hother : other.IsFault ws) (hrank : e.rank = other.rank) : e = other := by
  have hop : ∀ {op op' : Operation}, Names ws op → Names ws op' → op = op' := by
    rintro op op' ⟨word, more, rfl, hword⟩ hnames
    exact hword.op_eq (names_cons_iff.mp hnames)
  cases e with
  | unknownCommand word =>
      cases other <;> cases hrank
      exact congrArg _ (Option.some.inj (h.1.symm.trans hother.1))
  | missingKey op =>
      cases other <;> cases hrank
      exact congrArg _ (hop h.1 hother.1)
  | missingNumber op =>
      cases other <;> cases hrank
      exact congrArg _ (hop h.1 hother.1)
  | tooManyArguments =>
      cases other <;> cases hrank
      rfl

end InputError

/-! ## Requests that can be typed -/

/-- A request for an operation that can be typed: its key is a word, and if it sets or adds to a counter
it has an argument, which is a word too. -/
structure IsTypable (r : Request) (op : Operation) : Prop where
  op_eq : r.op = op.name
  target : IsWord r.target.toList
  arg_isSome_iff : r.arg.isSome = true ↔ op = .set ∨ op = .incr
  arg : ∀ number ∈ r.arg, IsWord number.toList

/-- White space before, between and behind the words of a line. -/
structure Spacing where
  front : String := ""
  afterOp : String := " "
  afterTarget : String := " "
  back : String := ""
  front_isGap : IsGap front.toList := by decide
  afterOp_ne : afterOp ≠ "" := by decide
  afterOp_isGap : IsGap afterOp.toList := by decide
  afterTarget_ne : afterTarget ≠ "" := by decide
  afterTarget_isGap : IsGap afterTarget.toList := by decide
  back_isGap : IsGap back.toList := by decide

/-- The words of a request as a line. -/
def Spacing.line (s : Spacing) (r : Request) : String :=
  s.front ++ r.op ++ s.afterOp ++ r.target ++ r.arg.elim "" (s.afterTarget ++ ·) ++ s.back

example : ({} : Spacing).line ⟨"incr", "hits", some "-2"⟩ = "incr hits -2" := by decide

theorem Spacing.areWords_line (s : Spacing) {r : Request} {op : Operation} (h : IsTypable r op) :
    AreWords (r.op :: r.target :: r.arg.toList) (s.line r) := by
  have hop : IsWord r.op.toList := by
    rw [h.op_eq]
    cases op <;> decide
  have hne : ∀ {gap : String}, gap ≠ "" → gap.toList ≠ [] := fun h => mt String.toList_eq_nil_iff.mp h
  have hends := s.afterOp_isGap.endsWord_append (hne s.afterOp_ne)
  have htarget := h.target
  cases harg : r.arg with
  | none =>
      have hruns := Runs.word s.front_isGap hop (hends _)
        (.word s.afterOp_isGap htarget s.back_isGap.endsWord (.gap s.back_isGap))
      simpa [AreWords, Spacing.line, harg] using hruns
  | some number =>
      have hnumber := h.arg number harg
      have hends' := s.afterTarget_isGap.endsWord_append (hne s.afterTarget_ne)
      have hruns := Runs.word s.front_isGap hop (hends _)
        (.word s.afterOp_isGap htarget (hends' _)
          (.word s.afterTarget_isGap hnumber s.back_isGap.endsWord (.gap s.back_isGap)))
      simpa [AreWords, Spacing.line, harg] using hruns

/-- What the words of a request ask for is that request, however its operation is spelled, if it has an
argument exactly when the operation needs one. -/
theorem ofWords_of_request {word : String} {op : Operation} {r : Request} (hword : SameWord word op.name)
    (hop : r.op = op.name) (harg : r.arg.isSome = true ↔ op = .set ∨ op = .incr) :
    ofWords (word :: r.target :: r.arg.toList) = .ok (.send r) := by
  rw [ofWords_of_name hword]
  rw [← takesNumber_iff] at harg
  obtain ⟨name, target, arg⟩ := r
  cases hop
  cases arg with
  | none => exact if_neg fun htakes => nomatch harg.mpr htakes
  | some number => exact if_pos (harg.mp rfl)

/-! ## Whole lines -/

/-- All that a line with some words may ask for.

* It asks for nothing if there are no words.
* It asks to leave if the first word is the one for leaving, whatever follows.
* It asks for a request if the first word is the name of its operation, in whatever case, and what
  follows are its key and its argument, which is there for the operations on counters only.
* Otherwise something is wrong with it, and it is refused for the fault that counts first. -/
structure Understood (line : String) (ws : List String) : Prop where
  nothing : parse line = .ok .empty ↔ ws = []
  leaving : parse line = .ok .quit ↔ ∃ word more, ws = word :: more ∧ SameWord word "/quit"
  sending : ∀ r : Request, parse line = .ok (.send r) ↔
    ∃ (op : Operation) (word : String), SameWord word op.name ∧ r.op = op.name ∧
      (r.arg.isSome = true ↔ op = .set ∨ op = .incr) ∧ ws = word :: r.target :: r.arg.toList
  refusing : ∀ e : InputError, parse line = .error e ↔
    e.IsFault ws ∧ ∀ other : InputError, other.IsFault ws → e.rank ≤ other.rank

theorem understood_of_areWords {line : String} {ws : List String} (h : AreWords ws line) :
    Understood line ws := by
  have hparse : parse line = ofWords ws := congrArg ofWords (Text.words_eq_iff.mpr h)
  have hmeans := means_ofWords ws
  refine ⟨?_, ?_, fun r => ?_, fun e => ?_⟩ <;> rw [hparse]
  · constructor
    · intro heq
      rw [heq] at hmeans
      cases hmeans
      rfl
    · rintro rfl
      rfl
  · constructor
    · intro heq
      rw [heq] at hmeans
      cases hmeans with
      | quit hquit => exact ⟨_, _, rfl, hquit⟩
    · rintro ⟨word, more, rfl, hquit⟩
      exact ofWords_of_quit hquit more
  · constructor
    · intro heq
      rw [heq] at hmeans
      cases hmeans with
      | @plain word key op hop htakes =>
          refine ⟨op, word, hop, rfl, ?_, rfl⟩
          rw [← takesNumber_iff, htakes]
          rfl
      | @numbered word key number op hop htakes =>
          refine ⟨op, word, hop, rfl, ?_, rfl⟩
          rw [← takesNumber_iff, htakes]
          rfl
    · rintro ⟨op, word, hword, hop, harg, rfl⟩
      exact ofWords_of_request hword hop harg
  · constructor
    · intro heq
      rw [heq] at hmeans
      exact InputError.isFault_of_error hmeans
    · rintro ⟨hfault, hfirst⟩
      cases hwords : ofWords ws with
      | ok input => exact absurd hfault (InputError.not_isFault_of_ok (hwords ▸ hmeans) e)
      | error said =>
          -- what is said counts first as well, and no two faults count the same
          obtain ⟨hsaid, hleast⟩ := InputError.isFault_of_error (hwords ▸ hmeans)
          have hrank := Nat.le_antisymm (hleast e hfault) (hfirst said hsaid)
          rw [hsaid.eq_of_rank_eq hfault hrank]

/-- A request that a line asks for can be typed: its key and its argument are words of the line. -/
theorem Understood.isTypable {line : String} {ws : List String} (h : Understood line ws)
    (hwords : AreWords ws line) {r : Request} (hr : parse line = .ok (.send r)) :
    ∃ op, IsTypable r op := by
  obtain ⟨op, word, -, hop, harg, rfl⟩ := (h.sending r).mp hr
  have hword := Runs.isWord hwords
  refine ⟨op, hop, hword _ (by simp), harg, fun number hnumber => ?_⟩
  exact hword _ (by simp [Option.mem_def.mp hnumber])

theorem Spacing.parse_line (s : Spacing) {r : Request} {op : Operation} (h : IsTypable r op) :
    parse (s.line r) = .ok (.send r) := by
  have hself : SameWord op.name op.name := List.forall₂_same.mpr fun _ _ => .inl rfl
  refine ((understood_of_areWords (s.areWords_line h)).sending r).mpr ⟨op, r.op, ?_, h.op_eq, ?_, rfl⟩
  · rw [h.op_eq]
    exact hself
  · exact h.arg_isSome_iff

/-- **What typed lines ask for.**  Every line has its words, and these alone decide what it asks for, in
the way of `Understood`.  Each request that can be typed is asked for by its line, whatever the white
space in it; and whatever is sent is a request that can be typed, so the core performs its operation. -/
theorem typed_lines_understood {ρ : Type} :
    (∀ line : String, ∃! ws, AreWords ws line) ∧
    (∀ line ws, AreWords ws line → Understood line ws) ∧
    (∀ r op, IsTypable r op → ∀ s : Spacing, parse (s.line r) = .ok (.send r)) ∧
    ∀ line r, parse line = .ok (.send r) → ∃ op, IsTypable r op ∧
      Operation.parse? r.op = some op ∧ ∀ (core : Core ρ) (sender : ConnectionId),
        core.request sender r = core.perform sender r.target r.arg op := by
  refine ⟨fun line => ?_, fun _ _ => understood_of_areWords, fun r op h s => s.parse_line h,
    fun line r hr => ?_⟩
  · exact ⟨Text.words line, Text.words_eq_iff.mp rfl, fun _ h => (Text.words_eq_iff.mpr h).symm⟩
  · have hwords : AreWords (Text.words line) line := Text.words_eq_iff.mp rfl
    obtain ⟨op, h⟩ := (understood_of_areWords hwords).isTypable hwords hr
    have hparse : Operation.parse? r.op = some op := by rw [h.op_eq, Operation.parse?_name]
    exact ⟨op, h, hparse, fun core sender => by rw [Core.request, hparse]⟩

/-- A request between wide, narrow and broken white space; and a line with two faults, of which the
first one counts. -/
theorem typed_lines_understood_spread :
    let r : Request := ⟨"incr", "hits", some "-2"⟩
    let s : Spacing :=
      { front := "\u3000", afterOp := "\u2003\r", afterTarget := "\t", back := " \n" }
    let line := "\u3000iNcR\u2003\rhits\t-2 \n"
    AreWords ["iNcR", "hits", "-2"] line ∧ Understood line ["iNcR", "hits", "-2"] ∧
    IsTypable r .incr ∧ parse (s.line r) = .ok (.send r) ∧ parse line = .ok (.send r) ∧
    (∃ op, IsTypable r op ∧ Operation.parse? r.op = some op ∧
      ∀ (core : Core Nat) (sender : ConnectionId),
        core.request sender r = core.perform sender r.target r.arg op) ∧
    AreWords ["SET"] "SET\n" ∧ Understood "SET\n" ["SET"] ∧
    (InputError.missingNumber .set).IsFault ["SET"] ∧ parse "SET\n" = .error (.missingKey .set) := by
  intro r s line
  obtain ⟨-, hunderstood, htyped, hsent⟩ := typed_lines_understood (ρ := Nat)
  have hwords : AreWords ["iNcR", "hits", "-2"] line := Text.words_eq_iff.mp (by decide)
  have hbare : AreWords ["SET"] "SET\n" := Text.words_eq_iff.mp (by decide)
  have hparse : parse line = .ok (.send r) := by decide
  have hset : SameWord "SET" Operation.set.name := lowerCase_eq_name_iff.mp (by decide)
  have hfault : (InputError.missingNumber .set).IsFault ["SET"] :=
    ⟨⟨_, _, rfl, hset⟩, .inl rfl, by decide⟩
  have htypable : IsTypable r .incr := by
    refine ⟨rfl, by decide, by decide, fun number hnumber => ?_⟩
    obtain rfl := Option.some.inj hnumber
    decide
  exact ⟨hwords, hunderstood line _ hwords, htypable, htyped r _ htypable s, hparse,
    hsent line r hparse, hbare, hunderstood _ _ hbare, hfault, by decide⟩

end LockService.Terminal
