import LockService.Proofs.Core.Counting
import LockService.Proofs.Text.Canonical

/-!
# Numbers in requests and replies

A client sends a number as a text and is told the number as a text, and the two need not be the same.
What is told is the canonical numeral of what was sent; sending that instead changes nothing.

* `Counters.argument?_some_eq_ok_iff` — which texts are read, and as which number.
* `Counter.denotes_text_iff` — what is told of a number.
* `Core.handle_of_set` — a counter that was set reads as it was set.
* **`Core.told_canonically`** — the two together, for every counter of every core.
-/

namespace LockService

open Std (TreeMap)

/-- The numbers that a counter can hold. -/
theorem Counter.exists_val_eq_iff {n : Int} :
    (∃ c : Counter, c.val = n) ↔ -2 ^ 63 ≤ n ∧ n ≤ 2 ^ 63 - 1 := by
  constructor
  · rintro ⟨c, rfl⟩
    have hrange := c.isInRange
    exact ⟨by omega, by omega⟩
  · rintro ⟨hlow, hhigh⟩
    exact ⟨⟨n, by omega, by omega⟩, rfl⟩

/-- The canonical numeral of a number is its text, and no other text is. -/
theorem Counter.denotes_text_iff {text : String} {n : Counter} :
    Decimal.IsCanonical text.toList ∧ Decimal.Denotes text.toList n.val ↔ text = n.text := by
  rw [Decimal.canonical_iff, Counter.text]
  exact ⟨fun h => by rw [← h, String.ofList_toList], fun h => by rw [h, String.toList_ofList]⟩

namespace Counters

/-- **Which texts are read as numbers**: numerals of numbers that a counter can hold. -/
theorem argument?_some_eq_ok_iff {text : String} {n : Int} :
    (∃ c, argument? (some text) = .ok c ∧ c.val = n)
      ↔ Decimal.Denotes text.toList n ∧ -2 ^ 63 ≤ n ∧ n ≤ 2 ^ 63 - 1 := by
  simp only [argument?_eq_ok_iff, Says, Option.some.injEq, exists_eq_left',
    ← Counter.exists_val_eq_iff]
  constructor
  · rintro ⟨c, hc, rfl⟩
    exact ⟨hc, c, rfl⟩
  · rintro ⟨hn, c, rfl⟩
    exact ⟨c, hn, rfl⟩

/-- What is told of a number is read as that number. -/
theorem argument?_text (n : Counter) : argument? (some n.text) = .ok n :=
  argument?_eq_ok_iff.mpr ⟨n.text, rfl, (Counter.denotes_text_iff.mpr rfl).2⟩

end Counters

namespace Core

variable {ρ : Type}

/-- A counter that is set to the number in an argument reads as that number, and everybody is reached as
before. -/
theorem handle_of_set (core : Core ρ) (sender : ConnectionId) (name : String) {arg : Option String}
    {n : Counter} (harg : Counters.argument? arg = .ok n) :
    (core.handle ⟨sender, .request (.ofOperation .set name arg)⟩).2.counters.value name = n ∧
    (core.handle ⟨sender, .request (.ofOperation .set name arg)⟩).2.repliers = core.repliers := by
  have hset : core.counters.set name arg = .ok (core.counters.insert name n) := by
    rw [Counters.set, harg]
  have hrequest : core.request sender (.ofOperation .set name arg)
      = (core.reply sender .ok, { core with counters := core.counters.insert name n }) := by
    simp only [request, Request.ofOperation, Operation.parse?_name, perform, hset]
  constructor
  · show (core.request sender (.ofOperation .set name arg)).2.counters.value name = n
    rw [hrequest]
    simp [Counters.value]
  · show (core.request sender (.ofOperation .set name arg)).2.repliers = core.repliers
    rw [hrequest]

/-- Whoever asks for a counter is told the text of what it reads as. -/
theorem handle_of_get (core : Core ρ) (reader : ConnectionId) (name : String) (arg : Option String) :
    (core.handle ⟨reader, .request (.ofOperation .get name arg)⟩).1
      = core.repliers[reader]?.toList.map fun replier =>
        ⟨reader, replier, .reply ⟨.ok, none, some (core.counters.value name).text⟩⟩ := by
  rw [handle_fst_of_get core rfl rfl, reply_ofCounter_eq, Counter.text_eq_toString]
  rfl

/-- **Numbers are read exactly and told canonically.**

* A text is read as a number if it consists of at most one sign and at least one digit, of which any
  number may be leading zeros, and if the number that these digits say is in the range of 64 bits.  Every
  other text is refused, and so is an argument that is not there, which reads as the empty text.
* Every number `n` of the range has one canonical numeral `t`: no plus sign, no leading zeros, no minus
  sign in front of zero.  It is read as `n` again.
* Whoever sets a counter by any numeral of `n`, and whoever then asks for it: `t` is told.  To set the
  counter to `t` changes nothing about that. -/
theorem told_canonically (core : Core ρ) (name : String) :
    (∀ (text : String) (n : Int), (∃ c, Counters.argument? (some text) = .ok c ∧ c.val = n) ↔
      (∃ sign ∈ Decimal.signs, ∃ digits, text.toList = sign.1 ++ digits ∧ digits ≠ [] ∧
        (∀ c ∈ digits, '0' ≤ c ∧ c ≤ '9') ∧ n = sign.2 * Decimal.positional digits) ∧
      -2 ^ 63 ≤ n ∧ n ≤ 2 ^ 63 - 1) ∧
    (∀ arg, (∀ c, Counters.argument? arg ≠ .ok c) →
      Counters.argument? arg = .error .invalidNumber) ∧
    Counters.argument? none = Counters.argument? (some "") ∧
    (∀ c, Counters.argument? none ≠ .ok c) ∧
    ∀ n : Counter, ∃ t : String,
      (∀ text : String, Decimal.IsCanonical text.toList ∧ Decimal.Denotes text.toList n.val
        ↔ text = t) ∧
      Counters.argument? (some t) = .ok n ∧
      ∀ text, Counters.argument? (some text) = .ok n →
        ∀ (setter resetter reader : ConnectionId) (arg : Option String),
          let once := (core.handle ⟨setter, .request (.ofOperation .set name (some text))⟩).2
          let twice := (once.handle ⟨resetter, .request (.ofOperation .set name (some t))⟩).2
          let told := core.repliers[reader]?.toList.map fun replier =>
            ⟨reader, replier, .reply ⟨.ok, none, some t⟩⟩
          (once.handle ⟨reader, .request (.ofOperation .get name arg)⟩).1 = told ∧
          (twice.handle ⟨reader, .request (.ofOperation .get name arg)⟩).1 = told := by
  refine ⟨?_, ?_, rfl, ?_, ?_⟩
  · intro text n
    rw [Counters.argument?_some_eq_ok_iff, Decimal.denotes_iff]
  · intro arg hnone
    rw [Counters.argument?_eq_error_iff]
    exact ⟨rfl, fun n hsays => hnone n (Counters.argument?_eq_ok_iff.mpr hsays)⟩
  · rintro c hc
    obtain ⟨text, htext, -⟩ := Counters.argument?_eq_ok_iff.mp hc
    cases htext
  · intro n
    refine ⟨n.text, fun text => Counter.denotes_text_iff, Counters.argument?_text n, ?_⟩
    intro text htext setter resetter reader arg once twice told
    obtain ⟨honce, hreached⟩ := core.handle_of_set setter name htext
    obtain ⟨htwice, hreached'⟩ := once.handle_of_set resetter name (Counters.argument?_text n)
    constructor
    · rw [handle_of_get, honce, hreached]
    · rw [handle_of_get, htwice, hreached', hreached]

/-- For instance the lowest number, whose positive counterpart is out of range, sent with leading zeros
and told without them. -/
theorem told_canonically_lowest :
    let lowest : Counter := ⟨-2 ^ 63, by decide⟩
    let core : Core Nat := (Core.empty.handle ⟨⟨1⟩, .opening 0⟩).2
    let set (text : String) : Envelope Nat := ⟨⟨1⟩, .request (.ofOperation .set "n" (some text))⟩
    let get : Envelope Nat := ⟨⟨1⟩, .request (.ofOperation .get "n" none)⟩
    let told : List (Delivery Nat) :=
      [⟨⟨1⟩, 0, .reply ⟨.ok, none, some "-9223372036854775808"⟩⟩]
    Counters.argument? (some "-009223372036854775808") = .ok lowest ∧
    Counters.argument? (some "9223372036854775808") = .error .invalidNumber ∧
    ((core.handle (set "-009223372036854775808")).2.handle get).1 = told ∧
    (((core.handle (set "-009223372036854775808")).2.handle (set "-9223372036854775808")).2.handle
      get).1 = told := by
  intro lowest core set get told
  obtain ⟨-, hrefused, -, -, hnumbers⟩ := core.told_canonically "n"
  obtain ⟨t, hcanonical, -, hset⟩ := hnumbers lowest
  have hdigits : ∀ c ∈ "9223372036854775808".toList, c.isDigit = true :=
    List.all_eq_true.mp (by decide)
  have ht : "-9223372036854775808" = t :=
    (hcanonical _).mp ⟨.negative ⟨by decide, hdigits, by decide⟩,
      Decimal.signed?_eq_some_iff.mp (by decide)⟩
  have hread : Counters.argument? (some "-009223372036854775808") = .ok lowest := by decide
  obtain ⟨honce, htwice⟩ := hset _ hread ⟨1⟩ ⟨1⟩ ⟨1⟩ none
  subst ht
  exact ⟨hread, by decide, honce, htwice⟩

end Core

end LockService
