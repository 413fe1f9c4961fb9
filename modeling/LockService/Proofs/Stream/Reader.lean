import LockService.Proofs.Stream.Cutting

/-!
# Calling for the next record

Whoever reads a stream calls for one record after the other until there is none.  A `Reader` is what
is between two calls: the bytes that came with the last piece and were not needed, and the pieces
still to come.  A call goes on over as many pieces as it needs (`Reader.callFrom`), with the decoder
at work inside each of them.

* `Reader.first_call` — what a call answers, and what it leaves of the stream, does not depend on
  where the stream is cut into pieces.
* `Reader.Calls` — calls until there is no record any more, each with its answer and what it left.
* **`Reader.calls_eq_judged_lines`** — the answers are those of the lines, one by one.
-/

namespace LockService

/-- A stream that is being read: bytes that are there already, and pieces that will come. -/
structure Reader where
  buffered : List UInt8 := []
  coming : List (List UInt8) := []
deriving Repr

namespace Reader

/-- The bytes of the stream that no call has taken yet. -/
def left (reader : Reader) : List UInt8 :=
  reader.buffered ++ reader.coming.flatten

variable {α : Type} [Record α]

/-- A call that has the beginning of a line.  It reads on in the bytes that are there, and where they
end it waits for the next piece.  Where the stream ends it makes do with what it has. -/
def callFrom (line : Partial) (buffered : List UInt8) :
    List (List UInt8) → Option (Except DecodeError α) × Reader
  | [] =>
    match Decoder.next line buffered with
    | .result record rest => (some record, { buffered := rest })
    | .unfinished line => (Decoder.atEnd line, {})
  | piece :: coming =>
    match Decoder.next line buffered with
    | .result record rest => (some record, { buffered := rest, coming := piece :: coming })
    | .unfinished line => callFrom line piece coming

/-- A call for the next record. -/
def call (reader : Reader) : Option (Except DecodeError α) × Reader :=
  callFrom .empty reader.buffered reader.coming

/-- Calls until one has no answer: each answer, and what was left of the stream after it. -/
inductive Calls : Reader → List (Option (Except DecodeError α) × List UInt8) → Prop
  | last {reader : Reader} (h : (reader.call (α := α)).1 = none) :
      Calls reader [(none, (reader.call (α := α)).2.left)]
  | more {reader : Reader} {record : Except DecodeError α} {calls}
      (h : (reader.call (α := α)).1 = some record) (rest : Calls (reader.call (α := α)).2 calls) :
      Calls reader ((some record, (reader.call (α := α)).2.left) :: calls)

/-- What the calls have answered. -/
def results (calls : List (Option (Except DecodeError α) × List UInt8)) :
    List (Except DecodeError α) :=
  calls.filterMap (·.1)

/-- The answers of lines that are judged one after the other, each with what is behind its line, and
at last that there is no more. -/
def answers : List (List UInt8) → List (Option (Except DecodeError α) × List UInt8)
  | [] => [(none, [])]
  | line :: lines =>
    match Decoder.line? line with
    | some record => (some record, lines.flatten) :: answers lines
    | none => answers lines

/-! ## Pieces -/

/-- A further piece does not change what was found before it. -/
theorem next_append (line : Partial) (bytes more : List UInt8) :
    (Decoder.next line (bytes ++ more) : Decoded α)
      = match (Decoder.next line bytes : Decoded α) with
        | .result record rest => .result record (rest ++ more)
        | .unfinished line => Decoder.next line more := by
  induction bytes generalizing line with
  | nil => rw [List.nil_append, Decoder.next]
  | cons byte bytes ih =>
      rw [List.cons_append, Decoder.next, Decoder.next]
      split
      · cases (Decoder.line? (line.push byte).toList : Option (Except DecodeError α)) with
        | some record => rfl
        | none => exact ih _
      · exact ih _

/-- A call answers what the stream gives first, in how many pieces it may come, and leaves what is
behind. -/
theorem first_callFrom (line : Partial) (buffered : List UInt8) (coming : List (List UInt8)) :
    ((callFrom line buffered coming : Option (Except DecodeError α) × Reader).1,
        (callFrom (α := α) line buffered coming).2.left)
      = Decoder.first line (buffered ++ coming.flatten) := by
  induction coming generalizing line buffered with
  | nil =>
      rw [List.flatten_nil, List.append_nil, callFrom, Decoder.first]
      cases (Decoder.next line buffered : Decoded α) with
      | result record rest => simp [left]
      | unfinished line => rfl
  | cons piece coming ih =>
      rw [List.flatten_cons, callFrom, Decoder.first, next_append]
      cases (Decoder.next line buffered : Decoded α) with
      | result record rest => simp [left]
      | unfinished line => exact ih line piece

theorem first_call (reader : Reader) :
    ((reader.call : Option (Except DecodeError α) × Reader).1, (reader.call (α := α)).2.left)
      = Decoder.first .empty reader.left :=
  first_callFrom .empty reader.buffered reader.coming

/-! ## Calls -/

/-- There is only one way to go on calling. -/
theorem Calls.unique {reader : Reader}
    {calls calls' : List (Option (Except DecodeError α) × List UInt8)} (h : reader.Calls calls)
    (h' : reader.Calls calls') : calls = calls' := by
  induction h generalizing calls' with
  | last hnone =>
      cases h' with
      | last _ => rfl
      | more hsome _ => exact absurd (hnone.symm.trans hsome) nofun
  | more hsome _ ih =>
      cases h' with
      | last hnone => exact absurd (hnone.symm.trans hsome) nofun
      | more hsome' hrest =>
          obtain rfl := Option.some.inj (hsome.symm.trans hsome')
          rw [ih hrest]

/-- A stream that is cut into lines answers as they do.  The lines that are skipped are still to be
read by the next call, so the reader may stand before them. -/
theorem calls_of_cutsInto {bytes : List UInt8} {lines : List (List UInt8)}
    (h : CutsInto bytes lines) {reader : Reader} (hreader : (Decoder.first .empty reader.left
      : Option (Except DecodeError α) × List UInt8) = Decoder.first .empty bytes) :
    reader.Calls (answers (α := α) lines) := by
  induction h generalizing reader with
  | nil =>
      rw [← first_call, Decoder.first_nil, Prod.mk.injEq] at hreader
      have hcalls := Calls.last hreader.1
      rwa [hreader.2] at hcalls
  | @cons line rest lines hline hrest ih =>
      rw [Decoder.first_append hline] at hreader
      rw [answers]
      cases hjudged : (Decoder.line? line : Option (Except DecodeError α)) with
      | none =>
          rw [hjudged] at hreader
          exact ih hreader
      | some record =>
          rw [hjudged, ← first_call, Prod.mk.injEq] at hreader
          have hcalls := Calls.more hreader.1 (ih (by rw [hreader.2]))
          rwa [hreader.2, ← hrest.flatten_eq] at hcalls

theorem calls_iff {pieces lines : List (List UInt8)} (h : CutsInto pieces.flatten lines)
    {calls : List (Option (Except DecodeError α) × List UInt8)} :
    Calls { coming := pieces } calls ↔ calls = answers lines := by
  have hcalls : Calls { coming := pieces } (answers (α := α) lines) := calls_of_cutsInto h rfl
  exact ⟨fun hother => hother.unique hcalls, fun heq => heq ▸ hcalls⟩

theorem results_answers (lines : List (List UInt8)) :
    results (answers (α := α) lines) = lines.filterMap Decoder.line? := by
  induction lines with
  | nil => rfl
  | cons line lines ih =>
      rw [answers, List.filterMap_cons]
      cases (Decoder.line? line : Option (Except DecodeError α)) with
      | none => exact ih
      | some record => exact congrArg (record :: ·) ih

/-- **Reading is judging lines.**  In whatever pieces a stream comes, there is one way to cut it into
lines, which together are all of it, and calling for records until there is none comes to an end and
answers what the lines give:

* each line is judged by its bytes alone, and a line that is too long is called so;
* each call takes the lines that are skipped and one more, so what it leaves is what is behind, and
  the last one leaves nothing;
* all answers together are what the decoder makes of the whole stream at once;
* where the stream has a line feed, what is behind it is read as if it were a stream of its own, in
  whatever pieces that one comes. -/
theorem calls_eq_judged_lines (pieces : List (List UInt8)) :
    ∃ lines : List (List UInt8),
      (∀ other, CutsInto pieces.flatten other ↔ other = lines) ∧
      lines.flatten = pieces.flatten ∧
      (∀ line ∈ lines, Judged line (Decoder.line? line : Option (Except DecodeError α))) ∧
      DecodeError.tooLong.message? = some "record longer than 65536 bytes" ∧
      (∀ calls : List (Option (Except DecodeError α) × List UInt8),
        Calls { coming := pieces } calls ↔ calls = answers lines) ∧
      results (answers (α := α) lines) = lines.filterMap Decoder.line? ∧
      Decoder.all pieces.flatten = results (answers (α := α) lines) ∧
      ∀ (before after : List (List UInt8))
        (earlier later : List (Option (Except DecodeError α) × List UInt8)),
        before.flatten.getLast? = some 0x0A → before.flatten ++ after.flatten = pieces.flatten →
        Calls { coming := before } earlier → Calls { coming := after } later →
          results (answers (α := α) lines) = results earlier ++ results later := by
  obtain ⟨lines, hlines⟩ := exists_cutsInto pieces.flatten
  refine ⟨lines, fun other => ⟨fun h => h.unique hlines, fun h => h ▸ hlines⟩, hlines.flatten_eq,
    fun line _ => Decoder.judged_line? line, rfl, fun calls => calls_iff hlines,
    results_answers lines, (Decoder.all_eq_filterMap hlines).trans (results_answers lines).symm, ?_⟩
  intro before after earlier later hfeed hpieces hearlier hlater
  obtain ⟨beforeLines, hbefore⟩ := exists_cutsInto before.flatten
  obtain ⟨afterLines, hafter⟩ := exists_cutsInto after.flatten
  have hwhole := hbefore.append_feed hfeed hafter
  rw [hpieces] at hwhole
  obtain rfl := hwhole.unique hlines
  rw [(calls_iff hbefore).mp hearlier, (calls_iff hafter).mp hlater, results_answers,
    results_answers, results_answers, List.filterMap_append]

end Reader

end LockService
