import LockService.Proofs.Stream.Lines
import LockService.Proofs.Text.Cuts

/-!
# Streams cut into lines

What a stream gives can be said without going through it byte by byte.  First the stream is cut:
the first line goes to the first line feed, but has no more than one byte over what a line may have,
and it ends where the stream ends; the next line begins behind it.  Then every line is judged for
itself.

* `CutsInto` — a stream and its lines.  There is one way to cut it (`CutsInto.unique`,
  `exists_cutsInto`), and a line feed is always the end of a line (`CutsInto.append_feed`).
* `Judged` — what a line gives, by the text that its bytes spell.  `Decoder.judged_line?` says that
  the decoder judges so.
* `Decoder.first` — the first answer of a stream that is all there.  It is that of the first line
  that is not skipped, and the stream goes on with the next line (`Decoder.first_append`), so all
  answers are those of the lines (`Decoder.all_eq_filterMap`).
-/

namespace LockService

/-! ## Cutting -/

/-- Whether a stream that goes on with `rest` has `line` for its first line: there is no line feed
before the last byte, and the line ends there because this byte is one, because there is no place
for more, or because the stream ends. -/
def IsFirstLine (line rest : List UInt8) : Prop :=
  ∃ text last, line = text ++ [last] ∧ 0x0A ∉ text ∧ text.length ≤ maxLineBytes ∧
    (last = 0x0A ∨ text.length = maxLineBytes ∨ rest = [])

/-- A stream and the lines that it is cut into. -/
inductive CutsInto : List UInt8 → List (List UInt8) → Prop
  | nil : CutsInto [] []
  | cons {line rest lines} (h : IsFirstLine line rest) (more : CutsInto rest lines) :
      CutsInto (line ++ rest) (line :: lines)

theorem CutsInto.flatten_eq {bytes : List UInt8} {lines : List (List UInt8)}
    (h : CutsInto bytes lines) : lines.flatten = bytes := by
  induction h with
  | nil => rfl
  | cons _ _ ih => rw [List.flatten_cons, ih]

theorem IsFirstLine.ne_nil {line rest : List UInt8} (h : IsFirstLine line rest) : line ≠ [] := by
  obtain ⟨text, last, rfl, -⟩ := h
  simp

/-- A first line does not end where another first line of the same stream goes on. -/
theorem IsFirstLine.isPrefix {line rest line' rest' : List UInt8} (h : IsFirstLine line rest)
    (h' : IsFirstLine line' rest') (heq : line ++ rest = line' ++ rest') : line' <+: line := by
  obtain ⟨between, rfl, -⟩ | ⟨between, rfl, hrest⟩ := List.append_eq_append_iff.mp heq.symm
  · exact List.prefix_append ..
  obtain ⟨text, last, rfl, -, -, hends⟩ := h
  obtain ⟨text', last', htext', hfeed', hsize', -⟩ := h'
  rcases List.eq_nil_or_concat between with rfl | ⟨between, byte, rfl⟩
  · simp
  -- the last byte of the one is inside the other, where nothing ends a line
  rw [List.concat_eq_append, ← List.append_assoc] at htext'
  obtain rfl := (List.append_inj' htext' rfl).1
  simp only [List.append_assoc, List.length_append, List.length_singleton] at hsize'
  rcases hends with rfl | hfull | rfl
  · exact absurd (by simp) hfeed'
  · omega
  · simp at hrest

/-- **There is one way to cut a stream.** -/
theorem CutsInto.unique {bytes : List UInt8} {lines lines' : List (List UInt8)}
    (h : CutsInto bytes lines) (h' : CutsInto bytes lines') : lines = lines' := by
  induction h generalizing lines' with
  | nil =>
      generalize hbytes : ([] : List UInt8) = bytes at h'
      cases h' with
      | nil => rfl
      | cons hline _ => exact absurd (List.append_eq_nil_iff.mp hbytes.symm).1 hline.ne_nil
  | @cons line rest lines hline _ ih =>
      generalize hbytes : line ++ rest = bytes at h'
      cases h' with
      | nil => exact absurd (List.append_eq_nil_iff.mp hbytes).1 hline.ne_nil
      | @cons line' rest' lines' hline' hmore' =>
          have hle := (hline.isPrefix hline' hbytes).length_le
          obtain rfl : line = line' :=
            (hline'.isPrefix hline hbytes.symm).eq_of_length_le hle
          obtain rfl : rest = rest' := List.append_cancel_left hbytes
          rw [ih hmore']

/-- A stream that is not empty has a first line. -/
theorem exists_isFirstLine {bytes : List UInt8} (h : bytes ≠ []) :
    ∃ line rest, bytes = line ++ rest ∧ IsFirstLine line rest := by
  -- the line is found behind `text`, which holds no line feed and is not too long
  suffices hfind : ∀ text : List UInt8, 0x0A ∉ text → text.length ≤ maxLineBytes →
      ∃ line rest, text ++ bytes = line ++ rest ∧ IsFirstLine line rest from
    hfind [] List.not_mem_nil (Nat.zero_le _)
  induction bytes with
  | nil => exact absurd rfl h
  | cons byte bytes ih =>
      intro text htext hsize
      by_cases hends : byte = 0x0A ∨ text.length = maxLineBytes ∨ bytes = []
      · exact ⟨text ++ [byte], bytes, by simp, text, byte, rfl, htext, hsize, hends⟩
      · rw [not_or, not_or] at hends
        obtain ⟨line, rest, heq, hline⟩ := ih hends.2.2 (text ++ [byte])
          (by simpa [htext] using Ne.symm hends.1)
          (by rw [List.length_append, List.length_singleton]; omega)
        exact ⟨line, rest, by simpa using heq, hline⟩

theorem exists_cutsInto (bytes : List UInt8) : ∃ lines, CutsInto bytes lines := by
  induction hlength : bytes.length using Nat.strongRecOn generalizing bytes with
  | ind length ih =>
      by_cases hbytes : bytes = []
      · exact ⟨[], hbytes ▸ .nil⟩
      · obtain ⟨line, rest, rfl, hline⟩ := exists_isFirstLine hbytes
        have hshorter : rest.length < length := by
          have hpos := List.length_pos_iff.mpr hline.ne_nil
          rw [List.length_append] at hlength
          omega
        obtain ⟨lines, hlines⟩ := ih rest.length hshorter rest rfl
        exact ⟨line :: lines, .cons hline hlines⟩

/-- **Behind a line feed a new line begins**, whatever comes before it. -/
theorem CutsInto.append_feed {bytes more : List UInt8} {lines moreLines : List (List UInt8)}
    (h : CutsInto bytes lines) (hfeed : bytes.getLast? = some 0x0A)
    (hmore : CutsInto more moreLines) : CutsInto (bytes ++ more) (lines ++ moreLines) := by
  induction h with
  | nil => cases hfeed
  | @cons line rest lines hline hrest ih =>
      rw [List.append_assoc, List.cons_append]
      by_cases hlast : rest = []
      · subst hlast
        obtain ⟨text, last, rfl, htext, hsize, -⟩ := hline
        obtain rfl : last = 0x0A := by simpa using hfeed
        obtain rfl := hrest.unique .nil
        exact .cons ⟨text, _, rfl, htext, hsize, .inl rfl⟩ hmore
      · obtain ⟨text, last, rfl, htext, hsize, hends⟩ := hline
        refine .cons ⟨text, last, rfl, htext, hsize, hends.imp_right (.imp_right ?_)⟩
          (ih (by rwa [List.getLast?_append_of_ne_nil _ hlast] at hfeed))
        exact fun h => absurd h hlast

/-! ## Judging -/

variable {α : Type} [Record α]

/-- What a line gives: an error if its bytes spell no text, or else if they are more than a line may
have; nothing if the text is white space; and otherwise the record that the text is, or an error if
it is none. -/
inductive Judged : List UInt8 → Option (Except DecodeError α) → Prop
  | notText {line} (h : ∀ text, Utf8.encode text ≠ line) : Judged line (some (.error .notText))
  | tooLong {text} (h : maxLineBytes < (Utf8.encode text).length) :
      Judged (Utf8.encode text) (some (.error .tooLong))
  | blank {text} (hfits : (Utf8.encode text).length ≤ maxLineBytes)
      (h : ∀ c ∈ text.toList, Text.isBlank c = true) : Judged (Utf8.encode text) none
  | record {text record} (hfits : (Utf8.encode text).length ≤ maxLineBytes)
      (hblank : ∃ c ∈ text.toList, Text.isBlank c = false)
      (h : (Json.Value.parse? text).bind Record.ofJson? = some record) :
      Judged (Utf8.encode text) (some (.ok record))
  | notRecord {text} (hfits : (Utf8.encode text).length ≤ maxLineBytes)
      (hblank : ∃ c ∈ text.toList, Text.isBlank c = false)
      (h : (Json.Value.parse? text).bind (Record.ofJson? (α := α)) = none) :
      Judged (Utf8.encode text) (some (.error .notRecord))

namespace Decoder

theorem judged_line? (line : List UInt8) :
    Judged line (line? line : Option (Except DecodeError α)) := by
  unfold line?
  cases htext : Utf8.decode? line with
  | none =>
      refine .notText fun text heq => ?_
      rw [← heq, Utf8.decode?_encode] at htext
      cases htext
  | some text =>
      obtain rfl := Utf8.decode?_eq_some_iff.mp htext
      dsimp only
      split
      · next hlong => exact .tooLong hlong
      · next hfits =>
        rw [Nat.not_lt] at hfits
        split
        · next hblank => exact .blank hfits (List.all_eq_true.mp hblank)
        · next hblank =>
          rw [Bool.not_eq_true, List.all_eq_false] at hblank
          simp only [Bool.not_eq_true] at hblank
          split
          · next h => exact .record hfits hblank h
          · next h => exact .notRecord hfits hblank h

/-! ## The first answer -/

/-- The first answer of a stream that goes on from the beginning of a line and is all there, and the
bytes behind it.  There is no answer if all that is left is to be skipped. -/
def first (line : Partial) (bytes : List UInt8) : Option (Except DecodeError α) × List UInt8 :=
  match next line bytes with
  | .result record rest => (some record, rest)
  | .unfinished line => (atEnd line, [])

theorem first_nil : (first .empty [] : Option (Except DecodeError α) × List UInt8) = (none, []) :=
  rfl

/-- **The first line is judged, and skipped if it gives nothing.** -/
theorem first_append {line rest : List UInt8} (h : IsFirstLine line rest) :
    first .empty (line ++ rest)
      = match (line? line : Option (Except DecodeError α)) with
        | some record => (some record, rest)
        | none => first .empty rest := by
  obtain ⟨text, last, rfl, htext, hsize, hends⟩ := h
  have hempty : Partial.empty.size + text.length = text.length := Nat.zero_add _
  by_cases hlast : last = 0x0A ∨ text.length = maxLineBytes
  · have hroom : Partial.empty.size + text.length ≤ maxLineBytes := by omega
    have hnext := next_of_end (α := α) htext hroom (hlast.imp_right hempty.trans) rest
    rw [Partial.toList_empty, List.nil_append] at hnext
    rw [first, List.append_assoc, List.singleton_append, hnext]
    cases (line? (text ++ [last]) : Option (Except DecodeError α)) <;> rfl
  · -- a line that only the end of the stream ends
    rw [not_or] at hlast
    obtain rfl : rest = [] := (hends.resolve_left hlast.1).resolve_left hlast.2
    have hnext : (next .empty (text ++ [last]) : Decoded α)
        = .unfinished (Partial.empty.append (text ++ [last])) := by
      refine next_of_no_feed (by simpa [htext] using Ne.symm hlast.1) ?_
      rw [List.length_append, List.length_singleton, ← Nat.add_assoc, hempty]
      omega
    rw [List.append_nil, first, hnext, first_nil]
    simp only [atEnd, List.isEmpty_iff, Partial.bytes_eq_nil_iff, Partial.toList_append,
      Partial.toList_empty, List.nil_append]
    rw [if_neg (by simp)]
    cases (line? (text ++ [last]) : Option (Except DecodeError α)) <;> rfl

/-- Everything that a stream gives is what it gives first, and what is behind that. -/
theorem all_eq_first (bytes : List UInt8) :
    (all bytes : List (Except DecodeError α))
      = match (first .empty bytes : Option (Except DecodeError α) × List UInt8) with
        | (some record, rest) => record :: all rest
        | (none, _) => [] := by
  rw [first]
  cases hnext : (next .empty bytes : Decoded α) with
  | result record rest =>
      have hall := allFrom_append_of_result hnext []
      rwa [List.append_nil, List.append_nil] at hall
  | unfinished line =>
      have hall := allFrom_append_of_unfinished hnext []
      rw [List.append_nil, allFrom_nil] at hall
      rw [all, hall]
      dsimp only
      cases (atEnd line : Option (Except DecodeError α)) <;> rfl

/-- Everything that a stream gives is what its lines give. -/
theorem all_eq_filterMap {bytes : List UInt8} {lines : List (List UInt8)}
    (h : CutsInto bytes lines) :
    (all bytes : List (Except DecodeError α)) = lines.filterMap line? := by
  induction h with
  | nil => rfl
  | cons hline _ ih =>
      rw [List.filterMap_cons, ← ih, all_eq_first, first_append hline]
      cases (line? _ : Option (Except DecodeError α)) with
      | none => exact (all_eq_first _).symm
      | some record => rfl

end Decoder

end LockService
