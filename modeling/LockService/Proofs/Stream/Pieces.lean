import LockService.Stream.Decoder

/-!
# Reading a stream in pieces

`Decoder.allFrom` says what a stream gives that is read from the beginning to its end;
`Decoder.next` and `Decoder.atEnd` are how it is read when it arrives in pieces.  The two agree
wherever the stream is cut.  Between two pieces the decoder has the beginning of a line, or a record
and the bytes behind it, and in both cases what is still to come is what `allFrom` gives from there.
-/

namespace LockService

namespace Decoder

variable {α : Type} [Record α]

/-- A piece without a complete record only lengthens the line at hand. -/
theorem allFrom_append_of_unfinished {line line' : Partial} {bytes : List UInt8}
    (h : (next line bytes : Decoded α) = .unfinished line') (more : List UInt8) :
    (allFrom line (bytes ++ more) : List (Except DecodeError α)) = allFrom line' more := by
  induction bytes generalizing line with
  | nil =>
      rw [next] at h
      cases h
      rfl
  | cons byte rest ih =>
      rw [next] at h
      rw [List.cons_append, allFrom]
      split at h
      · next hends =>
        rw [if_pos hends]
        split at h
        · cases h
        · exact ih h
      · next hends => rw [if_neg hends]; exact ih h

/-- A record that is found in a piece comes first, whatever follows the piece. -/
theorem allFrom_append_of_result {line : Partial} {bytes rest : List UInt8}
    {record : Except DecodeError α} (h : next line bytes = .result record rest)
    (more : List UInt8) :
    allFrom line (bytes ++ more) = record :: allFrom .empty (rest ++ more) := by
  induction bytes generalizing line with
  | nil => cases h
  | cons byte tail ih =>
      rw [next] at h
      rw [List.cons_append, allFrom]
      split at h
      · next hends =>
        rw [if_pos hends]
        split at h
        · cases h; rfl
        · exact ih h
      · next hends => rw [if_neg hends]; exact ih h

/-- At the end of a stream the line at hand is all there is. -/
theorem allFrom_nil (line : Partial) :
    (allFrom line [] : List (Except DecodeError α)) = (atEnd line).toList := rfl

end Decoder

end LockService
