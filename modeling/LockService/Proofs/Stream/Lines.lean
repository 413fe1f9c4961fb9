import Mathlib.Data.List.Basic
import LockService.Proofs.Stream.Pieces

/-!
# Reading lines

The decoder goes through a stream byte by byte.  Most streams are lines, each with one line feed at
its end and no longer than allowed, and then nothing depends on single bytes: up to the line feed
the decoder only gathers (`Decoder.next_of_no_feed`), and at the line feed it judges the line as a
whole (`Decoder.next_of_feed`).  So a stream that begins with a line gives what the line gives and
then what the rest gives (`Decoder.allFrom_line`), and one that ends inside a line gives what that
part of the line gives (`Decoder.allFrom_part`).
-/

namespace LockService

/-- Whether bytes are one line: they end with the only line feed among them, and are no more than a
line may have. -/
def IsLine (bytes : List UInt8) : Prop :=
  ∃ text, bytes = text ++ [0x0A] ∧ 0x0A ∉ text ∧ text.length < maxLineBytes

/-- What begins a stream and holds no line feed is within its first line. -/
theorem isPrefix_of_append_eq {bytes more text rest : List UInt8} (hbytes : 0x0A ∉ bytes)
    (h : bytes ++ more = text ++ 0x0A :: rest) : bytes <+: text := by
  rcases List.append_eq_append_iff.mp h with ⟨between, rfl, -⟩ | ⟨between, rfl, hbetween⟩
  · exact List.prefix_append ..
  · cases between with
    | nil => simp
    | cons byte between =>
        obtain ⟨rfl, -⟩ := List.cons.inj hbetween
        simp at hbytes

/-- The first line of a stream ends at one place only. -/
theorem append_feed_inj {text text' rest rest' : List UInt8} (htext : 0x0A ∉ text)
    (htext' : 0x0A ∉ text') (h : text ++ 0x0A :: rest = text' ++ 0x0A :: rest') :
    text = text' ∧ rest = rest' := by
  obtain rfl : text = text' := by
    refine (isPrefix_of_append_eq htext h).eq_of_length_le ?_
    exact (isPrefix_of_append_eq htext' h.symm).length_le
  exact ⟨rfl, (List.cons.inj (List.append_cancel_left h)).2⟩

namespace Partial

theorem toList_push (p : Partial) (byte : UInt8) : (p.push byte).toList = p.toList ++ [byte] := by
  simp [toList, push]

@[simp] theorem toList_empty : empty.toList = [] := rfl

/-- The beginning of a line with more bytes of it. -/
def append (p : Partial) (bytes : List UInt8) : Partial :=
  bytes.foldl push p

@[simp] theorem toList_append (p : Partial) (bytes : List UInt8) :
    (p.append bytes).toList = p.toList ++ bytes := by
  induction bytes generalizing p with
  | nil => simp [append]
  | cons byte rest ih =>
      show ((p.push byte).append rest).toList = _
      rw [ih, toList_push, List.append_assoc, List.singleton_append]

theorem length_toList (p : Partial) : p.toList.length = p.size := by
  rw [toList, List.length_reverse, p.size_eq]

theorem bytes_eq_nil_iff {p : Partial} : p.bytes = [] ↔ p.toList = [] := by
  simp [toList]

end Partial

namespace Decoder

variable {α : Type} [Record α]

/-- One byte inside a line. -/
theorem next_of_inside {line : Partial} {byte : UInt8} (hbyte : byte ≠ 0x0A)
    (hsize : line.size < maxLineBytes) (rest : List UInt8) :
    (next line (byte :: rest) : Decoded α) = next (line.push byte) rest := by
  rw [next, if_neg]
  simpa [Partial.endsWith, hbyte] using hsize

/-- **Inside a line** the decoder gathers what comes. -/
theorem next_of_no_feed {line : Partial} {bytes : List UInt8} (hbytes : 0x0A ∉ bytes)
    (hsize : line.size + bytes.length ≤ maxLineBytes) :
    (next line bytes : Decoded α) = .unfinished (line.append bytes) := by
  induction bytes generalizing line with
  | nil => rw [next]; rfl
  | cons byte rest ih =>
      rw [List.mem_cons, not_or] at hbytes
      rw [List.length_cons] at hsize
      rw [next_of_inside (Ne.symm hbytes.1) (by omega)]
      refine ih hbytes.2 ?_
      show line.size + 1 + rest.length ≤ maxLineBytes
      omega

/-- **At the end of a line**, which is a line feed or the last byte that a line has place for, it
judges the line. -/
theorem next_of_end {line : Partial} {text : List UInt8} {last : UInt8} (htext : 0x0A ∉ text)
    (hsize : line.size + text.length ≤ maxLineBytes)
    (hlast : last = 0x0A ∨ line.size + text.length = maxLineBytes) (rest : List UInt8) :
    (next line (text ++ last :: rest) : Decoded α)
      = match line? (line.toList ++ text ++ [last]) with
        | some record => .result record rest
        | none => next .empty rest := by
  induction text generalizing line with
  | nil =>
      have hline : line.toList ++ [] ++ [last] = (line.push last).toList := by
        rw [Partial.toList_push, List.append_nil]
      have hends : line.endsWith last = true := by
        rw [List.length_nil, Nat.add_zero] at hlast
        simpa [Partial.endsWith] using hlast.imp_right fun hfull => Nat.le_of_eq hfull.symm
      rw [hline]
      exact if_pos hends
  | cons byte text ih =>
      rw [List.mem_cons, not_or] at htext
      rw [List.length_cons] at hsize hlast
      have hpush : (line.push byte).size = line.size + 1 := rfl
      rw [List.cons_append, next_of_inside (Ne.symm htext.1) (by omega),
        ih htext.2 (by omega) (hlast.imp_right fun hfull => by omega), Partial.toList_push,
        List.append_assoc line.toList, List.singleton_append]

/-- In particular at a line feed. -/
theorem next_of_feed {line : Partial} {text : List UInt8} (htext : 0x0A ∉ text)
    (hsize : line.size + text.length ≤ maxLineBytes) (rest : List UInt8) :
    (next line (text ++ 0x0A :: rest) : Decoded α)
      = match line? (line.toList ++ text ++ [0x0A]) with
        | some record => .result record rest
        | none => next .empty rest :=
  next_of_end htext hsize (.inl rfl) rest

/-- A stream that begins with a line. -/
theorem allFrom_line {bytes : List UInt8} (h : IsLine bytes) {record : Except DecodeError α}
    (hrecord : line? bytes = some record) (rest : List UInt8) :
    allFrom .empty (bytes ++ rest) = record :: allFrom .empty rest := by
  obtain ⟨text, rfl, htext, hsize⟩ := h
  have hnext : (next .empty (text ++ [0x0A]) : Decoded α) = .result record [] := by
    have hbound : Partial.empty.size + text.length ≤ maxLineBytes := by
      simpa [Partial.empty] using Nat.le_of_lt hsize
    rw [next_of_feed htext hbound, Partial.toList_empty, List.nil_append, hrecord]
  rw [allFrom_append_of_result hnext, List.nil_append]

/-- A stream that ends inside a line. -/
theorem allFrom_part {bytes : List UInt8} (hbytes : 0x0A ∉ bytes)
    (hsize : bytes.length ≤ maxLineBytes) :
    (allFrom .empty bytes : List (Except DecodeError α))
      = if bytes = [] then [] else (line? bytes).toList := by
  have hnext : (next .empty bytes : Decoded α) = .unfinished (Partial.empty.append bytes) :=
    next_of_no_feed hbytes (by simpa [Partial.empty] using hsize)
  have hall := allFrom_append_of_unfinished hnext []
  rw [List.append_nil] at hall
  rw [hall, allFrom_nil, atEnd]
  simp only [List.isEmpty_iff, Partial.bytes_eq_nil_iff, Partial.toList_append,
    Partial.toList_empty, List.nil_append]
  split <;> rfl

end Decoder

end LockService
