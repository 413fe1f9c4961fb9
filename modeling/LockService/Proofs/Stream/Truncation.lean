import LockService.Proofs.Record.Lawful
import LockService.Proofs.Stream.Lines

/-!
# Streams that are cut off

A stream of records may end anywhere: between two records, behind a JSON text whose line feed is
missing, inside a text, an escape or the bytes of one character.  What it then gives is settled by
three facts about one line.  With its line feed it is the record (`Record.line?_bytes`); without it,
too (`Record.line?_text`); and whatever is shorter and not empty is an error (`Record.line?_part`).
The error need not be of the same kind everywhere: inside a character the bytes are not text, and
elsewhere they are no JSON value.
-/

namespace LockService

namespace Record

variable {α : Type} [Record α]

/-! ## One record -/

/-- The bytes of the JSON text of a record: those that are sent, but for the line feed. -/
def text (record : α) : List UInt8 :=
  Utf8.encode (json record)

theorem bytes_eq (record : α) : bytes record = text record ++ [0x0A] := by
  rw [bytes, line, Utf8.encode_append, text]
  rfl

section

variable [LawfulRecord α] (record : α)

theorem feed_not_mem_text : 0x0A ∉ text record := by
  obtain ⟨members, hjson, -⟩ := LawfulRecord.exists_members record
  rw [text, Utf8.feed_mem_encode_iff, hjson, String.toList_ofList]
  exact Json.feed_not_mem_writeObject members

theorem text_ne_nil : text record ≠ [] := by
  obtain ⟨members, hjson, -⟩ := LawfulRecord.exists_members record
  rw [text, Ne, Utf8.encode_eq_nil_iff, hjson, ← String.toList_inj, String.toList_ofList]
  simp [Json.writeObject]

theorem isLine_bytes (hfits : (bytes record).length ≤ maxLineBytes) : IsLine (bytes record) := by
  refine ⟨text record, bytes_eq record, feed_not_mem_text record, ?_⟩
  rw [bytes_eq, List.length_append, List.length_singleton] at hfits
  omega

/-- The JSON text of a record gives the record, with or without a line feed behind it. -/
theorem line?_encode (feed : List Char) (hfeed : feed = [] ∨ feed = ['\n'])
    (hfits : (Utf8.encode (json record ++ String.ofList feed)).length ≤ maxLineBytes) :
    Decoder.line? (Utf8.encode (json record ++ String.ofList feed)) = some (.ok record) := by
  obtain ⟨members, hjson, hread⟩ := LawfulRecord.exists_members record
  have hparse := Json.parse?_writeObject members hfeed
  rw [hjson, ← String.ofList_append] at hfits ⊢
  have hblank : (String.ofList (Json.writeObject members ++ feed)).toList.all Text.isBlank
      = false := by
    rw [String.toList_ofList, Json.writeObject]
    rfl
  rw [Decoder.line?, Utf8.decode?_encode]
  dsimp only
  rw [if_neg (Nat.not_lt.mpr hfits), if_neg (by rw [hblank]; decide), hparse, Option.bind_some,
    hread]

/-- **A record comes back.** -/
theorem line?_bytes (hfits : (bytes record).length ≤ maxLineBytes) :
    Decoder.line? (bytes record) = some (.ok record) :=
  line?_encode record ['\n'] (.inr rfl) hfits

/-- It comes back without its line feed. -/
theorem line?_text (hfits : (bytes record).length ≤ maxLineBytes) :
    Decoder.line? (text record) = some (.ok record) := by
  have hread := line?_encode record [] (.inl rfl)
  rw [String.ofList_nil, String.append_empty] at hread
  refine hread ?_
  rw [bytes_eq, List.length_append] at hfits
  exact Nat.le_of_add_right_le hfits

/-- **Nothing shorter is taken for a record.** -/
theorem line?_part (hfits : (bytes record).length ≤ maxLineBytes) {part : List UInt8}
    (hpart : part <+: text record) (hne : part ≠ []) (hproper : part ≠ text record) :
    ∃ error, (Decoder.line? part : Option (Except DecodeError α)) = some (.error error) := by
  rw [Decoder.line?]
  cases hdecode : Utf8.decode? part with
  | none => exact ⟨_, rfl⟩
  | some t =>
      obtain ⟨members, hjson, -⟩ := LawfulRecord.exists_members record
      have hbegins := Utf8.isPrefix_of_decode? hpart hdecode
      obtain rfl := Utf8.decode?_eq_some_iff.mp hdecode
      rw [hjson, String.toList_ofList, Json.writeObject, ← List.cons_append,
        List.prefix_concat_iff] at hbegins
      have hbegin : t.toList <+: '{' :: Json.writeMembers members := by
        refine hbegins.resolve_left fun heq => hproper ?_
        rw [text, hjson, Json.writeObject, ← List.cons_append, ← heq, String.ofList_toList]
      have hblank : t.toList.all Text.isBlank = false := by
        cases hchars : t.toList with
        | nil =>
            have hne : t ≠ "" := by simpa [Utf8.encode_eq_nil_iff] using hne
            exact absurd (String.toList_eq_nil_iff.mp hchars) hne
        | cons c chars =>
            rw [hchars, List.cons_prefix_cons] at hbegin
            rw [hbegin.1]
            rfl
      have hnone : Json.Value.parse? t = none := by
        rw [← t.ofList_toList]
        exact Json.parse?_of_isPrefix hbegin
      have hlength : ¬ maxLineBytes < (Utf8.encode t).length := by
        have hle := hpart.length_le
        rw [bytes_eq, List.length_append] at hfits
        omega
      refine ⟨.notRecord, ?_⟩
      dsimp only
      rw [if_neg hlength, if_neg (by rw [hblank]; decide), hnone, Option.bind_none]

end

theorem bytes_injective [LawfulRecord α] : Function.Injective (bytes : α → List UInt8) := by
  intro record record' h
  have htext : text record = text record' := by
    rw [bytes_eq, bytes_eq] at h
    exact List.append_cancel_right h
  obtain ⟨members, hjson, hread⟩ := LawfulRecord.exists_members record
  obtain ⟨members', hjson', hread'⟩ := LawfulRecord.exists_members record'
  have hparse := Json.parse?_writeObject members (.inl rfl)
  have hparse' := Json.parse?_writeObject members' (.inl rfl)
  rw [List.append_nil, ← hjson, Utf8.encode_inj htext] at hparse
  rw [List.append_nil, ← hjson', hparse] at hparse'
  rw [Option.some.inj hparse', hread'] at hread
  exact (Option.some.inj hread).symm

/-! ## A stream of records -/

/-- Whether the JSON text of the record at some place lies wholly in a stream, if the stream begins
as the records are sent one after the other. -/
def IsWhole (records : List α) (stream : List UInt8) (index : Nat) : Prop :=
  ∃ record, records[index]? = some record ∧
    (records.take index).flatMap bytes ++ text record <+: stream

/-- Whether a stream that begins as the records are sent ends strictly inside the JSON text of one
of them. -/
def EndsInside (records : List α) (stream : List UInt8) : Prop :=
  ∃ index record part, records[index]? = some record ∧
    stream = (records.take index).flatMap bytes ++ part ∧
    part <+: text record ∧ part ≠ [] ∧ part ≠ text record

/-- What a stream gives that begins as some records are sent: the records whose JSON text lies
wholly in it, and behind them one error if it ends strictly inside a JSON text. -/
def Restores (records : List α) (stream : List UInt8) : Prop :=
  ∃ (count : Nat) (errors : List DecodeError),
    Decoder.all stream = (records.take count).map .ok ++ errors.map .error ∧
    (∀ index, index < count ↔ IsWhole records stream index) ∧
    errors.length ≤ 1 ∧ (errors ≠ [] ↔ EndsInside records stream)

section

variable {record : α} {records : List α} {stream : List UInt8}

theorem not_isWhole_nil (index : Nat) : ¬ IsWhole ([] : List α) stream index := by
  rintro ⟨_, hrecord, -⟩
  cases hrecord

theorem isWhole_zero : IsWhole (record :: records) stream 0 ↔ text record <+: stream := by
  simp [IsWhole]

/-- Behind the first record the others are sent as if it were not there. -/
theorem isWhole_succ (index : Nat) :
    IsWhole (record :: records) (bytes record ++ stream) (index + 1)
      ↔ IsWhole records stream index := by
  simp [IsWhole, List.append_assoc, List.prefix_append_right_inj]

theorem not_isWhole_succ (hstream : stream <+: text record) (index : Nat) :
    ¬ IsWhole (record :: records) stream (index + 1) := by
  rintro ⟨_, -, hwhole⟩
  have hlength := (hwhole.trans hstream).length_le
  simp only [List.take_succ_cons, List.flatMap_cons, bytes_eq record, List.length_append,
    List.length_singleton] at hlength
  omega

theorem not_endsInside_nil : ¬ EndsInside ([] : List α) stream := by
  rintro ⟨_, _, _, hrecord, -⟩
  cases hrecord

theorem endsInside_append :
    EndsInside (record :: records) (bytes record ++ stream) ↔ EndsInside records stream := by
  constructor
  · rintro ⟨index, record', part, hrecord, hstream, hpart, hne, hproper⟩
    cases index with
    | zero =>
        cases hrecord
        have hlength := hpart.length_le
        rw [List.take_zero, List.flatMap_nil, List.nil_append] at hstream
        rw [← hstream, bytes_eq, List.length_append, List.length_append,
          List.length_singleton] at hlength
        omega
    | succ index =>
        refine ⟨index, record', part, hrecord, ?_, hpart, hne, hproper⟩
        rw [List.take_succ_cons, List.flatMap_cons, List.append_assoc] at hstream
        exact List.append_cancel_left hstream
  · rintro ⟨index, record', part, hrecord, rfl, hpart, hne, hproper⟩
    refine ⟨index + 1, record', part, hrecord, ?_, hpart, hne, hproper⟩
    rw [List.take_succ_cons, List.flatMap_cons, List.append_assoc]

theorem endsInside_iff (hstream : stream <+: text record) :
    EndsInside (record :: records) stream ↔ stream ≠ [] ∧ stream ≠ text record := by
  constructor
  · rintro ⟨index, record', part, hrecord, rfl, hpart, hne, hproper⟩
    cases index with
    | zero =>
        cases hrecord
        exact ⟨hne, hproper⟩
    | succ index =>
        have hlength := hstream.length_le
        simp only [List.take_succ_cons, List.flatMap_cons, bytes_eq record, List.length_append,
          List.length_singleton] at hlength
        omega
  · rintro ⟨hne, hproper⟩
    exact ⟨0, record, stream, rfl, rfl, hstream, hne, hproper⟩

end

section

variable [LawfulRecord α] {record : α} {records : List α} {stream : List UInt8}

/-- A stream that ends within its first record. -/
theorem restores_of_isPrefix_text (hfits : (bytes record).length ≤ maxLineBytes)
    (hstream : stream <+: text record) : Restores (record :: records) stream := by
  have hall : (Decoder.all stream : List (Except DecodeError α))
      = if stream = [] then [] else (Decoder.line? stream).toList := by
    refine Decoder.allFrom_part (fun hfeed => feed_not_mem_text record (hstream.mem hfeed)) ?_
    have hlength := hstream.length_le
    rw [bytes_eq, List.length_append] at hfits
    omega
  rw [Restores, endsInside_iff hstream, hall]
  by_cases hwhole : stream = text record
  · subst hwhole
    refine ⟨1, [], ?_, fun index => ?_, by simp, by simp⟩
    · rw [if_neg (text_ne_nil record), line?_text record hfits]
      rfl
    · cases index with
      | zero => simp [isWhole_zero]
      | succ index => simp [not_isWhole_succ hstream]
  have hnone : ∀ index, index < 0 ↔ IsWhole (record :: records) stream index := by
    intro index
    cases index with
    | zero =>
        rw [isWhole_zero]
        simpa using fun h => hwhole (hstream.eq_of_length_le h.length_le)
    | succ index => simp [not_isWhole_succ hstream]
  by_cases hne : stream = []
  · exact ⟨0, [], by simp [hne], hnone, by simp, by simp [hne]⟩
  · obtain ⟨error, herror⟩ := line?_part record hfits hstream hne hwhole
    exact ⟨0, [error], by simp [hne, herror], hnone, by simp, by simp [hne, hwhole]⟩

/-- A stream that goes on behind its first record. -/
theorem Restores.cons (hfits : (bytes record).length ≤ maxLineBytes)
    (h : Restores records stream) : Restores (record :: records) (bytes record ++ stream) := by
  obtain ⟨count, errors, hall, hwhole, herrors, hinside⟩ := h
  refine ⟨count + 1, errors, ?_, fun index => ?_, herrors, ?_⟩
  · rw [Decoder.all, Decoder.allFrom_line (isLine_bytes record hfits) (line?_bytes record hfits),
      ← Decoder.all, hall]
    rfl
  · cases index with
    | zero =>
        rw [isWhole_zero, bytes_eq, List.append_assoc]
        simp
    | succ index => rw [isWhole_succ, Nat.succ_lt_succ_iff, hwhole]
  · rw [endsInside_append, hinside]

/-- A stream that begins as records are sent, and ends at any byte, restores them. -/
theorem restores_of_isPrefix (hfits : ∀ record ∈ records, (bytes record).length ≤ maxLineBytes)
    (hstream : stream <+: records.flatMap bytes) : Restores records stream := by
  induction records generalizing stream with
  | nil =>
      obtain rfl := List.prefix_nil.mp hstream
      exact ⟨0, [], rfl, fun index => by simp [not_isWhole_nil], by simp,
        by simp [not_endsInside_nil]⟩
  | cons record records ih =>
      rw [List.forall_mem_cons] at hfits
      rw [List.flatMap_cons] at hstream
      by_cases hline : bytes record <+: stream
      · obtain ⟨stream, rfl⟩ := hline
        rw [List.prefix_append_right_inj] at hstream
        exact (ih hfits.2 hstream).cons hfits.1
      · refine restores_of_isPrefix_text hfits.1 ?_
        have hpart :=
          (List.prefix_or_prefix_of_prefix hstream (List.prefix_append ..)).resolve_right hline
        rw [bytes_eq, List.prefix_concat_iff] at hpart
        exact hpart.resolve_left fun heq => hline (by simp [heq, bytes_eq])

end

end Record

end LockService
