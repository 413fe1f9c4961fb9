import Mathlib.Data.List.Forall2
import Mathlib.Data.List.TakeDrop
import Mathlib.Data.List.TakeWhile
import LockService.Proofs.Stream.Lines
import LockService.Proofs.Text.Cuts
import LockService.Terminal.Session

/-!
# What timing does to a session

A session reads what is typed and what arrives piece by piece, and the two as they come.  Whatever
it has read of a line is kept until the rest of the line is there, but not if a line of the other
side is completed before that: then what was read so far is given up, and the rest will be taken for
a line of its own.

So the pieces alone never do any harm, and the order in which they come does only if it cuts across
a line: a run is *timely* if no line is completed while a part of a line of the other side was read
(`Session.timely`).

* **`Session.complete_of_timely`** — in a timely run nothing is lost, wherever the pieces were cut
  and whoever comes first.  When there is nothing left to read, every request that was typed was
  sent, every reply was shown, in order, and the session goes on.
* `Session.timely_of_isWhole` — runs whose pieces are whole lines are timely.
* **`Session.exists_loss`** — other runs need not be: a request is not sent, or a session ends
  because a part of a reply is no reply.
-/

namespace LockService.Terminal

/-! ## What should come of it -/

/-- Whether a text is a complete typed line. -/
def IsTypedLine (line : String) : Prop :=
  ∃ command : String, line = command ++ "\n" ∧ '\n' ∉ command.toList

theorem IsTypedLine.encode_eq {line : String} (h : IsTypedLine line) :
    ∃ command, Utf8.encode line = command ++ [0x0A] ∧ 0x0A ∉ command := by
  obtain ⟨command, rfl, hcommand⟩ := h
  refine ⟨Utf8.encode command, ?_, fun hfeed => hcommand (Utf8.feed_mem_encode_iff.mp hfeed)⟩
  rw [Utf8.encode_append]
  rfl

/-- Whether bytes are a line that holds a reply. -/
structure IsReplyLine (bytes : List UInt8) (reply : Reply) : Prop where
  isLine : IsLine bytes
  record : Decoder.line? bytes = some (.ok reply)

/-- The request that a typed line asks for. -/
def requestOf? (line : String) : Option Request :=
  match parse line with
  | .ok (.send request) => some request
  | .ok .quit | .ok .empty | .error _ => none

/-- What the user is told about a typed line that asks for nothing that is known. -/
def complaintOf? (line : String) : Option String :=
  match parse line with
  | .error error => some (complaint error)
  | .ok _ => none

namespace SessionMove

/-- What is typed with a move. -/
def typed : SessionMove → List UInt8
  | .type bytes => bytes
  | .arrive _ | .arriveEnd | .typeEnd | .hear | .heed => []

/-- What arrives with a move. -/
def arrived : SessionMove → List UInt8
  | .arrive bytes => bytes
  | .type _ | .arriveEnd | .typeEnd | .hear | .heed => []

/-- Whether a move ends one of the streams. -/
def isEnd : SessionMove → Bool
  | .arriveEnd | .typeEnd => true
  | .arrive _ | .type _ | .hear | .heed => false

end SessionMove

namespace Session

/-- Whether a session that makes a move gives up nothing: if it has read a part of a line, no line
of the other side is completed. -/
def isTimely (s : Session) : SessionMove → Bool
  | .hear => s.line.isEmpty || !s.arrived.contains 0x0A
  | .heed => s.reply.bytes.isEmpty || !s.typed.contains 0x0A
  | .arrive _ | .arriveEnd | .type _ | .typeEnd => true

/-- Whether a session that makes some moves gives up nothing. -/
def timely (s : Session) : List SessionMove → Bool
  | [] => true
  | move :: rest =>
    s.isTimely move &&
      match s.step? move with
      | none => true
      | some next => next.timely rest

/-- The moves as a relation. -/
inductive Step (s : Session) : SessionMove → Session → Prop
  | arrive (bytes : List UInt8) (hopen : s.arrivedAll = false) :
    Step s (.arrive bytes) { s with arrived := s.arrived ++ bytes }
  | arriveEnd (hopen : s.arrivedAll = false) : Step s .arriveEnd { s with arrivedAll := true }
  | type (bytes : List UInt8) (hopen : s.typedAll = false) :
    Step s (.type bytes) { s with typed := s.typed ++ bytes }
  | typeEnd (hopen : s.typedAll = false) : Step s .typeEnd { s with typedAll := true }
  | hear (hsome : s.arrived ≠ [] ∨ s.arrivedAll = true) : Step s .hear s.hear
  | heed (hsome : s.typed ≠ [] ∨ s.typedAll = true) : Step s .heed s.heed

theorem Step.of_eq {s s' : Session} {move : SessionMove} (h : s.step? move = some s') :
    s.Step move s' := by
  cases move with
  | arrive bytes =>
      obtain ⟨hopen, heq⟩ := Option.ite_none_left_eq_some.mp h
      cases heq
      exact .arrive bytes (Bool.eq_false_iff.mpr hopen)
  | arriveEnd =>
      obtain ⟨hopen, heq⟩ := Option.ite_none_left_eq_some.mp h
      cases heq
      exact .arriveEnd (Bool.eq_false_iff.mpr hopen)
  | type bytes =>
      obtain ⟨hopen, heq⟩ := Option.ite_none_left_eq_some.mp h
      cases heq
      exact .type bytes (Bool.eq_false_iff.mpr hopen)
  | typeEnd =>
      obtain ⟨hopen, heq⟩ := Option.ite_none_left_eq_some.mp h
      cases heq
      exact .typeEnd (Bool.eq_false_iff.mpr hopen)
  | hear =>
      obtain ⟨hsome, heq⟩ := Option.ite_none_left_eq_some.mp h
      cases heq
      rw [Bool.or_eq_true, not_or, Bool.and_eq_true, not_and_or] at hsome
      exact .hear (by simpa using hsome.2)
  | heed =>
      obtain ⟨hsome, heq⟩ := Option.ite_none_left_eq_some.mp h
      cases heq
      rw [Bool.or_eq_true, not_or, Bool.and_eq_true, not_and_or] at hsome
      exact .heed (by simpa using hsome.2)

section

variable {s : Session} {text rest toCome : List UInt8}

/-! ## Reading -/

/-- Reading a part of a reply. -/
theorem hear_of_no_feed (harrived : 0x0A ∉ s.arrived)
    (hsize : s.reply.size + s.arrived.length ≤ maxLineBytes) (hopen : s.arrivedAll = false) :
    s.hear = { s with reply := s.reply.append s.arrived, arrived := [] } := by
  rw [hear, Decoder.next_of_no_feed harrived hsize]
  simp [hopen]

/-- Reading the rest of a reply. -/
theorem hear_of_feed (harrived : s.arrived = text ++ 0x0A :: rest) (htext : 0x0A ∉ text)
    {reply : Reply} (hreply : IsReplyLine (s.reply.toList ++ text ++ [0x0A]) reply) :
    s.hear = { s with
      shown := s.shown ++ [reply.render], arrived := rest, reply := .empty, line := [] } := by
  obtain ⟨whole, hwhole, -, hsize⟩ := hreply.isLine
  have hlength := congrArg List.length (List.append_inj_left' hwhole rfl)
  rw [List.length_append, Partial.length_toList] at hlength
  rw [hear, harrived, Decoder.next_of_feed htext (by omega), hreply.record]
  rfl

theorem span_of_feed (htext : 0x0A ∉ text) :
    (text ++ 0x0A :: rest).span (· ≠ 0x0A) = (text, 0x0A :: rest) := by
  have hall : ∀ byte ∈ text, decide (byte ≠ 0x0A) = true := fun byte hbyte =>
    decide_eq_true fun heq => htext (heq ▸ hbyte)
  rw [List.span_eq_takeWhile_dropWhile, List.takeWhile_append_of_pos hall,
    List.dropWhile_append_of_pos hall]
  simp

/-- Reading a part of a typed line. -/
theorem heed_of_no_feed (htyped : 0x0A ∉ s.typed) (hopen : s.typedAll = false) :
    s.heed = { s with line := s.line ++ s.typed, typed := [] } := by
  have hall : ∀ byte ∈ s.typed, decide (byte ≠ 0x0A) = true := fun byte hbyte =>
    decide_eq_true fun heq => htyped (heq ▸ hbyte)
  have hspan : s.typed.span (· ≠ 0x0A) = (s.typed, []) := by
    rw [List.span_eq_takeWhile_dropWhile, List.takeWhile_eq_self_iff.mpr hall,
      List.dropWhile_eq_nil_iff.mpr hall]
  rw [heed, hspan]
  simp [hopen]

/-- What a typed line makes of a session. -/
theorem onLine_eq {line : String} (hquit : parse line ≠ .ok .quit) :
    s.onLine (Utf8.encode line) rest = { s with
      typed := rest, line := [], reply := .empty,
      sent := s.sent ++ (requestOf? line).toList,
      complaints := s.complaints ++ (complaintOf? line).toList } := by
  rw [onLine, Utf8.decode?_encode, requestOf?, complaintOf?]
  cases hparse : parse line with
  | error error => simp [act, hparse]
  | ok input =>
      cases input with
      | send request => simp [act, hparse]
      | quit => exact absurd hparse hquit
      | empty => simp [act, hparse]

/-- Reading the rest of a typed line. -/
theorem heed_of_feed (htyped : s.typed = text ++ 0x0A :: rest) (htext : 0x0A ∉ text) :
    s.heed = s.onLine (s.line ++ text ++ [0x0A]) rest := by
  rw [heed, htyped, span_of_feed htext]

/-! ## What is still to come -/

/-- Whether the session goes on and both streams do. -/
structure IsOpen (s : Session) : Prop where
  ending : s.ending = none
  arrivedAll : s.arrivedAll = false
  typedAll : s.typedAll = false

/-- Whether a session, given what will yet be typed, sends all that it has to: what it has read of a
line, what was typed and what will be are complete lines and a part of one, and what it has sent and
said together with what these lines ask for is what is wanted. -/
structure Heeding (s : Session) (toCome : List UInt8) (requests : List Request)
    (complaints : List String) : Prop where
  part : 0x0A ∉ s.line
  lines : ∃ (lines : List String) (left : String),
    (∀ line ∈ lines, IsTypedLine line ∧ parse line ≠ .ok .quit) ∧ '\n' ∉ left.toList ∧
    s.line ++ s.typed ++ toCome = lines.flatMap Utf8.encode ++ Utf8.encode left ∧
    s.sent ++ lines.filterMap requestOf? = requests ∧
    s.complaints ++ lines.filterMap complaintOf? = complaints

/-- The same for the replies: what it has read of a line, what has arrived and what will are
replies, and what it has shown together with these is what is wanted. -/
structure Hearing (s : Session) (toCome : List UInt8) (shown : List String) : Prop where
  part : 0x0A ∉ s.reply.toList
  lines : ∃ (lines : List (List UInt8)) (replies : List Reply),
    List.Forall₂ IsReplyLine lines replies ∧
    s.reply.toList ++ s.arrived ++ toCome = lines.flatten ∧
    s.shown ++ replies.map Reply.render = shown

variable {requests : List Request} {complaints shown : List String}

/-- What was read of a reply and what has arrived is no more than a line, unless it has an end. -/
theorem Hearing.size_le (h : s.Hearing toCome shown) (harrived : 0x0A ∉ s.arrived) :
    s.reply.size + s.arrived.length ≤ maxLineBytes := by
  obtain ⟨lines, replies, hreplies, heq, -⟩ := h.lines
  rw [← Partial.length_toList, ← List.length_append]
  cases hreplies with
  | nil =>
      rw [List.flatten_nil, List.append_eq_nil_iff] at heq
      rw [heq.1]
      exact Nat.zero_le _
  | cons hreply _ =>
      obtain ⟨text, rfl, -, hsize⟩ := hreply.isLine
      have hnone : 0x0A ∉ s.reply.toList ++ s.arrived := by simp [h.part, harrived]
      rw [List.flatten_cons, List.append_assoc text] at heq
      exact Nat.le_trans (isPrefix_of_append_eq hnone heq).length_le (Nat.le_of_lt hsize)

/-! ## One move -/

/-- Reading from the service when a part of a reply is all that there is. -/
theorem Hearing.hear_part (h : s.Hearing toCome shown) (harrived : 0x0A ∉ s.arrived) :
    ({ s with reply := s.reply.append s.arrived, arrived := [] } : Session).Hearing toCome shown
    where
  part := by simp [h.part, harrived]
  lines := by simpa using h.lines

/-- Reading from the service when there is the rest of a reply. -/
theorem Hearing.hear_rest (h : s.Hearing toCome shown)
    (harrived : s.arrived = text ++ 0x0A :: rest) (htext : 0x0A ∉ text) :
    ∃ reply, IsReplyLine (s.reply.toList ++ text ++ [0x0A]) reply ∧
      ({ s with
        shown := s.shown ++ [reply.render], arrived := rest, reply := .empty,
        line := [] } : Session).Hearing toCome shown := by
  obtain ⟨lines, replies, hreplies, heq, hshown⟩ := h.lines
  rw [harrived, ← List.append_assoc, List.append_assoc, List.cons_append] at heq
  cases hreplies with
  | nil => simp at heq
  | @cons line reply lines replies hreply hreplies =>
      obtain ⟨whole, rfl, hwhole, -⟩ := id hreply.isLine
      have hpart : 0x0A ∉ s.reply.toList ++ text := by simp [h.part, htext]
      rw [List.flatten_cons, List.append_assoc whole] at heq
      obtain ⟨rfl, hrest⟩ := append_feed_inj hpart hwhole heq
      refine ⟨reply, hreply, by simp, lines, replies, hreplies, by simpa using hrest, ?_⟩
      rw [List.append_assoc, List.singleton_append]
      exact hshown

/-- Reading from the user when a part of a line is all that there is. -/
theorem Heeding.heed_part (h : s.Heeding toCome requests complaints) (htyped : 0x0A ∉ s.typed) :
    ({ s with line := s.line ++ s.typed, typed := [] } : Session).Heeding toCome requests
      complaints where
  part := by simp [h.part, htyped]
  lines := by simpa using h.lines

/-- Reading from the user when there is the rest of a line. -/
theorem Heeding.heed_rest (h : s.Heeding toCome requests complaints)
    (htyped : s.typed = text ++ 0x0A :: rest) (htext : 0x0A ∉ text) :
    ∃ line, s.line ++ text ++ [0x0A] = Utf8.encode line ∧ parse line ≠ .ok .quit ∧
      ({ s with
        typed := rest, line := [], reply := .empty,
        sent := s.sent ++ (requestOf? line).toList,
        complaints := s.complaints ++ (complaintOf? line).toList } : Session).Heeding toCome
          requests complaints := by
  obtain ⟨lines, left, hlines, hleft, heq, hsent, hcomplaints⟩ := h.lines
  rw [htyped, ← List.append_assoc, List.append_assoc _ _ toCome, List.cons_append] at heq
  have hpart : 0x0A ∉ s.line ++ text := by simp [h.part, htext]
  cases lines with
  | nil =>
      have hfeed : 0x0A ∈ Utf8.encode left := by
        rw [List.flatMap_nil, List.nil_append] at heq
        rw [← heq]
        simp
      exact absurd (Utf8.feed_mem_encode_iff.mp hfeed) hleft
  | cons line lines =>
      have hcons : ∀ {α : Type} (f : String → Option α),
          (line :: lines).filterMap f = (f line).toList ++ lines.filterMap f := by
        intro α f
        cases hf : f line <;> simp [hf]
      rw [hcons, ← List.append_assoc] at hsent hcomplaints
      obtain ⟨⟨htypedLine, hquit⟩, hlines⟩ := List.forall_mem_cons.mp hlines
      obtain ⟨command, hencode, hcommand⟩ := htypedLine.encode_eq
      rw [List.flatMap_cons, hencode, List.append_assoc (command ++ [0x0A]),
        List.append_assoc command] at heq
      obtain ⟨hline, hrest⟩ := append_feed_inj hpart hcommand heq
      refine ⟨line, by rw [hline, hencode], hquit, List.not_mem_nil, lines, left, hlines, hleft, ?_,
        hsent, hcomplaints⟩
      simpa using hrest

/-- What is needed to follow a session from one move to the next. -/
structure OnCourse (s : Session) (typed arrived : List UInt8) (requests : List Request)
    (complaints shown : List String) : Prop where
  isOpen : s.IsOpen
  heeding : s.Heeding typed requests complaints
  hearing : s.Hearing arrived shown

/-- **One move**, if it gives up nothing. -/
theorem OnCourse.step {typed arrived : List UInt8} {move : SessionMove} {s' : Session}
    (h : s.OnCourse (move.typed ++ typed) (move.arrived ++ arrived) requests complaints shown)
    (hmove : move.isEnd = false) (htimely : s.isTimely move = true)
    (hstep : s.step? move = some s') :
    s'.OnCourse typed arrived requests complaints shown := by
  obtain ⟨hopen, hheeding, hhearing⟩ := h
  cases Step.of_eq hstep with
  | arriveEnd => cases hmove
  | typeEnd => cases hmove
  | arrive bytes =>
      exact ⟨⟨hopen.ending, hopen.arrivedAll, hopen.typedAll⟩, ⟨hheeding.part, hheeding.lines⟩,
        ⟨hhearing.part, by simpa [SessionMove.arrived] using hhearing.lines⟩⟩
  | type bytes =>
      exact ⟨⟨hopen.ending, hopen.arrivedAll, hopen.typedAll⟩,
        ⟨hheeding.part, by simpa [SessionMove.typed] using hheeding.lines⟩,
        ⟨hhearing.part, hhearing.lines⟩⟩
  | hear =>
      rw [SessionMove.typed, List.nil_append] at hheeding
      rw [SessionMove.arrived, List.nil_append] at hhearing
      by_cases hfeed : 0x0A ∈ s.arrived
      · have hline : s.line = [] := by simpa [isTimely, hfeed] using htimely
        obtain ⟨text, rest, harrived, htext⟩ := List.eq_append_cons_of_mem hfeed
        obtain ⟨reply, hreply, hafter⟩ := hhearing.hear_rest harrived htext
        rw [hear_of_feed harrived htext hreply]
        refine ⟨⟨hopen.ending, hopen.arrivedAll, hopen.typedAll⟩, ⟨List.not_mem_nil, ?_⟩, hafter⟩
        have hlines := hheeding.lines
        rw [hline] at hlines
        exact hlines
      · rw [hear_of_no_feed hfeed (hhearing.size_le hfeed) hopen.arrivedAll]
        exact ⟨⟨hopen.ending, hopen.arrivedAll, hopen.typedAll⟩, ⟨hheeding.part, hheeding.lines⟩,
          hhearing.hear_part hfeed⟩
  | heed =>
      rw [SessionMove.typed, List.nil_append] at hheeding
      rw [SessionMove.arrived, List.nil_append] at hhearing
      by_cases hfeed : 0x0A ∈ s.typed
      · have hreply : s.reply.toList = [] := by
          simpa [isTimely, hfeed, Partial.bytes_eq_nil_iff] using htimely
        obtain ⟨text, rest, htyped, htext⟩ := List.eq_append_cons_of_mem hfeed
        obtain ⟨line, hline, hquit, hafter⟩ := hheeding.heed_rest htyped htext
        rw [heed_of_feed htyped htext, hline, onLine_eq hquit]
        refine ⟨⟨hopen.ending, hopen.arrivedAll, hopen.typedAll⟩, hafter, ⟨List.not_mem_nil, ?_⟩⟩
        have hlines := hhearing.lines
        rw [hreply] at hlines
        exact hlines
      · rw [heed_of_no_feed hfeed hopen.typedAll]
        exact ⟨⟨hopen.ending, hopen.arrivedAll, hopen.typedAll⟩, hheeding.heed_part hfeed,
          ⟨hhearing.part, hhearing.lines⟩⟩

/-- A whole run. -/
theorem OnCourse.run {moves : List SessionMove} {s' : Session}
    (h : s.OnCourse (moves.flatMap SessionMove.typed) (moves.flatMap SessionMove.arrived) requests
      complaints shown)
    (hmoves : ∀ move ∈ moves, move.isEnd = false) (htimely : s.timely moves = true)
    (hrun : s.run? moves = some s') : s'.OnCourse [] [] requests complaints shown := by
  induction moves generalizing s with
  | nil =>
      cases hrun
      exact h
  | cons move moves ih =>
      rw [run?, List.foldlM_cons] at hrun
      obtain ⟨next, hnext, hrest⟩ := Option.bind_eq_some_iff.mp hrun
      rw [timely, hnext, Bool.and_eq_true] at htimely
      rw [List.forall_mem_cons] at hmoves
      rw [List.flatMap_cons, List.flatMap_cons] at h
      exact ih (h.step hmoves.1 htimely.1 hnext) hmoves.2 htimely.2 hrest

/-- When nothing is left to read, everything has been done. -/
theorem OnCourse.eq_of_rest (h : s.OnCourse [] [] requests complaints shown)
    (hheed : s.step? .heed = none) (hhear : s.step? .hear = none) :
    s.sent = requests ∧ s.complaints = complaints ∧ s.shown = shown := by
  have htyped : s.typed = [] := by
    simpa [step?, h.isOpen.ending, h.isOpen.typedAll] using hheed
  have harrived : s.arrived = [] := by
    simpa [step?, h.isOpen.ending, h.isOpen.arrivedAll] using hhear
  obtain ⟨lines, left, hlines, -, htext, hsent, hcomplaints⟩ := h.heeding.lines
  obtain ⟨parts, replies, hreplies, hbytes, hshown⟩ := h.hearing.lines
  rw [htyped, List.append_nil, List.append_nil] at htext
  rw [harrived, List.append_nil, List.append_nil] at hbytes
  have hdone : lines = [] := by
    cases lines with
    | nil => rfl
    | cons line lines =>
        obtain ⟨command, hencode, -⟩ := (hlines line List.mem_cons_self).1.encode_eq
        refine absurd h.heeding.part ?_
        rw [htext, List.flatMap_cons, hencode]
        simp
  have hheard : replies = [] := by
    cases hreplies with
    | nil => rfl
    | cons hreply _ =>
        obtain ⟨text, rfl, -⟩ := hreply.isLine
        refine absurd h.hearing.part ?_
        rw [hbytes]
        simp
  subst hdone hheard
  simp only [List.filterMap_nil, List.append_nil, List.map_nil] at hsent hcomplaints hshown
  exact ⟨hsent, hcomplaints, hshown⟩

/-- **Nothing is lost in a timely run.**  Let what is typed be some complete lines, none of which is
to leave, and a part of one, and let what arrives be replies, one to a line; let both come in any
pieces, in any order, and neither end.  If the session has given up nothing, and there is nothing
left to read, then it goes on; it has sent the requests that the typed lines ask for, and complained
about those that ask for nothing that is known; and it has shown every reply; all in order. -/
theorem complete_of_timely {lines : List String} {left : String}
    (hlines : ∀ line ∈ lines, IsTypedLine line ∧ parse line ≠ .ok .quit)
    (hleft : '\n' ∉ left.toList) {parts : List (List UInt8)} {replies : List Reply}
    (hreplies : List.Forall₂ IsReplyLine parts replies) {moves : List SessionMove} {s : Session}
    (hrun : ({} : Session).run? moves = some s) (hmoves : ∀ move ∈ moves, move.isEnd = false)
    (htyped : moves.flatMap SessionMove.typed = Utf8.encode (String.join lines ++ left))
    (harrived : moves.flatMap SessionMove.arrived = parts.flatten)
    (htimely : ({} : Session).timely moves = true)
    (hheed : s.step? .heed = none) (hhear : s.step? .hear = none) :
    s.ending = none ∧ s.sent = lines.filterMap requestOf? ∧
      s.complaints = lines.filterMap complaintOf? ∧ s.shown = replies.map Reply.render := by
  have hstart : ({} : Session).OnCourse (moves.flatMap SessionMove.typed)
      (moves.flatMap SessionMove.arrived) (lines.filterMap requestOf?)
      (lines.filterMap complaintOf?) (replies.map Reply.render) := by
    refine ⟨⟨rfl, rfl, rfl⟩, ⟨List.not_mem_nil, lines, left, hlines, hleft, ?_, rfl, rfl⟩,
      ⟨List.not_mem_nil, parts, replies, hreplies, harrived, rfl⟩⟩
    rw [htyped, Utf8.encode_append, Utf8.encode_join]
    rfl
  have hend := hstart.run hmoves htimely hrun
  exact ⟨hend.isOpen.ending, hend.eq_of_rest hheed hhear⟩

end

/-! ## Whole lines -/

/-- Whether bytes are whole lines. -/
def EndsLines (bytes : List UInt8) : Prop :=
  bytes ≠ [] → bytes.getLast? = some 0x0A

theorem EndsLines.of_append {bytes rest : List UInt8} (h : EndsLines (bytes ++ rest)) :
    EndsLines rest := by
  intro hrest
  rw [← List.getLast?_append_of_ne_nil bytes hrest]
  exact h (List.append_ne_nil_of_right_ne_nil bytes hrest)

theorem EndsLines.append {bytes more : List UInt8} (h : EndsLines bytes) (hmore : EndsLines more) :
    EndsLines (bytes ++ more) := by
  intro hne
  cases more with
  | nil =>
      rw [List.append_nil] at hne ⊢
      exact h hne
  | cons byte more =>
      rw [List.getLast?_append_of_ne_nil bytes (List.cons_ne_nil byte more)]
      exact hmore (List.cons_ne_nil byte more)

/-- Behind whole lines the decoder stands at the beginning of a line. -/
theorem next_of_endsLines {line : Partial} {bytes : List UInt8} (hbytes : EndsLines bytes)
    (hline : bytes = [] → line = .empty) :
    (Decoder.next line bytes : Decoded Reply) = .unfinished .empty ∨
      ∃ record rest, (Decoder.next line bytes : Decoded Reply) = .result record rest ∧
        EndsLines rest := by
  induction bytes generalizing line with
  | nil =>
      rw [Decoder.next, hline rfl]
      exact .inl rfl
  | cons byte rest ih =>
      have hrest : EndsLines rest := (show EndsLines ([byte] ++ rest) from hbytes).of_append
      rw [Decoder.next]
      split
      · split
        · next record _ => exact .inr ⟨record, rest, rfl, hrest⟩
        · exact ih hrest fun _ => rfl
      · next hinside =>
        refine ih hrest fun hnil => absurd ?_ hinside
        subst hnil
        obtain rfl : byte = 0x0A := by simpa using hbytes (List.cons_ne_nil byte [])
        simp [Partial.endsWith]

/-- Whether a session has read nothing but whole lines, and will not. -/
structure IsWhole (s : Session) : Prop where
  line : s.line = []
  reply : s.reply = .empty
  typed : EndsLines s.typed
  arrived : EndsLines s.arrived

theorem IsWhole.hear {s : Session} (h : s.IsWhole) : s.hear.IsWhole := by
  have hnext := next_of_endsLines h.arrived fun _ => h.reply
  have hnil : EndsLines [] := fun hne => absurd rfl hne
  have honReply : ∀ (record : Except DecodeError Reply) (rest : List UInt8), EndsLines rest →
      (s.onReply rest record).IsWhole := by
    intro record rest hrest
    cases record with
    | ok reply => exact ⟨rfl, rfl, h.typed, hrest⟩
    | error error => exact ⟨h.line, h.reply, h.typed, h.arrived⟩
  rw [Session.hear]
  rcases hnext with heq | ⟨record, rest, heq, hrest⟩
  · rw [heq]
    dsimp only
    split
    · exact ⟨h.line, h.reply, h.typed, h.arrived⟩
    · exact ⟨h.line, rfl, h.typed, hnil⟩
  · rw [heq]
    exact honReply record rest hrest

theorem IsWhole.onLine {s : Session} (h : s.IsWhole) (bytes : List UInt8) {rest : List UInt8}
    (hrest : EndsLines rest) : (s.onLine bytes rest).IsWhole := by
  rw [Session.onLine]
  split
  · next text _ =>
    rw [act.eq_def]
    split <;> exact ⟨rfl, rfl, hrest, h.arrived⟩
  · exact ⟨rfl, rfl, hrest, h.arrived⟩

theorem IsWhole.heed {s : Session} (h : s.IsWhole) (hsome : s.typed ≠ [] ∨ s.typedAll = true) :
    s.heed.IsWhole := by
  have hnil : EndsLines [] := fun hne => absurd rfl hne
  by_cases htyped : s.typed = []
  · have hall := hsome.resolve_left (not_not_intro htyped)
    have hheed : s.heed = s.finish .endOfInput := by
      rw [Session.heed, htyped]
      simp [List.span, List.span.loop, hall, h.line]
    rw [hheed]
    exact ⟨h.line, h.reply, h.typed, h.arrived⟩
  · obtain ⟨text, rest, heq, htext⟩ :=
      List.eq_append_cons_of_mem (List.mem_of_getLast? (h.typed htyped))
    rw [heed_of_feed heq htext]
    have hall : EndsLines ((text ++ [0x0A]) ++ rest) := by
      rw [List.append_assoc, List.singleton_append, ← heq]
      exact h.typed
    exact h.onLine _ hall.of_append

theorem IsWhole.step {s s' : Session} {move : SessionMove} (h : s.IsWhole)
    (hmove : EndsLines move.typed ∧ EndsLines move.arrived) (hstep : s.step? move = some s') :
    s'.IsWhole := by
  cases Step.of_eq hstep with
  | arrive => exact ⟨h.line, h.reply, h.typed, h.arrived.append hmove.2⟩
  | arriveEnd => exact ⟨h.line, h.reply, h.typed, h.arrived⟩
  | type => exact ⟨h.line, h.reply, h.typed.append hmove.1, h.arrived⟩
  | typeEnd => exact ⟨h.line, h.reply, h.typed, h.arrived⟩
  | hear => exact h.hear
  | heed hsome => exact h.heed hsome

/-- **Whole lines are always in time.** -/
theorem timely_of_isWhole {s : Session} (h : s.IsWhole) {moves : List SessionMove}
    (hmoves : ∀ move ∈ moves, EndsLines move.typed ∧ EndsLines move.arrived) :
    s.timely moves = true := by
  induction moves generalizing s with
  | nil => rfl
  | cons move moves ih =>
      rw [List.forall_mem_cons] at hmoves
      have hnow : s.isTimely move = true := by
        cases move <;> simp [isTimely, h.line, h.reply, Partial.empty]
      rw [timely, hnow, Bool.true_and]
      split
      · rfl
      · next s' hstep => exact ih (h.step hmoves.1 hstep) hmoves.2

/-- For instance a command and then a reply come in two pieces each, and one more command is
begun. -/
theorem complete_of_timely_pieces :
    let moves : List SessionMove :=
      [.type (Utf8.encode "lo"), .heed, .type (Utf8.encode "ck x\n"), .heed,
        .arrive (Utf8.encode "\x7b\"sta"), .hear, .arrive (Utf8.encode "tus\":\"OK\"\x7d\n"), .hear,
        .type (Utf8.encode "ge"), .heed]
    ∃ s, ({} : Session).run? moves = some s ∧ (∀ move ∈ moves, move.isEnd = false) ∧
      moves.flatMap SessionMove.typed = Utf8.encode (String.join ["lock x\n"] ++ "ge") ∧
      moves.flatMap SessionMove.arrived = Record.bytes Reply.ok ∧
      ({} : Session).timely moves = true ∧ s.step? .heed = none ∧ s.step? .hear = none ∧
      s.ending = none ∧ s.sent = [⟨"lock", "x", none⟩] ∧ s.complaints = [] ∧ s.shown = ["OK"] := by
  intro moves
  have hend : (({} : Session).run? moves).any (fun s =>
      (s.step? .heed).isNone ∧ (s.step? .hear).isNone) = true := by
    decide +kernel
  obtain ⟨s, hrun, hend⟩ := (Option.any_eq_true _ _).mp hend
  obtain ⟨hheed, hhear⟩ := of_decide_eq_true hend
  rw [Option.isNone_iff_eq_none] at hheed hhear
  have hlines : ∀ line ∈ ["lock x\n"], IsTypedLine line ∧ parse line ≠ .ok .quit := by
    rw [List.forall_mem_singleton]
    exact ⟨⟨"lock x", by decide, by decide⟩, by decide +kernel⟩
  have hreplies : List.Forall₂ IsReplyLine [Record.bytes Reply.ok] [.ok] := by
    refine .cons ⟨⟨(Record.bytes Reply.ok).dropLast, ?_⟩, ?_⟩ .nil
    · decide +kernel
    · decide +kernel
  have hmoves : ∀ move ∈ moves, move.isEnd = false := by decide +kernel
  have htyped :
      moves.flatMap SessionMove.typed = Utf8.encode (String.join ["lock x\n"] ++ "ge") := by
    decide +kernel
  have harrived : moves.flatMap SessionMove.arrived = [Record.bytes Reply.ok].flatten := by
    decide +kernel
  have htimely : ({} : Session).timely moves = true := by decide +kernel
  have hleft : '\n' ∉ "ge".toList := by decide
  obtain ⟨hending, hsent, hcomplaints, hshown⟩ :=
    complete_of_timely hlines hleft hreplies hrun hmoves htyped harrived htimely hheed hhear
  refine
    ⟨s, hrun, hmoves, htyped, by simpa using harrived, htimely, hheed, hhear, hending, ?_, ?_, ?_⟩
  · rw [hsent]
    decide +kernel
  · rw [hcomplaints]
    decide +kernel
  · rw [hshown]
    decide +kernel

/-- **Something can get lost.**  A command is typed in two pieces and a reply comes between them:
the first piece is given up, and what is left is no command.  Or a reply arrives in two pieces and a
command is typed between them: what is left of the reply is none, and the session ends with that. -/
theorem exists_loss :
    (∃ s, ({} : Session).run?
        [.type (Utf8.encode "lo"), .heed, .arrive (Record.bytes Reply.ok), .hear,
          .type (Utf8.encode "ck x\n"), .heed] = some s ∧
      requestOf? "lock x\n" = some ⟨"lock", "x", none⟩ ∧
      s.step? .heed = none ∧ s.step? .hear = none ∧ s.ending = none ∧
      s.sent = [] ∧ s.complaints = [complaint (.unknownCommand "ck")]) ∧
    ∃ s, ({} : Session).run?
        [.arrive ((Record.bytes Reply.ok).take 5), .hear, .type (Utf8.encode "lock x\n"), .heed,
          .arrive ((Record.bytes Reply.ok).drop 5), .hear] = some s ∧
      s.shown = [] ∧ s.ending = some (.badReply .notRecord) := by
  constructor
  · have hend : (({} : Session).run?
        [.type (Utf8.encode "lo"), .heed, .arrive (Record.bytes Reply.ok), .hear,
          .type (Utf8.encode "ck x\n"), .heed]).any (fun s =>
        (s.step? .heed).isNone ∧ (s.step? .hear).isNone ∧ s.ending = none ∧ s.sent = [] ∧
        s.complaints = [complaint (.unknownCommand "ck")]) = true := by
      decide +kernel
    obtain ⟨s, hrun, hend⟩ := (Option.any_eq_true _ _).mp hend
    obtain ⟨hheed, hhear, hrest⟩ := of_decide_eq_true hend
    rw [Option.isNone_iff_eq_none] at hheed hhear
    exact ⟨s, hrun, by decide +kernel, hheed, hhear, hrest⟩
  · have hend : (({} : Session).run?
        [.arrive ((Record.bytes Reply.ok).take 5), .hear, .type (Utf8.encode "lock x\n"), .heed,
          .arrive ((Record.bytes Reply.ok).drop 5), .hear]).any (fun s =>
        s.shown = [] ∧ s.ending = some (.badReply .notRecord)) = true := by
      decide +kernel
    obtain ⟨s, hrun, hend⟩ := (Option.any_eq_true _ _).mp hend
    exact ⟨s, hrun, of_decide_eq_true hend⟩

end Session

end LockService.Terminal
