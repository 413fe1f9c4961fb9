import LockService.Proofs.Connection.Gaps
import LockService.Proofs.Stream.Truncation

/-!
# Connections that are cut off

A client may be cut off in the middle of a record, and then the service has the beginning of a
request.  It must not take that for another request.

What a connection passes on to the core is what its client has written, read as a stream
(`Exchange.passed_isPrefix`): whatever arrives in whichever pieces, and wherever reading ends or
fails, the requests passed on are the first results of that stream, and all of them were read
without an error.  `Link.Follows` is what the moves of the inbound task keep.  A stream of records
that is cut at any byte gives no other record (`Record.restores_of_isPrefix`), and so neither does
the connection.

* **`Record.restored_at_every_cut`** — reading undoes writing, at every cut of the stream.
-/

namespace LockService

/-- The request in a command. -/
def Command.request? {ρ : Type} : Command ρ → Option Request
  | .request r => some r
  | .opening _ | .closing | .malformed => none

namespace InboundPhase

/-- Whether the task has met neither the end of the stream nor a failure. -/
def goesOn : InboundPhase → Bool
  | opening | checking | throttled | parked _ | reading | holding (.ok _) => true
  | holding (.error _) | closing | ended => false

/-- The request that the task holds for the core. -/
def held : InboundPhase → Option Request
  | holding (.ok request) => some request
  | opening | checking | throttled | parked _ | reading | holding (.error _) | closing | ended =>
    none

end InboundPhase

/-- The bytes that a peer writes with a move. -/
def Peer.writes (p : Peer) : PeerMove → List UInt8
  | .feed count => p.backlog.take count
  | .halfClose | .drink _ | .seeEnd | .vanish => []

namespace Link

/-- What is still to be passed on of a stream that goes on with `more`, as long as nothing fails. -/
def given (l : Link) (more : List UInt8) : List (Except DecodeError Request) :=
  l.inbound.held.toList.map .ok ++ l.recordsToCome more

/-- Whether what the inbound task has passed on is what the stream gives of which its peer has
written some bytes: it is the beginning of that, and the rest is still to come if nothing has
failed.  More bytes may follow unless the stream is closed. -/
def Follows (l : Link) (sent : List UInt8) (passed : List Request) : Prop :=
  ∀ more, (l.fromPeer.closed = true → more = []) → ∃ rest,
    Decoder.all (sent ++ more) = passed.map .ok ++ rest ∧
    (l.inbound.goesOn = true → rest = l.given more)

section

variable {l l' : Link} {sent : List UInt8} {passed : List Request}

theorem Follows.congr (h : l.Follows sent passed)
    (hclosed : l.fromPeer.closed = true → l'.fromPeer.closed = true)
    (hgiven : l'.inbound.goesOn = true → l.inbound.goesOn = true ∧
      ∀ more, (l'.fromPeer.closed = true → more = []) → l'.given more = l.given more) :
    l'.Follows sent passed := by
  intro more hmore
  obtain ⟨rest, hall, hrest⟩ := h more fun hend => hmore (hclosed hend)
  refine ⟨rest, hall, fun hon => ?_⟩
  obtain ⟨hon, hgiven⟩ := hgiven hon
  rw [hrest hon, hgiven more hmore]

/-- What leaves the inbound task and its bytes alone changes nothing. -/
theorem Follows.aside (h : l.Follows sent passed) (hinbound : l'.inbound = l.inbound)
    (hline : l'.line = l.line) (hunread : l'.unread = l.unread)
    (hfrom : l'.fromPeer = l.fromPeer) : l'.Follows sent passed := by
  refine h.congr (fun hend => by rw [hfrom, hend]) fun hon => ⟨by rw [← hinbound, hon], ?_⟩
  intro more _
  rw [given, given, recordsToCome, recordsToCome, hinbound, hline, hunread, hfrom]

/-- Nor does it matter where the task stands before it has read on. -/
theorem Follows.turn (h : l.Follows sent passed) (hon : l.inbound.goesOn = true)
    (hheld : l.inbound.held = none) {inbound : InboundPhase} {permit : Bool}
    (hheld' : inbound.held = none) :
    ({ l with inbound, permit } : Link).Follows sent passed :=
  h.congr (fun hend => hend) fun _ => ⟨hon, fun more _ => by
    simp only [given, recordsToCome, hheld, hheld']⟩

/-- A task that has met the end of the stream or a failure adds nothing. -/
theorem Follows.stop (h : l.Follows sent passed)
    (hclosed : l'.fromPeer.closed = l.fromPeer.closed) (hstop : l'.inbound.goesOn = false) :
    l'.Follows sent passed :=
  h.congr (fun hend => by rw [hclosed, hend]) fun hon => absurd (hstop.symm.trans hon) nofun

/-- Reading on gives what was still to come. -/
theorem Follows.inbound (h : l.Follows sent passed) {move : InboundMove}
    (hstep : l.InboundStep move l') : l'.Follows sent passed := by
  cases hstep with
  | quit => exact h.stop rfl rfl
  | enter hat => exact h.turn (by rw [hat]; rfl) (by rw [hat]; rfl) rfl
  | throttle hat => exact h.turn (by rw [hat]; rfl) (by rw [hat]; rfl) rfl
  | redeem hat => exact h.turn (by rw [hat]; rfl) (by rw [hat]; rfl) rfl
  | park hat => exact h.turn (by rw [hat]; rfl) (by rw [hat]; rfl) rfl
  | wake hat => exact h.turn (by rw [hat]; rfl) (by rw [hat]; rfl) rfl
  | @fetch count hat hunread =>
      refine h.congr (fun hend => hend) fun hon => ⟨hon, fun more _ => ?_⟩
      have hfront := l.fromPeer.front_append_bytes_read count
      simp only [given, recordsToCome, hunread, List.nil_append, hfront]
  | lengthen hat _ hnext =>
      refine h.congr (fun hend => hend) fun hon => ⟨hon, fun more _ => ?_⟩
      simp only [given, recordsToCome, List.nil_append, List.append_assoc]
      rw [Decoder.allFrom_append_of_unfinished hnext]
  | @find record rest hat _ hnext =>
      cases record with
      | error => exact h.stop rfl rfl
      | ok request =>
          refine h.congr (fun hend => hend) fun _ => ⟨by rw [hat]; rfl, fun more _ => ?_⟩
          simp only [given, recordsToCome, hat, InboundPhase.held, List.append_assoc]
          rw [Decoder.allFrom_append_of_result hnext]
          rfl
  | @last record hat hunread hend hrecord =>
      cases record with
      | error => exact h.stop rfl rfl
      | ok request =>
          refine h.congr (fun hend => hend) fun _ => ⟨by rw [hat]; rfl, fun more hmore => ?_⟩
          have hlast := recordsToCome_of_end hunread hend hmore
          have hnone := recordsToCome_of_end
            (l := { l with inbound := .holding (.ok request), line := .empty }) hunread hend hmore
          rw [hrecord] at hlast
          simp only [given, hlast, hnone, hat, InboundPhase.held]
          rfl
  | finish => exact h.stop rfl rfl
  | fail => exact h.stop rfl rfl

/-- Passing on what was held for the core takes it off what is still to come. -/
theorem Follows.submit {ρ : Type} {replier : ρ} {e : Envelope ρ} (h : l.Follows sent passed)
    (hsubmission : l.submission? replier = some (e, l')) :
    l'.Follows sent (passed ++ e.command.request?.toList) := by
  unfold submission? at hsubmission
  split at hsubmission
  · next hat =>
    cases hsubmission
    rw [Command.request?, Option.toList_none, List.append_nil]
    exact h.turn (by rw [hat]; rfl) (by rw [hat]; rfl) rfl
  · next request hat =>
    cases hsubmission
    intro more hmore
    obtain ⟨rest, hall, hrest⟩ := h more hmore
    have hgiven := hrest (by rw [hat]; rfl)
    rw [given, hat] at hgiven
    refine ⟨_, ?_, fun _ => rfl⟩
    rw [hall, hgiven]
    simp [given, recordsToCome, Command.request?, InboundPhase.held]
  · cases hsubmission
    rw [Command.request?, Option.toList_none, List.append_nil]
    exact h.stop rfl rfl
  · cases hsubmission
    rw [Command.request?, Option.toList_none, List.append_nil]
    exact h.stop rfl rfl
  all_goals cases hsubmission

/-- The outbound task leaves what is read alone. -/
theorem Follows.outbound (h : l.Follows sent passed) {move : OutboundMove}
    (hstep : l.OutboundStep move l') : l'.Follows sent passed := by
  cases hstep with
  | giveUp => exact h.aside rfl rfl rfl rfl
  | rouse => exact h.aside rfl rfl rfl rfl
  | awake _ hstep =>
      cases hstep with
      | notify =>
          have hnotify : l.notify.Follows sent passed := by
            unfold notify
            split
            · next hat => exact h.turn (by rw [hat]; rfl) (by rw [hat]; rfl) rfl
            · exact h.aside rfl rfl rfl rfl
          exact hnotify.aside rfl rfl rfl rfl
      | fail hfail =>
          rcases failWrite_cases hfail with rfl | ⟨-, rfl⟩
          · exact h.aside rfl rfl rfl rfl
          · exact h.aside rfl rfl rfl rfl
      | _ => exact h.aside rfl rfl rfl rfl

theorem Follows.receive (h : l.Follows sent passed) (message : Outbound) :
    (l.receive message).Follows sent passed := by
  rcases l.receive_cases message with ⟨-, heq⟩ | ⟨-, heq⟩ | heq <;> rw [heq]
  · exact h
  · exact h.aside rfl rfl rfl rfl
  · exact h.aside rfl rfl rfl rfl

/-- What the peer writes is still to come, and once it has closed the stream nothing more is. -/
theorem Follows.peer (h : l.Follows sent passed) {p p' : Peer} {move : PeerMove}
    (hstep : p.Step l move p' l') : l'.Follows (sent ++ p.writes move) passed := by
  cases hstep with
  | @feed count hcan =>
      have hopen : l.fromPeer.closed = false := by
        cases hend : l.fromPeer.closed with
        | false => rfl
        | true => simp [Peer.canWrite, hend] at hcan
      intro more _
      obtain ⟨rest, hall, hrest⟩ := h (p.backlog.take count ++ more) fun hend =>
        absurd (hopen.symm.trans hend) nofun
      refine ⟨rest, by rw [Peer.writes, List.append_assoc, hall], fun hon => ?_⟩
      rw [hrest hon]
      simp only [given, recordsToCome, Pipe.write, List.append_assoc]
  | halfClose =>
      rw [Peer.writes, List.append_nil]
      exact h.congr (fun _ => rfl) fun hon => ⟨hon, fun _ _ => rfl⟩
  | vanish =>
      rw [Peer.writes, List.append_nil]
      exact h.congr (fun _ => rfl) fun hon => ⟨hon, fun _ _ => rfl⟩
  | drink =>
      rw [Peer.writes, List.append_nil]
      exact h.aside rfl rfl rfl rfl
  | seeEnd =>
      rw [Peer.writes, List.append_nil]
      exact h

end

end Link

namespace Exchange

/-! ## Runs -/

/-- What events contribute one after the other, as long as they can happen. -/
def gather {α : Type} (part : Exchange → Event → List α) : Exchange → List Event → List α
  | _, [] => []
  | x, event :: rest =>
    match x.step? event with
    | none => []
    | some next => part x event ++ next.gather part rest

/-- The bytes that the peer writes to the stream with an event. -/
def writes (x : Exchange) : Event → List UInt8
  | .peer move => x.peer.writes move
  | .deliver _ | .inbound _ | .outbound _ | .submit | .desert => []

/-- The requests that are passed on to the core with an event. -/
def passes (x : Exchange) : Event → List Request
  | .submit => ((x.link.submission? ()).bind fun (e, _) => e.command.request?).toList
  | .peer _ | .deliver _ | .inbound _ | .outbound _ | .desert => []

/-- The bytes that the peer has written to the stream. -/
def sent : Exchange → List Event → List UInt8 :=
  gather writes

/-- The requests that have been passed on to the core. -/
def passed : Exchange → List Event → List Request :=
  gather passes

section

variable {x x' : Exchange} {bytes : List UInt8} {requests : List Request}

/-- **One event.** -/
theorem follows_step (h : x.link.Follows bytes requests) {event : Event}
    (hstep : x.step? event = some x') :
    x'.link.Follows (bytes ++ x.writes event) (requests ++ x.passes event) := by
  cases event with
  | deliver message =>
      cases hstep
      simpa [writes, passes] using h.receive message
  | inbound move =>
      obtain ⟨l', hl', rfl⟩ := Option.map_eq_some_iff.mp hstep
      simpa [writes, passes] using h.inbound (.of_eq hl')
  | outbound move =>
      obtain ⟨l', hl', rfl⟩ := Option.map_eq_some_iff.mp hstep
      simpa [writes, passes] using h.outbound (.of_eq hl')
  | submit =>
      obtain ⟨⟨e, l'⟩, hl', rfl⟩ := Option.map_eq_some_iff.mp hstep
      simpa [writes, passes, hl'] using h.submit hl'
  | desert =>
      obtain ⟨l', hl', rfl⟩ := Option.map_eq_some_iff.mp hstep
      obtain ⟨-, -, rfl⟩ := Link.desert?_eq_some_iff.mp hl'
      rw [writes, passes, List.append_nil, List.append_nil]
      exact h.aside rfl rfl rfl rfl
  | peer move =>
      obtain ⟨⟨p', l'⟩, hl', rfl⟩ := Option.map_eq_some_iff.mp hstep
      rw [passes, List.append_nil]
      exact h.peer (Peer.step?_eq_some_iff.mp hl')

/-- A whole run. -/
theorem follows_run (h : x.link.Follows bytes requests) (events : List Event) :
    ∃ l : Link, l.Follows (bytes ++ x.sent events) (requests ++ x.passed events) := by
  induction events generalizing x bytes requests with
  | nil => exact ⟨x.link, by simpa [sent, passed, gather] using h⟩
  | cons event rest ih =>
      rw [sent, passed, gather, gather]
      cases hstep : x.step? event with
      | none => exact ⟨x.link, by simpa using h⟩
      | some next =>
          have hmore := ih (follows_step h hstep)
          rw [List.append_assoc, List.append_assoc] at hmore
          exact hmore

/-- The peer writes what it was going to write, in order. -/
theorem writes_append_backlog {event : Event} (hstep : x.step? event = some x') :
    x.writes event ++ x'.peer.backlog <+: x.peer.backlog := by
  cases event with
  | peer move =>
      obtain ⟨⟨p', l'⟩, hl', rfl⟩ := Option.map_eq_some_iff.mp hstep
      cases Peer.step?_eq_some_iff.mp hl' with
      | feed => rw [writes, Peer.writes, List.take_append_drop]
      | vanish => exact List.nil_prefix
      | _ => exact List.prefix_refl _
  | deliver => cases hstep; exact List.prefix_refl _
  | inbound => obtain ⟨_, -, rfl⟩ := Option.map_eq_some_iff.mp hstep; exact List.prefix_refl _
  | outbound => obtain ⟨_, -, rfl⟩ := Option.map_eq_some_iff.mp hstep; exact List.prefix_refl _
  | submit => obtain ⟨_, -, rfl⟩ := Option.map_eq_some_iff.mp hstep; exact List.prefix_refl _
  | desert => obtain ⟨_, -, rfl⟩ := Option.map_eq_some_iff.mp hstep; exact List.prefix_refl _

theorem sent_isPrefix (x : Exchange) (events : List Event) :
    x.sent events <+: x.peer.backlog := by
  induction events generalizing x with
  | nil => exact List.nil_prefix
  | cons event rest ih =>
      rw [sent, gather]
      cases hstep : x.step? event with
      | none => exact List.nil_prefix
      | some next =>
          exact ((List.prefix_append_right_inj _).mpr (ih next)).trans
            (writes_append_backlog hstep)

/-- **A connection passes on what was written to it**, read as a stream, up to where reading ends or
fails. -/
theorem passed_isPrefix {id : ConnectionId} {limits : ReplyLimits} {buffer : Nat} {link : Link}
    (hlink : Link.make? id limits buffer = some link) (peer : Peer) (events : List Event) :
    (passed ⟨link, peer⟩ events).map .ok <+: Decoder.all (sent ⟨link, peer⟩ events) := by
  have hfresh : link.Follows [] [] := by
    obtain ⟨replies, -, rfl⟩ := Option.map_eq_some_iff.mp hlink
    exact fun more _ => ⟨_, rfl, fun _ => rfl⟩
  obtain ⟨l, hl⟩ := follows_run (x := ⟨link, peer⟩) hfresh events
  obtain ⟨rest, hall, -⟩ := hl [] fun _ => rfl
  rw [List.append_nil, List.nil_append, List.nil_append] at hall
  rw [hall]
  exact List.prefix_append ..

end

end Exchange

theorem isPrefix_of_map_ok {α ε : Type} {xs ys : List α} {errors : List ε}
    (h : xs.map Except.ok <+: ys.map Except.ok ++ errors.map Except.error) : xs <+: ys := by
  induction xs generalizing ys with
  | nil => exact List.nil_prefix
  | cons x xs ih =>
      cases ys with
      | nil => cases errors <;> simp at h
      | cons y ys =>
          rw [List.map_cons, List.map_cons, List.cons_append, List.cons_prefix_cons] at h
          rw [List.cons_prefix_cons]
          exact ⟨Except.ok.inj h.1, ih h.2⟩

namespace Record

/-- Whether the records of a type come back as they were written: each is one line, no two are the
same line, and a stream of them restores them, wherever it is cut. -/
structure ComeBack (α : Type) [Record α] : Prop where
  line (record : α) : bytes record = text record ++ [0x0A] ∧ 0x0A ∉ text record
  injective : Function.Injective (bytes : α → List UInt8)
  restores (records : List α) (hfits : ∀ record ∈ records, (bytes record).length ≤ maxLineBytes)
    (stream : List UInt8) (hstream : stream <+: records.flatMap bytes) : Restores records stream

theorem comeBack (α : Type) [Record α] [LawfulRecord α] : ComeBack α where
  line record := ⟨bytes_eq record, feed_not_mem_text record⟩
  injective := bytes_injective
  restores _ hfits _ hstream := restores_of_isPrefix hfits hstream

/-- **Reading undoes writing, at every cut of the stream.**  Requests and replies come back from a
stream that ends at any byte: those whose text is in it, in order, and an error behind them if it
ends inside a text.  So a connection whose client sends requests and is cut off anywhere, with
whatever failures and in whichever order everything happens, passes on the first of these requests
and no others. -/
theorem restored_at_every_cut :
    ComeBack Request ∧ ComeBack Reply ∧
    ∀ (requests : List Request),
      (∀ request ∈ requests, (bytes request).length ≤ maxLineBytes) →
      ∀ (id : ConnectionId) (limits : ReplyLimits) (buffer : Nat) (link : Link),
        Link.make? id limits buffer = some link →
        ∀ peer : Peer, peer.backlog <+: requests.flatMap bytes →
          ∀ events : List Exchange.Event, Exchange.passed ⟨link, peer⟩ events <+: requests := by
  refine ⟨comeBack Request, comeBack Reply, ?_⟩
  intro requests hfits id limits buffer link hlink peer hbacklog events
  have hsent := (Exchange.sent_isPrefix ⟨link, peer⟩ events).trans hbacklog
  obtain ⟨count, errors, hall, -⟩ := restores_of_isPrefix hfits hsent
  have hpassed := Exchange.passed_isPrefix hlink peer events
  rw [hall] at hpassed
  exact (isPrefix_of_map_ok hpassed).trans (List.take_prefix ..)

/-- A client that is cut off inside an escape of its second request: the first one is passed on, and
what there is of the second is refused. -/
theorem restored_at_every_cut_escape :
    let requests : List Request := [⟨"lock", "é", none⟩, ⟨"set", "n", some "\x01"⟩]
    let stream := (requests.flatMap bytes).take 64
    let events : List Exchange.Event :=
      [.submit, .peer (.feed 64), .peer .vanish, .inbound .check, .inbound (.fetch 64),
        .inbound .decode, .submit, .inbound .check, .inbound .decode, .inbound .endOfInput,
        .submit, .submit]
    ∃ link, Link.make? ⟨1⟩ ⟨1, 4⟩ 64 = some link ∧
      (∀ request ∈ requests, (bytes request).length ≤ maxLineBytes) ∧
      stream <+: requests.flatMap bytes ∧ Restores requests stream ∧
      (Decoder.all stream : List (Except DecodeError Request))
        = [.ok ⟨"lock", "é", none⟩, .error .notRecord] ∧
      Exchange.passed ⟨link, { backlog := requests.flatMap bytes }⟩ events = requests.take 1 ∧
      Exchange.passed ⟨link, { backlog := requests.flatMap bytes }⟩ events <+: requests := by
  intro requests stream events
  have hfits : ∀ request ∈ requests, (bytes request).length ≤ maxLineBytes := by decide +kernel
  have hstream : stream <+: requests.flatMap bytes := List.take_prefix ..
  have hend : (Link.make? ⟨1⟩ ⟨1, 4⟩ 64).any (fun link =>
      Exchange.passed ⟨link, { backlog := requests.flatMap bytes }⟩ events = requests.take 1)
      = true := by
    decide +kernel
  obtain ⟨link, hlink, hpassed⟩ := (Option.any_eq_true _ _).mp hend
  obtain ⟨hrequests, -, hconnection⟩ := restored_at_every_cut
  exact ⟨link, hlink, hfits, hstream, hrequests.restores requests hfits stream hstream,
    by decide +kernel, of_decide_eq_true hpassed,
    hconnection requests hfits ⟨1⟩ ⟨1, 4⟩ 64 link hlink _ List.prefix_rfl events⟩

end Record

end LockService
