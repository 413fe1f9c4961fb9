import LockService.Load.Run
import Mathlib.Tactic.Common

/-!
# What the connections of a measurement send

A connection of a measurement sends whole pairs until it has sent as many requests as it was told to,
waiting for all replies between two batches.  This file follows one connection by itself.

* `Workload.segment` — the requests that come after some number of them; the pair is repeated for ever.
* `LoadLink.Step` — the moves of a connection, with one constructor for each way in which a move can turn
  out; it says the same as the function that makes them (`LoadLink.step_iff`).
* `LoadLink.OnTrack` — what is kept of a connection: what it has sent is an even number, not more than
  `wholePairs`, and consists of what was answered, what is read, and what is still to be handled.
* `LoadLink.OnTrack.step`, `LoadLink.OnTrack.answer` — its own moves and the answers keep that.
* `LoadLink.OnTrack.of_ended` — so a connection that is done has sent and read exactly `wholePairs`.
-/

namespace LockService

/-! ## The requests -/

namespace Workload

/-- The request that the connection at a position sends next when it has sent some number of them. -/
def requestAt (w : Workload) (position sent : Nat) : Request :=
  (w.pair position).get ⟨sent % 2, by rw [w.length_pair]; exact Nat.mod_lt _ Nat.two_pos⟩

/-- Some requests of the connection at a position: those that come when it has sent some number of
them. -/
def segment (w : Workload) (position : Nat) : Nat → Nat → List Request
  | _, 0 => []
  | sent, count + 1 => w.requestAt position sent :: w.segment position (sent + 1) count

section

variable {w : Workload} {position sent count : Nat}

theorem requestAt_lock : requestAt .lock position sent
    = .ofOperation (if sent % 2 = 0 then .lock else .unlock) (ownKey position) none := by
  rcases Nat.mod_two_eq_zero_or_one sent with heven | hodd
  · simp [requestAt, pair, heven]
  · simp [requestAt, pair, hodd]

theorem requestAt_counter : requestAt .counter position sent
    = if sent % 2 = 0 then .ofOperation .incr sharedCounter (some "1")
      else .ofOperation .set sharedCounter (some "0") := by
  rcases Nat.mod_two_eq_zero_or_one sent with heven | hodd
  · simp [requestAt, pair, heven]
  · simp [requestAt, pair, hodd]

/-- Behind whole pairs comes a whole pair. -/
theorem segment_append_pair (h : (sent + count) % 2 = 0) :
    w.segment position sent count ++ w.pair position = w.segment position sent (count + 2) := by
  induction count generalizing sent with
  | zero =>
      have hsecond : (sent + 1) % 2 = 1 := by omega
      have heven : sent % 2 = 0 := by omega
      cases w <;> simp [segment, requestAt, heven, hsecond, pair]
  | succ count ih => rw [segment, List.cons_append, ih (by omega)]; rfl

end

end Workload

/-- How many requests a connection sends that is to send some number of them: whole pairs. -/
def wholePairs (iterations : UInt64) : Nat :=
  iterations.toNat + iterations.toNat % 2

namespace LoadLink

/-! ## The moves of a connection -/

/-- What a move of a connection can do. -/
inductive Step (l : LoadLink) : LoadMove → LoadLink → Prop
  | begin (hat : l.client.phase = .planning) (hleft : l.client.sent < l.client.iterations) :
      Step l .plan { l with client := { l.client with phase := .writing 0 } }
  | finish (hat : l.client.phase = .planning) (hdone : l.client.iterations ≤ l.client.sent) :
      Step l .plan { l with client := { l.client with phase := .ended (.counted l.client.received) } }
  | write {written : Nat} (hat : l.client.phase = .writing written)
      (htakes : l.client.takesPair written = true) :
      Step l .write
        { l with client := l.client.writePair written, requests := l.requests ++ l.client.pair }
  | await {written : Nat} (hat : l.client.phase = .writing written)
      (hfull : l.client.takesPair written = false) :
      Step l .await { l with client := { l.client with phase := .awaiting written } }
  | resume (hat : l.client.phase = .awaiting 0) :
      Step l .hear { l with client := { l.client with phase := .planning } }
  | hear {left : Nat} {reply : Reply} {rest : List Reply}
      (hat : l.client.phase = .awaiting (left + 1)) (hreplies : l.replies = reply :: rest) :
      Step l .hear
        { l with
          client := { l.client with received := l.client.received + 1, phase := .awaiting left }
          replies := rest }

theorem Step.of_eq {l l' : LoadLink} {move : LoadMove} (h : LoadRun.stepClient? l move = some l') :
    l.Step move l' := by
  cases move with
  | plan =>
      simp only [LoadRun.stepClient?, LoadClient.step?] at h
      split at h
      · next hat =>
        cases h
        by_cases hleft : l.client.sent < l.client.iterations
        · dsimp only
          rw [if_pos hleft, List.append_nil]
          exact .begin hat hleft
        · dsimp only
          rw [if_neg hleft, List.append_nil]
          exact .finish hat (UInt64.not_lt.mp hleft)
      · cases h
  | write =>
      simp only [LoadRun.stepClient?, LoadClient.step?] at h
      split at h
      · next hat =>
        split at h
        · next htakes => cases h; exact .write hat htakes
        · cases h
      · cases h
  | await =>
      simp only [LoadRun.stepClient?, LoadClient.step?] at h
      split at h
      · next hat =>
        split at h
        · cases h
        · next hfull =>
          cases h
          dsimp only
          rw [List.append_nil]
          exact .await hat (Bool.not_eq_true _ ▸ hfull)
      · cases h
  | hear =>
      unfold LoadRun.stepClient? at h
      split at h
      · cases h
      · next hat hreplies =>
        simp only [LoadClient.step?, hat, Option.map_some, Option.some.injEq] at h
        cases h
        exact .hear hat hreplies
      · cases h
      · cases h
      · next hnone hsome =>
        simp only [LoadClient.step?] at h
        split at h
        · next hat =>
          cases h
          dsimp only
          rw [List.append_nil]
          exact .resume hat
        · next left hat =>
          cases hreplies : l.replies with
          | nil => exact (hnone left rfl hat hreplies).elim
          | cons reply rest => exact (hsome left reply rest rfl hat hreplies).elim
        · cases h
  | hearEnd => cases h
  | fail => cases h

theorem Step.eq {l l' : LoadLink} {move : LoadMove} (h : l.Step move l') :
    LoadRun.stepClient? l move = some l' := by
  cases h with
  | begin hat hleft => simp [LoadRun.stepClient?, LoadClient.step?, hat, hleft]
  | finish hat hdone =>
      simp [LoadRun.stepClient?, LoadClient.step?, hat, UInt64.not_lt.mpr hdone]
  | write hat htakes => simp [LoadRun.stepClient?, LoadClient.step?, hat, htakes]
  | await hat hfull => simp [LoadRun.stepClient?, LoadClient.step?, hat, hfull]
  | resume hat => simp [LoadRun.stepClient?, LoadClient.step?, hat]
  | hear hat hreplies => simp [LoadRun.stepClient?, LoadClient.step?, hat, hreplies]

/-- The relation and the function make the same moves of a connection. -/
theorem step_iff {l l' : LoadLink} {move : LoadMove} :
    LoadRun.stepClient? l move = some l' ↔ l.Step move l' :=
  ⟨.of_eq, fun h => h.eq⟩

/-- A connection that is done makes no move. -/
theorem Step.ne_ended {l l' : LoadLink} {move : LoadMove} (h : l.Step move l') (outcome : LoadOutcome) :
    l.client.phase ≠ .ended outcome := by
  intro hended
  cases h <;> simp_all

/-! ## What is kept of a connection -/

/-- How many requests of a connection were answered, whether it has read the replies or not. -/
def answered (l : LoadLink) : Nat :=
  l.client.received.toNat + l.replies.length

theorem answered_concat (l : LoadLink) (rest : List Request) (reply : Reply) :
    ({ l with requests := rest, replies := l.replies ++ [reply] } : LoadLink).answered
      = l.answered + 1 := by
  simp only [answered, List.length_append, List.length_singleton, Nat.add_assoc]

/-- What is kept of the connection at a position.  What it has sent are whole pairs, of which it has read
the replies but for a batch; some of its requests were answered, and those after them are under way. -/
structure OnTrack (w : Workload) (iterations : UInt64) (pipeline : UInt32) (position : Nat)
    (l : LoadLink) : Prop where
  pair_eq : l.client.pair = w.pair position
  iterations_eq : l.client.iterations = iterations
  pipeline_eq : l.client.pipeline = pipeline
  sent_even : l.client.sent.toNat % 2 = 0
  sent_le : l.client.sent.toNat ≤ wholePairs iterations
  sent_eq : l.client.sent.toNat = l.answered + l.requests.length
  unanswered_eq : l.client.sent.toNat = l.client.received.toNat + l.client.unanswered
  unanswered_le : l.client.unanswered ≤ 2 * pipeline.toNat
  requests_eq : l.requests = w.segment position l.answered l.requests.length
  writing : ∀ written, l.client.phase = .writing written →
    written % 2 = 0 ∧ (written = 0 → l.client.sent < iterations)
  ended : ∀ outcome, l.client.phase = .ended outcome →
    outcome = .counted l.client.received ∧ iterations ≤ l.client.sent

section

variable {w : Workload} {iterations : UInt64} {pipeline : UInt32} {position : Nat} {l l' : LoadLink}

theorem onTrack_start (w : Workload) (iterations : UInt64) (pipeline : UInt32) (position : Nat) :
    OnTrack w iterations pipeline position { client := .start w position iterations pipeline } where
  pair_eq := rfl
  iterations_eq := rfl
  pipeline_eq := rfl
  sent_even := rfl
  sent_le := Nat.zero_le _
  sent_eq := rfl
  unanswered_eq := rfl
  unanswered_le := Nat.zero_le _
  requests_eq := rfl
  writing := nofun
  ended := nofun

/-- What the core knows of a connection does not matter here. -/
theorem OnTrack.setStage (h : l.OnTrack w iterations pipeline position) (stage : LoadStage) :
    OnTrack w iterations pipeline position { l with stage } :=
  ⟨h.pair_eq, h.iterations_eq, h.pipeline_eq, h.sent_even, h.sent_le, h.sent_eq, h.unanswered_eq,
    h.unanswered_le, h.requests_eq, h.writing, h.ended⟩

/-- A change of where the connection stands, with nothing sent or read. -/
theorem OnTrack.setPhase (h : l.OnTrack w iterations pipeline position) {phase : LoadPhase}
    (hunanswered : ({ l.client with phase } : LoadClient).unanswered = l.client.unanswered)
    (hwriting : ∀ written, phase = .writing written →
      written % 2 = 0 ∧ (written = 0 → l.client.sent < iterations))
    (hended : ∀ outcome, phase = .ended outcome →
      outcome = .counted l.client.received ∧ iterations ≤ l.client.sent) :
    OnTrack w iterations pipeline position { l with client := { l.client with phase } } where
  pair_eq := h.pair_eq
  iterations_eq := h.iterations_eq
  pipeline_eq := h.pipeline_eq
  sent_even := h.sent_even
  sent_le := h.sent_le
  sent_eq := h.sent_eq
  unanswered_eq := hunanswered ▸ h.unanswered_eq
  unanswered_le := hunanswered ▸ h.unanswered_le
  requests_eq := h.requests_eq
  writing := hwriting
  ended := hended

/-- A pair is written only if it belongs to the whole pairs, and its number does not wrap. -/
theorem OnTrack.toNat_sent_writePair (h : l.OnTrack w iterations pipeline position)
    (hsmall : wholePairs iterations < UInt64.size) {written : Nat}
    (htakes : l.client.takesPair written = true) :
    (l.client.writePair written).sent.toNat = l.client.sent.toNat + 2 ∧
      l.client.sent.toNat + 2 ≤ wholePairs iterations := by
  have hleft := (of_decide_eq_true htakes).1
  rw [h.iterations_eq, UInt64.lt_iff_toNat_lt] at hleft
  have heven := h.sent_even
  have hle : l.client.sent.toNat + 2 ≤ wholePairs iterations := by
    rw [wholePairs]
    omega
  refine ⟨?_, hle⟩
  show (l.client.sent + UInt64.ofNat l.client.pair.length).toNat = _
  rw [h.pair_eq, w.length_pair, UInt64.toNat_add]
  exact Nat.mod_eq_of_lt (Nat.lt_of_le_of_lt hle hsmall)

/-- One more pair is written. -/
theorem OnTrack.write (h : l.OnTrack w iterations pipeline position)
    (hsmall : wholePairs iterations < UInt64.size) {written : Nat}
    (hat : l.client.phase = .writing written) (htakes : l.client.takesPair written = true) :
    OnTrack w iterations pipeline position
      { l with client := l.client.writePair written, requests := l.requests ++ l.client.pair } := by
  obtain ⟨hsent, hle⟩ := h.toNat_sent_writePair hsmall htakes
  have hlength : l.client.pair.length = 2 := by rw [h.pair_eq, w.length_pair]
  have hroom := (of_decide_eq_true htakes).2
  rw [LoadClient.batchLimit, hlength, h.pipeline_eq] at hroom
  have hwritten := (h.writing written hat).1
  have hunanswered : l.client.unanswered = written := by simp [LoadClient.unanswered, hat]
  have hphase : (l.client.writePair written).phase = .writing (written + 2) := by
    rw [← hlength]
    rfl
  have heven := h.sent_even
  have htotal := h.sent_eq
  constructor
  case pair_eq => exact h.pair_eq
  case iterations_eq => exact h.iterations_eq
  case pipeline_eq => exact h.pipeline_eq
  case sent_even =>
    rw [hsent]
    omega
  case sent_le =>
    rw [hsent]
    exact hle
  case sent_eq =>
    rw [hsent, List.length_append, hlength, h.sent_eq]
    rfl
  case unanswered_eq =>
    have hread := h.unanswered_eq
    rw [hunanswered] at hread
    simp only [LoadClient.unanswered, hphase, hsent, hread]
    rfl
  case unanswered_le =>
    simp only [LoadClient.unanswered, hphase]
    omega
  case requests_eq =>
    rw [List.length_append, hlength, h.pair_eq]
    show l.requests ++ w.pair position = w.segment position l.answered (l.requests.length + 2)
    rw [← Workload.segment_append_pair (by omega), ← h.requests_eq]
  case writing =>
    intro more hmore
    rw [hphase] at hmore
    cases hmore
    exact ⟨by omega, by omega⟩
  case ended =>
    intro outcome houtcome
    rw [hphase] at houtcome
    cases houtcome

/-- The number of replies read does not wrap. -/
theorem OnTrack.toNat_received_add_one (h : l.OnTrack w iterations pipeline position)
    (hsmall : wholePairs iterations < UInt64.size) {left : Nat}
    (hat : l.client.phase = .awaiting (left + 1)) :
    (l.client.received + 1).toNat = l.client.received.toNat + 1 := by
  have hread := h.unanswered_eq
  have hsent := h.sent_le
  have hunanswered : l.client.unanswered = left + 1 := by simp [LoadClient.unanswered, hat]
  rw [UInt64.toNat_add]
  exact Nat.mod_eq_of_lt (Nat.lt_of_le_of_lt (by rw [UInt64.toNat_one]; omega) hsmall)

/-- One more reply is read. -/
theorem OnTrack.hear (h : l.OnTrack w iterations pipeline position)
    (hsmall : wholePairs iterations < UInt64.size) {left : Nat} {reply : Reply} {rest : List Reply}
    (hat : l.client.phase = .awaiting (left + 1)) (hreplies : l.replies = reply :: rest) :
    OnTrack w iterations pipeline position
      { l with
        client := { l.client with received := l.client.received + 1, phase := .awaiting left }
        replies := rest } := by
  have hunanswered : l.client.unanswered = left + 1 := by simp [LoadClient.unanswered, hat]
  have hread := h.unanswered_eq
  have hlimit := h.unanswered_le
  rw [hunanswered] at hread hlimit
  have hreceived := h.toNat_received_add_one hsmall hat
  have hanswered : (l.client.received + 1).toNat + rest.length = l.answered := by
    rw [hreceived, answered, hreplies, List.length_cons]
    omega
  constructor
  case pair_eq => exact h.pair_eq
  case iterations_eq => exact h.iterations_eq
  case pipeline_eq => exact h.pipeline_eq
  case sent_even => exact h.sent_even
  case sent_le => exact h.sent_le
  case sent_eq =>
    show l.client.sent.toNat = (l.client.received + 1).toNat + rest.length + l.requests.length
    rw [hanswered, h.sent_eq]
  case unanswered_eq =>
    show l.client.sent.toNat = (l.client.received + 1).toNat + left
    rw [hreceived]
    omega
  case unanswered_le => exact Nat.le_of_succ_le hlimit
  case requests_eq =>
    show l.requests
      = w.segment position ((l.client.received + 1).toNat + rest.length) l.requests.length
    rw [hanswered, ← h.requests_eq]
  case writing => nofun
  case ended => nofun

/-- **The moves of a connection.** -/
theorem OnTrack.step (h : l.OnTrack w iterations pipeline position)
    (hsmall : wholePairs iterations < UInt64.size) {move : LoadMove} (hstep : l.Step move l') :
    OnTrack w iterations pipeline position l' := by
  cases hstep with
  | begin hat hleft =>
      refine h.setPhase ?_ (fun written heq => ?_) nofun
      · simp [LoadClient.unanswered, hat]
      · cases heq
        exact ⟨rfl, fun _ => h.iterations_eq ▸ hleft⟩
  | finish hat hdone =>
      refine h.setPhase ?_ nofun fun outcome heq => ?_
      · simp [LoadClient.unanswered, hat]
      · cases heq
        exact ⟨rfl, h.iterations_eq ▸ hdone⟩
  | write hat htakes => exact h.write hsmall hat htakes
  | await hat =>
      refine h.setPhase ?_ nofun nofun
      simp [LoadClient.unanswered, hat]
  | resume hat =>
      refine h.setPhase ?_ nofun nofun
      simp [LoadClient.unanswered, hat]
  | hear hat hreplies => exact h.hear hsmall hat hreplies

/-- They leave as many requests answered, and do not concern the core. -/
theorem OnTrack.step_frame (h : l.OnTrack w iterations pipeline position)
    (hsmall : wholePairs iterations < UInt64.size) {move : LoadMove} (hstep : l.Step move l') :
    l'.answered = l.answered ∧ l'.stage = l.stage := by
  cases hstep with
  | hear hat hreplies =>
      refine ⟨?_, rfl⟩
      simp only [answered, h.toNat_received_add_one hsmall hat, hreplies, List.length_cons]
      omega
  | _ => exact ⟨rfl, rfl⟩

/-- The next request that the core handles is the one that comes after those that were answered. -/
theorem OnTrack.requestAt_eq (h : l.OnTrack w iterations pipeline position) {request : Request}
    {rest : List Request} (hrequests : l.requests = request :: rest) :
    request = w.requestAt position l.answered ∧
      rest = w.segment position (l.answered + 1) rest.length := by
  have heq := h.requests_eq
  rw [hrequests, List.length_cons, Workload.segment, List.cons.injEq] at heq
  exact heq

/-- **One more request is answered.** -/
theorem OnTrack.answer (h : l.OnTrack w iterations pipeline position) {request : Request}
    {rest : List Request} (hrequests : l.requests = request :: rest) (reply : Reply) :
    OnTrack w iterations pipeline position
      { l with requests := rest, replies := l.replies ++ [reply] } where
  pair_eq := h.pair_eq
  iterations_eq := h.iterations_eq
  pipeline_eq := h.pipeline_eq
  sent_even := h.sent_even
  sent_le := h.sent_le
  sent_eq := by
    have heq := h.sent_eq
    rw [hrequests, List.length_cons] at heq
    rw [answered_concat]
    show l.client.sent.toNat = l.answered + 1 + rest.length
    omega
  unanswered_eq := h.unanswered_eq
  unanswered_le := h.unanswered_le
  requests_eq := by
    rw [answered_concat]
    exact (h.requestAt_eq hrequests).2
  writing := h.writing
  ended := h.ended

/-- **A connection that is done** has sent as many whole pairs as it was to, and all were answered. -/
theorem OnTrack.of_ended (h : l.OnTrack w iterations pipeline position) {outcome : LoadOutcome}
    (hat : l.client.phase = .ended outcome) :
    outcome = .counted l.client.received ∧ l.client.sent.toNat = wholePairs iterations ∧
      l.client.received.toNat = wholePairs iterations ∧ l.answered = wholePairs iterations ∧
      l.requests = [] ∧ l.replies = [] := by
  obtain ⟨houtcome, hdone⟩ := h.ended outcome hat
  have hunanswered : l.client.unanswered = 0 := by simp [LoadClient.unanswered, hat]
  have hread := h.unanswered_eq
  have hsent := h.sent_eq
  have hle := h.sent_le
  have heven := h.sent_even
  rw [UInt64.le_iff_toNat_le] at hdone
  rw [answered] at hsent ⊢
  rw [wholePairs] at hle ⊢
  refine ⟨houtcome, by omega, by omega, by omega, ?_, ?_⟩
  · exact List.length_eq_zero_iff.mp (by omega)
  · exact List.length_eq_zero_iff.mp (by omega)

end

end LoadLink

/-! ## What is left to do -/

/-- What is left to do in a batch, beside writing it. -/
def LoadPhase.weight : LoadPhase → Nat
  | planning => 1
  | writing 0 => 0
  | writing (written + 1) => written + 4
  | awaiting left => left + 2
  | ended _ => 0

/-- How often the core has still to hear that a connection opens or closes. -/
def LoadStage.weight : LoadStage → Nat
  | unknown => 2
  | isOpen => 1
  | isClosed => 0

namespace LoadLink

/-- How much is left to do for a connection.  The replies that it has still to read do not matter, so
what is delivered to it does not change this. -/
def weight (l : LoadLink) : Nat :=
  4 * (wholePairs l.client.iterations - l.client.sent.toNat) + l.client.phase.weight
    + l.requests.length + l.stage.weight

section

variable {w : Workload} {iterations : UInt64} {pipeline : UInt32} {position : Nat} {l l' : LoadLink}

/-- **Every move of a connection leaves less to do.** -/
theorem OnTrack.weight_lt (h : l.OnTrack w iterations pipeline position)
    (hsmall : wholePairs iterations < UInt64.size) (hpipeline : 1 ≤ pipeline.toNat) {move : LoadMove}
    (hstep : l.Step move l') : l'.weight < l.weight := by
  cases hstep with
  | begin hat => simp [weight, hat, LoadPhase.weight]
  | finish hat => simp [weight, hat, LoadPhase.weight]
  | @write written hat htakes =>
      obtain ⟨hsent, hle⟩ := h.toNat_sent_writePair hsmall htakes
      have hlength : l.client.pair.length = 2 := by rw [h.pair_eq, w.length_pair]
      have hphase : (l.client.writePair written).phase.weight = written + 5 := by
        show (LoadPhase.writing (written + l.client.pair.length)).weight = _
        rw [hlength]
        rfl
      have hbefore : written ≤ l.client.phase.weight := by
        rw [hat]
        cases written <;> simp only [LoadPhase.weight] <;> omega
      show 4 * (wholePairs l.client.iterations - (l.client.writePair written).sent.toNat)
          + (l.client.writePair written).phase.weight + (l.requests ++ l.client.pair).length + l.stage.weight
        < _
      rw [weight, h.iterations_eq, hsent, hphase, List.length_append, hlength]
      omega
  | @await written hat hfull =>
      cases written with
      | zero =>
          -- the first pair of a batch finds a place in it
          have hleft := (h.writing 0 hat).2 rfl
          have hlength : l.client.pair.length = 2 := by rw [h.pair_eq, w.length_pair]
          refine absurd (decide_eq_true ⟨h.iterations_eq ▸ hleft, ?_⟩) (Bool.not_eq_true _ ▸ hfull)
          rw [LoadClient.batchLimit, hlength, h.pipeline_eq]
          omega
      | succ written => simp [weight, hat, LoadPhase.weight]
  | resume hat => simp [weight, hat, LoadPhase.weight]
  | hear hat => simp [weight, hat, LoadPhase.weight]

/-- A connection that is not done can make a move, or the core has a request of it to handle. -/
theorem OnTrack.exists_step (h : l.OnTrack w iterations pipeline position)
    (hopen : ∀ outcome, l.client.phase ≠ .ended outcome) :
    (∃ move l', l.Step move l') ∨ l.requests ≠ [] := by
  cases hat : l.client.phase with
  | planning =>
      by_cases hleft : l.client.sent < l.client.iterations
      · exact .inl ⟨_, _, .begin hat hleft⟩
      · exact .inl ⟨_, _, .finish hat (UInt64.not_lt.mp hleft)⟩
  | writing written =>
      cases htakes : l.client.takesPair written with
      | true => exact .inl ⟨_, _, .write hat htakes⟩
      | false => exact .inl ⟨_, _, .await hat htakes⟩
  | awaiting left =>
      cases left with
      | zero => exact .inl ⟨_, _, .resume hat⟩
      | succ left =>
          cases hreplies : l.replies with
          | cons reply rest => exact .inl ⟨_, _, .hear hat hreplies⟩
          | nil =>
              -- what is unanswered is not read, so it was not handled
              refine .inr fun hnone => ?_
              have hsent := h.sent_eq
              have hread := h.unanswered_eq
              simp only [answered, hreplies, hnone, List.length_nil] at hsent
              simp only [LoadClient.unanswered, hat] at hread
              omega
  | ended outcome => exact absurd hat (hopen outcome)

end

end LoadLink

end LockService
