import LockService.Proofs.Load.Runs

/-!
# A measurement gets a reply for every request

The connections of a measurement and the core move in any order.  Whatever that order is, no key is ever
waited for, every request is answered when it is handled, and the measurement comes to an end with as many
replies counted as requests were sent.

There is one limit.  The shared counter is added to by every connection before it is reset by any, so with
2⁶³ connections it can get to where nothing can be added any more.

* `LoadRun.Measured` — what holds of a measurement after a run.
* **`LoadRun.measured_of_run`** — it holds after every run.
* **`LoadRun.exists_refused`** — the limit is real.
-/

namespace LockService

namespace LoadRun

/-! ## Reports -/

theorem failures_foldl_counted (count : Nat) (n : UInt64) (report : LoadReport) :
    ((List.replicate count (.counted n)).foldl LoadReport.add report).failures = report.failures := by
  induction count generalizing report with
  | zero => rfl
  | succ count ih =>
      rw [List.replicate_succ, List.foldl_cons, ih]
      rfl

theorem replies_foldl_counted (count : Nat) (n : UInt64) (report : LoadReport)
    (hsmall : report.replies.toNat + count * n.toNat < 2 ^ 64) :
    ((List.replicate count (.counted n)).foldl LoadReport.add report).replies.toNat
      = report.replies.toNat + count * n.toNat := by
  induction count generalizing report with
  | zero => simp
  | succ count ih =>
      rw [Nat.succ_mul] at hsmall ⊢
      have hadd : (report.add (.counted n)).replies.toNat = report.replies.toNat + n.toNat := by
        show (report.replies + n).toNat = _
        rw [UInt64.toNat_add]
        exact Nat.mod_eq_of_lt (by omega)
      rw [List.replicate_succ, List.foldl_cons, ih _ (by omega), hadd]
      omega

/-- What has come of connections that all have come to the same. -/
theorem mapM_outcome?_eq_replicate {links : List LoadLink} {outcome : LoadOutcome}
    (h : ∀ l ∈ links, outcome? l = some outcome) :
    links.mapM outcome? = some (List.replicate links.length outcome) := by
  induction links with
  | nil => rfl
  | cons first rest ih =>
      rw [List.mapM_cons, h first List.mem_cons_self, ih fun l hl => h l (List.mem_cons_of_mem _ hl)]
      rfl

theorem midPairs_le_length (links : List LoadLink) : midPairs links ≤ links.length := by
  induction links with
  | nil => exact Nat.le_refl 0
  | cons first rest ih =>
      rw [midPairs, List.map_cons, List.sum_cons, List.length_cons]
      rw [midPairs] at ih
      omega

section

variable {w : Workload} {iterations : UInt64} {pipeline : UInt32} {r : LoadRun}

/-! ## Replies -/

/-- **Every request that is handled succeeds**, and an addition tells a value between one and the number
of connections; if it does not succeed then the counter can hold no more. -/
theorem Smooth.exists_reply (h : r.Smooth w iterations pipeline) {position : Nat} {l : LoadLink}
    (hl : r.links[position]? = some l) (hstage : l.stage = .isOpen) {request : Request}
    {rest : List Request} (hrequests : l.requests = request :: rest) :
    let result := r.core.handle ⟨idAt position, .request request⟩
    ∃ reply, result.1 = [⟨idAt position, position, .reply reply⟩] ∧
      r.step? (.request position) = some
        { core := result.2
          links := r.links.set position
            { l with requests := rest, replies := l.replies ++ [reply] } } ∧
      (reply.status = .ok ∧ (request.op = Operation.incr.name →
          ∃ n : Counter, reply = .ofCounter n ∧ 1 ≤ n.val ∧ n.val ≤ r.links.length) ∨
        reply = .ofRefusal .overflow ∧ w = .counter ∧ request.op = Operation.incr.name ∧
          2 ^ 63 ≤ r.links.length ∧
          (r.core.counters.value Workload.sharedCounter).val = 2 ^ 63 - 1) := by
  intro result
  obtain ⟨reply, htold, hanswers, hafter, -⟩ := h.request hl hstage hrequests
  have hrequest := ((h.attended hl).onTrack.requestAt_eq hrequests).1
  have hstep := step?_eq_some_iff.mpr (.request hl hstage hrequests)
  rw [hafter] at hstep
  refine ⟨reply, htold, hstep, ?_⟩
  have hpairs := midPairs_set hl { l with requests := rest, replies := l.replies ++ [reply] }
  have hle := midPairs_le_length
    (r.links.set position { l with requests := rest, replies := l.replies ++ [reply] })
  rw [List.length_set] at hle
  rw [l.answered_concat rest reply] at hpairs
  cases hanswers with
  | own hw =>
      subst hw
      refine .inl ⟨rfl, fun hop => ?_⟩
      rw [hrequest, Workload.requestAt_lock] at hop
      split at hop
      · exact absurd (show Operation.lock.name = Operation.incr.name from hop) (by decide)
      · exact absurd (show Operation.unlock.name = Operation.incr.name from hop) (by decide)
  | @added sum hw hfirst hsum hsame =>
      have hbounds := h.value hw
      exact .inl ⟨rfl, fun _ => ⟨sum, rfl, by omega, by omega⟩⟩
  | full hw hfirst hbefore hsame =>
      have hbounds := h.value hw
      refine .inr ⟨rfl, hw, ?_, by omega, hbefore⟩
      subst hw
      rw [hrequest, Workload.requestAt_counter, if_pos hfirst]
      rfl
  | reset hw hsecond hzero =>
      subst hw
      refine .inl ⟨rfl, fun hop => ?_⟩
      rw [hrequest, Workload.requestAt_counter, if_neg (by omega)] at hop
      exact absurd hop (by decide)

/-! ## The end -/

/-- Wherever a measurement cannot go on, every connection is done and the core knows. -/
theorem Smooth.done_of_stuck (h : r.Smooth w iterations pipeline)
    (hstuck : ∀ move, r.step? move = none) {position : Nat} {l : LoadLink}
    (hl : r.links[position]? = some l) :
    l.stage = .isClosed ∧ ∃ outcome, l.client.phase = .ended outcome := by
  have hnone : ∀ {move r'}, ¬ r.Step move r' := by
    intro move r' hstep
    have hmove := step?_eq_some_iff.mpr hstep
    rw [hstuck] at hmove
    cases hmove
  have hown := h.attended hl
  cases hstage : l.stage with
  | unknown => exact absurd (.opening hl hstage) hnone
  | isClosed => exact ⟨rfl, hown.closed hstage⟩
  | isOpen =>
      have hrequests : l.requests = [] := by
        cases hrequests : l.requests with
        | nil => rfl
        | cons request rest => exact absurd (.request hl hstage hrequests) hnone
      by_cases hdone : ∃ outcome, l.client.phase = .ended outcome
      · obtain ⟨outcome, hdone⟩ := hdone
        exact absurd (.closing hl hstage hrequests hdone) hnone
      · rcases hown.onTrack.exists_step (fun outcome heq => hdone ⟨outcome, heq⟩) with
          ⟨move, l', hstep⟩ | hleft
        · exact absurd (.client hl hstep) hnone
        · exact absurd hrequests hleft

/-- What has come of a connection that is done. -/
theorem Smooth.outcome_eq (h : r.Smooth w iterations pipeline) {l : LoadLink} (hl : l ∈ r.links)
    {outcome : LoadOutcome} (hdone : outcome? l = some outcome) :
    outcome = .counted (UInt64.ofNat (wholePairs iterations)) := by
  obtain ⟨position, hl⟩ := List.getElem?_of_mem hl
  obtain ⟨rfl, -, hreceived, -⟩ :=
    (h.attended hl).onTrack.of_ended (outcome?_eq_some_iff.mp hdone)
  rw [← hreceived, UInt64.ofNat_toNat]

/-- **What a measurement shows**, once every connection is done. -/
theorem Smooth.report_eq (h : r.Smooth w iterations pipeline)
    (hsmall : wholePairs iterations < UInt64.size)
    (hdone : ∀ l ∈ r.links, ∃ outcome, outcome? l = some outcome) :
    ∃ report, r.report? = some report ∧ report.failures = 0 ∧
      (r.links.length * wholePairs iterations < 2 ^ 64 →
        report.replies.toNat = r.links.length * wholePairs iterations) := by
  have hsame : ∀ l ∈ r.links,
      outcome? l = some (.counted (UInt64.ofNat (wholePairs iterations))) := by
    intro l hl
    obtain ⟨outcome, houtcome⟩ := hdone l hl
    rw [houtcome, h.outcome_eq hl houtcome]
  have hwhole : (UInt64.ofNat (wholePairs iterations)).toNat = wholePairs iterations :=
    UInt64.toNat_ofNat_of_lt' hsmall
  refine ⟨_, by rw [report?, mapM_outcome?_eq_replicate hsame, Option.map_some], ?_, fun hfits => ?_⟩
  · exact failures_foldl_counted ..
  · refine (replies_foldl_counted _ _ {} ?_).trans ?_
    · rw [hwhole, show ({} : LoadReport).replies.toNat = 0 from rfl, Nat.zero_add]
      exact hfits
    · rw [hwhole, show ({} : LoadReport).replies.toNat = 0 from rfl, Nat.zero_add]

/-- And all keys are free then. -/
theorem Smooth.queue_eq_nil (h : r.Smooth w iterations pipeline)
    (hdone : ∀ l ∈ r.links, ∃ outcome, outcome? l = some outcome) (key : String) :
    r.core.table.views.queue key = [] := by
  rcases h.queue_cases key with hnone | ⟨position, hposition, rfl, hone⟩
  · exact hnone
  · have hl := List.getElem?_eq_getElem hposition
    obtain ⟨outcome, houtcome⟩ := hdone _ (List.getElem_mem hposition)
    have hown := h.attended hl
    obtain ⟨-, -, -, hanswered, -⟩ := hown.onTrack.of_ended (outcome?_eq_some_iff.mp houtcome)
    have heven : wholePairs iterations % 2 = 0 := by
      rw [wholePairs]
      omega
    rw [hown.queue, Workload.ownQueue, hanswered, if_neg (by omega)]

end

/-! ## Measurements -/

theorem weight_start (w : Workload) (connections : Nat) (iterations : UInt64) (pipeline : UInt32) :
    (start w connections iterations pipeline).weight = connections * (4 * wholePairs iterations + 3) := by
  have hsame : ∀ position, LoadLink.weight { client := .start w position iterations pipeline }
      = 4 * wholePairs iterations + 3 := fun _ => rfl
  rw [weight, start, List.map_map]
  simp [Function.comp_def, hsame]

/-- What holds of a measurement with some connections after some moves.

* `answered` — a request that the core can handle is answered when it is handled, with one message, which
  goes to its sender and to nobody else.  The reply says that it succeeded, and tells a value from one to
  the number of connections if it was an addition — unless the shared counter has been added to 2⁶³ - 1
  times since it was reset, which takes as many connections; then one more addition is refused.
* `unwaited` — nobody waits for a key.
* `sent`, `written` — a connection writes whole pairs, and waits with at most a batch unanswered.
* `ended` — a connection that is done has sent and read as many requests and replies as it was to, rounded
  up to whole pairs.
* `bounded`, `stuck` — no run goes on for ever, and where it cannot go on all connections are done.
* `report` — the report then counts all these replies and no failure, and all keys are free. -/
structure Measured (w : Workload) (connections iterations : UInt64) (pipeline : UInt32)
    (moves : List Move) (r : LoadRun) : Prop where
  length_eq : r.links.length = connections.toNat
  answered : ∀ position l request rest, r.links[position]? = some l → l.stage = .isOpen →
    l.requests = request :: rest →
    let result := r.core.handle ⟨idAt position, .request request⟩
    ∃ reply, result.1 = [⟨idAt position, position, .reply reply⟩] ∧
      r.step? (.request position) = some
        { core := result.2
          links := r.links.set position
            { l with requests := rest, replies := l.replies ++ [reply] } } ∧
      (reply.status = .ok ∧ (request.op = Operation.incr.name →
          ∃ n : Counter, reply = .ofCounter n ∧ 1 ≤ n.val ∧ n.val ≤ connections.toNat) ∨
        reply = .ofRefusal .overflow ∧ w = .counter ∧ request.op = Operation.incr.name ∧
          2 ^ 63 ≤ connections.toNat ∧
          (r.core.counters.value Workload.sharedCounter).val = 2 ^ 63 - 1)
  unwaited : ∀ key, r.core.table.views.waiters key = []
  sent : ∀ l ∈ r.links, l.client.sent.toNat % 2 = 0 ∧
    l.client.received.toNat ≤ l.client.sent.toNat ∧
    l.client.sent.toNat ≤ l.client.received.toNat + 2 * pipeline.toNat
  written : ∀ position l move l', r.links[position]? = some l → stepClient? l move = some l' →
    l'.requests = l.requests ∧ l'.client.sent = l.client.sent ∨
      l'.requests = l.requests ++ w.pair position ∧ l'.client.sent.toNat = l.client.sent.toNat + 2
  ended : ∀ l ∈ r.links, ∀ outcome, outcome? l = some outcome →
    outcome = .counted l.client.received ∧ l.client.sent.toNat = wholePairs iterations ∧
      l.client.received.toNat = wholePairs iterations
  bounded : moves.length ≤ connections.toNat * (4 * wholePairs iterations + 3)
  stuck : (∀ move, r.step? move = none) → ∀ l ∈ r.links,
    l.stage = .isClosed ∧ ∃ outcome, outcome? l = some outcome
  report : (∀ l ∈ r.links, ∃ outcome, outcome? l = some outcome) →
    ∃ report, r.report? = some report ∧ report.failures = 0 ∧
      (connections.toNat * wholePairs iterations < 2 ^ 64 →
        report.replies.toNat = connections.toNat * wholePairs iterations) ∧
      ∀ key, r.core.table.views.holder key = none

/-- **A measurement gets a reply for every request**, whoever moves when. -/
theorem measured_of_run {w : Workload} {connections iterations : UInt64} {pipeline : UInt32}
    (hiterations : iterations.toNat < 2 ^ 64 - 1) (hpipeline : 1 ≤ pipeline.toNat)
    {moves : List Move} {r : LoadRun}
    (hrun : (start w connections.toNat iterations pipeline).run? moves = some r) :
    r.Measured w connections iterations pipeline moves := by
  have hsmall : wholePairs iterations < UInt64.size := by
    rw [wholePairs]
    simp only [UInt64.size]
    omega
  have hstart : (start w connections.toNat iterations pipeline).links.length = connections.toNat := by
    simp [start]
  obtain ⟨h, hlength, hbound⟩ := (smooth_start w connections.toNat iterations pipeline).run hsmall
    hpipeline (by rw [hstart]; exact connections.toNat_lt) hrun
  rw [hstart] at hlength
  rw [weight_start] at hbound
  have honTrack : ∀ l ∈ r.links, ∃ position, l.OnTrack w iterations pipeline position := by
    intro l hl
    obtain ⟨position, hl⟩ := List.getElem?_of_mem hl
    exact ⟨position, (h.attended hl).onTrack⟩
  constructor
  case length_eq => exact hlength
  case answered =>
    intro position l request rest hl hstage hrequests
    rw [← hlength]
    exact h.exists_reply hl hstage hrequests
  case unwaited =>
    intro key
    rw [Views.waiters, ← List.length_eq_zero_iff, List.length_tail]
    exact Nat.sub_eq_zero_of_le (h.length_queue_le key)
  case sent =>
    intro l hl
    obtain ⟨position, htrack⟩ := honTrack l hl
    have hread := htrack.unanswered_eq
    have hlimit := htrack.unanswered_le
    exact ⟨htrack.sent_even, by omega, by omega⟩
  case written =>
    intro position l move l' hl hstep
    have htrack := (h.attended hl).onTrack
    cases LoadLink.step_iff.mp hstep with
    | write hat htakes =>
        refine .inr ⟨?_, (htrack.toNat_sent_writePair hsmall htakes).1⟩
        rw [← htrack.pair_eq]
    | _ => exact .inl ⟨rfl, rfl⟩
  case ended =>
    intro l hl outcome hdone
    obtain ⟨position, htrack⟩ := honTrack l hl
    obtain ⟨houtcome, hsent, hreceived, -⟩ := htrack.of_ended (outcome?_eq_some_iff.mp hdone)
    exact ⟨houtcome, hsent, hreceived⟩
  case bounded => omega
  case stuck =>
    intro hstuck l hl
    obtain ⟨position, hl⟩ := List.getElem?_of_mem hl
    obtain ⟨hstage, outcome, hdone⟩ := h.done_of_stuck hstuck hl
    exact ⟨hstage, outcome, outcome?_eq_some_iff.mpr hdone⟩
  case report =>
    intro hdone
    obtain ⟨report, hreport, hfailures, hreplies⟩ := h.report_eq hsmall hdone
    rw [hlength] at hreplies
    refine ⟨report, hreport, hfailures, hreplies, fun key => ?_⟩
    rw [Views.holder, h.queue_eq_nil hdone, List.head?_nil]

/-- For instance two connections that are to send three requests each and so send four.  In the first
round both add to the counter before it is reset, in the second round one connection goes first. -/
theorem measured_of_run_two :
    let batch (position : Nat) : List Move :=
      [.client position .plan, .client position .write, .client position .await]
    let hearing (position : Nat) : List Move := List.replicate 3 (.client position .hear)
    let before := [.opening 0, .opening 1] ++ batch 0 ++ batch 1 ++ [.request 0]
    let moves := before ++ [.request 1, .request 1, .request 0] ++ hearing 0 ++ hearing 1 ++
      batch 0 ++ [.request 0, .request 0] ++ hearing 0 ++ [.client 0 .plan, .closing 0] ++
      batch 1 ++ [.request 1, .request 1] ++ hearing 1 ++ [.client 1 .plan, .closing 1]
    ∃ r r' report, (start .counter 2 3 1).run? before = some r ∧
      (start .counter 2 3 1).run? moves = some r' ∧
      r.Measured .counter 2 3 1 before ∧ r'.Measured .counter 2 3 1 moves ∧
      (r.core.handle ⟨idAt 1, .request (.ofOperation .incr "counter" (some "1"))⟩).1
        = [⟨idAt 1, 1, .reply ⟨.ok, none, some "2"⟩⟩] ∧
      r'.report? = some report ∧ report.replies.toNat = 8 ∧ report.failures = 0 := by
  intro batch hearing before moves
  have hend : ((start .counter 2 3 1).run? before).any (fun r =>
      ((start .counter 2 3 1).run? moves).any fun r' =>
        (r.core.handle ⟨idAt 1, .request (.ofOperation .incr "counter" (some "1"))⟩).1
          = [⟨idAt 1, 1, .reply ⟨.ok, none, some "2"⟩⟩] ∧
        ∀ l ∈ r'.links, (outcome? l).isSome = true) = true := by
    decide +kernel
  obtain ⟨r, hbefore, hend⟩ := (Option.any_eq_true _ _).mp hend
  obtain ⟨r', hmoves, hend⟩ := (Option.any_eq_true _ _).mp hend
  obtain ⟨htold, hdone⟩ := of_decide_eq_true hend
  have hmeasured : r.Measured .counter 2 3 1 before :=
    measured_of_run (by decide) (by decide) hbefore
  have hmeasured' : r'.Measured .counter 2 3 1 moves :=
    measured_of_run (by decide) (by decide) hmoves
  obtain ⟨report, hreport, hfailures, hreplies, -⟩ :=
    hmeasured'.report fun l hl => Option.isSome_iff_exists.mp (hdone l hl)
  exact ⟨r, r', report, hbefore, hmoves, hmeasured, hmeasured', htold, hreport,
    hreplies (by decide), hfailures⟩

/-! ## The limit of the shared counter -/

theorem run?_cons_of_step {r next : LoadRun} {move : Move} (h : r.Step move next) (rest : List Move) :
    r.run? (move :: rest) = next.run? rest := by
  rw [run?, List.foldlM_cons, step?_eq_some_iff.mpr h]
  rfl

theorem run?_append_of_eq {r next : LoadRun} {moves : List Move} (h : r.run? moves = some next)
    (more : List Move) : r.run? (moves ++ more) = next.run? more := by
  rw [run?] at h
  rw [run?, List.foldlM_append, h]
  rfl

/-- A connection that is to send one request to the shared counter, before it does anything. -/
def idle (position : Nat) : LoadLink :=
  { client := .start .counter position 1 1 }

/-- The same connection when it has opened and written its pair. -/
def ready (position : Nat) : LoadLink where
  client := (LoadClient.start .counter position 1 1).writePair 0
  stage := .isOpen
  requests := Workload.pair .counter position

/-- And when the first request of the pair is answered. -/
def asked (position : Nat) (reply : Reply) : LoadLink :=
  { ready position with
    requests := [.ofOperation .set Workload.sharedCounter (some "0")]
    replies := [reply] }

section

variable {connections : Nat}

theorem getElem?_links_start {position : Nat} (hposition : position < connections) :
    (start .counter connections 1 1).links[position]? = some (idle position) := by
  simp [start, idle, hposition]

/-- A connection gets ready without anybody else, and the counters are as before. -/
theorem exists_ready {r : LoadRun} {position : Nat} (hl : r.links[position]? = some (idle position)) :
    ∃ r', r.run? [.client position .plan, .client position .write, .opening position] = some r' ∧
      r'.links = r.links.set position (ready position) ∧ r'.core.counters = r.core.counters := by
  have hbegin : (idle position).Step .plan
      { client := { (idle position).client with phase := .writing 0 } } :=
    .begin rfl (show (0 : UInt64) < 1 by decide)
  rw [run?_cons_of_step (.client hl hbegin),
    run?_cons_of_step (.client (getElem?_setLink hl _) (.write rfl rfl)), setLink_setLink,
    run?_cons_of_step (.opening (getElem?_setLink hl _) rfl), setLink_setLink]
  exact ⟨_, rfl, rfl, rfl⟩

/-- And then the core handles the first request of its pair. -/
theorem exists_run_asked (hfew : connections < UInt64.size) {moves : List Move} {r : LoadRun}
    (hrun : (start .counter connections 1 1).run? moves = some r) {position : Nat}
    (hl : r.links[position]? = some (idle position)) :
    ∃ more r' reply, (start .counter connections 1 1).run? more = some r' ∧
      r'.links = r.links.set position (asked position reply) ∧
      Workload.counter.Answers 0 (r.core.counters.value Workload.sharedCounter).val
        (r'.core.counters.value Workload.sharedCounter).val reply := by
  obtain ⟨next, hready, hlinks, hcounters⟩ := exists_ready hl
  have hnext : next.links[position]? = some (ready position) := by
    rw [hlinks]
    exact List.getElem?_set_self (List.getElem?_eq_some_iff.mp hl).1
  have hrun' := (run?_append_of_eq hrun _).trans hready
  have hsmooth := ((smooth_start .counter connections 1 1).run (by decide) (by decide)
    (by simpa [start] using hfew) hrun').1
  obtain ⟨reply, -, hanswers, hafter, -⟩ := hsmooth.request hnext rfl rfl
  have hstep : next.Step (.request position) _ := .request hnext rfl rfl
  rw [hafter] at hstep
  have hasked := (run?_append_of_eq hrun' [.request position]).trans (run?_cons_of_step hstep [])
  refine ⟨_, _, reply, hasked, ?_, ?_⟩
  · dsimp only
    rw [hlinks, List.set_set]
    rfl
  · rw [← hcounters]
    exact hanswers

/-- **Any number of connections can add to the shared counter** before one of them resets it, as long as
there are so many and the counter can hold it. -/
theorem exists_run_added (hfew : connections < UInt64.size) {count : Nat} (hcount : count ≤ connections)
    (hholds : count ≤ 2 ^ 63 - 1) :
    ∃ moves r, (start .counter connections 1 1).run? moves = some r ∧
      (r.core.counters.value Workload.sharedCounter).val = count ∧
      ∀ position, count ≤ position → position < connections →
        r.links[position]? = some (idle position) := by
  induction count with
  | zero => exact ⟨[], _, rfl, rfl, fun _ _ hposition => getElem?_links_start hposition⟩
  | succ count ih =>
      obtain ⟨moves, r, hrun, hvalue, hidle⟩ :=
        ih (Nat.le_of_succ_le hcount) (Nat.le_of_succ_le hholds)
      obtain ⟨more, r', reply, hmore, hlinks, hanswers⟩ :=
        exists_run_asked hfew hrun (hidle count (Nat.le_refl _) hcount)
      refine ⟨more, r', hmore, ?_, ?_⟩
      · rw [hvalue] at hanswers
        cases hanswers with
        | own hw => cases hw
        | added _ _ hsum hsame =>
            rw [hsame, hsum]
            rfl
        | full _ _ hbefore _ => omega
        | reset _ hsecond _ => cases hsecond
      · intro position hleft hposition
        rw [hlinks, List.getElem?_set_ne (by omega)]
        exact hidle position (Nat.le_of_succ_le hleft) hposition

/-- **With enough connections an addition is refused**: one of those that come after as many additions as
the counter can hold. -/
theorem exists_run_refused (hfew : connections < UInt64.size) (hmany : 2 ^ 63 ≤ connections) :
    ∃ moves r, (start .counter connections 1 1).run? moves = some r ∧
      ∃ l ∈ r.links, l.replies = [.ofRefusal .overflow] := by
  obtain ⟨full, hfull⟩ : ∃ full, full = 2 ^ 63 - 1 := ⟨_, rfl⟩
  obtain ⟨moves, r, hrun, hvalue, hidle⟩ :=
    exists_run_added hfew (show full ≤ connections by omega) (Nat.le_of_eq hfull)
  have hlast := hidle full (Nat.le_refl _) (by omega)
  obtain ⟨more, r', reply, hmore, hlinks, hanswers⟩ := exists_run_asked hfew hrun hlast
  refine ⟨more, r', hmore, asked full reply, ?_, ?_⟩
  · rw [hlinks]
    exact List.mem_set (List.getElem?_eq_some_iff.mp hlast).1 _
  · rw [hvalue] at hanswers
    cases hanswers with
    | own hw => cases hw
    | @added sum _ _ hsum _ =>
        have hrange := sum.isInRange
        omega
    | full _ _ _ _ => rfl
    | reset _ hsecond _ => cases hsecond

end

/-- For instance one of 2⁶³ connections that are to send one request each. -/
theorem exists_refused : ∃ moves r,
    (start .counter (0x8000000000000000 : UInt64).toNat 1 1).run? moves = some r ∧
      ∃ l ∈ r.links, l.replies = [.ofRefusal .overflow] :=
  exists_run_refused (UInt64.toNat_lt _) (by decide)

end LoadRun

end LockService
