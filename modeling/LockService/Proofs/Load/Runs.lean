import LockService.Proofs.Load.Answers

/-!
# The moves of a measurement

Many connections and one core move in any order.  A step is the business of one connection: nobody else's
requests or replies change, and the core keeps of the others what it had.

* `LoadRun.Step` — the moves, with one constructor for each; it says the same as the function that makes
  them (`LoadRun.step?_eq_some_iff`).
* `LoadRun.Attended` — what is kept of a connection and of what the core has of it.
* `LoadRun.Smooth` — what is kept of a measurement: that of each connection, no key is in use beside the
  connections' own, and the shared counter reads no more than there are connections between the two
  requests of a pair.
* `LoadRun.Smooth.step` — a move keeps that and leaves less to do.
* **`LoadRun.Smooth.run`** — so every run keeps it, and comes to an end.
-/

namespace LockService

namespace LoadRun

/-! ## The moves of a measurement -/

/-- What a move in a measurement can do. -/
inductive Step (r : LoadRun) : Move → LoadRun → Prop
  | client {position : Nat} {move : LoadMove} {l l' : LoadLink} (hl : r.links[position]? = some l)
      (hstep : l.Step move l') : Step r (.client position move) (r.setLink position l')
  | opening {position : Nat} {l : LoadLink} (hl : r.links[position]? = some l)
      (hstage : l.stage = .unknown) :
      Step r (.opening position)
        ((r.setLink position { l with stage := .isOpen }).handle position (.opening position))
  | request {position : Nat} {l : LoadLink} {request : Request} {rest : List Request}
      (hl : r.links[position]? = some l) (hstage : l.stage = .isOpen)
      (hrequests : l.requests = request :: rest) :
      Step r (.request position)
        ((r.setLink position { l with requests := rest }).handle position (.request request))
  | closing {position : Nat} {l : LoadLink} {outcome : LoadOutcome}
      (hl : r.links[position]? = some l) (hstage : l.stage = .isOpen) (hrequests : l.requests = [])
      (hdone : l.client.phase = .ended outcome) :
      Step r (.closing position)
        ((r.setLink position { l with stage := .isClosed }).handle position .closing)

theorem outcome?_eq_some_iff {l : LoadLink} {outcome : LoadOutcome} :
    outcome? l = some outcome ↔ l.client.phase = .ended outcome := by
  unfold outcome?
  split <;> simp_all

/-- The relation and the function make the same moves of a measurement. -/
theorem step?_eq_some_iff {r r' : LoadRun} {move : Move} :
    r.step? move = some r' ↔ r.Step move r' := by
  constructor
  · intro h
    cases move with
    | client position move =>
        obtain ⟨l, hl, h⟩ := Option.bind_eq_some_iff.mp h
        obtain ⟨l', hstep, rfl⟩ := Option.map_eq_some_iff.mp h
        exact .client hl (LoadLink.step_iff.mp hstep)
    | opening position =>
        obtain ⟨l, hl, h⟩ := Option.bind_eq_some_iff.mp h
        split at h
        · next hstage => cases h; exact .opening hl hstage
        · cases h
    | request position =>
        obtain ⟨l, hl, h⟩ := Option.bind_eq_some_iff.mp h
        split at h
        · next hstage hrequests => cases h; exact .request hl hstage hrequests
        · cases h
    | closing position =>
        obtain ⟨l, hl, h⟩ := Option.bind_eq_some_iff.mp h
        split at h
        · next hdone =>
          obtain ⟨hstage, hrequests, hdone⟩ := hdone
          obtain ⟨outcome, houtcome⟩ := Option.isSome_iff_exists.mp hdone
          cases h
          exact .closing hl hstage (List.isEmpty_iff.mp hrequests) (outcome?_eq_some_iff.mp houtcome)
        · cases h
  · intro h
    cases h with
    | client hl hstep => simp [step?, hl, LoadLink.step_iff.mpr hstep]
    | opening hl hstage => simp [step?, hl, hstage]
    | request hl hstage hrequests => simp [step?, hl, hstage, hrequests]
    | closing hl hstage hrequests hdone =>
        simp [step?, hl, hstage, hrequests, outcome?_eq_some_iff.mpr hdone]

/-- The measurement after the core has handled something and told its sender one thing only. -/
theorem handle_setLink_of_eq_singleton {r : LoadRun} {position : Nat} {l : LoadLink}
    {command : Command Nat} {message : Outbound}
    (h : (r.core.handle ⟨idAt position, command⟩).1 = [⟨idAt position, position, message⟩]) :
    (r.setLink position l).handle position command
      = { core := (r.core.handle ⟨idAt position, command⟩).2
          links := r.links.set position (receive message l) } := by
  have hlinks : (r.links.set position l).modify position (receive message)
      = r.links.set position (receive message l) := by
    simp [List.set_eq_modify, List.modify_modify_eq, Function.comp_def]
  simp only [handle, setLink, h, List.foldl_cons, List.foldl_nil, hlinks]

theorem setLink_setLink (r : LoadRun) (position : Nat) (l l' : LoadLink) :
    (r.setLink position l).setLink position l' = r.setLink position l' := by
  rw [setLink, setLink, setLink, List.set_set]

theorem getElem?_setLink {r : LoadRun} {position : Nat} {l : LoadLink}
    (hl : r.links[position]? = some l) (l' : LoadLink) :
    (r.setLink position l').links[position]? = some l' :=
  List.getElem?_set_self (List.getElem?_eq_some_iff.mp hl).1

/-! ## What is kept of a measurement -/

/-- A sum over all connections when one of them is exchanged. -/
theorem sum_map_set {α : Type} (f : α → Nat) {xs : List α} {i : Nat} {x : α} (hx : xs[i]? = some x)
    (y : α) : ((xs.set i y).map f).sum + f x = (xs.map f).sum + f y := by
  induction xs generalizing i with
  | nil => cases hx
  | cons first rest ih =>
      cases i with
      | zero =>
          cases hx
          simp only [List.set_cons_zero, List.map_cons, List.sum_cons]
          omega
      | succ i =>
          have hrest := ih (List.getElem?_cons_succ ▸ hx)
          simp only [List.set_cons_succ, List.map_cons, List.sum_cons]
          omega

theorem idAt_inj {p q : Nat} (hp : p < UInt64.size) (hq : q < UInt64.size) (h : idAt p = idAt q) :
    p = q :=
  ConnectionId.ofPosition_inj hp hq h

/-- How many connections are between the two requests of a pair: the core has answered the first one
last. -/
def midPairs (links : List LoadLink) : Nat :=
  (links.map (·.answered % 2)).sum

/-- What is kept of one connection and of what the core has of it: it can be reached while it is open, it
was answered nothing before and everything afterwards, and it holds its own key exactly between the two
requests of a pair. -/
structure Attended (w : Workload) (iterations : UInt64) (pipeline : UInt32) (core : Core Nat)
    (position : Nat) (l : LoadLink) : Prop where
  onTrack : l.OnTrack w iterations pipeline position
  unknown : l.stage = .unknown → l.answered = 0
  closed : l.stage = .isClosed → ∃ outcome, l.client.phase = .ended outcome
  replier : core.repliers[idAt position]? = if l.stage = .isOpen then some position else none
  queue : core.table.views.queue (Workload.ownKey position) = w.ownQueue position l.answered

/-- What is kept of a measurement: that of each connection, all other keys are free, and the shared counter
reads no more than there are connections between the two requests of a pair. -/
structure Smooth (w : Workload) (iterations : UInt64) (pipeline : UInt32) (r : LoadRun) : Prop where
  attended : ∀ {position : Nat} {l : LoadLink}, r.links[position]? = some l →
    Attended w iterations pipeline r.core position l
  unqueued : ∀ key, (∀ position < r.links.length, Workload.ownKey position ≠ key) →
    r.core.table.views.queue key = []
  value : w = .counter → 0 ≤ (r.core.counters.value Workload.sharedCounter).val ∧
    (r.core.counters.value Workload.sharedCounter).val ≤ midPairs r.links

section

variable {w : Workload} {iterations : UInt64} {pipeline : UInt32} {r : LoadRun}

theorem Attended.congr {core core' : Core Nat} {position : Nat} {l : LoadLink}
    (h : Attended w iterations pipeline core position l)
    (hreplier : core'.repliers[idAt position]? = core.repliers[idAt position]?)
    (hqueue : core'.table.views.queue (Workload.ownKey position)
      = core.table.views.queue (Workload.ownKey position)) :
    Attended w iterations pipeline core' position l :=
  ⟨h.onTrack, h.unknown, h.closed, hreplier.trans h.replier, hqueue.trans h.queue⟩

/-- Every queue is empty or that of somebody's own key, held by its owner. -/
theorem Smooth.queue_cases (h : r.Smooth w iterations pipeline) (key : String) :
    r.core.table.views.queue key = [] ∨ ∃ position < r.links.length,
      Workload.ownKey position = key ∧ r.core.table.views.queue key = [idAt position] := by
  by_cases hkey : ∃ position < r.links.length, Workload.ownKey position = key
  · obtain ⟨position, hposition, rfl⟩ := hkey
    have hqueue := (h.attended (List.getElem?_eq_getElem hposition)).queue
    rw [Workload.ownQueue] at hqueue
    split at hqueue
    · exact .inr ⟨position, hposition, rfl, hqueue⟩
    · exact .inl hqueue
  · exact .inl (h.unqueued key fun position hposition heq => hkey ⟨position, hposition, heq⟩)

theorem Smooth.length_queue_le (h : r.Smooth w iterations pipeline) (key : String) :
    (r.core.table.views.queue key).length ≤ 1 := by
  rcases h.queue_cases key with hnone | ⟨position, -, -, hone⟩
  · rw [hnone]
    exact Nat.zero_le 1
  · rw [hone]
    exact Nat.le_refl 1

/-- One connection and what the core has of it change; everybody else is as before. -/
theorem Smooth.update (h : r.Smooth w iterations pipeline) {core : Core Nat} {position : Nat}
    {l : LoadLink} (hposition : position < r.links.length)
    (hown : Attended w iterations pipeline core position l)
    (hrepliers : ∀ q < r.links.length, q ≠ position →
      core.repliers[idAt q]? = r.core.repliers[idAt q]?)
    (hqueue : ∀ key, Workload.ownKey position ≠ key →
      core.table.views.queue key = r.core.table.views.queue key)
    (hvalue : w = .counter → 0 ≤ (core.counters.value Workload.sharedCounter).val ∧
      (core.counters.value Workload.sharedCounter).val ≤ midPairs (r.links.set position l)) :
    Smooth w iterations pipeline { core, links := r.links.set position l } where
  attended := by
    intro q m hm
    rw [List.getElem?_set] at hm
    split at hm
    · next hq =>
      rw [← hq, ← Option.some.inj hm]
      exact hown
    · next hq =>
      have hlt := (List.getElem?_eq_some_iff.mp hm).1
      refine (h.attended hm).congr (hrepliers q hlt (Ne.symm hq)) (hqueue _ fun heq => hq ?_)
      exact Workload.ownKey_injective heq
  unqueued := by
    intro key hkey
    dsimp only at hkey ⊢
    rw [List.length_set] at hkey
    rw [hqueue key (hkey position hposition), h.unqueued key hkey]
  value := hvalue

theorem midPairs_set {links : List LoadLink} {position : Nat} {l : LoadLink}
    (hl : links[position]? = some l) (l' : LoadLink) :
    midPairs (links.set position l') + l.answered % 2 = midPairs links + l'.answered % 2 :=
  sum_map_set (·.answered % 2) hl l'

theorem midPairs_set_of_answered_eq {links : List LoadLink} {position : Nat} {l : LoadLink}
    (hl : links[position]? = some l) (l' : LoadLink) (h : l'.answered = l.answered) :
    midPairs (links.set position l') = midPairs links := by
  have hsum := midPairs_set hl l'
  rw [h] at hsum
  exact Nat.add_right_cancel hsum

/-! ## One move -/

/-- A connection goes on by itself. -/
theorem Smooth.client (h : r.Smooth w iterations pipeline)
    (hsmall : wholePairs iterations < UInt64.size) {position : Nat} {move : LoadMove} {l l' : LoadLink}
    (hl : r.links[position]? = some l) (hstep : l.Step move l') :
    (r.setLink position l').Smooth w iterations pipeline := by
  have hown := h.attended hl
  obtain ⟨hanswered, hstage⟩ := hown.onTrack.step_frame hsmall hstep
  refine h.update (List.getElem?_eq_some_iff.mp hl).1 ?_ (fun _ _ _ => rfl) (fun _ _ => rfl) ?_
  · refine ⟨hown.onTrack.step hsmall hstep, ?_, ?_, ?_, ?_⟩
    · rw [hstage, hanswered]
      exact hown.unknown
    · rw [hstage]
      intro hclosed
      obtain ⟨outcome, hended⟩ := hown.closed hclosed
      exact absurd hended (hstep.ne_ended outcome)
    · rw [hstage]
      exact hown.replier
    · rw [hanswered]
      exact hown.queue
  · rw [midPairs_set_of_answered_eq hl l' hanswered]
    exact h.value

/-- The core handles the opening of a connection, and tells nobody. -/
theorem Smooth.opening (h : r.Smooth w iterations pipeline) (hfew : r.links.length < UInt64.size)
    {position : Nat} {l : LoadLink} (hl : r.links[position]? = some l) :
    ((r.setLink position { l with stage := .isOpen }).handle position (.opening position)).Smooth w
      iterations pipeline := by
  have hposition := (List.getElem?_eq_some_iff.mp hl).1
  have hown := h.attended hl
  have hrepliers := r.core.repliers_handle ⟨idAt position, .opening position⟩
  have hqueue := r.core.queue_handle ⟨idAt position, .opening position⟩
  have hafter : (r.setLink position { l with stage := .isOpen }).handle position (.opening position)
      = { core := (r.core.handle ⟨idAt position, .opening position⟩).2
          links := r.links.set position { l with stage := .isOpen } } := rfl
  rw [hafter]
  refine h.update hposition ⟨hown.onTrack.setStage _, by simp, by simp, ?_, ?_⟩ ?_ ?_ ?_
  · exact (hrepliers _).trans (by simp)
  · exact (hqueue _).trans hown.queue
  · intro q hq hne
    refine (hrepliers _).trans (if_neg fun heq => hne ?_)
    exact (idAt_inj (hposition.trans hfew) (hq.trans hfew) heq).symm
  · exact fun key _ => hqueue key
  · rw [midPairs_set_of_answered_eq hl { l with stage := .isOpen } rfl]
    exact h.value

/-- **The core handles a request**, and tells its sender the answer and nobody else anything. -/
theorem Smooth.request (h : r.Smooth w iterations pipeline) {position : Nat} {l : LoadLink}
    (hl : r.links[position]? = some l) (hstage : l.stage = .isOpen) {request : Request}
    {rest : List Request} (hrequests : l.requests = request :: rest) :
    let result := r.core.handle ⟨idAt position, .request request⟩
    ∃ reply,
      result.1 = [⟨idAt position, position, .reply reply⟩] ∧
      w.Answers l.answered (r.core.counters.value Workload.sharedCounter).val
        (result.2.counters.value Workload.sharedCounter).val reply ∧
      (r.setLink position { l with requests := rest }).handle position (.request request)
        = { core := result.2
            links := r.links.set position
              { l with requests := rest, replies := l.replies ++ [reply] } } ∧
      ((r.setLink position { l with requests := rest }).handle position (.request request)).Smooth w
        iterations pipeline := by
  intro result
  have hposition := (List.getElem?_eq_some_iff.mp hl).1
  have hown := h.attended hl
  have hrequest : (⟨idAt position, .request request⟩ : Envelope Nat)
      = ⟨idAt position, .request (w.requestAt position l.answered)⟩ := by
    rw [(hown.onTrack.requestAt_eq hrequests).1]
  obtain ⟨reply, htold, hanswers, hqueue⟩ := Workload.exists_answer hrequest hown.queue
  have hreached : r.core.repliers[idAt position]? = some position := by
    rw [hown.replier, if_pos hstage]
  rw [Core.reply, Core.send, hreached] at htold
  have hafter : (r.setLink position { l with requests := rest }).handle position (.request request)
      = { core := result.2
          links := r.links.set position
            { l with requests := rest, replies := l.replies ++ [reply] } } :=
    handle_setLink_of_eq_singleton htold
  have hrepliers := r.core.repliers_handle ⟨idAt position, .request request⟩
  have hmore := l.answered_concat rest reply
  refine ⟨reply, htold, hanswers, hafter, ?_⟩
  rw [hafter]
  refine h.update hposition ⟨hown.onTrack.answer hrequests reply, ?_, ?_, ?_, ?_⟩
    (fun q _ _ => hrepliers _) ?_ fun hw => ?_
  · exact fun hunknown => absurd (hstage.symm.trans hunknown) (by decide)
  · exact fun hclosed => absurd (hstage.symm.trans hclosed) (by decide)
  · exact (hrepliers _).trans hown.replier
  · rw [hqueue, if_pos rfl, hmore]
  · intro key hkey
    rw [hqueue, if_neg hkey]
  · have hpairs := midPairs_set hl { l with requests := rest, replies := l.replies ++ [reply] }
    have hvalue := h.value hw
    rw [hmore] at hpairs
    show 0 ≤ ((r.core.handle ⟨idAt position, .request request⟩).2.counters.value _).val ∧
      ((r.core.handle ⟨idAt position, .request request⟩).2.counters.value _).val ≤ _
    cases hanswers with
    | own hlock => exact absurd (hlock.symm.trans hw) (by decide)
    | added _ hfirst hsum hsame => omega
    | full _ hfirst _ hsame => omega
    | reset _ _ hzero => omega

/-- The core handles the closing of a connection that is done. -/
theorem Smooth.closing (h : r.Smooth w iterations pipeline) (hfew : r.links.length < UInt64.size)
    {position : Nat} {l : LoadLink} {outcome : LoadOutcome} (hl : r.links[position]? = some l)
    (hstage : l.stage = .isOpen) (hdone : l.client.phase = .ended outcome) :
    (r.setLink position { l with stage := .isClosed }).handle position .closing
        = { core := (r.core.handle ⟨idAt position, .closing⟩).2
            links := r.links.set position { l with stage := .isClosed } } ∧
      ((r.setLink position { l with stage := .isClosed }).handle position .closing).Smooth w
        iterations pipeline := by
  have hposition := (List.getElem?_eq_some_iff.mp hl).1
  have hown := h.attended hl
  have htold : (r.core.handle ⟨idAt position, .closing⟩).1
      = [⟨idAt position, position, .closed⟩] := by
    rw [Core.handle_fst_of_closing h.length_queue_le, Core.send, hown.replier, if_pos hstage]
  have hafter : (r.setLink position { l with stage := .isClosed }).handle position .closing
      = { core := (r.core.handle ⟨idAt position, .closing⟩).2
          links := r.links.set position { l with stage := .isClosed } } :=
    handle_setLink_of_eq_singleton htold
  have hrepliers := r.core.repliers_handle ⟨idAt position, .closing⟩
  -- whoever closes holds nothing any more, so nobody is struck out of a queue
  have hqueue : ∀ key, (r.core.handle ⟨idAt position, .closing⟩).2.table.views.queue key
      = r.core.table.views.queue key := by
    intro key
    refine (r.core.queue_handle _ _).trans (filter_ne_of_not_mem fun hmem => ?_)
    rcases h.queue_cases key with hnone | ⟨q, hq, hkey, hone⟩
    · rw [hnone] at hmem
      cases hmem
    · rw [hone, List.mem_singleton] at hmem
      obtain rfl := idAt_inj (hposition.trans hfew) (hq.trans hfew) hmem
      have hwhole := (hown.onTrack.of_ended hdone).2.2.2.1
      have heven : l.answered % 2 = 0 := by
        rw [hwhole, wholePairs]
        omega
      rw [← hkey, hown.queue, Workload.ownQueue, if_neg (by omega)] at hone
      cases hone
  refine ⟨hafter, ?_⟩
  rw [hafter]
  refine h.update hposition ⟨hown.onTrack.setStage _, by simp, fun _ => ⟨outcome, hdone⟩, ?_, ?_⟩ ?_
    (fun key _ => hqueue key) ?_
  · exact (hrepliers _).trans (by simp)
  · exact (hqueue _).trans hown.queue
  · intro q hq hne
    refine (hrepliers _).trans (if_neg fun heq => hne ?_)
    exact (idAt_inj (hposition.trans hfew) (hq.trans hfew) heq).symm
  · rw [midPairs_set_of_answered_eq hl { l with stage := .isClosed } rfl]
    exact h.value

/-! ## All moves -/

/-- A measurement that is about to begin: nobody is known to the core, all keys are free, and there is no
counter. -/
theorem smooth_start (w : Workload) (connections : Nat) (iterations : UInt64) (pipeline : UInt32) :
    (start w connections iterations pipeline).Smooth w iterations pipeline where
  attended := by
    intro position l hl
    obtain ⟨q, hq, rfl⟩ := Option.map_eq_some_iff.mp (List.getElem?_map ▸ hl)
    obtain ⟨-, rfl⟩ := List.getElem?_eq_some_iff.mp hq
    rw [List.getElem_range]
    exact ⟨LoadLink.onTrack_start w iterations pipeline position, fun _ => rfl, nofun,
      by simp [start, Core.empty], (if_neg fun hmid => absurd hmid.2 nofun).symm⟩
  unqueued _ _ := rfl
  value _ := ⟨Int.le_refl 0, Int.natCast_nonneg _⟩

/-- How much is left to do in a measurement. -/
def weight (r : LoadRun) : Nat :=
  (r.links.map LoadLink.weight).sum

/-- With less left to do for one connection there is less left to do. -/
theorem weight_lt_of_set {r r' : LoadRun} {position : Nat} {l l' : LoadLink}
    (hl : r.links[position]? = some l) (hlinks : r'.links = r.links.set position l')
    (hless : l'.weight < l.weight) : r'.links.length = r.links.length ∧ r'.weight < r.weight := by
  have hsum := sum_map_set LoadLink.weight hl l'
  rw [weight, weight, hlinks, List.length_set]
  exact ⟨rfl, by omega⟩

/-- **One move.**  It leaves less to do. -/
theorem Smooth.step (h : r.Smooth w iterations pipeline)
    (hsmall : wholePairs iterations < UInt64.size) (hpipeline : 1 ≤ pipeline.toNat)
    (hfew : r.links.length < UInt64.size) {move : Move} {r' : LoadRun} (hstep : r.Step move r') :
    r'.Smooth w iterations pipeline ∧ r'.links.length = r.links.length ∧ r'.weight < r.weight := by
  cases hstep with
  | client hl hstep =>
      refine ⟨h.client hsmall hl hstep, weight_lt_of_set hl rfl ?_⟩
      exact (h.attended hl).onTrack.weight_lt hsmall hpipeline hstep
  | @opening position l hl hstage =>
      have hlinks : ((r.setLink position { l with stage := .isOpen }).handle position
          (.opening position)).links = r.links.set position { l with stage := .isOpen } := rfl
      refine ⟨h.opening hfew hl, weight_lt_of_set hl hlinks ?_⟩
      simp [LoadLink.weight, hstage, LoadStage.weight]
  | request hl hstage hrequests =>
      obtain ⟨reply, -, -, hafter, hsmooth⟩ := h.request hl hstage hrequests
      refine ⟨hsmooth, weight_lt_of_set hl (congrArg links hafter) ?_⟩
      simp [LoadLink.weight, hrequests]
  | closing hl hstage _ hdone =>
      obtain ⟨hafter, hsmooth⟩ := h.closing hfew hl hstage hdone
      refine ⟨hsmooth, weight_lt_of_set hl (congrArg links hafter) ?_⟩
      simp [LoadLink.weight, hstage, LoadStage.weight]

/-- **A whole run.**  It is no longer than there was something left to do. -/
theorem Smooth.run (h : r.Smooth w iterations pipeline)
    (hsmall : wholePairs iterations < UInt64.size) (hpipeline : 1 ≤ pipeline.toNat)
    (hfew : r.links.length < UInt64.size) {moves : List Move} {r' : LoadRun}
    (hrun : r.run? moves = some r') :
    r'.Smooth w iterations pipeline ∧ r'.links.length = r.links.length ∧
      moves.length + r'.weight ≤ r.weight := by
  induction moves generalizing r with
  | nil =>
      cases hrun
      exact ⟨h, rfl, Nat.le_of_eq (Nat.zero_add _)⟩
  | cons move rest ih =>
      rw [run?, List.foldlM_cons] at hrun
      obtain ⟨next, hnext, hrest⟩ := Option.bind_eq_some_iff.mp hrun
      obtain ⟨hsmooth, hlength, hless⟩ :=
        h.step hsmall hpipeline hfew (step?_eq_some_iff.mp hnext)
      obtain ⟨hsmooth', hlength', hbound⟩ := ih hsmooth (hlength ▸ hfew) hrest
      refine ⟨hsmooth', hlength'.trans hlength, ?_⟩
      rw [List.length_cons]
      omega

end

end LoadRun

end LockService
