import LockService.Proofs.Table.Effects

/-!
# Keys are granted in order of arrival

A queue is edited in three places: the front is taken off, somebody in the middle is struck out, and
newcomers are put at the end.  So whoever stands in it only ever moves up, and by one place for each
client ahead that leaves, whatever else is called in between.

* `departs` — whether a call, as it was answered, takes a client out of a key's queue.
* `Views.Coherent.queue_perform` — what one call of any kind does to a queue: those who do not depart
  keep their order, and newcomers come behind them.
* `Views.Coherent.queue_run` — the same for any number of calls.
* **`Views.granted_in_order_of_arrival`** — what a client that has joined a queue can count on.

Whoever leaves a queue and comes back is a newcomer; what counts is who was ahead *at the time* and
has not left *since*.
-/

namespace LockService

open Std (TransOrd LawfulEqOrd)

section Departures

variable {ι κ : Type} [DecidableEq ι] [DecidableEq κ]

/-- Whether a call with its answer takes a client out of a key's queue: the client has given the key
up that it held, or is forgotten altogether. -/
def departs (client : ι) (key : κ) : TableCall ι κ × TableAnswer ι → Bool
  | (.release c k, .released outcome) => c = client ∧ k = key ∧ outcome ≠ .notHeld
  | (.remove c, _) => c = client
  | _ => false

/-- Whether a client has left a key's queue at some time during some calls. -/
def hasLeft (client : ι) (key : κ) (history : List (TableCall ι κ × TableAnswer ι)) : Bool :=
  history.any (departs client key)

/-- Those of a key's queue who have not left during some calls. -/
def stillQueued (queue : List ι) (key : κ) (history : List (TableCall ι κ × TableAnswer ι)) :
    List ι :=
  queue.filter fun client => !hasLeft client key history

@[simp] theorem stillQueued_nil (queue : List ι) (key : κ) : stillQueued queue key [] = queue := by
  simp [stillQueued, hasLeft]

theorem stillQueued_cons (queue : List ι) (key : κ) (event : TableCall ι κ × TableAnswer ι)
    (history : List (TableCall ι κ × TableAnswer ι)) :
    stillQueued queue key (event :: history)
      = stillQueued (queue.filter fun client => !departs client key event) key history := by
  simp [stillQueued, hasLeft, List.filter_filter, Bool.and_comm]

theorem stillQueued_append (queue more : List ι) (key : κ)
    (history : List (TableCall ι κ × TableAnswer ι)) :
    stillQueued (queue ++ more) key history
      = stillQueued queue key history ++ stillQueued more key history :=
  List.filter_append _ _

theorem mem_stillQueued {queue : List ι} {key : κ}
    {history : List (TableCall ι κ × TableAnswer ι)} {client : ι} :
    client ∈ stillQueued queue key history ↔ client ∈ queue ∧ hasLeft client key history = false := by
  simp [stillQueued]

theorem stillQueued_eq_nil_iff {queue : List ι} {key : κ}
    {history : List (TableCall ι κ × TableAnswer ι)} :
    stillQueued queue key history = [] ↔ ∀ client ∈ queue, hasLeft client key history = true := by
  simp [stillQueued, List.filter_eq_nil_iff]

/-- A call takes at most one client out of a queue. -/
theorem eq_of_departs {c d : ι} {key : κ} {event : TableCall ι κ × TableAnswer ι}
    (hc : departs c key event = true) (hd : departs d key event = true) : c = d := by
  obtain ⟨call, answer⟩ := event
  cases call with
  | register => cases hc
  | acquire => cases hc
  | remove client =>
      simp only [departs, decide_eq_true_eq] at hc hd
      rw [← hc, hd]
  | release client k =>
      cases answer with
      | released outcome =>
          simp only [departs, decide_eq_true_eq] at hc hd
          rw [← hc.1, hd.1]
      | registered => cases hc
      | acquired => cases hc
      | removed => cases hc

/-- A call leaves nobody of those ahead only if there was one, and that one departs by it. -/
theorem filter_departs_eq_nil_iff {ahead : List ι} (hnd : ahead.Nodup) {key : κ}
    {event : TableCall ι κ × TableAnswer ι} :
    ahead ≠ [] ∧ ahead.filter (fun c => !departs c key event) = []
      ↔ ∃ last, ahead = [last] ∧ departs last key event = true := by
  constructor
  · rintro ⟨hne, hnil⟩
    have hall : ∀ c ∈ ahead, departs c key event = true := by
      simpa [List.filter_eq_nil_iff] using hnil
    obtain ⟨last, rest, rfl⟩ := List.exists_cons_of_ne_nil hne
    have hlast := hall last List.mem_cons_self
    have hrest : rest = [] := by
      refine List.eq_nil_iff_forall_not_mem.mpr fun c hc => ?_
      obtain rfl := eq_of_departs (hall c (List.mem_cons_of_mem _ hc)) hlast
      exact (List.nodup_cons.mp hnd).1 hc
    exact ⟨last, by rw [hrest], hlast⟩
  · rintro ⟨last, rfl, hlast⟩
    simp [hlast]

/-- A queue from which nobody departs is the same queue without newcomers. -/
theorem exists_newcomers_of_eq {queue queue' : List ι} {key : κ}
    {event : TableCall ι κ × TableAnswer ι} (h : queue' = queue)
    (hnobody : ∀ c ∈ queue, departs c key event = false) :
    ∃ newcomers, queue' = queue.filter (fun c => !departs c key event) ++ newcomers := by
  refine ⟨[], ?_⟩
  rw [List.append_nil, h, eq_comm, List.filter_eq_self]
  intro c hc
  rw [hnobody c hc]
  rfl

end Departures

/-- As many are ahead of somebody as stand in front. -/
theorem idxOf_append_cons {ι : Type} [DecidableEq ι] {client : ι} {ahead behind : List ι}
    (hahead : client ∉ ahead) : (ahead ++ client :: behind).idxOf client = ahead.length := by
  simp [List.idxOf_append, hahead]

namespace Views

variable {ι κ : Type} [Ord ι] [Ord κ]

/-- A client that stands in a queue holds the key if nobody is in front of it. -/
theorem holder_of_queue {v : Views ι κ} {client : ι} {key : κ} {ahead behind : List ι}
    (hqueue : v.queue key = ahead ++ client :: behind) (hahead : client ∉ ahead) :
    v.holder key = some client ↔ ahead = [] := by
  rw [holder, hqueue]
  cases ahead with
  | nil => simp
  | cons front rest =>
      have hne : front ≠ client := fun h => hahead (h ▸ List.mem_cons_self)
      simp [hne]

variable [TransOrd ι] [TransOrd κ] [LawfulEqOrd ι] [LawfulEqOrd κ] [DecidableEq ι] [DecidableEq κ]

/-! ## One call -/

/-- **What a call does to a queue.**  Those who do not depart keep their order, and newcomers come
behind them. -/
theorem Coherent.queue_perform {v w : Views ι κ} (hv : v.Coherent) {call : TableCall ι κ}
    {answer : TableAnswer ι} (h : v.perform call = .ok (answer, w)) (key : κ) :
    ∃ newcomers, w.queue key
      = (v.queue key).filter (fun c => !departs c key (call, answer)) ++ newcomers := by
  cases call with
  | register client =>
      cases h
      exact exists_newcomers_of_eq rfl fun _ _ => rfl
  | acquire client k =>
      cases h
      have hqueue := (hv.acquire_effect client k).2.1 key
      by_cases hjoins : k = key ∧ client ∉ v.queue key
      · obtain ⟨rfl, hnew⟩ := hjoins
        refine ⟨[client], ?_⟩
        rw [hqueue, if_pos rfl, joined, if_neg hnew]
        simp [departs]
      · refine exists_newcomers_of_eq ?_ fun _ _ => rfl
        rw [hqueue]
        split
        · next hk =>
          subst hk
          rw [joined, if_pos (by simpa using hjoins)]
        · rfl
  | release client k =>
      simp only [perform] at h
      split at h
      · cases h
      · next outcome u hrelease =>
        cases h
        obtain ⟨houtcome, hqueue, -⟩ := hv.release_effect hrelease
        by_cases hheld : (v.queue k).head? = some client
        · have hreleased : outcome ≠ .notHeld := by
            rw [houtcome, if_pos hheld]
            cases (v.queue k).tail <;> simp [Release.ofWaiters]
          by_cases hk : k = key
          · subst hk
            obtain ⟨rest, hfront⟩ := List.head?_eq_some_iff.mp hheld
            have hnd : (client :: rest).Nodup := hfront ▸ hv.nodup k
            refine ⟨[], ?_⟩
            rw [hqueue, if_pos ⟨rfl, hheld⟩, hfront, List.tail_cons, List.append_nil]
            simpa [departs, hreleased, eq_comm] using (filter_cons_of_nodup hnd).symm
          · refine exists_newcomers_of_eq ?_ fun c _ => by simp [departs, hk]
            rw [hqueue, if_neg (fun h => hk h.1)]
        · have hrefused : outcome = .notHeld := by rw [houtcome, if_neg hheld]
          refine exists_newcomers_of_eq ?_ fun c _ => by simp [departs, hrefused]
          rw [hqueue, if_neg (fun h => hheld h.2)]
  | remove client =>
      simp only [perform] at h
      split at h
      · cases h
      · next promoted u hremove =>
        cases h
        refine ⟨[], ?_⟩
        rw [(hv.remove_effect hremove).2.1 key, List.append_nil]
        simp [departs, eq_comm]

/-- Giving a key up takes out the holder only. -/
theorem Coherent.holder_of_departs {v w : Views ι κ} (hv : v.Coherent) {call : TableCall ι κ}
    {answer : TableAnswer ι} (h : v.perform call = .ok (answer, w)) {client : ι} {key : κ}
    (hdeparts : departs client key (call, answer) = true) (hstays : call ≠ .remove client) :
    v.holder key = some client := by
  cases call with
  | register => cases h; cases hdeparts
  | acquire => cases h; cases hdeparts
  | remove c =>
      simp only [departs, decide_eq_true_eq] at hdeparts
      exact absurd (by rw [hdeparts]) hstays
  | release c k =>
      simp only [perform] at h
      split at h
      · cases h
      · next outcome u hrelease =>
        cases h
        simp only [departs, decide_eq_true_eq] at hdeparts
        obtain ⟨rfl, rfl, hreleased⟩ := hdeparts
        by_contra hheld
        have hrefused := (hv.release_effect hrelease).1
        rw [if_neg (show (v.queue k).head? ≠ some c from hheld)] at hrefused
        exact hreleased hrefused

/-! ## Runs -/

/-- What calls do to a queue: those who have not left keep their order, and all others come behind
them. -/
theorem Coherent.queue_run {v w : Views ι κ} (hv : v.Coherent) {calls : List (TableCall ι κ)}
    {answers : List (TableAnswer ι)} (h : v.run calls = .ok (answers, w)) (key : κ) :
    ∃ behind, w.queue key = stillQueued (v.queue key) key (calls.zip answers) ++ behind := by
  induction calls generalizing v answers with
  | nil =>
      cases h
      exact ⟨[], by simp⟩
  | cons call calls ih =>
      obtain ⟨answer, u, hcall, hu⟩ := exists_perform hv call
      simp only [run, hcall] at h
      split at h
      · cases h
      · next more x hmore =>
        cases h
        obtain ⟨newcomers, hqueue⟩ := hv.queue_perform hcall key
        obtain ⟨behind, hbehind⟩ := ih hu hmore
        rw [hqueue, stillQueued_append] at hbehind
        rw [List.zip_cons_cons, stillQueued_cons, hbehind, List.append_assoc]
        exact ⟨_, rfl⟩

/-- Who has left during some calls has left with one of them. -/
theorem Coherent.exists_departure {v w : Views ι κ} (hv : v.Coherent)
    {calls : List (TableCall ι κ)} {answers : List (TableAnswer ι)}
    (h : v.run calls = .ok (answers, w)) {client : ι} {key : κ}
    (hleft : hasLeft client key (calls.zip answers) = true) :
    ∃ before call after earlier u answer u', calls = before ++ call :: after ∧
      v.run before = .ok (earlier, u) ∧ u.Coherent ∧ u.perform call = .ok (answer, u') ∧
      departs client key (call, answer) = true := by
  induction calls generalizing v answers with
  | nil => cases hleft
  | cons call calls ih =>
      obtain ⟨answer, u, hcall, hu⟩ := exists_perform hv call
      simp only [run, hcall] at h
      split at h
      · cases h
      · next more x hmore =>
        cases h
        rw [List.zip_cons_cons, hasLeft, List.any_cons, Bool.or_eq_true] at hleft
        rcases hleft with hnow | hlater
        · exact ⟨[], call, calls, [], v, answer, u, rfl, rfl, hv, hcall, hnow⟩
        · obtain ⟨before, call', after, earlier, x, answer', x', rfl, hrun, hrest⟩ :=
            ih hu hmore hlater
          refine ⟨call :: before, call', after, answer :: earlier, x, answer', x', rfl, ?_, hrest⟩
          simp only [run, hcall, hrun]

/-! ## Standing in line -/

/-- A client that has joined a queue and not left it stands behind those of the old queue who have
not left either. -/
theorem Coherent.queue_of_joined {v w : Views ι κ} (hv : v.Coherent) {client : ι} {key : κ}
    (hnew : client ∉ v.queue key) {calls : List (TableCall ι κ)} {answers : List (TableAnswer ι)}
    (h : (v.acquire client key).2.run calls = .ok (answers, w))
    (hstays : hasLeft client key (calls.zip answers) = false) :
    ∃ behind, w.queue key
      = stillQueued (v.queue key) key (calls.zip answers) ++ client :: behind := by
  obtain ⟨behind, hbehind⟩ := (coherent_acquire hv client key).queue_run h key
  have hclient : stillQueued [client] key (calls.zip answers) = [client] := by
    simp [stillQueued, hstays]
  rw [(hv.acquire_effect client key).2.1, if_pos rfl, joined, if_neg hnew, stillQueued_append,
    hclient, List.append_assoc] at hbehind
  exact ⟨behind, hbehind⟩

/-- **The next call.**  It brings a client that stands in a queue to the front by taking away the
last one ahead of it, and the client's place changes only if somebody ahead leaves. -/
theorem Coherent.place_perform {v w : Views ι κ} (hv : v.Coherent) {call : TableCall ι κ}
    {answer : TableAnswer ι} (h : v.perform call = .ok (answer, w)) {client : ι} {key : κ}
    {ahead behind : List ι} (hqueue : v.queue key = ahead ++ client :: behind)
    (hstays : departs client key (call, answer) = false) :
    (v.holder key ≠ some client ∧ w.holder key = some client
      ↔ ∃ last, ahead = [last] ∧ departs last key (call, answer) = true) ∧
    ((∀ c ∈ ahead, departs c key (call, answer) = false) →
      (w.queue key).idxOf client = (v.queue key).idxOf client) := by
  have hnd : (ahead ++ client :: behind).Nodup := hqueue ▸ hv.nodup key
  have hahead : client ∉ ahead :=
    fun hmem => (List.nodup_append.mp hnd).2.2 client hmem client List.mem_cons_self rfl
  obtain ⟨newcomers, hnext⟩ := hv.queue_perform h key
  rw [hqueue, List.filter_append, List.filter_cons_of_pos (by rw [hstays]; rfl),
    List.append_assoc, List.cons_append] at hnext
  have hstillahead : client ∉ ahead.filter (fun c => !departs c key (call, answer)) :=
    fun hmem => hahead (List.mem_of_mem_filter hmem)
  refine ⟨?_, fun hnobody => ?_⟩
  · rw [ne_eq, holder_of_queue hqueue hahead, holder_of_queue hnext hstillahead]
    exact filter_departs_eq_nil_iff (List.nodup_append.mp hnd).1
  · have hsame : ahead.filter (fun c => !departs c key (call, answer)) = ahead :=
      List.filter_eq_self.mpr fun c hc => by rw [hnobody c hc]; rfl
    rw [hnext, hqueue, idxOf_append_cons hahead, idxOf_append_cons hstillahead, hsame]

/-- Who has left during some calls and was not removed held the key before one of them. -/
theorem Coherent.exists_holding {v w : Views ι κ} (hv : v.Coherent) {calls : List (TableCall ι κ)}
    {answers : List (TableAnswer ι)} (h : v.run calls = .ok (answers, w)) {client : ι} {key : κ}
    (hleft : hasLeft client key (calls.zip answers) = true) (hkept : .remove client ∉ calls) :
    ∃ before after earlier u, calls = before ++ after ∧ after ≠ [] ∧
      v.run before = .ok (earlier, u) ∧ u.holder key = some client := by
  obtain ⟨before, call, after, earlier, u, answer, u', rfl, hbefore, hu, hcall, hdeparts⟩ :=
    hv.exists_departure h hleft
  have hcalls : call ≠ .remove client := by
    rintro rfl
    exact hkept (List.mem_append_right _ List.mem_cons_self)
  exact ⟨before, call :: after, earlier, u, rfl, by simp, hbefore,
    hu.holder_of_departs hcall hdeparts hcalls⟩

/-- **Keys are granted in order of arrival.**  Let a client join a key's queue after any calls, and
let more calls follow by which it does not leave that queue.

* Those who were ahead of it and have not left since are still ahead of it, in their order, and
  nobody else is; those who left and came back are behind it.  So as many are ahead of it as were
  then and have not left since.
* It holds the key if and only if all who were ahead have left.
* With the next call it comes to hold the key if and only if the last one who is still ahead leaves
  by that call, and its place is the same if nobody who is still ahead leaves by it.
* If it holds the key, everybody who was ahead of it and has not been removed held the key before.
-/
theorem granted_in_order_of_arrival (calls : List (TableCall ι κ)) (client : ι) (key : κ) :
    ∃ answers v, ({} : Views ι κ).run calls = .ok (answers, v) ∧
      (client ∉ v.queue key → ∀ later, ∃ results w,
        (v.acquire client key).2.run later = .ok (results, w) ∧
        let ahead := stillQueued (v.queue key) key (later.zip results)
        (hasLeft client key (later.zip results) = false →
          (∃ behind, w.queue key = ahead ++ client :: behind ∧
            ∀ c ∈ v.queue key, hasLeft c key (later.zip results) = true → c ∈ w.queue key →
              c ∈ behind) ∧
          (w.queue key).idxOf client = ahead.length ∧
          (w.holder key = some client
            ↔ ∀ c ∈ v.queue key, hasLeft c key (later.zip results) = true) ∧
          (∀ call, ∃ answer u, w.perform call = .ok (answer, u) ∧
            (departs client key (call, answer) = false →
              (w.holder key ≠ some client ∧ u.holder key = some client
                ↔ ∃ last, ahead = [last] ∧ departs last key (call, answer) = true) ∧
              ((∀ c ∈ ahead, departs c key (call, answer) = false) →
                (u.queue key).idxOf client = (w.queue key).idxOf client))) ∧
          (∀ c ∈ v.queue key, w.holder key = some client → .remove c ∉ later →
            ∃ before after earlier u, later = before ++ after ∧ after ≠ [] ∧
              (v.acquire client key).2.run before = .ok (earlier, u) ∧
              u.holder key = some c))) := by
  obtain ⟨answers, v, hrun, hv⟩ := exists_run coherent_empty calls
  refine ⟨answers, v, hrun, fun hnew later => ?_⟩
  have hjoined := coherent_acquire hv client key
  obtain ⟨results, w, hlater, hw⟩ := exists_run hjoined later
  refine ⟨results, w, hlater, ?_⟩
  intro ahead hstays
  obtain ⟨behind, hqueue⟩ := hv.queue_of_joined hnew hlater hstays
  have hahead : client ∉ ahead := fun hmem => hnew (mem_stillQueued.mp hmem).1
  have hholder : w.holder key = some client
      ↔ ∀ c ∈ v.queue key, hasLeft c key (later.zip results) = true := by
    rw [holder_of_queue hqueue hahead, stillQueued_eq_nil_iff]
  refine ⟨⟨behind, hqueue, fun c hc hleft hmem => ?_⟩, ?_, hholder, fun call => ?_,
    fun c hc hheld hkept => hjoined.exists_holding hlater (hholder.mp hheld c hc) hkept⟩
  · rw [hqueue, List.mem_append, List.mem_cons, mem_stillQueued, hleft] at hmem
    rcases hmem with ⟨-, hfalse⟩ | rfl | hbehind
    · cases hfalse
    · exact absurd hc hnew
    · exact hbehind
  · rw [hqueue, idxOf_append_cons hahead]
  · obtain ⟨answer, u, hcall, -⟩ := exists_perform hw call
    exact ⟨answer, u, hcall, fun hstill => hw.place_perform hcall hqueue hstill⟩

/-- For instance a client comes third, the first one gives the key up and asks for it again, and the
second one is removed: then the third holds the key, the former holder waits behind it, and has held
the key before. -/
theorem granted_in_order_of_arrival_third :
    ∃ answers v results w,
      ({} : Views Nat String).run [.acquire 1 "x", .acquire 2 "x"] = .ok (answers, v) ∧
      v.queue "x" = [1, 2] ∧
      (v.acquire 3 "x").2.run [.release 1 "x", .acquire 1 "x", .acquire 3 "x", .remove 2]
        = .ok (results, w) ∧
      w.queue "x" = [3, 1] ∧ (w.queue "x").idxOf 3 = 0 ∧ w.holder "x" = some 3 ∧
      ∃ before after earlier u,
        [.release 1 "x", .acquire 1 "x", .acquire 3 "x", .remove 2] = before ++ after ∧
        after ≠ [] ∧ (v.acquire 3 "x").2.run before = .ok (earlier, u) ∧
        u.holder "x" = some 1 := by
  obtain ⟨answers, v, hrun, hline⟩ :=
    granted_in_order_of_arrival [.acquire 1 "x", .acquire 2 "x"] 3 "x"
  have hqueue : (({} : Views Nat String).run [.acquire 1 "x", .acquire 2 "x"]).map
      (fun r => (r.2.queue "x", ((r.2.acquire 3 "x").2.run
        [.release 1 "x", .acquire 1 "x", .acquire 3 "x", .remove 2]).toOption.map
          fun r => (r.1, r.2.queue "x")))
      = .ok ([1, 2], some ([.released (.promoted 2), .acquired false, .acquired false,
          .removed [3]], [3, 1])) := by
    decide +kernel
  rw [hrun] at hqueue
  obtain ⟨hwaiting, hafter⟩ := Prod.mk.inj (Except.ok.inj hqueue)
  have hnew : 3 ∉ v.queue "x" := by rw [hwaiting]; decide
  obtain ⟨results, w, hlater, hplace⟩ :=
    hline hnew [.release 1 "x", .acquire 1 "x", .acquire 3 "x", .remove 2]
  rw [hlater] at hafter
  obtain ⟨rfl, hlast⟩ := Prod.mk.inj (Option.some.inj hafter)
  obtain ⟨-, hcount, hholder, -, hearlier⟩ := hplace (by decide)
  have hheld : w.holder "x" = some 3 := hholder.mpr (by rw [hwaiting]; decide)
  refine ⟨answers, v, _, w, hrun, hwaiting, hlater, hlast, ?_, hheld, ?_⟩
  · rw [hcount, hwaiting]
    decide
  · exact hearlier 1 (by rw [hwaiting]; decide) hheld (by decide)

end Views

end LockService
