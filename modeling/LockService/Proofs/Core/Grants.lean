import LockService.Core.Basic
import LockService.Proofs.Table.Effects
import LockService.Proofs.Text.ByteOrder

/-!
# Grants are exclusive and announced once

A client believes that it holds a key from the reply that says so until it gives the key up.  For
that belief to be right, whoever comes to hold a key has to be told, once and at once, and nobody
may lose a key without asking for it.

* `Core.Handover` — what one command does to holders and to the messages of its step: a message to
  the sender first, then one plain success for every key that comes to somebody else.
* `Core.handover_execute` — every command is of that kind.  The four cases that matter are a table
  that stays as it is, asking, giving up, and leaving.
* **`Core.grants_announced_once`** — what follows for every step of every run.
-/

namespace LockService

open Std (TreeMap)

/-- Whether its sender gives a key up with a command: by saying so, or by closing. -/
def Command.GivesUp {ρ : Type} : Command ρ → String → Prop
  | .closing, _ => True
  | .request r, key => r.op = Operation.unlock.name ∧ r.target = key
  | .opening _, _ => False
  | .malformed, _ => False

namespace Core

variable {ρ : Type}

/-- The connection that holds a key. -/
def holder (core : Core ρ) (key : String) : Option ConnectionId :=
  core.table.views.holder key

/-- What one command of `sender` does, seen by those who hold keys.  `own` is what the sender is
told, and `heirs` are the keys that come to others, each with its new holder. -/
structure Handover (core : Core ρ) (sender : ConnectionId) (gives : String → Prop)
    (own : List (Delivery ρ)) (heirs : List (String × ConnectionId))
    (result : List (Delivery ρ) × Core ρ) : Prop where
  sent : result.1 = own ++ heirs.flatMap fun heir => result.2.reply heir.2 .ok
  own_receiver : ∀ d ∈ own, d.receiver = sender
  own_length : own.length ≤ 1
  sorted : heirs.Pairwise fun a b => Utf8.encode a.1 < Utf8.encode b.1
  mem_heirs : ∀ key next, (key, next) ∈ heirs
    ↔ next ≠ sender ∧ result.2.holder key = some next ∧ core.holder key ≠ some next
  kept : ∀ key c, core.holder key = some c → result.2.holder key = some c ∨ sender = c ∧ gives key
  repliers_eq : ∀ d, d ≠ sender → result.2.repliers[d]? = core.repliers[d]?

/-! ## Messages -/

theorem reply_eq (core : Core ρ) (receiver : ConnectionId) (reply : Reply) :
    core.reply receiver reply
      = match core.repliers[receiver]? with
        | none => []
        | some replier => [⟨receiver, replier, .reply reply⟩] := rfl

theorem receiver_of_mem_send {core : Core ρ} {receiver : ConnectionId} {message : Outbound}
    {d : Delivery ρ} (h : d ∈ core.send receiver message) : d.receiver = receiver := by
  unfold send at h
  split at h
  · cases h
  · rw [List.mem_singleton.mp h]

theorem length_send_le (core : Core ρ) (receiver : ConnectionId) (message : Outbound) :
    (core.send receiver message).length ≤ 1 := by
  unfold send
  split <;> simp

/-! ## The commands -/

/-- A command after which every key has the holder it had hands nothing over. -/
theorem handover_of_holder_eq {core : Core ρ} {sender : ConnectionId} {gives : String → Prop}
    {result : List (Delivery ρ) × Core ρ} (hholder : ∀ key, result.2.holder key = core.holder key)
    (hown : ∀ d ∈ result.1, d.receiver = sender) (hlength : result.1.length ≤ 1)
    (hrepliers : ∀ d, d ≠ sender → result.2.repliers[d]? = core.repliers[d]?) :
    Handover core sender gives result.1 [] result where
  sent := by simp
  own_receiver := hown
  own_length := hlength
  sorted := .nil
  mem_heirs key next := by
    rw [hholder]
    simp
  kept key c h := .inl (by rw [hholder]; exact h)
  repliers_eq := hrepliers

/-- In particular a command that only answers its sender and sets counters. -/
theorem handover_of_send {core : Core ρ} {sender : ConnectionId} {gives : String → Prop}
    (message : Outbound) (counters : Counters) :
    Handover core sender gives (core.send sender message) []
      (core.send sender message, { core with counters }) := by
  have h : Handover core sender gives (core.send sender message, { core with counters }).1 []
      (core.send sender message, { core with counters }) :=
    handover_of_holder_eq (fun _ => rfl) (fun _ hd => receiver_of_mem_send hd)
      (length_send_le _ _ _) (fun _ _ => rfl)
  exact h

theorem handover_opening (core : Core ρ) (sender : ConnectionId) (replier : ρ) :
    Handover core sender (fun _ => False) [] [] (core.opening sender replier) := by
  show Handover core sender _ (core.opening sender replier).1 [] (core.opening sender replier)
  refine handover_of_holder_eq (fun key => rfl) (fun _ hd => absurd hd List.not_mem_nil)
    (Nat.zero_le _) ?_
  intro d hd
  show (core.repliers.insert sender replier)[d]? = _
  rw [Std.TreeMap.getElem?_insert, if_neg]
  rw [Std.LawfulEqCmp.compare_eq_iff_eq]
  exact Ne.symm hd

theorem holder_lock (core : Core ρ) (sender : ConnectionId) (key k : String) :
    (core.lock sender key).2.holder k
      = if key = k ∧ core.table.views.queue key = [] then some sender else core.holder k :=
  core.table.holder_acquire sender key k

/-- Asking gives the sender a free key and hands nothing over. -/
theorem handover_lock (core : Core ρ) (sender : ConnectionId) (key : String) :
    Handover core sender (fun _ => False) (core.lock sender key).1 [] (core.lock sender key) where
  sent := by simp
  own_receiver d hd := by
    simp only [lock] at hd
    split at hd
    · exact receiver_of_mem_send hd
    · cases hd
  own_length := by
    simp only [lock]
    split
    · exact length_send_le _ _ _
    · exact Nat.zero_le _
  sorted := .nil
  mem_heirs k next := by
    rw [holder_lock]
    split
    · simp only [List.not_mem_nil, Option.some.injEq, false_iff, not_and]
      exact fun hne heq => absurd heq.symm hne
    · simp
  kept k c h := by
    left
    rw [holder_lock, if_neg, h]
    rintro ⟨rfl, hfree⟩
    rw [holder, Views.holder, hfree] at h
    cases h
  repliers_eq d _ := rfl

/-- **Who hears of a lock request.**  The sender does, if it holds the key now; nobody else. -/
theorem lock_fst (core : Core ρ) (sender : ConnectionId) (key : String) :
    (core.lock sender key).1
      = if (core.lock sender key).2.holder key = some sender then core.reply sender .ok else [] := by
  have hgranted : (core.table.acquire sender key).1 = true
      ↔ (core.lock sender key).2.holder key = some sender := by
    rw [Table.acquire_fst, holder_lock, holder, Views.holder]
    by_cases hfree : core.table.views.queue key = [] <;> simp [hfree]
  simp only [← hgranted]
  rfl

/-- Whom keys come to, given that the sender's `passed` keys go to the next in line. -/
theorem mem_heirs_of_passed {core after : Core ρ} {sender : ConnectionId} {passed : String → Prop}
    [DecidablePred passed] (hpassed : ∀ key, passed key → core.holder key = some sender)
    (hafter : ∀ key, after.holder key
      = if passed key then (core.table.views.waiters key).head? else core.holder key)
    (key : String) (next : ConnectionId) :
    passed key ∧ (core.table.views.waiters key).head? = some next
      ↔ next ≠ sender ∧ after.holder key = some next ∧ core.holder key ≠ some next := by
  rw [hafter]
  constructor
  · rintro ⟨hkey, hnext⟩
    have hne := Table.next_ne_holder (hpassed key hkey) hnext
    refine ⟨hne, by rw [if_pos hkey, hnext], ?_⟩
    rw [hpassed key hkey]
    exact fun h => hne (Option.some.inj h).symm
  · rintro ⟨-, hnext, hnot⟩
    split at hnext
    · next hkey => exact ⟨hkey, hnext⟩
    · exact absurd hnext hnot

theorem unlock_snd (core : Core ρ) (sender : ConnectionId) (key : String) :
    (core.unlock sender key).2 = { core with table := (core.table.release sender key).2 } := by
  simp only [unlock]
  split <;> rfl

theorem holder_unlock (core : Core ρ) (sender : ConnectionId) (key k : String) :
    (core.unlock sender key).2.holder k
      = if key = k ∧ core.holder k = some sender then (core.table.views.waiters k).head?
        else core.holder k := by
  rw [unlock_snd]
  refine (core.table.holder_release sender key k).trans ?_
  by_cases hk : key = k
  · subst hk; rfl
  · rw [if_neg (fun h => hk h.1), if_neg (fun h => hk h.1)]
    rfl

theorem unlock_fst (core : Core ρ) (sender : ConnectionId) (key : String) :
    (core.unlock sender key).1
      = if core.holder key = some sender then
          core.reply sender .ok
            ++ (core.table.views.waiters key).head?.toList.flatMap (core.reply · .ok)
        else core.refuse sender .noSuchLock := by
  have houtcome := core.table.release_fst sender key
  have hholds : (core.table.views.queue key).head? = core.holder key := rfl
  rw [hholds] at houtcome
  simp only [unlock, Views.waiters]
  by_cases hheld : core.holder key = some sender
  · rw [if_pos hheld] at houtcome
    rw [if_pos hheld, houtcome]
    cases (core.table.views.queue key).tail <;> simp [Release.ofWaiters]
  · rw [if_neg hheld] at houtcome
    rw [if_neg hheld, houtcome]

/-- Giving a key up hands it to the next in line. -/
theorem handover_unlock (core : Core ρ) (sender : ConnectionId) (key : String) :
    ∃ own heirs, Handover core sender (key = ·) own heirs (core.unlock sender key) := by
  have hrepliers : (core.unlock sender key).2.repliers = core.repliers := by rw [unlock_snd]
  have hreply : ∀ d, (core.unlock sender key).2.reply d .ok = core.reply d .ok := by
    intro d
    rw [reply_eq, reply_eq, hrepliers]
  by_cases hheld : core.holder key = some sender
  · refine ⟨core.reply sender .ok, (core.table.views.waiters key).head?.toList.map (key, ·), ?_⟩
    constructor
    case sent =>
      rw [unlock_fst, if_pos hheld, List.flatMap_map]
      simp only [hreply]
    case own_receiver => exact fun d hd => receiver_of_mem_send hd
    case own_length => exact length_send_le _ _ _
    case sorted => cases (core.table.views.waiters key).head? <;> simp
    case mem_heirs =>
      intro k next
      rw [← mem_heirs_of_passed (fun _ h => h.2) (holder_unlock core sender key)]
      simp only [List.mem_map, Option.mem_toList, Prod.mk.injEq]
      constructor
      · rintro ⟨n, hn, rfl, rfl⟩
        exact ⟨⟨rfl, hheld⟩, hn⟩
      · rintro ⟨⟨rfl, -⟩, hn⟩
        exact ⟨next, hn, rfl, rfl⟩
    case kept =>
      intro k c h
      rw [holder_unlock]
      split
      · next hk => exact .inr ⟨Option.some.inj (hk.2.symm.trans h), hk.1⟩
      · exact .inl h
    case repliers_eq => intro d _; rw [hrepliers]
  · have hsame : ∀ k, (core.unlock sender key).2.holder k = core.holder k := by
      intro k
      rw [holder_unlock, if_neg]
      rintro ⟨rfl, h⟩
      exact hheld h
    refine ⟨core.refuse sender .noSuchLock, [], ?_⟩
    constructor
    case sent => rw [unlock_fst, if_neg hheld]; simp
    case own_receiver => exact fun d hd => receiver_of_mem_send hd
    case own_length => exact length_send_le _ _ _
    case sorted => exact .nil
    case mem_heirs => intro k next; rw [hsame]; simp
    case kept => intro k c h; rw [hsame]; exact .inl h
    case repliers_eq => intro d _; rw [hrepliers]

/-- Closing hands every key of the sender to the next in line. -/
theorem handover_closing (core : Core ρ) (sender : ConnectionId) :
    Handover core sender (fun _ => True) (core.send sender .closed)
      (core.table.views.heirs sender) (core.closing sender) := by
  have hholder : ∀ k, (core.closing sender).2.holder k
      = if core.holder k = some sender then (core.table.views.waiters k).head? else core.holder k :=
    core.table.holder_remove sender
  constructor
  case sent =>
    simp only [closing]
    rw [Table.remove_fst, List.flatMap_map]
  case own_receiver => exact fun d hd => receiver_of_mem_send hd
  case own_length => exact length_send_le _ _ _
  case sorted =>
    exact (Views.pairwise_heirs _ _).imp Utf8.encode_lt_encode_of_compare
  case mem_heirs =>
    intro k next
    rw [← mem_heirs_of_passed (fun _ h => h) hholder]
    exact core.table.coherent.mem_heirs_iff_holder
  case kept =>
    intro k c h
    rw [hholder]
    split
    · next hk => exact .inr ⟨Option.some.inj (hk.symm.trans h), trivial⟩
    · exact .inl h
  case repliers_eq =>
    intro d hd
    show (core.repliers.erase sender)[d]? = _
    rw [Std.TreeMap.getElem?_erase, if_neg]
    rw [Std.LawfulEqCmp.compare_eq_iff_eq]
    exact Ne.symm hd

theorem Handover.mono {core : Core ρ} {sender : ConnectionId} {gives gives' : String → Prop}
    {own : List (Delivery ρ)} {heirs : List (String × ConnectionId)}
    {result : List (Delivery ρ) × Core ρ} (h : Handover core sender gives own heirs result)
    (himp : ∀ key, gives key → gives' key) : Handover core sender gives' own heirs result :=
  { h with kept := fun key c hkey => (h.kept key c hkey).imp id (.imp id (himp key)) }

theorem handover_perform (core : Core ρ) (sender : ConnectionId) (target : String)
    (arg : Option String) (op : Operation) :
    ∃ own heirs, Handover core sender (fun key => op = .unlock ∧ target = key) own heirs
      (core.perform sender target arg op) := by
  cases op with
  | lock => exact ⟨_, _, (handover_lock core sender target).mono fun _ => False.elim⟩
  | unlock =>
      obtain ⟨own, heirs, h⟩ := handover_unlock core sender target
      exact ⟨own, heirs, h.mono fun key hkey => ⟨rfl, hkey⟩⟩
  | get => exact ⟨_, _, handover_of_send _ _⟩
  | set =>
      simp only [perform]
      split
      · exact ⟨_, _, handover_of_send _ _⟩
      · exact ⟨_, _, handover_of_send _ _⟩
  | incr =>
      simp only [perform]
      split
      · exact ⟨_, _, handover_of_send _ _⟩
      · exact ⟨_, _, handover_of_send _ _⟩

/-- Every command tells its sender at most once, and hands over exactly what it announces. -/
theorem handover_execute (core : Core ρ) (sender : ConnectionId) (command : Command ρ) :
    ∃ own heirs, Handover core sender command.GivesUp own heirs (core.execute sender command) := by
  cases command with
  | opening replier => exact ⟨_, _, (handover_opening core sender replier).mono fun _ => False.elim⟩
  | closing => exact ⟨_, _, handover_closing core sender⟩
  | malformed => exact ⟨_, _, handover_of_send _ _⟩
  | request r =>
      simp only [execute, request]
      split
      · exact ⟨_, _, handover_of_send _ _⟩
      · next op hop =>
          obtain ⟨own, heirs, h⟩ := handover_perform core sender r.target r.arg op
          refine ⟨own, heirs, h.mono fun key hkey => ⟨?_, hkey.2⟩⟩
          rw [← Operation.name_of_parse? hop, hkey.1]

theorem handover_handle (core : Core ρ) (e : Envelope ρ) :
    ∃ own heirs, Handover core e.sender e.command.GivesUp own heirs (core.handle e) := by
  obtain ⟨own, heirs, h⟩ := handover_execute core e.sender e.command
  exact ⟨own, heirs, { h with }⟩

/-! ## Every step of every run -/

/-- A lock request is a call of `lock`, so its sender hears of it if it holds the key now. -/
theorem sent_of_lock (core : Core ρ) {e : Envelope ρ} {r : Request} (he : e.command = .request r)
    (hop : r.op = Operation.lock.name) :
    (core.handle e).1 = if (core.handle e).2.holder r.target = some e.sender then
      core.reply e.sender .ok else [] := by
  have hparse : Operation.parse? r.op = some .lock := by rw [hop, Operation.parse?_name]
  have hlock : core.execute e.sender e.command = core.lock e.sender r.target := by
    simp only [he, execute, request, hparse, perform]
  have hholder : (core.handle e).2.holder r.target
      = (core.lock e.sender r.target).2.holder r.target := by
    rw [← hlock]
    rfl
  rw [hholder, ← lock_fst, ← hlock]
  rfl

section

variable {core : Core ρ} {sender d : ConnectionId} {replier : ρ} {gives : String → Prop}
  {own : List (Delivery ρ)} {heirs : List (String × ConnectionId)}
  {result : List (Delivery ρ) × Core ρ}

/-- What a handover tells one of the others: a plain success for each key that came to it. -/
theorem Handover.filter_receiver (h : Handover core sender gives own heirs result)
    (hd : d ≠ sender) (hreplier : core.repliers[d]? = some replier) :
    result.1.filter (·.receiver = d)
      = (heirs.filter (·.2 = d)).map fun _ => ⟨d, replier, .reply .ok⟩ := by
  have hown : own.filter (·.receiver = d) = [] := by
    rw [List.filter_eq_nil_iff]
    intro m hm
    rw [h.own_receiver m hm]
    simpa using Ne.symm hd
  rw [h.sent, List.filter_append, hown, List.nil_append]
  have hreply : ∀ c, (result.2.reply c .ok).filter (·.receiver = d)
      = if c = d then [⟨d, replier, .reply .ok⟩] else [] := by
    intro c
    split
    · next hc =>
        rw [hc, reply_eq, h.repliers_eq d hd, hreplier]
        simp
    · next hc =>
        rw [List.filter_eq_nil_iff]
        intro m hm
        rw [receiver_of_mem_send hm]
        simpa using hc
  rw [List.filter_flatMap]
  simp only [hreply]
  clear h hown
  induction heirs with
  | nil => rfl
  | cons heir heirs ih =>
      rw [List.flatMap_cons, ih, List.filter_cons]
      by_cases hc : heir.2 = d <;> simp [hc]

/-- So it is told one plain success for each key that it gained, whichever keys these are. -/
theorem Handover.exists_gained (h : Handover core sender gives own heirs result)
    (hd : d ≠ sender) (hreplier : core.repliers[d]? = some replier) :
    ∃ gained : List String, gained.Nodup ∧
      (∀ key, key ∈ gained ↔ result.2.holder key = some d ∧ core.holder key ≠ some d) ∧
      result.1.filter (·.receiver = d) = gained.map fun _ => ⟨d, replier, .reply .ok⟩ := by
  refine ⟨(heirs.filter (·.2 = d)).map (·.1), ?_, fun key => ?_, ?_⟩
  · -- keys in ascending order are different keys
    refine (h.sorted.filter (·.2 = d)).map (·.1) ?_
    intro a b hab heq
    rw [heq] at hab
    exact List.lt_irrefl _ hab
  · rw [List.mem_map]
    constructor
    · rintro ⟨⟨k, c⟩, hmem, rfl⟩
      obtain ⟨hheir, hc⟩ := List.mem_filter.mp hmem
      obtain rfl : c = d := by simpa using hc
      exact ((h.mem_heirs k c).mp hheir).2
    · intro hgained
      refine ⟨(key, d), List.mem_filter.mpr ⟨(h.mem_heirs key d).mpr ⟨hd, hgained⟩, ?_⟩, rfl⟩
      simp
  · rw [h.filter_receiver hd hreplier, List.map_map]
    rfl

end

/-- **Grants are exclusive and announced once.**  For every step of every run from the start:

* a connection that holds a key keeps it, unless it gives it up itself in this step;
* every other registered connection is told one plain success for each key that came to it in this
  step, and nothing else;
* the sender of a lock request is told so exactly if it holds the key afterwards;
* the sender's message comes first, and those to others by the bytes of the keys that came to them.
-/
theorem grants_announced_once (earlier : List (Envelope ρ)) (e : Envelope ρ) :
    let before := (handleAll earlier .empty).2
    let sent := (before.handle e).1
    let after := (before.handle e).2
    (∀ c key, before.holder key = some c →
      after.holder key = some c ∨ e.sender = c ∧ e.command.GivesUp key) ∧
    (∀ d replier, d ≠ e.sender → before.repliers[d]? = some replier →
      ∃ gained : List String, gained.Nodup ∧
        (∀ key, key ∈ gained ↔ after.holder key = some d ∧ before.holder key ≠ some d) ∧
        sent.filter (·.receiver = d) = gained.map fun _ => ⟨d, replier, .reply .ok⟩) ∧
    (∀ r, e.command = .request r → r.op = Operation.lock.name →
      sent = if after.holder r.target = some e.sender then
          before.repliers[e.sender]?.toList.map fun replier => ⟨e.sender, replier, .reply .ok⟩
        else []) ∧
    (∃ (own : List (Delivery ρ)) (heirs : List (String × ConnectionId)),
      sent = own ++ heirs.flatMap (fun heir => after.reply heir.2 .ok) ∧
      own.length ≤ 1 ∧ (∀ m ∈ own, m.receiver = e.sender) ∧
      (∀ key next, (key, next) ∈ heirs
        ↔ next ≠ e.sender ∧ after.holder key = some next ∧ before.holder key ≠ some next) ∧
      heirs.Pairwise fun a b => Utf8.encode a.1 < Utf8.encode b.1) := by
  intro before sent after
  obtain ⟨own, heirs, h⟩ := handover_handle before e
  refine ⟨fun c key => h.kept key c, fun d replier hd hreplier => h.exists_gained hd hreplier, ?_,
    own, heirs, h.sent, h.own_length, h.own_receiver, h.mem_heirs, h.sorted⟩
  intro r he hop
  have hreply : before.reply e.sender .ok
      = before.repliers[e.sender]?.toList.map fun replier => ⟨e.sender, replier, .reply .ok⟩ := by
    rw [reply_eq]
    cases before.repliers[e.sender]? <;> rfl
  rw [← hreply]
  exact before.sent_of_lock he hop

end Core

end LockService
