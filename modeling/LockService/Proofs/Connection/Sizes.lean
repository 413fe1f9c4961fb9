import LockService.CommandLine.Basic
import LockService.Proofs.Connection.Headroom

/-!
# Sizes that a server can be run with

`Config.check` bounds the sizes of a configuration from below.  From above they are bounded only when
queues are made with them (`Queue.make?`): the inbox at the start, and a queue of replies for each
connection.  And the sum that the reply capacity is compared with stops at the largest word.  So a
configuration may be accepted and be of no use (`Config.exists_accepted_unusable`): its reply capacity is
less than the sum as an integer, or the server does not start, or it starts and cannot take up a
connection.

* `Config.outgrows_iff_of_check` — the reply capacity is at least the sum as an integer, unless that is
  no word.
* `Server.exists_start_iff_of_check`, `Server.Reaches.isSome_accept?_iff` — a server starts if there can
  be an inbox of the size asked for; it takes up connections, after whatever has happened, if there can be
  a queue of replies.
* **`Config.accepted_usable_iff`** — of the accepted configurations those are of use whose reply capacity
  a queue can have: the other sizes are less.  A configuration that comes from a command line without a
  reply capacity is accepted whenever the sizes that were given are positive, and it is of use whenever
  the sum of the two is a size that a queue can have.
-/

namespace LockService

/-- Whether a server can be run with a configuration: the reply capacity is more than the window and the
inbox together, as integers; the server starts; and whatever has happened since, it can take up another
connection. -/
structure Config.Usable (c : Config) : Prop where
  outgrows : c.replyWindow.toNat + c.inboundCapacity.toNat + 1 ≤ c.replyCapacity.toNat
  starts : ∃ start, Server.start c = .ok start
  accepts : ∀ {start s : Server} {history : List (Envelope Nat)}, Server.start c = .ok start →
    start.Reaches history s → ∀ buffer, (s.accept? buffer).isSome = true

/-! ## The sum -/

namespace Config

/-- A checked reply capacity is more than the other sizes together, unless no word is. -/
theorem outgrows_iff_of_check {c : Config} (hcheck : c.check = .ok ()) :
    c.replyWindow.toNat + c.inboundCapacity.toNat + 1 ≤ c.replyCapacity.toNat ↔
      c.replyWindow.toNat + c.inboundCapacity.toNat + 1 < UInt64.size := by
  obtain ⟨-, -, hminimum, -⟩ := check_eq_ok_iff.mp hcheck
  rw [toNat_minimum] at hminimum
  have hword := c.replyCapacity.toNat_lt_size
  omega

end Config

/-! ## The queues -/

namespace Server

theorem exists_start_iff_of_check {config : Config} (hcheck : config.check = .ok ()) :
    (∃ start, Server.start config = .ok start) ↔
      config.inboundCapacity.toNat ≤ Queue.maxCapacity := by
  obtain ⟨hinbound, -⟩ := Config.check_eq_ok_iff.mp hcheck
  simp only [start_eq_ok_iff, hcheck, true_and]
  rw [← Option.isSome_iff_exists, isSome_make?_iff]
  exact and_iff_right hinbound

/-- Whether a server can take up a connection does not change: its limits stay as they are. -/
theorem Reaches.isSome_accept?_iff {config : Config} {start s : Server}
    {history : List (Envelope Nat)} (hstart : Server.start config = .ok start)
    (h : start.Reaches history s) (buffer : Nat) :
    (s.accept? buffer).isSome = true ↔ config.replyCapacity.toNat ≤ Queue.maxCapacity := by
  obtain ⟨hcheck, hmake⟩ := start_eq_ok_iff.mp hstart
  obtain ⟨-, hwindow, hminimum, -⟩ := Config.check_eq_ok_iff.mp hcheck
  have hpos : 0 < config.replyCapacity.toNat := by
    rw [Config.toNat_minimum] at hminimum
    have hsize : 1 < UInt64.size := by decide
    omega
  rw [Server.isSome_accept?_iff, (h.bounds hmake).1]
  exact and_iff_right hpos

end Server

/-! ## Configurations that are of use -/

/-- An accepted configuration is of use if and only if a queue can have its reply capacity. -/
theorem Config.usable_iff_of_check {c : Config} (hcheck : c.check = .ok ()) :
    c.Usable ↔ c.replyCapacity.toNat ≤ Queue.maxCapacity := by
  constructor
  · intro h
    obtain ⟨start, hstart⟩ := h.starts
    exact (Server.Reaches.start.isSome_accept?_iff hstart 0).mp (h.accepts hstart .start 0)
  · intro hcapacity
    have hmax : Queue.maxCapacity < UInt64.size - 1 := by decide
    obtain ⟨-, -, hminimum, -⟩ := check_eq_ok_iff.mp hcheck
    rw [toNat_minimum] at hminimum
    have houtgrows := (outgrows_iff_of_check hcheck).mpr (by omega)
    have hinbound : c.inboundCapacity.toNat ≤ Queue.maxCapacity := by omega
    exact ⟨houtgrows, (Server.exists_start_iff_of_check hcheck).mpr hinbound,
      fun hstart h buffer => (h.isSome_accept?_iff hstart buffer).mpr hcapacity⟩

namespace CommandLine.ServeArgs

variable {args : ServeArgs}

theorem toNat_replyCapacity (hgiven : args.replyCapacity = none) :
    args.config.replyCapacity.toNat = max 4096 args.config.minimum.toNat := by
  have hcapacity : args.config.replyCapacity
      = if 4096 ≤ args.config.minimum then args.config.minimum else 4096 := by
    rw [config, hgiven]
    rfl
  have husual : (4096 : UInt64).toNat = 4096 := rfl
  rw [hcapacity]
  split
  · next h =>
    rw [UInt64.le_iff_toNat_le, husual] at h
    exact (Nat.max_eq_right h).symm
  · next h =>
    rw [UInt64.le_iff_toNat_le, husual] at h
    exact (Nat.max_eq_left (Nat.le_of_not_le h)).symm

/-- A configuration without a given reply capacity is accepted if the sizes that were given are
positive. -/
theorem check_config_eq_ok_iff (hgiven : args.replyCapacity = none) :
    args.config.check = .ok () ↔ 0 < args.inboundCapacity.toNat ∧ 0 < args.replyWindow.toNat ∧
      args.statsIntervalSecs ≠ some 0 := by
  have hminimum : args.config.minimum.toNat ≤ args.config.replyCapacity.toNat := by
    rw [toNat_replyCapacity hgiven]
    exact Nat.le_max_right ..
  have hinterval : args.config.statsInterval = some 0 ↔ args.statsIntervalSecs = some 0 := by
    show args.statsIntervalSecs.map (·.toNat * 1000000000) = some 0 ↔ _
    cases args.statsIntervalSecs with
    | none => simp
    | some secs =>
        rw [Option.map_some, Option.some.injEq, Option.some.injEq, ← UInt64.toNat_inj,
          UInt64.toNat_zero]
        omega
  rw [Config.check_eq_ok_iff, ne_eq, hinterval]
  exact and_congr_right' (and_congr_right' (and_iff_right hminimum))

end CommandLine.ServeArgs

open CommandLine (ServeArgs)

/-- **Which configurations are of use.**  An accepted one is if and only if a queue can have its reply
capacity.  One that comes from a command line without a reply capacity is accepted if and only if the
window, the inbound capacity and the interval, where there is one, are positive; it is of use if and only
if a queue can have the sum of the two sizes and one. -/
theorem Config.accepted_usable_iff (c : Config) (args : ServeArgs) :
    (c.check = .ok () → (c.Usable ↔ c.replyCapacity.toNat ≤ Queue.maxCapacity)) ∧
    (args.replyCapacity = none →
      (args.config.check = .ok () ↔ 0 < args.inboundCapacity.toNat ∧ 0 < args.replyWindow.toNat ∧
        args.statsIntervalSecs ≠ some 0) ∧
      (args.config.check = .ok () → (args.config.Usable ↔
        args.replyWindow.toNat + args.inboundCapacity.toNat + 1 ≤ Queue.maxCapacity))) := by
  refine ⟨usable_iff_of_check, fun hgiven =>
    ⟨ServeArgs.check_config_eq_ok_iff hgiven, fun hcheck => ?_⟩⟩
  have hmax : 4096 ≤ Queue.maxCapacity ∧ Queue.maxCapacity < UInt64.size - 1 := by decide
  rw [usable_iff_of_check hcheck, ServeArgs.toNat_replyCapacity hgiven, toNat_minimum]
  show max 4096 (min (args.replyWindow.toNat + args.inboundCapacity.toNat + 1) _) ≤ _ ↔ _
  omega

/-- The largest sizes that go together. -/
theorem Config.accepted_usable_iff_largest :
    let config : Config :=
      { inboundCapacity := 2305843009213693949, replyWindow := 1,
        replyCapacity := 2305843009213693951 }
    let args : ServeArgs :=
      { inboundCapacity := 2305843009213693949, replyWindow := 1, statsIntervalSecs := some 1 }
    config.check = .ok () ∧ config.Usable ∧ config.replyCapacity.toNat = Queue.maxCapacity ∧
      args.replyCapacity = none ∧ args.config.check = .ok () ∧ args.config.Usable := by
  intro config args
  obtain ⟨haccepted, hderived⟩ := accepted_usable_iff config args
  have hcheck : config.check = .ok () := by decide
  have hcapacity : config.replyCapacity.toNat = Queue.maxCapacity := by decide
  have hgiven : args.replyCapacity = none := rfl
  obtain ⟨hargs, husable⟩ := hderived hgiven
  have hargsCheck : args.config.check = .ok () := hargs.mpr (by decide)
  exact ⟨hcheck, (haccepted hcheck).mpr hcapacity.le, hcapacity, hgiven, hargsCheck,
    (husable hargsCheck).mpr (by decide)⟩

/-- **Not everything that is accepted is of use.**  The first configuration has a reply capacity that is
less than its window alone and its inbox together.  The server of the second, which a command line gives
without a reply capacity, does not start; that of the third starts, and can take up no connection. -/
theorem Config.exists_accepted_unusable :
    let tight : Config :=
      { inboundCapacity := 1, replyWindow := 18446744073709551615,
        replyCapacity := 18446744073709551615 }
    let broad : ServeArgs := { inboundCapacity := 2305843009213693952 }
    let patient : ServeArgs := { replyWindow := 2305843009213693952 }
    (tight.check = .ok () ∧
      tight.replyCapacity.toNat < tight.replyWindow.toNat + tight.inboundCapacity.toNat + 1) ∧
    (broad.replyCapacity = none ∧ broad.config.check = .ok () ∧
      Server.start broad.config = .error .inboxTooLarge) ∧
    (patient.replyCapacity = none ∧ patient.config.check = .ok () ∧
      ∃ start, Server.start patient.config = .ok start ∧ ∀ buffer, start.accept? buffer = none) := by
  intro tight broad patient
  have hbroad : broad.config.check = .ok () := by decide
  have hpatient : patient.config.check = .ok () := by decide
  refine ⟨⟨by decide, by decide⟩, ⟨rfl, hbroad, ?_⟩, rfl, hpatient, ?_⟩
  · have hmake : Server.make? broad.config = none := by
      rw [← Option.not_isSome_iff_eq_none, Server.isSome_make?_iff]
      decide
    rw [Server.start, hbroad, hmake]
  · obtain ⟨start, hstart⟩ := (Server.exists_start_iff_of_check hpatient).mpr (by decide)
    refine ⟨start, hstart, fun buffer => ?_⟩
    rw [← Option.not_isSome_iff_eq_none, Server.Reaches.start.isSome_accept?_iff hstart]
    decide

end LockService
