import LockService.Net.Address

/-!
# Configuration of a service

A service is configured by where it listens and by the sizes of its queues.  Three sizes bound
what may be under way at any time:

* the *inbound capacity* — requests queued between all connections and the core;
* the *reply window* — queued replies at which a connection stops reading requests;
* the *reply capacity* — queued replies at which a connection is given up.

A client that keeps sending can have a window of replies queued, every place of the inbound queue
taken, and one request in the hands of the core.  `minReplyCapacity` is one more than the first two
together, and `Config.check` refuses a reply capacity below it.

All sizes are 64-bit words, and their sum stops at the largest word.
-/

namespace LockService

open Net (SocketAddress)

/-- The bounds on the queued replies of one connection: from `window` on it reads no further
request, at `capacity` it is given up. -/
structure ReplyLimits where
  window : Nat
  capacity : Nat
deriving DecidableEq, Repr, Inhabited

/-- The sum of two sizes, or the largest size if the sum is no size. -/
def saturatingAdd (a b : UInt64) : UInt64 :=
  if a.toNat + b.toNat < UInt64.size then a + b else UInt64.ofNat (UInt64.size - 1)

/-- The smallest reply capacity that a configuration may have. -/
def minReplyCapacity (window inbound : UInt64) : UInt64 :=
  saturatingAdd (saturatingAdd window inbound) 1

theorem toNat_saturatingAdd (a b : UInt64) :
    (saturatingAdd a b).toNat = min (a.toNat + b.toNat) (UInt64.size - 1) := by
  unfold saturatingAdd
  split
  · next h =>
    rw [UInt64.toNat_add, Nat.mod_eq_of_lt h]
    omega
  · next h =>
    show UInt64.size - 1 = _
    omega

theorem toNat_minReplyCapacity (window inbound : UInt64) :
    (minReplyCapacity window inbound).toNat
      = min (window.toNat + inbound.toNat + 1) (UInt64.size - 1) := by
  rw [minReplyCapacity, toNat_saturatingAdd, toNat_saturatingAdd, UInt64.toNat_one]
  omega

/-- How a service is set up.  The interval at which it reports its throughput, if it does, is in
nanoseconds. -/
structure Config where
  listen : SocketAddress := .standard
  inboundCapacity : UInt64 := 2048
  replyWindow : UInt64 := 16
  replyCapacity : UInt64 := 4096
  statsInterval : Option Nat := none
deriving DecidableEq, Repr, Inhabited

/-- Why a configuration is refused. -/
inductive ConfigError
  | noInboundQueue
  | noReplyWindow
  | replyQueueTooSmall (minimum : UInt64)
  | noStatsInterval
deriving DecidableEq, Repr

/-- What is said about a refused configuration. -/
def ConfigError.message : ConfigError → String
  | .noInboundQueue => "inbound queue capacity must be at least 1"
  | .noReplyWindow => "reply window must be at least 1"
  | .replyQueueTooSmall minimum =>
    "reply queue capacity must be at least " ++ String.ofList (Decimal.write minimum.toNat) ++
      " (reply window + inbound capacity + 1)"
  | .noStatsInterval => "stats interval must be positive"

namespace Config

/-- The smallest reply capacity for the configured window and inbound queue. -/
def minimum (c : Config) : UInt64 :=
  minReplyCapacity c.replyWindow c.inboundCapacity

/-- Checks a configuration; of several faults the first is reported. -/
def check (c : Config) : Except ConfigError Unit :=
  if c.inboundCapacity = 0 then .error .noInboundQueue
  else if c.replyWindow = 0 then .error .noReplyWindow
  else if c.replyCapacity < c.minimum then .error (.replyQueueTooSmall c.minimum)
  else if c.statsInterval = some 0 then .error .noStatsInterval
  else .ok ()

theorem toNat_minimum (c : Config) :
    c.minimum.toNat
      = min (c.replyWindow.toNat + c.inboundCapacity.toNat + 1) (UInt64.size - 1) :=
  toNat_minReplyCapacity c.replyWindow c.inboundCapacity

theorem check_eq_ok_iff {c : Config} :
    c.check = .ok () ↔ 0 < c.inboundCapacity.toNat ∧ 0 < c.replyWindow.toNat ∧
      c.minimum.toNat ≤ c.replyCapacity.toNat ∧ c.statsInterval ≠ some 0 := by
  have hzero : ∀ n : UInt64, n = 0 ↔ ¬ 0 < n.toNat := fun n => by
    rw [← UInt64.toNat_inj, UInt64.toNat_zero]
    omega
  simp only [check, hzero, UInt64.lt_iff_toNat_lt]
  constructor
  · intro h
    split at h
    · cases h
    · next hinbound =>
      split at h
      · cases h
      · next hwindow =>
        split at h
        · cases h
        · next hminimum =>
          split at h
          · cases h
          · next hinterval =>
            exact ⟨Decidable.not_not.mp hinbound, Decidable.not_not.mp hwindow,
              Nat.not_lt.mp hminimum, hinterval⟩
  · rintro ⟨hinbound, hwindow, hminimum, hinterval⟩
    rw [if_neg (not_not_intro hinbound), if_neg (not_not_intro hwindow),
      if_neg (Nat.not_lt.mpr hminimum), if_neg hinterval]

/-- The bounds that every connection gets. -/
def replyLimits (c : Config) : ReplyLimits :=
  ⟨c.replyWindow.toNat, c.replyCapacity.toNat⟩

end Config

end LockService
