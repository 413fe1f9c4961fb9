import LockService.Text.Decimal

/-!
# Network faults

Why a connection could not be made or an address not be listened on, as the operating system tells
it.
-/

namespace LockService.Net

/-- A fault of the network. -/
inductive Fault
  | permissionDenied
  | noSuchDevice
  | invalidArgument
  | addressInUse
  | addressNotAvailable
  | networkUnreachable
  | timedOut
  | refused
  | hostUnreachable
deriving DecidableEq, Repr

namespace Fault

/-- The number of a fault. -/
def code : Fault → Nat
  | .permissionDenied => 13
  | .noSuchDevice => 19
  | .invalidArgument => 22
  | .addressInUse => 98
  | .addressNotAvailable => 99
  | .networkUnreachable => 101
  | .timedOut => 110
  | .refused => 111
  | .hostUnreachable => 113

/-- The usual words for a fault. -/
def words : Fault → String
  | .permissionDenied => "Permission denied"
  | .noSuchDevice => "No such device"
  | .invalidArgument => "Invalid argument"
  | .addressInUse => "Address already in use"
  | .addressNotAvailable => "Cannot assign requested address"
  | .networkUnreachable => "Network is unreachable"
  | .timedOut => "Connection timed out"
  | .refused => "Connection refused"
  | .hostUnreachable => "No route to host"

/-- Every fault. -/
def all : List Fault :=
  [.permissionDenied, .noSuchDevice, .invalidArgument, .addressInUse, .addressNotAvailable,
    .networkUnreachable, .timedOut, .refused, .hostUnreachable]

/-- The fault with a number. -/
def ofCode? (code : Nat) : Option Fault :=
  all.find? (·.code = code)

/-- What is said about a fault. -/
def message (f : Fault) : String :=
  f.words ++ " (os error " ++ String.ofList (Decimal.write f.code) ++ ")"

end Fault

end LockService.Net
