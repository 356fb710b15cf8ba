import Duende.Num

/-!
# Daemon ids, lifecycle states, signals, handles, health check results and errors
-/

namespace Duende

/-- A daemon's identifier: a UUID. -/
structure DaemonId where
  uuid : BitVec 128
  deriving DecidableEq, Repr

namespace DaemonId

/-- The 32 hexadecimal digits, most significant first. -/
def digits (id : DaemonId) : List Char :=
  (List.range 32).map fun i => Nat.digitChar ((id.uuid.toNat >>> (4 * (31 - i))) % 16)

/-- The hyphenated form a UUID is displayed in. -/
def display (id : DaemonId) : String :=
  let d := id.digits
  "-".intercalate ([d.take 8, (d.drop 8).take 4, (d.drop 12).take 4, (d.drop 16).take 4,
    d.drop 20].map String.ofList)

end DaemonId

/-- Reason for daemon failure. -/
inductive FailureReason where
  | signal (sig : Int32)
  | exitCode (code : Int32)
  | resourceExhausted
  | policyViolation
  | healthCheckTimeout
  | internal
  deriving DecidableEq, Repr

/-- Daemon lifecycle state. -/
inductive DaemonStatus where
  | created
  | starting
  | running
  | paused
  | stopping
  | stopped
  | failed (reason : FailureReason)
  deriving DecidableEq, Repr

def FailureReason.debug : FailureReason → String
  | signal sig => s!"Signal({sig.toInt})"
  | exitCode code => s!"ExitCode({code.toInt})"
  | resourceExhausted => "ResourceExhausted"
  | policyViolation => "PolicyViolation"
  | healthCheckTimeout => "HealthCheckTimeout"
  | internal => "Internal"

namespace DaemonStatus

def isTerminal : DaemonStatus → Bool
  | stopped | failed _ => true
  | _ => false

def isActive : DaemonStatus → Bool
  | running | paused => true
  | _ => false

def canSignal : DaemonStatus → Bool
  | running | paused | stopping => true
  | _ => false

def debug : DaemonStatus → String
  | created => "Created"
  | starting => "Starting"
  | running => "Running"
  | paused => "Paused"
  | stopping => "Stopping"
  | stopped => "Stopped"
  | failed reason => s!"Failed({reason.debug})"

end DaemonStatus

/-- Unix-style signals for daemon control. -/
inductive Signal where
  | hup | int | quit | term | kill | usr1 | usr2 | stop | cont
  deriving DecidableEq, Repr

/-- The platforms an adapter can run daemons on. -/
inductive Platform where
  | linux | macOS | container | pepitaMicroVM | wos | native
  deriving DecidableEq, Repr

/-- Platform-specific handle data. -/
inductive HandleData where
  | systemd (unitName : String)
  | launchd (label : String)
  | container (runtime containerId : String)
  | pepita (vmId : String) (vsockCid : UInt32)
  | wos (pid : UInt32)
  | native (pid : UInt32)
  deriving DecidableEq, Repr

/-- Handle to a running daemon. -/
structure DaemonHandle where
  id : DaemonId
  platform : Platform
  handleData : HandleData
  deriving DecidableEq, Repr

namespace DaemonHandle

def wos (id : DaemonId) (pid : UInt32) : DaemonHandle := ⟨id, .wos, .wos pid⟩

def pid (h : DaemonHandle) : Option UInt32 :=
  match h.handleData with
  | .wos pid | .native pid => some pid
  | _ => none

end DaemonHandle

/-- The errors of the manager and the context. -/
inductive DaemonError where
  | config (msg : String)
  | signal (msg : String)
  | notFound (id : String)
  | state (msg : String)
  deriving DecidableEq, Repr

/-- Individual health check result. -/
structure HealthCheck where
  name : String
  passed : Bool
  message : Option String
  deriving DecidableEq, Repr

/-- Health check result. -/
structure HealthStatus where
  healthy : Bool
  checks : List HealthCheck
  latencyMs : UInt64
  lastCheckEpochMs : UInt64
  deriving DecidableEq, Repr

namespace HealthStatus

/-- The constructor `healthy`; `epoch` is the clock reading. -/
def ofHealthy (latencyMs epoch : UInt64) : HealthStatus where
  healthy := true
  checks := []
  latencyMs := latencyMs
  lastCheckEpochMs := epoch

def ofUnhealthy (reason : String) (latencyMs epoch : UInt64) : HealthStatus where
  healthy := false
  checks := [{ name := "main", passed := false, message := some reason }]
  latencyMs := latencyMs
  lastCheckEpochMs := epoch

def isHealthy (s : HealthStatus) : Bool := s.healthy

end HealthStatus

end Duende
