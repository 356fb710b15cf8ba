import Duende.Core.Types
import Duende.Num
import Duende.Trans.Keyed
import Duende.Trans.Run

/-!
# The health monitor

Every operation holds the write lock on `states` from its lookup to its last event, so
one operation is one step here. The map is a function from ids, an instant is a natural
number of nanoseconds, and the events an operation sends are part of its outcome. What folds
over the values of the map takes the iteration it folds over; floating-point numbers are
exact rationals.
-/

namespace Duende.Observe

open Trans

inductive HealthEvent where
  | healthy (id : DaemonId) (status : HealthStatus)
  | unhealthy (id : DaemonId) (status : HealthStatus) (failureCount : Nat)
  | timeout (id : DaemonId) (timeout : Nat)
  | recovered (id : DaemonId) (failuresBeforeRecovery : Nat)
  deriving DecidableEq, Repr

def HealthEvent.id : HealthEvent → DaemonId
  | healthy id _ | unhealthy id _ _ | timeout id _ | recovered id _ => id

/-- Configuration for health monitoring; durations in nanoseconds. -/
structure HealthConfig where
  checkInterval : Nat := 30000000000
  checkTimeout : Nat := 5000000000
  failureThreshold : UInt32 := 3
  recoveryThreshold : UInt32 := 2
  deriving DecidableEq, Repr

/-- Health state for a single daemon. -/
structure DaemonHealthState where
  id : DaemonId
  lastStatus : Option HealthStatus
  lastCheck : Option Nat
  consecutiveFailures : Nat
  consecutiveSuccesses : Nat
  isHealthy : Bool
  totalChecks : Nat
  totalFailures : Nat
  deriving DecidableEq, Repr

namespace DaemonHealthState

def new (id : DaemonId) : DaemonHealthState where
  id := id
  lastStatus := none
  lastCheck := none
  consecutiveFailures := 0
  consecutiveSuccesses := 0
  isHealthy := true
  totalChecks := 0
  totalFailures := 0

def recordSuccess (s : DaemonHealthState) (now : Nat) (status : HealthStatus) :
    DaemonHealthState :=
  { s with
    lastStatus := some status
    lastCheck := some now
    consecutiveFailures := 0
    consecutiveSuccesses := u32Add s.consecutiveSuccesses 1
    totalChecks := u64Add s.totalChecks 1 }

def recordFailure (s : DaemonHealthState) (now : Nat) (status : Option HealthStatus) :
    DaemonHealthState :=
  { s with
    lastStatus := status
    lastCheck := some now
    consecutiveFailures := u32Add s.consecutiveFailures 1
    consecutiveSuccesses := 0
    totalChecks := u64Add s.totalChecks 1
    totalFailures := u64Add s.totalFailures 1 }

def failureRate (s : DaemonHealthState) : ℚ :=
  if s.totalChecks = 0 then 0 else (s.totalFailures : ℚ) / s.totalChecks * 100

/-- What `record_check` does once it has found the daemon. -/
def check (s : DaemonHealthState) (config : HealthConfig) (now : Nat) (id : DaemonId)
    (status : HealthStatus) : DaemonHealthState × List HealthEvent :=
  let wasHealthy := s.isHealthy
  if status.isHealthy then
    let s := s.recordSuccess now status
    let (s, recovered) :=
      if !wasHealthy && decide (config.recoveryThreshold.toNat ≤ s.consecutiveSuccesses) then
        let failuresBefore := u64Sub s.totalFailures s.consecutiveSuccesses
        ({ s with isHealthy := true }, [HealthEvent.recovered id (asU32 failuresBefore)])
      else (s, [])
    (s, recovered ++ if s.isHealthy then [.healthy id status] else [])
  else
    let s := s.recordFailure now (some status)
    if wasHealthy && decide (config.failureThreshold.toNat ≤ s.consecutiveFailures) then
      ({ s with isHealthy := false }, [.unhealthy id status s.consecutiveFailures])
    else (s, [.unhealthy id status s.consecutiveFailures])

/-- What `record_timeout` does once it has found the daemon. -/
def timeout (s : DaemonHealthState) (config : HealthConfig) (now : Nat) (id : DaemonId) :
    DaemonHealthState × List HealthEvent :=
  let s := s.recordFailure now none
  (if s.isHealthy && decide (config.failureThreshold.toNat ≤ s.consecutiveFailures) then
      { s with isHealthy := false }
    else s,
    [.timeout id config.checkTimeout])

end DaemonHealthState

/-- The error of an operation on a daemon that is not registered. -/
inductive ObserveError where
  | notFound (msg : String)
  deriving DecidableEq, Repr

structure HealthMonitor where
  config : HealthConfig
  states : DaemonId → Option DaemonHealthState

/-- Aggregate health statistics. -/
structure HealthStatistics where
  totalDaemons : Nat
  healthyDaemons : Nat
  unhealthyDaemons : Nat
  totalChecks : Nat
  totalFailures : Nat
  averageFailureRate : ℚ
  deriving DecidableEq

/-- The operations that write the states. -/
inductive Op where
  | register (id : DaemonId)
  | unregister (id : DaemonId)
  | recordCheck (id : DaemonId) (status : HealthStatus)
  | recordTimeout (id : DaemonId)
  deriving DecidableEq, Repr

def Op.target : Op → DaemonId
  | register id | unregister id | recordCheck id _ | recordTimeout id => id

/-- What an operation leaves, sends and returns. -/
structure Outcome where
  monitor : HealthMonitor
  events : List HealthEvent
  result : Except ObserveError Unit

namespace HealthMonitor

def new (config : HealthConfig) : HealthMonitor where
  config := config
  states := fun _ => none

def register (m : HealthMonitor) (id : DaemonId) : HealthMonitor :=
  { m with states := fun j => if j = id then some (.new id) else m.states j }

def unregister (m : HealthMonitor) (id : DaemonId) : HealthMonitor :=
  { m with states := fun j => if j = id then none else m.states j }

def getState (m : HealthMonitor) (id : DaemonId) : Option DaemonHealthState := m.states id

def notRegistered (id : DaemonId) : ObserveError :=
  .notFound ("daemon " ++ id.display ++ " not registered")

/-- Look the daemon up, and store what `f` makes of its state. -/
def modify (m : HealthMonitor) (id : DaemonId)
    (f : DaemonHealthState → DaemonHealthState × List HealthEvent) : Outcome :=
  match m.states id with
  | none => ⟨m, [], .error (notRegistered id)⟩
  | some s =>
    ⟨{ m with states := fun j => if j = id then some (f s).1 else m.states j }, (f s).2, .ok ()⟩

def recordCheck (m : HealthMonitor) (now : Nat) (id : DaemonId) (status : HealthStatus) : Outcome :=
  m.modify id fun s => s.check m.config now id status

def recordTimeout (m : HealthMonitor) (now : Nat) (id : DaemonId) : Outcome :=
  m.modify id fun s => s.timeout m.config now id

/-- One operation, the clock reading `now`. -/
def op (m : HealthMonitor) (now : Nat) : Op → Outcome
  | .register id => ⟨m.register id, [], .ok ()⟩
  | .unregister id => ⟨m.unregister id, [], .ok ()⟩
  | .recordCheck id status => m.recordCheck now id status
  | .recordTimeout id => m.recordTimeout now id

/-- An operation as a step of the monitor; it is never blocked. -/
def act (m : HealthMonitor) (c : Nat × Op) : Option HealthMonitor := some (m.op c.1 c.2).monitor

/-! ## Counts -/

def count (m : HealthMonitor) (it : Iteration m.states) : Nat := it.values.length

def healthyCount (m : HealthMonitor) (it : Iteration m.states) : Nat :=
  (it.values.filter (·.isHealthy)).length

def unhealthyCount (m : HealthMonitor) (it : Iteration m.states) : Nat :=
  (it.values.filter (!·.isHealthy)).length

def statistics (m : HealthMonitor) (it : Iteration m.states) : HealthStatistics :=
  let total := it.values.length
  let healthy := (it.values.filter (·.isHealthy)).length
  { totalDaemons := total
    healthyDaemons := healthy
    unhealthyDaemons := total - healthy
    totalChecks := (it.values.map (·.totalChecks)).foldl u64Add 0
    totalFailures := (it.values.map (·.totalFailures)).foldl u64Add 0
    averageFailureRate :=
      if it.values.isEmpty then 0 else (it.values.map (·.failureRate)).sum / total }

def events (m : HealthMonitor) : List (Nat × Op) → List HealthEvent
  | [] => []
  | c :: cs => (m.op c.1 c.2).events ++ (m.op c.1 c.2).monitor.events cs

end HealthMonitor

end Duende.Observe
