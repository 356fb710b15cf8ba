import Duende.Num

/-!
# The circuit breaker, one call at a time

`CircuitBreaker` has the fields of the source's struct, without their locks. Instants
and durations are natural numbers of nanoseconds; a call that reads the clock takes the
reading `now` as an argument. No public call reads the clock twice. The calls here run
without interruption; `Duende.Policy.Interleaved` has their atomic steps.
-/

namespace Duende.Policy

inductive CircuitState where
  | closed
  | open
  | halfOpen
  deriving DecidableEq, Repr

structure CircuitBreaker where
  state : CircuitState
  failureThreshold : UInt32
  failureCount : Nat
  successCount : Nat
  recoveryTimeout : Nat
  openedAt : Option Nat
  deriving DecidableEq, Repr

/-- `opened.elapsed()`: saturating, as `Instant::elapsed` is. -/
def elapsed (now opened : Nat) : Nat := now - opened

namespace CircuitBreaker

def new (failureThreshold : UInt32) (recoveryTimeout : Nat) : CircuitBreaker where
  state := .closed
  failureThreshold := failureThreshold
  failureCount := 0
  successCount := 0
  recoveryTimeout := recoveryTimeout
  openedAt := none

/-- `Default::default`: five failures, thirty seconds. -/
def default : CircuitBreaker := new 5 30000000000

def «open» (b : CircuitBreaker) (now : Nat) : CircuitBreaker :=
  { b with state := .open, openedAt := some now, successCount := 0 }

def close (b : CircuitBreaker) : CircuitBreaker :=
  { b with state := .closed, failureCount := 0, successCount := 0, openedAt := none }

/-- The test `maybe_transition` makes on `opened_at`. -/
def shouldTransition (b : CircuitBreaker) (now : Nat) : Bool :=
  match b.openedAt with
  | some opened => decide (b.recoveryTimeout ≤ elapsed now opened)
  | none => false

def maybeTransition (b : CircuitBreaker) (now : Nat) : CircuitBreaker :=
  if b.state ≠ .open then b
  else if b.shouldTransition now then { b with state := .halfOpen, successCount := 0 }
  else b

def currentState (b : CircuitBreaker) (now : Nat) : CircuitBreaker × CircuitState :=
  let b' := b.maybeTransition now
  (b', b'.state)

/-- Whether requests pass in a state. -/
def allows : CircuitState → Bool
  | .closed | .halfOpen => true
  | .open => false

def allow (b : CircuitBreaker) (now : Nat) : CircuitBreaker × Bool :=
  let b' := b.maybeTransition now
  (b', allows b'.state)

def recordSuccess (b : CircuitBreaker) : CircuitBreaker :=
  match b.state with
  | .closed => { b with failureCount := 0 }
  | .halfOpen =>
    let count := u64Add b.successCount 1
    if 3 ≤ count then close { b with successCount := count }
    else { b with successCount := count }
  | .open => b

def recordFailure (b : CircuitBreaker) (now : Nat) : CircuitBreaker :=
  match b.state with
  | .closed =>
    let count := u64Add b.failureCount 1
    if b.failureThreshold.toNat ≤ count then CircuitBreaker.open { b with failureCount := count } now
    else { b with failureCount := count }
  | .halfOpen => b.open now
  | .open => b

def reset (b : CircuitBreaker) : CircuitBreaker := b.close

end CircuitBreaker

/-- The public calls. -/
inductive Op where
  | state
  | allow
  | recordSuccess
  | recordFailure
  | failureCount
  | reset
  deriving DecidableEq, Repr

/-- What a call returns. -/
inductive Res where
  | unit
  | state (s : CircuitState)
  | allowed (b : Bool)
  | count (n : Nat)
  deriving DecidableEq, Repr

/-- One call, the clock reading `now`. -/
def CircuitBreaker.call (b : CircuitBreaker) (now : Nat) : Op → CircuitBreaker × Res
  | .state => ((b.currentState now).1, .state (b.currentState now).2)
  | .allow => ((b.allow now).1, .allowed (b.allow now).2)
  | .recordSuccess => (b.recordSuccess, .unit)
  | .recordFailure => (b.recordFailure now, .unit)
  | .failureCount => (b, .count b.failureCount)
  | .reset => (b.reset, .unit)

end Duende.Policy
