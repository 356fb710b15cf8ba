import Duende.Core.Backoff
import Duende.Trans.Interleave

/-!
# The load tester

`LoadTester::run` with any number of workers, one atomic step at a time: spawning, the two
conditions that end the loop of a worker, the request handler, the updates of the shared metrics,
and the report once all workers are joined.
-/

namespace Duende

/-- `1.0 / rps`; the quotient by zero is infinite. -/
def F64.recip : F64 → F64
  | .finite q => if q = 0 then .infinite false else .finite (1 / q)
  | .infinite _ => .finite 0
  | .nan => .nan

namespace Test

open Trans

/-- Load test configuration; durations are in nanoseconds. -/
structure LoadTestConfig where
  concurrentUsers : UInt32
  rampUp : Nat
  duration : Nat
  requestsPerUser : Option UInt32
  targetRps : Option F64

namespace LoadTestConfig

/-- The interval of the rate limiting; the outer `none` is the panic of `from_secs_f64`. -/
def interval (c : LoadTestConfig) : Option (Option Nat) :=
  match c.targetRps with
  | none => some none
  | some rps =>
    (Core.fromSecsF64 (rps.recip.times (.finite c.concurrentUsers.toNat))).map some

/-- When the workers stop, from the start of the test on. -/
def testEnd (c : LoadTestConfig) : Nat := c.rampUp + c.duration

end LoadTestConfig

/-! ## Metrics -/

/-- Shared metrics for concurrent load test workers. -/
structure LoadMetrics where
  totalRequests : UInt64 := 0
  successful : UInt64 := 0
  failed : UInt64 := 0
  latenciesUs : List UInt64 := []
  deriving DecidableEq, Repr

/-- How a request ended. -/
inductive Outcome where
  | success (latencyUs : UInt64)
  | failure
  deriving DecidableEq, Repr

def Outcome.isSuccess : Outcome → Bool
  | success _ => true
  | failure => false

/-- Where `record_success` or `record_failure` stands. -/
inductive RecordPc where
  | total (o : Outcome)
  | successful (latencyUs : UInt64)
  | push (latencyUs : UInt64)
  | failed
  deriving DecidableEq, Repr

/-- An atomic step of `record_success` or `record_failure`; the list is locked for the push. -/
def recordStep (m : LoadMetrics) : RecordPc → LoadMetrics × (RecordPc ⊕ Unit)
  | .total o =>
    ({ m with totalRequests := m.totalRequests + 1 },
      match o with
      | .success latencyUs => .inl (.successful latencyUs)
      | .failure => .inl .failed)
  | .successful latencyUs => ({ m with successful := m.successful + 1 }, .inl (.push latencyUs))
  | .push latencyUs => ({ m with latenciesUs := m.latenciesUs ++ [latencyUs] }, .inr ())
  | .failed => ({ m with failed := m.failed + 1 }, .inr ())

/-- The metrics, as an object that every request is recorded on. -/
def metricsObj : Obj LoadMetrics RecordPc Outcome Unit Unit Empty where
  start o := .total o
  exec m p _ := some (recordStep m p)
  env _ e := nomatch e

/-! ## The report -/

/-- Computes percentile from sorted slice; `none` is an index out of bounds. -/
def percentile (sorted : List UInt64) (p : Nat) : Option UInt64 :=
  if sorted.isEmpty then some 0
  else
    let idx := min (sorted.length * p % 2 ^ 64 / 100) (sorted.length - 1)
    sorted[idx]?

/-- Load test report. -/
structure LoadTestReport where
  totalRequests : UInt64
  successful : UInt64
  failed : UInt64
  latencyP50Us : UInt64
  latencyP95Us : UInt64
  latencyP99Us : UInt64
  throughputRps : ℚ
  errorRate : ℚ
  deriving DecidableEq

/-- The report of the test, which took `elapsed` nanoseconds. -/
def LoadMetrics.report (m : LoadMetrics) (elapsed : Nat) : Option LoadTestReport :=
  let latencies := m.latenciesUs.mergeSort
  (if latencies.isEmpty then some (0, 0, 0)
    else do
      let p50 ← percentile latencies 50
      let p95 ← percentile latencies 95
      let p99 ← percentile latencies 99
      pure (p50, p95, p99)).map fun (p50, p95, p99) => {
    totalRequests := m.totalRequests
    successful := m.successful
    failed := m.failed
    latencyP50Us := p50
    latencyP95Us := p95
    latencyP99Us := p99
    throughputRps := if 0 < elapsed then m.totalRequests.toNat / (elapsed / 10 ^ 9 : ℚ) else 0
    errorRate := if 0 < m.totalRequests then m.failed.toNat / (m.totalRequests.toNat : ℚ) else 0 }

/-! ## The workers -/

/-- Load tester for daemons: its configuration, and whether a request handler is set. -/
structure LoadTester where
  config : LoadTestConfig
  handler : Bool

namespace LoadTester

def users (t : LoadTester) : Nat := t.config.concurrentUsers.toNat

/-- What a worker does next. -/
inductive Phase where
  | unspawned
  /-- It waits for its turn in the ramp-up. -/
  | rampUp
  /-- It is at the top of the loop. -/
  | looping
  | executing
  | recording
  | ended
  deriving DecidableEq, Repr

/-- A request that was executed. -/
structure Request (n : Nat) where
  userId : Fin n
  requestId : UInt64
  outcome : Outcome
  deriving DecidableEq, Repr

/-- A load test with `n` workers: the metrics and the calls that record in them, the workers with
their next request ids, how many are spawned, the report, and the requests executed so far. -/
structure Load (n : Nat) where
  conf : Conf (Fin n) LoadMetrics RecordPc
  phase : Fin n → Phase
  requestId : Fin n → UInt64
  spawned : Nat
  report : Option LoadTestReport
  executed : List (Request n)

/-- What happens next: `run` spawns a worker, a worker takes a step, or `run`, having joined them
all, makes the report. A step that reads a clock is given the time, and the execution of a
request how it ended. -/
inductive Action (n : Nat) where
  | spawn
  | rampedUp (u : Fin n)
  | check (u : Fin n) (now : Nat)
  | execute (u : Fin n) (success : Bool) (latencyUs : UInt64)
  | record (u : Fin n)
  | finish (elapsed : Nat)
  deriving DecidableEq, Repr

def start (t : LoadTester) : Load t.users where
  conf := Obj.init {}
  phase _ := .unspawned
  requestId _ := 0
  spawned := 0
  report := none
  executed := []

/-- A request succeeds as the handler says; without a handler, one in a hundred fails. -/
def outcome (t : LoadTester) (requestId : UInt64) (success : Bool) (latencyUs : UInt64) :
    Outcome :=
  if (if t.handler then success else requestId % 100 ≠ 0) then .success latencyUs else .failure

namespace Load

variable {n : Nat}

/-- Worker `u` goes on to `p`. -/
def goTo (s : Load n) (u : Fin n) (p : Phase) : Load n :=
  { s with phase := Function.update s.phase u p }

end Load

/-- Whether the worker ends its loop. -/
def ends (t : LoadTester) (requestId : UInt64) (now : Nat) : Bool :=
  decide (t.config.testEnd ≤ now) ||
    t.config.requestsPerUser.any fun max => max.toUInt64 ≤ requestId

def step (t : LoadTester) (s : Load t.users) : Action t.users → Option (Load t.users)
  | .spawn =>
    if h : s.spawned < t.users then
      some { s.goTo ⟨s.spawned, h⟩ .rampUp with spawned := s.spawned + 1 }
    else none
  | .rampedUp u =>
    if s.phase u = .rampUp then
      some (s.goTo u (if t.config.interval.isSome then .looping else .ended))
    else none
  | .check u now =>
    if s.phase u = .looping then
      some (s.goTo u (if t.ends (s.requestId u) now then .ended else .executing))
    else none
  | .execute u success latencyUs =>
    if s.phase u = .executing then
      let o := t.outcome (s.requestId u) success latencyUs
      (metricsObj.act s.conf (.call u o)).map fun conf =>
        { s.goTo u .recording with
          conf := conf, executed := s.executed ++ [⟨u, s.requestId u, o⟩] }
    else none
  | .record u =>
    if s.phase u = .recording then
      (metricsObj.act s.conf (.step u ())).map fun conf =>
        if (conf.pc u).isSome then { s with conf := conf }
        else
          -- recorded: the next request, after the sleep of the rate limiting
          { s.goTo u .looping with
            conf := conf, requestId := Function.update s.requestId u (s.requestId u + 1) }
    else none
  | .finish elapsed =>
    if s.spawned = t.users ∧ (∀ u, s.phase u = .ended) ∧ s.report = none then
      (s.conf.shared.report elapsed).map fun r => { s with report := some r }
    else none

end LoadTester

end Test

end Duende
