import Duende.Observe.Monitor
import Duende.Trans.Histogram

/-!
# The syscall tracer

`DaemonTracer` counts the syscalls it samples from `/proc/{pid}/syscall` and reports on the
counts. What it reads from `/proc`, the clock and the order in which the map iterates are inputs
of its calls; the type of the floating-point numbers is a parameter.
`accounting` says what the counters hold after every run.
-/

namespace Duende.Observe

open Trans (Iteration CountsOf)

/-- Errors of the tracer: its own messages, and what reading a file gave. -/
inductive TracerError where
  | tracer (msg : Text)
  | io (e : IoError)
  deriving DecidableEq

structure SyscallInfo where
  name : Text
  number : Int
  deriving DecidableEq

structure TraceEvent where
  syscall : Text
  durationUs : Nat
  sourceLocation : Option Text
  deriving DecidableEq

inductive AnomalyKind where
  | latencySpike
  | errorBurst
  | resourceExhaustion
  deriving DecidableEq, Repr

structure Anomaly (F : Type*) where
  kind : AnomalyKind
  zScore : F
  description : Text

structure AntiPattern where
  name : Text
  severity : Nat
  description : Text
  deriving DecidableEq

structure TraceReport (F : Type*) where
  pid : UInt32
  events : List TraceEvent
  anomalies : List (Anomaly F)
  criticalPath : List Text
  antiPatterns : List AntiPattern

/-- How often each syscall was sampled. -/
abbrev SyscallCounts := Finmap fun _ : Text => Nat

/-- The order in which the map iterates in one call. -/
abbrev Order := ∀ counts : SyscallCounts, Iteration fun name => counts.lookup name

structure DaemonTracer (F : Type*) where
  attachedPid : Option UInt32
  syscallCounts : SyscallCounts
  sampleCount : Nat
  startTime : Option Nat
  anomalyThreshold : F

/-! ## Reading a syscall -/

def parseI64 (s : Text) : Option Int :=
  match s with
  | '-' :: '+' :: _ => none
  | '-' :: ds => (parseUnsigned (2 ^ 63) ds).map fun n => -n
  | ds => (parseUnsigned (2 ^ 63 - 1) ds).map fun n => n

def syscallName (nr : Int) : Text :=
  match nr with
  | -1 => "none".toList
  | 0 => "read".toList
  | 1 => "write".toList
  | 2 => "open".toList
  | 3 => "close".toList
  | 4 => "stat".toList
  | 5 => "fstat".toList
  | 6 => "lstat".toList
  | 7 => "poll".toList
  | 8 => "lseek".toList
  | 9 => "mmap".toList
  | 10 => "mprotect".toList
  | 11 => "munmap".toList
  | 12 => "brk".toList
  | 13 => "rt_sigaction".toList
  | 14 => "rt_sigprocmask".toList
  | 15 => "rt_sigreturn".toList
  | 16 => "ioctl".toList
  | 17 => "pread64".toList
  | 18 => "pwrite64".toList
  | 19 => "readv".toList
  | 20 => "writev".toList
  | 21 => "access".toList
  | 22 => "pipe".toList
  | 23 => "select".toList
  | 24 => "sched_yield".toList
  | 35 => "nanosleep".toList
  | 56 => "clone".toList
  | 57 => "fork".toList
  | 59 => "execve".toList
  | 60 => "exit".toList
  | 61 => "wait4".toList
  | 62 => "kill".toList
  | 202 => "futex".toList
  | 228 => "clock_gettime".toList
  | 230 => "clock_nanosleep".toList
  | 231 => "exit_group".toList
  | 232 => "epoll_wait".toList
  | 257 => "openat".toList
  | 262 => "newfstatat".toList
  | 270 => "pselect6".toList
  | 281 => "epoll_pwait".toList
  | nr => "syscall_".toList ++ decimalInt nr

/-- Reads the current syscall from the content of `/proc/{pid}/syscall`. -/
def readCurrentSyscall (syscall : Except IoError Text) : Except TracerError SyscallInfo :=
  match syscall with
  | .error e => .error (.io e)
  | .ok content =>
    let content := trim content
    if content = "running".toList then .ok ⟨"running".toList, -1⟩
    else
      match splitWhitespace content with
      | [] => .error (.tracer "empty /proc/syscall".toList)
      | part :: _ =>
        match parseI64 part with
        | none => .error (.tracer "failed to parse syscall number".toList)
        | some nr => .ok ⟨syscallName nr, nr⟩

/-- Reads the wait channel from the content of `/proc/{pid}/wchan`. -/
def readWchan (wchan : Except IoError Text) : Except TracerError Text :=
  match wchan with
  | .error e => .error (.io e)
  | .ok content => .ok (trim content)

/-! ## Anomalies and anti-patterns -/

/-- The operations on floating-point numbers that are no operators. -/
structure Floats (F : Type*) where
  sqrt : F → F
  abs : F → F
  /-- The cast `as u32`. -/
  asU32 : F → Nat
  /-- The text of `{:.2}`. -/
  fixed2 : F → Text

/-- Exact arithmetic. -/
noncomputable def exact (fixed2 : ℝ → Text) : Floats ℝ where
  sqrt := Real.sqrt
  abs x := |x|
  asU32 x := min ⌊x⌋₊ u32Max
  fixed2 := fixed2

namespace DaemonTracer

variable {F : Type*} {counts : SyscallCounts}

section Arithmetic

variable [Add F] [Sub F] [Mul F] [Div F] [NatCast F] [OfScientific F] [LT F] [DecidableLT F]

/-- Expected frequency: the mean of the counts. The integer sum is exact, as in every reachable
state it is the sample count, see `accounting`. -/
def expectedFreq (it : Iteration fun name => counts.lookup name) : F :=
  (it.values.sum : F) / (it.values.length : F)

/-- The square of how far a count lies from the expected frequency. -/
def squaredDiff (it : Iteration fun name => counts.lookup name) (count : Nat) : F :=
  let diff : F := (count : F) - expectedFreq it
  diff * diff

def variance (it : Iteration fun name => counts.lookup name) : F :=
  (it.values.map (squaredDiff it)).foldl (· + ·) 0.0 / (it.values.length : F)

def zScore (fl : Floats F) (it : Iteration fun name => counts.lookup name) (syscall : Text) : F :=
  ((((counts.lookup syscall).getD 0 : Nat) : F) - expectedFreq it) / fl.sqrt (variance it)

def detectFrequencyAnomaly (fl : Floats F) (t : DaemonTracer F)
    (it : Iteration fun name => t.syscallCounts.lookup name) (syscall : Text) :
    Option (Anomaly F) :=
  if t.sampleCount < 10 then none
  else if it.values.sum = 0 then none
  else if fl.sqrt (variance it) < 0.001 then none
  else
    let zScore := zScore fl it syscall
    if t.anomalyThreshold < fl.abs zScore then
      some {
        kind := if 0.0 < zScore then .latencySpike else .resourceExhaustion
        zScore
        description := syscall ++ " called ".toList ++
          decimal ((t.syscallCounts.lookup syscall).getD 0) ++ " times (z-score: ".toList ++
          fl.fixed2 zScore ++ ")".toList }
    else none

/-- One check of `detect_anti_patterns`: a group of syscalls with too large a share. -/
def antiPattern (fl : Floats F) (counts : SyscallCounts) (total : Nat) (group : List Text)
    (ratio : F) (calls : Nat) (name : Text) (severity : Nat) (what why : Text) :
    List AntiPattern :=
  let count := (group.map fun name => (counts.lookup name).getD 0).sum
  let share : F := (count : F) / (total : F)
  if ratio < share ∧ calls < count then
    [⟨name, severity, decimal (fl.asU32 (share * 100.0)) ++ what ++ decimal count ++ why⟩]
  else []

def detectAntiPatterns (fl : Floats F) (t : DaemonTracer F)
    (it : Iteration fun name => t.syscallCounts.lookup name) : List AntiPattern :=
  let total := it.values.sum
  if total = 0 then []
  else
    antiPattern fl t.syscallCounts total
        ["poll".toList, "select".toList, "epoll_wait".toList, "epoll_pwait".toList,
          "pselect6".toList]
        0.5 100 "BusyPolling".toList 3 "% of syscalls are poll/select (".toList
        " calls) - consider longer timeouts".toList ++
      antiPattern fl t.syscallCounts total ["futex".toList]
        0.3 100 "LockContention".toList 4 "% of syscalls are futex (".toList
        " calls) - possible lock contention".toList ++
      antiPattern fl t.syscallCounts total ["brk".toList, "mmap".toList, "munmap".toList]
        0.2 50 "MemoryChurn".toList 3 "% of syscalls are memory allocation (".toList
        " calls) - consider object pooling".toList

end Arithmetic

def pathEntry (e : Text × Nat) : Text := e.1 ++ " (".toList ++ decimal e.2 ++ ")".toList

def buildCriticalPath (it : Iteration fun name => counts.lookup name) : List Text :=
  ((it.entries.mergeSort fun a b => b.2 ≤ a.2).take 5).map pathEntry

/-! ## Attaching and collecting -/

def withAnomalyThreshold (threshold : F) : DaemonTracer F where
  attachedPid := none
  syscallCounts := ∅
  sampleCount := 0
  startTime := none
  anomalyThreshold := threshold

def new [OfScientific F] : DaemonTracer F where
  attachedPid := none
  syscallCounts := ∅
  sampleCount := 0
  startTime := none
  anomalyThreshold := 2.0

/-- Attaches tracer to a running daemon: `found` says whether `/proc/{pid}/stat` exists. -/
def attach (t : DaemonTracer F) (pid : UInt32) (found : Bool) (now : Nat) :
    Except TracerError Unit × DaemonTracer F :=
  if !found then
    (.error (.tracer ("process ".toList ++ decimal pid.toNat ++ " not found".toList)), t)
  else
    (.ok (), { t with
      attachedPid := some pid
      syscallCounts := ∅
      sampleCount := 0
      startTime := some now })

def detach (t : DaemonTracer F) : DaemonTracer F :=
  { t with attachedPid := none, syscallCounts := ∅, sampleCount := 0, startTime := none }

/-- What one collection reads. -/
structure Sources where
  syscall : Except IoError Text
  wchan : Except IoError Text
  order : Order

def track (t : DaemonTracer F) (name : Text) : DaemonTracer F :=
  { t with
    syscallCounts :=
      t.syscallCounts.insert name (u64Add ((t.syscallCounts.lookup name).getD 0) 1)
    sampleCount := u64Add t.sampleCount 1 }

/-- The state after the current syscall was read. -/
def sampled (t : DaemonTracer F) (src : Sources) : DaemonTracer F :=
  match readCurrentSyscall src.syscall with
  | .ok info => t.track info.name
  | .error _ => t

section Collecting

variable [Add F] [Sub F] [Mul F] [Div F] [NatCast F] [OfScientific F] [LT F] [DecidableLT F]

/-- Linux-specific collection via `/proc`. -/
def collectLinux (fl : Floats F) (t : DaemonTracer F) (pid : UInt32) (src : Sources) :
    TraceReport F × DaemonTracer F :=
  let t' := t.sampled src
  let it := src.order t'.syscallCounts
  let (syscalls, anomalies) := match readCurrentSyscall src.syscall with
    | .ok info => ([TraceEvent.mk info.name 0 none],
        (detectFrequencyAnomaly fl t' it info.name).toList)
    | .error _ => ([], [])
  let waits := match readWchan src.wchan with
    | .ok wchan =>
      if wchan ≠ [] ∧ wchan ≠ "0".toList then [TraceEvent.mk ("wchan:".toList ++ wchan) 0 none]
      else []
    | .error _ => []
  ({ pid
     events := syscalls ++ waits
     anomalies
     criticalPath := buildCriticalPath it
     antiPatterns := detectAntiPatterns fl t' it }, t')

def collect (fl : Floats F) (t : DaemonTracer F) (src : Sources) :
    Except TracerError (TraceReport F) × DaemonTracer F :=
  match t.attachedPid with
  | none => (.error (.tracer "no daemon attached".toList), t)
  | some pid =>
    let (report, t') := collectLinux fl t pid src
    (.ok report, t')

end Collecting

/-! ## Sessions -/

inductive TracerCall where
  | attach (pid : UInt32) (found : Bool) (now : Nat)
  | detach
  | collect (src : Sources)

/-- The sample that a collection takes, if it can read one. -/
def sampleOf (src : Sources) : List Text :=
  match readCurrentSyscall src.syscall with
  | .ok info => [info.name]
  | .error _ => []

/-- The samples since the last successful attach, while a process is attached. -/
def sessionStep : Option (List Text) → TracerCall → Option (List Text)
  | _, .attach _ true _ => some []
  | s, .attach _ false _ => s
  | _, .detach => none
  | s, .collect src => s.map (· ++ sampleOf src)

def session (calls : List TracerCall) : Option (List Text) := calls.foldl sessionStep none

/-- The samples that the counters should hold. -/
def samples (s : Option (List Text)) : List Text := s.getD []

/-- The counters are those of the session. -/
structure Accounts (t : DaemonTracer F) (s : Option (List Text)) : Prop where
  attached : t.attachedPid.isSome = s.isSome
  counts : CountsOf t.syscallCounts (samples s)
  sampleCount : t.sampleCount = (samples s).length

theorem accounts_new (threshold : F) : Accounts (withAnomalyThreshold threshold) none :=
  ⟨rfl, .nil, rfl⟩

theorem accounts_detach (t : DaemonTracer F) : Accounts t.detach none := ⟨rfl, .nil, rfl⟩

theorem accounts_attach (t : DaemonTracer F) (pid : UInt32) (now : Nat) :
    Accounts (t.attach pid true now).2 (some []) := ⟨rfl, .nil, rfl⟩

variable {t : DaemonTracer F} {s : Option (List Text)} {names : List Text}

theorem Accounts.track (h : Accounts t (some names)) (name : Text)
    (hfew : names.length + 1 < 2 ^ 64) : Accounts (t.track name) (some (names ++ [name])) where
  attached := h.attached
  counts := by
    have hle : (t.syscallCounts.lookup name).getD 0 ≤ names.length := h.counts.getD_le name
    have hadd : u64Add ((t.syscallCounts.lookup name).getD 0) 1 =
        (t.syscallCounts.lookup name).getD 0 + 1 := u64Add_of_lt (by omega)
    unfold DaemonTracer.track
    rw [hadd]
    exact h.counts.bump name
  sampleCount := by
    have hlen : t.sampleCount = names.length := h.sampleCount
    have hadd : u64Add t.sampleCount 1 = names.length + 1 := by
      rw [hlen]
      exact u64Add_of_lt hfew
    have hnames : (samples (some (names ++ [name]))).length = names.length + 1 :=
      List.length_append
    rw [hnames]
    exact hadd

theorem Accounts.sampled (h : Accounts t (some names)) (src : Sources)
    (hfew : (names ++ sampleOf src).length < 2 ^ 64) :
    Accounts (t.sampled src) (some (names ++ sampleOf src)) := by
  unfold DaemonTracer.sampled sampleOf at *
  rcases hread : readCurrentSyscall src.syscall with e | info
  · rw [List.append_nil]
    exact h
  · rw [hread, List.length_append] at hfew
    exact h.track info.name hfew

/-! ## Runs -/

section Runs

variable [Add F] [Sub F] [Mul F] [Div F] [NatCast F] [OfScientific F] [LT F] [DecidableLT F]

def call (fl : Floats F) (t : DaemonTracer F) : TracerCall → DaemonTracer F
  | .attach pid found now => (t.attach pid found now).2
  | .detach => t.detach
  | .collect src => (t.collect fl src).2

def run (fl : Floats F) (t : DaemonTracer F) (calls : List TracerCall) : DaemonTracer F :=
  calls.foldl (call fl) t

theorem collect_state (fl : Floats F) (t : DaemonTracer F) (src : Sources) :
    (t.collect fl src).2 = if t.attachedPid.isSome then t.sampled src else t := by
  unfold collect
  cases t.attachedPid <;> rfl

/-- What one call preserves. A session that is longer than the counters can say ends with the
next attach or detach. -/
theorem accounts_step (fl : Floats F) (hatt : t.attachedPid.isSome = s.isSome)
    (h : (samples s).length < 2 ^ 64 → Accounts t s) (c : TracerCall) :
    (t.call fl c).attachedPid.isSome = (sessionStep s c).isSome ∧
      ((samples (sessionStep s c)).length < 2 ^ 64 → Accounts (t.call fl c) (sessionStep s c)) := by
  cases c with
  | attach pid found now =>
    cases found with
    | true => exact ⟨rfl, fun _ => accounts_attach t pid now⟩
    | false => exact ⟨hatt, h⟩
  | detach => exact ⟨rfl, fun _ => accounts_detach t⟩
  | collect src =>
    have hstate : t.call fl (.collect src) = if t.attachedPid.isSome then t.sampled src else t :=
      collect_state fl t src
    rw [hstate, hatt]
    cases s with
    | none => exact ⟨hatt, h⟩
    | some names =>
      refine ⟨?_, fun hfew => ?_⟩
      · have hpid : (t.sampled src).attachedPid = t.attachedPid := by
          unfold DaemonTracer.sampled
          cases readCurrentSyscall src.syscall <;> rfl
        rw [Option.isSome_some, if_pos rfl, hpid, hatt]
        rfl
      · have hlen : (names ++ sampleOf src).length < 2 ^ 64 := hfew
        have hnames : names.length < 2 ^ 64 := by
          rw [List.length_append] at hlen
          omega
        exact (h hnames).sampled src hlen

theorem accounts_run (fl : Floats F) (threshold : F) (calls : List TracerCall) :
    (run fl (withAnomalyThreshold threshold) calls).attachedPid.isSome = (session calls).isSome ∧
      ((samples (session calls)).length < 2 ^ 64 →
        Accounts (run fl (withAnomalyThreshold threshold) calls) (session calls)) := by
  unfold run session
  induction calls using List.reverseRecOn with
  | nil => exact ⟨rfl, fun _ => accounts_new threshold⟩
  | append_singleton calls c ih =>
    rw [List.foldl_append, List.foldl_append]
    exact accounts_step fl ih.1 ih.2 c

/-- **Accounting**: in every reachable state the counts sum to the number of samples and are
positive, without an attached process there are none, and they are those of the samples since the
last successful attach. -/
theorem accounting (fl : Floats F) (threshold : F) (calls : List TracerCall)
    (hfew : (samples (session calls)).length < 2 ^ 64) :
    let t := run fl (withAnomalyThreshold threshold) calls
    (∀ it : Iteration fun name => t.syscallCounts.lookup name, it.values.sum = t.sampleCount) ∧
    (∀ name n, t.syscallCounts.lookup name = some n → 0 < n) ∧
    (t.attachedPid = none → t.syscallCounts = ∅ ∧ t.sampleCount = 0) ∧
    (∀ pid now, ∃ e, t.attach pid false now = (.error e, t)) ∧
    (t.attachedPid.isSome = (session calls).isSome ∧
      CountsOf t.syscallCounts (samples (session calls)) ∧
      t.sampleCount = (samples (session calls)).length) := by
  intro t
  have h : Accounts t (session calls) := (accounts_run fl threshold calls).2 hfew
  refine ⟨fun it => ?_, fun name n => h.counts.pos, fun hnone => ?_, fun pid now => ⟨_, rfl⟩,
    h.attached, h.counts, h.sampleCount⟩
  · rw [h.counts.sum it, h.sampleCount]
  · have hsession : session calls = none := by
      have hatt := h.attached
      rw [hnone] at hatt
      exact Option.isSome_eq_false_iff.1 hatt.symm |> Option.isNone_iff_eq_none.1
    have hcounts := h.counts
    have hcount := h.sampleCount
    rw [hsession] at hcounts hcount
    exact ⟨Finmap.ext_lookup fun name => (hcounts name).trans (CountsOf.nil name).symm, hcount⟩

end Runs

/-- What is read of a process in a syscall. -/
noncomputable def inSyscall (line : String) : Sources :=
  ⟨.ok line.toList, .error .notFound, .ofFinmap⟩

/-- A process is traced and detached; of the next two, the second takes over before the first is
detached; an attach that fails changes nothing, and neither does an unreadable sample. -/
noncomputable def threeSamples : List TracerCall :=
  [.attach 1 true 0, .collect (inSyscall "0 0x0"), .detach, .collect (inSyscall "0 0x0"),
    .attach 2 true 1, .collect (inSyscall "0 0x0"),
    .attach 3 true 2, .collect (inSyscall "0 0x0"), .collect (inSyscall "1 0x0"),
    .attach 4 false 3, .collect (inSyscall "0 0x0"),
    .collect ⟨.error .notFound, .error .notFound, .ofFinmap⟩]

theorem session_threeSamples : session threeSamples =
    some ["read".toList, "write".toList, "read".toList] := by decide +kernel

theorem accounting_three :
    (run (exact fun _ => []) (withAnomalyThreshold 2.0) threeSamples).sampleCount = 3 ∧
      (run (exact fun _ => []) (withAnomalyThreshold 2.0) threeSamples).syscallCounts.lookup
        "read".toList = some 2 := by
  have h := (accounting (exact fun _ => []) 2.0 threeSamples
    (by rw [session_threeSamples]; decide)).2.2.2.2
  rw [session_threeSamples] at h
  exact ⟨h.2.2, h.2.1 "read".toList⟩

end DaemonTracer

end Duende.Observe
