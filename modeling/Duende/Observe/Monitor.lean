import Duende.Text

/-!
# The daemon monitor

`DaemonMonitor::collect` on Linux. What it reads from `/proc` and the clock is its input:
a `Reading` holds the clock and the contents of the three files it opens, each as the list
of its characters. Floating-point numbers are exact rationals.
-/

namespace Duende.Observe

/-- Why a file could not be read. -/
inductive IoError where
  | notFound
  | other (msg : String)
  deriving DecidableEq, Repr

/-- How a collection ends without a snapshot: with an error, or in a panic. -/
inductive Abort where
  | monitor (msg : String)
  | io (e : IoError)
  | panicked
  deriving DecidableEq, Repr

/-! ## The monitor -/

inductive ProcessState where
  | running
  | sleeping
  | diskWait
  | zombie
  | stopped
  | unknown
  deriving DecidableEq, Repr

/-- Parsed `/proc/{pid}/stat`. -/
structure ProcStat where
  state : ProcessState
  utime : Nat
  stime : Nat
  numThreads : Nat
  deriving DecidableEq, Repr

/-- Clock ticks used by a process, and when they were read, in nanoseconds. -/
structure CpuMeasurement where
  utime : Nat
  stime : Nat
  wallTime : Nat
  deriving DecidableEq, Repr

/-- Snapshot of daemon metrics at a point in time. -/
structure DaemonSnapshot where
  timestamp : Nat
  pid : UInt32
  cpuPercent : ℚ
  memoryBytes : Nat
  memoryPercent : ℚ
  threads : Nat
  state : ProcessState
  ioReadBytes : Nat
  ioWriteBytes : Nat
  gpuUtilization : Option ℚ
  gpuMemory : Option Nat
  deriving DecidableEq

structure DaemonMonitor where
  capacity : Nat
  history : List DaemonSnapshot
  prevCpu : Option CpuMeasurement
  pageSize : Nat
  totalMemory : Nat
  deriving DecidableEq

/-- What one collection reads: the clock, and `/proc/{pid}/stat`, `statm` and `io`. -/
structure Reading where
  now : Nat
  stat : Except IoError Text
  statm : Except IoError Text
  io : Except IoError Text

namespace DaemonMonitor

/-- The first line of `/proc/meminfo` that gives `MemTotal`, in bytes. -/
def readTotalMemory (meminfo : Except IoError Text) : Except Abort Nat :=
  match meminfo with
  | .error e => .error (.io e)
  | .ok content =>
    let total (line : Text) : Option Nat :=
      if "MemTotal:".toList.isPrefixOf line then
        match splitWhitespace line with
        | _ :: kb :: _ => (parseUnsigned u64Max kb).map fun kb => kb * 1024 % 2 ^ 64
        | _ => none
      else none
    match (lines content).findSome? total with
    | some bytes => .ok bytes
    | none => .error (.monitor "failed to parse MemTotal from /proc/meminfo")

def new (capacity pageSize : Nat) (meminfo : Except IoError Text) : DaemonMonitor where
  capacity := capacity
  history := []
  prevCpu := none
  pageSize := pageSize
  totalMemory := (readTotalMemory meminfo).toOption.getD 0

/-- The state letter of `/proc/{pid}/stat`. -/
def parseState (field : Text) : ProcessState :=
  match field.head? with
  | some 'R' => .running
  | some 'S' => .sleeping
  | some 'D' => .diskWait
  | some 'Z' => .zombie
  | some 'T' | some 't' => .stopped
  | _ => .unknown

/-- One numeric field, or the error that names it. -/
def parseField (max : Nat) (fields : List Text) (i : Nat) (what : String) : Except Abort Nat :=
  match parseUnsigned max (fields.getD i []) with
  | some n => .ok n
  | none => .error (.monitor s!"failed to parse {what}")

def parseStatContent (content : Text) : Except Abort ProcStat := do
  let some commEnd := rfind ')' content
    | .error (.monitor "malformed /proc/stat: no closing paren")
  -- the slice two bytes after the parenthesis panics off a character boundary
  let some afterComm := sliceFrom (commEnd + 2) content | .error .panicked
  let fields := splitWhitespace afterComm
  if fields.length < 20 then
    .error (.monitor s!"malformed /proc/stat: expected 20+ fields, got {fields.length}")
  else
    let utime ← parseField u64Max fields 11 "utime"
    let stime ← parseField u64Max fields 12 "stime"
    let numThreads ← parseField u32Max fields 17 "num_threads"
    return { state := parseState (fields.getD 0 []), utime, stime, numThreads }

def parseProcStat (pid : UInt32) (stat : Except IoError Text) : Except Abort ProcStat :=
  match stat with
  | .error .notFound => .error (.monitor s!"process {pid.toNat} not found")
  | .error e => .error (.io e)
  | .ok content => parseStatContent content

def parseProcStatm (m : DaemonMonitor) (statm : Except IoError Text) : Except Abort Nat :=
  match statm with
  | .error e => .error (.io e)
  | .ok content =>
    match splitWhitespace content with
    | _ :: rss :: _ =>
      match parseUnsigned u64Max rss with
      | some pages => .ok (pages * m.pageSize % 2 ^ 64)
      | none => .error (.monitor "failed to parse RSS pages")
    | _ => .error (.monitor "malformed /proc/statm")

/-- The last value given for each of the two counters. -/
def parseProcIo (io : Except IoError Text) : Except Abort (Nat × Nat) :=
  match io with
  | .error e => .error (.io e)
  | .ok content =>
    .ok <| (lines content).foldl (fun (r, w) line =>
      match stripPrefix "read_bytes: ".toList line with
      | some value => ((parseUnsigned u64Max (trim value)).getD 0, w)
      | none =>
        match stripPrefix "write_bytes: ".toList line with
        | some value => (r, (parseUnsigned u64Max (trim value)).getD 0)
        | none => (r, w)) (0, 0)

/-- The share of one processor used since the previous measurement; `clkTck` is the number
of clock ticks in a second. -/
def calculateCpuPercent (clkTck : Nat) (m : DaemonMonitor) (stat : ProcStat) (now : Nat) : ℚ :=
  match m.prevCpu with
  | none => 0
  | some prev =>
    let elapsed : ℚ := ((now - prev.wallTime : Nat) : ℚ) / 10 ^ 9
    if elapsed < 1 / 1000 then 0
    else
      let totalTicksNow := u64Add stat.utime stat.stime
      let totalTicksPrev := u64Add prev.utime prev.stime
      if totalTicksNow < totalTicksPrev then 0
      else
        let ticksUsed := totalTicksNow - totalTicksPrev
        max (((ticksUsed : ℚ) / clkTck) / elapsed * 100) 0

/-- The snapshot of a reading whose `stat` is parsed, or why there is none. -/
def snapshot (m : DaemonMonitor) (pid : UInt32) (rd : Reading) (stat : ProcStat)
    (cpuPercent : ℚ) : Except Abort DaemonSnapshot := do
  let memoryBytes ← m.parseProcStatm rd.statm
  let io := (parseProcIo rd.io).toOption.getD (0, 0)
  return {
    timestamp := rd.now
    pid := pid
    cpuPercent := cpuPercent
    memoryBytes := memoryBytes
    memoryPercent := if 0 < m.totalMemory then (memoryBytes : ℚ) / m.totalMemory * 100 else 0
    threads := stat.numThreads
    state := stat.state
    ioReadBytes := io.1
    ioWriteBytes := io.2
    gpuUtilization := none
    gpuMemory := none }

/-- The previous measurement is replaced as soon as `stat` is parsed. -/
def collectLinux (clkTck : Nat) (m : DaemonMonitor) (pid : UInt32) (rd : Reading) :
    DaemonMonitor × Except Abort DaemonSnapshot :=
  match parseProcStat pid rd.stat with
  | .error e => (m, .error e)
  | .ok stat =>
    ({ m with prevCpu := some ⟨stat.utime, stat.stime, rd.now⟩ },
      m.snapshot pid rd stat (m.calculateCpuPercent clkTck stat rd.now))

def collect (clkTck : Nat) (m : DaemonMonitor) (pid : UInt32) (rd : Reading) :
    DaemonMonitor × Except Abort DaemonSnapshot :=
  match m.collectLinux clkTck pid rd with
  | (m, .error e) => (m, .error e)
  | (m, .ok snapshot) =>
    let history := if m.capacity ≤ m.history.length then m.history.tail else m.history
    ({ m with history := history ++ [snapshot] }, .ok snapshot)

/-- The snapshots taken within `duration` before `now`: all of them when the clock does not
go back that far. -/
def historyWithin (m : DaemonMonitor) (now duration : Nat) : List DaemonSnapshot :=
  if duration ≤ now then m.history.filter fun s => now - duration ≤ s.timestamp else m.history

def allHistory (m : DaemonMonitor) : List DaemonSnapshot := m.history

end DaemonMonitor

end Duende.Observe
