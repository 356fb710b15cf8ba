import Duende.Observe.Isolation

/-!
# The sums and products of the monitor

The operations on `u64` that a run of collections performs with numbers that it reads, and
`arithmetic_fits_iff`: none of them overflows exactly when the numbers in the files are in
range, those of `stat` only where a share is calculated from them.
-/

namespace Duende.Observe

variable {clkTck capacity pageSize : Nat} {meminfo : Except IoError Text} {m : DaemonMonitor}
  {c : Sample} {cs : List Sample}

/-! ## The operations -/

/-- An unchecked operation on two operands of type `u64`. -/
inductive U64Op where
  | add (a b : Nat)
  | mul (a b : Nat)
  deriving DecidableEq, Repr

def U64Op.result : U64Op → Nat
  | add a b => a + b
  | mul a b => a * b

def U64Op.Fits (o : U64Op) : Prop := o.result ≤ u64Max

instance (o : U64Op) : Decidable o.Fits := inferInstanceAs (Decidable (_ ≤ _))

/-- The second word of a line, as a number. -/
def secondNumber (line : Text) : Option Nat :=
  match splitWhitespace line with
  | _ :: n :: _ => parseUnsigned u64Max n
  | _ => none

/-- The number of kilobytes in the first line of `/proc/meminfo` that gives `MemTotal`. -/
def memTotal (meminfo : Except IoError Text) : Option Nat :=
  meminfo.toOption.bind fun content => (lines content).findSome? fun line =>
    if "MemTotal:".toList.isPrefixOf line then secondNumber line else none

/-- The number of resident pages in `/proc/{pid}/statm`. -/
def residentPages (statm : Except IoError Text) : Option Nat := statm.toOption.bind secondNumber

/-- The sums of `calculate_cpu_percent`: none before there is a measurement that is at least
a millisecond old. -/
def cpuOps (m : DaemonMonitor) (now : CpuMeasurement) : List U64Op :=
  match m.prevCpu with
  | none => []
  | some prev =>
    if now.wallTime - prev.wallTime < 10 ^ 6 then []
    else [.add now.utime now.stime, .add prev.utime prev.stime]

def collectOps (m : DaemonMonitor) (c : Sample) : List U64Op :=
  match measure c with
  | none => []
  | some now => cpuOps m now ++ ((residentPages c.2.statm).map (U64Op.mul · m.pageSize)).toList

def runOps (clkTck : Nat) (m : DaemonMonitor) : List Sample → List U64Op
  | [] => []
  | c :: cs => collectOps m c ++ runOps clkTck (m.collect clkTck c.1 c.2).1 cs

def operations (clkTck capacity pageSize : Nat) (meminfo : Except IoError Text)
    (cs : List Sample) : List U64Op :=
  ((memTotal meminfo).map (U64Op.mul · 1024)).toList ++
    runOps clkTck (.new capacity pageSize meminfo) cs

/-! ## They are those of the monitor -/

theorem readTotalMemory_toOption : (DaemonMonitor.readTotalMemory meminfo).toOption =
    (memTotal meminfo).map fun kb => (U64Op.mul kb 1024).result % 2 ^ 64 := by
  cases meminfo with
  | error e => rfl
  | ok content =>
    have hline : ∀ line : Text, (if "MemTotal:".toList.isPrefixOf line then
        (match splitWhitespace line with
        | _ :: kb :: _ => (parseUnsigned u64Max kb).map fun kb => kb * 1024 % 2 ^ 64
        | _ => none) else none) =
        (if "MemTotal:".toList.isPrefixOf line then secondNumber line else none).map
          fun kb => (U64Op.mul kb 1024).result % 2 ^ 64 := by
      intro line
      unfold secondNumber
      split
      · generalize splitWhitespace line = ws
        rcases ws with _ | ⟨w, _ | ⟨kb, ws⟩⟩ <;> rfl
      · rfl
    unfold DaemonMonitor.readTotalMemory
    show Except.toOption _ = Option.map _ ((lines content).findSome? _)
    rw [List.map_findSome?]
    dsimp only
    split
    · rename_i bytes h
      exact h.symm.trans (congrArg (fun f => List.findSome? f (lines content)) (funext hline))
    · rename_i h
      exact h.symm.trans (congrArg (fun f => List.findSome? f (lines content)) (funext hline))

theorem parseProcStatm_toOption {statm : Except IoError Text} :
    (m.parseProcStatm statm).toOption =
      (residentPages statm).map fun pages => (U64Op.mul pages m.pageSize).result % 2 ^ 64 := by
  unfold DaemonMonitor.parseProcStatm residentPages secondNumber
  cases statm with
  | error e => rfl
  | ok content =>
    show Except.toOption _ = Option.map _ _
    simp only [Except.toOption, Option.bind_some]
    generalize splitWhitespace content = ws
    rcases ws with _ | ⟨w, _ | ⟨rss, ws⟩⟩
    · rfl
    · rfl
    · simp only
      cases parseUnsigned u64Max rss <;> rfl

theorem usage_eq {now : CpuMeasurement} : usage m.prevCpu now =
    match m.prevCpu, cpuOps m now with
    | some prev, [a, b] =>
      if a.result % 2 ^ 64 < b.result % 2 ^ 64 then (0, 1)
      else (a.result % 2 ^ 64 - b.result % 2 ^ 64, now.wallTime - prev.wallTime)
    | _, _ => (0, 1) := by
  unfold usage cpuOps
  cases m.prevCpu with
  | none => rfl
  | some prev =>
    simp only
    by_cases h : now.wallTime - prev.wallTime < 10 ^ 6
    · rw [if_pos (.inl h), if_pos h]
    · rw [if_neg h]
      simp only [h, false_or]
      rfl

/-! ## The numbers that fit -/

/-- Two measurements, one after the other, whose ticks are added up. -/
def TicksFit (a b : CpuMeasurement) : Prop :=
  10 ^ 6 ≤ b.wallTime - a.wallTime → b.utime + b.stime ≤ u64Max ∧ a.utime + a.stime ≤ u64Max

/-- The numbers read are in range. -/
structure InRange (pageSize : Nat) (meminfo : Except IoError Text) (cs : List Sample) :
    Prop where
  total : ∀ kb, memTotal meminfo = some kb → kb < 2 ^ 54
  resident : ∀ c ∈ cs, (measure c).isSome →
    ∀ pages, residentPages c.2.statm = some pages → pages * pageSize ≤ u64Max
  ticks : (cs.filterMap measure).IsChain TicksFit

theorem cpuOps_fit {now : CpuMeasurement} :
    (∀ o ∈ cpuOps m now, o.Fits) ↔ ∀ prev, m.prevCpu = some prev → TicksFit prev now := by
  unfold cpuOps TicksFit
  cases m.prevCpu with
  | none => simp
  | some prev =>
    simp only [Option.some.injEq, forall_eq']
    by_cases h : now.wallTime - prev.wallTime < 10 ^ 6
    · rw [if_pos h]
      exact iff_of_true (fun o ho => nomatch ho) fun hle => absurd h (Nat.not_lt.2 hle)
    · rw [if_neg h, List.forall_mem_cons, List.forall_mem_singleton]
      exact ⟨fun hfit _ => hfit, fun hfit => hfit (Nat.le_of_not_lt h)⟩

theorem collectOps_fit {now : CpuMeasurement} (h : measure c = some now) :
    (∀ o ∈ collectOps m c, o.Fits) ↔ (∀ prev, m.prevCpu = some prev → TicksFit prev now) ∧
      ∀ pages, residentPages c.2.statm = some pages → pages * m.pageSize ≤ u64Max := by
  unfold collectOps
  rw [h]
  simp only [List.forall_mem_append, cpuOps_fit]
  refine and_congr_right fun _ => ?_
  cases residentPages c.2.statm with
  | none => exact iff_of_true (fun o ho => nomatch ho) (fun pages hp => nomatch hp)
  | some pages =>
    simp only [Option.map_some, Option.toList_some, List.forall_mem_singleton,
      Option.some.injEq, forall_eq']
    exact Iff.rfl

theorem runOps_fit : ∀ {cs : List Sample} {m : DaemonMonitor},
    (∀ o ∈ runOps clkTck m cs, o.Fits) ↔
      (∀ c ∈ cs, (measure c).isSome → ∀ pages, residentPages c.2.statm = some pages →
        pages * m.pageSize ≤ u64Max) ∧
      (m.prevCpu.toList ++ cs.filterMap measure).IsChain TicksFit
  | [], m => by
    refine iff_of_true (fun o ho => nomatch ho) ⟨(fun c hc => nomatch hc), ?_⟩
    cases m.prevCpu with
    | none => exact List.isChain_nil
    | some prev => exact List.isChain_singleton prev
  | c :: cs, m => by
    have ih := @runOps_fit cs (m.collect clkTck c.1 c.2).1
    rw [collect_prevCpu, collect_pageSize] at ih
    rw [runOps, List.forall_mem_append, ih, List.forall_mem_cons]
    cases h : measure c with
    | none =>
      have hops : collectOps m c = [] := by unfold collectOps; rw [h]
      rw [List.filterMap_cons_none h, hops]
      simp
    | some now =>
      rw [List.filterMap_cons_some h, collectOps_fit h]
      have hchain : (m.prevCpu.toList ++ now :: cs.filterMap measure).IsChain TicksFit ↔
          (∀ prev, m.prevCpu = some prev → TicksFit prev now) ∧
            (now :: cs.filterMap measure).IsChain TicksFit := by
        cases m.prevCpu with
        | none => simp
        | some prev => simp [List.isChain_cons_cons]
      rw [hchain]
      show _ ∧ (_ ∧ (now :: _).IsChain TicksFit) ↔ _
      simp only [Option.isSome_some, forall_const]
      constructor
      · rintro ⟨⟨hprev, hpages⟩, hrest, hnow⟩
        exact ⟨⟨hpages, hrest⟩, hprev, hnow⟩
      · rintro ⟨⟨hpages, hrest⟩, hprev, hnow⟩
        exact ⟨⟨hprev, hpages⟩, hrest, hnow⟩

/-- **No operation of the monitor overflows**, over every run of a new one, exactly when the
numbers read are in range. -/
theorem arithmetic_fits_iff :
    (∀ o ∈ operations clkTck capacity pageSize meminfo cs, o.Fits) ↔
      InRange pageSize meminfo cs := by
  have htotal : (∀ o ∈ ((memTotal meminfo).map (U64Op.mul · 1024)).toList, o.Fits) ↔
      ∀ kb, memTotal meminfo = some kb → kb < 2 ^ 54 := by
    cases memTotal meminfo with
    | none => exact iff_of_true (fun o ho => nomatch ho) (fun kb hkb => nomatch hkb)
    | some kb =>
      simp only [Option.map_some, Option.toList_some, List.forall_mem_singleton,
        Option.some.injEq, forall_eq']
      show kb * 1024 ≤ u64Max ↔ kb < 2 ^ 54
      unfold u64Max
      omega
  unfold operations
  rw [List.forall_mem_append, htotal, runOps_fit]
  exact ⟨fun h => ⟨h.1, h.2.1, h.2.2⟩, fun h => ⟨h.total, h.resident, h.ticks⟩⟩

/-- A process that has used nearly all the ticks that a counter holds, and one more in the
kernel. -/
def nearlyAll (now : Nat) : Reading where
  now := now
  stat := .ok (statText (2 ^ 64 - 1) 1)
  statm := .ok "1 1".toList
  io := .error .notFound

/-- The second call adds the two numbers, which the parser accepts. -/
theorem ticks_overflow : ¬ ∀ o ∈ operations 100 10 4096 (.error .notFound)
    [(1, nearlyAll 0), (1, nearlyAll (10 ^ 9))], o.Fits := by
  decide +kernel

end Duende.Observe
