import Duende.Observe.Monitor
import Duende.Trans.Run

/-!
# CPU shares of several processes

The monitor keeps one previous measurement for all processes. `cpu_isolated_iff` says when
the shares it returns for a process are nevertheless those it would return if it watched
that process alone: when the measurement taken last, of whatever process, shows the same
usage as the process's own.
-/

namespace Duende.Observe

open Trans

/-- A call: the pid, and what the collection reads. -/
abbrev Sample := UInt32 × Reading

variable {clkTck : Nat} {m m' : DaemonMonitor} {p : UInt32} {c : Sample} {cs : List Sample}

/-- The results of a run of calls, each with its pid. -/
def collects (clkTck : Nat) (m : DaemonMonitor) : List Sample →
    List (UInt32 × Except Abort DaemonSnapshot)
  | [] => []
  | c :: cs =>
    (c.1, (m.collect clkTck c.1 c.2).2) :: collects clkTck (m.collect clkTck c.1 c.2).1 cs

def cpuOf (p : UInt32) (rs : List (UInt32 × Except Abort DaemonSnapshot)) : List ℚ :=
  rs.filterMap fun r => if r.1 = p then r.2.toOption.map DaemonSnapshot.cpuPercent else none

/-- Every share is the one returned when all calls for other pids are left out. -/
def Isolated (clkTck : Nat) (m : DaemonMonitor) (cs : List Sample) : Prop :=
  ∀ p, cpuOf p (collects clkTck m cs) = cpuOf p (collects clkTck m (cs.filter (·.1 = p)))

/-! ## The inputs that matter -/

/-- The measurement a call takes, when it can parse `stat`. -/
def measure (c : Sample) : Option CpuMeasurement :=
  (DaemonMonitor.parseProcStat c.1 c.2.stat).toOption.map fun stat =>
    ⟨stat.utime, stat.stime, c.2.now⟩

/-- The ticks used since a measurement and the time since then; none when the share counts
as zero: there is no measurement, it is too recent, or it shows more ticks. -/
def usage (prev : Option CpuMeasurement) (now : CpuMeasurement) : Nat × Nat :=
  match prev with
  | none => (0, 1)
  | some prev =>
    if now.wallTime - prev.wallTime < 10 ^ 6 ∨
        u64Add now.utime now.stime < u64Add prev.utime prev.stime then (0, 1)
    else (u64Add now.utime now.stime - u64Add prev.utime prev.stime,
      now.wallTime - prev.wallTime)

/-- Two previous measurements that show the same ticks per time. -/
def SameUsage (a b : Option CpuMeasurement) (now : CpuMeasurement) : Prop :=
  (usage a now).1 * (usage b now).2 = (usage b now).1 * (usage a now).2

instance (a b : Option CpuMeasurement) (now : CpuMeasurement) : Decidable (SameUsage a b now) :=
  inferInstanceAs (Decidable (_ = _))

/-- The last measurement of any process and the last one of `p`, after one more call. -/
def latest (p : UInt32) (s : Option CpuMeasurement × Option CpuMeasurement) (c : Sample) :
    Option (Option CpuMeasurement × Option CpuMeasurement) :=
  some ((measure c).or s.1, if c.1 = p then (measure c).or s.2 else s.2)

/-- A successful call for `p` finds that the last measurement of any process and the last
one of `p` show the same usage. -/
def UsageAgrees (m : DaemonMonitor) (p : UInt32)
    (s : Option CpuMeasurement × Option CpuMeasurement) (c : Sample) : Prop :=
  c.1 = p → (m.parseProcStatm c.2.statm).isOk = true →
    ∀ now, measure c = some now → SameUsage s.1 s.2 now

/-! ## The share is a function of the usage -/

/-- Ticks per time, as a percentage of one processor. -/
def share (clkTck : Nat) (u : Nat × Nat) : ℚ := (u.1 : ℚ) / u.2 * (10 ^ 9 * 100 / clkTck)

theorem usage_pos {prev : Option CpuMeasurement} {now : CpuMeasurement} :
    0 < (usage prev now).2 := by
  unfold usage
  cases prev with
  | none => exact Nat.one_pos
  | some prev =>
    simp only
    split
    · exact Nat.one_pos
    · simp only; omega

theorem calculateCpuPercent_eq {stat : ProcStat} {now : Nat} :
    m.calculateCpuPercent clkTck stat now =
      share clkTck (usage m.prevCpu ⟨stat.utime, stat.stime, now⟩) := by
  unfold DaemonMonitor.calculateCpuPercent usage
  cases m.prevCpu with
  | none => simp [share]
  | some prev =>
    simp only
    have hsmall : (((now - prev.wallTime : Nat) : ℚ) / 10 ^ 9 < 1 / 1000) ↔
        now - prev.wallTime < 10 ^ 6 := by
      rw [div_lt_div_iff₀ (by positivity) (by positivity)]
      constructor
      · intro h
        have : ((now - prev.wallTime : Nat) : ℚ) < ((10 ^ 6 : Nat) : ℚ) := by push_cast; linarith
        exact_mod_cast this
      · intro h
        have : ((now - prev.wallTime : Nat) : ℚ) < ((10 ^ 6 : Nat) : ℚ) := by exact_mod_cast h
        push_cast at this; linarith
    by_cases h1 : now - prev.wallTime < 10 ^ 6
    · rw [if_pos (hsmall.2 h1), if_pos (.inl h1)]; simp [share]
    · rw [if_neg (fun h => h1 (hsmall.1 h))]
      by_cases h2 : u64Add stat.utime stat.stime < u64Add prev.utime prev.stime
      · rw [if_pos h2, if_pos (.inr h2)]; simp [share]
      · rw [if_neg h2, if_neg (not_or.2 ⟨h1, h2⟩)]
        simp only [share]
        rw [max_eq_left (by positivity)]
        field_simp

theorem share_eq_iff {a b : Option CpuMeasurement} {now : CpuMeasurement} (hclk : 0 < clkTck) :
    share clkTck (usage a now) = share clkTck (usage b now) ↔ SameUsage a b now := by
  have ha : ((usage a now).2 : ℚ) ≠ 0 := by have := @usage_pos a now; positivity
  have hb : ((usage b now).2 : ℚ) ≠ 0 := by have := @usage_pos b now; positivity
  have hk : (10 ^ 9 * 100 / clkTck : ℚ) ≠ 0 := by positivity
  unfold share SameUsage
  rw [mul_left_inj' hk, div_eq_div_iff ha hb]
  exact_mod_cast Iff.rfl

/-! ## What one call does -/

section OneCall

variable {pid : UInt32} {rd : Reading} {stat : ProcStat} {cpu : ℚ}

/-- There is a snapshot exactly when `statm` can be parsed. -/
theorem snapshot_cpu : (m.snapshot pid rd stat cpu).toOption.map DaemonSnapshot.cpuPercent =
    if (m.parseProcStatm rd.statm).isOk then some cpu else none := by
  unfold DaemonMonitor.snapshot
  cases m.parseProcStatm rd.statm <;> rfl

theorem collect_prevCpu :
    (m.collect clkTck pid rd).1.prevCpu = (measure (pid, rd)).or m.prevCpu := by
  unfold DaemonMonitor.collect DaemonMonitor.collectLinux measure
  cases DaemonMonitor.parseProcStat pid rd.stat with
  | error e => rfl
  | ok stat =>
    simp only
    generalize m.snapshot pid rd stat _ = r
    cases r <;> rfl

theorem collect_pageSize : (m.collect clkTck pid rd).1.pageSize = m.pageSize := by
  unfold DaemonMonitor.collect DaemonMonitor.collectLinux
  cases DaemonMonitor.parseProcStat pid rd.stat with
  | error e => rfl
  | ok stat =>
    simp only
    generalize m.snapshot pid rd stat _ = r
    cases r <;> rfl

theorem collect_cpu : (m.collect clkTck pid rd).2.toOption.map DaemonSnapshot.cpuPercent =
    if (m.parseProcStatm rd.statm).isOk then
      (measure (pid, rd)).map fun now => share clkTck (usage m.prevCpu now)
    else none := by
  unfold DaemonMonitor.collect DaemonMonitor.collectLinux measure
  cases DaemonMonitor.parseProcStat pid rd.stat with
  | error e => cases (m.parseProcStatm rd.statm).isOk <;> rfl
  | ok stat =>
    have hs := @snapshot_cpu m pid rd stat (m.calculateCpuPercent clkTck stat rd.now)
    simp only
    rw [calculateCpuPercent_eq] at hs ⊢
    generalize m.snapshot pid rd stat _ = r at hs ⊢
    cases r with
    | error e => exact hs
    | ok snap => exact hs

end OneCall

theorem cpuOf_collects_cons : cpuOf p (collects clkTck m (c :: cs)) =
    (if c.1 = p then
      ((m.collect clkTck c.1 c.2).2.toOption.map DaemonSnapshot.cpuPercent).toList else []) ++
    cpuOf p (collects clkTck (m.collect clkTck c.1 c.2).1 cs) := by
  rw [collects, cpuOf, List.filterMap_cons]
  by_cases hp : c.1 = p
  · rw [if_pos hp, if_pos hp]
    cases (m.collect clkTck c.1 c.2).2.toOption.map DaemonSnapshot.cpuPercent <;> rfl
  · rw [if_neg hp, if_neg hp]; rfl

theorem parseProcStatm_congr {statm : Except IoError Text} (h : m'.pageSize = m.pageSize) :
    m'.parseProcStatm statm = m.parseProcStatm statm := by
  unfold DaemonMonitor.parseProcStatm; rw [h]

theorem usageAgrees_congr (h : m'.pageSize = m.pageSize) :
    UsageAgrees m' p = UsageAgrees m p := by
  unfold UsageAgrees; simp only [parseProcStatm_congr h]

theorem cpuOf_eq_iff (hclk : 0 < clkTck) : ∀ {cs : List Sample} {m m' : DaemonMonitor},
    m'.pageSize = m.pageSize →
    (cpuOf p (collects clkTck m cs) = cpuOf p (collects clkTck m' (cs.filter (·.1 = p))) ↔
      Meets (latest p) (UsageAgrees m p) (m.prevCpu, m'.prevCpu) cs)
  | [], _, _, _ => iff_of_true rfl trivial
  | c :: cs, m, m', hm => by
    have hmeets : Meets (latest p) (UsageAgrees m p) (m.prevCpu, m'.prevCpu) (c :: cs) ↔
        UsageAgrees m p (m.prevCpu, m'.prevCpu) c ∧
          Meets (latest p) (UsageAgrees m p) ((measure c).or m.prevCpu,
            if c.1 = p then (measure c).or m'.prevCpu else m'.prevCpu) cs := by
      simp [Meets, latest]
    have hsize := @collect_pageSize clkTck m c.1 c.2
    rw [hmeets, cpuOf_collects_cons]
    by_cases hp : c.1 = p
    · have ih := @cpuOf_eq_iff hclk cs (m.collect clkTck c.1 c.2).1 (m'.collect clkTck c.1 c.2).1
        (by rw [collect_pageSize, collect_pageSize, hm])
      rw [collect_prevCpu, collect_prevCpu, usageAgrees_congr hsize] at ih
      rw [List.filter_cons_of_pos (by simpa using hp), cpuOf_collects_cons, if_pos hp, if_pos hp,
        if_pos hp, collect_cpu, collect_cpu, parseProcStatm_congr hm, ← ih]
      -- both monitors return a share here or neither does
      cases hok : (m.parseProcStatm c.2.statm).isOk with
      | false =>
        have : UsageAgrees m p (m.prevCpu, m'.prevCpu) c := fun _ h => by rw [hok] at h; cases h
        simp [this]
      | true =>
        cases hnow : measure c with
        | none =>
          have : UsageAgrees m p (m.prevCpu, m'.prevCpu) c := fun _ _ now h => by
            rw [hnow] at h; cases h
          simp [this]
        | some now =>
          have : UsageAgrees m p (m.prevCpu, m'.prevCpu) c ↔
              SameUsage m.prevCpu m'.prevCpu now :=
            ⟨fun h => h hp hok now hnow, fun h _ _ now' h' => by
              rw [hnow] at h'; cases h'; exact h⟩
          simp [this, ← share_eq_iff hclk]
    · -- a call for another pid is left out on the right
      have ih := @cpuOf_eq_iff hclk cs (m.collect clkTck c.1 c.2).1 m' (by rw [hsize, hm])
      rw [collect_prevCpu, usageAgrees_congr hsize] at ih
      rw [List.filter_cons_of_neg (by simpa using hp), if_neg hp, if_neg hp, List.nil_append, ih]
      exact (and_iff_right fun h => absurd h hp).symm

/-- **CPU shares of several processes**: the shares returned for every process are those
returned without the calls for other pids, exactly when at every successful call the
measurement taken last and the last one of the same process show the same usage. -/
theorem cpu_isolated_iff (hclk : 0 < clkTck) : Isolated clkTck m cs ↔
    ∀ p, Meets (latest p) (UsageAgrees m p) (m.prevCpu, m.prevCpu) cs :=
  forall_congr' fun _ => cpuOf_eq_iff hclk rfl

/-- `/proc/{pid}/stat` of a running process with one thread. -/
def statText (utime stime : Nat) : Text :=
  "1 (d) R 0 0 0 0 0 0 0 0 0 0 ".toList ++ Nat.toDigits 10 utime ++ [' '] ++
    Nat.toDigits 10 stime ++ " 0 0 0 0 1 0 0".toList

/-- A reading at `now` that finds `utime` ticks used. -/
def readingAt (now utime : Nat) : Reading where
  now := now
  stat := .ok (statText utime 0)
  statm := .ok "1 1".toList
  io := .error (.other "permission denied")

/-- Process 1 before and after it used 100 ticks in two seconds, and process 2 between. -/
def twoProcesses : List Sample :=
  [(1, readingAt 0 0), (2, readingAt (10 ^ 9) 1000), (1, readingAt (2 * 10 ^ 9) 100)]

def newMonitor : DaemonMonitor := .new 10 4096 (.error .notFound)

/-- Two samples of one process. -/
theorem shares_of_one :
    Isolated 100 newMonitor [(1, readingAt 0 0), (1, readingAt (2 * 10 ^ 9) 100)] := by
  refine (cpu_isolated_iff (by decide)).2 fun p => ?_
  by_cases hp : p = 1
  · subst hp
    exact ⟨fun _ _ _ _ => rfl, fun s hs => by
      cases hs; exact ⟨fun _ _ _ _ => rfl, fun _ _ => trivial⟩⟩
  · exact ⟨fun h => absurd h.symm hp, fun s hs => by
      cases hs; exact ⟨fun h => absurd h.symm hp, fun _ _ => trivial⟩⟩

/-- The ticks of process 2 stand in for those of process 1: its share is 0, not 50. -/
theorem shares_mixed : ¬ Isolated 100 newMonitor twoProcesses := by
  intro h
  exact absurd (h 1) (by decide +kernel)

end Duende.Observe
