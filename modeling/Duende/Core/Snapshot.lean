import Duende.Core.Config
import Duende.Core.Metrics
import Duende.Trans.Reader

/-!
# Snapshots of the metrics

The calls of `DaemonMetrics`, of any number of callers, one atomic operation a step; `snapshot`
reads one variable after another while the others go on. `snapshot_regular` says what the fields
of a snapshot stand for, `snapshots_ordered` that a later one does not fall behind.
-/

namespace Duende.Core.Metrics

open Trans

/-- The variables that calls add one to. -/
inductive Counter where
  | requestsTotal
  | errorsTotal
  | circuitBreakerTrips
  | successfulRecoveries
  deriving DecidableEq, Repr

/-- The variables that calls store a value in. -/
inductive Gauge where
  | cpuUsagePermille
  | memoryBytes
  | openFds
  | threadCount
  deriving DecidableEq, Repr

/-- The metrics; `elapsed` is the time since `start_time`, in nanoseconds. -/
structure MetricsInner where
  counter : Counter → UInt64
  gauge : Gauge → UInt64
  durations : DurationCounters
  elapsed : Nat

def MetricsInner.new : MetricsInner := ⟨fun _ => 0, fun _ => 0, .new, 0⟩

/-- The loads of a snapshot, and its looks at the clock. -/
inductive Load where
  | counter (c : Counter)
  | gauge (g : Gauge)
  | durationSumUs
  | durationCount
  | durationMaxUs
  | elapsed
  deriving DecidableEq, Repr

abbrev Load.Answer : Load → Type
  | elapsed => Nat
  | _ => UInt64

def MetricsInner.load (s : MetricsInner) : (l : Load) → l.Answer
  | .counter c => s.counter c
  | .gauge g => s.gauge g
  | .durationSumUs => s.durations.durationSumUs
  | .durationCount => s.durations.durationCount
  | .durationMaxUs => s.durations.durationMaxUs
  | .elapsed => s.elapsed

structure MetricsSnapshot where
  requestsTotal : UInt64
  requestsPerSecond : ℚ
  errorsTotal : UInt64
  errorRate : ℚ
  durationAvgUs : UInt64
  durationMaxUs : UInt64
  cpuUsagePercent : ℚ
  memoryBytes : UInt64
  openFds : UInt64
  threadCount : UInt64
  circuitBreakerTrips : UInt64
  successfulRecoveries : UInt64
  uptimeSecs : Nat

/-! ## The getters -/

abbrev Reading := Ask Load Load.Answer

section

variable {α : Type}

def requestsPerSecond (k : ℚ → Reading α) : Reading α :=
  .ask .elapsed fun elapsed : Nat =>
    if 0 < elapsed then
      .ask (.counter .requestsTotal) fun requests : UInt64 =>
        k (requests.toNat / (elapsed / 10 ^ 9))
    else k 0

def errorRate (k : ℚ → Reading α) : Reading α :=
  .ask (.counter .requestsTotal) fun requests : UInt64 =>
    if 0 < requests then
      .ask (.counter .errorsTotal) fun errors : UInt64 => k (errors.toNat / requests.toNat)
    else k 0

def durationAvg (k : UInt64 → Reading α) : Reading α :=
  .ask .durationCount fun count : UInt64 =>
    if 0 < count then .ask .durationSumUs fun sumUs : UInt64 => k (sumUs / count) else k 0

end

def snapshot : Reading MetricsSnapshot :=
  .ask (.counter .requestsTotal) fun requestsTotal : UInt64 =>
  requestsPerSecond fun requestsPerSecond =>
  .ask (.counter .errorsTotal) fun errorsTotal : UInt64 =>
  errorRate fun errorRate =>
  durationAvg fun durationAvgUs =>
  .ask .durationMaxUs fun durationMaxUs : UInt64 =>
  .ask (.gauge .cpuUsagePermille) fun cpuUsagePermille : UInt64 =>
  .ask (.gauge .memoryBytes) fun memoryBytes : UInt64 =>
  .ask (.gauge .openFds) fun openFds : UInt64 =>
  .ask (.gauge .threadCount) fun threadCount : UInt64 =>
  .ask (.counter .circuitBreakerTrips) fun circuitBreakerTrips : UInt64 =>
  .ask (.counter .successfulRecoveries) fun successfulRecoveries : UInt64 =>
  .ask .elapsed fun elapsed : Nat =>
  .done {
    requestsTotal, requestsPerSecond, errorsTotal, errorRate, durationAvgUs, durationMaxUs
    cpuUsagePercent := cpuUsagePermille.toNat / 10
    memoryBytes, openFds, threadCount, circuitBreakerTrips, successfulRecoveries
    uptimeSecs := elapsed / 10 ^ 9 }

/-! ## The callers -/

/-- `record_request` and its like, `set_cpu_usage` and its like (with what they store),
`record_duration` and `snapshot`. -/
inductive MetricsOp where
  | record (c : Counter)
  | set (g : Gauge) (value : UInt64)
  | recordDuration (duration : Nat)
  | snapshot
  deriving DecidableEq, Repr

def setCpuUsage (percent : F64) : MetricsOp :=
  .set .cpuUsagePermille (UInt64.ofNat (percent.times (.finite 10)).asU64)

inductive MetricsPc where
  | add (c : Counter)
  | store (g : Gauge) (value : UInt64)
  | duration (p : RecordPc)
  | reading (x : Reading MetricsSnapshot)

/-- An atomic operation; the result of a snapshot is what it has read. -/
def metricsStep (s : MetricsInner) (p : MetricsPc) (spurious : Bool) :
    MetricsInner × (MetricsPc ⊕ Option MetricsSnapshot) :=
  match p with
  | .add c => ({ s with counter := Function.update s.counter c (s.counter c + 1) }, .inr none)
  | .store g value => ({ s with gauge := Function.update s.gauge g value }, .inr none)
  | .duration p =>
    let r := recordStep s.durations p spurious
    ({ s with durations := r.1 }, r.2.map .duration fun _ => none)
  | .reading (.done r) => (s, .inr (some r))
  | .reading (.ask l k) => (s, match k (s.load l) with
    | .done r => .inr (some r)
    | .ask l' k' => .inl (.reading (.ask l' k')))

/-- The callers of `DaemonMetrics`; the environment is the time that passes. -/
def daemonMetrics : Obj MetricsInner MetricsPc MetricsOp (Option MetricsSnapshot) Bool Nat where
  start
    | .record c => .add c
    | .set g value => .store g value
    | .recordDuration d => .duration (.addSum (micros d))
    | .snapshot => .reading Metrics.snapshot
  exec s p spurious := some (metricsStep s p spurious)
  env s d := some { s with elapsed := s.elapsed + d }

def snapshotReader : Reader daemonMetrics Load Load.Answer MetricsSnapshot where
  read := MetricsInner.load
  pc := .reading
  ret := some
  exec s l k _ := by
    simp only [daemonMetrics, metricsStep]
    cases k (s.load l) <;> rfl

/-! ## What the memory holds -/

variable {ι : Type*} {α : Type}

abbrev MetricsAct (ι : Type*) := Act ι MetricsOp Bool Nat

abbrev MetricsConf (ι : Type*) := Conf ι MetricsInner MetricsPc

def MetricsPc.isAdd (c : Counter) : MetricsPc → Bool
  | add c' => c' = c
  | _ => false

/-- An addition to a counter. -/
def adds (c : Counter) (e : MetricsConf ι × MetricsAct ι) : Bool :=
  match e.2 with
  | .step i _ => (e.1.pc i).any (·.isAdd c)
  | _ => false

variable [DecidableEq ι] {s s' s1 : MetricsConf ι} {acts pre mid : List (MetricsAct ι)}
  {c : Counter}

def additions (c : Counter) (s : MetricsConf ι) (acts : List (MetricsAct ι)) : Nat :=
  (trace daemonMetrics.act s acts).countP (adds c)

theorem additions_append (hr : run daemonMetrics.act s pre = some s') :
    additions c s (pre ++ mid) = additions c s pre + additions c s' mid := by
  rw [additions, trace_append hr, List.countP_append]
  rfl

/-- The memory, after `n` additions to every counter and the calls `ops`. -/
structure Holds (n : Counter → Nat) (ops : List MetricsOp) (s : MetricsConf ι) : Prop where
  counter : ∀ c, s.shared.counter c = UInt64.ofNat (n c)
  gauge : ∀ g, s.shared.gauge g = 0 ∨ .set g (s.shared.gauge g) ∈ ops
  durationMax : s.shared.durations.durationMaxUs = 0 ∨
    ∃ d, .recordDuration d ∈ ops ∧ micros d = s.shared.durations.durationMaxUs
  storing : ∀ i g value, s.pc i = some (.store g value) → .set g value ∈ ops
  recording : ∀ i p, s.pc i = some (.duration p) →
    p.Ahead ∧ ∃ d, .recordDuration d ∈ ops ∧ micros d = p.us
  covered : ∀ d, .recordDuration d ∈ ops → micros d ≤ s.shared.durations.durationMaxUs ∨
    ∃ i p, s.pc i = some (.duration p) ∧ p.us = micros d

variable {n : Counter → Nat} {ops : List MetricsOp} {i : ι} {o : MetricsOp} {p : MetricsPc}
  {k : Bool} {m : MetricsInner} {q : MetricsPc ⊕ Option MetricsSnapshot}

omit [DecidableEq ι] in
theorem Holds.new : Holds (fun _ => 0) [] (Obj.init MetricsInner.new : MetricsConf ι) :=
  ⟨fun _ => rfl, fun _ => .inl rfl, .inl rfl, nofun, nofun, nofun⟩

/-- **What an atomic operation does.** -/
theorem metricsStep_cases {m m' : MetricsInner} {p : MetricsPc} {k : Bool}
    {q : MetricsPc ⊕ Option MetricsSnapshot} (h : metricsStep m p k = (m', q)) :
    (∃ c, p = .add c ∧ q = .inr none ∧
      m' = { m with counter := Function.update m.counter c (m.counter c + 1) }) ∨
    (∃ g value, p = .store g value ∧ q = .inr none ∧
      m' = { m with gauge := Function.update m.gauge g value }) ∨
    (∃ p' d q', p = .duration p' ∧ recordStep m.durations p' k = (d, q') ∧
      q = q'.map .duration (fun _ => none) ∧ m' = { m with durations := d }) ∨
    ∃ x, p = .reading x ∧ m' = m ∧ ∀ y, q = .inl y → ∃ x', y = .reading x' := by
  cases p with
  | add c => cases h; exact .inl ⟨c, rfl, rfl, rfl⟩
  | store g value => cases h; exact .inr (.inl ⟨g, value, rfl, rfl, rfl⟩)
  | duration p => cases h; exact .inr (.inr (.inl ⟨p, _, _, rfl, rfl, rfl, rfl⟩))
  | reading x =>
    refine .inr (.inr (.inr ⟨x, rfl, ?_⟩))
    cases x with
    | done r => cases h; exact ⟨rfl, nofun⟩
    | ask l f =>
      cases h
      refine ⟨rfl, fun y hy => ?_⟩
      split at hy
      · cases hy
      · cases hy
        exact ⟨_, rfl⟩

theorem Holds.call (h : Holds n ops s) (hi : s.pc i = none) :
    Holds n (ops ++ [o])
      ⟨s.shared, Function.update s.pc i (some (daemonMetrics.start o))⟩ := by
  have hmem : o ∈ ops ++ [o] := List.mem_append_right _ List.mem_cons_self
  refine ⟨h.counter, fun g => (h.gauge g).imp_right (List.mem_append_left _), ?_,
    fun j g value hj => ?_, fun j p hj => ?_, fun d hd => ?_⟩
  · exact h.durationMax.imp_right fun ⟨d, hd, hm⟩ => ⟨d, List.mem_append_left _ hd, hm⟩
  · rcases Conf.pc_update_cases hj with ⟨-, hp⟩ | ⟨-, hp⟩
    · cases o <;> cases hp
      exact hmem
    · exact List.mem_append_left _ (h.storing j g value hp)
  · rcases Conf.pc_update_cases hj with ⟨-, hp⟩ | ⟨-, hp⟩
    · cases o <;> cases hp
      exact ⟨trivial, _, hmem, rfl⟩
    · obtain ⟨hahead, d, hd, hus⟩ := h.recording j p hp
      exact ⟨hahead, d, List.mem_append_left _ hd, hus⟩
  · rcases List.mem_append.1 hd with hd | hd
    · refine (h.covered d hd).imp_right fun ⟨j, p, hj, hp⟩ => ⟨j, p, ?_, hp⟩
      have hne : j ≠ i := fun e => by rw [e, hi] at hj; cases hj
      exact (Function.update_of_ne hne _ _).trans hj
    · cases List.mem_singleton.1 hd
      exact .inr ⟨i, .addSum (micros d), Function.update_self .., rfl⟩

theorem Holds.exec (h : Holds n ops s) (hp : s.pc i = some p)
    (hx : metricsStep s.shared p k = (m, q)) :
    Holds (fun c => n c + if p.isAdd c then 1 else 0) ops
      ⟨m, Function.update s.pc i q.getLeft?⟩ := by
  have hstoring : (∀ g value, q ≠ .inl (.store g value)) → ∀ j g value,
      Function.update s.pc i q.getLeft? j = some (.store g value) → .set g value ∈ ops :=
    fun hq j g value hj => by
      rcases Conf.pc_update_cases hj with ⟨-, hp'⟩ | ⟨-, hp'⟩
      · exact absurd (Sum.getLeft?_eq_some_iff.1 hp') (hq g value)
      · exact h.storing j g value hp'
  have hrecording : (∀ p', q = .inl (.duration p') →
      p'.Ahead ∧ ∃ d, .recordDuration d ∈ ops ∧ micros d = p'.us) → ∀ j p',
        Function.update s.pc i q.getLeft? j = some (.duration p') →
          p'.Ahead ∧ ∃ d, .recordDuration d ∈ ops ∧ micros d = p'.us := fun hq j p' hj => by
    rcases Conf.pc_update_cases hj with ⟨-, hp'⟩ | ⟨-, hp'⟩
    · exact hq p' (Sum.getLeft?_eq_some_iff.1 hp')
    · exact h.recording j p' hp'
  have hcovered : s.shared.durations.durationMaxUs ≤ m.durations.durationMaxUs →
      (∀ p', p = .duration p' → p'.us ≤ m.durations.durationMaxUs ∨
        ∃ p1, q = .inl (.duration p1) ∧ p1.us = p'.us) →
      ∀ d, .recordDuration d ∈ ops → micros d ≤ m.durations.durationMaxUs ∨
        ∃ j p1, Function.update s.pc i q.getLeft? j = some (.duration p1) ∧ p1.us = micros d :=
    fun hle hself d hd => by
      rcases h.covered d hd with hmax | ⟨j, p1, hj, hus⟩
      · exact .inl (UInt64.le_trans hmax hle)
      by_cases hji : j = i
      · subst hji
        cases hp.symm.trans hj
        rcases hself p1 rfl with hmax | ⟨p2, rfl, hus'⟩
        · exact .inl (hus ▸ hmax)
        · exact .inr ⟨j, p2, Function.update_self .., hus'.trans hus⟩
      · exact .inr ⟨j, p1, (Function.update_of_ne hji _ _).trans hj, hus⟩
  rcases metricsStep_cases hx with ⟨c', rfl, rfl, rfl⟩ | ⟨g, value, rfl, rfl, rfl⟩ |
    ⟨p', d, q', rfl, hrec, rfl, rfl⟩ | ⟨x, rfl, rfl, hq⟩
  · refine ⟨fun c => ?_, h.gauge, h.durationMax, hstoring nofun, hrecording nofun,
      hcovered (UInt64.le_refl _) nofun⟩
    show Function.update s.shared.counter c' (s.shared.counter c' + 1) c = _
    by_cases hc : c' = c
    · subst hc
      rw [Function.update_self, h.counter, MetricsPc.isAdd, decide_eq_true rfl, if_pos rfl,
        UInt64.ofNat_add]
      rfl
    · rw [Function.update_of_ne (Ne.symm hc), h.counter, MetricsPc.isAdd, decide_eq_false hc]
      rfl
  · refine ⟨h.counter, fun g' => ?_, h.durationMax, hstoring nofun, hrecording nofun,
      hcovered (UInt64.le_refl _) nofun⟩
    show Function.update s.shared.gauge g value g' = 0 ∨
      .set g' (Function.update s.shared.gauge g value g') ∈ ops
    by_cases hg : g' = g
    · subst hg
      rw [Function.update_self]
      exact .inr (h.storing i g' value hp)
    · rw [Function.update_of_ne hg]
      exact h.gauge g'
  · obtain ⟨hahead, us, hus, hmicros⟩ := h.recording i p' hp
    have hmax := recordStep_max hahead hrec
    refine ⟨h.counter, h.gauge, ?_, hstoring fun g value hg => ?_, hrecording fun p1 hp1 => ?_,
      hcovered ?_ fun p1 hp1 => ?_⟩
    · rcases hmax with ⟨-, -, -, -, hm⟩ | ⟨-, -, hm⟩ | ⟨-, hm, -⟩
      · exact hm ▸ h.durationMax
      · exact hm ▸ h.durationMax
      · exact .inr ⟨us, hus, hmicros.trans hm.symm⟩
    · cases q' <;> cases hg
    · cases q' with
      | inr u => cases hp1
      | inl p2 =>
        cases hp1
        rcases hmax with ⟨p3, he, hu, ha, -⟩ | ⟨he, -⟩ | ⟨he, -⟩
        · cases he
          exact ⟨ha, us, hus, hmicros.trans hu.symm⟩
        · cases he
        · cases he
    · rcases hmax with ⟨-, -, -, -, hm⟩ | ⟨-, -, hm⟩ | ⟨-, hm, hlt⟩
      · exact UInt64.le_of_eq hm.symm
      · exact UInt64.le_of_eq hm.symm
      · exact UInt64.le_of_lt (hm ▸ hlt)
    · cases hp1
      rcases hmax with ⟨p2, rfl, hu, -⟩ | ⟨-, hle, -⟩ | ⟨-, hm, -⟩
      · exact .inr ⟨p2, rfl, hu⟩
      · exact .inl hle
      · exact .inl (UInt64.le_of_eq hm.symm)
  · refine ⟨h.counter, h.gauge, h.durationMax, hstoring fun g value hg => ?_,
      hrecording fun p1 hp1 => ?_, hcovered (UInt64.le_refl _) nofun⟩
    · obtain ⟨x', hx'⟩ := hq _ hg
      cases hx'
    · obtain ⟨x', hx'⟩ := hq _ hp1
      cases hx'

/-- **The step lemma.** -/
theorem Holds.act {a : MetricsAct ι} (h : Holds n ops s) (ha : daemonMetrics.act s a = some s') :
    Holds (fun c => n c + if adds c (s, a) then 1 else 0) (ops ++ called [a]) s' := by
  rcases Obj.act_cases ha with ⟨i, o, rfl, hi, rfl⟩ | ⟨i, k, p, m, q, rfl, hp, hx, rfl⟩ |
    ⟨d, m, rfl, he, rfl⟩
  · exact h.call hi
  · have hadds : ∀ c, adds c (s, (.step i k : MetricsAct ι)) = p.isAdd c := fun c => by
      simp only [adds, hp, Option.any_some]
    have hnone : called [(.step i k : MetricsAct ι)] = [] := rfl
    simp only [hadds, hnone, List.append_nil]
    exact h.exec hp (Option.some.inj hx)
  · cases he
    have hnone : called [(.env d : MetricsAct ι)] = [] := rfl
    rw [hnone, List.append_nil]
    exact ⟨h.counter, h.gauge, h.durationMax, h.storing, h.recording, h.covered⟩

theorem Holds.le {a : MetricsAct ι} (h : Holds n ops s) (ha : daemonMetrics.act s a = some s') :
    s.shared.durations.durationMaxUs ≤ s'.shared.durations.durationMaxUs ∧
      s.shared.elapsed ≤ s'.shared.elapsed := by
  rcases Obj.act_cases ha with ⟨i, o, rfl, hi, rfl⟩ | ⟨i, k, p, m, q, rfl, hp, hx, rfl⟩ |
    ⟨d, m, rfl, he, rfl⟩
  · exact ⟨UInt64.le_refl _, Nat.le_refl _⟩
  · rcases metricsStep_cases (Option.some.inj hx) with ⟨c', rfl, rfl, rfl⟩ |
      ⟨g, value, rfl, rfl, rfl⟩ | ⟨p', d, q', rfl, hrec, rfl, rfl⟩ | ⟨x, rfl, rfl, hq⟩
    · exact ⟨UInt64.le_refl _, Nat.le_refl _⟩
    · exact ⟨UInt64.le_refl _, Nat.le_refl _⟩
    · refine ⟨?_, Nat.le_refl _⟩
      rcases recordStep_max (h.recording i p' hp).1 hrec with
        ⟨-, -, -, -, hm⟩ | ⟨-, -, hm⟩ | ⟨-, hm, hlt⟩
      · exact UInt64.le_of_eq hm.symm
      · exact UInt64.le_of_eq hm.symm
      · exact UInt64.le_of_lt (hm ▸ hlt)
    · exact ⟨UInt64.le_refl _, Nat.le_refl _⟩
  · cases he
    exact ⟨UInt64.le_refl _, Nat.le_add_right _ _⟩

theorem Holds.le_run (h : Holds n ops s) (hr : run daemonMetrics.act s acts = some s') :
    s.shared.durations.durationMaxUs ≤ s'.shared.durations.durationMaxUs ∧
      s.shared.elapsed ≤ s'.shared.elapsed := by
  have hinv := run_inv (P := fun t => (∃ n ops, Holds n ops t) ∧
      s.shared.durations.durationMaxUs ≤ t.shared.durations.durationMaxUs ∧
        s.shared.elapsed ≤ t.shared.elapsed)
    (fun t a t' ⟨⟨n, ops, ht⟩, hmax, htime⟩ ha => ⟨⟨_, _, ht.act ha⟩,
      UInt64.le_trans hmax (ht.le ha).1, Nat.le_trans htime (ht.le ha).2⟩)
    ⟨⟨n, ops, h⟩, UInt64.le_refl _, Nat.le_refl _⟩ hr
  exact hinv.2

theorem holds_run (hr : run daemonMetrics.act (Obj.init .new) acts = some s) :
    Holds (fun c => additions c (Obj.init .new) acts) (called acts) s := by
  have h := run_hist (P := fun acts s => run daemonMetrics.act (Obj.init .new) acts = some s ∧
      Holds (fun c => additions c (Obj.init .new) acts) (called acts) s)
    (fun acts s a s' ⟨hr, h⟩ ha => ⟨run_append_some.2 ⟨s, hr, run_cons_some.2 ⟨s', ha, rfl⟩⟩, by
      have hcount : ∀ c, additions c (Obj.init .new) (acts ++ [a]) =
          additions c (Obj.init .new) acts + if adds c (s, a) then 1 else 0 := fun c => by
        rw [additions, trace_snoc hr, List.countP_append, List.countP_singleton]
        rfl
      simp only [hcount, called_append]
      exact h.act ha⟩) (h := []) ⟨rfl, .new⟩ hr
  exact h.2

/-! ## What a snapshot shows -/

def MetricsSnapshot.counter (r : MetricsSnapshot) : Counter → UInt64
  | .requestsTotal => r.requestsTotal
  | .errorsTotal => r.errorsTotal
  | .circuitBreakerTrips => r.circuitBreakerTrips
  | .successfulRecoveries => r.successfulRecoveries

/-- The snapshot shows a value of a gauge. -/
def MetricsSnapshot.Shows (r : MetricsSnapshot) (value : UInt64) : Gauge → Prop
  | .cpuUsagePermille => r.cpuUsagePercent = value.toNat / 10
  | .memoryBytes => r.memoryBytes = value
  | .openFds => r.openFds = value
  | .threadCount => r.threadCount = value

def rate (errors requests : UInt64) : ℚ :=
  if 0 < requests then errors.toNat / requests.toNat else 0

variable {d : Dialogue Load.Answer} {r : MetricsSnapshot} {v : α}

theorem feed_ask {l : Load} {f : l.Answer → Reading α} (h : (Ask.ask l f).feed d = some v) :
    ∃ a d', (f a).feed d' = some v ∧ ⟨l, a⟩ ∈ d ∧ d' ⊆ d := by
  obtain ⟨a, d', rfl, hf⟩ := Ask.feed_ask_some.1 h
  exact ⟨a, d', hf, List.mem_cons_self, List.subset_cons_self _ _⟩

theorem feed_requestsPerSecond {f : ℚ → Reading α}
    (h : (requestsPerSecond f).feed d = some v) : ∃ x d', (f x).feed d' = some v ∧ d' ⊆ d := by
  obtain ⟨elapsed, d', hf, -, hd⟩ := feed_ask h
  split at hf
  · obtain ⟨n, d2, hf, -, hd2⟩ := feed_ask hf
    exact ⟨_, d2, hf, List.Subset.trans hd2 hd⟩
  · exact ⟨_, d', hf, hd⟩

theorem feed_durationAvg {f : UInt64 → Reading α} (h : (durationAvg f).feed d = some v) :
    ∃ x d', (f x).feed d' = some v ∧ d' ⊆ d := by
  obtain ⟨count, d', hf, -, hd⟩ := feed_ask h
  split at hf
  · obtain ⟨n, d2, hf, -, hd2⟩ := feed_ask hf
    exact ⟨_, d2, hf, List.Subset.trans hd2 hd⟩
  · exact ⟨_, d', hf, hd⟩

/-- The rate is read from both counters, unless the first is zero. -/
theorem feed_errorRate {f : ℚ → Reading α} (h : (errorRate f).feed d = some v) :
    ∃ requests errors d', (f (rate errors requests)).feed d' = some v ∧ d' ⊆ d ∧
      ⟨.counter .requestsTotal, requests⟩ ∈ d ∧
        (0 < requests → ⟨.counter .errorsTotal, errors⟩ ∈ d) := by
  obtain ⟨requests, d', hf, hreq, hd⟩ := feed_ask h
  split at hf
  · rename_i hpos
    obtain ⟨errors, d2, hf, herr, hd2⟩ := feed_ask hf
    refine ⟨requests, errors, d2, ?_, List.Subset.trans hd2 hd, hreq, fun _ => hd herr⟩
    rw [rate, if_pos hpos]
    exact hf
  · rename_i hpos
    refine ⟨requests, 0, d', ?_, hd, hreq, fun h => absurd h hpos⟩
    rw [rate, if_neg hpos]
    exact hf

theorem feed_snapshot (h : snapshot.feed d = some r) :
    (∀ c, ⟨.counter c, r.counter c⟩ ∈ d) ∧
    (∀ g, ∃ value, r.Shows value g ∧ ⟨.gauge g, value⟩ ∈ d) ∧
    ⟨.durationMaxUs, r.durationMaxUs⟩ ∈ d ∧
    (∃ elapsed : Nat, ⟨.elapsed, elapsed⟩ ∈ d ∧ r.uptimeSecs = elapsed / 10 ^ 9) ∧
    ∃ requests errors, ⟨.counter .requestsTotal, requests⟩ ∈ d ∧
      (0 < requests → ⟨.counter .errorsTotal, errors⟩ ∈ d) ∧
        r.errorRate = rate errors requests := by
  unfold snapshot at h
  obtain ⟨requestsTotal, d1, h, h1, s1⟩ := feed_ask h
  obtain ⟨rps, d2, h, s2⟩ := feed_requestsPerSecond h
  obtain ⟨errorsTotal, d3, h, h3, s3⟩ := feed_ask h
  obtain ⟨requests, errors, d4, h, s4, hreq, herr⟩ := feed_errorRate h
  obtain ⟨avg, d5, h, s5⟩ := feed_durationAvg h
  obtain ⟨max, d6, h, h6, s6⟩ := feed_ask h
  obtain ⟨cpu, d7, h, h7, s7⟩ := feed_ask h
  obtain ⟨memory, d8, h, h8, s8⟩ := feed_ask h
  obtain ⟨fds, d9, h, h9, s9⟩ := feed_ask h
  obtain ⟨threads, d10, h, h10, s10⟩ := feed_ask h
  obtain ⟨trips, d11, h, h11, s11⟩ := feed_ask h
  obtain ⟨recoveries, d12, h, h12, s12⟩ := feed_ask h
  obtain ⟨elapsed, d13, h, h13, -⟩ := feed_ask h
  obtain ⟨rfl, rfl⟩ := Ask.feed_done_some.1 h
  have t2 := List.Subset.trans s2 s1
  have t3 := List.Subset.trans s3 t2
  have t4 := List.Subset.trans s4 t3
  have t5 := List.Subset.trans s5 t4
  have t6 := List.Subset.trans s6 t5
  have t7 := List.Subset.trans s7 t6
  have t8 := List.Subset.trans s8 t7
  have t9 := List.Subset.trans s9 t8
  have t10 := List.Subset.trans s10 t9
  have t11 := List.Subset.trans s11 t10
  refine ⟨fun c => ?_, fun g => ?_, t5 h6, ⟨elapsed, t11 (s12 h13), rfl⟩, requests, errors,
    t3 hreq, fun hpos => t3 (herr hpos), rfl⟩
  · cases c with
    | requestsTotal => exact h1
    | errorsTotal => exact t2 h3
    | circuitBreakerTrips => exact t10 h11
    | successfulRecoveries => exact t11 h12
  · cases g with
    | cpuUsagePermille => exact ⟨cpu, rfl, t6 h7⟩
    | memoryBytes => exact ⟨memory, rfl, t7 h8⟩
    | openFds => exact ⟨fds, rfl, t8 h9⟩
    | threadCount => exact ⟨threads, rfl, t9 h10⟩

/-! ## Runs -/

def collector : MetricsConf ι := Obj.init .new

/-- A snapshot is called after `pre`; it goes on during `mid`, in which its caller makes no other
call, and its next step returns `r`. -/
structure Taken (pre mid : List (MetricsAct ι)) (i : ι) (k : Bool) (r : MetricsSnapshot) :
    Prop where
  run : ∃ s, Trans.run daemonMetrics.act collector (pre ++ .call i .snapshot :: mid) = some s ∧
    daemonMetrics.result s (.step i k) = some (some r)
  alone : ∀ o, .call i o ∉ mid

/-- The memory at some moment between the call and the return. -/
def During (pre mid : List (MetricsAct ι)) (i : ι) (s : MetricsConf ι) : Prop :=
  ∃ before after, mid = before ++ after ∧
    run daemonMetrics.act collector (pre ++ .call i .snapshot :: before) = some s

/-- Every value that a snapshot reads was in the memory at some moment of the call. -/
theorem Taken.read (h : Taken pre mid i k r) : ∃ d, snapshot.feed d = some r ∧
    ∀ p ∈ d, ∃ s, During pre mid i s ∧ p.2 = s.shared.load p.1 := by
  obtain ⟨⟨s, hr, hres⟩, halone⟩ := h
  obtain ⟨s1, hpre, hr⟩ := run_append_some.1 hr
  obtain ⟨s2, hcall, hr⟩ := run_cons_some.1 hr
  obtain ⟨-, hs2⟩ := Obj.act_call.1 hcall
  have hpc : s2.pc i = some (snapshotReader.pc snapshot) := by
    rw [hs2]
    exact Function.update_self ..
  obtain ⟨d, v, hd, hv, hsampled⟩ := snapshotReader.sampled hpc halone hr hres
  cases hv
  refine ⟨d, hd, fun p hp => ?_⟩
  obtain ⟨before, after, s3, rfl, hr3, hread⟩ := hsampled.mem hp
  exact ⟨s3, ⟨before, after, rfl, run_append_some.2 ⟨s1, hpre, run_cons_some.2 ⟨s2, hcall, hr3⟩⟩⟩,
    hread⟩

/-- The additions and the calls of a moment, between those at the call and at the return. -/
theorem During.holds (h : During pre mid i s) : ∃ n ops, Holds n ops s ∧
    (∀ c, additions c collector pre ≤ n c ∧
      n c ≤ additions c collector (pre ++ .call i .snapshot :: mid)) ∧
    (∀ o ∈ ops, o ∈ called (pre ++ .call i .snapshot :: mid)) := by
  obtain ⟨before, after, rfl, hr⟩ := h
  refine ⟨_, _, holds_run hr, fun c => ?_, fun o ho => ?_⟩
  · obtain ⟨s1, hpre, -⟩ := run_append_some.1 hr
    have hsplit : pre ++ .call i .snapshot :: (before ++ after) =
        pre ++ .call i .snapshot :: before ++ after := by
      rw [List.append_assoc, List.cons_append]
    have hlow : additions c collector (pre ++ .call i .snapshot :: before) = _ :=
      additions_append hpre
    have hhigh : additions c collector (pre ++ .call i .snapshot :: before ++ after) = _ :=
      additions_append hr
    rw [hsplit]
    show additions c collector pre ≤ additions c collector _ ∧ additions c collector _ ≤ _
    omega
  · rw [← List.cons_append, ← List.append_assoc, called_append]
    exact List.mem_append_left _ ho

/-- No call of `record_duration` is in progress. -/
def Settled (s : MetricsConf ι) : Prop := ∀ i p, s.pc i ≠ some (.duration p)

/-- What the fields of a snapshot stand for. -/
structure Regular (pre mid : List (MetricsAct ι)) (i : ι) (r : MetricsSnapshot) : Prop where
  counter : ∀ c, ∃ n, additions c collector pre ≤ n ∧
    n ≤ additions c collector (pre ++ .call i .snapshot :: mid) ∧ r.counter c = UInt64.ofNat n
  errorRate : ∃ errors requests : Nat, r.errorRate = rate (.ofNat errors) (.ofNat requests) ∧
    (∀ c n, (c, n) ∈ [(Counter.errorsTotal, errors), (.requestsTotal, requests)] →
      additions c collector pre ≤ n ∧
        n ≤ additions c collector (pre ++ .call i .snapshot :: mid))
  gauge : ∀ g, ∃ value, r.Shows value g ∧
    (value = 0 ∨ .set g value ∈ called (pre ++ .call i .snapshot :: mid))
  durationMax : r.durationMaxUs = 0 ∨ ∃ d, .recordDuration d ∈
    called (pre ++ .call i .snapshot :: mid) ∧ micros d = r.durationMaxUs
  covered : ∀ s d, run daemonMetrics.act collector pre = some s → Settled s →
    .recordDuration d ∈ called pre → micros d ≤ r.durationMaxUs

theorem During.le (h : During pre mid i s) (hpre : run daemonMetrics.act collector pre = some s1) :
    s1.shared.durations.durationMaxUs ≤ s.shared.durations.durationMaxUs ∧
      s1.shared.elapsed ≤ s.shared.elapsed := by
  obtain ⟨before, after, -, hr⟩ := h
  obtain ⟨s2, hpre', hr⟩ := run_append_some.1 hr
  cases hpre.symm.trans hpre'
  exact (holds_run hpre).le_run hr

/-- **Snapshots are regular**: with any number of callers of `record_request`, `set_memory_bytes`,
`record_duration` and the like at the same time, every field of a snapshot was right at some moment
of the call. -/
theorem snapshot_regular (h : Taken pre mid i k r) : Regular pre mid i r := by
  obtain ⟨d, hd, hread⟩ := h.read
  obtain ⟨hcounter, hgauge, hmax, -, requests, errors, hreq, herr, hrate⟩ := feed_snapshot hd
  -- what was read from a counter
  have hcount : ∀ c value, (⟨.counter c, value⟩ : Σ l : Load, l.Answer) ∈ d →
      ∃ n, additions c collector pre ≤ n ∧
        n ≤ additions c collector (pre ++ .call i .snapshot :: mid) ∧ value = UInt64.ofNat n := by
    intro c value hp
    obtain ⟨s, hs, hv⟩ := hread _ hp
    obtain ⟨n, ops, hholds, hn, -⟩ := hs.holds
    exact ⟨n c, (hn c).1, (hn c).2, hv.trans (hholds.counter c)⟩
  refine ⟨fun c => hcount c _ (hcounter c), ?_, fun g => ?_, ?_, fun s d hs hset hd => ?_⟩
  · obtain ⟨m, hm, hm', rfl⟩ := hcount _ _ hreq
    by_cases hpos : 0 < UInt64.ofNat m
    · obtain ⟨n, hn, hn', rfl⟩ := hcount _ _ (herr hpos)
      refine ⟨n, m, hrate, fun c x hx => ?_⟩
      rcases List.mem_cons.1 hx with hx | hx
      · cases hx
        exact ⟨hn, hn'⟩
      · cases List.mem_singleton.1 hx
        exact ⟨hm, hm'⟩
    · -- no errors have been read
      obtain ⟨n, hn, hn', -⟩ := hcount _ _ (hcounter .errorsTotal)
      refine ⟨n, m, ?_, fun c x hx => ?_⟩
      · rw [hrate, rate, rate, if_neg hpos, if_neg hpos]
      · rcases List.mem_cons.1 hx with hx | hx
        · cases hx
          exact ⟨hn, hn'⟩
        · cases List.mem_singleton.1 hx
          exact ⟨hm, hm'⟩
  · obtain ⟨value, hshows, hp⟩ := hgauge g
    obtain ⟨s, hs, hv⟩ := hread _ hp
    obtain ⟨n, ops, hholds, -, hops⟩ := hs.holds
    have hvalue : value = s.shared.gauge g := hv
    exact ⟨value, hshows, hvalue ▸ (hholds.gauge g).imp_right (hops _)⟩
  · obtain ⟨s, hs, hv⟩ := hread _ hmax
    obtain ⟨n, ops, hholds, -, hops⟩ := hs.holds
    have hvalue : r.durationMaxUs = s.shared.durations.durationMaxUs := hv
    rw [hvalue]
    exact hholds.durationMax.imp_right fun ⟨d, hd, hm⟩ => ⟨d, hops _ hd, hm⟩
  · obtain ⟨s', hs', hv⟩ := hread _ hmax
    have hvalue : r.durationMaxUs = s'.shared.durations.durationMaxUs := hv
    rw [hvalue]
    rcases (holds_run hs).covered d hd with hle | ⟨j, p, hj, -⟩
    · exact UInt64.le_trans hle (hs'.le hs).1
    · exact absurd hj (hset j p)

/-- A request is recorded before a snapshot, and a second one after its first read. -/
def requested : List (MetricsAct Bool) := [.call true (.record .requestsTotal), .step true false]

def meanwhile : List (MetricsAct Bool) :=
  .step false false :: requested ++ List.replicate 12 (.step false false)

theorem snapshot_regular_busy : ∃ r, Taken requested meanwhile false false r ∧
    r.requestsTotal = 1 ∧ Regular requested meanwhile false r := by
  obtain ⟨r, hr, hone⟩ : ∃ r, Taken requested meanwhile false false r ∧ r.requestsTotal = 1 := by
    refine ⟨_, ⟨⟨_, rfl, rfl⟩, ?_⟩, rfl⟩
    simp [meanwhile, requested]
  exact ⟨r, hr, hone, snapshot_regular hr⟩

theorem additions_le (hr : run daemonMetrics.act s pre = some s') (mid : List (MetricsAct ι)) :
    additions c s pre ≤ additions c s (pre ++ mid) := by
  rw [additions_append hr]
  exact Nat.le_add_right _ _

variable {pre' mid' rest : List (MetricsAct ι)} {i' : ι} {k' : Bool} {r' : MetricsSnapshot}

/-- **Snapshots are ordered**: one that is called after another has returned falls behind it in no
counter, in the maximum duration or in the uptime, as long as no counter has wrapped around. -/
theorem snapshots_ordered (h : Taken pre mid i k r) (h' : Taken pre' mid' i' k' r')
    (hpre : pre' = pre ++ .call i .snapshot :: mid ++ .step i k :: rest)
    (hfew : ∀ c, additions c collector (pre' ++ .call i' .snapshot :: mid') < 2 ^ 64) :
    (∀ c, r.counter c ≤ r'.counter c) ∧ r.durationMaxUs ≤ r'.durationMaxUs ∧
      r.uptimeSecs ≤ r'.uptimeSecs := by
  obtain ⟨d, hd, hread⟩ := h.read
  obtain ⟨d', hd', hread'⟩ := h'.read
  obtain ⟨-, -, hmax, ⟨t, ht, huptime⟩, -⟩ := feed_snapshot hd
  obtain ⟨-, -, hmax', ⟨t', ht', huptime'⟩, -⟩ := feed_snapshot hd'
  obtain ⟨s2, hr2, -⟩ := h'.run
  obtain ⟨s1, hr1, -⟩ := run_append_some.1 hr2
  -- every moment of the first call is before every moment of the second one
  have hbefore : ∀ s s', During pre mid i s → During pre' mid' i' s' →
      s.shared.durations.durationMaxUs ≤ s'.shared.durations.durationMaxUs ∧
        s.shared.elapsed ≤ s'.shared.elapsed := by
    rintro s s' ⟨before, after, rfl, hr⟩ hs'
    have hsplit : pre' = pre ++ .call i .snapshot :: before ++ (after ++ .step i k :: rest) := by
      rw [hpre]
      simp
    rw [hsplit] at hr1
    obtain ⟨s3, hr3, hr4⟩ := run_append_some.1 hr1
    cases hr.symm.trans hr3
    have hle := (holds_run hr).le_run hr4
    have hle' := hs'.le (hsplit ▸ hr1)
    exact ⟨UInt64.le_trans hle.1 hle'.1, Nat.le_trans hle.2 hle'.2⟩
  refine ⟨fun c => ?_, ?_, ?_⟩
  · obtain ⟨n, -, hn, hc⟩ := (snapshot_regular h).counter c
    obtain ⟨n', hn', hlt, hc'⟩ := (snapshot_regular h').counter c
    obtain ⟨s3, hr3, -⟩ := h.run
    have hle : additions c collector (pre ++ .call i .snapshot :: mid) ≤
        additions c collector pre' := by
      rw [hpre]
      exact additions_le hr3 _
    have hnn : n ≤ n' := hn.trans (hle.trans hn')
    have hbound : n' < UInt64.size := Nat.lt_of_le_of_lt hlt (hfew c)
    rw [hc, hc', UInt64.le_iff_toNat_le, UInt64.toNat_ofNat_of_lt' (hnn.trans_lt hbound),
      UInt64.toNat_ofNat_of_lt' hbound]
    exact hnn
  · obtain ⟨s, hs, hv⟩ := hread _ hmax
    obtain ⟨s', hs', hv'⟩ := hread' _ hmax'
    have hle := (hbefore s s' hs hs').1
    rwa [← show r.durationMaxUs = s.shared.durations.durationMaxUs from hv,
      ← show r'.durationMaxUs = s'.shared.durations.durationMaxUs from hv'] at hle
  · obtain ⟨s, hs, hv⟩ := hread _ ht
    obtain ⟨s', hs', hv'⟩ := hread' _ ht'
    rw [huptime, huptime', show t = s.shared.elapsed from hv, show t' = s'.shared.elapsed from hv']
    exact Nat.div_le_div_right (hbefore s s' hs hs').2

/-- The two snapshots of the caller that has recorded the requests, and of the other one. -/
theorem snapshots_ordered_busy : ∃ r r' : MetricsSnapshot, Taken requested meanwhile false false r ∧
    r.requestsTotal = 1 ∧ r'.requestsTotal = 2 ∧ ∀ c, r.counter c ≤ r'.counter c := by
  obtain ⟨r, hr, hone⟩ : ∃ r, Taken requested meanwhile false false r ∧ r.requestsTotal = 1 := by
    refine ⟨_, ⟨⟨_, rfl, rfl⟩, ?_⟩, rfl⟩
    simp [meanwhile, requested]
  obtain ⟨r', hr', htwo⟩ : ∃ r', Taken
      (requested ++ .call false .snapshot :: meanwhile ++ .step false false :: [])
      (List.replicate 13 (.step true false)) true false r' ∧ r'.requestsTotal = 2 := by
    refine ⟨_, ⟨⟨_, rfl, rfl⟩, ?_⟩, rfl⟩
    simp
  have hfew : ∀ c, additions c collector (requested ++ .call false .snapshot :: meanwhile ++
      [.step false false] ++ .call true .snapshot :: List.replicate 13 (.step true false)) <
        2 ^ 64 := by
    intro c
    cases c <;> decide
  exact ⟨r, r', hr, hone, htwo, (snapshots_ordered hr hr' rfl hfew).1⟩

end Duende.Core.Metrics
