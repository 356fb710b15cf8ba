import Duende.Observe.Isolation
import Duende.Trans.Ring

/-!
# What the monitor keeps

A call that fails after it has parsed `stat` leaves its measurement behind:
`no_trace_iff` says for which calls nothing is left. `history_bounded_iff` says that the
history of a run is its last snapshots, as many as fit, unless nothing fits.
-/

namespace Duende.Observe

open Trans

variable {clkTck capacity pageSize : Nat} {meminfo : Except IoError Text} {m : DaemonMonitor}
  {c : Sample} {cs : List Sample}

/-! ## Failed calls -/

/-- If the call returns an error, it leaves the monitor as it was, and so every later call
returns what it would have returned. -/
def NoTrace (clkTck : Nat) (m : DaemonMonitor) (c : Sample) : Prop :=
  ∀ e, (m.collect clkTck c.1 c.2).2 = .error e → e ≠ .panicked →
    (m.collect clkTck c.1 c.2).1 = m ∧
      ∀ cs, collects clkTck (m.collect clkTck c.1 c.2).1 cs = collects clkTck m cs

/-- What a call does, by what it can parse. -/
theorem collect_cases :
    (∃ e, DaemonMonitor.parseProcStat c.1 c.2.stat = .error e ∧
      m.collect clkTck c.1 c.2 = (m, .error e)) ∨
    (∃ e, (measure c).isSome ∧ m.parseProcStatm c.2.statm = .error e ∧
      m.collect clkTck c.1 c.2 = ({ m with prevCpu := measure c }, .error e)) ∨
    (∃ snap, (measure c).isSome ∧ (m.parseProcStatm c.2.statm).isOk ∧ snap.timestamp = c.2.now ∧
      m.collect clkTck c.1 c.2 =
        ({ m with prevCpu := measure c, history := Ring.push m.capacity m.history snap },
          .ok snap)) := by
  unfold DaemonMonitor.collect DaemonMonitor.collectLinux measure
  cases DaemonMonitor.parseProcStat c.1 c.2.stat with
  | error e => exact .inl ⟨e, rfl, rfl⟩
  | ok stat =>
    unfold DaemonMonitor.snapshot
    cases m.parseProcStatm c.2.statm with
    | error e => exact .inr (.inl ⟨e, rfl, rfl, rfl⟩)
    | ok bytes => exact .inr (.inr ⟨_, rfl, rfl, rfl, rfl⟩)

theorem parseProcStatm_ne_panicked {statm : Except IoError Text} {e : Abort}
    (h : m.parseProcStatm statm = .error e) : e ≠ .panicked := by
  unfold DaemonMonitor.parseProcStatm at h
  split at h
  · cases h; exact nofun
  · split at h
    · split at h <;> cases h
      exact nofun
    · cases h; exact nofun

/-- **A failed call leaves nothing behind** exactly when `statm` can be parsed, `stat`
cannot, or `stat` and the clock read as they did at the previous measurement. -/
theorem no_trace_iff : NoTrace clkTck m c ↔
    (m.parseProcStatm c.2.statm).isOk = true ∨ measure c = none ∨ measure c = m.prevCpu := by
  rcases @collect_cases clkTck m c with ⟨e, hstat, hc⟩ | ⟨e, hsome, hstatm, hc⟩ |
    ⟨snap, -, hok, -, hc⟩
  · have hnone : measure c = none := by
      unfold measure
      rw [hstat]
      rfl
    refine iff_of_true (fun _ _ _ => ?_) (.inr (.inl hnone))
    rw [hc]
    exact ⟨rfl, fun _ => rfl⟩
  · constructor
    · intro h
      obtain ⟨hm, -⟩ := h e (by rw [hc]) (parseProcStatm_ne_panicked hstatm)
      rw [hc] at hm
      exact .inr (.inr (congrArg DaemonMonitor.prevCpu hm))
    · intro h _ _ _
      have hprev : measure c = m.prevCpu := by
        rcases h with h | h | h
        · rw [hstatm] at h; cases h
        · rw [h] at hsome; cases hsome
        · exact h
      have hm : { m with prevCpu := measure c } = m := by rw [hprev]
      rw [hc]
      exact ⟨hm, fun cs => by rw [hm]⟩
  · refine iff_of_true (fun e he => ?_) (.inl hok)
    rw [hc] at he
    cases he

/-- A monitor that has seen process 1 use no ticks at time 0. -/
def seenOnce : DaemonMonitor := (newMonitor.collect 100 1 (readingAt 0 0)).1

/-- Process 1 ends between the two reads, two seconds later. -/
def endsBetween : Sample :=
  (1, { readingAt (2 * 10 ^ 9) 100 with statm := .error .notFound })

/-- The failed call replaces the measurement, and the next share counts from there. -/
theorem failed_call_counts : ¬ NoTrace 100 seenOnce endsBetween ∧
    cpuOf 1 (collects 100 seenOnce [endsBetween, (1, readingAt (4 * 10 ^ 9) 300)]) = [100] ∧
    cpuOf 1 (collects 100 seenOnce [(1, readingAt (4 * 10 ^ 9) 300)]) = [75] := by
  refine ⟨fun h => ?_, by decide +kernel, by decide +kernel⟩
  obtain ⟨hm, -⟩ := h (.io .notFound) (by decide +kernel) nofun
  have hprev := congrArg DaemonMonitor.prevCpu hm
  revert hprev
  decide +kernel

/-! ## The history -/

def after (clkTck : Nat) (m : DaemonMonitor) (cs : List Sample) : DaemonMonitor :=
  cs.foldl (fun m c => (m.collect clkTck c.1 c.2).1) m

/-- The snapshots that the calls of a run return, in order. -/
def snapshots (clkTck : Nat) (m : DaemonMonitor) (cs : List Sample) : List DaemonSnapshot :=
  (collects clkTck m cs).filterMap fun r => r.2.toOption

/-- Both files that a call needs can be parsed. -/
def Succeeds (m : DaemonMonitor) (c : Sample) : Prop :=
  (DaemonMonitor.parseProcStat c.1 c.2.stat).isOk = true ∧
    (m.parseProcStatm c.2.statm).isOk = true

def Ordered (cs : List Sample) : Prop := cs.Pairwise fun a b => a.2.now ≤ b.2.now

/-- What `all_history` and, at a clock reading `now`, `history` return after a run. -/
structure Bounded (clkTck : Nat) (m : DaemonMonitor) (cs : List Sample) : Prop where
  last : (after clkTck m cs).allHistory = Ring.lastOf m.capacity (snapshots clkTck m cs)
  length : (after clkTck m cs).allHistory.length ≤ m.capacity
  recent : ∀ now duration, (∀ c ∈ cs, c.2.now ≤ now) →
    (after clkTck m cs).historyWithin now duration <:+ (after clkTck m cs).allHistory ∧
      ∀ s, s ∈ (after clkTck m cs).historyWithin now duration ↔
        s ∈ (after clkTck m cs).allHistory ∧ now ≤ s.timestamp + duration

theorem snapshots_cons : snapshots clkTck m (c :: cs) =
    (m.collect clkTck c.1 c.2).2.toOption.toList ++
      snapshots clkTck (m.collect clkTck c.1 c.2).1 cs := by
  unfold snapshots
  rw [collects, List.filterMap_cons]
  cases (m.collect clkTck c.1 c.2).2.toOption <;> rfl

theorem after_history : ∀ {cs : List Sample} {m : DaemonMonitor},
    (after clkTck m cs).history =
      (snapshots clkTck m cs).foldl (Ring.push m.capacity) m.history
  | [], _ => rfl
  | c :: cs, m => by
    have ih := @after_history cs (m.collect clkTck c.1 c.2).1
    rw [snapshots_cons, List.foldl_append]
    show (after clkTck (m.collect clkTck c.1 c.2).1 cs).history = _
    rcases @collect_cases clkTck m c with ⟨e, -, hc⟩ | ⟨e, -, -, hc⟩ | ⟨snap, -, -, -, hc⟩
    · rw [ih, hc]; rfl
    · rw [ih, hc]; rfl
    · rw [ih, hc]; rfl

theorem timestamps_sublist : ∀ {cs : List Sample} {m : DaemonMonitor},
    ((snapshots clkTck m cs).map DaemonSnapshot.timestamp).Sublist (cs.map fun c => c.2.now)
  | [], _ => List.Sublist.slnil
  | c :: cs, m => by
    have ih := @timestamps_sublist cs (m.collect clkTck c.1 c.2).1
    rw [snapshots_cons, List.map_append, List.map_cons]
    rcases @collect_cases clkTck m c with ⟨e, -, hc⟩ | ⟨e, -, -, hc⟩ | ⟨snap, -, -, hnow, hc⟩
    · rw [hc] at ih ⊢
      exact ih.cons _
    · rw [hc] at ih ⊢
      exact ih.cons _
    · rw [hc] at ih ⊢
      show (snap.timestamp :: _).Sublist _
      rw [hnow]
      exact ih.cons_cons _

theorem snapshots_eq_nil : ∀ {cs : List Sample} {m : DaemonMonitor},
    snapshots clkTck m cs = [] ↔ ∀ c ∈ cs, ¬ Succeeds m c
  | [], _ => iff_of_true rfl fun _ h => nomatch h
  | c :: cs, m => by
    have ih := @snapshots_eq_nil cs (m.collect clkTck c.1 c.2).1
    have hsize := @collect_pageSize clkTck m c.1 c.2
    have hsame : ∀ c', Succeeds (m.collect clkTck c.1 c.2).1 c' ↔ Succeeds m c' := fun c' => by
      unfold Succeeds
      rw [parseProcStatm_congr hsize]
    simp only [hsame] at ih
    rw [snapshots_cons, List.append_eq_nil_iff, ih, List.forall_mem_cons]
    refine and_congr_left fun _ => ?_
    rcases @collect_cases clkTck m c with ⟨e, hstat, hc⟩ | ⟨e, -, hstatm, hc⟩ |
      ⟨snap, hsome, hok, -, hc⟩
    · refine iff_of_true (by rw [hc]; rfl) fun h => ?_
      have := h.1
      rw [hstat] at this
      cases this
    · refine iff_of_true (by rw [hc]; rfl) fun h => ?_
      have := h.2
      rw [hstatm] at this
      cases this
    · refine iff_of_false (by rw [hc]; nofun) fun h => h ⟨?_, hok⟩
      unfold measure at hsome
      cases hstat : DaemonMonitor.parseProcStat c.1 c.2.stat with
      | error e => rw [hstat] at hsome; cases hsome
      | ok stat => rfl

theorem historyWithin_spec {now duration : Nat}
    (h : m.history.Pairwise fun a b => a.timestamp ≤ b.timestamp) :
    m.historyWithin now duration <:+ m.allHistory ∧
      ∀ s, s ∈ m.historyWithin now duration ↔
        s ∈ m.allHistory ∧ now ≤ s.timestamp + duration := by
  unfold DaemonMonitor.historyWithin DaemonMonitor.allHistory
  split
  · constructor
    · refine Ring.filter_suffix (h.imp fun hab ha => ?_)
      rw [decide_eq_true_eq] at ha ⊢
      exact ha.trans hab
    · intro s
      rw [List.mem_filter, decide_eq_true_eq, Nat.sub_le_iff_le_add]
  · rename_i hd
    exact ⟨List.suffix_rfl, fun s => (and_iff_left (by omega)).symm⟩

/-- **The history of a run** is its last snapshots, as many as fit, and `history` returns
the end of it, exactly when the capacity is positive or no call succeeds. -/
theorem history_bounded_iff (hcs : Ordered cs) :
    Bounded clkTck (.new capacity pageSize meminfo) cs ↔
      0 < capacity ∨ ∀ c ∈ cs, ¬ Succeeds (.new capacity pageSize meminfo) c := by
  have hrun := @after_history clkTck cs (.new capacity pageSize meminfo)
  rw [← @snapshots_eq_nil clkTck]
  constructor
  · intro h
    by_contra hne
    rw [not_or, Nat.not_lt, Nat.le_zero] at hne
    obtain ⟨rfl, hsome⟩ := hne
    obtain ⟨xs, x, hxs⟩ := (List.eq_nil_or_concat' _).resolve_left hsome
    have hlen : (after clkTck (.new 0 pageSize meminfo) cs).history.length ≤ 0 := h.length
    have hone : (xs ++ [x]).foldl (Ring.push 0) [] = [x] := Ring.foldl_push_zero xs x
    rw [hrun, hxs] at hlen
    exact Nat.not_succ_le_zero 0 (le_of_eq_of_le (congrArg List.length hone).symm hlen)
  · intro h
    have hlast : (after clkTck (.new capacity pageSize meminfo) cs).allHistory =
        Ring.lastOf capacity (snapshots clkTck (.new capacity pageSize meminfo) cs) := by
      rcases h with h | h
      · exact hrun.trans (Ring.foldl_push h _)
      · refine hrun.trans ?_
        rw [h]
        exact (List.drop_nil).symm
    have hsorted : (after clkTck (.new capacity pageSize meminfo) cs).history.Pairwise
        fun a b => a.timestamp ≤ b.timestamp := by
      have hall : ((snapshots clkTck (.new capacity pageSize meminfo) cs).map
          DaemonSnapshot.timestamp).Pairwise (· ≤ ·) :=
        (List.pairwise_map.2 hcs).sublist timestamps_sublist
      rw [show (after clkTck (.new capacity pageSize meminfo) cs).history = _ from hlast]
      exact (List.pairwise_map.1 hall).sublist (List.drop_sublist _ _)
    refine ⟨hlast, ?_, fun now duration _ => historyWithin_spec hsorted⟩
    rw [hlast, Ring.length_lastOf]
    exact Nat.min_le_right _ _

/-- Two snapshots in a history of one. -/
theorem history_bounded_one :
    Bounded 100 (.new 1 4096 (.error .notFound)) [(1, readingAt 0 0), (1, readingAt 1 1)] :=
  (history_bounded_iff (by unfold Ordered; decide +kernel)).2 (.inl Nat.one_pos)

/-- A history with no room keeps one snapshot. -/
theorem history_of_none : ¬ Bounded 100 (.new 0 4096 (.error .notFound)) [(1, readingAt 0 0)] := by
  intro h
  have hlen := h.length
  revert hlen
  decide +kernel

end Duende.Observe
