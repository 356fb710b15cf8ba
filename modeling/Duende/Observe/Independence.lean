import Duende.Observe.Outcomes

/-!
# Daemons are independent of each other

Timestamps aside, an operation is an action on the cell of its daemon. `abstract_run` reads a
run of the monitor as a run over cells, and `daemons_independent` compares two runs that make
the same calls for every daemon in the same order.
-/

namespace Duende.Observe

open Trans

variable {config : HealthConfig} {m m' : HealthMonitor} {c : Nat × Op} {cs cs' : List (Nat × Op)}
  {now : Nat} {id : DaemonId} {s : DaemonHealthState} {o : Op}

/-- The results of a run, each with the daemon it is about. -/
def results (m : HealthMonitor) : List (Nat × Op) → List (DaemonId × Except ObserveError Unit)
  | [] => []
  | c :: cs => (c.2.target, (m.op c.1 c.2).result) :: results (m.op c.1 c.2).monitor cs

/-- The results of the calls for one daemon. -/
def resultsOf (id : DaemonId) (m : HealthMonitor) (cs : List (Nat × Op)) :
    List (Except ObserveError Unit) :=
  ((results m cs).filter fun r => r.1 = id).map Prod.snd

/-- The same calls for every daemon, in the same order; the clock may read differently. -/
def Reordered (cs cs' : List (Nat × Op)) : Prop :=
  (cs.map Prod.snd).Perm (cs'.map Prod.snd) ∧
    ∀ id, onKey Op.target id (cs.map Prod.snd) = onKey Op.target id (cs'.map Prod.snd)

def DaemonHealthState.untimed (s : DaemonHealthState) : DaemonHealthState :=
  { s with lastCheck := none }

def HealthMonitor.untimed (m : HealthMonitor) (id : DaemonId) : Option DaemonHealthState :=
  (m.states id).map DaemonHealthState.untimed

/-! ## An operation on a cell -/

/-- What an operation makes of the state of its daemon. -/
def cell (config : HealthConfig) (s : Option DaemonHealthState) : Op → Option DaemonHealthState
  | .register id => some (.new id)
  | .unregister _ => none
  | .recordCheck id status => s.map fun s => (s.check config 0 id status).1.untimed
  | .recordTimeout id => s.map fun s => (s.timeout config 0 id).1.untimed

def answer (s : Option DaemonHealthState) : Op → Except ObserveError Unit
  | .register _ | .unregister _ => .ok ()
  | .recordCheck id _ | .recordTimeout id =>
    if s.isSome then .ok () else .error (HealthMonitor.notRegistered id)

theorem untimed_failed {st : Option HealthStatus} :
    (s.untimed.failed config 0 st).untimed = (s.failed config now st).untimed := rfl

theorem untimed_check {status : HealthStatus} :
    (s.untimed.check config 0 id status).1.untimed = (s.check config now id status).1.untimed := by
  cases h : status.isHealthy with
  | true => rw [check_ok h, check_ok h]; rfl
  | false => rw [check_failed h, check_failed h]; rfl

theorem untimed_timeout :
    (s.untimed.timeout config 0 id).1.untimed = (s.timeout config now id).1.untimed := by
  rw [timeout_eq, timeout_eq, untimed_failed]

/-- **An operation works on the cell of its daemon.** -/
theorem untimed_op : (m.op now o).monitor.untimed =
    Function.update m.untimed o.target (cell m.config (m.untimed o.target) o) := by
  funext j
  by_cases hj : o.target = j
  · subst hj
    unfold HealthMonitor.untimed
    rw [Function.update_self, op_states]
    cases o with
    | register id => rfl
    | unregister id => rfl
    | recordCheck id status =>
      simp only [cell, Op.target]
      cases m.states id with
      | none => rfl
      | some s => exact congrArg some untimed_check.symm
    | recordTimeout id =>
      simp only [cell, Op.target]
      cases m.states id with
      | none => rfl
      | some s => exact congrArg some untimed_timeout.symm
  · rw [Function.update_of_ne (Ne.symm hj)]
    unfold HealthMonitor.untimed
    rw [op_states_other hj]

theorem modify_result {f : DaemonHealthState → DaemonHealthState × List HealthEvent} :
    (m.modify id f).result =
      if (m.untimed id).isSome then .ok () else .error (HealthMonitor.notRegistered id) := by
  unfold HealthMonitor.modify HealthMonitor.untimed
  cases m.states id <;> rfl

theorem op_result : (m.op now o).result = answer (m.untimed o.target) o := by
  cases o with
  | register id => rfl
  | unregister id => rfl
  | recordCheck id status => exact modify_result
  | recordTimeout id => exact modify_result

/-! ## A run over cells -/

theorem untimed_run {m m' : HealthMonitor} (hr : run HealthMonitor.act m cs = some m') :
    m'.untimed = runCells Op.target (cell m.config) m.untimed (cs.map Prod.snd) := by
  induction cs generalizing m with
  | nil => cases hr; rfl
  | cons c cs ih =>
    obtain ⟨m1, h1, h2⟩ := run_cons_some.1 hr
    cases h1
    rw [ih h2, op_config, untimed_op]
    rfl

theorem resultsOf_eq : resultsOf id m cs =
    answersOf Op.target (cell m.config) answer id m.untimed (cs.map Prod.snd) := by
  induction cs generalizing m with
  | nil => rfl
  | cons c cs ih =>
    have ih := @ih (m.op c.1 c.2).monitor
    rw [op_config, untimed_op] at ih
    rw [List.map_cons, answersOf, ← ih, ← @op_result m c.1 c.2]
    unfold resultsOf
    rw [results, List.filter_cons]
    by_cases h : c.2.target = id <;> simp [h]

/-- The states without timestamps that a run from the empty monitor leaves. -/
theorem untimed_of_run (id : DaemonId) (hr : run HealthMonitor.act (.new config) cs = some m) :
    m.untimed id = (onKey Op.target id (cs.map Prod.snd)).foldl (cell config) none := by
  rw [untimed_run hr, runCells_apply]; rfl

/-! ## The statistics -/

/-- The counts of the statistics, without the average. -/
def HealthStatistics.counts (s : HealthStatistics) : Nat × Nat × Nat × Nat × Nat :=
  (s.totalDaemons, s.healthyDaemons, s.unhealthyDaemons, s.totalChecks, s.totalFailures)

theorem foldl_u64Add (l : List Nat) : ∀ n, l.foldl u64Add n % 2 ^ 64 = (n + l.sum) % 2 ^ 64 := by
  induction l with
  | nil => simp
  | cons x l ih =>
    intro n
    rw [List.foldl_cons, ih, List.sum_cons]
    unfold u64Add; omega

theorem sum_u64Add (l : List Nat) : l.foldl u64Add 0 = l.sum % 2 ^ 64 := by
  have hlt : l.foldl u64Add 0 < 2 ^ 64 := by
    cases l using List.reverseRecOn with
    | nil => decide
    | append_singleton l x =>
      rw [List.foldl_append]
      exact Nat.mod_lt _ (by decide)
  have := foldl_u64Add l 0
  rw [Nat.mod_eq_of_lt hlt] at this
  simpa using this

/-- The counts from the states without timestamps, in any order. -/
theorem counts_eq (it : Iteration m.states) :
    (m.statistics it).counts =
      ((it.mapValues DaemonHealthState.untimed).values.length,
        ((it.mapValues DaemonHealthState.untimed).values.filter (·.isHealthy)).length,
        (it.mapValues DaemonHealthState.untimed).values.length -
          ((it.mapValues DaemonHealthState.untimed).values.filter (·.isHealthy)).length,
        (((it.mapValues DaemonHealthState.untimed).values.map (·.totalChecks)).sum) % 2 ^ 64,
        (((it.mapValues DaemonHealthState.untimed).values.map (·.totalFailures)).sum) % 2 ^ 64) := by
  unfold HealthMonitor.statistics HealthStatistics.counts
  simp only [sum_u64Add, Iteration.values_mapValues, List.filter_map, List.length_map,
    List.map_map]
  rfl

theorem counts_congr (h : m.untimed = m'.untimed) (it : Iteration m.states)
    (it' : Iteration m'.states) : (m.statistics it).counts = (m'.statistics it').counts := by
  have hp : (it.mapValues DaemonHealthState.untimed).values.Perm
      (it'.mapValues DaemonHealthState.untimed).values := by
    have key : ∀ {u u' : DaemonId → Option DaemonHealthState} (hu : u = u') (i : Iteration u)
        (i' : Iteration u'), i.values.Perm i'.values := by
      rintro u _ rfl i i'; exact i.values_perm i'
    exact key h _ _
  rw [counts_eq, counts_eq, hp.length_eq, (hp.filter _).length_eq, (hp.map _).sum_eq,
    (hp.map (·.totalFailures)).sum_eq]

theorem exists_iteration (hr : run HealthMonitor.act (.new config) cs = some m) :
    Nonempty (Iteration m.states) := by
  refine run_inv (P := fun m => Nonempty (Iteration m.states)) ?_ ⟨Iteration.empty⟩ hr
  rintro m ⟨now, o⟩ _ ⟨it⟩ ha
  obtain rfl := Option.some.inj ha
  have hstates : (m.op now o).monitor.states =
      Function.update m.states o.target ((m.op now o).monitor.states o.target) := by
    funext j
    by_cases hj : o.target = j
    · subst hj; rw [Function.update_self]
    · rw [Function.update_of_ne (Ne.symm hj), op_states_other hj]
  show Nonempty (Iteration (m.op now o).monitor.states)
  rw [hstates]
  exact ⟨it.update _ _⟩

/-- A cell counts no more checks and failures than there were calls. -/
theorem cell_counts_le {os : List Op} {s : DaemonHealthState} :
    os.foldl (cell config) none = some s →
      s.totalChecks ≤ os.length ∧ s.totalFailures ≤ os.length := by
  induction os using List.reverseRecOn generalizing s with
  | nil => intro h; cases h
  | append_singleton os o ih =>
    rw [List.foldl_append, List.length_append, List.foldl_cons, List.foldl_nil, List.length_singleton]
    have hmod : ∀ n, u64Add n 1 ≤ n + 1 := fun n => Nat.mod_le _ _
    intro h
    cases o with
    | register id => cases h; exact ⟨Nat.zero_le _, Nat.zero_le _⟩
    | unregister id => cases h
    | recordCheck id status =>
      obtain ⟨s0, h0, rfl⟩ := Option.map_eq_some_iff.1 h
      obtain ⟨h1, h2⟩ := ih h0
      cases hok : status.isHealthy with
      | true =>
        rw [check_ok hok]
        exact ⟨(hmod _).trans (by omega), h2.trans (Nat.le_succ _)⟩
      | false =>
        rw [check_failed hok]
        exact ⟨(hmod _).trans (by omega), (hmod _).trans (by omega)⟩
    | recordTimeout id =>
      obtain ⟨s0, h0, rfl⟩ := Option.map_eq_some_iff.1 h
      obtain ⟨h1, h2⟩ := ih h0
      rw [timeout_eq]
      exact ⟨(hmod _).trans (by omega), (hmod _).trans (by omega)⟩

theorem sums_le (hr : run HealthMonitor.act (.new config) cs = some m)
    (it : Iteration m.states) : (it.values.map (·.totalChecks)).sum ≤ cs.length ∧
      (it.values.map (·.totalFailures)).sum ≤ cs.length := by
  have hle : ∀ id s, m.states id = some s →
      s.totalChecks ≤ (onKey Op.target id (cs.map Prod.snd)).length ∧
        s.totalFailures ≤ (onKey Op.target id (cs.map Prod.snd)).length := by
    intro id s hs
    have hcell := untimed_of_run id hr
    unfold HealthMonitor.untimed at hcell
    rw [hs] at hcell
    exact cell_counts_le (s := s.untimed) hcell.symm
  have h1 := it.sum_le (fun s => s.totalChecks) fun id s hs => (hle id s hs).1
  have h2 := it.sum_le (fun s => s.totalFailures) fun id s hs => (hle id s hs).2
  rw [List.length_map] at h1 h2
  exact ⟨h1, h2⟩

/-- **Daemons are independent**: two runs that make the same calls for every daemon in the
same order end in the same states, timestamps aside, with the same results of each call and
the same statistics; and in every reachable state the healthy and the unhealthy daemons make
up all of them, and the totals are the sums over the daemons: as `u64` sums, and so exactly
as long as there were less than `2 ^ 64` calls. -/
theorem daemons_independent (config : HealthConfig) :
    (∀ cs cs' m m', Reordered cs cs' → run HealthMonitor.act (.new config) cs = some m →
      run HealthMonitor.act (.new config) cs' = some m' →
      (∀ id, (m.getState id).map DaemonHealthState.untimed =
        (m'.getState id).map DaemonHealthState.untimed) ∧
      (∀ id, resultsOf id (.new config) cs = resultsOf id (.new config) cs') ∧
      ∀ (it : Iteration m.states) (it' : Iteration m'.states),
        (m.statistics it).counts = (m'.statistics it').counts) ∧
    ∀ cs m, run HealthMonitor.act (.new config) cs = some m →
      Nonempty (Iteration m.states) ∧ ∀ it : Iteration m.states,
        m.healthyCount it + m.unhealthyCount it = m.count it ∧
        (m.statistics it).healthyDaemons = m.healthyCount it ∧
        (m.statistics it).unhealthyDaemons = m.unhealthyCount it ∧
        (m.statistics it).totalChecks = (it.values.map (·.totalChecks)).sum % 2 ^ 64 ∧
        (m.statistics it).totalFailures = (it.values.map (·.totalFailures)).sum % 2 ^ 64 ∧
        (cs.length < 2 ^ 64 →
          (m.statistics it).totalChecks = (it.values.map (·.totalChecks)).sum ∧
          (m.statistics it).totalFailures = (it.values.map (·.totalFailures)).sum) := by
  constructor
  · rintro cs cs' m m' ⟨-, hkeys⟩ hr hr'
    have hstates : m.untimed = m'.untimed := by
      funext id
      rw [untimed_of_run id hr, untimed_of_run id hr', hkeys]
    refine ⟨congrFun hstates, fun id => ?_, counts_congr hstates⟩
    rw [resultsOf_eq, resultsOf_eq, answersOf_eq, answersOf_eq, hkeys]
  · intro cs m hr
    refine ⟨exists_iteration hr, fun it => ?_⟩
    have hsplit : m.healthyCount it + m.unhealthyCount it = m.count it :=
      (List.length_eq_length_filter_add _).symm
    have hchecks : (m.statistics it).totalChecks = (it.values.map (·.totalChecks)).sum % 2 ^ 64 :=
      sum_u64Add _
    have hfails : (m.statistics it).totalFailures =
      (it.values.map (·.totalFailures)).sum % 2 ^ 64 := sum_u64Add _
    refine ⟨hsplit, rfl, ?_, hchecks, hfails, fun hn => ?_⟩
    · show m.count it - m.healthyCount it = _
      omega
    · obtain ⟨h1, h2⟩ := sums_le hr it
      rw [hchecks, hfails, Nat.mod_eq_of_lt (by omega), Nat.mod_eq_of_lt (by omega)]
      exact ⟨rfl, rfl⟩

def twoDaemons : List (Nat × Op) :=
  [(0, .register ⟨1⟩), (1, .register ⟨2⟩), (2, .recordCheck ⟨1⟩ (.ofUnhealthy "error" 5 0)),
    (3, .recordTimeout ⟨2⟩)]

def twoDaemonsReordered : List (Nat × Op) :=
  [(0, .register ⟨2⟩), (5, .recordTimeout ⟨2⟩), (6, .register ⟨1⟩),
    (9, .recordCheck ⟨1⟩ (.ofUnhealthy "error" 5 0))]

theorem daemons_independent_two : ∃ m m',
    run HealthMonitor.act (.new {}) twoDaemons = some m ∧
    run HealthMonitor.act (.new {}) twoDaemonsReordered = some m' ∧
    ∀ id, (m.getState id).map DaemonHealthState.untimed =
      (m'.getState id).map DaemonHealthState.untimed := by
  have htargets : (∀ o ∈ twoDaemons.map Prod.snd, o.target = ⟨1⟩ ∨ o.target = ⟨2⟩) ∧
      ∀ o ∈ twoDaemonsReordered.map Prod.snd, o.target = ⟨1⟩ ∨ o.target = ⟨2⟩ := by decide
  have hkeys : Reordered twoDaemons twoDaemonsReordered := by
    refine ⟨by decide, fun id => ?_⟩
    by_cases h1 : id = ⟨1⟩
    · subst h1; decide
    · by_cases h2 : id = ⟨2⟩
      · subst h2; decide
      · have hne : ∀ o : Op, (o.target = ⟨1⟩ ∨ o.target = ⟨2⟩) → o.target ≠ id := by
          rintro o (ho | ho) rfl
          · exact h1 ho
          · exact h2 ho
        rw [onKey_eq_nil fun o ho => hne o (htargets.1 o ho),
          onKey_eq_nil fun o ho => hne o (htargets.2 o ho)]
  exact ⟨_, _, rfl, rfl, ((daemons_independent {}).1 _ _ _ _ hkeys rfl rfl).1⟩

end Duende.Observe
