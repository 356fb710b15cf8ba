import Duende.Observe.Health
import Duende.Trans.Streak
import Mathlib.Data.Bool.Count

/-!
# The health monitor and the outcomes it records

`since id cs` is the history of a daemon: the outcomes recorded for it since its last
registration, newest first, `false` for a failed check or a timeout. `Tracked` says what
the stored state of a daemon owes to its history, and `tracked_run` that every reachable
monitor keeps it. `health_hysteresis` reads the flips of `is_healthy` off the history.
-/

namespace Duende.Observe

open Trans

/-- What an operation adds to the history of `id`. -/
def recorded (id : DaemonId) (h : List Bool) : Op → List Bool
  | .register j | .unregister j => if j = id then [] else h
  | .recordCheck j status => if j = id then status.isHealthy :: h else h
  | .recordTimeout j => if j = id then false :: h else h

theorem recorded_other {id : DaemonId} {h : List Bool} {o : Op} (hid : o.target ≠ id) :
    recorded id h o = h := by
  cases o <;> exact if_neg hid

theorem recorded_self {h : List Bool} {o : Op} : recorded o.target h o =
    match o with
    | .register _ | .unregister _ => []
    | .recordCheck _ status => status.isHealthy :: h
    | .recordTimeout _ => false :: h := by
  cases o <;> exact if_pos rfl

/-- The outcomes recorded for `id` since its last registration, newest first. -/
def since (id : DaemonId) (cs : List (Nat × Op)) : List Bool :=
  cs.foldl (fun h c => recorded id h c.2) []

theorem since_snoc {id : DaemonId} {cs : List (Nat × Op)} {c : Nat × Op} :
    since id (cs ++ [c]) = recorded id (since id cs) c.2 := by
  unfold since; rw [List.foldl_append]; rfl

variable {config : HealthConfig} {h : List Bool} {s : DaemonHealthState} {now : Nat}
  {id : DaemonId} {status : HealthStatus}

/-! ## What a recorded outcome does -/

/-- A check with this status makes an unhealthy daemon healthy again. -/
def DaemonHealthState.recovers (s : DaemonHealthState) (config : HealthConfig)
    (status : HealthStatus) : Bool :=
  status.isHealthy && !s.isHealthy &&
    decide (config.recoveryThreshold.toNat ≤ u32Add s.consecutiveSuccesses 1)

theorem check_ok (hok : status.isHealthy = true) :
    s.check config now id status =
      ({ s.recordSuccess now status with isHealthy := s.isHealthy || s.recovers config status },
        (if s.recovers config status then
          [.recovered id (asU32 (u64Sub s.totalFailures (u32Add s.consecutiveSuccesses 1)))]
        else []) ++
        if s.isHealthy || s.recovers config status then [.healthy id status] else []) := by
  unfold DaemonHealthState.check DaemonHealthState.recovers
  cases hs : s.isHealthy with
  | true => simp [hok, hs, DaemonHealthState.recordSuccess]
  | false =>
    by_cases hr : config.recoveryThreshold.toNat ≤ u32Add s.consecutiveSuccesses 1 <;>
      simp [hok, hs, hr, DaemonHealthState.recordSuccess]

/-- What a failed check and a timeout leave, up to the reported status. -/
def DaemonHealthState.failed (s : DaemonHealthState) (config : HealthConfig) (now : Nat)
    (status : Option HealthStatus) : DaemonHealthState :=
  { s.recordFailure now status with
    isHealthy := s.isHealthy &&
      !decide (config.failureThreshold.toNat ≤ u32Add s.consecutiveFailures 1) }

theorem check_failed (hbad : status.isHealthy = false) :
    s.check config now id status = (s.failed config now (some status),
      [.unhealthy id status (u32Add s.consecutiveFailures 1)]) := by
  unfold DaemonHealthState.check DaemonHealthState.failed
  cases hs : s.isHealthy with
  | false => simp [hbad, hs, DaemonHealthState.recordFailure]
  | true =>
    by_cases hf : config.failureThreshold.toNat ≤ u32Add s.consecutiveFailures 1 <;>
      simp [hbad, hs, hf, DaemonHealthState.recordFailure]

theorem timeout_eq :
    s.timeout config now id = (s.failed config now none, [.timeout id config.checkTimeout]) := by
  unfold DaemonHealthState.timeout DaemonHealthState.failed
  cases hs : s.isHealthy with
  | false => simp [hs, DaemonHealthState.recordFailure]
  | true =>
    by_cases hf : config.failureThreshold.toNat ≤ u32Add s.consecutiveFailures 1 <;>
      simp [hs, hf, DaemonHealthState.recordFailure]

/-! ## What a stored state owes to its history -/

/-- The stored state of a daemon with history `h`. -/
structure Tracked (config : HealthConfig) (h : List Bool) (s : DaemonHealthState) : Prop where
  failures : s.consecutiveFailures = streak false h
  successes : s.consecutiveSuccesses = streak true h % 2 ^ 32
  checks : s.totalChecks = h.length % 2 ^ 64
  total : s.totalFailures = h.count false
  healthy : s.isHealthy =
    hysteresis (limit config.failureThreshold) (limit config.recoveryThreshold) h

theorem tracked_new (config : HealthConfig) (id : DaemonId) : Tracked config [] (.new id) :=
  ⟨rfl, rfl, rfl, rfl, rfl⟩

theorem Tracked.successes_of_unhealthy (ht : Tracked config h s) (hs : s.isHealthy = false) :
    s.consecutiveSuccesses = streak true h ∧ streak true h < limit config.recoveryThreshold := by
  have hlt := (hysteresis_lt (limit_pos _) (limit_pos _)).2 (ht.healthy.symm.trans hs)
  have := limit_lt config.recoveryThreshold
  exact ⟨by rw [ht.successes, Nat.mod_eq_of_lt (by omega)], hlt⟩

theorem Tracked.success (ht : Tracked config h s) (now : Nat) (id : DaemonId)
    (hok : status.isHealthy = true) :
    Tracked config (true :: h) (s.check config now id status).1 := by
  rw [check_ok hok]
  have hsucc : u32Add s.consecutiveSuccesses 1 = (streak true h + 1) % 2 ^ 32 := by
    unfold u32Add; rw [ht.successes]; omega
  have hchecks : u64Add s.totalChecks 1 = (h.length + 1) % 2 ^ 64 := by
    unfold u64Add; rw [ht.checks]; omega
  refine ⟨(streak_cons_ne (Bool.false_ne_true).symm).symm, hsucc.trans (by rw [streak_cons_self]),
    hchecks, ht.total.trans (by simp), ?_⟩
  show (s.isHealthy || s.recovers config status) = _
  rw [hysteresis_success (limit_pos _) (limit_pos _), ← ht.healthy]
  unfold DaemonHealthState.recovers
  cases hs : s.isHealthy with
  | true => rfl
  | false =>
    obtain ⟨he, hlt⟩ := ht.successes_of_unhealthy hs
    have := limit_lt config.recoveryThreshold
    rw [hok, he, u32Add_of_lt (by omega)]
    simp only [Bool.not_false, Bool.true_and, Bool.false_or, decide_eq_decide]
    exact toNat_le_iff_limit_le (Nat.succ_pos _)

theorem Tracked.failure (ht : Tracked config h s) (hn : h.count false + 1 < 2 ^ 32) (now : Nat)
    (status : Option HealthStatus) : Tracked config (false :: h) (s.failed config now status) := by
  have hstreak : streak false h ≤ h.count false := streak_le_count
  have hfail : u32Add s.consecutiveFailures 1 = streak false h + 1 := by
    rw [ht.failures, u32Add_of_lt (by omega)]
  have hchecks : u64Add s.totalChecks 1 = (h.length + 1) % 2 ^ 64 := by
    unfold u64Add; rw [ht.checks]; omega
  have htotal : u64Add s.totalFailures 1 = h.count false + 1 := by
    rw [ht.total, u64Add_of_lt (by omega)]
  refine ⟨hfail.trans (by rw [streak_cons_self]), ?_, hchecks, htotal.trans (by simp), ?_⟩
  · show 0 = streak true (false :: h) % 2 ^ 32
    rw [streak_cons_ne Bool.false_ne_true, Nat.zero_mod]
  · show (s.isHealthy && !decide (config.failureThreshold.toNat ≤
      u32Add s.consecutiveFailures 1)) = _
    rw [hysteresis_failure (limit_pos _) (limit_pos _), ← ht.healthy, hfail]
    congr 2
    rw [decide_eq_decide]
    exact toNat_le_iff_limit_le (Nat.succ_pos _)

/-! ## Every reachable monitor -/

variable {m m' : HealthMonitor} {cs : List (Nat × Op)} {c : Nat × Op}

theorem modify_states {j : DaemonId} {f : DaemonHealthState → DaemonHealthState × List HealthEvent} :
    (m.modify j f).monitor.states id =
      if j = id then (m.states id).map fun s => (f s).1 else m.states id := by
  unfold HealthMonitor.modify
  by_cases hj : j = id
  · subst hj
    rw [if_pos rfl]
    cases hs : m.states j with
    | none => exact hs
    | some s => exact if_pos rfl
  · rw [if_neg hj]
    cases m.states j with
    | none => rfl
    | some s => exact if_neg fun e => hj e.symm

theorem modify_config {j : DaemonId} {f : DaemonHealthState → DaemonHealthState × List HealthEvent} :
    (m.modify j f).monitor.config = m.config := by
  unfold HealthMonitor.modify; split <;> rfl

theorem op_states_other {o : Op} (h : o.target ≠ id) :
    (m.op now o).monitor.states id = m.states id := by
  cases o with
  | register j => exact if_neg fun e => h e.symm
  | unregister j => exact if_neg fun e => h e.symm
  | recordCheck j status => exact modify_states.trans (if_neg h)
  | recordTimeout j => exact modify_states.trans (if_neg h)

/-- **What an operation leaves** of the state of the daemon it is about. -/
theorem op_states {o : Op} : (m.op now o).monitor.states o.target =
    match o with
    | .register id => some (.new id)
    | .unregister _ => none
    | .recordCheck id status => (m.states id).map fun s => (s.check m.config now id status).1
    | .recordTimeout id => (m.states id).map fun s => (s.timeout m.config now id).1 := by
  cases o with
  | register j => exact if_pos rfl
  | unregister j => exact if_pos rfl
  | recordCheck j status => exact modify_states.trans (if_pos rfl)
  | recordTimeout j => exact modify_states.trans (if_pos rfl)

theorem op_config {o : Op} : (m.op now o).monitor.config = m.config := by
  cases o with
  | register j => rfl
  | unregister j => rfl
  | recordCheck j status => exact modify_config
  | recordTimeout j => exact modify_config

/-- Every stored state is tracked, as long as the failures fit into `u32`. -/
structure Kept (cfg : HealthConfig) (cs : List (Nat × Op)) (m : HealthMonitor) : Prop where
  config : m.config = cfg
  tracked : ∀ id s, m.states id = some s → (since id cs).count false < 2 ^ 32 →
    Tracked cfg (since id cs) s

theorem Kept.step (h : Kept config cs m) (ha : m.act c = some m') :
    Kept config (cs ++ [c]) m' := by
  obtain rfl := Option.some.inj ha
  refine ⟨op_config.trans h.config, fun id s hs hn => ?_⟩
  rw [since_snoc] at hn ⊢
  obtain ⟨now, o⟩ := c
  by_cases hid : o.target = id
  · subst hid
    rw [op_states] at hs
    rw [recorded_self] at hn ⊢
    cases o with
    | register j => cases hs; exact tracked_new config j
    | unregister j => cases hs
    | recordCheck j status =>
      obtain ⟨s₀, hs₀, rfl⟩ := Option.map_eq_some_iff.1 hs
      have hkept := h.tracked j s₀ hs₀
      simp only [Op.target] at hn ⊢
      rw [h.config]
      cases hok : status.isHealthy with
      | true =>
        simp only [hok] at hn
        exact (hkept (by simpa using hn)).success now j hok
      | false =>
        simp only [hok, List.count_cons_self] at hn
        simp only [check_failed hok]
        exact (hkept (by omega)).failure hn now (some status)
    | recordTimeout j =>
      obtain ⟨s₀, hs₀, rfl⟩ := Option.map_eq_some_iff.1 hs
      simp only [Op.target, List.count_cons_self] at hn ⊢
      rw [h.config, timeout_eq]
      exact (h.tracked j s₀ hs₀ (by omega)).failure hn now none
  · rw [op_states_other hid] at hs
    rw [recorded_other hid] at hn ⊢
    exact h.tracked id s hs hn

theorem kept_run (hr : run HealthMonitor.act (.new config) cs = some m) : Kept config cs m :=
  run_hist (P := Kept config) (fun _ _ _ _ => Kept.step) (h := []) ⟨rfl, fun _ _ h => by cases h⟩ hr

/-- **Hysteresis**: the health of a registered daemon is the hysteresis of its history, a
timeout does to it what a failed check does, and its counters add up. -/
theorem health_hysteresis (config : HealthConfig) (cs : List (Nat × Op)) (m : HealthMonitor)
    (id : DaemonId) (s : DaemonHealthState)
    (hr : run HealthMonitor.act (.new config) cs = some m) (hs : m.states id = some s)
    (hn : (since id cs).length < 2 ^ 32) :
    s.isHealthy = hysteresis (limit config.failureThreshold) (limit config.recoveryThreshold)
      (since id cs) ∧
    (∀ now status, status.isHealthy = false →
      (m.recordTimeout now id).monitor.getState id =
        ((m.recordCheck now id status).monitor.getState id).map
          fun s' => { s' with lastStatus := none }) ∧
    min s.consecutiveFailures s.consecutiveSuccesses = 0 ∧
    s.consecutiveFailures ≤ s.totalFailures ∧ s.totalFailures ≤ s.totalChecks ∧
    s.consecutiveSuccesses ≤ s.totalChecks - s.totalFailures := by
  have hfails : (since id cs).count false ≤ (since id cs).length := List.count_le_length
  have ht := (kept_run hr).tracked id s hs (by omega)
  have hstreaks : streak false (since id cs) = 0 ∨ streak true (since id cs) = 0 :=
    streak_eq_zero_or Bool.false_ne_true
  have hfalse : streak false (since id cs) ≤ (since id cs).count false := streak_le_count
  have htrue : streak true (since id cs) ≤ (since id cs).count true := streak_le_count
  have hsum : (since id cs).count true + (since id cs).count false = (since id cs).length :=
    List.count_true_add_count_false _
  have hchecks := ht.checks
  have hsuccesses := ht.successes
  rw [Nat.mod_eq_of_lt (by omega)] at hchecks hsuccesses
  rw [ht.failures, hsuccesses, ht.total, hchecks]
  refine ⟨ht.healthy, fun now status hbad => ?_, by omega, hfalse, by omega, by omega⟩
  show (m.modify id _).monitor.states id = ((m.modify id _).monitor.states id).map _
  rw [modify_states, modify_states, if_pos rfl, if_pos rfl, hs]
  simp only [Option.map_some, check_failed hbad, timeout_eq]
  rfl

/-- A daemon that fails, times out, and is checked twice more with success. -/
def flap : List (Nat × Op) :=
  [(0, .register ⟨7⟩), (1, .recordCheck ⟨7⟩ (.ofUnhealthy "error" 5 0)), (2, .recordTimeout ⟨7⟩),
    (3, .recordCheck ⟨7⟩ (.ofHealthy 5 0)), (4, .recordCheck ⟨7⟩ (.ofHealthy 5 0))]

theorem health_hysteresis_flap : ∃ m s,
    run HealthMonitor.act (.new { failureThreshold := 2 }) flap = some m ∧
    m.states ⟨7⟩ = some s ∧ s.isHealthy = hysteresis 2 2 [true, true, false, false] ∧
    s.consecutiveSuccesses ≤ s.totalChecks - s.totalFailures :=
  have h := health_hysteresis { failureThreshold := 2 } flap _ ⟨7⟩ _ rfl rfl (by decide)
  ⟨_, _, rfl, rfl, h.1, h.2.2.2.2.2⟩

end Duende.Observe
