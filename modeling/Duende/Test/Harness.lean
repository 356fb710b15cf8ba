import Duende.Platform.Services
import Duende.Trans.Run

/-!
# Shutdown in the test harness

`TestDaemonHandle::shutdown`, one call of the adapter or look at the clock at a time; the adapter
may answer anything. `shutdown_settled` says what the adapter has answered when `shutdown`
returns `Ok`, and `shutdown_returns` that it returns.
-/

namespace Duende.Test

open Trans Platforms

/-- The testing error that `shutdown` returns. -/
inductive TestError where
  | shutdown (msg : String)
  deriving DecidableEq, Repr

/-- A call of the adapter, with the answer. -/
inductive Call where
  | signal (sig : Signal) (r : Except PlatformError Unit)
  | status (r : Except PlatformError DaemonStatus)

/-- Where `shutdown` stands. -/
inductive Phase where
  | term
  | poll
  /-- The daemon still runs: has the timeout passed? -/
  | clock
  | kill
  | verify
  | returned (r : Except TestError Unit)

/-- What a step is answered: the result of the call, or `start.elapsed()`. -/
inductive Answer where
  | signalled (r : Except PlatformError Unit)
  | status (r : Except PlatformError DaemonStatus)
  | elapsed (d : Nat)

/-- A `shutdown` in progress, and the calls it has made. -/
structure Shutdown where
  phase : Phase
  calls : List Call

namespace Shutdown

def pollInterval : Nat := 50 * 10 ^ 6

/-- Without a pid there is no process to shut down. -/
def start (h : Platforms.DaemonHandle) : Shutdown :=
  match h.pid with
  | none => ⟨.returned (.ok ()), []⟩
  | some _ => ⟨.term, []⟩

def step (pid : UInt32) (timeout : Nat) (s : Shutdown) : Answer → Option Shutdown
  | .signalled r =>
    match s.phase with
    -- the process might already be dead: an error is only logged
    | .term => some ⟨.poll, s.calls ++ [.signal .term r]⟩
    | .kill =>
      some ⟨match r with
        | .error _ => .returned (.ok ())
        | .ok () => .verify, s.calls ++ [.signal .kill r]⟩
    | _ => none
  | .status r =>
    match s.phase with
    | .poll =>
      some ⟨match r with
        | .ok status => if status.isTerminal then .returned (.ok ()) else .clock
        | .error _ => .returned (.ok ()), s.calls ++ [.status r]⟩
    | .verify =>
      some ⟨.returned (match r with
        | .ok status =>
          if status.isTerminal then .ok ()
          else .error (.shutdown s!"daemon PID {pid.toNat} failed to terminate after SIGKILL")
        | .error _ => .ok ()), s.calls ++ [.status r]⟩
    | _ => none
  | .elapsed d =>
    match s.phase with
    | .clock => some ⟨if timeout ≤ d then .kill else .poll, s.calls⟩
    | _ => none

def shutdown (h : Platforms.DaemonHandle) (timeout : Nat) (answers : List Answer) :
    Option Shutdown :=
  run (step (h.pid.getD 0) timeout) (start h) answers

end Shutdown

/-- A status query that found the process ended. -/
def Call.Verifies : Call → Prop
  | .status (.ok st) => st.isTerminal = true
  | _ => False

/-- A status query or a SIGKILL that failed, which `shutdown` takes for a dead process. -/
def Call.Fails : Call → Prop
  | .status (.error _) | .signal .kill (.error _) => True
  | _ => False

namespace Shutdown

variable {h : Platforms.DaemonHandle} {pid : UInt32} {timeout : Nat} {s s' : Shutdown} {a : Answer}
  {answers : List Answer}

/-! ## What `Ok` stands for -/

/-- The first call is the SIGTERM, and the last one settles it: the process ended, or an error. -/
def Settled (calls : List Call) : Prop :=
  ∃ r mid c, calls = .signal .term r :: (mid ++ [c]) ∧ (c.Verifies ∨ c.Fails)

def Inv (s : Shutdown) : Prop :=
  match s.phase with
  | .term => s.calls = []
  | .returned (.ok ()) => Settled s.calls
  | _ => ∃ r mid, s.calls = .signal .term r :: mid

theorem settled_append {r : Except PlatformError Unit} {mid : List Call} {c : Call}
    (hc : c.Verifies ∨ c.Fails) : Settled ((.signal .term r :: mid) ++ [c]) :=
  ⟨r, mid, c, rfl, hc⟩

/-- **Step lemma.** -/
theorem Inv.step (hi : Inv s) (hs : step pid timeout s a = some s') : Inv s' := by
  obtain ⟨phase, calls⟩ := s
  cases a with
  | signalled r =>
    cases phase with
    | term =>
      cases hs
      obtain rfl : calls = [] := hi
      exact ⟨r, [], rfl⟩
    | kill =>
      cases hs
      obtain ⟨r', mid, rfl⟩ := hi
      cases r with
      | error e => exact settled_append (.inr trivial)
      | ok u => exact ⟨r', mid ++ [.signal .kill (.ok u)], rfl⟩
    | _ => cases hs
  | status r =>
    cases phase with
    | poll =>
      cases hs
      obtain ⟨r', mid, rfl⟩ := hi
      cases r with
      | error e => exact settled_append (.inr trivial)
      | ok status =>
        by_cases ht : status.isTerminal = true
        · simp only [ht, if_true]
          exact settled_append (.inl ht)
        · simp only [ht]
          exact ⟨r', mid ++ [.status (.ok status)], rfl⟩
    | verify =>
      cases hs
      obtain ⟨r', mid, rfl⟩ := hi
      cases r with
      | error e => exact settled_append (.inr trivial)
      | ok status =>
        by_cases ht : status.isTerminal = true
        · simp only [ht, if_true]
          exact settled_append (.inl ht)
        · simp only [ht]
          exact ⟨r', mid ++ [.status (.ok status)], rfl⟩
    | _ => cases hs
  | elapsed d =>
    cases phase with
    | clock =>
      cases hs
      obtain ⟨r', mid, rfl⟩ := hi
      by_cases hd : timeout ≤ d
      · simp only [if_pos hd]
        exact ⟨r', mid, rfl⟩
      · simp only [if_neg hd]
        exact ⟨r', mid, rfl⟩
    | _ => cases hs

/-- **`Ok` from `shutdown`**, of a handle with a pid: the last call made, after the SIGTERM, was a
status query that answered `Stopped` or `Failed`, or a status query or SIGKILL that answered an
error. When none of these answered an error, the process was found ended. -/
theorem shutdown_settled (hp : h.pid = some pid) (hr : shutdown h timeout answers = some s)
    (hret : s.phase = .returned (.ok ())) :
    ∃ r mid c, s.calls = .signal .term r :: (mid ++ [c]) ∧ (c.Verifies ∨ c.Fails) ∧
      ((∀ c' ∈ mid ++ [c], ¬ c'.Fails) → ∃ c' ∈ mid ++ [c], c'.Verifies) := by
  have hstart : Inv (start h) := by
    unfold start
    rw [hp]
    rfl
  have hinv : Inv s := run_inv (fun _ _ _ => Inv.step) hstart hr
  unfold Inv at hinv
  rw [hret] at hinv
  obtain ⟨r, mid, c, hcalls, hc⟩ := hinv
  have hmem : c ∈ mid ++ [c] := List.mem_append_right mid List.mem_cons_self
  exact ⟨r, mid, c, hcalls, hc, fun hnone => ⟨c, hmem, hc.resolve_right (hnone c hmem)⟩⟩

/-- The daemon runs on after the SIGTERM and is found stopped at the second look. -/
def stopsSlowly : List Answer :=
  [.signalled (.ok ()), .status (.ok .running), .elapsed 0, .status (.ok .stopped)]

theorem shutdown_settled_slowly : ∃ s, shutdown ⟨.native, "7".toList, some 7⟩ 100 stopsSlowly =
    some s ∧ ∃ c ∈ s.calls, c.Verifies := by
  obtain ⟨r, mid, c, hcalls, -, hv⟩ := shutdown_settled (h := ⟨.native, "7".toList, some 7⟩) rfl
    (rfl : shutdown _ 100 stopsSlowly = some _) rfl
  have hnone : ∀ c' ∈ mid ++ [c], ¬ c'.Fails := by
    intro c' hmem hf
    have hmem : c' ∈ Call.signal .term r :: (mid ++ [c]) := List.mem_cons_of_mem _ hmem
    rw [← hcalls] at hmem
    fin_cases hmem <;> exact hf
  obtain ⟨c', hmem, hv⟩ := hv hnone
  exact ⟨_, rfl, c', by rw [hcalls]; exact List.mem_cons_of_mem _ hmem, hv⟩

/-- The first status query fails, and nothing has found the process ended. -/
theorem error_taken_for_stopped :
    ¬ ∀ (h : Platforms.DaemonHandle) (pid : UInt32) (timeout : Nat) (answers : List Answer)
      (s : Shutdown),
      h.pid = some pid → shutdown h timeout answers = some s →
      s.phase = .returned (.ok ()) →
      ∃ r rest, s.calls = .signal .term r :: rest ∧ ∃ c ∈ rest, c.Verifies := by
  intro hall
  obtain ⟨r, rest, hcalls, c, hc, hv⟩ := hall ⟨.native, "7".toList, some 7⟩ 7 100
    [.signalled (.ok ()), .status (.error (.status "failed to check process: EPERM"))] _ rfl rfl rfl
  cases hcalls
  obtain rfl := List.mem_singleton.1 hc
  exact hv

/-! ## Termination -/

/-- Between two looks at the clock `shutdown` sleeps. The SIGTERM and the first status query are
made before the first sleep. -/
def Paced (s : Shutdown) : Answer → Prop
  | .elapsed d => pollInterval * (s.calls.length - 2) ≤ d
  | _ => True

/-- How many actions have led to a phase, and which polls have been in time. -/
def Progress (timeout : Nat) (n : Nat) (s : Shutdown) : Prop :=
  match s.phase with
  | .term => n = 0 ∧ s.calls = []
  | .poll => n + 1 = 2 * s.calls.length ∧ pollInterval * (s.calls.length - 2) ≤ timeout
  | .clock => n + 2 = 2 * s.calls.length ∧ pollInterval * (s.calls.length - 3) ≤ timeout
  | .kill => n ≤ 2 * (timeout / pollInterval) + 5
  | .verify => n ≤ 2 * (timeout / pollInterval) + 6
  | .returned _ => n ≤ 2 * (timeout / pollInterval) + 7

theorem le_timeout {k : Nat} (hk : pollInterval * k ≤ timeout) : k ≤ timeout / pollInterval :=
  (Nat.le_div_iff_mul_le (by decide)).2 (Nat.mul_comm k _ ▸ hk)

/-- **Step lemma.** -/
theorem Progress.step {n : Nat} (hp : Progress timeout n s) (hc : Paced s a)
    (hs : step pid timeout s a = some s') : Progress timeout (n + 1) s' := by
  obtain ⟨phase, calls⟩ := s
  have hlen : ∀ c, (calls ++ [c]).length = calls.length + 1 := fun c => by
    rw [List.length_append, List.length_singleton]
  cases a with
  | signalled r =>
    cases phase with
    | term =>
      cases hs
      obtain ⟨rfl, rfl⟩ : n = 0 ∧ calls = [] := hp
      exact ⟨rfl, by simp⟩
    | kill =>
      cases hs
      have hn : n ≤ 2 * (timeout / pollInterval) + 5 := hp
      cases r with
      | error e => exact Nat.le_trans (Nat.succ_le_succ hn) (by omega)
      | ok u => exact Nat.succ_le_succ hn
    | _ => cases hs
  | status r =>
    cases phase with
    | poll =>
      cases hs
      obtain ⟨hn, hle⟩ : n + 1 = 2 * calls.length ∧
        pollInterval * (calls.length - 2) ≤ timeout := hp
      have hdiv := le_timeout hle
      have hret : n + 1 ≤ 2 * (timeout / pollInterval) + 7 := by omega
      cases r with
      | error e => exact hret
      | ok status =>
        cases ht : status.isTerminal with
        | true => simpa only [Progress, ht, if_true] using hret
        | false =>
          simp only [Progress, ht, Bool.false_eq_true, if_false, hlen]
          exact ⟨by omega, hle⟩
    | verify => cases hs; exact Nat.succ_le_succ hp
    | _ => cases hs
  | elapsed d =>
    cases phase with
    | clock =>
      cases hs
      obtain ⟨hn, hle⟩ : n + 2 = 2 * calls.length ∧
        pollInterval * (calls.length - 3) ≤ timeout := hp
      have hdiv := le_timeout hle
      by_cases hd : timeout ≤ d
      · simp only [Progress, if_pos hd]
        omega
      · simp only [Progress, if_neg hd]
        have hpaced : pollInterval * (calls.length - 2) ≤ d := hc
        omega
    | _ => cases hs

theorem Progress.run {n : Nat} (hp : Progress timeout n s)
    (hc : Meets (Shutdown.step pid timeout) Paced s answers)
    (hr : Trans.run (Shutdown.step pid timeout) s answers = some s') :
    Progress timeout (n + answers.length) s' := by
  induction answers generalizing n s with
  | nil =>
    cases hr
    exact hp
  | cons a answers ih =>
    obtain ⟨s1, hs, hr⟩ := run_cons_some.1 hr
    have hp1 := hp.step hc.1 hs
    rw [List.length_cons, Nat.add_comm answers.length 1, ← Nat.add_assoc]
    exact ih hp1 (hc.2 s1 hs) hr

theorem Progress.le {n : Nat} (hp : Progress timeout n s) :
    n ≤ 2 * (timeout / pollInterval) + 7 := by
  unfold Progress at hp
  split at hp
  · omega
  · have := le_timeout hp.2
    omega
  · have := le_timeout hp.2
    omega
  · omega
  · omega
  · exact hp

theorem exists_step (hn : ∀ r, s.phase ≠ .returned r) :
    ∃ a, Paced s a ∧ (step pid timeout s a).isSome := by
  obtain ⟨phase, calls⟩ := s
  cases phase with
  | term => exact ⟨.signalled (.ok ()), trivial, rfl⟩
  | poll => exact ⟨.status (.ok .running), trivial, rfl⟩
  | clock => exact ⟨.elapsed _, Nat.le_refl _, rfl⟩
  | kill => exact ⟨.signalled (.ok ()), trivial, rfl⟩
  | verify => exact ⟨.status (.ok .running), trivial, rfl⟩
  | returned r => exact absurd rfl (hn r)

/-- **`shutdown` returns**, after a number of steps that the timeout bounds. -/
theorem shutdown_returns (hc : Meets (step (h.pid.getD 0) timeout) Paced (start h) answers)
    (hr : shutdown h timeout answers = some s) :
    answers.length ≤ 2 * (timeout / pollInterval) + 7 ∧ ((∀ r, s.phase ≠ .returned r) →
      ∃ a, Paced s a ∧ (step (h.pid.getD 0) timeout s a).isSome) := by
  have hstart : Progress timeout 0 (start h) := by
    unfold start
    cases h.pid with
    | none => exact Nat.zero_le _
    | some pid => exact ⟨rfl, rfl⟩
  have hp := hstart.run hc hr
  rw [Nat.zero_add] at hp
  exact ⟨hp.le, exists_step⟩

def handleSeven : Platforms.DaemonHandle := ⟨.native, "7".toList, some 7⟩

/-- The process stops after the first query. -/
def stopsSeven : List Answer :=
  [.signalled (.ok ()), .status (.ok .running), .elapsed 0, .status (.ok .stopped)]

theorem shutdown_returns_seven : ∃ s, shutdown handleSeven 100 stopsSeven = some s ∧
    s.phase = .returned (.ok ()) ∧ stopsSeven.length ≤ 2 * (100 / pollInterval) + 7 := by
  have hr : ∃ s, shutdown handleSeven 100 stopsSeven = some s ∧ s.phase = .returned (.ok ()) :=
    ⟨_, rfl, rfl⟩
  obtain ⟨s, hs, hret⟩ := hr
  have hpaced : Meets (step (handleSeven.pid.getD 0) 100) Paced (start handleSeven)
      stopsSeven := by
    refine ⟨trivial, fun s hs => ?_⟩
    cases hs
    refine ⟨trivial, fun s hs => ?_⟩
    cases hs
    exact ⟨Nat.zero_le 0, fun _ _ => ⟨trivial, fun _ _ => trivial⟩⟩
  exact ⟨s, hs, hret, (shutdown_returns hpaced hs).1⟩

end Shutdown

end Duende.Test
